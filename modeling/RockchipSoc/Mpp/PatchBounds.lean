import Mathlib.Data.List.Basic
import RockchipSoc.Mpp.RegPatch

/-!
# Patches within the register array

No table of register indices is checked against the array, and the copy of address offsets counts
whole elements but copies bytes.  Each iteration makes one access at most, so the accesses stay
within their arrays exactly if each table entry that is used names a register.
-/

namespace RockchipSoc
namespace Mpp
namespace RegPatch

open ByteMemory LabelledRun

/-- No access so far was outside its array. -/
def PatchesInBounds (s : PatchState) : Prop := ∀ access ∈ s.accesses, access.InBounds

instance (s : PatchState) : Decidable (PatchesInBounds s) :=
  inferInstanceAs (Decidable (∀ access ∈ s.accesses, access.InBounds))

/-- The message adds address offsets. -/
def AddsOffsets (task : Bytes) (req : MppRequest) : Prop :=
  req.size ≠ 0 ∧ req.cmd = mppCmdSetRegAddrOffset ∧ OffsetsAccepted task req

instance (task : Bytes) (req : MppRequest) : Decidable (AddsOffsets task req) :=
  inferInstanceAs (Decidable (_ ∧ _))

/-- The register holds a file descriptor that is attached. -/
def HoldsFd (s : PatchState) (index : Nat) (attached : Option Nat) : Prop :=
  usrFd s index ≠ 0 ∧ (attachFd (usrFd s index) attached).isSome

instance (s : PatchState) (index : Nat) (attached : Option Nat) :
    Decidable (HoldsFd s index attached) :=
  inferInstanceAs (Decidable (_ ∧ _))

/-- The table entries that the step uses name registers, and the offsets that it copies have room:
the entry of a register with a file descriptor, an address offset, an RCB buffer that fits. -/
def EntriesInside (dev : RkvdecDev) (s : PatchState) : PatchLabel → Prop
  | .message _ => True
  | .proceed attached _ =>
      match s.stage with
      | .extracting (req :: _) _ => AddsOffsets s.task req.req →
          8 * offCnt s.task + req.req.size.toNat ≤ elemBytes
      | .translating (index :: _) => HoldsFd s index attached → index < rkvdecRegNum
      | .offsetting i => i < offCnt s.task → offIndex s.task i < rkvdecRegNum
      | .rcbs i rcbOffset => i < s.session.rcbCnt → RcbFits dev s.session i rcbOffset →
          rcbIndex s.session i < rkvdecRegNum
      | _ => True

/-- The access of the next step. -/
def nextAccess (dev : RkvdecDev) (s : PatchState) : PatchLabel → Option Access
  | .message _ => none
  | .proceed attached _ =>
      match s.stage with
      | .extracting (req :: _) _ =>
          if AddsOffsets s.task req.req then
            some (.elem (8 * offCnt s.task) req.req.size.toNat)
          else none
      | .translating (index :: _) =>
          if HoldsFd s index attached then some (.reg index) else none
      | .offsetting i =>
          if i < offCnt s.task then some (.reg (offIndex s.task i)) else none
      | .rcbs i rcbOffset =>
          if i < s.session.rcbCnt ∧ RcbFits dev s.session i rcbOffset then
            some (.reg (rcbIndex s.session i))
          else none
      | _ => none

variable {dev : RkvdecDev} {s s' : PatchState} {label : PatchLabel} {req : UserRequest}
  {rest : List UserRequest} {flags : BitVec 32} {attached : Option Nat} {width : Nat}

/-! ## What one iteration accesses -/

theorem accesses_mppDevIoctl {reqs : List UserRequest} {setCnt : Nat} :
    (mppDevIoctl s reqs flags setCnt req).accesses = s.accesses := by
  rw [mppDevIoctl]
  split
  · rfl
  split
  · rfl
  split
  · rfl
  · split
    · split
      · rfl
      · rfl
    · rfl

theorem accesses_setRegWrite : (setRegWrite s req rest flags).accesses = s.accesses := by
  simp only [setRegWrite]
  split
  · rfl
  · rfl

theorem accesses_mppExtractRegOffsetInfo :
    (mppExtractRegOffsetInfo s req).accesses = s.accesses ++
      (if OffsetsAccepted s.task req.req then
        some (Access.elem (8 * offCnt s.task) req.req.size.toNat) else none).toList := by
  unfold mppExtractRegOffsetInfo
  split
  · rfl
  · exact (List.append_nil _).symm

theorem accesses_mppExtractRcbInfo : (mppExtractRcbInfo s req).accesses = s.accesses := by
  rw [mppExtractRcbInfo]
  split
  · rfl
  · rfl

theorem accesses_rkvdec2ExtractTaskMsg :
    (rkvdec2ExtractTaskMsg s req rest flags).accesses = s.accesses ++
      (if AddsOffsets s.task req.req then
        some (Access.elem (8 * offCnt s.task) req.req.size.toNat) else none).toList := by
  by_cases empty : req.req.size = 0
  · have nothing : ¬AddsOffsets s.task req.req := fun adds => adds.1 empty
    rw [rkvdec2ExtractTaskMsg, if_pos empty, if_neg nothing]
    exact (List.append_nil _).symm
  by_cases offsets : req.req.cmd = mppCmdSetRegAddrOffset
  · have other : req.req.cmd ≠ mppCmdSetRegWrite := by rw [offsets]; decide
    have adds : AddsOffsets s.task req.req ↔ OffsetsAccepted s.task req.req :=
      ⟨fun adds => adds.2.2, fun accepted => ⟨empty, offsets, accepted⟩⟩
    rw [rkvdec2ExtractTaskMsg, if_neg empty, if_neg other, if_pos offsets]
    simp only [adds]
    exact accesses_mppExtractRegOffsetInfo
  · have nothing : ¬AddsOffsets s.task req.req := fun adds => offsets adds.2.1
    rw [rkvdec2ExtractTaskMsg, if_neg empty, if_neg offsets, if_neg nothing, Option.toList_none,
      List.append_nil]
    split
    · exact accesses_setRegWrite
    · split
      · exact accesses_mppExtractRcbInfo
      · rfl

theorem accesses_translateReg {index : Nat} {later : List Nat} :
    (translateReg s index later attached).accesses = s.accesses ++
      (if HoldsFd s index attached then some (Access.reg index) else none).toList := by
  unfold translateReg
  split
  · next no_fd =>
      rw [if_neg fun holds => holds.1 no_fd]
      exact (List.append_nil _).symm
  · next some_fd =>
      cases found : attachFd (usrFd s index) attached with
      | none =>
          rw [if_neg fun holds => by rw [HoldsFd, found] at holds; exact absurd holds.2 (by decide)]
          exact (List.append_nil _).symm
      | some iova =>
          rw [if_pos ⟨some_fd, by rw [found]; rfl⟩]
          rfl

theorem accesses_setRcb {i rcbOffset : Nat} :
    (setRcb dev s i rcbOffset).accesses = s.accesses ++
      (if RcbFits dev s.session i rcbOffset then
        some (Access.reg (rcbIndex s.session i)) else none).toList := by
  rw [setRcb]
  split
  · rfl
  · exact (List.append_nil _).symm

/-- A step makes the access that its state and label foretell. -/
theorem accesses_patchStep (taken : patchStep dev s label = some s') :
    s'.accesses = s.accesses ++ (nextAccess dev s label).toList := by
  cases label with
  | message req =>
      simp only [patchStep] at taken
      split at taken
      · rw [← Option.some.inj taken, accesses_mppDevIoctl]
        exact (List.append_nil _).symm
      · cases taken
  | proceed attached width =>
      simp only [patchStep, proceed] at taken
      simp only [nextAccess]
      cases stage : s.stage with
      | collecting reqs flags setCnt => rw [stage] at taken; cases taken
      | returned => rw [stage] at taken; cases taken
      | extracting rest flags =>
          rw [stage] at taken
          cases rest with
          | nil =>
              rw [← Option.some.inj taken]
              exact (List.append_nil _).symm
          | cons req rest =>
              rw [← Option.some.inj taken]
              exact accesses_rkvdec2ExtractTaskMsg
      | translating rest =>
          rw [stage] at taken
          cases rest with
          | nil =>
              rw [← Option.some.inj taken]
              exact (List.append_nil _).symm
          | cons index rest =>
              rw [← Option.some.inj taken]
              exact accesses_translateReg
      | offsetting i =>
          rw [stage] at taken
          rw [← Option.some.inj taken]
          simp only
          split
          · rfl
          · exact (List.append_nil _).symm
      | rcbs i rcbOffset =>
          rw [stage] at taken
          rw [← Option.some.inj taken]
          simp only
          by_cases more : i < s.session.rcbCnt
          · simp only [more, true_and]
            exact accesses_setRcb
          · simp only [more, false_and, if_false]
            exact (List.append_nil _).symm

/-- The condition on a step says that its access is within bounds. -/
theorem entriesInside_iff : EntriesInside dev s label ↔
    ∀ access ∈ nextAccess dev s label, access.InBounds := by
  cases label with
  | message req => simp [EntriesInside, nextAccess]
  | proceed attached width =>
      simp only [EntriesInside, nextAccess]
      cases s.stage with
      | collecting reqs flags setCnt => simp
      | returned => simp
      | extracting rest flags =>
          cases rest with
          | nil => simp
          | cons req rest => simp [Access.InBounds]
      | translating rest =>
          cases rest with
          | nil => simp
          | cons index rest => simp [Access.InBounds]
      | offsetting i => simp [Access.InBounds]
      | rcbs i rcbOffset => simp [Access.InBounds]

/-- A step that makes an access can be taken. -/
theorem exists_next_of_access {access : Access} (made : nextAccess dev s label = some access) :
    ∃ next, patchStep dev s label = some next := by
  cases label with
  | message req => cases made
  | proceed attached width =>
      simp only [nextAccess] at made
      simp only [patchStep, proceed]
      cases stage : s.stage with
      | collecting reqs flags setCnt => rw [stage] at made; cases made
      | returned => rw [stage] at made; cases made
      | extracting rest flags => cases rest <;> exact ⟨_, rfl⟩
      | translating rest => cases rest <;> exact ⟨_, rfl⟩
      | offsetting i => exact ⟨_, rfl⟩
      | rcbs i rcbOffset => exact ⟨_, rfl⟩

theorem PatchesInBounds.step (inside : PatchesInBounds s) (entries : EntriesInside dev s label)
    (taken : patchStep dev s label = some s') : PatchesInBounds s' := by
  intro access made
  rw [accesses_patchStep taken, List.mem_append] at made
  rcases made with before | now
  · exact inside access before
  · exact entriesInside_iff.mp entries access (Option.mem_toList.mp now)

theorem exists_step_not_inBounds (outside : ¬EntriesInside dev s label) :
    ∃ next, patchStep dev s label = some next ∧ ¬PatchesInBounds next := by
  rw [entriesInside_iff] at outside
  obtain ⟨access, made, out⟩ : ∃ access ∈ nextAccess dev s label, ¬access.InBounds := by
    by_contra none_out
    exact outside fun access made => by_contra fun out => none_out ⟨access, made, out⟩
  obtain ⟨next, taken⟩ := exists_next_of_access made
  refine ⟨next, taken, fun inside => out (inside access ?_)⟩
  rw [accesses_patchStep taken]
  exact List.mem_append_right _ (Option.mem_toList.mpr made)

/-- From the first message of an ioctl on, the registers that are patched are in the array, and no
copy of address offsets runs past its array, exactly if the entries that are used are inside. -/
theorem register_patches_in_bounds_iff (dev : RkvdecDev) (session : RkvdecSession)
    (memory : Bytes) (labels : List PatchLabel) :
    Always (patchStep dev) PatchesInBounds (patchStart session memory) labels ↔
      Along (patchStep dev) (EntriesInside dev) (patchStart session memory) labels :=
  always_iff_along PatchesInBounds (fun _ inside => inside)
    (fun _ _ _ inside _ entries taken => inside.step entries taken)
    (fun _ _ _ _ outside => exists_step_not_inBounds outside)
    (fun _ made => absurd made List.not_mem_nil) labels (along_anyStep _ labels)

/-! ## Tables with other entries -/

/-- The user memory with these bytes. -/
def userBytes (bytes : List UInt8) : Bytes := fun k => bytes.getD k 0

/-- A message of a stream, or the last one. -/
def userMessage (cmd : BitVec 32) (last : Bool) (size : BitVec 32) (bytes : List UInt8) :
    PatchLabel :=
  .message ⟨{ cmd := cmd, flags := if last then 3 else 1, size := size }, userBytes bytes,
    size.toNat⟩

/-- The loops go on; each file descriptor is attached at address 4096. -/
def proceeds (n : Nat) : List PatchLabel := List.replicate n (.proceed (some 4096) 1920)

def freshSession : RkvdecSession := ⟨0, fun _ => 0, 0, true, 0, fun _ => 0⟩

def boardDev : RkvdecDev := ⟨0x10000000, 0x10000, 0, fun _ => []⟩

/-- The user's translation table names register 279, which is the index of an address offset and
holds the descriptor 5. -/
def foreignTable : List PatchLabel :=
  [userMessage mppCmdInitTransTable false 2 [0x17, 1],
    userMessage mppCmdSetRegAddrOffset true 8 [5]] ++ proceeds 4

/-- An address offset is for register 1000. -/
def foreignOffset : List PatchLabel :=
  [userMessage mppCmdSetRegAddrOffset false 8 [0xe8, 3],
    userMessage mppCmdInitTransTable true 2 []] ++ proceeds 6

/-- An RCB buffer is for register 1000. -/
def foreignRcb : List PatchLabel :=
  [userMessage mppCmdSetRcbInfo false 8 [0xe8, 3, 0, 0, 16],
    userMessage mppCmdInitTransTable true 2 []] ++ proceeds 7

/-- Sixty address offsets come with seven bytes of another one. -/
def brokenOffset : List PatchLabel :=
  userMessage mppCmdSetRegAddrOffset true 487 [] :: proceeds 1

/-- The run ends with an access outside its array. -/
def EndsOutside (labels : List PatchLabel) : Prop :=
  ∃ final, runs (patchStep boardDev) (patchStart freshSession fun _ => 0) labels = some final ∧
    ¬PatchesInBounds final

/-- Each of the four tables leads outside. -/
theorem foreign_entries_patched :
    [foreignTable, foreignOffset, foreignRcb, brokenOffset].Forall EndsOutside := by
  have outcomes : ∀ labels ∈ [foreignTable, foreignOffset, foreignRcb, brokenOffset],
      (runs (patchStep boardDev) (patchStart freshSession fun _ => 0) labels).map
        (fun final => decide (¬PatchesInBounds final)) = some true := by decide +kernel
  rw [List.forall_iff_forall_mem]
  intro labels listed
  obtain ⟨final, execution, outside⟩ := Option.map_eq_some_iff.mp (outcomes labels listed)
  exact ⟨final, execution, of_decide_eq_true outside⟩

end RegPatch
end Mpp
end RockchipSoc
