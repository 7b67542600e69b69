import RockchipSoc.Foundation.LabelledRun
import RockchipSoc.Mpp.Request

/-!
# Collecting messages and memory regions

`mpp_dev_ioctl` parses each message of a stream into `task_msgs.reqs[]` and counts it afterwards;
`mpp_task_attach_fd` compares the count of regions with the size of `mem_regions[]` but lets the
size itself pass.  Either counter is one step late, so that one element behind the array can be
written.
-/

namespace RockchipSoc
namespace Mpp
namespace MsgCollect

open LabelledRun

/-! ## Messages -/

/-- One message of the stream: what can be read of it, the result of `mpp_process_request`, and the
one of the task and of the wait if it is the last. -/
structure StreamMsg where
  msg : Option MppRequest
  result : Int := 0
  taskResult : Int := 0

/-- `task_msgs.req_cnt`, the indices at which requests were written, and the value returned. -/
structure CollectState where
  reqCnt : Nat := 0
  written : List Nat := []
  ret : Option Int := none
  deriving DecidableEq, Repr

/-- One round of the loop of `mpp_dev_ioctl`. -/
def collectStep (s : CollectState) (label : StreamMsg) : Option CollectState :=
  if s.ret.isSome then none
  else match label.msg with
    | none => some { s with ret := some (-mppEfault) }
    | some req =>
        -- `mpp_parse_msg_v1` fills the request before it looks at the command.
        let parsed := { s with written := s.written ++ [s.reqCnt] }
        if !mppCheckCmdV1 req.cmd then some { parsed with ret := some (-mppEfault) }
        else
          let counted := { parsed with reqCnt := s.reqCnt + 1 }
          if counted.reqCnt > mppMaxMsgNum then some { counted with ret := some (-mppEinval) }
          else if label.result ≠ 0 then some { counted with ret := some (-mppEfault) }
          else if mppMsgIsLast req then some { counted with ret := some label.taskResult }
          else some counted

def ReqsInBounds (s : CollectState) : Prop := ∀ index ∈ s.written, index < mppMaxMsgNum

instance (s : CollectState) : Decidable (ReqsInBounds s) :=
  inferInstanceAs (Decidable (∀ index ∈ s.written, index < mppMaxMsgNum))

/-- After as many messages as fit, no other one can be read. -/
def EndsInTime (s : CollectState) (label : StreamMsg) : Prop :=
  s.ret = none → s.reqCnt = mppMaxMsgNum → label.msg = none

/-- All requests so far are in the array, and the counter has not left it. -/
structure CollectInv (s : CollectState) : Prop where
  inBounds : ReqsInBounds s
  counted : s.ret = none → s.reqCnt ≤ mppMaxMsgNum

variable {s s' : CollectState} {label : StreamMsg}

/-- What a round does with a message: it writes at the counter, and goes on only below the limit. -/
theorem collectStep_spec (taken : collectStep s label = some s') :
    s.ret = none ∧ (label.msg = none ∧ s'.written = s.written ∧ s'.ret ≠ none ∨
      s'.written = s.written ++ [s.reqCnt] ∧
        (s'.ret = none → s'.reqCnt ≤ mppMaxMsgNum)) := by
  unfold collectStep at taken
  split at taken
  · cases taken
  next going =>
    refine ⟨by simpa using going, ?_⟩
    cases read : label.msg with
    | none =>
        rw [read] at taken
        rw [← Option.some.inj taken]
        exact Or.inl ⟨rfl, rfl, Option.some_ne_none _⟩
    | some req =>
        rw [read] at taken
        refine Or.inr ?_
        simp only at taken
        split at taken
        · rw [← Option.some.inj taken]
          exact ⟨rfl, fun none_ret => by cases none_ret⟩
        · split at taken
          · rw [← Option.some.inj taken]
            exact ⟨rfl, fun none_ret => by cases none_ret⟩
          next within =>
            split at taken
            · rw [← Option.some.inj taken]
              exact ⟨rfl, fun none_ret => by cases none_ret⟩
            · split at taken
              · rw [← Option.some.inj taken]
                exact ⟨rfl, fun none_ret => by cases none_ret⟩
              · rw [← Option.some.inj taken]
                exact ⟨rfl, fun _ => Nat.le_of_not_lt within⟩

theorem exists_collectStep (label : StreamMsg) (going : s.ret = none) :
    ∃ next, collectStep s label = some next := by
  have running : s.ret.isSome = false := by rw [going]; rfl
  unfold collectStep
  rw [running]
  cases label.msg with
  | none => exact ⟨_, rfl⟩
  | some req =>
      simp only [Bool.false_eq_true, if_false]
      repeat' split
      all_goals exact ⟨_, rfl⟩

theorem CollectInv.step (inv : CollectInv s) (ends : EndsInTime s label)
    (taken : collectStep s label = some s') : CollectInv s' := by
  obtain ⟨going, ⟨_, same, stopped⟩ | ⟨wrote, counted⟩⟩ := collectStep_spec taken
  · exact ⟨fun index member => inv.inBounds index (same ▸ member),
      fun still => absurd still stopped⟩
  · refine ⟨fun index member => ?_, counted⟩
    rw [wrote, List.mem_append, List.mem_singleton] at member
    rcases member with before | rfl
    · exact inv.inBounds index before
    · refine Nat.lt_of_le_of_ne (inv.counted going) fun full => ?_
      have unread := ends going full
      simp only [collectStep, going, unread] at taken
      have same : s.written = s.written ++ [s.reqCnt] := by
        rw [← wrote, ← Option.some.inj taken]
      simp at same

theorem exists_step_not_reqsInBounds (late : ¬EndsInTime s label) :
    ∃ next, collectStep s label = some next ∧ ¬ReqsInBounds next := by
  simp only [EndsInTime, Classical.not_imp] at late
  obtain ⟨going, full, read⟩ := late
  obtain ⟨next, taken⟩ := exists_collectStep label going
  refine ⟨next, taken, fun inBounds => ?_⟩
  obtain ⟨_, ⟨unread, _⟩ | ⟨wrote, _⟩⟩ := collectStep_spec taken
  · exact read unread
  · have below := inBounds s.reqCnt (wrote ▸ List.mem_append_right _ List.mem_cons_self)
    omega

/-! ## Memory regions -/

/-- A call of `mpp_task_attach_fd`: the session has a device and a DMA session, and the kernel
imports the descriptor. -/
structure AttachCall where
  fd : Int
  usable : Bool := true
  imported : Bool := true

/-- `task->mem_count`, the descriptors of `mem_region_list`, and the slots that were taken. -/
structure RegionState where
  memCount : Nat := 0
  fds : List Int := []
  slots : List Nat := []
  deriving DecidableEq, Repr

/-- The descriptor is valid and known, or it can be imported. -/
def Attachable (s : RegionState) (call : AttachCall) : Prop :=
  0 < call.fd ∧ call.usable = true ∧ (call.fd ∈ s.fds ∨ call.imported = true)

instance (s : RegionState) (call : AttachCall) : Decidable (Attachable s call) :=
  inferInstanceAs (Decidable (_ ∧ _ ∧ _))

def mppTaskAttachFd (s : RegionState) (call : AttachCall) : RegionState :=
  if call.fd ≤ 0 || !call.usable then s
  else if s.memCount > mppMaxRegTransNum then s
  else if call.fd ∈ s.fds || call.imported then
    { memCount := s.memCount + 1
      fds := call.fd :: s.fds
      slots := s.slots ++ [s.memCount] }
  else s

def attachStep (s : RegionState) (call : AttachCall) : Option RegionState :=
  some (mppTaskAttachFd s call)

def SlotsInBounds (s : RegionState) : Prop := ∀ slot ∈ s.slots, slot < mppMaxRegTransNum

instance (s : RegionState) : Decidable (SlotsInBounds s) :=
  inferInstanceAs (Decidable (∀ slot ∈ s.slots, slot < mppMaxRegTransNum))

/-- Once all slots are taken, no further descriptor can be attached. -/
def LeavesRoom (s : RegionState) (call : AttachCall) : Prop :=
  s.memCount = mppMaxRegTransNum → ¬Attachable s call

structure RegionInv (s : RegionState) : Prop where
  inBounds : SlotsInBounds s
  counted : s.memCount ≤ mppMaxRegTransNum

variable {r : RegionState} {call : AttachCall}

theorem mppTaskAttachFd_eq (counted : r.memCount ≤ mppMaxRegTransNum) :
    mppTaskAttachFd r call = if Attachable r call then
      { memCount := r.memCount + 1, fds := call.fd :: r.fds, slots := r.slots ++ [r.memCount] }
    else r := by
  have room : ¬r.memCount > mppMaxRegTransNum := Nat.not_lt.mpr counted
  by_cases valid : 0 < call.fd ∧ call.usable = true
  · have checked : ¬(decide (call.fd ≤ 0) || !call.usable) = true := by
      simp [valid.1, valid.2]
    have attachable_iff : Attachable r call ↔
        (decide (call.fd ∈ r.fds) || call.imported) = true := by
      simp [Attachable, valid.1, valid.2]
    rw [mppTaskAttachFd, if_neg checked, if_neg room]
    simp only [attachable_iff]
  · have refused : (decide (call.fd ≤ 0) || !call.usable) = true := by
      by_contra accepted
      refine valid ?_
      simpa using accepted
    have not_attachable : ¬Attachable r call := fun attachable =>
      valid ⟨attachable.1, attachable.2.1⟩
    rw [mppTaskAttachFd, if_pos refused, if_neg not_attachable]

theorem RegionInv.step (inv : RegionInv r) (room : LeavesRoom r call) :
    RegionInv (mppTaskAttachFd r call) := by
  rw [mppTaskAttachFd_eq inv.counted]
  split
  · next attachable =>
      have below : r.memCount < mppMaxRegTransNum :=
        Nat.lt_of_le_of_ne inv.counted fun full => room full attachable
      refine ⟨fun slot member => ?_, below⟩
      rcases List.mem_append.mp member with before | now
      · exact inv.inBounds slot before
      · rw [List.mem_singleton.mp now]
        exact below
  · exact inv

theorem RegionInv.broken (inv : RegionInv r) (full : ¬LeavesRoom r call) :
    ¬SlotsInBounds (mppTaskAttachFd r call) := by
  simp only [LeavesRoom, Classical.not_imp, not_not] at full
  rw [mppTaskAttachFd_eq inv.counted, if_pos full.2]
  intro inBounds
  have below := inBounds r.memCount (List.mem_append_right _ List.mem_cons_self)
  omega

/-! ## Both arrays -/

/-- The requests of an ioctl are in their array exactly if nothing can be read behind as many
messages as fit, and the regions of a task in theirs exactly if nothing can be attached once all are
taken. -/
theorem collected_in_bounds_iff (messages : List StreamMsg) (calls : List AttachCall) :
    (Always collectStep ReqsInBounds {} messages ↔ Along collectStep EndsInTime {} messages) ∧
      (Always attachStep SlotsInBounds {} calls ↔ Along attachStep LeavesRoom {} calls) := by
  constructor
  · exact always_iff_along CollectInv (fun _ inv => inv.inBounds)
      (fun _ _ _ inv _ ends taken => inv.step ends taken)
      (fun _ _ _ _ late => exists_step_not_reqsInBounds late)
      ⟨fun _ member => absurd member List.not_mem_nil, fun _ => Nat.zero_le _⟩ messages
      (along_anyStep _ messages)
  · exact always_iff_along RegionInv (fun _ inv => inv.inBounds)
      (fun _ _ _ inv _ room taken => Option.some.inj taken ▸ inv.step room)
      (fun _ _ inv _ full => ⟨_, rfl, inv.broken full⟩)
      ⟨fun _ member => absurd member List.not_mem_nil, Nat.zero_le _⟩ calls
      (along_anyStep _ calls)

/-- Seventeen messages of a stream that has no end. -/
def endlessStream : List StreamMsg := List.replicate 17 ⟨some { flags := mppFlagsMultiMsg }, 0, 0⟩

/-- Sixty-one descriptors. -/
def manyFds : List AttachCall := (List.range 61).map fun (k : Nat) => { fd := k + 1 }

theorem element_behind_array_written :
    ¬Always collectStep ReqsInBounds {} endlessStream ∧
      ¬Always attachStep SlotsInBounds {} manyFds := by
  have written : (runs collectStep {} endlessStream).map
      (fun final => decide (16 ∈ final.written)) = some true := by decide +kernel
  have taken : (runs attachStep {} manyFds).map (fun final => decide (60 ∈ final.slots)) =
      some true := by decide +kernel
  obtain ⟨final, execution, behind⟩ := Option.map_eq_some_iff.mp written
  obtain ⟨final', execution', behind'⟩ := Option.map_eq_some_iff.mp taken
  refine ⟨fun always => ?_, fun always => ?_⟩
  · exact absurd (always.of_runs execution 16 (of_decide_eq_true behind)) (by decide)
  · exact absurd (always.of_runs execution' 60 (of_decide_eq_true behind')) (by decide)

end MsgCollect
end Mpp
end RockchipSoc
