import Mathlib.Tactic.Common
import RockchipSoc.Foundation.CheckedArith
import RockchipSoc.Foundation.LabelledRun

/-!
# The ring of the RGA2 page table

Jobs take their page tables from one buffer of `size` entries.  `front` is where the next table
starts; `back` runs from `size` to `2 * size` and is meant to bound it.  The fields are of type
`int`, the size of a table is unsigned, and so are the comparisons and sums it takes part in.
-/

namespace RockchipSoc
namespace Rga

open CInt LabelledRun

/-- The cursors of `struct rga2_mmu_info_t`. -/
structure Rga2MmuInfo where
  front : ℤ
  back : ℤ
  size : ℤ
  deriving DecidableEq

def rga2PhyPageSize : ℤ := 8192 * 8192 * 4 / 4096 + 1

/-- The ring as `rga_init` leaves it. -/
def rga2MmuInfoInit : Rga2MmuInfo := ⟨0, rga2PhyPageSize * 3, rga2PhyPageSize * 3⟩

/-- `rga2_mmu_buf_get_try`; `none` is `-ENOMEM`, which leaves the ring alone. -/
def rga2MmuBufGetTry (t : Rga2MmuInfo) (size : UInt32) : Option Rga2MmuInfo :=
  if t.size < s32 (t.back - t.front) then
    if CInt.u32 (t.back - t.size) < CInt.u32 (t.front + size.toNat) then none else some t
  else if CInt.u32 t.back < CInt.u32 (t.front + size.toNat) then none
  else if CInt.u32 t.size < CInt.u32 (t.front + size.toNat) then
    if CInt.u32 (t.back - t.size) < size.toNat then none else some { t with front := 0 }
  else some t

def rga2MmuBufGet (t : Rga2MmuInfo) (size : UInt32) : Rga2MmuInfo :=
  { t with front := s32 (t.front + size.toNat) }

/-- The section of `rga2_init_reg` that moves `back` by the length of the job's table. -/
def rga2AdvanceBack (t : Rga2MmuInfo) (mmuLen : UInt32) : Rga2MmuInfo :=
  if mmuLen = 0 then t
  else if CInt.u32 (2 * t.size) < CInt.u32 (t.back + mmuLen.toNat) then
    { t with back := s32 (mmuLen.toNat + t.size) }
  else { t with back := s32 (t.back + mmuLen.toNat) }

/-! ## One job at a time -/

/-- Where `rga2_init_reg` is with the table of its job. -/
inductive TableStage
  | idle
  /-- The table was granted and is being filled. -/
  | granted (allSize : UInt32)
  /-- The table is filled and `front` has moved past it. -/
  | mapped (allSize : UInt32)
  deriving DecidableEq

structure MmuRing where
  info : Rga2MmuInfo
  stage : TableStage
  deriving DecidableEq

inductive MmuLabel
  | getTry (allSize : UInt32)
  /-- A mapping function fails; the job leaves without a table. -/
  | mapFails
  /-- The table is filled: `rga2_mmu_buf_get` and the store to `MMU_len`. -/
  | get
  | advanceBack
  deriving DecidableEq

def mmuRingInit : MmuRing := ⟨rga2MmuInfoInit, .idle⟩

def mmuStep (r : MmuRing) : MmuLabel → Option MmuRing
  | .getTry allSize =>
      match r.stage with
      | .idle =>
          match rga2MmuBufGetTry r.info allSize with
          | some info => some ⟨info, .granted allSize⟩
          | none => some r
      | _ => none
  | .mapFails =>
      match r.stage with
      | .granted _ => some { r with stage := .idle }
      | _ => none
  | .get =>
      match r.stage with
      | .granted allSize => some ⟨rga2MmuBufGet r.info allSize, .mapped allSize⟩
      | _ => none
  | .advanceBack =>
      match r.stage with
      | .mapped allSize => some ⟨rga2AdvanceBack r.info allSize, .idle⟩
      | _ => none

/-- Both cursors are in their halves. -/
structure CursorsInside (t : Rga2MmuInfo) : Prop where
  front_nonneg : 0 ≤ t.front
  front_le : t.front ≤ t.size
  size_le_back : t.size ≤ t.back
  back_le : t.back ≤ 2 * t.size

/-- The cursors are in place, and a granted table lies in the buffer. -/
structure StaysInside (r : MmuRing) : Prop where
  cursors : CursorsInside r.info
  window : ∀ allSize, r.stage = .granted allSize → r.info.front + allSize.toNat ≤ r.info.size

/-- The end of a requested table does not wrap. -/
def NoWrap (r : MmuRing) : MmuLabel → Prop
  | .getTry allSize => r.stage = .idle → r.info.front + allSize.toNat < 2 ^ 32
  | _ => True

/-- The ring that `rga_init` sets up, with the cursors in place. -/
structure Tied (t : Rga2MmuInfo) : Prop where
  cursors : CursorsInside t
  size_eq : t.size = 196611

/-- What holds between the sections of the driver. -/
structure RingInv (r : MmuRing) : Prop where
  tied : Tied r.info
  window : ∀ allSize, r.stage = .granted allSize → r.info.front + allSize.toNat ≤ r.info.size
  mapped : ∀ allSize, r.stage = .mapped allSize → (allSize.toNat : ℤ) ≤ r.info.size

variable {t t' : Rga2MmuInfo} {size : UInt32}

theorem u32_of_fits {n : ℤ} (low : 0 ≤ n) (high : n < 2 ^ 32) : CInt.u32 n = n := by
  unfold CInt.u32
  omega

/-- The two cases of the check without the machine arithmetic: while `back` is more than one ring
ahead the table ends before `back - size`, else it ends before the end of the buffer or starts
over below `back - size`. -/
theorem rga2MmuBufGetTry_eq (tied : Tied t) (noWrap : t.front + size.toNat < 2 ^ 32) :
    rga2MmuBufGetTry t size =
      if t.size < t.back - t.front then
        if t.front + size.toNat ≤ t.back - t.size then some t else none
      else if t.front + size.toNat ≤ t.size then some t
      else if t.front + size.toNat ≤ t.back ∧ size.toNat ≤ t.back - t.size then
        some { t with front := 0 }
      else none := by
  obtain ⟨⟨front_nonneg, front_le, size_le_back, back_le⟩, size_eq⟩ := tied
  unfold rga2MmuBufGetTry
  rw [s32_of_fits (by omega) (by omega), u32_of_fits (n := t.back - t.size) (by omega) (by omega),
    u32_of_fits (n := t.back) (by omega) (by omega),
    u32_of_fits (n := t.size) (by omega) (by omega),
    u32_of_fits (n := t.front + size.toNat) (by omega) noWrap]
  split
  · split
    · rw [if_neg (by omega)]
    · rw [if_pos (by omega)]
  · split
    · rw [if_neg (by omega), if_neg (by omega)]
    · split
      · split
        · rw [if_neg (by omega), if_neg (by omega)]
        · rw [if_neg (by omega), if_pos (by omega)]
      · rw [if_pos (by omega)]

/-- A granted table starts at `front` and ends inside the buffer. -/
theorem rga2MmuBufGetTry_granted (tied : Tied t) (noWrap : t.front + size.toNat < 2 ^ 32)
    (granted : rga2MmuBufGetTry t size = some t') :
    t'.back = t.back ∧ t'.size = t.size ∧ 0 ≤ t'.front ∧ t'.front + size.toNat ≤ t.size := by
  have bounds := tied
  obtain ⟨⟨front_nonneg, front_le, size_le_back, back_le⟩, size_eq⟩ := bounds
  rw [rga2MmuBufGetTry_eq tied noWrap] at granted
  split at granted
  · split at granted
    · obtain rfl := Option.some.inj granted
      exact ⟨rfl, rfl, front_nonneg, by omega⟩
    · contradiction
  · split at granted
    · obtain rfl := Option.some.inj granted
      exact ⟨rfl, rfl, front_nonneg, by omega⟩
    · split at granted
      · obtain rfl := Option.some.inj granted
        exact ⟨rfl, rfl, Int.le_refl 0, by simp only; omega⟩
      · contradiction

/-- A table whose end wraps is granted at `front`. -/
theorem rga2MmuBufGetTry_wraps (tied : Tied t) (wraps : 2 ^ 32 ≤ t.front + size.toNat) :
    rga2MmuBufGetTry t size = some t := by
  obtain ⟨⟨front_nonneg, front_le, size_le_back, back_le⟩, size_eq⟩ := tied
  have small : (size.toNat : ℤ) < 2 ^ 32 := by exact_mod_cast size.toNat_lt
  have wrapped : CInt.u32 (t.front + size.toNat) = t.front + size.toNat - 2 ^ 32 := by
    unfold CInt.u32
    omega
  unfold rga2MmuBufGetTry
  rw [s32_of_fits (by omega) (by omega), u32_of_fits (n := t.back - t.size) (by omega) (by omega),
    u32_of_fits (n := t.back) (by omega) (by omega),
    u32_of_fits (n := t.size) (by omega) (by omega), wrapped]
  split
  · rw [if_neg (by omega)]
  · rw [if_neg (by omega), if_neg (by omega)]

theorem rga2AdvanceBack_eq (tied : Tied t) (fits : (size.toNat : ℤ) ≤ t.size) :
    rga2AdvanceBack t size = { t with back :=
      if 2 * t.size < t.back + size.toNat then size.toNat + t.size else t.back + size.toNat } := by
  obtain ⟨⟨front_nonneg, front_le, size_le_back, back_le⟩, size_eq⟩ := tied
  unfold rga2AdvanceBack
  split
  next zero =>
    have none : size.toNat = 0 := by rw [zero]; rfl
    rw [if_neg (by omega), none, Int.natCast_zero, Int.add_zero]
  next =>
    rw [u32_of_fits (n := 2 * t.size) (by omega) (by omega),
      u32_of_fits (n := t.back + size.toNat) (by omega) (by omega)]
    split
    · rw [s32_of_fits (by omega) (by omega)]
    · rw [s32_of_fits (by omega) (by omega)]

/-- Every section keeps the cursors in place and grants tables inside the buffer. -/
theorem RingInv.step {r r' : MmuRing} {label : MmuLabel} (inv : RingInv r)
    (noWrap : NoWrap r label) (taken : mmuStep r label = some r') : RingInv r' := by
  obtain ⟨info, stage⟩ := r
  have bounds := inv.tied
  obtain ⟨⟨front_nonneg, front_le, size_le_back, back_le⟩, size_eq⟩ := bounds
  cases label with
  | getTry allSize =>
      cases stage with
      | idle =>
          simp only [mmuStep] at taken
          cases asked : rga2MmuBufGetTry info allSize with
          | none =>
              simp only [asked] at taken
              obtain rfl := Option.some.inj taken
              exact inv
          | some info' =>
              simp only [asked] at taken
              obtain rfl := Option.some.inj taken
              obtain ⟨back_eq, size_eq', front_nonneg', inside⟩ :=
                rga2MmuBufGetTry_granted inv.tied (noWrap rfl) asked
              refine ⟨⟨⟨front_nonneg', ?_, ?_, ?_⟩, ?_⟩, ?_, ?_⟩ <;> simp only at *
              · omega
              · omega
              · omega
              · omega
              · rintro _ ⟨⟩
                omega
              · rintro _ ⟨⟩
      | granted _ => contradiction
      | mapped _ => contradiction
  | mapFails =>
      cases stage with
      | granted allSize =>
          obtain rfl := Option.some.inj taken
          exact ⟨inv.tied, by rintro _ ⟨⟩, by rintro _ ⟨⟩⟩
      | idle => contradiction
      | mapped _ => contradiction
  | get =>
      cases stage with
      | granted allSize =>
          obtain rfl := Option.some.inj taken
          have inside := inv.window allSize rfl
          simp only at *
          have next : s32 (info.front + allSize.toNat) = info.front + allSize.toNat :=
            s32_of_fits (by omega) (by omega)
          refine ⟨⟨⟨?_, ?_, size_le_back, back_le⟩, size_eq⟩, by rintro _ ⟨⟩, ?_⟩
          · simp only [rga2MmuBufGet, next]
            omega
          · simp only [rga2MmuBufGet, next]
            exact inside
          · rintro _ ⟨⟩
            simp only [rga2MmuBufGet]
            omega
      | idle => contradiction
      | mapped _ => contradiction
  | advanceBack =>
      cases stage with
      | mapped allSize =>
          obtain rfl := Option.some.inj taken
          have fits := inv.mapped allSize rfl
          rw [rga2AdvanceBack_eq inv.tied fits]
          refine ⟨⟨⟨front_nonneg, front_le, ?_, ?_⟩, size_eq⟩, by rintro _ ⟨⟩, by rintro _ ⟨⟩⟩
          all_goals
            simp only at *
            split <;> omega
      | idle => contradiction
      | granted _ => contradiction

/-- A request whose end wraps is granted a table that leaves the buffer. -/
theorem RingInv.broken {r : MmuRing} {label : MmuLabel} (inv : RingInv r)
    (wraps : ¬NoWrap r label) : ∃ r', mmuStep r label = some r' ∧ ¬StaysInside r' := by
  cases label with
  | getTry allSize =>
      obtain ⟨idle, beyond⟩ := Classical.not_imp.mp wraps
      have granted := rga2MmuBufGetTry_wraps inv.tied (not_lt.mp beyond)
      refine ⟨⟨r.info, .granted allSize⟩, by simp only [mmuStep, idle, granted], fun inside => ?_⟩
      have window := inside.window allSize rfl
      have size_eq := inv.tied.size_eq
      simp only at window
      omega
  | mapFails => exact absurd trivial wraps
  | get => exact absurd trivial wraps
  | advanceBack => exact absurd trivial wraps

theorem ringInv_init : RingInv mmuRingInit :=
  ⟨⟨⟨by decide, by decide, by decide, by decide⟩, by decide⟩, by rintro _ ⟨⟩, by rintro _ ⟨⟩⟩

/-- The ring stays inside its buffer over a run of sections exactly if the end of no requested
table wraps. -/
theorem mmu_ring_stays_inside_iff (labels : List MmuLabel) :
    Always mmuStep StaysInside mmuRingInit labels ↔ Along mmuStep NoWrap mmuRingInit labels :=
  always_iff_along RingInv (fun _ inv => ⟨inv.tied.cursors, inv.window⟩)
    (fun _ _ _ inv _ noWrap taken => inv.step noWrap taken)
    (fun _ _ inv _ wraps => inv.broken wraps) ringInv_init labels (along_anyStep _ labels)

/-- Behind a first table of sixteen entries, one of `2 ^ 32 - 16` entries is granted as well. -/
theorem wrapping_table_leaves_the_buffer :
    ∃ r ∈ runs mmuStep mmuRingInit [.getTry 16, .get, .advanceBack, .getTry 4294967280],
      r.info.front = 16 ∧ r.info.size = 196611 ∧ r.stage = .granted 4294967280 ∧
      ¬StaysInside r := by
  refine ⟨_, rfl, by decide, by decide, by decide, fun inside => ?_⟩
  exact absurd (inside.window 4294967280 (by decide)) (by decide)

/-! ## Completed jobs -/

/-- A job that gets its table, fills it and completes. -/
def jobStep (r : MmuRing) (allSize : UInt32) : Option MmuRing :=
  runs mmuStep r [.getTry allSize, .get, .advanceBack]

/-- Between completed jobs `back` is exactly one ring ahead of `front`. -/
structure OneRingAhead (r : MmuRing) : Prop where
  idle : r.stage = .idle
  front_nonneg : 0 ≤ r.info.front
  front_le : r.info.front ≤ r.info.size
  back_eq : r.info.back = r.info.front + r.info.size
  size_eq : r.info.size = 196611

theorem OneRingAhead.tied {r : MmuRing} (ahead : OneRingAhead r) : Tied r.info := by
  obtain ⟨_, front_nonneg, front_le, back_eq, size_eq⟩ := ahead
  exact ⟨⟨front_nonneg, front_le, by omega, by omega⟩, size_eq⟩

theorem jobStep_eq {r : MmuRing} (idle : r.stage = .idle) (allSize : UInt32) :
    jobStep r allSize = (rga2MmuBufGetTry r.info allSize).map fun info =>
      ⟨rga2AdvanceBack (rga2MmuBufGet info allSize) allSize, .idle⟩ := by
  simp only [jobStep, runs, mmuStep, idle]
  cases rga2MmuBufGetTry r.info allSize with
  | none => simp only [Option.bind_some, idle, Option.bind_none, Option.map_none]
  | some info => simp only [Option.bind_some, Option.map_some]

/-- With `back` one ring ahead a table is granted behind the last one if the buffer has room
there, and at its start if it ends before the last one does. -/
theorem OneRingAhead.getTry_eq {r : MmuRing} (ahead : OneRingAhead r) {allSize : UInt32}
    (noWrap : r.info.front + allSize.toNat < 2 ^ 32) : rga2MmuBufGetTry r.info allSize =
      if r.info.front + allSize.toNat ≤ r.info.size then some r.info
      else if allSize.toNat ≤ r.info.front then some { r.info with front := 0 } else none := by
  have bounds := ahead
  obtain ⟨_, front_nonneg, front_le, back_eq, size_eq⟩ := bounds
  rw [rga2MmuBufGetTry_eq ahead.tied noWrap, if_neg (by omega)]
  refine if_congr Iff.rfl rfl (if_congr ?_ rfl rfl)
  omega

/-- Tables of any size keep the distance, also one whose end wraps: both cursors then move back
by the same amount. -/
theorem OneRingAhead.step {r r' : MmuRing} {allSize : UInt32} (ahead : OneRingAhead r)
    (completed : jobStep r allSize = some r') : OneRingAhead r' := by
  have bounds := ahead
  obtain ⟨idle, front_nonneg, front_le, back_eq, size_eq⟩ := bounds
  have small : (allSize.toNat : ℤ) < 2 ^ 32 := by exact_mod_cast allSize.toNat_lt
  rw [jobStep_eq idle] at completed
  obtain ⟨info, granted, rfl⟩ := Option.map_eq_some_iff.mp completed
  rcases lt_or_ge (r.info.front + allSize.toNat) (2 ^ 32) with noWrap | wraps
  · rw [ahead.getTry_eq noWrap] at granted
    split at granted
    next room =>
      obtain rfl := Option.some.inj granted
      have moved : rga2MmuBufGet r.info allSize =
          { r.info with front := r.info.front + allSize.toNat } := by
        rw [rga2MmuBufGet, s32_of_fits (by omega) (by omega)]
      have tied : Tied (rga2MmuBufGet r.info allSize) := by
        rw [moved]
        exact ⟨⟨by simp only; omega, room, by simp only; omega, by simp only; omega⟩, size_eq⟩
      rw [rga2AdvanceBack_eq tied (by rw [moved]; simp only; omega), moved]
      simp only
      rw [if_neg (by omega)]
      exact ⟨rfl, by simp only; omega, room, by simp only; omega, size_eq⟩
    next full =>
      split at granted
      next restarts =>
        obtain rfl := Option.some.inj granted
        have moved : rga2MmuBufGet { r.info with front := 0 } allSize =
            { r.info with front := (allSize.toNat : ℤ) } := by
          rw [rga2MmuBufGet, Int.zero_add, s32_of_fits (by omega) (by omega)]
        have tied : Tied (rga2MmuBufGet { r.info with front := 0 } allSize) := by
          rw [moved]
          exact ⟨⟨by simp only; omega, by simp only; omega, by simp only; omega,
            by simp only; omega⟩, size_eq⟩
        rw [rga2AdvanceBack_eq tied (by rw [moved]; simp only; omega), moved]
        simp only
        rw [if_pos (by omega)]
        refine ⟨rfl, ?_, ?_, ?_, size_eq⟩ <;> simp only
        · omega
        · omega
      next => cases granted
  · rw [rga2MmuBufGetTry_wraps ahead.tied wraps] at granted
    obtain rfl := Option.some.inj granted
    have front_eq : s32 (r.info.front + allSize.toNat) =
        r.info.front + allSize.toNat - 2 ^ 32 := by
      unfold s32
      omega
    have end_eq :
        CInt.u32 (r.info.back + allSize.toNat) = r.info.back + allSize.toNat - 2 ^ 32 := by
      unfold CInt.u32
      omega
    have back_eq' : s32 (r.info.back + allSize.toNat) =
        r.info.back + allSize.toNat - 2 ^ 32 := by
      unfold s32
      omega
    have nonzero : allSize ≠ 0 := by
      intro zero
      have none : allSize.toNat = 0 := by rw [zero]; rfl
      omega
    have moved : rga2MmuBufGet r.info allSize =
        { r.info with front := r.info.front + allSize.toNat - 2 ^ 32 } := by
      rw [rga2MmuBufGet, front_eq]
    have advanced : rga2AdvanceBack (rga2MmuBufGet r.info allSize) allSize =
        ⟨r.info.front + allSize.toNat - 2 ^ 32, r.info.back + allSize.toNat - 2 ^ 32,
          r.info.size⟩ := by
      have below : ¬CInt.u32 (2 * r.info.size) < CInt.u32 (r.info.back + allSize.toNat) := by
        rw [u32_of_fits (n := 2 * r.info.size) (by omega) (by omega), end_eq]
        omega
      rw [moved, rga2AdvanceBack, if_neg nonzero, if_neg below, back_eq']
    rw [advanced]
    exact ⟨rfl, by simp only; omega, by simp only; omega, by simp only; omega, size_eq⟩

theorem oneRingAhead_init : OneRingAhead mmuRingInit :=
  ⟨rfl, by decide, by decide, by decide, by decide⟩

/-- After any completed jobs a table that is not larger than the ring is granted exactly if it
fits behind the last one, or into the part of the buffer that the last one ended at. -/
theorem mmu_ring_grants_iff {r : MmuRing} (completed : Reaches jobStep anyStep mmuRingInit r) :
    r.stage = .idle ∧ ∀ allSize : UInt32, (allSize.toNat : ℤ) ≤ r.info.size →
      ((rga2MmuBufGetTry r.info allSize).isSome ↔
        r.info.front + allSize.toNat ≤ r.info.size ∨ allSize.toNat ≤ r.info.front) := by
  have ahead : OneRingAhead r :=
    completed.invariant (fun _ _ _ ahead _ taken => ahead.step taken) oneRingAhead_init
  refine ⟨ahead.idle, fun allSize fits => ?_⟩
  have front_le := ahead.front_le
  have size_eq := ahead.size_eq
  rw [ahead.getTry_eq (by omega)]
  split
  next room => exact iff_of_true rfl (Or.inl room)
  next full =>
    split
    next restarts => exact iff_of_true rfl (Or.inr restarts)
    next refused => exact iff_of_false Bool.false_ne_true (by omega)

/-- The ring after one job with a table of `81920` entries. -/
def usedRing : MmuRing := ⟨⟨81920, 278531, 196611⟩, .idle⟩

theorem reaches_usedRing : Reaches jobStep anyStep mmuRingInit usedRing :=
  .tail .refl trivial (show jobStep mmuRingInit 81920 = some usedRing by decide +kernel)

theorem mmu_ring_grants_iff_usedRing :
    usedRing.stage = .idle ∧ ∀ allSize : UInt32, (allSize.toNat : ℤ) ≤ usedRing.info.size →
      ((rga2MmuBufGetTry usedRing.info allSize).isSome ↔
        usedRing.info.front + allSize.toNat ≤ usedRing.info.size ∨
          allSize.toNat ≤ usedRing.info.front) :=
  mmu_ring_grants_iff reaches_usedRing

/-- After a job of `81920` entries the ring, in which nobody is at work, refuses one of `147456`
entries as often as it is asked. -/
theorem idle_ring_refuses :
    Reaches jobStep anyStep mmuRingInit usedRing ∧ (147456 : ℤ) ≤ usedRing.info.size ∧
      rga2MmuBufGetTry usedRing.info 147456 = none ∧
      mmuStep usedRing (.getTry 147456) = some usedRing :=
  ⟨reaches_usedRing, by decide, by decide +kernel, by decide +kernel⟩

end Rga
end RockchipSoc
