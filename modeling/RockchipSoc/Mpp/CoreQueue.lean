import Mathlib.Logic.Function.Basic
import RockchipSoc.Foundation.LabelledRun

/-!
# The cores of a task queue

A queue keeps its devices in `cores[]`, indexed by core id, with a mask of idle cores and a count.
`mpp_attach_workqueue` enters a device under its id, `mpp_detach_workqueue` clears the idle bit of
the count, and the scans go over the indices below the count.  The three agree as long as the cores
come and go like a stack.
-/

namespace RockchipSoc
namespace Mpp
namespace CoreQueue

open LabelledRun

def mppMaxCoreNum : Nat := 4

/-- A queue, and of its devices the core id, whether `mpp->queue` is set, whether a task is in
progress, and `task_index`. -/
structure CoreState where
  cores : Nat → Option Nat
  coreIdle : Nat → Bool
  coreCount : Nat
  coreId : Nat → Int
  queue : Nat → Bool
  busy : Nat → Bool
  taskIndex : Nat → Nat
  /-- A scan has followed a NULL core. -/
  faulted : Bool

/-- Calls of the driver: a device is probed or removed, a task looks for a core among those that are
not disabled, a core ends its task, the cores are powered on. -/
inductive CoreLabel
  | attach (mpp : Nat)
  | detach (mpp : Nat)
  | getIdleCore (disableWork : Nat → Bool)
  | finish (mpp : Nat)
  | powerOn

/-- The id that a device attaches with: its own, or the count. -/
def attachId (s : CoreState) (mpp : Nat) : Int :=
  if s.coreId mpp ≥ 0 then s.coreId mpp else s.coreCount

/-- The id is valid and free. -/
def Attaches (s : CoreState) (mpp : Nat) : Prop :=
  0 ≤ attachId s mpp ∧ attachId s mpp < mppMaxCoreNum ∧ s.cores (attachId s mpp).toNat = none

instance (s : CoreState) (mpp : Nat) : Decidable (Attaches s mpp) :=
  inferInstanceAs (Decidable (_ ∧ _ ∧ _))

def mppAttachWorkqueue (s : CoreState) (mpp : Nat) : CoreState :=
  if Attaches s mpp then
    { s with
      cores := Function.update s.cores (attachId s mpp).toNat (some mpp)
      coreCount := s.coreCount + 1
      coreIdle := Function.update s.coreIdle (attachId s mpp).toNat true
      coreId := Function.update s.coreId mpp (attachId s mpp)
      queue := Function.update s.queue mpp true }
  else s

/-- The idle bit that is cleared is the one of the new count. -/
def mppDetachWorkqueue (s : CoreState) (mpp : Nat) : CoreState :=
  if s.queue mpp then
    { s with
      cores := Function.update s.cores (s.coreId mpp).toNat none
      coreCount := s.coreCount - 1
      coreIdle := Function.update s.coreIdle (s.coreCount - 1) false
      queue := Function.update s.queue mpp false }
  else s

/-- One round of the scan of `rkvdec2_get_idle_core`; `none` follows a NULL core. -/
def scanCore (s : CoreState) (disableWork : Nat → Bool) (dec : Option Nat) (i : Nat) :
    Option (Option Nat) :=
  (s.cores i).map fun core =>
    if disableWork core then dec
    else if s.coreIdle i then
      match dec with
      | none => some core
      | some best => if s.taskIndex core < s.taskIndex best then some core else dec
    else dec

def rkvdec2GetIdleCore (s : CoreState) (disableWork : Nat → Bool) : CoreState :=
  match (List.range s.coreCount).foldlM (scanCore s disableWork) none with
  | none => { s with faulted := true }
  | some none => s
  | some (some dec) =>
      { s with
        coreIdle := Function.update s.coreIdle (s.coreId dec).toNat false
        taskIndex := Function.update s.taskIndex dec (s.taskIndex dec + 1)
        busy := Function.update s.busy dec true }

/-- The scan of `rkvdec2_ccu_power_on` follows every core below the count. -/
def rkvdec2CcuPowerOn (s : CoreState) : CoreState :=
  if (List.range s.coreCount).all fun i => (s.cores i).isSome then s
  else { s with faulted := true }

/-- A task ends; `rkvdec2_soft_ccu_dequeue` sets the idle bit of its core. -/
def finishTask (s : CoreState) (mpp : Nat) : CoreState :=
  { s with
    coreIdle := Function.update s.coreIdle (s.coreId mpp).toNat true
    busy := Function.update s.busy mpp false }

def coreStep (s : CoreState) : CoreLabel → Option CoreState
  | .attach mpp => some (mppAttachWorkqueue s mpp)
  | .detach mpp => some (mppDetachWorkqueue s mpp)
  | .getIdleCore disableWork => some (rkvdec2GetIdleCore s disableWork)
  | .finish mpp => if s.busy mpp then some (finishTask s mpp) else none
  | .powerOn => some (rkvdec2CcuPowerOn s)

/-- An empty queue; devices have an id of their own or a negative one. -/
def emptyQueue (coreId : Nat → Int) : CoreState :=
  ⟨fun _ => none, fun _ => false, 0, coreId, fun _ => false, fun _ => false, fun _ => 0, false⟩

/-- Idle bits are of attached idle cores, the indices below the count have cores, and no scan has
followed NULL. -/
structure CoresSound (s : CoreState) : Prop where
  idle : ∀ i, s.coreIdle i = true →
    ∃ mpp, s.cores i = some mpp ∧ s.queue mpp = true ∧ s.busy mpp = false
  filled : ∀ i, i < s.coreCount → s.cores i ≠ none
  faultless : s.faulted = false

/-- A device attaches as the next core and without a task, and detaches as the last one; a core that
ends a task still has its slot, or an idle core has it. -/
def InOrder (s : CoreState) : CoreLabel → Prop
  | .attach mpp => Attaches s mpp → attachId s mpp = s.coreCount ∧ s.busy mpp = false
  | .detach mpp => s.queue mpp = true → s.coreId mpp + 1 = s.coreCount
  | .finish mpp => s.busy mpp = true →
      ∃ core, s.cores (s.coreId mpp).toNat = some core ∧ (core = mpp ∨ s.busy core = false)
  | _ => True

/-- The cores are a stack: exactly the indices below the count have one, each under its own id. -/
structure CoreInv (s : CoreState) : Prop where
  filled : ∀ i, (s.cores i).isSome ↔ i < s.coreCount
  placed : ∀ i mpp, s.cores i = some mpp → s.coreId mpp = i ∧ s.queue mpp = true
  queued : ∀ mpp, s.queue mpp = true →
    ∃ i, s.coreId mpp = (i : Nat) ∧ s.cores i = some mpp
  idle : ∀ i, s.coreIdle i = true ↔ ∃ mpp, s.cores i = some mpp ∧ s.busy mpp = false
  faultless : s.faulted = false

variable {s : CoreState} {mpp i : Nat} {disableWork : Nat → Bool}

theorem CoreInv.sound (inv : CoreInv s) : CoresSound s := by
  refine ⟨fun i set => ?_, fun i below empty => ?_, inv.faultless⟩
  · obtain ⟨mpp, core, free⟩ := (inv.idle i).mp set
    exact ⟨mpp, core, (inv.placed i mpp core).2, free⟩
  · have occupied := (inv.filled i).mpr below
    rw [empty] at occupied
    cases occupied

theorem coreInv_emptyQueue (coreId : Nat → Int) : CoreInv (emptyQueue coreId) := by
  refine ⟨fun i => ?_, fun i mpp core => ?_, fun mpp set => ?_, fun i => ?_, rfl⟩
  · simp [emptyQueue]
  · cases core
  · cases set
  · simp [emptyQueue]

/-! ## Attaching -/

/-- Under the invariant a device that attaches as the next core takes the free slot at the count. -/
theorem CoreInv.attach (inv : CoreInv s) (order : InOrder s (.attach mpp)) :
    CoreInv (mppAttachWorkqueue s mpp) := by
  unfold mppAttachWorkqueue
  split
  · next attaches =>
      obtain ⟨next, free⟩ := order attaches
      obtain ⟨_, _, empty⟩ := attaches
      have slot : (attachId s mpp).toNat = s.coreCount := by omega
      rw [slot] at empty ⊢
      have fresh : s.queue mpp ≠ true := by
        intro set
        obtain ⟨j, id, core⟩ := inv.queued mpp set
        have own : attachId s mpp = j := by
          rw [attachId, if_pos (by omega)]
          exact id
        have same : j = s.coreCount := by omega
        rw [same, empty] at core
        cases core
      refine ⟨fun j => ?_, fun j other core => ?_, fun other set => ?_, fun j => ?_,
        inv.faultless⟩
      · have before := inv.filled j
        by_cases here : j = s.coreCount
        · simp [here]
        · simp only [Function.update_of_ne here, before]
          omega
      · by_cases here : j = s.coreCount
        · subst here
          simp only [Function.update_self, Option.some.injEq] at core
          subst core
          simp [next]
        · simp only [Function.update_of_ne here] at core
          have old := inv.placed j other core
          have distinct : other ≠ mpp := fun same => fresh (same ▸ old.2)
          simpa [Function.update_of_ne distinct] using old
      · by_cases same : other = mpp
        · subst same
          exact ⟨s.coreCount, by simp [next], by simp⟩
        · simp only [Function.update_of_ne same] at set ⊢
          obtain ⟨j, id, core⟩ := inv.queued other set
          have there : j ≠ s.coreCount := by
            intro here
            rw [here, empty] at core
            cases core
          exact ⟨j, id, by rw [Function.update_of_ne there]; exact core⟩
      · by_cases here : j = s.coreCount
        · simp [here, free]
        · simpa [Function.update_of_ne here] using inv.idle j
  · exact inv

/-- A device that attaches elsewhere leaves the slot at the count empty, and one with a task is
marked idle. -/
theorem CoreInv.attach_broken (inv : CoreInv s) (disorder : ¬InOrder s (.attach mpp)) :
    ¬CoresSound (mppAttachWorkqueue s mpp) := by
  simp only [InOrder, Classical.not_imp] at disorder
  obtain ⟨attaches, disorder⟩ := disorder
  obtain ⟨positive, _, empty⟩ := id attaches
  rw [mppAttachWorkqueue, if_pos attaches]
  intro sound
  by_cases next : attachId s mpp = s.coreCount
  · have busy : s.busy mpp = true := by
      by_contra free
      exact disorder ⟨next, by simpa using free⟩
    obtain ⟨core, held, _, free⟩ := sound.idle (attachId s mpp).toNat (by simp)
    simp only [Function.update_self, Option.some.injEq] at held
    subst held
    rw [busy] at free
    cases free
  · have other : s.coreCount ≠ (attachId s mpp).toNat := by omega
    have filled := sound.filled s.coreCount (Nat.lt_succ_self _)
    simp only [Function.update_of_ne other] at filled
    have none_there : ¬(s.cores s.coreCount).isSome := by
      rw [inv.filled]
      exact Nat.lt_irrefl _
    exact none_there (Option.isSome_iff_ne_none.mpr filled)

/-! ## Detaching -/

theorem CoreInv.detach (inv : CoreInv s) (order : InOrder s (.detach mpp)) :
    CoreInv (mppDetachWorkqueue s mpp) := by
  unfold mppDetachWorkqueue
  split
  · next attached =>
      have last := order attached
      obtain ⟨top, id, core⟩ := inv.queued mpp attached
      have slot : (s.coreId mpp).toNat = top := by omega
      have count : s.coreCount = top + 1 := by omega
      have cleared : s.coreCount - 1 = top := by omega
      simp only [slot, cleared]
      refine ⟨fun j => ?_, fun j other held => ?_, fun other set => ?_, fun j => ?_,
        inv.faultless⟩
      · have before := inv.filled j
        by_cases here : j = top
        · simp [here]
        · simp only [Function.update_of_ne here, before]
          omega
      · by_cases here : j = top
        · simp [here] at held
        · simp only [Function.update_of_ne here] at held
          have old := inv.placed j other held
          have distinct : other ≠ mpp := by
            rintro rfl
            exact here (by have := old.1; omega)
          simpa [Function.update_of_ne distinct] using old
      · by_cases same : other = mpp
        · simp [same] at set
        · simp only [Function.update_of_ne same] at set
          obtain ⟨j, own, held⟩ := inv.queued other set
          have there : j ≠ top := by
            rintro rfl
            rw [core] at held
            exact same (Option.some.inj held).symm
          exact ⟨j, own, by simpa only [Function.update_of_ne there] using held⟩
      · by_cases here : j = top
        · simp [here]
        · simpa [Function.update_of_ne here] using inv.idle j
  · exact inv

/-- A device that is not the last one leaves an empty slot below the count. -/
theorem CoreInv.detach_broken (inv : CoreInv s) (disorder : ¬InOrder s (.detach mpp)) :
    ¬CoresSound (mppDetachWorkqueue s mpp) := by
  simp only [InOrder, Classical.not_imp] at disorder
  obtain ⟨attached, not_last⟩ := disorder
  obtain ⟨j, id, core⟩ := inv.queued mpp attached
  have below : j < s.coreCount := (inv.filled j).mp (by rw [core]; rfl)
  have slot : (s.coreId mpp).toNat = j := by omega
  rw [mppDetachWorkqueue, if_pos attached]
  intro sound
  have filled := sound.filled j (show j < s.coreCount - 1 by omega)
  simp [slot] at filled

/-! ## Scans -/

/-- A scan over filled slots ends, with nothing or with an idle core among them. -/
theorem foldlM_scanCore {indices : List Nat} (disableWork : Nat → Bool) (dec : Option Nat)
    (filled : ∀ i ∈ indices, (s.cores i).isSome) :
    ∃ found, indices.foldlM (scanCore s disableWork) dec = some found ∧
      (found = dec ∨ ∃ i mpp, found = some mpp ∧ s.cores i = some mpp ∧ s.coreIdle i = true) := by
  induction indices generalizing dec with
  | nil => exact ⟨dec, rfl, Or.inl rfl⟩
  | cons i rest ih =>
      obtain ⟨core, held⟩ := Option.isSome_iff_exists.mp (filled i List.mem_cons_self)
      have later : ∀ j ∈ rest, (s.cores j).isSome := fun j member =>
        filled j (List.mem_cons_of_mem i member)
      obtain ⟨next, scanned, kept⟩ : ∃ next, scanCore s disableWork dec i = some next ∧
          (next = dec ∨ next = some core ∧ s.coreIdle i = true) := by
        rw [scanCore, held]
        refine ⟨_, rfl, ?_⟩
        dsimp only
        split
        · exact Or.inl rfl
        · split
          · next set =>
              split
              · exact Or.inr ⟨rfl, set⟩
              · split
                · exact Or.inr ⟨rfl, set⟩
                · exact Or.inl rfl
          · exact Or.inl rfl
      obtain ⟨found, ended, outcome⟩ := ih next later
      refine ⟨found, by rw [List.foldlM_cons, scanned]; exact ended, ?_⟩
      rcases outcome with rfl | among
      · rcases kept with rfl | ⟨rfl, set⟩
        · exact Or.inl rfl
        · exact Or.inr ⟨i, core, rfl, held, set⟩
      · exact Or.inr among

theorem CoreInv.allFilled (inv : CoreInv s) :
    ∀ i ∈ List.range s.coreCount, (s.cores i).isSome := fun i member =>
  (inv.filled i).mpr (List.mem_range.mp member)

theorem CoreInv.getIdleCore (inv : CoreInv s) (disableWork : Nat → Bool) :
    CoreInv (rkvdec2GetIdleCore s disableWork) := by
  obtain ⟨found, scanned, outcome⟩ :=
    foldlM_scanCore disableWork none inv.allFilled
  rw [rkvdec2GetIdleCore, scanned]
  cases found with
  | none => exact inv
  | some dec =>
      obtain ⟨i, mpp, same, held, set⟩ := outcome.resolve_left (Option.some_ne_none dec)
      obtain rfl := Option.some.inj same
      have place := (inv.placed i dec held).1
      have slot : (s.coreId dec).toNat = i := by omega
      refine ⟨inv.filled, inv.placed, inv.queued, fun j => ?_, inv.faultless⟩
      simp only [slot]
      by_cases here : j = i
      · subst here
        simp [held]
      · rw [Function.update_of_ne here, inv.idle j]
        refine exists_congr fun core => and_congr_right fun there => ?_
        have distinct : core ≠ dec := by
          rintro rfl
          have := (inv.placed j core there).1
          omega
        rw [Function.update_of_ne distinct]

theorem CoreInv.powerOn (inv : CoreInv s) : CoreInv (rkvdec2CcuPowerOn s) := by
  rw [rkvdec2CcuPowerOn, if_pos (List.all_eq_true.mpr inv.allFilled)]
  exact inv

/-! ## Ends of tasks -/

theorem CoreInv.finish (inv : CoreInv s) (busy : s.busy mpp = true)
    (order : InOrder s (.finish mpp)) : CoreInv (finishTask s mpp) := by
  obtain ⟨core, held, itself⟩ := order busy
  refine ⟨inv.filled, inv.placed, inv.queued, fun j => ?_, inv.faultless⟩
  simp only [finishTask]
  by_cases here : j = (s.coreId mpp).toNat
  · subst here
    have free : Function.update s.busy mpp false core = false := by
      by_cases same : core = mpp
      · rw [same, Function.update_self]
      · rw [Function.update_of_ne same]
        exact itself.resolve_left same
    simp [held, free]
  · rw [Function.update_of_ne here, inv.idle j]
    refine exists_congr fun other => and_congr_right fun there => ?_
    have distinct : other ≠ mpp := by
      rintro rfl
      have := (inv.placed j other there).1
      omega
    rw [Function.update_of_ne distinct]

/-- Otherwise the bit is set for no core, or for one that has a task. -/
theorem finish_broken (disorder : ¬InOrder s (.finish mpp)) :
    s.busy mpp = true ∧ ¬CoresSound (finishTask s mpp) := by
  simp only [InOrder, Classical.not_imp] at disorder
  obtain ⟨busy, lost⟩ := disorder
  refine ⟨busy, fun sound => lost ?_⟩
  obtain ⟨core, held, _, free⟩ := sound.idle (s.coreId mpp).toNat (by simp [finishTask])
  refine ⟨core, held, ?_⟩
  by_cases same : core = mpp
  · exact Or.inl same
  · have unchanged : Function.update s.busy mpp false core = false := free
    rw [Function.update_of_ne same] at unchanged
    exact Or.inr unchanged

/-! ## Runs -/

theorem CoreInv.step {s' : CoreState} {label : CoreLabel} (inv : CoreInv s)
    (order : InOrder s label) (taken : coreStep s label = some s') : CoreInv s' := by
  cases label with
  | attach mpp => exact Option.some.inj taken ▸ inv.attach order
  | detach mpp => exact Option.some.inj taken ▸ inv.detach order
  | getIdleCore disableWork => exact Option.some.inj taken ▸ inv.getIdleCore disableWork
  | powerOn => exact Option.some.inj taken ▸ inv.powerOn
  | finish mpp =>
      simp only [coreStep] at taken
      split at taken
      · next busy => exact Option.some.inj taken ▸ inv.finish busy order
      · cases taken

theorem CoreInv.broken {label : CoreLabel} (inv : CoreInv s) (disorder : ¬InOrder s label) :
    ∃ next, coreStep s label = some next ∧ ¬CoresSound next := by
  cases label with
  | attach mpp => exact ⟨_, rfl, inv.attach_broken disorder⟩
  | detach mpp => exact ⟨_, rfl, inv.detach_broken disorder⟩
  | getIdleCore disableWork => exact absurd trivial disorder
  | powerOn => exact absurd trivial disorder
  | finish mpp => exact ⟨_, if_pos (finish_broken disorder).1, (finish_broken disorder).2⟩

/-- The bookkeeping of the cores is sound throughout a run exactly if the cores come and go in
order. -/
theorem core_bookkeeping_sound_iff (coreId : Nat → Int) (labels : List CoreLabel) :
    Always coreStep CoresSound (emptyQueue coreId) labels ↔
      Along coreStep InOrder (emptyQueue coreId) labels :=
  always_iff_along CoreInv (fun _ inv => inv.sound)
    (fun _ _ _ inv _ order taken => inv.step order taken)
    (fun _ _ inv _ disorder => inv.broken disorder) (coreInv_emptyQueue coreId) labels
    (along_anyStep _ labels)

/-- Device 0 is core 0 and device 1 is core 1. -/
def ownIds (mpp : Nat) : Int := mpp

/-- Core 1 is probed before core 0. -/
def probedBackwards : List CoreLabel := [.attach 1]

/-- Core 0 is removed before core 1. -/
def removedForwards : List CoreLabel := [.attach 0, .attach 1, .detach 0]

/-- A single core is missing below the count, and the next scan follows NULL. -/
theorem cores_out_of_order :
    ¬Always coreStep CoresSound (emptyQueue ownIds) probedBackwards ∧
      ¬Always coreStep CoresSound (emptyQueue ownIds) removedForwards ∧
      (∃ final, runs coreStep (emptyQueue ownIds) (probedBackwards ++ [.powerOn]) = some final ∧
        final.faulted = true) ∧
      ∃ final, runs coreStep (emptyQueue ownIds)
        (removedForwards ++ [.getIdleCore fun _ => false]) = some final ∧
        final.faulted = true := by
  refine ⟨fun always => ?_, fun always => ?_, ⟨_, rfl, by decide⟩, ⟨_, rfl, by decide⟩⟩
  · exact (always.of_runs rfl).filled 0 (by decide) (by decide)
  · exact (always.of_runs rfl).filled 0 (by decide) (by decide)

end CoreQueue
end Mpp
end RockchipSoc
