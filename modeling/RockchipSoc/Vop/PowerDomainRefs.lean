import RockchipSoc.Vop.PowerDomain
import Mathlib.Tactic.SplitIfs

/-!
# The references of the power domains

Taking and giving back references along a chain is described domain by domain.  The references
of a domain are the enabled windows in its subtree, whatever is called and whenever scheduled
work runs, and a domain with references is on.
-/

namespace RockchipSoc
namespace Vop

variable {D W : Type*} {data : PdData D W}

/-- The domains that a window holds references of. -/
def winChain (data : PdData D W) (win : W) : List D :=
  match data.pd win with
  | some pd => data.forest.chain pd
  | none => []

theorem self_mem_winChain {win : W} {pd : D} (pd_eq : data.pd win = some pd) :
    pd ∈ winChain data win := by
  rw [winChain, pd_eq]
  exact data.forest.self_mem_chain pd

theorem parent_mem_winChain {win : W} {pd parent : D} (above : pd ∈ winChain data win)
    (parent_eq : data.forest.parent pd = some parent) : parent ∈ winChain data win := by
  unfold winChain at above ⊢
  split at above
  · exact Forest.parent_mem_chain above parent_eq
  · cases above

/-- A domain without children. -/
def Childless (data : PdData D W) (pd : D) : Prop :=
  ∀ child, data.forest.parent child ≠ some pd

/-- Only its own windows hold references of a domain without children. -/
theorem Childless.mem_winChain_iff {pd : D} (childless : Childless data pd) {win : W} :
    pd ∈ winChain data win ↔ data.pd win = some pd := by
  constructor
  · intro above
    unfold winChain at above
    split at above
    · next pd' pd_eq => rw [pd_eq, Forest.eq_of_leaf_mem_chain childless above]
    · cases above
  · exact self_mem_winChain

/-! ### Chains of references -/

variable [DecidableEq D]

/-- What taking a reference of each domain of a list does. -/
structure Got (data : PdData D W) (pds : List D) (before after : PdState D W) : Prop where
  refCount : ∀ pd, after.refCount pd = before.refCount pd + if pd ∈ pds then 1 else 0
  on : ∀ pd, after.on pd = true ↔ before.on pd = true ∨ pd ∈ pds ∧ before.refCount pd = 0
  powerOffWork : ∀ pd, after.powerOffWork pd = true ↔ before.powerOffWork pd = true ∧
    ¬(pd ∈ pds ∧ before.refCount pd = 0 ∧ data.delayedPd = true)
  moduleOn : after.moduleOn = before.moduleOn
  enabled : after.enabled = before.enabled

/-- What giving back a reference of each domain of a list does. -/
structure Put (data : PdData D W) (pds : List D) (before after : PdState D W) : Prop where
  refCount : ∀ pd, after.refCount pd = before.refCount pd - if pd ∈ pds then 1 else 0
  on : ∀ pd, after.on pd = true ↔ before.on pd = true ∧
    ¬(pd ∈ pds ∧ before.refCount pd ≤ 1 ∧ before.moduleOn pd = true ∧ data.delayedPd = false)
  powerOffWork : ∀ pd, after.powerOffWork pd = true ↔ before.powerOffWork pd = true ∨
    pd ∈ pds ∧ before.refCount pd ≤ 1 ∧ before.moduleOn pd = true ∧ data.delayedPd = true
  moduleOn : after.moduleOn = before.moduleOn
  enabled : after.enabled = before.enabled

theorem got_getOne (data : PdData D W) (state : PdState D W) (pd : D) :
    Got data [pd] state (getOne data state pd) := by
  simp only [getOne, vop2PowerDomainOn, cancelDelayedWork]
  constructor
  · intro other
    by_cases same : other = pd
    · subst same
      split_ifs <;> simp_all
    · split_ifs <;> simp_all
  · intro other
    by_cases same : other = pd
    · subst same
      split_ifs <;> simp_all
    · split_ifs <;> simp_all
  · intro other
    by_cases same : other = pd
    · subst same
      split_ifs <;> simp_all
    · split_ifs <;> simp_all
  · split_ifs <;> rfl
  · split_ifs <;> rfl

theorem put_putOne (data : PdData D W) (state : PdState D W) (pd : D) :
    Put data [pd] state (putOne data state pd) := by
  simp only [putOne, scheduleDelayedWork, vop2PowerDomainOff, Function.update_self,
    Nat.sub_eq_zero_iff_le]
  constructor
  · intro other
    by_cases same : other = pd
    · subst same
      split_ifs <;> simp_all
    · split_ifs <;> simp_all
  · intro other
    by_cases same : other = pd
    · subst same
      split_ifs <;> simp_all
    · split_ifs <;> simp_all
  · intro other
    by_cases same : other = pd
    · subst same
      split_ifs <;> simp_all
    · split_ifs <;> simp_all
  · split_ifs <;> rfl
  · split_ifs <;> rfl

theorem Got.cons {pd : D} {pds : List D} {before middle after : PdState D W} (fresh : pd ∉ pds)
    (first : Got data [pd] before middle) (rest : Got data pds middle after) :
    Got data (pd :: pds) before after := by
  have same {other : D} (listed : other ∈ pds) : middle.refCount other = before.refCount other := by
    have different : other ≠ pd := fun eq => fresh (eq ▸ listed)
    simp [first.refCount, different]
  constructor
  · intro other
    rw [rest.refCount, first.refCount]
    by_cases here : other = pd
    · simp [here, fresh]
    · simp [here]
  · intro other
    rw [rest.on, first.on, List.mem_singleton, List.mem_cons]
    constructor
    · rintro ((on | ⟨rfl, unused⟩) | ⟨listed, unused⟩)
      · exact Or.inl on
      · exact Or.inr ⟨Or.inl rfl, unused⟩
      · exact Or.inr ⟨Or.inr listed, same listed ▸ unused⟩
    · rintro (on | ⟨rfl | listed, unused⟩)
      · exact Or.inl (Or.inl on)
      · exact Or.inl (Or.inr ⟨rfl, unused⟩)
      · exact Or.inr ⟨listed, (same listed).trans unused⟩
  · intro other
    rw [rest.powerOffWork, first.powerOffWork, List.mem_singleton, List.mem_cons]
    constructor
    · rintro ⟨⟨work, not_first⟩, not_rest⟩
      refine ⟨work, ?_⟩
      rintro ⟨here | listed, unused, delayed⟩
      · exact not_first ⟨here, unused, delayed⟩
      · exact not_rest ⟨listed, (same listed).trans unused, delayed⟩
    · rintro ⟨work, not_any⟩
      exact ⟨⟨work, fun ⟨here, rest⟩ => not_any ⟨Or.inl here, rest⟩⟩,
        fun ⟨listed, unused, delayed⟩ =>
          not_any ⟨Or.inr listed, (same listed).symm.trans unused, delayed⟩⟩
  · rw [rest.moduleOn, first.moduleOn]
  · rw [rest.enabled, first.enabled]

theorem Put.cons {pd : D} {pds : List D} {before middle after : PdState D W} (fresh : pd ∉ pds)
    (first : Put data [pd] before middle) (rest : Put data pds middle after) :
    Put data (pd :: pds) before after := by
  have same {other : D} (listed : other ∈ pds) : middle.refCount other = before.refCount other := by
    have different : other ≠ pd := fun eq => fresh (eq ▸ listed)
    simp [first.refCount, different]
  constructor
  · intro other
    rw [rest.refCount, first.refCount]
    by_cases here : other = pd
    · simp [here, fresh]
    · simp [here]
  · intro other
    rw [rest.on, first.on, first.moduleOn, List.mem_singleton, List.mem_cons]
    constructor
    · rintro ⟨⟨on, not_first⟩, not_rest⟩
      refine ⟨on, ?_⟩
      rintro ⟨here | listed, last, off⟩
      · exact not_first ⟨here, last, off⟩
      · exact not_rest ⟨listed, (same listed).symm ▸ last, off⟩
    · rintro ⟨on, not_any⟩
      exact ⟨⟨on, fun ⟨here, off⟩ => not_any ⟨Or.inl here, off⟩⟩,
        fun ⟨listed, last, off⟩ => not_any ⟨Or.inr listed, same listed ▸ last, off⟩⟩
  · intro other
    rw [rest.powerOffWork, first.powerOffWork, first.moduleOn, List.mem_singleton,
      List.mem_cons]
    constructor
    · rintro ((work | ⟨here, off⟩) | ⟨listed, last, off⟩)
      · exact Or.inl work
      · exact Or.inr ⟨Or.inl here, off⟩
      · exact Or.inr ⟨Or.inr listed, same listed ▸ last, off⟩
    · rintro (work | ⟨here | listed, last, off⟩)
      · exact Or.inl (Or.inl work)
      · exact Or.inl (Or.inr ⟨here, last, off⟩)
      · exact Or.inr ⟨listed, (same listed).symm ▸ last, off⟩
  · rw [rest.moduleOn, first.moduleOn]
  · rw [rest.enabled, first.enabled]

theorem got_foldl_getOne (data : PdData D W) (state : PdState D W) {pds : List D}
    (distinct : pds.Nodup) : Got data pds state (pds.foldl (getOne data) state) := by
  induction pds generalizing state with
  | nil => exact ⟨by simp, by simp, by simp, rfl, rfl⟩
  | cons pd pds ih =>
      obtain ⟨fresh, distinct⟩ := List.nodup_cons.mp distinct
      exact (got_getOne data state pd).cons fresh (ih _ distinct)

theorem put_foldl_putOne (data : PdData D W) (state : PdState D W) {pds : List D}
    (distinct : pds.Nodup) : Put data pds state (pds.foldl (putOne data) state) := by
  induction pds generalizing state with
  | nil => exact ⟨by simp, by simp, by simp, rfl, rfl⟩
  | cons pd pds ih =>
      obtain ⟨fresh, distinct⟩ := List.nodup_cons.mp distinct
      exact (put_putOne data state pd).cons fresh (ih _ distinct)

theorem got_vop2PowerDomainGet (data : PdData D W) (state : PdState D W) (pd : D) :
    Got data (data.forest.chain pd) state (vop2PowerDomainGet data state pd) := by
  have got : Got data (data.forest.chain pd).reverse state (vop2PowerDomainGet data state pd) :=
    got_foldl_getOne data state (List.nodup_reverse.mpr (data.forest.nodup_chain pd))
  exact
    { refCount := fun other => by simpa only [List.mem_reverse] using got.refCount other
      on := fun other => by simpa only [List.mem_reverse] using got.on other
      powerOffWork := fun other => by simpa only [List.mem_reverse] using got.powerOffWork other
      moduleOn := got.moduleOn
      enabled := got.enabled }

theorem put_vop2PowerDomainPut (data : PdData D W) (state : PdState D W) (pd : D) :
    Put data (data.forest.chain pd) state (vop2PowerDomainPut data state pd) :=
  put_foldl_putOne data state (data.forest.nodup_chain pd)

/-! ### One window -/

section Window

variable [DecidableEq W]

/-- What enabling a window that is not enabled does. -/
structure Enabled (data : PdData D W) (win : W) (before after : PdState D W) : Prop where
  refCount : ∀ pd,
    after.refCount pd = before.refCount pd + if pd ∈ winChain data win then 1 else 0
  on : ∀ pd, after.on pd = true ↔
    before.on pd = true ∨ pd ∈ winChain data win ∧ before.refCount pd = 0
  powerOffWork : ∀ pd, after.powerOffWork pd = true ↔ before.powerOffWork pd = true ∧
    ¬(pd ∈ winChain data win ∧ before.refCount pd = 0 ∧ data.delayedPd = true)
  enabled : after.enabled = insert win before.enabled

theorem enabled_vop2WinEnable (data : PdData D W) (state : PdState D W) {win : W}
    (disabled : win ∉ state.enabled) : Enabled data win state (vop2WinEnable data state win) := by
  simp only [vop2WinEnable, if_neg disabled]
  cases pd_eq : data.pd win with
  | none =>
      have empty : winChain data win = [] := by rw [winChain, pd_eq]
      exact ⟨by simp [empty], by simp [empty], by simp [empty], rfl⟩
  | some pd =>
      have chain_eq : winChain data win = data.forest.chain pd := by rw [winChain, pd_eq]
      have got := got_vop2PowerDomainGet data state pd
      rw [← chain_eq] at got
      exact ⟨got.refCount, got.on, got.powerOffWork, congrArg (insert win) got.enabled⟩

/-- What disabling an enabled window does. -/
structure Disabled (data : PdData D W) (win : W) (before after : PdState D W) : Prop where
  refCount : ∀ pd,
    after.refCount pd = before.refCount pd - if pd ∈ winChain data win then 1 else 0
  on : ∀ pd, after.on pd = true ↔ before.on pd = true ∧ ¬(pd ∈ winChain data win ∧
    before.refCount pd ≤ 1 ∧ before.moduleOn pd = true ∧ data.delayedPd = false)
  powerOffWork : ∀ pd, after.powerOffWork pd = true ↔ before.powerOffWork pd = true ∨
    pd ∈ winChain data win ∧ before.refCount pd ≤ 1 ∧ before.moduleOn pd = true ∧
      data.delayedPd = true
  moduleOn : ∀ pd, after.moduleOn pd = true ↔
    before.moduleOn pd = true ∧ data.pd win ≠ some pd
  enabled : after.enabled = before.enabled.erase win

theorem disabled_disableWin (data : PdData D W) (state : PdState D W) {win : W}
    (enabled : win ∈ state.enabled) : Disabled data win state (disableWin data state win) := by
  simp only [disableWin, if_pos enabled]
  cases pd_eq : data.pd win with
  | none =>
      have empty : winChain data win = [] := by rw [winChain, pd_eq]
      exact ⟨by simp [empty], by simp [empty], by simp [empty], by simp [pd_eq], rfl⟩
  | some pd =>
      have chain_eq : winChain data win = data.forest.chain pd := by rw [winChain, pd_eq]
      have put := put_vop2PowerDomainPut data state pd
      rw [← chain_eq] at put
      refine ⟨put.refCount, put.on, put.powerOffWork, fun other => ?_,
        congrArg (Finset.erase · win) put.enabled⟩
      change Function.update (vop2PowerDomainPut data state pd).moduleOn pd false other = true ↔ _
      rw [Function.update_apply, put.moduleOn, pd_eq]
      by_cases here : other = pd
      · simp [here]
      · simp [here, Ne.symm here]

end Window

/-! ### Counting references -/

/-- The enabled windows that hold a reference of a domain. -/
def holders (data : PdData D W) (state : PdState D W) (pd : D) : Finset W :=
  state.enabled.filter fun win => pd ∈ winChain data win

/-- What holds in every state, whatever order the work runs in. -/
structure Counted (data : PdData D W) (state : PdState D W) : Prop where
  refCount : ∀ pd, state.refCount pd = (holders data state pd).card
  on : ∀ pd, 0 < state.refCount pd → state.on pd = true
  powerOffWork : ∀ pd, state.powerOffWork pd = true →
    data.delayedPd = true ∧ state.refCount pd = 0

theorem Counted.congr {before after : PdState D W} (counted : Counted data before)
    (refCount : after.refCount = before.refCount) (on : after.on = before.on)
    (powerOffWork : after.powerOffWork = before.powerOffWork)
    (enabled : after.enabled = before.enabled) : Counted data after where
  refCount pd := by
    rw [refCount, holders, enabled]
    exact counted.refCount pd
  on := by rw [refCount, on]; exact counted.on
  powerOffWork := by rw [refCount, powerOffWork]; exact counted.powerOffWork

variable [DecidableEq W]

theorem holders_card_insert {before after : PdState D W} {win : W}
    (disabled : win ∉ before.enabled) (enabled : after.enabled = insert win before.enabled)
    (pd : D) : (holders data after pd).card =
      (holders data before pd).card + if pd ∈ winChain data win then 1 else 0 := by
  rw [holders, enabled, Finset.filter_insert]
  split
  · exact Finset.card_insert_of_notMem fun held => disabled (Finset.mem_filter.mp held).1
  · rfl

theorem holders_card_erase {before after : PdState D W} {win : W}
    (enabled : win ∈ before.enabled) (erased : after.enabled = before.enabled.erase win)
    (pd : D) : (holders data after pd).card =
      (holders data before pd).card - if pd ∈ winChain data win then 1 else 0 := by
  rw [holders, erased, Finset.filter_erase]
  split
  · next held => exact Finset.card_erase_of_mem (Finset.mem_filter.mpr ⟨enabled, held⟩)
  · next free =>
      have absent : win ∉ holders data before pd := fun held => free (Finset.mem_filter.mp held).2
      exact congrArg Finset.card (Finset.erase_eq_of_notMem absent)

theorem Counted.enable {before after : PdState D W} {win : W} (counted : Counted data before)
    (disabled : win ∉ before.enabled) (step : Enabled data win before after) :
    Counted data after where
  refCount pd := by
    rw [step.refCount, counted.refCount, holders_card_insert disabled step.enabled]
  on pd used := by
    rw [step.on]
    rcases Nat.eq_zero_or_pos (before.refCount pd) with unused | used'
    · rw [step.refCount, unused, Nat.zero_add] at used
      split at used
      · next above => exact Or.inr ⟨above, unused⟩
      · cases used
    · exact Or.inl (counted.on pd used')
  powerOffWork pd work := by
    obtain ⟨work, kept⟩ := (step.powerOffWork pd).mp work
    obtain ⟨delayed, unused⟩ := counted.powerOffWork pd work
    have free : pd ∉ winChain data win := fun above => kept ⟨above, unused, delayed⟩
    exact ⟨delayed, by rw [step.refCount, unused, if_neg free]⟩

theorem Counted.disable {before after : PdState D W} {win : W} (counted : Counted data before)
    (enabled : win ∈ before.enabled) (step : Disabled data win before after) :
    Counted data after where
  refCount pd := by
    rw [step.refCount, counted.refCount, holders_card_erase enabled step.enabled]
  on pd used := by
    rw [step.refCount] at used
    rw [step.on]
    refine ⟨counted.on pd (by omega), ?_⟩
    rintro ⟨above, last, _⟩
    rw [if_pos above] at used
    omega
  powerOffWork pd work := by
    rw [step.refCount]
    rcases (step.powerOffWork pd).mp work with work | ⟨above, last, _, delayed⟩
    · obtain ⟨delayed, unused⟩ := counted.powerOffWork pd work
      exact ⟨delayed, by omega⟩
    · exact ⟨delayed, by rw [if_pos above]; omega⟩

end Vop
end RockchipSoc
