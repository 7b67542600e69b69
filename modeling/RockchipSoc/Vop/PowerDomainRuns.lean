import RockchipSoc.Foundation.LabelledRun
import RockchipSoc.Vop.PowerDomainRefs
import Mathlib.Data.Fintype.Basic

/-!
# Power domains follow their windows

A call that disables windows gives back their references one window after the other, and turns
off the domains whose last reference it gives back while their module is enabled.  The domains
follow their windows exactly as long as the last window of a childless domain finds its module
enabled and no domain is turned off under a child that stays on.
-/

namespace RockchipSoc
namespace Vop

variable {D W : Type*} [DecidableEq D] [DecidableEq W] {data : PdData D W}

/-- The windows of a call that give back a reference of a domain. -/
def taken (data : PdData D W) (state : PdState D W) (wins : List W) (pd : D) : List W :=
  wins.filter fun win => win ∈ state.enabled ∧ pd ∈ winChain data win

/-- The call gives back the last reference of a domain whose module is enabled, none of its own
windows having been disabled before. -/
structure TurnsOff (data : PdData D W) (state : PdState D W) (wins : List W) (pd : D) : Prop where
  some_taken : taken data state wins pd ≠ []
  all_taken : (taken data state wins pd).length = state.refCount pd
  moduleOn : state.moduleOn pd = true
  own_last : ∀ win ∈ (taken data state wins pd).dropLast, data.pd win ≠ some pd

theorem taken_length_le {state : PdState D W} (counted : Counted data state) {wins : List W}
    (distinct : wins.Nodup) (pd : D) :
    (taken data state wins pd).length ≤ state.refCount pd := by
  have distinct_taken : (taken data state wins pd).Nodup := distinct.filter _
  rw [counted.refCount, ← List.toFinset_card_of_nodup distinct_taken]
  refine Finset.card_le_card fun win listed => ?_
  have both := (List.mem_filter.mp (List.mem_toFinset.mp listed)).2
  exact Finset.mem_filter.mpr (of_decide_eq_true both)

/-- The windows behind a disabled one give back what they did before. -/
theorem taken_of_disabled {before after : PdState D W} {win : W}
    (step : Disabled data win before after) {wins : List W} (fresh : win ∉ wins) (pd : D) :
    taken data after wins pd = taken data before wins pd := by
  refine List.filter_congr fun other listed => ?_
  have different : other ≠ win := fun eq => fresh (eq ▸ listed)
  simp [step.enabled, different]

/-- A domain is turned off by the first window of a call or by the others. -/
theorem turnsOff_cons_iff {before after : PdState D W} {win : W} {wins : List W}
    (counted : Counted data before) (distinct : (win :: wins).Nodup)
    (enabled : win ∈ before.enabled) (step : Disabled data win before after) (pd : D) :
    TurnsOff data before (win :: wins) pd ↔ TurnsOff data after wins pd ∨
      pd ∈ winChain data win ∧ before.refCount pd ≤ 1 ∧ before.moduleOn pd = true := by
  have bound := taken_length_le counted distinct pd
  have rest := taken_of_disabled step (List.nodup_cons.mp distinct).1 pd
  by_cases above : pd ∈ winChain data win
  · have cons : taken data before (win :: wins) pd = win :: taken data before wins pd := by
      simp [taken, enabled, above]
    have given := step.refCount pd
    rw [if_pos above] at given
    rw [cons, List.length_cons] at bound
    cases tail_eq : taken data before wins pd with
    | nil =>
        rw [tail_eq] at cons rest bound
        constructor
        · rintro ⟨_, all_taken, moduleOn, _⟩
          rw [cons] at all_taken
          exact Or.inr ⟨above, Nat.le_of_eq all_taken.symm, moduleOn⟩
        · rintro (⟨some_taken, _⟩ | ⟨_, last, moduleOn⟩)
          · exact absurd rest some_taken
          · exact ⟨by simp [cons], by rw [cons]; exact Nat.le_antisymm bound last, moduleOn,
              by simp [cons]⟩
    | cons next later =>
        rw [tail_eq] at cons rest bound
        rw [List.length_cons] at bound
        constructor
        · rintro ⟨_, all_taken, moduleOn, own_last⟩
          rw [cons] at all_taken own_last
          rw [List.dropLast_cons_cons] at own_last
          refine Or.inl ⟨by simp [rest], ?_, ?_, ?_⟩
          · rw [rest, given, ← all_taken]
            rfl
          · exact (step.moduleOn pd).mpr ⟨moduleOn, own_last win List.mem_cons_self⟩
          · intro other listed
            rw [rest] at listed
            exact own_last other (List.mem_cons_of_mem _ listed)
        · rintro (⟨_, all_taken, moduleOn, own_last⟩ | ⟨_, last, _⟩)
          · obtain ⟨moduleOn, own_ne⟩ := (step.moduleOn pd).mp moduleOn
            rw [rest] at all_taken own_last
            rw [List.length_cons, given] at all_taken
            refine ⟨by simp [cons], ?_, moduleOn, ?_⟩
            · rw [cons, List.length_cons, List.length_cons]
              omega
            · rw [cons, List.dropLast_cons_cons]
              intro other listed
              rcases List.mem_cons.mp listed with rfl | listed
              · exact own_ne
              · exact own_last other listed
          · omega
  · have skip : taken data before (win :: wins) pd = taken data before wins pd := by
      simp [taken, above]
    have kept := step.refCount pd
    rw [if_neg above, Nat.sub_zero] at kept
    have own_ne : data.pd win ≠ some pd := fun own => above (self_mem_winChain own)
    have module_iff : after.moduleOn pd = true ↔ before.moduleOn pd = true :=
      (step.moduleOn pd).trans (and_iff_left own_ne)
    constructor
    · rintro ⟨some_taken, all_taken, moduleOn, own_last⟩
      rw [skip, ← rest] at some_taken all_taken own_last
      exact Or.inl ⟨some_taken, all_taken.trans kept.symm, module_iff.mpr moduleOn, own_last⟩
    · rintro (⟨some_taken, all_taken, moduleOn, own_last⟩ | ⟨above', _⟩)
      · rw [rest, ← skip] at some_taken all_taken own_last
        exact ⟨some_taken, all_taken.trans kept, module_iff.mp moduleOn, own_last⟩
      · exact absurd above' above

/-- What a call does that disables windows one after the other. -/
structure DisabledAll (data : PdData D W) (wins : List W) (before after : PdState D W) :
    Prop where
  enabled : ∀ win, win ∈ after.enabled ↔ win ∈ before.enabled ∧ win ∉ wins
  on : ∀ pd, after.on pd = true ↔
    before.on pd = true ∧ ¬(TurnsOff data before wins pd ∧ data.delayedPd = false)
  powerOffWork : ∀ pd, after.powerOffWork pd = true ↔
    before.powerOffWork pd = true ∨ TurnsOff data before wins pd ∧ data.delayedPd = true

theorem TurnsOff.congr {before after : PdState D W} {wins wins' : List W} {pd : D}
    (taken_eq : taken data after wins' pd = taken data before wins pd)
    (refCount : after.refCount = before.refCount) (moduleOn : after.moduleOn = before.moduleOn)
    (turns : TurnsOff data before wins pd) : TurnsOff data after wins' pd where
  some_taken := by rw [taken_eq]; exact turns.some_taken
  all_taken := by rw [taken_eq, refCount]; exact turns.all_taken
  moduleOn := by rw [moduleOn]; exact turns.moduleOn
  own_last := by rw [taken_eq]; exact turns.own_last

theorem not_turnsOff_nil (state : PdState D W) (pd : D) : ¬TurnsOff data state [] pd :=
  fun turns => turns.some_taken rfl

/-- One round of the loop over the windows of a call. -/
def disableRound (data : PdData D W) (skip : Bool) (state : PdState D W) (win : W) :
    PdState D W :=
  disableWin data (if skip then state else state.cutSplice win) win

theorem disabled_disableRound (data : PdData D W) (skip : Bool) (state : PdState D W) {win : W}
    (enabled : win ∈ state.enabled) :
    Disabled data win state (disableRound data skip state win) := by
  cases skip with
  | true => exact disabled_disableWin data state enabled
  | false =>
      have step := disabled_disableWin data (state.cutSplice win) enabled
      exact ⟨step.refCount, step.on, step.powerOffWork, step.moduleOn, step.enabled⟩

/-- A step that changes at most the splice links. -/
structure SameDomains (before after : PdState D W) : Prop where
  refCount : after.refCount = before.refCount
  on : after.on = before.on
  moduleOn : after.moduleOn = before.moduleOn
  powerOffWork : after.powerOffWork = before.powerOffWork
  enabled : after.enabled = before.enabled

theorem sameDomains_disableRound (data : PdData D W) (skip : Bool) (state : PdState D W)
    {win : W} (disabled : win ∉ state.enabled) :
    SameDomains state (disableRound data skip state win) := by
  have unchanged : disableRound data skip state win =
      if skip then state else state.cutSplice win := by
    cases skip <;> exact if_neg disabled
  rw [unchanged]
  cases skip <;> exact ⟨rfl, rfl, rfl, rfl, rfl⟩

/-- The loop over the windows of a call. -/
theorem disabledAll_foldl (skip : Bool) {state : PdState D W} {wins : List W}
    (counted : Counted data state) (distinct : wins.Nodup) :
    DisabledAll data wins state (wins.foldl (disableRound data skip) state) ∧
      Counted data (wins.foldl (disableRound data skip) state) := by
  induction wins generalizing state with
  | nil => exact ⟨⟨by simp, by simp [not_turnsOff_nil], by simp [not_turnsOff_nil]⟩, counted⟩
  | cons win wins ih =>
      obtain ⟨fresh, distinct'⟩ := List.nodup_cons.mp distinct
      rw [List.foldl_cons]
      by_cases enabled : win ∈ state.enabled
      · have step := disabled_disableRound data skip state enabled
        obtain ⟨rest, counted'⟩ := ih (counted.disable enabled step) distinct'
        have turns := turnsOff_cons_iff counted distinct enabled step
        refine ⟨⟨fun other => ?_, fun pd => ?_, fun pd => ?_⟩, counted'⟩
        · rw [rest.enabled, step.enabled, Finset.mem_erase, List.mem_cons, not_or]
          tauto
        · rw [rest.on, step.on, turns]
          tauto
        · rw [rest.powerOffWork, step.powerOffWork, turns]
          tauto
      · have same := sameDomains_disableRound data skip state enabled
        obtain ⟨rest, counted'⟩ := ih
          (counted.congr same.refCount same.on same.powerOffWork same.enabled) distinct'
        have skipped (pd : D) : taken data (disableRound data skip state win) wins pd =
            taken data state (win :: wins) pd := by
          simp [taken, enabled, same.enabled]
        have turns (pd : D) : TurnsOff data (disableRound data skip state win) wins pd ↔
            TurnsOff data state (win :: wins) pd :=
          ⟨TurnsOff.congr (skipped pd).symm same.refCount.symm same.moduleOn.symm,
            TurnsOff.congr (skipped pd) same.refCount same.moduleOn⟩
        refine ⟨⟨fun other => ?_, fun pd => ?_, fun pd => ?_⟩, counted'⟩
        · rw [rest.enabled, same.enabled, List.mem_cons, not_or]
          have different : other ∈ state.enabled → other ≠ win := fun present eq =>
            enabled (eq ▸ present)
          tauto
        · rw [rest.on, same.on, turns]
        · rw [rest.powerOffWork, same.powerOffWork, turns]

omit [DecidableEq D] [DecidableEq W] in
theorem nodup_disableOrder (state : PdState D W) (win : W) (skip : Bool) :
    (disableOrder state win skip).Nodup := by
  cases skip with
  | true => exact List.nodup_singleton win
  | false => exact List.nodup_reverse.mpr (state.splice.nodup_chain win)

/-- What a call of `vop2_win_disable` does. -/
theorem disabledAll_vop2WinDisable {state : PdState D W} (counted : Counted data state) (win : W)
    (skip : Bool) :
    DisabledAll data (disableOrder state win skip) state (vop2WinDisable data state win skip) ∧
      Counted data (vop2WinDisable data state win skip) :=
  disabledAll_foldl skip counted (nodup_disableOrder state win skip)

/-! ### The domains and their windows -/

/-- The enabled windows of a domain. -/
def ownWins (data : PdData D W) (state : PdState D W) (pd : D) : Finset W :=
  state.enabled.filter fun win => data.pd win = some pd

/-- The enabled windows of the domains below a domain. -/
def winsBelow (data : PdData D W) (state : PdState D W) (pd : D) : Finset W :=
  state.enabled.filter fun win => pd ∈ winChain data win ∧ data.pd win ≠ some pd

/-- The work of a domain has run, if any is scheduled. -/
def workRan (state : PdState D W) (pd : D) : PdState D W :=
  if state.powerOffWork pd then vop2PowerDomainOffWork state pd else state

/-- The power domains follow their windows. -/
structure PowersFollow (data : PdData D W) (state : PdState D W) : Prop where
  refCount : ∀ pd,
    state.refCount pd = (ownWins data state pd).card + (winsBelow data state pd).card
  on : ∀ pd, 0 < state.refCount pd → state.on pd = true
  parent_on : ∀ pd parent, data.forest.parent pd = some parent →
    state.on pd = true → state.on parent = true
  off : ∀ pd, Childless data pd → (∀ win ∈ state.enabled, data.pd win ≠ some pd) →
    (workRan state pd).on pd = false

/-- The invariant of the runs in which the domains follow their windows. -/
structure Follows (data : PdData D W) (state : PdState D W) : Prop where
  counted : Counted data state
  parent_on : ∀ pd parent, data.forest.parent pd = some parent →
    state.on pd = true → state.on parent = true
  off : ∀ pd, Childless data pd → state.refCount pd = 0 →
    state.on pd = false ∨ state.powerOffWork pd = true

omit [DecidableEq W] in
theorem holders_card (data : PdData D W) (state : PdState D W) (pd : D) :
    (holders data state pd).card =
      (ownWins data state pd).card + (winsBelow data state pd).card := by
  have own : ownWins data state pd =
      (holders data state pd).filter fun win => data.pd win = some pd := by
    ext win
    simp only [ownWins, holders, Finset.mem_filter]
    constructor
    · rintro ⟨enabled, own⟩
      exact ⟨⟨enabled, self_mem_winChain own⟩, own⟩
    · rintro ⟨⟨enabled, _⟩, own⟩
      exact ⟨enabled, own⟩
  have below : winsBelow data state pd =
      (holders data state pd).filter fun win => ¬data.pd win = some pd := by
    rw [winsBelow, holders, Finset.filter_filter]
  rw [own, below, Finset.card_filter_add_card_filter_not]

omit [DecidableEq W] in
theorem Follows.powersFollow {state : PdState D W} (follows : Follows data state) :
    PowersFollow data state where
  refCount pd := by rw [follows.counted.refCount, holders_card]
  on := follows.counted.on
  parent_on := follows.parent_on
  off pd childless none_own := by
    have unused : state.refCount pd = 0 := by
      rw [follows.counted.refCount, Finset.card_eq_zero, holders, Finset.filter_eq_empty_iff]
      exact fun win enabled above => none_own win enabled (childless.mem_winChain_iff.mp above)
    rcases follows.off pd childless unused with off | work
    · unfold workRan
      split
      · simp [vop2PowerDomainOffWork, cancelDelayedWork, vop2PowerDomainOff, unused]
      · exact off
    · simp [workRan, work, vop2PowerDomainOffWork, cancelDelayedWork, vop2PowerDomainOff, unused]

/-- A call on which the domains go on following: when it disables the last windows of a childless
domain, it finds the module enabled; and no domain is turned off under a child that stays on. -/
def Keeps (data : PdData D W) (state : PdState D W) : PdCall D W → Prop
  | .enable _ => True
  | .disable win skip =>
      let wins := disableOrder state win skip
      (∀ pd, Childless data pd → taken data state wins pd ≠ [] →
        (taken data state wins pd).length = state.refCount pd → TurnsOff data state wins pd) ∧
      (data.delayedPd = false → ∀ pd child, data.forest.parent child = some pd →
        TurnsOff data state wins pd → state.on child = true → TurnsOff data state wins child)
  | .powerOffWork pd => state.powerOffWork pd = true →
      ∀ child, data.forest.parent child = some pd → state.on child = false
  | .link _ => True

/-! ### Each step -/

theorem Follows.enable {state : PdState D W} (follows : Follows data state) (win : W) :
    Follows data (vop2WinEnable data state win) := by
  by_cases enabled : win ∈ state.enabled
  · rw [vop2WinEnable, if_pos enabled]
    exact follows
  have step := enabled_vop2WinEnable data state enabled
  refine ⟨follows.counted.enable enabled step, fun pd parent parent_eq on => ?_,
    fun pd childless unused => ?_⟩
  · rw [step.on] at on ⊢
    rcases on with on | ⟨above, _⟩
    · exact Or.inl (follows.parent_on pd parent parent_eq on)
    · rcases Nat.eq_zero_or_pos (state.refCount parent) with unused | used
      · exact Or.inr ⟨parent_mem_winChain above parent_eq, unused⟩
      · exact Or.inl (follows.counted.on parent used)
  · rw [step.refCount] at unused
    have free : pd ∉ winChain data win := fun above => by
      rw [if_pos above] at unused
      omega
    rcases follows.off pd childless (by omega) with off | work
    · left
      rw [← Bool.not_eq_true, step.on]
      simp [off, free]
    · exact Or.inr ((step.powerOffWork pd).mpr ⟨work, fun taken => free taken.1⟩)

/-- A call takes all references of a domain exactly when none is left. -/
theorem all_taken_iff {state after : PdState D W} {wins : List W} (counted : Counted data state)
    (distinct : wins.Nodup) (step : DisabledAll data wins state after) (pd : D) :
    (taken data state wins pd).length = state.refCount pd ↔ holders data after pd = ∅ := by
  have distinct_taken : (taken data state wins pd).Nodup := distinct.filter _
  have gone : (taken data state wins pd).toFinset =
      (holders data state pd).filter fun win => win ∈ wins := by
    ext win
    simp only [taken, holders, List.mem_toFinset, List.mem_filter, Finset.mem_filter,
      decide_eq_true_eq]
    tauto
  have left : holders data after pd = (holders data state pd).filter fun win => ¬win ∈ wins := by
    ext win
    simp only [holders, Finset.mem_filter, step.enabled]
    tauto
  have count := Finset.card_filter_add_card_filter_not
    (s := holders data state pd) fun win => win ∈ wins
  rw [← gone, ← left, List.toFinset_card_of_nodup distinct_taken, ← counted.refCount] at count
  rw [← Finset.card_eq_zero]
  omega

theorem Follows.disable {state : PdState D W} (follows : Follows data state) {win : W}
    {skip : Bool} (keeps : Keeps data state (.disable win skip)) :
    Follows data (vop2WinDisable data state win skip) := by
  obtain ⟨last, nested⟩ := keeps
  obtain ⟨step, counted⟩ := disabledAll_vop2WinDisable follows.counted win skip
  refine ⟨counted, fun pd parent parent_eq on => ?_, fun pd childless unused => ?_⟩
  · rw [step.on] at on ⊢
    refine ⟨follows.parent_on pd parent parent_eq on.1, fun ⟨turns, immediate⟩ => ?_⟩
    exact on.2 ⟨nested immediate parent pd parent_eq turns on.1, immediate⟩
  · rcases Nat.eq_zero_or_pos (state.refCount pd) with before | before
    · rcases follows.off pd childless before with off | work
      · left
        rw [← Bool.not_eq_true, step.on]
        simp [off]
      · exact Or.inr ((step.powerOffWork pd).mpr (Or.inl work))
    · rw [counted.refCount, Finset.card_eq_zero] at unused
      have all := (all_taken_iff follows.counted (nodup_disableOrder state win skip) step pd).mpr
        unused
      have some_taken : taken data state (disableOrder state win skip) pd ≠ [] := by
        intro none_taken
        rw [none_taken, List.length_nil] at all
        omega
      have turns := last pd childless some_taken all
      cases delayed : data.delayedPd with
      | false =>
          left
          rw [← Bool.not_eq_true, step.on]
          exact fun on => on.2 ⟨turns, delayed⟩
      | true => exact Or.inr ((step.powerOffWork pd).mpr (Or.inr ⟨turns, delayed⟩))

theorem Follows.powerOffWork {state : PdState D W} (follows : Follows data state) {pd : D}
    (scheduled : state.powerOffWork pd = true) (keeps : Keeps data state (.powerOffWork pd)) :
    Follows data (vop2PowerDomainOffWork state pd) := by
  have unused := (follows.counted.powerOffWork pd scheduled).2
  have after : vop2PowerDomainOffWork state pd =
      vop2PowerDomainOff (cancelDelayedWork state pd) pd := if_pos unused
  rw [after]
  refine ⟨⟨follows.counted.refCount, fun other used => ?_, fun other work => ?_⟩,
    fun other parent parent_eq on => ?_, fun other childless unused' => ?_⟩
  · have different : other ≠ pd := fun eq => by
      change 0 < state.refCount other at used
      rw [eq] at used
      omega
    simpa [vop2PowerDomainOff, cancelDelayedWork, different] using follows.counted.on other used
  · by_cases here : other = pd
    · simp [vop2PowerDomainOff, cancelDelayedWork, here] at work
    · exact follows.counted.powerOffWork other
        (by simpa [vop2PowerDomainOff, cancelDelayedWork, here] using work)
  · by_cases here : other = pd
    · simp [vop2PowerDomainOff, here] at on
    · have on' : state.on other = true := by
        simpa [vop2PowerDomainOff, cancelDelayedWork, here] using on
      have different : parent ≠ pd := fun eq => by
        rw [keeps scheduled other (eq ▸ parent_eq)] at on'
        cases on'
      simpa [vop2PowerDomainOff, cancelDelayedWork, different] using
        follows.parent_on other parent parent_eq on'
  · by_cases here : other = pd
    · left
      simp [vop2PowerDomainOff, here]
    · simpa [vop2PowerDomainOff, cancelDelayedWork, here] using
        follows.off other childless unused'

theorem Follows.step {state next : PdState D W} {call : PdCall D W}
    (follows : Follows data state) (keeps : Keeps data state call)
    (taken : pdStep data state call = some next) : Follows data next := by
  cases call with
  | enable win =>
      obtain rfl := Option.some.inj taken
      exact follows.enable win
  | disable win skip =>
      obtain rfl := Option.some.inj taken
      exact follows.disable keeps
  | powerOffWork pd =>
      rw [pdStep] at taken
      split at taken
      · next scheduled =>
          obtain rfl := Option.some.inj taken
          exact follows.powerOffWork scheduled keeps
      · cases taken
  | link splice =>
      obtain rfl := Option.some.inj taken
      exact ⟨follows.counted.congr rfl rfl rfl rfl, follows.parent_on, follows.off⟩

/-! ### Each step on which the condition fails -/

theorem not_powersFollow_disable {state : PdState D W} (follows : Follows data state) {win : W}
    {skip : Bool} (broken : ¬Keeps data state (.disable win skip)) :
    ¬PowersFollow data (vop2WinDisable data state win skip) := by
  obtain ⟨step, counted⟩ := disabledAll_vop2WinDisable follows.counted win skip
  intro after
  refine broken ⟨fun pd childless some_taken all => ?_,
    fun immediate pd child parent_eq turns on => ?_⟩
  · by_contra stays
    have used : 0 < state.refCount pd := by
      rw [← all]
      exact List.length_pos_iff.mpr some_taken
    have left_on : (vop2WinDisable data state win skip).on pd = true :=
      (step.on pd).mpr ⟨follows.counted.on pd used, fun both => stays both.1⟩
    have not_scheduled : ¬(vop2WinDisable data state win skip).powerOffWork pd = true := by
      rw [step.powerOffWork]
      rintro (work | ⟨turns, _⟩)
      · have := (follows.counted.powerOffWork pd work).2
        omega
      · exact stays turns
    have none_left := (all_taken_iff follows.counted (nodup_disableOrder state win skip) step
      pd).mp all
    have none_own (other : W) (enabled : other ∈ (vop2WinDisable data state win skip).enabled) :
        data.pd other ≠ some pd := fun own => by
      have held : other ∈ holders data (vop2WinDisable data state win skip) pd :=
        Finset.mem_filter.mpr ⟨enabled, self_mem_winChain own⟩
      rw [none_left] at held
      exact absurd held (Finset.notMem_empty other)
    have off := after.off pd childless none_own
    rw [workRan, if_neg not_scheduled, left_on] at off
    cases off
  · by_contra stays
    have child_on : (vop2WinDisable data state win skip).on child = true :=
      (step.on child).mpr ⟨on, fun both => stays both.1⟩
    have parent_on := after.parent_on child pd parent_eq child_on
    exact ((step.on pd).mp parent_on).2 ⟨turns, immediate⟩

omit [DecidableEq W] in
theorem not_powersFollow_powerOffWork {state : PdState D W} (follows : Follows data state)
    {pd child : D} (scheduled : state.powerOffWork pd = true)
    (parent_eq : data.forest.parent child = some pd) (on : state.on child = true) :
    ¬PowersFollow data (vop2PowerDomainOffWork state pd) := by
  have unused := (follows.counted.powerOffWork pd scheduled).2
  have after_eq : vop2PowerDomainOffWork state pd =
      vop2PowerDomainOff (cancelDelayedWork state pd) pd := if_pos unused
  have different : child ≠ pd := fun eq => by
    have lower := data.forest.depth_lt child pd parent_eq
    rw [eq] at lower
    exact Nat.lt_irrefl _ lower
  intro after
  rw [after_eq] at after
  have parent_on := after.parent_on child pd parent_eq
    (by simpa [vop2PowerDomainOff, cancelDelayedWork, different] using on)
  simp [vop2PowerDomainOff] at parent_on

theorem exists_step_not_powersFollow {state : PdState D W} {call : PdCall D W}
    (follows : Follows data state) (broken : ¬Keeps data state call) :
    ∃ next, pdStep data state call = some next ∧ ¬PowersFollow data next := by
  cases call with
  | enable win => exact absurd trivial broken
  | disable win skip => exact ⟨_, rfl, not_powersFollow_disable follows broken⟩
  | powerOffWork pd =>
      simp only [Keeps, not_forall, Bool.not_eq_false] at broken
      obtain ⟨scheduled, child, parent_eq, on⟩ := broken
      exact ⟨_, if_pos scheduled,
        not_powersFollow_powerOffWork follows scheduled parent_eq on⟩
  | link splice => exact absurd trivial broken

/-! ### Runs -/

/-- The state after probing: nothing is enabled, on or scheduled. -/
def pdInit (D W : Type*) : PdState D W where
  refCount _ := 0
  on _ := false
  moduleOn _ := false
  powerOffWork _ := false
  enabled := ∅
  splice := ⟨fun _ => none, fun _ => 0, fun _ _ linked => by cases linked⟩

omit [DecidableEq W] in
theorem follows_pdInit (data : PdData D W) : Follows data (pdInit D W) where
  counted :=
    { refCount := fun _ => rfl
      on := fun _ used => absurd used (Nat.lt_irrefl 0)
      powerOffWork := fun _ work => by cases work }
  parent_on _ _ _ on := by cases on
  off _ _ _ := Or.inl rfl

/-- Once the work of an unused domain has run, in whatever order with other work, it is off. -/
theorem off_of_work_runs {state final : PdState D W} {works : List D} {pd : D}
    (unused : state.refCount pd = 0) (off : state.on pd = false ∨ state.powerOffWork pd = true)
    (ran : LabelledRun.runs (pdStep data) state (works.map PdCall.powerOffWork) = some final)
    (none_left : final.powerOffWork pd = false) : final.on pd = false := by
  induction works generalizing state with
  | nil =>
      obtain rfl : state = final := Option.some.inj ran
      exact off.resolve_right (Bool.eq_false_iff.mp none_left)
  | cons work works ih =>
      obtain ⟨next, step, rest⟩ := Option.bind_eq_some_iff.mp ran
      rw [pdStep] at step
      split at step
      · obtain rfl := Option.some.inj step
        refine ih ?_ ?_ rest
        · simp only [vop2PowerDomainOffWork]
          split <;> exact unused
        · by_cases here : work = pd
          · left
            simp [vop2PowerDomainOffWork, cancelDelayedWork, vop2PowerDomainOff, here, unused]
          · have kept : (vop2PowerDomainOffWork state work).on pd = state.on pd ∧
                (vop2PowerDomainOffWork state work).powerOffWork pd = state.powerOffWork pd := by
              simp only [vop2PowerDomainOffWork]
              split <;> simp [cancelDelayedWork, vop2PowerDomainOff, Ne.symm here]
            rw [kept.1, kept.2]
            exact off
      · cases step

/-- In every run, the power domains follow their windows in all states exactly when every call
that disables the last windows of a childless domain finds its module enabled and no domain is
turned off under a child that stays on. -/
theorem power_domains_follow_iff (data : PdData D W) (start : PdState D W)
    (initial : Follows data start) (calls : List (PdCall D W)) :
    LabelledRun.Always (pdStep data) (PowersFollow data) start calls ↔
      LabelledRun.Along (pdStep data) (Keeps data) start calls :=
  LabelledRun.always_iff_along (Follows data) (fun _ follows => follows.powersFollow)
    (fun _ _ _ follows _ keeps taken => follows.step keeps taken)
    (fun _ _ follows _ broken => exists_step_not_powersFollow follows broken) initial calls
    (LabelledRun.along_anyStep _ calls)

/-! ### The domains of the RK3588 -/

instance TurnsOff.decidable (state : PdState D W) (wins : List W) (pd : D) :
    Decidable (TurnsOff data state wins pd) :=
  decidable_of_iff (taken data state wins pd ≠ [] ∧
      (taken data state wins pd).length = state.refCount pd ∧ state.moduleOn pd = true ∧
      ∀ win ∈ (taken data state wins pd).dropLast, data.pd win ≠ some pd)
    ⟨fun ⟨some_taken, all_taken, moduleOn, own_last⟩ =>
        ⟨some_taken, all_taken, moduleOn, own_last⟩,
      fun ⟨some_taken, all_taken, moduleOn, own_last⟩ =>
        ⟨some_taken, all_taken, moduleOn, own_last⟩⟩

instance Childless.decidable [Fintype D] (data : PdData D W) (pd : D) :
    Decidable (Childless data pd) :=
  inferInstanceAs (Decidable (∀ _, _))

instance Keeps.decidable [Fintype D] (state : PdState D W) :
    (call : PdCall D W) → Decidable (Keeps data state call)
  | .enable _ => isTrue trivial
  | .disable _ _ => inferInstanceAs (Decidable (_ ∧ _))
  | .powerOffWork _ => inferInstanceAs (Decidable (_ → _))
  | .link _ => isTrue trivial

inductive Rk3588Pd
  | cluster0 | cluster1 | cluster2 | cluster3 | esmart
  deriving DecidableEq

instance : Fintype Rk3588Pd where
  elems := {.cluster0, .cluster1, .cluster2, .cluster3, .esmart}
  complete pd := by cases pd <;> decide

/-- The first cluster's domain is the parent of the other clusters'; the four esmart windows
share a domain. -/
def rk3588PdData (delayedPd : Bool) : PdData Rk3588Pd ℕ where
  forest :=
    { parent := fun pd =>
        match pd with
        | .cluster1 | .cluster2 | .cluster3 => some .cluster0
        | .cluster0 | .esmart => none
      depth := fun pd => if pd = .cluster0 then 0 else 1
      depth_lt := by decide }
  pd win := [some .cluster0, some .cluster1, some .esmart, some .esmart, none, none,
    some .cluster2, some .cluster3, some .esmart, some .esmart].getD win none
  delayedPd := delayedPd

theorem power_domains_follow_iff_nested :
    LabelledRun.Always (pdStep (rk3588PdData true)) (PowersFollow (rk3588PdData true))
      (pdInit Rk3588Pd ℕ)
      [.enable 1, .enable 0, .enable 2, .disable 1 false, .powerOffWork .cluster1,
        .disable 0 false, .disable 2 true, .powerOffWork .cluster0, .powerOffWork .esmart] :=
  (power_domains_follow_iff (rk3588PdData true) (pdInit Rk3588Pd ℕ) (follows_pdInit _) _).mpr
    (by decide +kernel)

/-- Two windows share a domain: disabling the first clears `module_on`, and the domain stays on
when the second is disabled. -/
theorem shared_domain_left_on :
    ¬LabelledRun.Always (pdStep (rk3588PdData false)) (PowersFollow (rk3588PdData false))
      (pdInit Rk3588Pd ℕ)
      [.enable 2, .enable 3, .disable 2 false, .disable 3 false] := by
  intro always
  have follow := always.of_runs rfl
  have off := follow.off .esmart (by decide) (by decide)
  revert off
  decide +kernel

end Vop
end RockchipSoc
