import Mathlib.Logic.Basic

/-!
# Runs of labelled partial machines

A machine answers a label in a state with a successor or with `none` when the label is not
enabled there.  `Reaches step cond` is reachability by steps that all satisfy `cond`; the
invariant rule needs one preservation fact for such steps and nothing else.  `runs` is the
executable reading of the same relation along an explicit list of labels.
-/

namespace LabelledRun

variable {σ ι : Type*}

/-- Reachability by enabled steps, each meeting `cond` in the state it starts from. -/
inductive Reaches (step : σ → ι → Option σ) (cond : σ → ι → Prop) (start : σ) : σ → Prop
  | refl : Reaches step cond start start
  | tail {middle final : σ} {label : ι} : Reaches step cond start middle →
      cond middle label → step middle label = some final → Reaches step cond start final

/-- Every label is admitted. -/
def anyStep : σ → ι → Prop := fun _ _ => True

/-- Execute a list of labels, failing at the first one that is not enabled. -/
def runs (step : σ → ι → Option σ) : σ → List ι → Option σ
  | state, [] => some state
  | state, label :: labels => (step state label).bind fun next => runs step next labels

/-- The condition holds at each step of an execution. -/
def Along (step : σ → ι → Option σ) (cond : σ → ι → Prop) : σ → List ι → Prop
  | _, [] => True
  | state, label :: labels =>
      cond state label ∧ ∀ next, step state label = some next → Along step cond next labels

/-- The property holds in each state of an execution, the first one included. -/
def Always (step : σ → ι → Option σ) (property : σ → Prop) : σ → List ι → Prop
  | state, [] => property state
  | state, label :: labels =>
      property state ∧ ∀ next, step state label = some next → Always step property next labels

variable {step : σ → ι → Option σ} {cond : σ → ι → Prop}

theorem Always.start {property : σ → Prop} {state : σ} {labels : List ι}
    (always : Always step property state labels) : property state := by
  cases labels with
  | nil => exact always
  | cons label labels => exact always.1

theorem Reaches.head {start middle final : σ} {label : ι} (allowed : cond start label)
    (first : step start label = some middle) (rest : Reaches step cond middle final) :
    Reaches step cond start final := by
  induction rest with
  | refl => exact .tail .refl allowed first
  | tail _ later next ih => exact .tail ih later next

/-- Runs compose at an intermediate state. -/
theorem Reaches.trans {start middle final : σ} (first : Reaches step cond start middle)
    (second : Reaches step cond middle final) : Reaches step cond start final := by
  induction second with
  | refl => exact first
  | tail _ allowed next ih => exact .tail ih allowed next

/-- Weaken the condition on the steps of a run. -/
theorem Reaches.mono {cond' : σ → ι → Prop} {start final : σ}
    (weaker : ∀ state label, cond state label → cond' state label)
    (reach : Reaches step cond start final) : Reaches step cond' start final := by
  induction reach with
  | refl => exact .refl
  | tail _ allowed next ih => exact .tail ih (weaker _ _ allowed) next

/-- A property preserved by every admitted step holds in every state reached. -/
theorem Reaches.invariant {inv : σ → Prop} {start final : σ}
    (preserved : ∀ state label next, inv state → cond state label →
      step state label = some next → inv next)
    (reach : Reaches step cond start final) (initial : inv start) : inv final := by
  induction reach with
  | refl => exact initial
  | tail _ allowed next ih => exact preserved _ _ _ ih allowed next

/-- A condition that is exact for one step, under an invariant it preserves, is exact for whole
executions.  What the labels promise in any case is assumed of each step. -/
theorem always_iff_along (inv : σ → Prop) {property : σ → Prop} {assumed : σ → ι → Prop}
    (holds : ∀ state, inv state → property state)
    (kept : ∀ state label next, inv state → assumed state label → cond state label →
      step state label = some next → inv next)
    (broken : ∀ state label, inv state → assumed state label → ¬cond state label →
      ∃ next, step state label = some next ∧ ¬property next)
    {start : σ} (initial : inv start) (labels : List ι)
    (promised : Along step assumed start labels) :
    Always step property start labels ↔ Along step cond start labels := by
  induction labels generalizing start with
  | nil => exact iff_of_true (holds start initial) trivial
  | cons label labels ih =>
      constructor
      · intro always
        have allowed : cond start label := Classical.byContradiction fun refused => by
          obtain ⟨next, taken, violated⟩ := broken start label initial promised.1 refused
          exact violated (always.2 next taken).start
        exact ⟨allowed, fun next taken =>
          (ih (kept start label next initial promised.1 allowed taken)
            (promised.2 next taken)).mp (always.2 next taken)⟩
      · intro along
        exact ⟨holds start initial, fun next taken =>
          (ih (kept start label next initial promised.1 along.1 taken)
            (promised.2 next taken)).mpr (along.2 next taken)⟩

/-- Whether a condition holds along an explicit list of labels can be computed. -/
instance Along.decidable [∀ state label, Decidable (cond state label)] (start : σ) :
    (labels : List ι) → Decidable (Along step cond start labels)
  | [] => isTrue trivial
  | label :: labels =>
      match taken : step start label with
      | none => decidable_of_iff (cond start label)
          ⟨fun first => ⟨first, fun next enabled => by simp [taken] at enabled⟩, And.left⟩
      | some next =>
          have := Along.decidable next labels
          decidable_of_iff (cond start label ∧ Along step cond next labels)
            ⟨fun both => ⟨both.1, fun next' enabled =>
              Option.some.inj (taken.symm.trans enabled) ▸ both.2⟩,
              fun along => ⟨along.1, along.2 next taken⟩⟩

theorem along_anyStep (start : σ) (labels : List ι) : Along step anyStep start labels := by
  induction labels generalizing start with
  | nil => exact trivial
  | cons label labels ih => exact ⟨trivial, fun next _ => ih next⟩

/-- A property that follows from an invariant holds throughout an execution whose steps all meet the
condition under which the invariant is kept. -/
theorem always_of_along (inv : σ → Prop) {property : σ → Prop}
    (holds : ∀ state, inv state → property state)
    (kept : ∀ state label next, inv state → cond state label → step state label = some next →
      inv next)
    {start : σ} {labels : List ι} (initial : inv start) (along : Along step cond start labels) :
    Always step property start labels := by
  induction labels generalizing start with
  | nil => exact holds start initial
  | cons label labels ih =>
      exact ⟨holds start initial, fun next taken =>
        ih (kept start label next initial along.1 taken) (along.2 next taken)⟩

/-- A property that follows from an invariant of all steps holds throughout every execution. -/
theorem always_of_invariant (inv : σ → Prop) {property : σ → Prop}
    (holds : ∀ state, inv state → property state)
    (kept : ∀ state label next, inv state → step state label = some next → inv next)
    {start : σ} (initial : inv start) (labels : List ι) : Always step property start labels :=
  @always_of_along σ ι step anyStep inv property holds
    (fun state label next here _ taken => kept state label next here taken) start labels initial
    (along_anyStep start labels)

theorem runs_append (start : σ) (left right : List ι) :
    runs step start (left ++ right) =
      (runs step start left).bind fun middle => runs step middle right := by
  induction left generalizing start with
  | nil => rfl
  | cons label labels ih =>
      simp only [List.cons_append, runs]
      cases step start label with
      | none => rfl
      | some next => exact ih next

theorem Always.of_runs {property : σ → Prop} {start final : σ} {labels : List ι}
    (always : Always step property start labels) (execution : runs step start labels = some final) :
    property final := by
  induction labels generalizing start with
  | nil =>
      obtain rfl : start = final := Option.some.inj execution
      exact always
  | cons label labels ih =>
      obtain ⟨next, first, rest⟩ := Option.bind_eq_some_iff.mp execution
      exact ih (always.2 next first) rest

theorem along_and_iff {cond' : σ → ι → Prop} {start : σ} {labels : List ι} :
    Along step (fun state label => cond state label ∧ cond' state label) start labels ↔
      Along step cond start labels ∧ Along step cond' start labels := by
  induction labels generalizing start with
  | nil => exact ⟨fun _ => ⟨trivial, trivial⟩, fun _ => trivial⟩
  | cons label labels ih =>
      constructor
      · rintro ⟨⟨left, right⟩, rest⟩
        exact ⟨⟨left, fun next taken => (ih.mp (rest next taken)).1⟩,
          right, fun next taken => (ih.mp (rest next taken)).2⟩
      · rintro ⟨⟨left, rest⟩, right, rest'⟩
        exact ⟨⟨left, right⟩, fun next taken => ih.mpr ⟨rest next taken, rest' next taken⟩⟩

/-- Weaken the condition along an execution. -/
theorem Along.imp {cond' : σ → ι → Prop}
    (weaker : ∀ state label, cond state label → cond' state label) {start : σ} {labels : List ι}
    (along : Along step cond start labels) : Along step cond' start labels := by
  induction labels generalizing start with
  | nil => exact trivial
  | cons label labels ih =>
      exact ⟨weaker start label along.1, fun next taken => ih (along.2 next taken)⟩

/-- Conditions that agree under an invariant hold along the same executions. -/
theorem Along.congr {cond' : σ → ι → Prop} (inv : σ → Prop)
    (same : ∀ state label, inv state → (cond state label ↔ cond' state label))
    (kept : ∀ state label next, inv state → cond state label → step state label = some next →
      inv next) {start : σ} (initial : inv start) (labels : List ι) :
    Along step cond start labels ↔ Along step cond' start labels := by
  induction labels generalizing start with
  | nil => exact Iff.rfl
  | cons label labels ih =>
      have first := same start label initial
      constructor
      · rintro ⟨allowed, rest⟩
        exact ⟨first.mp allowed, fun next taken =>
          (ih (kept start label next initial allowed taken)).mp (rest next taken)⟩
      · rintro ⟨allowed, rest⟩
        exact ⟨first.mpr allowed, fun next taken =>
          (ih (kept start label next initial (first.mpr allowed) taken)).mpr (rest next taken)⟩

/-- Conditions that agree on every step taken hold along the same complete executions. -/
theorem Along.congr_of_runs {cond' : σ → ι → Prop}
    (same : ∀ state label next, step state label = some next →
      (cond state label ↔ cond' state label)) {start final : σ} {labels : List ι}
    (execution : runs step start labels = some final) :
    Along step cond start labels ↔ Along step cond' start labels := by
  induction labels generalizing start with
  | nil => exact Iff.rfl
  | cons label labels ih =>
      obtain ⟨middle, first, rest⟩ := Option.bind_eq_some_iff.mp execution
      have later : (∀ next, step start label = some next → Along step cond next labels) ↔
          ∀ next, step start label = some next → Along step cond' next labels := by
        rw [first]
        constructor
        · rintro along next ⟨⟩
          exact (ih rest).mp (along middle rfl)
        · rintro along next ⟨⟩
          exact (ih rest).mpr (along middle rfl)
      exact and_congr (same start label middle first) later

/-- A step inside an execution meets the condition, and the steps before it do. -/
theorem Along.split {start middle : σ} {front rest : List ι} {label : ι}
    (along : Along step cond start (front ++ label :: rest))
    (execution : runs step start front = some middle) :
    Reaches step cond start middle ∧ cond middle label := by
  induction front generalizing start with
  | nil =>
      obtain rfl : start = middle := Option.some.inj execution
      exact ⟨.refl, along.1⟩
  | cons first front ih =>
      obtain ⟨next, taken, later⟩ := Option.bind_eq_some_iff.mp execution
      obtain ⟨reach, last⟩ := ih (along.2 next taken) later
      exact ⟨.head along.1 taken reach, last⟩

/-- An execution whose steps all meet the condition is a conditioned run. -/
theorem reaches_of_runs {start final : σ} {labels : List ι}
    (along : Along step cond start labels) (execution : runs step start labels = some final) :
    Reaches step cond start final := by
  induction labels generalizing start with
  | nil =>
      obtain rfl : start = final := Option.some.inj execution
      exact .refl
  | cons label labels ih =>
      obtain ⟨next, first, rest⟩ := Option.bind_eq_some_iff.mp execution
      exact .head along.1 first (ih (along.2 next first) rest)

end LabelledRun
