import Mathlib.Data.List.Basic

/-!
# Properties after each operation of a sequence

A sequence of operations acts on a state one at a time.  `EachAfter` says that a property holds
after every single one of them, so it looks at all intermediate states and not only at the last.
-/

namespace OpTrace

variable {σ ω : Type*} {act : σ → ω → σ} {property inv : σ → Prop}

/-- The property holds after each operation of the sequence. -/
def EachAfter (act : σ → ω → σ) (property : σ → Prop) : σ → List ω → Prop
  | _, [] => True
  | state, op :: ops => property (act state op) ∧ EachAfter act property (act state op) ops

@[simp] theorem eachAfter_nil (state : σ) : EachAfter act property state [] := trivial

@[simp] theorem eachAfter_cons (state : σ) (op : ω) (ops : List ω) :
    EachAfter act property state (op :: ops) ↔
      property (act state op) ∧ EachAfter act property (act state op) ops := Iff.rfl

theorem eachAfter_append (state : σ) (left right : List ω) :
    EachAfter act property state (left ++ right) ↔
      EachAfter act property state left ∧ EachAfter act property (left.foldl act state) right := by
  induction left generalizing state with
  | nil => simp
  | cons op ops ih => simp [ih, and_assoc]

/-- Two states that the property and the operations do not tell apart. -/
theorem eachAfter_congr {similar : σ → σ → Prop}
    (step : ∀ left right op, similar left right → similar (act left op) (act right op))
    (agree : ∀ left right, similar left right → (property left ↔ property right))
    {left right : σ} (related : similar left right) (ops : List ω) :
    EachAfter act property left ops ↔ EachAfter act property right ops := by
  induction ops generalizing left right with
  | nil => simp
  | cons op ops ih =>
      have next := step left right op related
      rw [eachAfter_cons, eachAfter_cons, agree _ _ next, ih next]

/-- An invariant kept by the operations of a sequence holds at its end. -/
theorem foldl_inv {ops : List ω} (kept : ∀ op ∈ ops, ∀ state, inv state → inv (act state op))
    {state : σ} (initial : inv state) : inv (ops.foldl act state) := by
  induction ops generalizing state with
  | nil => exact initial
  | cons op ops ih =>
      exact ih (fun later member => kept later (List.mem_cons_of_mem _ member))
        (kept op List.mem_cons_self state initial)

/-- An invariant kept by the operations of a sequence gives the property after each of them. -/
theorem eachAfter_of_inv {ops : List ω}
    (kept : ∀ op ∈ ops, ∀ state, inv state → inv (act state op))
    (holds : ∀ state, inv state → property state) {state : σ} (initial : inv state) :
    EachAfter act property state ops := by
  induction ops generalizing state with
  | nil => exact trivial
  | cons op ops ih =>
      have next := kept op List.mem_cons_self state initial
      exact ⟨holds _ next,
        ih (fun later member => kept later (List.mem_cons_of_mem _ member)) next⟩

end OpTrace
