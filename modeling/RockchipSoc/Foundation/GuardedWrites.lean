import Mathlib.Data.List.Nodup
import Mathlib.Data.List.TakeWhile
import Mathlib.Logic.Function.Basic

/-!
# Writes that stop at a refusal

A loop changes cells one after the other and stops at the first one that refuses.  A cell is
changed exactly when it stands before the first refusal, so that the loop undoes nothing of what it
has written when it fails.
-/

namespace GuardedWrites

variable {ι β : Type*} [DecidableEq ι]

/-- The cells after a loop, whether it came to its end, and the cells it looked at. -/
structure Written (ι β : Type*) where
  cells : ι → β
  done : Bool
  touched : List ι

variable (refuses : β → Bool) (change : β → β)

def guardedWrites : List ι → (ι → β) → Written ι β
  | [], cells => ⟨cells, true, []⟩
  | i :: rest, cells =>
      if refuses (cells i) then ⟨cells, false, [i]⟩
      else
        let written := guardedWrites rest (Function.update cells i (change (cells i)))
        { written with touched := i :: written.touched }

/-- What is changed: the cells before the first refusal. -/
def changed (indices : List ι) (cells : ι → β) : List ι :=
  indices.takeWhile fun i => !refuses (cells i)

variable {refuses change} {indices : List ι} {cells : ι → β}

omit [DecidableEq ι] in
theorem changed_congr {cells' : ι → β} (same : ∀ i ∈ indices, cells' i = cells i) :
    changed refuses indices cells' = changed refuses indices cells := by
  unfold changed
  induction indices with
  | nil => rfl
  | cons first rest ih =>
      have here := same first List.mem_cons_self
      have later := ih fun i member => same i (List.mem_cons_of_mem first member)
      rw [List.takeWhile_cons, List.takeWhile_cons, here, later]

omit [DecidableEq ι] in
/-- Where no cell refuses, all are changed. -/
theorem changed_eq_self (never : ∀ i ∈ indices, refuses (cells i) = false) :
    changed refuses indices cells = indices := by
  refine List.takeWhile_eq_self_iff.mpr fun i member => ?_
  rw [never i member, Bool.not_false]

theorem touched_subset : (guardedWrites refuses change indices cells).touched ⊆ indices := by
  induction indices generalizing cells with
  | nil => exact List.Subset.refl _
  | cons first rest ih =>
      rw [guardedWrites]
      split
      · exact List.cons_subset_cons first (List.nil_subset rest)
      · exact List.cons_subset_cons first ih

theorem head_touched (first : ι) (rest : List ι) :
    first ∈ (guardedWrites refuses change (first :: rest) cells).touched := by
  rw [guardedWrites]
  split <;> exact List.mem_cons_self

/-- The loop comes to its end when no cell refuses. -/
theorem done_iff (distinct : indices.Nodup) :
    (guardedWrites refuses change indices cells).done = true ↔
      ∀ i ∈ indices, refuses (cells i) = false := by
  induction indices generalizing cells with
  | nil => exact iff_of_true rfl fun i member => by cases member
  | cons first rest ih =>
      obtain ⟨fresh, distinct⟩ := List.nodup_cons.mp distinct
      rw [guardedWrites]
      by_cases refused : refuses (cells first) = true
      · rw [if_pos refused]
        refine iff_of_false Bool.false_ne_true fun all => ?_
        rw [all first List.mem_cons_self] at refused
        cases refused
      · rw [if_neg refused, List.forall_mem_cons, ih distinct,
          and_iff_right (Bool.eq_false_iff.mpr refused)]
        refine forall₂_congr fun i member => ?_
        have other : i ≠ first := fun same => fresh (same ▸ member)
        rw [Function.update_of_ne other]

/-- A cell is changed once when it stands before the first refusal. -/
theorem cells_apply (distinct : indices.Nodup) (i : ι) :
    (guardedWrites refuses change indices cells).cells i =
      if i ∈ changed refuses indices cells then change (cells i) else cells i := by
  induction indices generalizing cells with
  | nil => rfl
  | cons first rest ih =>
      obtain ⟨fresh, distinct⟩ := List.nodup_cons.mp distinct
      rw [guardedWrites, changed, List.takeWhile_cons]
      by_cases refused : refuses (cells first) = true
      · rw [if_pos refused, refused, Bool.not_true, if_neg Bool.false_ne_true]
        rfl
      · have later : changed refuses rest (Function.update cells first (change (cells first))) =
            changed refuses rest cells := by
          refine changed_congr fun j member => ?_
          have other : j ≠ first := fun same => fresh (same ▸ member)
          rw [Function.update_of_ne other]
        rw [if_neg refused, ih distinct, later, Bool.eq_false_iff.mpr refused,
          Bool.not_false, if_pos rfl]
        by_cases same : i = first
        · subst same
          have absent : i ∉ changed refuses rest cells := fun member =>
            fresh (List.takeWhile_subset _ member)
          rw [if_neg absent, if_pos List.mem_cons_self, Function.update_self]
        · rw [Function.update_of_ne same]
          exact if_congr (List.mem_cons.trans (or_iff_right same)).symm rfl rfl

/-- An observation of the cells is kept when it is kept at each change. -/
theorem kept_iff {γ : Type*} (view : β → γ) (distinct : indices.Nodup) {observed : ι → Prop}
    (within : ∀ i ∈ indices, observed i) :
    (∀ i, observed i →
        view ((guardedWrites refuses change indices cells).cells i) = view (cells i)) ↔
      ∀ i ∈ changed refuses indices cells, view (change (cells i)) = view (cells i) := by
  constructor
  · intro kept i member
    have same := kept i (within i (List.takeWhile_subset _ member))
    rwa [cells_apply distinct, if_pos member] at same
  · intro kept i _
    rw [cells_apply distinct]
    split
    · rename_i member
      exact kept i member
    · rfl

end GuardedWrites
