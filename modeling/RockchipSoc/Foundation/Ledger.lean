import Mathlib.Data.List.Count
import Mathlib.Logic.Function.Basic

/-!
# What is taken into custody and given back

A keeper takes things and gives them back.  Its books are balanced when everything taken and not
given back is held, and nothing is held twice.
-/

namespace Ledger

variable {α : Type*} [DecidableEq α] {taken returned : α → Nat} {held held' : List α} {x : α}

/-- What is taken is given back or held, and held once. -/
structure Balanced (taken returned : α → Nat) (held : List α) : Prop where
  conserved : ∀ x, taken x = returned x + held.count x
  once : held.Nodup

theorem balanced_nil : Balanced (fun _ : α => 0) (fun _ => 0) [] where
  conserved := fun _ => rfl
  once := List.nodup_nil

/-- Where things are held does not matter. -/
theorem Balanced.perm (balanced : Balanced taken returned held) (moved : held.Perm held') :
    Balanced taken returned held' where
  conserved := fun x => by rw [balanced.conserved x, moved.count_eq x]
  once := moved.nodup_iff.mp balanced.once

/-- A thing that is not held can be taken. -/
theorem Balanced.take (balanced : Balanced taken returned held) (free : x ∉ held) :
    Balanced (Function.update taken x (taken x + 1)) returned (x :: held) where
  conserved := fun y => by
    by_cases same : y = x
    · subst same
      rw [Function.update_self, List.count_cons_self, balanced.conserved y]
      omega
    · rw [Function.update_of_ne same, List.count_cons_of_ne (Ne.symm same), balanced.conserved y]
  once := List.nodup_cons.mpr ⟨free, balanced.once⟩

/-- A thing that is held can be given back. -/
theorem Balanced.give (balanced : Balanced taken returned (x :: held)) :
    Balanced taken (Function.update returned x (returned x + 1)) held where
  conserved := fun y => by
    have before := balanced.conserved y
    by_cases same : y = x
    · subst same
      rw [Function.update_self, before, List.count_cons_self]
      omega
    · rw [Function.update_of_ne same, before, List.count_cons_of_ne (Ne.symm same)]
  once := (List.nodup_cons.mp balanced.once).2

/-- What was given back as often as it was taken is not held. -/
theorem Balanced.notMem_iff (balanced : Balanced taken returned held) :
    x ∉ held ↔ taken x = returned x := by
  rw [balanced.conserved x, ← List.count_eq_zero]
  omega

/-! ### Books of things that may be taken more than once -/

/-- What is taken is given back or held, as often as it was taken. -/
def Conserved (taken returned : α → Nat) (held : List α) : Prop :=
  ∀ x, taken x = returned x + held.count x

/-- Once more. -/
def bump (f : α → Nat) (x : α) : α → Nat := Function.update f x (f x + 1)

theorem bump_apply (f : α → Nat) (x y : α) : bump f x y = f y + [x].count y := by
  by_cases same : y = x
  · subst same
    simp [bump]
  · have none_counted : [x].count y = 0 := List.count_eq_zero.mpr (by simpa using same)
    rw [bump, Function.update_of_ne same, none_counted]
    rfl

theorem conserved_nil : Conserved (fun _ : α => 0) (fun _ => 0) [] := fun _ => rfl

/-- Where things are held does not matter. -/
theorem conserved_perm (moved : held.Perm held') :
    Conserved taken returned held ↔ Conserved taken returned held' := by
  simp only [Conserved, moved.count_eq]

/-- To take a thing and to hold it keeps the books. -/
theorem conserved_take : Conserved (bump taken x) returned (held ++ [x]) ↔
    Conserved taken returned held := by
  simp only [Conserved, bump_apply, List.count_append]
  exact forall_congr' fun y => by omega

/-- To give back what is held keeps the books. -/
theorem conserved_give : Conserved taken (bump returned x) held ↔
    Conserved taken returned (x :: held) := by
  have split (y : α) : (x :: held).count y = [x].count y + held.count y := by
    rw [← List.count_append, List.singleton_append]
  simp only [Conserved, bump_apply, split]
  exact forall_congr' fun y => by omega

/-- To take a thing and to give it back at once keeps the books. -/
theorem conserved_pass : Conserved (bump taken x) (bump returned x) held ↔
    Conserved taken returned held := by
  simp only [Conserved, bump_apply]
  exact forall_congr' fun y => by omega

/-- A thing that is taken and not held is lost. -/
theorem Conserved.not_take (books : Conserved taken returned held) :
    ¬Conserved (bump taken x) returned held := fun more => by
  have before := books x
  have after := more x
  rw [bump, Function.update_self] at after
  omega

/-- A thing that is given back and not held was not there. -/
theorem Conserved.not_give (books : Conserved taken returned held) :
    ¬Conserved taken (bump returned x) held := fun more => by
  have before := books x
  have after := more x
  rw [bump, Function.update_self] at after
  omega

/-- A thing that is no longer held and was not given back is lost. -/
theorem Conserved.not_drop (books : Conserved taken returned (x :: held)) :
    ¬Conserved taken returned held := fun less => by
  have before := books x
  have after := less x
  rw [List.count_cons_self] at before
  omega

/-- One thing is taken and another one is held. -/
theorem Conserved.not_take_other {y : α} (books : Conserved taken returned held) (other : x ≠ y) :
    ¬Conserved (bump taken x) returned (held ++ [y]) := fun more => by
  have before := books x
  have after := more x
  rw [bump, Function.update_self, List.count_append,
    List.count_eq_zero.mpr (by simpa using other : x ∉ [y])] at after
  omega

/-- One thing is no longer held and another one is given back. -/
theorem Conserved.not_give_other {y : α} (books : Conserved taken returned (x :: held))
    (other : y ≠ x) : ¬Conserved taken (bump returned y) held := fun more => by
  have before := books y
  have after := more y
  rw [List.count_cons_of_ne other.symm] at before
  rw [bump, Function.update_self] at after
  omega

end Ledger
