import Mathlib.Data.Nat.Notation
import Mathlib.Logic.Function.Basic

/-!
# Bindings that come and go together

A partial map from keys to values is changed by two operations on lists.  `insertNew` adds all
bindings of a list or, when a key is taken, none.  `eraseBound` drops keys for as long as they are
bound.  Both may be done piece by piece, and erasing what was just inserted gives the old map back,
which is what a caller that rolls back relies on.
-/

namespace PartialMap

variable {K V : Type*} [DecidableEq K]

/-- Insert the bindings in order, unless a key is bound when its turn comes. -/
def insertNew (map : K → Option V) : List (K × V) → Option (K → Option V)
  | [] => some map
  | (key, value) :: bindings =>
      if (map key).isSome then none
      else insertNew (Function.update map key (some value)) bindings

/-- Erase the keys in order for as long as they are bound, and count them. -/
def eraseBound (map : K → Option V) : List K → (K → Option V) × ℕ
  | [] => (map, 0)
  | key :: keys =>
      if (map key).isNone then (map, 0)
      else
        let erased := eraseBound (Function.update map key none) keys
        (erased.1, erased.2 + 1)

variable {map after : K → Option V} {key : K} {value : V} {keys : List K}
  {bindings first second : List (K × V)}

@[simp]
theorem insertNew_nil : insertNew map [] = some map := rfl

theorem insertNew_cons_of_none (free : map key = none) :
    insertNew map ((key, value) :: bindings) =
      insertNew (Function.update map key (some value)) bindings := by
  simp [insertNew, free]

theorem insertNew_cons_of_some (taken : map key = some value) (new : V) :
    insertNew map ((key, new) :: bindings) = none := by
  simp [insertNew, taken]

/-- Bindings may be inserted in pieces. -/
theorem insertNew_append :
    insertNew map (first ++ second) = (insertNew map first).bind fun middle =>
      insertNew middle second := by
  induction first generalizing map with
  | nil => rfl
  | cons binding first ih =>
      obtain ⟨key, value⟩ := binding
      simp only [List.cons_append, insertNew]
      split
      · rfl
      · exact ih

/-- What was bound before stays bound. -/
theorem insertNew_of_some (inserted : insertNew map bindings = some after)
    (bound : map key = some value) : after key = some value := by
  induction bindings generalizing map with
  | nil => exact Option.some.inj inserted ▸ bound
  | cons binding bindings ih =>
      obtain ⟨other, new⟩ := binding
      cases free : map other with
      | some old => simp [insertNew_cons_of_some free] at inserted
      | none =>
          rw [insertNew_cons_of_none free] at inserted
          have different : key ≠ other := by
            rintro rfl
            simp [free] at bound
          refine ih inserted ?_
          rwa [Function.update_of_ne different]

/-- A key that is not among the bindings keeps what it had. -/
theorem insertNew_of_notMem (inserted : insertNew map bindings = some after)
    (absent : key ∉ bindings.map Prod.fst) : after key = map key := by
  induction bindings generalizing map with
  | nil => rw [Option.some.inj inserted]
  | cons binding bindings ih =>
      obtain ⟨other, new⟩ := binding
      simp only [List.map_cons, List.mem_cons, not_or] at absent
      cases free : map other with
      | some old => simp [insertNew_cons_of_some free] at inserted
      | none =>
          rw [insertNew_cons_of_none free] at inserted
          rw [ih inserted absent.2, Function.update_of_ne absent.1]

/-- A binding that was inserted can be looked up. -/
theorem eq_some_of_insertNew (inserted : insertNew map bindings = some after)
    (member : (key, value) ∈ bindings) : after key = some value := by
  induction bindings generalizing map with
  | nil => simp at member
  | cons binding bindings ih =>
      obtain ⟨other, new⟩ := binding
      cases free : map other with
      | some old => simp [insertNew_cons_of_some free] at inserted
      | none =>
          rw [insertNew_cons_of_none free] at inserted
          rcases List.mem_cons.mp member with same | later
          · obtain ⟨rfl, rfl⟩ := Prod.mk.inj same
            exact insertNew_of_some inserted (Function.update_self key (some value) map)
          · exact ih inserted later

/-- A binding taken out before is taken out behind, where the list does not touch its key. -/
theorem insertNew_update_none (inserted : insertNew (Function.update map key (some value)) bindings
      = some after) (free : map key = none) :
    insertNew map bindings = some (Function.update after key none) := by
  induction bindings generalizing map with
  | nil =>
      rw [← Option.some.inj inserted, Function.update_idem, ← free, Function.update_eq_self]
      rfl
  | cons binding bindings ih =>
      obtain ⟨other, new⟩ := binding
      cases taken : Function.update map key (some value) other with
      | some old => simp [insertNew_cons_of_some taken] at inserted
      | none =>
          have different : other ≠ key := by
            rintro rfl
            simp at taken
          rw [Function.update_of_ne different] at taken
          rw [insertNew_cons_of_none (by rwa [Function.update_of_ne different]),
            Function.update_comm different.symm] at inserted
          rw [insertNew_cons_of_none taken]
          exact ih inserted (by rwa [Function.update_of_ne different.symm])

/-- The erasing stops at a key that is free. -/
theorem eraseBound_cons_of_none (free : map key = none) :
    eraseBound map (key :: keys) = (map, 0) := by
  simp [eraseBound, free]

theorem eraseBound_cons_of_some (bound : map key = some value) :
    eraseBound map (key :: keys) =
      ((eraseBound (Function.update map key none) keys).1,
        (eraseBound (Function.update map key none) keys).2 + 1) := by
  simp [eraseBound, bound]

/-- Erasing what was just inserted gives the old map back. -/
theorem eraseBound_of_insertNew (inserted : insertNew map bindings = some after) :
    eraseBound after (bindings.map Prod.fst) = (map, bindings.length) := by
  induction bindings generalizing map after with
  | nil => rw [← Option.some.inj inserted]; rfl
  | cons binding bindings ih =>
      obtain ⟨key, value⟩ := binding
      cases free : map key with
      | some old => simp [insertNew_cons_of_some free] at inserted
      | none =>
          rw [insertNew_cons_of_none free] at inserted
          have bound : after key = some value :=
            insertNew_of_some inserted (Function.update_self key (some value) map)
          rw [List.map_cons, eraseBound_cons_of_some bound,
            ih (insertNew_update_none inserted free)]
          rfl

theorem eraseBound_le_length (map : K → Option V) (keys : List K) :
    (eraseBound map keys).2 ≤ keys.length := by
  induction keys generalizing map with
  | nil => exact Nat.le_refl 0
  | cons key keys ih =>
      cases bound : map key with
      | none => simp [eraseBound_cons_of_none bound]
      | some value =>
          rw [eraseBound_cons_of_some bound]
          exact Nat.succ_le_succ (ih _)

/-- After a first piece, the erasing goes on with the first key that the piece left. -/
theorem eraseBound_resume (map : K → Option V) (keys : List K) (piece : ℕ) :
    let first := eraseBound map (keys.take piece)
    let rest := eraseBound first.1 (keys.drop first.2)
    eraseBound map keys = (rest.1, first.2 + rest.2) := by
  induction keys generalizing map piece with
  | nil => simp [eraseBound]
  | cons key keys ih =>
      cases piece with
      | zero => simp [eraseBound]
      | succ piece =>
          cases bound : map key with
          | none => simp [List.take_succ_cons, eraseBound_cons_of_none bound]
          | some value =>
              simp only [List.take_succ_cons, eraseBound_cons_of_some bound, List.drop_succ_cons]
              rw [ih (Function.update map key none) piece]
              simp only [Nat.add_right_comm]

/-- A piece of which nothing is erased ends the erasing. -/
theorem eraseBound_of_take_eq_zero {piece : ℕ} (positive : 0 < piece)
    (stopped : (eraseBound map (keys.take piece)).2 = 0) :
    eraseBound map keys = eraseBound map (keys.take piece) := by
  obtain ⟨piece, rfl⟩ := Nat.exists_eq_succ_of_ne_zero (Nat.ne_of_gt positive)
  cases keys with
  | nil => rfl
  | cons key keys =>
      rw [List.take_succ_cons] at stopped ⊢
      cases bound : map key with
      | none => rw [eraseBound_cons_of_none bound, eraseBound_cons_of_none bound]
      | some value =>
          rw [eraseBound_cons_of_some bound] at stopped
          exact absurd stopped (Nat.succ_ne_zero _)

/-- Nothing is bound by erasing. -/
theorem eraseBound_of_none (free : map key = none) : (eraseBound map keys).1 key = none := by
  induction keys generalizing map with
  | nil => exact free
  | cons other keys ih =>
      cases bound : map other with
      | none => rwa [eraseBound_cons_of_none bound]
      | some value =>
          rw [eraseBound_cons_of_some bound]
          refine ih ?_
          by_cases same : key = other
          · rw [same, Function.update_self]
          · rwa [Function.update_of_ne same]

/-- The keys that were erased are the bound ones that are free afterwards. -/
theorem mem_take_eraseBound :
    key ∈ keys.take (eraseBound map keys).2 ↔
      map key ≠ none ∧ (eraseBound map keys).1 key = none := by
  induction keys generalizing map with
  | nil => simp [eraseBound]
  | cons other keys ih =>
      cases bound : map other with
      | none => simp [eraseBound_cons_of_none bound]
      | some value =>
          rw [eraseBound_cons_of_some bound, List.take_succ_cons, List.mem_cons, ih]
          by_cases same : key = other
          · subst same
            have gone : (eraseBound (Function.update map key none) keys).1 key = none :=
              eraseBound_of_none (Function.update_self key none map)
            simp [bound, gone]
          · simp [same]

end PartialMap
