import Mathlib.Data.List.Basic

/-!
# Pools of threads

A thread is the list of atomic actions it still has to execute; executing the first one may push
further actions in front of the rest.  Properties of the pending actions of a whole pool, and the
number of those with a given property, change with one execution by the executed action and the
pushed ones only.
-/

namespace ActionPool

variable {α : Type*} {threads : List (List α)} {t : Nat} {head : α} {rest pushed : List α}

/-- The actions that some thread still has to execute. -/
def pending (threads : List (List α)) : List α := threads.flatten

theorem head_mem_pending (current : threads[t]? = some (head :: rest)) :
    head ∈ pending threads :=
  List.mem_flatten.mpr ⟨_, List.mem_of_getElem? current, List.mem_cons_self⟩

/-- The pending actions of a pool fall by the executed action and grow by the pushed ones. -/
theorem countP_pending_set (p : α → Bool) (current : threads[t]? = some (head :: rest)) :
    (pending (threads.set t (pushed ++ rest))).countP p + [head].countP p =
      (pending threads).countP p + pushed.countP p := by
  induction threads generalizing t with
  | nil => simp at current
  | cons thread threads ih =>
      cases t with
      | zero =>
          obtain rfl : thread = head :: rest := by simpa using current
          simp only [pending, List.set_cons_zero, List.flatten_cons, List.countP_append,
            List.countP_cons, List.countP_nil]
          omega
      | succ t =>
          have later := ih (t := t) (by simpa using current)
          simp only [pending, List.set_cons_succ, List.flatten_cons, List.countP_append]
            at later ⊢
          omega

theorem mem_pending_set {action : α} (current : threads[t]? = some (head :: rest))
    (member : action ∈ pending (threads.set t (pushed ++ rest))) :
    action ∈ pushed ∨ action ∈ pending threads := by
  obtain ⟨thread, listed, inside⟩ := List.mem_flatten.mp member
  rcases List.mem_or_eq_of_mem_set listed with old | rfl
  · exact Or.inr (List.mem_flatten.mpr ⟨thread, old, inside⟩)
  · rcases List.mem_append.mp inside with new | later
    · exact Or.inl new
    · exact Or.inr (List.mem_flatten.mpr
        ⟨_, List.mem_of_getElem? current, List.mem_cons_of_mem _ later⟩)

theorem mem_pending_of_pushed {action : α} (current : threads[t]? = some (head :: rest))
    (new : action ∈ pushed) : action ∈ pending (threads.set t (pushed ++ rest)) := by
  obtain ⟨inside, _⟩ := List.getElem?_eq_some_iff.mp current
  exact List.mem_flatten.mpr ⟨_, List.mem_set inside _, List.mem_append_left rest new⟩

theorem countP_pending_spawn (p : α → Bool) (thread : List α) :
    (pending (threads ++ [thread])).countP p = (pending threads).countP p + thread.countP p := by
  simp [pending, List.countP_append]

theorem mem_pending_spawn {action : α} {thread : List α} :
    action ∈ pending (threads ++ [thread]) ↔ action ∈ pending threads ∨ action ∈ thread := by
  simp [pending]

/-- An idle thread gets new actions. -/
theorem countP_pending_start (p : α → Bool) (thread : List α) (idle : threads[t]? = some []) :
    (pending (threads.set t thread)).countP p = (pending threads).countP p + thread.countP p := by
  induction threads generalizing t with
  | nil => simp at idle
  | cons first threads ih =>
      cases t with
      | zero =>
          obtain rfl : first = [] := by simpa using idle
          simp [pending, List.countP_append, Nat.add_comm]
      | succ t =>
          have later := ih (t := t) (by simpa using idle)
          simp only [pending, List.set_cons_succ, List.flatten_cons, List.countP_append]
            at later ⊢
          omega

theorem mem_pending_start {action : α} {thread : List α}
    (member : action ∈ pending (threads.set t thread)) :
    action ∈ thread ∨ action ∈ pending threads := by
  obtain ⟨other, listed, inside⟩ := List.mem_flatten.mp member
  rcases List.mem_or_eq_of_mem_set listed with old | rfl
  · exact Or.inr (List.mem_flatten.mpr ⟨other, old, inside⟩)
  · exact Or.inl inside

/-- What another thread is about to execute is counted beside the first thread. -/
theorem countP_first_add_le (p : α → Bool) {first : List α} (zero : threads[0]? = some first)
    (current : threads[t]? = some (head :: rest)) (other : t ≠ 0) :
    first.countP p + [head].countP p ≤ (pending threads).countP p := by
  cases threads with
  | nil => simp at zero
  | cons thread threads =>
      obtain rfl : thread = first := by simpa using zero
      obtain ⟨t, rfl⟩ := Nat.exists_eq_succ_of_ne_zero other
      have inside : head ∈ pending threads := head_mem_pending (by simpa using current)
      have counted : [head].countP p ≤ (pending threads).countP p :=
        List.Sublist.countP_le (List.singleton_sublist.mpr inside)
      simp only [pending, List.flatten_cons, List.countP_append] at counted ⊢
      omega

/-- Two different pending actions with a property count twice. -/
theorem two_le_countP {p : α → Bool} {actions : List α} {first second : α}
    (left : first ∈ actions) (right : second ∈ actions) (different : first ≠ second)
    (holdsLeft : p first = true) (holdsRight : p second = true) : 2 ≤ actions.countP p := by
  induction actions with
  | nil => cases left
  | cons head tail ih =>
      rw [List.countP_cons]
      rcases List.mem_cons.mp left with rfl | leftTail
      · rcases List.mem_cons.mp right with rfl | rightTail
        · exact absurd rfl different
        · have := List.countP_pos_iff.mpr ⟨second, rightTail, holdsRight⟩
          rw [if_pos holdsLeft]
          omega
      · rcases List.mem_cons.mp right with rfl | rightTail
        · have := List.countP_pos_iff.mpr ⟨first, leftTail, holdsLeft⟩
          rw [if_pos holdsRight]
          omega
        · have := ih leftTail rightTail
          omega

end ActionPool
