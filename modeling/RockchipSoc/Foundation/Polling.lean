import Mathlib.Data.Nat.Find

/-!
# Loops over an endless list of answers

The body of a loop takes the next answer and says whether it goes on, leaves, or never comes to
its own end.  A loop that all answers let go on runs for ever; otherwise the first that does not
decides, and a run with enough fuel ends there.
-/

namespace Polling

variable {σ α : Type*}

/-- Run a loop for at most `fuel` answers: the state with whether the loop was left.  The body
answers `none` to go on, `some true` to leave and `some false` when it does not end itself. -/
def poll (body : σ → α → σ × Option Bool) : ℕ → (ℕ → α) → σ → σ × Bool
  | 0, _, state => (state, false)
  | fuel + 1, answers, state =>
      match body state (answers 0) with
      | (state, none) => poll body fuel (fun n => answers (n + 1)) state
      | (state, some left) => (state, left)

/-- The state after a number of answers, whatever the body says. -/
def after (body : σ → α → σ × Option Bool) (answers : ℕ → α) (start : σ) : ℕ → σ
  | 0 => start
  | n + 1 => (body (after body answers start n) (answers n)).1

/-- What the body says of an answer. -/
def verdict (body : σ → α → σ × Option Bool) (answers : ℕ → α) (start : σ) (n : ℕ) :
    Option Bool :=
  (body (after body answers start n) (answers n)).2

/-- The first answers all let the loop go on. -/
def GoesOn (body : σ → α → σ × Option Bool) (answers : ℕ → α) (start : σ) (n : ℕ) : Prop :=
  ∀ k < n, verdict body answers start k = none

variable {body : σ → α → σ × Option Bool} {answers : ℕ → α} {start : σ}

theorem after_tail (n : ℕ) :
    after body (fun n => answers (n + 1)) (body start (answers 0)).1 n =
      after body answers start (n + 1) := by
  induction n with
  | zero => rfl
  | succ n ih =>
      rw [after, ih]
      rfl

theorem GoesOn.tail {n : ℕ} (goes : GoesOn body answers start (n + 1)) :
    GoesOn body (fun n => answers (n + 1)) (body start (answers 0)).1 n := by
  intro k k_lt
  rw [verdict, after_tail]
  exact goes (k + 1) (Nat.succ_lt_succ k_lt)

theorem GoesOn.mono {n m : ℕ} (goes : GoesOn body answers start n) (le : m ≤ n) :
    GoesOn body answers start m :=
  fun k k_lt => goes k (Nat.lt_of_lt_of_le k_lt le)

theorem GoesOn.succ {n : ℕ} (goes : GoesOn body answers start n)
    (more : verdict body answers start n = none) : GoesOn body answers start (n + 1) := by
  intro k k_lt
  rcases Nat.lt_succ_iff_lt_or_eq.mp k_lt with earlier | rfl
  · exact goes k earlier
  · exact more

theorem poll_succ_of_more {fuel : ℕ} (more : verdict body answers start 0 = none) :
    poll body (fuel + 1) answers start =
      poll body fuel (fun n => answers (n + 1)) (body start (answers 0)).1 := by
  rw [verdict, after] at more
  rw [poll]
  split
  · next state eq => rw [eq]
  · next state left eq =>
      rw [eq] at more
      cases more

/-- The first answer that does not let the loop go on ends it. -/
theorem poll_of_verdict {n fuel : ℕ} {left : Bool} (goes : GoesOn body answers start n)
    (last : verdict body answers start n = some left) (enough : n < fuel) :
    poll body fuel answers start = (after body answers start (n + 1), left) := by
  obtain ⟨fuel, rfl⟩ := Nat.exists_eq_succ_of_ne_zero (Nat.ne_zero_of_lt enough)
  induction n generalizing fuel answers start with
  | zero =>
      rw [verdict, after] at last
      rw [Nat.succ_eq_add_one, poll, after, after]
      split
      · next state eq =>
          rw [eq] at last
          cases last
      · next state left' eq =>
          rw [eq] at last ⊢
          rw [Option.some.inj last]
  | succ n ih =>
      rw [Nat.succ_eq_add_one, poll_succ_of_more (goes 0 (Nat.succ_pos n))]
      obtain ⟨fuel, rfl⟩ := Nat.exists_eq_succ_of_ne_zero
        (Nat.ne_zero_of_lt (Nat.lt_of_succ_lt_succ enough))
      rw [ih goes.tail (by rw [verdict, after_tail]; exact last) fuel
        (Nat.lt_of_succ_lt_succ enough), after_tail]

/-- Answers that let the loop go on use up the fuel. -/
theorem poll_of_goesOn {fuel : ℕ} (goes : GoesOn body answers start fuel) :
    poll body fuel answers start = (after body answers start fuel, false) := by
  induction fuel generalizing answers start with
  | zero => rfl
  | succ fuel ih =>
      rw [poll_succ_of_more (goes 0 (Nat.succ_pos fuel)), ih goes.tail, after_tail]

/-- How a run ends: within the fuel by the first answer that does not let the loop go on, or by
the fuel. -/
theorem poll_cases (body : σ → α → σ × Option Bool) (fuel : ℕ) (answers : ℕ → α) (start : σ) :
    (∃ n < fuel, ∃ left, GoesOn body answers start n ∧
      verdict body answers start n = some left ∧
      poll body fuel answers start = (after body answers start (n + 1), left)) ∨
    GoesOn body answers start fuel ∧
      poll body fuel answers start = (after body answers start fuel, false) := by
  classical
  by_cases ends : ∃ n, n < fuel ∧ verdict body answers start n ≠ none
  · obtain ⟨least_lt, least⟩ := Nat.find_spec ends
    have goes : GoesOn body answers start (Nat.find ends) := fun k k_lt =>
      Classical.byContradiction fun stops =>
        Nat.find_min ends k_lt ⟨Nat.lt_trans k_lt least_lt, stops⟩
    obtain ⟨left, last⟩ := Option.ne_none_iff_exists'.mp least
    exact Or.inl ⟨_, least_lt, left, goes, last, poll_of_verdict goes last least_lt⟩
  · have goes : GoesOn body answers start fuel := fun k k_lt =>
      Classical.byContradiction fun stops => ends ⟨k, k_lt, stops⟩
    exact Or.inr ⟨goes, poll_of_goesOn goes⟩

/-- A loop that was left was left by the first answer that does not let it go on. -/
theorem exists_of_left {fuel : ℕ} (left : (poll body fuel answers start).2 = true) :
    ∃ n < fuel, GoesOn body answers start n ∧ verdict body answers start n = some true ∧
      (poll body fuel answers start).1 = after body answers start (n + 1) := by
  rcases poll_cases body fuel answers start with ⟨n, n_lt, left', goes, last, eq⟩ | ⟨_, eq⟩
  · rw [eq] at left
    rw [show left' = true from left] at last
    exact ⟨n, n_lt, goes, last, by rw [eq]⟩
  · rw [eq] at left
    cases left

/-- What every answer keeps holds at the end of every run. -/
theorem poll_invariant (inv : σ → Prop)
    (kept : ∀ state answer, inv state → inv (body state answer).1) (fuel : ℕ)
    (initial : inv start) : inv (poll body fuel answers start).1 := by
  have reached (n : ℕ) : inv (after body answers start n) := by
    induction n with
    | zero => exact initial
    | succ n ih => exact kept _ _ ih
  rcases poll_cases body fuel answers start with ⟨n, _, _, _, _, eq⟩ | ⟨_, eq⟩
  · rw [eq]
    exact reached (n + 1)
  · rw [eq]
    exact reached fuel

end Polling
