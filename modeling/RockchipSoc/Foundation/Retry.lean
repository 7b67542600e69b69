import Mathlib.Logic.Relation
import Mathlib.Tactic.Common

/-!
# Retrying until an attempt succeeds

A loop makes numbered attempts, infinitely many of which would succeed.  If every round from a
state that retries comes to its goal or to another such state with one failing attempt used up,
the loop comes to its goal.
-/

namespace Retry

open Relation

/-- Infinitely many attempts succeed. -/
def Recurs (succeeds : Nat → Prop) : Prop := ∀ n, ∃ m, n ≤ m ∧ succeeds m

theorem reaches_goal {σ : Type*} {step : σ → σ → Prop} (retries goal : σ → Prop)
    (attempts : σ → Nat) {succeeds : Nat → Prop} (recurs : Recurs succeeds)
    (round : ∀ state, retries state → ∃ next, ReflTransGen step state next ∧
      (goal next ∨ ¬succeeds (attempts state) ∧ retries next ∧
        attempts next = attempts state + 1))
    {start : σ} (retrying : retries start) :
    ∃ final, ReflTransGen step start final ∧ goal final := by
  obtain ⟨last, later, success⟩ := recurs (attempts start)
  obtain ⟨distance, rfl⟩ := Nat.exists_eq_add_of_le later
  induction distance generalizing start with
  | zero =>
      obtain ⟨next, reached, done | ⟨fails, _⟩⟩ := round start retrying
      · exact ⟨next, reached, done⟩
      · exact absurd success fails
  | succ distance ih =>
      obtain ⟨next, reached, done | ⟨_, again, counted⟩⟩ := round start retrying
      · exact ⟨next, reached, done⟩
      · have same : attempts start + (distance + 1) = attempts next + distance := by omega
        rw [same] at success
        obtain ⟨final, rest, done⟩ := ih again (Nat.le_add_right _ _) success
        exact ⟨final, reached.trans rest, done⟩

end Retry
