import Mathlib.Algebra.Group.Nat.Even
import Mathlib.Data.Nat.Find

/-!
# Updates that restore themselves

An update writes new parameters and waits for them to settle.  Where they do not, it writes the old
ones by the same update, which may have to restore in turn.  The outcomes of the waits are numbered.
The parameters behind an update are the new or the old ones, by the parity of the failures.
-/

namespace RestoringUpdate

variable {σ π μ : Type*}

/-- A state with parameters that are written between entering and leaving. -/
structure Writer (σ π : Type*) where
  read : σ → π
  write : σ → π → σ
  /-- What leaving does to the state behind the write, given the state at entry. -/
  leave : σ → σ → σ
  read_leave : ∀ entry state, read (leave entry state) = read state
  read_back : ∀ state state', read (write state (read state')) = read state'

/-- The update of that depth at most, with its result and whether the first wait settled. -/
def update (writer : Writer σ π) (settles : ℕ → Bool) : ℕ → ℕ → σ → π → Option (σ × Bool)
  | 0, _, _, _ => none
  | depth + 1, wait, entry, params =>
      let cur := writer.read entry
      let state := writer.write entry params
      if settles wait then some (writer.leave entry state, true)
      else (update writer settles depth (wait + 1) state cur).map fun restored =>
        (writer.leave entry restored.1, false)

/-- From a wait on, so many waits fail before one settles. -/
def FailsBefore (settles : ℕ → Bool) (wait failures : ℕ) : Prop :=
  settles (wait + failures) = true ∧ ∀ earlier < failures, settles (wait + earlier) = false

variable {writer : Writer σ π} {settles : ℕ → Bool} {wait failures depth : ℕ} {entry : σ}
  {params : π}

theorem exists_failsBefore {settled : ℕ} (found : settles (wait + settled) = true) :
    ∃ failures, FailsBefore settles wait failures := by
  classical
  have some_settles : ∃ other, settles (wait + other) = true := ⟨settled, found⟩
  refine ⟨Nat.find some_settles, Nat.find_spec some_settles, fun earlier before => ?_⟩
  exact Bool.eq_false_iff.mpr (Nat.find_min some_settles before)

theorem FailsBefore.unique {failures' : ℕ} (fails : FailsBefore settles wait failures)
    (fails' : FailsBefore settles wait failures') : failures = failures' := by
  rcases Nat.lt_trichotomy failures failures' with before | same | after
  · exact absurd fails.1 (Bool.eq_false_iff.mp (fails'.2 failures before))
  · exact same
  · exact absurd fails'.1 (Bool.eq_false_iff.mp (fails.2 failures' after))

/-- After the first failure, the restoring update waits on. -/
theorem FailsBefore.tail (fails : FailsBefore settles wait (failures + 1)) :
    settles wait = false ∧ FailsBefore settles (wait + 1) failures := by
  refine ⟨fails.2 0 (Nat.succ_pos failures), ?_, fun earlier before => ?_⟩
  · rw [Nat.add_assoc, Nat.add_comm 1]
    exact fails.1
  · rw [Nat.add_assoc, Nat.add_comm 1]
    exact fails.2 (earlier + 1) (Nat.succ_lt_succ before)

/-- An update ends where some wait settles.  Its parameters are the new ones after an even number of
failures and the old ones after an odd number. -/
theorem update_of_failsBefore (writer : Writer σ π) (fails : FailsBefore settles wait failures)
    (entry : σ) (params : π) :
    ∃ state, (∀ depth > failures,
        update writer settles depth wait entry params = some (state, decide (failures = 0))) ∧
      writer.read state =
        if Even failures then writer.read (writer.write entry params) else writer.read entry := by
  induction failures generalizing wait entry params with
  | zero =>
      refine ⟨writer.leave entry (writer.write entry params), fun depth enough => ?_, ?_⟩
      · obtain ⟨depth, rfl⟩ := Nat.exists_eq_succ_of_ne_zero (Nat.ne_of_gt enough)
        simp only [update, show settles wait = true from fails.1, if_true]
        rfl
      · rw [writer.read_leave, if_pos Even.zero]
  | succ failures ih =>
      obtain ⟨first, rest⟩ := fails.tail
      obtain ⟨state, ends, params_eq⟩ := ih rest (writer.write entry params) (writer.read entry)
      refine ⟨writer.leave entry state, fun depth enough => ?_, ?_⟩
      · obtain ⟨depth, rfl⟩ := Nat.exists_eq_succ_of_ne_zero (Nat.ne_zero_of_lt enough)
        simp only [update, first, Bool.false_eq_true, if_false,
          ends depth (Nat.lt_of_succ_lt_succ enough), Option.map_some]
        rfl
      · rw [writer.read_leave, params_eq, writer.read_back]
        by_cases even : Even failures
        · rw [if_pos even, if_neg (Nat.even_add_one.not.mpr (not_not.mpr even))]
        · rw [if_neg even, if_pos (Nat.even_add_one.mpr even)]

/-- An update whose waits never settle does not end. -/
theorem update_of_never (never : ∀ later, settles (wait + later) = false) :
    update writer settles depth wait entry params = none := by
  induction depth generalizing wait entry params with
  | zero => rfl
  | succ depth ih =>
      have next (later : ℕ) : settles (wait + 1 + later) = false := by
        rw [Nat.add_assoc]
        exact never (1 + later)
      simp only [update, show settles wait = false from never 0, Bool.false_eq_true, if_false,
        ih next, Option.map_none]

/-- More depth does not change how an update ends. -/
theorem update_mono {result : σ × Bool} {more : ℕ} (deeper : depth ≤ more)
    (ends : update writer settles depth wait entry params = some result) :
    update writer settles more wait entry params = some result := by
  induction depth generalizing wait entry params result more with
  | zero => cases ends
  | succ depth ih =>
      obtain ⟨more, rfl⟩ := Nat.exists_eq_succ_of_ne_zero (Nat.ne_zero_of_lt deeper)
      simp only [update] at ends ⊢
      split at ends
      · next settled => rw [if_pos settled, ends]
      · next fails =>
          obtain ⟨restored, restores, same⟩ := Option.map_eq_some_iff.mp ends
          rw [if_neg fails, ih (Nat.le_of_succ_le_succ deeper) restores, Option.map_some, same]

/-- An update that ends does so after some number of failures. -/
theorem exists_failsBefore_of_ends {result : σ × Bool}
    (ends : update writer settles depth wait entry params = some result) :
    ∃ failures, FailsBefore settles wait failures ∧ result.2 = decide (failures = 0) ∧
      writer.read result.1 =
        if Even failures then writer.read (writer.write entry params) else writer.read entry := by
  by_cases settled : ∃ later, settles (wait + later) = true
  · obtain ⟨later, found⟩ := settled
    obtain ⟨failures, fails⟩ := exists_failsBefore found
    obtain ⟨state, ends', params_eq⟩ := update_of_failsBefore writer fails entry params
    have deep := ends' (depth + failures + 1) (by omega)
    rw [update_mono (by omega) ends] at deep
    cases Option.some.inj deep
    exact ⟨failures, fails, rfl, params_eq⟩
  · have never (later : ℕ) : settles (wait + later) = false :=
      Bool.eq_false_iff.mpr fun found => settled ⟨later, found⟩
    rw [update_of_never never] at ends
    cases ends

/-- What leaving gives back as it was at entry is kept by the update. -/
theorem update_keeps (writer : Writer σ π) (observe : σ → μ)
    (keeps : ∀ entry params state, observe state = observe (writer.write entry params) →
      observe (writer.leave entry state) = observe entry)
    {result : σ × Bool} (ends : update writer settles depth wait entry params = some result) :
    observe result.1 = observe entry := by
  induction depth generalizing wait entry params result with
  | zero => cases ends
  | succ depth ih =>
      simp only [update] at ends
      split at ends
      · cases ends
        exact keeps entry params _ rfl
      · obtain ⟨restored, restores, same⟩ := Option.map_eq_some_iff.mp ends
        cases same
        exact keeps entry params _ (ih restores)

end RestoringUpdate
