import Mathlib.Algebra.Order.Ring.Int
import Mathlib.Data.List.Forall2

/-!
# Writing and reading sequences of cells

A memory maps addresses to cells.  A writer that emits a sequence is described by what it emits, and
a reader by the sequence that it finds from an address on.
-/

namespace Emit

variable {α : Type*} {m : ℤ → α} {pos : ℤ} {cells front rest : List α} {cell : α}

/-- Write the cells from the address on. -/
def emit (m : ℤ → α) (pos : ℤ) (cells : List α) : ℤ → α := fun a =>
  if pos ≤ a then (cells[(a - pos).toNat]?).getD (m a) else m a

/-- The cells stand from the address on. -/
def Holds (m : ℤ → α) (pos : ℤ) (cells : List α) : Prop :=
  ∀ k : Nat, k < cells.length → cells[k]? = some (m (pos + k))

@[simp] theorem emit_nil (m : ℤ → α) (pos : ℤ) : emit m pos [] = m := by
  funext a
  simp [emit]

/-- Emitting a sequence is emitting its parts one behind the other. -/
theorem emit_append (m : ℤ → α) (pos : ℤ) (front rest : List α) :
    emit m pos (front ++ rest) = emit (emit m pos front) (pos + front.length) rest := by
  funext a
  by_cases before : pos ≤ a
  · by_cases inFront : a < pos + front.length
    · have index : (a - pos).toNat < front.length := by omega
      have outside : ¬pos + front.length ≤ a := not_le.mpr inFront
      simp only [emit, if_pos before, if_neg outside, List.getElem?_append_left index]
    · have behind : pos + front.length ≤ a := not_lt.mp inFront
      have index : front.length ≤ (a - pos).toNat := by omega
      have shift : (a - pos).toNat - front.length = (a - (pos + front.length)).toNat := by omega
      have none : front[(a - pos).toNat]? = none := List.getElem?_eq_none index
      simp only [emit, if_pos before, if_pos behind, List.getElem?_append_right index, shift, none,
        Option.getD_none]
  · have outside : ¬pos + front.length ≤ a := by omega
    simp only [emit, if_neg before, if_neg outside]

/-- A gap that is left out can be filled afterwards. -/
theorem emit_gap (m : ℤ → α) (pos : ℤ) (front rest : List α) :
    emit (emit m (pos + front.length) rest) pos front = emit m pos (front ++ rest) := by
  rw [emit_append]
  funext a
  by_cases before : pos ≤ a
  · by_cases inFront : a < pos + front.length
    · have outside : ¬pos + front.length ≤ a := not_le.mpr inFront
      simp only [emit, if_neg outside]
    · have behind : pos + front.length ≤ a := not_lt.mp inFront
      have none : front[(a - pos).toNat]? = none := List.getElem?_eq_none (by omega)
      simp only [emit, if_pos before, if_pos behind, none, Option.getD_none]
  · have outside : ¬pos + front.length ≤ a := by omega
    simp only [emit, if_neg before, if_neg outside]

theorem holds_emit (m : ℤ → α) (pos : ℤ) (cells : List α) : Holds (emit m pos cells) pos cells := by
  intro k inside
  simp [emit, List.getElem?_eq_getElem inside]

@[simp] theorem holds_nil : Holds m pos [] := fun _ inside => absurd inside (Nat.not_lt_zero _)

theorem holds_cons : Holds m pos (cell :: rest) ↔ m pos = cell ∧ Holds m (pos + 1) rest := by
  constructor
  · intro holds
    have first := holds 0 (Nat.succ_pos _)
    refine ⟨?_, fun k inside => ?_⟩
    · simpa using (Option.some.inj first).symm
    · have next := holds (k + 1) (Nat.succ_lt_succ inside)
      have address : pos + 1 + (k : ℤ) = pos + (k + 1 : Nat) := by push_cast; omega
      rw [address]
      exact next
  · rintro ⟨first, holds⟩ k inside
    cases k with
    | zero => simp [first]
    | succ k =>
        have address : pos + (k + 1 : Nat) = pos + 1 + (k : ℤ) := by push_cast; omega
        rw [address]
        exact holds k (Nat.lt_of_succ_lt_succ inside)

theorem holds_append :
    Holds m pos (front ++ rest) ↔ Holds m pos front ∧ Holds m (pos + front.length) rest := by
  induction front generalizing pos with
  | nil => simp
  | cons first front ih =>
      have address : pos + 1 + (front.length : ℤ) = pos + (first :: front).length := by
        rw [List.length_cons]
        push_cast
        omega
      rw [List.cons_append, holds_cons, holds_cons, ih, and_assoc, address]

/-- The cells read from the address on. -/
def cellsAt (m : ℤ → α) (pos : ℤ) (count : Nat) : List α :=
  (List.range count).map fun k : Nat => m (pos + k)

theorem Holds.cellsAt (holds : Holds m pos cells) : Emit.cellsAt m pos cells.length = cells := by
  apply List.ext_getElem
  · simp [Emit.cellsAt]
  · intro k _ inside
    have found := holds k inside
    rw [List.getElem?_eq_getElem inside] at found
    simp only [Emit.cellsAt, List.getElem_map, List.getElem_range]
    exact (Option.some.inj found).symm

/-! ## Writers that may fail -/

/-- A writer answers with the memory and the next address, or with a negative error in its place. -/
abbrev Writer (α : Type*) := (ℤ → α) → ℤ → (ℤ → α) × ℤ

/-- A part of a writer: it goes on from an address, or the whole writer returns. -/
abbrev Part (α : Type*) := (ℤ → α) → ℤ → (ℤ → α) × Except ℤ ℤ

namespace Part

/-- Nothing to write. -/
def done : Part α := fun m pos => (m, .ok pos)

/-- One part behind the other. -/
def seq (first next : Part α) : Part α := fun m pos =>
  match (first m pos).2 with
  | .ok pos' => next (first m pos).1 pos'
  | .error answer => ((first m pos).1, .error answer)

/-- The parts of a list one behind the other. -/
def all : List (Part α) → Part α
  | [] => done
  | part :: parts => seq part (all parts)

/-- The call of a writer, which returns on a negative answer with what the caller makes of it. -/
def call (writer : Writer α) (failure : ℤ → ℤ) : Part α := fun m pos =>
  let answer := writer m pos
  (answer.1, if answer.2 < 0 then .error (failure answer.2) else .ok answer.2)

/-- The writer whose body the part is. -/
def body (part : Part α) : Writer α := fun m pos =>
  match part m pos with
  | (m', .ok pos') => (m', pos')
  | (m', .error answer) => (m', answer)

/-- From any address on, the part emits the cells and goes on behind them. -/
def Emits (part : Part α) (cells : List α) : Prop :=
  ∀ m pos, 0 ≤ pos → part m pos = (emit m pos cells, .ok (pos + cells.length))

/-- From any address on, the part neither goes on at nor returns a negative number. -/
def Advances (part : Part α) : Prop := ∀ m pos, 0 ≤ pos → 0 ≤ (body part m pos).2

/-- From any address on, the part returns a negative number. -/
def Fails (part : Part α) : Prop := ∀ m pos, 0 ≤ pos → (body part m pos).2 < 0

end Part

namespace Writer

/-- From any address on, the writer emits the cells and answers with the address behind them. -/
def Emits (writer : Writer α) (cells : List α) : Prop :=
  ∀ m pos, 0 ≤ pos → writer m pos = (emit m pos cells, pos + cells.length)

/-- The writer answers with an address, never with an error. -/
def Advances (writer : Writer α) : Prop := ∀ m pos, 0 ≤ pos → 0 ≤ (writer m pos).2

end Writer

variable {writer : Writer α} {part first next : Part α} {failure : ℤ → ℤ}

theorem Writer.Emits.advances (emits : Writer.Emits writer cells) : Writer.Advances writer := by
  intro m pos nonneg
  rw [emits m pos nonneg]
  exact Int.add_nonneg nonneg (Int.natCast_nonneg _)

namespace Part

theorem emits_done : Emits (done : Part α) [] := by
  intro m pos _
  simp [done]

theorem Emits.advances (emits : Emits part cells) : Advances part := by
  intro m pos nonneg
  rw [body, emits m pos nonneg]
  exact Int.add_nonneg nonneg (Int.natCast_nonneg _)

theorem Emits.seq (emits : Emits first front) (emits' : Emits next rest) :
    Emits (seq first next) (front ++ rest) := by
  intro m pos nonneg
  have behind : 0 ≤ pos + (front.length : ℤ) := Int.add_nonneg nonneg (Int.natCast_nonneg _)
  have address : pos + front.length + rest.length = pos + (front ++ rest).length := by
    rw [List.length_append]
    push_cast
    omega
  simp only [Part.seq, emits m pos nonneg, emits' _ _ behind, emit_append, address]

theorem Emits.call (emits : Writer.Emits writer cells) : Emits (call writer failure) cells := by
  intro m pos nonneg
  have advanced := emits.advances m pos nonneg
  simp only [Part.call, if_neg (not_lt.mpr advanced)]
  rw [emits m pos nonneg]

theorem Emits.body (emits : Emits part cells) : Writer.Emits (body part) cells := by
  intro m pos nonneg
  rw [Part.body, emits m pos nonneg]

theorem Advances.seq (advances : Advances first) (advances' : Advances next) :
    Advances (seq first next) := by
  intro m pos nonneg
  have advanced := advances m pos nonneg
  rw [body] at advanced
  rw [body, Part.seq]
  generalize first m pos = answer at advanced
  obtain ⟨m', pos' | answer⟩ := answer
  · exact advanced
  · exact advances' m' answer advanced

theorem Advances.call (advances : Writer.Advances writer) : Advances (call writer failure) := by
  intro m pos nonneg
  have advanced := advances m pos nonneg
  rw [body, Part.call]
  simp only [if_neg (not_lt.mpr advanced)]
  exact advanced

/-- The parts of a list emit their blocks one behind the other. -/
theorem Emits.all {parts : List (Part α)} {blocks : List (List α)}
    (emits : List.Forall₂ Emits parts blocks) : Emits (all parts) blocks.flatten := by
  induction emits with
  | nil => exact emits_done
  | cons first _ ih => exact first.seq ih

theorem Advances.all {parts : List (Part α)} (advances : ∀ part ∈ parts, Advances part) :
    Advances (all parts) := by
  induction parts with
  | nil => exact emits_done.advances
  | cons first parts ih =>
      have rest := ih fun part member => advances part (List.mem_cons_of_mem _ member)
      exact (advances first List.mem_cons_self).seq rest

/-- A failure further on is the answer where every answer of the callers is negative. -/
theorem Fails.call_seq (negative : ∀ answer, failure answer < 0) (fails : Fails next) :
    Fails (Part.seq (Part.call writer failure) next) := by
  intro m pos _
  rw [body, Part.seq, Part.call]
  by_cases failed : (writer m pos).2 < 0
  · simp only [if_pos failed]
    exact negative _
  · simp only [if_neg failed]
    exact fails _ _ (not_lt.mp failed)

theorem fails_call_seq (negative : ∀ answer, failure answer < 0)
    (failed : ∀ m pos, 0 ≤ pos → (writer m pos).2 < 0) :
    Fails (Part.seq (Part.call writer failure) next) := by
  intro m pos nonneg
  simp only [body, Part.seq, Part.call, if_pos (failed m pos nonneg)]
  exact negative _

theorem Advances.body (advances : Advances part) : Writer.Advances (body part) := advances

end Part

end Emit
