import Mathlib.Data.List.Basic
import Mathlib.Logic.Function.Basic
import RockchipSoc.Foundation.LapCursor

/-!
# Bounded queues and rings of slots

A bounded queue is a list with a capacity, and what its users see is the sequence of its answers.
A ring of slots holds such a queue from a reading position on: slot by slot, the ring agrees with
the list.
-/

namespace BoundedFifo

variable {α σ ι ο : Type*}

/-! ### Machines and their answers -/

/-- The answers of a machine that may fail; a failure ends the run. -/
def answers (step : σ → ι → Option (σ × ο)) : σ → List ι → Option (List ο)
  | _, [] => some []
  | state, op :: ops =>
      (step state op).bind fun next => (answers step next.1 ops).map (next.2 :: ·)

/-- The state after the operations. -/
def after (step : σ → ι → Option (σ × ο)) : σ → List ι → Option σ
  | state, [] => some state
  | state, op :: ops => (step state op).bind fun next => after step next.1 ops

/-- A machine that follows another one, step by step, gives the same answers and stays related. -/
theorem answers_eq_of_follows {τ : Type*} {step : σ → ι → Option (σ × ο)} {spec : τ → ι → τ × ο}
    {related : σ → τ → Prop}
    (follows : ∀ state items op, related state items →
      ∃ next, step state op = some (next, (spec items op).2) ∧ related next (spec items op).1)
    {state : σ} {items : τ} (start : related state items) (ops : List ι) :
    answers step state ops = answers (fun items op => some (spec items op)) items ops ∧
      ∃ final rest, after step state ops = some final ∧ related final rest := by
  induction ops generalizing state items with
  | nil => exact ⟨rfl, state, items, rfl, start⟩
  | cons op ops ih =>
      obtain ⟨next, taken, start⟩ := follows state items op start
      obtain ⟨same, final, rest, run, related⟩ := ih start
      refine ⟨?_, final, rest, ?_, related⟩
      · rw [answers, taken, Option.bind_some, same]
        rfl
      · rw [after, taken, Option.bind_some, run]

/-! ### The bounded queue -/

inductive Op (α : Type*)
  | queue (data : α)
  | dequeue
  | reset

/-- What an operation returns. -/
inductive Outcome (α : Type*)
  | accepted (ok : Bool)
  | data (item : Option α)
  | done
  deriving DecidableEq, Repr

/-- The queue accepts an element while it holds fewer than its capacity, returns the oldest one,
and after each operation tells how many it holds. -/
def fifoStep (capacity : ℕ) (items : List α) : Op α → List α × (Outcome α × ℕ)
  | .queue data =>
      if items.length < capacity then (items ++ [data], .accepted true, items.length + 1)
      else (items, .accepted false, items.length)
  | .dequeue => (items.tail, .data items.head?, items.length - 1)
  | .reset => ([], .done, 0)

/-- The answers of a queue that starts empty. -/
def fifoAnswers (capacity : ℕ) (ops : List (Op α)) : Option (List (Outcome α × ℕ)) :=
  answers (fun items op => some (fifoStep capacity items op)) [] ops

/-- As long as there is room, elements are accepted. -/
theorem answers_queues (capacity : ℕ) (x : α) (ops : List (Op α)) {count : ℕ} {items : List α}
    (room : items.length + count ≤ capacity) :
    ∃ front : List (Outcome α × ℕ), front.length = count ∧
      answers (fun items op => some (fifoStep capacity items op)) items
          (List.replicate count (.queue x) ++ ops) =
        (answers (fun items op => some (fifoStep capacity items op))
          (items ++ List.replicate count x) ops).map (front ++ ·) := by
  induction count generalizing items with
  | zero => exact ⟨[], rfl, by simp⟩
  | succ count ih =>
      obtain ⟨front, length, same⟩ := @ih (items ++ [x]) (by simp; omega)
      refine ⟨(.accepted true, items.length + 1) :: front, by simp [length], ?_⟩
      have step : fifoStep capacity items (.queue x) =
          (items ++ [x], .accepted true, items.length + 1) := if_pos (by omega)
      rw [List.replicate_succ, List.cons_append, answers, step, Option.bind_some, same,
        Option.map_map, List.append_assoc, List.singleton_append, ← List.replicate_succ]
      rfl

/-- The capacity shows in the answers: a queue that is full refuses. -/
theorem capacity_le_of_fifoAnswers_eq [Inhabited α] {capacity other : ℕ}
    (same : ∀ ops : List (Op α), fifoAnswers capacity ops = fifoAnswers other ops) :
    capacity ≤ other := by
  by_contra less
  have answer (bound : ℕ) (room : other ≤ bound) : ∃ front : List (Outcome α × ℕ),
      front.length = other ∧
        fifoAnswers bound (List.replicate other (.queue default) ++ [.queue (default : α)]) =
          some (front ++ [(.accepted (decide (other < bound)),
            if other < bound then other + 1 else other)]) := by
    obtain ⟨front, length, run⟩ := @answers_queues α bound default [.queue default] other []
      (by simpa using room)
    refine ⟨front, length, run.trans ?_⟩
    by_cases below : other < bound <;> simp [answers, fifoStep, below]
  obtain ⟨front, length, run⟩ := answer capacity (by omega)
  obtain ⟨front', length', run'⟩ := answer other le_rfl
  rw [same, run', Option.some_inj] at run
  have last := (List.append_inj run (length'.trans length.symm)).2
  simp [show other < capacity by omega] at last

/-! ### The ring of slots -/

/-- From the first position on, the slots hold the elements in their order, and nothing else. -/
structure Holds (size : ℕ) (slots : ℕ → Option α) (first : ℕ) (items : List α) : Prop where
  fits : items.length ≤ size
  slot : ∀ i < size, slots ((first + i) % size) = items[i]?

variable {size first : ℕ} {slots : ℕ → Option α} {items : List α} {x : α}

theorem holds_nil (empty : ∀ i < size, slots i = none) : Holds size slots first [] where
  fits := Nat.zero_le size
  slot := fun _ below => empty _ (Nat.mod_lt _ (Nat.zero_lt_of_lt below))

/-- The slot behind the elements is free exactly when the ring is not full. -/
theorem Holds.free_iff (holds : Holds size slots first items) (positive : 0 < size) :
    slots ((first + items.length) % size) = none ↔ items.length < size := by
  rcases holds.fits.lt_or_eq with room | full
  · simpa [room] using holds.slot items.length room
  · have wraps : (first + items.length) % size = (first + 0) % size := by
      rw [full, Nat.add_mod_right, Nat.add_zero]
    rw [wraps, holds.slot 0 positive, List.getElem?_eq_none_iff, full]
    omega

theorem Holds.head (holds : Holds size slots first items) (positive : 0 < size) :
    slots (first % size) = items.head? := by
  rw [List.head?_eq_getElem?]
  exact holds.slot 0 positive

theorem slot_ne {i j : ℕ} (below : i < size) (below' : j < size) (other : i ≠ j) :
    (first + i) % size ≠ (first + j) % size := by
  rcases Nat.lt_or_gt_of_ne other with less | greater
  · exact LapCursor.mod_ne_mod (by omega) (by omega)
  · exact (LapCursor.mod_ne_mod (by omega) (by omega)).symm

/-- An element goes into the slot behind the others. -/
theorem Holds.put (holds : Holds size slots first items) (room : items.length < size) :
    Holds size (Function.update slots ((first + items.length) % size) (some x)) first
      (items ++ [x]) where
  fits := by simpa using Nat.succ_le_of_lt room
  slot := fun i below => by
    by_cases last : i = items.length
    · rw [last, Function.update_self, List.getElem?_concat_length]
    · rw [Function.update_of_ne (slot_ne below room last), holds.slot i below]
      rcases Nat.lt_or_gt_of_ne last with inside | behind
      · rw [List.getElem?_append_left inside]
      · rw [List.getElem?_eq_none (by omega), List.getElem?_eq_none (by simp; omega)]

/-- The first element leaves its slot. -/
theorem Holds.take (holds : Holds size slots first (x :: items)) :
    Holds size (Function.update slots (first % size) none) ((first + 1) % size) items where
  fits := Nat.le_of_succ_le holds.fits
  slot := fun i below => by
    have position : ((first + 1) % size + i) % size = (first + (i + 1)) % size := by
      rw [Nat.mod_add_mod, Nat.add_assoc, Nat.add_comm 1]
    rw [position]
    by_cases last : i + 1 = size
    · have wraps : (first + (i + 1)) % size = first % size := by rw [last, Nat.add_mod_right]
      have short : items.length ≤ i := by
        have := holds.fits
        rw [List.length_cons] at this
        omega
      rw [wraps, Function.update_self, List.getElem?_eq_none short]
    · have inside : i + 1 < size := by omega
      have other : (first + (i + 1)) % size ≠ first % size :=
        slot_ne inside (Nat.zero_lt_of_lt below) (Nat.succ_ne_zero i)
      rw [Function.update_of_ne other, holds.slot (i + 1) inside, List.getElem?_cons_succ]

end BoundedFifo
