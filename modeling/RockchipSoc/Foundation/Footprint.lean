import Mathlib.Data.Int.Notation
import Mathlib.Tactic.Ring

/-!
# The cells that a reader reads

Most readers read cells one behind the other: the items of a counted row, or blocks of changing
sizes until a stop is reached.  Where the cells fill an interval, they all lie in a buffer exactly
when the interval does.
-/

namespace Footprint

variable {front rest reads : List ℤ} {item : ℤ → List ℤ} {first behind behind' pos stop length : ℤ}

/-- The cells read are those from one position up to another. -/
def Covers (reads : List ℤ) (first behind : ℤ) : Prop := ∀ k, k ∈ reads ↔ first ≤ k ∧ k < behind

/-- All the cells read lie in a buffer of the given length. -/
def Inside (length : ℤ) (reads : List ℤ) : Prop := ∀ k ∈ reads, 0 ≤ k ∧ k < length

theorem inside_append : Inside length (front ++ rest) ↔ Inside length front ∧ Inside length rest :=
  List.forall_mem_append

theorem Covers.inside_iff (covers : Covers reads first behind) (nonempty : first < behind) :
    Inside length reads ↔ 0 ≤ first ∧ behind ≤ length := by
  constructor
  · intro inside
    have low := inside first ((covers first).mpr ⟨le_refl first, nonempty⟩)
    have high := inside (behind - 1) ((covers (behind - 1)).mpr (by omega))
    omega
  · intro bounds k read
    have cell := (covers k).mp read
    omega

theorem Covers.append (covers : Covers front first pos) (covers' : Covers rest pos behind)
    (before : first ≤ pos) (after : pos ≤ behind) : Covers (front ++ rest) first behind := by
  intro k
  rw [List.mem_append, covers k, covers' k]
  omega

/-! ## Rows -/

/-- Read a number of items that are equally wide. -/
def counted (item : ℤ → List ℤ) (width : Nat) : Nat → ℤ → List ℤ
  | 0, _ => []
  | count + 1, pos => item pos ++ counted item width count (pos + width)

theorem covers_counted {width : Nat} (items : ∀ pos, Covers (item pos) pos (pos + width))
    (count : Nat) (pos : ℤ) :
    Covers (counted item width count pos) pos (pos + (width * count : Nat)) := by
  induction count generalizing pos with
  | zero =>
      intro k
      rw [counted, Nat.mul_zero]
      simp
  | succ count ih =>
      have total : pos + width + (width * count : Nat) = pos + (width * (count + 1) : Nat) := by
        push_cast
        ring
      have later := ih (pos + width)
      rw [total] at later
      rw [counted]
      apply (items pos).append later
      · omega
      · omega

/-! ## Blocks -/

/-- Blocks one behind the other, as long as the next one starts before the stop. -/
inductive Blocks (size : ℤ → Nat) (stop : ℤ) : ℤ → ℤ → Prop
  | done {pos : ℤ} (reached : stop ≤ pos) : Blocks size stop pos pos
  | block {pos behind : ℤ} (before : pos < stop)
      (rest : Blocks size stop (pos + size pos) behind) : Blocks size stop pos behind

variable {size : ℤ → Nat}

theorem Blocks.unique (blocks : Blocks size stop pos behind)
    (blocks' : Blocks size stop pos behind') : behind = behind' := by
  induction blocks with
  | done reached =>
      cases blocks' with
      | done => rfl
      | block before => exact absurd reached (not_le.mpr before)
  | block before rest ih =>
      cases blocks' with
      | done reached => exact absurd reached (not_le.mpr before)
      | block before rest' => exact ih rest'

theorem Blocks.le (blocks : Blocks size stop pos behind) : pos ≤ behind := by
  induction blocks with
  | done => exact le_refl _
  | block before rest ih => omega

/-- Read blocks until the stop is reached. -/
def chained (item : ℤ → List ℤ) (size : ℤ → Nat) (stop : ℤ) : Nat → ℤ → List ℤ
  | 0, _ => []
  | fuel + 1, pos =>
      if pos < stop then item pos ++ chained item size stop fuel (pos + size pos) else []

/-- Blocks that are never empty come to the stop. -/
theorem covers_chained (items : ∀ pos, Covers (item pos) pos (pos + size pos))
    (positive : ∀ pos, 0 < size pos) {fuel : Nat} (enough : stop ≤ pos + fuel) :
    ∃ behind, Blocks size stop pos behind ∧
      Covers (chained item size stop fuel pos) pos behind := by
  induction fuel generalizing pos with
  | zero =>
      refine ⟨pos, .done (by simpa using enough), fun k => ?_⟩
      rw [chained]
      simp
  | succ fuel ih =>
      rw [chained]
      split
      · next before =>
          have some_cell := positive pos
          obtain ⟨behind, blocks, later⟩ := @ih (pos + size pos) (by push_cast at enough; omega)
          refine ⟨behind, .block before blocks, (items pos).append later ?_ blocks.le⟩
          omega
      · next reached =>
          refine ⟨pos, .done (not_lt.mp reached), fun k => ?_⟩
          simp

end Footprint
