import Mathlib.Algebra.Group.Nat.Defs
import Mathlib.Algebra.Order.Group.Nat
import Mathlib.Data.Nat.Basic
import Mathlib.Order.Basic

/-!
# Multiples and blocks in machine words

Rounding to multiples of a size, with and without room for the sum in the word.
-/

/-!
## Rounding up in machine words

The sum in `(x + (a - 1)) / a * a` may leave the word.  Where it does not, the result is the next
multiple of `a`.
-/

namespace WordAlign

variable {w : Nat} {x n a d : BitVec w}

/-- `ALIGN_UP`. -/
def alignUp (x a : BitVec w) : BitVec w := (x + (a - 1)) / a * a

/-- `DIV_ROUND_UP`. -/
def divRoundUp (n d : BitVec w) : BitVec w := (n + d - 1) / d

theorem toNat_add_sub_one (positive : 0 < d.toNat) :
    (n + d - 1).toNat = (n.toNat + (d.toNat - 1)) % 2 ^ w := by
  have bound := d.isLt
  rcases Nat.eq_zero_or_pos w with rfl | wide
  · simp only [Nat.pow_zero] at bound
    omega
  have one : (1 : BitVec w).toNat = 1 := by
    simp [Nat.mod_eq_of_lt (Nat.one_lt_two_pow (Nat.ne_of_gt wide))]
  rw [BitVec.toNat_sub, BitVec.toNat_add, one, Nat.add_mod_mod]
  have split : 2 ^ w - 1 + (n.toNat + d.toNat) = n.toNat + (d.toNat - 1) + 2 ^ w := by omega
  rw [split, Nat.add_mod_right]

theorem toNat_divRoundUp (positive : 0 < d.toNat) (fits : n.toNat + (d.toNat - 1) < 2 ^ w) :
    (divRoundUp n d).toNat = (n.toNat + (d.toNat - 1)) / d.toNat := by
  rw [divRoundUp, BitVec.toNat_udiv, toNat_add_sub_one positive, Nat.mod_eq_of_lt fits]

theorem toNat_add_pred (positive : 0 < a.toNat) :
    (x + (a - 1)).toNat = (x.toNat + (a.toNat - 1)) % 2 ^ w := by
  rw [← toNat_add_sub_one positive, BitVec.sub_eq_add_neg, BitVec.sub_eq_add_neg, BitVec.add_assoc]

theorem toNat_alignUp (positive : 0 < a.toNat) (fits : x.toNat + (a.toNat - 1) < 2 ^ w) :
    (alignUp x a).toNat = (x.toNat + (a.toNat - 1)) / a.toNat * a.toNat := by
  have below : (x.toNat + (a.toNat - 1)) / a.toNat * a.toNat < 2 ^ w :=
    Nat.lt_of_le_of_lt (Nat.div_mul_le_self _ _) fits
  rw [alignUp, BitVec.toNat_mul, BitVec.toNat_udiv, toNat_add_pred positive, Nat.mod_eq_of_lt fits,
    Nat.mod_eq_of_lt below]

theorem le_alignUp (positive : 0 < a.toNat) (fits : x.toNat + (a.toNat - 1) < 2 ^ w) :
    x.toNat ≤ (alignUp x a).toNat := by
  rw [toNat_alignUp positive fits]
  have division := Nat.div_add_mod (x.toNat + (a.toNat - 1)) a.toNat
  have remainder := Nat.mod_lt (x.toNat + (a.toNat - 1)) positive
  rw [Nat.mul_comm] at division
  omega

theorem dvd_alignUp (positive : 0 < a.toNat) (fits : x.toNat + (a.toNat - 1) < 2 ^ w) :
    a.toNat ∣ (alignUp x a).toNat := by
  rw [toNat_alignUp positive fits]
  exact Nat.dvd_mul_left _ _

end WordAlign

/-!
## Blocks that cover a range of bytes

A device is accessed in blocks of a fixed size.  The bytes from `address` up to `stop` are covered
by the blocks from `address / size` up to `blockStop size stop`, and if the range lies between two
multiples of the size, so do the blocks.
-/

namespace BlockCover

variable {size address stop lower upper block : Nat}

/-- The number of the first block that has no byte below `stop`, nor a later block one. -/
def blockStop (size stop : Nat) : Nat :=
  if stop % size ≠ 0 then stop / size + 1 else stop / size

/-- `blockStop` is division rounded up. -/
theorem blockStop_le_iff (positive : 0 < size) :
    blockStop size stop ≤ block ↔ stop ≤ block * size := by
  have decomposed := Nat.div_add_mod' stop size
  have rest := Nat.mod_lt stop positive
  unfold blockStop
  split
  · next remains =>
      rw [Nat.succ_le_iff, Nat.div_lt_iff_lt_mul positive]
      constructor
      · exact Nat.le_of_lt
      · intro le
        refine Nat.lt_of_le_of_ne le fun equal => remains ?_
        rw [equal, Nat.mul_mod_left]
  · next whole =>
      have whole_eq : stop / size * size = stop := by omega
      constructor
      · intro le
        rw [← whole_eq]
        exact Nat.mul_le_mul_right size le
      · intro le
        rw [← whole_eq] at le
        exact Nat.le_of_mul_le_mul_right le positive

/-- The blocks that cover a range stay between multiples of the size around it. -/
theorem mul_within (positive : 0 < size) (lowerAligned : size ∣ lower) (upperAligned : size ∣ upper)
    (above : lower ≤ address) (below : stop ≤ upper) (first : address / size ≤ block)
    (last : block < blockStop size stop) :
    lower ≤ block * size ∧ block * size + size ≤ upper := by
  obtain ⟨low, rfl⟩ := lowerAligned
  obtain ⟨high, rfl⟩ := upperAligned
  rw [Nat.mul_comm size] at above below ⊢
  have low_le : low ≤ block := by
    refine Nat.le_trans ?_ first
    exact (Nat.le_div_iff_mul_le positive).mpr above
  have le_high : block + 1 ≤ high := Nat.le_trans last ((blockStop_le_iff positive).mpr below)
  refine ⟨Nat.mul_le_mul_right size low_le, ?_⟩
  rw [← Nat.succ_mul, Nat.mul_comm size]
  exact Nat.mul_le_mul_right size le_high

end BlockCover

/-!
## Multiples in a word that wraps

A multiple of a step is cut to `m` values before it is divided.  From one multiple to the next the
quotient falls exactly where the word wraps after it had already reached the divisor; a quotient
that is limited may wrap, if it comes out at the limit again.
-/

namespace WrappedMultiples

variable {m r s d limit : ℕ}

theorem succ_mul_mod (k s m : ℕ) : (k + 1) * s % m = (k * s % m + s) % m := by
  rw [Nat.succ_mul, Nat.mod_add_mod]

/-- Where the word wraps. -/
theorem add_mod_of_le (below : r < m) (small : s ≤ m) (wraps : m ≤ r + s) :
    (r + s) % m = r + s - m := by
  rw [Nat.mod_eq_sub_mod wraps, Nat.mod_eq_of_lt (by omega)]

/-- The multiples stay in order where none of them wraps after it has reached the divisor. -/
theorem div_le_div_succ_iff (below : r < m) (small : 2 * s ≤ m) (positive : 0 < d) :
    r / d ≤ (r + s) % m / d ↔ (d ≤ r → r + s < m) := by
  by_cases fits : r + s < m
  · rw [Nat.mod_eq_of_lt fits]
    exact iff_of_true (Nat.div_le_div_right (Nat.le_add_right r s)) fun _ => fits
  · rw [add_mod_of_le below (by omega) (by omega)]
    constructor
    · intro inOrder reached
      -- what is left is less than half of what there was, and the quotient was not zero
      have twice : 2 * (r + s - m) ≤ r := by omega
      have positiveQuotient : 1 ≤ r / d := Nat.div_pos reached positive
      have halved : 2 * ((r + s - m) / d) ≤ r / d := by
        rw [Nat.le_div_iff_mul_le positive, Nat.mul_assoc]
        exact (Nat.mul_le_mul_left 2 (Nat.div_mul_le_self _ d)).trans twice
      omega
    · intro onlyBefore
      rw [Nat.div_eq_of_lt (by by_contra reached; exact fits (onlyBefore (by omega)))]
      exact Nat.zero_le _

/-- A quotient with a limit may wrap where it comes out at the limit again. -/
theorem min_div_le_min_div_succ_iff (below : r < m) (room : d * limit + s ≤ m) (positive : 0 < d) :
    min (r / d) limit ≤ min ((r + s) % m / d) limit ↔ (m ≤ r + s → m + d * limit ≤ r + s) := by
  by_cases fits : r + s < m
  · rw [Nat.mod_eq_of_lt fits]
    refine iff_of_true ?_ fun wraps => absurd wraps (by omega)
    exact min_le_min_right limit (Nat.div_le_div_right (Nat.le_add_right r s))
  · rw [add_mod_of_le below (by omega) (by omega)]
    have atLimit : limit ≤ r / d := by
      rw [Nat.le_div_iff_mul_le positive, Nat.mul_comm]
      omega
    rw [min_eq_right atLimit, le_min_iff, and_iff_left le_rfl, Nat.le_div_iff_mul_le positive,
      Nat.mul_comm limit d]
    omega

end WrappedMultiples
