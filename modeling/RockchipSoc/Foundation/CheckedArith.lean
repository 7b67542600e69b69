import Mathlib.Algebra.Group.Nat.Defs
import Mathlib.Algebra.Order.Group.Abs
import Mathlib.Algebra.Order.Ring.Int
import Mathlib.Data.Int.Notation
import Mathlib.Data.Nat.Notation

/-!
# Arithmetic of machines on plain numbers

Operations that stop where a machine would trap, wrap or cut, and those of C that wrap where their
result is stored.
-/

/-!
## Checked division

A division that stops where the divisor is zero.
-/

namespace CheckedDiv

variable {α : Type*} [Div α] [Zero α] [DecidableEq α] {dividend divisor : α}

def div? (dividend divisor : α) : Option α :=
  if divisor = 0 then none else some (dividend / divisor)

theorem div?_of_ne (nonzero : divisor ≠ 0) : div? dividend divisor = some (dividend / divisor) :=
  if_neg nonzero

end CheckedDiv

/-!
## Checked words

Operations on unsigned words that stop where the machine would wrap or cut.  Where none of them
stops, a machine computes the same numbers.
-/

namespace CheckedWord

variable {w n a b : ℕ}

/-- A value that fits the width. -/
def fit? (w n : ℕ) : Option ℕ := if n < 2 ^ w then some n else none

/-- A difference that is not below zero. -/
def sub? (a b : ℕ) : Option ℕ := if b ≤ a then some (a - b) else none

theorem fit?_of_lt (fits : n < 2 ^ w) : fit? w n = some n := if_pos fits

theorem sub?_of_le (enough : b ≤ a) : sub? a b = some (a - b) := if_pos enough

end CheckedWord

/-!
## Machine integers of C on the integers

A result that may leave its type is wrapped where the program stores it.  Division truncates.
-/

namespace CInt

/-- `INT_MAX`. -/
def intMax : ℤ := 2 ^ 31 - 1

/-- The value of an `int` after a computation modulo `2 ^ 32`. -/
def s32 (n : ℤ) : ℤ := (n + 2 ^ 31) % 2 ^ 32 - 2 ^ 31

/-- The value of an unsigned 32-bit integer after a computation modulo `2 ^ 32`. -/
def u32 (n : ℤ) : ℤ := n % 2 ^ 32

/-- Division of C: towards zero. -/
def cdiv (a b : ℤ) : ℤ := a.tdiv b

theorem s32_of_fits {n : ℤ} (low : -2 ^ 31 ≤ n) (high : n < 2 ^ 31) : s32 n = n := by
  unfold s32
  omega

theorem cdiv_of_nonneg {a : ℤ} (nonneg : 0 ≤ a) (b : ℤ) : cdiv a b = a / b :=
  Int.tdiv_eq_ediv_of_nonneg nonneg

theorem cdiv_nonneg {a b : ℤ} (nonneg : 0 ≤ a) (nonneg' : 0 ≤ b) : 0 ≤ cdiv a b := by
  rw [cdiv_of_nonneg nonneg]
  exact Int.ediv_nonneg nonneg nonneg'

theorem cdiv_neg (a b : ℤ) : cdiv (-a) b = -cdiv a b :=
  Int.neg_tdiv a b

theorem cdiv_nonpos {a b : ℤ} (nonpos : a ≤ 0) (nonneg : 0 ≤ b) : cdiv a b ≤ 0 := by
  have opposite := cdiv_nonneg (a := -a) (by omega) nonneg
  rw [cdiv_neg] at opposite
  omega

/-- The size of a quotient. -/
theorem abs_cdiv_le {a b m : ℤ} (positive : 0 < b) (within : |a| ≤ m * b) : |cdiv a b| ≤ m := by
  obtain ⟨low, high⟩ := abs_le.mp within
  rcases le_total 0 a with nonneg | nonpos
  · rw [abs_of_nonneg (cdiv_nonneg nonneg positive.le), cdiv_of_nonneg nonneg]
    exact Int.ediv_le_of_le_mul positive high
  · have opposite : cdiv a b = -cdiv (-a) b := by rw [cdiv_neg, neg_neg]
    have nonneg : 0 ≤ -a := neg_nonneg.mpr nonpos
    rw [opposite, abs_neg, abs_of_nonneg (cdiv_nonneg nonneg positive.le), cdiv_of_nonneg nonneg]
    exact Int.ediv_le_of_le_mul positive (neg_le.mp low)

end CInt
