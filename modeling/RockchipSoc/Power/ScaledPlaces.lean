import Mathlib.Algebra.Group.Nat.Defs
import RockchipSoc.Foundation.WordMultiples
import RockchipSoc.Power.Rk817Device

/-!
# A place scaled to a capacity

`ab_div_c` multiplies in one word, and a capacity of more than four million does not fit there with
every place.  A capacity with its top bit set is taken for a negative one, and all that is left of
it is whether the product wraps to the very end of the word.
-/

namespace RockchipSoc
namespace Power
namespace Words

open Inquiry

variable {fcc : UInt32} {place : ℕ}

/-- The sign of the result is the top bit of the capacity. -/
theorem scale_sign (range : place ≤ 1000) (fcc : UInt32) :
    (UInt32.ofNat place ^^^ fcc ^^^ 1000) &&& 0x80000000 ≠ 0 ↔ 2 ^ 31 ≤ fcc.toNat := by
  have place_bit : (UInt32.ofNat place).toBitVec.getLsbD 31 = false := by
    refine Nat.testBit_lt_two_pow ?_
    rw [UInt32.toNat_toBitVec, UInt32.toNat_ofNat_of_lt' (range.trans_lt (by decide))]
    exact range.trans_lt (by decide)
  have top_bit : fcc.toBitVec.getLsbD 31 = decide (2 ^ 31 ≤ fcc.toNat) :=
    (BitVec.msb_eq_getLsbD_last _).symm.trans (BitVec.msb_eq_decide _)
  have sign_bit : (UInt32.ofNat place ^^^ fcc ^^^ 1000).toBitVec.getLsbD 31 =
      decide (2 ^ 31 ≤ fcc.toNat) := by
    rw [UInt32.toBitVec_xor, UInt32.toBitVec_xor, BitVec.getLsbD_xor, BitVec.getLsbD_xor,
      place_bit, top_bit, Bool.false_xor]
    exact Bool.xor_false _
  rw [ne_eq, ← UInt32.toBitVec_inj, UInt32.toBitVec_and]
  change ¬(_ &&& BitVec.twoPow 32 31 = 0#32) ↔ _
  rw [BitVec.and_twoPow, sign_bit]
  by_cases large : 2 ^ 31 ≤ fcc.toNat
  · rw [decide_eq_true large, if_pos rfl]
    exact iff_of_true (by decide) large
  · rw [decide_eq_false large, if_neg (by decide)]
    exact iff_of_false (not_not_intro rfl) large

/-- The product of a place and a capacity, rounded, as far as it fits the word. -/
theorem toNat_rounded (range : place ≤ 1000) (fcc half : UInt32) :
    (UInt32.ofNat place * fcc + half).toNat = (place * fcc.toNat + half.toNat) % 2 ^ 32 := by
  rw [UInt32.toNat_add, UInt32.toNat_mul, UInt32.toNat_ofNat_of_lt' (range.trans_lt (by decide)),
    Nat.mod_add_mod]

/-- What is left of a quotient below the limit, and the limit otherwise. -/
theorem limited_ofNat {quotient : ℕ} (small : quotient < 2 ^ 31) :
    (if (UInt32.ofNat quotient).toInt32 < 0x7FFF then (UInt32.ofNat quotient).toInt32.toUInt32
      else 0x7FFF) = UInt32.ofNat (min quotient 0x7FFF) := by
  have limit_iff : (UInt32.ofNat quotient).toInt32 < 0x7FFF ↔ quotient < 0x7FFF := by
    rw [Int32.lt_iff_toInt_lt]
    change (Int32.ofNat quotient).toInt < 32767 ↔ quotient < 32767
    rw [Int32.toInt_ofNat_of_lt small]
    norm_cast
  by_cases under : quotient < 0x7FFF
  · rw [if_pos (limit_iff.mpr under), min_eq_left under.le]
    rfl
  · rw [if_neg (mt limit_iff.mp under), min_eq_right (Nat.le_of_not_lt under)]
    rfl

theorem abDivC_of_lt (range : place ≤ 1000) (small : fcc.toNat < 2 ^ 31) :
    abDivC (UInt32.ofNat place) fcc 1000 =
      pure (Int32.ofNat (min ((place * fcc.toNat + 500) % 2 ^ 32 / 1000) 0x7FFF)) := by
  have unsigned : ¬((UInt32.ofNat place ^^^ fcc ^^^ 1000) &&& 0x80000000 ≠ 0) :=
    fun sign => absurd ((scale_sign range fcc).mp sign) (by omega)
  have fits : (place * fcc.toNat + 500) % 2 ^ 32 / 1000 < 2 ^ 31 := by omega
  have quotient : (UInt32.ofNat place * fcc + (1000 : UInt32) >>> 1) / 1000 =
      UInt32.ofNat ((place * fcc.toNat + 500) % 2 ^ 32 / 1000) := by
    rw [← UInt32.toNat_inj, UInt32.toNat_div, toNat_rounded range,
      UInt32.toNat_ofNat_of_lt' (fits.trans (by decide))]
    rfl
  simp only [abDivC, if_neg unsigned]
  rw [if_pos (by decide), divide_of_ne (by decide), quotient]
  exact congrArg (fun ans : UInt32 => done ans.toInt32) (limited_ofNat fits)

theorem abDivC_of_le (range : place ≤ 1000) (large : 2 ^ 31 ≤ fcc.toNat) :
    abDivC (UInt32.ofNat place) fcc 1000 =
      pure (-Int32.ofNat ((place * fcc.toNat + 2147483148) % 2 ^ 32 / 4294966296)) := by
  have sign := (scale_sign range fcc).mpr large
  have least : (place * fcc.toNat + 2147483148) % 2 ^ 32 / 4294966296 ≤ 1 := by omega
  have quotient : (UInt32.ofNat place * fcc + (-1000 : UInt32) >>> 1) / (-1000) =
      UInt32.ofNat ((place * fcc.toNat + 2147483148) % 2 ^ 32 / 4294966296) := by
    rw [← UInt32.toNat_inj, UInt32.toNat_div, toNat_rounded range,
      UInt32.toNat_ofNat_of_lt' (least.trans_lt (by decide))]
    rfl
  have limited := limited_ofNat (least.trans_lt (by decide))
  rw [min_eq_left (least.trans (by decide))] at limited
  simp only [abDivC, if_pos sign]
  rw [if_pos (by decide), divide_of_ne (by decide), quotient]
  exact congrArg (fun ans : UInt32 => done (-ans).toInt32) limited

/-! ## In the order of the places -/

/-- A higher place is scaled to no less. -/
def ScalesWell (fcc : UInt32) : Prop :=
  ∀ p q : ℕ, p ≤ q → q ≤ 1000 →
    AtMost (abDivC (UInt32.ofNat p) fcc 1000) (abDivC (UInt32.ofNat q) fcc 1000)

/-- One more capacity never takes a product over the end of the word, unless it comes out at the
limit of the result again.  With the top bit set no product comes to the last thousand values of a
word. -/
structure CapacityFits (fcc : UInt32) : Prop where
  unsigned : fcc.toNat < 2 ^ 31 → ∀ place < 1000,
    2 ^ 32 ≤ (place * fcc.toNat + 500) % 2 ^ 32 + fcc.toNat →
      2 ^ 32 + 1000 * 0x7FFF ≤ (place * fcc.toNat + 500) % 2 ^ 32 + fcc.toNat
  signed : 2 ^ 31 ≤ fcc.toNat → ∀ place ≤ 1000,
    (place * fcc.toNat + 2147483148) % 2 ^ 32 < 4294966296

theorem scaled_le_iff {p q : ℕ} (small : fcc.toNat < 2 ^ 31) (range : p ≤ 1000)
    (range' : q ≤ 1000) :
    AtMost (abDivC (UInt32.ofNat p) fcc 1000) (abDivC (UInt32.ofNat q) fcc 1000) ↔
      min ((p * fcc.toNat + 500) % 2 ^ 32 / 1000) 0x7FFF ≤
        min ((q * fcc.toNat + 500) % 2 ^ 32 / 1000) 0x7FFF := by
  have below_limit (n : ℕ) : min n 0x7FFF < 2 ^ 31 := (min_le_right n _).trans_lt (by decide)
  rw [abDivC_of_lt range small, abDivC_of_lt range' small, atMost_pure, Int32.le_iff_toInt_le,
    Int32.toInt_ofNat_of_lt (below_limit _), Int32.toInt_ofNat_of_lt (below_limit _),
    Int.ofNat_le]

theorem scaled_succ_iff (small : fcc.toNat < 2 ^ 31) (range : place < 1000) :
    AtMost (abDivC (UInt32.ofNat place) fcc 1000) (abDivC (UInt32.ofNat (place + 1)) fcc 1000) ↔
      (2 ^ 32 ≤ (place * fcc.toNat + 500) % 2 ^ 32 + fcc.toNat →
        2 ^ 32 + 1000 * 0x7FFF ≤ (place * fcc.toNat + 500) % 2 ^ 32 + fcc.toNat) := by
  have next : ((place + 1) * fcc.toNat + 500) % 2 ^ 32 =
      ((place * fcc.toNat + 500) % 2 ^ 32 + fcc.toNat) % 2 ^ 32 := by
    rw [Nat.succ_mul, Nat.add_right_comm, Nat.mod_add_mod]
  rw [scaled_le_iff small range.le range, next]
  exact WrappedMultiples.min_div_le_min_div_succ_iff (Nat.mod_lt _ (by decide)) (by omega)
    (by decide)

theorem neg_ofNat_le_iff {x y : ℕ} (least : x ≤ 1) (least' : y ≤ 1) :
    -Int32.ofNat x ≤ -Int32.ofNat y ↔ y ≤ x := by
  rcases Nat.le_one_iff_eq_zero_or_eq_one.mp least with rfl | rfl <;>
    rcases Nat.le_one_iff_eq_zero_or_eq_one.mp least' with rfl | rfl <;> decide

theorem signed_le_iff {p q : ℕ} (large : 2 ^ 31 ≤ fcc.toNat) (range : p ≤ 1000)
    (range' : q ≤ 1000) :
    AtMost (abDivC (UInt32.ofNat p) fcc 1000) (abDivC (UInt32.ofNat q) fcc 1000) ↔
      (q * fcc.toNat + 2147483148) % 2 ^ 32 / 4294966296 ≤
        (p * fcc.toNat + 2147483148) % 2 ^ 32 / 4294966296 := by
  rw [abDivC_of_le range large, abDivC_of_le range' large, atMost_pure]
  exact neg_ofNat_le_iff (by omega) (by omega)

theorem scalesWell_of_fits (fits : CapacityFits fcc) : ScalesWell fcc := by
  intro p q le range
  by_cases small : fcc.toNat < 2 ^ 31
  · induction q, le using Nat.le_induction with
    | base => exact (scaled_le_iff small range range).mpr le_rfl
    | succ q le ih =>
        exact (ih (by omega)).trans
          ((scaled_succ_iff small range).mpr (fits.unsigned small q range))
  · have large := Nat.le_of_not_lt small
    rw [signed_le_iff large (le.trans range) range, Nat.div_eq_of_lt (fits.signed large q range)]
    exact Nat.zero_le _

theorem fits_of_scalesWell (well : ScalesWell fcc) : CapacityFits fcc where
  unsigned small place range :=
    (scaled_succ_iff small range).mp (well place (place + 1) (Nat.le_succ place) range)
  signed large place range := by
    have no_more := (signed_le_iff large (Nat.zero_le _) range).mp
      (well 0 place (Nat.zero_le place) range)
    rw [Nat.zero_mul] at no_more
    omega

/-- A capacity that the word holds a thousand times. -/
theorem capacityFits_of_le (small : fcc.toNat ≤ 4294966) : CapacityFits fcc where
  unsigned _ place range wraps := by
    have product : (place + 1) * fcc.toNat ≤ 1000 * 4294966 := Nat.mul_le_mul range small
    rw [Nat.succ_mul] at product
    rw [Nat.mod_eq_of_lt (by omega)] at wraps
    omega
  signed large := absurd (large.trans small) (by decide)

end Words
end Power
end RockchipSoc
