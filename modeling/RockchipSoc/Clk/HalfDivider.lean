import Mathlib.Algebra.Order.Floor.Div
import RockchipSoc.Foundation.BestChoice
import RockchipSoc.Foundation.HiwordField

/-!
# Half dividers

A half divider divides its parent's rate by 3/2, 5/2, 7/2 and so on.  The rate is chosen when it is
rounded and once more when it is set, by two formulas on unsigned words.
-/

namespace RockchipSoc
namespace Clk

open HiwordField BestChoice

/-- `struct clk_divider`.  As in every clock table, the field lies in the low half of its
register. -/
structure ClkDivider where
  shift : ℕ
  width : ℕ
  /-- `CLK_DIVIDER_HIWORD_MASK`. -/
  hiword : Bool
  /-- `CLK_DIVIDER_ROUND_CLOSEST`. -/
  roundClosest : Bool
  fits : shift + width ≤ 16

/-- `div_mask`. -/
def divMask (width : ℕ) : ℕ := 2 ^ width - 1

/-- `DIV_ROUND_UP_ULL`: the divisor is cut to 32 bits by `do_div`, and a division by zero gives zero
on arm64. -/
def divRoundUpUll (ll d : ℕ) : ℕ := (ll + d - 1) % 2 ^ 64 / (d % 2 ^ 32)

/-- `DIV_ROUND_UP(n - 3, 2)` on `unsigned int`. -/
def divRoundUpHalf (n : ℕ) : ℕ := (n + 2 ^ 32 - 3 + 1) % 2 ^ 32 / 2

/-- `(u64)parent_rate * 2`. -/
def twice (parentRate : ℕ) : ℕ := parentRate * 2 % 2 ^ 64

variable (divider : ClkDivider)

/-- `clk_half_divider_recalc_rate`. -/
def clkHalfDividerRecalcRate (reg : BitVec 16) (parentRate : ℕ) : ℕ :=
  divRoundUpUll (twice parentRate)
    (field reg (divMask divider.width) divider.shift * 2 + 3)

/-- `_is_best_half_div`. -/
def isBestHalfDiv (roundClosest : Bool) (rate now best : ℕ) : Bool :=
  if roundClosest then decide (((rate : ℤ) - now).natAbs ≤ ((rate : ℤ) - best).natAbs)
  else decide (now ≤ rate ∧ best ≤ now)

/-- One pass of the loop over the dividers: whether one was found, the best one with its rate, and
the parent's rate for it. -/
def bestdivPass (roundParent : ℕ → ℕ) (rate : ℕ) (found : Bool × ℕ × ℕ × ℕ) (i : ℕ) :
    Bool × ℕ × ℕ × ℕ :=
  let parentRate := roundParent (rate * (i * 2 + 3) % 2 ^ 64 / 2)
  let now := divRoundUpUll (twice parentRate) (i * 2 + 3)
  if isBestHalfDiv divider.roundClosest rate now found.2.2.1 then (true, i, now, parentRate)
  else found

/-- `clk_half_divider_bestdiv`, with the parent's rate for the divider.  Where the clock may change
its parent's rate, the parent is asked for every divider. -/
def clkHalfDividerBestdiv (setRateParent : Bool) (roundParent : ℕ → ℕ) (rate bestParentRate : ℕ) :
    ℕ × ℕ :=
  let rate := if rate = 0 then 1 else rate
  let maxdiv := divMask divider.width
  if setRateParent then
    let maxdiv := min ((2 ^ 64 - 1) / rate) maxdiv
    let found := (List.range (maxdiv + 1)).foldl (bestdivPass divider roundParent rate)
      (false, 0, 0, bestParentRate)
    if found.1 then (found.2.1, found.2.2.2) else (divMask divider.width, roundParent 1)
  else
    let quotient := divRoundUpUll (twice bestParentRate) rate % 2 ^ 32
    let bestdiv := if quotient < 3 then 0 else divRoundUpHalf quotient
    (if bestdiv > maxdiv then maxdiv else bestdiv, bestParentRate)

/-- `clk_half_divider_round_rate`, with the parent's rate for it. -/
def clkHalfDividerRoundRate (setRateParent : Bool) (roundParent : ℕ → ℕ) (rate prate : ℕ) : ℕ × ℕ :=
  let best := clkHalfDividerBestdiv divider setRateParent roundParent rate prate
  (divRoundUpUll (twice best.2) (best.1 * 2 + 3), best.2)

/-- The divider that `clk_half_divider_set_rate` programs. -/
def programmedDivider (rate parentRate : ℕ) : ℕ :=
  let value := divRoundUpUll (twice parentRate) rate % 2 ^ 32
  min (divRoundUpHalf value) (divMask divider.width)

/-- `clk_half_divider_set_rate`: what the register holds behind it. -/
def clkHalfDividerSetRate (rate parentRate : ℕ) (reg : BitVec 16) : BitVec 16 :=
  let value := programmedDivider divider rate parentRate
  if divider.hiword then
    hiwordWrite reg (hiwordUpdate value (divMask divider.width) divider.shift)
  else plainWrite reg value (divMask divider.width) divider.shift

/-! ### The two formulas -/

/-- The divider that a quotient of twice the parent's rate by the request asks for. -/
def halfDivOf (quotient : ℕ) : ℕ := (quotient - 2) / 2

/-- The first divider whose rounding wraps. -/
def firstWrap (parentRate : ℕ) : ℕ := (2 ^ 64 - 1 - twice parentRate) / 2

/-- The rate of a divider.  Where rounding wraps, nothing of it is left. -/
def halfRate (parentRate val : ℕ) : ℕ :=
  if val < firstWrap parentRate then twice parentRate ⌈/⌉ (val * 2 + 3) else 0

theorem divMask_lt : divMask divider.width < 2 ^ 16 := by
  have narrow : 2 ^ divider.width ≤ 2 ^ 16 :=
    Nat.pow_le_pow_right (by decide) ((Nat.le_add_left _ _).trans divider.fits)
  have positive : 0 < 2 ^ divider.width := Nat.two_pow_pos _
  unfold divMask
  omega

/-- The field holds every value up to its mask. -/
theorem and_divMask {value : ℕ} (within : value ≤ divMask divider.width) :
    value &&& divMask divider.width = value := by
  have positive : 0 < 2 ^ divider.width := Nat.two_pow_pos _
  unfold divMask at within ⊢
  rw [Nat.and_two_pow_sub_one_eq_mod, Nat.mod_eq_of_lt (by omega)]

theorem divMask_shiftLeft_lt : divMask divider.width <<< divider.shift < 2 ^ 16 := by
  have total : 2 ^ (divider.shift + divider.width) ≤ 2 ^ 16 :=
    Nat.pow_le_pow_right (by decide) divider.fits
  have positive : 0 < 2 ^ divider.width := Nat.two_pow_pos _
  have shifted : 0 < 2 ^ divider.shift := Nat.two_pow_pos _
  rw [Nat.shiftLeft_eq, divMask, Nat.sub_mul, ← Nat.pow_add, Nat.add_comm divider.width]
  omega

/-- What is programmed is read back. -/
theorem field_clkHalfDividerSetRate (rate parentRate : ℕ) (reg : BitVec 16) :
    field (clkHalfDividerSetRate divider rate parentRate reg) (divMask divider.width)
      divider.shift = programmedDivider divider rate parentRate := by
  have within : programmedDivider divider rate parentRate ≤ divMask divider.width :=
    Nat.min_le_right _ _
  have inside := and_divMask divider within
  have fits := divMask_shiftLeft_lt divider
  unfold clkHalfDividerSetRate
  split
  · rw [field_hiwordUpdate fits, inside]
  · rw [field_plainWrite fits inside]

/-- The quotient of twice the parent's rate by the request, as both functions store it. -/
def storedQuotient (rate parentRate : ℕ) : ℕ := divRoundUpUll (twice parentRate) rate % 2 ^ 32

theorem storedQuotient_lt (rate parentRate : ℕ) : storedQuotient rate parentRate < 2 ^ 32 :=
  Nat.mod_lt _ (by decide)

variable {rate parentRate : ℕ}

theorem divRoundUpHalf_eq {n : ℕ} (enough : 2 ≤ n) (narrow : n < 2 ^ 32) :
    divRoundUpHalf n = halfDivOf n := by
  unfold divRoundUpHalf halfDivOf
  omega

/-- A quotient below two makes the subtraction wrap. -/
theorem divRoundUpHalf_small {n : ℕ} (small : n < 2) : divRoundUpHalf n = 2 ^ 31 - 1 := by
  unfold divRoundUpHalf
  omega

theorem programmedDivider_eq (rate parentRate : ℕ) :
    programmedDivider divider rate parentRate =
      if 2 ≤ storedQuotient rate parentRate then
        min (halfDivOf (storedQuotient rate parentRate)) (divMask divider.width)
      else divMask divider.width := by
  have mask := divMask_lt divider
  have narrow := storedQuotient_lt rate parentRate
  rw [programmedDivider, ← storedQuotient]
  split
  · next enough => rw [divRoundUpHalf_eq enough narrow]
  · next small =>
      rw [divRoundUpHalf_small (by omega)]
      omega

theorem clkHalfDividerBestdiv_eq (positive : 0 < rate) (roundParent : ℕ → ℕ) :
    clkHalfDividerBestdiv divider false roundParent rate parentRate =
      (min (halfDivOf (storedQuotient rate parentRate)) (divMask divider.width), parentRate) := by
  have narrow := storedQuotient_lt rate parentRate
  have divisor : (if storedQuotient rate parentRate < 3 then 0
      else divRoundUpHalf (storedQuotient rate parentRate)) =
        halfDivOf (storedQuotient rate parentRate) := by
    split
    · unfold halfDivOf
      omega
    · exact divRoundUpHalf_eq (by omega) narrow
  rw [storedQuotient] at divisor narrow ⊢
  simp only [clkHalfDividerBestdiv, if_neg positive.ne', Bool.false_eq_true, if_false, gt_iff_lt,
    divisor]
  split <;> congr 1 <;> omega

/-! ### The rates -/

/-- The rate that a divider in the register gives. -/
def producedRate (parentRate val : ℕ) : ℕ := divRoundUpUll (twice parentRate) (val * 2 + 3)

theorem twice_lt (parentRate : ℕ) : twice parentRate < 2 ^ 64 := Nat.mod_lt _ (by decide)

theorem producedRate_eq (parentRate : ℕ) {val : ℕ} (within : val ≤ divMask divider.width) :
    producedRate parentRate val = halfRate parentRate val := by
  have mask := divMask_lt divider
  have bound := twice_lt parentRate
  have narrow : (val * 2 + 3) % 2 ^ 32 = val * 2 + 3 := Nat.mod_eq_of_lt (by omega)
  rw [producedRate, divRoundUpUll, narrow, halfRate, firstWrap]
  split
  · next unwrapped => rw [Nat.mod_eq_of_lt (by omega), Nat.ceilDiv_eq_add_pred_div]
  · next wraps => exact Nat.div_eq_of_lt (by omega)

theorem halfRate_antitone (parentRate : ℕ) : Antitone (halfRate parentRate) := by
  intro val val' le
  unfold halfRate
  by_cases unwrapped : val' < firstWrap parentRate
  · rw [if_pos unwrapped, if_pos (le.trans_lt unwrapped), ceilDiv_le_iff_le_mul (by omega)]
    have cover : twice parentRate ≤ (val * 2 + 3) * (twice parentRate ⌈/⌉ (val * 2 + 3)) := by
      rw [← ceilDiv_le_iff_le_mul (by omega)]
    exact cover.trans (Nat.mul_le_mul_right _ (by omega))
  · rw [if_neg unwrapped]
    exact Nat.zero_le _

/-- The exact quotient. -/
def exactQuotient (rate parentRate : ℕ) : ℕ := twice parentRate ⌈/⌉ rate

/-- The first divider whose rate is not above the request. -/
def exactDivider (rate parentRate : ℕ) : ℕ :=
  min (halfDivOf (exactQuotient rate parentRate)) (firstWrap parentRate)

theorem isFirst_exactDivider (positive : 0 < rate) (parentRate : ℕ) :
    IsFirst (halfRate parentRate) rate (exactDivider rate parentRate) := by
  intro val
  have swap : twice parentRate ⌈/⌉ (val * 2 + 3) ≤ rate ↔
      exactQuotient rate parentRate ≤ val * 2 + 3 := by
    rw [exactQuotient, ceilDiv_le_iff_le_mul (by omega), ceilDiv_le_iff_le_mul positive,
      Nat.mul_comm rate]
  have enough : exactQuotient rate parentRate ≤ val * 2 + 3 ↔
      halfDivOf (exactQuotient rate parentRate) ≤ val := by
    unfold halfDivOf
    omega
  rw [halfRate, exactDivider, min_le_iff, ← enough, ← swap]
  split
  · next unwrapped => simp only [Nat.not_le.mpr unwrapped, or_false]
  · next wraps => simp only [Nat.zero_le, Nat.le_of_not_lt wraps, or_true]

/-- The best rate for a request. -/
theorem best_producedRate (positive : 0 < rate) (parentRate : ℕ) :
    Best (producedRate parentRate) (divMask divider.width) rate
      (producedRate parentRate
        (min (exactDivider rate parentRate) (divMask divider.width))) := by
  rw [producedRate_eq divider parentRate (Nat.min_le_right _ _)]
  have best := best_of_isFirst (divMask divider.width) (halfRate_antitone parentRate)
    (isFirst_exactDivider positive parentRate)
  exact best.congr fun val within => (producedRate_eq divider parentRate within).symm

/-- The smallest and the largest divider give the same rate. -/
def SingleRate (parentRate : ℕ) : Prop :=
  producedRate parentRate 0 = producedRate parentRate (divMask divider.width)

/-- Neither the request nor the quotient is cut to 32 bits. -/
structure Uncut (rate parentRate : ℕ) : Prop where
  rate_lt : rate < 2 ^ 32
  quotient_lt : exactQuotient rate parentRate < 2 ^ 32

/-- The quotient that is stored asks for a divider of the same rate as the exact one. -/
def SameRate (rate parentRate : ℕ) : Prop :=
  producedRate parentRate
      (min (halfDivOf (storedQuotient rate parentRate)) (divMask divider.width)) =
    producedRate parentRate (min (exactDivider rate parentRate) (divMask divider.width))

theorem Uncut.twice_le (uncut : Uncut rate parentRate) (positive : 0 < rate) :
    twice parentRate ≤ (2 ^ 32 - 1) * (2 ^ 32 - 1) := by
  have cover : twice parentRate ≤ rate * exactQuotient rate parentRate := by
    rw [← ceilDiv_le_iff_le_mul positive, exactQuotient]
  exact cover.trans (Nat.mul_le_mul (Nat.le_pred_of_lt uncut.rate_lt)
    (Nat.le_pred_of_lt uncut.quotient_lt))

theorem Uncut.storedQuotient_eq (uncut : Uncut rate parentRate) (positive : 0 < rate) :
    storedQuotient rate parentRate = exactQuotient rate parentRate := by
  have bound := uncut.twice_le positive
  have request := uncut.rate_lt
  have unwrapped : twice parentRate + rate - 1 < 2 ^ 64 := by omega
  have quotient := uncut.quotient_lt
  rw [exactQuotient, Nat.ceilDiv_eq_add_pred_div] at quotient ⊢
  rw [storedQuotient, divRoundUpUll, Nat.mod_eq_of_lt unwrapped, Nat.mod_eq_of_lt request,
    Nat.mod_eq_of_lt quotient]

/-- Where nothing is cut, the quotient is at least two exactly for a request below twice the
parent's rate. -/
theorem Uncut.two_le_iff (uncut : Uncut rate parentRate) (positive : 0 < rate) :
    2 ≤ storedQuotient rate parentRate ↔ rate < twice parentRate := by
  have small : exactQuotient rate parentRate ≤ 1 ↔ twice parentRate ≤ rate := by
    rw [exactQuotient, ceilDiv_le_iff_le_mul positive, Nat.mul_one]
  rw [uncut.storedQuotient_eq positive]
  omega

/-- Where nothing is cut, the stored quotient leads to the rate of the exact one. -/
theorem Uncut.sameRate (uncut : Uncut rate parentRate) (positive : 0 < rate) :
    SameRate divider rate parentRate := by
  have bound := uncut.twice_le positive
  have quotient := uncut.quotient_lt
  have unwrapped : halfDivOf (exactQuotient rate parentRate) ≤ firstWrap parentRate := by
    unfold halfDivOf firstWrap
    omega
  rw [SameRate, uncut.storedQuotient_eq positive, exactDivider, min_eq_left unwrapped]

/-- Rounding promises the best rate that a divider can produce, and setting keeps the promise. -/
structure PromiseKept (roundParent : ℕ → ℕ) (rate parentRate : ℕ) (reg : BitVec 16) : Prop where
  kept : clkHalfDividerRecalcRate divider
      (clkHalfDividerSetRate divider rate parentRate reg) parentRate =
    (clkHalfDividerRoundRate divider false roundParent rate parentRate).1
  best : Best (producedRate parentRate) (divMask divider.width) rate
    (clkHalfDividerRoundRate divider false roundParent rate parentRate).1

theorem roundRate_eq (positive : 0 < rate) (roundParent : ℕ → ℕ) (parentRate : ℕ) :
    (clkHalfDividerRoundRate divider false roundParent rate parentRate).1 =
      producedRate parentRate
        (min (halfDivOf (storedQuotient rate parentRate)) (divMask divider.width)) := by
  rw [clkHalfDividerRoundRate, clkHalfDividerBestdiv_eq divider positive, producedRate]

theorem recalc_setRate (rate parentRate : ℕ) (reg : BitVec 16) :
    clkHalfDividerRecalcRate divider (clkHalfDividerSetRate divider rate parentRate reg)
        parentRate =
      producedRate parentRate (programmedDivider divider rate parentRate) := by
  rw [clkHalfDividerRecalcRate, field_clkHalfDividerSetRate, producedRate]

/-- Setting keeps the promise exactly where the quotient is at least two, or where the smallest and
the largest divider give the same rate; the promise is the best one exactly where the quotient
that is stored leads to the rate of the exact one. -/
theorem promiseKept_iff (positive : 0 < rate) (roundParent : ℕ → ℕ) (parentRate : ℕ)
    (reg : BitVec 16) :
    PromiseKept divider roundParent rate parentRate reg ↔
      (2 ≤ storedQuotient rate parentRate ∨ SingleRate divider parentRate) ∧
        SameRate divider rate parentRate := by
  have best := best_producedRate divider positive parentRate
  have promised := roundRate_eq divider positive roundParent parentRate
  have programmed := recalc_setRate divider rate parentRate reg
  have isBest : Best (producedRate parentRate) (divMask divider.width) rate
      (clkHalfDividerRoundRate divider false roundParent rate parentRate).1 ↔
        SameRate divider rate parentRate := by
    rw [promised, SameRate]
    exact ⟨fun other => other.unique best, fun same => same ▸ best⟩
  rw [programmedDivider_eq] at programmed
  have isKept : clkHalfDividerRecalcRate divider
      (clkHalfDividerSetRate divider rate parentRate reg) parentRate =
        (clkHalfDividerRoundRate divider false roundParent rate parentRate).1 ↔
      2 ≤ storedQuotient rate parentRate ∨ SingleRate divider parentRate := by
    rw [programmed, promised, SingleRate]
    by_cases enough : 2 ≤ storedQuotient rate parentRate
    · simp only [enough, if_true, true_or]
    · have first : halfDivOf (storedQuotient rate parentRate) = 0 := by
        unfold halfDivOf
        omega
      simp only [enough, if_false, false_or, first, Nat.zero_min]
      exact eq_comm
  rw [← isKept, ← isBest]
  exact ⟨fun keeps => ⟨keeps.kept, keeps.best⟩, fun both => ⟨both.1, both.2⟩⟩

/-! ### A serial port -/

/-- The half divider of a serial port's clock. -/
def uartHalfDivider : ClkDivider :=
  { shift := 0, width := 5, hiword := true, roundClosest := false, fits := by decide }

theorem promiseKept_uart :
    PromiseKept uartHalfDivider id 9600000 24000000 0 :=
  (promiseKept_iff uartHalfDivider (by decide) id 24000000 0).mpr
    ⟨Or.inl (by decide), show producedRate _ _ = producedRate _ _ by decide⟩

/-- Twice the parent's rate is rounded to two thirds of it, and set to the lowest rate. -/
theorem uart_promise_broken :
    (clkHalfDividerRoundRate uartHalfDivider false id 48000000 24000000).1 = 16000000 ∧
      clkHalfDividerRecalcRate uartHalfDivider
        (clkHalfDividerSetRate uartHalfDivider 48000000 24000000 0) 24000000 = 738462 ∧
      ¬PromiseKept uartHalfDivider id 48000000 24000000 0 := by
  have promised : (clkHalfDividerRoundRate uartHalfDivider false id 48000000 24000000).1 =
      16000000 := by decide
  have programmed : clkHalfDividerRecalcRate uartHalfDivider
      (clkHalfDividerSetRate uartHalfDivider 48000000 24000000 0) 24000000 = 738462 := by decide
  refine ⟨promised, programmed, fun keeps => ?_⟩
  have kept := keeps.kept
  rw [promised, programmed] at kept
  cases kept

end Clk
end RockchipSoc
