import Mathlib.Algebra.Order.Floor.Div
import Mathlib.Data.Nat.Size
import Mathlib.Tactic.Ring
import RockchipSoc.Foundation.BestChoice

/-!
# Fractional dividers

A fractional divider multiplies its parent's rate by m/n.  The clock is precise where n is at least
20 times m.  Where the parent is too slow or too fast for this, its own parent is used in its place,
divided where it is faster than the divider may take.
-/

namespace RockchipSoc
namespace Clk

open BestFraction

/-- An unsigned value, and whether the operation kept it. -/
structure Word where
  value : ℕ
  exact : Bool

/-- A result in an unsigned word of that many bits. -/
def word (width result : ℕ) : Word := ⟨result % 2 ^ width, decide (result < 2 ^ width)⟩

/-- A difference in an unsigned word of that many bits. -/
def wordSub (width minuend subtrahend : ℕ) : Word :=
  ⟨(minuend + 2 ^ width - subtrahend) % 2 ^ width, decide (subtrahend ≤ minuend)⟩

/-- `struct clk_fractional_divider`, as `rockchip_clk_register_frac_branch` fills it: numerator and
denominator have 16 bits. -/
structure ClkFractionalDivider where
  maxPrate : ℕ
  /-- `CLK_FRAC_DIVIDER_NO_LIMIT`. -/
  noLimit : Bool

/-- `GENMASK(15, 0)`. -/
def fracMax : ℕ := 2 ^ 16 - 1

/-- `rational_best_approximation`, with the limits of numerator and denominator last. -/
abbrev RationalBestApproximation := ℕ → ℕ → ℕ → ℕ → ℕ × ℕ

/-- What the approximation hands back, and whether all its operations kept their values. -/
structure Approximation where
  m : ℕ
  n : ℕ
  parentRate : ℕ
  exact : Bool

/-- The rate of the parent's parent, divided by a whole number where it is above the limit. -/
def parentParentRate (fd : ClkFractionalDivider) (pParentRate : ℕ) : Word :=
  if fd.maxPrate ≠ 0 ∧ pParentRate > fd.maxPrate then
    let sum := word 64 (pParentRate + fd.maxPrate - 1)
    let div := word 32 (sum.value / fd.maxPrate)
    ⟨pParentRate / div.value, sum.exact && div.exact⟩
  else ⟨pParentRate, true⟩

/-- The rate that is divided where the parent is left. -/
def chosenParent (fd : ClkFractionalDivider) (pRate : ℕ) (pParentRate : Option ℕ) : Word :=
  match pParentRate with
  | .none => ⟨pRate, true⟩
  | some pParentRate => parentParentRate fd pParentRate

/-- The last step: the rate is shifted left by as much as keeps m and n within their bits. -/
def nearestApproximation (rationalBestApproximation : RationalBestApproximation)
    (rate parentRate : ℕ) (exact : Bool) : Approximation :=
  let difference := wordSub 64 (parentRate / rate) 1
  let scale := difference.value.size
  let shifted := if scale > 16 then word 64 (rate * 2 ^ (scale - 16)) else ⟨rate, true⟩
  let best := rationalBestApproximation shifted.value parentRate fracMax fracMax
  ⟨best.1, best.2, parentRate, exact && difference.exact && shifted.exact⟩

/-- With the parent left: a whole divider, a refusal, or the last step. -/
def upperApproximation (rationalBestApproximation : RationalBestApproximation)
    (fd : ClkFractionalDivider) (rate twenty parentRate : ℕ) (exact : Bool) : Approximation :=
  if parentRate < twenty then
    if parentRate % rate = 0 then ⟨1, parentRate / rate, parentRate, exact⟩
    else if fd.noLimit then
      nearestApproximation rationalBestApproximation rate parentRate exact
    else ⟨0, 1, parentRate, exact⟩
  else nearestApproximation rationalBestApproximation rate parentRate exact

/-- `rockchip_fractional_approximation`.  The clock framework hands in the parent's rate. -/
def rockchipFractionalApproximation (rationalBestApproximation : RationalBestApproximation)
    (fd : ClkFractionalDivider) (pRate : ℕ) (pParentRate : Option ℕ) (rate : ℕ) : Approximation :=
  let twenty := word 64 (rate * 20)
  if (twenty.value > pRate ∧ pRate % rate ≠ 0) ∨ (fd.maxPrate ≠ 0 ∧ fd.maxPrate < pRate) then
    let parent := chosenParent fd pRate pParentRate
    upperApproximation rationalBestApproximation fd rate twenty.value parent.value
      (twenty.exact && parent.exact)
  else nearestApproximation rationalBestApproximation rate pRate twenty.exact

/-! ### The rule -/

/-- Nothing wraps, and the divider is refused, a whole one, precise or exempt. -/
structure FactorTwenty (fd : ClkFractionalDivider) (rate : ℕ) (result : Approximation) : Prop where
  exact : result.exact = true
  m_le : result.m ≤ fracMax
  n_pos : 1 ≤ result.n
  n_le : result.n ≤ fracMax
  rule : result.m = 0 ∨ (result.m = 1 ∧ result.n * rate = result.parentRate) ∨
    20 * result.m ≤ result.n ∨
    (fd.noLimit ∧ Best (value (rate, result.parentRate)) fracMax fracMax (result.m, result.n))

/-- The approximation is the best one within its limits. -/
def Approximates (rationalBestApproximation : RationalBestApproximation) : Prop :=
  ∀ num den maxNum maxDen, 0 < den → 0 < maxNum → 0 < maxDen →
    Best (value (num, den)) maxNum maxDen (rationalBestApproximation num den maxNum maxDen)

section Sound

variable (fd : ClkFractionalDivider) (pRate : ℕ) (pParentRate : Option ℕ) (rate : ℕ)

/-- The parent is left for its own parent. -/
def MovesUp : Prop :=
  (pRate < rate * 20 ∧ ¬rate ∣ pRate) ∨ (fd.maxPrate ≠ 0 ∧ fd.maxPrate < pRate)

instance : Decidable (MovesUp fd pRate rate) := by unfold MovesUp; infer_instance

/-- The rate of the clock that is used. -/
def sourceRate : ℕ := if MovesUp fd pRate rate then pParentRate.getD pRate else pRate

/-- The whole number by which the rate of that clock is divided first. -/
def stages : ℕ :=
  if MovesUp fd pRate rate ∧ pParentRate.isSome ∧ fd.maxPrate ≠ 0 ∧
    fd.maxPrate < sourceRate fd pRate pParentRate rate then
      sourceRate fd pRate pParentRate rate ⌈/⌉ fd.maxPrate
  else 1

/-- The condition: twenty times the request and the division of a fast clock fit their words, the
clock that is used runs, and an exempt divider is not asked for more than it. -/
structure Sound : Prop where
  twenty : rate * 20 < 2 ^ 64
  divides : stages fd pRate pParentRate rate ≠ 1 →
    sourceRate fd pRate pParentRate rate + fd.maxPrate - 1 < 2 ^ 64 ∧
      stages fd pRate pParentRate rate < 2 ^ 32
  runs : 0 < sourceRate fd pRate pParentRate rate
  reaches : fd.noLimit →
    rate * stages fd pRate pParentRate rate ≤ sourceRate fd pRate pParentRate rate

end Sound

theorem one_le_fracMax : 1 ≤ fracMax := by decide

/-! ### The last step -/

variable {rationalBestApproximation : RationalBestApproximation} {fd : ClkFractionalDivider}
  {rate parentRate : ℕ}

theorem wordSub_exact {width minuend subtrahend : ℕ} :
    (wordSub width minuend subtrahend).exact = true ↔ subtrahend ≤ minuend := by
  rw [wordSub, decide_eq_true_eq]

theorem word_exact {width result : ℕ} : (word width result).exact = true ↔ result < 2 ^ width := by
  rw [word, decide_eq_true_eq]

theorem word_value {width result : ℕ} (fits : result < 2 ^ width) :
    (word width result).value = result := Nat.mod_eq_of_lt fits

/-- A parent slower than the request makes the difference wrap. -/
theorem le_of_nearestApproximation (positive : 0 < rate) {exact : Bool}
    (kept : (nearestApproximation rationalBestApproximation rate parentRate exact).exact = true) :
    exact = true ∧ rate ≤ parentRate := by
  rw [nearestApproximation, Bool.and_eq_true, Bool.and_eq_true, wordSub_exact,
    Nat.one_le_div_iff positive] at kept
  exact kept.1

/-- The shift of the last step, for a quotient that fits its word. -/
def shiftFor (rate parentRate : ℕ) : ℕ := (parentRate / rate - 1).size - 16

/-- The shifted rate stays below the parent's rate by far. -/
theorem shifted_le (shifts : 0 < shiftFor rate parentRate) :
    rate * 2 ^ shiftFor rate parentRate * 2 ^ 15 ≤ parentRate := by
  have size : 15 + shiftFor rate parentRate < (parentRate / rate - 1).size := by
    unfold shiftFor at shifts ⊢
    omega
  have quotient : 2 ^ (15 + shiftFor rate parentRate) ≤ parentRate / rate :=
    (Nat.lt_size.mp size).trans (Nat.sub_le _ _)
  calc
    rate * 2 ^ shiftFor rate parentRate * 2 ^ 15
        = rate * 2 ^ (15 + shiftFor rate parentRate) := by rw [Nat.pow_add]; ring
    _ ≤ rate * (parentRate / rate) := Nat.mul_le_mul_left rate quotient
    _ ≤ parentRate := Nat.mul_div_le parentRate rate

/-- Where the parent is not slower than the request, the last step keeps every value. -/
theorem nearestApproximation_eq (positive : 0 < rate) (narrow : parentRate < 2 ^ 64)
    (reaches : rate ≤ parentRate) (exact : Bool) :
    nearestApproximation rationalBestApproximation rate parentRate exact =
      let best := rationalBestApproximation (rate * 2 ^ shiftFor rate parentRate) parentRate
        fracMax fracMax
      ⟨best.1, best.2, parentRate, exact⟩ := by
  have quotient : 1 ≤ parentRate / rate := (Nat.one_le_div_iff positive).mpr reaches
  have quotient_le : parentRate / rate ≤ parentRate := Nat.div_le_self _ _
  have kept : (parentRate / rate + 2 ^ 64 - 1) % 2 ^ 64 = parentRate / rate - 1 := by omega
  have difference : wordSub 64 (parentRate / rate) 1 = ⟨parentRate / rate - 1, true⟩ := by
    rw [wordSub, decide_eq_true quotient, kept]
  simp only [nearestApproximation, difference, Bool.and_true]
  split
  · next shifts =>
      have small := shifted_le (Nat.sub_pos_of_lt shifts)
      have fits : rate * 2 ^ shiftFor rate parentRate < 2 ^ 64 := by omega
      rw [← shiftFor, word_value fits, word_exact.mpr fits, Bool.and_true]
  · next stays =>
      rw [shiftFor, Nat.sub_eq_zero_of_le (Nat.le_of_not_lt stays), Nat.pow_zero, Nat.mul_one,
        Bool.and_true]

/-- Between one and twenty times the request nothing is shifted. -/
theorem shiftFor_eq_zero (below : parentRate < rate * 20) :
    shiftFor rate parentRate = 0 := by
  have quotient : parentRate / rate < 20 := Nat.div_lt_of_lt_mul below
  have size : (parentRate / rate - 1).size ≤ 16 := Nat.size_le.mpr (by omega)
  exact Nat.sub_eq_zero_of_le size

/-- A parent twenty times as fast as the request leads to a precise clock. -/
theorem factorTwenty_of_le (approximates : Approximates rationalBestApproximation)
    (positive : 0 < rate) (narrow : parentRate < 2 ^ 64) (fast : rate * 20 ≤ parentRate) :
    FactorTwenty fd rate
      (nearestApproximation rationalBestApproximation rate parentRate true) := by
  have best := approximates (rate * 2 ^ shiftFor rate parentRate) parentRate fracMax fracMax
    (by omega) (by decide) (by decide)
  have shifted : rate * 2 ^ shiftFor rate parentRate * 20 ≤ parentRate := by
    rcases Nat.eq_zero_or_pos (shiftFor rate parentRate) with stays | shifts
    · rwa [stays, Nat.pow_zero, Nat.mul_one]
    · have small := shifted_le shifts
      omega
  have twentieth : Bounded fracMax fracMax (1, 20) :=
    ⟨by decide, by decide, by decide⟩
  have below : value (rate * 2 ^ shiftFor rate parentRate, parentRate) ≤ value (1, 20) := by
    rw [value_le_iff (show 0 < parentRate by omega) (by decide), Nat.one_mul]
    exact shifted
  have precise := best.value_le twentieth below
  rw [value_le_iff best.den_pos (by decide), Nat.one_mul, Nat.mul_comm] at precise
  rw [nearestApproximation_eq positive narrow (by omega)]
  exact { exact := rfl, m_le := best.num_le, n_pos := best.den_pos, n_le := best.den_le,
          rule := Or.inr (Or.inr (Or.inl precise)) }

/-- A small multiple of the request is divided by a whole number. -/
theorem factorTwenty_of_dvd (approximates : Approximates rationalBestApproximation)
    (positive : 0 < rate) (narrow : parentRate < 2 ^ 64) (runs : 0 < parentRate)
    (below : parentRate < rate * 20) (whole : rate ∣ parentRate) :
    FactorTwenty fd rate
      (nearestApproximation rationalBestApproximation rate parentRate true) := by
  have reaches : rate ≤ parentRate := Nat.le_of_dvd runs whole
  have quotient_pos : 0 < parentRate / rate := Nat.div_pos reaches positive
  have quotient_lt : parentRate / rate < 20 := Nat.div_lt_of_lt_mul below
  have bounded : Bounded fracMax fracMax (1, parentRate / rate) :=
    ⟨one_le_fracMax, quotient_pos, quotient_lt.le.trans (by decide)⟩
  have best := approximates rate parentRate fracMax fracMax runs (by decide) (by decide)
  have same : value (rate, parentRate) = value (1, parentRate / rate) := by
    rw [value_eq_iff runs quotient_pos, Nat.one_mul]
    exact Nat.mul_div_cancel' whole
  have unit := (same ▸ best).eq_unit bounded
  rw [nearestApproximation_eq positive narrow reaches, shiftFor_eq_zero below,
    Nat.pow_zero, Nat.mul_one, unit]
  exact { exact := rfl, m_le := bounded.num_le, n_pos := quotient_pos, n_le := bounded.den_le,
          rule := Or.inr (Or.inl ⟨rfl, Nat.div_mul_cancel whole⟩) }

/-- An exempt divider gets the best approximation. -/
theorem factorTwenty_of_noLimit (approximates : Approximates rationalBestApproximation)
    (positive : 0 < rate) (narrow : parentRate < 2 ^ 64) (reaches : rate ≤ parentRate)
    (below : parentRate < rate * 20) (noLimit : fd.noLimit = true) :
    FactorTwenty fd rate
      (nearestApproximation rationalBestApproximation rate parentRate true) := by
  have best := approximates rate parentRate fracMax fracMax (by omega) (by decide) (by decide)
  rw [nearestApproximation_eq positive narrow reaches, shiftFor_eq_zero below,
    Nat.pow_zero, Nat.mul_one]
  exact { exact := rfl, m_le := best.num_le, n_pos := best.den_pos, n_le := best.den_le,
          rule := Or.inr (Or.inr (Or.inr ⟨noLimit, best⟩)) }

/-! ### The choice of the clock -/

variable {pRate : ℕ} {pParentRate : Option ℕ}

/-- With the parent left, the divider obeys the rule where the clock that is used runs and an exempt
divider is not asked for more than its rate. -/
theorem factorTwenty_upper (approximates : Approximates rationalBestApproximation)
    (positive : 0 < rate) (narrow : parentRate < 2 ^ 64) :
    FactorTwenty fd rate
      (upperApproximation rationalBestApproximation fd rate (rate * 20) parentRate true) ↔
      0 < parentRate ∧ (fd.noLimit → rate ≤ parentRate) := by
  unfold upperApproximation
  split
  · next below =>
      have quotient_lt : parentRate / rate < 20 := Nat.div_lt_of_lt_mul below
      split
      · next whole =>
          have divides := Nat.dvd_of_mod_eq_zero whole
          constructor
          · intro obeys
            have quotient_pos : 0 < parentRate / rate := obeys.n_pos
            have reaches : rate ≤ parentRate := (Nat.div_pos_iff.mp quotient_pos).2
            exact ⟨positive.trans_le reaches, fun _ => reaches⟩
          · rintro ⟨runs, -⟩
            have reaches : rate ≤ parentRate := Nat.le_of_dvd runs divides
            exact { exact := rfl, m_le := one_le_fracMax,
                    n_pos := Nat.div_pos reaches positive,
                    n_le := quotient_lt.le.trans (by decide),
                    rule := Or.inr (Or.inl ⟨rfl, Nat.div_mul_cancel divides⟩) }
      · next broken =>
          have runs : 0 < parentRate := by
            apply Nat.pos_of_ne_zero
            rintro rfl
            exact broken (Nat.zero_mod rate)
          split
          · next noLimit =>
              constructor
              · intro obeys
                exact ⟨runs, fun _ => (le_of_nearestApproximation positive obeys.exact).2⟩
              · rintro ⟨-, reaches⟩
                exact factorTwenty_of_noLimit approximates positive narrow (reaches noLimit) below
                  noLimit
          · next limit =>
              constructor
              · intro _
                exact ⟨runs, fun noLimit => absurd noLimit limit⟩
              · intro _
                exact { exact := rfl, m_le := Nat.zero_le _, n_pos := le_rfl,
                        n_le := one_le_fracMax, rule := Or.inl rfl }
  · next fast =>
      have fast' : rate * 20 ≤ parentRate := Nat.le_of_not_lt fast
      constructor
      · intro _
        exact ⟨by omega, fun _ => by omega⟩
      · intro _
        exact factorTwenty_of_le approximates positive narrow fast'

/-- With the parent kept, the divider obeys the rule where the parent runs. -/
theorem factorTwenty_kept (approximates : Approximates rationalBestApproximation)
    (positive : 0 < rate) (narrow : pRate < 2 ^ 64) (stays : ¬MovesUp fd pRate rate) :
    FactorTwenty fd rate (nearestApproximation rationalBestApproximation rate pRate true) ↔
      0 < pRate ∧ (fd.noLimit → rate ≤ pRate) := by
  constructor
  · intro obeys
    have reaches := (le_of_nearestApproximation positive obeys.exact).2
    exact ⟨positive.trans_le reaches, fun _ => reaches⟩
  · rintro ⟨runs, -⟩
    by_cases fast : rate * 20 ≤ pRate
    · exact factorTwenty_of_le approximates positive narrow fast
    · have below : pRate < rate * 20 := Nat.lt_of_not_le fast
      have whole : rate ∣ pRate := by
        by_contra broken
        exact stays (Or.inl ⟨below, broken⟩)
      exact factorTwenty_of_dvd approximates positive narrow runs below whole

theorem sourceRate_kept (stays : ¬MovesUp fd pRate rate) :
    sourceRate fd pRate pParentRate rate = pRate := if_neg stays

theorem stages_kept (stays : ¬MovesUp fd pRate rate) :
    stages fd pRate pParentRate rate = 1 := if_neg fun divides => stays divides.1

/-- A clock above the limit is divided by at least two, and by no more than its rate. -/
theorem two_le_ceilDiv {limit source : ℕ} (positive : 0 < limit) (above : limit < source) :
    2 ≤ source ⌈/⌉ limit ∧ source ⌈/⌉ limit ≤ source := by
  have twice : ¬source ⌈/⌉ limit ≤ 1 := by
    rw [ceilDiv_le_iff_le_mul positive]
    omega
  refine ⟨by omega, ?_⟩
  rw [ceilDiv_le_iff_le_mul positive]
  exact Nat.le_mul_of_pos_left source positive

theorem stages_pos (fd : ClkFractionalDivider) (pRate : ℕ) (pParentRate : Option ℕ) (rate : ℕ) :
    0 < stages fd pRate pParentRate rate := by
  unfold stages
  split
  · next divides =>
      exact Nat.zero_lt_two.trans_le
        (two_le_ceilDiv (Nat.pos_of_ne_zero divides.2.2.1) divides.2.2.2).1
  · exact Nat.one_pos

theorem stages_le (runs : 0 < sourceRate fd pRate pParentRate rate) :
    stages fd pRate pParentRate rate ≤ sourceRate fd pRate pParentRate rate := by
  unfold stages
  split
  · next divides =>
      exact (two_le_ceilDiv (Nat.pos_of_ne_zero divides.2.2.1) divides.2.2.2).2
  · exact runs

/-- The words of the division of a fast clock. -/
theorem parentParentRate_of_gt {source : ℕ} (positive : fd.maxPrate ≠ 0)
    (above : fd.maxPrate < source) :
    ((parentParentRate fd source).exact = true ↔
      source + fd.maxPrate - 1 < 2 ^ 64 ∧ source ⌈/⌉ fd.maxPrate < 2 ^ 32) ∧
    ((parentParentRate fd source).exact = true →
      (parentParentRate fd source).value = source / (source ⌈/⌉ fd.maxPrate)) := by
  rw [parentParentRate, if_pos ⟨positive, above⟩]
  simp only [Bool.and_eq_true, word_exact, Nat.ceilDiv_eq_add_pred_div]
  constructor
  · constructor
    · rintro ⟨sum, div⟩
      rw [word_value sum] at div
      exact ⟨sum, div⟩
    · rintro ⟨sum, div⟩
      rw [word_value sum]
      exact ⟨sum, div⟩
  · rintro ⟨sum, div⟩
    rw [word_value sum] at div ⊢
    rw [word_value div]

/-- Where the parent is left, the rate is that of the clock that is used, divided. -/
theorem chosenParent_eq (pParentRate : Option ℕ) (moves : MovesUp fd pRate rate) :
    ((chosenParent fd pRate pParentRate).exact = true ↔
      (stages fd pRate pParentRate rate ≠ 1 →
        sourceRate fd pRate pParentRate rate + fd.maxPrate - 1 < 2 ^ 64 ∧
          stages fd pRate pParentRate rate < 2 ^ 32)) ∧
    ((chosenParent fd pRate pParentRate).exact = true →
      (chosenParent fd pRate pParentRate).value =
        sourceRate fd pRate pParentRate rate / stages fd pRate pParentRate rate) := by
  cases pParentRate with
  | none =>
      have source : sourceRate fd pRate .none rate = pRate := if_pos moves
      have whole : stages fd pRate .none rate = 1 :=
        if_neg fun divides => Bool.false_ne_true divides.2.1
      rw [whole, source, Nat.div_one, chosenParent]
      exact ⟨⟨fun _ divided => absurd rfl divided, fun _ => rfl⟩, fun _ => rfl⟩
  | some above =>
      have source : sourceRate fd pRate (some above) rate = above := if_pos moves
      rw [source, chosenParent]
      by_cases fast : fd.maxPrate ≠ 0 ∧ fd.maxPrate < above
      · have divided : stages fd pRate (some above) rate = above ⌈/⌉ fd.maxPrate := by
          rw [stages, source, if_pos ⟨moves, rfl, fast⟩]
        have twice := (two_le_ceilDiv (Nat.pos_of_ne_zero fast.1) fast.2).1
        obtain ⟨kept, same⟩ := parentParentRate_of_gt fast.1 fast.2
        rw [divided, kept]
        exact ⟨⟨fun fits _ => fits, fun fits => fits (by omega)⟩,
          fun fits => same (kept.mpr fits)⟩
      · have whole : stages fd pRate (some above) rate = 1 := by
          rw [stages, source]
          exact if_neg fun divides => fast divides.2.2
        rw [whole, Nat.div_one, parentParentRate, if_neg fast]
        exact ⟨⟨fun _ divided => absurd rfl divided, fun _ => rfl⟩, fun _ => rfl⟩

/-- Dividing by the stages keeps the comparisons of the condition. -/
theorem chosen_iff :
    0 < sourceRate fd pRate pParentRate rate / stages fd pRate pParentRate rate ∧
        (fd.noLimit → rate ≤
          sourceRate fd pRate pParentRate rate / stages fd pRate pParentRate rate) ↔
      0 < sourceRate fd pRate pParentRate rate ∧
        (fd.noLimit → rate * stages fd pRate pParentRate rate ≤
          sourceRate fd pRate pParentRate rate) := by
  have divided := stages_pos fd pRate pParentRate rate
  rw [Nat.le_div_iff_mul_le divided]
  constructor
  · rintro ⟨runs, reaches⟩
    exact ⟨Nat.pos_of_div_pos runs, reaches⟩
  · rintro ⟨runs, reaches⟩
    exact ⟨Nat.div_pos (stages_le runs) divided, reaches⟩

theorem exact_of_upperApproximation (positive : 0 < rate) {twenty : ℕ} {exact : Bool}
    (kept : (upperApproximation rationalBestApproximation fd rate twenty parentRate
      exact).exact = true) : exact = true := by
  unfold upperApproximation at kept
  split at kept
  · split at kept
    · exact kept
    · split at kept
      · exact (le_of_nearestApproximation positive kept).1
      · exact kept
  · exact (le_of_nearestApproximation positive kept).1

/-- The code's test for leaving the parent. -/
theorem movesUp_iff (twenty : rate * 20 < 2 ^ 64) :
    ((word 64 (rate * 20)).value > pRate ∧ pRate % rate ≠ 0) ∨
        (fd.maxPrate ≠ 0 ∧ fd.maxPrate < pRate) ↔
      MovesUp fd pRate rate := by
  rw [word_value twenty, MovesUp, Nat.dvd_iff_mod_eq_zero]

/-- An approximation whose operations all kept their values. -/
theorem exact_of_approximation (positive : 0 < rate)
    (kept : (rockchipFractionalApproximation rationalBestApproximation fd pRate pParentRate
      rate).exact = true) :
    rate * 20 < 2 ^ 64 ∧
      (MovesUp fd pRate rate → (chosenParent fd pRate pParentRate).exact = true) := by
  simp only [rockchipFractionalApproximation] at kept
  split at kept
  · have words := exact_of_upperApproximation positive kept
    rw [Bool.and_eq_true, word_exact] at words
    exact ⟨words.1, fun _ => words.2⟩
  · next stays =>
      have twenty := word_exact.mp (le_of_nearestApproximation positive kept).1
      exact ⟨twenty, fun moves => absurd ((movesUp_iff twenty).mpr moves) stays⟩

/-- The rule is obeyed exactly under the condition. -/
theorem factorTwenty_iff (approximates : Approximates rationalBestApproximation)
    (positive : 0 < rate) (narrow : pRate < 2 ^ 64)
    (narrow' : ∀ above, pParentRate = some above → above < 2 ^ 64) :
    FactorTwenty fd rate
        (rockchipFractionalApproximation rationalBestApproximation fd pRate pParentRate rate) ↔
      Sound fd pRate pParentRate rate := by
  by_cases twenty : rate * 20 < 2 ^ 64
  · have fits := word_exact.mpr twenty
    by_cases moves : MovesUp fd pRate rate
    · obtain ⟨kept, same⟩ := chosenParent_eq pParentRate moves
      by_cases exact : (chosenParent fd pRate pParentRate).exact = true
      · have source : sourceRate fd pRate pParentRate rate < 2 ^ 64 := by
          rw [sourceRate, if_pos moves]
          cases pParentRate with
          | none => exact narrow
          | some above => exact narrow' above rfl
        have quotient := (Nat.div_le_self (sourceRate fd pRate pParentRate rate)
          (stages fd pRate pParentRate rate)).trans_lt source
        simp only [rockchipFractionalApproximation, if_pos ((movesUp_iff twenty).mpr moves)]
        rw [fits, exact, same exact, Bool.and_true, word_value twenty,
          factorTwenty_upper approximates positive quotient, chosen_iff]
        exact ⟨fun both => ⟨twenty, kept.mp exact, both.1, both.2⟩,
          fun sound => ⟨sound.runs, sound.reaches⟩⟩
      · constructor
        · intro obeys
          exact absurd ((exact_of_approximation positive obeys.exact).2 moves) exact
        · intro sound
          exact absurd (kept.mpr sound.divides) exact
    · simp only [rockchipFractionalApproximation, if_neg (mt (movesUp_iff twenty).mp moves)]
      rw [fits, factorTwenty_kept approximates positive narrow moves]
      constructor
      · rintro ⟨runs, reaches⟩
        refine ⟨twenty, fun divided => absurd (stages_kept moves) divided, ?_, ?_⟩
        · rwa [sourceRate_kept moves]
        · rwa [sourceRate_kept moves, stages_kept moves, Nat.mul_one]
      · intro sound
        have runs := sound.runs
        have reaches := sound.reaches
        rw [sourceRate_kept moves, stages_kept moves, Nat.mul_one] at reaches
        rw [sourceRate_kept moves] at runs
        exact ⟨runs, reaches⟩
  · exact ⟨fun obeys => absurd (exact_of_approximation positive obeys.exact).1 twenty,
      fun sound => absurd sound.twenty twenty⟩

/-! ### An audio clock -/

/-- A fractional divider that takes up to 600 MHz. -/
def i2sFrac : ClkFractionalDivider := { maxPrate := 600000000, noLimit := false }

/-- The nearest fraction within the limits. -/
def searchFraction : RationalBestApproximation := fun num den maxNum maxDen =>
  search (value (num, den)) maxNum maxDen

theorem approximates_search : Approximates searchFraction :=
  fun num den maxNum _ _ _ positive => best_search (value (num, den)) maxNum positive

theorem factorTwenty_i2s :
    FactorTwenty i2sFrac 12288000
      (rockchipFractionalApproximation searchFraction i2sFrac 1188000000 (some 1188000000)
        12288000) := by
  refine (factorTwenty_iff approximates_search (by decide) (by decide) ?_).mpr
    ⟨by decide, by decide, by decide, by decide⟩
  intro above same
  cases same
  decide

/-- A parent's parent that stands still gives a denominator of zero. -/
theorem i2s_zero_denominator :
    (rockchipFractionalApproximation searchFraction i2sFrac 100000000 (some 0) 12288000).n = 0 ∧
      ¬FactorTwenty i2sFrac 12288000
        (rockchipFractionalApproximation searchFraction i2sFrac 100000000 (some 0) 12288000) := by
  have zero : (rockchipFractionalApproximation searchFraction i2sFrac 100000000 (some 0)
      12288000).n = 0 := by decide
  refine ⟨zero, fun obeys => ?_⟩
  have positive := obeys.n_pos
  rw [zero] at positive
  cases positive

end Clk
end RockchipSoc
