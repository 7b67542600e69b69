import RockchipSoc.Clk.HalfDivider

/-!
# The dividers of the display controller

A divider of the display controller divides its parent's rate by a power of two.  It accepts any
parent that runs at a multiple of the requested rate, and is set by the logarithm of the multiple.
-/

namespace RockchipSoc
namespace Clk

/-- `PLL_RATE_MIN`. -/
def pllRateMin : ℕ := 30000000

/-- `ilog2` of an `unsigned int`: minus one for zero. -/
def ilog2 (n : ℕ) : ℤ := if n = 0 then -1 else n.log2

def vop2DivGetVal (rate parentRate : ℕ) : ℤ := ilog2 (divRoundUpUll parentRate rate % 2 ^ 32)

/-- `vop2_clk_div_recalc_rate`: on arm64, a word is shifted by the low bits of the count. -/
def vop2ClkDivRecalcRate (divVal : ℤ) (parentRate : ℕ) : ℕ := parentRate / 2 ^ (divVal % 32).toNat

/-- `vop2_clk_div_round_rate`: the promised rate, and the rate the parent is asked for. -/
def vop2ClkDivRoundRate (setRateParent : Bool) (width rate prate : ℕ) : ℕ × ℕ :=
  if setRateParent then
    let prate := if prate < rate then rate else prate
    let prate := if prate >>> width > rate then rate else prate
    let prate := if prate % rate ≠ 0 then rate else prate
    let prate := if prate < pllRateMin then rate <<< width % 2 ^ 64 else prate
    (rate, prate)
  else (rate, prate)

/-- With the parent at the rate that was asked for, the divider set fits its field and gives the
promised rate. -/
def Vop2PromiseKept (width rate prate : ℕ) : Prop :=
  let rounded := vop2ClkDivRoundRate true width rate prate
  let divVal := vop2DivGetVal rate rounded.2
  0 ≤ divVal ∧ divVal < 2 ^ width ∧ vop2ClkDivRecalcRate divVal rounded.2 = rounded.1

instance (width rate prate : ℕ) : Decidable (Vop2PromiseKept width rate prate) :=
  inferInstanceAs (Decidable (_ ∧ _ ∧ _))

/-! ### The parent that is asked for -/

variable {width rate prate k : ℕ}

/-- The offered parent runs at a multiple of the request that is in range. -/
def Offered (width rate prate : ℕ) : Prop :=
  rate ≤ prate ∧ prate >>> width ≤ rate ∧ rate ∣ prate

instance (width rate prate : ℕ) : Decidable (Offered width rate prate) :=
  inferInstanceAs (Decidable (_ ∧ _ ∧ _))

/-- The multiple that is offered, or one. -/
def offeredMultiple (width rate prate : ℕ) : ℕ :=
  if Offered width rate prate then prate / rate else 1

/-- The multiple of the request at which the parent is to run: two to the width of the field where
a PLL would be too slow for the offered one. -/
def multiple (width rate prate : ℕ) : ℕ :=
  if offeredMultiple width rate prate * rate < pllRateMin then 2 ^ width
  else offeredMultiple width rate prate

/-- The multiple exceeds a power of two by less than what a truncated division loses. -/
def PowerOfTwoUpToRounding (rate k : ℕ) : Prop := (k - 2 ^ k.log2) * rate < 2 ^ k.log2

/-- The quotient that is cut to 32 bits has the logarithm of the multiple. -/
def CutHarmless (rate k : ℕ) : Prop := ilog2 (divRoundUpUll (k * rate) rate % 2 ^ 32) = k.log2

instance (rate k : ℕ) : Decidable (PowerOfTwoUpToRounding rate k) :=
  inferInstanceAs (Decidable (_ < _))

instance (rate k : ℕ) : Decidable (CutHarmless rate k) := inferInstanceAs (Decidable (_ = _))

theorem roundRate_fst (setRateParent : Bool) :
    (vop2ClkDivRoundRate setRateParent width rate prate).1 = rate := by
  unfold vop2ClkDivRoundRate
  split <;> rfl

/-- The parent is asked for a multiple of the request. -/
theorem roundRate_snd (fits : rate * 2 ^ width < 2 ^ 64) :
    (vop2ClkDivRoundRate true width rate prate).2 = multiple width rate prate * rate := by
  have slow : rate <<< width % 2 ^ 64 = 2 ^ width * rate := by
    rw [Nat.shiftLeft_eq, Nat.mod_eq_of_lt fits, Nat.mul_comm]
  have least : rate >>> width ≤ rate := by
    rw [Nat.shiftRight_eq_div_pow]
    exact Nat.div_le_self _ _
  have asked : (if (if (if prate < rate then rate else prate) >>> width > rate then rate
        else if prate < rate then rate else prate) % rate ≠ 0 then rate
      else if (if prate < rate then rate else prate) >>> width > rate then rate
        else if prate < rate then rate else prate) =
      offeredMultiple width rate prate * rate := by
    unfold offeredMultiple
    by_cases enough : rate ≤ prate
    · rw [if_neg (not_lt.mpr enough)]
      by_cases range : prate >>> width ≤ rate
      · rw [if_neg (not_lt.mpr range)]
        by_cases divides : rate ∣ prate
        · rw [if_neg (not_not.mpr (Nat.mod_eq_zero_of_dvd divides)),
            if_pos ⟨enough, range, divides⟩, Nat.div_mul_cancel divides]
        · rw [if_pos (mt Nat.dvd_of_mod_eq_zero divides),
            if_neg (fun offered : Offered width rate prate => divides offered.2.2), Nat.one_mul]
      · rw [if_pos (not_le.mp range), if_neg (not_not.mpr (Nat.mod_self rate)),
          if_neg (fun offered : Offered width rate prate => range offered.2.1), Nat.one_mul]
    · rw [if_pos (not_le.mp enough), if_neg (not_lt.mpr least),
        if_neg (not_not.mpr (Nat.mod_self rate)),
        if_neg (fun offered : Offered width rate prate => enough offered.1), Nat.one_mul]
  simp only [vop2ClkDivRoundRate, if_true, asked, multiple]
  split
  · exact slow
  · rfl

/-- The multiple is positive, and at most the field's range or just beyond it. -/
theorem multiple_bounds (positive : 0 < rate) :
    0 < multiple width rate prate ∧ multiple width rate prate < 2 ^ (width + 1) := by
  have room : 0 < 2 ^ width := Nat.two_pow_pos width
  have double : 2 ^ (width + 1) = 2 ^ width + 2 ^ width := by omega
  unfold multiple
  split
  · exact ⟨room, by omega⟩
  · unfold offeredMultiple
    split
    · next offered =>
        obtain ⟨enough, range, divides⟩ := offered
        refine ⟨Nat.div_pos enough positive, ?_⟩
        rw [Nat.shiftRight_eq_div_pow, ← Nat.lt_succ_iff, Nat.div_lt_iff_lt_mul room] at range
        rw [Nat.div_lt_iff_lt_mul positive, double]
        calc prate < (rate + 1) * 2 ^ width := range
          _ = rate * 2 ^ width + 2 ^ width := by rw [Nat.add_mul, Nat.one_mul]
          _ ≤ rate * 2 ^ width + rate * 2 ^ width :=
            Nat.add_le_add_left (Nat.le_mul_of_pos_left _ positive) _
          _ = (2 ^ width + 2 ^ width) * rate := by rw [← Nat.mul_add, Nat.mul_comm]
    · exact ⟨Nat.one_pos, by omega⟩

/-! ### The rate that is produced -/

/-- A shift gives the request back exactly if it takes the multiple's leading bit, and truncation
loses the rest. -/
theorem div_two_pow_eq_iff (positive : 0 < rate) (some : 0 < k) (l : ℕ) :
    k * rate / 2 ^ l = rate ↔ l = k.log2 ∧ PowerOfTwoUpToRounding rate k := by
  have room : 0 < 2 ^ l := Nat.two_pow_pos l
  have split : k * rate / 2 ^ l = rate ↔ 2 ^ l ≤ k ∧ (k - 2 ^ l) * rate < 2 ^ l := by
    rw [Nat.div_eq_iff room, Nat.sub_mul]
    constructor
    · rintro ⟨low, high⟩
      have least : 2 ^ l ≤ k := by
        refine Nat.le_of_mul_le_mul_right ?_ positive
        rwa [Nat.mul_comm (2 ^ l)]
      refine ⟨least, ?_⟩
      rw [Nat.mul_comm (2 ^ l)]
      omega
    · rintro ⟨least, rest⟩
      have low := Nat.mul_le_mul_right rate least
      rw [Nat.mul_comm (2 ^ l)] at low rest
      exact ⟨low, by omega⟩
  rw [split]
  constructor
  · rintro ⟨least, rest⟩
    have below : k < 2 ^ (l + 1) := by
      have narrow : k - 2 ^ l < 2 ^ l := lt_of_le_of_lt (Nat.le_mul_of_pos_right _ positive) rest
      rw [Nat.pow_succ]
      omega
    have leading : l = k.log2 := ((Nat.log2_eq_iff some.ne').mpr ⟨least, below⟩).symm
    subst leading
    exact ⟨rfl, rest⟩
  · rintro ⟨rfl, rest⟩
    exact ⟨Nat.log2_self_le some.ne', rest⟩

theorem vop2DivGetVal_lt (rate parentRate : ℕ) : vop2DivGetVal rate parentRate < 32 := by
  unfold vop2DivGetVal ilog2
  split
  · decide
  · next some =>
      have narrow : divRoundUpUll parentRate rate % 2 ^ 32 < 2 ^ 32 := Nat.mod_lt _ (by decide)
      exact_mod_cast (Nat.log2_lt some).mpr narrow

/-- The promise is kept exactly if the multiple of the request that the parent is asked for is a
power of two, up to what truncation hides, and its quotient is not damaged by the cut to 32 bits. -/
theorem vop2PromiseKept_iff (positive : 0 < rate) (fits : rate * 2 ^ width < 2 ^ 64) :
    Vop2PromiseKept width rate prate ↔
      PowerOfTwoUpToRounding rate (multiple width rate prate) ∧
        CutHarmless rate (multiple width rate prate) := by
  obtain ⟨some, small⟩ := @multiple_bounds width rate prate positive
  simp only [Vop2PromiseKept, roundRate_fst, roundRate_snd fits]
  generalize multiple width rate prate = k at some small ⊢
  have below := vop2DivGetVal_lt rate (k * rate)
  have harmless : CutHarmless rate k ↔ vop2DivGetVal rate (k * rate) = k.log2 := Iff.rfl
  rw [harmless]
  constructor
  · rintro ⟨nonneg, -, rate_eq⟩
    obtain ⟨l, val⟩ := Int.eq_ofNat_of_zero_le nonneg
    rw [val] at below rate_eq ⊢
    have shift : ((l : ℤ) % 32).toNat = l := by omega
    rw [vop2ClkDivRecalcRate, shift, div_two_pow_eq_iff positive some] at rate_eq
    exact ⟨rate_eq.2, congrArg Nat.cast rate_eq.1⟩
  · rintro ⟨power, val⟩
    have room : k.log2 < 2 ^ width := by
      have inside : k.log2 < width + 1 := (Nat.log2_lt some.ne').mpr small
      exact lt_of_lt_of_le inside Nat.lt_two_pow_self
    rw [val] at below ⊢
    have shift : ((k.log2 : ℤ) % 32).toNat = k.log2 := by omega
    refine ⟨Int.natCast_nonneg _, by exact_mod_cast room, ?_⟩
    rw [vop2ClkDivRecalcRate, shift]
    exact (div_two_pow_eq_iff positive some _).mpr ⟨rfl, power⟩

/-- Requests and multiples of 32 bits are not cut. -/
theorem cutHarmless_of_lt (positive : 0 < rate) (narrow : rate < 2 ^ 32) (some : 0 < k)
    (small : k < 2 ^ 32) : CutHarmless rate k := by
  have product : k * rate ≤ (2 ^ 32 - 1) * (2 ^ 32 - 1) :=
    Nat.mul_le_mul (Nat.le_sub_one_of_lt small) (Nat.le_sub_one_of_lt narrow)
  have quotient : (k * rate + rate - 1) / rate = k := by
    rw [Nat.div_eq_iff positive]
    omega
  unfold CutHarmless divRoundUpUll
  rw [Nat.mod_eq_of_lt (by omega : k * rate + rate - 1 < 2 ^ 64), Nat.mod_eq_of_lt narrow, quotient,
    Nat.mod_eq_of_lt small, ilog2, if_neg some.ne']

/-- The pixel clock of two dividers of 1080p: 148.5 MHz from 594 MHz. -/
theorem vop2PromiseKept_fullHd : Vop2PromiseKept 2 148500000 594000000 :=
  (vop2PromiseKept_iff (by decide) (by decide)).mpr (by decide)

/-- A parent at three times the request is accepted, and divided by two. -/
theorem vop2Promise_broken : ¬Vop2PromiseKept 2 148500000 445500000 ∧
    vop2ClkDivRoundRate true 2 148500000 445500000 = (148500000, 445500000) ∧
    vop2ClkDivRecalcRate (vop2DivGetVal 148500000 445500000) 445500000 = 222750000 := by
  decide

end Clk
end RockchipSoc
