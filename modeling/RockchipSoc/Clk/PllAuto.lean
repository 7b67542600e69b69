import Mathlib.Data.Nat.GCD.Basic
import Mathlib.Tactic.Ring
import RockchipSoc.Clk.PllRegisters
import RockchipSoc.Foundation.CheckedArith

/-!
# Automatic settings of fractional PLLs

A rate that no table lists is made from the 24 MHz oscillator: two post dividers bring the PLL's own
oscillator into its range, whole megahertz go to two dividers in lowest terms, and the rest goes to
a fraction of 24 bits.
-/

namespace RockchipSoc
namespace Clk

open CheckedDiv

/-- `MHZ`. -/
def mhz : ℕ := 1000 * 1000

/-- `MIN_FOUTVCO_FREQ`. -/
def minFoutvcoFreq : ℕ := 800 * mhz

/-- `MAX_FOUTVCO_FREQ`. -/
def maxFoutvcoFreq : ℕ := 2000 * mhz

/-- The post dividers in the order of the search. -/
def postdivs : List (ℕ × ℕ) :=
  (List.range' 1 7).flatMap fun postdiv1 =>
    (List.range' 1 7).map fun postdiv2 => (postdiv1, postdiv2)

/-- The PLL's oscillator runs at that rate. -/
def inFoutvcoRange (freq : ℕ) : Bool := decide (freq ≥ minFoutvcoFreq ∧ freq ≤ maxFoutvcoFreq)

theorem inFoutvcoRange_iff {freq : ℕ} :
    inFoutvcoRange freq = true ↔ minFoutvcoFreq ≤ freq ∧ freq ≤ maxFoutvcoFreq := decide_eq_true_iff

/-- `rockchip_pll_clk_set_postdiv`: both post dividers and the oscillator's rate.  A search that
fails leaves the dividers behind their range and reports no error.  A rate below the range has no
product that leaves its word. -/
def rockchipPllClkSetPostdiv (foutHz foutvco : ℕ) : ℕ × ℕ × ℕ :=
  if foutHz < minFoutvcoFreq then
    match postdivs.find? fun postdiv => inFoutvcoRange (foutHz * postdiv.1 * postdiv.2) with
    | some postdiv => (postdiv.1, postdiv.2, foutHz * postdiv.1 * postdiv.2 % 2 ^ 32)
    | .none => (8, 8, foutvco)
  else (1, 1, foutvco)

/-- What the search for settings hands back; `invalid` is the pointer -1. -/
inductive AutoSettings
  | null
  | invalid
  | settings (rate : Rk3036Params)
  deriving DecidableEq

/-- `rockchip_pll_clk_set_by_auto`.  There is no result where a division by zero is reached. -/
def rockchipPllClkSetByAuto (finHz foutHz : ℕ) : Option AutoSettings :=
  if finHz = 0 ∨ foutHz = 0 ∨ foutHz = finHz then some .null
  else
    let (postdiv1, postdiv2, foutvco) := rockchipPllClkSetPostdiv foutHz (foutHz % 2 ^ 32)
    let clkGcd := (finHz / mhz).gcd (foutvco / mhz)
    if finHz / mhz * mhz = finHz ∧ foutHz / mhz * mhz = foutHz then
      if clkGcd = 0 then some .invalid
      else do
        let refdiv ← div? (finHz / mhz) clkGcd
        let fbdiv ← div? (foutvco / mhz) clkGcd
        some (.settings
          { fbdiv := fbdiv, postdiv1 := postdiv1, refdiv := refdiv % 2 ^ 32, postdiv2 := postdiv2,
            dsmpd := 1, frac := 0 })
    else do
      let refdiv ← div? (finHz / mhz) clkGcd
      let fbdiv ← div? (foutvco / mhz) clkGcd
      let fin64 ← div? finHz (refdiv % 2 ^ 32)
      let frac64 ← div? ((foutvco % mhz) <<< 24) (fin64 % 2 ^ 32)
      let frac := frac64 % 2 ^ 32
      some (.settings
        { fbdiv := fbdiv, postdiv1 := postdiv1, refdiv := refdiv % 2 ^ 32, postdiv2 := postdiv2,
          dsmpd := if frac > 0 then 0 else 1, frac := frac })

/-! ### The search for the post dividers -/

theorem mem_postdivs {postdiv : ℕ × ℕ} :
    postdiv ∈ postdivs ↔
      (1 ≤ postdiv.1 ∧ postdiv.1 ≤ 7) ∧ (1 ≤ postdiv.2 ∧ postdiv.2 ≤ 7) := by
  obtain ⟨postdiv1, postdiv2⟩ := postdiv
  simp only [postdivs, List.mem_flatMap, List.mem_range'_1, List.mem_map, Prod.mk.injEq]
  constructor
  · rintro ⟨_, bounds, _, bounds', rfl, rfl⟩
    omega
  · rintro ⟨bounds, bounds'⟩
    exact ⟨postdiv1, by omega, postdiv2, by omega, rfl, rfl⟩

variable {foutHz foutvco : ℕ}

/-- The range of the oscillator reaches down to a 49th of its lower end. -/
theorem exists_postdiv (low : foutHz < minFoutvcoFreq) (reaches : minFoutvcoFreq ≤ 49 * foutHz) :
    ∃ postdiv ∈ postdivs, minFoutvcoFreq ≤ foutHz * postdiv.1 * postdiv.2 ∧
      foutHz * postdiv.1 * postdiv.2 ≤ maxFoutvcoFreq := by
  by_contra missing
  push Not at missing
  have at2 := missing (1, 2) (by decide)
  have at4 := missing (1, 4) (by decide)
  have at8 := missing (2, 4) (by decide)
  have at16 := missing (4, 4) (by decide)
  have at30 := missing (5, 6) (by decide)
  have at49 := missing (7, 7) (by decide)
  simp only [minFoutvcoFreq, maxFoutvcoFreq, mhz] at *
  omega

/-- The post dividers bring the oscillator into its range. -/
structure Postdivided (foutHz postdiv1 postdiv2 foutvco : ℕ) : Prop where
  first : 1 ≤ postdiv1 ∧ postdiv1 ≤ 7
  second : 1 ≤ postdiv2 ∧ postdiv2 ≤ 7
  product : foutvco = foutHz * postdiv1 * postdiv2
  low : minFoutvcoFreq ≤ foutvco
  high : foutvco ≤ maxFoutvcoFreq

theorem setPostdiv_of_reaches (reaches : minFoutvcoFreq ≤ 49 * foutHz)
    (within : foutHz ≤ maxFoutvcoFreq) :
    ∃ postdiv1 postdiv2 foutvco,
      rockchipPllClkSetPostdiv foutHz (foutHz % 2 ^ 32) = (postdiv1, postdiv2, foutvco) ∧
        Postdivided foutHz postdiv1 postdiv2 foutvco := by
  unfold rockchipPllClkSetPostdiv
  by_cases low : foutHz < minFoutvcoFreq
  · rw [if_pos low]
    split
    · next postdiv found =>
        have listed := mem_postdivs.mp (List.mem_of_find?_eq_some found)
        have inRange := List.find?_some found
        simp only [inFoutvcoRange_iff] at inRange
        have narrow : foutHz * postdiv.1 * postdiv.2 < 2 ^ 32 :=
          inRange.2.trans_lt (by decide)
        exact ⟨_, _, _, rfl, listed.1, listed.2, Nat.mod_eq_of_lt narrow,
          (Nat.mod_eq_of_lt narrow).symm ▸ inRange.1, (Nat.mod_eq_of_lt narrow).symm ▸ inRange.2⟩
    · next missing =>
        obtain ⟨postdiv, listed, inRange⟩ := exists_postdiv low reaches
        have unfit := List.find?_eq_none.mp missing postdiv listed
        exact absurd (inFoutvcoRange_iff.mpr inRange) unfit
  · rw [if_neg low]
    have narrow : foutHz % 2 ^ 32 = foutHz := Nat.mod_eq_of_lt (within.trans_lt (by decide))
    rw [narrow]
    refine ⟨1, 1, foutHz, rfl, by decide, by decide, ?_, Nat.le_of_not_lt low, within⟩
    rw [Nat.mul_one, Nat.mul_one]

/-- A rate too low for every product keeps the dividers of a failed search. -/
theorem setPostdiv_of_low (low : 49 * foutHz < minFoutvcoFreq) (foutvco : ℕ) :
    rockchipPllClkSetPostdiv foutHz foutvco = (8, 8, foutvco) := by
  have below : foutHz < minFoutvcoFreq := by omega
  have missing : (postdivs.find? fun postdiv =>
      inFoutvcoRange (foutHz * postdiv.1 * postdiv.2)) = none := by
    rw [List.find?_eq_none]
    intro postdiv listed inRange
    have bounds := mem_postdivs.mp listed
    have reaches := (inFoutvcoRange_iff.mp inRange).1
    have product : foutHz * postdiv.1 * postdiv.2 ≤ foutHz * 7 * 7 :=
      Nat.mul_le_mul (Nat.mul_le_mul_left foutHz bounds.1.2) bounds.2.2
    omega
  rw [rockchipPllClkSetPostdiv, if_pos below, missing]

/-! ### The settings -/

/-- The oscillator that settings are made from. -/
def fin24 : ℕ := 24 * mhz

/-- Settings made for a rate of the PLL's oscillator: its whole megahertz in lowest terms, and the
rest as a fraction where there is one. -/
structure MadeFor (foutvco : ℕ) (rate : Rk3036Params) (common : ℕ) : Prop where
  refdiv : rate.refdiv * common = 24
  fbdiv : rate.fbdiv * common = foutvco / mhz
  frac : rate.frac = foutvco % mhz * 2 ^ 24 / (common * mhz)
  dsmpd : rate.dsmpd = if rate.frac > 0 then 0 else 1

/-- The fraction fits its field. -/
theorem frac_lt {common : ℕ} (rest : ℕ) (below : rest < mhz) (positive : common ≠ 0) :
    rest * 2 ^ 24 / (common * mhz) < 2 ^ 24 := by
  have least : mhz ≤ common * mhz := Nat.le_mul_of_pos_left mhz (Nat.pos_of_ne_zero positive)
  rw [Nat.div_lt_iff_lt_mul (Nat.zero_lt_of_lt (below.trans_le least)), Nat.mul_comm]
  exact Nat.mul_lt_mul_of_pos_left (below.trans_le least) (by decide)

/-- No division by zero is reached, and settings are made for the oscillator's rate; where the
request is in whole megahertz the rest is dropped. -/
theorem setByAuto_eq (nonzero : foutHz ≠ 0) (other : foutHz ≠ fin24) {postdiv1 postdiv2 : ℕ}
    (divided : rockchipPllClkSetPostdiv foutHz (foutHz % 2 ^ 32) = (postdiv1, postdiv2, foutvco)) :
    ∃ rate common, rockchipPllClkSetByAuto fin24 foutHz = some (.settings rate) ∧
      rate.postdiv1 = postdiv1 ∧ rate.postdiv2 = postdiv2 ∧
      MadeFor (if mhz ∣ foutHz then foutvco / mhz * mhz else foutvco) rate common := by
  have started : ¬(fin24 = 0 ∨ foutHz = 0 ∨ foutHz = fin24) := by
    rintro (zero | zero | same)
    · exact absurd zero (by decide)
    · exact nonzero zero
    · exact other same
  have whole24 : fin24 / mhz = 24 := by decide
  generalize common_eq : Nat.gcd 24 (foutvco / mhz) = common
  have positive : common ≠ 0 := by
    rw [← common_eq]
    exact Nat.gcd_ne_zero_left (by decide)
  have divides24 : common ∣ 24 := common_eq ▸ Nat.gcd_dvd_left _ _
  have divides : common ∣ foutvco / mhz := common_eq ▸ Nat.gcd_dvd_right _ _
  have refdiv : 24 / common * common = 24 := Nat.div_mul_cancel divides24
  have fbdiv : foutvco / mhz / common * common = foutvco / mhz := Nat.div_mul_cancel divides
  have narrow : 24 / common % 2 ^ 32 = 24 / common :=
    Nat.mod_eq_of_lt ((Nat.div_le_self _ _).trans_lt (by decide))
  have refdiv_ne : 24 / common ≠ 0 := by
    intro zero
    rw [zero, Nat.zero_mul] at refdiv
    cases refdiv
  have fin64 : fin24 / (24 / common) = common * mhz := by
    apply Nat.div_eq_of_eq_mul_right (Nat.pos_of_ne_zero refdiv_ne)
    rw [fin24, ← Nat.mul_assoc, refdiv]
  have common_le : common ≤ 24 := Nat.le_of_dvd (by decide) divides24
  have fin64_narrow : common * mhz % 2 ^ 32 = common * mhz :=
    Nat.mod_eq_of_lt ((Nat.mul_le_mul_right mhz common_le).trans_lt (by decide))
  have fin64_pos : 0 < common * mhz := Nat.mul_pos (Nat.pos_of_ne_zero positive) (by decide)
  simp only [rockchipPllClkSetByAuto, if_neg started, divided, whole24, common_eq]
  by_cases whole : mhz ∣ foutHz
  · rw [if_pos ⟨by decide, Nat.div_mul_cancel whole⟩, if_neg positive, div?_of_ne positive,
      div?_of_ne positive, if_pos whole]
    refine ⟨_, common, rfl, rfl, rfl, ?_, ?_, ?_, ?_⟩
    · rw [narrow, refdiv]
    · rw [fbdiv, Nat.mul_div_cancel _ (by decide)]
    · rw [Nat.mul_mod_left, Nat.zero_mul, Nat.zero_div]
    · rfl
  · have broken : ¬foutHz / mhz * mhz = foutHz := fun same => whole ⟨_, by rw [Nat.mul_comm, same]⟩
    have frac_lt := frac_lt (foutvco % mhz) (Nat.mod_lt foutvco (by decide)) positive
    rw [if_neg fun both => broken both.2, div?_of_ne positive, div?_of_ne positive, if_neg whole]
    rw [Option.bind_eq_bind, Option.bind_some, Option.bind_some, narrow, div?_of_ne refdiv_ne,
      Option.bind_some, fin64, fin64_narrow, div?_of_ne fin64_pos.ne', Option.bind_some,
      Nat.shiftLeft_eq]
    generalize frac_eq : foutvco % mhz * 2 ^ 24 / (common * mhz) = frac at frac_lt ⊢
    rw [Nat.mod_eq_of_lt (frac_lt.trans (by decide : 2 ^ 24 < 2 ^ 32))]
    exact ⟨_, common, rfl, rfl, rfl, refdiv, fbdiv, frac_eq.symm, rfl⟩

/-! ### The rate of settings -/

/-- The settings are within the PLL's ranges.  The oscillator's rate is compared in multiples of
`refdiv` and of the fraction's unit. -/
structure ValidSettings (rate : Rk3036Params) : Prop where
  refdiv : 1 ≤ rate.refdiv ∧ rate.refdiv ≤ 63
  fbdiv : 1 ≤ rate.fbdiv ∧ rate.fbdiv ≤ 4095
  postdiv1 : 1 ≤ rate.postdiv1 ∧ rate.postdiv1 ≤ 7
  postdiv2 : 1 ≤ rate.postdiv2 ∧ rate.postdiv2 ≤ 7
  dsmpd : rate.dsmpd ≤ 1
  frac : rate.frac < 2 ^ 24
  low : minFoutvcoFreq * (rate.refdiv * 2 ^ 24) ≤ fin24 * (rate.fbdiv * 2 ^ 24 + rate.frac)
  high : fin24 * (rate.fbdiv * 2 ^ 24 + rate.frac) ≤ maxFoutvcoFreq * (rate.refdiv * 2 ^ 24)

theorem ValidSettings.fits {rate : Rk3036Params} (valid : ValidSettings rate) : rate.Fits where
  fbdiv := Nat.lt_succ_of_le valid.fbdiv.2
  postdiv1 := Nat.lt_succ_of_le valid.postdiv1.2
  refdiv := Nat.lt_succ_of_le valid.refdiv.2
  postdiv2 := Nat.lt_succ_of_le valid.postdiv2.2
  dsmpd := Nat.lt_succ_of_le valid.dsmpd
  frac := valid.frac

/-- The rate that is read is the request or less than 4 Hz below it. -/
def Reads (foutHz read : ℕ) : Prop := read ≤ foutHz ∧ foutHz < read + 4

variable {rate : Rk3036Params} {common : ℕ}

theorem MadeFor.common_pos (made : MadeFor foutvco rate common) :
    0 < common ∧ common ≤ 24 ∧ 1 ≤ rate.refdiv ∧ rate.refdiv ≤ 24 := by
  have product := made.refdiv
  have common_pos : 0 < common := by
    apply Nat.pos_of_ne_zero
    rintro rfl
    cases product
  have refdiv_pos : 0 < rate.refdiv := by
    apply Nat.pos_of_ne_zero
    intro zero
    rw [zero, Nat.zero_mul] at product
    cases product
  exact ⟨common_pos, product ▸ Nat.le_mul_of_pos_left common refdiv_pos, refdiv_pos,
    product ▸ Nat.le_mul_of_pos_right rate.refdiv common_pos⟩

/-- The fraction stands for the rest of the oscillator's rate, less than two units of it short. -/
theorem MadeFor.frac_bounds (made : MadeFor foutvco rate common) :
    common * mhz * rate.frac ≤ foutvco % mhz * 2 ^ 24 ∧
      foutvco % mhz * 2 ^ 24 < common * mhz * rate.frac + common * mhz := by
  have positive : 0 < common * mhz := Nat.mul_pos made.common_pos.1 (by decide)
  have above := Nat.lt_mul_div_succ (foutvco % mhz * 2 ^ 24) positive
  rw [Nat.mul_add, Nat.mul_one] at above
  rw [made.frac]
  exact ⟨Nat.mul_div_le _ _, above⟩

/-- Settings made for a rate in the oscillator's range are valid. -/
theorem MadeFor.valid (made : MadeFor foutvco rate common)
    (postdivided : Postdivided foutHz rate.postdiv1 rate.postdiv2 foutvco) :
    ValidSettings rate := by
  obtain ⟨common_pos, common_le, refdiv_pos, refdiv_le⟩ := made.common_pos
  have frac_bounds := made.frac_bounds
  have split := Nat.div_add_mod foutvco mhz
  have low := postdivided.low
  have high := postdivided.high
  have fbdiv := made.fbdiv
  have refdiv := made.refdiv
  have frac := frac_lt (foutvco % mhz) (Nat.mod_lt foutvco (by decide)) common_pos.ne'
  rw [← made.frac] at frac
  have megahertz : 800 ≤ foutvco / mhz ∧ foutvco / mhz ≤ 2000 := by
    simp only [minFoutvcoFreq, maxFoutvcoFreq, mhz] at low high ⊢
    omega
  have fbdiv_pos : 1 ≤ rate.fbdiv := by
    apply Nat.pos_of_ne_zero
    intro zero
    rw [zero, Nat.zero_mul] at fbdiv
    omega
  have fbdiv_le : rate.fbdiv ≤ 2000 :=
    (Nat.le_mul_of_pos_right rate.fbdiv common_pos).trans (fbdiv.le.trans megahertz.2)
  -- Multiplied by what the two dividers have in common, the oscillator's rate is that of the rest.
  have scaled : fin24 * (rate.fbdiv * 2 ^ 24 + rate.frac) * common =
      24 * (mhz * (foutvco / mhz) * 2 ^ 24 + common * mhz * rate.frac) := by
    rw [← fbdiv, fin24]
    ring
  have unit (bound : ℕ) : bound * (rate.refdiv * 2 ^ 24) * common = 24 * (bound * 2 ^ 24) := by
    rw [← refdiv]
    ring
  refine ⟨⟨refdiv_pos, by omega⟩, ⟨fbdiv_pos, by omega⟩, postdivided.first, postdivided.second,
    ?_, frac, ?_, ?_⟩
  · rw [made.dsmpd]
    split <;> decide
  · apply Nat.le_of_mul_le_mul_right _ common_pos
    rw [unit, scaled]
    have whole : minFoutvcoFreq ≤ mhz * (foutvco / mhz) := by
      rw [minFoutvcoFreq, Nat.mul_comm]
      exact Nat.mul_le_mul_left mhz megahertz.1
    exact Nat.mul_le_mul_left 24 ((Nat.mul_le_mul_right _ whole).trans (Nat.le_add_right _ _))
  · apply Nat.le_of_mul_le_mul_right _ common_pos
    rw [unit, scaled]
    omega

/-- Without its post dividers the PLL runs at the rate the settings were made for, or up to 2 Hz
below it. -/
theorem MadeFor.sum_bounds (made : MadeFor foutvco rate common) (narrow : foutvco < 2 ^ 32) :
    ∃ sum, fracPllRate rate fin24 = sum / rate.postdiv1 / rate.postdiv2 ∧
      sum ≤ foutvco ∧ foutvco ≤ sum + 2 := by
  obtain ⟨common_pos, common_le, refdiv_pos, refdiv_le⟩ := made.common_pos
  obtain ⟨frac_le, frac_gt⟩ := made.frac_bounds
  have fin_eq : fin24 = rate.refdiv * (common * mhz) := by
    rw [← Nat.mul_assoc, made.refdiv, fin24]
  have fbdiv_lt : rate.fbdiv < 2 ^ 32 := by
    have le : rate.fbdiv ≤ foutvco / mhz :=
      made.fbdiv ▸ Nat.le_mul_of_pos_right rate.fbdiv common_pos
    exact (le.trans (Nat.div_le_self _ _)).trans_lt narrow
  have rest_lt : foutvco % mhz < mhz := Nat.mod_lt foutvco (by decide)
  have frac_small : rate.frac < 2 ^ 24 :=
    made.frac ▸ frac_lt (foutvco % mhz) rest_lt common_pos.ne'
  have fin_lt : fin24 < 2 ^ 25 := by decide
  have wholePart : fin24 * rate.fbdiv % 2 ^ 64 / rate.refdiv = mhz * (foutvco / mhz) := by
    have product : fin24 * rate.fbdiv < 2 ^ 25 * 2 ^ 32 := Nat.mul_lt_mul'' fin_lt fbdiv_lt
    rw [Nat.mod_eq_of_lt (product.trans (by decide)), fin_eq, Nat.mul_assoc,
      Nat.mul_div_cancel_left _ refdiv_pos, ← made.fbdiv]
    ring
  have fracPart : fin24 * rate.frac % 2 ^ 64 / rate.refdiv = common * mhz * rate.frac := by
    have product : fin24 * rate.frac < 2 ^ 25 * 2 ^ 24 := Nat.mul_lt_mul'' fin_lt frac_small
    rw [Nat.mod_eq_of_lt (product.trans (by decide)), fin_eq, Nat.mul_assoc,
      Nat.mul_div_cancel_left _ refdiv_pos]
  have step : common * mhz ≤ 24 * mhz := Nat.mul_le_mul_right mhz common_le
  have step_lt : 24 * mhz < 2 ^ 25 := by decide
  have split := Nat.div_add_mod foutvco mhz
  simp only [fracPllRate, wholePart, fracPart, Nat.shiftRight_eq_div_pow]
  have unscaled : ¬0 < rate.frac → common * mhz * rate.frac = 0 := by
    intro zero
    rw [Nat.eq_zero_of_not_pos zero, Nat.mul_zero]
  generalize common * mhz * rate.frac = scaled at *
  generalize mhz * (foutvco / mhz) = whole at *
  refine ⟨_, rfl, ?_⟩
  rw [made.dsmpd]
  by_cases fractional : 0 < rate.frac
  · rw [if_pos fractional, if_pos rfl, Nat.mod_eq_of_lt (by omega)]
    omega
  · have short := unscaled fractional
    rw [if_neg fractional, if_neg (by decide)]
    omega

/-- Settings for a rate in the oscillator's range read as the request, or less than 4 Hz below. -/
theorem MadeFor.reads (made : MadeFor foutvco rate common)
    (postdivided : Postdivided foutHz rate.postdiv1 rate.postdiv2 foutvco) :
    Reads foutHz (fracPllRate rate fin24) := by
  have narrow : foutvco < 2 ^ 32 := postdivided.high.trans_lt (by decide)
  obtain ⟨sum, read, le, gt⟩ := made.sum_bounds narrow
  have positive : 0 < rate.postdiv1 * rate.postdiv2 :=
    Nat.mul_pos postdivided.first.1 postdivided.second.1
  have product : foutvco = foutHz * (rate.postdiv1 * rate.postdiv2) := by
    rw [postdivided.product, Nat.mul_assoc]
  rw [read, Nat.div_div_eq_div_mul]
  constructor
  · apply Nat.div_le_of_le_mul
    rw [Nat.mul_comm]
    exact le.trans product.le
  · have close : foutHz ≤ sum / (rate.postdiv1 * rate.postdiv2) + 2 := by
      rw [← Nat.add_mul_div_right sum 2 positive, Nat.le_div_iff_mul_le positive, ← product]
      exact gt.trans (Nat.add_le_add_left (Nat.le_mul_of_pos_right 2 positive) sum)
    omega

/-- The settings are valid, and either layout of the registers reads them back as the request. -/
structure Accurate (foutHz : ℕ) (rate : Rk3036Params) : Prop where
  valid : ValidSettings rate
  rk3036 : ∀ sel con, Reads foutHz
    (rockchipRk3036PllRecalcRate ⟨sel, 0⟩ (rk3036PllUpdate con rate) fin24)
  rk3399 : ∀ sel con, Reads foutHz
    (rockchipRk3399PllRecalcRate ⟨sel, 0⟩ (rk3399PllUpdate con rate) fin24)

theorem rk3036_recalc_update (sel : ℤ) (con : Rk3036Con) (fits : rate.Fits) (prate : ℕ) :
    rockchipRk3036PllRecalcRate ⟨sel, 0⟩ (rk3036PllUpdate con rate) prate =
      fracPllRate rate prate := by
  rw [rockchipRk3036PllRecalcRate, if_neg fun scaled => scaled.2 rfl,
    rk3036_getParams_update con fits]

theorem rk3399_recalc_update (sel : ℤ) (con : Rk3399Con) (fits : rate.Fits) (prate : ℕ) :
    rockchipRk3399PllRecalcRate ⟨sel, 0⟩ (rk3399PllUpdate con rate) prate =
      fracPllRate rate prate := by
  rw [rockchipRk3399PllRecalcRate, if_neg fun scaled => scaled.2 rfl,
    rk3399_getParams_update con fits]

/-- Valid settings read as no more than the top of the oscillator's range. -/
theorem ValidSettings.rate_le (valid : ValidSettings rate) :
    fracPllRate rate fin24 ≤ maxFoutvcoFreq := by
  have refdiv_pos : 0 < rate.refdiv * 2 ^ 24 := Nat.mul_pos valid.refdiv.1 (by decide)
  generalize whole_eq : fin24 * rate.fbdiv / rate.refdiv = whole
  generalize rest_eq : fin24 * rate.frac / rate.refdiv / 2 ^ 24 = rest
  have wholePart : whole * rate.refdiv ≤ fin24 * rate.fbdiv := whole_eq ▸ Nat.div_mul_le_self _ _
  have restPart : rest * (rate.refdiv * 2 ^ 24) ≤ fin24 * rate.frac := by
    rw [← rest_eq, Nat.div_div_eq_div_mul]
    exact Nat.div_mul_le_self _ _
  have sum_le : whole + rest ≤ maxFoutvcoFreq := by
    apply Nat.le_of_mul_le_mul_right _ refdiv_pos
    calc
      (whole + rest) * (rate.refdiv * 2 ^ 24)
          = whole * rate.refdiv * 2 ^ 24 + rest * (rate.refdiv * 2 ^ 24) := by ring
      _ ≤ fin24 * rate.fbdiv * 2 ^ 24 + fin24 * rate.frac :=
          Nat.add_le_add (Nat.mul_le_mul_right _ wholePart) restPart
      _ = fin24 * (rate.fbdiv * 2 ^ 24 + rate.frac) := by ring
      _ ≤ maxFoutvcoFreq * (rate.refdiv * 2 ^ 24) := valid.high
  have whole_le : fin24 * rate.fbdiv % 2 ^ 64 / rate.refdiv ≤ whole :=
    whole_eq ▸ Nat.div_le_div_right (Nat.mod_le _ _)
  have rest_le : (fin24 * rate.frac % 2 ^ 64 / rate.refdiv) >>> 24 ≤ rest := by
    rw [Nat.shiftRight_eq_div_pow, ← rest_eq]
    exact Nat.div_le_div_right (Nat.div_le_div_right (Nat.mod_le _ _))
  simp only [fracPllRate]
  refine (Nat.div_le_self _ _).trans ((Nat.div_le_self _ _).trans ?_)
  split
  · exact (Nat.mod_le _ _).trans ((Nat.add_le_add whole_le rest_le).trans sum_le)
  · exact whole_le.trans ((Nat.le_add_right _ _).trans sum_le)

/-- No settings are valid for a rate just above the oscillator's range. -/
theorem MadeFor.not_valid (made : MadeFor foutvco rate common) (above : maxFoutvcoFreq < foutvco)
    (near : foutvco < maxFoutvcoFreq + 4) : ¬ValidSettings rate := by
  intro valid
  have megahertz : foutvco / mhz = 2000 ∧ 1 ≤ foutvco % mhz := by
    simp only [maxFoutvcoFreq, mhz] at *
    omega
  have fbdiv := made.fbdiv
  have refdiv := made.refdiv
  rw [megahertz.1] at fbdiv
  have common_le : common ≤ 8 := by
    have divides : common ∣ Nat.gcd 24 2000 :=
      Nat.dvd_gcd (Dvd.intro_left rate.refdiv refdiv) (Dvd.intro_left rate.fbdiv fbdiv)
    exact Nat.le_of_dvd (by decide) divides
  have scaled : fin24 * (rate.fbdiv * 2 ^ 24 + rate.frac) * common =
      24 * (mhz * 2000 * 2 ^ 24 + common * mhz * rate.frac) := by
    rw [← fbdiv, fin24]
    ring
  have unit : maxFoutvcoFreq * (rate.refdiv * 2 ^ 24) * common =
      24 * (mhz * 2000 * 2 ^ 24) := by
    rw [← refdiv, maxFoutvcoFreq]
    ring
  have high := Nat.mul_le_mul_right common valid.high
  rw [scaled, unit] at high
  have none : common * mhz * rate.frac = 0 := by omega
  have short := made.frac_bounds.2
  rw [none] at short
  have step : common * mhz ≤ 8 * mhz := Nat.mul_le_mul_right mhz common_le
  have step_lt : 8 * mhz < 2 ^ 24 := by decide
  omega

/-- The automatic settings divide by zero nowhere, and are none or accurate. -/
def AutoValid (foutHz : ℕ) : Prop :=
  ∃ result, rockchipPllClkSetByAuto fin24 foutHz = some result ∧
    (result = .null ∨ ∃ rate, result = .settings rate ∧ Accurate foutHz rate)

theorem autoValid_iff (foutHz : ℕ) :
    AutoValid foutHz ↔
      foutHz = 0 ∨ (minFoutvcoFreq ≤ 49 * foutHz ∧ foutHz ≤ maxFoutvcoFreq) := by
  by_cases zero : foutHz = 0
  · exact ⟨fun _ => Or.inl zero, fun _ => ⟨.null, if_pos (Or.inr (Or.inl zero)), Or.inl rfl⟩⟩
  by_cases same : foutHz = fin24
  · have inside : minFoutvcoFreq ≤ 49 * foutHz ∧ foutHz ≤ maxFoutvcoFreq := by
      rw [same]
      decide
    exact ⟨fun _ => Or.inr inside, fun _ => ⟨.null, if_pos (Or.inr (Or.inr same)), Or.inl rfl⟩⟩
  constructor
  · rintro ⟨result, made_eq, valid⟩
    refine Or.inr (by_contra fun outside => ?_)
    generalize divided : rockchipPllClkSetPostdiv foutHz (foutHz % 2 ^ 32) = dividers
    obtain ⟨postdiv1, postdiv2, foutvco⟩ := dividers
    obtain ⟨rate, common, settings, first, second, made⟩ := setByAuto_eq zero same divided
    rw [made_eq] at settings
    cases settings
    obtain null | ⟨_, same_rate, accurate⟩ := valid
    · cases null
    cases same_rate
    by_cases low : 49 * foutHz < minFoutvcoFreq
    · rw [setPostdiv_of_low low] at divided
      cases divided
      have limit := accurate.valid.postdiv1.2
      rw [first] at limit
      exact absurd limit (by decide)
    · have high : maxFoutvcoFreq < foutHz := by omega
      have read := (accurate.rk3036 0 ⟨0, 0, 0⟩).2
      rw [rk3036_recalc_update 0 _ accurate.valid.fits] at read
      have limit := accurate.valid.rate_le
      have near : foutHz < maxFoutvcoFreq + 4 := by omega
      have ordinary : ¬foutHz < minFoutvcoFreq := by
        have order : minFoutvcoFreq ≤ maxFoutvcoFreq := by decide
        omega
      have narrow : foutHz % 2 ^ 32 = foutHz := Nat.mod_eq_of_lt (near.trans (by decide))
      rw [rockchipPllClkSetPostdiv, if_neg ordinary, narrow] at divided
      cases divided
      have broken : ¬mhz ∣ foutHz := by
        simp only [maxFoutvcoFreq, mhz] at *
        omega
      rw [if_neg broken] at made
      exact made.not_valid high near accurate.valid
  · rintro (zero' | ⟨reaches, within⟩)
    · exact absurd zero' zero
    obtain ⟨postdiv1, postdiv2, foutvco, divided, postdivided⟩ :=
      setPostdiv_of_reaches reaches within
    obtain ⟨rate, common, settings, first, second, made⟩ := setByAuto_eq zero same divided
    have kept : (if mhz ∣ foutHz then foutvco / mhz * mhz else foutvco) = foutvco := by
      split
      · next whole =>
          apply Nat.div_mul_cancel
          rw [postdivided.product, Nat.mul_assoc]
          exact whole.mul_right _
      · rfl
    rw [kept] at made
    rw [← first, ← second] at postdivided
    have valid := made.valid postdivided
    have reads := made.reads postdivided
    refine ⟨_, settings, Or.inr ⟨rate, rfl, valid, fun sel con => ?_, fun sel con => ?_⟩⟩
    · rwa [rk3036_recalc_update sel con valid.fits]
    · rwa [rk3399_recalc_update sel con valid.fits]

/-- At 16 MHz no product of post dividers reaches the oscillator's range, and both dividers are
handed out as 8. -/
theorem auto_16mhz :
    rockchipPllClkSetByAuto fin24 16000000 =
        some (.settings
          { fbdiv := 2, postdiv1 := 8, refdiv := 3, postdiv2 := 8, dsmpd := 1, frac := 0 }) ∧
      ¬AutoValid 16000000 := by
  have handed : rockchipPllClkSetByAuto fin24 16000000 =
      some (.settings
        { fbdiv := 2, postdiv1 := 8, refdiv := 3, postdiv2 := 8, dsmpd := 1, frac := 0 }) := by
    decide
  refine ⟨handed, ?_⟩
  rintro ⟨result, made, valid⟩
  rw [handed] at made
  cases made
  obtain null | ⟨_, same, accurate⟩ := valid
  · cases null
  cases same
  exact absurd accurate.valid.postdiv1.2 (by decide)

end Clk
end RockchipSoc
