import RockchipSoc.Power.Rk817Battery

/-!
# The units of the rk817 coulomb counter

A capacity in mAh is written to the counter in units of the converter, and read back in mAh, in
uAh and in thousandths of a percent.  The conversions divide and multiply in different orders;
each of them is exact up to its truncation as long as it stays inside its 32 bits.
-/

namespace RockchipSoc
namespace Power

open CInt

/-- `rk817_bat_remain_cap_is_valid`. -/
def rk817BatRemainCapIsValid (qPress : ℕ) : Bool := !qPress.testBit 31

/-- `rk817_bat_get_capacity_mah`. -/
def rk817BatGetCapacityMah (cfg : Rk817Data) (qPress : ℕ) : ℕ :=
  if rk817BatRemainCapIsValid qPress then qPress / 1000 * 172 / 3600 / cfg.resDiv else 0

/-- What is read back of a capacity, once the chip has copied `Q_INIT` to `Q_PRESS`. -/
structure UnitsAgree (cfg : Rk817Data) (capacity : ℕ) (bat : Rk817Battery) : Prop where
  mah : rk817BatGetCapacityMah cfg bat.qPress = capacity ∨
    rk817BatGetCapacityMah cfg bat.qPress + 1 = capacity
  valid : rk817BatRemainCapIsValid bat.qPress = true
  uah_ge : 1000 * ((capacity : ℤ) - 1) ≤ rk817BatGetCapacityUah cfg bat.qPress
  uah_le : rk817BatGetCapacityUah cfg bat.qPress ≤ 1000 * capacity
  initial : bat.rsoc = capacity * 100000 / cfg.fcc
  again : rk817BatGetRsoc cfg bat.qPress = rk817BatGetCapacityUah cfg bat.qPress * 100 / cfg.fcc
  /-- None of the products leaves its type. -/
  count_fits : capacity * cfg.resDiv * 3600 / 172 * 1000 < 2 ^ 32
  initial_fits : (capacity : ℤ) * 1000 * 100 < 2 ^ 32
  again_fits : rk817BatGetCapacityUah cfg bat.qPress * 100 < 2 ^ 31

variable (cfg : Rk817Data) {capacity : ℕ}

/-! ### The counter -/

/-- The units of the converter that a capacity takes. -/
def converterUnits (cfg : Rk817Data) (capacity : ℕ) : ℕ := capacity * cfg.resDiv * 3600 / 172

theorem converterUnits_bounds (capacity : ℕ) :
    172 * converterUnits cfg capacity ≤ capacity * cfg.resDiv * 3600 ∧
      capacity * cfg.resDiv * 3600 < 172 * converterUnits cfg capacity + 172 := by
  unfold converterUnits
  constructor <;> omega

theorem resDiv_cases : cfg.resDiv = 1 ∨ cfg.resDiv = 2 := by
  have low := cfg.resDiv_pos
  have high := cfg.resDiv_le
  omega

theorem scaled_le (small : capacity ≤ 50000) : capacity * cfg.resDiv ≤ 100000 :=
  Nat.mul_le_mul small cfg.resDiv_le

/-- Up to 50000 mAh the counter stays below the bit that marks it as invalid. -/
theorem capacityToAdc_eq (small : capacity ≤ 50000) :
    capacityToAdc capacity cfg.resDiv = converterUnits cfg capacity * 1000 ∧
      converterUnits cfg capacity * 1000 < 2 ^ 31 := by
  have scaled := scaled_le cfg small
  have units := (converterUnits_bounds cfg capacity).1
  have below : converterUnits cfg capacity * 1000 < 2 ^ 31 := by omega
  exact ⟨Nat.mod_eq_of_lt (below.trans (by decide)), below⟩

theorem rk817BatRemainCapIsValid_capacityToAdc (small : capacity ≤ 50000) :
    rk817BatRemainCapIsValid (capacityToAdc capacity cfg.resDiv) = true := by
  obtain ⟨image, below⟩ := capacityToAdc_eq cfg small
  rw [rk817BatRemainCapIsValid, image, Nat.testBit_lt_two_pow below, Bool.not_false]

/-! ### Reading back -/

/-- Charge in mAh: the last unit may be lost. -/
theorem rk817BatGetCapacityMah_capacityToAdc (small : capacity ≤ 50000) :
    rk817BatGetCapacityMah cfg (capacityToAdc capacity cfg.resDiv) = capacity ∨
      rk817BatGetCapacityMah cfg (capacityToAdc capacity cfg.resDiv) + 1 = capacity := by
  have valid := rk817BatRemainCapIsValid_capacityToAdc cfg small
  obtain ⟨image, -⟩ := capacityToAdc_eq cfg small
  obtain ⟨low, high⟩ := converterUnits_bounds cfg capacity
  have thousands : converterUnits cfg capacity * 1000 / 1000 = converterUnits cfg capacity :=
    Nat.mul_div_cancel _ (by decide)
  rw [rk817BatGetCapacityMah, if_pos valid, image, thousands]
  obtain single | double := resDiv_cases cfg
  · rw [single] at low high ⊢
    omega
  · rw [double] at low high ⊢
    omega

/-- The charge in uAh that the counter shows for a capacity. -/
def shownUah (cfg : Rk817Data) (capacity : ℕ) : ℕ :=
  converterUnits cfg capacity * 1000 / 3600 * 172 / cfg.resDiv

theorem rk817BatGetCapacityUah_capacityToAdc (small : capacity ≤ 50000) :
    rk817BatGetCapacityUah cfg (capacityToAdc capacity cfg.resDiv) = shownUah cfg capacity := by
  obtain ⟨image, below⟩ := capacityToAdc_eq cfg small
  rw [rk817BatGetCapacityUah, image, Nat.testBit_lt_two_pow below, if_neg Bool.false_ne_true,
    shownUah]

/-- Both truncations together lose less than one mAh. -/
theorem shownUah_bounds (capacity : ℕ) :
    1000 * capacity ≤ shownUah cfg capacity + 1000 ∧ shownUah cfg capacity ≤ 1000 * capacity := by
  obtain ⟨low, high⟩ := converterUnits_bounds cfg capacity
  unfold shownUah
  obtain single | double := resDiv_cases cfg
  · rw [single] at low high ⊢
    omega
  · rw [double] at low high ⊢
    omega

theorem shownUah_mono {other : ℕ} (le : capacity ≤ other) :
    shownUah cfg capacity ≤ shownUah cfg other := by
  unfold shownUah converterUnits
  gcongr

/-- The smallest capacity whose charge in uAh is too large for the percentage. -/
theorem shownUah_large : 21474837 ≤ shownUah cfg 21475 := by
  unfold shownUah converterUnits
  obtain single | double := resDiv_cases cfg
  · rw [single]
    decide
  · rw [double]
    decide

/-- The percentage stays inside an `int` up to 21474 mAh. -/
theorem shownUah_fits_iff : shownUah cfg capacity * 100 < 2 ^ 31 ↔ capacity ≤ 21474 := by
  constructor
  · intro fits
    by_contra large
    have more := shownUah_mono cfg (show 21475 ≤ capacity by omega)
    have least := shownUah_large cfg
    omega
  · intro small
    have below := (shownUah_bounds cfg capacity).2
    omega

/-! ### The round trip -/

/-- A capacity written to the counter is read back in all units exactly up to 21474 mAh: beyond
that the charge in uAh times a hundred leaves the `int` of `rk817_bat_get_rsoc`. -/
theorem unitsAgree_iff (bat : Rk817Battery) {designQmax : ℕ} (small : designQmax ≤ 50000)
    (within : capacity ≤ designQmax) :
    UnitsAgree cfg capacity (rk817BatInitCoulombCap cfg capacity bat) ↔ capacity ≤ 21474 := by
  have few : capacity ≤ 50000 := within.trans small
  have uah := rk817BatGetCapacityUah_capacityToAdc cfg few
  have image : (rk817BatInitCoulombCap cfg capacity bat).qPress =
      capacityToAdc capacity cfg.resDiv := rfl
  constructor
  · intro agree
    have fits := agree.again_fits
    rw [image, uah] at fits
    exact (shownUah_fits_iff cfg).mp (by exact_mod_cast fits)
  · intro low
    have fits := (shownUah_fits_iff cfg).mpr low
    obtain ⟨uah_ge, uah_le⟩ := shownUah_bounds cfg capacity
    have valid := cfg.fcc_valid
    have narrow := cfg.fcc_fits
    unfold minFcc at valid
    have positive : 0 < cfg.fcc := by omega
    have guarded : orOne cfg.fcc = cfg.fcc := if_pos positive.ne'
    refine ⟨?_, ?_, ?_, ?_, ?_, ?_, ?_, ?_, ?_⟩
    · exact rk817BatGetCapacityMah_capacityToAdc cfg few
    · exact rk817BatRemainCapIsValid_capacityToAdc cfg few
    · rw [image, uah]
      omega
    · rw [image, uah]
      omega
    · have whole : u32 ((capacity : ℤ) * 1000 * 100) = capacity * 100000 := by
        unfold u32
        omega
      have quotient_nonneg : 0 ≤ (capacity : ℤ) * 100000 / cfg.fcc :=
        Int.ediv_nonneg (by omega) positive.le
      have quotient_le : (capacity : ℤ) * 100000 / cfg.fcc ≤ 2147400000 / cfg.fcc :=
        Int.ediv_le_ediv positive (by omega)
      have quotient_small : (2147400000 : ℤ) / cfg.fcc ≤ 2147400000 :=
        Int.ediv_le_self _ (by decide)
      show s32 (u32 ((capacity : ℤ) * 1000 * 100) / cfg.fcc) = _
      rw [whole]
      exact s32_of_fits (by omega) (by omega)
    · have unwrapped : s32 ((shownUah cfg capacity : ℤ) * 100) = shownUah cfg capacity * 100 :=
        s32_of_fits (by omega) (by exact_mod_cast fits)
      rw [rk817BatGetRsoc, image, uah, guarded, unwrapped, cdiv_of_nonneg (by omega)]
    · exact (capacityToAdc_eq cfg few).2.trans (by decide)
    · omega
    · rw [image, uah]
      exact_mod_cast fits

/-! ### A large pack -/

/-- Two rows of cells with 25 Ah. -/
def largePack : Rk817Data :=
  { isRk809 := false
    fcc := 25000
    resDiv := 2
    batRes := 120
    pwroffVol := 3400
    zeroAlgorithmVol := 3850
    zeroReserveDsoc := 10
    designMaxVoltage := 4200
    energyMode := false
    lowPwrSleep := false
    ocvTable := [3400, 3800, 4200]
    fcc_valid := by decide
    fcc_fits := by decide
    resDiv_pos := Nat.two_pos
    resDiv_le := by decide
    ocvTable_short := by decide }

/-- The pack before the start-up. -/
def largePackAllocated : Rk817Battery :=
  { workMode := .smooth, dsoc := 0, rsoc := 0, remainCap := 0, smRemainCap := 0, smLinek := 0
    smoothSoc := 0, zeroDsoc := 0, zeroLinek := 0, zeroRemainCap := 0, zeroTimeoutCnt := 0
    zeroBatocvToCap := 0, zeroDropSec := 0, shtdDropSec := 0, finishBase := 0, s2r := false
    sleepChrgOnline := false, sleepDischrgSec := 0, rtcBase := 0, voltageAvg := 0
    currentAvg := 0, voltageRelax := 0, qPress := 0, passSec := 0 }

theorem unitsAgree_largePack :
    UnitsAgree largePack 20000 (rk817BatInitCoulombCap largePack 20000 largePackAllocated) :=
  (unitsAgree_iff largePack largePackAllocated (le_refl 50000)
    (show 20000 ≤ 50000 by decide)).mpr (by decide)

/-- The full pack is read back with a negative charge. -/
theorem full_largePack_negative :
    rk817BatGetRsoc largePack
        (rk817BatInitCoulombCap largePack 25000 largePackAllocated).qPress = -71798 ∧
      ¬UnitsAgree largePack 25000
        (rk817BatInitCoulombCap largePack 25000 largePackAllocated) := by
  have negative : rk817BatGetRsoc largePack
      (rk817BatInitCoulombCap largePack 25000 largePackAllocated).qPress = -71798 := by decide
  refine ⟨negative, fun agree => ?_⟩
  have again := agree.again
  have nonneg := rk817BatGetCapacityUah_nonneg largePack
    (rk817BatInitCoulombCap largePack 25000 largePackAllocated).qPress
  rw [negative] at again
  have quotient : 0 ≤ rk817BatGetCapacityUah largePack
      (rk817BatInitCoulombCap largePack 25000 largePackAllocated).qPress * 100 / largePack.fcc :=
    Int.ediv_nonneg (by omega) (by decide)
  omega

end Power
end RockchipSoc
