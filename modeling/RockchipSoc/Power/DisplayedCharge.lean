import RockchipSoc.Power.Rk817Battery

/-!
# The displayed charge follows the current

While the battery is discharged no algorithm may raise `dsoc`, whatever its shadow holds: each one
compares before it assigns.  What has to be carried along is that the products of the smooth
algorithm stay within an `int`, so that the sign of the current decides the direction.
-/

namespace RockchipSoc
namespace Power

open CInt

variable {cfg : Rk817Config}

/-! ### The speed of the smooth algorithm -/

theorem fcc_bounds (cfg : Rk817Config) : 500 ≤ cfg.fcc ∧ cfg.fcc ≤ 10000 :=
  ⟨cfg.fcc_valid, cfg.fcc_le⟩

theorem orOne_of_pos {n : ℤ} (positive : 0 < n) : orOne n = n :=
  if_pos (by omega)

/-- A gap between the two charges makes the display a third faster. -/
theorem linek_fast {delta : ℤ} (positive : 0 < delta) :
    cdiv (1000 * (delta + delta * 3)) (orOne (delta * 3)) = 1333 := by
  rw [orOne_of_pos (by omega), cdiv_of_nonneg (by omega),
    Int.ediv_eq_iff_of_pos (by omega)]
  omega

/-- In the other direction it makes the display a quarter slower. -/
theorem linek_slow {delta : ℤ} (positive : 0 < delta) :
    cdiv (1000 * (delta * 3)) (orOne (delta + delta * 3)) = 750 := by
  rw [orOne_of_pos (by omega), cdiv_of_nonneg (by omega),
    Int.ediv_eq_iff_of_pos (by omega)]
  omega

/-- The speed has the sign of the current and is at most four thirds. -/
def LinekFits (current linek : ℤ) : Prop :=
  (0 < current → 750 ≤ linek ∧ linek ≤ 1333) ∧ (current ≤ 0 → -1333 ≤ linek ∧ linek ≤ -750)

theorem calcSmLinek_fits (hw : Rk817Sample cfg) (bat : Rk817Battery)
    (near : |bat.dsoc - bat.rsoc| ≤ 500000) :
    LinekFits hw.laterCurrent (rk817BatCalcSmLinek cfg hw bat).smLinek := by
  have nonneg := abs_nonneg (bat.dsoc - bat.rsoc)
  have positive : bat.dsoc ≠ bat.rsoc → 0 < |bat.dsoc - bat.rsoc| := fun differ =>
    abs_pos.mpr (by omega)
  simp only [LinekFits, rk817BatCalcSmLinek]
  generalize |bat.dsoc - bat.rsoc| = delta at near nonneg positive
  rw [s32_of_fits (n := delta * 3) (by omega) (by omega),
    s32_of_fits (n := 1000 * (delta + delta * 3)) (by omega) (by omega),
    s32_of_fits (n := 1000 * (delta * 3)) (by omega) (by omega),
    s32_of_fits (n := -1000 * (delta * 3)) (by omega) (by omega),
    s32_of_fits (n := -1000 * (delta + delta * 3)) (by omega) (by omega),
    neg_mul, neg_mul, cdiv_neg, cdiv_neg]
  constructor <;> intro sign
  · rw [if_pos sign]
    rcases lt_trichotomy bat.dsoc bat.rsoc with below | same | above
    · rw [if_pos below, linek_fast (positive (by omega))]
      omega
    · rw [if_neg (by omega), if_neg (by omega)]
      omega
    · rw [if_neg (by omega), if_pos above, linek_slow (positive (by omega))]
      omega
  · rw [if_neg (by omega)]
    rcases lt_trichotomy bat.dsoc bat.rsoc with below | same | above
    · rw [if_pos below, linek_slow (positive (by omega))]
      omega
    · rw [if_neg (by omega), if_neg (by omega)]
      omega
    · rw [if_neg (by omega), if_pos above, linek_fast (positive (by omega))]
      omega

/-! ### The state inside a pass -/

/-- The state between two steps of a pass.  The charge lies between two bounds; the rest keeps
the products of the algorithms within an `int`. -/
structure InPass (cfg : Rk817Config) (slept : ℕ) (low top current : ℤ) (bat : Rk817Battery) :
    Prop where
  low_le : low ≤ bat.dsoc
  le_top : bat.dsoc ≤ top
  current_eq : bat.currentAvg = current
  slept_eq : bat.sleepDischrgSec = slept
  linek_ge : -1333 ≤ bat.smLinek
  linek_le : bat.smLinek ≤ 1333
  smRemain_nonneg : 0 ≤ bat.smRemainCap
  smRemain_le : bat.smRemainCap ≤ 16000000
  remain_nonneg : 0 ≤ bat.remainCap
  remain_le : bat.remainCap ≤ 16000000
  rsoc_nonneg : 0 ≤ bat.rsoc
  rsoc_le : bat.rsoc ≤ 200000
  zeroCap_nonneg : 0 ≤ bat.zeroBatocvToCap
  zeroCap_le : bat.zeroBatocvToCap ≤ cfg.fcc

variable {slept : ℕ} {low top current : ℤ} {bat : Rk817Battery} {hw : Rk817Sample cfg}

/-- The bounds on the charge are near enough to those on the charge of the counter. -/
theorem InPass.near (pass : InPass cfg slept low top current bat) (low_ge : -200000 ≤ low)
    (top_le : top ≤ 300000) : |bat.dsoc - bat.rsoc| ≤ 500000 := by
  obtain ⟨low_le, le_top, _, _, _, _, _, _, _, _, rsoc_nonneg, rsoc_le, _, _⟩ := pass
  rw [abs_le]
  omega

theorem InPass.calcSmLinek (pass : InPass cfg slept low top current bat)
    (low_ge : -200000 ≤ low) (top_le : top ≤ 300000) :
    InPass cfg slept low top current (rk817BatCalcSmLinek cfg hw bat) := by
  have fits := calcSmLinek_fits hw bat (pass.near low_ge top_le)
  rcases lt_or_ge 0 hw.laterCurrent with charging | discharging
  · obtain ⟨linek_ge, linek_le⟩ := fits.1 charging
    exact { pass with
      linek_ge := by omega
      linek_le := linek_le
      smRemain_nonneg := pass.remain_nonneg
      smRemain_le := pass.remain_le }
  · obtain ⟨linek_ge, linek_le⟩ := fits.2 discharging
    exact { pass with
      linek_ge := linek_ge
      linek_le := by omega
      smRemain_nonneg := pass.remain_nonneg
      smRemain_le := pass.remain_le }

theorem InPass.smoothAlgoPrepare (pass : InPass cfg slept low top current bat)
    (low_ge : -200000 ≤ low) (top_le : top ≤ 300000) :
    InPass cfg slept low top current (rk817BatSmoothAlgoPrepare cfg hw bat) :=
  InPass.calcSmLinek { pass with } low_ge top_le

/-- What `rk817_bat_init_coulomb_cap` computes from a capacity up to the full one. -/
theorem initCoulombCap_values {capacity : ℤ} (nonneg : 0 ≤ capacity) (within : capacity ≤ cfg.fcc)
    (bat : Rk817Battery) :
    (rk817BatInitCoulombCap cfg capacity bat).remainCap = capacity * 1000 ∧
      (rk817BatInitCoulombCap cfg capacity bat).rsoc = capacity * 100000 / cfg.fcc ∧
      0 ≤ capacity * 100000 / cfg.fcc ∧ capacity * 100000 / cfg.fcc ≤ 100000 := by
  obtain ⟨fcc_ge, fcc_le⟩ := fcc_bounds cfg
  have unwrapped : u32 (capacity * 1000 * 100) = capacity * 100000 := by
    unfold u32
    omega
  have rsoc_nonneg : 0 ≤ capacity * 100000 / cfg.fcc :=
    Int.ediv_nonneg (by omega) (by omega)
  have rsoc_le : capacity * 100000 / cfg.fcc ≤ 100000 :=
    Int.ediv_le_of_le_mul (by omega) (by nlinarith)
  refine ⟨?_, ?_, rsoc_nonneg, rsoc_le⟩
  · simp only [rk817BatInitCoulombCap, u32]
    omega
  · rw [rk817BatInitCoulombCap, unwrapped]
    exact s32_of_fits (by omega) (by omega)

theorem InPass.initCoulombCap {capacity : ℤ} (pass : InPass cfg slept low top current bat)
    (nonneg : 0 ≤ capacity) (within : capacity ≤ cfg.fcc) :
    InPass cfg slept low top current (rk817BatInitCoulombCap cfg capacity bat) := by
  have fcc_le := (fcc_bounds cfg).2
  obtain ⟨remain_eq, rsoc_eq, rsoc_nonneg, rsoc_le⟩ := initCoulombCap_values nonneg within bat
  exact { pass with
    remain_nonneg := by omega
    remain_le := by omega
    rsoc_nonneg := by omega
    rsoc_le := by omega }

/-- The state between two passes. -/
structure Sane (cfg : Rk817Config) (bat : Rk817Battery) : Prop where
  dsoc_nonneg : 0 ≤ bat.dsoc
  dsoc_le : bat.dsoc ≤ 100000
  linek_ge : -1333 ≤ bat.smLinek
  linek_le : bat.smLinek ≤ 1333
  smRemain_nonneg : 0 ≤ bat.smRemainCap
  smRemain_le : bat.smRemainCap ≤ 16000000
  zeroCap_nonneg : 0 ≤ bat.zeroBatocvToCap
  zeroCap_le : bat.zeroBatocvToCap ≤ cfg.fcc
  sleep_le : bat.sleepDischrgSec ≤ 360000

/-- Once the counter has been limited, a pass starts from sane readings. -/
theorem Sane.limitToFcc (sane : Sane cfg bat) :
    InPass cfg bat.sleepDischrgSec bat.dsoc bat.dsoc hw.current
        (limitToFcc cfg (updateRead cfg hw bat)) ∧
      rk817BatGetCapacityUah cfg (limitToFcc cfg (updateRead cfg hw bat)).qPress ≤ 11000000 := by
  obtain ⟨fcc_ge, fcc_le⟩ := fcc_bounds cfg
  obtain ⟨_, _, linek_ge, linek_le, smRemain_nonneg, smRemain_le, zeroCap_nonneg, zeroCap_le, _⟩ :=
    sane
  have reading := rk817BatGetCapacityUah_nonneg cfg hw.qPress
  have remain_eq : (updateRead cfg hw bat).remainCap = rk817BatGetCapacityUah cfg hw.qPress := rfl
  unfold Power.limitToFcc
  split
  · obtain ⟨remain, rsoc, rsoc_nonneg, rsoc_le⟩ := @initCoulombCap_values cfg _
      (show 0 ≤ cfg.fcc by omega) le_rfl (rk817BatInitCoulombCap cfg (cfg.fcc + 100)
        { updateRead cfg hw bat with smRemainCap := cfg.fcc * 1000 })
    refine ⟨⟨le_rfl, le_rfl, rfl, rfl, linek_ge, linek_le, ?_, ?_, ?_, ?_, ?_, ?_, zeroCap_nonneg,
      zeroCap_le⟩, ?_⟩
    · show 0 ≤ cfg.fcc * 1000
      omega
    · show cfg.fcc * 1000 ≤ 16000000
      omega
    · rw [remain]
      omega
    · rw [remain]
      omega
    · rw [rsoc]
      omega
    · rw [rsoc]
      omega
    · refine (capacityUah_capacityToAdc cfg (show cfg.fcc.toNat ≤ 10100 by omega)).trans ?_
      omega
  · next within =>
      have small : rk817BatGetCapacityUah cfg hw.qPress ≤ 10000999 := by omega
      have rsoc_eq : rk817BatGetRsoc cfg hw.qPress =
          rk817BatGetCapacityUah cfg hw.qPress * 100 / cfg.fcc := by
        rw [rk817BatGetRsoc, s32_of_fits (by omega) (by omega), orOne_of_pos (by omega),
          cdiv_of_nonneg (by omega)]
      have rsoc_nonneg : 0 ≤ rk817BatGetCapacityUah cfg hw.qPress * 100 / cfg.fcc :=
        Int.ediv_nonneg (by omega) (by omega)
      have rsoc_le : rk817BatGetCapacityUah cfg hw.qPress * 100 / cfg.fcc ≤ 200000 :=
        Int.ediv_le_of_le_mul (by omega) (by omega)
      exact ⟨⟨le_rfl, le_rfl, rfl, rfl, linek_ge, linek_le, smRemain_nonneg, smRemain_le, reading,
        (by show rk817BatGetCapacityUah cfg hw.qPress ≤ _; omega),
        (by show 0 ≤ rk817BatGetRsoc cfg hw.qPress; omega),
        (by show rk817BatGetRsoc cfg hw.qPress ≤ _; omega), zeroCap_nonneg, zeroCap_le⟩,
        by show rk817BatGetCapacityUah cfg hw.qPress ≤ _; omega⟩

/-! ### Smooth algorithm -/

/-- Where the counter leads the displayed charge: the sign of the speed is that of the current. -/
theorem smoothRead_spec (pass : InPass cfg slept low top current bat)
    (gauge : rk817BatGetCapacityUah cfg bat.qPress ≤ 11000000)
    (low_ge : -200000 ≤ low) (top_le : top ≤ 300000) :
    InPass cfg slept low top current (smoothRead cfg hw bat) ∧
      (current < 0 → hw.laterCurrent < 0 → (smoothRead cfg hw bat).smLinek < 0) ∧
      (0 < current → 0 < hw.laterCurrent → 0 < (smoothRead cfg hw bat).smLinek) := by
  have counted := hw.counted_le bat.qPress
  have nonneg := rk817BatGetCapacityUah_nonneg cfg (hw.counted bat.qPress)
  have fits := calcSmLinek_fits hw bat (pass.near low_ge top_le)
  have current_eq := pass.current_eq
  unfold smoothRead
  by_cases turned : bat.smLinek * bat.currentAvg ≤ 0
  · rw [if_pos turned]
    have turnedPass : InPass cfg slept low top current (rk817BatCalcSmLinek cfg hw bat) :=
      pass.calcSmLinek low_ge top_le
    refine ⟨{ turnedPass with remain_nonneg := nonneg, remain_le := ?_ }, ?_, ?_⟩
    · exact counted.trans (by omega)
    · intro _ later
      have bounds := fits.2 later.le
      exact lt_of_le_of_lt bounds.2 (by decide)
    · intro _ later
      exact lt_of_lt_of_le (by decide) (fits.1 later).1
  · rw [if_neg turned]
    rw [current_eq, not_le] at turned
    refine ⟨{ pass with remain_nonneg := nonneg, remain_le := ?_ }, ?_, ?_⟩
    · exact counted.trans (by omega)
    · intro negative _
      exact neg_of_mul_pos_left turned negative.le
    · intro positive _
      exact pos_of_mul_pos_left turned positive.le

theorem smoothRead_frame (hw : Rk817Sample cfg) (bat : Rk817Battery) :
    (smoothRead cfg hw bat).s2r = bat.s2r ∧ (smoothRead cfg hw bat).passSec = bat.passSec ∧
      (smoothRead cfg hw bat).workMode = bat.workMode := by
  simp only [smoothRead]
  split <;> exact ⟨rfl, rfl, rfl⟩

/-- The product of the smooth algorithm does not leave an `int`, so it keeps its sign. -/
theorem smoothYdsoc_sign (pass : InPass cfg slept low top current bat) :
    (bat.smLinek < 0 → smoothYdsoc cfg bat ≤ 0) ∧ (0 < bat.smLinek → 0 ≤ smoothYdsoc cfg bat) := by
  obtain ⟨_, _, _, _, linek_ge, linek_le, smRemain_nonneg, smRemain_le, remain_nonneg, remain_le,
    _, _, _, _⟩ := pass
  have fcc_pos : 0 ≤ orOne cfg.fcc := by
    have fcc_ge := (fcc_bounds cfg).1
    rw [orOne_of_pos (by omega)]
    omega
  have moved_nonneg : 0 ≤ |cdiv (bat.remainCap - bat.smRemainCap) 10| := abs_nonneg _
  have moved_le : |cdiv (bat.remainCap - bat.smRemainCap) 10| ≤ 1600000 :=
    abs_cdiv_le (by decide) (abs_le.mpr ⟨by omega, by omega⟩)
  simp only [smoothYdsoc]
  generalize |cdiv (bat.remainCap - bat.smRemainCap) 10| = moved at moved_nonneg moved_le
  have low : -2132800000 ≤ bat.smLinek * moved := by nlinarith
  have high : bat.smLinek * moved ≤ 2132800000 := by nlinarith
  rw [s32_of_fits (by omega) (by omega)]
  exact ⟨fun negative => cdiv_nonpos (mul_nonpos_of_nonpos_of_nonneg negative.le moved_nonneg)
    fcc_pos, fun positive => cdiv_nonneg (mul_nonneg positive.le moved_nonneg) fcc_pos⟩

/-- The discharging half lowers the display to the shadow, or towards it, and not below zero. -/
theorem calcSmoothDischrg_spec (bat : Rk817Battery) :
    ∃ shadow dsoc, rk817BatCalcSmoothDischrg bat =
        { bat with smoothSoc := shadow, dsoc := dsoc } ∧
      dsoc ≤ bat.dsoc ∧ (dsoc = bat.dsoc ∨ 0 ≤ dsoc) := by
  obtain ⟨shadow, limited, nonneg⟩ : ∃ shadow,
      (if bat.smoothSoc < 0 then { bat with smoothSoc := 0 } else bat) =
        { bat with smoothSoc := shadow } ∧ 0 ≤ shadow := by
    by_cases negative : bat.smoothSoc < 0
    · exact ⟨0, if_pos negative, le_rfl⟩
    · exact ⟨bat.smoothSoc, if_neg negative, by omega⟩
  simp only [rk817BatCalcSmoothDischrg, limited]
  split
  · split
    · exact ⟨shadow, bat.dsoc, rfl, le_rfl, .inl rfl⟩
    · refine ⟨shadow, _, rfl, ?_, .inr ?_⟩ <;> split <;> split <;> omega
  · exact ⟨shadow, bat.dsoc, rfl, le_rfl, .inl rfl⟩

/-- The charging half raises the display to the shadow. -/
theorem calcSmoothChrg_spec (bat : Rk817Battery) :
    ∃ shadow dsoc, (rk817BatCalcSmoothChrg bat).1 =
        { bat with smoothSoc := shadow, dsoc := dsoc } ∧ bat.dsoc ≤ dsoc := by
  obtain ⟨shadow, limited⟩ : ∃ shadow,
      (if bat.smoothSoc < 0 then { bat with smoothSoc := 0 } else bat) =
        { bat with smoothSoc := shadow } := by
    by_cases negative : bat.smoothSoc < 0
    · exact ⟨0, if_pos negative⟩
    · exact ⟨bat.smoothSoc, if_neg negative⟩
  simp only [rk817BatCalcSmoothChrg, limited]
  split
  · split
    · exact ⟨shadow, bat.dsoc, rfl, le_rfl⟩
    · refine ⟨shadow, _, rfl, ?_⟩
      split <;> omega
  · exact ⟨shadow, bat.dsoc, rfl, le_rfl⟩

theorem InPass.smoothResumed (pass : InPass cfg slept low top current bat) (low_ge : -200000 ≤ low)
    (top_le : top ≤ 300000) :
    InPass cfg slept low top current (rk817BatSmoothResumed cfg hw bat) := by
  unfold rk817BatSmoothResumed
  split
  · exact InPass.calcSmLinek { pass with } low_ge top_le
  · exact pass

/-- Discharging, the smooth algorithm does not raise the display. -/
theorem InPass.smoothAlgorithm_dischrg (pass : InPass cfg slept low top current bat)
    (gauge : rk817BatGetCapacityUah cfg bat.qPress ≤ 11000000) (low_ge : -200000 ≤ low)
    (low_le : low ≤ 0) (top_le : top ≤ 300000) (negative : current < 0)
    (later : hw.laterCurrent < 0) :
    InPass cfg slept low top current (rk817BatSmoothAlgorithm cfg hw bat) := by
  obtain ⟨readPass, slower, _⟩ := @smoothRead_spec cfg slept low top current bat hw pass gauge
    low_ge top_le
  have nonpos := (smoothYdsoc_sign readPass).1 (slower negative later)
  simp only [rk817BatSmoothAlgorithm]
  split
  · exact readPass
  · split
    · exact readPass
    · next moved =>
        rw [smoothMove, if_pos (lt_of_le_of_ne nonpos moved)]
        obtain ⟨shadow, dsoc, lowered, dsoc_le, kept⟩ := calcSmoothDischrg_spec
          { smoothRead cfg hw bat with
            smRemainCap := (smoothRead cfg hw bat).remainCap
            smoothSoc := s32 ((smoothRead cfg hw bat).smoothSoc +
              smoothYdsoc cfg (smoothRead cfg hw bat)) }
        rw [lowered]
        refine InPass.smoothResumed ?_ low_ge top_le
        have bound := readPass.low_le
        exact { readPass with
          low_le := by rcases kept with same | nonneg <;> dsimp only at * <;> omega
          le_top := dsoc_le.trans readPass.le_top
          smRemain_nonneg := readPass.remain_nonneg
          smRemain_le := readPass.remain_le }

/-- Charging, the smooth algorithm does not lower the display. -/
theorem InPass.smoothAlgorithm_chrg (pass : InPass cfg slept low top current bat)
    (gauge : rk817BatGetCapacityUah cfg bat.qPress ≤ 11000000) (low_ge : -200000 ≤ low)
    (top_le : top ≤ 300000) (positive : 0 < current) (later : 0 < hw.laterCurrent)
    (awake : bat.s2r = false) :
    InPass cfg slept low (rk817BatSmoothAlgorithm cfg hw bat).dsoc current
        (rk817BatSmoothAlgorithm cfg hw bat) ∧
      (rk817BatSmoothAlgorithm cfg hw bat).s2r = false ∧
      (rk817BatSmoothAlgorithm cfg hw bat).passSec = bat.passSec ∧
      (rk817BatSmoothAlgorithm cfg hw bat).workMode = bat.workMode := by
  obtain ⟨readPass, _, faster⟩ := @smoothRead_spec cfg slept low top current bat hw pass gauge
    low_ge top_le
  obtain ⟨s2r_eq, pass_eq, mode_eq⟩ := smoothRead_frame hw bat
  have nonneg := (smoothYdsoc_sign readPass).2 (faster positive later)
  have still : (smoothRead cfg hw bat).s2r = false := s2r_eq.trans awake
  simp only [rk817BatSmoothAlgorithm]
  split
  · exact ⟨{ readPass with le_top := le_rfl }, still, pass_eq, mode_eq⟩
  · split
    · exact ⟨{ readPass with le_top := le_rfl }, still, pass_eq, mode_eq⟩
    · obtain ⟨shadow, dsoc, raised, dsoc_ge⟩ := calcSmoothChrg_spec
        { smoothRead cfg hw bat with
          smRemainCap := (smoothRead cfg hw bat).remainCap
          smoothSoc := s32 ((smoothRead cfg hw bat).smoothSoc +
            smoothYdsoc cfg (smoothRead cfg hw bat)) }
      have moved : smoothMove cfg hw (smoothYdsoc cfg (smoothRead cfg hw bat))
          (smoothRead cfg hw bat) =
        { smoothRead cfg hw bat with
          smRemainCap := (smoothRead cfg hw bat).remainCap
          smoothSoc := shadow
          dsoc := dsoc } := by
        rw [smoothMove, if_neg (by omega)]
        simp only
        split
        · next early => exact (congrArg Prod.fst early).symm.trans raised
        · next through =>
            have through' := (congrArg Prod.fst through).symm.trans raised
            dsimp only at through'
            rw [through', rk817BatSmoothResumed, if_neg]
            simp [still]
      rw [moved]
      exact ⟨{ readPass with
        low_le := readPass.low_le.trans dsoc_ge
        le_top := le_rfl
        smRemain_nonneg := readPass.remain_nonneg
        smRemain_le := readPass.remain_le }, still, pass_eq, mode_eq⟩

/-! ### Zero algorithm -/

section Zero

variable (pass : InPass cfg slept low top current bat) (low_le : low ≤ 0) (top_nonneg : 0 ≤ top)
include pass low_le top_nonneg

theorem InPass.zeroDrop : InPass cfg slept low top current (zeroDrop cfg hw bat) := by
  have le_top := pass.le_top
  simp only [Power.zeroDrop]
  generalize (if bat.zeroDropSec = 0 then hw.bootSec else bat.zeroDropSec) = base
  split
  · refine { pass with low_le := ?_, le_top := ?_ } <;> dsimp only <;> split <;> omega
  · exact { pass with }

theorem InPass.shutdownDrop (pwroffVol : ℤ) :
    InPass cfg slept low top current (shutdownDrop cfg hw pwroffVol bat) := by
  simp only [Power.shutdownDrop]
  generalize (if bat.shtdDropSec = 0 then hw.bootSec else bat.shtdDropSec) = base
  split
  · split
    · exact { pass with low_le := low_le, le_top := top_nonneg }
    · exact { pass with }
  · exact { pass with }

theorem InPass.zeroSpeed : InPass cfg slept low top current (zeroSpeed cfg hw bat) := by
  simp only [Power.zeroSpeed]
  split
  · exact { pass with }
  · split
    · exact { pass with }
    · exact pass.zeroDrop low_le top_nonneg

theorem InPass.calcZeroLinek :
    InPass cfg slept low top current (rk817BatCalcZeroLinek cfg hw bat) := by
  have bounds := rk817BatVolToCap_bounds cfg (zeroOcvVoltage cfg hw)
  apply InPass.shutdownDrop _ low_le top_nonneg
  apply InPass.zeroSpeed _ low_le top_nonneg
  exact { pass with zeroCap_nonneg := bounds.1, zeroCap_le := bounds.2 }

theorem InPass.zeroAlgoPrepare :
    InPass cfg slept low top current (rk817BatZeroAlgoPrepare cfg hw bat) :=
  InPass.calcZeroLinek { pass with } low_le top_nonneg

omit low_le top_nonneg in
/-- The display follows the shadow of the zero algorithm downwards, by at most one percent. -/
theorem InPass.calcZeroAlgorithm :
    InPass cfg slept (low - 1000) top current (rk817BatCalcZeroAlgorithm bat) := by
  have low_le := pass.low_le
  have le_top := pass.le_top
  unfold rk817BatCalcZeroAlgorithm
  split
  · exact { pass with low_le := by omega }
  · split
    · exact { pass with low_le := by omega }
    · split
      · exact { pass with low_le := by dsimp only; omega, le_top := by dsimp only; omega }
      · exact { pass with low_le := by dsimp only; omega, le_top := by dsimp only; omega }

theorem InPass.zeroMove :
    InPass cfg slept (low - 1000) top current (zeroMove cfg hw bat) := by
  have low_ge := pass.low_le
  simp only [Power.zeroMove]
  split
  · exact InPass.calcZeroLinek (InPass.calcZeroAlgorithm { pass with }) (by omega) top_nonneg
  · exact { pass with low_le := by dsimp only; omega }

theorem InPass.zeroAlgorithm :
    InPass cfg slept (low - 1000) top current (rk817BatZeroAlgorithm cfg hw bat) := by
  have moved := @InPass.zeroMove cfg slept low top current bat hw pass low_le top_nonneg
  simp only [rk817BatZeroAlgorithm]
  split
  · exact InPass.calcZeroLinek (moved.initCoulombCap moved.zeroCap_nonneg moved.zeroCap_le)
      (by omega) top_nonneg
  · exact moved

end Zero

/-! ### Finish algorithm -/

theorem InPass.finishLimit (pass : InPass cfg slept low top current bat) :
    InPass cfg slept low top current (finishLimit cfg hw bat) := by
  have fcc_ge := (fcc_bounds cfg).1
  unfold Power.finishLimit
  split
  · exact pass.initCoulombCap (by omega) le_rfl
  · exact pass

theorem finishLimit_frame (hw : Rk817Sample cfg) (bat : Rk817Battery) :
    (finishLimit cfg hw bat).finishBase = bat.finishBase ∧
      (finishLimit cfg hw bat).dsoc = bat.dsoc ∧ (finishLimit cfg hw bat).s2r = bat.s2r ∧
      (finishLimit cfg hw bat).passSec = bat.passSec := by
  unfold finishLimit
  split <;> exact ⟨rfl, rfl, rfl, rfl⟩

/-- No seconds have passed since the count was started in this pass. -/
theorem finishCount_fresh (started : bat.finishBase = hw.bootSec) :
    finishCount cfg hw bat = { bat with finishBase := hw.bootSec } := by
  have start : finishStart cfg hw bat = hw.bootSec := by
    rw [finishStart, started, ite_self]
  have none : base2sec hw.bootSec hw.bootSec = 0 := by
    unfold base2sec
    split <;> simp
  simp [finishCount, start, none]

theorem InPass.finishAlgorithm_fresh (pass : InPass cfg slept low top current bat)
    (started : bat.finishBase = hw.bootSec) :
    InPass cfg slept low top current (rk817BatFinishAlgorithm cfg hw bat) := by
  simp only [rk817BatFinishAlgorithm]
  split
  · rw [finishCount_fresh ((finishLimit_frame hw bat).1.trans started)]
    exact { pass.finishLimit with }
  · exact pass.finishLimit

/-! ### Discharging -/

/-- Every reading of the current is negative and the charger is off. -/
def Rk817Sample.Discharging (hw : Rk817Sample cfg) : Prop :=
  hw.current < 0 ∧ hw.laterCurrent < 0 ∧ hw.chgSts = .chrgOff ∧ hw.pluginTrigger = false

theorem chargeStatus_off (off : hw.Discharging) (nonpos : bat.currentAvg ≤ 0) :
    rk817BatGetChargeStatus cfg hw bat = .chrgOff := by
  obtain ⟨_, _, status, plug⟩ := off
  unfold rk817BatGetChargeStatus
  rw [status, plug]
  have notPositive : ¬bat.currentAvg > 0 := not_lt.mpr nonpos
  simp [notPositive]

/-- A monitor pass while the battery is discharged does not raise the display. -/
theorem InPass.displaySmooth_dischrg (pass : InPass cfg slept (-1000) top hw.current bat)
    (gauge : rk817BatGetCapacityUah cfg bat.qPress ≤ 11000000) (off : hw.Discharging)
    (started : bat.finishBase = hw.bootSec) (top_nonneg : 0 ≤ top) (top_le : top ≤ 300000) :
    InPass cfg slept (-2000) top hw.current (rk817BatDisplaySmooth cfg hw bat) := by
  have lower : ∀ {bat' : Rk817Battery}, InPass cfg slept (-1000) top hw.current bat' →
      InPass cfg slept (-2000) top hw.current bat' := fun pass' =>
    { pass' with low_le := le_trans (by decide) pass'.low_le }
  simp only [rk817BatDisplaySmooth]
  split
  · apply InPass.smoothAlgoPrepare _ (by decide) top_le
    exact lower (InPass.zeroAlgoPrepare { pass with } (by decide) top_nonneg)
  · split
    · have finished := lower (pass.finishAlgorithm_fresh started)
      split
      · split
        · exact { finished.zeroAlgoPrepare (by decide) top_nonneg with }
        · exact { finished.smoothAlgoPrepare (by decide) top_le with }
      · exact finished
    · have zeroed := @InPass.zeroAlgorithm cfg slept (-1000) top hw.current bat hw pass (by decide)
        top_nonneg
      split
      · exact { zeroed.smoothAlgoPrepare (by decide) top_le with }
      · split
        · exact { zeroed with }
        · exact zeroed
    · have smoothed := lower (pass.smoothAlgorithm_dischrg gauge (by decide) (by decide) top_le
        off.1 off.2.1)
      split
      · exact { smoothed.zeroAlgoPrepare (by decide) top_nonneg with }
      · split
        · exact { smoothed with }
        · exact smoothed

theorem InPass.lowpwrCheck (pass : InPass cfg slept low top current bat) :
    InPass cfg slept (low - 1000) top current (rk817BatLowpwrCheck cfg bat) := by
  have low_le := pass.low_le
  have le_top := pass.le_top
  simp only [rk817BatLowpwrCheck]
  split
  · exact { pass with low_le := by dsimp only; omega, le_top := by dsimp only; omega }
  · exact { pass with low_le := by omega }

theorem powerSupplyChanged_eq (bat : Rk817Battery) :
    rk817BatPowerSupplyChanged bat = { bat with dsoc := max 0 (min bat.dsoc 100000) } := by
  unfold rk817BatPowerSupplyChanged
  split
  · congr 1
    omega
  · split
    · congr 1
      omega
    · rw [show max 0 (min bat.dsoc 100000) = bat.dsoc by omega]

/-- What is published is the charge reached, within a full battery. -/
theorem InPass.published (pass : InPass cfg slept low top current bat) (slept_le : slept ≤ 360000) :
    Sane cfg (rk817BatPowerSupplyChanged bat) := by
  rw [powerSupplyChanged_eq]
  have slept_le' : bat.sleepDischrgSec ≤ 360000 := pass.slept_eq ▸ slept_le
  exact ⟨by dsimp only; omega, by dsimp only; omega, pass.linek_ge, pass.linek_le,
    pass.smRemain_nonneg, pass.smRemain_le, pass.zeroCap_nonneg, pass.zeroCap_le, slept_le'⟩

theorem updateInfo_started (off : rk817BatGetChargeStatus cfg hw (updateRead cfg hw bat) ≠
    .chargeFinish) : rk817BatUpdateInfo cfg hw bat =
      { limitToFcc cfg (updateRead cfg hw bat) with finishBase := hw.bootSec } :=
  if_pos off

theorem Sane.work_dischrg (sane : Sane cfg bat) (off : hw.Discharging) :
    Sane cfg (rk817BatteryWork cfg hw bat) ∧ (rk817BatteryWork cfg hw bat).dsoc ≤ bat.dsoc := by
  have sane' : Sane cfg { bat with passSec := hw.bootSec } := { sane with }
  obtain ⟨readPass, gauge⟩ := @Sane.limitToFcc cfg _ hw sane'
  have status : rk817BatGetChargeStatus cfg hw (updateRead cfg hw
      { bat with passSec := hw.bootSec }) ≠ .chargeFinish := by
    rw [chargeStatus_off off off.1.le]
    decide
  have updated : InPass cfg bat.sleepDischrgSec 0 bat.dsoc hw.current
      (rk817BatUpdateInfo cfg hw { bat with passSec := hw.bootSec }) := by
    rw [updateInfo_started status]
    exact { readPass with low_le := sane.dsoc_nonneg.trans readPass.low_le }
  have lowered := updated.lowpwrCheck
  have frame : ∀ bat' : Rk817Battery, (rk817BatLowpwrCheck cfg bat').qPress = bat'.qPress ∧
      (rk817BatLowpwrCheck cfg bat').finishBase = bat'.finishBase := by
    intro bat'
    simp only [rk817BatLowpwrCheck]
    split <;> exact ⟨rfl, rfl⟩
  have shown := lowered.displaySmooth_dischrg
    (by rw [(frame _).1, updateInfo_started status]; exact gauge) off
    (by rw [(frame _).2, updateInfo_started status]) sane.dsoc_nonneg
    (sane.dsoc_le.trans (by decide))
  refine ⟨shown.published sane.sleep_le, ?_⟩
  have nonneg := sane.dsoc_nonneg
  have le_top := shown.le_top
  rw [rk817BatteryWork, powerSupplyChanged_eq]
  dsimp only
  omega

/-! ### Sleeping -/

/-- The state while a sleep is accounted for: the charge of the counter may be out of range. -/
structure Resting (cfg : Rk817Config) (slept : ℕ) (top : ℤ) (bat : Rk817Battery) : Prop where
  dsoc_nonneg : 0 ≤ bat.dsoc
  dsoc_le : bat.dsoc ≤ top
  slept_eq : bat.sleepDischrgSec = slept
  linek_ge : -1333 ≤ bat.smLinek
  linek_le : bat.smLinek ≤ 1333
  smRemain_nonneg : 0 ≤ bat.smRemainCap
  smRemain_le : bat.smRemainCap ≤ 16000000
  rsoc_ge : -4300000 ≤ bat.rsoc
  rsoc_le : bat.rsoc ≤ 4300000
  zeroCap_nonneg : 0 ≤ bat.zeroBatocvToCap
  zeroCap_le : bat.zeroBatocvToCap ≤ cfg.fcc

/-- Seconds of sleep that a resume can find: less than four days kept back, and one interval. -/
def sleepMax : ℕ := 2 ^ 31 + 360000

theorem sleepSumCap_eq (bounded : bat.sleepDischrgSec ≤ sleepMax) {cur : ℕ} (small : cur ≤ 40) :
    sleepSumCap bat cur = (cur * bat.sleepDischrgSec / 3600 : ℕ) := by
  have product : cur * bat.sleepDischrgSec ≤ 40 * sleepMax := Nat.mul_le_mul small bounded
  unfold sleepMax at product
  exact s32_of_fits (by omega) (by omega)

/-- A sleep that began below the counter lowers the display, and is kept back if it is short. -/
theorem Resting.sleepBelow (rest : Resting cfg slept top bat) (bounded : slept ≤ sleepMax)
    (top_le : top ≤ 300000) :
    (sleepBelow cfg bat).2 ≤ bat.dsoc ∧ ((sleepBelow cfg bat).1 = 0 → slept ≤ 360000) := by
  obtain ⟨dsoc_nonneg, dsoc_le, rfl, _, _, _, _, _, _, _, _⟩ := rest
  obtain ⟨fcc_ge, fcc_le⟩ := fcc_bounds cfg
  obtain ⟨cur, cur_eq, cur_pos, cur_le⟩ : ∃ cur, (if cfg.lowPwrSleep then 1 else 6) = cur ∧
      1 ≤ cur ∧ cur ≤ 6 := by
    cases cfg.lowPwrSleep
    · exact ⟨6, rfl, by decide, by decide⟩
    · exact ⟨1, rfl, by decide, by decide⟩
  have product : cur * bat.sleepDischrgSec ≤ 6 * sleepMax := Nat.mul_le_mul cur_le bounded
  have product_ge : bat.sleepDischrgSec ≤ cur * bat.sleepDischrgSec :=
    Nat.le_mul_of_pos_left _ cur_pos
  unfold sleepMax at product
  simp only [Power.sleepBelow, cur_eq, sleepSumCap_eq bounded (cur_le.trans (by decide))]
  generalize cur * bat.sleepDischrgSec = charge at product product_ge
  rw [s32_of_fits (n := ((charge / 3600 : ℕ) : ℤ) * 100) (by omega) (by omega),
    orOne_of_pos (by omega), cdiv_of_nonneg (by omega)]
  have soc_nonneg : 0 ≤ ((charge / 3600 : ℕ) : ℤ) * 100 / cfg.fcc :=
    Int.ediv_nonneg (by omega) (by omega)
  have soc_le : ((charge / 3600 : ℕ) : ℤ) * 100 / cfg.fcc ≤ 720000 :=
    Int.ediv_le_of_le_mul (by omega) (by omega)
  have short : ((charge / 3600 : ℕ) : ℤ) * 100 / cfg.fcc = 0 → bat.sleepDischrgSec ≤ 360000 := by
    intro none
    have small := Int.lt_ediv_add_one_mul_self (((charge / 3600 : ℕ) : ℤ) * 100)
      (show 0 < cfg.fcc by omega)
    rw [none] at small
    omega
  refine ⟨?_, short⟩
  generalize ((charge / 3600 : ℕ) : ℤ) * 100 / cfg.fcc = soc at soc_nonneg soc_le
  rw [s32_of_fits (n := soc * 1000) (by omega) (by omega),
    s32_of_fits (n := bat.dsoc - soc * 1000) (by omega) (by omega), cdiv_of_nonneg dsoc_nonneg]
  split
  · split
    · omega
    · split
      · split <;> omega
      · split <;> omega
  · exact le_rfl

/-- A sleep that began above the counter lowers the display, at most to the counter. -/
theorem Resting.sleepAbove (rest : Resting cfg slept top bat) (bounded : slept ≤ sleepMax)
    (top_le : top ≤ 300000) (above : bat.rsoc < bat.dsoc) :
    (sleepAbove cfg bat).2 ≤ bat.dsoc ∧ ((sleepAbove cfg bat).1 = 0 → slept ≤ 360000) := by
  obtain ⟨dsoc_nonneg, dsoc_le, rfl, _, _, _, _, rsoc_ge, rsoc_le, _, _⟩ := rest
  obtain ⟨fcc_ge, fcc_le⟩ := fcc_bounds cfg
  obtain ⟨cur, cur_eq, cur_pos, cur_le⟩ : ∃ cur, (if cfg.lowPwrSleep then 20 else 40) = cur ∧
      1 ≤ cur ∧ cur ≤ 40 := by
    cases cfg.lowPwrSleep
    · exact ⟨40, rfl, by decide, by decide⟩
    · exact ⟨20, rfl, by decide, by decide⟩
  have product_ge : bat.sleepDischrgSec ≤ cur * bat.sleepDischrgSec :=
    Nat.le_mul_of_pos_left _ cur_pos
  have percent : cdiv cfg.fcc 100 = cfg.fcc / 100 := cdiv_of_nonneg (by omega) _
  simp only [Power.sleepAbove, cur_eq, sleepSumCap_eq bounded cur_le]
  generalize cur * bat.sleepDischrgSec = charge at product_ge
  rw [percent, orOne_of_pos (by omega), cdiv_of_nonneg (Int.natCast_nonneg _)]
  have soc_nonneg : 0 ≤ ((charge / 3600 : ℕ) : ℤ) / (cfg.fcc / 100) :=
    Int.ediv_nonneg (by omega) (by omega)
  have short : ((charge / 3600 : ℕ) : ℤ) / (cfg.fcc / 100) = 0 →
      bat.sleepDischrgSec ≤ 360000 := by
    intro none
    have small := Int.lt_ediv_add_one_mul_self ((charge / 3600 : ℕ) : ℤ)
      (show 0 < cfg.fcc / 100 by omega)
    rw [none] at small
    omega
  refine ⟨?_, short⟩
  generalize ((charge / 3600 : ℕ) : ℤ) / (cfg.fcc / 100) = soc at soc_nonneg
  rw [s32_of_fits (n := bat.dsoc - bat.rsoc) (by omega) (by omega), cdiv_of_nonneg (by omega)]
  split
  · rw [s32_of_fits (n := soc * 2 * 1000) (by omega) (by omega),
      s32_of_fits (n := soc * 1000) (by omega) (by omega)]
    split <;> omega
  · exact above.le

theorem sleepCorrected_bounds {updated : Bool} {soc dsoc : ℤ} (dsoc_le : dsoc ≤ top)
    (top_nonneg : 0 ≤ top) : 0 ≤ sleepCorrected cfg bat updated soc dsoc ∧
      sleepCorrected cfg bat updated soc dsoc ≤ top := by
  obtain ⟨lowered, lowered_eq, lowered_le⟩ : ∃ lowered,
      (if bat.voltageAvg ≤ s32 cfg.pwroffVol - 70 then 0 else dsoc) = lowered ∧ lowered ≤ top := by
    refine ⟨_, rfl, ?_⟩
    split
    · exact top_nonneg
    · exact dsoc_le
  simp only [sleepCorrected, lowered_eq]
  split <;> split <;> constructor <;> omega

theorem InPass.resting (pass : InPass cfg slept 0 top current bat) : Resting cfg slept top bat :=
  { pass with
    dsoc_nonneg := pass.low_le
    dsoc_le := pass.le_top
    rsoc_ge := le_trans (by decide) pass.rsoc_nonneg
    rsoc_le := pass.rsoc_le.trans (by decide) }

/-- A counter calibrated by the relaxed voltage is a sane one. -/
theorem Resting.relaxVolCalib (rest : Resting cfg slept top bat) (top_le : top ≤ 300000) :
    Resting cfg slept top (rk817BatRelaxVolCalib cfg hw bat) := by
  have fcc_le := (fcc_bounds cfg).2
  obtain ⟨cap_nonneg, cap_le⟩ := rk817BatVolToCap_bounds cfg bat.voltageRelax
  unfold rk817BatRelaxVolCalib rk817BatInitCapacity
  split
  · exact rest
  · obtain ⟨remain_eq, rsoc_eq, rsoc_nonneg, rsoc_le⟩ :=
      initCoulombCap_values cap_nonneg cap_le bat
    have calibrated : InPass cfg slept 0 top bat.currentAvg
        (rk817BatInitCoulombCap cfg (rk817BatVolToCap cfg bat.voltageRelax) bat) :=
      { rest with
        low_le := rest.dsoc_nonneg
        le_top := rest.dsoc_le
        current_eq := rfl
        remain_nonneg := by omega
        remain_le := by omega
        rsoc_nonneg := by omega
        rsoc_le := by omega }
    have top_nonneg := rest.dsoc_nonneg.trans rest.dsoc_le
    exact ((calibrated.smoothAlgoPrepare (by decide) top_le).zeroAlgoPrepare le_rfl
      top_nonneg).resting

/-- A sleep does not raise the display. -/
theorem Resting.sleepDischrg (rest : Resting cfg slept top bat) (bounded : slept ≤ sleepMax)
    (top_le : top ≤ 300000) :
    Resting cfg slept top (rk817BatSleepDischrg cfg hw bat).2 ∧
      ((rk817BatSleepDischrg cfg hw bat).1 = 0 → slept ≤ 360000) := by
  have top_nonneg := rest.dsoc_nonneg.trans rest.dsoc_le
  simp only [rk817BatSleepDischrg]
  generalize (decide (bat.voltageRelax ≥ bat.voltageAvg)) = updated
  obtain ⟨calibrated, calibrated_eq, rest'⟩ : ∃ calibrated,
      (if updated = true then rk817BatRelaxVolCalib cfg hw bat else bat) = calibrated ∧
        Resting cfg slept top calibrated := by
    refine ⟨_, rfl, ?_⟩
    split
    · exact rest.relaxVolCalib top_le
    · exact rest
  rw [calibrated_eq]
  obtain ⟨slept', slept'_eq, dsoc_le, short⟩ : ∃ slept',
      (if calibrated.dsoc ≤ calibrated.rsoc then Power.sleepBelow cfg calibrated
        else Power.sleepAbove cfg calibrated) = slept' ∧
      slept'.2 ≤ calibrated.dsoc ∧ (slept'.1 = 0 → slept ≤ 360000) := by
    refine ⟨_, rfl, ?_⟩
    split
    · exact rest'.sleepBelow bounded top_le
    · next above => exact rest'.sleepAbove bounded top_le (not_le.mp above)
  rw [slept'_eq]
  obtain ⟨nonneg, le_top⟩ := @sleepCorrected_bounds cfg top calibrated updated slept'.1 slept'.2
    (dsoc_le.trans rest'.dsoc_le) top_nonneg
  exact ⟨{ rest' with dsoc_nonneg := nonneg, dsoc_le := le_top }, short⟩

theorem rk817BatGetRsoc_bounds (qPress : ℕ) :
    -4300000 ≤ rk817BatGetRsoc cfg qPress ∧ rk817BatGetRsoc cfg qPress ≤ 4300000 := by
  have fcc_ge := (fcc_bounds cfg).1
  have size : |s32 (rk817BatGetCapacityUah cfg qPress * 100)| ≤ 4300000 * cfg.fcc := by
    rw [abs_le]
    unfold s32
    omega
  rw [rk817BatGetRsoc, orOne_of_pos (by omega)]
  exact abs_le.mp (abs_cdiv_le (by omega) size)

theorem Resting.resumeSleep (rest : Resting cfg slept top bat) (bounded : slept ≤ sleepMax)
    (top_le : top ≤ 100000) :
    Sane cfg (resumeSleep cfg hw bat) ∧ (resumeSleep cfg hw bat).dsoc ≤ top := by
  obtain ⟨rested, short⟩ := @Resting.sleepDischrg cfg slept top bat hw rest bounded (by omega)
  have dsoc_le := rested.dsoc_le
  unfold Power.resumeSleep
  split
  · dsimp only
    split
    · exact ⟨{ rested with dsoc_le := dsoc_le.trans top_le, sleep_le := Nat.zero_le _ }, dsoc_le⟩
    · next none =>
        refine ⟨{ rested with dsoc_le := dsoc_le.trans top_le, sleep_le := ?_ }, dsoc_le⟩
        exact rested.slept_eq ▸ short (not_not.mp none)
  · next brief =>
      refine ⟨{ rest with dsoc_le := rest.dsoc_le.trans top_le, sleep_le := ?_ }, rest.dsoc_le⟩
      unfold sleepTimeStep at brief
      split at brief <;> omega

/-- A resume does not raise the display. -/
theorem Sane.resume_dischrg (sane : Sane cfg bat) :
    Sane cfg (rk817BatResumeWork cfg hw bat) ∧
      (rk817BatResumeWork cfg hw bat).dsoc ≤ bat.dsoc := by
  obtain ⟨rsoc_ge, rsoc_le⟩ := @rk817BatGetRsoc_bounds cfg hw.qPress
  simp only [rk817BatResumeWork]
  split
  · exact ⟨{ sane with }, le_rfl⟩
  · have interval : rk817BatRtcSleepSec cfg hw (resumeRead cfg hw bat) ≤ 2 ^ 31 := by
      unfold rk817BatRtcSleepSec s32
      omega
    refine Resting.resumeSleep { sane with
      dsoc_le := le_rfl
      slept_eq := rfl
      rsoc_ge := rsoc_ge
      rsoc_le := rsoc_le } ?_ sane.dsoc_le
    have sleep_le := sane.sleep_le
    show bat.sleepDischrgSec + _ ≤ sleepMax
    unfold sleepMax
    omega

theorem Sane.suspend_dischrg (sane : Sane cfg bat) (off : hw.Discharging) :
    Sane cfg (rk817BatPmSuspend cfg hw bat) ∧
      (rk817BatPmSuspend cfg hw bat).dsoc = bat.dsoc := by
  have negative : ¬((suspendRead cfg hw (rk817BatGetChargeStatus cfg hw bat) bat).workMode = .zero ∧
      (suspendRead cfg hw (rk817BatGetChargeStatus cfg hw bat) bat).currentAvg ≥ 0) :=
    fun both => absurd off.1 (not_lt.mpr both.2)
  simp only [rk817BatPmSuspend, if_neg negative]
  exact ⟨{ sane with }, rfl⟩

end Power
end RockchipSoc
