import RockchipSoc.Power.CapacityUnits

/-!
# The charge that the rk817 battery driver starts with

At the start of the driver the displayed charge is the one that was saved, unless the battery was
connected anew, the system halted, or the voltage of the resting battery speaks against it.  The
saved charge and the displayed one are thousandths of a percent; the voltage is read in percent.
-/

namespace RockchipSoc
namespace Power

open CInt

/-- What the chip has kept while the system was off. -/
structure Rk817Kept where
  batCon : Bool
  offCnt : ℕ
  pwronVoltage : ℤ
  ocvVoltage : ℤ
  savedDsoc : ℤ
  remainCapReg : ℤ
  qPress : ℕ
  haltCnt : ℕ
  fgInit : Bool

/-- The part of `struct rk817_battery_device` that the start-up fills. -/
structure Rk817Boot where
  bat : Rk817Battery
  nac : ℤ
  pwroffMin : ℕ
  isFirstPowerOn : Bool
  isHalt : Bool
  haltCnt : ℕ
  isInitialized : Bool
  isOcvCalib : Bool
  isMaxSocOffset : Bool
  isForceCalib : Bool
  ocvPreDsoc : ℤ
  ocvNewDsoc : ℤ
  forcePreDsoc : ℤ
  forceNewDsoc : ℤ

variable (cfg : Rk817Data) (maxSocOffset : ℕ) (kept : Rk817Kept)

/-- `is_rk817_bat_last_halt`: the counter is not where it was saved. -/
def isRk817BatLastHalt : Bool :=
  decide (|(rk817BatGetCapacityMah cfg kept.qPress : ℤ) - kept.remainCapReg| > cdiv cfg.fcc 10)

/-- `is_rk817_bat_ocv_valid`. -/
def isRk817BatOcvValid (boot : Rk817Boot) : Bool :=
  !boot.isInitialized && decide (30 ≤ boot.pwroffMin)

/-- The flags that `rk817_bat_not_first_pwron` sets first. -/
def bootFlags (boot : Rk817Boot) : Rk817Boot :=
  let isHalt := isRk817BatLastHalt cfg kept
  let boot := { boot with
    bat := { boot.bat with remainCap := kept.remainCapReg * 1000 }
    isHalt := isHalt
    haltCnt := if isHalt then (kept.haltCnt + 1) % 2 ^ 8 else kept.haltCnt
    isInitialized := kept.fgInit }
  { boot with isOcvCalib := isRk817BatOcvValid boot }

/-- The end of `rk817_bat_not_first_pwron`. -/
def bootFinish (preSoc preCap : ℤ) (boot : Rk817Boot) : Rk817Boot :=
  { boot with bat := { boot.bat with dsoc := preSoc }, nac := if preCap < 0 then 0 else preCap }

/-- After a long time off the voltage gives the capacity, and the charge where it is far away. -/
def bootOcvCalib (boot : Rk817Boot) : Rk817Boot :=
  let ocvSoc := rk817BatVolToSoc cfg kept.ocvVoltage
  let ocvCap := rk817BatVolToCap cfg kept.ocvVoltage
  let boot := { boot with ocvPreDsoc := kept.savedDsoc, ocvNewDsoc := ocvSoc }
  if |ocvSoc - kept.savedDsoc| ≥ maxSocOffset then
    bootFinish ocvSoc ocvCap { boot with isMaxSocOffset := true }
  else bootFinish kept.savedDsoc ocvCap boot

/-- After a short time off the voltage counts only where it is very far away. -/
def bootForceCalib (boot : Rk817Boot) : Rk817Boot :=
  let ocvSoc := rk817BatVolToSoc cfg kept.ocvVoltage
  let boot := { boot with forcePreDsoc := kept.savedDsoc, forceNewDsoc := ocvSoc }
  if |ocvSoc - kept.savedDsoc| ≥ 80 then
    bootFinish ocvSoc (rk817BatVolToCap cfg kept.ocvVoltage) { boot with isForceCalib := true }
  else bootFinish kept.savedDsoc kept.remainCapReg boot

/-- `rk817_bat_not_first_pwron`. -/
def rk817BatNotFirstPwron (boot : Rk817Boot) : Rk817Boot :=
  let boot := bootFlags cfg kept boot
  if boot.isHalt then
    let nowCap : ℤ := rk817BatGetCapacityMah cfg kept.qPress
    let bat := rk817BatInitCoulombCap cfg nowCap boot.bat
    bootFinish bat.rsoc nowCap { boot with bat }
  else if boot.isInitialized then bootFinish kept.savedDsoc kept.remainCapReg boot
  else if boot.isOcvCalib then bootOcvCalib cfg maxSocOffset kept boot
  else if boot.pwroffMin > 0 then bootForceCalib cfg kept boot
  else bootFinish kept.savedDsoc kept.remainCapReg boot

/-- `rk817_bat_first_pwron`. -/
def rk817BatFirstPwron (boot : Rk817Boot) : Rk817Boot :=
  let rsoc := rk817BatVolToSoc cfg kept.pwronVoltage * 1000
  { boot with
    bat := { boot.bat with rsoc := rsoc, dsoc := rsoc }
    nac := rk817BatVolToCap cfg kept.pwronVoltage }

/-- `rk817_bat_rsoc_init`. -/
def rk817BatRsocInit (boot : Rk817Boot) : Rk817Boot :=
  let boot := { boot with isFirstPowerOn := kept.batCon, pwroffMin := kept.offCnt }
  if boot.isFirstPowerOn then rk817BatFirstPwron cfg kept boot
  else rk817BatNotFirstPwron cfg maxSocOffset kept boot

/-! ### What the start-up should display -/

/-- How far, in percent, the voltage may be away from the saved charge. -/
def bootLimit : ℤ := if 30 ≤ kept.offCnt then maxSocOffset else 80

/-- The voltage is too far away from the saved charge, both in thousandths of a percent. -/
def VoltageContradicts (ocvSoc : ℤ) : Prop :=
  0 < kept.offCnt ∧ 1000 * bootLimit maxSocOffset kept ≤ |1000 * ocvSoc - kept.savedDsoc|

instance (ocvSoc : ℤ) : Decidable (VoltageContradicts maxSocOffset kept ocvSoc) :=
  inferInstanceAs (Decidable (_ ∧ _))

/-- The charge to be displayed: the saved one, or the one that contradicts it. -/
def expectedDsoc : ℤ :=
  let ocvSoc := rk817BatVolToSoc cfg kept.ocvVoltage
  if VoltageContradicts maxSocOffset kept ocvSoc then 1000 * ocvSoc else kept.savedDsoc

/-- The comparison of the driver, of a percentage with thousandths of a percent. -/
def ComparesFar (ocvSoc : ℤ) : Prop :=
  0 < kept.offCnt ∧ bootLimit maxSocOffset kept ≤ |ocvSoc - kept.savedDsoc|

instance (ocvSoc : ℤ) : Decidable (ComparesFar maxSocOffset kept ocvSoc) :=
  inferInstanceAs (Decidable (_ ∧ _))

@[simp] theorem bootFinish_dsoc (preSoc preCap : ℤ) (boot : Rk817Boot) :
    (bootFinish preSoc preCap boot).bat.dsoc = preSoc := rfl

theorem bootOcvCalib_dsoc (boot : Rk817Boot) :
    (bootOcvCalib cfg maxSocOffset kept boot).bat.dsoc =
      if (maxSocOffset : ℤ) ≤ |rk817BatVolToSoc cfg kept.ocvVoltage - kept.savedDsoc| then
        rk817BatVolToSoc cfg kept.ocvVoltage
      else kept.savedDsoc := by
  by_cases far : (maxSocOffset : ℤ) ≤ |rk817BatVolToSoc cfg kept.ocvVoltage - kept.savedDsoc| <;>
    simp [bootOcvCalib, far]

theorem bootForceCalib_dsoc (boot : Rk817Boot) :
    (bootForceCalib cfg kept boot).bat.dsoc =
      if 80 ≤ |rk817BatVolToSoc cfg kept.ocvVoltage - kept.savedDsoc| then
        rk817BatVolToSoc cfg kept.ocvVoltage
      else kept.savedDsoc := by
  by_cases far : 80 ≤ |rk817BatVolToSoc cfg kept.ocvVoltage - kept.savedDsoc| <;>
    simp [bootForceCalib, far]

/-- What the driver displays where it neither halted nor was initialised. -/
theorem rk817BatRsocInit_dsoc (boot : Rk817Boot) (connected : kept.batCon = false)
    (running : isRk817BatLastHalt cfg kept = false) (uninitialised : kept.fgInit = false) :
    (rk817BatRsocInit cfg maxSocOffset kept boot).bat.dsoc =
      if ComparesFar maxSocOffset kept (rk817BatVolToSoc cfg kept.ocvVoltage) then
        rk817BatVolToSoc cfg kept.ocvVoltage
      else kept.savedDsoc := by
  simp only [rk817BatRsocInit, connected, rk817BatNotFirstPwron, bootFlags, running,
    uninitialised, isRk817BatOcvValid, Bool.false_eq_true, if_false, Bool.not_false,
    Bool.true_and, decide_eq_true_eq]
  by_cases long : 30 ≤ kept.offCnt
  · have off : 0 < kept.offCnt := by omega
    rw [if_pos long, bootOcvCalib_dsoc]
    simp only [ComparesFar, bootLimit, long, off, if_true, true_and]
  · rw [if_neg long]
    by_cases off : 0 < kept.offCnt
    · rw [if_pos off, bootForceCalib_dsoc]
      simp only [ComparesFar, bootLimit, long, off, if_false, true_and]
    · rw [if_neg off, bootFinish_dsoc]
      simp only [ComparesFar, off, false_and, if_false]

/-- The display after the start-up is the expected one exactly where the voltage counts for the
driver as it should, and then shows an empty battery. -/
theorem rsocInit_expected_iff (boot : Rk817Boot) (connected : kept.batCon = false)
    (running : isRk817BatLastHalt cfg kept = false) (uninitialised : kept.fgInit = false) :
    (rk817BatRsocInit cfg maxSocOffset kept boot).bat.dsoc =
        expectedDsoc cfg maxSocOffset kept ↔
      let ocvSoc := rk817BatVolToSoc cfg kept.ocvVoltage
      (ComparesFar maxSocOffset kept ocvSoc ↔ VoltageContradicts maxSocOffset kept ocvSoc) ∧
        (VoltageContradicts maxSocOffset kept ocvSoc → ocvSoc = 0) := by
  rw [rk817BatRsocInit_dsoc cfg maxSocOffset kept boot connected running uninitialised,
    expectedDsoc]
  generalize rk817BatVolToSoc cfg kept.ocvVoltage = ocvSoc
  have limit_nonneg : 0 ≤ bootLimit maxSocOffset kept := by
    unfold bootLimit
    split <;> omega
  have distance := abs_nonneg (ocvSoc - kept.savedDsoc)
  have distance' := abs_nonneg (1000 * ocvSoc - kept.savedDsoc)
  by_cases far : ComparesFar maxSocOffset kept ocvSoc <;>
    by_cases contradicts : VoltageContradicts maxSocOffset kept ocvSoc
  · simp only [far, contradicts, if_true, iff_self, true_and, true_implies]
    omega
  · -- a percentage equal to the saved number is far from it only where the limit is zero
    have different : ocvSoc ≠ kept.savedDsoc := fun equal => by
      have zero := far.2
      rw [equal, sub_self, abs_zero] at zero
      exact contradicts ⟨far.1, by omega⟩
    simp only [far, contradicts, if_true, if_false, iff_false, not_true_eq_false, false_and]
    exact different
  · have different : kept.savedDsoc ≠ 1000 * ocvSoc := fun equal => by
      have zero := contradicts.2
      rw [equal, sub_self, abs_zero] at zero
      exact far ⟨contradicts.1, by omega⟩
    simp only [far, contradicts, if_true, if_false, false_iff, not_true_eq_false, false_and,
      iff_false]
    exact different
  · simp only [far, contradicts, if_false, iff_self, true_and, false_implies]

/-! ### A rested battery -/

/-- The pack rested for an hour, half full. -/
def restedPack (savedDsoc : ℤ) : Rk817Kept :=
  { batCon := false, offCnt := 60, pwronVoltage := 3790, ocvVoltage := 3800
    savedDsoc, remainCapReg := 12000, qPress := capacityToAdc 12000 2
    haltCnt := 0, fgInit := false }

def largePackBoot : Rk817Boot :=
  { bat := largePackAllocated, nac := 0, pwroffMin := 0, isFirstPowerOn := false, isHalt := false
    haltCnt := 0, isInitialized := false, isOcvCalib := false, isMaxSocOffset := false
    isForceCalib := false, ocvPreDsoc := 0, ocvNewDsoc := 0, forcePreDsoc := 0
    forceNewDsoc := 0 }

theorem rsocInit_expected_restedPack :
    (rk817BatRsocInit largePack 60 (restedPack 40) largePackBoot).bat.dsoc =
      expectedDsoc largePack 60 (restedPack 40) :=
  (rsocInit_expected_iff largePack 60 (restedPack 40) largePackBoot rfl (by decide) rfl).mpr
    (by decide)

/-- A half full battery that was saved as half full is displayed as all but empty. -/
theorem half_full_displayed_empty :
    isRk817BatLastHalt largePack (restedPack 50000) = false ∧
      rk817BatVolToSoc largePack (restedPack 50000).ocvVoltage = 50 ∧
      expectedDsoc largePack 60 (restedPack 50000) = 50000 ∧
      (rk817BatRsocInit largePack 60 (restedPack 50000) largePackBoot).bat.dsoc = 50 := by
  decide

end Power
end RockchipSoc
