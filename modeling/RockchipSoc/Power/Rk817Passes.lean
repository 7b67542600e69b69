import RockchipSoc.Power.Rk817Device

/-!
# The passes of the rk817 battery driver in machine words

A monitor pass updates the readings, moves the displayed charge and publishes it; a suspend and a
resume keep the books of a sleep.
-/

namespace RockchipSoc
namespace Power
namespace Words

open Inquiry

/-- `get_boot_sec`. -/
def getBootSec : Program UInt64 := query Reading.bootSec

/-- `base2sec`: the time is read a second time for the difference. -/
def base2sec (x : UInt64) : Program UInt64 :=
  if x ≠ 0 then do
    let now ← getBootSec
    if now > x then do
      let later ← getBootSec
      pure (later - x)
    else pure 0
  else pure 0

/-- The start of a delay: the time now, unless it was noted before. -/
def startOf (base : UInt64) : Program UInt64 := if base = 0 then getBootSec else pure base

variable (dev : Rk817Device)

/-! ## The smooth algorithm -/

/-- How fast the displayed charge follows the counter. -/
def smLinekFor (bat : Rk817State) (currentAvg : Int32) : Program Int32 :=
  let delta := (bat.dsoc - bat.rsoc).abs
  let diff := delta * 3
  if currentAvg > 0 then
    if bat.dsoc < bat.rsoc then divide (1000 * (delta + diff)) (nonzero diff)
    else if bat.dsoc > bat.rsoc then divide (1000 * diff) (nonzero (delta + diff))
    else pure 1000
  else
    if bat.dsoc < bat.rsoc then divide (-1000 * diff) (nonzero (delta + diff))
    else if bat.dsoc > bat.rsoc then divide (-1000 * (delta + diff)) (nonzero diff)
    else pure (-1000)

/-- `rk817_bat_calc_sm_linek`. -/
def rk817BatCalcSmLinek (bat : Rk817State) : Program Rk817State := do
  let currentAvg ← rk817BatGetAvgCurrent dev (query Reading.batCur)
  let linek ← smLinekFor bat currentAvg
  pure { bat with smLinek := linek, smRemainCap := bat.remainCap.toInt32 }

/-- `rk817_bat_smooth_algo_prepare`. -/
def rk817BatSmoothAlgoPrepare (bat : Rk817State) : Program Rk817State :=
  rk817BatCalcSmLinek dev { bat with smoothSoc := bat.dsoc }

/-- `rk817_bat_calc_smooth_dischrg`. -/
def rk817BatCalcSmoothDischrg (bat : Rk817State) : Rk817State :=
  let bat := if bat.smoothSoc < 0 then { bat with smoothSoc := 0 } else bat
  if bat.smoothSoc / 1000 ≠ bat.dsoc / 1000 then
    if bat.smoothSoc > bat.dsoc then bat
    else
      let dsoc := if bat.smoothSoc + 1000 > bat.dsoc then bat.smoothSoc else bat.dsoc - 1000
      { bat with dsoc := if dsoc ≤ 0 then 0 else dsoc }
  else bat

/-- The charging half of `rk817_bat_smooth_algorithm`; the flag is its early return. -/
def calcSmoothChrg (bat : Rk817State) : Rk817State × Bool :=
  let bat := if bat.smoothSoc < 0 then { bat with smoothSoc := 0 } else bat
  if bat.smoothSoc / 1000 ≠ bat.dsoc / 1000 then
    if bat.smoothSoc < bat.dsoc then (bat, true)
    else ({ bat with dsoc := if bat.smoothSoc ≤ 0 then 0 else bat.smoothSoc }, false)
  else (bat, false)

/-- The end of `rk817_bat_smooth_algorithm`. -/
def smoothResumed (bat : Rk817State) : Program Rk817State :=
  if bat.s2r then rk817BatCalcSmLinek dev { bat with s2r := false } else pure bat

/-- The shadow is moved and the displayed charge follows it. -/
def smoothMove (ydsoc : Int32) (bat : Rk817State) : Program Rk817State :=
  let bat := { bat with
    smRemainCap := bat.remainCap.toInt32
    smoothSoc := bat.smoothSoc + ydsoc }
  if ydsoc < 0 then smoothResumed dev (rk817BatCalcSmoothDischrg bat)
  else
    match calcSmoothChrg bat with
    | (bat, true) => pure bat
    | (bat, false) => smoothResumed dev bat

/-- A speed with the wrong sign is computed again. -/
def smoothSwitched (bat : Rk817State) : Program Rk817State :=
  if bat.smLinek * bat.currentAvg ≤ 0 then rk817BatCalcSmLinek dev bat else pure bat

/-- `rk817_bat_smooth_algorithm`. -/
def rk817BatSmoothAlgorithm (bat : Rk817State) : Program Rk817State := do
  let bat ← smoothSwitched dev bat
  let remainCap ← rk817BatGetCapacityUah dev
  let bat := { bat with remainCap }
  let deltaCap := (remainCap - bat.smRemainCap.toUInt32).toInt32
  if deltaCap = 0 then pure bat
  else
    let ydsoc ← divide (bat.smLinek * (deltaCap / 10).abs) (nonzero dev.fcc)
    if ydsoc = 0 then pure bat else smoothMove dev ydsoc bat

/-! ## The zero algorithm -/

/-- The corrections of the speed of the zero algorithm. -/
def adjustZeroLinek (bat : Rk817State) (xsoc minGapXsoc linek : Int32) : Int32 :=
  let soc := bat.dsoc / 1000
  if dev.pdata.energyMode ≠ 0 ∧ xsoc - soc ≥ 3 ∧ soc ≤ 10 ∧ linek < 300 then 300
  else if xsoc - soc ≥ minGapXsoc ∨ (xsoc - soc ≥ 5 ∧ soc ≤ 10 ∧ xsoc > 15) then
    if xsoc ≤ 20 ∧ soc.toUInt32 ≥ dev.pdata.zeroReserveDsoc then 1200
    else if xsoc - soc ≥ 2 * minGapXsoc then 400
    else if xsoc - soc ≥ 3 + minGapXsoc then 600
    else 800
  else if linek > 1800 ∧ soc > 70 then 1800
  else if linek > 1000 ∧ linek < 1200 then 1200
  else if soc ≤ 15 ∧ bat.dsoc > 5 ∧ linek ≤ 1200 then
    if xsoc - soc ≥ minGapXsoc then 800 else 1200
  else if linek < 1000 ∧ soc ≥ 5 then
    if xsoc - soc < minGapXsoc then 1200
    else if bat.currentAvg.abs > 500 then 900
    else 1000
  else if linek < 1000 ∧ soc ≤ 5 then
    if xsoc - soc ≤ 3 then 1200 else 800
  else linek

/-- The charge to be kept in reserve. -/
def zeroMinGapXsoc (bat : Rk817State) (currentAvg xsoc : Int32) : Int32 :=
  let gap := if currentAvg.abs > 1400 then 3 else if currentAvg.abs > 600 then 5 else 10
  if xsoc ≤ 30 ∧ bat.dsoc.toUInt32 ≥ dev.pdata.zeroReserveDsoc then gap + 5 else gap

/-- No charge is left at this voltage: the displayed charge drops every fifteen seconds. -/
def zeroDrop (bat : Rk817State) : Program Rk817State := do
  let base ← startOf bat.zeroDropSec
  let bat := { bat with zeroLinek := 1000, zeroDropSec := base }
  let waited ← base2sec base
  if waited ≥ 15 then
    let dsoc := if bat.dsoc - 1000 < 0 then 0 else bat.dsoc - 1000
    pure { bat with zeroDropSec := 0, dsoc := dsoc, zeroDsoc := dsoc }
  else pure bat

/-- The speed of the zero algorithm for the charge that is left. -/
def zeroSpeed (currentAvg xsoc : Int32) (bat : Rk817State) : Program Rk817State :=
  if bat.dsoc / 1000 ≤ 1 ∧ xsoc > 0 then pure { bat with zeroLinek := 400, zeroDropSec := 0 }
  else if xsoc ≥ 0 then do
    let linek ← divide (bat.zeroDsoc + xsoc / 2) (nonzero xsoc)
    let minGapXsoc := zeroMinGapXsoc dev bat currentAvg xsoc
    pure { bat with
      zeroLinek := adjustZeroLinek dev bat xsoc minGapXsoc linek
      zeroDropSec := 0 }
  else zeroDrop bat

/-- The end of `rk817_bat_calc_zero_linek`: nothing is displayed after half a minute far below the
power-off voltage. -/
def shutdownDrop (voltageAvg pwroffVol : Int32) (bat : Rk817State) : Program Rk817State :=
  if voltageAvg < pwroffVol - 70 then do
    let base ← startOf bat.shtdDropSec
    let waited ← base2sec base
    if waited > 30 then pure { bat with shtdDropSec := 0, dsoc := 0 }
    else pure { bat with shtdDropSec := base }
  else pure { bat with shtdDropSec := 0 }

/-- `rk817_bat_calc_zero_linek`.  The resistance of the power path is only printed. -/
def rk817BatCalcZeroLinek (bat : Rk817State) : Program Rk817State := do
  let pwroffVol :=
    if bat.currentAvg.abs < 400 ∧ bat.dsoc / 1000 > 5 then (dev.pdata.pwroffVol + 50).toInt32
    else dev.pdata.pwroffVol.toInt32
  let voltageAvg ← rk817BatGetBatteryVoltage dev bat
  let currentAvg ← rk817BatGetAvgCurrent dev (query Reading.zeroCur)
  let vsys := voltageAvg + currentAvg * 50 / 1000
  let _powerpatchRes ← divide ((voltageAvg - vsys) * 1000) currentAvg
  let deadVoltage := pwroffVol - currentAvg * (dev.batRes + 50) / 1000
  let ocvVoltage := voltageAvg - currentAvg * dev.batRes / 1000
  let deadSoc ← rk817BatVolToSoc dev deadVoltage
  let _deadCap ← rk817BatVolToCap dev deadVoltage
  let ocvSoc ← rk817BatVolToSoc dev ocvVoltage
  let ocvCap ← rk817BatVolToCap dev ocvVoltage
  let bat ← zeroSpeed dev currentAvg (ocvSoc - deadSoc) { bat with
    zeroBatocvToCap := ocvCap
    zeroRemainCap := bat.remainCap.toInt32
    zeroTimeoutCnt := 0 }
  shutdownDrop voltageAvg pwroffVol bat

/-- `rk817_bat_zero_algo_prepare`. -/
def rk817BatZeroAlgoPrepare (bat : Rk817State) : Program Rk817State :=
  rk817BatCalcZeroLinek dev { bat with
    zeroDsoc := if bat.zeroDsoc / 1000 ≠ bat.smoothSoc / 1000 then bat.smoothSoc else bat.zeroDsoc }

/-- `rk817_bat_calc_zero_algorithm`. -/
def rk817BatCalcZeroAlgorithm (bat : Rk817State) : Rk817State :=
  if bat.zeroDsoc / 1000 = bat.dsoc / 1000 then bat
  else if bat.zeroDsoc > bat.dsoc then bat
  else if bat.zeroDsoc < bat.dsoc - 1000 then { bat with dsoc := bat.dsoc - 1000 }
  else { bat with dsoc := bat.zeroDsoc }

/-- The shadow of the zero algorithm moves once enough has been used, or after a while. -/
def zeroMove (bat : Rk817State) : Program Rk817State := do
  let bat := { bat with zeroTimeoutCnt := bat.zeroTimeoutCnt + 1 }
  let deltaCap := (bat.zeroRemainCap.toUInt32 - bat.remainCap).toInt32
  let used ← divide (bat.zeroLinek * deltaCap) (nonzero dev.fcc)
  let deltaSoc := used / 10
  if deltaSoc ≥ 10 ∨ bat.zeroTimeoutCnt > 100 ∨ bat.zeroLinek = 0 then
    rk817BatCalcZeroLinek dev (rk817BatCalcZeroAlgorithm
      { bat with zeroTimeoutCnt := 0, zeroDsoc := bat.zeroDsoc - deltaSoc })
  else pure bat

/-- `rk817_bat_zero_algorithm`.  An empty counter is set by the voltage. -/
def rk817BatZeroAlgorithm (bat : Rk817State) : Program Rk817State := do
  let bat ← zeroMove dev bat
  if bat.rsoc / 1000 < 1 ∧ bat.zeroBatocvToCap > dev.fcc / 100 then
    let bat ← rk817BatInitCoulombCap dev bat.zeroBatocvToCap.toUInt32 bat
    rk817BatCalcZeroLinek dev bat
  else pure bat

/-! ## The finish algorithm -/

/-- `rk817_bat_finish_algo_prepare`. -/
def rk817BatFinishAlgoPrepare (bat : Rk817State) : Program Rk817State := do
  let now ← getBootSec
  pure { bat with finishBase := if now = 0 then 1 else now }

/-- A finished charge sets the counter to the capacity. -/
def finishLimit (bat : Rk817State) : Program Rk817State :=
  if bat.remainCap ≠ dev.fcc.toUInt32 then do
    let status ← rk817BatGetChargeStatus dev bat
    if status = .chargeFinish then
      let bat ← rk817BatInitCoulombCap dev dev.fcc.toUInt32 bat
      let _ ← rk817BatGetCapacityMah dev
      pure bat
    else pure bat
  else pure bat

/-- The seconds that one percent takes at a charging current. -/
def finishSocSec (finishCurrent : Int32) : Program UInt64 := do
  let socSec ← divide (dev.fcc * 3600 / 100) (nonzero finishCurrent)
  pure socSec.toInt64.toUInt64

/-- The start of the seconds that are left over once whole percents are displayed. -/
def finishRest (rest : UInt64) : Program UInt64 := do
  let now ← getBootSec
  if now > rest then
    let later ← getBootSec
    pure (later - rest)
  else pure now

/-- The percents reached since the start are displayed. -/
def finishCount (bat : Rk817State) : Program Rk817State := do
  let base ← startOf bat.finishBase
  let bat := { bat with finishBase := base }
  let finishCurrent := if bat.rsoc - bat.dsoc > 20 then 1500 else 1000
  let finishSec ← base2sec base
  let socSec ← finishSocSec dev finishCurrent
  let plusSoc ← divide finishSec (nonzero socSec)
  if finishSec > socSec then
    let rest ← remainder finishSec socSec
    let base ← finishRest rest.toUInt32.toInt32.toInt64.toUInt64
    pure { bat with dsoc := bat.dsoc + plusSoc.toUInt32.toInt32 * 1000, finishBase := base }
  else pure bat

/-- `rk817_bat_finish_algorithm`. -/
def rk817BatFinishAlgorithm (bat : Rk817State) : Program Rk817State := do
  let bat ← finishLimit dev bat
  if bat.dsoc < 100 * 1000 then finishCount dev bat else pure bat

/-! ## A monitor pass -/

/-- A counter above the capacity is set back to it. -/
def limitToFcc (bat : Rk817State) : Program Rk817State :=
  if bat.remainCap / 1000 > dev.fcc.toUInt32 then do
    let bat := { bat with smRemainCap := dev.fcc * 1000 }
    let bat ← rk817BatInitCoulombCap dev (dev.fcc + 100).toUInt32 bat
    let bat ← rk817BatInitCoulombCap dev dev.fcc.toUInt32 bat
    let _ ← rk817BatGetCapacityMah dev
    pure bat
  else pure bat

/-- `rk817_bat_update_info`. -/
def rk817BatUpdateInfo (bat : Rk817State) : Program Rk817State := do
  let voltageAvg ← rk817BatGetBatteryVoltage dev bat
  let _voltageSys ← rk817BatGetSysVoltage dev bat
  let currentAvg ← rk817BatGetAvgCurrent dev (query Reading.batCur)
  let voltageRelax ← rk817BatGetRelaxVoltage bat
  let rsoc ← rk817BatGetRsoc dev
  let remainCap ← rk817BatGetCapacityUah dev
  let bat := { bat with
    voltageAvg, currentAvg, rsoc, remainCap
    voltageRelax := voltageRelax.toUInt32.toInt32 }
  let _voltageUsb ← rk817BatGetUsbVoltage dev bat
  let chrgStatus ← rk817BatGetChargeStatus dev bat
  let bat ← limitToFcc dev bat
  if chrgStatus ≠ .chargeFinish then
    let now ← getBootSec
    pure { bat with finishBase := now }
  else pure bat

/-- `rk817_bat_lowpwr_check`: the displayed charge drops while the voltage is far too low. -/
def rk817BatLowpwrCheck (bat : Rk817State) : Rk817State :=
  let pwrOffThresd := dev.pdata.pwroffVol.toInt32
  if bat.currentAvg < 0 ∧ bat.voltageAvg < pwrOffThresd ∧ bat.voltageAvg ≤ pwrOffThresd - 50 then
    { bat with dsoc := bat.dsoc - 1000 }
  else bat

/-- Whether the charge is finished, or looks like it. -/
def finished (bat : Rk817State) : Program Bool := do
  let status ← rk817BatGetChargeStatus dev bat
  if status = .chargeFinish then pure true else rk817BatFakeFinishMode dev bat

/-- The voltage is so low, while the battery is discharged, that it shows what is left. -/
def nearZero (bat : Rk817State) : Prop :=
  bat.currentAvg < 0 ∧ bat.voltageAvg.toUInt32 < dev.pdata.zeroAlgorithmVol

instance (bat : Rk817State) : Decidable (nearZero dev bat) := inferInstanceAs (Decidable (_ ∧ _))

/-- A mode is entered once its algorithm is prepared. -/
def enter (workMode : WorkMode) (prepare : Rk817State → Program Rk817State) (bat : Rk817State) :
    Program Rk817State := do
  let bat ← prepare bat
  pure { bat with workMode }

/-- `rk817_bat_display_smooth`: one step of the algorithm of the mode, and the next mode. -/
def rk817BatDisplaySmooth (bat : Rk817State) : Program Rk817State :=
  if bat.s2r ∧ ¬bat.sleepChrgOnline then do
    let bat ← rk817BatZeroAlgoPrepare dev { bat with s2r := false }
    rk817BatSmoothAlgoPrepare dev bat
  else
    match bat.workMode with
    | .finish => do
        let bat ← rk817BatFinishAlgorithm dev bat
        let still ← finished dev bat
        if ¬still then
          if nearZero dev bat then enter .zero (rk817BatZeroAlgoPrepare dev) bat
          else enter .smooth (rk817BatSmoothAlgoPrepare dev) bat
        else pure bat
    | .zero => do
        let bat ← rk817BatZeroAlgorithm dev bat
        if bat.voltageAvg.toUInt32 ≥ dev.pdata.zeroAlgorithmVol + 50 ∨ bat.currentAvg ≥ 0 then
          enter .smooth (rk817BatSmoothAlgoPrepare dev) bat
        else
          let now ← finished dev bat
          if now then enter .finish rk817BatFinishAlgoPrepare bat else pure bat
    | _ => do
        let bat ← rk817BatSmoothAlgorithm dev bat
        if nearZero dev bat then enter .zero (rk817BatZeroAlgoPrepare dev) bat
        else
          let now ← finished dev bat
          if now then enter .finish rk817BatFinishAlgoPrepare bat else pure bat

/-- The clamping of `rk817_bat_power_supply_changed`. -/
def rk817BatPowerSupplyChanged (bat : Rk817State) : Rk817State :=
  if bat.dsoc > 100 * 1000 then { bat with dsoc := 100 * 1000 }
  else if bat.dsoc < 0 then { bat with dsoc := 0 }
  else bat

/-- `rk817_battery_work`: one monitor pass. -/
def rk817BatteryWork (bat : Rk817State) : Program Rk817State := do
  let bat ← rk817BatUpdateInfo dev bat
  let bat ← rk817BatDisplaySmooth dev (rk817BatLowpwrCheck dev bat)
  let bat := rk817BatPowerSupplyChanged bat
  let calibrated : Bool ← query Reading.curCalibUpd
  if calibrated then rk817BatInitVoltageKb dev bat else pure bat

/-! ## Suspend and resume -/

/-- `rk817_bat_pm_suspend`. -/
def rk817BatPmSuspend (bat : Rk817State) : Program Rk817State := do
  let bat := { bat with s2r := false }
  let status ← rk817BatGetChargeStatus dev bat
  let currentAvg ← rk817BatGetAvgCurrent dev (query Reading.batCur)
  let sleepChrgOnline : Bool := currentAvg > 0 ∨ status = .ccOrCvChrg ∨ status = .chargeFinish
  let remainCap ← rk817BatGetCapacityUah dev
  let rsoc ← rk817BatGetRsoc dev
  let rtcBase : Int64 ← query Reading.rtcSec
  let bat := { bat with currentAvg, sleepChrgOnline, remainCap, rsoc, rtcBase }
  if status = .chargeFinish then
    if bat.workMode = .zero ∧ currentAvg ≥ 0 then
      let now ← getBootSec
      pure { bat with workMode := .finish, finishBase := now }
    else pure bat
  else
    let now ← getBootSec
    let bat := { bat with finishBase := now }
    if bat.workMode = .zero ∧ currentAvg ≥ 0 then
      rk817BatSmoothAlgoPrepare dev { bat with workMode := .smooth }
    else pure bat

/-- `rk817_bat_init_capacity`. -/
def rk817BatInitCapacity (cap : UInt32) (bat : Rk817State) : Program Rk817State :=
  if cap - bat.remainCap = 0 then pure bat
  else do
    let bat ← rk817BatInitCoulombCap dev cap bat
    let bat ← rk817BatSmoothAlgoPrepare dev bat
    rk817BatZeroAlgoPrepare dev bat

/-- `rk817_bat_relax_vol_calib`. -/
def rk817BatRelaxVolCalib (bat : Rk817State) : Program Rk817State := do
  let _soc ← rk817BatVolToSoc dev bat.voltageRelax
  let cap ← rk817BatVolToCap dev bat.voltageRelax
  rk817BatInitCapacity dev cap.toUInt32 bat

/-- What `rk817_bat_relife_age_flag` computes; the age itself is not followed. -/
def rk817BatRelifeAgeFlag (bat : Rk817State) : Program Unit :=
  if bat.voltageRelax ≤ 0 then pure ()
  else do
    let _ocvSoc ← rk817BatVolToSoc dev bat.voltageRelax
    let _ocvCap ← rk817BatVolToCap dev bat.voltageRelax
    pure ()

/-- The charge taken by a sleep at a current. -/
def sleepSumCap (bat : Rk817State) (sleepCur : UInt64) : Int32 :=
  (sleepCur * bat.sleepDischrgSec / 3600).toUInt32.toInt32

/-- The displayed charge after a sleep that began at or below the charge of the counter. -/
def sleepBelow (bat : Rk817State) : Program (Int32 × Int32) := do
  let sum := sleepSumCap bat (if dev.pdata.lowPwrSleep ≠ 0 then 1 else 6)
  let sleepSoc ← divide (sum * 100) (nonzero dev.fcc)
  let tgtDsoc := bat.dsoc - sleepSoc * 1000
  let dsoc :=
    if sleepSoc > 0 then
      if bat.dsoc / 1000 < 5 then bat.dsoc - 1000
      else if tgtDsoc / 1000 < 5 ∧ bat.dsoc / 1000 ≥ 5 then
        if bat.dsoc / 1000 = 5 then bat.dsoc - 1000 else 5 * 1000
      else if tgtDsoc / 1000 > 5 then tgtDsoc
      else bat.dsoc
    else bat.dsoc
  pure (sleepSoc, dsoc)

/-- The displayed charge after a sleep that began above the charge of the counter. -/
def sleepAbove (bat : Rk817State) : Program (Int32 × Int32) := do
  let sum := sleepSumCap bat (if dev.pdata.lowPwrSleep ≠ 0 then 20 else 40)
  let sleepSoc ← divide sum (nonzero (dev.fcc / 100))
  let gapSoc := bat.dsoc - bat.rsoc
  let dsoc :=
    if gapSoc / 1000 > sleepSoc then
      if gapSoc - 5000 > sleepSoc * 2 * 1000 then bat.dsoc - sleepSoc * 2 * 1000
      else bat.dsoc - sleepSoc * 1000
    else bat.rsoc
  pure (sleepSoc, dsoc)

/-- The corrections at the end of `rk817_bat_sleep_dischrg`. -/
def sleepCorrected (bat : Rk817State) (ocvSocUpdated : Bool) (sleepSoc dsoc : Int32) : Int32 :=
  let dsoc := if bat.voltageAvg ≤ dev.pdata.pwroffVol.toInt32 - 70 then 0 else dsoc
  let dsoc :=
    if ocvSocUpdated ∧ sleepSoc ≠ 0 ∧ bat.rsoc - dsoc < 5000 ∧ dsoc < 40 * 1000 then dsoc - 1000
    else dsoc
  if dsoc ≤ 0 then 0 else dsoc

/-- A relaxed voltage at the end of a sleep sets the counter. -/
def sleepCalib (ocvSocUpdated : Bool) (bat : Rk817State) : Program Rk817State :=
  if ocvSocUpdated then do
    let bat ← rk817BatRelaxVolCalib dev bat
    rk817BatRelifeAgeFlag dev bat
    pure bat
  else pure bat

/-- What a sleep has used, and the displayed charge after it. -/
def sleepUsed (bat : Rk817State) : Program (Int32 × Int32) :=
  if bat.dsoc ≤ bat.rsoc then sleepBelow dev bat else sleepAbove dev bat

/-- `rk817_bat_sleep_dischrg`: what a sleep has used; the charge is also the return value. -/
def rk817BatSleepDischrg (bat : Rk817State) : Program (Int32 × Rk817State) := do
  let ocvSocUpdated : Bool := bat.voltageRelax ≥ bat.voltageAvg
  let bat ← sleepCalib dev ocvSocUpdated bat
  let slept ← sleepUsed dev bat
  pure (slept.1, { bat with dsoc := sleepCorrected dev bat ocvSocUpdated slept.1 slept.2 })

/-- `rk817_bat_rtc_sleep_sec`. -/
def rk817BatRtcSleepSec (bat : Rk817State) : Program Int32 := do
  let now : Int64 ← query Reading.rtcSec
  let intervalSec := (now - bat.rtcBase).toInt32
  pure (if intervalSec > 0 then intervalSec else 0)

/-- The sleep after which the display is corrected; a low battery is looked at sooner. -/
def sleepTimeStep (bat : Rk817State) : UInt64 :=
  if bat.voltageAvg ≤ dev.pdata.pwroffVol.toInt32 + 50 then 600 else 3600

/-- A sleep without a charger, once it is long enough, is accounted for. -/
def resumeSleep (bat : Rk817State) : Program Rk817State :=
  if bat.sleepDischrgSec > sleepTimeStep dev bat then do
    let slept ← rk817BatSleepDischrg dev bat
    pure (if slept.1 ≠ 0 then { slept.2 with sleepDischrgSec := 0 } else slept.2)
  else pure bat

/-- `rk817_bat_resume_work`. -/
def rk817BatResumeWork (bat : Rk817State) : Program Rk817State := do
  let currentAvg ← rk817BatGetAvgCurrent dev (query Reading.batCur)
  let voltageRelax ← rk817BatGetRelaxVoltage bat
  let voltageAvg ← rk817BatGetBatteryVoltage dev bat
  let remainCap ← rk817BatGetCapacityUah dev
  let rsoc ← rk817BatGetRsoc dev
  let bat := { bat with
    currentAvg, voltageAvg, remainCap, rsoc
    s2r := true
    voltageRelax := voltageRelax.toUInt32.toInt32 }
  let intervalSec ← rk817BatRtcSleepSec bat
  if bat.sleepChrgOnline then pure bat
  else
    resumeSleep dev
      { bat with sleepDischrgSec := bat.sleepDischrgSec + intervalSec.toInt64.toUInt64 }

/-! ## Runs -/

inductive Pass
  | monitor | suspend | resume
  deriving DecidableEq

def runPass (bat : Rk817State) : Pass → Program Rk817State
  | .monitor => rk817BatteryWork dev bat
  | .suspend => rk817BatPmSuspend dev bat
  | .resume => rk817BatResumeWork dev bat

/-- Passes one after the other, in any order. -/
def runPasses (bat : Rk817State) : List Pass → Program Rk817State
  | [] => pure bat
  | pass :: passes => do
      let bat ← runPass dev bat pass
      runPasses bat passes

end Words
end Power
end RockchipSoc
