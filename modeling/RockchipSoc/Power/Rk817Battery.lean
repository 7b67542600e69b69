import RockchipSoc.Power.Rk817Gauge

/-!
# The displayed charge of the rk817 battery driver

`dsoc` is what the user sees, in thousandths of a percent.  Three algorithms move it, each with a
shadow of its own: `smoothSoc` follows the coulomb counter, `zeroDsoc` follows the voltage near
the end of the discharge, and the finish algorithm counts seconds.  A monitor pass reads the
hardware, runs the algorithm of the current mode and publishes the result.
-/

namespace RockchipSoc
namespace Power

open CInt

inductive WorkMode
  | zero | finish | smoothChrg | smoothDischrg | smooth
  deriving DecidableEq, Repr

/-- The charger states that the driver distinguishes. -/
inductive ChargeStatus
  | chrgOff | deadChrg | trickleChrg | ccOrCvChrg | chargeFinish | usbOverVol | batTmpErr
  | batTimErr
  deriving DecidableEq, Repr

/-- What the hardware shows during one pass.  Voltage and current are read again later in the
pass; the coulomb counter keeps counting, and gains less than 5 Ah while one pass runs. -/
structure Rk817Sample (cfg : Rk817Data) where
  voltage : ℤ
  current : ℤ
  laterVoltage : ℤ
  laterCurrent : ℤ
  relaxVoltage : ℤ
  chgSts : ChargeStatus
  pluginTrigger : Bool
  qPress : ℕ
  counted : ℕ → ℕ
  bootSec : ℕ
  rtcSec : ℤ
  counted_le : ∀ q, rk817BatGetCapacityUah cfg (counted q) ≤
    rk817BatGetCapacityUah cfg q + 5000000

/-- `struct rk817_battery_device`, with the register of the coulomb counter.  `passSec` is the
boot time of the last monitor pass; the driver does not keep it. -/
structure Rk817Battery where
  workMode : WorkMode
  dsoc : ℤ
  rsoc : ℤ
  remainCap : ℤ
  smRemainCap : ℤ
  smLinek : ℤ
  smoothSoc : ℤ
  zeroDsoc : ℤ
  zeroLinek : ℤ
  zeroRemainCap : ℤ
  zeroTimeoutCnt : ℤ
  zeroBatocvToCap : ℤ
  zeroDropSec : ℕ
  shtdDropSec : ℕ
  finishBase : ℕ
  s2r : Bool
  sleepChrgOnline : Bool
  sleepDischrgSec : ℕ
  rtcBase : ℤ
  voltageAvg : ℤ
  currentAvg : ℤ
  voltageRelax : ℤ
  qPress : ℕ
  passSec : ℕ

variable (cfg : Rk817Data)

/-- `base2sec`. -/
def base2sec (bootSec x : ℕ) : ℕ :=
  if x ≠ 0 then (if bootSec > x then bootSec - x else 0) else 0

/-- `rk817_bat_get_charge_status`. -/
def rk817BatGetChargeStatus (hw : Rk817Sample cfg) (bat : Rk817Battery) : ChargeStatus :=
  if cfg.isRk809 then
    if u32 bat.voltageAvg > cfg.designMaxVoltage ∧ bat.currentAvg > 0 ∧
        (bat.currentAvg < 500 ∨ cdiv bat.rsoc 1000 = 100) then .chargeFinish
    else if hw.pluginTrigger then .ccOrCvChrg
    else .chrgOff
  else if hw.chgSts = .ccOrCvChrg ∧ bat.rsoc = 100 * 1000 then .chargeFinish
  else hw.chgSts

/-- `rk817_bat_fake_finish_mode`. -/
def rk817BatFakeFinishMode (hw : Rk817Sample cfg) (bat : Rk817Battery) : Bool :=
  bat.rsoc = 100 ∧ rk817BatGetChargeStatus cfg hw bat = .ccOrCvChrg ∧ |bat.currentAvg| ≤ 100

/-- `rk817_bat_get_rsoc`, from a reading of the counter. -/
def rk817BatGetRsoc (qPress : ℕ) : ℤ :=
  cdiv (s32 (rk817BatGetCapacityUah cfg qPress * 100)) (orOne cfg.fcc)

/-- `rk817_bat_init_coulomb_cap`. -/
def rk817BatInitCoulombCap (capacity : ℤ) (bat : Rk817Battery) : Rk817Battery :=
  { bat with
    qPress := capacityToAdc capacity.toNat cfg.resDiv
    rsoc := s32 (u32 (capacity * 1000 * 100) / cfg.fcc)
    remainCap := u32 (capacity * 1000) }

/-- `rk817_bat_calc_sm_linek`: how fast the displayed charge follows the counter. -/
def rk817BatCalcSmLinek (hw : Rk817Sample cfg) (bat : Rk817Battery) : Rk817Battery :=
  let delta := |bat.dsoc - bat.rsoc|
  let diff := s32 (delta * 3)
  let linek :=
    if hw.laterCurrent > 0 then
      if bat.dsoc < bat.rsoc then cdiv (s32 (1000 * (delta + diff))) (orOne diff)
      else if bat.dsoc > bat.rsoc then cdiv (s32 (1000 * diff)) (orOne (delta + diff))
      else 1000
    else
      if bat.dsoc < bat.rsoc then cdiv (s32 (-1000 * diff)) (orOne (delta + diff))
      else if bat.dsoc > bat.rsoc then cdiv (s32 (-1000 * (delta + diff))) (orOne diff)
      else -1000
  { bat with smLinek := linek, smRemainCap := bat.remainCap }

/-- `rk817_bat_smooth_algo_prepare`. -/
def rk817BatSmoothAlgoPrepare (hw : Rk817Sample cfg) (bat : Rk817Battery) : Rk817Battery :=
  rk817BatCalcSmLinek cfg hw { bat with smoothSoc := bat.dsoc }

/-- `rk817_bat_finish_algo_prepare`. -/
def rk817BatFinishAlgoPrepare (hw : Rk817Sample cfg) (bat : Rk817Battery) : Rk817Battery :=
  { bat with finishBase := if hw.bootSec = 0 then 1 else hw.bootSec }

/-- The readings of `rk817_bat_update_info`. -/
def updateRead (hw : Rk817Sample cfg) (bat : Rk817Battery) : Rk817Battery :=
  { bat with
    voltageAvg := hw.voltage
    currentAvg := hw.current
    voltageRelax := hw.relaxVoltage
    rsoc := rk817BatGetRsoc cfg hw.qPress
    remainCap := rk817BatGetCapacityUah cfg hw.qPress
    qPress := hw.qPress }

/-- A counter above the capacity is set back to it. -/
def limitToFcc (bat : Rk817Battery) : Rk817Battery :=
  if bat.remainCap / 1000 > cfg.fcc then
    rk817BatInitCoulombCap cfg cfg.fcc (rk817BatInitCoulombCap cfg (cfg.fcc + 100)
      { bat with smRemainCap := cfg.fcc * 1000 })
  else bat

/-- `rk817_bat_update_info`. -/
def rk817BatUpdateInfo (hw : Rk817Sample cfg) (bat : Rk817Battery) : Rk817Battery :=
  let bat := updateRead cfg hw bat
  if rk817BatGetChargeStatus cfg hw bat ≠ .chargeFinish then
    { limitToFcc cfg bat with finishBase := hw.bootSec }
  else limitToFcc cfg bat

/-- `rk817_bat_lowpwr_check`: the displayed charge drops while the voltage is far too low. -/
def rk817BatLowpwrCheck (bat : Rk817Battery) : Rk817Battery :=
  let pwrOffThresd : ℤ := s32 cfg.pwroffVol
  if bat.currentAvg < 0 ∧ bat.voltageAvg < pwrOffThresd ∧ bat.voltageAvg ≤ pwrOffThresd - 50 then
    { bat with dsoc := bat.dsoc - 1000 }
  else bat

/-- `rk817_bat_calc_smooth_dischrg`. -/
def rk817BatCalcSmoothDischrg (bat : Rk817Battery) : Rk817Battery :=
  let bat := if bat.smoothSoc < 0 then { bat with smoothSoc := 0 } else bat
  if cdiv bat.smoothSoc 1000 ≠ cdiv bat.dsoc 1000 then
    if bat.smoothSoc > bat.dsoc then bat
    else
      let dsoc := if bat.smoothSoc + 1000 > bat.dsoc then bat.smoothSoc else bat.dsoc - 1000
      { bat with dsoc := if dsoc ≤ 0 then 0 else dsoc }
  else bat

/-- The charging half of `rk817_bat_smooth_algorithm`; the flag is its early return. -/
def rk817BatCalcSmoothChrg (bat : Rk817Battery) : Rk817Battery × Bool :=
  let bat := if bat.smoothSoc < 0 then { bat with smoothSoc := 0 } else bat
  if cdiv bat.smoothSoc 1000 ≠ cdiv bat.dsoc 1000 then
    if bat.smoothSoc < bat.dsoc then (bat, true)
    else ({ bat with dsoc := if bat.smoothSoc ≤ 0 then 0 else bat.smoothSoc }, false)
  else (bat, false)

/-- The end of `rk817_bat_smooth_algorithm`: after a resume the speed is computed again. -/
def rk817BatSmoothResumed (hw : Rk817Sample cfg) (bat : Rk817Battery) : Rk817Battery :=
  if bat.s2r then rk817BatCalcSmLinek cfg hw { bat with s2r := false } else bat

/-- A speed with the wrong sign is computed again, then the counter is read. -/
def smoothRead (hw : Rk817Sample cfg) (bat : Rk817Battery) : Rk817Battery :=
  let bat := if bat.smLinek * bat.currentAvg ≤ 0 then rk817BatCalcSmLinek cfg hw bat else bat
  let qPress := hw.counted bat.qPress
  { bat with qPress := qPress, remainCap := rk817BatGetCapacityUah cfg qPress }

/-- The charge by which the smooth algorithm moves its shadow. -/
def smoothYdsoc (bat : Rk817Battery) : ℤ :=
  let deltaCap := bat.remainCap - bat.smRemainCap
  cdiv (s32 (bat.smLinek * |cdiv deltaCap 10|)) (orOne cfg.fcc)

/-- The shadow is moved and the displayed charge follows it. -/
def smoothMove (hw : Rk817Sample cfg) (ydsoc : ℤ) (bat : Rk817Battery) : Rk817Battery :=
  let bat := { bat with
    smRemainCap := bat.remainCap
    smoothSoc := s32 (bat.smoothSoc + ydsoc) }
  if ydsoc < 0 then rk817BatSmoothResumed cfg hw (rk817BatCalcSmoothDischrg bat)
  else
    match rk817BatCalcSmoothChrg bat with
    | (bat, true) => bat
    | (bat, false) => rk817BatSmoothResumed cfg hw bat

/-- `rk817_bat_smooth_algorithm`. -/
def rk817BatSmoothAlgorithm (hw : Rk817Sample cfg) (bat : Rk817Battery) : Rk817Battery :=
  let bat := smoothRead cfg hw bat
  if bat.remainCap - bat.smRemainCap = 0 then bat
  else if smoothYdsoc cfg bat = 0 then bat
  else smoothMove cfg hw (smoothYdsoc cfg bat) bat

/-- The speed of the zero algorithm while some charge is left above the power-off voltage. -/
def zeroLinekFor (bat : Rk817Battery) (xsoc minGapXsoc : ℤ) : ℤ :=
  let soc := cdiv bat.dsoc 1000
  let linek := cdiv (s32 (bat.zeroDsoc + cdiv xsoc 2)) (orOne xsoc)
  if cfg.energyMode ∧ xsoc - soc ≥ 3 ∧ soc ≤ 10 ∧ linek < 300 then 300
  else if xsoc - soc ≥ minGapXsoc ∨ (xsoc - soc ≥ 5 ∧ soc ≤ 10 ∧ xsoc > 15) then
    if xsoc ≤ 20 ∧ u32 soc ≥ cfg.zeroReserveDsoc then 1200
    else if xsoc - soc ≥ 2 * minGapXsoc then 400
    else if xsoc - soc ≥ 3 + minGapXsoc then 600
    else 800
  else if linek > 1800 ∧ soc > 70 then 1800
  else if linek > 1000 ∧ linek < 1200 then 1200
  else if soc ≤ 15 ∧ bat.dsoc > 5 ∧ linek ≤ 1200 then
    if xsoc - soc ≥ minGapXsoc then 800 else 1200
  else if linek < 1000 ∧ soc ≥ 5 then
    if xsoc - soc < minGapXsoc then 1200
    else if |bat.currentAvg| > 500 then 900
    else 1000
  else if linek < 1000 ∧ soc ≤ 5 then
    if xsoc - soc ≤ 3 then 1200 else 800
  else linek

/-- The part of `rk817_bat_calc_zero_linek` for a voltage with no charge left: the displayed
charge drops every fifteen seconds. -/
def zeroDrop (hw : Rk817Sample cfg) (bat : Rk817Battery) : Rk817Battery :=
  let base := if bat.zeroDropSec = 0 then hw.bootSec else bat.zeroDropSec
  let bat := { bat with zeroLinek := 1000, zeroDropSec := base }
  if base2sec hw.bootSec base ≥ 15 then
    let dsoc := if bat.dsoc - 1000 < 0 then 0 else bat.dsoc - 1000
    { bat with zeroDropSec := 0, dsoc := dsoc, zeroDsoc := dsoc }
  else bat

/-- The end of `rk817_bat_calc_zero_linek`: nothing is displayed after half a minute far below
the power-off voltage. -/
def shutdownDrop (hw : Rk817Sample cfg) (pwroffVol : ℤ) (bat : Rk817Battery) : Rk817Battery :=
  if hw.laterVoltage < pwroffVol - 70 then
    let base := if bat.shtdDropSec = 0 then hw.bootSec else bat.shtdDropSec
    if base2sec hw.bootSec base > 30 then { bat with shtdDropSec := 0, dsoc := 0 }
    else { bat with shtdDropSec := base }
  else { bat with shtdDropSec := 0 }

/-- The power-off voltage, with a margin at light load. -/
def zeroPwroffVol (bat : Rk817Battery) : ℤ :=
  if |bat.currentAvg| < 400 ∧ cdiv bat.dsoc 1000 > 5 then s32 (cfg.pwroffVol + 50)
  else s32 cfg.pwroffVol

/-- The open circuit voltage of the battery now. -/
def zeroOcvVoltage (hw : Rk817Sample cfg) : ℤ :=
  hw.laterVoltage - cdiv (s32 (hw.laterCurrent * cfg.batRes)) 1000

/-- The charge left above the power-off voltage. -/
def zeroXsoc (hw : Rk817Sample cfg) (bat : Rk817Battery) : ℤ :=
  let deadVoltage := zeroPwroffVol cfg bat - cdiv (s32 (hw.laterCurrent * (cfg.batRes + 50))) 1000
  rk817BatVolToSoc cfg (zeroOcvVoltage cfg hw) - rk817BatVolToSoc cfg deadVoltage

/-- The charge to be kept in reserve. -/
def zeroMinGapXsoc (hw : Rk817Sample cfg) (bat : Rk817Battery) : ℤ :=
  let gap := if |hw.laterCurrent| > 1400 then 3 else if |hw.laterCurrent| > 600 then 5 else 10
  if zeroXsoc cfg hw bat ≤ 30 ∧ u32 bat.dsoc ≥ cfg.zeroReserveDsoc then gap + 5 else gap

/-- The speed of the zero algorithm. -/
def zeroSpeed (hw : Rk817Sample cfg) (bat : Rk817Battery) : Rk817Battery :=
  let xsoc := zeroXsoc cfg hw bat
  if cdiv bat.dsoc 1000 ≤ 1 ∧ xsoc > 0 then { bat with zeroLinek := 400, zeroDropSec := 0 }
  else if xsoc ≥ 0 then
    { bat with
      zeroLinek := zeroLinekFor cfg bat xsoc (zeroMinGapXsoc cfg hw bat)
      zeroDropSec := 0 }
  else zeroDrop cfg hw bat

/-- `rk817_bat_calc_zero_linek`. -/
def rk817BatCalcZeroLinek (hw : Rk817Sample cfg) (bat : Rk817Battery) : Rk817Battery :=
  shutdownDrop cfg hw (zeroPwroffVol cfg bat) (zeroSpeed cfg hw { bat with
    zeroBatocvToCap := rk817BatVolToCap cfg (zeroOcvVoltage cfg hw)
    zeroRemainCap := bat.remainCap
    zeroTimeoutCnt := 0 })

/-- `rk817_bat_zero_algo_prepare`. -/
def rk817BatZeroAlgoPrepare (hw : Rk817Sample cfg) (bat : Rk817Battery) : Rk817Battery :=
  let zeroDsoc :=
    if cdiv bat.zeroDsoc 1000 ≠ cdiv bat.smoothSoc 1000 then bat.smoothSoc else bat.zeroDsoc
  rk817BatCalcZeroLinek cfg hw { bat with zeroDsoc := zeroDsoc }

/-- `rk817_bat_calc_zero_algorithm`. -/
def rk817BatCalcZeroAlgorithm (bat : Rk817Battery) : Rk817Battery :=
  if cdiv bat.zeroDsoc 1000 = cdiv bat.dsoc 1000 then bat
  else if bat.zeroDsoc > bat.dsoc then bat
  else if bat.zeroDsoc < bat.dsoc - 1000 then { bat with dsoc := bat.dsoc - 1000 }
  else { bat with dsoc := bat.zeroDsoc }

/-- The charge used since the speed was computed, scaled by it. -/
def zeroDeltaSoc (bat : Rk817Battery) : ℤ :=
  let deltaCap := s32 (bat.zeroRemainCap - bat.remainCap)
  cdiv (cdiv (s32 (bat.zeroLinek * deltaCap)) (orOne cfg.fcc)) 10

/-- The shadow of the zero algorithm moves once enough has been used, or after a while. -/
def zeroMove (hw : Rk817Sample cfg) (bat : Rk817Battery) : Rk817Battery :=
  let bat := { bat with zeroTimeoutCnt := s32 (bat.zeroTimeoutCnt + 1) }
  if zeroDeltaSoc cfg bat ≥ 10 ∨ bat.zeroTimeoutCnt > 100 ∨ bat.zeroLinek = 0 then
    rk817BatCalcZeroLinek cfg hw (rk817BatCalcZeroAlgorithm
      { bat with zeroTimeoutCnt := 0, zeroDsoc := s32 (bat.zeroDsoc - zeroDeltaSoc cfg bat) })
  else bat

/-- `rk817_bat_zero_algorithm`.  An empty counter is set by the voltage. -/
def rk817BatZeroAlgorithm (hw : Rk817Sample cfg) (bat : Rk817Battery) : Rk817Battery :=
  let bat := zeroMove cfg hw bat
  if cdiv bat.rsoc 1000 < 1 ∧ bat.zeroBatocvToCap > cdiv cfg.fcc 100 then
    rk817BatCalcZeroLinek cfg hw (rk817BatInitCoulombCap cfg bat.zeroBatocvToCap bat)
  else bat

/-- A finished charge sets the counter to the capacity. -/
def finishLimit (hw : Rk817Sample cfg) (bat : Rk817Battery) : Rk817Battery :=
  if bat.remainCap ≠ cfg.fcc ∧ rk817BatGetChargeStatus cfg hw bat = .chargeFinish then
    rk817BatInitCoulombCap cfg cfg.fcc bat
  else bat

/-- The seconds that one percent takes while the charge is being finished. -/
def finishSocSec (bat : Rk817Battery) : ℕ :=
  let finishCurrent := if bat.rsoc - bat.dsoc > 20 then 1500 else 1000
  (cdiv (cdiv (cfg.fcc * 3600) 100) finishCurrent).toNat

/-- The start of the seconds that have not been displayed yet. -/
def finishStart (hw : Rk817Sample cfg) (bat : Rk817Battery) : ℕ :=
  if bat.finishBase = 0 then hw.bootSec else bat.finishBase

/-- The percents reached since then are displayed. -/
def finishCount (hw : Rk817Sample cfg) (bat : Rk817Battery) : Rk817Battery :=
  let finishSec := base2sec hw.bootSec (finishStart cfg hw bat)
  let socSec := finishSocSec cfg bat
  let plusSoc := s32 (finishSec / (if socSec ≠ 0 then socSec else 1) : ℕ)
  if finishSec > socSec then
    let rest := finishSec % socSec
    { bat with
      dsoc := s32 (bat.dsoc + s32 (plusSoc * 1000))
      finishBase := if hw.bootSec > rest then hw.bootSec - rest else hw.bootSec }
  else { bat with finishBase := finishStart cfg hw bat }

/-- `rk817_bat_finish_algorithm`. -/
def rk817BatFinishAlgorithm (hw : Rk817Sample cfg) (bat : Rk817Battery) : Rk817Battery :=
  let bat := finishLimit cfg hw bat
  if bat.dsoc < 100 * 1000 then finishCount cfg hw bat else bat

/-- `rk817_bat_display_smooth`: one step of the algorithm of the mode, and the next mode. -/
def rk817BatDisplaySmooth (hw : Rk817Sample cfg) (bat : Rk817Battery) : Rk817Battery :=
  if bat.s2r ∧ ¬bat.sleepChrgOnline then
    rk817BatSmoothAlgoPrepare cfg hw (rk817BatZeroAlgoPrepare cfg hw { bat with s2r := false })
  else
    let finished := fun bat : Rk817Battery =>
      rk817BatGetChargeStatus cfg hw bat = .chargeFinish ∨ rk817BatFakeFinishMode cfg hw bat
    match bat.workMode with
    | .finish =>
        let bat := rk817BatFinishAlgorithm cfg hw bat
        if ¬finished bat then
          if bat.currentAvg < 0 ∧ u32 bat.voltageAvg < cfg.zeroAlgorithmVol then
            { rk817BatZeroAlgoPrepare cfg hw bat with workMode := .zero }
          else { rk817BatSmoothAlgoPrepare cfg hw bat with workMode := .smooth }
        else bat
    | .zero =>
        let bat := rk817BatZeroAlgorithm cfg hw bat
        if u32 bat.voltageAvg ≥ u32 (cfg.zeroAlgorithmVol + 50) ∨ bat.currentAvg ≥ 0 then
          { rk817BatSmoothAlgoPrepare cfg hw bat with workMode := .smooth }
        else if finished bat then
          { rk817BatFinishAlgoPrepare cfg hw bat with workMode := .finish }
        else bat
    | _ =>
        let bat := rk817BatSmoothAlgorithm cfg hw bat
        if bat.currentAvg < 0 ∧ u32 bat.voltageAvg < cfg.zeroAlgorithmVol then
          { rk817BatZeroAlgoPrepare cfg hw bat with workMode := .zero }
        else if finished bat then
          { rk817BatFinishAlgoPrepare cfg hw bat with workMode := .finish }
        else bat

/-- The clamping of `rk817_bat_power_supply_changed`; its result is what is published. -/
def rk817BatPowerSupplyChanged (bat : Rk817Battery) : Rk817Battery :=
  if bat.dsoc > 100 * 1000 then { bat with dsoc := 100 * 1000 }
  else if bat.dsoc < 0 then { bat with dsoc := 0 }
  else bat

/-- `rk817_battery_work`: one monitor pass. -/
def rk817BatteryWork (hw : Rk817Sample cfg) (bat : Rk817Battery) : Rk817Battery :=
  rk817BatPowerSupplyChanged (rk817BatDisplaySmooth cfg hw (rk817BatLowpwrCheck cfg
    (rk817BatUpdateInfo cfg hw { bat with passSec := hw.bootSec })))

/-! ### Suspend and resume -/

/-- The readings of `rk817_bat_pm_suspend`. -/
def suspendRead (hw : Rk817Sample cfg) (status : ChargeStatus) (bat : Rk817Battery) :
    Rk817Battery :=
  { bat with
    s2r := false
    currentAvg := hw.current
    sleepChrgOnline := hw.current > 0 ∨ status = .ccOrCvChrg ∨ status = .chargeFinish
    qPress := hw.qPress
    remainCap := rk817BatGetCapacityUah cfg hw.qPress
    rsoc := rk817BatGetRsoc cfg hw.qPress
    rtcBase := hw.rtcSec
    finishBase := if status ≠ .chargeFinish then hw.bootSec else bat.finishBase }

/-- `rk817_bat_pm_suspend`. -/
def rk817BatPmSuspend (hw : Rk817Sample cfg) (bat : Rk817Battery) : Rk817Battery :=
  let status := rk817BatGetChargeStatus cfg hw bat
  let bat := suspendRead cfg hw status bat
  if bat.workMode = .zero ∧ bat.currentAvg ≥ 0 then
    if status = .chargeFinish then { bat with workMode := .finish, finishBase := hw.bootSec }
    else rk817BatSmoothAlgoPrepare cfg hw { bat with workMode := .smooth }
  else bat

/-- `rk817_bat_init_capacity`. -/
def rk817BatInitCapacity (hw : Rk817Sample cfg) (cap : ℤ) (bat : Rk817Battery) : Rk817Battery :=
  if cap - bat.remainCap = 0 then bat
  else
    rk817BatZeroAlgoPrepare cfg hw (rk817BatSmoothAlgoPrepare cfg hw
      (rk817BatInitCoulombCap cfg cap bat))

/-- `rk817_bat_relax_vol_calib`. -/
def rk817BatRelaxVolCalib (hw : Rk817Sample cfg) (bat : Rk817Battery) : Rk817Battery :=
  rk817BatInitCapacity cfg hw (rk817BatVolToCap cfg bat.voltageRelax) bat

/-- The charge in mAh taken by a sleep at a current, `sleep_sum_cap`. -/
def sleepSumCap (bat : Rk817Battery) (sleepCur : ℕ) : ℤ :=
  s32 (sleepCur * bat.sleepDischrgSec / 3600 : ℕ)

/-- The displayed charge after a sleep that began at or below the charge of the counter. -/
def sleepBelow (bat : Rk817Battery) : ℤ × ℤ :=
  let sum := sleepSumCap bat (if cfg.lowPwrSleep then 1 else 6)
  let sleepSoc := cdiv (s32 (sum * 100)) (orOne cfg.fcc)
  let tgtDsoc := s32 (bat.dsoc - s32 (sleepSoc * 1000))
  let dsoc :=
    if sleepSoc > 0 then
      if cdiv bat.dsoc 1000 < 5 then bat.dsoc - 1000
      else if cdiv tgtDsoc 1000 < 5 ∧ cdiv bat.dsoc 1000 ≥ 5 then
        if cdiv bat.dsoc 1000 = 5 then bat.dsoc - 1000 else 5 * 1000
      else if cdiv tgtDsoc 1000 > 5 then tgtDsoc
      else bat.dsoc
    else bat.dsoc
  (sleepSoc, dsoc)

/-- The displayed charge after a sleep that began above the charge of the counter. -/
def sleepAbove (bat : Rk817Battery) : ℤ × ℤ :=
  let sum := sleepSumCap bat (if cfg.lowPwrSleep then 20 else 40)
  let sleepSoc := cdiv sum (orOne (cdiv cfg.fcc 100))
  let gapSoc := s32 (bat.dsoc - bat.rsoc)
  let dsoc :=
    if cdiv gapSoc 1000 > sleepSoc then
      if gapSoc - 5000 > s32 (sleepSoc * 2 * 1000) then bat.dsoc - s32 (sleepSoc * 2 * 1000)
      else bat.dsoc - s32 (sleepSoc * 1000)
    else bat.rsoc
  (sleepSoc, dsoc)

/-- The corrections at the end of `rk817_bat_sleep_dischrg`. -/
def sleepCorrected (bat : Rk817Battery) (ocvSocUpdated : Bool) (sleepSoc dsoc : ℤ) : ℤ :=
  let dsoc := if bat.voltageAvg ≤ s32 cfg.pwroffVol - 70 then 0 else dsoc
  let dsoc :=
    if ocvSocUpdated ∧ sleepSoc ≠ 0 ∧ s32 (bat.rsoc - dsoc) < 5000 ∧ dsoc < 40 * 1000 then
      dsoc - 1000
    else dsoc
  if dsoc ≤ 0 then 0 else dsoc

/-- `rk817_bat_sleep_dischrg`: what a sleep has used; the charge is also the return value. -/
def rk817BatSleepDischrg (hw : Rk817Sample cfg) (bat : Rk817Battery) : ℤ × Rk817Battery :=
  let ocvSocUpdated : Bool := bat.voltageRelax ≥ bat.voltageAvg
  let bat := if ocvSocUpdated then rk817BatRelaxVolCalib cfg hw bat else bat
  let slept := if bat.dsoc ≤ bat.rsoc then sleepBelow cfg bat else sleepAbove cfg bat
  (slept.1, { bat with dsoc := sleepCorrected cfg bat ocvSocUpdated slept.1 slept.2 })

/-- `rk817_bat_rtc_sleep_sec`. -/
def rk817BatRtcSleepSec (hw : Rk817Sample cfg) (bat : Rk817Battery) : ℕ :=
  (s32 (hw.rtcSec - bat.rtcBase)).toNat

/-- The readings of `rk817_bat_resume_work`. -/
def resumeRead (hw : Rk817Sample cfg) (bat : Rk817Battery) : Rk817Battery :=
  { bat with
    s2r := true
    currentAvg := hw.current
    voltageRelax := hw.relaxVoltage
    voltageAvg := hw.voltage
    qPress := hw.qPress
    remainCap := rk817BatGetCapacityUah cfg hw.qPress
    rsoc := rk817BatGetRsoc cfg hw.qPress }

/-- The sleep after which the display is corrected; a low battery is looked at sooner. -/
def sleepTimeStep (bat : Rk817Battery) : ℕ :=
  if bat.voltageAvg ≤ s32 cfg.pwroffVol + 50 then 600 else 3600

/-- A sleep without a charger, once it is long enough, is accounted for. -/
def resumeSleep (hw : Rk817Sample cfg) (bat : Rk817Battery) : Rk817Battery :=
  if bat.sleepDischrgSec > sleepTimeStep cfg bat then
    let slept := rk817BatSleepDischrg cfg hw bat
    if slept.1 ≠ 0 then { slept.2 with sleepDischrgSec := 0 } else slept.2
  else bat

/-- `rk817_bat_resume_work`. -/
def rk817BatResumeWork (hw : Rk817Sample cfg) (bat : Rk817Battery) : Rk817Battery :=
  let bat := resumeRead cfg hw bat
  if bat.sleepChrgOnline then bat
  else
    resumeSleep cfg hw
      { bat with sleepDischrgSec := bat.sleepDischrgSec + rk817BatRtcSleepSec cfg hw bat }

end Power
end RockchipSoc
