import Mathlib.Data.UInt
import RockchipSoc.Foundation.Inquiry
import RockchipSoc.Power.Rk817Battery

/-!
# The rk817 battery driver in machine words

The whole range of the device tree is admitted here: capacities that do not fit a word once they are
multiplied, and tables that a byte cannot walk.  A value is taken from the hardware where the driver
takes it, so that two readings in one pass may differ.
-/

namespace RockchipSoc
namespace Power
namespace Words

open Inquiry

/-- What the driver reads.  `zeroCur` is the current register too, as it is read for the speed of
the zero algorithm. -/
inductive Reading
  | batVol | sysVol | usbVol | ocvVol | ocvVol0 | pwronVol
  | vcalib0 | vcalib1
  | relaxMode | relaxVol1 | relaxVol2
  | batCur | zeroCur
  | capInvalid | qPress
  | chgSts | pluginTrigger
  | bootSec | rtcSec
  | curCalibUpd
  deriving DecidableEq

/-- A value put together from its registers; a register that cannot be read may spoil all bits. -/
def Reading.Answer : Reading → Type
  | batVol | sysVol | usbVol | ocvVol | ocvVol0 | pwronVol => Int32
  | vcalib0 | vcalib1 => Int32
  | relaxMode | capInvalid | pluginTrigger | curCalibUpd => Bool
  | relaxVol1 | relaxVol2 => UInt16
  | batCur | zeroCur => Int32
  | qPress => UInt32
  | chgSts => ChargeStatus
  | bootSec => UInt64
  | rtcSec => Int64

abbrev Program := Inquiry Reading Reading.Answer

/-- `DIV(x)`. -/
def nonzero {α : Type} [Zero α] [One α] [DecidableEq α] (x : α) : α := if x ≠ 0 then x else 1

/-! ## The device tree -/

/-- The properties of the battery node that the gauge depends on. -/
structure BatteryNode where
  ocvTable : Option (List UInt32)
  designCapacity : Option UInt32
  designQmax : Option UInt32
  sampleRes : Option UInt32
  energyMode : Option UInt32
  zeroAlgorithmVol : Option UInt32
  zeroReserveDsoc : Option UInt32
  batRes : Option UInt32
  powerOffThresd : Option UInt32
  lowPowerSleep : Option UInt32
  batResUp : Option UInt32
  batResDown : Option UInt32
  designMaxVoltage : Option UInt32

/-- `struct battery_platform_data`. -/
structure PlatformData where
  ocvTable : List UInt32
  designCapacity : UInt32
  designQmax : UInt32
  sampleRes : UInt32
  energyMode : UInt32
  zeroAlgorithmVol : UInt32
  zeroReserveDsoc : UInt32
  batRes : UInt32
  pwroffVol : UInt32
  lowPwrSleep : UInt32
  batResUp : UInt32
  batResDown : UInt32
  designMaxVoltage : UInt32

/-- `rk817_bat_parse_dt`: a table and two capacities are necessary; what else is missing keeps its
default, and the resistors of an RK809 have none. -/
def rk817BatParseDt (isRk809 : Bool) (np : BatteryNode) : Option PlatformData := do
  let ocvTable ← np.ocvTable
  if ocvTable = [] then none
  else
    let designCapacity ← np.designCapacity
    let designQmax ← np.designQmax
    some
      { ocvTable, designCapacity, designQmax
        sampleRes := np.sampleRes.getD 20
        energyMode := np.energyMode.getD 0
        zeroAlgorithmVol := np.zeroAlgorithmVol.getD 0
        zeroReserveDsoc := np.zeroReserveDsoc.getD (10 * 1000) * 1000
        batRes := np.batRes.getD 135
        pwroffVol := np.powerOffThresd.getD 3400
        lowPwrSleep := np.lowPowerSleep.getD 0
        batResUp := if isRk809 then np.batResUp.getD 0 else 0
        batResDown := if isRk809 then np.batResDown.getD 0 else 0
        designMaxVoltage := if isRk809 then np.designMaxVoltage.getD 0 else 0 }

/-- A battery whose node was accepted, with sensible capacities, and the capacity that the last run
of the driver has stored. -/
structure Rk817Device where
  isRk809 : Bool
  np : BatteryNode
  pdata : PlatformData
  storedFcc : UInt32
  accepted : rk817BatParseDt isRk809 np = some pdata
  minFcc_le : 500 ≤ pdata.designCapacity
  capacity_le : pdata.designCapacity ≤ pdata.designQmax

/-- `rk817_bat_get_fcc`. -/
def rk817BatGetFcc (pdata : PlatformData) (stored : UInt32) : UInt32 :=
  if stored < 500 then pdata.designCapacity
  else if stored > pdata.designQmax then pdata.designQmax
  else stored

namespace Rk817Device

variable (dev : Rk817Device)

def fcc : Int32 := (rk817BatGetFcc dev.pdata dev.storedFcc).toInt32

def resDiv : Int32 := if dev.pdata.sampleRes = 20 then 2 else 1

def batRes : Int32 := dev.pdata.batRes.toInt32

theorem ocvTable_ne_nil : dev.pdata.ocvTable ≠ [] := by
  obtain ⟨table, -, rest⟩ := Option.bind_eq_some_iff.mp dev.accepted
  by_cases empty : table = []
  · rw [if_pos empty] at rest
    cases rest
  · rw [if_neg empty] at rest
    obtain ⟨designCapacity, -, rest⟩ := Option.bind_eq_some_iff.mp rest
    obtain ⟨designQmax, -, rest⟩ := Option.bind_eq_some_iff.mp rest
    rw [← Option.some.inj rest]
    exact empty

theorem minFcc_le_rk817BatGetFcc : 500 ≤ rk817BatGetFcc dev.pdata dev.storedFcc := by
  have minFcc := dev.minFcc_le
  have capacity := dev.capacity_le
  unfold rk817BatGetFcc
  split
  · exact minFcc
  · next stored =>
      split
      · exact UInt32.le_trans minFcc capacity
      · exact UInt32.not_lt.mp stored

theorem fcc_ne_zero : dev.fcc ≠ 0 := by
  intro zero
  have none_left : rk817BatGetFcc dev.pdata dev.storedFcc = 0 := congrArg Int32.toUInt32 zero
  have minFcc := dev.minFcc_le_rk817BatGetFcc
  rw [none_left] at minFcc
  exact absurd minFcc (by decide)

theorem resDiv_ne_zero : dev.resDiv ≠ 0 := by
  unfold resDiv
  split <;> decide

end Rk817Device

/-- The part of `struct rk817_battery_device` that changes from pass to pass. -/
structure Rk817State where
  workMode : WorkMode
  dsoc : Int32
  rsoc : Int32
  remainCap : UInt32
  smRemainCap : Int32
  smLinek : Int32
  smoothSoc : Int32
  zeroDsoc : Int32
  zeroLinek : Int32
  zeroRemainCap : Int32
  zeroTimeoutCnt : Int32
  zeroBatocvToCap : Int32
  zeroDropSec : UInt64
  shtdDropSec : UInt64
  finishBase : UInt64
  s2r : Bool
  sleepChrgOnline : Bool
  sleepDischrgSec : UInt64
  rtcBase : Int64
  voltageAvg : Int32
  currentAvg : Int32
  voltageRelax : Int32
  voltageK : Int32
  voltageB : Int32

section Getters

variable (dev : Rk817Device)

/-! ## Voltages and currents -/

/-- `rk817_bat_init_voltage_kb`. -/
def rk817BatInitVoltageKb (bat : Rk817State) : Program Rk817State := do
  let vcalib0 : Int32 ← query Reading.vcalib0
  let vcalib1 : Int32 ← query Reading.vcalib1
  if dev.isRk809 then
    let voltageK ← divide ((1050 - 600) * 1000) (nonzero (vcalib1 - vcalib0))
    pure { bat with voltageK, voltageB := 1050 - voltageK * vcalib1 / 1000 }
  else
    let voltageK ← divide ((4025 - 2300) * 1000) (nonzero (vcalib1 - vcalib0))
    pure { bat with voltageK, voltageB := 4025 - voltageK * vcalib1 / 1000 }

/-- The voltage in front of the resistors, which only an RK809 has. -/
def behindResistors (vol : Int32) : Program Int32 :=
  if dev.isRk809 then do
    let volTemp ← divide (vol.toUInt32 * dev.pdata.batResUp) dev.pdata.batResDown
    pure (volTemp + vol.toUInt32).toInt32
  else pure vol

/-- A voltage from its register and the calibration. -/
def toVoltage (bat : Rk817State) (val : Int32) : Int32 := bat.voltageK * val / 1000 + bat.voltageB

def rk817BatGetOcvVoltage (bat : Rk817State) : Program Int32 := do
  let val : Int32 ← query Reading.ocvVol
  behindResistors dev (toVoltage bat val)

def rk817BatGetOcv0Voltage0 (bat : Rk817State) : Program Int32 := do
  let val : Int32 ← query Reading.ocvVol0
  behindResistors dev (toVoltage bat val)

def rk817BatGetPwronVoltage (bat : Rk817State) : Program Int32 := do
  let val : Int32 ← query Reading.pwronVol
  behindResistors dev (toVoltage bat val)

/-- The calibration is read first, and not used. -/
def rk817BatGetBatteryVoltage (bat : Rk817State) : Program Int32 := do
  let _ ← query Reading.vcalib0
  let _ ← query Reading.vcalib1
  let val : Int32 ← query Reading.batVol
  behindResistors dev (toVoltage bat val)

def rk817BatGetUsbVoltage (bat : Rk817State) : Program Int32 := do
  let val : Int32 ← query Reading.usbVol
  behindResistors dev (toVoltage bat val * 60 / 46)

def rk817BatGetSysVoltage (bat : Rk817State) : Program Int32 := do
  let val : Int32 ← query Reading.sysVol
  behindResistors dev (toVoltage bat val * 60 / 46)

/-- Every getter that divides by a resistor. -/
def voltageGetters : List (Rk817State → Program Int32) :=
  [rk817BatGetOcvVoltage dev, rk817BatGetOcv0Voltage0 dev, rk817BatGetPwronVoltage dev,
    rk817BatGetBatteryVoltage dev, rk817BatGetUsbVoltage dev, rk817BatGetSysVoltage dev]

/-- A relax voltage is kept in half a word. -/
def toRelaxVoltage (bat : Rk817State) (val : UInt16) : UInt16 :=
  (toVoltage bat val.toUInt32.toInt32).toUInt32.toUInt16

def rk817BatGetRelaxVoltage (bat : Rk817State) : Program UInt16 := do
  let relaxed : Bool ← query Reading.relaxMode
  if relaxed then
    let val1 : UInt16 ← query Reading.relaxVol1
    let val2 : UInt16 ← query Reading.relaxVol2
    let relaxVol1 := toRelaxVoltage bat val1
    let relaxVol2 := toRelaxVoltage bat val2
    pure (if relaxVol1 > relaxVol2 then relaxVol1 else relaxVol2)
  else pure 0

/-- The register of the current, with its sign, before the sample resistor is taken into account. -/
def sampledCurrent (val : Int32) : Int32 :=
  (if val &&& 0x8000 ≠ 0 then val - 0x10000 else val) * 172 / 1000

/-- `rk817_bat_get_avg_current`, from one of the readings of its register. -/
def rk817BatGetAvgCurrent (reading : Program Int32) : Program Int32 := do
  let val ← reading
  divide (sampledCurrent val) dev.resDiv

/-! ## Charges -/

/-- `rk817_bat_get_capacity_uah`. -/
def rk817BatGetCapacityUah : Program UInt32 := do
  let invalid : Bool ← query Reading.capInvalid
  if invalid then pure 0
  else
    let val : UInt32 ← query Reading.qPress
    divide (val / 3600 * 172) dev.resDiv.toUInt32

/-- `rk817_bat_get_capacity_mah`. -/
def rk817BatGetCapacityMah : Program UInt32 := do
  let invalid : Bool ← query Reading.capInvalid
  if invalid then pure 0
  else
    let val : UInt32 ← query Reading.qPress
    divide (val / 1000 * 172 / 3600) dev.resDiv.toUInt32

/-- `rk817_bat_get_rsoc`. -/
def rk817BatGetRsoc : Program Int32 := do
  let remainCap ← rk817BatGetCapacityUah dev
  divide (remainCap.toInt32 * 100) (nonzero dev.fcc)

/-- `rk817_bat_init_coulomb_cap`. -/
def rk817BatInitCoulombCap (capacity : UInt32) (bat : Rk817State) : Program Rk817State := do
  let rsoc ← divide (capacity * 1000 * 100) dev.fcc.toUInt32
  pure { bat with rsoc := rsoc.toInt32, remainCap := capacity * 1000 }

theorem sub_ne_zero_of_distinct {entry below : UInt32} (distinct : entry ≠ below) :
    entry - below ≠ 0 := by
  intro zero
  have back := UInt32.sub_add_cancel entry below
  rw [zero, UInt32.zero_add] at back
  exact distinct back.symm

/-- The place of a voltage between two entries of a table. -/
def betweenEntries (value : Int32) (below entry : UInt32) (i size : Nat) : Program UInt16 := do
  let scale ← divide 1000 (size - 1)
  let d := ((value.toUInt32 - below) * UInt32.ofNat scale).toUInt16
  let d ← divide d.toUInt32 (entry - below)
  pure (d.toUInt16 + UInt16.ofNat ((i - 1) * scale))

/-- The place of the entry itself where a voltage is not between two entries. -/
def atEntry (i size : Nat) : Program UInt16 := do
  let scale ← divide (1000 + size / 2) size
  pure (UInt16.ofNat (i * scale))

/-- `interpolate`.  The index is a byte, and starts again after 255: a table longer than that is
searched for ever, if the voltage is not below one of the first 256 entries. -/
def interpolate (value : Int32) (table : List UInt32) : Program UInt32 :=
  let size := table.length
  let i := table.findIdx fun entry => value.toUInt32 < entry
  let capped := fun d : UInt16 => if d > 1000 then 1000 else d.toUInt32
  if 256 ≤ i then forever
  else if 0 < i ∧ i < size then
    capped <$> betweenEntries value (table.getD (i - 1) 0) (table.getD i 0) i size
  else capped <$> atEntry i size

/-- `ab_div_c`. -/
def abDivC (a b c : UInt32) : Program Int32 :=
  let sign := (a ^^^ b ^^^ c) &&& 0x80000000 ≠ 0
  let signed := fun ans : UInt32 => (if sign then -ans else ans).toInt32
  if c ≠ 0 then do
    let c := if sign then -c else c
    let quotient ← divide (a * b + c >>> 1) c
    let tmp := quotient.toInt32
    pure (signed (if tmp < 0x7FFF then tmp.toUInt32 else 0x7FFF))
  else pure (signed 0x7FFF)

def rk817BatVolToSoc (voltage : Int32) : Program Int32 := do
  let temp ← interpolate voltage dev.pdata.ocvTable
  abDivC temp 100 1000

def rk817BatVolToCap (voltage : Int32) : Program Int32 := do
  let temp ← interpolate voltage dev.pdata.ocvTable
  abDivC temp dev.fcc.toUInt32 1000

/-- `rk817_bat_get_charge_status`. -/
def rk817BatGetChargeStatus (bat : Rk817State) : Program ChargeStatus :=
  if dev.isRk809 then
    if bat.voltageAvg.toUInt32 > dev.pdata.designMaxVoltage ∧ bat.currentAvg > 0 ∧
        (bat.currentAvg < 500 ∨ bat.rsoc / 1000 = 100) then
      pure .chargeFinish
    else do
      let plugged : Bool ← query Reading.pluginTrigger
      pure (if plugged then .ccOrCvChrg else .chrgOff)
  else do
    let status : ChargeStatus ← query Reading.chgSts
    pure (if status = .ccOrCvChrg ∧ bat.rsoc = 100 * 1000 then .chargeFinish else status)

/-- `rk817_bat_fake_finish_mode`. -/
def rk817BatFakeFinishMode (bat : Rk817State) : Program Bool :=
  if bat.rsoc = 100 then do
    let status ← rk817BatGetChargeStatus dev bat
    pure (status = .ccOrCvChrg ∧ bat.currentAvg.abs ≤ 100)
  else pure false

end Getters

end Words
end Power
end RockchipSoc
