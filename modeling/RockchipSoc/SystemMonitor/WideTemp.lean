import RockchipSoc.Foundation.CheckedArith
import RockchipSoc.Foundation.NearestEntry
import RockchipSoc.Foundation.SharedLimit

/-!
# Frequency limits of the wide temperature range

A device has a limit for low temperatures and either one limit for high temperatures or a table of
them.  All of them go through one request for the maximum frequency: whichever side changes last
writes it.
-/

namespace RockchipSoc
namespace SystemMonitor

open CInt NearestEntry SharedLimit

inductive MonitorDevType
  | cpu | dev
  deriving DecidableEq, Repr

/-- `struct temp_freq_table`: millidegrees and kHz. -/
structure TempFreqTable where
  temp : ℤ
  freq : ℕ
  deriving DecidableEq, Repr

/-- The configuration of the limits in `struct monitor_dev_info`; they are in Hz.  A table ends
before the entry with the frequency `UINT_MAX`. -/
structure WideTempConfig where
  type : MonitorDevType
  lowTemp : ℤ
  highTemp : ℤ
  tempHysteresis : ℤ
  lowLimit : ℕ
  highLimit : ℕ
  highLimitTable : Option (List TempFreqTable)
  table_ascends : ∀ table ∈ highLimitTable, Sorted TempFreqTable.temp table

/-- The state in `struct monitor_dev_info`: the two flags, the high limit (of the table, the last
one found in it), and the value of the request for the maximum frequency, in kHz. -/
structure WideTempDev where
  isLowTemp : Bool
  isHighTemp : Bool
  highLimit : ℕ
  maxFreqReq : ℕ
  deriving DecidableEq, Repr

/-- `FREQ_QOS_MAX_DEFAULT_VALUE`. -/
def freqQosMaxDefaultValue : ℕ := 2 ^ 31 - 1

/-- `PM_QOS_MAX_FREQUENCY_DEFAULT_VALUE`. -/
def pmQosMaxFrequencyDefaultValue : ℕ := freqQosMaxDefaultValue

variable (cfg : WideTempConfig) (temp : ℤ) (dev : WideTempDev)

def lowTempAdjust (default : ℕ) (isLow : Bool) : WideTempDev :=
  if cfg.lowLimit ≠ 0 then
    { dev with maxFreqReq := if isLow then cfg.lowLimit / 1000 else default }
  else dev

def highTempAdjust (default : ℕ) (isHigh : Bool) : WideTempDev :=
  if dev.highLimit = 0 then dev
  else if cfg.highLimitTable.isSome then { dev with maxFreqReq := dev.highLimit / 1000 }
  else { dev with maxFreqReq := if isHigh then dev.highLimit / 1000 else default }

def rockchipMonitorCpuLowTempAdjust : Bool → WideTempDev :=
  lowTempAdjust cfg dev freqQosMaxDefaultValue

def rockchipMonitorCpuHighTempAdjust : Bool → WideTempDev :=
  highTempAdjust cfg dev freqQosMaxDefaultValue

def rockchipMonitorDevLowTempAdjust : Bool → WideTempDev :=
  lowTempAdjust cfg dev pmQosMaxFrequencyDefaultValue

def rockchipMonitorDevHighTempAdjust : Bool → WideTempDev :=
  highTempAdjust cfg dev pmQosMaxFrequencyDefaultValue

def rockchipLowTempAdjust (isLow : Bool) : WideTempDev :=
  let dev :=
    match cfg.type with
    | .cpu => rockchipMonitorCpuLowTempAdjust cfg dev isLow
    | .dev => rockchipMonitorDevLowTempAdjust cfg dev isLow
  { dev with isLowTemp := isLow }

def rockchipHighTempAdjust (isHigh : Bool) : WideTempDev :=
  let adjusted :=
    match cfg.type with
    | .cpu => rockchipMonitorCpuHighTempAdjust cfg dev isHigh
    | .dev => rockchipMonitorDevHighTempAdjust cfg dev isHigh
  if cfg.highLimitTable.isSome then adjusted else { adjusted with isHighTemp := isHigh }

/-- The low side of a sample. -/
def adjustLow : WideTempDev :=
  if temp < cfg.lowTemp then
    if ¬dev.isLowTemp then rockchipLowTempAdjust cfg dev true else dev
  else if temp > s32 (cfg.lowTemp + cfg.tempHysteresis) then
    if dev.isLowTemp then rockchipLowTempAdjust cfg dev false else dev
  else dev

/-- The loop over the table.  `freq * 1000` is a product of unsigned integers. -/
def targetFreq (table : List TempFreqTable) : ℕ :=
  table.foldl (fun target entry =>
    if temp > entry.temp then entry.freq * 1000 % 2 ^ 32 else target) 0

/-- The high side of a sample. -/
def adjustHigh : WideTempDev :=
  match cfg.highLimitTable with
  | some table =>
      if targetFreq temp table ≠ dev.highLimit then
        rockchipHighTempAdjust cfg { dev with highLimit := targetFreq temp table } true
      else dev
  | none =>
      if temp > cfg.highTemp then
        if ¬dev.isHighTemp then rockchipHighTempAdjust cfg dev true else dev
      else if temp < s32 (cfg.highTemp - cfg.tempHysteresis) then
        if dev.isHighTemp then rockchipHighTempAdjust cfg dev false else dev
      else dev

def rockchipSystemMonitorWideTempAdjust : WideTempDev :=
  adjustHigh cfg temp (adjustLow cfg temp dev)

/-- `rockchip_system_monitor_wide_temp_init`; there may be no table of voltages, or no reading of
the temperature. -/
def rockchipSystemMonitorWideTempInit (hasOppTable : Bool) (reading : Option ℤ) : WideTempDev :=
  if ¬hasOppTable then dev
  else
    match reading with
    | none => { dev with isLowTemp := true }
    | some temp =>
        if temp > cfg.highTemp then { dev with isLowTemp := false, isHighTemp := true }
        else if temp > s32 (cfg.lowTemp + cfg.tempHysteresis) then { dev with isLowTemp := false }
        else { dev with isLowTemp := true }

/-- The first value of the request. -/
def rockchipSystemMonitorFreqQosRequset : WideTempDev :=
  { dev with
    maxFreqReq :=
      if dev.isLowTemp ∧ cfg.lowLimit ≠ 0 then cfg.lowLimit / 1000
      else if dev.isHighTemp ∧ dev.highLimit ≠ 0 then dev.highLimit / 1000
      else freqQosMaxDefaultValue }

/-- A device when it is registered; with a table, the parser clears the high limit. -/
def wideTempStart (hasOppTable : Bool) (reading : Option ℤ) : WideTempDev :=
  rockchipSystemMonitorFreqQosRequset cfg
    (rockchipSystemMonitorWideTempInit cfg
      ⟨false, false, if cfg.highLimitTable.isSome then 0 else cfg.highLimit, 0⟩ hasOppTable reading)

def wideTempRun (temps : List ℤ) : WideTempDev :=
  temps.foldl (fun dev temp => rockchipSystemMonitorWideTempAdjust cfg temp dev) dev

end SystemMonitor
end RockchipSoc
