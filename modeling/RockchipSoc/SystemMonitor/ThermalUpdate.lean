import RockchipSoc.SystemMonitor.WideTemp

/-!
# The filter of the thermal samples

A sample that is at most two degrees below the last one passed on is dropped, so that the devices
see a rise at once and a fall with some delay.  The difference is a signed one, and the last sample
starts at the greatest integer: before any sample has been passed on, the difference to a sample
below zero wraps, and the sample is dropped however cold it is.
-/

namespace RockchipSoc
namespace SystemMonitor

open CInt

/-- `THERMAL_TEMP_INVALID`. -/
def thermalTempInvalid : ℤ := -274000

/-- What `thermal_zone_get_temp` returns, and the temperature it stores. -/
structure ThermalReading where
  ret : ℤ
  temp : ℤ
  deriving DecidableEq, Repr

/-- The part of `struct system_monitor` that switches processors off. -/
structure TempCpuConfig where
  hasTempOfflineCpus : Bool
  offlineCpusTemp : ℤ
  tempHysteresis : ℤ

/-- `last_temp`, `monitor_dev_list` and `is_temp_offline`. -/
structure ThermalMonitor where
  lastTemp : ℤ
  devices : List (WideTempConfig × WideTempDev)
  isTempOffline : Bool

def ThermalReading.Valid (reading : ThermalReading) : Prop :=
  reading.ret = 0 ∧ reading.temp ≠ thermalTempInvalid

instance (reading : ThermalReading) : Decidable reading.Valid :=
  inferInstanceAs (Decidable (_ ∧ _))

/-- `rockchip_system_monitor_temp_cpu_on_off`. -/
def tempCpuOnOff (cpus : TempCpuConfig) (temp : ℤ) (isTempOffline : Bool) : Bool :=
  if ¬cpus.hasTempOfflineCpus then isTempOffline
  else if temp > cpus.offlineCpusTemp then true
  else if temp < s32 (cpus.offlineCpusTemp - cpus.tempHysteresis) then false
  else isTempOffline

/-- A sample that is not dropped. -/
def passSample (cpus : TempCpuConfig) (temp : ℤ) (monitor : ThermalMonitor) : ThermalMonitor where
  lastTemp := temp
  devices := monitor.devices.map fun info =>
    (info.1, rockchipSystemMonitorWideTempAdjust info.1 temp info.2)
  isTempOffline := tempCpuOnOff cpus temp monitor.isTempOffline

/-- The sample is colder than the last one by at most two degrees, as signed integers. -/
def Dropped (lastTemp temp : ℤ) : Prop := temp < lastTemp ∧ s32 (lastTemp - temp) ≤ 2000

instance (lastTemp temp : ℤ) : Decidable (Dropped lastTemp temp) :=
  inferInstanceAs (Decidable (_ ∧ _))

def rockchipSystemMonitorThermalUpdate (cpus : TempCpuConfig) (monitor : ThermalMonitor)
    (reading : ThermalReading) : ThermalMonitor :=
  if ¬reading.Valid then monitor
  else if Dropped monitor.lastTemp reading.temp then monitor
  else passSample cpus reading.temp monitor

/-- The monitor before its first sample. -/
def thermalStart (devices : List (WideTempConfig × WideTempDev)) (isTempOffline : Bool) :
    ThermalMonitor :=
  ⟨intMax, devices, isTempOffline⟩

variable {cpus : TempCpuConfig} {monitor : ThermalMonitor} {reading : ThermalReading}
  {readings : List ThermalReading}

/-! ### What the devices see -/

/-- The temperatures that are passed on, in their order. -/
def passedTemps (cpus : TempCpuConfig) : ThermalMonitor → List ThermalReading → List ℤ
  | _, [] => []
  | monitor, reading :: readings =>
      let rest :=
        passedTemps cpus (rockchipSystemMonitorThermalUpdate cpus monitor reading) readings
      if reading.Valid ∧ ¬Dropped monitor.lastTemp reading.temp then reading.temp :: rest else rest

theorem thermalUpdate_of_passed (valid : reading.Valid)
    (kept : ¬Dropped monitor.lastTemp reading.temp) :
    rockchipSystemMonitorThermalUpdate cpus monitor reading =
      passSample cpus reading.temp monitor := by
  rw [rockchipSystemMonitorThermalUpdate, if_neg (not_not.mpr valid), if_neg kept]

theorem thermalUpdate_of_dropped
    (dropped : ¬(reading.Valid ∧ ¬Dropped monitor.lastTemp reading.temp)) :
    rockchipSystemMonitorThermalUpdate cpus monitor reading = monitor := by
  unfold rockchipSystemMonitorThermalUpdate
  split
  · rfl
  · next valid => exact if_pos (not_not.mp fun kept => dropped ⟨not_not.mp valid, kept⟩)

/-- The devices have been adjusted to the temperatures passed on and to no others, and the last of
these is the one that is remembered. -/
theorem devices_see_passed (cpus : TempCpuConfig) (monitor : ThermalMonitor)
    (readings : List ThermalReading) :
    let final := readings.foldl (rockchipSystemMonitorThermalUpdate cpus) monitor
    final.devices = monitor.devices.map (fun info =>
        (info.1, wideTempRun info.1 info.2 (passedTemps cpus monitor readings))) ∧
      final.lastTemp = (passedTemps cpus monitor readings).getLastD monitor.lastTemp := by
  induction readings generalizing monitor with
  | nil => simp [passedTemps, wideTempRun]
  | cons reading readings ih =>
      obtain ⟨devices, last⟩ := ih (rockchipSystemMonitorThermalUpdate cpus monitor reading)
      rw [List.foldl_cons, passedTemps]
      by_cases passed : reading.Valid ∧ ¬Dropped monitor.lastTemp reading.temp
      · rw [if_pos passed]
        rw [thermalUpdate_of_passed passed.1 passed.2] at devices last ⊢
        refine ⟨devices.trans ?_, last.trans ?_⟩
        · simp [passSample, wideTempRun]
        · rw [List.getLastD_cons]
          rfl
      · rw [if_neg passed]
        rw [thermalUpdate_of_dropped passed] at devices last ⊢
        exact ⟨devices, last⟩

/-! ### The lag -/

/-- After each valid sample the last temperature passed on is not below it, and at most two degrees
above it. -/
def NeverLags (cpus : TempCpuConfig) : ThermalMonitor → List ThermalReading → Prop
  | _, [] => True
  | monitor, reading :: readings =>
      let next := rockchipSystemMonitorThermalUpdate cpus monitor reading
      (reading.Valid → reading.temp ≤ next.lastTemp ∧ next.lastTemp ≤ reading.temp + 2000) ∧
        NeverLags cpus next readings

/-- The first valid sample is not below zero. -/
def FirstNotCold (readings : List ThermalReading) : Prop :=
  ∀ first ∈ readings.find? fun reading => decide reading.Valid, 0 ≤ first.temp

/-- Every valid sample is between -50 and 150 degrees. -/
def InRange (readings : List ThermalReading) : Prop :=
  ∀ reading ∈ readings, reading.Valid → -50000 ≤ reading.temp ∧ reading.temp ≤ 150000

/-- Between two temperatures of the range the difference does not wrap. -/
theorem dropped_iff {last temp : ℤ} (low : -50000 ≤ last) (high : last ≤ 150000)
    (low' : -50000 ≤ temp) (high' : temp ≤ 150000) :
    Dropped last temp ↔ temp < last ∧ last ≤ temp + 2000 := by
  rw [Dropped, s32_of_fits (by omega) (by omega)]
  exact and_congr_right fun _ => by omega

/-- Before the first sample is passed on, exactly those below zero are dropped. -/
theorem dropped_intMax_iff {temp : ℤ} (low : -50000 ≤ temp) (high : temp ≤ 150000) :
    Dropped intMax temp ↔ temp < 0 := by
  unfold Dropped s32 intMax
  omega

/-- Once a sample has been passed on, the filter does not lag. -/
theorem neverLags_of_passed (low : -50000 ≤ monitor.lastTemp) (high : monitor.lastTemp ≤ 150000)
    (inRange : InRange readings) : NeverLags cpus monitor readings := by
  induction readings generalizing monitor with
  | nil => exact trivial
  | cons reading readings ih =>
      have later : InRange readings := fun other member =>
        inRange other (List.mem_cons_of_mem _ member)
      by_cases passed : reading.Valid ∧ ¬Dropped monitor.lastTemp reading.temp
      · obtain ⟨low', high'⟩ := inRange reading List.mem_cons_self passed.1
        rw [NeverLags, thermalUpdate_of_passed passed.1 passed.2]
        exact ⟨fun _ => ⟨le_refl _, le_add_of_nonneg_right (by decide)⟩, ih low' high' later⟩
      · rw [NeverLags, thermalUpdate_of_dropped passed]
        refine ⟨fun valid => ?_, ih low high later⟩
        obtain ⟨low', high'⟩ := inRange reading List.mem_cons_self valid
        have dropped : Dropped monitor.lastTemp reading.temp :=
          not_not.mp fun kept => passed ⟨valid, kept⟩
        obtain ⟨below, near⟩ := (dropped_iff low high low' high').mp dropped
        exact ⟨below.le, near⟩

/-- From the start, the last temperature passed on follows the samples exactly if the first valid
sample is not below zero. -/
theorem thermal_filter_never_lags_iff (cpus : TempCpuConfig)
    (devices : List (WideTempConfig × WideTempDev)) (isTempOffline : Bool)
    (readings : List ThermalReading) (inRange : InRange readings) :
    NeverLags cpus (thermalStart devices isTempOffline) readings ↔ FirstNotCold readings := by
  induction readings with
  | nil => exact iff_of_true trivial fun first member => by simp at member
  | cons reading readings ih =>
      have later : InRange readings := fun other member =>
        inRange other (List.mem_cons_of_mem _ member)
      by_cases valid : reading.Valid
      · obtain ⟨low, high⟩ := inRange reading List.mem_cons_self valid
        have dropped := dropped_intMax_iff low high
        have condition : FirstNotCold (reading :: readings) ↔ 0 ≤ reading.temp := by
          simp [FirstNotCold, valid]
        rw [condition, NeverLags]
        by_cases cold : reading.temp < 0
        · -- the sample is dropped, and the greatest integer is far above it
          rw [thermalUpdate_of_dropped fun passed => passed.2 (dropped.mpr cold)]
          refine iff_of_false (fun follows => ?_) (not_le.mpr cold)
          have near : intMax ≤ reading.temp + 2000 := (follows.1 valid).2
          unfold intMax at near
          omega
        · rw [thermalUpdate_of_passed valid fun drop => cold (dropped.mp drop)]
          exact iff_of_true
            ⟨fun _ => ⟨le_refl _, le_add_of_nonneg_right (by decide)⟩,
              neverLags_of_passed low high later⟩ (not_lt.mp cold)
      · have condition : FirstNotCold (reading :: readings) ↔ FirstNotCold readings := by
          simp [FirstNotCold, valid]
        rw [condition, NeverLags, thermalUpdate_of_dropped fun passed => valid passed.1]
        exact (and_iff_right fun absurd => (valid absurd).elim).trans (ih later)

def noCpus : TempCpuConfig := ⟨false, intMax, 0⟩

theorem thermal_filter_never_lags_warmBoot :
    NeverLags noCpus (thermalStart [] false) [⟨0, 25000⟩, ⟨-22, 0⟩, ⟨0, -3000⟩] ↔
      FirstNotCold [⟨0, 25000⟩, ⟨-22, 0⟩, ⟨0, -3000⟩] :=
  thermal_filter_never_lags_iff noCpus [] false _ (by
    intro reading member valid
    simp only [List.mem_cons, List.not_mem_nil, or_false] at member
    rcases member with rfl | rfl | rfl
    · exact ⟨by decide, by decide⟩
    · exact absurd valid (by decide)
    · exact ⟨by decide, by decide⟩)

/-- After a start at ten degrees below zero, nothing is passed on while it stays cold. -/
theorem cold_start_is_dropped :
    ¬NeverLags noCpus (thermalStart [] false) [⟨0, -10000⟩, ⟨0, -30000⟩] ∧
      passedTemps noCpus (thermalStart [] false) [⟨0, -10000⟩, ⟨0, -30000⟩] = [] := by
  refine ⟨fun follows => ?_, by decide⟩
  exact absurd (follows.1 (by decide)).2 (by decide)

end SystemMonitor
end RockchipSoc
