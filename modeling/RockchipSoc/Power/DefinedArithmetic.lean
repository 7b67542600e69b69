import RockchipSoc.Power.Rk817Passes

/-!
# Where the arithmetic of the rk817 driver is defined

Most divisors are guarded, or hold for every node that was accepted.  Three are not: the lower
resistor of an RK809, which the node may leave out; the current that the zero algorithm has just
read; and the seconds that one percent takes, once the capacity in milliampere seconds leaves the
range of a word.
-/

namespace RockchipSoc
namespace Power
namespace Words

open Inquiry

/-- The zero algorithm never reads a current of zero; everything else may be read. -/
def currentFlows (dev : Rk817Device) : (reading : Reading) → reading.Answer → Prop
  | .zeroCur, val => sampledCurrent val / dev.resDiv ≠ 0
  | _, _ => True

/-- The divisors that neither a guard nor the acceptance of the node keeps from being zero. -/
structure Rk817Device.Regular (dev : Rk817Device) : Prop where
  resistor : dev.isRk809 = true → dev.pdata.batResDown ≠ 0
  seconds : ∀ finishCurrent ∈ [1000, 1500], dev.fcc * 3600 / 100 / finishCurrent ≠ 0

theorem nonzero_ne_zero {α : Type} [Zero α] [One α] [DecidableEq α] (distinct : (1 : α) ≠ 0)
    (x : α) : nonzero x ≠ 0 := by
  unfold nonzero
  split
  · next other => exact other
  · exact distinct

theorem nonzero_int32 (x : Int32) : nonzero x ≠ 0 := nonzero_ne_zero (by decide) x

section Passes

variable {dev : Rk817Device} {allowed : (reading : Reading) → reading.Answer → Prop}

/-! ## The gauge -/

theorem defined_initVoltageKb (bat : Rk817State) :
    Defined allowed (rk817BatInitVoltageKb dev bat) := by
  unfold rk817BatInitVoltageKb
  refine (defined_query _).bind fun vcalib0 => (defined_query _).bind fun vcalib1 => ?_
  split
  · exact (defined_divide (nonzero_int32 _)).bind fun voltageK => defined_pure _
  · exact (defined_divide (nonzero_int32 _)).bind fun voltageK => defined_pure _

theorem defined_behindResistors (regular : dev.Regular) (vol : Int32) :
    Defined allowed (behindResistors dev vol) := by
  unfold behindResistors
  split
  · next rk809 => exact (defined_divide (regular.resistor rk809)).bind fun _ => defined_pure _
  · exact defined_pure vol

theorem defined_getter (regular : dev.Regular) (bat : Rk817State)
    {getter : Rk817State → Program Int32} (listed : getter ∈ voltageGetters dev) :
    Defined allowed (getter bat) := by
  simp only [voltageGetters, List.mem_cons, List.not_mem_nil, or_false] at listed
  rcases listed with rfl | rfl | rfl | rfl | rfl | rfl
  · exact (defined_query _).bind fun _ => defined_behindResistors regular _
  · exact (defined_query _).bind fun _ => defined_behindResistors regular _
  · exact (defined_query _).bind fun _ => defined_behindResistors regular _
  · exact (defined_query _).bind fun _ => (defined_query _).bind fun _ =>
      (defined_query _).bind fun _ => defined_behindResistors regular _
  · exact (defined_query _).bind fun _ => defined_behindResistors regular _
  · exact (defined_query _).bind fun _ => defined_behindResistors regular _

theorem defined_relaxVoltage (bat : Rk817State) :
    Defined allowed (rk817BatGetRelaxVoltage bat) := by
  unfold rk817BatGetRelaxVoltage
  refine (defined_query _).bind fun relaxed => ?_
  split
  · exact (defined_query _).bind fun val1 => (defined_query _).bind fun val2 => defined_pure _
  · exact defined_pure 0

theorem defined_avgCurrent {reading : Program Int32} (defined : Defined allowed reading) :
    Defined allowed (rk817BatGetAvgCurrent dev reading) :=
  defined.bind fun _ => defined_divide dev.resDiv_ne_zero

/-- The current that the zero algorithm reads is the one thing that is asked of a reading. -/
theorem ensures_zeroCurrent :
    Ensures (currentFlows dev) (· ≠ 0)
      (rk817BatGetAvgCurrent dev (query Reading.zeroCur)) := by
  apply (ensures_query Reading.zeroCur).bind
  intro val flows
  apply (ensures_divide dev.resDiv_ne_zero).imp
  rintro current rfl
  exact flows

theorem resDiv_toUInt32_ne_zero (dev : Rk817Device) : dev.resDiv.toUInt32 ≠ 0 :=
  fun zero => dev.resDiv_ne_zero (congrArg UInt32.toInt32 zero)

theorem fcc_toUInt32_ne_zero (dev : Rk817Device) : dev.fcc.toUInt32 ≠ 0 :=
  fun zero => dev.fcc_ne_zero (congrArg UInt32.toInt32 zero)

/-- The charge counter is divided by the resistors in any unit. -/
theorem defined_capacity (scale : UInt32 → UInt32) :
    Defined allowed (do
      let invalid : Bool ← query Reading.capInvalid
      if invalid then pure 0
      else
        let val : UInt32 ← query Reading.qPress
        divide (scale val) dev.resDiv.toUInt32) := by
  refine (defined_query _).bind fun invalid => ?_
  split
  · exact defined_pure 0
  · exact (defined_query _).bind fun val => defined_divide (resDiv_toUInt32_ne_zero dev)

theorem defined_capacityUah : Defined allowed (rk817BatGetCapacityUah dev) :=
  defined_capacity fun val => val / 3600 * 172

theorem defined_capacityMah : Defined allowed (rk817BatGetCapacityMah dev) :=
  defined_capacity fun val => val / 1000 * 172 / 3600

theorem defined_rsoc : Defined allowed (rk817BatGetRsoc dev) :=
  defined_capacityUah.bind fun _ => defined_divide (nonzero_int32 _)

theorem defined_initCoulombCap (capacity : UInt32) (bat : Rk817State) :
    Defined allowed (rk817BatInitCoulombCap dev capacity bat) :=
  (defined_divide (fcc_toUInt32_ne_zero dev)).bind fun _ => defined_pure _

/-! ## The table of voltages -/

/-- An entry above a voltage is not the one before it, which is not above it. -/
theorem defined_betweenEntries {value : Int32} {below entry : UInt32} {i size : Nat}
    (above : value.toUInt32 < entry) (notAbove : ¬value.toUInt32 < below) (long : 1 < size) :
    Defined allowed (betweenEntries value below entry i size) := by
  have distinct : entry ≠ below := by
    rintro rfl
    exact notAbove above
  have gaps : size - 1 ≠ 0 := by omega
  exact (defined_divide gaps).bind fun scale =>
    (defined_divide (sub_ne_zero_of_distinct distinct)).bind fun d => defined_pure _

theorem defined_interpolate (value : Int32) {table : List UInt32} (nonempty : table ≠ []) :
    Defined allowed (interpolate value table) := by
  unfold interpolate
  simp only
  split
  · trivial
  split
  · next inner =>
      obtain ⟨later, found⟩ := inner
      apply Defined.map
      have before : table.findIdx (fun entry => decide (value.toUInt32 < entry)) - 1 <
          table.length := by omega
      have above := List.findIdx_getElem (w := found)
      have notAbove := @List.not_of_lt_findIdx _ (fun entry => decide (value.toUInt32 < entry))
        table _ (Nat.sub_lt later Nat.one_pos)
      rw [List.getD_eq_getElem _ _ found, List.getD_eq_getElem _ _ before]
      exact defined_betweenEntries (of_decide_eq_true above) (by simpa using notAbove) (by omega)
  · apply Defined.map
    have positive : table.length ≠ 0 := (List.length_pos_iff.mpr nonempty).ne'
    exact (defined_divide positive).bind fun scale => defined_pure _

theorem defined_abDivC (a b c : UInt32) : Defined allowed (abDivC a b c) := by
  unfold abDivC
  simp only
  split
  · next other =>
      have negative : -c ≠ 0 := by
        intro zero
        exact other (by rw [← UInt32.neg_neg (a := c), zero]; rfl)
      refine (defined_divide ?_).bind fun quotient => defined_pure _
      split
      · exact negative
      · exact other
  · exact defined_pure _

theorem defined_volToSoc (voltage : Int32) : Defined allowed (rk817BatVolToSoc dev voltage) :=
  (defined_interpolate voltage dev.ocvTable_ne_nil).bind fun _ => defined_abDivC _ _ _

theorem defined_volToCap (voltage : Int32) : Defined allowed (rk817BatVolToCap dev voltage) :=
  (defined_interpolate voltage dev.ocvTable_ne_nil).bind fun _ => defined_abDivC _ _ _

theorem defined_chargeStatus (bat : Rk817State) :
    Defined allowed (rk817BatGetChargeStatus dev bat) := by
  unfold rk817BatGetChargeStatus
  split
  · split
    · exact defined_pure _
    · exact (defined_query _).bind fun plugged => defined_pure _
  · exact (defined_query _).bind fun status => defined_pure _

theorem defined_finished (bat : Rk817State) : Defined allowed (finished dev bat) := by
  unfold finished
  refine (defined_chargeStatus bat).bind fun status => ?_
  split
  · exact defined_pure true
  · unfold rk817BatFakeFinishMode
    split
    · exact (defined_chargeStatus bat).bind fun status => defined_pure _
    · exact defined_pure false

/-! ## Delays -/

theorem defined_base2sec (x : UInt64) : Defined allowed (base2sec x) := by
  unfold base2sec
  split
  · refine (defined_query _).bind fun now => ?_
    split
    · exact (defined_query _).bind fun later => defined_pure _
    · exact defined_pure 0
  · exact defined_pure 0

theorem defined_startOf (base : UInt64) : Defined allowed (startOf base) := by
  unfold startOf
  split
  · exact defined_query _
  · exact defined_pure base

/-! ## The smooth algorithm -/

theorem defined_smLinekFor (bat : Rk817State) (currentAvg : Int32) :
    Defined allowed (smLinekFor bat currentAvg) := by
  unfold smLinekFor
  simp only
  split
  · split
    · exact defined_divide (nonzero_int32 _)
    · split
      · exact defined_divide (nonzero_int32 _)
      · exact defined_pure _
  · split
    · exact defined_divide (nonzero_int32 _)
    · split
      · exact defined_divide (nonzero_int32 _)
      · exact defined_pure _

theorem defined_calcSmLinek (bat : Rk817State) :
    Defined allowed (rk817BatCalcSmLinek dev bat) :=
  (defined_avgCurrent (defined_query _)).bind fun currentAvg =>
    (defined_smLinekFor bat currentAvg).bind fun _ => defined_pure _

theorem defined_smoothAlgoPrepare (bat : Rk817State) :
    Defined allowed (rk817BatSmoothAlgoPrepare dev bat) := defined_calcSmLinek _

theorem defined_smoothResumed (bat : Rk817State) : Defined allowed (smoothResumed dev bat) := by
  unfold smoothResumed
  split
  · exact defined_calcSmLinek _
  · exact defined_pure bat

theorem defined_smoothMove (ydsoc : Int32) (bat : Rk817State) :
    Defined allowed (smoothMove dev ydsoc bat) := by
  unfold smoothMove
  simp only
  split
  · exact defined_smoothResumed _
  · split
    · exact defined_pure _
    · exact defined_smoothResumed _

theorem defined_smoothAlgorithm (bat : Rk817State) :
    Defined allowed (rk817BatSmoothAlgorithm dev bat) := by
  have switched : Defined allowed (smoothSwitched dev bat) := by
    unfold smoothSwitched
    split
    · exact defined_calcSmLinek bat
    · exact defined_pure bat
  refine switched.bind fun bat => defined_capacityUah.bind fun remainCap => ?_
  apply Ensures.ite
  · exact fun _ => defined_pure _
  · refine fun _ => (defined_divide (nonzero_int32 _)).bind fun ydsoc => ?_
    exact Ensures.ite (fun _ => defined_pure _) fun _ => defined_smoothMove ydsoc _

/-! ## The zero algorithm -/

theorem defined_zeroSpeed (currentAvg xsoc : Int32) (bat : Rk817State) :
    Defined allowed (zeroSpeed dev currentAvg xsoc bat) := by
  unfold zeroSpeed
  split
  · exact defined_pure _
  split
  · exact (defined_divide (nonzero_int32 _)).bind fun linek => defined_pure _
  · refine (defined_startOf _).bind fun base => (defined_base2sec base).bind fun waited => ?_
    split
    · exact defined_pure _
    · exact defined_pure _

theorem defined_shutdownDrop (voltageAvg pwroffVol : Int32) (bat : Rk817State) :
    Defined allowed (shutdownDrop voltageAvg pwroffVol bat) := by
  unfold shutdownDrop
  split
  · refine (defined_startOf _).bind fun base => (defined_base2sec base).bind fun waited => ?_
    split
    · exact defined_pure _
    · exact defined_pure _
  · exact defined_pure _

theorem defined_batteryVoltage (regular : dev.Regular) (bat : Rk817State) :
    Defined allowed (rk817BatGetBatteryVoltage dev bat) :=
  defined_getter regular bat (by simp [voltageGetters])

/-- The resistance of the power path is computed from a current that flows. -/
theorem defined_calcZeroLinek (regular : dev.Regular) (bat : Rk817State) :
    Defined (currentFlows dev) (rk817BatCalcZeroLinek dev bat) := by
  refine (defined_batteryVoltage regular bat).bind fun voltageAvg => ?_
  refine ensures_zeroCurrent.bind fun currentAvg flows => ?_
  refine (defined_divide flows).bind fun powerpatchRes => ?_
  refine (defined_volToSoc _).bind fun deadSoc => (defined_volToCap _).bind fun deadCap => ?_
  refine (defined_volToSoc _).bind fun ocvSoc => (defined_volToCap _).bind fun ocvCap => ?_
  exact (defined_zeroSpeed currentAvg _ _).bind fun bat => defined_shutdownDrop _ _ bat

theorem defined_zeroAlgoPrepare (regular : dev.Regular) (bat : Rk817State) :
    Defined (currentFlows dev) (rk817BatZeroAlgoPrepare dev bat) :=
  defined_calcZeroLinek regular _

theorem defined_zeroAlgorithm (regular : dev.Regular) (bat : Rk817State) :
    Defined (currentFlows dev) (rk817BatZeroAlgorithm dev bat) := by
  have moved : Defined (currentFlows dev) (zeroMove dev bat) := by
    refine (defined_divide (nonzero_int32 _)).bind fun used => ?_
    exact Ensures.ite (fun _ => defined_calcZeroLinek regular _) fun _ => defined_pure _
  refine moved.bind fun bat => ?_
  split
  · exact (defined_initCoulombCap _ bat).bind fun bat => defined_calcZeroLinek regular bat
  · exact defined_pure bat

/-! ## The finish algorithm -/

theorem defined_finishAlgoPrepare (bat : Rk817State) :
    Defined allowed (rk817BatFinishAlgoPrepare bat) :=
  (defined_query _).bind fun _ => defined_pure _

theorem defined_finishLimit (bat : Rk817State) : Defined allowed (finishLimit dev bat) := by
  unfold finishLimit
  split
  · refine (defined_chargeStatus bat).bind fun status => ?_
    split
    · exact (defined_initCoulombCap _ bat).bind fun bat =>
        defined_capacityMah.bind fun capacity => defined_pure bat
    · exact defined_pure bat
  · exact defined_pure bat

/-- Widening keeps a word from being zero. -/
theorem widened_ne_zero {x : Int32} (other : x ≠ 0) : x.toInt64.toUInt64 ≠ 0 := by
  intro zero
  have wide : x.toInt64 = 0 := congrArg UInt64.toInt64 zero
  have value : x.toInt = 0 := by
    rw [← Int32.toInt_toInt64, wide]
    rfl
  exact other (Int32.toInt_inj.mp value)

theorem ensures_finishSocSec {finishCurrent : Int32}
    (seconds : dev.fcc * 3600 / 100 / finishCurrent ≠ 0) (flows : finishCurrent ≠ 0) :
    Ensures allowed (· ≠ 0) (finishSocSec dev finishCurrent) := by
  have unguarded : nonzero finishCurrent = finishCurrent := if_pos flows
  unfold finishSocSec
  rw [unguarded]
  apply (ensures_divide flows).bind
  rintro socSec rfl
  exact widened_ne_zero seconds

theorem defined_finishRest (rest : UInt64) : Defined allowed (finishRest rest) := by
  refine (defined_query _).bind fun now => ?_
  split
  · exact (defined_query _).bind fun later => defined_pure _
  · exact defined_pure now

theorem defined_finishCount (regular : dev.Regular) (bat : Rk817State) :
    Defined allowed (finishCount dev bat) := by
  refine (defined_startOf _).bind fun base => (defined_base2sec base).bind fun finishSec => ?_
  have socSecs : Ensures allowed (· ≠ 0)
      (finishSocSec dev (if bat.rsoc - bat.dsoc > 20 then 1500 else 1000)) := by
    split
    · exact ensures_finishSocSec (regular.seconds 1500 (by simp)) (by decide)
    · exact ensures_finishSocSec (regular.seconds 1000 (by simp)) (by decide)
  refine socSecs.bind fun socSec nonzero_socSec => ?_
  refine (defined_divide (nonzero_ne_zero (by decide) socSec)).bind fun plusSoc => ?_
  split
  · exact (defined_remainder nonzero_socSec).bind fun rest =>
      (defined_finishRest _).bind fun base => defined_pure _
  · exact defined_pure _

theorem defined_finishAlgorithm (regular : dev.Regular) (bat : Rk817State) :
    Defined allowed (rk817BatFinishAlgorithm dev bat) := by
  refine (defined_finishLimit bat).bind fun bat => ?_
  split
  · exact defined_finishCount regular bat
  · exact defined_pure bat

/-! ## Passes -/

theorem defined_limitToFcc (bat : Rk817State) : Defined allowed (limitToFcc dev bat) := by
  unfold limitToFcc
  split
  · refine (defined_initCoulombCap _ _).bind fun bat => ?_
    exact (defined_initCoulombCap _ bat).bind fun bat =>
      defined_capacityMah.bind fun capacity => defined_pure bat
  · exact defined_pure bat

theorem defined_updateInfo (regular : dev.Regular) (bat : Rk817State) :
    Defined allowed (rk817BatUpdateInfo dev bat) := by
  have sys (bat : Rk817State) : Defined allowed (rk817BatGetSysVoltage dev bat) :=
    defined_getter regular bat (by simp [voltageGetters])
  have usb (bat : Rk817State) : Defined allowed (rk817BatGetUsbVoltage dev bat) :=
    defined_getter regular bat (by simp [voltageGetters])
  refine (defined_batteryVoltage regular bat).bind fun voltageAvg => (sys bat).bind fun _ => ?_
  refine (defined_avgCurrent (defined_query _)).bind fun currentAvg => ?_
  refine (defined_relaxVoltage bat).bind fun voltageRelax => ?_
  refine defined_rsoc.bind fun rsoc => defined_capacityUah.bind fun remainCap => ?_
  refine (usb _).bind fun _ => ?_
  refine (defined_chargeStatus _).bind fun status => (defined_limitToFcc _).bind fun bat => ?_
  split
  · exact (defined_query _).bind fun now => defined_pure _
  · exact defined_pure bat

theorem defined_enter {workMode : WorkMode} {prepare : Rk817State → Program Rk817State}
    (prepared : ∀ bat, Defined allowed (prepare bat)) (bat : Rk817State) :
    Defined allowed (enter workMode prepare bat) := (prepared bat).bind fun _ => defined_pure _

theorem defined_displaySmooth (regular : dev.Regular) (bat : Rk817State) :
    Defined (currentFlows dev) (rk817BatDisplaySmooth dev bat) := by
  have toZero (bat : Rk817State) :
      Defined (currentFlows dev) (enter .zero (rk817BatZeroAlgoPrepare dev) bat) :=
    defined_enter (defined_zeroAlgoPrepare regular) bat
  have toSmooth (bat : Rk817State) :
      Defined (currentFlows dev) (enter .smooth (rk817BatSmoothAlgoPrepare dev) bat) :=
    defined_enter defined_smoothAlgoPrepare bat
  have toFinish (bat : Rk817State) :
      Defined (currentFlows dev) (enter .finish rk817BatFinishAlgoPrepare bat) :=
    defined_enter defined_finishAlgoPrepare bat
  unfold rk817BatDisplaySmooth
  split
  · exact (defined_zeroAlgoPrepare regular _).bind fun bat => defined_smoothAlgoPrepare bat
  split
  · refine (defined_finishAlgorithm regular bat).bind fun bat => ?_
    refine (defined_finished bat).bind fun still => ?_
    split
    · split
      · exact toZero bat
      · exact toSmooth bat
    · exact defined_pure bat
  · refine (defined_zeroAlgorithm regular bat).bind fun bat => ?_
    split
    · exact toSmooth bat
    · refine (defined_finished bat).bind fun now => ?_
      split
      · exact toFinish bat
      · exact defined_pure bat
  · refine (defined_smoothAlgorithm bat).bind fun bat => ?_
    split
    · exact toZero bat
    · refine (defined_finished bat).bind fun now => ?_
      split
      · exact toFinish bat
      · exact defined_pure bat

theorem defined_batteryWork (regular : dev.Regular) (bat : Rk817State) :
    Defined (currentFlows dev) (rk817BatteryWork dev bat) := by
  refine (defined_updateInfo regular bat).bind fun bat => ?_
  refine (defined_displaySmooth regular _).bind fun bat => ?_
  refine (defined_query _).bind fun calibrated : Bool => ?_
  exact Ensures.ite (fun _ => defined_initVoltageKb _) fun _ => defined_pure _

theorem defined_pmSuspend (bat : Rk817State) : Defined allowed (rk817BatPmSuspend dev bat) := by
  refine (defined_chargeStatus _).bind fun status => ?_
  refine (defined_avgCurrent (defined_query _)).bind fun currentAvg => ?_
  refine defined_capacityUah.bind fun remainCap => defined_rsoc.bind fun rsoc => ?_
  refine (defined_query _).bind fun rtcBase => Ensures.ite (fun _ => ?_) fun _ => ?_
  · exact Ensures.ite (fun _ => (defined_query _).bind fun _ => defined_pure _)
      fun _ => defined_pure _
  · refine (defined_query _).bind fun now => ?_
    exact Ensures.ite (fun _ => defined_smoothAlgoPrepare _) fun _ => defined_pure _

theorem defined_relaxVolCalib (regular : dev.Regular) (bat : Rk817State) :
    Defined (currentFlows dev) (rk817BatRelaxVolCalib dev bat) := by
  refine (defined_volToSoc _).bind fun soc => (defined_volToCap _).bind fun cap => ?_
  refine Ensures.ite (fun _ => defined_pure bat) fun _ => ?_
  refine (defined_initCoulombCap _ bat).bind fun bat => ?_
  exact (defined_smoothAlgoPrepare bat).bind fun bat => defined_zeroAlgoPrepare regular bat

theorem defined_relifeAgeFlag (bat : Rk817State) :
    Defined allowed (rk817BatRelifeAgeFlag dev bat) :=
  Ensures.ite (fun _ => defined_pure ()) fun _ => (defined_volToSoc _).bind fun _ =>
    (defined_volToCap _).bind fun _ => defined_pure ()

theorem defined_sleepDischrg (regular : dev.Regular) (bat : Rk817State) :
    Defined (currentFlows dev) (rk817BatSleepDischrg dev bat) := by
  have calibrated (updated : Bool) (bat : Rk817State) :
      Defined (currentFlows dev) (sleepCalib dev updated bat) :=
    Ensures.ite (fun _ => (defined_relaxVolCalib regular bat).bind fun bat =>
      (defined_relifeAgeFlag bat).bind fun _ => defined_pure bat) fun _ => defined_pure bat
  have used (bat : Rk817State) : Defined (currentFlows dev) (sleepUsed dev bat) :=
    Ensures.ite (fun _ => (defined_divide (nonzero_int32 _)).bind fun _ => defined_pure _)
      fun _ => (defined_divide (nonzero_int32 _)).bind fun _ => defined_pure _
  exact (calibrated _ bat).bind fun bat => (used bat).bind fun slept => defined_pure _

theorem defined_resumeWork (regular : dev.Regular) (bat : Rk817State) :
    Defined (currentFlows dev) (rk817BatResumeWork dev bat) := by
  refine (defined_avgCurrent (defined_query _)).bind fun currentAvg => ?_
  refine (defined_relaxVoltage bat).bind fun voltageRelax => ?_
  refine (defined_batteryVoltage regular bat).bind fun voltageAvg => ?_
  refine defined_capacityUah.bind fun remainCap => defined_rsoc.bind fun rsoc => ?_
  have slept (bat : Rk817State) : Defined (currentFlows dev) (rk817BatRtcSleepSec bat) :=
    (defined_query Reading.rtcSec).bind fun _ => defined_pure _
  refine (slept _).bind fun intervalSec => Ensures.ite (fun _ => defined_pure _) fun _ => ?_
  exact Ensures.ite (fun _ => (defined_sleepDischrg regular _).bind fun _ => defined_pure _)
    fun _ => defined_pure _

theorem defined_runPass (regular : dev.Regular) (bat : Rk817State) (pass : Pass) :
    Defined (currentFlows dev) (runPass dev bat pass) := by
  cases pass with
  | monitor => exact defined_batteryWork regular bat
  | suspend => exact defined_pmSuspend bat
  | resume => exact defined_resumeWork regular bat

end Passes

/-! ## Runs -/

/-- From any state, passes in any order come to no division by zero, nor does any getter of a
voltage. -/
theorem runs_defined {dev : Rk817Device} (regular : dev.Regular) (bat : Rk817State)
    (passes : List Pass) :
    Defined (currentFlows dev) (runPasses dev bat passes) ∧
      ∀ getter ∈ voltageGetters dev, Defined (currentFlows dev) (getter bat) := by
  refine ⟨?_, fun getter listed => defined_getter regular bat listed⟩
  induction passes generalizing bat with
  | nil => exact defined_pure bat
  | cons pass passes ih => exact (defined_runPass regular bat pass).bind ih

/-! ## A battery of 4 Ah -/

def plainNode : BatteryNode :=
  { ocvTable := some [3400, 3700, 4200], designCapacity := some 4000, designQmax := some 4400
    sampleRes := none, energyMode := none, zeroAlgorithmVol := some 3850, zeroReserveDsoc := none
    batRes := none, powerOffThresd := none, lowPowerSleep := none, batResUp := none
    batResDown := none, designMaxVoltage := none }

def plainData : PlatformData :=
  { ocvTable := [3400, 3700, 4200], designCapacity := 4000, designQmax := 4400, sampleRes := 20
    energyMode := 0, zeroAlgorithmVol := 3850, zeroReserveDsoc := 10 * 1000 * 1000, batRes := 135
    pwroffVol := 3400, lowPwrSleep := 0, batResUp := 0, batResDown := 0, designMaxVoltage := 0 }

/-- An RK817 with the node, which has stored no capacity yet. -/
def plainBattery : Rk817Device :=
  { isRk809 := false, np := plainNode, pdata := plainData, storedFcc := 0
    accepted := rfl, minFcc_le := by decide, capacity_le := by decide }

/-- Half charged, just resumed without a charger. -/
def resumed : Rk817State :=
  { workMode := .smooth, dsoc := 50000, rsoc := 50000, remainCap := 2000000
    smRemainCap := 2000000, smLinek := -1000, smoothSoc := 50000, zeroDsoc := 50000
    zeroLinek := 0, zeroRemainCap := 0, zeroTimeoutCnt := 0, zeroBatocvToCap := 0
    zeroDropSec := 0, shtdDropSec := 0, finishBase := 0, s2r := true, sleepChrgOnline := false
    sleepDischrgSec := 0, rtcBase := 0, voltageAvg := 3800, currentAvg := 0, voltageRelax := 0
    voltageK := 1000, voltageB := 0 }

theorem runs_plainBattery :
    Defined (currentFlows plainBattery)
        (runPasses plainBattery resumed [.monitor, .suspend, .resume]) ∧
      ∀ getter ∈ voltageGetters plainBattery,
        Defined (currentFlows plainBattery) (getter resumed) :=
  runs_defined ⟨fun rk809 => absurd rk809 (by decide),
      List.forall_mem_cons.mpr ⟨by decide, List.forall_mem_singleton.mpr (by decide)⟩⟩
    resumed [.monitor, .suspend, .resume]

/-- Every current is read as zero, and the battery stands at 3.8 V. -/
def restingAnswers : (reading : Reading) → reading.Answer
  | .batVol | .sysVol | .usbVol | .ocvVol | .ocvVol0 | .pwronVol => (3800 : Int32)
  | .vcalib0 | .vcalib1 => (0 : Int32)
  | .relaxMode | .capInvalid | .pluginTrigger | .curCalibUpd => false
  | .relaxVol1 | .relaxVol2 => (0 : UInt16)
  | .batCur | .zeroCur => (0 : Int32)
  | .qPress => (83720930 : UInt32)
  | .chgSts => ChargeStatus.chrgOff
  | .bootSec => (100 : UInt64)
  | .rtcSec => (1000 : Int64)

/-- The first pass after a resume divides by a current of zero. -/
theorem resting_divides_by_zero :
    ¬Defined (fun _ _ => True) (rk817BatteryWork plainBattery resumed) := by
  intro defined
  have fine : (rk817BatteryWork plainBattery resumed).fails restingAnswers = false :=
    Ensures.fails_eq_false defined fun _ => trivial
  have fails : (rk817BatteryWork plainBattery resumed).fails restingAnswers = true := by decide
  rw [fails] at fine
  cases fine

end Words
end Power
end RockchipSoc
