import RockchipSoc.Power.DisplayedCharge

/-!
# Runs of the battery monitor

Charging, the smooth algorithm can only raise the display, and the finish algorithm counts
seconds.  It counts them while the charger reports a finished charge; a report that ends within a
pass would let it compute a speed from an unlimited charge, and it does not end.
-/

namespace RockchipSoc
namespace Power

open CInt

variable {cfg : Rk817Config} {slept : ℕ} {low top current : ℤ} {bat bat' : Rk817Battery}
  {hw : Rk817Sample cfg}

/-! ### Charging -/

/-- A finished charge stays reported when the counter is set to the capacity. -/
theorem chargeStatus_finish (finish : rk817BatGetChargeStatus cfg hw bat = .chargeFinish)
    (voltage : bat'.voltageAvg = bat.voltageAvg) (current : bat'.currentAvg = bat.currentAvg)
    (rsoc : bat'.rsoc = bat.rsoc ∨ bat'.rsoc = 100000) :
    rk817BatGetChargeStatus cfg hw bat' = .chargeFinish := by
  rcases rsoc with same | full
  · rw [← finish]
    simp only [rk817BatGetChargeStatus, voltage, current, same]
  · unfold rk817BatGetChargeStatus at finish ⊢
    rw [voltage, current, full]
    split at finish
    · next isRk809 =>
        rw [if_pos isRk809]
        split at finish
        · next high => exact if_pos ⟨high.1, high.2.1, .inr (by decide)⟩
        · split at finish <;> cases finish
    · next isRk817 =>
        rw [if_neg isRk817]
        split at finish
        · next reported => exact if_pos ⟨reported.1, by decide⟩
        · rw [finish]
          decide

theorem finishSocSec_bounds (bat : Rk817Battery) :
    12 ≤ finishSocSec cfg bat ∧ finishSocSec cfg bat ≤ 360 := by
  obtain ⟨fcc_ge, fcc_le⟩ := fcc_bounds cfg
  simp only [finishSocSec]
  rw [cdiv_of_nonneg (a := cfg.fcc * 3600) (by omega)]
  split <;> rw [cdiv_of_nonneg (by omega)] <;> omega

theorem base2sec_eq (bootSec base : ℕ) :
    base2sec bootSec base = if base = 0 then 0 else bootSec - base := by
  unfold base2sec
  split <;> split <;> omega

/-- The count raises the display by the percents that were due, and then starts anew. -/
theorem finishCount_spec (nonneg : 0 ≤ bat.dsoc) (below : bat.dsoc < 100000)
    (recent : hw.bootSec ≤ bat.finishBase + 25000000) :
    ∃ dsoc base, finishCount cfg hw bat = { bat with dsoc := dsoc, finishBase := base } ∧
      bat.dsoc ≤ dsoc ∧ hw.bootSec ≤ base + 360 := by
  obtain ⟨sec_ge, sec_le⟩ := @finishSocSec_bounds cfg bat
  have elapsed : base2sec hw.bootSec (finishStart cfg hw bat) ≤ 25000000 := by
    rw [base2sec_eq]
    unfold finishStart
    split
    · rw [Nat.sub_self, ite_self]
      exact Nat.zero_le _
    · omega
  simp only [finishCount]
  rw [if_pos (show finishSocSec cfg bat ≠ 0 by omega)]
  have percents := Nat.div_mul_le_self (base2sec hw.bootSec (finishStart cfg hw bat))
    (finishSocSec cfg bat)
  have percents_le : base2sec hw.bootSec (finishStart cfg hw bat) / finishSocSec cfg bat ≤
      2083334 := Nat.div_le_of_le_mul (by nlinarith)
  generalize base2sec hw.bootSec (finishStart cfg hw bat) / finishSocSec cfg bat = plus
    at percents percents_le
  split
  · refine ⟨_, _, rfl, ?_, ?_⟩
    · rw [s32_of_fits (n := (plus : ℤ)) (by omega) (by omega),
        s32_of_fits (n := (plus : ℤ) * 1000) (by omega) (by omega),
        s32_of_fits (by omega) (by omega)]
      omega
    · have rest_lt := Nat.mod_lt (base2sec hw.bootSec (finishStart cfg hw bat))
        (show 0 < finishSocSec cfg bat by omega)
      split <;> omega
  · next early =>
      refine ⟨bat.dsoc, finishStart cfg hw bat, rfl, le_rfl, ?_⟩
      have kept : base2sec hw.bootSec (finishStart cfg hw bat) ≤ 360 := by omega
      rw [base2sec_eq] at kept
      unfold finishStart at kept ⊢
      split at kept <;> split <;> omega

/-- Current flows into the battery, and the pass comes within the longest delay of the work, an
unsigned number of milliseconds. -/
def Rk817Sample.Charging (hw : Rk817Sample cfg) (bat : Rk817Battery) : Prop :=
  0 < hw.current ∧ 0 < hw.laterCurrent ∧ hw.bootSec ≤ bat.passSec + 5000000

/-- The state between two passes while the battery is charged without a suspend. -/
structure ChargeSane (cfg : Rk817Config) (bat : Rk817Battery) : Prop where
  sane : Sane cfg bat
  awake : bat.s2r = false
  mode : bat.workMode = .smooth ∨ bat.workMode = .finish
  counted : bat.workMode = .finish → bat.dsoc < 100000 → bat.passSec ≤ bat.finishBase + 20000000

/-- Inside a charging pass, once the readings have been taken. -/
structure ChargePass (cfg : Rk817Config) (hw : Rk817Sample cfg) (slept : ℕ) (start : ℤ)
    (bat : Rk817Battery) : Prop where
  inPass : InPass cfg slept start start hw.current bat
  start_nonneg : 0 ≤ start
  start_le : start ≤ 100000
  gauge : rk817BatGetCapacityUah cfg bat.qPress ≤ 11000000
  awake : bat.s2r = false
  mode : bat.workMode = .smooth ∨ bat.workMode = .finish
  now : bat.passSec = hw.bootSec
  counted : bat.workMode = .finish → start < 100000 → hw.bootSec ≤ bat.finishBase + 25000000
  reported : rk817BatGetChargeStatus cfg hw bat = .chargeFinish ∨ bat.finishBase = hw.bootSec

theorem initCoulombCap_fcc (bat : Rk817Battery) :
    (rk817BatInitCoulombCap cfg cfg.fcc bat).rsoc = 100000 := by
  have fcc_ge := (fcc_bounds cfg).1
  rw [(initCoulombCap_values (by omega) le_rfl _).2.1, mul_comm]
  exact Int.mul_ediv_cancel _ (by omega)

theorem limitToFcc_frame (bat : Rk817Battery) :
    (limitToFcc cfg bat).s2r = bat.s2r ∧ (limitToFcc cfg bat).workMode = bat.workMode ∧
      (limitToFcc cfg bat).passSec = bat.passSec ∧
      (limitToFcc cfg bat).finishBase = bat.finishBase ∧
      (limitToFcc cfg bat).voltageAvg = bat.voltageAvg ∧
      (limitToFcc cfg bat).currentAvg = bat.currentAvg ∧
      ((limitToFcc cfg bat).rsoc = bat.rsoc ∨ (limitToFcc cfg bat).rsoc = 100000) := by
  unfold limitToFcc
  split
  · exact ⟨rfl, rfl, rfl, rfl, rfl, rfl, .inr (initCoulombCap_fcc _)⟩
  · exact ⟨rfl, rfl, rfl, rfl, rfl, rfl, .inl rfl⟩

/-- The readings of a charging pass. -/
theorem ChargeSane.updateInfo (sane : ChargeSane cfg bat) (on : hw.Charging bat) :
    ChargePass cfg hw bat.sleepDischrgSec bat.dsoc
      (rk817BatUpdateInfo cfg hw { bat with passSec := hw.bootSec }) := by
  have started : Sane cfg { bat with passSec := hw.bootSec } := { sane.sane with }
  obtain ⟨inPass, gauge⟩ := @Sane.limitToFcc cfg _ hw started
  obtain ⟨s2r, mode, pass, base, voltage, current, rsoc⟩ := @limitToFcc_frame cfg
    (updateRead cfg hw { bat with passSec := hw.bootSec })
  have recent : bat.workMode = .finish → bat.dsoc < 100000 →
      hw.bootSec ≤ bat.finishBase + 25000000 := fun finish below => by
    have counted := sane.counted finish below
    have prompt := on.2.2
    omega
  unfold rk817BatUpdateInfo
  dsimp only
  split
  · exact ⟨{ inPass with }, sane.sane.dsoc_nonneg, sane.sane.dsoc_le, gauge, s2r.trans sane.awake,
      sane.mode.imp mode.trans mode.trans, pass, fun _ _ => Nat.le_add_right _ _, .inr rfl⟩
  · next finish =>
      refine ⟨inPass, sane.sane.dsoc_nonneg, sane.sane.dsoc_le, gauge, s2r.trans sane.awake,
        sane.mode.imp mode.trans mode.trans, pass, fun finish' below => ?_, .inl ?_⟩
      · rw [base]
        exact recent (mode.symm.trans finish') below
      · exact chargeStatus_finish (not_not.mp finish) voltage current rsoc

theorem finishLimit_rsoc (bat : Rk817Battery) :
    (finishLimit cfg hw bat).rsoc = bat.rsoc ∨ (finishLimit cfg hw bat).rsoc = 100000 := by
  unfold finishLimit
  split
  · exact .inr (initCoulombCap_fcc bat)
  · exact .inl rfl

theorem ChargePass.lowpwrCheck {start : ℤ} (pass : ChargePass cfg hw slept start bat)
    (positive : 0 < hw.current) : rk817BatLowpwrCheck cfg bat = bat := by
  have current_eq := pass.inPass.current_eq
  simp only [rk817BatLowpwrCheck]
  rw [if_neg]
  omega

/-- The finish algorithm of a charging pass: only a reported end of the charge moves the display. -/
theorem ChargePass.finishAlgorithm {start : ℤ} (pass : ChargePass cfg hw slept start bat)
    (finish : bat.workMode = .finish) :
    ∃ top base, InPass cfg slept start top hw.current (rk817BatFinishAlgorithm cfg hw bat) ∧
      (rk817BatFinishAlgorithm cfg hw bat).s2r = false ∧
      (rk817BatFinishAlgorithm cfg hw bat).passSec = hw.bootSec ∧
      (rk817BatFinishAlgorithm cfg hw bat).workMode = .finish ∧
      (rk817BatFinishAlgorithm cfg hw bat).finishBase = base ∧
      (start < 100000 → hw.bootSec ≤ base + 360) ∧
      (top ≤ 100000 ∨
        rk817BatGetChargeStatus cfg hw (rk817BatFinishAlgorithm cfg hw bat) = .chargeFinish) := by
  obtain ⟨base_eq, dsoc_eq, s2r_eq, pass_eq⟩ := finishLimit_frame hw bat
  have mode_eq : (finishLimit cfg hw bat).workMode = bat.workMode := by
    unfold finishLimit
    split <;> rfl
  have limited := @InPass.finishLimit cfg slept start start hw.current bat hw pass.inPass
  have awake := s2r_eq.trans pass.awake
  have now := pass_eq.trans pass.now
  have mode := mode_eq.trans finish
  have low_le := limited.low_le
  have le_top := limited.le_top
  simp only [rk817BatFinishAlgorithm]
  split
  · next below =>
      have recent : hw.bootSec ≤ (finishLimit cfg hw bat).finishBase + 25000000 := by
        rw [base_eq]
        exact pass.counted finish (by omega)
      obtain ⟨dsoc, base, counted, dsoc_ge, base_ge⟩ :=
        finishCount_spec (pass.start_nonneg.trans low_le) below recent
      rcases pass.reported with reported | fresh
      · rw [counted]
        refine ⟨dsoc, base, { limited with low_le := low_le.trans dsoc_ge, le_top := le_rfl },
          awake, now, mode, rfl, fun _ => base_ge, .inr ?_⟩
        exact chargeStatus_finish reported (by unfold finishLimit; split <;> rfl)
          (by unfold finishLimit; split <;> rfl) (finishLimit_rsoc bat)
      · rw [finishCount_fresh (base_eq.trans fresh)]
        exact ⟨start, hw.bootSec, { limited with }, awake, now, mode, rfl,
          fun _ => Nat.le_add_right _ _, .inl pass.start_le⟩
  · next full =>
      exact ⟨start, _, limited, awake, now, mode, rfl, fun below => by omega, .inl pass.start_le⟩

/-- The state at the end of a charging pass, before it is published. -/
structure ChargeShown (cfg : Rk817Config) (hw : Rk817Sample cfg) (slept : ℕ) (start : ℤ)
    (bat : Rk817Battery) : Prop where
  inPass : ∃ top, InPass cfg slept start top hw.current bat
  awake : bat.s2r = false
  mode : bat.workMode = .smooth ∨ bat.workMode = .finish
  now : bat.passSec = hw.bootSec
  counted : bat.workMode = .finish → start < 100000 → hw.bootSec ≤ bat.finishBase + 360

/-- A charging pass does not lower the display. -/
theorem ChargePass.displaySmooth {start : ℤ} (pass : ChargePass cfg hw slept start bat)
    (positive : 0 < hw.current) (later : 0 < hw.laterCurrent) :
    ChargeShown cfg hw slept start (rk817BatDisplaySmooth cfg hw bat) := by
  have start_ge : -200000 ≤ start := le_trans (by decide) pass.start_nonneg
  have start_le : start ≤ 300000 := pass.start_le.trans (by decide)
  simp only [rk817BatDisplaySmooth]
  rw [if_neg (by simp [pass.awake])]
  rcases pass.mode with smooth | finish
  · obtain ⟨shown, awake, now, mode⟩ := pass.inPass.smoothAlgorithm_chrg pass.gauge start_ge
      start_le positive later pass.awake
    have charging : ¬(rk817BatSmoothAlgorithm cfg hw bat).currentAvg < 0 := by
      rw [shown.current_eq]
      exact not_lt.mpr positive.le
    simp only [smooth, charging, false_and, if_false]
    split
    · refine ⟨⟨_, { shown with }⟩, awake, .inr rfl, now.trans pass.now, fun _ _ => ?_⟩
      show hw.bootSec ≤ (if hw.bootSec = 0 then 1 else hw.bootSec) + 360
      split <;> omega
    · refine ⟨⟨_, shown⟩, awake, .inl (mode.trans smooth), now.trans pass.now, fun finish => ?_⟩
      rw [mode, smooth] at finish
      cases finish
  · obtain ⟨top, base, shown, awake, now, mode, base_eq, recent, limited⟩ :=
      pass.finishAlgorithm finish
    have charging : ¬(rk817BatFinishAlgorithm cfg hw bat).currentAvg < 0 := by
      rw [shown.current_eq]
      exact not_lt.mpr positive.le
    simp only [finish, charging, false_and, if_false]
    split
    · next ended =>
        have top_le : top ≤ 300000 := by
          rcases limited with low | reported
          · omega
          · exact absurd (.inl reported) ended
        exact ⟨⟨top, { shown.smoothAlgoPrepare start_ge top_le with }⟩, awake, .inl rfl, now,
          fun finish' => by cases finish'⟩
    · exact ⟨⟨top, shown⟩, awake, .inr mode, now, fun _ below => base_eq ▸ recent below⟩

theorem ChargeSane.work (sane : ChargeSane cfg bat) (on : hw.Charging bat) :
    ChargeSane cfg (rk817BatteryWork cfg hw bat) ∧
      bat.dsoc ≤ (rk817BatteryWork cfg hw bat).dsoc := by
  have pass := sane.updateInfo on
  have dsoc_le := sane.sane.dsoc_le
  unfold rk817BatteryWork
  rw [pass.lowpwrCheck on.1]
  obtain ⟨⟨top, shown⟩, awake, mode, now, counted⟩ := pass.displaySmooth on.1 on.2.1
  have published := shown.published sane.sane.sleep_le
  have low_le := shown.low_le
  rw [powerSupplyChanged_eq] at published ⊢
  refine ⟨⟨published, awake, mode, fun finish below => ?_⟩, ?_⟩
  · have recent := counted finish (by dsimp only at below; omega)
    dsimp only
    rw [now]
    exact recent.trans (Nat.add_le_add_left (by decide) _)
  · dsimp only
    omega

/-! ### Runs -/

/-- What happens to the driver: a monitor pass, a suspend, or the pass after a resume. -/
inductive Rk817Event (cfg : Rk817Config)
  | work (hw : Rk817Sample cfg)
  | suspend (hw : Rk817Sample cfg)
  | resume (hw : Rk817Sample cfg)

def rk817Step (bat : Rk817Battery) : Rk817Event cfg → Rk817Battery
  | .work hw => rk817BatteryWork cfg hw bat
  | .suspend hw => rk817BatPmSuspend cfg hw bat
  | .resume hw => rk817BatResumeWork cfg hw bat

/-- The charges published along a run, one for each monitor pass. -/
def published (bat : Rk817Battery) : List (Rk817Event cfg) → List ℤ
  | [] => []
  | .work hw :: events =>
      (rk817BatteryWork cfg hw bat).dsoc :: published (rk817BatteryWork cfg hw bat) events
  | .suspend hw :: events => published (rk817BatPmSuspend cfg hw bat) events
  | .resume hw :: events => published (rk817BatResumeWork cfg hw bat) events

def Rk817Event.Discharging : Rk817Event cfg → Prop
  | .work hw => hw.Discharging
  | .suspend hw => hw.Discharging
  | .resume hw => hw.Discharging

/-- Only monitor passes, each of them charging. -/
def ChargingRun (bat : Rk817Battery) : List (Rk817Event cfg) → Prop
  | [] => True
  | .work hw :: events => hw.Charging bat ∧ ChargingRun (rk817BatteryWork cfg hw bat) events
  | _ :: _ => False

theorem published_dischrg {events : List (Rk817Event cfg)} (sane : Sane cfg bat)
    (off : ∀ event ∈ events, event.Discharging) :
    (bat.dsoc :: published bat events).Pairwise (· ≥ ·) ∧
      ∀ dsoc ∈ published bat events, 0 ≤ dsoc ∧ dsoc ≤ 100000 := by
  induction events generalizing bat with
  | nil => simp [published]
  | cons event events ih =>
      have first := off event List.mem_cons_self
      have later := fun event member => off event (List.mem_cons_of_mem _ member)
      have lowered : Sane cfg (rk817Step bat event) ∧ (rk817Step bat event).dsoc ≤ bat.dsoc := by
        cases event with
        | work hw => exact sane.work_dischrg first
        | suspend hw =>
            obtain ⟨sane', same⟩ := sane.suspend_dischrg first
            exact ⟨sane', same.le⟩
        | resume hw => exact sane.resume_dischrg
      obtain ⟨sorted, range⟩ := ih lowered.1 later
      obtain ⟨head, tail⟩ := List.pairwise_cons.mp sorted
      have below : ∀ dsoc ∈ published (rk817Step bat event) events, bat.dsoc ≥ dsoc :=
        fun dsoc member => (head dsoc member).trans lowered.2
      cases event with
      | work hw =>
          refine ⟨List.pairwise_cons.mpr ⟨fun dsoc member => ?_, sorted⟩, fun dsoc member => ?_⟩
          · rcases List.mem_cons.mp member with rfl | member
            · exact lowered.2
            · exact below dsoc member
          · rcases List.mem_cons.mp member with rfl | member
            · exact ⟨lowered.1.dsoc_nonneg, lowered.1.dsoc_le⟩
            · exact range dsoc member
      | suspend hw => exact ⟨List.pairwise_cons.mpr ⟨below, tail⟩, range⟩
      | resume hw => exact ⟨List.pairwise_cons.mpr ⟨below, tail⟩, range⟩

theorem published_chrg {events : List (Rk817Event cfg)} (sane : ChargeSane cfg bat)
    (on : ChargingRun bat events) :
    (bat.dsoc :: published bat events).Pairwise (· ≤ ·) ∧
      ∀ dsoc ∈ published bat events, 0 ≤ dsoc ∧ dsoc ≤ 100000 := by
  induction events generalizing bat with
  | nil => simp [published]
  | cons event events ih =>
      cases event with
      | work hw =>
          obtain ⟨sane', raised⟩ := sane.work on.1
          obtain ⟨sorted, range⟩ := ih sane' on.2
          obtain ⟨head, _⟩ := List.pairwise_cons.mp sorted
          refine ⟨List.pairwise_cons.mpr ⟨fun dsoc member => ?_, sorted⟩, fun dsoc member => ?_⟩
          · rcases List.mem_cons.mp member with rfl | member
            · exact raised
            · exact raised.trans (head dsoc member)
          · rcases List.mem_cons.mp member with rfl | member
            · exact ⟨sane'.sane.dsoc_nonneg, sane'.sane.dsoc_le⟩
            · exact range dsoc member
      | suspend hw => exact on.elim
      | resume hw => exact on.elim

/-- `rk817_bat_init_dsoc_algorithm`. -/
def rk817BatInitDsocAlgorithm (hw : Rk817Sample cfg) (bat : Rk817Battery) : Rk817Battery :=
  let dsoc := if bat.dsoc ≥ 100 * 1000 then 100 * 1000 else if bat.dsoc ≤ 0 then 0 else bat.dsoc
  let bat := { bat with dsoc := dsoc, voltageAvg := hw.voltage, currentAvg := hw.current }
  if rk817BatGetChargeStatus cfg hw bat = .chargeFinish then
    { rk817BatFinishAlgoPrepare cfg hw bat with workMode := .finish }
  else { rk817BatSmoothAlgoPrepare cfg hw bat with workMode := .smooth }

/-- A device as it is allocated, with the charge and the capacity the start-up has found. -/
def rk817Allocated (dsoc : ℤ) : Rk817Battery :=
  ⟨.zero, dsoc, 0, 0, 0, 0, 0, 0, 0, 0, 0, 0, 0, 0, 0, false, false, 0, 0, 0, 0, 0, 0, 0⟩

/-- The start-up leaves a sane state for the monitor. -/
theorem sane_init (hw : Rk817Sample cfg) {nac dsoc : ℤ} (nonneg : 0 ≤ nac)
    (within : nac ≤ cfg.fcc) :
    Sane cfg (rk817BatInitDsocAlgorithm hw
      (rk817BatInitCoulombCap cfg nac (rk817Allocated dsoc))) := by
  obtain ⟨fcc_ge, fcc_le⟩ := fcc_bounds cfg
  obtain ⟨remain_eq, rsoc_eq, rsoc_nonneg, rsoc_le⟩ :=
    initCoulombCap_values nonneg within (rk817Allocated dsoc)
  obtain ⟨shown, shown_eq, shown_nonneg, shown_le⟩ : ∃ shown,
      (if dsoc ≥ 100 * 1000 then 100 * 1000 else if dsoc ≤ 0 then 0 else dsoc) = shown ∧
        0 ≤ shown ∧ shown ≤ 100000 := by
    refine ⟨_, rfl, ?_⟩
    split
    · omega
    · split <;> omega
  have pass : InPass cfg 0 0 100000 hw.current
      { rk817BatInitCoulombCap cfg nac (rk817Allocated dsoc) with
        dsoc := shown, voltageAvg := hw.voltage, currentAvg := hw.current } :=
    { low_le := shown_nonneg
      le_top := shown_le
      current_eq := rfl
      slept_eq := rfl
      linek_ge := show (-1333 : ℤ) ≤ 0 by decide
      linek_le := show (0 : ℤ) ≤ 1333 by decide
      smRemain_nonneg := le_refl (0 : ℤ)
      smRemain_le := show (0 : ℤ) ≤ 16000000 by decide
      remain_nonneg := by
        dsimp only
        rw [remain_eq]
        omega
      remain_le := by
        dsimp only
        rw [remain_eq]
        omega
      rsoc_nonneg := by
        dsimp only
        rw [rsoc_eq]
        exact rsoc_nonneg
      rsoc_le := by
        dsimp only
        rw [rsoc_eq]
        exact rsoc_le.trans (by decide)
      zeroCap_nonneg := le_refl (0 : ℤ)
      zeroCap_le := le_trans (show (0 : ℤ) ≤ 500 by decide) fcc_ge }
  have dsoc_eq : (rk817BatInitCoulombCap cfg nac (rk817Allocated dsoc)).dsoc = dsoc := rfl
  simp only [rk817BatInitDsocAlgorithm, dsoc_eq, shown_eq]
  split
  · exact { pass with
      dsoc_nonneg := shown_nonneg
      dsoc_le := shown_le
      sleep_le := Nat.zero_le _ }
  · have prepared := @InPass.smoothAlgoPrepare cfg 0 0 100000 hw.current _ hw pass (by decide)
      (by decide)
    exact { prepared with
      dsoc_nonneg := shown_nonneg
      dsoc_le := shown_le
      sleep_le := Nat.zero_le _ }

/-! ### A board -/

def boardConfig : Rk817Config :=
  { isRk809 := false
    fcc := 4000
    resDiv := 1
    batRes := 120
    pwroffVol := 3400
    zeroAlgorithmVol := 3850
    zeroReserveDsoc := 10
    designMaxVoltage := 4200
    energyMode := false
    lowPwrSleep := false
    ocvTable := [3400, 3675, 3689, 3716, 3740, 3756, 3768, 3780, 3793, 3807, 3827, 3853, 3896,
      3937, 3974, 4007, 4066, 4110, 4161, 4217, 4308]
    fcc_valid := by decide
    fcc_fits := by decide
    fcc_le := by decide
    resDiv_pos := by decide
    resDiv_le := by decide
    ocvTable_short := by decide }

def boardSample (status : ChargeStatus) (current voltage : ℤ) (qPress bootSec : ℕ) :
    Rk817Sample boardConfig :=
  ⟨voltage, current, voltage, current, voltage, status, false, qPress, id, bootSec, 0,
    fun _ => Int.le_add_of_nonneg_right (by decide)⟩

/-- The half full battery after the start-up. -/
def boardStart : Rk817Battery :=
  rk817BatInitDsocAlgorithm (boardSample .chrgOff (-300) 3800 41860000 5)
    (rk817BatInitCoulombCap boardConfig 2000 (rk817Allocated 50000))

/-- Two passes, a sleep of a thousand seconds, and another pass. -/
def boardDischarge : List (Rk817Event boardConfig) :=
  [.work (boardSample .chrgOff (-300) 3800 38000000 1000),
    .work (boardSample .chrgOff (-300) 3800 36000000 1010),
    .suspend (boardSample .chrgOff (-300) 3800 35000000 1020),
    .resume (boardSample .chrgOff (-300) 3800 30000000 2020),
    .work (boardSample .chrgOff (-300) 3800 29900000 2022)]

/-- Two passes, and two more after the charger has reported the end of the charge. -/
def boardCharge : List (Rk817Event boardConfig) :=
  [.work (boardSample .ccOrCvChrg 300 3800 41967168 1000),
    .work (boardSample .ccOrCvChrg 300 3800 43967168 1010),
    .work (boardSample .chargeFinish 300 4180 83967168 1020),
    .work (boardSample .chargeFinish 300 4180 83967168 1400)]

end Power
end RockchipSoc
