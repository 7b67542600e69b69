import Mathlib.Algebra.BigOperators.Group.List.Basic
import Mathlib.Algebra.Ring.Int.Defs
import RockchipSoc.SystemMonitor.RateVoltSafe

/-!
# When a change of rate and voltage is sound

Besides the voltages: the clocks of the operating points are released on some of the exits only, a
refused clock is not reported, and the old values are back whenever nothing but the refused
operation has failed.
-/

namespace RockchipSoc
namespace SystemMonitor

open NearestEntry OpTrace

variable {info : MonitorDevInfo} {isSetClk : Bool} {dev now : DevState} {results : OpResults}
  {opp cur : DevPmOpp} {ops : List DevOp} {rest : ℤ × List DevOp}

/-! ### The clocks of the operating points -/

/-- What an operation adds to the count of the clocks. -/
def DevOp.enables : DevOp → ℤ
  | .clkBulkPrepareEnable ret => if ret = 0 then 1 else 0
  | .clkBulkDisableUnprepare => -1
  | _ => 0

def enables (ops : List DevOp) : ℤ := (ops.map DevOp.enables).sum

theorem enables_append (left right : List DevOp) :
    enables (left ++ right) = enables left + enables right := by
  simp [enables]

@[simp] theorem enables_cons (op : DevOp) : enables (op :: ops) = op.enables + enables ops := by
  simp [enables]

@[simp] theorem enables_nil : enables [] = 0 := rfl

theorem run_enableCount : (dev.run info ops).enableCount = dev.enableCount + enables ops := by
  induction ops generalizing dev with
  | nil => exact (add_zero _).symm
  | cons op ops ih =>
      have step : (dev.act info op).enableCount = dev.enableCount + op.enables := by
        cases op <;> simp only [DevState.act, DevOp.enables] <;> (try split) <;>
          simp [sub_eq_add_neg]
      rw [DevState.run, List.foldl_cons, ← DevState.run, ih, step, enables_cons, add_assoc]

@[simp] theorem enables_setReadMargin (uV : ℕ) : enables (setReadMargin info uV) = 0 := by
  unfold setReadMargin
  split
  · split <;> rfl
  · rfl

/-- One for a device with clocks to enable. -/
def held (info : MonitorDevInfo) : ℤ := if info.oppInfo.isSome then 1 else 0

theorem enables_disableClk : enables (disableClk info) = -held info := by
  unfold disableClk held
  split <;> rfl

theorem enables_restoreRm : enables (restoreRm info dev results) = -held info := by
  rw [restoreRm, restoreVoltage, enables_append, enables_append, enables_setReadMargin]
  split <;> simp [DevOp.enables, enables_disableClk]

theorem enables_restoreVoltage : enables (restoreVoltage info dev results) = -held info := by
  rw [← @enables_restoreRm info dev results, restoreRm, enables_append, enables_setReadMargin,
    zero_add]

theorem enables_restoreFreq : enables (restoreFreq info isSetClk dev results) = -held info := by
  rw [restoreFreq, enables_append, enables_restoreRm]
  split <;> simp [DevOp.enables]

theorem enables_before : enables (before ops rest).2 = enables ops + enables rest.2 :=
  enables_append _ _

/-- A supply refuses the voltage of the operating point. -/
def VoltRefused (info : MonitorDevInfo) (results : OpResults) : Prop :=
  (info.regulatorCount > 1 ∧ results.mem ≠ 0) ∨ results.vdd ≠ 0

instance : Decidable (VoltRefused info results) := inferInstanceAs (Decidable (_ ∨ _))

theorem enables_raiseRate : enables (raiseRate info isSetClk dev results opp).2 =
    if opp.rate = dev.rate ∧ ¬VoltRefused info results then 0 else -held info := by
  have clk : enables (raiseClk info isSetClk dev results opp).2 = -held info := by
    unfold raiseClk
    split
    · split <;> simp [DevOp.enables, enables_restoreRm, enables_disableClk]
    · exact enables_disableClk
  have vdd : enables (raiseVdd info isSetClk dev results opp).2 =
      if opp.rate = dev.rate ∧ results.vdd = 0 then 0 else -held info := by
    unfold raiseVdd
    split
    · next refused => simp [DevOp.enables, enables_restoreVoltage, refused]
    · next accepted =>
        rw [enables_before]
        split
        · next same => simp [DevOp.enables, same, not_not.mp accepted]
        · next differ => simp [DevOp.enables, differ, clk]
  unfold raiseRate
  split
  · next second =>
      split
      · next refused =>
          have voltRefused : VoltRefused info results := .inl ⟨second, refused⟩
          simp [DevOp.enables, enables_restoreVoltage, voltRefused]
      · next accepted =>
          rw [enables_before, vdd]
          simp [DevOp.enables, VoltRefused, not_not.mp accepted]
  · next single =>
      rw [vdd]
      simp [VoltRefused, single]

theorem enables_lowerRate :
    enables (lowerRate info isSetClk dev results opp).2 = -held info := by
  have mem : enables (lowerMem info isSetClk dev results opp).2 = -held info := by
    unfold lowerMem
    split
    · split <;> simp [DevOp.enables, enables_restoreFreq, enables_disableClk]
    · exact enables_disableClk
  have volt : enables (lowerVolt info isSetClk dev results opp).2 = -held info := by
    rw [lowerVolt, enables_before, enables_setReadMargin, zero_add]
    split
    · simp [DevOp.enables, enables_restoreFreq]
    · rw [enables_before, mem]
      simp [DevOp.enables]
  unfold lowerRate
  split
  · split
    · simp [DevOp.enables, enables_restoreRm]
    · rw [enables_before, volt]
      simp [DevOp.enables]
  · exact volt

/-! ### Reported errors -/

/-- If an operation fails, an error is returned. -/
def Reports (rest : ℤ × List DevOp) : Prop := ∀ op ∈ rest.2, op.failed → rest.1 ≠ 0

theorem reports_of_ne (error : rest.1 ≠ 0) : Reports rest := fun _ _ _ => error

theorem reports_before (accepted : ∀ op ∈ ops, op.failed = false) :
    Reports (before ops rest) ↔ Reports rest := by
  refine ⟨fun reports op member => reports op (List.mem_append_right _ member),
    fun reports op member failed => ?_⟩
  rcases List.mem_append.mp member with early | late
  · rw [accepted op early] at failed
    cases failed
  · exact reports op late failed

theorem setReadMargin_accepted (uV : ℕ) : ∀ op ∈ setReadMargin info uV, op.failed = false := by
  unfold setReadMargin
  split
  · split
    · simp [DevOp.failed]
    · simp
  · simp

theorem disableClk_accepted : ∀ op ∈ disableClk info, op.failed = false := by
  unfold disableClk
  split
  · simp [DevOp.failed]
  · simp

theorem reports_disableClk {ret : ℤ} : Reports (ret, disableClk info) := by
  intro op member failed
  rw [disableClk_accepted op member] at failed
  cases failed

/-- The rate is reported where nothing behind it fails. -/
theorem reports_setClk {rate : ℕ} {ops : List DevOp} {rest : ℤ × List DevOp}
    (reports : Reports rest) :
    Reports (if isSetClk then
        if results.clk ≠ 0 then (0, .clkSetRate rate results.clk :: ops)
        else before [.clkSetRate rate results.clk] rest
      else rest) ↔ (isSetClk = true → results.clk = 0) := by
  split
  · next setClk =>
      split
      · next refused =>
          refine iff_of_false (fun reports => ?_) fun accepted => refused (accepted setClk)
          exact reports _ List.mem_cons_self (by simpa [DevOp.failed] using refused) rfl
      · next accepted =>
          refine iff_of_true ?_ fun _ => not_not.mp accepted
          exact (reports_before (by simpa [DevOp.failed] using accepted)).mpr reports
  · next unset => exact iff_of_true reports fun setClk => absurd setClk unset

theorem reports_raiseRate : Reports (raiseRate info isSetClk dev results opp) ↔
    (isSetClk = true → opp.rate ≠ dev.rate → ¬VoltRefused info results → results.clk = 0) := by
  have clk : Reports (raiseClk info isSetClk dev results opp) ↔
      (isSetClk = true → results.clk = 0) := reports_setClk reports_disableClk
  have vdd : Reports (raiseVdd info isSetClk dev results opp) ↔
      (isSetClk = true → opp.rate ≠ dev.rate → results.vdd = 0 → results.clk = 0) := by
    unfold raiseVdd
    split
    · next refused =>
        exact iff_of_true (reports_of_ne refused) fun _ _ accepted => absurd accepted refused
    · next accepted =>
        have accepted := not_not.mp accepted
        rw [reports_before]
        · split
          · next same =>
              refine iff_of_true (fun _ member => by cases member) fun _ differ => ?_
              exact absurd same differ
          · next differ => simp [clk, differ, accepted]
        · simpa [DevOp.failed, accepted] using setReadMargin_accepted opp.uVolt
  unfold raiseRate
  split
  · next second =>
      split
      · next refused =>
          refine iff_of_true (reports_of_ne refused) fun _ _ accepted => ?_
          exact absurd (.inl ⟨second, refused⟩) accepted
      · next accepted =>
          rw [reports_before (by simpa [DevOp.failed] using accepted), vdd]
          simp [VoltRefused, not_not.mp accepted]
  · next single =>
      rw [vdd]
      simp [VoltRefused, single]

theorem reports_lowerRate : Reports (lowerRate info isSetClk dev results opp) ↔
    (isSetClk = true → results.clk = 0) := by
  have mem : Reports (lowerMem info isSetClk dev results opp) := by
    unfold lowerMem
    split
    · split
      · next refused => exact reports_of_ne refused
      · next accepted =>
          exact (@reports_before [.setMem opp.uMemVolt results.mem] (0, disableClk info)
            (by simpa [DevOp.failed] using accepted)).mpr reports_disableClk
    · exact reports_disableClk
  have volt : Reports (lowerVolt info isSetClk dev results opp) := by
    refine (reports_before (setReadMargin_accepted _)).mpr ?_
    split
    · next refused => exact reports_of_ne refused
    · next accepted => exact (reports_before (by simpa [DevOp.failed] using accepted)).mpr mem
  exact reports_setClk volt

/-! ### The old values -/

/-- The old rate and the old voltages are in force. -/
def Restored (info : MonitorDevInfo) (dev after : DevState) : Prop :=
  after.rate = dev.rate ∧ after.vdd = dev.vdd ∧
    (info.regulatorCount > 1 → after.mem = dev.mem)

/-- The operations bring the old values back if exactly one of them has failed. -/
def Undoes (info : MonitorDevInfo) (dev now : DevState) (ops : List DevOp) : Prop :=
  ops.countP DevOp.failed = 1 → Restored info dev (now.run info ops)

theorem run_append (left right : List DevOp) :
    now.run info (left ++ right) = (now.run info left).run info right := by
  simp [DevState.run]

theorem run_quiet (quiet : ∀ op ∈ ops, op.Quiet) : SameSupplies (now.run info ops) now := by
  induction ops generalizing now with
  | nil => exact ⟨rfl, rfl, rfl⟩
  | cons op ops ih =>
      obtain ⟨rate_eq, vdd_eq, mem_eq⟩ :=
        @ih (now.act info op) fun op member => quiet op (.tail _ member)
      obtain ⟨rate_eq', vdd_eq', mem_eq'⟩ := @sameSupplies_quiet info now op
        (quiet op List.mem_cons_self)
      exact ⟨rate_eq.trans rate_eq', vdd_eq.trans vdd_eq', mem_eq.trans mem_eq'⟩

theorem undoes_of_accepted (accepted : ∀ op ∈ ops, op.failed = false) :
    Undoes info dev now ops := by
  intro once
  rw [List.countP_eq_zero.mpr fun op member => by simp [accepted op member]] at once
  cases once

theorem undoes_append (accepted : ∀ op ∈ ops, op.failed = false) {later : List DevOp}
    (undoes : Undoes info dev (now.run info ops) later) : Undoes info dev now (ops ++ later) := by
  intro once
  rw [List.countP_append, List.countP_eq_zero.mpr fun op member => by simp [accepted op member],
    zero_add] at once
  rw [run_append]
  exact undoes once

/-- The first failure starts the restoring operations. -/
theorem undoes_cons_failed {op : DevOp} {later : List DevOp} (failed : op.failed = true)
    (back : later.countP DevOp.failed = 0 → Restored info dev ((now.act info op).run info later)) :
    Undoes info dev now (op :: later) := by
  intro once
  rw [List.countP_cons_of_pos failed] at once
  exact back (Nat.succ.inj once)

@[simp] theorem act_setVdd_rate (uV : ℕ) (ret : ℤ) :
    (now.act info (.setVdd uV ret)).rate = now.rate := by
  simp only [DevState.act]
  split <;> rfl

@[simp] theorem act_setMem_rate (uV : ℕ) (ret : ℤ) :
    (now.act info (.setMem uV ret)).rate = now.rate := by
  simp only [DevState.act]
  split <;> rfl

section Undo

variable (vdd_kept : info.vddReg.select dev.vdd = dev.vdd)
  (mem_kept : info.regulatorCount > 1 → info.memReg.select dev.mem = dev.mem)
include vdd_kept mem_kept

theorem restoreVoltage_back (same : now.rate = dev.rate)
    (granted : (restoreVoltage info dev results).countP DevOp.failed = 0) :
    Restored info dev (now.run info (restoreVoltage info dev results)) := by
  rw [List.countP_eq_zero] at granted
  have setVdd : results.restoreVdd = 0 := by
    simpa [DevOp.failed] using granted (.setVdd dev.vdd results.restoreVdd)
      (List.mem_append_right _ List.mem_cons_self)
  have setMem : info.regulatorCount > 1 → results.restoreMem = 0 := fun second => by
    simpa [DevOp.failed] using granted (.setMem dev.mem results.restoreMem)
      (List.mem_append_left _ (by rw [if_pos second]; exact List.mem_cons_self))
  rw [restoreVoltage, run_append]
  split
  · next second =>
      obtain ⟨rate_eq, vdd_eq, mem_eq⟩ := @run_quiet info
        (((now.act info (.setMem dev.mem results.restoreMem)).act info
          (.setVdd dev.vdd results.restoreVdd))) _ disableClk_quiet
      simp only [DevState.act, setMem second, setVdd, if_true] at rate_eq vdd_eq mem_eq
      simp only [DevState.run, List.foldl_cons, List.foldl_nil, DevState.act, setMem second, setVdd,
        if_true] at rate_eq vdd_eq mem_eq ⊢
      exact ⟨rate_eq.trans same, vdd_eq.trans vdd_kept, fun _ => mem_eq.trans (mem_kept second)⟩
  · next single =>
      obtain ⟨rate_eq, vdd_eq, _⟩ := @run_quiet info
        (now.act info (.setVdd dev.vdd results.restoreVdd)) _ disableClk_quiet
      simp only [DevState.run, List.foldl_cons, List.foldl_nil, DevState.act, setVdd,
        if_true] at rate_eq vdd_eq ⊢
      exact ⟨rate_eq.trans same, vdd_eq.trans vdd_kept, fun second => absurd second single⟩

theorem restoreRm_back (same : now.rate = dev.rate)
    (granted : (restoreRm info dev results).countP DevOp.failed = 0) :
    Restored info dev (now.run info (restoreRm info dev results)) := by
  rw [restoreRm, List.countP_append] at granted
  rw [restoreRm, run_append]
  exact restoreVoltage_back vdd_kept mem_kept ((run_quiet setReadMargin_quiet).1.trans same)
    (Nat.eq_zero_of_add_eq_zero_left granted)

theorem restoreFreq_back (same : isSetClk = false → now.rate = dev.rate)
    (granted : (restoreFreq info isSetClk dev results).countP DevOp.failed = 0) :
    Restored info dev (now.run info (restoreFreq info isSetClk dev results)) := by
  rw [restoreFreq, List.countP_append] at granted
  rw [restoreFreq, run_append]
  refine restoreRm_back vdd_kept mem_kept ?_ (Nat.eq_zero_of_add_eq_zero_left granted)
  have granted := Nat.eq_zero_of_add_eq_zero_right granted
  split at granted
  · next setClk =>
      have restored : results.restoreClk = 0 := by simpa [DevOp.failed] using granted
      rw [if_pos setClk]
      simp [DevState.run, DevState.act, restored]
  · next unset =>
      rw [if_neg unset]
      exact same (by simpa using unset)

theorem undoes_raiseClk (same : now.rate = dev.rate) :
    Undoes info dev now (raiseClk info isSetClk dev results opp).2 := by
  unfold raiseClk
  split
  · split
    · next refused =>
        refine undoes_cons_failed (by simpa [DevOp.failed] using refused) ?_
        refine restoreRm_back vdd_kept mem_kept ?_
        simp only [DevState.act, refused, if_false]
        exact same
    · next accepted =>
        refine undoes_of_accepted (List.forall_mem_cons.mpr ⟨?_, disableClk_accepted⟩)
        simpa [DevOp.failed] using accepted
  · exact undoes_of_accepted disableClk_accepted

theorem undoes_raiseRate : Undoes info dev dev (raiseRate info isSetClk dev results opp).2 := by
  have vdd : ∀ now : DevState, now.rate = dev.rate →
      Undoes info dev now (raiseVdd info isSetClk dev results opp).2 := by
    intro now same
    unfold raiseVdd
    split
    · next refused =>
        refine undoes_cons_failed (by simpa [DevOp.failed] using refused) ?_
        exact restoreVoltage_back vdd_kept mem_kept ((act_setVdd_rate _ _).trans same)
    · next accepted =>
        refine undoes_append (List.forall_mem_cons.mpr ⟨by simpa [DevOp.failed] using accepted,
          setReadMargin_accepted _⟩) ?_
        have kept : (now.run info (.setVdd opp.uVolt results.vdd ::
            setReadMargin info opp.uVolt)).rate = dev.rate :=
          (run_quiet setReadMargin_quiet).1.trans ((act_setVdd_rate _ _).trans same)
        split
        · exact undoes_of_accepted (by simp)
        · exact undoes_raiseClk vdd_kept mem_kept kept
  unfold raiseRate
  split
  · split
    · next refused =>
        refine undoes_cons_failed (by simpa [DevOp.failed] using refused) ?_
        exact restoreVoltage_back vdd_kept mem_kept (act_setMem_rate _ _)
    · next accepted =>
        exact undoes_append (by simpa [DevOp.failed] using accepted)
          (vdd _ (act_setMem_rate _ _))
  · exact vdd dev rfl

theorem undoes_lowerRate : Undoes info dev dev (lowerRate info isSetClk dev results opp).2 := by
  have mem : ∀ now : DevState, (isSetClk = false → now.rate = dev.rate) →
      Undoes info dev now (lowerMem info isSetClk dev results opp).2 := by
    intro now same
    unfold lowerMem
    split
    · split
      · next refused =>
          refine undoes_cons_failed (by simpa [DevOp.failed] using refused) ?_
          exact restoreFreq_back vdd_kept mem_kept fun unset =>
            (act_setMem_rate _ _).trans (same unset)
      · next accepted =>
          refine undoes_of_accepted (List.forall_mem_cons.mpr ⟨?_, disableClk_accepted⟩)
          simpa [DevOp.failed] using accepted
    · exact undoes_of_accepted disableClk_accepted
  have volt : ∀ now : DevState, (isSetClk = false → now.rate = dev.rate) →
      Undoes info dev now (lowerVolt info isSetClk dev results opp).2 := by
    intro now same
    have kept := @run_quiet info now _ (@setReadMargin_quiet info opp.uVolt)
    refine undoes_append (setReadMargin_accepted _) ?_
    split
    · next refused =>
        refine undoes_cons_failed (by simpa [DevOp.failed] using refused) ?_
        exact restoreFreq_back vdd_kept mem_kept fun unset =>
          (act_setVdd_rate _ _).trans (kept.1.trans (same unset))
    · next accepted =>
        exact undoes_append (by simpa [DevOp.failed] using accepted) (mem _ fun unset =>
          (act_setVdd_rate _ _).trans (kept.1.trans (same unset)))
  unfold lowerRate
  split
  · next setClk =>
      split
      · next refused =>
          refine undoes_cons_failed (by simpa [DevOp.failed] using refused) ?_
          refine restoreRm_back vdd_kept mem_kept ?_
          simp only [DevState.act, refused, if_false]
      · next accepted =>
          refine undoes_append (by simpa [DevOp.failed] using accepted) (volt _ fun unset => ?_)
          exact absurd (setClk.symm.trans unset) (by decide)
  · exact volt dev fun _ => rfl

end Undo

/-! ### The whole function -/

/-- The device is brought from its rate to an operating point: nothing is missing, the clocks could
be enabled, an operating point was found, and it differs from the present one. -/
structure Changes (info : MonitorDevInfo) (dev : DevState) (results : OpResults)
    (opp : DevPmOpp) : Prop where
  regulators : info.hasRegulators = true
  clk : info.hasClk = true
  enabled : info.oppInfo.isSome → results.enable = 0
  found : findFreq info (requestedRate dev) = some opp
  differs : nothingToSet info dev opp = false

/-- The condition on the results, the rates and the voltages. -/
structure ChangesSoundly (info : MonitorDevInfo) (isSetClk : Bool) (dev : DevState)
    (results : OpResults) : Prop where
  released : info.hasRegulators = true → info.hasClk = true → info.oppInfo.isSome →
    results.enable = 0 →
      ∃ opp, Changes info dev results opp ∧ (opp.rate = dev.rate → VoltRefused info results)
  clkAccepted : ∀ opp, Changes info dev results opp → isSetClk = true →
    opp.rate < dev.rate ∨ (dev.rate < opp.rate ∧ ¬VoltRefused info results) → results.clk = 0
  lowered : ∀ opp cur, Changes info dev results opp → findFreq info dev.rate = some cur →
    opp.rate < dev.rate → LowersSafely info isSetClk results opp cur

/-- A change of rate and voltage is safe at every step, enables the clocks of the operating points
as often as it disables them, reports a failure, and undoes its effects after one. -/
structure SoundChange (info : MonitorDevInfo) (dev : DevState) (outcome : ℤ × List DevOp) :
    Prop where
  supplied : EachAfter (DevState.act info) (Supplied info) dev outcome.2
  balanced : (dev.run info outcome.2).enableCount = dev.enableCount
  reported : Reports outcome
  restored : Undoes info dev dev outcome.2

theorem prologue_quiet : ∀ op ∈ prologue info dev results, op.Quiet := by
  intro op member
  rcases List.mem_append.mp member with enable | clear
  · split at enable
    · obtain rfl := List.mem_singleton.mp enable
      exact trivial
    · cases enable
  · split at clear
    · obtain rfl := List.mem_singleton.mp clear
      exact trivial
    · cases clear

theorem SameSupplies.run {left right : DevState} (same : SameSupplies left right) :
    SameSupplies (left.run info ops) (right.run info ops) := by
  induction ops generalizing left right with
  | nil => exact same
  | cons op ops ih => exact ih same.act

section Whole

variable (enabled : info.oppInfo.isSome → results.enable = 0)
include enabled

theorem prologue_accepted : ∀ op ∈ prologue info dev results, op.failed = false := by
  intro op member
  rcases List.mem_append.mp member with enable | clear
  · split at enable
    · next present =>
        obtain rfl := List.mem_singleton.mp enable
        simp [DevOp.failed, enabled present]
    · cases enable
  · split at clear
    · obtain rfl := List.mem_singleton.mp clear
      rfl
    · cases clear

theorem enables_prologue : enables (prologue info dev results) = held info := by
  rw [prologue, enables_append, held]
  have cleared : enables (if dev.initFreq ≠ 0 then [.clearInitFreq] else []) = 0 := by
    split <;> rfl
  rw [cleared, add_zero]
  split
  · next present => simp [DevOp.enables, enabled present]
  · rfl

/-- After the clocks have been enabled, each part of the claim is one about the rest. -/
theorem sound_before_prologue (supplied : Supplied info dev) :
    SoundChange info dev (before (prologue info dev results) rest) ↔
      SafeFrom info dev rest.2 ∧ enables rest.2 = -held info ∧ Reports rest ∧
        Undoes info dev (dev.run info (prologue info dev results)) rest.2 := by
  have accepted := @prologue_accepted info dev results enabled
  have safe : EachAfter (DevState.act info) (Supplied info) dev
      (before (prologue info dev results) rest).2 ↔ SafeFrom info dev rest.2 :=
    (and_iff_right supplied).symm.trans (safeFrom_quiet_append prologue_quiet)
  have balanced : (dev.run info (before (prologue info dev results) rest).2).enableCount =
      dev.enableCount ↔ enables rest.2 = -held info := by
    rw [run_enableCount, enables_before, enables_prologue enabled]
    omega
  constructor
  · intro sound
    refine ⟨safe.mp sound.supplied, balanced.mp sound.balanced,
      (reports_before accepted).mp sound.reported, fun once => ?_⟩
    rw [← run_append]
    refine sound.restored ?_
    rw [before, List.countP_append, List.countP_eq_zero.mpr fun op member => by
      simp [accepted op member], zero_add]
    exact once
  · rintro ⟨safely, sum, reports, undoes⟩
    exact ⟨safe.mpr safely, balanced.mpr sum, (reports_before accepted).mpr reports,
      undoes_append accepted undoes⟩

end Whole

theorem Undoes.congr {left right : DevState} (same : SameSupplies left right)
    (undoes : Undoes info dev right ops) : Undoes info dev left ops := by
  intro once
  obtain ⟨rate_eq, vdd_eq, mem_eq⟩ := @SameSupplies.run info ops left right same
  obtain ⟨rate_eq', vdd_eq', mem_eq'⟩ := undoes once
  exact ⟨rate_eq.trans rate_eq', vdd_eq.trans vdd_eq', fun second =>
    mem_eq.trans (mem_eq' second)⟩

theorem Changes.unique {other : DevPmOpp} (changes : Changes info dev results opp)
    (changes' : Changes info dev results other) : other = opp :=
  Option.some.inj (changes'.found.symm.trans changes.found)

theorem held_eq_zero : 0 = -held info ↔ info.oppInfo.isSome = false := by
  unfold held
  cases info.oppInfo.isSome <;> simp

/-- Nothing is done after the clocks have been enabled. -/
theorem sound_of_nothing (supplied : Supplied info dev)
    (enabled : info.oppInfo.isSome → results.enable = 0) {ret : ℤ} :
    SoundChange info dev (before (prologue info dev results) (ret, [])) ↔
      info.oppInfo.isSome = false := by
  rw [sound_before_prologue enabled supplied, ← held_eq_zero]
  refine ⟨fun parts => parts.2.1, fun sum => ⟨safeFrom_nil.mpr supplied, sum, ?_, ?_⟩⟩
  · intro op member
    cases member
  · exact undoes_of_accepted (by simp)

section Change

variable (supplied : Supplied info dev) (vdd_kept : info.vddReg.select dev.vdd = dev.vdd)
  (mem_kept : info.regulatorCount > 1 → info.memReg.select dev.mem = dev.mem)
  (changes : Changes info dev results opp)
include supplied vdd_kept mem_kept changes

/-- A rise of the rate. -/
theorem sound_raiseRate (le : dev.rate ≤ opp.rate) :
    SoundChange info dev (before (prologue info dev results)
        (raiseRate info isSetClk dev results opp)) ↔
      ChangesSoundly info isSetClk dev results := by
  obtain ⟨cur, found⟩ := info.oppTable.rates_ascend.nearest_of_mem (findFreq_mem changes.found)
    dev.rate
  have safe : SafeFrom info dev (raiseRate info isSetClk dev results opp).2 :=
    safeFrom_raiseRate found (findFreq_self (findFreq_mem changes.found)) le
      ⟨rfl, supplied cur found⟩
  have undoes : Undoes info dev (dev.run info (prologue info dev results))
      (raiseRate info isSetClk dev results opp).2 :=
    (undoes_raiseRate vdd_kept mem_kept).congr (run_quiet prologue_quiet)
  rw [sound_before_prologue changes.enabled supplied, and_iff_right safe, and_iff_left undoes,
    enables_raiseRate, reports_raiseRate]
  constructor
  · rintro ⟨sum, accepted⟩
    refine ⟨fun _ _ present _ => ⟨opp, changes, fun same => ?_⟩,
      fun opp' changes' setClk moves => ?_, fun opp' _ changes' _ lt => ?_⟩
    · by_contra granted
      rw [if_pos ⟨same, granted⟩, held_eq_zero, present] at sum
      cases sum
    · obtain rfl := changes.unique changes'
      rcases moves with lt | ⟨lt, granted⟩
      · omega
      · exact accepted setClk lt.ne' granted
    · obtain rfl := changes.unique changes'
      omega
  · intro soundly
    refine ⟨?_, fun setClk differ granted => ?_⟩
    · split
      · next stays =>
          rw [held_eq_zero]
          by_contra absent
          have present := Bool.not_eq_false _ ▸ absent
          obtain ⟨opp', changes', refused⟩ := soundly.released changes.regulators changes.clk
            present (changes.enabled present)
          obtain rfl := changes.unique changes'
          exact stays.2 (refused stays.1)
      · rfl
    · exact soundly.clkAccepted opp changes setClk (.inr ⟨by omega, granted⟩)

/-- A fall of the rate. -/
theorem sound_lowerRate (lt : opp.rate < dev.rate) :
    SoundChange info dev (before (prologue info dev results)
        (lowerRate info isSetClk dev results opp)) ↔
      ChangesSoundly info isSetClk dev results := by
  obtain ⟨cur, found⟩ := info.oppTable.rates_ascend.nearest_of_mem (findFreq_mem changes.found)
    dev.rate
  have undoes : Undoes info dev (dev.run info (prologue info dev results))
      (lowerRate info isSetClk dev results opp).2 :=
    (undoes_lowerRate vdd_kept mem_kept).congr (run_quiet prologue_quiet)
  rw [sound_before_prologue changes.enabled supplied, and_iff_left undoes, enables_lowerRate,
    reports_lowerRate, safeFrom_lowerRate found
      (findFreq_self (findFreq_mem changes.found)) lt ⟨rfl, supplied cur found⟩]
  constructor
  · rintro ⟨lowers, _, accepted⟩
    refine ⟨fun _ _ _ _ => ⟨opp, changes, fun same => absurd same lt.ne⟩,
      fun _ _ setClk _ => accepted setClk, fun opp' cur' changes' found' _ => ?_⟩
    obtain rfl := changes.unique changes'
    obtain rfl := Option.some.inj (found.symm.trans found')
    exact lowers
  · intro soundly
    exact ⟨soundly.lowered opp cur changes found lt, rfl,
      fun setClk => soundly.clkAccepted opp changes setClk (.inl lt)⟩

end Change

/-- From supplies that suffice, a change of rate and voltage is sound exactly under
`ChangesSoundly`: the clocks that it enables are released only where the rate changes or a supply
refuses, no clock may refuse its rate, and no supply may be lowered under the old rate. -/
theorem rockchip_monitor_check_rate_volt_iff (info : MonitorDevInfo) (isSetClk : Bool)
    (dev : DevState) (results : OpResults) (supplied : Supplied info dev)
    (vdd_kept : info.vddReg.select dev.vdd = dev.vdd)
    (mem_kept : info.regulatorCount > 1 → info.memReg.select dev.mem = dev.mem) :
    SoundChange info dev (rockchipMonitorCheckRateVolt info isSetClk dev results) ↔
      ChangesSoundly info isSetClk dev results := by
  unfold rockchipMonitorCheckRateVolt
  split
  · next missing =>
      refine iff_of_true ⟨trivial, rfl, fun _ member => (List.not_mem_nil member).elim,
        undoes_of_accepted (by simp)⟩ ⟨fun reg clk => ?_, fun _ changes => ?_,
          fun _ _ changes => ?_⟩
      · exact absurd missing (by simp [reg, clk])
      · exact absurd missing (by simp [changes.regulators, changes.clk])
      · exact absurd missing (by simp [changes.regulators, changes.clk])
  · next ready =>
      obtain ⟨regulators, clk⟩ : info.hasRegulators = true ∧ info.hasClk = true := by
        simpa using ready
      split
      · next refused =>
          have failed : DevOp.failed (.clkBulkPrepareEnable results.enable) := by
            simpa [DevOp.failed] using refused.2
          have same : dev.act info (.clkBulkPrepareEnable results.enable) = dev :=
            if_neg refused.2
          refine iff_of_true ⟨⟨same.symm ▸ supplied, trivial⟩, ?_, reports_of_ne refused.2, ?_⟩
            ⟨fun _ _ _ granted => absurd granted refused.2, fun opp changes => ?_,
              fun opp _ changes => ?_⟩
          · exact congrArg DevState.enableCount same
          · refine undoes_cons_failed failed fun _ => ?_
            rw [same]
            exact ⟨rfl, rfl, fun _ => rfl⟩
          · exact absurd (changes.enabled refused.1) refused.2
          · exact absurd (changes.enabled refused.1) refused.2
      · next granted =>
          have enabled : info.oppInfo.isSome → results.enable = 0 := fun present =>
            by_contra fun refused => granted ⟨present, refused⟩
          have nothing : (∀ opp, ¬Changes info dev results opp) →
              (info.oppInfo.isSome = false ↔ ChangesSoundly info isSetClk dev results) := by
            intro none
            refine ⟨fun absent => ⟨fun _ _ present => ?_, fun opp changes => ?_,
              fun opp _ changes => ?_⟩, fun soundly => ?_⟩
            · exact absurd (absent.symm.trans present) (by decide)
            · exact (none opp changes).elim
            · exact (none opp changes).elim
            · by_contra absent
              have present := Bool.not_eq_false _ ▸ absent
              obtain ⟨opp, changes, _⟩ := soundly.released regulators clk present (enabled present)
              exact none opp changes
          cases found : findFreq info (requestedRate dev) with
          | none =>
              refine (sound_of_nothing supplied enabled).trans (nothing fun opp changes => ?_)
              exact Option.some_ne_none opp (changes.found.symm.trans found)
          | some opp =>
              simp only [changeRate]
              split
              · next same =>
                  refine (sound_of_nothing supplied enabled).trans (nothing fun opp' changes => ?_)
                  obtain rfl := Option.some.inj (changes.found.symm.trans found)
                  exact absurd (same.symm.trans changes.differs) (by decide)
              · next differs =>
                  have changes : Changes info dev results opp :=
                    ⟨regulators, clk, enabled, found, by simpa using differs⟩
                  split
                  · next le => exact sound_raiseRate supplied vdd_kept mem_kept changes le
                  · next lt =>
                      exact sound_lowerRate supplied vdd_kept mem_kept changes (not_le.mp lt)

/-! ### A board -/

/-- A core with two operating points and two supplies. -/
def boardCore : MonitorDevInfo :=
  { oppTable :=
      { opps := [⟨408000000, 675000, 675000⟩, ⟨1800000000, 950000, 950000⟩]
        rates_ascend := List.pairwise_pair.mpr (by decide)
        volts_ascend := by decide
        memVolts_ascend := by decide }
    vddReg := ⟨id, fun _ => le_rfl⟩
    memReg := ⟨id, fun _ => le_rfl⟩
    hasRegulators := true
    hasClk := true
    regulatorCount := 2
    oppInfo := some ⟨true⟩ }

/-- The core at its low operating point, to be started at a frequency in kHz. -/
def boardLow (initFreq : BitVec 32) : DevState :=
  ⟨408000000, 675000, 675000, 0, 675000, initFreq⟩

/-- The core at its high operating point. -/
def boardHigh (initFreq : BitVec 32) : DevState :=
  ⟨1800000000, 950000, 950000, 0, 950000, initFreq⟩

def allAccepted : OpResults := ⟨0, 0, 0, 0, 0, 0, 0⟩

theorem supplied_boardLow (initFreq : BitVec 32) : Supplied boardCore (boardLow initFreq) := by
  intro opp found
  obtain rfl := Option.some.inj ((show findFreq boardCore 408000000 =
    some ⟨408000000, 675000, 675000⟩ by decide).symm.trans found)
  exact ⟨le_rfl, fun _ => le_rfl⟩

/-- The core is started at its high operating point, and no operation fails. -/
theorem rockchip_monitor_check_rate_volt_boardCore :
    SoundChange boardCore (boardLow 1800000)
      (rockchipMonitorCheckRateVolt boardCore true (boardLow 1800000) allAccepted) := by
  refine (rockchip_monitor_check_rate_volt_iff boardCore true (boardLow 1800000) allAccepted
    (supplied_boardLow _) rfl fun _ => rfl).mpr ⟨fun _ _ _ _ => ?_, fun _ _ _ _ => rfl,
      fun opp cur changes found lt => ?_⟩
  · exact ⟨⟨1800000000, 950000, 950000⟩, ⟨rfl, rfl, fun _ => rfl, by decide, by decide⟩,
      fun same => absurd same (by decide)⟩
  · have found' : findFreq boardCore (requestedRate (boardLow 1800000)) =
      some ⟨1800000000, 950000, 950000⟩ := by decide
    obtain rfl := Option.some.inj (found'.symm.trans changes.found)
    exact absurd lt (by decide)

/-- Three failures: a core that is already where it should be keeps its clocks enabled, a clock
that refuses the rate is not reported, and when the second supply refuses to be lowered the first
one is too low for the rate that is restored. -/
theorem rockchip_monitor_check_rate_volt_fails :
    ¬SoundChange boardCore (boardLow 0)
      (rockchipMonitorCheckRateVolt boardCore true (boardLow 0) allAccepted) ∧
    ¬SoundChange boardCore (boardLow 1800000)
      (rockchipMonitorCheckRateVolt boardCore true (boardLow 1800000)
        { allAccepted with clk := -5 }) ∧
    ¬SoundChange boardCore (boardHigh 408000)
      (rockchipMonitorCheckRateVolt boardCore true (boardHigh 408000)
        { allAccepted with mem := -5 }) := by
  refine ⟨fun sound => ?_, fun sound => ?_, fun sound => ?_⟩
  · exact absurd sound.balanced (by decide)
  · exact sound.reported (.clkSetRate 1800000000 (-5)) (by decide) rfl rfl
  · obtain ⟨_, _, _, _, _, _, undervolted, _⟩ := sound.supplied
    exact absurd (undervolted ⟨1800000000, 950000, 950000⟩ (by decide)).1 (by decide)

end SystemMonitor
end RockchipSoc
