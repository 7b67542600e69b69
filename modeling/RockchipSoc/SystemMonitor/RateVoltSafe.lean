import RockchipSoc.SystemMonitor.CheckRateVolt

/-!
# Voltages during a change of the rate

A rise of the rate is safe at every step, whatever fails.  A fall is safe as long as the old rate
never runs from a lowered supply: it does if the monitor was asked to leave the clock alone, and if
the second supply fails, since the rate is restored before the voltages.
-/

namespace RockchipSoc
namespace SystemMonitor

open NearestEntry OpTrace

variable {info : MonitorDevInfo} {isSetClk : Bool} {dev now : DevState} {results : OpResults}
  {opp cur : DevPmOpp} {rate : ℕ} {op : DevOp} {ops rest : List DevOp}

/-- The supplies are at least at the voltages of the operating point for the rate in force. -/
def Supplied (info : MonitorDevInfo) (dev : DevState) : Prop :=
  ∀ opp, findFreq info dev.rate = some opp →
    opp.uVolt ≤ dev.vdd ∧ (info.regulatorCount > 1 → opp.uMemVolt ≤ dev.mem)

/-! ### The operating points -/

theorem findFreq_mem (found : findFreq info rate = some opp) : opp ∈ info.oppTable.opps :=
  mem_of_nearest found

theorem findFreq_self (member : opp ∈ info.oppTable.opps) : findFreq info opp.rate = some opp :=
  info.oppTable.rates_ascend.nearest_key member

/-- A higher rate needs no lower voltage. -/
theorem volts_mono {low high : ℕ} (le : low ≤ high) (found : findFreq info low = some cur)
    (found' : findFreq info high = some opp) :
    cur.uVolt ≤ opp.uVolt ∧ cur.uMemVolt ≤ opp.uMemVolt := by
  have sorted := info.oppTable.rates_ascend
  have order := sorted.nearest_mono le found found'
  exact ⟨sorted.value_mono info.oppTable.volts_ascend (findFreq_mem found) (findFreq_mem found')
      order,
    sorted.value_mono info.oppTable.memVolts_ascend (findFreq_mem found) (findFreq_mem found')
      order⟩

/-! ### Single operations -/

/-- The rate in force is `rate`, and the supplies are enough for `opp`. -/
def Powers (info : MonitorDevInfo) (rate : ℕ) (opp : DevPmOpp) (dev : DevState) : Prop :=
  dev.rate = rate ∧ opp.uVolt ≤ dev.vdd ∧ (info.regulatorCount > 1 → opp.uMemVolt ≤ dev.mem)

/-- The operation sets no rate, and no supply below the voltages of `opp`. -/
def DevOp.Keeps (info : MonitorDevInfo) (opp : DevPmOpp) : DevOp → Prop
  | .setVdd uV ret => ret = 0 → opp.uVolt ≤ info.vddReg.select uV
  | .setMem uV ret => info.regulatorCount > 1 → ret = 0 → opp.uMemVolt ≤ info.memReg.select uV
  | .clkSetRate _ ret => ret ≠ 0
  | _ => True

/-- The operation touches neither the rate nor a supply. -/
def DevOp.Quiet : DevOp → Prop
  | .setVdd .. | .setMem .. | .clkSetRate .. => False
  | _ => True

theorem DevOp.Quiet.keeps (quiet : op.Quiet) : op.Keeps info opp := by
  cases op <;> first | exact trivial | exact quiet.elim

theorem Powers.supplied (powers : Powers info rate opp now)
    (found : findFreq info rate = some opp) : Supplied info now := by
  intro opp' found'
  rw [powers.1, found] at found'
  obtain rfl := Option.some.inj found'
  exact powers.2

theorem Powers.act (powers : Powers info rate opp now) (keeps : op.Keeps info opp) :
    Powers info rate opp (now.act info op) := by
  obtain ⟨same, volt, memVolt⟩ := powers
  cases op with
  | clkBulkPrepareEnable ret =>
      simp only [DevState.act]
      split <;> exact ⟨same, volt, memVolt⟩
  | clkBulkDisableUnprepare => exact ⟨same, volt, memVolt⟩
  | clearInitFreq => exact ⟨same, volt, memVolt⟩
  | setVdd uV ret =>
      simp only [DevState.act]
      split
      · next accepted => exact ⟨same, keeps accepted, memVolt⟩
      · exact ⟨same, volt, memVolt⟩
  | setMem uV ret =>
      simp only [DevState.act]
      split
      · next accepted => exact ⟨same, volt, fun second => keeps second accepted⟩
      · exact ⟨same, volt, memVolt⟩
  | clkSetRate rate ret =>
      simp only [DevState.act]
      rw [if_neg keeps]
      exact ⟨same, volt, memVolt⟩
  | setReadMargin uV => exact ⟨same, volt, memVolt⟩

/-- The supplies suffice now and after each of the operations. -/
def SafeFrom (info : MonitorDevInfo) (now : DevState) (ops : List DevOp) : Prop :=
  Supplied info now ∧ EachAfter (DevState.act info) (Supplied info) now ops

@[simp] theorem safeFrom_nil : SafeFrom info now [] ↔ Supplied info now := by simp [SafeFrom]

@[simp] theorem safeFrom_cons :
    SafeFrom info now (op :: ops) ↔ Supplied info now ∧ SafeFrom info (now.act info op) ops :=
  Iff.rfl

/-- Operations that set no rate and no low voltage. -/
theorem Powers.safeFrom (powers : Powers info rate opp now) (found : findFreq info rate = some opp)
    (keeps : ∀ op ∈ ops, op.Keeps info opp) : SafeFrom info now ops :=
  ⟨powers.supplied found,
    eachAfter_of_inv (fun op member _ inv => Powers.act inv (keeps op member))
      (fun _ inv => Powers.supplied inv found) powers⟩

/-- Two states with the same rate and the same supplies. -/
def SameSupplies (left right : DevState) : Prop :=
  left.rate = right.rate ∧ left.vdd = right.vdd ∧ left.mem = right.mem

theorem SameSupplies.act {left right : DevState} (same : SameSupplies left right) :
    SameSupplies (left.act info op) (right.act info op) := by
  obtain ⟨rate_eq, vdd_eq, mem_eq⟩ := same
  cases op <;> simp only [DevState.act] <;> (try split) <;> simp [SameSupplies, *]

theorem SameSupplies.safeFrom {left right : DevState} (same : SameSupplies left right) :
    SafeFrom info left ops ↔ SafeFrom info right ops := by
  have agree : ∀ left right, SameSupplies left right → (Supplied info left ↔ Supplied info right) :=
    fun left right same => by simp only [Supplied, same.1, same.2.1, same.2.2]
  exact and_congr (agree left right same)
    (eachAfter_congr (fun left right op same => @SameSupplies.act info op left right same) agree
      same ops)

theorem sameSupplies_quiet (quiet : op.Quiet) : SameSupplies (now.act info op) now := by
  cases op <;> first
    | exact quiet.elim
    | exact ⟨rfl, rfl, rfl⟩
    | (simp only [DevState.act]; split <;> exact ⟨rfl, rfl, rfl⟩)

/-- Operations that touch neither the rate nor a supply can be left out. -/
theorem safeFrom_quiet_append (quiet : ∀ op ∈ ops, op.Quiet) :
    SafeFrom info now (ops ++ rest) ↔ SafeFrom info now rest := by
  induction ops generalizing now with
  | nil => rfl
  | cons op ops ih =>
      have first := @sameSupplies_quiet info now op (quiet op List.mem_cons_self)
      rw [List.cons_append, safeFrom_cons, ih fun op member => quiet op (.tail _ member),
        first.safeFrom]
      exact and_iff_right_of_imp And.left

theorem setReadMargin_quiet {uV : ℕ} : ∀ op ∈ setReadMargin info uV, op.Quiet := by
  unfold setReadMargin
  split
  · split
    · simp [DevOp.Quiet]
    · simp
  · simp

theorem disableClk_quiet : ∀ op ∈ disableClk info, op.Quiet := by
  unfold disableClk
  split
  · simp [DevOp.Quiet]
  · simp

/-! ### The supplies after each operation -/

/-- The operations from `restore_rm` on only set the old voltages. -/
theorem restoreRm_keeps (volt : opp.uVolt ≤ dev.vdd)
    (memVolt : info.regulatorCount > 1 → opp.uMemVolt ≤ dev.mem) :
    ∀ op ∈ restoreRm info dev results, op.Keeps info opp := by
  intro op member
  rcases List.mem_append.mp member with margin | member
  · exact (setReadMargin_quiet op margin).keeps
  rcases List.mem_append.mp member with mem | member
  · split at mem
    · obtain rfl := List.mem_singleton.mp mem
      exact fun second _ => (memVolt second).trans (info.memReg.le_select _)
    · cases mem
  rcases List.mem_cons.mp member with rfl | clk
  · exact fun _ => volt.trans (info.vddReg.le_select _)
  · exact (disableClk_quiet op clk).keeps

/-- The clock keeps its rate, or takes back the old one, and the old voltages follow. -/
theorem safeFrom_restoreFreq (powers : Powers info rate opp now)
    (found : findFreq info rate = some opp) (found' : findFreq info dev.rate = some cur)
    (low : opp.uVolt ≤ cur.uVolt ∧ opp.uMemVolt ≤ cur.uMemVolt) (volt : cur.uVolt ≤ dev.vdd)
    (memVolt : info.regulatorCount > 1 → cur.uMemVolt ≤ dev.mem)
    (enough : isSetClk → results.restoreClk = 0 →
      cur.uVolt ≤ now.vdd ∧ (info.regulatorCount > 1 → cur.uMemVolt ≤ now.mem)) :
    SafeFrom info now (restoreFreq info isSetClk dev results) := by
  have keeps : ∀ op ∈ restoreRm info dev results, op.Keeps info opp :=
    restoreRm_keeps (low.1.trans volt) fun second => low.2.trans (memVolt second)
  unfold restoreFreq
  split
  · next setClk =>
      refine safeFrom_cons.mpr ⟨powers.supplied found, ?_⟩
      simp only [DevState.act]
      split
      · next accepted =>
          have restored : Powers info dev.rate cur { now with rate := dev.rate } :=
            ⟨rfl, enough setClk accepted⟩
          exact restored.safeFrom found' (restoreRm_keeps volt memVolt)
      · exact powers.safeFrom found keeps
  · exact powers.safeFrom found keeps

section Raise

variable (found : findFreq info dev.rate = some cur) (found' : findFreq info opp.rate = some opp)
  (le : dev.rate ≤ opp.rate) (started : Powers info dev.rate cur dev)
include found found' started

theorem safeFrom_raiseClk (powers : Powers info dev.rate cur now) (volt : opp.uVolt ≤ now.vdd)
    (memVolt : info.regulatorCount > 1 → opp.uMemVolt ≤ now.mem) :
    SafeFrom info now (raiseClk info isSetClk dev results opp).2 := by
  have supplied := powers.supplied found
  unfold raiseClk
  split
  · split
    · next refused =>
        refine powers.safeFrom found (List.forall_mem_cons.mpr ⟨refused, ?_⟩)
        exact restoreRm_keeps started.2.1 started.2.2
    · next accepted =>
        refine safeFrom_cons.mpr ⟨supplied, ?_⟩
        simp only [DevState.act, not_not.mp accepted, if_true]
        have raised : Powers info opp.rate opp { now with rate := opp.rate } := ⟨rfl, volt, memVolt⟩
        exact raised.safeFrom found' fun op member => (disableClk_quiet op member).keeps
  · exact powers.safeFrom found fun op member => (disableClk_quiet op member).keeps

include le

theorem safeFrom_raiseVdd (powers : Powers info dev.rate cur now)
    (memVolt : info.regulatorCount > 1 → opp.uMemVolt ≤ now.mem) :
    SafeFrom info now (raiseVdd info isSetClk dev results opp).2 := by
  have volt_le := (volts_mono le found found').1
  have keeps : DevOp.Keeps info cur (.setVdd opp.uVolt results.vdd) :=
    fun _ => volt_le.trans (info.vddReg.le_select _)
  unfold raiseVdd
  split
  · refine powers.safeFrom found (List.forall_mem_cons.mpr ⟨keeps, fun op member => ?_⟩)
    exact restoreRm_keeps started.2.1 started.2.2 op (List.mem_append_right _ member)
  · next accepted =>
      refine safeFrom_cons.mpr ⟨powers.supplied found, (safeFrom_quiet_append
        setReadMargin_quiet).mpr ?_⟩
      have raised := powers.act keeps
      simp only [DevState.act, not_not.mp accepted, if_true] at raised ⊢
      split
      · exact safeFrom_nil.mpr (raised.supplied found)
      · exact safeFrom_raiseClk found found' started raised (info.vddReg.le_select _) memVolt

/-- A rise of the rate is safe, whatever fails. -/
theorem safeFrom_raiseRate : SafeFrom info dev (raiseRate info isSetClk dev results opp).2 := by
  have memVolt_le := (volts_mono le found found').2
  have keeps : DevOp.Keeps info cur (.setMem opp.uMemVolt results.mem) :=
    fun _ _ => memVolt_le.trans (info.memReg.le_select _)
  unfold raiseRate
  split
  · split
    · refine started.safeFrom found (List.forall_mem_cons.mpr ⟨keeps, fun op member => ?_⟩)
      exact restoreRm_keeps started.2.1 started.2.2 op (List.mem_append_right _ member)
    · next accepted =>
        refine safeFrom_cons.mpr ⟨started.supplied found, ?_⟩
        have raised := started.act keeps
        simp only [DevState.act, not_not.mp accepted, if_true] at raised ⊢
        exact safeFrom_raiseVdd found found' le started raised fun _ => info.memReg.le_select _
  · next single =>
      exact safeFrom_raiseVdd found found' le started started fun second => absurd second single

end Raise

/-- What must hold of the results and the voltages, so that lowering the rate is safe: while the
clock stays at the old rate, or when it goes back to it before the voltages do, the lowered
supplies must still be enough for it. -/
structure LowersSafely (info : MonitorDevInfo) (isSetClk : Bool) (results : OpResults)
    (opp cur : DevPmOpp) : Prop where
  unclocked : isSetClk = false → results.vdd = 0 →
    cur.uVolt ≤ info.vddReg.select opp.uVolt ∧
      (info.regulatorCount > 1 → results.mem = 0 →
        cur.uMemVolt ≤ info.memReg.select opp.uMemVolt)
  restored : isSetClk = true → results.clk = 0 → results.vdd = 0 → info.regulatorCount > 1 →
    results.mem ≠ 0 → results.restoreClk = 0 → cur.uVolt ≤ info.vddReg.select opp.uVolt

section Lower

variable {served : DevPmOpp} (found : findFreq info dev.rate = some cur)
  (found' : findFreq info rate = some served)
  (low : served.uVolt ≤ cur.uVolt ∧ served.uMemVolt ≤ cur.uMemVolt)
  (started : Powers info dev.rate cur dev)
include found found' low started

theorem safeFrom_lowerMem (powers : Powers info rate served now) (mem_eq : now.mem = dev.mem) :
    SafeFrom info now (lowerMem info isSetClk dev results opp).2 ↔
      (info.regulatorCount > 1 → results.mem = 0 →
        served.uMemVolt ≤ info.memReg.select opp.uMemVolt) ∧
      (info.regulatorCount > 1 → results.mem ≠ 0 → isSetClk = true → results.restoreClk = 0 →
        cur.uVolt ≤ now.vdd) := by
  have supplied := powers.supplied found'
  have disable : ∀ op ∈ disableClk info, op.Keeps info served :=
    fun op member => (disableClk_quiet op member).keeps
  unfold lowerMem
  split
  · next second =>
      split
      · next refused =>
          simp only [safeFrom_cons, DevState.act, refused, if_false, supplied, true_and]
          refine ⟨fun safe => ⟨fun _ => False.elim,
            fun _ _ setClk restored => ?_⟩, fun enough => ?_⟩
          · simp only [restoreFreq, setClk, if_true, List.cons_append, safeFrom_cons,
              DevState.act, restored] at safe
            exact (safe.2.1 cur found).1
          · refine safeFrom_restoreFreq powers found' found low started.2.1 started.2.2
              fun setClk restored => ⟨enough.2 second refused setClk restored, ?_⟩
            rw [mem_eq]
            exact started.2.2
      · next accepted =>
          have accepted := not_not.mp accepted
          simp only [safeFrom_cons, DevState.act, accepted, if_true, supplied, true_and]
          refine ⟨fun safe => ⟨fun _ _ => ?_, fun _ refused => absurd rfl refused⟩,
            fun enough => ?_⟩
          · rw [← powers.1] at found'
            exact (safe.1 served found').2 second
          · have lowered : Powers info rate served
                { now with mem := info.memReg.select opp.uMemVolt } :=
              ⟨powers.1, powers.2.1, fun second => enough.1 second trivial⟩
            exact lowered.safeFrom found' disable
  · next single =>
      refine iff_of_true (powers.safeFrom found' disable) ⟨fun second => absurd second single,
        fun second => absurd second single⟩

theorem safeFrom_lowerVolt (powers : Powers info rate served now) (vdd_eq : now.vdd = dev.vdd)
    (mem_eq : now.mem = dev.mem) :
    SafeFrom info now (lowerVolt info isSetClk dev results opp).2 ↔
      (results.vdd = 0 → served.uVolt ≤ info.vddReg.select opp.uVolt ∧
        (info.regulatorCount > 1 → results.mem = 0 →
          served.uMemVolt ≤ info.memReg.select opp.uMemVolt) ∧
        (info.regulatorCount > 1 → results.mem ≠ 0 → isSetClk = true → results.restoreClk = 0 →
          cur.uVolt ≤ info.vddReg.select opp.uVolt)) := by
  have supplied := powers.supplied found'
  refine (safeFrom_quiet_append setReadMargin_quiet).trans ?_
  split
  · next refused =>
      simp only [safeFrom_cons, DevState.act, refused, if_false, supplied, true_and, false_implies,
        iff_true]
      refine safeFrom_restoreFreq powers found' found low started.2.1 started.2.2 fun _ _ => ?_
      rw [vdd_eq, mem_eq]
      exact started.2
  · next accepted =>
      have accepted := not_not.mp accepted
      simp only [before, List.singleton_append, safeFrom_cons, DevState.act, accepted, if_true,
        supplied, true_and, true_implies]
      constructor
      · intro safe
        have volt : served.uVolt ≤ info.vddReg.select opp.uVolt :=
          (safe.1 served (by rw [← powers.1] at found'; exact found')).1
        have lowered : Powers info rate served { now with vdd := info.vddReg.select opp.uVolt } :=
          ⟨powers.1, volt, powers.2.2⟩
        exact ⟨volt, (safeFrom_lowerMem found found' low started lowered mem_eq).mp safe⟩
      · rintro ⟨volt, memVolt⟩
        have lowered : Powers info rate served { now with vdd := info.vddReg.select opp.uVolt } :=
          ⟨powers.1, volt, powers.2.2⟩
        exact (safeFrom_lowerMem found found' low started lowered mem_eq).mpr memVolt

end Lower

theorem safeFrom_lowerRate (found : findFreq info dev.rate = some cur)
    (found' : findFreq info opp.rate = some opp) (lt : opp.rate < dev.rate)
    (started : Powers info dev.rate cur dev) :
    SafeFrom info dev (lowerRate info isSetClk dev results opp).2 ↔
      LowersSafely info isSetClk results opp cur := by
  have low := volts_mono lt.le found' found
  cases setClk : isSetClk with
  | false =>
      refine (safeFrom_lowerVolt found found ⟨le_rfl, le_rfl⟩ started started rfl rfl).trans
        ⟨fun enough => ⟨fun _ accepted => ⟨(enough accepted).1, (enough accepted).2.1⟩, ?_⟩,
          fun safely accepted => ?_⟩
      · intro setClk
        cases setClk
      · obtain ⟨volt, memVolt⟩ := safely.unclocked rfl accepted
        exact ⟨volt, memVolt, fun _ _ setClk => by cases setClk⟩
  | true =>
      unfold lowerRate
      split
      · split
        · next refused =>
            have keeps : DevOp.Keeps info cur (.clkSetRate opp.rate results.clk) := refused
            have safe := started.safeFrom found (List.forall_mem_cons.mpr ⟨keeps,
              @restoreRm_keeps info dev results cur started.2.1 started.2.2⟩)
            refine iff_of_true safe ⟨fun setClk => ?_, fun _ accepted => absurd accepted refused⟩
            cases setClk
        · next accepted =>
            have accepted := not_not.mp accepted
            have lowered : Powers info opp.rate opp { dev with rate := opp.rate } :=
              ⟨rfl, low.1.trans started.2.1, fun second => low.2.trans (started.2.2 second)⟩
            simp only [before, List.singleton_append, safeFrom_cons, DevState.act, accepted,
              if_true, started.supplied found, true_and]
            refine (safeFrom_lowerVolt found found' low started lowered rfl rfl).trans
              ⟨fun enough => ⟨fun setClk => ?_, fun _ _ granted second refused restored =>
                (enough granted).2.2 second refused rfl restored⟩, fun safely granted => ?_⟩
            · cases setClk
            · exact ⟨info.vddReg.le_select _, fun _ _ => info.memReg.le_select _,
                fun second refused _ restored =>
                  safely.restored rfl accepted granted second refused restored⟩
      · next unset => exact absurd rfl unset

end SystemMonitor
end RockchipSoc
