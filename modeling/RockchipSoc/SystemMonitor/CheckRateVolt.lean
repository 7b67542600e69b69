import RockchipSoc.Foundation.NearestEntry
import RockchipSoc.Foundation.OpTrace

/-!
# Rate and voltage of a monitored device

When a device is registered, and when its temperature leaves or enters the low range, the monitor
brings the clock and the supplies of the device to an operating point.  Each supply and the clock
can refuse.  `rockchipMonitorCheckRateVolt` lists the operations in their order, with what each one
returned.
-/

namespace RockchipSoc
namespace SystemMonitor

open NearestEntry OpTrace

/-- `struct dev_pm_opp`: a rate with the voltages of the two supplies. -/
structure DevPmOpp where
  rate : ℕ
  uVolt : ℕ
  uMemVolt : ℕ
  deriving DecidableEq, Repr

/-- The operating points of a device in the order of their rates. -/
structure OppTable where
  opps : List DevPmOpp
  rates_ascend : Sorted DevPmOpp.rate opps
  volts_ascend : opps.Pairwise fun a b => a.uVolt ≤ b.uVolt
  memVolts_ascend : opps.Pairwise fun a b => a.uMemVolt ≤ b.uMemVolt

/-- A supply settles at the lowest voltage it can give from the requested one on. -/
structure Regulator where
  select : ℕ → ℕ
  le_select : ∀ uV, uV ≤ select uV

/-- `struct rockchip_opp_info`, as far as the monitor uses it. -/
structure RockchipOppInfo where
  hasSetReadMargin : Bool

/-- `struct monitor_dev_info`. -/
structure MonitorDevInfo where
  oppTable : OppTable
  vddReg : Regulator
  memReg : Regulator
  hasRegulators : Bool
  hasClk : Bool
  regulatorCount : ℕ
  oppInfo : Option RockchipOppInfo

/-- The device: its clock rate, its supplies, how often the clocks of the operating points are
enabled, the voltage the read margin was last set for, and the frequency to start with. -/
structure DevState where
  rate : ℕ
  vdd : ℕ
  mem : ℕ
  enableCount : ℤ
  voltRm : ℕ
  initFreq : BitVec 32

/-- What the operations return: zero, or an error.  No operation is made twice. -/
structure OpResults where
  enable : ℤ
  mem : ℤ
  vdd : ℤ
  clk : ℤ
  restoreClk : ℤ
  restoreMem : ℤ
  restoreVdd : ℤ

inductive DevOp
  | clkBulkPrepareEnable (ret : ℤ)
  | clkBulkDisableUnprepare
  | clearInitFreq
  | setVdd (uV : ℕ) (ret : ℤ)
  | setMem (uV : ℕ) (ret : ℤ)
  | clkSetRate (rate : ℕ) (ret : ℤ)
  | setReadMargin (uV : ℕ)
  deriving DecidableEq

/-- The operation has returned an error. -/
def DevOp.failed : DevOp → Bool
  | .clkBulkPrepareEnable ret | .setVdd _ ret | .setMem _ ret | .clkSetRate _ ret => ret != 0
  | _ => false

variable (info : MonitorDevInfo) (isSetClk : Bool) (dev : DevState) (results : OpResults)

/-- An operation that fails changes nothing. -/
def DevState.act (dev : DevState) : DevOp → DevState
  | .clkBulkPrepareEnable ret =>
      if ret = 0 then { dev with enableCount := dev.enableCount + 1 } else dev
  | .clkBulkDisableUnprepare => { dev with enableCount := dev.enableCount - 1 }
  | .clearInitFreq => { dev with initFreq := 0 }
  | .setVdd uV ret => if ret = 0 then { dev with vdd := info.vddReg.select uV } else dev
  | .setMem uV ret => if ret = 0 then { dev with mem := info.memReg.select uV } else dev
  | .clkSetRate rate ret => if ret = 0 then { dev with rate := rate } else dev
  | .setReadMargin uV => { dev with voltRm := uV }

def DevState.run (ops : List DevOp) : DevState := ops.foldl (DevState.act info) dev

/-- Operations before those of a result. -/
def before (ops : List DevOp) (rest : ℤ × List DevOp) : ℤ × List DevOp := (rest.1, ops ++ rest.2)

/-- `dev_pm_opp_find_freq_ceil`, and `dev_pm_opp_find_freq_floor` if that finds nothing. -/
def findFreq (rate : ℕ) : Option DevPmOpp := nearest DevPmOpp.rate info.oppTable.opps rate

/-- `rockchip_monitor_set_read_margin`. -/
def setReadMargin (uV : ℕ) : List DevOp :=
  match info.oppInfo with
  | some oppInfo => if oppInfo.hasSetReadMargin then [.setReadMargin uV] else []
  | none => []

/-- The operations from the label `disable_clk` on. -/
def disableClk : List DevOp :=
  if info.oppInfo.isSome then [.clkBulkDisableUnprepare] else []

/-- The operations from the label `restore_voltage` on. -/
def restoreVoltage : List DevOp :=
  (if info.regulatorCount > 1 then [.setMem dev.mem results.restoreMem] else []) ++
    .setVdd dev.vdd results.restoreVdd :: disableClk info

/-- The operations from the label `restore_rm` on. -/
def restoreRm : List DevOp := setReadMargin info dev.vdd ++ restoreVoltage info dev results

/-- The operations from the label `restore_freq` on. -/
def restoreFreq : List DevOp :=
  (if isSetClk then [.clkSetRate dev.rate results.restoreClk] else []) ++
    restoreRm info dev results

/-- The change of the rate, when the voltages have been raised for it. -/
def raiseClk (opp : DevPmOpp) : ℤ × List DevOp :=
  if isSetClk then
    if results.clk ≠ 0 then (0, .clkSetRate opp.rate results.clk :: restoreRm info dev results)
    else (0, .clkSetRate opp.rate results.clk :: disableClk info)
  else (0, disableClk info)

/-- The supply of the core after that of the memory, and then the rate. -/
def raiseVdd (opp : DevPmOpp) : ℤ × List DevOp :=
  if results.vdd ≠ 0 then
    (results.vdd, .setVdd opp.uVolt results.vdd :: restoreVoltage info dev results)
  else
    before (.setVdd opp.uVolt results.vdd :: setReadMargin info opp.uVolt)
      (if opp.rate = dev.rate then (0, []) else raiseClk info isSetClk dev results opp)

/-- To a rate that is not lower: the voltages first. -/
def raiseRate (opp : DevPmOpp) : ℤ × List DevOp :=
  if info.regulatorCount > 1 then
    if results.mem ≠ 0 then
      (results.mem, .setMem opp.uMemVolt results.mem :: restoreVoltage info dev results)
    else before [.setMem opp.uMemVolt results.mem] (raiseVdd info isSetClk dev results opp)
  else raiseVdd info isSetClk dev results opp

/-- The supply of the memory after that of the core. -/
def lowerMem (opp : DevPmOpp) : ℤ × List DevOp :=
  if info.regulatorCount > 1 then
    if results.mem ≠ 0 then
      (results.mem, .setMem opp.uMemVolt results.mem :: restoreFreq info isSetClk dev results)
    else (0, .setMem opp.uMemVolt results.mem :: disableClk info)
  else (0, disableClk info)

/-- The supplies, when the rate has been lowered. -/
def lowerVolt (opp : DevPmOpp) : ℤ × List DevOp :=
  before (setReadMargin info opp.uVolt)
    (if results.vdd ≠ 0 then
      (results.vdd, .setVdd opp.uVolt results.vdd :: restoreFreq info isSetClk dev results)
    else before [.setVdd opp.uVolt results.vdd] (lowerMem info isSetClk dev results opp))

/-- To a lower rate: the rate first. -/
def lowerRate (opp : DevPmOpp) : ℤ × List DevOp :=
  if isSetClk then
    if results.clk ≠ 0 then (0, .clkSetRate opp.rate results.clk :: restoreRm info dev results)
    else before [.clkSetRate opp.rate results.clk] (lowerVolt info isSetClk dev results opp)
  else lowerVolt info isSetClk dev results opp

/-- The rate to start with, or else the present one.  `init_freq` is in kHz; the product is that of
two unsigned integers. -/
def requestedRate : ℕ := if dev.initFreq ≠ 0 then (dev.initFreq * 1000).toNat else dev.rate

/-- The operating point is the present one, or one without a voltage. -/
def nothingToSet (opp : DevPmOpp) : Bool :=
  (dev.rate = opp.rate ∧ dev.vdd = opp.uVolt ∧
    (info.regulatorCount > 1 → opp.uMemVolt = dev.mem)) ∨
  opp.uVolt = 0 ∨ (info.regulatorCount > 1 ∧ opp.uMemVolt = 0)

/-- From the operating point that was found on; without one, the result is `-ERANGE`. -/
def changeRate : Option DevPmOpp → ℤ × List DevOp
  | none => (-34, [])
  | some opp =>
      if nothingToSet info dev opp then (0, [])
      else if opp.rate ≥ dev.rate then raiseRate info isSetClk dev results opp
      else lowerRate info isSetClk dev results opp

/-- The clocks are enabled, and the frequency to start with is used once. -/
def prologue : List DevOp :=
  (if info.oppInfo.isSome then [.clkBulkPrepareEnable results.enable] else []) ++
    if dev.initFreq ≠ 0 then [.clearInitFreq] else []

/-- `rockchip_monitor_check_rate_volt`: its result, and the operations it makes. -/
def rockchipMonitorCheckRateVolt : ℤ × List DevOp :=
  if ¬info.hasRegulators ∨ ¬info.hasClk then (0, [])
  else if info.oppInfo.isSome ∧ results.enable ≠ 0 then
    (results.enable, [.clkBulkPrepareEnable results.enable])
  else
    before (prologue info dev results)
      (changeRate info isSetClk dev results (findFreq info (requestedRate dev)))

end SystemMonitor
end RockchipSoc
