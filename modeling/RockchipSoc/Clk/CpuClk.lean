import Mathlib.Algebra.Order.Field.Rat
import Mathlib.Logic.Function.Basic
import Mathlib.Algebra.Order.Field.Basic
import RockchipSoc.Foundation.HiwordField
import RockchipSoc.Foundation.OpTrace

/-!
# Rate changes of a CPU clock

The cores run from a PLL through a mux in the first core register and through one divider per
core.  While the PLL is being set to its new rate, a clock notifier moves the cores to an
alternate parent, divided down if that parent is faster than the old rate.

`rockchipCpuclkNotifierCb` lists the register writes the notifier makes for an event, in their
order.  None of them depends on what a register holds.
-/

namespace RockchipSoc
namespace Clk

open HiwordField OpTrace

/-- `struct rockchip_cpuclk_reg_data`: where the core mux and the core dividers are.  The fields
lie in the low halves of their registers and do not overlap. -/
structure RockchipCpuclkRegData where
  coreReg : Nat → Nat
  divCoreShift : Nat → Nat
  divCoreMask : Nat → Nat
  numCores : Nat
  muxCoreAlt : Nat
  muxCoreMain : Nat
  muxCoreShift : Nat
  muxCoreMask : Nat
  mask_fits : ∀ i < numCores, divCoreMask i <<< divCoreShift i < 2 ^ 16
  limit_fits : ∀ i < numCores, divCoreMask 0 <<< divCoreShift i < 2 ^ 16
  mux_fits : muxCoreMask <<< muxCoreShift < 2 ^ 16
  mux_alt : muxCoreAlt &&& muxCoreMask = muxCoreAlt
  mux_main : muxCoreMain &&& muxCoreMask = muxCoreMain
  mux_distinct : muxCoreAlt ≠ muxCoreMain
  cores_disjoint : ∀ i < numCores, ∀ j < numCores, i ≠ j → coreReg i = coreReg j →
    Disjoint (divCoreMask i) (divCoreShift i) (divCoreMask j) (divCoreShift j)
  mux_disjoint : ∀ i < numCores, coreReg i = coreReg 0 →
    Disjoint (divCoreMask i) (divCoreShift i) muxCoreMask muxCoreShift
  disjoint_mux : ∀ i < numCores, coreReg i = coreReg 0 →
    Disjoint muxCoreMask muxCoreShift (divCoreMask i) (divCoreShift i)

/-- `struct rockchip_cpuclk_clksel`. -/
structure RockchipCpuclkClksel where
  reg : Nat
  val : BitVec 32

/-- `struct rockchip_cpuclk_rate_table`. -/
structure RockchipCpuclkRateTable where
  prate : BitVec 64
  divs : List RockchipCpuclkClksel

/-- The word written to a register leaves the core mux and the core dividers alone. -/
def RockchipCpuclkRegData.SparesCores (regData : RockchipCpuclkRegData)
    (reg : Nat) (val : BitVec 32) : Prop :=
  (reg = regData.coreReg 0 → Spares val regData.muxCoreMask regData.muxCoreShift) ∧
    ∀ i < regData.numCores, reg = regData.coreReg i →
      Spares val (regData.divCoreMask i) (regData.divCoreShift i)

/-- `struct rockchip_cpuclk`.  The rates are positive, and the settings listed with a rate are
those of the clocks beside the cores. -/
structure RockchipCpuclk where
  regData : RockchipCpuclkRegData
  rateTable : List RockchipCpuclkRateTable
  prate_pos : ∀ rate ∈ rateTable, 0 < rate.prate
  divs_spare : ∀ rate ∈ rateTable, ∀ clksel ∈ rate.divs,
    regData.SparesCores clksel.reg clksel.val

/-- `struct clk_notifier_data`. -/
structure ClkNotifierData where
  oldRate : BitVec 64
  newRate : BitVec 64

inductive ClkEvent
  | preRateChange | postRateChange | abortRateChange
  deriving DecidableEq, Repr

inductive Errno
  | einval
  deriving DecidableEq, Repr

/-- `writel(val, reg_base + reg)`. -/
structure RegWrite where
  reg : Nat
  val : BitVec 32

/-- `DIV_ROUND_UP` on `unsigned long`. -/
def divRoundUp (n d : BitVec 64) : BitVec 64 := (n + d - 1) / d

/-- The first entry of the table for a rate. -/
def rockchipGetCpuclkSettings (cpuclk : RockchipCpuclk) (rate : BitVec 64) :
    Option RockchipCpuclkRateTable :=
  cpuclk.rateTable.find? fun entry => rate == entry.prate

/-- The settings listed with a rate; an entry without a register is skipped. -/
def rockchipCpuclkSetDividers (rate : RockchipCpuclkRateTable) : List RegWrite :=
  (rate.divs.filter fun clksel => clksel.reg != 0).map fun clksel => ⟨clksel.reg, clksel.val⟩

/-- The write to the divider of one core. -/
def coreDivWrite (regData : RockchipCpuclkRegData) (value i : Nat) : RegWrite :=
  ⟨regData.coreReg i, hiwordUpdate value (regData.divCoreMask i) (regData.divCoreShift i)⟩

/-- One write to the divider of each core. -/
def writeCoreDivs (regData : RockchipCpuclkRegData) (value : Nat) : List RegWrite :=
  (List.range regData.numCores).map (coreDivWrite regData value)

/-- One write to the core mux. -/
def writeCoreMux (regData : RockchipCpuclkRegData) (value : Nat) : RegWrite :=
  ⟨regData.coreReg 0, hiwordUpdate value regData.muxCoreMask regData.muxCoreShift⟩

/-- The divider computed for the alternate parent. -/
def calculatedAltDiv (altPrate oldRate : BitVec 64) : BitVec 64 :=
  divRoundUp altPrate oldRate - 1

/-- The divider programmed for the alternate parent, limited to what the field can hold. -/
def altDiv (regData : RockchipCpuclkRegData) (altPrate oldRate : BitVec 64) : Nat :=
  if (calculatedAltDiv altPrate oldRate).toNat > regData.divCoreMask 0 then
    regData.divCoreMask 0
  else (calculatedAltDiv altPrate oldRate).toNat

def rockchipCpuclkPreRateChange (cpuclk : RockchipCpuclk) (altPrate : BitVec 64)
    (ndata : ClkNotifierData) : Except Errno (List RegWrite) :=
  match rockchipGetCpuclkSettings cpuclk ndata.newRate with
  | none => .error .einval
  | some _ =>
      let divs :=
        if altPrate > ndata.oldRate then
          writeCoreDivs cpuclk.regData (altDiv cpuclk.regData altPrate ndata.oldRate)
        else []
      .ok (divs ++ [writeCoreMux cpuclk.regData cpuclk.regData.muxCoreAlt])

def rockchipCpuclkPostRateChange (cpuclk : RockchipCpuclk) (ndata : ClkNotifierData) :
    Except Errno (List RegWrite) :=
  match rockchipGetCpuclkSettings cpuclk ndata.newRate with
  | none => .error .einval
  | some rate =>
      let raised := if ndata.oldRate < ndata.newRate then rockchipCpuclkSetDividers rate else []
      let lowered := if ndata.oldRate > ndata.newRate then rockchipCpuclkSetDividers rate else []
      .ok (raised ++ [writeCoreMux cpuclk.regData cpuclk.regData.muxCoreMain] ++
        writeCoreDivs cpuclk.regData 0 ++ lowered)

/-- The notifier: two events are handled, any other one is acknowledged. -/
def rockchipCpuclkNotifierCb (cpuclk : RockchipCpuclk) (altPrate : BitVec 64)
    (event : ClkEvent) (ndata : ClkNotifierData) : Except Errno (List RegWrite) :=
  match event with
  | .preRateChange => rockchipCpuclkPreRateChange cpuclk altPrate ndata
  | .postRateChange => rockchipCpuclkPostRateChange cpuclk ndata
  | .abortRateChange => .ok []

/-- The clock unit: its registers and the rate of the PLL the cores normally run from. -/
structure Cru where
  regs : Nat → BitVec 16
  pllRate : BitVec 64

/-- What changes the core clocks: a register write, or the PLL settling at a rate. -/
inductive CruOp
  | writel (write : RegWrite)
  | setPll (rate : BitVec 64)

def Cru.act (cru : Cru) : CruOp → Cru
  | .writel write =>
      let value := hiwordWrite (cru.regs write.reg) write.val
      { cru with regs := Function.update cru.regs write.reg value }
  | .setPll rate => { cru with pllRate := rate }

def Cru.run (cru : Cru) (writes : List RegWrite) : Cru :=
  (writes.map CruOp.writel).foldl Cru.act cru

def coreMux (regData : RockchipCpuclkRegData) (cru : Cru) : Nat :=
  field (cru.regs (regData.coreReg 0)) regData.muxCoreMask regData.muxCoreShift

def coreDiv (regData : RockchipCpuclkRegData) (cru : Cru) (i : Nat) : Nat :=
  field (cru.regs (regData.coreReg i)) (regData.divCoreMask i) (regData.divCoreShift i)

/-- The rate a core's divider is fed with. -/
def coreParentRate (regData : RockchipCpuclkRegData) (altPrate : BitVec 64) (cru : Cru) :
    Option Nat :=
  if coreMux regData cru = regData.muxCoreMain then some cru.pllRate.toNat
  else if coreMux regData cru = regData.muxCoreAlt then some altPrate.toNat
  else none

/-- The frequency of one core. -/
def coreRate (regData : RockchipCpuclkRegData) (altPrate : BitVec 64) (cru : Cru) (i : Nat) :
    Option ℚ :=
  (coreParentRate regData altPrate cru).map fun parent : Nat =>
    (parent : ℚ) / (coreDiv regData cru i + 1)

/-- Every core runs, and not above the bound. -/
def CoresWithin (regData : RockchipCpuclkRegData) (altPrate : BitVec 64) (bound : Nat)
    (cru : Cru) : Prop :=
  ∀ i < regData.numCores, ∃ rate, coreRate regData altPrate cru i = some rate ∧ rate ≤ bound

end Clk
end RockchipSoc
