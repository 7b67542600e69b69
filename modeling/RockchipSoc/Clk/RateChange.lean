import Mathlib.Tactic.NormNum
import Mathlib.Tactic.Positivity
import RockchipSoc.Clk.CpuClk

/-!
# Core frequencies during a rate change

Two situations cover every intermediate state of a rate change.  On the main parent the dividers
can only slow a core down.  On the alternate parent each core must be divided enough for the old
rate, and the dividers that the notifier programs before it switches are.
-/

namespace RockchipSoc
namespace Clk

open HiwordField OpTrace

/-! ### Single writes -/

/-- The mux and the dividers of the cores are the same in two states. -/
def SameCores (regData : RockchipCpuclkRegData) (before after : Cru) : Prop :=
  coreMux regData after = coreMux regData before ∧
    ∀ i < regData.numCores, coreDiv regData after i = coreDiv regData before i

variable {regData : RockchipCpuclkRegData}

theorem field_writel_of_spares {cru : Cru} {write : RegWrite} {reg mask shift : Nat}
    (spares : write.reg = reg → Spares write.val mask shift) :
    field ((cru.act (.writel write)).regs reg) mask shift = field (cru.regs reg) mask shift := by
  simp only [Cru.act, Function.update_apply]
  split
  · next same =>
      subst same
      exact field_hiwordWrite_of_spares (spares rfl)
  · rfl

theorem sameCores_writel {cru : Cru} {write : RegWrite}
    (spares : regData.SparesCores write.reg write.val) :
    SameCores regData cru (cru.act (.writel write)) :=
  ⟨field_writel_of_spares spares.1, fun i inside => field_writel_of_spares (spares.2 i inside)⟩

section Divider

variable {cru : Cru} {value i : Nat} (inside : i < regData.numCores)
  (value_fits : value <<< regData.divCoreShift i < 2 ^ 16)
include inside

theorem coreDiv_coreDivWrite :
    coreDiv regData (cru.act (.writel (coreDivWrite regData value i))) i =
      value &&& regData.divCoreMask i := by
  simpa [coreDiv, coreDivWrite, Cru.act] using
    field_hiwordUpdate (regData.mask_fits i inside)

include value_fits

theorem coreDiv_coreDivWrite_of_ne {j : Nat} (inside' : j < regData.numCores) (other : i ≠ j) :
    coreDiv regData (cru.act (.writel (coreDivWrite regData value i))) j =
      coreDiv regData cru j :=
  field_writel_of_spares fun same =>
    spares_hiwordUpdate value_fits (regData.cores_disjoint i inside j inside' other same)

theorem coreMux_coreDivWrite :
    coreMux regData (cru.act (.writel (coreDivWrite regData value i))) = coreMux regData cru :=
  field_writel_of_spares fun same =>
    spares_hiwordUpdate value_fits (regData.mux_disjoint i inside same)

end Divider

theorem mux_value_fits {value : Nat} (subset : value &&& regData.muxCoreMask = value) :
    value <<< regData.muxCoreShift < 2 ^ 16 := by
  have small : value ≤ regData.muxCoreMask := subset ▸ Nat.and_le_right
  refine lt_of_le_of_lt ?_ regData.mux_fits
  simp only [Nat.shiftLeft_eq]
  exact Nat.mul_le_mul_right _ small

theorem coreMux_writeCoreMux {cru : Cru} {value : Nat}
    (subset : value &&& regData.muxCoreMask = value) :
    coreMux regData (cru.act (.writel (writeCoreMux regData value))) = value := by
  have written := @field_hiwordUpdate (cru.regs (regData.coreReg 0)) value _ _ regData.mux_fits
  rw [subset] at written
  simpa [coreMux, writeCoreMux, Cru.act] using written

theorem coreDiv_writeCoreMux {cru : Cru} {value i : Nat}
    (subset : value &&& regData.muxCoreMask = value) (inside : i < regData.numCores) :
    coreDiv regData (cru.act (.writel (writeCoreMux regData value))) i = coreDiv regData cru i :=
  field_writel_of_spares fun same =>
    spares_hiwordUpdate (mux_value_fits subset) (regData.disjoint_mux i inside same.symm)

/-! ### The divider loop -/

theorem Cru.run_append (cru : Cru) (left right : List RegWrite) :
    cru.run (left ++ right) = (cru.run left).run right := by
  simp [Cru.run]

@[simp] theorem Cru.pllRate_writel (cru : Cru) (write : RegWrite) :
    (cru.act (.writel write)).pllRate = cru.pllRate := rfl

/-- After the first writes of the loop these cores have the value that their field can hold, and
nothing else has changed. -/
structure DivsWritten (regData : RockchipCpuclkRegData) (value count : Nat)
    (before after : Cru) : Prop where
  done : ∀ i < count, coreDiv regData after i = value &&& regData.divCoreMask i
  pending : ∀ i < regData.numCores, count ≤ i → coreDiv regData after i = coreDiv regData before i
  mux : coreMux regData after = coreMux regData before
  pll : after.pllRate = before.pllRate

theorem divsWritten_loop {value count : Nat} (cru : Cru) (within : count ≤ regData.numCores)
    (fits : ∀ i < regData.numCores, value <<< regData.divCoreShift i < 2 ^ 16) :
    DivsWritten regData value count cru
      (cru.run ((List.range count).map (coreDivWrite regData value))) := by
  induction count with
  | zero => exact ⟨fun i none => absurd none (Nat.not_lt_zero i), fun _ _ _ => rfl, rfl, rfl⟩
  | succ count ih =>
      have earlier := ih (Nat.le_of_succ_le within)
      have inside : count < regData.numCores := within
      rw [List.range_succ, List.map_append, Cru.run_append]
      refine ⟨fun i done => ?_, fun i inside' later => ?_, ?_, earlier.pll⟩
      · rcases Nat.lt_succ_iff_lt_or_eq.mp done with before | rfl
        · rw [← earlier.done i before]
          exact coreDiv_coreDivWrite_of_ne inside (fits count inside) (by omega) (by omega)
        · exact coreDiv_coreDivWrite inside
      · rw [← earlier.pending i inside' (Nat.le_of_succ_le later)]
        exact coreDiv_coreDivWrite_of_ne inside (fits count inside) inside' (by omega)
      · rw [← earlier.mux]
        exact coreMux_coreDivWrite inside (fits count inside)

theorem divsWritten_writeCoreDivs {value : Nat} (cru : Cru)
    (fits : ∀ i < regData.numCores, value <<< regData.divCoreShift i < 2 ^ 16) :
    DivsWritten regData value regData.numCores cru (cru.run (writeCoreDivs regData value)) :=
  divsWritten_loop cru le_rfl fits

/-- The alternate divider is programmed at most at the limit, so it fits every field. -/
theorem altDiv_fits (altPrate oldRate : BitVec 64) (i : Nat) (inside : i < regData.numCores) :
    altDiv regData altPrate oldRate <<< regData.divCoreShift i < 2 ^ 16 := by
  have limited : altDiv regData altPrate oldRate ≤ regData.divCoreMask 0 := by
    unfold altDiv
    split <;> omega
  refine lt_of_le_of_lt ?_ (regData.limit_fits i inside)
  simp only [Nat.shiftLeft_eq]
  exact Nat.mul_le_mul_right _ limited

/-! ### The divider that is needed -/

/-- The smallest divider setting that keeps the alternate parent at or below the old rate. -/
def neededAltDiv (altPrate oldRate : BitVec 64) : Nat :=
  (altPrate.toNat + oldRate.toNat - 1) / oldRate.toNat - 1

/-- The needed divider can be held by the divider field of each core. -/
def AltDivFits (regData : RockchipCpuclkRegData) (altPrate oldRate : BitVec 64) : Prop :=
  ∀ i < regData.numCores,
    neededAltDiv altPrate oldRate &&& regData.divCoreMask i = neededAltDiv altPrate oldRate

theorem le_mul_neededAltDiv {altPrate oldRate : BitVec 64} (positive : 0 < oldRate) :
    altPrate.toNat ≤ oldRate.toNat * (neededAltDiv altPrate oldRate + 1) := by
  have old_pos : 0 < oldRate.toNat := by simpa [BitVec.lt_def] using positive
  rcases Nat.eq_zero_or_pos altPrate.toNat with none | alt_pos
  · omega
  · have enough : 1 ≤ (altPrate.toNat + oldRate.toNat - 1) / oldRate.toNat :=
      (Nat.one_le_div_iff old_pos).mpr (by omega)
    have division := Nat.div_add_mod (altPrate.toNat + oldRate.toNat - 1) oldRate.toNat
    have remainder := Nat.mod_lt (altPrate.toNat + oldRate.toNat - 1) old_pos
    rw [neededAltDiv, Nat.sub_add_cancel enough]
    omega

theorem toNat_sub_one (n : BitVec 64) :
    (n - 1).toNat = if n.toNat = 0 then 2 ^ 64 - 1 else n.toNat - 1 := by
  have one : (1 : BitVec 64).toNat = 1 := rfl
  have small := n.isLt
  rw [BitVec.toNat_sub, one]
  split <;> omega

/-- The computed divider is the needed one, unless the rounding up wraps around. -/
theorem calculatedAltDiv_eq_or {altPrate oldRate : BitVec 64} (positive : 0 < oldRate)
    (faster : altPrate > oldRate) :
    (calculatedAltDiv altPrate oldRate).toNat = neededAltDiv altPrate oldRate ∨
      (calculatedAltDiv altPrate oldRate).toNat = 2 ^ 64 - 1 := by
  have old_pos : 0 < oldRate.toNat := by simpa [BitVec.lt_def] using positive
  have faster' : oldRate.toNat < altPrate.toNat := faster
  have alt_lt := altPrate.isLt
  have old_lt := oldRate.isLt
  have sum := toNat_sub_one (altPrate + oldRate)
  rw [BitVec.toNat_add] at sum
  rcases Nat.lt_or_ge (altPrate.toNat + oldRate.toNat - 1) (2 ^ 64) with exact' | wraps
  · left
    have sum_eq : (altPrate + oldRate - 1).toNat = altPrate.toNat + oldRate.toNat - 1 := by
      rw [sum]
      split <;> omega
    have enough : 1 ≤ (altPrate.toNat + oldRate.toNat - 1) / oldRate.toNat :=
      (Nat.one_le_div_iff old_pos).mpr (by omega)
    rw [calculatedAltDiv, toNat_sub_one, divRoundUp, BitVec.toNat_udiv, sum_eq,
      if_neg (Nat.ne_of_gt enough), neededAltDiv]
  · right
    have sum_lt : (altPrate + oldRate - 1).toNat < oldRate.toNat := by
      rw [sum]
      split <;> omega
    rw [calculatedAltDiv, toNat_sub_one, divRoundUp, BitVec.toNat_udiv,
      Nat.div_eq_of_lt sum_lt, if_pos rfl]

/-- Where the needed divider fits its field, the programmed one divides at least as much. -/
theorem neededAltDiv_le {altPrate oldRate : BitVec 64} (positive : 0 < oldRate)
    (faster : altPrate > oldRate) (fits : AltDivFits regData altPrate oldRate)
    {i : Nat} (inside : i < regData.numCores) :
    neededAltDiv altPrate oldRate ≤ altDiv regData altPrate oldRate &&& regData.divCoreMask i := by
  have fits_limit := fits 0 (Nat.zero_lt_of_lt inside)
  have fits_core := fits i inside
  have within : neededAltDiv altPrate oldRate ≤ regData.divCoreMask 0 :=
    fits_limit ▸ Nat.and_le_right
  have limit_small : regData.divCoreMask 0 < 2 ^ 16 := by
    have limit := regData.limit_fits i inside
    rw [Nat.shiftLeft_eq] at limit
    exact lt_of_le_of_lt (Nat.le_mul_of_pos_right _ (Nat.two_pow_pos _)) limit
  rcases calculatedAltDiv_eq_or positive faster with needed | wrapped
  · have unlimited : altDiv regData altPrate oldRate = neededAltDiv altPrate oldRate := by
      rw [altDiv, needed, if_neg (Nat.not_lt.mpr within)]
    rw [unlimited, fits_core]
  · have limited : altDiv regData altPrate oldRate = regData.divCoreMask 0 := by
      rw [altDiv, wrapped, if_pos (by omega)]
    have common : neededAltDiv altPrate oldRate &&&
        (regData.divCoreMask 0 &&& regData.divCoreMask i) = neededAltDiv altPrate oldRate := by
      rw [← Nat.land_assoc, fits_limit, fits_core]
    rw [limited]
    exact common ▸ Nat.and_le_right

/-! ### The two parents -/

/-- The cores run from the PLL, which has this rate. -/
def OnMain (regData : RockchipCpuclkRegData) (rate : BitVec 64) (cru : Cru) : Prop :=
  coreMux regData cru = regData.muxCoreMain ∧ cru.pllRate = rate

/-- The cores run from the alternate parent, each divided enough for the old rate. -/
def OnAlt (regData : RockchipCpuclkRegData) (altPrate oldRate : BitVec 64) (cru : Cru) : Prop :=
  coreMux regData cru = regData.muxCoreAlt ∧
    ∀ i < regData.numCores, altPrate.toNat ≤ oldRate.toNat * (coreDiv regData cru i + 1)

/-- The cores run at or below the old rate, from whichever parent. -/
def Paced (regData : RockchipCpuclkRegData) (altPrate oldRate : BitVec 64) (cru : Cru) : Prop :=
  OnMain regData oldRate cru ∨ OnAlt regData altPrate oldRate cru

variable {altPrate oldRate : BitVec 64} {cru : Cru} {bound : Nat}

theorem rate_le_of_le_mul {parent div : Nat} (enough : parent ≤ bound * (div + 1)) :
    (parent : ℚ) / (div + 1) ≤ bound := by
  rw [div_le_iff₀ (by positivity)]
  exact_mod_cast enough

theorem coresWithin_of_onMain {rate : BitVec 64} (main : OnMain regData rate cru)
    (low : rate.toNat ≤ bound) : CoresWithin regData altPrate bound cru := by
  intro i _
  refine ⟨_, by rw [coreRate, coreParentRate, if_pos main.1, Option.map_some], ?_⟩
  apply rate_le_of_le_mul
  rw [main.2]
  exact low.trans (Nat.le_mul_of_pos_right _ (Nat.succ_pos _))

theorem coresWithin_of_onAlt (alt : OnAlt regData altPrate oldRate cru)
    (low : oldRate.toNat ≤ bound) : CoresWithin regData altPrate bound cru := by
  intro i inside
  have moved : coreMux regData cru ≠ regData.muxCoreMain := alt.1 ▸ regData.mux_distinct
  refine ⟨_, by rw [coreRate, coreParentRate, if_neg moved, if_pos alt.1, Option.map_some], ?_⟩
  apply rate_le_of_le_mul
  exact (alt.2 i inside).trans (Nat.mul_le_mul_right _ low)

theorem coresWithin_of_paced (paced : Paced regData altPrate oldRate cru)
    (low : oldRate.toNat ≤ bound) : CoresWithin regData altPrate bound cru :=
  paced.elim (coresWithin_of_onMain · low) (coresWithin_of_onAlt · low)

theorem OnMain.coreDivWrite {rate : BitVec 64} {value i : Nat} (inside : i < regData.numCores)
    (value_fits : value <<< regData.divCoreShift i < 2 ^ 16) (main : OnMain regData rate cru) :
    OnMain regData rate (cru.act (.writel (coreDivWrite regData value i))) :=
  ⟨(coreMux_coreDivWrite inside value_fits).trans main.1, main.2⟩

/-- A divider that is enough for the old rate may be written at any time. -/
theorem Paced.coreDivWrite {value i : Nat} (inside : i < regData.numCores)
    (value_fits : value <<< regData.divCoreShift i < 2 ^ 16)
    (enough : altPrate.toNat ≤ oldRate.toNat * ((value &&& regData.divCoreMask i) + 1))
    (paced : Paced regData altPrate oldRate cru) :
    Paced regData altPrate oldRate (cru.act (.writel (coreDivWrite regData value i))) := by
  refine paced.imp (OnMain.coreDivWrite inside value_fits) fun alt => ?_
  refine ⟨(coreMux_coreDivWrite inside value_fits).trans alt.1, fun j inside' => ?_⟩
  by_cases same : i = j
  · subst same
    rwa [coreDiv_coreDivWrite inside]
  · rw [coreDiv_coreDivWrite_of_ne inside value_fits inside' same]
    exact alt.2 j inside'

theorem onMain_writeCoreMux {rate : BitVec 64} (settled : cru.pllRate = rate) :
    OnMain regData rate (cru.act (.writel (writeCoreMux regData regData.muxCoreMain))) :=
  ⟨coreMux_writeCoreMux regData.mux_main, settled⟩

theorem onAlt_writeCoreMux (enough : ∀ i < regData.numCores,
      altPrate.toNat ≤ oldRate.toNat * (coreDiv regData cru i + 1)) :
    OnAlt regData altPrate oldRate
      (cru.act (.writel (writeCoreMux regData regData.muxCoreAlt))) := by
  refine ⟨coreMux_writeCoreMux regData.mux_alt, fun i inside => ?_⟩
  rw [coreDiv_writeCoreMux regData.mux_alt inside]
  exact enough i inside

theorem OnMain.writel_spares {rate : BitVec 64} {write : RegWrite}
    (spares : regData.SparesCores write.reg write.val) (main : OnMain regData rate cru) :
    OnMain regData rate (cru.act (.writel write)) :=
  ⟨(sameCores_writel spares).1.trans main.1, main.2⟩

theorem OnAlt.writel_spares {write : RegWrite}
    (spares : regData.SparesCores write.reg write.val) (alt : OnAlt regData altPrate oldRate cru) :
    OnAlt regData altPrate oldRate (cru.act (.writel write)) := by
  refine ⟨(sameCores_writel spares).1.trans alt.1, fun i inside => ?_⟩
  rw [(sameCores_writel spares).2 i inside]
  exact alt.2 i inside

/-! ### The events of a rate change -/

/-- What the notifier does to the clock unit around the setting of the PLL. -/
def rateChangeOps (cpuclk : RockchipCpuclk) (altPrate : BitVec 64) (ndata : ClkNotifierData) :
    Except Errno (List CruOp) := do
  let before ← rockchipCpuclkNotifierCb cpuclk altPrate .preRateChange ndata
  let after ← rockchipCpuclkNotifierCb cpuclk altPrate .postRateChange ndata
  return before.map .writel ++ [.setPll ndata.newRate] ++ after.map .writel

/-- After each write, and after the PLL has settled, no core is above the two rates. -/
def StaysWithin (cpuclk : RockchipCpuclk) (altPrate : BitVec 64) (ndata : ClkNotifierData)
    (cru : Cru) : Prop :=
  ∃ ops, rateChangeOps cpuclk altPrate ndata = .ok ops ∧
    EachAfter Cru.act
      (CoresWithin cpuclk.regData altPrate (max ndata.oldRate.toNat ndata.newRate.toNat)) cru ops

/-- An aborted change leaves the core mux and the core dividers as they were. -/
def AbortRestores (cpuclk : RockchipCpuclk) (altPrate : BitVec 64) (ndata : ClkNotifierData)
    (cru : Cru) : Prop :=
  ∃ before aborted,
    rockchipCpuclkNotifierCb cpuclk altPrate .preRateChange ndata = .ok before ∧
    rockchipCpuclkNotifierCb cpuclk altPrate .abortRateChange ndata = .ok aborted ∧
    SameCores cpuclk.regData cru (cru.run (before ++ aborted))

/-- The cores already run as the notifier sets them up for the alternate parent. -/
def AlreadyOnAlt (regData : RockchipCpuclkRegData) (altPrate oldRate : BitVec 64)
    (cru : Cru) : Prop :=
  coreMux regData cru = regData.muxCoreAlt ∧
    (altPrate > oldRate → ∀ i < regData.numCores,
      coreDiv regData cru i = altDiv regData altPrate oldRate &&& regData.divCoreMask i)

variable {cpuclk : RockchipCpuclk} {ndata : ClkNotifierData}

/-- The rate is one of the table. -/
def Listed (cpuclk : RockchipCpuclk) (rate : BitVec 64) : Prop :=
  ∃ entry ∈ cpuclk.rateTable, entry.prate = rate

theorem Listed.pos {rate : BitVec 64} (listed : Listed cpuclk rate) : 0 < rate := by
  obtain ⟨entry, member, rfl⟩ := listed
  exact cpuclk.prate_pos entry member

theorem Listed.settings {rate : BitVec 64} (listed : Listed cpuclk rate) :
    ∃ entry ∈ cpuclk.rateTable, rockchipGetCpuclkSettings cpuclk rate = some entry := by
  obtain ⟨entry, member, rfl⟩ := listed
  have found : (cpuclk.rateTable.find? fun other => entry.prate == other.prate).isSome :=
    List.find?_isSome.mpr ⟨entry, member, beq_self_eq_true _⟩
  obtain ⟨first, first_eq⟩ := Option.isSome_iff_exists.mp found
  exact ⟨first, List.mem_of_find?_eq_some first_eq, first_eq⟩

/-- The divider writes of `PRE_RATE_CHANGE`. -/
def preDivs (regData : RockchipCpuclkRegData) (altPrate oldRate : BitVec 64) : List RegWrite :=
  if altPrate > oldRate then writeCoreDivs regData (altDiv regData altPrate oldRate) else []

/-- The writes of `PRE_RATE_CHANGE`. -/
def preWrites (regData : RockchipCpuclkRegData) (altPrate oldRate : BitVec 64) :
    List RegWrite :=
  preDivs regData altPrate oldRate ++ [writeCoreMux regData regData.muxCoreAlt]

theorem preRateChange_eq (listed : Listed cpuclk ndata.newRate) :
    rockchipCpuclkNotifierCb cpuclk altPrate .preRateChange ndata =
      .ok (preWrites cpuclk.regData altPrate ndata.oldRate) := by
  obtain ⟨entry, _, settings⟩ := listed.settings
  simp only [rockchipCpuclkNotifierCb, rockchipCpuclkPreRateChange, settings, preWrites, preDivs]

theorem mem_writeCoreDivs {value : Nat} {op : CruOp}
    (member : op ∈ (writeCoreDivs regData value).map CruOp.writel) :
    ∃ i < regData.numCores, op = .writel (coreDivWrite regData value i) := by
  simp only [writeCoreDivs, List.map_map, List.mem_map, List.mem_range] at member
  obtain ⟨i, inside, rfl⟩ := member
  exact ⟨i, inside, rfl⟩

theorem paced_preDivs (positive : 0 < oldRate) (fits : AltDivFits regData altPrate oldRate) :
    ∀ op ∈ (preDivs regData altPrate oldRate).map CruOp.writel, ∀ state,
      Paced regData altPrate oldRate state → Paced regData altPrate oldRate (state.act op) := by
  unfold preDivs
  split
  · next faster =>
      intro op member state paced
      obtain ⟨i, inside, rfl⟩ := mem_writeCoreDivs member
      refine paced.coreDivWrite inside (altDiv_fits altPrate oldRate i inside) ?_
      refine (le_mul_neededAltDiv positive).trans (Nat.mul_le_mul_left _ ?_)
      exact Nat.succ_le_succ (neededAltDiv_le positive faster fits inside)
  · simp

/-- The dividers once `PRE_RATE_CHANGE` has written them. -/
theorem coreDiv_preDivs (cru : Cru) {i : Nat} (inside : i < regData.numCores) :
    coreDiv regData (cru.run (preDivs regData altPrate oldRate)) i =
      if altPrate > oldRate then altDiv regData altPrate oldRate &&& regData.divCoreMask i
      else coreDiv regData cru i := by
  unfold preDivs
  split
  · exact (divsWritten_writeCoreDivs cru (altDiv_fits altPrate oldRate)).done i inside
  · rfl

theorem enough_preDivs (positive : 0 < oldRate) (fits : AltDivFits regData altPrate oldRate)
    (cru : Cru) (i : Nat) (inside : i < regData.numCores) :
    altPrate.toNat ≤
      oldRate.toNat * (coreDiv regData (cru.run (preDivs regData altPrate oldRate)) i + 1) := by
  rw [coreDiv_preDivs cru inside]
  split
  · next faster =>
      refine (le_mul_neededAltDiv positive).trans (Nat.mul_le_mul_left _ ?_)
      exact Nat.succ_le_succ (neededAltDiv_le positive faster fits inside)
  · next slower =>
      have slow : altPrate.toNat ≤ oldRate.toNat := Nat.le_of_not_lt slower
      exact slow.trans (Nat.le_mul_of_pos_right _ (Nat.succ_pos _))

/-- Until the cores are on the alternate parent they stay at or below the old rate. -/
theorem preRateChange_within (positive : 0 < oldRate)
    (fits : AltDivFits regData altPrate oldRate) (paced : Paced regData altPrate oldRate cru)
    (low : oldRate.toNat ≤ bound) :
    EachAfter Cru.act (CoresWithin regData altPrate bound) cru
        ((preWrites regData altPrate oldRate).map .writel) ∧
      OnAlt regData altPrate oldRate (cru.run (preWrites regData altPrate oldRate)) := by
  have onAlt := onAlt_writeCoreMux (enough_preDivs positive fits cru)
  rw [preWrites, List.map_append, eachAfter_append, Cru.run_append]
  refine ⟨⟨?_, coresWithin_of_onAlt onAlt low, trivial⟩, onAlt⟩
  exact eachAfter_of_inv (paced_preDivs positive fits)
    (fun _ paced' => coresWithin_of_paced paced' low) paced

/-- The settings listed with a rate, where they are written. -/
def settingsWhen (written : Bool) (rate : RockchipCpuclkRateTable) : List RegWrite :=
  if written then rockchipCpuclkSetDividers rate else []

/-- The writes of `POST_RATE_CHANGE` from the alternate parent to the PLL. -/
def backToMain (regData : RockchipCpuclkRegData) (lowered : List RegWrite) : List RegWrite :=
  writeCoreMux regData regData.muxCoreMain :: (writeCoreDivs regData 0 ++ lowered)

theorem postRateChange_eq (listed : Listed cpuclk ndata.newRate) :
    ∃ entry ∈ cpuclk.rateTable,
      rockchipCpuclkNotifierCb cpuclk altPrate .postRateChange ndata =
        .ok (settingsWhen (ndata.oldRate < ndata.newRate) entry ++
          backToMain cpuclk.regData (settingsWhen (ndata.oldRate > ndata.newRate) entry)) := by
  obtain ⟨entry, member, settings⟩ := listed.settings
  refine ⟨entry, member, ?_⟩
  simp [rockchipCpuclkNotifierCb, rockchipCpuclkPostRateChange, settings, settingsWhen, backToMain]

theorem mem_settingsWhen {written : Bool} {rate : RockchipCpuclkRateTable}
    (listed : rate ∈ cpuclk.rateTable) {op : CruOp}
    (member : op ∈ (settingsWhen written rate).map CruOp.writel) :
    ∃ write : RegWrite, cpuclk.regData.SparesCores write.reg write.val ∧ op = .writel write := by
  cases written with
  | false => simp [settingsWhen] at member
  | true =>
      simp only [settingsWhen, rockchipCpuclkSetDividers, if_true, List.map_map, List.mem_map,
        List.mem_filter] at member
      obtain ⟨clksel, ⟨listed', _⟩, rfl⟩ := member
      exact ⟨⟨clksel.reg, clksel.val⟩, cpuclk.divs_spare rate listed clksel listed', rfl⟩

/-- Once the cores are on the PLL, neither the dividers nor the listed settings matter. -/
theorem onMain_tail {rate : BitVec 64} {entry : RockchipCpuclkRateTable}
    (listed : entry ∈ cpuclk.rateTable) (written : Bool) :
    ∀ op ∈ (writeCoreDivs cpuclk.regData 0 ++ settingsWhen written entry).map CruOp.writel,
      ∀ state, OnMain cpuclk.regData rate state → OnMain cpuclk.regData rate (state.act op) := by
  intro op member state main
  rw [List.map_append, List.mem_append] at member
  rcases member with divider | setting
  · obtain ⟨i, inside, rfl⟩ := mem_writeCoreDivs divider
    exact main.coreDivWrite inside (by simp)
  · obtain ⟨write, spares, rfl⟩ := mem_settingsWhen listed setting
    exact main.writel_spares spares

/-- From the alternate parent back to the PLL, no core is above the old or the new rate. -/
theorem postRateChange_within (listed : Listed cpuclk ndata.newRate)
    (alt : OnAlt cpuclk.regData altPrate ndata.oldRate cru) (settled : cru.pllRate = ndata.newRate)
    (low : ndata.oldRate.toNat ≤ bound) (low' : ndata.newRate.toNat ≤ bound) :
    ∃ after, rockchipCpuclkNotifierCb cpuclk altPrate .postRateChange ndata = .ok after ∧
      EachAfter Cru.act (CoresWithin cpuclk.regData altPrate bound) cru (after.map .writel) := by
  obtain ⟨entry, member, after_eq⟩ := @postRateChange_eq altPrate cpuclk ndata listed
  let onAlt : Cru → Prop := fun state =>
    OnAlt cpuclk.regData altPrate ndata.oldRate state ∧ state.pllRate = ndata.newRate
  have raised_kept : ∀ op ∈ (settingsWhen (ndata.oldRate < ndata.newRate) entry).map CruOp.writel,
      ∀ state, onAlt state → onAlt (state.act op) := by
    rintro op found state ⟨alt', settled'⟩
    obtain ⟨write, spares, rfl⟩ := mem_settingsWhen member found
    exact ⟨alt'.writel_spares spares, settled'⟩
  have raised := foldl_inv raised_kept ⟨alt, settled⟩
  have main := @onMain_writeCoreMux cpuclk.regData _ _ raised.2
  refine ⟨_, after_eq, ?_⟩
  rw [List.map_append, eachAfter_append]
  refine ⟨?_, coresWithin_of_onMain main low', ?_⟩
  · exact eachAfter_of_inv raised_kept (fun _ state => coresWithin_of_onAlt state.1 low)
      ⟨alt, settled⟩
  · exact eachAfter_of_inv (onMain_tail member _)
      (fun _ state => coresWithin_of_onMain state low') main

/-- A rate change stays within the two rates wherever the needed divider can be programmed. -/
theorem staysWithin (oldListed : Listed cpuclk ndata.oldRate)
    (newListed : Listed cpuclk ndata.newRate)
    (fits : AltDivFits cpuclk.regData altPrate ndata.oldRate)
    (paced : Paced cpuclk.regData altPrate ndata.oldRate cru) :
    StaysWithin cpuclk altPrate ndata cru := by
  obtain ⟨before_within, onAlt⟩ :=
    preRateChange_within oldListed.pos fits paced (le_max_left _ ndata.newRate.toNat)
  let atNewRate := (cru.run (preWrites cpuclk.regData altPrate ndata.oldRate)).act
    (.setPll ndata.newRate)
  have moved : OnAlt cpuclk.regData altPrate ndata.oldRate atNewRate := onAlt
  obtain ⟨after, after_eq, after_within⟩ := postRateChange_within newListed moved rfl
    (le_max_left _ _) (le_max_right ndata.oldRate.toNat _)
  refine ⟨_, by rw [rateChangeOps, preRateChange_eq newListed, after_eq]; rfl, ?_⟩
  rw [List.append_assoc, eachAfter_append]
  exact ⟨before_within, coresWithin_of_onAlt moved (le_max_left _ _), after_within⟩

/-- What an aborted change leaves behind is the set-up for the alternate parent. -/
theorem abortRestores_iff (newListed : Listed cpuclk ndata.newRate) :
    AbortRestores cpuclk altPrate ndata cru ↔
      AlreadyOnAlt cpuclk.regData altPrate ndata.oldRate cru := by
  have mux : coreMux cpuclk.regData (cru.run (preWrites cpuclk.regData altPrate ndata.oldRate)) =
      cpuclk.regData.muxCoreAlt := by
    rw [preWrites, Cru.run_append]
    exact coreMux_writeCoreMux cpuclk.regData.mux_alt
  have div : ∀ i < cpuclk.regData.numCores,
      coreDiv cpuclk.regData (cru.run (preWrites cpuclk.regData altPrate ndata.oldRate)) i =
        coreDiv cpuclk.regData (cru.run (preDivs cpuclk.regData altPrate ndata.oldRate)) i := by
    intro i inside
    rw [preWrites, Cru.run_append]
    exact coreDiv_writeCoreMux cpuclk.regData.mux_alt inside
  have same : AbortRestores cpuclk altPrate ndata cru ↔ SameCores cpuclk.regData cru
      (cru.run (preWrites cpuclk.regData altPrate ndata.oldRate)) := by
    constructor
    · rintro ⟨before, aborted, before_eq, aborted_eq, kept⟩
      rw [preRateChange_eq newListed] at before_eq
      obtain rfl := Except.ok.inj before_eq
      obtain rfl := Except.ok.inj aborted_eq
      rwa [List.append_nil] at kept
    · exact fun kept => ⟨_, _, preRateChange_eq newListed, rfl, by rwa [List.append_nil]⟩
  rw [same, SameCores, mux, AlreadyOnAlt, eq_comm]
  refine and_congr_right fun _ => ⟨fun kept faster i inside => ?_, fun already i inside => ?_⟩
  · rw [← kept i inside, div i inside, coreDiv_preDivs cru inside, if_pos faster]
  · rw [div i inside, coreDiv_preDivs cru inside]
    split
    · next faster => exact (already faster i inside).symm
    · rfl

/-- Every write of a rate change keeps the cores within the two rates, provided the needed
divider fits.  An aborted change, which the notifier does not handle, leaves the cores on the
alternate parent: mux and dividers are as before exactly if they were set up so already. -/
theorem cpuclk_rate_change_iff (cpuclk : RockchipCpuclk) (altPrate : BitVec 64)
    (ndata : ClkNotifierData) (cru : Cru) (oldListed : Listed cpuclk ndata.oldRate)
    (newListed : Listed cpuclk ndata.newRate)
    (paced : Paced cpuclk.regData altPrate ndata.oldRate cru) :
    (AltDivFits cpuclk.regData altPrate ndata.oldRate → StaysWithin cpuclk altPrate ndata cru) ∧
      ((AltDivFits cpuclk.regData altPrate ndata.oldRate → StaysWithin cpuclk altPrate ndata cru) ∧
        AbortRestores cpuclk altPrate ndata cru ↔
          AlreadyOnAlt cpuclk.regData altPrate ndata.oldRate cru) := by
  have within := fun fits => staysWithin oldListed newListed fits paced
  exact ⟨within, (and_iff_right within).trans (abortRestores_iff newListed)⟩

/-! ### A clock with one core -/

/-- The core registers of the RK3288. -/
def rk3288CpuclkData : RockchipCpuclkRegData where
  coreReg := fun _ => 0x60
  divCoreShift := fun _ => 8
  divCoreMask := fun _ => 0x1f
  numCores := 1
  muxCoreAlt := 1
  muxCoreMain := 0
  muxCoreShift := 15
  muxCoreMask := 0x1
  mask_fits := by decide
  limit_fits := by decide
  mux_fits := by decide
  mux_alt := by decide
  mux_main := by decide
  mux_distinct := by decide
  cores_disjoint := by decide
  mux_disjoint := by decide
  disjoint_mux := by decide

/-- Its cores with two of the listed rates. -/
def rk3288Cpuclk : RockchipCpuclk where
  regData := rk3288CpuclkData
  rateTable :=
    [⟨1800000000, [⟨0x60, 0x00ff0031⟩, ⟨0xf4, 0x3ff70631⟩]⟩,
      ⟨126000000, [⟨0x60, 0x00ff0031⟩, ⟨0xf4, 0x3ff70631⟩]⟩]
  prate_pos := by simp
  divs_spare := by simp [RockchipCpuclkRegData.SparesCores, rk3288CpuclkData]; decide

/-- The cores on their PLL at 126 MHz, undivided. -/
def rk3288AtLowRate : Cru where
  regs := fun _ => 0
  pllRate := 126000000

theorem cpuclk_rate_change_iff_rk3288 :
    Paced rk3288CpuclkData 594000000 126000000 rk3288AtLowRate ∧
      AltDivFits rk3288CpuclkData 594000000 126000000 ∧
      StaysWithin rk3288Cpuclk 594000000 ⟨126000000, 1800000000⟩ rk3288AtLowRate := by
  have paced : Paced rk3288CpuclkData 594000000 126000000 rk3288AtLowRate :=
    .inl ⟨by decide, rfl⟩
  have fits : AltDivFits rk3288CpuclkData 594000000 126000000 := by
    simp [AltDivFits, neededAltDiv, rk3288CpuclkData]
  exact ⟨paced, fits, (cpuclk_rate_change_iff rk3288Cpuclk 594000000 ⟨126000000, 1800000000⟩
    rk3288AtLowRate ⟨_, List.mem_cons_of_mem _ List.mem_cons_self, rfl⟩ ⟨_, List.mem_cons_self, rfl⟩
    paced).1 fits⟩

/-- An aborted change from 126 MHz leaves the cores on the alternate parent. -/
theorem cpuclk_abort_keeps_alternate_parent :
    Paced rk3288CpuclkData 594000000 126000000 rk3288AtLowRate ∧
      ¬ ((AltDivFits rk3288CpuclkData 594000000 126000000 →
          StaysWithin rk3288Cpuclk 594000000 ⟨126000000, 1800000000⟩ rk3288AtLowRate) ∧
        AbortRestores rk3288Cpuclk 594000000 ⟨126000000, 1800000000⟩ rk3288AtLowRate) := by
  refine ⟨.inl ⟨by decide, rfl⟩, fun ⟨_, before, aborted, before_eq, aborted_eq, kept⟩ => ?_⟩
  obtain rfl := Except.ok.inj before_eq
  obtain rfl := Except.ok.inj aborted_eq
  exact absurd kept.1 (by decide)

end Clk
end RockchipSoc
