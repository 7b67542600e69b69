import RockchipSoc.Clk.PllAuto3066
import RockchipSoc.Foundation.RestoringUpdate

/-!
# Failed PLL changes

The clock behind a PLL runs from the oscillator while the PLL is changed.  Where the PLL does not
lock, the old parameters are written by the same function, which waits for the lock again.  The
outcomes of the waits are numbered; `true` is a lock.
-/

namespace RockchipSoc
namespace Clk

open RestoringUpdate

/-- `PLL_MODE_SLOW`. -/
def pllModeSlow : ℕ := 0

/-- `PLL_MODE_NORM`. -/
def pllModeNorm : ℕ := 1

/-- The registers of a PLL and the parent of its mode mux. -/
@[ext]
structure PllState (σ : Type*) where
  con : σ
  mode : ℕ

/-- What the operations on the PLLs have in common: how the parameters are read and written, whether
the PLL is bypassed, and the rate of the parameters. -/
structure PllOps (σ π : Type*) where
  getParams : σ → π
  update : σ → π → σ
  bypassed : σ → Bool
  rate : π → ℕ → ℕ
  read_back : ∀ con con', getParams (update con (getParams con')) = getParams con'
  bypassed_update : ∀ con params, bypassed (update con params) = bypassed con

variable {σ π : Type*}

/-- The mux is moved away from the PLL for the change, and back where it was on it. -/
def PllOps.writer (ops : PllOps σ π) : Writer (PllState σ) π where
  read state := ops.getParams state.con
  write state params :=
    { con := ops.update state.con params,
      mode := if state.mode = pllModeNorm then pllModeSlow else state.mode }
  leave entry state :=
    if entry.mode = pllModeNorm then { state with mode := pllModeNorm } else state
  read_leave entry state := by
    split <;> rfl
  read_back state state' := ops.read_back state.con state'.con

/-- The parameters of a change: new ones are written, and restored where the lock fails. -/
def PllOps.setParams (ops : PllOps σ π) (locks : ℕ → Bool) (depth : ℕ) (state : PllState σ)
    (rate : π) : Option (PllState σ × Bool) :=
  RestoringUpdate.update ops.writer locks depth 0 state rate

def rk3036Ops : PllOps Rk3036Con Rk3036Params where
  getParams := rockchipRk3036PllGetParams
  update := rk3036PllUpdate
  bypassed _ := false
  rate := fracPllRate
  read_back con con' := rk3036_getParams_update con (rk3036_getParams_fits con')
  bypassed_update _ _ := rfl

def rk3066Ops : PllOps Rk3066Con Rk3066Params where
  getParams := rockchipRk3066PllGetParams
  update := rk3066PllUpdate
  bypassed := rk3066Bypassed
  rate := rk3066PllRate
  read_back con con' := rk3066_getParams_update con (rk3066_getParams_fits con')
  bypassed_update := rk3066Bypassed_update

def rk3399Ops : PllOps Rk3399Con Rk3036Params where
  getParams := rockchipRk3399PllGetParams
  update := rk3399PllUpdate
  bypassed _ := false
  rate := fracPllRate
  read_back con con' := rk3399_getParams_update con (rk3399_getParams_fits con')
  bypassed_update _ _ := rfl

/-- `rockchip_rk3036_pll_set_params`. -/
def rockchipRk3036PllSetParams := rk3036Ops.setParams

/-- `rockchip_rk3066_pll_set_params`. -/
def rockchipRk3066PllSetParams := rk3066Ops.setParams

/-- `rockchip_rk3399_pll_set_params`. -/
def rockchipRk3399PllSetParams := rk3399Ops.setParams

/-! ### Setting a rate -/

/-- `struct rockchip_clk_pll`: its rate table, its scaling and its state.  A scaling level is an
entry of the table. -/
structure RockchipClkPll (σ π : Type*) extends PllScale where
  rateTable : List (ℕ × π)
  state : PllState σ
  sel_lt : sel ≤ 0 ∨ sel < rateTable.length

/-- `rockchip_get_pll_settings`: the scaling that is stored, and the settings.  Rates outside the
table are settled automatically. -/
def rockchipGetPllSettings (auto : ℕ → Option π) (rateTable : List (ℕ × π)) (sel : ℤ) (rate : ℕ) :
    ℕ × Option π :=
  match rateTable.findIdx? fun entry => entry.1 = rate with
  | some i =>
      if (i : ℤ) < sel then (rate, rateTable[sel.toNat]?.map Prod.snd)
      else (0, rateTable[i]?.map Prod.snd)
  | .none => (0, auto rate)

/-- The automatic settings of the fractional PLLs, from 24 MHz. -/
def autoFrac (rate : ℕ) : Option Rk3036Params :=
  match rockchipPllClkSetByAuto fin24 rate with
  | some (.settings rate) => some rate
  | _ => .none

/-- The automatic settings of the PLL of RK3066, from 24 MHz.  The passes are enough for every rate
of 32 bits. -/
def auto3066 (autoTable : Rk3066Params) (rate : ℕ) : Option Rk3066Params :=
  (rockchipRk3066PllClkSetByAuto (pllNfMax + 1) autoTable fin24 rate).join

/-- `rockchip_rk3036_pll_set_rate`: the PLL behind it and whether the rate was set. -/
def rockchipRk3036PllSetRate (locks : ℕ → Bool) (depth : ℕ)
    (pll : RockchipClkPll Rk3036Con Rk3036Params) (drate : ℕ) :
    Option (RockchipClkPll Rk3036Con Rk3036Params × Bool) :=
  let settings := rockchipGetPllSettings autoFrac pll.rateTable pll.sel drate
  match settings.2 with
  | .none => some ({ pll with scaling := settings.1 }, false)
  | some rate =>
      (rockchipRk3036PllSetParams locks depth pll.state rate).map fun done =>
        ({ pll with scaling := settings.1, state := done.1 }, done.2)

/-- `rockchip_rk3066_pll_set_rate`.  Unlike the one of RK3036, it clears the scaling where the
change failed. -/
def rockchipRk3066PllSetRate (autoTable : Rk3066Params) (locks : ℕ → Bool) (depth : ℕ)
    (pll : RockchipClkPll Rk3066Con Rk3066Params) (drate : ℕ) :
    Option (RockchipClkPll Rk3066Con Rk3066Params × Bool) :=
  let settings := rockchipGetPllSettings (auto3066 autoTable) pll.rateTable pll.sel drate
  match settings.2 with
  | .none => some ({ pll with scaling := settings.1 }, false)
  | some rate =>
      (rockchipRk3066PllSetParams locks depth pll.state rate).map fun done =>
        ({ pll with scaling := if done.2 then settings.1 else 0, state := done.1 }, done.2)

/-- `rockchip_rk3399_pll_set_rate`, which clears the scaling likewise. -/
def rockchipRk3399PllSetRate (locks : ℕ → Bool) (depth : ℕ)
    (pll : RockchipClkPll Rk3399Con Rk3036Params) (drate : ℕ) :
    Option (RockchipClkPll Rk3399Con Rk3036Params × Bool) :=
  let settings := rockchipGetPllSettings autoFrac pll.rateTable pll.sel drate
  match settings.2 with
  | .none => some ({ pll with scaling := settings.1 }, false)
  | some rate =>
      (rockchipRk3399PllSetParams locks depth pll.state rate).map fun done =>
        ({ pll with scaling := if done.2 then settings.1 else 0, state := done.1 }, done.2)

/-! ### Undone changes -/

/-- Setting parameters ends, and behind an error the parameters and the mux are those at entry. -/
def Restores (setParams : ℕ → PllState σ → π → Option (PllState σ × Bool)) (getParams : σ → π)
    (state : PllState σ) (rate : π) : Prop :=
  ∃ result, (∃ enough, ∀ depth > enough, setParams depth state rate = some result) ∧
    (result.2 = false →
      getParams result.1.con = getParams state.con ∧ result.1.mode = state.mode)

/-- Behind a refused rate another rate is reported. -/
def Honest (setRate : ℕ → RockchipClkPll σ π → ℕ → Option (RockchipClkPll σ π × Bool))
    (recalcRate : PllScale → σ → ℕ → ℕ) (pll : RockchipClkPll σ π) (drate prate : ℕ) : Prop :=
  ∀ depth result, setRate depth pll drate = some (result, false) →
    recalcRate result.toPllScale result.state.con prate ≠ drate

/-- Some wait locks, and the failures before it are none, or odd in number, or the new parameters
are those at entry. -/
def RestoresWhen (ops : PllOps σ π) (locks : ℕ → Bool) (state : PllState σ) (rate : π) : Prop :=
  ∃ failures, FailsBefore locks 0 failures ∧
    (failures = 0 ∨ Odd failures ∨
      ops.getParams (ops.update state.con rate) = ops.getParams state.con)

variable {ops : PllOps σ π} {locks : ℕ → Bool} {state : PllState σ} {rate : π}

/-- The mux is back behind every change that ends. -/
theorem setParams_mode {depth : ℕ} {result : PllState σ × Bool}
    (ends : ops.setParams locks depth state rate = some result) :
    result.1.mode = state.mode := by
  apply update_keeps ops.writer PllState.mode ?_ ends
  intro entry params state' same
  simp only [PllOps.writer] at same ⊢
  split
  · next norm => exact norm.symm
  · next other => rw [same, if_neg other]

theorem setParams_bypassed {depth : ℕ} {result : PllState σ × Bool}
    (ends : ops.setParams locks depth state rate = some result) :
    ops.bypassed result.1.con = ops.bypassed state.con := by
  apply update_keeps ops.writer (fun state => ops.bypassed state.con) ?_ ends
  intro entry params state' same
  simp only [PllOps.writer, ops.bypassed_update] at same ⊢
  split
  · exact same
  · exact same

/-- What a change comes to after that many failures. -/
theorem setParams_of_failsBefore {failures : ℕ} (fails : FailsBefore locks 0 failures)
    (state : PllState σ) (rate : π) :
    ∃ state', (∀ depth > failures,
        ops.setParams locks depth state rate = some (state', decide (failures = 0))) ∧
      ops.getParams state'.con =
        if Even failures then ops.getParams (ops.update state.con rate)
        else ops.getParams state.con :=
  update_of_failsBefore ops.writer fails state rate

theorem restores_iff :
    Restores (ops.setParams locks) ops.getParams state rate ↔
      RestoresWhen ops locks state rate := by
  constructor
  · rintro ⟨result, ⟨enough, ends⟩, undone⟩
    obtain ⟨failures, fails, outcome, params⟩ :=
      exists_failsBefore_of_ends (ends (enough + 1) (Nat.lt_succ_self enough))
    refine ⟨failures, fails, ?_⟩
    by_cases zero : failures = 0
    · exact Or.inl zero
    · have kept := (undone (outcome.trans (decide_eq_false zero))).1
      have written : ops.getParams result.1.con = if Even failures then
          ops.getParams (ops.update state.con rate) else ops.getParams state.con := params
      rw [written] at kept
      rcases Nat.even_or_odd failures with even | odd
      · rw [if_pos even] at kept
        exact Or.inr (Or.inr kept)
      · exact Or.inr (Or.inl odd)
  · rintro ⟨failures, fails, few⟩
    obtain ⟨state', ends, params⟩ := update_of_failsBefore ops.writer fails state rate
    have written : ops.getParams state'.con = if Even failures then
        ops.getParams (ops.update state.con rate) else ops.getParams state.con := params
    refine ⟨_, ⟨failures, ends⟩, fun failed => ⟨?_, setParams_mode (ends _ (Nat.lt_succ_self _))⟩⟩
    have nonzero : failures ≠ 0 := of_decide_eq_false failed
    rw [written]
    split
    · next even =>
        rcases few with zero | odd | same
        · exact absurd zero nonzero
        · exact absurd even (Nat.not_even_iff_odd.mpr odd)
        · exact same
    · rfl

/-! ### Refused rates -/

/-- The rate that `recalc_rate` reports. -/
def PllOps.recalcRate (ops : PllOps σ π) (pll : PllScale) (con : σ) (prate : ℕ) : ℕ :=
  if ops.bypassed con then prate
  else if pll.sel ≠ 0 ∧ pll.scaling ≠ 0 then pll.scaling
  else ops.rate (ops.getParams con) prate

/-- Setting a rate.  The scaling is kept or cleared where the change failed. -/
def PllOps.setRate (ops : PllOps σ π) (auto : ℕ → Option π) (keeps : Bool) (locks : ℕ → Bool)
    (depth : ℕ) (pll : RockchipClkPll σ π) (drate : ℕ) : Option (RockchipClkPll σ π × Bool) :=
  let settings := rockchipGetPllSettings auto pll.rateTable pll.sel drate
  match settings.2 with
  | .none => some ({ pll with scaling := settings.1 }, false)
  | some rate =>
      (ops.setParams locks depth pll.state rate).map fun done =>
        ({ pll with scaling := if done.2 || keeps then settings.1 else 0, state := done.1 }, done.2)

theorem rk3036SetRate_eq (locks : ℕ → Bool) :
    rockchipRk3036PllSetRate locks = rk3036Ops.setRate autoFrac true locks := by
  funext depth pll drate
  simp only [rockchipRk3036PllSetRate, PllOps.setRate, Bool.or_true, if_true]
  cases (rockchipGetPllSettings autoFrac pll.rateTable pll.sel drate).2 with
  | none => rfl
  | some rate => rfl

theorem rk3066SetRate_eq (autoTable : Rk3066Params) (locks : ℕ → Bool) :
    rockchipRk3066PllSetRate autoTable locks =
      rk3066Ops.setRate (auto3066 autoTable) false locks := by
  funext depth pll drate
  simp only [rockchipRk3066PllSetRate, PllOps.setRate, Bool.or_false]
  cases (rockchipGetPllSettings (auto3066 autoTable) pll.rateTable pll.sel drate).2 with
  | none => rfl
  | some rate => rfl

theorem rk3399SetRate_eq (locks : ℕ → Bool) :
    rockchipRk3399PllSetRate locks = rk3399Ops.setRate autoFrac false locks := by
  funext depth pll drate
  simp only [rockchipRk3399PllSetRate, PllOps.setRate, Bool.or_false]
  cases (rockchipGetPllSettings autoFrac pll.rateTable pll.sel drate).2 with
  | none => rfl
  | some rate => rfl

theorem rk3036RecalcRate_eq : rockchipRk3036PllRecalcRate = rk3036Ops.recalcRate := rfl

theorem rk3066RecalcRate_eq : rockchipRk3066PllRecalcRate = rk3066Ops.recalcRate := rfl

theorem rk3399RecalcRate_eq : rockchipRk3399PllRecalcRate = rk3399Ops.recalcRate := rfl

/-- Another rate than the refused one is reported: for a refusal without settings, by the registers
at entry; behind a failed change, by the registers it comes to, and where the scaling is kept, the
rate has stored none. -/
def HonestWhen (ops : PllOps σ π) (auto : ℕ → Option π) (keeps : Bool) (locks : ℕ → Bool)
    (pll : RockchipClkPll σ π) (drate prate : ℕ) : Prop :=
  match (rockchipGetPllSettings auto pll.rateTable pll.sel drate).2 with
  | .none => ops.recalcRate ⟨pll.sel, 0⟩ pll.state.con prate ≠ drate
  | some rate => ∀ failures, FailsBefore locks 0 failures → failures ≠ 0 →
      (keeps = true → (rockchipGetPllSettings auto pll.rateTable pll.sel drate).1 = 0) ∧
        ops.recalcRate ⟨pll.sel, 0⟩
          (if Even failures then ops.update pll.state.con rate else pll.state.con) prate ≠ drate

variable {auto : ℕ → Option π}

/-- A scaling that is stored is the request, made at a lower level than the current one. -/
theorem getPllSettings_scaling {rateTable : List (ℕ × π)} {sel : ℤ} (drate : ℕ)
    (stored : (rockchipGetPllSettings auto rateTable sel drate).1 ≠ 0) :
    (rockchipGetPllSettings auto rateTable sel drate).1 = drate ∧ 0 < sel ∧
      (rockchipGetPllSettings auto rateTable sel drate).2 =
        rateTable[sel.toNat]?.map Prod.snd := by
  unfold rockchipGetPllSettings at stored ⊢
  split at stored
  · next i found =>
      split at stored
      · next below =>
          rw [if_pos below]
          exact ⟨rfl, by omega, rfl⟩
      · exact absurd rfl stored
  · exact absurd rfl stored

/-- Registers with the same parameters and the same bypass report the same rate. -/
theorem recalcRate_congr {con con' : σ} (params : ops.getParams con = ops.getParams con')
    (bypassed : ops.bypassed con = ops.bypassed con') (pll : PllScale) (prate : ℕ) :
    ops.recalcRate pll con prate = ops.recalcRate pll con' prate := by
  rw [PllOps.recalcRate, PllOps.recalcRate, params, bypassed]

/-- The registers behind a change report what the registers with its parameters report. -/
theorem recalcRate_setParams {depth failures : ℕ} {result : PllState σ × Bool}
    (ends : ops.setParams locks depth state rate = some result)
    (params : ops.getParams result.1.con = if Even failures then
      ops.getParams (ops.update state.con rate) else ops.getParams state.con)
    (pll : PllScale) (prate : ℕ) :
    ops.recalcRate pll result.1.con prate =
      ops.recalcRate pll (if Even failures then ops.update state.con rate else state.con)
        prate := by
  have bypassed := setParams_bypassed ends
  split at params
  · next even =>
      rw [if_pos even]
      exact recalcRate_congr params (bypassed.trans (ops.bypassed_update state.con rate).symm) pll
        prate
  · next odd =>
      rw [if_neg odd]
      exact recalcRate_congr params bypassed pll prate

/-- A kept scaling is reported as the rate that was refused. -/
theorem recalcRate_of_scaled (ops : PllOps σ π) (auto : ℕ → Option π) (pll : RockchipClkPll σ π)
    (drate : ℕ) (con : σ) (prate : ℕ) (running : ops.bypassed con = false)
    (stored : (rockchipGetPllSettings auto pll.rateTable pll.sel drate).1 ≠ 0) :
    ops.recalcRate
      ⟨pll.sel, (rockchipGetPllSettings auto pll.rateTable pll.sel drate).1⟩ con prate = drate := by
  obtain ⟨same, positive, -⟩ := getPllSettings_scaling drate stored
  rw [PllOps.recalcRate, running, if_neg Bool.false_ne_true]
  exact (if_pos ⟨positive.ne', stored⟩).trans same

/-- A refusal without settings stores no scaling. -/
theorem getPllSettings_of_null (auto : ℕ → Option π) (pll : RockchipClkPll σ π) (drate : ℕ)
    (null : (rockchipGetPllSettings auto pll.rateTable pll.sel drate).2 = none) :
    (rockchipGetPllSettings auto pll.rateTable pll.sel drate).1 = 0 := by
  by_contra stored
  obtain ⟨-, positive, settings⟩ := getPllSettings_scaling drate stored
  rcases pll.sel_lt with none | inside
  · exact absurd positive (by omega)
  · rw [null, List.getElem?_eq_getElem (by omega)] at settings
    cases settings

/-- What is reported behind a failed change, with the scaling kept or cleared. -/
theorem reported_iff {keeps : Bool} {sel : ℤ} {scaling depth failures drate prate : ℕ}
    {result : PllState σ × Bool}
    (scaled : keeps = true → scaling ≠ 0 →
      ops.recalcRate ⟨sel, scaling⟩ result.1.con prate = drate)
    (ends : ops.setParams locks depth state rate = some result)
    (params : ops.getParams result.1.con = if Even failures then
      ops.getParams (ops.update state.con rate) else ops.getParams state.con) :
    ops.recalcRate ⟨sel, if keeps then scaling else 0⟩ result.1.con prate ≠ drate ↔
      (keeps = true → scaling = 0) ∧
        ops.recalcRate ⟨sel, 0⟩
          (if Even failures then ops.update state.con rate else state.con) prate ≠ drate := by
  rw [← recalcRate_setParams ends params]
  cases keeps with
  | false => simp
  | true =>
      by_cases zero : scaling = 0
      · simp [zero]
      · simp [zero, scaled rfl zero]

theorem honest_iff {keeps : Bool} (running : keeps = true → ∀ con, ops.bypassed con = false)
    (pll : RockchipClkPll σ π) (drate prate : ℕ) :
    Honest (ops.setRate auto keeps locks) ops.recalcRate pll drate prate ↔
      HonestWhen ops auto keeps locks pll drate prate := by
  unfold Honest HonestWhen PllOps.setRate
  have unscaled := getPllSettings_of_null auto pll drate
  have scaled (kept : keeps = true) (con : σ) :=
    recalcRate_of_scaled ops auto pll drate con prate (running kept con)
  generalize rockchipGetPllSettings auto pll.rateTable pll.sel drate = settings at *
  obtain ⟨scaling, found⟩ := settings
  cases found with
  | none =>
      have zero : scaling = 0 := unscaled rfl
      constructor
      · intro honest
        have reported := honest 0 _ rfl
        rwa [zero] at reported
      · intro other depth result refused
        cases refused
        rwa [zero]
  | some rate =>
      constructor
      · intro honest failures fails nonzero
        obtain ⟨state', ends, params⟩ :=
          update_of_failsBefore ops.writer fails pll.state rate
        have ended : ops.setParams locks (failures + 1) pll.state rate = some (state', false) := by
          rw [← decide_eq_false nonzero]
          exact ends _ (Nat.lt_succ_self failures)
        apply (reported_iff (fun kept => scaled kept state'.con) ended params).mp
        exact honest (failures + 1)
          { pll with scaling := if keeps then scaling else 0, state := state' }
          (by simp only [ended, Option.map_some, Bool.false_or])
      · intro condition depth result refused
        obtain ⟨done, ended, same⟩ := Option.map_eq_some_iff.mp refused
        obtain ⟨failures, fails, outcome, params⟩ := exists_failsBefore_of_ends ended
        obtain ⟨state', success⟩ := done
        cases same
        have nonzero : failures ≠ 0 := of_decide_eq_false outcome.symm
        exact (reported_iff (fun kept => scaled kept state'.con) ended params).mpr
          (condition failures fails nonzero)

/-- A failed change is undone: the parameters and the mux are restored, and the refused rate is not
reported. -/
structure Undone (setParams : ℕ → PllState σ → π → Option (PllState σ × Bool)) (getParams : σ → π)
    (setRate : ℕ → RockchipClkPll σ π → ℕ → Option (RockchipClkPll σ π × Bool))
    (recalcRate : PllScale → σ → ℕ → ℕ) (pll : RockchipClkPll σ π) (rate : π) (drate prate : ℕ) :
    Prop where
  restores : Restores setParams getParams pll.state rate
  honest : Honest setRate recalcRate pll drate prate

theorem undone_of {keeps : Bool} (running : keeps = true → ∀ con, ops.bypassed con = false)
    (pll : RockchipClkPll σ π) (rate : π) (drate prate : ℕ) :
    Undone (ops.setParams locks) ops.getParams (ops.setRate auto keeps locks) ops.recalcRate pll
        rate drate prate ↔
      RestoresWhen ops locks pll.state rate ∧ HonestWhen ops auto keeps locks pll drate prate := by
  rw [← restores_iff, ← honest_iff running]
  exact ⟨fun undone => ⟨undone.restores, undone.honest⟩, fun both => ⟨both.1, both.2⟩⟩

/-- Exactly when a failed change is undone, for each kind of PLL.  Only the PLL of RK3036 keeps its
scaling behind a failure. -/
theorem undone_iff (locks : ℕ → Bool) (autoTable : Rk3066Params) (drate prate : ℕ) :
    (∀ pll rate,
      Undone (rockchipRk3036PllSetParams locks) rockchipRk3036PllGetParams
          (rockchipRk3036PllSetRate locks) rockchipRk3036PllRecalcRate pll rate drate prate ↔
        RestoresWhen rk3036Ops locks pll.state rate ∧
          HonestWhen rk3036Ops autoFrac true locks pll drate prate) ∧
    (∀ pll rate,
      Undone (rockchipRk3066PllSetParams locks) rockchipRk3066PllGetParams
          (rockchipRk3066PllSetRate autoTable locks) rockchipRk3066PllRecalcRate pll rate drate
          prate ↔
        RestoresWhen rk3066Ops locks pll.state rate ∧
          HonestWhen rk3066Ops (auto3066 autoTable) false locks pll drate prate) ∧
    (∀ pll rate,
      Undone (rockchipRk3399PllSetParams locks) rockchipRk3399PllGetParams
          (rockchipRk3399PllSetRate locks) rockchipRk3399PllRecalcRate pll rate drate prate ↔
        RestoresWhen rk3399Ops locks pll.state rate ∧
          HonestWhen rk3399Ops autoFrac false locks pll drate prate) := by
  refine ⟨fun pll rate => ?_, fun pll rate => ?_, fun pll rate => ?_⟩
  · rw [rk3036SetRate_eq, rk3036RecalcRate_eq]
    exact undone_of (fun _ _ => rfl) pll rate drate prate
  · rw [rk3066SetRate_eq, rk3066RecalcRate_eq]
    exact undone_of (fun kept => absurd kept Bool.false_ne_true) pll rate drate prate
  · rw [rk3399SetRate_eq, rk3399RecalcRate_eq]
    exact undone_of (fun kept => absurd kept Bool.false_ne_true) pll rate drate prate

/-! ### Two failures -/

/-- A PLL at 816 MHz, in its normal mode. -/
def pll816 : RockchipClkPll Rk3036Con Rk3036Params where
  sel := 0
  scaling := 0
  rateTable := []
  state := { con := ⟨0x1022, 0x1041, 0⟩, mode := pllModeNorm }
  sel_lt := Or.inl le_rfl

/-- The settings of 1200 MHz. -/
def rate1200 : Rk3036Params :=
  { fbdiv := 50, postdiv1 := 1, refdiv := 1, postdiv2 := 1, dsmpd := 1, frac := 0 }

/-- The third wait locks. -/
def thirdLock (wait : ℕ) : Bool := decide (2 ≤ wait)

/-- After two failures an error is returned with the refused settings in the registers. -/
theorem refused_settings_kept :
    (rockchipRk3036PllSetParams thirdLock 3 pll816.state rate1200).map
        (fun done => (rockchipRk3036PllGetParams done.1.con, done.2)) = some (rate1200, false) ∧
      rockchipRk3036PllGetParams pll816.state.con ≠ rate1200 ∧
      ¬Undone (rockchipRk3036PllSetParams thirdLock) rockchipRk3036PllGetParams
        (rockchipRk3036PllSetRate thirdLock) rockchipRk3036PllRecalcRate pll816 rate1200 1200000000
        24000000 := by
  have refused : (rockchipRk3036PllSetParams thirdLock 3 pll816.state rate1200).map
      (fun done => (rockchipRk3036PllGetParams done.1.con, done.2)) = some (rate1200, false) := by
    decide
  have other : rockchipRk3036PllGetParams pll816.state.con ≠ rate1200 := by decide
  refine ⟨refused, other, fun undone => ?_⟩
  obtain ⟨result, ⟨enough, ends⟩, restored⟩ := undone.restores
  obtain ⟨done, ended, same⟩ := Option.map_eq_some_iff.mp refused
  have shallow : update rk3036Ops.writer thirdLock 3 0 pll816.state rate1200 = some done := ended
  have deep := update_mono (Nat.le_add_left 3 enough) shallow
  have both := (ends (enough + 3) (by omega)).symm.trans deep
  cases Option.some.inj both
  have failed := restored (congrArg Prod.snd same)
  exact other (failed.1.symm.trans (congrArg Prod.fst same))

end Clk
end RockchipSoc
