import Mathlib.Data.Nat.GCD.Basic
import Mathlib.Data.Prod.Lex
import RockchipSoc.Clk.PllAuto
import RockchipSoc.Foundation.BestChoice

/-!
# Automatic settings of the PLL of RK3066

The ratio of the two rates is extended step by step, and at each step every post divider is tried.
Of the settings within the limits the one with the largest post divider is kept, and of these the
one with the smallest reference divider.
-/

namespace RockchipSoc
namespace Clk

open HiwordField KeepBest

/-- `PLL_FREF_MIN`. -/
def pllFrefMin : ℕ := 269 * 1000

/-- `PLL_FREF_MAX`. -/
def pllFrefMax : ℕ := 2200 * mhz

/-- `PLL_FVCO_MIN`. -/
def pllFvcoMin : ℕ := 440 * mhz

/-- `PLL_FVCO_MAX`. -/
def pllFvcoMax : ℕ := 2200 * mhz

/-- `PLL_FOUT_MIN`. -/
def pllFoutMin : ℕ := 27500 * 1000

/-- `PLL_FOUT_MAX`. -/
def pllFoutMax : ℕ := 2200 * mhz

/-- `PLL_NF_MAX`. -/
def pllNfMax : ℕ := 4096

/-- `PLL_NR_MAX`. -/
def pllNrMax : ℕ := 64

/-- `PLL_NO_MAX`. -/
def pllNoMax : ℕ := 16

/-- The best setting so far. -/
@[ext]
structure PllOut where
  nr : ℕ
  nf : ℕ
  no : ℕ
  deriving DecidableEq

/-- One post divider of one step of the search. -/
def autoStep (finHz nf nonr : ℕ) (out : PllOut) (no : ℕ) : PllOut :=
  if ¬(no = 1 ∨ no % 2 = 0) then out
  else if nonr % no ≠ 0 then out
  else
    let nr := nonr / no
    if nr > pllNrMax then out
    else
      let fref := finHz / nr
      if fref < pllFrefMin ∨ fref > pllFrefMax then out
      else
        let fvco := fref * nf
        if fvco < pllFvcoMin ∨ fvco > pllFvcoMax then out
        else
          let fout := fvco / no
          if fout < pllFoutMin ∨ fout > pllFoutMax then out
          else if no > out.no ∨ (no = out.no ∧ nr < out.nr) then ⟨nr, nf, no⟩
          else out

/-- The search from a step on, for that many passes at most. -/
def autoSearch (finHz numerator denominator : ℕ) : ℕ → ℕ → PllOut → Option PllOut
  | 0, _, _ => none
  | passes + 1, n, out =>
      let nf := numerator * n % 2 ^ 32
      let nonr := denominator * n % 2 ^ 32
      if nf > pllNfMax ∨ nonr > pllNoMax * pllNrMax then some out
      else
        autoSearch finHz numerator denominator passes (n + 1)
          ((List.range' 1 pllNoMax).foldl (autoStep finHz nf nonr) out)

/-- `rockchip_rk3066_pll_clk_set_by_auto`, for that many passes at most.  `nb` is what the shared
table holds already. -/
def rockchipRk3066PllClkSetByAuto (passes : ℕ) (autoTable : Rk3066Params) (finHz foutHz : ℕ) :
    Option (Option Rk3066Params) :=
  if finHz = 0 ∨ foutHz = 0 ∨ foutHz = finHz then some none
  else
    let clkGcd := finHz.gcd foutHz
    if clkGcd = 0 then some none
    else do
      let out ← autoSearch finHz (foutHz / clkGcd % 2 ^ 32) (finHz / clkGcd % 2 ^ 32) passes 1
        ⟨pllNrMax + 1, 0, 0⟩
      if out.nr ≤ pllNrMax ∧ out.no > 0 then
        some (some { autoTable with nr := out.nr, nf := out.nf, no := out.no })
      else some none

/-! ### One step -/

/-- The windows of a setting, as the search tests them. -/
structure Windows (finHz : ℕ) (out : PllOut) : Prop where
  no : out.no = 1 ∨ out.no % 2 = 0
  nr : out.nr ≤ pllNrMax
  fref : pllFrefMin ≤ finHz / out.nr ∧ finHz / out.nr ≤ pllFrefMax
  fvco : pllFvcoMin ≤ finHz / out.nr * out.nf ∧ finHz / out.nr * out.nf ≤ pllFvcoMax
  fout : pllFoutMin ≤ finHz / out.nr * out.nf / out.no ∧
    finHz / out.nr * out.nf / out.no ≤ pllFoutMax

/-- A larger post divider is better, and with equal ones a smaller reference divider. -/
def outKey (out : PllOut) : ℕ ×ₗ ℕᵒᵈ := toLex (out.no, OrderDual.toDual out.nr)

theorem outKey_lt {out out' : PllOut} :
    outKey out < outKey out' ↔ out'.no > out.no ∨ (out'.no = out.no ∧ out'.nr < out.nr) := by
  rw [outKey, outKey, Prod.Lex.toLex_lt_toLex]
  exact or_congr Iff.rfl (and_congr_left' eq_comm)

/-- What one post divider of one step offers. -/
def offers (finHz nf nonr no : ℕ) : Set PllOut :=
  {out | out = ⟨nonr / no, nf, no⟩ ∧ nonr % no = 0 ∧ Windows finHz out}

theorem autoStep_of_offered {finHz nf nonr no : ℕ} (out : PllOut) (divides : nonr % no = 0)
    (windows : Windows finHz ⟨nonr / no, nf, no⟩) :
    autoStep finHz nf nonr out no =
      if outKey out < outKey ⟨nonr / no, nf, no⟩ then ⟨nonr / no, nf, no⟩ else out := by
  have noneLow (value low high : ℕ) (inside : low ≤ value ∧ value ≤ high) :
      ¬(value < low ∨ value > high) := by omega
  simp only [autoStep, windows.no, not_true_eq_false, if_false, divides, ne_eq,
    if_neg (Nat.not_lt.mpr windows.nr), if_neg (noneLow _ _ _ windows.fref),
    if_neg (noneLow _ _ _ windows.fvco), if_neg (noneLow _ _ _ windows.fout)]
  split
  · next better => rw [if_pos (outKey_lt.mpr better)]
  · next worse => rw [if_neg (mt outKey_lt.mp worse)]

theorem autoStep_of_refused {finHz nf nonr no : ℕ} (out : PllOut)
    (refused : ¬(nonr % no = 0 ∧ Windows finHz ⟨nonr / no, nf, no⟩)) :
    autoStep finHz nf nonr out no = out := by
  by_contra changed
  unfold autoStep at changed
  split at changed
  · exact changed rfl
  · next parity =>
      split at changed
      · exact changed rfl
      · next divides =>
          simp only at changed
          split at changed
          · exact changed rfl
          · next nr =>
              split at changed
              · exact changed rfl
              · next fref =>
                  split at changed
                  · exact changed rfl
                  · next fvco =>
                      split at changed
                      · exact changed rfl
                      · next fout =>
                          exact refused ⟨not_not.mp divides, not_not.mp parity, Nat.not_lt.mp nr,
                            by simpa using fref, by simpa using fvco, by simpa using fout⟩

/-- One post divider of one step improves by what it offers. -/
theorem improves_autoStep (finHz nf nonr : ℕ) (out : PllOut) (no : ℕ) :
    Improves outKey (offers finHz nf nonr no) out (autoStep finHz nf nonr out no) := by
  by_cases offered : nonr % no = 0 ∧ Windows finHz ⟨nonr / no, nf, no⟩
  · have single : offers finHz nf nonr no = {⟨nonr / no, nf, no⟩} := by
      ext out'
      exact ⟨fun offer => offer.1, fun same => ⟨same, offered.1, same ▸ offered.2⟩⟩
    rw [single, autoStep_of_offered out offered.1 offered.2]
    exact Improves.keep outKey out _
  · have nothing : offers finHz nf nonr no = ∅ := by
      ext out'
      exact ⟨fun offer => offered ⟨offer.2.1, offer.1 ▸ offer.2.2⟩, fun absurd => absurd.elim⟩
    rw [nothing, autoStep_of_refused out offered]
    exact Improves.refl outKey out

/-! ### The search -/

variable {finHz foutHz numerator denominator : ℕ}

/-- What the steps from `n` on offer, before the ratio leaves the limits. -/
def offersFrom (finHz numerator denominator n : ℕ) : Set PllOut :=
  {out | ∃ step ≥ n, numerator * step ≤ pllNfMax ∧ denominator * step ≤ pllNoMax * pllNrMax ∧
    ∃ no ∈ List.range' 1 pllNoMax, out ∈ offers finHz (numerator * step) (denominator * step) no}

/-- A step that the search reaches does not wrap. -/
def Unwrapped (numerator denominator n : ℕ) : Prop :=
  numerator * n < 2 ^ 32 ∧ denominator * n < 2 ^ 32

theorem Unwrapped.next {n : ℕ} (positive : 1 ≤ n)
    (within : numerator * n ≤ pllNfMax ∧ denominator * n ≤ pllNoMax * pllNrMax) :
    Unwrapped numerator denominator (n + 1) := by
  have first : numerator ≤ numerator * n := Nat.le_mul_of_pos_right numerator positive
  have second : denominator ≤ denominator * n := Nat.le_mul_of_pos_right denominator positive
  simp only [Unwrapped, Nat.mul_add, Nat.mul_one, pllNfMax, pllNoMax, pllNrMax] at *
  omega

/-- The search improves by what its steps offer. -/
theorem improves_autoSearch {passes n : ℕ} {out result : PllOut} (positive : 1 ≤ n)
    (unwrapped : Unwrapped numerator denominator n)
    (found : autoSearch finHz numerator denominator passes n out = some result) :
    Improves outKey (offersFrom finHz numerator denominator n) out result := by
  induction passes generalizing n out with
  | zero => cases found
  | succ passes ih =>
      simp only [autoSearch, Nat.mod_eq_of_lt unwrapped.1, Nat.mod_eq_of_lt unwrapped.2] at found
      split at found
      · next beyond =>
          cases found
          have nothing : offersFrom finHz numerator denominator n = ∅ := by
            ext out'
            refine ⟨?_, fun absurd => absurd.elim⟩
            rintro ⟨step, later, nf_le, nonr_le, -⟩
            have nf : numerator * n ≤ numerator * step := Nat.mul_le_mul_left numerator later
            have nonr : denominator * n ≤ denominator * step :=
              Nat.mul_le_mul_left denominator later
            omega
          rw [nothing]
          exact Improves.refl outKey result
      · next within =>
          have within' : numerator * n ≤ pllNfMax ∧ denominator * n ≤ pllNoMax * pllNrMax := by
            omega
          have pass := Improves.foldl (improves_autoStep finHz (numerator * n) (denominator * n))
            (List.range' 1 pllNoMax) out
          have rest := ih (Nat.le_add_left 1 n) (Unwrapped.next positive within') found
          have both : offersFrom finHz numerator denominator n =
              {out | ∃ no ∈ List.range' 1 pllNoMax,
                out ∈ offers finHz (numerator * n) (denominator * n) no} ∪
              offersFrom finHz numerator denominator (n + 1) := by
            ext out'
            constructor
            · rintro ⟨step, later, limits⟩
              rcases Nat.eq_or_lt_of_le later with same | after
              · subst same
                exact Or.inl limits.2.2
              · exact Or.inr ⟨step, after, limits⟩
            · rintro (now | ⟨step, after, limits⟩)
              · exact ⟨n, le_rfl, within'.1, within'.2, now⟩
              · exact ⟨step, (Nat.le_succ n).trans after, limits⟩
          rw [both]
          exact pass.trans rest

/-- As many passes as the largest feedback divider, and one more, are enough. -/
theorem autoSearch_terminates (finHz : ℕ) (positive : 1 ≤ numerator) (passes : ℕ) {n : ℕ}
    (out : PllOut)
    (reached : 1 ≤ n ∧ n ≤ pllNfMax + 1) (unwrapped : Unwrapped numerator denominator n)
    (enough : pllNfMax + 1 < passes + n) :
    ∃ result, ∀ more ≥ passes,
      autoSearch finHz numerator denominator more n out = some result := by
  induction passes generalizing n out with
  | zero => omega
  | succ passes ih =>
      by_cases beyond : numerator * n > pllNfMax ∨ denominator * n > pllNoMax * pllNrMax
      · refine ⟨out, fun more large => ?_⟩
        obtain ⟨more, rfl⟩ := Nat.exists_eq_succ_of_ne_zero (Nat.ne_zero_of_lt large)
        simp only [autoSearch, Nat.mod_eq_of_lt unwrapped.1,
          Nat.mod_eq_of_lt unwrapped.2, if_pos beyond]
      · have within : numerator * n ≤ pllNfMax ∧ denominator * n ≤ pllNoMax * pllNrMax := by
          omega
        have small : n ≤ pllNfMax := (Nat.le_mul_of_pos_left n positive).trans within.1
        obtain ⟨result, found⟩ := ih
          ((List.range' 1 pllNoMax).foldl (autoStep finHz (numerator * n) (denominator * n)) out)
          ⟨Nat.le_add_left 1 n, Nat.succ_le_succ small⟩ (Unwrapped.next reached.1 within)
          (by omega)
        refine ⟨result, fun more large => ?_⟩
        obtain ⟨more, rfl⟩ := Nat.exists_eq_succ_of_ne_zero (Nat.ne_zero_of_lt large)
        simp only [autoSearch, Nat.mod_eq_of_lt unwrapped.1,
          Nat.mod_eq_of_lt unwrapped.2, if_neg beyond]
        exact found more (Nat.le_of_succ_le_succ large)

/-! ### Settings -/

/-- A setting within the limits that makes the rate exactly. -/
structure Setting (finHz foutHz : ℕ) (out : PllOut) : Prop extends Windows finHz out where
  nf : out.nf ≤ pllNfMax
  no_le : out.no ≤ pllNoMax
  makes : finHz * out.nf = foutHz * (out.nr * out.no)

/-- The windows leave no divider at zero. -/
theorem Windows.pos {out : PllOut} (windows : Windows finHz out) :
    0 < out.nr ∧ 0 < out.nf ∧ 0 < out.no := by
  have fref := windows.fref.1
  have fvco := windows.fvco.1
  have fout := windows.fout.1
  refine ⟨Nat.pos_of_ne_zero fun zero => ?_, Nat.pos_of_ne_zero fun zero => ?_,
    Nat.pos_of_ne_zero fun zero => ?_⟩
  · rw [zero, Nat.div_zero] at fref
    exact absurd fref (by decide)
  · rw [zero, Nat.mul_zero] at fvco
    exact absurd fvco (by decide)
  · rw [zero, Nat.div_zero] at fout
    exact absurd fout (by decide)

/-- The steps of the search offer the settings that make the rate. -/
theorem mem_offersFrom_iff (foutHz : ℕ) (finPos : 0 < finHz) (out : PllOut) :
    out ∈ offersFrom finHz (foutHz / finHz.gcd foutHz) (finHz / finHz.gcd foutHz) 1 ↔
      Setting finHz foutHz out := by
  generalize common_eq : finHz.gcd foutHz = common
  have positive : 0 < common := common_eq ▸ Nat.gcd_pos_of_pos_left foutHz finPos
  have finSplit : common * (finHz / common) = finHz :=
    Nat.mul_div_cancel' (common_eq ▸ Nat.gcd_dvd_left _ _)
  have foutSplit : common * (foutHz / common) = foutHz :=
    Nat.mul_div_cancel' (common_eq ▸ Nat.gcd_dvd_right _ _)
  have coprime : (finHz / common).Coprime (foutHz / common) :=
    common_eq ▸ Nat.coprime_div_gcd_div_gcd (common_eq ▸ positive)
  generalize finHz / common = denominator at *
  generalize foutHz / common = numerator at *
  constructor
  · rintro ⟨step, _, nf_le, nonr_le, no, listed, rfl, divides, windows⟩
    have no_le := (List.mem_range'_1.mp listed).2
    have split : denominator * step / no * no = denominator * step :=
      Nat.div_mul_cancel (Nat.dvd_of_mod_eq_zero divides)
    refine { windows with nf := nf_le, no_le := ?_, makes := ?_ }
    · simp only [pllNoMax] at *
      omega
    · show finHz * (numerator * step) = foutHz * (denominator * step / no * no)
      rw [split, ← finSplit, ← foutSplit]
      ring
  · intro setting
    obtain ⟨nr_pos, nf_pos, no_pos⟩ := setting.pos
    have reduced : denominator * out.nf = numerator * (out.nr * out.no) := by
      apply Nat.eq_of_mul_eq_mul_left positive
      rw [← Nat.mul_assoc, finSplit, ← Nat.mul_assoc, foutSplit]
      exact setting.makes
    obtain ⟨step, nf_eq⟩ : numerator ∣ out.nf :=
      coprime.symm.dvd_of_dvd_mul_left (Dvd.intro _ reduced.symm)
    have numerator_pos : 0 < numerator := by
      apply Nat.pos_of_ne_zero
      rintro rfl
      rw [Nat.zero_mul] at nf_eq
      exact nf_pos.ne' nf_eq
    have step_pos : 0 < step := by
      apply Nat.pos_of_ne_zero
      rintro rfl
      exact nf_pos.ne' nf_eq
    have nonr_eq : out.nr * out.no = denominator * step := by
      apply Nat.eq_of_mul_eq_mul_left numerator_pos
      rw [← reduced, nf_eq]
      ring
    have quotient : denominator * step / out.no = out.nr := by
      rw [← nonr_eq, Nat.mul_div_cancel _ no_pos]
    refine ⟨step, step_pos, nf_eq ▸ setting.nf, ?_, out.no,
      List.mem_range'_1.mpr ⟨no_pos, Nat.lt_add_one_of_le setting.no_le |>.trans_eq ?_⟩, ?_, ?_,
      setting.toWindows⟩
    · rw [← nonr_eq, Nat.mul_comm]
      exact Nat.mul_le_mul setting.no_le setting.nr
    · rfl
    · exact PllOut.ext quotient.symm nf_eq rfl
    · rw [← nonr_eq, Nat.mul_mod_left]

/-- The best setting: the largest post divider, and with it the smallest reference divider. -/
structure BestSetting (finHz foutHz : ℕ) (out : PllOut) : Prop extends
    Setting finHz foutHz out where
  best : ∀ other, Setting finHz foutHz other →
    other.no < out.no ∨ (other.no = out.no ∧ out.nr ≤ other.nr)

/-- The members that the search decides. -/
def Rk3066Params.out (params : Rk3066Params) : PllOut := ⟨params.nr, params.nf, params.no⟩

/-- The search ends, and it finds the best setting where there is one. -/
theorem autoSearch_spec (finPos : 0 < finHz) (foutPos : 0 < foutHz) (finLt : finHz < 2 ^ 32)
    (foutLt : foutHz < 2 ^ 32) :
    ∃ result, (∀ passes > pllNfMax,
        autoSearch finHz (foutHz / finHz.gcd foutHz % 2 ^ 32) (finHz / finHz.gcd foutHz % 2 ^ 32)
          passes 1 ⟨pllNrMax + 1, 0, 0⟩ = some result) ∧
      ((∃ out, Setting finHz foutHz out) → BestSetting finHz foutHz result) ∧
      ((¬∃ out, Setting finHz foutHz out) → result = ⟨pllNrMax + 1, 0, 0⟩) := by
  have common_pos : 0 < finHz.gcd foutHz := Nat.gcd_pos_of_pos_left foutHz finPos
  have numerator_lt : foutHz / finHz.gcd foutHz < 2 ^ 32 := (Nat.div_le_self _ _).trans_lt foutLt
  have denominator_lt : finHz / finHz.gcd foutHz < 2 ^ 32 := (Nat.div_le_self _ _).trans_lt finLt
  have numerator_pos : 1 ≤ foutHz / finHz.gcd foutHz :=
    Nat.div_pos (Nat.le_of_dvd foutPos (Nat.gcd_dvd_right _ _)) common_pos
  have unwrapped : Unwrapped (foutHz / finHz.gcd foutHz) (finHz / finHz.gcd foutHz) 1 := by
    rw [Unwrapped, Nat.mul_one, Nat.mul_one]
    exact ⟨numerator_lt, denominator_lt⟩
  rw [Nat.mod_eq_of_lt numerator_lt, Nat.mod_eq_of_lt denominator_lt]
  obtain ⟨result, ends⟩ := autoSearch_terminates finHz numerator_pos (pllNfMax + 1)
    ⟨pllNrMax + 1, 0, 0⟩ (by decide) unwrapped (by decide)
  have improves := improves_autoSearch (Nat.le_refl 1) unwrapped (ends _ le_rfl)
  have offered := mem_offersFrom_iff foutHz finPos
  refine ⟨result, ends, ?_, ?_⟩
  · rintro ⟨out, setting⟩
    have better : outKey ⟨pllNrMax + 1, 0, 0⟩ < outKey out := outKey_lt.mpr (Or.inl setting.pos.2.2)
    have found := improves.mem_of_lt ((offered out).mpr setting) better
    refine { (offered result).mp found with best := fun other setting' => ?_ }
    have covered := improves.covers other ((offered other).mpr setting')
    rw [← not_lt, outKey_lt] at covered
    omega
  · intro nothing
    rcases improves.origin with kept | found
    · exact kept
    · exact absurd ⟨result, (offered result).mp found⟩ nothing

/-! ### The automatic settings -/

variable {autoTable : Rk3066Params} {sel : ℤ} {con : Rk3066Con}

/-- The search ends.  It returns nothing exactly where there is no setting, and otherwise the best
one, in fields that hold it, and the registers read back as the request. -/
def AutoExact (autoTable : Rk3066Params) (sel : ℤ) (con : Rk3066Con) (finHz foutHz : ℕ) : Prop :=
  ∃ result,
    (∀ passes > pllNfMax,
      rockchipRk3066PllClkSetByAuto passes autoTable finHz foutHz = some result) ∧
    (result = none ↔ ¬∃ out, Setting finHz foutHz out) ∧
    ∀ rate, result = some rate →
      BestSetting finHz foutHz rate.out ∧ rate.Fits ∧
        rockchipRk3066PllRecalcRate ⟨sel, 0⟩ (rk3066PllUpdate con rate) finHz = foutHz

theorem Setting.rates_pos {out : PllOut} (setting : Setting finHz foutHz out) :
    finHz ≠ 0 ∧ foutHz ≠ 0 := by
  have nf_pos := setting.pos.2.1
  have finNe : finHz ≠ 0 := by
    rintro rfl
    have fref := setting.fref.1
    rw [Nat.zero_div] at fref
    exact absurd fref (by decide)
  refine ⟨finNe, ?_⟩
  rintro rfl
  have makes := setting.makes
  rw [Nat.zero_mul] at makes
  exact (Nat.mul_pos (Nat.pos_of_ne_zero finNe) nf_pos).ne' makes

/-- What the function returns: nothing for rates it refuses, else what the search found, with the
bandwidth left in the table. -/
theorem setByAuto3066_spec (autoTable : Rk3066Params) (finLt : finHz < 2 ^ 32)
    (foutLt : foutHz < 2 ^ 32) :
    ∃ result, (∀ passes > pllNfMax,
        rockchipRk3066PllClkSetByAuto passes autoTable finHz foutHz = some result) ∧
      ((∃ out, Setting finHz foutHz out) → finHz ≠ foutHz → ∃ out, BestSetting finHz foutHz out ∧
        result = some { autoTable with nr := out.nr, nf := out.nf, no := out.no }) ∧
      ((¬∃ out, Setting finHz foutHz out) ∨ finHz = foutHz → result = none) := by
  by_cases refused : finHz = 0 ∨ foutHz = 0 ∨ foutHz = finHz
  · refine ⟨none, fun passes _ => if_pos refused, ?_, fun _ => rfl⟩
    rintro ⟨out, setting⟩ other
    obtain ⟨finNe, foutNe⟩ := setting.rates_pos
    rcases refused with zero | zero | same
    · exact absurd zero finNe
    · exact absurd zero foutNe
    · exact absurd same.symm other
  · obtain ⟨finNe, foutNe, other⟩ : finHz ≠ 0 ∧ foutHz ≠ 0 ∧ foutHz ≠ finHz := by
      simpa only [not_or] using refused
    have common_ne : finHz.gcd foutHz ≠ 0 := Nat.gcd_ne_zero_left finNe
    obtain ⟨out, ends, best, nothing⟩ := autoSearch_spec (Nat.pos_of_ne_zero finNe)
      (Nat.pos_of_ne_zero foutNe) finLt foutLt
    have returned (passes : ℕ) (enough : passes > pllNfMax) :
        rockchipRk3066PllClkSetByAuto passes autoTable finHz foutHz =
          if out.nr ≤ pllNrMax ∧ out.no > 0 then
            some (some { autoTable with nr := out.nr, nf := out.nf, no := out.no })
          else some none := by
      simp only [rockchipRk3066PllClkSetByAuto, if_neg refused, if_neg common_ne,
        ends passes enough, Option.bind_eq_bind, Option.bind_some]
    by_cases exists_setting : ∃ out, Setting finHz foutHz out
    · have found := best exists_setting
      refine ⟨some { autoTable with nr := out.nr, nf := out.nf, no := out.no },
        fun passes enough => ?_, fun _ _ => ⟨out, found, rfl⟩, ?_⟩
      · rw [returned passes enough, if_pos ⟨found.nr, found.pos.2.2⟩]
      · rintro (missing | same)
        · exact absurd exists_setting missing
        · exact absurd same.symm other
    · have start := nothing exists_setting
      refine ⟨none, fun passes enough => ?_, fun exists_setting' => ?_, fun _ => rfl⟩
      · rw [returned passes enough, start]
        exact if_neg fun within => absurd within.2 (by decide)
      · exact absurd exists_setting' exists_setting

/-- Setting the parameters leaves the bypass as it is. -/
theorem rk3066Bypassed_update (con : Rk3066Con) (rate : Rk3066Params) :
    rk3066Bypassed (rk3066PllUpdate con rate) = rk3066Bypassed con := by
  have enters : (hiwordUpdate (1 <<< 5) (1 <<< 5) 0).getLsbD (16 + 0) = false := by
    decide
  have leaves : (hiwordUpdate 0 (1 <<< 5) 0).getLsbD (16 + 0) = false := by decide
  rw [rk3066Bypassed, rk3066PllUpdate, getLsbD_hiwordWrite _ _ (by decide), leaves,
    getLsbD_hiwordWrite _ _ (by decide), enters]
  rfl

/-- The registers read a setting back as its rate, unless the PLL is bypassed. -/
theorem rk3066_recalc_update {rate : Rk3066Params} (fits : rate.Fits)
    (setting : Setting finHz foutHz rate.out) (finLt : finHz < 2 ^ 32) :
    rockchipRk3066PllRecalcRate ⟨sel, 0⟩ (rk3066PllUpdate con rate) finHz =
      if rk3066Bypassed con then finHz else foutHz := by
  rw [rockchipRk3066PllRecalcRate, rk3066Bypassed_update]
  split
  · rfl
  · obtain ⟨nr_pos, -, no_pos⟩ := setting.pos
    have narrow : finHz * rate.nf < 2 ^ 64 := by
      have product : finHz * rate.nf ≤ 2 ^ 32 * 2 ^ 13 := Nat.mul_le_mul finLt.le fits.nf.2
      exact product.trans_lt (by decide)
    have makes : finHz * rate.nf = foutHz * (rate.nr * rate.no) := setting.makes
    have positive : 0 < rate.nr * rate.no := Nat.mul_pos nr_pos no_pos
    rw [if_neg fun scaled => scaled.2 rfl, rk3066_getParams_update con fits, rk3066PllRate,
      Nat.mod_eq_of_lt narrow, makes, Nat.div_div_eq_div_mul,
      Nat.mul_div_cancel _ positive]

/-- The search is exact and best where there is no setting, and where there is one for another rate
than the oscillator's, the bandwidth in the table fits its field and the PLL is not bypassed. -/
theorem autoExact_iff (finLt : finHz < 2 ^ 32) (foutLt : foutHz < 2 ^ 32) :
    AutoExact autoTable sel con finHz foutHz ↔
      ((∃ out, Setting finHz foutHz out) →
        finHz ≠ foutHz ∧ (1 ≤ autoTable.nb ∧ autoTable.nb ≤ 2 ^ 12) ∧
          rk3066Bypassed con = false) := by
  obtain ⟨result, ends, found, nothing⟩ := setByAuto3066_spec autoTable finLt foutLt
  constructor
  · rintro ⟨result', ends', none_iff, exact_of⟩ exists_setting
    have same : result' = result := by
      have both := (ends' _ (Nat.lt_succ_self _)).symm.trans (ends _ (Nat.lt_succ_self _))
      exact Option.some.inj both
    subst same
    have returned : result' ≠ none := fun null => none_iff.mp null exists_setting
    have other : finHz ≠ foutHz := fun same => returned (nothing (Or.inr same))
    obtain ⟨out, best, rate_eq⟩ := found exists_setting other
    obtain ⟨-, fits, read⟩ := exact_of _ rate_eq
    rw [rk3066_recalc_update fits best.toSetting finLt] at read
    refine ⟨other, fits.nb, Bool.eq_false_iff.mpr fun bypassed => other ?_⟩
    rwa [if_pos bypassed] at read
  · intro condition
    by_cases exists_setting : ∃ out, Setting finHz foutHz out
    · obtain ⟨other, nb, running⟩ := condition exists_setting
      obtain ⟨out, best, rate_eq⟩ := found exists_setting other
      refine ⟨result, ends, ⟨fun null => ?_, fun missing => absurd exists_setting missing⟩, ?_⟩
      · rw [rate_eq] at null
        cases null
      · intro rate same
        rw [rate_eq] at same
        cases same
        obtain ⟨nr_pos, nf_pos, no_pos⟩ := best.pos
        have fits : Rk3066Params.Fits { autoTable with nr := out.nr, nf := out.nf, no := out.no } :=
          { nr := ⟨nr_pos, best.nr⟩, nf := ⟨nf_pos, best.nf.trans (by decide)⟩,
            no := ⟨no_pos, best.no_le⟩, nb := nb }
        refine ⟨best, fits, ?_⟩
        rw [rk3066_recalc_update fits best.toSetting finLt, running]
        rfl
    · have null := nothing (Or.inl exists_setting)
      refine ⟨result, ends, ⟨fun _ => exists_setting, fun _ => null⟩, fun rate same => ?_⟩
      rw [null] at same
      cases same

/-- The table at the start of the kernel. -/
def zeroTable : Rk3066Params := ⟨0, 0, 0, 0⟩

/-- A PLL in its mode of operation, with all dividers at one. -/
def rk3066Idle : Rk3066Con := ⟨0, 0, 0, 0⟩

/-- The bandwidth that goes with a feedback divider of 25. -/
theorem autoExact_600mhz :
    AutoExact { zeroTable with nb := 12 } 0 rk3066Idle 24000000 600000000 :=
  (autoExact_iff (by decide) (by decide)).mpr fun _ => by decide

theorem setting_600mhz : Setting 24000000 600000000 ⟨1, 25, 1⟩ :=
  ⟨⟨by decide, by decide, by decide, by decide, by decide⟩, by decide, by decide, by decide⟩

/-- With the table untouched, the bandwidth is handed out as zero, and its whole register is
filled. -/
theorem auto_600mhz_bandwidth :
    ¬AutoExact zeroTable 0 rk3066Idle 24000000 600000000 ∧
      ∃ rate, (∀ passes > pllNfMax,
          rockchipRk3066PllClkSetByAuto passes zeroTable 24000000 600000000 = some (some rate)) ∧
        rate.nb = 0 ∧ (rk3066PllUpdate rk3066Idle rate).con2 = 0xffff := by
  obtain ⟨result, ends, found, -⟩ :=
    setByAuto3066_spec zeroTable (by decide : 24000000 < 2 ^ 32) (by decide : 600000000 < 2 ^ 32)
  obtain ⟨out, -, rate_eq⟩ := found ⟨_, setting_600mhz⟩ (by decide)
  subst rate_eq
  have filled : hiwordWrite 0 (hiwordUpdate (lessOne 0) 0xfff 0) = 0xffff := by decide
  refine ⟨?_, _, ends, rfl, filled⟩
  rintro ⟨result', ends', -, exact_of⟩
  have same := (ends' _ (Nat.lt_succ_self _)).symm.trans (ends _ (Nat.lt_succ_self _))
  have fits := (exact_of _ (Option.some.inj same)).2.1
  have positive : 1 ≤ 0 := fits.nb.1
  exact absurd positive (by decide)

end Clk
end RockchipSoc
