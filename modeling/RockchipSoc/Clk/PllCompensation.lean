import Mathlib.Algebra.Order.Field.Basic
import Mathlib.Logic.Function.Basic
import Mathlib.Tactic.Linarith
import Mathlib.Tactic.NormNum
import Mathlib.Tactic.Positivity
import RockchipSoc.Clk.PllRestore
import RockchipSoc.Foundation.LabelledRun

/-!
# Compensation of fractional PLLs

The fraction of a PLL is moved by some parts per million of its rate.  The base of the correction is
kept in two static variables, which are filled once, from the PLL that is compensated first.
-/

namespace RockchipSoc
namespace Clk

open LabelledRun HiwordField

/-- A PLL that can be compensated.  The one of RK3328 has the registers of RK3036. -/
inductive FracPll
  | rk3036 (pll : RockchipClkPll Rk3036Con Rk3036Params)
  | rk3399 (pll : RockchipClkPll Rk3399Con Rk3036Params)

/-- The fraction register. -/
def FracPll.con2 : FracPll → BitVec 32
  | .rk3036 pll => pll.state.con.con2
  | .rk3399 pll => pll.state.con.con2

/-- The register of the feedback divider. -/
def FracPll.con0 : FracPll → BitVec 16
  | .rk3036 pll => pll.state.con.con0
  | .rk3399 pll => pll.state.con.con0

/-- A word written to the fraction register. -/
def FracPll.writeCon2 (word : BitVec 32) : FracPll → FracPll
  | .rk3036 pll => .rk3036 { pll with state.con.con2 := word }
  | .rk3399 pll => .rk3399 { pll with state.con.con2 := word }

/-- A fraction and the feedback divider it belongs to. -/
@[ext]
structure FracBase where
  frac : ℕ
  fbdiv : ℕ
  deriving DecidableEq

/-- What the registers hold. -/
def FracPll.base (pll : FracPll) : FracBase := ⟨fracField pll.con2, field pll.con0 0xfff 0⟩

/-- The PLLs, by number, and the static variables of the compensation. -/
structure CompState where
  plls : ℕ → FracPll
  cache : FracBase

/-- The size of the correction: a part for the fraction and one for the feedback divider. -/
def correction (cache : FracBase) (ppm : ℕ) : ℕ :=
  let m := cache.frac * ppm % 2 ^ 64 / 0xf4240
  let n := (ppm <<< 24) % 2 ^ 64 / 0xf4240 * cache.fbdiv % 2 ^ 64
  (m + n) % 2 ^ 64

/-- The fraction that is written; a correction below zero wraps. -/
def fracdiv (cache : FracBase) (ppm : ℤ) : ℕ :=
  if ppm < 0 then (cache.frac + 2 ^ 64 - correction cache ppm.natAbs) % 2 ^ 64
  else (cache.frac + correction cache ppm.natAbs) % 2 ^ 64

/-- `rockchip_pll_clk_compensation` of a PLL: the state behind it and whether it succeeded. -/
def rockchipPllClkCompensation (s : CompState) (id : ℕ) (ppm : ℤ) : CompState × Bool :=
  if ppm > 0x3e8 ∨ ppm < -0x3e8 then (s, false)
  else
    let cache := if s.cache.frac = 0 then (s.plls id).base else s.cache
    if cache.frac = 0 ∨ fracdiv cache ppm > fracMask then ({ s with cache := cache }, false)
    else
      let word := fracWrite (s.plls id).con2 (fracdiv cache ppm)
      ({ plls := Function.update s.plls id ((s.plls id).writeCon2 word), cache := cache }, true)

/-- A rate set on a PLL: the PLL behind it, and whether parameters were written. -/
def FracPll.setRate (locks : ℕ → Bool) (depth drate : ℕ) : FracPll → Option (FracPll × Bool)
  | .rk3036 pll =>
      (rockchipRk3036PllSetRate locks depth pll drate).map fun done =>
        (.rk3036 done.1, (rockchipGetPllSettings autoFrac pll.rateTable pll.sel drate).2.isSome)
  | .rk3399 pll =>
      (rockchipRk3399PllSetRate locks depth pll drate).map fun done =>
        (.rk3399 done.1, (rockchipGetPllSettings autoFrac pll.rateTable pll.sel drate).2.isSome)

inductive CompCall
  | setRate (id : ℕ) (locks : ℕ → Bool) (depth drate : ℕ)
  | compensate (id : ℕ) (ppm : ℤ)

/-- The state, with what `set_rate` last programmed into each PLL. -/
structure Compensated where
  state : CompState
  programmed : ℕ → FracBase

/-- One call.  A rate is set where its waits for the lock come to an end. -/
def compStep (c : Compensated) : CompCall → Option Compensated
  | .setRate id locks depth drate =>
      ((c.state.plls id).setRate locks depth drate).map fun done =>
        { state := { c.state with plls := Function.update c.state.plls id done.1 },
          programmed :=
            if done.2 then Function.update c.programmed id done.1.base else c.programmed }
  | .compensate id ppm => some { c with state := (rockchipPllClkCompensation c.state id ppm).1 }

/-- The PLLs as they were programmed, with the static variables empty. -/
def compStart (plls : ℕ → FracPll) : Compensated :=
  { state := { plls := plls, cache := ⟨0, 0⟩ }, programmed := fun id => (plls id).base }

/-! ### The static variables -/

/-- The condition: the static variables are empty, or hold what was last programmed into the PLL
that is compensated. -/
def CacheFits (c : Compensated) : CompCall → Prop
  | .setRate _ _ _ _ => True
  | .compensate id _ => c.state.cache.frac = 0 ∨ c.state.cache = c.programmed id

/-- The invariant: feedback dividers are those programmed, and fractions too, until the static
variables are filled. -/
structure CompInv (c : Compensated) : Prop where
  frac_lt : c.state.cache.frac < 2 ^ 24
  fbdiv_lt : c.state.cache.fbdiv < 2 ^ 12
  fbdiv : ∀ id, (c.state.plls id).base.fbdiv = (c.programmed id).fbdiv
  frac : c.state.cache.frac = 0 → ∀ id, (c.state.plls id).base.frac = (c.programmed id).frac

theorem FracPll.base_lt (pll : FracPll) : pll.base.frac < 2 ^ 24 ∧ pll.base.fbdiv < 2 ^ 12 :=
  ⟨fracField_lt pll.con2, field_lt 12 pll.con0 rfl⟩

@[simp]
theorem FracPll.con2_writeCon2 (word : BitVec 32) (pll : FracPll) :
    (pll.writeCon2 word).con2 = word := by
  cases pll <;> rfl

@[simp]
theorem FracPll.con0_writeCon2 (word : BitVec 32) (pll : FracPll) :
    (pll.writeCon2 word).con0 = pll.con0 := by
  cases pll <;> rfl

/-- Without settings nothing is written. -/
theorem FracPll.setRate_kept {locks : ℕ → Bool} {depth drate : ℕ} {pll pll' : FracPll}
    (done : pll.setRate locks depth drate = some (pll', false)) : pll'.base = pll.base := by
  cases pll with
  | rk3036 pll =>
      obtain ⟨result, ends, same⟩ := Option.map_eq_some_iff.mp done
      obtain ⟨rfl, null⟩ := Prod.mk.inj same
      rw [Option.isSome_eq_false_iff, Option.isNone_iff_eq_none] at null
      simp only [rockchipRk3036PllSetRate, null] at ends
      cases ends
      rfl
  | rk3399 pll =>
      obtain ⟨result, ends, same⟩ := Option.map_eq_some_iff.mp done
      obtain ⟨rfl, null⟩ := Prod.mk.inj same
      rw [Option.isSome_eq_false_iff, Option.isNone_iff_eq_none] at null
      simp only [rockchipRk3399PllSetRate, null] at ends
      cases ends
      rfl

/-! ### The correction -/

/-- The fraction is the base, corrected by the parts per million of the whole multiplier, to within
the truncation of the two divisions. -/
def Within (base : FracBase) (ppm : ℤ) (frac : ℕ) : Prop :=
  |(frac : ℚ) - (base.frac + (base.frac + base.fbdiv * 2 ^ 24) * ppm / 10 ^ 6)| <
    (1 + base.fbdiv : ℚ)

variable {base : FracBase} {ppm : ℕ}

/-- Nothing of a correction wraps. -/
theorem correction_eq (frac_lt : base.frac < 2 ^ 24) (fbdiv_lt : base.fbdiv < 2 ^ 12)
    (small : ppm ≤ 1000) :
    correction base ppm = base.frac * ppm / 10 ^ 6 + ppm * 2 ^ 24 / 10 ^ 6 * base.fbdiv ∧
      correction base ppm < 2 ^ 36 := by
  have first : base.frac * ppm ≤ 2 ^ 24 * 1000 := Nat.mul_le_mul frac_lt.le small
  have step : ppm * 2 ^ 24 / 10 ^ 6 ≤ 2 ^ 15 := by omega
  have second : ppm * 2 ^ 24 / 10 ^ 6 * base.fbdiv ≤ 2 ^ 15 * 2 ^ 12 :=
    Nat.mul_le_mul step fbdiv_lt.le
  have shifted : (ppm <<< 24) % 2 ^ 64 = ppm * 2 ^ 24 := by
    rw [Nat.shiftLeft_eq]
    omega
  simp only [correction, shifted]
  generalize base.frac * ppm = product at *
  generalize ppm * 2 ^ 24 / 10 ^ 6 * base.fbdiv = whole at *
  omega

/-- The exact correction is less than one unit and one feedback divider above it. -/
theorem correction_bounds (frac_lt : base.frac < 2 ^ 24) (fbdiv_lt : base.fbdiv < 2 ^ 12)
    (small : ppm ≤ 1000) :
    correction base ppm * 10 ^ 6 ≤ (base.frac + base.fbdiv * 2 ^ 24) * ppm ∧
      (base.frac + base.fbdiv * 2 ^ 24) * ppm <
        (correction base ppm + 1 + base.fbdiv) * 10 ^ 6 := by
  rw [(correction_eq frac_lt fbdiv_lt small).1]
  have first := Nat.div_add_mod (base.frac * ppm) (10 ^ 6)
  have first_lt : base.frac * ppm % 10 ^ 6 < 10 ^ 6 := Nat.mod_lt _ (by decide)
  have second := Nat.div_add_mod (ppm * 2 ^ 24) (10 ^ 6)
  have second_lt : ppm * 2 ^ 24 % 10 ^ 6 < 10 ^ 6 := Nat.mod_lt _ (by decide)
  have rest : ppm * 2 ^ 24 % 10 ^ 6 * base.fbdiv ≤ 10 ^ 6 * base.fbdiv :=
    Nat.mul_le_mul_right base.fbdiv second_lt.le
  have split : (base.frac + base.fbdiv * 2 ^ 24) * ppm =
      base.frac * ppm + ppm * 2 ^ 24 * base.fbdiv := by ring
  have whole : ppm * 2 ^ 24 * base.fbdiv =
      10 ^ 6 * (ppm * 2 ^ 24 / 10 ^ 6 * base.fbdiv) + ppm * 2 ^ 24 % 10 ^ 6 * base.fbdiv := by
    calc
      ppm * 2 ^ 24 * base.fbdiv
          = (10 ^ 6 * (ppm * 2 ^ 24 / 10 ^ 6) + ppm * 2 ^ 24 % 10 ^ 6) * base.fbdiv := by
            rw [second]
      _ = _ := by ring
  rw [split, whole]
  generalize ppm * 2 ^ 24 / 10 ^ 6 * base.fbdiv = q at *
  generalize ppm * 2 ^ 24 % 10 ^ 6 * base.fbdiv = r at *
  omega

/-- A fraction that fits its field is within the truncation. -/
theorem within_fracdiv {ppm : ℤ} (frac_lt : base.frac < 2 ^ 24) (fbdiv_lt : base.fbdiv < 2 ^ 12)
    (small : ppm ≤ 1000 ∧ -1000 ≤ ppm) (fits : fracdiv base ppm ≤ fracMask) :
    Within base ppm (fracdiv base ppm) := by
  have small' : ppm.natAbs ≤ 1000 := by omega
  obtain ⟨low, high⟩ := correction_bounds frac_lt fbdiv_lt small'
  have bound := (correction_eq frac_lt fbdiv_lt small').2
  have low' : (correction base ppm.natAbs : ℚ) * 10 ^ 6 ≤
      (base.frac + base.fbdiv * 2 ^ 24) * ppm.natAbs := by exact_mod_cast low
  have high' : ((base.frac : ℚ) + base.fbdiv * 2 ^ 24) * ppm.natAbs <
      (correction base ppm.natAbs + 1 + base.fbdiv) * 10 ^ 6 := by exact_mod_cast high
  unfold fracdiv at fits ⊢
  split
  · next negative =>
      rw [if_pos negative] at fits
      have covered : correction base ppm.natAbs ≤ base.frac := by
        unfold fracMask at fits
        omega
      have exact : (base.frac + 2 ^ 64 - correction base ppm.natAbs) % 2 ^ 64 =
          base.frac - correction base ppm.natAbs := by omega
      have sign : (ppm : ℚ) = -(ppm.natAbs : ℚ) := by
        have abs : ppm = -(ppm.natAbs : ℤ) := by omega
        exact_mod_cast abs
      rw [Within, exact, Nat.cast_sub covered, sign, abs_lt]
      constructor <;> linarith
  · next positive =>
      rw [if_neg positive] at fits
      have exact : (base.frac + correction base ppm.natAbs) % 2 ^ 64 =
          base.frac + correction base ppm.natAbs := by omega
      have sign : (ppm : ℚ) = (ppm.natAbs : ℚ) := by
        have abs : (ppm.natAbs : ℤ) = ppm := by omega
        rw [← Int.cast_natCast, abs]
      rw [Within, exact, Nat.cast_add, sign, abs_lt]
      constructor <;> linarith

/-! ### Runs -/

/-- What the static variables hold once they are filled. -/
def filledCache (s : CompState) (id : ℕ) : FracBase :=
  if s.cache.frac = 0 then (s.plls id).base else s.cache

/-- What a compensation does: it refuses without a write, or writes the corrected fraction. -/
theorem compensation_cases (s : CompState) (id : ℕ) (ppm : ℤ) :
    (rockchipPllClkCompensation s id ppm = (s, false)) ∨
    (rockchipPllClkCompensation s id ppm = ({ s with cache := filledCache s id }, false)) ∨
    ((ppm ≤ 1000 ∧ -1000 ≤ ppm) ∧ (filledCache s id).frac ≠ 0 ∧
      fracdiv (filledCache s id) ppm ≤ fracMask ∧
      rockchipPllClkCompensation s id ppm =
        ({ plls := Function.update s.plls id
            ((s.plls id).writeCon2
              (fracWrite (s.plls id).con2 (fracdiv (filledCache s id) ppm))),
           cache := filledCache s id }, true)) := by
  by_cases large : ppm > 0x3e8 ∨ ppm < -0x3e8
  · exact Or.inl (if_pos large)
  · right
    have small : ppm ≤ 1000 ∧ -1000 ≤ ppm := by omega
    by_cases refused : (filledCache s id).frac = 0 ∨ fracdiv (filledCache s id) ppm > fracMask
    · left
      rw [rockchipPllClkCompensation, if_neg large]
      exact if_pos refused
    · right
      have fits : (filledCache s id).frac ≠ 0 ∧ fracdiv (filledCache s id) ppm ≤ fracMask :=
        ⟨fun zero => refused (Or.inl zero), Nat.le_of_not_lt fun above => refused (Or.inr above)⟩
      refine ⟨small, fits.1, fits.2, ?_⟩
      rw [rockchipPllClkCompensation, if_neg large]
      exact if_neg refused

variable {c c' : Compensated}

theorem CompInv.filled_lt (inv : CompInv c) (id : ℕ) :
    (filledCache c.state id).frac < 2 ^ 24 ∧ (filledCache c.state id).fbdiv < 2 ^ 12 := by
  unfold filledCache
  split
  · exact (c.state.plls id).base_lt
  · exact ⟨inv.frac_lt, inv.fbdiv_lt⟩

/-- Empty static variables are filled with what was programmed. -/
theorem CompInv.filled_eq (inv : CompInv c) (id : ℕ)
    (fits : c.state.cache.frac = 0 ∨ c.state.cache = c.programmed id) :
    filledCache c.state id = c.programmed id := by
  unfold filledCache
  split
  · next empty => exact FracBase.ext (inv.frac empty id) (inv.fbdiv id)
  · next filled => exact fits.resolve_left filled

theorem compInv_start (plls : ℕ → FracPll) : CompInv (compStart plls) where
  frac_lt := (by decide : 0 < 2 ^ 24)
  fbdiv_lt := (by decide : 0 < 2 ^ 12)
  fbdiv _ := rfl
  frac _ _ := rfl

/-- Setting a rate programs one PLL and leaves the static variables. -/
theorem CompInv.setRate (inv : CompInv c) {id depth drate : ℕ} {locks : ℕ → Bool}
    (taken : compStep c (.setRate id locks depth drate) = some c') : CompInv c' := by
  obtain ⟨⟨pll, written⟩, done, rfl⟩ := Option.map_eq_some_iff.mp taken
  cases written with
  | true =>
      refine ⟨inv.frac_lt, inv.fbdiv_lt, fun other => ?_, fun empty other => ?_⟩
      · simp only [Function.update_apply, if_true]
        split
        · rfl
        · exact inv.fbdiv other
      · simp only [Function.update_apply, if_true]
        split
        · rfl
        · exact inv.frac empty other
  | false =>
      have kept := FracPll.setRate_kept done
      refine ⟨inv.frac_lt, inv.fbdiv_lt, fun other => ?_, fun empty other => ?_⟩
      · simp only [Function.update_apply, Bool.false_eq_true, if_false]
        split
        · next same => rw [same, kept, inv.fbdiv id]
        · exact inv.fbdiv other
      · simp only [Function.update_apply, Bool.false_eq_true, if_false]
        split
        · next same => rw [same, kept, inv.frac empty id]
        · exact inv.frac empty other

/-- A compensation fills the static variables, and moves a fraction only once they are filled. -/
theorem CompInv.compensate (inv : CompInv c) (id : ℕ) (ppm : ℤ) :
    CompInv { c with state := (rockchipPllClkCompensation c.state id ppm).1 } := by
  obtain ⟨frac_lt, fbdiv_lt⟩ := inv.filled_lt id
  rcases compensation_cases c.state id ppm with refused | refused | ⟨-, nonzero, -, moved⟩
  · rw [refused]
    exact inv
  · rw [refused]
    refine ⟨frac_lt, fbdiv_lt, inv.fbdiv, fun empty => inv.frac ?_⟩
    by_contra filled
    exact filled ((if_neg filled : filledCache c.state id = c.state.cache) ▸ empty)
  · rw [moved]
    refine ⟨frac_lt, fbdiv_lt, fun other => ?_, fun empty => absurd empty nonzero⟩
    simp only [Function.update_apply]
    split
    · next same =>
        rw [same, ← inv.fbdiv id]
        simp only [FracPll.base, FracPll.con0_writeCon2]
    · exact inv.fbdiv other

theorem CompInv.step (inv : CompInv c) {call : CompCall} (taken : compStep c call = some c') :
    CompInv c' := by
  cases call with
  | setRate id locks depth drate => exact inv.setRate taken
  | compensate id ppm =>
      cases Option.some.inj taken
      exact inv.compensate id ppm

/-- A compensation is absolute: it succeeds with the fraction that was programmed, corrected, or it
fails and leaves every PLL as it was. -/
structure Absolute (c : Compensated) (id : ℕ) (ppm : ℤ) : Prop where
  succeeds : (rockchipPllClkCompensation c.state id ppm).2 = true →
    Within (c.programmed id) ppm
      ((rockchipPllClkCompensation c.state id ppm).1.plls id).base.frac
  fails : (rockchipPllClkCompensation c.state id ppm).2 = false →
    (rockchipPllClkCompensation c.state id ppm).1.plls = c.state.plls

theorem compensation_absolute {plls : ℕ → FracPll}
    (reach : Reaches compStep CacheFits (compStart plls) c) {id : ℕ} {ppm : ℤ}
    (fits : CacheFits c (.compensate id ppm)) : Absolute c id ppm := by
  have inv : CompInv c := reach.invariant (fun _ _ _ inv _ taken => inv.step taken)
    (compInv_start plls)
  obtain ⟨frac_lt, fbdiv_lt⟩ := inv.filled_lt id
  have own := inv.filled_eq id fits
  rcases compensation_cases c.state id ppm with refused | refused | ⟨small, -, inside, moved⟩
  · constructor
    · intro succeeded
      rw [refused] at succeeded
      cases succeeded
    · intro _
      rw [refused]
  · constructor
    · intro succeeded
      rw [refused] at succeeded
      cases succeeded
    · intro _
      rw [refused]
  · constructor
    · intro _
      have written : (rockchipPllClkCompensation c.state id ppm).1.plls id =
          (c.state.plls id).writeCon2
            (fracWrite (c.state.plls id).con2 (fracdiv (filledCache c.state id) ppm)) := by
        rw [moved]
        exact Function.update_self id _ _
      have read : ((rockchipPllClkCompensation c.state id ppm).1.plls id).base.frac =
          fracdiv (c.programmed id) ppm := by
        rw [written, FracPll.base, FracPll.con2_writeCon2, own,
          fracField_fracWrite _ (Nat.lt_succ_of_le (own ▸ inside))]
      rw [read]
      exact within_fracdiv (own ▸ frac_lt) (own ▸ fbdiv_lt) small (own ▸ inside)
    · intro failed
      rw [moved] at failed
      cases failed

/-! ### Two PLLs -/

/-- A PLL of RK3036 with a fraction, and a feedback divider of 50. -/
def fracPll (frac : ℕ) : FracPll :=
  .rk3036
    { sel := 0, scaling := 0, rateTable := [],
      state := { con := ⟨0x1032, 0x0041, BitVec.ofNat 32 frac⟩, mode := pllModeNorm },
      sel_lt := pll816.sel_lt }

/-- Two PLLs, the second with an eighth of the first one's fraction. -/
def twoPlls (id : ℕ) : FracPll := if id = 0 then fracPll 0x800000 else fracPll 0x100000

/-- The state behind a compensation of the first PLL. -/
def firstCompensated : Compensated :=
  { state := (rockchipPllClkCompensation (compStart twoPlls).state 0 100).1,
    programmed := (compStart twoPlls).programmed }

theorem compensation_first : Absolute firstCompensated 0 (-50) :=
  compensation_absolute
    (.tail .refl (show CacheFits (compStart twoPlls) (.compensate 0 100) from Or.inl rfl) rfl)
    (show CacheFits firstCompensated (.compensate 0 (-50)) from Or.inr (by decide))

/-- The second PLL is then moved to a correction of the first one's fraction. -/
theorem compensation_second :
    compStep (compStart twoPlls) (.compensate 0 100) = some firstCompensated ∧
      (rockchipPllClkCompensation firstCompensated.state 1 0).2 = true ∧
      ((rockchipPllClkCompensation firstCompensated.state 1 0).1.plls 1).base.frac = 0x800000 ∧
      ¬Absolute firstCompensated 1 0 := by
  have succeeded : (rockchipPllClkCompensation firstCompensated.state 1 0).2 = true := by decide
  have moved : ((rockchipPllClkCompensation firstCompensated.state 1 0).1.plls 1).base.frac =
      0x800000 := by decide
  have programmed : firstCompensated.programmed 1 = ⟨0x100000, 50⟩ := by decide
  refine ⟨rfl, succeeded, moved, fun absolute => ?_⟩
  have within := absolute.succeeds succeeded
  rw [moved, programmed, Within, abs_lt] at within
  norm_num at within

end Clk
end RockchipSoc
