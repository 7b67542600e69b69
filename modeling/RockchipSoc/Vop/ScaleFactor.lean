import Mathlib.Order.Bounds.Basic
import RockchipSoc.Foundation.CheckedArith
import RockchipSoc.Vop.PlaneCheck

/-!
# Scale factors

A factor is the ratio of the source to the destination in fixed point, each less one, lowered until
the last pixel of the destination lies before the last one of the source.
-/

namespace RockchipSoc
namespace Vop

open CheckedWord CheckedDiv

/-- `enum scale_mode`. -/
inductive ScaleMode where
  | scaleNone
  | scaleUp
  | scaleDown
  deriving DecidableEq, Repr

def sclGetSclMode (src dst : ℕ) : ScaleMode :=
  if src < dst then .scaleUp else if src > dst then .scaleDown else .scaleNone

/-- `VOP2_SCALE_DOWN_BIL`. -/
def vop2ScaleDownBil : ℕ := 1

/-- `VOP2_BILI_SCL_DN` and `VOP2_COMMON_SCL`, with the shift of each. -/
def sclFac (shift src dst : ℕ) : Option ℕ := do
  div? (← fit? 32 ((← sub? src 1) <<< shift)) (← sub? dst 1)

/-- `VOP2_BILI_SCL_FAC_CHECK` and `VOP2_COMMON_SCL_FAC_CHECK`. -/
def sclFacCheck (shift src dst fac : ℕ) : Option Bool := do
  let product ← fit? 32 (fac * (← sub? dst 1))
  some (decide (product >>> shift < (← sub? src 1)))

/-- The loop that lowers a factor, with the passes left. -/
def calibrate (shift src dst : ℕ) : ℕ → ℕ → Option ℕ
  | 0, fac => some fac
  | passes + 1, fac => do
      if ← sclFacCheck shift src dst fac then some fac
      else calibrate shift src dst passes (← sub? fac 1)

/-- `vop2_scale_factor`: nothing if it divides by zero, wraps or is cut. -/
def vop2ScaleFactor (mode : ScaleMode) (filterMode src dst : ℕ) : Option ℕ :=
  if mode = .scaleNone then some 0
  else do
    let edge := decide (dst = 1 ∨ src = 1)
    let dst ← fit? 32 (if edge then dst + 1 else dst)
    let src ← fit? 32 (if edge then src + 1 else src)
    let shift := if mode = .scaleDown ∧ filterMode = vop2ScaleDownBil then 12 else 16
    fit? 16 (← calibrate shift src dst 100 (← sclFac shift src dst))

/-- The filters of a window. -/
structure ScaleFilters where
  hsuFilterMode : ℕ
  hsdFilterMode : ℕ
  vsuFilterMode : ℕ
  vsdFilterMode : ℕ

/-- The registers of one component. -/
structure ScaleRegs where
  scaleX : ℕ
  scaleY : ℕ
  vsdGt4 : Bool
  vsdGt2 : Bool
  horSclMode : ScaleMode
  verSclMode : ScaleMode
  hsclFilterMode : ℕ
  vsclFilterMode : ℕ
  deriving DecidableEq, Repr

/-- The lines of the source that are left where one of four, or one of two, is taken. -/
def gtDivided (gt4 gt2 : Bool) (srcH : ℕ) : ℕ :=
  if gt4 then srcH >>> 2 else if gt2 then srcH >>> 1 else srcH

/-- One component of `vop2_setup_scale`, behind its modes. -/
def componentScale (gt4 gt2 : Bool) (horMode verMode : ScaleMode) (hfilter vfilter : ℕ)
    (srcW srcH dstW dstH : ℕ) : Option ScaleRegs := do
  some
    { scaleX := ← vop2ScaleFactor horMode hfilter srcW dstW
      scaleY := ← vop2ScaleFactor verMode vfilter srcH dstH
      vsdGt4 := gt4
      vsdGt2 := gt2
      horSclMode := horMode
      verSclMode := verMode
      hsclFilterMode := hfilter
      vsclFilterMode := vfilter }

/-- `gt4` and `gt2`. -/
def gtFlags (srcH dstH : ℕ) : Option (Bool × Bool) := do
  let gt4 := decide (srcH ≥ (← fit? 32 (4 * dstH)))
  some (gt4, !gt4 && decide (srcH ≥ (← fit? 32 (2 * dstH))))

/-- `vop2_setup_scale`: the registers of luma, and those of chroma. -/
def vop2SetupScale (afbdc : Bool) (filters : ScaleFilters) (isYuv : Bool) (hsub vsub : ℕ)
    (srcW srcH dstW dstH : ℕ) : Option (ScaleRegs × Option ScaleRegs) := do
  let cbcrSrcW ← fit? 16 (← div? srcW hsub)
  let cbcrSrcH ← fit? 16 (← div? srcH vsub)
  let (gt4, gt2) ← gtFlags srcH dstH
  let srcH := gtDivided gt4 gt2 srcH
  let horMode := sclGetSclMode srcW dstW
  let verMode := sclGetSclMode srcH dstH
  let hfilter := if horMode = .scaleUp then filters.hsuFilterMode else filters.hsdFilterMode
  let vfilter := if verMode = .scaleUp then filters.vsuFilterMode else filters.vsdFilterMode
  let dstW ← fit? 32 (if ¬afbdc ∧ horMode = .scaleDown ∧ dstW % 2 = 1 then dstW + 1 else dstW)
  let yrgb ← componentScale gt4 gt2 horMode verMode hfilter vfilter srcW srcH dstW dstH
  if isYuv then
    let (gt4, gt2) ← gtFlags cbcrSrcH dstH
    let cbcrSrcH := gtDivided gt4 gt2 cbcrSrcH
    let cbcr ← componentScale gt4 gt2 (sclGetSclMode cbcrSrcW dstW) (sclGetSclMode cbcrSrcH dstH)
      hfilter vfilter cbcrSrcW cbcrSrcH dstW dstH
    some (yrgb, some cbcr)
  else some (yrgb, none)

/-! ### What a factor is for -/

/-- The fraction bits of a factor. -/
def fractionBits : ScaleMode → ℕ
  | .scaleDown => 12
  | _ => 16

/-- The direction that a mode stands for. -/
def ScaleMode.Leads : ScaleMode → ℕ → ℕ → Prop
  | .scaleNone, src, dst => src = dst
  | .scaleUp, src, dst => src < dst
  | .scaleDown, src, dst => dst ≤ src

/-- The factor is the largest one at which the last pixel of the destination lies before the last
one of the source. -/
def LargestFactor (shift src dst fac : ℕ) : Prop :=
  IsGreatest {fac : ℕ | fac * (dst - 1) / 2 ^ shift < src - 1} fac

/-- A factor fits its register and is the largest one where the direction is scaled and neither size
is one. -/
structure FactorValid (mode : ScaleMode) (src dst fac : ℕ) : Prop where
  leads : mode.Leads src dst
  fits : fac < 2 ^ 16
  largest : mode ≠ .scaleNone → src ≠ 1 → dst ≠ 1 → LargestFactor (fractionBits mode) src dst fac

/-- Both factors of a component are valid, the vertical one for the lines that are left. -/
structure ComponentValid (srcW srcH dstW dstH : ℕ) (regs : ScaleRegs) : Prop where
  horizontal : FactorValid regs.horSclMode srcW dstW regs.scaleX
  vertical : FactorValid regs.verSclMode (gtDivided regs.vsdGt4 regs.vsdGt2 srcH) dstH regs.scaleY
  gt4 : regs.vsdGt4 = true ↔ 4 * dstH ≤ srcH
  gt2 : regs.vsdGt2 = true ↔ 2 * dstH ≤ srcH ∧ ¬4 * dstH ≤ srcH

/-! ### One factor -/

variable {shift src dst fac passes filterMode : ℕ} {mode : ScaleMode}

/-- The check of the loop without its shift. -/
theorem below_iff :
    fac * (dst - 1) / 2 ^ shift < src - 1 ↔ fac * (dst - 1) < (src - 1) * 2 ^ shift :=
  Nat.div_lt_iff_lt_mul (Nat.two_pow_pos shift)

/-- The greatest number of which a multiple lies below a bound. -/
def lastBelow (shift src dst : ℕ) : ℕ := ((src - 1) * 2 ^ shift - 1) / (dst - 1)

section Calibration

variable (tall : 2 ≤ src) (wide : 2 ≤ dst)
include tall wide

theorem largestFactor_lastBelow : LargestFactor shift src dst (lastBelow shift src dst) := by
  have positive : 0 < dst - 1 := by omega
  have nonzero : 0 < (src - 1) * 2 ^ shift := Nat.mul_pos (by omega) (Nat.two_pow_pos shift)
  constructor
  · refine below_iff.mpr ?_
    have least := Nat.div_mul_le_self ((src - 1) * 2 ^ shift - 1) (dst - 1)
    unfold lastBelow
    omega
  · intro fac below
    have product := below_iff.mp below
    unfold lastBelow
    rw [Nat.le_div_iff_mul_le positive]
    omega

/-- The quotient is the last factor below, or one more. -/
theorem quotient_cases : (src - 1) * 2 ^ shift / (dst - 1) = lastBelow shift src dst ∨
    (src - 1) * 2 ^ shift = (lastBelow shift src dst + 1) * (dst - 1) := by
  have positive : 0 < dst - 1 := by omega
  have nonzero : 0 < (src - 1) * 2 ^ shift := Nat.mul_pos (by omega) (Nat.two_pow_pos shift)
  unfold lastBelow
  by_cases exact : dst - 1 ∣ (src - 1) * 2 ^ shift
  · obtain ⟨quotient, product⟩ := exact
    have least : 0 < quotient := by
      rcases Nat.eq_zero_or_pos quotient with rfl | least
      · omega
      · exact least
    right
    have before : ((src - 1) * 2 ^ shift - 1) / (dst - 1) = quotient - 1 := by
      rw [product, Nat.div_eq_iff positive, Nat.sub_mul, Nat.mul_comm quotient]
      have whole : dst - 1 ≤ (dst - 1) * quotient := Nat.le_mul_of_pos_right _ least
      omega
    rw [before, Nat.sub_add_cancel least, product, Nat.mul_comm]
  · left
    have rest : 0 < (src - 1) * 2 ^ shift % (dst - 1) := by
      rw [Nat.pos_iff_ne_zero]
      exact mt Nat.dvd_of_mod_eq_zero exact
    have parts := Nat.div_add_mod ((src - 1) * 2 ^ shift) (dst - 1)
    have below := Nat.mod_lt ((src - 1) * 2 ^ shift) positive
    symm
    rw [Nat.div_eq_iff positive, Nat.mul_comm]
    omega

/-- The check of a factor whose product fits. -/
theorem sclFacCheck_eq (fits : fac * (dst - 1) < 2 ^ 32) : sclFacCheck shift src dst fac =
    some (decide (fac * (dst - 1) < (src - 1) * 2 ^ shift)) := by
  unfold sclFacCheck
  rw [sub?_of_le (by omega : 1 ≤ dst), sub?_of_le (by omega : 1 ≤ src)]
  simp only [Option.bind_eq_bind, Option.bind_some, fit?_of_lt fits, Nat.shiftRight_eq_div_pow,
    below_iff]

/-- One pass at most lowers the quotient to the last factor below. -/
theorem calibrated (fits : (src - 1) * 2 ^ shift < 2 ^ 32) :
    (sclFac shift src dst).bind (calibrate shift src dst 100) =
      some (lastBelow shift src dst) := by
  have positive : 0 < dst - 1 := by omega
  have quotient : sclFac shift src dst = some ((src - 1) * 2 ^ shift / (dst - 1)) := by
    unfold sclFac
    rw [sub?_of_le (by omega : 1 ≤ src), sub?_of_le (by omega : 1 ≤ dst)]
    simp only [Option.bind_eq_bind, Option.bind_some, Nat.shiftLeft_eq, fit?_of_lt fits]
    exact div?_of_ne positive.ne'
  have below : lastBelow shift src dst * (dst - 1) < (src - 1) * 2 ^ shift :=
    below_iff.mp (largestFactor_lastBelow tall wide).1
  have stops (passes : ℕ) : calibrate shift src dst (passes + 1) (lastBelow shift src dst) =
      some (lastBelow shift src dst) := by
    rw [calibrate, sclFacCheck_eq tall wide (below.trans fits)]
    simp [below]
  rw [quotient, Option.bind_some]
  rcases @quotient_cases shift src dst tall wide with same | exact
  · rw [same, stops]
  · have above : (src - 1) * 2 ^ shift / (dst - 1) = lastBelow shift src dst + 1 := by
      rw [exact, Nat.mul_div_cancel _ positive]
    rw [above, calibrate, sclFacCheck_eq tall wide (exact ▸ fits)]
    simp only [← exact, lt_irrefl, decide_false, Option.bind_eq_bind, Option.bind_some,
      Bool.false_eq_true, if_false]
    rw [sub?_of_le (Nat.le_add_left 1 _), Option.bind_some, Nat.add_sub_cancel, stops]

end Calibration

/-- A factor fits 16 bits if the source is not too large for the destination. -/
theorem lastBelow_lt (wide : 2 ≤ dst) (ratio : (src - 1) * 2 ^ shift ≤ 2 ^ 16 * (dst - 1)) :
    lastBelow shift src dst < 2 ^ 16 := by
  unfold lastBelow
  rw [Nat.div_lt_iff_lt_mul (by omega)]
  omega

/-- The sizes that a factor is computed from: with a size of one, both are one larger. -/
theorem vop2ScaleFactor_eq {size size' : ℕ} (scaled : mode ≠ .scaleNone) (narrow : dst ≤ 8192)
    (narrow' : src ≤ 8192) (size_eq : (if dst = 1 ∨ src = 1 then src + 1 else src) = size)
    (size_eq' : (if dst = 1 ∨ src = 1 then dst + 1 else dst) = size') (tall : 2 ≤ size)
    (wide : 2 ≤ size')
    (shift_eq : (if mode = .scaleDown ∧ filterMode = vop2ScaleDownBil then 12 else 16) = shift)
    (ratio : (size - 1) * 2 ^ shift ≤ 2 ^ 16 * (size' - 1)) :
    vop2ScaleFactor mode filterMode src dst = some (lastBelow shift size size') ∧
      lastBelow shift size size' < 2 ^ 16 := by
  have small : size ≤ 8193 := by
    rw [← size_eq]
    split <;> omega
  have small' : size' ≤ 8193 := by
    rw [← size_eq']
    split <;> omega
  have fits := lastBelow_lt wide ratio
  refine ⟨?_, fits⟩
  unfold vop2ScaleFactor
  simp only [scaled, if_false, decide_eq_true_eq, size_eq, size_eq', shift_eq]
  rw [fit?_of_lt (by omega : size' < 2 ^ 32), fit?_of_lt (by omega : size < 2 ^ 32)]
  have steps := calibrated tall wide (by omega : (size - 1) * 2 ^ shift < 2 ^ 32)
  simp only [Option.bind_eq_bind, Option.bind_some]
  rw [← Option.bind_assoc, steps, Option.bind_some, fit?_of_lt fits]

/-- A factor is valid for a source of at most eight times the destination. -/
theorem exists_vop2ScaleFactor (positive : 1 ≤ src) (positive' : 1 ≤ dst) (narrow : src ≤ 8192)
    (narrow' : dst ≤ 8192) (leads : mode.Leads src dst)
    (down : mode = .scaleDown → filterMode = vop2ScaleDownBil ∧ src ≤ 8 * dst) :
    ∃ fac, vop2ScaleFactor mode filterMode src dst = some fac ∧
      FactorValid mode src dst fac := by
  by_cases scaled : mode = .scaleNone
  · refine ⟨0, if_pos scaled, leads, by decide, fun contra => absurd scaled contra⟩
  have shift_eq : (if mode = .scaleDown ∧ filterMode = vop2ScaleDownBil then 12 else 16) =
      fractionBits mode := by
    cases mode with
    | scaleNone => exact absurd rfl scaled
    | scaleUp => rfl
    | scaleDown => exact if_pos ⟨rfl, (down rfl).1⟩
  have ratio (more : ℕ) (enough : 2 ≤ dst + more) (edge : dst = 1 → more = 1) :
      (src + more - 1) * 2 ^ fractionBits mode ≤ 2 ^ 16 * (dst + more - 1) := by
    cases mode with
    | scaleNone => exact absurd rfl scaled
    | scaleUp =>
        simp only [ScaleMode.Leads] at leads
        simp only [fractionBits]
        omega
    | scaleDown =>
        have near := (down rfl).2
        simp only [fractionBits]
        omega
  by_cases edge : dst = 1 ∨ src = 1
  · obtain ⟨value, fits⟩ := vop2ScaleFactor_eq scaled narrow' narrow (if_pos edge) (if_pos edge)
      (by omega) (by omega) shift_eq (ratio 1 (by omega) fun _ => rfl)
    exact ⟨_, value, leads, fits, fun _ tall wide => absurd edge (by simp [tall, wide])⟩
  · have tall : 2 ≤ src := by omega
    have wide : 2 ≤ dst := by omega
    obtain ⟨value, fits⟩ := vop2ScaleFactor_eq scaled narrow' narrow (if_neg edge) (if_neg edge)
      tall wide shift_eq (ratio 0 wide (by omega))
    exact ⟨_, value, leads, fits, fun _ _ _ => largestFactor_lastBelow tall wide⟩

/-! ### A component -/

variable {srcW srcH dstW dstH hfilter vfilter : ℕ} {horMode verMode : ScaleMode}

theorem leads_sclGetSclMode (src dst : ℕ) : (sclGetSclMode src dst).Leads src dst := by
  unfold sclGetSclMode
  split
  · next up => exact up
  · split
    · next down => exact down.le
    · next same => exact le_antisymm (not_lt.mp same) (not_lt.mp ‹¬src < dst›)

theorem gtFlags_eq (small : dstH ≤ 8192) : gtFlags srcH dstH =
    some (decide (4 * dstH ≤ srcH), !decide (4 * dstH ≤ srcH) && decide (2 * dstH ≤ srcH)) := by
  unfold gtFlags
  rw [fit?_of_lt (by omega), fit?_of_lt (by omega)]
  rfl

/-- The lines that are left: at least one, not more than before, and as many as the destination has
where any were left out. -/
theorem gtDivided_bounds (positive : 1 ≤ srcH) (positive' : 1 ≤ dstH) {left : ℕ}
    (left_eq : gtDivided (decide (4 * dstH ≤ srcH))
      (!decide (4 * dstH ≤ srcH) && decide (2 * dstH ≤ srcH)) srcH = left) :
    1 ≤ left ∧ left ≤ srcH ∧ (left < dstH → left = srcH) := by
  subst left_eq
  unfold gtDivided
  simp only [Nat.shiftRight_eq_div_pow]
  split
  · next four =>
      have enough := of_decide_eq_true four
      omega
  · split
    · next two =>
        have enough := of_decide_eq_true (Bool.and_eq_true_iff.mp two).2
        omega
    · omega

/-- A component whose modes lead from its sizes to those of the destination. -/
theorem exists_componentScale {left : ℕ}
    (left_eq : gtDivided (decide (4 * dstH ≤ srcH))
      (!decide (4 * dstH ≤ srcH) && decide (2 * dstH ≤ srcH)) srcH = left)
    (wide : 1 ≤ srcW) (tall : 1 ≤ srcH) (wide' : 1 ≤ dstW) (tall' : 1 ≤ dstH)
    (narrow : srcW ≤ 8192) (low : srcH ≤ 8192) (narrow' : dstW ≤ 8192) (low' : dstH ≤ 8192)
    (leads : horMode.Leads srcW dstW) (ratioW : srcW ≤ 8 * dstW) (ratioH : srcH ≤ 8 * dstH)
    (filterW : horMode = .scaleDown → hfilter = vop2ScaleDownBil)
    (filterH : sclGetSclMode left dstH = .scaleDown → vfilter = vop2ScaleDownBil) :
    ∃ regs, componentScale (decide (4 * dstH ≤ srcH))
        (!decide (4 * dstH ≤ srcH) && decide (2 * dstH ≤ srcH)) horMode
        (sclGetSclMode left dstH) hfilter vfilter srcW left dstW dstH = some regs ∧
      ComponentValid srcW srcH dstW dstH regs := by
  obtain ⟨some_left, left_le, -⟩ := gtDivided_bounds tall tall' left_eq
  obtain ⟨x, value, valid⟩ := exists_vop2ScaleFactor wide wide' narrow narrow' leads
    fun down => ⟨filterW down, ratioW⟩
  obtain ⟨y, value', valid'⟩ := exists_vop2ScaleFactor some_left tall' (left_le.trans low) low'
    (leads_sclGetSclMode left dstH) fun down => ⟨filterH down, left_le.trans ratioH⟩
  unfold componentScale
  rw [value, value']
  refine ⟨_, rfl, valid, ?_, decide_eq_true_iff, ?_⟩
  · rw [left_eq]
    exact valid'
  · simp only [Bool.and_eq_true, Bool.not_eq_true', decide_eq_true_eq, decide_eq_false_iff_not]
    exact and_comm

/-! ### A plane -/

/-- The destination's width, evened where a window without frame buffer compression scales down. -/
def evenedWidth (afbdc : Bool) (srcW dstW : ℕ) : ℕ :=
  if ¬afbdc ∧ dstW < srcW ∧ dstW % 2 = 1 then dstW + 1 else dstW

/-- The rectangles pass the check of their sizes, are at most 8192 pixels wide and high, and the
source is at most eight times the destination. -/
structure ScaledPlane (src dest : DrmRect) : Prop where
  checked : invalidSize src dest = false
  srcWidth : whole src.width ≤ 8192
  srcHeight : whole src.height ≤ 8192
  destWidth : dest.width ≤ 8192
  destHeight : dest.height ≤ 8192
  ratioWidth : src.width ≤ 8 * dest.width * 2 ^ 16
  ratioHeight : src.height ≤ 8 * dest.height * 2 ^ 16

theorem sclGetSclMode_eq_scaleUp_iff : sclGetSclMode src dst = .scaleUp ↔ src < dst := by
  unfold sclGetSclMode
  split
  · next up => simp [up]
  · next notUp => split <;> simp [notUp]

theorem sclGetSclMode_eq_scaleDown_iff : sclGetSclMode src dst = .scaleDown ↔ dst < src := by
  unfold sclGetSclMode
  split
  · next up => simpa using up.le
  · split
    · next down => simp [down]
    · next same => simpa using same

theorem leads_evenedWidth (afbdc : Bool) (srcW dstW : ℕ) : dstW ≤ evenedWidth afbdc srcW dstW ∧
    (sclGetSclMode srcW dstW).Leads srcW (evenedWidth afbdc srcW dstW) := by
  have leads := leads_sclGetSclMode srcW dstW
  unfold evenedWidth
  split
  · next odd =>
      rw [sclGetSclMode_eq_scaleDown_iff.mpr odd.2.1] at leads ⊢
      exact ⟨Nat.le_succ _, odd.2.1⟩
  · exact ⟨le_rfl, leads⟩

/-- Every factor of every plane that passes the check is computed without a division by zero, a wrap
or a cut, and is the largest one, for luma and for chroma. -/
theorem scale_factors_valid {src dest : DrmRect} (plane : ScaledPlane src dest) (afbdc isYuv : Bool)
    {filters : ScaleFilters} (hsd : filters.hsdFilterMode = vop2ScaleDownBil)
    (vsd : filters.vsdFilterMode = vop2ScaleDownBil) {hsub vsub : ℕ} (hsub_pos : 1 ≤ hsub)
    (hsub_le : hsub ≤ 4) (vsub_pos : 1 ≤ vsub) (vsub_le : vsub ≤ 4) {srcW srcH dstW dstH : ℕ}
    (srcW_eq : srcW = whole src.width) (srcH_eq : srcH = whole src.height)
    (dstW_eq : dstW = dest.width) (dstH_eq : dstH = dest.height) :
    ∃ yrgb cbcr, vop2SetupScale afbdc filters isYuv hsub vsub srcW srcH dstW dstH =
        some (yrgb, cbcr) ∧
      ComponentValid srcW srcH (evenedWidth afbdc srcW dstW) dstH yrgb ∧
      (isYuv = true → ∃ regs, cbcr = some regs ∧
        ComponentValid (srcW / hsub) (srcH / vsub) (evenedWidth afbdc srcW dstW) dstH regs) := by
  obtain ⟨checked, srcWidth, srcHeight, destWidth, destHeight, ratioWidth, ratioHeight⟩ := plane
  obtain ⟨wide, tall, wide'⟩ := invalidSize_eq_false_iff.mp checked
  unfold whole at srcWidth srcHeight wide tall srcW_eq srcH_eq
  have srcW_bounds : 4 ≤ srcW ∧ srcW ≤ 8192 ∧ srcW ≤ 8 * dstW := by omega
  have srcH_bounds : 4 ≤ srcH ∧ srcH ≤ 8192 ∧ srcH ≤ 8 * dstH := by omega
  have dst_bounds : 4 ≤ dstW ∧ dstW ≤ 8192 ∧ 1 ≤ dstH ∧ dstH ≤ 8192 := by omega
  have cbcrW : 1 ≤ srcW / hsub ∧ srcW / hsub ≤ srcW :=
    ⟨Nat.div_pos (hsub_le.trans srcW_bounds.1) hsub_pos, Nat.div_le_self _ _⟩
  have cbcrH : 1 ≤ srcH / vsub ∧ srcH / vsub ≤ srcH :=
    ⟨Nat.div_pos (vsub_le.trans srcH_bounds.1) vsub_pos, Nat.div_le_self _ _⟩
  have evened_le : evenedWidth afbdc srcW dstW ≤ 8192 := by
    unfold evenedWidth
    split <;> omega
  obtain ⟨le_evened, leads⟩ := leads_evenedWidth afbdc srcW dstW
  obtain ⟨left, luma_left⟩ : ∃ left, gtDivided (decide (4 * dstH ≤ srcH))
    (!decide (4 * dstH ≤ srcH) && decide (2 * dstH ≤ srcH)) srcH = left := ⟨_, rfl⟩
  obtain ⟨left', chroma_left⟩ : ∃ left, gtDivided (decide (4 * dstH ≤ srcH / vsub))
    (!decide (4 * dstH ≤ srcH / vsub) && decide (2 * dstH ≤ srcH / vsub)) (srcH / vsub) = left :=
    ⟨_, rfl⟩
  have luma_bounds := gtDivided_bounds (by omega) dst_bounds.2.2.1 luma_left
  have chroma_bounds := gtDivided_bounds cbcrH.1 dst_bounds.2.2.1 chroma_left
  -- Where luma is scaled up, so is chroma.
  have hfilter (down : dstW ≤ srcW) : (if sclGetSclMode srcW dstW = .scaleUp
      then filters.hsuFilterMode else filters.hsdFilterMode) = vop2ScaleDownBil := by
    rw [if_neg (mt sclGetSclMode_eq_scaleUp_iff.mp (not_lt.mpr down)), hsd]
  have vfilter (down : dstH ≤ left) : (if sclGetSclMode left dstH = .scaleUp
      then filters.vsuFilterMode else filters.vsdFilterMode) = vop2ScaleDownBil := by
    rw [if_neg (mt sclGetSclMode_eq_scaleUp_iff.mp (not_lt.mpr down)), vsd]
  obtain ⟨yrgb, yrgb_eq, yrgb_valid⟩ := exists_componentScale luma_left (by omega) (by omega)
    (by omega) dst_bounds.2.2.1 srcW_bounds.2.1 srcH_bounds.2.1 evened_le dst_bounds.2.2.2 leads
    (by omega) srcH_bounds.2.2
    (fun down => hfilter (sclGetSclMode_eq_scaleDown_iff.mp down).le)
    (fun down => vfilter (sclGetSclMode_eq_scaleDown_iff.mp down).le)
  obtain ⟨cbcr, cbcr_eq, cbcr_valid⟩ := exists_componentScale chroma_left cbcrW.1 cbcrH.1
    (by omega) dst_bounds.2.2.1 (by omega) (by omega) evened_le dst_bounds.2.2.2
    (leads_sclGetSclMode (srcW / hsub) (evenedWidth afbdc srcW dstW)) (by omega) (by omega)
    (fun down => hfilter (by have := sclGetSclMode_eq_scaleDown_iff.mp down; omega))
    (fun down => vfilter (by have := sclGetSclMode_eq_scaleDown_iff.mp down; omega))
  refine ⟨yrgb, if isYuv then some cbcr else none, ?_, yrgb_valid,
    fun yuv => ⟨cbcr, if_pos yuv, cbcr_valid⟩⟩
  unfold vop2SetupScale
  rw [div?_of_ne (by omega), div?_of_ne (by omega)]
  have evened_eq : (if ¬afbdc ∧ sclGetSclMode srcW dstW = .scaleDown ∧ dstW % 2 = 1 then dstW + 1
      else dstW) = evenedWidth afbdc srcW dstW := by
    simp only [sclGetSclMode_eq_scaleDown_iff, evenedWidth]
  simp only [Option.bind_eq_bind, Option.bind_some, fit?_of_lt (by omega : srcW / hsub < 2 ^ 16),
    fit?_of_lt (by omega : srcH / vsub < 2 ^ 16), gtFlags_eq dst_bounds.2.2.2, luma_left,
    chroma_left, evened_eq, fit?_of_lt (by omega : evenedWidth afbdc srcW dstW < 2 ^ 32), yrgb_eq,
    cbcr_eq]
  split <;> rfl

/-- A 4K picture on a Full-HD screen, with halved chroma. -/
theorem scale_factors_valid_halved :
    ∃ yrgb cbcr, vop2SetupScale false ⟨2, 1, 2, 1⟩ true 2 2 3840 2160 1920 1080 =
        some (yrgb, cbcr) ∧
      ComponentValid 3840 2160 (evenedWidth false 3840 1920) 1080 yrgb ∧
      (true = true → ∃ regs, cbcr = some regs ∧
        ComponentValid (3840 / 2) (2160 / 2) (evenedWidth false 3840 1920) 1080 regs) := by
  have plane : ScaledPlane ⟨0, 0, 3840 * 2 ^ 16, 2160 * 2 ^ 16⟩ ⟨0, 0, 1920, 1080⟩ := by
    constructor <;> decide
  exact scale_factors_valid plane false true rfl rfl (by decide) (by decide) (by decide)
    (by decide) (by decide) (by decide) (by decide) (by decide)

end Vop
end RockchipSoc
