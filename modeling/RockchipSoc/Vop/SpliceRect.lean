import Mathlib.Algebra.Order.Ring.Int
import Mathlib.Algebra.Order.Group.Abs
import Mathlib.Tactic.Linarith
import Mathlib.Tactic.Ring
import RockchipSoc.Vop.PlaneCheck

/-!
# Splitting a plane between two ports

A display that is too wide for one video port is shown by two of them, the left half by one and the
right half by the other.  A plane is split at the middle of the display, and its source at a whole
number of pixels.
-/

namespace RockchipSoc
namespace Vop

open CInt

/-- The rectangles of the two windows. -/
structure SpliceRects where
  leftSrc : DrmRect
  leftDst : DrmRect
  rightSrc : DrmRect
  rightDst : DrmRect
  deriving DecidableEq, Repr

/-- A cast to `u16`. -/
def u16 (n : ℤ) : ℤ := n % 2 ^ 16

/-- `vop2_calc_drm_rect_for_splice`, with `drm_rect_calc_hscale` as a parameter. -/
def vop2CalcDrmRectForSplice (calcHscale : DrmRect → DrmRect → ℤ → ℤ → ℤ) (crtcHdisplay : ℤ)
    (src dst : DrmRect) : SpliceRects :=
  let halfHdisplay := u16 (crtcHdisplay / 2)
  let hscale := calcHscale src dst 0 intMax
  let dstW := dst.width
  let srcW := whole src.width
  let leftDstW := min (u16 halfHdisplay) (u16 dst.x2) - dst.x1
  let leftDstW := if leftDstW < 0 then 0 else leftDstW
  let rightDstW := dstW - leftDstW
  let leftSrcW := if rightDstW = 0 then srcW else whole (s32 (leftDstW * hscale))
  let leftSrcX2 := s32 (src.x1 + s32 (leftSrcW * 2 ^ 16))
  let rightDstX1 := dst.x1 + leftDstW - halfHdisplay
  { leftSrc := ⟨src.x1, src.y1, leftSrcX2, src.y2⟩
    leftDst := ⟨dst.x1, dst.y1, dst.x1 + leftDstW, dst.y2⟩
    rightSrc := ⟨leftSrcX2, src.y1, src.x2, src.y2⟩
    rightDst := ⟨rightDstX1, dst.y1, rightDstX1 + rightDstW, dst.y2⟩ }

/-- The ratio of two widths in 1/65536, rounded down for enlarging and up for reducing. -/
def pessimisticScale (srcW dstW : ℤ) : ℤ :=
  if srcW > dstW * 2 ^ 16 then (srcW + dstW - 1) / dstW else srcW / dstW

/-- The documented behaviour of `drm_rect_calc_hscale` between its limits. -/
def CalculatesHscale (calcHscale : DrmRect → DrmRect → ℤ → ℤ → ℤ) : Prop :=
  ∀ src dst low high, 0 ≤ src.width → 0 < dst.width →
    low ≤ pessimisticScale src.width dst.width → pessimisticScale src.width dst.width ≤ high →
    calcHscale src dst low high = pessimisticScale src.width dst.width

/-- A pixel of a rectangle. -/
def DrmRect.Has (rect : DrmRect) (x y : ℤ) : Prop :=
  (rect.x1 ≤ x ∧ x < rect.x2) ∧ rect.y1 ≤ y ∧ y < rect.y2

/-- The two destinations are the parts of the plane on the two halves, the right one in the
coordinates of its port, and the two sources are the parts of the plane's source before and behind a
whole number of pixels. -/
structure SplitsPlane (crtcHdisplay : ℤ) (src dst : DrmRect) (rects : SpliceRects) : Prop where
  left : ∀ x y, rects.leftDst.Has x y ↔ dst.Has x y ∧ x < crtcHdisplay / 2
  right : ∀ x y, rects.rightDst.Has x y ↔ dst.Has (x + crtcHdisplay / 2) y ∧ 0 ≤ x
  right_inside : ∀ x y, rects.rightDst.Has x y → x < crtcHdisplay / 2
  begins : rects.leftSrc.x1 = src.x1
  meets : rects.rightSrc.x1 = rects.leftSrc.x2
  ends : rects.rightSrc.x2 = src.x2
  lines : (rects.leftSrc.y1 = src.y1 ∧ rects.leftSrc.y2 = src.y2) ∧
    rects.rightSrc.y1 = src.y1 ∧ rects.rightSrc.y2 = src.y2
  whole_pixels : ∃ pixels, rects.leftSrc.width = pixels * 2 ^ 16
  ordered : 0 ≤ rects.leftSrc.width ∧ 0 ≤ rects.rightSrc.width

/-- The position of the split in the source is at most so many 1/65536 pixels away from the one of
the split in the destination. -/
def SplitWithin (slack : ℤ) (src dst : DrmRect) (rects : SpliceRects) : Prop :=
  |rects.leftSrc.width * dst.width - src.width * rects.leftDst.width| ≤ slack * dst.width

/-- A source part is empty, in some sense, if its destination part has no column. -/
def EmptyTogether (empty : DrmRect → Prop) (rects : SpliceRects) : Prop :=
  (rects.leftDst.width ≤ 0 → empty rects.leftSrc) ∧
    (rects.rightDst.width ≤ 0 → empty rects.rightSrc)

/-- No column, and no whole column: the latter is what disables a window. -/
def DrmRect.NoColumn (rect : DrmRect) : Prop := rect.width ≤ 0

def DrmRect.NoWholeColumn (rect : DrmRect) : Prop := whole rect.width = 0

/-- A visible plane of a mode of even width below 65536, with coordinates of 32 bits. -/
structure SplicedPlane (crtcHdisplay : ℤ) (src dst : DrmRect) : Prop where
  even : crtcHdisplay % 2 = 0
  narrow : crtcHdisplay < 2 ^ 16
  dst_begins : 0 ≤ dst.x1
  dst_visible : dst.x1 < dst.x2
  dst_ends : dst.x2 ≤ crtcHdisplay
  src_begins : -2 ^ 31 ≤ src.x1
  src_ends : src.x2 < 2 ^ 31
  src_nonneg : 0 ≤ src.width
  src_fits : src.width < 2 ^ 31

/-! ### The scaled column -/

variable {srcW dstW columns crtcHdisplay : ℤ} {src dst : DrmRect}

/-- The rounded ratio is less than one off. -/
theorem pessimisticScale_bounds (positive : 0 < dstW) :
    srcW - dstW < pessimisticScale srcW dstW * dstW ∧
      pessimisticScale srcW dstW * dstW < srcW + dstW := by
  unfold pessimisticScale
  split
  · have parts := Int.ediv_mul_add_emod (srcW + dstW - 1) dstW
    have rest := Int.emod_nonneg (srcW + dstW - 1) positive.ne'
    have rest' := Int.emod_lt_of_pos (srcW + dstW - 1) positive
    omega
  · have parts := Int.ediv_mul_add_emod srcW dstW
    have rest := Int.emod_nonneg srcW positive.ne'
    have rest' := Int.emod_lt_of_pos srcW positive
    omega

theorem pessimisticScale_nonneg (nonneg : 0 ≤ srcW) (positive : 0 < dstW) :
    0 ≤ pessimisticScale srcW dstW := by
  unfold pessimisticScale
  split
  · exact Int.ediv_nonneg (by omega) positive.le
  · exact Int.ediv_nonneg nonneg positive.le

theorem pessimisticScale_le (nonneg : 0 ≤ srcW) (positive : 0 < dstW) :
    pessimisticScale srcW dstW ≤ srcW := by
  have least : srcW ≤ srcW * dstW := le_mul_of_one_le_right nonneg positive
  unfold pessimisticScale
  split
  · refine Int.le_of_lt_add_one ((Int.ediv_lt_iff_lt_mul positive).mpr ?_)
    rw [add_mul, one_mul]
    omega
  · exact Int.ediv_le_self _ nonneg

/-- Of a proper part of the columns, the scaled width is a part of the source. -/
theorem scaled_le (nonneg : 0 ≤ srcW) (columns_nonneg : 0 ≤ columns) (proper : columns < dstW)
    (narrow : dstW < 2 ^ 16) :
    0 ≤ columns * pessimisticScale srcW dstW ∧
      columns * pessimisticScale srcW dstW ≤ srcW := by
  have positive : 0 < dstW := by omega
  have scale_nonneg := pessimisticScale_nonneg nonneg positive
  refine ⟨mul_nonneg columns_nonneg scale_nonneg, ?_⟩
  have less : columns * pessimisticScale srcW dstW ≤ (dstW - 1) * pessimisticScale srcW dstW :=
    mul_le_mul_of_nonneg_right (by omega) scale_nonneg
  refine less.trans ?_
  rw [sub_mul, one_mul, mul_comm]
  by_cases reduces : srcW > dstW * 2 ^ 16
  · have above := (@pessimisticScale_bounds srcW dstW positive).2
    -- A reduced column is wider than the rounding of all columns.
    have wide : 2 ^ 16 ≤ pessimisticScale srcW dstW := by
      unfold pessimisticScale
      rw [if_pos reduces, Int.le_ediv_iff_mul_le positive]
      omega
    omega
  · unfold pessimisticScale at scale_nonneg ⊢
    rw [if_neg reduces] at scale_nonneg ⊢
    have least := Int.ediv_mul_le srcW positive.ne'
    omega

/-- The whole pixels of the scaled width are less than one pixel and the rounding of each column off
the exact part of the source. -/
theorem scaled_within (positive : 0 < dstW) (columns_nonneg : 0 ≤ columns) :
    |whole (columns * pessimisticScale srcW dstW) * 2 ^ 16 * dstW - srcW * columns| ≤
      (2 ^ 16 + columns) * dstW := by
  obtain ⟨below, above⟩ := @pessimisticScale_bounds srcW dstW positive
  have low := mul_le_mul_of_nonneg_left below.le columns_nonneg
  have high := mul_le_mul_of_nonneg_left above.le columns_nonneg
  have parts := Int.ediv_mul_add_emod (columns * pessimisticScale srcW dstW) (2 ^ 16)
  have rest := Int.emod_nonneg (columns * pessimisticScale srcW dstW) (by decide : (2 ^ 16 : ℤ) ≠ 0)
  have rest' := Int.emod_lt_of_pos (columns * pessimisticScale srcW dstW)
    (by decide : (0 : ℤ) < 2 ^ 16)
  have lost := mul_nonneg rest positive.le
  have lost' := mul_le_mul_of_nonneg_right rest'.le positive.le
  unfold whole
  have split : columns * pessimisticScale srcW dstW / 2 ^ 16 * 2 ^ 16 * dstW =
      columns * (pessimisticScale srcW dstW * dstW) -
        columns * pessimisticScale srcW dstW % 2 ^ 16 * dstW := by
    rw [eq_sub_of_add_eq parts, sub_mul, mul_assoc]
  rw [split, abs_le, add_mul]
  constructor <;> linarith only [low, high, lost, lost']

/-! ### The split -/

/-- The columns of the left part. -/
def leftColumns (crtcHdisplay : ℤ) (dst : DrmRect) : ℤ :=
  max 0 (min (crtcHdisplay / 2) dst.x2 - dst.x1)

/-- The whole pixels of the left part's source. -/
def leftPixels (crtcHdisplay : ℤ) (src dst : DrmRect) : ℤ :=
  if leftColumns crtcHdisplay dst = dst.width then whole src.width
  else whole (leftColumns crtcHdisplay dst * pessimisticScale src.width dst.width)

/-- A left part that is not the whole plane is a part of it. -/
theorem leftColumns_of_proper (plane : SplicedPlane crtcHdisplay src dst)
    (proper : leftColumns crtcHdisplay dst ≠ dst.width) :
    (0 ≤ leftColumns crtcHdisplay dst ∧ leftColumns crtcHdisplay dst < dst.width) ∧
      dst.width < 2 ^ 16 := by
  obtain ⟨-, narrow, dst_begins, dst_visible, dst_ends, -, -, -, -⟩ := plane
  unfold leftColumns DrmRect.width at proper ⊢
  omega

theorem leftPixels_bounds (plane : SplicedPlane crtcHdisplay src dst) :
    0 ≤ leftPixels crtcHdisplay src dst ∧
      leftPixels crtcHdisplay src dst * 2 ^ 16 ≤ src.width := by
  have nonneg := plane.src_nonneg
  unfold leftPixels
  split
  · unfold whole
    omega
  · next proper =>
      obtain ⟨part, inside⟩ := leftColumns_of_proper plane proper
      have scaled := scaled_le nonneg part.1 part.2 inside
      unfold whole
      omega

/-- What the function computes, where nothing wraps. -/
theorem vop2CalcDrmRectForSplice_eq (plane : SplicedPlane crtcHdisplay src dst)
    {calcHscale : DrmRect → DrmRect → ℤ → ℤ → ℤ} (calculates : CalculatesHscale calcHscale) :
    vop2CalcDrmRectForSplice calcHscale crtcHdisplay src dst =
      { leftSrc := ⟨src.x1, src.y1, src.x1 + leftPixels crtcHdisplay src dst * 2 ^ 16, src.y2⟩
        leftDst := ⟨dst.x1, dst.y1, dst.x1 + leftColumns crtcHdisplay dst, dst.y2⟩
        rightSrc := ⟨src.x1 + leftPixels crtcHdisplay src dst * 2 ^ 16, src.y1, src.x2, src.y2⟩
        rightDst := ⟨dst.x1 + leftColumns crtcHdisplay dst - crtcHdisplay / 2, dst.y1,
          dst.x2 - crtcHdisplay / 2, dst.y2⟩ } := by
  have pixels := leftPixels_bounds plane
  have part := leftColumns_of_proper plane
  obtain ⟨-, narrow, dst_begins, dst_visible, dst_ends, src_begins, src_ends, nonneg, fits⟩ := plane
  have positive : 0 < dst.width := by
    unfold DrmRect.width
    omega
  have scale : calcHscale src dst 0 intMax = pessimisticScale src.width dst.width := by
    refine calculates src dst 0 intMax nonneg positive (pessimisticScale_nonneg nonneg positive) ?_
    have least := pessimisticScale_le nonneg positive
    unfold intMax
    omega
  have columns : (if min (u16 (u16 (crtcHdisplay / 2))) (u16 dst.x2) - dst.x1 < 0 then 0
      else min (u16 (u16 (crtcHdisplay / 2))) (u16 dst.x2) - dst.x1) =
        leftColumns crtcHdisplay dst := by
    unfold leftColumns u16
    omega
  have product : dst.width - leftColumns crtcHdisplay dst ≠ 0 →
      s32 (leftColumns crtcHdisplay dst * pessimisticScale src.width dst.width) =
        leftColumns crtcHdisplay dst * pessimisticScale src.width dst.width := by
    intro proper
    obtain ⟨part, inside⟩ := part (by omega)
    obtain ⟨scaled_nonneg, scaled⟩ := scaled_le nonneg part.1 part.2 inside
    exact s32_of_fits (by omega) (by omega)
  have split : (if dst.width - leftColumns crtcHdisplay dst = 0 then whole src.width
      else whole (s32 (leftColumns crtcHdisplay dst *
        pessimisticScale src.width dst.width))) = leftPixels crtcHdisplay src dst := by
    unfold leftPixels
    by_cases all : leftColumns crtcHdisplay dst = dst.width
    · rw [if_pos (by omega), if_pos all]
    · rw [if_neg (by omega), if_neg all, product (by omega)]
  have half : u16 (crtcHdisplay / 2) = crtcHdisplay / 2 := by
    unfold u16
    omega
  have width_eq : dst.x1 + dst.width = dst.x2 := by
    unfold DrmRect.width
    omega
  have src_width : src.x1 + src.width = src.x2 := by
    unfold DrmRect.width
    omega
  unfold vop2CalcDrmRectForSplice
  simp only [scale, columns, split]
  rw [half, s32_of_fits (by omega : -2 ^ 31 ≤ leftPixels crtcHdisplay src dst * 2 ^ 16) (by omega),
    s32_of_fits (by omega) (by omega)]
  congr 2
  omega

/-- A plane is split as it should be, with the source's split within one source pixel and 1/65536
pixel for each column of the left part, and no whole source pixel for a part without a column. -/
theorem splice_splits_plane (plane : SplicedPlane crtcHdisplay src dst)
    {calcHscale : DrmRect → DrmRect → ℤ → ℤ → ℤ} (calculates : CalculatesHscale calcHscale)
    {rects : SpliceRects}
    (result : vop2CalcDrmRectForSplice calcHscale crtcHdisplay src dst = rects) :
    SplitsPlane crtcHdisplay src dst rects ∧
      SplitWithin (2 ^ 16 + rects.leftDst.width) src dst rects ∧
      EmptyTogether DrmRect.NoWholeColumn rects := by
  obtain ⟨pixels, pixels_le⟩ := leftPixels_bounds plane
  rw [vop2CalcDrmRectForSplice_eq plane calculates] at result
  subst result
  obtain ⟨even, narrow, dst_begins, dst_visible, dst_ends, -, -, nonneg, -⟩ := plane
  have positive : 0 < dst.width := by
    unfold DrmRect.width
    omega
  have columns : leftColumns crtcHdisplay dst =
    max 0 (min (crtcHdisplay / 2) dst.x2 - dst.x1) := rfl
  have src_width : src.width = src.x2 - src.x1 := rfl
  have dst_width : dst.width = dst.x2 - dst.x1 := rfl
  refine ⟨?_, ?_, ?_, ?_⟩
  · constructor
    · intro x y
      simp only [DrmRect.Has]
      omega
    · intro x y
      simp only [DrmRect.Has]
      omega
    · intro x y
      simp only [DrmRect.Has]
      omega
    · rfl
    · rfl
    · rfl
    · exact ⟨⟨rfl, rfl⟩, rfl, rfl⟩
    · exact ⟨leftPixels crtcHdisplay src dst, add_sub_cancel_left _ _⟩
    · simp only [DrmRect.width] at pixels_le ⊢
      omega
  · simp only [SplitWithin, DrmRect.width, add_sub_cancel_left]
    rw [← src_width, ← dst_width]
    unfold leftPixels
    split
    · next all =>
        have parts := Int.ediv_mul_add_emod src.width (2 ^ 16)
        have rest := Int.emod_nonneg src.width (by decide : (2 ^ 16 : ℤ) ≠ 0)
        have rest' := Int.emod_lt_of_pos src.width (by decide : (0 : ℤ) < 2 ^ 16)
        have lost := mul_le_mul_of_nonneg_right rest'.le positive.le
        have lost' := mul_nonneg rest positive.le
        have columns_nonneg := mul_nonneg positive.le positive.le
        rw [all, whole, eq_sub_of_add_eq parts, abs_le, sub_mul, add_mul]
        constructor <;> linarith only [lost, lost', columns_nonneg]
    · exact scaled_within positive (by omega)
  · intro empty
    simp only [DrmRect.width] at empty
    have no_pixel : leftPixels crtcHdisplay src dst = 0 := by
      have none_left : leftColumns crtcHdisplay dst = 0 := by omega
      rw [leftPixels, if_neg (by omega), none_left, zero_mul]
      rfl
    simp only [DrmRect.NoWholeColumn, DrmRect.width, no_pixel]
    simp [whole]
  · intro empty
    simp only [DrmRect.width] at empty
    have all_pixels : leftPixels crtcHdisplay src dst = whole src.width := if_pos (by omega)
    simp only [DrmRect.NoWholeColumn, all_pixels, whole, DrmRect.width]
    omega

/-! ### Planes -/

/-- `drm_rect_calc_hscale`. -/
def drmRectCalcHscale (src dst : DrmRect) (low high : ℤ) : ℤ :=
  if src.width < 0 ∨ dst.width < 0 then planeInvalid
  else if dst.width = 0 then 0
  else if pessimisticScale src.width dst.width < low ∨
      high < pessimisticScale src.width dst.width then -34
  else pessimisticScale src.width dst.width

theorem calculatesHscale_drmRectCalcHscale : CalculatesHscale drmRectCalcHscale := by
  intro src dst low high nonneg positive above below
  unfold drmRectCalcHscale
  rw [if_neg (by omega), if_neg (by omega), if_neg (by omega)]

/-- A picture of 4K on the whole of an 8K display. -/
theorem splice_splits_plane_whole :
    SplitsPlane 7680 ⟨0, 0, 3840 * 2 ^ 16, 2160 * 2 ^ 16⟩ ⟨0, 0, 7680, 4320⟩
      (vop2CalcDrmRectForSplice drmRectCalcHscale 7680 ⟨0, 0, 3840 * 2 ^ 16, 2160 * 2 ^ 16⟩
        ⟨0, 0, 7680, 4320⟩) ∧
    SplitWithin (2 ^ 16 + (vop2CalcDrmRectForSplice drmRectCalcHscale 7680
        ⟨0, 0, 3840 * 2 ^ 16, 2160 * 2 ^ 16⟩ ⟨0, 0, 7680, 4320⟩).leftDst.width)
      ⟨0, 0, 3840 * 2 ^ 16, 2160 * 2 ^ 16⟩ ⟨0, 0, 7680, 4320⟩
      (vop2CalcDrmRectForSplice drmRectCalcHscale 7680 ⟨0, 0, 3840 * 2 ^ 16, 2160 * 2 ^ 16⟩
        ⟨0, 0, 7680, 4320⟩) ∧
    EmptyTogether DrmRect.NoWholeColumn
      (vop2CalcDrmRectForSplice drmRectCalcHscale 7680 ⟨0, 0, 3840 * 2 ^ 16, 2160 * 2 ^ 16⟩
        ⟨0, 0, 7680, 4320⟩) := by
  refine splice_splits_plane ?_ calculatesHscale_drmRectCalcHscale rfl
  constructor <;> decide

/-- A thousand pixels on 1001 columns, of which a thousand lie on the left: the source is split two
pixels and not one before its end, where the exact position is 1/1001 behind the latter.  A source
of 100.5 pixels that lies on the left leaves half a pixel for the right. -/
theorem splice_misses_a_pixel :
    ¬SplitWithin (2 ^ 16) ⟨0, 0, 1000 * 2 ^ 16, 1000 * 2 ^ 16⟩ ⟨2840, 0, 3841, 1000⟩
      (vop2CalcDrmRectForSplice drmRectCalcHscale 7680 ⟨0, 0, 1000 * 2 ^ 16, 1000 * 2 ^ 16⟩
        ⟨2840, 0, 3841, 1000⟩) ∧
    ¬EmptyTogether DrmRect.NoColumn
      (vop2CalcDrmRectForSplice drmRectCalcHscale 7680 ⟨0, 0, 100 * 2 ^ 16 + 2 ^ 15, 100 * 2 ^ 16⟩
        ⟨0, 0, 100, 100⟩) := by
  constructor
  · unfold SplitWithin
    decide
  · unfold EmptyTogether DrmRect.NoColumn
    decide

end Vop
end RockchipSoc
