import RockchipSoc.Display.DisplayGfx

/-!
# The rectangles of a blit

An odd origin is lowered by one and an even extent stays as it is, so that the last column or row of
such a rectangle is left out.
-/

namespace RockchipSoc
namespace Gfx

open CInt PixelRect

/-! ## Rounding -/

theorem evenOrigin_eq {n : ℤ} (nonneg : 0 ≤ n) : evenOrigin n = n - n % 2 := by
  rw [evenOrigin, Int.tmod_eq_emod_of_nonneg nonneg]
  split <;> omega

theorem evenExtent_eq {n : ℤ} (nonneg : 0 ≤ n) (fits : n + 1 < 2 ^ 31) :
    evenExtent n = n + n % 2 := by
  rw [evenExtent, Int.tmod_eq_emod_of_nonneg nonneg]
  split
  · rw [s32_of_fits (by omega) fits]
    omega
  · omega

/-- The largest extent is odd, and raising it wraps. -/
theorem evenExtent_wraps {n : ℤ} (wraps : n + 1 = 2 ^ 31) : evenExtent n = -2 ^ 31 := by
  obtain rfl : n = 2 ^ 31 - 1 := by omega
  rfl

theorem alignUp_eq {x a : ℤ} (nonneg : 0 ≤ x) (positive : 0 < a) (fits : x + (a - 1) < 2 ^ 31) :
    alignUp x a = (x + (a - 1)) / a * a := by
  have sum : 0 ≤ x + (a - 1) := by omega
  have below : (x + (a - 1)) / a * a ≤ x + (a - 1) := Int.ediv_mul_le _ positive.ne'
  have above : 0 ≤ (x + (a - 1)) / a * a := mul_nonneg (Int.ediv_nonneg sum positive.le) positive.le
  rw [alignUp, s32_of_fits (by omega) fits, cdiv_of_nonneg sum, s32_of_fits (by omega) (by omega)]

/-- A sum that wraps is negative, and so is what is made of it. -/
theorem alignUp_neg {x a : ℤ} (fits : x < 2 ^ 31) (positive : 0 < a) (small : a ≤ 16)
    (wraps : 2 ^ 31 ≤ x + (a - 1)) : alignUp x a < 0 := by
  have wrapped : s32 (x + (a - 1)) = x + (a - 1) - 2 ^ 32 := by
    unfold s32
    omega
  have quotient : cdiv (x + (a - 1) - 2 ^ 32) a = -((2 ^ 32 - x - (a - 1)) / a) := by
    have opposite : x + (a - 1) - 2 ^ 32 = -(2 ^ 32 - x - (a - 1)) := by omega
    rw [opposite, cdiv_neg, cdiv_of_nonneg (by omega)]
  have division := Int.ediv_mul_le (2 ^ 32 - x - (a - 1)) positive.ne'
  have remainder := Int.lt_ediv_add_one_mul_self (2 ^ 32 - x - (a - 1)) positive
  rw [add_mul, one_mul] at remainder
  rw [alignUp, wrapped, quotient, neg_mul, s32_of_fits (by omega) (by omega)]
  omega

theorem le_alignUp_iff {x a : ℤ} (nonneg : 0 ≤ x) (fits : x < 2 ^ 31) (positive : 0 < a)
    (small : a ≤ 16) : x ≤ alignUp x a ↔ x + (a - 1) < 2 ^ 31 := by
  constructor
  · intro above
    by_contra wraps
    have negative := alignUp_neg fits positive small (not_lt.mp wraps)
    omega
  · intro room
    have division := Int.lt_ediv_add_one_mul_self (x + (a - 1)) positive
    rw [add_mul, one_mul] at division
    rw [alignUp_eq nonneg positive room]
    omega

/-! ## A rounded rectangle -/

variable {rect : PixelRect} {surface : ISurface}

/-- What rounding needs of one direction: an odd origin comes with an odd extent. -/
def KeepsEnd (origin extent : ℤ) : Prop := origin % 2 = 1 → extent % 2 = 1

instance (origin extent : ℤ) : Decidable (KeepsEnd origin extent) :=
  inferInstanceAs (Decidable (_ → _))

/-- A rectangle without a pixel, or one whose rounding loses no pixel and whose right end, rounded
up to an even number, is in the rows of the buffer; the height of the surface can be aligned. -/
def RoundsWithin (rect : PixelRect) (height wstride : ℤ) : Prop :=
  rect.width = 0 ∨ rect.height = 0 ∨
    (KeepsEnd rect.x rect.width ∧
      rect.x + rect.width + (rect.x + rect.width) % 2 ≤ wstride) ∧
    KeepsEnd rect.y rect.height ∧ height + 1 < 2 ^ 31

instance (rect : PixelRect) (height wstride : ℤ) : Decidable (RoundsWithin rect height wstride) :=
  inferInstanceAs (Decidable (_ ∨ _))

theorem covers_of_no_pixel {buffer : RgaBuffer} (none : rect.width = 0 ∨ rect.height = 0) :
    Covers rect (evenRect rect) buffer := by
  have zero : evenExtent 0 = 0 := rfl
  constructor
  · exact pixels_subset_iff.mpr (none.imp (fun width => width.le) fun height => Or.inl height.le)
  · refine pixels_subset_iff.mpr (none.imp (fun width => ?_) fun height => Or.inl ?_)
    · simp only [evenRect, width, zero, le_refl]
    · simp only [evenRect, height, zero, le_refl]

/-- One direction of a rounded rectangle: nothing is lost and nothing is too much. -/
theorem axis_iff {origin extent : ℤ} (area : ℤ) (origin_nonneg : 0 ≤ origin) (positive : 0 < extent)
    (fits : extent + 1 < 2 ^ 31) :
    (evenOrigin origin ≤ origin ∧ origin + extent ≤ evenOrigin origin + evenExtent extent) ∧
        0 ≤ evenOrigin origin ∧ evenOrigin origin + evenExtent extent ≤ 0 + area ↔
      KeepsEnd origin extent ∧ origin + extent + (origin + extent) % 2 ≤ area := by
  rw [evenOrigin_eq origin_nonneg, evenExtent_eq positive.le fits, KeepsEnd]
  omega

/-- A rounded row ends in the aligned height, if that does not wrap. -/
theorem rounded_le_alignUp_iff {stop size a : ℤ} (nonneg : 0 ≤ stop) (inside : stop ≤ size)
    (fits : size < 2 ^ 31) (even : a = 2 ∨ a = 16) :
    stop + stop % 2 ≤ alignUp size a ↔ size + (a - 1) < 2 ^ 31 := by
  have positive : 0 < a := by omega
  constructor
  · intro above
    by_contra wraps
    have negative := alignUp_neg fits positive (by omega) (not_lt.mp wraps)
    omega
  · intro room
    rw [alignUp_eq (nonneg.trans inside) positive room]
    rcases even with rfl | rfl <;> omega

/-- With a pixel, a rounded rectangle covers the one asked for by both directions. -/
theorem covers_evenRect_iff (inside : InSurface rect surface) {buffer : RgaBuffer}
    (rows : buffer.hstride = alignUp surface.height 2) (stride_lt : buffer.wstride < 2 ^ 31) :
    Covers rect (evenRect rect) buffer ↔ RoundsWithin rect surface.height buffer.wstride := by
  obtain ⟨x_nonneg, y_nonneg, width_nonneg, height_nonneg, right, bottom, width_lt, height_lt, _⟩ :=
    inside
  by_cases none : rect.width = 0 ∨ rect.height = 0
  · exact iff_of_true (covers_of_no_pixel none) (none.imp_right Or.inl)
  obtain ⟨some_column, some_row⟩ := not_or.mp none
  have wide : 0 < rect.width := by omega
  have high : 0 < rect.height := by omega
  rw [RoundsWithin, or_iff_right some_column, or_iff_right some_row, Covers, pixels_subset_iff,
    or_iff_right (not_le.mpr wide), or_iff_right (not_le.mpr high)]
  have row_stop : rect.y + rect.height ≤ surface.height := bottom
  by_cases width_wraps : rect.width + 1 = 2 ^ 31
  · have lost : (evenRect rect).width = -2 ^ 31 := evenExtent_wraps width_wraps
    have origin : (evenRect rect).x = rect.x - rect.x % 2 := evenOrigin_eq x_nonneg
    refine iff_of_false (fun both => ?_) fun both => ?_
    · have right := both.1.1.2
      omega
    · have fits := both.1.2
      omega
  by_cases height_wraps : rect.height + 1 = 2 ^ 31
  · have lost : (evenRect rect).height = -2 ^ 31 := evenExtent_wraps height_wraps
    have origin : (evenRect rect).y = rect.y - rect.y % 2 := evenOrigin_eq y_nonneg
    refine iff_of_false (fun both => ?_) fun both => ?_
    · have bottom := both.1.2.2
      omega
    · have fits := both.2.2
      omega
  have columns := axis_iff buffer.wstride x_nonneg wide (by omega)
  have lines := axis_iff buffer.hstride y_nonneg high (by omega)
  have some_columns : ¬(evenRect rect).width ≤ 0 := by
    simp only [evenRect, evenExtent_eq width_nonneg (by omega : rect.width + 1 < 2 ^ 31)]
    omega
  have some_rows : ¬(evenRect rect).height ≤ 0 := by
    simp only [evenRect, evenExtent_eq height_nonneg (by omega : rect.height + 1 < 2 ^ 31)]
    omega
  have last : rect.y + rect.height + (rect.y + rect.height) % 2 ≤ buffer.hstride ↔
      surface.height + 1 < 2 ^ 31 := by
    rw [rows]
    exact rounded_le_alignUp_iff (by omega) row_stop height_lt (Or.inl rfl)
  rw [last] at lines
  rw [pixels_subset_iff, or_iff_right some_columns, or_iff_right some_rows, ← columns, ← lines]
  exact ⟨fun ⟨⟨left, top⟩, right, bottom⟩ => ⟨⟨left, right⟩, top, bottom⟩,
    fun ⟨⟨left, right⟩, top, bottom⟩ => ⟨⟨left, top⟩, right, bottom⟩⟩

/-- The same in a buffer whose rows are as long as the aligned width. -/
def RoundsAligned (rect : PixelRect) (surface : ISurface) : Prop :=
  rect.width = 0 ∨ rect.height = 0 ∨
    (KeepsEnd rect.x rect.width ∧ surface.width + 15 < 2 ^ 31) ∧
    KeepsEnd rect.y rect.height ∧ surface.height + 1 < 2 ^ 31

instance (rect : PixelRect) (surface : ISurface) : Decidable (RoundsAligned rect surface) :=
  inferInstanceAs (Decidable (_ ∨ _))

theorem alignUp_lt {x a : ℤ} (nonneg : 0 ≤ x) (fits : x < 2 ^ 31) (positive : 0 < a)
    (small : a ≤ 16) : alignUp x a < 2 ^ 31 := by
  by_cases room : x + (a - 1) < 2 ^ 31
  · have division := Int.ediv_mul_le (x + (a - 1)) positive.ne'
    rw [alignUp_eq nonneg positive room]
    omega
  · exact (alignUp_neg fits positive small (not_lt.mp room)).trans (by omega)

theorem covers_evenRect_aligned_iff (inside : InSurface rect surface) {buffer : RgaBuffer}
    (columns : buffer.wstride = alignUp surface.width 16)
    (rows : buffer.hstride = alignUp surface.height 2) :
    Covers rect (evenRect rect) buffer ↔ RoundsAligned rect surface := by
  have right := inside.right
  have x_nonneg := inside.x_nonneg
  have width_nonneg := inside.width_nonneg
  have stride_lt : buffer.wstride < 2 ^ 31 :=
    columns ▸ alignUp_lt (by omega) inside.width_lt (by omega) (by omega)
  rw [covers_evenRect_iff inside rows stride_lt, RoundsWithin, RoundsAligned, columns,
    rounded_le_alignUp_iff (by omega) right inside.width_lt (Or.inr rfl)]
  rfl

/-! ## Blits without scaling -/

/-- The whole source is in its buffer. -/
def WholeFits (surface : ISurface) : Prop :=
  surface.width = 0 ∨ surface.height = 0 ∨
    surface.width ≤ surface.stride ∧ surface.height + 1 < 2 ^ 31

theorem covers_whole_iff (inside : InSurface rect surface) {buffer : RgaBuffer}
    (columns : buffer.wstride = surface.stride)
    (rows : buffer.hstride = alignUp surface.height 2) :
    Covers rect (.ofSize surface.width surface.height) buffer ↔ WholeFits surface := by
  obtain ⟨x_nonneg, y_nonneg, width_nonneg, height_nonneg, right, bottom, width_lt, height_lt, _⟩ :=
    inside
  have contained : rect.pixels ⊆ (ofSize surface.width surface.height).pixels :=
    pixels_subset_iff.mpr (Or.inr (Or.inr (by simp only [Bounded, ofSize]; omega)))
  have high : surface.height ≤ alignUp surface.height 2 ↔ surface.height + 1 < 2 ^ 31 :=
    le_alignUp_iff (by omega) height_lt (by omega) (by omega)
  rw [Covers, and_iff_right contained, pixels_subset_iff, WholeFits, ← high]
  simp only [Bounded, ofSize, columns, rows]
  omega

/-- The corner of the destination that the source takes has the rectangle asked for and is in the
destination. -/
def CornerFits (srcSurface dstSurface : ISurface) (dstRect : PixelRect) : Prop :=
  (dstRect.width = 0 ∨ dstRect.height = 0 ∨
    dstSurface.width ≤ dstRect.x + srcSurface.width ∧
      dstSurface.height ≤ dstRect.y + srcSurface.height) ∧
  (srcSurface.width = 0 ∨ srcSurface.height = 0 ∨
    (srcSurface.width ≤ dstSurface.width ∧ dstSurface.width + 15 < 2 ^ 31) ∧
      srcSurface.height ≤ dstSurface.height ∧ dstSurface.height + 1 < 2 ^ 31)

theorem covers_corner_iff {srcSurface dstSurface : ISurface} {srcRect dstRect : PixelRect}
    (source : InSurface srcRect srcSurface) (inside : InSurface dstRect dstSurface) (opt : GfxOpt) :
    Covers dstRect (cornerRect (rgaBuffer srcSurface opt) (rgaBuffer dstSurface opt))
      (rgaBuffer dstSurface opt) ↔ CornerFits srcSurface dstSurface dstRect := by
  obtain ⟨x_nonneg, y_nonneg, width_nonneg, height_nonneg, right, bottom, width_lt, height_lt, _⟩ :=
    inside
  have columns : dstSurface.width ≤ alignUp dstSurface.width 16 ↔ dstSurface.width + 15 < 2 ^ 31 :=
    le_alignUp_iff (by omega) width_lt (by omega) (by omega)
  have rows : dstSurface.height ≤ alignUp dstSurface.height 2 ↔ dstSurface.height + 1 < 2 ^ 31 :=
    le_alignUp_iff (by omega) height_lt (by omega) (by omega)
  have source_width : 0 ≤ srcSurface.width :=
    (Int.add_nonneg source.x_nonneg source.width_nonneg).trans source.right
  have source_height : 0 ≤ srcSurface.height :=
    (Int.add_nonneg source.y_nonneg source.height_nonneg).trans source.bottom
  rw [Covers, pixels_subset_iff, pixels_subset_iff, CornerFits, ← columns, ← rows]
  simp only [Bounded, ofSize, cornerRect, rgaBuffer]
  omega

/-! ## The call -/

variable {srcSurface dstSurface : ISurface} {srcRect dstRect : PixelRect} {opt : GfxOpt}

/-- `improcess` is called. -/
def Called (srcSurface dstSurface : ISurface) (opt : GfxOpt) : Prop :=
  isYuv dstSurface = false ∧ (rgaBuffer srcSurface opt).fd ≠ 0 ∧
    blendTypeChange opt.blendType ≠ none ∧
    (isYuv srcSurface = true →
      opt.blendType = .srcOver ∨ opt.blendType = .src ∨ opt.blendType = .dstOver)

/-- The source is read with the stride of the surface. -/
def strided (srcSurface : ISurface) (opt : GfxOpt) : Bool :=
  isYuv srcSurface && decide (opt.blendType = .srcOver ∨ opt.blendType = .src)

/-- What is handed over. -/
structure Handed (srcSurface : ISurface) (srcRect : PixelRect) (dstSurface : ISurface)
    (dstRect : PixelRect) (opt : GfxOpt) (call : ImProcess) : Prop where
  called : Called srcSurface dstSurface opt
  src_rows : call.src.hstride = alignUp srcSurface.height 2
  src_columns : call.src.wstride =
    if strided srcSurface opt then srcSurface.stride else alignUp srcSurface.width 16
  dst_columns : call.dst.wstride = alignUp dstSurface.width 16
  dst_rows : call.dst.hstride = alignUp dstSurface.height 2
  srect : call.srect =
    if strided srcSurface opt && !opt.enableScale then .ofSize srcSurface.width srcSurface.height
    else evenRect srcRect
  drect : call.drect =
    if strided srcSurface opt && !opt.enableScale then
      cornerRect (rgaBuffer srcSurface opt) (rgaBuffer dstSurface opt)
    else evenRect dstRect

/-- The call that is made of a supported blending. -/
def flitCall (srcSurface : ISurface) (srcRect : PixelRect) (dstSurface : ISurface)
    (dstRect : PixelRect) (opt : GfxOpt) (rkBlendType : Nat) : Option ImProcess :=
  if isYuv srcSurface then
    flitYuv (rgaBuffer srcSurface opt) (rgaBuffer dstSurface opt) srcSurface.stride
      (evenRect srcRect) (evenRect dstRect) opt rkBlendType (transformTypeChange opt.rotateType)
  else some
    { src := rgaBuffer srcSurface opt, dst := rgaBuffer dstSurface opt, pat := {}
      srect := evenRect srcRect, drect := evenRect dstRect, prect := .ofSize 0 0
      usage := rkBlendType ||| transformTypeChange opt.rotateType ||| imSync }

/-- `doFlit` calls `improcess` behind three checks. -/
theorem doFlit_eq_call_iff {call : ImProcess} :
    doFlit srcSurface srcRect dstSurface dstRect opt = .ok (some call) ↔
      isYuv dstSurface = false ∧ (rgaBuffer srcSurface opt).fd ≠ 0 ∧
        ∃ rkBlendType, blendTypeChange opt.blendType = some rkBlendType ∧
          flitCall srcSurface srcRect dstSurface dstRect opt rkBlendType = some call := by
  simp only [doFlit, flitCall]
  cases isYuv dstSurface with
  | true => simp
  | false =>
      by_cases no_fd : (rgaBuffer srcSurface opt).fd = 0
      · simp only [no_fd, Bool.false_eq_true, if_false, if_true]
        exact iff_of_false nofun fun checks => checks.2.1 rfl
      · cases blendTypeChange opt.blendType with
        | none =>
            simp only [no_fd, Bool.false_eq_true, if_false]
            exact iff_of_false nofun (by simp)
        | some rkBlendType =>
            cases isYuv srcSurface <;>
              simp only [no_fd, Bool.false_eq_true, if_false, if_true, Except.ok.injEq,
                Option.some.injEq, exists_eq_left', true_and, ne_eq, not_false_eq_true]

theorem blend_strided_iff {blend : BlendType} {rkBlendType : Nat}
    (supported : blendTypeChange blend = some rkBlendType) :
    (rkBlendType = imAlphaBlendSrcOver ∨ rkBlendType = imAlphaBlendSrc) ↔
      blend = .srcOver ∨ blend = .src := by
  cases blend with
  | other => cases supported
  | _ => obtain rfl := Option.some.inj supported; decide

theorem blend_dstOver_iff {blend : BlendType} {rkBlendType : Nat}
    (supported : blendTypeChange blend = some rkBlendType) :
    rkBlendType = imAlphaBlendDstOver ↔ blend = .dstOver := by
  cases blend with
  | other => cases supported
  | _ => obtain rfl := Option.some.inj supported; decide

theorem doFlit_handed {call : ImProcess}
    (handed : doFlit srcSurface srcRect dstSurface dstRect opt = .ok (some call)) :
    Handed srcSurface srcRect dstSurface dstRect opt call := by
  obtain ⟨rgb, fd, rkBlendType, supported, made⟩ := doFlit_eq_call_iff.mp handed
  have some_blend : blendTypeChange opt.blendType ≠ none := by rw [supported]; exact nofun
  cases yuv : isYuv srcSurface with
  | false =>
      simp only [flitCall, yuv, Bool.false_eq_true, if_false] at made
      obtain rfl := Option.some.inj made
      have direct : strided srcSurface opt = false := by simp [strided, yuv]
      exact ⟨⟨rgb, fd, some_blend, fun luma => by rw [yuv] at luma; cases luma⟩, rfl,
        by rw [direct]; rfl, rfl, rfl, by rw [direct]; rfl, by rw [direct]; rfl⟩
  | true =>
      simp only [flitCall, yuv, if_true, flitYuv, blend_strided_iff supported,
        blend_dstOver_iff supported] at made
      by_cases long : opt.blendType = .srcOver ∨ opt.blendType = .src
      · rw [if_pos long] at made
        obtain rfl := Option.some.inj made
        have long' : strided srcSurface opt = true := by simp [strided, yuv, long]
        exact ⟨⟨rgb, fd, some_blend, fun _ => long.imp_right Or.inl⟩, rfl, by rw [long']; rfl, rfl,
          rfl, by rw [long']; cases opt.enableScale <;> rfl,
          by rw [long']; cases opt.enableScale <;> rfl⟩
      · rw [if_neg long] at made
        obtain ⟨under, outcome⟩ := Option.ite_none_right_eq_some.mp made
        obtain rfl := Option.some.inj outcome
        have direct : strided srcSurface opt = false := by simp [strided, long]
        exact ⟨⟨rgb, fd, some_blend, fun _ => Or.inr (Or.inr under)⟩, rfl, by rw [direct]; rfl, rfl,
          rfl, by rw [direct]; rfl, by rw [direct]; rfl⟩

/-- In every case that is not refused, `improcess` is called. -/
theorem exists_call (called : Called srcSurface dstSurface opt) :
    ∃ call, doFlit srcSurface srcRect dstSurface dstRect opt = .ok (some call) := by
  obtain ⟨rgb, fd, some_blend, luma⟩ := called
  obtain ⟨rkBlendType, supported⟩ := Option.ne_none_iff_exists'.mp some_blend
  obtain ⟨call, made⟩ : ∃ call,
      flitCall srcSurface srcRect dstSurface dstRect opt rkBlendType = some call := by
    cases yuv : isYuv srcSurface with
    | false => exact ⟨_, by simp only [flitCall, yuv, Bool.false_eq_true, if_false]; rfl⟩
    | true =>
        simp only [flitCall, yuv, if_true, flitYuv, blend_strided_iff supported,
          blend_dstOver_iff supported]
        by_cases long : opt.blendType = .srcOver ∨ opt.blendType = .src
        · exact ⟨_, if_pos long⟩
        · have under := or_assoc.mpr (luma yuv) |>.resolve_left long
          exact ⟨_, (if_neg long).trans (if_pos under)⟩
  exact ⟨call, doFlit_eq_call_iff.mpr ⟨rgb, fd, rkBlendType, supported, made⟩⟩

/-! ## The whole function -/

/-- What the rectangles of a call need. -/
def RectsFit (srcSurface : ISurface) (srcRect : PixelRect) (dstSurface : ISurface)
    (dstRect : PixelRect) (opt : GfxOpt) : Prop :=
  match strided srcSurface opt, opt.enableScale with
  | true, true =>
      RoundsWithin srcRect srcSurface.height srcSurface.stride ∧ RoundsAligned dstRect dstSurface
  | true, false => WholeFits srcSurface ∧ CornerFits srcSurface dstSurface dstRect
  | false, _ => RoundsAligned srcRect srcSurface ∧ RoundsAligned dstRect dstSurface

theorem covers_iff_of_handed {call : ImProcess} (source : InSurface srcRect srcSurface)
    (inside : InSurface dstRect dstSurface)
    (handed : Handed srcSurface srcRect dstSurface dstRect opt call) :
    Covers srcRect call.srect call.src ∧ Covers dstRect call.drect call.dst ↔
      RectsFit srcSurface srcRect dstSurface dstRect opt := by
  obtain ⟨_, src_rows, src_columns, dst_columns, dst_rows, srect, drect⟩ := handed
  rw [srect, drect, RectsFit]
  cases long : strided srcSurface opt with
  | false =>
      simp only [long, Bool.false_eq_true, if_false, Bool.false_and] at src_columns ⊢
      rw [covers_evenRect_aligned_iff source src_columns src_rows,
        covers_evenRect_aligned_iff inside dst_columns dst_rows]
  | true =>
      simp only [long, if_true] at src_columns
      cases scaled : opt.enableScale with
      | true =>
          have stride_lt : call.src.wstride < 2 ^ 31 := src_columns ▸ source.stride_lt
          simp only [Bool.not_true, Bool.and_false, Bool.false_eq_true, if_false]
          rw [covers_evenRect_iff source src_rows stride_lt,
            covers_evenRect_aligned_iff inside dst_columns dst_rows, src_columns]
      | false =>
          have corner : Covers dstRect
              (cornerRect (rgaBuffer srcSurface opt) (rgaBuffer dstSurface opt)) call.dst ↔
              CornerFits srcSurface dstSurface dstRect := by
            rw [← covers_corner_iff source inside opt, Covers, Covers, dst_columns, dst_rows]
            rfl
          simp only [Bool.not_false, Bool.and_true, if_true]
          rw [covers_whole_iff source src_columns src_rows, corner]

/-- What `doFlit` hands to `improcess` covers what was asked for, within the buffers, if and only if
`improcess` is not called or the rectangles fit. -/
theorem doFlit_covers_iff (srcSurface : ISurface) (srcRect : PixelRect) (dstSurface : ISurface)
    (dstRect : PixelRect) (opt : GfxOpt) (source : InSurface srcRect srcSurface)
    (inside : InSurface dstRect dstSurface) :
    FlitCovers srcSurface srcRect dstSurface dstRect opt ↔
      (Called srcSurface dstSurface opt → RectsFit srcSurface srcRect dstSurface dstRect opt) := by
  constructor
  · intro covers called
    obtain ⟨call, made⟩ := exists_call called
    exact (covers_iff_of_handed source inside (doFlit_handed made)).mp (covers call made)
  · intro fits call made
    have handed := doFlit_handed made
    exact (covers_iff_of_handed source inside handed).mpr (fits handed.called)

/-- A surface of 16 by 16 pixels. -/
def smallSurface : ISurface := ⟨1, 16, 16, 16, .rgba8888⟩

theorem smallSurface_rect {x y width height : ℤ} (x_nonneg : 0 ≤ x) (y_nonneg : 0 ≤ y)
    (width_nonneg : 0 ≤ width) (height_nonneg : 0 ≤ height) (right : x + width ≤ 16)
    (bottom : y + height ≤ 16) : InSurface ⟨x, y, width, height⟩ smallSurface :=
  ⟨x_nonneg, y_nonneg, width_nonneg, height_nonneg, right, bottom, by decide, by decide, by decide⟩

theorem doFlit_covers_iff_oddEnd :
    FlitCovers smallSurface ⟨2, 2, 3, 4⟩ smallSurface ⟨0, 0, 15, 15⟩ {} ↔
      (Called smallSurface smallSurface {} →
        RectsFit smallSurface ⟨2, 2, 3, 4⟩ smallSurface ⟨0, 0, 15, 15⟩ {}) :=
  doFlit_covers_iff _ _ _ _ _
    (smallSurface_rect (by decide) (by decide) (by decide) (by decide) (by decide) (by decide))
    (smallSurface_rect (by decide) (by decide) (by decide) (by decide) (by decide) (by decide))

/-- Of the columns 1 and 2 the accelerator gets the columns 0 and 1. -/
theorem blit_loses_column :
    InSurface ⟨1, 0, 2, 2⟩ smallSurface ∧ InSurface ⟨0, 0, 2, 2⟩ smallSurface ∧
      ¬FlitCovers smallSurface ⟨1, 0, 2, 2⟩ smallSurface ⟨0, 0, 2, 2⟩ {} := by
  refine ⟨smallSurface_rect (by decide) (by decide) (by decide) (by decide) (by decide) (by decide),
    smallSurface_rect (by decide) (by decide) (by decide) (by decide) (by decide) (by decide),
    fun covers => ?_⟩
  have column : ((2, 0) : ℤ × ℤ) ∈ (⟨1, 0, 2, 2⟩ : PixelRect).pixels := by
    simp [pixels]
  have handed := (covers _ rfl).1.1 column
  have lost : ((2, 0) : ℤ × ℤ) ∉ (evenRect ⟨1, 0, 2, 2⟩).pixels := by
    simp [pixels, evenRect, evenOrigin, evenExtent]
  exact lost handed

end Gfx
end RockchipSoc
