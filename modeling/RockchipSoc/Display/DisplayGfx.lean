import RockchipSoc.Foundation.CheckedArith
import RockchipSoc.Foundation.PixelRect

/-!
# Blits by the graphics accelerator

`doFlit` hands a source and a destination rectangle to `improcess`, with origins rounded down and
extents rounded up to even numbers.
-/

namespace RockchipSoc
namespace Gfx

open CInt

inductive PixelFormat
  | rgb565 | rgba4444 | rgba5551 | rgbx8888 | rgba8888 | rgb888
  | bgr565 | bgra4444 | bgra5551 | bgrx8888 | bgra8888
  | ycbcr422Sp | ycrcb422Sp | ycbcr420Sp | ycrcb420Sp
  | ycbcr422P | ycrcb422P | ycbcr420P | ycrcb420P
  | yuyv422Pkg | uyvy422Pkg | yvyu422Pkg | vyuy422Pkg
  | other (value : Nat)
  deriving DecidableEq, Repr

inductive RgaSurfFormat
  | rgb565 | rgba4444 | rgba5551 | rgbx8888 | rgba8888 | rgb888
  | bgr565 | bgra4444 | bgra5551 | bgrx8888 | bgra8888
  | yCbCr420Sp | yCrCb422Sp | yCrCb420Sp | yCbCr422P | yCrCb422P | yCbCr420P | yCrCb420P
  | yuyv422 | uyvy422 | vyuy422 | unknown
  deriving DecidableEq, Repr

/-- The format of the accelerator, and `isYuv`, which an unknown format leaves alone. -/
def colorSpaceModeChange (isYuv : Bool) : PixelFormat → RgaSurfFormat × Bool
  | .rgb565 => (.rgb565, false)
  | .rgba4444 => (.rgba4444, false)
  | .rgba5551 => (.rgba5551, false)
  | .rgbx8888 => (.rgbx8888, false)
  | .rgba8888 => (.rgba8888, false)
  | .rgb888 => (.rgb888, false)
  | .bgr565 => (.bgr565, false)
  | .bgra4444 => (.bgra4444, false)
  | .bgra5551 => (.bgra5551, false)
  | .bgrx8888 => (.bgrx8888, false)
  | .bgra8888 => (.bgra8888, false)
  | .ycbcr422Sp => (.yCbCr420Sp, true)
  | .ycrcb422Sp => (.yCrCb422Sp, true)
  | .ycbcr420Sp => (.yCbCr420Sp, true)
  | .ycrcb420Sp => (.yCrCb420Sp, true)
  | .ycbcr422P => (.yCbCr422P, true)
  | .ycrcb422P => (.yCrCb422P, true)
  | .ycbcr420P => (.yCbCr420P, true)
  | .ycrcb420P => (.yCrCb420P, true)
  | .yuyv422Pkg => (.yuyv422, true)
  | .uyvy422Pkg => (.uyvy422, true)
  | .yvyu422Pkg => (.yuyv422, true)
  | .vyuy422Pkg => (.vyuy422, true)
  | .other _ => (.unknown, isYuv)

inductive BlendType
  | none | src | dst | srcOver | dstOver
  | other (value : Nat)
  deriving DecidableEq, Repr

def imAlphaBlendSrcOver : Nat := 2 ^ 6
def imAlphaBlendSrc : Nat := 2 ^ 7
def imAlphaBlendDst : Nat := 2 ^ 8
def imAlphaBlendDstOver : Nat := 2 ^ 13
def imSync : Nat := 2 ^ 19

/-- `none` is `IM_STATUS_NOT_SUPPORTED`; no blending is not asked for and adds nothing. -/
def blendTypeChange : BlendType → Option Nat
  | .none => some 0
  | .src => some imAlphaBlendSrc
  | .dst => some imAlphaBlendDst
  | .srcOver => some imAlphaBlendSrcOver
  | .dstOver => some imAlphaBlendDstOver
  | .other _ => Option.none

inductive TransformType
  | none | rotate90 | rotate180 | rotate270
  | mirrorH | mirrorV | mirrorHRotate90 | mirrorVRotate90
  | other (value : Nat)
  deriving DecidableEq, Repr

def transformTypeChange : TransformType → Nat
  | .rotate90 => 2 ^ 0
  | .rotate180 => 2 ^ 1
  | .rotate270 => 2 ^ 2
  | .mirrorH => 2 ^ 3
  | .mirrorV => 2 ^ 4
  | .mirrorHRotate90 => 2 ^ 0 ||| 2 ^ 4
  | .mirrorVRotate90 => 2 ^ 0 ||| 2 ^ 3
  | .none | .other _ => 0

/-- A surface, with `int32_t` values. -/
structure ISurface where
  phyAddr : BitVec 64
  width : ℤ
  height : ℤ
  stride : ℤ
  enColorFmt : PixelFormat

structure GfxOpt where
  enGlobalAlpha : Bool := false
  globalAlpha : Nat := 0
  blendType : BlendType := .none
  rotateType : TransformType := .none
  enableScale : Bool := false

structure RgaBuffer where
  fd : ℤ := 0
  width : ℤ := 0
  height : ℤ := 0
  wstride : ℤ := 0
  hstride : ℤ := 0
  format : RgaSurfFormat := .rgba8888
  globalAlpha : Nat := 0

/-- `ALIGN_UP` of an `int32_t`. -/
def alignUp (x a : ℤ) : ℤ := s32 (cdiv (s32 (x + (a - 1))) a * a)

/-- An odd origin is lowered. -/
def evenOrigin (n : ℤ) : ℤ := if n.tmod 2 = 1 then n - 1 else n

/-- An odd extent is raised. -/
def evenExtent (n : ℤ) : ℤ := if n.tmod 2 = 1 then s32 (n + 1) else n

def evenRect (rect : PixelRect) : PixelRect where
  x := evenOrigin rect.x
  y := evenOrigin rect.y
  width := evenExtent rect.width
  height := evenExtent rect.height

def rgaBuffer (surface : ISurface) (opt : GfxOpt) : RgaBuffer where
  fd := (surface.phyAddr.setWidth 32).toInt
  width := surface.width
  height := surface.height
  wstride := alignUp surface.width 16
  hstride := alignUp surface.height 2
  format := (colorSpaceModeChange false surface.enColorFmt).1
  globalAlpha := if opt.enGlobalAlpha then opt.globalAlpha else 0

def isYuv (surface : ISurface) : Bool := (colorSpaceModeChange false surface.enColorFmt).2

inductive DispErrCode
  | paramErr | notSupport
  deriving DecidableEq, Repr

/-- The arguments of `improcess`. -/
structure ImProcess where
  src : RgaBuffer
  dst : RgaBuffer
  pat : RgaBuffer
  srect : PixelRect
  drect : PixelRect
  prect : PixelRect
  usage : Nat

/-- The buffer that stands between source and destination. -/
def bRgbBuffer (dst : RgaBuffer) : RgaBuffer :=
  { dst with format := .rgba8888, fd := -1, globalAlpha := 0 }

/-- Without scaling the whole source goes to the lower right corner of the destination. -/
def cornerRect (src dst : RgaBuffer) : PixelRect :=
  ⟨dst.width - src.width, dst.height - src.height, src.width, src.height⟩

/-- The call of `improcess` for a source of luma and chroma, if there is one. -/
def flitYuv (src dst : RgaBuffer) (stride : ℤ) (srect drect : PixelRect) (opt : GfxOpt)
    (rkBlendType rkTransformType : Nat) : Option ImProcess :=
  if rkBlendType = imAlphaBlendSrcOver ∨ rkBlendType = imAlphaBlendSrc then
    some
      { src := { src with wstride := stride }
        dst := dst
        pat := {}
        srect := if opt.enableScale then srect else .ofSize src.width src.height
        drect := if opt.enableScale then drect else cornerRect src dst
        prect := .ofSize 0 0
        usage := rkTransformType ||| imSync }
  else if rkBlendType = imAlphaBlendDstOver then
    some
      { src := src
        dst := bRgbBuffer dst
        pat := dst
        srect := srect
        drect := drect
        prect := drect
        usage := rkBlendType ||| rkTransformType ||| imSync }
  else none

/-- `doFlit` up to the call of `improcess`. -/
def doFlit (srcSurface : ISurface) (srcRect : PixelRect) (dstSurface : ISurface)
    (dstRect : PixelRect) (opt : GfxOpt) : Except DispErrCode (Option ImProcess) :=
  let dst := rgaBuffer dstSurface opt
  let src := rgaBuffer srcSurface opt
  let srect := evenRect srcRect
  let drect := evenRect dstRect
  if isYuv dstSurface then .error .paramErr
  else if src.fd = 0 then .error .paramErr
  else
    match blendTypeChange opt.blendType with
    | none => .error .notSupport
    | some rkBlendType =>
        let rkTransformType := transformTypeChange opt.rotateType
        if isYuv srcSurface then
          .ok (flitYuv src dst srcSurface.stride srect drect opt rkBlendType rkTransformType)
        else
          .ok (some
            { src := src, dst := dst, pat := {}, srect := srect, drect := drect
              prect := .ofSize 0 0, usage := rkBlendType ||| rkTransformType ||| imSync })

/-! ## What a blit is asked for -/

/-- A rectangle of a surface with `int32_t` values. -/
structure InSurface (rect : PixelRect) (surface : ISurface) : Prop where
  x_nonneg : 0 ≤ rect.x
  y_nonneg : 0 ≤ rect.y
  width_nonneg : 0 ≤ rect.width
  height_nonneg : 0 ≤ rect.height
  right : rect.x + rect.width ≤ surface.width
  bottom : rect.y + rect.height ≤ surface.height
  width_lt : surface.width < 2 ^ 31
  height_lt : surface.height < 2 ^ 31
  stride_lt : surface.stride < 2 ^ 31

/-- The pixels asked for are in the rectangle handed over, and its pixels are in the buffer. -/
def Covers (asked handed : PixelRect) (buffer : RgaBuffer) : Prop :=
  asked.pixels ⊆ handed.pixels ∧
    handed.pixels ⊆ (PixelRect.ofSize buffer.wstride buffer.hstride).pixels

/-- Whatever is handed to `improcess` covers what was asked for. -/
def FlitCovers (srcSurface : ISurface) (srcRect : PixelRect) (dstSurface : ISurface)
    (dstRect : PixelRect) (opt : GfxOpt) : Prop :=
  ∀ call, doFlit srcSurface srcRect dstSurface dstRect opt = .ok (some call) →
    Covers srcRect call.srect call.src ∧ Covers dstRect call.drect call.dst

end Gfx
end RockchipSoc
