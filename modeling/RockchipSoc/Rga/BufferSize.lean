import Mathlib.Data.Nat.Basic
import Mathlib.Algebra.Ring.Nat

/-!
# Formats and buffer sizes

`user_format_convert` maps the format codes of user space to the driver's own formats and
`rga_buf_size_cal` computes the pages that an image of a format occupies, in 32 bit arithmetic.
The plane sizes take the truncation as a parameter, so that `requestedBytes` is the same formula
without it.
-/

namespace RockchipSoc
namespace Rga

/-- The formats of the driver. -/
inductive Rga2Format
  | rgba8888 | rgbx8888 | rgb888 | bgra8888 | bgrx8888 | bgr888 | rgb565 | rgba5551 | rgba4444
  | bgr565 | bgra5551 | bgra4444 | y4 | ycbcr400
  | ycbcr422sp | ycbcr422p | ycbcr420sp | ycbcr420p
  | ycrcb422sp | ycrcb422p | ycrcb420sp | ycrcb420p
  | yvyu422 | yvyu420 | vyuy422 | vyuy420 | yuyv422 | yuyv420 | uyvy422 | uyvy420
  | ycbcr420sp10b | ycrcb420sp10b | ycbcr422sp10b | ycrcb422sp10b
  | bpp1 | bpp2 | bpp4 | bpp8
  | argb8888 | xrgb8888 | argb5551 | argb4444 | abgr8888 | xbgr8888 | abgr5551 | abgr4444
  deriving DecidableEq, Repr

/-- A code without a case leaves `*df` as it was. -/
def userFormatConvert (df : Option Rga2Format) (sf : Nat) : Option Rga2Format :=
  match sf with
  | 0x0 => some .rgba8888
  | 0x1 => some .rgbx8888
  | 0x2 => some .rgb888
  | 0x3 => some .bgra8888
  | 0x4 => some .rgb565
  | 0x5 => some .rgba5551
  | 0x6 => some .rgba4444
  | 0x7 => some .bgr888
  | 0x16 => some .bgrx8888
  | 0x8 => some .ycbcr422sp
  | 0x9 => some .ycbcr422p
  | 0xa => some .ycbcr420sp
  | 0xb => some .ycbcr420p
  | 0xc => some .ycrcb422sp
  | 0xd => some .ycrcb422p
  | 0xe => some .ycrcb420sp
  | 0xf => some .ycrcb420p
  | 0x10 => some .bpp1
  | 0x11 => some .bpp2
  | 0x12 => some .bpp4
  | 0x13 => some .bpp8
  | 0x14 => some .y4
  | 0x15 => some .ycbcr400
  | 0x18 => some .yvyu422
  | 0x19 => some .yvyu420
  | 0x1a => some .vyuy422
  | 0x1b => some .vyuy420
  | 0x1c => some .yuyv422
  | 0x1d => some .yuyv420
  | 0x1e => some .uyvy422
  | 0x1f => some .uyvy420
  | 0x20 => some .ycbcr420sp10b
  | 0x21 => some .ycrcb420sp10b
  | 0x22 => some .ycbcr422sp10b
  | 0x23 => some .ycrcb422sp10b
  | 0x24 => some .bgr565
  | 0x25 => some .bgra5551
  | 0x26 => some .bgra4444
  | 0x28 => some .argb8888
  | 0x29 => some .xrgb8888
  | 0x2a => some .argb5551
  | 0x2b => some .argb4444
  | 0x2c => some .abgr8888
  | 0x2d => some .xbgr8888
  | 0x2e => some .abgr5551
  | 0x2f => some .abgr4444
  | _ => df

/-- Arithmetic in a `uint32_t`. -/
def u32 (n : Nat) : Nat := n % 2 ^ 32

/-- Arithmetic in an `unsigned long`. -/
def u64 (n : Nat) : Nat := n % 2 ^ 64

def pageShift (addr : Nat) : Nat := addr / 4096

/-- `(x + 3) & (~3)`. -/
def align4 (wrap : Nat → Nat) (x : Nat) : Nat := wrap (wrap x + 3) / 4 * 4

/-- The planes of an image, `size_yrgb` first, with `wrap` applied where the source computes in
32 bits.  A format without a case has none. -/
def planeSizes (wrap : Nat → Nat) (format : Rga2Format) (w h : Nat) : List Nat :=
  match format with
  | .rgba8888 | .rgbx8888 | .bgra8888 | .bgrx8888 | .argb8888 | .xrgb8888 | .abgr8888
  | .xbgr8888 => [wrap (align4 wrap (w * 4) * h)]
  | .rgb888 | .bgr888 => [wrap (align4 wrap (w * 3) * h)]
  | .rgb565 | .rgba5551 | .rgba4444 | .bgr565 | .bgra5551 | .bgra4444 | .argb5551 | .argb4444
  | .abgr5551 | .abgr4444 => [wrap (align4 wrap (w * 2) * h)]
  | .ycbcr422sp | .ycrcb422sp | .yvyu422 | .vyuy422 | .yuyv422 | .uyvy422 =>
      [wrap (align4 wrap w * h), wrap (align4 wrap w * h)]
  | .ycbcr422p | .ycrcb422p =>
      [wrap (align4 wrap w * h), wrap (align4 wrap w / 2 * h), wrap (align4 wrap w / 2 * h)]
  | .ycbcr420sp | .ycrcb420sp | .yvyu420 | .vyuy420 | .yuyv420 | .uyvy420 | .ycbcr420sp10b
  | .ycrcb420sp10b => [wrap (align4 wrap w * h), wrap (align4 wrap w * (h / 2))]
  | .ycbcr420p | .ycrcb420p =>
      [wrap (align4 wrap w * h), wrap (align4 wrap w / 2 * (h / 2)),
        wrap (align4 wrap w / 2 * (h / 2))]
  | .ycbcr400 => [wrap (align4 wrap w * h)]
  | .y4 => [wrap (align4 wrap w / 2 * h)]
  | .ycbcr422sp10b | .ycrcb422sp10b | .bpp1 | .bpp2 | .bpp4 | .bpp8 => []

/-- What `rga_buf_size_cal` returns and stores through its pointers. -/
structure RgaBufSize where
  pageCount : Nat
  startAddr : Nat
  size : Nat
  deriving DecidableEq, Repr

/-- The pages from the lowest plane address to the highest plane end. -/
def rgaBufSizeCal (yrgbAddr uvAddr vAddr : Nat) (format : Option Rga2Format) (w h : Nat) :
    RgaBufSize :=
  let sizes := (format.map fun f => planeSizes u32 f w h).getD []
  match [yrgbAddr, uvAddr, vAddr].zip sizes with
  | [] => ⟨0, 0, 0⟩
  | first :: rest =>
      let start := pageShift (rest.foldl (fun low plane => min low plane.1) first.1)
      let last := rest.foldl (fun high plane => max high (u64 (plane.1 + plane.2)))
        (u64 (first.1 + first.2))
      ⟨u32 (u64 (pageShift (u64 (last + 4095)) + 2 ^ 64 - start)), start, u32 sizes.sum⟩

/-- The pages that the import of a user address pins: all planes start at that address. -/
def virtualPages (addr : Nat) (format : Option Rga2Format) (w h : Nat) : RgaBufSize :=
  rgaBufSizeCal addr addr addr format w h

/-- The bytes of a width, height and format of user space.  Formats that `rga_buf_size_cal` has no
case for count with their bits per pixel; an unknown code asks for nothing. -/
def requestedBytes (format w h : Nat) : Nat :=
  match userFormatConvert none format with
  | none => 0
  | some .bpp1 => (w + 7) / 8 * h
  | some .bpp2 => (w + 3) / 4 * h
  | some .bpp4 => (w + 1) / 2 * h
  | some .bpp8 => w * h
  | some .ycbcr422sp10b | some .ycrcb422sp10b => (planeSizes id .ycbcr422sp w h).sum
  | some f => (planeSizes id f w h).sum

example : rgaBufSizeCal 0x1010 0x1010 0x1010 (userFormatConvert none 0) 64 64 =
    ⟨5, 1, 16384⟩ := by decide

end Rga
end RockchipSoc
