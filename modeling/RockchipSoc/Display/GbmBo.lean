import RockchipSoc.Foundation.WordMultiples
import Mathlib.Tactic.Linarith

/-!
# Buffers for images of several planes

`hdi_gbm_bo_create` asks the kernel for a dumb buffer of one plane that is high enough for all
planes of the image.  The height is computed and aligned in 32 bits.
-/

namespace RockchipSoc
namespace Gralloc

open WordAlign

inductive DrmFormat
  | rgbx8888 | rgba8888 | bgrx8888 | bgra8888 | rgb888 | rgb565
  | bgrx4444 | bgra4444 | rgba4444 | rgbx4444 | bgrx5551 | bgra5551
  | nv12 | nv21 | nv16 | nv61 | yuv420 | yvu420 | yuv422 | yvu422
  | other (code : BitVec 32)
  deriving DecidableEq, Repr

/-- `radio` has `MAX_PLANES` entries. -/
structure PlaneLayoutInfo where
  numPlanes : Nat
  radio : List (BitVec 32)

structure FormatInfo where
  format : DrmFormat
  /-- Bits per pixel for the first plane. -/
  bitsPerPixel : BitVec 32
  planes : Option PlaneLayoutInfo

def maxPlanes : Nat := 3
def heightAlign : BitVec 32 := 2
def widthAlign : BitVec 32 := 8

def yuv420SPLayout : PlaneLayoutInfo := { numPlanes := 2, radio := [4, 2, 0] }
def yuv420PLayout : PlaneLayoutInfo := { numPlanes := 3, radio := [4, 1, 1] }
def yuv422SPLayout : PlaneLayoutInfo := { numPlanes := 2, radio := [4, 4, 0] }
def yuv422PLayout : PlaneLayoutInfo := { numPlanes := 3, radio := [4, 2, 2] }

def fmtInfos : List FormatInfo :=
  [⟨.rgbx8888, 32, none⟩, ⟨.rgba8888, 32, none⟩, ⟨.bgrx8888, 32, none⟩, ⟨.bgra8888, 32, none⟩,
    ⟨.rgb888, 24, none⟩, ⟨.rgb565, 16, none⟩, ⟨.bgrx4444, 16, none⟩, ⟨.bgra4444, 16, none⟩,
    ⟨.rgba4444, 16, none⟩, ⟨.rgbx4444, 16, none⟩, ⟨.bgrx5551, 16, none⟩, ⟨.bgra5551, 16, none⟩,
    ⟨.nv12, 8, some yuv420SPLayout⟩, ⟨.nv21, 8, some yuv420SPLayout⟩,
    ⟨.nv16, 8, some yuv422SPLayout⟩, ⟨.nv61, 8, some yuv422SPLayout⟩,
    ⟨.yuv420, 8, some yuv420PLayout⟩, ⟨.yvu420, 8, some yuv420PLayout⟩,
    ⟨.yuv422, 8, some yuv422PLayout⟩, ⟨.yvu422, 8, some yuv422PLayout⟩]

def getFormatInfo (format : DrmFormat) : Option FormatInfo :=
  fmtInfos.find? fun info => decide (info.format = format)

/-- `radio[0]`. -/
def PlaneLayoutInfo.luma (layout : PlaneLayoutInfo) : BitVec 32 := layout.radio.headD 0

/-- The loop over the other planes. -/
def PlaneLayoutInfo.radioSum (layout : PlaneLayoutInfo) : BitVec 32 :=
  (layout.radio.take (min layout.numPlanes maxPlanes)).tail.foldl (· + ·) layout.luma

def adjustStrideFromFormat (format : DrmFormat) (height : BitVec 32) : BitVec 32 :=
  match (getFormatInfo format).bind FormatInfo.planes with
  | none => height
  | some layout =>
      if 0 < layout.radioSum then divRoundUp (height * layout.radioSum) layout.luma else height

/-! ## The buffer -/

/-- What `hdi_gbm_bo_create` sets of `drm_mode_create_dumb`. -/
structure DumbRequest where
  height : BitVec 32
  width : BitVec 32
  bpp : BitVec 32
  flags : BitVec 32 := 0

/-- What the kernel sets. -/
structure DumbReply where
  handle : BitVec 32
  pitch : BitVec 32
  size : BitVec 64

structure GbmBo where
  width : BitVec 32
  height : BitVec 32
  format : DrmFormat
  handle : BitVec 32
  stride : BitVec 32
  size : BitVec 32

/-- `InitGbmBo` stores the size in 32 bits. -/
def initGbmBo (width height : BitVec 32) (format : DrmFormat) (dumb : DumbReply) : GbmBo where
  width := width
  height := height
  format := format
  handle := dumb.handle
  stride := dumb.pitch
  size := dumb.size.setWidth 32

def dumbRequest (info : FormatInfo) (width height : BitVec 32) : DumbRequest where
  height := alignUp (adjustStrideFromFormat info.format height) heightAlign
  width := alignUp width widthAlign
  bpp := info.bitsPerPixel

/-- `createDumb` is the ioctl, `allocated` tells whether `calloc` succeeds. -/
def hdiGbmBoCreate (createDumb : DumbRequest → Option DumbReply) (allocated : Bool)
    (width height : BitVec 32) (format : DrmFormat) : Option GbmBo :=
  (getFormatInfo format).bind fun info =>
    if allocated then
      (createDumb (dumbRequest info width height)).map (initGbmBo width height format)
    else none

/-- What the kernel promises of the buffers that it creates. -/
def DumbContract (createDumb : DumbRequest → Option DumbReply) : Prop :=
  ∀ request reply, createDumb request = some reply →
    request.width.toNat * request.bpp.toNat ≤ 8 * reply.pitch.toNat ∧
      reply.pitch.toNat * request.height.toNat ≤ reply.size.toNat ∧ reply.size.toNat < 2 ^ 32

/-! ## The image -/

/-- A plane of an image: by what the pitch and the rows of the image are divided. -/
structure PlaneShape where
  pitchDiv : Nat
  rowDiv : Nat

/-- The planes of the formats: `NV12` and its relatives have a plane of chroma pairs, the planar
formats two planes of half the pitch, 4:2:0 has a chroma row for two rows. -/
def planeShapes : DrmFormat → List PlaneShape
  | .nv12 | .nv21 => [⟨1, 1⟩, ⟨1, 2⟩]
  | .nv16 | .nv61 => [⟨1, 1⟩, ⟨1, 1⟩]
  | .yuv420 | .yvu420 => [⟨1, 1⟩, ⟨2, 2⟩, ⟨2, 2⟩]
  | .yuv422 | .yvu422 => [⟨1, 1⟩, ⟨2, 1⟩, ⟨2, 1⟩]
  | _ => [⟨1, 1⟩]

/-- The bytes of a plane, with the rows rounded up. -/
def PlaneShape.bytes (shape : PlaneShape) (pitch height : Nat) : Nat :=
  pitch / shape.pitchDiv * ((height + (shape.rowDiv - 1)) / shape.rowDiv)

def imageBytes (format : DrmFormat) (pitch height : Nat) : Nat :=
  ((planeShapes format).map fun shape => shape.bytes pitch height).sum

/-- An image of the buffer's width and height fits with the buffer's stride, if it has a pixel. -/
def HoldsImage (bo : GbmBo) (bitsPerPixel : BitVec 32) : Prop :=
  bo.width = 0 ∨ bo.height = 0 ∨
    bo.width.toNat * bitsPerPixel.toNat ≤ 8 * bo.stride.toNat ∧
      imageBytes bo.format bo.stride.toNat bo.height.toNat ≤ bo.size.toNat

/-- No sum that the width and the height go through reaches `2 ^ 32`. -/
def SumsFit (info : FormatInfo) (width height : BitVec 32) : Prop :=
  width.toNat + (widthAlign.toNat - 1) < 2 ^ 32 ∧
    match info.planes with
    | none => height.toNat + (heightAlign.toNat - 1) < 2 ^ 32
    | some layout =>
        height.toNat * layout.radioSum.toNat + (layout.luma.toNat - 1) < 2 ^ 32

/-! ## The rows of all planes -/

variable {format : DrmFormat} {info : FormatInfo} {width height : BitVec 32}

/-- The three kinds of formats. -/
inductive Kind (info : FormatInfo) (shapes : List PlaneShape) : Prop
  | packed (planes : info.planes = none) (wide : 16 ≤ info.bitsPerPixel.toNat)
      (shape : shapes = [⟨1, 1⟩])
  | halfRows (layout : PlaneLayoutInfo) (planes : info.planes = some layout)
      (bits : info.bitsPerPixel.toNat = 8) (luma : layout.luma = 4) (sum : layout.radioSum = 6)
      (shape : shapes = [⟨1, 1⟩, ⟨1, 2⟩] ∨ shapes = [⟨1, 1⟩, ⟨2, 2⟩, ⟨2, 2⟩])
  | fullRows (layout : PlaneLayoutInfo) (planes : info.planes = some layout)
      (bits : info.bitsPerPixel.toNat = 8) (luma : layout.luma = 4) (sum : layout.radioSum = 8)
      (shape : shapes = [⟨1, 1⟩, ⟨1, 1⟩] ∨ shapes = [⟨1, 1⟩, ⟨2, 1⟩, ⟨2, 1⟩])

theorem format_of_known (known : getFormatInfo format = some info) : info.format = format := by
  simpa using List.find?_some known

theorem kind_of_known (known : getFormatInfo format = some info) :
    Kind info (planeShapes format) := by
  cases format with
  | nv12 | nv21 =>
      obtain rfl := Option.some.inj known
      exact .halfRows yuv420SPLayout rfl rfl rfl rfl (Or.inl rfl)
  | yuv420 | yvu420 =>
      obtain rfl := Option.some.inj known
      exact .halfRows yuv420PLayout rfl rfl rfl rfl (Or.inr rfl)
  | nv16 | nv61 =>
      obtain rfl := Option.some.inj known
      exact .fullRows yuv422SPLayout rfl rfl rfl rfl (Or.inl rfl)
  | yuv422 | yvu422 =>
      obtain rfl := Option.some.inj known
      exact .fullRows yuv422PLayout rfl rfl rfl rfl (Or.inr rfl)
  | other code => cases known
  | _ =>
      obtain rfl := Option.some.inj known
      exact .packed rfl (by decide) rfl

/-- The rows of the pitch that the planes take together. -/
def imageRows (info : FormatInfo) (height : Nat) : Nat :=
  match info.planes with
  | none => height
  | some layout =>
      (height * layout.radioSum.toNat + (layout.luma.toNat - 1)) / layout.luma.toNat

/-- The height computed is the number of rows, unless its sum leaves 32 bits. -/
theorem toNat_adjustStrideFromFormat (known : getFormatInfo format = some info)
    (fits : SumsFit info width height) :
    (adjustStrideFromFormat format height).toNat = imageRows info height.toNat := by
  have bounds := fits.2
  cases kind_of_known known with
  | packed planes => simp only [adjustStrideFromFormat, imageRows, known, planes, Option.bind_some]
  | halfRows layout planes _ luma sum =>
      simp only [planes, luma, sum] at bounds
      have product : (height * (6 : BitVec 32)).toNat = height.toNat * 6 := by
        rw [BitVec.toNat_mul]
        exact Nat.mod_eq_of_lt (Nat.lt_of_le_of_lt (Nat.le_add_right _ _) bounds)
      simp only [adjustStrideFromFormat, imageRows, known, planes, Option.bind_some, luma, sum]
      rw [if_pos (by decide), toNat_divRoundUp (by decide) (product ▸ bounds), product]
      rfl
  | fullRows layout planes _ luma sum =>
      simp only [planes, luma, sum] at bounds
      have product : (height * (8 : BitVec 32)).toNat = height.toNat * 8 := by
        rw [BitVec.toNat_mul]
        exact Nat.mod_eq_of_lt (Nat.lt_of_le_of_lt (Nat.le_add_right _ _) bounds)
      simp only [adjustStrideFromFormat, imageRows, known, planes, Option.bind_some, luma, sum]
      rw [if_pos (by decide), toNat_divRoundUp (by decide) (product ▸ bounds), product]
      rfl

/-- Beside the luma rows there are rows of chroma, in one plane of the whole pitch or in two planes
of half the pitch. -/
theorem chroma_of_planes (known : getFormatInfo format = some info) (planes : info.planes ≠ none)
    (pitch height : Nat) :
    ∃ rows, (0 < height → 0 < rows) ∧ imageRows info height = height + rows ∧
      (imageBytes format pitch height = pitch * height + pitch * rows ∨
        imageBytes format pitch height =
          pitch * height + (pitch / 2 * rows + pitch / 2 * rows)) := by
  cases kind_of_known known with
  | packed none => exact absurd none planes
  | halfRows layout planes _ luma sum shape =>
      refine ⟨(height + 1) / 2, by omega, ?_, ?_⟩
      · simp only [imageRows, planes, luma, sum]
        change (height * 6 + 3) / 4 = _
        omega
      · exact shape.imp (fun shape => by simp [imageBytes, shape, PlaneShape.bytes])
          fun shape => by simp [imageBytes, shape, PlaneShape.bytes]
  | fullRows layout planes _ luma sum shape =>
      refine ⟨height, id, ?_, ?_⟩
      · simp only [imageRows, planes, luma, sum]
        change (height * 8 + 3) / 4 = _
        omega
      · exact shape.imp (fun shape => by simp [imageBytes, shape, PlaneShape.bytes])
          fun shape => by simp [imageBytes, shape, PlaneShape.bytes]

/-- The planes take no more than their rows of the pitch. -/
theorem imageBytes_le (known : getFormatInfo format = some info) (pitch height : Nat) :
    imageBytes format pitch height ≤ pitch * imageRows info height := by
  by_cases planes : info.planes = none
  · cases kind_of_known known with
    | packed planes _ shape => simp [imageBytes, shape, PlaneShape.bytes, imageRows, planes]
    | halfRows _ some | fullRows _ some =>
        rw [some] at planes
        cases planes
  · obtain ⟨rows, _, total, bytes⟩ := chroma_of_planes known planes pitch height
    rw [total, Nat.mul_add]
    rcases bytes with bytes | bytes
    · exact bytes.le
    · have halves : 2 * (pitch / 2) * rows ≤ pitch * rows :=
        Nat.mul_le_mul_right rows (Nat.mul_div_le pitch 2)
      rw [bytes, ← Nat.add_mul, ← Nat.two_mul]
      exact Nat.add_le_add_left halves _

/-- The first plane alone takes a pitch for each row. -/
theorem le_imageBytes (format : DrmFormat) (pitch height : Nat) :
    pitch * height ≤ imageBytes format pitch height := by
  cases format <;> simp [imageBytes, planeShapes, PlaneShape.bytes]

/-- With chroma an image takes nearly two pitches at least. -/
theorem two_pitches_le_imageBytes (known : getFormatInfo format = some info)
    (planes : info.planes ≠ none) {pitch height : Nat} (positive : 0 < height) :
    2 * pitch - 1 ≤ imageBytes format pitch height := by
  obtain ⟨rows, some, _, bytes⟩ := chroma_of_planes known planes pitch height
  have luma : pitch ≤ pitch * height := Nat.le_mul_of_pos_right pitch positive
  have pairs : pitch ≤ pitch * rows := Nat.le_mul_of_pos_right pitch (some positive)
  have half : pitch / 2 ≤ pitch / 2 * rows := Nat.le_mul_of_pos_right _ (some positive)
  rcases bytes with bytes | bytes <;> omega

/-- The rows can be aligned. -/
theorem imageRows_fit (known : getFormatInfo format = some info)
    (fits : SumsFit info width height) :
    imageRows info height.toNat + (heightAlign.toNat - 1) < 2 ^ 32 := by
  have bounds := fits.2
  change _ + 1 < 2 ^ 32
  cases kind_of_known known with
  | packed planes =>
      simp only [planes] at bounds
      simp only [imageRows, planes]
      exact bounds
  | halfRows layout planes _ luma | fullRows layout planes _ luma =>
      simp only [planes, luma] at bounds
      simp only [imageRows, planes, luma]
      change _ / 4 + 1 < 2 ^ 32
      omega

/-! ## What is created -/

variable {createDumb : DumbRequest → Option DumbReply} {allocated : Bool} {bo : GbmBo}

/-- A buffer is what the kernel answers to the request. -/
theorem created_cases (known : getFormatInfo format = some info)
    (created : hdiGbmBoCreate createDumb allocated width height format = some bo) :
    ∃ reply, createDumb (dumbRequest info width height) = some reply ∧
      bo = initGbmBo width height format reply := by
  rw [hdiGbmBoCreate, known, Option.bind_some] at created
  obtain ⟨_, answered⟩ := Option.ite_none_right_eq_some.mp created
  obtain ⟨reply, accepted, rfl⟩ := Option.map_eq_some_iff.mp answered
  exact ⟨reply, accepted, rfl⟩

theorem toNat_size (dumb : DumbReply) (small : dumb.size.toNat < 2 ^ 32) :
    (initGbmBo width height format dumb).size.toNat = dumb.size.toNat := by
  simp only [initGbmBo, BitVec.toNat_setWidth]
  exact Nat.mod_eq_of_lt small

/-- Without a wrapped sum, the kernel is asked for what the image takes. -/
theorem holdsImage_of_sumsFit (contract : DumbContract createDumb)
    (known : getFormatInfo format = some info) (fits : SumsFit info width height)
    (created : hdiGbmBoCreate createDumb allocated width height format = some bo) :
    HoldsImage bo info.bitsPerPixel := by
  obtain ⟨reply, accepted, rfl⟩ := created_cases known created
  obtain ⟨row, area, small⟩ := contract _ _ accepted
  refine Or.inr (Or.inr ⟨?_, ?_⟩)
  · have wide : width.toNat ≤ (alignUp width widthAlign).toNat := le_alignUp (by decide) fits.1
    exact (Nat.mul_le_mul_right _ wide).trans row
  · have rows := toNat_adjustStrideFromFormat known fits
    have room :
        (adjustStrideFromFormat format height).toNat + (heightAlign.toNat - 1) < 2 ^ 32 := by
      rw [rows]
      exact imageRows_fit known fits
    have high : imageRows info height.toNat ≤ (dumbRequest info width height).height.toNat := by
      rw [← rows, dumbRequest, format_of_known known]
      exact le_alignUp (by decide) room
    rw [toNat_size reply small]
    calc imageBytes format reply.pitch.toNat height.toNat
        ≤ reply.pitch.toNat * imageRows info height.toNat := imageBytes_le known _ _
      _ ≤ reply.pitch.toNat * (dumbRequest info width height).height.toNat :=
          Nat.mul_le_mul_left _ high
      _ ≤ reply.size.toNat := area

/-- The stride holds an aligned row, of eight pixels at least. -/
theorem eight_le_stride (known : getFormatInfo format = some info)
    (fits : width.toNat + (widthAlign.toNat - 1) < 2 ^ 32) (column : 0 < width.toNat) {stride : Nat}
    (aligned : (alignUp width widthAlign).toNat * info.bitsPerPixel.toNat ≤ 8 * stride) :
    8 ≤ stride := by
  have bits : 8 ≤ info.bitsPerPixel.toNat := by
    cases kind_of_known known with
    | packed _ wide => exact (by omega : 8 ≤ 16).trans wide
    | halfRows _ _ bits | fullRows _ _ bits => exact bits.ge
  have wide : width.toNat ≤ (alignUp width widthAlign).toNat := le_alignUp (by decide) fits
  have eight : 8 ≤ (alignUp width widthAlign).toNat :=
    Nat.le_of_dvd (column.trans_le wide) (dvd_alignUp (by decide) fits)
  have product := Nat.mul_le_mul eight bits
  omega

/-- An image whose width wraps takes `2 ^ 32` bytes. -/
theorem large_of_width (known : getFormatInfo format = some info)
    (wraps : ¬width.toNat + (widthAlign.toNat - 1) < 2 ^ 32) {stride rows : Nat} (some : 0 < rows)
    (wide : width.toNat * info.bitsPerPixel.toNat ≤ 8 * stride) (small : stride < 2 ^ 32) :
    2 ^ 32 ≤ imageBytes format stride rows := by
  have wraps : 2 ^ 32 ≤ width.toNat + 7 := Nat.le_of_not_lt wraps
  cases kind_of_known known with
  | packed _ bits =>
      have product := Nat.mul_le_mul_left width.toNat bits
      omega
  | halfRows layout planes bits | fullRows layout planes bits =>
      have twice : 2 * stride - 1 ≤ imageBytes format stride rows :=
        two_pitches_le_imageBytes known (planes ▸ Option.some_ne_none layout) some
      rw [bits] at wide
      omega

/-- An image whose height wraps takes `2 ^ 32` bytes. -/
theorem large_of_height (known : getFormatInfo format = some info)
    (fits : width.toNat + (widthAlign.toNat - 1) < 2 ^ 32) (wraps : ¬SumsFit info width height)
    {stride : Nat} (eight : 8 ≤ stride) : 2 ^ 32 ≤ imageBytes format stride height.toNat := by
  have luma := (Nat.mul_le_mul_right height.toNat eight).trans
    (le_imageBytes format stride height.toNat)
  refine Nat.le_trans ?_ luma
  have wraps := fun bounds => wraps ⟨fits, bounds⟩
  cases kind_of_known known with
  | packed planes =>
      simp only [planes] at wraps
      have wraps : 2 ^ 32 ≤ height.toNat + 1 := Nat.le_of_not_lt wraps
      omega
  | halfRows layout planes _ luma sum =>
      simp only [planes, luma, sum] at wraps
      have wraps : 2 ^ 32 ≤ height.toNat * 6 + 3 := Nat.le_of_not_lt wraps
      omega
  | fullRows layout planes _ luma sum =>
      simp only [planes, luma, sum] at wraps
      have wraps : 2 ^ 32 ≤ height.toNat * 8 + 3 := Nat.le_of_not_lt wraps
      omega

/-- A wrapped sum makes the buffer too small for an image with a pixel. -/
theorem sumsFit_of_holdsImage (contract : DumbContract createDumb)
    (known : getFormatInfo format = some info)
    (created : hdiGbmBoCreate createDumb allocated width height format = some bo)
    (column : width ≠ 0) (row : height ≠ 0) (holds : HoldsImage bo info.bitsPerPixel) :
    SumsFit info width height := by
  obtain ⟨reply, accepted, rfl⟩ := created_cases known created
  obtain ⟨aligned, _, small⟩ := contract _ _ accepted
  obtain ⟨wide, inside⟩ := (holds.resolve_left column).resolve_left row
  rw [toNat_size reply small] at inside
  have inside : imageBytes format reply.pitch.toNat height.toNat < 2 ^ 32 :=
    inside.trans_lt small
  have columns : 0 < width.toNat :=
    Nat.pos_of_ne_zero fun zero => column (BitVec.eq_of_toNat_eq zero)
  have rows : 0 < height.toNat :=
    Nat.pos_of_ne_zero fun zero => row (BitVec.eq_of_toNat_eq zero)
  by_contra wraps
  by_cases fits : width.toNat + (widthAlign.toNat - 1) < 2 ^ 32
  · have eight := eight_le_stride known fits columns aligned
    exact absurd (large_of_height known fits wraps eight) (not_le.mpr inside)
  · exact absurd (large_of_width known fits rows wide reply.pitch.isLt) (not_le.mpr inside)

/-- A buffer holds the image that it is created for if and only if the image has no pixel or no sum
of its width and height reaches `2 ^ 32`. -/
theorem hdi_gbm_bo_holds_image_iff (createDumb : DumbRequest → Option DumbReply)
    (contract : DumbContract createDumb) (allocated : Bool) (width height : BitVec 32)
    (format : DrmFormat) (info : FormatInfo) (known : getFormatInfo format = some info) (bo : GbmBo)
    (created : hdiGbmBoCreate createDumb allocated width height format = some bo) :
    HoldsImage bo info.bitsPerPixel ↔ width = 0 ∨ height = 0 ∨ SumsFit info width height := by
  constructor
  · intro holds
    by_cases column : width = 0
    · exact Or.inl column
    by_cases row : height = 0
    · exact Or.inr (Or.inl row)
    exact Or.inr (Or.inr (sumsFit_of_holdsImage contract known created column row holds))
  · obtain ⟨reply, _, rfl⟩ := created_cases known created
    rintro (column | row | fits)
    · exact Or.inl column
    · exact Or.inr (Or.inl row)
    · exact holdsImage_of_sumsFit contract known fits created

/-! ## A kernel -/

/-- The kernel rounds the bits of a row up to bytes and refuses requests that are empty or take
`2 ^ 32` bytes. -/
def kernelCreateDumb (request : DumbRequest) : Option DumbReply :=
  let pitch := (request.width.toNat * request.bpp.toNat + 7) / 8
  let size := pitch * request.height.toNat
  if 0 < size ∧ size < 2 ^ 32 ∧ pitch < 2 ^ 32 then
    some { handle := 1, pitch := .ofNat 32 pitch, size := .ofNat 64 size }
  else none

theorem kernelCreateDumb_contract : DumbContract kernelCreateDumb := by
  intro request reply accepted
  obtain ⟨⟨_, size, pitch⟩, outcome⟩ := Option.ite_none_right_eq_some.mp accepted
  obtain rfl := Option.some.inj outcome
  have wide : (BitVec.ofNat 32 ((request.width.toNat * request.bpp.toNat + 7) / 8)).toNat =
      (request.width.toNat * request.bpp.toNat + 7) / 8 := by
    rw [BitVec.toNat_ofNat, Nat.mod_eq_of_lt pitch]
  have area : (BitVec.ofNat 64 ((request.width.toNat * request.bpp.toNat + 7) / 8 *
      request.height.toNat)).toNat =
      (request.width.toNat * request.bpp.toNat + 7) / 8 * request.height.toNat := by
    rw [BitVec.toNat_ofNat, Nat.mod_eq_of_lt (size.trans (by decide))]
  dsimp only
  rw [wide, area]
  exact ⟨by omega, Nat.le_refl _, size⟩

theorem hdi_gbm_bo_holds_image_iff_oddRows :
    ∃ bo, hdiGbmBoCreate kernelCreateDumb true 65 33 .nv12 = some bo ∧
      (HoldsImage bo 8 ↔
        (65 : BitVec 32) = 0 ∨ (33 : BitVec 32) = 0 ∨
          SumsFit ⟨.nv12, 8, some yuv420SPLayout⟩ 65 33) :=
  ⟨_, rfl, hdi_gbm_bo_holds_image_iff kernelCreateDumb kernelCreateDumb_contract true 65 33 .nv12
    ⟨.nv12, 8, some yuv420SPLayout⟩ rfl _ rfl⟩

/-- For an `NV12` image of 64 by 715827883 pixels the kernel is asked for two rows. -/
theorem image_outgrows_buffer :
    DumbContract kernelCreateDumb ∧
      ∃ bo, hdiGbmBoCreate kernelCreateDumb true 64 715827883 .nv12 = some bo ∧
        bo.height = 715827883 ∧ bo.size = 128 ∧ ¬HoldsImage bo 8 := by
  refine ⟨kernelCreateDumb_contract, _, rfl, rfl, by decide +kernel, ?_⟩
  rintro (column | row | ⟨_, inside⟩)
  · exact absurd column (by decide)
  · exact absurd row (by decide)
  · exact absurd inside (by decide +kernel)

end Gralloc
end RockchipSoc
