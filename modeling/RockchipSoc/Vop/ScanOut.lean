import Mathlib.Tactic.Linarith
import Mathlib.Tactic.Ring
import Mathlib.Algebra.Order.Ring.Int
import RockchipSoc.Vop.PlaneCheck

/-!
# Where the scan-out begins

Luma begins at the first pixel of the source.  Chroma is to begin at the sample for that pixel; its
address is made of truncated quotients of bytes, and with mirrored rows of the height before
clipping.
-/

namespace RockchipSoc
namespace Vop

open CInt

/-- The rows of the chroma plane. -/
def Framebuffer.uvRows (fb : Framebuffer) : ℤ := (fb.height + fb.format.vsub - 1) / fb.format.vsub

/-- The columns of the chroma plane. -/
def Framebuffer.uvColumns (fb : Framebuffer) : ℤ :=
  (fb.width + fb.format.hsub - 1) / fb.format.hsub

/-- Chroma lies in a plane of its own. -/
def Framebuffer.TwoPlanes (fb : Framebuffer) : Prop :=
  fb.format.isYuv = true ∧ fb.format.numPlanes > 1

/-- A chroma plane that was accepted: a row fits the pitch, the plane ends within 32 bits, and its
buffer within the address space. -/
structure ChromaPlane (fb : Framebuffer) : Prop where
  cpp : 0 < fb.format.cpp1
  hsub : 0 < fb.format.hsub
  vsub : 0 < fb.format.vsub
  offset : 0 ≤ fb.offsets1
  pitch : fb.uvColumns * fb.format.cpp1 ≤ fb.pitches1
  size : fb.uvRows * fb.pitches1 + fb.offsets1 < 2 ^ 32
  dma : 0 ≤ fb.dmaAddr1
  dma_end : fb.dmaAddr1 + fb.offsets1 + fb.uvRows * fb.pitches1 ≤ 2 ^ 64

/-- A linear framebuffer that was accepted, in the same sense. -/
structure LinearFramebuffer (fb : Framebuffer) : Prop where
  linear : fb.afbc = false
  cpp : 0 < fb.format.cpp0
  offset : 0 ≤ fb.offsets0
  pitch : fb.width * fb.format.cpp0 ≤ fb.pitches0
  size : fb.height * fb.pitches0 + fb.offsets0 < 2 ^ 32
  dma : 0 ≤ fb.dmaAddr0
  dma_end : fb.dmaAddr0 + fb.offsets0 + fb.height * fb.pitches0 ≤ 2 ^ 64
  chroma : fb.TwoPlanes → ChromaPlane fb

/-- The source is clipped to the framebuffer and no higher than what was asked for. -/
structure Clipped (fb : Framebuffer) (src : DrmRect) (srcH : ℤ) : Prop where
  x1 : 0 ≤ src.x1
  y1 : 0 ≤ src.y1
  x2 : src.x2 ≤ fb.width * 2 ^ 16
  y2 : src.y2 ≤ fb.height * 2 ^ 16
  lines : src.height ≤ srcH
  word : srcH < 2 ^ 32

/-- The row of the first line. -/
def firstRow (src : DrmRect) (ymirrorEn : Bool) : ℤ :=
  if ymirrorEn then whole src.y2 - 1 else whole src.y1

/-- The address of a pixel, and that of a chroma sample. -/
def Framebuffer.pixelAddr (fb : Framebuffer) (column row : ℤ) : ℤ :=
  fb.dmaAddr0 + fb.offsets0 + row * fb.pitches0 + column * fb.format.cpp0

def Framebuffer.sampleAddr (fb : Framebuffer) (column row : ℤ) : ℤ :=
  fb.dmaAddr1 + fb.offsets1 + row * fb.pitches1 + column * fb.format.cpp1

/-- A number of bytes lies in a plane of so many bytes that starts at an address. -/
def InPlane (start size addr bytes : ℤ) : Prop := start ≤ addr ∧ addr + bytes ≤ start + size

/-- Luma begins at the first pixel of the first line, within its plane. -/
def LumaBegins (fb : Framebuffer) (src : DrmRect) (vpstate : Vop2PlaneState) : Prop :=
  vpstate.yrgbMst = fb.pixelAddr (whole src.x1) (firstRow src vpstate.ymirrorEn) ∧
    InPlane (fb.dmaAddr0 + fb.offsets0) (fb.height * fb.pitches0) vpstate.yrgbMst fb.format.cpp0

/-- Chroma begins at the sample that covers that pixel, within its plane. -/
def ChromaBegins (fb : Framebuffer) (src : DrmRect) (vpstate : Vop2PlaneState) : Prop :=
  ∀ uvMst ∈ vpstate.uvMst,
    uvMst = fb.sampleAddr (whole src.x1 / fb.format.hsub)
      (firstRow src vpstate.ymirrorEn / fb.format.vsub) ∧
    InPlane (fb.dmaAddr1 + fb.offsets1) (fb.uvRows * fb.pitches1) uvMst fb.format.cpp1

/-! ### The bytes that truncation leaves over -/

/-- The bytes by which the column's quotient lies behind the start of its sample. -/
def strayColumn (format : FormatInfo) (column : ℤ) : ℤ :=
  column % format.hsub * format.cpp1 / format.hsub

/-- The bytes by which the quotient of a number of lines lies behind the start of a chroma row. -/
def strayRows (fb : Framebuffer) (lines : ℤ) : ℤ :=
  u32 (lines * fb.pitches1) / fb.format.vsub - lines / fb.format.vsub * fb.pitches1

/-- The chroma rows by which the first one lies behind those of the truncated quotients. -/
def missingRows (fb : Framebuffer) (src : DrmRect) (srcH : ℤ) : ℤ :=
  (whole src.y2 - 1) / fb.format.vsub - whole src.y1 / fb.format.vsub -
    (whole srcH - 2) / fb.format.vsub

/-- Nothing is left over; with mirrored rows, what is left over makes up the missing rows. -/
def ChromaWhole (fb : Framebuffer) (src : DrmRect) (srcH : ℤ) (ymirrorEn : Bool) : Prop :=
  if ymirrorEn then
    strayColumn fb.format (whole src.x1) + strayRows fb (whole src.y1) +
      strayRows fb (whole srcH - 2) = missingRows fb src srcH * fb.pitches1
  else strayColumn fb.format (whole src.x1) + strayRows fb (whole src.y1) = 0

instance (fb : Framebuffer) (src : DrmRect) (srcH : ℤ) (ymirrorEn : Bool) :
    Decidable (ChromaWhole fb src srcH ymirrorEn) :=
  inferInstanceAs (Decidable (if ymirrorEn then _ = _ else _ = _))

variable {fb : Framebuffer} {pstate : PlaneState} {vpstate : Vop2PlaneState} {src dest : DrmRect}
  {limits : PlaneLimits} {win : PlaneWindow} {calls : PlaneCalls}

/-- A check that is passed. -/
theorem passed_of_shown {fails : Prop} [Decidable fails] {verdict rest : PlaneVerdict}
    (other : verdict ≠ .shown vpstate)
    (shown : (if fails then verdict else rest) = .shown vpstate) :
    ¬fails ∧ rest = .shown vpstate := by
  split at shown
  · exact absurd shown other
  · next passed => exact ⟨passed, shown⟩

/-- What is shown has passed the checks. -/
theorem shown_cases (picture : pstate.fb = some fb)
    (shown : vop2PlaneAtomicCheck limits win calls pstate = .shown vpstate) :
    invalidSize pstate.src pstate.dst = false ∧ vpstate = planeAddresses fb pstate := by
  unfold vop2PlaneAtomicCheck at shown
  rw [picture] at shown
  iterate 7 replace shown := (passed_of_shown (by simp) shown).2
  obtain ⟨size, shown⟩ := passed_of_shown (by simp) shown
  iterate 6 replace shown := (passed_of_shown (by simp) shown).2
  exact ⟨Bool.eq_false_iff.mpr size, (PlaneVerdict.shown.inj shown).symm⟩

/-! ### Within a plane -/

section Plane

variable {row rows column columns pitch cpp d n x : ℤ}

/-- A sample in a row and a column of a plane. -/
theorem sample_inside (row_nonneg : 0 ≤ row) (row_lt : row < rows) (column_nonneg : 0 ≤ column)
    (column_lt : column < columns) (positive : 0 < cpp) (fits : columns * cpp ≤ pitch) :
    0 ≤ row * pitch + column * cpp ∧ row * pitch + column * cpp + cpp ≤ rows * pitch := by
  have pitch_nonneg : 0 ≤ pitch := le_trans (mul_nonneg (by omega) positive.le) fits
  have before : (column + 1) * cpp ≤ columns * cpp :=
    mul_le_mul_of_nonneg_right column_lt positive.le
  have above : (row + 1) * pitch ≤ rows * pitch := mul_le_mul_of_nonneg_right row_lt pitch_nonneg
  rw [add_mul, one_mul] at before above
  exact ⟨add_nonneg (mul_nonneg row_nonneg pitch_nonneg) (mul_nonneg column_nonneg positive.le),
    by omega⟩

theorem ediv_lt_of_lt (positive : 0 < d) (below : x < n) : x / d < (n + d - 1) / d := by
  rw [← Int.add_one_le_iff, Int.le_ediv_iff_mul_le positive, add_mul, one_mul]
  have least := Int.ediv_mul_le x positive.ne'
  omega

end Plane

theorem u32_of_bounds {n : ℤ} (nonneg : 0 ≤ n) (fits : n < 2 ^ 32) : u32 n = n :=
  Int.emod_eq_of_lt nonneg fits

theorem u32_bounds (n : ℤ) : 0 ≤ u32 n ∧ u32 n < 2 ^ 32 :=
  ⟨Int.emod_nonneg n (by decide), Int.emod_lt_of_pos n (by decide)⟩

/-- The first pixel lies in the picture. -/
theorem first_inside (clipped : Clipped fb src srcH) (size : invalidSize src dest = false)
    (ymirrorEn : Bool) : (0 ≤ whole src.x1 ∧ whole src.x1 < fb.width) ∧
      0 ≤ firstRow src ymirrorEn ∧ firstRow src ymirrorEn < fb.height := by
  obtain ⟨wide, tall, -⟩ := invalidSize_eq_false_iff.mp size
  obtain ⟨x1, y1, x2, y2, -, -⟩ := clipped
  unfold whole DrmRect.width at wide
  unfold whole DrmRect.height at tall
  unfold firstRow whole
  refine ⟨by omega, ?_⟩
  split <;> omega

theorem lumaBegins (linear : LinearFramebuffer fb) (clipped : Clipped fb pstate.src pstate.srcH)
    (size : invalidSize pstate.src pstate.dst = false) :
    LumaBegins fb pstate.src (planeAddresses fb pstate) := by
  obtain ⟨⟨column_nonneg, column_lt⟩, row_nonneg, row_lt⟩ :=
    first_inside clipped size (planeAddresses fb pstate).ymirrorEn
  obtain ⟨inside, inside'⟩ := sample_inside row_nonneg row_lt column_nonneg column_lt linear.cpp
    linear.pitch
  have bytes := mul_nonneg column_nonneg linear.cpp.le
  have pitch_nonneg : 0 ≤ fb.pitches0 :=
    le_trans (mul_nonneg (by omega) linear.cpp.le) linear.pitch
  have rows := mul_nonneg row_nonneg pitch_nonneg
  have positive := linear.cpp
  have fits := linear.size
  have offset := linear.offset
  have dma := linear.dma
  have dma_end := linear.dma_end
  have offset_eq : yrgbOffset fb pstate.src fb.afbc (planeAddresses fb pstate).ymirrorEn =
      firstRow pstate.src (planeAddresses fb pstate).ymirrorEn * fb.pitches0 +
        whole pstate.src.x1 * fb.format.cpp0 := by
    have word := u32_of_bounds rows (by omega)
    unfold yrgbOffset
    unfold firstRow at word ⊢
    rw [linear.linear]
    split at word
    · next mirrored => simp [mirrored, word, add_comm]
    · next upright => simp [upright, word, add_comm]
  have addr : (planeAddresses fb pstate).yrgbMst = fb.pixelAddr (whole pstate.src.x1)
      (firstRow pstate.src (planeAddresses fb pstate).ymirrorEn) := by
    show u64 (fb.dmaAddr0 + yrgbOffset fb pstate.src fb.afbc (planeAddresses fb pstate).ymirrorEn +
      fb.offsets0) = _
    rw [offset_eq, u64, Int.emod_eq_of_lt (by omega) (by omega), Framebuffer.pixelAddr]
    omega
  refine ⟨addr, ?_⟩
  rw [addr]
  unfold InPlane Framebuffer.pixelAddr
  omega

/-! ### Chroma -/

/-- The bytes of the truncated quotients, split into whole rows and samples and what is left
over. -/
theorem uvOffset_eq (chroma : ChromaPlane fb) (linear : fb.afbc = false) {srcH : ℤ}
    (column_nonneg : 0 ≤ whole src.x1) (lines : 2 ≤ whole srcH) (word : srcH < 2 ^ 32)
    (ymirrorEn : Bool) : uvOffset fb src srcH fb.afbc ymirrorEn =
      whole src.x1 / fb.format.hsub * fb.format.cpp1 + strayColumn fb.format (whole src.x1) +
        (whole src.y1 / fb.format.vsub * fb.pitches1 + strayRows fb (whole src.y1)) +
        if ymirrorEn then (whole srcH - 2) / fb.format.vsub * fb.pitches1 +
          strayRows fb (whole srcH - 2) else 0 := by
  have column : cdiv (whole src.x1 * fb.format.cpp1) fb.format.hsub =
      whole src.x1 / fb.format.hsub * fb.format.cpp1 + strayColumn fb.format (whole src.x1) := by
    have parts := Int.ediv_mul_add_emod (whole src.x1) fb.format.hsub
    have split : whole src.x1 * fb.format.cpp1 = whole src.x1 % fb.format.hsub * fb.format.cpp1 +
        whole src.x1 / fb.format.hsub * fb.format.cpp1 * fb.format.hsub := by
      calc whole src.x1 * fb.format.cpp1
          = (whole src.x1 / fb.format.hsub * fb.format.hsub + whole src.x1 % fb.format.hsub) *
              fb.format.cpp1 := by rw [parts]
        _ = _ := by ring
    rw [cdiv_of_nonneg (mul_nonneg column_nonneg chroma.cpp.le), split,
      Int.add_mul_ediv_right _ _ chroma.hsub.ne', strayColumn, add_comm]
  have short : u32 (whole srcH - 2) = whole srcH - 2 := by
    refine u32_of_bounds (by omega) ?_
    unfold whole
    omega
  unfold uvOffset
  rw [column, linear, short, mul_comm fb.pitches1]
  unfold strayRows
  cases ymirrorEn
  · simp
  · simp only [Bool.not_false, Bool.and_self, if_true]
    ring

/-- The truncated quotients are a few words at most. -/
theorem uvOffset_bounds (chroma : ChromaPlane fb) (column_nonneg : 0 ≤ whole src.x1)
    (column_lt : whole src.x1 < fb.width) (rows : 0 < fb.uvRows) (srcH : ℤ)
    (afbcEn ymirrorEn : Bool) :
    0 ≤ uvOffset fb src srcH afbcEn ymirrorEn ∧
      uvOffset fb src srcH afbcEn ymirrorEn < 2 ^ 63 := by
  have quotient (n : ℤ) : 0 ≤ u32 n / fb.format.vsub ∧ u32 n / fb.format.vsub < 2 ^ 32 := by
    obtain ⟨nonneg, below⟩ := u32_bounds n
    refine ⟨Int.ediv_nonneg nonneg chroma.vsub.le, lt_of_le_of_lt ?_ below⟩
    exact Int.ediv_le_self _ nonneg
  have column : 0 ≤ cdiv (whole src.x1 * fb.format.cpp1) fb.format.hsub ∧
      cdiv (whole src.x1 * fb.format.cpp1) fb.format.hsub < 2 ^ 32 := by
    refine ⟨cdiv_nonneg (mul_nonneg column_nonneg chroma.cpp.le) chroma.hsub.le, ?_⟩
    rw [cdiv_of_nonneg (mul_nonneg column_nonneg chroma.cpp.le),
      Int.ediv_lt_iff_lt_mul chroma.hsub]
    have columns : fb.width ≤ fb.uvColumns * fb.format.hsub := by
      have parts := Int.ediv_mul_add_emod (fb.width + fb.format.hsub - 1) fb.format.hsub
      have rest := Int.emod_lt_of_pos (fb.width + fb.format.hsub - 1) chroma.hsub
      unfold Framebuffer.uvColumns
      omega
    have pitch_le : fb.pitches1 ≤ fb.uvRows * fb.pitches1 := by
      refine le_mul_of_one_le_left (le_trans (mul_nonneg ?_ chroma.cpp.le) chroma.pitch) rows
      exact Int.ediv_nonneg (by have := chroma.hsub; omega) chroma.hsub.le
    have narrow : fb.uvColumns * fb.format.cpp1 < 2 ^ 32 := by
      have size := chroma.size
      have offset := chroma.offset
      have pitch := chroma.pitch
      omega
    calc whole src.x1 * fb.format.cpp1
        < fb.width * fb.format.cpp1 := mul_lt_mul_of_pos_right column_lt chroma.cpp
      _ ≤ fb.uvColumns * fb.format.hsub * fb.format.cpp1 :=
          mul_le_mul_of_nonneg_right columns chroma.cpp.le
      _ = fb.uvColumns * fb.format.cpp1 * fb.format.hsub := by ring
      _ ≤ 2 ^ 32 * fb.format.hsub := mul_le_mul_of_nonneg_right narrow.le chroma.hsub.le
  have rows := quotient (whole src.y1 * fb.pitches1)
  have mirrored := quotient (fb.pitches1 * u32 (whole srcH - 2))
  unfold uvOffset
  dsimp only
  split <;> omega

theorem chromaBegins_iff (linear : LinearFramebuffer fb)
    (clipped : Clipped fb pstate.src pstate.srcH)
    (size : invalidSize pstate.src pstate.dst = false) :
    ChromaBegins fb pstate.src (planeAddresses fb pstate) ↔
      (fb.TwoPlanes → ChromaWhole fb pstate.src pstate.srcH
        (planeAddresses fb pstate).ymirrorEn) := by
  generalize mirrored : (planeAddresses fb pstate).ymirrorEn = ymirrorEn
  have address : (planeAddresses fb pstate).uvMst =
      if fb.format.isYuv ∧ fb.format.numPlanes > 1 then
        some (u64 (fb.dmaAddr1 + uvOffset fb pstate.src pstate.srcH fb.afbc ymirrorEn +
          fb.offsets1))
      else none := by
    rw [← mirrored]
    rfl
  unfold ChromaBegins
  rw [address, mirrored]
  by_cases two : fb.TwoPlanes
  · have chroma := linear.chroma two
    obtain ⟨⟨column_nonneg, column_lt⟩, row_nonneg, row_lt⟩ := first_inside clipped size ymirrorEn
    have row_lt' : firstRow pstate.src ymirrorEn / fb.format.vsub < fb.uvRows :=
      ediv_lt_of_lt chroma.vsub row_lt
    have column_lt' : whole pstate.src.x1 / fb.format.hsub < fb.uvColumns :=
      ediv_lt_of_lt chroma.hsub column_lt
    have row_nonneg' := Int.ediv_nonneg row_nonneg chroma.vsub.le
    obtain ⟨inside, inside'⟩ := sample_inside row_nonneg' row_lt'
      (Int.ediv_nonneg column_nonneg chroma.hsub.le) column_lt' chroma.cpp chroma.pitch
    obtain ⟨nonneg, below⟩ := uvOffset_bounds chroma column_nonneg column_lt
      (lt_of_le_of_lt row_nonneg' row_lt') pstate.srcH fb.afbc ymirrorEn
    have lines : 2 ≤ whole pstate.srcH := by
      have tall := (invalidSize_eq_false_iff.mp size).2.1
      have enough := clipped.lines
      unfold whole at tall ⊢
      omega
    have parts := uvOffset_eq chroma linear.linear column_nonneg lines clipped.word ymirrorEn
    have dma := chroma.dma
    have offset := chroma.offset
    have dma_end := chroma.dma_end
    have positive := chroma.cpp
    have sample : fb.sampleAddr (whole pstate.src.x1 / fb.format.hsub)
        (firstRow pstate.src ymirrorEn / fb.format.vsub) = fb.dmaAddr1 + fb.offsets1 +
          (firstRow pstate.src ymirrorEn / fb.format.vsub * fb.pitches1 +
            whole pstate.src.x1 / fb.format.hsub * fb.format.cpp1) := add_assoc _ _ _
    have whole_iff : uvOffset fb pstate.src pstate.srcH fb.afbc ymirrorEn =
        firstRow pstate.src ymirrorEn / fb.format.vsub * fb.pitches1 +
          whole pstate.src.x1 / fb.format.hsub * fb.format.cpp1 ↔
        ChromaWhole fb pstate.src pstate.srcH ymirrorEn := by
      rw [parts]
      unfold ChromaWhole missingRows firstRow
      cases ymirrorEn
      · simp only [Bool.false_eq_true, if_false]
        constructor <;> intro same <;> linarith only [same]
      · simp only [if_true]
        constructor <;> intro same <;> linarith only [same]
    have both : fb.format.isYuv = true ∧ fb.format.numPlanes > 1 := two
    rw [if_pos both, forall_prop_of_true two, ← whole_iff]
    simp only [Option.mem_some_iff, forall_eq']
    rw [sample]
    generalize firstRow pstate.src ymirrorEn / fb.format.vsub * fb.pitches1 +
      whole pstate.src.x1 / fb.format.hsub * fb.format.cpp1 = expected at inside inside' ⊢
    generalize uvOffset fb pstate.src pstate.srcH fb.afbc ymirrorEn = bytes at nonneg below ⊢
    have same_iff : u64 (fb.dmaAddr1 + bytes + fb.offsets1) = fb.dmaAddr1 + fb.offsets1 + expected ↔
        bytes = expected := by
      unfold u64
      omega
    rw [same_iff, and_iff_left_iff_imp]
    intro same
    rw [same_iff.mpr same]
    unfold InPlane
    omega
  · have single : ¬(fb.format.isYuv = true ∧ fb.format.numPlanes > 1) := two
    rw [if_neg single]
    exact iff_of_true (fun _ absent => by simp at absent) fun contra => absurd contra two

/-- Every plane that is shown begins at the source's first pixel, for luma always, and for chroma
exactly if no bytes are left over by the truncated quotients, or with mirrored rows as many as the
rows that are missing. -/
theorem scan_out_begins_iff (picture : pstate.fb = some fb)
    (shown : vop2PlaneAtomicCheck limits win calls pstate = .shown vpstate)
    (linear : LinearFramebuffer fb) (clipped : Clipped fb pstate.src pstate.srcH) :
    LumaBegins fb pstate.src vpstate ∧ ChromaBegins fb pstate.src vpstate ↔
      (fb.TwoPlanes → ChromaWhole fb pstate.src pstate.srcH vpstate.ymirrorEn) := by
  obtain ⟨size, rfl⟩ := shown_cases picture shown
  rw [and_iff_right (lumaBegins linear clipped size), chromaBegins_iff linear clipped size]

/-! ### Halved chroma -/

/-- Whole lines of which an even number make a row of an even pitch. -/
theorem strayRows_halved {lines half : ℤ} (vsub : fb.format.vsub = 2)
    (pitch : fb.pitches1 = 2 * half) (nonneg : 0 ≤ lines) (half_nonneg : 0 ≤ half)
    (fits : lines * fb.pitches1 < 2 ^ 32) :
    strayRows fb lines = lines % 2 * half := by
  have parts := Int.ediv_mul_add_emod lines 2
  have even : lines * fb.pitches1 = lines * half * 2 := by
    rw [pitch]
    ring
  unfold strayRows
  rw [u32_of_bounds (mul_nonneg nonneg (by omega)) fits, vsub, even,
    Int.mul_ediv_cancel _ (by decide), pitch]
  calc lines * half - lines / 2 * (2 * half)
      = (lines / 2 * 2 + lines % 2) * half - lines / 2 * (2 * half) := by rw [parts]
    _ = lines % 2 * half := by ring

/-- In a picture with chroma halved both ways, where nothing leaves 32 bits, chroma begins right
exactly if the first line is even; with mirrored rows, exactly if the first line and the height
before clipping add up to the end of the source, rounded up to an even line. -/
theorem chromaWhole_halved_iff {half srcH : ℤ} (hsub : fb.format.hsub = 2)
    (vsub : fb.format.vsub = 2) (pitch : fb.pitches1 = 2 * half) (positive : 0 < half)
    (column : whole src.x1 % 2 = 0) (row : 0 ≤ whole src.y1) (lines : 2 ≤ whole srcH)
    (fits : whole src.y1 * fb.pitches1 < 2 ^ 32) (fits' : (whole srcH - 2) * fb.pitches1 < 2 ^ 32)
    (ymirrorEn : Bool) : ChromaWhole fb src srcH ymirrorEn ↔
      if ymirrorEn then whole src.y1 + whole srcH = (whole src.y2 + 1) / 2 * 2
      else whole src.y1 % 2 = 0 := by
  have first : strayColumn fb.format (whole src.x1) = 0 := by
    rw [strayColumn, hsub, column, zero_mul, Int.zero_ediv]
  unfold ChromaWhole
  rw [first, strayRows_halved vsub pitch row positive.le fits, zero_add]
  cases ymirrorEn
  · simp [positive.ne']
  · simp only [if_true]
    rw [strayRows_halved vsub pitch (by omega) positive.le fits', missingRows, vsub, pitch,
      ← add_mul, ← mul_assoc, mul_left_inj' positive.ne']
    omega

/-- With a chroma row for each line, mirrored rows begin one row before the source's last one,
unless clipping took away a line. -/
theorem chromaWhole_unsubsampled_iff {srcH : ℤ} (vsub : fb.format.vsub = 1)
    (column : strayColumn fb.format (whole src.x1) = 0) (positive : 0 < fb.pitches1)
    (row : 0 ≤ whole src.y1) (lines : 2 ≤ whole srcH) (fits : whole src.y1 * fb.pitches1 < 2 ^ 32)
    (fits' : (whole srcH - 2) * fb.pitches1 < 2 ^ 32) :
    ChromaWhole fb src srcH true ↔ whole src.y1 + whole srcH = whole src.y2 + 1 := by
  have exact {n : ℤ} (nonneg : 0 ≤ n) (fits : n * fb.pitches1 < 2 ^ 32) : strayRows fb n = 0 := by
    rw [strayRows, u32_of_bounds (mul_nonneg nonneg positive.le) fits, vsub, Int.ediv_one,
      Int.ediv_one, sub_self]
  simp only [ChromaWhole, if_true]
  rw [column, exact row fits, exact (by omega) fits', missingRows, vsub]
  simp only [Int.ediv_one, add_zero]
  rw [eq_comm, mul_eq_zero, or_iff_left positive.ne']
  omega

/-! ### Pictures -/

/-- A linear picture of 64 by 32 pixels with a chroma plane behind it. -/
def smallPicture (vsub : ℤ) : Framebuffer where
  format := ⟨true, 2, 1, 2, 2, vsub⟩
  width := 64
  height := 32
  pitches0 := 64
  pitches1 := 64
  offsets0 := 0
  offsets1 := 2048
  dmaAddr0 := 4096
  dmaAddr1 := 4096
  afbc := false
  convertFormat := 0

/-- A plane that shows the lines from the first one on. -/
def smallPlane (vsub : ℤ) (rotation : BitVec 8) (y1 : ℤ) : PlaneState where
  crtc := true
  crtcState := true
  fb := some (smallPicture vsub)
  rotation := rotation
  src := ⟨0, y1 * 2 ^ 16, 64 * 2 ^ 16, 32 * 2 ^ 16⟩
  dst := ⟨0, 0, 64, 32 - y1⟩
  visible := true
  srcH := (32 - y1) * 2 ^ 16

/-- The check of the small plane on an Esmart window. -/
def smallCheck (vsub : ℤ) (rotation : BitVec 8) (y1 : ℤ) : PlaneVerdict :=
  vop2PlaneAtomicCheck ⟨0x4017, 4096, 4320⟩ ⟨false, false, 0⟩ ⟨none, 0, 0⟩
    (smallPlane vsub rotation y1)

theorem linear_smallPicture {vsub : ℤ} (subsampled : vsub = 1 ∨ vsub = 2) :
    LinearFramebuffer (smallPicture vsub) := by
  rcases subsampled with rfl | rfl
  · exact ⟨rfl, by decide, by decide, by decide, by decide, by decide, by decide,
      fun _ => by constructor <;> decide⟩
  · exact ⟨rfl, by decide, by decide, by decide, by decide, by decide, by decide,
      fun _ => by constructor <;> decide⟩

/-- From the second pair of lines on. -/
theorem scan_out_begins_small : LumaBegins (smallPicture 2) (smallPlane 2 0 2).src
      (planeAddresses (smallPicture 2) (smallPlane 2 0 2)) ∧
    ChromaBegins (smallPicture 2) (smallPlane 2 0 2).src
      (planeAddresses (smallPicture 2) (smallPlane 2 0 2)) := by
  have shown : smallCheck 2 0 2 = .shown (planeAddresses (smallPicture 2) (smallPlane 2 0 2)) := by
    decide
  have clipped : Clipped (smallPicture 2) (smallPlane 2 0 2).src (smallPlane 2 0 2).srcH := by
    constructor <;> decide
  exact (scan_out_begins_iff rfl shown (linear_smallPicture (.inr rfl)) clipped).mpr
    fun _ => by decide

/-- From an odd line on, chroma begins in the middle of a row; with mirrored rows and a chroma row
for each line, it begins one row too early. -/
theorem chroma_begins_elsewhere :
    (∃ vpstate, smallCheck 2 0 1 = .shown vpstate ∧
      ¬ChromaBegins (smallPicture 2) (smallPlane 2 0 1).src vpstate ∧
      vpstate.uvMst = some ((smallPicture 2).sampleAddr 0 0 + 32)) ∧
    ∃ vpstate, smallCheck 1 drmModeReflectY 0 = .shown vpstate ∧
      ¬ChromaBegins (smallPicture 1) (smallPlane 1 drmModeReflectY 0).src vpstate ∧
      vpstate.uvMst = some ((smallPicture 1).sampleAddr 0 30) := by
  refine ⟨⟨_, rfl, fun begins => ?_, by decide⟩, ⟨_, rfl, fun begins => ?_, by decide⟩⟩
  · exact absurd (begins _ rfl).1 (by decide)
  · exact absurd (begins _ rfl).1 (by decide)

end Vop
end RockchipSoc
