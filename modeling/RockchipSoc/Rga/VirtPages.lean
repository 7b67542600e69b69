import Mathlib.Tactic.Common
import RockchipSoc.Rga.Mm

/-!
# The pages of an imported user address

`rga_alloc_virt_addr` takes three numbers from `rga_buf_size_cal`.  The array of pages is sized
by the sum of the planes, the pages that are pinned end behind the largest plane, and the sum is
what the buffer is mapped with.
-/

namespace RockchipSoc
namespace Rga

/-- What an import of a user address owes: the array holds the pinned pages, the pages hold all
bytes of the buffer, and these are the bytes of its planes. -/
structure VirtSized (format : Rga2Format) (parm : RgaMemoryParm) (virt : RgaVirtAddr) : Prop where
  room : virt.pageCount ≤ 4096 * 2 ^ virt.pagesOrder / 8
  startBelow : (virtualPages virt.addr format parm.width parm.height).startAddr * 4096 ≤ virt.addr
  endCovered : virt.addr + virt.size ≤
    ((virtualPages virt.addr format parm.width parm.height).startAddr + virt.pageCount) * 4096
  planesExact :
    planeSizes u32 format parm.width parm.height = planeSizes id format parm.width parm.height
  sizeExact : virt.size = (planeSizes id format parm.width parm.height).sum

/-- The bytes of all planes. -/
def imageBytes (format : Rga2Format) (parm : RgaMemoryParm) : Nat :=
  (planeSizes id format parm.width parm.height).sum

def largestPlane (format : Rga2Format) (parm : RgaMemoryParm) : Nat :=
  (planeSizes id format parm.width parm.height).foldr max 0

/-- The pages that `bytes` bytes from `addr` on touch. -/
def pagesTouched (addr bytes : Nat) : Nat := (addr % 4096 + bytes + 4095) / 4096

/-- The image is smaller than 4 GiB, what follows its largest plane ends in the last page of that
plane, and no array of `2 ^ k` pages of pointers is enough for the whole pages of the image but not
for the pages that it touches.  The stride of `Y4` is cut to 32 bits before it is halved. -/
structure SizesAgree (format : Rga2Format) (parm : RgaMemoryParm) (addr : Nat) : Prop where
  small : imageBytes format parm < 2 ^ 32
  stride : format = .y4 → parm.height = 0 ∨ parm.width + 3 < 2 ^ 32
  lastPage : pagesTouched addr (imageBytes format parm) =
    pagesTouched addr (largestPlane format parm)
  array : imageBytes format parm < 4096 ∨ ∀ k, imageBytes format parm / 4096 ≤ 512 * 2 ^ k →
    pagesTouched addr (imageBytes format parm) ≤ 512 * 2 ^ k

variable {format : Rga2Format} {parm : RgaMemoryParm} {addr w h : Nat}

/-! ## Planes -/

/-- A first plane of some bytes a pixel and up to two chroma planes that divide its lines and its
rows. -/
def PlaneShape (format : Rga2Format) (bytes chroma perLine perRow : Nat) : Prop :=
  ∀ wrap w h, planeSizes wrap format w h = wrap (align4 wrap (w * bytes) * h) ::
    List.replicate chroma (wrap (align4 wrap (w * bytes) / perLine * (h / perRow)))

theorem planeSizes_cases (format : Rga2Format) :
    (∃ bytes chroma perLine perRow, chroma ≤ 2 ∧ PlaneShape format bytes chroma perLine perRow) ∨
      format = .y4 ∨ ∀ wrap w h, planeSizes wrap format w h = [] := by
  cases format
  case rgba8888 | rgbx8888 | bgra8888 | bgrx8888 | argb8888 | xrgb8888 | abgr8888 | xbgr8888 =>
    exact Or.inl ⟨4, 0, 1, 1, by decide, fun _ _ _ => rfl⟩
  case rgb888 | bgr888 => exact Or.inl ⟨3, 0, 1, 1, by decide, fun _ _ _ => rfl⟩
  case rgb565 | rgba5551 | rgba4444 | bgr565 | bgra5551 | bgra4444 | argb5551 | argb4444
      | abgr5551 | abgr4444 =>
    exact Or.inl ⟨2, 0, 1, 1, by decide, fun _ _ _ => rfl⟩
  case ycbcr422sp | ycrcb422sp | yvyu422 | vyuy422 | yuyv422 | uyvy422 =>
    refine Or.inl ⟨1, 1, 1, 1, by decide, fun wrap w h => ?_⟩
    rw [Nat.mul_one, Nat.div_one, Nat.div_one]
    rfl
  case ycbcr422p | ycrcb422p =>
    refine Or.inl ⟨1, 2, 2, 1, by decide, fun wrap w h => ?_⟩
    rw [Nat.mul_one, Nat.div_one]
    rfl
  case ycbcr420sp | ycrcb420sp | yvyu420 | vyuy420 | yuyv420 | uyvy420 | ycbcr420sp10b
      | ycrcb420sp10b =>
    refine Or.inl ⟨1, 1, 1, 2, by decide, fun wrap w h => ?_⟩
    rw [Nat.mul_one, Nat.div_one]
    rfl
  case ycbcr420p | ycrcb420p =>
    refine Or.inl ⟨1, 2, 2, 2, by decide, fun wrap w h => ?_⟩
    rw [Nat.mul_one]
    rfl
  case ycbcr400 =>
    refine Or.inl ⟨1, 0, 1, 1, by decide, fun wrap w h => ?_⟩
    rw [Nat.mul_one]
    rfl
  case y4 => exact Or.inr (Or.inl rfl)
  case ycbcr422sp10b | ycrcb422sp10b | bpp1 | bpp2 | bpp4 | bpp8 =>
    exact Or.inr (Or.inr fun _ _ _ => rfl)

theorem u32_lt (n : Nat) : u32 n < 2 ^ 32 := Nat.mod_lt _ (by decide)

theorem u32_eq {n : Nat} (fits : n < 2 ^ 32) : u32 n = n := Nat.mod_eq_of_lt fits

theorem length_planeSizes_le (wrap : Nat → Nat) (format : Rga2Format) (w h : Nat) :
    (planeSizes wrap format w h).length ≤ 3 := by
  rcases planeSizes_cases format with ⟨bytes, chroma, perLine, perRow, few, shape⟩ | rfl | none
  · rw [shape, List.length_cons, List.length_replicate]
    omega
  · exact Nat.le_of_ble_eq_true rfl
  · rw [none]
    exact Nat.zero_le _

theorem lt_of_mem_planeSizes {plane : Nat} (member : plane ∈ planeSizes u32 format w h) :
    plane < 2 ^ 32 := by
  rcases planeSizes_cases format with ⟨bytes, chroma, perLine, perRow, few, shape⟩ | rfl | none
  · rw [shape] at member
    rcases List.mem_cons.mp member with rfl | chromaPlane
    · exact u32_lt _
    · rw [List.eq_of_mem_replicate chromaPlane]
      exact u32_lt _
  · rw [List.mem_singleton.mp member]
    exact u32_lt _
  · rw [none] at member
    cases member

theorem align4_u32 {x : Nat} (fits : x + 3 < 2 ^ 32) : align4 u32 x = align4 id x := by
  simp only [align4, id_eq]
  rw [u32_eq (by omega : x < 2 ^ 32), u32_eq fits]

/-- A line that fits into 32 bits, if there is any line. -/
theorem line_fits {x h : Nat} (small : align4 id x * h < 2 ^ 32) :
    h = 0 ∨ align4 u32 x = align4 id x := by
  rcases Nat.eq_zero_or_pos h with none | some
  · exact Or.inl none
  · have line : align4 id x < 2 ^ 32 := Nat.lt_of_le_of_lt (Nat.le_mul_of_pos_right _ some) small
    refine Or.inr (align4_u32 ?_)
    simp only [align4, id_eq] at line
    omega

/-- An image below 4 GiB has its planes without wrapping. -/
theorem planeSizes_u32_eq (small : (planeSizes id format w h).sum < 2 ^ 32)
    (stride : format = .y4 → h = 0 ∨ w + 3 < 2 ^ 32) :
    planeSizes u32 format w h = planeSizes id format w h := by
  rcases planeSizes_cases format with ⟨bytes, chroma, perLine, perRow, few, shape⟩ | rfl | none
  · rw [shape, List.sum_cons] at small
    simp only [id_eq] at small
    rw [shape, shape]
    rcases line_fits (Nat.lt_of_le_of_lt (Nat.le_add_right _ _) small) with rfl | line
    · simp only [Nat.mul_zero, Nat.zero_div]
      rfl
    · have first : align4 id (w * bytes) * h < 2 ^ 32 := by omega
      have others : align4 id (w * bytes) / perLine * (h / perRow) < 2 ^ 32 :=
        Nat.lt_of_le_of_lt (Nat.mul_le_mul (Nat.div_le_self _ _) (Nat.div_le_self _ _)) first
      rw [line, u32_eq first, u32_eq others]
      rfl
  · simp only [planeSizes, List.sum_cons, List.sum_nil, id_eq, Nat.add_zero] at small ⊢
    rcases stride rfl with rfl | line
    · rfl
    · rw [align4_u32 line, u32_eq small]
  · rw [none, none]

/-- The stride of `Y4` must not wrap. -/
theorem y4_stride (bounded : w < 2 ^ 32)
    (exact : planeSizes u32 .y4 w h = planeSizes id .y4 w h) : h = 0 ∨ w + 3 < 2 ^ 32 := by
  rcases Nat.lt_or_ge (w + 3) (2 ^ 32) with line | wraps
  · exact Or.inr line
  · refine Or.inl ?_
    simp only [planeSizes, id_eq, List.cons.injEq, and_true] at exact
    have cut : align4 u32 w = 0 := by
      have next : u32 (w + 3) = w + 3 - 2 ^ 32 := by
        unfold u32
        omega
      rw [align4, u32_eq bounded, next]
      omega
    have whole : align4 id w / 2 = 2 ^ 31 := by
      simp only [align4, id_eq]
      omega
    rw [cut, whole] at exact
    simp only [Nat.zero_div, Nat.zero_mul] at exact
    have zero : u32 0 = 0 := rfl
    omega

/-! ## Pages -/

theorem pagesTouched_eq (addr bytes : Nat) :
    pagesTouched addr bytes = (addr + bytes + 4095) / 4096 - addr / 4096 := by
  unfold pagesTouched
  omega

/-- For a user address the pages run from that of the address to the end of the largest plane. -/
theorem virtualPages_eq (user : addr < 2 ^ 52) (sized : planeSizes u32 format w h ≠ []) :
    virtualPages addr format w h =
      ⟨pagesTouched addr ((planeSizes u32 format w h).foldr max 0), addr / 4096,
        u32 (planeSizes u32 format w h).sum⟩ := by
  have few := length_planeSizes_le u32 format w h
  have small : ∀ plane ∈ planeSizes u32 format w h, plane < 2 ^ 32 :=
    fun _ => lt_of_mem_planeSizes
  have plane_end {plane : Nat} (fits : plane < 2 ^ 32) : u64 (addr + plane) = addr + plane :=
    Nat.mod_eq_of_lt (by omega)
  have count {largest : Nat} (fits : largest < 2 ^ 32) :
      u32 (u64 (u64 (addr + largest + 4095) / 4096 + 2 ^ 64 - addr / 4096)) =
        pagesTouched addr largest := by
    rw [pagesTouched_eq]
    unfold u32 u64
    omega
  simp only [virtualPages, rgaBufSizeCal, Option.map_some, Option.getD_some]
  generalize planeSizes u32 format w h = sizes at sized few small
  match sizes with
  | [] => exact absurd rfl sized
  | [first] =>
      have fits : first < 2 ^ 32 := small _ (by simp)
      simp only [List.zip_cons_cons, List.zip_nil_right, List.foldl_nil, plane_end fits, count fits,
        List.foldr_cons, List.foldr_nil, Nat.max_zero, pageShift]
  | [first, second] =>
      have fits : first < 2 ^ 32 := small _ (by simp)
      have fits' : second < 2 ^ 32 := small _ (by simp)
      simp only [List.zip_cons_cons, List.zip_nil_right, List.foldl_cons, List.foldl_nil,
        plane_end fits, plane_end fits', Nat.add_max_add_left, count (max_lt fits fits'),
        List.foldr_cons, List.foldr_nil, Nat.max_zero, Nat.min_self, pageShift]
  | [first, second, third] =>
      have fits : first < 2 ^ 32 := small _ (by simp)
      have fits' : second < 2 ^ 32 := small _ (by simp)
      have fits'' : third < 2 ^ 32 := small _ (by simp)
      simp only [List.zip_cons_cons, List.zip_nil_right, List.foldl_cons, List.foldl_nil,
        plane_end fits, plane_end fits', plane_end fits'', Nat.add_max_add_left,
        count (max_lt fits (max_lt fits' fits'')), List.foldr_cons, List.foldr_nil, Nat.max_zero,
        Nat.max_assoc, Nat.min_self, pageShift]
  | _ :: _ :: _ :: _ :: _ => simp only [List.length_cons] at few; omega

/-- `get_order` finds the smallest power of two of pages that holds an array of pointers. -/
theorem getOrder_le_iff {count k : Nat} (some : 0 < count) :
    getOrder (count * 8) ≤ k ↔ count ≤ 512 * 2 ^ k := by
  have nonzero : count * 8 ≠ 0 := by omega
  have pages : (count * 8 - 1) / 4096 = (count - 1) / 512 := by omega
  have pos : 0 < 2 ^ k := Nat.two_pow_pos k
  rw [getOrder, if_neg nonzero, pages]
  split
  next one => exact iff_of_true (Nat.zero_le k) (by omega)
  next more =>
    rw [Nat.add_one_le_iff, Nat.log2_lt more]
    omega

/-- A known code does not depend on what was on the stack. -/
theorem userFormatConvert_eq_or (df : Option Rga2Format) (sf : Nat) :
    userFormatConvert df sf = (userFormatConvert none sf).or df := by
  unfold userFormatConvert
  split
  all_goals rfl

/-- An import that succeeds stores what it computed. -/
theorem rgaAllocVirtAddr_ok {env : ImportEnv} {virt : RgaVirtAddr}
    (known : userFormatConvert none parm.format = some format)
    (allocated : rgaAllocVirtAddr env addr parm = .ok virt) :
    virt.addr = addr ∧
      virt.pagesOrder =
        getOrder ((virtualPages addr format parm.width parm.height).size / 4096 * 8) ∧
      virt.pageCount = (virtualPages addr format parm.width parm.height).pageCount ∧
      virt.size = (virtualPages addr format parm.width parm.height).size := by
  have converted : userFormatConvert env.stackFormat parm.format = some format := by
    rw [userFormatConvert_eq_or, known]
    rfl
  simp only [rgaAllocVirtAddr, converted] at allocated
  split at allocated
  · cases allocated
  · split at allocated
    · cases allocated
    · split at allocated
      · cases allocated
      · obtain rfl := Except.ok.inj allocated
        exact ⟨rfl, rfl, rfl, rfl⟩

/-- A kernel that grants what is asked for and pins `pages` pages. -/
def grantingEnv (pages : Nat) : ImportEnv where
  currentMm := some 0
  dmaBuf := none
  kzallocBuffer := true
  kcallocDmaBuffer := true
  dmaMapFd := fun _ => none
  stackFormat := none
  getFreePages := fun _ => true
  getUserPages := pages
  kzallocVirtAddr := true
  allocSgt := fun _ => true
  checkRangeSgt := true
  iommuMap := fun _ => (0, 0)
  dmaMapSg := fun _ => 0
  idrAlloc := true

theorem rgaAllocVirtAddr_granted (pages addr : Nat) (parm : RgaMemoryParm) :
    ∃ virt, rgaAllocVirtAddr (grantingEnv pages) addr parm = .ok virt := by
  have pinned : ¬(pages : Int) < 0 := Int.not_lt.mpr (Int.natCast_nonneg pages)
  simp only [rgaAllocVirtAddr, grantingEnv, Bool.not_true, if_neg Bool.false_ne_true,
    if_neg pinned]
  exact ⟨_, rfl⟩

theorem largestPlane_le (format : Rga2Format) (parm : RgaMemoryParm) :
    largestPlane format parm ≤ imageBytes format parm := by
  unfold largestPlane imageBytes
  induction planeSizes id format parm.width parm.height with
  | nil => exact Nat.le_refl 0
  | cons plane rest ih =>
      rw [List.foldr_cons, List.sum_cons]
      omega

/-- Without wrapping the pages are those of the largest plane. -/
theorem virtualPages_exact (user : addr < 2 ^ 52)
    (sized : planeSizes id format parm.width parm.height ≠ [])
    (exact : planeSizes u32 format parm.width parm.height =
      planeSizes id format parm.width parm.height) :
    virtualPages addr format parm.width parm.height =
      ⟨pagesTouched addr (largestPlane format parm), addr / 4096,
        u32 (imageBytes format parm)⟩ := by
  rw [virtualPages_eq user (by rwa [exact]), exact]
  rfl

theorem virtSized_iff {env : ImportEnv} {virt : RgaVirtAddr}
    (known : userFormatConvert none parm.format = some format)
    (sized : planeSizes id format parm.width parm.height ≠ [])
    (width : parm.width < 2 ^ 32) (user : addr < 2 ^ 52)
    (allocated : rgaAllocVirtAddr env addr parm = .ok virt) :
    VirtSized format parm virt ↔ SizesAgree format parm addr := by
  obtain ⟨addr_eq, order_eq, count_eq, size_eq⟩ := rgaAllocVirtAddr_ok known allocated
  have largest := largestPlane_le format parm
  constructor
  · rintro ⟨room, _, endCovered, planesExact, sizeExact⟩
    have pages := virtualPages_exact user sized planesExact
    rw [addr_eq, count_eq, pages] at endCovered
    rw [order_eq, count_eq, pages] at room
    rw [size_eq, pages, ← imageBytes] at sizeExact
    simp only at endCovered room sizeExact
    have small : imageBytes format parm < 2 ^ 32 := sizeExact ▸ u32_lt _
    have lastPage : pagesTouched addr (imageBytes format parm) =
        pagesTouched addr (largestPlane format parm) := by
      rw [size_eq, pages] at endCovered
      simp only [sizeExact, pagesTouched] at endCovered ⊢
      omega
    refine ⟨small, ?_, lastPage, ?_⟩
    · rintro rfl
      exact y4_stride width planesExact
    · rcases Nat.lt_or_ge (imageBytes format parm) 4096 with page | pages
      · exact Or.inl page
      · refine Or.inr fun k holds => ?_
        rw [sizeExact] at room
        have order_le : getOrder (imageBytes format parm / 4096 * 8) ≤ k :=
          (getOrder_le_iff (by omega)).mpr holds
        have power := Nat.pow_le_pow_right Nat.two_pos order_le
        omega
  · rintro ⟨small, stride, lastPage, array⟩
    have exact := planeSizes_u32_eq small stride
    have pages := virtualPages_exact user sized exact
    have size_eq' : virt.size = imageBytes format parm := by
      rw [size_eq, pages]
      exact u32_eq small
    refine ⟨?_, ?_, ?_, exact, size_eq'⟩
    · rw [order_eq, ← size_eq, size_eq', count_eq, pages, ← lastPage]
      rcases Nat.eq_zero_or_pos (imageBytes format parm / 4096) with none | some
      · have order : getOrder (0 * 8) = 52 := rfl
        rw [none, order]
        simp only [pagesTouched]
        omega
      · have holds := array.resolve_left (by omega) _ ((getOrder_le_iff some).mp (Nat.le_refl _))
        simp only
        omega
    · rw [addr_eq, pages]
      simp only
      omega
    · rw [addr_eq, count_eq, size_eq', pages, ← lastPage]
      simp only [pagesTouched]
      omega

/-- The import of a user address is sized correctly exactly if the sizes of the image agree. -/
theorem virt_addr_sized_iff (format : Rga2Format) (parm : RgaMemoryParm) (addr : Nat)
    (known : userFormatConvert none parm.format = some format)
    (sized : planeSizes id format parm.width parm.height ≠ [])
    (width : parm.width < 2 ^ 32) (user : addr < 2 ^ 52) :
    (∀ env virt, rgaAllocVirtAddr env addr parm = .ok virt → VirtSized format parm virt) ↔
      SizesAgree format parm addr := by
  constructor
  · intro always
    obtain ⟨virt, allocated⟩ := rgaAllocVirtAddr_granted 0 addr parm
    exact (virtSized_iff known sized width user allocated).mp (always _ _ allocated)
  · intro agree env virt allocated
    exact (virtSized_iff known sized width user allocated).mpr agree

/-- A page of `RGBA8888`. -/
def pageImage : RgaMemoryParm := ⟨32, 32, 0⟩

theorem virt_addr_sized_iff_pageImage :
    (∀ env virt, rgaAllocVirtAddr env 0x7f0000000000 pageImage = .ok virt →
      VirtSized .rgba8888 pageImage virt) ↔ SizesAgree .rgba8888 pageImage 0x7f0000000000 :=
  virt_addr_sized_iff .rgba8888 pageImage 0x7f0000000000 rfl (by decide) (by decide) (by decide)

/-- An image of 2 MiB that starts inside a page touches 513 pages; the array holds 512.  The pages
of a small `NV12` image end behind its luma plane. -/
theorem two_images_sized_wrong :
    rgaAllocVirtAddr (grantingEnv 513) 0x7f0000000010 ⟨512, 1024, 0⟩ =
      .ok ⟨0x7f0000000010, 0, 513, 2097152, 513⟩ ∧
    ¬VirtSized .rgba8888 ⟨512, 1024, 0⟩ ⟨0x7f0000000010, 0, 513, 2097152, 513⟩ ∧
    rgaAllocVirtAddr (grantingEnv 1) 0x7f0000000000 ⟨64, 64, 0xa⟩ =
      .ok ⟨0x7f0000000000, 0, 1, 6144, 1⟩ ∧
    ¬VirtSized .ycbcr420sp ⟨64, 64, 0xa⟩ ⟨0x7f0000000000, 0, 1, 6144, 1⟩ := by
  refine ⟨by decide +kernel, fun wrong => ?_, by decide +kernel, fun wrong => ?_⟩
  · exact absurd wrong.room (by decide)
  · exact absurd wrong.endCovered (by decide)

end Rga
end RockchipSoc
