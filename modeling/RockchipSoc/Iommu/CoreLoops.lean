import Mathlib.Data.List.TakeWhile
import Mathlib.Tactic.IntervalCases
import RockchipSoc.Iommu.DriverOps

/-!
# Ranges of any size

`iommu_map` and `iommu_unmap` cut a range into pieces of a supported page size.  The biggest size is
taken that the rest of the range and the alignment of its addresses allow, so a piece never leaves
its table.  Piece by piece the range is inserted or erased; a map that fails on the way is undone by
an unmap of what it had done.
-/

namespace RockchipSoc
namespace Iommu

open PartialMap

/-- `RK_IOMMU_PGSIZE_BITMAP`: 4 KiB to 4 MiB. -/
def pgsizeBitmap : ℕ := 0x007ff000

/-- `__ffs` of an `unsigned long`: its lowest set bit. -/
def ffs (word : ℕ) : ℕ := ((List.range 64).takeWhile fun bit => !word.testBit bit).length

/-- `__fls`: the highest set bit. -/
def fls (word : ℕ) : ℕ := Nat.log2 word

/-- The page sizes `iommu_pgsize` chooses from. -/
def pgsizes (iova paddr size : ℕ) : ℕ :=
  let addrMerge := paddr ||| iova
  let small := pgsizeBitmap &&& genmask (fls size) 0
  if addrMerge ≠ 0 then small &&& genmask (ffs addrMerge) 0 else small

/-- `iommu_pgsize`: the page size, and how many such pages to map before a larger size fits. -/
def iommuPgsize (iova paddr size : ℕ) : ℕ × ℕ :=
  let addrMerge := paddr ||| iova
  let pgsizeIdx := fls (pgsizes iova paddr size)
  let pgsize := 2 ^ pgsizeIdx
  let larger := pgsizeBitmap &&& genmask 63 (pgsizeIdx + 1)
  if larger = 0 then (pgsize, size >>> pgsizeIdx)
  else
    let pgsizeNext := 2 ^ ffs larger
    if (iova ^^^ paddr) &&& (pgsizeNext - 1) ≠ 0 then (pgsize, size >>> pgsizeIdx)
    else
      let offset := pgsizeNext - (addrMerge &&& (pgsizeNext - 1))
      if offset + pgsizeNext ≤ size then (pgsize, offset >>> pgsizeIdx)
      else (pgsize, size >>> pgsizeIdx)

theorem iommuPgsize_fst (iova paddr size : ℕ) :
    (iommuPgsize iova paddr size).1 = 2 ^ fls (pgsizes iova paddr size) := by
  simp only [iommuPgsize]
  split
  · rfl
  · split
    · rfl
    · split <;> rfl

theorem iommuPgsize_pos (iova paddr size : ℕ) : 0 < (iommuPgsize iova paddr size).1 := by
  rw [iommuPgsize_fst]
  exact Nat.two_pow_pos _

/-- `IS_ALIGNED` to the smallest page size. -/
def isAligned (merged : ℕ) : Bool := merged &&& (2 ^ ffs pgsizeBitmap - 1) = 0

section Core

variable (format : PageFormat)

/-- The loop of `__iommu_unmap`, spelled `iommu_unmap_ext` here. -/
def iommuUnmapLoop (domain : RkIommuDomain) (iova size unmapped : ℕ) : RkIommuDomain × ℕ :=
  if unmapped < size then
    let piece := rkIommuUnmap format domain iova (iommuPgsize iova iova (size - unmapped)).1
    if piece.2 = 0 then (piece.1, unmapped)
    else iommuUnmapLoop piece.1 ((iova + piece.2) % 2 ^ 64) size (unmapped + piece.2)
  else (domain, unmapped)
termination_by size - unmapped
decreasing_by
  have : (rkIommuUnmap format domain iova (iommuPgsize iova iova (size - unmapped)).1).2 ≠ 0 := by
    assumption
  omega

/-- `iommu_unmap`, which is `iommu_unmap_ext`; the driver has no `iotlb_sync`. -/
def iommuUnmap (domain : RkIommuDomain) (iova size : ℕ) : RkIommuDomain × ℕ :=
  if ¬isAligned (iova ||| size) then (domain, 0)
  else iommuUnmapLoop format domain iova size 0

/-- Where the loop of `iommu_map_ext` stopped: what is left of the size, and the last result. -/
structure MapProgress where
  domain : RkIommuDomain
  size : ℕ
  ret : ℤ

/-- The loop of `iommu_map_ext`, a piece by `iommu_map_pages_ext`. -/
def iommuMapLoop (domain : RkIommuDomain) (iova paddr size prot : ℕ) : MapProgress :=
  if size = 0 then { domain, size, ret := 0 }
  else
    let pgsize := (iommuPgsize iova paddr size).1
    let piece := rkIommuMap format domain iova paddr pgsize prot
    if piece.2 ≠ 0 then { domain := piece.1, size, ret := piece.2 }
    else
      iommuMapLoop piece.1 ((iova + pgsize) % 2 ^ 64) ((paddr + pgsize) % 2 ^ 64) (size - pgsize)
        prot
termination_by size
decreasing_by
  have := iommuPgsize_pos iova paddr size
  omega

/-- `iommu_map_ext`, the whole of `iommu_map` and `iommu_map_atomic`. -/
def iommuMap (domain : RkIommuDomain) (iova paddr size prot : ℕ) : RkIommuDomain × ℤ :=
  if ¬isAligned (iova ||| paddr ||| size) then (domain, -einval)
  else
    let progress := iommuMapLoop format domain iova paddr size prot
    if progress.ret ≠ 0 then
      ((iommuUnmap format progress.domain iova (size - progress.size)).1, progress.ret)
    else (progress.domain, 0)

end Core

/-! ## The page size of a piece -/

theorem testBit_eq_false_of_lt_ffs {word bit : ℕ} (below : bit < ffs word) :
    word.testBit bit = false := by
  have front := List.takeWhile_prefix (l := List.range 64) fun bit => !word.testBit bit
  have member : bit ∈ (List.range 64).takeWhile fun bit => !word.testBit bit := by
    refine List.mem_iff_getElem.mpr ⟨bit, below, ?_⟩
    rw [front.getElem below, List.getElem_range]
  simpa using List.mem_takeWhile_imp member

theorem le_ffs {word bit : ℕ} (inside : bit ≤ 64)
    (clear : ∀ lower < bit, word.testBit lower = false) : bit ≤ ffs word := by
  have parts : List.range 64 = List.range bit ++ (List.range 64).drop bit := by
    have front : (List.range 64).take bit = List.range bit := by
      rw [List.take_range, Nat.min_eq_left inside]
    rw [← front, List.take_append_drop]
  rw [ffs, parts, List.takeWhile_append_of_pos fun lower member => by
    simp [clear lower (List.mem_range.mp member)]]
  simp

/-- Divisibility by a power of two, bit by bit. -/
theorem two_pow_dvd_iff {word exponent : ℕ} :
    2 ^ exponent ∣ word ↔ ∀ bit < exponent, word.testBit bit = false := by
  constructor
  · rintro ⟨factor, rfl⟩ bit below
    rw [Nat.testBit_two_pow_mul, decide_eq_false (by omega), Bool.false_and]
  · intro clear
    refine Nat.dvd_of_mod_eq_zero (Nat.eq_of_testBit_eq fun bit => ?_)
    rw [Nat.testBit_mod_two_pow, Nat.zero_testBit]
    by_cases below : bit < exponent
    · simp [clear bit below]
    · simp [below]

theorem two_pow_dvd_or (exponent : ℕ) {left right : ℕ} :
    2 ^ exponent ∣ left ||| right ↔ 2 ^ exponent ∣ left ∧ 2 ^ exponent ∣ right := by
  simp only [two_pow_dvd_iff, Nat.testBit_or, Bool.or_eq_false_iff]
  exact ⟨fun both => ⟨fun bit below => (both bit below).1, fun bit below => (both bit below).2⟩,
    fun both bit below => ⟨both.1 bit below, both.2 bit below⟩⟩

theorem pgsizeBitmap_eq : pgsizeBitmap = genmask 22 12 := by decide

theorem testBit_pgsizes (iova paddr size bit : ℕ) :
    (pgsizes iova paddr size).testBit bit = true ↔
      (12 ≤ bit ∧ bit ≤ 22) ∧ bit ≤ fls size ∧
        (paddr ||| iova ≠ 0 → bit ≤ ffs (paddr ||| iova)) := by
  simp only [pgsizes, pgsizeBitmap_eq]
  split
  · next merged =>
      simp only [Nat.testBit_and, testBit_genmask, Bool.and_eq_true, decide_eq_true_eq, merged,
        ne_eq, not_false_eq_true, forall_const]
      omega
  · next merged =>
      simp only [Nat.testBit_and, testBit_genmask, Bool.and_eq_true, decide_eq_true_eq]
      exact ⟨fun ⟨size, place⟩ => ⟨size, place.2, fun set => absurd set merged⟩,
        fun ⟨size, place, _⟩ => ⟨size, Nat.zero_le _, place⟩⟩

/-- A supported size that fits the rest of the range and divides both addresses. -/
structure IsPiece (iova paddr size pgsize : ℕ) : Prop where
  supported : ∃ exponent, 12 ≤ exponent ∧ exponent ≤ 22 ∧ pgsize = 2 ^ exponent
  dvd_iova : pgsize ∣ iova
  dvd_paddr : pgsize ∣ paddr
  le_size : pgsize ≤ size

/-- `iommu_pgsize` finds a piece of an aligned range; its `BUG_ON` is not reached. -/
theorem iommuPgsize_spec {iova paddr size : ℕ} (alignedIova : spageSize ∣ iova)
    (alignedPaddr : spageSize ∣ paddr) (alignedSize : spageSize ∣ size) (nonempty : size ≠ 0) :
    pgsizes iova paddr size ≠ 0 ∧ IsPiece iova paddr size (iommuPgsize iova paddr size).1 := by
  have page : spageSize = 2 ^ 12 := rfl
  rw [page] at alignedIova alignedPaddr alignedSize
  have large : 2 ^ 12 ≤ size := Nat.le_of_dvd (Nat.pos_of_ne_zero nonempty) alignedSize
  have smallest : (pgsizes iova paddr size).testBit 12 = true := by
    refine (testBit_pgsizes iova paddr size 12).mpr ⟨by decide, ?_, fun merged => ?_⟩
    · exact (Nat.le_log2 nonempty).mpr large
    · exact le_ffs (by decide)
        (two_pow_dvd_iff.mp ((two_pow_dvd_or _).mpr ⟨alignedPaddr, alignedIova⟩))
  have some_size : pgsizes iova paddr size ≠ 0 := by
    intro none_left
    rw [none_left, Nat.zero_testBit] at smallest
    exact Bool.false_ne_true smallest
  have biggest : (pgsizes iova paddr size).testBit (fls (pgsizes iova paddr size)) = true :=
    Nat.testBit_log2 some_size
  obtain ⟨⟨low, high⟩, small, aligned⟩ := (testBit_pgsizes iova paddr size _).mp biggest
  have divides : 2 ^ fls (pgsizes iova paddr size) ∣ paddr ||| iova := by
    by_cases merged : paddr ||| iova = 0
    · rw [merged]
      exact Nat.dvd_zero _
    · exact two_pow_dvd_iff.mpr fun bit below =>
        testBit_eq_false_of_lt_ffs (Nat.lt_of_lt_of_le below (aligned merged))
  refine ⟨some_size, ?_⟩
  rw [iommuPgsize_fst]
  exact ⟨⟨_, low, high, rfl⟩, ((two_pow_dvd_or _).mp divides).2, ((two_pow_dvd_or _).mp divides).1,
    (Nat.le_log2 nonempty).mp small⟩

/-- A piece does not leave its table. -/
theorem IsPiece.fits {iova paddr size pgsize : ℕ} (piece : IsPiece iova paddr size pgsize) :
    rkIovaPteIndex iova + pgsize / spageSize ≤ 1024 := by
  obtain ⟨exponent, low, high, rfl⟩ := piece.supported
  obtain ⟨factor, rfl⟩ := piece.dvd_iova
  rw [rkIovaPteIndex_eq]
  simp only [spageSize]
  interval_cases exponent <;> omega

theorem IsPiece.dvd_pgsize {iova paddr size pgsize : ℕ} (piece : IsPiece iova paddr size pgsize) :
    spageSize ∣ pgsize := by
  obtain ⟨exponent, low, high, rfl⟩ := piece.supported
  exact Nat.pow_dvd_pow 2 low

theorem isAligned_iff (merged : ℕ) : isAligned merged = true ↔ spageSize ∣ merged := by
  have smallest : ffs pgsizeBitmap = 12 := by decide
  rw [isAligned, smallest, Nat.and_two_pow_sub_one_eq_mod, decide_eq_true_iff]
  exact (Nat.dvd_iff_mod_eq_zero).symm

/-! ## The loops -/

variable {format : PageFormat} {domain : RkIommuDomain} {iova paddr prot size unmapped : ℕ}

/-- A piece has at least one page, and no more than the rest of the range. -/
theorem IsPiece.pages {rest pgsize : ℕ} (piece : IsPiece iova paddr rest pgsize) :
    0 < pgsize / spageSize ∧ pgsize / spageSize ≤ rest / spageSize := by
  obtain ⟨exponent, low, high, power⟩ := piece.supported
  have large : spageSize ≤ pgsize := by
    rw [power]
    exact Nat.pow_le_pow_right (by decide : 0 < 2) low
  have positive : 0 < spageSize := by decide
  exact ⟨Nat.div_pos large positive, Nat.div_le_div_right piece.le_size⟩

/-- The unmap loop erases what is left of the range from the front. -/
theorem iommuUnmapLoop_spec (unmapped : ℕ) (formed : WellFormed format domain)
    (alignedIova : spageSize ∣ iova) (alignedRest : spageSize ∣ size - unmapped) :
    let result := iommuUnmapLoop format domain iova size unmapped
    let erased := eraseBound (lookup format domain) (pagesFrom iova ((size - unmapped) / spageSize))
    WellFormed format result.1 ∧ Evolves format domain result.1 ∧
      lookup format result.1 = erased.1 ∧ result.2 = unmapped + erased.2 * spageSize := by
  induction left : size - unmapped using Nat.strong_induction_on
    generalizing domain iova unmapped with
  | _ left ih =>
      subst left
      rw [iommuUnmapLoop]
      by_cases more : unmapped < size
      · rw [if_pos more]
        obtain ⟨-, piece⟩ := iommuPgsize_spec alignedIova alignedIova alignedRest (by omega)
        generalize (iommuPgsize iova iova (size - unmapped)).1 = pgsize at piece ⊢
        obtain ⟨formed', evolves, looked, counted⟩ := rkIommuUnmap_spec formed piece.fits
        obtain ⟨positive, enough⟩ := piece.pages
        rw [← take_pagesFrom iova enough] at looked counted
        generalize pagesFrom_eq : pagesFrom iova ((size - unmapped) / spageSize) = pages at *
        generalize pgsize / spageSize = part at *
        by_cases stopped : (eraseBound (lookup format domain) (pages.take part)).2 = 0
        · -- The first page is not bound, so nothing of the range is erased.
          rw [if_pos (by rw [counted, stopped, Nat.zero_mul]),
            eraseBound_of_take_eq_zero positive stopped]
          exact ⟨formed', evolves, looked, by rw [stopped, Nat.zero_mul, Nat.add_zero]⟩
        · rw [if_neg (by rw [counted]; exact Nat.mul_ne_zero stopped (by decide)), counted]
          have bounded : (eraseBound (lookup format domain) (pages.take part)).2 ≤
              (size - unmapped) / spageSize := by
            refine (eraseBound_le_length _ _).trans ?_
            rw [List.length_take, ← pagesFrom_eq, length_pagesFrom]
            exact Nat.min_le_right _ _
          have resumed := eraseBound_resume (lookup format domain) pages part
          simp only [← looked] at resumed
          generalize (eraseBound (lookup format domain) (pages.take part)).2 = count at *
          -- What is left of the range behind the pages that were erased.
          have later : (size - (unmapped + count * spageSize)) / spageSize =
              (size - unmapped) / spageSize - count := by
            simp only [spageSize]
            omega
          have dropped : pages.drop count =
              pagesFrom ((iova + count * spageSize) % 2 ^ 64)
                ((size - (unmapped + count * spageSize)) / spageSize) := by
            rw [← pagesFrom_eq, drop_pagesFrom iova bounded, later]
            exact pagesFrom_congr (by rw [Nat.mod_mod, Nat.mul_comm]) _
          have less : size - (unmapped + count * spageSize) < size - unmapped := by
            simp only [spageSize]
            omega
          have alignedIova' : spageSize ∣ (iova + count * spageSize) % 2 ^ 64 := by
            simp only [spageSize] at *
            omega
          have alignedRest' : spageSize ∣ size - (unmapped + count * spageSize) := by
            simp only [spageSize] at *
            omega
          obtain ⟨formed'', evolves', looked', counted'⟩ :=
            ih _ less _ formed' alignedIova' alignedRest' rfl
          rw [resumed, dropped]
          refine ⟨formed'', evolves.trans evolves', looked', ?_⟩
          rw [counted', Nat.add_mul, Nat.add_assoc]
      · rw [if_neg more]
        have nothing : (size - unmapped) / spageSize = 0 := by
          rw [Nat.sub_eq_zero_of_le (Nat.le_of_not_lt more), Nat.zero_div]
        rw [nothing]
        exact ⟨formed, .refl format domain, rfl, by simp [pagesFrom, eraseBound]⟩

/-- `iommu_unmap` erases the bound pages at the front of an aligned range, and says how many bytes
that were. -/
theorem iommuUnmap_spec (formed : WellFormed format domain) (iova size : ℕ) :
    let result := iommuUnmap format domain iova size
    let erased := eraseBound (lookup format domain) (pagesFrom iova (size / spageSize))
    WellFormed format result.1 ∧ Evolves format domain result.1 ∧
      if spageSize ∣ iova ∧ spageSize ∣ size then
        lookup format result.1 = erased.1 ∧ result.2 = erased.2 * spageSize
      else lookup format result.1 = lookup format domain ∧ result.2 = 0 := by
  have merged : isAligned (iova ||| size) = true ↔ spageSize ∣ iova ∧ spageSize ∣ size :=
    (isAligned_iff _).trans (two_pow_dvd_or 12)
  rw [iommuUnmap]
  by_cases aligned : spageSize ∣ iova ∧ spageSize ∣ size
  · rw [if_neg (not_not.mpr (merged.mpr aligned))]
    obtain ⟨formed', evolves, looked, counted⟩ := iommuUnmapLoop_spec 0 formed aligned.1 aligned.2
    refine ⟨formed', evolves, ?_⟩
    rw [if_pos aligned, counted, Nat.zero_add]
    exact ⟨looked, rfl⟩
  · rw [if_pos fun whole => aligned (merged.mp whole)]
    refine ⟨formed, .refl format domain, ?_⟩
    rw [if_neg aligned]
    exact ⟨rfl, rfl⟩

theorem iommuMapLoop_zero (format : PageFormat) (domain : RkIommuDomain) (iova paddr prot : ℕ) :
    iommuMapLoop format domain iova paddr 0 prot = { domain, size := 0, ret := 0 } := by
  rw [iommuMapLoop, if_pos rfl]

/-- How the loop of `iommu_map_ext` ends: the front of the range that it reports is bound, and an
error has its cause. -/
structure LoopResult (format : PageFormat) (domain : RkIommuDomain) (iova paddr size prot : ℕ)
    (progress : MapProgress) : Prop where
  formed : WellFormed format progress.domain
  evolves : Evolves format domain progress.domain
  le_size : progress.size ≤ size
  dvd_size : spageSize ∣ progress.size
  front : insertNew (lookup format domain)
      (bindings format prot iova paddr ((size - progress.size) / spageSize)) =
    some (lookup format progress.domain)
  ret : (progress.ret = 0 ∧ progress.size = 0) ∨ progress.ret = -enomem ∨
    (progress.ret = -eaddrinuse ∧
      insertNew (lookup format domain) (bindings format prot iova paddr (size / spageSize)) = none)

theorem iommuMapLoop_spec (prot : ℕ) (formed : WellFormed format domain)
    (alignedIova : spageSize ∣ iova) (alignedPaddr : spageSize ∣ paddr)
    (alignedSize : spageSize ∣ size) :
    LoopResult format domain iova paddr size prot
      (iommuMapLoop format domain iova paddr size prot) := by
  induction left : size using Nat.strong_induction_on generalizing domain iova paddr size with
  | _ left ih =>
      subst left
      rw [iommuMapLoop]
      by_cases done : size = 0
      · rw [if_pos done]
        subst done
        exact ⟨formed, .refl format domain, Nat.le_refl 0, Nat.dvd_zero _, by simp [bindings],
          .inl ⟨rfl, rfl⟩⟩
      · rw [if_neg done]
        obtain ⟨-, piece⟩ := iommuPgsize_spec alignedIova alignedPaddr alignedSize done
        generalize (iommuPgsize iova paddr size).1 = pgsize at piece ⊢
        obtain ⟨formed', evolves, result⟩ := rkIommuMap_spec paddr prot formed piece.fits
        obtain ⟨positive, enough⟩ := piece.pages
        have fits := piece.le_size
        obtain ⟨part, parts⟩ := piece.dvd_pgsize
        -- The whole range is the piece and what is behind it.
        have behind (count : ℕ) :
            bindings format prot iova paddr (pgsize / spageSize + count) =
              bindings format prot iova paddr (pgsize / spageSize) ++
                bindings format prot ((iova + pgsize) % 2 ^ 64) ((paddr + pgsize) % 2 ^ 64)
                  count := by
          rw [bindings_add, parts, Nat.mul_div_cancel_left part (by decide)]
          exact congrArg _ (bindings_congr (Nat.mod_mod _ _).symm (Nat.mod_mod _ _).symm count)
        rcases result with ⟨zero, inserted⟩ | ⟨looked, error⟩
        · rw [if_neg (not_not.mpr zero)]
          have less : size - pgsize < size := by
            simp only [spageSize] at positive
            omega
          have alignedIova' : spageSize ∣ (iova + pgsize) % 2 ^ 64 := by
            simp only [spageSize] at *
            omega
          have alignedPaddr' : spageSize ∣ (paddr + pgsize) % 2 ^ 64 := by
            simp only [spageSize] at *
            omega
          have alignedSize' : spageSize ∣ size - pgsize := by
            simp only [spageSize] at *
            omega
          have next := ih _ less formed' alignedIova' alignedPaddr' alignedSize' rfl
          generalize iommuMapLoop format _ _ _ (size - pgsize) prot = progress at next ⊢
          refine ⟨next.formed, evolves.trans next.evolves,
            next.le_size.trans (Nat.sub_le size pgsize), next.dvd_size, ?_, ?_⟩
          · have counts : (size - progress.size) / spageSize =
                pgsize / spageSize + (size - pgsize - progress.size) / spageSize := by
              have := next.le_size
              simp only [spageSize] at *
              omega
            rw [counts, behind, insertNew_append, inserted]
            exact next.front
          · refine next.ret.imp_right (Or.imp_right (And.imp_right fun taken => ?_))
            have counts : size / spageSize = pgsize / spageSize + (size - pgsize) / spageSize := by
              simp only [spageSize] at *
              omega
            rw [counts, behind, insertNew_append, inserted]
            exact taken
        · have nonzero : (rkIommuMap format domain iova paddr pgsize prot).2 ≠ 0 := by
            rcases error with memory | ⟨conflict, -⟩
            · rw [memory]
              decide
            · rw [conflict]
              decide
          rw [if_pos nonzero]
          refine ⟨formed', evolves, Nat.le_refl size, alignedSize, ?_, .inr ?_⟩
          · rw [Nat.sub_self, Nat.zero_div, looked]
            rfl
          · refine error.imp_right (And.imp_right fun taken => ?_)
            rw [← Nat.add_sub_cancel' enough, behind, insertNew_append, taken]
            rfl

/-- Both addresses and the size are multiples of the smallest page size. -/
def Aligned (iova paddr size : ℕ) : Prop :=
  spageSize ∣ iova ∧ spageSize ∣ paddr ∧ spageSize ∣ size

/-- `iommu_map` binds a whole range or fails with the translation unchanged. -/
theorem iommuMap_spec (formed : WellFormed format domain) (iova paddr size prot : ℕ) :
    let result := iommuMap format domain iova paddr size prot
    let inserted :=
      insertNew (lookup format domain) (bindings format prot iova paddr (size / spageSize))
    WellFormed format result.1 ∧ Evolves format domain result.1 ∧
      ((result.2 = 0 ∧ Aligned iova paddr size ∧ inserted = some (lookup format result.1)) ∨
        (lookup format result.1 = lookup format domain ∧
          ((result.2 = -einval ∧ ¬Aligned iova paddr size) ∨
            (Aligned iova paddr size ∧
              (result.2 = -enomem ∨ (result.2 = -eaddrinuse ∧ inserted = none)))))) := by
  have merged : isAligned (iova ||| paddr ||| size) = true ↔ Aligned iova paddr size := by
    rw [isAligned_iff, show spageSize = 2 ^ 12 from rfl, two_pow_dvd_or, two_pow_dvd_or, and_assoc]
    rfl
  rw [iommuMap]
  by_cases aligned : Aligned iova paddr size
  · rw [if_neg (not_not.mpr (merged.mpr aligned))]
    have done := iommuMapLoop_spec prot formed aligned.1 aligned.2.1 aligned.2.2
    generalize iommuMapLoop format domain iova paddr size prot = progress at done ⊢
    by_cases failed : progress.ret = 0
    · have all : progress.size = 0 := by
        rcases done.ret with ⟨-, all⟩ | memory | ⟨conflict, -⟩
        · exact all
        · rw [memory] at failed
          exact absurd failed (by decide)
        · rw [conflict] at failed
          exact absurd failed (by decide)
      have front := done.front
      rw [all, Nat.sub_zero] at front
      simp only [failed, ne_eq, not_true_eq_false, if_false]
      exact ⟨done.formed, done.evolves, .inl ⟨trivial, aligned, front⟩⟩
    · -- What was bound on the way is a front of the range, and is erased whole.
      obtain ⟨formed', evolves, undone⟩ :=
        iommuUnmap_spec done.formed iova (size - progress.size)
      have alignedDone : spageSize ∣ size - progress.size := Nat.dvd_sub aligned.2.2 done.dvd_size
      rw [if_pos ⟨aligned.1, alignedDone⟩] at undone
      have restored := eraseBound_of_insertNew done.front
      rw [map_fst_bindings] at restored
      rw [restored] at undone
      simp only [failed, ne_eq, not_false_eq_true, if_true]
      refine ⟨formed', done.evolves.trans evolves, .inr ⟨undone.1, .inr ⟨aligned, ?_⟩⟩⟩
      rcases done.ret with ⟨zero, -⟩ | error
      · exact absurd zero failed
      · exact error
  · rw [if_pos fun whole => aligned (merged.mp whole)]
    exact ⟨formed, .refl format domain, .inr ⟨rfl, .inl ⟨rfl, aligned⟩⟩⟩

/-- Without an error the range is bound. -/
theorem iommuMap_of_zero (formed : WellFormed format domain) (iova paddr size prot : ℕ)
    (done : (iommuMap format domain iova paddr size prot).2 = 0) :
    Aligned iova paddr size ∧
      insertNew (lookup format domain) (bindings format prot iova paddr (size / spageSize)) =
        some (lookup format (iommuMap format domain iova paddr size prot).1) := by
  obtain ⟨-, -, result⟩ := iommuMap_spec formed iova paddr size prot
  rcases result with ⟨-, aligned, inserted⟩ | ⟨-, ⟨invalid, -⟩ | ⟨-, memory | ⟨conflict, -⟩⟩⟩
  · exact ⟨aligned, inserted⟩
  · exact absurd (invalid.symm.trans done) (by decide)
  · exact absurd (memory.symm.trans done) (by decide)
  · exact absurd (conflict.symm.trans done) (by decide)

end Iommu
end RockchipSoc
