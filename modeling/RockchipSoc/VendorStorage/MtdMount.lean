import Mathlib.Data.Nat.Find
import RockchipSoc.VendorStorage.MtdDevice
import RockchipSoc.VendorStorage.Header

/-!
# What mounting the MTD storage finds

The first scan looks at first pages only and answers the leading block: the lowest block whose
first page has the highest version.  The second scan walks that block backwards; it loads the last
valid page and puts the cursor behind the last page that is not erased, unless that page is the
first one.
-/

namespace RockchipSoc
namespace VendorStorage

open ByteMemory

variable {geo : MtdGeometry} {flash : Flash}

theorem mtdShape_size : mtdShape.size = 4096 := by decide

theorem mtdShape_version2Base : mtdShape.version2Base = 4092 := by decide

/-! ## Pages -/

theorem not_valid_of_unprogrammed {read : PageRead} (blank : read.unprogrammed = true) :
    read.valid = false := by
  simp only [PageRead.unprogrammed, decide_eq_true_eq] at blank
  simp only [PageRead.valid, decide_eq_false_iff_not, not_and]
  intro _ _ tagged
  rw [blank.2.2.1] at tagged
  exact absurd tagged (by decide)

theorem unprogrammed_erased : Page.erased.read.unprogrammed = true := by decide

theorem not_valid_erased : Page.erased.read.valid = false :=
  not_valid_of_unprogrammed unprogrammed_erased

/-! ## The first scan -/

/-- The first page of a good block holds an image. -/
structure ValidFirst (geo : MtdGeometry) (flash : Flash) (b : Nat) : Prop where
  inside : b < geo.blocks
  good : geo.isBad b = false
  valid : (flash b 0).read.valid = true

def firstVersion (flash : Flash) (b : Nat) : Nat := version (flash b 0).read.image

/-- The block that mounting chooses. -/
structure Leads (geo : MtdGeometry) (flash : Flash) (b : Nat) : Prop where
  first : ValidFirst geo flash b
  positive : 0 < firstVersion flash b
  newest : ∀ b', ValidFirst geo flash b' → firstVersion flash b' < firstVersion flash b ∨
    firstVersion flash b' = firstVersion flash b ∧ b ≤ b'

theorem Leads.unique {b b' : Nat} (leads : Leads geo flash b) (leads' : Leads geo flash b') :
    b = b' := by
  have one := leads.newest b' leads'.first
  have two := leads'.newest b leads.first
  omega

/-- The outcome of the first scan after `n` blocks. -/
structure Scanned (geo : MtdGeometry) (flash : Flash) (n blkOffset newest : Nat) : Prop where
  bound : ∀ b, b < n → geo.isBad b = false → (flash b 0).read.valid = true →
    firstVersion flash b ≤ newest
  chosen : newest ≠ 0 → blkOffset < n ∧ geo.isBad blkOffset = false ∧
    (flash blkOffset 0).read.valid = true ∧ firstVersion flash blkOffset = newest ∧
    ∀ b, b < blkOffset → geo.isBad b = false → (flash b 0).read.valid = true →
      firstVersion flash b < newest
  skipped : newest = 0 → blkOffset ≤ n ∧ (∀ b, b < blkOffset → geo.isBad b = true) ∧
    (blkOffset < n → geo.isBad blkOffset = false)

theorem scanBlocks_spec (geo : MtdGeometry) (flash : Flash) (n : Nat) :
    Scanned geo flash n (scanBlocks geo flash n).1 (scanBlocks geo flash n).2 := by
  induction n with
  | zero =>
      exact ⟨fun _ bound => absurd bound (Nat.not_lt_zero _), fun found => absurd rfl found,
        fun _ => ⟨Nat.le_refl _, fun _ bound => absurd bound (Nat.not_lt_zero _),
          fun bound => absurd bound (Nat.not_lt_zero _)⟩⟩
  | succ n ih =>
      obtain ⟨bound, chosen, skipped⟩ := ih
      simp only [scanBlocks]
      generalize (scanBlocks geo flash n).1 = blkOffset at chosen skipped ⊢
      generalize (scanBlocks geo flash n).2 = newest at bound chosen skipped ⊢
      cases bad : geo.isBad n with
      | false =>
          simp only [Bool.not_false, if_true, Bool.and_eq_true, decide_eq_true_eq]
          split
          case isTrue better =>
            refine ⟨fun b below good valid => ?_, fun _ => ⟨Nat.lt_succ_self _, bad, better.1, rfl,
              fun b below good valid => ?_⟩, fun zero => ?_⟩
            · rcases Nat.lt_succ_iff_lt_or_eq.mp below with earlier | rfl
              · exact Nat.le_trans (bound b earlier good valid) (Nat.le_of_lt better.2)
              · exact Nat.le_refl _
            · exact Nat.lt_of_le_of_lt (bound b below good valid) better.2
            · exact absurd zero (Nat.ne_of_gt (Nat.lt_of_le_of_lt (Nat.zero_le _) better.2))
          case isFalse worse =>
            refine ⟨fun b below good valid => ?_, fun found => ?_, fun zero => ?_⟩
            · rcases Nat.lt_succ_iff_lt_or_eq.mp below with earlier | rfl
              · exact bound b earlier good valid
              · exact Nat.le_of_not_lt fun lt => worse ⟨valid, lt⟩
            · obtain ⟨below, rest⟩ := chosen found
              exact ⟨Nat.lt_succ_of_lt below, rest⟩
            · obtain ⟨le, before, good⟩ := skipped zero
              refine ⟨Nat.le_succ_of_le le, before, fun below => ?_⟩
              rcases Nat.lt_succ_iff_lt_or_eq.mp below with earlier | rfl
              · exact good earlier
              · exact bad
      | true =>
          simp only [Bool.not_true, Bool.false_eq_true, if_false]
          have bound' : ∀ b, b < n + 1 → geo.isBad b = false → (flash b 0).read.valid = true →
              firstVersion flash b ≤ newest := by
            intro b below good valid
            rcases Nat.lt_succ_iff_lt_or_eq.mp below with earlier | rfl
            · exact bound b earlier good valid
            · exact absurd (good.symm.trans bad) (by decide)
          split
          case isTrue here =>
            refine ⟨bound', fun found => ?_, fun zero => ?_⟩
            · have := (chosen found).1
              omega
            · obtain ⟨le, before, good⟩ := skipped zero
              refine ⟨by omega, fun b below => ?_, fun below => by omega⟩
              rcases Nat.lt_succ_iff_lt_or_eq.mp below with earlier | rfl
              · exact before b earlier
              · exact here ▸ bad
          case isFalse elsewhere =>
            refine ⟨bound', fun found => ?_, fun zero => ?_⟩
            · obtain ⟨below, rest⟩ := chosen found
              exact ⟨Nat.lt_succ_of_lt below, rest⟩
            · obtain ⟨le, before, good⟩ := skipped zero
              exact ⟨Nat.le_succ_of_le le, before, fun _ => good (by omega)⟩

theorem leads_scanBlocks (found : (scanBlocks geo flash geo.blocks).2 ≠ 0) :
    Leads geo flash (scanBlocks geo flash geo.blocks).1 := by
  obtain ⟨bound, chosen, _⟩ := scanBlocks_spec geo flash geo.blocks
  obtain ⟨inside, good, valid, attained, earlier⟩ := chosen found
  refine ⟨⟨inside, good, valid⟩, by omega, fun b other => ?_⟩
  have le := bound b other.inside other.good other.valid
  rcases Nat.lt_or_ge b (scanBlocks geo flash geo.blocks).1 with before | after
  · exact Or.inl (attained ▸ earlier b before other.good other.valid)
  · omega

theorem Leads.scanBlocks {b : Nat} (leads : Leads geo flash b) :
    scanBlocks geo flash geo.blocks = (b, firstVersion flash b) := by
  have positive := leads.positive
  have bound := (scanBlocks_spec geo flash geo.blocks).bound b leads.first.inside
    leads.first.good leads.first.valid
  have found : (VendorStorage.scanBlocks geo flash geo.blocks).2 ≠ 0 := by omega
  have same := leads.unique (leads_scanBlocks found)
  have attained := ((scanBlocks_spec geo flash geo.blocks).chosen found).2.2.2.1
  exact Prod.ext same.symm (by rw [← attained, ← same])

/-! ## The second scan -/

/-- The last valid page of a block holds the image. -/
def Tops (geo : MtdGeometry) (flash : Flash) (b : Nat) (image : Bytes) : Prop :=
  ∃ p, p < geo.pages ∧ (flash b p).read.valid = true ∧
    AgreeOn 0 mtdShape.size (flash b p).read.image image ∧
    ∀ q, p < q → q < geo.pages → (flash b q).read.valid = false

theorem Tops.agree {b : Nat} {left right : Bytes} (top : Tops geo flash b left)
    (top' : Tops geo flash b right) : AgreeOn 0 mtdShape.size left right := by
  obtain ⟨p, inside, valid, same, last⟩ := top
  obtain ⟨p', inside', valid', same', last'⟩ := top'
  rcases Nat.lt_trichotomy p p' with before | rfl | after
  · rw [last p' before inside'] at valid'
    contradiction
  · exact same.symm.trans same'
  · rw [last' p after inside] at valid
    contradiction

/-- A block with a valid page has a last one. -/
theorem exists_tops {b p : Nat} (inside : p < geo.pages) (valid : (flash b p).read.valid = true) :
    ∃ image, Tops geo flash b image := by
  let last := Nat.findGreatest (fun q => (flash b q).read.valid = true) (geo.pages - 1)
  have below : last ≤ geo.pages - 1 := Nat.findGreatest_le _
  have spec : (flash b last).read.valid = true :=
    Nat.findGreatest_spec (P := fun q => (flash b q).read.valid = true) (m := p) (by omega) valid
  refine ⟨_, last, by omega, spec, .refl _ _ _, fun q above upper => ?_⟩
  simpa using Nat.findGreatest_is_greatest above (by omega)

/-- The backward scan stops at the last valid page. -/
theorem scanPages_buffer {b n p : Nat} (inside : p < n) (valid : (flash b p).read.valid = true)
    (last : ∀ q, p < q → q < n → (flash b q).read.valid = false) (scan : PageScan) :
    AgreeOn 0 mtdShape.size (scanPages flash b n scan).buffer (flash b p).read.image := by
  induction n generalizing scan with
  | zero => exact absurd inside (Nat.not_lt_zero _)
  | succ n ih =>
      rcases Nat.lt_succ_iff_lt_or_eq.mp inside with below | rfl
      · have skip := last n below (Nat.lt_succ_self _)
        simp only [scanPages, skip, Bool.false_eq_true, if_false]
        split
        · exact ih below (fun q lower upper => last q lower (Nat.lt_succ_of_lt upper)) _
        · exact ih below (fun q lower upper => last q lower (Nat.lt_succ_of_lt upper)) _
      · have programmed : (flash b p).read.unprogrammed = false := by
          by_contra blank
          rw [not_valid_of_unprogrammed (by simpa using blank)] at valid
          contradiction
        simp only [scanPages, programmed, valid, Bool.false_eq_true, if_false, if_true]
        intro a _ upper
        rw [copyIn_apply_of_mem (Nat.zero_le _) (by omega), Nat.sub_zero]

/-- A cursor behind the pages that are left to scan stays. -/
theorem scanPages_pageOffset_of_le {b n : Nat} {scan : PageScan} (behind : n ≤ scan.pageOffset) :
    (scanPages flash b n scan).pageOffset = scan.pageOffset := by
  induction n generalizing scan with
  | zero => rfl
  | succ n ih =>
      simp only [scanPages, if_neg (Nat.not_lt.mpr (Nat.le_of_succ_le behind))]
      split
      · exact ih (Nat.le_of_succ_le behind)
      · split
        · rfl
        · exact ih (Nat.le_of_succ_le behind)

/-- With some page used beyond the first, the cursor is behind the last used page. -/
theorem scanPages_cursor {b n : Nat} {scan : PageScan} (start : scan.pageOffset = 0)
    (used : ∃ p, 0 < p ∧ p < n ∧ (flash b p).read.unprogrammed = false) {q : Nat}
    (behind : (scanPages flash b n scan).pageOffset ≤ q) (inside : q < n) :
    (flash b q).read.unprogrammed = true := by
  induction n generalizing scan with
  | zero => exact absurd inside (Nat.not_lt_zero _)
  | succ n ih =>
      obtain ⟨p, positive, below, programmed⟩ := used
      cases last : (flash b n).read.unprogrammed with
      | true =>
          simp only [scanPages, last, if_true] at behind
          rcases Nat.lt_succ_iff_lt_or_eq.mp inside with earlier | rfl
          · have before : p < n := by
              rcases Nat.lt_succ_iff_lt_or_eq.mp below with before | rfl
              · exact before
              · rw [last] at programmed
                contradiction
            refine ih ?_ ⟨p, positive, before, programmed⟩ behind earlier
            exact start
          · exact last
      | false =>
          have moved : scan.pageOffset < n := by omega
          simp only [scanPages, last, Bool.false_eq_true, if_false, if_pos moved] at behind
          have cursor : n + 1 ≤ q := by
            split at behind
            · exact behind
            · rw [scanPages_pageOffset_of_le (Nat.le_succ n)] at behind
              exact behind
          omega

/-! ## Mounting -/

/-- Mounting into any buffer loads the image. -/
def RemountLoads (geo : MtdGeometry) (flash : Flash) (image : Bytes) : Prop :=
  ∀ buffer, (mtdMount geo flash buffer).formats = false ∧
    AgreeOn 0 mtdShape.size (mtdMount geo flash buffer).gVendor.mem image

theorem Leads.mtdMount {b : Nat} {image : Bytes} (leads : Leads geo flash b)
    (top : Tops geo flash b image) : RemountLoads geo flash image := by
  intro buffer
  have positive := leads.positive
  obtain ⟨p, inside, valid, same, last⟩ := top
  simp only [VendorStorage.mtdMount, leads.scanBlocks, if_pos (Nat.ne_of_gt positive), true_and]
  exact (scanPages_buffer inside valid last _).trans same

/-- Mounting loads exactly the image of the last valid page of the leading block. -/
theorem remountLoads_iff {image : Bytes} :
    RemountLoads geo flash image ↔ ∃ b, Leads geo flash b ∧ Tops geo flash b image := by
  constructor
  · intro loads
    obtain ⟨mounted, loaded⟩ := loads fun _ => 0
    have found : (scanBlocks geo flash geo.blocks).2 ≠ 0 := by
      intro zero
      simp [VendorStorage.mtdMount, zero] at mounted
    have leads := leads_scanBlocks found
    obtain ⟨other, top⟩ := exists_tops geo.pages_pos leads.first.valid
    have agree := (leads.mtdMount top fun _ => 0).2.symm.trans loaded
    obtain ⟨p, inside, valid, same, last⟩ := top
    exact ⟨_, leads, p, inside, valid, same.trans agree, last⟩
  · rintro ⟨b, leads, top⟩
    exact leads.mtdMount top

theorem mtdFreshImage_header (buffer : Bytes) : tag (mtdFreshImage buffer) = mtdVendorTag ∧
    version (mtdFreshImage buffer) = 1 ∧ version2 mtdShape (mtdFreshImage buffer) = 1 := by
  have tail := mtdShape_version2Base
  have word : ∀ m : Bytes, version (write16 (write32 (write32 m 4 1) 0 mtdVendorTag) 14
      mtdShape.dataSize) = 1 := by
    intro m
    simp only [version]
    simp (disch := omega) only [read32_write16_of_disjoint, read32_write32_of_disjoint,
      read32_write32_same]
  refine ⟨?_, ?_, ?_⟩
  · simp only [mtdFreshImage, tag]
    simp (disch := omega) only [read32_write16_of_disjoint, read32_write32_of_disjoint,
      read32_write32_same]
    decide
  · simp only [mtdFreshImage, version]
    rw [read32_write32_of_disjoint (by omega)]
    exact word _
  · simp only [mtdFreshImage, word]
    exact read32_write32_same _ _ _

end VendorStorage
end RockchipSoc
