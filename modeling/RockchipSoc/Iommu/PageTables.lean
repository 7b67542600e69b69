import Mathlib.Data.Fin.Basic
import Mathlib.Tactic.Ring
import RockchipSoc.Foundation.PartialMap
import RockchipSoc.Iommu.PageFormats

/-!
# Walking and changing the tables

The directory table and the page tables lie in physical memory, one page each, and are read and
written word by word at computed addresses.  `lookup` is what the tables mean: a partial map from
the pages of the 32-bit iova space to granted pages.  A domain whose tables do not overlap is
changed at one page by one word; the loops of the driver then insert and erase bindings.
-/

namespace RockchipSoc
namespace Iommu

open PartialMap

/-- What the page allocator and the DMA mapping of a page answer. -/
inductive PageAnswer where
  /-- `get_zeroed_page` fails. -/
  | noPage
  /-- The page cannot be mapped for DMA and is freed. -/
  | notMapped (page : ℕ)
  | page (page : ℕ)
  deriving DecidableEq, Repr

/-- Physical memory, the directory table in it, and the answers of the allocator to come. -/
structure RkIommuDomain where
  words : ℕ → ℕ
  dt : ℕ
  answers : List PageAnswer

namespace RkIommuDomain

/-- The directory entry for an iova. -/
def dte (domain : RkIommuDomain) (iova : ℕ) : ℕ :=
  domain.words (domain.dt + 4 * rkIovaDteIndex iova)

def withWords (domain : RkIommuDomain) (words : ℕ → ℕ) : RkIommuDomain :=
  { domain with words := words }

@[simp]
theorem withWords_words (domain : RkIommuDomain) (words : ℕ → ℕ) :
    (domain.withWords words).words = words := rfl

@[simp]
theorem withWords_dt (domain : RkIommuDomain) (words : ℕ → ℕ) :
    (domain.withWords words).dt = domain.dt := rfl

@[simp]
theorem withWords_answers (domain : RkIommuDomain) (words : ℕ → ℕ) :
    (domain.withWords words).answers = domain.answers := rfl

@[simp]
theorem withWords_withWords (domain : RkIommuDomain) (words words' : ℕ → ℕ) :
    (domain.withWords words).withWords words' = domain.withWords words' := rfl

end RkIommuDomain

def enomem : ℤ := 12

def einval : ℤ := 22

def eaddrinuse : ℤ := 98

/-- `get_zeroed_page` clears the page it hands out. -/
def zeroPage (words : ℕ → ℕ) (page : ℕ) : ℕ → ℕ :=
  fun address => if page ≤ address ∧ address < page + spageSize then 0 else words address

section Driver

variable (format : PageFormat)

/-- `rk_iommu_iova_to_phys` and `rk_iommu_iova_to_phys_v2`. -/
def rkIommuIovaToPhys (domain : RkIommuDomain) (iova : ℕ) : ℕ :=
  let dte := domain.dte iova
  if ¬rkDteIsPtValid dte then 0
  else
    let pte := domain.words (format.dtePtAddress dte + 4 * rkIovaPteIndex iova)
    if ¬rkPteIsPageValid pte then 0
    else format.ptePageAddress pte + rkIovaPageOffset iova

/-- `rk_dte_get_page_table` and its second version; `none` is `ERR_PTR(-ENOMEM)`. -/
def rkDteGetPageTable (domain : RkIommuDomain) (iova : ℕ) : RkIommuDomain × Option ℕ :=
  let dte := domain.dte iova
  if rkDteIsPtValid dte then (domain, some (format.dtePtAddress dte))
  else
    match domain.answers with
    | [] => (domain, none)
    | .noPage :: answers => ({ domain with answers }, none)
    | .notMapped page :: answers =>
        ({ domain with words := zeroPage domain.words page, answers }, none)
    | .page page :: answers =>
        let dte := format.mkDte page
        let words := Function.update (zeroPage domain.words page)
          (domain.dt + 4 * rkIovaDteIndex iova) dte
        ({ domain with words, answers }, some (format.dtePtAddress dte))

/-- The loop of `rk_iommu_unmap_iova` from an entry on, with the entries it invalidated. -/
def unmapPtes (words : ℕ → ℕ) (pteAddr : ℕ) : ℕ → (ℕ → ℕ) × ℕ
  | 0 => (words, 0)
  | left + 1 =>
      let pte := words pteAddr
      if ¬rkPteIsPageValid pte then (words, 0)
      else
        let rest :=
          unmapPtes (Function.update words pteAddr (rkMkPteInvalid pte)) (pteAddr + 4) left
        (rest.1, rest.2 + 1)

def rkIommuUnmapIova (words : ℕ → ℕ) (pteAddr size : ℕ) : (ℕ → ℕ) × ℕ :=
  let unmapped := unmapPtes words pteAddr (size / spageSize)
  (unmapped.1, unmapped.2 * spageSize)

/-- How far the loop of `rk_iommu_map_iova` came, and whether it met a valid entry. -/
structure MappedPtes where
  words : ℕ → ℕ
  pteCount : ℕ
  unwind : Bool

/-- The loop of `rk_iommu_map_iova` from an entry on. -/
def mapPtes (prot : ℕ) (words : ℕ → ℕ) (pteAddr paddr : ℕ) : ℕ → MappedPtes
  | 0 => { words, pteCount := 0, unwind := false }
  | left + 1 =>
      if rkPteIsPageValid (words pteAddr) then { words, pteCount := 0, unwind := true }
      else
        let rest := mapPtes prot (Function.update words pteAddr (format.mkPte paddr prot))
          (pteAddr + 4) ((paddr + spageSize) % 2 ^ 64) left
        { rest with pteCount := rest.pteCount + 1 }

/-- `rk_iommu_map_iova` and its second version. -/
def rkIommuMapIova (words : ℕ → ℕ) (pteAddr paddr size prot : ℕ) : (ℕ → ℕ) × ℤ :=
  let mapped := mapPtes format prot words pteAddr paddr (size / spageSize)
  if mapped.unwind then
    ((rkIommuUnmapIova mapped.words pteAddr (mapped.pteCount * spageSize)).1, -eaddrinuse)
  else (mapped.words, 0)

/-- `rk_iommu_map` and its second version. -/
def rkIommuMap (domain : RkIommuDomain) (iova paddr size prot : ℕ) : RkIommuDomain × ℤ :=
  match rkDteGetPageTable format domain iova with
  | (domain, none) => (domain, -enomem)
  | (domain, some pageTable) =>
      let pteAddr := pageTable + 4 * rkIovaPteIndex iova
      let mapped := rkIommuMapIova format domain.words pteAddr paddr size prot
      (domain.withWords mapped.1, mapped.2)

/-- `rk_iommu_unmap` and its second version. -/
def rkIommuUnmap (domain : RkIommuDomain) (iova size : ℕ) : RkIommuDomain × ℕ :=
  let dte := domain.dte iova
  if ¬rkDteIsPtValid dte then (domain, 0)
  else
    let pteAddr := format.dtePtAddress dte + 4 * rkIovaPteIndex iova
    let unmapped := rkIommuUnmapIova domain.words pteAddr size
    (domain.withWords unmapped.1, unmapped.2)

end Driver

/-! ## What the tables mean -/

/-- A page of the 32-bit iova space. -/
abbrev IovaPage := Fin (2 ^ 20)

/-- The page of an iova; bits above the 32nd are not looked at. -/
def pageOf (iova : ℕ) : IovaPage := Fin.ofNat (2 ^ 20) (iova / spageSize)

theorem pageOf_val (iova : ℕ) : (pageOf iova).val = iova / 4096 % 1048576 := rfl

theorem pageOf_congr {iova iova' : ℕ} (same : iova % 2 ^ 64 = iova' % 2 ^ 64) :
    pageOf iova = pageOf iova' := by
  apply Fin.ext
  rw [pageOf_val, pageOf_val]
  omega

/-- The index in the directory of a page. -/
theorem rkIovaDteIndex_page (iova : ℕ) : rkIovaDteIndex iova = (pageOf iova).val / 1024 := by
  rw [rkIovaDteIndex_eq, pageOf_val]
  omega

theorem rkIovaPteIndex_page (iova : ℕ) : rkIovaPteIndex iova = (pageOf iova).val % 1024 := by
  rw [rkIovaPteIndex_eq, pageOf_val]
  omega

/-- What the word of an entry grants, if it is valid. -/
def entryOf (format : PageFormat) (pte : ℕ) : Option PageEntry :=
  if rkPteIsPageValid pte then some (format.decode pte) else none

/-- The page an iova is translated to, if any. -/
def lookup (format : PageFormat) (domain : RkIommuDomain) (page : IovaPage) : Option PageEntry :=
  let dte := domain.words (domain.dt + 4 * (page.val / 1024))
  if rkDteIsPtValid dte then
    entryOf format (domain.words (format.dtePtAddress dte + 4 * (page.val % 1024)))
  else none

/-- A table of the domain, named by its index in the directory. -/
def IsTable (format : PageFormat) (domain : RkIommuDomain) (index page : ℕ) : Prop :=
  index < 1024 ∧ rkDteIsPtValid (domain.words (domain.dt + 4 * index)) = true ∧
    format.dtePtAddress (domain.words (domain.dt + 4 * index)) = page

/-- The pages the domain uses. -/
def InUse (format : PageFormat) (domain : RkIommuDomain) (page : ℕ) : Prop :=
  page = domain.dt ∨ ∃ index, IsTable format domain index page

/-- The allocator hands out aligned pages below 4 GiB that nobody uses. -/
def Fresh (inUse : ℕ → Prop) : List PageAnswer → Prop
  | [] => True
  | .noPage :: answers => Fresh inUse answers
  | .notMapped page :: answers =>
      page % spageSize = 0 ∧ page < 2 ^ 32 ∧ ¬inUse page ∧ Fresh inUse answers
  | .page page :: answers =>
      page % spageSize = 0 ∧ page < 2 ^ 32 ∧ ¬inUse page ∧
        Fresh (fun other => other = page ∨ inUse other) answers

/-- The tables of a domain do not overlap, and the allocator will keep it so. -/
structure WellFormed (format : PageFormat) (domain : RkIommuDomain) : Prop where
  dt_aligned : domain.dt % spageSize = 0
  table_aligned : ∀ {index page}, IsTable format domain index page → page % spageSize = 0
  table_ne_dt : ∀ {index page}, IsTable format domain index page → page ≠ domain.dt
  table_inj : ∀ {index other page}, IsTable format domain index page →
    IsTable format domain other page → index = other
  fresh : Fresh (InUse format domain) domain.answers

end Iommu
end RockchipSoc
