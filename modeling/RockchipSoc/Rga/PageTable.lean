import Mathlib.Algebra.BigOperators.Ring.List
import Mathlib.Algebra.Ring.Nat
import Mathlib.Data.List.Basic
import Mathlib.Logic.Function.Basic
import Mathlib.Tactic.Common

/-!
# Filling a page table of the RGA2

`rga2_sgt_to_page_table` walks the segments of an sg table and enters the address of each page.
A segment counts with its length divided by the page size, rounded down.  The result is compared
with the pages that the segments really have, put one after the other.
-/

namespace RockchipSoc
namespace Rga

structure Scatterlist where
  dmaAddress : Nat
  physAddress : Nat
  dmaLength : UInt32
  length : UInt32
  deriving DecidableEq

/-- The chain of segments; the first `nents` of them are in use. -/
structure SgTable where
  sgl : List Scatterlist
  nents : Nat
  nents_pos : 0 < nents
  nents_le : nents ≤ sgl.length

/-- `Address` of a segment. -/
def Scatterlist.address (useDmaAddress : Bool) (sg : Scatterlist) : Nat :=
  if useDmaAddress then sg.dmaAddress else sg.physAddress

/-- `len` of a segment. -/
def Scatterlist.len (sg : Scatterlist) : Nat :=
  if sg.dmaLength.toNat / 4096 = 0 then sg.length.toNat / 4096 else sg.dmaLength.toNat / 4096

/-- What is stored for page `i` of a segment. -/
def pageEntry (address i : Nat) : UInt32 := UInt32.ofNat (address + i * 4096)

/-- The inner loop from `i` on with `left` rounds to go.  The flag is `break_flag`; no counter
wraps before it reaches `pageCount`. -/
def fillSegment (address mappedSize pageCount : Nat) :
    Nat → Nat → (Nat → UInt32) → (Nat → UInt32) × Bool
  | 0, _, table => (table, false)
  | left + 1, i, table =>
      if pageCount ≤ mappedSize + i then (table, true)
      else fillSegment address mappedSize pageCount left (i + 1)
        (Function.update table (mappedSize + i) (pageEntry address i))

/-- The outer loop. -/
def fillSegments (useDmaAddress : Bool) (pageCount nents : Nat) :
    List Scatterlist → Nat → Nat → (Nat → UInt32) → Nat → UInt32
  | [], _, _, table => table
  | sg :: rest, mappedSize, sgNum, table =>
      let filled := fillSegment (sg.address useDmaAddress) mappedSize pageCount sg.len 0 table
      if filled.2 then filled.1
      else if mappedSize + sg.len < pageCount ∧ sgNum + 1 < nents then
        fillSegments useDmaAddress pageCount nents rest (mappedSize + sg.len) (sgNum + 1) filled.1
      else filled.1

def rga2SgtToPageTable (sg : SgTable) (pageTable : Nat → UInt32) (pageCount : Nat)
    (useDmaAddress : Bool) : Nat → UInt32 :=
  fillSegments useDmaAddress pageCount sg.nents sg.sgl 0 0 pageTable

/-! ## The pages of the segments -/

/-- The addresses of `count` pages from `address` on. -/
def pagesFrom (address count : Nat) : List Nat := (List.range count).map (address + · * 4096)

/-- The bytes of a segment: of its DMA mapping where that is used and there is one. -/
def Scatterlist.bytes (useDmaAddress : Bool) (sg : Scatterlist) : Nat :=
  if useDmaAddress ∧ sg.dmaLength ≠ 0 then sg.dmaLength.toNat else sg.length.toNat

/-- The pages that a segment touches. -/
def Scatterlist.pages (useDmaAddress : Bool) (sg : Scatterlist) : List Nat :=
  pagesFrom (sg.address useDmaAddress) ((sg.bytes useDmaAddress + 4095) / 4096)

/-- The segments in use. -/
def SgTable.used (sg : SgTable) : List Scatterlist := sg.sgl.take sg.nents

/-- The pages of the concatenated segments. -/
def SgTable.pages (sg : SgTable) (useDmaAddress : Bool) : List Nat :=
  sg.used.flatMap (Scatterlist.pages useDmaAddress)

/-- An sg table that covers a page count: only the last segment may end inside a page, and a
table that is read by physical address is mapped segment by segment or not at all. -/
structure Covers (sg : SgTable) (useDmaAddress : Bool) (pageCount : Nat) : Prop where
  whole : ∀ segment ∈ sg.used.dropLast, 4096 ∣ segment.bytes useDmaAddress
  direct : useDmaAddress = false →
    ∀ segment ∈ sg.used, segment.dmaLength = 0 ∨ segment.dmaLength = segment.length
  enough : pageCount ≤ (sg.pages useDmaAddress).length

/-- Every entry below the page count holds the address of its page, all others are untouched. -/
structure PageTableComplete (sg : SgTable) (useDmaAddress : Bool) (pageCount : Nat)
    (pageTable : Nat → UInt32) : Prop where
  entries : ∀ k < pageCount, ∀ address, (sg.pages useDmaAddress)[k]? = some address →
    (rga2SgtToPageTable sg pageTable pageCount useDmaAddress k).toNat = address
  beyond : ∀ k, pageCount ≤ k →
    rga2SgtToPageTable sg pageTable pageCount useDmaAddress k = pageTable k

/-- The pages that the loop counts. -/
def SgTable.wholePages (sg : SgTable) : Nat := (sg.used.map Scatterlist.len).sum

variable {address mappedSize pageCount nents : Nat} {useDmaAddress : Bool}
  {pageTable : Nat → UInt32}

@[simp] theorem length_pagesFrom (address count : Nat) :
    (pagesFrom address count).length = count := by
  simp [pagesFrom]

theorem getElem?_pagesFrom {address count k : Nat} (inside : k < count) :
    (pagesFrom address count)[k]? = some (address + k * 4096) := by
  simp [pagesFrom, List.getElem?_range inside]

theorem pagesFrom_succ (address count : Nat) :
    pagesFrom address (count + 1) = address :: pagesFrom (address + 4096) count := by
  simp only [pagesFrom, List.range_succ_eq_map, List.map_cons, List.map_map, Nat.zero_mul,
    Nat.add_zero]
  refine congrArg _ (List.map_congr_left fun i _ => ?_)
  simp only [Function.comp_apply, Nat.succ_eq_add_one]
  omega

/-! ## What the loops write -/

/-- The table with `addresses` entered from `start` on, as far as `pageCount` allows. -/
def entered (pageCount : Nat) : Nat → List Nat → (Nat → UInt32) → Nat → UInt32
  | _, [], table => table
  | start, address :: rest, table =>
      entered pageCount (start + 1) rest
        (if start < pageCount then Function.update table start (UInt32.ofNat address) else table)

theorem entered_append (pageCount start : Nat) (front rest : List Nat) (table : Nat → UInt32) :
    entered pageCount start (front ++ rest) table =
      entered pageCount (start + front.length) rest (entered pageCount start front table) := by
  induction front generalizing start table with
  | nil => rfl
  | cons address front ih =>
      simp only [List.cons_append, entered, ih, List.length_cons]
      congr 1
      omega

theorem entered_of_le {start : Nat} (full : pageCount ≤ start) (addresses : List Nat)
    (table : Nat → UInt32) : entered pageCount start addresses table = table := by
  induction addresses generalizing start with
  | nil => rfl
  | cons address rest ih =>
      simp only [entered, if_neg (Nat.not_lt.mpr full)]
      exact ih (Nat.le_succ_of_le full)

theorem entered_apply (pageCount start : Nat) (addresses : List Nat) (table : Nat → UInt32)
    (k : Nat) : entered pageCount start addresses table k =
      if start ≤ k ∧ k < pageCount then
        ((addresses[k - start]?).map UInt32.ofNat).getD (table k)
      else table k := by
  induction addresses generalizing start table with
  | nil => simp [entered]
  | cons address rest ih =>
      rw [entered, ih]
      rcases Nat.lt_trichotomy k start with before | rfl | behind
      · have untouched : (if start < pageCount then
            Function.update table start (UInt32.ofNat address) else table) k = table k := by
          split
          · exact Function.update_of_ne (Nat.ne_of_lt before) _ _
          · rfl
        rw [if_neg (by omega), untouched, if_neg (by omega)]
      · rw [if_neg (by omega)]
        by_cases room : k < pageCount
        · simp [room]
        · simp [room]
      · have untouched : (if start < pageCount then
            Function.update table start (UInt32.ofNat address) else table) k = table k := by
          split
          · exact Function.update_of_ne (Nat.ne_of_gt behind) _ _
          · rfl
        have shifted : k - start = k - (start + 1) + 1 := by omega
        rw [untouched, shifted, List.getElem?_cons_succ]
        exact if_congr (by omega) rfl rfl

theorem fillSegment_fst (address mappedSize pageCount left i : Nat) (table : Nat → UInt32) :
    (fillSegment address mappedSize pageCount left i table).1 =
      entered pageCount (mappedSize + i) (pagesFrom (address + i * 4096) left) table := by
  induction left generalizing i table with
  | zero => rfl
  | succ left ih =>
      rw [fillSegment]
      split
      next full => exact (entered_of_le full _ table).symm
      next room =>
        have next : address + i * 4096 + 4096 = address + (i + 1) * 4096 := by omega
        rw [ih, pagesFrom_succ, entered, if_pos (Nat.lt_of_not_le room), next]
        rfl

theorem fillSegment_snd (address mappedSize pageCount left i : Nat) (table : Nat → UInt32)
    (started : 0 < left) : (fillSegment address mappedSize pageCount left i table).2 =
      decide (pageCount < mappedSize + i + left) := by
  induction left generalizing i table with
  | zero => omega
  | succ left ih =>
      rw [fillSegment]
      split
      next full => exact (decide_eq_true (by omega)).symm
      next room =>
        rcases Nat.eq_zero_or_pos left with rfl | more
        · exact (decide_eq_false (by omega)).symm
        · rw [ih _ _ more, decide_eq_decide]
          omega

/-- The pages that the loops enter. -/
def countedPages (useDmaAddress : Bool) (segments : List Scatterlist) : List Nat :=
  segments.flatMap fun sg => pagesFrom (sg.address useDmaAddress) sg.len

@[simp] theorem length_countedPages (useDmaAddress : Bool) (segments : List Scatterlist) :
    (countedPages useDmaAddress segments).length = (segments.map Scatterlist.len).sum := by
  simp [countedPages, List.length_flatMap]

/-- The loops enter the counted pages of the segments in use and stop at the page count. -/
theorem fillSegments_eq (segments : List Scatterlist) (mappedSize sgNum : Nat)
    (table : Nat → UInt32) (more : sgNum < nents) :
    fillSegments useDmaAddress pageCount nents segments mappedSize sgNum table =
      entered pageCount mappedSize
        (countedPages useDmaAddress (segments.take (nents - sgNum))) table := by
  induction segments generalizing mappedSize sgNum table with
  | nil => simp [fillSegments, countedPages, entered]
  | cons sg rest ih =>
      have one : nents - sgNum = nents - (sgNum + 1) + 1 := by omega
      have first : (fillSegment (sg.address useDmaAddress) mappedSize pageCount sg.len 0 table).1 =
          entered pageCount mappedSize (pagesFrom (sg.address useDmaAddress) sg.len) table := by
        simpa using fillSegment_fst (sg.address useDmaAddress) mappedSize pageCount sg.len 0 table
      have full (done : pageCount ≤ mappedSize + sg.len) (others : List Nat) :
          entered pageCount mappedSize (pagesFrom (sg.address useDmaAddress) sg.len) table =
            entered pageCount mappedSize
              (pagesFrom (sg.address useDmaAddress) sg.len ++ others) table := by
        rw [entered_append, length_pagesFrom, entered_of_le done]
      rw [one, List.take_succ_cons, countedPages, List.flatMap_cons, ← countedPages, fillSegments,
        first]
      split
      next broke =>
        have started : 0 < sg.len := by
          by_contra none
          rw [Nat.eq_zero_of_not_pos none] at broke
          exact Bool.false_ne_true broke
        rw [fillSegment_snd _ _ _ _ _ _ started, decide_eq_true_iff] at broke
        exact full (by omega) _
      next =>
        split
        next goesOn =>
          rw [ih _ _ _ goesOn.2, entered_append, length_pagesFrom]
        next stops =>
          rcases Nat.lt_or_ge (mappedSize + sg.len) pageCount with room | done
          · have last : nents - (sgNum + 1) = 0 := by omega
            simp [last, countedPages]
          · exact full done _

theorem rga2SgtToPageTable_apply (sg : SgTable) (pageTable : Nat → UInt32) (pageCount : Nat)
    (useDmaAddress : Bool) (k : Nat) :
    rga2SgtToPageTable sg pageTable pageCount useDmaAddress k =
      if k < pageCount then
        (((countedPages useDmaAddress sg.used)[k]?).map UInt32.ofNat).getD (pageTable k)
      else pageTable k := by
  rw [rga2SgtToPageTable, fillSegments_eq _ _ _ _ sg.nents_pos, entered_apply]
  simp [SgTable.used]

/-! ## The last segment -/

theorem SgTable.used_eq (sg : SgTable) :
    ∃ last, sg.used = sg.used.dropLast ++ [last] := by
  have nonempty : sg.used ≠ [] := by
    intro empty
    have length_eq : sg.used.length = min sg.nents sg.sgl.length := List.length_take
    have pos := sg.nents_pos
    have le := sg.nents_le
    rw [empty, List.length_nil] at length_eq
    omega
  exact ⟨sg.used.getLast nonempty, (List.dropLast_append_getLast nonempty).symm⟩

/-- Without a DMA mapping to follow, a segment counts with the pages of its own length. -/
theorem Scatterlist.len_unmapped {sg : Scatterlist}
    (unmapped : ¬(useDmaAddress ∧ sg.dmaLength ≠ 0))
    (direct : useDmaAddress = false → sg.dmaLength = 0 ∨ sg.dmaLength = sg.length) :
    sg.len = sg.length.toNat / 4096 := by
  have sameOrNone : sg.dmaLength = 0 ∨ sg.dmaLength = sg.length := by
    cases useDmaAddress with
    | true => exact Or.inl (by simpa using unmapped)
    | false => exact direct rfl
  unfold Scatterlist.len
  rcases sameOrNone with none | same
  · rw [none]
    rfl
  · rw [same]
    split
    next small => rfl
    next => rfl

/-- A segment counts with the whole pages of its bytes at least. -/
theorem Scatterlist.div_le_len {sg : Scatterlist}
    (direct : useDmaAddress = false → sg.dmaLength = 0 ∨ sg.dmaLength = sg.length) :
    sg.bytes useDmaAddress / 4096 ≤ sg.len := by
  unfold Scatterlist.bytes
  split
  next mapped =>
    unfold Scatterlist.len
    split <;> omega
  next unmapped => exact Nat.le_of_eq (Scatterlist.len_unmapped unmapped direct).symm

/-- A segment of whole pages counts with all of them. -/
theorem Scatterlist.len_eq {sg : Scatterlist} (whole : 4096 ∣ sg.bytes useDmaAddress)
    (direct : useDmaAddress = false → sg.dmaLength = 0 ∨ sg.dmaLength = sg.length) :
    sg.len * 4096 = sg.bytes useDmaAddress := by
  unfold Scatterlist.bytes at whole ⊢
  split at whole
  next mapped =>
    have nonzero : sg.dmaLength.toNat ≠ 0 := fun zero => mapped.2 (UInt32.toNat_inj.mp zero)
    rw [if_pos mapped, Scatterlist.len, if_neg (by omega)]
    exact Nat.div_mul_cancel whole
  next unmapped =>
    rw [if_neg unmapped, Scatterlist.len_unmapped unmapped direct]
    exact Nat.div_mul_cancel whole

/-- The loops count the pages in the right order; they can only miss some of the last segment. -/
theorem countedPages_getElem? {sg : SgTable} (covers : Covers sg useDmaAddress pageCount) {k : Nat}
    (counted : k < sg.wholePages) (touched : k < (sg.pages useDmaAddress).length) :
    (countedPages useDmaAddress sg.used)[k]? = (sg.pages useDmaAddress)[k]? := by
  obtain ⟨last, split_eq⟩ := sg.used_eq
  have front : countedPages useDmaAddress sg.used.dropLast =
      sg.used.dropLast.flatMap (Scatterlist.pages useDmaAddress) := by
    refine List.flatMap_congr fun segment member => ?_
    have len_eq : segment.len * 4096 = segment.bytes useDmaAddress :=
      Scatterlist.len_eq (covers.whole segment member) fun physical =>
        covers.direct physical segment (List.dropLast_subset _ member)
    have pages_eq : segment.len = (segment.bytes useDmaAddress + 4095) / 4096 := by omega
    rw [pages_eq, Scatterlist.pages]
  have counted_eq : countedPages useDmaAddress sg.used =
      sg.used.dropLast.flatMap (Scatterlist.pages useDmaAddress) ++
        pagesFrom (last.address useDmaAddress) last.len := by
    rw [← front]
    conv_lhs => rw [split_eq]
    simp [countedPages]
  have pages_eq : sg.pages useDmaAddress =
      sg.used.dropLast.flatMap (Scatterlist.pages useDmaAddress) ++
        last.pages useDmaAddress := by
    rw [SgTable.pages]
    conv_lhs => rw [split_eq]
    simp
  have inside : k < (countedPages useDmaAddress sg.used).length :=
    Nat.lt_of_lt_of_eq counted (length_countedPages useDmaAddress sg.used).symm
  rw [counted_eq, List.length_append, length_pagesFrom] at inside
  rw [pages_eq, List.length_append, Scatterlist.pages, length_pagesFrom] at touched
  rw [counted_eq, pages_eq]
  rcases Nat.lt_or_ge k
    (sg.used.dropLast.flatMap (Scatterlist.pages useDmaAddress)).length with early | late
  · rw [List.getElem?_append_left early, List.getElem?_append_left early]
  · rw [List.getElem?_append_right late, List.getElem?_append_right late, Scatterlist.pages,
      getElem?_pagesFrom (by omega), getElem?_pagesFrom (by omega)]

/-- A page table is filled completely exactly if the segments have the pages as whole ones and
the pages lie below 4 GiB. -/
theorem page_table_complete_iff (sg : SgTable) (useDmaAddress : Bool) (pageCount : Nat)
    (covers : Covers sg useDmaAddress pageCount) :
    (∀ pageTable, PageTableComplete sg useDmaAddress pageCount pageTable) ↔
      pageCount ≤ sg.wholePages ∧
        ∀ address ∈ (sg.pages useDmaAddress).take pageCount, address < 2 ^ 32 := by
  constructor
  · intro complete
    constructor
    · by_contra short
      have missing : sg.wholePages < (sg.pages useDmaAddress).length :=
        Nat.lt_of_lt_of_le (Nat.not_le.mp short) covers.enough
      have stale (pageTable : Nat → UInt32) :
          (pageTable sg.wholePages).toNat = (sg.pages useDmaAddress)[sg.wholePages] := by
        have entry := (complete pageTable).entries sg.wholePages (Nat.not_le.mp short) _
          (List.getElem?_eq_getElem missing)
        have none : (countedPages useDmaAddress sg.used)[sg.wholePages]? = none :=
          List.getElem?_eq_none (Nat.le_of_eq (length_countedPages useDmaAddress sg.used))
        rwa [rga2SgtToPageTable_apply, if_pos (Nat.not_le.mp short), none] at entry
      have clash := (stale fun _ => 0).trans (stale fun _ => 1).symm
      exact absurd clash (by decide)
    · intro address member
      obtain ⟨k, inside, rfl⟩ := List.mem_iff_getElem.mp member
      have below : k < pageCount := Nat.lt_of_lt_of_le inside (List.length_take_le _ _)
      have entry := (complete fun _ => 0).entries k below _
        ((List.getElem?_take_of_lt below).symm.trans (List.getElem?_eq_getElem inside))
      rw [← entry]
      exact UInt32.toNat_lt _
  · rintro ⟨whole, low⟩ pageTable
    refine ⟨fun k below address page => ?_, fun k beyond => ?_⟩
    · have touched := (List.getElem?_eq_some_iff.mp page).1
      have small : address < 2 ^ 32 := by
        refine low address (List.mem_of_getElem? (i := k) ?_)
        rw [List.getElem?_take_of_lt below, page]
      rw [rga2SgtToPageTable_apply, if_pos below,
        countedPages_getElem? covers (Nat.lt_of_lt_of_le below whole) touched, page]
      exact UInt32.toNat_ofNat_of_lt' small
    · rw [rga2SgtToPageTable_apply, if_neg (Nat.not_lt.mpr beyond)]

/-- Segments whose bytes make up the pages have them as whole pages. -/
theorem Covers.wholePages_of_bytes {sg : SgTable} (covers : Covers sg useDmaAddress pageCount)
    (bytes : pageCount * 4096 ≤ (sg.used.map (Scatterlist.bytes useDmaAddress)).sum) :
    pageCount ≤ sg.wholePages := by
  obtain ⟨last, split_eq⟩ := sg.used_eq
  have front : (sg.used.dropLast.map Scatterlist.len).sum * 4096 =
      (sg.used.dropLast.map (Scatterlist.bytes useDmaAddress)).sum := by
    rw [← List.sum_map_mul_right sg.used.dropLast Scatterlist.len 4096]
    refine congrArg List.sum (List.map_congr_left fun segment member => ?_)
    exact Scatterlist.len_eq (covers.whole segment member) fun physical =>
      covers.direct physical segment (List.dropLast_subset _ member)
  have rest : last.bytes useDmaAddress / 4096 ≤ last.len :=
    Scatterlist.div_le_len fun physical => covers.direct physical last (by
      rw [split_eq]
      simp)
  have bytes_eq : (sg.used.map (Scatterlist.bytes useDmaAddress)).sum =
      (sg.used.dropLast.map (Scatterlist.bytes useDmaAddress)).sum +
        last.bytes useDmaAddress := by
    conv_lhs => rw [split_eq]
    simp
  have len_eq : sg.wholePages = (sg.used.dropLast.map Scatterlist.len).sum + last.len := by
    rw [SgTable.wholePages]
    conv_lhs => rw [split_eq]
    simp
  omega

/-- The table of a user buffer of `0x1800` bytes. -/
def partialPageTable : SgTable where
  sgl := [⟨0, 0x100000, 0, 0x1800⟩]
  nents := 1
  nents_pos := by decide
  nents_le := by decide

theorem covers_partialPageTable : Covers partialPageTable false 2 where
  whole := by decide
  direct := by decide
  enough := by decide

theorem page_table_complete_iff_partialPageTable :
    (∀ pageTable, PageTableComplete partialPageTable false 2 pageTable) ↔
      2 ≤ partialPageTable.wholePages ∧
        ∀ address ∈ (partialPageTable.pages false).take 2, address < 2 ^ 32 :=
  page_table_complete_iff partialPageTable false 2 covers_partialPageTable

/-- The second page of the buffer is missing: its entry keeps the address of an earlier job. -/
theorem partial_page_keeps_stale_address :
    Covers partialPageTable false 2 ∧ (partialPageTable.pages false)[1]? = some 0x101000 ∧
      rga2SgtToPageTable partialPageTable (fun _ => 0xdead000) 2 false 1 = 0xdead000 ∧
      ¬PageTableComplete partialPageTable false 2 fun _ => 0xdead000 := by
  have stale : rga2SgtToPageTable partialPageTable (fun _ => 0xdead000) 2 false 1 = 0xdead000 := by
    decide
  have second : (partialPageTable.pages false)[1]? = some 0x101000 := by decide
  refine ⟨covers_partialPageTable, second, stale, fun complete => ?_⟩
  have entry := complete.entries 1 (by decide) _ second
  rw [stale] at entry
  exact absurd entry (by decide)

end Rga
end RockchipSoc
