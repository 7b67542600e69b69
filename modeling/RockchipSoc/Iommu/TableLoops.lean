import RockchipSoc.Iommu.PageTables

/-!
# One word, one binding

Writing one entry of a page table changes the translation at one page of the iova space and leaves
the directory alone.  By induction the loops over the entries of one table are `insertNew` and
`eraseBound`, and the unwinding of `rk_iommu_map_iova` restores the translation.
-/

namespace RockchipSoc
namespace Iommu

open PartialMap

variable {format : PageFormat} {domain : RkIommuDomain} {iova paddr prot index page : ℕ}
  {words : ℕ → ℕ}

/-- The directory of the domain reads the same in other words. -/
def SameDirectory (domain : RkIommuDomain) (words : ℕ → ℕ) : Prop :=
  ∀ index < 1024, words (domain.dt + 4 * index) = domain.words (domain.dt + 4 * index)

theorem SameDirectory.isTable_iff (same : SameDirectory domain words) :
    IsTable format (domain.withWords words) index page ↔ IsTable format domain index page := by
  simp only [IsTable, RkIommuDomain.withWords_words, RkIommuDomain.withWords_dt]
  refine and_congr_right fun inside => ?_
  rw [same index inside]

theorem SameDirectory.inUse_eq (same : SameDirectory domain words) :
    InUse format (domain.withWords words) = InUse format domain := by
  funext page
  simp only [InUse, same.isTable_iff, RkIommuDomain.withWords_dt]

/-- Nothing but the directory decides whether the tables overlap. -/
theorem SameDirectory.wellFormed (same : SameDirectory domain words)
    (formed : WellFormed format domain) : WellFormed format (domain.withWords words) where
  dt_aligned := formed.dt_aligned
  table_aligned table := formed.table_aligned (same.isTable_iff.mp table)
  table_ne_dt table := formed.table_ne_dt (same.isTable_iff.mp table)
  table_inj table other :=
    formed.table_inj (same.isTable_iff.mp table) (same.isTable_iff.mp other)
  fresh := by
    rw [same.inUse_eq]
    exact formed.fresh

/-- Words of different pages have different addresses. -/
theorem address_ne {page other offset offset' : ℕ} (aligned : page % spageSize = 0)
    (aligned' : other % spageSize = 0) (different : page ≠ other) (inside : offset < spageSize)
    (inside' : offset' < spageSize) : page + offset ≠ other + offset' := by
  simp only [spageSize] at *
  omega

theorem rkIovaPteIndex_lt (iova : ℕ) : rkIovaPteIndex iova < 1024 := by
  rw [rkIovaPteIndex_eq]
  omega

/-- The words differ inside of one page at most. -/
def OnlyPage (page : ℕ) (words words' : ℕ → ℕ) : Prop :=
  ∀ address, address < page ∨ page + spageSize ≤ address → words' address = words address

theorem OnlyPage.trans {words' words'' : ℕ → ℕ} (first : OnlyPage page words words')
    (second : OnlyPage page words' words'') : OnlyPage page words words'' :=
  fun address outside => (second address outside).trans (first address outside)

theorem onlyPage_update {place : ℕ} (inside : place < 1024) (word : ℕ) :
    OnlyPage page words (Function.update words (page + 4 * place) word) := by
  intro address outside
  refine Function.update_of_ne ?_ word words
  simp only [spageSize] at outside
  omega

/-- A change of a page table does not reach the directory. -/
theorem WellFormed.sameDirectory (formed : WellFormed format domain)
    (table : IsTable format domain index page) (only : OnlyPage page domain.words words) :
    SameDirectory domain words := by
  intro other bound
  have apart := formed.table_ne_dt table
  have aligned := formed.table_aligned table
  have dtAligned := formed.dt_aligned
  simp only [spageSize] at aligned dtAligned
  refine only _ ?_
  simp only [spageSize]
  omega

/-- One word of a page table is one binding. -/
theorem WellFormed.lookup_update (formed : WellFormed format domain)
    (table : IsTable format domain (rkIovaDteIndex iova) page) (word : ℕ) :
    lookup format (domain.withWords
        (Function.update domain.words (page + 4 * rkIovaPteIndex iova) word)) =
      Function.update (lookup format domain) (pageOf iova) (entryOf format word) := by
  funext other
  have same := formed.sameDirectory table (onlyPage_update (rkIovaPteIndex_lt iova) word)
  have otherBound : other.val / 1024 < 1024 := by omega
  simp only [lookup, RkIommuDomain.withWords_words, RkIommuDomain.withWords_dt,
    same _ otherBound]
  by_cases equal : other = pageOf iova
  · subst equal
    have valid := table.2.1
    have address := table.2.2
    rw [rkIovaDteIndex_page] at valid address
    rw [if_pos valid, address, ← rkIovaPteIndex_page, Function.update_self, Function.update_self]
  · rw [Function.update_of_ne equal, lookup]
    by_cases valid : rkDteIsPtValid (domain.words (domain.dt + 4 * (other.val / 1024))) = true
    · rw [if_pos valid, if_pos valid]
      congr 1
      refine Function.update_of_ne ?_ word domain.words
      have otherTable : IsTable format domain (other.val / 1024) _ := ⟨otherBound, valid, rfl⟩
      have insideOther : 4 * (other.val % 1024) < spageSize := by
        simp only [spageSize]
        omega
      have inside : 4 * rkIovaPteIndex iova < spageSize := by
        have := rkIovaPteIndex_lt iova
        simp only [spageSize]
        omega
      by_cases samePage : format.dtePtAddress (domain.words (domain.dt + 4 * (other.val / 1024))) =
          page
      · rw [samePage] at otherTable ⊢
        have sameIndex := formed.table_inj otherTable table
        rw [rkIovaDteIndex_page] at sameIndex
        rw [rkIovaPteIndex_page]
        intro sameAddress
        refine equal (Fin.ext ?_)
        omega
      · exact address_ne (formed.table_aligned otherTable) (formed.table_aligned table) samePage
          insideOther inside
    · rw [if_neg valid, if_neg valid]

/-- The entry that a loop looks at is the translation of the page. -/
theorem lookup_of_isTable (table : IsTable format domain (rkIovaDteIndex iova) page) :
    lookup format domain (pageOf iova) =
      entryOf format (domain.words (page + 4 * rkIovaPteIndex iova)) := by
  have valid := table.2.1
  have address := table.2.2
  rw [rkIovaDteIndex_page] at valid address
  rw [lookup, if_pos valid, address, ← rkIovaPteIndex_page]

theorem entryOf_eq_none {pte : ℕ} : entryOf format pte = none ↔ rkPteIsPageValid pte = false := by
  rw [entryOf]
  cases rkPteIsPageValid pte with
  | false => simp
  | true => simp

theorem entryOf_rkMkPteInvalid (pte : ℕ) : entryOf format (rkMkPteInvalid pte) = none :=
  entryOf_eq_none.mpr (isValid_rkMkPteInvalid pte)

theorem entryOf_mkPte (page prot : ℕ) :
    entryOf format (format.mkPte page prot) =
      some (.granted format.addressBits page prot) := by
  rw [entryOf, if_pos (format.isValid_mkPte page prot), format.decode_mkPte]

/-! ## Consecutive pages -/

/-- The pages from an iova on. -/
def pagesFrom (iova : ℕ) : ℕ → List IovaPage
  | 0 => []
  | count + 1 => pageOf iova :: pagesFrom (iova + spageSize) count

/-- The bindings of consecutive pages to consecutive physical pages. -/
def bindings (format : PageFormat) (prot iova paddr : ℕ) : ℕ → List (IovaPage × PageEntry)
  | 0 => []
  | count + 1 =>
      (pageOf iova, .granted format.addressBits paddr prot) ::
        bindings format prot (iova + spageSize) (paddr + spageSize) count

theorem map_fst_bindings (iova paddr count : ℕ) :
    (bindings format prot iova paddr count).map Prod.fst = pagesFrom iova count := by
  induction count generalizing iova paddr with
  | zero => rfl
  | succ count ih => rw [bindings, List.map_cons, ih, pagesFrom]

theorem length_bindings (iova paddr count : ℕ) :
    (bindings format prot iova paddr count).length = count := by
  induction count generalizing iova paddr with
  | zero => rfl
  | succ count ih => rw [bindings, List.length_cons, ih]

theorem length_pagesFrom (iova count : ℕ) : (pagesFrom iova count).length = count := by
  induction count generalizing iova with
  | zero => rfl
  | succ count ih => rw [pagesFrom, List.length_cons, ih]

theorem pagesFrom_add (iova first second : ℕ) :
    pagesFrom iova (first + second) =
      pagesFrom iova first ++ pagesFrom (iova + spageSize * first) second := by
  induction first generalizing iova with
  | zero => simp [pagesFrom]
  | succ first ih =>
      rw [Nat.succ_add, pagesFrom, ih, pagesFrom, List.cons_append, Nat.add_assoc, Nat.mul_succ,
        Nat.add_comm spageSize]

theorem bindings_add (iova paddr first second : ℕ) :
    bindings format prot iova paddr (first + second) =
      bindings format prot iova paddr first ++
        bindings format prot (iova + spageSize * first) (paddr + spageSize * first) second := by
  induction first generalizing iova paddr with
  | zero => simp [bindings]
  | succ first ih =>
      rw [Nat.succ_add, bindings, ih, bindings, List.cons_append, Nat.add_assoc, Nat.add_assoc,
        Nat.mul_succ, Nat.add_comm spageSize]

theorem pagesFrom_congr {iova iova' : ℕ} (same : iova % 2 ^ 64 = iova' % 2 ^ 64) (count : ℕ) :
    pagesFrom iova count = pagesFrom iova' count := by
  induction count generalizing iova iova' with
  | zero => rfl
  | succ count ih =>
      rw [pagesFrom, pagesFrom, pageOf_congr same]
      refine congrArg _ (ih ?_)
      omega

theorem mem_bindings (prot iova paddr : ℕ) {place count : ℕ} (inside : place < count) :
    (pageOf (iova + spageSize * place),
      PageEntry.granted format.addressBits (paddr + spageSize * place) prot) ∈
        bindings format prot iova paddr count := by
  obtain ⟨behind, rfl⟩ := Nat.exists_eq_add_of_lt inside
  rw [Nat.add_assoc, bindings_add, bindings]
  exact List.mem_append_right _ (List.mem_cons_self ..)

theorem take_pagesFrom (iova : ℕ) {first count : ℕ} (less : first ≤ count) :
    (pagesFrom iova count).take first = pagesFrom iova first := by
  obtain ⟨second, rfl⟩ := Nat.exists_eq_add_of_le less
  rw [pagesFrom_add, List.take_left' (length_pagesFrom iova first)]

theorem drop_pagesFrom (iova : ℕ) {first count : ℕ} (less : first ≤ count) :
    (pagesFrom iova count).drop first = pagesFrom (iova + spageSize * first) (count - first) := by
  obtain ⟨second, rfl⟩ := Nat.exists_eq_add_of_le less
  rw [pagesFrom_add, List.drop_left' (length_pagesFrom iova first), Nat.add_sub_cancel_left]

/-- Addresses count up to a word. -/
theorem bindings_congr {iova iova' paddr paddr' : ℕ} (same : iova % 2 ^ 64 = iova' % 2 ^ 64)
    (same' : paddr % 2 ^ 64 = paddr' % 2 ^ 64) (count : ℕ) :
    bindings format prot iova paddr count = bindings format prot iova' paddr' count := by
  induction count generalizing iova iova' paddr paddr' with
  | zero => rfl
  | succ count ih =>
      have granted : PageEntry.granted format.addressBits paddr prot =
          .granted format.addressBits paddr' prot := by
        rw [PageEntry.granted, PageEntry.granted, ← pageBase_word format.addressBits_le paddr,
          same', pageBase_word format.addressBits_le paddr']
      rw [bindings, bindings, pageOf_congr same, granted]
      refine congrArg _ (ih ?_ ?_) <;> omega

/-! ## The loops over the entries of one table -/

/-- The entries from an address on are those of the pages from an iova on, in one table. -/
def Entries (index page iova pteAddr left : ℕ) : Prop :=
  ∀ count < left, rkIovaDteIndex (iova + spageSize * count) = index ∧
    pteAddr + 4 * count = page + 4 * rkIovaPteIndex (iova + spageSize * count)

variable {pteAddr left : ℕ}

/-- A range that does not leave its table. -/
theorem entries_of_fits (page : ℕ) (fits : rkIovaPteIndex iova + left ≤ 1024) :
    Entries (rkIovaDteIndex iova) page iova (page + 4 * rkIovaPteIndex iova) left := by
  intro count inside
  simp only [rkIovaDteIndex_eq, rkIovaPteIndex_eq, spageSize] at *
  omega

theorem Entries.head (entries : Entries index page iova pteAddr (left + 1)) :
    rkIovaDteIndex iova = index ∧ pteAddr = page + 4 * rkIovaPteIndex iova :=
  entries 0 (Nat.succ_pos left)

theorem Entries.tail (entries : Entries index page iova pteAddr (left + 1)) :
    Entries index page (iova + spageSize) (pteAddr + 4) left := by
  intro count inside
  have next := entries (count + 1) (Nat.succ_lt_succ inside)
  rw [Nat.mul_succ, Nat.add_comm _ spageSize, ← Nat.add_assoc, Nat.mul_succ, Nat.add_comm _ 4,
    ← Nat.add_assoc] at next
  exact next

theorem Entries.mono {fewer : ℕ} (entries : Entries index page iova pteAddr left)
    (less : fewer ≤ left) : Entries index page iova pteAddr fewer :=
  fun count inside => entries count (Nat.lt_of_lt_of_le inside less)

/-- The state after one entry of a table was written. -/
theorem WellFormed.write (formed : WellFormed format domain)
    (table : IsTable format domain index page)
    (entries : Entries index page iova pteAddr (left + 1)) (word : ℕ) :
    WellFormed format (domain.withWords (Function.update domain.words pteAddr word)) ∧
      IsTable format (domain.withWords (Function.update domain.words pteAddr word)) index page ∧
      OnlyPage page domain.words (Function.update domain.words pteAddr word) ∧
      lookup format (domain.withWords (Function.update domain.words pteAddr word)) =
        Function.update (lookup format domain) (pageOf iova) (entryOf format word) := by
  obtain ⟨rfl, rfl⟩ := entries.head
  have only : OnlyPage page domain.words
      (Function.update domain.words (page + 4 * rkIovaPteIndex iova) word) :=
    onlyPage_update (rkIovaPteIndex_lt iova) word
  have same := formed.sameDirectory table only
  exact ⟨same.wellFormed formed, same.isTable_iff.mpr table, only, formed.lookup_update table word⟩

/-- Invalidating entries erases bindings. -/
theorem unmapPtes_spec (formed : WellFormed format domain)
    (table : IsTable format domain index page)
    (entries : Entries index page iova pteAddr left) :
    let unmapped := unmapPtes domain.words pteAddr left
    OnlyPage page domain.words unmapped.1 ∧
      eraseBound (lookup format domain) (pagesFrom iova left) =
        (lookup format (domain.withWords unmapped.1), unmapped.2) := by
  induction left generalizing domain iova pteAddr with
  | zero => exact ⟨fun _ _ => rfl, rfl⟩
  | succ left ih =>
      obtain ⟨rfl, place⟩ := entries.head
      have current : lookup format domain (pageOf iova) =
          entryOf format (domain.words pteAddr) := by
        rw [lookup_of_isTable table, place]
      cases valid : rkPteIsPageValid (domain.words pteAddr) with
      | false =>
          rw [entryOf_eq_none.mpr valid] at current
          simp only [unmapPtes, valid, Bool.false_eq_true, not_false_eq_true, if_true]
          exact ⟨fun _ _ => rfl, eraseBound_cons_of_none current⟩
      | true =>
          rw [entryOf, if_pos valid] at current
          obtain ⟨formed', table', only, changed⟩ :=
            formed.write table entries (rkMkPteInvalid (domain.words pteAddr))
          rw [entryOf_rkMkPteInvalid] at changed
          obtain ⟨onlyRest, erased⟩ := ih formed' table' entries.tail
          simp only [RkIommuDomain.withWords_words, RkIommuDomain.withWords_withWords,
            changed] at onlyRest erased
          simp only [unmapPtes, valid, not_true, if_false]
          refine ⟨only.trans onlyRest, ?_⟩
          rw [pagesFrom, eraseBound_cons_of_some current, erased]

/-- Writing entries inserts bindings, up to the first page that is mapped already. -/
theorem mapPtes_spec (prot paddr : ℕ) (formed : WellFormed format domain)
    (table : IsTable format domain index page)
    (entries : Entries index page iova pteAddr left) :
    let mapped := mapPtes format prot domain.words pteAddr paddr left
    OnlyPage page domain.words mapped.words ∧ mapped.pteCount ≤ left ∧
      insertNew (lookup format domain) (bindings format prot iova paddr mapped.pteCount) =
        some (lookup format (domain.withWords mapped.words)) ∧
      insertNew (lookup format domain) (bindings format prot iova paddr left) =
        if mapped.unwind then none else some (lookup format (domain.withWords mapped.words)) := by
  induction left generalizing domain iova pteAddr paddr with
  | zero => exact ⟨fun _ _ => rfl, Nat.le_refl 0, rfl, rfl⟩
  | succ left ih =>
      obtain ⟨rfl, place⟩ := entries.head
      have current : lookup format domain (pageOf iova) =
          entryOf format (domain.words pteAddr) := by
        rw [lookup_of_isTable table, place]
      cases valid : rkPteIsPageValid (domain.words pteAddr) with
      | true =>
          rw [entryOf, if_pos valid] at current
          simp only [mapPtes, valid, if_true]
          exact ⟨fun _ _ => rfl, Nat.zero_le _, rfl, insertNew_cons_of_some current _⟩
      | false =>
          rw [entryOf_eq_none.mpr valid] at current
          obtain ⟨formed', table', only, changed⟩ :=
            formed.write table entries (format.mkPte paddr prot)
          rw [entryOf_mkPte] at changed
          have rest := ih ((paddr + spageSize) % 2 ^ 64) formed' table' entries.tail
          simp only [RkIommuDomain.withWords_words, RkIommuDomain.withWords_withWords,
            changed, bindings_congr rfl (Nat.mod_mod (paddr + spageSize) (2 ^ 64))] at rest
          obtain ⟨onlyRest, counted, inserted, result⟩ := rest
          simp only [mapPtes, valid, Bool.false_eq_true, if_false]
          refine ⟨only.trans onlyRest, Nat.succ_le_succ counted, ?_, ?_⟩
          · rw [bindings, insertNew_cons_of_none current, inserted]
          · rw [bindings, insertNew_cons_of_none current]
            exact result

end Iommu
end RockchipSoc
