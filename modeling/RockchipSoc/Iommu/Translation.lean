import RockchipSoc.Iommu.MapSg

/-!
# What a domain translates

To its users a domain is a partial map from pages of the iova space to granted pages.  Every
sequence of calls on a new domain is a run of that map with the same answers: a range is mapped
whole or not at all, an unmap takes the mapped pages at the front of its range, and `iova_to_phys`
reads the map.  Below the map, a domain writes only to pages it got from the allocator, and gives
each of them back once when it is freed.
-/

namespace RockchipSoc
namespace Iommu

open PartialMap

/-- The callbacks that `rk_iommu_probe` registers for a version: `rk_iommu_ops_v2` or
`rk_iommu_ops`. -/
def rkIommuOps (version : ℕ) : PageFormat := if 2 ≤ version then formatV2 else formatV1

/-- Entries are words, and give back the page and the permissions they were made from. -/
theorem entries_round_trip (version page prot : ℕ) (aligned : spageSize ∣ page)
    (fits : page < 2 ^ (rkIommuOps version).addressBits) :
    let format := rkIommuOps version
    (format.mkDte page < 2 ^ 32 ∧ rkDteIsPtValid (format.mkDte page) = true ∧
        format.dtePtAddress (format.mkDte page) = page) ∧
      (format.mkPte page prot < 2 ^ 32 ∧ rkPteIsPageValid (format.mkPte page prot) = true ∧
        format.decode (format.mkPte page prot) = ⟨page, prot.testBit 0, prot.testBit 1⟩) := by
  intro format
  have base : pageBase format.addressBits page = page :=
    pageBase_of_lt (Nat.mod_eq_zero_of_dvd aligned)
      (Nat.le_trans (by decide) format.addressBits_ge) fits
  refine ⟨⟨format.mkDte_lt page, format.isValid_mkDte page, ?_⟩,
    format.mkPte_lt page prot, format.isValid_mkPte page prot, ?_⟩
  · rw [format.dtePtAddress_mkDte, base]
  · rw [format.decode_mkPte, PageEntry.granted, base]

theorem entries_round_trip_high_page :
    rkPtePageAddressV2 (rkMkPteV2 0xab12345000 3) = 0xab12345000 :=
  congrArg PageEntry.address
    (entries_round_trip 2 0xab12345000 3 (by decide) (by decide)).2.2.2

/-- A call on a domain. -/
inductive IommuCall where
  | map (iova paddr size prot : ℕ)
  | mapSg (iova : ℕ) (segments : List Segment) (prot : ℕ)
  | unmap (iova size : ℕ)
  deriving DecidableEq, Repr

/-- Scatterlists hold nonempty segments. -/
def IommuCall.Valid : IommuCall → Prop
  | .mapSg _ segments _ => SgValid segments
  | .map .. => True
  | .unmap .. => True

def callDomain (format : PageFormat) (domain : RkIommuDomain) : IommuCall → RkIommuDomain × ℤ
  | .map iova paddr size prot => iommuMap format domain iova paddr size prot
  | .mapSg iova segments prot =>
      let mapped := iommuMapSg format prot iova domain segments
      (mapped.1, mapped.2)
  | .unmap iova size =>
      let unmapped := iommuUnmap format domain iova size
      (unmapped.1, unmapped.2)

/-- The calls in order, with their answers. -/
def callAll (format : PageFormat) (domain : RkIommuDomain) :
    List IommuCall → RkIommuDomain × List ℤ
  | [] => (domain, [])
  | call :: calls =>
      let first := callDomain format domain call
      let rest := callAll format first.1 calls
      (rest.1, first.2 :: rest.2)

/-- The types of domains that the driver knows. -/
inductive DomainType where
  | blocked
  | identity
  | unmanaged
  | dma
  deriving DecidableEq, Repr

/-- What the other allocations of `rk_iommu_domain_alloc` answer. -/
structure DomainAllocations where
  dmaDev : Bool
  kzalloc : Bool
  iommuGetDmaCookie : Bool

def rkIommuDomainAlloc (type : DomainType) (allocations : DomainAllocations) (words : ℕ → ℕ)
    (answers : List PageAnswer) : Option RkIommuDomain :=
  if type ≠ .unmanaged ∧ type ≠ .dma then none
  else if ¬allocations.dmaDev then none
  else if ¬allocations.kzalloc then none
  else if type = .dma ∧ ¬allocations.iommuGetDmaCookie then none
  else
    match answers with
    | .page dt :: answers => some { words := zeroPage words dt, dt, answers }
    | _ => none

/-- What `log_iova` reports of an iova: the entries it met, and the page address and the flags of a
mapped page. -/
structure IovaReport where
  dte : ℕ
  pte : ℕ
  pageAddrPhys : ℕ
  pageFlags : ℕ
  deriving DecidableEq, Repr

/-- `RK_PTE_PAGE_FLAGS_MASK`. -/
def ptePageFlagsMask : ℕ := 0x000001fe

/-- `log_iova`, which finds the directory by the register of a faulting IOMMU. -/
def logIova (version : ℕ) (words : ℕ → ℕ) (mmuDteAddr iova : ℕ) : IovaReport :=
  let format := rkIommuOps version
  let dte := words (mmuDteAddrPhys version mmuDteAddr + 4 * rkIovaDteIndex iova)
  if ¬rkDteIsPtValid dte then { dte, pte := 0, pageAddrPhys := 0, pageFlags := 0 }
  else
    let pte := words (format.dtePtAddress dte + rkIovaPteIndex iova * 4)
    if ¬rkPteIsPageValid pte then { dte, pte, pageAddrPhys := 0, pageFlags := 0 }
    else
      { dte, pte
        pageAddrPhys := format.ptePageAddress pte + rkIovaPageOffset iova
        pageFlags := pte &&& ptePageFlagsMask }

/-! ## The abstract map -/

/-- What a domain is to its users. -/
abbrev PageMap := IovaPage → Option PageEntry

/-- The physical address of an iova; 0 when the page is not mapped. -/
def translate (map : PageMap) (iova : ℕ) : ℕ :=
  match map (pageOf iova) with
  | none => 0
  | some entry => entry.address + iova % spageSize

/-- The answer to a call on a map, and the map behind it. -/
inductive Permits (format : PageFormat) (map : PageMap) : IommuCall → ℤ → PageMap → Prop
  | mapped {iova paddr size prot : ℕ} {after : PageMap} (aligned : Aligned iova paddr size)
      (inserted : insertNew map (bindings format prot iova paddr (size / spageSize)) = some after) :
      Permits format map (.map iova paddr size prot) 0 after
  | misaligned {iova paddr size prot : ℕ} (misaligned : ¬Aligned iova paddr size) :
      Permits format map (.map iova paddr size prot) (-einval) map
  | noMemory {iova paddr size prot : ℕ} (aligned : Aligned iova paddr size) :
      Permits format map (.map iova paddr size prot) (-enomem) map
  | taken {iova paddr size prot : ℕ} (aligned : Aligned iova paddr size)
      (conflict : insertNew map (bindings format prot iova paddr (size / spageSize)) = none) :
      Permits format map (.map iova paddr size prot) (-eaddrinuse) map
  | mappedSg {iova : ℕ} {segments : List Segment} {prot : ℕ} {after : PageMap}
      (inserted : insertNew map (sgBindings format prot iova (coalesce segments)) = some after) :
      Permits format map (.mapSg iova segments prot) (total segments) after
  | refusedSg {iova : ℕ} {segments : List Segment} {prot : ℕ} :
      Permits format map (.mapSg iova segments prot) 0 map
  | unmapped {iova size : ℕ} (aligned : spageSize ∣ iova ∧ spageSize ∣ size) :
      Permits format map (.unmap iova size)
        ((eraseBound map (pagesFrom iova (size / spageSize))).2 * spageSize : ℕ)
        (eraseBound map (pagesFrom iova (size / spageSize))).1
  | misalignedUnmap {iova size : ℕ} (misaligned : ¬(spageSize ∣ iova ∧ spageSize ∣ size)) :
      Permits format map (.unmap iova size) 0 map

/-- The answers to calls in a row. -/
inductive PermitsAll (format : PageFormat) : PageMap → List IommuCall → List ℤ → PageMap → Prop
  | done {map : PageMap} : PermitsAll format map [] [] map
  | call {map middle after : PageMap} {call : IommuCall} {calls : List IommuCall} {ret : ℤ}
      {rets : List ℤ} (first : Permits format map call ret middle)
      (rest : PermitsAll format middle calls rets after) :
      PermitsAll format map (call :: calls) (ret :: rets) after

variable {format : PageFormat} {domain : RkIommuDomain}

/-- One call on the tables is one call on the map. -/
theorem callDomain_spec (formed : WellFormed format domain) {call : IommuCall}
    (valid : call.Valid) :
    let result := callDomain format domain call
    WellFormed format result.1 ∧ Evolves format domain result.1 ∧
      Permits format (lookup format domain) call result.2 (lookup format result.1) := by
  cases call with
  | map iova paddr size prot =>
      obtain ⟨formed', evolves, result⟩ := iommuMap_spec formed iova paddr size prot
      refine ⟨formed', evolves, ?_⟩
      rw [callDomain]
      rcases result with ⟨zero, aligned, inserted⟩ |
        ⟨kept, ⟨invalid, misaligned⟩ | ⟨aligned, memory | ⟨conflict, taken⟩⟩⟩
      · rw [zero]
        exact .mapped aligned inserted
      · rw [kept, invalid]
        exact .misaligned misaligned
      · rw [kept, memory]
        exact .noMemory aligned
      · rw [kept, conflict]
        exact .taken aligned taken
  | mapSg iova segments prot =>
      obtain ⟨formed', evolves, result⟩ := iommuMapSg_spec prot iova formed valid
      refine ⟨formed', evolves, ?_⟩
      rcases result with ⟨all, inserted⟩ | ⟨zero, kept⟩
      · simp only [callDomain, all]
        exact .mappedSg inserted
      · simp only [callDomain, zero, kept]
        exact .refusedSg
  | unmap iova size =>
      obtain ⟨formed', evolves, result⟩ := iommuUnmap_spec formed iova size
      refine ⟨formed', evolves, ?_⟩
      by_cases aligned : spageSize ∣ iova ∧ spageSize ∣ size
      · rw [if_pos aligned] at result
        simp only [callDomain, result.1, result.2]
        exact .unmapped aligned
      · rw [if_neg aligned] at result
        simp only [callDomain, result.1, result.2]
        exact .misalignedUnmap aligned

/-- A row of calls on the tables is a row of calls on the map. -/
theorem callAll_spec (formed : WellFormed format domain) {calls : List IommuCall}
    (valid : ∀ call ∈ calls, call.Valid) :
    let result := callAll format domain calls
    WellFormed format result.1 ∧ Evolves format domain result.1 ∧
      PermitsAll format (lookup format domain) calls result.2 (lookup format result.1) := by
  induction calls generalizing domain with
  | nil => exact ⟨formed, .refl format domain, .done⟩
  | cons call calls ih =>
      obtain ⟨formed', evolves, first⟩ :=
        callDomain_spec formed (valid call (List.mem_cons_self ..))
      obtain ⟨formed'', evolves', rest⟩ :=
        ih formed' fun other member => valid other (List.mem_cons_of_mem _ member)
      exact ⟨formed'', evolves.trans evolves', .call first rest⟩

/-- `iova_to_phys` reads the map. -/
theorem rkIommuIovaToPhys_eq (format : PageFormat) (domain : RkIommuDomain) (iova : ℕ) :
    rkIommuIovaToPhys format domain iova = translate (lookup format domain) iova := by
  rw [rkIommuIovaToPhys, translate, lookup, RkIommuDomain.dte, ← rkIovaDteIndex_page]
  by_cases table : rkDteIsPtValid
      (domain.words (domain.dt + 4 * rkIovaDteIndex iova)) = true
  · rw [if_neg (not_not.mpr table), if_pos table, ← rkIovaPteIndex_page, entryOf]
    by_cases valid : rkPteIsPageValid (domain.words (format.dtePtAddress
        (domain.words (domain.dt + 4 * rkIovaDteIndex iova)) + 4 * rkIovaPteIndex iova)) = true
    · rw [if_neg (not_not.mpr valid), if_pos valid, rkIovaPageOffset_eq]
      rfl
    · rw [if_pos valid, if_neg valid]
  · rw [if_pos table, if_neg table]

/-! ## From a new domain on -/

/-- A new domain: an empty directory in a page of its own. -/
structure IsNew (words : ℕ → ℕ) (answers : List PageAnswer) (domain : RkIommuDomain) : Prop where
  answers_eq : answers = .page domain.dt :: domain.answers
  words_eq : domain.words = zeroPage words domain.dt

theorem rkIommuDomainAlloc_isNew {type : DomainType} {allocations : DomainAllocations}
    {words : ℕ → ℕ} {answers : List PageAnswer}
    (made : rkIommuDomainAlloc type allocations words answers = some domain) :
    IsNew words answers domain := by
  simp only [rkIommuDomainAlloc] at made
  repeat' split at made
  all_goals first
    | (cases made; exact ⟨rfl, rfl⟩)
    | cases made

namespace IsNew

variable {words : ℕ → ℕ} {answers : List PageAnswer}

theorem not_valid (new : IsNew words answers domain) {index : ℕ} (inside : index < 1024) :
    rkDteIsPtValid (domain.words (domain.dt + 4 * index)) = false := by
  have cleared : domain.words (domain.dt + 4 * index) = 0 := by
    rw [new.words_eq]
    exact if_pos ⟨Nat.le_add_right _ _, by simp only [spageSize]; omega⟩
  rw [cleared]
  decide

theorem not_isTable (new : IsNew words answers domain) (index page : ℕ) :
    ¬IsTable format domain index page := fun table =>
  Bool.false_ne_true ((new.not_valid table.1).symm.trans table.2.1)

theorem wellFormed (new : IsNew words answers domain) (fresh : Fresh (fun _ => False) answers) :
    WellFormed format domain := by
  rw [new.answers_eq] at fresh
  refine ⟨fresh.1, ?_, ?_, ?_, fresh.2.2.2.congr fun page => ?_⟩
  · exact fun table => absurd table (new.not_isTable _ _)
  · exact fun table => absurd table (new.not_isTable _ _)
  · exact fun table => absurd table (new.not_isTable _ _)
  · refine or_congr_right (iff_of_false ?_ id)
    rintro ⟨index, table⟩
    exact new.not_isTable _ _ table

theorem lookup_eq (new : IsNew words answers domain) : lookup format domain = fun _ => none := by
  funext page
  have inside : page.val / 1024 < 1024 := by omega
  rw [lookup, new.not_valid inside]
  rfl

end IsNew

/-- The page that `rk_iommu_domain_free` frees for an entry of the directory. -/
def freedPage (format : PageFormat) (domain : RkIommuDomain) (i : ℕ) : Option ℕ :=
  let dte := domain.words (domain.dt + 4 * i)
  if rkDteIsPtValid dte then some (format.dtePtAddress dte) else none

/-- The pages that `rk_iommu_domain_free` frees, in order. -/
def rkIommuDomainFree (format : PageFormat) (domain : RkIommuDomain) : List ℕ :=
  (List.range 1024).filterMap (freedPage format domain) ++ [domain.dt]

theorem freedPage_eq_some {index page : ℕ} (inside : index < 1024) :
    freedPage format domain index = some page ↔ IsTable format domain index page := by
  rw [freedPage, IsTable]
  by_cases valid : rkDteIsPtValid (domain.words (domain.dt + 4 * index)) = true
  · simp [valid, inside]
  · simp [valid]

theorem mem_freedPages {page : ℕ} :
    page ∈ (List.range 1024).filterMap (freedPage format domain) ↔
      ∃ index, IsTable format domain index page := by
  rw [List.mem_filterMap]
  refine exists_congr fun index => ?_
  rw [List.mem_range]
  constructor
  · rintro ⟨inside, freed⟩
    exact (freedPage_eq_some inside).mp freed
  · intro table
    exact ⟨table.1, (freedPage_eq_some table.1).mpr table⟩

theorem mem_rkIommuDomainFree {page : ℕ} :
    page ∈ rkIommuDomainFree format domain ↔
      (∃ index, IsTable format domain index page) ∨ page = domain.dt := by
  rw [rkIommuDomainFree, List.mem_append, mem_freedPages, List.mem_singleton]

theorem nodup_rkIommuDomainFree (formed : WellFormed format domain) :
    (rkIommuDomainFree format domain).Nodup := by
  have tables : ((List.range 1024).filterMap (freedPage format domain)).Nodup := by
    refine List.nodup_iff_pairwise_ne.mpr (List.pairwise_filterMap.mpr ?_)
    refine List.Pairwise.imp_of_mem ?_ List.nodup_range
    intro first second firstInside secondInside different page freed page' freed' same
    rw [freedPage_eq_some (List.mem_range.mp firstInside)] at freed
    rw [freedPage_eq_some (List.mem_range.mp secondInside)] at freed'
    exact different (formed.table_inj freed (same ▸ freed'))
  refine List.nodup_append.mpr ⟨tables, List.pairwise_singleton _ _, fun page table other dt => ?_⟩
  obtain ⟨index, table⟩ := mem_freedPages.mp table
  rw [List.mem_singleton.mp dt]
  exact formed.table_ne_dt table

/-- The calls of any user on a domain, from its allocation on. -/
structure Session (version : ℕ) where
  type : DomainType
  allocations : DomainAllocations
  words : ℕ → ℕ
  answers : List PageAnswer
  fresh : Fresh (fun _ => False) answers
  domain : RkIommuDomain
  allocated : rkIommuDomainAlloc type allocations words answers = some domain
  calls : List IommuCall
  valid : ∀ call ∈ calls, call.Valid

namespace Session

variable {version : ℕ} (session : Session version)

/-- The domain behind the calls, and their answers. -/
def result : RkIommuDomain × List ℤ :=
  callAll (rkIommuOps version) session.domain session.calls

theorem isNew : IsNew session.words session.answers session.domain :=
  rkIommuDomainAlloc_isNew session.allocated

theorem result_spec :
    WellFormed (rkIommuOps version) session.result.1 ∧
      Evolves (rkIommuOps version) session.domain session.result.1 ∧
      PermitsAll (rkIommuOps version) (fun _ => none) session.calls session.result.2
        (lookup (rkIommuOps version) session.result.1) := by
  have formed : WellFormed (rkIommuOps version) session.domain :=
    session.isNew.wellFormed session.fresh
  have run := callAll_spec formed session.valid
  rw [session.isNew.lookup_eq] at run
  exact run

/-- Any row of calls on a domain is a run of the abstract map with the same answers, and
`iova_to_phys` translates by that map afterwards. -/
theorem refines_pageMap :
    ∃ map, PermitsAll (rkIommuOps version) (fun _ => none) session.calls session.result.2 map ∧
      ∀ iova,
        rkIommuIovaToPhys (rkIommuOps version) session.result.1 iova = translate map iova := by
  obtain ⟨-, -, run⟩ := session.result_spec
  exact ⟨_, run, rkIommuIovaToPhys_eq _ _⟩

/-- The answers of the allocator that the domain has used up. -/
def Consumed (consumed : List PageAnswer) : Prop :=
  session.answers = consumed ++ session.result.1.answers

/-- Whatever is called, only pages that the allocator handed out are written. -/
theorem writes_only_own_pages :
    ∃ consumed, session.Consumed consumed ∧
      ∀ address, (∀ page, .page page ∈ consumed ∨ .notMapped page ∈ consumed →
          address < page ∨ page + spageSize ≤ address) →
        session.result.1.words address = session.words address := by
  obtain ⟨-, ⟨consumed, evolves⟩, -⟩ := session.result_spec
  refine ⟨.page session.domain.dt :: consumed, ?_, fun address outside => ?_⟩
  · rw [Consumed, session.isNew.answers_eq, evolves.answers]
    rfl
  · have away := outside session.domain.dt (.inl (List.mem_cons_self ..))
    rw [evolves.outside address fun page owned => outside page ?_, session.isNew.words_eq]
    · exact if_neg (by omega)
    · rcases owned with (rfl | ⟨index, table⟩) | taken
      · exact .inl (List.mem_cons_self ..)
      · exact absurd table (session.isNew.not_isTable _ _)
      · exact taken.imp (List.mem_cons_of_mem _) (List.mem_cons_of_mem _)

/-- Freeing the domain frees each page it was handed, and none twice. -/
theorem free_returns_pages :
    ∃ consumed, session.Consumed consumed ∧
      (rkIommuDomainFree (rkIommuOps version) session.result.1).Nodup ∧
      ∀ page, page ∈ rkIommuDomainFree (rkIommuOps version) session.result.1 ↔
        .page page ∈ consumed := by
  obtain ⟨formed, ⟨consumed, evolves⟩, -⟩ := session.result_spec
  refine ⟨.page session.domain.dt :: consumed, ?_, nodup_rkIommuDomainFree formed, fun page => ?_⟩
  · rw [Consumed, session.isNew.answers_eq, evolves.answers]
    rfl
  · rw [mem_rkIommuDomainFree, evolves.tables, evolves.dt_eq, List.mem_cons,
      PageAnswer.page.injEq, or_comm]
    refine or_congr_right (or_iff_right ?_)
    rintro ⟨index, table⟩
    exact session.isNew.not_isTable _ _ table

/-- Segments of whole pages are bound one behind the other, however they were put together, or
nothing is bound. -/
theorem mapSg_segmentwise (segments : List Segment) (valid : SgValid segments)
    (pages : ∀ sg ∈ segments, spageSize ∣ sg.length) (prot iova : ℕ) :
    let format := rkIommuOps version
    let before := session.result.1
    let mapped := iommuMapSg format prot iova before segments
    (mapped.2 = total segments ∧
        insertNew (lookup format before) (sgBindings format prot iova segments) =
          some (lookup format mapped.1)) ∨
      (mapped.2 = 0 ∧
        ∀ other,
          rkIommuIovaToPhys format mapped.1 other = rkIommuIovaToPhys format before other) := by
  obtain ⟨-, -, result⟩ := iommuMapSg_spec prot iova session.result_spec.1 valid
  rw [sgBindings_coalesce pages] at result
  refine result.imp_right fun ⟨zero, kept⟩ => ⟨zero, fun other => ?_⟩
  rw [rkIommuIovaToPhys_eq, rkIommuIovaToPhys_eq, kept]

/-- The page that a fault report names is the one that `iova_to_phys` gives, when the IOMMU was
enabled for the domain. -/
theorem fault_report_agrees (iova : ℕ) :
    (logIova version session.result.1.words (mmuDteAddr version session.result.1.dt)
        iova).pageAddrPhys =
      rkIommuIovaToPhys (rkIommuOps version) session.result.1 iova := by
  obtain ⟨formed, ⟨_, evolves⟩, -⟩ := session.result_spec
  have fresh := session.fresh
  rw [session.isNew.answers_eq] at fresh
  have low : session.result.1.dt < 2 ^ 32 := by
    rw [evolves.dt_eq]
    exact fresh.2.1
  have wide : 2 ^ 32 ≤ 2 ^ (if 2 ≤ version then 40 else 32) :=
    Nat.pow_le_pow_right (by decide) (by split <;> decide)
  have register : mmuDteAddrPhys version (mmuDteAddr version session.result.1.dt) =
      session.result.1.dt :=
    mmuDteAddrPhys_mmuDteAddr formed.dt_aligned (Nat.lt_of_lt_of_le low wide) rfl
  rw [logIova, register, rkIommuIovaToPhys, RkIommuDomain.dte, Nat.mul_comm _ 4]
  by_cases table : rkDteIsPtValid (session.result.1.words
      (session.result.1.dt + 4 * rkIovaDteIndex iova)) = true
  · rw [if_neg (not_not.mpr table), if_neg (not_not.mpr table)]
    exact apply_ite IovaReport.pageAddrPhys _ _ _
  · rw [if_pos table, if_pos table]

/-- A domain of the second version that has a directory and one more page. -/
def sample : Session 2 where
  type := .dma
  allocations := ⟨true, true, true⟩
  words _ := 0
  answers := [.page 0x1000, .page 0x2000]
  fresh := by simp [Fresh, spageSize]
  domain := { words := zeroPage (fun _ => 0) 0x1000, dt := 0x1000, answers := [.page 0x2000] }
  allocated := rfl
  calls := []
  valid _ member := absurd member List.not_mem_nil

theorem mapSg_segmentwise_sample :
    let mapped := iommuMapSg formatV2 3 0x5000 sample.domain [⟨0x3000, 0x1000⟩, ⟨0x4000, 0x2000⟩]
    (mapped.2 = 0x3000 ∧
        insertNew (lookup formatV2 sample.domain)
          (sgBindings formatV2 3 0x5000 [⟨0x3000, 0x1000⟩, ⟨0x4000, 0x2000⟩]) =
            some (lookup formatV2 mapped.1)) ∨
      (mapped.2 = 0 ∧ ∀ other,
        rkIommuIovaToPhys formatV2 mapped.1 other =
          rkIommuIovaToPhys formatV2 sample.domain other) :=
  mapSg_segmentwise sample [⟨0x3000, 0x1000⟩, ⟨0x4000, 0x2000⟩] (by simp [SgValid])
    (by simp [spageSize]) 3 0x5000

end Session

end Iommu
end RockchipSoc
