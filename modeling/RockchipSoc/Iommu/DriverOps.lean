import RockchipSoc.Iommu.TableLoops

/-!
# The operations of the driver

`rk_dte_get_page_table` adds an empty table, `rk_iommu_map` binds the pages of a range that fits in
one table or none of them, and `rk_iommu_unmap` erases bound pages from the front.  Each keeps the
tables apart, writes only to pages the domain owns, and accounts for every page it took.
-/

namespace RockchipSoc
namespace Iommu

open PartialMap

variable {format : PageFormat} {domain : RkIommuDomain} {iova paddr prot size index page : ℕ}
  {words : ℕ → ℕ}

/-- What an operation that used up these answers of the allocator may do. -/
structure EvolvesBy (format : PageFormat) (consumed : List PageAnswer)
    (before after : RkIommuDomain) : Prop where
  dt_eq : after.dt = before.dt
  answers : before.answers = consumed ++ after.answers
  /-- The new tables are the pages that were handed out. -/
  tables : ∀ page, (∃ index, IsTable format after index page) ↔
    (∃ index, IsTable format before index page) ∨ .page page ∈ consumed
  /-- Only pages of the domain and pages from the allocator are written. -/
  outside : ∀ address,
    (∀ page, InUse format before page ∨ .page page ∈ consumed ∨ .notMapped page ∈ consumed →
      address < page ∨ page + spageSize ≤ address) →
    after.words address = before.words address

/-- What any operation may do. -/
def Evolves (format : PageFormat) (before after : RkIommuDomain) : Prop :=
  ∃ consumed, EvolvesBy format consumed before after

theorem Evolves.refl (format : PageFormat) (domain : RkIommuDomain) :
    Evolves format domain domain :=
  ⟨[], rfl, rfl, fun page => by simp, fun _ _ => rfl⟩

theorem EvolvesBy.inUse {consumed : List PageAnswer} {before after : RkIommuDomain}
    (evolves : EvolvesBy format consumed before after) (used : InUse format after page) :
    InUse format before page ∨ .page page ∈ consumed := by
  rcases used with dt | table
  · exact .inl (.inl (dt.trans evolves.dt_eq))
  · exact ((evolves.tables page).mp table).imp_left .inr

theorem EvolvesBy.trans {early late : List PageAnswer} {before middle after : RkIommuDomain}
    (first : EvolvesBy format early before middle)
    (second : EvolvesBy format late middle after) :
    EvolvesBy format (early ++ late) before after where
  dt_eq := second.dt_eq.trans first.dt_eq
  answers := by rw [first.answers, second.answers, List.append_assoc]
  tables page := by rw [second.tables, first.tables, List.mem_append, or_assoc]
  outside address outside := by
    refine (second.outside address fun page owned => outside page ?_).trans
      (first.outside address fun page owned => outside page ?_)
    · rcases owned with used | handed
      · exact (first.inUse used).imp_right fun new => .inl (List.mem_append_left _ new)
      · exact .inr (handed.imp (List.mem_append_right _) (List.mem_append_right _))
    · exact owned.imp_right (Or.imp (List.mem_append_left _) (List.mem_append_left _))

theorem Evolves.trans {before middle after : RkIommuDomain}
    (first : Evolves format before middle) (second : Evolves format middle after) :
    Evolves format before after := by
  obtain ⟨early, first⟩ := first
  obtain ⟨late, second⟩ := second
  exact ⟨early ++ late, first.trans second⟩

/-- A change of one table is an evolution. -/
theorem SameDirectory.evolves (same : SameDirectory domain words)
    (table : IsTable format domain index page) (only : OnlyPage page domain.words words) :
    Evolves format domain (domain.withWords words) := by
  refine ⟨[], rfl, rfl, fun page => by simp [same.isTable_iff], fun address outside => ?_⟩
  exact only address (outside page (.inl (.inr ⟨index, table⟩)))

/-! ## Adding a table -/

/-- Clearing a page that nobody uses changes nothing of the domain. -/
theorem zeroPage_of_notInUse (formed : WellFormed format domain) (aligned : page % spageSize = 0)
    (unused : ¬InUse format domain page) :
    SameDirectory domain (zeroPage domain.words page) ∧
      lookup format (domain.withWords (zeroPage domain.words page)) = lookup format domain := by
  have elsewhere {other offset : ℕ} (otherAligned : other % spageSize = 0) (used : page ≠ other)
      (inside : offset < 1024) :
      zeroPage domain.words page (other + 4 * offset) = domain.words (other + 4 * offset) := by
    refine if_neg fun within => ?_
    simp only [spageSize] at *
    omega
  have same : SameDirectory domain (zeroPage domain.words page) := fun other bound =>
    elsewhere formed.dt_aligned (fun equal => unused (.inl equal)) bound
  refine ⟨same, funext fun other => ?_⟩
  have bound : other.val / 1024 < 1024 := by omega
  simp only [lookup, RkIommuDomain.withWords_words, RkIommuDomain.withWords_dt, same _ bound]
  by_cases valid : rkDteIsPtValid (domain.words (domain.dt + 4 * (other.val / 1024))) = true
  · have table : IsTable format domain (other.val / 1024) _ := ⟨bound, valid, rfl⟩
    rw [if_pos valid, if_pos valid, elsewhere (formed.table_aligned table)
      (fun equal => unused (.inr ⟨_, equal ▸ table⟩)) (Nat.mod_lt _ (by decide))]
  · rw [if_neg valid, if_neg valid]

/-- The tables after a page was entered into the directory. -/
theorem isTable_update_iff (aligned : page % spageSize = 0) (low : page < 2 ^ 32)
    (inside : index < 1024) {other otherPage : ℕ} :
    IsTable format (domain.withWords
        (Function.update domain.words (domain.dt + 4 * index) (format.mkDte page)))
          other otherPage ↔
      if other = index then page = otherPage else IsTable format domain other otherPage := by
  simp only [IsTable, RkIommuDomain.withWords_words, RkIommuDomain.withWords_dt]
  by_cases same : other = index
  · have wide : page < 2 ^ format.addressBits :=
      Nat.lt_of_lt_of_le low (Nat.pow_le_pow_right (by decide) format.addressBits_ge)
    have enough : 12 ≤ format.addressBits := Nat.le_trans (by decide) format.addressBits_ge
    subst same
    rw [if_pos rfl, Function.update_self, format.dtePtAddress_mkDte,
      pageBase_of_lt aligned enough wide]
    exact ⟨fun table => table.2.2, fun equal => ⟨inside, format.isValid_mkDte page, equal⟩⟩
  · rw [if_neg same, Function.update_of_ne (by omega)]

/-- `Fresh` looks only at what is used. -/
theorem Fresh.congr {inUse inUse' : ℕ → Prop} {answers : List PageAnswer}
    (fresh : Fresh inUse answers) (same : ∀ page, inUse' page ↔ inUse page) :
    Fresh inUse' answers := by
  rwa [show inUse' = inUse from funext fun page => propext (same page)]

/-- An empty table is added where there was none. -/
theorem enterTable_spec (formed : WellFormed format domain) (inside : index < 1024)
    (invalid : ¬rkDteIsPtValid (domain.words (domain.dt + 4 * index)) = true)
    (aligned : page % spageSize = 0) (low : page < 2 ^ 32)
    (unused : ¬InUse format domain page) (empty : ∀ offset < 1024, domain.words (page + 4 * offset)
      = 0) {answers : List PageAnswer} (rest : domain.answers = .page page :: answers) :
    let after : RkIommuDomain :=
      { domain with
        words := Function.update domain.words (domain.dt + 4 * index) (format.mkDte page)
        answers }
    WellFormed format after ∧ IsTable format after index page ∧
      lookup format after = lookup format domain ∧
      EvolvesBy format [.page page] domain after := by
  intro after
  have iff {other otherPage : ℕ} : IsTable format after other otherPage ↔
      if other = index then page = otherPage else IsTable format domain other otherPage :=
    isTable_update_iff aligned low inside
  have notTable {otherPage : ℕ} : ¬IsTable format domain index otherPage :=
    fun table => invalid table.2.1
  have tables (otherPage : ℕ) : (∃ other, IsTable format after other otherPage) ↔
      (∃ other, IsTable format domain other otherPage) ∨ otherPage = page := by
    constructor
    · rintro ⟨other, table⟩
      by_cases same : other = index
      · rw [iff, if_pos same] at table
        exact .inr table.symm
      · rw [iff, if_neg same] at table
        exact .inl ⟨other, table⟩
    · rintro (⟨other, table⟩ | rfl)
      · have different : other ≠ index := by
          rintro rfl
          exact notTable table
        exact ⟨other, iff.mpr (by rwa [if_neg different])⟩
      · exact ⟨index, iff.mpr (by rw [if_pos rfl])⟩
  have dtAligned := formed.dt_aligned
  have dtPage : page ≠ domain.dt := fun equal => unused (.inl equal)
  have fresh := formed.fresh
  rw [rest] at fresh
  refine ⟨⟨dtAligned, ?_, ?_, ?_, ?_⟩, iff.mpr (by rw [if_pos rfl]), ?_, rfl, rest, ?_, ?_⟩
  · intro other otherPage table
    rcases (tables otherPage).mp ⟨other, table⟩ with ⟨old, table⟩ | rfl
    · exact formed.table_aligned table
    · exact aligned
  · intro other otherPage table
    rcases (tables otherPage).mp ⟨other, table⟩ with ⟨old, table⟩ | rfl
    · exact formed.table_ne_dt table
    · exact dtPage
  · intro first second otherPage table table'
    rw [iff] at table table'
    by_cases same : first = index
    · by_cases same' : second = index
      · rw [same, same']
      · rw [if_pos same] at table
        rw [if_neg same', ← table] at table'
        exact absurd (.inr ⟨second, table'⟩) unused
    · by_cases same' : second = index
      · rw [if_pos same'] at table'
        rw [if_neg same, ← table'] at table
        exact absurd (.inr ⟨first, table⟩) unused
      · rw [if_neg same] at table
        rw [if_neg same'] at table'
        exact formed.table_inj table table'
  · refine fresh.2.2.2.congr fun otherPage => ?_
    rw [InUse, tables, ← or_assoc, or_comm]
    rfl
  · -- The new table holds no valid entry, and the others are where they were.
    funext other
    have bound : other.val / 1024 < 1024 := by omega
    have entryBound : other.val % 1024 < 1024 := Nat.mod_lt _ (by decide)
    simp only [lookup]
    by_cases same : other.val / 1024 = index
    · obtain ⟨-, valid, address⟩ : IsTable format after (other.val / 1024) page :=
        iff.mpr (by rw [if_pos same])
      have cleared : after.words (page + 4 * (other.val % 1024)) = 0 := by
        rw [← empty _ entryBound]
        refine Function.update_of_ne ?_ _ domain.words
        exact address_ne aligned dtAligned dtPage (by simp only [spageSize]; omega)
          (by simp only [spageSize]; omega)
      rw [if_pos valid, address, cleared, same, if_neg invalid]
      exact entryOf_eq_none.mpr (by decide)
    · have kept : after.words (after.dt + 4 * (other.val / 1024)) =
          domain.words (domain.dt + 4 * (other.val / 1024)) :=
        Function.update_of_ne (by show domain.dt + _ ≠ _; omega) _ domain.words
      rw [kept]
      by_cases valid : rkDteIsPtValid (domain.words (domain.dt + 4 * (other.val / 1024))) = true
      · have table : IsTable format domain (other.val / 1024) _ := ⟨bound, valid, rfl⟩
        rw [if_pos valid, if_pos valid]
        congr 1
        refine Function.update_of_ne ?_ _ domain.words
        exact address_ne (formed.table_aligned table) dtAligned (formed.table_ne_dt table)
          (by simp only [spageSize]; omega) (by simp only [spageSize]; omega)
      · rw [if_neg valid, if_neg valid]
  · intro otherPage
    simp [tables]
  · intro address outside
    refine Function.update_of_ne ?_ _ domain.words
    have away := outside domain.dt (.inl (.inl rfl))
    simp only [spageSize] at away
    omega

/-- Clearing a page that turns out unusable is an evolution. -/
theorem notMapped_spec (formed : WellFormed format domain) {answers : List PageAnswer}
    (rest : domain.answers = .notMapped page :: answers) :
    let after : RkIommuDomain :=
      { domain with words := zeroPage domain.words page, answers }
    WellFormed format after ∧ lookup format after = lookup format domain ∧
      Evolves format domain after := by
  intro after
  have fresh := formed.fresh
  rw [rest] at fresh
  obtain ⟨aligned, low, unused, later⟩ := fresh
  obtain ⟨same, looked⟩ := zeroPage_of_notInUse formed aligned unused
  have formed' := same.wellFormed formed
  refine ⟨⟨formed'.dt_aligned, formed'.table_aligned, formed'.table_ne_dt, formed'.table_inj,
    later.congr fun other => ?_⟩, looked, [.notMapped page], rfl, rest, fun other => ?_, ?_⟩
  · exact iff_of_eq (congrFun same.inUse_eq other)
  · rw [or_iff_left (by simp)]
    exact exists_congr fun index => same.isTable_iff
  · intro address outside
    have away := outside page (.inr (.inr (List.mem_cons_self ..)))
    refine if_neg fun within => ?_
    omega

/-- A page from the allocator becomes an empty table. -/
theorem newTable_spec (formed : WellFormed format domain) {answers : List PageAnswer}
    (rest : domain.answers = .page page :: answers) (inside : index < 1024)
    (invalid : ¬rkDteIsPtValid (domain.words (domain.dt + 4 * index)) = true) :
    let after : RkIommuDomain :=
      { domain with
        words := Function.update (zeroPage domain.words page) (domain.dt + 4 * index)
          (format.mkDte page)
        answers }
    WellFormed format after ∧ IsTable format after index page ∧
      lookup format after = lookup format domain ∧ Evolves format domain after := by
  intro after
  have fresh := formed.fresh
  rw [rest] at fresh
  obtain ⟨aligned, low, unused, later⟩ := fresh
  obtain ⟨same, looked⟩ := zeroPage_of_notInUse formed aligned unused
  have cleared : ∀ offset < 1024, zeroPage domain.words page (page + 4 * offset) = 0 :=
    fun offset bound => if_pos ⟨Nat.le_add_right _ _, by simp only [spageSize]; omega⟩
  have invalid' : ¬rkDteIsPtValid (zeroPage domain.words page (domain.dt + 4 * index)) = true := by
    rwa [same _ inside]
  have unused' : ¬InUse format (domain.withWords (zeroPage domain.words page)) page := by
    rwa [same.inUse_eq]
  obtain ⟨formed', table, entered, evolves⟩ := enterTable_spec
    (same.wellFormed formed) inside invalid' aligned low unused' cleared rest
  refine ⟨formed', table, entered.trans looked, [.page page], rfl, rest, fun other => ?_, ?_⟩
  · refine (evolves.tables other).trans ?_
    exact or_congr_left (exists_congr fun index => same.isTable_iff)
  · intro address outside
    have away := outside page (.inr (.inl (List.mem_cons_self ..)))
    have kept : after.words address = zeroPage domain.words page address := by
      refine evolves.outside address fun owner owned => outside owner ?_
      rw [same.inUse_eq] at owned
      exact owned
    rw [kept]
    exact if_neg (by omega)

/-- `rk_dte_get_page_table` leaves the translation alone; without an error there is a table. -/
theorem rkDteGetPageTable_spec (formed : WellFormed format domain) (iova : ℕ) :
    let got := rkDteGetPageTable format domain iova
    WellFormed format got.1 ∧ lookup format got.1 = lookup format domain ∧
      Evolves format domain got.1 ∧
      ∀ page, got.2 = some page → IsTable format got.1 (rkIovaDteIndex iova) page := by
  have inside : rkIovaDteIndex iova < 1024 := by
    rw [rkIovaDteIndex_eq]
    omega
  by_cases valid : rkDteIsPtValid (domain.dte iova) = true
  · have got : rkDteGetPageTable format domain iova =
        (domain, some (format.dtePtAddress (domain.dte iova))) := by
      simp [rkDteGetPageTable, valid]
    rw [got]
    refine ⟨formed, rfl, .refl format domain, fun page found => ?_⟩
    exact ⟨inside, valid, Option.some.inj found⟩
  · have fresh := formed.fresh
    cases answers : domain.answers with
    | nil =>
        have got : rkDteGetPageTable format domain iova = (domain, none) := by
          simp [rkDteGetPageTable, valid, answers]
        rw [got]
        exact ⟨formed, rfl, .refl format domain, fun page found => by simp at found⟩
    | cons answer rest =>
        cases answer with
        | noPage =>
            have got : rkDteGetPageTable format domain iova =
                ({ domain with answers := rest }, none) := by
              simp [rkDteGetPageTable, valid, answers]
            rw [answers] at fresh
            rw [got]
            refine ⟨⟨formed.dt_aligned, formed.table_aligned, formed.table_ne_dt,
              formed.table_inj, fresh⟩, rfl, ⟨[.noPage], rfl, answers, ?_, fun _ _ => rfl⟩,
              fun page found => by simp at found⟩
            intro page
            rw [or_iff_left (by simp)]
            rfl
        | notMapped page =>
            have got : rkDteGetPageTable format domain iova =
                ({ domain with words := zeroPage domain.words page, answers := rest }, none) := by
              simp [rkDteGetPageTable, valid, answers]
            rw [got]
            obtain ⟨formed', looked, evolves⟩ := notMapped_spec formed answers
            exact ⟨formed', looked, evolves, fun page found => by simp at found⟩
        | page page =>
            obtain ⟨formed', table, looked, evolves⟩ := newTable_spec formed answers inside valid
            have address : format.dtePtAddress (format.mkDte page) = page := by
              have placed := table.2.2
              simp only [Function.update_self] at placed
              exact placed
            have got : rkDteGetPageTable format domain iova =
                ({ domain with
                    words := Function.update (zeroPage domain.words page)
                      (domain.dt + 4 * rkIovaDteIndex iova) (format.mkDte page)
                    answers := rest }, some page) := by
              simp [rkDteGetPageTable, valid, answers, address]
            rw [got]
            refine ⟨formed', looked, evolves, fun other found => ?_⟩
            rw [← Option.some.inj found]
            exact table

/-! ## Ranges inside of one table -/

/-- `rk_iommu_unmap_iova` erases a range from the front. -/
theorem rkIommuUnmapIova_spec (formed : WellFormed format domain)
    (table : IsTable format domain (rkIovaDteIndex iova) page)
    (fits : rkIovaPteIndex iova + size / spageSize ≤ 1024) :
    let unmapped := rkIommuUnmapIova domain.words (page + 4 * rkIovaPteIndex iova) size
    let erased := eraseBound (lookup format domain) (pagesFrom iova (size / spageSize))
    OnlyPage page domain.words unmapped.1 ∧
      lookup format (domain.withWords unmapped.1) = erased.1 ∧
      unmapped.2 = erased.2 * spageSize := by
  obtain ⟨only, erased⟩ := unmapPtes_spec formed table (entries_of_fits page fits)
  rw [erased]
  exact ⟨only, rfl, rfl⟩

/-- `rk_iommu_map_iova` binds a range or leaves the translation alone. -/
theorem rkIommuMapIova_spec (paddr prot : ℕ) (formed : WellFormed format domain)
    (table : IsTable format domain (rkIovaDteIndex iova) page)
    (fits : rkIovaPteIndex iova + size / spageSize ≤ 1024) :
    let mapped :=
      rkIommuMapIova format domain.words (page + 4 * rkIovaPteIndex iova) paddr size prot
    let inserted :=
      insertNew (lookup format domain) (bindings format prot iova paddr (size / spageSize))
    OnlyPage page domain.words mapped.1 ∧
      ((mapped.2 = 0 ∧ inserted = some (lookup format (domain.withWords mapped.1))) ∨
        (mapped.2 = -eaddrinuse ∧ inserted = none ∧
          lookup format (domain.withWords mapped.1) = lookup format domain)) := by
  have entries := entries_of_fits page fits
  obtain ⟨only, counted, front, whole⟩ :=
    mapPtes_spec prot paddr formed table entries
  cases unwind : (mapPtes format prot domain.words (page + 4 * rkIovaPteIndex iova) paddr
      (size / spageSize)).unwind with
  | false =>
      rw [unwind] at whole
      rw [rkIommuMapIova, unwind]
      exact ⟨only, .inl ⟨rfl, whole⟩⟩
  | true =>
      rw [unwind] at whole
      have same := formed.sameDirectory table only
      -- The pages that were just bound are erased again.
      obtain ⟨back, erased⟩ := unmapPtes_spec (same.wellFormed formed) (same.isTable_iff.mpr table)
        (entries.mono counted)
      have restored := eraseBound_of_insertNew front
      rw [map_fst_bindings, erased] at restored
      have cancel (count : ℕ) : count * spageSize / spageSize = count :=
        Nat.mul_div_cancel _ (by decide)
      rw [rkIommuMapIova, unwind, rkIommuUnmapIova, cancel]
      exact ⟨only.trans back, .inr ⟨rfl, whole, congrArg Prod.fst restored⟩⟩

/-- `rk_iommu_map` binds a range of one table, or fails and leaves the translation alone. -/
theorem rkIommuMap_spec (paddr prot : ℕ) (formed : WellFormed format domain)
    (fits : rkIovaPteIndex iova + size / spageSize ≤ 1024) :
    let mapped := rkIommuMap format domain iova paddr size prot
    let inserted :=
      insertNew (lookup format domain) (bindings format prot iova paddr (size / spageSize))
    WellFormed format mapped.1 ∧ Evolves format domain mapped.1 ∧
      ((mapped.2 = 0 ∧ inserted = some (lookup format mapped.1)) ∨
        (lookup format mapped.1 = lookup format domain ∧
          (mapped.2 = -enomem ∨ (mapped.2 = -eaddrinuse ∧ inserted = none)))) := by
  obtain ⟨formed', looked, evolves, table⟩ := rkDteGetPageTable_spec formed iova
  rcases got : rkDteGetPageTable format domain iova with ⟨domain', found⟩
  rw [got] at formed' looked evolves table
  cases found with
  | none =>
      rw [rkIommuMap, got]
      exact ⟨formed', evolves, .inr ⟨looked, .inl rfl⟩⟩
  | some page =>
      have isTable := table page rfl
      obtain ⟨only, result⟩ :=
        rkIommuMapIova_spec paddr prot formed' isTable fits
      have same := formed'.sameDirectory isTable only
      rw [looked] at result
      rw [rkIommuMap, got]
      refine ⟨same.wellFormed formed', evolves.trans (same.evolves isTable only), ?_⟩
      rcases result with done | ⟨refused, conflict, kept⟩
      · exact .inl done
      · exact .inr ⟨kept, .inr ⟨refused, conflict⟩⟩

/-- `rk_iommu_unmap` erases a range of one table from the front. -/
theorem rkIommuUnmap_spec (formed : WellFormed format domain)
    (fits : rkIovaPteIndex iova + size / spageSize ≤ 1024) :
    let unmapped := rkIommuUnmap format domain iova size
    let erased := eraseBound (lookup format domain) (pagesFrom iova (size / spageSize))
    WellFormed format unmapped.1 ∧ Evolves format domain unmapped.1 ∧
      lookup format unmapped.1 = erased.1 ∧ unmapped.2 = erased.2 * spageSize := by
  by_cases valid : rkDteIsPtValid (domain.dte iova) = true
  · have table : IsTable format domain (rkIovaDteIndex iova)
        (format.dtePtAddress (domain.dte iova)) :=
      ⟨by rw [rkIovaDteIndex_eq]; omega, valid, rfl⟩
    obtain ⟨only, looked, counted⟩ := rkIommuUnmapIova_spec formed table fits
    have same := formed.sameDirectory table only
    rw [rkIommuUnmap, valid]
    exact ⟨same.wellFormed formed, same.evolves table only, looked, counted⟩
  · -- Without a table the first page is not bound.
    have returned : rkIommuUnmap format domain iova size = (domain, 0) := if_pos valid
    have free : lookup format domain (pageOf iova) = none := by
      rw [lookup, ← rkIovaDteIndex_page]
      exact if_neg valid
    have nothing : eraseBound (lookup format domain) (pagesFrom iova (size / spageSize)) =
        (lookup format domain, 0) := by
      cases size / spageSize with
      | zero => rfl
      | succ count => exact eraseBound_cons_of_none free
    rw [returned, nothing]
    exact ⟨formed, .refl format domain, rfl, (Nat.zero_mul _).symm⟩

end Iommu
end RockchipSoc
