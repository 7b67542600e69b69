import Mathlib.Data.List.Forall2
import RockchipSoc.Rga.Import
import RockchipSoc.Rga.PageTable

/-!
# The sg tables of an imported buffer

A mapping leaves one entry for each scheduler; the entry of the RGA2 stays empty while the buffer
is not known to lie below 4 GiB.  `imports_usable_iff` says for every order of the schedulers and
every session of imports when each registered core finds its table.
-/

namespace RockchipSoc
namespace Rga

open LabelledRun

/-- `rga_mm_check_range_sgt`. -/
def rgaMmCheckRangeSgt (pages : List Scatterlist) : Bool :=
  pages.all fun sg =>
    !(decide (0xffffffff < sg.physAddress) ||
      decide (0xffffffff < sg.physAddress + sg.length.toNat))

/-- No page of the memory lies at or above 4 GiB. -/
def Below4G (pages : List Scatterlist) : Prop :=
  ∀ sg ∈ pages, 0 < sg.length.toNat → sg.physAddress + sg.length.toNat ≤ 2 ^ 32

/-- The cores that a probe registers. -/
def Registered (cores : List Nat) : Prop :=
  ∀ core ∈ cores, core = rga3SchedulerCore0 ∨ core = rga3SchedulerCore1 ∨
    core = rga2SchedulerCore0

/-- Each core finds a table, the RGA2 if all pages are within its reach. -/
def Usable (cores : List Nat) (pages : List Scatterlist) (buffer : RgaInternalBuffer) : Prop :=
  buffer.type = .dmaBuffer ∨ buffer.type = .virtualAddress →
    ∀ core ∈ cores, (core = rga2SchedulerCore0 → Below4G pages) →
      rgaMmLookupSgt buffer core = true

/-! ## Sessions with physical pages -/

/-- A session and the physical memory of each buffer, by the address of the buffer. -/
structure PagedSession where
  session : ImportSession
  pages : Nat → List Scatterlist

/-- A call, and the physical memory that it imports. -/
structure PagedCall where
  label : ImportLabel
  pages : List Scatterlist

/-- The answers of the kernel with the range check made on the memory. -/
def ImportEnv.onPages (env : ImportEnv) (pages : List Scatterlist) : ImportEnv :=
  { env with checkRangeSgt := rgaMmCheckRangeSgt pages }

def PagedCall.onPages (call : PagedCall) : ImportLabel :=
  match call.label with
  | .importBuffer external env => .importBuffer external (env.onPages call.pages)
  | label => label

def pagedStep (cores : List Nat) (paged : PagedSession) (call : PagedCall) :
    Option PagedSession :=
  (importStep cores paged.session call.onPages).map fun next =>
    ⟨next, Function.update paged.pages paged.session.mm.nextPtr call.pages⟩

def pagedStart : PagedSession := ⟨importStart, fun _ => []⟩

/-- Every buffer that a handle stands for is usable. -/
def TablesPresent (cores : List Nat) (paged : PagedSession) : Prop :=
  ∀ buffer ∈ paged.session.mm.memoryIdr, Usable cores (paged.pages buffer.ptr) buffer

/-- What a mapping needs for the RGA2: the range check passes, the RGA2 is not the first
scheduler (for a dma-buf), and `dma_map_sg` succeeds (for a user address). -/
def Rga2Ready (cores : List Nat) (external : RgaExternalBuffer) (env : ImportEnv) : Prop :=
  match external.type with
  | .dmaBuffer => env.checkRangeSgt = true ∧ cores.head? ≠ some rga2SchedulerCore0
  | .virtualAddress => env.checkRangeSgt = true ∧ DmaMapSgOk env true 0 cores
  | _ => True

/-- An import that succeeds with a new buffer within reach of a registered RGA2 is ready for it. -/
def ImportReady (cores : List Nat) (paged : PagedSession) (call : PagedCall) : Prop :=
  match call.onPages with
  | .importBuffer external env =>
      rgaMmLookupExternal paged.session.mm external env.dmaBuf = none →
      0 < (rgaMmImportBuffer cores env paged.session.mm external).1 →
      Below4G call.pages → rga2SchedulerCore0 ∈ cores → Rga2Ready cores external env
  | _ => True

variable {cores : List Nat} {mm : RgaMm} {buffer : RgaInternalBuffer} {env : ImportEnv}
  {external : RgaExternalBuffer} {under4G : Bool} {i core : Nat}

theorem below4G_of_check {pages : List Scatterlist} (checked : rgaMmCheckRangeSgt pages = true) :
    Below4G pages := by
  intro sg member _
  have passes := List.all_eq_true.mp checked sg member
  simp only [Bool.not_eq_true', Bool.or_eq_false_iff, decide_eq_false_iff_not] at passes
  omega

theorem Registered.ne_zero (registered : Registered cores) (member : core ∈ cores) : core ≠ 0 := by
  rcases registered core member with rfl | rfl | rfl <;> decide

theorem Registered.rga2 (registered : Registered cores) (member : core ∈ cores)
    (other : isRga3 core = false) : core = rga2SchedulerCore0 := by
  rcases registered core member with rfl | rfl | rfl
  · cases other
  · cases other
  · rfl

theorem skipsRga2_eq_false : skipsRga2 core under4G = false ↔
    (core = rga2SchedulerCore0 → under4G = true) := by
  simp [skipsRga2]

/-! ## The entries -/

/-- The core of the entry that a mapping leaves for a scheduler. -/
def slotCore (under4G : Bool) (core : Nat) : Nat := if skipsRga2 core under4G then 0 else core

theorem mem_map_slotCore (used : core ≠ 0) : core ∈ cores.map (slotCore under4G) ↔
    core ∈ cores ∧ skipsRga2 core under4G = false := by
  constructor
  · intro member
    obtain ⟨other, listed, slot_eq⟩ := List.mem_map.mp member
    unfold slotCore at slot_eq
    split at slot_eq
    next => exact absurd slot_eq.symm used
    next mapped =>
      subst slot_eq
      exact ⟨listed, eq_false_of_ne_true mapped⟩
  · rintro ⟨listed, mapped⟩
    exact List.mem_map.mpr ⟨core, listed, by rw [slotCore, mapped]; rfl⟩

/-- The entries of a mapping: each with a core has its table. -/
structure Slots (entries : List RgaDmaBuffer) (slots : List Nat) : Prop where
  cores_eq : entries.map RgaDmaBuffer.core = slots
  tables : ∀ entry ∈ entries, entry.core ≠ 0 → entry.sgt = true

theorem Slots.cons {entries : List RgaDmaBuffer} {slots : List Nat} {entry : RgaDmaBuffer}
    (rest : Slots entries slots) {slot : Nat} (core_eq : entry.core = slot)
    (table : slot ≠ 0 → entry.sgt = true) : Slots (entry :: entries) (slot :: slots) := by
  refine ⟨by rw [List.map_cons, core_eq, rest.cores_eq], fun other member used => ?_⟩
  rcases List.mem_cons.mp member with rfl | later
  · exact table (core_eq ▸ used)
  · exact rest.tables other later used

/-- A core finds its table exactly if it has an entry. -/
theorem Slots.lookupSgt {slots : List Nat} (slotted : Slots buffer.dmaBuffer slots)
    (used : core ≠ 0) : rgaMmLookupSgt buffer core = true ↔ core ∈ slots := by
  rw [rgaMmLookupSgt, ← slotted.cores_eq, List.mem_map]
  cases found : buffer.dmaBuffer.find? fun entry => entry.core == core with
  | none =>
      refine iff_of_false Bool.false_ne_true ?_
      rintro ⟨entry, member, core_eq⟩
      exact List.find?_eq_none.mp found entry member (beq_iff_eq.mpr core_eq)
  | some entry =>
      have member := List.mem_of_find?_eq_some found
      have matched := List.find?_some found
      have core_eq : entry.core = core := beq_iff_eq.mp matched
      exact iff_of_true (slotted.tables entry member (core_eq ▸ used)) ⟨entry, member, core_eq⟩

/-- Behind the first scheduler the flag decides. -/
theorem mapDmaEntries_later {object : Nat} {entries : List RgaDmaBuffer × Bool} (later : i ≠ 0)
    (mapped : mapDmaEntries env object i under4G cores = some entries) :
    Slots entries.1 (cores.map (slotCore under4G)) := by
  induction cores generalizing i entries with
  | nil =>
      obtain rfl := Option.some.inj mapped
      exact ⟨rfl, by simp⟩
  | cons core cores ih =>
      rw [mapDmaEntries] at mapped
      split at mapped
      next skipped =>
        obtain ⟨rest, tail, rfl⟩ := Option.map_eq_some_iff.mp mapped
        refine (ih (Nat.succ_ne_zero i) tail).cons ?_ ?_
        · rw [slotCore, if_pos skipped]
        · rw [slotCore, if_pos skipped]
          exact fun used => absurd rfl used
      next reached =>
        obtain ⟨fd, _, others⟩ := Option.bind_eq_some_iff.mp mapped
        obtain ⟨rest, tail, rfl⟩ := Option.map_eq_some_iff.mp others
        refine (ih (Nat.succ_ne_zero i) tail).cons ?_ fun _ => rfl
        rw [slotCore, if_neg reached]

/-- The first scheduler of a dma-buf is mapped unless it is the RGA2; without it the flag is
never set. -/
theorem mapDmaEntries_slots {object : Nat} {entries : List RgaDmaBuffer × Bool}
    (mapped : mapDmaEntries env object 0 false cores = some entries) :
    Slots entries.1 (cores.map (slotCore
      (env.checkRangeSgt && decide (cores.head? ≠ some rga2SchedulerCore0)))) := by
  cases cores with
  | nil =>
      obtain rfl := Option.some.inj mapped
      exact ⟨rfl, by simp⟩
  | cons core cores =>
      rw [mapDmaEntries] at mapped
      split at mapped
      next skipped =>
        have rga2 : core = rga2SchedulerCore0 := by simpa [skipsRga2] using skipped
        subst rga2
        obtain ⟨rest, tail, rfl⟩ := Option.map_eq_some_iff.mp mapped
        simp only [List.head?_cons, ne_eq, not_true_eq_false, decide_false, Bool.and_false]
        exact (mapDmaEntries_later (Nat.succ_ne_zero 0) tail).cons rfl fun used => absurd rfl used
      next reached =>
        have other : core ≠ rga2SchedulerCore0 := by simpa [skipsRga2] using reached
        obtain ⟨fd, _, others⟩ := Option.bind_eq_some_iff.mp mapped
        obtain ⟨rest, tail, rfl⟩ := Option.map_eq_some_iff.mp others
        simp only [List.head?_cons, ne_eq, Option.some.injEq, other, not_false_eq_true,
          decide_true, Bool.and_true]
        refine (mapDmaEntries_later (Nat.succ_ne_zero 0) tail).cons ?_ fun _ => rfl
        have mappedFor : skipsRga2 core env.checkRangeSgt = false :=
          skipsRga2_eq_false.mpr fun rga2 => absurd rga2 other
        rw [slotCore, mappedFor]
        rfl

/-- What the first loop of a user address leaves for the second. -/
def AllocatedFor (under4G : Bool) (core : Nat) (entry : RgaDmaBuffer) : Prop :=
  entry.core = 0 ∧ (skipsRga2 core under4G = false → entry.sgt = true)

theorem allocSgtEntries_later {virt : RgaVirtAddr} {entries : List RgaDmaBuffer × Bool}
    (later : i ≠ 0) (allocated : allocSgtEntries env virt i under4G cores = some entries) :
    List.Forall₂ (AllocatedFor under4G) cores entries.1 := by
  induction cores generalizing i entries with
  | nil =>
      obtain rfl := Option.some.inj allocated
      exact .nil
  | cons core cores ih =>
      have notFirst : (i != 0) = true := bne_iff_ne.mpr later
      rw [allocSgtEntries, notFirst, Bool.and_true] at allocated
      split at allocated
      next skipped =>
        obtain ⟨rest, tail, rfl⟩ := Option.map_eq_some_iff.mp allocated
        refine .cons ⟨rfl, fun reached => ?_⟩ (ih (Nat.succ_ne_zero i) tail)
        rw [skipped] at reached
        cases reached
      next =>
        split at allocated
        · cases allocated
        · obtain ⟨rest, tail, rfl⟩ := Option.map_eq_some_iff.mp allocated
          exact .cons ⟨rfl, fun _ => rfl⟩ (ih (Nat.succ_ne_zero i) tail)

/-- The first scheduler of a user address always has a table to check. -/
theorem allocSgtEntries_allocated {virt : RgaVirtAddr} {entries : List RgaDmaBuffer × Bool}
    (allocated : allocSgtEntries env virt 0 false cores = some entries) :
    List.Forall₂ (AllocatedFor entries.2) cores entries.1 ∧
      (cores ≠ [] → entries.2 = env.checkRangeSgt) := by
  cases cores with
  | nil =>
      obtain rfl := Option.some.inj allocated
      exact ⟨.nil, fun some => absurd rfl some⟩
  | cons core cores =>
      rw [allocSgtEntries] at allocated
      simp only [bne_self_eq_false, Bool.and_false, Bool.false_eq_true, if_false, if_true]
        at allocated
      split at allocated
      · cases allocated
      · obtain ⟨rest, tail, rfl⟩ := Option.map_eq_some_iff.mp allocated
        have flag : rest.2 = env.checkRangeSgt := allocSgtEntries_flag tail (Nat.succ_ne_zero 0)
        refine ⟨.cons ⟨rfl, fun _ => rfl⟩ ?_, fun _ => flag⟩
        simp only [flag]
        exact allocSgtEntries_later (Nat.succ_ne_zero 0) tail

theorem rgaIommuMapVirtAddr_ok {entry mapped : RgaDmaBuffer}
    (ok : rgaIommuMapVirtAddr env i entry = .ok mapped) : mapped.sgt = true := by
  rw [rgaIommuMapVirtAddr] at ok
  split at ok
  · cases ok
  · split at ok
    · cases ok
    · split at ok
      · cases ok
      next table _ _ =>
        obtain rfl := Except.ok.inj ok
        simpa using table

theorem of_map_eq_ok {α β : Type} {f : α → β} {result : Except Int α} {value : β}
    (ok : result.map f = .ok value) : ∃ inner, result = .ok inner ∧ f inner = value := by
  cases result with
  | error ret => cases ok
  | ok inner => exact ⟨inner, rfl, Except.ok.inj ok⟩

theorem mapVirtEntries_slots {entries mapped : List RgaDmaBuffer}
    (allocated : List.Forall₂ (AllocatedFor under4G) cores entries)
    (ok : mapVirtEntries env under4G i cores entries = .ok mapped) :
    Slots mapped (cores.map (slotCore under4G)) := by
  induction allocated generalizing i mapped with
  | nil =>
      rw [mapVirtEntries.eq_def] at ok
      obtain rfl := Except.ok.inj ok
      exact ⟨rfl, by simp⟩
  | @cons core entry cores entries first _ ih =>
      rw [mapVirtEntries] at ok
      split at ok
      next skipped =>
        obtain ⟨rest, tail, rfl⟩ := of_map_eq_ok ok
        refine (ih tail).cons ?_ fun used => ?_
        · rw [slotCore, if_pos skipped, first.1]
        · rw [slotCore, if_pos skipped] at used
          exact absurd rfl used
      next reached =>
        have slot : slotCore under4G core = core := by rw [slotCore, if_neg reached]
        have table : entry.sgt = true := first.2 (eq_false_of_ne_true reached)
        rw [List.map_cons, slot]
        split at ok
        · cases one : rgaIommuMapVirtAddr env i entry with
          | error ret =>
              rw [one] at ok
              cases ok
          | ok filled =>
              rw [one] at ok
              obtain ⟨rest, tail, rfl⟩ := of_map_eq_ok ok
              have tabled : filled.sgt = true := rgaIommuMapVirtAddr_ok one
              exact (ih tail).cons rfl fun _ => tabled
        · split at ok
          · cases ok
          · obtain ⟨rest, tail, rfl⟩ := of_map_eq_ok ok
            exact (ih tail).cons rfl fun _ => table

/-! ## One import -/

theorem Slots.usable_iff {pages : List Scatterlist}
    (slotted : Slots buffer.dmaBuffer (cores.map (slotCore under4G)))
    (registered : Registered cores)
    (typed : buffer.type = .dmaBuffer ∨ buffer.type = .virtualAddress) :
    Usable cores pages buffer ↔
      (Below4G pages → rga2SchedulerCore0 ∈ cores → under4G = true) := by
  have found {core : Nat} (member : core ∈ cores) : rgaMmLookupSgt buffer core = true ↔
      (core = rga2SchedulerCore0 → under4G = true) := by
    rw [slotted.lookupSgt (registered.ne_zero member),
      mem_map_slotCore (registered.ne_zero member), skipsRga2_eq_false]
    exact and_iff_right member
  constructor
  · intro usable low member
    exact (found member).mp (usable typed _ member fun _ => low) rfl
  · intro flagged _ core member reach
    exact (found member).mpr fun rga2 => flagged (reach rga2) (rga2 ▸ member)

/-- A failing `dma_map_sg` is that of an RGA2 within reach. -/
theorem not_dmaMapSgOk (registered : Registered cores) (fails : ¬DmaMapSgOk env under4G i cores) :
    under4G = true ∧ rga2SchedulerCore0 ∈ cores := by
  induction cores generalizing i with
  | nil => exact absurd trivial fails
  | cons core cores ih =>
      rcases Classical.not_and_iff_not_or_not.mp fails with first | rest
      · simp only [Classical.not_imp] at first
        obtain ⟨reached, other, _⟩ := first
        have rga2 := registered.rga2 List.mem_cons_self other
        exact ⟨skipsRga2_eq_false.mp reached rga2, rga2 ▸ List.mem_cons_self⟩
      · obtain ⟨flag, member⟩ :=
          ih (fun other listed => registered other (List.mem_cons_of_mem _ listed)) rest
        exact ⟨flag, List.mem_cons_of_mem _ member⟩

/-- What a mapping that succeeds for a user address has done. -/
theorem rgaMmMapVirtAddr_ok {fresh : RgaInternalBuffer}
    (mapped : rgaMmMapVirtAddr cores env external fresh = .ok buffer) :
    ∃ virt entries, allocSgtEntries env virt 0 false cores = some entries ∧
      buffer.ptr = fresh.ptr ∧ buffer.type = fresh.type ∧
      (mapVirtEntries env entries.2 0 cores entries.1 = .ok buffer.dmaBuffer ∨
        ∃ ret, mapVirtEntries env entries.2 0 cores entries.1 = .error ret ∧ 0 ≤ ret ∧
          buffer.dmaBuffer = fresh.dmaBuffer) := by
  rw [rgaMmMapVirtAddr] at mapped
  split at mapped
  · cases mapped
  · split at mapped
    · cases mapped
    next virt _ =>
      split at mapped
      · cases mapped
      · split at mapped
        · cases mapped
        next entries under4G allocated =>
          split at mapped
          next filled maps =>
            obtain rfl := Except.ok.inj mapped
            exact ⟨virt, _, allocated, rfl, rfl, Or.inl maps⟩
          next ret fails =>
            split at mapped
            · cases mapped
            next nonneg =>
              obtain rfl := Except.ok.inj mapped
              exact ⟨virt, _, allocated, rfl, rfl,
                Or.inr ⟨ret, fails, Int.not_lt.mp nonneg, rfl⟩⟩

/-- A new mapping is usable exactly if it was ready for an RGA2 within reach. -/
theorem rgaMmMapBuffer_usable_iff {pages : List Scatterlist} {ptr : Nat}
    (registered : Registered cores) (checked : env.checkRangeSgt = rgaMmCheckRangeSgt pages)
    (mapped : rgaMmMapBuffer cores env external ptr = .ok buffer) :
    buffer.ptr = ptr ∧ (Usable cores pages buffer ↔
      (Below4G pages → rga2SchedulerCore0 ∈ cores → Rga2Ready cores external env)) := by
  rw [rgaMmMapBuffer] at mapped
  split at mapped
  next dma =>
    obtain ⟨filled, maps, rfl⟩ := of_map_eq_ok mapped
    rw [rgaMmMapDmaBuffer] at maps
    split at maps
    · cases maps
    · split at maps
      · cases maps
      next entries found =>
        obtain rfl := Except.ok.inj maps
        obtain ⟨object, _, entered⟩ := Option.bind_eq_some_iff.mp found
        refine ⟨rfl, ?_⟩
        rw [Slots.usable_iff (mapDmaEntries_slots entered) registered (Or.inl dma)]
        simp only [Rga2Ready, dma, Bool.and_eq_true, decide_eq_true_iff]
  next virtual =>
    obtain ⟨filled, maps, rfl⟩ := of_map_eq_ok mapped
    obtain ⟨virt, entries, allocated, ptr_eq, type_eq, outcome⟩ := rgaMmMapVirtAddr_ok maps
    have typed : filled.type = .virtualAddress := type_eq.trans virtual
    refine ⟨ptr_eq, ?_⟩
    obtain ⟨allocatedFor, flag⟩ := allocSgtEntries_allocated allocated
    have maps := mapVirtEntries_cases env entries.2 0 (allocSgtEntries_spec allocated).1
      (allocSgtEntries_spec allocated).2
    simp only [Rga2Ready, virtual]
    rcases outcome with mappedAll | ⟨ret, error, nonneg, unmapped⟩
    · have slotted : Slots filled.dmaBuffer (cores.map (slotCore entries.2)) :=
        mapVirtEntries_slots allocatedFor mappedAll
      have fine : DmaMapSgOk env entries.2 0 cores := by
        rcases maps with ⟨_, error, _⟩ | ⟨_, _, _, fine⟩ | ⟨error, _⟩
        · rw [mappedAll] at error
          cases error
        · exact fine
        · rw [mappedAll] at error
          cases error
      refine Iff.trans (Slots.usable_iff slotted registered (Or.inr typed) :
        Usable cores pages { filled with needUseIommu := true } ↔ _) ?_
      refine forall_congr' fun low => forall_congr' fun member => ?_
      have checkedFlag := flag (List.ne_nil_of_mem member)
      rw [checkedFlag] at fine ⊢
      refine ⟨fun flagged => ⟨flagged, flagged ▸ fine⟩, And.left⟩
    · have fails : ¬DmaMapSgOk env entries.2 0 cores := by
        rcases maps with ⟨ret', error', negative⟩ | ⟨_, ok, _⟩ | ⟨_, fails⟩
        · rw [error] at error'
          cases error'
          omega
        · rw [error] at ok
          cases ok
        · exact fails
      obtain ⟨flagged, member⟩ := not_dmaMapSgOk registered fails
      have checkedFlag : entries.2 = env.checkRangeSgt := flag (List.ne_nil_of_mem member)
      have low : Below4G pages := below4G_of_check (by rw [← checked, ← checkedFlag, flagged])
      rw [flagged] at fails
      refine iff_of_false (fun usable => ?_) fun ready => fails (ready low member).2
      have table := usable (Or.inr typed) _ member fun _ => low
      rw [rgaMmLookupSgt] at table
      simp only at table
      rw [unmapped] at table
      cases table
  next physical =>
    obtain rfl := Except.ok.inj mapped
    simp [Usable, Rga2Ready, freshBuffer, physical]
  · cases mapped

/-- The three ways of an import: a reference to a buffer of the table, an error, or a new
buffer. -/
theorem rgaMmImportBuffer_cases (cores : List Nat) (env : ImportEnv) (mm : RgaMm)
    (external : RgaExternalBuffer) :
    (∃ buffer, rgaMmLookupExternal mm external env.dmaBuf = some buffer ∧
      (rgaMmImportBuffer cores env mm external).2 = krefGet mm buffer.ptr) ∨
    (rgaMmLookupExternal mm external env.dmaBuf = none ∧
      (rgaMmImportBuffer cores env mm external).1 < 0 ∧
      (rgaMmImportBuffer cores env mm external).2.memoryIdr = mm.memoryIdr ∧
      mm.nextPtr ≤ (rgaMmImportBuffer cores env mm external).2.nextPtr) ∨
    (rgaMmLookupExternal mm external env.dmaBuf = none ∧
      0 < (rgaMmImportBuffer cores env mm external).1 ∧
      ∃ buffer handle, rgaMmMapBuffer cores env external mm.nextPtr = .ok buffer ∧
        (rgaMmImportBuffer cores env mm external).2 =
          ⟨IdTable.insert RgaInternalBuffer.handle { buffer with handle := handle } mm.memoryIdr,
            mm.nextPtr + 1⟩) := by
  have refused : -enomem < 0 := by decide
  rw [rgaMmImportBuffer]
  cases found : rgaMmLookupExternal mm external env.dmaBuf with
  | some buffer => exact Or.inl ⟨buffer, rfl, rfl⟩
  | none =>
      simp only
      split
      · exact Or.inr (Or.inl ⟨trivial, refused, rfl, Nat.le_refl _⟩)
      · rcases rgaMmMapBuffer_cases cores (fun _ => 0) env external mm.nextPtr with
          ⟨ret, error, negative⟩ | ⟨buffer, mapped, _⟩
        · rw [error]
          exact Or.inr (Or.inl ⟨trivial, negative, rfl, Nat.le_refl _⟩)
        · rw [mapped]
          simp only
          split
          · exact Or.inr (Or.inl ⟨trivial, refused, rfl, Nat.le_succ _⟩)
          · refine Or.inr (Or.inr ⟨trivial, ?_, buffer, _, rfl, rfl⟩)
            have positive := IdTable.le_lowestFree RgaInternalBuffer.handle 1 mm.memoryIdr
            simp only
            omega

/-! ## Sessions -/

/-- Nothing that a lookup of tables reads differs. -/
structure SameTables (buffer other : RgaInternalBuffer) : Prop where
  ptr_eq : other.ptr = buffer.ptr
  type_eq : other.type = buffer.type
  dmaBuffer_eq : other.dmaBuffer = buffer.dmaBuffer

theorem Usable.congr {pages : List Scatterlist} {other : RgaInternalBuffer}
    (same : SameTables buffer other) (usable : Usable cores pages buffer) :
    Usable cores pages other := by
  intro typed core member reach
  rw [same.type_eq] at typed
  have table := usable typed core member reach
  rwa [rgaMmLookupSgt, ← same.dmaBuffer_eq, ← rgaMmLookupSgt] at table

theorem sameTables_of_mem_krefPut {ptr : Nat} (member : buffer ∈ (krefPut mm ptr).memoryIdr) :
    ∃ old ∈ mm.memoryIdr, SameTables old buffer := by
  obtain ⟨old, listed, kept⟩ := List.mem_filterMap.mp member
  refine ⟨old, listed, ?_⟩
  split at kept
  · split at kept
    · cases kept
    · obtain rfl := Option.some.inj kept
      exact ⟨rfl, rfl, rfl⟩
  · obtain rfl := Option.some.inj kept
    exact ⟨rfl, rfl, rfl⟩

theorem sameTables_of_mem_krefGet {ptr : Nat} (member : buffer ∈ (krefGet mm ptr).memoryIdr) :
    ∃ old ∈ mm.memoryIdr, SameTables old buffer := by
  obtain ⟨old, listed, rfl⟩ := List.mem_map.mp member
  refine ⟨old, listed, ?_⟩
  split
  · exact ⟨rfl, rfl, rfl⟩
  · exact ⟨rfl, rfl, rfl⟩

/-- The tables are there, and no buffer has the address of the next one. -/
structure PagedInv (cores : List Nat) (paged : PagedSession) : Prop where
  present : TablesPresent cores paged
  allocated : ∀ buffer ∈ paged.session.mm.memoryIdr, buffer.ptr < paged.session.mm.nextPtr

/-- A call that enters no buffer. -/
theorem PagedInv.frame {paged : PagedSession} {next : ImportSession} {pages : List Scatterlist}
    (inv : PagedInv cores paged)
    (old : ∀ buffer ∈ next.mm.memoryIdr, ∃ before ∈ paged.session.mm.memoryIdr,
      SameTables before buffer)
    (later : paged.session.mm.nextPtr ≤ next.mm.nextPtr) :
    PagedInv cores ⟨next, Function.update paged.pages paged.session.mm.nextPtr pages⟩ := by
  refine ⟨fun buffer member => ?_, fun buffer member => ?_⟩
  · obtain ⟨before, listed, same⟩ := old buffer member
    have allocated := inv.allocated before listed
    have untouched : Function.update paged.pages paged.session.mm.nextPtr pages buffer.ptr =
        paged.pages before.ptr := by
      rw [same.ptr_eq]
      exact Function.update_of_ne (Nat.ne_of_lt allocated) _ _
    simp only [untouched]
    exact (inv.present before listed).congr same
  · obtain ⟨before, listed, same⟩ := old buffer member
    rw [same.ptr_eq]
    exact Nat.lt_of_lt_of_le (inv.allocated before listed) later

/-- An import that enters a buffer keeps the tables exactly if the buffer is usable. -/
theorem PagedInv.insert {paged : PagedSession} {next : ImportSession} {pages : List Scatterlist}
    (inv : PagedInv cores paged) (handle : Nat) (ptr_eq : buffer.ptr = paged.session.mm.nextPtr)
    (table : next.mm = ⟨IdTable.insert RgaInternalBuffer.handle { buffer with handle := handle }
      paged.session.mm.memoryIdr, paged.session.mm.nextPtr + 1⟩) :
    (TablesPresent cores ⟨next, Function.update paged.pages paged.session.mm.nextPtr pages⟩ →
      Usable cores pages buffer) ∧
    (Usable cores pages buffer →
      PagedInv cores ⟨next, Function.update paged.pages paged.session.mm.nextPtr pages⟩) := by
  have same : SameTables { buffer with handle := handle } buffer := ⟨rfl, rfl, rfl⟩
  constructor
  · intro present
    have entered : { buffer with handle := handle } ∈ next.mm.memoryIdr := by
      rw [table]
      exact IdTable.mem_insert.mpr (Or.inl rfl)
    have usable := present _ entered
    simp only [ptr_eq, Function.update_self] at usable
    exact usable.congr same
  · intro usable
    refine ⟨fun other member => ?_, fun other member => ?_⟩
    · rw [table] at member
      rcases IdTable.mem_insert.mp member with rfl | old
      · simp only [ptr_eq, Function.update_self]
        exact usable.congr ⟨rfl, rfl, rfl⟩
      · have untouched : Function.update paged.pages paged.session.mm.nextPtr pages other.ptr =
            paged.pages other.ptr :=
          Function.update_of_ne (Nat.ne_of_lt (inv.allocated other old)) _ _
        simp only [untouched]
        exact inv.present other old
    · simp only [table] at member ⊢
      rcases IdTable.mem_insert.mp member with rfl | old
      · exact Nat.lt_succ_of_le (Nat.le_of_eq ptr_eq)
      · exact Nat.lt_succ_of_lt (inv.allocated other old)

theorem pagedInv_start (cores : List Nat) : PagedInv cores pagedStart where
  present := fun _ member => by cases member
  allocated := fun _ member => by cases member

/-- An import keeps the tables exactly if it is ready for an RGA2 within reach. -/
theorem PagedInv.importBuffer {paged : PagedSession} {pages : List Scatterlist}
    (registered : Registered cores) (inv : PagedInv cores paged)
    (checked : env.checkRangeSgt = rgaMmCheckRangeSgt pages) (last : Option ImportCall) :
    let outcome := rgaMmImportBuffer cores env paged.session.mm external
    let next : PagedSession :=
      ⟨⟨outcome.2, last⟩, Function.update paged.pages paged.session.mm.nextPtr pages⟩
    let ready := rgaMmLookupExternal paged.session.mm external env.dmaBuf = none →
      0 < outcome.1 → Below4G pages → rga2SchedulerCore0 ∈ cores → Rga2Ready cores external env
    (ready → PagedInv cores next) ∧ (TablesPresent cores next → ready) := by
  intro outcome next ready
  rcases rgaMmImportBuffer_cases cores env paged.session.mm external with
    ⟨buffer, found, table⟩ | ⟨_, negative, table, later⟩ |
    ⟨new, positive, buffer, handle, mapped, table⟩
  · refine ⟨fun _ => inv.frame (fun other member => ?_) ?_, fun _ new => ?_⟩
    · simp only [outcome, table] at member
      exact sameTables_of_mem_krefGet member
    · simp only [outcome, table]
      exact Nat.le_refl _
    · rw [found] at new
      cases new
  · refine ⟨fun _ => inv.frame (fun other member => ?_) later, fun _ _ positive => ?_⟩
    · simp only [outcome, table] at member
      exact ⟨other, member, rfl, rfl, rfl⟩
    · exact absurd positive (Int.not_lt.mpr (Int.le_of_lt negative))
  · obtain ⟨ptr_eq, usable_iff⟩ := rgaMmMapBuffer_usable_iff registered checked mapped
    have entered : (TablesPresent cores next → Usable cores pages buffer) ∧
        (Usable cores pages buffer → PagedInv cores next) := inv.insert handle ptr_eq table
    exact ⟨fun holds => entered.2 (usable_iff.mpr (holds new positive)),
      fun present _ _ => usable_iff.mp (entered.1 present)⟩

/-- Over every session of imports, releases and jobs, all registered cores find the tables of all
buffers exactly if each import that enters a buffer is ready for an RGA2 within reach. -/
theorem imports_usable_iff (cores : List Nat) (registered : Registered cores)
    (calls : List PagedCall) :
    Always (pagedStep cores) (TablesPresent cores) pagedStart calls ↔
      Along (pagedStep cores) (ImportReady cores) pagedStart calls := by
  refine always_iff_along (PagedInv cores) (fun _ inv => inv.present) ?_ ?_ (pagedInv_start cores)
    calls (along_anyStep pagedStart calls)
  · rintro paged ⟨label, pages⟩ next inv _ ready taken
    obtain ⟨session, stepped, rfl⟩ := Option.map_eq_some_iff.mp taken
    cases label with
    | importBuffer external env =>
        obtain rfl := Option.some.inj stepped
        exact (inv.importBuffer registered rfl _).1 ready
    | releaseBuffer handle =>
        obtain rfl := Option.some.inj stepped
        cases found : rgaMmLookupHandle paged.session.mm handle with
        | none =>
            simp only [rgaMmReleaseBuffer, found]
            exact inv.frame (fun other listed => ⟨other, listed, rfl, rfl, rfl⟩) (Nat.le_refl _)
        | some buffer =>
            simp only [rgaMmReleaseBuffer, found]
            exact inv.frame (fun _ => sameTables_of_mem_krefPut) (Nat.le_refl _)
    | jobGet handle =>
        obtain ⟨buffer, _, rfl⟩ := Option.map_eq_some_iff.mp stepped
        exact inv.frame (fun _ => sameTables_of_mem_krefGet) (Nat.le_refl _)
    | jobPut ptr =>
        obtain rfl := Option.some.inj stepped
        exact inv.frame (fun _ => sameTables_of_mem_krefPut) (Nat.le_refl _)
  · rintro paged ⟨label, pages⟩ inv _ unready
    cases label with
    | importBuffer external env =>
        refine ⟨_, rfl, fun present => unready ?_⟩
        exact (inv.importBuffer registered rfl _).2 present
    | releaseBuffer handle => exact absurd trivial unready
    | jobGet handle => exact absurd trivial unready
    | jobPut ptr => exact absurd trivial unready

/-- One page of memory far below 4 GiB. -/
def lowPage : List Scatterlist := [⟨0, 0x100000, 0, 4096⟩]

/-- A page that ends at 4 GiB. -/
def lastLowPage : List Scatterlist := [⟨0, 0xfffff000, 0, 4096⟩]

/-- A kernel on which every mapping succeeds. -/
def mappingEnv : ImportEnv where
  currentMm := some 1
  dmaBuf := some 7
  kzallocBuffer := true
  kcallocDmaBuffer := true
  dmaMapFd := fun i => some (0x10000 * (i + 1), 4096)
  stackFormat := none
  getFreePages := fun order => order ≤ 10
  getUserPages := 1
  kzallocVirtAddr := true
  allocSgt := fun _ => true
  checkRangeSgt := true
  iommuMap := fun i => (0x10000 * (i + 1), 4096)
  dmaMapSg := fun _ => 1
  idrAlloc := true

/-- The import of a dma-buf of one page. -/
def pageImport (pages : List Scatterlist) : PagedCall :=
  ⟨.importBuffer { memory := 5, type := .dmaBuffer, memoryParm := ⟨32, 32, 0⟩ } mappingEnv, pages⟩

theorem registered_all : Registered [1, 2, 4] := by
  intro core member
  simpa [rga3SchedulerCore0, rga3SchedulerCore1, rga2SchedulerCore0] using member

theorem imports_usable_iff_pageImport :
    Always (pagedStep [1, 2, 4]) (TablesPresent [1, 2, 4]) pagedStart [pageImport lowPage] ↔
      Along (pagedStep [1, 2, 4]) (ImportReady [1, 2, 4]) pagedStart [pageImport lowPage] :=
  imports_usable_iff [1, 2, 4] registered_all [pageImport lowPage]

theorem not_tablesPresent {paged : PagedSession} (handle : Nat)
    (listed : rgaMmLookupHandle paged.session.mm handle = some buffer)
    (typed : buffer.type = .dmaBuffer) (member : rga2SchedulerCore0 ∈ cores)
    (low : Below4G (paged.pages buffer.ptr))
    (missing : rgaMmLookupSgt buffer rga2SchedulerCore0 = false) : ¬TablesPresent cores paged := by
  intro present
  have table := present buffer (List.mem_of_find?_eq_some listed) (Or.inl typed) _ member
    fun _ => low
  rw [missing] at table
  cases table

/-- A dma-buf far below 4 GiB has no table for an RGA2 that is probed first; one that ends at
4 GiB has none in any order. -/
theorem rga2_left_without_table :
    (∃ final ∈ runs (pagedStep [4, 1, 2]) pagedStart [pageImport lowPage],
      ∃ buffer, rgaMmLookupHandle final.session.mm 1 = some buffer ∧
        Below4G (final.pages buffer.ptr) ∧ rgaMmLookupSgt buffer 4 = false ∧
        ¬TablesPresent [4, 1, 2] final) ∧
    ∃ final ∈ runs (pagedStep [1, 2, 4]) pagedStart [pageImport lastLowPage],
      ∃ buffer, rgaMmLookupHandle final.session.mm 1 = some buffer ∧
        Below4G (final.pages buffer.ptr) ∧ rgaMmLookupSgt buffer 4 = false ∧
        ¬TablesPresent [1, 2, 4] final := by
  have low : Below4G lowPage := by simp [Below4G, lowPage]
  have last : Below4G lastLowPage := by simp [Below4G, lastLowPage]
  constructor
  · refine ⟨_, rfl, _, rfl, low, rfl, ?_⟩
    apply not_tablesPresent 1
    · rfl
    · rfl
    · decide
    · exact low
    · rfl
  · refine ⟨_, rfl, _, rfl, last, rfl, ?_⟩
    apply not_tablesPresent 1
    · rfl
    · rfl
    · decide
    · exact last
    · rfl

end Rga
end RockchipSoc
