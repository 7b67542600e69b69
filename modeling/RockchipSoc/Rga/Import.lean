import RockchipSoc.Foundation.LabelledRun
import RockchipSoc.Rga.Mm

/-!
# What an imported handle stands for

The duplicate lookup compares one raw number per type.  For every session of imports, releases and
jobs that hold buffers, `import_handles_faithful_iff` says exactly which imports return a handle of
the right type, for the caller's address space and of the requested size.
-/

namespace RockchipSoc
namespace Rga

open LabelledRun

variable {cores : List Nat} {objSize : Nat → Nat} {mm : RgaMm} {buffer : RgaInternalBuffer}
  {env : ImportEnv} {external : RgaExternalBuffer}

/-! ## Sessions -/

structure ImportCall where
  external : RgaExternalBuffer
  currentMm : Option Nat
  ret : Int
  deriving DecidableEq, Repr

/-- The table and the import that has just returned. -/
structure ImportSession where
  mm : RgaMm
  last : Option ImportCall
  deriving DecidableEq, Repr

/-- The ioctls of any process, and jobs that take and put references. -/
inductive ImportLabel
  | importBuffer (external : RgaExternalBuffer) (env : ImportEnv)
  | releaseBuffer (handle : Nat)
  | jobGet (handle : Nat)
  | jobPut (ptr : Nat)

def importStep (cores : List Nat) (session : ImportSession) :
    ImportLabel → Option ImportSession
  | .importBuffer external env =>
      let outcome := rgaMmImportBuffer cores env session.mm external
      some ⟨outcome.2, some ⟨external, env.currentMm, outcome.1⟩⟩
  | .releaseBuffer handle => some ⟨(rgaMmReleaseBuffer session.mm handle).2, none⟩
  | .jobGet handle =>
      (rgaMmLookupHandle session.mm handle).map fun buffer =>
        ⟨krefGet session.mm buffer.ptr, none⟩
  | .jobPut ptr => some ⟨krefPut session.mm ptr, none⟩

def importStart : ImportSession := ⟨rgaMmInit, none⟩

/-- The bytes of a pinned user range from its address to the end of its last page. -/
def pinnedBytes (addr pageCount : Nat) : Nat := pageCount * 4096 - addr % 4096

/-- The memory behind a buffer: the size of the mapped object, the pinned pages from the address
on, or the extent recorded with a physical address. -/
def extent (objSize : Nat → Nat) (buffer : RgaInternalBuffer) : Option Nat :=
  match buffer.type with
  | .dmaBuffer => (buffer.dmaBuffer.findSome? RgaDmaBuffer.dmaBuf).map objSize
  | .virtualAddress => buffer.virtAddr.map fun virt => pinnedBytes virt.addr virt.pageCount
  | .physicalAddress => some buffer.memoryParm.bytes
  | .illegal _ => none

/-- A buffer of the requested type, made for the caller, that covers the request. -/
structure Denotes (objSize : Nat → Nat) (call : ImportCall) (buffer : RgaInternalBuffer) :
    Prop where
  sameType : buffer.type = call.external.type
  sameMm : call.external.type = .virtualAddress → buffer.currentMm = call.currentMm
  covers : ∃ bytes, extent objSize buffer = some bytes ∧ call.external.memoryParm.bytes ≤ bytes

/-- The handle that the last import returned denotes a buffer for its request. -/
def HandleFaithful (objSize : Nat → Nat) (session : ImportSession) : Prop :=
  ∀ call, session.last = some call → 0 ≤ call.ret →
    ∃ buffer, rgaMmLookupHandle session.mm call.ret.toNat = some buffer ∧
      Denotes objSize call buffer

/-! ## The table -/

/-- What mapping leaves in a buffer of each type. -/
def WellMapped (cores : List Nat) (buffer : RgaInternalBuffer) : Prop :=
  match buffer.type with
  | .dmaBuffer => buffer.virtAddr = none ∧
      ((buffer.dmaBuffer.findSome? RgaDmaBuffer.dmaBuf).isSome →
        ∃ core ∈ cores, core ≠ rga2SchedulerCore0)
  | .virtualAddress => buffer.virtAddr.isSome ∧ ∀ entry ∈ buffer.dmaBuffer, entry.dmaBuf = none
  | .physicalAddress => buffer.virtAddr = none ∧ buffer.dmaBuffer = []
  | .illegal _ => False

structure TableOk (cores : List Nat) (mm : RgaMm) : Prop where
  ascending : IdTable.Ascending RgaInternalBuffer.handle 1 mm.memoryIdr
  mapped : ∀ buffer ∈ mm.memoryIdr, WellMapped cores buffer

theorem tableOk_init : TableOk cores rgaMmInit := ⟨trivial, fun _ member => by cases member⟩

theorem lookupHandle_krefGet (mm : RgaMm) (ptr handle : Nat) :
    rgaMmLookupHandle (krefGet mm ptr) handle = (rgaMmLookupHandle mm handle).map fun buffer =>
      if buffer.ptr = ptr then { buffer with refcount := buffer.refcount + 1 } else buffer := by
  simp only [rgaMmLookupHandle, krefGet, List.find?_map]
  congr 1
  refine congrArg (fun p => List.find? p mm.memoryIdr) (funext fun buffer => ?_)
  simp only [Function.comp_apply]
  split <;> rfl

theorem TableOk.filterMap {update : RgaInternalBuffer → Option RgaInternalBuffer}
    (ok : TableOk cores mm)
    (onlyRefcount : ∀ b b', update b = some b' → ∃ n, b' = { b with refcount := n }) :
    TableOk cores { mm with memoryIdr := mm.memoryIdr.filterMap update } := by
  constructor
  · refine ok.ascending.filterMap fun b b' kept => ?_
    obtain ⟨n, rfl⟩ := onlyRefcount b b' kept
    rfl
  · intro b' member
    obtain ⟨b, old, kept⟩ := List.mem_filterMap.mp member
    obtain ⟨n, rfl⟩ := onlyRefcount b b' kept
    exact ok.mapped b old

theorem TableOk.krefPut (ok : TableOk cores mm) (ptr : Nat) : TableOk cores (krefPut mm ptr) := by
  refine ok.filterMap fun b b' kept => ?_
  split at kept
  · split at kept
    · cases kept
    · exact ⟨_, (Option.some.inj kept).symm⟩
  · exact ⟨b.refcount, (Option.some.inj kept).symm⟩

theorem TableOk.krefGet (ok : TableOk cores mm) (ptr : Nat) : TableOk cores (krefGet mm ptr) := by
  have asFilterMap : Rga.krefGet mm ptr =
      { mm with memoryIdr := mm.memoryIdr.filterMap fun b => some <|
          if b.ptr = ptr then { b with refcount := b.refcount + 1 } else b } := by
    rw [List.filterMap_eq_map']
    rfl
  rw [asFilterMap]
  refine ok.filterMap fun b b' kept => ?_
  obtain rfl := Option.some.inj kept
  split
  · exact ⟨_, rfl⟩
  · exact ⟨b.refcount, rfl⟩

theorem TableOk.release (ok : TableOk cores mm) (handle : Nat) :
    TableOk cores (rgaMmReleaseBuffer mm handle).2 := by
  rw [rgaMmReleaseBuffer]
  split
  · exact ok
  · exact ok.krefPut _

/-! ## What mapping does -/

theorem mapDmaEntries_findSome {object i : Nat} {under4G : Bool}
    {entries : List RgaDmaBuffer × Bool}
    (mapped : mapDmaEntries env object i under4G cores = some entries) :
    entries.1.findSome? RgaDmaBuffer.dmaBuf = some object ∨
      entries.1.findSome? RgaDmaBuffer.dmaBuf = none ∧
        ∀ core ∈ cores, core = rga2SchedulerCore0 := by
  induction cores generalizing i entries with
  | nil =>
      obtain rfl := Option.some.inj mapped
      exact Or.inr ⟨rfl, by simp⟩
  | cons core cores ih =>
      rw [mapDmaEntries] at mapped
      split at mapped
      case isTrue skipped =>
        obtain ⟨rest, later, rfl⟩ := Option.map_eq_some_iff.mp mapped
        simp only [skipsRga2, Bool.and_eq_true, beq_iff_eq] at skipped
        simp only [List.findSome?_cons, List.forall_mem_cons]
        exact (ih later).imp id fun none => ⟨none.1, skipped.1, none.2⟩
      case isFalse =>
        obtain ⟨fd, _, later⟩ := Option.bind_eq_some_iff.mp mapped
        obtain ⟨rest, _, rfl⟩ := Option.map_eq_some_iff.mp later
        exact Or.inl rfl

/-- With memory beyond 4G or only RGA2 schedulers, nothing is mapped. -/
theorem mapDmaEntries_rga2 {object i : Nat} {entries : List RgaDmaBuffer × Bool}
    (only : ∀ core ∈ cores, core = rga2SchedulerCore0)
    (mapped : mapDmaEntries env object i false cores = some entries) :
    entries.1.findSome? RgaDmaBuffer.dmaBuf = none := by
  induction cores generalizing i entries with
  | nil =>
      obtain rfl := Option.some.inj mapped
      rfl
  | cons core cores ih =>
      have skipped : skipsRga2 core false = true := by
        rw [only core List.mem_cons_self]
        rfl
      rw [mapDmaEntries, if_pos skipped] at mapped
      obtain ⟨rest, later, rfl⟩ := Option.map_eq_some_iff.mp mapped
      simp only [List.findSome?_cons]
      exact ih (fun core member => only core (List.mem_cons_of_mem _ member)) later

/-- `dma_map_sg` succeeds on every RGA2 scheduler that is mapped. -/
def DmaMapSgOk (env : ImportEnv) (under4G : Bool) : Nat → List Nat → Prop
  | _, [] => True
  | i, core :: cores =>
      (skipsRga2 core under4G = false → isRga3 core = false → env.dmaMapSg i ≠ 0) ∧
        DmaMapSgOk env under4G (i + 1) cores

theorem allocSgtEntries_spec {virt : RgaVirtAddr} {i : Nat} {under4G : Bool}
    {entries : List RgaDmaBuffer × Bool}
    (allocated : allocSgtEntries env virt i under4G cores = some entries) :
    entries.1.length = cores.length ∧ ∀ entry ∈ entries.1, entry.dmaBuf = none := by
  induction cores generalizing i under4G entries with
  | nil =>
      obtain rfl := Option.some.inj allocated
      simp
  | cons core cores ih =>
      rw [allocSgtEntries] at allocated
      split at allocated
      · obtain ⟨rest, later, rfl⟩ := Option.map_eq_some_iff.mp allocated
        obtain ⟨length, unmapped⟩ := ih later
        exact ⟨by simp [length], List.forall_mem_cons.mpr ⟨rfl, unmapped⟩⟩
      · split at allocated
        · cases allocated
        · obtain ⟨rest, later, rfl⟩ := Option.map_eq_some_iff.mp allocated
          obtain ⟨length, unmapped⟩ := ih later
          exact ⟨by simp [length], List.forall_mem_cons.mpr ⟨rfl, unmapped⟩⟩

theorem allocSgtEntries_flag {virt : RgaVirtAddr} {i : Nat} {under4G : Bool}
    {entries : List RgaDmaBuffer × Bool}
    (allocated : allocSgtEntries env virt i under4G cores = some entries) (later : i ≠ 0) :
    entries.2 = under4G := by
  induction cores generalizing i entries with
  | nil =>
      obtain rfl := Option.some.inj allocated
      rfl
  | cons core cores ih =>
      rw [allocSgtEntries] at allocated
      split at allocated
      · obtain ⟨rest, tail, rfl⟩ := Option.map_eq_some_iff.mp allocated
        exact (ih tail (Nat.succ_ne_zero i) :)
      · split at allocated
        · cases allocated
        · obtain ⟨rest, tail, rfl⟩ := Option.map_eq_some_iff.mp allocated
          exact (ih tail (Nat.succ_ne_zero i) :)

/-- The range of the first entry decides the flag of the whole buffer. -/
theorem dmaMapSgOk_flag {virt : RgaVirtAddr} {entries : List RgaDmaBuffer × Bool}
    (allocated : allocSgtEntries env virt 0 false cores = some entries) :
    DmaMapSgOk env entries.2 0 cores ↔ DmaMapSgOk env env.checkRangeSgt 0 cores := by
  cases cores with
  | nil => exact Iff.rfl
  | cons core cores =>
      rw [allocSgtEntries] at allocated
      simp only [bne_self_eq_false, Bool.and_false, Bool.false_eq_true, if_false, if_true]
        at allocated
      split at allocated
      · cases allocated
      · obtain ⟨rest, later, rfl⟩ := Option.map_eq_some_iff.mp allocated
        rw [allocSgtEntries_flag later (Nat.succ_ne_zero 0)]

theorem rgaIommuMapVirtAddr_cases (env : ImportEnv) (i : Nat) (entry : RgaDmaBuffer) :
    (∃ ret, rgaIommuMapVirtAddr env i entry = .error ret ∧ ret < 0) ∨
      ∃ mapped, rgaIommuMapVirtAddr env i entry = .ok mapped ∧ mapped.dmaBuf = entry.dmaBuf := by
  rw [rgaIommuMapVirtAddr]
  split
  · exact Or.inl ⟨_, rfl, by decide⟩
  · split
    · exact Or.inl ⟨_, rfl, by decide⟩
    · split
      · exact Or.inl ⟨_, rfl, by decide⟩
      · exact Or.inr ⟨_, rfl, rfl⟩

/-- The second loop fails with an error, maps everything, or returns the zero of a failing
`dma_map_sg`. -/
def MapsVirt (result : Except Int (List RgaDmaBuffer)) (dmaMapSgOk : Prop) : Prop :=
  (∃ ret, result = .error ret ∧ ret < 0) ∨
    (∃ mapped, result = .ok mapped ∧ (∀ entry ∈ mapped, entry.dmaBuf = none) ∧ dmaMapSgOk) ∨
    (result = .error 0 ∧ ¬dmaMapSgOk)

theorem MapsVirt.cons {result : Except Int (List RgaDmaBuffer)} {fine fine' : Prop}
    {entry : RgaDmaBuffer} (rest : MapsVirt result fine) (unmapped : entry.dmaBuf = none)
    (same : fine' ↔ fine) : MapsVirt (result.map (entry :: ·)) fine' := by
  rcases rest with ⟨ret, rfl, negative⟩ | ⟨mapped, rfl, none, maps⟩ | ⟨rfl, fails⟩
  · exact Or.inl ⟨ret, rfl, negative⟩
  · exact Or.inr (Or.inl ⟨_, rfl, List.forall_mem_cons.mpr ⟨unmapped, none⟩, same.mpr maps⟩)
  · exact Or.inr (Or.inr ⟨rfl, fun fine => fails (same.mp fine)⟩)

theorem mapVirtEntries_cases (env : ImportEnv) (under4G : Bool) (i : Nat)
    {entries : List RgaDmaBuffer} (length : entries.length = cores.length)
    (unmapped : ∀ entry ∈ entries, entry.dmaBuf = none) :
    MapsVirt (mapVirtEntries env under4G i cores entries) (DmaMapSgOk env under4G i cores) := by
  induction cores generalizing i entries with
  | nil => exact Or.inr (Or.inl ⟨[], by rw [mapVirtEntries.eq_def], by simp, trivial⟩)
  | cons core cores ih =>
      cases entries with
      | nil => cases length
      | cons entry entries =>
          obtain ⟨unmappedHead, unmappedTail⟩ := List.forall_mem_cons.mp unmapped
          have rest := ih (i + 1) (Nat.succ.inj length) unmappedTail
          rw [mapVirtEntries]
          split
          case isTrue skipped => exact rest.cons unmappedHead (by simp [DmaMapSgOk, skipped])
          case isFalse mapped =>
            split
            case isTrue rga3 =>
              rcases rgaIommuMapVirtAddr_cases env i entry with
                ⟨ret, error, negative⟩ | ⟨one, ok, same⟩
              · exact Or.inl ⟨ret, by rw [error]; rfl, negative⟩
              · rw [ok]
                exact rest.cons (same.trans unmappedHead) (by simp [DmaMapSgOk, rga3])
            case isFalse rga2 =>
              have reached : skipsRga2 core under4G = false ∧ isRga3 core = false := by
                simpa using And.intro mapped rga2
              split
              case isTrue failed =>
                exact Or.inr (Or.inr ⟨rfl, fun both => both.1 reached.1 reached.2 failed⟩)
              case isFalse maps =>
                exact rest.cons unmappedHead (by simp [DmaMapSgOk, reached, maps])

/-! ## One import -/

/-- The first buffer of the same external memory was made for the caller and is large enough. -/
def FoundMatches (objSize : Nat → Nat) (external : RgaExternalBuffer) (env : ImportEnv)
    (buffer : RgaInternalBuffer) : Prop :=
  match external.type with
  | .dmaBuffer =>
      ∀ object, env.dmaBuf = some object → external.memoryParm.bytes ≤ objSize object
  | .virtualAddress => buffer.currentMm = env.currentMm ∧ ∀ virt, buffer.virtAddr = some virt →
      external.memoryParm.bytes ≤ pinnedBytes virt.addr virt.pageCount
  | .physicalAddress => buffer.type = .physicalAddress ∧
      external.memoryParm.bytes ≤ buffer.memoryParm.bytes
  | .illegal _ => True

/-- A new mapping is large enough: some scheduler maps the object and the object has the size; the
pinned pages cover all planes and no `dma_map_sg` fails. -/
def FreshMatches (cores : List Nat) (objSize : Nat → Nat) (external : RgaExternalBuffer)
    (env : ImportEnv) : Prop :=
  match external.type with
  | .dmaBuffer => (∃ core ∈ cores, core ≠ rga2SchedulerCore0) ∧
      ∀ object, env.dmaBuf = some object → external.memoryParm.bytes ≤ objSize object
  | .virtualAddress =>
      external.memoryParm.bytes ≤ pinnedBytes external.memory
        (virtualPages external.memory
          (userFormatConvert env.stackFormat external.memoryParm.format)
          external.memoryParm.width external.memoryParm.height).pageCount ∧
      DmaMapSgOk env env.checkRangeSgt 0 cores
  | .physicalAddress => True
  | .illegal _ => True

/-- When an import returns a handle, it is one for the request. -/
def ImportMatches (cores : List Nat) (objSize : Nat → Nat) (session : ImportSession) :
    ImportLabel → Prop
  | .importBuffer external env =>
      0 ≤ (rgaMmImportBuffer cores env session.mm external).1 →
        match rgaMmLookupExternal session.mm external env.dmaBuf with
        | some buffer => FoundMatches objSize external env buffer
        | none => FreshMatches cores objSize external env
  | .releaseBuffer _ | .jobGet _ | .jobPut _ => True

theorem Denotes.congr {call call' : ImportCall} {buffer' : RgaInternalBuffer}
    (denotes : Denotes objSize call buffer) (sameExternal : call'.external = call.external)
    (sameMm : call'.currentMm = call.currentMm) (sameType : buffer'.type = buffer.type)
    (sameCurrentMm : buffer'.currentMm = buffer.currentMm)
    (sameExtent : extent objSize buffer' = extent objSize buffer) :
    Denotes objSize call' buffer' := by
  constructor
  · rw [sameExternal, sameType, denotes.sameType]
  · rw [sameExternal, sameMm, sameCurrentMm]
    exact denotes.sameMm
  · rw [sameExternal, sameExtent]
    exact denotes.covers

/-- A buffer that a new mapping makes, against the condition for new mappings. -/
structure FreshBuffer (cores : List Nat) (objSize : Nat → Nat) (external : RgaExternalBuffer)
    (env : ImportEnv) (buffer : RgaInternalBuffer) : Prop where
  wellMapped : FreshMatches cores objSize external env → WellMapped cores buffer
  denotes_iff : ∀ ret, Denotes objSize ⟨external, env.currentMm, ret⟩ buffer ↔
    FreshMatches cores objSize external env

theorem FreshBuffer.setNeedUseIommu (fresh : FreshBuffer cores objSize external env buffer) :
    FreshBuffer cores objSize external env { buffer with needUseIommu := true } :=
  ⟨fresh.wellMapped, fun ret => ⟨fun denotes => (fresh.denotes_iff ret).mp
      (denotes.congr rfl rfl rfl rfl rfl),
    fun matching => ((fresh.denotes_iff ret).mpr matching).congr rfl rfl rfl rfl rfl⟩⟩

theorem rgaMmMapDmaBuffer_cases (cores : List Nat) (objSize : Nat → Nat) (env : ImportEnv)
    (typed : external.type = .dmaBuffer) (fresh : buffer.type = .dmaBuffer)
    (unmapped : buffer.virtAddr = none) :
    (∃ ret, rgaMmMapDmaBuffer cores env buffer = .error ret ∧ ret < 0) ∨
      ∃ mapped, rgaMmMapDmaBuffer cores env buffer = .ok mapped ∧
        FreshBuffer cores objSize external env mapped := by
  rw [rgaMmMapDmaBuffer]
  split
  · exact Or.inl ⟨_, rfl, by decide⟩
  · split
    · exact Or.inl ⟨_, rfl, by decide⟩
    case h_2 entries found =>
      obtain ⟨object, opened, entered⟩ := Option.bind_eq_some_iff.mp found
      refine Or.inr ⟨_, rfl, ?_⟩
      rcases mapDmaEntries_findSome entered with some | ⟨none, only⟩
      · have core : ∃ core ∈ cores, core ≠ rga2SchedulerCore0 := by
          by_contra only
          simp only [not_exists, not_and, not_not] at only
          rw [mapDmaEntries_rga2 only entered] at some
          cases some
        refine ⟨fun _ => ?_, fun ret => ?_⟩
        · simp only [WellMapped, fresh]
          exact ⟨unmapped, fun _ => core⟩
        · simp only [FreshMatches, typed, opened, Option.some.injEq, forall_eq']
          constructor
          · rintro ⟨_, _, bytes, size, covers⟩
            simp only [extent, fresh, some, Option.map_some, Option.some.injEq] at size
            exact ⟨core, size ▸ covers⟩
          · intro matching
            refine ⟨fresh.trans typed.symm, fun virtual => ?_, _, ?_, matching.2⟩
            · simp [typed] at virtual
            · simp only [extent, fresh, some, Option.map_some]
      · have missing : ¬FreshMatches cores objSize external env := by
          simp only [FreshMatches, typed]
          rintro ⟨⟨core, member, rga3⟩, _⟩
          exact rga3 (only core member)
        refine ⟨fun matching => absurd matching missing, fun ret => iff_of_false ?_ missing⟩
        rintro ⟨_, _, bytes, size, _⟩
        simp [extent, fresh, none] at size

theorem rgaAllocVirtAddr_cases (env : ImportEnv) (viraddr : Nat) (parm : RgaMemoryParm) :
    (∃ ret, rgaAllocVirtAddr env viraddr parm = .error ret ∧ ret < 0) ∨
      ∃ virt, rgaAllocVirtAddr env viraddr parm = .ok virt ∧ virt.addr = viraddr ∧
        virt.pageCount = (virtualPages viraddr (userFormatConvert env.stackFormat parm.format)
          parm.width parm.height).pageCount := by
  simp only [rgaAllocVirtAddr]
  split
  · exact Or.inl ⟨_, rfl, by decide⟩
  · split
    · exact Or.inl ⟨_, rfl, by decide⟩
    · split
      · exact Or.inl ⟨_, rfl, by decide⟩
      · exact Or.inr ⟨_, rfl, rfl, rfl⟩

theorem rgaMmMapVirtAddr_cases (cores : List Nat) (objSize : Nat → Nat) (env : ImportEnv)
    (typed : external.type = .virtualAddress) (fresh : buffer.type = .virtualAddress)
    (parm : buffer.memoryParm = external.memoryParm) (unmapped : buffer.virtAddr = none) :
    (∃ ret, rgaMmMapVirtAddr cores env external buffer = .error ret ∧ ret < 0) ∨
      ∃ mapped, rgaMmMapVirtAddr cores env external buffer = .ok mapped ∧
        FreshBuffer cores objSize external env mapped := by
  rw [rgaMmMapVirtAddr]
  split
  case isTrue => exact Or.inl ⟨_, rfl, by decide⟩
  case isFalse owner =>
    rcases rgaAllocVirtAddr_cases env external.memory buffer.memoryParm with
      ⟨ret, error, negative⟩ | ⟨virt, allocated, addr, pageCount⟩
    · exact Or.inl ⟨ret, by rw [error], negative⟩
    · rw [allocated]
      simp only
      split
      · exact Or.inl ⟨_, rfl, by decide⟩
      · split
        · exact Or.inl ⟨_, rfl, by decide⟩
        case h_2 entries under4G entered =>
          obtain ⟨length, none⟩ := allocSgtEntries_spec entered
          have flag := dmaMapSgOk_flag entered
          rcases mapVirtEntries_cases env under4G 0 length none with
            ⟨ret, error, negative⟩ | ⟨mapped, ok, none, maps⟩ | ⟨error, fails⟩
          · rw [error]
            exact Or.inl ⟨ret, if_pos negative, negative⟩
          · rw [ok]
            refine Or.inr ⟨_, rfl, fun _ => ?_, fun ret => ?_⟩
            · simp only [WellMapped, fresh]
              exact ⟨rfl, none⟩
            · simp only [FreshMatches, typed, ← flag, maps, and_true, ← parm, ← pageCount]
              constructor
              · rintro ⟨_, _, bytes, size, covers⟩
                simp only [extent, fresh, Option.map_some, Option.some.injEq, addr] at size
                rw [size, parm]
                exact covers
              · intro covers
                refine ⟨fresh.trans typed.symm, fun _ => rfl, _, ?_, parm ▸ covers⟩
                simp only [extent, fresh, Option.map_some, addr]
          · rw [error]
            refine Or.inr ⟨_, if_neg (by decide), ?_⟩
            have torn : ¬FreshMatches cores objSize external env := by
              simp only [FreshMatches, typed, ← flag]
              exact fun matching => fails matching.2
            refine ⟨fun matching => absurd matching torn, fun ret => iff_of_false ?_ torn⟩
            rintro ⟨_, _, bytes, size, _⟩
            simp [extent, fresh, unmapped] at size

theorem rgaMmMapBuffer_cases (cores : List Nat) (objSize : Nat → Nat) (env : ImportEnv)
    (external : RgaExternalBuffer) (ptr : Nat) :
    (∃ ret, rgaMmMapBuffer cores env external ptr = .error ret ∧ ret < 0) ∨
      ∃ buffer, rgaMmMapBuffer cores env external ptr = .ok buffer ∧
        FreshBuffer cores objSize external env buffer := by
  simp only [rgaMmMapBuffer]
  split
  case h_1 typed =>
    have outcome := rgaMmMapDmaBuffer_cases cores objSize env typed
      (show (freshBuffer external ptr).type = .dmaBuffer from typed) rfl
    rcases outcome with ⟨ret, error, negative⟩ | ⟨mapped, ok, fresh⟩
    · exact Or.inl ⟨ret, by rw [error]; rfl, negative⟩
    · exact Or.inr ⟨_, by rw [ok]; rfl, fresh.setNeedUseIommu⟩
  case h_2 typed =>
    have outcome := rgaMmMapVirtAddr_cases cores objSize env typed
      (show (freshBuffer external ptr).type = .virtualAddress from typed) rfl rfl
    rcases outcome with ⟨ret, error, negative⟩ | ⟨mapped, ok, fresh⟩
    · exact Or.inl ⟨ret, by rw [error]; rfl, negative⟩
    · exact Or.inr ⟨_, by rw [ok]; rfl, fresh.setNeedUseIommu⟩
  case h_3 typed =>
    refine Or.inr ⟨_, rfl, fun _ => ?_, fun ret => ?_⟩
    · simp only [WellMapped, freshBuffer, typed]
      exact ⟨trivial, trivial⟩
    · simp only [FreshMatches, typed, iff_true]
      refine ⟨rfl, fun virtual => ?_, external.memoryParm.bytes, ?_, Nat.le_refl _⟩
      · simp [typed] at virtual
      · simp only [extent, freshBuffer, typed]
  case h_4 => exact Or.inl ⟨_, rfl, by decide⟩

/-- A buffer that the duplicate lookup finds, against the condition for it. -/
theorem TableOk.denotes_found_iff (ok : TableOk cores mm) (objSize : Nat → Nat)
    (found : rgaMmLookupExternal mm external env.dmaBuf = some buffer) (ret : Int) :
    Denotes objSize ⟨external, env.currentMm, ret⟩ buffer ↔
      FoundMatches objSize external env buffer := by
  have wellMapped := ok.mapped buffer (List.mem_of_find?_eq_some found)
  have same : sameExternal external env.dmaBuf buffer = true := List.find?_some found
  cases typed : external.type with
  | dmaBuffer =>
      simp only [sameExternal, typed, Bool.and_eq_true, beq_iff_eq] at same
      obtain ⟨object, opened⟩ := Option.isSome_iff_exists.mp same.1
      rw [opened] at same
      obtain ⟨entry, first, mapped⟩ := Option.bind_eq_some_iff.mp same.2
      obtain ⟨entries, listed⟩ := List.head?_eq_some_iff.mp first
      have dma : buffer.type = .dmaBuffer := by
        simp only [WellMapped] at wellMapped
        split at wellMapped
        · assumption
        · have := wellMapped.2 entry (by simp [listed])
          simp [mapped] at this
        · simp [listed] at wellMapped
        · exact wellMapped.elim
      have size : extent objSize buffer = some (objSize object) := by
        simp only [extent, dma, listed, List.findSome?_cons, mapped, Option.map_some]
      simp only [FoundMatches, typed, opened, Option.some.injEq, forall_eq']
      constructor
      · rintro ⟨_, _, bytes, equal, covers⟩
        rw [size] at equal
        exact Option.some.inj equal ▸ covers
      · intro covers
        exact ⟨dma.trans typed.symm, fun virtual => by simp [typed] at virtual, _, size, covers⟩
  | virtualAddress =>
      simp only [sameExternal, typed, beq_iff_eq] at same
      obtain ⟨virt, pinned, _⟩ := Option.map_eq_some_iff.mp same
      have virtual : buffer.type = .virtualAddress := by
        simp only [WellMapped] at wellMapped
        split at wellMapped
        · simp [pinned] at wellMapped
        · assumption
        · simp [pinned] at wellMapped
        · exact wellMapped.elim
      have size : extent objSize buffer = some (pinnedBytes virt.addr virt.pageCount) := by
        simp only [extent, virtual, pinned, Option.map_some]
      simp only [FoundMatches, typed, pinned, Option.some.injEq, forall_eq']
      constructor
      · rintro ⟨_, sameMm, bytes, equal, covers⟩
        rw [size] at equal
        exact ⟨sameMm typed, Option.some.inj equal ▸ covers⟩
      · intro matching
        exact ⟨virtual.trans typed.symm, fun _ => matching.1, _, size, matching.2⟩
  | physicalAddress =>
      simp only [FoundMatches, typed]
      constructor
      · rintro ⟨sameType, _, bytes, equal, covers⟩
        have physical : buffer.type = .physicalAddress := sameType.trans typed
        simp only [extent, physical, Option.some.injEq] at equal
        exact ⟨physical, equal ▸ covers⟩
      · intro matching
        refine ⟨matching.1.trans typed.symm, fun virtual => by simp [typed] at virtual, _, ?_,
          matching.2⟩
        simp only [extent, matching.1]
  | illegal code => simp [sameExternal, typed] at same

theorem handleFaithful_iff {call : ImportCall} :
    HandleFaithful objSize ⟨mm, some call⟩ ↔ (0 ≤ call.ret →
      ∃ buffer, rgaMmLookupHandle mm call.ret.toNat = some buffer ∧
        Denotes objSize call buffer) := by
  simp [HandleFaithful]

theorem TableOk.insert (ok : TableOk cores mm) (wellMapped : WellMapped cores buffer)
    (nextPtr : Nat) :
    TableOk cores ⟨IdTable.insert RgaInternalBuffer.handle
      { buffer with handle := IdTable.lowestFree RgaInternalBuffer.handle 1 mm.memoryIdr }
      mm.memoryIdr, nextPtr⟩ := by
  refine ⟨ok.ascending.insert rfl, fun b member => ?_⟩
  rcases IdTable.mem_insert.mp member with rfl | old
  · exact wellMapped
  · exact ok.mapped b old

/-- The new handle finds the new buffer. -/
theorem lookupHandle_insert (value : RgaInternalBuffer) {table : List RgaInternalBuffer}
    (ascending : IdTable.Ascending RgaInternalBuffer.handle 1 table)
    (allocated : value.handle = IdTable.lowestFree RgaInternalBuffer.handle 1 table)
    (nextPtr : Nat) :
    rgaMmLookupHandle ⟨IdTable.insert RgaInternalBuffer.handle value table, nextPtr⟩
      (IdTable.lowestFree RgaInternalBuffer.handle 1 table) = some value := by
  rw [← allocated]
  exact (ascending.insert allocated).find_key (IdTable.mem_insert.mpr (Or.inl rfl))

theorem enomem_error : ¬(0 : Int) ≤ -enomem := by decide

/-- One import keeps the table and is faithful exactly under the condition. -/
theorem TableOk.importBuffer (ok : TableOk cores mm) (objSize : Nat → Nat)
    (external : RgaExternalBuffer) (env : ImportEnv) (last : Option ImportCall) :
    let outcome := rgaMmImportBuffer cores env mm external
    let matching := ImportMatches cores objSize ⟨mm, last⟩ (.importBuffer external env)
    (HandleFaithful objSize ⟨outcome.2, some ⟨external, env.currentMm, outcome.1⟩⟩ ↔ matching) ∧
      (matching → TableOk cores outcome.2) := by
  simp only [ImportMatches, handleFaithful_iff, rgaMmImportBuffer]
  cases found : rgaMmLookupExternal mm external env.dmaBuf with
  | some b =>
      have listed : rgaMmLookupHandle mm b.handle = some b :=
        ok.ascending.find_key (List.mem_of_find?_eq_some found)
      have denotes := ok.denotes_found_iff objSize found
      simp only [Int.toNat_natCast, Int.natCast_nonneg, forall_const, lookupHandle_krefGet,
        listed, Option.map_some, if_true, Option.some.injEq, exists_eq_left']
      refine ⟨⟨fun bumped => ?_, fun matching => ?_⟩, fun _ => ok.krefGet b.ptr⟩
      · exact (denotes _).mp (bumped.congr rfl rfl rfl rfl rfl)
      · exact ((denotes 0).mpr matching).congr rfl rfl rfl rfl rfl
  | none =>
      simp only
      split
      · refine ⟨iff_of_true ?_ ?_, fun _ => ok⟩
        all_goals exact fun success => absurd success enomem_error
      · rcases rgaMmMapBuffer_cases cores objSize env external mm.nextPtr with
          ⟨ret, error, negative⟩ | ⟨b, mapped, fresh⟩
        · simp only [error]
          refine ⟨iff_of_true ?_ ?_, fun _ => ok⟩
          all_goals exact fun success => absurd success (by omega)
        · simp only [mapped]
          split
          · refine ⟨iff_of_true ?_ ?_, fun _ => ⟨ok.ascending, ok.mapped⟩⟩
            all_goals exact fun success => absurd success enomem_error
          · have listed := lookupHandle_insert
              { b with handle := IdTable.lowestFree RgaInternalBuffer.handle 1 mm.memoryIdr }
              ok.ascending rfl (mm.nextPtr + 1)
            simp only [Int.toNat_natCast, Int.natCast_nonneg, forall_const, listed,
              Option.some.injEq, exists_eq_left']
            refine ⟨⟨fun entered => ?_, fun matching => ?_⟩, fun matching =>
              ok.insert (fresh.wellMapped matching) _⟩
            · exact (fresh.denotes_iff _).mp (entered.congr rfl rfl rfl rfl rfl)
            · exact ((fresh.denotes_iff 0).mpr matching).congr rfl rfl rfl rfl rfl

/-! ## Sessions of imports -/

/-- Over every session from the empty table, all imports return handles for their requests exactly
when each import meets the condition. -/
theorem import_handles_faithful_iff (cores : List Nat) (objSize : Nat → Nat)
    (labels : List ImportLabel) :
    Always (importStep cores) (HandleFaithful objSize) importStart labels ↔
      Along (importStep cores) (ImportMatches cores objSize) importStart labels := by
  refine always_iff_along
    (fun session => TableOk cores session.mm ∧ HandleFaithful objSize session)
    (fun _ inv => inv.2) ?_ ?_ ⟨tableOk_init, fun _ none => by cases none⟩ labels
    (along_anyStep importStart labels)
  · intro session label next inv _ matching taken
    have quiet : ∀ mm : RgaMm, HandleFaithful objSize ⟨mm, none⟩ := fun _ _ none => by cases none
    cases label with
    | importBuffer external env =>
        obtain rfl := Option.some.inj taken
        obtain ⟨faithful, kept⟩ := inv.1.importBuffer objSize external env session.last
        exact ⟨kept matching, faithful.mpr matching⟩
    | releaseBuffer handle =>
        obtain rfl := Option.some.inj taken
        exact ⟨inv.1.release handle, quiet _⟩
    | jobGet handle =>
        obtain ⟨buffer, _, rfl⟩ := Option.map_eq_some_iff.mp taken
        exact ⟨inv.1.krefGet buffer.ptr, quiet _⟩
    | jobPut ptr =>
        obtain rfl := Option.some.inj taken
        exact ⟨inv.1.krefPut ptr, quiet _⟩
  · intro session label inv _ refused
    cases label with
    | importBuffer external env =>
        have exact := (inv.1.importBuffer objSize external env session.last).1
        exact ⟨_, rfl, fun faithful => refused (exact.mp faithful)⟩
    | releaseBuffer handle => exact absurd trivial refused
    | jobGet handle => exact absurd trivial refused
    | jobPut ptr => exact absurd trivial refused

/-- Two processes import the same number. -/
def sharedAddress : RgaExternalBuffer :=
  { memory := 0x7f0000000000, type := .virtualAddress, memoryParm := ⟨64, 64, 0⟩ }

def importEnvOf (process : Nat) : ImportEnv where
  currentMm := some process
  dmaBuf := none
  kzallocBuffer := true
  kcallocDmaBuffer := true
  dmaMapFd := fun _ => none
  stackFormat := none
  getFreePages := fun order => order ≤ 10
  getUserPages := 4
  kzallocVirtAddr := true
  allocSgt := fun _ => true
  checkRangeSgt := true
  iommuMap := fun i => (0x10000 * (i + 1), 16384)
  dmaMapSg := fun _ => 1
  idrAlloc := true

def sharedImports : List ImportLabel :=
  [.importBuffer sharedAddress (importEnvOf 1), .importBuffer sharedAddress (importEnvOf 2)]

theorem two_processes_share_a_handle : ∃ final buffer,
    runs (importStep [1, 2, 4]) importStart sharedImports = some final ∧
      final.last = some ⟨sharedAddress, some 2, 1⟩ ∧
      rgaMmLookupHandle final.mm 1 = some buffer ∧ buffer.currentMm = some 1 ∧
      ¬HandleFaithful (fun _ => 0) final := by
  have outcome : (runs (importStep [1, 2, 4]) importStart sharedImports).map (fun final =>
      (final.last, (rgaMmLookupHandle final.mm 1).map RgaInternalBuffer.currentMm)) =
      some (some ⟨sharedAddress, some 2, 1⟩, some (some 1)) := by decide +kernel
  obtain ⟨final, execution, observed⟩ := Option.map_eq_some_iff.mp outcome
  obtain ⟨last, found⟩ := Prod.mk.inj observed
  obtain ⟨buffer, listed, owner⟩ := Option.map_eq_some_iff.mp found
  refine ⟨final, buffer, execution, last, listed, owner, fun faithful => ?_⟩
  obtain ⟨other, sameHandle, denotes⟩ := faithful _ last (by decide)
  obtain rfl : buffer = other := Option.some.inj (listed.symm.trans sameHandle)
  have sameMm := denotes.sameMm rfl
  rw [owner] at sameMm
  exact absurd sameMm (by decide)

end Rga
end RockchipSoc
