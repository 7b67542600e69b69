import RockchipSoc.Foundation.Tables
import RockchipSoc.Rga.BufferSize

/-!
# The table of imported buffers

One global `rga_mm` maps handles to internal buffers.  An import first looks for a buffer of the
same external memory, else maps the memory for every scheduler and enters a new buffer under the
lowest free handle.  What the kernel answers during one import is collected in `ImportEnv`.
-/

namespace RockchipSoc
namespace Rga

/-- `external_buffer->type`. -/
inductive MemoryType
  | dmaBuffer
  | virtualAddress
  | physicalAddress
  | illegal (code : Nat)
  deriving DecidableEq, Repr

def rga3SchedulerCore0 : Nat := 1
def rga3SchedulerCore1 : Nat := 2
def rga2SchedulerCore0 : Nat := 4

def isRga3 (core : Nat) : Bool := core == rga3SchedulerCore0 || core == rga3SchedulerCore1

def enomem : Int := 12
def efault : Int := 14
def einval : Int := 22
def enoent : Int := 2

structure RgaMemoryParm where
  width : Nat
  height : Nat
  format : Nat
  deriving DecidableEq, Repr

def RgaMemoryParm.bytes (parm : RgaMemoryParm) : Nat :=
  requestedBytes parm.format parm.width parm.height

structure RgaExternalBuffer where
  memory : Nat
  type : MemoryType
  memoryParm : RgaMemoryParm
  deriving DecidableEq, Repr

/-- One entry of `dma_buffer`, zeroed until its scheduler is mapped. -/
structure RgaDmaBuffer where
  dmaBuf : Option Nat := none
  sgt : Bool := false
  iova : Nat := 0
  size : Nat := 0
  core : Nat := 0
  deriving DecidableEq, Repr

structure RgaVirtAddr where
  addr : Nat
  pagesOrder : Nat
  pageCount : Nat
  size : Nat
  result : Nat
  deriving DecidableEq, Repr

/-- A buffer as it stands in memory at the address `ptr`. -/
structure RgaInternalBuffer where
  ptr : Nat
  dmaBuffer : List RgaDmaBuffer := []
  virtAddr : Option RgaVirtAddr := none
  physAddr : Nat := 0
  memoryParm : RgaMemoryParm
  currentMm : Option Nat := none
  type : MemoryType
  handle : Nat := 0
  under4G : Bool := false
  needUseIommu : Bool := false
  refcount : Nat := 1
  deriving DecidableEq, Repr

/-- `memory_idr` in ascending order of its ids, and the next address of the allocator. -/
structure RgaMm where
  memoryIdr : List RgaInternalBuffer
  nextPtr : Nat
  deriving DecidableEq, Repr

def rgaMmInit : RgaMm := ⟨[], 0⟩

/-! ## Lookups -/

def rgaMmLookupHandle (mm : RgaMm) (handle : Nat) : Option RgaInternalBuffer :=
  mm.memoryIdr.find? fun buffer => buffer.handle == handle

/-- The match that `rga_mm_lookup_external` makes for each type; `dmaBuf` is the object behind the
file descriptor, if `dma_buf_get` finds one. -/
def sameExternal (external : RgaExternalBuffer) (dmaBuf : Option Nat)
    (buffer : RgaInternalBuffer) : Bool :=
  match external.type with
  | .dmaBuffer => dmaBuf.isSome && (buffer.dmaBuffer.head?.bind RgaDmaBuffer.dmaBuf) == dmaBuf
  | .virtualAddress => (buffer.virtAddr.map RgaVirtAddr.addr) == some external.memory
  | .physicalAddress => buffer.physAddr == external.memory
  | .illegal _ => false

def rgaMmLookupExternal (mm : RgaMm) (external : RgaExternalBuffer) (dmaBuf : Option Nat) :
    Option RgaInternalBuffer :=
  mm.memoryIdr.find? (sameExternal external dmaBuf)

def rgaMmLookupIova (buffer : RgaInternalBuffer) (core : Nat) : Nat :=
  ((buffer.dmaBuffer.find? fun entry => entry.core == core).map RgaDmaBuffer.iova).getD 0

def rgaMmLookupSgt (buffer : RgaInternalBuffer) (core : Nat) : Bool :=
  ((buffer.dmaBuffer.find? fun entry => entry.core == core).map RgaDmaBuffer.sgt).getD false

/-! ## References -/

def krefGet (mm : RgaMm) (ptr : Nat) : RgaMm :=
  { mm with memoryIdr := mm.memoryIdr.map fun buffer =>
      if buffer.ptr = ptr then { buffer with refcount := buffer.refcount + 1 } else buffer }

/-- The last reference unmaps the buffer and removes it from the table
(`rga_mm_kref_release_buffer`). -/
def krefPut (mm : RgaMm) (ptr : Nat) : RgaMm :=
  { mm with memoryIdr := mm.memoryIdr.filterMap fun buffer =>
      if buffer.ptr = ptr then
        if buffer.refcount ≤ 1 then none
        else some { buffer with refcount := buffer.refcount - 1 }
      else some buffer }

/-! ## Mapping -/

/-- What the kernel answers during one import.  A file descriptor stands for one object during
the call; functions take the index of a scheduler. -/
structure ImportEnv where
  currentMm : Option Nat
  dmaBuf : Option Nat
  kzallocBuffer : Bool
  kcallocDmaBuffer : Bool
  /-- The `iova` and length of a successful `rga_dma_map_fd`. -/
  dmaMapFd : Nat → Option (Nat × Nat)
  /-- What `format` holds before `user_format_convert`. -/
  stackFormat : Option Rga2Format
  getFreePages : Nat → Bool
  getUserPages : Int
  kzallocVirtAddr : Bool
  allocSgt : Nat → Bool
  /-- `rga_mm_check_range_sgt` on the first entry. -/
  checkRangeSgt : Bool
  /-- The `iova` (zero when there is none) and the size that `iommu_map_sg_atomic` maps. -/
  iommuMap : Nat → Nat × Nat
  dmaMapSg : Nat → Nat
  idrAlloc : Bool

/-- RGA2 is left out for memory beyond 4G. -/
def skipsRga2 (core : Nat) (under4G : Bool) : Bool := core == rga2SchedulerCore0 && !under4G

/-- The loop of `rga_mm_map_dma_buffer` from scheduler `i` on. -/
def mapDmaEntries (env : ImportEnv) (object : Nat) (i : Nat) (under4G : Bool) :
    List Nat → Option (List RgaDmaBuffer × Bool)
  | [] => some ([], under4G)
  | core :: cores =>
      if skipsRga2 core under4G then
        (mapDmaEntries env object (i + 1) under4G cores).map fun rest => ({} :: rest.1, rest.2)
      else
        (env.dmaMapFd i).bind fun mapped =>
          (mapDmaEntries env object (i + 1) (if i = 0 then env.checkRangeSgt else under4G)
            cores).map fun rest =>
            ({ dmaBuf := some object, sgt := true, iova := mapped.1, size := mapped.2,
               core := core } :: rest.1, rest.2)

def rgaMmMapDmaBuffer (cores : List Nat) (env : ImportEnv) (buffer : RgaInternalBuffer) :
    Except Int RgaInternalBuffer :=
  if !env.kcallocDmaBuffer then .error (-enomem)
  else
    match env.dmaBuf.bind fun object => mapDmaEntries env object 0 false cores with
    | none => .error (-einval)
    | some entries => .ok { buffer with dmaBuffer := entries.1, under4G := entries.2 }

/-- `get_order`, with its value for a size of zero. -/
def getOrder (size : Nat) : Nat :=
  if size = 0 then 52
  else if (size - 1) / 4096 = 0 then 0 else Nat.log2 ((size - 1) / 4096) + 1

def rgaAllocVirtAddr (env : ImportEnv) (viraddr : Nat) (parm : RgaMemoryParm) :
    Except Int RgaVirtAddr :=
  let format := userFormatConvert env.stackFormat parm.format
  let cal := virtualPages viraddr format parm.width parm.height
  let order := getOrder (cal.size / 4096 * 8)
  if !env.getFreePages order then .error (-enomem)
  else if env.getUserPages < 0 then .error (-einval)
  else if !env.kzallocVirtAddr then .error (-enomem)
  else .ok { addr := viraddr, pagesOrder := order, pageCount := cal.pageCount, size := cal.size,
             result := env.getUserPages.toNat }

/-- The first loop of `rga_mm_map_virt_addr`: an sg table for each scheduler. -/
def allocSgtEntries (env : ImportEnv) (virt : RgaVirtAddr) (i : Nat) (under4G : Bool) :
    List Nat → Option (List RgaDmaBuffer × Bool)
  | [] => some ([], under4G)
  | core :: cores =>
      if skipsRga2 core under4G && i != 0 then
        (allocSgtEntries env virt (i + 1) under4G cores).map fun rest => ({} :: rest.1, rest.2)
      else if !env.allocSgt i then none
      else
        (allocSgtEntries env virt (i + 1) (if i = 0 then env.checkRangeSgt else under4G)
          cores).map fun rest => ({ sgt := true, size := virt.size } :: rest.1, rest.2)

/-- `iova_align` with pages of 4 KiB. -/
def iovaAlign (size : Nat) : Nat := (size + 4095) / 4096 * 4096

def rgaIommuMapVirtAddr (env : ImportEnv) (i : Nat) (entry : RgaDmaBuffer) :
    Except Int RgaDmaBuffer :=
  if !entry.sgt then .error (-efault)
  else if (env.iommuMap i).1 = 0 then .error (-enomem)
  else if (env.iommuMap i).2 < iovaAlign entry.size then .error (-einval)
  else .ok { entry with iova := (env.iommuMap i).1, size := iovaAlign entry.size }

/-- The second loop of `rga_mm_map_virt_addr`.  A failing `dma_map_sg` returns zero, and zero is
what the error path then returns. -/
def mapVirtEntries (env : ImportEnv) (under4G : Bool) (i : Nat) :
    List Nat → List RgaDmaBuffer → Except Int (List RgaDmaBuffer)
  | core :: cores, entry :: entries =>
      if skipsRga2 core under4G then
        (mapVirtEntries env under4G (i + 1) cores entries).map (entry :: ·)
      else if isRga3 core then
        (rgaIommuMapVirtAddr env i entry).bind fun mapped =>
          (mapVirtEntries env under4G (i + 1) cores entries).map ({ mapped with core := core } :: ·)
      else if env.dmaMapSg i = 0 then .error 0
      else (mapVirtEntries env under4G (i + 1) cores entries).map ({ entry with core := core } :: ·)
  | _, _ => .ok []

/-- The error path frees the arrays and drops the address space. -/
def rgaMmMapVirtAddr (cores : List Nat) (env : ImportEnv) (external : RgaExternalBuffer)
    (buffer : RgaInternalBuffer) : Except Int RgaInternalBuffer :=
  if env.currentMm = none then .error (-efault)
  else
    match rgaAllocVirtAddr env external.memory buffer.memoryParm with
    | .error ret => .error ret
    | .ok virt =>
        if !env.kcallocDmaBuffer then .error (-enomem)
        else
          match allocSgtEntries env virt 0 false cores with
          | none => .error (-enomem)
          | some (entries, under4G) =>
              match mapVirtEntries env under4G 0 cores entries with
              | .ok mapped =>
                  .ok { buffer with dmaBuffer := mapped, virtAddr := some virt,
                                    currentMm := env.currentMm, under4G := under4G }
              | .error ret => if ret < 0 then .error ret else .ok { buffer with under4G := under4G }

/-- The zeroed buffer with the fields that `rga_mm_map_buffer` sets first. -/
def freshBuffer (external : RgaExternalBuffer) (ptr : Nat) : RgaInternalBuffer :=
  { ptr := ptr, memoryParm := external.memoryParm, type := external.type }

def rgaMmMapBuffer (cores : List Nat) (env : ImportEnv) (external : RgaExternalBuffer)
    (ptr : Nat) : Except Int RgaInternalBuffer :=
  let fresh := freshBuffer external ptr
  match external.type with
  | .dmaBuffer => (rgaMmMapDmaBuffer cores env fresh).map ({ · with needUseIommu := true })
  | .virtualAddress =>
      (rgaMmMapVirtAddr cores env external fresh).map ({ · with needUseIommu := true })
  | .physicalAddress => .ok { fresh with physAddr := external.memory }
  | .illegal _ => .error (-efault)

/-! ## Import and release -/

/-- A failing `idr_alloc` leaves the buffer outside the table and its error as the handle. -/
def rgaMmImportBuffer (cores : List Nat) (env : ImportEnv) (mm : RgaMm)
    (external : RgaExternalBuffer) : Int × RgaMm :=
  match rgaMmLookupExternal mm external env.dmaBuf with
  | some buffer => (buffer.handle, krefGet mm buffer.ptr)
  | none =>
      if !env.kzallocBuffer then (-enomem, mm)
      else
        match rgaMmMapBuffer cores env external mm.nextPtr with
        | .error ret => (ret, mm)
        | .ok buffer =>
            if !env.idrAlloc then (-enomem, { mm with nextPtr := mm.nextPtr + 1 })
            else
              let handle := IdTable.lowestFree RgaInternalBuffer.handle 1 mm.memoryIdr
              (handle, { memoryIdr := IdTable.insert RgaInternalBuffer.handle
                           { buffer with handle := handle } mm.memoryIdr,
                         nextPtr := mm.nextPtr + 1 })

def rgaMmReleaseBuffer (mm : RgaMm) (handle : Nat) : Int × RgaMm :=
  match rgaMmLookupHandle mm handle with
  | none => (-enoent, mm)
  | some buffer => (0, krefPut mm buffer.ptr)

end Rga
end RockchipSoc
