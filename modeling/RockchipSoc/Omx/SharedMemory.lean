import Mathlib.Algebra.Group.Int.Defs
import RockchipSoc.Foundation.LabelledRun
import RockchipSoc.Foundation.Ledger

/-!
# Shared memory of the OMX components

A client allocates buffers of an ION or DRM device, or maps buffers that it has a handle of; both
are kept in one list, which is searched by address or by handle.  The results of the system calls
are arguments, and the kernel counts how often each handle was given out and freed, by device.
-/

namespace RockchipSoc
namespace Omx

open Ledger

/-- `SECURE_MEMORY_TYPE`: the device, and the family of its calls. -/
inductive SecureMemoryType
  | ion | drm
  deriving DecidableEq, Repr

/-- A handle of the kernel; each family has its own. -/
structure KernelHandle where
  family : SecureMemoryType
  handle : ℕ
  deriving DecidableEq, Repr

/-- `MEMORY_TYPE`. -/
inductive MemoryType
  | normal | secure | system
  deriving DecidableEq, Repr

/-- `NULL`, `MAP_FAILED`, or the address of a mapping. -/
inductive MapAddr
  | null | failed
  | mapped (addr : ℕ)
  deriving DecidableEq, Repr

/-- `ROCKCHIP_SHAREDMEM_LIST`; the elements are numbered in the order of their allocation. -/
structure SharedMemElement where
  id : ℕ
  ionHdl : ℕ
  mapAddr : MapAddr
  allocSize : ℕ
  owner : Bool
  deriving DecidableEq, Repr

/-- A buffer that a client holds: its address, its handle, and whether it was allocated. -/
structure ClientBuffer where
  addr : MapAddr
  handle : ℕ
  allocated : Bool
  deriving DecidableEq, Repr

/-- `ROCKCHIP_SHARED_MEMORY` with the two globals; how many elements were allocated and how often
each was freed; how often each handle was given out by the kernel, and freed; what the last call
returned, and the buffers that the client holds. -/
structure SharedMemory where
  memType : SecureMemoryType
  memCnt : ℤ
  pAllocMemory : List SharedMemElement
  elements : ℕ
  elementFreed : ℕ → ℕ
  granted : KernelHandle → ℕ
  freed : KernelHandle → ℕ
  returned : MapAddr
  live : List ClientBuffer

/-- The result of `ION_IOC_ALLOC` or `DRM_IOCTL_MODE_CREATE_DUMB`. -/
structure AllocResult where
  ret : ℤ
  handle : ℕ

/-- The results on the way to a mapping: of `ION_IOC_MAP` or `DRM_IOCTL_PRIME_HANDLE_TO_FD`, of
`DRM_IOCTL_MODE_MAP_DUMB`, and of `mmap`. -/
structure MapResult where
  ret : ℤ
  fd : ℤ
  dumbRet : ℤ
  offset : ℕ
  addr : Option ℕ

variable (shm : SharedMemory)

/-! ### The system calls -/

def ionAlloc (result : AllocResult) : SharedMemory × ℤ :=
  if result.ret < 0 then (shm, result.ret)
  else ({ shm with granted := bump shm.granted ⟨.ion, result.handle⟩ }, result.ret)

def drmAlloc (result : AllocResult) : SharedMemory × ℤ :=
  if result.ret < 0 then (shm, result.ret)
  else ({ shm with granted := bump shm.granted ⟨.drm, result.handle⟩ }, result.ret)

/-- The allocation of secure memory. -/
def deviceAlloc (result : AllocResult) : SharedMemory × ℤ :=
  match shm.memType with
  | .drm => drmAlloc shm result
  | .ion => ionAlloc shm result

/-- `ion_free` or `drm_free`. -/
def kernelFree (family : SecureMemoryType) (handle : ℕ) : SharedMemory :=
  { shm with freed := bump shm.freed ⟨family, handle⟩ }

/-- The address after a call of `mmap`. -/
def mmapAddr (addr : Option ℕ) : MapAddr :=
  match addr with
  | some addr => .mapped addr
  | none => .failed

/-- The result, and `*ptr`; for `-errno`, any negative number does. -/
def ionMap (result : MapResult) : ℤ × MapAddr :=
  if result.ret < 0 then (result.ret, .null)
  else if result.fd < 0 then (-22, .null)
  else if mmapAddr result.addr = .failed then (-1, .failed)
  else (result.ret, mmapAddr result.addr)

/-- `*ptr`; an offset within a page is refused before `mmap`. -/
def drmMap (result : MapResult) : MapAddr :=
  if result.ret < 0 ∨ result.fd < 0 then .null
  else if result.dumbRet < 0 then .null
  else if result.offset % 4096 ≠ 0 then .null
  else mmapAddr result.addr

/-- The address that `Rockchip_OSAL_SharedMemory_Map` goes by. -/
def deviceMap (result : MapResult) : MapAddr :=
  match shm.memType with
  | .ion => (ionMap result).2
  | .drm => drmMap result

/-! ### The list -/

/-- `malloc` of an element. -/
def newElement : SharedMemory := { shm with elements := shm.elements + 1 }

def freeElement (id : ℕ) : SharedMemory :=
  { shm with elementFreed := bump shm.elementFreed id }

def appendElement (element : SharedMemElement) : SharedMemory :=
  { shm with pAllocMemory := shm.pAllocMemory ++ [element], memCnt := shm.memCnt + 1 }

/-- The first element that the search stops at, and the list without it. -/
def unlinkFirst {α : Type*} (stops : α → Bool) : List α → Option (α × List α)
  | [] => none
  | first :: rest =>
      if stops first then some (first, rest)
      else (unlinkFirst stops rest).map fun found => (found.1, first :: found.2)

/-- `Rockchip_OSAL_SharedMemory_Alloc`, up to its result.  In this build the secure branch leaves
`pBuffer` and `mapAddr` as they are. -/
def sharedMemoryAlloc (size : ℕ) (memoryType : MemoryType) (alloc : AllocResult)
    (map : MapResult) : SharedMemory :=
  match memoryType with
  | .secure =>
      let (made, err) := deviceAlloc (newElement shm) alloc
      if err ≠ 0 then { made with returned := .null }
      else
        { appendElement made ⟨shm.elements, alloc.handle, .null, size, true⟩ with
          returned := .null }
  | .system =>
      let (made, err) := ionAlloc (newElement shm) alloc
      if err < 0 then { freeElement made shm.elements with returned := .null }
      else
        let (err, pBuffer) := ionMap map
        if err ≠ 0 then
          { freeElement (kernelFree made .ion alloc.handle) shm.elements with returned := .null }
        else
          { appendElement made ⟨shm.elements, alloc.handle, pBuffer, size, true⟩ with
            returned := pBuffer }
  | .normal => { newElement shm with returned := .null }

/-- `Rockchip_OSAL_SharedMemory_Map`; the handle is stored as an unsigned integer. -/
def sharedMemoryMap (size : ℕ) (ionHdl : ℤ) (map : MapResult) : SharedMemory :=
  let made := newElement shm
  if ionHdl = -1 then { freeElement made shm.elements with returned := .null }
  else
    let handle := (ionHdl % 2 ^ 32).toNat
    let pBuffer := deviceMap shm map
    if pBuffer = .null then
      { freeElement (kernelFree made shm.memType handle) shm.elements with returned := .null }
    else
      { appendElement made ⟨shm.elements, handle, pBuffer, size, false⟩ with returned := pBuffer }

/-- `Rockchip_OSAL_SharedMemory_Free`; the family is chosen by the number of buffers. -/
def sharedMemoryFree (pBuffer : MapAddr) (munmapOk : Bool) : SharedMemory :=
  match unlinkFirst (fun element => element.mapAddr = pBuffer) shm.pAllocMemory with
  | none => shm
  | some (element, rest) =>
      let unlinked := { shm with pAllocMemory := rest }
      if ¬munmapOk then unlinked
      else
        let unlinked :=
          if element.owner then
            kernelFree unlinked (if shm.memCnt = 0 then .ion else .drm) element.ionHdl
          else unlinked
        { freeElement unlinked element.id with memCnt := shm.memCnt - 1 }

/-- `Rockchip_OSAL_SharedMemory_Unmap`. -/
def sharedMemoryUnmap (ionfd : ℤ) (munmapOk : Bool) : SharedMemory :=
  match unlinkFirst (fun element => element.ionHdl = (ionfd % 2 ^ 32).toNat) shm.pAllocMemory with
  | none => shm
  | some (element, rest) =>
      let unlinked := { shm with pAllocMemory := rest }
      if ¬munmapOk then unlinked
      else { freeElement unlinked element.id with memCnt := shm.memCnt - 1 }

/-- The body of the loop of `Rockchip_OSAL_SharedMemory_Close`. -/
def closeElement (shm : SharedMemory) (element : SharedMemElement) : SharedMemory :=
  let shm := if element.owner then kernelFree shm shm.memType element.ionHdl else shm
  { freeElement shm element.id with memCnt := shm.memCnt - 1 }

/-- `Rockchip_OSAL_SharedMemory_Close`; the result of `munmap` is only logged. -/
def sharedMemoryClose : SharedMemory :=
  { shm.pAllocMemory.foldl closeElement shm with pAllocMemory := [], live := [] }

/-! ### Calls of the client -/

inductive ShmOp
  | alloc (size : ℕ) (memoryType : MemoryType) (alloc : AllocResult) (map : MapResult)
  | map (size : ℕ) (ionHdl : ℤ) (map : MapResult)
  | free (pBuffer : MapAddr) (munmapOk : Bool)
  | unmap (ionfd : ℤ) (munmapOk : Bool)

/-- The client holds a buffer when it was returned the address of a mapping. -/
def receive (handle : ℕ) (allocated : Bool) : SharedMemory :=
  match shm.returned with
  | .mapped addr => { shm with live := shm.live ++ [⟨.mapped addr, handle, allocated⟩] }
  | _ => shm

/-- The client gives up the first buffer it means. -/
def giveUp (means : ClientBuffer → Bool) : SharedMemory :=
  match unlinkFirst means shm.live with
  | some (_, rest) => { shm with live := rest }
  | none => shm

def shmStep (shm : SharedMemory) : ShmOp → SharedMemory
  | .alloc size memoryType alloc map =>
      receive (sharedMemoryAlloc shm size memoryType alloc map) alloc.handle true
  | .map size ionHdl map =>
      receive (sharedMemoryMap shm size ionHdl map) (ionHdl % 2 ^ 32).toNat false
  | .free pBuffer munmapOk =>
      giveUp (sharedMemoryFree shm pBuffer munmapOk) fun buffer => buffer.addr = pBuffer
  | .unmap ionfd munmapOk =>
      giveUp (sharedMemoryUnmap shm ionfd munmapOk) fun buffer =>
        buffer.handle = (ionfd % 2 ^ 32).toNat

/-- An opened device, when `memCnt` buffers of other clients are alive. -/
def sharedMemoryOpen (memType : SecureMemoryType) (memCnt : ℤ) : SharedMemory where
  memType := memType
  memCnt := memCnt
  pAllocMemory := []
  elements := 0
  elementFreed := fun _ => 0
  granted := fun _ => 0
  freed := fun _ => 0
  returned := .null
  live := []

/-- What the client holds of an element. -/
def SharedMemElement.view (element : SharedMemElement) : ClientBuffer :=
  ⟨element.mapAddr, element.ionHdl, element.owner⟩

/-- No handle was freed more often than it was given out by its family, and no element twice; if
the client closes the device now, each was freed once; the list holds what the client holds, and so
many buffers are counted. -/
structure FreesWhatItAllocated (others : ℤ) : Prop where
  handle_once : ∀ handle, shm.freed handle ≤ shm.granted handle
  handle_freed : ∀ handle, (sharedMemoryClose shm).freed handle = shm.granted handle
  element_once : ∀ id, shm.elementFreed id ≤ 1
  element_freed : ∀ id,
    (sharedMemoryClose shm).elementFreed id = if id < shm.elements then 1 else 0
  listed : shm.pAllocMemory.map SharedMemElement.view = shm.live
  counted : shm.memCnt = others + shm.live.length

/-- The condition on a call.  Only system memory is allocated, and on a DRM device that fails; a
handle is mapped; what is freed or unmapped can be unmapped from the process; what is freed by its
address was mapped only, unless no buffer is counted exactly on an ION device; and what is unmapped
was mapped only. -/
def ShmOk (shm : SharedMemory) : ShmOp → Prop
  | .alloc _ memoryType alloc map =>
      memoryType = .system ∧ (shm.memType = .ion ∨ alloc.ret < 0 ∨ (ionMap map).1 ≠ 0)
  | .map _ ionHdl map => ionHdl = -1 ∨ ∃ addr, deviceMap shm map = .mapped addr
  | .free pBuffer munmapOk =>
      ∀ found ∈ unlinkFirst (fun element => element.mapAddr = pBuffer) shm.pAllocMemory,
        munmapOk = true ∧ (found.1.owner = true → (shm.memCnt = 0 ↔ shm.memType = .ion))
  | .unmap ionfd munmapOk =>
      ∀ found ∈ unlinkFirst (fun element => element.ionHdl = (ionfd % 2 ^ 32).toNat)
          shm.pAllocMemory,
        munmapOk = true ∧ found.1.owner = false

end Omx
end RockchipSoc
