import Mathlib.Data.Finset.Range
import Mathlib.Data.Nat.Bitwise
import Mathlib.Logic.Function.Basic
import RockchipSoc.Foundation.LabelledRun
import RockchipSoc.Omx.ComponentState

/-!
# The buffer table of an OMX port

A client gives a port its own buffers, or lets the port allocate them, and takes them back by their
headers; the port posts a semaphore when it has all its buffers, and another one when it has none
left.  What `malloc` and the shared memory answer are arguments.  Ports are never tunneled, since
tunnel requests are refused.
-/

namespace RockchipSoc
namespace Omx

/-- `MAX_BUFFER_NUM`. -/
def maxBufferNum : ℕ := 40

def bufferStateAllocated : ℕ := 1

def bufferStateAssigned : ℕ := 2

def headerStateAllocated : ℕ := 4

def bufferStateFree : ℕ := 0

/-- An element of `bufferStateAllocate` and of `extendBufferHeader`. -/
structure BufferSlot where
  state : ℕ
  header : Option ℕ
  deriving DecidableEq, Repr

/-- The blocks that a port has of the heap and of the shared memory: how often each address was
allocated and not given back. -/
structure PortMemory where
  headers : ℕ → ℤ
  buffers : ℕ → ℤ
  shared : ℕ → ℤ

/-- `ROCKCHIP_OMX_BASEPORT`; `pBuffer` is the member of the header at an address, and the two
semaphores are counted by their posts. -/
@[ext] structure PortBuffers where
  nBufferCountActual : ℕ
  bDRMPlayerMode : Bool
  slots : ℕ → BufferSlot
  pBuffer : ℕ → ℕ
  assignedBufferNum : ℤ
  bPopulated : Bool
  loadedResource : ℕ
  unloadedResource : ℕ
  memory : PortMemory

variable (port : PortBuffers)

/-! ### Memory -/

/-- A block that is in use is not allocated again. -/
def mallocHeader (answer : Option ℕ) : Option ℕ :=
  answer.filter fun header => port.memory.headers header = 0

def addHeader (header : ℕ) (change : ℤ) : PortBuffers :=
  { port with memory := { port.memory with
    headers := Function.update port.memory.headers header
      (port.memory.headers header + change) } }

def addBuffer (buffer : ℕ) (change : ℤ) : PortBuffers :=
  { port with memory := { port.memory with
    buffers := Function.update port.memory.buffers buffer
      (port.memory.buffers buffer + change) } }

def addShared (buffer : ℕ) (change : ℤ) : PortBuffers :=
  { port with memory := { port.memory with
    shared := Function.update port.memory.shared buffer (port.memory.shared buffer + change) } }

/-! ### The calls -/

/-- The first free slot of those the port uses. -/
def freeSlot : Option ℕ :=
  (List.range port.nBufferCountActual).find? fun i => (port.slots i).state == bufferStateFree

/-- The body of the loops of `UseBuffer` and `AllocateBuffer`. -/
def assignSlot (i header pBuffer state : ℕ) : PortBuffers :=
  let assigned := port.assignedBufferNum + 1
  let full := assigned = port.nBufferCountActual
  { port with
    slots := Function.update port.slots i ⟨state, some header⟩
    pBuffer := Function.update port.pBuffer header pBuffer
    assignedBufferNum := assigned
    bPopulated := full || port.bPopulated
    loadedResource := port.loadedResource + if full then 1 else 0 }

/-- What a call returns, and what it writes to `*ppBufferHdr`. -/
structure PortAnswer where
  ret : OmxError
  header : Option ℕ
  deriving DecidableEq, Repr

/-- `Rkvpu_OMX_UseBuffer`. -/
def rkvpuUseBuffer (portState : OmxState) (header : Option ℕ) (pBuffer : ℕ) :
    PortBuffers × PortAnswer :=
  if portState ≠ .idle then (port, ⟨.incorrectStateOperation, none⟩)
  else
    match mallocHeader port header with
    | none => (port, ⟨.insufficientResources, none⟩)
    | some header =>
        let made := addHeader port header 1
        match freeSlot made with
        | some i =>
            (assignSlot made i header pBuffer (bufferStateAssigned ||| headerStateAllocated),
              ⟨.errorNone, some header⟩)
        | none => (addHeader made header (-1), ⟨.insufficientResources, none⟩)

/-- The memory of a buffer: shared memory for a player of protected content, which decides on the
type of the memory, and else the heap. -/
def allocateMemory (buffer : Option ℕ) : PortBuffers × Option ℕ :=
  match buffer with
  | none => (port, none)
  | some buffer =>
      (if port.bDRMPlayerMode then addShared port buffer 1 else addBuffer port buffer 1,
        some buffer)

/-- `Rkvpu_OMX_AllocateBuffer`; behind the allocation, buffers are given back to the heap. -/
def rkvpuAllocateBuffer (buffer header : Option ℕ) : PortBuffers × PortAnswer :=
  match allocateMemory port buffer with
  | (port, none) => (port, ⟨.insufficientResources, none⟩)
  | (port, some buffer) =>
      match mallocHeader port header with
      | none => (addBuffer port buffer (-1), ⟨.insufficientResources, none⟩)
      | some header =>
          let made := addHeader port header 1
          match freeSlot made with
          | some i =>
              (assignSlot made i header buffer (bufferStateAllocated ||| headerStateAllocated),
                ⟨.errorNone, some header⟩)
          | none =>
              (addBuffer (addHeader made header (-1)) buffer (-1),
                ⟨.insufficientResources, none⟩)

/-- The header of a slot that the search of `FreeBuffer` looks at. -/
def searchedHeader (i : ℕ) : Option ℕ :=
  if (port.slots i).state ||| bufferStateFree ≠ 0 then (port.slots i).header else none

/-- Where the search of `FreeBuffer` for a buffer stops. -/
def bufferSlot (pBuffer : ℕ) : Option ℕ :=
  (List.range maxBufferNum).find? fun i =>
    (searchedHeader port i).any fun found => port.pBuffer found == pBuffer

/-- The body of the loop of `FreeBuffer`, where a slot is found: its buffer, when the port has
allocated it. -/
def releaseBuffer (found header : ℕ) : PortBuffers :=
  let freed := if port.bDRMPlayerMode then port else addBuffer port (port.pBuffer found) (-1)
  { freed with pBuffer := Function.update (Function.update port.pBuffer found 0) header 0 }

/-- Its header. -/
def releaseHeader (i found : ℕ) : PortBuffers :=
  { addHeader port found (-1) with
    slots := Function.update port.slots i { port.slots i with header := none } }

def releaseSlot (i found header : ℕ) : PortBuffers :=
  let state := (port.slots i).state
  let freed := if state &&& bufferStateAllocated ≠ 0 then releaseBuffer port found header else port
  let counted := { freed with assignedBufferNum := port.assignedBufferNum - 1 }
  let unlinked := if state &&& headerStateAllocated ≠ 0 then releaseHeader counted i found
    else counted
  { unlinked with
    slots := Function.update unlinked.slots i
      { unlinked.slots i with state := bufferStateFree } }

/-- Behind `EXIT` of `FreeBuffer`. -/
def postUnloaded : PortBuffers :=
  if port.assignedBufferNum = 0 then
    { port with unloadedResource := port.unloadedResource + 1, bPopulated := false }
  else port

/-- The header is in the table. -/
def registered (header : ℕ) : Bool :=
  (List.range maxBufferNum).any fun i => (port.slots i).header == some header

/-- What the member `pBuffer` of a header that is not in the table is, is for others to say. -/
def foreignHeader (header pBuffer : ℕ) : PortBuffers :=
  if registered port header then port
  else { port with pBuffer := Function.update port.pBuffer header pBuffer }

/-- `Rkvpu_OMX_FreeBuffer`; in other states than Loaded and Invalid it reports an unpopulated port
to the client, and goes on. -/
def rkvpuFreeBuffer (header : ℕ) : PortBuffers × PortAnswer :=
  let freed :=
    match bufferSlot port (port.pBuffer header) with
    | some i =>
        match (port.slots i).header with
        | some found => releaseSlot port i found header
        | none => port
    | none => port
  (postUnloaded freed, ⟨.errorNone, none⟩)

/-! ### Sequences of calls -/

inductive PortOp
  | useBuffer (portState : OmxState) (header : Option ℕ) (pBuffer : ℕ)
  | allocateBuffer (buffer header : Option ℕ)
  | freeBuffer (header pBuffer : ℕ)
  deriving DecidableEq, Repr

def portCall : PortOp → PortBuffers × PortAnswer
  | .useBuffer portState header pBuffer => rkvpuUseBuffer port portState header pBuffer
  | .allocateBuffer buffer header => rkvpuAllocateBuffer port buffer header
  | .freeBuffer header pBuffer => rkvpuFreeBuffer (foreignHeader port header pBuffer) header

def portBuffersStep (port : PortBuffers) (op : PortOp) : Option PortBuffers :=
  some (portCall port op).1

/-- A port without buffers. -/
def emptyPort (nBufferCountActual : ℕ) (bDRMPlayerMode : Bool) (pBuffer : ℕ → ℕ) : PortBuffers where
  nBufferCountActual := nBufferCountActual
  bDRMPlayerMode := bDRMPlayerMode
  slots := fun _ => ⟨bufferStateFree, none⟩
  pBuffer := pBuffer
  assignedBufferNum := 0
  bPopulated := false
  loadedResource := 0
  unloadedResource := 0
  memory := ⟨fun _ => 0, fun _ => 0, fun _ => 0⟩

end Omx
end RockchipSoc
