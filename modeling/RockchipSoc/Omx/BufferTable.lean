import Mathlib.Data.Finset.Card
import RockchipSoc.Omx.PortBuffers

/-!
# What the buffer table of an OMX port promises

Buffers are given and taken back by their headers, and the posts of the semaphores follow the number
of taken slots.  A call does what it should exactly when it meets a condition: memory that was
allocated for protected content finds its slot, and a header that is taken back is in the table, no
slot before its own has its buffer, and its buffer is not from the shared memory.
-/

namespace RockchipSoc
namespace Omx

open LabelledRun

variable {port next : PortBuffers} {i j header : ℕ}

/-! ### The promise -/

def takenSlots (slots : ℕ → BufferSlot) : Finset ℕ :=
  (Finset.range maxBufferNum).filter fun i => !((slots i).state == bufferStateFree)

/-- The count is the number of taken slots; each semaphore is posted once when the count comes to
its value, and not otherwise. -/
structure KeepsCount (port next : PortBuffers) : Prop where
  counted : next.assignedBufferNum = (takenSlots next.slots).card
  loaded : next.loadedResource = port.loadedResource +
    if port.assignedBufferNum < next.assignedBufferNum ∧
      next.assignedBufferNum = next.nBufferCountActual then 1 else 0
  unloaded : next.unloadedResource = port.unloadedResource +
    if next.assignedBufferNum < port.assignedBufferNum ∧ next.assignedBufferNum = 0 then 1 else 0

/-- `UseBuffer` and `AllocateBuffer`: a failing call changes nothing, and another one puts a new
header into a free slot. -/
def Gives (port next : PortBuffers) (answer : PortAnswer) : Prop :=
  if answer.ret = .errorNone then
    ∃ header i state, answer.header = some header ∧ (∀ j, (port.slots j).header ≠ some header) ∧
      (port.slots i).state = bufferStateFree ∧ state ≠ bufferStateFree ∧
      next.slots = Function.update port.slots i ⟨state, some header⟩
  else next = port

/-- The memory without a header and what the port has allocated for it. -/
def PortMemory.without (memory : PortMemory) (header : ℕ) (buffer shared : Option ℕ) :
    PortMemory where
  headers := Function.update memory.headers header (memory.headers header - 1)
  buffers := fun address =>
    memory.buffers address - if buffer = some address then 1 else 0
  shared := fun address =>
    memory.shared address - if shared = some address then 1 else 0

/-- The buffer of a slot, if the port has allocated it. -/
def ownBuffer (port : PortBuffers) (i header : ℕ) : Option ℕ :=
  if (port.slots i).state &&& bufferStateAllocated ≠ 0 then some (port.pBuffer header) else none

/-- `FreeBuffer`: the slot, the header and the memory of the header are released, and nothing of
another one; a header that is not in the table is refused. -/
def TakesBack (port next : PortBuffers) (header : ℕ) (answer : PortAnswer) : Prop :=
  (∀ i, (port.slots i).header = some header →
    answer.ret = .errorNone ∧
      next.slots = Function.update port.slots i ⟨bufferStateFree, none⟩ ∧
      next.memory = port.memory.without header
        (if port.bDRMPlayerMode then none else ownBuffer port i header)
        (if port.bDRMPlayerMode then ownBuffer port i header else none) ∧
      ∀ other, other ≠ header → next.pBuffer other = port.pBuffer other) ∧
    ((∀ i, (port.slots i).header ≠ some header) →
      answer.ret ≠ .errorNone ∧ next.slots = port.slots ∧ next.memory = port.memory)

/-- What a call does to the table, and to the semaphores. -/
def PortMeets (port : PortBuffers) (op : PortOp) : Prop :=
  let called := portCall port op
  KeepsCount port called.1 ∧
    match op with
    | .useBuffer _ _ _ => Gives port called.1 called.2
    | .allocateBuffer _ _ => Gives port called.1 called.2
    | .freeBuffer header _ => TakesBack port called.1 header called.2

/-- The condition on a call. -/
def PortOk (port : PortBuffers) : PortOp → Prop
  | .useBuffer _ _ _ => True
  | .allocateBuffer buffer header =>
      port.bDRMPlayerMode = true → buffer ≠ none →
        mallocHeader port header ≠ none ∧ freeSlot port ≠ none
  | .freeBuffer header _ =>
      ∃ i, (port.slots i).header = some header ∧
        (∀ j < i, ∀ other, (port.slots j).header = some other →
          port.pBuffer other ≠ port.pBuffer header) ∧
        (port.bDRMPlayerMode = true → (port.slots i).state &&& bufferStateAllocated = 0)

/-! ### The invariant -/

/-- A slot is free and without a header, or taken with one. -/
inductive SlotShape : BufferSlot → Prop
  | free : SlotShape ⟨bufferStateFree, none⟩
  | assigned (header : ℕ) :
      SlotShape ⟨bufferStateAssigned ||| headerStateAllocated, some header⟩
  | allocated (header : ℕ) :
      SlotShape ⟨bufferStateAllocated ||| headerStateAllocated, some header⟩

structure TableInv (port : PortBuffers) : Prop where
  count_le : port.nBufferCountActual ≤ maxBufferNum
  shape : ∀ i, SlotShape (port.slots i)
  below : ∀ {i header}, (port.slots i).header = some header → i < maxBufferNum
  once : ∀ {i j header}, (port.slots i).header = some header →
    (port.slots j).header = some header → i = j
  live : ∀ {i header}, (port.slots i).header = some header → port.memory.headers header = 1
  counted : port.assignedBufferNum = (takenSlots port.slots).card

theorem SlotShape.state_ne_iff {slot : BufferSlot} (shape : SlotShape slot) :
    slot.state ≠ bufferStateFree ↔ slot.header ≠ none := by
  cases shape with
  | free => decide
  | assigned header => exact iff_of_true (Nat.succ_ne_zero 5) (Option.some_ne_none _)
  | allocated header => exact iff_of_true (Nat.succ_ne_zero 4) (Option.some_ne_none _)

theorem mem_takenSlots {slots : ℕ → BufferSlot} :
    i ∈ takenSlots slots ↔ i < maxBufferNum ∧ (slots i).state ≠ bufferStateFree := by
  simp [takenSlots]

theorem takenSlots_assign {slots : ℕ → BufferSlot} {slot : BufferSlot} (below : i < maxBufferNum)
    (taken : slot.state ≠ bufferStateFree) :
    takenSlots (Function.update slots i slot) = insert i (takenSlots slots) := by
  ext j
  rw [mem_takenSlots, Finset.mem_insert, mem_takenSlots]
  by_cases same : j = i
  · subst same
    rw [Function.update_self]
    exact iff_of_true ⟨below, taken⟩ (.inl rfl)
  · rw [Function.update_of_ne same, or_iff_right same]

theorem takenSlots_release {slots : ℕ → BufferSlot} {slot : BufferSlot}
    (free : slot.state = bufferStateFree) :
    takenSlots (Function.update slots i slot) = (takenSlots slots).erase i := by
  ext j
  rw [mem_takenSlots, Finset.mem_erase, mem_takenSlots]
  by_cases same : j = i
  · subst same
    rw [Function.update_self]
    exact iff_of_false (fun taken => taken.2 free) fun taken => taken.1 rfl
  · rw [Function.update_of_ne same, and_iff_right same]

theorem tableInv_emptyPort {nBufferCountActual : ℕ} (count_le : nBufferCountActual ≤ maxBufferNum)
    (bDRMPlayerMode : Bool) (pBuffer : ℕ → ℕ) :
    TableInv (emptyPort nBufferCountActual bDRMPlayerMode pBuffer) where
  count_le := count_le
  shape _ := .free
  below found := by cases found
  once found := by cases found
  live found := by cases found
  counted := rfl

/-- Memory of buffers and members of headers are no part of the invariant. -/
theorem TableInv.congr (inv : TableInv port) (slots : next.slots = port.slots)
    (headers : next.memory.headers = port.memory.headers)
    (count : next.nBufferCountActual = port.nBufferCountActual)
    (assigned : next.assignedBufferNum = port.assignedBufferNum) : TableInv next where
  count_le := count ▸ inv.count_le
  shape := slots ▸ inv.shape
  below := slots ▸ inv.below
  once := slots ▸ inv.once
  live := slots ▸ headers ▸ inv.live
  counted := by rw [assigned, slots, inv.counted]

theorem TableInv.keepsCount_self (inv : TableInv port) : KeepsCount port port where
  counted := inv.counted
  loaded := by rw [if_neg fun rises => lt_irrefl _ rises.1, Nat.add_zero]
  unloaded := by rw [if_neg fun falls => lt_irrefl _ falls.1, Nat.add_zero]

/-! ### Buffers that are given -/

theorem freeSlot_eq_some (slot : freeSlot port = some i) :
    i < port.nBufferCountActual ∧ (port.slots i).state = bufferStateFree := by
  obtain ⟨free, member, -⟩ := List.find?_range_eq_some.mp slot
  exact ⟨List.mem_range.mp member, by simpa using free⟩

theorem TableInv.not_registered (inv : TableInv port) (fresh : port.memory.headers header = 0)
    (j : ℕ) : (port.slots j).header ≠ some header := fun found => by
  have live := inv.live found
  rw [fresh] at live
  cases live

/-- A header that is new is put into a free slot. -/
theorem TableInv.assign (inv : TableInv port) {state : ℕ}
    (fresh : port.memory.headers header = 0) (slot : freeSlot port = some i)
    (taken : SlotShape ⟨state, some header⟩)
    (slots : next.slots = Function.update port.slots i ⟨state, some header⟩)
    (headers : next.memory.headers =
      Function.update port.memory.headers header (port.memory.headers header + 1))
    (count : next.nBufferCountActual = port.nBufferCountActual)
    (assigned : next.assignedBufferNum = port.assignedBufferNum + 1) : TableInv next := by
  obtain ⟨below, free⟩ := freeSlot_eq_some slot
  have inside : i < maxBufferNum := below.trans_le inv.count_le
  have unknown := inv.not_registered fresh
  have here : next.slots i = ⟨state, some header⟩ := by rw [slots, Function.update_self]
  have elsewhere (j : ℕ) (other : j ≠ i) : next.slots j = port.slots j := by
    rw [slots, Function.update_of_ne other]
  refine ⟨count ▸ inv.count_le, fun j => ?_, fun {j other} found => ?_,
    fun {j k other} left right => ?_, fun {j other} found => ?_, ?_⟩
  · by_cases same : j = i
    · rw [same, here]
      exact taken
    · rw [elsewhere j same]
      exact inv.shape j
  · by_cases same : j = i
    · exact same ▸ inside
    · rw [elsewhere j same] at found
      exact inv.below found
  · by_cases first : j = i <;> by_cases second : k = i
    · exact first.trans second.symm
    · rw [first, here] at left
      rw [elsewhere k second] at right
      exact absurd (right.trans left.symm) (unknown k)
    · rw [elsewhere j first] at left
      rw [second, here] at right
      exact absurd (left.trans right.symm) (unknown j)
    · rw [elsewhere j first] at left
      rw [elsewhere k second] at right
      exact inv.once left right
  · by_cases same : j = i
    · rw [same, here] at found
      cases found
      rw [headers, Function.update_self, fresh]
      rfl
    · rw [elsewhere j same] at found
      have other_ne : other ≠ header := fun eq => unknown j (eq ▸ found)
      rw [headers, Function.update_of_ne other_ne]
      exact inv.live found
  · have absent : i ∉ takenSlots port.slots := fun member => (mem_takenSlots.mp member).2 free
    have filled : state ≠ bufferStateFree := taken.state_ne_iff.mpr (Option.some_ne_none _)
    rw [slots, takenSlots_assign inside filled, Finset.card_insert_of_notMem absent, assigned,
      inv.counted]
    push_cast
    rfl

theorem TableInv.keepsCount_assign (after : TableInv next)
    (assigned : next.assignedBufferNum = port.assignedBufferNum + 1)
    (loaded : next.loadedResource = port.loadedResource +
      if next.assignedBufferNum = next.nBufferCountActual then 1 else 0)
    (unloaded : next.unloadedResource = port.unloadedResource) : KeepsCount port next := by
  have rises : port.assignedBufferNum < next.assignedBufferNum :=
    assigned ▸ Int.lt_succ_self _
  refine ⟨after.counted, ?_, ?_⟩
  · rw [loaded]
    congr 1
    exact if_congr (and_iff_right rises).symm rfl rfl
  · rw [if_neg fun falls => lt_asymm rises falls.1]
    exact unloaded

theorem TableInv.gives_assign (inv : TableInv port) {state : ℕ}
    (fresh : port.memory.headers header = 0) (slot : freeSlot port = some i)
    (taken : SlotShape ⟨state, some header⟩)
    (slots : next.slots = Function.update port.slots i ⟨state, some header⟩) :
    Gives port next ⟨.errorNone, some header⟩ := by
  rw [Gives, if_pos rfl]
  exact ⟨header, i, state, rfl, inv.not_registered fresh, (freeSlot_eq_some slot).2,
    taken.state_ne_iff.mpr (Option.some_ne_none _), slots⟩

theorem gives_refused {answer : PortAnswer} (refused : answer.ret ≠ .errorNone) :
    Gives port next answer ↔ next = port := by
  rw [Gives, if_neg refused]

/-- A block that is allocated and given back at once. -/
theorem update_cancel (blocks : ℕ → ℤ) (address : ℕ) :
    Function.update (Function.update blocks address (blocks address + 1)) address
      (blocks address + 1 + -1) = blocks := by
  rw [Function.update_idem, Int.add_neg_cancel_right, Function.update_eq_self]

theorem addHeader_cancel (port : PortBuffers) (header : ℕ) :
    addHeader (addHeader port header 1) header (-1) = port := by
  simp only [addHeader, Function.update_self, update_cancel]

theorem addBuffer_cancel (port : PortBuffers) (buffer : ℕ) :
    addBuffer (addBuffer port buffer 1) buffer (-1) = port := by
  simp only [addBuffer, Function.update_self, update_cancel]

theorem mallocHeader_eq_some {answer : Option ℕ}
    (allocated : mallocHeader port answer = some header) :
    port.memory.headers header = 0 := by
  have fresh := (Option.filter_eq_some_iff.mp allocated).2
  exact of_decide_eq_true fresh

/-- Each call of `UseBuffer` does what it should. -/
theorem useBuffer_meets (inv : TableInv port) (portState : OmxState) (answer : Option ℕ)
    (pBuffer : ℕ) :
    TableInv (rkvpuUseBuffer port portState answer pBuffer).1 ∧
      KeepsCount port (rkvpuUseBuffer port portState answer pBuffer).1 ∧
      Gives port (rkvpuUseBuffer port portState answer pBuffer).1
        (rkvpuUseBuffer port portState answer pBuffer).2 := by
  have unchanged (ret : OmxError) (refused : ret ≠ .errorNone) :
      TableInv port ∧ KeepsCount port port ∧ Gives port port ⟨ret, none⟩ :=
    ⟨inv, inv.keepsCount_self, (gives_refused refused).mpr rfl⟩
  unfold rkvpuUseBuffer
  split
  · exact unchanged _ (by decide)
  · split
    · exact unchanged _ (by decide)
    · rename_i header allocated
      have fresh := mallocHeader_eq_some allocated
      dsimp only
      split
      · rename_i i slot
        have shape := SlotShape.assigned header
        have after : TableInv (assignSlot (addHeader port header 1) i header pBuffer
            (bufferStateAssigned ||| headerStateAllocated)) :=
          inv.assign fresh slot shape rfl rfl rfl rfl
        exact ⟨after, after.keepsCount_assign rfl rfl rfl, inv.gives_assign fresh slot shape rfl⟩
      · rw [addHeader_cancel]
        exact unchanged _ (by decide)

/-- What is given back to the heap was allocated there. -/
theorem addBuffer_allocateMemory (heap : port.bDRMPlayerMode = false) (buffer : ℕ) :
    addBuffer (allocateMemory port (some buffer)).1 buffer (-1) = port := by
  have made : (allocateMemory port (some buffer)).1 = addBuffer port buffer 1 :=
    if_neg (Bool.not_eq_true _ ▸ heap)
  rw [made, addBuffer_cancel]

/-- Shared memory that is given back to the heap stays allocated. -/
theorem addBuffer_allocateMemory_ne (protected' : port.bDRMPlayerMode = true) (buffer : ℕ) :
    addBuffer (allocateMemory port (some buffer)).1 buffer (-1) ≠ port := by
  have made : (allocateMemory port (some buffer)).1 = addShared port buffer 1 :=
    if_pos protected'
  intro same
  have books := congrArg (fun port => port.memory.shared buffer) same
  rw [made] at books
  change Function.update port.memory.shared buffer _ buffer = _ at books
  rw [Function.update_self] at books
  omega

/-- Only the blocks of buffers change. -/
theorem allocateMemory_frame (port : PortBuffers) (buffer : ℕ) :
    ∃ buffers shared, allocateMemory port (some buffer) =
      ({ port with memory := ⟨port.memory.headers, buffers, shared⟩ }, some buffer) := by
  unfold allocateMemory
  dsimp only
  split <;> exact ⟨_, _, rfl⟩

/-- Behind the allocation of the buffer, the call fails or puts the header into a slot. -/
theorem rkvpuAllocateBuffer_some (port : PortBuffers) (buffer : ℕ) (answer : Option ℕ) :
    rkvpuAllocateBuffer port (some buffer) answer =
      match mallocHeader port answer, freeSlot port with
      | some header, some i =>
          (assignSlot (addHeader (allocateMemory port (some buffer)).1 header 1) i header buffer
            (bufferStateAllocated ||| headerStateAllocated), ⟨.errorNone, some header⟩)
      | _, _ =>
          (addBuffer (allocateMemory port (some buffer)).1 buffer (-1),
            ⟨.insufficientResources, none⟩) := by
  obtain ⟨buffers, shared, made⟩ := allocateMemory_frame port buffer
  rw [rkvpuAllocateBuffer, made]
  have malloc : mallocHeader { port with memory := ⟨port.memory.headers, buffers, shared⟩ } answer =
      mallocHeader port answer := rfl
  simp only [malloc]
  cases mallocHeader port answer with
  | none => rfl
  | some header =>
      have free : freeSlot (addHeader
          { port with memory := ⟨port.memory.headers, buffers, shared⟩ } header 1) =
            freeSlot port := rfl
      simp only [free]
      cases freeSlot port with
      | none => simp only [addHeader_cancel]
      | some i => rfl

/-- A call that fails with the port as `lost`. -/
theorem TableInv.allocateBuffer_refused (inv : TableInv port) {buffer answer : Option ℕ}
    {lost : PortBuffers} (result : rkvpuAllocateBuffer port buffer answer =
      (lost, ⟨.insufficientResources, none⟩))
    (same : lost = port ↔ PortOk port (.allocateBuffer buffer answer)) :
    (PortMeets port (.allocateBuffer buffer answer) ↔
        PortOk port (.allocateBuffer buffer answer)) ∧
      (PortOk port (.allocateBuffer buffer answer) →
        TableInv (rkvpuAllocateBuffer port buffer answer).1) := by
  simp only [PortMeets, portCall, result]
  rw [gives_refused (by decide)]
  refine ⟨⟨fun meets => same.mp meets.2, fun ok => ?_⟩, fun ok => same.mpr ok ▸ inv⟩
  obtain rfl := same.mpr ok
  exact ⟨inv.keepsCount_self, rfl⟩

/-- What is lost when the call fails behind the allocation of the buffer. -/
theorem addBuffer_allocateMemory_iff {buffer : ℕ} {answer : Option ℕ}
    (fails : ¬(mallocHeader port answer ≠ none ∧ freeSlot port ≠ none)) :
    addBuffer (allocateMemory port (some buffer)).1 buffer (-1) = port ↔
      PortOk port (.allocateBuffer (some buffer) answer) := by
  cases mode : port.bDRMPlayerMode with
  | false =>
      refine iff_of_true (addBuffer_allocateMemory mode buffer) fun protected' => ?_
      cases mode.symm.trans protected'
  | true =>
      exact iff_of_false (addBuffer_allocateMemory_ne mode buffer)
        fun ok => fails (ok mode (Option.some_ne_none _))

theorem allocateBuffer_iff (inv : TableInv port) (buffer answer : Option ℕ) :
    (PortMeets port (.allocateBuffer buffer answer) ↔
        PortOk port (.allocateBuffer buffer answer)) ∧
      (PortOk port (.allocateBuffer buffer answer) →
        TableInv (rkvpuAllocateBuffer port buffer answer).1) := by
  cases buffer with
  | none => exact inv.allocateBuffer_refused rfl (iff_of_true rfl fun _ some => absurd rfl some)
  | some buffer =>
      have result := rkvpuAllocateBuffer_some port buffer answer
      cases allocation : mallocHeader port answer with
      | none =>
          rw [allocation] at result
          exact inv.allocateBuffer_refused result
            (addBuffer_allocateMemory_iff fun found => found.1 allocation)
      | some header =>
          cases slot : freeSlot port with
          | none =>
              rw [allocation, slot] at result
              exact inv.allocateBuffer_refused result
                (addBuffer_allocateMemory_iff fun found => found.2 slot)
          | some i =>
              rw [allocation, slot] at result
              obtain ⟨buffers, shared, made⟩ := allocateMemory_frame port buffer
              rw [made] at result
              have fresh := mallocHeader_eq_some allocation
              have shape := SlotShape.allocated header
              simp only [PortMeets, portCall, result]
              have after : TableInv (assignSlot (addHeader
                  { port with memory := ⟨port.memory.headers, buffers, shared⟩ } header 1) i header
                  buffer (bufferStateAllocated ||| headerStateAllocated)) :=
                inv.assign fresh slot shape rfl rfl rfl rfl
              refine ⟨iff_of_true ⟨after.keepsCount_assign rfl rfl rfl,
                inv.gives_assign fresh slot shape rfl⟩ fun _ _ => ?_, fun _ => after⟩
              rw [allocation, slot]
              exact ⟨Option.some_ne_none _, Option.some_ne_none _⟩

/-! ### Buffers that are taken back -/

theorem TableInv.searchedHeader_eq (inv : TableInv port) (i : ℕ) :
    searchedHeader port i = (port.slots i).header := by
  have state := (inv.shape i).state_ne_iff
  rw [searchedHeader, show (port.slots i).state ||| bufferStateFree = (port.slots i).state from
    Nat.or_zero _]
  split
  · rfl
  · rename_i free
    by_contra other
    exact free (state.mpr (Ne.symm other))

/-- The release of a slot, apart from the memory of the buffer. -/
structure Released (port next : PortBuffers) (i found : ℕ) : Prop where
  slots : next.slots = Function.update port.slots i ⟨bufferStateFree, none⟩
  headers : next.memory.headers =
    Function.update port.memory.headers found (port.memory.headers found - 1)
  count : next.nBufferCountActual = port.nBufferCountActual
  assigned : next.assignedBufferNum = port.assignedBufferNum - 1
  loaded : next.loadedResource = port.loadedResource
  unloaded : next.unloadedResource = port.unloadedResource

/-- A slot with a buffer of the client: only its header is freed. -/
theorem releaseSlot_assigned {found : ℕ}
    (slot : port.slots i = ⟨bufferStateAssigned ||| headerStateAllocated, some found⟩)
    (header : ℕ) : releaseSlot port i found header =
      { releaseHeader port i found with
        assignedBufferNum := port.assignedBufferNum - 1
        slots := Function.update port.slots i ⟨bufferStateFree, none⟩ } := by
  have kept : (bufferStateAssigned ||| headerStateAllocated) &&& bufferStateAllocated = 0 := rfl
  have freed : (bufferStateAssigned ||| headerStateAllocated) &&& headerStateAllocated ≠ 0 :=
    Nat.succ_ne_zero 3
  simp only [releaseSlot, slot, kept, ne_eq, not_true_eq_false, if_false, freed,
    not_false_eq_true, if_true, releaseHeader, Function.update_self, Function.update_idem]
  rfl

/-- A slot with a buffer of the port: both are freed. -/
theorem releaseSlot_allocated {found : ℕ}
    (slot : port.slots i = ⟨bufferStateAllocated ||| headerStateAllocated, some found⟩)
    (header : ℕ) : releaseSlot port i found header =
      { releaseHeader (releaseBuffer port found header) i found with
        assignedBufferNum := port.assignedBufferNum - 1
        slots := Function.update port.slots i ⟨bufferStateFree, none⟩ } := by
  have both : (bufferStateAllocated ||| headerStateAllocated) &&& bufferStateAllocated ≠ 0 :=
    Nat.succ_ne_zero 0
  have freed : (bufferStateAllocated ||| headerStateAllocated) &&& headerStateAllocated ≠ 0 :=
    Nat.succ_ne_zero 3
  simp only [releaseSlot, slot, both, ne_eq, freed, releaseBuffer, not_false_eq_true, if_true,
    releaseHeader, Function.update_self, Function.update_idem]
  split <;> rfl

theorem released_releaseSlot {found : ℕ} (shape : SlotShape (port.slots i))
    (taken : (port.slots i).header = some found) (header : ℕ) :
    Released port (releaseSlot port i found header) i found := by
  generalize slot : port.slots i = here at shape taken
  cases shape with
  | free => cases taken
  | assigned found' =>
      cases taken
      rw [releaseSlot_assigned slot]
      exact ⟨rfl, rfl, rfl, rfl, rfl, rfl⟩
  | allocated found' =>
      cases taken
      rw [releaseSlot_allocated slot, releaseBuffer]
      split <;> exact ⟨rfl, rfl, rfl, rfl, rfl, rfl⟩

theorem update_sub_one (blocks : ℕ → ℤ) (address : ℕ) :
    Function.update blocks address (blocks address + -1) =
      fun other => blocks other - if some address = some other then 1 else 0 := by
  funext other
  by_cases same : other = address
  · subst same
    rw [Function.update_self, if_pos rfl]
    rfl
  · rw [Function.update_of_ne same, if_neg fun eq => same (Option.some.inj eq).symm, sub_zero]

/-- The memory that is released with a header, and the members of the other headers. -/
theorem releaseSlot_memory (shape : SlotShape (port.slots i))
    (taken : (port.slots i).header = some header) :
    (releaseSlot port i header header).memory = port.memory.without header
        (if port.bDRMPlayerMode then none else ownBuffer port i header) none ∧
      ∀ other, other ≠ header →
        (releaseSlot port i header header).pBuffer other = port.pBuffer other := by
  rw [ownBuffer]
  generalize slot : port.slots i = here at shape taken
  cases shape with
  | free => cases taken
  | assigned found =>
      cases taken
      have kept : (bufferStateAssigned ||| headerStateAllocated) &&& bufferStateAllocated = 0 := rfl
      rw [releaseSlot_assigned slot]
      refine ⟨?_, fun _ _ => rfl⟩
      simp [PortMemory.without, releaseHeader, addHeader, sub_eq_add_neg, kept]
  | allocated found =>
      cases taken
      have both : (bufferStateAllocated ||| headerStateAllocated) &&& bufferStateAllocated ≠ 0 :=
        Nat.succ_ne_zero 0
      rw [releaseSlot_allocated slot, releaseBuffer]
      refine ⟨?_, fun other different => ?_⟩
      · cases port.bDRMPlayerMode with
        | true => simp [PortMemory.without, releaseHeader, addHeader, sub_eq_add_neg]
        | false =>
            simp only [Bool.false_eq_true, if_false, PortMemory.without, releaseHeader, addHeader,
              addBuffer, update_sub_one, reduceCtorEq, sub_eq_add_neg, neg_zero, add_zero, both,
              ne_eq, not_false_eq_true, if_true]
      · cases port.bDRMPlayerMode <;>
          exact (Function.update_of_ne different _ _).trans (Function.update_of_ne different _ _)

theorem Released.tableInv (inv : TableInv port) {found : ℕ} (released : Released port next i found)
    (taken : (port.slots i).header = some found) : TableInv next := by
  have here : next.slots i = ⟨bufferStateFree, none⟩ := by
    rw [released.slots, Function.update_self]
  have elsewhere (j : ℕ) (other : j ≠ i) : next.slots j = port.slots j := by
    rw [released.slots, Function.update_of_ne other]
  have kept {j other : ℕ} (still : (next.slots j).header = some other) :
      j ≠ i ∧ (port.slots j).header = some other := by
    have different : j ≠ i := fun same => by
      rw [same, here] at still
      cases still
    exact ⟨different, elsewhere j different ▸ still⟩
  refine ⟨released.count ▸ inv.count_le, fun j => ?_, fun still => inv.below (kept still).2,
    fun left right => inv.once (kept left).2 (kept right).2, fun {j other} still => ?_, ?_⟩
  · by_cases same : j = i
    · rw [same, here]
      exact .free
    · rw [elsewhere j same]
      exact inv.shape j
  · obtain ⟨different, before⟩ := kept still
    have other_ne : other ≠ found := fun same => different (inv.once before (same ▸ taken))
    rw [released.headers, Function.update_of_ne other_ne]
    exact inv.live before
  · have member : i ∈ takenSlots port.slots :=
      mem_takenSlots.mpr ⟨inv.below taken, (inv.shape i).state_ne_iff.mpr (taken ▸ by simp)⟩
    have erased := Finset.card_erase_add_one member
    rw [released.assigned, released.slots, takenSlots_release rfl, inv.counted, ← erased]
    push_cast
    omega

/-- Only the semaphore, and whether the port is populated. -/
theorem postUnloaded_frame (port : PortBuffers) : ∃ unloadedResource bPopulated,
    postUnloaded port =
      { port with unloadedResource := unloadedResource, bPopulated := bPopulated } := by
  unfold postUnloaded
  split <;> exact ⟨_, _, rfl⟩

theorem TableInv.unloaded (inv : TableInv port) : TableInv (postUnloaded port) := by
  obtain ⟨_, _, posted⟩ := postUnloaded_frame port
  rw [posted]
  exact inv.congr rfl rfl rfl rfl

/-- A slot that is released with the last of the buffers posts the semaphore. -/
theorem Released.keepsCount (after : TableInv next) {found : ℕ}
    (released : Released port next i found) : KeepsCount port (postUnloaded next) := by
  have falls : next.assignedBufferNum < port.assignedBufferNum := by
    rw [released.assigned]
    omega
  obtain ⟨_, _, posted⟩ := postUnloaded_frame next
  have same : (postUnloaded next).assignedBufferNum = next.assignedBufferNum := by rw [posted]
  refine ⟨after.unloaded.counted, ?_, ?_⟩
  · rw [same, if_neg fun rises => lt_asymm falls rises.1, Nat.add_zero, ← released.loaded, posted]
  · rw [same, ← released.unloaded]
    unfold postUnloaded
    by_cases last : next.assignedBufferNum = 0
    · rw [if_pos last, if_pos ⟨falls, last⟩]
    · rw [if_neg last, if_neg fun unloads => last unloads.2, Nat.add_zero]

/-- The search goes by the buffer, and stops at the first slot that has it. -/
theorem TableInv.bufferSlot_eq_some (inv : TableInv port) {buffer : ℕ} :
    bufferSlot port buffer = some i ↔
      (∃ found, (port.slots i).header = some found ∧ port.pBuffer found = buffer) ∧
        ∀ j < i, ∀ other, (port.slots j).header = some other → port.pBuffer other ≠ buffer := by
  have search (j : ℕ) : ((searchedHeader port j).any fun found => port.pBuffer found == buffer) =
      true ↔ ∃ found, (port.slots j).header = some found ∧ port.pBuffer found = buffer := by
    rw [inv.searchedHeader_eq, Option.any_eq_true]
    exact exists_congr fun found => and_congr_right fun _ => beq_iff_eq
  rw [bufferSlot, List.find?_range_eq_some, search, List.mem_range]
  constructor
  · rintro ⟨stops, -, before⟩
    refine ⟨stops, fun j less other found same => ?_⟩
    have passed := before j less
    rw [(search j).mpr ⟨other, found, same⟩] at passed
    cases passed
  · rintro ⟨⟨found, taken, same⟩, before⟩
    refine ⟨⟨found, taken, same⟩, inv.below taken, fun j less => ?_⟩
    rw [Bool.not_eq_true', ← Bool.not_eq_true, search]
    rintro ⟨other, found, same⟩
    exact before j less other found same

theorem TableInv.foreignHeader_eq (inv : TableInv port)
    (taken : (port.slots i).header = some header) (pBuffer : ℕ) :
    foreignHeader port header pBuffer = port := by
  refine if_pos (List.any_eq_true.mpr ⟨i, List.mem_range.mpr (inv.below taken), ?_⟩)
  rw [taken]
  exact beq_self_eq_true _

/-- The search of a registered header stops at its slot or before it. -/
theorem TableInv.freeBuffer_eq (inv : TableInv port) (taken : (port.slots i).header = some header) :
    ∃ j found, j ≤ i ∧ bufferSlot port (port.pBuffer header) = some j ∧
      (port.slots j).header = some found ∧
      rkvpuFreeBuffer port header = (postUnloaded (releaseSlot port j found header),
        ⟨.errorNone, none⟩) := by
  have stops : ((searchedHeader port i).any fun found => port.pBuffer found ==
      port.pBuffer header) = true := by
    rw [inv.searchedHeader_eq, taken]
    exact beq_self_eq_true _
  cases search : bufferSlot port (port.pBuffer header) with
  | none =>
      have passed := List.find?_range_eq_none.mp search i (inv.below taken)
      rw [stops] at passed
      cases passed
  | some j =>
      obtain ⟨⟨found, there, -⟩, -⟩ := inv.bufferSlot_eq_some.mp search
      obtain ⟨-, -, first⟩ := List.find?_range_eq_some.mp search
      refine ⟨j, found, not_lt.mp fun less => ?_, rfl, there, ?_⟩
      · have passed := first i less
        rw [stops] at passed
        cases passed
      · simp only [rkvpuFreeBuffer, search, there]

theorem without_shared_iff {memory : PortMemory} {buffer shared : Option ℕ} :
    memory.without header buffer none = memory.without header buffer shared ↔ shared = none := by
  constructor
  · intro same
    cases shared with
    | none => rfl
    | some address =>
        have books := congrFun (congrArg PortMemory.shared same) address
        simp only [PortMemory.without, reduceCtorEq, if_false, if_true] at books
        omega
  · rintro rfl
    rfl

/-- Taking back a header that is in the table. -/
theorem TableInv.takesBack_iff (inv : TableInv port) (taken : (port.slots i).header = some header)
    {answer : PortAnswer} : TakesBack port next header answer ↔
      answer.ret = .errorNone ∧
        next.slots = Function.update port.slots i ⟨bufferStateFree, none⟩ ∧
        next.memory = port.memory.without header
          (if port.bDRMPlayerMode then none else ownBuffer port i header)
          (if port.bDRMPlayerMode then ownBuffer port i header else none) ∧
        ∀ other, other ≠ header → next.pBuffer other = port.pBuffer other := by
  constructor
  · exact fun back => back.1 i taken
  · intro back
    refine ⟨fun j found => ?_, fun unknown => absurd taken (unknown i)⟩
    obtain rfl := inv.once found taken
    exact back

/-- When the search stops at the slot of the header, only its memory can be wrong. -/
theorem TableInv.freeBuffer_own (inv : TableInv port)
    (taken : (port.slots i).header = some header) :
    TableInv (postUnloaded (releaseSlot port i header header)) ∧
      KeepsCount port (postUnloaded (releaseSlot port i header header)) ∧
      (TakesBack port (postUnloaded (releaseSlot port i header header)) header
          ⟨.errorNone, none⟩ ↔
        (port.bDRMPlayerMode = true → (port.slots i).state &&& bufferStateAllocated = 0)) := by
  have released := released_releaseSlot (inv.shape i) taken header
  have after := released.tableInv inv taken
  obtain ⟨memory, members⟩ := releaseSlot_memory (inv.shape i) taken
  refine ⟨after.unloaded, released.keepsCount after, ?_⟩
  obtain ⟨_, _, posted⟩ := postUnloaded_frame (releaseSlot port i header header)
  rw [inv.takesBack_iff taken, posted]
  dsimp only
  rw [memory, without_shared_iff]
  have own : ((if port.bDRMPlayerMode then ownBuffer port i header else none) = none) ↔
      (port.bDRMPlayerMode = true → (port.slots i).state &&& bufferStateAllocated = 0) := by
    cases port.bDRMPlayerMode <;> simp [ownBuffer]
  rw [own]
  exact ⟨fun back => back.2.2.1, fun ok => ⟨rfl, released.slots, ok, members⟩⟩

theorem freeBuffer_iff (inv : TableInv port) (header pBuffer : ℕ) :
    (PortMeets port (.freeBuffer header pBuffer) ↔ PortOk port (.freeBuffer header pBuffer)) ∧
      (PortOk port (.freeBuffer header pBuffer) →
        TableInv (portCall port (.freeBuffer header pBuffer)).1) := by
  by_cases known : ∃ i, (port.slots i).header = some header
  · obtain ⟨i, taken⟩ := known
    obtain ⟨j, found, within, search, there, result⟩ := inv.freeBuffer_eq taken
    simp only [PortMeets, portCall, inv.foreignHeader_eq taken, result]
    obtain ⟨⟨found', there', same⟩, before⟩ := inv.bufferSlot_eq_some.mp search
    obtain rfl : found = found' := Option.some.inj (there.symm.trans there')
    by_cases own : j = i
    · subst own
      obtain rfl : found = header := Option.some.inj (there.symm.trans taken)
      obtain ⟨after, keeps, back⟩ := inv.freeBuffer_own taken
      refine ⟨⟨fun meets => ⟨j, taken, before, back.mp meets.2⟩, ?_⟩, fun _ => after⟩
      rintro ⟨k, here, -, ok⟩
      obtain rfl := inv.once here taken
      exact ⟨keeps, back.mpr ok⟩
    · have less : j < i := lt_of_le_of_ne within own
      have refused : ¬PortOk port (.freeBuffer header pBuffer) := by
        rintro ⟨k, here, first, -⟩
        obtain rfl := inv.once here taken
        exact first j less found there same
      refine ⟨iff_of_false (fun meets => ?_) refused, fun ok => absurd ok refused⟩
      have slots := ((inv.takesBack_iff taken).mp meets.2).2.1
      have released := (released_releaseSlot (inv.shape j) there header).slots
      obtain ⟨_, _, posted⟩ := postUnloaded_frame (releaseSlot port j found header)
      rw [posted, released] at slots
      have lost := congrFun slots i
      rw [Function.update_self, Function.update_of_ne (Ne.symm own)] at lost
      rw [lost] at taken
      cases taken
  · have refused : ¬PortOk port (.freeBuffer header pBuffer) := by
      rintro ⟨i, taken, -⟩
      exact known ⟨i, taken⟩
    refine ⟨iff_of_false (fun meets => ?_) refused, fun ok => absurd ok refused⟩
    exact (meets.2.2 fun i taken => known ⟨i, taken⟩).1 rfl

/-! ### Sequences of calls -/

/-- A call does what it should exactly when it meets its condition, and then keeps the invariant. -/
theorem portMeets_iff (inv : TableInv port) (op : PortOp) :
    (PortMeets port op ↔ PortOk port op) ∧ (PortOk port op → TableInv (portCall port op).1) := by
  cases op with
  | useBuffer portState header pBuffer =>
      obtain ⟨after, meets⟩ := useBuffer_meets inv portState header pBuffer
      exact ⟨iff_of_true meets trivial, fun _ => after⟩
  | allocateBuffer buffer header => exact allocateBuffer_iff inv buffer header
  | freeBuffer header pBuffer => exact freeBuffer_iff inv header pBuffer

end Omx
end RockchipSoc
