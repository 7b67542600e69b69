import RockchipSoc.Omx.SharedMemory

/-!
# The books of the shared memory

A call keeps the books exactly when it meets its condition.  The books are those that the client
would find in order if it closed the device now.
-/

namespace RockchipSoc
namespace Omx

open Ledger LabelledRun

variable {shm : SharedMemory} {others : ℤ}

/-! ### The list -/

section Unlink

variable {α β : Type*} {stops : α → Bool} {list rest : List α} {found : α}

theorem unlinkFirst_perm (unlinked : unlinkFirst stops list = some (found, rest)) :
    list.Perm (found :: rest) := by
  induction list generalizing found rest with
  | nil => cases unlinked
  | cons first list ih =>
      rw [unlinkFirst] at unlinked
      split at unlinked
      · cases unlinked
        exact List.Perm.refl _
      · obtain ⟨⟨found', rest'⟩, inner, same⟩ := Option.map_eq_some_iff.mp unlinked
        cases same
        exact ((ih inner).cons first).trans (List.Perm.swap _ _ _)

/-- The search sees only what it tests. -/
theorem unlinkFirst_map (view : α → β) (means : β → Bool) (list : List α) :
    unlinkFirst means (list.map view) =
      (unlinkFirst (fun element => means (view element)) list).map fun found =>
        (view found.1, found.2.map view) := by
  induction list with
  | nil => rfl
  | cons first list ih =>
      rw [List.map_cons, unlinkFirst, unlinkFirst]
      split
      · rfl
      · rw [ih, Option.map_map, Option.map_map]
        rfl

end Unlink

/-! ### The books -/

/-- The handles that belong to the elements of the list. -/
def heldHandles (memType : SecureMemoryType) (list : List SharedMemElement) :
    List KernelHandle :=
  (list.filter SharedMemElement.owner).map fun element => ⟨memType, element.ionHdl⟩

/-- How often the element with a number was allocated. -/
def allocations (elements id : ℕ) : ℕ := if id < elements then 1 else 0

/-- Each handle is freed or belongs to an element, each element is freed or in the list, and the
list holds what the client holds. -/
structure Books (others : ℤ) (shm : SharedMemory) : Prop where
  handles : Conserved shm.granted shm.freed (heldHandles shm.memType shm.pAllocMemory)
  elements : Conserved (allocations shm.elements) shm.elementFreed
    (shm.pAllocMemory.map SharedMemElement.id)
  listed : shm.pAllocMemory.map SharedMemElement.view = shm.live
  counted : shm.memCnt = others + shm.live.length

theorem allocations_succ (elements : ℕ) :
    allocations (elements + 1) = bump (allocations elements) elements := by
  funext id
  by_cases same : id = elements
  · simp [allocations, bump, same]
  · rw [bump, Function.update_of_ne same, allocations, allocations]
    exact if_congr (by omega) rfl rfl

theorem heldHandles_append (memType : SecureMemoryType) (list : List SharedMemElement)
    (element : SharedMemElement) :
    heldHandles memType (list ++ [element]) =
      heldHandles memType list ++ if element.owner then [⟨memType, element.ionHdl⟩] else [] := by
  unfold heldHandles
  by_cases owned : element.owner = true <;> simp [owned]

theorem heldHandles_perm {memType : SecureMemoryType} {list rest : List SharedMemElement}
    {element : SharedMemElement} (unlinked : list.Perm (element :: rest)) :
    (heldHandles memType list).Perm
      ((if element.owner then [⟨memType, element.ionHdl⟩] else []) ++
        heldHandles memType rest) := by
  refine ((unlinked.filter _).map _).trans (List.Perm.of_eq ?_)
  unfold heldHandles
  by_cases owned : element.owner = true <;> simp [owned]

/-- What the loop of the close frees. -/
theorem closeElements (list : List SharedMemElement) (shm : SharedMemory) :
    let closed := list.foldl closeElement shm
    (∀ handle, closed.freed handle =
        shm.freed handle + (heldHandles shm.memType list).count handle) ∧
      ∀ id, closed.elementFreed id =
        shm.elementFreed id + (list.map SharedMemElement.id).count id := by
  induction list generalizing shm with
  | nil => exact ⟨fun _ => rfl, fun _ => rfl⟩
  | cons element list ih =>
      obtain ⟨handles, ids⟩ := ih (closeElement shm element)
      refine ⟨fun handle => ?_, fun id => ?_⟩
      · rw [List.foldl_cons, handles]
        by_cases owned : element.owner = true
        · have first : heldHandles shm.memType (element :: list) =
              [⟨shm.memType, element.ionHdl⟩] ++ heldHandles shm.memType list := by
            simp [heldHandles, owned]
          rw [first, List.count_append, closeElement, if_pos owned]
          simp only [kernelFree, freeElement, bump_apply]
          omega
        · simp [closeElement, freeElement, heldHandles, owned]
      · have first : (element :: list).map SharedMemElement.id =
            [element.id] ++ list.map SharedMemElement.id := rfl
        rw [List.foldl_cons, ids, first, List.count_append]
        have freed : (closeElement shm element).elementFreed =
            bump shm.elementFreed element.id := by
          unfold closeElement
          split <;> rfl
        rw [freed, bump_apply]
        omega

/-- The books are in order exactly when they would be in order after a close. -/
theorem freesWhatItAllocated_iff : FreesWhatItAllocated shm others ↔ Books others shm := by
  have closed := closeElements shm.pAllocMemory shm
  constructor
  · intro frees
    refine ⟨fun handle => ?_, fun id => ?_, frees.listed, frees.counted⟩
    · exact (frees.handle_freed handle).symm.trans (closed.1 handle)
    · exact (frees.element_freed id).symm.trans (closed.2 id)
  · intro books
    refine ⟨fun handle => ?_, fun handle => ?_, fun id => ?_, fun id => ?_, books.listed,
      books.counted⟩
    · rw [books.handles handle]
      exact Nat.le_add_right _ _
    · rw [books.handles handle]
      exact closed.1 handle
    · have once := books.elements id
      unfold allocations at once
      split at once <;> omega
    · exact (closed.2 id).trans (books.elements id).symm

/-! ### Allocations -/

/-- An element that is neither freed nor in the list is lost. -/
theorem Books.not_leaked {next : SharedMemory} (books : Books others shm)
    (elements : next.elements = shm.elements + 1) (freed : next.elementFreed = shm.elementFreed)
    (list : next.pAllocMemory = shm.pAllocMemory) : ¬Books others next := fun leaked => by
  have lost := leaked.elements
  rw [elements, freed, list, allocations_succ] at lost
  exact books.elements.not_take lost

/-- An element in the list that the client does not know of. -/
theorem Books.not_unknown {next : SharedMemory} (books : Books others shm)
    {element : SharedMemElement} (list : next.pAllocMemory = shm.pAllocMemory ++ [element])
    (live : next.live = shm.live) : ¬Books others next := fun unknown => by
  have listed := congrArg List.length unknown.listed
  rw [list, live, ← books.listed] at listed
  simp at listed

/-- An element that is freed at once leaves the books as they are. -/
theorem Books.dropped {next : SharedMemory} (books : Books others shm)
    (elements : next.elements = shm.elements + 1)
    (freed : next.elementFreed = bump shm.elementFreed shm.elements)
    (list : next.pAllocMemory = shm.pAllocMemory) (live : next.live = shm.live)
    (counted : next.memCnt = shm.memCnt) (memType : next.memType = shm.memType) :
    Books others next ↔
      Conserved next.granted next.freed (heldHandles shm.memType shm.pAllocMemory) := by
  refine ⟨fun after => memType ▸ list ▸ after.handles, fun handles => ⟨?_, ?_, ?_, ?_⟩⟩
  · rwa [memType, list]
  · rw [elements, freed, list, allocations_succ]
    exact conserved_pass.mpr books.elements
  · rw [list, live, books.listed]
  · rw [counted, live, books.counted]

/-- A new element that the client knows of. -/
theorem Books.appended {next : SharedMemory} (books : Books others shm)
    {element : SharedMemElement} (id : element.id = shm.elements)
    (elements : next.elements = shm.elements + 1) (freed : next.elementFreed = shm.elementFreed)
    (list : next.pAllocMemory = shm.pAllocMemory ++ [element])
    (live : next.live = shm.live ++ [element.view]) (counted : next.memCnt = shm.memCnt + 1)
    (memType : next.memType = shm.memType) :
    Books others next ↔ Conserved next.granted next.freed
      (heldHandles shm.memType (shm.pAllocMemory ++ [element])) := by
  refine ⟨fun after => memType ▸ list ▸ after.handles, fun handles => ⟨?_, ?_, ?_, ?_⟩⟩
  · rwa [memType, list]
  · rw [elements, freed, list, allocations_succ, List.map_append, List.map_singleton, id]
    exact conserved_take.mpr books.elements
  · rw [list, live, ← books.listed, List.map_append]
    rfl
  · rw [counted, live, books.counted, List.length_append]
    push_cast
    exact Int.add_assoc _ _ _

/-- The calls of a mapping: what they return, and the address. -/
theorem ionMap_ok {map : MapResult} (ok : (ionMap map).1 = 0) :
    ∃ addr, (ionMap map).2 = .mapped addr := by
  revert ok
  unfold ionMap
  split
  · intro ok
    omega
  · split
    · intro ok
      cases ok
    · split
      · intro ok
        cases ok
      · intro ok
        rename_i mapped
        cases addr : map.addr with
        | none => exact absurd (by rw [addr, mmapAddr]) mapped
        | some addr' => exact ⟨addr', rfl⟩

theorem alloc_system_iff (books : Books others shm) (size : ℕ) (alloc : AllocResult)
    (map : MapResult) : Books others (shmStep shm (.alloc size .system alloc map)) ↔
      shm.memType = .ion ∨ alloc.ret < 0 ∨ (ionMap map).1 ≠ 0 := by
  simp only [shmStep, sharedMemoryAlloc, ionAlloc]
  by_cases refused : alloc.ret < 0
  · simp only [refused, if_true, true_or, or_true, iff_true]
    exact Iff.mpr (books.dropped rfl rfl rfl rfl rfl rfl) books.handles
  · simp only [refused, if_false, false_or]
    by_cases unmapped : (ionMap map).1 = 0
    · obtain ⟨addr, mapped⟩ := ionMap_ok unmapped
      simp only [unmapped, ne_eq, not_true_eq_false, if_false, mapped, receive, or_false]
      refine Iff.trans (books.appended rfl rfl rfl rfl rfl rfl rfl) ?_
      rw [heldHandles_append, if_pos rfl]
      constructor
      · intro handles
        cases memType : shm.memType with
        | ion => rfl
        | drm =>
            rw [memType] at handles
            exact absurd handles ((memType ▸ books.handles).not_take_other (by simp))
      · intro ion
        rw [ion]
        exact conserved_take.mpr (ion ▸ books.handles)
    · simp only [unmapped, ne_eq, not_false_eq_true, if_true, or_true, iff_true]
      exact Iff.mpr (books.dropped rfl rfl rfl rfl rfl rfl) (conserved_pass.mpr books.handles)

/-- An allocation of the device touches the handles only. -/
theorem deviceAlloc_frame (shm : SharedMemory) (alloc : AllocResult) :
    (deviceAlloc shm alloc).1.elements = shm.elements ∧
      (deviceAlloc shm alloc).1.elementFreed = shm.elementFreed ∧
      (deviceAlloc shm alloc).1.pAllocMemory = shm.pAllocMemory ∧
      (deviceAlloc shm alloc).1.live = shm.live := by
  unfold deviceAlloc drmAlloc ionAlloc
  split <;> split <;> exact ⟨rfl, rfl, rfl, rfl⟩

/-- Secure memory is lost, or in the list without an address. -/
theorem alloc_secure_not (books : Books others shm) (size : ℕ) (alloc : AllocResult)
    (map : MapResult) : ¬Books others (shmStep shm (.alloc size .secure alloc map)) := by
  obtain ⟨elements, freed, list, live⟩ := deviceAlloc_frame (newElement shm) alloc
  simp only [shmStep, sharedMemoryAlloc]
  split
  · exact books.not_leaked elements freed list
  · exact books.not_unknown (congrArg (· ++ [_]) list) live

theorem alloc_iff (books : Books others shm) (size : ℕ) (memoryType : MemoryType)
    (alloc : AllocResult) (map : MapResult) :
    Books others (shmStep shm (.alloc size memoryType alloc map)) ↔
      ShmOk shm (.alloc size memoryType alloc map) := by
  cases memoryType with
  | normal => exact iff_of_false (books.not_leaked rfl rfl rfl) fun ok => by cases ok.1
  | secure => exact iff_of_false (alloc_secure_not books size alloc map) fun ok => by cases ok.1
  | system =>
      rw [alloc_system_iff books]
      simp [ShmOk]

/-! ### Mappings -/

theorem map_iff (books : Books others shm) (size : ℕ) (ionHdl : ℤ) (map : MapResult) :
    Books others (shmStep shm (.map size ionHdl map)) ↔ ShmOk shm (.map size ionHdl map) := by
  simp only [shmStep, sharedMemoryMap, ShmOk]
  by_cases unset : ionHdl = -1
  · simp only [unset, if_true, true_or, iff_true]
    exact Iff.mpr (books.dropped rfl rfl rfl rfl rfl rfl) books.handles
  · simp only [unset, if_false, false_or]
    cases address : deviceMap shm map with
    | null =>
        simp only [if_true, receive]
        refine iff_of_false ?_ (by simp)
        refine Iff.mpr (not_congr (books.dropped rfl rfl rfl rfl rfl rfl)) ?_
        exact books.handles.not_give
    | failed =>
        simp only [reduceCtorEq, if_false, receive]
        exact iff_of_false (books.not_unknown rfl rfl) (by simp)
    | mapped addr =>
        simp only [reduceCtorEq, if_false, receive]
        refine iff_of_true (Iff.mpr (books.appended rfl rfl rfl rfl rfl rfl rfl) ?_) ⟨addr, rfl⟩
        rw [heldHandles_append, if_neg (by simp), List.append_nil]
        exact books.handles

/-! ### What is given up -/

/-- The client's search finds the buffer of the element that the code finds. -/
theorem Books.unlink_live (books : Books others shm) (means : ClientBuffer → Bool)
    (stops : SharedMemElement → Bool) (same : ∀ element, means element.view = stops element) :
    unlinkFirst means shm.live =
      (unlinkFirst stops shm.pAllocMemory).map fun found =>
        (found.1.view, found.2.map SharedMemElement.view) := by
  obtain rfl : (fun element => means (SharedMemElement.view element)) = stops := funext same
  rw [← books.listed, unlinkFirst_map]

/-- An element that is unlinked and not freed is lost. -/
theorem Books.not_unlinked {next : SharedMemory} {element : SharedMemElement}
    {rest : List SharedMemElement} (books : Books others shm)
    (unlinked : shm.pAllocMemory.Perm (element :: rest)) (elements : next.elements = shm.elements)
    (freed : next.elementFreed = shm.elementFreed) (list : next.pAllocMemory = rest) :
    ¬Books others next := fun lost => by
  have after := lost.elements
  rw [elements, freed, list] at after
  have before := (conserved_perm (unlinked.map SharedMemElement.id)).mp books.elements
  exact before.not_drop after

/-- An element that is unlinked and freed. -/
theorem Books.released {next : SharedMemory} {element : SharedMemElement}
    {rest : List SharedMemElement} (books : Books others shm)
    (unlinked : shm.pAllocMemory.Perm (element :: rest)) (elements : next.elements = shm.elements)
    (freed : next.elementFreed = bump shm.elementFreed element.id)
    (list : next.pAllocMemory = rest) (live : next.live = rest.map SharedMemElement.view)
    (counted : next.memCnt = shm.memCnt - 1) (memType : next.memType = shm.memType) :
    Books others next ↔
      Conserved next.granted next.freed (heldHandles shm.memType rest) := by
  refine ⟨fun after => memType ▸ list ▸ after.handles, fun handles => ⟨?_, ?_, ?_, ?_⟩⟩
  · rwa [memType, list]
  · rw [elements, freed, list]
    exact conserved_give.mpr
      ((conserved_perm (unlinked.map SharedMemElement.id)).mp books.elements)
  · rw [list, live]
  · have length := unlinked.length_eq
    have before := books.counted
    rw [← books.listed, List.length_map, length, List.length_cons] at before
    rw [counted, before, live, List.length_map]
    push_cast
    omega

/-- The number of buffers decides which family frees a handle. -/
theorem freeFamily_eq_iff {memType : SecureMemoryType} {memCnt : ℤ} :
    (if memCnt = 0 then SecureMemoryType.ion else .drm) = memType ↔
      (memCnt = 0 ↔ memType = .ion) := by
  cases memType <;> by_cases zero : memCnt = 0 <;> simp [zero]

theorem free_iff (books : Books others shm) (pBuffer : MapAddr) (munmapOk : Bool) :
    Books others (shmStep shm (.free pBuffer munmapOk)) ↔ ShmOk shm (.free pBuffer munmapOk) := by
  have live := books.unlink_live (fun buffer => buffer.addr = pBuffer)
    (fun element => element.mapAddr = pBuffer) fun _ => rfl
  simp only [shmStep, sharedMemoryFree, ShmOk]
  cases search : unlinkFirst (fun element => element.mapAddr = pBuffer) shm.pAllocMemory with
  | none =>
      rw [search] at live
      rw [giveUp, live]
      exact iff_of_true books fun found member => by cases member
  | some found =>
      obtain ⟨element, rest⟩ := found
      have unlinked := unlinkFirst_perm search
      have handles := (conserved_perm (heldHandles_perm unlinked)).mp books.handles
      rw [search] at live
      simp only [Option.mem_some_iff, forall_eq']
      cases munmapOk with
      | false =>
          rw [if_pos (by simp), giveUp, live]
          exact iff_of_false (books.not_unlinked unlinked rfl rfl rfl) (by simp)
      | true =>
          rw [if_neg (by simp)]
          by_cases owned : element.owner = true
          · simp only [owned, if_true, true_and, forall_const] at handles ⊢
            rw [giveUp]
            simp only [freeElement, kernelFree]
            rw [live, ← freeFamily_eq_iff]
            refine Iff.trans (books.released unlinked rfl rfl rfl rfl rfl rfl) ?_
            constructor
            · intro after
              by_contra other
              exact handles.not_give_other (by simpa using other) after
            · rintro same
              rw [same]
              exact conserved_give.mpr handles
          · simp only [owned, Bool.false_eq_true, if_false, true_and, IsEmpty.forall_iff,
              iff_true] at handles ⊢
            rw [giveUp]
            simp only [freeElement]
            rw [live]
            exact Iff.mpr (books.released unlinked rfl rfl rfl rfl rfl rfl) handles

theorem unmap_iff (books : Books others shm) (ionfd : ℤ) (munmapOk : Bool) :
    Books others (shmStep shm (.unmap ionfd munmapOk)) ↔ ShmOk shm (.unmap ionfd munmapOk) := by
  have live := books.unlink_live (fun buffer => buffer.handle = (ionfd % 2 ^ 32).toNat)
    (fun element => element.ionHdl = (ionfd % 2 ^ 32).toNat) fun _ => rfl
  simp only [shmStep, sharedMemoryUnmap, ShmOk]
  cases search : unlinkFirst (fun element => element.ionHdl = (ionfd % 2 ^ 32).toNat)
      shm.pAllocMemory with
  | none =>
      rw [search] at live
      rw [giveUp, live]
      exact iff_of_true books fun found member => by cases member
  | some found =>
      obtain ⟨element, rest⟩ := found
      have unlinked := unlinkFirst_perm search
      have handles := (conserved_perm (heldHandles_perm unlinked)).mp books.handles
      rw [search] at live
      simp only [Option.mem_some_iff, forall_eq']
      cases munmapOk with
      | false =>
          rw [if_pos (by simp), giveUp, live]
          exact iff_of_false (books.not_unlinked unlinked rfl rfl rfl) (by simp)
      | true =>
          rw [if_neg (by simp), giveUp]
          simp only [freeElement]
          rw [live]
          refine Iff.trans (books.released unlinked rfl rfl rfl rfl rfl rfl) ?_
          by_cases owned : element.owner = true
          · rw [if_pos owned] at handles
            exact iff_of_false handles.not_drop (by simp [owned])
          · rw [if_neg owned] at handles
            exact iff_of_true handles (by simpa using owned)

/-- A call keeps the books exactly when it meets its condition. -/
theorem books_step_iff (books : Books others shm) (op : ShmOp) :
    Books others (shmStep shm op) ↔ ShmOk shm op := by
  cases op with
  | alloc size memoryType alloc map => exact alloc_iff books size memoryType alloc map
  | map size ionHdl map => exact map_iff books size ionHdl map
  | free pBuffer munmapOk => exact free_iff books pBuffer munmapOk
  | unmap ionfd munmapOk => exact unmap_iff books ionfd munmapOk

theorem books_open (memType : SecureMemoryType) (others : ℤ) :
    Books others (sharedMemoryOpen memType others) where
  handles := conserved_nil
  elements := conserved_nil
  listed := rfl
  counted := (Int.add_zero others).symm

/-- From an opened device on, what is allocated is freed once, at the latest when the device is
closed, and the list is what the client holds, after each call of a sequence exactly when each
call meets its condition. -/
theorem shared_memory_frees_iff (memType : SecureMemoryType) (others : ℤ) (ops : List ShmOp) :
    Always (fun shm op => some (shmStep shm op)) (FreesWhatItAllocated · others)
        (sharedMemoryOpen memType others) ops ↔
      Along (fun shm op => some (shmStep shm op)) ShmOk (sharedMemoryOpen memType others) ops := by
  refine always_iff_along (Books others) (fun shm books => freesWhatItAllocated_iff.mpr books)
    (fun shm op next books _ ok taken => ?_) (fun shm op books _ refused => ?_)
    (books_open memType others) ops (along_anyStep _ ops)
  · cases taken
    exact (books_step_iff books op).mpr ok
  · exact ⟨_, rfl, fun frees =>
      refused ((books_step_iff books op).mp (freesWhatItAllocated_iff.mp frees))⟩

/-- A buffer of an ION device that is freed by its address is freed as a buffer of a DRM device. -/
theorem ion_buffer_freed_as_drm :
    ¬Always (fun shm op => some (shmStep shm op)) (FreesWhatItAllocated · 0)
      (sharedMemoryOpen .ion 0)
      [.alloc 4096 .system ⟨0, 7⟩ ⟨0, 3, 0, 0, some 4096⟩, .free (.mapped 4096) true] := by
  rintro ⟨-, always⟩
  have frees := (((always _ rfl).2 _ rfl).handle_once ⟨.drm, 7⟩)
  exact absurd frees (by decide)

end Omx
end RockchipSoc
