import RockchipSoc.Rga.Import

/-!
# Reference counts of the table

`refcount` reads the kref of the buffer at an address, zero when no buffer of the table is there.
The lemmas give its change under every operation on the table.
-/

namespace RockchipSoc
namespace Rga

variable {cores : List Nat} {mm : RgaMm} {buffer : RgaInternalBuffer} {ptr : Nat}

/-- The kref of the buffer at an address. -/
def refcount (mm : RgaMm) (ptr : Nat) : Nat :=
  ((mm.memoryIdr.find? fun buffer => buffer.ptr == ptr).map RgaInternalBuffer.refcount).getD 0

/-- Addresses are distinct and were allocated, and every buffer of the table is referenced. -/
structure MmOk (mm : RgaMm) : Prop where
  ascending : IdTable.Ascending RgaInternalBuffer.handle 1 mm.memoryIdr
  distinct : mm.memoryIdr.Pairwise fun a b => a.ptr ≠ b.ptr
  allocated : ∀ buffer ∈ mm.memoryIdr, buffer.ptr < mm.nextPtr
  referenced : ∀ buffer ∈ mm.memoryIdr, 1 ≤ buffer.refcount

theorem mmOk_init : MmOk rgaMmInit :=
  ⟨trivial, List.Pairwise.nil, fun _ member => (by cases member), fun _ member => (by cases member)⟩

theorem eq_of_ptr {table : List RgaInternalBuffer} {a b : RgaInternalBuffer}
    (distinct : table.Pairwise fun a b => a.ptr ≠ b.ptr) (left : a ∈ table) (right : b ∈ table)
    (same : a.ptr = b.ptr) : a = b := by
  induction table with
  | nil => cases left
  | cons head tail ih =>
      obtain ⟨first, rest⟩ := List.pairwise_cons.mp distinct
      rcases List.mem_cons.mp left with rfl | leftTail
      · rcases List.mem_cons.mp right with rfl | rightTail
        · rfl
        · exact absurd same (first b rightTail)
      · rcases List.mem_cons.mp right with rfl | rightTail
        · exact absurd same.symm (first a leftTail)
        · exact ih rest leftTail rightTail

theorem MmOk.refcount_of_mem (ok : MmOk mm) (member : buffer ∈ mm.memoryIdr) :
    refcount mm buffer.ptr = buffer.refcount := by
  have some : ∃ found, mm.memoryIdr.find? (fun other => other.ptr == buffer.ptr) = some found := by
    rw [← Option.isSome_iff_exists, List.find?_isSome]
    exact ⟨buffer, member, by simp⟩
  obtain ⟨found, isFound⟩ := some
  have same : found = buffer := eq_of_ptr ok.distinct (List.mem_of_find?_eq_some isFound) member
    (by simpa using List.find?_some isFound)
  rw [refcount, isFound, same]
  rfl

theorem refcount_of_not_mem (none : ∀ buffer ∈ mm.memoryIdr, buffer.ptr ≠ ptr) :
    refcount mm ptr = 0 := by
  have missing : mm.memoryIdr.find? (fun buffer => buffer.ptr == ptr) = .none :=
    List.find?_eq_none.mpr fun buffer member => by simpa using none buffer member
  rw [refcount, missing]
  rfl

/-- A positive kref is that of a buffer of the table. -/
theorem exists_of_refcount (positive : 0 < refcount mm ptr) :
    ∃ buffer ∈ mm.memoryIdr, buffer.ptr = ptr := by
  by_contra none
  simp only [not_exists, not_and] at none
  rw [refcount_of_not_mem none] at positive
  omega

theorem MmOk.refcount_pos_iff (ok : MmOk mm) :
    0 < refcount mm ptr ↔ ∃ buffer ∈ mm.memoryIdr, buffer.ptr = ptr := by
  refine ⟨exists_of_refcount, ?_⟩
  rintro ⟨buffer, member, rfl⟩
  rw [ok.refcount_of_mem member]
  exact ok.referenced buffer member

/-! ## Getting a reference -/

theorem MmOk.krefGet (ok : MmOk mm) (ptr : Nat) : MmOk (krefGet mm ptr) := by
  have samePtr : ∀ b : RgaInternalBuffer,
      (if b.ptr = ptr then { b with refcount := b.refcount + 1 } else b).ptr = b.ptr := by
    intro b
    split <;> rfl
  constructor
  · have asFilterMap : (Rga.krefGet mm ptr).memoryIdr = mm.memoryIdr.filterMap fun b => some <|
        if b.ptr = ptr then { b with refcount := b.refcount + 1 } else b := by
      rw [List.filterMap_eq_map']
      rfl
    rw [asFilterMap]
    refine ok.ascending.filterMap fun b b' kept => ?_
    obtain rfl := Option.some.inj kept
    split <;> rfl
  · refine List.pairwise_map.mpr (ok.distinct.imp fun {a b} different => ?_)
    rw [samePtr, samePtr]
    exact different
  · intro b' member
    obtain ⟨b, old, rfl⟩ := List.mem_map.mp member
    rw [samePtr]
    exact ok.allocated b old
  · intro b' member
    obtain ⟨b, old, rfl⟩ := List.mem_map.mp member
    split
    · exact Nat.le_add_left 1 _
    · exact ok.referenced b old

theorem MmOk.refcount_krefGet (ok : MmOk mm) (member : buffer ∈ mm.memoryIdr) (ptr : Nat) :
    refcount (Rga.krefGet mm buffer.ptr) ptr =
      refcount mm ptr + if ptr = buffer.ptr then 1 else 0 := by
  by_cases listed : ∃ b ∈ mm.memoryIdr, b.ptr = ptr
  · obtain ⟨b, inside, rfl⟩ := listed
    have moved : (if b.ptr = buffer.ptr then { b with refcount := b.refcount + 1 } else b) ∈
      (Rga.krefGet mm buffer.ptr).memoryIdr := List.mem_map_of_mem inside
    rw [ok.refcount_of_mem inside]
    split at moved
    · next same =>
        rw [if_pos same]
        exact (ok.krefGet buffer.ptr).refcount_of_mem moved
    · next different =>
        rw [if_neg different]
        exact (ok.krefGet buffer.ptr).refcount_of_mem moved
  · simp only [not_exists, not_and] at listed
    have other : ptr ≠ buffer.ptr := fun same => listed buffer member same.symm
    rw [if_neg other, refcount_of_not_mem listed, refcount_of_not_mem]
    intro b' inside
    obtain ⟨b, old, rfl⟩ := List.mem_map.mp inside
    split <;> exact listed b old

/-! ## Putting a reference -/

theorem MmOk.krefPut (ok : MmOk mm) (ptr : Nat) : MmOk (krefPut mm ptr) := by
  have kept : ∀ b b' : RgaInternalBuffer, (if b.ptr = ptr then
      if b.refcount ≤ 1 then none else some { b with refcount := b.refcount - 1 } else some b) =
        some b' → b'.ptr = b.ptr ∧ b'.handle = b.handle ∧ (1 ≤ b.refcount → 1 ≤ b'.refcount) := by
    intro b b' same
    split at same
    · split at same
      · cases same
      · next more =>
          obtain rfl := Option.some.inj same
          exact ⟨rfl, rfl, fun _ => show 1 ≤ b.refcount - 1 by omega⟩
    · obtain rfl := Option.some.inj same
      exact ⟨rfl, rfl, id⟩
  constructor
  · exact ok.ascending.filterMap fun b b' same => (kept b b' same).2.1
  · refine ok.distinct.filterMap _ fun a a' different b same b' same' => ?_
    rw [(kept a b same).1, (kept a' b' same').1]
    exact different
  · intro b' member
    obtain ⟨b, old, same⟩ := List.mem_filterMap.mp member
    rw [(kept b b' same).1]
    exact ok.allocated b old
  · intro b' member
    obtain ⟨b, old, same⟩ := List.mem_filterMap.mp member
    exact (kept b b' same).2.2 (ok.referenced b old)

theorem MmOk.refcount_krefPut (ok : MmOk mm) (member : buffer ∈ mm.memoryIdr) (ptr : Nat) :
    refcount (Rga.krefPut mm buffer.ptr) ptr + (if ptr = buffer.ptr then 1 else 0) =
      refcount mm ptr := by
  by_cases same : ptr = buffer.ptr
  · subst same
    have positive := ok.referenced buffer member
    rw [if_pos rfl, ok.refcount_of_mem member]
    by_cases last : buffer.refcount ≤ 1
    · rw [refcount_of_not_mem]
      · omega
      · intro b' inside
        obtain ⟨b, old, kept⟩ := List.mem_filterMap.mp inside
        split at kept
        · next same =>
            rw [eq_of_ptr ok.distinct old member same, if_pos last] at kept
            cases kept
        · next different =>
            obtain rfl := Option.some.inj kept
            exact different
    · have lowered : { buffer with refcount := buffer.refcount - 1 } ∈
          (Rga.krefPut mm buffer.ptr).memoryIdr :=
        List.mem_filterMap.mpr ⟨buffer, member, by rw [if_pos rfl, if_neg last]⟩
      have count : refcount (Rga.krefPut mm buffer.ptr) buffer.ptr = buffer.refcount - 1 :=
        (ok.krefPut buffer.ptr).refcount_of_mem lowered
      omega
  · rw [if_neg same, Nat.add_zero]
    by_cases listed : ∃ b ∈ mm.memoryIdr, b.ptr = ptr
    · obtain ⟨b, inside, rfl⟩ := listed
      have still : b ∈ (Rga.krefPut mm buffer.ptr).memoryIdr :=
        List.mem_filterMap.mpr ⟨b, inside, if_neg same⟩
      rw [(ok.krefPut buffer.ptr).refcount_of_mem still, ok.refcount_of_mem inside]
    · simp only [not_exists, not_and] at listed
      rw [refcount_of_not_mem listed, refcount_of_not_mem]
      intro b' inside
      obtain ⟨b, old, kept⟩ := List.mem_filterMap.mp inside
      split at kept
      · split at kept
        · cases kept
        · obtain rfl := Option.some.inj kept
          exact listed b old
      · obtain rfl := Option.some.inj kept
        exact listed b old

/-! ## Importing -/

theorem rgaMmMapDmaBuffer_keeps {env : ImportEnv} {mapped : RgaInternalBuffer}
    (maps : rgaMmMapDmaBuffer cores env buffer = .ok mapped) :
    mapped.ptr = buffer.ptr ∧ mapped.refcount = buffer.refcount := by
  rw [rgaMmMapDmaBuffer] at maps
  split at maps
  · cases maps
  · split at maps
    · cases maps
    · obtain rfl := Except.ok.inj maps
      exact ⟨rfl, rfl⟩

theorem rgaMmMapVirtAddr_keeps {env : ImportEnv} {external : RgaExternalBuffer}
    {mapped : RgaInternalBuffer}
    (maps : rgaMmMapVirtAddr cores env external buffer = .ok mapped) :
    mapped.ptr = buffer.ptr ∧ mapped.refcount = buffer.refcount := by
  rw [rgaMmMapVirtAddr] at maps
  split at maps
  · cases maps
  · split at maps
    · cases maps
    · split at maps
      · cases maps
      · split at maps
        · cases maps
        · split at maps
          · obtain rfl := Except.ok.inj maps
            exact ⟨rfl, rfl⟩
          · split at maps
            · cases maps
            · obtain rfl := Except.ok.inj maps
              exact ⟨rfl, rfl⟩

/-- A mapped buffer is the new one, with one reference. -/
theorem rgaMmMapBuffer_keeps {env : ImportEnv} {external : RgaExternalBuffer}
    (maps : rgaMmMapBuffer cores env external ptr = .ok buffer) :
    buffer.ptr = ptr ∧ buffer.refcount = 1 := by
  simp only [rgaMmMapBuffer] at maps
  split at maps
  · cases made : rgaMmMapDmaBuffer cores env (freshBuffer external ptr) with
    | error ret => simp [made, Except.map] at maps
    | ok mapped =>
        rw [made] at maps
        obtain rfl := Except.ok.inj maps
        exact rgaMmMapDmaBuffer_keeps made
  · cases made : rgaMmMapVirtAddr cores env external (freshBuffer external ptr) with
    | error ret => simp [made, Except.map] at maps
    | ok mapped =>
        rw [made] at maps
        obtain rfl := Except.ok.inj maps
        exact rgaMmMapVirtAddr_keeps made
  · obtain rfl := Except.ok.inj maps
    exact ⟨rfl, rfl⟩
  · cases maps

/-- What an import does to the table: it references the buffer that its handle finds, or leaves
all counts alone. -/
inductive Imports (mm : RgaMm) (ret : Int) (mm' : RgaMm) : Prop
  | refused (negative : ret < 0) (table : mm'.memoryIdr = mm.memoryIdr)
      (older : mm.nextPtr ≤ mm'.nextPtr)
  | found {buffer : RgaInternalBuffer} (member : buffer ∈ mm.memoryIdr)
      (handle : ret = buffer.handle) (got : mm' = krefGet mm buffer.ptr)
  | entered {buffer : RgaInternalBuffer} (fresh : buffer.ptr = mm.nextPtr)
      (one : buffer.refcount = 1)
      (allocated : buffer.handle = IdTable.lowestFree RgaInternalBuffer.handle 1 mm.memoryIdr)
      (handle : ret = buffer.handle)
      (table : mm'.memoryIdr = IdTable.insert RgaInternalBuffer.handle buffer mm.memoryIdr)
      (next : mm'.nextPtr = mm.nextPtr + 1)

theorem enomem_negative : -enomem < 0 := by decide

theorem imports_rgaMmImportBuffer (cores : List Nat) (env : ImportEnv) (mm : RgaMm)
    (external : RgaExternalBuffer) : Imports mm (rgaMmImportBuffer cores env mm external).1
      (rgaMmImportBuffer cores env mm external).2 := by
  simp only [rgaMmImportBuffer]
  split
  · next b found => exact .found (List.mem_of_find?_eq_some found) rfl rfl
  · split
    · exact .refused enomem_negative rfl (Nat.le_refl _)
    · split
      · next ret error =>
          refine .refused ?_ rfl (Nat.le_refl _)
          rcases rgaMmMapBuffer_cases cores (fun _ => 0) env external mm.nextPtr with
            ⟨ret', error', negative⟩ | ⟨b, mapped, _⟩
          · rw [error] at error'
            rwa [Except.error.inj error']
          · rw [error] at mapped
            cases mapped
      · next b mapped =>
          obtain ⟨fresh, one⟩ := rgaMmMapBuffer_keeps mapped
          split
          · exact .refused enomem_negative rfl (Nat.le_succ _)
          · let handle := IdTable.lowestFree RgaInternalBuffer.handle 1 mm.memoryIdr
            have entered : { b with handle := handle }.ptr = mm.nextPtr := fresh
            exact .entered entered one rfl rfl rfl rfl

/-- The buffer that a successful import returns. -/
def importedPtr (ret : Int) (mm : RgaMm) : Option Nat :=
  (if ret < 0 then none else rgaMmLookupHandle mm ret.toNat).map RgaInternalBuffer.ptr

theorem MmOk.imports {ret : Int} {mm' : RgaMm} (ok : MmOk mm) (imports : Imports mm ret mm') :
    MmOk mm' ∧ ∀ ptr, refcount mm' ptr =
      refcount mm ptr + if importedPtr ret mm' = some ptr then 1 else 0 := by
  cases imports with
  | refused negative table older =>
      refine ⟨⟨table ▸ ok.ascending, table ▸ ok.distinct, fun b member => ?_, ?_⟩, fun ptr => ?_⟩
      · rw [table] at member
        exact Nat.lt_of_lt_of_le (ok.allocated b member) older
      · rw [table]
        exact ok.referenced
      · simp [importedPtr, negative, refcount, table]
  | @found b member handle got =>
      subst got
      refine ⟨ok.krefGet b.ptr, fun ptr => ?_⟩
      have lookup : rgaMmLookupHandle mm b.handle = some b := ok.ascending.find_key member
      have imported : importedPtr ret (Rga.krefGet mm b.ptr) = some b.ptr := by
        simp [importedPtr, handle, lookupHandle_krefGet, lookup]
      rw [ok.refcount_krefGet member, imported]
      simp only [Option.some.injEq, eq_comm]
  | @entered b fresh one allocated handle table next =>
      have inside : b ∈ mm'.memoryIdr := table ▸ IdTable.mem_insert.mpr (Or.inl rfl)
      have ascending : IdTable.Ascending RgaInternalBuffer.handle 1 mm'.memoryIdr :=
        table ▸ ok.ascending.insert allocated
      have ok' : MmOk mm' := by
        refine ⟨ascending, ?_, fun a member => ?_, fun a member => ?_⟩
        · rw [table, (IdTable.insert_perm b mm.memoryIdr).pairwise_iff
            fun different => Ne.symm different]
          refine List.pairwise_cons.mpr ⟨fun a member => ?_, ok.distinct⟩
          have := ok.allocated a member
          omega
        · rw [table] at member
          rcases IdTable.mem_insert.mp member with rfl | old
          · omega
          · have := ok.allocated a old
            omega
        · rw [table] at member
          rcases IdTable.mem_insert.mp member with rfl | old
          · omega
          · exact ok.referenced a old
      refine ⟨ok', fun ptr => ?_⟩
      have lookup : rgaMmLookupHandle mm' b.handle = some b := ascending.find_key inside
      have imported : importedPtr ret mm' = some b.ptr := by
        simp [importedPtr, handle, lookup]
      rw [imported]
      by_cases same : b.ptr = ptr
      · subst same
        rw [if_pos rfl, ok'.refcount_of_mem inside, one, refcount_of_not_mem]
        intro a member
        have := ok.allocated a member
        omega
      · rw [if_neg (by simpa using same), Nat.add_zero]
        by_cases listed : ∃ a ∈ mm.memoryIdr, a.ptr = ptr
        · obtain ⟨a, member, rfl⟩ := listed
          have still : a ∈ mm'.memoryIdr := table ▸ IdTable.mem_insert.mpr (Or.inr member)
          rw [ok'.refcount_of_mem still, ok.refcount_of_mem member]
        · simp only [not_exists, not_and] at listed
          rw [refcount_of_not_mem listed, refcount_of_not_mem]
          intro a member
          rw [table] at member
          rcases IdTable.mem_insert.mp member with rfl | old
          · exact same
          · exact listed a old

end Rga
end RockchipSoc
