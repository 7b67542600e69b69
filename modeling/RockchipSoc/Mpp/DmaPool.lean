import RockchipSoc.Foundation.LabelledRun
import Mathlib.Data.List.Perm.Basic
import Mathlib.Data.List.Nodup
import Mathlib.Algebra.Group.Int.Defs

/-!
# The buffer pool of a DMA session

The buffers of a `mpp_dma_session` move between `used_list` and `unused_list`.  A new buffer has
two references: one for the caller and one that the pool keeps.  Trimming drops the reference of
the pool of the oldest buffer, and drops it again when that buffer is still the oldest.
-/

namespace RockchipSoc
namespace Mpp
namespace DmaPool

open LabelledRun

/-- `struct mpp_dma_buffer`, with the number of imports, releases and trims since the buffer was
taken from the unused list. -/
structure MppDmaBuffer where
  dmabuf : Nat := 0
  ref : Nat := 0
  lastUsed : Nat := 0
  /-- The attachment is there and mapped. -/
  mapped : Bool := false
  imports : Nat := 0
  releases : Nat := 0
  trims : Nat := 0

structure MppDmaSession where
  usedList : List Nat
  unusedList : List Nat
  dmaBufs : Nat → MppDmaBuffer
  maxBuffers : Nat
  bufferCount : Int

/-- `MPP_SESSION_MAX_BUFFERS`. -/
def mppSessionMaxBuffers : Nat := 60

def mppDmaSessionCreate (maxBuffers : Nat) : MppDmaSession where
  usedList := []
  unusedList := List.range mppSessionMaxBuffers
  dmaBufs := fun _ => {}
  maxBuffers := if mppSessionMaxBuffers < maxBuffers then mppSessionMaxBuffers else maxBuffers
  bufferCount := 0

def setBuffer (s : MppDmaSession) (b : Nat) (buffer : MppDmaBuffer) : MppDmaSession :=
  { s with dmaBufs := fun k => if k = b then buffer else s.dmaBufs k }

/-- `mpp_dma_find_buffer_fd`: `dmabuf` is what the file descriptor stands for, if anything. -/
def mppDmaFindBufferFd (s : MppDmaSession) (dmabuf : Option Nat) : Option Nat :=
  dmabuf.bind fun d => s.usedList.find? fun b => (s.dmaBufs b).dmabuf == d

def mppDmaReleaseBuffer (s : MppDmaSession) (b : Nat) : MppDmaSession :=
  { setBuffer s b { s.dmaBufs b with mapped := false } with
    bufferCount := s.bufferCount - 1
    usedList := s.usedList.erase b
    unusedList := s.unusedList.erase b ++ [b] }

/-- `kref_put`; a put without a reference releases nothing. -/
def krefPut (s : MppDmaSession) (b : Nat) : MppDmaSession :=
  let put := setBuffer s b { s.dmaBufs b with ref := (s.dmaBufs b).ref - 1 }
  if (s.dmaBufs b).ref = 1 then mppDmaReleaseBuffer put b else put

/-- The search for the oldest buffer; a time of 0 counts as not set. -/
def olderBuffer (s : MppDmaSession) (oldest : Nat × Option Nat) (b : Nat) : Nat × Option Nat :=
  if oldest.1 = 0 ∨ (s.dmaBufs b).lastUsed < oldest.1 then ((s.dmaBufs b).lastUsed, some b)
  else oldest

def oldestBuffer (s : MppDmaSession) : Option Nat :=
  (s.usedList.foldl (olderBuffer s) (0, none)).2

/-- The buffer that `mpp_dma_remove_extra_buffer` puts; the count is compared as an unsigned
number. -/
def extraBuffer (s : MppDmaSession) : Option Nat :=
  if (s.maxBuffers : Int) < s.bufferCount % 2 ^ 32 then oldestBuffer s else none

def mppDmaRemoveExtraBuffer (s : MppDmaSession) : MppDmaSession :=
  match extraBuffer s with
  | none => s
  | some b => krefPut (setBuffer s b { s.dmaBufs b with trims := (s.dmaBufs b).trims + 1 }) b

/-- `mpp_dma_release`. -/
def mppDmaRelease (s : MppDmaSession) (b : Nat) : MppDmaSession :=
  krefPut (setBuffer s b { s.dmaBufs b with releases := (s.dmaBufs b).releases + 1 }) b

def mppDmaReleaseFd (s : MppDmaSession) (dmabuf : Option Nat) : MppDmaSession :=
  match mppDmaFindBufferFd s dmabuf with
  | none => s
  | some b => mppDmaRelease s b

/-- What the environment decides during an import. -/
structure ImportChoice where
  /-- `ktime_get`. -/
  now : Nat := 0
  attaches : Bool := true
  maps : Bool := true

/-- The part of `mpp_dma_import_fd` for a buffer that is not in the session: the first unused one
is taken, and goes back to the end if the attachment fails. -/
def importNew (s : MppDmaSession) (d : Nat) (choice : ImportChoice) : MppDmaSession :=
  match s.unusedList with
  | [] => s
  | b :: rest =>
      let taken := { s.dmaBufs b with dmabuf := d, lastUsed := choice.now }
      if choice.attaches && choice.maps then
        { setBuffer s b { taken with
            mapped := true, ref := 2, imports := 1, releases := 0, trims := 0 } with
          unusedList := rest
          usedList := s.usedList ++ [b]
          bufferCount := s.bufferCount + 1 }
      else { setBuffer s b taken with unusedList := rest ++ [b] }

/-- The part of `mpp_dma_import_fd` for a buffer that is in the session. -/
def importAgain (s : MppDmaSession) (b : Nat) (choice : ImportChoice) : MppDmaSession :=
  setBuffer s b { s.dmaBufs b with
    ref := (s.dmaBufs b).ref + 1, lastUsed := choice.now, imports := (s.dmaBufs b).imports + 1 }

/-- `mpp_dma_import_fd` behind the trimming. -/
def importTrimmed (s : MppDmaSession) (dmabuf : Option Nat) (choice : ImportChoice) :
    MppDmaSession :=
  match (mppDmaFindBufferFd s dmabuf).filter (fun b => (s.dmaBufs b).ref != 0), dmabuf with
  | some b, _ => importAgain s b choice
  | none, none => s
  | none, some d => importNew s d choice

def mppDmaImportFd (s : MppDmaSession) (dmabuf : Option Nat) (choice : ImportChoice) :
    MppDmaSession :=
  importTrimmed (mppDmaRemoveExtraBuffer s) dmabuf choice

inductive PoolLabel
  | importFd (dmabuf : Option Nat) (choice : ImportChoice)
  | release (b : Nat)
  | releaseFd (dmabuf : Option Nat)
  | trim

def poolStep (s : MppDmaSession) : PoolLabel → Option MppDmaSession
  | .importFd dmabuf choice => some (mppDmaImportFd s dmabuf choice)
  | .release b => if b < mppSessionMaxBuffers then some (mppDmaRelease s b) else none
  | .releaseFd dmabuf => some (mppDmaReleaseFd s dmabuf)
  | .trim => some (mppDmaRemoveExtraBuffer s)

/-! ## The property -/

/-- The lists of the pool between two calls. -/
structure PoolLists (s : MppDmaSession) : Prop where
  partition : (s.usedList ++ s.unusedList).Perm (List.range mppSessionMaxBuffers)
  count : s.bufferCount = s.usedList.length
  distinct : (s.usedList.map fun b => (s.dmaBufs b).dmabuf).Nodup

/-- The lists are right, and a buffer that is held stays in use. -/
structure PoolKept (s : MppDmaSession) : Prop extends PoolLists s where
  held : ∀ b < mppSessionMaxBuffers, (s.dmaBufs b).releases < (s.dmaBufs b).imports →
    b ∈ s.usedList ∧ (s.dmaBufs b).mapped = true

/-- Trimming finds the reference of the pool: the buffer was not trimmed since it was taken from
the unused list. -/
def TrimsOnce (s : MppDmaSession) : PoolLabel → Prop
  | .importFd _ _ | .trim => ∀ b ∈ extraBuffer s, (s.dmaBufs b).trims = 0
  | .release _ | .releaseFd _ => True

instance (s : MppDmaSession) : (label : PoolLabel) → Decidable (TrimsOnce s label)
  | .importFd _ _ | .trim => inferInstanceAs (Decidable (∀ b ∈ extraBuffer s, _ = 0))
  | .release _ | .releaseFd _ => isTrue trivial

/-! ## The lists -/

variable {s s' : MppDmaSession} {b k d : Nat}

/-- With the lists: the buffers in use have a reference and are mapped, the others have no
reference. -/
structure PoolInv (s : MppDmaSession) : Prop extends PoolLists s where
  alive : ∀ b ∈ s.usedList, 1 ≤ (s.dmaBufs b).ref ∧ (s.dmaBufs b).mapped = true
  idle : ∀ b ∈ s.unusedList, (s.dmaBufs b).ref = 0

@[simp] theorem setBuffer_same (s : MppDmaSession) (b : Nat) (buffer : MppDmaBuffer) :
    (setBuffer s b buffer).dmaBufs b = buffer := if_pos rfl

theorem setBuffer_other (s : MppDmaSession) (buffer : MppDmaBuffer) (other : k ≠ b) :
    (setBuffer s b buffer).dmaBufs k = s.dmaBufs k := if_neg other

theorem PoolLists.nodup (lists : PoolLists s) : (s.usedList ++ s.unusedList).Nodup :=
  lists.partition.nodup_iff.mpr List.nodup_range

theorem PoolLists.unused_of_used (lists : PoolLists s) (used : b ∈ s.usedList) :
    b ∉ s.unusedList := fun unused =>
  (List.nodup_append.mp lists.nodup).2.2 b used b unused rfl

theorem PoolLists.listed (lists : PoolLists s) (slot : b < mppSessionMaxBuffers) :
    b ∈ s.usedList ∨ b ∈ s.unusedList :=
  List.mem_append.mp (lists.partition.mem_iff.mpr (List.mem_range.mpr slot))

theorem poolInv_create (maxBuffers : Nat) : PoolInv (mppDmaSessionCreate maxBuffers) where
  partition := .rfl
  count := rfl
  distinct := List.nodup_nil
  alive _ used := nomatch used
  idle _ _ := rfl

/-- The dma-bufs of a list do not change with a buffer outside it. -/
theorem map_dmabuf_setBuffer (list : List Nat) (buffer : MppDmaBuffer)
    (same : b ∈ list → buffer.dmabuf = (s.dmaBufs b).dmabuf) :
    list.map (fun k => ((setBuffer s b buffer).dmaBufs k).dmabuf) =
      list.map fun k => (s.dmaBufs k).dmabuf := by
  refine List.map_congr_left fun k member => ?_
  by_cases here : k = b
  · subst here
    rw [setBuffer_same, same member]
  · rw [setBuffer_other s buffer here]

/-- A buffer changes what the lists do not depend on. -/
theorem PoolInv.set (inv : PoolInv s) (buffer : MppDmaBuffer)
    (dmabuf : b ∈ s.usedList → buffer.dmabuf = (s.dmaBufs b).dmabuf)
    (alive : b ∈ s.usedList → 1 ≤ buffer.ref ∧ buffer.mapped = true)
    (idle : b ∈ s.unusedList → buffer.ref = 0) : PoolInv (setBuffer s b buffer) where
  partition := inv.partition
  count := inv.count
  distinct := by
    change (s.usedList.map fun k => ((setBuffer s b buffer).dmaBufs k).dmabuf).Nodup
    rw [map_dmabuf_setBuffer _ _ dmabuf]
    exact inv.distinct
  alive k used := by
    by_cases here : k = b
    · subst here
      rw [setBuffer_same]
      exact alive used
    · rw [setBuffer_other s buffer here]
      exact inv.alive k used
  idle k unused := by
    by_cases here : k = b
    · subst here
      rw [setBuffer_same]
      exact idle unused
    · rw [setBuffer_other s buffer here]
      exact inv.idle k unused

/-- The last reference moves a buffer to the unused list. -/
theorem poolInv_mppDmaReleaseBuffer (inv : PoolInv s) (used : b ∈ s.usedList) :
    PoolInv (mppDmaReleaseBuffer (setBuffer s b { s.dmaBufs b with ref := 0 }) b) := by
  have unused := inv.unused_of_used used
  have nodup := (List.nodup_append.mp inv.nodup).1
  have others : ∀ k ∈ s.usedList.erase b, k ≠ b := fun k member same =>
    nodup.not_mem_erase (same ▸ member)
  have buffers : ∀ k, k ≠ b → (mppDmaReleaseBuffer
      (setBuffer s b { s.dmaBufs b with ref := 0 }) b).dmaBufs k = s.dmaBufs k := fun k other =>
    (setBuffer_other _ _ other).trans (setBuffer_other _ _ other)
  refine ⟨⟨?_, ?_, ?_⟩, fun k member => ?_, fun k member => ?_⟩
  · change (s.usedList.erase b ++ (s.unusedList.erase b ++ [b])).Perm _
    rw [List.erase_of_not_mem unused]
    have moved : (s.usedList.erase b ++ (s.unusedList ++ [b])).Perm
        (b :: (s.usedList.erase b ++ s.unusedList)) := by
      rw [← List.append_assoc]
      exact List.perm_append_singleton b _
    have back : (b :: (s.usedList.erase b ++ s.unusedList)).Perm (s.usedList ++ s.unusedList) :=
      (List.perm_cons_erase used).symm.append_right s.unusedList
    exact moved.trans (back.trans inv.partition)
  · change s.bufferCount - 1 = ((s.usedList.erase b).length : Int)
    have some := List.length_pos_of_mem used
    rw [inv.count, List.length_erase_of_mem used]
    omega
  · change ((s.usedList.erase b).map fun k => ((mppDmaReleaseBuffer
      (setBuffer s b { s.dmaBufs b with ref := 0 }) b).dmaBufs k).dmabuf).Nodup
    rw [List.map_congr_left fun k member => by rw [buffers k (others k member)]]
    exact inv.distinct.sublist (List.Sublist.map _ List.erase_sublist)
  · rw [buffers k (others k member)]
    exact inv.alive k (List.mem_of_mem_erase member)
  · by_cases here : k = b
    · subst here
      exact (congrArg MppDmaBuffer.ref (setBuffer_same ..)).trans
        (congrArg MppDmaBuffer.ref (setBuffer_same ..))
    · rw [buffers k here]
      refine inv.idle k ?_
      rcases List.mem_append.mp member with old | new
      · exact List.mem_of_mem_erase old
      · exact absurd (List.mem_singleton.mp new) here

theorem poolInv_krefPut (inv : PoolInv s) (slot : b < mppSessionMaxBuffers) :
    PoolInv (krefPut s b) := by
  rw [krefPut]
  rcases inv.listed slot with used | unused
  · split
    · next last =>
        rw [last]
        exact poolInv_mppDmaReleaseBuffer inv used
    · next more =>
        have alive := inv.alive b used
        refine inv.set _ (fun _ => rfl) (fun _ => ⟨?_, alive.2⟩) fun unused =>
          absurd unused (inv.unused_of_used used)
        change 1 ≤ (s.dmaBufs b).ref - 1
        omega
  · have none := inv.idle b unused
    rw [if_neg (by omega)]
    exact inv.set _ (fun _ => rfl) (fun used => absurd unused (inv.unused_of_used used))
      fun _ => by rw [none]

theorem PoolLists.slot (lists : PoolLists s) (listed : b ∈ s.usedList ++ s.unusedList) :
    b < mppSessionMaxBuffers := List.mem_range.mp (lists.partition.mem_iff.mp listed)

theorem PoolLists.slot_of_used (lists : PoolLists s) (used : b ∈ s.usedList) :
    b < mppSessionMaxBuffers := lists.slot (List.mem_append_left _ used)

/-- The oldest buffer is one of those that were searched. -/
theorem mem_of_foldl_olderBuffer (list : List Nat) (oldest : Nat × Option Nat)
    (found : (list.foldl (olderBuffer s) oldest).2 = some b) : b ∈ list ∨ oldest.2 = some b := by
  induction list generalizing oldest with
  | nil => exact Or.inr found
  | cons first list ih =>
      rcases ih _ found with later | here
      · exact Or.inl (List.mem_cons_of_mem first later)
      · rw [olderBuffer] at here
        split at here
        · exact Or.inl (Option.some.inj here ▸ List.mem_cons_self)
        · exact Or.inr here

theorem extraBuffer_used (found : extraBuffer s = some b) : b ∈ s.usedList := by
  rw [extraBuffer] at found
  split at found
  · exact (mem_of_foldl_olderBuffer _ _ found).resolve_right (fun none => nomatch none)
  · cases found

theorem mppDmaFindBufferFd_used {dmabuf : Option Nat}
    (found : mppDmaFindBufferFd s dmabuf = some b) : b ∈ s.usedList := by
  obtain ⟨d, _, searched⟩ := Option.bind_eq_some_iff.mp found
  exact List.mem_of_find?_eq_some searched

/-- The numbers of imports, releases and trims do not matter to the lists. -/
theorem PoolInv.mark (inv : PoolInv s) (b imports releases trims : Nat) :
    PoolInv (setBuffer s b { s.dmaBufs b with
      imports := imports, releases := releases, trims := trims }) :=
  inv.set _ (fun _ => rfl) (inv.alive b) (inv.idle b)

theorem poolInv_mppDmaRemoveExtraBuffer (inv : PoolInv s) :
    PoolInv (mppDmaRemoveExtraBuffer s) := by
  rw [mppDmaRemoveExtraBuffer]
  split
  · exact inv
  · next b found =>
      exact poolInv_krefPut (inv.mark b _ _ _) (inv.slot_of_used (extraBuffer_used found))

theorem poolInv_mppDmaRelease (inv : PoolInv s) (slot : b < mppSessionMaxBuffers) :
    PoolInv (mppDmaRelease s b) := poolInv_krefPut (inv.mark b _ _ _) slot

theorem poolInv_mppDmaReleaseFd (inv : PoolInv s) (dmabuf : Option Nat) :
    PoolInv (mppDmaReleaseFd s dmabuf) := by
  rw [mppDmaReleaseFd]
  split
  · exact inv
  · next b found =>
      exact poolInv_mppDmaRelease inv (inv.slot_of_used (mppDmaFindBufferFd_used found))

/-- A new attachment takes the first buffer of the unused list, or puts it back at its end. -/
theorem poolInv_importNew (inv : PoolInv s) (choice : ImportChoice)
    (absent : d ∉ s.usedList.map fun k => (s.dmaBufs k).dmabuf) :
    PoolInv (importNew s d choice) := by
  rw [importNew]
  split
  · exact inv
  · next b rest unused =>
      have first : b ∈ s.unusedList := unused ▸ List.mem_cons_self
      have fresh : b ∉ s.usedList := fun used => inv.unused_of_used used first
      have partition := inv.partition
      have idle := inv.idle
      rw [unused] at partition idle
      have nodup : (b :: rest).Nodup := unused ▸ (List.nodup_append.mp inv.nodup).2.1
      have others : ∀ k ∈ rest, k ≠ b := fun k member same =>
        (List.nodup_cons.mp nodup).1 (same ▸ member)
      split
      · refine ⟨⟨?_, ?_, ?_⟩, fun k member => ?_, fun k member => ?_⟩
        · change (s.usedList ++ [b] ++ rest).Perm _
          rw [List.append_assoc]
          exact partition
        · change s.bufferCount + 1 = ((s.usedList ++ [b]).length : Int)
          rw [inv.count, List.length_append, List.length_singleton]
          omega
        · rw [List.map_append, map_dmabuf_setBuffer _ _ fun used => absurd used fresh]
          refine List.nodup_append.mpr ⟨inv.distinct, List.nodup_singleton _, ?_⟩
          rintro other known _ new rfl
          have same : other = d := (List.mem_singleton.mp new).trans
            (congrArg MppDmaBuffer.dmabuf (setBuffer_same ..))
          exact absent (same ▸ known)
        · rcases List.mem_append.mp member with old | new
          · have other : k ≠ b := fun same => fresh (same ▸ old)
            exact (setBuffer_other s _ other).symm ▸ inv.alive k old
          · obtain rfl := List.mem_singleton.mp new
            have same := setBuffer_same s k { s.dmaBufs k with
              dmabuf := d, lastUsed := choice.now, mapped := true, ref := 2, imports := 1,
              releases := 0, trims := 0 }
            exact same.symm ▸ ⟨Nat.le_succ 1, rfl⟩
        · exact (setBuffer_other s _ (others k member)).symm ▸
            idle k (List.mem_cons_of_mem b member)
      · have kept := inv.set { s.dmaBufs b with dmabuf := d, lastUsed := choice.now }
          (fun used => absurd used fresh) (inv.alive b) (inv.idle b)
        refine ⟨⟨?_, kept.count, kept.distinct⟩, kept.alive, fun k member => kept.idle k ?_⟩
        · exact (List.Perm.append_left s.usedList (List.perm_append_singleton b rest)).trans
            partition
        · change k ∈ s.unusedList
          rw [unused]
          exact (List.perm_append_singleton b rest).mem_iff.mp member

theorem absent_of_find {dmabuf : Nat} (missing : mppDmaFindBufferFd s (some dmabuf) = none) :
    dmabuf ∉ s.usedList.map fun k => (s.dmaBufs k).dmabuf := by
  intro listed
  obtain ⟨k, used, same⟩ := List.mem_map.mp listed
  have different := List.find?_eq_none.mp missing k used
  exact different (beq_iff_eq.mpr same)

/-- An import finds the buffer, or makes a new one, or finds no dma-buf. -/
theorem importTrimmed_cases (inv : PoolInv s) (dmabuf : Option Nat) (choice : ImportChoice) :
    (∃ b ∈ s.usedList, importTrimmed s dmabuf choice = importAgain s b choice) ∨
      importTrimmed s dmabuf choice = s ∨
      ∃ d, (d ∉ s.usedList.map fun k => (s.dmaBufs k).dmabuf) ∧
        importTrimmed s dmabuf choice = importNew s d choice := by
  cases found : mppDmaFindBufferFd s dmabuf with
  | some b =>
      have used := mppDmaFindBufferFd_used found
      have held : (s.dmaBufs b).ref ≠ 0 := Nat.ne_of_gt (inv.alive b used).1
      have kept : (some b).filter (fun b => (s.dmaBufs b).ref != 0) = some b := by
        simp [Option.filter, held]
      refine Or.inl ⟨b, used, ?_⟩
      unfold importTrimmed
      rw [found, kept]
  | none =>
      cases dmabuf with
      | none => exact Or.inr (Or.inl (by simp [importTrimmed, found]))
      | some d => exact Or.inr (Or.inr ⟨d, absent_of_find found, by simp [importTrimmed, found]⟩)

theorem poolInv_importTrimmed (inv : PoolInv s) (dmabuf : Option Nat) (choice : ImportChoice) :
    PoolInv (importTrimmed s dmabuf choice) := by
  rcases importTrimmed_cases inv dmabuf choice with ⟨b, used, again⟩ | none | ⟨d, absent, new⟩
  · rw [again]
    exact inv.set _ (fun _ => rfl) (fun used => ⟨Nat.le_add_left .., (inv.alive b used).2⟩)
      fun unused => absurd unused (inv.unused_of_used used)
  · rw [none]
    exact inv
  · rw [new]
    exact poolInv_importNew inv choice absent

theorem poolInv_of_poolStep {label : PoolLabel} (inv : PoolInv s)
    (taken : poolStep s label = some s') : PoolInv s' := by
  cases label with
  | importFd dmabuf choice =>
      obtain rfl := Option.some.inj taken
      exact poolInv_importTrimmed (poolInv_mppDmaRemoveExtraBuffer inv) dmabuf choice
  | release b =>
      obtain ⟨slot, outcome⟩ := Option.ite_none_right_eq_some.mp taken
      obtain rfl := Option.some.inj outcome
      exact poolInv_mppDmaRelease inv slot
  | releaseFd dmabuf =>
      obtain rfl := Option.some.inj taken
      exact poolInv_mppDmaReleaseFd inv dmabuf
  | trim =>
      obtain rfl := Option.some.inj taken
      exact poolInv_mppDmaRemoveExtraBuffer inv

/-! ## The references -/

/-- The references of the buffers: one of the pool until it is trimmed, and one for each import
that was not released. -/
structure Ledger (s : MppDmaSession) : Prop where
  used : ∀ b ∈ s.usedList, (s.dmaBufs b).trims ≤ 1 ∧
    (s.dmaBufs b).ref + (s.dmaBufs b).releases + (s.dmaBufs b).trims = 1 + (s.dmaBufs b).imports
  unused : ∀ b ∈ s.unusedList, (s.dmaBufs b).imports ≤ (s.dmaBufs b).releases

theorem ledger_create (maxBuffers : Nat) : Ledger (mppDmaSessionCreate maxBuffers) where
  used _ used := nomatch used
  unused _ _ := Nat.le_refl 0

/-- Another buffer keeps its references. -/
theorem Ledger.set (own : Ledger s) (buffer : MppDmaBuffer)
    (used : b ∈ s.usedList → buffer.trims ≤ 1 ∧
      buffer.ref + buffer.releases + buffer.trims = 1 + buffer.imports)
    (unused : b ∈ s.unusedList → buffer.imports ≤ buffer.releases) :
    Ledger (setBuffer s b buffer) where
  used k member := by
    by_cases here : k = b
    · subst here
      rw [setBuffer_same]
      exact used member
    · rw [setBuffer_other s buffer here]
      exact own.used k member
  unused k member := by
    by_cases here : k = b
    · subst here
      rw [setBuffer_same]
      exact unused member
    · rw [setBuffer_other s buffer here]
      exact own.unused k member

theorem setBuffer_twice (s : MppDmaSession) (b : Nat) (first second : MppDmaBuffer) :
    setBuffer (setBuffer s b first) b second = setBuffer s b second := by
  have buffers : (setBuffer (setBuffer s b first) b second).dmaBufs =
      (setBuffer s b second).dmaBufs := by
    funext k
    by_cases here : k = b
    · rw [here, setBuffer_same, setBuffer_same]
    · rw [setBuffer_other _ _ here, setBuffer_other _ _ here, setBuffer_other _ _ here]
  exact congrArg (fun dmaBufs => { s with dmaBufs := dmaBufs }) buffers

/-- A put behind a release or a trim that is counted already. -/
theorem ledger_krefPut (inv : PoolInv s) (own : Ledger s) (marked : MppDmaBuffer)
    (same : marked.ref = (s.dmaBufs b).ref)
    (used : b ∈ s.usedList → marked.trims ≤ 1 ∧
      marked.ref + marked.releases + marked.trims = 2 + marked.imports)
    (last : b ∈ s.usedList → marked.ref = 1 → marked.imports ≤ marked.releases)
    (unused : b ∈ s.unusedList → marked.imports ≤ marked.releases)
    (slot : b < mppSessionMaxBuffers) : Ledger (krefPut (setBuffer s b marked) b) := by
  simp only [krefPut, setBuffer_same, setBuffer_twice]
  split
  · next one =>
      have inUse : b ∈ s.usedList := (inv.listed slot).resolve_right fun idle => by
        have := inv.idle b idle
        omega
      have nodup := (List.nodup_append.mp inv.nodup).1
      have buffers : ∀ k, k ≠ b → (mppDmaReleaseBuffer
          (setBuffer s b { marked with ref := marked.ref - 1 }) b).dmaBufs k = s.dmaBufs k :=
        fun k other => (setBuffer_other _ _ other).trans (setBuffer_other _ _ other)
      refine ⟨fun k member => ?_, fun k member => ?_⟩
      · rw [buffers k fun here => nodup.not_mem_erase (here ▸ member)]
        exact own.used k (List.mem_of_mem_erase member)
      · by_cases here : k = b
        · subst here
          simp only [mppDmaReleaseBuffer, setBuffer_same]
          exact last inUse one
        · rw [buffers k here]
          refine own.unused k ?_
          rcases List.mem_append.mp member with old | new
          · exact List.mem_of_mem_erase old
          · exact absurd (List.mem_singleton.mp new) here
  · refine own.set _ (fun inUse => ?_) unused
    obtain ⟨trims, refs⟩ := used inUse
    have alive := (inv.alive b inUse).1
    refine ⟨trims, ?_⟩
    change marked.ref - 1 + marked.releases + marked.trims = 1 + marked.imports
    omega

theorem ledger_mppDmaRemoveExtraBuffer (inv : PoolInv s) (own : Ledger s)
    (once : ∀ b ∈ extraBuffer s, (s.dmaBufs b).trims = 0) : Ledger (mppDmaRemoveExtraBuffer s) := by
  rw [mppDmaRemoveExtraBuffer]
  split
  · exact own
  · next b found =>
      have untrimmed := once b found
      have inUse := extraBuffer_used found
      have refs := (own.used b inUse).2
      refine ledger_krefPut inv own _ rfl (fun _ => ⟨?_, ?_⟩) (fun _ one => ?_)
        (own.unused b) (inv.slot_of_used inUse)
      · exact Nat.le_of_eq (congrArg (· + 1) untrimmed)
      · change (s.dmaBufs b).ref + (s.dmaBufs b).releases + ((s.dmaBufs b).trims + 1) =
          2 + (s.dmaBufs b).imports
        omega
      · have one : (s.dmaBufs b).ref = 1 := one
        change (s.dmaBufs b).imports ≤ (s.dmaBufs b).releases
        omega

theorem ledger_mppDmaRelease (inv : PoolInv s) (own : Ledger s) (slot : b < mppSessionMaxBuffers) :
    Ledger (mppDmaRelease s b) := by
  refine ledger_krefPut inv own _ rfl (fun inUse => ?_) (fun inUse one => ?_) (fun idle => ?_) slot
  · obtain ⟨trims, refs⟩ := own.used b inUse
    refine ⟨trims, ?_⟩
    change (s.dmaBufs b).ref + ((s.dmaBufs b).releases + 1) + (s.dmaBufs b).trims =
      2 + (s.dmaBufs b).imports
    omega
  · obtain ⟨trims, refs⟩ := own.used b inUse
    have one : (s.dmaBufs b).ref = 1 := one
    change (s.dmaBufs b).imports ≤ (s.dmaBufs b).releases + 1
    omega
  · exact Nat.le_succ_of_le (own.unused b idle)

theorem ledger_importNew (inv : PoolInv s) (own : Ledger s) (choice : ImportChoice) :
    Ledger (importNew s d choice) := by
  rw [importNew]
  split
  · exact own
  · next b rest unused =>
      have first : b ∈ s.unusedList := unused ▸ List.mem_cons_self
      have fresh : b ∉ s.usedList := fun used => inv.unused_of_used used first
      have idle := own.unused
      rw [unused] at idle
      have nodup : (b :: rest).Nodup := unused ▸ (List.nodup_append.mp inv.nodup).2.1
      split
      · refine ⟨fun k member => ?_, fun k member => ?_⟩
        · rcases List.mem_append.mp member with old | new
          · have other : k ≠ b := fun same => fresh (same ▸ old)
            exact (setBuffer_other s _ other).symm ▸ own.used k old
          · obtain rfl := List.mem_singleton.mp new
            have same := setBuffer_same s k { s.dmaBufs k with
              dmabuf := d, lastUsed := choice.now, mapped := true, ref := 2, imports := 1,
              releases := 0, trims := 0 }
            exact same.symm ▸ ⟨Nat.zero_le 1, rfl⟩
        · have other : k ≠ b := fun same => (List.nodup_cons.mp nodup).1 (same ▸ member)
          exact (setBuffer_other s _ other).symm ▸ idle k (List.mem_cons_of_mem b member)
      · have kept := own.set { s.dmaBufs b with dmabuf := d, lastUsed := choice.now }
          (fun used => absurd used fresh) (own.unused b)
        refine ⟨kept.used, fun k member => kept.unused k ?_⟩
        change k ∈ s.unusedList
        rw [unused]
        exact (List.perm_append_singleton b rest).mem_iff.mp member

theorem ledger_importTrimmed (inv : PoolInv s) (own : Ledger s) (dmabuf : Option Nat)
    (choice : ImportChoice) : Ledger (importTrimmed s dmabuf choice) := by
  rcases importTrimmed_cases inv dmabuf choice with ⟨b, inUse, again⟩ | none | ⟨d, _, new⟩
  · rw [again]
    refine own.set _ (fun _ => ?_) fun idle => absurd idle (inv.unused_of_used inUse)
    obtain ⟨trims, refs⟩ := own.used b inUse
    refine ⟨trims, ?_⟩
    change (s.dmaBufs b).ref + 1 + (s.dmaBufs b).releases + (s.dmaBufs b).trims =
      1 + ((s.dmaBufs b).imports + 1)
    omega
  · rw [none]
    exact own
  · rw [new]
    exact ledger_importNew inv own choice

theorem ledger_of_poolStep {label : PoolLabel} (inv : PoolInv s) (own : Ledger s)
    (once : TrimsOnce s label) (taken : poolStep s label = some s') : Ledger s' := by
  cases label with
  | importFd dmabuf choice =>
      obtain rfl := Option.some.inj taken
      exact ledger_importTrimmed (poolInv_mppDmaRemoveExtraBuffer inv)
        (ledger_mppDmaRemoveExtraBuffer inv own once) dmabuf choice
  | release b =>
      obtain ⟨slot, outcome⟩ := Option.ite_none_right_eq_some.mp taken
      obtain rfl := Option.some.inj outcome
      exact ledger_mppDmaRelease inv own slot
  | releaseFd dmabuf =>
      obtain rfl := Option.some.inj taken
      rw [mppDmaReleaseFd]
      split
      · exact own
      · next b found =>
          exact ledger_mppDmaRelease inv own (inv.slot_of_used (mppDmaFindBufferFd_used found))
  | trim =>
      obtain rfl := Option.some.inj taken
      exact ledger_mppDmaRemoveExtraBuffer inv own once

/-! ## Runs -/

theorem poolKept_of_ledger (inv : PoolInv s) (own : Ledger s) : PoolKept s where
  toPoolLists := inv.toPoolLists
  held b slot held := by
    have inUse : b ∈ s.usedList := (inv.listed slot).resolve_right fun idle => by
      have := own.unused b idle
      omega
    exact ⟨inUse, (inv.alive b inUse).2⟩

/-- The lists are right in every run, whatever is trimmed. -/
theorem mpp_dma_lists_kept (maxBuffers : Nat)
    (reach : Reaches poolStep anyStep (mppDmaSessionCreate maxBuffers) s) : PoolLists s :=
  (reach.invariant (fun _ _ _ inv _ taken => poolInv_of_poolStep inv taken)
    (poolInv_create maxBuffers)).toPoolLists

/-- The pool is kept in every run that trims no buffer twice. -/
theorem mpp_dma_pool_kept (maxBuffers : Nat)
    (reach : Reaches poolStep TrimsOnce (mppDmaSessionCreate maxBuffers) s) : PoolKept s := by
  have both : PoolInv s ∧ Ledger s := @Reaches.invariant _ _ _ _
    (fun s => PoolInv s ∧ Ledger s) _ _ (fun _ _ _ both once taken =>
      ⟨poolInv_of_poolStep both.1 taken, ledger_of_poolStep both.1 both.2 once taken⟩)
    reach ⟨poolInv_create maxBuffers, ledger_create maxBuffers⟩
  exact poolKept_of_ledger both.1 both.2

/-- Three buffers of a pool for one are imported, the first one twice, and released. -/
def importedTwice : List PoolLabel :=
  [.importFd (some 5) { now := 1 }, .importFd (some 6) { now := 2 },
    .importFd (some 5) { now := 3 }, .importFd (some 7) { now := 4 }, .release 1,
    .releaseFd (some 5)]

theorem mpp_dma_pool_kept_importedTwice :
    ∃ final, runs poolStep (mppDmaSessionCreate 1) importedTwice = some final ∧
      final.usedList = [0, 2] ∧ PoolKept final := by
  have outcome : (runs poolStep (mppDmaSessionCreate 1) importedTwice).map
      (fun final => final.usedList) = some [0, 2] := by decide +kernel
  obtain ⟨final, execution, used⟩ := Option.map_eq_some_iff.mp outcome
  have along : Along poolStep TrimsOnce (mppDmaSessionCreate 1) importedTwice := by decide +kernel
  exact ⟨final, execution, used, mpp_dma_pool_kept 1 (reaches_of_runs along execution)⟩

/-- A task imports four buffers of a pool for one. -/
def fourBuffers : List PoolLabel :=
  [.importFd (some 5) { now := 1 }, .importFd (some 6) { now := 2 },
    .importFd (some 7) { now := 3 }, .importFd (some 8) { now := 4 }]

/-- The last import trims the first buffer again, which is still held. -/
theorem held_buffer_is_unmapped :
    ∃ final, runs poolStep (mppDmaSessionCreate 1) fourBuffers = some final ∧
      (final.dmaBufs 0).imports = 1 ∧ (final.dmaBufs 0).releases = 0 ∧
      (final.dmaBufs 0).mapped = false ∧ ¬PoolKept final := by
  have outcome : (runs poolStep (mppDmaSessionCreate 1) fourBuffers).map
      (fun final => ((final.dmaBufs 0).imports, (final.dmaBufs 0).releases,
        (final.dmaBufs 0).mapped)) = some (1, 0, false) := by decide +kernel
  obtain ⟨final, execution, observed⟩ := Option.map_eq_some_iff.mp outcome
  obtain ⟨imports, observed⟩ := Prod.mk.inj observed
  obtain ⟨releases, unmapped⟩ := Prod.mk.inj observed
  refine ⟨final, execution, imports, releases, unmapped, fun kept => ?_⟩
  have mapped := (kept.held 0 (by decide) (by omega)).2
  rw [unmapped] at mapped
  cases mapped

end DmaPool
end Mpp
end RockchipSoc
