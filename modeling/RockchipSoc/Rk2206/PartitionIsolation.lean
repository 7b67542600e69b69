import RockchipSoc.Rk2206.FsRequests

/-!
# Partitions of the RK2206 flash are kept apart

The checks of a partition and of a request multiply and add numbers of 32 bits, so that a product
or a sum that wraps may pass.  A partition whose end does not wrap, and whose mount point is looked
up without meeting a NULL or another partition, is safe from every request except reads whose end
wraps.  Nothing checks that partitions do not overlap.
-/

namespace RockchipSoc
namespace Rk2206

variable {table : List FsCfg} {fs first : FsCfg}

/-! ### What should hold -/

/-- The first address of a partition, computed without wrap. -/
def FsCfg.start (fs : FsCfg) : Nat := fs.blockStart.toNat * fs.lfsCfg.blockSize.toNat

/-- The first address behind a partition, computed without wrap. -/
def FsCfg.stop (fs : FsCfg) : Nat :=
  (fs.blockStart.toNat + fs.lfsCfg.blockCount.toNat) * fs.lfsCfg.blockSize.toNat

/-- A call of the flash is for addresses in a range. -/
def FlashCall.Within (lower upper : Nat) (call : FlashCall) : Prop :=
  lower ≤ call.flashOffset.toNat ∧ call.flashOffset.toNat < upper ∧
    call.flashOffset.toNat + call.size.toNat ≤ upper

/-- A call is for addresses of the partition and of the user's part of the flash. -/
def FlashCall.Owned (fs : FsCfg) (call : FlashCall) : Prop :=
  call.Within fs.start fs.stop ∧
    call.Within flashAddressUserStart.toNat flashAddressUserEnd.toNat

/-- Whatever the flash does, a request for the partition looks it up without comparing with NULL,
and calls the flash for its own addresses only. -/
def Isolated (table : List FsCfg) (fs : FsCfg) (request : FsRequest) : Prop :=
  ∀ (σ : Type) (device : FlashDevice σ) (state : σ),
    (serve device table ⟨state, []⟩ fs.lfsCfg request).2 ∧
      ∀ call ∈ (serve device table ⟨state, []⟩ fs.lfsCfg request).1.calls, call.Owned fs

/-- An entry of the table is handed to `mount`. -/
def Mounted (table : List FsCfg) (i : Nat) (fs : FsCfg) : Prop :=
  table[i]? = some fs ∧ fs.mountPoint ≠ none

/-- No two mounted partitions share an address. -/
def Apart (table : List FsCfg) : Prop :=
  ∀ i k fs other, i ≠ k → Mounted table i fs → Mounted table k other →
    ∀ address, ¬(fs.start ≤ address ∧ address < fs.stop ∧
      other.start ≤ address ∧ address < other.stop)

/-! ### The condition -/

/-- The end of a partition does not wrap; the first entry whose mount point is NULL or the same is
not NULL, and gives the same first address; and a partition behind a NULL, which is not checked,
belongs to the user. -/
structure PartitionOk (table : List FsCfg) (i : Nat) (fs : FsCfg) : Prop where
  noWrap : fs.stop < 2 ^ 32
  named : ∃ first, firstNamed table fs = some first ∧ first.mountPoint ≠ none ∧
    (first.blockStart * fs.lfsCfg.blockSize).toNat = fs.start
  unchecked : (∃ k, ∃ entry, k < i ∧ table[k]? = some entry ∧ entry.mountPoint = none) →
    flashAddressUserStart.toNat ≤ fs.start ∧ fs.stop ≤ flashAddressUserEnd.toNat

/-- Partitions that are not empty are in order, and none overlap. -/
structure ConfigOk (table : List FsCfg) : Prop where
  partitions : ∀ i fs, Mounted table i fs → fs.lfsCfg.blockCount ≠ 0 → PartitionOk table i fs
  apart : Apart table

/-- The end of a read, counted from the start of the partition, does not wrap. -/
def RequestOk (fs : FsCfg) : FsRequest → Prop
  | .read block off size _ =>
      (block * fs.lfsCfg.blockSize + off).toNat + size.toNat < 2 ^ 32
  | _ => True

/-! ### Partitions whose addresses do not wrap -/

/-- A partition in the user's part of the flash that is found, with its own first address. -/
structure Placed (table : List FsCfg) (fs first : FsCfg) : Prop extends Named table fs first where
  base : (first.blockStart * fs.lfsCfg.blockSize).toNat = fs.start
  lower : flashAddressUserStart.toNat ≤ fs.start
  upper : fs.stop ≤ flashAddressUserEnd.toNat

theorem stop_eq (fs : FsCfg) :
    fs.stop = fs.start + fs.lfsCfg.blockCount.toNat * fs.lfsCfg.blockSize.toNat :=
  Nat.add_mul ..

section placed

variable (placed : Placed table fs first)

include placed

theorem Placed.positive : 0 < fs.lfsCfg.blockSize.toNat := by
  by_contra empty
  have lower : flashAddressUserStart.toNat ≤ fs.start := placed.lower
  rw [FsCfg.start, Nat.eq_zero_of_not_pos empty, Nat.mul_zero] at lower
  exact absurd lower (by decide)

theorem Placed.stop_lt : fs.stop < 2 ^ 32 := Nat.lt_of_le_of_lt placed.upper (by decide)

/-- A call for addresses of the partition is for addresses of the user. -/
theorem Placed.owned {call : FlashCall} (within : call.Within fs.start fs.stop) :
    call.Owned fs := by
  refine ⟨within, ?_⟩
  have lower := placed.lower
  have upper := placed.upper
  obtain ⟨above, below, ends⟩ := within
  exact ⟨Nat.le_trans lower above, Nat.lt_of_lt_of_le below upper, Nat.le_trans ends upper⟩

/-- What the checks of a request say. -/
theorem Placed.range {block off size : UInt32}
    (accepts : acceptsRange fs.lfsCfg block off size = true) :
    fs.start + (block * fs.lfsCfg.blockSize + off).toNat < fs.stop ∧
      fs.start + (block * fs.lfsCfg.blockSize + off + size).toNat ≤ fs.stop := by
  have stop := placed.stop_lt
  rw [stop_eq] at stop ⊢
  have total : (fs.lfsCfg.blockSize * fs.lfsCfg.blockCount).toNat =
      fs.lfsCfg.blockCount.toNat * fs.lfsCfg.blockSize.toNat := by
    rw [UInt32.mul_comm, toNat_mul_of_lt (by omega)]
  simp only [acceptsRange, decide_eq_true_eq, ge_iff_le, gt_iff_lt, UInt32.lt_iff_toNat_lt,
    UInt32.le_iff_toNat_le, total] at accepts
  omega

theorem Placed.address {offset : UInt32} (inside : fs.start + offset.toNat < fs.stop) :
    (first.blockStart * fs.lfsCfg.blockSize + offset).toNat = fs.start + offset.toNat := by
  have stop := placed.stop_lt
  rw [toNat_add_of_lt (by rw [placed.base]; omega), placed.base]

/-- A read of the partition is for its addresses if and only if its end does not wrap. -/
theorem Placed.read {block off size : UInt32} {dst : Bool}
    (accepted : Accepted fs (.read block off size dst)) :
    Isolated table fs (.read block off size dst) ↔ RequestOk fs (.read block off size dst) := by
  have stop := placed.stop_lt
  obtain ⟨inside, ends⟩ := placed.range accepted.1
  have address : ((first.blockStart + block) * fs.lfsCfg.blockSize + off).toNat =
      fs.start + (block * fs.lfsCfg.blockSize + off).toNat := by
    rw [address_eq, placed.address inside]
  constructor
  · intro isolated
    obtain ⟨-, calls⟩ := isolated Unit deadFlash ()
    rw [(placed.serve_read accepted).2] at calls
    obtain ⟨⟨-, -, below⟩, -⟩ := calls _ (List.mem_singleton_self _)
    simp only [FlashCall.flashOffset, FlashCall.size, address] at below
    simp only [RequestOk]
    omega
  · intro ok σ device state
    obtain ⟨defined, calls⟩ := @Named.serve_read σ device table ⟨state, []⟩ fs first placed.toNamed
      block off size dst accepted
    refine ⟨defined, fun call member => placed.owned ?_⟩
    rw [calls] at member
    obtain rfl := List.mem_singleton.mp member
    rw [toNat_add_of_lt ok] at ends
    simp only [FlashCall.Within, FlashCall.flashOffset, FlashCall.size, address]
    omega

/-- An erased block belongs to the partition. -/
theorem Placed.erase {block : UInt32} (accepted : Accepted fs (.erase block)) :
    Isolated table fs (.erase block) := by
  intro σ device state
  obtain ⟨defined, calls⟩ := @Named.serve_erase σ device table ⟨state, []⟩ fs first placed.toNamed
    block accepted
  refine ⟨defined, fun call member => placed.owned ?_⟩
  rw [calls] at member
  obtain rfl := List.mem_singleton.mp member
  have positive := placed.positive
  have stop := placed.stop_lt
  have last : (block.toNat + 1) * fs.lfsCfg.blockSize.toNat ≤
      fs.lfsCfg.blockCount.toNat * fs.lfsCfg.blockSize.toNat :=
    Nat.mul_le_mul_right _ (UInt32.lt_iff_toNat_lt.mp accepted)
  rw [Nat.succ_mul] at last
  have total := stop_eq fs
  have offset : (block * fs.lfsCfg.blockSize).toNat = block.toNat * fs.lfsCfg.blockSize.toNat :=
    toNat_mul_of_lt (by omega)
  have address : ((first.blockStart + block) * fs.lfsCfg.blockSize).toNat =
      fs.start + block.toNat * fs.lfsCfg.blockSize.toNat := by
    rw [UInt32.add_mul, placed.address (by omega), offset]
  simp only [FlashCall.Within, FlashCall.flashOffset, FlashCall.size, address]
  omega

/-- The blocks of a write belong to the partition, even if its end wraps. -/
theorem Placed.block {block off size : UInt32}
    (accepts : acceptsRange fs.lfsCfg block off size = true) {range : WriteRange}
    (range_eq : range = ⟨(first.blockStart + block) * fs.lfsCfg.blockSize + off, size,
      fs.lfsCfg.blockSize⟩) {j : Nat}
    (inside : j < range.blockEnd.toNat - range.blockStart.toNat) {call : FlashCall}
    (offset : call.flashOffset = (range.blockStart + UInt32.ofNat j) * range.blockSize)
    (size_eq : call.size = range.blockSize) : call.Owned fs := by
  have positive := placed.positive
  have stop := placed.stop_lt
  obtain ⟨begins, ends⟩ := placed.range accepts
  have address : range.addr.toNat =
      fs.start + (block * fs.lfsCfg.blockSize + off).toNat := by
    rw [range_eq, address_eq, placed.address begins]
  have stop_le : (range.addr + range.size).toNat ≤ fs.stop := by
    rw [range_eq, address_eq, UInt32.add_assoc,
      toNat_add_of_lt (by rw [placed.base]; exact Nat.lt_of_le_of_lt ends stop), placed.base]
    exact ends
  have blockSize : range.blockSize = fs.lfsCfg.blockSize := by rw [range_eq]
  have blockStart : range.blockStart.toNat = range.addr.toNat / fs.lfsCfg.blockSize.toNat := by
    rw [WriteRange.blockStart, UInt32.toNat_div, blockSize]
  have blockEnd := toNat_blockEnd range (by rw [blockSize]; exact positive)
  rw [blockSize] at blockEnd offset size_eq
  have below : range.blockEnd.toNat < 2 ^ 32 := UInt32.toNat_lt _
  have number : (range.blockStart + UInt32.ofNat j).toNat = range.blockStart.toNat + j := by
    have small : (UInt32.ofNat j).toNat = j :=
      UInt32.toNat_ofNat_of_lt' (show j < 2 ^ 32 by omega)
    rw [toNat_add_of_lt (by omega), small]
  obtain ⟨above, below⟩ :
      fs.start ≤ (range.blockStart.toNat + j) * fs.lfsCfg.blockSize.toNat ∧
        (range.blockStart.toNat + j) * fs.lfsCfg.blockSize.toNat + fs.lfsCfg.blockSize.toNat ≤
          fs.stop :=
    BlockCover.mul_within positive (Nat.dvd_mul_left ..) (Nat.dvd_mul_left ..)
      (show fs.start ≤ range.addr.toNat by omega) stop_le (by omega) (by omega)
  have product : call.flashOffset.toNat =
      (range.blockStart.toNat + j) * fs.lfsCfg.blockSize.toNat := by
    rw [offset, toNat_mul_of_lt (by rw [number]; omega), number]
  refine placed.owned ⟨?_, ?_, ?_⟩
  · rw [product]
    exact above
  · rw [product]
    omega
  · rw [product, size_eq]
    exact below

theorem Placed.write {block off size : UInt32} {src : Option Memory} {malloc : Bool}
    (accepted : Accepted fs (.write block off size src malloc)) :
    Isolated table fs (.write block off size src malloc) := by
  obtain ⟨accepts, exists'⟩ := accepted
  obtain ⟨src, rfl⟩ := Option.ne_none_iff_exists'.mp exists'
  intro σ device state
  simp only [serve, fsWrite, accepts, not_true_eq_false, if_false, placed.toNamed.withPartition]
  split
  · exact ⟨trivial, fun _ member => absurd member List.not_mem_nil⟩
  · have calls := @calls_writeBlocks σ device ⟨state, []⟩ (FlashCall.Owned fs)
      ⟨(first.blockStart + block) * fs.lfsCfg.blockSize + off, size, fs.lfsCfg.blockSize⟩ src _ _ 0
      (fun _ member => absurd member List.not_mem_nil)
      fun j inside call => placed.block accepts rfl inside
    split
    · next done =>
        rw [done] at calls
        exact ⟨trivial, calls⟩
    · next failed =>
        rw [failed] at calls
        exact ⟨trivial, calls⟩

end placed

/-! ### What is needed -/

theorem exists_firstNamed {i : Nat} (entry : table[i]? = some fs) :
    ∃ first, firstNamed table fs = some first := by
  refine Option.isSome_iff_exists.mp (List.find?_isSome.mpr ?_)
  exact ⟨fs, List.mem_of_getElem? entry, by simp⟩

/-- If erasing each block of a partition that is not empty is safe, the partition is in the user's
part of the flash and is found with its own first address. -/
theorem exists_placed {i : Nat} (context : fs.lfsCfg.context = fs.mountPoint)
    (mounted : Mounted table i fs) (nonempty : fs.lfsCfg.blockCount ≠ 0)
    (safe : ∀ block, Accepted fs (.erase block) → Isolated table fs (.erase block)) :
    ∃ first, Placed table fs first := by
  obtain ⟨first, found⟩ := exists_firstNamed mounted.1
  have count : 0 < fs.lfsCfg.blockCount.toNat := by
    refine Nat.pos_of_ne_zero fun zero => nonempty ?_
    exact UInt32.toNat_inj.mp zero
  have accepted : ∀ k < fs.lfsCfg.blockCount.toNat, Accepted fs (.erase (UInt32.ofNat k)) := by
    intro k inside
    have below := UInt32.toNat_lt fs.lfsCfg.blockCount
    refine UInt32.lt_iff_toNat_lt.mpr ?_
    rw [UInt32.toNat_ofNat_of_lt' (show k < 2 ^ 32 by omega)]
    exact inside
  have named : first.mountPoint ≠ none := by
    intro null
    obtain ⟨defined, -⟩ := safe _ (accepted 0 count) Unit deadFlash ()
    have inside : ¬UInt32.ofNat 0 ≥ fs.lfsCfg.blockCount := UInt32.not_le.mpr (accepted 0 count)
    simp only [serve, fsErase, if_neg inside,
      withPartition_null context mounted.2 found null] at defined
    exact defined
  have lookup : Named table fs first := ⟨context, mounted.2, found, named⟩
  have owned : ∀ k < fs.lfsCfg.blockCount.toNat,
      (FlashCall.flashErase ((first.blockStart + UInt32.ofNat k) * fs.lfsCfg.blockSize)
        fs.lfsCfg.blockSize).Owned fs := by
    intro k inside
    obtain ⟨-, calls⟩ := safe _ (accepted k inside) Unit deadFlash ()
    rw [(lookup.serve_erase (accepted k inside)).2] at calls
    exact calls _ (List.mem_singleton_self _)
  -- each block begins where the one before it ends, as none reaches the end of the 32 bits
  have address : ∀ k < fs.lfsCfg.blockCount.toNat,
      ((first.blockStart + UInt32.ofNat k) * fs.lfsCfg.blockSize).toNat =
        (first.blockStart * fs.lfsCfg.blockSize).toNat + k * fs.lfsCfg.blockSize.toNat := by
    intro k inside
    induction k with
    | zero => simp
    | succ k ih =>
        have before := ih (by omega)
        obtain ⟨-, -, -, ends⟩ := owned k (by omega)
        have limit : flashAddressUserEnd.toNat < 2 ^ 32 := by decide
        simp only [FlashCall.flashOffset, FlashCall.size] at ends
        rw [UInt32.ofNat_add, ← UInt32.add_assoc, @UInt32.add_mul _ (UInt32.ofNat 1),
          show UInt32.ofNat 1 * fs.lfsCfg.blockSize = fs.lfsCfg.blockSize from UInt32.one_mul _,
          toNat_add_of_lt (by omega), before, Nat.succ_mul, Nat.add_assoc]
  obtain ⟨last, count_eq⟩ := Nat.exists_eq_succ_of_ne_zero count.ne'
  obtain ⟨⟨above, -, -⟩, aboveUser, -, -⟩ := owned 0 count
  obtain ⟨⟨-, -, ends⟩, -, -, endsUser⟩ := owned last (by omega)
  simp only [FlashCall.flashOffset, FlashCall.size] at above aboveUser ends endsUser
  rw [address 0 count, Nat.zero_mul] at above aboveUser
  rw [address last (by omega)] at ends endsUser
  have stop := stop_eq fs
  rw [count_eq, Nat.succ_mul] at stop
  exact ⟨first, lookup, by omega, by omega, by omega⟩

/-! ### The table that was read -/

theorem mem_of_mapM_eq_some {α β : Type*} {f : α → Option β} {list : List α} {values : List β}
    {value : β} (mapped : list.mapM f = some values) (member : value ∈ values) :
    ∃ a ∈ list, f a = some value := by
  induction list generalizing values with
  | nil =>
      obtain rfl : [] = values := by simpa using mapped
      cases member
  | cons a list ih =>
      rw [List.mapM_cons] at mapped
      obtain ⟨head, here, mapped⟩ := Option.bind_eq_some_iff.mp mapped
      obtain ⟨rest, later, cons⟩ := Option.bind_eq_some_iff.mp mapped
      obtain rfl : head :: rest = values := Option.some.inj cons
      rcases List.mem_cons.mp member with rfl | member
      · exact ⟨a, List.mem_cons_self, here⟩
      · obtain ⟨a, place, value_eq⟩ := ih later member
        exact ⟨a, List.mem_cons_of_mem _ place, value_eq⟩

theorem context_of_readEntry {resource : FsResource} {i : Nat}
    (read : readEntry resource i = some fs) : fs.lfsCfg.context = fs.mountPoint := by
  simp only [readEntry, Option.bind_eq_bind, Option.bind_eq_some_iff, Option.pure_def,
    Option.some.injEq] at read
  obtain ⟨_, _, _, _, _, _, _, _, rfl⟩ := read
  rfl

/-- Entries before the first NULL mount point pass the checks. -/
theorem checkPartition_of_checkPartitions {flashBlockSize : UInt32} {i : Nat}
    (checked : checkPartitions flashBlockSize table = .ok ()) (mounted : Mounted table i fs)
    (before : ¬∃ k, ∃ entry, k < i ∧ table[k]? = some entry ∧ entry.mountPoint = none) :
    checkPartition flashBlockSize fs = .ok () := by
  induction table generalizing i with
  | nil => exact absurd mounted.1 (by simp)
  | cons entry table ih =>
      have present : entry.mountPoint ≠ none := by
        intro null
        rcases i with _ | i
        · obtain rfl : entry = fs := by simpa using mounted.1
          exact mounted.2 null
        · exact before ⟨0, entry, Nat.succ_pos i, rfl, null⟩
      rw [checkPartitions, if_neg present] at checked
      split at checked
      · cases checked
      · next passed =>
          rcases i with _ | i
          · obtain rfl : entry = fs := by simpa using mounted.1
            exact passed
          · refine ih checked ⟨by simpa using mounted.1, mounted.2⟩ ?_
            rintro ⟨k, other, inside, place, null⟩
            exact before ⟨k + 1, other, Nat.succ_lt_succ inside, by simpa using place, null⟩

/-- The unused entries of the table have no mount point. -/
theorem checkPartitions_append {flashBlockSize : UInt32} {unused : Nat}
    (checked : checkPartitions flashBlockSize table = .ok ()) :
    checkPartitions flashBlockSize (table ++ List.replicate unused default) = .ok () := by
  induction table with
  | nil =>
      cases unused with
      | zero => rfl
      | succ unused => exact if_pos rfl
  | cons entry table ih =>
      rw [List.cons_append, checkPartitions]
      rw [checkPartitions] at checked
      split
      · rfl
      · next present =>
          rw [if_neg present] at checked
          split at checked
          · cases checked
          · exact ih checked

/-- What a successful `fsdrv_readdrs` leaves in the table. -/
theorem fsdrvReaddrs_spec {resource : Option FsResource} {flashBlockSize : UInt32}
    {maxMountSize : Nat} (read : fsdrvReaddrs resource flashBlockSize maxMountSize = .ok table) :
    checkPartitions flashBlockSize table = .ok () ∧
      ∀ entry ∈ table, entry.lfsCfg.context = entry.mountPoint := by
  unfold fsdrvReaddrs at read
  split at read
  · cases read
  · split at read
    · cases read
    · split at read
      · cases read
      · next entries mapped =>
          split at read
          · cases read
          · next checked =>
              obtain rfl := Except.ok.inj read
              refine ⟨checkPartitions_append checked, fun entry member => ?_⟩
              rcases List.mem_append.mp member with member | member
              · obtain ⟨i, -, read⟩ := mem_of_mapM_eq_some mapped member
                exact context_of_readEntry read
              · rw [List.eq_of_mem_replicate member]
                rfl

/-- What the checks say of a partition whose end does not wrap. -/
theorem user_of_checkPartition {flashBlockSize : UInt32}
    (passed : checkPartition flashBlockSize fs = .ok ()) (noWrap : fs.stop < 2 ^ 32) :
    flashAddressUserStart.toNat ≤ fs.start ∧ fs.stop ≤ flashAddressUserEnd.toNat := by
  have start : (fs.blockStart * fs.lfsCfg.blockSize).toNat = fs.start := by
    refine toNat_mul_of_lt ?_
    have stop := stop_eq fs
    rw [FsCfg.start] at stop
    omega
  have stop : ((fs.blockStart + fs.lfsCfg.blockCount) * fs.lfsCfg.blockSize).toNat = fs.stop := by
    rw [UInt32.toNat_mul, UInt32.toNat_add, Nat.mod_mul_mod]
    exact Nat.mod_eq_of_lt noWrap
  unfold checkPartition at passed
  split at passed
  · cases passed
  · split at passed
    · cases passed
    · next above =>
        split at passed
        · cases passed
        · next below =>
            rw [UInt32.lt_iff_toNat_lt, start] at above
            rw [gt_iff_lt, UInt32.lt_iff_toNat_lt, stop] at below
            exact ⟨Nat.not_lt.mp above, Nat.not_lt.mp below⟩

/-- In a table that was read, being placed is the condition on a partition. -/
theorem exists_placed_iff {flashBlockSize : UInt32} {i : Nat}
    (checked : checkPartitions flashBlockSize table = .ok ())
    (context : fs.lfsCfg.context = fs.mountPoint) (mounted : Mounted table i fs) :
    (∃ first, Placed table fs first) ↔ PartitionOk table i fs := by
  constructor
  · rintro ⟨first, placed⟩
    exact ⟨placed.stop_lt, ⟨first, placed.found, placed.named, placed.base⟩,
      fun _ => ⟨placed.lower, placed.upper⟩⟩
  · rintro ⟨noWrap, ⟨first, found, named, base⟩, unchecked⟩
    have user : flashAddressUserStart.toNat ≤ fs.start ∧
        fs.stop ≤ flashAddressUserEnd.toNat := by
      by_cases null : ∃ k, ∃ entry, k < i ∧ table[k]? = some entry ∧ entry.mountPoint = none
      · exact unchecked null
      · exact user_of_checkPartition (checkPartition_of_checkPartitions checked mounted null) noWrap
    exact ⟨first, ⟨context, mounted.2, found, named⟩, base, user.1, user.2⟩

/-- A request is accepted by a partition that is not empty only. -/
theorem Accepted.nonempty {request : FsRequest} (accepted : Accepted fs request) :
    fs.lfsCfg.blockCount ≠ 0 := by
  intro empty
  have refused : ∀ block off size, acceptsRange fs.lfsCfg block off size ≠ true := by
    intro block off size
    simp [acceptsRange, empty]
  cases request with
  | read block off size dst => exact refused _ _ _ accepted.1
  | write block off size src malloc => exact refused _ _ _ accepted.1
  | erase block =>
      rw [Accepted, empty] at accepted
      exact UInt32.not_lt_zero accepted

theorem Placed.request (placed : Placed table fs first) {request : FsRequest}
    (accepted : Accepted fs request) :
    Isolated table fs request ↔ RequestOk fs request := by
  cases request with
  | read block off size dst => exact placed.read accepted
  | write block off size src malloc => exact iff_of_true (placed.write accepted) trivial
  | erase block => exact iff_of_true (placed.erase accepted) trivial

/-- The partitions of a table that was read are isolated, for all requests whose end does not wrap,
if and only if the table meets the condition; and then a request is isolated if and only if its end
does not wrap. -/
theorem partitions_isolated {resource : Option FsResource} {flashBlockSize : UInt32}
    {maxMountSize : Nat} (read : fsdrvReaddrs resource flashBlockSize maxMountSize = .ok table) :
    (((∀ i fs request, Mounted table i fs → Accepted fs request → RequestOk fs request →
          Isolated table fs request) ∧ Apart table) ↔ ConfigOk table) ∧
      (ConfigOk table → ∀ i fs request, Mounted table i fs → Accepted fs request →
        (Isolated table fs request ↔ RequestOk fs request)) := by
  obtain ⟨checked, contexts⟩ := fsdrvReaddrs_spec read
  have context : ∀ {i fs}, Mounted table i fs → fs.lfsCfg.context = fs.mountPoint :=
    fun mounted => contexts _ (List.mem_of_getElem? mounted.1)
  have isolated_iff : ConfigOk table → ∀ i fs request, Mounted table i fs → Accepted fs request →
      (Isolated table fs request ↔ RequestOk fs request) := by
    intro ok i fs request mounted accepted
    obtain ⟨first, placed⟩ := (exists_placed_iff checked (context mounted) mounted).mpr
      (ok.partitions i fs mounted accepted.nonempty)
    exact placed.request accepted
  refine ⟨⟨fun ⟨isolated, apart⟩ => ⟨fun i fs mounted nonempty => ?_, apart⟩, fun ok => ?_⟩,
    isolated_iff⟩
  · refine (exists_placed_iff checked (context mounted) mounted).mp ?_
    exact exists_placed (context mounted) mounted nonempty fun block accepted =>
      isolated i fs (.erase block) mounted accepted trivial
  · exact ⟨fun i fs request mounted accepted requestOk =>
      (isolated_iff ok i fs request mounted accepted).mpr requestOk, ok.apart⟩

/-! ### The partitions of the board -/

/-- A resource with blocks of 4096 bytes, from mount points, first blocks and numbers of blocks. -/
def resourceOf (rows : List (Option String × UInt32 × UInt32)) : FsResource where
  elemNum := rows.length
  mountPoint := fun i => rows[i]?.map fun row => row.1
  blockSize := fun i => rows[i]?.map fun _ => 4096
  blockStart := fun i => rows[i]?.map fun row => row.2.1
  blockCount := fun i => rows[i]?.map fun row => row.2.2

def entryOf (row : Option String × UInt32 × UInt32) : FsCfg :=
  ⟨row.1, row.2.1, ⟨row.1, 4096, row.2.2⟩⟩

/-- The partitions of `fs_config.hcs`. -/
def littlefsRows : List (Option String × UInt32 × UInt32) :=
  [(some "/data", 1024, 256), (some "/mnt", 1280, 256), (some "/", 1536, 256)]

theorem mounted_littlefs {i : Nat} (mounted : Mounted (littlefsRows.map entryOf) i fs) :
    i = 0 ∧ fs = entryOf (some "/data", 1024, 256) ∨
      i = 1 ∧ fs = entryOf (some "/mnt", 1280, 256) ∨
        i = 2 ∧ fs = entryOf (some "/", 1536, 256) := by
  obtain ⟨entry, -⟩ := mounted
  match i with
  | 0 => exact .inl ⟨rfl, (Option.some.inj entry).symm⟩
  | 1 => exact .inr (.inl ⟨rfl, (Option.some.inj entry).symm⟩)
  | 2 => exact .inr (.inr ⟨rfl, (Option.some.inj entry).symm⟩)
  | i + 3 => cases entry

theorem configOk_littlefs : ConfigOk (littlefsRows.map entryOf) where
  partitions := by
    intro i fs mounted _
    rcases mounted_littlefs mounted with ⟨rfl, rfl⟩ | ⟨rfl, rfl⟩ | ⟨rfl, rfl⟩
    all_goals
      refine ⟨by decide, ⟨_, rfl, by decide, by decide⟩, fun ⟨k, entry, inside, place, null⟩ => ?_⟩
      decide
  apart := by
    intro i k fs other differ mounted mounted' address ⟨lower, upper, lower', upper'⟩
    rcases mounted_littlefs mounted with ⟨rfl, rfl⟩ | ⟨rfl, rfl⟩ | ⟨rfl, rfl⟩ <;>
      rcases mounted_littlefs mounted' with ⟨rfl, rfl⟩ | ⟨rfl, rfl⟩ | ⟨rfl, rfl⟩ <;>
      simp [FsCfg.start, FsCfg.stop, entryOf] at differ lower upper lower' upper' <;> omega

theorem partitions_isolated_littlefs :
    (∀ i fs request, Mounted (littlefsRows.map entryOf) i fs → Accepted fs request →
      (Isolated (littlefsRows.map entryOf) fs request ↔ RequestOk fs request)) ∧
    Apart (littlefsRows.map entryOf) := by
  have read : fsdrvReaddrs (some (resourceOf littlefsRows)) 4096 3 =
    .ok (littlefsRows.map entryOf) := by rfl
  exact ⟨(partitions_isolated read).2 configOk_littlefs, configOk_littlefs.apart⟩

/-- A request that a table accepts from its first partition, which is not isolated. -/
def Breached (rows : List (Option String × UInt32 × UInt32)) (i : Nat) (request : FsRequest) :
    Prop :=
  ∃ table fs, fsdrvReaddrs (some (resourceOf rows)) 4096 3 = .ok table ∧ Mounted table i fs ∧
    Accepted fs request ∧ ¬Isolated table fs request

/-- Four failures: a number of blocks whose end wraps, so that a block of the firmware is erased; a
read whose end wraps; a mount point behind a NULL; and two partitions with the same blocks. -/
theorem partitions_not_isolated :
    Breached [(some "/data", 1024, 0xfffffc00)] 0 (.erase 0xffc00) ∧
      Breached littlefsRows 0 (.read 0 1 0xffffffff true) ∧
      Breached [(none, 0, 0), (some "/data", 1024, 256)] 1 (.erase 0) ∧
      ∃ table, fsdrvReaddrs (some (resourceOf
        [(some "/data", 1024, 256), (some "/mnt", 1024, 256)])) 4096 3 = .ok table ∧
          ¬Apart table := by
  refine ⟨⟨_, entryOf (some "/data", 1024, 0xfffffc00), rfl, ⟨rfl, by decide⟩,
      show (0xffc00 : UInt32) < 0xfffffc00 by decide, ?_⟩,
    ⟨_, entryOf (some "/data", 1024, 256), rfl, ⟨rfl, by decide⟩, ⟨by decide, rfl⟩, ?_⟩,
    ⟨_, entryOf (some "/data", 1024, 256), rfl, ⟨rfl, by decide⟩,
      show (0 : UInt32) < 256 by decide, ?_⟩, ?_⟩
  · intro isolated
    obtain ⟨-, calls⟩ := isolated Unit deadFlash ()
    obtain ⟨-, lower, -⟩ := calls (.flashErase 0 4096) (List.mem_singleton.mpr rfl)
    exact absurd lower (by decide)
  · intro isolated
    obtain ⟨-, calls⟩ := isolated Unit deadFlash ()
    obtain ⟨-, -, -, upper⟩ := calls (.flashRead 0x400001 0xffffffff) (List.mem_singleton.mpr rfl)
    exact absurd upper (by decide)
  · intro isolated
    exact (isolated Unit deadFlash ()).1
  · refine ⟨_, rfl, fun apart => ?_⟩
    refine apart 0 1 _ _ (by decide) ⟨rfl, by decide⟩ ⟨rfl, by decide⟩ 0x400000 ?_
    decide

end Rk2206
end RockchipSoc
