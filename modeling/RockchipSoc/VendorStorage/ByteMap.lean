import Mathlib.Data.Finset.Card
import RockchipSoc.VendorStorage.Layout

/-!
# Vendor storage as a map from ids to byte strings

The table and the data area together denote a partial map: an id carried by a row denotes the
bytes of that row.  A read is a lookup in this map, and each of the three branches of a write is
an update of it at the written id, which is all that histories of writes need.
-/

namespace RockchipSoc
namespace VendorStorage

open ByteMemory

variable {shape : ImageShape} {g after : VendorInfo}

/-! ## The denoted map -/

/-- The first `size` bytes of a buffer. -/
def bytesOf (pbuf : Bytes) (size : Nat) : List UInt8 := (List.range size).map pbuf

@[simp]
theorem bytesOf_length (pbuf : Bytes) (size : Nat) : (bytesOf pbuf size).length = size := by
  simp [bytesOf]

theorem bytesOf_getElem? {pbuf : Bytes} {size k : Nat} (bound : k < size) :
    (bytesOf pbuf size)[k]? = some (pbuf k) := by
  simp [bytesOf, bound]

theorem bytesOf_congr {left right : Bytes} {size : Nat} (same : ∀ k, k < size → left k = right k) :
    bytesOf left size = bytesOf right size :=
  List.map_congr_left fun k member => same k (List.mem_range.mp member)

/-- The bytes of row `i`. -/
def rowBytes (shape : ImageShape) (m : Bytes) (i : Nat) : List UInt8 :=
  bytesOf (fun k => dataByte shape m ((item m i).offset + k)) (item m i).size

/-- The map denoted by an image. -/
def contents (shape : ImageShape) (m : Bytes) (id : Nat) : Option (List UInt8) :=
  (findItem m id).map (rowBytes shape m)

theorem contents_eq_none {m : Bytes} {id : Nat}
    (missing : ∀ i, i < itemNum m → (item m i).id ≠ id) : contents shape m id = none := by
  cases found : findItem m id with
  | none => rw [contents, found, Option.map_none]
  | some i =>
      obtain ⟨bound, same⟩ := findItem_eq_some found
      exact absurd same (missing i bound)

theorem WellFormed.contents_eq (wellFormed : WellFormed shape g) {i : Nat}
    (bound : i < itemNum g.mem) :
    contents shape g.mem (item g.mem i).id = some (rowBytes shape g.mem i) := by
  rw [contents, wellFormed.findItem_eq bound, Option.map_some]

theorem contents_congr {left right : Bytes}
    (agree : AgreeOn 10 (shape.dataBase + shape.dataSize) left right)
    (ascending : Ascending shape right 0 (itemNum right)) :
    contents shape left = contents shape right := by
  have base : shape.dataBase = 16 + 8 * shape.itemMax := rfl
  have capacity := ascending.le_itemMax
  have num : itemNum left = itemNum right := agree.read16 (by omega) (by omega)
  have row : ∀ i, i < itemNum right → item left i = item right i := fun i bound =>
    item_congr (agree.mono (by omega) (by omega))
  funext id
  have found : findItem left id = findItem right id := by
    rw [findItem, findItem, num, ← List.head?_filter, ← List.head?_filter]
    refine congrArg List.head? (List.filter_congr fun i member => ?_)
    rw [row i (List.mem_range.mp member)]
  rw [contents, contents, found]
  cases same : findItem right id with
  | none => rfl
  | some i =>
      have bound := (findItem_eq_some same).1
      have inside := ascending.inside i (Nat.zero_le _) bound
      have aligned := size_le_align right i
      simp only [Option.map_some, rowBytes, row i bound]
      exact congrArg some (bytesOf_congr fun k below => agree _ (by omega) (by omega))

/-- A read is a lookup: it answers the length of the copied prefix, or `-1` for a missing id. -/
theorem vendorRead_eq (shape : ImageShape) (m : Bytes) (id : Nat) (pbuf : Bytes) (size : Nat) :
    vendorRead shape m id pbuf size = match contents shape m id with
      | some value => ((min size value.length : Nat),
          copyIn pbuf 0 (fun k => value.getD k 0) (min size value.length))
      | none => (-1, pbuf) := by
  cases found : findItem m id with
  | none => simp only [vendorRead, contents, found, Option.map_none]
  | some i =>
      have shorter : (if (item m i).size < size then (item m i).size else size) =
          min size (item m i).size := by
        split <;> omega
      simp only [vendorRead, contents, found, Option.map_some, shorter, rowBytes, bytesOf_length]
      refine congrArg (Prod.mk _) (copyIn_congr fun k below => ?_)
      rw [List.getD_eq_getElem?_getD, bytesOf_getElem? (by omega), Option.getD_some]

/-! ## Writes update the map -/

/-- A table change that stores one row and carries the other rows over is a map update. -/
theorem contents_eq_update {id : Nat} {value : List UInt8} (wellFormed : WellFormed shape g)
    (wellFormedAfter : WellFormed shape after)
    (stored : ∃ j, j < itemNum after.mem ∧ (item after.mem j).id = id ∧
      rowBytes shape after.mem j = value)
    (carried : ∀ i, i < itemNum g.mem → (item g.mem i).id ≠ id →
      ∃ j, j < itemNum after.mem ∧ (item after.mem j).id = (item g.mem i).id ∧
        rowBytes shape after.mem j = rowBytes shape g.mem i)
    (origin : ∀ j, j < itemNum after.mem → (item after.mem j).id ≠ id →
      ∃ i, i < itemNum g.mem ∧ (item g.mem i).id = (item after.mem j).id) :
    contents shape after.mem = Function.update (contents shape g.mem) id (some value) := by
  funext other
  by_cases same : other = id
  · obtain ⟨j, bound, idEq, bytes⟩ := stored
    rw [same, Function.update_self, ← idEq, wellFormedAfter.contents_eq bound, bytes]
  · rw [Function.update_of_ne same]
    cases found : findItem g.mem other with
    | none =>
        have missing := findItem_eq_none found
        rw [contents_eq_none missing]
        refine contents_eq_none fun j bound idEq => ?_
        obtain ⟨i, below, idSame⟩ := origin j bound (by rw [idEq]; exact same)
        exact missing i below (idSame.trans idEq)
    | some i =>
        obtain ⟨bound, idEq⟩ := findItem_eq_some found
        obtain ⟨j, below, idSame, bytes⟩ := carried i bound (by rw [idEq]; exact same)
        rw [← idEq, wellFormed.contents_eq bound, ← idSame, wellFormedAfter.contents_eq below,
          bytes]

theorem WellFormed.size_le (wellFormed : WellFormed shape g) {i : Nat}
    (bound : i < itemNum g.mem) :
    (item g.mem i).offset + (item g.mem i).size ≤ freeOffset g.mem := by
  have inside := wellFormed.below_free i bound
  have aligned := size_le_align g.mem i
  omega

theorem Appended.contents {id size : Nat} {pbuf : Bytes} (wellFormed : WellFormed shape g)
    (appended : Appended shape g id pbuf size after) (wellFormedAfter : WellFormed shape after)
    (narrow : id < 65536) :
    contents shape after.mem =
      Function.update (contents shape g.mem) id (some (bytesOf pbuf size)) := by
  have added := appended.added
  rw [Nat.mod_eq_of_lt narrow] at added
  refine contents_eq_update wellFormed wellFormedAfter ⟨itemNum g.mem, ?_, ?_, ?_⟩ ?_ ?_
  · rw [appended.num]
    exact Nat.lt_succ_self _
  · rw [added]
  · simp only [rowBytes, added]
    exact bytesOf_congr appended.dataAdded
  · intro i bound _
    have kept := appended.kept i bound
    have below := wellFormed.size_le bound
    refine ⟨i, by rw [appended.num]; omega, by rw [kept], ?_⟩
    simp only [rowBytes, kept]
    exact bytesOf_congr fun k inside => appended.dataKept _ (by omega)
  · intro j bound ne
    rw [appended.num] at bound
    rcases Nat.lt_succ_iff_lt_or_eq.mp bound with old | rfl
    · exact ⟨j, old, by rw [appended.kept j old]⟩
    · rw [added] at ne
      exact absurd rfl ne

theorem Rewritten.contents {i size : Nat} {pbuf : Bytes} (wellFormed : WellFormed shape g)
    (rewritten : Rewritten shape g i pbuf size after) (wellFormedAfter : WellFormed shape after)
    (bound : i < itemNum g.mem) (fits : size ≤ align (item g.mem i).size) :
    contents shape after.mem =
      Function.update (contents shape g.mem) (item g.mem i).id (some (bytesOf pbuf size)) := by
  refine contents_eq_update wellFormed wellFormedAfter ⟨i, ?_, ?_, ?_⟩ ?_ ?_
  · rw [rewritten.num]
    exact bound
  · rw [rewritten.resized]
  · simp only [rowBytes, rewritten.resized]
    exact bytesOf_congr rewritten.dataStored
  · intro j below ne
    have other : j ≠ i := fun same => ne (by rw [same])
    have kept := rewritten.kept j other below
    have inside := wellFormed.size_le below
    have area := Nat.le_trans (Nat.le_add_right _ _) wellFormed.free_fits
    have aligned := size_le_align g.mem j
    refine ⟨j, by rw [rewritten.num]; exact below, by rw [kept], ?_⟩
    simp only [rowBytes, kept]
    refine bytesOf_congr fun k short => rewritten.dataKept _ ?_ (by omega)
    rcases Nat.lt_or_gt_of_ne other with before | behind
    · have gap := wellFormed.ascending.le_of_lt (Nat.zero_le _) before bound
      omega
    · have gap := wellFormed.ascending.le_of_lt (Nat.zero_le _) behind below
      omega
  · intro j below _
    rw [rewritten.num] at below
    refine ⟨j, below, ?_⟩
    by_cases same : j = i
    · rw [same, rewritten.resized]
    · rw [rewritten.kept j same below]

theorem Grown.contents {charge : GrowCharge} {i size cursor : Nat} {pbuf : Bytes}
    (wellFormed : WellFormed shape g)
    (grown : Grown shape charge g i (item g.mem i).id pbuf size cursor after)
    (wellFormedAfter : WellFormed shape after) (bound : i < itemNum g.mem) :
    contents shape after.mem =
      Function.update (contents shape g.mem) (item g.mem i).id (some (bytesOf pbuf size)) := by
  have placed := grown.placed
  rw [Nat.mod_eq_of_lt (item_id_lt _ _)] at placed
  refine contents_eq_update wellFormed wellFormedAfter ⟨itemNum g.mem - 1, ?_, ?_, ?_⟩ ?_ ?_
  · rw [grown.num]
    omega
  · rw [placed]
  · simp only [rowBytes, placed]
    exact bytesOf_congr grown.dataPlaced
  · intro j below ne
    rcases Nat.lt_trichotomy j i with before | same | behind
    · have kept := grown.kept j before
      have gap := wellFormed.ascending.le_of_lt (Nat.zero_le _) before bound
      have aligned := size_le_align g.mem j
      refine ⟨j, by rw [grown.num]; exact below, by rw [kept], ?_⟩
      simp only [rowBytes, kept]
      exact bytesOf_congr fun k short => grown.dataKept _ (by omega)
    · exact absurd (by rw [same]) ne
    · obtain ⟨t, rfl⟩ := Nat.exists_eq_add_of_lt behind
      have order : i + t + 1 = i + 1 + t := by omega
      rw [order] at below ⊢
      have shifted := grown.shifted t below
      have aligned := size_le_align g.mem (i + 1 + t)
      refine ⟨i + t, by rw [grown.num]; omega, by rw [shifted], ?_⟩
      simp only [rowBytes, shifted]
      exact bytesOf_congr fun k short => grown.dataMoved t below k (by omega)
  · intro j below _
    rw [grown.num] at below
    obtain ⟨k, inside, idEq, _⟩ := grown.source bound rfl below
    exact ⟨k, inside, idEq.symm⟩

/-- Every successful update of a well-formed image is a map update at the written id. -/
theorem WellFormed.contents_vendorUpdate {charge : GrowCharge} {id size : Nat} {pbuf : Bytes}
    (wellFormed : WellFormed shape g) (wellFormedAfter : WellFormed shape after)
    (narrow : id < 65536) (fits : size < 4294967233)
    (guarded : ¬AppendsToFullTable shape g id size)
    (updated : VendorStorage.vendorUpdate shape charge g id pbuf size = some after) :
    contents shape after.mem =
      Function.update (contents shape g.mem) id (some (bytesOf pbuf size)) := by
  cases wellFormed.laidOut.updated fits guarded updated with
  | appended missing room row spec => exact spec.contents wellFormed wellFormedAfter narrow
  | rewritten i found le spec =>
      obtain ⟨bound, rfl⟩ := findItem_eq_some found
      exact spec.contents wellFormed wellFormedAfter bound le
  | grown i cursor found grows room spec =>
      obtain ⟨bound, rfl⟩ := findItem_eq_some found
      exact spec.contents wellFormed wellFormedAfter bound

/-! ## Histories of writes -/

/-- The arguments of one `emmc_vendor_write` and the results of its sector transfers. -/
structure WriteCall where
  id : Nat
  pbuf : Bytes
  size : Nat
  transfers : TransferResults

/-- Make one call. -/
def WriteCall.apply (call : WriteCall) (dev : EmmcDevice) : Int × EmmcDevice :=
  emmcVendorWrite call.transfers dev call.id call.pbuf call.size

/-- Make the calls in order; answers each call with its return value. -/
def writeAll : EmmcDevice → List WriteCall → EmmcDevice × List (WriteCall × Int)
  | dev, [] => (dev, [])
  | dev, call :: calls =>
      let (final, results) := writeAll (call.apply dev).2 calls
      (final, (call, (call.apply dev).1) :: results)

/-- The last call for `id` that returned zero. -/
def lastSuccess (id : Nat) : List (WriteCall × Int) → Option WriteCall
  | [] => none
  | (call, ret) :: results =>
      (lastSuccess id results).or (if call.id = id ∧ ret = 0 then some call else none)

/-- The bytes a call stores. -/
def WriteCall.bytes (call : WriteCall) : List UInt8 := bytesOf call.pbuf call.size

/-- Sixteen-bit ids and sizes whose alignment does not wrap. -/
def WriteCall.Narrow (call : WriteCall) : Prop := call.id < 65536 ∧ call.size < 4294967233

/-- The ids in use, of which the table can hold `item[]`'s length. -/
structure UsesIds (ids : Finset Nat) (g : VendorInfo) : Prop where
  wellFormed : WellFormed emmcShape g
  used : ∀ i, i < itemNum g.mem → (item g.mem i).id ∈ ids

/-- A table that lacks an id in use has a free row for it. -/
theorem UsesIds.guarded {ids : Finset Nat} (uses : UsesIds ids g)
    (rows : ids.card ≤ emmcShape.itemMax) {id size : Nat} (member : id ∈ ids) :
    ¬AppendsToFullTable emmcShape g id size := by
  rintro ⟨missing, _, full⟩
  have absent := findItem_eq_none missing
  have count : (Finset.range (itemNum g.mem)).card ≤ (ids.erase id).card := by
    refine Finset.card_le_card_of_injOn (fun i => (item g.mem i).id) ?_ ?_
    · intro i inside
      have bound := Finset.mem_range.mp inside
      exact Finset.mem_erase.mpr ⟨absent i bound, uses.used i bound⟩
    · intro i insideI j insideJ same
      exact uses.wellFormed.ids_injective i j (Finset.mem_range.mp insideI)
        (Finset.mem_range.mp insideJ) same
  have nonempty := Finset.card_pos.mpr ⟨id, member⟩
  rw [Finset.card_range, Finset.card_erase_of_mem member] at count
  omega

/-- What a write does to the denoted map: a success updates it at the written id, a failure
returns `-1` and leaves the device alone. -/
theorem UsesIds.write {ids : Finset Nat} {dev : EmmcDevice} (uses : UsesIds ids dev.gVendor)
    (rows : ids.card ≤ emmcShape.itemMax) {call : WriteCall} (narrow : call.Narrow)
    (member : call.id ∈ ids) :
    UsesIds ids (call.apply dev).2.gVendor ∧
      (((call.apply dev).1 = 0 ∧ contents emmcShape (call.apply dev).2.gVendor.mem =
        Function.update (contents emmcShape dev.gVendor.mem) call.id (some call.bytes)) ∨
      ((call.apply dev).1 = -1 ∧ (call.apply dev).2 = dev)) := by
  have guarded : ¬AppendsToFullTable emmcShape dev.gVendor call.id call.size :=
    uses.guarded rows member
  cases image : emmcNextImage dev.gVendor call.id call.pbuf call.size with
  | none =>
      simp only [WriteCall.apply, emmcVendorWrite, image]
      exact ⟨uses, Or.inr ⟨trivial, trivial⟩⟩
  | some g =>
      simp only [WriteCall.apply, emmcVendorWrite, image]
      obtain ⟨updated, update, imageEq⟩ := Option.map_eq_some_iff.mp image
      have agree : AgreeOn 10 (emmcShape.dataBase + emmcShape.dataSize) g.mem updated.mem :=
        imageEq ▸ agreeOn_data_advance_bump updated
      have middle := uses.wellFormed.vendorUpdate emmcCharge_sound narrow.1 narrow.2 guarded update
      have wellFormed := uses.wellFormed.emmcNextImage narrow.1 narrow.2 guarded image
      have denoted : contents emmcShape g.mem =
          Function.update (contents emmcShape dev.gVendor.mem) call.id (some call.bytes) := by
        rw [contents_congr agree middle.ascending]
        exact uses.wellFormed.contents_vendorUpdate middle narrow.1 narrow.2 guarded update
      refine ⟨⟨wellFormed, fun i bound => ?_⟩, Or.inl ⟨trivial, denoted⟩⟩
      by_contra outside
      have other : (item g.mem i).id ≠ call.id := fun same => outside (same ▸ member)
      have absent : contents emmcShape dev.gVendor.mem (item g.mem i).id = none :=
        contents_eq_none fun j below same => outside (same ▸ uses.used j below)
      have present := congrFun denoted (item g.mem i).id
      rw [wellFormed.contents_eq bound, Function.update_of_ne other, absent] at present
      contradiction

/-- After any history the map holds, under each id, what its last successful write stored. -/
theorem UsesIds.writeAll {ids : Finset Nat} {dev : EmmcDevice} (uses : UsesIds ids dev.gVendor)
    (rows : ids.card ≤ emmcShape.itemMax) {calls : List WriteCall}
    (narrow : ∀ call ∈ calls, call.Narrow) (members : ∀ call ∈ calls, call.id ∈ ids) :
    UsesIds ids (writeAll dev calls).1.gVendor ∧ ∀ id,
      contents emmcShape (VendorStorage.writeAll dev calls).1.gVendor.mem id =
        ((lastSuccess id (VendorStorage.writeAll dev calls).2).map WriteCall.bytes).or
          (contents emmcShape dev.gVendor.mem id) := by
  induction calls generalizing dev with
  | nil => exact ⟨uses, fun _ => rfl⟩
  | cons call calls ih =>
      obtain ⟨usesNext, effect⟩ := uses.write rows (narrow call List.mem_cons_self)
        (members call List.mem_cons_self)
      obtain ⟨usesFinal, denoted⟩ := ih usesNext
        (fun other member => narrow other (List.mem_cons_of_mem _ member))
        (fun other member => members other (List.mem_cons_of_mem _ member))
      refine ⟨usesFinal, fun id => ?_⟩
      simp only [VendorStorage.writeAll, lastSuccess]
      rw [denoted]
      rcases effect with ⟨success, updated⟩ | ⟨failure, unchanged⟩
      · rw [updated, success]
        by_cases same : call.id = id
        · subst same
          cases lastSuccess call.id _ <;> simp
        · rw [Function.update_of_ne (Ne.symm same)]
          cases lastSuccess id _ <;> simp [same]
      · rw [unchanged, failure]
        cases lastSuccess id _ <;> simp

/-- A history of narrow writes that uses no more ids than the table has rows. -/
structure Admissible (calls : List WriteCall) : Prop where
  narrow : ∀ call ∈ calls, call.Narrow
  rows : (calls.map WriteCall.id).toFinset.card ≤ emmcShape.itemMax

theorem Fresh.usesIds {m : Bytes} (fresh : Fresh m) (ids : Finset Nat) :
    UsesIds ids ⟨m, false⟩ :=
  ⟨fresh.wellFormed, fun i bound => absurd bound (by simp [fresh.itemNum])⟩

theorem Admissible.writeAll_fresh {calls : List WriteCall} (admissible : Admissible calls)
    {m : Bytes} (fresh : Fresh m) (media : Media) :
    UsesIds (calls.map WriteCall.id).toFinset (writeAll ⟨⟨m, false⟩, media⟩ calls).1.gVendor ∧
      ∀ id, contents emmcShape (writeAll ⟨⟨m, false⟩, media⟩ calls).1.gVendor.mem id =
        (lastSuccess id (writeAll ⟨⟨m, false⟩, media⟩ calls).2).map WriteCall.bytes := by
  have initial : UsesIds (calls.map WriteCall.id).toFinset
      (⟨⟨m, false⟩, media⟩ : EmmcDevice).gVendor := fresh.usesIds _
  obtain ⟨uses, denoted⟩ := initial.writeAll admissible.rows admissible.narrow
    fun call member => List.mem_toFinset.mpr (List.mem_map_of_mem member)
  refine ⟨uses, fun id => ?_⟩
  have empty : contents emmcShape m id = none :=
    contents_eq_none fun i bound => absurd bound (by simp [fresh.itemNum])
  rw [denoted, empty, Option.or_none]

/-- A read answers the prefix of the last successful write of its id. -/
def ReadsAs (dev : EmmcDevice) (id : Nat) (last : Option WriteCall) : Prop :=
  ∀ buffer n, match last with
    | some call => (emmcVendorRead dev id buffer n).1 = (min n call.size : Nat) ∧
        ∀ k, k < min n call.size → (emmcVendorRead dev id buffer n).2 k = call.pbuf k
    | none => emmcVendorRead dev id buffer n = (-1, buffer)

theorem readsAs_of_contents {dev : EmmcDevice} {id : Nat} {last : Option WriteCall}
    (denoted : contents emmcShape dev.gVendor.mem id = last.map WriteCall.bytes) :
    ReadsAs dev id last := by
  intro buffer n
  simp only [emmcVendorRead, vendorRead_eq, denoted]
  cases last with
  | none => rfl
  | some call =>
      simp only [Option.map_some, WriteCall.bytes, bytesOf_length]
      refine ⟨trivial, fun k below => ?_⟩
      rw [copyIn_apply_of_mem (by omega) (by omega), List.getD_eq_getElem?_getD,
        bytesOf_getElem? (by omega), Option.getD_some, Nat.sub_zero]

/-- On a blank medium the driver is a map: after any admissible history a read answers the last
successful write of its id, and one more write changes at most the value of its own id. -/
theorem emmc_storage_is_map {media : Media} (buffer : Bytes)
    (blank : ∀ i, i < emmcVendorPartNum → ¬SlotValid media i) :
    ∃ g, emmcVendorStorageInit allTransfersOk media buffer = some g ∧
      (∀ calls, Admissible calls → ∀ id,
        ReadsAs (writeAll ⟨g, media⟩ calls).1 id
          (lastSuccess id (writeAll ⟨g, media⟩ calls).2)) ∧
      ∀ calls call, Admissible (call :: calls) →
        let dev := (writeAll ⟨g, media⟩ calls).1
        ((call.apply dev).1 = 0 ∧ ∀ id, id ≠ call.id → ∀ out n,
          emmcVendorRead (call.apply dev).2 id out n = emmcVendorRead dev id out n) ∨
        ((call.apply dev).1 = -1 ∧ (call.apply dev).2 = dev) := by
  obtain ⟨old, mounted⟩ := emmcVendorStorageInit_blank buffer blank
  have fresh := emmcFreshImage_fresh old
  refine ⟨_, mounted, fun calls admissible id => ?_, fun calls call admissible => ?_⟩
  · exact readsAs_of_contents ((admissible.writeAll_fresh fresh media).2 id)
  · have initial : UsesIds ((call :: calls).map WriteCall.id).toFinset
        (⟨⟨emmcFreshImage old, false⟩, media⟩ : EmmcDevice).gVendor := fresh.usesIds _
    have member : ∀ other ∈ call :: calls,
        other.id ∈ ((call :: calls).map WriteCall.id).toFinset := fun other inside =>
      List.mem_toFinset.mpr (List.mem_map_of_mem inside)
    obtain ⟨uses, _⟩ := initial.writeAll admissible.rows
      (fun other inside => admissible.narrow other (List.mem_cons_of_mem _ inside))
      (fun other inside => member other (List.mem_cons_of_mem _ inside))
    obtain ⟨_, effect⟩ := uses.write admissible.rows (admissible.narrow call List.mem_cons_self)
      (member call List.mem_cons_self)
    refine effect.imp (fun success => ⟨success.1, fun id other out n => ?_⟩) id
    simp only [emmcVendorRead, vendorRead_eq, success.2, Function.update_of_ne other]

theorem emmc_storage_is_map_zeroMedia :
    ∃ g, emmcVendorStorageInit allTransfersOk zeroMedia (fun _ => 0) = some g ∧
      (∀ calls, Admissible calls → ∀ id,
        ReadsAs (writeAll ⟨g, zeroMedia⟩ calls).1 id
          (lastSuccess id (writeAll ⟨g, zeroMedia⟩ calls).2)) ∧
      ∀ calls call, Admissible (call :: calls) →
        let dev := (writeAll ⟨g, zeroMedia⟩ calls).1
        ((call.apply dev).1 = 0 ∧ ∀ id, id ≠ call.id → ∀ out n,
          emmcVendorRead (call.apply dev).2 id out n = emmcVendorRead dev id out n) ∨
        ((call.apply dev).1 = -1 ∧ (call.apply dev).2 = dev) :=
  emmc_storage_is_map _ fun i _ => not_slotValid_zeroMedia i

/-- One write on a fresh image, whatever its arguments. -/
theorem apply_fresh {m : Bytes} (fresh : Fresh m) (media : Media) (call : WriteCall)
    (room : align call.size ≤ emmcShape.dataSize) :
    (call.apply ⟨⟨m, false⟩, media⟩).1 = 0 ∧
      itemNum (call.apply ⟨⟨m, false⟩, media⟩).2.gVendor.mem = 1 ∧
      item (call.apply ⟨⟨m, false⟩, media⟩).2.gVendor.mem 0 =
        ⟨call.id % 65536, 0, call.size % 65536⟩ := by
  have base := emmcShape_dataBase
  have missing : findItem m call.id = none := by
    simp [findItem, fresh.itemNum]
  have image : emmcNextImage ⟨m, false⟩ call.id call.pbuf call.size =
      some (advanceNextIndex (bumpVersion emmcShape
        (appendItem emmcShape ⟨m, false⟩ call.id call.pbuf call.size))) := by
    simp only [emmcNextImage, vendorUpdate, missing, fresh.freeSize, if_pos room, Option.map_some]
  have agree := agreeOn_advance_bump
    (appendItem emmcShape ⟨m, false⟩ call.id call.pbuf call.size)
  have row : itemNum (⟨m, false⟩ : VendorInfo).mem < emmcShape.itemMax := by
    rw [fresh.itemNum]
    decide
  simp only [WriteCall.apply, emmcVendorWrite, image, true_and]
  constructor
  · refine (agree.read16 (by omega) (by omega)).trans ((itemNum_appendItem _ _ _ _ _).trans ?_)
    simp only [fresh.itemNum]
  · rw [item_congr (agree.mono (by omega) (by omega)), item_appendItem row (Nat.zero_le _)]
    simp only [fresh.itemNum, fresh.freeOffset, item_fillItem_self]

/-- A write whose id is wider than the `id` of an item. -/
def wideIdWrite : WriteCall := ⟨65537, fun _ => 7, 1, allTransfersOk⟩

/-- A write whose aligned size wraps to zero. -/
def wideSizeWrite : WriteCall := ⟨1, fun _ => 7, 4294967295, allTransfersOk⟩

/-- A stored id has sixteen bits, and `ALIGN` of the largest sizes wraps to zero: both writes
succeed, the first is not found again and the second is read back cut to sixteen bits. -/
theorem wide_writes_are_not_read_back :
    ∃ g, emmcVendorStorageInit allTransfersOk zeroMedia (fun _ => 0) = some g ∧
      (wideIdWrite.apply ⟨g, zeroMedia⟩).1 = 0 ∧
      (emmcVendorRead (wideIdWrite.apply ⟨g, zeroMedia⟩).2 65537 (fun _ => 0) 1).1 = -1 ∧
      (wideSizeWrite.apply ⟨g, zeroMedia⟩).1 = 0 ∧
      (emmcVendorRead (wideSizeWrite.apply ⟨g, zeroMedia⟩).2 1 (fun _ => 0) 65536).1 = 65535 := by
  obtain ⟨old, mounted⟩ :=
    emmcVendorStorageInit_blank (fun _ => 0) fun i _ => not_slotValid_zeroMedia i
  have fresh := emmcFreshImage_fresh old
  obtain ⟨retId, numId, rowId⟩ := apply_fresh fresh zeroMedia wideIdWrite (by decide)
  obtain ⟨retSize, numSize, rowSize⟩ := apply_fresh fresh zeroMedia wideSizeWrite (by decide)
  refine ⟨_, mounted, retId, ?_, retSize, ?_⟩
  · rw [emmcVendorRead, vendorRead_eq, contents_eq_none fun i bound => ?_]
    have first : i = 0 := by omega
    rw [first, rowId]
    decide
  · have found : findItem (wideSizeWrite.apply
        ⟨⟨emmcFreshImage old, false⟩, zeroMedia⟩).2.gVendor.mem 1 = some 0 := by
      simp only [findItem, numSize, List.range_one, List.find?_cons, rowSize]
      rfl
    simp only [emmcVendorRead, vendorRead, found, rowSize]
    rfl

end VendorStorage
end RockchipSoc
