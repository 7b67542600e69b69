import RockchipSoc.Foundation.LabelledRun
import RockchipSoc.VendorStorage.Update
import RockchipSoc.VendorStorage.EmmcMount

/-!
# The layout of the item table

Every update keeps the table packed in ascending order below `free_offset`, with one exception:
the append branch checks `free_size` only, so it fills `item[itemMax]` once the table is full.
The invariant is therefore exact: a history keeps it as long as no write appends to a full table,
and the first write that does breaks it.
-/

namespace RockchipSoc
namespace VendorStorage

open ByteMemory LabelledRun

variable {shape : ImageShape} {g after : VendorInfo}

/-- The layout that callers of the storage rely on. -/
structure LayoutInvariant (shape : ImageShape) (g : VendorInfo) : Prop where
  itemNum_le : itemNum g.mem ≤ shape.itemMax
  item_inside : ∀ i, i < itemNum g.mem →
    (item g.mem i).offset + align (item g.mem i).size ≤ shape.dataSize
  items_disjoint : ∀ i j, i < itemNum g.mem → j < itemNum g.mem → i ≠ j →
    (item g.mem i).offset + align (item g.mem i).size ≤ (item g.mem j).offset ∨
      (item g.mem j).offset + align (item g.mem j).size ≤ (item g.mem i).offset
  ids_distinct : ∀ i j, i < itemNum g.mem → j < itemNum g.mem → i ≠ j →
    (item g.mem i).id ≠ (item g.mem j).id
  item_below_free : ∀ i, i < itemNum g.mem →
    (item g.mem i).offset + align (item g.mem i).size ≤ freeOffset g.mem
  freeOffset_le : freeOffset g.mem ≤ shape.dataSize
  /-- No store so far went through `item[itemMax]` or past `data[]`. -/
  stores_inside : g.overrun = false

theorem WellFormed.layoutInvariant (wellFormed : WellFormed shape g) : LayoutInvariant shape g where
  itemNum_le := wellFormed.ascending.le_itemMax
  item_inside i bound := wellFormed.ascending.inside i (Nat.zero_le _) bound
  items_disjoint i j boundI boundJ ne := by
    rcases Nat.lt_or_gt_of_ne ne with lt | gt
    · exact Or.inl (wellFormed.ascending.le_of_lt (Nat.zero_le _) lt boundJ)
    · exact Or.inr (wellFormed.ascending.le_of_lt (Nat.zero_le _) gt boundI)
  ids_distinct i j boundI boundJ ne same := ne (wellFormed.ids_injective i j boundI boundJ same)
  item_below_free := wellFormed.below_free
  freeOffset_le := Nat.le_trans (Nat.le_add_right _ _) wellFormed.free_fits
  stores_inside := wellFormed.noOverrun

/-- The layout is a property of the counters, the table and the ghost flag. -/
theorem LaidOut.congr (laidOut : LaidOut shape g)
    (agree : AgreeOn 10 shape.dataBase after.mem g.mem) (flag : after.overrun = g.overrun) :
    LaidOut shape after := by
  have base : shape.dataBase = 16 + 8 * shape.itemMax := rfl
  have capacity := laidOut.ascending.le_itemMax
  have num : itemNum after.mem = itemNum g.mem := agree.read16 (by omega) (by omega)
  have freeO : freeOffset after.mem = freeOffset g.mem := agree.read16 (by omega) (by omega)
  have freeS : freeSize after.mem = freeSize g.mem := agree.read16 (by omega) (by omega)
  have row : ∀ i, i < itemNum g.mem → item after.mem i = item g.mem i := fun i bound =>
    item_congr (agree.mono (by omega) (by omega))
  refine ⟨?_, ?_, ?_, flag.trans laidOut.noOverrun⟩
  · rw [num]
    exact laidOut.ascending.congr fun i _ bound => row i bound
  · intro i bound
    rw [num] at bound
    rw [row i bound, freeO]
    exact laidOut.below_free i bound
  · rw [freeO, freeS]
    exact laidOut.free_fits

theorem LaidOut.wellFormed (laidOut : LaidOut shape g)
    (ids_injective : ∀ i j, i < itemNum g.mem → j < itemNum g.mem →
      (item g.mem i).id = (item g.mem j).id → i = j) : WellFormed shape g :=
  ⟨laidOut.ascending, ids_injective, laidOut.below_free, laidOut.free_fits, laidOut.noOverrun⟩

theorem WellFormed.congr (wellFormed : WellFormed shape g)
    (agree : AgreeOn 10 shape.dataBase after.mem g.mem) (flag : after.overrun = g.overrun) :
    WellFormed shape after := by
  have base : shape.dataBase = 16 + 8 * shape.itemMax := rfl
  have capacity := wellFormed.ascending.le_itemMax
  have num : itemNum after.mem = itemNum g.mem := agree.read16 (by omega) (by omega)
  have row : ∀ i, i < itemNum g.mem → item after.mem i = item g.mem i := fun i bound =>
    item_congr (agree.mono (by omega) (by omega))
  refine (wellFormed.laidOut.congr agree flag).wellFormed fun i j boundI boundJ same => ?_
  rw [num] at boundI boundJ
  rw [row i boundI, row j boundJ] at same
  exact wellFormed.ids_injective i j boundI boundJ same

/-! ## The branches keep the layout -/

theorem Appended.laidOut {id size : Nat} {pbuf : Bytes} (laidOut : LaidOut shape g)
    (appended : Appended shape g id pbuf size after) (row : itemNum g.mem < shape.itemMax)
    (room : align size ≤ freeSize g.mem) : LaidOut shape after := by
  have free := laidOut.free_fits
  have added := appended.added
  refine ⟨⟨?_, ?_, ?_⟩, ?_, ?_, appended.overrun.trans laidOut.noOverrun⟩
  · rw [appended.num]
    exact row
  · intro i _ bound
    rw [appended.num] at bound
    rw [appended.kept i (by omega)]
    rcases Nat.lt_or_ge (i + 1) (itemNum g.mem) with old | new
    · rw [appended.kept (i + 1) old]
      exact laidOut.ascending.step i (Nat.zero_le _) old
    · rw [show i + 1 = itemNum g.mem by omega, added]
      exact laidOut.below_free i (by omega)
  · intro i _ bound
    rw [appended.num] at bound
    rcases Nat.lt_succ_iff_lt_or_eq.mp bound with old | rfl
    · rw [appended.kept i old]
      exact laidOut.ascending.inside i (Nat.zero_le _) old
    · rw [added]
      simp only
      omega
  · intro i bound
    rw [appended.num] at bound
    rw [appended.freeOffset_eq]
    rcases Nat.lt_succ_iff_lt_or_eq.mp bound with old | rfl
    · rw [appended.kept i old]
      have := laidOut.below_free i old
      omega
    · exact Nat.le_of_eq (by rw [added])
  · rw [appended.freeOffset_eq, appended.freeSize_eq]
    omega

theorem Appended.wellFormed {id size : Nat} {pbuf : Bytes} (wellFormed : WellFormed shape g)
    (appended : Appended shape g id pbuf size after) (row : itemNum g.mem < shape.itemMax)
    (narrow : id < 65536) (missing : ∀ i, i < itemNum g.mem → (item g.mem i).id ≠ id)
    (room : align size ≤ freeSize g.mem) : WellFormed shape after := by
  have added := appended.added
  rw [Nat.mod_eq_of_lt narrow] at added
  refine (appended.laidOut wellFormed.laidOut row room).wellFormed fun i j boundI boundJ same => ?_
  rw [appended.num] at boundI boundJ
  rcases Nat.lt_succ_iff_lt_or_eq.mp boundI with oldI | rfl <;>
    rcases Nat.lt_succ_iff_lt_or_eq.mp boundJ with oldJ | rfl
  · rw [appended.kept i oldI, appended.kept j oldJ] at same
    exact wellFormed.ids_injective i j oldI oldJ same
  · rw [appended.kept i oldI, added] at same
    exact absurd same (missing i oldI)
  · rw [appended.kept j oldJ, added] at same
    exact absurd same.symm (missing j oldJ)
  · rfl

theorem Rewritten.laidOut {i size : Nat} {pbuf : Bytes} (laidOut : LaidOut shape g)
    (rewritten : Rewritten shape g i pbuf size after)
    (fits : align size ≤ align (item g.mem i).size) : LaidOut shape after := by
  have place : ∀ j, j < itemNum g.mem → (item after.mem j).offset = (item g.mem j).offset ∧
      align (item after.mem j).size ≤ align (item g.mem j).size := by
    intro j below
    by_cases same : j = i
    · rw [same, rewritten.resized]
      exact ⟨rfl, fits⟩
    · rw [rewritten.kept j same below]
      exact ⟨rfl, Nat.le_refl _⟩
  refine ⟨⟨?_, ?_, ?_⟩, ?_, ?_, rewritten.overrun.trans laidOut.noOverrun⟩
  · rw [rewritten.num]
    exact laidOut.ascending.le_itemMax
  · intro j lower below
    rw [rewritten.num] at below
    obtain ⟨start, room⟩ := place j (by omega)
    obtain ⟨next, _⟩ := place (j + 1) below
    have gap := laidOut.ascending.step j lower below
    omega
  · intro j lower below
    rw [rewritten.num] at below
    obtain ⟨start, room⟩ := place j below
    have inside := laidOut.ascending.inside j lower below
    omega
  · intro j below
    rw [rewritten.num] at below
    obtain ⟨start, room⟩ := place j below
    have inside := laidOut.below_free j below
    rw [rewritten.freeOffset_eq]
    omega
  · rw [rewritten.freeOffset_eq, rewritten.freeSize_eq]
    exact laidOut.free_fits

theorem Rewritten.wellFormed {i size : Nat} {pbuf : Bytes} (wellFormed : WellFormed shape g)
    (rewritten : Rewritten shape g i pbuf size after)
    (fits : align size ≤ align (item g.mem i).size) : WellFormed shape after := by
  have idKept : ∀ j, j < itemNum g.mem → (item after.mem j).id = (item g.mem j).id := by
    intro j below
    by_cases same : j = i
    · rw [same, rewritten.resized]
    · rw [rewritten.kept j same below]
  refine (rewritten.laidOut wellFormed.laidOut fits).wellFormed fun j k belowJ belowK same => ?_
  rw [rewritten.num] at belowJ belowK
  rw [idKept j belowJ, idKept k belowK] at same
  exact wellFormed.ids_injective j k belowJ belowK same

/-- The charge never promises more room than the data area has above `free_offset`. -/
def ChargeSound (shape : ImageShape) (charge : GrowCharge) : Prop :=
  ∀ m alignSize allocSize, allocSize ≤ alignSize → alignSize ≤ freeSize m →
    freeOffset m + freeSize m + allocSize ≤ shape.dataSize + alignSize →
      freeOffset m + charge m alignSize allocSize % 65536 ≤ shape.dataSize

section Grown

variable {charge : GrowCharge} {i id size cursor : Nat} {pbuf : Bytes}

/-- Each row of a grown table carries the id of one old row, the grown item going last. -/
theorem Grown.source (grown : Grown shape charge g i id pbuf size cursor after)
    (bound : i < itemNum g.mem) (same : id = (item g.mem i).id) {j : Nat}
    (below : j < itemNum g.mem) :
    ∃ k, k < itemNum g.mem ∧ (item after.mem j).id = (item g.mem k).id ∧
      ((j < i ∧ k = j) ∨ (i ≤ j ∧ k = j + 1) ∨ (i ≤ j ∧ j = itemNum g.mem - 1 ∧ k = i)) := by
  rcases Nat.lt_or_ge j i with early | late
  · exact ⟨j, below, by rw [grown.kept j early], Or.inl ⟨early, rfl⟩⟩
  · obtain ⟨t, rfl⟩ := Nat.exists_eq_add_of_le late
    rcases Nat.lt_or_ge (i + 1 + t) (itemNum g.mem) with moved | last
    · exact ⟨i + 1 + t, moved, by rw [grown.shifted t moved], Or.inr (Or.inl ⟨late, by omega⟩)⟩
    · have eq : i + t = itemNum g.mem - 1 := by omega
      refine ⟨i, bound, ?_, Or.inr (Or.inr ⟨late, eq, rfl⟩)⟩
      rw [eq, grown.placed, same]
      exact Nat.mod_eq_of_lt (item_id_lt _ _)

/-- From the grown row on, items start at the cursors of the compaction. -/
theorem Grown.offset_eq (grown : Grown shape charge g i id pbuf size cursor after) {t : Nat}
    (below : i + t < itemNum g.mem) :
    (item after.mem (i + t)).offset = packed g.mem (i + 1) (item g.mem i).offset t := by
  rcases Nat.lt_or_ge (i + 1 + t) (itemNum g.mem) with moved | last
  · rw [grown.shifted t moved]
  · rw [show i + t = itemNum g.mem - 1 by omega, grown.placed, grown.cursor_eq,
      show itemNum g.mem - 1 - i = t by omega]

theorem Grown.offset_le_cursor (grown : Grown shape charge g i id pbuf size cursor after) :
    (item g.mem i).offset ≤ cursor := by
  rw [grown.cursor_eq]
  exact le_packed _ _ _ _

theorem Grown.below_free (laidOut : LaidOut shape g)
    (grown : Grown shape charge g i id pbuf size cursor after) (bound : i < itemNum g.mem) {j : Nat}
    (below : j < itemNum g.mem) :
    (item after.mem j).offset + align (item after.mem j).size ≤ freeOffset after.mem := by
  have start := grown.offset_le_cursor
  rw [grown.freeOffset_eq]
  rcases Nat.lt_or_ge j i with early | late
  · have gap := laidOut.ascending.le_of_lt (Nat.zero_le j) early bound
    rw [grown.kept j early]
    omega
  · obtain ⟨t, rfl⟩ := Nat.exists_eq_add_of_le late
    rcases Nat.lt_or_ge (i + 1 + t) (itemNum g.mem) with moved | last
    · have order : packed g.mem (i + 1) (item g.mem i).offset (t + 1) ≤ cursor := by
        rw [grown.cursor_eq]
        exact packed_mono _ _ _ (by omega)
      rw [packed] at order
      rw [grown.shifted t moved]
      simp only
      omega
    · have last_row : i + t = itemNum g.mem - 1 := by omega
      exact Nat.le_of_eq (by rw [last_row, grown.placed])

theorem Grown.laidOut (sound : ChargeSound shape charge) (laidOut : LaidOut shape g)
    (grown : Grown shape charge g i id pbuf size cursor after) (bound : i < itemNum g.mem)
    (grows : align (item g.mem i).size ≤ align size) (room : align size ≤ freeSize g.mem) :
    LaidOut shape after := by
  have free := laidOut.free_fits
  have slack := grown.cursor_add_le
  have fits : freeOffset after.mem + freeSize after.mem ≤ shape.dataSize := by
    obtain ⟨m, offset_eq, size_eq, charged⟩ := grown.freeSize_eq
    rw [grown.freeOffset_eq, charged, ← offset_eq]
    exact sound m _ _ grows (by omega) (by omega)
  refine ⟨⟨?_, ?_, ?_⟩, ?_, fits, grown.overrun.trans laidOut.noOverrun⟩
  · rw [grown.num]
    exact laidOut.ascending.le_itemMax
  · intro j _ below
    rw [grown.num] at below
    rcases Nat.lt_or_ge j i with early | late
    · have gap := laidOut.ascending.step j (Nat.zero_le _) (by omega)
      rw [grown.kept j early]
      rcases Nat.lt_or_ge (j + 1) i with both | edge
      · rw [grown.kept (j + 1) both]
        exact gap
      · have start := grown.offset_eq (t := 0) (by omega)
        rw [show j + 1 = i by omega] at gap ⊢
        rw [Nat.add_zero] at start
        rw [start]
        exact gap
    · obtain ⟨t, rfl⟩ := Nat.exists_eq_add_of_le late
      have next := grown.offset_eq (t := t + 1) (by omega)
      rw [← Nat.add_assoc] at next
      exact Nat.le_of_eq (by rw [next, grown.shifted t (by omega), packed])
  · intro j _ below
    rw [grown.num] at below
    have inside := grown.below_free laidOut bound below
    omega
  · intro j below
    rw [grown.num] at below
    exact grown.below_free laidOut bound below

theorem Grown.wellFormed (sound : ChargeSound shape charge) (wellFormed : WellFormed shape g)
    (grown : Grown shape charge g i id pbuf size cursor after) (bound : i < itemNum g.mem)
    (same : id = (item g.mem i).id) (grows : align (item g.mem i).size ≤ align size)
    (room : align size ≤ freeSize g.mem) : WellFormed shape after := by
  refine (grown.laidOut sound wellFormed.laidOut bound grows room).wellFormed
    fun j k belowJ belowK equal => ?_
  rw [grown.num] at belowJ belowK
  obtain ⟨j', boundJ, idJ, placeJ⟩ := grown.source bound same belowJ
  obtain ⟨k', boundK, idK, placeK⟩ := grown.source bound same belowK
  have origin := wellFormed.ids_injective j' k' boundJ boundK (by rw [← idJ, ← idK, equal])
  omega

end Grown

/-- The table update has room: an item that outgrows its aligned size, or a new one, needs its
aligned size in `free_size`. -/
def UpdateFits (m : Bytes) (id size : Nat) : Prop :=
  match findItem m id with
  | some i => size ≤ align (item m i).size ∨ align size ≤ freeSize m
  | none => align size ≤ freeSize m

theorem vendorUpdate_isSome_iff {charge : GrowCharge} {id size : Nat} {pbuf : Bytes} :
    (vendorUpdate shape charge g id pbuf size).isSome ↔ UpdateFits g.mem id size := by
  unfold vendorUpdate UpdateFits
  cases findItem g.mem id with
  | none =>
      simp only
      split
      next room => simp [room]
      next full => simp [full]
  | some i =>
      simp only
      split
      next grows =>
        split
        next full => simpa using ⟨grows, full⟩
        next room => simpa using Or.inr (Nat.le_of_not_lt room)
      next fits => simpa using Or.inl (Nat.le_of_not_lt fits)

/-- A write appends to a full table: the branch that the driver does not guard. -/
def AppendsToFullTable (shape : ImageShape) (g : VendorInfo) (id size : Nat) : Prop :=
  findItem g.mem id = none ∧ align size ≤ freeSize g.mem ∧ itemNum g.mem = shape.itemMax

/-- The three ways in which an update succeeds. -/
inductive Updated (shape : ImageShape) (charge : GrowCharge) (g : VendorInfo) (id : Nat)
    (pbuf : Bytes) (size : Nat) (after : VendorInfo) : Prop
  | appended (missing : findItem g.mem id = none) (room : align size ≤ freeSize g.mem)
      (row : itemNum g.mem < shape.itemMax) (spec : Appended shape g id pbuf size after)
  | rewritten (i : Nat) (found : findItem g.mem id = some i)
      (fits : size ≤ align (item g.mem i).size) (spec : Rewritten shape g i pbuf size after)
  | grown (i cursor : Nat) (found : findItem g.mem id = some i)
      (grows : align (item g.mem i).size < size) (room : align size ≤ freeSize g.mem)
      (spec : Grown shape charge g i id pbuf size cursor after)

/-- Every update outside the unguarded branch is one of the three. -/
theorem LaidOut.updated {charge : GrowCharge} {id size : Nat} {pbuf : Bytes}
    (laidOut : LaidOut shape g) (fits : size < 4294967233)
    (guarded : ¬AppendsToFullTable shape g id size)
    (updated : vendorUpdate shape charge g id pbuf size = some after) :
    Updated shape charge g id pbuf size after := by
  unfold VendorStorage.vendorUpdate at updated
  cases found : findItem g.mem id with
  | none =>
      simp only [found] at updated
      split at updated
      case isFalse => contradiction
      case isTrue room =>
        obtain rfl := Option.some.inj updated
        have capacity := laidOut.ascending.le_itemMax
        have row : itemNum g.mem < shape.itemMax :=
          Nat.lt_of_le_of_ne capacity fun full => guarded ⟨found, room, full⟩
        exact .appended found room row (appendItem_spec laidOut row fits room)
  | some i =>
      obtain ⟨bound, same⟩ := findItem_eq_some found
      simp only [found] at updated
      split at updated
      case isTrue grows =>
        split at updated
        case isTrue => contradiction
        case isFalse room =>
          obtain rfl := Option.some.inj updated
          have room := Nat.le_of_not_lt room
          have grown : ∃ cursor, Grown shape charge g i id pbuf size cursor
              (growItem shape charge g i id pbuf size) :=
            growItem_spec laidOut bound fits grows room
          obtain ⟨cursor, spec⟩ := grown
          exact .grown i cursor found grows room spec
      case isFalse fitsInPlace =>
        obtain rfl := Option.some.inj updated
        have le := Nat.le_of_not_lt fitsInPlace
        exact .rewritten i found le (rewriteItem_spec laidOut bound le)

theorem Updated.laidOut {charge : GrowCharge} {id size : Nat} {pbuf : Bytes}
    (sound : ChargeSound shape charge) (laidOut : LaidOut shape g) (fits : size < 4294967233)
    (updated : Updated shape charge g id pbuf size after) : LaidOut shape after := by
  cases updated with
  | appended missing room row spec => exact spec.laidOut laidOut row room
  | rewritten i found le spec => exact spec.laidOut laidOut (align_le_of_le le)
  | grown i cursor found grows room spec =>
      have le := le_align fits
      exact spec.laidOut sound laidOut (findItem_eq_some found).1 (by omega) room

/-- Every other update keeps the layout. -/
theorem WellFormed.vendorUpdate {charge : GrowCharge} {id size : Nat} {pbuf : Bytes}
    (sound : ChargeSound shape charge) (wellFormed : WellFormed shape g) (narrow : id < 65536)
    (fits : size < 4294967233) (guarded : ¬AppendsToFullTable shape g id size)
    (updated : vendorUpdate shape charge g id pbuf size = some after) :
    WellFormed shape after := by
  cases wellFormed.laidOut.updated fits guarded updated with
  | appended missing room row spec =>
      exact spec.wellFormed wellFormed row narrow (findItem_eq_none missing) room
  | rewritten i found le spec => exact spec.wellFormed wellFormed (align_le_of_le le)
  | grown i cursor found grows room spec =>
      obtain ⟨bound, same⟩ := findItem_eq_some found
      have le := le_align fits
      exact spec.wellFormed sound wellFormed bound same.symm (by omega) room

/-! ## Images of the eMMC driver -/

/-- `version++` and the rotation of `next_index` leave the table and the data alone. -/
theorem agreeOn_bumpVersion (shape : ImageShape) (g : VendorInfo) :
    AgreeOn 10 (shape.dataBase + shape.dataSize) (bumpVersion shape g).mem g.mem := by
  intro a lower upper
  have tail : shape.version2Base = shape.dataBase + shape.dataSize + 4 := rfl
  simp only [bumpVersion]
  rw [write32_apply_of_ne (by omega), write32_apply_of_ne (by omega)]

theorem agreeOn_advanceNextIndex (g : VendorInfo) (stop : Nat) :
    AgreeOn 10 stop (advanceNextIndex g).mem g.mem := by
  intro a lower upper
  simp only [advanceNextIndex]
  split
  · rw [write16_apply_of_ne (by omega), write16_apply_of_ne (by omega)]
  · rw [write16_apply_of_ne (by omega)]

theorem agreeOn_data_advance_bump (g : VendorInfo) :
    AgreeOn 10 (emmcShape.dataBase + emmcShape.dataSize)
      (advanceNextIndex (bumpVersion emmcShape g)).mem g.mem :=
  (agreeOn_advanceNextIndex _ _).trans (agreeOn_bumpVersion emmcShape g)

theorem agreeOn_advance_bump (g : VendorInfo) : AgreeOn 10 emmcShape.dataBase
    (advanceNextIndex (bumpVersion emmcShape g)).mem g.mem :=
  (agreeOn_data_advance_bump g).mono (Nat.le_refl _) (Nat.le_add_right _ _)

theorem emmcCharge_sound : ChargeSound shape emmcCharge := by
  intro m alignSize allocSize le room bound
  have narrow := shape.dataSize_lt
  simp only [emmcCharge]
  omega

/-- The fresh image: version one in both places, the first slot next, and an empty table. -/
structure Fresh (m : Bytes) : Prop where
  tag : tag m = emmcVendorTag
  version : version m = 1
  version2 : version2 emmcShape m = 1
  nextIndex : nextIndex m = 0
  itemNum : itemNum m = 0
  freeOffset : freeOffset m = 0
  freeSize : freeSize m = emmcShape.dataSize

theorem emmcFreshImage_fresh (buffer : Bytes) : Fresh (emmcFreshImage buffer) := by
  have size := emmcShape_size
  have tail := emmcShape_version2Base
  have zero : ∀ a, a + 2 ≤ 65536 →
      read16 (copyIn buffer 0 (fun _ => 0) emmcShape.size) a = 0 := by
    intro a inside
    simp only [read16]
    rw [copyIn_apply_of_mem (by omega) (by omega), copyIn_apply_of_mem (by omega) (by omega)]
    rfl
  constructor <;>
    simp only [emmcFreshImage, VendorStorage.tag, VendorStorage.version, VendorStorage.version2,
      VendorStorage.nextIndex, VendorStorage.itemNum, VendorStorage.freeOffset,
      VendorStorage.freeSize] <;>
    simp (disch := omega) only [read32_write16_of_disjoint, read32_write32_of_disjoint,
      read32_write32_same, read16_write16_of_disjoint, read16_write32_of_disjoint,
      read16_write16_same, zero] <;>
    decide

theorem Fresh.wellFormed {m : Bytes} (fresh : Fresh m) : WellFormed emmcShape ⟨m, false⟩ := by
  refine ⟨⟨?_, ?_, ?_⟩, ?_, ?_, ?_, rfl⟩
  · simp [fresh.itemNum]
  · intro i _ bound
    simp [fresh.itemNum] at bound
  · intro i _ bound
    simp [fresh.itemNum] at bound
  · intro i j bound
    simp [fresh.itemNum] at bound
  · intro i bound
    simp [fresh.itemNum] at bound
  · simp [fresh.freeOffset, fresh.freeSize]

theorem WellFormed.emmcNextImage {id size : Nat} {pbuf : Bytes}
    (wellFormed : WellFormed emmcShape g) (narrow : id < 65536) (fits : size < 4294967233)
    (guarded : ¬AppendsToFullTable emmcShape g id size)
    (next : emmcNextImage g id pbuf size = some after) : WellFormed emmcShape after := by
  obtain ⟨updated, update, rfl⟩ := Option.map_eq_some_iff.mp next
  exact (wellFormed.vendorUpdate emmcCharge_sound narrow fits guarded update).congr
    (agreeOn_advance_bump updated) rfl

/-! ## Histories of ioctls -/

/-- One call of `vendor_storage_ioctl`. -/
structure IoctlCall where
  env : IoctlEnv
  cmd : IoctlCmd
  req : RkVendorReq

/-- The call is a write that gets as far as `emmc_vendor_write`. -/
def IoctlCall.Accepted (call : IoctlCall) : Prop :=
  call.cmd = .vendorWriteIo ∧ call.env.pageAllocated = true ∧ call.env.headerCopied = true ∧
    call.req.tag = vendorReqTag ∧ call.req.len.toNat < 4096 - 8 ∧ call.env.bodyCopied = true

def ioctlStep (dev : EmmcDevice) (call : IoctlCall) : Option EmmcDevice :=
  some (vendorStorageIoctl call.env call.cmd call.req dev).2.2

/-- No accepted write appends to a full table. -/
def GuardedCall (dev : EmmcDevice) (call : IoctlCall) : Prop :=
  call.Accepted →
    ¬AppendsToFullTable emmcShape dev.gVendor call.env.body.id.toNat call.env.body.len.toNat

/-- Only an accepted write changes the device. -/
theorem ioctlStep_cases (dev : EmmcDevice) (call : IoctlCall) :
    (call.Accepted ∧ ioctlStep dev call = some (emmcVendorWrite call.env.transfers dev
      call.env.body.id.toNat call.env.body.data call.env.body.len.toNat).2) ∨
    (¬call.Accepted ∧ ioctlStep dev call = some dev) := by
  obtain ⟨env, cmd, req⟩ := call
  by_cases allocated : env.pageAllocated = true
  · cases cmd with
    | vendorReadIo =>
        refine Or.inr ⟨fun accepted => by simp [IoctlCall.Accepted] at accepted, ?_⟩
        simp only [ioctlStep, vendorStorageIoctl, allocated, Bool.not_true, Bool.false_eq_true,
          if_false, Option.some.injEq]
        split
        · rfl
        · split
          · split
            · rfl
            · split <;> rfl
          · rfl
    | vendorWriteIo =>
        by_cases accepted : IoctlCall.Accepted ⟨env, .vendorWriteIo, req⟩
        · refine Or.inl ⟨accepted, ?_⟩
          obtain ⟨_, _, header, tagged, short, body⟩ := accepted
          simp only at header tagged short body
          simp [ioctlStep, vendorStorageIoctl, allocated, header, tagged, short, body]
        · refine Or.inr ⟨accepted, ?_⟩
          simp only [IoctlCall.Accepted, allocated, true_and, not_and, Bool.not_eq_true]
            at accepted
          by_cases header : env.headerCopied = true
          · by_cases tagged : req.tag = vendorReqTag ∧ req.len.toNat < 4096 - 8
            · have body := accepted header tagged.1 tagged.2
              simp [ioctlStep, vendorStorageIoctl, allocated, header, tagged, body]
            · simp only [ioctlStep, vendorStorageIoctl, allocated, header, Bool.not_true,
                Bool.false_eq_true, if_false, if_neg tagged]
          · simp [ioctlStep, vendorStorageIoctl, allocated, header]
    | unknown =>
        refine Or.inr ⟨fun accepted => by simp [IoctlCall.Accepted] at accepted, ?_⟩
        simp [ioctlStep, vendorStorageIoctl, allocated]
  · refine Or.inr ⟨fun accepted => allocated accepted.2.1, ?_⟩
    simp [ioctlStep, vendorStorageIoctl, allocated]

theorem WellFormed.ioctlStep {dev next : EmmcDevice} {call : IoctlCall}
    (wellFormed : WellFormed emmcShape dev.gVendor) (guarded : GuardedCall dev call)
    (taken : ioctlStep dev call = some next) : WellFormed emmcShape next.gVendor := by
  rcases ioctlStep_cases dev call with ⟨accepted, writes⟩ | ⟨_, ignored⟩
  · obtain rfl := Option.some.inj (writes.symm.trans taken)
    have short : call.env.body.len.toNat < 65536 := call.env.body.len.toNat_lt
    simp only [emmcVendorWrite]
    split
    case h_1 g image =>
      exact wellFormed.emmcNextImage call.env.body.id.toNat_lt (by omega) (guarded accepted) image
    case h_2 => exact wellFormed
  · obtain rfl := Option.some.inj (ignored.symm.trans taken)
    exact wellFormed

/-- The unguarded append leaves a count that the table does not have. -/
theorem ioctlStep_of_not_guarded {dev : EmmcDevice} {call : IoctlCall}
    (unguarded : ¬GuardedCall dev call) : ∃ next, VendorStorage.ioctlStep dev call = some next ∧
      ¬LayoutInvariant emmcShape next.gVendor := by
  simp only [GuardedCall, Classical.not_imp, not_not] at unguarded
  obtain ⟨accepted, missing, room, full⟩ := unguarded
  rcases ioctlStep_cases dev call with ⟨_, writes⟩ | ⟨refused, _⟩
  · refine ⟨_, writes, fun layout => ?_⟩
    have capacity := layout.itemNum_le
    simp only [emmcVendorWrite, VendorStorage.emmcNextImage, VendorStorage.vendorUpdate, missing,
      if_pos room, Option.map_some] at capacity
    have base := emmcShape_dataBase
    have kept := (agreeOn_advance_bump (appendItem emmcShape dev.gVendor call.env.body.id.toNat
      call.env.body.data call.env.body.len.toNat)).read16 (a := 10) (by omega) (by omega)
    have counted := itemNum_appendItem emmcShape dev.gVendor call.env.body.id.toNat
      call.env.body.data call.env.body.len.toNat
    simp only [itemNum] at capacity kept counted full
    rw [kept, counted, full] at capacity
    exact absurd capacity (by decide)
  · exact absurd accepted refused

/-- From a blank medium the layout survives a history of ioctls exactly when no accepted write
of the history appends to a full table. -/
theorem emmc_layout_always_iff {media : Media} (buffer : Bytes)
    (blank : ∀ i, i < emmcVendorPartNum → ¬SlotValid media i) :
    ∃ g, emmcVendorStorageInit allTransfersOk media buffer = some g ∧ ∀ calls,
      (Always ioctlStep (fun dev => LayoutInvariant emmcShape dev.gVendor) ⟨g, media⟩ calls ↔
        Along ioctlStep GuardedCall ⟨g, media⟩ calls) := by
  obtain ⟨old, fresh⟩ := emmcVendorStorageInit_blank buffer blank
  have initial : WellFormed emmcShape ⟨emmcFreshImage old, false⟩ :=
    (emmcFreshImage_fresh old).wellFormed
  exact ⟨_, fresh, fun calls =>
    always_iff_along (fun dev : EmmcDevice => WellFormed emmcShape dev.gVendor)
      (fun _ wellFormed => wellFormed.layoutInvariant)
      (fun _ _ _ wellFormed _ guarded taken => wellFormed.ioctlStep guarded taken)
      (fun _ _ _ _ unguarded => ioctlStep_of_not_guarded unguarded) initial calls
      (along_anyStep _ calls)⟩

/-- Zeroed sectors carry no tag. -/
def zeroMedia : Media := fun _ _ => 0

theorem not_slotValid_zeroMedia (i : Nat) : ¬SlotValid zeroMedia i :=
  fun valid => absurd (show (0 : Nat) = emmcVendorTag from valid.1) (by decide)

theorem emmc_layout_always_iff_zeroMedia :
    ∃ g, emmcVendorStorageInit allTransfersOk zeroMedia (fun _ => 0) = some g ∧ ∀ calls,
      (Always ioctlStep (fun dev => LayoutInvariant emmcShape dev.gVendor) ⟨g, zeroMedia⟩ calls ↔
        Along ioctlStep GuardedCall ⟨g, zeroMedia⟩ calls) :=
  emmc_layout_always_iff _ fun i _ => not_slotValid_zeroMedia i

/-! ## A history that fills the table -/

/-- An accepted write of no bytes. -/
def emptyWrite (id : Nat) : IoctlCall where
  env := ⟨true, true, true, true, ⟨vendorReqTag, UInt16.ofNat id, 0, fun _ => 0⟩,
    allTransfersOk⟩
  cmd := .vendorWriteIo
  req := ⟨vendorReqTag, UInt16.ofNat id, 0, fun _ => 0⟩

theorem emptyWrite_accepted (id : Nat) : (emptyWrite id).Accepted :=
  ⟨rfl, rfl, rfl, rfl, (by decide : (0 : UInt16).toNat < 4096 - 8), rfl⟩

/-- The table after empty writes of the ids below `n`. -/
structure EmptyItems (n : Nat) (g : VendorInfo) : Prop where
  wellFormed : WellFormed emmcShape g
  num : itemNum g.mem = n
  ids : ∀ i, i < n → (item g.mem i).id = i
  freeSize : freeSize g.mem = emmcShape.dataSize

theorem EmptyItems.missing {n : Nat} (items : EmptyItems n g) : findItem g.mem n = none := by
  refine List.find?_eq_none.mpr fun i member => ?_
  have bound := List.mem_range.mp member
  rw [items.num] at bound
  rw [items.ids i bound]
  simpa using Nat.ne_of_lt bound

theorem EmptyItems.step {n : Nat} {dev : EmmcDevice} (items : EmptyItems n dev.gVendor)
    (row : n < emmcShape.itemMax) :
    ∃ next, ioctlStep dev (emptyWrite n) = some next ∧ EmptyItems (n + 1) next.gVendor := by
  have capacity : emmcShape.itemMax = 126 := rfl
  have num := items.num
  have base := emmcShape_dataBase
  have idEq : (UInt16.ofNat n).toNat = n := by
    simp only [UInt16.toNat_ofNat']
    omega
  rcases ioctlStep_cases dev (emptyWrite n) with ⟨_, writes⟩ | ⟨refused, _⟩
  · have guarded : GuardedCall dev (emptyWrite n) := by
      intro _ full
      exact absurd full.2.2 (by omega)
    have room : align 0 ≤ VendorStorage.freeSize dev.gVendor.mem := Nat.zero_le _
    have update : VendorStorage.emmcNextImage dev.gVendor n (fun _ => 0) 0 =
        some (advanceNextIndex (bumpVersion emmcShape
          (appendItem emmcShape dev.gVendor n (fun _ => 0) 0))) := by
      simp only [VendorStorage.emmcNextImage, VendorStorage.vendorUpdate, items.missing,
        if_pos room, Option.map_some]
    have appended : Appended emmcShape dev.gVendor n (fun _ => 0) 0
        (appendItem emmcShape dev.gVendor n (fun _ => 0) 0) :=
      appendItem_spec items.wellFormed.laidOut (by omega) (by decide) room
    have agree := agreeOn_advance_bump (appendItem emmcShape dev.gVendor n (fun _ => 0) 0)
    have wellFormed := items.wellFormed.ioctlStep guarded writes
    refine ⟨_, writes, ?_⟩
    simp only [emmcVendorWrite, emptyWrite, idEq, UInt16.toNat_zero, update] at wellFormed ⊢
    refine ⟨wellFormed, ?_, fun i bound => ?_, ?_⟩
    · exact (agree.read16 (by omega) (by omega)).trans (appended.num.trans (by omega))
    · rw [item_congr (agree.mono (by omega) (by omega))]
      rcases Nat.lt_succ_iff_lt_or_eq.mp bound with old | rfl
      · rw [appended.kept i (by omega), items.ids i old]
      · have added := appended.added
        rw [num] at added
        rw [added]
        exact Nat.mod_eq_of_lt (by omega)
    · have charged := appended.freeSize_eq
      rw [items.freeSize] at charged
      exact (agree.read16 (by omega) (by omega)).trans charged
  · exact absurd (emptyWrite_accepted n) refused

theorem Fresh.emptyItems {m : Bytes} (fresh : Fresh m) : EmptyItems 0 ⟨m, false⟩ :=
  ⟨fresh.wellFormed, fresh.itemNum, fun _ bound => absurd bound (Nat.not_lt_zero _),
    fresh.freeSize⟩

theorem runs_emptyWrites (dev : EmmcDevice) (items : EmptyItems 0 dev.gVendor) (n : Nat)
    (rows : n ≤ emmcShape.itemMax) :
    ∃ final, runs ioctlStep dev ((List.range n).map emptyWrite) = some final ∧
      EmptyItems n final.gVendor := by
  induction n with
  | zero => exact ⟨dev, rfl, items⟩
  | succ n ih =>
      obtain ⟨middle, execution, reached⟩ := ih (by omega)
      obtain ⟨final, last, next⟩ := reached.step (by omega)
      refine ⟨final, ?_, next⟩
      rw [List.range_succ, List.map_append, runs_append, execution, Option.bind_some]
      simp only [List.map_cons, List.map_nil, runs, last, Option.bind_some]

/-- One empty write more than the table has rows goes through `item[126]`. -/
theorem emptyWrites_break_layout :
    ∃ g, emmcVendorStorageInit allTransfersOk zeroMedia (fun _ => 0) = some g ∧
      (∀ call ∈ (List.range 127).map emptyWrite, call.Accepted) ∧
      ¬Always ioctlStep (fun dev => LayoutInvariant emmcShape dev.gVendor) ⟨g, zeroMedia⟩
        ((List.range 127).map emptyWrite) := by
  obtain ⟨old, fresh⟩ :=
    emmcVendorStorageInit_blank (fun _ => 0) fun i _ => not_slotValid_zeroMedia i
  refine ⟨_, fresh, fun call member => ?_, fun always => ?_⟩
  · obtain ⟨id, _, rfl⟩ := List.mem_map.mp member
    exact emptyWrite_accepted id
  · obtain ⟨full, execution, items⟩ := runs_emptyWrites ⟨_, zeroMedia⟩
      (emmcFreshImage_fresh old).emptyItems 126 (Nat.le_refl _)
    have unguarded : ¬GuardedCall full (emptyWrite 126) := fun guarded =>
      guarded (emptyWrite_accepted 126) ⟨items.missing, Nat.zero_le _, items.num⟩
    obtain ⟨final, last, broken⟩ := ioctlStep_of_not_guarded unguarded
    refine broken (always.of_runs ?_)
    rw [List.range_succ, List.map_append, runs_append, execution, Option.bind_some]
    simp only [List.map_cons, List.map_nil, runs, last, Option.bind_some]

end VendorStorage
end RockchipSoc
