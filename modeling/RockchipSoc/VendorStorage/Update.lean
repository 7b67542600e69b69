import Mathlib.Tactic.Set
import RockchipSoc.VendorStorage.Image

/-!
# What one table update does

Each branch of the shared update is described once, by the item table, the data bytes and the
three counters it leaves behind.  The compaction loop has the only induction: after each pass the
items below the cursor are packed and every byte at or above the cursor is still the original.
-/

namespace RockchipSoc
namespace VendorStorage

open ByteMemory

/-! ## Alignment -/

theorem le_align {x : Nat} (fits : x < 4294967233) : x ≤ align x := by
  simp only [align]
  omega

/-- Aligned room holds whatever fits into it, also after alignment. -/
theorem align_le_of_le {x y : Nat} (le : x ≤ align y) : align x ≤ align y := by
  simp only [align] at *
  omega

theorem item_id_lt (m : Bytes) (i : Nat) : (item m i).id < 65536 := read16_lt _ _
theorem item_size_lt (m : Bytes) (i : Nat) : (item m i).size < 65536 := read16_lt _ _
theorem size_le_align (m : Bytes) (i : Nat) : (item m i).size ≤ align (item m i).size :=
  le_align (Nat.lt_trans (item_size_lt m i) (by decide))

theorem freeOffset_lt (m : Bytes) : freeOffset m < 65536 := read16_lt _ _
theorem freeSize_lt (m : Bytes) : freeSize m < 65536 := read16_lt _ _

/-! ## Frames of the single stores -/

theorem item_congr {left right : Bytes} {i : Nat}
    (agree : AgreeOn (16 + 8 * i) (16 + 8 * i + 6) left right) : item left i = item right i := by
  simp only [item]
  rw [agree.read16 (a := 16 + 8 * i) (by omega) (by omega),
    agree.read16 (a := 16 + 8 * i + 2) (by omega) (by omega),
    agree.read16 (a := 16 + 8 * i + 4) (by omega) (by omega)]

/-- Storing the three fields of one item in the order of the append branch. -/
def fillItem (shape : ImageShape) (g : VendorInfo) (i id offset size : Nat) : VendorInfo :=
  storeItemSize shape (storeItemOffset shape (storeItemId shape g i id) i offset) i size

variable {shape : ImageShape} {g : VendorInfo}

theorem fillItem_mem_of_outside {i id offset size a : Nat}
    (outside : a < 16 + 8 * i ∨ 16 + 8 * i + 6 ≤ a) :
    (fillItem shape g i id offset size).mem a = g.mem a := by
  simp only [fillItem, storeItemSize, storeItemOffset, storeItemId]
  rw [write16_apply_of_ne (by omega), write16_apply_of_ne (by omega),
    write16_apply_of_ne (by omega)]

theorem item_fillItem_self {i id offset size : Nat} :
    item (fillItem shape g i id offset size).mem i =
      ⟨id % 65536, offset % 65536, size % 65536⟩ := by
  simp (disch := omega) only [item, fillItem, storeItemSize, storeItemOffset, storeItemId,
    read16_write16_of_disjoint, read16_write16_same]

theorem item_fillItem_of_ne {i j id offset size : Nat} (ne : j ≠ i) :
    item (fillItem shape g i id offset size).mem j = item g.mem j := by
  apply item_congr
  intro a lower upper
  exact fillItem_mem_of_outside (by omega)

theorem header_fillItem {i id offset size a : Nat} (header : a + 2 ≤ 16) :
    read16 (fillItem shape g i id offset size).mem a = read16 g.mem a :=
  read16_congr (fillItem_mem_of_outside (by omega)) (fillItem_mem_of_outside (by omega))

theorem fillItem_overrun {i id offset size : Nat} (inside : i < shape.itemMax) :
    (fillItem shape g i id offset size).overrun = g.overrun := by
  simp [fillItem, storeItemSize, storeItemOffset, storeItemId, Nat.not_le.mpr inside]

/-- The three field stores commute, so the compaction loop fills its item the same way. -/
theorem shiftItem_eq (j offset : Nat) :
    shiftItem shape g j offset =
      moveData shape
        (fillItem shape g j (item g.mem (j + 1)).id offset (item g.mem (j + 1)).size)
        offset (item g.mem (j + 1)).offset (align (item g.mem (j + 1)).size) := by
  have commute : storeItemOffset shape (storeItemSize shape
        (storeItemId shape g j (item g.mem (j + 1)).id) j (item g.mem (j + 1)).size) j offset =
      fillItem shape g j (item g.mem (j + 1)).id offset (item g.mem (j + 1)).size := by
    simp only [fillItem, storeItemSize, storeItemOffset, storeItemId]
    rw [write16_comm (by omega)]
  have size_kept : (item (storeItemId shape g j (item g.mem (j + 1)).id).mem (j + 1)).size =
      (item g.mem (j + 1)).size := by
    simp (disch := omega) only [item, storeItemId, read16_write16_of_disjoint]
  simp only [shiftItem]
  rw [size_kept, commute, item_fillItem_of_ne (by omega)]

/-! ## The compaction loop -/

/-- Cursor of the compaction after `t` of the items `first, first + 1, ...` were packed. -/
def packed (m : Bytes) (first offset : Nat) : Nat → Nat
  | 0 => offset
  | t + 1 => packed m first offset t + align (item m (first + t)).size

theorem le_packed (m : Bytes) (first offset t : Nat) : offset ≤ packed m first offset t := by
  induction t with
  | zero => exact Nat.le_refl _
  | succ t ih => exact Nat.le_trans ih (Nat.le_add_right _ _)

theorem packed_mono (m : Bytes) (first offset : Nat) {s t : Nat} (le : s ≤ t) :
    packed m first offset s ≤ packed m first offset t := by
  induction le with
  | refl => exact Nat.le_refl _
  | step _ ih => exact Nat.le_trans ih (Nat.le_add_right _ _)

theorem packed_succ_left (m : Bytes) (first offset t : Nat) :
    packed m first offset (t + 1) =
      packed m (first + 1) (offset + align (item m first).size) t := by
  induction t with
  | zero => rfl
  | succ t ih =>
      rw [packed, ih, packed]
      simp only [show first + (t + 1) = first + 1 + t by omega]

theorem packed_add (m : Bytes) (first offset slack t : Nat) :
    packed m first (offset + slack) t = packed m first offset t + slack := by
  induction t with
  | zero => rfl
  | succ t ih =>
      rw [packed, ih, packed]
      omega

theorem packed_congr {left right : Bytes} {first offset t : Nat}
    (same : ∀ k, k < t → item left (first + k) = item right (first + k)) :
    packed left first offset t = packed right first offset t := by
  induction t with
  | zero => rfl
  | succ t ih =>
      rw [packed, packed, ih fun k bound => same k (by omega), same t (by omega)]

/-- The items `lo ≤ i < n` lie inside `data[]` at ascending offsets without overlap. -/
structure Ascending (shape : ImageShape) (m : Bytes) (lo n : Nat) : Prop where
  le_itemMax : n ≤ shape.itemMax
  step : ∀ i, lo ≤ i → i + 1 < n →
    (item m i).offset + align (item m i).size ≤ (item m (i + 1)).offset
  inside : ∀ i, lo ≤ i → i < n → (item m i).offset + align (item m i).size ≤ shape.dataSize

theorem Ascending.mono {m : Bytes} {lo lo' n : Nat} (ascending : Ascending shape m lo n)
    (le : lo ≤ lo') : Ascending shape m lo' n :=
  ⟨ascending.le_itemMax, fun i lower => ascending.step i (by omega),
    fun i lower => ascending.inside i (by omega)⟩

theorem Ascending.congr {left right : Bytes} {lo n : Nat} (ascending : Ascending shape left lo n)
    (same : ∀ i, lo ≤ i → i < n → item right i = item left i) : Ascending shape right lo n := by
  refine ⟨ascending.le_itemMax, fun i lower upper => ?_, fun i lower upper => ?_⟩
  · rw [same i lower (by omega), same (i + 1) (by omega) upper]
    exact ascending.step i lower upper
  · rw [same i lower upper]
    exact ascending.inside i lower upper

theorem Ascending.le_of_lt {m : Bytes} {lo n i j : Nat} (ascending : Ascending shape m lo n)
    (lower : lo ≤ i) (lt : i < j) (bound : j < n) :
    (item m i).offset + align (item m i).size ≤ (item m j).offset := by
  induction j with
  | zero => omega
  | succ j ih =>
      rcases Nat.lt_succ_iff_lt_or_eq.mp lt with earlier | rfl
      · have first := ih earlier (by omega)
        have second := ascending.step j (by omega) bound
        omega
      · exact ascending.step i lower bound

/-- Room freed below the items is still free below the cursor when it reaches them. -/
theorem packed_add_le_offset {n j offset slack t : Nat}
    (ascending : Ascending shape g.mem (j + 1) (j + 1 + n))
    (below : offset + slack ≤ (item g.mem (j + 1)).offset) (bound : t < n) :
    packed g.mem (j + 1) offset t + slack ≤ (item g.mem (j + 1 + t)).offset := by
  induction t with
  | zero => exact below
  | succ t ih =>
      have earlier := ih (by omega)
      have room := ascending.step (j + 1 + t) (by omega) (by omega)
      rw [packed]
      simp only [show j + 1 + (t + 1) = j + 1 + t + 1 by omega]
      omega

/-- The result of compacting `n` items starting at index `j + 1` down to `offset`. -/
structure Compacted (shape : ImageShape) (g : VendorInfo) (n j offset : Nat)
    (after : VendorInfo) : Prop where
  table : ∀ t, t < n → item after.mem (j + t) =
    ⟨(item g.mem (j + 1 + t)).id, packed g.mem (j + 1) offset t, (item g.mem (j + 1 + t)).size⟩
  moved : ∀ t, t < n → ∀ b, b < align (item g.mem (j + 1 + t)).size →
    dataByte shape after.mem (packed g.mem (j + 1) offset t + b) =
      dataByte shape g.mem ((item g.mem (j + 1 + t)).offset + b)
  frame : ∀ a, a < 16 + 8 * j ∨ (16 + 8 * (j + n) ≤ a ∧ a < shape.dataBase + offset) ∨
    shape.dataBase + packed g.mem (j + 1) offset n ≤ a → after.mem a = g.mem a
  overrun : after.overrun = g.overrun

theorem shiftItem_mem_of_outside {j offset a : Nat}
    (outside : a < 16 + 8 * j ∨ 16 + 8 * j + 6 ≤ a)
    (above : a < shape.dataBase + offset ∨
      shape.dataBase + offset + align (item g.mem (j + 1)).size ≤ a) :
    (shiftItem shape g j offset).mem a = g.mem a := by
  rw [shiftItem_eq]
  simp only [moveData]
  rw [copyForward_apply_of_notMem (by omega), fillItem_mem_of_outside outside]

/-- One pass moves one item: its row, then its bytes. -/
theorem item_shiftItem {j offset : Nat} (inTable : j < shape.itemMax) (narrow : offset < 65536) :
    item (shiftItem shape g j offset).mem j =
      ⟨(item g.mem (j + 1)).id, offset, (item g.mem (j + 1)).size⟩ := by
  have base : shape.dataBase = 16 + 8 * shape.itemMax := rfl
  rw [shiftItem_eq]
  have frame : item (moveData shape
        (fillItem shape g j (item g.mem (j + 1)).id offset (item g.mem (j + 1)).size)
        offset (item g.mem (j + 1)).offset (align (item g.mem (j + 1)).size)).mem j =
      item (fillItem shape g j (item g.mem (j + 1)).id offset (item g.mem (j + 1)).size).mem j := by
    apply item_congr
    intro a lower upper
    exact copyForward_apply_of_notMem (by omega)
  rw [frame, item_fillItem_self, Nat.mod_eq_of_lt (item_id_lt _ _),
    Nat.mod_eq_of_lt (item_size_lt _ _), Nat.mod_eq_of_lt narrow]

theorem dataByte_shiftItem {j offset b : Nat} (inTable : j < shape.itemMax)
    (downward : offset ≤ (item g.mem (j + 1)).offset)
    (inside : b < align (item g.mem (j + 1)).size) :
    dataByte shape (shiftItem shape g j offset).mem (offset + b) =
      dataByte shape g.mem ((item g.mem (j + 1)).offset + b) := by
  have base : shape.dataBase = 16 + 8 * shape.itemMax := rfl
  rw [shiftItem_eq]
  simp only [dataByte, moveData, ← Nat.add_assoc]
  rw [copyForward_apply_of_mem (by omega) inside, fillItem_mem_of_outside (by omega)]

theorem shiftItem_overrun {j offset : Nat} (inTable : j < shape.itemMax)
    (fits : offset + align (item g.mem (j + 1)).size ≤ shape.dataSize) :
    (shiftItem shape g j offset).overrun = g.overrun := by
  rw [shiftItem_eq]
  simp only [moveData]
  rw [fillItem_overrun inTable]
  simp only [Bool.or_eq_left_iff_imp, decide_eq_true_eq]
  omega

/-- The compaction loop packs the items it passes and leaves everything else alone. -/
theorem compact_spec {n j offset : Nat} (ascending : Ascending shape g.mem (j + 1) (j + 1 + n))
    (below : n ≠ 0 → offset ≤ (item g.mem (j + 1)).offset) :
    (compact shape n j offset g).2 = packed g.mem (j + 1) offset n ∧
      Compacted shape g n j offset (compact shape n j offset g).1 := by
  induction n generalizing j offset g with
  | zero =>
      refine ⟨rfl, ⟨fun t bound => absurd bound (by omega), fun t bound => absurd bound (by omega),
        fun a _ => rfl, rfl⟩⟩
  | succ n ih =>
      have below := below (by omega)
      have narrow := shape.dataSize_lt
      have capacity := ascending.le_itemMax
      have base : shape.dataBase = 16 + 8 * shape.itemMax := rfl
      have room := ascending.inside (j + 1) (by omega) (by omega)
      -- the first pass leaves the items it has not reached, and their bytes, in place
      have kept : ∀ i, j + 1 ≤ i → i < shape.itemMax →
          item (shiftItem shape g j offset).mem i = item g.mem i := by
        intro i lower upper
        apply item_congr
        intro a above under
        exact shiftItem_mem_of_outside (by omega) (by omega)
      have later :
          Ascending shape (shiftItem shape g j offset).mem (j + 1 + 1) (j + 1 + 1 + n) := by
        have tail : Ascending shape g.mem (j + 1 + 1) (j + 1 + 1 + n) := by
          simpa only [show j + 1 + (n + 1) = j + 1 + 1 + n by omega] using
            ascending.mono (Nat.le_succ (j + 1))
        exact tail.congr fun i lower upper => kept i (by omega) (by omega)
      have nextBelow : n ≠ 0 → offset + align (item g.mem (j + 1)).size ≤
          (item (shiftItem shape g j offset).mem (j + 1 + 1)).offset := by
        intro more
        rw [kept _ (by omega) (by omega)]
        have gap := ascending.step (j + 1) (by omega) (by omega)
        omega
      have noWrap : (offset + align (item g.mem (j + 1)).size) % 4294967296 =
          offset + align (item g.mem (j + 1)).size := Nat.mod_eq_of_lt (by omega)
      obtain ⟨cursor, rest⟩ := ih later nextBelow
      have cursors : ∀ t, t ≤ n → packed (shiftItem shape g j offset).mem (j + 1 + 1)
          (offset + align (item g.mem (j + 1)).size) t = packed g.mem (j + 1) offset (t + 1) := by
        intro t bound
        rw [packed_succ_left]
        exact packed_congr fun k lt => kept _ (by omega) (by omega)
      simp only [compact, noWrap]
      refine ⟨by rw [cursor, cursors n (Nat.le_refl n)], ⟨?_, ?_, ?_, ?_⟩⟩
      · intro t bound
        cases t with
        | zero =>
            have unmoved : item (compact shape n (j + 1)
                (offset + align (item g.mem (j + 1)).size) (shiftItem shape g j offset)).1.mem j =
                item (shiftItem shape g j offset).mem j :=
              item_congr fun a lower upper => rest.frame a (by omega)
            simp only [Nat.add_zero]
            rw [unmoved, item_shiftItem (by omega) (by omega)]
            rfl
        | succ t =>
            have row := rest.table t (by omega)
            rw [show j + (t + 1) = j + 1 + t by omega, row, cursors t (by omega),
              kept _ (by omega) (by omega)]
            simp only [show j + 1 + 1 + t = j + 1 + (t + 1) by omega]
      · intro t bound b inside
        cases t with
        | zero =>
            have unmoved : dataByte shape (compact shape n (j + 1)
                (offset + align (item g.mem (j + 1)).size) (shiftItem shape g j offset)).1.mem
                  (offset + b) =
                dataByte shape (shiftItem shape g j offset).mem (offset + b) :=
              rest.frame _ (Or.inr (Or.inl (by simp only [Nat.add_zero] at inside; omega)))
            exact unmoved.trans (dataByte_shiftItem (by omega) below inside)
        | succ t =>
            have moved := rest.moved t (by omega) b (by
              rw [kept _ (by omega) (by omega)]
              simpa only [show j + 1 + 1 + t = j + 1 + (t + 1) by omega] using inside)
            rw [cursors t (by omega), kept _ (by omega) (by omega)] at moved
            rw [moved, show j + 1 + 1 + t = j + 1 + (t + 1) by omega]
            have position := ascending.le_of_lt (i := j + 1) (j := j + 1 + (t + 1)) (by omega)
              (by omega) (by omega)
            exact shiftItem_mem_of_outside (by omega) (by omega)
      · intro a outside
        have total := cursors n (Nat.le_refl n)
        have grows : offset + align (item g.mem (j + 1)).size ≤
            packed g.mem (j + 1) offset (n + 1) := by
          rw [packed_succ_left]
          exact le_packed _ _ _ _
        rw [rest.frame a (by rw [total]; omega)]
        exact shiftItem_mem_of_outside (by omega) (by omega)
      · rw [rest.overrun]
        exact shiftItem_overrun (by omega) (by omega)

/-! ## The well-formed image -/

/-- The layout that every completed update keeps. -/
structure WellFormed (shape : ImageShape) (g : VendorInfo) : Prop where
  ascending : Ascending shape g.mem 0 (itemNum g.mem)
  ids_injective : ∀ i j, i < itemNum g.mem → j < itemNum g.mem →
    (item g.mem i).id = (item g.mem j).id → i = j
  below_free : ∀ i, i < itemNum g.mem →
    (item g.mem i).offset + align (item g.mem i).size ≤ freeOffset g.mem
  free_fits : freeOffset g.mem + freeSize g.mem ≤ shape.dataSize
  noOverrun : g.overrun = false

/-- The part of the layout that does not mention ids. -/
structure LaidOut (shape : ImageShape) (g : VendorInfo) : Prop where
  ascending : Ascending shape g.mem 0 (itemNum g.mem)
  below_free : ∀ i, i < itemNum g.mem →
    (item g.mem i).offset + align (item g.mem i).size ≤ freeOffset g.mem
  free_fits : freeOffset g.mem + freeSize g.mem ≤ shape.dataSize
  noOverrun : g.overrun = false

theorem WellFormed.laidOut (wellFormed : WellFormed shape g) : LaidOut shape g :=
  ⟨wellFormed.ascending, wellFormed.below_free, wellFormed.free_fits, wellFormed.noOverrun⟩

theorem findItem_eq_some {m : Bytes} {id i : Nat} (found : findItem m id = some i) :
    i < itemNum m ∧ (item m i).id = id := by
  have carries := List.find?_some found
  have member := List.mem_of_find?_eq_some found
  exact ⟨List.mem_range.mp member, by simpa using carries⟩

theorem findItem_eq_none {m : Bytes} {id : Nat} (missing : findItem m id = none) :
    ∀ i, i < itemNum m → (item m i).id ≠ id := by
  intro i bound
  have absent := List.find?_eq_none.mp missing i (List.mem_range.mpr bound)
  simpa using absent

/-- With distinct ids the first match is the only one. -/
theorem WellFormed.findItem_eq {i : Nat} (wellFormed : WellFormed shape g)
    (bound : i < itemNum g.mem) : findItem g.mem (item g.mem i).id = some i := by
  cases found : findItem g.mem (item g.mem i).id with
  | none => exact absurd rfl (findItem_eq_none found i bound)
  | some j =>
      obtain ⟨below, same⟩ := findItem_eq_some found
      rw [wellFormed.ids_injective j i below bound same]

/-! ## The three branches -/

/-- What the append branch leaves behind. -/
structure Appended (shape : ImageShape) (g : VendorInfo) (id : Nat) (pbuf : Bytes) (size : Nat)
    (after : VendorInfo) : Prop where
  num : itemNum after.mem = itemNum g.mem + 1
  kept : ∀ i, i < itemNum g.mem → item after.mem i = item g.mem i
  added : item after.mem (itemNum g.mem) = ⟨id % 65536, freeOffset g.mem, size⟩
  freeOffset_eq : freeOffset after.mem = freeOffset g.mem + align size
  freeSize_eq : freeSize after.mem = freeSize g.mem - align size
  dataKept : ∀ k, k < freeOffset g.mem → dataByte shape after.mem k = dataByte shape g.mem k
  dataAdded : ∀ k, k < size → dataByte shape after.mem (freeOffset g.mem + k) = pbuf k
  overrun : after.overrun = g.overrun

/-- What the in-place branch leaves behind. -/
structure Rewritten (shape : ImageShape) (g : VendorInfo) (i : Nat) (pbuf : Bytes) (size : Nat)
    (after : VendorInfo) : Prop where
  num : itemNum after.mem = itemNum g.mem
  kept : ∀ j, j ≠ i → j < itemNum g.mem → item after.mem j = item g.mem j
  resized : item after.mem i = ⟨(item g.mem i).id, (item g.mem i).offset, size⟩
  freeOffset_eq : freeOffset after.mem = freeOffset g.mem
  freeSize_eq : freeSize after.mem = freeSize g.mem
  dataKept : ∀ k, k < (item g.mem i).offset ∨ (item g.mem i).offset + size ≤ k →
    k < shape.dataSize → dataByte shape after.mem k = dataByte shape g.mem k
  dataStored : ∀ k, k < size → dataByte shape after.mem ((item g.mem i).offset + k) = pbuf k
  overrun : after.overrun = g.overrun

/-- What the grow branch leaves behind; `cursor` is the packed end of the moved items. -/
structure Grown (shape : ImageShape) (charge : GrowCharge) (g : VendorInfo) (i id : Nat)
    (pbuf : Bytes) (size cursor : Nat) (after : VendorInfo) : Prop where
  num : itemNum after.mem = itemNum g.mem
  kept : ∀ j, j < i → item after.mem j = item g.mem j
  shifted : ∀ t, i + 1 + t < itemNum g.mem → item after.mem (i + t) =
    ⟨(item g.mem (i + 1 + t)).id, packed g.mem (i + 1) (item g.mem i).offset t,
      (item g.mem (i + 1 + t)).size⟩
  placed : item after.mem (itemNum g.mem - 1) = ⟨id % 65536, cursor, size⟩
  cursor_eq : cursor =
    packed g.mem (i + 1) (item g.mem i).offset (itemNum g.mem - 1 - i)
  cursor_add_le : cursor + align (item g.mem i).size ≤ freeOffset g.mem
  freeOffset_eq : freeOffset after.mem = cursor + align size
  freeSize_eq : ∃ m, freeOffset m = cursor + align size ∧ freeSize m = freeSize g.mem ∧
    freeSize after.mem = charge m (align size) (align (item g.mem i).size) % 65536
  dataKept : ∀ k, k < (item g.mem i).offset → dataByte shape after.mem k = dataByte shape g.mem k
  dataMoved : ∀ t, i + 1 + t < itemNum g.mem → ∀ b, b < align (item g.mem (i + 1 + t)).size →
    dataByte shape after.mem (packed g.mem (i + 1) (item g.mem i).offset t + b) =
      dataByte shape g.mem ((item g.mem (i + 1 + t)).offset + b)
  dataPlaced : ∀ k, k < size → dataByte shape after.mem (cursor + k) = pbuf k
  overrun : after.overrun = g.overrun

theorem appendItem_eq (id size : Nat) (pbuf : Bytes) :
    appendItem shape g id pbuf size = storeItemNum (storeData shape (storeFreeSize (storeFreeOffset
      (fillItem shape g (itemNum g.mem) id (freeOffset g.mem) size)
        (freeOffset g.mem + align size))
        (freeSize g.mem + 4294967296 - align size)) (freeOffset g.mem) pbuf size)
      (itemNum (storeData shape (storeFreeSize (storeFreeOffset
        (fillItem shape g (itemNum g.mem) id (freeOffset g.mem) size)
          (freeOffset g.mem + align size))
          (freeSize g.mem + 4294967296 - align size)) (freeOffset g.mem) pbuf size).mem + 1) := by
  have offset_kept : freeOffset (fillItem shape g (itemNum g.mem) id (freeOffset g.mem) size).mem =
      freeOffset g.mem := header_fillItem (by omega)
  have size_kept : ∀ v, freeSize (storeFreeOffset
      (fillItem shape g (itemNum g.mem) id (freeOffset g.mem) size) v).mem = freeSize g.mem := by
    intro v
    simp only [freeSize, storeFreeOffset]
    rw [read16_write16_of_disjoint (by omega), header_fillItem (by omega)]
  have offset_stored : ∀ v w, (item (storeFreeSize (storeFreeOffset
      (fillItem shape g (itemNum g.mem) id (freeOffset g.mem) size) v) w).mem
        (itemNum g.mem)).offset = freeOffset g.mem := by
    intro v w
    have frame : item (storeFreeSize (storeFreeOffset
        (fillItem shape g (itemNum g.mem) id (freeOffset g.mem) size) v) w).mem (itemNum g.mem) =
        item (fillItem shape g (itemNum g.mem) id (freeOffset g.mem) size).mem
          (itemNum g.mem) := by
      apply item_congr
      intro a lower upper
      simp only [storeFreeSize, storeFreeOffset]
      rw [write16_apply_of_ne (by omega), write16_apply_of_ne (by omega)]
    rw [frame, item_fillItem_self]
    exact Nat.mod_eq_of_lt (read16_lt _ _)
  simp only [fillItem] at offset_kept size_kept offset_stored ⊢
  simp only [appendItem, offset_kept, size_kept, offset_stored]

/-- The rows of an appended table; the stored bytes start behind the table. -/
theorem item_appendItem {id size i : Nat} {pbuf : Bytes} (row : itemNum g.mem < shape.itemMax)
    (bound : i ≤ itemNum g.mem) :
    item (appendItem shape g id pbuf size).mem i =
      item (fillItem shape g (itemNum g.mem) id (freeOffset g.mem) size).mem i := by
  have base : shape.dataBase = 16 + 8 * shape.itemMax := rfl
  apply item_congr
  intro a lower upper
  rw [appendItem_eq]
  simp only [storeItemNum, storeData, storeFreeSize, storeFreeOffset]
  simp (disch := omega) only [write16_apply_of_ne, copyIn_apply_of_notMem]

/-- Appending counts one row more, also when the table has none left. -/
theorem itemNum_appendItem (shape : ImageShape) (g : VendorInfo) (id : Nat) (pbuf : Bytes)
    (size : Nat) :
    itemNum (appendItem shape g id pbuf size).mem = (itemNum g.mem + 1) % 65536 := by
  have base : shape.dataBase = 16 + 8 * shape.itemMax := rfl
  rw [appendItem_eq]
  simp only [storeItemNum, storeData, storeFreeSize, storeFreeOffset, itemNum]
  rw [read16_write16_same]
  simp (disch := omega) only [read16_copyIn_of_disjoint, read16_write16_of_disjoint,
    header_fillItem]

/-- The append branch on a table with a free row. -/
theorem appendItem_spec {id size : Nat} {pbuf : Bytes} (laidOut : LaidOut shape g)
    (row : itemNum g.mem < shape.itemMax) (fits : size < 4294967233)
    (room : align size ≤ freeSize g.mem) :
    Appended shape g id pbuf size (appendItem shape g id pbuf size) := by
  have base : shape.dataBase = 16 + 8 * shape.itemMax := rfl
  have narrow := shape.dataSize_lt
  have tableBound := shape.itemMax_lt
  have free := laidOut.free_fits
  have le := le_align fits
  have sizeBound := freeSize_lt g.mem
  refine ⟨?_, ?_, ?_, ?_, ?_, ?_, ?_, ?_⟩
  · rw [itemNum_appendItem]
    exact Nat.mod_eq_of_lt (by omega)
  · intro i bound
    rw [item_appendItem row (by omega), item_fillItem_of_ne (by omega)]
  · rw [item_appendItem row (Nat.le_refl _), item_fillItem_self,
      Nat.mod_eq_of_lt (by omega : size < 65536), Nat.mod_eq_of_lt (freeOffset_lt g.mem)]
  · rw [appendItem_eq]
    simp only [freeOffset, storeItemNum, storeData, storeFreeSize, storeFreeOffset]
    simp (disch := omega) only [read16_write16_of_disjoint, read16_copyIn_of_disjoint,
      read16_write16_same]
    simp only [freeOffset] at *
    omega
  · rw [appendItem_eq]
    simp only [freeSize, storeItemNum, storeData, storeFreeSize, storeFreeOffset]
    simp (disch := omega) only [read16_write16_of_disjoint, read16_copyIn_of_disjoint,
      read16_write16_same]
    simp only [freeSize] at *
    omega
  · intro k below
    rw [appendItem_eq]
    simp only [dataByte, storeItemNum, storeData, storeFreeSize, storeFreeOffset]
    simp (disch := omega) only [write16_apply_of_ne, copyIn_apply_of_notMem]
    exact fillItem_mem_of_outside (by omega)
  · intro k below
    rw [appendItem_eq]
    simp only [dataByte, storeItemNum, storeData, storeFreeSize, storeFreeOffset]
    rw [write16_apply_of_ne (by omega), copyIn_apply_of_mem (by omega) (by omega)]
    congr 1
    omega
  · rw [appendItem_eq]
    simp only [storeItemNum, storeData, storeFreeSize, storeFreeOffset]
    rw [fillItem_overrun row]
    simp only [Bool.or_eq_left_iff_imp, decide_eq_true_eq]
    omega

/-- The in-place branch on an item of a laid-out table. -/
theorem rewriteItem_spec {i size : Nat} {pbuf : Bytes} (laidOut : LaidOut shape g)
    (bound : i < itemNum g.mem) (fits : size ≤ align (item g.mem i).size) :
    Rewritten shape g i pbuf size (rewriteItem shape g i pbuf size) := by
  have base : shape.dataBase = 16 + 8 * shape.itemMax := rfl
  have narrow := shape.dataSize_lt
  have capacity := laidOut.ascending.le_itemMax
  have inside := laidOut.ascending.inside i (Nat.zero_le _) bound
  have mem_eq : (rewriteItem shape g i pbuf size).mem = write16 (copyIn g.mem
      (shape.dataBase + (item g.mem i).offset) pbuf size) (16 + 8 * i + 4) size := rfl
  have header : ∀ a, a + 2 ≤ 16 →
      read16 (rewriteItem shape g i pbuf size).mem a = read16 g.mem a := by
    intro a low
    rw [mem_eq]
    rw [read16_write16_of_disjoint (by omega), read16_copyIn_of_disjoint (by omega)]
  refine ⟨header 10 (by omega), ?_, ?_, header 12 (by omega), header 14 (by omega), ?_, ?_, ?_⟩
  · intro j ne below
    apply item_congr
    intro a lower upper
    rw [mem_eq, write16_apply_of_ne (by omega), copyIn_apply_of_notMem (by omega)]
  · simp only [item, mem_eq]
    simp (disch := omega) only [read16_write16_of_disjoint, read16_copyIn_of_disjoint,
      read16_write16_same]
    rw [Nat.mod_eq_of_lt (by omega)]
  · intro k outside below
    simp only [dataByte, mem_eq]
    rw [write16_apply_of_ne (by omega), copyIn_apply_of_notMem (by omega)]
  · intro k below
    simp only [dataByte, mem_eq]
    rw [write16_apply_of_ne (by omega), copyIn_apply_of_mem (by omega) (by omega)]
    congr 1
    omega
  · simp only [rewriteItem, storeItemSize, storeData]
    rw [decide_eq_false (by omega : ¬(0 < size ∧ shape.dataSize < (item g.mem i).offset + size)),
      decide_eq_false (by omega : ¬shape.itemMax ≤ i), Bool.or_false, Bool.or_false]

theorem placeItem_eq {i id offset size : Nat} {pbuf : Bytes} (narrow : offset < 65536) :
    placeItem shape g i id offset size pbuf =
      storeData shape (fillItem shape g i id offset size) offset pbuf size := by
  have stored : item (fillItem shape g i id offset size).mem i =
      ⟨id % 65536, offset % 65536, size % 65536⟩ := item_fillItem_self
  simp only [fillItem] at stored
  simp only [placeItem, fillItem, stored, Nat.mod_eq_of_lt narrow]

theorem LaidOut.tail {i : Nat} (laidOut : LaidOut shape g) (bound : i < itemNum g.mem) :
    Ascending shape g.mem (i + 1) (i + 1 + (itemNum g.mem - 1 - i)) := by
  rw [show i + 1 + (itemNum g.mem - 1 - i) = itemNum g.mem by omega]
  exact laidOut.ascending.mono (Nat.zero_le _)

theorem LaidOut.gap {i : Nat} (laidOut : LaidOut shape g) (more : itemNum g.mem - 1 - i ≠ 0) :
    (item g.mem i).offset + align (item g.mem i).size ≤ (item g.mem (i + 1)).offset :=
  laidOut.ascending.step i (Nat.zero_le _) (by omega)

/-- The items behind an item, packed from its place on, leave its room free. -/
theorem LaidOut.packed_add_le_free {i : Nat} (laidOut : LaidOut shape g)
    (bound : i < itemNum g.mem) :
    packed g.mem (i + 1) (item g.mem i).offset (itemNum g.mem - 1 - i) +
      align (item g.mem i).size ≤ freeOffset g.mem := by
  rcases Nat.eq_zero_or_pos (itemNum g.mem - 1 - i) with none | more
  · rw [none]
    exact laidOut.below_free i bound
  · obtain ⟨t, t_eq⟩ : ∃ t, itemNum g.mem - 1 - i = t + 1 := ⟨_, (Nat.succ_pred (by omega)).symm⟩
    have position := packed_add_le_offset (laidOut.tail bound) (laidOut.gap (by omega)) (t := t)
      (by omega)
    have last := laidOut.below_free (i + 1 + t) (by omega)
    rw [t_eq, packed]
    omega

/-- The grow branch on an item of a laid-out table. -/
theorem growItem_spec {charge : GrowCharge} {i id size : Nat} {pbuf : Bytes}
    (laidOut : LaidOut shape g) (bound : i < itemNum g.mem) (fits : size < 4294967233)
    (grows : align (item g.mem i).size < size) (room : align size ≤ freeSize g.mem) :
    ∃ cursor, Grown shape charge g i id pbuf size cursor
      (growItem shape charge g i id pbuf size) := by
  have base : shape.dataBase = 16 + 8 * shape.itemMax := rfl
  have narrow := shape.dataSize_lt
  have capacity := laidOut.ascending.le_itemMax
  have free := laidOut.free_fits
  have le := le_align fits
  have below : itemNum g.mem - 1 - i ≠ 0 → (item g.mem i).offset ≤ (item g.mem (i + 1)).offset := by
    intro more
    have := laidOut.gap more
    omega
  obtain ⟨cursor_eq, compacted⟩ := compact_spec (laidOut.tail bound) below
  have slack := laidOut.packed_add_le_free bound
  set cursor := packed g.mem (i + 1) (item g.mem i).offset (itemNum g.mem - 1 - i)
    with cursor_def
  set middle := (compact shape (itemNum g.mem - 1 - i) i (item g.mem i).offset g).1
    with middle_def
  have grown_eq : growItem shape charge g i id pbuf size = storeFreeSize (storeFreeOffset
      (storeData shape (fillItem shape middle (itemNum g.mem - 1) id cursor size) cursor pbuf size)
        (cursor + align size)) (charge (storeFreeOffset (storeData shape (fillItem shape middle
          (itemNum g.mem - 1) id cursor size) cursor pbuf size) (cursor + align size)).mem
            (align size) (align (item g.mem i).size)) := by
    simp only [growItem, cursor_eq, ← middle_def]
    rw [placeItem_eq (by omega)]
  set full := storeFreeOffset (storeData shape (fillItem shape middle (itemNum g.mem - 1) id
    cursor size) cursor pbuf size) (cursor + align size) with full_def
  have low : ∀ a, a < 16 → a ≠ 12 → a ≠ 13 → full.mem a = g.mem a := by
    intro a below ne ne'
    simp only [full_def, storeFreeOffset, storeData]
    rw [write16_apply_of_ne (by omega), copyIn_apply_of_notMem (by omega),
      fillItem_mem_of_outside (by omega), compacted.frame a (by omega)]
  have high : ∀ a, 16 ≤ a → a < shape.dataBase + cursor →
      a < 16 + 8 * (itemNum g.mem - 1) ∨ 16 + 8 * (itemNum g.mem - 1) + 6 ≤ a →
      (growItem shape charge g i id pbuf size).mem a = middle.mem a := by
    intro a above below outside
    simp only [grown_eq, storeFreeSize, full_def, storeFreeOffset, storeData]
    rw [write16_apply_of_ne (by omega), write16_apply_of_ne (by omega),
      copyIn_apply_of_notMem (by omega), fillItem_mem_of_outside (by omega)]
  have row : ∀ j, j < itemNum g.mem - 1 →
      item (growItem shape charge g i id pbuf size).mem j = item middle.mem j := by
    intro j below
    apply item_congr
    intro a lower upper
    exact high a (by omega) (by omega) (by omega)
  refine ⟨cursor, ?_, ?_, ?_, ?_, cursor_def, slack, ?_, ?_, ?_, ?_, ?_, ?_⟩
  · simp only [grown_eq, itemNum, storeFreeSize]
    rw [read16_write16_of_disjoint (by omega)]
    exact read16_congr (low _ (by omega) (by omega) (by omega))
      (low _ (by omega) (by omega) (by omega))
  · intro j below
    rw [row j (by omega)]
    apply item_congr
    intro a lower upper
    exact compacted.frame a (by omega)
  · intro t below
    rw [row _ (by omega)]
    exact compacted.table t (by omega)
  · have frame : item (growItem shape charge g i id pbuf size).mem (itemNum g.mem - 1) =
        item (fillItem shape middle (itemNum g.mem - 1) id cursor size).mem
          (itemNum g.mem - 1) := by
      apply item_congr
      intro a lower upper
      simp only [grown_eq, storeFreeSize, full_def, storeFreeOffset, storeData]
      rw [write16_apply_of_ne (by omega), write16_apply_of_ne (by omega),
        copyIn_apply_of_notMem (by omega)]
    rw [frame, item_fillItem_self, Nat.mod_eq_of_lt (by omega : cursor < 65536),
      Nat.mod_eq_of_lt (by omega : size < 65536)]
  · simp only [grown_eq, freeOffset, storeFreeSize]
    rw [read16_write16_of_disjoint (by omega), full_def]
    exact (read16_write16_same _ _ _).trans (Nat.mod_eq_of_lt (by omega))
  · refine ⟨full.mem, ?_, ?_, ?_⟩
    · exact (read16_write16_same _ _ _).trans (Nat.mod_eq_of_lt (by omega))
    · exact read16_congr (low _ (by omega) (by omega) (by omega))
        (low _ (by omega) (by omega) (by omega))
    · rw [grown_eq]
      exact read16_write16_same _ _ _
  · intro k below
    have start := le_packed g.mem (i + 1) (item g.mem i).offset (itemNum g.mem - 1 - i)
    exact (high _ (by omega) (by omega) (by omega)).trans
      (compacted.frame _ (by omega))
  · intro t below b inside
    have order : packed g.mem (i + 1) (item g.mem i).offset (t + 1) ≤ cursor :=
      packed_mono _ _ _ (by omega)
    rw [packed] at order
    exact (high _ (by omega) (by omega) (by omega)).trans
      (compacted.moved t (by omega) b inside)
  · intro k below
    simp only [dataByte, grown_eq, storeFreeSize, full_def, storeFreeOffset, storeData]
    rw [write16_apply_of_ne (by omega), write16_apply_of_ne (by omega),
      copyIn_apply_of_mem (by omega) (by omega)]
    congr 1
    omega
  · simp only [grown_eq, storeFreeSize, full_def, storeFreeOffset, storeData]
    rw [fillItem_overrun (by omega), compacted.overrun,
      decide_eq_false (by omega : ¬(0 < size ∧ shape.dataSize < cursor + size)), Bool.or_false]

end VendorStorage
end RockchipSoc
