import Mathlib.Data.List.Find
import RockchipSoc.VendorStorage.ByteMap
import RockchipSoc.VendorStorage.MtdMount

/-!
# Free space

Compaction gives back the whole room of a grown item and of the items behind it, and `free_offset`
says so.  The MTD driver recomputes `free_size` from it; the eMMC driver gives back the aligned
current size of the grown item only.  The two agree as long as the items that are moved fill their
rooms, and then both drivers accept the same writes.
-/

namespace RockchipSoc
namespace VendorStorage

open ByteMemory LabelledRun

/-- `free_size = sizeof(data) - free_offset`, for a data area of any length. -/
def recomputeCharge (shape : ImageShape) : GrowCharge :=
  fun m _ _ => shape.dataSize + 65536 - freeOffset m

theorem mtdCharge_eq : mtdCharge = recomputeCharge mtdShape := rfl

/-- The part of `data[]` below `free_offset` and `free_size` make up the whole. -/
def SpaceKept (shape : ImageShape) (g : VendorInfo) : Prop :=
  freeOffset g.mem + freeSize g.mem = shape.dataSize

/-- The aligned sizes of the items from `item[i]` on reach from its offset to `free_offset`: none
of them leaves room behind it. -/
def FillsRoom (m : Bytes) (i : Nat) : Prop :=
  packed m i (item m i).offset (itemNum m - i) = freeOffset m

/-- If the update grows an item, the items that compaction moves fill their rooms. -/
def GrowsPacked (m : Bytes) (id size : Nat) : Prop :=
  ∀ i, findItem m id = some i → align (item m i).size < size → align size ≤ freeSize m →
    FillsRoom m i

variable {shape : ImageShape} {g after : VendorInfo} {id size : Nat} {pbuf : Bytes}

theorem fillsRoom_iff {i : Nat} (bound : i < itemNum g.mem) : FillsRoom g.mem i ↔
    packed g.mem (i + 1) (item g.mem i).offset (itemNum g.mem - 1 - i) +
      align (item g.mem i).size = freeOffset g.mem := by
  rw [FillsRoom, show itemNum g.mem - i = itemNum g.mem - 1 - i + 1 by omega, packed_succ_left,
    packed_add]

theorem recomputeCharge_sound : ChargeSound shape (recomputeCharge shape) := by
  intro m alignSize allocSize le room bound
  have narrow := shape.dataSize_lt
  simp only [recomputeCharge]
  omega

/-- The eMMC charge keeps the balance exactly if a growing update moves full rooms only. -/
theorem Updated.spaceKept_iff (kept : SpaceKept shape g)
    (fits : size < 4294967233) (updated : Updated shape emmcCharge g id pbuf size after) :
    SpaceKept shape after ↔ GrowsPacked g.mem id size := by
  have narrow := shape.dataSize_lt
  unfold SpaceKept at kept ⊢
  cases updated with
  | appended missing room row spec =>
      rw [spec.freeOffset_eq, spec.freeSize_eq]
      refine iff_of_true (by omega) fun i found => ?_
      exact absurd (missing.symm.trans found) (by simp)
  | rewritten i found le spec =>
      rw [spec.freeOffset_eq, spec.freeSize_eq]
      refine iff_of_true kept fun i' found' grows => ?_
      obtain rfl := Option.some.inj (found.symm.trans found')
      exact absurd le (by omega)
  | grown i cursor found grows room spec =>
      obtain ⟨bound, _⟩ := findItem_eq_some found
      have le := le_align fits
      have slack := spec.cursor_add_le
      obtain ⟨m, _, size_eq, charged⟩ := spec.freeSize_eq
      have fills : FillsRoom g.mem i ↔
          cursor + align (item g.mem i).size = freeOffset g.mem := by
        rw [fillsRoom_iff bound, spec.cursor_eq]
      simp only [emmcCharge, size_eq] at charged
      rw [spec.freeOffset_eq]
      constructor
      · intro balance i' found' _ _
        obtain rfl := Option.some.inj (found.symm.trans found')
        exact fills.mpr (by omega)
      · intro packed
        have full := fills.mp (packed i found grows room)
        omega

/-- Recomputing `free_size` keeps the balance in any case. -/
theorem Updated.spaceKept_recompute (kept : SpaceKept shape g) (laidOut : LaidOut shape g)
    (updated : Updated shape (recomputeCharge shape) g id pbuf size after)
    (fits : size < 4294967233) : SpaceKept shape after := by
  have narrow := shape.dataSize_lt
  have laidOutAfter := updated.laidOut recomputeCharge_sound laidOut fits
  have within := laidOutAfter.free_fits
  unfold SpaceKept at kept ⊢
  cases updated with
  | appended missing room row spec =>
      rw [spec.freeOffset_eq, spec.freeSize_eq]
      omega
  | rewritten i found le spec =>
      rw [spec.freeOffset_eq, spec.freeSize_eq]
      exact kept
  | grown i cursor found grows room spec =>
      obtain ⟨m, offset_eq, _, charged⟩ := spec.freeSize_eq
      rw [spec.freeOffset_eq] at within ⊢
      simp only [recomputeCharge, offset_eq] at charged
      omega

/-! ## Images with the same table -/

/-- The tables and counters of two images are equal; their item arrays may differ in length. -/
structure SameTable (left right : Bytes) : Prop where
  num : itemNum left = itemNum right
  rows : ∀ i, i < itemNum left → item left i = item right i
  freeOffset : freeOffset left = freeOffset right
  freeSize : freeSize left = freeSize right

theorem SameTable.findItem {left right : Bytes} (same : SameTable left right) (id : Nat) :
    findItem left id = findItem right id := by
  simp only [VendorStorage.findItem, ← same.num]
  refine List.find?_congr fun i member => ?_
  rw [same.rows i (List.mem_range.mp member)]

theorem SameTable.packed {left right : Bytes} (same : SameTable left right) {first offset t : Nat}
    (bound : first + t ≤ itemNum left) :
    packed left first offset t = VendorStorage.packed right first offset t :=
  packed_congr fun k below => same.rows _ (by omega)

theorem SameTable.updateFits_iff {left right : Bytes} (same : SameTable left right) :
    UpdateFits left id size ↔ UpdateFits right id size := by
  unfold UpdateFits
  rw [← same.findItem, ← same.freeSize]
  cases found : VendorStorage.findItem left id with
  | none => exact Iff.rfl
  | some i =>
      have bound := (findItem_eq_some found).1
      simp only [same.rows i bound]

theorem sameTable_of_agree {left right : Bytes} (agree : AgreeOn 10 shape.dataBase left right)
    (capacity : itemNum right ≤ shape.itemMax) : SameTable left right := by
  have base : shape.dataBase = 16 + 8 * shape.itemMax := rfl
  have num : itemNum left = itemNum right := agree.read16 (by omega) (by omega)
  exact ⟨num, fun i bound => item_congr (agree.mono (by omega) (by omega)),
    agree.read16 (by omega) (by omega), agree.read16 (by omega) (by omega)⟩

theorem SameTable.symm {left right : Bytes} (same : SameTable left right) :
    SameTable right left :=
  ⟨same.num.symm, fun i bound => (same.rows i (same.num ▸ bound)).symm, same.freeOffset.symm,
    same.freeSize.symm⟩

theorem SameTable.trans {left middle right : Bytes} (first : SameTable left middle)
    (second : SameTable middle right) : SameTable left right :=
  ⟨first.num.trans second.num,
    fun i bound => (first.rows i bound).trans (second.rows i (first.num ▸ bound)),
    first.freeOffset.trans second.freeOffset, first.freeSize.trans second.freeSize⟩

/-- Both drivers turn equal tables into equal tables while the balance holds. -/
theorem SameTable.updated {shape' : ImageShape} {g' after' : VendorInfo}
    (same : SameTable g.mem g'.mem) (area : shape.dataSize = shape'.dataSize)
    (kept : SpaceKept shape g) (packed : GrowsPacked g.mem id size) (fits : size < 4294967233)
    (left : Updated shape emmcCharge g id pbuf size after)
    (right : Updated shape' (recomputeCharge shape') g' id pbuf size after') :
    SameTable after.mem after'.mem := by
  have narrow := shape'.dataSize_lt
  have le := le_align fits
  unfold SpaceKept at kept
  cases left with
  | appended missing room row spec =>
      cases right with
      | appended _ _ _ spec' =>
          refine ⟨?_, fun i bound => ?_, ?_, ?_⟩
          · rw [spec.num, spec'.num, same.num]
          · rw [spec.num] at bound
            rcases Nat.lt_succ_iff_lt_or_eq.mp bound with old | rfl
            · rw [spec.kept i old, spec'.kept i (same.num ▸ old), same.rows i old]
            · rw [spec.added, same.num, spec'.added, same.freeOffset]
          · rw [spec.freeOffset_eq, spec'.freeOffset_eq, same.freeOffset]
          · rw [spec.freeSize_eq, spec'.freeSize_eq, same.freeSize]
      | rewritten i found' => simp [← same.findItem, missing] at found'
      | grown i cursor found' => simp [← same.findItem, missing] at found'
  | rewritten i found inRoom spec =>
      rw [same.findItem] at found
      cases right with
      | appended missing' => simp [missing'] at found
      | rewritten i' found' _ spec' =>
          obtain rfl := Option.some.inj (found.symm.trans found')
          obtain ⟨bound, _⟩ := findItem_eq_some found
          refine ⟨?_, fun j below => ?_, ?_, ?_⟩
          · rw [spec.num, spec'.num, same.num]
          · rw [spec.num] at below
            by_cases target : j = i
            · rw [target, spec.resized, spec'.resized, same.rows i (same.num ▸ bound)]
            · rw [spec.kept j target below, spec'.kept j target (same.num ▸ below),
                same.rows j below]
          · rw [spec.freeOffset_eq, spec'.freeOffset_eq, same.freeOffset]
          · rw [spec.freeSize_eq, spec'.freeSize_eq, same.freeSize]
      | grown i' cursor found' grows' =>
          obtain rfl := Option.some.inj (found.symm.trans found')
          obtain ⟨bound, _⟩ := findItem_eq_some found
          rw [← same.rows i (same.num ▸ bound)] at grows'
          exact absurd inRoom (by omega)
  | grown i cursor found grows room spec =>
      have fills := packed i found grows room
      obtain ⟨bound, _⟩ := findItem_eq_some found
      rw [same.findItem] at found
      cases right with
      | appended missing' => simp [missing'] at found
      | rewritten i' found' inRoom' =>
          obtain rfl := Option.some.inj (found.symm.trans found')
          rw [← same.rows i bound] at inRoom'
          exact absurd inRoom' (by omega)
      | grown i' cursor' found' _ _ spec' =>
          obtain rfl := Option.some.inj (found.symm.trans found')
          have row := same.rows i bound
          have cursors : cursor' = cursor := by
            rw [spec'.cursor_eq, spec.cursor_eq, ← same.num, ← row]
            exact (same.packed (by omega)).symm
          obtain ⟨m, _, size_eq, charged⟩ := spec.freeSize_eq
          obtain ⟨m', offset_eq', _, charged'⟩ := spec'.freeSize_eq
          rw [fillsRoom_iff bound, ← spec.cursor_eq] at fills
          subst cursors
          refine ⟨?_, fun j below => ?_, ?_, ?_⟩
          · rw [spec.num, spec'.num, same.num]
          · rw [spec.num] at below
            rcases Nat.lt_or_ge j i with early | late
            · rw [spec.kept j early, spec'.kept j early, same.rows j below]
            · obtain ⟨t, rfl⟩ := Nat.exists_eq_add_of_le late
              rcases Nat.lt_or_ge (i + 1 + t) (itemNum g.mem) with moved | last
              · rw [spec.shifted t moved, spec'.shifted t (same.num ▸ moved),
                  same.rows _ moved, row, same.packed (by omega)]
              · rw [show i + t = itemNum g.mem - 1 by omega, spec.placed, same.num, spec'.placed]
          · rw [spec.freeOffset_eq, spec'.freeOffset_eq]
          · rw [charged, charged']
            simp only [emmcCharge, recomputeCharge, size_eq, offset_eq']
            omega

/-! ## The two drivers on the table -/

/-- The part of a write that both drivers share: the update, then `finish` if it succeeded. -/
def tableWrite (shape : ImageShape) (charge : GrowCharge) (finish : VendorInfo → VendorInfo)
    (g : VendorInfo) (call : WriteCall) : Int × VendorInfo :=
  match vendorUpdate shape charge g call.id call.pbuf call.size with
  | some g => (0, finish g)
  | none => (-1, g)

/-- `emmc_vendor_write` on `g_vendor`, for item and data arrays of any length. -/
def emmcTableWrite (shape : ImageShape) : VendorInfo → WriteCall → Int × VendorInfo :=
  tableWrite shape emmcCharge fun g => advanceNextIndex (bumpVersion shape g)

/-- `mtd_vendor_write` on `g_vendor`, for item and data arrays of any length. -/
def mtdTableWrite (shape : ImageShape) : VendorInfo → WriteCall → Int × VendorInfo :=
  tableWrite shape (recomputeCharge shape) (bumpVersion shape)

theorem apply_eq_emmcTableWrite (call : WriteCall) (dev : EmmcDevice) :
    (call.apply dev).1 = (emmcTableWrite emmcShape dev.gVendor call).1 ∧
      (call.apply dev).2.gVendor = (emmcTableWrite emmcShape dev.gVendor call).2 := by
  simp only [WriteCall.apply, emmcVendorWrite, emmcNextImage, emmcTableWrite, tableWrite]
  cases vendorUpdate emmcShape emmcCharge dev.gVendor call.id call.pbuf call.size with
  | none => exact ⟨rfl, rfl⟩
  | some g => exact ⟨rfl, rfl⟩

theorem mtdStep_call_eq_mtdTableWrite (geo : MtdGeometry) (call : WriteCall) {state : MtdState}
    (idle : state.pc = .idle) : ∃ next, mtdStep geo state (.call call.id call.pbuf call.size) =
      some next ∧ next.gVendor = (mtdTableWrite mtdShape state.gVendor call).2 ∧
      next.pc = if (mtdTableWrite mtdShape state.gVendor call).1 = 0 then .write .vendorWrite 0
        else .idle := by
  cases updated : vendorUpdate mtdShape mtdCharge state.gVendor call.id call.pbuf call.size with
  | none =>
      simp only [mtdStep, idle, if_true, mtdTableWrite, tableWrite, ← mtdCharge_eq, updated]
      exact ⟨state, rfl, rfl, idle⟩
  | some g =>
      simp only [mtdStep, idle, if_true, mtdTableWrite, tableWrite, ← mtdCharge_eq, updated]
      exact ⟨_, rfl, rfl, rfl⟩

/-- The answers of one driver to a sequence of writes. -/
def answers (write : VendorInfo → WriteCall → Int × VendorInfo) :
    VendorInfo → List WriteCall → List Int
  | _, [] => []
  | g, call :: calls => (write g call).1 :: answers write (write g call).2 calls

/-- The write neither wraps in `ALIGN` nor appends to a full table. -/
def Guarded (shape : ImageShape) (g : VendorInfo) (call : WriteCall) : Prop :=
  call.size < 4294967233 ∧ ¬AppendsToFullTable shape g call.id call.size

/-- The header fields before the table change, and the second version word behind the data. -/
def FinishesHeader (shape : ImageShape) (finish : VendorInfo → VendorInfo) : Prop :=
  ∀ g, AgreeOn 10 shape.dataBase (finish g).mem g.mem ∧ (finish g).overrun = g.overrun

theorem finishesHeader_bumpVersion : FinishesHeader shape (bumpVersion shape) := fun g =>
  ⟨(agreeOn_bumpVersion shape g).mono (Nat.le_refl _) (Nat.le_add_right _ _), rfl⟩

theorem finishesHeader_advance :
    FinishesHeader shape fun g => advanceNextIndex (bumpVersion shape g) := fun g =>
  ⟨(agreeOn_advanceNextIndex _ _).trans (finishesHeader_bumpVersion g).1, rfl⟩

/-- What one write does, up to the header: nothing if it is rejected, else one of the three
updates. -/
structure Wrote (shape : ImageShape) (charge : GrowCharge) (g : VendorInfo) (call : WriteCall)
    (answer : Int × VendorInfo) : Prop where
  laidOut : LaidOut shape answer.2
  accepted : UpdateFits g.mem call.id call.size → answer.1 = 0 ∧
    ∃ updated, Updated shape charge g call.id call.pbuf call.size updated ∧
      SameTable answer.2.mem updated.mem
  rejected : ¬UpdateFits g.mem call.id call.size → answer = (-1, g)

theorem tableWrite_spec {charge : GrowCharge} {finish : VendorInfo → VendorInfo}
    (sound : ChargeSound shape charge) (finishes : FinishesHeader shape finish)
    (laidOut : LaidOut shape g) {call : WriteCall} (guarded : Guarded shape g call) :
    Wrote shape charge g call (tableWrite shape charge finish g call) := by
  cases update : vendorUpdate shape charge g call.id call.pbuf call.size with
  | none =>
      have rejects : ¬UpdateFits g.mem call.id call.size := by
        rw [← @vendorUpdate_isSome_iff shape g charge call.id call.size call.pbuf, update]
        exact Bool.false_ne_true
      have answer : tableWrite shape charge finish g call = (-1, g) := by
        simp only [tableWrite, update]
      rw [answer]
      exact ⟨laidOut, fun fits => absurd fits rejects, fun _ => rfl⟩
  | some updated =>
      have accepts : UpdateFits g.mem call.id call.size := by
        rw [← @vendorUpdate_isSome_iff shape g charge call.id call.size call.pbuf, update]
        rfl
      have answer : tableWrite shape charge finish g call = (0, finish updated) := by
        simp only [tableWrite, update]
      have spec := laidOut.updated guarded.1 guarded.2 update
      have middle := spec.laidOut sound laidOut guarded.1
      obtain ⟨agree, flag⟩ := finishes updated
      rw [answer]
      have same := sameTable_of_agree agree middle.ascending.le_itemMax
      exact ⟨middle.congr agree flag, fun _ => ⟨rfl, updated, spec, same⟩,
        fun rejects => absurd accepts rejects⟩

theorem SameTable.spaceKept_iff {g' : VendorInfo} (same : SameTable g'.mem g.mem) :
    SpaceKept shape g' ↔ SpaceKept shape g := by
  rw [SpaceKept, SpaceKept, same.freeOffset, same.freeSize]

theorem not_growsPacked {m : Bytes} (unpacked : ¬GrowsPacked m id size) : UpdateFits m id size := by
  simp only [GrowsPacked, not_forall] at unpacked
  obtain ⟨i, found, _, room, _⟩ := unpacked
  simp only [UpdateFits, found]
  exact Or.inr room

/-- One eMMC write keeps the balance exactly if it moves full rooms only. -/
theorem emmcTableWrite_spaceKept_iff (laidOut : LaidOut shape g) (kept : SpaceKept shape g)
    {call : WriteCall} (guarded : Guarded shape g call) :
    SpaceKept shape (emmcTableWrite shape g call).2 ↔ GrowsPacked g.mem call.id call.size := by
  have wrote := tableWrite_spec emmcCharge_sound finishesHeader_advance laidOut guarded
  by_cases accepts : UpdateFits g.mem call.id call.size
  · obtain ⟨_, updated, spec, same⟩ := wrote.accepted accepts
    exact same.spaceKept_iff.trans (spec.spaceKept_iff kept guarded.1)
  · rw [emmcTableWrite, wrote.rejected accepts]
    refine iff_of_true kept ?_
    by_contra unpacked
    exact accepts (not_growsPacked unpacked)

/-! ## Histories -/

def writeStep (dev : EmmcDevice) (call : WriteCall) : Option EmmcDevice := some (call.apply dev).2

def tableStep (shape : ImageShape) (g : VendorInfo) (call : WriteCall) : Option VendorInfo :=
  some (emmcTableWrite shape g call).2

/-- An image with an empty table, as both drivers build it. -/
structure Blank (shape : ImageShape) (g : VendorInfo) : Prop where
  itemNum : itemNum g.mem = 0
  freeOffset : freeOffset g.mem = 0
  freeSize : freeSize g.mem = shape.dataSize
  noOverrun : g.overrun = false

theorem Blank.laidOut (blank : Blank shape g) : LaidOut shape g := by
  refine ⟨⟨?_, ?_, ?_⟩, ?_, ?_, blank.noOverrun⟩
  · simp [blank.itemNum]
  · intro i _ bound
    simp [blank.itemNum] at bound
  · intro i _ bound
    simp [blank.itemNum] at bound
  · intro i bound
    simp [blank.itemNum] at bound
  · simp [blank.freeOffset, blank.freeSize]

theorem Blank.spaceKept (blank : Blank shape g) : SpaceKept shape g := by
  rw [SpaceKept, blank.freeOffset, blank.freeSize, Nat.zero_add]

theorem Blank.sameTable {shape' : ImageShape} {g' : VendorInfo} (blank : Blank shape g)
    (blank' : Blank shape' g') (area : shape.dataSize = shape'.dataSize) :
    SameTable g.mem g'.mem :=
  ⟨blank.itemNum.trans blank'.itemNum.symm, fun i bound => by simp [blank.itemNum] at bound,
    blank.freeOffset.trans blank'.freeOffset.symm,
    blank.freeSize.trans (area.trans blank'.freeSize.symm)⟩

theorem Fresh.blank {m : Bytes} (fresh : Fresh m) : Blank emmcShape ⟨m, false⟩ :=
  ⟨fresh.itemNum, fresh.freeOffset, fresh.freeSize, rfl⟩

/-- The balance survives a history exactly if each growing write moves full rooms only. -/
theorem spaceKept_always_iff {dev : EmmcDevice} (laidOut : LaidOut emmcShape dev.gVendor)
    (kept : SpaceKept emmcShape dev.gVendor) (calls : List WriteCall)
    (guarded : Along writeStep (fun dev call => Guarded emmcShape dev.gVendor call) dev calls) :
    Always writeStep (fun dev => SpaceKept emmcShape dev.gVendor) dev calls ↔
      Along writeStep (fun dev call => GrowsPacked dev.gVendor.mem call.id call.size) dev
        calls := by
  refine always_iff_along
    (fun dev => LaidOut emmcShape dev.gVendor ∧ SpaceKept emmcShape dev.gVendor)
    (fun _ inv => inv.2) ?_ ?_ ⟨laidOut, kept⟩ calls guarded
  · rintro dev call _ ⟨laidOut, kept⟩ guarded packed ⟨⟩
    rw [(apply_eq_emmcTableWrite call dev).2]
    exact ⟨(tableWrite_spec emmcCharge_sound finishesHeader_advance laidOut guarded).laidOut,
      (emmcTableWrite_spaceKept_iff laidOut kept guarded).mpr packed⟩
  · rintro dev call ⟨laidOut, kept⟩ guarded unpacked
    refine ⟨_, rfl, fun keeps => unpacked ?_⟩
    rw [(apply_eq_emmcTableWrite call dev).2] at keeps
    exact (emmcTableWrite_spaceKept_iff laidOut kept guarded).mp keeps

theorem Updated.itemNum_le {charge : GrowCharge}
    (updated : Updated shape charge g id pbuf size after) :
    itemNum after.mem ≤ itemNum g.mem + 1 := by
  cases updated with
  | appended missing room row spec => exact Nat.le_of_eq spec.num
  | rewritten i found le spec => exact Nat.le_succ_of_le (Nat.le_of_eq spec.num)
  | grown i cursor found grows room spec => exact Nat.le_succ_of_le (Nat.le_of_eq spec.num)

/-- As many writes as the table has free rows do not fill it. -/
theorem guarded_of_rows {dev : EmmcDevice} (laidOut : LaidOut emmcShape dev.gVendor)
    (calls : List WriteCall) (sizes : ∀ call ∈ calls, call.size < 4294967233)
    (rows : itemNum dev.gVendor.mem + calls.length ≤ emmcShape.itemMax) :
    Along writeStep (fun dev call => Guarded emmcShape dev.gVendor call) dev calls := by
  induction calls generalizing dev with
  | nil => exact trivial
  | cons call calls ih =>
      rw [List.length_cons] at rows
      have guarded : Guarded emmcShape dev.gVendor call :=
        ⟨sizes call List.mem_cons_self, fun appends => absurd appends.2.2 (by omega)⟩
      have wrote := tableWrite_spec emmcCharge_sound finishesHeader_advance laidOut guarded
      have grows : itemNum (emmcTableWrite emmcShape dev.gVendor call).2.mem ≤
          itemNum dev.gVendor.mem + 1 := by
        by_cases accepts : UpdateFits dev.gVendor.mem call.id call.size
        · obtain ⟨_, updated, spec, same⟩ := wrote.accepted accepts
          exact same.num.trans_le spec.itemNum_le
        · have unchanged : (emmcTableWrite emmcShape dev.gVendor call).2 = dev.gVendor :=
            congrArg Prod.snd (wrote.rejected accepts)
          simp only [unchanged, Nat.le_succ]
      refine ⟨guarded, ?_⟩
      rintro _ ⟨⟩
      have applied := (apply_eq_emmcTableWrite call dev).2
      refine ih (applied ▸ wrote.laidOut)
        (fun call member => sizes call (List.mem_cons_of_mem _ member)) ?_
      simp only [applied]
      omega

/-- Along such a history both drivers answer alike. -/
theorem answers_eq {shape' : ImageShape} {g' : VendorInfo}
    (area : shape.dataSize = shape'.dataSize) (laidOut : LaidOut shape g)
    (laidOut' : LaidOut shape' g') (kept : SpaceKept shape g) (same : SameTable g.mem g'.mem)
    (calls : List WriteCall)
    (along : Along (tableStep shape) (fun g call => Guarded shape g call ∧ Guarded shape' g call ∧
      GrowsPacked g.mem call.id call.size) g calls) :
    answers (emmcTableWrite shape) g calls = answers (mtdTableWrite shape') g' calls := by
  induction calls generalizing g g' with
  | nil => simp only [answers]
  | cons call calls ih =>
      obtain ⟨⟨guarded, guardedHere, packed⟩, rest⟩ := along
      have guarded' : Guarded shape' g' call := by
        refine ⟨guarded.1, fun appends => guardedHere.2 ?_⟩
        rw [AppendsToFullTable, same.findItem, same.freeSize, same.num]
        exact appends
      have wrote := tableWrite_spec emmcCharge_sound finishesHeader_advance laidOut guarded
      have wrote' := tableWrite_spec recomputeCharge_sound finishesHeader_bumpVersion laidOut'
        guarded'
      have keptAfter := (emmcTableWrite_spaceKept_iff laidOut kept guarded).mpr packed
      have fits_iff := @SameTable.updateFits_iff call.id call.size g.mem g'.mem same
      have head : (emmcTableWrite shape g call).1 = (mtdTableWrite shape' g' call).1 ∧
          SameTable (emmcTableWrite shape g call).2.mem (mtdTableWrite shape' g' call).2.mem := by
        by_cases accepts : UpdateFits g.mem call.id call.size
        · obtain ⟨zero, updated, spec, table⟩ := wrote.accepted accepts
          obtain ⟨zero', updated', spec', table'⟩ := wrote'.accepted (fits_iff.mp accepts)
          exact ⟨zero.trans zero'.symm, (table.trans
            (same.updated area kept packed guarded.1 spec spec')).trans table'.symm⟩
        · have refused : emmcTableWrite shape g call = (-1, g) := wrote.rejected accepts
          have refused' : mtdTableWrite shape' g' call = (-1, g') :=
            wrote'.rejected (mt fits_iff.mpr accepts)
          simp only [refused, refused', true_and]
          exact same
      exact congrArg₂ List.cons head.1
        (ih wrote.laidOut wrote'.laidOut keptAfter head.2 (rest _ rfl))

/-- From the blank image, `free_offset` and `free_size` make up the data area after each write
exactly if every growing write moves full rooms only; then both drivers, run on data areas of the
same size, accept and reject the same writes. -/
theorem vendor_space_kept_iff (media : Media) (buffer : Bytes) (emmc mtd : ImageShape)
    (left right : VendorInfo) (calls : List WriteCall) :
    ((∀ i, i < emmcVendorPartNum → ¬SlotValid media i) →
      ∃ g, emmcVendorStorageInit allTransfersOk media buffer = some g ∧
        (Along writeStep (fun dev call => Guarded emmcShape dev.gVendor call) ⟨g, media⟩ calls →
          (Always writeStep (fun dev => SpaceKept emmcShape dev.gVendor) ⟨g, media⟩ calls ↔
            Along writeStep (fun dev call => GrowsPacked dev.gVendor.mem call.id call.size)
              ⟨g, media⟩ calls))) ∧
    (emmc.dataSize = mtd.dataSize → Blank emmc left → Blank mtd right →
      Along (tableStep emmc) (fun g call => Guarded emmc g call ∧ Guarded mtd g call ∧
        GrowsPacked g.mem call.id call.size) left calls →
      answers (emmcTableWrite emmc) left calls = answers (mtdTableWrite mtd) right calls) := by
  constructor
  · intro blank
    obtain ⟨old, fresh⟩ := emmcVendorStorageInit_blank buffer blank
    have start := (emmcFreshImage_fresh old).blank
    exact ⟨_, fresh, fun guarded =>
      spaceKept_always_iff start.laidOut start.spaceKept calls guarded⟩
  · intro area blankL blankR along
    exact answers_eq area blankL.laidOut blankR.laidOut blankL.spaceKept
      (blankL.sameTable blankR area) calls along

/-! ## Examples of both kinds -/

instance (m : Bytes) (i : Nat) : Decidable (FillsRoom m i) := inferInstanceAs (Decidable (_ = _))

instance (shape : ImageShape) (g : VendorInfo) : Decidable (SpaceKept shape g) :=
  inferInstanceAs (Decidable (_ = _))

instance (m : Bytes) (id size : Nat) : Decidable (GrowsPacked m id size) :=
  match found : findItem m id with
  | none => isTrue fun i found' => by simp [found] at found'
  | some i => decidable_of_iff
      (align (item m i).size < size → align size ≤ freeSize m → FillsRoom m i)
      ⟨fun packed i' found' => Option.some.inj (found.symm.trans found') ▸ packed,
        fun packed => packed i found⟩

instance (shape : ImageShape) (g : VendorInfo) (id size : Nat) :
    Decidable (AppendsToFullTable shape g id size) :=
  inferInstanceAs (Decidable (_ ∧ _))

instance (shape : ImageShape) (g : VendorInfo) (call : WriteCall) :
    Decidable (Guarded shape g call) :=
  inferInstanceAs (Decidable (_ ∧ ¬_))

/-- A data area of the eMMC driver's size under the MTD driver's table. -/
def wideMtdShape : ImageShape where
  itemMax := mtdShape.itemMax
  dataSize := emmcShape.dataSize
  itemMax_lt := by decide
  dataSize_lt := by decide

/-- An empty table in zeroed memory. -/
def blankImage (shape : ImageShape) : VendorInfo :=
  ⟨write16 (fun _ => 0) 14 shape.dataSize, false⟩

theorem blankImage_blank (shape : ImageShape) : Blank shape (blankImage shape) := by
  have narrow := shape.dataSize_lt
  refine ⟨?_, ?_, ?_, rfl⟩
  · simp only [itemNum, blankImage]
    exact read16_write16_of_disjoint (by omega)
  · simp only [freeOffset, blankImage]
    exact read16_write16_of_disjoint (by omega)
  · simp only [freeSize, blankImage]
    rw [read16_write16_same, Nat.mod_eq_of_lt narrow]

def sizedWrite (id size : Nat) : WriteCall := ⟨id, fun _ => 7, size, allTransfersOk⟩

/-- Two items, of which the first outgrows its room. -/
def growingCalls : List WriteCall := [sizedWrite 1 64, sizedWrite 2 64, sizedWrite 1 128]

/-- An item that shrinks and grows again, and another that needs the space in between. -/
def shrinkingCalls : List WriteCall :=
  [sizedWrite 1 32000, sizedWrite 1 64, sizedWrite 1 32000, sizedWrite 2 640]

theorem vendor_space_kept_iff_growing :
    (∃ g, emmcVendorStorageInit allTransfersOk zeroMedia (fun _ => 0) = some g ∧
      (Always writeStep (fun dev => SpaceKept emmcShape dev.gVendor) ⟨g, zeroMedia⟩ growingCalls ↔
        Along writeStep (fun dev call => GrowsPacked dev.gVendor.mem call.id call.size)
          ⟨g, zeroMedia⟩ growingCalls)) ∧
    answers (emmcTableWrite emmcShape) (blankImage emmcShape) growingCalls =
      answers (mtdTableWrite wideMtdShape) (blankImage wideMtdShape) growingCalls := by
  have settled := vendor_space_kept_iff zeroMedia (fun _ => 0) emmcShape wideMtdShape
    (blankImage emmcShape) (blankImage wideMtdShape) growingCalls
  constructor
  · obtain ⟨g, mounted, histories⟩ := settled.1 fun i _ => not_slotValid_zeroMedia i
    obtain ⟨old, fresh⟩ := @emmcVendorStorageInit_blank zeroMedia (fun _ => 0)
      fun i _ => not_slotValid_zeroMedia i
    obtain rfl := Option.some.inj (fresh.symm.trans mounted)
    have start := (emmcFreshImage_fresh old).blank
    refine ⟨_, mounted, histories (guarded_of_rows start.laidOut _ (by decide) ?_)⟩
    rw [start.itemNum]
    decide
  · exact settled.2 rfl (blankImage_blank _) (blankImage_blank _) (by decide +kernel)

/-- After the third write the eMMC driver has lost almost half of its data area, and rejects a
fourth one that the MTD driver accepts. -/
theorem shrinking_calls_lose_space :
    (∃ final ∈ runs (tableStep emmcShape) (blankImage emmcShape) (shrinkingCalls.take 3),
      freeOffset final.mem = 32000 ∧ freeSize final.mem = 568 ∧ ¬SpaceKept emmcShape final) ∧
    answers (emmcTableWrite emmcShape) (blankImage emmcShape) shrinkingCalls = [0, 0, 0, -1] ∧
    answers (mtdTableWrite wideMtdShape) (blankImage wideMtdShape) shrinkingCalls =
      [0, 0, 0, 0] := by
  decide +kernel

end VendorStorage
end RockchipSoc
