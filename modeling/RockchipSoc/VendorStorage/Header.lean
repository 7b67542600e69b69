import RockchipSoc.VendorStorage.Update

/-!
# The header of an image

Tag, version and `next_index` lie in the first ten bytes.  No branch of the update stores there,
whatever the table looks like, so the words by which mounting recognises an image depend on
`version++` alone.
-/

namespace RockchipSoc
namespace VendorStorage

open ByteMemory

theorem tag_congr {left right : Bytes} (agree : AgreeOn 0 10 left right) :
    tag left = tag right := agree.read32 (by omega) (by omega)

theorem version_congr {left right : Bytes} (agree : AgreeOn 0 10 left right) :
    version left = version right := agree.read32 (by omega) (by omega)

theorem nextIndex_congr {left right : Bytes} (agree : AgreeOn 0 10 left right) :
    nextIndex left = nextIndex right := agree.read16 (by omega) (by omega)

theorem shiftItem_low (shape : ImageShape) (g : VendorInfo) (j offset : Nat) :
    AgreeOn 0 10 (shiftItem shape g j offset).mem g.mem := by
  intro a _ upper
  have base : shape.dataBase = 16 + 8 * shape.itemMax := rfl
  exact shiftItem_mem_of_outside (by omega) (by omega)

theorem compact_low (shape : ImageShape) (n j offset : Nat) (g : VendorInfo) :
    AgreeOn 0 10 (compact shape n j offset g).1.mem g.mem := by
  induction n generalizing j offset g with
  | zero => exact .refl _ _ _
  | succ n ih => exact (ih _ _ _).trans (shiftItem_low shape g j offset)

/-- Before `version++`, an update leaves tag, version and `next_index` alone. -/
theorem vendorUpdate_low {shape : ImageShape} {charge : GrowCharge} {g after : VendorInfo}
    {id size : Nat} {pbuf : Bytes}
    (updated : vendorUpdate shape charge g id pbuf size = some after) :
    AgreeOn 0 10 after.mem g.mem := by
  have base : shape.dataBase = 16 + 8 * shape.itemMax := rfl
  unfold vendorUpdate at updated
  cases found : findItem g.mem id with
  | none =>
      simp only [found] at updated
      split at updated
      case isFalse => contradiction
      case isTrue =>
        obtain rfl := Option.some.inj updated
        intro a _ upper
        rw [appendItem_eq]
        simp only [storeItemNum, storeData, storeFreeSize, storeFreeOffset]
        simp (disch := omega) only [write16_apply_of_ne, copyIn_apply_of_notMem,
          fillItem_mem_of_outside]
  | some i =>
      simp only [found] at updated
      split at updated
      case isTrue =>
        split at updated
        case isTrue => contradiction
        case isFalse =>
          obtain rfl := Option.some.inj updated
          intro a lower upper
          have compacted := compact_low shape (itemNum g.mem - 1 - i) i (item g.mem i).offset g a
            lower upper
          simp only [growItem, placeItem, storeFreeSize, storeFreeOffset, storeData, storeItemSize,
            storeItemOffset, storeItemId]
          simp (disch := omega) only [write16_apply_of_ne, copyIn_apply_of_notMem, compacted]
      case isFalse =>
        obtain rfl := Option.some.inj updated
        intro a _ upper
        simp only [rewriteItem, storeItemSize, storeData]
        rw [write16_apply_of_ne (by omega), copyIn_apply_of_notMem (by omega)]

/-- The header words after an update and `version++`. -/
structure Bumped (shape : ImageShape) (m after : Bytes) : Prop where
  sameTag : tag after = tag m
  nextVersion : version after = version m + 1
  nextVersion2 : version2 shape after = version m + 1
  sameSlot : nextIndex after = nextIndex m

/-- No write changes the tag. -/
theorem tag_vendorUpdate_bumpVersion {shape : ImageShape} {charge : GrowCharge}
    {g after : VendorInfo} {id size : Nat} {pbuf : Bytes}
    (updated : vendorUpdate shape charge g id pbuf size = some after) :
    tag (bumpVersion shape after).mem = tag g.mem := by
  have base : shape.dataBase = 16 + 8 * shape.itemMax := rfl
  have tail : shape.version2Base = shape.dataBase + shape.dataSize + 4 := rfl
  rw [← tag_congr (vendorUpdate_low updated)]
  simp only [bumpVersion, tag]
  simp (disch := omega) only [read32_write32_of_disjoint]

theorem vendorUpdate_bumpVersion {shape : ImageShape} {charge : GrowCharge} {g after : VendorInfo}
    {id size : Nat} {pbuf : Bytes} (noWrap : version g.mem + 1 < 4294967296)
    (updated : vendorUpdate shape charge g id pbuf size = some after) :
    Bumped shape g.mem (bumpVersion shape after).mem := by
  have base : shape.dataBase = 16 + 8 * shape.itemMax := rfl
  have tail : shape.version2Base = shape.dataBase + shape.dataSize + 4 := rfl
  have low := vendorUpdate_low updated
  have word : version (write32 after.mem 4 (version after.mem + 1)) = version g.mem + 1 := by
    have versions := version_congr low
    simp only [version] at versions noWrap ⊢
    rw [read32_write32_same, versions]
    exact Nat.mod_eq_of_lt noWrap
  refine ⟨tag_vendorUpdate_bumpVersion updated, ?_, ?_, ?_⟩
  · simp only [bumpVersion, word]
    refine (read32_write32_of_disjoint (by omega)).trans word
  · simp only [bumpVersion, word]
    exact (read32_write32_same _ _ _).trans (Nat.mod_eq_of_lt noWrap)
  · rw [← nextIndex_congr low]
    simp only [bumpVersion, nextIndex]
    simp (disch := omega) only [read16_write32_of_disjoint]

end VendorStorage
end RockchipSoc
