import RockchipSoc.VendorStorage.EmmcDevice
import RockchipSoc.VendorStorage.Header

/-!
# What initialisation loads

A slot is valid when its first sector carries the tag and its last sector repeats the version of
the first.  The scan answers the first valid slot of the highest version, and initialisation then
loads exactly the bytes of that slot, or builds the fresh image when there is none.
-/

namespace RockchipSoc
namespace VendorStorage

open ByteMemory

/-- The bytes of a slot as one image. -/
def slotImage (media : Media) (i : Nat) : Bytes := fun a =>
  media (emmcVendorPartStart + emmcVendorPartSize * i + a / 512) (a % 512)

/-- The test that the scan applies to the first and last sector of a slot. -/
def SlotValid (media : Media) (i : Nat) : Prop :=
  tag (slotImage media i) = emmcVendorTag ∧
    version2 emmcShape (slotImage media i) = version (slotImage media i)

instance (media : Media) (i : Nat) : Decidable (SlotValid media i) :=
  inferInstanceAs (Decidable (_ ∧ _))

theorem emmcShape_size : emmcShape.size = 65536 := by decide

theorem emmcShape_version2Base : emmcShape.version2Base = 65532 := by decide

theorem emmcShape_dataBase : emmcShape.dataBase = 1024 := by decide

theorem version2_congr {left right : Bytes} (agree : AgreeOn 65532 65536 left right) :
    version2 emmcShape left = version2 emmcShape right := by
  simp only [version2, emmcShape_version2Base]
  exact agree.read32 (by omega) (by omega)

/-- The buffer of one scan pass: the first and the last sector of slot `i`. -/
def scanBuffer (media : Media) (buffer : Bytes) (i : Nat) : Bytes :=
  copyIn (copyIn buffer 0 (media (emmcVendorPartStart + emmcVendorPartSize * i)) 512)
    ((emmcVendorPartSize - 1) * 512)
    (media (emmcVendorPartStart + emmcVendorPartSize * (i + 1) - 1)) 512

theorem scanBuffer_first (media : Media) (buffer : Bytes) (i : Nat) :
    AgreeOn 0 512 (scanBuffer media buffer i) (slotImage media i) := by
  intro a _ upper
  simp only [scanBuffer, emmcVendorPartSize]
  rw [copyIn_apply_of_notMem (by omega), copyIn_apply_of_mem (by omega) (by omega)]
  simp only [slotImage, emmcVendorPartSize, Nat.sub_zero, Nat.div_eq_of_lt upper,
    Nat.mod_eq_of_lt upper, Nat.add_zero]

theorem scanBuffer_last (media : Media) (buffer : Bytes) (i : Nat) :
    AgreeOn 65024 65536 (scanBuffer media buffer i) (slotImage media i) := by
  intro a lower upper
  simp only [scanBuffer, emmcVendorPartSize]
  rw [copyIn_apply_of_mem (by omega) (by omega)]
  simp only [slotImage, emmcVendorPartSize, emmcVendorPartStart]
  rw [show a / 512 = 127 by omega, show a % 512 = a - (128 - 1) * 512 by omega,
    show 1024 * 7 + 128 * (i + 1) - 1 = 1024 * 7 + 128 * i + 127 by omega]

theorem tag_scanBuffer (media : Media) (buffer : Bytes) (i : Nat) :
    tag (scanBuffer media buffer i) = tag (slotImage media i) :=
  tag_congr ((scanBuffer_first media buffer i).mono (by omega) (by omega))

theorem version_scanBuffer (media : Media) (buffer : Bytes) (i : Nat) :
    version (scanBuffer media buffer i) = version (slotImage media i) :=
  version_congr ((scanBuffer_first media buffer i).mono (by omega) (by omega))

theorem version2_scanBuffer (media : Media) (buffer : Bytes) (i : Nat) :
    version2 emmcShape (scanBuffer media buffer i) = version2 emmcShape (slotImage media i) :=
  version2_congr ((scanBuffer_last media buffer i).mono (by omega) (by omega))

theorem scanSlots_succ (media : Media) (buffer : Bytes) (i : Nat) :
    scanSlots allTransfersOk media buffer (i + 1) =
      (scanSlots allTransfersOk media buffer i).bind fun scan =>
        if SlotValid media i ∧ scan.maxVer < version (slotImage media i) then
          some ⟨scanBuffer media scan.buffer i, version (slotImage media i), i⟩
        else some ⟨scanBuffer media scan.buffer i, scan.maxVer, scan.maxIndex⟩ := by
  rw [scanSlots]
  congr 1
  funext scan
  have tags := tag_scanBuffer media scan.buffer i
  have versions := version_scanBuffer media scan.buffer i
  have tails := version2_scanBuffer media scan.buffer i
  simp only [scanBuffer] at tags versions tails
  simp only [allTransfersOk, ne_eq, not_true_eq_false, if_false, tags, versions, tails, SlotValid,
    scanBuffer, and_assoc]

/-- The scan never fails on readable media, bounds every valid version and names a slot that
attains the bound. -/
theorem scanSlots_spec (media : Media) (buffer : Bytes) (n : Nat) :
    ∃ scan, scanSlots allTransfersOk media buffer n = some scan ∧
      (∀ i, i < n → SlotValid media i → version (slotImage media i) ≤ scan.maxVer) ∧
      (scan.maxVer ≠ 0 → scan.maxIndex < n ∧ SlotValid media scan.maxIndex ∧
        version (slotImage media scan.maxIndex) = scan.maxVer) := by
  induction n with
  | zero => exact ⟨⟨buffer, 0, 0⟩, rfl, fun i bound => absurd bound (by omega),
      fun found => absurd rfl found⟩
  | succ n ih =>
      obtain ⟨scan, scanned, bounds, attained⟩ := ih
      rw [scanSlots_succ, scanned, Option.bind_some]
      by_cases better : SlotValid media n ∧ scan.maxVer < version (slotImage media n)
      · refine ⟨_, if_pos better, ?_, ?_⟩
        · intro i bound valid
          rcases Nat.lt_succ_iff_lt_or_eq.mp bound with earlier | rfl
          · exact Nat.le_trans (bounds i earlier valid) (Nat.le_of_lt better.2)
          · exact Nat.le_refl _
        · exact fun _ => ⟨Nat.lt_succ_self n, better.1, rfl⟩
      · refine ⟨_, if_neg better, ?_, ?_⟩
        · intro i bound valid
          rcases Nat.lt_succ_iff_lt_or_eq.mp bound with earlier | rfl
          · exact bounds i earlier valid
          · exact Nat.le_of_not_lt fun lt => better ⟨valid, lt⟩
        · intro found
          obtain ⟨below, rest⟩ := attained found
          exact ⟨Nat.lt_succ_of_lt below, rest⟩

/-- Reading a run of sectors loads them back to back. -/
theorem emmcVendorOpsRead_spec (media : Media) (addr n : Nat) (buffer : Bytes) :
    (emmcVendorOpsRead allTransfersOk media addr n buffer).1 = 0 ∧
      ∀ a, a < 512 * n → (emmcVendorOpsRead allTransfersOk media addr n buffer).2 a =
        media (addr + a / 512) (a % 512) := by
  induction n with
  | zero => exact ⟨rfl, fun a bound => absurd bound (by omega)⟩
  | succ n ih =>
      simp only [emmcVendorOpsRead, allTransfersOk, if_true, true_and] at ih ⊢
      intro a bound
      by_cases last : 512 * n ≤ a
      · rw [copyIn_apply_of_mem last (by omega), show a / 512 = n by omega,
          show a % 512 = a - 512 * n by omega]
      · rw [copyIn_apply_of_notMem (by omega)]
        exact ih.2 a (by omega)

/-- Without a valid slot initialisation builds the fresh image. -/
theorem emmcVendorStorageInit_blank {media : Media} (buffer : Bytes)
    (blank : ∀ i, i < emmcVendorPartNum → ¬SlotValid media i) :
    ∃ old, emmcVendorStorageInit allTransfersOk media buffer =
      some ⟨emmcFreshImage old, false⟩ := by
  obtain ⟨scan, scanned, _, attained⟩ := scanSlots_spec media buffer emmcVendorPartNum
  have nothing : scan.maxVer = 0 := by
    by_contra found
    obtain ⟨below, valid, _⟩ := attained found
    exact blank _ below valid
  exact ⟨scan.buffer, by simp [emmcVendorStorageInit, scanned, nothing]⟩

/-- A valid slot that is newer than every other valid slot is the one that is loaded. -/
theorem emmcVendorStorageInit_newest {media : Media} (buffer : Bytes) {i : Nat}
    (bound : i < emmcVendorPartNum) (valid : SlotValid media i)
    (positive : 0 < version (slotImage media i))
    (newest : ∀ j, j < emmcVendorPartNum → j ≠ i → SlotValid media j →
      version (slotImage media j) < version (slotImage media i)) :
    ∃ m, emmcVendorStorageInit allTransfersOk media buffer = some ⟨m, false⟩ ∧
      AgreeOn 0 emmcShape.size m (slotImage media i) := by
  obtain ⟨scan, scanned, bounds, attained⟩ := scanSlots_spec media buffer emmcVendorPartNum
  have atLeast := bounds i bound valid
  obtain ⟨below, chosenValid, chosenVersion⟩ := attained (by omega)
  have chosen : scan.maxIndex = i := by
    by_contra other
    have := newest _ below other chosenValid
    omega
  obtain ⟨ret, loaded⟩ := emmcVendorOpsRead_spec media
    (emmcVendorPartStart + emmcVendorPartSize * i) emmcVendorPartSize scan.buffer
  refine ⟨(emmcVendorOpsRead allTransfersOk media (emmcVendorPartStart + emmcVendorPartSize * i)
    emmcVendorPartSize scan.buffer).2, ?_, ?_⟩
  · simp only [emmcVendorStorageInit, scanned, Option.bind_eq_bind, Option.bind_some, chosen]
    rw [if_pos (by omega)]
    exact if_neg (not_not.mpr ret)
  · intro a _ upper
    exact loaded a (by rw [emmcShape_size] at upper; simpa [emmcVendorPartSize] using upper)

end VendorStorage
end RockchipSoc
