import RockchipSoc.VendorStorage.EmmcCrash

/-!
# Failed transfers

`emmc_vendor_ops` overwrites its result with every sector, so it reports the last transfer only,
and `emmc_vendor_write` drops even that.  A failed transfer leaves its sector of the buffer or of
the medium as it was.  The scan of the slots, in contrast, checks each of its transfers.
-/

namespace RockchipSoc
namespace VendorStorage

open ByteMemory

/-- Each of the first `n` transfers succeeds. -/
def AllOk (results : TransferResults) (n : Nat) : Prop := ∀ k, k < n → results k = 0

instance (results : TransferResults) (n : Nat) : Decidable (AllOk results n) :=
  inferInstanceAs (Decidable (∀ k, k < n → results k = 0))

/-- The last of `n` transfers succeeds after an earlier one failed. -/
def MasksFailure (results : TransferResults) (n : Nat) : Prop :=
  0 < n ∧ results (n - 1) = 0 ∧ ∃ k, k < n - 1 ∧ results k ≠ 0

/-- The results of the transfers after the first `issued` ones. -/
def laterResults (results : TransferResults) (issued : Nat) : TransferResults :=
  fun k => results (issued + k)

/-- The result that a loop over `n` sectors is left with. -/
def lastResult (results : TransferResults) : Nat → Int
  | 0 => 0
  | n + 1 => results n

variable {results : TransferResults} {media : Media} {buffer : Bytes} {addr n : Nat}

theorem AllOk.mono {m : Nat} (ok : AllOk results n) (le : m ≤ n) : AllOk results m :=
  fun k below => ok k (Nat.lt_of_lt_of_le below le)

theorem allOk_succ : AllOk results (n + 1) ↔ AllOk results n ∧ results n = 0 := by
  constructor
  · exact fun ok => ⟨ok.mono (Nat.le_succ n), ok n (Nat.lt_succ_self n)⟩
  · rintro ⟨ok, last⟩ k below
    rcases Nat.lt_succ_iff_lt_or_eq.mp below with earlier | rfl
    · exact ok k earlier
    · exact last

/-- A zero result of the loop proves every transfer successful unless a failure was masked. -/
theorem lastResult_reports_iff :
    (lastResult results n = 0 → AllOk results n) ↔ ¬MasksFailure results n := by
  cases n with
  | zero => exact iff_of_true (fun _ k below => absurd below (Nat.not_lt_zero k)) fun masks =>
      absurd masks.1 (Nat.lt_irrefl 0)
  | succ n =>
      constructor
      · rintro reports ⟨_, last, k, below, failed⟩
        exact failed (reports last k (Nat.lt_succ_of_lt below))
      · intro unmasked last
        refine allOk_succ.mpr ⟨fun k below => ?_, last⟩
        by_contra failed
        exact unmasked ⟨Nat.succ_pos n, last, k, below, failed⟩

theorem emmcVendorOpsWrite_result :
    (emmcVendorOpsWrite results buffer addr n media).1 = lastResult results n := by
  cases n with
  | zero => rfl
  | succ n =>
      simp only [emmcVendorOpsWrite, lastResult]
      split
      next ok => exact ok.symm
      next => rfl

theorem emmcVendorOpsRead_result :
    (emmcVendorOpsRead results media addr n buffer).1 = lastResult results n := by
  cases n with
  | zero => rfl
  | succ n =>
      simp only [emmcVendorOpsRead, lastResult]
      split
      next ok => exact ok.symm
      next => rfl

/-! ## What a failed transfer leaves -/

theorem emmcVendorOpsWrite_succ : (emmcVendorOpsWrite results buffer addr (n + 1) media).2 =
    if results n = 0 then Function.update (emmcVendorOpsWrite results buffer addr n media).2
      (addr + n) fun b => buffer (512 * n + b)
    else (emmcVendorOpsWrite results buffer addr n media).2 := by
  rw [emmcVendorOpsWrite]
  split <;> rfl

theorem emmcVendorOpsRead_succ : (emmcVendorOpsRead results media addr (n + 1) buffer).2 =
    if results n = 0 then copyIn (emmcVendorOpsRead results media addr n buffer).2 (512 * n)
      (media (addr + n)) 512
    else (emmcVendorOpsRead results media addr n buffer).2 := by
  rw [emmcVendorOpsRead]
  split <;> rfl

/-- Each sector of the target holds its part of the buffer exactly if its transfer succeeded; the
medium outside the target is left alone. -/
theorem emmcVendorOpsWrite_apply_of_results (sector : Nat) :
    (emmcVendorOpsWrite results buffer addr n media).2 sector =
      if addr ≤ sector ∧ sector < addr + n ∧ results (sector - addr) = 0 then
        fun b => buffer (512 * (sector - addr) + b)
      else media sector := by
  induction n with
  | zero => exact (if_neg (by omega)).symm
  | succ n ih =>
      rw [emmcVendorOpsWrite_succ]
      rcases Nat.lt_trichotomy sector (addr + n) with below | rfl | above
      · refine Eq.trans ?_ (ih.trans (if_congr (by omega) rfl rfl))
        split
        · exact Function.update_of_ne (Nat.ne_of_lt below) _ _
        · rfl
      · rw [if_neg (by omega)] at ih
        rw [Nat.add_sub_cancel_left]
        split
        next ok => rw [Function.update_self, if_pos ⟨by omega, by omega, ok⟩]
        next failed => rw [if_neg fun all => failed all.2.2, ih]
      · rw [if_neg (by omega)] at ih
        rw [if_neg (by omega : ¬(addr ≤ sector ∧ sector < addr + (n + 1) ∧ _))]
        split
        · rw [Function.update_of_ne (Nat.ne_of_gt above), ih]
        · exact ih

/-- Each sector of the buffer is loaded exactly if its transfer succeeded. -/
theorem emmcVendorOpsRead_apply_of_results (a : Nat) :
    (emmcVendorOpsRead results media addr n buffer).2 a =
      if a < 512 * n ∧ results (a / 512) = 0 then media (addr + a / 512) (a % 512)
      else buffer a := by
  induction n with
  | zero => exact (if_neg (by omega)).symm
  | succ n ih =>
      rw [emmcVendorOpsRead_succ]
      rcases Nat.lt_trichotomy (a / 512) n with below | rfl | above
      · refine Eq.trans ?_ (ih.trans (if_congr (by omega) rfl rfl))
        split
        · exact copyIn_apply_of_notMem (by omega)
        · rfl
      · rw [if_neg (by omega)] at ih
        split
        next ok =>
          rw [copyIn_apply_of_mem (by omega) (by omega), if_pos ⟨by omega, ok⟩]
          congr 1
          omega
        next failed => rw [if_neg fun all => failed all.2, ih]
      · rw [if_neg (by omega)] at ih
        rw [if_neg (by omega : ¬(a < 512 * (n + 1) ∧ _))]
        split
        · rw [copyIn_apply_of_notMem (by omega), ih]
        · exact ih

/-! ## Initialisation -/

/-- The scan of `n` slots goes through exactly if its `2 * n` transfers succeed. -/
theorem scanSlots_eq : scanSlots results media buffer n =
    if AllOk results (2 * n) then scanSlots allTransfersOk media buffer n else none := by
  induction n with
  | zero => exact (if_pos fun k below => absurd below (Nat.not_lt_zero k)).symm
  | succ n ih =>
      have split_iff : AllOk results (2 * (n + 1)) ↔
          AllOk results (2 * n) ∧ results (2 * n) = 0 ∧ results (2 * n + 1) = 0 := by
        rw [show 2 * (n + 1) = 2 * n + 1 + 1 from rfl, allOk_succ, allOk_succ, and_assoc]
      rw [scanSlots, ih, if_congr split_iff rfl rfl]
      by_cases earlier : AllOk results (2 * n)
      · by_cases first : results (2 * n) = 0
        · by_cases second : results (2 * n + 1) = 0
          · simp [earlier, first, second, scanSlots, allTransfersOk]
          · simp [earlier, first, second]
        · simp [earlier, first]
      · simp [earlier]

/-- Some slot of the medium is valid and has a version other than zero. -/
def HoldsImage (media : Media) : Prop :=
  ∃ i, i < emmcVendorPartNum ∧ SlotValid media i ∧ version (slotImage media i) ≠ 0

/-- `emmc_vendor_storage_init` returns zero with `max_ver != 0`. -/
def InitLoads (results : TransferResults) (media : Media) (buffer : Bytes) : Prop :=
  (∃ scan, scanSlots results media buffer emmcVendorPartNum = some scan ∧ scan.maxVer ≠ 0) ∧
    emmcVendorStorageInit results media buffer ≠ none

/-- Initialisation loads a slot whenever there is one, the scan can read the medium and the last
sector of the slot can be read. -/
theorem initLoads_iff : InitLoads results media buffer ↔
    AllOk results (2 * emmcVendorPartNum) ∧ HoldsImage media ∧
      results (2 * emmcVendorPartNum + (emmcVendorPartSize - 1)) = 0 := by
  obtain ⟨scan, scanned, bounds, attained⟩ := scanSlots_spec media buffer emmcVendorPartNum
  have found_iff : scan.maxVer ≠ 0 ↔ HoldsImage media := by
    constructor
    · intro found
      obtain ⟨below, valid, version_eq⟩ := attained found
      exact ⟨_, below, valid, by rwa [version_eq]⟩
    · rintro ⟨i, below, valid, positive⟩ nothing
      have := bounds i below valid
      omega
  by_cases readable : AllOk results (2 * emmcVendorPartNum)
  · have same : scanSlots results media buffer emmcVendorPartNum = some scan := by
      rw [scanSlots_eq, if_pos readable, scanned]
    simp only [InitLoads, same, Option.some.injEq, exists_eq_left', readable, true_and, found_iff]
    refine and_congr_right fun holds => ?_
    simp only [emmcVendorStorageInit, same, Option.bind_eq_bind, Option.bind_some,
      if_pos (found_iff.mpr holds)]
    rw [emmcVendorOpsRead_result, show lastResult _ emmcVendorPartSize =
      results (2 * emmcVendorPartNum + (emmcVendorPartSize - 1)) from rfl]
    split
    next failed => exact iff_of_false (fun answered => answered rfl) failed
    next ok => exact iff_of_true (Option.some_ne_none _) (not_not.mp ok)
  · have unreadable : scanSlots results media buffer emmcVendorPartNum = none := by
      rw [scanSlots_eq, if_neg readable]
    refine iff_of_false ?_ fun loads => readable loads.1
    rintro ⟨⟨_, answered, _⟩, _⟩
    rw [unreadable] at answered
    exact absurd answered (by simp)

theorem initLoads_reports_iff :
    (InitLoads results media buffer →
        AllOk (laterResults results (2 * emmcVendorPartNum)) emmcVendorPartSize) ↔
      ¬(AllOk results (2 * emmcVendorPartNum) ∧ HoldsImage media ∧
        MasksFailure (laterResults results (2 * emmcVendorPartNum)) emmcVendorPartSize) := by
  have reports := @lastResult_reports_iff (laterResults results (2 * emmcVendorPartNum))
    emmcVendorPartSize
  have last : lastResult (laterResults results (2 * emmcVendorPartNum)) emmcVendorPartSize =
      results (2 * emmcVendorPartNum + (emmcVendorPartSize - 1)) := rfl
  rw [last] at reports
  rw [initLoads_iff]
  constructor
  · rintro complete ⟨readable, holds, masks⟩
    exact reports.mp (fun zero => complete ⟨readable, holds, zero⟩) masks
  · rintro unmasked ⟨readable, holds, zero⟩
    exact reports.mpr (fun masks => unmasked ⟨readable, holds, masks⟩) zero

/-! ## Writing -/

theorem emmcVendorWrite_result {dev : EmmcDevice} {id size : Nat} {pbuf : Bytes} :
    (emmcVendorWrite results dev id pbuf size).1 = 0 ↔ UpdateFits dev.gVendor.mem id size := by
  rw [← @vendorUpdate_isSome_iff emmcShape dev.gVendor emmcCharge id size pbuf]
  unfold emmcVendorWrite emmcNextImage
  cases vendorUpdate emmcShape emmcCharge dev.gVendor id pbuf size with
  | none => simp
  | some g => simp

/-- Where the driver reports the failures of its transfers: in a loop, in initialisation and in a
write. -/
theorem transfer_failures_reported_iff (results : TransferResults) (media : Media)
    (buffer : Bytes) (addr n : Nat) (dev : EmmcDevice) (id : Nat) (pbuf : Bytes) (size : Nat) :
    (((emmcVendorOpsWrite results buffer addr n media).1 = 0 → AllOk results n) ↔
      ¬MasksFailure results n) ∧
    (((emmcVendorOpsRead results media addr n buffer).1 = 0 → AllOk results n) ↔
      ¬MasksFailure results n) ∧
    ((InitLoads results media buffer →
        AllOk (laterResults results (2 * emmcVendorPartNum)) emmcVendorPartSize) ↔
      ¬(AllOk results (2 * emmcVendorPartNum) ∧ HoldsImage media ∧
        MasksFailure (laterResults results (2 * emmcVendorPartNum)) emmcVendorPartSize)) ∧
    (((emmcVendorWrite results dev id pbuf size).1 = 0 → AllOk results emmcVendorPartSize) ↔
      ¬(UpdateFits dev.gVendor.mem id size ∧ ∃ k, k < emmcVendorPartSize ∧ results k ≠ 0)) := by
  refine ⟨?_, ?_, ?_, ?_⟩
  · rw [emmcVendorOpsWrite_result]
    exact lastResult_reports_iff
  · rw [emmcVendorOpsRead_result]
    exact lastResult_reports_iff
  · exact initLoads_reports_iff
  · rw [emmcVendorWrite_result]
    constructor
    · rintro reports ⟨fits, k, below, failed⟩
      exact failed (reports fits k below)
    · intro reported fits k below
      by_contra failed
      exact reported ⟨fits, k, below, failed⟩

/-! ## Failures that nobody sees -/

/-- Only the transfer with this number fails. -/
def failsOnce (number : Nat) : TransferResults := fun k => if k = number then -5 else 0

/-- A single failure at the first sector of a loop, at the first sector of the chosen slot and at
the first sector of a slot write: each time the driver returns zero. -/
theorem transfer_failures_masked :
    ((emmcVendorOpsWrite (failsOnce 0) (fun _ => 0) 0 2 zeroMedia).1 = 0 ∧
      ¬AllOk (failsOnce 0) 2) ∧
    (∃ media, InitLoads (failsOnce 8) media (fun _ => 0) ∧
      ¬AllOk (laterResults (failsOnce 8) (2 * emmcVendorPartNum)) emmcVendorPartSize) ∧
    ((emmcVendorWrite (failsOnce 0) ⟨⟨emmcFreshImage (fun _ => 0), false⟩, zeroMedia⟩ 1
        (fun _ => 7) 64).1 = 0 ∧
      ¬AllOk (failsOnce 0) emmcVendorPartSize) := by
  have fresh := emmcFreshImage_fresh fun _ => 0
  refine ⟨⟨by decide, fun ok => ?_⟩, ⟨?_, ?_, fun ok => ?_⟩, ?_, fun ok => ?_⟩
  · exact absurd (ok 0 (by decide)) (by decide)
  · exact programSlot zeroMedia (emmcFreshImage fun _ => 0) 0 emmcVendorPartSize
  · refine initLoads_iff.mpr ⟨fun k below => ?_, ⟨0, by decide, ?_⟩, by decide⟩
    · have : k < 8 := below
      exact if_neg (by omega)
    · have same : AgreeOn 0 65536 (slotImage (programSlot zeroMedia
          (emmcFreshImage fun _ => 0) 0 emmcVendorPartSize) 0) (emmcFreshImage fun _ => 0) :=
        slotImage_programSlot_written.mono (Nat.le_refl _) (by decide)
      have head := same.mono (Nat.le_refl 0) (by decide : 10 ≤ 65536)
      have tail := same.mono (by decide : 0 ≤ 65532) (Nat.le_refl 65536)
      refine ⟨⟨(tag_congr head).trans fresh.tag, ?_⟩, ?_⟩
      · rw [version2_congr tail, version_congr head, fresh.version, fresh.version2]
      · rw [version_congr head, fresh.version]
        decide
  · exact absurd (ok 0 (by decide)) (by decide)
  · refine emmcVendorWrite_result.mpr ?_
    have missing : findItem (emmcFreshImage fun _ => 0) 1 = none := by
      simp [findItem, fresh.itemNum]
    simp only [UpdateFits, missing, fresh.freeSize]
    decide
  · exact absurd (ok 0 (by decide)) (by decide)

end VendorStorage
end RockchipSoc
