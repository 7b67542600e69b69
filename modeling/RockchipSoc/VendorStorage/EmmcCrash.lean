import RockchipSoc.Foundation.LabelledRun
import RockchipSoc.VendorStorage.Layout

/-!
# Power cuts of the eMMC driver

A run alternates completed writes with power cuts.  A cut keeps the sectors that the interrupted
write had issued and mounts what survives into a new buffer.  The version of slot `i` is always
`i + 2` modulo four, so the slot of the next write is never the slot of the newest copy; a torn
write is recognised because the last word of its slot is still the old one.  The last fact needs
the medium to start without the word `i + 2` at the end of slot `i`.
-/

namespace RockchipSoc
namespace VendorStorage

open ByteMemory LabelledRun

/-! ## What a write leaves in the header -/

theorem advanceNextIndex_apply_of_ne {g : VendorInfo} {a : Nat} (outside : a < 8 ∨ 10 ≤ a) :
    (advanceNextIndex g).mem a = g.mem a := by
  simp only [advanceNextIndex]
  split <;> simp (disch := omega) only [write16_apply_of_ne]

theorem nextIndex_advanceNextIndex {g : VendorInfo} (slot : nextIndex g.mem < 4) :
    nextIndex (advanceNextIndex g).mem = (nextIndex g.mem + 1) % 4 := by
  have stored : nextIndex (write16 g.mem 8 (nextIndex g.mem + 1)) = nextIndex g.mem + 1 :=
    (read16_write16_same _ _ _).trans (Nat.mod_eq_of_lt (by omega))
  simp only [advanceNextIndex, stored, emmcVendorPartNum]
  split
  · refine (read16_write16_same _ _ _).trans ?_
    omega
  · rw [stored]
    omega

/-- The header words that a write hands to the medium. -/
structure Advanced (m after : Bytes) : Prop where
  sameTag : tag after = tag m
  nextVersion : version after = version m + 1
  nextVersion2 : version2 emmcShape after = version m + 1
  nextSlot : nextIndex after = (nextIndex m + 1) % 4

theorem emmcNextImage_advanced {g after : VendorInfo} {id size : Nat} {pbuf : Bytes}
    (noWrap : version g.mem + 1 < 4294967296) (slot : nextIndex g.mem < 4)
    (next : emmcNextImage g id pbuf size = some after) : Advanced g.mem after.mem := by
  obtain ⟨updated, update, rfl⟩ := Option.map_eq_some_iff.mp next
  have low := vendorUpdate_low update
  have bumped := vendorUpdate_bumpVersion noWrap update
  have tail := emmcShape_version2Base
  have head : AgreeOn 0 8 (advanceNextIndex (bumpVersion emmcShape updated)).mem
      (bumpVersion emmcShape updated).mem := fun a _ upper =>
    advanceNextIndex_apply_of_ne (Or.inl upper)
  refine ⟨?_, ?_, ?_, ?_⟩
  · exact (head.read32 (Nat.zero_le _) (by omega)).trans bumped.sameTag
  · exact (head.read32 (by omega) (by omega)).trans bumped.nextVersion
  · refine (version2_congr fun a lower _ => ?_).trans bumped.nextVersion2
    exact advanceNextIndex_apply_of_ne (Or.inr (by omega))
  · rw [nextIndex_advanceNextIndex (by rw [bumped.sameSlot]; exact slot), bumped.sameSlot]

/-! ## Programming a slot -/

/-- The medium after the first `n` sector transfers of a write. -/
theorem emmcVendorOpsWrite_apply (buffer : Bytes) (addr n : Nat) (media : Media) (s : Nat) :
    (emmcVendorOpsWrite allTransfersOk buffer addr n media).2 s =
      if addr ≤ s ∧ s < addr + n then fun b => buffer (512 * (s - addr) + b) else media s := by
  induction n with
  | zero => rw [if_neg (by omega)]; rfl
  | succ n ih =>
      simp only [emmcVendorOpsWrite, allTransfersOk, if_true]
      by_cases last : s = addr + n
      · subst last
        rw [Function.update_self, if_pos (by omega)]
        simp only [Nat.add_sub_cancel_left]
      · rw [Function.update_of_ne last]
        refine ih.trans ?_
        by_cases inside : addr ≤ s ∧ s < addr + n
        · rw [if_pos inside, if_pos (by omega)]
        · rw [if_neg inside, if_neg (by omega)]

/-- The medium after the first `sectors` transfers of the slot write of `image` to slot `i`. -/
def programSlot (media : Media) (image : Bytes) (i sectors : Nat) : Media :=
  (emmcVendorOpsWrite allTransfersOk image (emmcVendorPartStart + emmcVendorPartSize * i)
    sectors media).2

theorem slotImage_programSlot_of_ne {media : Media} {image : Bytes} {i j sectors : Nat}
    (ne : j ≠ i) (short : sectors ≤ emmcVendorPartSize) :
    AgreeOn 0 65536 (slotImage (programSlot media image i sectors) j) (slotImage media j) := by
  intro a _ upper
  simp only [emmcVendorPartSize] at short
  simp only [slotImage, programSlot, emmcVendorPartStart, emmcVendorPartSize]
  rw [emmcVendorOpsWrite_apply, if_neg (by omega)]

theorem slotImage_programSlot_written {media : Media} {image : Bytes} {i sectors : Nat} :
    AgreeOn 0 (512 * sectors) (slotImage (programSlot media image i sectors) i) image := by
  intro a _ upper
  simp only [slotImage, programSlot]
  rw [emmcVendorOpsWrite_apply, if_pos (by omega), Nat.add_sub_cancel_left, Nat.div_add_mod]

theorem slotImage_programSlot_rest {media : Media} {image : Bytes} {i sectors : Nat} :
    AgreeOn (512 * sectors) 65536 (slotImage (programSlot media image i sectors) i)
      (slotImage media i) := by
  intro a lower upper
  simp only [slotImage, programSlot]
  rw [emmcVendorOpsWrite_apply, if_neg (by omega)]

theorem SlotValid.congr {left right : Media} {i : Nat}
    (agree : AgreeOn 0 65536 (slotImage left i) (slotImage right i)) (valid : SlotValid left i) :
    SlotValid right i := by
  have head : AgreeOn 0 10 (slotImage left i) (slotImage right i) :=
    agree.mono (Nat.le_refl _) (by omega)
  have tail : AgreeOn 65532 65536 (slotImage left i) (slotImage right i) :=
    agree.mono (by omega) (Nat.le_refl _)
  obtain ⟨tagged, closed⟩ := valid
  rw [tag_congr head] at tagged
  rw [version2_congr tail, version_congr head] at closed
  exact ⟨tagged, closed⟩

/-! ## Runs with power cuts -/

/-- A running driver with the image of the last completely written version. -/
structure CrashState where
  dev : EmmcDevice
  committed : Option Bytes

/-- A write that completes, or one that is cut after some of its sectors and followed by a mount
into a new buffer. -/
inductive CrashEvent
  | write (id : Nat) (pbuf : Bytes) (size : Nat)
  | cut (id : Nat) (pbuf : Bytes) (size sectors : Nat) (buffer : Bytes)

/-- What survives when a write is cut: the medium and the last completely written image. -/
def survivors (state : CrashState) (id : Nat) (pbuf : Bytes) (size sectors : Nat) :
    Media × Option Bytes :=
  match emmcNextImage state.dev.gVendor id pbuf size with
  | some g => (programSlot state.dev.media g.mem (nextIndex state.dev.gVendor.mem) sectors,
      if sectors = emmcVendorPartSize then some g.mem else state.committed)
  | none => (state.dev.media, state.committed)

def crashStep (state : CrashState) : CrashEvent → Option CrashState
  | .write id pbuf size =>
      match emmcNextImage state.dev.gVendor id pbuf size with
      | some g => some ⟨(emmcVendorWrite allTransfersOk state.dev id pbuf size).2, some g.mem⟩
      | none => some state
  | .cut id pbuf size sectors buffer =>
      if sectors ≤ emmcVendorPartSize then
        let (media, committed) := survivors state id pbuf size sectors
        (emmcVendorStorageInit allTransfersOk media buffer).map fun g => ⟨⟨g, media⟩, committed⟩
      else none

/-- The version does not wrap. -/
def VersionFits (state : CrashState) (_ : CrashEvent) : Prop :=
  version state.dev.gVendor.mem + 1 < 4294967296

/-- The image in memory is the last completely written one, or the fresh one when none is. -/
def Loads (g : VendorInfo) : Option Bytes → Prop
  | some image => AgreeOn 0 emmcShape.size g.mem image
  | none => Fresh g.mem

/-- The version that a medium is at: the one of the newest image, or that of the fresh image. -/
def currentVersion : Option Bytes → Nat
  | some image => version image
  | none => 1

/-- The slot of version `v`. -/
def slotOf (v : Nat) : Nat := (v + 2) % 4

/-- The invariant of the medium.  Slots are written in rotation, every valid slot is older than the
newest copy, and no slot ends in a version that it has yet to receive. -/
structure Rotating (media : Media) (committed : Option Bytes) : Prop where
  newest : ∀ image, committed = some image → tag image = emmcVendorTag ∧ 2 ≤ version image ∧
    version2 emmcShape image = version image ∧ nextIndex image = slotOf (version image + 1) ∧
    AgreeOn 0 emmcShape.size (slotImage media (slotOf (version image))) image
  older : ∀ i, i < emmcVendorPartNum → SlotValid media i → ∃ image, committed = some image ∧
    (i = slotOf (version image) ∨ version (slotImage media i) < version image)
  tails : ∀ i, i < emmcVendorPartNum → ∀ v, currentVersion committed < v →
    v ≤ currentVersion committed + 4 → slotOf v = i → version2 emmcShape (slotImage media i) ≠ v

variable {media : Media} {committed : Option Bytes} {g after : VendorInfo}

theorem slotOf_lt (v : Nat) : slotOf v < emmcVendorPartNum := Nat.mod_lt _ (by decide)

theorem Rotating.one_le (rotating : Rotating media committed) : 1 ≤ currentVersion committed := by
  cases committed with
  | none => exact Nat.le_refl 1
  | some image =>
      have bound := (rotating.newest image rfl).2.1
      exact Nat.le_trans (by decide) bound

/-- Mounting loads the newest copy, or builds the fresh image when there is none. -/
theorem Rotating.mount (rotating : Rotating media committed) (buffer : Bytes) :
    ∃ g, emmcVendorStorageInit allTransfersOk media buffer = some g ∧ Loads g committed := by
  cases committed with
  | none =>
      have blank : ∀ i, i < emmcVendorPartNum → ¬SlotValid media i := by
        intro i bound valid
        obtain ⟨_, missing, _⟩ := rotating.older i bound valid
        contradiction
      obtain ⟨old, mounted⟩ := emmcVendorStorageInit_blank buffer blank
      exact ⟨_, mounted, emmcFreshImage_fresh old⟩
  | some image =>
      obtain ⟨tagged, positive, closed, _, copy⟩ := rotating.newest image rfl
      rw [emmcShape_size] at copy
      have head : AgreeOn 0 10 (slotImage media (slotOf (version image))) image :=
        copy.mono (Nat.le_refl _) (by omega)
      have versionEq := version_congr head
      have valid : SlotValid media (slotOf (version image)) := by
        refine ⟨(tag_congr head).trans tagged, ?_⟩
        rw [version2_congr (copy.mono (by omega) (Nat.le_refl _)), closed, versionEq]
      obtain ⟨m, mounted, loaded⟩ := emmcVendorStorageInit_newest buffer (slotOf_lt _) valid
        (by omega) fun j bound ne other => by
          obtain ⟨image', same, slot | older⟩ := rotating.older j bound other
          · obtain rfl := Option.some.inj same
            exact absurd slot ne
          · obtain rfl := Option.some.inj same
            omega
      refine ⟨_, mounted, loaded.trans ?_⟩
      rw [emmcShape_size]
      exact copy

/-- The header of a loaded image. -/
theorem Rotating.loads_header (rotating : Rotating media committed) (loads : Loads g committed) :
    tag g.mem = emmcVendorTag ∧ version g.mem = currentVersion committed ∧
      nextIndex g.mem = slotOf (currentVersion committed + 1) := by
  cases committed with
  | none => exact ⟨loads.tag, loads.version, loads.nextIndex⟩
  | some image =>
      obtain ⟨tagged, _, _, slot, _⟩ := rotating.newest image rfl
      have size := emmcShape_size
      have head : AgreeOn 0 10 g.mem image := loads.mono (Nat.le_refl _) (by omega)
      exact ⟨(tag_congr head).trans tagged, version_congr head,
        (nextIndex_congr head).trans slot⟩

/-- The newest image has no other intact copy than the one of its own slot. -/
theorem Rotating.copy_eq (rotating : Rotating media committed) {i : Nat} {image : Bytes}
    (bound : i < emmcVendorPartNum) (same : committed = some image)
    (copy : AgreeOn 0 emmcShape.size (slotImage media i) image) : i = slotOf (version image) := by
  obtain ⟨tagged, _, closed, _, _⟩ := rotating.newest image same
  rw [emmcShape_size] at copy
  have head : AgreeOn 0 10 (slotImage media i) image := copy.mono (Nat.le_refl _) (by omega)
  have valid : SlotValid media i := by
    refine ⟨(tag_congr head).trans tagged, ?_⟩
    rw [version2_congr (copy.mono (by omega) (Nat.le_refl _)), closed, version_congr head]
  obtain ⟨newest, newestEq, own | older⟩ := rotating.older i bound valid
  · obtain rfl := Option.some.inj (same.symm.trans newestEq)
    exact own
  · obtain rfl := Option.some.inj (same.symm.trans newestEq)
    rw [version_congr head] at older
    exact absurd older (Nat.lt_irrefl _)

/-- A completed slot write is the newest copy. -/
theorem Rotating.complete (rotating : Rotating media committed) {image : Bytes}
    (tagged : tag image = emmcVendorTag)
    (versionEq : version image = currentVersion committed + 1)
    (closed : version2 emmcShape image = version image)
    (slot : nextIndex image = slotOf (version image + 1)) :
    Rotating (programSlot media image (slotOf (version image)) emmcVendorPartSize)
      (some image) := by
  have positive := rotating.one_le
  have written : AgreeOn 0 65536 (slotImage (programSlot media image (slotOf (version image))
      emmcVendorPartSize) (slotOf (version image))) image :=
    slotImage_programSlot_written.mono (Nat.le_refl _) (by decide)
  have kept : ∀ i, i ≠ slotOf (version image) → AgreeOn 0 65536
      (slotImage (programSlot media image (slotOf (version image)) emmcVendorPartSize) i)
      (slotImage media i) := fun i ne => slotImage_programSlot_of_ne ne (Nat.le_refl _)
  refine ⟨?_, ?_, ?_⟩
  · intro newest same
    obtain rfl := Option.some.inj same
    exact ⟨tagged, by omega, closed, slot, by rw [emmcShape_size]; exact written⟩
  · intro i bound valid
    refine ⟨image, rfl, ?_⟩
    by_cases same : i = slotOf (version image)
    · exact Or.inl same
    · have agree := kept i same
      rw [version_congr (agree.mono (Nat.le_refl _) (by omega))]
      obtain ⟨old, oldEq, newest | older⟩ := rotating.older i bound (valid.congr agree)
      · obtain ⟨_, _, _, _, copy⟩ := rotating.newest old oldEq
        rw [emmcShape_size, ← newest] at copy
        rw [version_congr (copy.mono (Nat.le_refl _) (by omega)), versionEq, oldEq, currentVersion]
        exact Or.inr (Nat.lt_succ_self _)
      · rw [versionEq, oldEq, currentVersion]
        exact Or.inr (by omega)
  · intro i bound v lower upper slotEq
    simp only [currentVersion] at lower upper
    by_cases same : i = slotOf (version image)
    · rw [same, version2_congr (written.mono (by omega) (Nat.le_refl _)), closed]
      omega
    · rw [version2_congr ((kept i same).mono (by omega) (Nat.le_refl _))]
      refine rotating.tails i bound v (by omega) ?_ slotEq
      simp only [slotOf] at slotEq same
      omega

/-- A torn slot write leaves the newest copy and does not become a valid slot. -/
theorem Rotating.torn (rotating : Rotating media committed) {image : Bytes} {sectors : Nat}
    (versionEq : version image = currentVersion committed + 1)
    (short : sectors < emmcVendorPartSize) :
    Rotating (programSlot media image (slotOf (version image)) sectors) committed := by
  have few : sectors < 128 := short
  have kept : ∀ i, i ≠ slotOf (version image) → AgreeOn 0 65536
      (slotImage (programSlot media image (slotOf (version image)) sectors) i)
      (slotImage media i) := fun i ne => slotImage_programSlot_of_ne ne (Nat.le_of_lt short)
  have tail : ∀ i, AgreeOn 65532 65536
      (slotImage (programSlot media image (slotOf (version image)) sectors) i)
      (slotImage media i) := by
    intro i
    by_cases same : i = slotOf (version image)
    · rw [same]
      exact slotImage_programSlot_rest.mono (by omega) (Nat.le_refl _)
    · exact (kept i same).mono (by omega) (Nat.le_refl _)
  refine ⟨?_, ?_, ?_⟩
  · intro newest same
    obtain ⟨tagged, positive, closed, slot, copy⟩ := rotating.newest newest same
    refine ⟨tagged, positive, closed, slot, ?_⟩
    rw [emmcShape_size] at copy ⊢
    refine (kept _ ?_).trans copy
    rw [versionEq, same, currentVersion]
    simp only [slotOf]
    omega
  · intro i bound valid
    by_cases same : i = slotOf (version image)
    · rcases Nat.eq_zero_or_pos sectors with none | some
      · subst none
        have agree : AgreeOn 0 65536 (slotImage (programSlot media image (slotOf (version image)) 0)
            (slotOf (version image))) (slotImage media (slotOf (version image))) :=
          slotImage_programSlot_rest.mono (by decide) (Nat.le_refl _)
        rw [same] at valid bound ⊢
        rw [version_congr (agree.mono (Nat.le_refl _) (by omega))]
        exact rotating.older _ bound (valid.congr agree)
      · have written : AgreeOn 0 10 (slotImage (programSlot media image (slotOf (version image))
            sectors) i) image := by
          rw [same]
          exact slotImage_programSlot_written.mono (Nat.le_refl _) (by omega)
        have closed := valid.2
        rw [version2_congr (tail i), version_congr written, versionEq] at closed
        exact absurd closed (rotating.tails i bound _ (Nat.lt_succ_self _) (by omega)
          (by rw [← versionEq, same]))
    · have agree := kept i same
      rw [version_congr (agree.mono (Nat.le_refl _) (by omega))]
      exact rotating.older i bound (valid.congr agree)
  · intro i bound v lower upper slotEq
    rw [version2_congr (tail i)]
    exact rotating.tails i bound v lower upper slotEq

/-- Whatever survives of a write is again in rotation. -/
theorem Rotating.program (rotating : Rotating media committed) (loads : Loads g committed)
    (noWrap : version g.mem + 1 < 4294967296) {id size sectors : Nat} {pbuf : Bytes}
    (next : emmcNextImage g id pbuf size = some after) (short : sectors ≤ emmcVendorPartSize) :
    Rotating (programSlot media after.mem (nextIndex g.mem) sectors)
      (if sectors = emmcVendorPartSize then some after.mem else committed) := by
  obtain ⟨tagged, versionEq, slot⟩ := rotating.loads_header loads
  have advanced := emmcNextImage_advanced noWrap (by rw [slot]; exact slotOf_lt _) next
  have versionAfter : version after.mem = currentVersion committed + 1 := by
    rw [advanced.nextVersion, versionEq]
  rw [slot, ← versionAfter]
  by_cases full : sectors = emmcVendorPartSize
  · rw [if_pos full, full]
    refine rotating.complete (advanced.sameTag.trans tagged) versionAfter ?_ ?_
    · rw [advanced.nextVersion2, advanced.nextVersion]
    · rw [advanced.nextSlot, slot, versionAfter]
      simp only [slotOf]
      omega
  · rw [if_neg full]
    exact rotating.torn versionAfter (Nat.lt_of_le_of_ne short full)

/-- The invariant of a run: the medium is in rotation and the newest image is in memory. -/
def CrashConsistent (state : CrashState) : Prop :=
  Rotating state.dev.media state.committed ∧ Loads state.dev.gVendor state.committed

theorem CrashConsistent.survivors {state : CrashState} (consistent : CrashConsistent state)
    (noWrap : version state.dev.gVendor.mem + 1 < 4294967296) (id : Nat) (pbuf : Bytes)
    (size : Nat) {sectors : Nat} (short : sectors ≤ emmcVendorPartSize) :
    Rotating (survivors state id pbuf size sectors).1 (survivors state id pbuf size sectors).2 := by
  unfold VendorStorage.survivors
  cases image : emmcNextImage state.dev.gVendor id pbuf size with
  | none => exact consistent.1
  | some after => exact consistent.1.program consistent.2 noWrap image short

theorem CrashConsistent.step {state next : CrashState} {event : CrashEvent}
    (consistent : CrashConsistent state) (fits : VersionFits state event)
    (taken : crashStep state event = some next) : CrashConsistent next := by
  cases event with
  | write id pbuf size =>
      cases image : emmcNextImage state.dev.gVendor id pbuf size with
      | none =>
          simp only [crashStep, image] at taken
          obtain rfl := Option.some.inj taken
          exact consistent
      | some after =>
          simp only [crashStep, emmcVendorWrite, image] at taken
          obtain rfl := Option.some.inj taken
          refine ⟨?_, .refl _ _ _⟩
          have complete := consistent.1.program consistent.2 fits image (Nat.le_refl _)
          rwa [if_pos rfl] at complete
  | cut id pbuf size sectors buffer =>
      simp only [crashStep] at taken
      split at taken
      case isFalse => contradiction
      case isTrue short =>
        obtain ⟨g, mounted, rfl⟩ := Option.map_eq_some_iff.mp taken
        have rotating := consistent.survivors fits id pbuf size short
        obtain ⟨g', mounted', loads⟩ := rotating.mount buffer
        obtain rfl := Option.some.inj (mounted.symm.trans mounted')
        exact ⟨rotating, loads⟩

/-- No slot is valid, and no slot `i` ends in the version `i + 2` that it receives first. -/
structure CleanStart (media : Media) : Prop where
  blank : ∀ i, i < emmcVendorPartNum → ¬SlotValid media i
  tails : ∀ i, i < emmcVendorPartNum → version2 emmcShape (slotImage media i) ≠ i + 2

theorem CleanStart.rotating (clean : CleanStart media) : Rotating media none := by
  refine ⟨fun _ absent => by contradiction, fun i bound valid => absurd valid (clean.blank i bound),
    fun i bound v lower upper slot => ?_⟩
  have first : v = i + 2 := by
    simp only [currentVersion, emmcVendorPartNum, slotOf] at lower upper bound slot
    omega
  rw [first]
  exact clean.tails i bound

/-- From a clean start, whatever was written and wherever earlier writes were cut, cutting one more
write after any number of its sectors leaves a medium from which mounting loads the last
completely written image, and the next write spares every intact copy of it. -/
theorem emmc_crash_consistent (buffer : Bytes) (clean : CleanStart media) :
    ∃ g, emmcVendorStorageInit allTransfersOk media buffer = some g ∧ Loads g none ∧
      ∀ state, Reaches crashStep VersionFits ⟨⟨g, media⟩, none⟩ state →
        version state.dev.gVendor.mem + 1 < 4294967296 →
        ∀ id pbuf size sectors, sectors ≤ emmcVendorPartSize → ∀ fresh,
          let after := survivors state id pbuf size sectors
          ∃ loaded, emmcVendorStorageInit allTransfersOk after.1 fresh = some loaded ∧
            Loads loaded after.2 ∧ ∀ i image, i < emmcVendorPartNum → after.2 = some image →
              AgreeOn 0 emmcShape.size (slotImage after.1 i) image → nextIndex loaded.mem ≠ i := by
  obtain ⟨g, mounted, loads⟩ := clean.rotating.mount buffer
  refine ⟨g, mounted, loads, fun state reach noWrap id pbuf size sectors short fresh => ?_⟩
  have consistent : CrashConsistent state :=
    reach.invariant (fun _ _ _ kept fits taken => kept.step fits taken) ⟨clean.rotating, loads⟩
  have rotating := consistent.survivors noWrap id pbuf size short
  obtain ⟨loaded, mounted, newest⟩ := rotating.mount fresh
  refine ⟨loaded, mounted, newest, fun i image bound same copy named => ?_⟩
  have own := rotating.copy_eq bound same copy
  have next := (rotating.loads_header newest).2.2
  rw [named, same, currentVersion, own] at next
  simp only [slotOf] at next
  omega

theorem zeroMedia_cleanStart : CleanStart zeroMedia :=
  ⟨fun i _ => not_slotValid_zeroMedia i, fun i _ => show (0 : Nat) ≠ i + 2 by omega⟩

theorem emmc_crash_consistent_zeroMedia :
    ∃ g, emmcVendorStorageInit allTransfersOk zeroMedia (fun _ => 0) = some g ∧ Loads g none ∧
      ∀ state, Reaches crashStep VersionFits ⟨⟨g, zeroMedia⟩, none⟩ state →
        version state.dev.gVendor.mem + 1 < 4294967296 →
        ∀ id pbuf size sectors, sectors ≤ emmcVendorPartSize → ∀ fresh,
          let after := survivors state id pbuf size sectors
          ∃ loaded, emmcVendorStorageInit allTransfersOk after.1 fresh = some loaded ∧
            Loads loaded after.2 ∧ ∀ i image, i < emmcVendorPartNum → after.2 = some image →
              AgreeOn 0 emmcShape.size (slotImage after.1 i) image → nextIndex loaded.mem ≠ i :=
  emmc_crash_consistent _ zeroMedia_cleanStart

/-! ## A stale last word -/

/-- Zeroed sectors but for the word two at the end of the first slot. -/
def staleMedia : Media :=
  Function.update zeroMedia (emmcVendorPartStart + 127) fun b => if b = 508 then 2 else 0

theorem slotImage_staleMedia {i a : Nat} (below : a < 65024) : slotImage staleMedia i a = 0 := by
  simp only [slotImage, staleMedia, emmcVendorPartStart, emmcVendorPartSize]
  rw [Function.update_of_ne (by omega)]
  rfl

theorem not_slotValid_staleMedia (i : Nat) : ¬SlotValid staleMedia i := by
  have first : ∀ a, a < 4 → slotImage staleMedia i a = 0 := fun a below =>
    slotImage_staleMedia (by omega)
  intro valid
  have blank : tag (slotImage staleMedia i) = 0 := by
    simp only [tag, read32, read16, first 0 (by decide), first 1 (by decide), first 2 (by decide),
      first 3 (by decide)]
    rfl
  exact absurd (blank.symm.trans valid.1) (by decide)

/-- The first sector of the first write completes the stale slot to a valid one: mounting loads
neither the fresh image nor the one that was being written. -/
theorem torn_write_completes_stale_slot :
    (∀ i, i < emmcVendorPartNum → ¬SlotValid staleMedia i) ∧
    ∃ g after loaded, emmcVendorStorageInit allTransfersOk staleMedia (fun _ => 0) = some g ∧
      emmcNextImage g 1 (fun _ => 7) 64 = some after ∧
      (survivors ⟨⟨g, staleMedia⟩, none⟩ 1 (fun _ => 7) 64 1).2 = none ∧
      emmcVendorStorageInit allTransfersOk
        (survivors ⟨⟨g, staleMedia⟩, none⟩ 1 (fun _ => 7) 64 1).1 (fun _ => 0) = some loaded ∧
      ¬Loads loaded none ∧ ¬AgreeOn 0 emmcShape.size loaded.mem after.mem := by
  obtain ⟨old, mounted⟩ :=
    emmcVendorStorageInit_blank (fun _ => 0) fun i _ => not_slotValid_staleMedia i
  have fresh := emmcFreshImage_fresh old
  have base := emmcShape_dataBase
  have size := emmcShape_size
  have missing : findItem (emmcFreshImage old) 1 = none := by simp [findItem, fresh.itemNum]
  have room : align 64 ≤ freeSize (emmcFreshImage old) := by
    rw [fresh.freeSize]
    decide
  have image : emmcNextImage ⟨emmcFreshImage old, false⟩ 1 (fun _ => 7) 64 =
      some (advanceNextIndex (bumpVersion emmcShape
        (appendItem emmcShape ⟨emmcFreshImage old, false⟩ 1 (fun _ => 7) 64))) := by
    simp only [emmcNextImage, vendorUpdate, missing, if_pos room, Option.map_some]
  have stored : (advanceNextIndex (bumpVersion emmcShape
      (appendItem emmcShape ⟨emmcFreshImage old, false⟩ 1 (fun _ => 7) 64))).mem 1024 = 7 := by
    have appended : Appended emmcShape ⟨emmcFreshImage old, false⟩ 1 (fun _ => 7) 64
        (appendItem emmcShape ⟨emmcFreshImage old, false⟩ 1 (fun _ => 7) 64) :=
      appendItem_spec fresh.wellFormed.laidOut (by rw [fresh.itemNum]; decide) (by decide) room
    have first := appended.dataAdded 0 (by decide)
    rw [dataByte, fresh.freeOffset] at first
    exact (agreeOn_data_advance_bump _ 1024 (by decide) (by decide)).trans first
  generalize advanceNextIndex (bumpVersion emmcShape
    (appendItem emmcShape ⟨emmcFreshImage old, false⟩ 1 (fun _ => 7) 64)) = after at image stored
  have advanced : Advanced (emmcFreshImage old) after.mem :=
    emmcNextImage_advanced (by rw [fresh.version]; decide) (by rw [fresh.nextIndex]; decide) image
  have survived : survivors ⟨⟨⟨emmcFreshImage old, false⟩, staleMedia⟩, none⟩ 1 (fun _ => 7) 64 1 =
      (programSlot staleMedia after.mem 0 1, none) := by
    simp only [survivors, image, fresh.nextIndex]
    rfl
  have head : AgreeOn 0 10 (slotImage (programSlot staleMedia after.mem 0 1) 0) after.mem :=
    slotImage_programSlot_written.mono (Nat.le_refl _) (by decide)
  have rest : AgreeOn 512 65536 (slotImage (programSlot staleMedia after.mem 0 1) 0)
      (slotImage staleMedia 0) := slotImage_programSlot_rest.mono (by decide) (Nat.le_refl _)
  have versionEq : version (slotImage (programSlot staleMedia after.mem 0 1) 0) = 2 := by
    rw [version_congr head, advanced.nextVersion, fresh.version]
  have valid : SlotValid (programSlot staleMedia after.mem 0 1) 0 := by
    refine ⟨(tag_congr head).trans (advanced.sameTag.trans fresh.tag), ?_⟩
    rw [versionEq, version2_congr (rest.mono (by decide) (Nat.le_refl _))]
    decide
  obtain ⟨m, loaded, agree⟩ := emmcVendorStorageInit_newest (fun _ => 0) (by decide) valid
    (by omega) fun j _ ne other => absurd
      (other.congr (slotImage_programSlot_of_ne ne (by decide))) (not_slotValid_staleMedia j)
  refine ⟨fun i _ => not_slotValid_staleMedia i, _, after, ⟨m, false⟩, mounted, image,
    ?_, ?_, ?_, ?_⟩
  · rw [survived]
  · rw [survived]
    exact loaded
  · intro loads
    have reset := loads.version
    rw [version_congr (agree.mono (Nat.le_refl _) (by omega)), versionEq] at reset
    contradiction
  · intro complete
    have blank : m 1024 = 0 := (agree 1024 (by omega) (by omega)).trans
      ((rest 1024 (by omega) (by omega)).trans (slotImage_staleMedia (by omega)))
    have written : m 1024 = 7 := (complete 1024 (by omega) (by omega)).trans stored
    exact absurd (blank.symm.trans written) (by decide)

end VendorStorage
end RockchipSoc
