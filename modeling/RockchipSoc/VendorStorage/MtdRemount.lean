import RockchipSoc.Foundation.LabelledRun
import RockchipSoc.VendorStorage.MtdMount

/-!
# Remounting to the newest data

While one image is being written, every valid first page is older than it or belongs to a block
whose last valid page is a copy of it.  The second copy decides whether a mount finds the image:
it does when the copy starts its block, when its block leads, or when the first copy is still
the last valid page of the leading block, and in no other case.
-/

namespace RockchipSoc
namespace VendorStorage

open ByteMemory LabelledRun

variable {geo : MtdGeometry} {flash : Flash} {blk page : Nat} {value : Page} {image : Bytes}

/-! ## Changing one page -/

theorem setPage_self (flash : Flash) (blk page : Nat) (value : Page) :
    setPage flash blk page value blk page = value := by
  simp [setPage]

theorem setPage_of_ne_page {q : Nat} (ne : q ≠ page) :
    setPage flash blk page value blk q = flash blk q := by
  simp [setPage, ne]

theorem setPage_of_ne_block {b : Nat} (ne : b ≠ blk) :
    setPage flash blk page value b = flash b := by
  simp [setPage, ne]

theorem setPage_first {b : Nat} (positive : 0 < page) :
    setPage flash blk page value b 0 = flash b 0 := by
  by_cases same : b = blk
  · rw [same, setPage_of_ne_page (Nat.ne_of_lt positive)]
  · rw [setPage_of_ne_block same]

theorem ValidFirst.congr {flash' : Flash} {b : Nat} (first : ValidFirst geo flash b)
    (same : flash' b 0 = flash b 0) : ValidFirst geo flash' b :=
  ⟨first.inside, first.good, same ▸ first.valid⟩

theorem Leads.congr {flash' : Flash} {b : Nat} (leads : Leads geo flash b)
    (same : ∀ b, flash' b 0 = flash b 0) : Leads geo flash' b := by
  have versions : ∀ b, firstVersion flash' b = firstVersion flash b := fun b => by
    rw [firstVersion, same, firstVersion]
  refine ⟨leads.first.congr (same b), by rw [versions]; exact leads.positive, fun b' other => ?_⟩
  rw [versions, versions]
  exact leads.newest b' (other.congr (same b').symm)

theorem Tops.congr {flash' : Flash} {b : Nat} (top : Tops geo flash b image)
    (same : flash' b = flash b) : Tops geo flash' b image := by
  rw [Tops, same]
  exact top

/-- No page from the cursor on is programmed. -/
def BlankFrom (geo : MtdGeometry) (flash : Flash) (blk page : Nat) : Prop :=
  ∀ p, page ≤ p → p < geo.pages → flash blk p = .erased

theorem BlankFrom.setPage (blank : BlankFrom geo flash blk page) :
    BlankFrom geo (setPage flash blk page value) blk (page + 1) := by
  intro p lower upper
  rw [setPage_of_ne_page (by omega)]
  exact blank p (by omega) upper

/-- A page that turns out invalid does not hide the last valid one. -/
theorem Tops.setPage_invalid {b : Nat} (top : Tops geo flash b image)
    (blank : BlankFrom geo flash blk page) (inside : page < geo.pages)
    (invalid : value.read.valid = false) : Tops geo (setPage flash blk page value) b image := by
  by_cases same : b = blk
  · subst same
    obtain ⟨p, bound, valid, agree, last⟩ := top
    have other : p ≠ page := by
      rintro rfl
      rw [blank p (Nat.le_refl _) bound, not_valid_erased] at valid
      contradiction
    refine ⟨p, bound, by rwa [setPage_of_ne_page other], by rwa [setPage_of_ne_page other],
      fun q lower upper => ?_⟩
    by_cases here : q = page
    · rw [here, setPage_self]
      exact invalid
    · rw [setPage_of_ne_page here]
      exact last q lower upper
  · exact top.congr (setPage_of_ne_block same)

/-! ## Images -/

/-- The image carries the tag and twice the same version. -/
structure ImageOk (image : Bytes) : Prop where
  tagged : tag image = mtdVendorTag
  closed : version image = version2 mtdShape image
  positive : 0 < version image

/-- A successfully programmed page. -/
def imagePage (euclean : Bool) (image : Bytes) : Page :=
  .programmed ⟨if euclean then .euclean else .ok, true, image⟩

theorem ImageOk.valid (ok : ImageOk image) (euclean : Bool) :
    (imagePage euclean image).read.valid = true := by
  cases euclean <;> simp [imagePage, Page.read, PageRead.valid, ok.tagged, ok.closed]

theorem ImageOk.tops (ok : ImageOk image) (blank : BlankFrom geo flash blk page)
    (inside : page < geo.pages) (euclean : Bool) :
    Tops geo (setPage flash blk page (imagePage euclean image)) blk image := by
  refine ⟨page, inside, ?_, ?_, fun q lower upper => ?_⟩
  · rw [setPage_self]
    exact ok.valid euclean
  · rw [setPage_self]
    exact .refl _ _ _
  · rw [setPage_of_ne_page (by omega), blank q (by omega) upper]
    exact not_valid_erased

/-- Every block with a valid first page is older than `v`. -/
def Older (geo : MtdGeometry) (flash : Flash) (v : Nat) : Prop :=
  ∀ b, ValidFirst geo flash b → firstVersion flash b < v

/-- Every block with a valid first page is older than the image or ends in a copy of it. -/
def NoNewer (geo : MtdGeometry) (flash : Flash) (image : Bytes) : Prop :=
  ∀ b, ValidFirst geo flash b → firstVersion flash b < version image ∨
    firstVersion flash b = version image ∧ Tops geo flash b image

theorem Older.noNewer (older : Older geo flash (version image)) : NoNewer geo flash image :=
  fun b first => Or.inl (older b first)

/-- Programming a copy keeps the order of the blocks. -/
theorem NoNewer.write (noNewer : NoNewer geo flash image) (ok : ImageOk image)
    (blank : BlankFrom geo flash blk page) (inside : page < geo.pages) (euclean : Bool) :
    NoNewer geo (setPage flash blk page (imagePage euclean image)) image := by
  intro b first
  by_cases same : b = blk
  · subst same
    rcases Nat.eq_zero_or_pos page with rfl | positive
    · refine Or.inr ⟨?_, ok.tops blank inside euclean⟩
      rw [firstVersion, setPage_self]
      rfl
    · have kept : setPage flash b page (imagePage euclean image) b 0 = flash b 0 :=
        setPage_first positive
      rw [firstVersion, kept]
      exact (noNewer b (first.congr kept.symm)).imp id fun tied =>
        ⟨tied.1, ok.tops blank inside euclean⟩
  · have kept : setPage flash blk page (imagePage euclean image) b = flash b :=
      setPage_of_ne_block same
    rw [firstVersion, kept]
    exact (noNewer b (first.congr (congrFun kept 0).symm)).imp id fun tied =>
      ⟨tied.1, tied.2.congr kept⟩

/-- So does a write that fails. -/
theorem NoNewer.writeFailed (noNewer : NoNewer geo flash image)
    (blank : BlankFrom geo flash blk page) (inside : page < geo.pages)
    (invalid : value.read.valid = false) : NoNewer geo (setPage flash blk page value) image := by
  intro b first
  have kept : setPage flash blk page value b 0 = flash b 0 := by
    by_cases here : b = blk ∧ page = 0
    · have unread := first.valid
      rw [here.1, here.2, setPage_self, invalid] at unread
      contradiction
    · by_cases same : b = blk
      · exact setPage_first (Nat.pos_of_ne_zero fun zero => here ⟨same, zero⟩)
      · rw [setPage_of_ne_block same]
  rw [firstVersion, kept]
  exact (noNewer b (first.congr kept.symm)).imp id fun tied =>
    ⟨tied.1, tied.2.setPage_invalid blank inside invalid⟩

theorem Older.writeFailed {v : Nat} (older : Older geo flash v)
    (invalid : value.read.valid = false) : Older geo (setPage flash blk page value) v := by
  intro b first
  by_cases here : b = blk ∧ page = 0
  · have unread := first.valid
    rw [here.1, here.2, setPage_self, invalid] at unread
    contradiction
  · have kept : setPage flash blk page value b 0 = flash b 0 := by
      by_cases same : b = blk
      · exact setPage_first (Nat.pos_of_ne_zero fun zero => here ⟨same, zero⟩)
      · rw [setPage_of_ne_block same]
    rw [firstVersion, kept]
    exact older b (first.congr kept.symm)

/-- An erased block holds no image. -/
theorem validFirst_erase {b b' : Nat}
    (first : ValidFirst geo (Function.update flash b fun _ => .erased) b') :
    b' ≠ b ∧ ValidFirst geo flash b' := by
  have other : b' ≠ b := by
    rintro rfl
    have valid := first.valid
    rw [Function.update_self, not_valid_erased] at valid
    contradiction
  exact ⟨other, first.congr (by rw [Function.update_of_ne other])⟩

theorem Older.erase {v : Nat} (older : Older geo flash v) (b : Nat) :
    Older geo (Function.update flash b fun _ => .erased) v := by
  intro b' first
  obtain ⟨other, old⟩ := validFirst_erase first
  rw [firstVersion, Function.update_of_ne other]
  exact older b' old

theorem NoNewer.erase (noNewer : NoNewer geo flash image) (b : Nat) :
    NoNewer geo (Function.update flash b fun _ => .erased) image := by
  intro b' first
  obtain ⟨other, old⟩ := validFirst_erase first
  rw [firstVersion, Function.update_of_ne other]
  exact (noNewer b' old).imp id fun tied =>
    ⟨tied.1, tied.2.congr (Function.update_of_ne other _ _)⟩

/-- A mount finds an image that some first page carries and no first page outdates. -/
theorem NoNewer.remountLoads {b : Nat} (noNewer : NoNewer geo flash image)
    (positive : 0 < version image) (first : ValidFirst geo flash b)
    (same : firstVersion flash b = version image) : RemountLoads geo flash image := by
  have bound := (scanBlocks_spec geo flash geo.blocks).bound b first.inside first.good first.valid
  have found : (scanBlocks geo flash geo.blocks).2 ≠ 0 := by omega
  have leads := leads_scanBlocks found
  rcases noNewer _ leads.first with older | ⟨_, top⟩
  · have newest := leads.newest b first
    omega
  · exact leads.mtdMount top

/-- Whether a mount after the second copy finds the image is settled before that copy. -/
theorem remountLoads_second_copy (noNewer : NoNewer geo flash image) (ok : ImageOk image)
    (bound : blk < geo.blocks) (good : geo.isBad blk = false)
    (blank : BlankFrom geo flash blk page) (inside : page < geo.pages) (euclean : Bool) :
    RemountLoads geo (setPage flash blk page (imagePage euclean image)) image ↔
      page = 0 ∨ Leads geo flash blk ∨ ∃ b, Leads geo flash b ∧ Tops geo flash b image := by
  have top : Tops geo (setPage flash blk page (imagePage euclean image)) blk image :=
    ok.tops blank inside euclean
  rcases Nat.eq_zero_or_pos page with rfl | positive
  · refine iff_of_true ?_ (Or.inl rfl)
    refine (noNewer.write ok blank inside euclean).remountLoads ok.positive (b := blk)
      ⟨bound, good, ?_⟩ ?_
    · rw [setPage_self]
      exact ok.valid euclean
    · rw [firstVersion, setPage_self]
      rfl
  · have firsts : ∀ b, setPage flash blk page (imagePage euclean image) b 0 = flash b 0 :=
      fun b => setPage_first positive
    rw [remountLoads_iff]
    constructor
    · rintro ⟨b, leads, last⟩
      have before : Leads geo flash b := leads.congr fun b => (firsts b).symm
      by_cases same : b = blk
      · exact Or.inr (Or.inl (same ▸ before))
      · exact Or.inr (Or.inr ⟨b, before, last.congr (setPage_of_ne_block same).symm⟩)
    · rintro (zero | leads | ⟨b, leads, last⟩)
      · exact absurd zero (Nat.ne_of_gt positive)
      · exact ⟨blk, leads.congr firsts, top⟩
      · by_cases same : b = blk
        · subst same
          exact ⟨b, leads.congr firsts, top⟩
        · exact ⟨b, leads.congr firsts, last.congr (setPage_of_ne_block same)⟩

/-! ## Runs -/

/-- What the labels of a session promise: power stays on, erases succeed, a page whose write failed
reads back with an error or as invalid, and the version does not wrap. -/
def Ordinary (state : MtdState) : MtdLabel → Prop
  | .boot _ => True
  | .formatErase .done => True
  | .formatErase (.failed _) => False
  | .call _ _ _ => version state.gVendor.mem + 1 < 4294967296
  | .pass .done (.done _) => True
  | .pass .done (.failed left) => left.read.valid = false
  | .pass (.failed _) _ => False
  | .cut => False

instance (state : MtdState) : (label : MtdLabel) → Decidable (Ordinary state label)
  | .boot _ => isTrue trivial
  | .formatErase .done => isTrue trivial
  | .formatErase (.failed _) => isFalse id
  | .call _ _ _ => inferInstanceAs (Decidable (_ < _))
  | .pass .done (.done _) => isTrue trivial
  | .pass .done (.failed _) => inferInstanceAs (Decidable (_ = _))
  | .pass (.failed _) _ => isFalse id
  | .cut => isFalse id

/-- The second copy of a `mtd_vendor_write` starts its block, or its block leads, or the first copy
is still the last valid page of the leading block. -/
def SecondCopyFound (geo : MtdGeometry) (state : MtdState) (label : MtdLabel) : Prop :=
  ∀ erase euclean, label = .pass erase (.done euclean) → state.pc = .write .vendorWrite 1 →
    0 < state.nandInfo.pageOffset → state.nandInfo.pageOffset < geo.pages →
      Leads geo state.flash state.nandInfo.blkOffset ∨
        ∃ b, Leads geo state.flash b ∧ Tops geo state.flash b state.gVendor.mem

/-- Between two calls a mount loads the image of the last `mtd_vendor_write` that returned zero. -/
def RemountsReturned (geo : MtdGeometry) (state : MtdState) : Prop :=
  state.pc = .idle → ∀ image, state.returned = some image → RemountLoads geo state.flash image

/-- The cursor is in a good block, or behind its last page, and nothing lies at or behind it. -/
structure CursorOk (geo : MtdGeometry) (state : MtdState) : Prop where
  place : state.nandInfo.pageOffset < geo.pages → state.nandInfo.blkOffset < geo.blocks ∧
    geo.isBad state.nandInfo.blkOffset = false
  blank : BlankFrom geo state.flash state.nandInfo.blkOffset state.nandInfo.pageOffset

/-- No block holds an image, and formatting leaves the first good block erased. -/
structure Unformatted (geo : MtdGeometry) (flash : Flash) : Prop where
  noImage : ∀ b, ¬ValidFirst geo flash b
  someGood : ∃ b, b < geo.blocks ∧ geo.isBad b = false
  firstGood : ∀ b, b < geo.blocks → geo.isBad b = false → (∀ b', b' < b → geo.isBad b' = true) →
    0 < b → BlankFrom geo flash b 0

/-- The invariant of a session, by the place of the driver. -/
def SessionInv (geo : MtdGeometry) (state : MtdState) : Prop :=
  match state.pc with
  | .off => Unformatted geo state.flash ∧ state.returned = none
  | .format offset => ImageOk state.gVendor.mem ∧ (∀ b, ¬ValidFirst geo state.flash b) ∧
      state.nandInfo.pageOffset = 0 ∧ state.nandInfo.blkOffset < geo.blocks ∧
      geo.isBad state.nandInfo.blkOffset = false ∧ state.returned = none ∧
      (BlankFrom geo state.flash state.nandInfo.blkOffset 0 ∨
        offset = 0 ∧ state.nandInfo.blkOffset = 0)
  | .idle => ImageOk state.gVendor.mem ∧ CursorOk geo state ∧
      NoNewer geo state.flash state.gVendor.mem ∧ RemountsReturned geo state
  | .write caller count => ImageOk state.gVendor.mem ∧ CursorOk geo state ∧ count < 2 ∧
      (count = 0 → Older geo state.flash (version state.gVendor.mem)) ∧
      NoNewer geo state.flash state.gVendor.mem ∧ (caller = .init → state.returned = none)

theorem mtdFreshImage_ok (buffer : Bytes) : ImageOk (mtdFreshImage buffer) := by
  obtain ⟨tagged, versionEq, closed⟩ := mtdFreshImage_header buffer
  exact ⟨tagged, by rw [versionEq, closed], by omega⟩

theorem ImageOk.bump {g after : VendorInfo} {id size : Nat} {pbuf : Bytes} (ok : ImageOk g.mem)
    (noWrap : version g.mem + 1 < 4294967296)
    (updated : vendorUpdate mtdShape mtdCharge g id pbuf size = some after) :
    ImageOk (bumpVersion mtdShape after).mem ∧
      version (bumpVersion mtdShape after).mem = version g.mem + 1 := by
  have bumped := vendorUpdate_bumpVersion noWrap updated
  refine ⟨⟨bumped.sameTag.trans ok.tagged, ?_, ?_⟩, bumped.nextVersion⟩
  · rw [bumped.nextVersion, bumped.nextVersion2]
  · rw [bumped.nextVersion]
    exact Nat.succ_pos _

variable {state next : MtdState} {caller : Caller} {count : Nat}

/-- Entering a block skips it, or erases it and moves the cursor to its first page. -/
theorem enterBlock_cases (geo : MtdGeometry) (state : MtdState) :
    (∃ b, enterBlock geo state .done =
      { state with nandInfo := { state.nandInfo with blkOffset := b } }) ∨
    ∃ b, b < geo.blocks ∧ geo.isBad b = false ∧ enterBlock geo state .done =
      { state with
        flash := Function.update state.flash b fun _ => .erased
        nandInfo := { state.nandInfo with blkOffset := b, pageOffset := 0 } } := by
  simp only [enterBlock]
  generalize (if geo.blocks ≤ state.nandInfo.blkOffset + 1 then 0
    else state.nandInfo.blkOffset + 1) = b
  cases bad : geo.isBad b with
  | true => exact Or.inl ⟨b, by simp⟩
  | false =>
      by_cases inside : b < geo.blocks
      · exact Or.inr ⟨b, inside, bad, by simp [mtdErase, inside, bad]⟩
      · exact Or.inl ⟨b, by simp [mtdErase, inside]⟩

theorem blankFrom_update_self {b : Nat} {pages : Nat → Page}
    (erased : ∀ p, p < geo.pages → pages p = .erased) :
    BlankFrom geo (Function.update flash b pages) b 0 := by
  intro p _ upper
  rw [Function.update_self]
  exact erased p upper

theorem BlankFrom.update_of_ne {b : Nat} {pages : Nat → Page}
    (blank : BlankFrom geo flash blk page) (ne : blk ≠ b) :
    BlankFrom geo (Function.update flash b pages) blk page := by
  intro p lower upper
  rw [Function.update_of_ne ne]
  exact blank p lower upper

/-- An erased block is blank from its first page on. -/
theorem blankFrom_erase (geo : MtdGeometry) (flash : Flash) (b : Nat) :
    BlankFrom geo (Function.update flash b fun _ => .erased) b 0 :=
  blankFrom_update_self fun _ _ => rfl

theorem SessionInv.boot (inv : SessionInv geo state) {buffer : Bytes}
    (taken : mtdStep geo state (.boot buffer) = some next) : SessionInv geo next := by
  simp only [mtdStep] at taken
  split at taken
  case isFalse => contradiction
  case isTrue off =>
    simp only [SessionInv, off] at inv
    obtain ⟨unformatted, returned⟩ := inv
    have blank : (scanBlocks geo state.flash geo.blocks).2 = 0 :=
      Classical.byContradiction fun found =>
        unformatted.noImage _ (leads_scanBlocks found).first
    obtain ⟨le, before, good⟩ := (scanBlocks_spec geo state.flash geo.blocks).skipped blank
    have mounted : mtdMount geo state.flash buffer =
        ⟨⟨(scanBlocks geo state.flash geo.blocks).1, 0, 0⟩, ⟨mtdFreshImage buffer, false⟩,
          true⟩ := by
      simp [mtdMount, blank]
    generalize (scanBlocks geo state.flash geo.blocks).1 = b at le before good mounted
    have inside : b < geo.blocks := by
      obtain ⟨good, bound, notBad⟩ := unformatted.someGood
      rcases Nat.lt_or_ge good b with below | above
      · rw [before good below] at notBad
        contradiction
      · omega
    rw [mounted] at taken
    obtain rfl := Option.some.inj taken
    refine ⟨mtdFreshImage_ok buffer, unformatted.noImage, rfl, inside, good inside, returned, ?_⟩
    rcases Nat.eq_zero_or_pos b with zero | positive
    · exact Or.inr ⟨rfl, zero⟩
    · exact Or.inl (unformatted.firstGood b inside (good inside) before positive)

theorem BlankFrom.erase (blank : BlankFrom geo flash blk page) (b : Nat) :
    BlankFrom geo (Function.update flash b fun _ => .erased) blk page := by
  by_cases same : blk = b
  · intro p _ _
    rw [same, Function.update_self]
  · exact blank.update_of_ne same

theorem mtdErase_done (geo : MtdGeometry) (flash : Flash) (b : Nat) :
    (mtdErase geo flash b .done).2 =
      if b < geo.blocks ∧ geo.isBad b = false then Function.update flash b fun _ => .erased
      else flash := by
  simp only [mtdErase, Bool.and_eq_true, decide_eq_true_eq, Bool.not_eq_true']
  split <;> rfl

theorem SessionInv.formatErase (inv : SessionInv geo state)
    (taken : mtdStep geo state (.formatErase .done) = some next) : SessionInv geo next := by
  cases place : state.pc with
  | format offset =>
      simp only [SessionInv, place] at inv
      obtain ⟨ok, noImage, page, inside, good, returned, blank⟩ := inv
      simp only [mtdStep, place] at taken
      split at taken
      case isTrue more =>
        obtain rfl := Option.some.inj taken
        simp only [mtdErase_done]
        rcases blank with erased | ⟨rfl, zero⟩
        · by_cases skipped : geo.isBad offset = true
          · rw [if_pos skipped]
            exact ⟨ok, noImage, page, inside, good, returned, Or.inl erased⟩
          · rw [if_neg skipped]
            split
            · exact ⟨ok, fun b first => noImage b (validFirst_erase first).2, page, inside, good,
                returned, Or.inl (erased.erase _)⟩
            · exact ⟨ok, noImage, page, inside, good, returned, Or.inl erased⟩
        · rw [zero] at good inside
          have hit : state.nandInfo.blkOffset + 0 < geo.blocks ∧
              geo.isBad (state.nandInfo.blkOffset + 0) = false := by
            rw [zero]
            exact ⟨inside, good⟩
          rw [if_neg (by rw [good]; decide), if_pos hit]
          rw [← zero] at good inside
          exact ⟨ok, fun b first => noImage b (validFirst_erase first).2, page, inside, good,
            returned, Or.inl (blankFrom_erase _ _ _)⟩
      case isFalse last =>
        obtain rfl := Option.some.inj taken
        have erased : BlankFrom geo state.flash state.nandInfo.blkOffset 0 := by
          rcases blank with erased | ⟨start, _⟩
          · exact erased
          · omega
        refine ⟨ok, ⟨fun _ => ⟨inside, good⟩, by rw [page]; exact erased⟩, by omega,
          fun _ b first => absurd first (noImage b), fun b first => absurd first (noImage b),
          fun _ => returned⟩
  | off => simp [mtdStep, place] at taken
  | idle => simp [mtdStep, place] at taken
  | write caller count => simp [mtdStep, place] at taken

theorem SessionInv.call (inv : SessionInv geo state) {id size : Nat} {pbuf : Bytes}
    (noWrap : version state.gVendor.mem + 1 < 4294967296)
    (taken : mtdStep geo state (.call id pbuf size) = some next) : SessionInv geo next := by
  simp only [mtdStep] at taken
  split at taken
  case isFalse => contradiction
  case isTrue idle =>
    cases update : vendorUpdate mtdShape mtdCharge state.gVendor id pbuf size with
    | none =>
        simp only [update] at taken
        obtain rfl := Option.some.inj taken
        exact inv
    | some g =>
        simp only [update] at taken
        obtain rfl := Option.some.inj taken
        simp only [SessionInv, idle] at inv
        obtain ⟨ok, cursor, noNewer, _⟩ := inv
        obtain ⟨okNext, versionEq⟩ := ok.bump noWrap update
        have older : Older geo state.flash (version (bumpVersion mtdShape g).mem) := by
          intro b first
          rw [versionEq]
          rcases noNewer b first with older | ⟨same, _⟩ <;> omega
        exact ⟨okNext, ⟨cursor.place, cursor.blank⟩, by omega, fun _ => older, older.noNewer,
          fun init => by contradiction⟩

/-- One loop pass of a session. -/
theorem SessionInv.pass (inv : SessionInv geo state) {write : WriteResult}
    (ordinary : Ordinary state (.pass .done write))
    (found : SecondCopyFound geo state (.pass .done write))
    (taken : mtdStep geo state (.pass .done write) = some next) : SessionInv geo next := by
  cases place : state.pc with
  | off => simp [mtdStep, place] at taken
  | idle => simp [mtdStep, place] at taken
  | format offset => simp [mtdStep, place] at taken
  | write caller count =>
      simp only [SessionInv, place] at inv
      obtain ⟨ok, cursor, few, older, noNewer, fresh⟩ := inv
      simp only [mtdStep, place] at taken
      split at taken
      case isTrue full =>
        obtain rfl := Option.some.inj taken
        rcases enterBlock_cases geo state with ⟨b, skipped⟩ | ⟨b, inside, good, erased⟩
        · rw [skipped]
          simp only [SessionInv, place]
          exact ⟨ok, ⟨fun inside => absurd full (Nat.not_le.mpr inside),
            fun p lower upper => absurd (Nat.le_trans full lower) (Nat.not_le.mpr upper)⟩, few,
            older, noNewer, fresh⟩
        · rw [erased]
          simp only [SessionInv, place]
          exact ⟨ok, ⟨fun _ => ⟨inside, good⟩, blankFrom_erase _ _ _⟩, few,
            fun first => (older first).erase b, noNewer.erase b, fresh⟩
      case isFalse room =>
        obtain rfl := Option.some.inj taken
        have inside : state.nandInfo.pageOffset < geo.pages := Nat.lt_of_not_le room
        obtain ⟨bound, good⟩ := cursor.place inside
        cases write with
        | failed left =>
            have bad : left.read.valid = false := ordinary
            simp only [writePage, mtdWrite, if_pos bound, Bool.not_false, if_true, SessionInv,
              place]
            exact ⟨ok, ⟨fun _ => ⟨bound, good⟩, cursor.blank.setPage⟩, few,
              fun first => (older first).writeFailed bad,
              noNewer.writeFailed cursor.blank inside bad, fresh⟩
        | done euclean =>
            have ordered := noNewer.write ok cursor.blank inside euclean
            have blank : BlankFrom geo (setPage state.flash state.nandInfo.blkOffset
                state.nandInfo.pageOffset (imagePage euclean state.gVendor.mem))
                state.nandInfo.blkOffset (state.nandInfo.pageOffset + 1) := cursor.blank.setPage
            simp only [writePage, mtdWrite, if_pos bound, Bool.not_true, Bool.false_eq_true,
              if_false]
            split
            case isTrue first =>
              exact ⟨ok, ⟨fun _ => ⟨bound, good⟩, blank⟩, first, fun zero => by omega, ordered,
                fresh⟩
            case isFalse second =>
              refine ⟨ok, ⟨fun _ => ⟨bound, good⟩, blank⟩, ordered, fun _ image same => ?_⟩
              cases caller with
              | init =>
                  simp only [reduceCtorEq, if_false, fresh rfl] at same
              | vendorWrite =>
                  obtain rfl := Option.some.inj same
                  refine (remountLoads_second_copy noNewer ok bound good cursor.blank inside
                    euclean).mpr ?_
                  rcases Nat.eq_zero_or_pos state.nandInfo.pageOffset with zero | positive
                  · exact Or.inl zero
                  · have last : count = 1 := by omega
                    exact Or.inr (found .done euclean rfl (last ▸ place) positive inside)

theorem SessionInv.step {label : MtdLabel} (inv : SessionInv geo state)
    (ordinary : Ordinary state label) (found : SecondCopyFound geo state label)
    (taken : mtdStep geo state label = some next) : SessionInv geo next := by
  cases label with
  | boot buffer => exact inv.boot taken
  | formatErase result =>
      cases result with
      | done => exact inv.formatErase taken
      | failed left => exact absurd ordinary id
  | call id pbuf size => exact inv.call ordinary taken
  | pass erase write =>
      cases erase with
      | done => exact inv.pass ordinary found taken
      | failed left => exact absurd ordinary id
  | cut => exact absurd ordinary id

theorem SessionInv.remountsReturned (inv : SessionInv geo state) : RemountsReturned geo state := by
  intro idle
  simp only [SessionInv, idle] at inv
  exact inv.2.2.2 idle

/-- A second copy in any other place ends the call, and a mount does not find it. -/
theorem SessionInv.not_found {label : MtdLabel} (inv : SessionInv geo state)
    (missed : ¬SecondCopyFound geo state label) :
    ∃ next, mtdStep geo state label = some next ∧ ¬RemountsReturned geo next := by
  simp only [SecondCopyFound, Classical.not_forall, not_or] at missed
  obtain ⟨erase, euclean, rfl, place, positive, inside, trailing, overwritten⟩ := missed
  simp only [SessionInv, place] at inv
  obtain ⟨ok, cursor, _, _, noNewer, _⟩ := inv
  obtain ⟨bound, good⟩ := cursor.place inside
  refine ⟨_, by simp only [mtdStep, place, if_neg (Nat.not_le.mpr inside)]; rfl, ?_⟩
  simp only [writePage, mtdWrite, if_pos bound, Bool.not_true, Bool.false_eq_true, if_false,
    Nat.lt_irrefl, if_true]
  intro remounts
  have loads := remounts rfl _ rfl
  rcases (remountLoads_second_copy noNewer ok bound good cursor.blank inside euclean).mp loads with
    zero | leads | elsewhere
  · omega
  · exact trailing leads
  · exact overwritten elsewhere

/-- Two good blocks of four pages. -/
def twoBlocks : MtdGeometry := ⟨2, 4, fun _ => false, by decide⟩

/-- A device from the factory. -/
def blankDevice : MtdState where
  flash := fun _ _ => .erased
  nandInfo := ⟨0, 0, 0⟩
  gVendor := ⟨fun _ => 0, false⟩
  pc := .off
  returned := none
  reprogrammed := false

def mtdFormat : List MtdLabel :=
  [.boot fun _ => 0, .formatErase .done, .formatErase .done, .formatErase .done]

def passOk : MtdLabel := .pass .done (.done false)

/-- A write whose page reads back with an error. -/
def passFail : MtdLabel := .pass .done (.failed (.programmed ⟨.failed, false, fun _ => 0⟩))

/-- Two writes fill the first block; the third enters the second block, whose first page fails. -/
def firstPageFails : List MtdLabel :=
  mtdFormat ++ [passOk, passOk, .call 1 (fun _ => 0) 0, passOk, passOk,
    .call 1 (fun _ => 0) 0, passOk, passFail, passOk, passOk]

theorem blankDevice_unformatted : Unformatted twoBlocks blankDevice.flash where
  noImage b first := absurd first.valid (by rw [blankDevice, not_valid_erased]; decide)
  someGood := ⟨0, by decide, rfl⟩
  firstGood _ _ _ _ _ _ _ _ := rfl

end VendorStorage
end RockchipSoc
