import RockchipSoc.VendorStorage.MtdRemount

/-!
# Programming only erased pages

The writer never looks at the page it programs: it relies on every page from the cursor on being
erased.  Writing and entering a block keep that up; mounting rebuilds it except when the leading
block has no page in use beyond its first, because the cursor then stays on that page.  Formatting
erases block zero but, when block zero is bad, not the first good block.
-/

namespace RockchipSoc
namespace VendorStorage

open ByteMemory LabelledRun

variable {geo : MtdGeometry} {flash : Flash} {state next : MtdState}

/-- A programmed page does not read as an erased one. -/
def Page.Legible (page : Page) : Prop := page.read.unprogrammed = true → page = .erased

def LegibleFlash (flash : Flash) : Prop := ∀ b p, (flash b p).Legible

theorem legible_erased : Page.erased.Legible := fun _ => rfl

theorem legible_imagePage {image : Bytes} (tagged : tag image = mtdVendorTag) (euclean : Bool) :
    (imagePage euclean image).Legible := by
  intro blank
  simp only [imagePage, Page.read, PageRead.unprogrammed, decide_eq_true_eq, tagged] at blank
  exact absurd blank.2.2.1 (by decide)

theorem LegibleFlash.setPage {blk page : Nat} {value : Page} (legible : LegibleFlash flash)
    (fresh : value.Legible) : LegibleFlash (setPage flash blk page value) := by
  intro b p
  by_cases sameBlock : b = blk
  · subst sameBlock
    by_cases samePage : p = page
    · rw [samePage, setPage_self]
      exact fresh
    · rw [setPage_of_ne_page samePage]
      exact legible b p
  · rw [setPage_of_ne_block sameBlock]
    exact legible b p

theorem LegibleFlash.update {b : Nat} {pages : Nat → Page} (legible : LegibleFlash flash)
    (fresh : ∀ p, (pages p).Legible) : LegibleFlash (Function.update flash b pages) := by
  intro b' p
  by_cases same : b' = b
  · rw [same, Function.update_self]
    exact fresh p
  · rw [Function.update_of_ne same]
    exact legible b' p

/-! ## The cursor after mounting -/

/-- With nothing used beyond the first page the cursor stays where it started. -/
theorem scanPages_pageOffset_of_unused {b n : Nat} {scan : PageScan}
    (unused : ∀ p, 0 < p → p < n → (flash b p).read.unprogrammed = true) :
    (scanPages flash b n scan).pageOffset = scan.pageOffset := by
  induction n generalizing scan with
  | zero => rfl
  | succ n ih =>
      have rest : ∀ p, 0 < p → p < n → (flash b p).read.unprogrammed = true :=
        fun p positive below => unused p positive (Nat.lt_succ_of_lt below)
      simp only [scanPages]
      split
      · exact ih rest
      case isFalse programmed =>
        have first : n = 0 := by
          by_contra positive
          exact programmed (unused n (Nat.pos_of_ne_zero positive) (Nat.lt_succ_self n))
        subst first
        simp only [Nat.not_lt_zero, if_false]
        split
        · rfl
        · rfl

/-- Over a leading block the cursor is behind everything in use exactly when a page beyond the
first is in use. -/
theorem blankFrom_mount_iff (legible : LegibleFlash flash) {b : Nat} (leads : Leads geo flash b)
    (scan : PageScan) (start : scan.pageOffset = 0) :
    BlankFrom geo flash b (scanPages flash b geo.pages scan).pageOffset ↔
      ∃ p, 0 < p ∧ p < geo.pages ∧ (flash b p).read.unprogrammed = false := by
  constructor
  · intro blank
    by_contra unused
    have cursor : (scanPages flash b geo.pages scan).pageOffset = scan.pageOffset := by
      refine scanPages_pageOffset_of_unused fun p positive below => ?_
      by_contra used
      exact unused ⟨p, positive, below, by simpa using used⟩
    have erased := blank 0 (by omega) geo.pages_pos
    have valid := leads.first.valid
    rw [erased, not_valid_erased] at valid
    contradiction
  · intro used p lower upper
    exact legible b p (scanPages_cursor start used lower upper)

/-! ## Runs -/

/-- Mounting puts the cursor behind everything in use: the leading block has a page in use beyond
its first, and a device without one has a good block zero or an erased first good block. -/
structure CursorFound (geo : MtdGeometry) (flash : Flash) : Prop where
  leading : ∀ b, Leads geo flash b →
    ∃ p, 0 < p ∧ p < geo.pages ∧ (flash b p).read.unprogrammed = false
  formatting : (∀ b, ¬Leads geo flash b) → geo.isBad 0 = false ∨
    ∀ b, geo.isBad b = false → (∀ b', b' < b → geo.isBad b' = true) → BlankFrom geo flash b 0

/-- The condition on the steps of a run: a mount finds the cursor, formatting manages to erase a
good block zero, and what a failed operation programs does not read as erased. -/
def ProgramsErased (geo : MtdGeometry) (state : MtdState) : MtdLabel → Prop
  | .boot _ => CursorFound geo state.flash
  | .formatErase .done => True
  | .formatErase (.failed left) => (∀ p, (left p).Legible) ∧
      (state.pc = .format 0 → geo.isBad 0 = false → ∀ p, p < geo.pages → left p = .erased)
  | .pass (.failed left) (.failed page) => (∀ p, (left p).Legible) ∧ page.Legible
  | .pass (.failed left) (.done _) => ∀ p, (left p).Legible
  | .pass .done (.failed page) => page.Legible
  | .pass .done (.done _) => True
  | .call _ _ _ => True
  | .cut => True

/-- The invariant of a run, by the place of the driver. -/
def ProgramInv (geo : MtdGeometry) (state : MtdState) : Prop :=
  state.reprogrammed = false ∧ LegibleFlash state.flash ∧
    match state.pc with
    | .off => True
    | .format offset => tag state.gVendor.mem = mtdVendorTag ∧ state.nandInfo.pageOffset = 0 ∧
        (geo.isBad 0 = false → state.nandInfo.blkOffset = 0) ∧
        (offset = 0 ∧ geo.isBad 0 = false ∨
          (state.nandInfo.blkOffset < geo.blocks →
            BlankFrom geo state.flash state.nandInfo.blkOffset 0))
    | .idle | .write _ _ => tag state.gVendor.mem = mtdVendorTag ∧
        (state.nandInfo.blkOffset < geo.blocks →
          BlankFrom geo state.flash state.nandInfo.blkOffset state.nandInfo.pageOffset)

theorem ProgramInv.boot (inv : ProgramInv geo state) {buffer : Bytes}
    (found : CursorFound geo state.flash)
    (taken : mtdStep geo state (.boot buffer) = some next) : ProgramInv geo next := by
  obtain ⟨clean, legible, _⟩ := inv
  simp only [mtdStep] at taken
  split at taken
  case isFalse => contradiction
  case isTrue =>
    obtain rfl := Option.some.inj taken
    refine ⟨clean, legible, ?_⟩
    by_cases leading : (scanBlocks geo state.flash geo.blocks).2 = 0
    · obtain ⟨_, before, good⟩ := (scanBlocks_spec geo state.flash geo.blocks).skipped leading
      have none : ∀ b, ¬Leads geo state.flash b := by
        intro b leads
        have positive := leads.positive
        rw [leads.scanBlocks] at leading
        exact absurd leading (Nat.ne_of_gt positive)
      simp only [mtdMount, leading, ne_eq, not_true_eq_false, if_false, if_true]
      refine ⟨(mtdFreshImage_header buffer).1, trivial, fun notBad => ?_, ?_⟩
      · by_contra positive
        rw [before 0 (Nat.pos_of_ne_zero positive)] at notBad
        contradiction
      · refine (found.formatting none).imp (fun notBad => ⟨trivial, notBad⟩) fun erased inside => ?_
        exact erased _ (good inside) before
    · have leads := leads_scanBlocks leading
      have cursor := (blankFrom_mount_iff legible leads
        ⟨0, (scanBlocks geo state.flash geo.blocks).2, buffer⟩ rfl).mpr (found.leading _ leads)
      obtain ⟨image, top⟩ := exists_tops geo.pages_pos leads.first.valid
      obtain ⟨p, inside, valid, _, last⟩ := top
      have loaded := scanPages_buffer inside valid last
        ⟨0, (scanBlocks geo state.flash geo.blocks).2, buffer⟩
      have size := mtdShape_size
      simp only [PageRead.valid, decide_eq_true_eq] at valid
      have tagged := (tag_congr (loaded.mono (Nat.le_refl _) (by omega))).trans valid.2.2.1
      simp only [mtdMount, ne_eq, leading, not_false_eq_true, if_true, Bool.false_eq_true, if_false]
      exact ⟨tagged, fun _ => cursor⟩

/-- What `mtd_erase` leaves of the medium. -/
theorem mtdErase_cases (geo : MtdGeometry) (flash : Flash) (b : Nat) (result : EraseResult) :
    (¬(b < geo.blocks ∧ geo.isBad b = false) ∧ mtdErase geo flash b result = (false, flash)) ∨
    (result = .done ∧
      mtdErase geo flash b result = (true, Function.update flash b fun _ => .erased)) ∨
    ∃ left, result = .failed left ∧
      mtdErase geo flash b result = (false, Function.update flash b left) := by
  by_cases reachable : b < geo.blocks ∧ geo.isBad b = false
  · refine Or.inr ?_
    cases result with
    | done => exact Or.inl ⟨rfl, by simp [mtdErase, reachable]⟩
    | failed left => exact Or.inr ⟨left, rfl, by simp [mtdErase, reachable]⟩
  · have refused : ¬(b < geo.blocks && !geo.isBad b) = true := by simpa using reachable
    refine Or.inl ⟨reachable, ?_⟩
    cases result <;> simp only [mtdErase, if_neg refused]

theorem ProgramInv.call (inv : ProgramInv geo state) {id size : Nat} {pbuf : Bytes}
    (taken : mtdStep geo state (.call id pbuf size) = some next) : ProgramInv geo next := by
  obtain ⟨clean, legible, rest⟩ := inv
  simp only [mtdStep] at taken
  split at taken
  case isFalse => contradiction
  case isTrue idle =>
    simp only [idle] at rest
    cases update : vendorUpdate mtdShape mtdCharge state.gVendor id pbuf size with
    | none =>
        simp only [update] at taken
        obtain rfl := Option.some.inj taken
        exact ⟨clean, legible, by simpa only [idle] using rest⟩
    | some g =>
        simp only [update] at taken
        obtain rfl := Option.some.inj taken
        exact ⟨clean, legible, (tag_vendorUpdate_bumpVersion update).trans rest.1, rest.2⟩

/-- The pages that a label leaves behind are legible. -/
theorem ProgramsErased.erase {erase : EraseResult} {write : WriteResult}
    (allowed : ProgramsErased geo state (.pass erase write)) {left : Nat → Page}
    (failed : erase = .failed left) : ∀ p, (left p).Legible := by
  subst failed
  cases write with
  | done euclean => exact allowed
  | failed page => exact allowed.1

theorem ProgramsErased.write {erase : EraseResult} {write : WriteResult}
    (allowed : ProgramsErased geo state (.pass erase write)) {page : Page}
    (failed : write = .failed page) : page.Legible := by
  subst failed
  cases erase with
  | done => exact allowed
  | failed left => exact allowed.2

theorem ProgramInv.formatErase (inv : ProgramInv geo state) {result : EraseResult}
    (allowed : ProgramsErased geo state (.formatErase result))
    (taken : mtdStep geo state (.formatErase result) = some next) : ProgramInv geo next := by
  obtain ⟨clean, legible, rest⟩ := inv
  cases place : state.pc with
  | off => simp [mtdStep, place] at taken
  | idle => simp [mtdStep, place] at taken
  | write caller count => simp [mtdStep, place] at taken
  | format offset =>
      simp only [place] at rest
      obtain ⟨tagged, page, zero, erased⟩ := rest
      simp only [mtdStep, place] at taken
      split at taken
      case isFalse last =>
        obtain rfl := Option.some.inj taken
        refine ⟨clean, legible, tagged, fun inside => ?_⟩
        rw [page]
        rcases erased with ⟨start, notBad⟩ | blank
        · have := zero notBad
          omega
        · exact blank inside
      case isTrue more =>
        obtain rfl := Option.some.inj taken
        by_cases bad : geo.isBad offset = true
        · simp only [if_pos bad]
          refine ⟨clean, legible, tagged, page, zero, Or.inr (erased.resolve_left ?_)⟩
          rintro ⟨rfl, notBad⟩
          rw [bad] at notBad
          contradiction
        · simp only [if_neg bad]
          have notBad : geo.isBad offset = false := by simpa using bad
          rcases mtdErase_cases geo state.flash (state.nandInfo.blkOffset + offset) result with
            ⟨unreachable, same⟩ | ⟨rfl, same⟩ | ⟨left, rfl, same⟩
          · rw [same]
            refine ⟨clean, legible, tagged, page, zero, Or.inr fun inside => ?_⟩
            rcases erased with ⟨rfl, good⟩ | blank
            · rw [zero good] at unreachable inside
              exact absurd ⟨inside, good⟩ unreachable
            · exact blank inside
          · rw [same]
            refine ⟨clean, legible.update fun _ => legible_erased, tagged, page, zero,
              Or.inr fun inside => ?_⟩
            rcases erased with ⟨rfl, good⟩ | blank
            · exact blankFrom_erase _ _ _
            · exact (blank inside).erase _
          · rw [same]
            refine ⟨clean, legible.update allowed.1, tagged, page, zero, Or.inr fun inside => ?_⟩
            rcases Nat.eq_zero_or_pos offset with rfl | positive
            · exact blankFrom_update_self fun p upper => allowed.2 place notBad p upper
            · have blank := erased.resolve_left fun start => by omega
              exact (blank inside).update_of_ne (by omega)

theorem ProgramInv.pass (inv : ProgramInv geo state) {erase : EraseResult} {write : WriteResult}
    (allowed : ProgramsErased geo state (.pass erase write))
    (taken : mtdStep geo state (.pass erase write) = some next) : ProgramInv geo next := by
  obtain ⟨clean, legible, rest⟩ := inv
  cases place : state.pc with
  | off => simp [mtdStep, place] at taken
  | idle => simp [mtdStep, place] at taken
  | format offset => simp [mtdStep, place] at taken
  | write caller count =>
      simp only [place] at rest
      obtain ⟨tagged, blank⟩ := rest
      simp only [mtdStep, place] at taken
      split at taken
      case isTrue full =>
        obtain rfl := Option.some.inj taken
        have vacuous : ∀ flash b, BlankFrom geo flash b state.nandInfo.pageOffset :=
          fun _ _ p lower upper => absurd (Nat.le_trans full lower) (Nat.not_le.mpr upper)
        simp only [enterBlock]
        generalize (if geo.blocks ≤ state.nandInfo.blkOffset + 1 then 0
          else state.nandInfo.blkOffset + 1) = b
        split
        case isTrue =>
          refine ⟨clean, legible, ?_⟩
          simp only [place]
          exact ⟨tagged, fun _ => vacuous _ _⟩
        case isFalse =>
          rcases mtdErase_cases geo state.flash b erase with
            ⟨_, same⟩ | ⟨rfl, same⟩ | ⟨left, failed, same⟩
          · simp only [same, Bool.false_eq_true, if_false]
            refine ⟨clean, legible, ?_⟩
            simp only [place]
            exact ⟨tagged, fun _ => vacuous _ _⟩
          · simp only [same, if_true]
            refine ⟨clean, legible.update fun _ => legible_erased, ?_⟩
            simp only [place]
            exact ⟨tagged, fun _ => blankFrom_erase _ _ _⟩
          · simp only [same, Bool.false_eq_true, if_false]
            refine ⟨clean, legible.update (allowed.erase failed), ?_⟩
            simp only [place]
            exact ⟨tagged, fun _ => vacuous _ _⟩
      case isFalse room =>
        obtain rfl := Option.some.inj taken
        have inside : state.nandInfo.pageOffset < geo.pages := Nat.lt_of_not_le room
        by_cases bound : state.nandInfo.blkOffset < geo.blocks
        · have erased := blank bound _ (Nat.le_refl _) inside
          have clean' : (state.reprogrammed || (decide (state.nandInfo.blkOffset < geo.blocks) &&
              !(state.flash state.nandInfo.blkOffset state.nandInfo.pageOffset).isErased)) =
              false := by
            rw [clean, erased]
            simp [Page.isErased]
          cases write with
          | failed left =>
              simp only [writePage, mtdWrite, if_pos bound, Bool.not_false, if_true]
              refine ⟨clean', legible.setPage (allowed.write rfl), ?_⟩
              simp only [place]
              exact ⟨tagged, fun _ => (blank bound).setPage⟩
          | done euclean =>
              have legible' : LegibleFlash (VendorStorage.setPage state.flash
                  state.nandInfo.blkOffset state.nandInfo.pageOffset
                  (imagePage euclean state.gVendor.mem)) :=
                legible.setPage (legible_imagePage tagged euclean)
              simp only [writePage, mtdWrite, if_pos bound, Bool.not_true, Bool.false_eq_true,
                if_false]
              split
              · exact ⟨clean', legible', tagged, fun _ => (blank bound).setPage⟩
              · exact ⟨clean', legible', tagged, fun _ => (blank bound).setPage⟩
        · have refused : mtdWrite geo state.flash state.nandInfo.blkOffset state.nandInfo.pageOffset
              state.gVendor.mem write = (false, state.flash) := by
            cases write <;> simp only [mtdWrite, if_neg bound]
          simp only [writePage, refused, Bool.not_false, if_true]
          refine ⟨by simp [clean, bound], legible, ?_⟩
          simp only [place]
          exact ⟨tagged, fun below => absurd below bound⟩

theorem ProgramInv.step {label : MtdLabel} (inv : ProgramInv geo state)
    (allowed : ProgramsErased geo state label) (taken : mtdStep geo state label = some next) :
    ProgramInv geo next := by
  cases label with
  | boot buffer => exact inv.boot allowed taken
  | formatErase result => exact inv.formatErase allowed taken
  | call id pbuf size => exact inv.call taken
  | pass erase write => exact inv.pass allowed taken
  | cut =>
      obtain rfl := Option.some.inj taken
      exact ⟨inv.1, inv.2.1, trivial⟩

/-- In every run with power cuts anywhere, whose mounts find the cursor and whose failed operations
are recognised, each `mtd_write` goes to a page that is erased. -/
theorem mtd_programs_erased_pages (off : state.pc = .off) (legible : LegibleFlash state.flash)
    (clean : state.reprogrammed = false) {final : MtdState}
    (run : Reaches (mtdStep geo) (ProgramsErased geo) state final) :
    final.reprogrammed = false := by
  have initial : ProgramInv geo state := ⟨clean, legible, by simp only [off]⟩
  exact (run.invariant (fun _ _ _ inv allowed taken => inv.step allowed taken) initial).1

theorem blankDevice_cursorFound : CursorFound twoBlocks blankDevice.flash :=
  ⟨fun b leads => absurd leads.first (blankDevice_unformatted.noImage b), fun _ => Or.inl rfl⟩

theorem mtd_programs_erased_pages_blankDevice :
    ∃ final, runs (mtdStep twoBlocks) blankDevice (mtdFormat ++ [passOk, passOk]) = some final ∧
      final.pc = .idle ∧ final.reprogrammed = false := by
  have outcome : (runs (mtdStep twoBlocks) blankDevice (mtdFormat ++ [passOk, passOk])).map
      MtdState.pc = some .idle := by decide +kernel
  obtain ⟨final, execution, idle⟩ := Option.map_eq_some_iff.mp outcome
  have along : Along (mtdStep twoBlocks) (ProgramsErased twoBlocks) blankDevice
      (mtdFormat ++ [passOk, passOk]) :=
    ⟨blankDevice_cursorFound, fun _ _ => ⟨trivial, fun _ _ => ⟨trivial, fun _ _ => ⟨trivial,
      fun _ _ => ⟨trivial, fun _ _ => ⟨trivial, fun _ _ => trivial⟩⟩⟩⟩⟩⟩
  exact ⟨final, execution, idle, mtd_programs_erased_pages rfl (fun _ _ => legible_erased) rfl
    (reaches_of_runs along execution)⟩

/-- A cut between the two copies of the first image leaves one page in use; the write after the
next mount programs it again. -/
def cutBetweenCopies : List MtdLabel :=
  mtdFormat ++ [passOk, .cut, .boot fun _ => 0, .call 1 (fun _ => 0) 0, passOk]

theorem cut_between_copies_reprograms :
    (∀ b p, blankDevice.flash b p = .erased) ∧ ∃ final,
      runs (mtdStep twoBlocks) blankDevice cutBetweenCopies = some final ∧
      final.reprogrammed = true := by
  have outcome : (runs (mtdStep twoBlocks) blankDevice cutBetweenCopies).map
      MtdState.reprogrammed = some true := by decide +kernel
  exact ⟨fun _ _ => rfl, Option.map_eq_some_iff.mp outcome⟩

end VendorStorage
end RockchipSoc
