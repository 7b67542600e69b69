import Mathlib.Data.Set.Subsingleton
import Mathlib.Logic.Function.Iterate
import Mathlib.Tactic.Common
import RockchipSoc.Foundation.Retry
import RockchipSoc.VendorStorage.MtdRemount

/-!
# The two copies of a write

`mtd_vendor_nand_write` repeats erasing and programming until two programmings succeed.  It always
returns where infinitely many attempts would succeed; the flash then holds two copies if no block
that the loop erases on the way to the second copy holds the first.
-/

namespace RockchipSoc
namespace VendorStorage

open ByteMemory Relation Retry

/-- What the medium answers to the attempts of a call, by their numbers. -/
structure MediumPattern where
  erase : Nat → EraseResult
  write : Nat → WriteResult
  erasesSucceed : Recurs fun n => erase n = .done
  writesSucceed : Recurs fun n => ∃ euclean, write n = .done euclean

/-- The driver with the numbers of the next attempts. -/
structure WriteLoop where
  state : MtdState
  erases : Nat
  writes : Nat

/-- The block behind that of the cursor. -/
def nextBlock (geo : MtdGeometry) (blk : Nat) : Nat := if geo.blocks ≤ blk + 1 then 0 else blk + 1

/-- The block that the next pass enters. -/
def WriteLoop.entered (geo : MtdGeometry) (loop : WriteLoop) : Nat :=
  nextBlock geo loop.state.nandInfo.blkOffset

/-- One pass of the loop. -/
def WriteLoop.pass (geo : MtdGeometry) (pattern : MediumPattern) (loop : WriteLoop)
    (caller : Caller) (count : Nat) : WriteLoop :=
  if geo.pages ≤ loop.state.nandInfo.pageOffset then
    { loop with
      state := enterBlock geo loop.state (pattern.erase loop.erases)
      erases := if geo.isBad (loop.entered geo) then loop.erases else loop.erases + 1 }
  else
    { loop with
      state := writePage geo loop.state (pattern.write loop.writes) caller count
      writes := loop.writes + 1 }

/-- The loop with `fuel` passes at most. -/
def mtdVendorNandWrite (geo : MtdGeometry) (pattern : MediumPattern) :
    Nat → WriteLoop → Option WriteLoop
  | 0, _ => none
  | fuel + 1, loop =>
      match loop.state.pc with
      | .write caller count =>
          mtdVendorNandWrite geo pattern fuel (loop.pass geo pattern caller count)
      | _ => some loop

/-- A page that reads back as the image. -/
def Page.Intact (image : Bytes) (page : Page) : Prop :=
  ∃ read, page = .programmed read ∧ read.err ≠ .failed ∧ read.full = true ∧ read.image = image

/-- Some page of the device reads back as the image. -/
def HoldsCopy (geo : MtdGeometry) (flash : Flash) (image : Bytes) (blk page : Nat) : Prop :=
  blk < geo.blocks ∧ page < geo.pages ∧ (flash blk page).Intact image

/-- Two intact copies at different pages. -/
def TwoCopies (geo : MtdGeometry) (flash : Flash) (image : Bytes) : Prop :=
  ∃ blk page blk' page', HoldsCopy geo flash image blk page ∧
    HoldsCopy geo flash image blk' page' ∧ (blk, page) ≠ (blk', page')

/-- A pass that erases a block after the first copy was written destroys no copy in it. -/
def SparesCopies (geo : MtdGeometry) (pattern : MediumPattern) (loop : WriteLoop)
    (count : Nat) : Prop :=
  count = 1 → geo.pages ≤ loop.state.nandInfo.pageOffset →
    geo.isBad (loop.entered geo) = false → ∀ page, page < geo.pages →
      (loop.state.flash (loop.entered geo) page).Intact loop.state.gVendor.mem →
      ((mtdErase geo loop.state.flash (loop.entered geo) (pattern.erase loop.erases)).2
        (loop.entered geo) page).Intact loop.state.gVendor.mem

/-- Every pass of the loop spares the copies. -/
def SparedDuring (geo : MtdGeometry) (pattern : MediumPattern) : Nat → WriteLoop → Prop
  | 0, _ => True
  | fuel + 1, loop =>
      match loop.state.pc with
      | .write caller count => SparesCopies geo pattern loop count ∧
          SparedDuring geo pattern fuel (loop.pass geo pattern caller count)
      | _ => True

variable {geo : MtdGeometry} {pattern : MediumPattern} {loop : WriteLoop} {caller : Caller}
  {count : Nat}

/-- A pass is a step of the machine. -/
theorem WriteLoop.mtdStep_pass (geo : MtdGeometry) (pattern : MediumPattern) (loop : WriteLoop)
    (writing : loop.state.pc = .write caller count) :
    mtdStep geo loop.state (.pass (pattern.erase loop.erases) (pattern.write loop.writes)) =
      some (loop.pass geo pattern caller count).state := by
  simp only [mtdStep, writing, WriteLoop.pass]
  split
  · rfl
  · rfl

/-! ## One pass -/

/-- What the loop reads and changes. -/
structure LoopView where
  flash : Flash
  blk : Nat
  page : Nat
  pc : MtdPc
  image : Bytes
  erases : Nat
  writes : Nat

def WriteLoop.view (loop : WriteLoop) : LoopView where
  flash := loop.state.flash
  blk := loop.state.nandInfo.blkOffset
  page := loop.state.nandInfo.pageOffset
  pc := loop.state.pc
  image := loop.state.gVendor.mem
  erases := loop.erases
  writes := loop.writes

/-- Where the loop is after a programming that succeeded. -/
def afterCopy (caller : Caller) (count : Nat) : MtdPc :=
  if count + 1 < 2 then .write caller (count + 1) else .idle

/-- All that a pass can do. -/
inductive Passed (geo : MtdGeometry) (pattern : MediumPattern) (caller : Caller) (count : Nat)
    (view : LoopView) : LoopView → Prop
  | skipped (full : geo.pages ≤ view.page) (bad : geo.isBad (nextBlock geo view.blk) = true) :
      Passed geo pattern caller count view { view with blk := nextBlock geo view.blk }
  | erased (full : geo.pages ≤ view.page) (good : geo.isBad (nextBlock geo view.blk) = false)
      (done : pattern.erase view.erases = .done) :
      Passed geo pattern caller count view
        { view with
          flash := Function.update view.flash (nextBlock geo view.blk) fun _ => .erased
          blk := nextBlock geo view.blk, page := 0, erases := view.erases + 1 }
  | notErased (full : geo.pages ≤ view.page) (good : geo.isBad (nextBlock geo view.blk) = false)
      (left : Nat → Page) (failed : pattern.erase view.erases = .failed left) :
      Passed geo pattern caller count view
        { view with
          flash := Function.update view.flash (nextBlock geo view.blk) left
          blk := nextBlock geo view.blk, erases := view.erases + 1 }
  | written (room : view.page < geo.pages) (inside : view.blk < geo.blocks) (euclean : Bool)
      (done : pattern.write view.writes = .done euclean) :
      Passed geo pattern caller count view
        { view with
          flash := setPage view.flash view.blk view.page (imagePage euclean view.image)
          page := view.page + 1, pc := afterCopy caller count, writes := view.writes + 1 }
  | notWritten (room : view.page < geo.pages) (inside : view.blk < geo.blocks) (left : Page)
      (failed : pattern.write view.writes = .failed left) :
      Passed geo pattern caller count view
        { view with
          flash := setPage view.flash view.blk view.page left
          page := view.page + 1, writes := view.writes + 1 }
  | outside (room : view.page < geo.pages) (outside : geo.blocks ≤ view.blk) :
      Passed geo pattern caller count view
        { view with page := view.page + 1, writes := view.writes + 1 }

theorem nextBlock_lt (positive : 0 < geo.blocks) (blk : Nat) :
    nextBlock geo blk < geo.blocks := by
  unfold nextBlock
  split <;> omega

theorem WriteLoop.pass_room (room : loop.view.page < geo.pages) :
    (loop.pass geo pattern caller count) =
      { loop with
        state := writePage geo loop.state (pattern.write loop.writes) caller count
        writes := loop.writes + 1 } :=
  if_neg (Nat.not_le.mpr room)

theorem WriteLoop.pass_full (full : geo.pages ≤ loop.view.page) :
    (loop.pass geo pattern caller count) =
      { loop with
        state := enterBlock geo loop.state (pattern.erase loop.erases)
        erases := if geo.isBad (loop.entered geo) then loop.erases else loop.erases + 1 } :=
  if_pos full

theorem enterBlock_bad {state : MtdState} {erase : EraseResult}
    (bad : geo.isBad (nextBlock geo state.nandInfo.blkOffset) = true) :
    enterBlock geo state erase = { state with
      nandInfo := { state.nandInfo with
        blkOffset := nextBlock geo state.nandInfo.blkOffset } } :=
  if_pos bad

theorem mtdErase_good (flash : Flash) {blk : Nat} (inside : blk < geo.blocks)
    (good : geo.isBad blk = false) : mtdErase geo flash blk .done =
      (true, Function.update flash blk fun _ => .erased) ∧
    ∀ left, mtdErase geo flash blk (.failed left) = (false, Function.update flash blk left) := by
  simp [mtdErase, inside, good]

theorem enterBlock_done {state : MtdState} (positive : 0 < geo.blocks)
    (good : geo.isBad (nextBlock geo state.nandInfo.blkOffset) = false) :
    enterBlock geo state .done = { state with
      flash := Function.update state.flash (nextBlock geo state.nandInfo.blkOffset)
        fun _ => .erased
      nandInfo := { state.nandInfo with
        blkOffset := nextBlock geo state.nandInfo.blkOffset, pageOffset := 0 } } := by
  have erased := (mtdErase_good state.flash (nextBlock_lt positive _) good).1
  unfold nextBlock at erased good
  simp only [enterBlock, good, erased, nextBlock, Bool.false_eq_true, if_false, if_true]

theorem enterBlock_failed {state : MtdState} (positive : 0 < geo.blocks) (left : Nat → Page)
    (good : geo.isBad (nextBlock geo state.nandInfo.blkOffset) = false) :
    enterBlock geo state (.failed left) = { state with
      flash := Function.update state.flash (nextBlock geo state.nandInfo.blkOffset) left
      nandInfo := { state.nandInfo with
        blkOffset := nextBlock geo state.nandInfo.blkOffset } } := by
  have erased := (mtdErase_good state.flash (nextBlock_lt positive _) good).2 left
  unfold nextBlock at erased good
  simp only [enterBlock, good, erased, nextBlock, Bool.false_eq_true, if_false]

theorem WriteLoop.passed (pattern : MediumPattern) (loop : WriteLoop) (caller : Caller)
    (count : Nat) (positive : 0 < geo.blocks) :
    ∃ view, (loop.pass geo pattern caller count).view = view ∧
      Passed geo pattern caller count loop.view view := by
  refine ⟨_, rfl, ?_⟩
  rcases Nat.lt_or_ge loop.view.page geo.pages with room | full
  · rw [WriteLoop.pass_room room]
    rcases Nat.lt_or_ge loop.view.blk geo.blocks with inside | beyond
    · have inside' : loop.state.nandInfo.blkOffset < geo.blocks := inside
      cases attempt : pattern.write loop.writes with
      | done euclean =>
          convert Passed.written room inside euclean attempt using 1
          unfold WriteLoop.view writePage mtdWrite afterCopy
          simp only [inside', if_true, imagePage, Bool.not_true, Bool.false_eq_true, if_false]
          split
          · rfl
          · rfl
      | failed left =>
          convert Passed.notWritten room inside left attempt using 1
          simp [WriteLoop.view, writePage, mtdWrite, inside']
    · have beyond' : ¬loop.state.nandInfo.blkOffset < geo.blocks := Nat.not_lt.mpr beyond
      convert Passed.outside room beyond using 1
      cases pattern.write loop.writes with
      | done euclean => simp [WriteLoop.view, writePage, mtdWrite, beyond']
      | failed left => simp [WriteLoop.view, writePage, mtdWrite, beyond']
  · rw [WriteLoop.pass_full full]
    cases bad : geo.isBad (nextBlock geo loop.view.blk) with
    | true =>
        have counted : (if geo.isBad (loop.entered geo) then loop.erases else loop.erases + 1) =
            loop.erases := if_pos bad
        convert Passed.skipped full bad using 1
        rw [counted, enterBlock_bad bad]
        rfl
    | false =>
        have counted : (if geo.isBad (loop.entered geo) then loop.erases else loop.erases + 1) =
            loop.erases + 1 := if_neg (Bool.eq_false_iff.mp bad)
        rw [counted]
        cases attempt : pattern.erase loop.erases with
        | done =>
            convert Passed.erased full bad attempt using 1
            rw [enterBlock_done positive bad]
            rfl
        | failed left =>
            convert Passed.notErased full bad left attempt using 1
            rw [enterBlock_failed positive left bad]
            rfl

/-! ## The loop returns -/

/-- One pass as a relation of states that are in the loop. -/
def Passes (geo : MtdGeometry) (pattern : MediumPattern) (loop next : WriteLoop) : Prop :=
  ∃ caller count, loop.view.pc = .write caller count ∧ next = loop.pass geo pattern caller count

/-- In the loop with the cursor inside the device. -/
structure Writing (geo : MtdGeometry) (caller : Caller) (count : Nat) (loop : WriteLoop) :
    Prop where
  pc_eq : loop.view.pc = .write caller count
  inside : loop.view.blk < geo.blocks

theorem Writing.passes (writing : Writing geo caller count loop) :
    Passes geo pattern loop (loop.pass geo pattern caller count) :=
  ⟨caller, count, writing.pc_eq, rfl⟩

theorem Writing.passed (writing : Writing geo caller count loop) (pattern : MediumPattern) :
    ∃ view, (loop.pass geo pattern caller count).view = view ∧
      Passed geo pattern caller count loop.view view :=
  WriteLoop.passed pattern loop caller count (Nat.zero_lt_of_lt writing.inside)

/-- After `distance` further blocks comes a good one. -/
def GoodAfter (geo : MtdGeometry) (distance blk : Nat) : Prop :=
  geo.isBad ((nextBlock geo)^[distance + 1] blk) = false

theorem iterate_nextBlock (positive : 0 < geo.blocks) {blk : Nat} (inside : blk < geo.blocks)
    (n : Nat) : (nextBlock geo)^[n] blk = (blk + n) % geo.blocks := by
  induction n with
  | zero => exact (Nat.mod_eq_of_lt inside).symm
  | succ n ih =>
      rw [Function.iterate_succ_apply', ih, ← Nat.add_assoc, ← Nat.mod_add_mod (blk + n), nextBlock]
      have below := Nat.mod_lt (blk + n) positive
      split
      next last =>
        have wraps : (blk + n) % geo.blocks + 1 = geo.blocks := by omega
        rw [wraps, Nat.mod_self]
      next inner => exact (Nat.mod_eq_of_lt (Nat.not_le.mp inner)).symm

theorem exists_goodAfter {good blk : Nat} (inside : good < geo.blocks)
    (notBad : geo.isBad good = false) (start : blk < geo.blocks) :
    ∃ distance, GoodAfter geo distance blk := by
  refine ⟨geo.blocks - blk + good - 1, ?_⟩
  have lap : blk + (geo.blocks - blk + good - 1 + 1) = good + geo.blocks := by omega
  rw [GoodAfter, iterate_nextBlock (Nat.zero_lt_of_lt inside) start, lap, Nat.add_mod_right,
    Nat.mod_eq_of_lt inside]
  exact notBad

/-- A pass behind the last page of a block skips the next one, or tries to erase it. -/
theorem full_pass (pattern : MediumPattern) (writing : Writing geo caller count loop)
    (full : geo.pages ≤ loop.view.page) :
    let next := loop.pass geo pattern caller count
    Writing geo caller count next ∧ next.view.writes = loop.view.writes ∧
      (next.view.page < geo.pages ∨
        (pattern.erase loop.view.erases ≠ .done ∧ geo.pages ≤ next.view.page ∧
          next.view.erases = loop.view.erases + 1) ∨
        (geo.isBad (nextBlock geo loop.view.blk) = true ∧ geo.pages ≤ next.view.page ∧
          next.view.erases = loop.view.erases ∧
          next.view.blk = nextBlock geo loop.view.blk)) := by
  intro next
  have enters := nextBlock_lt (Nat.zero_lt_of_lt writing.inside) loop.view.blk
  obtain ⟨view, view_eq, passed⟩ := writing.passed pattern
  have stays (blk_eq : view.blk = nextBlock geo loop.view.blk)
      (pc_eq : view.pc = loop.view.pc) : Writing geo caller count next := by
    refine ⟨?_, ?_⟩
    · rw [view_eq, pc_eq, writing.pc_eq]
    · rw [view_eq, blk_eq]
      exact enters
  rw [view_eq]
  cases passed with
  | skipped _ bad => exact ⟨stays rfl rfl, rfl, Or.inr (Or.inr ⟨bad, full, rfl, rfl⟩)⟩
  | erased => exact ⟨stays rfl rfl, rfl, Or.inl geo.pages_pos⟩
  | notErased _ _ left failed =>
      refine ⟨stays rfl rfl, rfl, Or.inr (Or.inl ⟨?_, full, rfl⟩)⟩
      rw [failed]
      exact EraseResult.noConfusion
  | written room => exact absurd full (Nat.not_le.mpr room)
  | notWritten room => exact absurd full (Nat.not_le.mpr room)
  | outside room => exact absurd full (Nat.not_le.mpr room)

/-- Behind the last page of a block the loop comes to erasing a good block. -/
theorem erase_round (pattern : MediumPattern) {distance : Nat}
    (good : GoodAfter geo distance loop.view.blk) (writing : Writing geo caller count loop)
    (full : geo.pages ≤ loop.view.page) :
    ∃ next, ReflTransGen (Passes geo pattern) loop next ∧ Writing geo caller count next ∧
      next.view.writes = loop.view.writes ∧
      (next.view.page < geo.pages ∨ pattern.erase loop.view.erases ≠ .done ∧
        geo.pages ≤ next.view.page ∧ next.view.erases = loop.view.erases + 1) := by
  induction distance generalizing loop with
  | zero =>
      obtain ⟨again, writes_eq, room | tried | ⟨bad, _⟩⟩ := full_pass pattern writing full
      · exact ⟨_, .single writing.passes, again, writes_eq, Or.inl room⟩
      · exact ⟨_, .single writing.passes, again, writes_eq, Or.inr tried⟩
      · have notBad : geo.isBad (nextBlock geo loop.view.blk) = false := good
        rw [bad] at notBad
        cases notBad
  | succ distance ih =>
      obtain ⟨again, writes_eq, room | tried | ⟨_, full', erases_eq, blk_eq⟩⟩ :=
        full_pass pattern writing full
      · exact ⟨_, .single writing.passes, again, writes_eq, Or.inl room⟩
      · exact ⟨_, .single writing.passes, again, writes_eq, Or.inr tried⟩
      · have nearer : GoodAfter geo distance
            (loop.pass geo pattern caller count).view.blk := by
          rw [GoodAfter, blk_eq, ← Function.iterate_succ_apply]
          exact good
        obtain ⟨next, reached, writing', writes_eq', outcome⟩ := ih nearer again full'
        rw [erases_eq] at outcome
        exact ⟨next, reached.head writing.passes, writing', writes_eq'.trans writes_eq, outcome⟩

/-- The loop always comes to a page that it can program, without programming another one. -/
theorem reaches_room (pattern : MediumPattern) (good : ∃ blk < geo.blocks, geo.isBad blk = false)
    (writing : Writing geo caller count loop) :
    ∃ next, ReflTransGen (Passes geo pattern) loop next ∧ Writing geo caller count next ∧
      next.view.writes = loop.view.writes ∧ next.view.page < geo.pages := by
  rcases Nat.lt_or_ge loop.view.page geo.pages with room | full
  · exact ⟨loop, .refl, writing, rfl, room⟩
  · obtain ⟨blk, inside, notBad⟩ := good
    refine (reaches_goal
      (fun state => Writing geo caller count state ∧ state.view.writes = loop.view.writes ∧
        geo.pages ≤ state.view.page)
      (fun state => Writing geo caller count state ∧ state.view.writes = loop.view.writes ∧
        state.view.page < geo.pages)
      (fun state => state.view.erases) pattern.erasesSucceed ?_ ⟨writing, rfl, full⟩)
    rintro state ⟨current, same, full⟩
    obtain ⟨distance, after⟩ := exists_goodAfter inside notBad current.inside
    obtain ⟨next, reached, writing', writes_eq, outcome⟩ := erase_round pattern after current full
    refine ⟨next, reached, outcome.imp (fun room => ⟨writing', writes_eq.trans same, room⟩) ?_⟩
    rintro ⟨fails, full', counted⟩
    exact ⟨fails, ⟨writing', writes_eq.trans same, full'⟩, counted⟩

/-- The loop comes to the end of its next copy. -/
theorem reaches_copy (pattern : MediumPattern) (good : ∃ blk < geo.blocks, geo.isBad blk = false)
    (writing : Writing geo caller count loop) :
    ∃ next, ReflTransGen (Passes geo pattern) loop next ∧
      next.view.pc = afterCopy caller count ∧ next.view.blk < geo.blocks := by
  refine reaches_goal (fun state => Writing geo caller count state)
    (fun state => state.view.pc = afterCopy caller count ∧ state.view.blk < geo.blocks)
    (fun state => state.view.writes) pattern.writesSucceed (fun state current => ?_) writing
  obtain ⟨middle, reached, ready, writes_eq, room⟩ := reaches_room pattern good current
  obtain ⟨view, view_eq, passed⟩ := ready.passed pattern
  refine ⟨_, reached.tail ready.passes, ?_⟩
  rw [view_eq, ← writes_eq]
  cases passed with
  | skipped full => exact absurd full (Nat.not_le.mpr room)
  | erased full => exact absurd full (Nat.not_le.mpr room)
  | notErased full => exact absurd full (Nat.not_le.mpr room)
  | written _ inside => exact Or.inl ⟨rfl, inside⟩
  | notWritten _ inside left failed =>
      refine Or.inr ⟨?_, ⟨?_, ?_⟩, rfl⟩
      · rintro ⟨euclean, done⟩
        rw [failed] at done
        cases done
      · rw [view_eq]
        exact ready.pc_eq
      · rw [view_eq]
        exact inside
  | outside _ outside => exact absurd ready.inside (Nat.not_lt.mpr outside)

/-- A cursor outside the device runs to the end of its block and comes back inside. -/
theorem reaches_inside (pattern : MediumPattern) (positive : 0 < geo.blocks)
    (pc_eq : loop.view.pc = .write caller count) :
    ∃ next, ReflTransGen (Passes geo pattern) loop next ∧ Writing geo caller count next := by
  obtain ⟨left, left_eq⟩ : ∃ left, left = geo.pages - loop.view.page := ⟨_, rfl⟩
  induction left using Nat.strong_induction_on generalizing loop with
  | _ left ih =>
      obtain ⟨view, view_eq, passed⟩ := WriteLoop.passed pattern loop caller count positive
      have step : Passes geo pattern loop (loop.pass geo pattern caller count) :=
        ⟨caller, count, pc_eq, rfl⟩
      have comesInside (same : view.pc = loop.view.pc) (inside : view.blk < geo.blocks) :
          Writing geo caller count (loop.pass geo pattern caller count) := by
        refine ⟨?_, ?_⟩
        · rw [view_eq, same, pc_eq]
        · rw [view_eq]
          exact inside
      cases passed with
      | skipped => exact ⟨_, .single step, comesInside rfl (nextBlock_lt positive _)⟩
      | erased => exact ⟨_, .single step, comesInside rfl (nextBlock_lt positive _)⟩
      | notErased => exact ⟨_, .single step, comesInside rfl (nextBlock_lt positive _)⟩
      | written _ inside => exact ⟨loop, .refl, pc_eq, inside⟩
      | notWritten _ inside => exact ⟨loop, .refl, pc_eq, inside⟩
      | outside room =>
          have page_eq : (loop.pass geo pattern caller count).view.page = loop.view.page + 1 := by
            rw [view_eq]
          obtain ⟨next, reached, writing⟩ :=
            ih (geo.pages - (loop.view.page + 1)) (by omega) (by rw [view_eq]; exact pc_eq)
              (by rw [page_eq])
          exact ⟨next, reached.head step, writing⟩

/-- From anywhere in the loop it returns. -/
theorem reaches_idle (pattern : MediumPattern) (good : ∃ blk < geo.blocks, geo.isBad blk = false)
    (pc_eq : loop.view.pc = .write caller 0) :
    ∃ next, ReflTransGen (Passes geo pattern) loop next ∧ next.view.pc = .idle := by
  obtain ⟨blk, inside, _⟩ := good
  obtain ⟨start, began, writing⟩ :=
    reaches_inside pattern (Nat.zero_lt_of_lt inside) pc_eq
  obtain ⟨first, reached, pc_eq', inside'⟩ := reaches_copy pattern ⟨blk, inside, ‹_›⟩ writing
  obtain ⟨last, reached', pc_eq'', _⟩ :=
    reaches_copy pattern ⟨blk, inside, ‹_›⟩ ⟨pc_eq', inside'⟩
  exact ⟨last, (began.trans reached).trans reached', pc_eq''⟩

/-- Enough fuel brings the loop to where it comes without. -/
theorem mtdVendorNandWrite_of_reaches {final : WriteLoop}
    (reached : ReflTransGen (Passes geo pattern) loop final) (idle : final.view.pc = .idle) :
    ∃ fuel, mtdVendorNandWrite geo pattern fuel loop = some final := by
  induction reached using ReflTransGen.head_induction_on with
  | refl =>
      have idle' : final.state.pc = .idle := idle
      exact ⟨1, by simp only [mtdVendorNandWrite, idle']⟩
  | head step _ ih =>
      obtain ⟨caller, count, pc_eq, rfl⟩ := step
      obtain ⟨fuel, returned⟩ := ih
      refine ⟨fuel + 1, ?_⟩
      rw [mtdVendorNandWrite]
      split
      next caller' count' writing =>
        obtain ⟨rfl, rfl⟩ := MtdPc.write.inj (pc_eq.symm.trans writing)
        exact returned
      next other => exact absurd pc_eq (other caller count)

/-! ## The copies -/

theorem intact_imagePage (euclean : Bool) (image : Bytes) :
    (imagePage euclean image).Intact image := by
  refine ⟨_, rfl, ?_, rfl, rfl⟩
  cases euclean <;> exact MtdErr.noConfusion

theorem not_intact_erased (image : Bytes) : ¬Page.erased.Intact image := by
  rintro ⟨_, programmed, _⟩
  cases programmed

/-- The first copy is behind the cursor or in another block. -/
structure FirstCopy (geo : MtdGeometry) (view : LoopView) (blk page : Nat) : Prop where
  holds : HoldsCopy geo view.flash view.image blk page
  behind : blk ≠ view.blk ∨ page < view.page

/-- What a pass has to keep: a first copy once one is counted. -/
def CopiesInv (geo : MtdGeometry) (view : LoopView) : MtdPc → Prop
  | .write _ 0 => True
  | .write _ 1 => ∃ blk page, FirstCopy geo view blk page
  | .write _ _ => False
  | .idle => TwoCopies geo view.flash view.image
  | _ => False

variable {flash : Flash} {image : Bytes} {blk page : Nat}

theorem HoldsCopy.setPage {b p : Nat} {value : Page} (holds : HoldsCopy geo flash image b p)
    (other : b ≠ blk ∨ p ≠ page) : HoldsCopy geo (setPage flash blk page value) image b p := by
  refine ⟨holds.1, holds.2.1, ?_⟩
  rcases Classical.em (b = blk) with rfl | ne
  · rw [setPage_of_ne_page (other.resolve_left fun ne => ne rfl)]
    exact holds.2.2
  · rw [setPage_of_ne_block ne]
    exact holds.2.2

theorem HoldsCopy.update {b p : Nat} {pages : Nat → Page} (holds : HoldsCopy geo flash image b p)
    (other : b ≠ blk) : HoldsCopy geo (Function.update flash blk pages) image b p := by
  refine ⟨holds.1, holds.2.1, ?_⟩
  rw [Function.update_of_ne other]
  exact holds.2.2

theorem holdsCopy_written (euclean : Bool) (inside : blk < geo.blocks) (room : page < geo.pages) :
    HoldsCopy geo (setPage flash blk page (imagePage euclean image)) image blk page := by
  refine ⟨inside, room, ?_⟩
  rw [setPage_self]
  exact intact_imagePage euclean image

theorem Passed.image_eq {view next : LoopView}
    (passed : Passed geo pattern caller count view next) : next.image = view.image := by
  cases passed <;> rfl

theorem sparesCopies_view : SparesCopies geo pattern loop count ↔
    (count = 1 → geo.pages ≤ loop.view.page → geo.isBad (nextBlock geo loop.view.blk) = false →
      ∀ page, page < geo.pages →
        (loop.view.flash (nextBlock geo loop.view.blk) page).Intact loop.view.image →
        ((mtdErase geo loop.view.flash (nextBlock geo loop.view.blk)
          (pattern.erase loop.view.erases)).2 (nextBlock geo loop.view.blk) page).Intact
            loop.view.image) :=
  Iff.rfl

/-- A pass that spares the copies keeps the first one. -/
theorem CopiesInv.pass (positive : 0 < geo.blocks) (pc_eq : loop.view.pc = .write caller count)
    (inv : CopiesInv geo loop.view (.write caller count))
    (spared : SparesCopies geo pattern loop count) :
    CopiesInv geo (loop.pass geo pattern caller count).view
      (loop.pass geo pattern caller count).view.pc := by
  obtain ⟨view, view_eq, passed⟩ := WriteLoop.passed pattern loop caller count positive
  have enters := nextBlock_lt positive loop.view.blk
  have spares := sparesCopies_view.mp spared
  rw [view_eq]
  match count, inv with
  | 0, _ =>
      cases passed with
      | written room inside euclean =>
          exact ⟨_, _, holdsCopy_written euclean inside room, Or.inr (Nat.lt_succ_self _)⟩
      | _ =>
          simp only [pc_eq]
          trivial
  | 1, ⟨b, p, holds, behind⟩ =>
      have apart : b ≠ loop.view.blk ∨ p ≠ loop.view.page := behind.imp id Nat.ne_of_lt
      cases passed with
      | skipped full =>
          simp only [pc_eq]
          exact ⟨b, p, holds, Or.inr (Nat.lt_of_lt_of_le holds.2.1 full)⟩
      | erased full good done =>
          simp only [pc_eq]
          have other : b ≠ nextBlock geo loop.view.blk := by
            rintro rfl
            have kept := spares rfl full good p holds.2.1 holds.2.2
            rw [done, (mtdErase_good _ enters good).1] at kept
            simp only [Function.update_self] at kept
            exact not_intact_erased _ kept
          exact ⟨b, p, holds.update other, Or.inl other⟩
      | notErased full good left failed =>
          simp only [pc_eq]
          refine ⟨b, p, ?_, Or.inr (Nat.lt_of_lt_of_le holds.2.1 full)⟩
          rcases Classical.em (b = nextBlock geo loop.view.blk) with rfl | other
          · have kept := spares rfl full good p holds.2.1 holds.2.2
            rw [failed, (mtdErase_good _ enters good).2 left] at kept
            exact ⟨enters, holds.2.1, kept⟩
          · exact holds.update other
      | written room inside euclean =>
          refine ⟨b, p, _, _, holds.setPage apart, holdsCopy_written euclean inside room, ?_⟩
          rintro ⟨⟩
          exact apart.elim (fun ne => ne rfl) fun ne => ne rfl
      | notWritten room inside left =>
          simp only [pc_eq]
          exact ⟨b, p, holds.setPage apart, behind.imp id Nat.lt_succ_of_lt⟩
      | outside =>
          simp only [pc_eq]
          exact ⟨b, p, holds, behind.imp id Nat.lt_succ_of_lt⟩

/-- The loop does not touch the image. -/
theorem image_of_returned {final : WriteLoop} {fuel : Nat} (positive : 0 < geo.blocks)
    (returned : mtdVendorNandWrite geo pattern fuel loop = some final) :
    final.view.image = loop.view.image := by
  induction fuel generalizing loop with
  | zero => cases returned
  | succ fuel ih =>
      rw [mtdVendorNandWrite] at returned
      split at returned
      next caller count _ =>
        obtain ⟨view, view_eq, passed⟩ := WriteLoop.passed pattern loop caller count positive
        rw [ih returned, view_eq]
        exact passed.image_eq
      next =>
        obtain rfl := Option.some.inj returned
        rfl

/-- A call whose passes spare the copies keeps its first one until it has the second. -/
theorem CopiesInv.run {final : WriteLoop} {fuel : Nat} (positive : 0 < geo.blocks)
    (inv : CopiesInv geo loop.view loop.view.pc)
    (spared : SparedDuring geo pattern fuel loop)
    (returned : mtdVendorNandWrite geo pattern fuel loop = some final) :
    CopiesInv geo final.view final.view.pc := by
  induction fuel generalizing loop with
  | zero => cases returned
  | succ fuel ih =>
      rw [mtdVendorNandWrite] at returned
      rw [SparedDuring] at spared
      split at returned
      next caller count writing =>
        have pc_eq : loop.view.pc = .write caller count := writing
        simp only [writing] at spared
        rw [pc_eq] at inv
        exact ih (inv.pass positive pc_eq spared.1) spared.2 returned
      next =>
        obtain rfl := Option.some.inj returned
        exact inv

/-! ## Without luck -/

/-- The pages that hold a copy. -/
def copies (geo : MtdGeometry) (view : LoopView) : Set (Nat × Nat) :=
  {place | HoldsCopy geo view.flash view.image place.1 place.2}

/-- A failed attempt leaves no copy of the image behind. -/
structure MediumPattern.LeavesNoCopy (pattern : MediumPattern) (image : Bytes) : Prop where
  write : ∀ n left, pattern.write n = .failed left → ¬left.Intact image
  erase : ∀ n left, pattern.erase n = .failed left → ∀ page, ¬(left page).Intact image

theorem not_twoCopies {view : LoopView} (one : (copies geo view).Subsingleton) :
    ¬TwoCopies geo view.flash view.image := by
  rintro ⟨blk, page, blk', page', holds, holds', ne⟩
  exact ne (one (show (blk, page) ∈ copies geo view from holds)
    (show (blk', page') ∈ copies geo view from holds'))

theorem mem_copies_of_update {view : LoopView} {pages : Nat → Page} {b p : Nat}
    (none : ∀ page, ¬(pages page).Intact view.image)
    (holds : HoldsCopy geo (Function.update view.flash blk pages) view.image b p) :
    (b, p) ∈ copies geo view ∧ b ≠ blk := by
  obtain ⟨inside, room, intact⟩ := holds
  rcases Classical.em (b = blk) with rfl | ne
  · rw [Function.update_self] at intact
    exact absurd intact (none p)
  · rw [Function.update_of_ne ne] at intact
    exact ⟨⟨inside, room, intact⟩, ne⟩

theorem mem_copies_of_setPage {view : LoopView} {value : Page} {b p : Nat}
    (holds : HoldsCopy geo (setPage view.flash blk page value) view.image b p) :
    (b, p) ∈ copies geo view ∨ (b, p) = (blk, page) ∧ value.Intact view.image := by
  obtain ⟨inside, room, intact⟩ := holds
  rcases Classical.em (b = blk) with rfl | ne
  · rcases Classical.em (p = page) with rfl | ne
    · rw [setPage_self] at intact
      exact Or.inr ⟨rfl, intact⟩
    · rw [setPage_of_ne_page ne] at intact
      exact Or.inl ⟨inside, room, intact⟩
  · rw [setPage_of_ne_block ne] at intact
    exact Or.inl ⟨inside, room, intact⟩

/-- Only a programming that succeeds adds a copy, and erasing a block destroys those in it. -/
theorem Passed.copies_subset {view next : LoopView} (noCopy : pattern.LeavesNoCopy view.image)
    (passed : Passed geo pattern caller count view next) :
    (next.pc = view.pc ∧ copies geo next ⊆ copies geo view ∧
      (geo.pages ≤ view.page → geo.isBad (nextBlock geo view.blk) = false →
        ∀ place ∈ copies geo next, place.1 ≠ nextBlock geo view.blk)) ∨
    (view.page < geo.pages ∧ next.pc = afterCopy caller count ∧
      copies geo next ⊆ insert (view.blk, view.page) (copies geo view)) := by
  cases passed with
  | skipped _ bad =>
      refine Or.inl ⟨rfl, fun place held => held, fun _ good => ?_⟩
      rw [bad] at good
      cases good
  | erased =>
      have none : ∀ page : Nat, ¬Page.erased.Intact view.image := fun _ =>
        not_intact_erased view.image
      exact Or.inl ⟨rfl, fun place held => (mem_copies_of_update none held).1,
        fun _ _ place held => (mem_copies_of_update none held).2⟩
  | notErased _ _ left failed =>
      have none := noCopy.erase _ _ failed
      exact Or.inl ⟨rfl, fun place held => (mem_copies_of_update none held).1,
        fun _ _ place held => (mem_copies_of_update none held).2⟩
  | written room =>
      refine Or.inr ⟨room, rfl, fun place held => ?_⟩
      rcases mem_copies_of_setPage held with old | ⟨new, _⟩
      · exact Or.inr old
      · exact Or.inl new
  | notWritten room _ left failed =>
      refine Or.inl ⟨rfl, fun place held => ?_, fun full => absurd full (Nat.not_le.mpr room)⟩
      rcases mem_copies_of_setPage held with old | ⟨_, intact⟩
      · exact old
      · exact absurd intact (noCopy.write _ _ failed)
  | outside room =>
      exact Or.inl ⟨rfl, fun place held => held,
        fun full => absurd full (Nat.not_le.mpr room)⟩

/-- A pass that does not spare the copies destroys the only one. -/
theorem copies_eq_empty_of_not_spared (caller : Caller)
    (noCopy : pattern.LeavesNoCopy loop.view.image) (positive : 0 < geo.blocks)
    (one : (copies geo loop.view).Subsingleton)
    (destroyed : ¬SparesCopies geo pattern loop count) :
    count = 1 ∧ copies geo (loop.pass geo pattern caller count).view = ∅ ∧
      (loop.pass geo pattern caller count).view.pc = loop.view.pc := by
  obtain ⟨view, view_eq, passed⟩ := WriteLoop.passed pattern loop caller count positive
  simp only [sparesCopies_view, Classical.not_imp, not_forall] at destroyed
  obtain ⟨counted, full, good, p, room, intact, _⟩ := destroyed
  have enters := nextBlock_lt positive loop.view.blk
  rw [view_eq]
  rcases passed.copies_subset noCopy with ⟨pc_eq, subset, none⟩ | ⟨before, _⟩
  · refine ⟨counted, Set.eq_empty_iff_forall_notMem.mpr fun place held => ?_, pc_eq⟩
    have same : place = (nextBlock geo loop.view.blk, p) :=
      one (subset held) ⟨enters, room, intact⟩
    exact none full good place held (same ▸ rfl)
  · exact absurd full (Nat.not_le.mpr before)

/-- A call that has lost its first copy. -/
def LostInv (geo : MtdGeometry) (view : LoopView) : MtdPc → Prop
  | .write _ 1 => copies geo view = ∅
  | .idle => (copies geo view).Subsingleton
  | _ => False

/-- A call that has lost its first copy returns with one. -/
theorem LostInv.run {final : WriteLoop} {fuel : Nat} (positive : 0 < geo.blocks)
    (noCopy : pattern.LeavesNoCopy loop.view.image) (inv : LostInv geo loop.view loop.view.pc)
    (returned : mtdVendorNandWrite geo pattern fuel loop = some final) :
    (copies geo final.view).Subsingleton := by
  induction fuel generalizing loop with
  | zero => cases returned
  | succ fuel ih =>
      rw [mtdVendorNandWrite] at returned
      split at returned
      next caller count writing =>
        have pc_eq : loop.view.pc = .write caller count := writing
        rw [pc_eq] at inv
        obtain ⟨view, view_eq, passed⟩ := WriteLoop.passed pattern loop caller count positive
        match count, inv with
        | 1, lost =>
            refine ih ?_ ?_ returned
            · rw [view_eq, passed.image_eq]
              exact noCopy
            · rw [view_eq]
              rcases passed.copies_subset noCopy with ⟨same, subset, _⟩ | ⟨_, done, subset⟩
              · rw [same, pc_eq]
                exact Set.subset_eq_empty subset lost
              · rw [done]
                rw [lost, insert_empty_eq] at subset
                exact Set.subsingleton_singleton.anti subset
      next other =>
        obtain rfl := Option.some.inj returned
        match pc_eq : loop.view.pc, inv with
        | .write caller count, _ => exact absurd pc_eq (other caller count)
        | .idle, one => exact one

/-- What holds of a call that still has its copies. -/
def CountedInv (geo : MtdGeometry) (view : LoopView) : MtdPc → Prop
  | .write _ 0 => copies geo view = ∅
  | .write _ 1 => (copies geo view).Subsingleton
  | .idle => True
  | _ => False

/-- A call that returns with two copies has spared them. -/
theorem CountedInv.run {final : WriteLoop} {fuel : Nat} (positive : 0 < geo.blocks)
    (noCopy : pattern.LeavesNoCopy loop.view.image)
    (inv : CountedInv geo loop.view loop.view.pc)
    (returned : mtdVendorNandWrite geo pattern fuel loop = some final)
    (two : TwoCopies geo final.view.flash final.view.image) :
    SparedDuring geo pattern fuel loop := by
  induction fuel generalizing loop with
  | zero => cases returned
  | succ fuel ih =>
      rw [mtdVendorNandWrite] at returned
      rw [SparedDuring]
      split
      next caller count writing =>
        have pc_eq : loop.view.pc = .write caller count := writing
        rw [pc_eq] at inv
        simp only [writing] at returned
        obtain ⟨view, view_eq, passed⟩ := WriteLoop.passed pattern loop caller count positive
        have noCopy' : pattern.LeavesNoCopy
            (loop.pass geo pattern caller count).view.image := by
          rw [view_eq, passed.image_eq]
          exact noCopy
        match count, inv with
        | 0, clean =>
            have spared : SparesCopies geo pattern loop 0 := fun one => absurd one Nat.zero_ne_one
            refine ⟨spared, ih noCopy' ?_ returned⟩
            rw [view_eq]
            rcases passed.copies_subset noCopy with ⟨same, subset, _⟩ | ⟨_, done, subset⟩
            · rw [same, pc_eq]
              exact Set.subset_eq_empty subset clean
            · rw [done]
              rw [clean, insert_empty_eq] at subset
              exact Set.subsingleton_singleton.anti subset
        | 1, one =>
            have spared : SparesCopies geo pattern loop 1 := by
              by_contra destroyed
              obtain ⟨_, lost, same⟩ :=
                copies_eq_empty_of_not_spared caller noCopy positive one destroyed
              refine not_twoCopies (LostInv.run positive noCopy' ?_ returned) two
              rw [same, pc_eq]
              exact lost
            refine ⟨spared, ih noCopy' ?_ returned⟩
            rw [view_eq]
            rcases passed.copies_subset noCopy with ⟨same, subset, _⟩ | ⟨_, done, _⟩
            · rw [same, pc_eq]
              exact one.anti subset
            · rw [done]
              trivial
      next => trivial

/-- Two blocks of two pages, the second of them bad. -/
def oneGoodBlock : MtdGeometry where
  blocks := 2
  pages := 2
  isBad := fun blk => blk == 1
  pages_pos := by decide

/-- A medium on which every attempt succeeds. -/
def healthyMedium : MediumPattern where
  erase := fun _ => .done
  write := fun _ => .done false
  erasesSucceed := fun n => ⟨n, Nat.le_refl n, rfl⟩
  writesSucceed := fun n => ⟨n, Nat.le_refl n, false, rfl⟩

/-- A call with the cursor at the last page of the good block, on an erased flash. -/
def lastPageCall : WriteLoop where
  state := {
    flash := fun _ _ => .erased
    nandInfo := ⟨0, 1, 7⟩
    gVendor := ⟨fun _ => 0, false⟩
    pc := .write .vendorWrite 0
    returned := none
    reprogrammed := false }
  erases := 0
  writes := 0

end VendorStorage
end RockchipSoc
