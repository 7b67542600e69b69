import RockchipSoc.Foundation.LabelledRun
import RockchipSoc.Foundation.Ledger
import RockchipSoc.SystemMonitor.VideoStatus

/-!
# Concurrent announcements of videos

Each call that takes a video back enters the mutex twice: once to find the entry of the list, and
once to unlink it, after which the entry is freed.  In between, only the call itself knows that it
has found the entry.
-/

namespace RockchipSoc
namespace SystemMonitor

open LabelledRun Ledger

/-- A `struct video_info` in memory; the addresses are the numbers of the allocations. -/
structure VideoEntry where
  addr : ℕ
  info : VideoInfo
  deriving DecidableEq, Repr

/-- Where a writer is: outside of a call, between the sections of `rockchip_find_video_info` and
`rockchip_del_video_info`, or before that of `rockchip_update_video_info`. -/
inductive WriterPc
  | idle
  | found (video : VideoEntry)
  | changed
  deriving DecidableEq, Repr

/-- The list and the writers, how often each entry was unlinked and freed, whether a freed entry
was used, and how many entries each call that found one removed. -/
structure VideoWriters where
  videoInfoList : List VideoEntry
  allocated : ℕ
  pc : ℕ → WriterPc
  removed : ℕ → ℕ
  usedAfterFree : Bool
  removals : List ℕ

/-- One section of one writer.  A string without five values leads to none. -/
inductive VideoSection
  | find (writer : ℕ) (buf : List Char)
  | del (writer : ℕ)
  | add (writer : ℕ) (buf : List Char)
  | update (writer : ℕ)

namespace VideoWriters

variable (state : VideoWriters)

def start : VideoWriters := ⟨[], 0, fun _ => .idle, fun _ => 0, false, []⟩

/-- The entries are dereferenced. -/
def touch (entries : List VideoEntry) : VideoWriters :=
  { state with
    usedAfterFree := state.usedAfterFree || entries.any fun entry => state.removed entry.addr ≠ 0 }

def goto (writer : ℕ) (pc : WriterPc) : VideoWriters :=
  { state with pc := Function.update state.pc writer pc }

/-- The walk of `rockchip_find_video_info`. -/
def findVideo (info : VideoInfo) : Option VideoEntry :=
  state.videoInfoList.find? fun entry => entry.info = info

def rockchipFindVideoInfo (writer : ℕ) (info : VideoInfo) : VideoWriters :=
  match state.findVideo info with
  | some video => (state.touch state.videoInfoList).goto writer (.found video)
  | none => state.touch state.videoInfoList

/-- `kzalloc` and `rockchip_add_video_info`. -/
def rockchipAddVideoInfo (writer : ℕ) (info : VideoInfo) : VideoWriters :=
  { state with
    videoInfoList := ⟨state.allocated, info⟩ :: state.videoInfoList
    allocated := state.allocated + 1
    pc := Function.update state.pc writer .changed }

/-- `list_del` and `kfree`. -/
def rockchipDelVideoInfo (writer : ℕ) (video : VideoEntry) : VideoWriters :=
  { state.touch [video] with
    videoInfoList := state.videoInfoList.erase video
    pc := Function.update state.pc writer .changed
    removed := Function.update state.removed video.addr (state.removed video.addr + 1)
    removals :=
      (state.videoInfoList.length - (state.videoInfoList.erase video).length) :: state.removals }

/-- The walk of `rockchip_update_video_info`; the status word is not part of the section. -/
def rockchipUpdateVideoInfo (writer : ℕ) : VideoWriters :=
  (state.touch state.videoInfoList).goto writer .idle

/-- The next section of a writer, when it is one of a call of `rockchip_update_system_status`. -/
def step (state : VideoWriters) : VideoSection → Option VideoWriters
  | .find writer buf =>
      if state.pc writer = .idle ∧ buf.head? = some '0' then
        (rockchipParseVideoInfo buf).map (state.rockchipFindVideoInfo writer)
      else none
  | .del writer =>
      match state.pc writer with
      | .found video => some (state.rockchipDelVideoInfo writer video)
      | _ => none
  | .add writer buf =>
      if state.pc writer = .idle ∧ buf.head? = some '1' then
        (rockchipParseVideoInfo buf).map (state.rockchipAddVideoInfo writer)
      else none
  | .update writer =>
      if state.pc writer = .changed then some (state.rockchipUpdateVideoInfo writer) else none

/-- Each entry is unlinked and freed at most once and not used any more, and each call that found
an entry removed one. -/
structure FreedOnce : Prop where
  once : ∀ addr, state.removed addr ≤ 1
  unused : state.usedAfterFree = false
  removes_one : ∀ removal ∈ state.removals, removal = 1

/-- A call does not find an entry that another call has found and not yet deleted. -/
def FindsUnclaimed (state : VideoWriters) : VideoSection → Prop
  | .find _ buf => ∀ info ∈ rockchipParseVideoInfo buf, ∀ video ∈ state.findVideo info,
      ∀ other, state.pc other ≠ .found video
  | _ => True

/-! ### The books -/

/-- What the writers have found is in the list, and each entry was found by one of them. -/
structure Claims (videoInfoList : List VideoEntry) (pc : ℕ → WriterPc) : Prop where
  linked : ∀ writer video, pc writer = .found video → video ∈ videoInfoList
  single : ∀ writer other video, pc writer = .found video → pc other = .found video →
    writer = other

/-- Each entry is in the list until it is freed. -/
structure Booked : Prop extends Claims state.videoInfoList state.pc where
  balanced : Balanced (fun addr => if addr < state.allocated then 1 else 0) state.removed
    (state.videoInfoList.map VideoEntry.addr)
  unused : state.usedAfterFree = false
  removes_one : ∀ removal ∈ state.removals, removal = 1

variable {state next : VideoWriters} {writer : ℕ} {video : VideoEntry} {info : VideoInfo}
  {videoInfoList : List VideoEntry} {pc : ℕ → WriterPc} {place : WriterPc}

@[simp] theorem goto_pc : (state.goto writer place).pc = Function.update state.pc writer place :=
  rfl

@[simp] theorem del_pc : (state.rockchipDelVideoInfo writer video).pc =
    Function.update state.pc writer .changed := rfl

@[simp] theorem del_removed : (state.rockchipDelVideoInfo writer video).removed =
    Function.update state.removed video.addr (state.removed video.addr + 1) := rfl

/-- A writer goes to a place without an entry, and the entry it had may leave the list. -/
theorem Claims.release (claims : Claims videoInfoList pc) {rest : List VideoEntry}
    (free : ∀ video, place ≠ .found video)
    (kept : ∀ video ∈ videoInfoList, pc writer ≠ .found video → video ∈ rest) :
    Claims rest (Function.update pc writer place) where
  linked := fun other video holds => by
    by_cases same : other = writer
    · rw [same, Function.update_self] at holds
      exact absurd holds (free video)
    · rw [Function.update_of_ne same] at holds
      refine kept video (claims.linked other video holds) fun mine => ?_
      exact same (claims.single other writer video holds mine)
  single := fun first second video holds holds' => by
    have not_writer {other : ℕ} (at_found : Function.update pc writer place other = .found video) :
        pc other = .found video := by
      by_cases same : other = writer
      · rw [same, Function.update_self] at at_found
        exact absurd at_found (free video)
      · rwa [Function.update_of_ne same] at at_found
    exact claims.single first second video (not_writer holds) (not_writer holds')

/-- A writer finds an entry that nobody else has found. -/
theorem Claims.claim (claims : Claims videoInfoList pc) (member : video ∈ videoInfoList)
    (unclaimed : ∀ other, pc other ≠ .found video) :
    Claims videoInfoList (Function.update pc writer (.found video)) where
  linked := fun other found holds => by
    by_cases same : other = writer
    · rw [same, Function.update_self] at holds
      exact WriterPc.found.inj holds ▸ member
    · rw [Function.update_of_ne same] at holds
      exact claims.linked other found holds
  single := fun first second found holds holds' => by
    by_cases same : first = writer <;> by_cases same' : second = writer
    · exact same.trans same'.symm
    · rw [same, Function.update_self] at holds
      rw [Function.update_of_ne same', ← WriterPc.found.inj holds] at holds'
      exact absurd holds' (unclaimed second)
    · rw [same', Function.update_self] at holds'
      rw [Function.update_of_ne same, ← WriterPc.found.inj holds'] at holds
      exact absurd holds (unclaimed first)
    · rw [Function.update_of_ne same] at holds
      rw [Function.update_of_ne same'] at holds'
      exact claims.single first second found holds holds'

theorem booked_start : start.Booked where
  linked := fun _ _ holds => WriterPc.noConfusion holds
  single := fun _ _ _ holds => WriterPc.noConfusion holds
  balanced := balanced_nil
  unused := rfl
  removes_one := fun _ member => absurd member List.not_mem_nil

theorem Booked.once (booked : state.Booked) (addr : ℕ) : state.removed addr ≤ 1 := by
  have conserved := booked.balanced.conserved addr
  split at conserved <;> omega

theorem Booked.freedOnce (booked : state.Booked) : state.FreedOnce :=
  ⟨booked.once, booked.unused, booked.removes_one⟩

/-- What is in the list has not been freed. -/
theorem Booked.live (booked : state.Booked) (member : video ∈ state.videoInfoList) :
    state.removed video.addr = 0 := by
  have conserved := booked.balanced.conserved video.addr
  have counted := List.count_pos_iff.mpr (List.mem_map_of_mem (f := VideoEntry.addr) member)
  split at conserved <;> omega

/-- To dereference entries of the list changes nothing. -/
theorem Booked.touch_eq (booked : state.Booked) {entries : List VideoEntry}
    (within : ∀ video ∈ entries, video ∈ state.videoInfoList) : state.touch entries = state := by
  have none_freed : (entries.any fun entry => state.removed entry.addr ≠ 0) = false :=
    List.any_eq_false.mpr fun video member => by simp [booked.live (within video member)]
  rw [touch, none_freed, Bool.or_false]

theorem Booked.touch_list (booked : state.Booked) :
    state.touch state.videoInfoList = state :=
  booked.touch_eq fun _ member => member

theorem Booked.find (booked : state.Booked)
    (unclaimed : ∀ video ∈ state.findVideo info, ∀ other, state.pc other ≠ .found video) :
    (state.rockchipFindVideoInfo writer info).Booked := by
  rw [rockchipFindVideoInfo, booked.touch_list]
  split
  · rename_i video found
    exact { booked with
      toClaims := booked.toClaims.claim (List.mem_of_find?_eq_some found) (unclaimed video found) }
  · exact booked

theorem Booked.add (booked : state.Booked) :
    (state.rockchipAddVideoInfo writer info).Booked where
  toClaims := booked.toClaims.release (fun _ => WriterPc.noConfusion)
    fun _ member _ => List.mem_cons_of_mem _ member
  balanced := by
    have fresh : state.allocated ∉ state.videoInfoList.map VideoEntry.addr := by
      have conserved := booked.balanced.conserved state.allocated
      rw [if_neg (Nat.lt_irrefl _)] at conserved
      exact List.count_eq_zero.mp (by omega)
    have counted : Function.update (fun addr => if addr < state.allocated then 1 else 0)
        state.allocated ((if state.allocated < state.allocated then 1 else 0) + 1) =
          fun addr => if addr < state.allocated + 1 then 1 else 0 := by
      funext addr
      by_cases same : addr = state.allocated
      · simp [same]
      · rw [Function.update_of_ne same]
        exact if_congr (by omega) rfl rfl
    exact counted ▸ booked.balanced.take fresh
  unused := booked.unused
  removes_one := booked.removes_one

theorem Booked.del (booked : state.Booked) (holds : state.pc writer = .found video) :
    (state.rockchipDelVideoInfo writer video).Booked := by
  have member := booked.linked writer video holds
  have touched : state.touch [video] = state :=
    booked.touch_eq fun _ single => List.mem_singleton.mp single ▸ member
  rw [rockchipDelVideoInfo, touched]
  exact
    { toClaims := booked.toClaims.release (fun _ => WriterPc.noConfusion) fun other linked mine =>
        (List.mem_erase_of_ne fun same : other = video => mine (by rw [holds, same])).mpr linked
      balanced := (booked.balanced.perm ((List.perm_cons_erase member).map _)).give
      unused := booked.unused
      removes_one := fun removal counted => by
        rcases List.mem_cons.mp counted with rfl | earlier
        · have length := List.length_erase_of_mem member
          have pos := List.length_pos_of_mem member
          omega
        · exact booked.removes_one removal earlier }

theorem Booked.update (booked : state.Booked) :
    (state.rockchipUpdateVideoInfo writer).Booked := by
  rw [rockchipUpdateVideoInfo, booked.touch_list]
  exact { booked with
    toClaims := booked.toClaims.release (fun _ => WriterPc.noConfusion) fun _ member _ => member }

/-- A section that finds nothing claimed keeps the books. -/
theorem Booked.step (booked : state.Booked) {next_section : VideoSection}
    (unclaimed : FindsUnclaimed state next_section)
    (taken : VideoWriters.step state next_section = some next) : next.Booked := by
  cases next_section with
  | find writer buf =>
      obtain ⟨-, parsed⟩ := Option.ite_none_right_eq_some.mp taken
      obtain ⟨info, values, rfl⟩ := Option.map_eq_some_iff.mp parsed
      exact booked.find (unclaimed info values)
  | del writer =>
      rw [VideoWriters.step] at taken
      split at taken
      · rename_i video holds
        cases taken
        exact booked.del holds
      · cases taken
  | add writer buf =>
      obtain ⟨-, parsed⟩ := Option.ite_none_right_eq_some.mp taken
      obtain ⟨info, -, rfl⟩ := Option.map_eq_some_iff.mp parsed
      exact booked.add
  | update writer =>
      obtain ⟨-, same⟩ := Option.ite_none_right_eq_some.mp taken
      cases same
      exact booked.update

/-- As long as no call finds an entry that another call has found and not yet deleted, each entry
is unlinked and freed once at most. -/
theorem video_infos_freed_once {final : VideoWriters}
    (reach : Reaches VideoWriters.step FindsUnclaimed start final) : final.FreedOnce :=
  have booked : final.Booked :=
    reach.invariant (fun _ _ _ booked unclaimed taken => booked.step unclaimed taken) booked_start
  booked.freedOnce

/-! ### A call that runs alone -/

theorem step_find {buf : List Char} (idle : state.pc writer = .idle) (head : buf.head? = some '0')
    (values : rockchipParseVideoInfo buf = some info) :
    state.step (.find writer buf) = some (state.rockchipFindVideoInfo writer info) := by
  rw [VideoWriters.step, if_pos ⟨idle, head⟩, values, Option.map_some]

theorem step_add {buf : List Char} (idle : state.pc writer = .idle) (head : buf.head? = some '1')
    (values : rockchipParseVideoInfo buf = some info) :
    state.step (.add writer buf) = some (state.rockchipAddVideoInfo writer info) := by
  rw [VideoWriters.step, if_pos ⟨idle, head⟩, values, Option.map_some]

theorem step_del (holds : state.pc writer = .found video) :
    state.step (.del writer) = some (state.rockchipDelVideoInfo writer video) := by
  rw [VideoWriters.step, holds]

theorem map_info_erase {entries : List VideoEntry}
    (found : (entries.find? fun entry => entry.info = info) = some video) :
    (entries.erase video).map VideoEntry.info = (entries.map VideoEntry.info).erase info := by
  induction entries with
  | nil => cases found
  | cons entry entries ih =>
      by_cases first : entry.info = info
      · rw [List.find?_cons_of_pos (by simpa using first)] at found
        cases found
        rw [List.erase_cons_head, List.map_cons, first, List.erase_cons_head]
      · rw [List.find?_cons_of_neg (by simpa using first)] at found
        have values : video.info = info := by simpa using List.find?_some found
        have other : entry ≠ video := by
          rintro rfl
          exact first values
        rw [List.erase_cons_tail (by simpa using other), List.map_cons, List.map_cons, ih found,
          List.erase_cons_tail (by simpa using first)]

/-- Two sections in a row take the video from the list as the call does. -/
theorem clear_alone {sys : SystemStatus} {buf : List Char} (head : buf.head? = some '0')
    (idle : state.pc writer = .idle) (values : rockchipParseVideoInfo buf = some info)
    (found : state.findVideo info = some video)
    (same : sys.videoInfoList = state.videoInfoList.map VideoEntry.info) :
    ∃ next, runs VideoWriters.step state [.find writer buf, .del writer] = some next ∧
      next.videoInfoList.map VideoEntry.info =
        (rockchipUpdateSystemStatus sys buf).videoInfoList := by
  obtain ⟨rest, rfl⟩ := List.head?_eq_some_iff.mp head
  have between : state.rockchipFindVideoInfo writer info =
      (state.touch state.videoInfoList).goto writer (.found video) := by
    rw [rockchipFindVideoInfo, found]
  have holds : (state.rockchipFindVideoInfo writer info).pc writer = .found video := by
    rw [between, goto_pc, Function.update_self]
  have listed : SystemMonitor.rockchipFindVideoInfo sys ('0' :: rest) = some info := by
    have member : info ∈ sys.videoInfoList := by
      rw [same, ← (by simpa using List.find?_some found : video.info = info)]
      exact List.mem_map_of_mem (List.mem_of_find?_eq_some found)
    rw [SystemMonitor.rockchipFindVideoInfo, values, Option.bind_some]
    obtain ⟨other, some_found⟩ := Option.isSome_iff_exists.mp
      (List.find?_isSome (p := (· = info)).mpr ⟨info, member, by simp⟩)
    rw [some_found]
    simpa using List.find?_some some_found
  refine ⟨_, by rw [runs, step_find idle head values, Option.bind_some, runs, step_del holds,
    Option.bind_some, runs], ?_⟩
  rw [between]
  have cleared : (rockchipUpdateSystemStatus sys ('0' :: rest)).videoInfoList =
      sys.videoInfoList.erase info := by
    simp only [rockchipUpdateSystemStatus, listed, SystemMonitor.rockchipUpdateVideoInfo]
    split <;> simp
  rw [cleared, same]
  exact map_info_erase found

/-! ### Two calls for one video -/

/-- An entry that two calls have found is freed twice. -/
theorem claimed_twice_freed_twice {other : ℕ} (apart : other ≠ writer)
    (holds : state.pc writer = .found video) (holds' : state.pc other = .found video) :
    ∃ final, runs VideoWriters.step state [.del writer, .del other] = some final ∧
      final.removed video.addr = state.removed video.addr + 2 := by
  have still : (state.rockchipDelVideoInfo writer video).pc other = .found video := by
    rw [del_pc, Function.update_of_ne apart, holds']
  refine ⟨_, by rw [runs, step_del holds, Option.bind_some, runs, step_del still,
    Option.bind_some, runs], ?_⟩
  simp

/-- The values of the string for a 4K video. -/
def fourK : VideoInfo := ⟨3840, 2160, 1, 60, 20⟩

theorem fourK_announced : rockchipParseVideoInfo (video4k '1' "20") = some fourK := by decide

theorem fourK_ended : rockchipParseVideoInfo (video4k '0' "20") = some fourK := by decide

/-- One writer has announced a 4K video. -/
def announced : VideoWriters := start.rockchipAddVideoInfo 0 fourK

theorem announced_reached (cond : VideoWriters → VideoSection → Prop)
    (allowed : cond start (.add 0 (video4k '1' "20"))) :
    Reaches VideoWriters.step cond start announced :=
  .tail .refl allowed (step_add rfl rfl fourK_announced)

theorem announced_unclaimed (other : ℕ) : announced.pc other ≠ .found video := by
  by_cases first : other = 0 <;> simp [announced, rockchipAddVideoInfo, start, first]

theorem announced_found (cond : VideoWriters → VideoSection → Prop)
    (reach : Reaches VideoWriters.step cond start announced)
    (allowed : cond announced (.find 1 (video4k '0' "20"))) :
    Reaches VideoWriters.step cond start (announced.rockchipFindVideoInfo 1 fourK) :=
  reach.tail allowed (step_find rfl rfl fourK_ended)

/-- Another writer takes it back. -/
theorem video_infos_freed_once_oneClear :
    ((announced.rockchipFindVideoInfo 1 fourK).rockchipDelVideoInfo 1 ⟨0, fourK⟩).FreedOnce :=
  video_infos_freed_once ((announced_found _ (announced_reached _ trivial)
    fun _ _ _ _ => announced_unclaimed).tail (by trivial) (step_del rfl))

/-- Two writers take it back at the same time. -/
theorem two_clears_free_twice :
    ¬∀ state, Reaches VideoWriters.step anyStep start state → state.FreedOnce := by
  intro freed
  let both := (announced.rockchipFindVideoInfo 1 fourK).rockchipFindVideoInfo 2 fourK
  have first := announced_found anyStep (announced_reached _ trivial) trivial
  have second : Reaches VideoWriters.step anyStep start both :=
    first.tail trivial (step_find rfl rfl fourK_ended)
  have holds : both.pc 1 = .found ⟨0, fourK⟩ := rfl
  obtain ⟨final, execution, twice⟩ := claimed_twice_freed_twice (by decide : (2 : ℕ) ≠ 1) holds rfl
  have once := (freed final (second.trans (reaches_of_runs (along_anyStep _ _) execution))).once 0
  rw [show final.removed 0 = 2 from twice] at once
  exact absurd once (by decide)

end VideoWriters

end SystemMonitor
end RockchipSoc
