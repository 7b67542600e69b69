import Mathlib.Data.List.Infix
import RockchipSoc.SystemMonitor.VideoStatus

/-!
# The status of two screens

The display controller raises a status of two bits while more than one of its video ports is active.
It calls the counted set or clear at every change of a port, also when the answer is the same as at
the change before.  So two sets in a row are one clear too many for the count.
-/

namespace RockchipSoc
namespace SystemMonitor

open OpTrace

def sysStatusLcdc0 : BitVec 32 := 1 <<< 10
def sysStatusLcdc1 : BitVec 32 := 1 <<< 11

/-- `SYS_STATUS_DUALVIEW`. -/
def sysStatusDualview : BitVec 32 := sysStatusLcdc0 ||| sysStatusLcdc1

def hweight8 (w : BitVec 8) : ℕ := (List.range 8).countP fun i => w.getLsbD i

/-- More than one video port is active. -/
def moreThanOne (activeVpMask : BitVec 8) : Bool := decide (1 < hweight8 activeVpMask)

/-- The system's status with the mask of the active video ports. -/
structure Screens where
  sys : SystemStatus
  activeVpMask : BitVec 8

def vop2SetSystemStatus (screens : Screens) : Screens :=
  { screens with
    sys :=
      if hweight8 screens.activeVpMask > 1 then
        rockchipSetSystemStatus screens.sys sysStatusDualview
      else rockchipClearSystemStatus screens.sys sysStatusDualview }

/-- A call on the system's status: by the display controller behind a change of its mask, by another
driver, or a string from user space. -/
inductive StatusCall where
  | ports (activeVpMask : BitVec 8)
  | set (status : BitVec 32)
  | clear (status : BitVec 32)
  | update (buf : List Char)

def Screens.call (screens : Screens) : StatusCall → Screens
  | .ports activeVpMask => vop2SetSystemStatus { screens with activeVpMask }
  | .set status => { screens with sys := rockchipSetSystemStatus screens.sys status }
  | .clear status => { screens with sys := rockchipClearSystemStatus screens.sys status }
  | .update buf => { screens with sys := rockchipUpdateSystemStatus screens.sys buf }

/-- Other drivers leave the two bits alone. -/
def StatusCall.Apart : StatusCall → Prop
  | .ports _ | .update _ => True
  | .set status | .clear status => status &&& sysStatusDualview = 0

instance (call : StatusCall) : Decidable call.Apart :=
  match call with
  | .ports _ | .update _ => isTrue trivial
  | .set status | .clear status => inferInstanceAs (Decidable (status &&& sysStatusDualview = 0))

/-- What the display controller finds at its calls. -/
def found : List StatusCall → List Bool
  | [] => []
  | .ports activeVpMask :: calls => moreThanOne activeVpMask :: found calls
  | _ :: calls => found calls

/-- The status is raised exactly while more than one video port is active. -/
def DualviewFollows (screens : Screens) : Prop :=
  screens.sys.systemStatus &&& sysStatusDualview =
    if moreThanOne screens.activeVpMask then sysStatusDualview else 0

instance (screens : Screens) : Decidable (DualviewFollows screens) :=
  inferInstanceAs (Decidable (_ = _))

/-- No port is active, and nobody has raised a status. -/
def screensInit : Screens := ⟨systemStatusInit, 0⟩

/-! ### The count of the two bits -/

variable {sys : SystemStatus} {screens : Screens} {status : BitVec 32} {n i : ℕ}

/-- The two bits are counted to the same number. -/
structure Tally (sys : SystemStatus) (n : ℕ) : Prop where
  counted : Counted sys
  count : ∀ i, sysStatusDualview.getLsbD i = true → sys.refCount i = n

theorem Tally.set (tally : Tally sys n) :
    Tally (rockchipSetSystemStatus sys sysStatusDualview) (n + 1) := by
  refine ⟨tally.counted.set, fun i bit => ?_⟩
  rw [refCount_set, if_pos bit, tally.count i bit]

theorem Tally.clear (tally : Tally sys n) :
    Tally (rockchipClearSystemStatus sys sysStatusDualview) (n - 1) := by
  refine ⟨tally.counted.clear, fun i bit => ?_⟩
  rw [refCount_clear, if_pos bit, tally.count i bit]

/-- A status without a bit does not have it. -/
theorem not_bit_of_apart {mask : BitVec 32} (apart : status &&& mask = 0)
    (bit : mask.getLsbD i = true) : ¬status.getLsbD i = true := by
  intro shared
  have both := congrArg (BitVec.getLsbD · i) apart
  simp [shared, bit] at both

theorem Tally.set_apart (tally : Tally sys n) (apart : status &&& sysStatusDualview = 0) :
    Tally (rockchipSetSystemStatus sys status) n := by
  refine ⟨tally.counted.set, fun i bit => ?_⟩
  rw [refCount_set, if_neg (not_bit_of_apart apart bit), tally.count i bit]

theorem Tally.clear_apart (tally : Tally sys n) (apart : status &&& sysStatusDualview = 0) :
    Tally (rockchipClearSystemStatus sys status) n := by
  refine ⟨tally.counted.clear, fun i bit => ?_⟩
  rw [refCount_clear, if_neg (not_bit_of_apart apart bit), tally.count i bit]

theorem Tally.updateVideoInfo (tally : Tally sys n) (videos : List VideoInfo) :
    Tally (rockchipUpdateVideoInfo { sys with videoInfoList := videos }) n := by
  have tally' : Tally { sys with videoInfoList := videos } n := ⟨tally.counted, tally.count⟩
  unfold rockchipUpdateVideoInfo
  split
  · exact tally'.clear_apart (by decide)
  · refine tally'.set_apart ?_
    rcases videoStatus_cases videos with status | status | status <;> rw [status] <;> decide

/-- User space has no string for the two bits. -/
theorem Tally.update (tally : Tally sys n) (buf : List Char) :
    Tally (rockchipUpdateSystemStatus sys buf) n := by
  unfold rockchipUpdateSystemStatus
  split
  · split
    · exact tally.updateVideoInfo _
    · exact tally
  · split
    · exact tally.updateVideoInfo _
    · exact tally
  · exact tally.clear_apart (by decide)
  · exact tally.set_apart (by decide)
  · exact tally.set_apart (by decide)
  · exact tally.clear_apart (by decide)
  · exact tally

/-- The status follows the ports exactly if the count is zero where it has to be. -/
theorem Tally.follows_iff (tally : Tally screens.sys n) :
    DualviewFollows screens ↔ (n ≠ 0 ↔ moreThanOne screens.activeVpMask = true) := by
  have bits : screens.sys.systemStatus &&& sysStatusDualview =
      if n ≠ 0 then sysStatusDualview else 0 := by
    refine BitVec.eq_of_getLsbD_eq fun i inside => ?_
    rw [BitVec.getLsbD_and, tally.counted i inside]
    cases bit : sysStatusDualview.getLsbD i with
    | false => split <;> simp [bit]
    | true =>
        rw [tally.count i bit]
        split
        · next positive => simp [bit, positive]
        · next zero => simp [not_not.mp zero]
  have raised : sysStatusDualview ≠ 0 := by decide
  unfold DualviewFollows
  rw [bits]
  by_cases zero : n = 0
  · cases moreThanOne screens.activeVpMask with
    | false => simp [zero]
    | true => simpa [zero] using raised.symm
  · cases moreThanOne screens.activeVpMask with
    | false => simpa [zero] using raised
    | true => simp [zero]

/-! ### The calls -/

/-- Two sets, and then a clear. -/
def oneClearTooMany : List Bool := [true, true, false]

theorem infix_replicate_of_two (two : 2 ≤ n) (later : List Bool) :
    oneClearTooMany <:+: List.replicate n true ++ false :: later := by
  obtain ⟨more, rfl⟩ := Nat.exists_eq_add_of_le' two
  refine ⟨List.replicate more true, later, ?_⟩
  rw [List.replicate_add]
  simp [oneClearTooMany, List.replicate]

theorem infix_replicate_of_le_one (few : n ≤ 1) (later : List Bool) :
    oneClearTooMany <:+: List.replicate n true ++ false :: later ↔ oneClearTooMany <:+: later := by
  interval_cases n
  · simp [oneClearTooMany, List.infix_cons_iff]
  · simp [oneClearTooMany, List.infix_cons_iff]

/-- A run whose count stands at a number is one that begins with as many sets. -/
theorem follows_run (tally : Tally screens.sys n) (follows : DualviewFollows screens)
    {calls : List StatusCall} (apart : ∀ call ∈ calls, call.Apart) :
    EachAfter Screens.call DualviewFollows screens calls ↔
      ¬oneClearTooMany <:+: List.replicate n true ++ found calls := by
  induction calls generalizing screens n with
  | nil =>
      refine iff_of_true trivial fun ⟨before, after, parts⟩ => ?_
      have last : false ∈ List.replicate n true ++ found [] := by
        rw [← parts]
        simp [oneClearTooMany]
      simp [found] at last
  | cons call calls ih =>
      have other : Tally (screens.call call).sys n →
          (screens.call call).activeVpMask = screens.activeVpMask →
          found (call :: calls) = found calls →
          (EachAfter Screens.call DualviewFollows screens (call :: calls) ↔
            ¬oneClearTooMany <:+: List.replicate n true ++ found (call :: calls)) := by
        intro tally' same skipped
        have follows' : DualviewFollows (screens.call call) := by
          rw [tally'.follows_iff, same]
          exact tally.follows_iff.mp follows
        rw [eachAfter_cons, and_iff_right follows', skipped]
        exact ih tally' follows' fun later member => apart later (List.mem_cons_of_mem _ member)
      have rest : ∀ later ∈ calls, later.Apart :=
        fun later member => apart later (List.mem_cons_of_mem _ member)
      have foreign := apart call List.mem_cons_self
      cases call with
      | set status => exact other (tally.set_apart foreign) rfl rfl
      | clear status => exact other (tally.clear_apart foreign) rfl rfl
      | update buf => exact other (tally.update buf) rfl rfl
      | ports activeVpMask =>
          rw [eachAfter_cons, found]
          cases more : moreThanOne activeVpMask with
          | true =>
              have tally' : Tally (screens.call (.ports activeVpMask)).sys (n + 1) := by
                simp only [Screens.call, vop2SetSystemStatus]
                rw [if_pos (of_decide_eq_true more)]
                exact tally.set
              have follows' : DualviewFollows (screens.call (.ports activeVpMask)) :=
                tally'.follows_iff.mpr (iff_of_true (Nat.succ_ne_zero n) more)
              rw [and_iff_right follows', ih tally' follows' rest, List.replicate_succ',
                List.append_assoc, List.singleton_append]
          | false =>
              have tally' : Tally (screens.call (.ports activeVpMask)).sys (n - 1) := by
                simp only [Screens.call, vop2SetSystemStatus]
                rw [if_neg (of_decide_eq_false more)]
                exact tally.clear
              have follows_iff : DualviewFollows (screens.call (.ports activeVpMask)) ↔ n ≤ 1 := by
                rw [tally'.follows_iff]
                have few : moreThanOne (screens.call (.ports activeVpMask)).activeVpMask = false :=
                  more
                simp [few, Nat.sub_eq_zero_iff_le]
              rw [follows_iff]
              rcases Nat.lt_or_ge 1 n with two | few
              · exact iff_of_false (fun ⟨few, _⟩ => by omega)
                  (not_not.mpr (infix_replicate_of_two two _))
              · have empty : n - 1 = 0 := by omega
                rw [empty] at tally'
                rw [and_iff_right few, ih tally' (follows_iff.mpr few) rest,
                  infix_replicate_of_le_one few, List.replicate_zero, List.nil_append]

/-- Whatever else happens to the system's status, the two bits are right after each call exactly if
no call of the display controller that finds at most one port active comes right behind two that
found more. -/
theorem dualview_follows_iff (calls : List StatusCall) (apart : ∀ call ∈ calls, call.Apart) :
    EachAfter Screens.call DualviewFollows screensInit calls ↔
      ¬[true, true, false] <:+: found calls := by
  have tally : Tally screensInit.sys 0 := ⟨fun i _ => by simp [screensInit, systemStatusInit],
    fun _ _ => rfl⟩
  exact follows_run tally (by decide) apart

/-- Two screens that come and go. -/
theorem dualview_follows_iff_two :
    EachAfter Screens.call DualviewFollows screensInit
      [.ports 1, .ports 3, .set sysStatusPerformance, .ports 2, .ports 0] :=
  (dualview_follows_iff _ (by decide)).mpr (by decide)

/-- A third screen comes and goes, and so does the second: the status stays raised. -/
theorem dualview_stays_raised :
    ¬EachAfter Screens.call DualviewFollows screensInit
      [.ports 1, .ports 3, .ports 7, .ports 3, .ports 1] ∧
    ([.ports 1, .ports 3, .ports 7, .ports 3, .ports 1, .ports 0].foldl
      Screens.call screensInit).sys.systemStatus = sysStatusDualview := by
  refine ⟨fun follows => ?_, by decide⟩
  exact absurd follows.2.2.2.2.1 (by decide)

end SystemMonitor
end RockchipSoc
