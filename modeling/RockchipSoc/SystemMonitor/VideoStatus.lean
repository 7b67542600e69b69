import Mathlib.Data.List.Nodup
import Mathlib.Tactic.IntervalCases
import RockchipSoc.Foundation.OpTrace
import RockchipSoc.SystemMonitor.SystemStatus

/-!
# The status bits of the running videos

A bit is raised exactly while its count is not zero.  Every string that leaves videos in the list
counts their bit once more, and only the string that empties the list counts down, once.  So the
bits are right as long as the class of the videos stays the same, and the count of a class is one
when its last video ends.
-/

namespace RockchipSoc
namespace SystemMonitor

open OpTrace

variable {sys : SystemStatus} {status : BitVec 32} {offset i : ℕ} {offsets : List ℕ}

/-! ### Counted bits -/

/-- Every bit is set exactly while it is counted. -/
def Counted (sys : SystemStatus) : Prop :=
  ∀ i < 32, sys.systemStatus.getLsbD i = decide (sys.refCount i ≠ 0)

theorem Counted.setSingleStatus (counted : Counted sys) :
    Counted (setSingleStatus sys offset) := by
  intro i inside
  simp only [SystemMonitor.setSingleStatus, Function.update_apply]
  by_cases same : i = offset
  · subst same
    split
    · simp [inside]
    · next positive => simp [counted i inside, positive]
  · split <;> simp [counted i inside, Ne.symm same]

theorem Counted.clearSingleStatus (counted : Counted sys) :
    Counted (clearSingleStatus sys offset) := by
  unfold SystemMonitor.clearSingleStatus
  split
  · exact counted
  · next positive =>
      intro i inside
      simp only [Function.update_apply]
      by_cases same : i = offset
      · subst same
        split
        · next single => simp [single]
        · next more =>
            have still : sys.refCount i - 1 ≠ 0 := by omega
            simp [counted i inside, positive, still]
      · split
        · rw [BitVec.getLsbD_and, BitVec.getLsbD_not, BitVec.getLsbD_twoPow, counted i inside]
          simp [Ne.symm same, inside]
        · simp [counted i inside]

theorem mem_statusOffsets : offset ∈ statusOffsets status ↔ status.getLsbD offset = true := by
  simp only [statusOffsets, List.mem_filter, List.mem_reverse, List.mem_range,
    and_iff_right_iff_imp]
  exact BitVec.lt_of_getLsbD

theorem nodup_statusOffsets : (statusOffsets status).Nodup :=
  (List.nodup_reverse.mpr List.nodup_range).filter _

/-- A call that is made for each offset once changes each count once. -/
theorem foldl_refCount {single : SystemStatus → ℕ → SystemStatus} {change : ℕ → ℕ}
    (step : ∀ sys offset, (single sys offset).refCount i =
      if i = offset then change (sys.refCount i) else sys.refCount i)
    (nodup : offsets.Nodup) : (offsets.foldl single sys).refCount i =
      if i ∈ offsets then change (sys.refCount i) else sys.refCount i := by
  induction offsets generalizing sys with
  | nil => rfl
  | cons offset offsets ih =>
      obtain ⟨fresh, nodup⟩ := List.nodup_cons.mp nodup
      rw [List.foldl_cons, ih nodup, step]
      by_cases same : i = offset
      · subst same
        simp [fresh]
      · simp [same]

theorem refCount_set : (rockchipSetSystemStatus sys status).refCount i =
    if status.getLsbD i = true then sys.refCount i + 1 else sys.refCount i := by
  rw [rockchipSetSystemStatus,
    @foldl_refCount sys i _ setSingleStatus (· + 1) ?_ nodup_statusOffsets]
  · simp only [mem_statusOffsets]
  · intro sys offset
    simp only [setSingleStatus, Function.update_apply]
    split
    · next same => rw [same]
    · rfl

theorem refCount_clear : (rockchipClearSystemStatus sys status).refCount i =
    if status.getLsbD i = true then sys.refCount i - 1 else sys.refCount i := by
  rw [rockchipClearSystemStatus,
    @foldl_refCount sys i _ clearSingleStatus (· - 1) ?_ nodup_statusOffsets]
  · simp only [mem_statusOffsets]
  · intro sys offset
    unfold clearSingleStatus
    split
    · next zero =>
        split
        · next same =>
            subst same
            rw [zero]
        · rfl
    · simp only [Function.update_apply]
      split
      · next same => rw [same]
      · rfl

theorem Counted.set (counted : Counted sys) : Counted (rockchipSetSystemStatus sys status) :=
  foldl_inv (fun _ _ _ counted => Counted.setSingleStatus counted) counted

theorem Counted.clear (counted : Counted sys) : Counted (rockchipClearSystemStatus sys status) :=
  foldl_inv (fun _ _ _ counted => Counted.clearSingleStatus counted) counted

@[simp] theorem videoInfoList_set :
    (rockchipSetSystemStatus sys status).videoInfoList = sys.videoInfoList := by
  refine @foldl_inv _ _ setSingleStatus (fun later => later.videoInfoList = sys.videoInfoList)
    (statusOffsets status) ?_ sys rfl
  exact fun _ _ _ same => same

@[simp] theorem videoInfoList_clear :
    (rockchipClearSystemStatus sys status).videoInfoList = sys.videoInfoList := by
  refine @foldl_inv _ _ clearSingleStatus (fun later => later.videoInfoList = sys.videoInfoList)
    (statusOffsets status) (fun offset _ later same => ?_) sys rfl
  unfold clearSingleStatus
  split <;> exact same

/-! ### The bits of the videos -/

/-- The bits that the running videos call for. -/
def videoBits (videos : List VideoInfo) : BitVec 32 :=
  if videos = [] then 0 else videoStatus videos

/-- The bits of the videos are those that the running videos call for. -/
def VideoFollows (sys : SystemStatus) : Prop :=
  sys.systemStatus &&& sysStatusVideo = videoBits sys.videoInfoList

instance : Decidable (VideoFollows sys) := inferInstanceAs (Decidable (_ = _))

theorem videoStatus_cases (videos : List VideoInfo) :
    videoStatus videos = sysStatusVideo1080p ∨ videoStatus videos = sysStatusVideo4k10b ∨
      videoStatus videos = sysStatusVideo4k := by
  unfold videoStatus
  split
  · exact .inl rfl
  · split
    · exact .inr (.inl rfl)
    · exact .inr (.inr rfl)

theorem videoBits_masked (videos : List VideoInfo) :
    videoBits videos &&& sysStatusVideo = videoBits videos := by
  unfold videoBits
  split
  · rfl
  · rcases videoStatus_cases videos with status | status | status <;> rw [status] <;> decide

/-- The counts decide. -/
theorem Counted.follows_iff (counted : Counted sys) :
    VideoFollows sys ↔ ∀ i, sysStatusVideo.getLsbD i = true →
      (sys.refCount i ≠ 0 ↔ (videoBits sys.videoInfoList).getLsbD i = true) := by
  constructor
  · intro follows i video
    have bit := congrArg (BitVec.getLsbD · i) follows
    simp only [BitVec.getLsbD_and, video, Bool.and_true,
      counted i (BitVec.lt_of_getLsbD video)] at bit
    rw [← bit, decide_eq_true_eq]
  · intro bits
    refine BitVec.eq_of_getLsbD_eq fun i inside => ?_
    rw [← videoBits_masked, BitVec.getLsbD_and, BitVec.getLsbD_and, counted i inside]
    cases video : sysStatusVideo.getLsbD i with
    | false => simp
    | true =>
        rw [Bool.and_true, Bool.and_true, Bool.eq_iff_iff, decide_eq_true_eq]
        exact bits i video

/-- The list of videos after a string that changes it. -/
def videosAfter (videos : List VideoInfo) (buf : List Char) : Option (List VideoInfo) :=
  match buf with
  | '0' :: _ =>
      ((rockchipParseVideoInfo buf).bind fun video => videos.find? (· = video)).map videos.erase
  | '1' :: _ => (rockchipParseVideoInfo buf).map (· :: videos)
  | _ => none

/-- The condition on a string: if it leaves videos in a list that was not empty, their class stays
the same; if it empties the list, no class is counted more than once. -/
def CallOk (sys : SystemStatus) (buf : List Char) : Prop :=
  ∀ videos ∈ videosAfter sys.videoInfoList buf,
    if videos = [] then ∀ i, sysStatusVideo.getLsbD i = true → sys.refCount i ≤ 1
    else sys.videoInfoList = [] ∨ videoStatus videos = videoStatus sys.videoInfoList

/-- One class of videos is one bit. -/
theorem videoStatus_single {videos other : List VideoInfo}
    (shared : (videoStatus videos).getLsbD i = true)
    (shared' : (videoStatus other).getLsbD i = true) : videoStatus videos = videoStatus other := by
  have inside := BitVec.lt_of_getLsbD shared
  rcases videoStatus_cases videos with status | status | status <;>
    rcases videoStatus_cases other with status' | status' | status' <;>
    rw [status] at shared ⊢ <;> rw [status'] at shared' ⊢ <;>
    interval_cases i <;> revert shared shared' <;> decide

theorem videoStatus_bit (videos : List VideoInfo) :
    ∃ i, sysStatusVideo.getLsbD i = true ∧ (videoStatus videos).getLsbD i = true := by
  rcases videoStatus_cases videos with status | status | status <;> rw [status]
  · exact ⟨5, by decide⟩
  · exact ⟨16, by decide⟩
  · exact ⟨4, by decide⟩

/-! ### One string -/

section Step

variable (counted : Counted sys) (follows : VideoFollows sys)
include counted follows

/-- A string that leaves videos in the list counts their class once more. -/
theorem follows_some {videos : List VideoInfo} (some : videos ≠ []) :
    VideoFollows (rockchipUpdateVideoInfo { sys with videoInfoList := videos }) ↔
      sys.videoInfoList = [] ∨ videoStatus videos = videoStatus sys.videoInfoList := by
  have counted' : Counted { sys with videoInfoList := videos } := counted
  have before := counted.follows_iff.mp follows
  unfold rockchipUpdateVideoInfo
  rw [if_neg some, counted'.set.follows_iff]
  simp only [refCount_set, videoInfoList_set, videoBits, some, if_false] at before ⊢
  constructor
  · intro after
    refine or_iff_not_imp_left.mpr fun nonempty => ?_
    rw [if_neg nonempty] at before
    obtain ⟨i, video, bit⟩ := videoStatus_bit sys.videoInfoList
    refine videoStatus_single ((after i video).mp ?_) bit
    have positive := (before i video).mpr bit
    split
    · exact Nat.succ_ne_zero _
    · exact positive
  · intro ok i video
    by_cases empty : sys.videoInfoList = []
    · rw [if_pos empty] at before
      have zero : sys.refCount i = 0 := by simpa using before i video
      split
      · next bit => simp [bit]
      · next bit => simp [zero, bit]
    · rw [if_neg empty, ← ok.resolve_left empty] at before
      split
      · next bit => simp [bit]
      · exact before i video

omit follows in
/-- The string that empties the list counts every class down once. -/
theorem follows_none :
    VideoFollows (rockchipUpdateVideoInfo { sys with videoInfoList := [] }) ↔
      ∀ i, sysStatusVideo.getLsbD i = true → sys.refCount i ≤ 1 := by
  have counted' : Counted { sys with videoInfoList := [] } := counted
  unfold rockchipUpdateVideoInfo
  rw [if_pos rfl, counted'.clear.follows_iff]
  simp only [refCount_clear, videoInfoList_clear, videoBits, if_true]
  refine forall_congr' fun i => imp_congr_right fun video => ?_
  rw [if_pos video]
  simp [Nat.sub_eq_zero_iff_le]

/-- A bit that does not belong to the videos can be set or cleared. -/
theorem follows_other (apart : status &&& sysStatusVideo = 0) :
    VideoFollows (rockchipSetSystemStatus sys status) ∧
      VideoFollows (rockchipClearSystemStatus sys status) := by
  have before := counted.follows_iff.mp follows
  have clear : ∀ i, sysStatusVideo.getLsbD i = true → status.getLsbD i ≠ true := by
    intro i video bit
    have both := congrArg (BitVec.getLsbD · i) apart
    simp [video, bit] at both
  refine ⟨counted.set.follows_iff.mpr fun i video => ?_,
    counted.clear.follows_iff.mpr fun i video => ?_⟩
  · rw [refCount_set, if_neg (clear i video), videoInfoList_set]
    exact before i video
  · rw [refCount_clear, if_neg (clear i video), videoInfoList_clear]
    exact before i video

/-- After a string, the bits of the videos are right exactly if the string meets the condition. -/
theorem follows_step (buf : List Char) :
    VideoFollows (rockchipUpdateSystemStatus sys buf) ↔ CallOk sys buf := by
  have changed : ∀ videos,
      VideoFollows (rockchipUpdateVideoInfo { sys with videoInfoList := videos }) ↔
      if videos = [] then ∀ i, sysStatusVideo.getLsbD i = true → sys.refCount i ≤ 1
      else sys.videoInfoList = [] ∨ videoStatus videos = videoStatus sys.videoInfoList := by
    intro videos
    split
    · next empty => rw [empty, follows_none counted]
    · next some => exact follows_some counted follows some
  have perf := @follows_other sys sysStatusPerformance counted follows (by decide)
  have power := @follows_other sys sysStatusLowPower counted follows (by decide)
  unfold rockchipUpdateSystemStatus CallOk videosAfter
  split
  · unfold rockchipFindVideoInfo
    cases ((rockchipParseVideoInfo _).bind fun video => sys.videoInfoList.find? (· = video)) with
    | none => simpa using follows
    | some video => simpa using changed (sys.videoInfoList.erase video)
  · cases rockchipParseVideoInfo _ with
    | none => simpa using follows
    | some video => simpa using changed (video :: sys.videoInfoList)
  · simpa using power.2
  · simpa using power.1
  · simpa using perf.1
  · simpa using perf.2
  · split
    · simp_all
    · simp_all
    · simpa using follows

end Step

theorem counted_step (counted : Counted sys) (buf : List Char) :
    Counted (rockchipUpdateSystemStatus sys buf) := by
  have changed : ∀ videos,
      Counted (rockchipUpdateVideoInfo { sys with videoInfoList := videos }) := by
    intro videos
    have counted' : Counted { sys with videoInfoList := videos } := counted
    unfold rockchipUpdateVideoInfo
    split
    · exact counted'.clear
    · exact counted'.set
  unfold rockchipUpdateSystemStatus
  split
  · split
    · exact changed _
    · exact counted
  · split
    · exact changed _
    · exact counted
  · exact counted.clear
  · exact counted.set
  · exact counted.set
  · exact counted.clear
  · exact counted

/-! ### Sequences of strings -/

/-- Every string of a sequence meets the condition. -/
def CallsOk : SystemStatus → List (List Char) → Prop
  | _, [] => True
  | sys, buf :: bufs => CallOk sys buf ∧ CallsOk (rockchipUpdateSystemStatus sys buf) bufs

theorem follows_calls {bufs : List (List Char)} (counted : Counted sys)
    (follows : VideoFollows sys) :
    EachAfter rockchipUpdateSystemStatus VideoFollows sys bufs ↔ CallsOk sys bufs := by
  induction bufs generalizing sys with
  | nil => exact Iff.rfl
  | cons buf bufs ih =>
      rw [eachAfter_cons, CallsOk, follows_step counted follows]
      refine and_congr_right fun ok => ?_
      exact ih (counted_step counted buf) ((follows_step counted follows buf).mpr ok)

/-- From the start of the system, the bits of the videos are right after each string of a sequence
exactly if each string meets the condition: no class changes while videos run, and each video ends
before the next one begins. -/
theorem video_status_follows_iff (bufs : List (List Char)) :
    EachAfter rockchipUpdateSystemStatus VideoFollows systemStatusInit bufs ↔
      CallsOk systemStatusInit bufs := by
  refine follows_calls (fun i _ => ?_) rfl
  simp [systemStatusInit]

/-! ### Two videos -/

/-- The string for a 4K video, announced or ended. -/
def video4k (announce : Char) (bitrate : String) : List Char :=
  announce :: (",width=3840,height=2160,ishevc=1,videoFramerate=60,streamBitrate=" ++
    bitrate).toList

/-- Two 4K videos overlap: when both have ended, the 4K bit is still set. -/
theorem video_status_stays_raised :
    ¬EachAfter rockchipUpdateSystemStatus VideoFollows systemStatusInit
      [video4k '1' "20", video4k '1' "30", video4k '0' "20", video4k '0' "30"] ∧
    ([video4k '1' "20", video4k '1' "30", video4k '0' "20", video4k '0' "30"].foldl
      rockchipUpdateSystemStatus systemStatusInit).systemStatus = sysStatusVideo4k := by
  refine ⟨fun follows => ?_, by decide⟩
  exact absurd follows.2.2.2.1 (by decide)

end SystemMonitor
end RockchipSoc
