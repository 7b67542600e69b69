import RockchipSoc.Codec.FrameEvents
import Mathlib.Algebra.BigOperators.Group.Finset.Basic
import Mathlib.Algebra.Ring.Int.Defs

/-!
# The inner loop of decoding

The loop runs through the frames that the decoder has at once, up to an answer that is no frame,
a frame that ends the stream or the last frame asked for.  With the last packet taken it waits for
the end of the stream.
-/

namespace RockchipSoc
namespace Codec

open Polling

/-! ### Answers -/

/-- A frame that lets the inner loop go on. -/
def GetFrame.GoesOn : GetFrame → Prop
  | .ok (some frame) => frame.eos = false ∧ (frame.infoChange = true → frame.changeHandled = true)
  | _ => False

/-- An answer that lets the inner loop go on when it waits for the end of the stream. -/
def GetFrame.Drains (answer : GetFrame) : Prop := answer = .ok none ∨ answer.GoesOn

def GetFrame.EndsStream : GetFrame → Prop
  | .ok (some frame) => frame.eos = true
  | _ => False

/-- One for a frame that is counted. -/
def GetFrame.counts : GetFrame → ℤ
  | .ok (some frame) => if frame.infoChange then 0 else 1
  | _ => 0

/-- A buffer that a frame can be delivered in. -/
def Deliverable (outInfo : Option CodecBuffer) : Prop :=
  ∃ buffer, outInfo = some buffer ∧ buffer.bufferCnt ≠ 0

/-- A frame that is delivered where there is a buffer for it. -/
def GetFrame.Delivers : GetFrame → Prop
  | .ok (some frame) => frame.infoChange = false ∧ frame.bad = false
  | _ => False

/-- The frames counted among the first answers. -/
def counted (row : ℕ → GetFrame) (n : ℕ) : ℤ := ∑ k ∈ Finset.range n, (row k).counts

theorem counted_succ (row : ℕ → GetFrame) (n : ℕ) :
    counted row (n + 1) = counted row n + (row n).counts :=
  Finset.sum_range_succ _ _

theorem GetFrame.counts_nonneg (answer : GetFrame) : 0 ≤ answer.counts := by
  unfold GetFrame.counts
  split
  · split <;> decide
  · decide

theorem counted_mono (row : ℕ → GetFrame) {n m : ℕ} (le : n ≤ m) :
    counted row n ≤ counted row m := by
  induction le with
  | refl => exact Int.le_refl _
  | @step last _ ih =>
      have := (row last).counts_nonneg
      rw [Nat.succ_eq_add_one, counted_succ]
      omega

/-! ### Taking an answer -/

/-- No frame was announced with more than so many decoded. -/
def Call.Bounded (frameNum : ℤ) (call : Call) : Prop :=
  ∀ outInfo frameCount copied, .outputAvailable outInfo frameCount copied ∈ call.log →
    frameCount ≤ frameNum

theorem Call.bounded_congr {frameNum : ℤ} {call other : Call} {events : List Event}
    (log : other.log = call.log ++ events)
    (quiet : ∀ outInfo frameCount copied, .outputAvailable outInfo frameCount copied ∉ events) :
    other.Bounded frameNum ↔ call.Bounded frameNum := by
  constructor
  · exact fun bounded outInfo frameCount copied listed =>
      bounded outInfo frameCount copied (log ▸ List.mem_append_left _ listed)
  · intro bounded outInfo frameCount copied listed
    rw [log] at listed
    rcases List.mem_append.mp listed with earlier | new
    · exact bounded outInfo frameCount copied earlier
    · exact absurd new (quiet outInfo frameCount copied)

theorem Call.announce_bounded (frameNum : ℤ) (call : Call) (outInfo : CodecBuffer)
    (copied : Bool) : (call.announce outInfo copied).Bounded frameNum ↔
      call.Bounded frameNum ∧ call.frameCount ≤ frameNum := by
  have log : (call.announce outInfo copied).log =
      (call.log ++ if copied then [.copied] else []) ++
        [.outputAvailable outInfo call.frameCount copied] := (List.append_assoc _ _ _).symm
  constructor
  · intro bounded
    refine ⟨fun outInfo' frameCount copied' listed => bounded outInfo' frameCount copied' ?_,
      bounded outInfo call.frameCount copied ?_⟩
    · rw [log]
      exact List.mem_append_left _ (List.mem_append_left _ listed)
    · rw [log]
      exact List.mem_append_right _ List.mem_cons_self
  · rintro ⟨bounded, le⟩ outInfo' frameCount copied' listed
    rw [log, List.mem_append, List.mem_append, List.mem_singleton] at listed
    rcases listed with (earlier | copy) | new
    · exact bounded outInfo' frameCount copied' earlier
    · split at copy <;> simp at copy
    · rw [Event.outputAvailable.injEq] at new
      exact new.2.1 ▸ le

/-- What the output of a frame does to the buffer, the counter and the bound. -/
theorem handleDecodeFrameOutput_spec (frameNum : ℤ) (frame : MppFrame) (call : Call) :
    (handleDecodeFrameOutput frame call).frameCount = call.frameCount + 1 ∧
      (Deliverable (handleDecodeFrameOutput frame call).outInfo ↔ Deliverable call.outInfo) ∧
      ((handleDecodeFrameOutput frame call).Bounded frameNum ↔ call.Bounded frameNum ∧
        (frame.bad = false → Deliverable call.outInfo → call.frameCount < frameNum)) := by
  unfold handleDecodeFrameOutput
  cases bad : frame.bad with
  | true => exact ⟨rfl, Iff.rfl, by simp [Call.Bounded]⟩
  | false =>
      cases present : call.outInfo with
      | none =>
          have absent : ¬Deliverable none := fun ⟨_, eq, _⟩ => by cases eq
          exact ⟨rfl, by simp, by simp [Call.Bounded, absent]⟩
      | some outInfo =>
          by_cases empty : outInfo.bufferCnt = 0
          · have absent : ¬Deliverable (some outInfo) := fun ⟨_, eq, some_buffer⟩ =>
              some_buffer (Option.some.inj eq ▸ empty)
            simp [empty, absent, Call.Bounded]
          · have there : Deliverable (some outInfo) := ⟨outInfo, rfl, empty⟩
            simp only [empty, if_false, Bool.false_eq_true, Call.announce_bounded]
            refine ⟨rfl, iff_of_true ?_ there, ?_⟩
            · cases frame.eos <;> exact ⟨_, rfl, empty⟩
            · have few : call.frameCount + 1 ≤ frameNum ↔
                  (True → Deliverable (some outInfo) → call.frameCount < frameNum) :=
                ⟨fun below _ _ => below, fun below => below trivial there⟩
              exact and_congr Iff.rfl few

theorem Call.take_frameCount (call : Call) (answer : GetFrame) :
    (call.take answer).frameCount = call.frameCount + answer.counts := by
  cases answer with
  | timeout => exact (Int.add_zero _).symm
  | failed => exact (Int.add_zero _).symm
  | ok frame =>
      cases frame with
      | none => exact (Int.add_zero _).symm
      | some frame =>
          simp only [Call.take, handleDecodedFrame, GetFrame.counts]
          cases frame.infoChange with
          | true => cases frame.changeHandled <;> exact (Int.add_zero _).symm
          | false =>
              exact (handleDecodeFrameOutput_spec 0 frame
                (call.receive fun object => .gotFrame object frame)).1

theorem Call.take_deliverable (call : Call) (answer : GetFrame) :
    Deliverable (call.take answer).outInfo ↔ Deliverable call.outInfo := by
  unfold Call.take
  split
  · next frame =>
      rw [handleDecodedFrame]
      split
      · split <;> exact Iff.rfl
      · rw [Call.emit_outInfo, (handleDecodeFrameOutput_spec 0 _ _).2.1, Call.receive_outInfo]
  · exact Iff.rfl

/-- An answer keeps the bound unless it delivers a frame too many. -/
theorem Call.take_bounded (frameNum : ℤ) (call : Call) (answer : GetFrame) :
    (call.take answer).Bounded frameNum ↔ call.Bounded frameNum ∧
      (answer.Delivers → Deliverable call.outInfo → call.frameCount < frameNum) := by
  unfold Call.take GetFrame.Delivers
  split
  · next frame =>
      have received : (call.receive fun object => .gotFrame object frame).Bounded frameNum ↔
          call.Bounded frameNum := Call.bounded_congr rfl (by simp)
      rw [handleDecodedFrame]
      split
      · next change =>
          have handled : ((call.receive fun object => .gotFrame object frame).emit
              [.deinit call.objects]).Bounded frameNum ↔ call.Bounded frameNum :=
            (Call.bounded_congr rfl (by simp)).trans received
          split <;> simp [handled, change]
      · next same =>
          have released (call' : Call) :
              (call'.emit [.deinit call.objects]).Bounded frameNum ↔ call'.Bounded frameNum :=
            Call.bounded_congr rfl (by simp)
          rw [released, (handleDecodeFrameOutput_spec frameNum _ _).2.2, received]
          simp [same]
  · next other =>
      cases answer with
      | timeout => simp
      | failed => simp
      | ok frame =>
          cases frame with
          | none => simp
          | some frame => exact absurd rfl (other frame)

/-! ### The inner loop -/

section InnerLoop

variable {frameNum : ℤ} {pktDone pktEos : Bool} {state : FrameLoop} {tries : ℕ → GetFrame}

/-- The answers that the rounds of the inner loop get. -/
def fetched (get : ℕ → ℕ → GetFrame) (i : ℕ) : GetFrame := decodeGetFrame (get i)

theorem decodeGoesOn_eq_none {getFrm : Bool}
    (goes : decodeGoesOn frameNum pktDone pktEos getFrm state = none) : state.frmEos = false := by
  unfold decodeGoesOn at goes
  cases ended : state.frmEos with
  | false => rfl
  | true => simp [ended] at goes

/-- A round after which the loop goes on has seen no end of the stream. -/
theorem frmEos_of_goes
    (goes : (codecDecodeGetFrameBody frameNum pktDone pktEos state tries).2 = none) :
    (codecDecodeGetFrameBody frameNum pktDone pktEos state tries).1.frmEos = false := by
  unfold codecDecodeGetFrameBody at goes ⊢
  cases answer : decodeGetFrame tries with
  | timeout => simp [answer] at goes
  | failed => simp [answer] at goes
  | ok frame =>
      cases frame with
      | none =>
          simp only [answer] at goes ⊢
          exact decodeGoesOn_eq_none goes
      | some frame =>
          simp only [answer] at goes ⊢
          split at goes
          · next handled =>
              rw [if_pos handled]
              exact decodeGoesOn_eq_none goes
          · cases goes

theorem body_leaves :
    (codecDecodeGetFrameBody frameNum pktDone pktEos state tries).2 = none ∨
      (codecDecodeGetFrameBody frameNum pktDone pktEos state tries).2 = some true := by
  have goesOn (getFrm : Bool) (state : FrameLoop) :
      decodeGoesOn frameNum pktDone pktEos getFrm state = none ∨
        decodeGoesOn frameNum pktDone pktEos getFrm state = some true := by
    unfold decodeGoesOn
    split_ifs <;> simp
  unfold codecDecodeGetFrameBody
  cases decodeGetFrame tries with
  | timeout => exact Or.inr rfl
  | failed => exact Or.inr rfl
  | ok frame =>
      cases frame with
      | none => exact goesOn false state
      | some frame =>
          simp only
          split
          · exact goesOn true _
          · exact Or.inr rfl

theorem frmEos_iff (fresh : state.frmEos = false) :
    (codecDecodeGetFrameBody frameNum pktDone pktEos state tries).1.frmEos = true ↔
      (decodeGetFrame tries).EndsStream := by
  unfold codecDecodeGetFrameBody GetFrame.EndsStream
  cases decodeGetFrame tries with
  | timeout => simp [fresh]
  | failed => simp [fresh]
  | ok frame =>
      cases frame with
      | none => simp [fresh]
      | some frame =>
          simp only
          split <;> rfl

theorem handledDecodedFrame_handled (object : ℕ) (frame : MppFrame) (call : Call) :
    (handleDecodedFrame object frame call).2 = true ↔
      (frame.infoChange = true → frame.changeHandled = true) := by
  unfold handleDecodedFrame
  split
  · next change => split <;> simp_all
  · next same => simp [same]

/-- While it need not wait for the end of the stream, the loop goes on after a frame that neither
ends the stream nor is the last one asked for. -/
theorem goes_iff (fresh : state.frmEos = false) (drain : (pktEos && pktDone) = false) :
    (codecDecodeGetFrameBody frameNum pktDone pktEos state tries).2 = none ↔
      (decodeGetFrame tries).GoesOn ∧
        ¬(0 < frameNum ∧ frameNum ≤ (state.call.take (decodeGetFrame tries)).frameCount) := by
  have counted := @body_call frameNum pktDone pktEos state tries
  unfold codecDecodeGetFrameBody GetFrame.GoesOn at *
  cases answer : decodeGetFrame tries with
  | timeout => simp
  | failed => simp
  | ok frame =>
      rw [answer] at counted
      cases frame with
      | none => simp [decodeGoesOn, drain, fresh]
      | some frame =>
          have handled := handledDecodedFrame_handled state.call.objects frame
            (state.call.receive fun object => .gotFrame object frame)
          simp only at counted ⊢
          rw [← counted]
          split
          · next done =>
              cases ended : frame.eos with
              | false => simp [decodeGoesOn, drain, decodeStops, ← handled, done]
              | true => simp [decodeGoesOn, drain]
          · next failed => simp [← handled, failed]

/-- With the last packet taken the loop goes on up to the end of the stream or an error. -/
theorem drains_iff (fresh : state.frmEos = false) (drain : (pktEos && pktDone) = true) :
    (codecDecodeGetFrameBody frameNum pktDone pktEos state tries).2 = none ↔
      (decodeGetFrame tries).Drains := by
  unfold codecDecodeGetFrameBody GetFrame.Drains GetFrame.GoesOn
  cases answer : decodeGetFrame tries with
  | timeout => simp
  | failed => simp
  | ok frame =>
      cases frame with
      | none => simp [decodeGoesOn, drain, fresh]
      | some frame =>
          have handled := handledDecodedFrame_handled state.call.objects frame
            (state.call.receive fun object => .gotFrame object frame)
          simp only
          split
          · next done =>
              cases ended : frame.eos with
              | false => simp [decodeGoesOn, drain, ← handled, done]
              | true => simp [decodeGoesOn, drain]
          · next failed => simp [← handled, failed]

end InnerLoop

/-! ### A round of the outer loop -/

section Pass

variable {frameNum : ℤ} {pktDone pktEos : Bool} {call : Call} {get : ℕ → ℕ → GetFrame}

theorem after_frameCount (n : ℕ) :
    (after (codecDecodeGetFrameBody frameNum pktDone pktEos) get ⟨call, false⟩ n).call.frameCount =
      call.frameCount + counted (fetched get) n := by
  induction n with
  | zero => simp [after, counted]
  | succ n ih => rw [after, body_call, Call.take_frameCount, ih, counted_succ, add_assoc]; rfl

theorem after_deliverable (n : ℕ) :
    Deliverable (after (codecDecodeGetFrameBody frameNum pktDone pktEos) get
      ⟨call, false⟩ n).call.outInfo ↔ Deliverable call.outInfo := by
  induction n with
  | zero => exact Iff.rfl
  | succ n ih => rw [after, body_call, Call.take_deliverable, ih]

theorem after_bounded (n : ℕ) :
    (after (codecDecodeGetFrameBody frameNum pktDone pktEos) get
      ⟨call, false⟩ n).call.Bounded frameNum ↔ call.Bounded frameNum ∧
        ∀ k < n, (fetched get k).Delivers → Deliverable call.outInfo →
          call.frameCount + counted (fetched get) k < frameNum := by
  induction n with
  | zero => simp [after]
  | succ n ih =>
      rw [after, body_call, Call.take_bounded, ih, after_deliverable, after_frameCount]
      constructor
      · rintro ⟨⟨bounded, earlier⟩, last⟩
        refine ⟨bounded, fun k k_lt => ?_⟩
        rcases Nat.lt_succ_iff_lt_or_eq.mp k_lt with before | rfl
        · exact earlier k before
        · exact last
      · rintro ⟨bounded, all⟩
        exact ⟨⟨bounded, fun k k_lt => all k (Nat.lt_succ_of_lt k_lt)⟩, all n (Nat.lt_succ_self n)⟩

theorem frmEos_of_goesOn {n : ℕ}
    (goes : GoesOn (codecDecodeGetFrameBody frameNum pktDone pktEos) get ⟨call, false⟩ n) :
    (after (codecDecodeGetFrameBody frameNum pktDone pktEos) get ⟨call, false⟩ n).frmEos =
      false := by
  cases n with
  | zero => rfl
  | succ n => exact frmEos_of_goes (goes n (Nat.lt_succ_self n))

/-- The frames that the decoder has at once end with an answer. -/
structure FrontEnds (row : ℕ → GetFrame) (n : ℕ) : Prop where
  goesOn : ∀ k < n, (row k).GoesOn
  stops : ¬(row n).GoesOn

/-- A call is over after the frames of a round: enough are counted, or the stream has ended and
no number was asked for. -/
def StopsAfter (frameNum frameCount : ℤ) (row : ℕ → GetFrame) (n : ℕ) : Prop :=
  0 < frameNum ∧ frameNum ≤ frameCount + counted row (n + 1) ∨
    frameNum = 0 ∧ (row n).EndsStream

theorem pass_leaves (drain : (pktEos && pktDone) = false) {n fuel : ℕ}
    (front : FrontEnds (fetched get) n) (enough : n < fuel) :
    (poll (codecDecodeGetFrameBody frameNum pktDone pktEos) fuel get ⟨call, false⟩).2 = true := by
  rcases poll_cases (codecDecodeGetFrameBody frameNum pktDone pktEos) fuel get ⟨call, false⟩ with
    ⟨m, _, left, _, last, eq⟩ | ⟨goes, _⟩
  · rw [eq]
    rcases body_leaves with more | leaves
    · exact absurd (more.symm.trans last) (by simp)
    · exact (Option.some.inj (leaves.symm.trans last)).symm
  · have fresh := frmEos_of_goesOn (goes.mono (Nat.le_of_lt enough))
    exact absurd ((goes_iff fresh drain).mp (goes n enough)).1 front.stops

/-- The loop is left at the end of the front, or before it when enough frames have come. -/
theorem exit_of_left (drain : (pktEos && pktDone) = false) {n fuel : ℕ}
    (front : FrontEnds (fetched get) n)
    (left : (poll (codecDecodeGetFrameBody frameNum pktDone pktEos) fuel get
      ⟨call, false⟩).2 = true) :
    ∃ m ≤ n, (poll (codecDecodeGetFrameBody frameNum pktDone pktEos) fuel get ⟨call, false⟩).1 =
        after (codecDecodeGetFrameBody frameNum pktDone pktEos) get ⟨call, false⟩ (m + 1) ∧
      ((after (codecDecodeGetFrameBody frameNum pktDone pktEos) get ⟨call, false⟩
        (m + 1)).frmEos = true ↔ (fetched get m).EndsStream) ∧
      (m < n → 0 < frameNum ∧ frameNum ≤ call.frameCount + counted (fetched get) (m + 1)) ∧
      ∀ k < m, ¬(0 < frameNum ∧ frameNum ≤ call.frameCount + counted (fetched get) (k + 1)) := by
  obtain ⟨m, _, goes, last, eq⟩ := exists_of_left left
  have went (k : ℕ) (k_lt : k < m) : (fetched get k).GoesOn ∧
      ¬(0 < frameNum ∧ frameNum ≤ call.frameCount + counted (fetched get) (k + 1)) := by
    have passed := (goes_iff (frmEos_of_goesOn (goes.mono (Nat.le_of_lt k_lt))) drain).mp
      (goes k k_lt)
    rw [Call.take_frameCount, after_frameCount, add_assoc] at passed
    rw [counted_succ]
    exact passed
  have fresh := frmEos_of_goesOn goes
  refine ⟨m, ?_, eq, frmEos_iff fresh, ?_, fun k k_lt => (went k k_lt).2⟩
  · exact Nat.le_of_not_lt fun beyond => front.stops (went n beyond).1
  · intro early
    refine Classical.byContradiction fun few => ?_
    have not_enough : ¬(0 < frameNum ∧ frameNum ≤
        ((after (codecDecodeGetFrameBody frameNum pktDone pktEos) get
          ⟨call, false⟩ m).call.take (decodeGetFrame (get m))).frameCount) := by
      rw [Call.take_frameCount, after_frameCount, add_assoc]
      rw [counted_succ] at few
      exact few
    have more := (goes_iff fresh drain).mpr ⟨front.goesOn m early, not_enough⟩
    exact absurd (more.symm.trans last) (by simp)

/-- What a round leaves when it need not wait for the end of the stream. -/
theorem pass_spec (drain : (pktEos && pktDone) = false) {n fuel : ℕ}
    (front : FrontEnds (fetched get) n) {result : FrameLoop}
    (left : poll (codecDecodeGetFrameBody frameNum pktDone pktEos) fuel get ⟨call, false⟩ =
      (result, true)) :
    (decodeStops frameNum result.call.frameCount result.frmEos = true ↔
        StopsAfter frameNum call.frameCount (fetched get) n) ∧
      (¬StopsAfter frameNum call.frameCount (fetched get) n →
        result.call.frameCount = call.frameCount + counted (fetched get) (n + 1)) ∧
      (Deliverable result.call.outInfo ↔ Deliverable call.outInfo) ∧
      (0 < frameNum → (result.call.Bounded frameNum ↔ call.Bounded frameNum ∧
        (frameNum ≤ call.frameCount → (fetched get 0).Delivers →
          ¬Deliverable call.outInfo))) := by
  obtain ⟨m, m_le, eq, ends, early, few⟩ := exit_of_left drain front (by rw [left])
  rw [left] at eq
  obtain rfl : result = _ := eq
  have more : counted (fetched get) (m + 1) ≤ counted (fetched get) (n + 1) :=
    counted_mono (fetched get) (Nat.succ_le_succ m_le)
  have at_end : frameNum ≤ 0 → m = n := fun none_asked =>
    Nat.le_antisymm m_le (Nat.le_of_not_lt fun before => absurd (early before).1 (by omega))
  refine ⟨?_, ?_, after_deliverable _, ?_⟩
  · rw [decodeStops, StopsAfter, after_frameCount]
    simp only [Bool.or_eq_true, Bool.and_eq_true, decide_eq_true_eq, ends]
    constructor
    · rintro (⟨asked, enough⟩ | ⟨asked, ended⟩)
      · exact Or.inl ⟨asked, Int.le_trans enough (by omega)⟩
      · exact Or.inr ⟨asked, at_end (by omega) ▸ ended⟩
    · rintro (⟨asked, enough⟩ | ⟨asked, ended⟩)
      · refine Or.inl ⟨asked, ?_⟩
        rcases Nat.lt_or_eq_of_le m_le with before | rfl
        · exact (early before).2
        · exact enough
      · exact Or.inr ⟨asked, (at_end (by omega)).symm ▸ ended⟩
  · intro goes_on
    rcases Nat.lt_or_eq_of_le m_le with before | rfl
    · have := early before
      exact absurd (Or.inl ⟨this.1, by omega⟩) goes_on
    · exact after_frameCount _
  · intro asked
    rw [after_bounded]
    refine and_congr_right fun _ => ⟨fun all reached delivers there => ?_, fun none_first => ?_⟩
    · have := all 0 (Nat.succ_pos m) delivers there
      simp only [counted, Finset.range_zero, Finset.sum_empty, add_zero] at this
      omega
    · intro k k_lt delivers there
      cases k with
      | zero =>
          simp only [counted, Finset.range_zero, Finset.sum_empty, add_zero]
          exact Int.lt_of_not_ge fun reached => none_first reached delivers there
      | succ k =>
          have := few k (Nat.lt_of_succ_lt_succ k_lt)
          omega

/-- The answer that ends the wait for the end of the stream. -/
structure StreamEnds (row : ℕ → GetFrame) (n : ℕ) : Prop where
  drains : ∀ k < n, (row k).Drains
  stops : ¬(row n).Drains

theorem goesOn_of_drains (drain : (pktEos && pktDone) = true) {n : ℕ}
    (drains : ∀ k < n, (fetched get k).Drains) :
    GoesOn (codecDecodeGetFrameBody frameNum pktDone pktEos) get ⟨call, false⟩ n := by
  induction n with
  | zero => exact fun k k_lt => absurd k_lt (Nat.not_lt_zero k)
  | succ n ih =>
      have goes := ih fun k k_lt => drains k (Nat.lt_succ_of_lt k_lt)
      exact goes.succ ((drains_iff (frmEos_of_goesOn goes) drain).mpr
        (drains n (Nat.lt_succ_self n)))

theorem drain_leaves (drain : (pktEos && pktDone) = true) {n fuel : ℕ}
    (ends : StreamEnds (fetched get) n) (enough : n < fuel) :
    poll (codecDecodeGetFrameBody frameNum pktDone pktEos) fuel get ⟨call, false⟩ =
      (after (codecDecodeGetFrameBody frameNum pktDone pktEos) get ⟨call, false⟩ (n + 1),
        true) := by
  have goes : GoesOn (codecDecodeGetFrameBody frameNum pktDone pktEos) get ⟨call, false⟩ n :=
    goesOn_of_drains drain ends.drains
  refine poll_of_verdict goes ?_ enough
  refine body_leaves.resolve_left fun more => ends.stops ?_
  exact (drains_iff (frmEos_of_goesOn goes) drain).mp more

theorem streamEnds_of_left (drain : (pktEos && pktDone) = true) {fuel : ℕ} {result : FrameLoop}
    (left : poll (codecDecodeGetFrameBody frameNum pktDone pktEos) fuel get ⟨call, false⟩ =
      (result, true)) :
    ∃ n, StreamEnds (fetched get) n ∧
      result = after (codecDecodeGetFrameBody frameNum pktDone pktEos) get ⟨call, false⟩
        (n + 1) := by
  obtain ⟨n, _, goes, last, eq⟩ := exists_of_left (by rw [left])
  rw [left] at eq
  refine ⟨n, ⟨fun k k_lt => ?_, fun more => ?_⟩, eq⟩
  · exact (drains_iff (frmEos_of_goesOn (goes.mono (Nat.le_of_lt k_lt))) drain).mp (goes k k_lt)
  · have goes_on : verdict (codecDecodeGetFrameBody frameNum pktDone pktEos) get
        ⟨call, false⟩ n = none := (drains_iff (frmEos_of_goesOn goes) drain).mpr more
    exact absurd (goes_on.symm.trans last) (by simp)

end Pass

end Codec
end RockchipSoc
