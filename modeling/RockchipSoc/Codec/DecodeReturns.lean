import RockchipSoc.Codec.FrameLoop
import Mathlib.Algebra.Order.BigOperators.Group.Finset
import Mathlib.Data.Set.Finite.Basic
import Mathlib.Order.Lattice.Nat

/-!
# When decoding returns

The outer loop runs until the packet is taken or enough frames have come; every round runs
through the frames that the decoder has at once.  From the answers it can be read off whether a
call returns and what it delivers.
-/

namespace RockchipSoc
namespace Codec

open Polling

/-! ### The outer loop -/

theorem and_eq_false_of_not_both {a b : Bool} (waits : ¬(a = true ∧ b = true)) :
    (b && a) = false := by
  rw [Bool.eq_false_iff, ne_eq, Bool.and_eq_true]
  exact fun both => waits both.symm

/-- The end of the frames that the decoder has at once. -/
noncomputable def frontEnd (row : ℕ → GetFrame) : ℕ := sInf {n | ¬(row n).GoesOn}

theorem frontEnds_frontEnd {row : ℕ → GetFrame} (ends : ∃ n, ¬(row n).GoesOn) :
    FrontEnds row (frontEnd row) where
  goesOn _ earlier := not_not.mp (Nat.notMem_of_lt_sInf earlier)
  stops := Nat.sInf_mem ends

/-- The frames counted before a round, when every earlier round runs to the end of its front. -/
noncomputable def countBefore (round : ℕ → Round) (frameCount : ℤ) (r : ℕ) : ℤ :=
  frameCount + ∑ k ∈ Finset.range r,
    counted (fetched (round k).get) (frontEnd (fetched (round k).get) + 1)

/-- The frames of a round end the call. -/
def Stops (frameNum frameCount : ℤ) (round : ℕ → Round) (r : ℕ) : Prop :=
  StopsAfter frameNum (countBefore round frameCount r) (fetched (round r).get)
    (frontEnd (fetched (round r).get))

theorem countBefore_succ (round : ℕ → Round) (frameCount : ℤ) (r : ℕ) :
    countBefore round frameCount (r + 1) = countBefore round frameCount r +
      counted (fetched (round r).get) (frontEnd (fetched (round r).get) + 1) := by
  rw [countBefore, countBefore, Finset.sum_range_succ, add_assoc]

section OuterLoop

variable {fuel : ℕ} {frameNum : ℤ} {pktEos : Bool} {state : DecodeLoop} {next : Round}

theorem outer_call (fresh : state.pktDone = false) :
    (codecDecodeBody fuel frameNum pktEos state next).1.call =
        (poll (codecDecodeGetFrameBody frameNum next.put pktEos) fuel next.get
          ⟨state.call, false⟩).1.call ∧
      (codecDecodeBody fuel frameNum pktEos state next).1.pktDone = next.put := by
  simp only [codecDecodeBody, fresh, Bool.false_or]
  split_ifs <;> exact ⟨rfl, rfl⟩

/-- What the outer loop does after a round that was left. -/
theorem outer_of_left (fresh : state.pktDone = false) {result : FrameLoop}
    (left : poll (codecDecodeGetFrameBody frameNum next.put pktEos) fuel next.get
      ⟨state.call, false⟩ = (result, true)) :
    (codecDecodeBody fuel frameNum pktEos state next).2 =
      if decodeStops frameNum result.call.frameCount result.frmEos = true ∨ next.put = true
      then some true else none := by
  simp only [codecDecodeBody, fresh, Bool.false_or, left]
  cases decodeStops frameNum result.call.frameCount result.frmEos <;> cases next.put <;> rfl

/-- A round that was not left keeps the call from ending. -/
theorem outer_running (fresh : state.pktDone = false)
    (running : (poll (codecDecodeGetFrameBody frameNum next.put pktEos) fuel next.get
      ⟨state.call, false⟩).2 = false) :
    (codecDecodeBody fuel frameNum pktEos state next).2 = some false := by
  simp [codecDecodeBody, fresh, running]

/-- A round with any verdict but this one was left. -/
theorem outer_left (fresh : state.pktDone = false)
    (ends : (codecDecodeBody fuel frameNum pktEos state next).2 ≠ some false) :
    ∃ result, poll (codecDecodeGetFrameBody frameNum next.put pktEos) fuel next.get
      ⟨state.call, false⟩ = (result, true) := by
  cases left : (poll (codecDecodeGetFrameBody frameNum next.put pktEos) fuel next.get
      ⟨state.call, false⟩).2 with
  | false => exact absurd (outer_running fresh left) ends
  | true => exact ⟨_, Prod.ext rfl left⟩

end OuterLoop

/-! ### The rounds up to the last -/

section Rounds

variable {fuel : ℕ} {frameNum : ℤ} {pktEos : Bool} {call : Call} {round : ℕ → Round}

/-- What holds when a number of rounds have gone on. -/
structure Before (frameNum : ℤ) (call : Call) (round : ℕ → Round) (r : ℕ) (state : DecodeLoop) :
    Prop where
  fresh : state.pktDone = false
  frameCount : state.call.frameCount = countBefore round call.frameCount r
  deliverable : Deliverable state.call.outInfo ↔ Deliverable call.outInfo
  bounded : 0 < frameNum → (state.call.Bounded frameNum ↔ call.Bounded frameNum)
  refused : ∀ k < r, (round k).put = false ∧ ¬Stops frameNum call.frameCount round k

theorem before_of_goesOn
    (fronts : ∀ r, FrontEnds (fetched (round r).get) (frontEnd (fetched (round r).get))) {r : ℕ}
    (goes : GoesOn (codecDecodeBody fuel frameNum pktEos) round ⟨call, false, false⟩ r) :
    Before frameNum call round r
      (after (codecDecodeBody fuel frameNum pktEos) round ⟨call, false, false⟩ r) := by
  induction r with
  | zero =>
      exact ⟨rfl, by simp [after, countBefore], Iff.rfl, fun _ => Iff.rfl,
        fun k k_lt => absurd k_lt (Nat.not_lt_zero k)⟩
  | succ r ih =>
      have so_far := ih (goes.mono (Nat.le_succ r))
      have more := goes r (Nat.lt_succ_self r)
      rw [verdict] at more
      obtain ⟨result, left⟩ := outer_left so_far.fresh (by rw [more]; simp)
      rw [outer_of_left so_far.fresh left] at more
      have not_over : ¬(decodeStops frameNum result.call.frameCount result.frmEos = true ∨
          (round r).put = true) := by
        intro ended
        rw [if_pos ended] at more
        cases more
      rw [not_or, Bool.not_eq_true (round r).put] at not_over
      obtain ⟨runs_on, refused⟩ := not_over
      obtain ⟨call_eq, done_eq⟩ := @outer_call fuel frameNum pktEos _ (round r) so_far.fresh
      rw [left] at call_eq
      have waits : (pktEos && (round r).put) = false := by rw [refused, Bool.and_false]
      obtain ⟨stops, count, deliverable, bounded⟩ := pass_spec waits (fronts r) left
      rw [so_far.frameCount] at stops count bounded
      have goes_on : ¬Stops frameNum call.frameCount round r := fun stop =>
        runs_on (stops.mpr stop)
      rw [after]
      refine ⟨done_eq.trans refused, ?_, ?_, fun asked => ?_, fun k k_lt => ?_⟩
      · rw [call_eq, count goes_on, countBefore_succ]
      · rw [call_eq, deliverable, so_far.deliverable]
      · have few : countBefore round call.frameCount r < frameNum := by
          have not_enough : ¬frameNum ≤ _ := fun enough => goes_on (Or.inl ⟨asked, enough⟩)
          have nonneg := counted_mono (fetched (round r).get)
            (Nat.zero_le (frontEnd (fetched (round r).get) + 1))
          rw [counted, Finset.range_zero, Finset.sum_empty] at nonneg
          omega
        rw [call_eq, bounded asked, so_far.bounded asked]
        exact and_iff_left fun reached => absurd few (Int.not_lt.mpr reached)
      · rcases Nat.lt_succ_iff_lt_or_eq.mp k_lt with earlier | rfl
        · exact so_far.refused k earlier
        · exact ⟨refused, goes_on⟩

/-- Rounds that refuse the packet and give no reason to stop go on, with fuel for their fronts. -/
theorem goesOn_of_refused
    (fronts : ∀ r, FrontEnds (fetched (round r).get) (frontEnd (fetched (round r).get))) {r : ℕ}
    (refused : ∀ k < r, (round k).put = false ∧ ¬Stops frameNum call.frameCount round k)
    (enough : ∀ k < r, frontEnd (fetched (round k).get) < fuel) :
    GoesOn (codecDecodeBody fuel frameNum pktEos) round ⟨call, false, false⟩ r := by
  induction r with
  | zero => exact fun k k_lt => absurd k_lt (Nat.not_lt_zero k)
  | succ r ih =>
      have goes := ih (fun k k_lt => refused k (Nat.lt_succ_of_lt k_lt))
        fun k k_lt => enough k (Nat.lt_succ_of_lt k_lt)
      have so_far := before_of_goesOn fronts goes
      obtain ⟨put, goes_on⟩ := refused r (Nat.lt_succ_self r)
      have waits : (pktEos && (round r).put) = false := by rw [put, Bool.and_false]
      obtain ⟨result, left⟩ : ∃ result, poll (codecDecodeGetFrameBody frameNum (round r).put
          pktEos) fuel (round r).get ⟨(after (codecDecodeBody fuel frameNum pktEos) round
          ⟨call, false, false⟩ r).call, false⟩ = (result, true) :=
        ⟨_, Prod.ext rfl (pass_leaves waits (fronts r) (enough r (Nat.lt_succ_self r)))⟩
      have stops := (pass_spec waits (fronts r) left).1
      rw [so_far.frameCount] at stops
      refine goes.succ ?_
      rw [verdict, outer_of_left so_far.fresh left, if_neg]
      rw [stops, put]
      exact not_or.mpr ⟨goes_on, Bool.false_ne_true⟩

/-- The last round takes the packet or gives a reason to stop; what it announces is bounded when
no frame too many is delivered in it. -/
theorem last_round
    (fronts : ∀ r, FrontEnds (fetched (round r).get) (frontEnd (fetched (round r).get))) {r : ℕ}
    (goes : GoesOn (codecDecodeBody fuel frameNum pktEos) round ⟨call, false, false⟩ r)
    (last : verdict (codecDecodeBody fuel frameNum pktEos) round ⟨call, false, false⟩ r =
      some true) :
    ((round r).put = true ∨ Stops frameNum call.frameCount round r) ∧
      (¬((round r).put = true ∧ pktEos = true) → 0 < frameNum →
        ((after (codecDecodeBody fuel frameNum pktEos) round ⟨call, false, false⟩
          (r + 1)).call.Bounded frameNum ↔ call.Bounded frameNum ∧
            (frameNum ≤ countBefore round call.frameCount r →
              (fetched (round r).get 0).Delivers → ¬Deliverable call.outInfo))) ∧
      ((round r).put = true ∧ pktEos = true →
        ∃ n, StreamEnds (fetched (round r).get) n ∧ (0 < frameNum →
          ((after (codecDecodeBody fuel frameNum pktEos) round ⟨call, false, false⟩
            (r + 1)).call.Bounded frameNum ↔ call.Bounded frameNum ∧
              ∀ k < n + 1, (fetched (round r).get k).Delivers → Deliverable call.outInfo →
                countBefore round call.frameCount r + counted (fetched (round r).get) k <
                  frameNum))) := by
  have so_far := before_of_goesOn fronts goes
  rw [verdict] at last
  obtain ⟨result, left⟩ := outer_left so_far.fresh (by rw [last]; simp)
  have call_eq := (@outer_call fuel frameNum pktEos _ (round r) so_far.fresh).1
  rw [left] at call_eq
  rw [outer_of_left so_far.fresh left] at last
  have over' : decodeStops frameNum result.call.frameCount result.frmEos = true ∨
      (round r).put = true := Classical.byContradiction fun goes_on => by
    rw [if_neg goes_on] at last
    cases last
  refine ⟨?_, fun waits asked => ?_, fun waits => ?_⟩
  · rcases over' with stops | taken
    · cases put : (round r).put with
      | true => exact Or.inl rfl
      | false =>
          have waits : (pktEos && (round r).put) = false := by rw [put, Bool.and_false]
          have exact_stop := (pass_spec waits (fronts r) left).1
          rw [so_far.frameCount] at exact_stop
          exact Or.inr (exact_stop.mp stops)
    · exact Or.inl taken
  · have waits' := and_eq_false_of_not_both waits
    have bounded := (pass_spec waits' (fronts r) left).2.2.2 asked
    rw [so_far.frameCount, so_far.bounded asked, so_far.deliverable] at bounded
    rw [after, call_eq]
    exact bounded
  · obtain ⟨n, ends, rfl⟩ := streamEnds_of_left (by rw [waits.1, waits.2]; rfl) left
    refine ⟨n, ends, fun asked => ?_⟩
    rw [after, call_eq, after_bounded, so_far.bounded asked, so_far.deliverable,
      so_far.frameCount]

/-- The round in which a call ends: every earlier one refuses the packet and goes on; this one
takes it or stops, and some answer ends the stream if it takes the last packet. -/
structure EndsIn (frameNum frameCount : ℤ) (pktEos : Bool) (round : ℕ → Round) (r : ℕ) :
    Prop where
  before : ∀ k < r, (round k).put = false ∧ ¬Stops frameNum frameCount round k
  last : (round r).put = true ∨ Stops frameNum frameCount round r
  drained : (round r).put = true ∧ pktEos = true → ∃ n, StreamEnds (fetched (round r).get) n

/-- What the last round delivers: none first when enough frames are decoded already, and none when
enough are decoded up to the end of the stream. -/
structure DeliversWithin (frameNum frameCount : ℤ) (pktEos : Bool)
    (outInfo : Option CodecBuffer) (round : ℕ → Round) (r : ℕ) : Prop where
  none_first : ¬((round r).put = true ∧ pktEos = true) →
    frameNum ≤ countBefore round frameCount r → (fetched (round r).get 0).Delivers →
      ¬Deliverable outInfo
  drained : (round r).put = true ∧ pktEos = true →
    ∀ n, StreamEnds (fetched (round r).get) n → ∀ k < n + 1, (fetched (round r).get k).Delivers →
      Deliverable outInfo →
        countBefore round frameCount r + counted (fetched (round r).get) k < frameNum

theorem EndsIn.unique {frameNum frameCount : ℤ} {pktEos : Bool} {round : ℕ → Round} {r s : ℕ}
    (first : EndsIn frameNum frameCount pktEos round r)
    (second : EndsIn frameNum frameCount pktEos round s) : r = s := by
  rcases Nat.lt_trichotomy r s with lt | eq | gt
  · obtain ⟨refused, goes_on⟩ := second.before r lt
    exact absurd first.last (not_or.mpr ⟨by simp [refused], goes_on⟩)
  · exact eq
  · obtain ⟨refused, goes_on⟩ := first.before s gt
    exact absurd second.last (not_or.mpr ⟨by simp [refused], goes_on⟩)

theorem StreamEnds.unique {row : ℕ → GetFrame} {n m : ℕ} (first : StreamEnds row n)
    (second : StreamEnds row m) : n = m := by
  rcases Nat.lt_trichotomy n m with lt | eq | gt
  · exact absurd (second.drains n lt) first.stops
  · exact eq
  · exact absurd (first.drains m gt) second.stops

/-- With the fuel that its rounds need, a call that has a last round ends in it. -/
theorem exists_fuel
    (fronts : ∀ r, FrontEnds (fetched (round r).get) (frontEnd (fetched (round r).get))) {r : ℕ}
    (ends : EndsIn frameNum call.frameCount pktEos round r) :
    ∃ fuel, (codecDecodeLoop fuel frameNum pktEos call round).2 = true := by
  have bounds (m k : ℕ) (k_le : k ≤ r) : frontEnd (fetched (round k).get) <
      (∑ i ∈ Finset.range (r + 1), frontEnd (fetched (round i).get)) + m + r + 1 := by
    have one : frontEnd (fetched (round k).get) ≤
        ∑ i ∈ Finset.range (r + 1), frontEnd (fetched (round i).get) :=
      Finset.single_le_sum (f := fun i => frontEnd (fetched (round i).get))
        (fun i _ => Nat.zero_le _) (Finset.mem_range.mpr (Nat.lt_succ_of_le k_le))
    omega
  have ended (m fuel : ℕ)
      (fuel_eq : fuel = (∑ i ∈ Finset.range (r + 1), frontEnd (fetched (round i).get)) + m + r + 1)
      (leaves : ∀ state, Before frameNum call round r state → ∃ result,
        poll (codecDecodeGetFrameBody frameNum (round r).put pktEos) fuel (round r).get
          ⟨state.call, false⟩ = (result, true) ∧
        (decodeStops frameNum result.call.frameCount result.frmEos = true ∨
          (round r).put = true)) :
      (codecDecodeLoop fuel frameNum pktEos call round).2 = true := by
    have goes : GoesOn (codecDecodeBody fuel frameNum pktEos) round ⟨call, false, false⟩ r :=
      goesOn_of_refused fronts ends.before fun k k_lt =>
        fuel_eq ▸ bounds m k (Nat.le_of_lt k_lt)
    have so_far := before_of_goesOn fronts goes
    obtain ⟨result, left, over'⟩ := leaves _ so_far
    have last : verdict (codecDecodeBody fuel frameNum pktEos) round ⟨call, false, false⟩ r =
        some true := by
      rw [verdict, outer_of_left so_far.fresh left, if_pos over']
    rw [codecDecodeLoop, poll_of_verdict goes last (by omega)]
  by_cases waits : (round r).put = true ∧ pktEos = true
  · obtain ⟨n, stream⟩ := ends.drained waits
    refine ⟨_, ended n _ rfl fun state _ => ⟨_, drain_leaves ?_ stream (by omega), Or.inr waits.1⟩⟩
    rw [waits.1, waits.2]
    rfl
  · have waits' := and_eq_false_of_not_both waits
    refine ⟨_, ended 0 _ rfl fun state so_far =>
      ⟨_, Prod.ext rfl (pass_leaves waits' (fronts r) (bounds 0 r (Nat.le_refl r))), ?_⟩⟩
    rcases ends.last with taken | stops
    · exact Or.inr taken
    · refine Or.inl ((pass_spec waits' (fronts r) (Prod.ext rfl
        (pass_leaves waits' (fronts r) (bounds 0 r (Nat.le_refl r))))).1.mpr ?_)
      rw [so_far.frameCount]
      exact stops

end Rounds

/-! ### The call -/

/-- Only finitely many calls of `decode_get_frame` deliver a frame. -/
def FinitelyManyFrames (round : ℕ → Round) : Prop :=
  {tried : ℕ × ℕ × ℕ | ∃ frame, (round tried.1).get tried.2.1 tried.2.2 = .ok (some frame)}.Finite

theorem exists_try (retryTimes : ℕ) (tries : ℕ → GetFrame) :
    ∃ t, decodeGetFrameLoop retryTimes tries = tries t := by
  induction retryTimes generalizing tries with
  | zero => exact ⟨0, rfl⟩
  | succ retryTimes ih =>
      rw [decodeGetFrameLoop]
      split
      · obtain ⟨t, eq⟩ := ih fun n => tries (n + 1)
        exact ⟨t + 1, eq⟩
      · exact ⟨0, rfl⟩

/-- A decoder that has finitely many frames pauses in every round. -/
theorem FinitelyManyFrames.fronts {round : ℕ → Round} (finite : FinitelyManyFrames round) (r : ℕ) :
    FrontEnds (fetched (round r).get) (frontEnd (fetched (round r).get)) := by
  refine frontEnds_frontEnd (Classical.byContradiction fun never => ?_)
  have frames (n : ℕ) : ∃ t frame, (round r).get n t = .ok (some frame) := by
    have goes : (fetched (round r).get n).GoesOn :=
      Classical.byContradiction fun stops => never ⟨n, stops⟩
    obtain ⟨t, eq⟩ := exists_try 10 ((round r).get n)
    cases answer : fetched (round r).get n with
    | timeout => rw [answer] at goes; exact goes.elim
    | failed => rw [answer] at goes; exact goes.elim
    | ok frame =>
        cases frame with
        | none => rw [answer] at goes; exact goes.elim
        | some frame => exact ⟨t, frame, eq.symm.trans answer⟩
  choose t frame eq using frames
  have injective : Function.Injective fun n => (r, n, t n) := fun n m same =>
    (Prod.mk.inj (Prod.mk.inj same).2).1
  exact Set.infinite_of_injective_forall_mem injective
    (fun n => (⟨frame n, eq n⟩ : ∃ frame, (round r).get n (t n) = .ok (some frame))) finite

/-- A call of `CodecDecode` returns, gives the input back once when it took it, and delivers no
frame when as many as were asked for are decoded. -/
structure DecodesWell (objects : ℕ) (component : Component) (inputData : CodecBuffer)
    (outInfo : Option CodecBuffer) (answers : DecodeAnswers) : Prop where
  returns : ∃ fuel, (codecDecode fuel objects component inputData outInfo answers).2 ≠ none
  inputOnce : ∀ fuel, (codecDecode fuel objects component inputData outInfo answers).2 ≠ none →
    answers.packetInit = true →
    (codecDecode fuel objects component inputData outInfo answers).1.log.count .inputAvailable = 1
  bounded : ∀ fuel, (codecDecode fuel objects component inputData outInfo answers).2 ≠ none →
    0 < component.frameNum →
    (codecDecode fuel objects component inputData outInfo answers).1.Bounded component.frameNum

section

variable {fuel objects : ℕ} {component : Component} {inputData : CodecBuffer}
  {outInfo : Option CodecBuffer} {answers : DecodeAnswers}

theorem withPacket_bounded (frameNum : ℤ) :
    (component.withPacket objects outInfo).Bounded frameNum := by
  intro buffer frameCount copied listed
  simp [Component.withPacket, Component.begin] at listed

/-- A call that returns has a last round, and that round decides what it delivers. -/
theorem endsIn_of_returns (finite : FinitelyManyFrames answers.round)
    (taken : answers.packetInit = true)
    (returned : (codecDecode fuel objects component inputData outInfo answers).2 ≠ none) :
    ∃ r, EndsIn component.frameNum component.frameCount inputData.eos answers.round r ∧
      (0 < component.frameNum →
        ((codecDecode fuel objects component inputData outInfo answers).1.Bounded
            component.frameNum ↔
          DeliversWithin component.frameNum component.frameCount inputData.eos outInfo
            answers.round r)) := by
  rw [codecDecode_eq taken] at returned ⊢
  split at returned
  · next left =>
      obtain ⟨r, _, goes, last, eq⟩ := exists_of_left left
      have so_far := before_of_goesOn finite.fronts goes
      obtain ⟨last_reason, plain, draining⟩ := last_round finite.fronts goes last
      have bounded (call : Call) (frameNum : ℤ) :
          (call.emit [.inputAvailable]).Bounded frameNum ↔ call.Bounded frameNum :=
        Call.bounded_congr rfl (by simp)
      have fresh : (component.withPacket objects outInfo).Bounded component.frameNum :=
        withPacket_bounded component.frameNum
      refine ⟨r, ⟨so_far.refused, last_reason, fun waits => ?_⟩, fun asked => ?_⟩
      · obtain ⟨n, stream, _⟩ := draining waits
        exact ⟨n, stream⟩
      · rw [if_pos left, bounded, codecDecodeLoop, eq]
        by_cases waits : (answers.round r).put = true ∧ inputData.eos = true
        · obtain ⟨n, stream, within⟩ := draining waits
          rw [within asked]
          constructor
          · rintro ⟨_, few⟩
            refine ⟨fun plain => absurd waits plain, fun _ n' stream' => ?_⟩
            obtain rfl := stream.unique stream'
            exact few
          · exact fun within' => ⟨fresh, within'.drained waits n stream⟩
        · rw [plain waits asked]
          exact ⟨fun none_first => ⟨fun _ => none_first.2, fun waits' => absurd waits' waits⟩,
            fun within' => ⟨fresh, within'.none_first waits⟩⟩
  · exact absurd rfl returned

theorem returns_of_endsIn (finite : FinitelyManyFrames answers.round)
    (taken : answers.packetInit = true) {r : ℕ}
    (ends : EndsIn component.frameNum component.frameCount inputData.eos answers.round r) :
    ∃ fuel, (codecDecode fuel objects component inputData outInfo answers).2 ≠ none := by
  obtain ⟨fuel, left⟩ := @exists_fuel component.frameNum inputData.eos
    (component.withPacket objects outInfo) answers.round finite.fronts r ends
  refine ⟨fuel, ?_⟩
  rw [codecDecode_eq taken, if_pos left]
  exact Option.some_ne_none _

theorem inputAvailable_once (taken : answers.packetInit = true)
    (returned : (codecDecode fuel objects component inputData outInfo answers).2 ≠ none) :
    (codecDecode fuel objects component inputData outInfo answers).1.log.count
      .inputAvailable = 1 := by
  rw [codecDecode_eq taken] at returned ⊢
  split at returned
  · next left =>
      obtain ⟨frames, eq⟩ := codecDecodeLoop_takes fuel component.frameNum inputData.eos
        (component.withPacket objects outInfo) answers.round
      rw [if_pos left, Call.emit_log, List.count_append, eq, count_inputAvailable_takes]
      simp [Component.withPacket, Component.begin]
  · exact absurd rfl returned

end

/-- For a decoder that has finitely many frames, a call that can make its packet returns and does
what it should exactly when it has a last round, and that round delivers no frame too many. -/
theorem decode_returns_iff (objects : ℕ) (component : Component) (inputData : CodecBuffer)
    (outInfo : Option CodecBuffer) (answers : DecodeAnswers)
    (finite : FinitelyManyFrames answers.round) :
    DecodesWell objects component inputData outInfo answers ↔ (answers.packetInit = true →
      ∃ r, EndsIn component.frameNum component.frameCount inputData.eos answers.round r ∧
        (0 < component.frameNum → DeliversWithin component.frameNum component.frameCount
          inputData.eos outInfo answers.round r)) := by
  constructor
  · intro well taken
    obtain ⟨fuel, returned⟩ := well.returns
    obtain ⟨r, ends, within⟩ := endsIn_of_returns finite taken returned
    exact ⟨r, ends, fun asked => (within asked).mp (well.bounded fuel returned asked)⟩
  · intro ends_well
    cases taken : answers.packetInit with
    | false =>
        have untaken (fuel : ℕ) := @codecDecode_untaken fuel objects component inputData outInfo
          answers taken
        refine ⟨⟨0, by rw [untaken]; exact Option.some_ne_none _⟩,
          fun _ _ taken' => absurd (taken.symm.trans taken') Bool.false_ne_true,
          fun fuel _ _ => ?_⟩
        rw [untaken]
        exact fun _ _ _ listed => by cases listed
    | true =>
        obtain ⟨r, ends, within⟩ := ends_well taken
        refine ⟨returns_of_endsIn finite taken ends,
          fun fuel returned _ => inputAvailable_once taken returned,
          fun fuel returned asked => ?_⟩
        obtain ⟨r', ends', bounded⟩ := endsIn_of_returns finite taken returned
        obtain rfl := ends.unique ends'
        exact (bounded asked).mpr (within asked)

/-- A decoder of two frames that first gives one of them, then none, then the last. -/
def twoFrames (round i t : ℕ) : GetFrame :=
  if (round, i, t) = (0, 0, 0) then .ok (some (goodFrame false))
  else if (round, i, t) = (0, 2, 0) then .ok (some (goodFrame true))
  else .ok none

theorem finite_twoFrames : FinitelyManyFrames fun r => ⟨true, twoFrames r⟩ := by
  refine Set.Finite.subset (Set.toFinite {(0, 0, 0), (0, 2, 0)}) ?_
  rintro ⟨r, i, t⟩ ⟨frame, eq⟩
  simp only [twoFrames] at eq
  split_ifs at eq with first second
  · exact Or.inl first
  · exact Or.inr second
  · cases eq

theorem streamEnds_twoFrames : StreamEnds (fetched (twoFrames 0)) 2 where
  drains k k_lt := by
    have small : k = 0 ∨ k = 1 := by omega
    rcases small with rfl | rfl
    · exact Or.inr ⟨rfl, fun change => absurd change Bool.false_ne_true⟩
    · exact Or.inl rfl
  stops drains := by
    rcases drains with none_left | goes
    · cases none_left
    · exact absurd goes.1.symm Bool.false_ne_true

theorem decode_returns_iff_twoFrames :
    DecodesWell 0 (decoderComponent 2) (codecBuffer true) (some (codecBuffer false))
      ⟨true, fun r => ⟨true, twoFrames r⟩⟩ := by
  refine (decode_returns_iff 0 (decoderComponent 2) (codecBuffer true)
    (some (codecBuffer false)) ⟨true, fun r => ⟨true, twoFrames r⟩⟩ finite_twoFrames).mpr
    fun _ => ⟨0, ⟨fun k k_lt => absurd k_lt (Nat.not_lt_zero k), Or.inl rfl, fun _ => ?_⟩,
      fun _ => ⟨fun plain => absurd ⟨rfl, rfl⟩ plain, fun _ n stream k k_lt _ _ => ?_⟩⟩
  · exact ⟨2, streamEnds_twoFrames⟩
  · obtain rfl := stream.unique streamEnds_twoFrames
    have few : ∀ k < 3, counted (fetched (twoFrames 0)) k < 2 := by decide
    simpa [countBefore, decoderComponent] using few k k_lt

/-- A decoder that refuses the packet and has no frame. -/
def refusing (_ : ℕ) : Round := ⟨false, fun _ _ => .ok none⟩

/-- A packet that is never taken keeps the call from returning. -/
theorem decode_never_returns :
    ¬DecodesWell 0 (decoderComponent 0) (codecBuffer false) (some (codecBuffer false))
      ⟨true, refusing⟩ := by
  intro well
  obtain ⟨fuel, returned⟩ := well.returns
  have finite : FinitelyManyFrames refusing := by
    refine Set.finite_empty.subset ?_
    rintro tried ⟨frame, eq⟩
    cases eq
  obtain ⟨r, ends, _⟩ := endsIn_of_returns finite rfl returned
  rcases ends.last with taken | asked | ended
  · cases taken
  · exact absurd asked.1 (Int.lt_irrefl 0)
  · exact ended.2.elim

end Codec
end RockchipSoc
