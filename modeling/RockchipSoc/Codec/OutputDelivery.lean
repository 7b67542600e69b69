import RockchipSoc.Codec.FrameEvents
import Mathlib.Data.List.Basic

/-!
# What is delivered in the output buffer

A call has one output buffer.  A second copy overwrites what was announced with the first, and a
buffer is announced whether or not the copy into it succeeded.  So a call delivers all its data
once exactly when at most one piece arrives and fits.
-/

namespace RockchipSoc
namespace Codec

open Polling

/-! ### Logs -/

/-- The buffer that an event announces, and whether the copy into it succeeded. -/
def Event.announced : Event → Option (CodecBuffer × Bool)
  | .outputAvailable outInfo _ done => some (outInfo, done)
  | _ => none

def announcements (log : List Event) : List (CodecBuffer × Bool) := log.filterMap Event.announced

/-- No buffer is overwritten once it is announced, and each is announced with its copy made and
its length not above its capacity. -/
structure DeliversOnce (log : List Event) : Prop where
  kept : log.Pairwise fun earlier later => earlier.announced ≠ none → later ≠ .copied
  filled : ∀ outInfo frameCount copied, .outputAvailable outInfo frameCount copied ∈ log →
    copied = true ∧ outInfo.length ≤ outInfo.capacity

/-- Whether a piece of data was delivered as it should be. -/
def fits (delivered : CodecBuffer × Bool) : Bool :=
  delivered.2 && decide (delivered.1.length ≤ delivered.1.capacity)

/-- At most one piece, and it fits. -/
def Once (outcomes : List Bool) : Prop := outcomes = [] ∨ outcomes = [true]

instance (outcomes : List Bool) : Decidable (Once outcomes) :=
  inferInstanceAs (Decidable (_ ∨ _))

/-- A log in which every copy is announced at once. -/
inductive Shaped : List Event → Prop
  | nil : Shaped []
  | quiet {log : List Event} {event : Event} : Shaped log → event.announced = none →
      event ≠ .copied → Shaped (log ++ [event])
  | announce {log : List Event} {frameCount : ℤ} {delivered : CodecBuffer × Bool} :
      Shaped log → Shaped (log ++ announcement frameCount delivered)

theorem announcements_append (front rest : List Event) :
    announcements (front ++ rest) = announcements front ++ announcements rest :=
  List.filterMap_append

theorem announcements_announcement (frameCount : ℤ) (delivered : CodecBuffer × Bool) :
    announcements (announcement frameCount delivered) = [delivered] := by
  obtain ⟨buffer, copied⟩ := delivered
  cases copied <;> rfl

theorem deliversOnce_quiet {log : List Event} {event : Event} (quiet : event.announced = none)
    (other : event ≠ .copied) : DeliversOnce (log ++ [event]) ↔ DeliversOnce log := by
  constructor
  · intro delivers
    exact ⟨(List.pairwise_append.mp delivers.kept).1, fun outInfo frameCount copied listed =>
      delivers.filled outInfo frameCount copied (List.mem_append_left _ listed)⟩
  · intro delivers
    refine ⟨List.pairwise_append.mpr ⟨delivers.kept, List.pairwise_singleton _ _, ?_⟩, ?_⟩
    · intro earlier _ later last _
      rw [List.mem_singleton.mp last]
      exact other
    · intro outInfo frameCount copied listed
      rcases List.mem_append.mp listed with earlier | last
      · exact delivers.filled outInfo frameCount copied earlier
      · rw [List.mem_singleton] at last
        rw [← last] at quiet
        cases quiet

theorem announcements_eq_nil {log : List Event} :
    announcements log = [] ↔ ∀ event ∈ log, event.announced = none :=
  List.filterMap_eq_nil_iff

/-- A further announcement is in order when it is the first and its data fits. -/
theorem deliversOnce_announce {log : List Event} {frameCount : ℤ}
    {delivered : CodecBuffer × Bool} :
    DeliversOnce (log ++ announcement frameCount delivered) ↔
      DeliversOnce log ∧ announcements log = [] ∧ fits delivered = true := by
  obtain ⟨buffer, copied⟩ := delivered
  have last : .outputAvailable buffer frameCount copied ∈
      announcement frameCount (buffer, copied) := List.mem_append_right _ List.mem_cons_self
  constructor
  · intro delivers
    obtain ⟨kept, _, across⟩ := List.pairwise_append.mp delivers.kept
    obtain ⟨done, short⟩ := delivers.filled buffer frameCount copied
      (List.mem_append_right _ last)
    subst done
    refine ⟨⟨kept, fun outInfo frameCount' copied' listed =>
      delivers.filled outInfo frameCount' copied' (List.mem_append_left _ listed)⟩, ?_, ?_⟩
    · refine announcements_eq_nil.mpr fun event listed => Classical.byContradiction fun made => ?_
      exact across event listed .copied (List.mem_append_left _ List.mem_cons_self) made rfl
    · simp [fits, short]
  · rintro ⟨delivers, first, fit⟩
    obtain ⟨done, short⟩ : copied = true ∧ buffer.length ≤ buffer.capacity := by
      simpa [fits] using fit
    subst done
    refine ⟨List.pairwise_append.mpr ⟨delivers.kept, ?_, ?_⟩, ?_⟩
    · exact List.pairwise_cons.mpr ⟨fun _ _ announced => absurd rfl announced,
        List.pairwise_singleton _ _⟩
    · exact fun event listed _ _ made => absurd (announcements_eq_nil.mp first event listed) made
    · intro outInfo frameCount' copied' listed
      rcases List.mem_append.mp listed with earlier | new
      · exact delivers.filled outInfo frameCount' copied' earlier
      · have new_eq : Event.outputAvailable outInfo frameCount' copied' =
            .outputAvailable buffer frameCount true := by
          simpa [announcement] using new
        rw [Event.outputAvailable.injEq] at new_eq
        obtain ⟨rfl, _, rfl⟩ := new_eq
        exact ⟨rfl, short⟩

/-- In a log of this shape everything depends on what is announced. -/
theorem Shaped.deliversOnce_iff {log : List Event} (shaped : Shaped log) :
    DeliversOnce log ↔ Once ((announcements log).map fits) := by
  induction shaped with
  | nil => exact iff_of_true ⟨List.Pairwise.nil, fun _ _ _ listed => by cases listed⟩ (Or.inl rfl)
  | @quiet log event _ quiet other ih =>
      rw [deliversOnce_quiet quiet other, ih, announcements_append,
        announcements_eq_nil.mpr (fun _ listed => List.mem_singleton.mp listed ▸ quiet),
        List.append_nil]
  | @announce log frameCount delivered _ ih =>
      rw [deliversOnce_announce, ih, announcements_append, announcements_announcement]
      cases announcements log with
      | nil => simp [Once]
      | cons first rest => simp [Once]

/-! ### Frames -/

/-- The frames that the library returns in a call. -/
def receivedFrames (log : List Event) : List MppFrame :=
  log.filterMap fun
    | .gotFrame _ frame => some frame
    | _ => none

/-- How the frames that are delivered come out. -/
def frameOutcomes (outInfo : Option CodecBuffer) (frames : List MppFrame) : List Bool :=
  frames.filterMap fun frame => (delivery frame outInfo).map fits

/-- The buffer but for its flag. -/
def CodecBuffer.unmarked (buffer : CodecBuffer) : CodecBuffer := { buffer with eos := false }

theorem delivery_congr {first second : Option CodecBuffer}
    (same : first.map CodecBuffer.unmarked = second.map CodecBuffer.unmarked) (frame : MppFrame) :
    (delivery frame first).map fits = (delivery frame second).map fits := by
  cases first with
  | none =>
      cases second with
      | none => rfl
      | some buffer => cases same
  | some buffer =>
      cases second with
      | none => cases same
      | some other =>
          obtain ⟨count, _, buf, capacity, length⟩ := buffer
          obtain ⟨count', _, buf', capacity', length'⟩ := other
          simp only [Option.map_some, Option.some.injEq, CodecBuffer.unmarked,
            CodecBuffer.mk.injEq, true_and] at same
          obtain ⟨rfl, rfl, rfl, rfl⟩ := same
          unfold delivery
          cases frame.infoChange || frame.bad with
          | true => rfl
          | false =>
              by_cases empty : count = 0
              · simp [empty]
              · cases frame.eos <;> simp [empty, fits, putDecodeFrameToOutput]

theorem unmarked_take (call : Call) (frame : MppFrame) :
    (call.take (.ok (some frame))).outInfo.map CodecBuffer.unmarked =
      call.outInfo.map CodecBuffer.unmarked := by
  rw [(take_log call frame).2.1]
  unfold delivery
  cases frame.infoChange || frame.bad with
  | true => simp
  | false =>
      cases call.outInfo with
      | none => rfl
      | some buffer =>
          by_cases empty : buffer.bufferCnt = 0
          · simp [empty]
          · cases frame.eos <;> simp [empty, CodecBuffer.unmarked]

theorem frameEvents_eq (call : Call) (frame : MppFrame) (log : List Event) :
    log ++ frameEvents call frame = ((log ++ [.gotFrame call.objects frame]) ++
      (delivery frame call.outInfo).elim [] (announcement (call.frameCount + 1))) ++
        [.deinit call.objects] := by
  simp [frameEvents]

theorem shaped_takes {call : Call} (shaped : Shaped call.log) (frames : List MppFrame) :
    Shaped (call.takes frames).log := by
  induction frames generalizing call with
  | nil => exact shaped
  | cons frame frames ih =>
      refine ih ?_
      rw [(take_log call frame).1, frameEvents_eq]
      refine .quiet ?_ rfl (by simp)
      have got : Shaped (call.log ++ [.gotFrame call.objects frame]) :=
        .quiet shaped rfl (by simp)
      cases delivery frame call.outInfo with
      | none => exact (List.append_nil _).symm ▸ got
      | some delivered => exact .announce got

theorem announcements_frameEvents (call : Call) (frame : MppFrame) :
    (announcements (frameEvents call frame)).map fits =
      ((delivery frame call.outInfo).map fits).toList := by
  rw [← List.nil_append (frameEvents call frame), frameEvents_eq, announcements_append,
    announcements_append]
  cases delivery frame call.outInfo with
  | none => rfl
  | some delivered =>
      rw [Option.elim_some, announcements_announcement]
      rfl

theorem announcements_takes (call : Call) (frames : List MppFrame) :
    (announcements (call.takes frames).log).map fits =
      (announcements call.log).map fits ++ frameOutcomes call.outInfo frames := by
  induction frames generalizing call with
  | nil => simp [Call.takes, frameOutcomes]
  | cons frame frames ih =>
      have rest := ih (call.take (.ok (some frame)))
      have outcomes : frameOutcomes (call.take (.ok (some frame))).outInfo frames =
          frameOutcomes call.outInfo frames :=
        List.filterMap_congr fun other _ => delivery_congr (unmarked_take call frame) other
      rw [outcomes, (take_log call frame).1, announcements_append, List.map_append,
        announcements_frameEvents, List.append_assoc] at rest
      refine rest.trans (congrArg _ ?_)
      rw [frameOutcomes, frameOutcomes, List.filterMap_cons]
      cases (delivery frame call.outInfo).map fits <;> rfl

theorem receivedFrames_takes (call : Call) (frames : List MppFrame) :
    receivedFrames (call.takes frames).log = receivedFrames call.log ++ frames := by
  induction frames generalizing call with
  | nil => simp [Call.takes]
  | cons frame frames ih =>
      have one : receivedFrames (frameEvents call frame) = [frame] := by
        cases delivered : delivery frame call.outInfo with
        | none => simp [frameEvents, receivedFrames, delivered]
        | some made =>
            obtain ⟨buffer, copied⟩ := made
            cases copied <;> simp [frameEvents, receivedFrames, delivered, announcement]
      refine (ih _).trans ?_
      rw [(take_log call frame).1, receivedFrames, List.filterMap_append]
      change (receivedFrames call.log ++ receivedFrames (frameEvents call frame)) ++ frames = _
      rw [one, List.append_assoc]
      rfl

/-- A call of `CodecDecode`, running or done, delivers its data once exactly when at most one of
the frames it is given is delivered and that one fits. -/
theorem decode_deliversOnce_iff (fuel objects : ℕ) (component : Component)
    (inputData : CodecBuffer) (outInfo : Option CodecBuffer) (answers : DecodeAnswers) :
    DeliversOnce (codecDecode fuel objects component inputData outInfo answers).1.log ↔
      Once (frameOutcomes outInfo (receivedFrames
        (codecDecode fuel objects component inputData outInfo answers).1.log)) := by
  cases taken : answers.packetInit with
  | false =>
      rw [codecDecode_untaken taken]
      exact Shaped.nil.deliversOnce_iff
  | true =>
      obtain ⟨frames, tail, tail_eq, log_eq⟩ := @codecDecode_log fuel objects component inputData
        outInfo answers taken
      have start : Shaped (component.withPacket objects outInfo).log :=
        .quiet .nil rfl (by simp)
      have shaped := shaped_takes start frames
      have outcomes := announcements_takes (component.withPacket objects outInfo) frames
      have received := receivedFrames_takes (component.withPacket objects outInfo) frames
      have untold : announcements (component.withPacket objects outInfo).log = [] := rfl
      have none_yet : receivedFrames (component.withPacket objects outInfo).log = [] := rfl
      rw [untold, List.map_nil, List.nil_append] at outcomes
      rw [none_yet, List.nil_append] at received
      rw [log_eq]
      rcases tail_eq with rfl | rfl
      · rw [List.append_nil, shaped.deliversOnce_iff, outcomes, received]
        rfl
      · rw [deliversOnce_quiet rfl (by simp), shaped.deliversOnce_iff, outcomes, receivedFrames,
          List.filterMap_append]
        change _ ↔ Once (frameOutcomes outInfo
          (receivedFrames ((component.withPacket objects outInfo).takes frames).log ++ []))
        rw [received, List.append_nil]
        rfl

/-! ### Packets -/

/-- The packets that the library returns in a call. -/
def receivedPackets (log : List Event) : List MppPacket :=
  log.filterMap fun
    | .gotPacket _ packet => some packet
    | _ => none

/-- Whether a packet is copied to the buffer. -/
def packetFits (outInfo : CodecBuffer) (packet : MppPacket) : Bool :=
  outInfo.buf != 0 && outInfo.capacity != 0 && packet.pos != 0 && packet.length != 0 &&
    memcpyS outInfo.capacity packet.length

/-- What the packets of a call add to the frames counted, with the flag of the last part. -/
def countParts (packets : List MppPacket) : ℤ × ℕ :=
  packets.foldl (fun parts packet =>
    let eoi : ℕ := if packet.isPartition then packet.isEoi else parts.2
    (parts.1 + eoi, eoi)) (0, 1)

/-- The invariant of the loop over the packets. -/
structure PacketsIn (outInfo : CodecBuffer) (frameCount : ℤ) (state : PacketLoop) : Prop where
  shaped : Shaped state.call.log
  outcomes : (announcements state.call.log).map fits =
    (receivedPackets state.call.log).map (packetFits outInfo)
  buffer : ∃ buffer, state.call.outInfo = some buffer ∧ buffer.buf = outInfo.buf ∧
    buffer.capacity = outInfo.capacity
  parts : countParts (receivedPackets state.call.log) =
    (state.call.frameCount - frameCount, state.eoi)

theorem handleEncodedPacket_spec {call : Call} {outInfo : CodecBuffer}
    (present : call.outInfo = some outInfo) (packet : MppPacket) :
    ∃ buffer, (handleEncodedPacket packet call).log = call.log ++
        announcement call.frameCount (buffer, packetFits outInfo packet) ∧
      (handleEncodedPacket packet call).outInfo = some buffer ∧
      (handleEncodedPacket packet call).frameCount = call.frameCount ∧
      buffer.buf = outInfo.buf ∧ buffer.capacity = outInfo.capacity ∧
      fits (buffer, packetFits outInfo packet) = packetFits outInfo packet := by
  let filled : CodecBuffer :=
    if packetFits outInfo packet then { outInfo with length := packet.length } else outInfo
  let marked : CodecBuffer := if packet.eos ≠ 0 then { filled with eos := true } else filled
  have handled : handleEncodedPacket packet call =
      call.announce marked (packetFits outInfo packet) := by
    rw [handleEncodedPacket, present]
    rfl
  have kept : filled.buf = outInfo.buf ∧ filled.capacity = outInfo.capacity ∧
      (packetFits outInfo packet = true → filled.length ≤ filled.capacity) := by
    cases copied : packetFits outInfo packet with
    | true =>
        have short : packet.length ≤ outInfo.capacity := by
          simp only [packetFits, memcpyS, Bool.and_eq_true, decide_eq_true_eq] at copied
          exact copied.2.2
        simp [filled, copied, short]
    | false => simp [filled, copied]
  have unchanged : marked.buf = filled.buf ∧ marked.capacity = filled.capacity ∧
      marked.length = filled.length := by
    simp only [marked]
    split_ifs <;> exact ⟨rfl, rfl, rfl⟩
  refine ⟨marked, by rw [handled]; rfl, by rw [handled]; rfl, by rw [handled]; rfl,
    unchanged.1.trans kept.1, unchanged.2.1.trans kept.2.1, ?_⟩
  rw [fits, unchanged.2.1, unchanged.2.2]
  cases copied : packetFits outInfo packet with
  | true => simp [kept.2.2 copied]
  | false => rfl

theorem PacketsIn.fail {outInfo : CodecBuffer} {frameCount : ℤ} {state : PacketLoop}
    (packets : PacketsIn outInfo frameCount state) (pktEos : BitVec 32) :
    PacketsIn outInfo frameCount ⟨state.call.emit [.getPacketFailed], state.eoi, pktEos⟩ := by
  have received : receivedPackets (state.call.log ++ [.getPacketFailed]) =
      receivedPackets state.call.log := by simp [receivedPackets]
  refine ⟨packets.shaped.quiet rfl (by simp), ?_, packets.buffer, ?_⟩
  · rw [Call.emit_log, announcements_append, received]
    change (announcements state.call.log ++ []).map fits = _
    rw [List.append_nil, packets.outcomes]
  · rw [Call.emit_log, received]
    exact packets.parts

theorem PacketsIn.body {outInfo : CodecBuffer} {frameCount : ℤ} {state : PacketLoop}
    (packets : PacketsIn outInfo frameCount state) (answer : GetPacket) :
    PacketsIn outInfo frameCount (codecEncodeGetPacketBody state answer).1 := by
  cases answer with
  | failed => exact packets.fail _
  | ok packet =>
      cases packet with
      | none => exact packets
      | some packet =>
          obtain ⟨before, present, buf_eq, capacity_eq⟩ := packets.buffer
          have present' : (state.call.receive fun object => .gotPacket object packet).outInfo =
              some before := present
          obtain ⟨buffer, log, outInfo_eq, count, buf, capacity, fit⟩ :=
            handleEncodedPacket_spec present' packet
          have same : packetFits before packet = packetFits outInfo packet := by
            simp only [packetFits, buf_eq, capacity_eq]
          rw [same] at log fit
          have logged : (codecEncodeGetPacketBody state (.ok (some packet))).1.call.log =
              ((state.call.log ++ [.gotPacket state.call.objects packet]) ++
                announcement state.call.frameCount (buffer, packetFits outInfo packet)) ++
                [.deinit state.call.objects] := by
            simp only [codecEncodeGetPacketBody, Call.emit_log, log, Call.receive_log,
              Call.receive_frameCount]
          have received : receivedPackets
              (codecEncodeGetPacketBody state (.ok (some packet))).1.call.log =
                receivedPackets state.call.log ++ [packet] := by
            rw [logged]
            cases packetFits outInfo packet <;> simp [receivedPackets, announcement]
          refine ⟨?_, ?_, ⟨buffer, outInfo_eq, buf.trans buf_eq, capacity.trans capacity_eq⟩, ?_⟩
          · rw [logged]
            exact ((packets.shaped.quiet rfl (by simp)).announce).quiet rfl (by simp)
          · rw [received, logged, announcements_append, announcements_append,
              announcements_append, announcements_announcement]
            change ((announcements state.call.log ++ []) ++ [_] ++ []).map fits = _
            rw [List.append_nil, List.append_nil, List.map_append, List.map_append,
              packets.outcomes, List.map_singleton, List.map_singleton, fit]
          · rw [received, countParts, List.foldl_append]
            change (_, _) = _
            have parts := packets.parts
            rw [countParts] at parts
            rw [parts]
            simp only [codecEncodeGetPacketBody, Call.emit_frameCount, count,
              Call.receive_frameCount, Prod.mk.injEq, and_true]
            omega

/-- A round after which the loop goes on has not failed. -/
theorem getPacketFailed_not_mem_body {state : PacketLoop} {answer : GetPacket}
    (none_yet : .getPacketFailed ∉ state.call.log) (made : answer ≠ .failed)
    (buffer : ∃ buffer, state.call.outInfo = some buffer) :
    .getPacketFailed ∉ (codecEncodeGetPacketBody state answer).1.call.log := by
  cases answer with
  | failed => exact absurd rfl made
  | ok packet =>
      cases packet with
      | none => exact none_yet
      | some packet =>
          obtain ⟨before, present⟩ := buffer
          have present' : (state.call.receive fun object => .gotPacket object packet).outInfo =
              some before := present
          obtain ⟨buffer, log, _⟩ := handleEncodedPacket_spec present' packet
          simp only [codecEncodeGetPacketBody, Call.emit_log, log, Call.receive_log]
          cases packetFits before packet <;> simp [announcement, none_yet]

theorem not_failed_of_goes {state : PacketLoop} {answer : GetPacket}
    (goes : (codecEncodeGetPacketBody state answer).2 ≠ some true) : answer ≠ .failed := by
  rintro rfl
  exact goes rfl

/-- A loop that is running has met no error; one that was left by an error reports the end of the
stream. -/
theorem failed_cases {outInfo : CodecBuffer} {frameCount : ℤ} {start : PacketLoop}
    (packets : PacketsIn outInfo frameCount start) (none_yet : .getPacketFailed ∉ start.call.log)
    (fuel : ℕ) (answers : ℕ → GetPacket) :
    .getPacketFailed ∈ (poll codecEncodeGetPacketBody fuel answers start).1.call.log →
      (poll codecEncodeGetPacketBody fuel answers start).2 = true ∧
        (poll codecEncodeGetPacketBody fuel answers start).1.pktEos ≠ 0 := by
  have kept (n : ℕ) : PacketsIn outInfo frameCount
      (after codecEncodeGetPacketBody answers start n) := by
    induction n with
    | zero => exact packets
    | succ n ih => exact ih.body _
  have clean (n : ℕ) (goes : GoesOn codecEncodeGetPacketBody answers start n) :
      .getPacketFailed ∉ (after codecEncodeGetPacketBody answers start n).call.log := by
    induction n with
    | zero => exact none_yet
    | succ n ih =>
        have more := goes n (Nat.lt_succ_self n)
        rw [verdict] at more
        obtain ⟨buffer, present, _⟩ := (kept n).buffer
        exact getPacketFailed_not_mem_body (ih (goes.mono (Nat.le_succ n)))
          (not_failed_of_goes (by rw [more]; simp)) ⟨buffer, present⟩
  rcases poll_cases codecEncodeGetPacketBody fuel answers start with
    ⟨n, _, left, goes, last, eq⟩ | ⟨goes, eq⟩
  · rw [eq]
    intro failed
    cases answer : answers n with
    | failed =>
        rw [verdict, answer] at last
        refine ⟨(Option.some.inj last).symm, ?_⟩
        change (codecEncodeGetPacketBody (after codecEncodeGetPacketBody answers start n)
          (answers n)).1.pktEos ≠ 0
        rw [answer]
        exact (by decide : BitVec.ofInt 32 hdfFailure ≠ 0)
    | ok packet =>
        obtain ⟨buffer, present, _⟩ := (kept n).buffer
        have made : answers n ≠ .failed := by rw [answer]; simp
        exact absurd failed (getPacketFailed_not_mem_body (clean n goes) made ⟨buffer, present⟩)
  · rw [eq]
    exact fun failed => absurd failed (clean fuel goes)

/-! ### Encoding -/

/-- A call of `CodecEncode` delivers its data once, and succeeds only with its frame put and every
packet got. -/
structure EncodesOnce (putFrame : Bool) (result : Call × Option HdfStatus) : Prop where
  once : DeliversOnce result.1.log
  succeeds : result.2 = some .success → putFrame = true ∧ .getPacketFailed ∉ result.1.log

/-- At most one packet arrives and fits; and where getting one fails, the input is not the last
and fewer frames are counted than were asked for. -/
structure PacketsFit (component : Component) (inputData : Option CodecBuffer)
    (outInfo : CodecBuffer) (log : List Event) : Prop where
  once : Once ((receivedPackets log).map (packetFits outInfo))
  failed : .getPacketFailed ∈ log → ∀ input ∈ inputData, input.eos = false ∧
    ¬(0 < component.frameNum ∧
      component.frameNum ≤ component.frameCount + (countParts (receivedPackets log)).1)

theorem encodesOnce_of_quiet {component : Component} {inputData : Option CodecBuffer}
    {outInfo : CodecBuffer} {putFrame : Bool} {call : Call}
    (shaped : Shaped call.log) (untold : announcements call.log = [])
    (none_got : receivedPackets call.log = []) (none_failed : .getPacketFailed ∉ call.log) :
    EncodesOnce putFrame (call, some .failure) ↔
      PacketsFit component inputData outInfo call.log := by
  refine iff_of_true ⟨shaped.deliversOnce_iff.mpr ?_, fun success => by cases success⟩
    ⟨?_, fun failed => absurd failed none_failed⟩
  · rw [untold]
    exact Or.inl rfl
  · rw [none_got]
    exact Or.inl rfl

/-- The call once its frame is put. -/
def Component.withFrame (component : Component) (objects : ℕ) (outInfo : CodecBuffer) : Call :=
  ((component.begin objects (some outInfo)).receive .frameInit).emit [.deinit objects]

theorem withFrame_log (component : Component) (objects : ℕ) (outInfo : CodecBuffer) :
    (component.withFrame objects outInfo).log = [.frameInit objects, .deinit objects] := rfl

theorem packetsIn_withFrame (component : Component) (objects : ℕ) (outInfo : CodecBuffer) :
    PacketsIn outInfo component.frameCount ⟨component.withFrame objects outInfo, 1, 0⟩ where
  shaped := (Shaped.nil.quiet rfl (by simp)).quiet rfl (by simp)
  outcomes := rfl
  buffer := ⟨outInfo, rfl, rfl, rfl⟩
  parts := by
    change countParts [] = (component.frameCount - component.frameCount, 1)
    rw [Int.sub_self]
    rfl

/-- The packets of a call decide what it delivers and whether it may succeed. -/
theorem encodesOnce_loop_iff (fuel : ℕ) (component : Component) (inputData outInfo : CodecBuffer)
    {call : Call} (packets : PacketsIn outInfo component.frameCount ⟨call, 1, 0⟩)
    (none_yet : .getPacketFailed ∉ call.log) (answers : ℕ → GetPacket) :
    EncodesOnce true
        (if (codecEncodeGetPacketLoop fuel call answers).2 = true then
          ((codecEncodeGetPacketLoop fuel call answers).1.call.emit [.inputAvailable],
            some (if (0 < component.frameNum && component.frameNum ≤
                (codecEncodeGetPacketLoop fuel call answers).1.call.frameCount) ||
              (inputData.eos && (codecEncodeGetPacketLoop fuel call answers).1.pktEos != 0)
            then .success else .failure))
        else ((codecEncodeGetPacketLoop fuel call answers).1.call, none)) ↔
      PacketsFit component (some inputData) outInfo
        (codecEncodeGetPacketLoop fuel call answers).1.call.log := by
  have failed : .getPacketFailed ∈ (codecEncodeGetPacketLoop fuel call answers).1.call.log →
      (codecEncodeGetPacketLoop fuel call answers).2 = true ∧
        (codecEncodeGetPacketLoop fuel call answers).1.pktEos ≠ 0 :=
    failed_cases packets none_yet fuel answers
  have final : PacketsIn outInfo component.frameCount
      (codecEncodeGetPacketLoop fuel call answers).1 :=
    poll_invariant _ (fun _ answer in_loop => in_loop.body answer) fuel packets
  generalize codecEncodeGetPacketLoop fuel call answers = result at final failed ⊢
  obtain ⟨state, left⟩ := result
  have count : component.frameCount + (countParts (receivedPackets state.call.log)).1 =
      state.call.frameCount := by
    rw [final.parts]
    change component.frameCount + (state.call.frameCount - component.frameCount) = _
    omega
  have once := final.shaped.deliversOnce_iff
  rw [final.outcomes] at once
  cases left with
  | false =>
      have clean : .getPacketFailed ∉ state.call.log := fun met =>
        Bool.false_ne_true (failed met).1
      constructor
      · exact fun encodes => ⟨once.mp encodes.once, fun met => absurd met clean⟩
      · exact fun fit => ⟨once.mpr fit.once, fun success => by cases success⟩
  | true =>
      have once' : DeliversOnce (state.call.emit [.inputAvailable]).log ↔
          Once ((receivedPackets state.call.log).map (packetFits outInfo)) :=
        (deliversOnce_quiet rfl (by simp)).trans once
      have met_iff : .getPacketFailed ∈ (state.call.emit [.inputAvailable]).log ↔
          .getPacketFailed ∈ state.call.log := by simp
      have ends_iff : ((0 < component.frameNum && component.frameNum ≤ state.call.frameCount) ||
          (inputData.eos && state.pktEos != 0)) = true ↔
          (0 < component.frameNum ∧ component.frameNum ≤ state.call.frameCount) ∨
            inputData.eos = true ∧ state.pktEos ≠ 0 := by simp
      constructor
      · rintro ⟨delivers, succeeds⟩
        refine ⟨once'.mp delivers, fun met input input_eq => ?_⟩
        obtain rfl := Option.mem_some_iff.mp input_eq
        rw [count]
        have fails : ¬((0 < component.frameNum && component.frameNum ≤ state.call.frameCount) ||
            (inputData.eos && state.pktEos != 0)) = true := fun ends =>
          (succeeds (congrArg some (if_pos ends))).2 (met_iff.mpr met)
        rw [ends_iff, not_or] at fails
        refine ⟨?_, fails.1⟩
        rw [← Bool.not_eq_true]
        exact fun last => fails.2 ⟨last, (failed met).2⟩
      · intro fit
        refine ⟨once'.mpr fit.once, fun success => ⟨rfl, fun met => ?_⟩⟩
        obtain ⟨more, few⟩ := fit.failed (met_iff.mp met) inputData rfl
        rw [count] at few
        have fails : ¬((0 < component.frameNum && component.frameNum ≤ state.call.frameCount) ||
            (inputData.eos && state.pktEos != 0)) = true := by
          rw [ends_iff, not_or, more]
          exact ⟨few, fun last => Bool.false_ne_true last.1⟩
        have status : some HdfStatus.failure = some HdfStatus.success :=
          (congrArg some (if_neg fails)).symm.trans success
        cases status

theorem packetsFit_inputAvailable {component : Component} {inputData : Option CodecBuffer}
    {outInfo : CodecBuffer} (log : List Event) :
    PacketsFit component inputData outInfo (log ++ [.inputAvailable]) ↔
      PacketsFit component inputData outInfo log := by
  have received : receivedPackets (log ++ [.inputAvailable]) = receivedPackets log := by
    simp [receivedPackets]
  have failed : .getPacketFailed ∈ log ++ [.inputAvailable] ↔ .getPacketFailed ∈ log := by simp
  constructor
  · rintro ⟨once, fails⟩
    rw [received] at once fails
    exact ⟨once, fun met => fails (failed.mpr met)⟩
  · rintro ⟨once, fails⟩
    refine ⟨received.symm ▸ once, fun met => ?_⟩
    rw [received]
    exact fails (failed.mp met)

/-- How a call of `CodecEncode` goes: it has no frame, cannot fill it, cannot put it, or fetches
packets. -/
inductive EncodeGoes (fuel objects : ℕ) (component : Component) (outInfo : CodecBuffer)
    (answers : EncodeAnswers) : Option CodecBuffer → Call × Option HdfStatus → Prop
  | refused {inputData : Option CodecBuffer}
      (unmade : ∀ input ∈ inputData, input.bufferCnt ≠ 0 → answers.frameInit = false) :
      EncodeGoes fuel objects component outInfo answers inputData
        (component.begin objects (some outInfo), some .failure)
  | unfilled {input : CodecBuffer} (buffer : input.bufferCnt ≠ 0)
      (made : answers.frameInit = true) (failed : getEncodeFrameFromInput input answers = false) :
      EncodeGoes fuel objects component outInfo answers (some input)
        (((component.begin objects (some outInfo)).receive .frameInit).emit [.deinitOther],
          some .failure)
  | unput {input : CodecBuffer} (filled : getEncodeFrameFromInput input answers = true)
      (failed : answers.putFrame = false) :
      EncodeGoes fuel objects component outInfo answers (some input)
        (component.withFrame objects outInfo, some .failure)
  | fetches {input : CodecBuffer} (filled : getEncodeFrameFromInput input answers = true)
      (put : answers.putFrame = true) :
      EncodeGoes fuel objects component outInfo answers (some input)
        (if (codecEncodeGetPacketLoop fuel (component.withFrame objects outInfo)
            answers.getPacket).2 = true then
          ((codecEncodeGetPacketLoop fuel (component.withFrame objects outInfo)
              answers.getPacket).1.call.emit [.inputAvailable],
            some (if (0 < component.frameNum && component.frameNum ≤
                (codecEncodeGetPacketLoop fuel (component.withFrame objects outInfo)
                  answers.getPacket).1.call.frameCount) ||
              (input.eos && (codecEncodeGetPacketLoop fuel (component.withFrame objects outInfo)
                answers.getPacket).1.pktEos != 0)
            then .success else .failure))
        else ((codecEncodeGetPacketLoop fuel (component.withFrame objects outInfo)
          answers.getPacket).1.call, none))

theorem codecEncode_goes (fuel objects : ℕ) (component : Component)
    (inputData : Option CodecBuffer) (outInfo : CodecBuffer) (answers : EncodeAnswers) :
    EncodeGoes fuel objects component outInfo answers inputData
      (codecEncode fuel objects component inputData outInfo answers) := by
  unfold codecEncode
  cases inputData with
  | none => exact .refused fun _ listed => by cases listed
  | some input =>
      by_cases buffer : input.bufferCnt = 0
      · simp only [buffer, if_true]
        refine .refused ?_
        rintro _ ⟨⟩ some_buffer
        exact absurd buffer some_buffer
      simp only [buffer, if_false, encodeInitFrame]
      cases made : answers.frameInit with
      | false => exact .refused fun _ _ _ => made
      | true =>
          cases filled : getEncodeFrameFromInput input answers with
          | false => exact .unfilled buffer made filled
          | true =>
              cases put : answers.putFrame with
              | false => exact .unput filled put
              | true => exact .fetches filled put

/-- A call of `CodecEncode`, running or done, delivers its data once and succeeds only without an
error exactly when at most one packet arrives and fits, and no error meets the last input or
enough frames counted. -/
theorem encode_encodesOnce_iff (fuel objects : ℕ) (component : Component)
    (inputData : Option CodecBuffer) (outInfo : CodecBuffer) (answers : EncodeAnswers) :
    EncodesOnce answers.putFrame
        (codecEncode fuel objects component inputData outInfo answers) ↔
      PacketsFit component inputData outInfo
        (codecEncode fuel objects component inputData outInfo answers).1.log := by
  have goes := codecEncode_goes fuel objects component inputData outInfo answers
  generalize codecEncode fuel objects component inputData outInfo answers = result at goes ⊢
  cases goes with
  | refused => exact encodesOnce_of_quiet .nil rfl rfl List.not_mem_nil
  | unfilled =>
      exact encodesOnce_of_quiet ((Shaped.nil.quiet rfl (by simp)).quiet rfl (by simp)) rfl rfl
        (by simp [Component.begin])
  | unput =>
      exact encodesOnce_of_quiet ((Shaped.nil.quiet rfl (by simp)).quiet rfl (by simp)) rfl rfl
        (by simp [withFrame_log])
  | @fetches input _ put =>
      rw [put]
      refine (encodesOnce_loop_iff fuel component input outInfo
        (packetsIn_withFrame component objects outInfo) (by simp [withFrame_log])
        answers.getPacket).trans ?_
      split
      · exact (packetsFit_inputAvailable _).symm
      · exact Iff.rfl

/-- A decoder that gives two frames at once. -/
def burst (i t : ℕ) : GetFrame := if i < 2 ∧ t = 0 then .ok (some (goodFrame false)) else .ok none

end Codec
end RockchipSoc
