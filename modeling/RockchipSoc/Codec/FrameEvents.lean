import RockchipSoc.Codec.HdiMpp
import Mathlib.Algebra.Group.Nat.Defs

/-!
# The events of a frame

Every frame that a call of `CodecDecode` receives adds one block to its log: the frame, its
delivery if there is one, and its release.  The call does nothing else up to its end.
-/

namespace RockchipSoc
namespace Codec

open Polling

@[simp] theorem Call.emit_frameCount (call : Call) (events : List Event) :
    (call.emit events).frameCount = call.frameCount := rfl

@[simp] theorem Call.emit_outInfo (call : Call) (events : List Event) :
    (call.emit events).outInfo = call.outInfo := rfl

@[simp] theorem Call.emit_objects (call : Call) (events : List Event) :
    (call.emit events).objects = call.objects := rfl

@[simp] theorem Call.emit_log (call : Call) (events : List Event) :
    (call.emit events).log = call.log ++ events := rfl

@[simp] theorem Call.receive_frameCount (call : Call) (event : ℕ → Event) :
    (call.receive event).frameCount = call.frameCount := rfl

@[simp] theorem Call.receive_outInfo (call : Call) (event : ℕ → Event) :
    (call.receive event).outInfo = call.outInfo := rfl

@[simp] theorem Call.receive_objects (call : Call) (event : ℕ → Event) :
    (call.receive event).objects = call.objects + 1 := rfl

@[simp] theorem Call.receive_log (call : Call) (event : ℕ → Event) :
    (call.receive event).log = call.log ++ [event call.objects] := rfl

/-- What an answer does to a call. -/
def Call.take (call : Call) : GetFrame → Call
  | .ok (some frame) =>
      (handleDecodedFrame call.objects frame
        (call.receive fun object => .gotFrame object frame)).1
  | _ => call

/-- The frames that a call receives one after the other. -/
def Call.takes (call : Call) (frames : List MppFrame) : Call :=
  frames.foldl (fun call frame => call.take (.ok (some frame))) call

/-- The buffer a frame is delivered in, and whether the copy succeeds. -/
def delivery (frame : MppFrame) (outInfo : Option CodecBuffer) : Option (CodecBuffer × Bool) :=
  if frame.infoChange || frame.bad then none
  else outInfo.bind fun buffer =>
    if buffer.bufferCnt = 0 then none
    else some (if frame.eos then { buffer with eos := true } else buffer,
      putDecodeFrameToOutput frame buffer)

/-- A copy, if it succeeded, and the announcement of the buffer. -/
def announcement (frameCount : ℤ) (delivered : CodecBuffer × Bool) : List Event :=
  (if delivered.2 then [.copied] else []) ++
    [.outputAvailable delivered.1 frameCount delivered.2]

/-- The block of a frame. -/
def frameEvents (call : Call) (frame : MppFrame) : List Event :=
  .gotFrame call.objects frame ::
    ((delivery frame call.outInfo).elim [] (announcement (call.frameCount + 1)) ++
      [.deinit call.objects])

theorem handleDecodeFrameOutput_log (frame : MppFrame) (call : Call)
    (same : frame.infoChange = false) :
    (handleDecodeFrameOutput frame call).log =
      call.log ++ (delivery frame call.outInfo).elim [] (announcement (call.frameCount + 1)) ∧
    (handleDecodeFrameOutput frame call).outInfo =
      ((delivery frame call.outInfo).map Prod.fst).or call.outInfo ∧
    (handleDecodeFrameOutput frame call).objects = call.objects ∧
    (handleDecodeFrameOutput frame call).frameCount = call.frameCount + 1 := by
  unfold handleDecodeFrameOutput delivery
  cases bad : frame.bad with
  | true => simp [same]
  | false =>
      cases present : call.outInfo with
      | none => simp [same]
      | some buffer =>
          by_cases empty : buffer.bufferCnt = 0
          · simp [same, empty]
          · simp [same, empty, Call.announce, announcement]

/-- A frame adds its block to the log. -/
theorem take_log (call : Call) (frame : MppFrame) :
    (call.take (.ok (some frame))).log = call.log ++ frameEvents call frame ∧
      (call.take (.ok (some frame))).outInfo =
        ((delivery frame call.outInfo).map Prod.fst).or call.outInfo ∧
      (call.take (.ok (some frame))).objects = call.objects + 1 := by
  rw [Call.take, handleDecodedFrame]
  cases change : frame.infoChange with
  | true =>
      have undelivered : delivery frame call.outInfo = none := by simp [delivery, change]
      cases frame.changeHandled <;> simp [frameEvents, undelivered]
  | false =>
      obtain ⟨log, outInfo, objects, _⟩ := handleDecodeFrameOutput_log frame
        (call.receive fun object => .gotFrame object frame) change
      simp [log, outInfo, objects, frameEvents]

theorem inputAvailable_not_mem_frameEvents (call : Call) (frame : MppFrame) :
    .inputAvailable ∉ frameEvents call frame := by
  rw [frameEvents]
  cases delivery frame call.outInfo with
  | none => simp
  | some delivered =>
      obtain ⟨buffer, copied⟩ := delivered
      cases copied <;> simp [announcement]

theorem count_inputAvailable_takes (call : Call) (frames : List MppFrame) :
    (call.takes frames).log.count .inputAvailable = call.log.count .inputAvailable := by
  induction frames generalizing call with
  | nil => rfl
  | cons frame frames ih =>
      refine (ih _).trans ?_
      rw [(take_log call frame).1, List.count_append,
        List.count_eq_zero.mpr (inputAvailable_not_mem_frameEvents call frame), add_zero]

/-! ### The loops -/

theorem body_call {frameNum : ℤ} {pktDone pktEos : Bool} {state : FrameLoop}
    {tries : ℕ → GetFrame} :
    (codecDecodeGetFrameBody frameNum pktDone pktEos state tries).1.call =
      state.call.take (decodeGetFrame tries) := by
  unfold codecDecodeGetFrameBody Call.take
  cases decodeGetFrame tries with
  | timeout => rfl
  | failed => rfl
  | ok frame =>
      cases frame with
      | none => rfl
      | some frame =>
          simp only
          split <;> rfl

theorem takes_take {call : Call} {frames : List MppFrame} (answer : GetFrame) :
    ∃ frames', (call.takes frames).take answer = call.takes frames' := by
  cases answer with
  | timeout => exact ⟨frames, rfl⟩
  | failed => exact ⟨frames, rfl⟩
  | ok frame =>
      cases frame with
      | none => exact ⟨frames, rfl⟩
      | some frame => exact ⟨frames ++ [frame], by simp [Call.takes]⟩

/-- However long it runs, a call of `CodecDecode` receives frames and does nothing else. -/
theorem codecDecodeLoop_takes (fuel : ℕ) (frameNum : ℤ) (pktEos : Bool) (call : Call)
    (round : ℕ → Round) :
    ∃ frames, (codecDecodeLoop fuel frameNum pktEos call round).1.call = call.takes frames := by
  refine poll_invariant (fun state : DecodeLoop => ∃ frames, state.call = call.takes frames) ?_ fuel
    ⟨[], rfl⟩
  rintro state next ⟨frames, state_eq⟩
  have inner : ∃ frames', (poll (codecDecodeGetFrameBody frameNum (state.pktDone || next.put)
      pktEos) fuel next.get ⟨state.call, false⟩).1.call = call.takes frames' := by
    refine poll_invariant (fun inner : FrameLoop => ∃ frames, inner.call = call.takes frames) ?_
      fuel ⟨frames, state_eq⟩
    rintro inner tries ⟨frames, inner_eq⟩
    rw [body_call, inner_eq]
    exact takes_take (decodeGetFrame tries)
  simp only [codecDecodeBody]
  split_ifs <;> exact inner

/-! ### The call -/

section

variable {fuel objects : ℕ} {component : Component} {inputData : CodecBuffer}
  {outInfo : Option CodecBuffer} {answers : DecodeAnswers}

/-- The state of a call that has its packet. -/
def Component.withPacket (component : Component) (objects : ℕ) (outInfo : Option CodecBuffer) :
    Call :=
  (component.begin objects outInfo).receive .packetInit

theorem codecDecode_eq (taken : answers.packetInit = true) :
    codecDecode fuel objects component inputData outInfo answers =
      if (codecDecodeLoop fuel component.frameNum inputData.eos
        (component.withPacket objects outInfo) answers.round).2 = true then
        ((codecDecodeLoop fuel component.frameNum inputData.eos
            (component.withPacket objects outInfo) answers.round).1.call.emit [.inputAvailable],
          some (if (codecDecodeLoop fuel component.frameNum inputData.eos
            (component.withPacket objects outInfo) answers.round).1.loopEnd then .success
            else .failure))
      else ((codecDecodeLoop fuel component.frameNum inputData.eos
        (component.withPacket objects outInfo) answers.round).1.call, none) := by
  rw [codecDecode, taken]
  rfl

theorem codecDecode_untaken (refused : answers.packetInit = false) :
    codecDecode fuel objects component inputData outInfo answers =
      (component.begin objects outInfo, some .failure) := by
  rw [codecDecode, refused]
  rfl

/-- The log of a call: its packet, frames, and the input given back when it returns. -/
theorem codecDecode_log (taken : answers.packetInit = true) :
    ∃ frames tail, (tail = [] ∨ tail = [.inputAvailable]) ∧
      (codecDecode fuel objects component inputData outInfo answers).1.log =
        ((component.withPacket objects outInfo).takes frames).log ++ tail := by
  obtain ⟨frames, eq⟩ := codecDecodeLoop_takes fuel component.frameNum inputData.eos
    (component.withPacket objects outInfo) answers.round
  rw [codecDecode_eq taken, eq]
  split
  · exact ⟨frames, [.inputAvailable], Or.inr rfl, rfl⟩
  · exact ⟨frames, [], Or.inl rfl, (List.append_nil _).symm⟩

end

/-! ### Sample data -/

/-- A good frame, the last of its stream or not. -/
def goodFrame (eos : Bool) : MppFrame where
  eos
  infoChange := false
  changeHandled := false
  errInfo := 0
  discard := 0
  cropped := true

def decoderComponent (frameNum : ℤ) : Component := ⟨.dec, none, none, 0, 0, frameNum⟩

def codecBuffer (eos : Bool) : CodecBuffer := ⟨1, eos, 0x1000, 4096, 4096⟩

end Codec
end RockchipSoc
