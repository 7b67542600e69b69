import RockchipSoc.Foundation.Polling
import Mathlib.Data.List.Infix
import Mathlib.Logic.Function.Basic

/-!
# The codec interface on the MPP library

A component decodes a buffer in two nested loops: the outer one offers the packet, the inner one
fetches frames, copies each to the output buffer and announces it.  Encoding puts one frame and
fetches the parts of its packet.  What the library and the copier answer is given; what a call
obtains, releases, copies and announces is logged in its order.
-/

namespace RockchipSoc
namespace Codec

open Polling

/-- `CodecBuffer` with its `buffer[0]`; `eos` is `STREAM_FLAG_EOS` in the flag. -/
structure CodecBuffer where
  bufferCnt : ℕ
  eos : Bool
  buf : ℕ
  capacity : ℕ
  length : ℕ
  deriving DecidableEq, Repr

/-- A frame as its getters read it, with whether the calls that handle a change of the info
succeed and whether `imcrop` does. -/
structure MppFrame where
  eos : Bool
  infoChange : Bool
  changeHandled : Bool
  errInfo : BitVec 32
  discard : BitVec 32
  cropped : Bool
  deriving DecidableEq, Repr

/-- A packet as its getters read it. -/
structure MppPacket where
  pos : ℕ
  length : ℕ
  eos : BitVec 32
  isPartition : Bool
  isEoi : ℕ
  deriving DecidableEq, Repr

/-- What a call does that can be seen outside it.  Packets and frames are numbered as they are
obtained; `deinit` releases through the variable that holds the object, `deinitOther` is handed
another address. -/
inductive Event
  | packetInit (object : ℕ)
  | frameInit (object : ℕ)
  | gotFrame (object : ℕ) (frame : MppFrame)
  | gotPacket (object : ℕ) (packet : MppPacket)
  | getPacketFailed
  | deinit (object : ℕ)
  | deinitOther
  | copied
  | outputAvailable (outInfo : CodecBuffer) (frameCount : ℤ) (copied : Bool)
  | inputAvailable
  deriving DecidableEq, Repr

inductive MppCtxType
  | dec
  | enc
  deriving DecidableEq, Repr

inductive HdfStatus
  | success
  | failure
  | errNotSupport
  deriving DecidableEq, Repr

/-- `RKHdiBaseComponent`; `packet` and `frame` are objects it keeps. -/
structure Component where
  ctxType : MppCtxType
  packet : Option ℕ
  frame : Option ℕ
  frameCount : ℤ
  frameErr : ℤ
  frameNum : ℤ
  deriving DecidableEq, Repr

/-- A call that is under way: the counters of its component, the output buffer, the number of the
next object and the log. -/
structure Call where
  frameCount : ℤ
  frameErr : ℤ
  outInfo : Option CodecBuffer
  objects : ℕ
  log : List Event
  deriving DecidableEq, Repr

def Component.begin (component : Component) (objects : ℕ) (outInfo : Option CodecBuffer) :
    Call where
  frameCount := component.frameCount
  frameErr := component.frameErr
  outInfo
  objects
  log := []

def Call.emit (call : Call) (events : List Event) : Call :=
  { call with log := call.log ++ events }

/-- Obtain an object and log it under its number. -/
def Call.receive (call : Call) (event : ℕ → Event) : Call :=
  { call with objects := call.objects + 1, log := call.log ++ [event call.objects] }

/-- Log a copy, if there was one, and announce the output buffer. -/
def Call.announce (call : Call) (outInfo : CodecBuffer) (copied : Bool) : Call :=
  let copies : List Event := if copied then [.copied] else []
  { call with
    outInfo := some outInfo
    log := call.log ++ (copies ++ [.outputAvailable outInfo call.frameCount copied]) }

/-! ### Decoding -/

/-- What `decode_get_frame` answers. -/
inductive GetFrame
  | timeout
  | failed
  | ok (frame : Option MppFrame)
  deriving DecidableEq, Repr

/-- The loop of `DecodeGetFrame`, which tries again after a timeout. -/
def decodeGetFrameLoop : (retryTimes : ℕ) → (tries : ℕ → GetFrame) → GetFrame
  | 0, tries => tries 0
  | retryTimes + 1, tries =>
      if tries 0 = .timeout then decodeGetFrameLoop retryTimes fun n => tries (n + 1) else tries 0

def decodeGetFrame (tries : ℕ → GetFrame) : GetFrame :=
  decodeGetFrameLoop 10 tries

/-- `err_info | discard` is not zero. -/
def MppFrame.bad (frame : MppFrame) : Bool := frame.errInfo ||| frame.discard != 0

def putDecodeFrameToOutput (frame : MppFrame) (outInfo : CodecBuffer) : Bool :=
  outInfo.buf != 0 && frame.cropped

def handleDecodeFrameOutput (frame : MppFrame) (call : Call) : Call :=
  let call := { call with frameCount := call.frameCount + 1 }
  if frame.bad then { call with frameErr := call.frameErr + 1 }
  else
    match call.outInfo with
    | none => call
    | some outInfo =>
        if outInfo.bufferCnt = 0 then call
        else
          let copied := putDecodeFrameToOutput frame outInfo
          let outInfo := if frame.eos then { outInfo with eos := true } else outInfo
          -- a failed copy is only logged
          call.announce outInfo copied

/-- `HandleDecodedFrame` for a frame with its number; the result says whether it succeeded. -/
def handleDecodedFrame (object : ℕ) (frame : MppFrame) (call : Call) : Call × Bool :=
  if frame.infoChange then
    if frame.changeHandled then (call.emit [.deinit object], true)
    else (call.emit [.deinit object], false)
  else ((handleDecodeFrameOutput frame call).emit [.deinit object], true)

/-- The frames asked for have been decoded, or all of the stream. -/
def decodeStops (frameNum frameCount : ℤ) (frmEos : Bool) : Bool :=
  (0 < frameNum && frameNum ≤ frameCount) || (frameNum = 0 && frmEos)

structure FrameLoop where
  call : Call
  frmEos : Bool
  deriving DecidableEq, Repr

/-- The end of a round of the inner loop, after the frame. -/
def decodeGoesOn (frameNum : ℤ) (pktDone pktEos getFrm : Bool) (state : FrameLoop) :
    Option Bool :=
  if pktEos && pktDone && !state.frmEos then none
  else if state.frmEos then some true
  else if decodeStops frameNum state.call.frameCount state.frmEos then some true
  else if getFrm then none
  else some true

/-- A round of `CodecDecodeGetFrameLoop`. -/
def codecDecodeGetFrameBody (frameNum : ℤ) (pktDone pktEos : Bool) (state : FrameLoop)
    (tries : ℕ → GetFrame) : FrameLoop × Option Bool :=
  match decodeGetFrame tries with
  | .timeout => (state, some true)
  | .failed => (state, some true)
  | .ok none => (state, decodeGoesOn frameNum pktDone pktEos false state)
  | .ok (some frame) =>
      let object := state.call.objects
      let handled := handleDecodedFrame object frame
        (state.call.receive fun object => .gotFrame object frame)
      let state : FrameLoop := ⟨handled.1, frame.eos⟩
      if handled.2 then (state, decodeGoesOn frameNum pktDone pktEos true state)
      else (state, some true)

/-- What the library answers in a round of the outer loop: to the packet, and to each try of each
round of the inner loop. -/
structure Round where
  put : Bool
  get : ℕ → ℕ → GetFrame

structure DecodeLoop where
  call : Call
  pktDone : Bool
  loopEnd : Bool
  deriving DecidableEq, Repr

/-- A round of the loop of `CodecDecode`. -/
def codecDecodeBody (fuel : ℕ) (frameNum : ℤ) (pktEos : Bool) (state : DecodeLoop)
    (round : Round) : DecodeLoop × Option Bool :=
  let pktDone := state.pktDone || round.put
  let frames := poll (codecDecodeGetFrameBody frameNum pktDone pktEos) fuel round.get
    ⟨state.call, false⟩
  let state := { state with call := frames.1.call, pktDone }
  if !frames.2 then (state, some false)
  else if decodeStops frameNum frames.1.call.frameCount frames.1.frmEos then
    ({ state with loopEnd := true }, some true)
  else (state, if pktDone then some true else none)

/-- What the library answers to a call of `CodecDecode`: whether the packet can be made, and the
rounds. -/
structure DecodeAnswers where
  packetInit : Bool
  round : ℕ → Round

/-- The loop of `CodecDecode` with the packet made. -/
def codecDecodeLoop (fuel : ℕ) (frameNum : ℤ) (pktEos : Bool) (call : Call)
    (round : ℕ → Round) : DecodeLoop × Bool :=
  poll (codecDecodeBody fuel frameNum pktEos) fuel round ⟨call, false, false⟩

/-- `CodecDecode` for a component found; there is no status while the call is under way. -/
def codecDecode (fuel objects : ℕ) (component : Component) (inputData : CodecBuffer)
    (outInfo : Option CodecBuffer) (answers : DecodeAnswers) : Call × Option HdfStatus :=
  let call := component.begin objects outInfo
  if !answers.packetInit then (call, some .failure)
  else
    let state := codecDecodeLoop fuel component.frameNum inputData.eos
      (call.receive .packetInit) answers.round
    if state.2 then
      (state.1.call.emit [.inputAvailable], some (if state.1.loopEnd then .success else .failure))
    else (state.1.call, none)

/-! ### Encoding -/

/-- What `encode_get_packet` answers. -/
inductive GetPacket
  | failed
  | ok (packet : Option MppPacket)
  deriving DecidableEq, Repr

/-- Whether `memcpy_s` copies between buffers that exist and lie apart. -/
def memcpyS (destMax count : ℕ) : Bool :=
  destMax != 0 && destMax ≤ 0x7fffffff && count ≤ destMax

/-- `HDF_FAILURE`. -/
def hdfFailure : ℤ := -1

def handleEncodedPacket (packet : MppPacket) (call : Call) : Call :=
  match call.outInfo with
  | none => call
  | some outInfo =>
      let copied := outInfo.buf != 0 && outInfo.capacity != 0 && packet.pos != 0 &&
        packet.length != 0 && memcpyS outInfo.capacity packet.length
      let outInfo := if copied then { outInfo with length := packet.length } else outInfo
      let outInfo := if packet.eos ≠ 0 then { outInfo with eos := true } else outInfo
      call.announce outInfo copied

structure PacketLoop where
  call : Call
  eoi : ℕ
  pktEos : BitVec 32
  deriving DecidableEq, Repr

/-- A round of `CodecEncodeGetPacketLoop`. -/
def codecEncodeGetPacketBody (state : PacketLoop) (answer : GetPacket) :
    PacketLoop × Option Bool :=
  match answer with
  | .failed =>
      -- the error is returned as the end of the stream
      (⟨state.call.emit [.getPacketFailed], state.eoi, BitVec.ofInt 32 hdfFailure⟩, some true)
  | .ok none => (state, if state.eoi = 0 then none else some true)
  | .ok (some packet) =>
      let object := state.call.objects
      let call := handleEncodedPacket packet
        (state.call.receive fun object => .gotPacket object packet)
      let eoi := if packet.isPartition then packet.isEoi else state.eoi
      let call := { call with frameCount := call.frameCount + eoi }.emit [.deinit object]
      (⟨call, eoi, packet.eos⟩,
        if packet.eos ≠ 0 then some true else if eoi = 0 then none else some true)

/-- What is answered to a call of `CodecEncode`. -/
structure EncodeAnswers where
  frameInit : Bool
  cropped : Bool
  putFrame : Bool
  getPacket : ℕ → GetPacket

def getEncodeFrameFromInput (inputInfo : CodecBuffer) (answers : EncodeAnswers) : Bool :=
  inputInfo.buf != 0 && answers.cropped

def encodeInitFrame (inputData : CodecBuffer) (answers : EncodeAnswers) (call : Call) :
    Call × Bool :=
  if !answers.frameInit then (call, false)
  else
    let call := call.receive .frameInit
    if getEncodeFrameFromInput inputData answers then (call, true)
    else (call.emit [.deinitOther], false)

/-- `CodecEncodeGetPacketLoop`. -/
def codecEncodeGetPacketLoop (fuel : ℕ) (call : Call) (getPacket : ℕ → GetPacket) :
    PacketLoop × Bool :=
  poll codecEncodeGetPacketBody fuel getPacket ⟨call, 1, 0⟩

/-- `CodecEncode` for a component found. -/
def codecEncode (fuel objects : ℕ) (component : Component) (inputData : Option CodecBuffer)
    (outInfo : CodecBuffer) (answers : EncodeAnswers) : Call × Option HdfStatus :=
  let call := component.begin objects (some outInfo)
  match inputData with
  | none => (call, some .failure)
  | some inputData =>
      if inputData.bufferCnt = 0 then (call, some .failure)
      else
        let frame := encodeInitFrame inputData answers call
        if !frame.2 then (frame.1, some .failure)
        else
          let call := frame.1.emit [.deinit objects]
          if !answers.putFrame then (call, some .failure)
          else
            let packets := codecEncodeGetPacketLoop fuel call answers.getPacket
            if packets.2 then
              let loopEnd := (0 < component.frameNum &&
                  component.frameNum ≤ packets.1.call.frameCount) ||
                (inputData.eos && packets.1.pktEos != 0)
              (packets.1.call.emit [.inputAvailable],
                some (if loopEnd then .success else .failure))
            else (packets.1.call, none)

/-- What the library answers to a call of `CodecEncodeHeader`. -/
structure HeaderAnswers where
  packetInit : Bool
  control : Bool
  pos : ℕ
  length : ℕ
  deriving DecidableEq, Repr

/-- `CodecEncodeHeader` for a component found. -/
def codecEncodeHeader (objects : ℕ) (component : Component) (outInfo : CodecBuffer)
    (answers : HeaderAnswers) : Call × Option HdfStatus :=
  let call := component.begin objects (some outInfo)
  let call := if answers.packetInit then call.receive .packetInit else call
  if !answers.control then (call, some .failure)
  else
    let copied := outInfo.buf != 0 && outInfo.capacity != 0 && answers.pos != 0 &&
      answers.length != 0 && memcpyS answers.length answers.length
    let outInfo := { outInfo with length := answers.length }
    let call := call.announce outInfo copied
    (if answers.packetInit then call.emit [.deinit objects] else call, some .success)

end Codec
end RockchipSoc
