import Mathlib.Algebra.Group.Int.Defs
import Mathlib.Data.Nat.Bitwise

/-!
# Output frames of the OMX video decoder

The thread of the output port asks the decoder for a frame and gives the client a buffer: the one
that the decoder has decoded into, when the port shares its buffers, and else the data buffer, which
the frame is copied into.  The end of the stream comes as the result of the decoder or in the flags
of a frame.

The frame's memory, what is copied, and the color aspects are left out.
-/

namespace RockchipSoc
namespace Omx

/-- `OMX_BUFFERFLAG_EOS`. -/
def bufferFlagEos : ℕ := 0x1

/-- `OMX_BUFFERFLAG_SYNCFRAME`. -/
def bufferFlagSyncFrame : ℕ := 0x20

/-- What the client is called back with. -/
inductive ClientCallback
  | eventError
  | eventBufferFlag (nFlags : ℕ)
  | eventPortSettingsChanged
  | fillBufferDone (header nFlags : ℕ)
  deriving DecidableEq, Repr

/-- `OMX_BUFFERHEADERTYPE` of an output buffer, at its address. -/
structure OutputHeader where
  addr : ℕ
  nFlags : ℕ
  nAllocLen : ℕ
  deriving DecidableEq, Repr

/-- An element of `extendBufferHeader`; `pPrivate` is set while the buffer is on display. -/
structure OutputSlot where
  header : Option OutputHeader
  bBufferInOMX : Bool
  bufFd : ℤ
  pPrivate : Bool
  deriving DecidableEq, Repr

/-- `ROCKCHIP_OMX_DATABUFFER`. -/
structure OutputDataBuffer where
  bufferHeader : Option OutputHeader
  dataValid : Bool
  nFlags : ℕ
  remainDataLen : ℕ
  deriving DecidableEq, Repr

/-- The result of `decode_getframe`: not negative, `VPU_API_EOS_STREAM_REACHED`, or another negative
number. -/
inductive DecodeReturn
  | decoded | eosStreamReached | failed
  deriving DecidableEq, Repr

/-- `VPU_FRAME`, with the color format that `Rockchip_OSAL_CheckFormat` finds. -/
structure VpuFrame where
  displayWidth : ℕ
  displayHeight : ℕ
  frameWidth : ℕ
  frameHeight : ℕ
  frameType : ℕ
  errorInfo : ℕ
  phyAddr : ℕ
  fd : ℤ
  eColorFormat : ℕ
  deriving DecidableEq, Repr

/-- `DecoderOut_t`; of `nFlags` it matters whether it is `VPU_API_EOS_STREAM_REACHED`. -/
structure DecoderOut where
  ret : DecodeReturn
  size : ℕ
  timeUs : ℤ
  nFlagsEos : Bool
  frame : VpuFrame
  deriving DecidableEq, Repr

/-- The structures as they are cleared before the decoder is asked. -/
def noFrame : DecoderOut := ⟨.decoded, 0, 0, false, ⟨0, 0, 0, 0, 0, 0, 0, 0, 0⟩⟩

/-- The formats of the ports. -/
structure PortFormats where
  nFrameWidth : ℕ
  nFrameHeight : ℕ
  nSliceHeight : ℕ
  nStride : ℕ
  eColorFormat : ℕ
  deriving DecidableEq, Repr

/-- `RKVPU_OMX_VIDEODEC_COMPONENT` and its output port.  `slots` are the first `nBufferCountActual`
elements of `extendBufferHeader`; `poolFds` is the descriptor of the free buffer of the pool at each
try, if there is one. -/
structure VideoDec where
  vpuCtx : Bool
  bFirstFrame : Bool
  bDecSendEOS : Bool
  bufferShare : Bool
  bIsPortFlushed : Bool
  bGtsMediaTest : Bool
  bDRMPlayerMode : Bool
  bStoreMetaData : Bool
  mpeg2 : Bool
  maxCount : ℕ
  lastPts : ℤ
  formats : PortFormats
  slots : List OutputSlot
  outputDataBuffer : OutputDataBuffer
  poolFds : ℕ → Option ℤ

/-- What a call leaves behind, and what it has called the client with. -/
structure Posted where
  callbacks : List ClientCallback
  bDecSendEOS : Bool
  outputDataBuffer : OutputDataBuffer
  lastPts : ℤ
  deriving DecidableEq, Repr

variable (dec : VideoDec)

/-! ### Handing a buffer to the client -/

/-- `Rockchip_ResetDataBuffer`. -/
def resetDataBuffer : OutputDataBuffer := ⟨none, false, 0, 0⟩

/-- `Rockchip_OMX_OutputBufferReturn`: what the client is called back with. -/
def omxOutputBufferReturn (header : OutputHeader) : List ClientCallback :=
  [.fillBufferDone header.addr header.nFlags]

/-- The loop of `Rkvpu_OutputBufferReturn`, which looks for the header of a free buffer. -/
def freeBufferHeader : Option OutputHeader :=
  (List.range 10).findSome? fun retry =>
    (dec.poolFds retry).bind fun fd =>
      (dec.slots.find? fun slot => slot.bufFd == fd).bind fun slot => slot.header

/-- `Rkvpu_OutputBufferReturn`; the data buffer is reset in any case. -/
def rkvpuOutputBufferReturn (buffer : OutputDataBuffer) : List ClientCallback :=
  let eos := buffer.nFlags &&& bufferFlagEos ≠ 0
  let bufferHeader :=
    match buffer.bufferHeader with
    | some header => some header
    | none => if eos then freeBufferHeader dec else none
  match bufferHeader with
  | some header =>
      (if eos then [.eventBufferFlag buffer.nFlags] else []) ++
        omxOutputBufferReturn { header with nFlags := buffer.nFlags }
  | none => if eos then [.eventError] else []

/-- A result below zero: the end of the stream, or an error. -/
def postDecodeReturn (out : DecoderOut) : Posted :=
  let buffer := dec.outputDataBuffer
  match out.ret with
  | .decoded => ⟨[], dec.bDecSendEOS, buffer, dec.lastPts⟩
  | .eosStreamReached =>
      if out.frame.errorInfo = 0 then
        let ended : OutputDataBuffer :=
          ⟨buffer.bufferHeader, false, buffer.nFlags ||| bufferFlagEos, 0⟩
        ⟨rkvpuOutputBufferReturn dec ended, true, resetDataBuffer, dec.lastPts⟩
      else
        ⟨.eventError :: rkvpuOutputBufferReturn dec buffer, dec.bDecSendEOS, resetDataBuffer,
          dec.lastPts⟩
  | .failed =>
      ⟨.eventError :: rkvpuOutputBufferReturn dec buffer, dec.bDecSendEOS, resetDataBuffer,
        dec.lastPts⟩

/-- The client is called back with more. -/
def Posted.calls (posted : Posted) (callbacks : List ClientCallback) : Posted :=
  { posted with callbacks := posted.callbacks ++ callbacks }

/-- The frame is larger than the decoder's buffers. -/
def VpuFrame.oversized (frame : VpuFrame) : Bool :=
  frame.displayWidth > 8192 || frame.displayHeight > 4096

/-- A flushed port gives its data buffer back without data. -/
def postFlushed (posted : Posted) : Posted :=
  { posted.calls (rkvpuOutputBufferReturn dec
      { posted.outputDataBuffer with nFlags := 0, remainDataLen := 0 }) with
    outputDataBuffer := resetDataBuffer }

/-! ### Shared buffers -/

/-- The buffers that the component does not have. -/
def numInOmxAl : ℕ := dec.slots.countP fun slot => !slot.bBufferInOMX

/-- The decoder is asked while the client has few buffers, and every now and then. -/
def asksShared : Bool := numInOmxAl dec < 8 || dec.maxCount > 20

/-- `Rockchip_OSAL_Fd2OmxBufferHeader`. -/
def fd2OmxBufferHeader (fd : ℤ) : Option OutputHeader :=
  (dec.slots.find? fun slot => fd == slot.bufFd).bind fun slot =>
    if slot.pPrivate then none else slot.header

def formatChangedShared (frame : VpuFrame) : Bool :=
  dec.formats.nFrameWidth != frame.displayWidth ||
    dec.formats.nFrameHeight != frame.displayHeight ||
    dec.formats.nSliceHeight != frame.frameHeight || dec.formats.nStride != frame.frameWidth ||
    dec.formats.eColorFormat != frame.eColorFormat

/-- A frame that the decoder has marked is dropped. -/
def dropsFrame (frame : VpuFrame) : Bool :=
  frame.errorInfo != 0 && !dec.bGtsMediaTest && !dec.bDRMPlayerMode

/-- The flags of the header that a frame goes out with. -/
def sharedFlags (header : OutputHeader) (out : DecoderOut) : ℕ :=
  let nFlags := if out.nFlagsEos then header.nFlags ||| bufferFlagEos else 0
  if out.frame.frameType > 0 then bufferFlagSyncFrame else nFlags

/-- `nFilledLen` of the header. -/
def sharedFilledLen (header : OutputHeader) (frame : VpuFrame) : ℕ :=
  if dec.bStoreMetaData then header.nAllocLen
  else frame.displayHeight * frame.displayWidth * 3 / 2

/-- A frame of a port that shares its buffers. -/
def postSharedFrame (posted : Posted) (out : DecoderOut) : Posted :=
  if formatChangedShared dec out.frame then posted.calls [.eventPortSettingsChanged]
  else if dropsFrame dec out.frame then posted
  else
    match fd2OmxBufferHeader dec out.frame.fd with
    | none => posted
    | some header =>
        let nFlags := sharedFlags header out
        let marked := { posted with bDecSendEOS := out.nFlagsEos || posted.bDecSendEOS }
        if sharedFilledLen dec header out.frame > 0 ∨ nFlags &&& bufferFlagEos = bufferFlagEos ∨
            dec.bIsPortFlushed then
          marked.calls (omxOutputBufferReturn { header with nFlags := nFlags })
        else marked

def postShared (decoded : DecoderOut) : Posted :=
  let out := if asksShared dec then decoded else noFrame
  let posted := postDecodeReturn dec out
  if out.frame.oversized then posted.calls [.eventError]
  else if out.size > 0 ∧ ¬dec.bIsPortFlushed then postSharedFrame dec posted out
  else if dec.bIsPortFlushed then postFlushed dec posted
  else posted

/-! ### Copied buffers -/

def formatChangedCopied (frame : VpuFrame) : Bool :=
  dec.formats.nFrameWidth != frame.displayWidth ||
    dec.formats.nFrameHeight != frame.displayHeight ||
    dec.formats.eColorFormat != frame.eColorFormat

/-- A frame of an MPEG-2 stream that has the time of the one before. -/
def repeatedFrame (out : DecoderOut) : Bool :=
  dec.mpeg2 && dec.lastPts != 0 && dec.lastPts == out.timeUs && !out.nFlagsEos

/-- A frame that is copied; `dataSize` is `GetDataSize` of it. -/
def postCopiedFrame (posted : Posted) (out : DecoderOut) (dataSize : ℕ) : Posted :=
  if formatChangedCopied dec out.frame then posted.calls [.eventPortSettingsChanged]
  else if out.frame.phyAddr = 0 then posted
  else if repeatedFrame dec out then posted
  else
    let buffer := posted.outputDataBuffer
    let nFlags := if out.nFlagsEos then buffer.nFlags ||| bufferFlagEos else buffer.nFlags
    let filled : OutputDataBuffer := { buffer with nFlags := nFlags, remainDataLen := dataSize }
    let marked := { posted with
      bDecSendEOS := out.nFlagsEos || posted.bDecSendEOS
      lastPts := if dec.mpeg2 then out.timeUs else posted.lastPts }
    if dataSize > 0 ∨ nFlags &&& bufferFlagEos = bufferFlagEos ∨ dec.bIsPortFlushed then
      { marked.calls (rkvpuOutputBufferReturn dec filled) with outputDataBuffer := resetDataBuffer }
    else { marked with outputDataBuffer := filled }

def postCopied (out : DecoderOut) (dataSize : ℕ) : Posted :=
  let posted := postDecodeReturn dec out
  if out.frame.errorInfo ≠ 0 then posted
  else if out.frame.oversized then posted.calls [.eventError]
  else if out.size > 0 ∧ ¬dec.bIsPortFlushed then postCopiedFrame dec posted out dataSize
  else if dec.bIsPortFlushed then postFlushed dec posted
  else posted

/-! ### The call -/

/-- The decoder is asked for a frame. -/
def asksDecoder : Bool :=
  dec.vpuCtx && !dec.bFirstFrame && !dec.bDecSendEOS &&
    if dec.bufferShare then asksShared dec else dec.outputDataBuffer.dataValid

/-- `Rkvpu_Post_OutputFrame`, where the decoder answers `decoded` if it is asked. -/
def rkvpuPostOutputFrame (decoded : DecoderOut) (dataSize : ℕ) : Posted :=
  if !dec.vpuCtx || dec.bFirstFrame || dec.bDecSendEOS then
    ⟨[], dec.bDecSendEOS, dec.outputDataBuffer, dec.lastPts⟩
  else if dec.bufferShare then postShared dec decoded
  else if dec.outputDataBuffer.dataValid then postCopied dec decoded dataSize
  else ⟨[], dec.bDecSendEOS, dec.outputDataBuffer, dec.lastPts⟩

end Omx
end RockchipSoc
