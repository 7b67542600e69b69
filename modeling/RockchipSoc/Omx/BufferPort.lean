import Mathlib.Logic.Function.Basic
import RockchipSoc.Foundation.LabelledRun
import RockchipSoc.Omx.ComponentState

/-!
# The buffer headers of an OMX port

A client hands buffer headers to a port with `EmptyThisBuffer` or `FillThisBuffer`.  They wait in
the queue of the port until the port's thread moves one of them to its data buffer and hands it
back, or until the message thread flushes the port.  Each call, the thread of each port and the
message thread go their own steps; the component executes, its ports copy their buffers, and what
the codec makes of a data buffer is open.

A header is handed back together with the reset of the data buffer it stood in, since the mutex of
the data buffer is held from before the one to behind the other.
-/

namespace RockchipSoc
namespace Omx

/-- How far a call with a header has come. -/
inductive CallStage
  /-- No call is in progress. -/
  | idle
  /-- The port is enabled and was not being flushed. -/
  | checked
  /-- The mutex of the port is held and the header is marked. -/
  | marked
  /-- The message is in the queue. -/
  | queued
  deriving DecidableEq, Repr

/-- The threads that lock the data buffers of a port. -/
inductive BufferThread
  | process | messageHandler
  deriving DecidableEq, Repr

/-- Where the thread of a port is in `InputBufferProcess` or `OutputBufferProcess`. -/
inductive ProcessStage
  | outside
  /-- The mutex is locked. -/
  | locked
  /-- In `BufferGetQueue`, before the semaphore. -/
  | waiting
  /-- In `BufferGetQueue`, behind the semaphore. -/
  | taking
  /-- The data buffer is valid. -/
  | processing
  /-- Nothing is left to do before the mutex is unlocked. -/
  | leaving
  deriving DecidableEq, Repr

/-- Where the message thread is in `BufferFlush` of a port. -/
inductive FlushStage (Header : Type)
  | off
  /-- The port is marked as being flushed. -/
  | raised
  /-- The semaphore is posted. -/
  | posted
  /-- At the head of the loop that empties the queue. -/
  | emptying
  /-- In the loop, before the semaphore. -/
  | waking
  /-- A message is taken from the queue. -/
  | handing (header : Header)
  /-- The loop is left; the data buffers are next. -/
  | returning
  | draining
  | resetting
  | finishing
  /-- The flush is complete and the mutexes are not yet unlocked. -/
  | unlocking
  deriving DecidableEq, Repr

/-- `ROCKCHIP_OMX_BASEPORT`, the threads at work on it, and the books on its headers. -/
structure BasePort (Header : Type) where
  bufferQ : List Header := []
  bufferSemID : Nat := 0
  /-- The header of the data buffer that the thread of the port uses, where it is valid. -/
  dataBuffer : Option Header := none
  bIsPortFlushed : Bool := false
  bEnabled : Bool := true
  bBufferInOMX : Header → Bool := fun _ => false
  /-- The call that holds the mutex of the port. -/
  hPortMutex : Option Header := none
  bufferMutex : Option BufferThread := none
  calls : Header → CallStage := fun _ => .idle
  process : ProcessStage := .outside
  flush : FlushStage Header := .off
  /-- How many calls with the header have succeeded. -/
  accepted : Header → Nat := fun _ => 0
  /-- How often the header was handed back. -/
  handedBack : Header → Nat := fun _ => 0
  /-- The last call with the header has returned an error. -/
  refused : Header → Bool := fun _ => false
  /-- A flush was completed, and no message was queued since. -/
  flushed : Bool := false

/-- The queue is a ring of one element and two fewer than the forty asked for. -/
def ringElements : Nat := 39

variable {Header : Type} [DecidableEq Header] (p : BasePort Header)

/-! ## Calls -/

/-- The client calls with a header that it owns, and the port is looked at. -/
def callCheck (h : Header) : Option (BasePort Header) :=
  if p.calls h = .idle ∧ p.accepted h = p.handedBack h then
    some (if p.bEnabled && !p.bIsPortFlushed then
      { p with calls := Function.update p.calls h .checked
               refused := Function.update p.refused h false }
    else { p with refused := Function.update p.refused h true })
  else none

def callMark (h : Header) : Option (BasePort Header) :=
  if p.calls h = .checked ∧ p.hPortMutex = none then
    some { p with hPortMutex := some h
                  bBufferInOMX := Function.update p.bBufferInOMX h true
                  calls := Function.update p.calls h .marked }
  else none

/-- The message is allocated, where there is memory, and queued, where the ring has room. -/
def callQueue (h : Header) (memory : Bool) : Option (BasePort Header) :=
  if p.calls h = .marked then
    some (if memory && decide (p.bufferQ.length < ringElements) then
      { p with bufferQ := p.bufferQ ++ [h]
               calls := Function.update p.calls h .queued
               accepted := Function.update p.accepted h (p.accepted h + 1)
               flushed := false }
    else
      { p with hPortMutex := none
               calls := Function.update p.calls h .idle
               refused := Function.update p.refused h true })
  else none

def callPost (h : Header) : Option (BasePort Header) :=
  if p.calls h = .queued then
    some { p with bufferSemID := p.bufferSemID + 1
                  hPortMutex := none
                  calls := Function.update p.calls h .idle }
  else none

/-- `InputBufferReturn` or `OutputBufferReturn`. -/
def bufferReturn (h : Header) : BasePort Header :=
  { p with bBufferInOMX := Function.update p.bBufferInOMX h false
           handedBack := Function.update p.handedBack h (p.handedBack h + 1) }

/-! ## The thread of the port -/

/-- The port was not being flushed some time before. -/
def processLock : Option (BasePort Header) :=
  if p.process = .outside ∧ p.bufferMutex = none then
    some { p with process := .locked, bufferMutex := some .process }
  else none

/-- A valid data buffer is processed; otherwise the next header is asked for. -/
def processGet : Option (BasePort Header) :=
  if p.process = .locked then
    match p.dataBuffer with
    | some _ => some { p with process := .processing }
    | none => some { p with process := if p.bIsPortFlushed then .leaving else .waiting }
  else none

def processWait : Option (BasePort Header) :=
  if p.process = .waiting ∧ 0 < p.bufferSemID then
    some { p with process := .taking, bufferSemID := p.bufferSemID - 1 }
  else none

/-- `BufferGetQueue` behind the semaphore: there need not be a message. -/
def processTake : Option (BasePort Header) :=
  if p.process = .taking then
    match p.dataBuffer, p.bufferQ with
    | some _, _ => some { p with process := .processing }
    | none, [] => some { p with process := .leaving }
    | none, h :: rest =>
        some { p with process := .processing, bufferQ := rest, dataBuffer := some h }
  else none

/-- The codec is done with the data buffer. -/
def processReturn : Option (BasePort Header) :=
  match p.process, p.dataBuffer, p.hPortMutex with
  | .processing, some h, none =>
      some { bufferReturn p h with process := .leaving, dataBuffer := none }
  | _, _, _ => none

/-- The codec may not be done with the data buffer. -/
def processUnlock : Option (BasePort Header) :=
  if p.process = .processing ∨ p.process = .leaving then
    some { p with process := .outside, bufferMutex := none }
  else none

/-! ## The message thread -/

def flushStart : Option (BasePort Header) :=
  if p.flush = .off then some { p with flush := .raised, bIsPortFlushed := true } else none

def flushPost : Option (BasePort Header) :=
  if p.flush = .raised then some { p with flush := .posted, bufferSemID := p.bufferSemID + 1 }
  else none

def flushLock : Option (BasePort Header) :=
  if p.flush = .posted ∧ p.bufferMutex = none then
    some { p with flush := .emptying, bufferMutex := some .messageHandler }
  else none

/-- The loop is left where the queue is empty; otherwise the semaphore is made positive. -/
def flushLoop : Option (BasePort Header) :=
  if p.flush = .emptying then
    some (if p.bufferQ = [] then { p with flush := .returning }
      else { p with flush := .waking, bufferSemID := max p.bufferSemID 1 })
  else none

def flushTake : Option (BasePort Header) :=
  if p.flush = .waking ∧ 0 < p.bufferSemID then
    match p.bufferQ with
    | [] => some { p with flush := .emptying, bufferSemID := p.bufferSemID - 1 }
    | h :: rest =>
        some { p with flush := .handing h, bufferSemID := p.bufferSemID - 1, bufferQ := rest }
  else none

def flushHand : Option (BasePort Header) :=
  match p.flush, p.hPortMutex with
  | .handing h, none => some { bufferReturn p h with flush := .emptying }
  | _, _ => none

/-- The data buffer is handed back where it is valid. -/
def flushReturn : Option (BasePort Header) :=
  if p.flush = .returning then
    match p.dataBuffer, p.hPortMutex with
    | none, _ => some { p with flush := .draining }
    | some h, none => some { bufferReturn p h with flush := .draining, dataBuffer := none }
    | some _, some _ => none
  else none

def flushDrain : Option (BasePort Header) :=
  if p.flush = .draining then
    some (if p.bufferSemID = 0 then { p with flush := .resetting }
      else { p with bufferSemID := p.bufferSemID - 1 })
  else none

/-- `ResetQueue`: whatever is in the queue is dropped. -/
def flushReset : Option (BasePort Header) :=
  if p.flush = .resetting then some { p with flush := .finishing, bufferQ := [] } else none

def flushDone : Option (BasePort Header) :=
  if p.flush = .finishing then
    some { p with flush := .unlocking, bIsPortFlushed := false, flushed := true }
  else none

def flushUnlock : Option (BasePort Header) :=
  if p.flush = .unlocking then some { p with flush := .off, bufferMutex := none } else none

/-- `DisablePort`, at the end of the command. -/
def disablePort : Option (BasePort Header) :=
  if p.flush = .off then some { p with bEnabled := false } else none

/-! ## The component -/

/-- The steps of a port. -/
inductive PortLabel (Header : Type)
  | callCheck (h : Header)
  | callMark (h : Header)
  | callQueue (h : Header) (memory : Bool)
  | callPost (h : Header)
  | processLock | processGet | processWait | processTake | processReturn | processUnlock
  /-- `SendCommand` marks the port before the message thread does. -/
  | sendFlush
  | flushStart | flushPost | flushLock | flushLoop | flushTake | flushHand | flushReturn
  | flushDrain | flushReset | flushDone | flushUnlock
  | disablePort
  deriving DecidableEq, Repr

def portStep : PortLabel Header → Option (BasePort Header)
  | .callCheck h => callCheck p h
  | .callMark h => callMark p h
  | .callQueue h memory => callQueue p h memory
  | .callPost h => callPost p h
  | .processLock => processLock p
  | .processGet => processGet p
  | .processWait => processWait p
  | .processTake => processTake p
  | .processReturn => processReturn p
  | .processUnlock => processUnlock p
  | .sendFlush => some { p with bIsPortFlushed := true }
  | .flushStart => flushStart p
  | .flushPost => flushPost p
  | .flushLock => flushLock p
  | .flushLoop => flushLoop p
  | .flushTake => flushTake p
  | .flushHand => flushHand p
  | .flushReturn => flushReturn p
  | .flushDrain => flushDrain p
  | .flushReset => flushReset p
  | .flushDone => flushDone p
  | .flushUnlock => flushUnlock p
  | .disablePort => disablePort p

/-- Both ports. -/
abbrev Ports (Header : Type) := PortIndex → BasePort Header

/-- The message thread carries out one command at a time. -/
def messageHandlerFree (ports : Ports Header) : Bool :=
  decide ((ports .input).flush = .off) && decide ((ports .output).flush = .off)

/-- The step is the first one of a command, or a command of its own. -/
def beginsCommand : PortLabel Header → Bool
  | .flushStart | .disablePort => true
  | _ => false

def portsStep (ports : Ports Header) (label : PortIndex × PortLabel Header) :
    Option (Ports Header) :=
  if beginsCommand label.2 && !messageHandlerFree ports then none
  else (portStep (ports label.1) label.2).map (Function.update ports label.1)

/-- No call has been made yet. -/
def freshPorts (Header : Type) : Ports Header := fun _ => {}

end Omx
end RockchipSoc
