import RockchipSoc.Foundation.Tables

/-!
# State changes of an OMX component

A component is told to go to a state by a command, which its message thread carries out.  Going
from Loaded to Idle takes a place from the resource manager and creates the operating system's
objects of the two ports and the two threads that process buffers; other changes destroy them
again, or only set the state.

`componentStateSet` is the part of `Rockchip_OMX_ComponentStateSet` after its first call of the
resource manager; what that call is, `firstCall` says.  Ports are never tunneled, since tunnel
requests are refused.
-/

namespace RockchipSoc
namespace Omx

open HandleTable

/-- `OMX_STATETYPE`. -/
inductive OmxState
  | invalid | loaded | idle | executing | pause | waitForResources
  deriving DecidableEq, Repr

/-- `OMX_ERRORTYPE`, as far as calls of a client return it. -/
inductive OmxError
  | errorNone | insufficientResources | undefined | componentNotFound | badParameter
  | invalidState | incorrectStateOperation | badPortIndex
  deriving DecidableEq, Repr

/-- `ROCKCHIP_OMX_PORT_WAY_TYPE`: whether a port has one data buffer or two. -/
inductive PortWay
  | way1 | way2 | other
  deriving DecidableEq, Repr

inductive PortIndex
  | input | output
  deriving DecidableEq, Repr

/-- What decides the objects of a port. -/
structure PortConfig where
  way : PortWay
  bufferShare : Bool
  deriving DecidableEq, Repr

/-- The objects and threads behind the handles of a component. -/
inductive OsObject
  | pauseEvent (port : PortIndex)
  | allCodecBufferReturnEvent (port : PortIndex)
  | bufferSem (port : PortIndex)
  | dataBufferMutex (port : PortIndex)
  | inputDataBufferMutex (port : PortIndex)
  | outputDataBufferMutex (port : PortIndex)
  | portMutex (port : PortIndex)
  | secureBufferMutex (port : PortIndex)
  | outputThread
  | inputThread
  deriving DecidableEq, Repr

/-- The calls of the resource manager. -/
inductive RmCall
  | getResource | releaseResource | inWaitForResource | outWaitForResource
  deriving DecidableEq, Repr

/-- What the environment decides while a command is carried out: which creations succeed, whether
the component is being deleted, and whether the codec can be initialised. -/
structure CommandEnv where
  creates : OsObject → Bool
  abend : Bool
  codecInit : Bool

/-- `ROCKCHIP_OMX_BASECOMPONENT`: its state, and the objects it holds. -/
structure OmxComponent where
  currentState : OmxState
  objects : Table OsObject

variable (ports : PortIndex → PortConfig) (env : CommandEnv) (comp : OmxComponent)

/-! ### The objects of the ports -/

def portEvents (port : PortIndex) : List OsObject :=
  .pauseEvent port ::
    if (ports port).bufferShare then [.allCodecBufferReturnEvent port] else []

def events : List OsObject := portEvents ports .input ++ portEvents ports .output

def bufferSems : List OsObject := [.bufferSem .input, .bufferSem .output]

def portMutexes (port : PortIndex) : List OsObject :=
  (match (ports port).way with
    | .way1 => [.dataBufferMutex port]
    | .way2 => [.inputDataBufferMutex port, .outputDataBufferMutex port]
    | .other => []) ++ [.portMutex port, .secureBufferMutex port]

def mutexes : List OsObject := portMutexes ports .input ++ portMutexes ports .output

/-- Creations one after another up to the first that fails, and whether all of them succeeded. -/
def createWhile (table : Table OsObject) : List OsObject → Table OsObject × Bool
  | [] => (table, true)
  | object :: rest =>
      if env.creates object then createWhile (table.create object) rest else (table, false)

/-- The events of the ports; a failure is not noticed. -/
def createEvents (table : Table OsObject) : Table OsObject :=
  table.createAll ((events ports).filter env.creates)

/-- `Rkvpu_OMX_BufferProcess_Create`: the input thread is tried only after the output thread. -/
def bufferProcessCreate (table : Table OsObject) : Table OsObject × Bool :=
  if env.creates .outputThread then
    ((table.assign .outputThread true).assign .inputThread (env.creates .inputThread),
      env.creates .inputThread)
  else (table.assign .outputThread false, false)

/-- `Rkvpu_OMX_BufferProcess_Terminate`. -/
def bufferProcessTerminate (table : Table OsObject) : Table OsObject :=
  table.terminateAll [.inputThread, .outputThread]

/-- The objects are destroyed: the mutexes of the ports, their events, and their semaphores. -/
def destroyObjects (table : Table OsObject) : Table OsObject :=
  table.terminateAll (mutexes ports ++ events ports ++ bufferSems)

/-- After a failure to start the threads, the events go first. -/
def undoObjects (table : Table OsObject) : Table OsObject :=
  table.terminateAll (events ports ++ mutexes ports ++ bufferSems)

/-! ### The transitions -/

/-- The call of the resource manager before a transition. -/
def firstCall (currentState destState : OmxState) : Option RmCall :=
  if currentState = .loaded ∧ destState = .idle then some .getResource
  else if (currentState = .idle ∧ destState = .loaded) ∨
      (destState = .invalid ∧
        (currentState = .idle ∨ currentState = .executing ∨ currentState = .pause)) then
    some .releaseResource
  else none

/-- From Loaded to Idle, once the buffers are there. -/
def loadedToIdle : OmxComponent × Option RmCall :=
  if env.abend then (comp, some .releaseResource)
  else
    let (table, created) :=
      createWhile env (createEvents ports env comp.objects) (bufferSems ++ mutexes ports)
    if ¬created then ({ comp with objects := table }, none)
    else
      let (table, started) := bufferProcessCreate env table
      if ¬started then ({ comp with objects := undoObjects ports table }, none)
      else (⟨.idle, table⟩, none)

/-- To Invalid, from any other state. -/
def toInvalid : OmxComponent × Option RmCall :=
  (⟨.invalid, destroyObjects ports (bufferProcessTerminate comp.objects)⟩,
    if comp.currentState = .waitForResources then some .outWaitForResource else none)

def toLoaded : OmxComponent × Option RmCall :=
  match comp.currentState with
  | .idle => (⟨.loaded, destroyObjects ports (bufferProcessTerminate comp.objects)⟩, none)
  | .waitForResources => ({ comp with currentState := .loaded }, some .outWaitForResource)
  | _ => (comp, none)

def toIdle : OmxComponent × Option RmCall :=
  match comp.currentState with
  | .loaded => loadedToIdle ports env comp
  | .executing | .pause | .waitForResources => ({ comp with currentState := .idle }, none)
  | _ => (comp, none)

def toExecuting : OmxComponent × Option RmCall :=
  match comp.currentState with
  | .idle =>
      if env.codecInit then ({ comp with currentState := .executing }, none)
      else (comp, some .releaseResource)
  | .pause => ({ comp with currentState := .executing }, none)
  | _ => (comp, none)

def toPause : OmxComponent × Option RmCall :=
  match comp.currentState with
  | .idle | .executing => ({ comp with currentState := .pause }, none)
  | _ => (comp, none)

def toWaitForResources : OmxComponent × Option RmCall :=
  match comp.currentState with
  | .loaded => ({ comp with currentState := .waitForResources }, some .inWaitForResource)
  | _ => (comp, none)

/-- `Rockchip_OMX_ComponentStateSet` after its first call of the resource manager, with the call it
makes there.  Any other number than that of a state is refused. -/
def componentStateSet : Option OmxState → OmxComponent × Option RmCall
  | some .invalid => toInvalid ports comp
  | some .loaded => toLoaded ports comp
  | some .idle => toIdle ports env comp
  | some .executing => toExecuting env comp
  | some .pause => toPause comp
  | some .waitForResources => toWaitForResources comp
  | none => (comp, none)

/-- Whether a command is refused at once. -/
def refused (currentState : OmxState) (destState : Option OmxState) : Bool :=
  some currentState = destState ∨ currentState = .invalid

/-- A component when it is made. -/
def omxComponentInit : OmxComponent := ⟨.loaded, Table.empty⟩

end Omx
end RockchipSoc
