import Mathlib.Algebra.Group.Int.Defs
import RockchipSoc.Foundation.GuardedWrites
import RockchipSoc.Omx.BufferPort

/-!
# Commands for the ports of an OMX component

A client sends a command with the number of a port, or with -1 for all of them.  The call looks at
the ports and marks them, and queues the command; a handler of the message thread carries it out
later.  The number is unsigned and compared as a signed one.

A component has two ports, and `ports` may be asked for a port at any index: the indices are listed
in `indexed`.
-/

namespace RockchipSoc
namespace Omx

open GuardedWrites

/-- `ALL_PORT_INDEX`. -/
def allPortIndex : ℤ := -1

/-- `ALL_PORT_NUM`, which the constructor of the ports sets `portParam.nPorts` to. -/
def nPorts : ℤ := 2

/-- `RK_VPU_NEED_FLUSH_ON_SEEK`. -/
def needFlushOnSeek : ℕ := 1

/-- The members of `ROCKCHIP_OMX_BASEPORT` that commands go by. -/
structure CommandPort where
  portState : OmxState
  bIsPortFlushed : Bool
  bIsPortDisabled : Bool
  bEnabled : Bool
  deriving DecidableEq, Repr

/-- `ROCKCHIP_OMX_BASECOMPONENT`, and the number of commands in `messageQ`. -/
structure CommandComponent where
  currentState : OmxState
  nRkFlags : ℕ
  ports : ℤ → CommandPort
  messages : ℕ

/-- Commands of `OMX_COMMANDTYPE` that name a port. -/
inductive PortCommand
  | flush | portDisable | portEnable | markBuffer
  deriving DecidableEq, Repr

/-- What is found when a command is queued: memory for it, and the result of the post. -/
structure QueueEnv where
  memory : Bool
  posted : OmxError
  deriving DecidableEq, Repr

/-- A component after a part of the call, the indices used so far, and the result. -/
structure Sent where
  comp : CommandComponent
  indexed : List ℤ
  ret : OmxError

variable (comp : CommandComponent) (nParam : BitVec 32)

/-- A loop over ports; `refused` is the result at a port that refuses. -/
def setPorts (refuses : CommandPort → Bool) (change : CommandPort → CommandPort)
    (indices : List ℤ) : Sent :=
  let written := guardedWrites refuses change indices comp.ports
  ⟨{ comp with ports := written.cells }, written.touched,
    if written.done then .errorNone else .incorrectStateOperation⟩

/-- The check of the number, for commands that allow all ports. -/
def badPortIndex : Bool :=
  nParam.toInt ≠ allPortIndex && nParam.toInt ≥ nPorts

/-- All ports, or the port at the index. -/
def portIndices : List ℤ :=
  if nParam.toInt = allPortIndex then [0, 1] else [nParam.toInt]

/-- The component carries out buffers. -/
def CommandComponent.started : Bool :=
  comp.currentState = .executing || comp.currentState = .pause

/-- The index of `Rockchip_SetPortFlush` has 16 bits. -/
def flushIndices : List ℤ :=
  if nParam.toInt = allPortIndex then [0, 1] else [(nParam.setWidth 16).toNat]

/-- `Rockchip_SetPortFlush`. -/
def setPortFlush : Sent :=
  if comp.started then
    if badPortIndex nParam then ⟨comp, [], .badPortIndex⟩
    else setPorts comp (fun _ => false) (fun port => { port with bIsPortFlushed := true })
      (flushIndices nParam)
  else ⟨comp, [], .incorrectStateOperation⟩

/-- `Rockchip_SetPortEnable`. -/
def setPortEnable : Sent :=
  if badPortIndex nParam then ⟨comp, [], .badPortIndex⟩
  else setPorts comp (fun port => port.bEnabled) (fun port => { port with portState := .idle })
    (portIndices nParam)

/-- `Rockchip_SetPortDisable`; a single port is not asked whether it is enabled. -/
def setPortDisable : Sent :=
  if badPortIndex nParam then ⟨comp, [], .badPortIndex⟩
  else setPorts comp (fun port => nParam.toInt = allPortIndex && !port.bEnabled)
    (fun port => { port with portState := .loaded, bIsPortDisabled := true }) (portIndices nParam)

/-- `Rockchip_SetMarkBuffer`; its comparison is unsigned. -/
def setMarkBuffer : Sent :=
  if (nParam.toNat : ℤ) ≥ nPorts then ⟨comp, [], .badPortIndex⟩
  else if comp.started then ⟨comp, [], .errorNone⟩
  else ⟨comp, [], .incorrectStateOperation⟩

/-- `Rockchip_OMX_CommandQueue`. -/
def commandQueue (env : QueueEnv) : CommandComponent × OmxError :=
  if !env.memory then (comp, .insufficientResources)
  else if comp.messages ≥ ringElements then (comp, .undefined)
  else ({ comp with messages := comp.messages + 1 }, env.posted)

/-- The checks of a command. -/
def setCommand : PortCommand → Sent
  | .flush => setPortFlush { comp with nRkFlags := comp.nRkFlags ||| needFlushOnSeek } nParam
  | .portDisable => setPortDisable comp nParam
  | .portEnable => setPortEnable comp nParam
  | .markBuffer => setMarkBuffer comp nParam

/-- `Rockchip_OMX_SendCommand`, for these commands. -/
def rockchipSendCommand (cmd : PortCommand) (env : QueueEnv) : Sent :=
  if comp.currentState = .invalid then ⟨comp, [], .invalidState⟩
  else
    let sent := setCommand comp nParam cmd
    if sent.ret ≠ .errorNone then sent
    else
      let queued := commandQueue sent.comp env
      ⟨queued.1, sent.indexed, queued.2⟩

/-! ### The handlers -/

/-- `Rockchip_OMX_BufferFlushProcess`: the ports that `rockchip_BufferFlush` is called for. -/
def bufferFlushProcess (nPortIndex : ℤ) : List ℤ :=
  if nPortIndex = allPortIndex then [0, 1] else [nPortIndex]

/-- `Rockchip_OMX_PortEnableProcess`: the ports that are enabled. -/
def portEnableProcess (nPortIndex : ℤ) : List ℤ :=
  if nPortIndex = allPortIndex then [0, 1] else [nPortIndex]

/-- `Rockchip_OMX_PortDisableProcess`: the ports that are flushed, and then disabled. -/
def portDisableProcess (nPortIndex : ℤ) : List ℤ :=
  let ports := if nPortIndex = allPortIndex then [0, 1] else [nPortIndex]
  ports.flatMap bufferFlushProcess ++ ports

/-- `Rockchip_OMX_MessageHandlerThread`: the indices that the handler of a command uses. -/
def handlerIndices : PortCommand → List ℤ
  | .flush => bufferFlushProcess nParam.toInt
  | .portDisable => portDisableProcess nParam.toInt
  | .portEnable => portEnableProcess nParam.toInt
  | .markBuffer => [(nParam.toNat : ℤ)]

/-! ### Validation -/

/-- An index of a port. -/
def InRange (i : ℤ) : Prop := 0 ≤ i ∧ i < nPorts

/-- What a failing command must leave. -/
def CommandPort.settings (port : CommandPort) : OmxState × Bool × Bool :=
  (port.portState, port.bIsPortFlushed, port.bIsPortDisabled)

/-- The call, and the handler of an accepted command, use only the indices of ports; and a call that
returns an error leaves the ports and the flags. -/
structure Validated (cmd : PortCommand) (env : QueueEnv) : Prop where
  indexed : ∀ i ∈ (rockchipSendCommand comp nParam cmd env).indexed, InRange i
  handled : (rockchipSendCommand comp nParam cmd env).ret = .errorNone →
    ∀ i ∈ handlerIndices nParam cmd, InRange i
  flags : (rockchipSendCommand comp nParam cmd env).ret ≠ .errorNone →
    (rockchipSendCommand comp nParam cmd env).comp.nRkFlags = comp.nRkFlags
  ports : (rockchipSendCommand comp nParam cmd env).ret ≠ .errorNone → ∀ i, InRange i →
    ((rockchipSendCommand comp nParam cmd env).comp.ports i).settings = (comp.ports i).settings

/-- The queue takes a command. -/
def Queues (env : QueueEnv) : Prop :=
  env.memory = true ∧ comp.messages < ringElements ∧ env.posted = .errorNone

/-- No port refuses and the queue takes the command, or the ports before the first one that refuses
are already as the command would set them. -/
def Undisturbed (env : QueueEnv) (refuses : CommandPort → Bool) (already : CommandPort → Prop)
    (indices : List ℤ) : Prop :=
  (∀ i ∈ indices, refuses (comp.ports i) = false) ∧ Queues comp env ∨
    ∀ i ∈ changed refuses indices comp.ports, already (comp.ports i)

/-- The condition on a command.  A number that is negative as a signed one, and not -1, is right
only for a mark, and for a flush that fails and finds everything set already; and what a failing
command would set is set already. -/
def PortCommandOk (cmd : PortCommand) (env : QueueEnv) : Prop :=
  comp.currentState = .invalid ∨
    match cmd with
    | .flush =>
        let flagged := comp.nRkFlags ||| needFlushOnSeek = comp.nRkFlags
        let already := fun port : CommandPort => port.bIsPortFlushed = true
        if comp.started = false ∨ nPorts ≤ nParam.toInt then flagged
        else if allPortIndex ≤ nParam.toInt then
          Queues comp env ∨ flagged ∧ ∀ i ∈ portIndices nParam, already (comp.ports i)
        else
          InRange (nParam.setWidth 16).toNat ∧ ¬Queues comp env ∧ flagged ∧
            already (comp.ports (nParam.setWidth 16).toNat)
    | .portEnable =>
        nPorts ≤ nParam.toInt ∨ allPortIndex ≤ nParam.toInt ∧
          Undisturbed comp env (fun port => port.bEnabled) (fun port => port.portState = .idle)
            (portIndices nParam)
    | .portDisable =>
        nPorts ≤ nParam.toInt ∨ allPortIndex ≤ nParam.toInt ∧
          Undisturbed comp env (fun port => nParam.toInt = allPortIndex && !port.bEnabled)
            (fun port => port.portState = .loaded ∧ port.bIsPortDisabled = true)
            (portIndices nParam)
    | .markBuffer => True

end Omx
end RockchipSoc
