import RockchipSoc.Foundation.ActionPool
import RockchipSoc.Foundation.LabelledRun

/-!
# Tasks, sessions and the task queue of the media process platform

One `mpp_taskqueue` with its devices, the sessions opened on them and their tasks.  Every call is
a thread of atomic actions: an atomic operation, a section under one lock, or a store to
`cur_task`.  An action pushes the actions that follow it, so the functions of the source appear as
the chains that they push.  Thread 0 is the kthread worker of the queue.
-/

namespace RockchipSoc
namespace Mpp

open LabelledRun ActionPool

/-- `enum mpp_task_state`. -/
inductive TaskState
  | pending | running | start | handle | irq | finish | timeout | done
  | prepare | abort | abortReady | procDone
  deriving DecidableEq, Repr

structure MppTask where
  session : Nat := 0
  mpp : Option Nat := none
  ref : Nat := 0
  state : TaskState → Bool := fun _ => false
  abortRequest : Nat := 0
  /-- The delayed work is scheduled and its timer has not expired. -/
  timeoutWork : Bool := false

structure MppSession where
  mpp : Option Nat := none
  pendingList : List Nat := []
  taskCount : Int := 0
  releaseRequest : Nat := 0

structure MppTaskqueue where
  pendingList : List Nat := []
  runningList : List Nat := []
  sessionAttach : List Nat := []
  sessionDetach : List Nat := []
  detachCount : Nat := 0
  coreIdle : Nat → Bool := fun _ => true
  /-- The devices whose work waits for the kthread worker. -/
  workList : List Nat := []

/-- What the devices of a queue have in common: their number, and whether their `prepare` hook
hands out idle cores (`rkvenc2_prepare`).  The other hook, `rkvdec_prepare_with_reset`, admits a
task exactly when `mpp_taskqueue_is_running` does. -/
structure MppConfig where
  coreCount : Nat
  prepare : Bool

/-- The steps of `mpp_process_task_default`, in whose hands the first reference is. -/
inductive SubmitStage
  | count | getSession | linkSession | getQueue | linkQueue | trigger
  deriving DecidableEq, Repr

/-- Who calls `mpp_taskqueue_pop_running`. -/
inductive Popper
  | worker | isr | timeoutWork
  deriving DecidableEq, Repr

inductive Action
  | submit (t d : Nat) (stage : SubmitStage)
  | put (t : Nat)
  | uncount (session : Nat)
  | getPendingTask (session : Nat)
  | wait (t : Nat)
  | giveUp (t : Nat)
  | popSession (t : Nat)
  | pollTaskCount (session : Nat)
  | clear (session : Nat)
  | irqRead (d : Nat)
  | irqClaim (d : Nat) (task : Option Nat)
  | irqCancel (d t : Nat) (wake : Bool)
  | isrRead (d : Nat)
  | isrClear (d t : Nat)
  | finish (d t : Nat)
  | setCoreIdle (d : Nat)
  | trigger (d : Nat)
  | timeoutClaim (t : Nat)
  | timeoutDone (t : Nat)
  | fetch
  | abortCheck (t : Nat)
  | popPending (t : Nat)
  | admission (t : Nat)
  | toRun (t d : Nat)
  | setGrf (t d : Nat)
  | schedule (t d : Nat)
  | run (t d : Nat)
  | popRunning (t : Nat) (caller : Popper)
  | detach
  | detachSession (session : Nat)
  | deinit (session : Nat)
  | freeSession (session : Nat)
  deriving DecidableEq, Repr

structure MppState where
  tasks : Nat → MppTask
  sessions : Nat → MppSession
  queue : MppTaskqueue
  curTask : Nat → Option Nat
  nextTask : Nat
  nextSession : Nat
  /-- How often a task and a session were freed; no function reads it. -/
  freed : Nat → Nat
  sessionFreed : Nat → Nat
  threads : List (List Action)

def mppInit : MppState where
  tasks := fun _ => {}
  sessions := fun _ => {}
  queue := {}
  curTask := fun _ => none
  nextTask := 0
  nextSession := 0
  freed := fun _ => 0
  sessionFreed := fun _ => 0
  threads := [[]]

/-- What `dev_ops->irq` answers. -/
inductive IrqReturn
  | none | handled | wakeThread
  deriving DecidableEq, Repr

/-- What the environment decides during one action: the answer of the interrupt handler, whether
`set_grf` fails, and whether a wait runs into its timeout. -/
structure Choice where
  irqRet : IrqReturn := .wakeThread
  grfFails : Bool := false
  timedOut : Bool := false

/-! ## Updates of one field -/

def setBit (s : MppState) (t : Nat) (bit : TaskState) : MppState :=
  { s with tasks := fun k => { s.tasks k with
      state := fun b => (s.tasks k).state b || (k == t && b == bit) } }

def krefGet (s : MppState) (t : Nat) : MppState :=
  { s with tasks := fun k => { s.tasks k with ref := (s.tasks k).ref + if k = t then 1 else 0 } }

def setTimeoutWork (s : MppState) (t : Nat) (scheduled : Bool) : MppState :=
  { s with tasks := fun k => { s.tasks k with
      timeoutWork := if k = t then scheduled else (s.tasks k).timeoutWork } }

def incAbortRequest (s : MppState) (aborted : List Nat) : MppState :=
  { s with tasks := fun k => { s.tasks k with
      abortRequest := (s.tasks k).abortRequest + if k ∈ aborted then 1 else 0 } }

def setTaskMpp (s : MppState) (t d : Nat) : MppState :=
  { s with tasks := fun k => { s.tasks k with
      mpp := if k = t then some d else (s.tasks k).mpp } }

def addTaskCount (s : MppState) (session : Nat) (step : Int) : MppState :=
  { s with sessions := fun k => { s.sessions k with
      taskCount := (s.sessions k).taskCount + if k = session then step else 0 } }

def setSessionPending (s : MppState) (session : Nat) (list : List Nat) : MppState :=
  { s with sessions := fun k => { s.sessions k with
      pendingList := if k = session then list else (s.sessions k).pendingList } }

def setSessionMpp (s : MppState) (session d : Nat) : MppState :=
  { s with sessions := fun k => { s.sessions k with
      mpp := if k = session then some d else (s.sessions k).mpp } }

def setQueuePending (s : MppState) (list : List Nat) : MppState :=
  { s with queue := { s.queue with pendingList := list } }

def setCurTask (s : MppState) (d : Nat) (task : Option Nat) : MppState :=
  { s with curTask := fun k => if k = d then task else s.curTask k }

def setCoreIdle (s : MppState) (d : Nat) (idle : Bool) : MppState :=
  { s with queue := { s.queue with
      coreIdle := fun k => if k = d then idle else s.queue.coreIdle k } }

/-- `list_del_init(&task->queue_link)`, whichever list the link is in. -/
def unlinkQueue (s : MppState) (t : Nat) : MppState :=
  { s with queue := { s.queue with
      pendingList := s.queue.pendingList.erase t
      runningList := s.queue.runningList.erase t } }

/-- `list_move_tail` to `running_list`. -/
def pendingToRun (s : MppState) (t : Nat) : MppState :=
  { s with queue := { s.queue with
      pendingList := s.queue.pendingList.erase t
      runningList := s.queue.runningList.erase t ++ [t] } }

/-- `kthread_queue_work`: a work that is queued already stays where it is. -/
def mppTaskqueueTriggerWork (s : MppState) (d : Nat) : MppState :=
  { s with queue := { s.queue with
      workList := if d ∈ s.queue.workList then s.queue.workList else s.queue.workList ++ [d] } }

/-- The session that a task belongs to. -/
def sessionOf (s : MppState) (t : Nat) : Nat := (s.tasks t).session

/-- The tasks linked in the pending list of the session of `t`. -/
def sessionPending (s : MppState) (t : Nat) : List Nat := (s.sessions (sessionOf s t)).pendingList

/-! ## References -/

/-- `kref_put`: the last reference runs `mpp_free_task`, the count of the session follows.  A put
without a reference frees nothing. -/
def krefPut (s : MppState) (t : Nat) : MppState :=
  { s with
    tasks := fun k => { s.tasks k with ref := (s.tasks k).ref - if k = t then 1 else 0 }
    freed := fun k => s.freed k + if k = t ∧ (s.tasks t).ref = 1 then 1 else 0 }

def put (s : MppState) (t : Nat) : MppState × List Action :=
  (krefPut s t, if (s.tasks t).ref = 1 then [.uncount (sessionOf s t)] else [])

/-! ## Calls of user space -/

def mppProcessTaskDefault (s : MppState) (t d : Nat) : SubmitStage → MppState × List Action
  | .count => (addTaskCount s (sessionOf s t) 1, [.submit t d .getSession])
  | .getSession => (krefGet s t, [.submit t d .linkSession])
  | .linkSession => (setSessionPending s (sessionOf s t) (sessionPending s t ++ [t]),
      [.submit t d .getQueue])
  | .getQueue => (krefGet s t, [.submit t d .linkQueue])
  | .linkQueue => (setQueuePending s (s.queue.pendingList ++ [t]), [.submit t d .trigger])
  | .trigger => (mppTaskqueueTriggerWork (setBit s t .pending) d, [.put t])

/-- `mpp_session_get_pending_task` of `mpp_wait_result_default`. -/
def mppSessionGetPendingTask (s : MppState) (session : Nat) : List Action :=
  match (s.sessions session).pendingList with
  | [] => []
  | t :: _ => [.wait t]

/-- `wait_event_timeout`: no signal ends it. -/
def waitResult (s : MppState) (t : Nat) (timedOut : Bool) : Option (List Action) :=
  if (s.tasks t).state .done then some [.popSession t]
  else if timedOut then some [.giveUp t] else none

/-- The locked part of `mpp_session_pop_pending`. -/
def mppSessionPopPending (s : MppState) (t : Nat) : MppState :=
  setSessionPending s (sessionOf s t) ((sessionPending s t).erase t)

/-- `mpp_session_clear`: the references go while `pending_lock` is held. -/
def mppSessionClear (s : MppState) (session : Nat) : MppState × List Action :=
  let list := (s.sessions session).pendingList
  (setSessionPending (incAbortRequest s list) session [], list.map .put)

/-! ## Interrupts and timeouts -/

/-- `mpp_dev_irq` behind `dev_ops->irq`, up to the test of the `HANDLE` bit. -/
def mppDevIrq (s : MppState) (d : Nat) (task : Option Nat) (irqRet : IrqReturn) :
    MppState × List Action :=
  match task with
  | none => (s, if irqRet = .wakeThread then [.isrRead d] else [])
  | some t =>
      if irqRet = .none then (s, [])
      else if (s.tasks t).state .handle then (s, [])
      else (setBit s t .handle, [.irqCancel d t (irqRet == .wakeThread)])

/-- The part of `mpp_task_finish` that others can see, up to `mpp_taskqueue_pop_running`, and what
the interrupt thread does behind it. -/
def mppTaskFinish (cfg : MppConfig) (s : MppState) (d t : Nat) : MppState × List Action :=
  (setBit (setBit s t .finish) t .done,
    .popRunning t .isr :: (if cfg.prepare then [.setCoreIdle d] else []) ++ [.trigger d])

def mppTaskTimeoutWork (s : MppState) (t : Nat) : MppState × List Action :=
  if (s.tasks t).state .handle then (s, []) else (setBit s t .handle, [.timeoutDone t])

/-! ## The worker -/

def mppTaskqueueGetPendingTask (s : MppState) : List Action :=
  match s.queue.pendingList with
  | [] => []
  | t :: _ => [.abortCheck t]

/-- `find_first_bit(&queue->core_idle, queue->core_count)`. -/
def firstIdle (cfg : MppConfig) (s : MppState) : Option Nat :=
  (List.range cfg.coreCount).find? s.queue.coreIdle

/-- The worker asks the `prepare` hook, or whether the queue is running; it does not survive a
session without a device. -/
def admitTask (cfg : MppConfig) (s : MppState) (t : Nat) : Option (MppState × List Action) :=
  (s.sessions (sessionOf s t)).mpp.map fun mpp =>
    if cfg.prepare then
      match firstIdle cfg s with
      | none => (s, [])
      | some core => (setTaskMpp (setCoreIdle s core false) t core, [.toRun t core])
    else if s.queue.runningList = [] then (s, [.toRun t (((s.tasks t).mpp).getD mpp)])
    else (s, [])

/-- The start of `mpp_task_run`, up to the result of `set_grf`. -/
def mppTaskRun (s : MppState) (t d : Nat) (grfFails : Bool) : MppState × List Action :=
  (setBit s t .running, if grfFails then [.popRunning t .worker] else [.schedule t d])

/-- One round of the loop over `session_detach`. -/
def detachRound (s : MppState) : MppState × List Action :=
  if s.queue.detachCount = 0 then (s, [])
  else
    match s.queue.sessionDetach with
    | [] => (s, [.detach])
    | session :: rest =>
        ({ s with queue := { s.queue with
            sessionDetach := rest, detachCount := s.queue.detachCount - 1 } },
          [.deinit session, .detach])

/-! ## Sessions -/

/-- `mpp_session_deinit`: only without tasks. -/
def mppSessionDeinit (s : MppState) (session : Nat) : MppState × List Action :=
  if (s.sessions session).taskCount ≠ 0 then (s, [])
  else (s, (if (s.sessions session).mpp = none then [] else [.clear session]) ++
    [.freeSession session])

def mppSessionDetachWorkqueue (s : MppState) (session : Nat) : MppState × List Action :=
  ({ s with queue := { s.queue with
      sessionAttach := s.queue.sessionAttach.erase session
      sessionDetach := s.queue.sessionDetach.erase session ++ [session]
      detachCount := s.queue.detachCount + 1 } },
    ((s.sessions session).mpp.map Action.trigger).toList)

/-- The end of `mpp_session_deinit`: the link goes and the memory. -/
def kfreeSession (s : MppState) (session : Nat) : MppState :=
  { s with
    queue := { s.queue with
      sessionAttach := s.queue.sessionAttach.erase session
      sessionDetach := s.queue.sessionDetach.erase session }
    sessionFreed := fun k => s.sessionFreed k + if k = session then 1 else 0 }

/-! ## Execution -/

/-- One action of a thread: the state behind it and the actions it pushes. -/
def execute (cfg : MppConfig) (s : MppState) (choice : Choice) :
    Action → Option (MppState × List Action)
  | .submit t d stage => some (mppProcessTaskDefault s t d stage)
  | .put t => some (put s t)
  | .uncount session => some (addTaskCount s session (-1), [])
  | .getPendingTask session => some (s, mppSessionGetPendingTask s session)
  | .wait t => (waitResult s t choice.timedOut).map fun pushed => (s, pushed)
  | .giveUp t => some (setBit (incAbortRequest s [t]) t .abort, [.popSession t])
  | .popSession t => some (mppSessionPopPending s t, [.put t])
  | .pollTaskCount session => some (s,
      if (s.sessions session).taskCount = 0 then
        if (s.sessions session).mpp = none then [] else [.clear session]
      else [])
  | .clear session => some (mppSessionClear s session)
  | .irqRead d => some (s, [.irqClaim d (s.curTask d)])
  | .irqClaim d task => some (mppDevIrq s d task choice.irqRet)
  | .irqCancel d t wake =>
      some (setBit (setTimeoutWork s t false) t .irq, if wake then [.isrRead d] else [])
  | .isrRead d => some (s, match s.curTask d with
      | none => [.trigger d]
      | some t => [.isrClear d t])
  | .isrClear d t => some (setCurTask s d none, [.finish d t])
  | .finish d t => some (mppTaskFinish cfg s d t)
  | .setCoreIdle d => some (setCoreIdle s d true, [])
  | .trigger d => some (mppTaskqueueTriggerWork s d, [])
  | .timeoutClaim t => some (mppTaskTimeoutWork s t)
  | .timeoutDone t => some (setBit (setBit s t .timeout) t .done, [.popRunning t .timeoutWork])
  | .fetch => some (s, mppTaskqueueGetPendingTask s)
  | .abortCheck t =>
      some (s, if 0 < (s.tasks t).abortRequest then [.popPending t] else [.admission t])
  | .popPending t => some (unlinkQueue s t, [.put t])
  | .admission t => admitTask cfg s t
  | .toRun t d => some (pendingToRun s t, [.setGrf t d])
  | .setGrf t d => some (mppTaskRun s t d choice.grfFails)
  | .schedule t d => some (setTimeoutWork (setBit s t .start) t true, [.run t d])
  | .run t d => some (setCurTask s d (some t), [])
  | .popRunning t _ => some (unlinkQueue s t, [.put t])
  | .detach => some (detachRound s)
  | .detachSession session => some (mppSessionDetachWorkqueue s session)
  | .deinit session => some (mppSessionDeinit s session)
  | .freeSession session => some (kfreeSession s session, [])

inductive MppLabel
  | devOpen
  | initClient (session d : Nat)
  /-- `SET_REG`; `alloc_task` may move the session to another core. -/
  | processTask (session : Nat) (core : Option Nat)
  | waitResult (session : Nat)
  | resetSession (session : Nat)
  | release (session : Nat)
  | irq (d : Nat)
  | timeout (t : Nat)
  | work
  | call (t : Nat) (choice : Choice)

/-- A new thread. -/
def spawn (s : MppState) (thread : List Action) : MppState :=
  { s with threads := s.threads ++ [thread] }

/-- `alloc_task` and `kref_init`. -/
def allocTask (s : MppState) (session : Nat) : MppState :=
  { s with
    tasks := fun k => if k = s.nextTask then { session := session, ref := 1 } else s.tasks k
    nextTask := s.nextTask + 1 }

/-- Thread `t` has executed its first action: it goes on with the pushed ones. -/
def resume (s : MppState) (threads : List (List Action)) (t : Nat) (pushed rest : List Action) :
    MppState :=
  { s with threads := threads.set t (pushed ++ rest) }

/-- The file of a session is open. -/
def isOpen (s : MppState) (session : Nat) : Bool :=
  decide (session < s.nextSession) && (s.sessions session).releaseRequest == 0

def mppStep (cfg : MppConfig) (s : MppState) : MppLabel → Option MppState
  | .devOpen => some { s with nextSession := s.nextSession + 1 }
  | .initClient session d =>
      if isOpen s session && (s.sessions session).mpp.isNone && decide (d < cfg.coreCount) then
        some { setSessionMpp s session d with queue := { s.queue with
          sessionAttach := s.queue.sessionAttach ++ [session] } }
      else none
  | .processTask session core =>
      if isOpen s session then
        match (s.sessions session).mpp with
        | none => none
        | some d =>
            let moved := (core.filter (· < cfg.coreCount)).getD d
            some (spawn (allocTask (setSessionMpp s session moved) session)
              [.submit s.nextTask d .count])
      else none
  | .waitResult session =>
      if isOpen s session then some (spawn s [.getPendingTask session]) else none
  | .resetSession session =>
      if isOpen s session then some (spawn s [.pollTaskCount session]) else none
  | .release session =>
      if isOpen s session then
        some (spawn { s with sessions := fun k => { s.sessions k with
            releaseRequest := (s.sessions k).releaseRequest + if k = session then 1 else 0 } }
          [if (s.sessions session).mpp = none then .deinit session else .detachSession session])
      else none
  | .irq d => some (spawn s [.irqRead d])
  | .timeout t =>
      if (s.tasks t).timeoutWork then some (spawn (setTimeoutWork s t false) [.timeoutClaim t])
      else none
  | .work =>
      match s.queue.workList, s.threads[0]? with
      | _ :: rest, some [] =>
          some { s with queue := { s.queue with workList := rest }
                        threads := s.threads.set 0 [.fetch, .detach] }
      | _, _ => none
  | .call t choice =>
      match s.threads[t]? with
      | some (action :: rest) => (execute cfg s choice action).map fun outcome =>
          resume outcome.1 s.threads t outcome.2 rest
      | _ => none

/-- The action that a label executes. -/
def executing (s : MppState) : MppLabel → Option Action
  | .call t _ => (s.threads[t]?).bind List.head?
  | _ => none

/-- What the environment decides during a step. -/
def MppLabel.choice : MppLabel → Choice
  | .call _ choice => choice
  | _ => {}

/-! ## Calls step by step -/

/-- Thread `t` executes `n` actions that all go well. -/
def proceed (t n : Nat) : List MppLabel := List.replicate n (.call t {})

/-- One device, one session on it and its first task, which thread 1 submits. -/
def firstTask : List MppLabel :=
  [.devOpen, .initClient 0 0, .processTask 0 none] ++ proceed 1 7

/-- A pass of the worker that starts a task. -/
def startTask : List MppLabel := .work :: proceed 0 8

end Mpp
end RockchipSoc
