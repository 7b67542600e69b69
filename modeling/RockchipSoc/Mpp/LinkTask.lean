import RockchipSoc.Foundation.ActionPool
import RockchipSoc.Foundation.LabelledRun

/-!
# Tasks of the link mode

In link mode the worker receives finished tasks from the hardware and leaves the reference of the
queue to the waiter.  A waiter that gives up leaves it to the scan for aborted tasks, which looks at
the pending list only.  The calls are threads of atomic actions as in the default mode; thread 0 is
the worker.
-/

namespace RockchipSoc
namespace Mpp
namespace LinkTask

open LabelledRun ActionPool

/-- The bits of `task->state` that the link mode reads or hands to user space. -/
inductive TaskState
  | handle | timeout | abort | abortReady | procDone | done
  deriving DecidableEq, Repr

structure MppTask where
  session : Nat := 0
  ref : Nat := 0
  state : TaskState → Bool := fun _ => false
  /-- The delayed work is scheduled and its timer has not expired. -/
  timeoutWork : Bool := false

/-- What a thread does next with a task. -/
inductive Stage
  | getSession | linkSession | getQueue | linkQueue | put | freeTask
  | wait | popDone | abort | popPending
  | timeoutProc
  | unlinkRunning | procDone | wakeUp
  | scan | abortCheck | taskQueue | toRunning
  deriving DecidableEq, Repr

inductive Action
  | task (stage : Stage) (t : Nat)
  | getPendingTask (session : Nat)
  | tryDequeue
  | recvTask
  | scanPending
  | again
  deriving DecidableEq, Repr

structure LinkState where
  tasks : Nat → MppTask
  nextTask : Nat
  /-- `pending_list` and `task_count` of the sessions. -/
  sessionPending : Nat → List Nat
  taskCount : Nat → Int
  pendingList : List Nat
  runningList : List Nat
  /-- The tasks in the slots that are sent and not read back, in their order. -/
  hw : List Nat
  /-- How often `rkvdec2_link_free_task` ran for a task; no function reads it. -/
  freed : Nat → Nat
  threads : List (List Action)

def linkInit : LinkState where
  tasks := fun _ => {}
  nextTask := 0
  sessionPending := fun _ => []
  taskCount := fun _ => 0
  pendingList := []
  runningList := []
  hw := []
  freed := fun _ => 0
  threads := [[]]

/-- What the environment decides: whether a wait runs into its timeout, how many tasks the hardware
has finished, and whether the worker stops for a reset or for want of slots. -/
structure Choice where
  timedOut : Bool := false
  received : Nat := 0
  stops : Bool := false

/-! ## Updates -/

def setTask (s : LinkState) (t : Nat) (task : MppTask) : LinkState :=
  { s with tasks := fun k => if k = t then task else s.tasks k }

def setBit (s : LinkState) (t : Nat) (bit : TaskState) : LinkState :=
  setTask s t { s.tasks t with state := fun b => if b = bit then true else (s.tasks t).state b }

def krefGet (s : LinkState) (t : Nat) : LinkState :=
  setTask s t { s.tasks t with ref := (s.tasks t).ref + 1 }

def setTimeoutWork (s : LinkState) (t : Nat) (scheduled : Bool) : LinkState :=
  setTask s t { s.tasks t with timeoutWork := scheduled }

def setSessionPending (s : LinkState) (session : Nat) (list : List Nat) : LinkState :=
  { s with sessionPending := fun k => if k = session then list else s.sessionPending k }

/-- `list_del_init(&task->queue_link)`. -/
def unlinkQueue (s : LinkState) (t : Nat) : LinkState :=
  { s with pendingList := s.pendingList.erase t, runningList := s.runningList.erase t }

/-- The tasks linked in the pending list of the session of `t`. -/
def listOf (s : LinkState) (t : Nat) : List Nat := s.sessionPending (s.tasks t).session

/-- `kref_put`: the last reference frees the task.  A put without a reference frees nothing. -/
def put (s : LinkState) (t : Nat) : LinkState × List Action :=
  (setTask s t { s.tasks t with ref := (s.tasks t).ref - 1 },
    if (s.tasks t).ref = 1 then [.task .freeTask t] else [])

/-- `rkvdec2_link_free_task`. -/
def linkFreeTask (s : LinkState) (t : Nat) : LinkState :=
  { unlinkQueue s t with
    freed := fun k => s.freed k + if k = t then 1 else 0
    taskCount := fun k => s.taskCount k - if k = (s.tasks t).session then 1 else 0 }

/-! ## The calls -/

def sessionGetPendingTask (s : LinkState) (session : Nat) : List Action :=
  match s.sessionPending session with
  | [] => []
  | t :: _ => [.task .wait t]

/-- `wait_event_timeout` of `rkvdec2_link_wait_result`. -/
def linkWait (s : LinkState) (t : Nat) (timedOut : Bool) : Option (List Action) :=
  if (s.tasks t).state .procDone then some [.task .popDone t]
  else if timedOut then some [.task .abort t] else none

/-- `rkvdec_link_isr_recv_task` for one task, up to `list_del_init`.  `cancel_delayed_work_sync`
waits for a handler that already runs. -/
def isrRecvTask (s : LinkState) : Option (LinkState × List Action) :=
  match s.hw with
  | [] => some (s, [])
  | t :: rest =>
      if .task .timeoutProc t ∈ pending s.threads then none
      else some (setBit (setTimeoutWork { s with hw := rest } t false) t .handle,
        [.task .unlinkRunning t])

/-- Behind the cursors: `PROC_DONE` is set for the waiter. -/
def recvDone (s : LinkState) (t : Nat) : LinkState :=
  setBit (if (s.tasks t).state .abort then setBit s t .abortReady else s) t .procDone

/-- One task in `mpp_taskqueue_scan_pending_abort_task`. -/
def scanAbort (s : LinkState) (t : Nat) : LinkState × List Action :=
  if (s.tasks t).state .abort then (unlinkQueue s t, [.task .put t]) else (s, [])

/-- The loop of `rkvdec2_link_worker` looks at the first pending task. -/
def workerAgain (s : LinkState) (stops : Bool) : List Action :=
  if stops then []
  else
    match s.pendingList with
    | [] => []
    | t :: _ => [.task .abortCheck t]

/-- The worker drops an aborted task and gives its waiter a sign, or admits the task. -/
def workerCheck (s : LinkState) (t : Nat) (stops : Bool) : LinkState × List Action :=
  if (s.tasks t).state .abort then
    (setBit (setBit (krefGet (unlinkQueue s t) t) t .abortReady) t .procDone,
      [.task .wakeUp t, .task .put t, .again])
  else (s, if stops then [] else [.task .taskQueue t])

def timeoutProc (s : LinkState) (t : Nat) : LinkState :=
  if (s.tasks t).state .handle then s else setBit (setBit s t .handle) t .timeout

def executeStage (s : LinkState) (choice : Choice) (t : Nat) :
    Stage → Option (LinkState × List Action)
  | .getSession => some (krefGet s t, [.task .linkSession t])
  | .linkSession =>
      some (setSessionPending s (s.tasks t).session (listOf s t ++ [t]), [.task .getQueue t])
  | .getQueue => some (krefGet s t, [.task .linkQueue t])
  | .linkQueue => some ({ s with pendingList := s.pendingList ++ [t] }, [.task .put t])
  | .put => some (put s t)
  | .freeTask => some (linkFreeTask s t, [])
  | .wait => (linkWait s t choice.timedOut).map fun pushed => (s, pushed)
  | .popDone => some (setBit s t .done, [.task .put t, .task .popPending t])
  | .abort => some (setBit s t .abort, [.task .popPending t])
  | .popPending =>
      some (setSessionPending s (s.tasks t).session ((listOf s t).erase t), [.task .put t])
  | .timeoutProc => some (timeoutProc s t, [])
  | .unlinkRunning => some (unlinkQueue s t, [.task .procDone t])
  | .procDone => some (recvDone s t, [.task .wakeUp t])
  | .wakeUp => some (s, [])
  | .scan => some (scanAbort s t)
  | .abortCheck => some (workerCheck s t choice.stops)
  | .taskQueue =>
      some (setTimeoutWork { s with hw := s.hw ++ [t] } t true, [.task .toRunning t])
  | .toRunning => some ({ unlinkQueue s t with
      runningList := (unlinkQueue s t).runningList ++ [t] }, [.again])

def execute (s : LinkState) (choice : Choice) : Action → Option (LinkState × List Action)
  | .task stage t => executeStage s choice t stage
  | .getPendingTask session => some (s, sessionGetPendingTask s session)
  | .tryDequeue => some (s, List.replicate choice.received .recvTask)
  | .recvTask => isrRecvTask s
  | .scanPending => some (s, s.pendingList.map (.task .scan))
  | .again => some (s, workerAgain s choice.stops)

inductive LinkLabel
  | processTask (session : Nat)
  | waitResult (session : Nat)
  | timeout (t : Nat)
  | work
  | call (n : Nat) (choice : Choice)

def spawn (s : LinkState) (thread : List Action) : LinkState :=
  { s with threads := s.threads ++ [thread] }

/-- `rkvdec2_alloc_task`, `kref_init` and `atomic_inc(&session->task_count)`. -/
def allocTask (s : LinkState) (session : Nat) : LinkState :=
  { setTask s s.nextTask { session := session, ref := 1 } with
    nextTask := s.nextTask + 1
    taskCount := fun k => s.taskCount k + if k = session then 1 else 0 }

def resume (s : LinkState) (threads : List (List Action)) (n : Nat) (pushed rest : List Action) :
    LinkState :=
  { s with threads := threads.set n (pushed ++ rest) }

def linkStep (s : LinkState) : LinkLabel → Option LinkState
  | .processTask session => some (spawn (allocTask s session) [.task .getSession s.nextTask])
  | .waitResult session => some (spawn s [.getPendingTask session])
  | .timeout t =>
      if (s.tasks t).timeoutWork then
        some (spawn (setTimeoutWork s t false) [.task .timeoutProc t])
      else none
  | .work =>
      match s.threads[0]? with
      | some [] => some { s with threads := s.threads.set 0 [.tryDequeue, .scanPending, .again] }
      | _ => none
  | .call n choice =>
      match s.threads[n]? with
      | some (action :: rest) => (execute s choice action).map fun outcome =>
          resume outcome.1 s.threads n outcome.2 rest
      | _ => none

/-- The action that a label executes. -/
def executing (s : LinkState) : LinkLabel → Option Action
  | .call n _ => (s.threads[n]?).bind List.head?
  | _ => none

/-! ## Outcomes -/

/-- What one action does, with what is known where it happens. -/
inductive Effect (s : LinkState) : Action → LinkState → List Action → Prop
  | sessionGot {t} : Effect s (.task .getSession t) (krefGet s t) [.task .linkSession t]
  | sessionLinked {t} : Effect s (.task .linkSession t)
      (setSessionPending s (s.tasks t).session (listOf s t ++ [t])) [.task .getQueue t]
  | queueGot {t} : Effect s (.task .getQueue t) (krefGet s t) [.task .linkQueue t]
  | queueLinked {t} : Effect s (.task .linkQueue t)
      { s with pendingList := s.pendingList ++ [t] } [.task .put t]
  | putLast {t} (last : (s.tasks t).ref = 1) : Effect s (.task .put t)
      (setTask s t { s.tasks t with ref := (s.tasks t).ref - 1 }) [.task .freeTask t]
  | putOther {t} (other : (s.tasks t).ref ≠ 1) : Effect s (.task .put t)
      (setTask s t { s.tasks t with ref := (s.tasks t).ref - 1 }) []
  | freed {t} : Effect s (.task .freeTask t) (linkFreeTask s t) []
  | woken {t} (processed : (s.tasks t).state .procDone = true) :
      Effect s (.task .wait t) s [.task .popDone t]
  | waitTimedOut {t} : Effect s (.task .wait t) s [.task .abort t]
  | donePopped {t} : Effect s (.task .popDone t) (setBit s t .done)
      [.task .put t, .task .popPending t]
  | aborted {t} : Effect s (.task .abort t) (setBit s t .abort) [.task .popPending t]
  | pendingPopped {t} : Effect s (.task .popPending t)
      (setSessionPending s (s.tasks t).session ((listOf s t).erase t)) [.task .put t]
  | timedOut {t} : Effect s (.task .timeoutProc t) (timeoutProc s t) []
  | runningUnlinked {t} : Effect s (.task .unlinkRunning t) (unlinkQueue s t) [.task .procDone t]
  | processed {t} : Effect s (.task .procDone t) (recvDone s t) [.task .wakeUp t]
  | wokenUp {t} : Effect s (.task .wakeUp t) s []
  | scanDrops {t} (request : (s.tasks t).state .abort = true) :
      Effect s (.task .scan t) (unlinkQueue s t) [.task .put t]
  | scanLeaves {t} (request : (s.tasks t).state .abort = false) : Effect s (.task .scan t) s []
  | checkDrops {t} (request : (s.tasks t).state .abort = true) : Effect s (.task .abortCheck t)
      (setBit (setBit (krefGet (unlinkQueue s t) t) t .abortReady) t .procDone)
      [.task .wakeUp t, .task .put t, .again]
  | checkStops {t} : Effect s (.task .abortCheck t) s []
  | admitted {t} (request : (s.tasks t).state .abort = false) :
      Effect s (.task .abortCheck t) s [.task .taskQueue t]
  | queued {t} : Effect s (.task .taskQueue t)
      (setTimeoutWork { s with hw := s.hw ++ [t] } t true) [.task .toRunning t]
  | movedToRunning {t} : Effect s (.task .toRunning t)
      { unlinkQueue s t with runningList := (unlinkQueue s t).runningList ++ [t] } [.again]
  | nothingToWait {session} (empty : s.sessionPending session = []) :
      Effect s (.getPendingTask session) s []
  | waits {session t rest} (listed : s.sessionPending session = t :: rest) :
      Effect s (.getPendingTask session) s [.task .wait t]
  | dequeued {count} : Effect s .tryDequeue s (List.replicate count .recvTask)
  | nothingSent (empty : s.hw = []) : Effect s .recvTask s []
  | received {t rest} (sent : s.hw = t :: rest)
      (cancelled : .task .timeoutProc t ∉ pending s.threads) : Effect s .recvTask
      (setBit (setTimeoutWork { s with hw := rest } t false) t .handle) [.task .unlinkRunning t]
  | scanBegins : Effect s .scanPending s (s.pendingList.map (.task .scan))
  | passEnds : Effect s .again s []
  | taskFound {t rest} (listed : s.pendingList = t :: rest) :
      Effect s .again s [.task .abortCheck t]

variable {s s' : LinkState} {choice : Choice} {head : Action} {pushed : List Action}

theorem effect_put (t : Nat) : Effect s (.task .put t) (put s t).1 (put s t).2 := by
  simp only [put]
  split
  · next last => exact .putLast last
  · next other => exact .putOther other

theorem effect_scanAbort (t : Nat) :
    Effect s (.task .scan t) (scanAbort s t).1 (scanAbort s t).2 := by
  simp only [scanAbort]
  split
  · next request => exact .scanDrops request
  · next request => exact .scanLeaves (by simpa using request)

theorem effect_workerCheck (t : Nat) (stops : Bool) :
    Effect s (.task .abortCheck t) (workerCheck s t stops).1 (workerCheck s t stops).2 := by
  simp only [workerCheck]
  split
  · next request => exact .checkDrops request
  · next request =>
      split
      · exact .checkStops
      · exact .admitted (by simpa using request)

theorem effect_linkWait {t : Nat} {timedOut : Bool} (waited : linkWait s t timedOut = some pushed) :
    Effect s (.task .wait t) s pushed := by
  simp only [linkWait] at waited
  split at waited
  · next processed =>
      obtain rfl := Option.some.inj waited
      exact .woken processed
  · split at waited
    · obtain rfl := Option.some.inj waited
      exact .waitTimedOut
    · cases waited

theorem effect_isrRecvTask (received : isrRecvTask s = some (s', pushed)) :
    Effect s .recvTask s' pushed := by
  simp only [isrRecvTask] at received
  split at received
  · next empty =>
      obtain ⟨rfl, rfl⟩ := Prod.mk.inj (Option.some.inj received)
      exact .nothingSent empty
  · next sent =>
      split at received
      · cases received
      · next cancelled =>
          obtain ⟨rfl, rfl⟩ := Prod.mk.inj (Option.some.inj received)
          exact .received sent cancelled

theorem effect_workerAgain (stops : Bool) : Effect s .again s (workerAgain s stops) := by
  simp only [workerAgain]
  split
  · exact .passEnds
  · split
    · exact .passEnds
    · next listed => exact .taskFound listed

theorem effect_of_executeStage {t : Nat} {stage : Stage}
    (executed : executeStage s choice t stage = some (s', pushed)) :
    Effect s (.task stage t) s' pushed := by
  cases stage with
  | wait =>
      obtain ⟨actions, waited, outcome⟩ := Option.map_eq_some_iff.mp executed
      obtain ⟨rfl, rfl⟩ := Prod.mk.inj outcome
      exact effect_linkWait waited
  | put =>
      obtain ⟨rfl, rfl⟩ := Prod.mk.inj (Option.some.inj executed)
      exact effect_put t
  | scan =>
      obtain ⟨rfl, rfl⟩ := Prod.mk.inj (Option.some.inj executed)
      exact effect_scanAbort t
  | abortCheck =>
      obtain ⟨rfl, rfl⟩ := Prod.mk.inj (Option.some.inj executed)
      exact effect_workerCheck t choice.stops
  | _ =>
      obtain ⟨rfl, rfl⟩ := Prod.mk.inj (Option.some.inj executed)
      constructor

theorem effect_of_execute (executed : execute s choice head = some (s', pushed)) :
    Effect s head s' pushed := by
  cases head with
  | task stage t => exact effect_of_executeStage executed
  | getPendingTask session =>
      obtain ⟨rfl, rfl⟩ := Prod.mk.inj (Option.some.inj executed)
      simp only [sessionGetPendingTask]
      split
      · next empty => exact .nothingToWait empty
      · next listed => exact .waits listed
  | tryDequeue =>
      obtain ⟨rfl, rfl⟩ := Prod.mk.inj (Option.some.inj executed)
      exact .dequeued
  | recvTask => exact effect_isrRecvTask executed
  | scanPending =>
      obtain ⟨rfl, rfl⟩ := Prod.mk.inj (Option.some.inj executed)
      exact .scanBegins
  | again =>
      obtain ⟨rfl, rfl⟩ := Prod.mk.inj (Option.some.inj executed)
      exact effect_workerAgain choice.stops

end LinkTask
end Mpp
end RockchipSoc
