import RockchipSoc.Foundation.Ledger
import RockchipSoc.Mpp.CoreQueue

/-!
# The decoder cores under the soft CCU

Processes push decoding tasks to the pending list of a queue.  One worker thread takes finished
tasks from the running list, resets cores on request, and gives one pending task to an idle core.
Interrupts, expiring timers, waiting processes and debug switches run between any two of its steps.
-/

namespace RockchipSoc
namespace Mpp
namespace SoftCcu

open CoreQueue LabelledRun Ledger

/-- How far the delayed work of a task is: its timer is not running or running, or the work has set
`HANDLE`, `TIMEOUT`, or counted its reset requests. -/
inductive TimeoutAt
  | unarmed
  | armed
  | handled
  | flagged
  | counted
deriving DecidableEq

/-- Where `rkvdec2_soft_ccu_worker` is. -/
inductive WorkerAt
  | idle
  | dequeue
  | reset
  | getTask
  | getCore (task : Nat)
  | enqueue (task mpp : Nat)
  | done
deriving DecidableEq

/-- A queue with its devices and tasks.  `settled` and the last six fields record what happened: of
the hardware, whether it has cleanly ended what it was given or has been reset since; of the tasks,
which were pushed, given to a core, finished, or dropped, and how often the queue got and put its
reference. -/
structure SoftState where
  cores : CoreState
  disableWork : Nat → Bool
  workList : List Nat
  worker : WorkerAt
  pendingList : List Nat
  runningList : List Nat
  mpp : Nat → Option Nat
  sessionMpp : Nat → Nat
  abort : Nat → Bool
  handle : Nat → Bool
  timeout : Nat → Bool
  done : Nat → Bool
  timeoutWork : Nat → TimeoutAt
  irqStatus : Nat → BitVec 32
  resetRequest : Nat → Nat
  queueResetRequest : Nat
  powerEnabled : Bool
  ccuPower : Int
  corePower : Nat → Int
  settled : Nat → Bool
  pushed : List Nat
  started : List Nat
  finished : List Nat
  dropped : List Nat
  gets : Nat → Nat
  puts : Nat → Nat

/-- A process pushes a new task or gives up waiting for one, a core raises its interrupt, the
delayed work of a task goes on, `disable_work` is written, the worker goes on. -/
inductive SoftLabel
  | processTask (task mpp : Nat)
  | abort (task : Nat)
  | irq (mpp : Nat) (status : BitVec 32)
  | timeoutWork (task : Nat)
  | disableWork (mpp : Nat) (value : Bool)
  | worker

/-- `kthread_queue_work`: a work that is in the list stays where it is. -/
def queueWork (s : SoftState) (mpp : Nat) : SoftState :=
  { s with workList := if mpp ∈ s.workList then s.workList else s.workList ++ [mpp] }

/-- `mpp_process_task_default`. -/
def mppProcessTaskDefault (s : SoftState) (task mpp : Nat) : SoftState :=
  queueWork { s with
    pendingList := s.pendingList ++ [task]
    sessionMpp := Function.update s.sessionMpp task mpp
    pushed := s.pushed ++ [task]
    gets := bump s.gets task } mpp

/-- The wait of `mpp_wait_result_default` has timed out. -/
def abortTask (s : SoftState) (task : Nat) : SoftState :=
  { s with abort := Function.update s.abort task true }

def rkvdecIrqRaw : BitVec 32 := 0x2

def rkvdecIntErrorMask : BitVec 32 := 0xf0

def raises (status : BitVec 32) : Bool := status &&& rkvdecIrqRaw != 0

def reportsError (status : BitVec 32) : Bool := status &&& rkvdecIntErrorMask != 0

def requestReset (s : SoftState) (mpp : Nat) : SoftState :=
  { s with
    resetRequest := Function.update s.resetRequest mpp (s.resetRequest mpp + 1)
    queueResetRequest := s.queueResetRequest + 1 }

/-- `rkvdec2_soft_ccu_irq`. -/
def rkvdec2SoftCcuIrq (s : SoftState) (mpp : Nat) (status : BitVec 32) : SoftState :=
  if raises status then
    let counted := if reportsError status then requestReset s mpp else s
    queueWork { counted with
      irqStatus := Function.update s.irqStatus mpp status
      settled := Function.update s.settled mpp (!reportsError status) } mpp
  else s

/-- `task->mpp`, or the device of the session. -/
def usedDevice (s : SoftState) (task : Nat) : Nat := (s.mpp task).getD (s.sessionMpp task)

def setTimeoutWork (s : SoftState) (task : Nat) (stage : TimeoutAt) : SoftState :=
  { s with timeoutWork := Function.update s.timeoutWork task stage }

/-- The next step of `rkvdec2_ccu_link_timeout_work`. -/
def rkvdec2CcuLinkTimeoutWork (s : SoftState) (task : Nat) : Option SoftState :=
  match s.timeoutWork task with
  | .unarmed => none
  | .armed =>
      if s.handle task then some (setTimeoutWork s task .unarmed)
      else some (setTimeoutWork
        { s with handle := Function.update s.handle task true } task .handled)
  | .handled => some (setTimeoutWork
      { s with timeout := Function.update s.timeout task true } task .flagged)
  | .flagged => some (setTimeoutWork (requestReset s (usedDevice s task)) task .counted)
  | .counted => some (setTimeoutWork (queueWork s (usedDevice s task)) task .unarmed)

/-- `rkvdec2_soft_ccu_dequeue` takes the task for finished. -/
def interrupted (s : SoftState) (task : Nat) : Bool :=
  s.irqStatus (usedDevice s task) != 0 || s.timeout task || s.abort task

/-- `cancel_delayed_work` stops the timer, but not a work that has begun. -/
def cancelDelayedWork (stage : TimeoutAt) : TimeoutAt :=
  if stage = .armed then .unarmed else stage

/-- The body of the loop of `rkvdec2_soft_ccu_dequeue` for the first running task. -/
def finishHead (s : SoftState) (task : Nat) (rest : List Nat) : SoftState :=
  { s with
    handle := Function.update s.handle task true
    timeoutWork := Function.update s.timeoutWork task (cancelDelayedWork (s.timeoutWork task))
    done := Function.update s.done task true
    cores := finishTask s.cores (usedDevice s task)
    runningList := rest
    finished := s.finished ++ [task]
    puts := bump s.puts task }

/-- `rkvdec2_core_working`. -/
def rkvdec2CoreWorking (s : SoftState) : Bool :=
  (List.range s.cores.coreCount).any fun i =>
    (s.cores.cores i).any fun core => !s.disableWork core && !s.cores.coreIdle i

/-- One round of the loop of `rkvdec2_soft_ccu_reset`. -/
def resetCore (s : SoftState) (i : Nat) : SoftState :=
  match s.cores.cores i with
  | none => s
  | some mpp =>
      if s.disableWork mpp || s.resetRequest mpp == 0 then s
      else { s with
        settled := Function.update s.settled mpp true
        resetRequest := Function.update s.resetRequest mpp 0 }

def rkvdec2SoftCcuReset (s : SoftState) : SoftState :=
  { (List.range s.cores.coreCount).foldl resetCore s with queueResetRequest := 0 }

/-- The core that `rkvdec2_get_idle_core` finds. -/
def chosenCore (s : SoftState) : Option Nat :=
  ((List.range s.cores.coreCount).foldlM (scanCore s.cores s.disableWork) none).join

/-- A pending task becomes a running one on the core that was found, and its timer starts. -/
def pendingToRunning (s : SoftState) (task mpp : Nat) : SoftState :=
  { s with
    cores := rkvdec2GetIdleCore s.cores s.disableWork
    mpp := Function.update s.mpp task (some mpp)
    pendingList := s.pendingList.erase task
    runningList := s.runningList ++ [task]
    timeoutWork := Function.update s.timeoutWork task .armed
    started := s.started ++ [task] }

/-- `change` is added to the power count of the core at an index. -/
def countCore (cores : CoreState) (change : Int) (power : Nat → Int) (i : Nat) : Nat → Int :=
  match cores.cores i with
  | none => power
  | some mpp => Function.update power mpp (power mpp + change)

/-- The loops of `rkvdec2_ccu_power_on` and `rkvdec2_ccu_power_off` over the cores. -/
def countCores (cores : CoreState) (change : Int) (corePower : Nat → Int) : Nat → Int :=
  (List.range cores.coreCount).foldl (countCore cores change) corePower

/-- `rkvdec2_ccu_power_on`. -/
def rkvdec2CcuPowerOn (s : SoftState) : SoftState :=
  if s.powerEnabled then s
  else { s with
    powerEnabled := true
    ccuPower := s.ccuPower + 1
    corePower := countCores s.cores 1 s.corePower }

/-- `rkvdec2_ccu_power_off`. -/
def rkvdec2CcuPowerOff (s : SoftState) : SoftState :=
  if s.powerEnabled then
    { s with
      powerEnabled := false
      ccuPower := s.ccuPower - 1
      corePower := countCores s.cores (-1) s.corePower }
  else s

/-- `rkvdec2_soft_ccu_enqueue` starts the hardware. -/
def rkvdec2SoftCcuEnqueue (s : SoftState) (mpp : Nat) : SoftState :=
  { s with
    irqStatus := Function.update s.irqStatus mpp 0
    settled := Function.update s.settled mpp false }

/-- The worker removes an aborted task from the pending list. -/
def dropHead (s : SoftState) (task : Nat) : SoftState :=
  { s with
    pendingList := s.pendingList.erase task
    dropped := s.dropped ++ [task] }

/-- The next step of `rkvdec2_soft_ccu_worker`, which begins when its thread takes a work. -/
def rkvdec2SoftCcuWorker (s : SoftState) : Option SoftState :=
  match s.worker with
  | .idle =>
      match s.workList with
      | [] => none
      | _ :: rest => some { s with workList := rest, worker := .dequeue }
  | .dequeue =>
      match s.runningList with
      | [] => some { s with worker := .reset }
      | task :: rest =>
          if interrupted s task then some (finishHead s task rest)
          else some { s with worker := .reset }
  | .reset =>
      if s.queueResetRequest = 0 then some { s with worker := .getTask }
      else if rkvdec2CoreWorking s then some { s with worker := .done }
      else some { rkvdec2SoftCcuReset s with worker := .getTask }
  | .getTask =>
      match s.pendingList with
      | [] => some { s with worker := .done }
      | task :: _ =>
          if s.abort task then some (dropHead s task)
          else some { s with worker := .getCore task }
  | .getCore task =>
      match chosenCore s with
      | none => some { s with worker := .done }
      | some mpp => some { pendingToRunning s task mpp with worker := .enqueue task mpp }
  | .enqueue _ mpp =>
      some { rkvdec2SoftCcuEnqueue (rkvdec2CcuPowerOn s) mpp with worker := .done }
  | .done =>
      if s.runningList = [] then some { rkvdec2CcuPowerOff s with worker := .idle }
      else some { s with worker := .idle }

/-- Every call of a process makes a task of its own. -/
def softStep (s : SoftState) : SoftLabel → Option SoftState
  | .processTask task mpp =>
      if task ∈ s.pushed then none else some (mppProcessTaskDefault s task mpp)
  | .abort task => some (abortTask s task)
  | .irq mpp status => some (rkvdec2SoftCcuIrq s mpp status)
  | .timeoutWork task => rkvdec2CcuLinkTimeoutWork s task
  | .disableWork mpp value =>
      some { s with disableWork := Function.update s.disableWork mpp value }
  | .worker => rkvdec2SoftCcuWorker s

/-- The cores of a queue after their probes, all idle. -/
structure ProbedCores where
  cores : CoreState
  inv : CoreInv cores
  free : ∀ mpp, cores.busy mpp = false

/-- Nothing has been pushed yet. -/
def ProbedCores.start (probed : ProbedCores) : SoftState where
  cores := probed.cores
  disableWork := fun _ => false
  workList := []
  worker := .idle
  pendingList := []
  runningList := []
  mpp := fun _ => none
  sessionMpp := fun _ => 0
  abort := fun _ => false
  handle := fun _ => false
  timeout := fun _ => false
  done := fun _ => false
  timeoutWork := fun _ => .unarmed
  irqStatus := fun _ => 0
  resetRequest := fun _ => 0
  queueResetRequest := 0
  powerEnabled := false
  ccuPower := 0
  corePower := fun _ => 0
  settled := fun _ => true
  pushed := []
  started := []
  finished := []
  dropped := []
  gets := fun _ => 0
  puts := fun _ => 0

/-! ## What a step does -/

/-- The steps other than those of the worker. -/
inductive Event (s : SoftState) : SoftLabel → SoftState → Prop
  | processTask {task mpp : Nat} (fresh : task ∉ s.pushed) :
      Event s (.processTask task mpp) (mppProcessTaskDefault s task mpp)
  | abort {task : Nat} : Event s (.abort task) (abortTask s task)
  | irq {mpp : Nat} {status : BitVec 32} :
      Event s (.irq mpp status) (rkvdec2SoftCcuIrq s mpp status)
  | late {task : Nat} (armed : s.timeoutWork task = .armed) (handled : s.handle task = true) :
      Event s (.timeoutWork task) (setTimeoutWork s task .unarmed)
  | handle {task : Nat} (armed : s.timeoutWork task = .armed) (first : s.handle task = false) :
      Event s (.timeoutWork task) (setTimeoutWork
        { s with handle := Function.update s.handle task true } task .handled)
  | flag {task : Nat} (handled : s.timeoutWork task = .handled) :
      Event s (.timeoutWork task) (setTimeoutWork
        { s with timeout := Function.update s.timeout task true } task .flagged)
  | count {task : Nat} (flagged : s.timeoutWork task = .flagged) :
      Event s (.timeoutWork task)
        (setTimeoutWork (requestReset s (usedDevice s task)) task .counted)
  | trigger {task : Nat} (counted : s.timeoutWork task = .counted) :
      Event s (.timeoutWork task)
        (setTimeoutWork (queueWork s (usedDevice s task)) task .unarmed)
  | disableWork {mpp : Nat} {value : Bool} : Event s (.disableWork mpp value)
      { s with disableWork := Function.update s.disableWork mpp value }

/-- The steps of the worker. -/
inductive Turn (s : SoftState) : SoftState → Prop
  | begin {mpp : Nat} {rest : List Nat} (idle : s.worker = .idle)
      (queued : s.workList = mpp :: rest) :
      Turn s { s with workList := rest, worker := .dequeue }
  | finish {task : Nat} {rest : List Nat} (working : s.worker = .dequeue)
      (running : s.runningList = task :: rest) (ended : interrupted s task = true) :
      Turn s (finishHead s task rest)
  | dequeued (working : s.worker = .dequeue)
      (unfinished : ∀ task ∈ s.runningList.head?, interrupted s task = false) :
      Turn s { s with worker := .reset }
  | noReset (resetting : s.worker = .reset) (unasked : s.queueResetRequest = 0) :
      Turn s { s with worker := .getTask }
  | postpone (resetting : s.worker = .reset) (busy : rkvdec2CoreWorking s = true) :
      Turn s { s with worker := .done }
  | reset (resetting : s.worker = .reset) (quiet : rkvdec2CoreWorking s = false) :
      Turn s { rkvdec2SoftCcuReset s with worker := .getTask }
  | noTask (looking : s.worker = .getTask) (empty : s.pendingList = []) :
      Turn s { s with worker := .done }
  | drop {task : Nat} {rest : List Nat} (looking : s.worker = .getTask)
      (pending : s.pendingList = task :: rest) (aborted : s.abort task = true) :
      Turn s (dropHead s task)
  | select {task : Nat} {rest : List Nat} (looking : s.worker = .getTask)
      (pending : s.pendingList = task :: rest) (wanted : s.abort task = false) :
      Turn s { s with worker := .getCore task }
  | noCore {task : Nat} (selected : s.worker = .getCore task) (crowded : chosenCore s = none) :
      Turn s { s with worker := .done }
  | place {task mpp : Nat} (selected : s.worker = .getCore task)
      (chosen : chosenCore s = some mpp) :
      Turn s { pendingToRunning s task mpp with worker := .enqueue task mpp }
  | enqueue {task mpp : Nat} (placed : s.worker = .enqueue task mpp) :
      Turn s { rkvdec2SoftCcuEnqueue (rkvdec2CcuPowerOn s) mpp with worker := .done }
  | powerOff (leaving : s.worker = .done) (empty : s.runningList = []) :
      Turn s { rkvdec2CcuPowerOff s with worker := .idle }
  | leave (leaving : s.worker = .done) (running : s.runningList ≠ []) :
      Turn s { s with worker := .idle }

variable {s s' : SoftState} {label : SoftLabel}

theorem turn_of_worker (taken : rkvdec2SoftCcuWorker s = some s') : Turn s s' := by
  unfold rkvdec2SoftCcuWorker at taken
  split at taken
  · next idle =>
      split at taken
      · cases taken
      · next queued => exact Option.some.inj taken ▸ .begin idle queued
  · next working =>
      split at taken
      · next empty =>
          exact Option.some.inj taken ▸ .dequeued working (by simp [empty])
      · next running =>
          split at taken
          · next ended => exact Option.some.inj taken ▸ .finish working running ended
          · next unfinished =>
              exact Option.some.inj taken ▸ .dequeued working
                (by simpa [running] using unfinished)
  · next resetting =>
      split at taken
      · next unasked => exact Option.some.inj taken ▸ .noReset resetting unasked
      · split at taken
        · next busy => exact Option.some.inj taken ▸ .postpone resetting busy
        · next quiet =>
            exact Option.some.inj taken ▸ .reset resetting (Bool.eq_false_iff.mpr quiet)
  · next looking =>
      split at taken
      · next empty => exact Option.some.inj taken ▸ .noTask looking empty
      · next pending =>
          split at taken
          · next aborted => exact Option.some.inj taken ▸ .drop looking pending aborted
          · next wanted =>
              exact Option.some.inj taken ▸ .select looking pending (Bool.eq_false_iff.mpr wanted)
  · next selected =>
      split at taken
      · next crowded => exact Option.some.inj taken ▸ .noCore selected crowded
      · next chosen => exact Option.some.inj taken ▸ .place selected chosen
  · next placed => exact Option.some.inj taken ▸ .enqueue placed
  · next leaving =>
      split at taken
      · next empty => exact Option.some.inj taken ▸ .powerOff leaving empty
      · next running => exact Option.some.inj taken ▸ .leave leaving running

theorem event_of_timeoutWork {task : Nat} (taken : rkvdec2CcuLinkTimeoutWork s task = some s') :
    Event s (.timeoutWork task) s' := by
  unfold rkvdec2CcuLinkTimeoutWork at taken
  split at taken
  · cases taken
  · next armed =>
      split at taken
      · next handled => exact Option.some.inj taken ▸ .late armed handled
      · next first =>
          exact Option.some.inj taken ▸ .handle armed (Bool.eq_false_iff.mpr first)
  · next handled => exact Option.some.inj taken ▸ .flag handled
  · next flagged => exact Option.some.inj taken ▸ .count flagged
  · next counted => exact Option.some.inj taken ▸ .trigger counted

/-- A step is an event around the worker or a turn of the worker. -/
theorem cases_of_softStep (taken : softStep s label = some s') :
    Event s label s' ∨ label = .worker ∧ Turn s s' := by
  cases label with
  | processTask task mpp =>
      simp only [softStep] at taken
      split at taken
      · cases taken
      · next fresh => exact Option.some.inj taken ▸ Or.inl (.processTask fresh)
  | abort task => exact Option.some.inj taken ▸ Or.inl .abort
  | irq mpp status => exact Option.some.inj taken ▸ Or.inl .irq
  | timeoutWork task => exact Or.inl (event_of_timeoutWork taken)
  | disableWork mpp value => exact Option.some.inj taken ▸ Or.inl .disableWork
  | worker => exact Or.inr ⟨rfl, turn_of_worker taken⟩

end SoftCcu
end Mpp
end RockchipSoc
