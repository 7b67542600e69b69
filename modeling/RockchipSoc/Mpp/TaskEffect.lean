import RockchipSoc.Mpp.Task

/-!
# What one action on tasks and sessions does

`Effect` lists the outcomes of every action with what is known where it occurs, `Steps` those of a
step of the system.  The invariants of the queue are case analyses of both.
-/

namespace RockchipSoc
namespace Mpp

open LabelledRun ActionPool

inductive Effect (cfg : MppConfig) (s : MppState) (choice : Choice) :
    Action → MppState → List Action → Prop
  | counted {t d} : Effect cfg s choice (.submit t d .count)
      (addTaskCount s (sessionOf s t) 1) [.submit t d .getSession]
  | sessionGot {t d} : Effect cfg s choice (.submit t d .getSession) (krefGet s t)
      [.submit t d .linkSession]
  | sessionLinked {t d} : Effect cfg s choice (.submit t d .linkSession)
      (setSessionPending s (sessionOf s t) (sessionPending s t ++ [t])) [.submit t d .getQueue]
  | queueGot {t d} : Effect cfg s choice (.submit t d .getQueue) (krefGet s t)
      [.submit t d .linkQueue]
  | queueLinked {t d} : Effect cfg s choice (.submit t d .linkQueue)
      (setQueuePending s (s.queue.pendingList ++ [t])) [.submit t d .trigger]
  | submitted {t d} : Effect cfg s choice (.submit t d .trigger)
      (mppTaskqueueTriggerWork (setBit s t .pending) d) [.put t]
  | putLast {t} (last : (s.tasks t).ref = 1) :
      Effect cfg s choice (.put t) (krefPut s t) [.uncount (sessionOf s t)]
  | putOther {t} (other : (s.tasks t).ref ≠ 1) : Effect cfg s choice (.put t) (krefPut s t) []
  | uncounted {session} : Effect cfg s choice (.uncount session) (addTaskCount s session (-1)) []
  | nothingToWait {session} (empty : (s.sessions session).pendingList = []) :
      Effect cfg s choice (.getPendingTask session) s []
  | waits {session t rest} (listed : (s.sessions session).pendingList = t :: rest) :
      Effect cfg s choice (.getPendingTask session) s [.wait t]
  | woken {t} (done : (s.tasks t).state .done = true) :
      Effect cfg s choice (.wait t) s [.popSession t]
  | waitTimedOut {t} : Effect cfg s choice (.wait t) s [.giveUp t]
  | gaveUp {t} : Effect cfg s choice (.giveUp t)
      (setBit (incAbortRequest s [t]) t .abort) [.popSession t]
  | sessionPopped {t} : Effect cfg s choice (.popSession t) (mppSessionPopPending s t) [.put t]
  | resetClears {session} (none : (s.sessions session).taskCount = 0) :
      Effect cfg s choice (.pollTaskCount session) s [.clear session]
  | resetLeaves {session} : Effect cfg s choice (.pollTaskCount session) s []
  | cleared {session} : Effect cfg s choice (.clear session) (mppSessionClear s session).1
      ((s.sessions session).pendingList.map .put)
  | irqRead {d} : Effect cfg s choice (.irqRead d) s [.irqClaim d (s.curTask d)]
  | irqIgnored {d task} : Effect cfg s choice (.irqClaim d task) s []
  | irqSpurious {d} (wakes : choice.irqRet = .wakeThread) :
      Effect cfg s choice (.irqClaim d none) s [.isrRead d]
  | irqClaimed {d t} (free : (s.tasks t).state .handle = false) :
      Effect cfg s choice (.irqClaim d (some t)) (setBit s t .handle)
        [.irqCancel d t (choice.irqRet == .wakeThread)]
  | irqCancelled {d t wake} : Effect cfg s choice (.irqCancel d t wake)
      (setBit (setTimeoutWork s t false) t .irq) (if wake then [.isrRead d] else [])
  | isrIdle {d} (idle : s.curTask d = none) : Effect cfg s choice (.isrRead d) s [.trigger d]
  | isrTask {d t} (current : s.curTask d = some t) :
      Effect cfg s choice (.isrRead d) s [.isrClear d t]
  | isrCleared {d t} : Effect cfg s choice (.isrClear d t) (setCurTask s d none) [.finish d t]
  | finished {d t} : Effect cfg s choice (.finish d t) (mppTaskFinish cfg s d t).1
      (mppTaskFinish cfg s d t).2
  | coreIdle {d} : Effect cfg s choice (.setCoreIdle d) (setCoreIdle s d true) []
  | triggered {d} : Effect cfg s choice (.trigger d) (mppTaskqueueTriggerWork s d) []
  | timeoutLost {t} : Effect cfg s choice (.timeoutClaim t) s []
  | timeoutClaimed {t} (free : (s.tasks t).state .handle = false) :
      Effect cfg s choice (.timeoutClaim t) (setBit s t .handle) [.timeoutDone t]
  | timeoutDone {t} : Effect cfg s choice (.timeoutDone t)
      (setBit (setBit s t .timeout) t .done) [.popRunning t .timeoutWork]
  | nothingPending (empty : s.queue.pendingList = []) : Effect cfg s choice .fetch s []
  | fetched {t rest} (listed : s.queue.pendingList = t :: rest) :
      Effect cfg s choice .fetch s [.abortCheck t]
  | aborted {t} (request : 0 < (s.tasks t).abortRequest) :
      Effect cfg s choice (.abortCheck t) s [.popPending t]
  | notAborted {t} : Effect cfg s choice (.abortCheck t) s [.admission t]
  | pendingPopped {t} : Effect cfg s choice (.popPending t) (unlinkQueue s t) [.put t]
  | allBusy {t} (prepare : cfg.prepare = true) : Effect cfg s choice (.admission t) s []
  | busy {t} (prepare : cfg.prepare = false) (runs : s.queue.runningList ≠ []) :
      Effect cfg s choice (.admission t) s []
  | admittedCore {t core} (prepare : cfg.prepare = true) (idle : s.queue.coreIdle core = true) :
      Effect cfg s choice (.admission t) (setTaskMpp (setCoreIdle s core false) t core)
        [.toRun t core]
  | admitted {t d} (prepare : cfg.prepare = false) (idle : s.queue.runningList = []) :
      Effect cfg s choice (.admission t) s [.toRun t d]
  | movedToRun {t d} : Effect cfg s choice (.toRun t d) (pendingToRun s t) [.setGrf t d]
  | grfFailed {t d} : Effect cfg s choice (.setGrf t d) (setBit s t .running)
      [.popRunning t .worker]
  | grfSet {t d} : Effect cfg s choice (.setGrf t d) (setBit s t .running) [.schedule t d]
  | scheduled {t d} : Effect cfg s choice (.schedule t d)
      (setTimeoutWork (setBit s t .start) t true) [.run t d]
  | started {t d} : Effect cfg s choice (.run t d) (setCurTask s d (some t)) []
  | runningPopped {t caller} :
      Effect cfg s choice (.popRunning t caller) (unlinkQueue s t) [.put t]
  | detachDone (none : s.queue.detachCount = 0) : Effect cfg s choice .detach s []
  | detachSpins (some : s.queue.detachCount ≠ 0) (empty : s.queue.sessionDetach = []) :
      Effect cfg s choice .detach s [.detach]
  | detachTakes {session rest} (some : s.queue.detachCount ≠ 0)
      (listed : s.queue.sessionDetach = session :: rest) :
      Effect cfg s choice .detach
        { s with queue := { s.queue with
            sessionDetach := rest, detachCount := s.queue.detachCount - 1 } }
        [.deinit session, .detach]
  | sessionDetached {session} : Effect cfg s choice (.detachSession session)
      (mppSessionDetachWorkqueue s session).1 (mppSessionDetachWorkqueue s session).2
  | deinitRefused {session} (tasks : (s.sessions session).taskCount ≠ 0) :
      Effect cfg s choice (.deinit session) s []
  | deinitBegins {session} (noTasks : (s.sessions session).taskCount = 0) :
      Effect cfg s choice (.deinit session) s
        ((if (s.sessions session).mpp = none then [] else [.clear session]) ++
          [.freeSession session])
  | sessionFreed {session} : Effect cfg s choice (.freeSession session) (kfreeSession s session) []

variable {cfg : MppConfig} {s s' : MppState} {choice : Choice} {head : Action}
  {pushed : List Action} {t d : Nat}

theorem effect_mppProcessTaskDefault (stage : SubmitStage) :
    Effect cfg s choice (.submit t d stage) (mppProcessTaskDefault s t d stage).1
      (mppProcessTaskDefault s t d stage).2 := by
  cases stage with
  | count => exact .counted
  | getSession => exact .sessionGot
  | linkSession => exact .sessionLinked
  | getQueue => exact .queueGot
  | linkQueue => exact .queueLinked
  | trigger => exact .submitted

theorem effect_mppDevIrq (task : Option Nat) :
    Effect cfg s choice (.irqClaim d task) (mppDevIrq s d task choice.irqRet).1
      (mppDevIrq s d task choice.irqRet).2 := by
  cases task with
  | none =>
      simp only [mppDevIrq]
      split
      · next wakes => exact .irqSpurious wakes
      · exact .irqIgnored
  | some t =>
      simp only [mppDevIrq]
      split
      · exact .irqIgnored
      · split
        · exact .irqIgnored
        · next free => exact .irqClaimed (by simpa using free)

theorem effect_mppTaskTimeoutWork :
    Effect cfg s choice (.timeoutClaim t) (mppTaskTimeoutWork s t).1
      (mppTaskTimeoutWork s t).2 := by
  simp only [mppTaskTimeoutWork]
  split
  · exact .timeoutLost
  · next free => exact .timeoutClaimed (by simpa using free)

theorem effect_admitTask (admits : admitTask cfg s t = some (s', pushed)) :
    Effect cfg s choice (.admission t) s' pushed := by
  obtain ⟨mpp, _, outcome⟩ := Option.map_eq_some_iff.mp admits
  split at outcome
  · next prepare =>
      split at outcome
      · obtain ⟨rfl, rfl⟩ := Prod.mk.inj outcome
        exact .allBusy prepare
      · next core found =>
          obtain ⟨rfl, rfl⟩ := Prod.mk.inj outcome
          exact .admittedCore prepare (List.find?_some found)
  · next direct =>
      have direct : cfg.prepare = false := by simpa using direct
      split at outcome
      · next idle =>
          obtain ⟨rfl, rfl⟩ := Prod.mk.inj outcome
          exact .admitted direct idle
      · next runs =>
          obtain ⟨rfl, rfl⟩ := Prod.mk.inj outcome
          exact .busy direct runs

theorem effect_detachRound :
    Effect cfg s choice .detach (detachRound s).1 (detachRound s).2 := by
  simp only [detachRound]
  split
  · next none => exact .detachDone none
  · next some =>
      split
      · next empty => exact .detachSpins some empty
      · next listed => exact .detachTakes some listed

theorem effect_mppSessionDeinit {session : Nat} :
    Effect cfg s choice (.deinit session) (mppSessionDeinit s session).1
      (mppSessionDeinit s session).2 := by
  rw [mppSessionDeinit]
  split
  · next tasks => exact .deinitRefused tasks
  · next noTasks => exact .deinitBegins (by simpa using noTasks)

theorem effect_of_execute (executed : execute cfg s choice head = some (s', pushed)) :
    Effect cfg s choice head s' pushed := by
  cases head with
  | wait t =>
      obtain ⟨actions, waited, outcome⟩ := Option.map_eq_some_iff.mp executed
      obtain ⟨rfl, rfl⟩ := Prod.mk.inj outcome
      simp only [waitResult] at waited
      split at waited
      · next done =>
          obtain rfl := Option.some.inj waited
          exact .woken done
      · split at waited
        · obtain rfl := Option.some.inj waited
          exact .waitTimedOut
        · cases waited
  | submit t d stage =>
      obtain ⟨rfl, rfl⟩ := Prod.mk.inj (Option.some.inj executed)
      exact effect_mppProcessTaskDefault stage
  | put t =>
      obtain ⟨rfl, rfl⟩ := Prod.mk.inj (Option.some.inj executed)
      split
      · next last => exact .putLast last
      · next other => exact .putOther other
  | uncount session =>
      obtain ⟨rfl, rfl⟩ := Prod.mk.inj (Option.some.inj executed)
      exact .uncounted
  | getPendingTask session =>
      obtain ⟨rfl, rfl⟩ := Prod.mk.inj (Option.some.inj executed)
      simp only [mppSessionGetPendingTask]
      split
      · next empty => exact .nothingToWait empty
      · next listed => exact .waits listed
  | giveUp t =>
      obtain ⟨rfl, rfl⟩ := Prod.mk.inj (Option.some.inj executed)
      exact .gaveUp
  | popSession t =>
      obtain ⟨rfl, rfl⟩ := Prod.mk.inj (Option.some.inj executed)
      exact .sessionPopped
  | pollTaskCount session =>
      obtain ⟨rfl, rfl⟩ := Prod.mk.inj (Option.some.inj executed)
      split
      · next none =>
          split
          · exact .resetLeaves
          · exact .resetClears none
      · exact .resetLeaves
  | clear session =>
      obtain ⟨rfl, rfl⟩ := Prod.mk.inj (Option.some.inj executed)
      exact .cleared
  | irqRead d =>
      obtain ⟨rfl, rfl⟩ := Prod.mk.inj (Option.some.inj executed)
      exact .irqRead
  | irqClaim d task =>
      obtain ⟨rfl, rfl⟩ := Prod.mk.inj (Option.some.inj executed)
      exact effect_mppDevIrq task
  | irqCancel d t wake =>
      obtain ⟨rfl, rfl⟩ := Prod.mk.inj (Option.some.inj executed)
      exact .irqCancelled
  | isrRead d =>
      obtain ⟨rfl, rfl⟩ := Prod.mk.inj (Option.some.inj executed)
      split
      · next idle => exact .isrIdle idle
      · next current => exact .isrTask current
  | isrClear d t =>
      obtain ⟨rfl, rfl⟩ := Prod.mk.inj (Option.some.inj executed)
      exact .isrCleared
  | finish d t =>
      obtain ⟨rfl, rfl⟩ := Prod.mk.inj (Option.some.inj executed)
      exact .finished
  | setCoreIdle d =>
      obtain ⟨rfl, rfl⟩ := Prod.mk.inj (Option.some.inj executed)
      exact .coreIdle
  | trigger d =>
      obtain ⟨rfl, rfl⟩ := Prod.mk.inj (Option.some.inj executed)
      exact .triggered
  | timeoutClaim t =>
      obtain ⟨rfl, rfl⟩ := Prod.mk.inj (Option.some.inj executed)
      exact effect_mppTaskTimeoutWork
  | timeoutDone t =>
      obtain ⟨rfl, rfl⟩ := Prod.mk.inj (Option.some.inj executed)
      exact .timeoutDone
  | fetch =>
      obtain ⟨rfl, rfl⟩ := Prod.mk.inj (Option.some.inj executed)
      simp only [mppTaskqueueGetPendingTask]
      split
      · next empty => exact .nothingPending empty
      · next listed => exact .fetched listed
  | abortCheck t =>
      obtain ⟨rfl, rfl⟩ := Prod.mk.inj (Option.some.inj executed)
      split
      · next request => exact .aborted request
      · exact .notAborted
  | popPending t =>
      obtain ⟨rfl, rfl⟩ := Prod.mk.inj (Option.some.inj executed)
      exact .pendingPopped
  | admission t => exact effect_admitTask executed
  | toRun t d =>
      obtain ⟨rfl, rfl⟩ := Prod.mk.inj (Option.some.inj executed)
      exact .movedToRun
  | setGrf t d =>
      obtain ⟨rfl, rfl⟩ := Prod.mk.inj (Option.some.inj executed)
      split
      · exact .grfFailed
      · exact .grfSet
  | schedule t d =>
      obtain ⟨rfl, rfl⟩ := Prod.mk.inj (Option.some.inj executed)
      exact .scheduled
  | run t d =>
      obtain ⟨rfl, rfl⟩ := Prod.mk.inj (Option.some.inj executed)
      exact .started
  | popRunning t caller =>
      obtain ⟨rfl, rfl⟩ := Prod.mk.inj (Option.some.inj executed)
      exact .runningPopped
  | detach =>
      obtain ⟨rfl, rfl⟩ := Prod.mk.inj (Option.some.inj executed)
      exact effect_detachRound
  | detachSession session =>
      obtain ⟨rfl, rfl⟩ := Prod.mk.inj (Option.some.inj executed)
      exact .sessionDetached
  | deinit session =>
      obtain ⟨rfl, rfl⟩ := Prod.mk.inj (Option.some.inj executed)
      exact effect_mppSessionDeinit
  | freeSession session =>
      obtain ⟨rfl, rfl⟩ := Prod.mk.inj (Option.some.inj executed)
      exact .sessionFreed

/-- What one step of the system does. -/
inductive Steps (cfg : MppConfig) (s : MppState) : MppLabel → MppState → Prop
  | opened : Steps cfg s .devOpen { s with nextSession := s.nextSession + 1 }
  | initialised {session d : Nat} : Steps cfg s (.initClient session d)
      { setSessionMpp s session d with queue := { s.queue with
          sessionAttach := s.queue.sessionAttach ++ [session] } }
  | submits {session core} {d moved : Nat} : Steps cfg s (.processTask session core)
      (spawn (allocTask (setSessionMpp s session moved) session) [.submit s.nextTask d .count])
  | polls {session : Nat} :
      Steps cfg s (.waitResult session) (spawn s [.getPendingTask session])
  | resets {session : Nat} :
      Steps cfg s (.resetSession session) (spawn s [.pollTaskCount session])
  | releases {session : Nat} (unreleased : (s.sessions session).releaseRequest = 0) :
      Steps cfg s (.release session) (spawn { s with sessions := fun k => { s.sessions k with
          releaseRequest := (s.sessions k).releaseRequest + if k = session then 1 else 0 } }
        [if (s.sessions session).mpp = none then .deinit session else .detachSession session])
  | interrupts {d : Nat} : Steps cfg s (.irq d) (spawn s [.irqRead d])
  | expires {t : Nat} (scheduled : (s.tasks t).timeoutWork = true) :
      Steps cfg s (.timeout t) (spawn (setTimeoutWork s t false) [.timeoutClaim t])
  | works {d : Nat} {rest : List Nat} (queued : s.queue.workList = d :: rest)
      (idle : s.threads[0]? = some []) : Steps cfg s .work
      { s with queue := { s.queue with workList := rest }
               threads := s.threads.set 0 [.fetch, .detach] }
  | call {t : Nat} {choice : Choice} {head : Action}
      {rest pushed : List Action} {middle : MppState}
      (current : s.threads[t]? = some (head :: rest))
      (effect : Effect cfg s choice head middle pushed) :
      Steps cfg s (.call t choice) (resume middle s.threads t pushed rest)

theorem steps_of_mppStep {label : MppLabel} (taken : mppStep cfg s label = some s') :
    Steps cfg s label s' := by
  cases label with
  | devOpen =>
      obtain rfl := Option.some.inj taken
      exact .opened
  | initClient session d =>
      simp only [mppStep] at taken
      split at taken
      · obtain rfl := Option.some.inj taken
        exact .initialised
      · cases taken
  | processTask session core =>
      simp only [mppStep] at taken
      split at taken
      · split at taken
        · cases taken
        · obtain rfl := Option.some.inj taken
          exact .submits
      · cases taken
  | waitResult session =>
      simp only [mppStep] at taken
      split at taken
      · obtain rfl := Option.some.inj taken
        exact .polls
      · cases taken
  | resetSession session =>
      simp only [mppStep] at taken
      split at taken
      · obtain rfl := Option.some.inj taken
        exact .resets
      · cases taken
  | release session =>
      simp only [mppStep] at taken
      split at taken
      · next opened =>
          obtain rfl := Option.some.inj taken
          simp only [isOpen, Bool.and_eq_true, beq_iff_eq] at opened
          exact .releases opened.2
      · cases taken
  | irq d =>
      obtain rfl := Option.some.inj taken
      exact .interrupts
  | timeout t =>
      simp only [mppStep] at taken
      split at taken
      · next scheduled =>
          obtain rfl := Option.some.inj taken
          exact .expires scheduled
      · cases taken
  | work =>
      simp only [mppStep] at taken
      split at taken
      · next queued idle =>
          obtain rfl := Option.some.inj taken
          exact .works queued idle
      · cases taken
  | call t choice =>
      simp only [mppStep] at taken
      split at taken
      · next current =>
          obtain ⟨outcome, executed, rfl⟩ := Option.map_eq_some_iff.mp taken
          exact .call current (effect_of_execute executed)
      · cases taken

end Mpp
end RockchipSoc
