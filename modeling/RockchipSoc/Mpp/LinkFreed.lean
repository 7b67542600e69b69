import RockchipSoc.Mpp.LinkLedger
import RockchipSoc.Mpp.LinkWorker

/-!
# Freeing the tasks of the link mode

Each step of the link mode moves the ledger of every task, so the ledgers stay sound as long as no
waiter gives up on a task that the worker has already taken.
-/

namespace RockchipSoc
namespace Mpp
namespace LinkTask

open LabelledRun ActionPool

/-- Whether a task is allotted, as a number. -/
def allotted (nextTask k : Nat) : Nat := if k < nextTask then 1 else 0

/-- The ledger of a task in a state. -/
def ledger (s : LinkState) (k : Nat) : Ledger where
  born := allotted s.nextTask k
  ref := (s.tasks k).ref
  freed := s.freed k
  inSession := (listOf s k).count k
  inPending := s.pendingList.count k
  inRunning := s.runningList.count k
  inHw := s.hw.count k
  procDone := ((s.tasks k).state .procDone).toNat
  done := ((s.tasks k).state .done).toNat
  abort := ((s.tasks k).state .abort).toNat
  timeoutWork := (s.tasks k).timeoutWork.toNat
  due := fun stage => (pending s.threads).count (.task stage k)

/-! ## The condition -/

/-- Some thread waits for the task. -/
def Awaited (s : LinkState) (t : Nat) : Prop :=
  ∃ stage ∈ [Stage.wait, .popDone, .abort, .popPending], .task stage t ∈ pending s.threads

/-- The task is in the pending list or on its way there, and the worker does not send it. -/
def Unsent (s : LinkState) (t : Nat) : Prop :=
  (t ∈ s.pendingList ∨ ∃ stage ∈ [Stage.getQueue, .linkQueue], .task stage t ∈ pending s.threads) ∧
    ∀ stage ∈ [Stage.taskQueue, .toRunning], .task stage t ∉ pending s.threads

/-- A session has one waiter at a time for its first task, a waiter gives up on a task that is
still pending, the worker does not run into the request, and the last reference is put when the
waiter has been woken. -/
def Timely (s : LinkState) : Action → Prop
  | .getPendingTask session => ∀ t ∈ (s.sessionPending session).head?, ¬Awaited s t
  | .task .abort t => Unsent s t
  | .task .abortCheck t => (s.tasks t).state .abort = false
  | .task .put t => (s.tasks t).ref = 1 → .task .wakeUp t ∉ pending s.threads
  | _ => True

def InTime (s : LinkState) (label : LinkLabel) : Prop :=
  ∀ action ∈ (executing s label).toList, Timely s action

variable {s s' middle : LinkState} {choice : Choice} {head : Action} {rest pushed : List Action}
  {n t k : Nat}

/-- The list, the bits and the references of a task after an execution are those of the outcome;
what is due falls by the executed action and grows by the pushed ones. -/
theorem ledger_resume (current : s.threads[n]? = some (head :: rest)) :
    ledger (resume middle s.threads n pushed rest) k = { ledger middle k with
      due := fun stage => (ledger s k).due stage - [head].count (.task stage k) +
        pushed.count (.task stage k) } := by
  refine Ledger.mk.injEq .. ▸ ⟨rfl, rfl, rfl, rfl, rfl, rfl, rfl, rfl, rfl, rfl, rfl, ?_⟩
  funext stage
  have counted := @countP_pending_set _ _ _ _ _ pushed (· == .task stage k) current
  have head_le : [head].count (.task stage k) ≤ (pending s.threads).count (.task stage k) :=
    List.Sublist.count_le _ (List.singleton_sublist.mpr (head_mem_pending current))
  change (pending (s.threads.set n (pushed ++ rest))).count _ =
    (pending s.threads).count _ - _ + pushed.count _
  simp only [List.count] at head_le ⊢
  omega

/-! ## Updates of other tasks -/

/-- A session list in which only the place of `t` changes. -/
theorem count_listOf_other (s : LinkState) (list : List Nat)
    (same : list.count k = (listOf s t).count k) :
    (listOf (setSessionPending s (s.tasks t).session list) k).count k =
      (listOf s k).count k := by
  simp only [listOf, setSessionPending]
  split
  · next session => rw [same, listOf, session]
  · rfl

/-- A stage of one task leaves the ledgers of the others alone. -/
theorem ledger_other {stage : Stage} (current : s.threads[n]? = some (.task stage t :: rest))
    (other : t ≠ k) (effect : Effect s (.task stage t) middle pushed) :
    ledger (resume middle s.threads n pushed rest) k = ledger s k := by
  rw [ledger_resume current]
  cases effect with
  | sessionLinked =>
      have counted := count_listOf_other s (k := k) (t := t) (listOf s t ++ [t]) (by
        simp [List.count_append, other])
      simp [ledger, counted, other]
      simp [setSessionPending]
  | pendingPopped =>
      have counted := count_listOf_other s (k := k) (t := t) ((listOf s t).erase t)
        (List.count_erase_of_ne other.symm)
      simp [ledger, counted, other]
      simp [setSessionPending]
  | timedOut =>
      rw [timeoutProc]
      split <;> simp [ledger, setTask, setBit, listOf, other.symm, other]
  | processed =>
      rw [recvDone]
      split <;> simp [ledger, setTask, setBit, listOf, other.symm, other]
  | _ =>
      simp [ledger, krefGet, setTask, setBit, listOf, unlinkQueue, linkFreeTask,
        setTimeoutWork, other.symm, other]

/-! ## Simulation -/

/-- The ledger of the task for which a stage is executed. -/
theorem ledger_same {stage : Stage} (next : List Stage)
    (current : s.threads[n]? = some (.task stage t :: rest))
    (pushes : ∀ other, pushed.count (.task other t) = next.count other) :
    ledger (resume middle s.threads n pushed rest) t = { ledger middle t with
      due := ((ledger s t).turn stage next).due } := by
  rw [ledger_resume current]
  have executed : ∀ other, [Action.task stage t].count (.task other t) = [stage].count other :=
    fun other => by simp [List.count_cons]
  simp only [Ledger.turn, executed, pushes]

theorem due_of_current {stage : Stage} (current : s.threads[n]? = some (.task stage t :: rest)) :
    0 < (ledger s t).due stage := List.count_pos_iff.mpr (head_mem_pending current)

theorem timely_of_inTime (current : s.threads[n]? = some (head :: rest))
    (inTime : InTime s (.call n choice)) : Timely s head :=
  inTime head (by simp [executing, current])

theorem Moves.to {l a b : Ledger} (moves : Moves l a) (same : b = a) : Moves l b := same ▸ moves

theorem sends_eq_zero (unsent : ∀ stage ∈ [Stage.taskQueue, .toRunning],
    .task stage t ∉ pending s.threads) : (ledger s t).sends = 0 := by
  have queue := List.count_eq_zero.mpr (unsent .taskQueue (by simp))
  have running := List.count_eq_zero.mpr (unsent .toRunning (by simp))
  simp [Ledger.sends, ledger, queue, running]

theorem waiting_of_unsent (unsent : Unsent s t) :
    0 < (ledger s t).inPending + (ledger s t).toQueue := by
  rcases unsent.1 with listed | ⟨stage, link, member⟩
  · have := List.count_pos_iff.mpr listed
    simp only [ledger]
    omega
  · have due : 0 < (ledger s t).due stage := List.count_pos_iff.mpr member
    simp only [Ledger.toQueue]
    rcases List.mem_pair.mp link with rfl | rfl <;> omega

/-- The stages of a submission and of its waiter. -/
theorem moves_of_effect {stage : Stage} (current : s.threads[n]? = some (.task stage t :: rest))
    (inTime : InTime s (.call n choice)) (effect : Effect s (.task stage t) middle pushed) :
    Moves (ledger s t) (ledger (resume middle s.threads n pushed rest) t) := by
  have due := due_of_current current
  have timely := timely_of_inTime current inTime
  cases effect with
  | sessionGot =>
      refine (Moves.sessionGot due).to ?_
      rw [ledger_same [.linkSession] current (by simp [List.count_cons])]
      simp [ledger, Ledger.turn, krefGet, setTask, listOf]
  | sessionLinked =>
      refine (Moves.sessionLinked due).to ?_
      rw [ledger_same [.getQueue] current (by simp [List.count_cons])]
      simp [ledger, Ledger.turn, setSessionPending, listOf, List.count_append]
  | queueGot =>
      refine (Moves.queueGot due).to ?_
      rw [ledger_same [.linkQueue] current (by simp [List.count_cons])]
      simp [ledger, Ledger.turn, krefGet, setTask, listOf]
  | queueLinked =>
      refine (Moves.queueLinked due).to ?_
      rw [ledger_same [.put] current (by simp [List.count_cons])]
      simp [ledger, Ledger.turn, listOf, List.count_append]
  | putLast last =>
      have asleep := List.count_eq_zero.mpr (timely last)
      refine (Moves.putLast due last asleep).to ?_
      rw [ledger_same [.freeTask] current (by simp [List.count_cons])]
      simp [ledger, Ledger.turn, setTask, listOf, last]
  | putOther other =>
      refine (Moves.putOther due other).to ?_
      rw [ledger_same [] current (by simp)]
      simp [ledger, Ledger.turn, setTask, listOf]
  | freed =>
      refine (Moves.freed due).to ?_
      rw [ledger_same [] current (by simp)]
      simp [ledger, Ledger.turn, linkFreeTask, unlinkQueue, listOf]
  | woken processed =>
      refine (Moves.woken due (by simp [ledger, processed])).to ?_
      rw [ledger_same [.popDone] current (by simp [List.count_cons])]
      rfl
  | waitTimedOut =>
      refine (Moves.waitTimedOut due).to ?_
      rw [ledger_same [.abort] current (by simp [List.count_cons])]
      rfl
  | donePopped =>
      refine (Moves.donePopped due).to ?_
      rw [ledger_same [.put, .popPending] current (by simp [List.count_cons])]
      simp [ledger, Ledger.turn, setBit, setTask, listOf]
  | aborted =>
      refine (Moves.aborted due (waiting_of_unsent timely) (sends_eq_zero timely.2)).to ?_
      rw [ledger_same [.popPending] current (by simp [List.count_cons])]
      simp [ledger, Ledger.turn, setBit, setTask, listOf]
  | pendingPopped =>
      refine (Moves.pendingPopped due).to ?_
      rw [ledger_same [.put] current (by simp [List.count_cons])]
      simp [ledger, Ledger.turn, setSessionPending, listOf]
  | timedOut =>
      refine (Moves.timedOut due).to ?_
      rw [ledger_same [] current (by simp), timeoutProc]
      split <;> simp [ledger, Ledger.turn, setBit, setTask, listOf]
  | runningUnlinked =>
      refine (Moves.runningUnlinked due).to ?_
      rw [ledger_same [.procDone] current (by simp [List.count_cons])]
      simp [ledger, Ledger.turn, unlinkQueue, listOf]
  | processed =>
      refine (Moves.processed due).to ?_
      rw [ledger_same [.wakeUp] current (by simp [List.count_cons]), recvDone]
      split <;> simp [ledger, Ledger.turn, setBit, setTask, listOf]
  | wokenUp =>
      refine (Moves.wokenUp due).to ?_
      rw [ledger_same [] current (by simp)]
      rfl
  | scanDrops request =>
      refine (Moves.scanDrops due (by simp [ledger, request])).to ?_
      rw [ledger_same [.put] current (by simp [List.count_cons])]
      simp [ledger, Ledger.turn, unlinkQueue, listOf]
  | scanLeaves =>
      refine (Moves.scanLeaves due).to ?_
      rw [ledger_same [] current (by simp)]
      rfl
  | checkDrops request =>
      have admitted : (s.tasks t).state .abort = false := timely
      rw [request] at admitted
      cases admitted
  | checkStops =>
      refine (Moves.checkStops due).to ?_
      rw [ledger_same [] current (by simp)]
      rfl
  | admitted request =>
      refine (Moves.admitted due (by simp [ledger, request])).to ?_
      rw [ledger_same [.taskQueue] current (by simp [List.count_cons])]
      rfl
  | queued =>
      refine (Moves.queued due).to ?_
      rw [ledger_same [.toRunning] current (by simp [List.count_cons])]
      simp [ledger, Ledger.turn, setTimeoutWork, setTask, listOf, List.count_append]
  | movedToRunning =>
      refine (Moves.movedToRunning due).to ?_
      rw [ledger_same [] current (by simp)]
      simp [ledger, Ledger.turn, unlinkQueue, listOf, List.count_append]

/-- An action of the worker or of a waiter that is not yet about a task. -/
theorem ledger_system (current : s.threads[n]? = some (head :: rest))
    (system : ∀ stage t, head ≠ .task stage t) :
    ledger (resume middle s.threads n pushed rest) k = { ledger middle k with
      due := fun stage => (ledger s k).due stage + pushed.count (.task stage k) } := by
  rw [ledger_resume current]
  have none : ∀ stage, [head].count (.task stage k) = 0 := fun stage =>
    List.count_eq_zero.mpr fun member => system stage k (List.mem_singleton.mp member).symm
  simp only [none, Nat.sub_zero]

theorem ledger_quiet (current : s.threads[n]? = some (head :: rest))
    (system : ∀ stage t, head ≠ .task stage t)
    (quiet : ∀ stage, pushed.count (.task stage k) = 0) :
    ledger (resume s s.threads n pushed rest) k = ledger s k := by
  rw [ledger_system current system]
  simp only [quiet, Nat.add_zero]

theorem ledger_found {stage : Stage} (current : s.threads[n]? = some (head :: rest))
    (system : ∀ stage t, head ≠ .task stage t) :
    ledger (resume middle s.threads n [.task stage t] rest) t = { ledger middle t with
      due := ((ledger s t).owe stage 1).due } := by
  rw [ledger_system current system]
  simp [Ledger.owe, List.count_cons]

theorem inspects_eq_zero (idle : ∀ action ∈ pending s.threads, inspecting action = false)
    (k : Nat) : (ledger s k).inspects = 0 := by
  have none : ∀ stage, inspecting (.task stage k) = true → (ledger s k).due stage = 0 :=
    fun stage inspects => List.count_eq_zero.mpr fun member => by
      rw [idle _ member] at inspects
      cases inspects
  simp only [Ledger.inspects, Ledger.sends, none .scan rfl, none .abortCheck rfl,
    none .taskQueue rfl, none .toRunning rfl]

theorem awaits_eq_zero (alone : ¬Awaited s t) : (ledger s t).awaits = 0 := by
  have none : ∀ stage ∈ [Stage.wait, .popDone, .abort, .popPending], (ledger s t).due stage = 0 :=
    fun stage waits => List.count_eq_zero.mpr fun member => alone ⟨stage, waits, member⟩
  simp [Ledger.awaits, none]

theorem count_map_scan (list : List Nat) (stage : Stage) (k : Nat) :
    (list.map (Action.task .scan)).count (.task stage k) =
      if .scan = stage then list.count k else 0 := by
  induction list with
  | nil => simp
  | cons first list ih =>
      rw [List.map_cons, List.count_cons, ih, List.count_cons]
      by_cases same : Stage.scan = stage <;> simp [same]

/-- The tasks of a list belong to its session. -/
def OwnTasks (s : LinkState) : Prop :=
  ∀ session, ∀ t ∈ s.sessionPending session, (s.tasks t).session = session

theorem moves_of_system (runs : WorkerRuns s.threads) (own : OwnTasks s)
    (current : s.threads[n]? = some (head :: rest)) (system : ∀ stage t, head ≠ .task stage t)
    (inTime : InTime s (.call n choice)) (effect : Effect s head middle pushed) (k : Nat) :
    Moves (ledger s k) (ledger (resume middle s.threads n pushed rest) k) := by
  have timely := timely_of_inTime current inTime
  cases effect with
  | nothingToWait => exact Moves.rests.to (ledger_quiet current system (by simp))
  | @waits session t _ listed =>
      by_cases same : t = k
      · subst same
        have alone : ∀ t ∈ (s.sessionPending session).head?, ¬Awaited s t := timely
        have member : t ∈ s.sessionPending session := by simp [listed]
        have inSession : 0 < (ledger s t).inSession := by
          simp only [ledger, listOf, own session t member]
          exact List.count_pos_iff.mpr member
        exact (Moves.waits inSession (awaits_eq_zero (alone t (by simp [listed])))).to
          (ledger_found current system)
      · exact Moves.rests.to (ledger_quiet current system (by simp [same]))
  | dequeued => exact Moves.rests.to (ledger_quiet current system (by simp [List.count_replicate]))
  | nothingSent => exact Moves.rests.to (ledger_quiet current system (by simp))
  | @received t _ sent cancelled =>
      by_cases same : t = k
      · subst same
        have idle := inspects_eq_zero (runs.not_inspecting current (.inl rfl)) t
        have inHw : 0 < (ledger s t).inHw := by simp [ledger, sent]
        refine (Moves.received inHw (List.count_eq_zero.mpr cancelled) idle).to ?_
        rw [ledger_found current system]
        simp [ledger, Ledger.owe, setBit, setTask, setTimeoutWork, listOf, sent]
      · refine Moves.rests.to ?_
        rw [ledger_system current system]
        simp [ledger, setBit, setTask, setTimeoutWork, listOf, sent, same, Ne.symm same]
  | scanBegins =>
      have idle := inspects_eq_zero (runs.not_inspecting current (.inr (.inl rfl))) k
      refine (Moves.scanBegins idle).to ?_
      rw [ledger_system current system]
      simp only [Ledger.owe, count_map_scan]
      rfl
  | passEnds => exact Moves.rests.to (ledger_quiet current system (by simp))
  | @taskFound t _ listed =>
      by_cases same : t = k
      · subst same
        have idle := inspects_eq_zero (runs.not_inspecting current (.inr (.inr rfl))) t
        have inPending : 0 < (ledger s t).inPending := by simp [ledger, listed]
        exact (Moves.found idle inPending).to (ledger_found current system)
      · exact Moves.rests.to (ledger_quiet current system (by simp [same]))
  | _ => exact absurd rfl (system _ _)

/-! ## Steps -/

/-- What one step of the system does. -/
inductive Steps (s : LinkState) : LinkLabel → LinkState → Prop
  | submits {session : Nat} : Steps s (.processTask session)
      (spawn (allocTask s session) [.task .getSession s.nextTask])
  | polls {session : Nat} : Steps s (.waitResult session) (spawn s [.getPendingTask session])
  | expires {t : Nat} (scheduled : (s.tasks t).timeoutWork = true) : Steps s (.timeout t)
      (spawn (setTimeoutWork s t false) [.task .timeoutProc t])
  | works (idle : s.threads[0]? = some []) : Steps s .work
      { s with threads := s.threads.set 0 [.tryDequeue, .scanPending, .again] }
  | call {n : Nat} {choice : Choice} {head : Action} {rest pushed : List Action}
      {middle : LinkState} (current : s.threads[n]? = some (head :: rest))
      (effect : Effect s head middle pushed) :
      Steps s (.call n choice) (resume middle s.threads n pushed rest)

theorem steps_of_linkStep {label : LinkLabel} (taken : linkStep s label = some s') :
    Steps s label s' := by
  cases label with
  | processTask session =>
      obtain rfl := Option.some.inj taken
      exact .submits
  | waitResult session =>
      obtain rfl := Option.some.inj taken
      exact .polls
  | timeout t =>
      simp only [linkStep] at taken
      split at taken
      · next scheduled =>
          obtain rfl := Option.some.inj taken
          exact .expires scheduled
      · cases taken
  | work =>
      simp only [linkStep] at taken
      split at taken
      · next idle =>
          obtain rfl := Option.some.inj taken
          exact .works idle
      · cases taken
  | call n choice =>
      simp only [linkStep] at taken
      split at taken
      · next current =>
          obtain ⟨outcome, executed, rfl⟩ := Option.map_eq_some_iff.mp taken
          exact .call current (effect_of_execute executed)
      · cases taken

/-- The number of the tasks of the session that are not freed. -/
def unfreed (s : LinkState) (session : Nat) : Nat :=
  (List.range s.nextTask).countP fun t => (s.tasks t).session == session && s.freed t == 0

structure LinkInv (s : LinkState) : Prop where
  sound : ∀ k, Sound (ledger s k)
  runs : WorkerRuns s.threads
  own : OwnTasks s
  counted : ∀ session, s.taskCount session = unfreed s session

theorem ledger_spawn (thread : List Action) (same : s'.threads = s.threads) :
    ledger (spawn s' thread) k = { ledger s' k with
      due := fun stage => (ledger s k).due stage + thread.count (.task stage k) } := by
  have counted := fun stage : Stage =>
    @countP_pending_spawn _ s.threads (· == Action.task stage k) thread
  simp only [ledger, spawn, same, List.count, counted]
  rfl

theorem Sound.unborn {l : Ledger} (sound : Sound l) (unborn : l.born = 0) :
    l.inSession = 0 := by
  obtain ⟨⟨references, life, bits, asleep⟩, ⟨once, sent, inspected, running, timer⟩, waited⟩ :=
    sound
  simp only [Ledger.held, Ledger.receives, Ledger.inspects, Ledger.sends] at *
  omega

theorem not_listed_nextTask (inv : LinkInv s) (session : Nat) :
    s.nextTask ∉ s.sessionPending session := fun member => by
  have unborn := (inv.sound s.nextTask).unborn (by simp [ledger, allotted])
  have owner := inv.own session s.nextTask member
  simp only [ledger, listOf, owner] at unborn
  exact List.count_eq_zero.mp unborn member

theorem moves_of_submits (inv : LinkInv s) (session k : Nat) :
    Moves (ledger s k)
      (ledger (spawn (allocTask s session) [.task .getSession s.nextTask]) k) := by
  by_cases same : k = s.nextTask
  · subst same
    have unborn : (ledger s s.nextTask).born = 0 := by simp [ledger, allotted]
    have before := (inv.sound s.nextTask).unborn unborn
    have after := List.count_eq_zero.mpr (not_listed_nextTask inv session)
    simp only [ledger, listOf] at before
    refine (Moves.allotted unborn).to ?_
    rw [ledger_spawn _ rfl]
    simp [ledger, Ledger.owe, allocTask, setTask, listOf, allotted, before, after, List.count_cons]
  · refine Moves.rests.to ?_
    rw [ledger_spawn _ rfl]
    have born : k < s.nextTask + 1 ↔ k < s.nextTask := by omega
    simp [ledger, allocTask, setTask, listOf, allotted, same, Ne.symm same, born]

theorem moves_of_step {label : LinkLabel} (inv : LinkInv s) (inTime : InTime s label)
    (steps : Steps s label s') (k : Nat) : Moves (ledger s k) (ledger s' k) := by
  cases steps with
  | submits => exact moves_of_submits inv _ k
  | polls =>
      refine Moves.rests.to ?_
      rw [ledger_spawn _ rfl]
      simp [ledger]
  | @expires t scheduled =>
      by_cases same : t = k
      · subst same
        refine (Moves.expires (by simp [ledger, scheduled])).to ?_
        rw [ledger_spawn _ rfl]
        simp [ledger, Ledger.owe, setTimeoutWork, setTask, listOf, List.count_cons]
      · refine Moves.rests.to ?_
        rw [ledger_spawn _ rfl]
        simp [ledger, setTimeoutWork, setTask, listOf, same, Ne.symm same]
  | works idle =>
      refine Moves.rests.to ?_
      have counted := fun stage => countP_pending_start (· == Action.task stage k)
        [.tryDequeue, .scanPending, .again] idle
      simp only [ledger, List.count, counted]
      simp
      rfl
  | @call n choice head rest pushed middle current effect =>
      cases head with
      | task stage t =>
          by_cases same : t = k
          · subst same
            exact moves_of_effect current inTime effect
          · exact Moves.rests.to (ledger_other current same effect)
      | _ => exact moves_of_system inv.runs inv.own current (by simp) inTime effect k

/-! ## The counts of the sessions -/

theorem session_setTask {task : MppTask} (same : task.session = (s.tasks t).session) (k : Nat) :
    ((setTask s t task).tasks k).session = (s.tasks k).session := by
  simp only [setTask]
  split
  · next equal => rw [same, equal]
  · rfl

theorem session_setBit (s : LinkState) (t : Nat) (bit : TaskState) (k : Nat) :
    ((setBit s t bit).tasks k).session = (s.tasks k).session := session_setTask (by rfl) k

theorem session_of_effect (effect : Effect s head middle pushed) (k : Nat) :
    (middle.tasks k).session = (s.tasks k).session := by
  cases effect with
  | timedOut =>
      rw [timeoutProc]
      split
      · rfl
      · rw [session_setBit, session_setBit]
  | processed =>
      rw [recvDone, session_setBit]
      split
      · exact session_setBit ..
      · rfl
  | checkDrops =>
      rw [session_setBit, session_setBit]
      exact session_setTask (by rfl) k
  | received =>
      rw [session_setBit]
      exact session_setTask (by rfl) k
  | sessionGot | queueGot | putLast | putOther | queued => exact session_setTask (by rfl) k
  | donePopped | aborted => exact session_setBit ..
  | _ => rfl

theorem counts_of_effect (effect : Effect s head middle pushed)
    (kept : ∀ t, head ≠ .task .freeTask t) : middle.taskCount = s.taskCount ∧
      middle.nextTask = s.nextTask ∧ middle.freed = s.freed := by
  cases effect with
  | freed => exact absurd rfl (kept _)
  | timedOut =>
      rw [timeoutProc]
      split <;> exact ⟨rfl, rfl, rfl⟩
  | processed =>
      rw [recvDone]
      split <;> exact ⟨rfl, rfl, rfl⟩
  | _ => exact ⟨rfl, rfl, rfl⟩

/-- One number less satisfies the second predicate. -/
theorem countP_range_drop {p q : Nat → Bool} {bound : Nat} (inside : t < bound)
    (old : p t = true) (new : q t = false) (same : ∀ k, k ≠ t → q k = p k) :
    (List.range bound).countP q + 1 = (List.range bound).countP p := by
  induction bound with
  | zero => omega
  | succ bound ih =>
      rw [List.range_succ, List.countP_append, List.countP_append, List.countP_singleton,
        List.countP_singleton]
      by_cases last : t = bound
      · subst last
        have front : (List.range t).countP q = (List.range t).countP p :=
          List.countP_congr fun k member => by
            rw [same k (Nat.ne_of_lt (List.mem_range.mp member))]
        simp [front, old, new]
      · have rest := ih (by omega)
        rw [same bound (Ne.symm last)]
        omega

theorem unfreed_congr (next : s'.nextTask = s.nextTask) (freed : s'.freed = s.freed)
    (sessions : ∀ k, (s'.tasks k).session = (s.tasks k).session) (session : Nat) :
    unfreed s' session = unfreed s session := by
  simp only [unfreed, next, freed, sessions]

theorem counted_freeTask (inv : LinkInv s) (due : 0 < (ledger s t).due .freeTask)
    (session : Nat) :
    (linkFreeTask s t).taskCount session = unfreed (linkFreeTask s t) session := by
  have life := (inv.sound t).booked.life
  have bits := (inv.sound t).booked.bits
  have born : t < s.nextTask := by
    by_contra late
    have unborn : (ledger s t).born = 0 := by simp [ledger, allotted, late]
    omega
  have unfreedYet : s.freed t = 0 := by
    have once : (ledger s t).freed = 0 := by omega
    exact once
  have counted := inv.counted session
  by_cases own : (s.tasks t).session = session
  · have dropped : unfreed (linkFreeTask s t) session + 1 = unfreed s session :=
      countP_range_drop born (by simp [own, unfreedYet]) (by simp [linkFreeTask])
        (fun k other => by simp [linkFreeTask, unlinkQueue, other])
    simp only [linkFreeTask, own, if_true] at *
    omega
  · have same : unfreed (linkFreeTask s t) session = unfreed s session :=
      List.countP_congr fun k _ => by
        by_cases equal : k = t
        · simp [linkFreeTask, unlinkQueue, equal, own]
        · simp [linkFreeTask, unlinkQueue, equal]
    rw [same, ← counted]
    simp [linkFreeTask, unlinkQueue, Ne.symm own]

theorem counted_submits (inv : LinkInv s) (session k : Nat) :
    (allocTask s session).taskCount k = unfreed (allocTask s session) k := by
  have fresh : s.freed s.nextTask = 0 := by
    have life := (inv.sound s.nextTask).booked.life
    have unborn : (ledger s s.nextTask).born = 0 := by simp [ledger, allotted]
    have none : (ledger s s.nextTask).freed = 0 := by omega
    exact none
  have old : (List.range s.nextTask).countP (fun t =>
      ((allocTask s session).tasks t).session == k && (allocTask s session).freed t == 0) =
      unfreed s k := List.countP_congr fun t member => by
    simp [allocTask, setTask, Nat.ne_of_lt (List.mem_range.mp member)]
  have counted := inv.counted k
  have whole : unfreed (allocTask s session) k = unfreed s k + if k = session then 1 else 0 := by
    rw [unfreed, show (allocTask s session).nextTask = s.nextTask + 1 from rfl, List.range_succ,
      List.countP_append, old, List.countP_singleton]
    by_cases same : session = k
    · simp [allocTask, setTask, fresh, same]
    · simp [allocTask, setTask, same, Ne.symm same]
  rw [whole]
  simp only [allocTask, counted]
  split <;> simp

/-! ## Runs -/

theorem ownTasks_of_effect (own : OwnTasks s) (effect : Effect s head middle pushed) :
    OwnTasks middle := by
  intro session k member
  rw [session_of_effect effect]
  cases effect with
  | sessionLinked =>
      simp only [setSessionPending] at member
      split at member
      · next same =>
          rcases List.mem_append.mp member with old | new
          · exact same ▸ own _ k old
          · rw [List.mem_singleton.mp new, same]
      · exact own session k member
  | pendingPopped =>
      simp only [setSessionPending] at member
      split at member
      · next same => exact same ▸ own _ k (List.mem_of_mem_erase member)
      · exact own session k member
  | timedOut =>
      rw [timeoutProc] at member
      split at member <;> exact own session k member
  | processed =>
      rw [recvDone] at member
      split at member <;> exact own session k member
  | _ => exact own session k member

theorem linkInv_init : LinkInv linkInit where
  sound k := by
    constructor <;> constructor <;> simp [ledger, linkInit, allotted, Ledger.held, Ledger.receives,
      Ledger.toSession, Ledger.toQueue, Ledger.inspects, Ledger.sends, Ledger.awaits, listOf,
      pending]
  runs := ⟨⟨[], rfl, .idle⟩, fun n thread other found => by
    obtain ⟨m, rfl⟩ := Nat.exists_eq_succ_of_ne_zero other
    cases found⟩
  own := fun _ _ member => by cases member
  counted := fun _ => rfl

theorem LinkInv.call (inv : LinkInv s) (inTime : InTime s (.call n choice))
    (current : s.threads[n]? = some (head :: rest)) (effect : Effect s head middle pushed) :
    LinkInv (resume middle s.threads n pushed rest) where
  sound k := (inv.sound k).of_moves
    (moves_of_step inv inTime (@Steps.call s n choice head rest pushed middle current effect) k)
  runs := inv.runs.step current effect
  own := @ownTasks_of_effect s middle head pushed inv.own effect
  counted session := by
    by_cases frees : ∃ t, head = .task .freeTask t
    · obtain ⟨t, rfl⟩ := frees
      have due := due_of_current current
      cases effect
      exact counted_freeTask inv due session
    · obtain ⟨count, next, freed⟩ :=
        counts_of_effect effect fun t equal => frees ⟨t, equal⟩
      have same := @unfreed_congr s middle next freed (session_of_effect effect) session
      calc middle.taskCount session = s.taskCount session := by rw [count]
        _ = unfreed s session := inv.counted session
        _ = unfreed middle session := by rw [same]

theorem LinkInv.step {label : LinkLabel} (inv : LinkInv s) (inTime : InTime s label)
    (taken : linkStep s label = some s') : LinkInv s' := by
  have steps := steps_of_linkStep taken
  have sound : ∀ k, Sound (ledger s' k) := fun k =>
    (inv.sound k).of_moves (moves_of_step inv inTime steps k)
  cases steps with
  | submits =>
      refine ⟨sound, inv.runs.spawn (by simp [isWorker, inspecting, admitting]), ?_,
        counted_submits inv _⟩
      intro session k member
      have old : k ∈ s.sessionPending session := member
      have other : k ≠ s.nextTask := fun equal =>
        not_listed_nextTask inv session (equal ▸ old)
      simpa [spawn, allocTask, setTask, other] using inv.own session k old
  | polls =>
      exact ⟨sound, inv.runs.spawn (by simp [isWorker, inspecting]), inv.own, inv.counted⟩
  | @expires t =>
      have session : ∀ k, ((setTimeoutWork s t false).tasks k).session = (s.tasks k).session :=
        session_setTask (by rfl)
      refine ⟨sound, inv.runs.spawn (by simp [isWorker, inspecting, admitting]),
        fun owner k member => (session k).trans (inv.own owner k member), fun owner => ?_⟩
      exact (inv.counted owner).trans
        (congrArg _ (@unfreed_congr s (setTimeoutWork s t false) rfl rfl session owner).symm)
  | works => exact ⟨sound, inv.runs.start
      (@WorkerThread.receives [.tryDequeue] (by simp [receiving])), inv.own, inv.counted⟩
  | call current effect => exact inv.call inTime current effect

/-! ## Every task is freed once -/

/-- A list, the hardware or a thread still has the task. -/
def Held (s : LinkState) (t : Nat) : Prop :=
  t ∈ listOf s t ∨ t ∈ s.pendingList ∨ t ∈ s.runningList ∨ t ∈ s.hw ∨
    ∃ stage, .task stage t ∈ pending s.threads

/-- A task is freed once, when nothing has it any more, and `task_count` counts the others. -/
structure TasksFreed (s : LinkState) : Prop where
  settled : ∀ t < s.nextTask, ¬Held s t → (s.tasks t).ref = 0 ∧ s.freed t = 1
  notEarly : ∀ t, s.freed t ≠ 0 → s.freed t = 1 ∧ ¬Held s t
  counted : ∀ session, s.taskCount session = unfreed s session

theorem settled_of_sound (sound : Sound (ledger s t)) (born : t < s.nextTask)
    (loose : ¬Held s t) : (s.tasks t).ref = 0 ∧ s.freed t = 1 := by
  simp only [Held, not_or, not_exists] at loose
  obtain ⟨session, waiting, _, hardware, done⟩ := loose
  exact sound.settled (by simp [ledger, allotted, born]) (List.count_eq_zero.mpr session)
    (List.count_eq_zero.mpr waiting) (List.count_eq_zero.mpr hardware)
    fun stage => List.count_eq_zero.mpr (done stage)

theorem notEarly_of_sound (sound : Sound (ledger s t)) (freed : s.freed t ≠ 0) :
    s.freed t = 1 ∧ ¬Held s t := by
  obtain ⟨once, _, session, waiting, running, hardware, done⟩ := sound.released freed
  refine ⟨once, ?_⟩
  rintro (member | member | member | member | ⟨stage, member⟩)
  · exact List.count_eq_zero.mp session member
  · exact List.count_eq_zero.mp waiting member
  · exact List.count_eq_zero.mp running member
  · exact List.count_eq_zero.mp hardware member
  · exact List.count_eq_zero.mp (done stage) member

/-- In every run whose steps are in time, the link mode frees each task exactly once, when the
waiter has returned and neither the hardware nor the queue has the task. -/
theorem rkvdec2_link_tasks_freed (reach : Reaches linkStep InTime linkInit s) : TasksFreed s := by
  have inv : LinkInv s :=
    reach.invariant (fun _ _ _ inv inTime taken => inv.step inTime taken) linkInv_init
  exact ⟨fun t => settled_of_sound (inv.sound t), fun t => notEarly_of_sound (inv.sound t),
    inv.counted⟩

instance : (action : Action) → Decidable (Timely s action)
  | .getPendingTask _ => inferInstanceAs (Decidable (∀ t ∈ _, ¬∃ stage ∈ _, _))
  | .task .abort _ => inferInstanceAs (Decidable ((_ ∨ ∃ stage ∈ _, _) ∧ ∀ stage ∈ _, _))
  | .task .abortCheck _ => inferInstanceAs (Decidable (_ = _))
  | .task .put _ => inferInstanceAs (Decidable (_ → ¬_))
  | .tryDequeue | .recvTask | .scanPending | .again | .task .getSession _ | .task .linkSession _
  | .task .getQueue _ | .task .linkQueue _ | .task .freeTask _ | .task .wait _
  | .task .popDone _ | .task .popPending _ | .task .timeoutProc _ | .task .unlinkRunning _
  | .task .procDone _ | .task .wakeUp _ | .task .scan _ | .task .taskQueue _
  | .task .toRunning _ => isTrue trivial

instance (label : LinkLabel) : Decidable (InTime s label) :=
  inferInstanceAs (Decidable (∀ action ∈ _, Timely s action))

def proceed (n count : Nat) : List LinkLabel := List.replicate count (.call n {})

/-- A task is submitted and a waiter takes it from its session. -/
def awaitedTask : List LinkLabel :=
  [.processTask 0] ++ proceed 1 5 ++ [.waitResult 0] ++ proceed 2 1

/-- A pass of the worker sends the task. -/
def sentTask : List LinkLabel := [.work] ++ proceed 0 8

/-- A pass of the worker receives the task, up to `PROC_DONE`. -/
def receivedTask : List LinkLabel := [.work, .call 0 { received := 1 }] ++ proceed 0 3

/-- A task is finished and its waiter has the result; the waiter of a second task gives up while
the task is pending. -/
def finishedAndAborted : List LinkLabel :=
  awaitedTask ++ sentTask ++ receivedTask ++ proceed 0 3 ++ proceed 2 6 ++
    [.processTask 0] ++ proceed 3 5 ++ [.waitResult 0] ++ proceed 4 1 ++
    [.call 4 { timedOut := true }] ++ proceed 4 3 ++ [.work] ++ proceed 0 6

theorem rkvdec2_link_tasks_freed_finishedAndAborted :
    ∃ final, runs linkStep linkInit finishedAndAborted = some final ∧
      final.nextTask = 2 ∧ final.taskCount 0 = 0 ∧ TasksFreed final := by
  have outcome : (runs linkStep linkInit finishedAndAborted).map
      (fun final => (final.nextTask, final.taskCount 0)) = some (2, 0) := by decide +kernel
  obtain ⟨final, execution, counts⟩ := Option.map_eq_some_iff.mp outcome
  obtain ⟨next, count⟩ := Prod.mk.inj counts
  have along : Along linkStep InTime linkInit finishedAndAborted := by decide +kernel
  exact ⟨final, execution, next, count,
    rkvdec2_link_tasks_freed (reaches_of_runs along execution)⟩

/-- Nothing has the first task any more and it keeps a reference. -/
def Leaked (s : LinkState) : Prop :=
  s.nextTask = 1 ∧ listOf s 0 = [] ∧ s.pendingList = [] ∧ s.runningList = [] ∧ s.hw = [] ∧
    pending s.threads = [] ∧ (s.tasks 0).ref = 1

/-- The first task is freed and a thread is about to use it. -/
def UsedFreed (s : LinkState) : Prop :=
  s.freed 0 = 1 ∧ ∃ stage ∈ [Stage.wait, .wakeUp], .task stage 0 ∈ pending s.threads

instance : Decidable (Leaked s) := inferInstanceAs (Decidable (_ ∧ _ ∧ _ ∧ _ ∧ _ ∧ _ ∧ _))

instance : Decidable (UsedFreed s) := inferInstanceAs (Decidable (_ ∧ ∃ stage ∈ _, _))

theorem Leaked.not_freed (leaked : Leaked s) : ¬TasksFreed s := by
  obtain ⟨next, session, waiting, running, hardware, done, ref⟩ := leaked
  intro freed
  have loose : ¬Held s 0 := by simp [Held, session, waiting, running, hardware, done]
  have none := (freed.settled 0 (by omega) loose).1
  omega

theorem UsedFreed.not_freed (used : UsedFreed s) : ¬TasksFreed s := by
  obtain ⟨once, stage, _, member⟩ := used
  intro freed
  exact (freed.notEarly 0 (by omega)).2 (.inr (.inr (.inr (.inr ⟨stage, member⟩))))

/-- The waiter gives up on a running task, which the hardware then finishes. -/
def abortedRunning : List LinkLabel :=
  awaitedTask ++ sentTask ++ [.call 2 { timedOut := true }] ++ proceed 2 3 ++ receivedTask ++
    proceed 0 3

/-- The waiter gives up when the worker has scanned the pending list. -/
def abortedBehindScan : List LinkLabel :=
  awaitedTask ++ [.call 2 { timedOut := true }, .work] ++ proceed 0 3 ++ proceed 2 3 ++ proceed 0 5

/-- The waiter sees `PROC_DONE` before it is woken. -/
def freedBeforeWakeUp : List LinkLabel := awaitedTask ++ sentTask ++ receivedTask ++ proceed 2 6

/-- Two calls wait for the result of the same task. -/
def awaitedTwice : List LinkLabel :=
  awaitedTask ++ [.waitResult 0] ++ proceed 3 1 ++ sentTask ++ receivedTask ++ proceed 0 3 ++
    proceed 2 6

/-- The run ends with a task that leaks or was used after its end. -/
def EndsUnfreed (labels : List LinkLabel) : Prop :=
  ∃ final, runs linkStep linkInit labels = some final ∧ (Leaked final ∨ UsedFreed final) ∧
    ¬TasksFreed final

theorem link_tasks_leak_or_are_used_freed :
    [abortedRunning, abortedBehindScan, freedBeforeWakeUp, awaitedTwice].Forall EndsUnfreed := by
  have outcomes : ∀ labels ∈ [abortedRunning, abortedBehindScan, freedBeforeWakeUp, awaitedTwice],
      (runs linkStep linkInit labels).map
        (fun final => decide (Leaked final ∨ UsedFreed final)) = some true := by decide +kernel
  rw [List.forall_iff_forall_mem]
  intro labels listed
  obtain ⟨final, execution, wrong⟩ := Option.map_eq_some_iff.mp (outcomes labels listed)
  have wrong := of_decide_eq_true wrong
  exact ⟨final, execution, wrong, wrong.elim Leaked.not_freed UsedFreed.not_freed⟩

end LinkTask
end Mpp
end RockchipSoc
