import RockchipSoc.Mpp.TaskCount

/-!
# A queue with work is not left idle

The worker must look at the pending list again after each change that lets it start a task.  The
interrupt thread and a submission queue the work of the device for that; the worker itself and the
timeout work do not, so they may take a task off the queue only if no other task waits or the work
is queued anyway.
-/

namespace RockchipSoc
namespace Mpp

open LabelledRun ActionPool

variable {cfg : MppConfig} {s s' : MppState} {choice : Choice} {head : Action}
  {pushed rest : List Action} {n t : Nat}

/-- A call that is about to queue the work of a device. -/
def queues : Action → Bool
  | .trigger _ | .submit _ _ .trigger => true
  | _ => false

/-- The worker has not looked at the queue for the last time in its pass, or a call is about to
queue it. -/
def rouses : Action → Bool
  | .trigger _ | .submit _ _ .trigger => true
  | .fetch | .abortCheck _ | .popPending _ | .admission _ | .toRun _ _ => true
  | _ => false

/-- The worker of the queue will look at the pending list. -/
def Awake (s : MppState) : Prop :=
  s.queue.workList ≠ [] ∨ ∃ action ∈ pending s.threads, rouses action = true

/-- A pending task and an empty running list keep the worker awake. -/
def NotIdle (s : MppState) : Prop :=
  s.queue.pendingList ≠ [] → s.queue.runningList = [] → Awake s

/-- Where the worker drops an aborted task, a start fails or a timeout retires a task, no other
task waits, or one still runs, or the work is queued or about to be. -/
def Retriggered (s : MppState) : Action → Prop
  | .popPending t => s.queue.pendingList.erase t = [] ∨ s.queue.runningList.erase t ≠ [] ∨
      s.queue.workList ≠ [] ∨ 1 ≤ num s queues
  | .popRunning t .worker | .popRunning t .timeoutWork => s.queue.pendingList.erase t = [] ∨
      s.queue.runningList.erase t ≠ [] ∨ s.queue.workList ≠ [] ∨ 1 ≤ num s rouses
  | _ => True

def retriggeredStep (s : MppState) (label : MppLabel) : Prop :=
  ∀ action ∈ (executing s label).toList, Retriggered s action

instance : (action : Action) → Decidable (Retriggered s action)
  | .popPending _ | .popRunning _ .worker | .popRunning _ .timeoutWork =>
      inferInstanceAs (Decidable (_ ∨ _ ∨ _ ∨ _))
  | .popRunning _ .isr | .submit _ _ _ | .put _ | .uncount _ | .getPendingTask _ | .wait _
  | .giveUp _ | .popSession _ | .pollTaskCount _ | .clear _ | .irqRead _ | .irqClaim _ _
  | .irqCancel _ _ _ | .isrRead _ | .isrClear _ _ | .finish _ _ | .setCoreIdle _ | .trigger _
  | .timeoutClaim _ | .timeoutDone _ | .fetch | .abortCheck _ | .admission _ | .toRun _ _
  | .setGrf _ _ | .schedule _ _ | .run _ _ | .detach | .detachSession _ | .deinit _
  | .freeSession _ => isTrue trivial

instance (label : MppLabel) : Decidable (retriggeredStep s label) :=
  inferInstanceAs (Decidable (∀ action ∈ _, Retriggered s action))

/-! ## Threads of the interrupt -/

/-- Behind each removal of a finished task, the thread of the interrupt queues the work. -/
def Covered : List Action → Prop
  | [] => True
  | .popRunning _ .isr :: rest => (∃ d, .trigger d ∈ rest) ∧ Covered rest
  | _ :: rest => Covered rest

theorem Covered.tail (covered : Covered (head :: rest)) : Covered rest := by
  cases head with
  | popRunning _ caller =>
      cases caller with
      | isr => exact covered.2
      | worker | timeoutWork => exact covered
  | _ => exact covered

theorem covered_append (left : Covered pushed) (right : Covered rest) :
    Covered (pushed ++ rest) := by
  induction pushed with
  | nil => exact right
  | cons action pushed ih =>
      have later := ih left.tail
      cases action with
      | popRunning _ caller =>
          cases caller with
          | isr =>
              obtain ⟨d, member⟩ := left.1
              exact ⟨⟨d, List.mem_append_left rest member⟩, later⟩
          | worker | timeoutWork => exact later
      | _ => exact later

theorem covered_of_forall (none : ∀ action ∈ pushed, ∀ t, action ≠ .popRunning t .isr) :
    Covered pushed := by
  induction pushed with
  | nil => trivial
  | cons action pushed ih =>
      have later := ih fun other member => none other (List.mem_cons_of_mem _ member)
      cases action with
      | popRunning t caller =>
          cases caller with
          | isr => exact absurd rfl (none _ List.mem_cons_self t)
          | worker | timeoutWork => exact later
      | _ => exact later

theorem covered_of_effect (effect : Effect cfg s choice head s' pushed) : Covered pushed := by
  cases effect with
  | finished =>
      simp only [mppTaskFinish]
      cases cfg.prepare
      · exact ⟨⟨_, List.mem_singleton_self _⟩, trivial⟩
      · exact ⟨⟨_, List.mem_cons_of_mem _ (List.mem_singleton_self _)⟩, trivial⟩
  | cleared =>
      refine covered_of_forall fun action member t => ?_
      obtain ⟨k, _, rfl⟩ := List.mem_map.mp member
      simp
  | sessionDetached =>
      refine covered_of_forall fun action member t => ?_
      obtain ⟨d, _, rfl⟩ := Option.map_eq_some_iff.mp (Option.mem_toList.mp member)
      simp
  | irqCancelled => split <;> trivial
  | deinitBegins => split <;> trivial
  | _ => trivial

/-! ## The invariant -/

/-- `NotIdle`, as a disjunction that counts the pending actions. -/
def Roused (s : MppState) : Prop :=
  s.queue.pendingList = [] ∨ s.queue.runningList ≠ [] ∨ s.queue.workList ≠ [] ∨ 1 ≤ num s rouses

theorem Roused.notIdle (roused : Roused s) : NotIdle s := by
  intro waiting idle
  rcases roused with empty | runs | queued | rousing
  · exact absurd empty waiting
  · exact absurd idle runs
  · exact Or.inl queued
  · exact Or.inr (List.countP_pos_iff.mp rousing)

/-- What keeps the two lists and the queued work keeps the worker roused, unless it uses up the
action that rouses it. -/
theorem Roused.keep (roused : Roused s)
    (pendings : s.queue.pendingList = [] → s'.queue.pendingList = [])
    (runnings : s.queue.runningList ≠ [] → s'.queue.runningList ≠ [])
    (works : s.queue.workList ≠ [] → s'.queue.workList ≠ [])
    (rousing : 1 ≤ num s rouses → 1 ≤ num s' rouses) : Roused s' :=
  roused.imp pendings (Or.imp runnings (Or.imp works rousing))

/-- A worker that is about to be queued by another call than the executed one stays so. -/
theorem one_le_rouses_of_quiet {s' : MppState} (current : s.threads[n]? = some (head :: rest))
    {p : Action → Bool} (stronger : ∀ action, p action = true → rouses action = true)
    (quiet : p head = false) (counted : 1 ≤ num s p) :
    1 ≤ num (resume s' s.threads n pushed rest) rouses := by
  have step := num_resume s' pushed p current
  rw [List.countP_singleton, quiet, if_neg Bool.false_ne_true] at step
  have weaker := num_le_num (resume s' s.threads n pushed rest) stronger
  omega

theorem rouses_of_queues (action : Action) (queue : queues action = true) :
    rouses action = true := by
  cases action with
  | trigger => rfl
  | submit _ _ stage =>
      cases stage with
      | trigger => rfl
      | _ => cases queue
  | _ => cases queue

theorem workList_ne_nil (s : MppState) (d : Nat) :
    (mppTaskqueueTriggerWork s d).queue.workList ≠ [] := by
  simp only [mppTaskqueueTriggerWork]
  split
  · next member => exact List.ne_nil_of_mem member
  · exact List.append_ne_nil_of_right_ne_nil _ (List.cons_ne_nil d [])

theorem roused_of_effect (direct : cfg.prepare = false) (roused : Roused s)
    (current : s.threads[n]? = some (head :: rest)) (covered : Covered (head :: rest))
    (effect : Effect cfg s choice head s' pushed) (retriggered : Retriggered s head) :
    Roused (resume s' s.threads n pushed rest) := by
  have counts := num_resume s' pushed rouses current
  have new : ∀ action ∈ pushed, rouses action = true →
      1 ≤ num (resume s' s.threads n pushed rest) rouses := fun action member rousing =>
    one_le_num (mem_pending_of_pushed current member) rousing
  cases effect with
  | queueLinked => exact Or.inr (Or.inr (Or.inr (new _ (List.mem_singleton_self _) rfl)))
  | submitted => exact Or.inr (Or.inr (Or.inl (workList_ne_nil _ _)))
  | triggered => exact Or.inr (Or.inr (Or.inl (workList_ne_nil _ _)))
  | nothingPending empty => exact Or.inl empty
  | fetched | aborted | notAborted | admitted =>
      exact roused.keep id id id fun _ => new _ (List.mem_singleton_self _) rfl
  | pendingPopped =>
      rcases retriggered with empty | runs | queued | queueing
      · exact Or.inl empty
      · exact Or.inr (Or.inl runs)
      · exact Or.inr (Or.inr (Or.inl queued))
      · exact Or.inr (Or.inr (Or.inr
          (one_le_rouses_of_quiet current rouses_of_queues rfl queueing)))
  | busy _ runs => exact Or.inr (Or.inl runs)
  | allBusy prepare | admittedCore prepare =>
      rw [direct] at prepare
      cases prepare
  | movedToRun =>
      exact Or.inr (Or.inl (List.append_ne_nil_of_right_ne_nil _ (List.cons_ne_nil _ [])))
  | @runningPopped t caller =>
      cases caller with
      | isr =>
          -- the interrupt thread queues the work behind this
          obtain ⟨d, behind⟩ := covered.1
          obtain ⟨inside, _⟩ := List.getElem?_eq_some_iff.mp current
          have member : Action.trigger d ∈ pending
              (resume (unlinkQueue s t) s.threads n [.put t] rest).threads :=
            List.mem_flatten.mpr ⟨_, List.mem_set inside _, List.mem_append_right _ behind⟩
          exact Or.inr (Or.inr (Or.inr (one_le_num member rfl)))
      | worker | timeoutWork =>
          rcases retriggered with empty | runs | queued | rousing
          · exact Or.inl empty
          · exact Or.inr (Or.inl runs)
          · exact Or.inr (Or.inr (Or.inl queued))
          · exact Or.inr (Or.inr (Or.inr
              (one_le_rouses_of_quiet current (fun _ => id) rfl rousing)))
  | _ =>
      exact roused.keep id id id fun rousing =>
        one_le_rouses_of_quiet current (fun _ => id) rfl rousing

/-- The invariant of the whole system: the worker is roused, and each interrupt thread will queue
the work. -/
structure IdleInv (s : MppState) : Prop where
  roused : Roused s
  covered : ∀ thread ∈ s.threads, Covered thread

theorem idleInv_mppInit : IdleInv mppInit where
  roused := Or.inl rfl
  covered thread member := by
    obtain rfl := List.mem_singleton.mp member
    trivial

/-- A new call that leaves the queue alone. -/
theorem IdleInv.spawn {thread : List Action} (inv : IdleInv s) (threads : s'.threads = s.threads)
    (queue : s'.queue = s.queue) (covered : Covered thread) : IdleInv (spawn s' thread) where
  roused := by
    have counts := num_spawn rouses thread threads
    refine inv.roused.keep (fun empty => ?_) (fun runs => ?_) (fun queued => ?_) (by omega)
    · exact (congrArg MppTaskqueue.pendingList queue).trans empty
    · exact fun none => runs ((congrArg MppTaskqueue.runningList queue).symm.trans none)
    · exact fun none => queued ((congrArg MppTaskqueue.workList queue).symm.trans none)
  covered other member := by
    rcases List.mem_append.mp member with old | new
    · exact inv.covered other (threads ▸ old)
    · obtain rfl := List.mem_singleton.mp new
      exact covered

theorem idleInv_of_steps {label : MppLabel} (direct : cfg.prepare = false) (inv : IdleInv s)
    (steps : Steps cfg s label s') (retriggered : retriggeredStep s label) : IdleInv s' := by
  cases steps with
  | opened | initialised => exact ⟨inv.roused, inv.covered⟩
  | submits | polls | resets | interrupts | expires => exact inv.spawn rfl rfl trivial
  | releases => split <;> exact inv.spawn rfl rfl trivial
  | @works d rest queued idle =>
      obtain ⟨inside, _⟩ := List.getElem?_eq_some_iff.mp idle
      refine ⟨Or.inr (Or.inr (Or.inr (@one_le_num _ _ Action.fetch ?_ rfl))),
        fun thread member => ?_⟩
      · exact List.mem_flatten.mpr ⟨_, List.mem_set inside _, List.mem_cons_self⟩
      · rcases List.mem_or_eq_of_mem_set member with old | rfl
        · exact inv.covered thread old
        · trivial
  | @call n _ head rest _ _ current effect =>
      have covered := inv.covered _ (List.mem_of_getElem? current)
      have fine : Retriggered s head := retriggered head (by simp [executing, current])
      refine ⟨roused_of_effect direct inv.roused current covered effect fine,
        fun thread member => ?_⟩
      rcases List.mem_or_eq_of_mem_set member with old | rfl
      · exact inv.covered thread old
      · exact covered_append (covered_of_effect effect) covered.tail

/-- The queue is not left idle in any run whose steps retrigger the worker where it is needed. -/
theorem mpp_queue_not_idle (cfg : MppConfig) (direct : cfg.prepare = false)
    (reach : Reaches (mppStep cfg) retriggeredStep mppInit s) : NotIdle s :=
  (reach.invariant (fun _ _ _ inv retriggered taken =>
      idleInv_of_steps direct inv (steps_of_mppStep taken) retriggered)
    idleInv_mppInit).roused.notIdle

/-- A second task of the session, which thread 2 submits. -/
def bothTasks : List MppLabel := firstTask ++ [.processTask 0 none] ++ proceed 2 7

/-- The hardware finishes the first of two tasks. -/
def finishedFirst : List MppLabel := bothTasks ++ startTask ++ [.irq 0] ++ proceed 3 9

theorem mpp_queue_not_idle_finishedFirst :
    ∃ final, runs (mppStep ⟨1, false⟩) mppInit finishedFirst = some final ∧
      final.queue.pendingList = [1] ∧ final.queue.runningList = [] ∧ NotIdle final := by
  have outcome : (runs (mppStep ⟨1, false⟩) mppInit finishedFirst).map
      (fun final => (final.queue.pendingList, final.queue.runningList)) = some ([1], []) := by
    decide +kernel
  obtain ⟨final, execution, lists⟩ := Option.map_eq_some_iff.mp outcome
  obtain ⟨waiting, idle⟩ := Prod.mk.inj lists
  have along : Along (mppStep ⟨1, false⟩) retriggeredStep mppInit finishedFirst := by
    decide +kernel
  exact ⟨final, execution, waiting, idle,
    mpp_queue_not_idle _ rfl (reaches_of_runs along execution)⟩

/-- A task waits, none runs, and no call is in progress that would wake the worker. -/
def Stalled (s : MppState) : Prop :=
  s.queue.pendingList = [1] ∧ s.queue.runningList = [] ∧ s.queue.workList = [] ∧
    pending s.threads = []

instance : Decidable (Stalled s) := inferInstanceAs (Decidable (_ ∧ _ ∧ _ ∧ _))

theorem Stalled.idle (stalled : Stalled s) : ¬NotIdle s := by
  obtain ⟨waits, idle, unqueued, quiet⟩ := stalled
  intro notIdle
  rcases notIdle (by simp [waits]) idle with queued | ⟨_, member, _⟩
  · exact queued unqueued
  · rw [quiet] at member
    cases member

/-- The first of two tasks is aborted while it is pending: its waiter gives up, and the worker
drops it. -/
def abortedFirst : List MppLabel :=
  bothTasks ++ [.waitResult 0] ++ proceed 3 1 ++ [.call 3 { timedOut := true }] ++ proceed 3 3 ++
    [.work] ++ proceed 0 6

/-- `set_grf` fails for the first of two tasks. -/
def failedFirst : List MppLabel :=
  bothTasks ++ [.work] ++ proceed 0 4 ++ [.call 0 { grfFails := true }] ++ proceed 0 3

/-- The timeout work retires the first of two tasks. -/
def timedOutFirst : List MppLabel := bothTasks ++ startTask ++ [.timeout 0] ++ proceed 3 4

/-- The run ends with a queue that is idle although a task waits. -/
def EndsIdle (labels : List MppLabel) : Prop :=
  ∃ final, runs (mppStep ⟨1, false⟩) mppInit labels = some final ∧ Stalled final ∧ ¬NotIdle final

theorem removed_task_leaves_queue_idle :
    [abortedFirst, failedFirst, timedOutFirst].Forall EndsIdle := by
  have outcomes : ∀ labels ∈ [abortedFirst, failedFirst, timedOutFirst],
      (runs (mppStep ⟨1, false⟩) mppInit labels).map (fun final => decide (Stalled final)) =
        some true := by decide +kernel
  rw [List.forall_iff_forall_mem]
  intro labels listed
  obtain ⟨final, execution, stalled⟩ := Option.map_eq_some_iff.mp (outcomes labels listed)
  exact ⟨final, execution, of_decide_eq_true stalled, (of_decide_eq_true stalled).idle⟩

end Mpp
end RockchipSoc
