import RockchipSoc.Mpp.SoftCcuCores

/-!
# The worker of the soft CCU is woken in time

The worker starts at most one task each time it runs, and it stops at the first running task that is
not finished.  All the same no task is left behind when the worker sleeps: the first running task
has a timer on the way, and while a core is not disabled, there is such a task as long as one is
pending.
-/

namespace RockchipSoc
namespace Mpp
namespace SoftCcu

open CoreQueue LabelledRun

variable {s s' : SoftState} {label : SoftLabel} {task mpp : Nat} {rest : List Nat}

/-- Some core of the queue is not disabled. -/
def Serving (s : SoftState) (_ : SoftLabel) : Prop :=
  ∃ mpp, Attached s mpp ∧ s.disableWork mpp = false

/-- The delayed work of the task, left to itself, marks the task and queues the worker. -/
def TimerQueues (s : SoftState) (task : Nat) : Prop :=
  ∃ count later, runs softStep s (List.replicate count (.timeoutWork task)) = some later ∧
    later.workList ≠ [] ∧ later.timeout task = true

/-- If the worker sleeps and a task has not been finished, then there is a first running task, it
has not been interrupted, and its timer wakes the worker. -/
def WokenInTime (s : SoftState) : Prop :=
  s.worker = .idle → s.workList = [] → s.pendingList ≠ [] ∨ s.runningList ≠ [] →
    ∃ task ∈ s.runningList.head?, s.irqStatus (usedDevice s task) = 0 ∧ TimerQueues s task

/-- The delayed work of a task begins with its start and is under way until the task is finished or
marked. -/
structure TimersInv (runningList started : List Nat) (handle timeout : Nat → Bool)
    (timeoutWork : Nat → TimeoutAt) : Prop where
  begun : ∀ task, handle task = true ∨ timeout task = true ∨ timeoutWork task ≠ .unarmed →
    task ∈ started
  first : ∀ task ∈ runningList, timeoutWork task = .armed → handle task = false
  marked : ∀ task ∈ runningList, timeoutWork task = .unarmed → timeout task = true
  late : ∀ task, timeoutWork task = .flagged ∨ timeoutWork task = .counted → timeout task = true

structure TimedInv (s : SoftState) : Prop extends CoresInv s where
  timers : TimersInv s.runningList s.started s.handle s.timeout s.timeoutWork

/-- The worker sleeps, or leaves without another look at the pending list. -/
def hasLooked : WorkerAt → Bool
  | .idle | .done => true
  | _ => false

/-- Unless a work is queued, the first running task has not been interrupted since the worker has
looked, or its delayed work will queue one; and the worker leaves no pending task alone. -/
structure WakeInv (s : SoftState) : Prop extends TimedInv s where
  unmarked : s.workList = [] → s.worker ≠ .dequeue → ∀ task ∈ s.runningList.head?,
    s.timeout task = true → s.timeoutWork task = .flagged ∨ s.timeoutWork task = .counted
  uninterrupted : s.workList = [] → s.worker ≠ .dequeue → ∀ task ∈ s.runningList.head?,
    (∀ mpp, s.worker ≠ .enqueue task mpp) → s.irqStatus (usedDevice s task) = 0
  waits : s.workList = [] → hasLooked s.worker = true → s.pendingList ≠ [] → s.runningList ≠ []

/-! ## What the invariant is for -/

theorem timerQueues_of_step (taken : softStep s (.timeoutWork task) = some s')
    (queues : TimerQueues s' task) : TimerQueues s task := by
  obtain ⟨count, later, ran, queued, marked⟩ := queues
  refine ⟨count + 1, later, ?_, queued, marked⟩
  rw [List.replicate_succ, runs, taken]
  exact ran

theorem workList_queueWork_ne_nil (s : SoftState) (mpp : Nat) :
    (queueWork s mpp).workList ≠ [] := by
  change (if mpp ∈ s.workList then s.workList else s.workList ++ [mpp]) ≠ []
  split
  · next member => exact List.ne_nil_of_mem member
  · exact List.append_ne_nil_of_right_ne_nil _ (List.cons_ne_nil _ _)

theorem timerQueues_of_counted (counted : s.timeoutWork task = .counted)
    (marked : s.timeout task = true) : TimerQueues s task := by
  refine ⟨1, setTimeoutWork (queueWork s (usedDevice s task)) task .unarmed, ?_,
    workList_queueWork_ne_nil s _, marked⟩
  rw [List.replicate_one, runs, softStep, rkvdec2CcuLinkTimeoutWork, counted]
  rfl

theorem timerQueues_of_flagged (flagged : s.timeoutWork task = .flagged)
    (marked : s.timeout task = true) : TimerQueues s task := by
  have taken : softStep s (.timeoutWork task) =
      some (setTimeoutWork (requestReset s (usedDevice s task)) task .counted) := by
    rw [softStep, rkvdec2CcuLinkTimeoutWork, flagged]
  exact timerQueues_of_step taken (timerQueues_of_counted (Function.update_self ..) marked)

theorem timerQueues_of_handled (handled : s.timeoutWork task = .handled) : TimerQueues s task := by
  have taken : softStep s (.timeoutWork task) = some (setTimeoutWork
      { s with timeout := Function.update s.timeout task true } task .flagged) := by
    rw [softStep, rkvdec2CcuLinkTimeoutWork, handled]
  exact timerQueues_of_step taken
    (timerQueues_of_flagged (Function.update_self ..) (Function.update_self ..))

theorem timerQueues_of_armed (armed : s.timeoutWork task = .armed)
    (first : s.handle task = false) : TimerQueues s task := by
  have taken : softStep s (.timeoutWork task) = some (setTimeoutWork
      { s with handle := Function.update s.handle task true } task .handled) := by
    rw [softStep, rkvdec2CcuLinkTimeoutWork, armed]
    simp only [first, Bool.false_eq_true, if_false]
  exact timerQueues_of_step taken (timerQueues_of_handled (Function.update_self ..))

theorem WakeInv.wokenInTime (inv : WakeInv s) : WokenInTime s := by
  intro idle unqueued unfinished
  have nonempty : s.runningList ≠ [] := by
    rcases unfinished with pending | running
    · exact inv.waits unqueued (by rw [idle]; rfl) pending
    · exact running
  obtain ⟨task, rest, running⟩ := List.exists_cons_of_ne_nil nonempty
  have first : task ∈ s.runningList.head? := by
    rw [running]
    rfl
  have member : task ∈ s.runningList := List.mem_of_mem_head? first
  have asleep : s.worker ≠ .dequeue := by
    rw [idle]
    nofun
  refine ⟨task, first, inv.uninterrupted unqueued asleep task first fun mpp => by
    rw [idle]; nofun, ?_⟩
  cases stage : s.timeoutWork task with
  | unarmed =>
      have marked := inv.unmarked unqueued asleep task first (inv.timers.marked task member stage)
      rw [stage] at marked
      exact absurd marked (by simp)
  | armed => exact timerQueues_of_armed stage (inv.timers.first task member stage)
  | handled => exact timerQueues_of_handled stage
  | flagged => exact timerQueues_of_flagged stage (inv.timers.late task (Or.inl stage))
  | counted => exact timerQueues_of_counted stage (inv.timers.late task (Or.inr stage))

/-! ## Timers -/

section Timers

variable {runningList started : List Nat} {handle timeout : Nat → Bool}
  {timeoutWork : Nat → TimeoutAt} {stage : TimeoutAt}

theorem TimersInv.started_of_stage
    (inv : TimersInv runningList started handle timeout timeoutWork)
    (now : timeoutWork task = stage) (begun : stage ≠ .unarmed) : task ∈ started :=
  inv.begun task (Or.inr (Or.inr (now ▸ begun)))

/-- The delayed work of a task that has started goes on to another stage. -/
theorem TimersInv.advance (inv : TimersInv runningList started handle timeout timeoutWork)
    {handle' timeout' : Nat → Bool} (begun : task ∈ started) (unarmed : stage ≠ .armed)
    (sameHandle : ∀ other, other ≠ task → handle' other = handle other)
    (sameTimeout : ∀ other, other ≠ task → timeout' other = timeout other)
    (marked : stage = .unarmed → task ∈ runningList → timeout' task = true)
    (late : stage = .flagged ∨ stage = .counted → timeout' task = true) :
    TimersInv runningList started handle' timeout' (Function.update timeoutWork task stage) where
  begun := fun other before => by
    by_cases same : other = task
    · exact same ▸ begun
    · rw [sameHandle other same, sameTimeout other same, Function.update_of_ne same] at before
      exact inv.begun other before
  first := fun other there armed => by
    by_cases same : other = task
    · rw [same, Function.update_self] at armed
      exact absurd armed unarmed
    · rw [Function.update_of_ne same] at armed
      rw [sameHandle other same]
      exact inv.first other there armed
  marked := fun other there ended => by
    by_cases same : other = task
    · subst same
      rw [Function.update_self] at ended
      exact marked ended there
    · rw [Function.update_of_ne same] at ended
      rw [sameTimeout other same]
      exact inv.marked other there ended
  late := fun other flagged => by
    by_cases same : other = task
    · subst same
      rw [Function.update_self] at flagged
      exact late flagged
    · rw [Function.update_of_ne same] at flagged
      rw [sameTimeout other same]
      exact inv.late other flagged

/-- A task that has not started does so, with a running timer. -/
theorem TimersInv.start (inv : TimersInv runningList started handle timeout timeoutWork)
    (running : ∀ task ∈ runningList, task ∈ started) (fresh : task ∉ started) :
    TimersInv (runningList ++ [task]) (started ++ [task]) handle timeout
      (Function.update timeoutWork task .armed) where
  begun := fun other before => by
    by_cases same : other = task
    · exact List.mem_append_right _ (List.mem_singleton.mpr same)
    · rw [Function.update_of_ne same] at before
      exact List.mem_append_left _ (inv.begun other before)
  first := fun other there armed => by
    rcases List.mem_append.mp there with there | same
    · have distinct : other ≠ task := fun same => fresh (same ▸ running other there)
      rw [Function.update_of_ne distinct] at armed
      exact inv.first other there armed
    · obtain rfl := List.mem_singleton.mp same
      exact Bool.eq_false_iff.mpr fun handled => fresh (inv.begun other (Or.inl handled))
  marked := fun other there ended => by
    rcases List.mem_append.mp there with there | same
    · have distinct : other ≠ task := fun same => fresh (same ▸ running other there)
      rw [Function.update_of_ne distinct] at ended
      exact inv.marked other there ended
    · rw [List.mem_singleton.mp same, Function.update_self] at ended
      cases ended
  late := fun other flagged => by
    by_cases same : other = task
    · rw [same, Function.update_self] at flagged
      rcases flagged with absurd | absurd <;> cases absurd
    · rw [Function.update_of_ne same] at flagged
      exact inv.late other flagged

/-- The first running task is finished, and its timer stopped. -/
theorem TimersInv.finish (inv : TimersInv (task :: runningList) started handle timeout timeoutWork)
    (begun : task ∈ started) (once : task ∉ runningList) :
    TimersInv runningList started (Function.update handle task true) timeout
      (Function.update timeoutWork task (cancelDelayedWork (timeoutWork task))) where
  begun := fun other before => by
    by_cases same : other = task
    · exact same ▸ begun
    · rw [Function.update_of_ne same, Function.update_of_ne same] at before
      exact inv.begun other before
  first := fun other there armed => by
    have distinct : other ≠ task := fun same => once (same ▸ there)
    rw [Function.update_of_ne distinct] at armed ⊢
    exact inv.first other (List.mem_cons_of_mem task there) armed
  marked := fun other there ended => by
    have distinct : other ≠ task := fun same => once (same ▸ there)
    rw [Function.update_of_ne distinct] at ended
    exact inv.marked other (List.mem_cons_of_mem task there) ended
  late := fun other flagged => by
    by_cases same : other = task
    · rw [same, Function.update_self, cancelDelayedWork] at flagged
      split at flagged
      · rcases flagged with absurd | absurd <;> cases absurd
      · exact same ▸ inv.late task flagged
    · rw [Function.update_of_ne same] at flagged
      exact inv.late other flagged

end Timers

theorem TimedInv.event (inv : TimedInv s) (event : Event s label s') : TimedInv s' := by
  refine ⟨inv.toCoresInv.event event, ?_⟩
  have timers := inv.timers
  have kept : ∀ f : Nat → Bool, ∀ task other, other ≠ task →
      Function.update f task true other = f other := fun f task other distinct =>
    Function.update_of_ne distinct true f
  cases event with
  | @irq mpp status =>
      obtain ⟨_, _, _, _, _, frame⟩ := rkvdec2SoftCcuIrq_frame s mpp status
      rw [frame]
      exact timers
  | @late task armed handled =>
      refine timers.advance (timers.started_of_stage armed nofun) nofun (fun _ _ => rfl)
        (fun _ _ => rfl) (fun _ there => ?_) nofun
      exact absurd ((timers.first task there armed).symm.trans handled) Bool.false_ne_true
  | @handle task armed =>
      exact timers.advance (timers.started_of_stage armed nofun) nofun (kept s.handle task)
        (fun _ _ => rfl) nofun nofun
  | @flag task handled =>
      exact timers.advance (timers.started_of_stage handled nofun) nofun (fun _ _ => rfl)
        (kept s.timeout task) nofun fun _ => Function.update_self ..
  | @count task flagged =>
      exact timers.advance (timers.started_of_stage flagged nofun) nofun (fun _ _ => rfl)
        (fun _ _ => rfl) nofun fun _ => timers.late task (Or.inl flagged)
  | @trigger task counted =>
      exact timers.advance (timers.started_of_stage counted nofun) nofun (fun _ _ => rfl)
        (fun _ _ => rfl) (fun _ _ => timers.late task (Or.inr counted)) nofun
  | _ => exact timers

theorem TimedInv.turn (inv : TimedInv s) (turn : Turn s s') : TimedInv s' := by
  refine ⟨inv.toCoresInv.turn turn, ?_⟩
  have timers := inv.timers
  cases turn with
  | @finish task rest now running =>
      have once := inv.running_nodup
      rw [running] at timers once
      have begun : task ∈ s.started := inv.running_started (by
        rw [running]
        exact List.mem_cons_self)
      exact timers.finish begun (List.nodup_cons.mp once).1
  | @place task mpp selected =>
      obtain ⟨rest, pending⟩ := inv.pending_eq selected
      have waiting : task ∈ s.pendingList := by
        rw [pending]
        exact List.mem_cons_self
      exact timers.start (fun other there => inv.running_started there)
        (inv.pending_not_started waiting)
  | reset =>
      obtain ⟨_, _, frame⟩ := rkvdec2SoftCcuReset_frame s
      rw [frame]
      exact timers
  | enqueue =>
      obtain ⟨_, _, _, frame⟩ := rkvdec2CcuPowerOn_frame s
      rw [frame]
      exact timers
  | powerOff =>
      obtain ⟨_, _, _, frame⟩ := rkvdec2CcuPowerOff_frame s
      rw [frame]
      exact timers
  | _ => exact timers

/-! ## Steps -/

theorem timedInv_start (probed : ProbedCores) : TimedInv probed.start where
  toCoresInv := coresInv_start probed
  timers := by
    refine ⟨fun task before => ?_, nofun, nofun, fun task late => ?_⟩
    · rcases before with absurd | absurd | absurd
      · cases absurd
      · cases absurd
      · exact (absurd rfl).elim
    · rcases late with absurd | absurd <;> cases absurd

theorem wakeInv_start (probed : ProbedCores) : WakeInv probed.start where
  toTimedInv := timedInv_start probed
  unmarked := nofun
  uninterrupted := nofun
  waits := fun _ _ pending => (pending rfl).elim

/-- The first running task has not been interrupted, or the worker is told. -/
theorem WakeInv.event (inv : WakeInv s) (event : Event s label s') : WakeInv s' := by
  have timed := inv.toTimedInv.event event
  obtain ⟨-, unmarked, uninterrupted, waits⟩ := id inv
  -- A task whose timer is still running is not the first one with a mark.
  have stillUnmarked {task : Nat} (armed : s.timeoutWork task = .armed) (stage : TimeoutAt) :
      s.workList = [] → s.worker ≠ .dequeue → ∀ other ∈ s.runningList.head?,
        s.timeout other = true → Function.update s.timeoutWork task stage other = .flagged ∨
          Function.update s.timeoutWork task stage other = .counted := by
    intro empty looked other first marked
    have before := unmarked empty looked other first marked
    have distinct : other ≠ task := by
      rintro rfl
      rw [armed] at before
      rcases before with absurd | absurd <;> cases absurd
    rw [Function.update_of_ne distinct]
    exact before
  cases event with
  | @processTask task mpp =>
      have queued : (mppProcessTaskDefault s task mpp).workList ≠ [] :=
        workList_queueWork_ne_nil _ mpp
      exact ⟨timed, fun empty => absurd empty queued, fun empty => absurd empty queued,
        fun empty => absurd empty queued⟩
  | @irq mpp status =>
      by_cases raised : raises status = true
      · have queued : (rkvdec2SoftCcuIrq s mpp status).workList ≠ [] := by
          rw [rkvdec2SoftCcuIrq, if_pos raised]
          exact workList_queueWork_ne_nil _ mpp
        exact ⟨timed, fun empty => absurd empty queued, fun empty => absurd empty queued,
          fun empty => absurd empty queued⟩
      · rw [rkvdec2SoftCcuIrq, if_neg raised]
        exact inv
  | @trigger task counted =>
      have queued : (queueWork s (usedDevice s task)).workList ≠ [] :=
        workList_queueWork_ne_nil s _
      exact ⟨timed, fun empty => absurd empty queued, fun empty => absurd empty queued,
        fun empty => absurd empty queued⟩
  | late armed => exact ⟨timed, stillUnmarked armed _, uninterrupted, waits⟩
  | handle armed => exact ⟨timed, stillUnmarked armed _, uninterrupted, waits⟩
  | @flag task =>
      refine ⟨timed, fun empty looked other first marked => ?_, uninterrupted, waits⟩
      change Function.update s.timeout task true other = true at marked
      change Function.update s.timeoutWork task .flagged other = _ ∨
        Function.update s.timeoutWork task .flagged other = _
      by_cases same : other = task
      · rw [same, Function.update_self]
        exact Or.inl rfl
      · rw [Function.update_of_ne same] at marked ⊢
        exact unmarked empty looked other first marked
  | @count task =>
      refine ⟨timed, fun empty looked other first marked => ?_, uninterrupted, waits⟩
      change Function.update s.timeoutWork task .counted other = _ ∨
        Function.update s.timeoutWork task .counted other = _
      by_cases same : other = task
      · rw [same, Function.update_self]
        exact Or.inr rfl
      · rw [Function.update_of_ne same]
        exact unmarked empty looked other first marked
  | _ => exact ⟨timed, unmarked, uninterrupted, waits⟩

theorem CoresInv.running_of_working (inv : CoresInv s) (working : rkvdec2CoreWorking s = true) :
    s.runningList ≠ [] := by
  obtain ⟨i, -, seen⟩ := List.any_eq_true.mp working
  cases held : s.cores.cores i with
  | none =>
      rw [held] at seen
      cases seen
  | some core =>
      rw [held, Option.any_some, Bool.and_eq_true, Bool.not_eq_true', Bool.not_eq_true'] at seen
      have on : OnCore s core := by
        by_contra free
        exact absurd (((inv.idle_iff held).mpr free).symm.trans seen.2) (by decide)
      obtain ⟨task, there, -⟩ := on
      exact List.ne_nil_of_mem there

/-- A core that is not disabled and is not offered has a task. -/
theorem CoresInv.running_of_crowded (inv : CoresInv s) (serving : Serving s label)
    (crowded : chosenCore s = none) : s.runningList ≠ [] := by
  obtain ⟨mpp, ⟨i, below, held⟩, enabled⟩ := serving
  have on : OnCore s mpp := by
    by_contra free
    exact not_offered_of_chosenCore inv.cores crowded below
      ⟨held, (inv.idle_iff held).mpr free, enabled⟩
  obtain ⟨task, there, -⟩ := on
  exact List.ne_nil_of_mem there

theorem WakeInv.place (inv : WakeInv s) (selected : s.worker = .getCore task)
    (chosen : chosenCore s = some mpp) :
    WakeInv { pendingToRunning s task mpp with worker := .enqueue task mpp } := by
  have turn : Turn s _ := .place selected chosen
  have looked : s.worker ≠ .dequeue := by
    rw [selected]
    nofun
  have fresh : task ∉ s.started := by
    obtain ⟨rest, pending⟩ := inv.pending_eq selected
    exact inv.pending_not_started (by rw [pending]; exact List.mem_cons_self)
  refine ⟨inv.toTimedInv.turn turn, fun empty _ other first marked => ?_,
    fun empty _ other first elsewhere => ?_, nofun⟩
  all_goals
    change other ∈ (s.runningList ++ [task]).head? at first
    have place : other = task ∨ other ∈ s.runningList.head? ∧ other ∈ s.runningList := by
      cases running : s.runningList with
      | nil =>
          rw [running] at first
          exact Or.inl (Option.some.inj first).symm
      | cons head rest =>
          rw [running] at first
          exact Or.inr ⟨first, List.mem_of_mem_head? first⟩
  · rcases place with rfl | ⟨first, there⟩
    · exact absurd (inv.timers.begun other (Or.inr (Or.inl marked))) fresh
    · have distinct : other ≠ task := fun same => fresh (same ▸ inv.running_started there)
      change Function.update s.timeoutWork task .armed other = .flagged ∨
        Function.update s.timeoutWork task .armed other = .counted
      rw [Function.update_of_ne distinct]
      exact inv.unmarked empty looked other first marked
  · rcases place with rfl | ⟨first, there⟩
    · exact absurd rfl (elsewhere mpp)
    · have distinct : other ≠ task := fun same => fresh (same ▸ inv.running_started there)
      change s.irqStatus ((Function.update s.mpp task (some mpp) other).getD _) = 0
      rw [Function.update_of_ne distinct]
      exact inv.uninterrupted empty looked other first fun mpp => by rw [selected]; nofun

theorem WakeInv.enqueue (inv : WakeInv s) (placed : s.worker = .enqueue task mpp) :
    WakeInv { rkvdec2SoftCcuEnqueue (rkvdec2CcuPowerOn s) mpp with worker := .done } := by
  have turn : Turn s _ := .enqueue placed
  have timed := inv.toTimedInv.turn turn
  have looked : s.worker ≠ .dequeue := by
    rw [placed]
    nofun
  obtain ⟨there, on⟩ := inv.enqueued task mpp placed
  obtain ⟨_, _, _, frame⟩ := rkvdec2CcuPowerOn_frame s
  rw [frame] at timed ⊢
  refine ⟨timed, fun empty _ => inv.unmarked empty looked, fun empty _ other first _ => ?_,
    fun _ _ _ => List.ne_nil_of_mem there⟩
  change Function.update s.irqStatus mpp 0 (usedDevice s other) = 0
  by_cases same : usedDevice s other = mpp
  · rw [same, Function.update_self]
  · rw [Function.update_of_ne same]
    refine inv.uninterrupted empty looked other first fun core enqueued => same ?_
    obtain ⟨rfl, -⟩ := WorkerAt.enqueue.inj (placed.symm.trans enqueued)
    exact usedDevice_of_placed on

/-- A turn that leaves the tasks alone and goes on to `worker`. -/
theorem WakeInv.goOn (inv : WakeInv s) {worker : WorkerAt}
    (turn : Turn s { s with worker := worker }) (looked : s.worker ≠ .dequeue)
    (started : ∀ task mpp, s.worker ≠ .enqueue task mpp)
    (waits : hasLooked worker = true → s.workList = [] → s.pendingList ≠ [] →
      s.runningList ≠ []) : WakeInv { s with worker := worker } where
  toTimedInv := inv.toTimedInv.turn turn
  unmarked := fun empty _ => inv.unmarked empty looked
  uninterrupted := fun empty _ task first _ =>
    inv.uninterrupted empty looked task first (started task)
  waits := fun empty leaves => waits leaves empty

theorem WakeInv.turn (inv : WakeInv s) (serving : Serving s label) (turn : Turn s s') :
    WakeInv s' := by
  have timed := inv.toTimedInv.turn turn
  obtain ⟨-, unmarked, uninterrupted, waits⟩ := id inv
  cases turn with
  | begin =>
      exact ⟨timed, fun _ looked => (looked rfl).elim, fun _ looked => (looked rfl).elim,
        nofun⟩
  | finish now =>
      refine ⟨timed, fun _ looked => (looked now).elim, fun _ looked => (looked now).elim,
        fun _ (leaves : hasLooked s.worker = true) => ?_⟩
      rw [now] at leaves
      cases leaves
  | dequeued now unfinished =>
      refine ⟨timed, fun _ _ task first marked => ?_, fun _ _ task first _ => ?_, nofun⟩
      · have quiet := unfinished task first
        rw [interrupted, Bool.or_eq_false_iff, Bool.or_eq_false_iff] at quiet
        exact absurd (quiet.1.2.symm.trans marked) Bool.false_ne_true
      · have quiet := unfinished task first
        rw [interrupted, Bool.or_eq_false_iff, Bool.or_eq_false_iff] at quiet
        exact bne_eq_false_iff_eq.mp quiet.1.1
  | noReset now unasked =>
      exact inv.goOn (.noReset now unasked) (by rw [now]; nofun) (by rw [now]; nofun) nofun
  | postpone now working =>
      exact inv.goOn (.postpone now working) (by rw [now]; nofun) (by rw [now]; nofun)
        fun _ _ _ => inv.running_of_working working
  | reset now =>
      obtain ⟨_, _, frame⟩ := rkvdec2SoftCcuReset_frame s
      rw [frame] at timed ⊢
      exact ⟨timed, fun empty _ => unmarked empty (by rw [now]; nofun),
        fun empty _ task first _ => uninterrupted empty (by rw [now]; nofun) task first
          (by rw [now]; nofun), nofun⟩
  | noTask now empty =>
      exact inv.goOn (.noTask now empty) (by rw [now]; nofun) (by rw [now]; nofun)
        fun _ _ pending => (pending empty).elim
  | drop now =>
      refine ⟨timed, unmarked, uninterrupted,
        fun _ (leaves : hasLooked s.worker = true) => ?_⟩
      rw [now] at leaves
      cases leaves
  | select now pending wanted =>
      exact inv.goOn (.select now pending wanted) (by rw [now]; nofun) (by rw [now]; nofun) nofun
  | noCore now crowded =>
      exact inv.goOn (.noCore now crowded) (by rw [now]; nofun) (by rw [now]; nofun)
        fun _ _ _ => inv.running_of_crowded serving crowded
  | place selected chosen => exact inv.place selected chosen
  | enqueue placed => exact inv.enqueue placed
  | powerOff now empty =>
      obtain ⟨_, _, _, frame⟩ := rkvdec2CcuPowerOff_frame s
      rw [frame] at timed ⊢
      exact ⟨timed, fun empty _ => unmarked empty (by rw [now]; nofun),
        fun empty _ task first _ => uninterrupted empty (by rw [now]; nofun) task first
          (by rw [now]; nofun), fun empty _ => waits empty (by rw [now]; rfl)⟩
  | leave now running =>
      exact inv.goOn (.leave now running) (by rw [now]; nofun) (by rw [now]; nofun)
        fun _ _ _ => running

theorem WakeInv.step (inv : WakeInv s) (serving : Serving s label)
    (taken : softStep s label = some s') : WakeInv s' := by
  rcases cases_of_softStep taken with event | ⟨-, turn⟩
  · exact inv.event event
  · exact inv.turn serving turn

instance (s : SoftState) (label : SoftLabel) : Decidable (Serving s label) :=
  decidable_of_iff (∃ i ∈ List.range s.cores.coreCount, ∃ mpp ∈ s.cores.cores i,
      s.disableWork mpp = false) <| by
    constructor
    · rintro ⟨i, below, mpp, held, enabled⟩
      exact ⟨mpp, ⟨i, List.mem_range.mp below, held⟩, enabled⟩
    · rintro ⟨mpp, ⟨i, below, held⟩, enabled⟩
      exact ⟨i, List.mem_range.mpr below, mpp, held, enabled⟩

/-- Cores 0 and 1 are probed in this order. -/
def twoCores : ProbedCores where
  cores := mppAttachWorkqueue (mppAttachWorkqueue (emptyQueue ownIds) 0) 1
  inv := ((coreInv_emptyQueue ownIds).attach fun _ => ⟨by decide, rfl⟩).attach
    fun _ => ⟨by decide, rfl⟩
  free := fun _ => rfl

/-- Two tasks are started; core 0 reports an error and the timer of the other task expires; both are
finished and their cores reset. -/
def errorAndTimeout : List SoftLabel :=
  [.processTask 7 0, .processTask 8 1] ++ List.replicate 14 .worker ++ [.irq 0 0x12] ++
    List.replicate 4 (.timeoutWork 8) ++ List.replicate 7 .worker

example : (runs softStep twoCores.start errorAndTimeout).map (fun s =>
    (s.finished, s.powerEnabled, s.resetRequest 0, s.resetRequest 1)) =
      some ([7, 8], false, 0, 0) := by
  decide +kernel

end SoftCcu
end Mpp
end RockchipSoc
