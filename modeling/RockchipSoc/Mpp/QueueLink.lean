import RockchipSoc.Mpp.TaskLinks

/-!
# The link in the queue

A task is linked once in the queue and one call at most will remove that link: the worker until
the task is started, and from then on whoever takes the `HANDLE` bit, the timeout or the
interrupt, which reaches the task through `cur_task` of a device that serves nothing else.
-/

namespace RockchipSoc
namespace Mpp

open LabelledRun ActionPool

variable {cfg : MppConfig} {s s' : MppState} {choice : Choice} {head : Action}
  {pushed rest : List Action} {n t d k : Nat}

def started (s : MppState) (t : Nat) : Bool := (s.tasks t).state .start

def handled (s : MppState) (t : Nat) : Bool := (s.tasks t).state .handle

theorem started_setBit (s : MppState) (t k : Nat) {bit : TaskState} (other : bit ≠ .start) :
    started (setBit s t bit) k = started s k := by
  have same : (TaskState.start == bit) = false := by simpa using other.symm
  simp [started, setBit, same]

theorem handled_setBit (s : MppState) (t k : Nat) {bit : TaskState} (other : bit ≠ .handle) :
    handled (setBit s t bit) k = handled s k := by
  have same : (TaskState.handle == bit) = false := by simpa using other.symm
  simp [handled, setBit, same]

theorem started_setBit_start (s : MppState) (t k : Nat) :
    started (setBit s t .start) k = (started s k || k == t) := by
  simp [started, setBit]

theorem handled_setBit_handle (s : MppState) (t k : Nat) :
    handled (setBit s t .handle) k = (handled s k || k == t) := by
  simp [handled, setBit]

theorem handled_mono {s : MppState} (t : Nat) (bit : TaskState) (claimed : handled s k = true) :
    handled (setBit s t bit) k = true := by
  have before : (s.tasks k).state .handle = true := claimed
  simp [handled, setBit, before]

/-- The link of one task in the queue, and the calls that are entitled to remove it. -/
structure QueueSide (s : MppState) (t : Nat) : Prop where
  once : num s (toQueue t) + inPending s t + inRunning s t ≤ 1
  claimed : num s (works t) + num s (ends s.curTask t) ≤ inPending s t + inRunning s t
  movedOut : num s (moved t) = 0 ∨ inPending s t = 0
  running : started s t = true →
    num s (toQueue t) = 0 ∧ inPending s t = 0 ∧ num s (works t) = 0
  free : started s t = true → handled s t = false →
    inRunning s t = 1 ∧ num s (ends s.curTask t) = 0
  idle : started s t = false → num s (ends s.curTask t) = 0 ∧ handled s t = false

/-- The task that the device works on is not claimed yet. -/
def unclaimed (s : MppState) (d : Nat) : Nat :=
  match s.curTask d with
  | some t => if handled s t then 0 else 1
  | none => 0

/-- A core that the `prepare` hook may hand out. -/
def idleToken (cfg : MppConfig) (s : MppState) (d : Nat) : Nat :=
  if cfg.prepare && s.queue.coreIdle d then 1 else 0

/-- A device has one user: the worker, the task it works on, its interrupt thread, or nobody. -/
structure DeviceSide (cfg : MppConfig) (s : MppState) (d : Nat) : Prop where
  one : num s (serves d) + unclaimed s d + num s (isrs d) + idleToken cfg s d ≤ 1
  read : ∀ t, .irqClaim d (some t) ∈ pending s.threads → handled s t = false →
    s.curTask d = some t
  cancel : ∀ t wake, .irqCancel d t wake ∈ pending s.threads → s.curTask d = some t
  woken : .isrRead d ∈ pending s.threads → s.curTask d ≠ none
  direct : cfg.prepare = false → .setCoreIdle d ∉ pending s.threads

/-- Whatever refers to a started task refers to one that is started. -/
structure StartNamed (s : MppState) : Prop where
  pendingNamed : ∀ action ∈ pending s.threads, ∀ t, takesStarted action = some t →
    started s t = true
  scheduled : ∀ t, (s.tasks t).timeoutWork = true → started s t = true
  current : ∀ d t, s.curTask d = some t → started s t = true

/-! ## Counts under a change of `cur_task` -/

/-- The interrupt thread of the device is not about to read `cur_task`. -/
theorem num_ends_setCurTask (task : Option Nat) (quiet : .isrRead d ∉ pending s.threads) (k : Nat) :
    num s (ends (setCurTask s d task).curTask k) = num s (ends s.curTask k) := by
  refine List.countP_congr fun action member => ?_
  cases action with
  | isrRead other =>
      have different : other ≠ d := fun same => quiet (same ▸ member)
      simp [ends, setCurTask, different]
  | popRunning _ caller => cases caller <;> rfl
  | _ => rfl

theorem num_moved_le (s : MppState) (t : Nat) : num s (moved t) ≤ num s (works t) :=
  num_le_num s fun action counted => by
    cases action with
    | setGrf | schedule => exact counted
    | _ => cases counted

/-- While the worker executes an action of its pass, it has nothing else in hand. -/
theorem WorkerAlone.num_eq_zero (alone : WorkerAlone s)
    (current : s.threads[n]? = some (head :: rest)) (worker : isWorker head = true)
    {p : Action → Bool} (others : p head = false)
    (inside : ∀ action, p action = true → isWorker action = true) : num s p = 0 := by
  refine List.countP_eq_zero.mpr fun action member counted => ?_
  have different : head ≠ action := fun same => by simp [same, counted] at others
  have two := two_le_countP (head_mem_pending current) member different worker
    (inside action counted)
  have one := alone.num_le_one
  have : num s isWorker = (pending s.threads).countP isWorker := rfl
  omega

theorem isWorker_of_works (counted : works t head = true) : isWorker head = true := by
  cases head with
  | popRunning _ caller =>
      cases caller with
      | worker => rfl
      | isr | timeoutWork => cases counted
  | abortCheck | popPending | admission | toRun | setGrf | schedule => rfl
  | _ => cases counted

theorem isWorker_of_serves (counted : serves d head = true) : isWorker head = true := by
  cases head with
  | toRun | setGrf | schedule | run => rfl
  | _ => cases counted

/-- The one user of a device is about to act: there is no other. -/
theorem DeviceSide.isrRead_not_mem (side : DeviceSide cfg s d)
    (current : s.threads[n]? = some (head :: rest))
    (uses : serves d head = true ∨ isrs d head = true) (other : head ≠ .isrRead d) :
    .isrRead d ∉ pending s.threads := by
  intro member
  have one := side.one
  have woken : isrs d (.isrRead d) = true := by simp [isrs]
  have reads := one_le_num member woken
  rcases uses with serving | ending
  · have := one_le_num (head_mem_pending current) serving
    omega
  · have two := two_le_countP (head_mem_pending current) member other ending woken
    have : num s (isrs d) = (pending s.threads).countP (isrs d) := rfl
    omega

/-! ## One task -/

theorem QueueSide.same (side : QueueSide s t)
    (sameBits : started s' t = started s t ∧ handled s' t = handled s t)
    (sameLists : inPending s' t = inPending s t ∧ inRunning s' t = inRunning s t)
    (linking : num s' (toQueue t) ≤ num s (toQueue t))
    (working : num s' (works t) ≤ num s (works t)) (moves : num s' (moved t) ≤ num s (moved t))
    (ending : num s' (ends s'.curTask t) ≤ num s (ends s.curTask t)) : QueueSide s' t := by
  obtain ⟨bitStarted, bitHandled⟩ := sameBits
  obtain ⟨listPending, listRunning⟩ := sameLists
  have once := side.once
  have claimed := side.claimed
  have movedOut := side.movedOut
  refine ⟨by omega, by omega, by omega, fun runs => ?_, fun runs open' => ?_, fun waits => ?_⟩
  · have := side.running (bitStarted ▸ runs)
    omega
  · have := side.free (bitStarted ▸ runs) (bitHandled ▸ open')
    omega
  · have := side.idle (bitStarted ▸ waits)
    exact ⟨by omega, bitHandled.trans this.2⟩

theorem QueueSide.keep (side : QueueSide s t) (current : s.threads[n]? = some (head :: rest))
    (sameCur : s'.curTask = s.curTask)
    (sameBits : started s' t = started s t ∧ handled s' t = handled s t)
    (sameLists : inPending s' t = inPending s t ∧ inRunning s' t = inRunning s t)
    (linking : pushed.countP (toQueue t) ≤ [head].countP (toQueue t))
    (working : pushed.countP (works t) ≤ [head].countP (works t))
    (moves : pushed.countP (moved t) ≤ [head].countP (moved t))
    (ending : pushed.countP (ends s.curTask t) ≤ [head].countP (ends s.curTask t)) :
    QueueSide (resume s' s.threads n pushed rest) t := by
  have toLink := num_resume s' pushed (toQueue t) current
  have toWork := num_resume s' pushed (works t) current
  have toMove := num_resume s' pushed (moved t) current
  have toEnd := num_resume s' pushed (ends s.curTask t) current
  have cur : (resume s' s.threads n pushed rest).curTask = s.curTask := sameCur
  refine side.same sameBits sameLists (by omega) (by omega) (by omega) ?_
  rw [cur]
  omega

/-- An action that pushes nothing about the task leaves it alone. -/
theorem QueueSide.leave (side : QueueSide s t) (current : s.threads[n]? = some (head :: rest))
    (sameCur : s'.curTask = s.curTask)
    (sameBits : started s' t = started s t ∧ handled s' t = handled s t)
    (sameLists : inPending s' t = inPending s t ∧ inRunning s' t = inRunning s t)
    (quiet : ∀ action ∈ pushed, toQueue t action = false ∧ works t action = false ∧
      ends s.curTask t action = false) : QueueSide (resume s' s.threads n pushed rest) t := by
  have none : ∀ p : Action → Bool, (∀ action ∈ pushed, p action = false) →
      pushed.countP p ≤ [head].countP p := fun p no => by
    rw [List.countP_eq_zero.mpr fun action member => by simp [no action member]]
    exact Nat.zero_le _
  refine side.keep current sameCur sameBits sameLists (none _ fun action member =>
    (quiet action member).1) (none _ fun action member => (quiet action member).2.1) (none _ ?_)
    (none _ fun action member => (quiet action member).2.2)
  intro action member
  have working := (quiet action member).2.1
  cases action with
  | setGrf | schedule => exact working
  | _ => rfl

/-- The task waits in the queue; the worker may have it in hand. -/
theorem QueueSide.waiting (linking : num s (toQueue t) = 0)
    (lists : inPending s t = 1 ∧ inRunning s t = 0) (working : num s (works t) ≤ 1)
    (moves : num s (moved t) = 0) (ending : num s (ends s.curTask t) = 0)
    (bits : started s t = false ∧ handled s t = false) : QueueSide s t := by
  obtain ⟨listPending, listRunning⟩ := lists
  refine ⟨by omega, by omega, Or.inl moves, fun runs => ?_, fun runs => ?_,
    fun _ => ⟨ending, bits.2⟩⟩
  · simp [bits.1] at runs
  · simp [bits.1] at runs

/-- The task is in the running list and nobody has claimed it. -/
theorem QueueSide.unclaimed (linking : num s (toQueue t) = 0)
    (lists : inPending s t = 0 ∧ inRunning s t = 1) (working : num s (works t) ≤ 1)
    (ending : num s (ends s.curTask t) = 0) (open' : handled s t = false)
    (given : started s t = true → num s (works t) = 0) : QueueSide s t := by
  obtain ⟨listPending, listRunning⟩ := lists
  exact ⟨by omega, by omega, Or.inr listPending, fun runs => ⟨linking, listPending, given runs⟩,
    fun _ _ => ⟨listRunning, ending⟩, fun _ => ⟨ending, open'⟩⟩

/-- The `HANDLE` bit of a started task is taken by one call. -/
theorem QueueSide.claim (side : QueueSide s t) (free : started s t = true ∧ handled s t = false)
    (sameStarted : started s' t = started s t)
    (sameLists : inPending s' t = inPending s t ∧ inRunning s' t = inRunning s t)
    (claims : handled s' t = true) (linking : num s' (toQueue t) = num s (toQueue t))
    (working : num s' (works t) = num s (works t))
    (ending : num s' (ends s'.curTask t) = num s (ends s.curTask t) + 1) : QueueSide s' t := by
  obtain ⟨listPending, listRunning⟩ := sameLists
  obtain ⟨runs, open'⟩ := free
  have running := side.running runs
  have unclaimed := side.free runs open'
  refine ⟨by omega, by omega, by omega, fun _ => by omega, fun _ unhandled => ?_, fun waits => ?_⟩
  · simp [claims] at unhandled
  · simp [sameStarted, runs] at waits

/-- A call that is entitled to it removes the link. -/
theorem QueueSide.unlink (side : QueueSide s t)
    (entitled : 1 ≤ num s (works t) + num s (ends s.curTask t))
    (lists : inPending s' t = inPending s t - 1 ∧ inRunning s' t = inRunning s t - 1)
    (sameBits : started s' t = started s t ∧ handled s' t = handled s t)
    (linking : num s' (toQueue t) = num s (toQueue t))
    (working : num s' (works t) = 0) (ending : num s' (ends s'.curTask t) = 0) :
    QueueSide s' t := by
  obtain ⟨listPending, listRunning⟩ := lists
  obtain ⟨bitStarted, bitHandled⟩ := sameBits
  have once := side.once
  have claimed := side.claimed
  refine ⟨by omega, by omega, by omega, fun runs => ?_, fun runs open' => ?_, fun waits => ?_⟩
  · have := side.running (bitStarted ▸ runs)
    omega
  · have free := side.free (bitStarted ▸ runs) (bitHandled ▸ open')
    have := side.running (bitStarted ▸ runs)
    omega
  · exact ⟨ending, bitHandled.trans (side.idle (bitStarted ▸ waits)).2⟩

theorem QueueSide.not_started (side : QueueSide s t)
    (waits : 1 ≤ num s (toQueue t) + inPending s t + num s (works t)) : started s t = false := by
  cases runs : started s t with
  | false => rfl
  | true =>
      have := side.running runs
      omega

/-- The interrupt or the timeout takes the `HANDLE` bit. -/
theorem queueSide_claim (side : QueueSide s k) (current : s.threads[n]? = some (head :: rest))
    (runs : started s t = true) (free : handled s t = false)
    (quiet : toQueue k head = false ∧ works k head = false ∧ ends s.curTask k head = false)
    {action : Action} (claims : ends s.curTask k action = (t == k))
    (others : toQueue k action = false ∧ works k action = false) :
    QueueSide (resume (setBit s t .handle) s.threads n [action] rest) k := by
  have toLink := num_resume (setBit s t .handle) [action] (toQueue k) current
  have toWork := num_resume (setBit s t .handle) [action] (works k) current
  have toEnd := num_resume (setBit s t .handle) [action] (ends s.curTask k) current
  simp only [List.countP_singleton, quiet, others, claims, beq_iff_eq, Bool.false_eq_true,
    if_false] at toLink toWork toEnd
  by_cases same : t = k
  · subst same
    rw [if_pos rfl] at toEnd
    refine side.claim ⟨runs, free⟩ (started_setBit s t t (by decide)) ⟨rfl, rfl⟩ ?_ (by omega)
      (by omega) toEnd
    exact (handled_setBit_handle s t t).trans (by simp)
  · refine side.leave current rfl ⟨started_setBit s t k (by decide), ?_⟩ ⟨rfl, rfl⟩
      (by simp [others, claims, same])
    exact (handled_setBit_handle s t k).trans (by simp [Ne.symm same])

/-- The worker, the interrupt or the timeout pops the task. -/
theorem queueSide_pop (side : QueueSide s k) (current : s.threads[n]? = some (head :: rest))
    (entitled : works t head = true ∨ ends s.curTask t head = true) :
    QueueSide (resume (unlinkQueue s t) s.threads n [.put t] rest) k := by
  have lists := And.intro (inPending_unlink s t k) (inRunning_unlink s t k)
  by_cases same : t = k
  · subst same
    have toWork := num_resume (unlinkQueue s t) [.put t] (works t) current
    have toEnd := num_resume (unlinkQueue s t) [.put t] (ends s.curTask t) current
    have toLink := num_resume (unlinkQueue s t) [.put t] (toQueue t) current
    have unlinked : toQueue t head = false := by
      cases head with
      | submit => simp [works, ends] at entitled
      | _ => rfl
    have once := side.once
    have claimed := side.claimed
    have stays : [head].countP (toQueue t) = 0 := by simp [unlinked]
    have links : [Action.put t].countP (toQueue t) = 0 := rfl
    have working : [Action.put t].countP (works t) = 0 := rfl
    have ending : [Action.put t].countP (ends s.curTask t) = 0 := rfl
    rw [if_pos rfl] at lists
    rcases entitled with byWorker | byClaim
    · have counted : [head].countP (works t) = 1 := by simp [byWorker]
      have none : num (resume (unlinkQueue s t) s.threads n [.put t] rest) (ends s.curTask t) = 0 :=
        by omega
      exact side.unlink (by omega) lists ⟨rfl, rfl⟩ (by omega) (by omega) none
    · have counted : [head].countP (ends s.curTask t) = 1 := by simp [byClaim]
      have none : num (resume (unlinkQueue s t) s.threads n [.put t] rest) (ends s.curTask t) = 0 :=
        by omega
      exact side.unlink (by omega) lists ⟨rfl, rfl⟩ (by omega) (by omega) none
  · rw [if_neg same] at lists
    exact side.leave current rfl ⟨rfl, rfl⟩ lists (by simp [toQueue, works, ends])

/-- `cur_task` of a device changes while its interrupt thread is not about to read it. -/
theorem queueSide_setCurTask (side : QueueSide s k) (device : DeviceSide cfg s d)
    (current : s.threads[n]? = some (head :: rest))
    (uses : serves d head = true ∨ isrs d head = true) (other : head ≠ .isrRead d)
    (task : Option Nat) (linking : pushed.countP (toQueue k) ≤ [head].countP (toQueue k))
    (working : pushed.countP (works k) ≤ [head].countP (works k))
    (moves : pushed.countP (moved k) ≤ [head].countP (moved k))
    (ending : pushed.countP (ends (setCurTask s d task).curTask k) ≤
      [head].countP (ends (setCurTask s d task).curTask k)) :
    QueueSide (resume (setCurTask s d task) s.threads n pushed rest) k := by
  have toLink := num_resume (setCurTask s d task) pushed (toQueue k) current
  have toWork := num_resume (setCurTask s d task) pushed (works k) current
  have toMove := num_resume (setCurTask s d task) pushed (moved k) current
  have toEnd := num_resume (setCurTask s d task) pushed (ends (setCurTask s d task).curTask k)
    current
  have quiet := num_ends_setCurTask task (device.isrRead_not_mem current uses other) k
  have fewer : num (resume (setCurTask s d task) s.threads n pushed rest)
    (ends (setCurTask s d task).curTask k) ≤ num s (ends s.curTask k) := by omega
  exact side.same ⟨rfl, rfl⟩ ⟨rfl, rfl⟩ (by omega) (by omega) (by omega) fewer

theorem queueSide_of_effect (sides : ∀ k, QueueSide s k)
    (devices : ∀ d, DeviceSide cfg s d) (named : StartNamed s) (alone : WorkerAlone s)
    (current : s.threads[n]? = some (head :: rest))
    (effect : Effect cfg s choice head s' pushed) (orderly : Orderly cfg s choice head) (k : Nat) :
    QueueSide (resume s' s.threads n pushed rest) k := by
  have side := sides k
  have bits : ∀ {bit : TaskState} (t : Nat), bit ≠ .start → bit ≠ .handle →
      started (setBit s t bit) k = started s k ∧ handled (setBit s t bit) k = handled s k :=
    fun t notStart notHandle => ⟨started_setBit s t k notStart, handled_setBit s t k notHandle⟩
  have toLink := num_resume s' pushed (toQueue k) current
  have toWork := num_resume s' pushed (works k) current
  have toMove := num_resume s' pushed (moved k) current
  have toEnd : s'.curTask = s.curTask →
      num (resume s' s.threads n pushed rest) (ends (resume s' s.threads n pushed rest).curTask k) +
        [head].countP (ends s.curTask k) =
      num s (ends s.curTask k) + pushed.countP (ends s.curTask k) := by
    intro sameCur
    have cur : (resume s' s.threads n pushed rest).curTask = s.curTask := sameCur
    rw [cur]
    exact num_resume s' pushed (ends s.curTask k) current
  have once := side.once
  have claimed := side.claimed
  cases effect with
  | irqSpurious wakes => exact absurd wakes orderly
  | @queueLinked t d =>
      by_cases same : t = k
      · subst same
        have toEnd := toEnd rfl
        have moves := num_moved_le s t
        simp only [List.countP_singleton, toQueue, works, moved, ends, beq_self_eq_true,
          if_true, Bool.false_eq_true, if_false] at toLink toWork toMove toEnd
        have waits := side.not_started (by omega)
        have idle := side.idle waits
        refine QueueSide.waiting (by omega) ⟨(inPending_link s t t).trans ?_, ?_⟩ (by omega)
          (by omega) (by omega) ⟨waits, idle.2⟩
        · rw [if_pos rfl]
          omega
        · exact (by omega : inRunning s t = 0)
      · refine side.leave current rfl ⟨rfl, rfl⟩ ⟨?_, rfl⟩ (by simp [toQueue, works, ends])
        exact (inPending_link s t k).trans (by rw [if_neg same, Nat.add_zero])
  | @irqClaimed d t free =>
      exact queueSide_claim side current (named.pendingNamed _ (head_mem_pending current) t rfl)
        free ⟨rfl, rfl, rfl⟩ rfl ⟨rfl, rfl⟩
  | @irqCancelled d t wake =>
      have cur := (devices d).cancel t wake (head_mem_pending current)
      refine side.keep current rfl (bits t (by decide) (by decide)) ⟨rfl, rfl⟩
        (Nat.le_of_eq (countP_wake wake rfl)) (Nat.le_of_eq (countP_wake wake rfl))
        (Nat.le_of_eq (countP_wake wake rfl)) ?_
      cases wake <;> simp [ends, cur]
  | @isrTask d t cur =>
      refine side.keep current rfl ⟨rfl, rfl⟩ ⟨rfl, rfl⟩ (Nat.le_refl _) (Nat.le_refl _)
        (Nat.le_refl _) ?_
      simp [List.countP_singleton, ends, cur]
  | @isrCleared d t =>
      exact queueSide_setCurTask side (devices d) current (Or.inr (by simp [isrs])) (by simp) none
        (Nat.le_refl _) (Nat.le_refl _) (Nat.le_refl _) (Nat.le_refl _)
  | @timeoutClaimed t free =>
      exact queueSide_claim side current (named.pendingNamed _ (head_mem_pending current) t rfl)
        free ⟨rfl, rfl, rfl⟩ rfl ⟨rfl, rfl⟩
  | @fetched t queue listed =>
      by_cases same : t = k
      · subst same
        have toEnd := toEnd rfl
        simp only [List.countP_singleton, toQueue, works, moved, ends, beq_self_eq_true,
          if_true, Bool.false_eq_true, if_false] at toLink toWork toMove toEnd
        have linked : 1 ≤ inPending s t := List.count_pos_iff.mpr (by simp [listed])
        have none : num s (works t) = 0 :=
          alone.num_eq_zero current rfl rfl fun _ => isWorker_of_works
        have moves := num_moved_le s t
        have waits := side.not_started (by omega)
        have idle := side.idle waits
        exact QueueSide.waiting (by omega) ⟨(by omega : inPending s t = 1),
          (by omega : inRunning s t = 0)⟩ (by omega) (by omega) (by omega) ⟨waits, idle.2⟩
      · exact side.leave current rfl ⟨rfl, rfl⟩ ⟨rfl, rfl⟩ (by simp [toQueue, works, ends, same])
  | @pendingPopped t => exact queueSide_pop side current (Or.inl (by simp [works]))
  | @movedToRun t d =>
      by_cases same : t = k
      · subst same
        have toEnd := toEnd rfl
        have inHand : 1 ≤ num s (works t) :=
          one_le_num (head_mem_pending current) (by simp [works])
        simp only [List.countP_singleton, toQueue, works, moved, ends, beq_self_eq_true,
          if_true, Bool.false_eq_true, if_false] at toLink toWork toMove toEnd
        have waits := side.not_started (by omega)
        have idle := (side.idle waits).1
        refine QueueSide.unclaimed (by omega) ⟨(inPending_toRun s t t).trans ?_,
          (inRunning_toRun s t t).trans ?_⟩ (by omega) (by omega) (side.idle waits).2 fun runs => ?_
        · rw [if_pos rfl]
          omega
        · rw [if_pos rfl]
          omega
        · exact absurd (waits.symm.trans runs) (by simp)
      · refine side.leave current rfl ⟨rfl, rfl⟩ ⟨(inPending_toRun s t k).trans ?_,
          (inRunning_toRun s t k).trans ?_⟩ (by simp [toQueue, works, ends, same])
        · rw [if_neg same, Nat.sub_zero]
        · rw [if_neg same, Nat.sub_zero, Nat.add_zero]
  | @scheduled t d =>
      by_cases same : t = k
      · subst same
        have toEnd := toEnd rfl
        have movedOut := side.movedOut
        simp only [List.countP_singleton, toQueue, works, moved, ends, beq_self_eq_true,
          if_true, Bool.false_eq_true, if_false] at toLink toWork toMove toEnd
        have waits := side.not_started (by omega)
        have idle := (side.idle waits).1
        refine QueueSide.unclaimed (by omega) ⟨(by omega : inPending s t = 0),
          (by omega : inRunning s t = 1)⟩ (by omega) (by omega) ?_ fun _ => (by omega)
        exact (handled_setBit s t t (by decide)).trans (side.idle waits).2
      · refine side.leave current rfl ⟨?_, handled_setBit s t k (by decide)⟩ ⟨rfl, rfl⟩
          (by simp [toQueue, works, ends])
        exact (started_setBit_start s t k).trans (by simp [Ne.symm same])
  | @started t d =>
      exact queueSide_setCurTask side (devices d) current (Or.inl (by simp [serves])) (by simp)
        (some t) (Nat.zero_le _) (Nat.zero_le _) (Nat.zero_le _) (Nat.zero_le _)
  | @runningPopped t caller =>
      refine queueSide_pop side current ?_
      cases caller with
      | worker => exact Or.inl (by simp [works])
      | isr | timeoutWork => exact Or.inr (by simp [ends])
  | grfFailed =>
      exact side.keep current rfl (bits _ (by decide) (by decide)) ⟨rfl, rfl⟩ (Nat.le_refl _)
        (Nat.le_refl _) (Nat.zero_le _) (Nat.le_refl _)
  | submitted | gaveUp | grfSet =>
      exact side.keep current rfl (bits _ (by decide) (by decide)) ⟨rfl, rfl⟩ (Nat.le_refl _)
        (Nat.le_refl _) (Nat.le_refl _) (Nat.le_refl _)
  | @timeoutDone t =>
      refine side.keep current rfl ⟨?_, ?_⟩ ⟨rfl, rfl⟩ (Nat.le_refl _) (Nat.le_refl _)
        (Nat.le_refl _) (Nat.le_refl _)
      · exact (started_setBit _ t k (by decide)).trans (started_setBit s t k (by decide))
      · exact (handled_setBit _ t k (by decide)).trans (handled_setBit s t k (by decide))
  | @finished d t =>
      refine side.keep current rfl ⟨?_, ?_⟩ ⟨rfl, rfl⟩ ?_ ?_ ?_ ?_
      · exact (started_setBit _ t k (by decide)).trans (started_setBit s t k (by decide))
      · exact (handled_setBit _ t k (by decide)).trans (handled_setBit s t k (by decide))
      all_goals
        rw [countP_finish _ rfl]
        split <;> exact Nat.le_refl _
  | @cleared session =>
      refine side.leave current rfl ⟨rfl, rfl⟩ ⟨rfl, rfl⟩ fun action member => ?_
      obtain ⟨t, _, rfl⟩ := List.mem_map.mp member
      exact ⟨rfl, rfl, rfl⟩
  | @sessionDetached session =>
      refine side.leave current rfl ⟨rfl, rfl⟩ ⟨rfl, rfl⟩ fun action member => ?_
      obtain ⟨d, _, rfl⟩ := Option.map_eq_some_iff.mp (Option.mem_toList.mp member)
      exact ⟨rfl, rfl, rfl⟩
  | @deinitBegins session =>
      refine side.leave current rfl ⟨rfl, rfl⟩ ⟨rfl, rfl⟩ fun action member => ?_
      rcases List.mem_append.mp member with clears | frees
      · split at clears
        · cases clears
        · obtain rfl := List.mem_singleton.mp clears
          exact ⟨rfl, rfl, rfl⟩
      · obtain rfl := List.mem_singleton.mp frees
        exact ⟨rfl, rfl, rfl⟩
  | allBusy | busy | isrIdle =>
      exact side.keep current rfl ⟨rfl, rfl⟩ ⟨rfl, rfl⟩ (Nat.zero_le _) (Nat.zero_le _)
        (Nat.zero_le _) (Nat.zero_le _)
  | _ =>
      exact side.keep current rfl ⟨rfl, rfl⟩ ⟨rfl, rfl⟩ (Nat.le_refl _) (Nat.le_refl _)
        (Nat.le_refl _) (Nat.le_refl _)

/-! ## One device -/

/-- The actions whose task is read from `cur_task` of the device, or that give the core back. -/
def refersTo (d : Nat) : Action → Bool
  | .irqClaim k (some _) | .irqCancel k _ _ | .isrRead k | .setCoreIdle k => k == d
  | _ => false

theorem unclaimed_le (s : MppState) (d : Nat) : unclaimed s d ≤ 1 := by
  rw [unclaimed]
  split
  · split <;> omega
  · omega

theorem unclaimed_eq_one {s : MppState} (cur : s.curTask d = some t) (free : handled s t = false) :
    unclaimed s d = 1 := by
  simp [unclaimed, cur, free]

theorem exists_of_unclaimed (some' : unclaimed s d ≠ 0) :
    ∃ t, s.curTask d = some t ∧ handled s t = false := by
  rw [unclaimed] at some'
  split at some'
  · next t cur =>
      refine ⟨t, cur, ?_⟩
      cases free : handled s t with
      | false => rfl
      | true => simp [free] at some'
  · exact absurd rfl some'

theorem unclaimed_le_of_handled (sameCur : s'.curTask d = s.curTask d)
    (keeps : ∀ t, handled s t = true → handled s' t = true) : unclaimed s' d ≤ unclaimed s d := by
  by_cases none : unclaimed s' d = 0
  · omega
  · obtain ⟨t, cur, free⟩ := exists_of_unclaimed none
    have before : handled s t = false := by
      cases claimed : handled s t with
      | false => rfl
      | true => simp [keeps t claimed] at free
    have := unclaimed_eq_one (sameCur ▸ cur) before
    have := unclaimed_le s' d
    omega

/-- What such an action may rely on. -/
def RefersWell (cfg : MppConfig) (s : MppState) (d : Nat) : Action → Prop
  | .irqClaim _ (some t) => handled s t = false → s.curTask d = some t
  | .irqCancel _ t _ => s.curTask d = some t
  | .isrRead _ => s.curTask d ≠ none
  | .setCoreIdle _ => cfg.prepare = true
  | _ => True

theorem DeviceSide.refersWell (side : DeviceSide cfg s d) {action : Action}
    (member : action ∈ pending s.threads) (refers : refersTo d action = true) :
    RefersWell cfg s d action := by
  cases action with
  | irqClaim k task =>
      cases task with
      | none => trivial
      | some t =>
          obtain rfl : k = d := by simpa [refersTo] using refers
          exact side.read t member
  | irqCancel k t wake =>
      obtain rfl : k = d := by simpa [refersTo] using refers
      exact side.cancel t wake member
  | isrRead k =>
      obtain rfl : k = d := by simpa [refersTo] using refers
      exact side.woken member
  | setCoreIdle k =>
      obtain rfl : k = d := by simpa [refersTo] using refers
      cases given : cfg.prepare with
      | true => exact given
      | false => exact absurd member (side.direct given)
  | _ => trivial

theorem DeviceSide.same (side : DeviceSide cfg s d) (sameCur : s'.curTask d = s.curTask d)
    (keeps : ∀ t, handled s t = true → handled s' t = true)
    (count : num s' (serves d) + unclaimed s' d + num s' (isrs d) + idleToken cfg s' d ≤
      num s (serves d) + unclaimed s d + num s (isrs d) + idleToken cfg s d)
    (pushes : ∀ action ∈ pending s'.threads, refersTo d action = true →
      action ∈ pending s.threads ∨ RefersWell cfg s' d action) : DeviceSide cfg s' d := by
  have well : ∀ action ∈ pending s'.threads, refersTo d action = true →
      RefersWell cfg s' d action := by
    intro action member refers
    rcases pushes action member refers with old | new
    · have before := side.refersWell old refers
      cases action with
      | irqClaim _ task =>
          cases task with
          | none => trivial
          | some t =>
              refine fun open' => sameCur.trans (before ?_)
              cases claimed : handled s t with
              | false => rfl
              | true => simp [keeps t claimed] at open'
      | irqCancel => exact sameCur.trans before
      | isrRead => exact fun idle => before (sameCur.symm.trans idle)
      | setCoreIdle => exact before
      | _ => trivial
    · exact new
  refine ⟨Nat.le_trans count side.one, fun t member => well _ member (by simp [refersTo]),
    fun t wake member => well _ member (by simp [refersTo]),
    fun member => well _ member (by simp [refersTo]), fun direct member => ?_⟩
  have given : cfg.prepare = true := well _ member (by simp [refersTo])
  simp [given] at direct

theorem DeviceSide.keep (side : DeviceSide cfg s d) (current : s.threads[n]? = some (head :: rest))
    (sameCur : s'.curTask d = s.curTask d)
    (keeps : ∀ t, handled s t = true → handled s' t = true)
    (count : pushed.countP (serves d) + pushed.countP (isrs d) + unclaimed s' d +
        idleToken cfg s' d ≤
      [head].countP (serves d) + [head].countP (isrs d) + unclaimed s d + idleToken cfg s d)
    (pushes : ∀ action ∈ pushed, refersTo d action = true → RefersWell cfg s' d action) :
    DeviceSide cfg (resume s' s.threads n pushed rest) d := by
  have toServe := num_resume s' pushed (serves d) current
  have toEnd := num_resume s' pushed (isrs d) current
  have open' : unclaimed (resume s' s.threads n pushed rest) d = unclaimed s' d := rfl
  have token : idleToken cfg (resume s' s.threads n pushed rest) d = idleToken cfg s' d := rfl
  exact side.same sameCur keeps (by omega) fun action member refers =>
    (mem_pending_set current member).elim (fun new => Or.inr (pushes action new refers)) Or.inl

/-- An action that changes nothing of the device. -/
theorem DeviceSide.leave (side : DeviceSide cfg s d) (current : s.threads[n]? = some (head :: rest))
    (sameCur : s'.curTask d = s.curTask d)
    (keeps : ∀ t, handled s t = true → handled s' t = true)
    (token : idleToken cfg s' d = idleToken cfg s d)
    (quiet : ∀ action ∈ pushed, serves d action = false ∧ isrs d action = false ∧
      refersTo d action = false) : DeviceSide cfg (resume s' s.threads n pushed rest) d := by
  have none : ∀ p : Action → Bool, (∀ action ∈ pushed, p action = false) →
      pushed.countP p = 0 := fun p no =>
    List.countP_eq_zero.mpr fun action member => by simp [no action member]
  have serving := none (serves d) fun action member => (quiet action member).1
  have ending := none (isrs d) fun action member => (quiet action member).2.1
  have open' := unclaimed_le_of_handled sameCur keeps
  refine side.keep current sameCur keeps (by omega) fun action member refers => ?_
  simp [(quiet action member).2.2] at refers

/-- A task that somebody is about to unlink from the queue is in the running list. -/
theorem QueueSide.runs_of_ends (side : QueueSide s t) (ending : 1 ≤ num s (ends s.curTask t)) :
    1 ≤ inRunning s t := by
  have claimed := side.claimed
  cases runs : started s t with
  | false =>
      have := (side.idle runs).1
      omega
  | true =>
      have := side.running runs
      omega

/-- While no task runs, no device is in use but by the worker. -/
theorem device_free (sides : ∀ k, QueueSide s k) (side : DeviceSide cfg s d) (named : StartNamed s)
    (direct : cfg.prepare = false) (idle : s.queue.runningList = []) :
    unclaimed s d = 0 ∧ num s (isrs d) = 0 := by
  have none : ∀ t, inRunning s t = 0 := fun t => by simp [inRunning, idle]
  constructor
  · by_cases free : unclaimed s d = 0
    · exact free
    · obtain ⟨t, cur, open'⟩ := exists_of_unclaimed free
      have := ((sides t).free (named.current d t cur) open').1
      have := none t
      omega
  · refine List.countP_eq_zero.mpr fun action member counted => ?_
    have ending : ∃ t, ends s.curTask t action = true := by
      cases action with
      | irqCancel _ t | isrClear _ t | finish _ t => exact ⟨t, by simp [ends]⟩
      | isrRead other =>
          obtain rfl : other = d := by simpa [isrs] using counted
          obtain ⟨t, cur⟩ := Option.ne_none_iff_exists'.mp (side.woken member)
          exact ⟨t, by simp [ends, cur]⟩
      | setCoreIdle other =>
          obtain rfl : other = d := by simpa [isrs] using counted
          exact absurd member (side.direct direct)
      | _ => simp [isrs] at counted
    obtain ⟨t, claims⟩ := ending
    have := (sides t).runs_of_ends (one_le_num member claims)
    have := none t
    omega

/-- What refers to the device is pending from before, when nothing new does. -/
theorem pending_of_quiet (current : s.threads[n]? = some (head :: rest)) {action : Action}
    (quiet : ∀ action ∈ pushed, refersTo d action = false) (refers : refersTo d action = true)
    (member : action ∈ pending (resume s' s.threads n pushed rest).threads) :
    action ∈ pending s.threads := by
  rcases mem_pending_set current member with new | old
  · simp [quiet action new] at refers
  · exact old

/-- `cur_task` of the device changes under its one user. -/
theorem deviceSide_setCurTask (side : DeviceSide cfg s d)
    (current : s.threads[n]? = some (head :: rest)) (task : Option Nat)
    (uses : serves d head = true ∨ isrs d head = true) (other : refersTo d head = false)
    (count : (if task = none then 0 else 1) + pushed.countP (serves d) + pushed.countP (isrs d) ≤ 1)
    (pushes : ∀ action ∈ pushed, refersTo d action = false) :
    DeviceSide cfg (resume (setCurTask s d task) s.threads n pushed rest) d := by
  have one := side.one
  have toServe := num_resume (setCurTask s d task) pushed (serves d) current
  have toEnd := num_resume (setCurTask s d task) pushed (isrs d) current
  have user : [head].countP (serves d) + [head].countP (isrs d) = 1 ∧ unclaimed s d = 0 ∧
      num s (serves d) + num s (isrs d) = 1 := by
    have serving := count_head_le (serves d) current
    have ending := count_head_le (isrs d) current
    rcases uses with byWorker | byIsr
    · have : [head].countP (serves d) = 1 := by simp [byWorker]
      omega
    · have : [head].countP (isrs d) = 1 := by simp [byIsr]
      omega
  have alone : ∀ action, refersTo d action = true → isrs d action = true →
      action ∉ pending s.threads := by
    intro action refers counted member
    have different : head ≠ action := fun same => by simp [same, refers] at other
    have reads := one_le_num member counted
    rcases uses with byWorker | byIsr
    · have := one_le_num (head_mem_pending current) byWorker
      omega
    · have two := two_le_countP (head_mem_pending current) member different byIsr counted
      have : num s (isrs d) = (pending s.threads).countP (isrs d) := rfl
      omega
  have old : ∀ action, refersTo d action = true →
      action ∈ pending (resume (setCurTask s d task) s.threads n pushed rest).threads →
      action ∈ pending s.threads := fun _ => pending_of_quiet current pushes
  refine ⟨?_, fun t member open' => ?_, fun t wake member => ?_, fun member => ?_,
    fun direct member => ?_⟩
  · have now : unclaimed (resume (setCurTask s d task) s.threads n pushed rest) d ≤
        if task = none then 0 else 1 := by
      have cur : (resume (setCurTask s d task) s.threads n pushed rest).curTask d = task :=
        if_pos rfl
      rw [unclaimed, cur]
      cases task with
      | none => simp
      | some t =>
          simp only [reduceCtorEq, if_false]
          split <;> omega
    have token : idleToken cfg (resume (setCurTask s d task) s.threads n pushed rest) d =
      idleToken cfg s d := rfl
    omega
  · have cur := side.read t (old _ (by simp [refersTo]) member) open'
    have := unclaimed_eq_one cur open'
    omega
  · exact absurd (old _ (by simp [refersTo]) member)
      (alone _ (by simp [refersTo]) (by simp [isrs]))
  · exact absurd (old _ (by simp [refersTo]) member)
      (alone _ (by simp [refersTo]) (by simp [isrs]))
  · exact side.direct direct (old _ (by simp [refersTo]) member)

theorem idleToken_setCoreIdle_false (cfg : MppConfig) (s : MppState) (core d : Nat) :
    idleToken cfg (setCoreIdle s core false) d + (if core = d then idleToken cfg s d else 0) =
      idleToken cfg s d := by
  by_cases same : core = d
  · subst same
    simp [idleToken, setCoreIdle]
  · simp [idleToken, setCoreIdle, same, Ne.symm same]

theorem idleToken_setCoreIdle_true (cfg : MppConfig) (s : MppState) (core d : Nat) :
    idleToken cfg (setCoreIdle s core true) d ≤ idleToken cfg s d + if core = d then 1 else 0 := by
  by_cases same : core = d
  · subst same
    simp only [idleToken, setCoreIdle, if_true]
    split <;> omega
  · simp [idleToken, setCoreIdle, same, Ne.symm same]

/-- A task that is finished: only its bits change, and what is pushed hands on the use of the
device. -/
theorem DeviceSide.finished {e d t : Nat} (side : DeviceSide cfg s e)
    (current : s.threads[n]? = some (.finish d t :: rest)) :
    DeviceSide cfg (resume (mppTaskFinish cfg s d t).1 s.threads n (mppTaskFinish cfg s d t).2
      rest) e := by
  have after : (mppTaskFinish cfg s d t).1 = setBit (setBit s t .finish) t .done := rfl
  have keeps : ∀ k, handled s k = true →
    handled (setBit (setBit s t .finish) t .done) k = true := fun _ claimed =>
      handled_mono t .done (handled_mono t .finish claimed)
  have lower : unclaimed (setBit (setBit s t .finish) t .done) e ≤ unclaimed s e :=
    unclaimed_le_of_handled rfl keeps
  refine side.keep current rfl keeps ?_ fun action member refers => ?_
  · have token : idleToken cfg (setBit (setBit s t .finish) t .done) e = idleToken cfg s e := rfl
    have serving : (mppTaskFinish cfg s d t).2.countP (serves e) = 0 := by
      rw [countP_finish _ rfl]
      split <;> rfl
    have ending : (mppTaskFinish cfg s d t).2.countP (isrs e) ≤
        [Action.finish d t].countP (isrs e) := by
      rw [countP_finish _ rfl]
      split
      · exact Nat.le_of_eq (Nat.zero_add _)
      · exact Nat.zero_le _
    rw [after]
    omega
  · cases given : cfg.prepare with
    | false =>
        cases action with
        | setCoreIdle | irqClaim | irqCancel | isrRead => simp [mppTaskFinish, given] at member
        | _ => trivial
    | true =>
        cases action with
        | setCoreIdle => exact given
        | irqClaim | irqCancel | isrRead => simp [mppTaskFinish, given] at member
        | _ => trivial

/-- The worker takes the device while no task runs. -/
theorem deviceSide_admitted {t : Nat} (tasks : ∀ k, QueueSide s k) (side : DeviceSide cfg s d)
    (named : StartNamed s) (alone : WorkerAlone s)
    (current : s.threads[n]? = some (.admission t :: rest)) (direct : cfg.prepare = false)
    (idle : s.queue.runningList = []) :
    DeviceSide cfg (resume s s.threads n [.toRun t d] rest) d := by
  have toServe := num_resume s [.toRun t d] (serves d) current
  have toEnd := num_resume s [.toRun t d] (isrs d) current
  have none : num s (serves d) = 0 :=
    alone.num_eq_zero current rfl rfl fun _ => isWorker_of_serves
  obtain ⟨unused, quiet⟩ := device_free tasks side named direct idle
  have token : idleToken cfg s d = 0 := by simp [idleToken, direct]
  have counted : [Action.toRun t d].countP (serves d) = 1 := by simp [serves]
  have other : [Action.toRun t d].countP (isrs d) = 0 := rfl
  have leaves : [Action.admission t].countP (serves d) = 0 := rfl
  have gone : [Action.admission t].countP (isrs d) = 0 := rfl
  have now : unclaimed (resume s s.threads n [.toRun t d] rest) d = unclaimed s d := rfl
  have still : idleToken cfg (resume s s.threads n [.toRun t d] rest) d = idleToken cfg s d := rfl
  have old : ∀ action, refersTo d action = true →
      action ∈ pending (resume s s.threads n [.toRun t d] rest).threads →
      action ∈ pending s.threads := fun _ => pending_of_quiet current (by simp [refersTo])
  exact ⟨by omega, fun k member => side.read k (old _ (by simp [refersTo]) member),
    fun k wake member => side.cancel k wake (old _ (by simp [refersTo]) member),
    fun member => side.woken (old _ (by simp [refersTo]) member),
    fun given member => side.direct given (old _ (by simp [refersTo]) member)⟩

theorem deviceSide_of_effect (tasks : ∀ k, QueueSide s k) (sides : ∀ e, DeviceSide cfg s e)
    (named : StartNamed s) (alone : WorkerAlone s)
    (current : s.threads[n]? = some (head :: rest))
    (effect : Effect cfg s choice head s' pushed) (orderly : Orderly cfg s choice head) (e : Nat) :
    DeviceSide cfg (resume s' s.threads n pushed rest) e := by
  have side := sides e
  have toServe := num_resume s' pushed (serves e) current
  have toEnd := num_resume s' pushed (isrs e) current
  have open' : ∀ (t : Nat) (bit : TaskState), unclaimed (setBit s t bit) e ≤ unclaimed s e :=
    fun t bit => unclaimed_le_of_handled rfl fun _ => handled_mono t bit
  cases effect with
  | irqSpurious wakes => exact absurd wakes orderly
  | @irqRead d =>
      refine side.keep current rfl (fun _ claimed => claimed) (Nat.le_refl _) ?_
      intro action member refers
      obtain rfl := List.mem_singleton.mp member
      cases cur : s.curTask d with
      | none => trivial
      | some t =>
          obtain rfl : d = e := by simpa [refersTo, cur] using refers
          exact fun _ => cur
  | @irqClaimed d t free =>
      have sound := side.read t
      have lower := open' t .handle
      by_cases same : d = e
      · subst same
        have cur := sound (head_mem_pending current) free
        have before := unclaimed_eq_one cur free
        have after : unclaimed (setBit s t .handle) d = 0 := by
          have claimed : handled (setBit s t .handle) t = true :=
            (handled_setBit_handle s t t).trans (by simp)
          have cur' : (setBit s t .handle).curTask d = some t := cur
          simp [unclaimed, cur', claimed]
        refine side.keep current rfl (fun _ => handled_mono t .handle) ?_ fun action member _ => ?_
        · rw [after, before]
          simp [serves, isrs, idleToken, setBit]
        · obtain rfl := List.mem_singleton.mp member
          exact cur
      · exact side.leave current rfl (fun _ => handled_mono t .handle) rfl
          (by simp [serves, isrs, refersTo, same])
  | @irqCancelled d t wake =>
      have keeps : ∀ k, handled s k = true →
        handled (setBit (setTimeoutWork s t false) t .irq) k = true := fun _ => handled_mono t .irq
      have lower : unclaimed (setBit (setTimeoutWork s t false) t .irq) e ≤ unclaimed s e :=
        open' t .irq
      have token : idleToken cfg (setBit (setTimeoutWork s t false) t .irq) e = idleToken cfg s e :=
        rfl
      refine side.keep current rfl keeps ?_ fun action member refers => ?_
      · have fewer : (if wake then [Action.isrRead d] else []).countP (isrs e) ≤
          [Action.irqCancel d t wake].countP (isrs e) := by
          cases wake with
          | false => exact Nat.zero_le _
          | true => exact Nat.le_refl _
        have none : (if wake then [Action.isrRead d] else []).countP (serves e) = 0 :=
          countP_wake wake rfl
        omega
      · cases wake with
        | false => cases member
        | true =>
            obtain rfl := List.mem_singleton.mp member
            obtain rfl : d = e := by simpa [refersTo] using refers
            have cur := side.cancel t true (head_mem_pending current)
            exact fun idle => absurd (cur.symm.trans idle) (by simp)
  | @isrCleared d t =>
      by_cases same : d = e
      · subst same
        refine deviceSide_setCurTask side current none (Or.inr (by simp [isrs])) rfl ?_
          (by simp [refersTo])
        simp [serves, isrs]
      · refine side.leave current (if_neg (Ne.symm same)) (fun _ claimed => claimed) rfl ?_
        simp [serves, isrs, refersTo, same]
  | @finished d t => exact side.finished current
  | @coreIdle d =>
      have token := idleToken_setCoreIdle_true cfg s d e
      refine side.keep current rfl (fun _ claimed => claimed) ?_ (by simp)
      have counted : [Action.setCoreIdle d].countP (isrs e) = if d = e then 1 else 0 :=
        count_subject rfl
      have rest' : unclaimed (setCoreIdle s d true) e = unclaimed s e := rfl
      simp only [List.countP_nil]
      omega
  | @admittedCore t core prepare idle =>
      have token := idleToken_setCoreIdle_false cfg s core e
      have counted : [Action.toRun t core].countP (serves e) = if core = e then 1 else 0 :=
        count_subject rfl
      refine side.keep current rfl (fun _ claimed => claimed) ?_ (by simp [refersTo])
      have rest' : unclaimed (setTaskMpp (setCoreIdle s core false) t core) e = unclaimed s e := rfl
      have token' : idleToken cfg (setTaskMpp (setCoreIdle s core false) t core) e =
        idleToken cfg (setCoreIdle s core false) e := rfl
      have quiet : [Action.toRun t core].countP (isrs e) = 0 := rfl
      by_cases same : core = e
      · subst same
        have given : idleToken cfg s core = 1 := by simp [idleToken, prepare, idle]
        rw [if_pos rfl] at token counted
        omega
      · rw [if_neg same] at token counted
        omega
  | @admitted t d direct idle =>
      by_cases same : d = e
      · subst same
        exact deviceSide_admitted tasks side named alone current direct idle
      · exact side.leave current rfl (fun _ claimed => claimed) rfl
          (by simp [serves, isrs, refersTo, same])
  | @started t d =>
      by_cases same : d = e
      · subst same
        refine deviceSide_setCurTask side current (some t) (Or.inl (by simp [serves])) rfl ?_
          (by simp)
        simp
      · refine side.leave current (if_neg (Ne.symm same)) (fun _ claimed => claimed) rfl ?_
        simp
  | @timeoutDone t =>
      have keeps : ∀ k, handled s k = true →
        handled (setBit (setBit s t .timeout) t .done) k = true := fun _ claimed =>
          handled_mono t .done (handled_mono t .timeout claimed)
      exact side.leave current rfl keeps rfl (by simp [serves, isrs, refersTo])
  | @submitted t d | @grfFailed t d =>
      exact side.leave current rfl (fun _ => handled_mono t _) rfl
        (by simp [serves, isrs, refersTo])
  | @gaveUp t | @timeoutClaimed t free =>
      exact side.leave current rfl (fun _ => handled_mono t _) rfl
        (by simp [serves, isrs, refersTo])
  | @grfSet t d =>
      refine side.keep current rfl (fun _ => handled_mono t .running) ?_ (by simp [refersTo])
      exact Nat.add_le_add_right (Nat.add_le_add_left (open' t .running) _) _
  | @scheduled t d =>
      refine side.keep current rfl (fun _ => handled_mono t .start) ?_ (by simp [refersTo])
      exact Nat.add_le_add_right (Nat.add_le_add_left (open' t .start) _) _
  | @cleared session =>
      refine side.leave current rfl (fun _ claimed => claimed) rfl fun action member => ?_
      obtain ⟨t, _, rfl⟩ := List.mem_map.mp member
      exact ⟨rfl, rfl, rfl⟩
  | @sessionDetached session =>
      refine side.leave current rfl (fun _ claimed => claimed) rfl fun action member => ?_
      obtain ⟨d, _, rfl⟩ := Option.map_eq_some_iff.mp (Option.mem_toList.mp member)
      exact ⟨rfl, rfl, rfl⟩
  | @deinitBegins session =>
      refine side.leave current rfl (fun _ claimed => claimed) rfl fun action member => ?_
      rcases List.mem_append.mp member with clears | frees
      · split at clears
        · cases clears
        · obtain rfl := List.mem_singleton.mp clears
          exact ⟨rfl, rfl, rfl⟩
      · obtain rfl := List.mem_singleton.mp frees
        exact ⟨rfl, rfl, rfl⟩
  | isrIdle =>
      exact side.leave current rfl (fun _ claimed => claimed) rfl
        (by simp [serves, isrs, refersTo])
  | _ =>
      exact side.keep current rfl (fun _ claimed => claimed) (Nat.le_refl _) (by simp [refersTo])

theorem started_mono {s : MppState} (t : Nat) (bit : TaskState) (runs : started s k = true) :
    started (setBit s t bit) k = true := by
  have before : (s.tasks k).state .start = true := runs
  simp [started, setBit, before]

theorem StartNamed.keep (named : StartNamed s) (current : s.threads[n]? = some (head :: rest))
    (keeps : ∀ t, started s t = true → started s' t = true)
    (cur : ∀ d t, s'.curTask d = some t → s.curTask d = some t ∨ started s' t = true)
    (work : ∀ t, (s'.tasks t).timeoutWork = true →
      (s.tasks t).timeoutWork = true ∨ started s' t = true)
    (pushes : ∀ action ∈ pushed, ∀ t, takesStarted action = some t → started s' t = true) :
    StartNamed (resume s' s.threads n pushed rest) := by
  refine ⟨fun action member t takes => ?_, fun t scheduled => ?_, fun d t names => ?_⟩
  · rcases mem_pending_set current member with new | old
    · exact pushes action new t takes
    · exact keeps t (named.pendingNamed action old t takes)
  · exact (work t scheduled).elim (fun old => keeps t (named.scheduled t old)) id
  · exact (cur d t names).elim (fun old => keeps t (named.current d t old)) id

/-- An action that pushes nothing about a started task. -/
theorem StartNamed.leave (named : StartNamed s) (current : s.threads[n]? = some (head :: rest))
    (keeps : ∀ t, started s t = true → started s' t = true) (sameCur : s'.curTask = s.curTask)
    (sameWork : ∀ t, (s'.tasks t).timeoutWork = (s.tasks t).timeoutWork)
    (pushes : ∀ action ∈ pushed, takesStarted action = none) :
    StartNamed (resume s' s.threads n pushed rest) :=
  named.keep current keeps (fun _ _ names => Or.inl (sameCur ▸ names))
    (fun t scheduled => Or.inl (sameWork t ▸ scheduled))
    fun action member t takes => absurd ((pushes action member).symm.trans takes) (by simp)

theorem startNamed_of_effect (named : StartNamed s) (current : s.threads[n]? = some (head :: rest))
    (effect : Effect cfg s choice head s' pushed) :
    StartNamed (resume s' s.threads n pushed rest) := by
  cases effect with
  | @irqRead d =>
      refine named.keep current (fun _ runs => runs) (fun _ _ names => Or.inl names)
        (fun _ scheduled => Or.inl scheduled) fun action member t takes => ?_
      obtain rfl := List.mem_singleton.mp member
      cases cur : s.curTask d with
      | none => simp [takesStarted, cur] at takes
      | some k =>
          obtain rfl : k = t := by simpa [takesStarted, cur] using takes
          exact named.current d k cur
  | @irqCancelled d t wake =>
      refine named.keep current (fun _ => started_mono t .irq) (fun _ _ names => Or.inl names)
        (fun k scheduled => Or.inl ?_) fun action member k takes => ?_
      · have work : (if k = t then false else (s.tasks k).timeoutWork) = true := scheduled
        split at work
        · cases work
        · exact work
      · cases wake with
        | false => cases member
        | true =>
            obtain rfl := List.mem_singleton.mp member
            cases takes
  | @isrCleared d t =>
      refine named.keep current (fun _ runs => runs) (fun e k names => Or.inl ?_)
        (fun _ scheduled => Or.inl scheduled) (by simp [takesStarted])
      have cur : (if e = d then none else s.curTask e) = some k := names
      split at cur
      · cases cur
      · exact cur
  | @finished d t =>
      refine named.leave current (fun _ runs => started_mono t .done (started_mono t .finish runs))
        rfl (fun _ => rfl) fun action member => ?_
      cases given : cfg.prepare <;> simp only [mppTaskFinish, given] at member <;>
        cases action <;> first | rfl | simp at member
  | @timeoutDone t =>
      exact named.leave current
        (fun _ runs => started_mono t .done (started_mono t .timeout runs)) rfl (fun _ => rfl)
        (by simp [takesStarted])
  | @submitted t d | @grfFailed t d | @grfSet t d =>
      exact named.leave current (fun _ => started_mono t _) rfl (fun _ => rfl)
        (by simp [takesStarted])
  | @gaveUp t =>
      exact named.leave current (fun _ => started_mono t _) rfl (fun _ => rfl)
        (by simp [takesStarted])
  | @irqClaimed d t free =>
      exact named.leave current (fun _ => started_mono t _) rfl (fun _ => rfl)
        (by simp [takesStarted])
  | @timeoutClaimed t free =>
      exact named.leave current (fun _ => started_mono t _) rfl (fun _ => rfl)
        (by simp [takesStarted])
  | @scheduled t d =>
      have now : started (setTimeoutWork (setBit s t .start) t true) t = true :=
        (started_setBit_start s t t).trans (by simp)
      refine named.keep current (fun _ => started_mono t .start) (fun _ _ names => Or.inl names)
        (fun k scheduled => ?_) fun action member k takes => ?_
      · have work : (if k = t then true else (s.tasks k).timeoutWork) = true := scheduled
        split at work
        · next same => exact Or.inr (same ▸ now)
        · exact Or.inl work
      · obtain rfl := List.mem_singleton.mp member
        obtain rfl : t = k := by simpa [takesStarted] using takes
        exact now
  | @started t d =>
      refine named.keep current (fun _ runs => runs) (fun e k names => ?_)
        (fun _ scheduled => Or.inl scheduled) (by simp)
      have cur : (if e = d then some t else s.curTask e) = some k := names
      split at cur
      · obtain rfl := Option.some.inj cur
        exact Or.inr (named.pendingNamed _ (head_mem_pending current) t rfl)
      · exact Or.inl cur
  | @cleared session =>
      refine named.leave current (fun _ runs => runs) rfl (fun _ => rfl) fun action member => ?_
      obtain ⟨t, _, rfl⟩ := List.mem_map.mp member
      rfl
  | @sessionDetached session =>
      refine named.leave current (fun _ runs => runs) rfl (fun _ => rfl) fun action member => ?_
      obtain ⟨d, _, rfl⟩ := Option.map_eq_some_iff.mp (Option.mem_toList.mp member)
      rfl
  | @deinitBegins session =>
      refine named.leave current (fun _ runs => runs) rfl (fun _ => rfl) fun action member => ?_
      rcases List.mem_append.mp member with clears | frees
      · split at clears
        · cases clears
        · obtain rfl := List.mem_singleton.mp clears
          rfl
      · obtain rfl := List.mem_singleton.mp frees
        rfl
  | _ =>
      exact named.leave current (fun _ runs => runs) rfl (fun _ => rfl) (by simp [takesStarted])

end Mpp
end RockchipSoc
