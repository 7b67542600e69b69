import RockchipSoc.Mpp.TaskCount

/-!
# The worker and the link in the session

The worker is one thread.  A task is linked once in the pending list of its session, and under the
condition `Orderly` one call at most is about to remove that link.
-/

namespace RockchipSoc
namespace Mpp

open LabelledRun ActionPool

variable {cfg : MppConfig} {s s' : MppState} {choice : Choice} {head : Action}
  {pushed rest : List Action} {n t d k : Nat}

/-! ## Steps under the condition -/

/-- No device of the queue has the task in `cur_task`. -/
def Unnamed (cfg : MppConfig) (s : MppState) (t : Nat) : Prop :=
  ∀ d < cfg.coreCount, s.curTask d ≠ some t

/-- The action interferes with no other: an interrupt without a task wakes nobody, a pending task
is waited for by one call, and the task in `cur_task` keeps one of its two links. -/
def Orderly (cfg : MppConfig) (s : MppState) (choice : Choice) : Action → Prop
  | .irqClaim _ none => choice.irqRet ≠ .wakeThread
  | .getPendingTask session => ∀ t ∈ (s.sessions session).pendingList.take 1, num s (awaits t) = 0
  | .clear session => ∀ t ∈ (s.sessions session).pendingList,
      num s (awaits t) = 0 ∧ (t ∈ s.queue.runningList ∨ Unnamed cfg s t)
  | .popSession t => t ∈ s.queue.runningList ∨ Unnamed cfg s t
  | .popRunning t _ => t ∈ sessionPending s t ∨ Unnamed cfg s t
  | .run t _ => t ∈ s.queue.runningList ∨ t ∈ sessionPending s t
  | _ => True

/-- The condition on a step of the system. -/
def orderlyStep (cfg : MppConfig) (s : MppState) (label : MppLabel) : Prop :=
  ∀ action ∈ (executing s label).toList, Orderly cfg s label.choice action

instance : Decidable (Unnamed cfg s t) := inferInstanceAs (Decidable (∀ d < _, _))

instance : (action : Action) → Decidable (Orderly cfg s choice action)
  | .irqClaim _ none => inferInstanceAs (Decidable (_ ≠ _))
  | .irqClaim _ (some _) => isTrue trivial
  | .getPendingTask _ => inferInstanceAs (Decidable (∀ t ∈ _, _ = 0))
  | .clear _ => inferInstanceAs (Decidable (∀ t ∈ _, _ ∧ _))
  | .popSession _ | .popRunning _ _ | .run _ _ => inferInstanceAs (Decidable (_ ∨ _))
  | .submit _ _ _ | .put _ | .uncount _ | .wait _ | .giveUp _ | .pollTaskCount _ | .irqRead _
  | .irqCancel _ _ _ | .isrRead _ | .isrClear _ _ | .finish _ _ | .setCoreIdle _ | .trigger _
  | .timeoutClaim _ | .timeoutDone _ | .fetch | .abortCheck _ | .popPending _ | .admission _
  | .toRun _ _ | .setGrf _ _ | .schedule _ _ | .detach | .detachSession _ | .deinit _
  | .freeSession _ => isTrue trivial

instance (label : MppLabel) : Decidable (orderlyStep cfg s label) :=
  inferInstanceAs (Decidable (∀ action ∈ _, Orderly cfg s label.choice action))

theorem orderly_of_step {choice : Choice} (orderly : orderlyStep cfg s (.call n choice))
    (current : s.threads[n]? = some (head :: rest)) : Orderly cfg s choice head :=
  orderly head (by simp [executing, current])

/-! ## Conditional pushes -/

theorem countP_wake {p : Action → Bool} (wake : Bool) (quiet : p (.isrRead d) = false) :
    (if wake then [Action.isrRead d] else []).countP p = 0 := by
  cases wake <;> simp [quiet]

theorem countP_finish (p : Action → Bool) (quiet : p (.trigger d) = false) :
    (mppTaskFinish cfg s d t).2.countP p = [Action.popRunning t .isr].countP p +
      if cfg.prepare then [Action.setCoreIdle d].countP p else 0 := by
  simp only [mppTaskFinish]
  cases cfg.prepare with
  | true =>
      simp [List.countP_cons, quiet]
      omega
  | false => simp [List.countP_cons, quiet]

theorem countP_detachSession {p : Action → Bool} (session : Nat)
    (quiet : ∀ k, p (.trigger k) = false) :
    (mppSessionDetachWorkqueue s session).2.countP p = 0 := by
  simp only [mppSessionDetachWorkqueue]
  cases (s.sessions session).mpp <;> simp [quiet]

theorem countP_deinit {p : Action → Bool} (session : Nat)
    (clears : p (.clear session) = false) (frees : p (.freeSession session) = false) :
    ((if (s.sessions session).mpp = none then [] else [Action.clear session]) ++
      [Action.freeSession session]).countP p = 0 := by
  split <;> simp [clears, frees]

/-! ## The worker is one thread -/

/-- The worker's actions are in thread 0, and one of them is pending at most. -/
def WorkerAlone (s : MppState) : Prop :=
  ∃ thread, s.threads[0]? = some thread ∧ num s isWorker = thread.countP isWorker ∧
    thread.countP isWorker ≤ 1

theorem isWorker_of_effect (effect : Effect cfg s choice head s' pushed) :
    pushed.countP isWorker ≤ [head].countP isWorker := by
  cases effect with
  | cleared => rw [countP_map_put_eq_zero _ fun _ => rfl]; exact Nat.zero_le _
  | irqCancelled => rw [countP_wake _ rfl]; exact Nat.zero_le _
  | finished =>
      rw [countP_finish _ rfl]
      split <;> exact Nat.le_refl _
  | sessionDetached => rw [countP_detachSession _ fun _ => rfl]; exact Nat.zero_le _
  | deinitBegins => rw [countP_deinit _ rfl rfl]; exact Nat.zero_le _
  | _ => first | exact Nat.le_refl _ | exact Nat.zero_le _

theorem WorkerAlone.resume (alone : WorkerAlone s) (current : s.threads[n]? = some (head :: rest))
    (fewer : pushed.countP isWorker ≤ [head].countP isWorker) :
    WorkerAlone (resume s' s.threads n pushed rest) := by
  obtain ⟨thread, first, total, one⟩ := alone
  have counted := num_resume s' pushed isWorker current
  have inside : n < s.threads.length := (List.getElem?_eq_some_iff.mp current).1
  by_cases worker : n = 0
  · subst worker
    obtain rfl : thread = head :: rest := Option.some.inj (first.symm.trans current)
    refine ⟨pushed ++ rest, List.getElem?_set_self inside, ?_, ?_⟩ <;>
      simp only [List.countP_append, List.countP_cons, List.countP_nil] at counted total one fewer ⊢
      <;> omega
  · have beside := countP_first_add_le isWorker first current worker
    refine ⟨thread, (List.getElem?_set_ne worker).trans first, ?_, one⟩
    have : num s isWorker = (pending s.threads).countP isWorker := rfl
    omega

theorem WorkerAlone.spawn (alone : WorkerAlone s) {thread : List Action}
    (same : s'.threads = s.threads) (quiet : thread.countP isWorker = 0) :
    WorkerAlone (spawn s' thread) := by
  obtain ⟨worker, first, total, one⟩ := alone
  have counted := num_spawn isWorker thread same
  refine ⟨worker, ?_, by omega, one⟩
  rw [← same] at first
  obtain ⟨inside, _⟩ := List.getElem?_eq_some_iff.mp first
  exact (List.getElem?_append_left inside).trans first

theorem WorkerAlone.num_le_one (alone : WorkerAlone s) : num s isWorker ≤ 1 := by
  obtain ⟨thread, _, total, one⟩ := alone
  omega

theorem workerAlone_of_steps {label : MppLabel} (alone : WorkerAlone s)
    (steps : Steps cfg s label s') : WorkerAlone s' := by
  cases steps with
  | opened | initialised => exact alone
  | call current effect => exact alone.resume current (isWorker_of_effect effect)
  | works queued idle =>
      obtain ⟨thread, first, total, one⟩ := alone
      obtain rfl : thread = [] := Option.some.inj (first.symm.trans idle)
      have inside : 0 < s.threads.length := (List.getElem?_eq_some_iff.mp first).1
      have counted := countP_pending_start isWorker [.fetch, .detach] idle
      have before : num s isWorker = (pending s.threads).countP isWorker := rfl
      refine ⟨[.fetch, .detach], List.getElem?_set_self inside, ?_, Nat.le_refl _⟩
      have none : ([] : List Action).countP isWorker = 0 := rfl
      exact counted.trans (by omega)
  | releases =>
      refine alone.spawn rfl ?_
      split <;> rfl
  | submits | expires | polls | resets | interrupts => exact alone.spawn rfl rfl

/-! ## The link in the session -/

structure SessionSide (s : MppState) (t : Nat) : Prop where
  once : num s (toSession t) + inSession s t ≤ 1
  awaited : num s (awaits t) ≤ inSession s t
  own : ∀ session, t ∈ (s.sessions session).pendingList → sessionOf s t = session

theorem SessionSide.same (side : SessionSide s t)
    (sameLists : ∀ session, (s'.sessions session).pendingList = (s.sessions session).pendingList)
    (sameOwner : sessionOf s' t = sessionOf s t)
    (linking : num s' (toSession t) = num s (toSession t))
    (awaiting : num s' (awaits t) = num s (awaits t)) : SessionSide s' t := by
  have linked : inSession s' t = inSession s t := by
    rw [inSession, inSession, sessionPending, sessionPending, sameLists, sameOwner]
  refine ⟨?_, ?_, fun session member => sameOwner.trans (side.own session ?_)⟩
  · have := side.once
    omega
  · have := side.awaited
    omega
  · exact sameLists session ▸ member

theorem SessionSide.keep (side : SessionSide s t) (current : s.threads[n]? = some (head :: rest))
    (sameLists : ∀ session, (s'.sessions session).pendingList = (s.sessions session).pendingList)
    (sameOwner : sessionOf s' t = sessionOf s t)
    (linking : pushed.countP (toSession t) = [head].countP (toSession t))
    (awaiting : pushed.countP (awaits t) = [head].countP (awaits t)) :
    SessionSide (resume s' s.threads n pushed rest) t := by
  have toLink := num_resume s' pushed (toSession t) current
  have toPop := num_resume s' pushed (awaits t) current
  exact side.same sameLists sameOwner (by omega) (by omega)

/-- The lists after one of them is replaced. -/
theorem mem_setSessionPending {session other : Nat} {list : List Nat}
    (member : t ∈ ((setSessionPending s session list).sessions other).pendingList) :
    other = session ∧ t ∈ list ∨ t ∈ (s.sessions other).pendingList := by
  have lists : ((setSessionPending s session list).sessions other).pendingList =
    if other = session then list else (s.sessions other).pendingList := rfl
  rw [lists] at member
  split at member
  · next same => exact Or.inl ⟨same, member⟩
  · exact Or.inr member

theorem sessionSide_of_effect (sides : ∀ k, SessionSide s k)
    (current : s.threads[n]? = some (head :: rest))
    (effect : Effect cfg s choice head s' pushed) (orderly : Orderly cfg s choice head) (k : Nat) :
    SessionSide (resume s' s.threads n pushed rest) k := by
  have side := sides k
  have toLink := num_resume s' pushed (toSession k) current
  have toPop := num_resume s' pushed (awaits k) current
  have once := side.once
  have awaited := side.awaited
  cases effect with
  | @sessionLinked t d =>
      have executed : [Action.submit t d .linkSession].countP (toSession k) =
        if t = k then 1 else 0 := count_subject rfl
      have gone : [Action.submit t d .getQueue].countP (toSession k) = 0 := rfl
      have awaiting : [Action.submit t d .getQueue].countP (awaits k) =
        [Action.submit t d .linkSession].countP (awaits k) := rfl
      refine ⟨?_, ?_, fun session member => ?_⟩
      · rw [inSession_resume, inSession_link]
        omega
      · rw [inSession_resume, inSession_link]
        omega
      · rcases mem_setSessionPending member with ⟨rfl, listed⟩ | old
        · rcases List.mem_append.mp listed with own | new
          · exact side.own _ own
          · exact congrArg (sessionOf s) (List.mem_singleton.mp new)
        · exact side.own session old
  | @waits session t queue listed =>
      have free : num s (awaits t) = 0 := orderly t (by simp [listed])
      have executed : [Action.getPendingTask session].countP (awaits k) = 0 := rfl
      have awaiting : [Action.wait t].countP (awaits k) = if t = k then 1 else 0 :=
        count_subject rfl
      have linking : [Action.wait t].countP (toSession k) =
        [Action.getPendingTask session].countP (toSession k) := rfl
      refine ⟨?_, ?_, fun session member => side.own session member⟩
      · rw [inSession_resume]
        omega
      · rw [inSession_resume]
        by_cases same : t = k
        · subst same
          have own : sessionOf s t = session := side.own session (by simp [listed])
          have linked : 1 ≤ inSession s t := by
            rw [inSession, sessionPending, own]
            exact List.count_pos_iff.mpr (by simp [listed])
          rw [if_pos rfl] at awaiting
          omega
        · rw [if_neg same] at awaiting
          omega
  | @sessionPopped t =>
      have executed : [Action.popSession t].countP (awaits k) = if t = k then 1 else 0 :=
        count_subject rfl
      have gone : [Action.put t].countP (awaits k) = 0 := rfl
      have linking : [Action.put t].countP (toSession k) =
        [Action.popSession t].countP (toSession k) := rfl
      refine ⟨?_, ?_, fun session member => ?_⟩
      · rw [inSession_resume, inSession_pop]
        omega
      · rw [inSession_resume, inSession_pop]
        omega
      · rcases mem_setSessionPending member with ⟨rfl, listed⟩ | old
        · exact side.own _ (List.mem_of_mem_erase listed)
        · exact side.own session old
  | @cleared session =>
      have linking : ((s.sessions session).pendingList.map Action.put).countP (toSession k) = 0 :=
        countP_map_put_eq_zero _ fun _ => rfl
      have awaiting : ((s.sessions session).pendingList.map Action.put).countP (awaits k) = 0 :=
        countP_map_put_eq_zero _ fun _ => rfl
      refine ⟨?_, ?_, fun other member => ?_⟩
      · rw [inSession_resume, inSession_clear]
        split <;> omega
      · rw [inSession_resume, inSession_clear]
        split
        · next own =>
            subst own
            by_cases linked : k ∈ sessionPending s k
            · have := (orderly k linked).1
              omega
            · have : inSession s k = 0 := List.count_eq_zero.mpr linked
              omega
        · omega
      · rcases mem_setSessionPending member with ⟨_, listed⟩ | old
        · cases listed
        · exact side.own other old
  | irqCancelled =>
      exact side.keep current (fun _ => rfl) rfl (countP_wake _ rfl) (countP_wake _ rfl)
  | finished =>
      refine side.keep current (fun _ => rfl) rfl ?_ ?_ <;> rw [countP_finish _ rfl] <;>
        split <;> rfl
  | sessionDetached =>
      exact side.keep current (fun _ => rfl) rfl (countP_detachSession _ fun _ => rfl)
        (countP_detachSession _ fun _ => rfl)
  | deinitBegins =>
      exact side.keep current (fun _ => rfl) rfl (countP_deinit _ rfl rfl)
        (countP_deinit _ rfl rfl)
  | _ => exact side.keep current (fun _ => rfl) rfl rfl rfl

end Mpp
end RockchipSoc
