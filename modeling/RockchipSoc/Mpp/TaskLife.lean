import RockchipSoc.Mpp.QueueLink

/-!
# The life of a task

The reference count of a task is the number of references that threads hold and of lists it is
linked in, so it is freed once and only when it is linked nowhere.  `cur_task` holds no reference;
it names an unfreed task as long as no step takes the task out of the last of its two lists.
-/

namespace RockchipSoc
namespace Mpp

open LabelledRun ActionPool

variable {cfg : MppConfig} {s s' : MppState} {choice : Choice} {head : Action}
  {pushed rest : List Action} {n t d k : Nat}

/-- The references to one task, and whether it lives. -/
structure TaskRefs (cfg : MppConfig) (s : MppState) (t : Nat) : Prop where
  refs : (s.tasks t).ref =
    num s (holds t) + num s (links t) + inSession s t + (inPending s t + inRunning s t)
  life : s.freed t + (if (s.tasks t).ref = 0 then 0 else 1) = if t < s.nextTask then 1 else 0
  fresh : s.nextTask ≤ t → started s t = false
  named : ∀ d < cfg.coreCount, s.curTask d = some t → 1 ≤ inSession s t + inRunning s t

theorem TaskRefs.same (own : TaskRefs cfg s t)
    (sameRef : (s'.tasks t).ref = (s.tasks t).ref) (sameFreed : s'.freed t = s.freed t)
    (sameNext : s'.nextTask = s.nextTask)
    (counts : num s' (holds t) + num s' (links t) + inSession s' t +
        (inPending s' t + inRunning s' t) =
      num s (holds t) + num s (links t) + inSession s t + (inPending s t + inRunning s t))
    (fresh : s.nextTask ≤ t → started s' t = started s t)
    (named : ∀ d < cfg.coreCount, s'.curTask d = some t → 1 ≤ inSession s' t + inRunning s' t) :
    TaskRefs cfg s' t := by
  refine ⟨?_, ?_, fun later => ?_, named⟩
  · rw [sameRef, counts]
    exact own.refs
  · rw [sameFreed, sameRef, sameNext]
    exact own.life
  · rw [sameNext] at later
    exact (fresh later).trans (own.fresh later)

/-- No list changes, and the thread goes on with the references that it has. -/
theorem TaskRefs.stay (own : TaskRefs cfg s t) (current : s.threads[n]? = some (head :: rest))
    (sameRef : (s'.tasks t).ref = (s.tasks t).ref) (sameFreed : s'.freed t = s.freed t)
    (sameNext : s'.nextTask = s.nextTask)
    (sameLists : inSession s' t = inSession s t ∧ inPending s' t = inPending s t ∧
      inRunning s' t = inRunning s t)
    (fresh : s.nextTask ≤ t → started s' t = started s t)
    (holding : pushed.countP (holds t) = [head].countP (holds t))
    (linking : pushed.countP (links t) = [head].countP (links t))
    (named : ∀ d < cfg.coreCount, s'.curTask d = some t → 1 ≤ inSession s t + inRunning s t) :
    TaskRefs cfg (resume s' s.threads n pushed rest) t := by
  have toHold := num_resume s' pushed (holds t) current
  have toLink := num_resume s' pushed (links t) current
  obtain ⟨session, pending, running⟩ := sameLists
  refine own.same sameRef sameFreed sameNext ?_ fresh fun d device names => ?_
  · simp only [inSession_resume, inPending_resume, inRunning_resume]
    omega
  · have linked := named d device names
    simp only [inSession_resume, inRunning_resume]
    omega

theorem TaskRefs.keep (own : TaskRefs cfg s t) (current : s.threads[n]? = some (head :: rest))
    (sameRef : (s'.tasks t).ref = (s.tasks t).ref) (sameFreed : s'.freed t = s.freed t)
    (sameNext : s'.nextTask = s.nextTask) (sameCur : s'.curTask = s.curTask)
    (sameLists : inSession s' t = inSession s t ∧ inPending s' t = inPending s t ∧
      inRunning s' t = inRunning s t)
    (sameStarted : started s' t = started s t)
    (holding : pushed.countP (holds t) = [head].countP (holds t))
    (linking : pushed.countP (links t) = [head].countP (links t)) :
    TaskRefs cfg (resume s' s.threads n pushed rest) t :=
  own.stay current sameRef sameFreed sameNext sameLists (fun _ => sameStarted) holding linking
    fun d device names => own.named d device (sameCur ▸ names)

theorem TaskRefs.lt_nextTask (own : TaskRefs cfg s t) (positive : (s.tasks t).ref ≠ 0) :
    t < s.nextTask := by
  have life := own.life
  rw [if_neg positive] at life
  split at life
  · assumption
  · omega

theorem ref_krefGet (s : MppState) (t k : Nat) :
    ((krefGet s t).tasks k).ref = (s.tasks k).ref + if t = k then 1 else 0 := by
  by_cases same : t = k
  · simp [krefGet, same]
  · simp [krefGet, same, Ne.symm same]

theorem ref_krefPut (s : MppState) (t k : Nat) :
    ((krefPut s t).tasks k).ref = (s.tasks k).ref - if t = k then 1 else 0 := by
  by_cases same : t = k
  · simp [krefPut, same]
  · simp [krefPut, same, Ne.symm same]

theorem freed_krefPut (s : MppState) (t k : Nat) :
    (krefPut s t).freed k = s.freed k + if t = k ∧ (s.tasks k).ref = 1 then 1 else 0 := by
  by_cases same : t = k
  · simp [krefPut, same]
  · simp [krefPut, same, Ne.symm same]

/-- A thread that has a reference takes another one for a link. -/
theorem TaskRefs.get (own : TaskRefs cfg s k) (current : s.threads[n]? = some (head :: rest))
    {action : Action} (has : holds k head = (t == k)) (keeps : holds k action = (t == k))
    (none : links k head = false) (links' : links k action = (t == k)) :
    TaskRefs cfg (resume (krefGet s t) s.threads n [action] rest) k := by
  have toHold := num_resume (krefGet s t) [action] (holds k) current
  have toLink := num_resume (krefGet s t) [action] (links k) current
  rw [count_subject has, count_subject keeps] at toHold
  rw [List.countP_singleton, none, count_subject links'] at toLink
  simp only [Bool.false_eq_true, if_false] at toLink
  have refs := own.refs
  have got := ref_krefGet s t k
  have positive : (if t = k then 1 else 0) ≤ num s (holds k) := by
    rw [← count_subject has]
    exact count_head_le (holds k) current
  refine ⟨?_, ?_, own.fresh, own.named⟩
  · simp only [inSession_resume, inPending_resume, inRunning_resume]
    exact got.trans (by
      have lists : inSession (krefGet s t) k = inSession s k ∧
        inPending (krefGet s t) k = inPending s k ∧ inRunning (krefGet s t) k = inRunning s k :=
        ⟨rfl, rfl, rfl⟩
      omega)
  · have life := own.life
    have next : (resume (krefGet s t) s.threads n [action] rest).nextTask = s.nextTask := rfl
    have freed : (resume (krefGet s t) s.threads n [action] rest).freed k = s.freed k := rfl
    have ref : ((resume (krefGet s t) s.threads n [action] rest).tasks k).ref =
      (s.tasks k).ref + if t = k then 1 else 0 := got
    rw [next, freed, ref, ← life]
    by_cases same : t = k
    · rw [if_pos same] at positive ⊢
      rw [if_neg (by omega), if_neg (by omega)]
    · rw [if_neg same, Nat.add_zero]

/-- The executing thread gives up a reference; the last one frees the task. -/
theorem TaskRefs.put (own : TaskRefs cfg s k) (current : s.threads[n]? = some (.put t :: rest))
    (quiet : pushed.countP (holds k) = 0 ∧ pushed.countP (links k) = 0) :
    TaskRefs cfg (resume (krefPut s t) s.threads n pushed rest) k := by
  have toHold := num_resume (krefPut s t) pushed (holds k) current
  have toLink := num_resume (krefPut s t) pushed (links k) current
  have counted : [Action.put t].countP (holds k) = if t = k then 1 else 0 := count_subject rfl
  have none : [Action.put t].countP (links k) = 0 := rfl
  have positive := count_head_le (holds k) current
  have refs := own.refs
  have ref := ref_krefPut s t k
  have freed := freed_krefPut s t k
  refine ⟨?_, ?_, own.fresh, own.named⟩
  · simp only [inSession_resume, inPending_resume, inRunning_resume]
    have lists : inSession (krefPut s t) k = inSession s k ∧
      inPending (krefPut s t) k = inPending s k ∧ inRunning (krefPut s t) k = inRunning s k :=
      ⟨rfl, rfl, rfl⟩
    exact ref.trans (by omega)
  · have life := own.life
    have next : (resume (krefPut s t) s.threads n pushed rest).nextTask = s.nextTask := rfl
    have ref' : ((resume (krefPut s t) s.threads n pushed rest).tasks k).ref = _ := ref
    have freed' : (resume (krefPut s t) s.threads n pushed rest).freed k = _ := freed
    rw [next, ref', freed', ← life]
    by_cases same : t = k
    · rw [if_pos same] at counted ⊢
      by_cases last : (s.tasks k).ref = 1
      · rw [if_pos ⟨same, last⟩, last]
        rfl
      · rw [if_neg fun both => last both.2, if_neg (by omega), if_neg (by omega)]
    · rw [if_neg same, if_neg fun both => same both.1]
      rfl

/-- Links move; the references stay balanced, and `cur_task` stays linked. -/
theorem TaskRefs.relink (own : TaskRefs cfg s k) (current : s.threads[n]? = some (head :: rest))
    (sameRef : (s'.tasks k).ref = (s.tasks k).ref) (sameFreed : s'.freed k = s.freed k)
    (sameNext : s'.nextTask = s.nextTask) (sameCur : s'.curTask = s.curTask)
    (sameStarted : started s' k = started s k)
    (counts : pushed.countP (holds k) + pushed.countP (links k) + inSession s' k +
        (inPending s' k + inRunning s' k) =
      [head].countP (holds k) + [head].countP (links k) + inSession s k +
        (inPending s k + inRunning s k))
    (linked : ∀ d < cfg.coreCount, s.curTask d = some k →
      1 ≤ inSession s' k + inRunning s' k) :
    TaskRefs cfg (resume s' s.threads n pushed rest) k := by
  have toHold := num_resume s' pushed (holds k) current
  have toLink := num_resume s' pushed (links k) current
  refine own.same sameRef sameFreed sameNext ?_ (fun _ => sameStarted) fun d device names => ?_
  · simp only [inSession_resume, inPending_resume, inRunning_resume]
    omega
  · exact linked d device (sameCur ▸ names)

theorem inSession_eq_zero (side : SessionSide s t) {session : Nat}
    (other : sessionOf s t ≠ session) : (s.sessions session).pendingList.count t = 0 :=
  List.count_eq_zero.mpr fun member => other (side.own session member)

/-- A call pops the task from the queue and will put the reference of the link. -/
theorem TaskRefs.pop (own : TaskRefs cfg s k) (side : QueueSide s k)
    (current : s.threads[n]? = some (head :: rest))
    (entitled : t = k → 1 ≤ num s (works k) + num s (ends s.curTask k))
    (quiet : holds k head = false ∧ links k head = false)
    (linked : t = k → k ∈ sessionPending s k ∨ Unnamed cfg s k) :
    TaskRefs cfg (resume (unlinkQueue s t) s.threads n [.put t] rest) k := by
  have pending := inPending_unlink s t k
  have running := inRunning_unlink s t k
  have session : inSession (unlinkQueue s t) k = inSession s k := rfl
  have once := side.once
  have claimed := side.claimed
  have puts : [Action.put t].countP (holds k) = if t = k then 1 else 0 := count_subject rfl
  have none : [Action.put t].countP (links k) = 0 := rfl
  have before : [head].countP (holds k) = 0 := by simp [quiet.1]
  have gone : [head].countP (links k) = 0 := by simp [quiet.2]
  refine own.relink current rfl rfl rfl rfl rfl ?_ fun d device names => ?_
  · by_cases same : t = k
    · have := entitled same
      rw [if_pos same] at pending running puts
      omega
    · rw [if_neg same] at pending running puts
      omega
  · have before := own.named d device names
    by_cases same : t = k
    · rcases linked same with member | unnamed
      · have : 1 ≤ inSession s k := List.count_pos_iff.mpr member
        omega
      · exact absurd names (unnamed d device)
    · rw [if_neg same] at running
      omega

theorem taskRefs_of_effect (sessions : ∀ k, SessionSide s k) (tasks : ∀ k, QueueSide s k)
    (named : StartNamed s) (owns : ∀ k, TaskRefs cfg s k)
    (current : s.threads[n]? = some (head :: rest))
    (effect : Effect cfg s choice head s' pushed) (orderly : Orderly cfg s choice head) (k : Nat) :
    TaskRefs cfg (resume s' s.threads n pushed rest) k := by
  have own := owns k
  have side := tasks k
  cases effect with
  | @sessionGot t d | @queueGot t d => exact own.get current rfl rfl rfl rfl
  | @putLast t last => exact own.put current ⟨rfl, rfl⟩
  | @putOther t other => exact own.put current ⟨rfl, rfl⟩
  | @sessionLinked t d =>
      have linked := inSession_link s t k
      have executed : [Action.submit t d .linkSession].countP (links k) = if t = k then 1 else 0 :=
        count_subject rfl
      have none : [Action.submit t d .getQueue].countP (links k) = 0 := rfl
      have keeps : [Action.submit t d .getQueue].countP (holds k) =
        [Action.submit t d .linkSession].countP (holds k) := rfl
      refine own.relink current rfl rfl rfl rfl rfl ?_ fun e device names => ?_
      · have queue : inPending (setSessionPending s (sessionOf s t) (sessionPending s t ++ [t])) k =
            inPending s k ∧
          inRunning (setSessionPending s (sessionOf s t) (sessionPending s t ++ [t])) k =
            inRunning s k := ⟨rfl, rfl⟩
        omega
      · have before := own.named e device names
        have running : inRunning (setSessionPending s (sessionOf s t) (sessionPending s t ++ [t])) k
          = inRunning s k := rfl
        omega
  | @queueLinked t d =>
      have linked := inPending_link s t k
      have executed : [Action.submit t d .linkQueue].countP (links k) = if t = k then 1 else 0 :=
        count_subject rfl
      have none : [Action.submit t d .trigger].countP (links k) = 0 := rfl
      have keeps : [Action.submit t d .trigger].countP (holds k) =
        [Action.submit t d .linkQueue].countP (holds k) := rfl
      have session : inSession (setQueuePending s (s.queue.pendingList ++ [t])) k =
        inSession s k := rfl
      have running := inRunning_setQueuePending s (s.queue.pendingList ++ [t]) k
      exact own.relink current rfl rfl rfl rfl rfl (by omega) own.named
  | @sessionPopped t =>
      have popped := inSession_pop s t k
      have awaited := (sessions k).awaited
      have waits : [Action.popSession t].countP (awaits k) = if t = k then 1 else 0 :=
        count_subject rfl
      have mine := count_head_le (awaits k) current
      have puts : [Action.put t].countP (holds k) = if t = k then 1 else 0 := count_subject rfl
      have quiet : [Action.popSession t].countP (holds k) = 0 ∧
        [Action.popSession t].countP (links k) = 0 ∧ [Action.put t].countP (links k) = 0 :=
        ⟨rfl, rfl, rfl⟩
      have queue : inPending (mppSessionPopPending s t) k = inPending s k ∧
        inRunning (mppSessionPopPending s t) k = inRunning s k := ⟨rfl, rfl⟩
      refine own.relink current rfl rfl rfl rfl rfl (by omega) fun e device names => ?_
      have before := own.named e device names
      by_cases same : t = k
      · subst same
        rcases orderly with runs | unnamed
        · have : 1 ≤ inRunning s t := List.count_pos_iff.mpr runs
          omega
        · exact absurd names (unnamed e device)
      · rw [if_neg same] at popped
        omega
  | @cleared session =>
      have after := inSession_clear s session k
      have puts : ((s.sessions session).pendingList.map Action.put).countP (holds k) =
        (s.sessions session).pendingList.count k := countP_map_put _ k _ fun _ => rfl
      have none : ((s.sessions session).pendingList.map Action.put).countP (links k) = 0 :=
        countP_map_put_eq_zero _ fun _ => rfl
      have quiet : [Action.clear session].countP (holds k) = 0 ∧
        [Action.clear session].countP (links k) = 0 := ⟨rfl, rfl⟩
      have queue : inPending (mppSessionClear s session).1 k = inPending s k ∧
        inRunning (mppSessionClear s session).1 k = inRunning s k := ⟨rfl, rfl⟩
      by_cases mine : sessionOf s k = session
      · subst mine
        rw [if_pos rfl] at after
        have list : (s.sessions (sessionOf s k)).pendingList.count k = inSession s k := rfl
        refine own.relink current rfl rfl rfl rfl rfl (by omega) fun e device names => ?_
        have before := own.named e device names
        by_cases member : k ∈ (s.sessions (sessionOf s k)).pendingList
        · rcases (orderly k member).2 with runs | unnamed
          · have : 1 ≤ inRunning s k := List.count_pos_iff.mpr runs
            omega
          · exact absurd names (unnamed e device)
        · have := List.count_eq_zero.mpr member
          omega
      · rw [if_neg mine] at after
        have zero := inSession_eq_zero (sessions k) mine
        refine own.relink current rfl rfl rfl rfl rfl (by omega) fun e device names => ?_
        have before := own.named e device names
        omega
  | @isrCleared d t =>
      refine own.stay current rfl rfl rfl ⟨rfl, rfl, rfl⟩ (fun _ => rfl) rfl rfl
        fun e device names => own.named e device ?_
      have cur : (if e = d then none else s.curTask e) = some k := names
      split at cur
      · cases cur
      · exact cur
  | @started t d =>
      refine own.stay current rfl rfl rfl ⟨rfl, rfl, rfl⟩ (fun _ => rfl) rfl rfl
        fun e device names => ?_
      have cur : (if e = d then some t else s.curTask e) = some k := names
      split at cur
      · obtain rfl := Option.some.inj cur
        rcases orderly with runs | waits
        · have : 1 ≤ inRunning s t := List.count_pos_iff.mpr runs
          exact Nat.le_trans this (Nat.le_add_left _ _)
        · have : 1 ≤ inSession s t := List.count_pos_iff.mpr waits
          exact Nat.le_trans this (Nat.le_add_right _ _)
      · exact own.named e device cur
  | @pendingPopped t =>
      have inHand : t = k → 1 ≤ num s (works k) := fun same =>
        one_le_num (head_mem_pending current) (by simp [works, same])
      refine own.pop side current (fun same => Nat.le_trans (inHand same) (Nat.le_add_right _ _))
        ⟨rfl, rfl⟩ fun same => Or.inr fun d _ names => ?_
      have := inHand same
      have := (side.running (named.current d k names)).2.2
      omega
  | @runningPopped t caller =>
      refine own.pop side current (fun same => ?_) ⟨rfl, rfl⟩ fun same => same ▸ orderly
      cases caller with
      | worker =>
          have : 1 ≤ num s (works k) :=
            one_le_num (head_mem_pending current) (by simp [works, same])
          omega
      | isr | timeoutWork =>
          have : 1 ≤ num s (ends s.curTask k) :=
            one_le_num (head_mem_pending current) (by simp [ends, same])
          omega
  | @movedToRun t d =>
      have pending := inPending_toRun s t k
      have running := inRunning_toRun s t k
      have once := side.once
      have claimed := side.claimed
      have inHand : t = k → 1 ≤ num s (works k) := fun same =>
        one_le_num (head_mem_pending current) (by simp [works, same])
      have quiet : [Action.setGrf t d].countP (holds k) = 0 ∧
        [Action.setGrf t d].countP (links k) = 0 ∧ [Action.toRun t d].countP (holds k) = 0 ∧
        [Action.toRun t d].countP (links k) = 0 := ⟨rfl, rfl, rfl, rfl⟩
      have session : inSession (pendingToRun s t) k = inSession s k := rfl
      refine own.relink current rfl rfl rfl rfl rfl ?_ fun e device names => ?_
      · by_cases same : t = k
        · have := inHand same
          rw [if_pos same] at pending running
          omega
        · rw [if_neg same] at pending running
          omega
      · have before := own.named e device names
        omega
  | @scheduled t d =>
      have inHand : t = k → 1 ≤ num s (works k) := fun same =>
        one_le_num (head_mem_pending current) (by simp [works, same])
      refine own.stay current rfl rfl rfl ⟨rfl, rfl, rfl⟩ (fun later => ?_) rfl rfl own.named
      have other : t ≠ k := fun same => by
        have working := inHand same
        have claimed := side.claimed
        have refs := own.refs
        have := own.lt_nextTask (by omega)
        omega
      exact (started_setBit_start s t k).trans (by simp [Ne.symm other])
  | @irqCancelled d t wake =>
      exact own.keep current rfl rfl rfl rfl ⟨rfl, rfl, rfl⟩ (started_setBit _ t k (by decide))
        (countP_wake wake rfl) (countP_wake wake rfl)
  | @finished d t =>
      refine own.keep current rfl rfl rfl rfl ⟨rfl, rfl, rfl⟩ ?_ ?_ ?_
      · exact (started_setBit _ t k (by decide)).trans (started_setBit s t k (by decide))
      all_goals
        rw [countP_finish _ rfl]
        split <;> rfl
  | @timeoutDone t =>
      refine own.keep current rfl rfl rfl rfl ⟨rfl, rfl, rfl⟩ ?_ rfl rfl
      exact (started_setBit _ t k (by decide)).trans (started_setBit s t k (by decide))
  | @sessionDetached session =>
      exact own.keep current rfl rfl rfl rfl ⟨rfl, rfl, rfl⟩ rfl
        (countP_detachSession _ fun _ => rfl) (countP_detachSession _ fun _ => rfl)
  | @deinitBegins session =>
      exact own.keep current rfl rfl rfl rfl ⟨rfl, rfl, rfl⟩ rfl (countP_deinit _ rfl rfl)
        (countP_deinit _ rfl rfl)
  | submitted | gaveUp | irqClaimed | timeoutClaimed | grfFailed | grfSet =>
      exact own.keep current rfl rfl rfl rfl ⟨rfl, rfl, rfl⟩ (started_setBit _ _ k (by decide)) rfl
        rfl
  | _ => exact own.keep current rfl rfl rfl rfl ⟨rfl, rfl, rfl⟩ rfl rfl rfl

/-! ## The system -/

structure TaskInv (cfg : MppConfig) (s : MppState) : Prop where
  worker : WorkerAlone s
  sessions : ∀ t, SessionSide s t
  tasks : ∀ t, QueueSide s t
  devices : ∀ d, DeviceSide cfg s d
  named : StartNamed s
  owns : ∀ t, TaskRefs cfg s t

theorem taskInv_mppInit (cfg : MppConfig) : TaskInv cfg mppInit where
  worker := ⟨[], rfl, rfl, Nat.zero_le _⟩
  sessions _ := ⟨Nat.zero_le _, Nat.le_refl _, fun _ member => by cases member⟩
  tasks _ := by
    refine ⟨Nat.zero_le _, Nat.le_refl _, Or.inl rfl, fun runs => ?_, fun runs => ?_,
      fun _ => ⟨rfl, rfl⟩⟩
    · cases runs
    · cases runs
  devices d := by
    refine ⟨?_, fun _ member => ?_, fun _ _ member => ?_, fun member => ?_, fun _ member => ?_⟩
    · simp only [num, mppInit, pending, unclaimed, idleToken, List.flatten_cons, List.flatten_nil,
        List.append_nil, List.countP_nil]
      cases cfg.prepare <;> simp
    all_goals cases member
  named := by
    refine ⟨fun _ member => ?_, fun _ scheduled => ?_, fun _ _ names => ?_⟩
    · cases member
    · cases scheduled
    · cases names
  owns _ := ⟨rfl, rfl, fun _ => rfl, fun _ _ names => by cases names⟩

/-- The actions with which a call begins and which entitle to nothing. -/
def isQuiet : Action → Bool
  | .getPendingTask _ | .pollTaskCount _ | .irqRead _ | .deinit _ | .detachSession _
  | .timeoutClaim _ | .fetch | .detach => true
  | _ => false

/-- Calls begin; the lists, counts and bits stay. -/
theorem TaskInv.begin (inv : TaskInv cfg s) (worker : WorkerAlone s')
    (counts : ∀ p : Action → Bool, (∀ action, isQuiet action = true → p action = false) →
      num s' p = num s p)
    (members : ∀ action ∈ pending s'.threads, action ∈ pending s.threads ∨
      isQuiet action = true ∧ ∀ t, takesStarted action = some t → started s t = true)
    (sameTasks : ∀ t, (s'.tasks t).ref = (s.tasks t).ref ∧ (s'.tasks t).state = (s.tasks t).state ∧
      (s'.tasks t).session = (s.tasks t).session ∧
      ((s'.tasks t).timeoutWork = true → (s.tasks t).timeoutWork = true))
    (sameLists : ∀ session, (s'.sessions session).pendingList = (s.sessions session).pendingList)
    (sameQueue : s'.queue.pendingList = s.queue.pendingList ∧
      s'.queue.runningList = s.queue.runningList ∧ s'.queue.coreIdle = s.queue.coreIdle)
    (sameCur : s'.curTask = s.curTask) (sameFreed : s'.freed = s.freed)
    (sameNext : s'.nextTask = s.nextTask) : TaskInv cfg s' := by
  have quiet : ∀ t, num s' (holds t) = num s (holds t) ∧ num s' (links t) = num s (links t) ∧
      num s' (toSession t) = num s (toSession t) ∧ num s' (toQueue t) = num s (toQueue t) ∧
      num s' (awaits t) = num s (awaits t) ∧ num s' (works t) = num s (works t) ∧
      num s' (moved t) = num s (moved t) ∧
      num s' (ends s.curTask t) = num s (ends s.curTask t) := by
    intro t
    refine ⟨?_, ?_, ?_, ?_, ?_, ?_, ?_, ?_⟩
    all_goals
      refine counts _ fun action given => ?_
      cases action <;> first | rfl | cases given
  have users : ∀ d, num s' (serves d) = num s (serves d) ∧ num s' (isrs d) = num s (isrs d) := by
    intro d
    refine ⟨?_, ?_⟩
    all_goals
      refine counts _ fun action given => ?_
      cases action <;> first | rfl | cases given
  have sameStarted : ∀ t, started s' t = started s t := fun t =>
    congrFun (sameTasks t).2.1 TaskState.start
  have sameHandled : ∀ t, handled s' t = handled s t := fun t =>
    congrFun (sameTasks t).2.1 TaskState.handle
  have pendings : ∀ t, inPending s' t = inPending s t := fun t =>
    congrArg (List.count t) sameQueue.1
  have runnings : ∀ t, inRunning s' t = inRunning s t := fun t =>
    congrArg (List.count t) sameQueue.2.1
  have owner : ∀ t, sessionOf s' t = sessionOf s t := fun t => (sameTasks t).2.2.1
  have session : ∀ t, inSession s' t = inSession s t := fun t => by
    rw [inSession, inSession, sessionPending, sessionPending, owner, sameLists]
  refine ⟨worker, fun t => ?_, fun t => ?_, fun d => ?_, ?_, fun t => ?_⟩
  · obtain ⟨_, _, linking, _, awaiting, _⟩ := quiet t
    exact (inv.sessions t).same sameLists (owner t) linking awaiting
  · obtain ⟨_, _, _, linking, _, working, moves, ending⟩ := quiet t
    exact (inv.tasks t).same ⟨sameStarted t, sameHandled t⟩ ⟨pendings t, runnings t⟩
      (Nat.le_of_eq linking) (Nat.le_of_eq working) (Nat.le_of_eq moves)
      (by rw [sameCur]; exact Nat.le_of_eq ending)
  · obtain ⟨serving, ending⟩ := users d
    have open' : unclaimed s' d ≤ unclaimed s d :=
      unclaimed_le_of_handled (congrFun sameCur d) fun t claimed => (sameHandled t).trans claimed
    have token : idleToken cfg s' d = idleToken cfg s d := by
      rw [idleToken, idleToken, sameQueue.2.2]
    refine (inv.devices d).same (congrFun sameCur d)
      (fun t claimed => (sameHandled t).trans claimed) (by omega) fun action member refers => ?_
    rcases members action member with old | new
    · exact Or.inl old
    · cases action with
      | irqClaim | irqCancel | isrRead | setCoreIdle => exact absurd new.1 (by simp [isQuiet])
      | _ => cases refers
  · refine ⟨fun action member t takes => (sameStarted t).trans ?_, fun t scheduled => ?_,
      fun d t names => ?_⟩
    · rcases members action member with old | new
      · exact inv.named.pendingNamed action old t takes
      · exact new.2 t takes
    · exact (sameStarted t).trans (inv.named.scheduled t ((sameTasks t).2.2.2 scheduled))
    · exact (sameStarted t).trans (inv.named.current d t (congrFun sameCur d ▸ names))
  · obtain ⟨holding, linking, _⟩ := quiet t
    refine (inv.owns t).same (sameTasks t).1 (congrFun sameFreed t) sameNext ?_
      (fun _ => sameStarted t) fun d device names => ?_
    · rw [holding, linking, session, pendings, runnings]
    · rw [session, runnings]
      exact (inv.owns t).named d device (congrFun sameCur d ▸ names)

/-- A call begins in a thread of its own. -/
theorem TaskInv.spawn (inv : TaskInv cfg s) {action : Action} (sameThreads : s'.threads = s.threads)
    (given : isQuiet action = true) (notWorker : isWorker action = false)
    (takes : ∀ t, takesStarted action = some t → started s t = true)
    (sameTasks : ∀ t, (s'.tasks t).ref = (s.tasks t).ref ∧ (s'.tasks t).state = (s.tasks t).state ∧
      (s'.tasks t).session = (s.tasks t).session ∧
      ((s'.tasks t).timeoutWork = true → (s.tasks t).timeoutWork = true))
    (sameLists : ∀ session, (s'.sessions session).pendingList = (s.sessions session).pendingList)
    (sameQueue : s'.queue = s.queue) (sameCur : s'.curTask = s.curTask)
    (sameFreed : s'.freed = s.freed) (sameNext : s'.nextTask = s.nextTask) :
    TaskInv cfg (spawn s' [action]) := by
  refine inv.begin (inv.worker.spawn sameThreads (by simp [notWorker])) (fun p quiet => ?_)
    (fun other member => ?_) sameTasks sameLists ?_ sameCur sameFreed sameNext
  · rw [num_spawn p [action] sameThreads, List.countP_singleton, quiet action given]
    rfl
  · rw [← sameThreads]
    rcases mem_pending_spawn.mp member with old | new
    · exact Or.inl old
    · obtain rfl := List.mem_singleton.mp new
      exact Or.inr ⟨given, takes⟩
  · exact ⟨congrArg _ sameQueue, congrArg _ sameQueue, congrArg _ sameQueue⟩

/-- Nothing refers to the task that is allocated next. -/
theorem TaskInv.unborn (inv : TaskInv cfg s) (later : s.nextTask ≤ t) :
    (num s (holds t) = 0 ∧ num s (links t) = 0 ∧ inSession s t = 0 ∧ inPending s t = 0 ∧
      inRunning s t = 0) ∧ num s (toSession t) = 0 ∧ num s (toQueue t) = 0 ∧
      num s (awaits t) = 0 ∧ num s (works t) = 0 ∧ num s (ends s.curTask t) = 0 ∧
      started s t = false ∧ handled s t = false := by
  have own := inv.owns t
  have life := own.life
  rw [if_neg (Nat.not_lt.mpr later)] at life
  have none : (s.tasks t).ref = 0 := by
    by_cases none : (s.tasks t).ref = 0
    · exact none
    · rw [if_neg none] at life
      omega
  have refs := own.refs
  have awaited := (inv.sessions t).awaited
  have claimed := (inv.tasks t).claimed
  have toSession : num s (toSession t) ≤ num s (holds t) := num_le_num s fun action counted => by
    cases action with
    | submit _ _ stage => cases stage <;> first | exact counted | cases counted
    | _ => cases counted
  have toQueue : num s (toQueue t) ≤ num s (holds t) := num_le_num s fun action counted => by
    cases action with
    | submit _ _ stage => cases stage <;> first | exact counted | cases counted
    | _ => cases counted
  have waits := own.fresh later
  exact ⟨⟨by omega, by omega, by omega, by omega, by omega⟩, by omega, by omega, by omega,
    by omega, by omega, waits, ((inv.tasks t).idle waits).2⟩

/-- What a submission changes: there is one task more, in the hands of a new thread. -/
structure Submitted (s s' : MppState) (session d : Nat) : Prop where
  counts : ∀ p : Action → Bool, num s' p = num s p + [Action.submit s.nextTask d .count].countP p
  members : ∀ action ∈ pending s'.threads,
    action ∈ pending s.threads ∨ action = .submit s.nextTask d .count
  newTask : s'.tasks s.nextTask = { session := session, ref := 1 }
  sameTasks : ∀ t, t ≠ s.nextTask → s'.tasks t = s.tasks t
  sameLists : ∀ k, (s'.sessions k).pendingList = (s.sessions k).pendingList
  cur : s'.curTask = s.curTask
  queue : s'.queue = s.queue
  freed : s'.freed = s.freed
  next : s'.nextTask = s.nextTask + 1

theorem submitted_spawn (session moved' : Nat) :
    Submitted s (Mpp.spawn (allocTask (setSessionMpp s session moved') session)
      [.submit s.nextTask d .count]) session d where
  counts p := num_spawn p _ rfl
  members _ member := (mem_pending_spawn.mp member).imp id List.mem_singleton.mp
  newTask := if_pos rfl
  sameTasks _ other := if_neg other
  sameLists _ := rfl
  cur := rfl
  queue := rfl
  freed := rfl
  next := rfl

section Submitted

variable {session : Nat}

theorem Submitted.num_others (sub : Submitted s s' session d) (p : Action → Bool)
    (other : t ≠ s.nextTask) (subject : p (.submit s.nextTask d .count) = (s.nextTask == t)) :
    num s' p = num s p := by
  have counted := sub.counts p
  rw [count_subject subject, if_neg (Ne.symm other)] at counted
  exact counted

theorem Submitted.num_new (sub : Submitted s s' session d) (p : Action → Bool)
    (subject : p (.submit s.nextTask d .count) = (s.nextTask == s.nextTask)) :
    num s' p = num s p + 1 := by
  have counted := sub.counts p
  rw [count_subject subject, if_pos rfl] at counted
  exact counted

theorem Submitted.num_quiet (sub : Submitted s s' session d) (p : Action → Bool)
    (no : p (.submit s.nextTask d .count) = false) : num s' p = num s p := by
  have counted := sub.counts p
  rw [List.countP_singleton, no] at counted
  exact counted

theorem Submitted.inPending_eq (sub : Submitted s s' session d) (t : Nat) :
    inPending s' t = inPending s t := by
  rw [inPending, inPending, sub.queue]

theorem Submitted.inRunning_eq (sub : Submitted s s' session d) (t : Nat) :
    inRunning s' t = inRunning s t := by
  rw [inRunning, inRunning, sub.queue]

theorem Submitted.sessionOf_eq (sub : Submitted s s' session d) (other : t ≠ s.nextTask) :
    sessionOf s' t = sessionOf s t := by
  rw [sessionOf, sessionOf, sub.sameTasks t other]

theorem Submitted.inSession_eq (sub : Submitted s s' session d) (other : t ≠ s.nextTask) :
    inSession s' t = inSession s t := by
  rw [inSession, inSession, sessionPending, sessionPending, sub.sessionOf_eq other, sub.sameLists]

theorem Submitted.started_eq (sub : Submitted s s' session d) (inv : TaskInv cfg s) (t : Nat) :
    started s' t = started s t := by
  by_cases new : t = s.nextTask
  · have waits := (inv.owns s.nextTask).fresh (Nat.le_refl _)
    rw [new, waits, started, sub.newTask]
  · rw [started, sub.sameTasks t new, started]

theorem Submitted.handled_eq (sub : Submitted s s' session d) (inv : TaskInv cfg s) (t : Nat) :
    handled s' t = handled s t := by
  by_cases new : t = s.nextTask
  · obtain ⟨-, -, -, -, -, -, -, open'⟩ := inv.unborn (Nat.le_refl s.nextTask)
    rw [new, open', handled, sub.newTask]
  · rw [handled, sub.sameTasks t new, handled]

/-- The task that is allocated next is in no list of a session. -/
theorem TaskInv.next_not_listed (inv : TaskInv cfg s) (k : Nat) :
    s.nextTask ∉ (s.sessions k).pendingList := fun member => by
  obtain ⟨⟨-, -, inList, -, -⟩, -⟩ := inv.unborn (Nat.le_refl s.nextTask)
  have own := (inv.sessions s.nextTask).own k member
  have : 1 ≤ inSession s s.nextTask := List.count_pos_iff.mpr (by
    rw [sessionPending, own]
    exact member)
  omega

theorem Submitted.inSession_new (sub : Submitted s s' session d) (inv : TaskInv cfg s) :
    inSession s' s.nextTask = 0 := by
  rw [inSession, sessionPending, sub.sameLists]
  exact List.count_eq_zero.mpr (inv.next_not_listed _)

theorem TaskInv.sessionSide_submit (inv : TaskInv cfg s) (sub : Submitted s s' session d)
    (t : Nat) : SessionSide s' t := by
  by_cases same : t = s.nextTask
  · subst same
    obtain ⟨-, toS, -, awaiting, -⟩ := inv.unborn (Nat.le_refl s.nextTask)
    have list := sub.inSession_new inv
    have toLink := sub.num_new (toSession s.nextTask) rfl
    have toPop := sub.num_quiet (awaits s.nextTask) rfl
    exact ⟨by omega, by omega, fun k member =>
      absurd (sub.sameLists k ▸ member) (inv.next_not_listed k)⟩
  · exact (inv.sessions t).same sub.sameLists (sub.sessionOf_eq same)
      (sub.num_others (toSession t) same rfl) (sub.num_quiet (awaits t) rfl)

theorem TaskInv.queueSide_submit (inv : TaskInv cfg s) (sub : Submitted s s' session d)
    (t : Nat) : QueueSide s' t := by
  by_cases same : t = s.nextTask
  · subst same
    obtain ⟨⟨-, -, -, inQueue, runs⟩, -, toQ, -, working, ending, waits, open'⟩ :=
      inv.unborn (Nat.le_refl s.nextTask)
    have toLink := sub.num_new (toQueue s.nextTask) rfl
    have toWork := sub.num_quiet (works s.nextTask) rfl
    have toMove := sub.num_quiet (moved s.nextTask) rfl
    have toEnd := sub.num_quiet (ends s.curTask s.nextTask) rfl
    have list := sub.inPending_eq s.nextTask
    have moves := num_moved_le s s.nextTask
    have runList := sub.inRunning_eq s.nextTask
    have none : num s' (ends s'.curTask s.nextTask) = 0 := by
      rw [sub.cur]
      omega
    have idle : started s' s.nextTask ≠ true := by
      rw [sub.started_eq inv, waits]
      exact Bool.false_ne_true
    exact ⟨by omega, by omega, by omega, fun runs' => absurd runs' idle,
      fun runs' => absurd runs' idle, fun _ => ⟨none, (sub.handled_eq inv _).trans open'⟩⟩
  · refine (inv.tasks t).same ⟨sub.started_eq inv t, sub.handled_eq inv t⟩
      ⟨sub.inPending_eq t, sub.inRunning_eq t⟩
      (Nat.le_of_eq (sub.num_others (toQueue t) same rfl))
      (Nat.le_of_eq (sub.num_quiet (works t) rfl)) (Nat.le_of_eq (sub.num_quiet (moved t) rfl)) ?_
    rw [sub.cur]
    exact Nat.le_of_eq (sub.num_quiet (ends s.curTask t) rfl)

theorem TaskInv.deviceSide_submit (inv : TaskInv cfg s) (sub : Submitted s s' session d)
    (e : Nat) : DeviceSide cfg s' e := by
  have serving := sub.num_quiet (serves e) rfl
  have users := sub.num_quiet (isrs e) rfl
  have token : idleToken cfg s' e = idleToken cfg s e := by rw [idleToken, idleToken, sub.queue]
  have keeps : ∀ t, handled s t = true → handled s' t = true := fun t claimed =>
    (sub.handled_eq inv t).trans claimed
  have lower := unclaimed_le_of_handled (congrFun sub.cur e) keeps
  refine (inv.devices e).same (congrFun sub.cur e) keeps (by omega) fun action member refers => ?_
  rcases sub.members action member with old | rfl
  · exact Or.inl old
  · cases refers

theorem TaskInv.startNamed_submit (inv : TaskInv cfg s) (sub : Submitted s s' session d) :
    StartNamed s' := by
  refine ⟨fun action member t takes => (sub.started_eq inv t).trans ?_, fun t scheduled => ?_,
    fun e t names => ?_⟩
  · rcases sub.members action member with old | rfl
    · exact inv.named.pendingNamed action old t takes
    · cases takes
  · refine (sub.started_eq inv t).trans (inv.named.scheduled t ?_)
    by_cases same : t = s.nextTask
    · rw [same, sub.newTask] at scheduled
      cases scheduled
    · rw [← sub.sameTasks t same]
      exact scheduled
  · exact (sub.started_eq inv t).trans (inv.named.current e t (sub.cur ▸ names))

theorem TaskInv.taskRefs_submit (inv : TaskInv cfg s) (sub : Submitted s s' session d) (t : Nat) :
    TaskRefs cfg s' t := by
  have own := inv.owns t
  have life := own.life
  have inQ := sub.inPending_eq t
  have inR := sub.inRunning_eq t
  have toLink := sub.num_quiet (links t) rfl
  by_cases same : t = s.nextTask
  · subst same
    obtain ⟨⟨holding, linking, -, inQueue, runs⟩, -, -, -, -, -, waits, -⟩ :=
      inv.unborn (Nat.le_refl s.nextTask)
    have toHold := sub.num_new (holds s.nextTask) rfl
    have list := sub.inSession_new inv
    have next := sub.next
    refine ⟨?_, ?_, fun later => ?_, fun e device names => ?_⟩
    · rw [sub.newTask]
      show 1 = _
      omega
    · have refs := own.refs
      rw [if_neg (Nat.lt_irrefl _)] at life
      rw [sub.newTask, sub.freed, next, if_pos (Nat.lt_succ_self _)]
      show s.freed s.nextTask + 1 = 1
      omega
    · omega
    · exact absurd (waits.symm.trans (inv.named.current e _ (sub.cur ▸ names))) (by simp)
  · have toHold := sub.num_others (holds t) same rfl
    have list := sub.inSession_eq same
    have next := sub.next
    refine ⟨?_, ?_, fun later => (sub.started_eq inv t).trans (own.fresh (by omega)),
      fun e device names => ?_⟩
    · rw [sub.sameTasks t same]
      have refs := own.refs
      omega
    · rw [sub.sameTasks t same, sub.freed, next, life]
      have border : t < s.nextTask + 1 ↔ t < s.nextTask := by omega
      simp only [border]
    · have before := own.named e device (sub.cur ▸ names)
      omega

end Submitted

/-- A new task, in the hands of its `mpp_process_task_default`. -/
theorem TaskInv.submit (inv : TaskInv cfg s) (session moved' : Nat) :
    TaskInv cfg (Mpp.spawn (allocTask (setSessionMpp s session moved') session)
      [.submit s.nextTask d .count]) := by
  have sub := submitted_spawn (s := s) (d := d) session moved'
  exact ⟨inv.worker.spawn rfl rfl, inv.sessionSide_submit sub, inv.queueSide_submit sub,
    inv.deviceSide_submit sub, inv.startNamed_submit sub, inv.taskRefs_submit sub⟩

theorem taskInv_of_steps {label : MppLabel} (inv : TaskInv cfg s) (steps : Steps cfg s label s')
    (orderly : orderlyStep cfg s label) : TaskInv cfg s' := by
  have worker := workerAlone_of_steps inv.worker steps
  cases steps with
  | call current effect =>
      have fine := orderly_of_step orderly current
      exact ⟨worker, sessionSide_of_effect inv.sessions current effect fine,
        queueSide_of_effect inv.tasks inv.devices inv.named inv.worker current effect fine,
        deviceSide_of_effect inv.tasks inv.devices inv.named inv.worker current effect fine,
        startNamed_of_effect inv.named current effect,
        taskRefs_of_effect inv.sessions inv.tasks inv.named inv.owns current effect fine⟩
  | opened | initialised =>
      exact inv.begin worker (fun _ _ => rfl) (fun _ member => Or.inl member)
        (fun _ => ⟨rfl, rfl, rfl, id⟩) (fun _ => rfl) ⟨rfl, rfl, rfl⟩ rfl rfl rfl
  | submits => exact inv.submit _ _
  | polls | resets | interrupts =>
      exact inv.spawn rfl rfl rfl (fun _ takes => by cases takes) (fun _ => ⟨rfl, rfl, rfl, id⟩)
        (fun _ => rfl) rfl rfl rfl rfl
  | @releases session =>
      split
      all_goals
        exact inv.spawn rfl rfl rfl (fun _ takes => by cases takes) (fun _ => ⟨rfl, rfl, rfl, id⟩)
          (fun _ => rfl) rfl rfl rfl rfl
  | @expires t scheduled =>
      refine inv.spawn rfl rfl rfl (fun k takes => ?_) (fun k => ⟨rfl, rfl, rfl, fun work => ?_⟩)
        (fun _ => rfl) rfl rfl rfl rfl
      · obtain rfl : t = k := by simpa [takesStarted] using takes
        exact inv.named.scheduled t scheduled
      · have before : (if k = t then false else (s.tasks k).timeoutWork) = true := work
        split at before
        · cases before
        · exact before
  | @works d rest queued idle =>
      refine inv.begin worker (fun p quiet => ?_) (fun action member => ?_)
        (fun _ => ⟨rfl, rfl, rfl, id⟩) (fun _ => rfl) ⟨rfl, rfl, rfl⟩ rfl rfl rfl
      · refine (countP_pending_start p [.fetch, .detach] idle).trans ?_
        simp [quiet .fetch rfl, quiet .detach rfl, num]
      · rcases mem_pending_start member with new | old
        · refine Or.inr ?_
          rcases List.mem_cons.mp new with rfl | last
          · exact ⟨rfl, fun _ takes => by cases takes⟩
          · obtain rfl := List.mem_singleton.mp last
            exact ⟨rfl, fun _ takes => by cases takes⟩
        · exact Or.inl old

/-- Each task is freed once at most, not while it is linked, and `cur_task` names no freed one. -/
structure TasksKept (cfg : MppConfig) (s : MppState) : Prop where
  once : ∀ t, s.freed t ≤ 1
  session : ∀ session, ∀ t ∈ (s.sessions session).pendingList, s.freed t = 0
  queue : ∀ t, t ∈ s.queue.pendingList ∨ t ∈ s.queue.runningList → s.freed t = 0
  current : ∀ d < cfg.coreCount, ∀ t, s.curTask d = some t → s.freed t = 0

theorem TaskRefs.unfreed (own : TaskRefs cfg s t)
    (linked : 1 ≤ inSession s t + (inPending s t + inRunning s t)) : s.freed t = 0 := by
  have life := own.life
  have refs := own.refs
  rw [if_neg (by omega)] at life
  split at life <;> omega

theorem TaskInv.kept (inv : TaskInv cfg s) : TasksKept cfg s := by
  refine ⟨fun t => ?_, fun session t member => ?_, fun t member => ?_, fun d device t names => ?_⟩
  · have life := (inv.owns t).life
    by_cases born : t < s.nextTask
    · rw [if_pos born] at life
      omega
    · rw [if_neg born] at life
      omega
  · have own := (inv.sessions t).own session member
    have : 1 ≤ inSession s t := List.count_pos_iff.mpr (by
      rw [sessionPending, own]
      exact member)
    exact (inv.owns t).unfreed (by omega)
  · refine (inv.owns t).unfreed ?_
    rcases member with waits | runs
    · have : 1 ≤ inPending s t := List.count_pos_iff.mpr waits
      omega
    · have : 1 ≤ inRunning s t := List.count_pos_iff.mpr runs
      omega
  · have linked := (inv.owns t).named d device names
    exact (inv.owns t).unfreed (by omega)

/-- Tasks are kept in every run whose steps are orderly. -/
theorem mpp_tasks_kept (cfg : MppConfig)
    (reach : Reaches (mppStep cfg) (orderlyStep cfg) mppInit s) : TasksKept cfg s :=
  (reach.invariant (fun _ _ _ inv orderly taken =>
    taskInv_of_steps inv (steps_of_mppStep taken) orderly) (taskInv_mppInit cfg)).kept

/-- The hardware finishes the task, thread 2 is its interrupt, and thread 3 waits for it. -/
def finishedTask : List MppLabel :=
  firstTask ++ startTask ++ [.waitResult 0] ++ proceed 2 1 ++ [.irq 0] ++ proceed 3 9 ++ proceed 2 4

theorem mpp_tasks_kept_finishedTask :
    ∃ final, runs (mppStep ⟨1, false⟩) mppInit finishedTask = some final ∧ final.freed 0 = 1 ∧
      TasksKept ⟨1, false⟩ final := by
  have outcome : (runs (mppStep ⟨1, false⟩) mppInit finishedTask).map
      (fun final => final.freed 0) = some 1 := by decide +kernel
  obtain ⟨final, execution, freed⟩ := Option.map_eq_some_iff.mp outcome
  have along : Along (mppStep ⟨1, false⟩) (orderlyStep ⟨1, false⟩) mppInit finishedTask := by
    decide +kernel
  exact ⟨final, execution, freed, mpp_tasks_kept _ (reaches_of_runs along execution)⟩

/-- The hardware does not answer: thread 2 is the timeout work, thread 3 waits for the task. -/
def timedOutTask : List MppLabel :=
  firstTask ++ startTask ++ [.timeout 0] ++ proceed 2 4 ++ [.waitResult 0] ++ proceed 3 5

/-- Two calls poll one session and both run into their timeout. -/
def polledTwice : List MppLabel :=
  firstTask ++ [.waitResult 0, .waitResult 0] ++ proceed 2 1 ++ proceed 3 1 ++
    [.call 2 { timedOut := true }, .call 3 { timedOut := true }] ++ proceed 2 3 ++ proceed 3 3

/-- `cur_task` keeps the task that timed out; two waiters put one reference each. -/
theorem timed_out_task_stays_current :
    (∃ final, runs (mppStep ⟨1, false⟩) mppInit timedOutTask = some final ∧
      final.curTask 0 = some 0 ∧ final.freed 0 = 1 ∧ ¬TasksKept ⟨1, false⟩ final) ∧
    ∃ final, runs (mppStep ⟨1, false⟩) mppInit polledTwice = some final ∧
      0 ∈ final.queue.pendingList ∧ final.freed 0 = 1 ∧ ¬TasksKept ⟨1, false⟩ final := by
  constructor
  · have outcome : (runs (mppStep ⟨1, false⟩) mppInit timedOutTask).map
        (fun final => (final.curTask 0, final.freed 0)) = some (some 0, 1) := by decide +kernel
    obtain ⟨final, execution, observed⟩ := Option.map_eq_some_iff.mp outcome
    obtain ⟨names, freed⟩ := Prod.mk.inj observed
    refine ⟨final, execution, names, freed, fun kept => ?_⟩
    have alive := kept.current 0 (by decide) 0 names
    omega
  · have outcome : (runs (mppStep ⟨1, false⟩) mppInit polledTwice).map
        (fun final => (final.queue.pendingList, final.freed 0)) = some ([0], 1) := by
      decide +kernel
    obtain ⟨final, execution, observed⟩ := Option.map_eq_some_iff.mp outcome
    obtain ⟨list, freed⟩ := Prod.mk.inj observed
    have listed : 0 ∈ final.queue.pendingList := list ▸ List.mem_singleton_self 0
    refine ⟨final, execution, listed, freed, fun kept => ?_⟩
    have alive := kept.queue 0 (Or.inl listed)
    omega

end Mpp
end RockchipSoc
