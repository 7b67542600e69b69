import RockchipSoc.Mpp.TaskEffect

/-!
# Counting what is pending for a task

The pending actions of the whole system are counted by what they entitle to: a reference, a link
that is still to be made, the removal of a link, or the use of a device.
-/

namespace RockchipSoc
namespace Mpp

open LabelledRun ActionPool

variable {cfg : MppConfig} {s s' : MppState} {choice : Choice} {head : Action}
  {pushed rest : List Action} {n : Nat}

/-- How many pending actions have the property. -/
def num (s : MppState) (p : Action → Bool) : Nat := (pending s.threads).countP p

theorem num_resume (s' : MppState) (pushed : List Action) (p : Action → Bool)
    (current : s.threads[n]? = some (head :: rest)) :
    num (resume s' s.threads n pushed rest) p + [head].countP p = num s p + pushed.countP p :=
  countP_pending_set p current

theorem num_spawn (p : Action → Bool) (thread : List Action) (same : s'.threads = s.threads) :
    num (spawn s' thread) p = num s p + thread.countP p := by
  rw [num, num, ← same]
  exact countP_pending_spawn p thread

/-- The executed action is counted among the pending ones. -/
theorem count_head_le (p : Action → Bool) (current : s.threads[n]? = some (head :: rest)) :
    [head].countP p ≤ num s p :=
  List.Sublist.countP_le (List.singleton_sublist.mpr (head_mem_pending current))

theorem one_le_num {p : Action → Bool} {action : Action} (member : action ∈ pending s.threads)
    (counted : p action = true) : 1 ≤ num s p := List.countP_pos_iff.mpr ⟨action, member, counted⟩

theorem num_le_num {p q : Action → Bool} (s : MppState)
    (stronger : ∀ action, p action = true → q action = true) : num s p ≤ num s q :=
  List.countP_mono_left fun action _ => stronger action

/-- An action that counts for its own task. -/
theorem count_subject {p : Action → Bool} {action : Action} {t k : Nat}
    (subject : p action = (t == k)) : [action].countP p = if t = k then 1 else 0 := by
  rw [List.countP_singleton, subject]
  simp only [beq_iff_eq]

/-! ## Predicates on actions -/

/-- A reference to the task that a thread will put. -/
def holds (t : Nat) : Action → Bool
  | .submit k _ _ | .put k => k == t
  | _ => false

/-- A reference to the task whose link is still to be made. -/
def links (t : Nat) : Action → Bool
  | .submit k _ .linkSession | .submit k _ .linkQueue => k == t
  | _ => false

/-- The task is still to be linked in its session. -/
def toSession (t : Nat) : Action → Bool
  | .submit k _ .count | .submit k _ .getSession | .submit k _ .linkSession => k == t
  | _ => false

/-- The task is still to be linked in the queue. -/
def toQueue (t : Nat) : Action → Bool
  | .submit _ _ .trigger => false
  | .submit k _ _ => k == t
  | _ => false

/-- A call that will unlink the task from its session. -/
def awaits (t : Nat) : Action → Bool
  | .wait k | .giveUp k | .popSession k => k == t
  | _ => false

/-- The worker has the task in hand and has not scheduled its timeout. -/
def works (t : Nat) : Action → Bool
  | .abortCheck k | .popPending k | .admission k | .toRun k _ | .setGrf k _ | .schedule k _ =>
      k == t
  | .popRunning k .worker => k == t
  | _ => false

/-- The worker has moved the task to the running list. -/
def moved (t : Nat) : Action → Bool
  | .setGrf k _ | .schedule k _ => k == t
  | _ => false

/-- An interrupt or a timeout that has claimed the task and will unlink it from the queue; the
interrupt thread of a device is about to find the task in `cur_task`. -/
def ends (cur : Nat → Option Nat) (t : Nat) : Action → Bool
  | .isrRead d => cur d == some t
  | .irqCancel _ k _ | .isrClear _ k | .finish _ k | .timeoutDone k => k == t
  | .popRunning k .isr | .popRunning k .timeoutWork => k == t
  | _ => false

/-- The worker has admitted a task to the device. -/
def serves (d : Nat) : Action → Bool
  | .toRun _ k | .setGrf _ k | .schedule _ k | .run _ k => k == d
  | _ => false

/-- The interrupt thread of the device is woken or at work. -/
def isrs (d : Nat) : Action → Bool
  | .irqCancel k _ _ | .isrRead k | .isrClear k _ | .finish k _ | .setCoreIdle k => k == d
  | _ => false

/-- The part of a pass of the worker that concerns tasks. -/
def isWorker : Action → Bool
  | .fetch | .abortCheck _ | .popPending _ | .admission _ | .toRun _ _ | .setGrf _ _ | .schedule _ _
  | .run _ _ | .popRunning _ .worker => true
  | _ => false

/-- The task that an action takes for started. -/
def takesStarted : Action → Option Nat
  | .run t _ | .irqClaim _ (some t) | .timeoutClaim t => some t
  | _ => none

/-! ## Links -/

/-- How often the task is linked in the pending list of its session. -/
def inSession (s : MppState) (t : Nat) : Nat := (sessionPending s t).count t

/-- How often the task is linked in the lists of the queue. -/
def inPending (s : MppState) (t : Nat) : Nat := s.queue.pendingList.count t

def inRunning (s : MppState) (t : Nat) : Nat := s.queue.runningList.count t

section Resume

variable (s' : MppState) (threads : List (List Action)) (n : Nat) (pushed rest : List Action)
  (t : Nat)

@[simp] theorem inSession_resume :
    inSession (resume s' threads n pushed rest) t = inSession s' t := rfl

@[simp] theorem inPending_resume :
    inPending (resume s' threads n pushed rest) t = inPending s' t := rfl

@[simp] theorem inRunning_resume :
    inRunning (resume s' threads n pushed rest) t = inRunning s' t := rfl

end Resume

theorem count_concat (list : List Nat) (t k : Nat) :
    (list ++ [t]).count k = list.count k + if t = k then 1 else 0 := by
  rw [List.count_append]
  by_cases same : t = k
  · rw [same, if_pos rfl, List.count_singleton_self]
  · rw [if_neg same, List.count_eq_zero.mpr fun member => same (List.mem_singleton.mp member).symm]

theorem count_erase (list : List Nat) (t k : Nat) :
    (list.erase t).count k = list.count k - if t = k then 1 else 0 := by
  split
  · next same => rw [same, List.count_erase_self]
  · next other => rw [List.count_erase_of_ne (Ne.symm other), Nat.sub_zero]

theorem inSession_link (s : MppState) (t k : Nat) :
    inSession (setSessionPending s (sessionOf s t) (sessionPending s t ++ [t])) k =
      inSession s k + if t = k then 1 else 0 := by
  have list : sessionPending (setSessionPending s (sessionOf s t) (sessionPending s t ++ [t])) k =
      if sessionOf s k = sessionOf s t then sessionPending s t ++ [t] else sessionPending s k := rfl
  rw [inSession, list]
  by_cases same : sessionOf s k = sessionOf s t
  · rw [if_pos same, count_concat, inSession, sessionPending, sessionPending, same]
  · have other : t ≠ k := fun equal => same (by rw [equal])
    rw [if_neg same, if_neg other, inSession, Nat.add_zero]

theorem inSession_pop (s : MppState) (t k : Nat) :
    inSession (mppSessionPopPending s t) k = inSession s k - if t = k then 1 else 0 := by
  have list : sessionPending (mppSessionPopPending s t) k =
      if sessionOf s k = sessionOf s t then (sessionPending s t).erase t
      else sessionPending s k := rfl
  rw [inSession, list]
  by_cases same : sessionOf s k = sessionOf s t
  · rw [if_pos same, count_erase, inSession, sessionPending, sessionPending, same]
  · have other : t ≠ k := fun equal => same (by rw [equal])
    rw [if_neg same, if_neg other, inSession, Nat.sub_zero]

theorem inSession_clear (s : MppState) (session k : Nat) :
    inSession (mppSessionClear s session).1 k =
      if sessionOf s k = session then 0 else inSession s k := by
  have list : sessionPending (mppSessionClear s session).1 k =
      if sessionOf s k = session then [] else sessionPending s k := rfl
  rw [inSession, list]
  split <;> rfl

theorem inPending_unlink (s : MppState) (t k : Nat) :
    inPending (unlinkQueue s t) k = inPending s k - if t = k then 1 else 0 := count_erase ..

theorem inRunning_unlink (s : MppState) (t k : Nat) :
    inRunning (unlinkQueue s t) k = inRunning s k - if t = k then 1 else 0 := count_erase ..

theorem inPending_toRun (s : MppState) (t k : Nat) :
    inPending (pendingToRun s t) k = inPending s k - if t = k then 1 else 0 := count_erase ..

theorem inRunning_toRun (s : MppState) (t k : Nat) :
    inRunning (pendingToRun s t) k =
      (inRunning s k - if t = k then 1 else 0) + if t = k then 1 else 0 := by
  have erased : inRunning (pendingToRun s t) k =
      (s.queue.runningList.erase t).count k + if t = k then 1 else 0 := count_concat ..
  rw [erased, count_erase, inRunning]

@[simp] theorem inRunning_setQueuePending (s : MppState) (list : List Nat) (k : Nat) :
    inRunning (setQueuePending s list) k = inRunning s k := rfl

theorem inPending_link (s : MppState) (t k : Nat) :
    inPending (setQueuePending s (s.queue.pendingList ++ [t])) k =
      inPending s k + if t = k then 1 else 0 := count_concat ..

/-- The references that clearing a session puts. -/
theorem countP_map_put (p : Action → Bool) (t : Nat) (list : List Nat)
    (puts : ∀ k, p (.put k) = (k == t)) : (list.map Action.put).countP p = list.count t := by
  rw [List.countP_map, List.count]
  exact congrArg (fun q => List.countP q list) (funext puts)

theorem countP_map_put_eq_zero {p : Action → Bool} (list : List Nat)
    (puts : ∀ k, p (.put k) = false) : (list.map Action.put).countP p = 0 := by
  rw [List.countP_map, List.countP_eq_zero]
  intro k _
  simp [puts k]

end Mpp
end RockchipSoc
