import RockchipSoc.Mpp.TaskLinks

/-!
# Released sessions

A session whose release was requested goes through the list `session_detach` to the worker, which
frees it.  `mpp_session_deinit` refuses a session that still has tasks, and nobody takes such a
session back into the list.
-/

namespace RockchipSoc
namespace Mpp

open LabelledRun ActionPool

variable {cfg : MppConfig} {s s' : MppState} {choice : Choice} {head : Action}
  {pushed rest : List Action} {n session : Nat}

/-- A call that has the released session in hand. -/
def releasing (session : Nat) : Action → Bool
  | .detachSession k | .deinit k | .freeSession k => k == session
  | _ => false

/-- A released session is freed, or in the hands of a call, or listed for the worker; the worker
counts the listed ones. -/
structure SessionsKept (s : MppState) : Prop where
  counted : s.queue.detachCount = s.queue.sessionDetach.length
  released : ∀ session, 0 < (s.sessions session).releaseRequest →
    1 ≤ s.sessionFreed session ∨ session ∈ s.queue.sessionDetach ∨
      ∃ action ∈ pending s.threads, releasing session action = true

/-- `mpp_session_deinit` is called for a session without tasks. -/
def DeinitFrees (s : MppState) : Action → Prop
  | .deinit session => (s.sessions session).taskCount = 0
  | _ => True

def deinitFreesStep (s : MppState) (label : MppLabel) : Prop :=
  ∀ action ∈ (executing s label).toList, DeinitFrees s action

instance : (action : Action) → Decidable (DeinitFrees s action)
  | .deinit _ => inferInstanceAs (Decidable (_ = _))
  | .submit _ _ _ | .put _ | .uncount _ | .getPendingTask _ | .wait _ | .giveUp _ | .popSession _
  | .pollTaskCount _ | .clear _ | .irqRead _ | .irqClaim _ _ | .irqCancel _ _ _ | .isrRead _
  | .isrClear _ _ | .finish _ _ | .setCoreIdle _ | .trigger _ | .timeoutClaim _ | .timeoutDone _
  | .fetch | .abortCheck _ | .popPending _ | .admission _ | .toRun _ _ | .setGrf _ _ | .schedule _ _
  | .run _ _ | .popRunning _ _ | .detach | .detachSession _ | .freeSession _ => isTrue trivial

instance (label : MppLabel) : Decidable (deinitFreesStep s label) :=
  inferInstanceAs (Decidable (∀ action ∈ _, DeinitFrees s action))

/-! ## The ledger of one session -/

/-- Each released session is in one place. -/
structure SessionLedger (s : MppState) (session : Nat) : Prop where
  once : (s.sessions session).releaseRequest ≤ 1
  place : num s (releasing session) + s.queue.sessionDetach.count session +
    s.sessionFreed session = (s.sessions session).releaseRequest

/-- The ledgers of all sessions, and the number of the listed ones. -/
structure DetachInv (s : MppState) : Prop where
  counted : s.queue.detachCount = s.queue.sessionDetach.length
  ledger : ∀ session, SessionLedger s session

theorem detachInv_mppInit : DetachInv mppInit where
  counted := rfl
  ledger _ := ⟨Nat.zero_le _, rfl⟩

theorem DetachInv.kept (inv : DetachInv s) : SessionsKept s where
  counted := inv.counted
  released session requested := by
    have place := (inv.ledger session).place
    by_cases freed : 1 ≤ s.sessionFreed session
    · exact Or.inl freed
    · by_cases listed : session ∈ s.queue.sessionDetach
      · exact Or.inr (Or.inl listed)
      · have absent := List.count_eq_zero.mpr listed
        exact Or.inr (Or.inr (List.countP_pos_iff.mp (show 0 < num s _ by omega)))

/-- What neither requests, moves nor frees the session keeps its ledger. -/
theorem SessionLedger.keep (own : SessionLedger s session)
    (request : (s'.sessions session).releaseRequest = (s.sessions session).releaseRequest)
    (list : s'.queue.sessionDetach = s.queue.sessionDetach)
    (freed : s'.sessionFreed session = s.sessionFreed session)
    (number : num s' (releasing session) = num s (releasing session)) :
    SessionLedger s' session := by
  refine ⟨request.symm ▸ own.once, ?_⟩
  rw [request, list, freed, number, own.place]

/-- What a call has in hand is neither listed nor freed. -/
theorem SessionLedger.inHand (own : SessionLedger s session)
    (current : s.threads[n]? = some (head :: rest)) (hand : releasing session head = true) :
    num s (releasing session) = 1 ∧ session ∉ s.queue.sessionDetach ∧
      s.sessionFreed session = 0 := by
  have here := one_le_num (head_mem_pending current) hand
  have once := own.once
  have place := own.place
  refine ⟨by omega, fun listed => ?_, by omega⟩
  have := List.count_pos_iff.mpr listed
  omega

theorem countP_deinitBegins (list : Option Nat) (k : Nat) :
    ((if list = none then [] else [Action.clear k]) ++ [Action.freeSession k]).countP
      (releasing session) = if k = session then 1 else 0 := by
  rw [List.countP_append, count_subject (show releasing session (.freeSession k) = _ from rfl)]
  split <;> simp [releasing]

theorem sessionLedger_of_effect (inv : DetachInv s)
    (current : s.threads[n]? = some (head :: rest)) (effect : Effect cfg s choice head s' pushed)
    (frees : DeinitFrees s head) (session : Nat) :
    SessionLedger (resume s' s.threads n pushed rest) session := by
  have own := inv.ledger session
  have once := own.once
  have place := own.place
  have counts := num_resume s' pushed (releasing session) current
  cases effect with
  | @detachTakes k later some listed =>
      have taken : [Action.detach].countP (releasing session) = 0 := rfl
      have given : [Action.deinit k, .detach].countP (releasing session) =
          if k = session then 1 else 0 := count_subject rfl
      rw [listed, List.count_cons] at place
      simp only [beq_iff_eq] at place
      refine ⟨once, ?_⟩
      change num _ _ + later.count session + s.sessionFreed session =
        (s.sessions session).releaseRequest
      omega
  | @sessionDetached k =>
      have taken : [Action.detachSession k].countP (releasing session) =
          if k = session then 1 else 0 := count_subject rfl
      have given : (mppSessionDetachWorkqueue s k).2.countP (releasing session) = 0 := by
        rw [mppSessionDetachWorkqueue]
        cases (s.sessions k).mpp <;> rfl
      have unlisted := ((inv.ledger k).inHand current (beq_self_eq_true k)).2.1
      refine ⟨once, ?_⟩
      change num _ _ + (s.queue.sessionDetach.erase k ++ [k]).count session +
        s.sessionFreed session = (s.sessions session).releaseRequest
      rw [List.erase_of_not_mem unlisted, count_concat]
      omega
  | deinitRefused tasks => exact absurd frees tasks
  | @deinitBegins k =>
      refine own.keep rfl rfl rfl ?_
      rw [countP_deinitBegins, count_subject (show releasing session (.deinit k) = _ from rfl)]
        at counts
      omega
  | @sessionFreed k =>
      have taken : [Action.freeSession k].countP (releasing session) =
          if session = k then 1 else 0 := (count_subject rfl).trans (by simp only [eq_comm])
      have given : [].countP (releasing session) = 0 := rfl
      have unlisted := ((inv.ledger k).inHand current (beq_self_eq_true k)).2.1
      refine ⟨once, ?_⟩
      change num _ _ + (s.queue.sessionDetach.erase k).count session +
        (s.sessionFreed session + if session = k then 1 else 0) =
          (s.sessions session).releaseRequest
      rw [List.erase_of_not_mem unlisted]
      omega
  | cleared =>
      refine own.keep rfl rfl rfl ?_
      rw [countP_map_put_eq_zero _ fun _ => rfl] at counts
      exact counts
  | irqCancelled =>
      refine own.keep rfl rfl rfl ?_
      rw [countP_wake _ rfl] at counts
      exact counts
  | finished =>
      refine own.keep rfl rfl rfl (counts.trans ?_)
      simp only [mppTaskFinish]
      cases cfg.prepare <;> rfl
  | _ => exact own.keep rfl rfl rfl counts

theorem counted_of_effect (inv : DetachInv s) (current : s.threads[n]? = some (head :: rest))
    (effect : Effect cfg s choice head s' pushed) :
    s'.queue.detachCount = s'.queue.sessionDetach.length := by
  have counted := inv.counted
  cases effect with
  | detachTakes _ listed =>
      rw [listed, List.length_cons] at counted
      exact (congrArg (· - 1) counted).trans (Nat.add_sub_cancel ..)
  | @sessionDetached k =>
      have unlisted := ((inv.ledger k).inHand current (beq_self_eq_true k)).2.1
      change s.queue.detachCount + 1 = (s.queue.sessionDetach.erase k ++ [k]).length
      rw [List.erase_of_not_mem unlisted, List.length_append, counted, List.length_singleton]
  | @sessionFreed k =>
      have unlisted := ((inv.ledger k).inHand current (beq_self_eq_true k)).2.1
      change s.queue.detachCount = (s.queue.sessionDetach.erase k).length
      rw [List.erase_of_not_mem unlisted, counted]
  | _ => exact counted

/-- A new call that has no released session in hand. -/
theorem DetachInv.spawn {thread : List Action} (inv : DetachInv s)
    (threads : s'.threads = s.threads) (queue : s'.queue = s.queue)
    (freed : s'.sessionFreed = s.sessionFreed)
    (request : ∀ k, (s'.sessions k).releaseRequest = (s.sessions k).releaseRequest)
    (quiet : ∀ k, thread.countP (releasing k) = 0) : DetachInv (spawn s' thread) := by
  refine ⟨?_, fun k => (inv.ledger k).keep (request k) ?_ (congrFun freed k) ?_⟩
  · change s'.queue.detachCount = s'.queue.sessionDetach.length
    rw [queue]
    exact inv.counted
  · exact congrArg MppTaskqueue.sessionDetach queue
  · rw [num_spawn (releasing k) thread threads, quiet k, Nat.add_zero]

theorem detachInv_of_steps {label : MppLabel} (inv : DetachInv s) (steps : Steps cfg s label s')
    (frees : deinitFreesStep s label) : DetachInv s' := by
  cases steps with
  | opened | initialised =>
      exact ⟨inv.counted, fun k => (inv.ledger k).keep rfl rfl rfl rfl⟩
  | submits | polls | resets | interrupts | expires =>
      exact inv.spawn rfl rfl rfl (fun _ => rfl) fun _ => rfl
  | @releases session unreleased =>
      refine ⟨inv.counted, fun k => ?_⟩
      have once := (inv.ledger k).once
      have place := (inv.ledger k).place
      have hand : [if (s.sessions session).mpp = none then Action.deinit session
          else .detachSession session].countP (releasing k) = if k = session then 1 else 0 := by
        split
        all_goals exact (count_subject rfl).trans (by simp only [eq_comm])
      have request : (s.sessions k).releaseRequest + (if k = session then 1 else 0) ≤ 1 := by
        split
        · next same => exact Nat.le_of_eq (by rw [same, unreleased])
        · exact once
      refine ⟨request, ?_⟩
      rw [num_spawn _ _ rfl, hand]
      change num s (releasing k) + _ + s.queue.sessionDetach.count k + s.sessionFreed k =
        (s.sessions k).releaseRequest + if k = session then 1 else 0
      omega
  | @works d later queued idle =>
      refine ⟨inv.counted, fun k => (inv.ledger k).keep rfl rfl rfl ?_⟩
      exact countP_pending_start (releasing k) [.fetch, .detach] idle
  | @call n _ head rest pushed middle current effect =>
      have fine : DeinitFrees s head := frees head (by simp [executing, current])
      have counted : middle.queue.detachCount = _ := counted_of_effect inv current effect
      exact ⟨counted, sessionLedger_of_effect inv current effect fine⟩

theorem call_of_executing {label : MppLabel} {action : Action}
    (executed : action ∈ (executing s label).toList) :
    ∃ n choice rest, label = .call n choice ∧ s.threads[n]? = some (action :: rest) := by
  cases label with
  | call n choice =>
      obtain ⟨thread, found, first⟩ := Option.bind_eq_some_iff.mp (Option.mem_toList.mp executed)
      cases thread with
      | nil => cases first
      | cons head rest =>
          obtain rfl : head = action := Option.some.inj first
          exact ⟨n, choice, rest, rfl, found⟩
  | _ => cases executed

/-- A session that `mpp_session_deinit` refuses is in no place any more. -/
theorem lost_of_refused {label : MppLabel} (inv : DetachInv s)
    (refused : ¬deinitFreesStep s label) :
    ∃ next, mppStep cfg s label = some next ∧ ¬SessionsKept next := by
  simp only [deinitFreesStep, not_forall] at refused
  obtain ⟨action, executed, refused⟩ := refused
  obtain ⟨n, choice, rest, rfl, current⟩ := call_of_executing executed
  cases action with
  | deinit session =>
      have tasks : (s.sessions session).taskCount ≠ 0 := refused
      refine ⟨resume s s.threads n [] rest, ?_, fun kept => ?_⟩
      · simp [mppStep, current, execute, mppSessionDeinit, tasks]
      · obtain ⟨hand, unlisted, unfreed⟩ :=
          (inv.ledger session).inHand current (beq_self_eq_true session)
        have taken : [Action.deinit session].countP (releasing session) = 1 :=
          (count_subject rfl).trans (if_pos rfl)
        have given : [].countP (releasing session) = 0 := rfl
        have counts := num_resume s [] (releasing session) current
        have place := (inv.ledger session).place
        have requested : 0 < (s.sessions session).releaseRequest := by omega
        rcases kept.released session requested with freed | listed | held
        · exact absurd unfreed (Nat.ne_of_gt freed)
        · exact unlisted listed
        · have more : 1 ≤ num (resume s s.threads n [] rest) (releasing session) :=
            List.countP_pos_iff.mpr held
          omega
  | _ => exact absurd trivial refused

/-- Released sessions are kept in exactly the executions that call `mpp_session_deinit` for
sessions without tasks only. -/
theorem mpp_released_session_kept_iff (cfg : MppConfig) (labels : List MppLabel) :
    Always (mppStep cfg) SessionsKept mppInit labels ↔
      Along (mppStep cfg) deinitFreesStep mppInit labels :=
  always_iff_along DetachInv (fun _ inv => inv.kept)
    (fun _ _ _ inv _ frees taken => detachInv_of_steps inv (steps_of_mppStep taken) frees)
    (fun _ _ inv _ refused => lost_of_refused inv refused) detachInv_mppInit labels
    (along_anyStep mppInit labels)

/-- Thread 2 waits for a running task and gives up, thread 3 releases the session, and the worker
looks at the session while the task runs.  Then thread 4 is the interrupt of the task. -/
def releasedWhileRunning : List MppLabel :=
  firstTask ++ startTask ++ [.waitResult 0] ++ proceed 2 1 ++ [.call 2 { timedOut := true }] ++
    proceed 2 3 ++ [.release 0] ++ proceed 3 2 ++ [.work] ++ proceed 0 4 ++ [.irq 0] ++
    proceed 4 10 ++ [.work] ++ proceed 0 2

/-- The task is gone, the session has no tasks, nobody holds it, and it is not freed. -/
theorem released_session_is_lost :
    ∃ final, runs (mppStep ⟨1, false⟩) mppInit releasedWhileRunning = some final ∧
      (final.sessions 0).releaseRequest = 1 ∧ (final.sessions 0).taskCount = 0 ∧
      pending final.threads = [] ∧ final.sessionFreed 0 = 0 ∧ ¬SessionsKept final := by
  have outcome : (runs (mppStep ⟨1, false⟩) mppInit releasedWhileRunning).map
      (fun final => (((final.sessions 0).releaseRequest, (final.sessions 0).taskCount),
        pending final.threads, final.sessionFreed 0, final.queue.sessionDetach)) =
      some ((1, 0), [], 0, []) := by decide +kernel
  obtain ⟨final, execution, observed⟩ := Option.map_eq_some_iff.mp outcome
  obtain ⟨session, observed⟩ := Prod.mk.inj observed
  obtain ⟨requested, tasks⟩ := Prod.mk.inj session
  obtain ⟨quiet, observed⟩ := Prod.mk.inj observed
  obtain ⟨unfreed, unlisted⟩ := Prod.mk.inj observed
  refine ⟨final, execution, requested, tasks, quiet, unfreed, fun kept => ?_⟩
  rcases kept.released 0 (by omega) with freed | listed | ⟨_, held, _⟩
  · omega
  · rw [unlisted] at listed
    cases listed
  · rw [quiet] at held
    cases held

end Mpp
end RockchipSoc
