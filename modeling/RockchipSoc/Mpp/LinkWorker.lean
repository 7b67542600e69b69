import RockchipSoc.Mpp.LinkTask

/-!
# The worker of the link mode

All threads but one belong to calls of user space and to timers.  The worker receives, scans and
admits in this order, so that it never looks at a task while it receives another.
-/

namespace RockchipSoc
namespace Mpp
namespace LinkTask

open LabelledRun ActionPool

/-- The worker receives finished tasks. -/
def receiving : Action → Bool
  | .tryDequeue | .recvTask | .task .unlinkRunning _ | .task .procDone _
  | .task .wakeUp _ => true
  | _ => false

/-- The worker drops aborted tasks. -/
def scanning : Action → Bool
  | .task .scan _ | .task .put _ | .task .freeTask _ | .task .wakeUp _ => true
  | _ => false

/-- The worker has taken a task from the front of the pending list. -/
def admitting : Stage → Bool
  | .abortCheck | .taskQueue | .toRunning => true
  | _ => false

/-- The worker has found a task in the pending list. -/
def inspecting : Action → Bool
  | .task .scan _ => true
  | .task stage _ => admitting stage
  | _ => false

/-- Only the worker executes it. -/
def isWorker : Action → Bool
  | .tryDequeue | .recvTask | .scanPending | .again | .task .unlinkRunning _
  | .task .procDone _ => true
  | action => inspecting action

/-- The shape of what the worker still has to execute. -/
inductive WorkerThread : List Action → Prop
  | idle : WorkerThread []
  | receives {front : List Action} (received : ∀ action ∈ front, receiving action = true) :
      WorkerThread (front ++ [.scanPending, .again])
  | scans {front : List Action} (scanned : ∀ action ∈ front, scanning action = true) :
      WorkerThread (front ++ [.again])
  | admits {stage : Stage} {t : Nat} (late : admitting stage = true) :
      WorkerThread [.task stage t]

variable {s s' : LinkState} {head : Action} {rest pushed : List Action}

theorem receiving_of_effect (effect : Effect s head s' pushed) (received : receiving head = true) :
    ∀ action ∈ pushed, receiving action = true := by
  cases effect with
  | dequeued => exact fun action member => by rw [List.eq_of_mem_replicate member]; rfl
  | _ => simp_all [receiving]

theorem scanning_of_effect (effect : Effect s head s' pushed) (scanned : scanning head = true) :
    ∀ action ∈ pushed, scanning action = true := by
  cases effect <;> simp_all [scanning]

theorem workerThread_of_admits {stage : Stage} {t : Nat} (late : admitting stage = true)
    (effect : Effect s (.task stage t) s' pushed) : WorkerThread pushed := by
  cases effect with
  | checkDrops => exact @WorkerThread.scans [.task .wakeUp _, .task .put _] (by simp [scanning])
  | checkStops => exact .idle
  | admitted => exact .admits rfl
  | queued => exact .admits rfl
  | movedToRunning => exact @WorkerThread.scans [] (by simp)
  | _ => cases late

/-- Executing its first action leaves the worker with a thread of the same shape. -/
theorem WorkerThread.step (shape : WorkerThread (head :: rest)) (effect : Effect s head s' pushed) :
    WorkerThread (pushed ++ rest) := by
  generalize whole : head :: rest = thread at shape
  cases shape with
  | idle => cases whole
  | @receives front received =>
      cases front with
      | nil =>
          obtain ⟨rfl, rfl⟩ := List.cons.inj whole
          cases effect
          exact .scans fun action member => by
            obtain ⟨t, _, rfl⟩ := List.mem_map.mp member
            rfl
      | cons first front =>
          obtain ⟨rfl, rfl⟩ := List.cons.inj whole
          rw [List.append_eq, ← List.append_assoc]
          refine .receives fun action member => ?_
          rcases List.mem_append.mp member with new | old
          · exact receiving_of_effect effect (received head List.mem_cons_self) action new
          · exact received action (List.mem_cons_of_mem _ old)
  | @scans front scanned =>
      cases front with
      | nil =>
          obtain ⟨rfl, rfl⟩ := List.cons.inj whole
          rw [List.append_nil]
          cases effect with
          | passEnds => exact .idle
          | taskFound => exact .admits rfl
      | cons first front =>
          obtain ⟨rfl, rfl⟩ := List.cons.inj whole
          rw [List.append_eq, ← List.append_assoc]
          refine .scans fun action member => ?_
          rcases List.mem_append.mp member with new | old
          · exact scanning_of_effect effect (scanned head List.mem_cons_self) action new
          · exact scanned action (List.mem_cons_of_mem _ old)
  | admits late =>
      obtain ⟨rfl, rfl⟩ := List.cons.inj whole
      rw [List.append_nil]
      exact workerThread_of_admits late effect

/-- The worker receives and begins to scan or to look for a task with no other task in hand. -/
theorem WorkerThread.not_inspecting (shape : WorkerThread (head :: rest))
    (begins : head = .recvTask ∨ head = .scanPending ∨ head = .again) :
    ∀ action ∈ head :: rest, inspecting action = false := by
  generalize whole : head :: rest = thread at shape
  cases shape with
  | idle => cases whole
  | receives received =>
      intro action member
      rcases List.mem_append.mp member with front | last
      · have := received action front
        cases action with
        | task stage t => cases stage <;> simp_all [receiving, inspecting, admitting]
        | _ => rfl
      · rcases List.mem_pair.mp last with rfl | rfl <;> rfl
  | @scans front scanned =>
      cases front with
      | nil => simp [inspecting]
      | cons first front =>
          obtain ⟨rfl, rfl⟩ := List.cons.inj whole
          have := scanned head List.mem_cons_self
          rcases begins with rfl | rfl | rfl <;> cases this
  | admits late =>
      obtain ⟨rfl, rfl⟩ := List.cons.inj whole
      simp at begins

/-- Calls and timers leave the work of the worker alone. -/
theorem not_isWorker_of_effect (effect : Effect s head s' pushed) (call : isWorker head = false) :
    ∀ action ∈ pushed, isWorker action = false := by
  cases effect <;> simp_all [isWorker, inspecting, admitting]

/-- Thread 0 is the worker and no other thread does its work. -/
structure WorkerRuns (threads : List (List Action)) : Prop where
  worker : ∃ first, threads[0]? = some first ∧ WorkerThread first
  others : ∀ n thread, n ≠ 0 → threads[n]? = some thread → ∀ action ∈ thread,
    isWorker action = false

variable {threads : List (List Action)} {n : Nat}

theorem WorkerRuns.step (runs : WorkerRuns threads) (current : threads[n]? = some (head :: rest))
    (effect : Effect s head s' pushed) : WorkerRuns (threads.set n (pushed ++ rest)) := by
  obtain ⟨⟨first, zero, shape⟩, others⟩ := runs
  have inside : n < threads.length := (List.getElem?_eq_some_iff.mp current).1
  by_cases isZero : n = 0
  · subst isZero
    obtain rfl : first = head :: rest := Option.some.inj (zero.symm.trans current)
    refine ⟨⟨_, List.getElem?_set_self inside, shape.step effect⟩, fun m thread other found => ?_⟩
    rw [List.getElem?_set_ne (Ne.symm other)] at found
    exact others m thread other found
  · refine ⟨⟨first, by rw [List.getElem?_set_ne isZero, zero], shape⟩,
      fun m thread other found => ?_⟩
    by_cases same : n = m
    · subst same
      obtain rfl : pushed ++ rest = thread :=
        Option.some.inj ((List.getElem?_set_self inside).symm.trans found)
      have calls := others n _ isZero current
      intro action member
      rcases List.mem_append.mp member with new | old
      · exact not_isWorker_of_effect effect (calls head List.mem_cons_self) action new
      · exact calls action (List.mem_cons_of_mem _ old)
    · rw [List.getElem?_set_ne same] at found
      exact others m thread other found

theorem WorkerRuns.spawn {thread : List Action} (runs : WorkerRuns threads)
    (calls : ∀ action ∈ thread, isWorker action = false) : WorkerRuns (threads ++ [thread]) := by
  obtain ⟨⟨first, zero, shape⟩, others⟩ := runs
  have inside : 0 < threads.length := (List.getElem?_eq_some_iff.mp zero).1
  refine ⟨⟨first, by rw [List.getElem?_append_left inside, zero], shape⟩,
    fun m other positive found => ?_⟩
  rcases Nat.lt_or_ge m threads.length with old | new
  · rw [List.getElem?_append_left old] at found
    exact others m other positive found
  · rw [List.getElem?_append_right new] at found
    obtain rfl : thread = other := List.mem_singleton.mp (List.mem_of_getElem? found) |>.symm
    exact calls

theorem WorkerRuns.start {thread : List Action} (runs : WorkerRuns threads)
    (shape : WorkerThread thread) : WorkerRuns (threads.set 0 thread) := by
  obtain ⟨⟨first, zero, _⟩, others⟩ := runs
  have inside : 0 < threads.length := (List.getElem?_eq_some_iff.mp zero).1
  refine ⟨⟨thread, List.getElem?_set_self inside, shape⟩, fun m other positive found => ?_⟩
  rw [List.getElem?_set_ne (Ne.symm positive)] at found
  exact others m other positive found

/-- While the worker begins to receive, to scan or to look for a task, no thread inspects one. -/
theorem WorkerRuns.not_inspecting (runs : WorkerRuns threads)
    (current : threads[n]? = some (head :: rest))
    (begins : head = .recvTask ∨ head = .scanPending ∨ head = .again) :
    ∀ action ∈ pending threads, inspecting action = false := by
  obtain ⟨⟨first, zero, shape⟩, others⟩ := runs
  have isZero : n = 0 := by
    by_contra other
    have call := others n _ other current head List.mem_cons_self
    rcases begins with rfl | rfl | rfl <;> cases call
  subst isZero
  obtain rfl : first = head :: rest := Option.some.inj (zero.symm.trans current)
  intro action member
  obtain ⟨thread, listed, inside⟩ := List.mem_flatten.mp member
  obtain ⟨m, found⟩ := List.mem_iff_getElem?.mp listed
  by_cases same : m = 0
  · subst same
    obtain rfl : head :: rest = thread := Option.some.inj (zero.symm.trans found)
    exact shape.not_inspecting begins action inside
  · have call := others m thread same found action inside
    cases action with
    | task stage t => cases stage <;> first | exact call | rfl
    | _ => rfl

end LinkTask
end Mpp
end RockchipSoc
