import Mathlib.Data.List.Nodup
import RockchipSoc.Rga.Place

/-!
# Queues hold live jobs

A job that is done, freed or about to be freed stands nowhere, unless a sync call gives it up while
it is still queued: `rga_running_job_abort` looks at `running_job` only.
-/

namespace RockchipSoc
namespace Rga

open LabelledRun ActionPool

variable {cores : List Nat} {s s' : RgaState} {c j k t : Nat} {head : Action}
  {rest pushed : List Action} {choice : Choice}

/-- The actions that end the life of a job. -/
def retires (j : Nat) : Action → Bool
  | .retire k _ _ | .cleanup k => k == j
  | _ => false

/-- A job that is done, freed, or in the hands of a call that ends its life. -/
def Gone (s : RgaState) (j : Nat) : Prop :=
  (s.jobs j).done = true ∨ 0 < s.ledger.freed j ∨ 0 < (pending s.threads).countP (retires j)

structure QueueInv (s : RgaState) : Prop where
  placed : Placed s
  gone : ∀ j, Gone s j → j < s.nextJob ∧ whereabouts s j = 0

/-- Queues and running jobs are live, a job is in one of these places at most, and `job_count` is
the length of the queue. -/
structure QueueSafe (s : RgaState) : Prop where
  todoLive : ∀ c j, j ∈ todo s c → s.ledger.freed j = 0
  runningLive : ∀ c j, running s c = some j → s.ledger.freed j = 0
  todoNodup : ∀ c, (todo s c).Nodup
  todoOnce : ∀ c c' j, j ∈ todo s c → j ∈ todo s c' → c = c'
  runningOnce : ∀ c c' j, running s c = some j → running s c' = some j → c = c'
  apart : ∀ c c' j, running s c = some j → j ∉ todo s c'
  counted : ∀ c, (s.sched c).jobCount = (todo s c).length

/-- `rga_running_job_abort` does not run on a job that is still queued. -/
def AbortsUnqueued (s : RgaState) (label : RgaLabel) : Prop :=
  ∀ job ∈ (executing s label).bind aborts, job.2 ∉ todo s job.1

instance (s : RgaState) (label : RgaLabel) : Decidable (AbortsUnqueued s label) :=
  inferInstanceAs (Decidable (∀ job ∈ (executing s label).bind aborts, job.2 ∉ todo s job.1))

theorem QueueInv.safe (inv : QueueInv s) : QueueSafe s where
  todoLive := fun c j member => by
    obtain ⟨core, _, once, _⟩ := inv.placed.of_mem_todo member
    by_contra freed
    have nowhere := (inv.gone j (Or.inr (Or.inl (Nat.pos_of_ne_zero freed)))).2
    rw [whereabouts, placeCount, core] at nowhere
    omega
  runningLive := fun c j runs => by
    have core := inv.placed.runningCore c j runs
    by_contra freed
    have nowhere := (inv.gone j (Or.inr (Or.inl (Nat.pos_of_ne_zero freed)))).2
    rw [whereabouts, placeCount, core, count_toList_eq_one runs] at nowhere
    omega
  todoNodup := fun c => List.nodup_iff_count_eq_one.mpr fun j member =>
    (inv.placed.of_mem_todo member).2.2.1
  todoOnce := fun c c' j here there =>
    (inv.placed.todoCore c j here).symm.trans (inv.placed.todoCore c' j there)
  runningOnce := fun c c' j here there =>
    (inv.placed.runningCore c j here).symm.trans (inv.placed.runningCore c' j there)
  apart := fun c c' j runs queued => by
    have here : c = c' := (inv.placed.runningCore c j runs).symm.trans
      (inv.placed.todoCore c' j queued)
    exact (inv.placed.of_mem_todo queued).2.2.2.1 (here ▸ runs)
  counted := inv.placed.counted

/-- A job that nothing waits for and that is neither queued nor runs is nowhere. -/
theorem whereabouts_eq_zero (waits : preCount s j = 0) (notQueued : j ∉ todo s (s.jobs j).core)
    (notRunning : running s (s.jobs j).core ≠ some j) : whereabouts s j = 0 := by
  rw [whereabouts, waits, placeCount_eq_zero notQueued notRunning]

theorem setRunning_none_ne {x : Nat} (here : (s.jobs j).core = c) :
    running (setRunning s c none) (s.jobs j).core ≠ some x := by
  simp [running, setRunning, here]

/-- A job taken from its core stands nowhere. -/
theorem whereabouts_of_cleared {ending : Ending} {stage : RetireStage} (inv : Placed s)
    (runs : running s c = some j)
    (placed : PlacedAction (resume (setRunning s c none) s.threads t pushed rest)
      (.retire j ending stage)) :
    whereabouts (resume (setRunning s c none) s.threads t pushed rest) j = 0 :=
  whereabouts_eq_zero placed.1 placed.2.1 (setRunning_none_ne (inv.runningCore c j runs))

/-- What an action pushes towards the end of a job concerns one that is gone already, or one that
the action has removed from its place. -/
theorem settled_of_pushed (inv : Placed s) (current : s.threads[t]? = some (head :: rest))
    (executed : execute cores s choice head = some (s', pushed))
    (unqueued : ∀ c j, head = .abort c j → j ∉ todo s c)
    (ends : 0 < pushed.countP (retires k)) :
    Gone s k ∨ whereabouts (resume s' s.threads t pushed rest) k = 0 := by
  obtain ⟨action, new, isEnd⟩ := List.countP_pos_iff.mp ends
  have placedHead := inv.actions head (head_mem_pending current)
  have placed' : PlacedAction (resume s' s.threads t pushed rest) action :=
    (inv.execute current executed).placed.actions action (mem_pending_of_pushed current new)
  have still : retires k head = true → Gone s k := fun isEnd =>
    Or.inr (Or.inr (List.countP_pos_iff.mpr ⟨head, head_mem_pending current, isEnd⟩))
  have silent : (∀ action ∈ pushed, retires k action = false) →
      Gone s k ∨ whereabouts (resume s' s.threads t pushed rest) k = 0 := fun none => by
    rw [none action new] at isEnd
    cases isEnd
  cases head with
  | inputFence j fence =>
      have nowhere : placeCount s j = 0 := (inv.of_pre current (by simp [isPre])).2
      simp only [execute, Option.some.injEq] at executed
      have cleans : pushed = [.cleanup j] → s' = s →
          Gone s k ∨ whereabouts (resume s' s.threads t pushed rest) k = 0 := by
        rintro rfl rfl
        obtain rfl := List.mem_singleton.mp new
        obtain rfl : j = k := by simpa [retires] using isEnd
        exact Or.inr (congrArg₂ (· + ·) placed'.1 nowhere)
      have assigns : pushed = [.assign j .async] →
          Gone s k ∨ whereabouts (resume s' s.threads t pushed rest) k = 0 := by
        rintro rfl
        exact silent (by simp [retires])
      cases fence with
      | absent => exact assigns (Prod.mk.inj executed).2.symm
      | missing => exact cleans (Prod.mk.inj executed).2.symm (Prod.mk.inj executed).1.symm
      | status status callback =>
          simp only [inputFence] at executed
          split at executed
          · exact assigns (Prod.mk.inj executed).2.symm
          · split at executed
            · split at executed
              · exact cleans (Prod.mk.inj executed).2.symm (Prod.mk.inj executed).1.symm
              · exact silent (by simp [← (Prod.mk.inj executed).2])
            · exact cleans (Prod.mk.inj executed).2.symm (Prod.mk.inj executed).1.symm
  | assign j caller =>
      have nowhere : placeCount s j = 0 := (inv.of_pre current (by simp [isPre])).2
      simp only [execute, rgaJobSchedule, Option.some.injEq] at executed
      split at executed
      · exact silent (by simp [← (Prod.mk.inj executed).2, retires])
      · obtain ⟨rfl, rfl⟩ := Prod.mk.inj executed
        split at new
        · cases new
        · obtain rfl := List.mem_singleton.mp new
          obtain rfl : j = k := by simpa [retires] using isEnd
          exact Or.inr (congrArg₂ (· + ·) placed'.1 nowhere)
  | timeoutClean c j caller =>
      simp only [execute, rgaJobTimeoutClean, Option.some.injEq] at executed
      split at executed
      case h_1 x runs =>
        split at executed
        · obtain ⟨rfl, rfl⟩ := Prod.mk.inj executed
          simp only [List.mem_cons, List.not_mem_nil, or_false] at new
          rcases new with rfl | rfl | rfl | rfl
          case inr.inl =>
            obtain rfl : x = k := by simpa [retires] using isEnd
            exact Or.inr (whereabouts_of_cleared inv runs placed')
          all_goals simp [retires] at isEnd
        · exact silent (by simp [← (Prod.mk.inj executed).2, retires])
      case h_2 => exact silent (by simp [← (Prod.mk.inj executed).2, retires])
  | clearRunning c j =>
      obtain ⟨rfl, rfl⟩ := Prod.mk.inj (Option.some.inj executed)
      simp only [List.mem_cons, List.not_mem_nil, or_false] at new
      rcases new with rfl | rfl
      · obtain rfl : j = k := by simpa [retires] using isEnd
        refine Or.inr (whereabouts_eq_zero placed'.1 placed'.2.1 ?_)
        exact setRunning_none_ne placedHead.1
      · simp [retires] at isEnd
  | retire j ending stage =>
      obtain ⟨rfl, rfl⟩ := Prod.mk.inj (Option.some.inj executed)
      obtain ⟨stage, rfl⟩ := retire_retireJob s j ending stage action new
      exact Or.inl (still isEnd)
  | takeDone c =>
      obtain ⟨x, runs, outcome⟩ := Option.map_eq_some_iff.mp executed
      obtain ⟨rfl, rfl⟩ := Prod.mk.inj outcome
      simp only [List.mem_cons, List.not_mem_nil, or_false] at new
      rcases new with rfl | rfl | rfl
      case inl =>
        obtain rfl : x = k := by simpa [retires] using isEnd
        exact Or.inr (whereabouts_of_cleared inv runs placed')
      all_goals simp [retires] at isEnd
  | wait c j =>
      simp only [execute, rgaJobWait] at executed
      split at executed
      case h_1 finished _ =>
        obtain ⟨rfl, rfl⟩ := Prod.mk.inj (Option.some.inj executed)
        obtain rfl := List.mem_singleton.mp new
        obtain rfl : j = k := by simpa [retires] using isEnd
        exact Or.inl (Or.inl finished)
      case h_4 => cases executed
      all_goals exact silent (by simp [← (Prod.mk.inj (Option.some.inj executed)).2, retires])
  | abort c j =>
      obtain ⟨rfl, rfl⟩ := Prod.mk.inj (Option.some.inj executed)
      obtain rfl := List.mem_singleton.mp new
      obtain rfl : j = k := by simpa [retires] using isEnd
      obtain ⟨core, _⟩ := placedHead
      have notQueued := unqueued c j rfl
      refine Or.inr (whereabouts_eq_zero placed'.1 ?_ ?_)
      · simp only [resume]
        split <;> exact core ▸ notQueued
      · simp only [resume]
        split
        · exact setRunning_none_ne core
        case isFalse idle => exact core ▸ idle
  | enqueue c j caller =>
      obtain ⟨rfl, rfl⟩ := Prod.mk.inj (Option.some.inj executed)
      exact silent (by split <;> simp [retires])
  | start c j stage =>
      obtain ⟨rfl, rfl⟩ := Prod.mk.inj (Option.some.inj executed)
      rcases fromStart_rgaJobRun s c j choice stage action new with ⟨_, rfl⟩ | rfl | ⟨_, rfl⟩ <;>
        simp [retires] at isEnd
  | next c =>
      simp only [execute, rgaJobNext, Option.some.injEq] at executed
      split at executed <;>
        exact silent (by simp [← (Prod.mk.inj executed).2, retires])
  | irqThread c | checkRet c j =>
      obtain ⟨rfl, rfl⟩ := Prod.mk.inj (Option.some.inj executed)
      exact silent (by split <;> simp [retires])
  | softReset c | storeRet c j ret | powerDisable c | cleanup j =>
      obtain ⟨rfl, rfl⟩ := Prod.mk.inj (Option.some.inj executed)
      exact silent (by simp [retires])

theorem rgaJobRun_done_freed (s : RgaState) (c j : Nat) (choice : Choice) (stage : StartStage)
    (k : Nat) : ((rgaJobRun s c j choice stage).1.jobs k).done = (s.jobs k).done ∧
      (rgaJobRun s c j choice stage).1.ledger.freed k = s.ledger.freed k := by
  have got : ∀ channel yrgbAddr following,
      ((getHandleInfo s c j channel yrgbAddr following).1.jobs k).done = (s.jobs k).done ∧
        (getHandleInfo s c j channel yrgbAddr following).1.ledger.freed k = s.ledger.freed k := by
    intro channel yrgbAddr following
    rw [getHandleInfo]
    split <;> exact ⟨rfl, rfl⟩
  cases stage with
  | power | setReg =>
      simp only [rgaJobRun]
      split <;> exact ⟨rfl, rfl⟩
  | src | dst | pat => exact got _ _ _
  | dmaInfo | initReg => exact ⟨rfl, rfl⟩

theorem retireJob_done_freed (s : RgaState) (ending : Ending) (stage : RetireStage)
    (other : k ≠ j) : ((retireJob s j ending stage).1.jobs k).done = (s.jobs k).done ∧
      (retireJob s j ending stage).1.ledger.freed k = s.ledger.freed k := by
  cases stage with
  | mark => exact ⟨if_neg other, rfl⟩
  | signal => exact ⟨rfl, rfl⟩
  | put channel =>
      simp only [retireJob, putChannel]
      split <;> exact ⟨rfl, rfl⟩
  | cleanup =>
      simp only [retireJob]
      split
      · exact ⟨rfl, by simp [rgaJobFree, other]⟩
      · split
        · exact ⟨if_neg other, rfl⟩
        · exact ⟨rfl, rfl⟩

theorem execute_done_freed (executed : execute cores s choice head = some (s', pushed))
    (other : retires k head = false) :
    (s'.jobs k).done = (s.jobs k).done ∧ s'.ledger.freed k = s.ledger.freed k := by
  cases head with
  | start c j stage =>
      obtain ⟨rfl, rfl⟩ := Prod.mk.inj (Option.some.inj executed)
      exact rgaJobRun_done_freed s c j choice stage k
  | retire j ending stage =>
      obtain ⟨rfl, rfl⟩ := Prod.mk.inj (Option.some.inj executed)
      exact retireJob_done_freed s ending stage fun same => by simp [retires, same] at other
  | cleanup j =>
      obtain ⟨rfl, rfl⟩ := Prod.mk.inj (Option.some.inj executed)
      refine ⟨rfl, ?_⟩
      simp only [retires, beq_eq_false_iff_ne, ne_eq] at other
      simp [rgaJobFree, Ne.symm other]
  | takeDone c =>
      obtain ⟨x, _, outcome⟩ := Option.map_eq_some_iff.mp executed
      obtain ⟨rfl, rfl⟩ := Prod.mk.inj outcome
      exact ⟨rfl, rfl⟩
  | wait c j =>
      simp only [execute, rgaJobWait] at executed
      split at executed
      case h_4 => cases executed
      all_goals
        obtain ⟨rfl, rfl⟩ := Prod.mk.inj (Option.some.inj executed)
        exact ⟨rfl, rfl⟩
  | inputFence j fence =>
      obtain ⟨rfl, rfl⟩ := Prod.mk.inj (Option.some.inj executed)
      cases fence with
      | absent | missing => exact ⟨rfl, rfl⟩
      | status status callback =>
          simp only
          split
          · exact ⟨rfl, rfl⟩
          · split
            · split <;> exact ⟨rfl, rfl⟩
            · exact ⟨rfl, rfl⟩
  | assign j caller =>
      simp only [execute, rgaJobSchedule, Option.some.injEq] at executed
      split at executed <;>
      · obtain ⟨rfl, rfl⟩ := Prod.mk.inj executed
        exact ⟨rfl, rfl⟩
  | timeoutClean c j caller =>
      simp only [execute, rgaJobTimeoutClean, Option.some.injEq] at executed
      split at executed
      · split at executed <;>
        · obtain ⟨rfl, rfl⟩ := Prod.mk.inj executed
          exact ⟨rfl, rfl⟩
      · obtain ⟨rfl, rfl⟩ := Prod.mk.inj executed
        exact ⟨rfl, rfl⟩
  | next c =>
      simp only [execute, rgaJobNext, Option.some.injEq] at executed
      split at executed <;>
      · obtain ⟨rfl, rfl⟩ := Prod.mk.inj executed
        exact ⟨rfl, rfl⟩
  | abort c j =>
      obtain ⟨rfl, rfl⟩ := Prod.mk.inj (Option.some.inj executed)
      split <;> exact ⟨rfl, rfl⟩
  | softReset c | enqueue c j caller | storeRet c j ret | clearRunning c j | powerDisable c
  | irqThread c | checkRet c j =>
      obtain ⟨rfl, rfl⟩ := Prod.mk.inj (Option.some.inj executed)
      exact ⟨rfl, rfl⟩

/-- Only an action that ends the life of a job makes it done or freed. -/
theorem gone_of_execute (current : s.threads[t]? = some (head :: rest))
    (executed : execute cores s choice head = some (s', pushed))
    (gone : Gone (resume s' s.threads t pushed rest) k) :
    Gone s k ∨ 0 < pushed.countP (retires k) := by
  have still : retires k head = true → Gone s k := fun isEnd =>
    Or.inr (Or.inr (List.countP_pos_iff.mpr ⟨head, head_mem_pending current, isEnd⟩))
  cases isEnd : retires k head with
  | true => exact Or.inl (still isEnd)
  | false =>
      obtain ⟨done, freed⟩ := execute_done_freed executed isEnd
      rcases gone with done' | freed' | ends
      · exact Or.inl (Or.inl (done ▸ done'))
      · exact Or.inl (Or.inr (Or.inl (freed ▸ freed')))
      · have count : (pending (s.threads.set t (pushed ++ rest))).countP (retires k) + _ = _ :=
          countP_pending_set (retires k) current
        simp only [resume] at ends
        rcases Nat.eq_zero_or_pos (pushed.countP (retires k)) with none | some
        · exact Or.inl (Or.inr (Or.inr (by omega)))
        · exact Or.inr some

theorem QueueInv.init : QueueInv rgaInit :=
  ⟨placed_init, fun j gone => by simp [Gone, rgaInit, pending] at gone⟩

theorem QueueInv.still (inv : QueueInv s) (moves : Moves s s') (gone : Gone s k) :
    k < s'.nextJob ∧ whereabouts s' k = 0 := by
  obtain ⟨old, nowhere⟩ := inv.gone k gone
  exact ⟨Nat.lt_of_lt_of_le old moves.older,
    Nat.eq_zero_of_le_zero (nowhere ▸ moves.whereabouts_le k old)⟩

theorem QueueInv.of_quiet (inv : QueueInv s) (moves : Moves s s')
    (gone : ∀ k, Gone s' k → Gone s k) : QueueInv s' :=
  ⟨moves.placed, fun k ends => inv.still moves (gone k ends)⟩

theorem QueueInv.commit (inv : QueueInv s) (req : RgaReq) (async : Bool) (fence : InFence)
    (prologue : Prologue) (moves : Moves s (commit s req async fence prologue)) :
    QueueInv (commit s req async fence prologue) := by
  cases prologue with
  | noMemory => exact inv
  | dmaBufFails | outFenceFails =>
      refine ⟨moves.placed, fun k ends => ?_⟩
      by_cases new : k = s.nextJob
      · obtain ⟨waits, nowhere⟩ := inv.placed.fresh k (Nat.le_of_eq new.symm)
        exact ⟨new ▸ Nat.lt_succ_self _,
          whereabouts_eq_zero waits (nowhere _).1 (nowhere _).2⟩
      · refine inv.still moves ?_
        simpa [Gone, Rga.commit, allocAndFree, rgaJobFree, new] using ends
  | ready fenceFd =>
      refine inv.of_quiet moves fun k ends => ?_
      rcases ends with finished | freed | tokens
      · simp only [Rga.commit] at finished
        split at finished
        · cases finished
        · exact Or.inl finished
      · exact Or.inr (Or.inl freed)
      · refine Or.inr (Or.inr ?_)
        simp only [Rga.commit, countP_pending_spawn] at tokens
        cases async <;> simpa [retires] using tokens

theorem QueueInv.step {label : RgaLabel} (inv : QueueInv s) (allowed : AbortsUnqueued s label)
    (taken : rgaStep cores s label = some s') : QueueInv s' := by
  have moves := inv.placed.step taken
  cases label with
  | commit req async prologue fence =>
      obtain rfl := Option.some.inj taken
      exact inv.commit req async fence prologue moves
  | fenceSignaled j =>
      simp only [rgaStep] at taken
      split at taken
      case isFalse => cases taken
      case isTrue =>
        obtain rfl := Option.some.inj taken
        refine inv.of_quiet moves fun k ends => ?_
        simpa [Gone, countP_pending_spawn, retires] using ends
  | irq c =>
      simp only [rgaStep] at taken
      split at taken
      case isFalse => cases taken
      case isTrue =>
        obtain rfl := Option.some.inj taken
        refine inv.of_quiet moves fun k ends => ?_
        simpa [Gone, countP_pending_spawn, retires, setHwBusy] using ends
  | call t choice =>
      simp only [rgaStep] at taken
      split at taken
      case h_2 => cases taken
      case h_1 head rest current =>
        obtain ⟨⟨body, pushed⟩, executed, rfl⟩ := Option.map_eq_some_iff.mp taken
        refine ⟨moves.placed, fun k ends => ?_⟩
        rcases gone_of_execute current executed ends with gone | pushesEnd
        · exact inv.still moves gone
        · have unqueued : ∀ c j, head = .abort c j → j ∉ todo s c := fun c j isAbort =>
            allowed (c, j) (by simp [executing, current, aborts, isAbort])
          rcases settled_of_pushed inv.placed current executed unqueued pushesEnd with
            gone | nowhere
          · exact inv.still moves gone
          · refine ⟨?_, nowhere⟩
            obtain ⟨action, new, isEnd⟩ := List.countP_pos_iff.mp pushesEnd
            have placed := moves.placed.actions action (mem_pending_of_pushed current new)
            cases action <;> simp only [retires, beq_iff_eq, Bool.false_eq_true] at isEnd
            case retire => exact isEnd ▸ placed.2.2
            case cleanup => exact isEnd ▸ placed.2
  | importBuffer external env =>
      obtain rfl := Option.some.inj taken
      exact inv.of_quiet moves fun k ends => ends
  | releaseBuffer handle =>
      obtain rfl := Option.some.inj taken
      exact inv.of_quiet moves fun k ends => ends

/-- In every run whose aborts meet no queued job, queues and running jobs are live. -/
theorem rga_queues_hold_live_jobs {final : RgaState}
    (run : Reaches (rgaStep cores) AbortsUnqueued rgaInit final) : QueueSafe final :=
  (run.invariant (fun _ _ _ inv allowed taken => inv.step allowed taken) QueueInv.init).safe

/-- A sync job runs and completes; a second one waits in the queue meanwhile. -/
def twoSyncJobs : List RgaLabel :=
  [.commit plainReq false (.ready false) .absent] ++ scheduleOn 0 1 ++ proceed 0 5 ++
    [.commit plainReq false (.ready false) .absent] ++ scheduleOn 1 1 ++ proceed 1 1

theorem rga_queues_hold_live_jobs_twoSyncJobs :
    ∃ final, runs (rgaStep [1]) rgaInit twoSyncJobs = some final ∧
      running final 1 = some 0 ∧ todo final 1 = [1] ∧ QueueSafe final := by
  have outcome : (runs (rgaStep [1]) rgaInit twoSyncJobs).map
      (fun final => (running final 1, todo final 1)) = some (some 0, [1]) := by decide +kernel
  obtain ⟨final, execution, observed⟩ := Option.map_eq_some_iff.mp outcome
  have along : Along (rgaStep [1]) AbortsUnqueued rgaInit twoSyncJobs := by decide +kernel
  exact ⟨final, execution, (Prod.mk.inj observed).1, (Prod.mk.inj observed).2,
    rga_queues_hold_live_jobs (reaches_of_runs along execution)⟩

/-- A signal interrupts the wait of the second job while it is queued. -/
theorem interrupted_job_stays_queued :
    ∃ final, runs (rgaStep [1]) rgaInit (twoSyncJobs ++
        [.call 1 { waitEnd := .interrupted }] ++ proceed 1 2) = some final ∧
      1 ∈ todo final 1 ∧ final.ledger.freed 1 = 1 ∧ ¬QueueSafe final := by
  have outcome : (runs (rgaStep [1]) rgaInit (twoSyncJobs ++
        [.call 1 { waitEnd := .interrupted }] ++ proceed 1 2)).map
      (fun final => (todo final 1, final.ledger.freed 1)) = some ([1], 1) := by decide +kernel
  obtain ⟨final, execution, observed⟩ := Option.map_eq_some_iff.mp outcome
  obtain ⟨queue, freed⟩ := Prod.mk.inj observed
  have queued : 1 ∈ todo final 1 := queue ▸ List.mem_singleton_self 1
  refine ⟨final, execution, queued, freed, fun safe => ?_⟩
  have live := safe.todoLive 1 1 queued
  omega

end Rga
end RockchipSoc
