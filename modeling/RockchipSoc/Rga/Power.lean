import RockchipSoc.Rga.Start

/-!
# Power and dispatch

Power is taken by a start and given back by the call that ends the job, sometimes after the next
job has been started.  Counting the calls that still owe a `rga_power_disable`, the balance is
exact, and an idle core with waiting jobs has a call that is about to dispatch them.
-/

namespace RockchipSoc
namespace Rga

open LabelledRun ActionPool

variable {cores : List Nat} {s s' : RgaState} {c j k t : Nat} {head : Action}
  {rest pushed : List Action} {choice : Choice}

/-- Power that a call in progress holds: from `rga_power_enable` to `set_reg`, and from taking a
job off its core to `rga_power_disable`. -/
def holdsPower (c : Nat) : Action → Bool
  | .start k _ stage => k == c && stage != .power
  | .powerDisable k => k == c
  | _ => false

def powerHeld (s : RgaState) (c : Nat) : Nat := (pending s.threads).countP (holdsPower c)

/-- The actions that lead to the section of `rga_job_next`. -/
def dispatches (c : Nat) : Action → Bool
  | .next k | .enqueue k _ _ => k == c
  | _ => false

structure PowerInv (s : RgaState) : Prop where
  start : StartInv s
  balance : ∀ c, s.ledger.enables c = s.ledger.disables c + (started s c).toNat + powerHeld s c
  dispatch : ∀ c, running s c = none → todo s c ≠ [] →
    ∃ action ∈ pending s.threads, dispatches c action = true

/-- `rga_running_job_abort` does not find its job running. -/
def AbortsIdle (s : RgaState) (label : RgaLabel) : Prop :=
  ∀ job ∈ (executing s label).bind aborts, running s job.1 ≠ some job.2

instance (s : RgaState) (label : RgaLabel) : Decidable (AbortsIdle s label) :=
  inferInstanceAs (Decidable (∀ job ∈ (executing s label).bind aborts,
    running s job.1 ≠ some job.2))

def PowerKept (s : RgaState) (label : RgaLabel) : Prop :=
  StartsUndisturbed s label ∧ AbortsIdle s label

instance (s : RgaState) (label : RgaLabel) : Decidable (PowerKept s label) :=
  inferInstanceAs (Decidable (StartsUndisturbed s label ∧ AbortsIdle s label))

/-- Power is on once for a started job and once for each call that holds it; waiting jobs of an
idle core are about to be dispatched. -/
structure PowerBalanced (s : RgaState) : Prop where
  balance : ∀ c, s.ledger.enables c = s.ledger.disables c + (started s c).toNat + powerHeld s c
  quiet : pending s.threads = [] → ∀ c,
    s.ledger.enables c = s.ledger.disables c + (started s c).toNat
  dispatch : ∀ c, running s c = none → todo s c ≠ [] →
    ∃ action ∈ pending s.threads, dispatches c action = true
  served : pending s.threads = [] → ∀ c, running s c = none → todo s c = []

theorem PowerInv.balanced (inv : PowerInv s) : PowerBalanced s where
  balance := inv.balance
  quiet := fun none c => by simpa [powerHeld, none] using inv.balance c
  dispatch := inv.dispatch
  served := fun none c idle => by
    by_contra waiting
    obtain ⟨action, member, _⟩ := inv.dispatch c idle waiting
    simp [none] at member

theorem PowerInv.init : PowerInv rgaInit :=
  ⟨StartInv.init, fun _ => rfl, fun _ _ waiting => absurd rfl waiting⟩

/-- What one action changes in the balance of a core. -/
structure Balances (s s' : RgaState) (head : Action) (pushed : List Action) (c : Nat) : Prop where
  sum : s'.ledger.enables c + s.ledger.disables c + (started s c).toNat +
      [head].countP (holdsPower c) =
    s.ledger.enables c + s'.ledger.disables c + (started s' c).toNat +
      pushed.countP (holdsPower c)

theorem PowerInv.balance_resume (inv : PowerInv s)
    (current : s.threads[t]? = some (head :: rest)) (balances : Balances s s' head pushed c) :
    (resume s' s.threads t pushed rest).ledger.enables c =
      (resume s' s.threads t pushed rest).ledger.disables c +
        (started (resume s' s.threads t pushed rest) c).toNat +
        powerHeld (resume s' s.threads t pushed rest) c := by
  have count : powerHeld (resume s' s.threads t pushed rest) c + _ = _ :=
    countP_pending_set (holdsPower c) current
  have before := inv.balance c
  have change := balances.sum
  have same : (started (resume s' s.threads t pushed rest) c) = started s' c := rfl
  rw [same]
  simp only [resume, powerHeld] at count before ⊢
  omega

theorem PowerInv.dispatch_resume (inv : PowerInv s)
    (current : s.threads[t]? = some (head :: rest))
    (served : running s' c = none → todo s' c ≠ [] →
      (∃ action ∈ pushed, dispatches c action = true) ∨
        running s c = none ∧ todo s c ≠ [] ∧ dispatches c head = false)
    (idle : running (resume s' s.threads t pushed rest) c = none)
    (waiting : todo (resume s' s.threads t pushed rest) c ≠ []) :
    ∃ action ∈ pending (s.threads.set t (pushed ++ rest)), dispatches c action = true := by
  rcases served idle waiting with ⟨action, new, isNext⟩ | ⟨idle', waiting', other⟩
  · exact ⟨action, mem_pending_of_pushed current new, isNext⟩
  · obtain ⟨action, member, isNext⟩ := inv.dispatch c idle' waiting'
    have positive : 0 < (pending (s.threads.set t (pushed ++ rest))).countP (dispatches c) := by
      have count : (pending (s.threads.set t (pushed ++ rest))).countP (dispatches c) + _ = _ :=
        countP_pending_set (dispatches c) current
      have before := List.countP_pos_iff.mpr ⟨action, member, isNext⟩
      have none : [head].countP (dispatches c) = 0 := by simp [other]
      omega
    obtain ⟨found, listed, isNext'⟩ := List.countP_pos_iff.mp positive
    exact ⟨found, listed, isNext'⟩

theorem started_setRunning_none (s : RgaState) (c k : Nat) :
    started (setRunning s c none) k = if k = c then false else started s k := by
  by_cases here : k = c <;> simp [started, running, setRunning, here]

theorem started_takeFirst (s : RgaState) (c x : Nat) (queue : List Nat) (k : Nat) :
    started (takeFirst s c x queue) k = if k = c then false else started s k := by
  by_cases here : k = c <;> simp [started, running, takeFirst, here]

theorem started_setReg (s : RgaState) (c j : Nat) (ret : Int) (k : Nat) :
    started (setReg s c j ret) k = if k = c then (running s c).isSome else started s k := by
  by_cases here : k = c <;> simp [started, running, setReg, setRet, here]

theorem following_ne_power (stage : StartStage) : stage.following ≠ .power := by
  cases stage <;> simp [StartStage.following]

/-- The balance of every core, action by action. -/
theorem StartInv.balances (inv : StartInv s) (current : s.threads[t]? = some (head :: rest))
    (effect : Effect cores s choice head s' pushed)
    (undisturbed : ∀ c ∈ takesRunning s choice head, (s.sched c).hwStarted = true)
    (elsewhere : ∀ c j, head = .abort c j → running s c ≠ some j) (k : Nat) :
    Balances s s' head pushed k := by
  have taken : ∀ c x, running s c = some x → c ∈ takesRunning s choice head →
      started s c = true := fun c x runs takes => by
    simp [started, runs, undisturbed c takes]
  cases effect with
  | timedOut runs async elapsed =>
      have was := taken _ _ runs (by simp [takesRunning, runs, async, elapsed])
      constructor
      rw [started_setRunning_none]
      split
      · next here =>
          subst here
          simp [holdsPower, setRunning, was]
      · next other => simp [holdsPower, setRunning, Ne.symm other]
  | completed runs =>
      have was := taken _ _ runs rfl
      constructor
      rw [started_setRunning_none]
      split
      · next here =>
          subst here
          simp [holdsPower, setRunning, was]
      · next other => simp [holdsPower, setRunning, Ne.symm other]
  | aborted runs => exact absurd runs (elsewhere _ _ rfl)
  | cleared =>
      obtain ⟨runs, unwritten⟩ := inv.starting_head current rfl
      constructor
      rw [started_setRunning_none]
      split
      · next here =>
          subst here
          simp [holdsPower, setRunning, started, unwritten]
      · simp [holdsPower, setRunning]
  | begun idle listed =>
      constructor
      rw [started_takeFirst]
      split
      · next here =>
          subst here
          simp [holdsPower, takeFirst, started, idle]
      · simp [holdsPower, takeFirst]
  | registersSet =>
      obtain ⟨runs, unwritten⟩ := inv.starting_head current rfl
      constructor
      rw [started_setReg]
      split
      · next here =>
          subst here
          simp [holdsPower, setReg, setRet, started, runs, unwritten]
      · next other => simp [holdsPower, setReg, setRet, Ne.symm other]
  | put =>
      simp only [putChannel]
      split <;> exact ⟨rfl⟩
  | leftToCaller => split <;> exact ⟨rfl⟩
  | @got c j stage channel addr pushed serves pushes =>
      have on : stage ≠ .power := fun none => by simp [none, StartStage.serves] at serves
      constructor
      rcases pushes with rfl | ⟨ret, rfl⟩
      · simp [holdsPower, on, following_ne_power]
        rfl
      · simp [holdsPower, on, startFailed, List.countP_cons]
        rfl
  | enqueued =>
      constructor
      split <;> simp [holdsPower] <;> rfl
  | @powered c j =>
      constructor
      by_cases here : k = c
      · split <;> simp [holdsPower, rgaPowerEnable, here, started, running] <;> omega
      · split <;> simp [holdsPower, rgaPowerEnable, here, Ne.symm here, started, running]
  | @powerDisabled c =>
      constructor
      by_cases here : k = c
      · simp [holdsPower, rgaPowerDisable, here, started, running]
        omega
      · simp [holdsPower, rgaPowerDisable, here, Ne.symm here, started, running]
  | passed on under =>
      constructor
      simp [holdsPower, on, following_ne_power]
  | failed on =>
      constructor
      simp [holdsPower, on, startFailed, List.countP_cons]
  | softReset | assigned | fenceAwaited | retStored | marked | signaled | retired | cleaned =>
      exact ⟨rfl⟩
  | _ =>
      constructor
      simp [holdsPower]

/-- A core that is idle with waiting jobs was so before, or the action pushes its dispatch. -/
theorem dispatch_of_effect (effect : Effect cores s choice head s' pushed)
    (elsewhere : ∀ c j, head = .abort c j → running s c ≠ some j) (k : Nat)
    (idle : running s' k = none) (waiting : todo s' k ≠ []) :
    (∃ action ∈ pushed, dispatches k action = true) ∨
      running s k = none ∧ todo s k ≠ [] ∧ dispatches k head = false := by
  have kept : ∀ c, running s' k = running (setRunning s c none) k → k ≠ c → running s k = none :=
    fun c same other => by simpa [running, setRunning, other] using same.symm.trans idle
  cases effect with
  | @timedOut c j caller x runs async elapsed =>
      by_cases here : c = k
      · exact Or.inl ⟨.enqueue c j caller, by simp, by simp [dispatches, here]⟩
      · exact Or.inr ⟨kept c rfl (Ne.symm here), waiting, rfl⟩
  | @completed c x runs =>
      by_cases here : c = k
      · exact Or.inl ⟨.next c, by simp, by simp [dispatches, here]⟩
      · exact Or.inr ⟨kept c rfl (Ne.symm here), waiting, rfl⟩
  | @cleared c j =>
      by_cases here : c = k
      · exact Or.inl ⟨.next c, by simp, by simp [dispatches, here]⟩
      · exact Or.inr ⟨kept c rfl (Ne.symm here), waiting, rfl⟩
  | aborted runs => exact absurd runs (elsewhere _ _ rfl)
  | @enqueued c j caller =>
      by_cases here : c = k
      · exact Or.inl ⟨.next c, by simp, by simp [dispatches, here]⟩
      · refine Or.inr ⟨idle, ?_, by simp [dispatches, here]⟩
        simpa [todo, Rga.enqueue, raisePriority, Ne.symm here] using waiting
  | @begun c x queue wasIdle listed =>
      by_cases here : c = k
      · simp [running, takeFirst, here] at idle
      · refine Or.inr ⟨?_, ?_, by simp [dispatches, here]⟩
        · simpa [running, takeFirst, Ne.symm here] using idle
        · simpa [todo, takeFirst, Ne.symm here] using waiting
  | @nothingNext c busy =>
      refine Or.inr ⟨idle, waiting, ?_⟩
      have here : c ≠ k := fun same => by
        subst same
        exact waiting (busy idle)
      simp [dispatches, here]
  | put =>
      rw [running_putChannel] at idle
      rw [todo_putChannel] at waiting
      exact Or.inr ⟨idle, waiting, rfl⟩
  | leftToCaller =>
      refine Or.inr ⟨?_, ?_, rfl⟩
      · split at idle <;> exact idle
      · split at waiting <;> exact waiting
  | _ => exact Or.inr ⟨idle, waiting, rfl⟩

theorem PowerInv.effect (inv : PowerInv s) (current : s.threads[t]? = some (head :: rest))
    (effect : Effect cores s choice head s' pushed)
    (undisturbed : ∀ c ∈ takesRunning s choice head, (s.sched c).hwStarted = true)
    (elsewhere : ∀ c j, head = .abort c j → running s c ≠ some j) :
    PowerInv (resume s' s.threads t pushed rest) where
  start := inv.start.effect current effect undisturbed
  balance := fun k =>
    inv.balance_resume current (inv.start.balances current effect undisturbed elsewhere k)
  dispatch := fun k => inv.dispatch_resume current (dispatch_of_effect effect elsewhere k)

/-- A thread that starts holds no power, and no queue changes with it. -/
theorem PowerInv.spawn {thread : List Action} (inv : PowerInv s) (start : StartInv s')
    (ledger : s'.ledger = s.ledger) (sched : ∀ k, running s' k = running s k ∧
      todo s' k = todo s k ∧ (s'.sched k).hwStarted = (s.sched k).hwStarted)
    (pool : s'.threads = s.threads ++ [thread])
    (quiet : ∀ k, thread.countP (holdsPower k) = 0) : PowerInv s' where
  start := start
  balance := fun k => by
    have same : started s' k = started s k :=
      congrArg₂ (fun job started => Option.isSome job && started) (sched k).1 (sched k).2.2
    rw [ledger, same, powerHeld, pool, countP_pending_spawn, quiet k]
    exact inv.balance k
  dispatch := fun k idle waiting => by
    obtain ⟨action, member, isNext⟩ := inv.dispatch k ((sched k).1 ▸ idle)
      ((sched k).2.1 ▸ waiting)
    exact ⟨action, pool ▸ mem_pending_spawn.mpr (Or.inl member), isNext⟩

theorem PowerInv.step {label : RgaLabel} (inv : PowerInv s) (allowed : PowerKept s label)
    (taken : rgaStep cores s label = some s') : PowerInv s' := by
  have steps := steps_of_rgaStep taken
  have start := inv.start.step steps allowed.1
  cases steps with
  | refused => exact inv
  | undone | imported | released => exact ⟨start, inv.balance, inv.dispatch⟩
  | committed =>
      refine inv.spawn start rfl (fun _ => ⟨rfl, rfl, rfl⟩) rfl fun k => ?_
      split <;> rfl
  | fenceSignaled waits =>
      exact inv.spawn start rfl (fun _ => ⟨rfl, rfl, rfl⟩) rfl fun _ => rfl
  | irq => exact inv.spawn start rfl (fun _ => ⟨rfl, rfl, rfl⟩) rfl fun _ => rfl
  | call current effect =>
      refine inv.effect current effect (allowed.1 _ (by simp [executing, current]))
        fun c j isAbort => ?_
      exact allowed.2 (c, j) (by simp [executing, current, aborts, isAbort])

/-- In every run in which jobs are taken off their core only once they are started, and none by
`rga_running_job_abort`, power and dispatch are balanced. -/
theorem power_and_dispatch_balanced {final : RgaState}
    (run : Reaches (rgaStep cores) PowerKept rgaInit final) : PowerBalanced final :=
  (run.invariant (fun _ _ _ inv allowed taken => inv.step allowed taken) PowerInv.init).balanced

/-- Two jobs on one core; the interrupt of the first one starts the second one before the first
one's power is given back. -/
def secondStarted : List RgaLabel :=
  [.commit plainReq false (.ready false) .absent] ++ scheduleOn 0 1 ++ proceed 0 5 ++
    [.commit plainReq true (.ready true) .absent] ++ proceed 1 1 ++ scheduleOn 1 1 ++
    [.irq 1] ++ proceed 2 10

theorem power_and_dispatch_balanced_secondStarted :
    ∃ final, runs (rgaStep [1]) rgaInit secondStarted = some final ∧
      final.ledger.enables 1 = 2 ∧ PowerBalanced final := by
  have outcome : (runs (rgaStep [1]) rgaInit secondStarted).map
      (fun final => final.ledger.enables 1) = some 2 := by decide +kernel
  obtain ⟨final, execution, enables⟩ := Option.map_eq_some_iff.mp outcome
  have along : Along (rgaStep [1]) PowerKept rgaInit secondStarted := by decide +kernel
  exact ⟨final, execution, enables, power_and_dispatch_balanced (reaches_of_runs along execution)⟩

/-- The first job's caller is interrupted while it runs and a second job is queued. -/
def abortedWhileRunning : List RgaLabel :=
  [.commit plainReq false (.ready false) .absent] ++ scheduleOn 0 1 ++ proceed 0 5 ++
    [.commit plainReq true (.ready true) .absent] ++ proceed 1 1 ++ scheduleOn 1 1 ++
    [.call 0 { waitEnd := .interrupted }] ++ proceed 0 2

/-- Power is on twice for one started job while a completion is in progress; and an abort leaves
an idle core with power on and a job waiting, with no call in progress. -/
theorem power_and_dispatch_unbalanced :
    (∃ final, runs (rgaStep [1]) rgaInit secondStarted = some final ∧
      started final 1 = true ∧ final.ledger.enables 1 = final.ledger.disables 1 + 2) ∧
    ∃ final, runs (rgaStep [1]) rgaInit abortedWhileRunning = some final ∧
      pending final.threads = [] ∧ running final 1 = none ∧ todo final 1 = [1] ∧
      final.ledger.enables 1 = final.ledger.disables 1 + 1 := by
  have twice : (runs (rgaStep [1]) rgaInit secondStarted).map (fun final =>
      (started final 1, final.ledger.enables 1, final.ledger.disables 1)) =
        some (true, 2, 0) := by decide +kernel
  have stalled : (runs (rgaStep [1]) rgaInit abortedWhileRunning).map (fun final =>
      (pending final.threads, running final 1, todo final 1, final.ledger.enables 1,
        final.ledger.disables 1)) = some ([], none, [1], 1, 0) := by decide +kernel
  constructor
  · obtain ⟨final, execution, observed⟩ := Option.map_eq_some_iff.mp twice
    simp only [Prod.mk.injEq] at observed
    obtain ⟨isStarted, enables, disables⟩ := observed
    exact ⟨final, execution, isStarted, by rw [enables, disables]⟩
  · obtain ⟨final, execution, observed⟩ := Option.map_eq_some_iff.mp stalled
    simp only [Prod.mk.injEq] at observed
    obtain ⟨none, idle, waiting, enables, disables⟩ := observed
    exact ⟨final, execution, none, idle, waiting, by rw [enables, disables]⟩

end Rga
end RockchipSoc
