import RockchipSoc.Rga.Effect

/-!
# Starts in progress

`rga_job_next` starts a job outside of the lock, and other calls may clear `running_job` meanwhile.
As long as they leave alone a job whose `set_reg` has not been executed, a core has a start in
progress exactly when it has a running job that is not started, and it is the start of that job.
-/

namespace RockchipSoc
namespace Rga

open LabelledRun ActionPool

variable {cores : List Nat} {s s' : RgaState} {c j k t : Nat} {head : Action}
  {rest pushed : List Action} {choice : Choice}

/-- The core and the job of a start in progress. -/
def startOf : Action → Option (Nat × Nat)
  | .start c j _ | .storeRet c j _ | .clearRunning c j => some (c, j)
  | _ => none

def isStart (c : Nat) (action : Action) : Bool := (startOf action).any fun start => start.1 == c

def startCount (s : RgaState) (c : Nat) : Nat := (pending s.threads).countP (isStart c)

def started (s : RgaState) (c : Nat) : Bool := (running s c).isSome && (s.sched c).hwStarted

/-- The core has a running job whose registers are not written yet. -/
def starting (s : RgaState) (c : Nat) : Bool := (running s c).isSome && !(s.sched c).hwStarted

structure StartInv (s : RgaState) : Prop where
  count : ∀ c, startCount s c = (starting s c).toNat
  job : ∀ action ∈ pending s.threads, ∀ start ∈ startOf action, running s start.1 = some start.2

/-- The core whose running job an action takes away: a timed out job, a completed one, or one that
is aborted. -/
def takesRunning (s : RgaState) (choice : Choice) : Action → Option Nat
  | .timeoutClean c _ _ =>
      if ((running s c).any fun x => (s.jobs x).async) && choice.elapsed then some c else none
  | .takeDone c => some c
  | .abort c j => if running s c = some j then some c else none
  | _ => none

def choiceOf : RgaLabel → Choice
  | .call _ choice => choice
  | _ => {}

/-- Running jobs are taken away only once they are started. -/
def StartsUndisturbed (s : RgaState) (label : RgaLabel) : Prop :=
  ∀ action ∈ executing s label, ∀ c ∈ takesRunning s (choiceOf label) action,
    (s.sched c).hwStarted = true

instance (s : RgaState) (label : RgaLabel) : Decidable (StartsUndisturbed s label) :=
  inferInstanceAs (Decidable (∀ action ∈ executing s label,
    ∀ c ∈ takesRunning s (choiceOf label) action, (s.sched c).hwStarted = true))

theorem StartInv.init : StartInv rgaInit :=
  ⟨fun _ => rfl, fun _ member => by simp [rgaInit, pending] at member⟩

theorem isStart_of_mem {action : Action} {start : Nat × Nat} (member : start ∈ startOf action) :
    isStart start.1 action = true := by
  rw [isStart, Option.mem_def.mp member]
  simp

/-- A core without a start in progress has no pending action of one. -/
theorem startOf_ne {action : Action} {start : Nat × Nat} (noStart : startCount s c = 0)
    (waiting : action ∈ pending s.threads) (member : start ∈ startOf action) : start.1 ≠ c := by
  intro here
  have positive := List.countP_pos_iff.mpr ⟨action, waiting, isStart_of_mem member⟩
  rw [here, ← startCount] at positive
  omega

theorem startCount_resume (current : s.threads[t]? = some (head :: rest)) (k : Nat) :
    startCount (resume s' s.threads t pushed rest) k + [head].countP (isStart k) =
      startCount s k + pushed.countP (isStart k) :=
  countP_pending_set (isStart k) current

/-- The job that is being started is the running one. -/
theorem StartInv.starting_head (inv : StartInv s) (current : s.threads[t]? = some (head :: rest))
    (start : startOf head = some (c, j)) :
    running s c = some j ∧ (s.sched c).hwStarted = false := by
  have waiting := head_mem_pending current
  have runs : running s c = some j := inv.job head waiting (c, j) start
  have positive : 0 < startCount s c :=
    List.countP_pos_iff.mpr ⟨head, waiting, isStart_of_mem start⟩
  have count := inv.count c
  refine ⟨runs, ?_⟩
  cases written : (s.sched c).hwStarted with
  | false => rfl
  | true =>
      simp only [starting, written, Bool.not_true, Bool.and_false, Bool.toNat_false] at count
      omega

/-- An action that touches no running job pushes as much of a start as it is itself. -/
theorem StartInv.resume (inv : StartInv s) (current : s.threads[t]? = some (head :: rest))
    (sameRunning : ∀ k, running s' k = running s k)
    (sameStarted : ∀ k, (s'.sched k).hwStarted = (s.sched k).hwStarted)
    (sameCount : ∀ k, pushed.countP (isStart k) = [head].countP (isStart k))
    (job : ∀ action ∈ pushed, startOf action = none ∨ startOf action = startOf head) :
    StartInv (Rga.resume s' s.threads t pushed rest) := by
  constructor
  · intro k
    have count : startCount (Rga.resume s' s.threads t pushed rest) k + _ = _ :=
      startCount_resume current k
    have same : starting (Rga.resume s' s.threads t pushed rest) k = starting s k :=
      congrArg₂ (fun job started => Option.isSome job && !started) (sameRunning k) (sameStarted k)
    rw [same, ← inv.count k]
    have := sameCount k
    omega
  · intro action member start isStart
    refine (sameRunning start.1).trans ?_
    rcases mem_pending_set current member with new | old
    · rcases job action new with none | same
      · rw [none] at isStart
        cases isStart
      · exact inv.job head (head_mem_pending current) start (same ▸ isStart)
    · exact inv.job action old start isStart

/-- Clearing `running_job` of a core disturbs no start if none but the own one is in progress. -/
theorem StartInv.clear (inv : StartInv s) (current : s.threads[t]? = some (head :: rest))
    (own : startCount s c = [head].countP (isStart c))
    (others : ∀ k, k ≠ c → [head].countP (isStart k) = 0)
    (noStart : ∀ action ∈ pushed, startOf action = none) :
    StartInv (Rga.resume (setRunning s c none) s.threads t pushed rest) := by
  have pushedNone : ∀ k, pushed.countP (isStart k) = 0 := fun k =>
    List.countP_eq_zero.mpr fun action member => by simp [isStart, noStart action member]
  have idle : startCount (Rga.resume (setRunning s c none) s.threads t pushed rest) c = 0 := by
    have count : startCount (Rga.resume (setRunning s c none) s.threads t pushed rest) c + _ =
      _ := startCount_resume current c
    rw [pushedNone] at count
    omega
  have running_ne : ∀ k, k ≠ c →
      running (Rga.resume (setRunning s c none) s.threads t pushed rest) k = running s k :=
    fun k other => if_neg other
  constructor
  · intro k
    by_cases here : k = c
    · subst here
      rw [idle]
      simp [starting, running, Rga.resume, setRunning]
    · have count : startCount (Rga.resume (setRunning s c none) s.threads t pushed rest) k +
        _ = _ := startCount_resume current k
      have same : starting (Rga.resume (setRunning s c none) s.threads t pushed rest) k =
          starting s k := by
        rw [starting, running_ne k here]
        rfl
      rw [same, ← inv.count k]
      have := others k here
      have := pushedNone k
      omega
  · intro action member start isStart
    have other : start.1 ≠ c := startOf_ne idle member isStart
    rw [running_ne _ other]
    rcases mem_pending_set current member with new | old
    · rw [noStart action new] at isStart
      cases isStart
    · exact inv.job action old start isStart

/-- A started job can be taken away. -/
theorem StartInv.take (inv : StartInv s) (current : s.threads[t]? = some (head :: rest))
    (written : (s.sched c).hwStarted = true) (quiet : startOf head = none)
    (noStart : ∀ action ∈ pushed, startOf action = none) :
    StartInv (Rga.resume (setRunning s c none) s.threads t pushed rest) := by
  have none : ∀ k, [head].countP (isStart k) = 0 := by simp [isStart, quiet]
  refine inv.clear current ?_ (fun k _ => none k) noStart
  rw [inv.count, none]
  simp [starting, written]

/-- `rga_job_next` begins the start of the job that it takes from the queue. -/
theorem StartInv.begin {x : Nat} {queue : List Nat} (inv : StartInv s)
    (current : s.threads[t]? = some (.next c :: rest)) (idle : running s c = none) :
    StartInv (Rga.resume (takeFirst s c x queue) s.threads t [.start c x .power] rest) := by
  have noStart : startCount s c = 0 := by
    rw [inv.count]
    simp [starting, idle]
  have running_ne : ∀ k, k ≠ c → running (Rga.resume (takeFirst s c x queue) s.threads t
      [.start c x .power] rest) k = running s k := fun k other => if_neg other
  have running_self : running (Rga.resume (takeFirst s c x queue) s.threads t
      [.start c x .power] rest) c = some x := if_pos rfl
  constructor
  · intro k
    have count : startCount (Rga.resume (takeFirst s c x queue) s.threads t
      [.start c x .power] rest) k + _ = _ := startCount_resume current k
    by_cases here : k = c
    · subst here
      simp only [noStart, isStart, startOf, List.countP_singleton, Option.any_none,
        Option.any_some, beq_self_eq_true, if_true, Bool.false_eq_true, if_false] at count
      rw [starting, running_self]
      simp [Rga.resume, takeFirst] at count ⊢
      omega
    · have same : starting (Rga.resume (takeFirst s c x queue) s.threads t
          [.start c x .power] rest) k = starting s k := by
        rw [starting, running_ne k here]
        simp [starting, Rga.resume, takeFirst, here]
      rw [same, ← inv.count k]
      simpa [isStart, startOf, Ne.symm here] using count
  · intro action member start isStart
    rcases mem_pending_set current member with new | old
    · obtain rfl := List.mem_singleton.mp new
      obtain rfl := Option.some.inj isStart
      exact running_self
    · rw [running_ne _ (startOf_ne noStart old isStart)]
      exact inv.job action old start isStart

/-- `set_reg` completes a start. -/
theorem StartInv.write {ret : Int} (inv : StartInv s)
    (current : s.threads[t]? = some (.start c j .setReg :: rest)) :
    StartInv (Rga.resume (setReg s c j ret) s.threads t [] rest) := by
  constructor
  · intro k
    have count : startCount (Rga.resume (setReg s c j ret) s.threads t [] rest) k + _ = _ :=
      startCount_resume current k
    rw [inv.count] at count
    by_cases here : k = c
    · subst here
      obtain ⟨runs, unwritten⟩ := inv.starting_head current rfl
      have before : starting s k = true := by simp [starting, runs, unwritten]
      have after : starting (Rga.resume (setReg s k j ret) s.threads t [] rest) k = false := by
        simp [starting, Rga.resume, setReg, setRet]
      rw [after]
      simp [isStart, startOf, before] at count
      exact count
    · have same :
          starting (Rga.resume (setReg s c j ret) s.threads t [] rest) k = starting s k := by
        simp [starting, running, Rga.resume, setReg, setRet, here]
      rw [same]
      simpa [isStart, startOf, Ne.symm here] using count
  · intro action member start isStart
    exact inv.job action ((mem_pending_set current member).resolve_left (by simp)) start isStart

theorem StartInv.effect (inv : StartInv s) (current : s.threads[t]? = some (head :: rest))
    (effect : Effect cores s choice head s' pushed)
    (undisturbed : ∀ c ∈ takesRunning s choice head, (s.sched c).hwStarted = true) :
    StartInv (Rga.resume s' s.threads t pushed rest) := by
  cases effect with
  | begun idle listed => exact inv.begin current idle
  | registersSet => exact inv.write current
  | timedOut runs async elapsed =>
      refine inv.take current (undisturbed _ ?_) rfl (by simp [startOf])
      simp [takesRunning, runs, async, elapsed]
  | completed runs => exact inv.take current (undisturbed _ rfl) rfl (by simp [startOf])
  | aborted runs =>
      exact inv.take current (undisturbed _ (by simp [takesRunning, runs])) rfl (by simp [startOf])
  | cleared =>
      obtain ⟨runs, unwritten⟩ := inv.starting_head current rfl
      refine inv.clear current ?_ (fun k other => ?_) (by simp [startOf])
      · rw [inv.count]
        simp [starting, runs, unwritten, isStart, startOf]
      · simp [isStart, startOf, Ne.symm other]
  | leftToCaller =>
      refine inv.resume current (fun k => ?_) (fun k => ?_) (by simp [isStart, startOf]) (by simp)
      · split <;> rfl
      · split <;> rfl
  | put =>
      refine inv.resume current (fun k => ?_) (fun k => ?_) (by simp [isStart, startOf])
        (by simp [startOf])
      · simp only [putChannel]
        split <;> rfl
      · simp only [putChannel]
        split <;> rfl
  | got serves pushes =>
      refine inv.resume current (fun _ => rfl) (fun _ => rfl) (fun k => ?_) ?_
      · rcases pushes with rfl | ⟨ret, rfl⟩ <;> simp [isStart, startOf, startFailed]
      · rcases pushes with rfl | ⟨ret, rfl⟩ <;> simp [startOf, startFailed]
  | enqueued =>
      refine inv.resume current (fun _ => rfl) (fun _ => rfl) (fun k => ?_) ?_
      · split <;> simp [isStart, startOf]
      · split <;> simp [startOf]
  | _ =>
      exact inv.resume current (fun _ => rfl) (fun _ => rfl)
        (by simp [isStart, startOf, startFailed]) (by simp [startOf, startFailed])

theorem StartInv.spawn {thread : List Action} (inv : StartInv s) (sched : ∀ k,
      running s' k = running s k ∧ (s'.sched k).hwStarted = (s.sched k).hwStarted)
    (pool : s'.threads = s.threads ++ [thread])
    (quiet : ∀ action ∈ thread, startOf action = none) : StartInv s' := by
  constructor
  · intro k
    have none : thread.countP (isStart k) = 0 :=
      List.countP_eq_zero.mpr fun action member => by simp [isStart, quiet action member]
    have same : starting s' k = starting s k :=
      congrArg₂ (fun job started => Option.isSome job && !started) (sched k).1 (sched k).2
    rw [startCount, pool, countP_pending_spawn, none, same, ← inv.count k]
    rfl
  · intro action member start isStart
    rw [pool] at member
    rw [(sched start.1).1]
    rcases mem_pending_spawn.mp member with old | new
    · exact inv.job action old start isStart
    · rw [quiet action new] at isStart
      cases isStart

theorem StartInv.step {label : RgaLabel} (inv : StartInv s) (steps : Steps cores s label s')
    (undisturbed : StartsUndisturbed s label) : StartInv s' := by
  cases steps with
  | refused => exact inv
  | undone | imported | released => exact ⟨inv.count, inv.job⟩
  | committed =>
      refine inv.spawn (fun _ => ⟨rfl, rfl⟩) rfl ?_
      simp only [List.mem_singleton, forall_eq]
      split <;> rfl
  | fenceSignaled waits => exact inv.spawn (fun _ => ⟨rfl, rfl⟩) rfl (by simp [startOf])
  | irq => exact inv.spawn (fun _ => ⟨rfl, rfl⟩) rfl (by simp [startOf])
  | call current effect =>
      exact inv.effect current effect (undisturbed _ (by simp [executing, current]))

end Rga
end RockchipSoc
