import RockchipSoc.Rga.Job

/-!
# Where a job is

In every reachable state a job waits at most once for being queued, is in at most one `todo_list`
or `running_job`, and both are those of its own core.  This holds of all interleavings.
-/

namespace RockchipSoc
namespace Rga

open LabelledRun ActionPool

variable {cores : List Nat} {s s' : RgaState} {c j k t : Nat}

/-- The actions that will put a job into a queue. -/
def isPre (j : Nat) : Action → Bool
  | .inputFence k _ | .assign k _ | .timeoutClean _ k _ | .enqueue _ k _ => k == j
  | _ => false

/-- How often a job is still to be queued. -/
def preCount (s : RgaState) (j : Nat) : Nat :=
  (pending s.threads).countP (isPre j) + s.fenceWaits.count j

def todo (s : RgaState) (c : Nat) : List Nat := (s.sched c).todoList

def running (s : RgaState) (c : Nat) : Option Nat := (s.sched c).runningJob

/-- How often a job stands in the queue or runs on its core. -/
def placeCount (s : RgaState) (j : Nat) : Nat :=
  (todo s (s.jobs j).core).count j + (running s (s.jobs j).core).toList.count j

theorem count_toList_eq_one {job : Option Nat} (here : job = some j) : job.toList.count j = 1 := by
  simp [here]

theorem count_toList_eq_zero {job : Option Nat} (elsewhere : job ≠ some j) :
    job.toList.count j = 0 := by
  rw [List.count_eq_zero, Option.mem_toList]
  exact elsewhere

theorem placeCount_eq_zero (notQueued : j ∉ todo s (s.jobs j).core)
    (notRunning : running s (s.jobs j).core ≠ some j) : placeCount s j = 0 := by
  rw [placeCount, List.count_eq_zero.mpr notQueued, count_toList_eq_zero notRunning]

/-- What a pending action knows of its job. -/
def PlacedAction (s : RgaState) : Action → Prop
  | .inputFence j _ => j < s.nextJob
  | .assign j caller => (caller = .sync → (s.jobs j).async = false) ∧ j < s.nextJob
  | .timeoutClean c j caller | .enqueue c j caller =>
      (s.jobs j).core = c ∧ (caller = .sync → (s.jobs j).async = false) ∧ j < s.nextJob
  | .start c j _ | .storeRet c j _ | .clearRunning c j =>
      (s.jobs j).core = c ∧ preCount s j = 0 ∧ j ∉ todo s c ∧ j < s.nextJob
  | .checkRet c j | .wait c j | .abort c j =>
      (s.jobs j).core = c ∧ preCount s j = 0 ∧ (s.jobs j).async = false ∧ j < s.nextJob
  | .retire j _ _ => preCount s j = 0 ∧ j ∉ todo s (s.jobs j).core ∧ j < s.nextJob
  | .cleanup j => preCount s j = 0 ∧ j < s.nextJob
  | .softReset _ | .next _ | .powerDisable _ | .irqThread _ | .takeDone _ => True

structure Placed (s : RgaState) : Prop where
  todoCore : ∀ c j, j ∈ todo s c → (s.jobs j).core = c
  runningCore : ∀ c j, running s c = some j → (s.jobs j).core = c
  once : ∀ j, preCount s j + placeCount s j ≤ 1
  fresh : ∀ j, s.nextJob ≤ j → preCount s j = 0 ∧ ∀ c, j ∉ todo s c ∧ running s c ≠ some j
  counted : ∀ c, (s.sched c).jobCount = (todo s c).length
  actions : ∀ action ∈ pending s.threads, PlacedAction s action

theorem placed_init : Placed rgaInit where
  todoCore := fun _ _ member => by cases member
  runningCore := fun _ _ none => by cases none
  once := fun _ => Nat.zero_le 1
  fresh := fun _ _ => ⟨rfl, fun _ => ⟨by simp [todo, rgaInit], by simp [running, rgaInit]⟩⟩
  counted := fun _ => rfl
  actions := fun _ member => by simp [rgaInit, pending] at member

/-- How often a job waits for a queue, stands in one or runs. -/
def whereabouts (s : RgaState) (j : Nat) : Nat := preCount s j + placeCount s j

/-- A step keeps the placement, and an old job only moves on from where it is. -/
structure Moves (s s' : RgaState) : Prop where
  placed : Placed s'
  older : s.nextJob ≤ s'.nextJob
  whereabouts_le : ∀ j, j < s.nextJob → whereabouts s' j ≤ whereabouts s j

/-- No job comes to a place and none waits more often for one. -/
structure Shrinks (s s' : RgaState) : Prop where
  running_of : ∀ c j, running s' c = some j → running s c = some j
  todo_eq : ∀ c, todo s' c = todo s c
  jobCount_eq : ∀ c, (s'.sched c).jobCount = (s.sched c).jobCount
  core_eq : ∀ j, (s'.jobs j).core = (s.jobs j).core
  async_eq : ∀ j, (s'.jobs j).async = (s.jobs j).async
  nextJob_eq : s'.nextJob = s.nextJob
  pre_le : ∀ j, preCount s' j ≤ preCount s j

theorem Shrinks.placeCount_le (shrinks : Shrinks s s') (j : Nat) :
    placeCount s' j ≤ placeCount s j := by
  simp only [placeCount, shrinks.core_eq, shrinks.todo_eq]
  by_cases here : running s' (s.jobs j).core = some j
  · rw [count_toList_eq_one here, count_toList_eq_one (shrinks.running_of _ _ here)]
  · rw [count_toList_eq_zero here]
    omega

/-- What a pending action knows is kept if jobs that wait for no queue are left alone, and so are
the cores of those that are about to be queued. -/
theorem PlacedAction.transport {action : Action} (placed : PlacedAction s action)
    (older : s.nextJob ≤ s'.nextJob)
    (async : ∀ k, k < s.nextJob → (s'.jobs k).async = (s.jobs k).async)
    (pre : ∀ c k caller, action = .timeoutClean c k caller ∨ action = .enqueue c k caller →
      (s'.jobs k).core = (s.jobs k).core)
    (post : ∀ k, k < s.nextJob → preCount s k = 0 → preCount s' k = 0 ∧
      (s'.jobs k).core = (s.jobs k).core ∧ ∀ c, k ∈ todo s' c → k ∈ todo s c) :
    PlacedAction s' action := by
  cases action with
  | inputFence j fence => exact Nat.lt_of_lt_of_le placed older
  | assign j caller =>
      exact ⟨fun sync => (async j placed.2).trans (placed.1 sync),
        Nat.lt_of_lt_of_le placed.2 older⟩
  | timeoutClean c j caller =>
      obtain ⟨core, sync, old⟩ := placed
      exact ⟨(pre c j caller (Or.inl rfl)).trans core, fun from_sync => (async j old).trans
        (sync from_sync), Nat.lt_of_lt_of_le old older⟩
  | enqueue c j caller =>
      obtain ⟨core, sync, old⟩ := placed
      exact ⟨(pre c j caller (Or.inr rfl)).trans core, fun from_sync => (async j old).trans
        (sync from_sync), Nat.lt_of_lt_of_le old older⟩
  | start c j _ | storeRet c j _ | clearRunning c j =>
      obtain ⟨core, waits, notQueued, old⟩ := placed
      obtain ⟨waits', core', queued⟩ := post j old waits
      exact ⟨core'.trans core, waits', fun member => notQueued (queued c member),
        Nat.lt_of_lt_of_le old older⟩
  | checkRet c j | wait c j | abort c j =>
      obtain ⟨core, waits, sync, old⟩ := placed
      obtain ⟨waits', core', _⟩ := post j old waits
      exact ⟨core'.trans core, waits', (async j old).trans sync, Nat.lt_of_lt_of_le old older⟩
  | retire j ending stage =>
      obtain ⟨waits, notQueued, old⟩ := placed
      obtain ⟨waits', core', queued⟩ := post j old waits
      exact ⟨waits', fun member => notQueued (core' ▸ queued _ member),
        Nat.lt_of_lt_of_le old older⟩
  | cleanup j => exact ⟨(post j placed.2 placed.1).1, Nat.lt_of_lt_of_le placed.2 older⟩
  | softReset c | next c | powerDisable c | irqThread c | takeDone c => trivial

theorem PlacedAction.shrink {action : Action} (shrinks : Shrinks s s')
    (placed : PlacedAction s action) : PlacedAction s' action :=
  placed.transport (Nat.le_of_eq shrinks.nextJob_eq.symm) (fun k _ => shrinks.async_eq k)
    (fun _ k _ _ => shrinks.core_eq k) fun k _ zero =>
      ⟨Nat.eq_zero_of_le_zero (zero ▸ shrinks.pre_le k), shrinks.core_eq k,
        fun c member => shrinks.todo_eq c ▸ member⟩

theorem Placed.shrink (inv : Placed s) (shrinks : Shrinks s s')
    (actions : ∀ action ∈ pending s'.threads, action ∈ pending s.threads ∨ PlacedAction s' action) :
    Moves s s' where
  older := Nat.le_of_eq shrinks.nextJob_eq.symm
  whereabouts_le := fun j _ => Nat.add_le_add (shrinks.pre_le j) (shrinks.placeCount_le j)
  placed :=
    { todoCore := fun c j member => by
        rw [shrinks.core_eq]
        exact inv.todoCore c j (shrinks.todo_eq c ▸ member)
      runningCore := fun c j runs => by
        rw [shrinks.core_eq]
        exact inv.runningCore c j (shrinks.running_of c j runs)
      once := fun j => Nat.le_trans (Nat.add_le_add (shrinks.pre_le j) (shrinks.placeCount_le j))
        (inv.once j)
      fresh := fun j new => by
        obtain ⟨pre, places⟩ := inv.fresh j (shrinks.nextJob_eq ▸ new)
        refine ⟨Nat.eq_zero_of_le_zero (pre ▸ shrinks.pre_le j), fun c => ⟨?_, fun runs => ?_⟩⟩
        · rw [shrinks.todo_eq]
          exact (places c).1
        · exact (places c).2 (shrinks.running_of c j runs)
      counted := fun c => by rw [shrinks.jobCount_eq, shrinks.todo_eq, inv.counted]
      actions := fun action member =>
        (actions action member).elim (fun old => (inv.actions action old).shrink shrinks) id }

/-! ## Calm actions -/

/-- Queues, cores and the number of jobs stay, and a core may only become idle. -/
structure Calms (s s' : RgaState) : Prop where
  running_of : ∀ c j, running s' c = some j → running s c = some j
  todo_eq : ∀ c, todo s' c = todo s c
  jobCount_eq : ∀ c, (s'.sched c).jobCount = (s.sched c).jobCount
  core_eq : ∀ j, (s'.jobs j).core = (s.jobs j).core
  async_eq : ∀ j, (s'.jobs j).async = (s.jobs j).async
  nextJob_eq : s'.nextJob = s.nextJob
  fenceWaits_eq : s'.fenceWaits = s.fenceWaits

theorem Calms.refl (s : RgaState) : Calms s s :=
  ⟨fun _ _ runs => runs, fun _ => rfl, fun _ => rfl, fun _ => rfl, fun _ => rfl, rfl, rfl⟩

theorem calms_setRunning_none (s : RgaState) (c : Nat) : Calms s (setRunning s c none) := by
  refine ⟨fun k j runs => ?_, fun _ => rfl, fun _ => rfl, fun _ => rfl, fun _ => rfl, rfl, rfl⟩
  simp only [running, setRunning] at runs ⊢
  split at runs
  · cases runs
  · exact runs

theorem calms_getHandleInfo (s : RgaState) (c j : Nat) (channel : Channel) (yrgbAddr : Nat)
    (following : StartStage) : Calms s (getHandleInfo s c j channel yrgbAddr following).1 := by
  rw [getHandleInfo]
  split
  · exact Calms.refl s
  · exact ⟨fun _ _ runs => runs, fun _ => rfl, fun _ => rfl, fun _ => rfl, fun _ => rfl, rfl, rfl⟩

theorem calms_rgaJobRun (s : RgaState) (c j : Nat) (choice : Choice) (stage : StartStage) :
    Calms s (rgaJobRun s c j choice stage).1 := by
  cases stage with
  | power | setReg =>
      simp only [rgaJobRun]
      split <;> exact ⟨fun _ _ runs => runs, fun _ => rfl, fun _ => rfl, fun _ => rfl,
        fun _ => rfl, rfl, rfl⟩
  | src | dst | pat => exact calms_getHandleInfo ..
  | dmaInfo | initReg => exact Calms.refl s

theorem calms_retireJob (s : RgaState) (j : Nat) (ending : Ending) (stage : RetireStage) :
    Calms s (retireJob s j ending stage).1 := by
  cases stage with
  | mark | signal =>
      exact ⟨fun _ _ runs => runs, fun _ => rfl, fun _ => rfl, fun _ => rfl, fun _ => rfl, rfl, rfl⟩
  | put channel =>
      simp only [retireJob, putChannel]
      split <;> exact ⟨fun _ _ runs => runs, fun _ => rfl, fun _ => rfl, fun _ => rfl,
        fun _ => rfl, rfl, rfl⟩
  | cleanup =>
      simp only [retireJob]
      split
      · exact ⟨fun _ _ runs => runs, fun _ => rfl, fun _ => rfl, fun _ => rfl, fun _ => rfl, rfl,
          rfl⟩
      · split <;> exact ⟨fun _ _ runs => runs, fun _ => rfl, fun _ => rfl, fun _ => rfl,
          fun _ => rfl, rfl, rfl⟩

section Call

variable {head : Action} {rest pushed : List Action}

theorem preCount_resume (current : s.threads[t]? = some (head :: rest))
    (sameWaits : s'.fenceWaits = s.fenceWaits) (k : Nat) :
    preCount (resume s' s.threads t pushed rest) k + [head].countP (isPre k) =
      preCount s k + pushed.countP (isPre k) := by
  have count : (pending (s.threads.set t (pushed ++ rest))).countP (isPre k) + _ = _ :=
    countP_pending_set (isPre k) current
  simp only [preCount, resume, sameWaits]
  omega

/-- A job whose fence is awaited is still on its way to the queue. -/
theorem preCount_fenceAwaited {fence : InFence}
    (current : s.threads[t]? = some (.inputFence j fence :: rest)) (k : Nat) :
    preCount (resume { s with fenceWaits := j :: s.fenceWaits } s.threads t [] rest) k =
      preCount s k := by
  have count : (pending (s.threads.set t ([] ++ rest))).countP (isPre k) + _ = _ :=
    countP_pending_set (isPre k) current
  simp only [preCount, resume, List.count_cons]
  by_cases same : j = k
  · simp [isPre, same] at count ⊢
    omega
  · simp [isPre, same] at count ⊢
    omega

/-- A calm action keeps the placement if what it pushes is placed. -/
theorem Placed.resume (inv : Placed s) (current : s.threads[t]? = some (head :: rest))
    (calms : Calms s s') (pre : ∀ k, pushed.countP (isPre k) ≤ [head].countP (isPre k))
    (placed : ∀ action ∈ pushed, PlacedAction s action ∨
      PlacedAction (Rga.resume s' s.threads t pushed rest) action) :
    Moves s (Rga.resume s' s.threads t pushed rest) := by
  have shrinks : Shrinks s (Rga.resume s' s.threads t pushed rest) := by
    refine ⟨calms.running_of, calms.todo_eq, calms.jobCount_eq, calms.core_eq, calms.async_eq,
      calms.nextJob_eq, fun k => ?_⟩
    have count : preCount (Rga.resume s' s.threads t pushed rest) k + _ = _ :=
      preCount_resume current calms.fenceWaits_eq k
    have := pre k
    omega
  refine inv.shrink shrinks fun action member => ?_
  rcases mem_pending_set current member with new | old
  · exact (placed action new).elim (fun before => Or.inr (before.shrink shrinks)) Or.inr
  · exact Or.inl old

theorem Placed.of_running {x : Nat} (inv : Placed s) (runs : running s c = some x) :
    (s.jobs x).core = c ∧ preCount s x = 0 ∧ x ∉ todo s c ∧ x < s.nextJob := by
  have core := inv.runningCore c x runs
  have once := inv.once x
  rw [placeCount, core, count_toList_eq_one runs] at once
  refine ⟨core, by omega, fun member => ?_, ?_⟩
  · have := List.count_pos_iff.mpr member
    omega
  · by_contra new
    exact ((inv.fresh x (Nat.le_of_not_lt new)).2 c).2 runs

theorem Placed.of_mem_todo {x : Nat} (inv : Placed s) (member : x ∈ todo s c) :
    (s.jobs x).core = c ∧ preCount s x = 0 ∧ (todo s c).count x = 1 ∧ running s c ≠ some x ∧
      x < s.nextJob := by
  have core := inv.todoCore c x member
  have once := inv.once x
  have positive := List.count_pos_iff.mpr member
  rw [placeCount, core] at once
  refine ⟨core, by omega, by omega, fun runs => ?_, ?_⟩
  · rw [count_toList_eq_one runs] at once
    omega
  · by_contra new
    exact ((inv.fresh x (Nat.le_of_not_lt new)).2 c).1 member

/-- The actions that the start of job `j` on core `c` pushes. -/
def FromStart (c j : Nat) (action : Action) : Prop :=
  (∃ stage, action = .start c j stage) ∨ action = .powerDisable c ∨
    ∃ ret, action = .storeRet c j ret

theorem fromStart_startFailed {ret : Int} : ∀ action ∈ startFailed c j ret,
    FromStart c j action := by
  simp [startFailed, FromStart]

theorem fromStart_rgaJobRun (s : RgaState) (c j : Nat) (choice : Choice) (stage : StartStage) :
    ∀ action ∈ (rgaJobRun s c j choice stage).2, FromStart c j action := by
  have following : ∀ stage, ∀ action ∈ [Action.start c j stage], FromStart c j action := by
    simp [FromStart]
  have getHandleInfo : ∀ channel yrgbAddr stage,
      ∀ action ∈ (getHandleInfo s c j channel yrgbAddr stage).2, FromStart c j action := by
    intro channel yrgbAddr stage
    simp only [Rga.getHandleInfo]
    split
    · exact following stage
    · simp only
      split
      · exact fromStart_startFailed
      · exact following stage
  cases stage with
  | power =>
      simp only [rgaJobRun]
      split
      · simp [FromStart]
      · exact following _
  | src | dst | pat => exact getHandleInfo _ _ _
  | dmaInfo | initReg =>
      simp only [rgaJobRun, startCall]
      split
      · exact fromStart_startFailed
      · exact following _
  | setReg =>
      simp only [rgaJobRun]
      split
      · exact fromStart_startFailed
      · simp

theorem FromStart.not_pre {action : Action} (started : FromStart c j action) (k : Nat) :
    isPre k action = false := by
  rcases started with ⟨stage, rfl⟩ | rfl | ⟨ret, rfl⟩ <;> rfl

theorem retire_retireJob (s : RgaState) (j : Nat) (ending : Ending) (stage : RetireStage) :
    ∀ action ∈ (retireJob s j ending stage).2, ∃ stage, action = .retire j ending stage := by
  cases stage with
  | mark | put | signal => simp [retireJob]
  | cleanup =>
      simp only [retireJob]
      split
      · simp
      · split <;> simp

section Actions

variable {choice : Choice}

/-- A job that is still to be queued waits once and stands nowhere. -/
theorem Placed.of_pre (inv : Placed s) (current : s.threads[t]? = some (head :: rest))
    (waits : isPre j head = true) : preCount s j = 1 ∧ placeCount s j = 0 := by
  have once := inv.once j
  have positive := List.countP_pos_iff.mpr ⟨head, head_mem_pending current, waits⟩
  rw [preCount] at once ⊢
  omega

theorem Placed.inputFence {fence : InFence} (inv : Placed s)
    (current : s.threads[t]? = some (.inputFence j fence :: rest))
    (executed : Rga.execute cores s choice (.inputFence j fence) = some (s', pushed)) :
    Moves s (Rga.resume s' s.threads t pushed rest) := by
  have old : j < s.nextJob := inv.actions _ (head_mem_pending current)
  have one : preCount s j = 1 := (inv.of_pre current (by simp [isPre])).1
  have assigned : Moves s (Rga.resume s s.threads t [.assign j .async] rest) := by
    refine inv.resume current (Calms.refl s) (fun k => by simp [isPre]) ?_
    exact List.forall_mem_singleton.mpr (Or.inl ⟨nofun, old⟩)
  have given_up : Moves s (Rga.resume s s.threads t [.cleanup j] rest) := by
    refine inv.resume current (Calms.refl s) (fun k => by simp [isPre]) ?_
    have count : preCount (Rga.resume s s.threads t [.cleanup j] rest) j + _ = _ :=
      preCount_resume current rfl j
    refine List.forall_mem_singleton.mpr (Or.inr ⟨?_, old⟩)
    simp only [List.countP_singleton, isPre, beq_self_eq_true, if_true, Bool.false_eq_true,
      if_false] at count
    omega
  have waiting :
      Moves s (Rga.resume { s with fenceWaits := j :: s.fenceWaits } s.threads t [] rest) := by
    refine inv.shrink ?_ fun action member => Or.inl
      ((mem_pending_set current member).resolve_left (by simp))
    refine ⟨fun _ _ runs => runs, fun _ => rfl, fun _ => rfl, fun _ => rfl, fun _ => rfl, rfl,
      fun k => ?_⟩
    have count : (pending (s.threads.set t ([] ++ rest))).countP (isPre k) + _ = _ :=
      countP_pending_set (isPre k) current
    simp only [preCount, Rga.resume]
    by_cases same : j = k
    · simp [isPre, same] at count ⊢
      omega
    · simp [isPre, same] at count ⊢
      omega
  simp only [Rga.execute] at executed
  cases fence with
  | absent =>
      obtain ⟨rfl, rfl⟩ := Prod.mk.inj (Option.some.inj executed)
      exact assigned
  | missing =>
      obtain ⟨rfl, rfl⟩ := Prod.mk.inj (Option.some.inj executed)
      exact given_up
  | status status callback =>
      simp only [Rga.inputFence] at executed
      split at executed
      · obtain ⟨rfl, rfl⟩ := Prod.mk.inj (Option.some.inj executed)
        exact assigned
      · split at executed
        · split at executed
          · obtain ⟨rfl, rfl⟩ := Prod.mk.inj (Option.some.inj executed)
            exact given_up
          · obtain ⟨rfl, rfl⟩ := Prod.mk.inj (Option.some.inj executed)
            exact waiting
        · obtain ⟨rfl, rfl⟩ := Prod.mk.inj (Option.some.inj executed)
          exact given_up

theorem Placed.assign {caller : Caller} (inv : Placed s)
    (current : s.threads[t]? = some (.assign j caller :: rest))
    (executed : Rga.execute cores s choice (.assign j caller) = some (s', pushed)) :
    Moves s (Rga.resume s' s.threads t pushed rest) := by
  obtain ⟨sync, old⟩ := inv.actions _ (head_mem_pending current)
  obtain ⟨one, nowhere⟩ : preCount s j = 1 ∧ placeCount s j = 0 :=
    inv.of_pre current (by simp [isPre])
  simp only [Rga.execute, rgaJobSchedule] at executed
  split at executed
  case h_1 c chosen =>
    obtain ⟨rfl, rfl⟩ := Prod.mk.inj (Option.some.inj executed)
    have pre : ∀ k, preCount (Rga.resume (setCore s j c) s.threads t [.timeoutClean c j caller]
        rest) k = preCount s k := by
      intro k
      have count : preCount (Rga.resume (setCore s j c) s.threads t [.timeoutClean c j caller]
          rest) k + _ = _ := preCount_resume current rfl k
      simpa [isPre] using count
    have notQueued : ∀ c, j ∉ todo s c := fun c member => by
      have := (inv.of_mem_todo member).2.1
      omega
    have notRunning : ∀ c, running s c ≠ some j := fun c runs => by
      have := (inv.of_running runs).2.1
      omega
    have core : ∀ k, k ≠ j → ((setCore s j c).jobs k).core = (s.jobs k).core := fun k other =>
      if_neg other
    have balance : ∀ k, whereabouts (Rga.resume (setCore s j c) s.threads t
        [.timeoutClean c j caller] rest) k = whereabouts s k := by
      intro k
      rw [whereabouts, whereabouts, pre]
      by_cases same : k = j
      · subst same
        have empty : placeCount (Rga.resume (setCore s k c) s.threads t
            [.timeoutClean c k caller] rest) k = 0 :=
          placeCount_eq_zero (notQueued _) (notRunning _)
        omega
      · simp only [placeCount, Rga.resume, core k same]
        rfl
    refine ⟨?_, Nat.le_refl _, fun k _ => Nat.le_of_eq (balance k)⟩
    constructor
    · intro c k member
      exact (core k fun same => notQueued c (same ▸ member)).trans (inv.todoCore c k member)
    · intro c k runs
      exact (core k fun same => notRunning c (same ▸ runs)).trans (inv.runningCore c k runs)
    · exact fun k => Nat.le_trans (Nat.le_of_eq (balance k)) (inv.once k)
    · intro k new
      rw [pre]
      exact inv.fresh k new
    · exact inv.counted
    · intro action member
      rcases mem_pending_set current member with new | pending
      · obtain rfl := List.mem_singleton.mp new
        exact ⟨if_pos rfl, sync, old⟩
      · refine (inv.actions action pending).transport (Nat.le_refl _) (fun _ _ => rfl) ?_ ?_
        · intro c' k caller' coreAction
          refine core k fun same => ?_
          -- a second action would queue the job a second time
          have twice := two_le_countP (p := isPre j) (head_mem_pending current) pending
            (by rcases coreAction with rfl | rfl <;> simp) (by simp [isPre])
            (by rcases coreAction with rfl | rfl <;> simp [isPre, same])
          have := one
          rw [preCount] at this
          omega
        · intro k _ zero
          refine ⟨(pre k).trans zero, core k fun same => ?_, fun _ member => member⟩
          rw [same] at zero
          omega
  case h_2 =>
    obtain ⟨rfl, rfl⟩ := Prod.mk.inj (Option.some.inj executed)
    refine inv.resume current (Calms.refl s) (fun k => ?_) ?_
    · split <;> simp [isPre]
    · split
      · simp
      · have count : preCount (Rga.resume s s.threads t [.cleanup j] rest) j + _ = _ :=
          preCount_resume current rfl j
        refine List.forall_mem_singleton.mpr (Or.inr ⟨?_, old⟩)
        simp only [List.countP_singleton, isPre, beq_self_eq_true, if_true, Bool.false_eq_true,
          if_false] at count
        omega

theorem Placed.timeoutClean {caller : Caller} (inv : Placed s)
    (current : s.threads[t]? = some (.timeoutClean c j caller :: rest))
    (executed : Rga.execute cores s choice (.timeoutClean c j caller) = some (s', pushed)) :
    Moves s (Rga.resume s' s.threads t pushed rest) := by
  have placedHead := inv.actions _ (head_mem_pending current)
  have placed : PlacedAction s (.enqueue c j caller) := placedHead
  have kept : Moves s (Rga.resume s s.threads t [.enqueue c j caller] rest) := by
    refine inv.resume current (Calms.refl s) (fun k => by simp [isPre]) ?_
    exact List.forall_mem_singleton.mpr (Or.inl placed)
  simp only [Rga.execute, rgaJobTimeoutClean] at executed
  split at executed
  case h_1 x runs =>
    split at executed
    · obtain ⟨rfl, rfl⟩ := Prod.mk.inj (Option.some.inj executed)
      obtain ⟨core, pre, notQueued, old⟩ := inv.of_running runs
      refine inv.resume current (calms_setRunning_none s c) (fun k => by simp [isPre]) ?_
      simp only [List.forall_mem_cons, List.not_mem_nil, false_imp_iff, implies_true, and_true]
      exact ⟨Or.inl trivial, Or.inl ⟨pre, core ▸ notQueued, old⟩, Or.inl trivial, Or.inl placed⟩
    · obtain ⟨rfl, rfl⟩ := Prod.mk.inj (Option.some.inj executed)
      exact kept
  case h_2 =>
    obtain ⟨rfl, rfl⟩ := Prod.mk.inj (Option.some.inj executed)
    exact kept

theorem insertByPriority_perm (priority : Nat → Nat) (j : Nat) (queue : List Nat) :
    (insertByPriority priority j queue).1.Perm (j :: queue) := by
  induction queue with
  | nil => exact List.Perm.refl _
  | cons pos queue ih =>
      rw [insertByPriority]
      split
      · exact List.Perm.swap j pos queue
      · exact (ih.cons pos).trans (List.Perm.swap j pos queue)

theorem todoInsert_perm (s : RgaState) (j : Nat) (queue : List Nat) :
    (todoInsert s j queue).1.Perm (j :: queue) := by
  rw [todoInsert]
  split
  · exact List.perm_append_singleton j queue
  · exact insertByPriority_perm _ j queue

theorem count_todo_enqueue (s : RgaState) (c j c' k : Nat) :
    (todo (enqueue s c j) c').count k =
      (todo s c').count k + if c' = c ∧ k = j then 1 else 0 := by
  simp only [todo, enqueue, raisePriority]
  by_cases here : c' = c
  · subst here
    rw [if_pos rfl, (todoInsert_perm s j _).count_eq, List.count_cons]
    simp only [true_and, beq_iff_eq, eq_comm (a := k)]
  · rw [if_neg here, if_neg fun both => here both.1, Nat.add_zero]

theorem placeCount_enqueue (core : (s.jobs j).core = c) (k : Nat) :
    placeCount (enqueue s c j) k = placeCount s k + if k = j then 1 else 0 := by
  have sameCore : ((enqueue s c j).jobs k).core = (s.jobs k).core := rfl
  have sameRunning : ∀ c', running (enqueue s c j) c' = running s c' := fun _ => rfl
  rw [placeCount, placeCount, count_todo_enqueue, sameCore, sameRunning]
  by_cases same : k = j
  · rw [if_pos ⟨same ▸ core, same⟩, if_pos same, Nat.add_right_comm]
  · rw [if_neg fun both => same both.2, if_neg same, Nat.add_zero, Nat.add_zero]

theorem Placed.enqueue {caller : Caller} (inv : Placed s)
    (current : s.threads[t]? = some (.enqueue c j caller :: rest))
    (executed : Rga.execute cores s choice (.enqueue c j caller) = some (s', pushed)) :
    Moves s (Rga.resume s' s.threads t pushed rest) := by
  obtain ⟨core, sync, old⟩ := inv.actions _ (head_mem_pending current)
  obtain ⟨one, nowhere⟩ : preCount s j = 1 ∧ placeCount s j = 0 :=
    inv.of_pre current (by simp [isPre])
  obtain ⟨rfl, rfl⟩ := Prod.mk.inj (Option.some.inj executed)
  generalize pushes : (Action.next c :: if caller = .sync then [.checkRet c j] else []) = pushed
  have later : ∀ action ∈ pushed, action = .next c ∨ caller = .sync ∧ action = .checkRet c j := by
    subst pushes
    split <;> simp_all
  have pre : ∀ k, preCount (Rga.resume (Rga.enqueue s c j) s.threads t pushed rest) k +
      (if k = j then 1 else 0) = preCount s k := by
    intro k
    have count : preCount (Rga.resume (Rga.enqueue s c j) s.threads t pushed rest) k + _ = _ :=
      preCount_resume current rfl k
    have none : pushed.countP (isPre k) = 0 := List.countP_eq_zero.mpr fun action member => by
      rcases later action member with rfl | ⟨_, rfl⟩ <;> simp [isPre]
    simpa only [none, isPre, List.countP_singleton, beq_iff_eq, eq_comm (a := j), Nat.add_zero]
      using count
  have mem_todo : ∀ c' k, k ∈ todo (Rga.enqueue s c j) c' → k ∈ todo s c' ∨ c' = c ∧ k = j := by
    intro c' k member
    have positive := List.count_pos_iff.mpr member
    rw [count_todo_enqueue] at positive
    by_cases new : c' = c ∧ k = j
    · exact Or.inr new
    · rw [if_neg new] at positive
      exact Or.inl (List.count_pos_iff.mp positive)
  have balance : ∀ k, whereabouts (Rga.resume (Rga.enqueue s c j) s.threads t pushed rest) k =
      whereabouts s k := by
    intro k
    have places : placeCount (Rga.resume (Rga.enqueue s c j) s.threads t pushed rest) k =
        placeCount s k + if k = j then 1 else 0 := placeCount_enqueue core k
    have := pre k
    rw [whereabouts, whereabouts]
    omega
  refine ⟨?_, Nat.le_refl _, fun k _ => Nat.le_of_eq (balance k)⟩
  constructor
  · intro c' k member
    rcases mem_todo c' k member with queued | ⟨rfl, rfl⟩
    · exact inv.todoCore c' k queued
    · exact core
  · exact inv.runningCore
  · exact fun k => Nat.le_trans (Nat.le_of_eq (balance k)) (inv.once k)
  · intro k new
    obtain ⟨waits, places⟩ := inv.fresh k new
    refine ⟨by have := pre k; omega, fun c' => ⟨fun member => ?_, (places c').2⟩⟩
    rcases mem_todo c' k member with queued | ⟨_, rfl⟩
    · exact (places c').1 queued
    · exact absurd old (Nat.not_lt.mpr new)
  · intro c'
    have count := inv.counted c'
    simp only [todo, Rga.resume, Rga.enqueue, raisePriority] at count ⊢
    by_cases here : c' = c
    · subst here
      rw [if_pos rfl, if_pos rfl, (todoInsert_perm s j _).length_eq, List.length_cons, count]
    · rw [if_neg here, if_neg here, count, Nat.add_zero]
  · intro action member
    rcases mem_pending_set current member with new | pending
    · rcases later action new with rfl | ⟨isSync, rfl⟩
      · trivial
      · refine ⟨core, ?_, sync isSync, old⟩
        have := pre j
        rw [if_pos rfl] at this
        omega
    · refine (inv.actions action pending).transport (Nat.le_refl _) (fun _ _ => rfl)
        (fun _ _ _ _ => rfl) fun k _ zero => ⟨?_, rfl, fun c' queued => ?_⟩
      · have := pre k
        omega
      · rcases mem_todo c' k queued with before | ⟨_, rfl⟩
        · exact before
        · omega

/-- Taking the first job moves it from the queue to the core. -/
theorem placeCount_takeFirst {x : Nat} {queue : List Nat}
    (idle : (s.sched c).runningJob = none) (listed : (s.sched c).todoList = x :: queue) (k : Nat) :
    placeCount (takeFirst s c x queue) k = placeCount s k := by
  by_cases here : (s.jobs k).core = c
  · simp [placeCount, todo, running, takeFirst, here, listed, idle, List.count_cons]
  · simp [placeCount, todo, running, takeFirst, here]

theorem Placed.next (inv : Placed s) (current : s.threads[t]? = some (.next c :: rest))
    (executed : Rga.execute cores s choice (.next c) = some (s', pushed)) :
    Moves s (Rga.resume s' s.threads t pushed rest) := by
  simp only [Rga.execute, rgaJobNext] at executed
  split at executed
  case h_2 =>
    obtain ⟨rfl, rfl⟩ := Prod.mk.inj (Option.some.inj executed)
    exact inv.resume current (Calms.refl s) (fun k => by simp) (by simp)
  case h_1 x queue idle listed =>
    obtain ⟨rfl, rfl⟩ := Prod.mk.inj (Option.some.inj executed)
    have first : x ∈ todo s c := by
      rw [todo, listed]
      exact List.mem_cons_self
    obtain ⟨core, waits, once, _, old⟩ := inv.of_mem_todo first
    rw [todo, listed, List.count_cons_self] at once
    have pre : ∀ k, preCount (Rga.resume (takeFirst s c x queue) s.threads t
        [.start c x .power] rest) k = preCount s k := by
      intro k
      have count : preCount (Rga.resume (takeFirst s c x queue) s.threads t
        [.start c x .power] rest) k + _ = _ := preCount_resume current rfl k
      simpa [isPre] using count
    have mem_todo : ∀ c' k, k ∈ todo (takeFirst s c x queue) c' → k ∈ todo s c' := by
      intro c' k member
      simp only [todo, takeFirst] at member ⊢
      split at member
      case isTrue here =>
        rw [here, listed]
        exact List.mem_cons_of_mem x member
      case isFalse => exact member
    have of_running : ∀ c' k, running (takeFirst s c x queue) c' = some k →
        running s c' = some k ∨ c' = c ∧ k = x := by
      intro c' k runs
      simp only [running, takeFirst] at runs ⊢
      split at runs
      case isTrue here => exact Or.inr ⟨here, (Option.some.inj runs).symm⟩
      case isFalse => exact Or.inl runs
    have balance : ∀ k, whereabouts (Rga.resume (takeFirst s c x queue) s.threads t
        [.start c x .power] rest) k = whereabouts s k := fun k =>
      congrArg₂ (· + ·) (pre k) (placeCount_takeFirst idle listed k)
    refine ⟨?_, Nat.le_refl _, fun k _ => Nat.le_of_eq (balance k)⟩
    constructor
    · exact fun c' k member => inv.todoCore c' k (mem_todo c' k member)
    · intro c' k runs
      rcases of_running c' k runs with before | ⟨rfl, rfl⟩
      · exact inv.runningCore c' k before
      · exact core
    · exact fun k => Nat.le_trans (Nat.le_of_eq (balance k)) (inv.once k)
    · intro k new
      obtain ⟨zero, places⟩ := inv.fresh k new
      refine ⟨(pre k).trans zero, fun c' => ⟨fun member => (places c').1 (mem_todo c' k member),
        fun runs => ?_⟩⟩
      rcases of_running c' k runs with before | ⟨_, rfl⟩
      · exact (places c').2 before
      · exact absurd old (Nat.not_lt.mpr new)
    · intro c'
      have count := inv.counted c'
      simp only [todo, Rga.resume, takeFirst] at count ⊢
      by_cases here : c' = c
      · subst here
        rw [if_pos rfl, if_pos rfl, count, listed, List.length_cons, Nat.add_sub_cancel]
      · rw [if_neg here, if_neg here, count, Nat.sub_zero]
    · intro action member
      rcases mem_pending_set current member with new | pending
      · obtain rfl := List.mem_singleton.mp new
        refine ⟨core, (pre x).trans waits, fun queued => ?_, old⟩
        have here : todo (Rga.resume (takeFirst s c x queue) s.threads t [.start c x .power] rest)
            c = queue := if_pos rfl
        rw [here] at queued
        have := List.count_pos_iff.mpr queued
        omega
      · exact (inv.actions action pending).transport (Nat.le_refl _) (fun _ _ => rfl)
          (fun _ _ _ _ => rfl) fun k _ zero => ⟨(pre k).trans zero, rfl, fun c' => mem_todo c' k⟩

end Actions

/-- Every action keeps the placement. -/
theorem Placed.execute {choice : Choice} (inv : Placed s)
    (current : s.threads[t]? = some (head :: rest))
    (executed : execute cores s choice head = some (s', pushed)) :
    Moves s (Rga.resume s' s.threads t pushed rest) := by
  have placedHead := inv.actions head (head_mem_pending current)
  cases head with
  | softReset c | powerDisable c =>
      obtain ⟨rfl, rfl⟩ := Prod.mk.inj (Option.some.inj executed)
      refine inv.resume current ?_ (fun k => by simp) (by simp)
      exact ⟨fun _ _ runs => runs, fun _ => rfl, fun _ => rfl, fun _ => rfl, fun _ => rfl, rfl, rfl⟩
  | irqThread c =>
      obtain ⟨rfl, rfl⟩ := Prod.mk.inj (Option.some.inj executed)
      refine inv.resume current (Calms.refl s) (fun k => ?_) ?_
      · split <;> simp [isPre]
      · split <;> simp [PlacedAction]
  | storeRet c j ret =>
      obtain ⟨rfl, rfl⟩ := Prod.mk.inj (Option.some.inj executed)
      refine inv.resume current ?_ (fun k => by simp [isPre]) ?_
      · exact ⟨fun _ _ runs => runs, fun _ => rfl, fun _ => rfl, fun _ => rfl, fun _ => rfl, rfl,
          rfl⟩
      · exact List.forall_mem_singleton.mpr (Or.inl placedHead)
  | clearRunning c j =>
      obtain ⟨rfl, rfl⟩ := Prod.mk.inj (Option.some.inj executed)
      obtain ⟨core, pre, notQueued, old⟩ := placedHead
      refine inv.resume current (calms_setRunning_none s c) (fun k => by simp [isPre]) ?_
      simp [PlacedAction, pre, core, notQueued, old]
  | start c j stage =>
      obtain ⟨rfl, rfl⟩ := Prod.mk.inj (Option.some.inj executed)
      have pushes := fromStart_rgaJobRun s c j choice stage
      refine inv.resume current (calms_rgaJobRun s c j choice stage) (fun k => ?_) ?_
      · rw [List.countP_eq_zero.mpr fun action member => by simp [(pushes action member).not_pre]]
        exact Nat.zero_le _
      · intro action member
        rcases pushes action member with ⟨stage, rfl⟩ | rfl | ⟨ret, rfl⟩
        · exact Or.inl placedHead
        · exact Or.inl trivial
        · exact Or.inl placedHead
  | retire j ending stage =>
      obtain ⟨rfl, rfl⟩ := Prod.mk.inj (Option.some.inj executed)
      have pushes := retire_retireJob s j ending stage
      refine inv.resume current (calms_retireJob s j ending stage) (fun k => ?_) ?_
      · rw [List.countP_eq_zero.mpr fun action member => by
          obtain ⟨stage, rfl⟩ := pushes action member
          simp [isPre]]
        exact Nat.zero_le _
      · intro action member
        obtain ⟨stage, rfl⟩ := pushes action member
        exact Or.inl placedHead
  | takeDone c =>
      obtain ⟨x, runs, outcome⟩ := Option.map_eq_some_iff.mp executed
      obtain ⟨rfl, rfl⟩ := Prod.mk.inj outcome
      obtain ⟨core, pre, notQueued, old⟩ := inv.of_running runs
      refine inv.resume current (calms_setRunning_none s c) (fun k => by simp [isPre]) ?_
      simp [PlacedAction, pre, core, notQueued, old]
  | checkRet c j =>
      obtain ⟨rfl, rfl⟩ := Prod.mk.inj (Option.some.inj executed)
      refine inv.resume current (Calms.refl s) (fun k => ?_) ?_
      · split <;> simp [isPre]
      · split <;> exact List.forall_mem_singleton.mpr (Or.inl placedHead)
  | wait c j =>
      obtain ⟨core, pre, sync, old⟩ := placedHead
      simp only [Rga.execute, rgaJobWait] at executed
      split at executed
      case h_4 => cases executed
      all_goals
        obtain ⟨rfl, rfl⟩ := Prod.mk.inj (Option.some.inj executed)
        refine inv.resume current (Calms.refl s) (fun k => by simp [isPre]) ?_
        simp [PlacedAction, pre, core, sync, old]
  | abort c j =>
      obtain ⟨rfl, rfl⟩ := Prod.mk.inj (Option.some.inj executed)
      obtain ⟨core, pre, sync, old⟩ := placedHead
      refine inv.resume current ?_ (fun k => by simp [isPre]) ?_
      · split
        · exact calms_setRunning_none s c
        · exact Calms.refl s
      · exact List.forall_mem_singleton.mpr (Or.inl ⟨pre, old⟩)
  | cleanup j =>
      obtain ⟨rfl, rfl⟩ := Prod.mk.inj (Option.some.inj executed)
      refine inv.resume current ?_ (fun k => by simp) (by simp)
      exact ⟨fun _ _ runs => runs, fun _ => rfl, fun _ => rfl, fun _ => rfl, fun _ => rfl, rfl, rfl⟩
  | inputFence j fence => exact inv.inputFence current executed
  | assign j caller => exact inv.assign current executed
  | timeoutClean c j caller => exact inv.timeoutClean current executed
  | enqueue c j caller => exact inv.enqueue current executed
  | next c => exact inv.next current executed

end Call

/-! ## Steps -/

theorem Placed.lt_of_waits (inv : Placed s) (waits : 0 < preCount s j) : j < s.nextJob := by
  by_contra new
  have := (inv.fresh j (Nat.le_of_not_lt new)).1
  omega

theorem preCount_spawn (s : RgaState) (thread : List Action) (k : Nat) :
    preCount { s with threads := s.threads ++ [thread] } k =
      preCount s k + thread.countP (isPre k) := by
  simp only [preCount, countP_pending_spawn]
  omega

/-- A new job, with the thread that works on it, if any. -/
theorem Placed.accept {threads : List (List Action)} (inv : Placed s)
    (sched : s'.sched = s.sched) (waits : s'.fenceWaits = s.fenceWaits)
    (older : ∀ k, k < s.nextJob → s'.jobs k = s.jobs k) (next : s'.nextJob = s.nextJob + 1)
    (pool : s'.threads = s.threads ++ threads)
    (once : ∀ k, threads.flatten.countP (isPre k) ≤ if k = s.nextJob then 1 else 0)
    (actions : ∀ action ∈ threads.flatten, PlacedAction s' action) : Moves s s' := by
  have sameTodo : ∀ c, todo s' c = todo s c := fun c => by rw [todo, sched, todo]
  have sameRunning : ∀ c, running s' c = running s c := fun c => by rw [running, sched, running]
  have pre : ∀ k, preCount s' k = preCount s k + threads.flatten.countP (isPre k) := by
    intro k
    simp only [preCount, pool, waits, pending, List.flatten_append, List.countP_append]
    omega
  have places : ∀ k, k < s.nextJob → placeCount s' k = placeCount s k := by
    intro k old
    simp only [placeCount, sameTodo, sameRunning, older k old]
  refine ⟨?_, by omega, fun k old => ?_⟩
  rotate_left
  · have none := once k
    rw [if_neg (Nat.ne_of_lt old)] at none
    rw [whereabouts, whereabouts, pre, places k old]
    omega
  constructor
  · intro c k member
    rw [sameTodo] at member
    rw [older k (inv.of_mem_todo member).2.2.2.2]
    exact inv.todoCore c k member
  · intro c k runs
    rw [sameRunning] at runs
    rw [older k (inv.of_running runs).2.2.2]
    exact inv.runningCore c k runs
  · intro k
    have := once k
    rw [pre]
    by_cases old : k < s.nextJob
    · rw [places k old]
      have := inv.once k
      rw [if_neg (Nat.ne_of_lt old)] at *
      omega
    · obtain ⟨zero, nowhere⟩ := inv.fresh k (Nat.le_of_not_lt old)
      have empty : placeCount s' k = 0 := placeCount_eq_zero
        (by rw [sameTodo]; exact (nowhere _).1) (by rw [sameRunning]; exact (nowhere _).2)
      split at this <;> omega
  · intro k new
    rw [next] at new
    obtain ⟨zero, nowhere⟩ := inv.fresh k (by omega)
    have none := once k
    rw [if_neg (by omega)] at none
    refine ⟨by rw [pre]; omega, fun c => ?_⟩
    rw [sameTodo, sameRunning]
    exact nowhere c
  · intro c
    rw [sameTodo, sched]
    exact inv.counted c
  · intro action member
    rw [pool, pending, List.flatten_append, List.mem_append] at member
    rcases member with before | new
    · have placed := inv.actions action before
      refine placed.transport (by omega) (fun k old => by rw [older k old]) ?_ ?_
      · intro c k caller which
        have old : k < s.nextJob := by
          rcases which with rfl | rfl <;> exact placed.2.2
        rw [older k old]
      · intro k old zero
        have none := once k
        rw [if_neg (Nat.ne_of_lt old)] at none
        refine ⟨by rw [pre]; omega, by rw [older k old], fun c queued => sameTodo c ▸ queued⟩
    · exact actions action new

theorem Placed.commit (inv : Placed s) (req : RgaReq) (async : Bool) (fence : InFence)
    (prologue : Prologue) : Moves s (commit s req async fence prologue) := by
  cases prologue with
  | noMemory => exact ⟨inv, Nat.le_refl _, fun _ _ => Nat.le_refl _⟩
  | dmaBufFails | outFenceFails =>
      exact inv.accept rfl rfl (fun _ _ => rfl) rfl (List.append_nil _).symm (by simp) (by simp)
  | ready fenceFd =>
      refine inv.accept rfl rfl (fun k old => if_neg (Nat.ne_of_lt old)) rfl rfl (fun k => ?_) ?_
      · cases async <;> simp [isPre, eq_comm (a := k)]
      · cases async
        · simp [PlacedAction, Rga.commit, rgaJobAlloc]
        · simp [PlacedAction, Rga.commit]

theorem Placed.step {label : RgaLabel} (inv : Placed s) (taken : rgaStep cores s label = some s') :
    Moves s s' := by
  cases label with
  | commit req async prologue fence =>
      obtain rfl := Option.some.inj taken
      exact inv.commit req async fence prologue
  | fenceSignaled j =>
      simp only [rgaStep] at taken
      split at taken
      case isFalse => cases taken
      case isTrue waits =>
        obtain rfl := Option.some.inj taken
        have old : j < s.nextJob := inv.lt_of_waits <| by
          have := List.count_pos_iff.mpr waits
          rw [preCount]
          omega
        refine inv.shrink ⟨fun _ _ runs => runs, fun _ => rfl, fun _ => rfl, fun _ => rfl,
          fun _ => rfl, rfl, fun k => ?_⟩ fun action member => ?_
        · have positive := List.count_pos_iff.mpr waits
          simp only [preCount, countP_pending_spawn, List.countP_singleton, isPre, beq_iff_eq]
          by_cases same : j = k
          · subst same
            rw [List.count_erase_self, if_pos rfl]
            omega
          · rw [List.count_erase_of_ne (Ne.symm same), if_neg same]
            omega
        · rcases mem_pending_spawn.mp member with before | new
          · exact Or.inl before
          · obtain rfl := List.mem_singleton.mp new
            exact Or.inr ⟨nofun, old⟩
  | irq c =>
      simp only [rgaStep] at taken
      split at taken
      case isFalse => cases taken
      case isTrue =>
        obtain rfl := Option.some.inj taken
        refine inv.shrink ⟨fun _ _ runs => runs, fun _ => rfl, fun _ => rfl, fun _ => rfl,
          fun _ => rfl, rfl, fun k => ?_⟩ fun action member => ?_
        · have count : preCount { s with threads := s.threads ++ [[.irqThread c]] } k = _ :=
            preCount_spawn s [.irqThread c] k
          exact Nat.le_of_eq count
        · rcases mem_pending_spawn.mp member with before | new
          · exact Or.inl before
          · obtain rfl := List.mem_singleton.mp new
            exact Or.inr trivial
  | call t choice =>
      simp only [rgaStep] at taken
      split at taken
      case h_2 => cases taken
      case h_1 head rest current =>
        obtain ⟨⟨body, pushed⟩, executed, rfl⟩ := Option.map_eq_some_iff.mp taken
        exact inv.execute current executed
  | importBuffer external env =>
      obtain rfl := Option.some.inj taken
      exact inv.shrink ⟨fun _ _ runs => runs, fun _ => rfl, fun _ => rfl, fun _ => rfl,
        fun _ => rfl, rfl, fun _ => Nat.le_refl _⟩ fun _ => Or.inl
  | releaseBuffer handle =>
      obtain rfl := Option.some.inj taken
      exact inv.shrink ⟨fun _ _ runs => runs, fun _ => rfl, fun _ => rfl, fun _ => rfl,
        fun _ => rfl, rfl, fun _ => Nat.le_refl _⟩ fun _ => Or.inl

end Rga
end RockchipSoc
