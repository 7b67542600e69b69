import RockchipSoc.Rga.Start

/-!
# In whose hands a job is

A job waits for a core or runs, is retired by the call that took it off its core, is with a call
that is about to free it, or is freed.  `Passes` is the automaton of one job over these counts, and
every action of the system is a step of it.
-/

namespace RockchipSoc
namespace Rga

open LabelledRun ActionPool

variable {cores : List Nat} {s s' : RgaState} {c j k t : Nat} {head : Action}
  {rest pushed : List Action} {choice : Choice}

/-! ## One job -/

/-- How often a job waits or runs, is being retired, is about to be freed, and was freed. -/
structure Hands where
  waiting : Nat
  retiring : Nat
  cleaning : Nat
  freed : Nat

/-- A job passes from hand to hand.  Only the callback of an input fence loses one, and only the
caller of a sync job picks it up again. -/
inductive Passes (async : Bool) (lost gives : Prop) (before after : Hands) : Prop
  | keep (waiting : after.waiting = before.waiting) (retiring : after.retiring = before.retiring)
      (cleaning : after.cleaning = before.cleaning) (freed : after.freed = before.freed)
  | handOver (waiting : before.waiting = after.waiting + 1)
      (retiring : after.retiring = before.retiring)
      (cleaning : after.cleaning = before.cleaning + 1) (freed : after.freed = before.freed)
  | lose (lost : lost) (waiting : before.waiting = after.waiting + 1)
      (retiring : after.retiring = before.retiring) (cleaning : after.cleaning = before.cleaning)
      (freed : after.freed = before.freed)
  | retire (waiting : before.waiting = after.waiting + 1)
      (retiring : after.retiring = before.retiring + 1)
      (cleaning : after.cleaning = before.cleaning) (freed : after.freed = before.freed)
  | free (waiting : after.waiting = before.waiting)
      (retiring : before.retiring = after.retiring + 1)
      (cleaning : after.cleaning = before.cleaning) (freed : after.freed = before.freed + 1)
  | leave (sync : async = false) (waiting : after.waiting = before.waiting)
      (retiring : before.retiring = after.retiring + 1)
      (cleaning : after.cleaning = before.cleaning) (freed : after.freed = before.freed)
  | giveUp (sync : async = false) (gives : gives) (waiting : after.waiting = before.waiting)
      (retiring : after.retiring = before.retiring)
      (cleaning : after.cleaning = before.cleaning + 1) (freed : after.freed = before.freed)
  | clean (waiting : after.waiting = before.waiting) (retiring : after.retiring = before.retiring)
      (cleaning : before.cleaning = after.cleaning + 1) (freed : after.freed = before.freed + 1)

/-- A job is in one hand at most, and in none once it is freed or about to be. -/
structure Hands.Single (hands : Hands) : Prop where
  once : hands.waiting + hands.retiring ≤ 1
  dead : 0 < hands.cleaning + hands.freed → hands.waiting + hands.retiring = 0

theorem Hands.Single.passes {before after : Hands} {async : Bool} {lost gives : Prop}
    (single : before.Single) (passes : Passes async lost gives before after)
    (settled : gives → before.waiting + before.retiring = 0) : after.Single := by
  obtain ⟨once, dead⟩ := single
  cases passes with
  | giveUp sync gives waiting retiring cleaning freed =>
      have := settled gives
      exact ⟨by omega, fun _ => by omega⟩
  | _ => exact ⟨by omega, fun _ => by omega⟩

theorem Passes.freed_eq_zero {before after : Hands} {async : Bool} {lost gives : Prop}
    (passes : Passes async lost gives before after) (retiring : before.retiring = 0)
    (cleaning : before.cleaning = 0) (freed : before.freed = 0) : after.freed = 0 := by
  cases passes <;> omega

/-- An async job that is never lost is in exactly one hand. -/
theorem Passes.exactly {before after : Hands} {lost gives : Prop}
    (passes : Passes true lost gives before after) (kept : ¬lost) :
    after.waiting + after.retiring + after.cleaning + after.freed =
      before.waiting + before.retiring + before.cleaning + before.freed := by
  cases passes with
  | lose isLost => exact absurd isLost kept
  | leave sync => cases sync
  | giveUp sync => cases sync
  | _ => omega

/-! ## The jobs of the system -/

def isRetire (j : Nat) : Action → Bool
  | .retire k _ _ => k == j
  | _ => false

def isCleanup (j : Nat) : Action → Bool
  | .cleanup k => k == j
  | _ => false

def hands (s : RgaState) (j : Nat) : Hands where
  waiting := whereabouts s j
  retiring := (pending s.threads).countP (isRetire j)
  cleaning := (pending s.threads).countP (isCleanup j)
  freed := s.ledger.freed j

/-- The job that the end of a sync call is about to free. -/
def givesUp (choice : Choice) : Action → Option Nat
  | .wait _ j => if choice.waitEnd = .woken then some j else none
  | .abort _ j => some j
  | _ => none

/-- The callback of the job's input fence finds no scheduler. -/
def Loses (cores : List Nat) (choice : Choice) (j : Nat) (head : Action) : Prop :=
  head = .assign j .inputFence ∧ choice.core.filter (· ∈ cores) = none

theorem hands_resume (s' : RgaState) (pushed : List Action)
    (current : s.threads[t]? = some (head :: rest))
    (sameWaits : s'.fenceWaits = s.fenceWaits) (k : Nat) :
    (hands (resume s' s.threads t pushed rest) k).waiting + [head].countP (isPre k) +
        placeCount s k = (hands s k).waiting + pushed.countP (isPre k) + placeCount s' k ∧
      (hands (resume s' s.threads t pushed rest) k).retiring + [head].countP (isRetire k) =
        (hands s k).retiring + pushed.countP (isRetire k) ∧
      (hands (resume s' s.threads t pushed rest) k).cleaning + [head].countP (isCleanup k) =
        (hands s k).cleaning + pushed.countP (isCleanup k) ∧
      (hands (resume s' s.threads t pushed rest) k).freed = s'.ledger.freed k := by
  have pre : preCount (resume s' s.threads t pushed rest) k + _ = _ :=
    preCount_resume current sameWaits k
  have place : placeCount (resume s' s.threads t pushed rest) k = placeCount s' k := rfl
  refine ⟨?_, countP_pending_set _ current, countP_pending_set _ current, rfl⟩
  simp only [hands, whereabouts, place]
  omega

/-- The job taken from its core is nowhere, the others stay. -/
theorem placeCount_setRunning_none {x : Nat} (core : (s.jobs x).core = c)
    (runs : running s c = some x) (k : Nat) :
    placeCount (setRunning s c none) k + (if k = x then 1 else 0) = placeCount s k := by
  by_cases same : k = x
  · subst same
    have runs' : (s.sched c).runningJob = some k := runs
    simp [placeCount, todo, running, setRunning, core, runs']
  · by_cases here : (s.jobs k).core = c
    · have runs' : (s.sched c).runningJob = some x := runs
      simp [placeCount, todo, running, setRunning, here, runs', same, Ne.symm same]
    · simp [placeCount, todo, running, setRunning, here, same]

theorem placeCount_setCore (placed : Placed s) (waits : 0 < preCount s j) (k : Nat) :
    placeCount (setCore s j c) k = placeCount s k := by
  by_cases same : k = j
  · subst same
    have nowhere : placeCount (setCore s k c) k = 0 := by
      refine placeCount_eq_zero (fun member => ?_) fun runs => ?_
      · have := (placed.of_mem_todo member).2.1
        omega
      · have := (placed.of_running runs).2.1
        omega
    have := placed.once k
    omega
  · simp [placeCount, todo, running, setCore, same]

theorem placeCount_putChannel (s : RgaState) (j : Nat) (channel : Channel) (k : Nat) :
    placeCount (putChannel s j channel) k = placeCount s k := by
  rw [putChannel]
  split <;> rfl

theorem freed_putChannel (s : RgaState) (j : Nat) (channel : Channel) :
    (putChannel s j channel).ledger.freed = s.ledger.freed := by
  rw [putChannel]
  split <;> rfl

/-- An action that pushes as much of a job's life as it is itself leaves the job where it is. -/
theorem passes_keep {async : Bool} {lost gives : Prop}
    (current : s.threads[t]? = some (head :: rest)) (sameWaits : s'.fenceWaits = s.fenceWaits)
    (place : placeCount s' k = placeCount s k) (freed : s'.ledger.freed k = s.ledger.freed k)
    (pre : pushed.countP (isPre k) = [head].countP (isPre k))
    (retiring : pushed.countP (isRetire k) = [head].countP (isRetire k))
    (cleaning : pushed.countP (isCleanup k) = [head].countP (isCleanup k)) :
    Passes async lost gives (hands s k) (hands (resume s' s.threads t pushed rest) k) := by
  obtain ⟨waits, retires, cleans, frees⟩ := hands_resume s' pushed current sameWaits k
  exact .keep (by omega) (by omega) (by omega) (frees.trans freed)

/-- The job taken from its core passes to the call that retires it. -/
theorem Placed.passes_retire {x : Nat} {async : Bool} {lost gives : Prop} (placed : Placed s)
    (runs : running s c = some x) (current : s.threads[t]? = some (head :: rest))
    (pre : pushed.countP (isPre k) = [head].countP (isPre k))
    (retiring : pushed.countP (isRetire k) = [head].countP (isRetire k) + if x = k then 1 else 0)
    (cleaning : pushed.countP (isCleanup k) = [head].countP (isCleanup k)) :
    Passes async lost gives (hands s k)
      (hands (Rga.resume (setRunning s c none) s.threads t pushed rest) k) := by
  obtain ⟨waits, retires, cleans, frees⟩ := hands_resume (setRunning s c none) pushed
    current rfl k
  have place := placeCount_setRunning_none (placed.of_running runs).1 runs k
  by_cases same : x = k
  · rw [if_pos same.symm] at place
    rw [if_pos same] at retiring
    exact .retire (by omega) (by omega) (by omega) frees
  · rw [if_neg (Ne.symm same)] at place
    rw [if_neg same] at retiring
    exact .keep (by omega) (by omega) (by omega) frees

theorem freed_rgaJobFree (s : RgaState) (j k : Nat) :
    (rgaJobFree s j).ledger.freed k = s.ledger.freed k + if k = j then 1 else 0 := rfl

theorem isPre_cleanup : isPre k (.cleanup j) = false := rfl

theorem isRetire_cleanup : isRetire k (.cleanup j) = false := rfl

theorem isCleanup_cleanup : isCleanup k (.cleanup j) = (j == k) := rfl

/-- A job that is refused before it was queued passes to the call that frees it. -/
theorem passes_refuse {lost gives : Prop} {async : Bool}
    (current : s.threads[t]? = some (head :: rest)) (isPreHead : isPre j head = true)
    (only : ∀ k, k ≠ j → isPre k head = false) (noRetire : ∀ k, isRetire k head = false)
    (noCleanup : ∀ k, isCleanup k head = false) (k : Nat) :
    Passes async lost gives (hands s k)
      (hands (Rga.resume s s.threads t [.cleanup j] rest) k) := by
  obtain ⟨waits, retires, cleans, frees⟩ := hands_resume s [.cleanup j] current rfl k
  simp only [List.countP_singleton, noRetire, noCleanup, isPre_cleanup, isRetire_cleanup,
    isCleanup_cleanup] at waits retires cleans
  by_cases same : j = k
  · subst same
    rw [isPreHead] at waits
    simp at waits retires cleans
    exact .handOver (by omega) (by omega) (by omega) frees
  · rw [only k (Ne.symm same)] at waits
    simp [same] at waits retires cleans
    exact .keep (by omega) (by omega) (by omega) frees

/-- The caller of a sync job frees it. -/
theorem passes_giveUp {lost : Prop} {async : Bool} (current : s.threads[t]? = some (head :: rest))
    (sync : k = j → async = false) (isEnd : j ∈ givesUp choice head) :
    Passes async lost (k ∈ givesUp choice head) (hands s k)
      (hands (Rga.resume s s.threads t [.cleanup j] rest) k) := by
  obtain ⟨waits, retires, cleans, frees⟩ := hands_resume s [.cleanup j] current rfl k
  have silent : isPre k head = false ∧ isRetire k head = false ∧ isCleanup k head = false := by
    cases head <;> first | exact ⟨rfl, rfl, rfl⟩ | cases isEnd
  simp only [List.countP_singleton, silent, isPre_cleanup, isRetire_cleanup, isCleanup_cleanup]
    at waits retires cleans
  by_cases same : j = k
  · subst same
    simp at waits retires cleans
    exact .giveUp (sync rfl) isEnd (by omega) (by omega) (by omega) frees
  · simp [same] at waits retires cleans
    exact .keep (by omega) (by omega) (by omega) frees

/-- A job is freed by the call that retires it, or by the one that cleans up. -/
theorem passes_rgaJobFree {lost gives : Prop} {async : Bool}
    (current : s.threads[t]? = some (head :: rest)) (noPre : isPre k head = false)
    (holds : isRetire k head = (j == k) ∧ isCleanup k head = false ∨
      isRetire k head = false ∧ isCleanup k head = (j == k)) :
    Passes async lost gives (hands s k)
      (hands (Rga.resume (rgaJobFree s j) s.threads t [] rest) k) := by
  obtain ⟨waits, retires, cleans, frees⟩ := hands_resume (rgaJobFree s j) [] current rfl k
  have place : placeCount (rgaJobFree s j) k = placeCount s k := rfl
  simp only [List.countP_singleton, noPre, List.countP_nil] at waits retires cleans
  by_cases same : j = k
  · subst same
    rw [freed_rgaJobFree, if_pos rfl] at frees
    rcases holds with ⟨retire, cleanup⟩ | ⟨retire, cleanup⟩
    · simp [retire, cleanup] at waits retires cleans
      exact .free (by omega) (by omega) (by omega) frees
    · simp [retire, cleanup] at waits retires cleans
      exact .clean (by omega) (by omega) (by omega) frees
  · rw [freed_rgaJobFree, if_neg (Ne.symm same)] at frees
    rcases holds with ⟨retire, cleanup⟩ | ⟨retire, cleanup⟩ <;>
      simp [retire, cleanup, same] at waits retires cleans <;>
      exact .keep (by omega) (by omega) (by omega) frees

/-- Every action is a step of each job's automaton. -/
theorem Placed.passes (placed : Placed s) (start : StartInv s)
    (current : s.threads[t]? = some (head :: rest))
    (effect : Effect cores s choice head s' pushed) (k : Nat) :
    Passes (s.jobs k).async (Loses cores choice k head) (k ∈ givesUp choice head) (hands s k)
      (hands (Rga.resume s' s.threads t pushed rest) k) := by
  have known := placed.actions head (head_mem_pending current)
  cases effect with
  | @fenceAwaited j fence =>
      have retiring : (pending (s.threads.set t ([] ++ rest))).countP (isRetire k) + _ = _ :=
        countP_pending_set (isRetire k) current
      have cleaning : (pending (s.threads.set t ([] ++ rest))).countP (isCleanup k) + _ = _ :=
        countP_pending_set (isCleanup k) current
      exact .keep (congrArg (· + placeCount s k) (preCount_fenceAwaited current k)) retiring
        cleaning rfl
  | fenceRefused =>
      exact passes_refuse current (by simp [isPre]) (fun k other => by simp [isPre, Ne.symm other])
        (fun _ => rfl) (fun _ => rfl) k
  | unassigned =>
      exact passes_refuse current (by simp [isPre]) (fun k other => by simp [isPre, Ne.symm other])
        (fun _ => rfl) (fun _ => rfl) k
  | @callbackUnassigned j refused =>
      obtain ⟨waits, retires, cleans, frees⟩ := hands_resume s [] current rfl k
      by_cases same : j = k
      · subst same
        simp [isPre, isRetire, isCleanup] at waits retires cleans
        exact .lose ⟨rfl, refused⟩ (by omega) (by omega) (by omega) frees
      · simp [isPre, isRetire, isCleanup, same] at waits retires cleans
        exact .keep (by omega) (by omega) (by omega) frees
  | @assigned j caller c member =>
      have waits : 0 < preCount s j := by
        have := (placed.of_pre current (j := j) (by simp [isPre])).1
        omega
      exact passes_keep current rfl (placeCount_setCore placed waits k) rfl (by simp [isPre])
        (by simp [isRetire]) (by simp [isCleanup])
  | @timedOut c j caller x runs async elapsed =>
      exact placed.passes_retire runs current (by simp [isPre, List.countP_cons])
        (by simp [isRetire, List.countP_cons]) (by simp [isCleanup])
  | @completed c x runs =>
      exact placed.passes_retire runs current (by simp [isPre])
        (by simp [isRetire, List.countP_cons]) (by simp [isCleanup])
  | @cleared c j =>
      exact placed.passes_retire (start.starting_head current rfl).1 current
        (by simp [isPre]) (by simp [isRetire, List.countP_cons])
        (by simp [isCleanup])
  | @enqueued c j caller =>
      obtain ⟨waits, retires, cleans, frees⟩ := hands_resume (Rga.enqueue s c j)
        (.next c :: if caller = .sync then [.checkRet c j] else []) current rfl k
      have silent : ∀ p : Action → Bool, p (.next c) = false → p (.checkRet c j) = false →
          (Action.next c :: if caller = .sync then [.checkRet c j] else []).countP p = 0 := by
        intro p next check
        split <;> simp [next, check]
      have place := placeCount_enqueue known.1 k
      rw [silent _ rfl rfl] at waits retires cleans
      by_cases same : j = k
      · subst same
        simp [isPre, isRetire, isCleanup] at waits retires cleans place
        exact .keep (by omega) (by omega) (by omega) frees
      · simp [isPre, isRetire, isCleanup, same, Ne.symm same] at waits retires cleans place
        exact .keep (by omega) (by omega) (by omega) frees
  | begun idle listed =>
      exact passes_keep current rfl (placeCount_takeFirst idle listed k) rfl (by simp [isPre])
        (by simp [isRetire]) (by simp [isCleanup])
  | put =>
      exact passes_keep current (by rw [putChannel]; split <;> rfl) (placeCount_putChannel ..)
        (congrFun (freed_putChannel ..) k) (by simp [isPre]) (by simp [isRetire])
        (by simp [isCleanup])
  | retired => exact passes_rgaJobFree current rfl (.inl ⟨rfl, rfl⟩)
  | @leftToCaller j ending sync =>
      have place : placeCount (if ending = .failed then setDone s j else s) k =
          placeCount s k := by split <;> rfl
      obtain ⟨waits, retires, cleans, frees⟩ := hands_resume
        (if ending = .failed then setDone s j else s) [] current
        (by split <;> rfl) k
      have freed : (if ending = .failed then setDone s j else s).ledger.freed k =
          s.ledger.freed k := by split <;> rfl
      by_cases same : j = k
      · subst same
        simp [isPre, isRetire, isCleanup] at waits retires cleans
        exact .leave sync (by omega) (by omega) (by omega) (frees.trans freed)
      · simp [isPre, isRetire, isCleanup, same] at waits retires cleans
        exact .keep (by omega) (by omega) (by omega) (frees.trans freed)
  | woken done wakes =>
      exact passes_giveUp current (fun same => same ▸ known.2.2.1) (by simp [givesUp, wakes])
  | abortedElsewhere elsewhere =>
      exact passes_giveUp current (fun same => same ▸ known.2.2.1) rfl
  | @aborted c j runs =>
      obtain ⟨waits, retires, cleans, frees⟩ := hands_resume (setRunning s c none)
        [.cleanup j] current rfl k
      have place := placeCount_setRunning_none (placed.of_running runs).1 runs k
      by_cases same : j = k
      · subst same
        simp [isPre, isRetire, isCleanup] at waits retires cleans place
        exact .handOver (by omega) (by omega) (by omega) frees
      · simp [isPre, isRetire, isCleanup, same, Ne.symm same] at waits retires cleans place
        exact .keep (by omega) (by omega) (by omega) frees
  | cleaned => exact passes_rgaJobFree current rfl (.inr ⟨rfl, rfl⟩)
  | got serves pushes =>
      refine passes_keep current rfl rfl rfl ?_ ?_ ?_ <;>
        rcases pushes with rfl | ⟨ret, rfl⟩ <;>
        simp [isPre, isRetire, isCleanup, startFailed]
  | _ =>
      exact passes_keep current rfl rfl rfl (by simp [isPre, startFailed, List.countP_cons])
        (by simp [isRetire, startFailed, List.countP_cons])
        (by simp [isCleanup, startFailed])

/-! ## Steps -/

/-- A job that has just been allocated waits, or is freed at once. -/
structure Hands.New (hands : Hands) : Prop where
  here : hands.waiting + hands.freed = 1
  retiring : hands.retiring = 0
  cleaning : hands.cleaning = 0

theorem Placed.hands_fresh (placed : Placed s) (new : s.nextJob ≤ k) :
    (hands s k).waiting = 0 ∧ (hands s k).retiring = 0 ∧ (hands s k).cleaning = 0 := by
  obtain ⟨waits, nowhere⟩ := placed.fresh k new
  refine ⟨?_, List.countP_eq_zero.mpr fun action member isTrue => ?_,
    List.countP_eq_zero.mpr fun action member isTrue => ?_⟩
  · simp only [hands, whereabouts]
    rw [waits, placeCount_eq_zero (nowhere _).1 (nowhere _).2]
  · have known := placed.actions action member
    cases action <;> simp only [isRetire, beq_iff_eq, Bool.false_eq_true] at isTrue
    case retire =>
      subst isTrue
      exact absurd known.2.2 (Nat.not_lt.mpr new)
  · have known := placed.actions action member
    cases action <;> simp only [isCleanup, beq_iff_eq, Bool.false_eq_true] at isTrue
    case cleanup =>
      subst isTrue
      exact absurd known.2 (Nat.not_lt.mpr new)

theorem hands_spawn {thread : List Action} (pool : s'.threads = s.threads ++ [thread])
    (waits : s'.fenceWaits.count k + thread.countP (isPre k) = s.fenceWaits.count k)
    (place : placeCount s' k = placeCount s k) (freed : s'.ledger.freed k = s.ledger.freed k)
    (retiring : thread.countP (isRetire k) = 0) (cleaning : thread.countP (isCleanup k) = 0) :
    hands s' k = hands s k := by
  have pre : preCount s' k = preCount s k := by
    simp only [preCount, pool, countP_pending_spawn]
    omega
  simp only [hands, whereabouts, pre, place, freed, pool, countP_pending_spawn, retiring, cleaning,
    Nat.add_zero]

theorem hands_irq (s : RgaState) (c k : Nat) :
    hands { setHwBusy s c false with threads := s.threads ++ [[.irqThread c]] } k = hands s k :=
  hands_spawn rfl rfl rfl rfl rfl rfl

theorem hands_fenceSignaled (waits : j ∈ s.fenceWaits) (k : Nat) :
    hands { s with fenceWaits := s.fenceWaits.erase j
                   threads := s.threads ++ [[.assign j .inputFence]] } k = hands s k := by
  refine hands_spawn rfl ?_ rfl rfl rfl rfl
  by_cases same : j = k
  · subst same
    have := List.count_pos_iff.mpr waits
    simp [isPre, List.count_erase_self]
    omega
  · simp [isPre, same, List.count_erase_of_ne (Ne.symm same)]

theorem hands_allocAndFree (old : k ≠ s.nextJob) : hands (allocAndFree s) k = hands s k := by
  simp only [hands, allocAndFree, freed_rgaJobFree, if_neg old]
  rfl

theorem Placed.new_allocAndFree (placed : Placed s) (unfreed : s.ledger.freed s.nextJob = 0) :
    (hands (allocAndFree s) s.nextJob).New := by
  obtain ⟨waits, retires, cleans⟩ := placed.hands_fresh (Nat.le_refl _)
  refine ⟨?_, retires, cleans⟩
  have freed : (hands (allocAndFree s) s.nextJob).freed = s.ledger.freed s.nextJob + 1 := by
    simp [hands, allocAndFree, freed_rgaJobFree]
  have same : (hands (allocAndFree s) s.nextJob).waiting = (hands s s.nextJob).waiting := rfl
  omega

section Commit

variable (req : RgaReq) (async fenceFd : Bool) (fence : InFence)

theorem hands_commit (old : k ≠ s.nextJob) :
    hands (commit s req async fence (.ready fenceFd)) k = hands s k := by
  refine hands_spawn rfl ?_ ?_ rfl ?_ ?_
  · cases async <;> simp [commit, isPre, Ne.symm old]
  · simp [placeCount, todo, running, commit, old]
  · cases async <;> rfl
  · cases async <;> rfl

theorem Placed.new_commit (placed : Placed s) (unfreed : s.ledger.freed s.nextJob = 0) :
    (hands (Rga.commit s req async fence (.ready fenceFd)) s.nextJob).New := by
  obtain ⟨waits, retires, cleans⟩ := placed.hands_fresh (Nat.le_refl _)
  obtain ⟨_, nowhere⟩ := placed.fresh s.nextJob (Nat.le_refl _)
  have place : placeCount (Rga.commit s req async fence (.ready fenceFd)) s.nextJob = 0 :=
    placeCount_eq_zero (nowhere _).1 (nowhere _).2
  have pool : (Rga.commit s req async fence (.ready fenceFd)).threads = s.threads ++
      [[if async then .inputFence s.nextJob fence else .assign s.nextJob .sync]] := rfl
  have freed : (hands (Rga.commit s req async fence (.ready fenceFd)) s.nextJob).freed =
    s.ledger.freed s.nextJob := rfl
  refine ⟨?_, ?_, ?_⟩
  · have pre : preCount (Rga.commit s req async fence (.ready fenceFd)) s.nextJob =
        preCount s s.nextJob + 1 := by
      simp only [preCount, pool, countP_pending_spawn]
      cases async <;> simp [isPre, Rga.commit] <;> omega
    simp only [hands, whereabouts, place, pre] at waits freed ⊢
    omega
  · simp only [hands, pool, countP_pending_spawn] at retires ⊢
    rw [retires]
    cases async <;> rfl
  · simp only [hands, pool, countP_pending_spawn] at cleans ⊢
    rw [cleans]
    cases async <;> rfl

end Commit

/-- Every step is a step of the automaton of each job, but for the one that is allocated. -/
theorem Placed.step_passes {label : RgaLabel} (placed : Placed s) (start : StartInv s)
    (steps : Steps cores s label s') (k : Nat) :
    Passes (s.jobs k).async (∃ head ∈ executing s label, Loses cores (choiceOf label) k head)
        (∃ head ∈ executing s label, k ∈ givesUp (choiceOf label) head) (hands s k) (hands s' k) ∨
      k = s.nextJob ∧ k < s'.nextJob ∧ (s.ledger.freed k = 0 → (hands s' k).New) := by
  have keep : hands s' k = hands s k → Passes (s.jobs k).async
      (∃ head ∈ executing s label, Loses cores (choiceOf label) k head)
      (∃ head ∈ executing s label, k ∈ givesUp (choiceOf label) head) (hands s k) (hands s' k) :=
    fun same => .keep (by rw [same]) (by rw [same]) (by rw [same]) (by rw [same])
  cases steps with
  | refused | imported | released => exact Or.inl (keep rfl)
  | undone =>
      by_cases new : k = s.nextJob
      · exact Or.inr ⟨new, new ▸ Nat.lt_succ_self _, new ▸ placed.new_allocAndFree⟩
      · exact Or.inl (keep (hands_allocAndFree new))
  | committed =>
      by_cases new : k = s.nextJob
      · exact Or.inr ⟨new, new ▸ Nat.lt_succ_self _, new ▸ placed.new_commit _ _ _ _⟩
      · exact Or.inl (keep (hands_commit _ _ _ _ new))
  | fenceSignaled waits => exact Or.inl (keep (hands_fenceSignaled waits k))
  | irq => exact Or.inl (keep (hands_irq s _ k))
  | @call t choice head rest pushed middle current effect =>
      refine Or.inl ?_
      have passes := placed.passes start current effect k
      have isHead : executing s (.call t choice) = some head := by simp [executing, current]
      simpa only [isHead, Option.mem_def, Option.some.injEq, exists_eq_left', choiceOf] using passes

/-- Jobs are placed, starts are undisturbed, and every job is in one hand at most. -/
structure CustodyInv (s : RgaState) : Prop where
  placed : Placed s
  start : StartInv s
  single : ∀ j, (hands s j).Single
  fresh : ∀ j, s.nextJob ≤ j → s.ledger.freed j = 0

theorem CustodyInv.init : CustodyInv rgaInit where
  placed := placed_init
  start := StartInv.init
  single := fun _ => ⟨Nat.zero_le 1, fun dead => absurd dead (Nat.lt_irrefl 0)⟩
  fresh := fun _ _ => rfl

/-- A sync call frees its job only after it was taken from its core and retired. -/
def GivesUpSettled (s : RgaState) (label : RgaLabel) : Prop :=
  ∀ head ∈ executing s label, ∀ j ∈ givesUp (choiceOf label) head,
    (hands s j).waiting + (hands s j).retiring = 0

instance (s : RgaState) (label : RgaLabel) : Decidable (GivesUpSettled s label) :=
  inferInstanceAs (Decidable (∀ head ∈ executing s label,
    ∀ j ∈ givesUp (choiceOf label) head, (hands s j).waiting + (hands s j).retiring = 0))

theorem Hands.New.single {hands : Hands} (new : hands.New) : hands.Single := by
  obtain ⟨here, retiring, cleaning⟩ := new
  exact ⟨by omega, fun _ => by omega⟩

theorem CustodyInv.step {label : RgaLabel} (inv : CustodyInv s) (steps : Steps cores s label s')
    (placed : Placed s') (older : s.nextJob ≤ s'.nextJob)
    (undisturbed : StartsUndisturbed s label) (settled : GivesUpSettled s label) :
    CustodyInv s' where
  placed := placed
  start := inv.start.step steps undisturbed
  single := fun k => by
    rcases inv.placed.step_passes inv.start steps k with passes | ⟨new, _, fresh⟩
    · refine (inv.single k).passes passes ?_
      rintro ⟨head, isHead, gives⟩
      exact settled head isHead k gives
    · exact (fresh (inv.fresh k (Nat.le_of_eq new.symm))).single
  fresh := fun k new => by
    have young := Nat.le_trans older new
    obtain ⟨waits, retires, cleans⟩ := inv.placed.hands_fresh young
    have unfreed : (hands s k).freed = 0 := inv.fresh k young
    rcases inv.placed.step_passes inv.start steps k with passes | ⟨_, admitted, _⟩
    · exact passes.freed_eq_zero retires cleans unfreed
    · exact absurd admitted (Nat.not_lt.mpr new)

end Rga
end RockchipSoc
