import Mathlib.Data.List.Basic
import RockchipSoc.Rga.Place

/-!
# The order of a queue

`rga_job_schedule` walks `todo_list` to the first job of lower priority and enters the new job
right behind that one, not in front of it; it then raises every job from there on, the new one
included.  A queue therefore stays sorted only as long as no job overtakes another.
-/

namespace RockchipSoc
namespace Rga

open LabelledRun

def priorityOf (s : RgaState) (j : Nat) : Nat := (s.jobs j).priority

/-- The list has the job entered behind all jobs of at least its priority and ahead of all jobs of
a lower one. -/
def PlacedAhead (priority : Nat → Nat) (j : Nat) (before after : List Nat) : Prop :=
  ∃ front back, before = front ++ back ∧ after = front ++ j :: back ∧
    (∀ k ∈ front, priority j ≤ priority k) ∧ ∀ k ∈ back, priority k < priority j

/-- Priorities do not increase along the list. -/
def SortedBy (priority : Nat → Nat) (queue : List Nat) : Prop :=
  queue.Pairwise fun ahead behind => priority behind ≤ priority ahead

variable {priority : Nat → Nat} {j : Nat} {queue : List Nat}

/-! ## The insertion loop -/

/-- With nobody to overtake, the job goes to the end and no priority is raised. -/
theorem insertByPriority_of_none_lower (none_lower : ∀ k ∈ queue, priority j ≤ priority k) :
    insertByPriority priority j queue = (queue ++ [j], []) := by
  induction queue with
  | nil => rfl
  | cons pos rest ih =>
      have first := none_lower pos List.mem_cons_self
      have later := ih fun k member => none_lower k (List.mem_cons_of_mem pos member)
      rw [insertByPriority, if_neg (by omega), later, List.cons_append]

/-- Otherwise it goes behind the first job that it should overtake. -/
theorem insertByPriority_of_lower {front rest : List Nat} {pos : Nat}
    (ahead : ∀ k ∈ front, priority j ≤ priority k) (lower : priority pos < priority j) :
    insertByPriority priority j (front ++ pos :: rest) =
      (front ++ pos :: j :: rest, pos :: j :: rest) := by
  induction front with
  | nil => exact if_pos lower
  | cons head front ih =>
      have first := ahead head List.mem_cons_self
      have later := ih fun k member => ahead k (List.mem_cons_of_mem head member)
      rw [List.cons_append, insertByPriority, if_neg (by omega), later, List.cons_append]

/-- A queue with a job of lower priority splits at the first one. -/
theorem exists_first_lower (some_lower : ¬∀ k ∈ queue, priority j ≤ priority k) :
    ∃ front pos rest, queue = front ++ pos :: rest ∧ (∀ k ∈ front, priority j ≤ priority k) ∧
      priority pos < priority j := by
  induction queue with
  | nil => exact absurd (fun k member => absurd member List.not_mem_nil) some_lower
  | cons head rest ih =>
      by_cases lower : priority head < priority j
      · exact ⟨[], head, rest, rfl, fun k member => absurd member List.not_mem_nil, lower⟩
      · have later : ¬∀ k ∈ rest, priority j ≤ priority k := by
          intro none_lower
          refine some_lower fun k member => ?_
          rcases List.mem_cons.mp member with rfl | behind
          · exact Nat.le_of_not_lt lower
          · exact none_lower k behind
        obtain ⟨front, pos, rest', rfl, ahead, lower'⟩ := ih later
        refine ⟨head :: front, pos, rest', rfl, fun k member => ?_, lower'⟩
        rcases List.mem_cons.mp member with rfl | inside
        · exact Nat.le_of_not_lt lower
        · exact ahead k inside

theorem todoInsert_of_none_lower {s : RgaState}
    (none_lower : ∀ k ∈ queue, priorityOf s j ≤ priorityOf s k) :
    todoInsert s j queue = (queue ++ [j], []) := by
  rw [todoInsert]
  split
  · rfl
  · exact insertByPriority_of_none_lower none_lower

theorem todoInsert_of_lower {s : RgaState} {front rest : List Nat} {pos : Nat}
    (ahead : ∀ k ∈ front, priorityOf s j ≤ priorityOf s k)
    (lower : priorityOf s pos < priorityOf s j) :
    todoInsert s j (front ++ pos :: rest) =
      (front ++ pos :: j :: rest, pos :: j :: rest) := by
  have raised : ¬(front ++ pos :: rest = [] ∨ (s.jobs j).priority = rgaSchedPriorityDefault) := by
    rintro (empty | default)
    · simp at empty
    · simp only [priorityOf, default, rgaSchedPriorityDefault] at lower
      omega
  rw [todoInsert, if_neg raised]
  exact insertByPriority_of_lower ahead lower

/-- The loop enters the job somewhere and keeps the order of the others. -/
theorem todoInsert_split (s : RgaState) (j : Nat) (queue : List Nat) :
    ∃ front back, queue = front ++ back ∧ (todoInsert s j queue).1 = front ++ j :: back := by
  by_cases none_lower : ∀ k ∈ queue, priorityOf s j ≤ priorityOf s k
  · rw [todoInsert_of_none_lower none_lower]
    exact ⟨queue, [], (List.append_nil queue).symm, rfl⟩
  · obtain ⟨front, pos, rest, rfl, ahead, lower⟩ := exists_first_lower none_lower
    rw [todoInsert_of_lower ahead lower]
    exact ⟨front ++ [pos], rest, by simp, by simp⟩

/-! ## One insertion -/

theorem todo_enqueue_self (s : RgaState) (c j : Nat) :
    todo (enqueue s c j) c = (todoInsert s j (todo s c)).1 := by
  simp only [todo, enqueue, raisePriority, if_true]

theorem todo_enqueue_of_ne {s : RgaState} {c c' : Nat} (other : c' ≠ c) :
    todo (enqueue s c j) c' = todo s c' := by
  simp only [todo, enqueue, raisePriority, if_neg other]

theorem priorityOf_enqueue (s : RgaState) (c j k : Nat) : priorityOf (enqueue s c j) k =
    priorityOf s k + if k ∈ (todoInsert s j (todo s c)).2 then 1 else 0 := rfl

/-- No job of the queue has a lower priority than the new one. -/
def NoneLower (s : RgaState) (c j : Nat) : Prop :=
  ∀ k ∈ todo s c, priorityOf s j ≤ priorityOf s k

instance (s : RgaState) (c j : Nat) : Decidable (NoneLower s c j) :=
  inferInstanceAs (Decidable (∀ k ∈ todo s c, _))

theorem placedAhead_enqueue_iff {s : RgaState} {c : Nat} (fresh : j ∉ todo s c) :
    PlacedAhead (priorityOf s) j (todo s c) (todo (enqueue s c j) c) ↔ NoneLower s c j := by
  rw [todo_enqueue_self]
  constructor
  · rintro ⟨front, back, before, after, ahead, behind⟩
    by_contra some_lower
    obtain ⟨front', pos, rest, queue_eq, ahead', lower⟩ := exists_first_lower some_lower
    rw [queue_eq, todoInsert_of_lower ahead' lower] at after
    have outside : j ∉ front := fun member => fresh (before ▸ List.mem_append_left _ member)
    have outside' : j ∉ back := fun member => fresh (before ▸ List.mem_append_right _ member)
    rw [List.append_cons] at after
    obtain ⟨rfl, _, rfl⟩ := (List.append_cons_inj_of_notMem outside outside').mp after.symm
    have overtaken := ahead pos (by simp)
    omega
  · intro none_lower
    rw [todoInsert_of_none_lower none_lower]
    exact ⟨todo s c, [], (List.append_nil _).symm, rfl, none_lower,
      fun k member => absurd member List.not_mem_nil⟩

/-- With nobody to overtake, only the end of this queue changes. -/
theorem enqueue_of_noneLower {s : RgaState} {c : Nat} (none_lower : NoneLower s c j) :
    todo (enqueue s c j) c = todo s c ++ [j] ∧ priorityOf (enqueue s c j) = priorityOf s := by
  have inserted := todoInsert_of_none_lower none_lower
  refine ⟨by rw [todo_enqueue_self, inserted], funext fun k => ?_⟩
  rw [priorityOf_enqueue, inserted, if_neg List.not_mem_nil, Nat.add_zero]

theorem sorted_enqueue_iff {s : RgaState} {c : Nat} (sorted : SortedBy (priorityOf s) (todo s c)) :
    SortedBy (priorityOf (enqueue s c j)) (todo (enqueue s c j) c) ↔ NoneLower s c j := by
  constructor
  · intro sorted'
    by_contra some_lower
    obtain ⟨front, pos, rest, queue_eq, ahead, lower⟩ := exists_first_lower some_lower
    have inserted := @todoInsert_of_lower j s front rest pos ahead lower
    rw [todo_enqueue_self, queue_eq, inserted] at sorted'
    have pair := (List.pairwise_append.mp sorted').2.1
    have order := List.rel_of_pairwise_cons pair List.mem_cons_self
    simp only [priorityOf_enqueue, queue_eq, inserted, List.mem_cons, true_or, or_true, if_true]
      at order
    omega
  · intro none_lower
    obtain ⟨todo_eq, priority_eq⟩ := enqueue_of_noneLower none_lower
    rw [todo_eq, priority_eq]
    refine List.pairwise_append.mpr ⟨sorted, List.pairwise_singleton _ _, ?_⟩
    intro k member _ last
    obtain rfl := List.mem_singleton.mp last
    exact none_lower k member

/-! ## Histories of the queues -/

/-- The driver with a record of the jobs scheduled so far, and for each core of those that came
with the default priority, in the order in which they came. -/
structure QueueHistory where
  state : RgaState
  scheduled : List Nat
  atDefault : Nat → List Nat

inductive QueueLabel
  /-- `rga_job_schedule` enters a job that was not scheduled before. -/
  | schedule (c j : Nat)
  /-- `rga_job_next` takes the first job. -/
  | next (c : Nat)
  deriving DecidableEq

def queueStep (q : QueueHistory) : QueueLabel → Option QueueHistory
  | .schedule c j =>
      if j ∈ q.scheduled then none
      else some {
        state := enqueue q.state c j
        scheduled := j :: q.scheduled
        atDefault := fun k => q.atDefault k ++
          if k = c ∧ priorityOf q.state j = rgaSchedPriorityDefault then [j] else [] }
  | .next c =>
      match todo q.state c with
      | [] => none
      | j :: rest => some { q with state := takeFirst q.state c j rest }

/-- Every queue is sorted by the priorities as they are now. -/
def QueuesSorted (q : QueueHistory) : Prop :=
  ∀ c, SortedBy (priorityOf q.state) (todo q.state c)

/-- In each queue the jobs that came with the default priority stand in the order they came in. -/
def ArrivalKept (q : QueueHistory) : Prop :=
  ∀ c, ((todo q.state c).filter (· ∈ q.atDefault c)).Sublist (q.atDefault c)

/-- Nothing is queued and nothing was scheduled; the jobs and their priorities are arbitrary. -/
structure NothingScheduled (q : QueueHistory) : Prop where
  todo_nil : ∀ c, todo q.state c = []
  scheduled_nil : q.scheduled = []
  atDefault_nil : ∀ c, q.atDefault c = []

/-- A job that is entered overtakes nobody. -/
def OvertakesNone (q : QueueHistory) : QueueLabel → Prop
  | .schedule c j => j ∉ q.scheduled → NoneLower q.state c j
  | .next _ => True

theorem todo_takeFirst (s : RgaState) (c j : Nat) (rest : List Nat) (k : Nat) :
    todo (takeFirst s c j rest) k = if k = c then rest else todo s k := rfl

theorem priorityOf_takeFirst (s : RgaState) (c j : Nat) (rest : List Nat) :
    priorityOf (takeFirst s c j rest) = priorityOf s := rfl

/-- Taking the first job keeps every queue sorted. -/
theorem QueuesSorted.next {q : QueueHistory} (sorted : QueuesSorted q) {c j : Nat}
    {rest : List Nat} (first : todo q.state c = j :: rest) :
    QueuesSorted { q with state := takeFirst q.state c j rest } := by
  intro k
  have here := sorted k
  simp only [todo_takeFirst, priorityOf_takeFirst]
  split
  next same =>
    rw [same, first] at here
    exact here.of_cons
  next => exact here

theorem QueuesSorted.step {q q' : QueueHistory} {label : QueueLabel} (sorted : QueuesSorted q)
    (overtakes : OvertakesNone q label) (taken : queueStep q label = some q') :
    QueuesSorted q' := by
  cases label with
  | schedule c j =>
      simp only [queueStep] at taken
      split at taken
      next => contradiction
      next fresh =>
        obtain rfl := Option.some.inj taken
        have none_lower : NoneLower q.state c j := overtakes fresh
        intro k
        by_cases same : k = c
        · rw [same]
          exact (sorted_enqueue_iff (sorted c)).mpr none_lower
        · rw [todo_enqueue_of_ne same, (enqueue_of_noneLower none_lower).2]
          exact sorted k
  | next c =>
      simp only [queueStep] at taken
      split at taken
      next => contradiction
      next j rest first =>
        obtain rfl := Option.some.inj taken
        exact sorted.next first

/-- A job with somebody to overtake leaves its queue unsorted. -/
theorem QueuesSorted.broken {q : QueueHistory} {label : QueueLabel} (sorted : QueuesSorted q)
    (overtakes : ¬OvertakesNone q label) :
    ∃ q', queueStep q label = some q' ∧ ¬QueuesSorted q' := by
  cases label with
  | schedule c j =>
      obtain ⟨fresh, some_lower⟩ := Classical.not_imp.mp overtakes
      refine ⟨_, if_neg fresh, fun sorted' => some_lower ?_⟩
      exact (sorted_enqueue_iff (sorted c)).mp (sorted' c)
  | next c => exact absurd trivial overtakes

theorem NothingScheduled.sorted {q : QueueHistory} (nothing : NothingScheduled q) :
    QueuesSorted q := by
  intro c
  rw [nothing.todo_nil]
  exact List.Pairwise.nil

/-! ## Arrival order -/

/-- Who is queued or recorded was scheduled. -/
structure ArrivalInv (q : QueueHistory) : Prop where
  queued : ∀ c, ∀ j ∈ todo q.state c, j ∈ q.scheduled
  recorded : ∀ c, ∀ j ∈ q.atDefault c, j ∈ q.scheduled
  kept : ArrivalKept q

theorem NothingScheduled.arrivalInv {q : QueueHistory} (nothing : NothingScheduled q) :
    ArrivalInv q := by
  refine ⟨fun c j member => ?_, fun c j member => ?_, fun c => ?_⟩
  · rw [nothing.todo_nil] at member
    exact absurd member List.not_mem_nil
  · rw [nothing.atDefault_nil] at member
    exact absurd member List.not_mem_nil
  · rw [nothing.todo_nil]
    exact List.nil_sublist _

/-- A job of default priority joins the end of the record and of the queue; any other is not
recorded. -/
theorem ArrivalInv.kept_schedule {q : QueueHistory} (inv : ArrivalInv q) {c j : Nat}
    (fresh : j ∉ q.scheduled) (k : Nat) :
    ((todo (enqueue q.state c j) k).filter (· ∈ q.atDefault k ++
        if k = c ∧ priorityOf q.state j = rgaSchedPriorityDefault then [j] else [])).Sublist
      (q.atDefault k ++
        if k = c ∧ priorityOf q.state j = rgaSchedPriorityDefault then [j] else []) := by
  have unqueued : j ∉ todo q.state c := fun member => fresh (inv.queued c j member)
  have unrecorded : j ∉ q.atDefault k := fun member => fresh (inv.recorded k j member)
  have kept := inv.kept k
  by_cases same : k = c
  · subst same
    by_cases default : priorityOf q.state j = rgaSchedPriorityDefault
    · have none_lower : NoneLower q.state k j := fun i _ => by
        rw [default]
        exact Nat.zero_le _
      have earlier : (todo q.state k).filter (· ∈ q.atDefault k ++ [j]) =
          (todo q.state k).filter (· ∈ q.atDefault k) := by
        refine List.filter_congr fun i member => ?_
        have other : i ≠ j := fun eq => unqueued (eq ▸ member)
        simp [other]
      rw [if_pos ⟨rfl, default⟩, (enqueue_of_noneLower none_lower).1, List.filter_append, earlier]
      exact kept.append List.filter_sublist
    · rw [if_neg fun both => default both.2, List.append_nil, todo_enqueue_self]
      obtain ⟨front, back, queue_eq, inserted⟩ := todoInsert_split q.state j (todo q.state k)
      rw [inserted, List.filter_append, List.filter_cons_of_neg (by simpa using unrecorded),
        ← List.filter_append, ← queue_eq]
      exact kept
  · rw [if_neg fun both => same both.1, List.append_nil, todo_enqueue_of_ne same]
    exact kept

theorem ArrivalInv.step {q q' : QueueHistory} {label : QueueLabel} (inv : ArrivalInv q)
    (taken : queueStep q label = some q') : ArrivalInv q' := by
  cases label with
  | schedule c j =>
      simp only [queueStep] at taken
      split at taken
      next => contradiction
      next fresh =>
        obtain rfl := Option.some.inj taken
        refine ⟨fun k i member => ?_, fun k i member => ?_, fun k => ?_⟩
        · by_cases same : k = c
          · rw [same, todo_enqueue_self, (todoInsert_perm _ _ _).mem_iff, List.mem_cons] at member
            exact List.mem_cons.mpr (member.imp id (inv.queued c i))
          · rw [todo_enqueue_of_ne same] at member
            exact List.mem_cons_of_mem j (inv.queued k i member)
        · rcases List.mem_append.mp member with old | new
          · exact List.mem_cons_of_mem j (inv.recorded k i old)
          · split at new
            next => exact List.mem_cons.mpr (Or.inl (List.mem_singleton.mp new))
            next => exact absurd new List.not_mem_nil
        · exact inv.kept_schedule fresh k
  | next c =>
      simp only [queueStep] at taken
      split at taken
      next => contradiction
      next j rest first =>
        obtain rfl := Option.some.inj taken
        refine ⟨fun k i member => ?_, inv.recorded, fun k => ?_⟩
        · simp only [todo_takeFirst] at member
          split at member
          next same => exact inv.queued c i (first ▸ List.mem_cons_of_mem j member)
          next => exact inv.queued k i member
        · have here := inv.kept k
          simp only [todo_takeFirst]
          split
          next same =>
            subst same
            rw [first] at here
            exact ((List.sublist_cons_self j rest).filter _).trans here
          next => exact here

theorem ArrivalInv.always {q : QueueHistory} (inv : ArrivalInv q) (labels : List QueueLabel) :
    Always queueStep ArrivalKept q labels := by
  induction labels generalizing q with
  | nil => exact inv.kept
  | cons label labels ih => exact ⟨inv.kept, fun next taken => ih (inv.step taken)⟩

/-- A job of raised priority is entered where it belongs exactly if nobody in the queue has a lower
priority; a history keeps every queue sorted exactly if no job it enters has anybody to overtake;
and jobs of default priority keep their order of arrival in any case. -/
theorem priority_queueing_iff (s : RgaState) (c j : Nat) (q : QueueHistory)
    (labels : List QueueLabel) :
    (rgaSchedPriorityDefault < priorityOf s j → j ∉ todo s c →
      (PlacedAhead (priorityOf s) j (todo s c) (todo (enqueue s c j) c) ↔ NoneLower s c j)) ∧
    (NothingScheduled q →
      (Always queueStep QueuesSorted q labels ↔ Along queueStep OvertakesNone q labels) ∧
        Always queueStep ArrivalKept q labels) := by
  refine ⟨fun _ fresh => placedAhead_enqueue_iff fresh, fun nothing => ⟨?_, ?_⟩⟩
  · exact always_iff_along QueuesSorted (fun _ sorted => sorted)
      (fun _ _ _ sorted _ overtakes taken => sorted.step overtakes taken)
      (fun _ _ sorted _ overtakes => sorted.broken overtakes) nothing.sorted labels
      (along_anyStep q labels)
  · exact nothing.arrivalInv.always labels

/-- Nothing scheduled; the number of a job is its priority. -/
def numberedJobs : QueueHistory where
  state := { rgaInit with jobs := fun j => { priority := j } }
  scheduled := []
  atDefault := fun _ => []

theorem numberedJobs_nothing : NothingScheduled numberedJobs := ⟨fun _ => rfl, rfl, fun _ => rfl⟩

theorem priority_queueing_iff_numberedJobs :
    (PlacedAhead (priorityOf numberedJobs.state) 3 (todo numberedJobs.state 0)
      (todo (enqueue numberedJobs.state 0 3) 0) ↔ NoneLower numberedJobs.state 0 3) ∧
    (Always queueStep QueuesSorted numberedJobs [.schedule 0 5, .schedule 0 3, .next 0] ↔
      Along queueStep OvertakesNone numberedJobs [.schedule 0 5, .schedule 0 3, .next 0]) ∧
    Always queueStep ArrivalKept numberedJobs [.schedule 0 5, .schedule 0 3, .next 0] :=
  have settled := priority_queueing_iff numberedJobs.state 0 3 numberedJobs
    [.schedule 0 5, .schedule 0 3, .next 0]
  ⟨settled.1 (by decide) (by decide), settled.2 numberedJobs_nothing⟩

/-- A job of priority three comes after one of priority zero, stays behind it and is aged as
well. -/
theorem overtaking_job_stays_behind :
    ∃ q ∈ queueStep numberedJobs (.schedule 0 0), ∃ q' ∈ queueStep q (.schedule 0 3),
      todo q'.state 0 = [0, 3] ∧ priorityOf q'.state 0 = 1 ∧ priorityOf q'.state 3 = 4 ∧
      ¬QueuesSorted q' ∧
      ¬PlacedAhead (priorityOf q.state) 3 (todo q.state 0) (todo q'.state 0) := by
  refine ⟨_, rfl, _, rfl, rfl, rfl, rfl, ?_, ?_⟩
  · intro sorted
    exact absurd (List.rel_of_pairwise_cons (sorted 0) List.mem_cons_self) (by decide)
  · intro placed
    exact absurd ((placedAhead_enqueue_iff (by decide)).mp placed) (by decide)

end Rga
end RockchipSoc
