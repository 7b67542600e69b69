import Mathlib.Data.List.Nodup
import RockchipSoc.Foundation.SentinelMin
import RockchipSoc.Rga.Policy

/-!
# The load of the cores

`rga_job_assign` should take an idle candidate, or else one with the fewest jobs.  Its running
minimum starts at zero, and a zero in it is replaced by whatever count comes next.  A busy core
with an empty queue, which has the count zero, is therefore passed over unless it is the last.
-/

namespace RockchipSoc
namespace Rga

open SentinelMin

/-- The schedulers whose core is among the optional ones. -/
def candidates (optionalCores : Nat) (schedulers : List RgaCore) : List RgaCore :=
  schedulers.filter fun scheduler => (optionalCores &&& scheduler.core) ≠ 0

def Idle (load : Nat → CoreLoad) (scheduler : RgaCore) : Prop :=
  (load scheduler.core).runningJob = none

def jobCountOf (load : Nat → CoreLoad) (scheduler : RgaCore) : Int :=
  (load scheduler.core).jobCount

/-- An idle candidate if there is one, or else one with the fewest jobs. -/
structure Balanced (load : Nat → CoreLoad) (candidates : List RgaCore) (core : Int) : Prop where
  idle : (∃ scheduler ∈ candidates, Idle load scheduler) →
    ∃ scheduler ∈ candidates, Idle load scheduler ∧ core = scheduler.core
  least : (¬∃ scheduler ∈ candidates, Idle load scheduler) → candidates ≠ [] →
    ∃ scheduler ∈ candidates, core = scheduler.core ∧
      ∀ other ∈ candidates, jobCountOf load scheduler ≤ jobCountOf load other

/-- Some candidate is idle, zero is not the lowest count, or the last candidate has it. -/
def LeastRemembered (load : Nat → CoreLoad) (candidates : List RgaCore) : Prop :=
  (∃ scheduler ∈ candidates, Idle load scheduler) ∨
    (∃ scheduler ∈ candidates, jobCountOf load scheduler < 0) ∨
    (∀ scheduler ∈ candidates, jobCountOf load scheduler ≠ 0) ∨
    ∀ scheduler, candidates.getLast? = some scheduler → jobCountOf load scheduler = 0

variable {drv : RgaDrvdata} {load : Nat → CoreLoad} {left : Nat → RgaWin → Option Rga2Format}
  {job : RgaPolicyJob} {optionalCores core : Nat} {least : Int} {scheduler other : RgaCore}
  {schedulers rest : List RgaCore}

theorem candidates_cons_of_ne (member : (optionalCores &&& scheduler.core) ≠ 0) :
    candidates optionalCores (scheduler :: rest) = scheduler :: candidates optionalCores rest := by
  simp [candidates, member]

theorem candidates_cons_of_eq (outside : (optionalCores &&& scheduler.core) = 0) :
    candidates optionalCores (scheduler :: rest) = candidates optionalCores rest := by
  simp [candidates, outside]

theorem candidates_zero : candidates 0 schedulers = [] := by
  simp [candidates]

theorem mem_candidates_iff : scheduler ∈ candidates optionalCores schedulers ↔
    scheduler ∈ schedulers ∧ (optionalCores &&& scheduler.core) ≠ 0 := by
  simp [candidates]

/-- Two schedulers of one core are the same. -/
theorem RgaDrvdata.eq_of_core (drv : RgaDrvdata) (member : scheduler ∈ drv.schedulers)
    (member' : other ∈ drv.schedulers) (same : scheduler.core = other.core) :
    scheduler = other :=
  List.inj_on_of_nodup_map drv.distinct member member' same

/-! ## The second loop -/

/-- The loop stops at the first idle candidate. -/
theorem leastLoaded_of_idle (core : Nat) (least : Int)
    (idle : ∃ scheduler ∈ candidates optionalCores schedulers, Idle load scheduler) :
    ∃ scheduler ∈ candidates optionalCores schedulers, Idle load scheduler ∧
      leastLoaded load optionalCores core least schedulers = scheduler.core := by
  induction schedulers generalizing core least with
  | nil => obtain ⟨_, member, _⟩ := idle; cases member
  | cons scheduler rest ih =>
      by_cases outside : (optionalCores &&& scheduler.core) = 0
      · rw [candidates_cons_of_eq outside] at idle ⊢
        simp only [leastLoaded, if_pos outside]
        exact ih _ _ idle
      · rw [candidates_cons_of_ne outside] at idle ⊢
        simp only [leastLoaded, if_neg outside]
        by_cases free : (load scheduler.core).runningJob = none
        · exact ⟨scheduler, List.mem_cons_self, free, if_pos free⟩
        · have later : ∃ other ∈ candidates optionalCores rest, Idle load other := by
            obtain ⟨other, member, other_free⟩ := idle
            rcases List.mem_cons.mp member with rfl | member
            · exact absurd other_free free
            · exact ⟨other, member, other_free⟩
          rw [if_neg free]
          split
          · obtain ⟨other, member, other_free, found⟩ := ih _ _ later
            exact ⟨other, List.mem_cons_of_mem scheduler member, other_free, found⟩
          · obtain ⟨other, member, other_free, found⟩ := ih _ _ later
            exact ⟨other, List.mem_cons_of_mem scheduler member, other_free, found⟩

/-- The core of the best scheduler so far. -/
def coreOf (best : Option RgaCore × Int) : Nat := (best.1.map RgaCore.core).getD rgaNoneCore

/-- Among busy candidates the loop is a running minimum with the sentinel zero. -/
theorem leastLoaded_of_busy (best : Option RgaCore × Int)
    (busy : ∀ scheduler ∈ candidates optionalCores schedulers, ¬Idle load scheduler) :
    leastLoaded load optionalCores (coreOf best) best.2 schedulers =
      coreOf ((candidates optionalCores schedulers).foldl (scanStep (jobCountOf load) 0) best) := by
  induction schedulers generalizing best with
  | nil => rfl
  | cons scheduler rest ih =>
      by_cases outside : (optionalCores &&& scheduler.core) = 0
      · rw [candidates_cons_of_eq outside] at busy ⊢
        simp only [leastLoaded, if_pos outside]
        exact ih best busy
      · rw [candidates_cons_of_ne outside] at busy ⊢
        have running : ¬(load scheduler.core).runningJob = none :=
          busy scheduler List.mem_cons_self
        have later : ∀ other ∈ candidates optionalCores rest, ¬Idle load other :=
          fun other member => busy other (List.mem_cons_of_mem scheduler member)
        simp only [leastLoaded, if_neg outside, if_neg running, List.foldl_cons]
        split
        · next replaced =>
            have kept : scanStep (jobCountOf load) 0 best scheduler =
                (some scheduler, jobCountOf load scheduler) := if_pos replaced
            rw [kept]
            exact ih (some scheduler, jobCountOf load scheduler) later
        · next not_replaced =>
            have kept : scanStep (jobCountOf load) 0 best scheduler = best := if_neg not_replaced
            rw [kept]
            exact ih best later

/-! ## The whole function -/

/-- With a candidate, the answer is the one of the second loop. -/
theorem rgaJobAssign_eq
    (nonempty : candidates (candidateCores drv left job) drv.schedulers ≠ []) :
    rgaJobAssign drv load left job =
      leastLoaded load (candidateCores drv left job) rgaNoneCore 0 drv.schedulers := by
  have some_core : candidateCores drv left job ≠ 0 := by
    intro none_core
    rw [none_core] at nonempty
    exact nonempty candidates_zero
  have valid : ¬job.core > rgaCoreMask := by
    intro invalid
    exact some_core (if_pos invalid)
  rw [rgaJobAssign, if_neg valid, if_neg fun found => some_core found.2]

/-- Among busy candidates the answer is what the running minimum ends with. -/
theorem rgaJobAssign_of_busy
    (nonempty : candidates (candidateCores drv left job) drv.schedulers ≠ [])
    (busy : ∀ scheduler ∈ candidates (candidateCores drv left job) drv.schedulers,
      ¬Idle load scheduler) :
    ∃ scheduler ∈ candidates (candidateCores drv left job) drv.schedulers,
      rgaJobAssign drv load left job = scheduler.core ∧
      (scan (jobCountOf load) 0 (candidates (candidateCores drv left job) drv.schedulers)).2 =
        jobCountOf load scheduler := by
  obtain ⟨scheduler, member, scanned⟩ :=
    exists_scan (jobCountOf load) 0 nonempty
  have found := leastLoaded_of_busy (none, 0) busy
  have folded : (candidates (candidateCores drv left job) drv.schedulers).foldl
      (scanStep (jobCountOf load) 0) (none, 0) = (some scheduler, jobCountOf load scheduler) :=
    scanned
  refine ⟨scheduler, member, ?_, by rw [scanned]⟩
  rw [rgaJobAssign_eq nonempty]
  rw [folded] at found
  exact congrArg Int.ofNat found

/-- The job goes to an idle candidate or to one with the fewest jobs exactly if no busy candidate
with the count zero is forgotten. -/
theorem rga_job_assign_balances_iff (drv : RgaDrvdata) (load : Nat → CoreLoad)
    (left : Nat → RgaWin → Option Rga2Format) (job : RgaPolicyJob) :
    Balanced load (candidates (candidateCores drv left job) drv.schedulers)
        (rgaJobAssign drv load left job) ↔
      LeastRemembered load (candidates (candidateCores drv left job) drv.schedulers) := by
  rcases List.eq_nil_or_concat (candidates (candidateCores drv left job) drv.schedulers) with
    empty | ⟨front, last, ends⟩
  · rw [empty]
    constructor
    · exact fun _ => Or.inr (Or.inr (Or.inl fun _ member => absurd member List.not_mem_nil))
    · intro _
      exact ⟨fun ⟨_, member, _⟩ => absurd member List.not_mem_nil,
        fun _ nonempty => absurd rfl nonempty⟩
  · have nonempty : candidates (candidateCores drv left job) drv.schedulers ≠ [] := by
      rw [ends, List.concat_eq_append]
      exact List.append_ne_nil_of_right_ne_nil front (List.cons_ne_nil last [])
    by_cases idle : ∃ scheduler ∈ candidates (candidateCores drv left job) drv.schedulers,
        Idle load scheduler
    · refine ⟨fun _ => Or.inl idle, fun _ => ⟨fun _ => ?_, fun busy => absurd idle busy⟩⟩
      obtain ⟨scheduler, member, free, found⟩ :=
        leastLoaded_of_idle rgaNoneCore 0 idle
      rw [rgaJobAssign_eq nonempty, found]
      exact ⟨scheduler, member, free, rfl⟩
    · have busy : ∀ scheduler ∈ candidates (candidateCores drv left job) drv.schedulers,
          ¬Idle load scheduler := fun scheduler member free => idle ⟨scheduler, member, free⟩
      obtain ⟨best, best_mem, assigned, scanned⟩ := rgaJobAssign_of_busy nonempty busy
      have minimal := scan_minimal_iff (jobCountOf load) 0 front last
      rw [← List.concat_eq_append, ← ends, scanned] at minimal
      have remembered : LeastRemembered load
            (candidates (candidateCores drv left job) drv.schedulers) ↔
          ∀ other ∈ candidates (candidateCores drv left job) drv.schedulers,
            jobCountOf load best ≤ jobCountOf load other := by
        rw [minimal, LeastRemembered, or_iff_right idle, ends, List.concat_eq_append,
          List.getLast?_concat]
        simp only [Option.some.injEq, forall_eq']
      rw [remembered]
      constructor
      · intro balanced
        obtain ⟨scheduler, member, same, fewest⟩ := balanced.least idle nonempty
        have same_core : best.core = scheduler.core := by
          rw [assigned] at same
          exact Int.ofNat.inj same
        rw [drv.eq_of_core (mem_candidates_iff.mp best_mem).1 (mem_candidates_iff.mp member).1
          same_core]
        exact fewest
      · exact fun fewest =>
          ⟨fun some_idle => absurd some_idle idle, fun _ _ => ⟨best, best_mem, assigned, fewest⟩⟩

/-- The three cores of the chip, in the order in which they are probed. -/
def rk3588Cores : RgaDrvdata where
  schedulers := [⟨rga3SchedulerCore0, rga3Data⟩, ⟨rga3SchedulerCore1, rga3Data⟩,
    ⟨rga2SchedulerCore0, rga2eData⟩]
  known := by simp
  distinct := by decide

/-- Both cores of RGA3 are busy; the first has no job waiting, the second three. -/
def busyLoad (core : Nat) : CoreLoad :=
  if core = rga3SchedulerCore0 then ⟨some 0, 0⟩ else ⟨some 1, 3⟩

/-- A job that user space has fixed to the cores of RGA3. -/
def rga3Job : RgaPolicyJob := { core := 3 }

/-- The job goes to the core with three jobs waiting. -/
theorem empty_queue_passed_over :
    ¬∀ (drv : RgaDrvdata) (load : Nat → CoreLoad) (left : Nat → RgaWin → Option Rga2Format)
      (job : RgaPolicyJob),
      Balanced load (candidates (candidateCores drv left job) drv.schedulers)
        (rgaJobAssign drv load left job) := by
  intro balances
  have balanced := balances rk3588Cores busyLoad (fun _ _ => none) rga3Job
  have assigned : rgaJobAssign rk3588Cores busyLoad (fun _ _ => none) rga3Job = 2 := by
    decide +kernel
  have candidates_eq : (candidates (candidateCores rk3588Cores (fun _ _ => none) rga3Job)
      rk3588Cores.schedulers) =
        [⟨rga3SchedulerCore0, rga3Data⟩, ⟨rga3SchedulerCore1, rga3Data⟩] := rfl
  rw [assigned, candidates_eq] at balanced
  obtain ⟨scheduler, member, same, fewest⟩ := balanced.least
    (by simp [Idle, busyLoad, rga3SchedulerCore0, rga3SchedulerCore1]) (by simp)
  have least := fewest _ List.mem_cons_self
  simp only [List.mem_cons, List.not_mem_nil, or_false] at member
  rcases member with rfl | rfl
  · simp [rga3SchedulerCore0] at same
  · simp [jobCountOf, busyLoad, rga3SchedulerCore0, rga3SchedulerCore1] at least

end Rga
end RockchipSoc
