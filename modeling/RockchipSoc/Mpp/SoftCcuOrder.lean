import Mathlib.Data.List.Induction
import Mathlib.Data.List.Nodup
import Mathlib.Data.List.Perm.Basic
import RockchipSoc.Mpp.SoftCcu

/-!
# The order of tasks under the soft CCU

Tasks that are not dropped start in the order in which they were pushed and finish in the order in
which they started.  The queue holds a reference to each pending and each running task, and to each
task it has dropped: the branch that drops a task does not put its reference.
-/

namespace RockchipSoc
namespace Mpp
namespace SoftCcu

open LabelledRun Ledger

/-- What has become of the pushed tasks. -/
structure InTurn (s : SoftState) : Prop where
  started : s.pushed.filter (fun task => task ∉ s.dropped) = s.started ++ s.pendingList
  finished : s.started = s.finished ++ s.runningList
  once : s.pushed.Nodup
  aborted : ∀ task ∈ s.dropped, task ∈ s.pushed ∧ s.abort task = true
  done : ∀ task, s.done task = true ↔ task ∈ s.finished
  references : Conserved s.gets s.puts (s.pendingList ++ s.runningList ++ s.dropped)

/-- The task that the worker has selected is still the first one. -/
structure OrderInv (s : SoftState) : Prop extends InTurn s where
  selected : ∀ task, s.worker = .getCore task → s.pendingList.head? = some task

variable {s s' : SoftState} {label : SoftLabel} {task mpp : Nat} {rest : List Nat}

/-! ## Frames -/

theorem rkvdec2SoftCcuIrq_frame (s : SoftState) (mpp : Nat) (status : BitVec 32) :
    ∃ workList irqStatus settled resetRequest queueResetRequest,
      rkvdec2SoftCcuIrq s mpp status = { s with
        workList := workList
        irqStatus := irqStatus
        settled := settled
        resetRequest := resetRequest
        queueResetRequest := queueResetRequest } := by
  unfold rkvdec2SoftCcuIrq
  split
  · dsimp only
    split
    · exact ⟨_, _, _, _, _, rfl⟩
    · exact ⟨_, _, _, _, _, rfl⟩
  · exact ⟨_, _, _, _, _, rfl⟩

theorem rkvdec2SoftCcuReset_frame (s : SoftState) :
    ∃ settled resetRequest, rkvdec2SoftCcuReset s = { s with
      settled := settled
      resetRequest := resetRequest
      queueResetRequest := 0 } := by
  suffices frame : ∀ indices : List Nat, ∃ settled resetRequest,
      indices.foldl resetCore s = { s with settled := settled, resetRequest := resetRequest } by
    obtain ⟨settled, resetRequest, same⟩ := frame (List.range s.cores.coreCount)
    exact ⟨settled, resetRequest, by rw [rkvdec2SoftCcuReset, same]⟩
  intro indices
  induction indices using List.reverseRecOn with
  | nil => exact ⟨s.settled, s.resetRequest, rfl⟩
  | append_singleton indices i ih =>
      obtain ⟨settled, resetRequest, same⟩ := ih
      rw [List.foldl_append, same, List.foldl_cons, List.foldl_nil, resetCore]
      split
      · exact ⟨_, _, rfl⟩
      · split
        · exact ⟨_, _, rfl⟩
        · exact ⟨_, _, rfl⟩

theorem rkvdec2CcuPowerOn_frame (s : SoftState) : ∃ powerEnabled ccuPower corePower,
    rkvdec2CcuPowerOn s = { s with
      powerEnabled := powerEnabled
      ccuPower := ccuPower
      corePower := corePower } := by
  unfold rkvdec2CcuPowerOn
  split
  · exact ⟨_, _, _, rfl⟩
  · exact ⟨_, _, _, rfl⟩

theorem rkvdec2CcuPowerOff_frame (s : SoftState) : ∃ powerEnabled ccuPower corePower,
    rkvdec2CcuPowerOff s = { s with
      powerEnabled := powerEnabled
      ccuPower := ccuPower
      corePower := corePower } := by
  unfold rkvdec2CcuPowerOff
  split
  · exact ⟨_, _, _, rfl⟩
  · exact ⟨_, _, _, rfl⟩

/-! ## Consequences of the order -/

theorem InTurn.kept_nodup (inv : InTurn s) : (s.started ++ s.pendingList).Nodup :=
  inv.started ▸ inv.once.filter _

theorem InTurn.kept_mem (inv : InTurn s) (member : task ∈ s.started ++ s.pendingList) :
    task ∈ s.pushed ∧ task ∉ s.dropped := by
  rw [← inv.started, List.mem_filter] at member
  exact ⟨member.1, of_decide_eq_true member.2⟩

theorem InTurn.running_nodup (inv : InTurn s) : s.runningList.Nodup := by
  have started := inv.kept_nodup.of_append_left
  rw [inv.finished] at started
  exact started.of_append_right

theorem InTurn.pending_not_started (inv : InTurn s) (member : task ∈ s.pendingList) :
    task ∉ s.started := fun earlier =>
  List.disjoint_of_nodup_append inv.kept_nodup earlier member

theorem InTurn.running_started (inv : InTurn s) (member : task ∈ s.runningList) :
    task ∈ s.started := by
  rw [inv.finished]
  exact List.mem_append_right _ member

theorem OrderInv.pending_eq (inv : OrderInv s) (selected : s.worker = .getCore task) :
    ∃ rest, s.pendingList = task :: rest := by
  have first := inv.selected task selected
  cases pending : s.pendingList with
  | nil =>
      rw [pending] at first
      cases first
  | cons head rest =>
      rw [pending] at first
      exact ⟨rest, by rw [Option.some.inj first]⟩

theorem orderInv_start (probed : ProbedCores) : OrderInv probed.start where
  started := rfl
  finished := rfl
  once := List.nodup_nil
  aborted := fun _ member => absurd member List.not_mem_nil
  done := fun _ => iff_of_false Bool.false_ne_true List.not_mem_nil
  references := conserved_nil
  selected := fun _ absurd => nomatch absurd

/-! ## Steps -/

theorem OrderInv.processTask (inv : OrderInv s) (fresh : task ∉ s.pushed) :
    OrderInv (mppProcessTaskDefault s task mpp) where
  started := by
    have kept : task ∉ s.dropped := fun member => fresh (inv.aborted task member).1
    have single : [task].filter (fun task => decide (task ∉ s.dropped)) = [task] :=
      List.filter_eq_self.mpr fun other member =>
        decide_eq_true (List.mem_singleton.mp member ▸ kept)
    change (s.pushed ++ [task]).filter (fun task => decide (task ∉ s.dropped)) =
      s.started ++ (s.pendingList ++ [task])
    rw [List.filter_append, single, inv.started, List.append_assoc]
  finished := inv.finished
  once := by
    change (s.pushed ++ [task]).Nodup
    exact inv.once.append (List.nodup_singleton task) (List.disjoint_singleton.mpr fresh)
  aborted := fun other member =>
    ⟨List.mem_append_left _ (inv.aborted other member).1, (inv.aborted other member).2⟩
  done := inv.done
  references := by
    have moved : (s.pendingList ++ s.runningList ++ s.dropped ++ [task]).Perm
        (s.pendingList ++ [task] ++ s.runningList ++ s.dropped) := by
      rw [List.append_assoc, List.append_assoc, List.append_assoc, List.append_assoc]
      refine List.Perm.append_left _ ?_
      rw [← List.append_assoc, ← List.append_assoc]
      refine List.perm_append_comm.trans ?_
      rw [List.append_assoc]
    exact (conserved_perm moved).mp (conserved_take.mpr inv.references)
  selected := fun other selected => by
    obtain ⟨rest, pending⟩ := inv.pending_eq selected
    change (s.pendingList ++ [task]).head? = some other
    rw [pending]
    rfl

theorem OrderInv.event (inv : OrderInv s) (event : Event s label s') : OrderInv s' := by
  obtain ⟨⟨started, finished, once, aborted, done, references⟩, selected⟩ := id inv
  cases event with
  | processTask fresh => exact inv.processTask fresh
  | @abort task =>
      refine ⟨⟨started, finished, once, fun other member => ⟨(aborted other member).1, ?_⟩, done,
        references⟩, selected⟩
      change Function.update s.abort task true other = true
      by_cases same : other = task
      · rw [same, Function.update_self]
      · rw [Function.update_of_ne same]
        exact (aborted other member).2
  | @irq mpp status =>
      obtain ⟨_, _, _, _, _, frame⟩ := rkvdec2SoftCcuIrq_frame s mpp status
      rw [frame]
      exact ⟨⟨started, finished, once, aborted, done, references⟩, selected⟩
  | late => exact ⟨⟨started, finished, once, aborted, done, references⟩, selected⟩
  | handle => exact ⟨⟨started, finished, once, aborted, done, references⟩, selected⟩
  | flag => exact ⟨⟨started, finished, once, aborted, done, references⟩, selected⟩
  | count => exact ⟨⟨started, finished, once, aborted, done, references⟩, selected⟩
  | trigger => exact ⟨⟨started, finished, once, aborted, done, references⟩, selected⟩
  | disableWork => exact ⟨⟨started, finished, once, aborted, done, references⟩, selected⟩

theorem OrderInv.finish (inv : OrderInv s) (working : s.worker = .dequeue)
    (running : s.runningList = task :: rest) : OrderInv (finishHead s task rest) where
  started := inv.started
  finished := by
    change s.started = s.finished ++ [task] ++ rest
    rw [inv.finished, running, List.append_assoc, List.singleton_append]
  once := inv.once
  aborted := inv.aborted
  done := fun other => by
    change Function.update s.done task true other = true ↔ other ∈ s.finished ++ [task]
    rw [List.mem_append, List.mem_singleton]
    by_cases same : other = task
    · rw [same, Function.update_self]
      exact iff_of_true rfl (Or.inr rfl)
    · rw [Function.update_of_ne same, inv.done other]
      exact ⟨Or.inl, fun ended => ended.resolve_right same⟩
  references := by
    refine conserved_give.mpr ((conserved_perm ?_).mp inv.references)
    rw [running]
    change (s.pendingList ++ task :: rest ++ s.dropped).Perm
      (task :: (s.pendingList ++ rest ++ s.dropped))
    rw [List.append_assoc, List.append_assoc]
    exact List.perm_middle
  selected := fun other selected => by
    have contra : WorkerAt.dequeue = .getCore other := working.symm.trans selected
    cases contra

theorem OrderInv.drop (inv : OrderInv s) (looking : s.worker = .getTask)
    (pending : s.pendingList = task :: rest) (aborted : s.abort task = true) :
    OrderInv (dropHead s task) := by
  have removed : s.pendingList.erase task = rest := by rw [pending, List.erase_cons_head]
  have member : task ∈ s.pendingList := by
    rw [pending]
    exact List.mem_cons_self
  refine ⟨⟨?_, inv.finished, inv.once, fun other dropped => ?_, inv.done, ?_⟩,
    fun other selected => ?_⟩
  · have later : s.pushed.filter (fun other => decide (other ∉ s.dropped ++ [task])) =
        (s.pushed.filter fun other => decide (other ∉ s.dropped)).filter (· ≠ task) := by
      rw [List.filter_filter]
      refine List.filter_congr fun other _ => ?_
      rw [← Bool.decide_and, decide_eq_decide, List.mem_append, List.mem_singleton, not_or]
      exact and_comm
    change s.pushed.filter (fun other => decide (other ∉ s.dropped ++ [task])) =
      s.started ++ s.pendingList.erase task
    have distinct := inv.kept_nodup
    rw [pending] at distinct
    have absent : task ∉ s.started := inv.pending_not_started member
    have gone : task ∉ rest := (List.nodup_cons.mp distinct.of_append_right).1
    have before : s.started.filter (· ≠ task) = s.started :=
      List.filter_eq_self.mpr fun other earlier =>
        decide_eq_true fun same : other = task => absent (same ▸ earlier)
    have behind : rest.filter (· ≠ task) = rest :=
      List.filter_eq_self.mpr fun other later =>
        decide_eq_true fun same : other = task => gone (same ▸ later)
    rw [later, inv.started, removed, pending, List.filter_append, before,
      List.filter_cons_of_neg (by simp), behind]
  · have place : other ∈ s.dropped ++ [task] := dropped
    rw [List.mem_append, List.mem_singleton] at place
    rcases place with earlier | rfl
    · exact inv.aborted other earlier
    · exact ⟨(inv.kept_mem (List.mem_append_right _ member)).1, aborted⟩
  · change Conserved s.gets s.puts
      (s.pendingList.erase task ++ s.runningList ++ (s.dropped ++ [task]))
    refine (conserved_perm ?_).mp inv.references
    rw [removed, pending, ← List.append_assoc]
    exact (List.perm_append_singleton task _).symm
  · have contra : WorkerAt.getTask = .getCore other := looking.symm.trans selected
    cases contra

theorem OrderInv.place (inv : OrderInv s) (selected : s.worker = .getCore task) :
    OrderInv { pendingToRunning s task mpp with worker := .enqueue task mpp } := by
  obtain ⟨rest, pending⟩ := inv.pending_eq selected
  have removed : s.pendingList.erase task = rest := by rw [pending, List.erase_cons_head]
  refine ⟨⟨?_, ?_, inv.once, inv.aborted, inv.done, ?_⟩, fun other selected => nomatch selected⟩
  · change _ = s.started ++ [task] ++ s.pendingList.erase task
    rw [removed, List.append_assoc, List.singleton_append, ← pending]
    exact inv.started
  · change s.started ++ [task] = s.finished ++ (s.runningList ++ [task])
    rw [inv.finished, List.append_assoc]
  · change Conserved s.gets s.puts
      (s.pendingList.erase task ++ (s.runningList ++ [task]) ++ s.dropped)
    refine (conserved_perm ?_).mp inv.references
    rw [removed, pending]
    refine List.Perm.append_right _ ?_
    rw [← List.append_assoc]
    exact (List.perm_append_singleton task _).symm

theorem OrderInv.turn (inv : OrderInv s) (turn : Turn s s') : OrderInv s' := by
  obtain ⟨⟨started, finished, once, aborted, done, references⟩, -⟩ := id inv
  cases turn with
  | finish working running => exact inv.finish working running
  | drop looking pending unwanted => exact inv.drop looking pending unwanted
  | place selected => exact inv.place selected
  | @select task rest looking pending =>
      refine ⟨⟨started, finished, once, aborted, done, references⟩, fun other selected => ?_⟩
      obtain rfl : task = other := WorkerAt.getCore.inj selected
      change s.pendingList.head? = some task
      rw [pending]
      rfl
  | reset =>
      obtain ⟨_, _, frame⟩ := rkvdec2SoftCcuReset_frame s
      rw [frame]
      exact ⟨⟨started, finished, once, aborted, done, references⟩, nofun⟩
  | enqueue =>
      obtain ⟨_, _, _, frame⟩ := rkvdec2CcuPowerOn_frame s
      rw [frame]
      exact ⟨⟨started, finished, once, aborted, done, references⟩, nofun⟩
  | powerOff =>
      obtain ⟨_, _, _, frame⟩ := rkvdec2CcuPowerOff_frame s
      rw [frame]
      exact ⟨⟨started, finished, once, aborted, done, references⟩, nofun⟩
  | _ =>
      exact ⟨⟨started, finished, once, aborted, done, references⟩, nofun⟩

theorem OrderInv.step (inv : OrderInv s) (taken : softStep s label = some s') : OrderInv s' := by
  rcases cases_of_softStep taken with event | ⟨-, turn⟩
  · exact inv.event event
  · exact inv.turn turn

/-- Whatever interrupts the worker, no task is lost, handled twice, or overtaken, and the reference
to a dropped task is never put. -/
theorem soft_ccu_tasks_in_turn (probed : ProbedCores) (labels : List SoftLabel) :
    Always softStep InTurn probed.start labels :=
  always_of_invariant OrderInv (fun _ inv => inv.toInTurn) (fun _ _ _ inv taken => inv.step taken)
    (orderInv_start probed) labels

end SoftCcu
end Mpp
end RockchipSoc
