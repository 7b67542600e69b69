import RockchipSoc.Rga.Custody

/-!
# Out-fences

A job that is started signals its fence before it is freed.  The exits of `rga_job_commit` and of
the input fence callback that never start it free it without a signal, or do not free it at all.
-/

namespace RockchipSoc
namespace Rga

open LabelledRun ActionPool

variable {cores : List Nat} {s s' : RgaState} {c j k t : Nat} {head : Action}
  {rest pushed : List Action} {choice : Choice}

/-- The job that an exit of `rga_job_commit` or of the fence callback gives up. -/
def refuses (cores : List Nat) (choice : Choice) : Action → Option Nat
  | .inputFence j fence => if fence.accepted then none else some j
  | .assign j _ => if choice.core.filter (· ∈ cores) = none then some j else none
  | _ => none

/-- No job whose fence was handed out is refused, and none is taken away while it is started. -/
def FencesServed (cores : List Nat) (s : RgaState) (label : RgaLabel) : Prop :=
  StartsUndisturbed s label ∧ ∀ head ∈ executing s label,
    ∀ j ∈ refuses cores (choiceOf label) head, (s.jobs j).fenceFd = false

instance (s : RgaState) (label : RgaLabel) : Decidable (FencesServed cores s label) :=
  inferInstanceAs (Decidable (StartsUndisturbed s label ∧ ∀ head ∈ executing s label,
    ∀ j ∈ refuses cores (choiceOf label) head, (s.jobs j).fenceFd = false))

/-- A job whose fence was handed out is freed once, after its fence was signaled; until then it
waits for its input fence, stands in a queue, runs, or is in the hands of a call. -/
structure FencesKept (s : RgaState) : Prop where
  signaled : ∀ j, (s.jobs j).fenceFd = true → 0 < s.ledger.freed j →
    (s.jobs j).outFence = some true
  once : ∀ j, (s.jobs j).fenceFd = true → s.ledger.freed j ≤ 1
  held : ∀ j, (s.jobs j).fenceFd = true → s.ledger.freed j = 0 →
    j ∈ s.fenceWaits ∨ j ∈ todo s (s.jobs j).core ∨ running s (s.jobs j).core = some j ∨
      ∃ action ∈ pending s.threads, isPre j action = true ∨ isRetire j action = true

structure FenceInv (s : RgaState) : Prop where
  placed : Placed s
  start : StartInv s
  fresh : ∀ j, s.nextJob ≤ j → (s.jobs j).fenceFd = false ∧ s.ledger.freed j = 0
  fenced : ∀ j, (s.jobs j).fenceFd = true → (s.jobs j).async = true ∧ (s.jobs j).outFence ≠ none
  exactly : ∀ j, (s.jobs j).fenceFd = true →
    (hands s j).waiting + (hands s j).retiring + (hands s j).freed = 1 ∧ (hands s j).cleaning = 0
  ready : ∀ j ending, .retire j ending .cleanup ∈ pending s.threads →
    (s.jobs j).outFence ≠ some false
  signaled : ∀ j, (s.jobs j).fenceFd = true → 0 < s.ledger.freed j →
    (s.jobs j).outFence ≠ some false

theorem eq_some_true {fence : Option Bool} (present : fence ≠ none)
    (signaled : fence ≠ some false) :
    fence = some true := by
  cases fence with
  | none => exact absurd rfl present
  | some value =>
      cases value with
      | false => exact absurd rfl signaled
      | true => rfl

theorem FenceInv.kept (inv : FenceInv s) : FencesKept s where
  signaled := fun j fenced freed =>
    eq_some_true (inv.fenced j fenced).2 (inv.signaled j fenced freed)
  once := fun j fenced => by
    have := (inv.exactly j fenced).1
    simp only [hands] at this
    omega
  held := fun j fenced unfreed => by
    have one := (inv.exactly j fenced).1
    simp only [hands, whereabouts, preCount, placeCount, unfreed] at one
    rcases Nat.eq_zero_or_pos (s.fenceWaits.count j) with none | waits
    · rcases Nat.eq_zero_or_pos ((todo s (s.jobs j).core).count j) with none' | queued
      · rcases Nat.eq_zero_or_pos ((pending s.threads).countP (isPre j)) with none'' | pre
        · rcases Nat.eq_zero_or_pos ((pending s.threads).countP (isRetire j)) with none''' | retires
          · refine Or.inr (Or.inr (Or.inl ?_))
            by_contra elsewhere
            rw [count_toList_eq_zero elsewhere] at one
            omega
          · obtain ⟨action, member, isTrue⟩ := List.countP_pos_iff.mp retires
            exact Or.inr (Or.inr (Or.inr ⟨action, member, Or.inr isTrue⟩))
        · obtain ⟨action, member, isTrue⟩ := List.countP_pos_iff.mp pre
          exact Or.inr (Or.inr (Or.inr ⟨action, member, Or.inl isTrue⟩))
      · exact Or.inr (Or.inl (List.count_pos_iff.mp queued))
    · exact Or.inl (List.count_pos_iff.mp waits)

theorem FenceInv.init : FenceInv rgaInit where
  placed := placed_init
  start := StartInv.init
  fresh := fun _ _ => ⟨rfl, rfl⟩
  fenced := fun _ fenced => by cases fenced
  exactly := fun _ fenced => by cases fenced
  ready := fun _ _ member => by simp [rgaInit, pending] at member
  signaled := fun _ fenced => by cases fenced

/-- What an action does to the fence of a job. -/
structure KeepsFence (s s' : RgaState) (k : Nat) : Prop where
  fenceFd : (s'.jobs k).fenceFd = (s.jobs k).fenceFd
  async : (s'.jobs k).async = (s.jobs k).async
  outFence : (s'.jobs k).outFence = (s.jobs k).outFence ∨
    (s'.jobs k).outFence = (s.jobs k).outFence.map fun _ => true

theorem KeepsFence.none_iff (keeps : KeepsFence s s' k) :
    (s'.jobs k).outFence = none ↔ (s.jobs k).outFence = none := by
  rcases keeps.outFence with same | signal
  · rw [same]
  · rw [signal, Option.map_eq_none_iff]

theorem KeepsFence.signaled (keeps : KeepsFence s s' k)
    (signaled : (s.jobs k).outFence ≠ some false) : (s'.jobs k).outFence ≠ some false := by
  rcases keeps.outFence with same | signal
  · rwa [same]
  · rw [signal]
    cases (s.jobs k).outFence <;> simp

theorem keepsFence_of_effect (effect : Effect cores s choice head s' pushed) (k : Nat) :
    KeepsFence s s' k := by
  cases effect with
  | put =>
      rw [putChannel]
      split <;> exact ⟨rfl, rfl, Or.inl rfl⟩
  | leftToCaller => split <;> exact ⟨rfl, rfl, Or.inl rfl⟩
  | @signaled j ending =>
      refine ⟨rfl, rfl, ?_⟩
      by_cases same : k = j
      · exact Or.inr (if_pos same)
      · exact Or.inl (if_neg same)
  | _ => exact ⟨rfl, rfl, Or.inl rfl⟩

theorem putStage_ne_cleanup (job : RgaJob) : putStage job ≠ .cleanup := by
  rw [putStage]
  split <;> simp

theorem afterPut_ne_cleanup (channel : Channel) : afterPut channel ≠ .cleanup := by
  cases channel <;> simp [afterPut]

/-- A job reaches its last stage with its fence signaled. -/
theorem ready_of_pushed {ending : Ending} (effect : Effect cores s choice head s' pushed)
    (new : .retire j ending .cleanup ∈ pushed) : (s'.jobs j).outFence ≠ some false := by
  cases effect with
  | timedOut runs async elapsed =>
      simp [Ne.symm (putStage_ne_cleanup _)] at new
  | cleared => simp [Ne.symm (putStage_ne_cleanup _)] at new
  | marked => simp [Ne.symm (putStage_ne_cleanup _)] at new
  | put => simp [Ne.symm (afterPut_ne_cleanup _)] at new
  | enqueued =>
      split at new <;> simp at new
  | signaled =>
      simp only [List.mem_singleton, Action.retire.injEq] at new
      obtain ⟨rfl, _⟩ := new
      simp only [signalOutFence, if_true]
      cases (s.jobs j).outFence <;> simp
  | got serves pushes =>
      rcases pushes with rfl | ⟨ret, rfl⟩ <;> simp [startFailed] at new
  | _ => simp [startFailed] at new

/-- Only a refused job or one that a sync call gives up is handed over to be freed. -/
theorem cleanup_of_pushed (placed : Placed s) (current : s.threads[t]? = some (head :: rest))
    (effect : Effect cores s choice head s' pushed) (new : .cleanup j ∈ pushed) :
    j ∈ refuses cores choice head ∨ (s.jobs j).async = false := by
  have known := placed.actions head (head_mem_pending current)
  cases effect with
  | fenceRefused refused =>
      obtain rfl : j = _ := by simpa using new
      exact Or.inl (by simp [refuses, refused])
  | unassigned refused direct =>
      obtain rfl : j = _ := by simpa using new
      exact Or.inl (if_pos refused)
  | woken | aborted | abortedElsewhere =>
      obtain rfl : j = _ := by simpa using new
      exact Or.inr known.2.2.1
  | enqueued => split at new <;> simp at new
  | got serves pushes =>
      rcases pushes with rfl | ⟨ret, rfl⟩ <;> simp [startFailed] at new
  | _ => simp [startFailed] at new

/-- An action frees a job at the end of its retirement, or when it was handed over. -/
theorem freed_of_effect (effect : Effect cores s choice head s' pushed)
    (frees : s'.ledger.freed k ≠ s.ledger.freed k) :
    (∃ ending, head = .retire k ending .cleanup) ∨ head = .cleanup k := by
  cases effect with
  | @retired j ending own =>
      rw [freed_rgaJobFree] at frees
      have same : k = j := by
        by_contra other
        rw [if_neg other] at frees
        exact frees rfl
      exact Or.inl ⟨ending, by rw [same]⟩
  | @cleaned j =>
      rw [freed_rgaJobFree] at frees
      have same : k = j := by
        by_contra other
        rw [if_neg other] at frees
        exact frees rfl
      exact Or.inr (by rw [same])
  | put => exact absurd (congrFun (freed_putChannel ..) k) frees
  | leftToCaller =>
      split at frees <;> exact absurd rfl frees
  | _ => exact absurd rfl frees

theorem FenceInv.effect (inv : FenceInv s) (current : s.threads[t]? = some (head :: rest))
    (effect : Effect cores s choice head s' pushed)
    (placed : Placed (resume s' s.threads t pushed rest))
    (start : StartInv (resume s' s.threads t pushed rest))
    (served : ∀ j ∈ refuses cores choice head, (s.jobs j).fenceFd = false) :
    FenceInv (resume s' s.threads t pushed rest) := by
  have keeps := keepsFence_of_effect effect
  have passes := fun k => inv.placed.passes inv.start current effect k
  have wasFenced : ∀ k, (s'.jobs k).fenceFd = true → (s.jobs k).fenceFd = true := fun k fenced =>
    (keeps k).fenceFd ▸ fenced
  refine ⟨placed, start, fun k new => ⟨?_, ?_⟩, fun k fenced => ⟨?_, ?_⟩,
    fun k fenced => ?_, fun k ending member => ?_, fun k fenced freed => ?_⟩
  · have young : s.nextJob ≤ k := (nextJob_of_effect effect) ▸ new
    exact (keeps k).fenceFd.trans (inv.fresh k young).1
  · have young : s.nextJob ≤ k := (nextJob_of_effect effect) ▸ new
    obtain ⟨_, retires, cleans⟩ := inv.placed.hands_fresh young
    exact (passes k).freed_eq_zero retires cleans (inv.fresh k young).2
  · exact (keeps k).async.trans (inv.fenced k (wasFenced k fenced)).1
  · exact fun none => (inv.fenced k (wasFenced k fenced)).2 ((keeps k).none_iff.mp none)
  · obtain ⟨before, none⟩ := inv.exactly k (wasFenced k fenced)
    have isAsync := (inv.fenced k (wasFenced k fenced)).1
    have notRefused : k ∉ refuses cores choice head := fun refused => by
      have := served k refused
      rw [wasFenced k fenced] at this
      cases this
    have kept : ¬Loses cores choice k head := fun lost =>
      notRefused (by rw [lost.1]; exact if_pos lost.2)
    have cleaning : (hands (resume s' s.threads t pushed rest) k).cleaning = 0 := by
      refine List.countP_eq_zero.mpr fun action member isTrue => ?_
      rcases mem_pending_set current member with new | old
      · cases action <;> simp only [isCleanup, beq_iff_eq, Bool.false_eq_true] at isTrue
        case cleanup =>
          subst isTrue
          rcases cleanup_of_pushed inv.placed current effect new with refused | sync
          · exact notRefused refused
          · rw [isAsync] at sync
            cases sync
      · exact List.countP_eq_zero.mp none action old isTrue
    have step := passes k
    rw [isAsync] at step
    have sum := step.exactly kept
    exact ⟨by omega, cleaning⟩
  · rcases mem_pending_set current member with new | old
    · have signaled : (s'.jobs k).outFence ≠ some false := ready_of_pushed effect new
      exact signaled
    · exact (keeps k).signaled (inv.ready k ending old)
  · by_cases same : s'.ledger.freed k = s.ledger.freed k
    · exact (keeps k).signaled (inv.signaled k (wasFenced k fenced) (same ▸ freed))
    · rcases freed_of_effect effect same with ⟨ending, rfl⟩ | rfl
      · exact (keeps k).signaled (inv.ready k ending (head_mem_pending current))
      · have none := (inv.exactly k (wasFenced k fenced)).2
        have some := List.countP_pos_iff.mpr
          ⟨_, head_mem_pending current, show isCleanup k (.cleanup k) = true by simp [isCleanup]⟩
        simp only [hands] at none
        omega

/-- A job that waits in a queue, or with a call that leaves fences alone, keeps its fence. -/
theorem FenceInv.frame (inv : FenceInv s) (placed : Placed s') (start : StartInv s')
    (jobs : s'.jobs = s.jobs) (freed : s'.ledger.freed = s.ledger.freed)
    (next : s'.nextJob = s.nextJob) (sameHands : ∀ k, hands s' k = hands s k)
    (retires : ∀ j ending, .retire j ending .cleanup ∈ pending s'.threads →
      .retire j ending .cleanup ∈ pending s.threads) : FenceInv s' where
  placed := placed
  start := start
  fresh := fun k new => by
    rw [jobs, freed]
    exact inv.fresh k (next ▸ new)
  fenced := fun k fenced => by
    rw [jobs] at fenced ⊢
    exact inv.fenced k fenced
  exactly := fun k fenced => by
    rw [jobs] at fenced
    rw [sameHands]
    exact inv.exactly k fenced
  ready := fun k ending member => by
    rw [jobs]
    exact inv.ready k ending (retires k ending member)
  signaled := fun k fenced frees => by
    rw [jobs] at fenced ⊢
    rw [freed] at frees
    exact inv.signaled k fenced frees

theorem FenceInv.undone (inv : FenceInv s) (placed : Placed (allocAndFree s))
    (start : StartInv (allocAndFree s)) : FenceInv (allocAndFree s) := by
  have young : (s.jobs s.nextJob).fenceFd = false := (inv.fresh s.nextJob (Nat.le_refl _)).1
  have old : ∀ k, (s.jobs k).fenceFd = true → k ≠ s.nextJob := fun k fenced same => by
    subst same
    rw [young] at fenced
    cases fenced
  have freed : ∀ k, k ≠ s.nextJob → (allocAndFree s).ledger.freed k = s.ledger.freed k :=
    fun k other => by simp [allocAndFree, freed_rgaJobFree, other]
  refine ⟨placed, start, fun k new => ?_, inv.fenced, fun k fenced => ?_, inv.ready,
    fun k fenced frees => ?_⟩
  · have new : s.nextJob + 1 ≤ k := new
    rw [freed k (by omega)]
    exact inv.fresh k (by omega)
  · rw [hands_allocAndFree (old k fenced)]
    exact inv.exactly k fenced
  · rw [freed k (old k fenced)] at frees
    exact inv.signaled k fenced frees

theorem FenceInv.committed (inv : FenceInv s) (req : RgaReq) (async fenceFd : Bool)
    (fence : InFence) (placed : Placed (commit s req async fence (.ready fenceFd)))
    (start : StartInv (commit s req async fence (.ready fenceFd))) :
    FenceInv (commit s req async fence (.ready fenceFd)) := by
  have job : ∀ k, k ≠ s.nextJob →
      (commit s req async fence (.ready fenceFd)).jobs k = s.jobs k := fun k other => if_neg other
  have new : (commit s req async fence (.ready fenceFd)).jobs s.nextJob =
    rgaJobAlloc req async fenceFd := if_pos rfl
  have unfreed := (inv.fresh s.nextJob (Nat.le_refl _)).2
  refine ⟨placed, start, fun k young => ?_, fun k fenced => ?_, fun k fenced => ?_,
    fun k ending member => ?_, fun k fenced frees => ?_⟩
  · have young : s.nextJob + 1 ≤ k := young
    rw [job k (by omega)]
    exact inv.fresh k (by omega)
  · by_cases same : k = s.nextJob
    · subst same
      rw [new] at fenced ⊢
      obtain ⟨isAsync, _⟩ := Bool.and_eq_true_iff.mp fenced
      simp [rgaJobAlloc, isAsync]
    · rw [job k same] at fenced ⊢
      exact inv.fenced k fenced
  · by_cases same : k = s.nextJob
    · subst same
      obtain ⟨here, retiring, cleaning⟩ := inv.placed.new_commit req async fenceFd fence unfreed
      exact ⟨by omega, cleaning⟩
    · rw [job k same] at fenced
      rw [hands_commit _ _ _ _ same]
      exact inv.exactly k fenced
  · have old : .retire k ending .cleanup ∈ pending s.threads := by
      refine (mem_pending_spawn.mp member).resolve_right fun new => ?_
      cases async <;> simp at new
    have known := inv.placed.actions _ old
    rw [job k (Nat.ne_of_lt known.2.2)]
    exact inv.ready k ending old
  · by_cases same : k = s.nextJob
    · have none : s.ledger.freed k = 0 := same ▸ unfreed
      exact absurd frees (by simp [commit, none])
    · rw [job k same] at fenced ⊢
      exact inv.signaled k fenced frees

theorem FenceInv.step {label : RgaLabel} (inv : FenceInv s) (served : FencesServed cores s label)
    (taken : rgaStep cores s label = some s') : FenceInv s' := by
  have steps := steps_of_rgaStep taken
  have placed := (inv.placed.step taken).placed
  have start := inv.start.step steps served.1
  cases steps with
  | refused => exact inv
  | imported | released =>
      exact inv.frame placed start rfl rfl rfl (fun _ => rfl) fun _ _ member => member
  | undone => exact inv.undone placed start
  | committed => exact inv.committed _ _ _ _ placed start
  | fenceSignaled waits =>
      refine inv.frame placed start rfl rfl rfl (hands_fenceSignaled waits) fun _ _ member => ?_
      simpa using mem_pending_spawn.mp member
  | @irq c =>
      refine inv.frame placed start rfl rfl rfl (hands_irq s c) fun _ _ member => ?_
      simpa using mem_pending_spawn.mp member
  | call current effect =>
      exact inv.effect current effect placed start
        fun j => served.2 _ (by simp [executing, current]) j

/-- In every run that refuses no job whose fence was handed out and takes none away while it is
started, fences are kept. -/
theorem out_fences_kept {final : RgaState}
    (run : Reaches (rgaStep cores) (FencesServed cores) rgaInit final) : FencesKept final :=
  (run.invariant (fun _ _ _ inv served taken => inv.step served taken) FenceInv.init).kept

/-- An async job waits for its input fence, is started by the callback and completes. -/
def fencedJob : List RgaLabel :=
  [.commit plainReq true (.ready true) (.status 0 0)] ++ proceed 0 1 ++ [.fenceSignaled 0] ++
    scheduleOn 1 1 ++ proceed 1 4 ++ [.irq 1] ++ proceed 2 7

theorem out_fences_kept_fencedJob :
    ∃ final, runs (rgaStep [1]) rgaInit fencedJob = some final ∧
      final.ledger.freed 0 = 1 ∧ FencesKept final := by
  have outcome : (runs (rgaStep [1]) rgaInit fencedJob).map
      (fun final => final.ledger.freed 0) = some 1 := by decide +kernel
  obtain ⟨final, execution, freed⟩ := Option.map_eq_some_iff.mp outcome
  have along : Along (rgaStep [1]) (FencesServed [1]) rgaInit fencedJob := by decide +kernel
  exact ⟨final, execution, freed, out_fences_kept (reaches_of_runs along execution)⟩

/-- The descriptor of the input fence has no fence behind it: the job is freed and its out-fence
is never signaled. -/
theorem missing_input_fence_orphans_out_fence :
    ∃ final, runs (rgaStep [1]) rgaInit
        ([.commit plainReq true (.ready true) .missing] ++ proceed 0 2) = some final ∧
      pending final.threads = [] ∧ (final.jobs 0).fenceFd = true ∧ final.ledger.freed 0 = 1 ∧
      (final.jobs 0).outFence = some false ∧ ¬FencesKept final := by
  have outcome : (runs (rgaStep [1]) rgaInit
      ([.commit plainReq true (.ready true) .missing] ++ proceed 0 2)).map
      (fun final => (pending final.threads, (final.jobs 0).fenceFd, final.ledger.freed 0,
        (final.jobs 0).outFence)) = some ([], true, 1, some false) := by decide +kernel
  obtain ⟨final, execution, observed⟩ := Option.map_eq_some_iff.mp outcome
  simp only [Prod.mk.injEq] at observed
  obtain ⟨none, fenced, freed, unsignaled⟩ := observed
  refine ⟨final, execution, none, fenced, freed, unsignaled, fun kept => ?_⟩
  have signaled := kept.signaled 0 fenced (by omega)
  rw [unsignaled] at signaled
  cases signaled

end Rga
end RockchipSoc
