import RockchipSoc.Mpp.SoftCcuWake

/-!
# Cores are given away settled

A core that reports an error or does not answer in time keeps a reset request, and the queue keeps
one until its cores have been reset.  A task is then never started on a core that still works on
another one or has not been reset after an error.  Three things can break this: a process gives up
waiting for a running task, `disable_work` is cleared for a core that waits for its reset, and the
worker looks at a task between the two writes of an expired timer.
-/

namespace RockchipSoc
namespace Mpp
namespace SoftCcu

open CoreQueue LabelledRun

variable {s s' : SoftState} {label : SoftLabel} {task mpp : Nat} {rest : List Nat}

/-- No running task is aborted; interrupts come from cores at work; a core that waits for its reset
stays disabled; and the worker does not look at a task that is marked with its reset uncounted. -/
def Undisturbed (s : SoftState) : SoftLabel → Prop
  | .abort task => task ∉ s.runningList ∧ s.worker ≠ .getCore task
  | .irq mpp _ => s.settled mpp = false
  | .disableWork mpp value => value = true ∨ s.resetRequest mpp = 0
  | .worker => s.worker = .dequeue → ∀ task ∈ s.runningList.head?, s.timeoutWork task ≠ .flagged
  | _ => True

instance (s : SoftState) : (label : SoftLabel) → Decidable (Undisturbed s label)
  | .abort _ => inferInstanceAs (Decidable (_ ∧ _))
  | .irq _ _ => inferInstanceAs (Decidable (_ = _))
  | .disableWork _ _ => inferInstanceAs (Decidable (_ ∨ _))
  | .worker => inferInstanceAs (Decidable (_ → _))
  | .processTask _ _ | .timeoutWork _ => isTrue trivial

/-- The hardware of a core that is started has been at rest. -/
def StartsSettled (s : SoftState) : Prop :=
  ∀ task mpp, s.worker = .enqueue task mpp → s.settled mpp = true

/-- The core will be reset before it is given a task. -/
def ResetDue (s : SoftState) (mpp : Nat) : Prop :=
  s.resetRequest mpp ≠ 0 ∧ (s.disableWork mpp = true ∨ s.queueResetRequest ≠ 0)

/-- The worker has seen to the resets and looks for a task to start. -/
def hasReset : WorkerAt → Bool
  | .getTask | .getCore _ => true
  | _ => false

/-- A core that is not settled is at work for a task or will be reset. -/
structure SettledInv (s : SoftState) : Prop extends TimedInv s where
  free : ∀ mpp, Attached s mpp → ¬OnCore s mpp → s.settled mpp = false → ResetDue s mpp
  reported : ∀ mpp, OnCore s mpp → s.settled mpp = false → s.irqStatus mpp ≠ 0 → ResetDue s mpp
  expired : ∀ task ∈ s.runningList, ∀ mpp, s.mpp task = some mpp → s.timeout task = true →
    s.timeoutWork task ≠ .flagged → ResetDue s mpp
  wanted : ∀ task ∈ s.runningList, s.abort task = false
  selectedWanted : ∀ task, s.worker = .getCore task → s.abort task = false
  offered : hasReset s.worker = true → ∀ mpp, Attached s mpp → ¬OnCore s mpp →
    s.disableWork mpp = false → s.settled mpp = true
  starts : StartsSettled s

/-! ## Resets -/

/-- A reset settles the given cores that have asked for it and are not disabled, and leaves disabled
ones alone. -/
structure ResetSpec (s : SoftState) (among : Nat → Prop) (settled : Nat → Bool)
    (resetRequest : Nat → Nat) : Prop where
  done : ∀ mpp, among mpp → s.disableWork mpp = false → s.resetRequest mpp ≠ 0 →
    settled mpp = true
  kept : ∀ mpp, s.settled mpp = true → settled mpp = true
  disabled : ∀ mpp, s.disableWork mpp = true →
    settled mpp = s.settled mpp ∧ resetRequest mpp = s.resetRequest mpp
  asked : ∀ mpp, settled mpp = true ∨ resetRequest mpp = s.resetRequest mpp

theorem foldl_resetCore (s : SoftState) (n : Nat) : ∃ settled resetRequest,
    (List.range n).foldl resetCore s =
      { s with settled := settled, resetRequest := resetRequest } ∧
    ResetSpec s (fun mpp => ∃ i < n, s.cores.cores i = some mpp) settled resetRequest := by
  induction n with
  | zero =>
      exact ⟨s.settled, s.resetRequest, rfl,
        fun _ within => within.elim fun _ both => (Nat.not_lt_zero _ both.1).elim, fun _ => id,
        fun _ _ => ⟨rfl, rfl⟩, fun _ => Or.inr rfl⟩
  | succ n ih =>
      obtain ⟨settled, resetRequest, same, spec⟩ := ih
      rw [List.range_succ, List.foldl_append, same, List.foldl_cons, List.foldl_nil, resetCore]
      dsimp only
      cases held : s.cores.cores n with
      | none =>
          refine ⟨settled, resetRequest, rfl, fun mpp within => ?_, spec.kept, spec.disabled,
            spec.asked⟩
          obtain ⟨i, below, there⟩ := within
          rcases Nat.lt_succ_iff_lt_or_eq.mp below with below | rfl
          · exact spec.done mpp ⟨i, below, there⟩
          · rw [held] at there
            cases there
      | some core =>
          dsimp only
          split
          · next idle =>
              refine ⟨settled, resetRequest, rfl, fun mpp within enabled asked => ?_,
                spec.kept, spec.disabled, spec.asked⟩
              obtain ⟨i, below, there⟩ := within
              rcases Nat.lt_succ_iff_lt_or_eq.mp below with below | rfl
              · exact spec.done mpp ⟨i, below, there⟩ enabled asked
              · obtain rfl := Option.some.inj (held.symm.trans there)
                rw [enabled, Bool.false_or, beq_iff_eq] at idle
                exact (spec.asked core).resolve_right fun same => asked (same.symm.trans idle)
          · next asking =>
              rw [Bool.or_eq_true, not_or, Bool.not_eq_true] at asking
              refine ⟨_, _, rfl, fun mpp within enabled asked => ?_,
                fun mpp before => ?_, fun mpp disabled => ?_, fun mpp => ?_⟩
              · obtain ⟨i, below, there⟩ := within
                by_cases own : mpp = core
                · rw [own, Function.update_self]
                · rw [Function.update_of_ne own]
                  rcases Nat.lt_succ_iff_lt_or_eq.mp below with below | rfl
                  · exact spec.done mpp ⟨i, below, there⟩ enabled asked
                  · exact absurd (Option.some.inj (there.symm.trans held)) own
              · by_cases own : mpp = core
                · rw [own, Function.update_self]
                · rw [Function.update_of_ne own]
                  exact spec.kept mpp before
              · have own : mpp ≠ core := by
                  rintro rfl
                  exact absurd (disabled.symm.trans asking.1) (by decide)
                rw [Function.update_of_ne own, Function.update_of_ne own]
                exact spec.disabled mpp disabled
              · by_cases own : mpp = core
                · rw [own, Function.update_self]
                  exact Or.inl rfl
                · rw [Function.update_of_ne own, Function.update_of_ne own]
                  exact spec.asked mpp

theorem rkvdec2SoftCcuReset_spec (s : SoftState) : ∃ settled resetRequest,
    rkvdec2SoftCcuReset s = { s with
      settled := settled
      resetRequest := resetRequest
      queueResetRequest := 0 } ∧
    ResetSpec s (Attached s) settled resetRequest := by
  obtain ⟨settled, resetRequest, same, spec⟩ := foldl_resetCore s s.cores.coreCount
  exact ⟨settled, resetRequest, by rw [rkvdec2SoftCcuReset, same], spec⟩

/-! ## Events -/

theorem settledInv_start (probed : ProbedCores) : SettledInv probed.start where
  toTimedInv := timedInv_start probed
  free := nofun
  reported := nofun
  expired := nofun
  wanted := nofun
  selectedWanted := nofun
  offered := fun _ _ _ _ _ => rfl
  starts := nofun

/-- A further request makes no reset less due. -/
theorem ResetDue.request (due : ResetDue s mpp) (other : Nat) :
    ResetDue (requestReset s other) mpp := by
  refine ⟨?_, Or.inr (Nat.succ_ne_zero _)⟩
  change Function.update s.resetRequest other _ mpp ≠ 0
  by_cases same : mpp = other
  · rw [same, Function.update_self]
    exact Nat.succ_ne_zero _
  · rw [Function.update_of_ne same]
    exact due.1

theorem resetDue_requestReset (s : SoftState) (mpp : Nat) : ResetDue (requestReset s mpp) mpp := by
  refine ⟨?_, Or.inr (Nat.succ_ne_zero _)⟩
  change Function.update s.resetRequest mpp _ mpp ≠ 0
  rw [Function.update_self]
  exact Nat.succ_ne_zero _

theorem SettledInv.irq (inv : SettledInv s) {status : BitVec 32}
    (working : s.settled mpp = false) : SettledInv (rkvdec2SoftCcuIrq s mpp status) := by
  have event : Event s (.irq mpp status) _ := .irq
  have timed := inv.toTimedInv.event event
  revert timed
  unfold rkvdec2SoftCcuIrq
  split
  · dsimp only
    split
    · next error =>
        rw [error]
        intro timed
        have same : Function.update s.settled mpp false = s.settled := by
          rw [← working, Function.update_eq_self]
        rw [Bool.not_true, same] at timed ⊢
        refine ⟨timed, fun core attached free unsettled =>
          (inv.free core attached free unsettled).request mpp,
          fun core on unsettled interrupted => ?_,
          fun other there core on marked unflagged =>
            (inv.expired other there core on marked unflagged).request mpp,
          inv.wanted, inv.selectedWanted, inv.offered, inv.starts⟩
        by_cases own : core = mpp
        · subst own
          exact resetDue_requestReset s core
        · change Function.update s.irqStatus mpp status core ≠ 0 at interrupted
          rw [Function.update_of_ne own] at interrupted
          exact (inv.reported core on unsettled interrupted).request mpp
    · next clean =>
        rw [Bool.eq_false_iff.mpr clean, Bool.not_false]
        intro timed
        have distinct : ∀ core, Function.update s.settled mpp true core = false →
            core ≠ mpp ∧ s.settled core = false := fun core unsettled => by
          by_cases own : core = mpp
          · rw [own, Function.update_self] at unsettled
            cases unsettled
          · rw [Function.update_of_ne own] at unsettled
            exact ⟨own, unsettled⟩
        have still : ∀ core, s.settled core = true →
            Function.update s.settled mpp true core = true := fun core settled => by
          by_cases own : core = mpp
          · rw [own, Function.update_self]
          · rw [Function.update_of_ne own, settled]
        refine ⟨timed, fun core attached free unsettled =>
          inv.free core attached free (distinct core unsettled).2,
          fun core on unsettled interrupted => ?_, inv.expired, inv.wanted, inv.selectedWanted,
          fun looks core attached free enabled =>
            still core (inv.offered looks core attached free enabled),
          fun task core enqueued => still core (inv.starts task core enqueued)⟩
        obtain ⟨own, unsettled⟩ := distinct core unsettled
        change Function.update s.irqStatus mpp status core ≠ 0 at interrupted
        rw [Function.update_of_ne own] at interrupted
        exact inv.reported core on unsettled interrupted
  · exact fun _ => inv

theorem ResetDue.disable (due : ResetDue s mpp) {core : Nat} {value : Bool}
    (allowed : value = true ∨ s.resetRequest core = 0) :
    ResetDue { s with disableWork := Function.update s.disableWork core value } mpp := by
  refine ⟨due.1, ?_⟩
  change Function.update s.disableWork core value mpp = true ∨ _
  by_cases own : mpp = core
  · subst own
    rw [Function.update_self]
    exact Or.inl (allowed.resolve_right due.1)
  · rw [Function.update_of_ne own]
    exact due.2

theorem SettledInv.event (inv : SettledInv s) (undisturbed : Undisturbed s label)
    (event : Event s label s') : SettledInv s' := by
  have timed := inv.toTimedInv.event event
  obtain ⟨-, free, reported, expired, wanted, selectedWanted, offered, starts⟩ := id inv
  -- A task whose delayed work is elsewhere has not just been marked.
  have unflagged {task : Nat} (now : s.timeoutWork task ≠ .flagged) (stage : TimeoutAt)
      (other : Nat) (later : Function.update s.timeoutWork task stage other ≠ .flagged) :
      s.timeoutWork other ≠ .flagged := by
    by_cases same : other = task
    · exact same ▸ now
    · rw [Function.update_of_ne same] at later
      exact later
  cases event with
  | processTask =>
      exact ⟨timed, free, reported, expired, wanted, selectedWanted, offered, starts⟩
  | @abort task =>
      obtain ⟨waiting, unselected⟩ := undisturbed
      refine ⟨timed, free, reported, expired, fun other there => ?_, fun other selected => ?_,
        offered, starts⟩
      · change Function.update s.abort task true other = false
        have distinct : other ≠ task := fun same => waiting (same ▸ there)
        rw [Function.update_of_ne distinct]
        exact wanted other there
      · change Function.update s.abort task true other = false
        have distinct : other ≠ task := fun same => unselected (same ▸ selected)
        rw [Function.update_of_ne distinct]
        exact selectedWanted other selected
  | irq => exact inv.irq undisturbed
  | late armed =>
      exact ⟨timed, free, reported, fun other there core on marked later =>
        expired other there core on marked (unflagged (by rw [armed]; nofun) _ other later),
        wanted, selectedWanted, offered, starts⟩
  | handle armed =>
      exact ⟨timed, free, reported, fun other there core on marked later =>
        expired other there core on marked (unflagged (by rw [armed]; nofun) _ other later),
        wanted, selectedWanted, offered, starts⟩
  | trigger counted =>
      exact ⟨timed, free, reported, fun other there core on marked later =>
        expired other there core on marked (unflagged (by rw [counted]; nofun) _ other later),
        wanted, selectedWanted, offered, starts⟩
  | @flag task =>
      refine ⟨timed, free, reported, fun other there core on marked later => ?_, wanted,
        selectedWanted, offered, starts⟩
      change Function.update s.timeout task true other = true at marked
      change Function.update s.timeoutWork task .flagged other ≠ .flagged at later
      have distinct : other ≠ task := by
        rintro rfl
        exact later (Function.update_self ..)
      rw [Function.update_of_ne distinct] at marked later
      exact expired other there core on marked later
  | @count task =>
      refine ⟨timed, fun core attached idle unsettled =>
        (free core attached idle unsettled).request _, fun core on unsettled interrupted =>
        (reported core on unsettled interrupted).request _,
        fun other there core on marked later => ?_, wanted, selectedWanted, offered, starts⟩
      by_cases same : other = task
      · subst same
        have due := resetDue_requestReset s (usedDevice s other)
        have used : usedDevice s other = core := usedDevice_of_placed on
        rw [used] at due ⊢
        exact due
      · change Function.update s.timeoutWork task .counted other ≠ .flagged at later
        rw [Function.update_of_ne same] at later
        exact (expired other there core on marked later).request _
  | @disableWork mpp value =>
      refine ⟨timed, fun core attached idle unsettled =>
        (free core attached idle unsettled).disable undisturbed,
        fun core on unsettled interrupted =>
          (reported core on unsettled interrupted).disable undisturbed,
        fun other there core on marked later =>
          (expired other there core on marked later).disable undisturbed, wanted, selectedWanted,
        fun looks core attached idle enabled => ?_, starts⟩
      change Function.update s.disableWork mpp value core = false at enabled
      by_cases own : core = mpp
      · subst own
        rw [Function.update_self] at enabled
        have quiet := undisturbed.resolve_left (Bool.eq_false_iff.mp enabled)
        by_contra unsettled
        exact (free core attached idle (Bool.eq_false_iff.mpr unsettled)).1 quiet
      · rw [Function.update_of_ne own] at enabled
        exact offered looks core attached idle enabled

/-! ## Turns of the worker -/

/-- The core of a finished task is free, and if it is not settled, its reset is due. -/
theorem SettledInv.finish (inv : SettledInv s) (now : s.worker = .dequeue)
    (running : s.runningList = task :: rest) (ended : interrupted s task = true)
    (unflagged : s.timeoutWork task ≠ .flagged) : SettledInv (finishHead s task rest) := by
  have turn : Turn s _ := .finish now running ended
  have member : task ∈ s.runningList := by
    rw [running]
    exact List.mem_cons_self
  have later : ∀ other ∈ rest, other ≠ task ∧ other ∈ s.runningList := fun other there => by
    have distinct := inv.running_nodup
    rw [running] at distinct ⊢
    exact ⟨fun same => (List.nodup_cons.mp distinct).1 (same ▸ there),
      List.mem_cons_of_mem task there⟩
  obtain ⟨mpp, placed, -⟩ := inv.placed task member
  have due : s.settled mpp = false → ResetDue s mpp := fun unsettled => by
    rw [interrupted, usedDevice_of_placed placed, inv.wanted task member, Bool.or_false,
      Bool.or_eq_true, bne_iff_ne] at ended
    rcases ended with interrupted | marked
    · exact inv.reported mpp ⟨task, member, placed⟩ unsettled interrupted
    · exact inv.expired task member mpp placed marked unflagged
  have onCore : ∀ core, OnCore (finishHead s task rest) core → OnCore s core := by
    rintro core ⟨other, there, on⟩
    exact ⟨other, (later other there).2, on⟩
  have asleep : ∀ task, s.worker ≠ .getCore task := fun _ selected => by
    cases now.symm.trans selected
  refine ⟨inv.toTimedInv.turn turn, fun core attached free unsettled => ?_,
    fun core on => inv.reported core (onCore core on), fun other there core on marked stage => ?_,
    fun other there => inv.wanted other (later other there).2,
    fun other selected => absurd selected (asleep other),
    fun (looks : hasReset s.worker = true) => ?_, inv.starts⟩
  · by_cases own : core = mpp
    · exact own ▸ due (own ▸ unsettled)
    · refine inv.free core attached (fun held => ?_) unsettled
      obtain ⟨other, there, on⟩ := held
      refine free ⟨other, ?_, on⟩
      rw [running] at there
      refine (List.mem_cons.mp there).resolve_left fun same => own ?_
      exact Option.some.inj (on.symm.trans (same ▸ placed))
  · change Function.update s.timeoutWork task _ other ≠ .flagged at stage
    rw [Function.update_of_ne (later other there).1] at stage
    exact inv.expired other (later other there).2 core on marked stage
  · rw [now] at looks
    cases looks

theorem SettledInv.place (inv : SettledInv s) (selected : s.worker = .getCore task)
    (chosen : chosenCore s = some mpp) :
    SettledInv { pendingToRunning s task mpp with worker := .enqueue task mpp } := by
  have turn : Turn s _ := .place selected chosen
  have timed := inv.toTimedInv.turn turn
  obtain ⟨attached, free, enabled, -⟩ := inv.coresShared.chosen mpp chosen
  have settled : s.settled mpp = true :=
    inv.offered (by rw [selected]; rfl) mpp attached free enabled
  have fresh : task ∉ s.started := by
    obtain ⟨rest, pending⟩ := inv.pending_eq selected
    exact inv.pending_not_started (by rw [pending]; exact List.mem_cons_self)
  have kept : ∀ other ∈ s.runningList,
      other ≠ task ∧ Function.update s.mpp task (some mpp) other = s.mpp other :=
    fun other there => by
      have distinct : other ≠ task := fun same => fresh (same ▸ inv.running_started there)
      exact ⟨distinct, Function.update_of_ne distinct _ _⟩
  have attached_iff : ∀ core, Attached { pendingToRunning s task mpp with
      worker := .enqueue task mpp } core → Attached s core := fun core attached => by
    obtain ⟨i, below, held⟩ := attached
    exact inv.attached_of_queue (by
      have queued := (timed.cores.placed i core held).2
      change (rkvdec2GetIdleCore s.cores s.disableWork).queue core = true at queued
      rw [queue_getIdleCore] at queued
      exact queued)
  refine ⟨timed, fun core attached' free' unsettled => ?_, fun core on unsettled => ?_,
    fun other there core on marked stage => ?_, fun other there => ?_, nofun, nofun,
    fun other core enqueued => ?_⟩
  · refine inv.free core (attached_iff core attached') (fun held => free' ?_) unsettled
    obtain ⟨other, there, on⟩ := held
    exact ⟨other, List.mem_append_left _ there, (kept other there).2.trans on⟩
  · obtain ⟨other, there, on⟩ := on
    rcases List.mem_append.mp there with there | same
    · exact inv.reported core ⟨other, there, (kept other there).2.symm.trans on⟩ unsettled
    · obtain rfl := List.mem_singleton.mp same
      change Function.update s.mpp other (some mpp) other = some core at on
      rw [Function.update_self] at on
      obtain rfl := Option.some.inj on
      exact absurd (settled.symm.trans unsettled) (by decide)
  · rcases List.mem_append.mp there with there | same
    · change Function.update s.timeoutWork task .armed other ≠ .flagged at stage
      rw [Function.update_of_ne (kept other there).1] at stage
      exact inv.expired other there core ((kept other there).2.symm.trans on) marked stage
    · obtain rfl := List.mem_singleton.mp same
      exact absurd (inv.timers.begun other (Or.inr (Or.inl marked))) fresh
  · rcases List.mem_append.mp there with there | same
    · exact inv.wanted other there
    · obtain rfl := List.mem_singleton.mp same
      exact inv.selectedWanted other selected
  · obtain ⟨-, rfl⟩ := WorkerAt.enqueue.inj enqueued
    exact settled

theorem SettledInv.enqueue (inv : SettledInv s) (placed : s.worker = .enqueue task mpp) :
    SettledInv { rkvdec2SoftCcuEnqueue (rkvdec2CcuPowerOn s) mpp with worker := .done } := by
  have turn : Turn s _ := .enqueue placed
  have timed := inv.toTimedInv.turn turn
  obtain ⟨there, on⟩ := inv.enqueued task mpp placed
  obtain ⟨_, _, _, frame⟩ := rkvdec2CcuPowerOn_frame s
  rw [frame] at timed ⊢
  refine ⟨timed, fun core attached free unsettled => ?_, fun core busy unsettled interrupted => ?_,
    inv.expired, inv.wanted, nofun, nofun, nofun⟩
  · change Function.update s.settled mpp false core = false at unsettled
    have distinct : core ≠ mpp := by
      rintro rfl
      exact free ⟨task, there, on⟩
    rw [Function.update_of_ne distinct] at unsettled
    exact inv.free core attached free unsettled
  · change Function.update s.irqStatus mpp 0 core ≠ 0 at interrupted
    change Function.update s.settled mpp false core = false at unsettled
    have distinct : core ≠ mpp := by
      rintro rfl
      exact interrupted (Function.update_self ..)
    rw [Function.update_of_ne distinct] at interrupted unsettled
    exact inv.reported core busy unsettled interrupted

/-- Cores with a task are disabled or were seen to work, so the others are settled. -/
theorem SettledInv.reset (inv : SettledInv s) (now : s.worker = .reset)
    (quiet : rkvdec2CoreWorking s = false) :
    SettledInv { rkvdec2SoftCcuReset s with worker := .getTask } := by
  have turn : Turn s _ := .reset now quiet
  have timed := inv.toTimedInv.turn turn
  obtain ⟨settled, resetRequest, frame, spec⟩ := rkvdec2SoftCcuReset_spec s
  rw [frame] at timed ⊢
  have unsettled_before : ∀ core, settled core = false → s.settled core = false :=
    fun core unsettled => Bool.eq_false_iff.mpr fun before =>
      absurd ((spec.kept core before).symm.trans unsettled) (by decide)
  have stillDue : ∀ core, s.disableWork core = true → ResetDue s core →
      resetRequest core ≠ 0 ∧ (s.disableWork core = true ∨ 0 ≠ 0) := fun core disabled due =>
    ⟨by rw [(spec.disabled core disabled).2]; exact due.1, Or.inl disabled⟩
  have onDisabled : ∀ core, OnCore s core → s.disableWork core = true := fun core on => by
    obtain ⟨task, there, placed⟩ := id on
    obtain ⟨mpp, placed', attached, -⟩ := inv.placed task there
    obtain rfl := Option.some.inj (placed.symm.trans placed')
    by_contra enabled
    have working := inv.working (inv.attached_of_queue attached) (Bool.eq_false_iff.mpr enabled) on
    exact absurd (quiet.symm.trans working) Bool.false_ne_true
  have settles : ∀ core, Attached s core → ¬OnCore s core → s.disableWork core = false →
      settled core = true := fun core attached free enabled => by
    by_contra unsettled
    have unsettled := Bool.eq_false_iff.mpr unsettled
    have due := inv.free core attached free (unsettled_before core unsettled)
    exact absurd ((spec.done core attached enabled due.1).symm.trans unsettled) (by decide)
  refine ⟨timed, fun core attached free unsettled => ?_, fun core on unsettled interrupted =>
    stillDue core (onDisabled core on) (inv.reported core on (unsettled_before core unsettled)
      interrupted), fun task there core on marked stage =>
    stillDue core (onDisabled core ⟨task, there, on⟩) (inv.expired task there core on marked stage),
    inv.wanted, nofun, fun _ => settles, nofun⟩
  have disabled : s.disableWork core = true := by
    by_contra enabled
    exact absurd ((settles core attached free (Bool.eq_false_iff.mpr enabled)).symm.trans unsettled)
      (by decide)
  exact stillDue core disabled (inv.free core attached free (unsettled_before core unsettled))

theorem SettledInv.turn (inv : SettledInv s) (undisturbed : Undisturbed s .worker)
    (turn : Turn s s') : SettledInv s' := by
  have timed := inv.toTimedInv.turn turn
  obtain ⟨-, free, reported, expired, wanted, selectedWanted, offered, starts⟩ := id inv
  cases turn with
  | @finish task rest now running ended =>
      exact inv.finish now running ended (undisturbed now task (by rw [running]; rfl))
  | place selected chosen => exact inv.place selected chosen
  | enqueue placed => exact inv.enqueue placed
  | reset now quiet => exact inv.reset now quiet
  | noReset now unasked =>
      refine ⟨timed, free, reported, expired, wanted, nofun, fun _ core attached idle enabled => ?_,
        nofun⟩
      by_contra unsettled
      have due := free core attached idle (Bool.eq_false_iff.mpr unsettled)
      exact due.2.elim (fun disabled => absurd (enabled.symm.trans disabled) Bool.false_ne_true)
        fun asked => asked unasked
  | drop =>
      exact ⟨timed, free, reported, expired, wanted, selectedWanted, offered, starts⟩
  | @select task rest now pending unaborted =>
      refine ⟨timed, free, reported, expired, wanted, fun other selected => ?_,
        fun _ => offered (by rw [now]; rfl), nofun⟩
      obtain rfl := WorkerAt.getCore.inj selected
      exact unaborted
  | powerOff =>
      obtain ⟨_, _, _, frame⟩ := rkvdec2CcuPowerOff_frame s
      rw [frame] at timed ⊢
      exact ⟨timed, free, reported, expired, wanted, nofun, nofun, nofun⟩
  | _ => exact ⟨timed, free, reported, expired, wanted, nofun, nofun, nofun⟩

theorem SettledInv.step (inv : SettledInv s) (undisturbed : Undisturbed s label)
    (taken : softStep s label = some s') : SettledInv s' := by
  rcases cases_of_softStep taken with event | ⟨rfl, turn⟩
  · exact inv.event undisturbed event
  · exact inv.turn undisturbed turn

/-- Core 0 is the only one in use, and task 7 is started on it. -/
def oneAtWork : List SoftLabel :=
  [.disableWork 1 true, .processTask 7 0] ++ List.replicate 7 .worker

/-- The process gives up waiting for task 7, and task 8 is pushed. -/
def abortedAtWork : List SoftLabel :=
  oneAtWork ++ [.abort 7, .processTask 8 0] ++ List.replicate 6 .worker

/-- The worker finds task 7 marked before its delayed work has counted the reset requests. -/
def markedUncounted : List SoftLabel :=
  oneAtWork ++ List.replicate 2 (.timeoutWork 7) ++ [.processTask 8 0] ++ List.replicate 6 .worker

/-- Core 0 reports an error while it is disabled, so it is not reset, and is enabled again. -/
def enabledUnreset : List SoftLabel :=
  oneAtWork ++ [.disableWork 0 true, .irq 0 0x12] ++ List.replicate 6 .worker ++
    [.disableWork 0 false, .processTask 8 0] ++ List.replicate 5 .worker

/-- Each of the disturbances makes the worker start task 8 on a core that is not settled. -/
theorem disturbed_runs_start_unsettled :
    ¬Always softStep StartsSettled twoCores.start abortedAtWork ∧
      ¬Always softStep StartsSettled twoCores.start markedUncounted ∧
      ¬Always softStep StartsSettled twoCores.start enabledUnreset := by
  refine ⟨fun always => ?_, fun always => ?_, fun always => ?_⟩
  all_goals
    have started := always.of_runs rfl 8 0 rfl
    exact absurd started (by decide +kernel)

end SoftCcu
end Mpp
end RockchipSoc
