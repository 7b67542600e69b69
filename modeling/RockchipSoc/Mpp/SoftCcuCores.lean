import RockchipSoc.Mpp.SoftCcuOrder

/-!
# The cores of running tasks

Running tasks are on cores of their own, and the idle bits say which cores have one.  The scan for a
core finds an idle one that is not disabled and has done the least work.  Cores are reset only when
none of those that are not disabled has a task.
-/

namespace RockchipSoc
namespace Mpp
namespace SoftCcu

open CoreQueue LabelledRun

variable {s s' : SoftState} {label : SoftLabel} {task mpp : Nat} {rest : List Nat}

/-! ## The scan -/

/-- The core at an index is idle and not disabled. -/
structure Offered (s : SoftState) (i core : Nat) : Prop where
  held : s.cores.cores i = some core
  idle : s.cores.coreIdle i = true
  enabled : s.disableWork core = false

/-- A scan over filled slots ends with the first core or with an offered one, and none of these has
done less work. -/
theorem foldlM_scanCore_spec {indices : List Nat} (dec : Option Nat)
    (filled : ∀ i ∈ indices, (s.cores.cores i).isSome) :
    ∃ found, indices.foldlM (scanCore s.cores s.disableWork) dec = some found ∧
      (found = dec ∨ ∃ i ∈ indices, ∃ core, found = some core ∧ Offered s i core) ∧
      (∀ core ∈ dec, ∃ best ∈ found, s.cores.taskIndex best ≤ s.cores.taskIndex core) ∧
      ∀ i ∈ indices, ∀ core, Offered s i core →
        ∃ best ∈ found, s.cores.taskIndex best ≤ s.cores.taskIndex core := by
  induction indices generalizing dec with
  | nil =>
      exact ⟨dec, rfl, Or.inl rfl, fun core member => ⟨core, member, Nat.le_refl _⟩,
        fun _ absurd => nomatch absurd⟩
  | cons i indices ih =>
      obtain ⟨core, held⟩ := Option.isSome_iff_exists.mp (filled i List.mem_cons_self)
      obtain ⟨next, scanned, kept, before, here⟩ :
          ∃ next, scanCore s.cores s.disableWork dec i = some next ∧
            (next = dec ∨ next = some core ∧ Offered s i core) ∧
            (∀ core ∈ dec, ∃ best ∈ next, s.cores.taskIndex best ≤ s.cores.taskIndex core) ∧
            (Offered s i core →
              ∃ best ∈ next, s.cores.taskIndex best ≤ s.cores.taskIndex core) := by
        have same : ∀ core ∈ dec, ∃ best ∈ dec,
            s.cores.taskIndex best ≤ s.cores.taskIndex core :=
          fun core member => ⟨core, member, Nat.le_refl _⟩
        rw [scanCore, held]
        refine ⟨_, rfl, ?_⟩
        dsimp only
        split
        · next disabled =>
            refine ⟨Or.inl rfl, same, fun offered => ?_⟩
            rw [offered.enabled] at disabled
            cases disabled
        · next enabled =>
            split
            · next idle =>
                have offered : Offered s i core := ⟨held, idle, Bool.eq_false_iff.mpr enabled⟩
                split
                · refine ⟨Or.inr ⟨rfl, offered⟩, fun other member => ?_,
                    fun _ => ⟨core, rfl, Nat.le_refl _⟩⟩
                  cases member
                · next best =>
                    split
                    · next less =>
                        refine ⟨Or.inr ⟨rfl, offered⟩, fun other member => ?_,
                          fun _ => ⟨core, rfl, Nat.le_refl _⟩⟩
                        obtain rfl := Option.some.inj member
                        exact ⟨core, rfl, Nat.le_of_lt less⟩
                    · next more =>
                        exact ⟨Or.inl rfl, same, fun _ => ⟨best, rfl, Nat.le_of_not_lt more⟩⟩
            · next busy => exact ⟨Or.inl rfl, same, fun offered => absurd offered.idle busy⟩
      obtain ⟨found, ended, outcome, above, least⟩ :=
        ih next fun j member => filled j (List.mem_cons_of_mem i member)
      have chained {other : Nat}
          (first : ∃ best ∈ next, s.cores.taskIndex best ≤ s.cores.taskIndex other) :
          ∃ best ∈ found, s.cores.taskIndex best ≤ s.cores.taskIndex other := by
        obtain ⟨middle, member, le⟩ := first
        obtain ⟨best, last, le'⟩ := above middle member
        exact ⟨best, last, Nat.le_trans le' le⟩
      refine ⟨found, by rw [List.foldlM_cons, scanned]; exact ended, ?_,
        fun other member => chained (before other member), fun j member other offered => ?_⟩
      · rcases outcome with rfl | ⟨j, member, among⟩
        · exact kept.imp_right fun picked => ⟨i, List.mem_cons_self, core, picked⟩
        · exact Or.inr ⟨j, List.mem_cons_of_mem i member, among⟩
      · rcases List.mem_cons.mp member with rfl | later
        · obtain rfl := Option.some.inj (held.symm.trans offered.held)
          exact chained (here offered)
        · exact least j later other offered

/-- The core that is chosen is offered, and no offered one has done less work. -/
theorem chosenCore_spec (inv : CoreInv s.cores) (chosen : chosenCore s = some mpp) :
    (∃ i < s.cores.coreCount, Offered s i mpp) ∧
      ∀ i < s.cores.coreCount, ∀ core, Offered s i core →
        s.cores.taskIndex mpp ≤ s.cores.taskIndex core := by
  obtain ⟨found, ended, outcome, -, least⟩ := foldlM_scanCore_spec none inv.allFilled
  rw [chosenCore, ended] at chosen
  obtain rfl : found = some mpp := chosen
  refine ⟨?_, fun i below core offered => ?_⟩
  · obtain ⟨i, member, core, same, offered⟩ := outcome.resolve_left (Option.some_ne_none mpp)
    obtain rfl := Option.some.inj same
    exact ⟨i, List.mem_range.mp member, offered⟩
  · obtain ⟨best, same, le⟩ := least i (List.mem_range.mpr below) core offered
    obtain rfl := Option.some.inj same
    exact le

theorem not_offered_of_chosenCore (inv : CoreInv s.cores) (crowded : chosenCore s = none)
    {i core : Nat} (below : i < s.cores.coreCount) : ¬Offered s i core := fun offered => by
  obtain ⟨found, ended, -, -, least⟩ := foldlM_scanCore_spec none inv.allFilled
  rw [chosenCore, ended] at crowded
  obtain rfl : found = none := crowded
  obtain ⟨best, absurd, -⟩ := least i (List.mem_range.mpr below) core offered
  cases absurd

theorem busy_getIdleCore (chosen : chosenCore s = some mpp) :
    (rkvdec2GetIdleCore s.cores s.disableWork).busy = Function.update s.cores.busy mpp true := by
  have scanned : (List.range s.cores.coreCount).foldlM (scanCore s.cores s.disableWork) none =
      some (some mpp) := Option.join_eq_some_iff.mp chosen
  rw [rkvdec2GetIdleCore, scanned]

theorem queue_getIdleCore (cores : CoreState) (disableWork : Nat → Bool) :
    (rkvdec2GetIdleCore cores disableWork).queue = cores.queue := by
  unfold rkvdec2GetIdleCore
  split <;> rfl

/-! ## Tasks and their cores -/

/-- The busy cores are those of the running tasks. -/
structure CoresInv (s : SoftState) : Prop extends OrderInv s where
  cores : CoreInv s.cores
  placed : ∀ task ∈ s.runningList, ∃ mpp,
    s.mpp task = some mpp ∧ s.cores.queue mpp = true ∧ s.cores.busy mpp = true
  busy : ∀ mpp, s.cores.busy mpp = true → ∃ task ∈ s.runningList, s.mpp task = some mpp
  alone : ∀ task ∈ s.runningList, ∀ other ∈ s.runningList, s.mpp task = s.mpp other → task = other
  enqueued : ∀ task mpp, s.worker = .enqueue task mpp →
    task ∈ s.runningList ∧ s.mpp task = some mpp

theorem coresInv_start (probed : ProbedCores) : CoresInv probed.start where
  toOrderInv := orderInv_start probed
  cores := probed.inv
  placed := fun _ absurd => nomatch absurd
  busy := fun mpp busy => absurd ((probed.free mpp).symm.trans busy) Bool.false_ne_true
  alone := fun _ absurd => nomatch absurd
  enqueued := fun _ _ absurd => nomatch absurd

theorem usedDevice_of_placed (placed : s.mpp task = some mpp) : usedDevice s task = mpp := by
  rw [usedDevice, placed, Option.getD_some]

theorem CoresInv.event (inv : CoresInv s) (event : Event s label s') : CoresInv s' := by
  have order := inv.toOrderInv.event event
  obtain ⟨-, cores, placed, busy, alone, enqueued⟩ := inv
  cases event with
  | @irq mpp status =>
      obtain ⟨_, _, _, _, _, frame⟩ := rkvdec2SoftCcuIrq_frame s mpp status
      rw [frame] at order ⊢
      exact ⟨order, cores, placed, busy, alone, enqueued⟩
  | _ => exact ⟨order, cores, placed, busy, alone, enqueued⟩

theorem CoresInv.finish (inv : CoresInv s) (working : s.worker = .dequeue)
    (running : s.runningList = task :: rest) : CoresInv (finishHead s task rest) := by
  have member : task ∈ s.runningList := by
    rw [running]
    exact List.mem_cons_self
  have later : ∀ other ∈ rest, other ∈ s.runningList := fun other member => by
    rw [running]
    exact List.mem_cons_of_mem task member
  have absent : task ∉ rest := by
    have distinct := inv.running_nodup
    rw [running] at distinct
    exact (List.nodup_cons.mp distinct).1
  obtain ⟨mpp, placed, attached, busy⟩ := inv.placed task member
  have order : InOrder s.cores (.finish mpp) := fun _ => by
    obtain ⟨i, id, held⟩ := inv.cores.queued mpp attached
    exact ⟨mpp, by rw [id, Int.toNat_natCast]; exact held, Or.inl rfl⟩
  have finished : (finishHead s task rest).cores = finishTask s.cores mpp := by
    rw [← usedDevice_of_placed placed]
    rfl
  have apart : ∀ other ∈ rest, s.mpp other ≠ some mpp := fun other there same =>
    absent (inv.alone task member other (later other there) (placed.trans same.symm) ▸ there)
  refine ⟨inv.toOrderInv.finish working running, ?_, fun other there => ?_, fun core held => ?_,
    fun other there another there' => inv.alone other (later other there) another
      (later another there'), fun other core enqueued => ?_⟩
  · rw [finished]
    exact inv.cores.finish busy order
  · obtain ⟨core, on, attached', busy'⟩ := inv.placed other (later other there)
    refine ⟨core, on, by rw [finished]; exact attached', ?_⟩
    have distinct : core ≠ mpp := fun same => apart other there (same ▸ on)
    rw [finished]
    change Function.update s.cores.busy mpp false core = true
    rw [Function.update_of_ne distinct, busy']
  · rw [finished] at held
    change Function.update s.cores.busy mpp false core = true at held
    by_cases same : core = mpp
    · rw [same, Function.update_self] at held
      cases held
    · rw [Function.update_of_ne same] at held
      obtain ⟨other, there, on⟩ := inv.busy core held
      rw [running] at there
      rcases List.mem_cons.mp there with rfl | there
      · exact absurd (Option.some.inj (on.symm.trans placed)) same
      · exact ⟨other, there, on⟩
  · have contra : WorkerAt.dequeue = .enqueue other core := working.symm.trans enqueued
    cases contra

theorem CoresInv.place (inv : CoresInv s) (selected : s.worker = .getCore task)
    (chosen : chosenCore s = some mpp) :
    CoresInv { pendingToRunning s task mpp with worker := .enqueue task mpp } := by
  have absent : task ∉ s.runningList := by
    obtain ⟨rest, pending⟩ := inv.pending_eq selected
    have member : task ∈ s.pendingList := by
      rw [pending]
      exact List.mem_cons_self
    exact fun there => inv.pending_not_started member (inv.running_started there)
  obtain ⟨⟨i, below, offered⟩, -⟩ := chosenCore_spec inv.cores chosen
  have attached : s.cores.queue mpp = true := (inv.cores.placed i mpp offered.held).2
  have idle : s.cores.busy mpp = false := by
    obtain ⟨core, held, free⟩ := (inv.cores.idle i).mp offered.idle
    obtain rfl := Option.some.inj (held.symm.trans offered.held)
    exact free
  have elsewhere : ∀ other ∈ s.runningList, s.mpp other ≠ some mpp := fun other there same => by
    obtain ⟨core, on, -, busy⟩ := inv.placed other there
    obtain rfl := Option.some.inj (on.symm.trans same)
    rw [idle] at busy
    cases busy
  have kept : ∀ other ∈ s.runningList,
      Function.update s.mpp task (some mpp) other = s.mpp other := fun other there =>
    Function.update_of_ne (fun same : other = task => absent (same ▸ there)) _ _
  refine ⟨inv.toOrderInv.place selected, inv.cores.getIdleCore s.disableWork,
    fun other there => ?_, fun core busy => ?_, fun other there another there' same => ?_,
    fun other core enqueued => ?_⟩
  · change other ∈ s.runningList ++ [task] at there
    change ∃ core, Function.update s.mpp task (some mpp) other = some core ∧
      (rkvdec2GetIdleCore s.cores s.disableWork).queue core = true ∧
      (rkvdec2GetIdleCore s.cores s.disableWork).busy core = true
    rw [queue_getIdleCore, busy_getIdleCore chosen]
    rcases List.mem_append.mp there with earlier | new
    · obtain ⟨core, on, attached', busy⟩ := inv.placed other earlier
      have distinct : core ≠ mpp := fun same => elsewhere other earlier (same ▸ on)
      exact ⟨core, (kept other earlier).trans on, attached', by
        rw [Function.update_of_ne distinct, busy]⟩
    · obtain rfl := List.mem_singleton.mp new
      exact ⟨mpp, Function.update_self .., attached, Function.update_self ..⟩
  · change (rkvdec2GetIdleCore s.cores s.disableWork).busy core = true at busy
    rw [busy_getIdleCore chosen] at busy
    by_cases same : core = mpp
    · exact ⟨task, List.mem_append_right _ (List.mem_singleton_self task), by
        rw [same]; exact Function.update_self ..⟩
    · rw [Function.update_of_ne same] at busy
      obtain ⟨other, there, on⟩ := inv.busy core busy
      exact ⟨other, List.mem_append_left _ there, (kept other there).trans on⟩
  · change Function.update s.mpp task (some mpp) other =
      Function.update s.mpp task (some mpp) another at same
    rcases List.mem_append.mp there with earlier | new
    · rw [kept other earlier] at same
      rcases List.mem_append.mp there' with earlier' | new'
      · rw [kept another earlier'] at same
        exact inv.alone other earlier another earlier' same
      · obtain rfl := List.mem_singleton.mp new'
        rw [Function.update_self] at same
        exact absurd same (elsewhere other earlier)
    · obtain rfl := List.mem_singleton.mp new
      rw [Function.update_self] at same
      rcases List.mem_append.mp there' with earlier' | new'
      · rw [kept another earlier'] at same
        exact absurd same.symm (elsewhere another earlier')
      · exact (List.mem_singleton.mp new').symm
  · obtain ⟨rfl, rfl⟩ := WorkerAt.enqueue.inj enqueued
    exact ⟨List.mem_append_right _ (List.mem_singleton_self task), Function.update_self ..⟩

theorem CoresInv.turn (inv : CoresInv s) (turn : Turn s s') : CoresInv s' := by
  have order := inv.toOrderInv.turn turn
  obtain ⟨-, cores, placed, busy, alone, -⟩ := id inv
  cases turn with
  | finish working running => exact inv.finish working running
  | place selected chosen => exact inv.place selected chosen
  | @drop task rest looking =>
      refine ⟨order, cores, placed, busy, alone, fun other core enqueued => ?_⟩
      have contra : WorkerAt.getTask = .enqueue other core := looking.symm.trans enqueued
      cases contra
  | reset =>
      obtain ⟨_, _, frame⟩ := rkvdec2SoftCcuReset_frame s
      rw [frame] at order ⊢
      exact ⟨order, cores, placed, busy, alone, fun _ _ absurd => nomatch absurd⟩
  | enqueue =>
      obtain ⟨_, _, _, frame⟩ := rkvdec2CcuPowerOn_frame s
      rw [frame] at order ⊢
      exact ⟨order, cores, placed, busy, alone, fun _ _ absurd => nomatch absurd⟩
  | powerOff =>
      obtain ⟨_, _, _, frame⟩ := rkvdec2CcuPowerOff_frame s
      rw [frame] at order ⊢
      exact ⟨order, cores, placed, busy, alone, fun _ _ absurd => nomatch absurd⟩
  | _ => exact ⟨order, cores, placed, busy, alone, fun _ _ absurd => nomatch absurd⟩

theorem CoresInv.step (inv : CoresInv s) (taken : softStep s label = some s') : CoresInv s' := by
  rcases cases_of_softStep taken with event | ⟨-, turn⟩
  · exact inv.event event
  · exact inv.turn turn

/-! ## What the worker relies on -/

/-- A running task is on the core. -/
def OnCore (s : SoftState) (mpp : Nat) : Prop := ∃ task ∈ s.runningList, s.mpp task = some mpp

/-- The core is one of the queue. -/
def Attached (s : SoftState) (mpp : Nat) : Prop :=
  ∃ i < s.cores.coreCount, s.cores.cores i = some mpp

/-- The worker goes on to the cores that have asked for a reset, the given one among them. -/
structure Resets (s : SoftState) (mpp : Nat) : Prop where
  resetting : s.worker = .reset
  asked : s.queueResetRequest ≠ 0
  quiet : rkvdec2CoreWorking s = false
  attached : Attached s mpp
  enabled : s.disableWork mpp = false
  requested : s.resetRequest mpp ≠ 0

/-- Each running task has a core of the queue to itself; the idle bits, the choice of a core and the
resets agree with that, and no scan has followed a NULL core. -/
structure CoresShared (s : SoftState) : Prop where
  placed : ∀ task ∈ s.runningList, ∃ mpp, s.mpp task = some mpp ∧ Attached s mpp
  alone : ∀ task ∈ s.runningList, ∀ other ∈ s.runningList, s.mpp task = s.mpp other → task = other
  idle : ∀ i mpp, s.cores.cores i = some mpp → (s.cores.coreIdle i = true ↔ ¬OnCore s mpp)
  chosen : ∀ mpp, chosenCore s = some mpp →
    Attached s mpp ∧ ¬OnCore s mpp ∧ s.disableWork mpp = false ∧
      ∀ other, Attached s other → ¬OnCore s other → s.disableWork other = false →
        s.cores.taskIndex mpp ≤ s.cores.taskIndex other
  reset : ∀ mpp, Resets s mpp → ¬OnCore s mpp
  followed : s.cores.faulted = false

theorem CoresInv.onCore_iff (inv : CoresInv s) : OnCore s mpp ↔ s.cores.busy mpp = true := by
  constructor
  · rintro ⟨task, there, on⟩
    obtain ⟨core, on', -, busy⟩ := inv.placed task there
    obtain rfl := Option.some.inj (on.symm.trans on')
    exact busy
  · exact inv.busy mpp

theorem CoresInv.idle_iff (inv : CoresInv s) {i : Nat} (held : s.cores.cores i = some mpp) :
    s.cores.coreIdle i = true ↔ ¬OnCore s mpp := by
  rw [inv.cores.idle i, inv.onCore_iff, Bool.not_eq_true]
  constructor
  · rintro ⟨core, held', free⟩
    obtain rfl := Option.some.inj (held.symm.trans held')
    exact free
  · exact fun free => ⟨mpp, held, free⟩

/-- A core that is not disabled and has a task is seen to work. -/
theorem CoresInv.working (inv : CoresInv s) (attached : Attached s mpp)
    (enabled : s.disableWork mpp = false) (on : OnCore s mpp) : rkvdec2CoreWorking s = true := by
  obtain ⟨i, below, held⟩ := attached
  have busy : s.cores.coreIdle i = false := Bool.eq_false_iff.mpr fun idle =>
    (inv.idle_iff held).mp idle on
  refine List.any_eq_true.mpr ⟨i, List.mem_range.mpr below, ?_⟩
  rw [held, Option.any_some, enabled, busy]
  rfl

theorem CoresInv.attached_of_queue (inv : CoresInv s) (attached : s.cores.queue mpp = true) :
    Attached s mpp := by
  obtain ⟨i, -, held⟩ := inv.cores.queued mpp attached
  exact ⟨i, (inv.cores.filled i).mp (by rw [held]; rfl), held⟩

theorem CoresInv.coresShared (inv : CoresInv s) : CoresShared s where
  placed := fun task there => by
    obtain ⟨mpp, on, attached, -⟩ := inv.placed task there
    exact ⟨mpp, on, inv.attached_of_queue attached⟩
  alone := inv.alone
  idle := fun _ _ held => inv.idle_iff held
  chosen := fun mpp chosen => by
    obtain ⟨⟨i, below, offered⟩, least⟩ := chosenCore_spec inv.cores chosen
    refine ⟨⟨i, below, offered.held⟩, (inv.idle_iff offered.held).mp offered.idle,
      offered.enabled, ?_⟩
    rintro other ⟨j, below', held⟩ free enabled
    exact least j below' other ⟨held, (inv.idle_iff held).mpr free, enabled⟩
  reset := fun mpp resets on => by
    have working := inv.working resets.attached resets.enabled on
    rw [resets.quiet] at working
    cases working
  followed := inv.cores.faultless

end SoftCcu
end Mpp
end RockchipSoc
