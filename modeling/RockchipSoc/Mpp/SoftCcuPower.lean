import RockchipSoc.Mpp.SoftCcuCores

/-!
# The power of the decoder cores

The CCU and its cores are powered on when a task is started and off when the worker leaves an empty
running list.  Both go over all cores of the queue and are guarded by `power_enabled`, so that the
counts of the CCU and of each core stay one or zero together.
-/

namespace RockchipSoc
namespace Mpp
namespace SoftCcu

open CoreQueue LabelledRun

variable {s s' : SoftState} {label : SoftLabel} {task mpp : Nat}

/-- Everything that belongs to the queue has been powered on `count` times. -/
structure PoweredBy (count : Int) (s : SoftState) : Prop where
  ccu : s.ccuPower = count
  core : ∀ mpp, s.cores.queue mpp = true → s.corePower mpp = count
  other : ∀ mpp, s.cores.queue mpp = false → s.corePower mpp = 0

/-- The counts follow `power_enabled`. Tasks that are being decoded have power, and a queue whose
worker sleeps has none without a running task. -/
structure PowerFollows (s : SoftState) : Prop where
  counts : PoweredBy (if s.powerEnabled then 1 else 0) s
  decoding : ∀ task ∈ s.runningList, (∀ mpp, s.worker ≠ .enqueue task mpp) →
    s.powerEnabled = true
  sleeping : s.worker = .idle → s.powerEnabled = true → s.runningList ≠ []

structure PowerInv (s : SoftState) : Prop extends CoresInv s, PowerFollows s

/-- A core below `n` is counted once. -/
theorem foldl_countCore {cores : CoreState} (inv : CoreInv cores) (change : Int)
    (corePower : Nat → Int) (mpp n : Nat) :
    (List.range n).foldl (countCore cores change) corePower mpp =
      corePower mpp + if ∃ i < n, cores.cores i = some mpp then change else 0 := by
  induction n with
  | zero => simp
  | succ n ih =>
      rw [List.range_succ, List.foldl_append, List.foldl_cons, List.foldl_nil, countCore]
      by_cases here : cores.cores n = some mpp
      · have before : ¬∃ i < n, cores.cores i = some mpp := by
          rintro ⟨i, below, held⟩
          have id := (inv.placed i mpp held).1
          have id' := (inv.placed n mpp here).1
          omega
        rw [here]
        dsimp only
        rw [Function.update_self, ih, if_neg before, if_pos ⟨n, Nat.lt_succ_self n, here⟩]
        omega
      · have same : (∃ i < n + 1, cores.cores i = some mpp) ↔
            ∃ i < n, cores.cores i = some mpp := by
          constructor
          · rintro ⟨i, below, held⟩
            rcases Nat.lt_succ_iff_lt_or_eq.mp below with below | rfl
            · exact ⟨i, below, held⟩
            · exact absurd held here
          · rintro ⟨i, below, held⟩
            exact ⟨i, Nat.lt_succ_of_lt below, held⟩
        simp only [same]
        rw [← ih]
        cases held : cores.cores n with
        | none => rfl
        | some core =>
            have distinct : mpp ≠ core := fun same => here (by rw [held, same])
            dsimp only
            rw [Function.update_of_ne distinct]

/-- Each core of the queue is counted once. -/
theorem countCores_apply {cores : CoreState} (inv : CoreInv cores) (change : Int)
    (corePower : Nat → Int) (mpp : Nat) :
    countCores cores change corePower mpp =
      corePower mpp + if cores.queue mpp then change else 0 := by
  have attached : (∃ i < cores.coreCount, cores.cores i = some mpp) ↔
      cores.queue mpp = true := by
    constructor
    · rintro ⟨i, -, held⟩
      exact (inv.placed i mpp held).2
    · intro attached
      obtain ⟨i, -, held⟩ := inv.queued mpp attached
      exact ⟨i, (inv.filled i).mp (by rw [held]; rfl), held⟩
  rw [countCores, foldl_countCore inv]
  simp only [attached]

/-- Powering on or off goes over everything that belongs to the queue. -/
theorem PoweredBy.add {count : Int} (powered : PoweredBy count s) (inv : CoreInv s.cores)
    (change : Int) (powerEnabled : Bool) :
    PoweredBy (count + change) { s with
      powerEnabled := powerEnabled
      ccuPower := s.ccuPower + change
      corePower := countCores s.cores change s.corePower } where
  ccu := by
    rw [← powered.ccu]
  core := fun mpp attached => by
    change countCores s.cores change s.corePower mpp = count + change
    rw [countCores_apply inv, powered.core mpp attached, if_pos attached]
  other := fun mpp free => by
    change countCores s.cores change s.corePower mpp = 0
    rw [countCores_apply inv, powered.other mpp free, free]
    rfl

theorem powerInv_start (probed : ProbedCores) : PowerInv probed.start where
  toCoresInv := coresInv_start probed
  counts := ⟨rfl, fun _ _ => rfl, fun _ _ => rfl⟩
  decoding := fun _ absurd => nomatch absurd
  sleeping := fun _ absurd => nomatch absurd

theorem PowerInv.event (inv : PowerInv s) (event : Event s label s') : PowerInv s' := by
  have cores := inv.toCoresInv.event event
  obtain ⟨-, ⟨⟨ccu, core, other⟩, decoding, sleeping⟩⟩ := inv
  cases event with
  | @irq mpp status =>
      obtain ⟨_, _, _, _, _, frame⟩ := rkvdec2SoftCcuIrq_frame s mpp status
      rw [frame] at cores ⊢
      exact ⟨cores, ⟨ccu, core, other⟩, decoding, sleeping⟩
  | _ => exact ⟨cores, ⟨ccu, core, other⟩, decoding, sleeping⟩

theorem PowerFollows.powered (power : PowerFollows s) {worker : WorkerAt} (now : s.worker = worker)
    (started : ∀ task mpp, worker ≠ .enqueue task mpp) (there : task ∈ s.runningList) :
    s.powerEnabled = true :=
  power.decoding task there fun mpp => now ▸ started task mpp

theorem PowerInv.turn (inv : PowerInv s) (turn : Turn s s') : PowerInv s' := by
  have cores := inv.toCoresInv.turn turn
  have power := inv.toPowerFollows
  obtain ⟨ccu, core, other⟩ := power.counts
  cases turn with
  | begin now | noReset now | postpone now | noTask now | select now | noCore now | dequeued now =>
      exact ⟨cores, ⟨ccu, core, other⟩, fun _ there _ => power.powered now nofun there, nofun⟩
  | drop now =>
      refine ⟨cores, ⟨ccu, core, other⟩, fun _ there _ => power.powered now nofun there,
        fun idle => ?_⟩
      have contra : WorkerAt.getTask = .idle := now.symm.trans idle
      cases contra
  | @finish task rest now running =>
      refine ⟨cores, ⟨ccu, core, other⟩, fun other there _ => ?_, fun idle => ?_⟩
      · have earlier : other ∈ s.runningList := by
          rw [running]
          exact List.mem_cons_of_mem task there
        exact power.powered now nofun earlier
      · have contra : WorkerAt.dequeue = .idle := now.symm.trans idle
        cases contra
  | reset now =>
      obtain ⟨_, _, frame⟩ := rkvdec2SoftCcuReset_frame s
      rw [frame] at cores ⊢
      exact ⟨cores, ⟨ccu, core, other⟩, fun _ there _ => power.powered now nofun there, nofun⟩
  | @place task mpp now =>
      have attached : (rkvdec2GetIdleCore s.cores s.disableWork).queue = s.cores.queue :=
        queue_getIdleCore s.cores s.disableWork
      refine ⟨cores, ⟨ccu, fun core => ?_, fun core => ?_⟩, fun other there earlier => ?_, nofun⟩
      · change (rkvdec2GetIdleCore s.cores s.disableWork).queue core = true → _
        rw [attached]
        exact power.counts.core core
      · change (rkvdec2GetIdleCore s.cores s.disableWork).queue core = false → _
        rw [attached]
        exact power.counts.other core
      · change other ∈ s.runningList ++ [task] at there
        rcases List.mem_append.mp there with there | same
        · exact power.powered now nofun there
        · exact absurd (by rw [List.mem_singleton.mp same]) (earlier mpp)
  | @enqueue task mpp =>
      have on : PoweredBy 1 (rkvdec2CcuPowerOn s) ∧ (rkvdec2CcuPowerOn s).powerEnabled = true := by
        unfold rkvdec2CcuPowerOn
        split
        · next enabled =>
            have counts := power.counts
            rw [if_pos enabled] at counts
            exact ⟨counts, enabled⟩
        · next disabled =>
            have counts := power.counts
            rw [if_neg disabled] at counts
            exact ⟨counts.add inv.cores 1 true, rfl⟩
      refine ⟨cores, ⟨?_, fun _ _ _ => on.2, nofun⟩⟩
      change PoweredBy (if (rkvdec2CcuPowerOn s).powerEnabled then 1 else 0) _
      rw [if_pos on.2]
      exact ⟨on.1.ccu, on.1.core, on.1.other⟩
  | powerOff now empty =>
      have off : PoweredBy 0 (rkvdec2CcuPowerOff s) ∧
          (rkvdec2CcuPowerOff s).powerEnabled = false := by
        unfold rkvdec2CcuPowerOff
        split
        · next enabled =>
            have counts := power.counts
            rw [if_pos enabled] at counts
            have less := counts.add inv.cores (-1) false
            rw [Int.add_right_neg] at less
            exact ⟨less, rfl⟩
        · next disabled =>
            have counts := power.counts
            rw [if_neg disabled] at counts
            exact ⟨counts, Bool.eq_false_iff.mpr disabled⟩
      have none_running : (rkvdec2CcuPowerOff s).runningList = [] := by
        obtain ⟨_, _, _, frame⟩ := rkvdec2CcuPowerOff_frame s
        rw [frame]
        exact empty
      refine ⟨cores, ⟨?_, fun task there => ?_, fun _ enabled => ?_⟩⟩
      · change PoweredBy (if (rkvdec2CcuPowerOff s).powerEnabled then 1 else 0) _
        rw [off.2]
        exact ⟨off.1.ccu, off.1.core, off.1.other⟩
      · change task ∈ (rkvdec2CcuPowerOff s).runningList at there
        rw [none_running] at there
        cases there
      · exact absurd (off.2.symm.trans enabled) Bool.false_ne_true
  | leave now running =>
      exact ⟨cores, ⟨ccu, core, other⟩, fun _ there _ => power.powered now nofun there,
        fun _ _ => running⟩

theorem PowerInv.step (inv : PowerInv s) (taken : softStep s label = some s') : PowerInv s' := by
  rcases cases_of_softStep taken with event | ⟨-, turn⟩
  · exact inv.event event
  · exact inv.turn turn

/-- Whatever interrupts the worker, the power counts are balanced, no task is decoded without power,
and the power is off when the worker sleeps over an empty running list. -/
theorem soft_ccu_power_follows (probed : ProbedCores) (labels : List SoftLabel) :
    Always softStep PowerFollows probed.start labels :=
  always_of_invariant PowerInv (fun _ inv => inv.toPowerFollows)
    (fun _ _ _ inv taken => inv.step taken) (powerInv_start probed) labels

end SoftCcu
end Mpp
end RockchipSoc
