import Mathlib.Data.List.Count
import RockchipSoc.Rga.Custody
import RockchipSoc.Rga.Kref

/-!
# References of imports and jobs

A job takes one reference for each channel while it is started and puts it while it is retired.
The kref of a buffer is the number of its imports that are not released, plus the references that
jobs hold; a job that holds one runs or is being retired.
-/

namespace RockchipSoc
namespace Rga

open LabelledRun ActionPool

variable {cores : List Nat} {s s' : RgaState} {c j k t ptr : Nat} {head : Action}
  {rest pushed : List Action} {choice : Choice} {channel : Channel}

/-! ## Who holds a reference -/

/-- The order in which a job puts its references. -/
def Channel.rank : Channel → Nat
  | .src => 0
  | .dst => 1
  | .src1 => 2
  | .els => 3

/-- A job at this stage has put the reference of the channel. -/
def RetireStage.past : RetireStage → Channel → Bool
  | .mark, _ => false
  | .put at_, channel => channel.rank < at_.rank
  | .signal, _ | .cleanup, _ => true

/-- A start at this stage may have taken the reference of the channel. -/
def StartStage.reached : StartStage → Channel → Bool
  | .power, _ | .src, _ => false
  | .dst, channel => channel == .src
  | .pat, channel => channel == .src || channel == .dst
  | .dmaInfo, _ | .initReg, _ | .setReg, _ => true

/-- A call that retires the job and has still to put the reference of the channel. -/
def keepsRef (j : Nat) (channel : Channel) : Action → Bool
  | .retire k _ stage => k == j && !stage.past channel
  | _ => false

/-- The job runs, or is being retired and has not put the reference of the channel. -/
def Holds (s : RgaState) (j : Nat) (channel : Channel) : Prop :=
  (∃ c, running s c = some j) ∨ 0 < (pending s.threads).countP (keepsRef j channel)

def takenCount (s : RgaState) (ptr : Nat) : Nat :=
  s.ledger.taken.countP fun entry => entry.2.2 == ptr

/-- What is known of the channels of jobs: they are set only from the start of the job on, in the
order of its stages, and only for jobs with handles. -/
structure ChannelsInv (s : RgaState) : Prop where
  unqueued : ∀ j channel, (s.jobs j).buffer channel ≠ none →
    preCount s j = 0 ∧ ∀ c, j ∉ todo s c
  starting : ∀ c j stage, .start c j stage ∈ pending s.threads →
    (∀ channel, stage.reached channel = false → (s.jobs j).buffer channel = none) ∧
      (stage.serves ≠ [] → (s.jobs j).useHandle = true)
  plain : ∀ j, (s.jobs j).useHandle = false → ∀ channel, (s.jobs j).buffer channel = none
  fresh : ∀ j, s.nextJob ≤ j → ∀ channel, (s.jobs j).buffer channel = none

structure RefsInv (s : RgaState) : Prop where
  custody : CustodyInv s
  mm : MmOk s.mm
  balance : ∀ ptr, refcount s.mm ptr + s.ledger.releases ptr =
    s.ledger.imports ptr + takenCount s ptr
  owned : ∀ ptr, s.ledger.releases ptr ≤ s.ledger.imports ptr
  taken : ∀ j channel ptr, (j, channel, ptr) ∈ s.ledger.taken ↔
    (s.jobs j).buffer channel = some ptr ∧ Holds s j channel
  nodup : s.ledger.taken.Nodup
  channels : ChannelsInv s

/-- A handle is released only while an import of its buffer is not. -/
def ReleasesOwned (s : RgaState) : RgaLabel → Prop
  | .releaseBuffer handle => ∀ buffer ∈ rgaMmLookupHandle s.mm handle,
      s.ledger.releases buffer.ptr < s.ledger.imports buffer.ptr
  | _ => True

instance (s : RgaState) : (label : RgaLabel) → Decidable (ReleasesOwned s label)
  | .releaseBuffer handle => inferInstanceAs (Decidable (∀ buffer ∈ rgaMmLookupHandle s.mm handle,
      s.ledger.releases buffer.ptr < s.ledger.imports buffer.ptr))
  | .commit .. | .fenceSignaled .. | .irq .. | .call .. | .importBuffer .. => isTrue trivial

def RefsGuarded (s : RgaState) (label : RgaLabel) : Prop :=
  StartsUndisturbed s label ∧ GivesUpSettled s label ∧ ReleasesOwned s label

instance (s : RgaState) (label : RgaLabel) : Decidable (RefsGuarded s label) :=
  inferInstanceAs (Decidable
    (StartsUndisturbed s label ∧ GivesUpSettled s label ∧ ReleasesOwned s label))

/-- The kref of a buffer counts the imports that are not released and the references of jobs; the
buffer is in the table exactly as long as there are any; the holders of references are not freed,
and a running job's buffers are in the table. -/
structure RefsBalanced (s : RgaState) : Prop where
  owned : ∀ ptr, s.ledger.releases ptr ≤ s.ledger.imports ptr
  kref : ∀ ptr, refcount s.mm ptr =
    s.ledger.imports ptr - s.ledger.releases ptr + takenCount s ptr
  listed : ∀ ptr, (∃ buffer ∈ s.mm.memoryIdr, buffer.ptr = ptr) ↔
    s.ledger.releases ptr < s.ledger.imports ptr ∨ 0 < takenCount s ptr
  live : ∀ j channel ptr, (j, channel, ptr) ∈ s.ledger.taken →
    s.ledger.freed j = 0 ∧ (s.jobs j).buffer channel = some ptr
  mapped : ∀ c j channel ptr, running s c = some j → (s.jobs j).buffer channel = some ptr →
    ∃ buffer ∈ s.mm.memoryIdr, buffer.ptr = ptr

theorem Placed.waiting_of_running (placed : Placed s) (runs : running s c = some j) :
    0 < (hands s j).waiting := by
  have here := placed.runningCore c j runs
  simp only [hands, whereabouts, placeCount, here, count_toList_eq_one runs]
  omega

theorem keepsRef_isRetire {action : Action} (keeps : keepsRef j channel action = true) :
    isRetire j action = true := by
  cases action <;> simp only [keepsRef, Bool.false_eq_true] at keeps
  case retire =>
    rw [Bool.and_eq_true] at keeps
    exact keeps.1

theorem countP_keepsRef_le (actions : List Action) (j : Nat) (channel : Channel) :
    actions.countP (keepsRef j channel) ≤ actions.countP (isRetire j) :=
  List.countP_mono_left fun _ _ => keepsRef_isRetire

/-- A job that holds a reference is not freed. -/
theorem CustodyInv.unfreed (custody : CustodyInv s) (holds : Holds s j channel) :
    s.ledger.freed j = 0 := by
  have dead := (custody.single j).dead
  by_contra freed
  have none := dead (Nat.add_pos_right _ (Nat.pos_of_ne_zero freed))
  rcases holds with ⟨c, runs⟩ | retires
  · have := custody.placed.waiting_of_running runs
    omega
  · have := countP_keepsRef_le (pending s.threads) j channel
    simp only [hands] at none
    omega

theorem takenCount_pos (member : (j, channel, ptr) ∈ s.ledger.taken) : 0 < takenCount s ptr :=
  List.countP_pos_iff.mpr ⟨_, member, by simp⟩

theorem RefsInv.balanced (inv : RefsInv s) : RefsBalanced s := by
  have kref : ∀ ptr, refcount s.mm ptr =
      s.ledger.imports ptr - s.ledger.releases ptr + takenCount s ptr := fun ptr => by
    have := inv.balance ptr
    have := inv.owned ptr
    omega
  have listed : ∀ ptr, (∃ buffer ∈ s.mm.memoryIdr, buffer.ptr = ptr) ↔
      s.ledger.releases ptr < s.ledger.imports ptr ∨ 0 < takenCount s ptr := fun ptr => by
    rw [← inv.mm.refcount_pos_iff, kref]
    omega
  refine ⟨inv.owned, kref, listed, fun j channel ptr member => ?_,
    fun c j channel ptr runs buffer => ?_⟩
  · obtain ⟨buffer, holds⟩ := (inv.taken j channel ptr).mp member
    exact ⟨inv.custody.unfreed holds, buffer⟩
  · have member := (inv.taken j channel ptr).mpr ⟨buffer, Or.inl ⟨c, runs⟩⟩
    exact (listed ptr).mpr (Or.inr (takenCount_pos member))

theorem RefsInv.init : RefsInv rgaInit where
  custody := CustodyInv.init
  mm := mmOk_init
  balance := fun _ => rfl
  owned := fun _ => Nat.le_refl 0
  taken := fun j channel ptr => by simp [rgaInit]
  nodup := List.nodup_nil
  channels := ⟨fun _ _ some => absurd rfl some,
    fun _ _ _ member => by simp [rgaInit, pending] at member, fun _ _ _ => rfl, fun _ _ _ => rfl⟩

/-! ## What an action does to the references -/

theorem preCount_le_of_effect (current : s.threads[t]? = some (head :: rest))
    (effect : Effect cores s choice head s' pushed) (k : Nat) :
    preCount (resume s' s.threads t pushed rest) k ≤ preCount s k := by
  have pre : s'.fenceWaits = s.fenceWaits →
      pushed.countP (isPre k) ≤ [head].countP (isPre k) →
      preCount (resume s' s.threads t pushed rest) k ≤ preCount s k := fun same le => by
    have count : preCount (resume s' s.threads t pushed rest) k + _ = _ :=
      preCount_resume current same k
    omega
  cases effect with
  | fenceAwaited => exact Nat.le_of_eq (preCount_fenceAwaited current k)
  | put => exact pre (by rw [putChannel]; split <;> rfl) (by simp [isPre])
  | leftToCaller => exact pre (by split <;> rfl) (by simp [isPre])
  | got serves pushes =>
      refine pre rfl ?_
      rcases pushes with rfl | ⟨ret, rfl⟩ <;> simp [isPre, startFailed]
  | enqueued =>
      refine pre rfl ?_
      split <;> simp [isPre]
  | _ => exact pre rfl (by simp [isPre, startFailed, List.countP_cons])

theorem mem_todo_of_effect (effect : Effect cores s choice head s' pushed)
    (member : k ∈ todo s' c) : k ∈ todo s c ∨ isPre k head = true := by
  cases effect with
  | @enqueued c' j caller =>
      by_cases same : j = k
      · exact Or.inr (by simp [isPre, same])
      · refine Or.inl (List.count_pos_iff.mp ?_)
        have count := count_todo_enqueue s c' j c k
        rw [if_neg fun both => same both.2.symm] at count
        have := List.count_pos_iff.mpr member
        omega
  | @begun c' x queue idle listed =>
      refine Or.inl ?_
      simp only [todo, takeFirst] at member ⊢
      split at member
      · next here =>
          have listed : (s.sched c').todoList = x :: queue := listed
          rw [here, listed]
          exact List.mem_cons_of_mem x member
      · exact member
  | put =>
      rw [putChannel] at member
      split at member <;> exact Or.inl member
  | leftToCaller => split at member <;> exact Or.inl member
  | _ => exact Or.inl member

/-- A job that has left the queues stays out of them. -/
theorem unqueued_of_effect (current : s.threads[t]? = some (head :: rest))
    (effect : Effect cores s choice head s' pushed)
    (out : preCount s k = 0 ∧ ∀ c, k ∉ todo s c) :
    preCount (resume s' s.threads t pushed rest) k = 0 ∧
      ∀ c, k ∉ todo (resume s' s.threads t pushed rest) c := by
  refine ⟨Nat.eq_zero_of_le_zero (out.1 ▸ preCount_le_of_effect current effect k),
    fun c member => ?_⟩
  have member : k ∈ todo s' c := member
  rcases mem_todo_of_effect effect member with queued | isPreHead
  · exact out.2 c queued
  · have positive := List.countP_pos_iff.mpr ⟨head, head_mem_pending current, isPreHead⟩
    have := out.1
    rw [preCount] at this
    omega

theorem Placed.out_of_running (placed : Placed s) (runs : running s c = some j) :
    preCount s j = 0 ∧ ∀ c, j ∉ todo s c := by
  obtain ⟨core, pre, notQueued, _⟩ := placed.of_running runs
  refine ⟨pre, fun c' queued => ?_⟩
  obtain ⟨core', _⟩ := placed.of_mem_todo queued
  exact notQueued (core.symm.trans core' ▸ queued)

theorem holds_resume_iff (current : s.threads[t]? = some (head :: rest))
    (sameRunning : ∀ c, running s' c = some j ↔ running s c = some j)
    (sameTokens : pushed.countP (keepsRef j channel) = [head].countP (keepsRef j channel)) :
    Holds (resume s' s.threads t pushed rest) j channel ↔ Holds s j channel := by
  have count : (pending (s.threads.set t (pushed ++ rest))).countP (keepsRef j channel) + _ = _ :=
    countP_pending_set (keepsRef j channel) current
  have tokens : (pending (s.threads.set t (pushed ++ rest))).countP (keepsRef j channel) =
    (pending s.threads).countP (keepsRef j channel) := by omega
  exact or_congr (exists_congr sameRunning) (iff_of_eq (congrArg (0 < ·) tokens))

/-- The job taken from its core keeps its references with the call that retires it. -/
theorem holds_taken_iff {x : Nat} (current : s.threads[t]? = some (head :: rest))
    (runs : running s c = some x)
    (tokens : pushed.countP (keepsRef j channel) =
      [head].countP (keepsRef j channel) + if x = j then 1 else 0) :
    Holds (resume (setRunning s c none) s.threads t pushed rest) j channel ↔
      Holds s j channel := by
  by_cases same : x = j
  · subst same
    have count : (pending (s.threads.set t (pushed ++ rest))).countP (keepsRef x channel) + _ = _ :=
      countP_pending_set (keepsRef x channel) current
    rw [if_pos rfl] at tokens
    refine iff_of_true (Or.inr ?_) (Or.inl ⟨c, runs⟩)
    simp only [resume]
    omega
  · rw [if_neg same, Nat.add_zero] at tokens
    refine holds_resume_iff current (fun c' => ?_) tokens
    by_cases here : c' = c
    · subst here
      simp [running, setRunning]
      exact fun other => same (Option.some.inj (runs.symm.trans other))
    · simp [running, setRunning, here]

theorem not_past_putStage {job : RgaJob} (handles : job.useHandle = true) (channel : Channel) :
    (putStage job).past channel = false := by
  rw [putStage, if_pos handles]
  cases channel <;> rfl

/-- An action that moves no reference leaves their holders alone. -/
theorem RefsInv.holds_iff (inv : RefsInv s) (current : s.threads[t]? = some (head :: rest))
    (effect : Effect cores s choice head s' pushed)
    (settled : ∀ j ∈ givesUp choice head, (hands s j).waiting + (hands s j).retiring = 0)
    (noPut : ∀ j ending channel, head ≠ .retire j ending (.put channel))
    (some : (s.jobs j).buffer channel ≠ none) :
    Holds (resume s' s.threads t pushed rest) j channel ↔ Holds s j channel := by
  have handles : (s.jobs j).useHandle = true := by
    by_contra plain
    exact some (inv.channels.plain j (Bool.eq_false_iff.mpr plain) channel)
  cases effect with
  | @timedOut c j' caller x runs async elapsed =>
      refine holds_taken_iff current runs ?_
      by_cases same : x = j
      · subst same
        simp [keepsRef, not_past_putStage handles]
      · simp [keepsRef, same]
  | @completed c x runs =>
      refine holds_taken_iff current runs ?_
      simp [keepsRef, List.countP_cons, RetireStage.past]
  | @cleared c x =>
      refine holds_taken_iff current (inv.custody.start.starting_head current rfl).1 ?_
      by_cases same : x = j
      · subst same
        simp [keepsRef, not_past_putStage handles]
      · simp [keepsRef, same]
  | @begun c x queue idle listed =>
      have other : x ≠ j := fun same => by
        subst same
        refine (inv.channels.unqueued x channel some).2 c ?_
        rw [listed]
        exact List.mem_cons_self
      refine holds_resume_iff current (fun c' => ?_) (by simp [keepsRef])
      by_cases here : c' = c
      · subst here
        have idle : (s.sched c').runningJob = none := idle
        simp [running, takeFirst, other, idle]
      · simp [running, takeFirst, here]
  | aborted runs =>
      have waits := inv.custody.placed.waiting_of_running runs
      have := settled _ rfl
      omega
  | @marked j' ending =>
      refine holds_resume_iff current (fun _ => Iff.rfl) ?_
      by_cases same : j' = j
      · subst same
        have mark : RetireStage.mark.past channel = false := rfl
        simp [keepsRef, mark, not_past_putStage handles]
      · simp [keepsRef, same]
  | put => exact absurd rfl (noPut _ _ _)
  | leftToCaller =>
      refine holds_resume_iff current (fun _ => ?_) (by simp [keepsRef, RetireStage.past])
      split <;> exact Iff.rfl
  | got serves pushes =>
      refine holds_resume_iff current (fun _ => Iff.rfl) ?_
      rcases pushes with rfl | ⟨ret, rfl⟩ <;> simp [keepsRef, startFailed]
  | enqueued =>
      refine holds_resume_iff current (fun _ => Iff.rfl) ?_
      split <;> simp [keepsRef]
  | _ =>
      exact holds_resume_iff current (fun _ => Iff.rfl)
        (by simp [keepsRef, RetireStage.past, startFailed])

/-! ## Actions that move no reference -/

/-- Table, counts and channels stay. -/
structure SameRefs (s s' : RgaState) : Prop where
  mm : s'.mm = s.mm
  imports : s'.ledger.imports = s.ledger.imports
  releases : s'.ledger.releases = s.ledger.releases
  taken : s'.ledger.taken = s.ledger.taken
  buffer : ∀ k, (s'.jobs k).buffer = (s.jobs k).buffer
  useHandle : ∀ k, (s'.jobs k).useHandle = (s.jobs k).useHandle

theorem buffer_getChannel (s : RgaState) (c j : Nat) (channel : Channel) (addr k : Nat)
    (other : Channel) : ((getChannel s c j channel addr).2.jobs k).buffer other =
      if k = j ∧ other = channel then (rgaMmGetChannelHandleInfo s.mm c addr).buffer
      else (s.jobs k).buffer other := by
  have same : ((getChannel s c j channel addr).2.jobs k).buffer = if k = j then
    Function.update (s.jobs k).buffer channel (rgaMmGetChannelHandleInfo s.mm c addr).buffer
    else (s.jobs k).buffer := rfl
  rw [same]
  by_cases here : k = j
  · rw [if_pos here, Function.update_apply]
    simp only [here, true_and]
  · rw [if_neg here, if_neg fun both => here both.1]

/-- A stage takes references that were not reached before and are reached behind it. -/
theorem reached_following {stage : StartStage} {other : Channel} (on : stage ≠ .power)
    (serves : channel ∈ stage.serves) (ahead : stage.following.reached other = false) :
    stage.reached channel = false ∧ stage.reached other = false ∧ other ≠ channel := by
  cases stage with
  | src =>
      obtain rfl := List.mem_singleton.mp serves
      exact ⟨rfl, rfl, fun same => by
        simp [StartStage.following, StartStage.reached, same] at ahead⟩
  | dst =>
      obtain rfl := List.mem_singleton.mp serves
      simp only [StartStage.following, StartStage.reached, Bool.or_eq_false_iff,
        beq_eq_false_iff_ne] at ahead
      exact ⟨rfl, beq_eq_false_iff_ne.mpr ahead.1, ahead.2⟩
  | pat => cases ahead
  | power | dmaInfo | initReg | setReg => cases serves

/-- What the invariant says of a start that an action pushes. -/
theorem RefsInv.starting_of_pushed {core job : Nat} {stage : StartStage} (inv : RefsInv s)
    (current : s.threads[t]? = some (head :: rest))
    (effect : Effect cores s choice head s' pushed) (new : .start core job stage ∈ pushed) :
    (∀ channel, stage.reached channel = false → (s'.jobs job).buffer channel = none) ∧
      (stage.serves ≠ [] → (s'.jobs job).useHandle = true) := by
  have waiting := head_mem_pending current
  cases effect with
  | @begun c x queue idle listed =>
      obtain ⟨_, rfl, rfl⟩ : core = c ∧ job = x ∧ stage = .power := by simpa using new
      refine ⟨fun channel _ => ?_, by simp [StartStage.serves]⟩
      by_contra some
      refine (inv.channels.unqueued job channel some).2 c ?_
      rw [listed]
      exact List.mem_cons_self
  | @powered c j =>
      obtain ⟨none, _⟩ := inv.channels.starting _ _ _ waiting
      obtain ⟨_, rfl, rfl⟩ : core = c ∧ job = j ∧
        stage = if (s.jobs j).useHandle then .src else .dmaInfo := by simpa using new
      split
      · next handles => exact ⟨fun channel _ => none channel rfl, fun _ => handles⟩
      · exact ⟨fun channel reached => by simp [StartStage.reached] at reached,
          fun serves => by simp [StartStage.serves] at serves⟩
  | @passed c j stage' on under =>
      obtain ⟨_, rfl, rfl⟩ : core = c ∧ job = j ∧ stage = stage'.following := by simpa using new
      obtain ⟨none, handles⟩ := inv.channels.starting _ _ _ waiting
      refine ⟨fun channel ahead => none channel ?_, fun serves => handles ?_⟩
      · cases stage' <;> simp_all [StartStage.following, StartStage.reached]
      · cases stage' <;> simp_all [StartStage.following, StartStage.serves]
  | @got c j stage' channel addr pushed serves pushes =>
      obtain ⟨none, handles⟩ := inv.channels.starting _ _ _ waiting
      have on : stage' ≠ .power := fun isPower => by simp [isPower, StartStage.serves] at serves
      rcases pushes with rfl | ⟨ret, rfl⟩
      · obtain ⟨_, rfl, rfl⟩ : core = c ∧ job = j ∧ stage = stage'.following := by simpa using new
        refine ⟨fun other ahead => ?_, fun _ => handles (List.ne_nil_of_mem serves)⟩
        obtain ⟨_, unreached, different⟩ := reached_following on serves ahead
        rw [buffer_getChannel, if_neg fun both => different both.2]
        exact none other unreached
      · simp [startFailed] at new
  | enqueued => split at new <;> simp at new
  | _ => simp [startFailed] at new

theorem RefsInv.sameChannels (inv : RefsInv s) (current : s.threads[t]? = some (head :: rest))
    (effect : Effect cores s choice head s' pushed)
    (buffer : ∀ k, (s'.jobs k).buffer = (s.jobs k).buffer)
    (useHandle : ∀ k, (s'.jobs k).useHandle = (s.jobs k).useHandle) :
    ChannelsInv (resume s' s.threads t pushed rest) where
  unqueued := fun j channel some => by
    simp only [resume, buffer] at some
    exact unqueued_of_effect current effect (inv.channels.unqueued j channel some)
  starting := fun c j stage member => by
    rcases mem_pending_set current member with new | old
    · have known := inv.starting_of_pushed current effect new
      exact known
    · simp only [resume, buffer, useHandle]
      exact inv.channels.starting c j stage old
  plain := fun j plain channel => by
    simp only [resume, useHandle, buffer] at plain ⊢
    exact inv.channels.plain j plain channel
  fresh := fun j young channel => by
    have young : s'.nextJob ≤ j := young
    simp only [resume, buffer]
    exact inv.channels.fresh j (nextJob_of_effect effect ▸ young) channel

/-- Taking a reference: the start of the job is the only one that is concerned. -/
theorem RefsInv.gotChannels {stage : StartStage} {addr : Nat} (inv : RefsInv s)
    (current : s.threads[t]? = some (.start c j stage :: rest))
    (effect : Effect cores s choice (.start c j stage) (getChannel s c j channel addr).2 pushed)
    (serves : channel ∈ stage.serves)
    (pushes : pushed = [.start c j stage.following] ∨ ∃ ret, pushed = startFailed c j ret)
    (start : StartInv (resume (getChannel s c j channel addr).2 s.threads t pushed rest)) :
    ChannelsInv (resume (getChannel s c j channel addr).2 s.threads t pushed rest) := by
  have runs := (inv.custody.start.starting_head current rfl).1
  have handles :=
    (inv.channels.starting c j stage (head_mem_pending current)).2 (List.ne_nil_of_mem serves)
  have other : ∀ k channel', k ≠ j → ((getChannel s c j channel addr).2.jobs k).buffer channel' =
      (s.jobs k).buffer channel' := fun k channel' different => by
    rw [buffer_getChannel, if_neg fun both => different both.1]
  -- the start that goes on, or its failure, is the only pending action of a start on this core
  have only : ∀ action ∈ pending (s.threads.set t (pushed ++ rest)), isStart c action = true →
      action ∈ pushed := by
    intro action member isStartAction
    by_contra notNew
    have own : ∃ new ∈ pushed, isStart c new = true := by
      rcases pushes with rfl | ⟨ret, rfl⟩
      · exact ⟨_, List.mem_singleton_self _, by simp [isStart, startOf]⟩
      · exact ⟨.storeRet c j ret, by simp [startFailed], by simp [isStart, startOf]⟩
    obtain ⟨new, inside, isStartNew⟩ := own
    have inside' : new ∈ pending (s.threads.set t (pushed ++ rest)) :=
      mem_pending_of_pushed current inside
    have two := two_le_countP inside' member
      (fun same => notNew (same ▸ inside)) isStartNew isStartAction
    have one := start.count c
    simp only [startCount, resume] at one
    have atMost : ∀ isStarting : Bool, isStarting.toNat ≤ 1 := Bool.toNat_le
    have := atMost (Rga.starting (resume (getChannel s c j channel addr).2 s.threads t pushed
      rest) c)
    simp only [resume] at this
    omega
  refine ⟨fun k channel' some => ?_, fun core job stage' member => ?_, fun k plain channel' => ?_,
    fun k young channel' => ?_⟩
  · refine unqueued_of_effect current effect ?_
    by_cases same : k = j
    · exact same ▸ inv.custody.placed.out_of_running runs
    · simp only [resume, other k channel' same] at some
      exact inv.channels.unqueued k channel' some
  · rcases mem_pending_set current member with new | old
    · have known := inv.starting_of_pushed current effect new
      exact known
    · by_cases same : job = j
      · subst same
        have sameCore : core = c :=
          ((inv.custody.placed.runningCore core job (inv.custody.start.job _ old _ rfl)).symm.trans
            (inv.custody.placed.runningCore c job runs))
        have known := inv.starting_of_pushed current effect
          (only _ member (by simp [isStart, startOf, sameCore]))
        exact known
      · obtain ⟨none, useHandle⟩ := inv.channels.starting core job stage' old
        exact ⟨fun channel' ahead => (other job channel' same).trans (none channel' ahead),
          useHandle⟩
  · by_cases same : k = j
    · subst same
      have plain : (s.jobs k).useHandle = false := plain
      rw [handles] at plain
      cases plain
    · exact (other k channel' same).trans (inv.channels.plain k plain channel')
  · have old := (inv.custody.placed.of_running runs).2.2.2
    have young : s.nextJob ≤ k := young
    exact (other k channel' (by omega)).trans (inv.channels.fresh k young channel')

theorem RefsInv.move (inv : RefsInv s) (current : s.threads[t]? = some (head :: rest))
    (effect : Effect cores s choice head s' pushed) (same : SameRefs s s')
    (custody : CustodyInv (resume s' s.threads t pushed rest))
    (settled : ∀ j ∈ givesUp choice head, (hands s j).waiting + (hands s j).retiring = 0)
    (noPut : ∀ j ending channel, head ≠ .retire j ending (.put channel)) :
    RefsInv (resume s' s.threads t pushed rest) := by
  have channels := inv.sameChannels current effect same.buffer same.useHandle
  refine ⟨custody, ?_, fun ptr => ?_, fun ptr => ?_, fun j channel ptr => ?_, ?_, channels⟩
  · simp only [resume, same.mm]
    exact inv.mm
  · simp only [resume, takenCount, same.mm, same.imports, same.releases, same.taken]
    exact inv.balance ptr
  · simp only [resume, same.imports, same.releases]
    exact inv.owned ptr
  · have entry := inv.taken j channel ptr
    have holders : (s.jobs j).buffer channel = some ptr →
        (Holds (resume s' s.threads t pushed rest) j channel ↔ Holds s j channel) := fun buffer =>
      inv.holds_iff current effect settled noPut (by simp [buffer])
    have buffer : ((resume s' s.threads t pushed rest).jobs j).buffer channel =
      (s.jobs j).buffer channel := congrFun (same.buffer j) channel
    have taken : (resume s' s.threads t pushed rest).ledger.taken = s.ledger.taken := same.taken
    rw [taken, buffer, entry]
    exact and_congr_right fun isBuffer => (holders isBuffer).symm
  · simp only [resume, same.taken]
    exact inv.nodup

/-! ## Putting a reference -/

theorem past_afterPut (channel other : Channel) : (afterPut channel).past other =
    ((RetireStage.put channel).past other || decide (other = channel)) := by
  cases channel <;> cases other <;> rfl

theorem not_past_put (channel : Channel) : (RetireStage.put channel).past channel = false := by
  cases channel <;> rfl

section Put

variable {ending : Ending}

/-- Every other holder keeps its reference. -/
theorem holds_put_iff {other : Channel}
    (current : s.threads[t]? = some (.retire j ending (.put channel) :: rest))
    (different : k = j → other ≠ channel) :
    Holds (resume (putChannel s j channel) s.threads t [.retire j ending (afterPut channel)] rest)
      k other ↔ Holds s k other := by
  refine holds_resume_iff current (fun c => by rw [running_putChannel]) ?_
  by_cases same : j = k
  · have := different same.symm
    simp [keepsRef, past_afterPut, this]
  · simp [keepsRef, same]

theorem RefsInv.not_holds_put (inv : RefsInv s)
    (current : s.threads[t]? = some (.retire j ending (.put channel) :: rest)) :
    ¬Holds (resume (putChannel s j channel) s.threads t [.retire j ending (afterPut channel)] rest)
      j channel := by
  have retires : 0 < (hands s j).retiring :=
    List.countP_pos_iff.mpr ⟨_, head_mem_pending current, by simp [isRetire]⟩
  have once := (inv.custody.single j).once
  rintro (⟨c, runs⟩ | tokens)
  · have runs : running (putChannel s j channel) c = some j := runs
    rw [running_putChannel] at runs
    have := inv.custody.placed.waiting_of_running runs
    omega
  · have count : (pending (s.threads.set t ([.retire j ending (afterPut channel)] ++ rest))).countP
      (keepsRef j channel) + _ = _ := countP_pending_set (keepsRef j channel) current
    have before := countP_keepsRef_le (pending s.threads) j channel
    have all : (hands s j).retiring = (pending s.threads).countP (isRetire j) := rfl
    simp only [resume] at tokens
    simp [keepsRef, past_afterPut, not_past_put] at count
    simp only [List.singleton_append] at tokens
    omega

theorem RefsInv.put (inv : RefsInv s)
    (current : s.threads[t]? = some (.retire j ending (.put channel) :: rest))
    (effect : Effect cores s choice (.retire j ending (.put channel)) (putChannel s j channel)
      [.retire j ending (afterPut channel)])
    (custody : CustodyInv (resume (putChannel s j channel) s.threads t
      [.retire j ending (afterPut channel)] rest)) :
    RefsInv (resume (putChannel s j channel) s.threads t
      [.retire j ending (afterPut channel)] rest) := by
  have buffer : ∀ k, ((putChannel s j channel).jobs k).buffer = (s.jobs k).buffer := by
    intro k
    rw [putChannel]
    split <;> rfl
  have useHandle : ∀ k, ((putChannel s j channel).jobs k).useHandle = (s.jobs k).useHandle := by
    intro k
    rw [putChannel]
    split <;> rfl
  have channels := inv.sameChannels current effect buffer useHandle
  have held : Holds s j channel := Or.inr <| List.countP_pos_iff.mpr
    ⟨_, head_mem_pending current, by simp [keepsRef, not_past_put]⟩
  have gone := inv.not_holds_put current
  have others : ∀ k other, (k = j → other ≠ channel) → (Holds (resume (putChannel s j channel)
      s.threads t [.retire j ending (afterPut channel)] rest) k other ↔ Holds s k other) :=
    fun k other => holds_put_iff current
  cases pointer : (s.jobs j).buffer channel with
  | none =>
      have same : putChannel s j channel = s := by rw [putChannel, pointer]
      rw [same] at custody channels gone others ⊢
      refine ⟨custody, inv.mm, inv.balance, inv.owned, fun k other ptr => ?_, inv.nodup, channels⟩
      refine (inv.taken k other ptr).trans
        (and_congr_right fun isBuffer => (others k other ?_).symm)
      rintro rfl rfl
      rw [pointer] at isBuffer
      cases isBuffer
  | some ptr =>
      have put : putChannel s j channel = { s with
          mm := krefPut s.mm ptr
          ledger := { s.ledger with taken := s.ledger.taken.erase (j, channel, ptr) } } := by
        rw [putChannel, pointer]
      rw [put] at custody channels gone others ⊢
      have entry : (j, channel, ptr) ∈ s.ledger.taken :=
        (inv.taken j channel ptr).mpr ⟨pointer, held⟩
      obtain ⟨b, member, rfl⟩ : ∃ b ∈ s.mm.memoryIdr, b.ptr = ptr := by
        refine exists_of_refcount ?_
        have := inv.balance ptr
        have := inv.owned ptr
        have := takenCount_pos entry
        omega
      refine ⟨custody, inv.mm.krefPut b.ptr, fun ptr => ?_, inv.owned, fun k other ptr => ?_,
        inv.nodup.erase _, channels⟩
      · have count := inv.mm.refcount_krefPut member ptr
        have before := inv.balance ptr
        simp only [takenCount, resume] at before ⊢
        rw [List.countP_erase]
        by_cases same : ptr = b.ptr
        · have positive := takenCount_pos entry
          simp only [takenCount] at positive
          subst same
          rw [if_pos ⟨entry, beq_self_eq_true _⟩]
          rw [if_pos rfl] at count
          omega
        · rw [if_neg fun both => same (beq_iff_eq.mp both.2).symm]
          rw [if_neg same] at count
          omega
      · simp only [resume]
        rw [inv.nodup.mem_erase_iff, inv.taken k other ptr]
        by_cases same : k = j ∧ other = channel
        · obtain ⟨rfl, rfl⟩ := same
          refine iff_of_false ?_ fun after => gone after.2
          rintro ⟨different, isBuffer, _⟩
          rw [pointer] at isBuffer
          exact different (by rw [Option.some.inj isBuffer])
        · have different : (k, other, ptr) ≠ (j, channel, b.ptr) := fun equal => by
            simp only [Prod.mk.injEq] at equal
            exact same ⟨equal.1, equal.2.1⟩
          have holders := others k other fun here there => same ⟨here, there⟩
          exact (and_iff_right different).trans (and_congr_right fun _ => holders.symm)

end Put

/-! ## Taking a reference -/

theorem rgaMmGetChannelHandleInfo_cases (mm : RgaMm) (core addr : Nat) :
    ((rgaMmGetChannelHandleInfo mm core addr).buffer = none ∧
        (rgaMmGetChannelHandleInfo mm core addr).mm = mm) ∨
      ∃ b ∈ mm.memoryIdr, (rgaMmGetChannelHandleInfo mm core addr).buffer = some b.ptr ∧
        (rgaMmGetChannelHandleInfo mm core addr).mm = krefGet mm b.ptr := by
  rw [rgaMmGetChannelHandleInfo]
  split
  · exact Or.inl ⟨rfl, rfl⟩
  · next b found =>
      refine Or.inr ⟨b, List.mem_of_find?_eq_some found, ?_⟩
      split
      · split <;> exact ⟨rfl, rfl⟩
      · by_cases unmapped : (isRga3 core && rgaMmLookupIova b core == 0) = true
        · rw [if_pos unmapped]
          exact ⟨rfl, rfl⟩
        · rw [if_neg unmapped]
          exact ⟨rfl, rfl⟩
      · exact ⟨rfl, rfl⟩
      · exact ⟨rfl, rfl⟩

theorem RefsInv.get {stage : StartStage} {addr : Nat} (inv : RefsInv s)
    (current : s.threads[t]? = some (.start c j stage :: rest))
    (effect : Effect cores s choice (.start c j stage) (getChannel s c j channel addr).2 pushed)
    (serves : channel ∈ stage.serves)
    (pushes : pushed = [.start c j stage.following] ∨ ∃ ret, pushed = startFailed c j ret)
    (custody : CustodyInv (resume (getChannel s c j channel addr).2 s.threads t pushed rest)) :
    RefsInv (resume (getChannel s c j channel addr).2 s.threads t pushed rest) := by
  have channels :=
    inv.gotChannels current effect serves pushes custody.start
  have runs := (inv.custody.start.starting_head current rfl).1
  have unreached : stage.reached channel = false := by
    cases stage <;> simp [StartStage.serves] at serves
    · rfl
    · subst serves
      rfl
    · rcases serves with rfl | rfl <;> rfl
  have empty : (s.jobs j).buffer channel = none :=
    (inv.channels.starting c j stage (head_mem_pending current)).1 channel unreached
  have holders : ∀ k other, Holds (resume (getChannel s c j channel addr).2 s.threads t pushed rest)
      k other ↔ Holds s k other := fun k other => by
    refine holds_resume_iff current (fun _ => Iff.rfl) ?_
    rcases pushes with rfl | ⟨ret, rfl⟩ <;> simp [keepsRef, startFailed]
  have buffer : ∀ k other, ((resume (getChannel s c j channel addr).2 s.threads t pushed
      rest).jobs k).buffer other = if k = j ∧ other = channel then
        (rgaMmGetChannelHandleInfo s.mm c addr).buffer else (s.jobs k).buffer other :=
    buffer_getChannel s c j channel addr
  have noEntry : ∀ ptr, (j, channel, ptr) ∉ s.ledger.taken := fun ptr member => by
    have isBuffer := ((inv.taken j channel ptr).mp member).1
    rw [empty] at isBuffer
    cases isBuffer
  have taken : (resume (getChannel s c j channel addr).2 s.threads t pushed rest).ledger.taken =
    ((rgaMmGetChannelHandleInfo s.mm c addr).buffer.toList.map fun ptr => (j, channel, ptr)) ++
      s.ledger.taken := rfl
  have mm : (resume (getChannel s c j channel addr).2 s.threads t pushed rest).mm =
    (rgaMmGetChannelHandleInfo s.mm c addr).mm := rfl
  have entries : ∀ k other ptr,
      (k, other, ptr) ∈ (resume (getChannel s c j channel addr).2 s.threads t pushed
        rest).ledger.taken ↔ ((resume (getChannel s c j channel addr).2 s.threads t pushed
          rest).jobs k).buffer other = some ptr ∧ Holds (resume (getChannel s c j channel addr).2
            s.threads t pushed rest) k other := by
    intro k other ptr
    rw [taken, buffer, holders, List.mem_append]
    by_cases same : k = j ∧ other = channel
    · obtain ⟨rfl, rfl⟩ := same
      have held : Holds s k other := Or.inl ⟨c, runs⟩
      simp [noEntry ptr, held]
    · rw [if_neg same, ← inv.taken k other ptr]
      refine or_iff_right fun new => ?_
      simp only [List.mem_map, Prod.mk.injEq] at new
      obtain ⟨_, _, rfl, rfl, _⟩ := new
      exact same ⟨rfl, rfl⟩
  rcases rgaMmGetChannelHandleInfo_cases s.mm c addr with ⟨none, sameMm⟩ | ⟨b, member, some, got⟩
  · refine ⟨custody, ?_, fun ptr => ?_, inv.owned, entries, ?_, channels⟩
    · rw [mm, sameMm]
      exact inv.mm
    · simp only [takenCount, mm, sameMm, taken, none]
      exact inv.balance ptr
    · rw [taken, none]
      exact inv.nodup
  · refine ⟨custody, ?_, fun ptr => ?_, inv.owned, entries, ?_, channels⟩
    · rw [mm, got]
      exact inv.mm.krefGet b.ptr
    · have before := inv.balance ptr
      have count := inv.mm.refcount_krefGet member ptr
      simp only [takenCount, mm, got, taken, some] at before ⊢
      simp only [Option.toList_some, List.map_cons, List.map_nil, List.singleton_append,
        List.countP_cons, beq_iff_eq, eq_comm (a := b.ptr)]
      simp only [resume]
      have imports : (getChannel s c j channel addr).2.ledger.imports = s.ledger.imports := rfl
      have releases : (getChannel s c j channel addr).2.ledger.releases = s.ledger.releases := rfl
      rw [imports, releases]
      omega
    · rw [taken, some]
      exact List.nodup_cons.mpr ⟨noEntry b.ptr, inv.nodup⟩

/-! ## Steps -/

theorem RefsInv.effect (inv : RefsInv s) (current : s.threads[t]? = some (head :: rest))
    (effect : Effect cores s choice head s' pushed)
    (custody : CustodyInv (resume s' s.threads t pushed rest))
    (settled : ∀ j ∈ givesUp choice head, (hands s j).waiting + (hands s j).retiring = 0) :
    RefsInv (resume s' s.threads t pushed rest) := by
  have whole := effect
  cases effect with
  | put => exact inv.put current whole custody
  | got serves pushes => exact inv.get current whole serves pushes custody
  | leftToCaller =>
      refine inv.move current whole ?_ custody settled (by simp)
      split <;> exact ⟨rfl, rfl, rfl, rfl, fun _ => rfl, fun _ => rfl⟩
  | _ =>
      exact inv.move current whole ⟨rfl, rfl, rfl, rfl, fun _ => rfl, fun _ => rfl⟩ custody settled
        (by simp)

/-- A new job holds nothing, and threads that are added retire nothing. -/
theorem RefsInv.spawn (inv : RefsInv s) (custody : CustodyInv s') (mm : s'.mm = s.mm)
    (imports : s'.ledger.imports = s.ledger.imports)
    (releases : s'.ledger.releases = s.ledger.releases)
    (taken : s'.ledger.taken = s.ledger.taken)
    (sameRunning : ∀ c, running s' c = running s c) (sameTodo : ∀ c, todo s' c = todo s c)
    (old : ∀ k, k < s.nextJob → (s'.jobs k).buffer = (s.jobs k).buffer ∧
      (s'.jobs k).useHandle = (s.jobs k).useHandle ∧ preCount s' k = preCount s k)
    (new : ∀ k, s.nextJob ≤ k → ∀ channel, (s'.jobs k).buffer channel = none)
    (older : s.nextJob ≤ s'.nextJob)
    (retires : ∀ k channel, (pending s'.threads).countP (keepsRef k channel) =
      (pending s.threads).countP (keepsRef k channel))
    (starts : ∀ c k stage, .start c k stage ∈ pending s'.threads →
      .start c k stage ∈ pending s.threads) : RefsInv s' := by
  have holders : ∀ k channel, Holds s' k channel ↔ Holds s k channel := fun k channel =>
    or_congr (exists_congr fun c => by rw [sameRunning]) (by rw [retires])
  have known : ∀ k channel, Holds s k channel → k < s.nextJob := fun k channel holds => by
    by_contra young
    rcases holds with ⟨c, runs⟩ | tokens
    · exact absurd (inv.custody.placed.of_running runs).2.2.2 young
    · have none := (inv.custody.placed.hands_fresh (Nat.le_of_not_lt young)).2.1
      have := countP_keepsRef_le (pending s.threads) k channel
      simp only [hands] at none
      omega
  refine ⟨custody, mm ▸ inv.mm, fun ptr => ?_, fun ptr => ?_, fun k channel ptr => ?_, ?_,
    fun k channel some => ?_, fun c k stage member => ?_, fun k plain channel => ?_,
    fun k young => new k (Nat.le_trans older young)⟩
  · rw [takenCount, mm, imports, releases, taken]
    exact inv.balance ptr
  · rw [imports, releases]
    exact inv.owned ptr
  · rw [taken, inv.taken, holders]
    by_cases young : k < s.nextJob
    · rw [(old k young).1]
    · have nobody : ¬Holds s k channel := fun holds => young (known k channel holds)
      simp [nobody]
  · rw [taken]
    exact inv.nodup
  · by_cases young : k < s.nextJob
    · obtain ⟨buffer, _, pre⟩ := old k young
      rw [buffer] at some
      obtain ⟨waits, notQueued⟩ := inv.channels.unqueued k channel some
      exact ⟨pre.trans waits, fun c => by rw [sameTodo]; exact notQueued c⟩
    · exact absurd (new k (Nat.le_of_not_lt young) channel) some
  · have before := starts c k stage member
    obtain ⟨_, _, _, young⟩ := inv.custody.placed.actions _ before
    obtain ⟨buffer, useHandle, _⟩ := old k young
    rw [buffer, useHandle]
    exact inv.channels.starting c k stage before
  · by_cases young : k < s.nextJob
    · obtain ⟨buffer, useHandle, _⟩ := old k young
      rw [useHandle] at plain
      rw [buffer]
      exact inv.channels.plain k plain channel
    · exact new k (Nat.le_of_not_lt young) channel

theorem RefsInv.committed (inv : RefsInv s) (req : RgaReq) (async fenceFd : Bool)
    (fence : InFence) (custody : CustodyInv (commit s req async fence (.ready fenceFd))) :
    RefsInv (commit s req async fence (.ready fenceFd)) := by
  have job : ∀ k, k ≠ s.nextJob →
      (commit s req async fence (.ready fenceFd)).jobs k = s.jobs k := fun k other => if_neg other
  have pool : (commit s req async fence (.ready fenceFd)).threads = s.threads ++
      [[if async then .inputFence s.nextJob fence else .assign s.nextJob .sync]] := rfl
  refine inv.spawn custody rfl rfl rfl rfl (fun _ => rfl) (fun _ => rfl) (fun k old => ?_)
    (fun k young channel => ?_) (Nat.le_succ _) (fun k channel => ?_) fun c k stage member => ?_
  · refine ⟨by rw [job k (Nat.ne_of_lt old)], by rw [job k (Nat.ne_of_lt old)], ?_⟩
    have other : s.nextJob ≠ k := Ne.symm (Nat.ne_of_lt old)
    simp only [preCount, pool, countP_pending_spawn]
    cases async <;> simp [isPre, other, commit]
  · by_cases new : k = s.nextJob
    · rw [new]
      simp [commit, rgaJobAlloc]
    · rw [job k new]
      exact inv.channels.fresh k young channel
  · rw [pool, countP_pending_spawn]
    cases async <;> rfl
  · rw [pool] at member
    refine (mem_pending_spawn.mp member).resolve_right fun new => ?_
    cases async <;> simp at new

theorem RefsInv.imported {external : RgaExternalBuffer} {env : ImportEnv} (inv : RefsInv s)
    (custody : CustodyInv (importBuffer cores s external env)) :
    RefsInv (importBuffer cores s external env) := by
  obtain ⟨mm, counts⟩ := inv.mm.imports (imports_rgaMmImportBuffer cores env s.mm external)
  refine ⟨custody, mm, fun ptr => ?_, fun ptr => ?_, inv.taken, inv.nodup, ?_⟩
  · have count := counts ptr
    have before := inv.balance ptr
    have imports : (importBuffer cores s external env).ledger.imports ptr =
      s.ledger.imports ptr + if importedPtr (rgaMmImportBuffer cores env s.mm external).1
        (rgaMmImportBuffer cores env s.mm external).2 = some ptr then 1 else 0 := rfl
    rw [imports]
    simp only [importBuffer, takenCount] at before ⊢
    rw [count]
    omega
  · exact Nat.le_trans (inv.owned ptr) (Nat.le_add_right _ _)
  · exact ⟨inv.channels.unqueued, inv.channels.starting, inv.channels.plain, inv.channels.fresh⟩

theorem RefsInv.released {handle : Nat} (inv : RefsInv s)
    (custody : CustodyInv (releaseBuffer s handle))
    (owned : ReleasesOwned s (.releaseBuffer handle)) : RefsInv (releaseBuffer s handle) := by
  have channels : ChannelsInv (releaseBuffer s handle) :=
    ⟨inv.channels.unqueued, inv.channels.starting, inv.channels.plain, inv.channels.fresh⟩
  cases found : rgaMmLookupHandle s.mm handle with
  | none =>
      have same : (releaseBuffer s handle).mm = s.mm := by
        simp only [releaseBuffer, rgaMmReleaseBuffer, found]
      refine ⟨custody, same ▸ inv.mm, fun ptr => ?_, fun ptr => ?_, inv.taken, inv.nodup, channels⟩
      · rw [same]
        simpa [releaseBuffer, found, takenCount] using inv.balance ptr
      · simpa [releaseBuffer, found] using inv.owned ptr
  | some b =>
      have member : b ∈ s.mm.memoryIdr := List.mem_of_find?_eq_some found
      have less := owned b found
      have put : (releaseBuffer s handle).mm = krefPut s.mm b.ptr := by
        simp only [releaseBuffer, rgaMmReleaseBuffer, found]
      have releases : ∀ ptr, (releaseBuffer s handle).ledger.releases ptr =
          s.ledger.releases ptr + if ptr = b.ptr then 1 else 0 := fun ptr => by
        simp only [releaseBuffer, found, Option.map_some, Option.some.injEq, eq_comm (a := b.ptr)]
      refine ⟨custody, put ▸ inv.mm.krefPut b.ptr, fun ptr => ?_, fun ptr => ?_, inv.taken,
        inv.nodup, channels⟩
      · have count := inv.mm.refcount_krefPut member ptr
        have before := inv.balance ptr
        rw [put, releases]
        simp only [releaseBuffer, takenCount] at before ⊢
        omega
      · have before := inv.owned ptr
        rw [releases]
        simp only [releaseBuffer]
        split
        · next same =>
            subst same
            exact less
        · exact before

theorem RefsInv.step {label : RgaLabel} (inv : RefsInv s) (guarded : RefsGuarded s label)
    (taken : rgaStep cores s label = some s') : RefsInv s' := by
  obtain ⟨undisturbed, settled, owned⟩ := guarded
  have steps := steps_of_rgaStep taken
  have moves := inv.custody.placed.step taken
  have custody := inv.custody.step steps moves.placed moves.older undisturbed settled
  cases steps with
  | refused => exact inv
  | undone =>
      exact inv.spawn custody rfl rfl rfl rfl (fun _ => rfl) (fun _ => rfl)
        (fun _ _ => ⟨rfl, rfl, rfl⟩) inv.channels.fresh (Nat.le_succ _) (fun _ _ => rfl)
        fun _ _ _ => id
  | committed => exact inv.committed _ _ _ _ custody
  | @fenceSignaled j waits =>
      refine inv.spawn custody rfl rfl rfl rfl (fun _ => rfl) (fun _ => rfl)
        (fun k _ => ⟨rfl, rfl, ?_⟩) inv.channels.fresh (Nat.le_refl _) (fun k channel => ?_)
        fun c k stage member => ?_
      · have same := congrArg Hands.waiting (hands_fenceSignaled waits k)
        simp only [hands, whereabouts, placeCount, todo, running] at same
        omega
      · rw [countP_pending_spawn]
        rfl
      · simpa using mem_pending_spawn.mp member
  | @irq c =>
      refine inv.spawn custody rfl rfl rfl rfl (fun _ => rfl) (fun _ => rfl)
        (fun k _ => ⟨rfl, rfl, ?_⟩) inv.channels.fresh (Nat.le_refl _) (fun k channel => ?_)
        fun c k stage member => ?_
      · have same := congrArg Hands.waiting (hands_irq s c k)
        simp only [hands, whereabouts, placeCount, todo, running] at same
        exact Nat.add_right_cancel same
      · rw [countP_pending_spawn]
        rfl
      · simpa using mem_pending_spawn.mp member
  | call current effect =>
      exact inv.effect current effect custody (settled _ (by simp [executing, current]))
  | imported => exact inv.imported custody
  | released => exact inv.released custody owned

/-- A physical address that is mapped for no scheduler. -/
def physicalImport : RgaLabel :=
  .importBuffer ⟨4096, .physicalAddress, ⟨16, 16, 0⟩⟩
    { currentMm := none, dmaBuf := none, kzallocBuffer := true, kcallocDmaBuffer := true
      dmaMapFd := fun _ => none, stackFormat := none, getFreePages := fun _ => true
      getUserPages := 0, kzallocVirtAddr := true, allocSgt := fun _ => true, checkRangeSgt := true
      iommuMap := fun _ => (0, 0), dmaMapSg := fun _ => 0, idrAlloc := true }

/-- A job that reads and writes the buffer of handle one. -/
def handleReq : RgaReq := ⟨1, 1, 0, false, true, 0⟩

/-- A sync job with handles runs. -/
def handleJobRuns : List RgaLabel :=
  [physicalImport, .commit handleReq false (.ready false) .absent] ++ scheduleOn 0 1 ++ proceed 0 7

/-- How many jobs that are not freed took a buffer. -/
def liveTakers (s : RgaState) (ptr : Nat) : Nat :=
  ((s.ledger.taken.filter fun entry => entry.2.2 == ptr && s.ledger.freed entry.1 == 0).map
    Prod.fst).dedup.length

end Rga
end RockchipSoc
