import RockchipSoc.Foundation.LabelledRun
import RockchipSoc.Omx.ResourceLists

/-!
# Who has a place

While nothing goes wrong, a component has a place exactly in its active states, apart from the time
between the two halves of a command and from an Idle component that had to give its place and has
not yet carried out the command to go to Loaded.  Failures between taking the place and becoming
Idle, a codec that cannot be initialised, a busy component that is preempted and a waiting one that
becomes Idle all break the rule.
-/

namespace RockchipSoc
namespace Omx

open LabelledRun

variable {C : Type*} {codecType : C → CodecType}
  {ports : C → PortIndex → PortConfig} {sys sys' : OmxSystem C} {comp other : C}
  {env : RmEnv}

/-! ### What should hold -/

/-- No command is queued or in progress. -/
def OmxSystem.Quiet (sys : OmxSystem C) : Prop :=
  ∀ comp, sys.messageQ comp = [] ∧ sys.running comp = none

/-- When nothing is queued or in progress, an active component occurs once in the list of its type
and any other does not occur there; and no more components of a type are active than there are
places. -/
def ResourcesFollow [DecidableEq C] (codecType : C → CodecType) (sys : OmxSystem C) : Prop :=
  sys.Quiet →
    (∀ comp, (sys.members (codecType comp)).count comp =
      if (sys.currentState comp).Active then 1 else 0) ∧
    ∀ type (active : List C), active.Nodup →
      (∀ comp ∈ active, codecType comp = type ∧ (sys.currentState comp).Active) →
      active.length ≤ maxResource type

/-! ### The condition -/

/-- The commands take an Idle component to Loaded or Invalid before anything else. -/
def goesDown : List (Option OmxState) → Bool
  | [] => false
  | some .loaded :: _ | some .invalid :: _ => true
  | some .executing :: _ | some .pause :: _ => false
  | _ :: rest => goesDown rest

/-- The command in progress and those in the queue. -/
def OmxSystem.pending (sys : OmxSystem C) (comp : C) : List (Option OmxState) :=
  (sys.running comp).toList ++ sys.messageQ comp

/-- A component that is told to give its place is Idle, and does nothing else before. -/
def PreemptOk (sys : OmxSystem C) (env : RmEnv) (low : RmEntry C) : Prop :=
  sys.currentState low.comp = .idle ∧
    (env.queued = true → goesDown (sys.pending low.comp ++ [some .loaded]) = true)

/-- What has to go well in the second half of a command. -/
structure FinishOk (ports : PortIndex → PortConfig) (comp : OmxComponent) (env : CommandEnv)
    (destState : Option OmxState) (queue : List (Option OmxState)) : Prop where
  created : comp.currentState = .loaded → destState = some .idle → env.abend = true ∨
    ∀ object ∈ bufferSems ++ mutexes ports ++ [.outputThread, .inputThread],
      env.creates object = true
  codec : comp.currentState = .idle → destState = some .executing →
    env.codecInit = true ∨ goesDown queue = true
  waiting : comp.currentState = .waitForResources → destState = some .idle → goesDown queue = true

/-- The condition on a step. -/
def StepOk (codecType : C → CodecType) (ports : C → PortIndex → PortConfig) (sys : OmxSystem C) :
    OmxLabel C → Prop
  | .start comp env =>
      beginsWith (sys.currentState comp) (sys.messageQ comp).head?.join = some .getResource →
        ∀ low ∈ preempted codecType sys comp, PreemptOk sys env low
  | .finish comp env _ => ∀ destState ∈ sys.running comp,
      FinishOk (ports comp) (sys.comps comp) env destState (sys.messageQ comp)
  | _ => True

theorem goesDown_append {commands more : List (Option OmxState)} (down : goesDown commands = true) :
    goesDown (commands ++ more) = true := by
  induction commands with
  | nil => cases down
  | cons command commands ih =>
      rcases command with _ | state
      · exact ih down
      · cases state
        all_goals first | exact ih down | exact down

/-! ### Who should have a place -/

/-- Between two commands the active components should have a place; within a command, those that
have taken one and not those that have given it back. -/
def Entitled (state : OmxState) (running : Option (Option OmxState)) : Prop :=
  match running.bind (beginsWith state) with
  | some .getResource => True
  | some .releaseResource => False
  | _ => state.Active

/-- A component has a place if it should; or it is Idle, has lost its place and is about to be
told so. -/
def PlacedAt (held : Prop) (state : OmxState) (running : Option (Option OmxState))
    (queue : List (Option OmxState)) : Prop :=
  (held ↔ Entitled state running) ∨
    (¬held ∧ state = .idle ∧ goesDown (running.toList ++ queue) = true)

def Placed (codecType : C → CodecType) (sys : OmxSystem C) (comp : C) : Prop :=
  PlacedAt (Held codecType sys comp) (sys.currentState comp) (sys.running comp) (sys.messageQ comp)

/-- What holds in every state reached. -/
structure Accounted (codecType : C → CodecType) (sys : OmxSystem C) : Prop where
  lists : ListsOk codecType sys
  placed : ∀ comp, Placed codecType sys comp

section placed

variable {held : Prop} {state : OmxState} {running : Option (Option OmxState)}
  {destState : Option OmxState} {queue : List (Option OmxState)}

theorem PlacedAt.append (placed : PlacedAt held state running queue)
    (more : List (Option OmxState)) : PlacedAt held state running (queue ++ more) := by
  refine placed.imp_right fun ⟨lost, idle, down⟩ => ⟨lost, idle, ?_⟩
  rw [← List.append_assoc]
  exact goesDown_append down

theorem PlacedAt.lost (placed : PlacedAt held state running queue)
    (bare : ¬Entitled state running) : ¬held :=
  placed.elim (fun entitled place => bare (entitled.mp place)) And.left

theorem PlacedAt.place (placed : PlacedAt held state running queue)
    (entitled : Entitled state running)
    (stays : state = .idle → goesDown (running.toList ++ queue) = false) : held := by
  rcases placed with held_iff | ⟨-, idle, down⟩
  · exact held_iff.mpr entitled
  · rw [stays idle] at down
    cases down

/-- The first call of a command is made for no other transition. -/
theorem beginsWith_cases (state : OmxState) (destState : Option OmxState) :
    (beginsWith state destState = some .getResource ∧ state = .loaded) ∨
      beginsWith state destState = some .releaseResource ∨ beginsWith state destState = none := by
  rcases destState with _ | dest
  · exact .inr (.inr rfl)
  · cases state <;> cases dest <;> decide

/-- The commands after a refused one are the ones that count. -/
theorem PlacedAt.refused (placed : PlacedAt held state none (destState :: queue))
    (refuse : refused state destState = true) : PlacedAt held state none queue := by
  refine placed.imp_right fun ⟨lost, idle, down⟩ => ⟨lost, idle, ?_⟩
  subst idle
  obtain rfl : destState = some .idle := by
    rcases destState with _ | dest
    · cases refuse
    · cases dest <;> first | rfl | cases refuse
  exact down

/-- A command begins without a call. -/
theorem PlacedAt.begun (placed : PlacedAt held state none (destState :: queue))
    (none : beginsWith state destState = none) : PlacedAt held state (some destState) queue := by
  refine placed.imp_left fun entitled => entitled.trans ?_
  simp only [Entitled, Option.bind_none, Option.bind_some, none]

theorem PlacedAt.released (lost : ¬held)
    (release : beginsWith state destState = some .releaseResource) :
    PlacedAt held state (some destState) queue := by
  refine .inl (iff_of_false lost ?_)
  simp only [Entitled, Option.bind_some, release, not_false_eq_true]

theorem PlacedAt.granted (got : held) (get : beginsWith state destState = some .getResource) :
    PlacedAt held state (some destState) queue := by
  refine .inl (iff_of_true got ?_)
  simp only [Entitled, Option.bind_some, get]

theorem placedAt_loaded : PlacedAt held .loaded none queue ↔ ¬held := by
  have inactive : ¬OmxState.Active .loaded := by decide
  simp [PlacedAt, Entitled, inactive]

end placed

theorem Placed.congr (placed : Placed codecType sys comp)
    (held : Held codecType sys' comp ↔ Held codecType sys comp)
    (comps : sys'.comps comp = sys.comps comp) (running : sys'.running comp = sys.running comp)
    (messageQ : ∃ more, sys'.messageQ comp = sys.messageQ comp ++ more) :
    Placed codecType sys' comp := by
  have state : sys'.currentState comp = sys.currentState comp := congrArg _ comps
  obtain ⟨more, queue⟩ := messageQ
  unfold Placed
  rw [state, running, propext held, queue]
  exact placed.append more

theorem Placed.grown (placed : Placed codecType sys comp) (grown : Grown sys sys')
    (held : Held codecType sys' comp ↔ Held codecType sys comp) : Placed codecType sys' comp :=
  placed.congr held (congrFun grown.comps comp) (congrFun grown.running comp) (grown.messageQ comp)

variable [DecidableEq C]

@[simp] theorem held_setRunning {command : Option (Option OmxState)} :
    Held codecType (sys.setRunning comp command) other ↔ Held codecType sys other := Iff.rfl

theorem Placed.setRunning {command : Option (Option OmxState)} (differ : other ≠ comp)
    (placed : Placed codecType sys other) : Placed codecType (sys.setRunning comp command) other :=
  placed.congr Iff.rfl rfl (Function.update_of_ne differ ..) ⟨[], (List.append_nil _).symm⟩

theorem Placed.setComp {value : OmxComponent} (differ : other ≠ comp)
    (placed : Placed codecType sys other) : Placed codecType (sys.setComp comp value) other :=
  placed.congr Iff.rfl (Function.update_of_ne differ ..) rfl ⟨[], (List.append_nil _).symm⟩

/-! ### The first half of a command -/

/-- A system in which a component's next command was dequeued. -/
def OmxSystem.dequeue (sys : OmxSystem C) (comp : C) (rest : List (Option OmxState)) :
    OmxSystem C :=
  { sys with messageQ := Function.update sys.messageQ comp rest }

theorem Placed.dequeue {rest : List (Option OmxState)} (differ : other ≠ comp)
    (placed : Placed codecType sys other) : Placed codecType (sys.dequeue comp rest) other :=
  placed.congr Iff.rfl rfl rfl ⟨[], by simp [OmxSystem.dequeue, differ]⟩

section start

variable {destState : Option OmxState} {rest : List (Option OmxState)}

theorem placed_setRunning_self {command : Option (Option OmxState)}
    (self : PlacedAt (Held codecType sys comp) (sys.currentState comp) command
      (sys.messageQ comp)) : Placed codecType (sys.setRunning comp command) comp := by
  have running : (sys.setRunning comp command).running comp = command := Function.update_self ..
  rw [Placed, running]
  exact self

/-- A component takes a place, or is not granted one. -/
theorem accounted_getResource (lists : ListsOk codecType sys)
    (placed : ∀ other, Placed codecType sys other) (loaded : sys.currentState comp = .loaded)
    (free : sys.running comp = none)
    (ok : ∀ low ∈ preempted codecType sys comp, PreemptOk sys env low)
    (get : beginsWith (sys.currentState comp) destState = some .getResource) :
    Accounted codecType (if ¬(getResource codecType sys comp env).2 then
      (getResource codecType sys comp env).1
      else (getResource codecType sys comp env).1.setRunning comp (some destState)) := by
  have self := placed comp
  rw [Placed, loaded, free, placedAt_loaded] at self
  obtain ⟨grown, lists', held, others⟩ := @ListsOk.got C codecType sys comp env _ lists self
  have state : ∀ other, (getResource codecType sys comp env).1.currentState other =
      sys.currentState other := fun other => congrArg _ (congrFun grown.comps other)
  have kept : ∀ other, other ≠ comp →
      Placed codecType (getResource codecType sys comp env).1 other := by
    intro other differ
    rcases others other differ with same | ⟨low, found, rfl, lost, told⟩
    · exact (placed other).grown grown same
    · obtain ⟨idle, down⟩ := ok low found
      obtain ⟨queued, queue⟩ := told idle
      refine .inr ⟨lost, (state low.comp).trans idle, ?_⟩
      rw [grown.running, queue, ← List.append_assoc]
      exact down queued
  split
  · next denied =>
      refine ⟨lists', fun other => ?_⟩
      by_cases same : other = comp
      · subst same
        rw [Placed, state, loaded, grown.running, free, placedAt_loaded, held]
        exact denied
      · exact kept other same
  · next granted =>
      refine ⟨lists'.congr rfl, fun other => ?_⟩
      by_cases same : other = comp
      · subst same
        refine placed_setRunning_self (PlacedAt.granted (held.mpr (not_not.mp granted)) ?_)
        rw [state]
        exact get
      · exact (kept other same).setRunning same

/-- The other components do not notice that a command was dequeued. -/
theorem pending_dequeue (differ : other ≠ comp) :
    (sys.dequeue comp rest).pending other = sys.pending other := by
  simp [OmxSystem.pending, OmxSystem.dequeue, differ]

theorem Accounted.dequeue (accounted : Accounted codecType sys)
    (self : Placed codecType (sys.dequeue comp rest) comp) :
    Accounted codecType (sys.dequeue comp rest) := by
  refine ⟨accounted.lists.congr rfl, fun other => ?_⟩
  by_cases same : other = comp
  · exact same ▸ self
  · exact (accounted.placed other).dequeue same

/-- A component gives its place back before it is unloaded or becomes Invalid. -/
theorem accounted_releaseResource (lists : ListsOk codecType sys)
    (placed : ∀ other, other ≠ comp → Placed codecType sys other)
    (release : beginsWith (sys.currentState comp) destState = some .releaseResource) :
    Accounted codecType
      ((releaseResource codecType sys comp env).1.setRunning comp (some destState)) := by
  obtain ⟨grown, -⟩ := @releaseResource_spec C codecType sys comp env _
  obtain ⟨lists', held⟩ := @ListsOk.released C codecType sys comp env _ lists
  refine ⟨lists'.congr rfl, fun other => ?_⟩
  by_cases same : other = comp
  · subst same
    refine placed_setRunning_self (PlacedAt.released (fun place => ((held _).mp place).2 rfl) ?_)
    rw [OmxSystem.currentState, grown.comps]
    exact release
  · exact ((placed other same).grown grown (by simp [held, same])).setRunning same

theorem accounted_startCommand (accounted : Accounted codecType sys)
    (free : sys.running comp = none) (queue : sys.messageQ comp = destState :: rest)
    (ok : beginsWith (sys.currentState comp) destState = some .getResource →
      ∀ low ∈ preempted codecType sys comp, PreemptOk sys env low) :
    Accounted codecType (startCommand codecType (sys.dequeue comp rest) comp destState env) := by
  have self := accounted.placed comp
  rw [Placed, free, queue] at self
  have others : ∀ other, other ≠ comp → Placed codecType (sys.dequeue comp rest) other :=
    fun other differ => (accounted.placed other).dequeue differ
  have lists : ListsOk codecType (sys.dequeue comp rest) := accounted.lists.congr rfl
  have left : (sys.dequeue comp rest).messageQ comp = rest := Function.update_self ..
  have free' : (sys.dequeue comp rest).running comp = none := free
  have state : (sys.dequeue comp rest).currentState comp = sys.currentState comp := rfl
  unfold startCommand
  rw [state]
  split
  · next refuse =>
      refine accounted.dequeue ?_
      rw [Placed, left, free']
      exact self.refused refuse
  · rcases beginsWith_cases (sys.currentState comp) destState with ⟨get, loaded⟩ | release | begun
    · have absent : ¬Held codecType sys comp := placedAt_loaded.mp (loaded ▸ self)
      have dequeued : Accounted codecType (sys.dequeue comp rest) := accounted.dequeue <| by
        rw [Placed, state, loaded, free', placedAt_loaded]
        exact absent
      have ok' : ∀ low ∈ preempted codecType (sys.dequeue comp rest) comp,
          PreemptOk (sys.dequeue comp rest) env low := by
        intro low found
        have differ : low.comp ≠ comp := fun same =>
          absent (same ▸ accounted.lists.held_preempted found)
        refine (ok get low found).imp_right fun down queued => ?_
        rw [pending_dequeue differ]
        exact down queued
      have after := accounted_getResource lists dequeued.placed loaded free' ok' get
      rw [get]
      simpa only [rmCall, true_and] using after
    · rw [release]
      simp only [rmCall, reduceCtorEq, false_and, if_false]
      exact accounted_releaseResource lists others release
    · rw [begun]
      refine ⟨lists.congr rfl, fun other => ?_⟩
      by_cases same : other = comp
      · subst same
        refine placed_setRunning_self ?_
        rw [left]
        exact self.begun begun
      · exact (others other same).setRunning same

end start

/-! ### The second half of a command -/

section finish

variable {ports : PortIndex → PortConfig} {env : CommandEnv} {comp : OmxComponent} {held : Prop}
  {destState : Option OmxState} {queue : List (Option OmxState)}

/-- After the second half a component is where it should be, provided it keeps its place unless it
gives it back. -/
def Finished (held : Prop) (queue : List (Option OmxState))
    (result : OmxComponent × Option RmCall) : Prop :=
  result.2 ≠ some .getResource ∧
    PlacedAt (held ∧ result.2 ≠ some .releaseResource) result.1.currentState none queue

theorem finished_kept {result : OmxComponent × Option RmCall}
    (quiet : result.2 ≠ some .getResource ∧ result.2 ≠ some .releaseResource)
    (placed : PlacedAt held result.1.currentState none queue) : Finished held queue result := by
  refine ⟨quiet.1, ?_⟩
  rwa [and_iff_left quiet.2]

/-- Once a place was granted and the creations succeed, the component becomes Idle. -/
theorem finished_loadedToIdle (place : held) (loaded : comp.currentState = .loaded)
    (ok : FinishOk ports comp env (some .idle) queue) :
    Finished held queue (loadedToIdle ports env comp) := by
  unfold loadedToIdle
  split
  · refine ⟨nofun, ?_⟩
    rw [loaded]
    exact placedAt_loaded.mpr fun kept => kept.2 rfl
  · next goes =>
      have created := (ok.created loaded rfl).resolve_left goes
      have objects : ∀ object ∈ bufferSems ++ mutexes ports, env.creates object = true :=
        fun object member => created object (List.mem_append_left _ member)
      have threads : env.creates .outputThread = true ∧ env.creates .inputThread = true :=
        ⟨created _ (List.mem_append_right _ (by simp)),
          created _ (List.mem_append_right _ (by simp))⟩
      rw [createWhile_eq objects]
      simp only [bufferProcessCreate, threads, if_true, not_true_eq_false, if_false]
      exact finished_kept ⟨nofun, nofun⟩ (.inl (iff_of_true place (.inl rfl)))

/-- A component that became Idle while it waited has no place, but it is taken down at once. -/
theorem finished_toIdle (ok : FinishOk ports comp env (some .idle) queue)
    (placed : PlacedAt held comp.currentState (some (some .idle)) queue) :
    Finished held queue (toIdle ports env comp) := by
  obtain ⟨state, objects⟩ := comp
  cases state with
  | loaded => exact finished_loadedToIdle (placed.place trivial nofun) rfl ok
  | waitForResources =>
      have lost := placed.lost (show ¬OmxState.waitForResources.Active by decide)
      exact finished_kept ⟨nofun, nofun⟩ (.inr ⟨lost, rfl, ok.waiting rfl rfl⟩)
  | executing =>
      have place := placed.place (.inr (.inl rfl)) nofun
      exact finished_kept ⟨nofun, nofun⟩ (.inl (iff_of_true place (.inl rfl)))
  | pause =>
      have place := placed.place (.inr (.inr rfl)) nofun
      exact finished_kept ⟨nofun, nofun⟩ (.inl (iff_of_true place (.inl rfl)))
  | idle | invalid => exact finished_kept ⟨nofun, nofun⟩ placed

/-- A component whose codec cannot be initialised gives its place back, but it stays Idle. -/
theorem finished_toExecuting (ok : FinishOk ports comp env (some .executing) queue)
    (placed : PlacedAt held comp.currentState (some (some .executing)) queue) :
    Finished held queue (toExecuting env comp) := by
  obtain ⟨state, objects⟩ := comp
  cases state with
  | idle =>
      have place := placed.place (.inl rfl) fun _ => rfl
      simp only [toExecuting]
      split
      · exact finished_kept ⟨nofun, nofun⟩ (.inl (iff_of_true place (.inr (.inl rfl))))
      · next failed =>
          refine ⟨nofun, .inr ⟨fun kept => kept.2 rfl, rfl, ?_⟩⟩
          exact (ok.codec rfl rfl).resolve_left failed
  | pause =>
      have place := placed.place (.inr (.inr rfl)) nofun
      exact finished_kept ⟨nofun, nofun⟩ (.inl (iff_of_true place (.inr (.inl rfl))))
  | executing | loaded | waitForResources | invalid =>
      exact finished_kept ⟨nofun, nofun⟩ (placed.imp_right fun lost => nomatch lost.2.1)

theorem finished_toPause (placed : PlacedAt held comp.currentState (some (some .pause)) queue) :
    Finished held queue (toPause comp) := by
  obtain ⟨state, objects⟩ := comp
  cases state with
  | idle =>
      have place := placed.place (.inl rfl) fun _ => rfl
      exact finished_kept ⟨nofun, nofun⟩ (.inl (iff_of_true place (.inr (.inr rfl))))
  | executing =>
      have place := placed.place (.inr (.inl rfl)) nofun
      exact finished_kept ⟨nofun, nofun⟩ (.inl (iff_of_true place (.inr (.inr rfl))))
  | pause | loaded | waitForResources | invalid =>
      exact finished_kept ⟨nofun, nofun⟩ (placed.imp_right fun lost => nomatch lost.2.1)

theorem finished_toLoaded (placed : PlacedAt held comp.currentState (some (some .loaded)) queue) :
    Finished held queue (toLoaded ports comp) := by
  obtain ⟨state, objects⟩ := comp
  cases state with
  | idle => exact finished_kept ⟨nofun, nofun⟩ (placedAt_loaded.mpr (placed.lost id))
  | waitForResources =>
      have lost := placed.lost (show ¬OmxState.waitForResources.Active by decide)
      exact finished_kept ⟨nofun, nofun⟩ (placedAt_loaded.mpr lost)
  | executing | pause | loaded | invalid =>
      exact finished_kept ⟨nofun, nofun⟩ (placed.imp_right fun lost => nomatch lost.2.1)

theorem finished_toInvalid (placed : PlacedAt held comp.currentState (some (some .invalid)) queue) :
    Finished held queue (toInvalid ports comp) := by
  have gone : ¬held := by
    refine placed.lost ?_
    cases comp.currentState <;> first | exact id | exact show ¬OmxState.Active _ by decide
  refine finished_kept ?_ (.inl (iff_of_false gone (show ¬OmxState.invalid.Active by decide)))
  unfold toInvalid
  split <;> exact ⟨nofun, nofun⟩

theorem finished_toWaitForResources
    (placed : PlacedAt held comp.currentState (some (some .waitForResources)) queue) :
    Finished held queue (toWaitForResources comp) := by
  obtain ⟨state, objects⟩ := comp
  cases state with
  | loaded =>
      have lost := placed.lost (show ¬OmxState.loaded.Active by decide)
      refine finished_kept ⟨nofun, nofun⟩ (.inl (iff_of_false lost ?_))
      exact show ¬OmxState.waitForResources.Active by decide
  | idle | executing | pause | waitForResources | invalid =>
      exact finished_kept ⟨nofun, nofun⟩ placed

theorem finished_componentStateSet (ok : FinishOk ports comp env destState queue)
    (placed : PlacedAt held comp.currentState (some destState) queue) :
    Finished held queue (componentStateSet ports env comp destState) := by
  match destState with
  | none => exact finished_kept ⟨nofun, nofun⟩ placed
  | some .invalid => exact finished_toInvalid placed
  | some .loaded => exact finished_toLoaded placed
  | some .idle => exact finished_toIdle ok placed
  | some .executing => exact finished_toExecuting ok placed
  | some .pause => exact finished_toPause placed
  | some .waitForResources => exact finished_toWaitForResources placed

end finish

/-- What is left to do when the second half has made its call of the resource manager. -/
theorem accounted_setComp {middle : OmxSystem C} {value : OmxComponent}
    (accounted : Accounted codecType sys) (grown : Grown (sys.setRunning comp none) middle)
    (lists : ListsOk codecType middle)
    (others : ∀ other, other ≠ comp → (Held codecType middle other ↔ Held codecType sys other))
    (self : PlacedAt (Held codecType middle comp) value.currentState none (sys.messageQ comp)) :
    Accounted codecType (middle.setComp comp value) := by
  refine ⟨lists.congr rfl, fun other => ?_⟩
  by_cases same : other = comp
  · subst same
    have state : (middle.setComp other value).currentState other = value.currentState :=
      congrArg _ (Function.update_self ..)
    have running : (middle.setComp other value).running other = none := by
      rw [show (middle.setComp other value).running = middle.running from rfl, grown.running]
      exact Function.update_self ..
    obtain ⟨more, queue⟩ := grown.messageQ other
    rw [Placed, state, running,
      show (middle.setComp other value).messageQ = middle.messageQ from rfl, queue]
    exact self.append more
  · have kept : Placed codecType (sys.setRunning comp none) other :=
      (accounted.placed other).setRunning same
    exact (kept.grown grown (others other same)).setComp same

theorem accounted_finishCommand {env : CommandEnv} {rmEnv : RmEnv} {destState : Option OmxState}
    (accounted : Accounted codecType sys) (running : sys.running comp = some destState)
    (ok : FinishOk (ports comp) (sys.comps comp) env destState (sys.messageQ comp)) :
    Accounted codecType (finishCommand codecType ports sys comp destState env rmEnv) := by
  have self := accounted.placed comp
  rw [Placed, running] at self
  obtain ⟨taken, placed⟩ := finished_componentStateSet ok self
  have lists : ListsOk codecType (sys.setRunning comp none) := accounted.lists.congr rfl
  unfold finishCommand
  rcases result : componentStateSet (ports comp) env (sys.comps comp) destState with ⟨value, call⟩
  rw [result] at taken placed
  cases call with
  | none =>
      refine accounted_setComp accounted (.refl _) lists (fun _ _ => Iff.rfl) ?_
      rw [propext held_setRunning]
      simpa using placed
  | some call =>
      obtain ⟨grown, lists', held⟩ := @ListsOk.called C codecType (sys.setRunning comp none) comp
        rmEnv _ call lists fun get => taken (congrArg some get)
      refine accounted_setComp accounted grown lists' (fun other differ => ?_) ?_
      · exact (held other).trans (by simp [differ])
      · rw [propext (held comp), held_setRunning]
        simpa using placed

/-! ### All runs -/

omit [DecidableEq C] in
theorem accounted_init (groupPriority : C → Nat) :
    Accounted codecType (omxSystemInit groupPriority) where
  lists := ⟨nofun, fun _ => List.nodup_nil, fun _ => Nat.zero_le _⟩
  placed := fun _ => placedAt_loaded.mpr nofun

/-- A step that meets the condition keeps the account. -/
theorem Accounted.step {label : OmxLabel C} {next : OmxSystem C}
    (accounted : Accounted codecType sys) (ok : StepOk codecType ports sys label)
    (taken : omxStep codecType ports sys label = some next) : Accounted codecType next := by
  cases label with
  | send comp destState queued =>
      obtain rfl := Option.some.inj taken
      exact ⟨accounted.lists.congr members_sendCommand, fun other =>
        (accounted.placed other).grown grown_sendCommand (held_congr members_sendCommand)⟩
  | setPriority comp groupPriority =>
      obtain rfl := Option.some.inj taken
      exact ⟨accounted.lists.congr rfl, fun other => (accounted.placed other).congr Iff.rfl rfl rfl
        ⟨[], (List.append_nil _).symm⟩⟩
  | start comp env =>
      simp only [omxStep] at taken
      split at taken
      · next destState rest free queue =>
          obtain rfl := Option.some.inj taken
          refine accounted_startCommand accounted free queue fun get => ok ?_
          rw [queue]
          exact get
      · cases taken
  | finish comp env rmEnv =>
      obtain ⟨destState, running, rfl⟩ := Option.map_eq_some_iff.mp taken
      exact accounted_finishCommand accounted running (ok destState running)

/-- An account that is in order gives what should hold. -/
theorem Accounted.resourcesFollow (accounted : Accounted codecType sys) :
    ResourcesFollow codecType sys := by
  intro quiet
  have held : ∀ comp, Held codecType sys comp ↔ (sys.currentState comp).Active := by
    intro comp
    obtain ⟨empty, free⟩ := quiet comp
    have placed := accounted.placed comp
    rw [Placed, empty, free] at placed
    exact placed.resolve_right fun lost => nomatch lost.2.2
  refine ⟨fun comp => ?_, fun type active nodup belong => ?_⟩
  · split
    · next active =>
        exact List.count_eq_one_of_mem (accounted.lists.nodup _) ((held comp).mpr active)
    · next inactive =>
        exact List.count_eq_zero_of_not_mem fun place => inactive ((held comp).mp place)
  · refine Nat.le_trans (nodup.length_le_of_subset fun comp member => ?_)
      (accounted.lists.bounded type)
    obtain ⟨rfl, isActive⟩ := belong comp member
    exact (held comp).mpr isActive

/-- In every run whose steps meet the condition, whenever no command is queued or in progress a
component occurs exactly once in the list of its type if it is active and not at all otherwise, so
that no more components of a type are active than there are places. -/
theorem resources_follow_state (codecType : C → CodecType) (ports : C → PortIndex → PortConfig)
    (groupPriority : C → Nat)
    (reach : Reaches (omxStep codecType ports) (StepOk codecType ports)
      (omxSystemInit groupPriority) sys) :
    ResourcesFollow codecType sys := by
  refine Accounted.resourcesFollow ?_
  exact reach.invariant (fun _ _ _ accounted ok taken => accounted.step ok taken)
    (accounted_init groupPriority)

/-! ### Seven decoders -/

instance (sys : OmxSystem C) (env : RmEnv) (low : RmEntry C) : Decidable (PreemptOk sys env low) :=
  inferInstanceAs (Decidable (_ ∧ _))

instance (ports : PortIndex → PortConfig) (comp : OmxComponent) (env : CommandEnv)
    (destState : Option OmxState) (queue : List (Option OmxState)) :
    Decidable (FinishOk ports comp env destState queue) :=
  decidable_of_iff ((comp.currentState = .loaded → destState = some .idle → env.abend = true ∨
      ∀ object ∈ bufferSems ++ mutexes ports ++ [.outputThread, .inputThread],
        env.creates object = true) ∧
    (comp.currentState = .idle → destState = some .executing →
      env.codecInit = true ∨ goesDown queue = true) ∧
    (comp.currentState = .waitForResources → destState = some .idle → goesDown queue = true))
    ⟨fun ⟨created, codec, waiting⟩ => ⟨created, codec, waiting⟩,
      fun ok => ⟨ok.created, ok.codec, ok.waiting⟩⟩

instance (codecType : C → CodecType) (ports : C → PortIndex → PortConfig) (sys : OmxSystem C) :
    DecidablePred (StepOk codecType ports sys)
  | .start _ _ => inferInstanceAs (Decidable (_ → ∀ low ∈ _, PreemptOk _ _ low))
  | .finish _ _ _ => inferInstanceAs (Decidable (∀ destState ∈ _, FinishOk _ _ _ destState _))
  | .send _ _ _ | .setPriority _ _ => isTrue trivial

instance (sys : OmxSystem (Fin 7)) : Decidable sys.Quiet :=
  inferInstanceAs (Decidable (∀ comp, sys.messageQ comp = [] ∧ sys.running comp = none))

def decoders : Fin 7 → CodecType := fun _ => .videoDec

def decoderStep : OmxSystem (Fin 7) → OmxLabel (Fin 7) → Option (OmxSystem (Fin 7)) :=
  omxStep decoders fun _ => decoderPorts

/-- The last decoder has the lowest priority. -/
def decoderInit : OmxSystem (Fin 7) := omxSystemInit Fin.val

/-- What a message thread does with a command; the second half may fail. -/
def carryOut (comp : Fin 7) (env : CommandEnv) : List (OmxLabel (Fin 7)) :=
  [.start comp ⟨true, true⟩, .finish comp env ⟨true, true⟩]

def allWell : CommandEnv := ⟨fun _ => true, false, true⟩

/-- A command that is carried out at once. -/
def commanded (comp : Fin 7) (destState : OmxState) (env : CommandEnv) : List (OmxLabel (Fin 7)) :=
  .send comp (some destState) true :: carryOut comp env

/-- Six decoders become Idle. -/
def sixDecoders : List (OmxLabel (Fin 7)) :=
  [1, 2, 3, 4, 5, 6].flatMap fun comp => commanded comp .idle allWell

/-- The first decoder takes the place of the last one, which then carries out the command to go to
Loaded. -/
def preemptingRun : List (OmxLabel (Fin 7)) :=
  sixDecoders ++ commanded 1 .executing allWell ++ commanded 0 .idle allWell ++ carryOut 6 allWell

theorem resources_follow_state_preempting :
    ∃ final ∈ runs decoderStep decoderInit preemptingRun,
      final.Quiet ∧ ResourcesFollow decoders final := by
  have along : Along decoderStep (StepOk decoders fun _ => decoderPorts) decoderInit
      preemptingRun := by decide +kernel
  obtain ⟨final, execution, quiet⟩ :
      ∃ final ∈ runs decoderStep decoderInit preemptingRun, final.Quiet := by decide +kernel
  exact ⟨final, execution, quiet,
    resources_follow_state decoders _ Fin.val (reaches_of_runs along execution)⟩

/-- One component is not where it should be. -/
theorem exists_not_resourcesFollow {labels : List (OmxLabel (Fin 7))}
    (misplaced : ∃ final ∈ runs decoderStep decoderInit labels, final.Quiet ∧
      ∃ comp, (final.members (decoders comp)).count comp ≠
        if (final.currentState comp).Active then 1 else 0) :
    ∃ final ∈ runs decoderStep decoderInit labels, ¬ResourcesFollow decoders final := by
  obtain ⟨final, execution, quiet, comp, wrong⟩ := misplaced
  exact ⟨final, execution, fun follows => wrong ((follows quiet).1 comp)⟩

/-- Four failures: no thread can be created, so that a Loaded component keeps its place; the codec
cannot be initialised, so that an Idle one has none; a waiting component becomes Idle without one;
and an Executing decoder is preempted and goes on as the seventh. -/
theorem resources_do_not_follow :
    (∃ final ∈ runs decoderStep decoderInit
        (commanded 0 .idle { allWell with creates := fun _ => false }),
      ¬ResourcesFollow decoders final) ∧
    (∃ final ∈ runs decoderStep decoderInit
        (commanded 0 .idle allWell ++ commanded 0 .executing { allWell with codecInit := false }),
      ¬ResourcesFollow decoders final) ∧
    (∃ final ∈ runs decoderStep decoderInit
        (commanded 0 .waitForResources allWell ++ commanded 0 .idle allWell),
      ¬ResourcesFollow decoders final) ∧
    ∃ final ∈ runs decoderStep decoderInit
        (sixDecoders ++ commanded 6 .executing allWell ++ commanded 0 .idle allWell),
      ¬ResourcesFollow decoders final := by
  refine ⟨?_, ?_, ?_, ?_⟩ <;> exact exists_not_resourcesFollow (by decide +kernel)

end Omx
end RockchipSoc
