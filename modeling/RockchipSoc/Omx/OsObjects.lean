import RockchipSoc.Foundation.OpTrace
import RockchipSoc.Omx.ComponentState

/-!
# The objects of a component follow its state

The transitions that create and destroy objects are inverse to each other.  Three others break the
rule: a component that waits for resources becomes Idle without any object, one that has no object
becomes Invalid by destroying them, and a failure between two creations leaves the objects that
were already there.
-/

namespace RockchipSoc
namespace Omx

open HandleTable OpTrace

variable {ports : PortIndex → PortConfig} {env : CommandEnv} {comp : OmxComponent}
  {table : Table OsObject} {objects : List OsObject} {object : OsObject}

/-- A command: the state it asks for, whether the resource manager grants a place, and what else
the environment decides. -/
structure StateCommand where
  destState : Option OmxState
  granted : Bool
  env : CommandEnv

/-- `Rockchip_OMX_ComponentStateSet`, on one component. -/
def stateSet (ports : PortIndex → PortConfig) (comp : OmxComponent) (command : StateCommand) :
    OmxComponent :=
  if refused comp.currentState command.destState then comp
  else if command.destState.bind (firstCall comp.currentState) = some .getResource ∧
      ¬command.granted then comp
  else (componentStateSet ports command.env comp command.destState).1

/-! ### What should hold -/

/-- The states in which a component works with its objects. -/
def OmxState.Active (state : OmxState) : Prop :=
  state = .idle ∨ state = .executing ∨ state = .pause

instance : DecidablePred OmxState.Active := fun _ => inferInstanceAs (Decidable (_ ∨ _))

/-- All objects of the ports. -/
def portObjects (ports : PortIndex → PortConfig) : List OsObject :=
  mutexes ports ++ events ports ++ bufferSems

/-- The objects exist exactly in the active states, and nothing was created over an existing object
or terminated while it did not exist. -/
structure ObjectsFollow (ports : PortIndex → PortConfig) (comp : OmxComponent) : Prop where
  active : comp.currentState.Active → ∀ object ∈ portObjects ports, comp.objects.present object
  inactive : ¬comp.currentState.Active →
    ∀ object ∈ portObjects ports, comp.objects.present object = false
  faultless : comp.objects.faults = []

/-- What is known between two commands: in an active state both threads run. -/
structure Settled (ports : PortIndex → PortConfig) (comp : OmxComponent) : Prop
    extends ObjectsFollow ports comp where
  threads : comp.currentState.Active →
    comp.objects.present .inputThread = true ∧ comp.objects.present .outputThread = true

/-- The condition on a command: a component without objects does not become Invalid or, from
waiting, Idle; and if it comes to creating objects, all of these creations succeed. -/
structure CommandOk (ports : PortIndex → PortConfig) (comp : OmxComponent)
    (command : StateCommand) : Prop where
  invalid : command.destState = some .invalid →
    comp.currentState ≠ .loaded ∧ comp.currentState ≠ .waitForResources
  waiting : command.destState = some .idle → comp.currentState ≠ .waitForResources
  creates : command.destState = some .idle → comp.currentState = .loaded →
    command.granted = true → command.env.abend = false →
      ∀ object ∈ portObjects ports, command.env.creates object = true

/-! ### Creating and destroying -/

theorem nodup_portObjects (ports : PortIndex → PortConfig) :
    ([OsObject.inputThread, .outputThread] ++ portObjects ports).Nodup := by
  unfold portObjects mutexes events portMutexes portEvents bufferSems
  rcases ports .input with ⟨way, share⟩
  rcases ports .output with ⟨way', share'⟩
  cases way <;> cases share <;> cases way' <;> cases share' <;> decide

theorem createWhile_eq (created : ∀ object ∈ objects, env.creates object = true) :
    createWhile env table objects = (table.createAll objects, true) := by
  induction objects generalizing table with
  | nil => rfl
  | cons object objects ih =>
      rw [createWhile, if_pos (created object List.mem_cons_self),
        ih fun later member => created later (List.mem_cons_of_mem _ member)]
      rfl

theorem createEvents_eq (created : ∀ object ∈ portObjects ports, env.creates object = true) :
    createEvents ports env table = table.createAll (events ports) := by
  rw [createEvents, List.filter_eq_self.mpr]
  intro object member
  exact created object (List.mem_append_left _ (List.mem_append_right _ member))

theorem mem_portObjects_iff : object ∈ portObjects ports ↔
    object ∈ events ports ++ (bufferSems ++ mutexes ports) := by
  simp only [portObjects, List.mem_append]
  tauto

/-- The objects are undone in another order. -/
theorem undo_perm (ports : PortIndex → PortConfig) :
    (events ports ++ mutexes ports ++ bufferSems).Perm (portObjects ports) :=
  List.perm_append_comm.append_right _

/-- Both threads and all objects are destroyed. -/
theorem destroy_spec (threads : table.present .inputThread = true ∧
      table.present .outputThread = true)
    (exist : ∀ object ∈ portObjects ports, table.present object = true) :
    (∀ object ∈ portObjects ports,
        (destroyObjects ports (bufferProcessTerminate table)).present object = false) ∧
      (destroyObjects ports (bufferProcessTerminate table)).faults = table.faults := by
  have joined : destroyObjects ports (bufferProcessTerminate table) =
      table.terminateAll ([.inputThread, .outputThread] ++ portObjects ports) :=
    (terminateAll_append _ _).symm
  rw [joined]
  refine ⟨fun object member => ?_, faults_terminateAll (nodup_portObjects ports) ?_⟩
  · rw [present_terminateAll]
    simp [member]
  · intro object member
    rcases List.mem_append.mp member with thread | member
    · rcases List.mem_cons.mp thread with rfl | thread
      · exact threads.1
      · rw [List.mem_singleton.mp thread]
        exact threads.2
    · exact exist object member

theorem thread_not_mem (ports : PortIndex → PortConfig) :
    .inputThread ∉ portObjects ports ∧ .outputThread ∉ portObjects ports := by
  obtain ⟨_, _, apart⟩ := List.nodup_append.mp (nodup_portObjects ports)
  exact ⟨fun member => apart _ List.mem_cons_self _ member rfl,
    fun member => apart _ (List.mem_cons_of_mem _ List.mem_cons_self) _ member rfl⟩

/-- All objects are created. -/
theorem create_spec (absent : ∀ object ∈ portObjects ports, table.present object = false)
    (created : ∀ object ∈ portObjects ports, env.creates object = true) :
    ∃ table', createWhile env (createEvents ports env table) (bufferSems ++ mutexes ports) =
        (table', true) ∧ (∀ object ∈ portObjects ports, table'.present object = true) ∧
      table'.faults = table.faults := by
  have sems : ∀ object ∈ bufferSems ++ mutexes ports, env.creates object = true :=
    fun object member => created object (mem_portObjects_iff.mpr (List.mem_append_right _ member))
  have nodup : (events ports ++ (bufferSems ++ mutexes ports)).Nodup := by
    refine (List.Perm.nodup_iff ?_).mp (List.nodup_append.mp (nodup_portObjects ports)).2.1
    unfold portObjects
    rw [List.append_assoc]
    refine List.perm_append_comm.trans ?_
    rw [List.append_assoc]
  refine ⟨_, createWhile_eq sems, fun object member => ?_, ?_⟩
  · rw [createEvents_eq created, ← createAll_append, present_createAll]
    simp [mem_portObjects_iff.mp member]
  · rw [createEvents_eq created, ← createAll_append]
    exact faults_createAll nodup fun object member => absent object (mem_portObjects_iff.mpr member)

theorem present_assign {other : OsObject} {made : Bool} (differ : object ≠ other) :
    (table.assign other made).present object = table.present object :=
  Function.update_of_ne differ _ _

/-- Starting the threads leaves the objects alone. -/
theorem bufferProcessCreate_spec :
    (∀ object ∈ portObjects ports,
        (bufferProcessCreate env table).1.present object = table.present object) ∧
      (bufferProcessCreate env table).1.faults = table.faults ∧
      ((bufferProcessCreate env table).2 = true →
        (bufferProcessCreate env table).1.present .inputThread = true ∧
          (bufferProcessCreate env table).1.present .outputThread = true) := by
  obtain ⟨input, output⟩ := thread_not_mem ports
  unfold bufferProcessCreate
  split
  · refine ⟨fun object member => ?_, rfl, fun started => ⟨?_, ?_⟩⟩
    · rw [present_assign (ne_of_mem_of_not_mem member input),
        present_assign (ne_of_mem_of_not_mem member output)]
    · simpa [Table.assign] using started
    · simp [Table.assign]
  · refine ⟨fun object member => ?_, rfl, fun started => ?_⟩
    · exact present_assign (ne_of_mem_of_not_mem member output)
    · cases started

/-! ### One command -/

theorem settled_of_active {state : OmxState} (settled : Settled ports comp)
    (active : comp.currentState.Active) (active' : state.Active) :
    Settled ports { comp with currentState := state } :=
  { active := fun _ => settled.active active
    inactive := fun inactive => absurd active' inactive
    faultless := settled.faultless
    threads := fun _ => settled.threads active }

theorem settled_of_inactive {state : OmxState} (settled : Settled ports comp)
    (inactive : ¬comp.currentState.Active) (inactive' : ¬state.Active) :
    Settled ports { comp with currentState := state } :=
  { active := fun active => absurd active inactive'
    inactive := fun _ => settled.inactive inactive
    faultless := settled.faultless
    threads := fun active => absurd active inactive' }

theorem settled_destroyed {state : OmxState} (settled : Settled ports comp)
    (active : comp.currentState.Active) (inactive' : ¬state.Active) :
    Settled ports ⟨state, destroyObjects ports (bufferProcessTerminate comp.objects)⟩ := by
  obtain ⟨absent, faults⟩ := destroy_spec (settled.threads active) (settled.active active)
  exact
    { active := fun active => absurd active inactive'
      inactive := fun _ => absent
      faultless := faults.trans settled.faultless
      threads := fun active => absurd active inactive' }

theorem settled_loadedToIdle (settled : Settled ports comp) (loaded : comp.currentState = .loaded)
    (created : env.abend = false → ∀ object ∈ portObjects ports, env.creates object = true) :
    Settled ports (loadedToIdle ports env comp).1 := by
  have inactive : ¬comp.currentState.Active := by
    rw [loaded]
    decide
  unfold loadedToIdle
  split
  · exact settled
  · next goes =>
      obtain ⟨table, made, exist, faults⟩ := create_spec (settled.inactive inactive)
        (created (by simpa using goes))
      obtain ⟨kept, faults', running⟩ := @bufferProcessCreate_spec ports env table
      rw [made]
      simp only [not_true_eq_false, if_false]
      split
      · refine
          { active := fun active => absurd active inactive
            inactive := fun _ object member => ?_
            faultless := ?_
            threads := fun active => absurd active inactive }
        · rw [undoObjects, present_terminateAll]
          simp only [(undo_perm ports).mem_iff, member]
          simp
        · rw [undoObjects, faults_terminateAll, faults', faults, settled.faultless]
          · exact (undo_perm ports).nodup_iff.mpr
              (List.nodup_append.mp (nodup_portObjects ports)).2.1
          · intro object member
            have member := (undo_perm ports).mem_iff.mp member
            exact (kept object member).trans (exist object member)
      · next started =>
          exact
            { active := fun _ object member => (kept object member).trans (exist object member)
              inactive := fun idle => absurd (.inl rfl) idle
              faultless := faults'.trans (faults.trans settled.faultless)
              threads := fun _ => running (by simpa using started) }

theorem Settled.invalid (settled : Settled ports comp) (valid : comp.currentState ≠ .invalid)
    (busy : comp.currentState ≠ .loaded ∧ comp.currentState ≠ .waitForResources) :
    Settled ports (toInvalid ports comp).1 := by
  refine settled_destroyed settled ?_ (by decide)
  unfold OmxState.Active
  cases state : comp.currentState <;> simp_all

theorem Settled.loaded (settled : Settled ports comp) : Settled ports (toLoaded ports comp).1 := by
  unfold toLoaded
  split
  · next idle => exact settled_destroyed settled (.inl idle) (by decide)
  · next waiting =>
      refine settled_of_inactive settled ?_ (by decide)
      rw [waiting]
      decide
  · exact settled

theorem Settled.idle (settled : Settled ports comp)
    (notWaiting : comp.currentState ≠ .waitForResources)
    (created : comp.currentState = .loaded → env.abend = false →
      ∀ object ∈ portObjects ports, env.creates object = true) :
    Settled ports (toIdle ports env comp).1 := by
  unfold toIdle
  split
  · next loaded => exact settled_loadedToIdle settled loaded (created loaded)
  · next executing => exact settled_of_active settled (.inr (.inl executing)) (.inl rfl)
  · next pause => exact settled_of_active settled (.inr (.inr pause)) (.inl rfl)
  · next waiting => exact absurd waiting notWaiting
  · exact settled

theorem Settled.executing (settled : Settled ports comp) :
    Settled ports (toExecuting env comp).1 := by
  unfold toExecuting
  split
  · next idle =>
      split
      · exact settled_of_active settled (.inl idle) (.inr (.inl rfl))
      · exact settled
  · next pause => exact settled_of_active settled (.inr (.inr pause)) (.inr (.inl rfl))
  · exact settled

theorem Settled.pause (settled : Settled ports comp) : Settled ports (toPause comp).1 := by
  unfold toPause
  split
  · next idle => exact settled_of_active settled (.inl idle) (.inr (.inr rfl))
  · next executing => exact settled_of_active settled (.inr (.inl executing)) (.inr (.inr rfl))
  · exact settled

theorem Settled.waitForResources (settled : Settled ports comp) :
    Settled ports (toWaitForResources comp).1 := by
  unfold toWaitForResources
  split
  · next loaded =>
      refine settled_of_inactive settled ?_ (by decide)
      rw [loaded]
      decide
  · exact settled

/-- A command that meets the condition keeps the objects in step with the state. -/
theorem Settled.stateSet {command : StateCommand} (settled : Settled ports comp)
    (ok : CommandOk ports comp command) : Settled ports (stateSet ports comp command) := by
  unfold Omx.stateSet
  split
  · exact settled
  · next accepted =>
      split
      · exact settled
      · next granted =>
          have valid : comp.currentState ≠ .invalid := fun invalid =>
            accepted (by simp [refused, invalid])
          obtain ⟨destState, grant, env⟩ := command
          match destState with
          | none => exact settled
          | some .invalid => exact settled.invalid valid (ok.invalid rfl)
          | some .loaded => exact settled.loaded
          | some .idle =>
              refine settled.idle (ok.waiting rfl) fun loaded goes => ?_
              refine ok.creates rfl loaded ?_ goes
              by_contra refused
              exact granted ⟨by simp [firstCall, loaded], refused⟩
          | some .executing => exact settled.executing
          | some .pause => exact settled.pause
          | some .waitForResources => exact settled.waitForResources

/-! ### Sequences of commands -/

/-- Every command of a sequence meets the condition. -/
def CommandsOk (ports : PortIndex → PortConfig) : OmxComponent → List StateCommand → Prop
  | _, [] => True
  | comp, command :: commands =>
      CommandOk ports comp command ∧ CommandsOk ports (stateSet ports comp command) commands

theorem Settled.commands {commands : List StateCommand} (settled : Settled ports comp)
    (ok : CommandsOk ports comp commands) :
    EachAfter (Omx.stateSet ports) (ObjectsFollow ports) comp commands := by
  induction commands generalizing comp with
  | nil => exact trivial
  | cons command commands ih =>
      have next := settled.stateSet ok.1
      exact ⟨next.toObjectsFollow, ih next ok.2⟩

/-- From a new component on, its objects follow its state after each command of a sequence whose
commands meet the condition, and nothing is created twice or destroyed without existing. -/
theorem os_objects_follow_state (ports : PortIndex → PortConfig) (commands : List StateCommand)
    (ok : CommandsOk ports omxComponentInit commands) :
    EachAfter (Omx.stateSet ports) (ObjectsFollow ports) omxComponentInit commands := by
  refine Settled.commands ?_ ok
  exact
    { active := fun active => absurd active (by decide)
      inactive := fun _ _ _ => rfl
      faultless := rfl
      threads := fun active => absurd active (by decide) }

/-! ### A decoder -/

/-- The ports of a decoder: two data buffers each, which are copied. -/
def decoderPorts : PortIndex → PortConfig := fun _ => ⟨.way2, false⟩

/-- A command for which everything succeeds. -/
def goTo (destState : OmxState) : StateCommand := ⟨some destState, true, fun _ => true, false, true⟩

/-- The command to go to Idle, with one creation that fails. -/
def idleWithout (object : OsObject) : StateCommand :=
  ⟨some .idle, true, fun other => other != object, false, true⟩

/-- The input thread cannot be started at first; then the decoder works, is unloaded, works again
and becomes Invalid. -/
def decoderLife : List StateCommand :=
  [idleWithout .inputThread, goTo .idle, goTo .executing, goTo .pause, goTo .idle, goTo .loaded,
    goTo .idle, goTo .executing, goTo .invalid]

theorem os_objects_follow_state_decoder : EachAfter (stateSet decoderPorts)
    (ObjectsFollow decoderPorts) omxComponentInit decoderLife := by
  refine os_objects_follow_state decoderPorts decoderLife ?_
  unfold decoderLife
  repeat' refine And.intro ⟨by decide, by decide, by decide⟩ ?_
  trivial

/-- Three failures: a waiting component that becomes Idle has no objects, a new component that
becomes Invalid destroys what does not exist, and a failing semaphore leaves the events behind. -/
theorem os_objects_do_not_follow :
    ¬EachAfter (stateSet decoderPorts) (ObjectsFollow decoderPorts) omxComponentInit
      [goTo .waitForResources, goTo .idle] ∧
    ¬EachAfter (stateSet decoderPorts) (ObjectsFollow decoderPorts) omxComponentInit
      [goTo .invalid] ∧
    ¬EachAfter (stateSet decoderPorts) (ObjectsFollow decoderPorts) omxComponentInit
      [idleWithout (.bufferSem .output)] := by
  refine ⟨fun follows => ?_, fun follows => ?_, fun follows => ?_⟩
  · exact absurd (follows.2.1.active (.inl rfl) (.bufferSem .input) (by decide)) (by decide)
  · exact absurd follows.1.faultless (by decide)
  · exact absurd (follows.1.inactive (by decide) (.pauseEvent .input) (by decide)) (by decide)

end Omx
end RockchipSoc
