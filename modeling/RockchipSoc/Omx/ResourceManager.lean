import Mathlib.Data.List.Nodup
import RockchipSoc.Omx.OsObjects

/-!
# The resource manager of the OMX components

Decoders and encoders share a limited number of places, one list of components for each type.  A
component takes a place before it goes from Loaded to Idle, if need be from one whose group
priority is lower (a larger number), and gives it back when it is unloaded.  Components that wait
for a place are in a second list; when a place is given back, the first of them is told to go to
Idle.

The message thread of a component dequeues a command, makes the first call of the resource manager
and then changes the state; what happens between these two is up to the other components.
-/

namespace RockchipSoc
namespace Omx

variable {C : Type*}

/-- `codecType`. -/
inductive CodecType
  | videoDec | videoEnc
  deriving DecidableEq, Repr

/-- `MAX_RESOURCE_VIDEO_DEC` and `MAX_RESOURCE_VIDEO_ENC`. -/
def maxResource : CodecType → Nat
  | .videoDec => 6
  | .videoEnc => 4

/-- `ROCKCHIP_OMX_RM_COMPONENT_LIST`: the priority is the one at the time of the entry. -/
structure RmEntry (C : Type*) where
  comp : C
  groupPriority : Nat
  deriving DecidableEq, Repr

/-! ### The lists -/

/-- The candidate after one more entry was looked at. -/
def lowerPriority (priority : Nat) (candidate : Option (RmEntry C)) (entry : RmEntry C) :
    Option (RmEntry C) :=
  if priority < entry.groupPriority then
    match candidate with
    | some best => if best.groupPriority < entry.groupPriority then some entry else some best
    | none => some entry
  else candidate

def searchLowPriority (list : List (RmEntry C)) (priority : Nat) : Option (RmEntry C) :=
  list.foldl (lowerPriority priority) none

section search

variable {list : List (RmEntry C)} {entry : RmEntry C} {priority : Nat}

/-- One more entry: the candidate is then the new entry or the one before, and none of them has a
lower priority than it. -/
theorem lowerPriority_spec {before : Option (RmEntry C)}
    (lower : ∀ best ∈ before, priority < best.groupPriority) :
    ∀ best ∈ lowerPriority priority before entry,
      (best = entry ∨ best ∈ before) ∧ priority < best.groupPriority := by
  unfold lowerPriority
  intro best found
  split at found
  · next less =>
      split at found
      · next old =>
          split at found
          · obtain rfl := Option.some.inj found
            exact ⟨.inl rfl, less⟩
          · obtain rfl := Option.some.inj found
            exact ⟨.inr rfl, lower _ rfl⟩
      · obtain rfl := Option.some.inj found
        exact ⟨.inl rfl, less⟩
  · exact ⟨.inr found, lower best found⟩

theorem lowerPriority_le {before : Option (RmEntry C)} :
    (∀ best ∈ before, ∃ low ∈ lowerPriority priority before entry,
        best.groupPriority ≤ low.groupPriority) ∧
      (priority < entry.groupPriority → ∃ low ∈ lowerPriority priority before entry,
        entry.groupPriority ≤ low.groupPriority) := by
  unfold lowerPriority
  split
  · split
    · next old =>
        split
        · next more =>
            refine ⟨fun best found => ⟨entry, rfl, ?_⟩, fun _ => ⟨entry, rfl, Nat.le_refl _⟩⟩
            obtain rfl := Option.some.inj found
            exact Nat.le_of_lt more
        · next fewer =>
            exact ⟨fun best found => ⟨best, found, Nat.le_refl _⟩,
              fun _ => ⟨old, rfl, Nat.not_lt.mp fewer⟩⟩
    · refine ⟨fun best found => ?_, fun _ => ⟨entry, rfl, Nat.le_refl _⟩⟩
      cases found
  · next above =>
      exact ⟨fun best found => ⟨best, found, Nat.le_refl _⟩, fun less => absurd less above⟩

theorem foldl_lowerPriority {before : Option (RmEntry C)}
    (lower : ∀ best ∈ before, priority < best.groupPriority) :
    (∀ low ∈ list.foldl (lowerPriority priority) before,
        (low ∈ list ∨ low ∈ before) ∧ priority < low.groupPriority) ∧
      (∀ best ∈ before, ∃ low ∈ list.foldl (lowerPriority priority) before,
        best.groupPriority ≤ low.groupPriority) ∧
      ∀ other ∈ list, priority < other.groupPriority →
        ∃ low ∈ list.foldl (lowerPriority priority) before,
          other.groupPriority ≤ low.groupPriority := by
  induction list generalizing before with
  | nil =>
      exact ⟨fun low found => ⟨.inr found, lower low found⟩,
        fun best found => ⟨best, found, Nat.le_refl _⟩, fun _ member => nomatch member⟩
  | cons first list ih =>
      have next := @lowerPriority_spec C first priority before lower
      obtain ⟨kept, entered⟩ := @lowerPriority_le C first priority before
      obtain ⟨members, above, found⟩ := ih fun best member => (next best member).2
      refine ⟨fun low member => ?_, fun best member => ?_, fun other member less => ?_⟩
      · obtain ⟨place, less⟩ := members low member
        refine ⟨?_, less⟩
        rcases place with later | here
        · exact .inl (List.mem_cons_of_mem _ later)
        · rcases (next low here).1 with rfl | old
          · exact .inl List.mem_cons_self
          · exact .inr old
      · obtain ⟨low, here, le⟩ := kept best member
        obtain ⟨last, there, le'⟩ := above low here
        exact ⟨last, there, Nat.le_trans le le'⟩
      · rcases List.mem_cons.mp member with rfl | later
        · obtain ⟨low, here, le⟩ := entered less
          obtain ⟨last, there, le'⟩ := above low here
          exact ⟨last, there, Nat.le_trans le le'⟩
        · exact found other later less

/-- The candidate is in the list, with the lowest priority there, which is lower than that of the
component that asks. -/
theorem searchLowPriority_spec
    (found : searchLowPriority list priority = some entry) :
    entry ∈ list ∧ priority < entry.groupPriority ∧
      ∀ other ∈ list, other.groupPriority ≤ entry.groupPriority := by
  obtain ⟨members, -, above⟩ :=
    @foldl_lowerPriority C list priority none fun _ member => nomatch member
  obtain ⟨place, less⟩ := members entry found
  refine ⟨place.resolve_right (Option.not_mem_none entry), less, fun other member => ?_⟩
  by_cases lower : priority < other.groupPriority
  · obtain ⟨low, here, le⟩ := above other member lower
    obtain rfl := Option.some.inj (found.symm.trans here)
    exact le
  · exact Nat.le_trans (Nat.not_lt.mp lower) (Nat.le_of_lt less)

end search

variable [DecidableEq C]

def addElementList (list : List (RmEntry C)) (entry : RmEntry C) (malloc : Bool) :
    List (RmEntry C) × Bool :=
  if malloc then (list ++ [entry], true) else (list, false)

/-- The first entry of a component is removed, if there is one. -/
def removeElementList (list : List (RmEntry C)) (comp : C) : List (RmEntry C) × Bool :=
  if list.any (·.comp = comp) then (list.eraseP (·.comp = comp), true) else (list, false)

theorem map_removeElementList (list : List (RmEntry C)) (comp : C) :
    (removeElementList list comp).1.map RmEntry.comp = (list.map RmEntry.comp).erase comp := by
  unfold removeElementList
  split
  · rw [List.erase_eq_eraseP', List.eraseP_map]
    congr 1
  · next absent =>
      rw [List.erase_of_not_mem]
      simpa using absent

theorem removeElementList_snd (list : List (RmEntry C)) (comp : C) :
    (removeElementList list comp).2 = true ↔ comp ∈ list.map RmEntry.comp := by
  unfold removeElementList
  split
  · next present => simpa using present
  · next absent => simpa using absent

/-! ### All components and the resource manager -/

/-- The components, each with the commands in its message queue and the one its message thread
carries out, and the lists of the resource manager. -/
structure OmxSystem (C : Type*) where
  comps : C → OmxComponent
  groupPriority : C → Nat
  messageQ : C → List (Option OmxState)
  running : C → Option (Option OmxState)
  componentList : CodecType → List (RmEntry C)
  waitingList : CodecType → List (RmEntry C)

/-- What the environment decides in a call of the resource manager: whether a command can be
queued, and whether there is memory for a list entry. -/
structure RmEnv where
  queued : Bool
  malloc : Bool

def OmxSystem.currentState (sys : OmxSystem C) (comp : C) : OmxState :=
  (sys.comps comp).currentState

/-- `OMX_SendCommand` with `OMX_CommandStateSet`. -/
def sendCommand (sys : OmxSystem C) (comp : C) (destState : Option OmxState) (queued : Bool) :
    OmxSystem C × Bool :=
  if sys.currentState comp = .invalid ∨ ¬queued then (sys, false)
  else ({ sys with
    messageQ := Function.update sys.messageQ comp (sys.messageQ comp ++ [destState]) }, true)

/-- An Idle component is told to go to Loaded; nothing is done about a busy one. -/
def removeComponent (sys : OmxSystem C) (comp : C) (queued : Bool) : OmxSystem C × Bool :=
  if sys.currentState comp = .idle then sendCommand sys comp (some .loaded) queued else (sys, true)

section calls

variable (codecType : C → CodecType) (sys : OmxSystem C) (comp : C) (env : RmEnv)

def OmxSystem.setComponents (list : List (RmEntry C)) : OmxSystem C :=
  { sys with componentList := Function.update sys.componentList (codecType comp) list }

def OmxSystem.setWaiting (list : List (RmEntry C)) : OmxSystem C :=
  { sys with waitingList := Function.update sys.waitingList (codecType comp) list }

/-- The component that has to give its place, if all places are taken. -/
def candidate : Option (RmEntry C) :=
  searchLowPriority (sys.componentList (codecType comp)) (sys.groupPriority comp)

/-- The entry of the component is added to what is left of the list of its type. -/
def addComponent (list : List (RmEntry C)) : OmxSystem C × Bool :=
  let (list, added) := addElementList list ⟨comp, sys.groupPriority comp⟩ env.malloc
  (sys.setComponents codecType comp list, added)

/-- `Rockchip_OMX_Get_Resource`. -/
def getResource : OmxSystem C × Bool :=
  let list := sys.componentList (codecType comp)
  if maxResource (codecType comp) ≤ list.length then
    match candidate codecType sys comp with
    | none => (sys, false)
    | some low =>
        let (sys, removed) := removeComponent sys low.comp env.queued
        if removed then addComponent codecType sys comp env (removeElementList list low.comp).1
        else (sys, false)
  else addComponent codecType sys comp env list

/-- The first waiting component is told to go to Idle. -/
def wakeWaiting : OmxSystem C :=
  match sys.waitingList (codecType comp) with
  | [] => sys
  | first :: rest =>
      (sendCommand (sys.setWaiting codecType comp rest) first.comp (some .idle) env.queued).1

/-- `Rockchip_OMX_Release_Resource`. -/
def releaseResource : OmxSystem C × Bool :=
  let (list, removed) := removeElementList (sys.componentList (codecType comp)) comp
  if removed then (wakeWaiting codecType (sys.setComponents codecType comp list) comp env, true)
  else (sys, false)

/-- `Rockchip_OMX_In_WaitForResource`. -/
def inWaitForResource : OmxSystem C × Bool :=
  let (list, added) := addElementList (sys.waitingList (codecType comp))
    ⟨comp, sys.groupPriority comp⟩ env.malloc
  (sys.setWaiting codecType comp list, added)

/-- `Rockchip_OMX_Out_WaitForResource`. -/
def outWaitForResource : OmxSystem C × Bool :=
  let (list, removed) := removeElementList (sys.waitingList (codecType comp)) comp
  (sys.setWaiting codecType comp list, removed)

/-- A call of the resource manager, and whether it succeeds. -/
def rmCall : RmCall → OmxSystem C × Bool
  | .getResource => getResource codecType sys comp env
  | .releaseResource => releaseResource codecType sys comp env
  | .inWaitForResource => inWaitForResource codecType sys comp env
  | .outWaitForResource => outWaitForResource codecType sys comp

end calls

/-! ### Steps -/

/-- What can happen next. -/
inductive OmxLabel (C : Type*)
  | send (comp : C) (destState : Option OmxState) (queued : Bool)
  | setPriority (comp : C) (groupPriority : Nat)
  | start (comp : C) (env : RmEnv)
  | finish (comp : C) (env : CommandEnv) (rmEnv : RmEnv)

section steps

variable (codecType : C → CodecType) (ports : C → PortIndex → PortConfig)

def OmxSystem.setRunning (sys : OmxSystem C) (comp : C) (command : Option (Option OmxState)) :
    OmxSystem C :=
  { sys with running := Function.update sys.running comp command }

def OmxSystem.setComp (sys : OmxSystem C) (comp : C) (value : OmxComponent) : OmxSystem C :=
  { sys with comps := Function.update sys.comps comp value }

/-- The call of the resource manager that a command begins with. -/
def beginsWith (state : OmxState) (destState : Option OmxState) : Option RmCall :=
  destState.bind (firstCall state)

/-- A command that was dequeued is refused, or begins with its call of the resource manager; only
a place that is not granted ends it there. -/
def startCommand (sys : OmxSystem C) (comp : C) (destState : Option OmxState) (env : RmEnv) :
    OmxSystem C :=
  if refused (sys.currentState comp) destState then sys
  else
    match beginsWith (sys.currentState comp) destState with
    | none => sys.setRunning comp (some destState)
    | some call =>
        let (sys, granted) := rmCall codecType sys comp env call
        if call = .getResource ∧ ¬granted then sys else sys.setRunning comp (some destState)

/-- The rest of a command: the state changes, with another call of the resource manager. -/
def finishCommand (sys : OmxSystem C) (comp : C) (destState : Option OmxState) (env : CommandEnv)
    (rmEnv : RmEnv) : OmxSystem C :=
  let (value, call) := componentStateSet (ports comp) env (sys.comps comp) destState
  let sys := sys.setRunning comp none
  match call with
  | none => sys.setComp comp value
  | some call => (rmCall codecType sys comp rmEnv call).1.setComp comp value

/-- One step of a client or of a component's message thread. -/
def omxStep (sys : OmxSystem C) : OmxLabel C → Option (OmxSystem C)
  | .send comp destState queued => some (sendCommand sys comp destState queued).1
  | .setPriority comp groupPriority =>
      some { sys with groupPriority := Function.update sys.groupPriority comp groupPriority }
  | .start comp env =>
      match sys.running comp, sys.messageQ comp with
      | none, destState :: rest =>
          some (startCommand codecType
            { sys with messageQ := Function.update sys.messageQ comp rest } comp destState env)
      | _, _ => none
  | .finish comp env rmEnv =>
      (sys.running comp).map fun destState =>
        finishCommand codecType ports sys comp destState env rmEnv

/-- New components: all are Loaded and nobody has a place. -/
def omxSystemInit (groupPriority : C → Nat) : OmxSystem C :=
  { comps := fun _ => omxComponentInit
    groupPriority := groupPriority
    messageQ := fun _ => []
    running := fun _ => none
    componentList := fun _ => []
    waitingList := fun _ => [] }

end steps

end Omx
end RockchipSoc
