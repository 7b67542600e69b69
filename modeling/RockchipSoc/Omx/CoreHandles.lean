import RockchipSoc.Foundation.LabelledRun
import RockchipSoc.Foundation.LinkedChain
import RockchipSoc.Foundation.Ledger
import RockchipSoc.Omx.ComponentState

/-!
# Handles of the OMX core

The core keeps the components that it has loaded in a singly linked list: a new one goes to the end,
and a handle that is freed is looked for one element ahead, so that its element can be unlinked.
Reading through a pointer that leads nowhere is a fault.

Components are numbered in the order of their creation; a handle is the number of a component, and
so is the address of its element.  The core is initialised, and memory does not run out.
-/

namespace RockchipSoc
namespace Omx

open Ledger

/-- `ROCKCHIP_OMX_COMPONENT`. -/
structure LoadedComponent where
  pOMXComponent : ℕ
  nextOMXComp : Option ℕ
  deriving DecidableEq, Repr

/-- The core: the names of `gComponentList`, the list of loaded components in the heap, how many
components were created, and how often each was deinitialised. -/
structure OmxCore where
  gComponentList : List String
  nodes : ℕ → Option LoadedComponent
  gLoadComponentList : Option ℕ
  created : ℕ
  deInits : ℕ → ℕ

/-- What goes wrong in a call: a pointer that leads nowhere, or a loop that does not end. -/
inductive CoreFault
  | nullDereference | endless
  deriving DecidableEq, Repr

variable (core : OmxCore)

/-- The element behind a pointer. -/
def deref (pointer : Option ℕ) : Except CoreFault LoadedComponent :=
  match pointer.bind core.nodes with
  | some node => .ok node
  | none => .error .nullDereference

/-- `Rockchip_OMX_ComponentUnload`, and the element is freed. -/
def componentUnload (pointer : Option ℕ) : OmxCore :=
  match pointer with
  | none => core
  | some address =>
      match core.nodes address with
      | none => core
      | some node =>
          { core with nodes := Function.update core.nodes address none
                      deInits := bump core.deInits node.pOMXComponent }

/-- `nextOMXComp` of an element is changed. -/
def setNextOMXComp (address : ℕ) (node : LoadedComponent) (nextOMXComp : Option ℕ) : OmxCore :=
  { core with
    nodes := Function.update core.nodes address
      (some { node with nextOMXComp := nextOMXComp }) }

/-- The loop of `OMX_GetHandle`, which goes to the last element. -/
def lastComponent : ℕ → ℕ → Except CoreFault ℕ
  | 0, _ => .error .endless
  | fuel + 1, current =>
      (deref core (some current)).bind fun node =>
        match node.nextOMXComp with
        | none => .ok current
        | some next => lastComponent fuel next

/-- A new component goes to the end of the list. -/
def appendComponent (address : ℕ) : Except CoreFault OmxCore :=
  match core.gLoadComponentList with
  | none => .ok { core with gLoadComponentList := some address }
  | some first =>
      (lastComponent core (core.created + 1) first).bind fun last =>
        (deref core (some last)).bind fun node => .ok (setNextOMXComp core last node (some address))

/-- What the calls of a new component answer. -/
structure LoadEnv where
  load : OmxError
  setCallbacks : OmxError
  checkResource : OmxError
  deriving DecidableEq, Repr

/-- The component and its element are created by `Rockchip_OMX_ComponentLoad`. -/
def createComponent : OmxCore :=
  { core with nodes := Function.update core.nodes core.created (some ⟨core.created, none⟩)
              created := core.created + 1 }

/-- `OMX_GetHandle`: `*pHandle` is the number of the new component. -/
def omxGetHandle (cComponentName : String) (env : LoadEnv) :
    Except CoreFault (OmxCore × OmxError) :=
  if cComponentName ∈ core.gComponentList then
    if env.load ≠ .errorNone then .ok (core, env.load)
    else
      let loaded := createComponent core
      if env.setCallbacks ≠ .errorNone then
        .ok (componentUnload loaded (some core.created), env.setCallbacks)
      else if env.checkResource ≠ .errorNone then
        .ok (componentUnload loaded (some core.created), env.checkResource)
      else (appendComponent loaded core.created).map fun core => (core, .errorNone)
  else .ok (core, .componentNotFound)

/-- The loop of `OMX_FreeHandle`, which goes to the element before the one with the handle. -/
def previousComponent (hComponent : ℕ) : ℕ → Option ℕ → Except CoreFault (Option ℕ)
  | 0, _ => .error .endless
  | fuel + 1, current =>
      match current with
      | none => .ok none
      | some _ =>
          (deref core current).bind fun node =>
            (deref core node.nextOMXComp).bind fun ahead =>
              if ahead.pOMXComponent ≠ hComponent then
                previousComponent hComponent fuel node.nextOMXComp
              else .ok current

/-- Behind the loop of `OMX_FreeHandle`. -/
def unlinkBehind (hComponent : ℕ) (current : Option ℕ) : Except CoreFault (OmxCore × OmxError) :=
  (deref core current).bind fun node =>
    (deref core node.nextOMXComp).bind fun ahead =>
      if ahead.pOMXComponent = hComponent then
        match current with
        | some address =>
            let unlinked := setNextOMXComp core address node ahead.nextOMXComp
            .ok (componentUnload unlinked node.nextOMXComp, .errorNone)
        | none => .error .nullDereference
      else if current = none then .ok (core, .componentNotFound)
      else .ok (core, .errorNone)

/-- `OMX_FreeHandle`, for a handle that is not `NULL`. -/
def omxFreeHandle (hComponent : ℕ) : Except CoreFault (OmxCore × OmxError) :=
  (deref core core.gLoadComponentList).bind fun first =>
    if first.pOMXComponent = hComponent then
      .ok (componentUnload { core with gLoadComponentList := first.nextOMXComp }
        core.gLoadComponentList, .errorNone)
    else
      (previousComponent core hComponent (core.created + 1) core.gLoadComponentList).bind
        (unlinkBehind core hComponent)

/-! ### Sequences of calls -/

inductive CoreOp
  | getHandle (cComponentName : String) (env : LoadEnv)
  | freeHandle (hComponent : ℕ)
  deriving DecidableEq, Repr

def coreCall : CoreOp → Except CoreFault (OmxCore × OmxError)
  | .getHandle cComponentName env => omxGetHandle core cComponentName env
  | .freeHandle hComponent => omxFreeHandle core hComponent

/-- A fault ends the process. -/
def coreStep (core : OmxCore) (op : CoreOp) : Option OmxCore :=
  match coreCall core op with
  | .ok (next, _) => some next
  | .error _ => none

/-- `OMX_Init`, where libraries with these components are found. -/
def omxInit (gComponentList : List String) : OmxCore where
  gComponentList := gComponentList
  nodes := fun _ => none
  gLoadComponentList := none
  created := 0
  deInits := fun _ => 0

/-! ### What the calls should do -/

/-- The handles in the list, as far as it goes. -/
def handlesFrom : ℕ → Option ℕ → List ℕ
  | 0, _ => []
  | fuel + 1, pointer =>
      match pointer.bind core.nodes with
      | none => []
      | some node => node.pOMXComponent :: handlesFrom fuel node.nextOMXComp

/-- The handles of the loaded components. -/
def OmxCore.loaded : List ℕ := handlesFrom core (core.created + 1) core.gLoadComponentList

/-- The component with the handle is unloaded and unlinked, and no other one; a handle that is not
loaded is not found, and nothing changes. -/
def FreesHandle (hComponent : ℕ) (next : OmxCore) (ret : OmxError) : Prop :=
  if hComponent ∈ core.loaded then
    ret = .errorNone ∧ next.loaded = core.loaded.erase hComponent ∧
      next.deInits = bump core.deInits hComponent
  else ret = .componentNotFound ∧ next = core

/-- A new component is loaded behind the others, unless there is an error. -/
def GetsHandle (next : OmxCore) (ret : OmxError) : Prop :=
  if ret = .errorNone then
    next.loaded = core.loaded ++ [core.created] ∧ next.deInits = core.deInits
  else next.loaded = core.loaded

/-- A call comes back and does what it should. -/
def CallMeets (core : OmxCore) (op : CoreOp) : Prop :=
  ∃ next ret, coreCall core op = .ok (next, ret) ∧
    match op with
    | .getHandle _ _ => GetsHandle core next ret
    | .freeHandle hComponent => FreesHandle core hComponent next ret

/-- A handle that is freed is loaded. -/
def HandleLoaded (core : OmxCore) : CoreOp → Prop
  | .getHandle _ _ => True
  | .freeHandle hComponent => hComponent ∈ core.loaded

end Omx
end RockchipSoc
