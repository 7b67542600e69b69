import Mathlib.Algebra.Group.Nat.Defs
import RockchipSoc.Foundation.KeyedList
import RockchipSoc.Foundation.LabelledRun

/-!
# The layers of a display

A display keeps its layers in `mLayersMap` by id, which owns them, and in `mLayers` by zorder.  It
collects pointers to them when a frame is prepared and reads through these pointers when the frame
is committed.  A pointer is the number of the layer in the order of creation.
-/

namespace RockchipSoc
namespace Display

open LabelledRun

inductive CompositionType
  | client | device | cursor | video
  | other (value : Nat)
  deriving DecidableEq, Repr

structure HdiLayer where
  mId : Nat := 0
  /-- `-1` of a `uint32_t`. -/
  mZorder : Nat := 2 ^ 32 - 1
  mCompositionType : CompositionType := .client
  mDeviceSelect : CompositionType := .client

/-- A display with the ids that all layers of the process share. -/
structure HdiDisplay where
  /-- The layers by address, the destroyed ones as they were last. -/
  layers : Nat → HdiLayer := fun _ => {}
  nextLayer : Nat := 0
  mIdSets : List Nat := []
  mIdleId : Nat := 0
  /-- The ids of the layers of other displays. -/
  otherIds : List Nat := []
  mLayersMap : Nat → Option Nat := fun _ => none
  mLayers : List Nat := []
  mChangeLayers : List Nat := []
  mCompLayers : List Nat := []
  /-- The layers destroyed since the last frame was prepared; no function reads it. -/
  destroyed : List Nat := []

/-! ## Ids -/

/-- `INVALIDE_LAYER_ID`. -/
def invalideLayerId : Nat := 2 ^ 32 - 1

/-- The loop of `GetIdleId` from `id` on. -/
def findIdle (used : List Nat) : Nat → Nat → Option Nat
  | _, 0 => none
  | id, fuel + 1 => if id ∈ used then findIdle used ((id + 1) % invalideLayerId) fuel else some id

/-- `GetIdleId` answers with the id, `mIdSets` and `mIdleId`.  Without a free id the loop ends where
it began, which it never reaches from `INVALIDE_LAYER_ID`. -/
def getIdleId (used : List Nat) (idle : Nat) : Option (Nat × List Nat × Nat) :=
  match findIdle used (idle % invalideLayerId) invalideLayerId with
  | some id => some (id, used.insert id, id + 1)
  | none =>
      if idle = invalideLayerId then none
      else some (invalideLayerId, used.insert invalideLayerId, idle + 1)

/-! ## The registry -/

/-- The key of `SortLayersByZ`. -/
def zorder (s : HdiDisplay) (layer : Nat) : Nat := (s.layers layer).mZorder

def setLayer (s : HdiDisplay) (layer : Nat) (value : HdiLayer) : HdiDisplay :=
  { s with layers := fun k => if k = layer then value else s.layers k }

/-- `CreateLayer` with an id that `Init` has obtained.  `emplace` keeps an older layer of that id,
and the new one is destroyed. -/
def addLayer (s : HdiDisplay) (id : Nat) : HdiDisplay :=
  let new := s.nextLayer
  let created := setLayer { s with nextLayer := new + 1 } new { mId := id }
  let listed := { created with mLayers := KeyedList.insertUpper (zorder created) new s.mLayers }
  match s.mLayersMap id with
  | none => { listed with mLayersMap := fun k => if k = id then some new else s.mLayersMap k }
  | some _ => { listed with mIdSets := s.mIdSets.erase id, destroyed := new :: s.destroyed }

/-- `CreateLayer`.  When there is no id left, the destructor of the layer erases the id 0 that the
layer still has. -/
def createLayer (s : HdiDisplay) : Option HdiDisplay :=
  (getIdleId s.mIdSets s.mIdleId).map fun (id, used, idle) =>
    if id = invalideLayerId then { s with mIdSets := used.erase 0, mIdleId := idle }
    else addLayer { s with mIdSets := used, mIdleId := idle } id

/-- `DestroyLayer`: `mLayers.erase` compares layers by zorder. -/
def destroyLayer (s : HdiDisplay) (id : Nat) : HdiDisplay :=
  match s.mLayersMap id with
  | none => s
  | some layer => { s with
      mLayers := KeyedList.eraseClass (zorder s) layer s.mLayers
      mLayersMap := fun k => if k = id then none else s.mLayersMap k
      mIdSets := s.mIdSets.erase (s.layers layer).mId
      destroyed := layer :: s.destroyed }

/-- `SetLayerZorder` erases the layer itself and inserts it again. -/
def setLayerZorder (s : HdiDisplay) (id z : Nat) : HdiDisplay :=
  match s.mLayersMap id with
  | none => s
  | some layer =>
      if zorder s layer = z then s
      else
        let moved := setLayer s layer { s.layers layer with mZorder := z }
        { moved with mLayers :=
            KeyedList.insertUpper (zorder moved) layer (s.mLayers.erase layer) }

def setLayerCompositionType (s : HdiDisplay) (id : Nat) (type : CompositionType) : HdiDisplay :=
  match s.mLayersMap id with
  | none => s
  | some layer => setLayer s layer { s.layers layer with mCompositionType := type }

/-! ## Frames -/

def compositionType (s : HdiDisplay) (layer : Nat) : CompositionType :=
  (s.layers layer).mCompositionType

/-- The layers that the composition does not place itself. -/
def ownComposition (type : CompositionType) : Bool := type = .video ∨ type = .cursor

def useCompositionClient (s : HdiDisplay) (layers : List Nat) : Bool :=
  layers.any (fun layer => compositionType s layer = .client) ||
    decide (4 < layers.countP fun layer => !ownComposition (compositionType s layer))

/-- What `HdiGfxComposition::SetLayers` selects for a layer. -/
def deviceSelect (s : HdiDisplay) (layers : List Nat) (layer : Nat) : CompositionType :=
  if ownComposition (compositionType s layer) then compositionType s layer
  else if useCompositionClient s layers then .client else .device

/-- `HdiGfxComposition::SetLayers`. -/
def setLayers (s : HdiDisplay) (layers : List Nat) : HdiDisplay :=
  { s with
    layers := fun k => if k ∈ layers then
      { s.layers k with mDeviceSelect := deviceSelect s layers k } else s.layers k
    mCompLayers := layers }

def prepareDisplayLayers (s : HdiDisplay) : HdiDisplay :=
  let selected := setLayers s s.mLayers
  { selected with
    layers := fun k => if k ∈ s.mLayers then
      { selected.layers k with mCompositionType := (selected.layers k).mDeviceSelect }
      else selected.layers k
    mChangeLayers := s.mLayers
    destroyed := [] }

/-- The layers that a loop reads which ends behind the first one where it stops. -/
def readUntil (stops : Nat → Nat → Bool) : Nat → List Nat → List Nat
  | _, [] => []
  | i, layer :: rest => layer :: if stops i layer then [] else readUntil stops (i + 1) rest

/-- The layers that `HdiGfxComposition::Apply` reads: it looks for one to be composed by the
device, then composes them; `gfx i` tells whether that succeeds for the layer at `i`. -/
def applyReads (s : HdiDisplay) (gfx : Nat → Bool) : List Nat :=
  readUntil (fun _ layer => compositionType s layer = .device) 0 s.mCompLayers ++
    readUntil (fun i layer =>
      decide (compositionType s layer = .video ∨ compositionType s layer = .device) && !gfx i) 0
      s.mCompLayers

/-- The layers that `GetDisplayCompChange` reads, with or without arrays for the answers. -/
def compChangeReads (s : HdiDisplay) (layers type : Bool) : List Nat :=
  if layers || type then s.mChangeLayers else []

/-! ## Steps -/

inductive DisplayLabel
  | createLayer
  | destroyLayer (id : Nat)
  | setLayerZorder (id z : Nat)
  | setLayerCompositionType (id : Nat) (type : CompositionType)
  | prepareDisplayLayers
  | getDisplayCompChange (layers type : Bool)
  | commit (gfx : Nat → Bool)
  /-- A layer of another display. -/
  | otherCreate
  | otherDestroy (id : Nat)

/-- The ids of the process when another display creates a layer. -/
def otherCreate (s : HdiDisplay) : Option HdiDisplay :=
  (getIdleId s.mIdSets s.mIdleId).map fun (id, used, idle) =>
    if id = invalideLayerId then { s with mIdSets := used.erase 0, mIdleId := idle }
    else { s with mIdSets := used, mIdleId := idle, otherIds := id :: s.otherIds }

def displayStep (s : HdiDisplay) : DisplayLabel → Option HdiDisplay
  | .createLayer => createLayer s
  | .destroyLayer id => some (destroyLayer s id)
  | .setLayerZorder id z => some (setLayerZorder s id z)
  | .setLayerCompositionType id type => some (setLayerCompositionType s id type)
  | .prepareDisplayLayers => some (prepareDisplayLayers s)
  | .getDisplayCompChange _ _ | .commit _ => some s
  | .otherCreate => otherCreate s
  | .otherDestroy id =>
      if id ∈ s.otherIds then
        some { s with mIdSets := s.mIdSets.erase id, otherIds := s.otherIds.erase id }
      else none

/-- The layers that a step of the display reads through collected pointers. -/
def reads (s : HdiDisplay) : DisplayLabel → List Nat
  | .commit gfx => applyReads s gfx
  | .getDisplayCompChange layers type => compChangeReads s layers type
  | _ => []

/-- A client of the display has the layer. -/
def Live (s : HdiDisplay) (layer : Nat) : Prop := ∃ id, s.mLayersMap id = some layer

end Display
end RockchipSoc
