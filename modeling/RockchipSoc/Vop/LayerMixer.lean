import Mathlib.Algebra.BigOperators.Group.Finset.Basic
import Mathlib.Data.Finset.Max
import Mathlib.Data.List.Sort
import Mathlib.Logic.Function.Basic

/-!
# Windows and layers of the VOP2

A video output processor shows main windows on its video ports.  Every window sits on one layer,
and a register with a nibble for each layer selects the windows.  A commit on a port takes its
windows from the ports that had them and puts them, in the order of their `zpos`, on the layers
that follow those of the lower ports.  Masks stand as the sets of their bits.
-/

namespace RockchipSoc
namespace Vop

/-- `struct vop_reg`: a field of a register. -/
structure VopReg where
  mask : BitVec 32
  shift : ℕ

/-- The tables of a chip.  `wins` are the ids of the main windows; a window's other constants
are found under its id, a port's under its number. -/
structure Vop2Data where
  nrVps : ℕ
  nrLayers : ℕ
  wins : Finset ℕ
  layerSelId : ℕ → ℕ
  baseId : ℕ → ℕ
  spliceWinId : ℕ → ℕ
  spliceVpId : ℕ → ℕ
  isRk3588 : Bool
  nrLayers_le : nrLayers ≤ 8
  layerSelId_lt : ∀ win ∈ wins, layerSelId win < 8

structure Vop2Layer where
  id : ℕ
  winPhysId : ℕ
  deriving DecidableEq, Repr

structure Vop2Win where
  layerId : ℕ
  vpMask : Finset ℕ

structure Vop2VideoPort where
  winMask : Finset ℕ
  nrLayers : ℕ
  hdr10AtSpliceMode : Bool

/-- `layerSel` is the saved image of the register `OVL_LAYER_SEL`; main windows are found under
their `phys_id`. -/
structure Vop2 where
  layers : ℕ → Vop2Layer
  win : ℕ → Vop2Win
  vps : ℕ → Vop2VideoPort
  layerSel : BitVec 32

structure Vop2Zpos where
  winPhysId : ℕ
  zpos : ℤ
  plane : ℕ
  deriving DecidableEq, Repr

/-- A plane of a commit: the window it is, with its state. -/
structure Vop2Plane where
  physId : ℕ
  clusterSub : Bool
  hasParent : Bool
  zpos : ℤ
  hdr10 : Bool
  deriving DecidableEq, Repr

/-- What `vop2_crtc_atomic_begin` is given: the port, its planes and whether the port drives its
display together with another one. -/
structure Commit where
  port : ℕ
  planes : List Vop2Plane
  spliceMode : Bool
  deriving DecidableEq, Repr

/-! ### Accessors -/

/-- A layer of the array; there is none past its end. -/
def Vop2.layerAt (data : Vop2Data) (vop2 : Vop2) (index : ℕ) : Option Vop2Layer :=
  if index < data.nrLayers then some (vop2.layers index) else none

def vop2FindWinByPhysId (data : Vop2Data) (vop2 : Vop2) (physId : ℕ) : Option Vop2Win :=
  if physId ∈ data.wins then some (vop2.win physId) else none

def Vop2.setLayer (vop2 : Vop2) (index : ℕ) (layer : Vop2Layer) : Vop2 :=
  { vop2 with layers := Function.update vop2.layers index layer }

def Vop2.setWin (vop2 : Vop2) (physId : ℕ) (win : Vop2Win) : Vop2 :=
  { vop2 with win := Function.update vop2.win physId win }

def Vop2.setVp (vop2 : Vop2) (port : ℕ) (vp : Vop2VideoPort) : Vop2 :=
  { vop2 with vps := Function.update vop2.vps port vp }

/-- `ffs`: the number of the lowest bit, counted from one. -/
def ffs (mask : Finset ℕ) : ℕ :=
  if some_bit : mask.Nonempty then mask.min' some_bit + 1 else 0

/-! ### The layer mixer -/

/-- The field of `OVL_LAYER_SEL` that belongs to a layer. -/
def layerSelReg (index : ℕ) : VopReg where
  mask := 0x7
  shift := 4 * index

def vop2LayerCfgUpdate (index : ℕ) (oldLayerCfg : BitVec 32) (winLayerId : ℕ) : BitVec 32 :=
  let reg := layerSelReg index
  (oldLayerCfg &&& ~~~(reg.mask <<< reg.shift)) |||
    ((BitVec.ofNat 32 winLayerId &&& reg.mask) <<< reg.shift)

/-- One round of the loop over the layers of a port: the window goes on its layer, and the window
that was there goes on the layer that has become free. -/
def placeLayer (data : Vop2Data) (usedLayers : ℕ) (vop2Zpos : List Vop2Zpos)
    (state : Vop2 × BitVec 32) (i : ℕ) : Option (Vop2 × BitVec 32) := do
  let layer ← state.1.layerAt data (usedLayers + i)
  let zpos ← vop2Zpos[i]?
  let win ← vop2FindWinByPhysId data state.1 zpos.winPhysId
  let layerId := win.layerId
  let winPhysId := layer.winPhysId
  let newLayerCfg :=
    vop2LayerCfgUpdate (usedLayers + i) state.2 (data.layerSelId zpos.winPhysId)
  let vop2 := (state.1.setWin zpos.winPhysId { win with layerId := layer.id }).setLayer
    (usedLayers + i) { layer with winPhysId := zpos.winPhysId }
  let layer ← vop2.layerAt data layerId
  let win ← vop2FindWinByPhysId data vop2 winPhysId
  let newLayerCfg := vop2LayerCfgUpdate layerId newLayerCfg (data.layerSelId winPhysId)
  some ((vop2.setWin winPhysId { win with layerId }).setLayer layerId
    { layer with winPhysId }, newLayerCfg)

/-- The layers of the lower ports. -/
def usedLayers (vop2 : Vop2) (port : ℕ) : ℕ :=
  ∑ i ∈ Finset.range port, (vop2.vps i).winMask.card

def vop2SetupLayerMixerForVp (data : Vop2Data) (vop2 : Vop2) (port : ℕ)
    (vop2Zpos : List Vop2Zpos) : Option Vop2 :=
  let vp := vop2.vps port
  let nrLayers := if vp.hdr10AtSpliceMode then vp.nrLayers * 2 else vp.nrLayers
  ((List.range nrLayers).foldlM (placeLayer data (usedLayers vop2 port) vop2Zpos)
    (vop2, vop2.layerSel)).map fun state => { state.1 with layerSel := state.2 }

/-! ### The commit -/

def vop2ZposCmp (a b : Vop2Zpos) : ℤ :=
  if a.zpos ≠ b.zpos then a.zpos - b.zpos else a.plane - b.plane

/-- `sort` by `vop2_zpos_cmp`. -/
def sortZpos (vop2Zpos : List Vop2Zpos) : List Vop2Zpos :=
  vop2Zpos.insertionSort fun a b => vop2ZposCmp a b ≤ 0

/-- The port read off a window's mask. -/
def oldVpId (vpMask : Finset ℕ) : ℕ :=
  if ffs vpMask = 0 then 0 else ffs vpMask - 1

/-- Give a window to a port, taking it from the port its mask names. -/
def attachWin (vop2 : Vop2) (port physId : ℕ) : Vop2 :=
  let win := vop2.win physId
  let oldVp := vop2.vps (oldVpId win.vpMask)
  let vop2 := vop2.setVp (oldVpId win.vpMask)
    { oldVp with winMask := oldVp.winMask.erase physId }
  let vp := vop2.vps port
  let vop2 := vop2.setVp port { vp with winMask := insert physId vp.winMask }
  vop2.setWin physId { win with vpMask := {port} }

/-- The planes that the loop of the commit handles itself. -/
def Commit.mainPlanes (commit : Commit) : List Vop2Plane :=
  commit.planes.filter fun plane => !(plane.clusterSub || plane.hasParent)

/-- One round of the loop over the planes. -/
def attachPlane (data : Vop2Data) (commit : Commit) (vop2 : Vop2) (plane : Vop2Plane) :
    Option Vop2 :=
  let vop2 := attachWin vop2 commit.port plane.physId
  if commit.spliceMode then
    (vop2FindWinByPhysId data vop2 (data.spliceWinId plane.physId)).map fun _ =>
      attachWin vop2 (data.spliceVpId commit.port) (data.spliceWinId plane.physId)
  else some vop2

/-- The array `vop2_zpos` the loop fills. -/
def Commit.zposArray (data : Vop2Data) (commit : Commit) : List Vop2Zpos :=
  commit.mainPlanes.map fun plane =>
    { winPhysId := plane.physId, zpos := plane.zpos, plane := data.baseId plane.physId }

/-- The array `vop2_zpos_splice`. -/
def Commit.spliceZposArray (data : Vop2Data) (commit : Commit) : List Vop2Zpos :=
  commit.mainPlanes.map fun plane =>
    { winPhysId := data.spliceWinId plane.physId
      zpos := plane.zpos
      plane := data.baseId (data.spliceWinId plane.physId) }

def Commit.hdr10AtSpliceMode (commit : Commit) : Bool :=
  commit.spliceMode && commit.mainPlanes.any fun plane => plane.hdr10

/-- Store the flag in the port and, in splice mode, in its partner. -/
def setHdr10AtSpliceMode (data : Vop2Data) (commit : Commit) (vop2 : Vop2) : Vop2 :=
  let hdr10AtSpliceMode := commit.hdr10AtSpliceMode
  let spliceVpId := data.spliceVpId commit.port
  let vop2 :=
    if commit.spliceMode then
      vop2.setVp spliceVpId { vop2.vps spliceVpId with hdr10AtSpliceMode }
    else vop2
  vop2.setVp commit.port { vop2.vps commit.port with hdr10AtSpliceMode }

/-- The windows of both ports in one array: the lowest two, then the rest of each. -/
def rk3588Vop2SetupHdr10SpliceLayerMixer (data : Vop2Data) (vop2 : Vop2) (port : ℕ)
    (vop2Zpos vop2ZposSplice : List Vop2Zpos) : Option Vop2 :=
  vop2SetupLayerMixerForVp data vop2 port
    (vop2Zpos.take 1 ++ vop2ZposSplice.take 1 ++ vop2Zpos.drop 1 ++ vop2ZposSplice.drop 1)

/-- Set the number of layers of a port and, unless the commit mixes the ports by itself, its
layers. -/
def setupVp (data : Vop2Data) (commit : Commit) (vop2 : Vop2) (port : ℕ)
    (vop2Zpos : List Vop2Zpos) : Option Vop2 :=
  let vop2 := vop2.setVp port { vop2.vps port with nrLayers := vop2Zpos.length }
  if (vop2.vps commit.port).hdr10AtSpliceMode then some vop2
  else vop2SetupLayerMixerForVp data vop2 port vop2Zpos

def vop2CrtcAtomicBegin (data : Vop2Data) (vop2 : Vop2) (commit : Commit) : Option Vop2 := do
  let vop2 ← commit.mainPlanes.foldlM (attachPlane data commit) vop2
  let vop2 := setHdr10AtSpliceMode data commit vop2
  let vop2Zpos := sortZpos (commit.zposArray data)
  let vop2ZposSplice := sortZpos (commit.spliceZposArray data)
  let spliceVpId := data.spliceVpId commit.port
  if commit.mainPlanes.length = 0 then some vop2
  else do
    let vop2 ← setupVp data commit vop2 commit.port vop2Zpos
    if commit.spliceMode then do
      let vop2 ← setupVp data commit vop2 spliceVpId vop2ZposSplice
      if data.isRk3588 && (vop2.vps commit.port).hdr10AtSpliceMode then
        rk3588Vop2SetupHdr10SpliceLayerMixer data vop2 commit.port vop2Zpos vop2ZposSplice
      else some vop2
    else some vop2

end Vop
end RockchipSoc
