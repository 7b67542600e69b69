import RockchipSoc.Foundation.Placement
import RockchipSoc.Vop.LayerMixer
import Mathlib.Data.List.FinRange
import Mathlib.Data.List.Forall2

/-!
# The mixer places windows

The layers and the main windows correspond one to one, and the register names for each layer its
window.  A round of the mixer's loop is a placement of a window on a layer, so a run of the loop
leaves the windows of its array on consecutive layers.
-/

namespace RockchipSoc
namespace Vop

open Placement

/-! ### The register -/

/-- What the register holds for a layer. -/
def layerSelField (layerCfg : BitVec 32) (index : ℕ) : BitVec 32 :=
  (layerCfg >>> (layerSelReg index).shift) &&& (layerSelReg index).mask

theorem getLsbD_seven (bit : ℕ) : (7 : BitVec 32).getLsbD bit = decide (bit < 3) := by
  rw [show (7 : BitVec 32) = BitVec.ofNat 32 (2 ^ 3 - 1) from rfl, BitVec.getLsbD_ofNat,
    Nat.testBit_two_pow_sub_one]
  rcases Nat.lt_or_ge bit 3 with low | high
  · simp [low, Nat.lt_trans low (by decide : 3 < 32)]
  · simp [Nat.not_lt.mpr high]

theorem getLsbD_layerSelField (layerCfg : BitVec 32) (index bit : ℕ) :
    (layerSelField layerCfg index).getLsbD bit =
      (layerCfg.getLsbD (4 * index + bit) && decide (bit < 3)) := by
  rw [← getLsbD_seven]
  simp only [layerSelField, layerSelReg, BitVec.getLsbD_and, BitVec.getLsbD_ushiftRight]

theorem getLsbD_vop2LayerCfgUpdate (index : ℕ) (oldLayerCfg : BitVec 32) (winLayerId bit : ℕ)
    (inside : bit < 32) :
    (vop2LayerCfgUpdate index oldLayerCfg winLayerId).getLsbD bit =
      if 4 * index ≤ bit ∧ bit < 4 * index + 3 then winLayerId.testBit (bit - 4 * index)
      else oldLayerCfg.getLsbD bit := by
  simp only [vop2LayerCfgUpdate, layerSelReg, BitVec.getLsbD_or, BitVec.getLsbD_and,
    BitVec.getLsbD_not, BitVec.getLsbD_shiftLeft, getLsbD_seven, BitVec.getLsbD_ofNat, inside,
    decide_true, Bool.true_and]
  rcases Nat.lt_or_ge bit (4 * index) with below | above
  · simp [below, Nat.not_le.mpr below]
  · have offset_lt : bit - 4 * index < 32 := Nat.lt_of_le_of_lt (Nat.sub_le _ _) inside
    rcases Nat.lt_or_ge bit (4 * index + 3) with within | beyond
    · have low : bit - 4 * index < 3 := by omega
      simp [above, within, offset_lt, low, Nat.not_lt.mpr above]
    · have high : ¬bit - 4 * index < 3 := by omega
      simp [Nat.not_lt.mpr above, Nat.not_lt.mpr beyond, high]

/-- An update sets the field of its layer and leaves the others. -/
theorem layerSelField_update {index : ℕ} (index_lt : index < 8) (oldLayerCfg : BitVec 32)
    {winLayerId : ℕ} (winLayerId_lt : winLayerId < 8) (other : ℕ) :
    layerSelField (vop2LayerCfgUpdate index oldLayerCfg winLayerId) other =
      if other = index then BitVec.ofNat 32 winLayerId else layerSelField oldLayerCfg other := by
  apply BitVec.eq_of_getLsbD_eq
  intro bit bit_lt
  rw [getLsbD_layerSelField]
  rcases Nat.lt_or_ge bit 3 with low | high
  · split
    · next same =>
        subst same
        rw [getLsbD_vop2LayerCfgUpdate _ _ _ _ (by omega), if_pos ⟨by omega, by omega⟩,
          BitVec.getLsbD_ofNat, Nat.add_sub_cancel_left]
        simp [low, bit_lt]
    · next different =>
        rw [getLsbD_layerSelField]
        rcases Nat.lt_or_ge (4 * other + bit) 32 with inside | outside
        · rw [getLsbD_vop2LayerCfgUpdate _ _ _ _ inside, if_neg (by omega)]
        · rw [BitVec.getLsbD_of_ge _ _ outside, BitVec.getLsbD_of_ge _ _ outside]
  · have clear : winLayerId.testBit bit = false :=
      Nat.testBit_lt_two_pow (Nat.lt_of_lt_of_le winLayerId_lt
        (Nat.pow_le_pow_right (by decide) high : 2 ^ 3 ≤ 2 ^ bit))
    split
    · simp [Nat.not_lt.mpr high, clear, BitVec.getLsbD_ofNat]
    · simp [Nat.not_lt.mpr high, getLsbD_layerSelField]

/-! ### One to one -/

/-- The tables and a register image hold an assignment of the windows to the layers. -/
structure Represents (data : Vop2Data) (vop2 : Vop2) (layerCfg : BitVec 32)
    (assigned : Fin data.nrLayers ≃ data.wins) : Prop where
  id : ∀ layer : Fin data.nrLayers, (vop2.layers layer).id = layer
  winPhysId : ∀ layer : Fin data.nrLayers, (vop2.layers layer).winPhysId = assigned layer
  layerId : ∀ win : data.wins, (vop2.win win).layerId = assigned.symm win
  layerSel : ∀ layer : Fin data.nrLayers,
    layerSelField layerCfg layer = BitVec.ofNat 32 (data.layerSelId (assigned layer))

/-- A step that touches neither the ports nor the masks of the windows. -/
structure KeepsPorts (before after : Vop2) : Prop where
  vps : after.vps = before.vps
  vpMask : ∀ win, (after.win win).vpMask = (before.win win).vpMask

theorem KeepsPorts.trans {first second third : Vop2} (left : KeepsPorts first second)
    (right : KeepsPorts second third) : KeepsPorts first third where
  vps := right.vps.trans left.vps
  vpMask win := (right.vpMask win).trans (left.vpMask win)

variable {data : Vop2Data}

/-- A round of the loop is a placement. -/
theorem placeLayer_represents {vop2 : Vop2} {layerCfg : BitVec 32}
    {assigned : Fin data.nrLayers ≃ data.wins} {used : ℕ} {zposs : List Vop2Zpos} {i : ℕ}
    {zpos : Vop2Zpos} {slot : Fin data.nrLayers} {item : data.wins}
    (represents : Represents data vop2 layerCfg assigned) (slot_eq : used + i = slot)
    (zpos_eq : zposs[i]? = some zpos) (item_eq : zpos.winPhysId = item) :
    ∃ vop2' layerCfg', placeLayer data used zposs (vop2, layerCfg) i = some (vop2', layerCfg') ∧
      Represents data vop2' layerCfg' (place assigned slot item) ∧ KeepsPorts vop2 vop2' := by
  have slot_lt := slot.2
  have item_mem := item.2
  have vacated_lt := (assigned.symm item).2
  have displaced_mem : (vop2.layers slot).winPhysId ∈ data.wins := by
    rw [represents.winPhysId]
    exact (assigned slot).2
  simp only [placeLayer, Vop2.layerAt, vop2FindWinByPhysId, slot_eq, zpos_eq, item_eq, item_mem,
    slot_lt, if_true, Option.bind_eq_bind, Option.bind_some, represents.layerId item,
    vacated_lt, displaced_mem, Vop2.setWin, Vop2.setLayer]
  refine ⟨_, _, rfl, ⟨?_, ?_, ?_, ?_⟩, rfl, ?_⟩
  · intro layer
    simp only [Function.update_apply]
    split_ifs <;> simp_all [represents.id]
  · intro layer
    simp only [Function.update_apply, place_apply, Fin.val_inj]
    split_ifs <;> simp [represents.winPhysId]
  · intro win
    rw [place_symm_apply]
    simp only [Function.update_apply, represents.winPhysId, Subtype.val_inj]
    split_ifs <;> simp [represents.id, represents.layerId]
  · intro layer
    have slot_sel := data.layerSelId_lt _ item_mem
    have vacated_sel := data.layerSelId_lt _ displaced_mem
    rw [layerSelField_update (Nat.lt_of_lt_of_le vacated_lt data.nrLayers_le) _ vacated_sel,
      layerSelField_update (Nat.lt_of_lt_of_le slot_lt data.nrLayers_le) _ slot_sel,
      represents.layerSel, represents.winPhysId, place_apply]
    simp only [Fin.val_inj]
    split_ifs <;> rfl
  · intro win
    simp only [Function.update_apply]
    split_ifs <;> simp_all

/-- The loop makes its placements one after the other. -/
theorem foldlM_placeLayer_represents {used : ℕ} {zposs : List Vop2Zpos} {rounds : List ℕ}
    {placements : List (Fin data.nrLayers × data.wins)}
    (matched : List.Forall₂ (fun i (placement : Fin data.nrLayers × data.wins) =>
      used + i = placement.1 ∧ ∃ zpos, zposs[i]? = some zpos ∧ zpos.winPhysId = placement.2)
      rounds placements)
    {vop2 : Vop2} {layerCfg : BitVec 32} {assigned : Fin data.nrLayers ≃ data.wins}
    (represents : Represents data vop2 layerCfg assigned) :
    ∃ vop2' layerCfg',
      rounds.foldlM (placeLayer data used zposs) (vop2, layerCfg) = some (vop2', layerCfg') ∧
        Represents data vop2' layerCfg' (placeAll assigned placements) ∧
        KeepsPorts vop2 vop2' := by
  induction matched generalizing vop2 layerCfg assigned with
  | nil => exact ⟨vop2, layerCfg, rfl, represents, rfl, fun _ => rfl⟩
  | cons round rounds ih =>
      obtain ⟨slot_eq, zpos, zpos_eq, item_eq⟩ := round
      obtain ⟨middle, middleCfg, placed, represents', keeps⟩ :=
        placeLayer_represents represents slot_eq zpos_eq item_eq
      obtain ⟨last, lastCfg, rest, represents'', keeps'⟩ := ih represents'
      refine ⟨last, lastCfg, ?_, represents'', keeps.trans keeps'⟩
      rw [List.foldlM_cons, placed]
      exact rest

/-! ### The windows of an array -/

/-- The windows of an array with the layers from `used` on. -/
def fillings (used : ℕ) (zposs : List Vop2Zpos) : List (ℕ × ℕ) :=
  zposs.mapIdx fun i zpos => (used + i, zpos.winPhysId)

theorem map_fst_fillings (used : ℕ) (zposs : List Vop2Zpos) :
    (fillings used zposs).map Prod.fst = List.range' used zposs.length := by
  apply List.ext_getElem
  · simp [fillings]
  · intro i _ _
    simp [fillings]

theorem map_snd_fillings (used : ℕ) (zposs : List Vop2Zpos) :
    (fillings used zposs).map Prod.snd = zposs.map Vop2Zpos.winPhysId := by
  apply List.ext_getElem
  · simp [fillings]
  · intro i _ _
    simp [fillings]

theorem mem_map_fst_fillings {used : ℕ} {zposs : List Vop2Zpos} {layer : ℕ} :
    layer ∈ (fillings used zposs).map Prod.fst ↔ used ≤ layer ∧ layer < used + zposs.length := by
  rw [map_fst_fillings, List.mem_range'_1]

theorem nodup_map_fst_fillings (used : ℕ) (zposs : List Vop2Zpos) :
    ((fillings used zposs).map Prod.fst).Nodup := by
  rw [map_fst_fillings]
  exact List.nodup_range'

theorem mem_fillings {used i : ℕ} {zposs : List Vop2Zpos} {zpos : Vop2Zpos}
    (zpos_eq : zposs[i]? = some zpos) : (used + i, zpos.winPhysId) ∈ fillings used zposs := by
  obtain ⟨i_lt, rfl⟩ := List.getElem?_eq_some_iff.mp zpos_eq
  exact List.mem_mapIdx.mpr ⟨i, i_lt, rfl⟩

/-- The placements of a run of the loop. -/
def Places (data : Vop2Data) (used : ℕ) (zposs : List Vop2Zpos)
    (placements : List (Fin data.nrLayers × data.wins)) : Prop :=
  placements.map (Prod.map Fin.val Subtype.val) = fillings used zposs

theorem Places.map_fst {used : ℕ} {zposs : List Vop2Zpos}
    {placements : List (Fin data.nrLayers × data.wins)}
    (places : Places data used zposs placements) :
    (placements.map Prod.fst).map Fin.val = (fillings used zposs).map Prod.fst := by
  rw [← show _ = fillings used zposs from places, List.map_map, List.map_map]
  rfl

theorem Places.map_snd {used : ℕ} {zposs : List Vop2Zpos}
    {placements : List (Fin data.nrLayers × data.wins)}
    (places : Places data used zposs placements) :
    (placements.map Prod.snd).map Subtype.val = zposs.map Vop2Zpos.winPhysId := by
  rw [← map_snd_fillings used, ← show _ = fillings used zposs from places, List.map_map,
    List.map_map]
  rfl

theorem Places.slots {used : ℕ} {zposs : List Vop2Zpos}
    {placements : List (Fin data.nrLayers × data.wins)}
    (places : Places data used zposs placements) :
    (placements.map Prod.fst).Nodup :=
  List.Nodup.of_map Fin.val (places.map_fst ▸ nodup_map_fst_fillings used zposs)

theorem Places.items {used : ℕ} {zposs : List Vop2Zpos}
    {placements : List (Fin data.nrLayers × data.wins)}
    (places : Places data used zposs placements)
    (distinct : (zposs.map Vop2Zpos.winPhysId).Nodup) : (placements.map Prod.snd).Nodup :=
  List.Nodup.of_map Subtype.val (places.map_snd ▸ distinct)

/-- The loop of a port places the windows of its array on the layers after those of the lower
ports. -/
theorem vop2SetupLayerMixerForVp_places {vop2 : Vop2}
    {assigned : Fin data.nrLayers ≃ data.wins} {port : ℕ} {zposs : List Vop2Zpos}
    (represents : Represents data vop2 vop2.layerSel assigned)
    (plain : (vop2.vps port).hdr10AtSpliceMode = false)
    (count : (vop2.vps port).nrLayers = zposs.length)
    (fits : usedLayers vop2 port + zposs.length ≤ data.nrLayers)
    (windows : ∀ zpos ∈ zposs, zpos.winPhysId ∈ data.wins) :
    ∃ vop2' placements, vop2SetupLayerMixerForVp data vop2 port zposs = some vop2' ∧
      Represents data vop2' vop2'.layerSel (placeAll assigned placements) ∧
      KeepsPorts vop2 vop2' ∧ Places data (usedLayers vop2 port) zposs placements := by
  have slot_lt (i : Fin zposs.length) : usedLayers vop2 port + i < data.nrLayers := by omega
  have item_mem (i : Fin zposs.length) : (zposs.get i).winPhysId ∈ data.wins :=
    windows _ (List.get_mem zposs i)
  let slot (i : Fin zposs.length) : Fin data.nrLayers := ⟨usedLayers vop2 port + i, slot_lt i⟩
  let item (i : Fin zposs.length) : data.wins := ⟨(zposs.get i).winPhysId, item_mem i⟩
  let placements := List.ofFn fun i => (slot i, item i)
  have matched : List.Forall₂ (fun i (placement : Fin data.nrLayers × data.wins) =>
      usedLayers vop2 port + i = placement.1 ∧
        ∃ zpos, zposs[i]? = some zpos ∧ zpos.winPhysId = placement.2)
      (List.range zposs.length) placements := by
    refine List.forall₂_iff_get.mpr ⟨by simp [placements], fun i range_lt _ => ?_⟩
    have i_lt : i < zposs.length := by simpa using range_lt
    exact ⟨by simp [placements, slot], zposs.get ⟨i, i_lt⟩, by simp [i_lt],
      by simp [placements, item]⟩
  obtain ⟨last, lastCfg, ran, represents', keeps⟩ :=
    foldlM_placeLayer_represents matched represents
  refine ⟨{ last with layerSel := lastCfg }, placements, ?_, ?_, ?_, ?_⟩
  · simp [vop2SetupLayerMixerForVp, plain, count, ran]
  · exact ⟨represents'.id, represents'.winPhysId, represents'.layerId, represents'.layerSel⟩
  · exact ⟨keeps.vps, keeps.vpMask⟩
  · apply List.ext_getElem
    · simp [placements, fillings]
    · intro i _ _
      simp [placements, fillings, slot, item]

/-- The windows of a list stand on consecutive layers. -/
def Shows (vop2 : Vop2) (used : ℕ) (zposs : List Vop2Zpos) : Prop :=
  ∀ i zpos, zposs[i]? = some zpos → (vop2.layers (used + i)).winPhysId = zpos.winPhysId

/-- The mixer puts the windows of its array on consecutive layers.  Other layers keep windows
that are not in the array. -/
theorem vop2SetupLayerMixerForVp_spec {vop2 : Vop2}
    {assigned : Fin data.nrLayers ≃ data.wins} {port : ℕ} {zposs : List Vop2Zpos}
    (represents : Represents data vop2 vop2.layerSel assigned)
    (plain : (vop2.vps port).hdr10AtSpliceMode = false)
    (count : (vop2.vps port).nrLayers = zposs.length)
    (fits : usedLayers vop2 port + zposs.length ≤ data.nrLayers)
    (windows : ∀ zpos ∈ zposs, zpos.winPhysId ∈ data.wins)
    (distinct : (zposs.map Vop2Zpos.winPhysId).Nodup) :
    ∃ vop2' assigned', vop2SetupLayerMixerForVp data vop2 port zposs = some vop2' ∧
      Represents data vop2' vop2'.layerSel assigned' ∧ KeepsPorts vop2 vop2' ∧
      Shows vop2' (usedLayers vop2 port) zposs ∧
      ∀ layer < data.nrLayers,
        (layer < usedLayers vop2 port ∨ usedLayers vop2 port + zposs.length ≤ layer) →
        (vop2.layers layer).winPhysId ∉ zposs.map Vop2Zpos.winPhysId →
        (vop2'.layers layer).winPhysId = (vop2.layers layer).winPhysId := by
  obtain ⟨vop2', placements, ran, represents', keeps, places⟩ :=
    vop2SetupLayerMixerForVp_places represents plain count fits windows
  refine ⟨vop2', placeAll assigned placements, ran, represents', keeps, ?_, ?_⟩
  · intro i zpos zpos_eq
    have filled : (usedLayers vop2 port + i, zpos.winPhysId) ∈
        placements.map (Prod.map Fin.val Subtype.val) := places ▸ mem_fillings zpos_eq
    obtain ⟨⟨slot, item⟩, listed, same⟩ := List.mem_map.mp filled
    obtain ⟨slot_eq, item_eq⟩ := Prod.mk.inj same
    have placed : placeAll assigned placements slot = item :=
      placeAll_of_mem places.slots (places.items distinct) listed
    rw [← slot_eq, ← item_eq, ← placed]
    exact represents'.winPhysId slot
  · intro layer layer_lt outside absent
    have free : (⟨layer, layer_lt⟩ : Fin data.nrLayers) ∉ placements.map Prod.fst := by
      intro listed
      have filled := List.mem_map_of_mem (f := Fin.val) listed
      rw [places.map_fst, mem_map_fst_fillings] at filled
      have : usedLayers vop2 port ≤ layer ∧ layer < usedLayers vop2 port + zposs.length := filled
      omega
    have apart : assigned ⟨layer, layer_lt⟩ ∉ placements.map Prod.snd := by
      intro listed
      have named := List.mem_map_of_mem (f := Subtype.val) listed
      rw [places.map_snd, ← represents.winPhysId ⟨layer, layer_lt⟩] at named
      exact absent named
    rw [represents.winPhysId ⟨layer, layer_lt⟩, ← placeAll_of_not_mem free apart]
    exact represents'.winPhysId ⟨layer, layer_lt⟩

/-- The layer a window is on. -/
def Vop2.layerOf (vop2 : Vop2) (win : ℕ) : ℕ := (vop2.win win).layerId

/-- A window that is not in the array is pushed from layer to layer until one stays free. -/
theorem vop2SetupLayerMixerForVp_lands {vop2 vop2' : Vop2}
    {assigned : Fin data.nrLayers ≃ data.wins} {port : ℕ} {zposs : List Vop2Zpos}
    (represents : Represents data vop2 vop2.layerSel assigned)
    (plain : (vop2.vps port).hdr10AtSpliceMode = false)
    (count : (vop2.vps port).nrLayers = zposs.length)
    (fits : usedLayers vop2 port + zposs.length ≤ data.nrLayers)
    (windows : ∀ zpos ∈ zposs, zpos.winPhysId ∈ data.wins)
    (distinct : (zposs.map Vop2Zpos.winPhysId).Nodup)
    (ran : vop2SetupLayerMixerForVp data vop2 port zposs = some vop2') {win : ℕ}
    (win_mem : win ∈ data.wins) (apart : win ∉ zposs.map Vop2Zpos.winPhysId) :
    Lands vop2.layerOf (fillings (usedLayers vop2 port) zposs) (vop2.layerOf win)
      (vop2'.layerOf win) := by
  obtain ⟨last, placements, ran', represents', _, places⟩ :=
    vop2SetupLayerMixerForVp_places represents plain count fits windows
  obtain rfl : last = vop2' := Option.some.inj (ran'.symm.trans ran)
  have unnamed : (⟨win, win_mem⟩ : data.wins) ∉ placements.map Prod.snd := by
    intro listed
    have named := List.mem_map_of_mem (f := Subtype.val) listed
    rw [places.map_snd] at named
    exact apart named
  have agree (item : data.wins) : vop2.layerOf (Subtype.val item) = (assigned.symm item : ℕ) :=
    represents.layerId item
  have lands : Lands vop2.layerOf (placements.map (Prod.map Fin.val Subtype.val))
      (assigned.symm ⟨win, win_mem⟩) ((placeAll assigned placements).symm ⟨win, win_mem⟩) :=
    (placeAll_lands (places.items distinct) unnamed).map Fin.val_injective agree
  rw [show _ = fillings (usedLayers vop2 port) zposs from places, ← represents.layerId,
    ← represents'.layerId] at lands
  exact lands

end Vop
end RockchipSoc
