import RockchipSoc.Foundation.LabelledRun
import RockchipSoc.Vop.PortMasks
import Mathlib.Algebra.Order.BigOperators.Group.Finset
import Mathlib.Data.Fintype.Card

/-!
# Windows and layers map one to one

Each layer has one window and each window one layer, the register says the same, and each window
belongs to the one port its mask names.  A commit keeps all of it, uses no layer past the end of
the array and leaves the windows of its port in the order of their `zpos` on the layers after
those of the lower ports.
-/

namespace RockchipSoc
namespace Vop

variable {data : Vop2Data}

/-- The windows, the layers, the register and the masks of the ports fit together. -/
structure LayerMap (data : Vop2Data) (vop2 : Vop2) : Prop where
  id : ∀ layer < data.nrLayers, (vop2.layers layer).id = layer
  ofLayer : ∀ layer < data.nrLayers, (vop2.layers layer).winPhysId ∈ data.wins ∧
    (vop2.win (vop2.layers layer).winPhysId).layerId = layer
  ofWin : ∀ win ∈ data.wins, (vop2.win win).layerId < data.nrLayers ∧
    (vop2.layers (vop2.win win).layerId).winPhysId = win
  owned : Owned data vop2
  layerSel : ∀ layer < data.nrLayers, layerSelField vop2.layerSel layer =
    BitVec.ofNat 32 (data.layerSelId (vop2.layers layer).winPhysId)

/-- A commit with windows of the chip, none of them given to two ports, with different `zpos`,
and not in the splice mode with HDR10. -/
structure Commit.Ok (data : Vop2Data) (commit : Commit) : Prop where
  port_lt : commit.port < data.nrVps
  windows : ∀ plane ∈ commit.mainPlanes, plane.physId ∈ data.wins
  partner : commit.spliceMode = true →
    data.spliceVpId commit.port < data.nrVps ∧ data.spliceVpId commit.port ≠ commit.port
  spliceWindows : commit.spliceMode = true →
    ∀ plane ∈ commit.mainPlanes, data.spliceWinId plane.physId ∈ data.wins
  once : ((commit.moves data).map Prod.snd).Nodup
  zpos : (commit.mainPlanes.map Vop2Plane.zpos).Nodup
  notHdr10 : commit.hdr10AtSpliceMode = false

/-- A port shows the windows of an array, by ascending `zpos`, on the layers that follow those
of the lower ports. -/
def ShowsInOrder (vop2 : Vop2) (port : ℕ) (array : List Vop2Zpos) : Prop :=
  ∃ sorted : List Vop2Zpos, sorted.Perm array ∧ sorted.Pairwise (fun a b => a.zpos < b.zpos) ∧
    (sorted ≠ [] → (vop2.vps port).nrLayers = sorted.length) ∧
    Shows vop2 (usedLayers vop2 port) sorted

/-! ### An assignment -/

theorem LayerMap.exists_represents {vop2 : Vop2} (mapped : LayerMap data vop2) :
    ∃ assigned, Represents data vop2 vop2.layerSel assigned := by
  refine ⟨{ toFun := fun layer => ⟨_, (mapped.ofLayer layer layer.2).1⟩
            invFun := fun win => ⟨_, (mapped.ofWin win win.2).1⟩
            left_inv := fun layer => Fin.ext (mapped.ofLayer layer layer.2).2
            right_inv := fun win => Subtype.ext (mapped.ofWin win win.2).2 }, ?_, ?_, ?_, ?_⟩
  · exact fun layer => mapped.id layer layer.2
  · exact fun layer => rfl
  · exact fun win => rfl
  · exact fun layer => mapped.layerSel layer layer.2

theorem Represents.layerMap {vop2 : Vop2} {assigned : Fin data.nrLayers ≃ data.wins}
    (represents : Represents data vop2 vop2.layerSel assigned) (owned : Owned data vop2) :
    LayerMap data vop2 where
  id layer layer_lt := represents.id ⟨layer, layer_lt⟩
  ofLayer layer layer_lt := by
    rw [represents.winPhysId ⟨layer, layer_lt⟩]
    exact ⟨(assigned _).2, by rw [represents.layerId, Equiv.symm_apply_apply]⟩
  ofWin win win_mem := by
    rw [represents.layerId ⟨win, win_mem⟩]
    exact ⟨(assigned.symm _).2, by rw [represents.winPhysId, Equiv.apply_symm_apply]⟩
  owned := owned
  layerSel layer layer_lt := by
    rw [represents.layerSel ⟨layer, layer_lt⟩, represents.winPhysId ⟨layer, layer_lt⟩]

/-! ### Counting layers -/

theorem usedLayers_succ (vop2 : Vop2) (port : ℕ) :
    usedLayers vop2 (port + 1) = usedLayers vop2 port + (vop2.vps port).winMask.card :=
  Finset.sum_range_succ _ _

theorem usedLayers_mono (vop2 : Vop2) {port other : ℕ} (le : port ≤ other) :
    usedLayers vop2 port ≤ usedLayers vop2 other :=
  Finset.sum_le_sum_of_subset (Finset.range_subset_range.mpr le)

theorem usedLayers_congr {before after : Vop2}
    (winMask : ∀ port, (after.vps port).winMask = (before.vps port).winMask) (port : ℕ) :
    usedLayers after port = usedLayers before port :=
  Finset.sum_congr rfl fun i _ => by rw [winMask]

/-- The windows of all ports are no more than the layers. -/
theorem usedLayers_le {vop2 : Vop2} (assigned : Fin data.nrLayers ≃ data.wins)
    (owned : Owned data vop2) : usedLayers vop2 data.nrVps ≤ data.nrLayers := by
  have disjoint : ((Finset.range data.nrVps : Finset ℕ) : Set ℕ).PairwiseDisjoint
      fun port => (vop2.vps port).winMask := by
    intro port port_mem other other_mem different
    exact owned.disjoint port (Finset.mem_range.mp port_mem) other (Finset.mem_range.mp other_mem)
      different
  have inside : (Finset.range data.nrVps).biUnion (fun port => (vop2.vps port).winMask) ⊆
      data.wins :=
    Finset.biUnion_subset.mpr fun port port_mem => owned.inside port (Finset.mem_range.mp port_mem)
  have count : data.wins.card = data.nrLayers := by
    rw [← Fintype.card_coe, ← Fintype.card_congr assigned, Fintype.card_fin]
  calc usedLayers vop2 data.nrVps
      = ((Finset.range data.nrVps).biUnion fun port => (vop2.vps port).winMask).card :=
        (Finset.card_biUnion disjoint).symm
    _ ≤ data.wins.card := Finset.card_le_card inside
    _ = data.nrLayers := count

/-- Windows of a port fit on the layers between those of the lower and of the higher ports. -/
theorem usedLayers_add_le {vop2 : Vop2} {port : ℕ} {wins : List ℕ} (distinct : wins.Nodup)
    (shown : ∀ win ∈ wins, win ∈ (vop2.vps port).winMask) {other : ℕ} (lower : port < other) :
    usedLayers vop2 port + wins.length ≤ usedLayers vop2 other := by
  have few : wins.length ≤ (vop2.vps port).winMask.card := by
    rw [← List.toFinset_card_of_nodup distinct]
    exact Finset.card_le_card fun win listed => shown win (List.mem_toFinset.mp listed)
  have next := usedLayers_mono vop2 (Nat.succ_le_of_lt lower)
  rw [Nat.succ_eq_add_one, usedLayers_succ] at next
  omega

/-! ### The order -/

theorem vop2ZposCmp_le_zero_iff (a b : Vop2Zpos) :
    vop2ZposCmp a b ≤ 0 ↔ a.zpos < b.zpos ∨ a.zpos = b.zpos ∧ a.plane ≤ b.plane := by
  unfold vop2ZposCmp
  split <;> omega

instance : Std.Total fun a b : Vop2Zpos => vop2ZposCmp a b ≤ 0 where
  total a b := by
    rw [vop2ZposCmp_le_zero_iff, vop2ZposCmp_le_zero_iff]
    omega

instance : IsTrans Vop2Zpos fun a b => vop2ZposCmp a b ≤ 0 where
  trans a b c := by
    simp only [vop2ZposCmp_le_zero_iff]
    omega

/-- Different positions come out in strictly ascending order. -/
theorem sortZpos_ascending {array : List Vop2Zpos} (distinct : (array.map Vop2Zpos.zpos).Nodup) :
    (sortZpos array).Pairwise fun a b => a.zpos < b.zpos := by
  have distinct' : ((sortZpos array).map Vop2Zpos.zpos).Nodup :=
    ((List.perm_insertionSort _ array).map _).nodup_iff.mpr distinct
  have sorted : (sortZpos array).Pairwise fun a b => vop2ZposCmp a b ≤ 0 :=
    List.pairwise_insertionSort _ array
  refine (sorted.and (List.pairwise_map.mp distinct')).imp fun {a b} both => ?_
  have := (vop2ZposCmp_le_zero_iff a b).mp both.1
  have := both.2
  omega

theorem mem_map_sortZpos {array : List Vop2Zpos} {win : ℕ} :
    win ∈ (sortZpos array).map Vop2Zpos.winPhysId ↔ win ∈ array.map Vop2Zpos.winPhysId :=
  ((List.perm_insertionSort _ array).map _).mem_iff

theorem nodup_map_sortZpos {array : List Vop2Zpos} :
    ((sortZpos array).map Vop2Zpos.winPhysId).Nodup ↔ (array.map Vop2Zpos.winPhysId).Nodup :=
  ((List.perm_insertionSort _ array).map _).nodup_iff

/-! ### Setting up a port -/

theorem winMask_setVp (vop2 : Vop2) (port nrLayers : ℕ) (hdr10AtSpliceMode : Bool)
    (other : ℕ) :
    ((vop2.setVp port ⟨(vop2.vps port).winMask, nrLayers, hdr10AtSpliceMode⟩).vps other).winMask =
      (vop2.vps other).winMask := by
  simp only [Vop2.setVp, Function.update_apply]
  split
  · next here => rw [here]
  · rfl

theorem keepsLayers_setVp (vop2 : Vop2) (port : ℕ) (vp : Vop2VideoPort) :
    KeepsLayers vop2 (vop2.setVp port vp) :=
  ⟨rfl, fun _ => rfl, rfl⟩

/-- What setting up a port with an array leaves. -/
structure SetUp (data : Vop2Data) (port : ℕ) (zposs : List Vop2Zpos) (before after : Vop2) :
    Prop where
  represents : ∃ assigned, Represents data after after.layerSel assigned
  vpMask : ∀ win, (after.win win).vpMask = (before.win win).vpMask
  winMask : ∀ other, (after.vps other).winMask = (before.vps other).winMask
  hdr10 : ∀ other,
    (after.vps other).hdr10AtSpliceMode = (before.vps other).hdr10AtSpliceMode
  count : (after.vps port).nrLayers = zposs.length
  count_other : ∀ other ≠ port, (after.vps other).nrLayers = (before.vps other).nrLayers
  shows : Shows after (usedLayers after port) zposs
  frame : ∀ layer < data.nrLayers,
    (layer < usedLayers after port ∨ usedLayers after port + zposs.length ≤ layer) →
    (before.layers layer).winPhysId ∉ zposs.map Vop2Zpos.winPhysId →
    (after.layers layer).winPhysId = (before.layers layer).winPhysId

/-- Without the flag the mixer runs, with the number of layers stored. -/
theorem setupVp_eq {commit : Commit} {vop2 : Vop2} {port : ℕ} (zposs : List Vop2Zpos)
    (plain : (vop2.vps commit.port).hdr10AtSpliceMode = false) :
    setupVp data commit vop2 port zposs = vop2SetupLayerMixerForVp data
      (vop2.setVp port { vop2.vps port with nrLayers := zposs.length }) port zposs := by
  have flag : ((vop2.setVp port { vop2.vps port with nrLayers := zposs.length }).vps
      commit.port).hdr10AtSpliceMode = false := by
    simp only [Vop2.setVp, Function.update_apply]
    split
    · next same => rw [← same]; exact plain
    · exact plain
  simp [setupVp, flag]

/-- The windows of the array fit on the layers that follow those of the lower ports. -/
theorem fits_of_shown {vop2 : Vop2} (assigned : Fin data.nrLayers ≃ data.wins) {port : ℕ}
    {zposs : List Vop2Zpos} (owned : Owned data vop2) (port_lt : port < data.nrVps)
    (shown : ∀ win ∈ zposs.map Vop2Zpos.winPhysId, win ∈ (vop2.vps port).winMask)
    (distinct : (zposs.map Vop2Zpos.winPhysId).Nodup) :
    usedLayers vop2 port + zposs.length ≤ data.nrLayers := by
  have fits := usedLayers_add_le distinct shown port_lt
  rw [List.length_map] at fits
  exact Nat.le_trans fits (usedLayers_le assigned owned)

theorem setupVp_spec {commit : Commit} {vop2 : Vop2} {assigned : Fin data.nrLayers ≃ data.wins}
    {port : ℕ} (zposs : List Vop2Zpos) (represents : Represents data vop2 vop2.layerSel assigned)
    (owned : Owned data vop2) (port_lt : port < data.nrVps)
    (plain : (vop2.vps commit.port).hdr10AtSpliceMode = false)
    (plain_port : (vop2.vps port).hdr10AtSpliceMode = false)
    (shown : ∀ win ∈ zposs.map Vop2Zpos.winPhysId, win ∈ (vop2.vps port).winMask)
    (distinct : (zposs.map Vop2Zpos.winPhysId).Nodup) :
    ∃ next, setupVp data commit vop2 port zposs = some next ∧
      SetUp data port zposs vop2 next := by
  let counted := vop2.setVp port { vop2.vps port with nrLayers := zposs.length }
  have counted_vps (other : ℕ) : counted.vps other =
      if other = port then { vop2.vps port with nrLayers := zposs.length }
      else vop2.vps other := Function.update_apply _ _ _ _
  have winMask (other : ℕ) : (counted.vps other).winMask = (vop2.vps other).winMask :=
    winMask_setVp vop2 port zposs.length _ other
  have hdr10 (other : ℕ) : (counted.vps other).hdr10AtSpliceMode =
      (vop2.vps other).hdr10AtSpliceMode := by
    rw [counted_vps]
    split
    · next same => rw [same]
    · rfl
  have count : (counted.vps port).nrLayers = zposs.length := by rw [counted_vps, if_pos rfl]
  have represents_counted : Represents data counted counted.layerSel assigned :=
    ⟨represents.id, represents.winPhysId, represents.layerId, represents.layerSel⟩
  have fits := fits_of_shown assigned owned port_lt shown distinct
  obtain ⟨next, assigned', mixed, represents', keeps, shows, frame⟩ :=
    vop2SetupLayerMixerForVp_spec represents_counted ((hdr10 port).trans plain_port) count
      (by rw [usedLayers_congr winMask]; exact fits)
      (fun zpos listed => owned.inside port port_lt (shown _ (List.mem_map_of_mem listed)))
      distinct
  have used_eq : usedLayers next port = usedLayers counted port :=
    usedLayers_congr (fun other => by rw [keeps.vps]) port
  refine ⟨next, (setupVp_eq zposs plain).trans mixed, ?_⟩
  exact
    { represents := ⟨assigned', represents'⟩
      vpMask := keeps.vpMask
      winMask := fun other => by rw [keeps.vps, winMask]
      hdr10 := fun other => by rw [keeps.vps, hdr10]
      count := by rw [keeps.vps, count]
      count_other := fun other different => by rw [keeps.vps, counted_vps, if_neg different]
      shows := by rw [used_eq]; exact shows
      frame := by rw [used_eq]; exact frame }

theorem setupVp_lands {commit : Commit} {vop2 next : Vop2}
    {assigned : Fin data.nrLayers ≃ data.wins} {port : ℕ} {zposs : List Vop2Zpos}
    (represents : Represents data vop2 vop2.layerSel assigned) (owned : Owned data vop2)
    (port_lt : port < data.nrVps) (plain : (vop2.vps commit.port).hdr10AtSpliceMode = false)
    (plain_port : (vop2.vps port).hdr10AtSpliceMode = false)
    (shown : ∀ win ∈ zposs.map Vop2Zpos.winPhysId, win ∈ (vop2.vps port).winMask)
    (distinct : (zposs.map Vop2Zpos.winPhysId).Nodup)
    (ran : setupVp data commit vop2 port zposs = some next) {win : ℕ} (win_mem : win ∈ data.wins)
    (apart : win ∉ zposs.map Vop2Zpos.winPhysId) :
    Placement.Lands vop2.layerOf (fillings (usedLayers vop2 port) zposs) (vop2.layerOf win)
      (next.layerOf win) := by
  have used : usedLayers (vop2.setVp port { vop2.vps port with nrLayers := zposs.length }) port =
      usedLayers vop2 port := usedLayers_congr (winMask_setVp vop2 port zposs.length _) port
  have count : ((vop2.setVp port { vop2.vps port with nrLayers := zposs.length }).vps
      port).nrLayers = zposs.length := by simp [Vop2.setVp]
  have flag : ((vop2.setVp port { vop2.vps port with nrLayers := zposs.length }).vps
      port).hdr10AtSpliceMode = false := by simp [Vop2.setVp, plain_port]
  have fits := fits_of_shown assigned owned port_lt shown distinct
  rw [setupVp_eq zposs plain] at ran
  rw [← used] at fits ⊢
  exact vop2SetupLayerMixerForVp_lands ((keepsLayers_setVp vop2 port _).represents represents)
    flag count fits
    (fun zpos listed => owned.inside port port_lt (shown _ (List.mem_map_of_mem listed)))
    distinct ran win_mem apart

/-! ### A commit -/

theorem showsInOrder_nil (vop2 : Vop2) (port : ℕ) : ShowsInOrder vop2 port [] :=
  ⟨[], List.Perm.refl _, List.Pairwise.nil, fun some_zpos => absurd rfl some_zpos,
    fun _ _ zpos_eq => by cases zpos_eq⟩

theorem Commit.map_winPhysId_zposArray (data : Vop2Data) (commit : Commit) :
    (commit.zposArray data).map Vop2Zpos.winPhysId = commit.mainPlanes.map Vop2Plane.physId := by
  rw [Commit.zposArray, List.map_map]
  rfl

theorem Commit.map_winPhysId_spliceZposArray (data : Vop2Data) (commit : Commit) :
    (commit.spliceZposArray data).map Vop2Zpos.winPhysId =
      commit.mainPlanes.map fun plane => data.spliceWinId plane.physId := by
  rw [Commit.spliceZposArray, List.map_map]
  rfl

theorem Commit.map_snd_moves (data : Vop2Data) (commit : Commit) :
    ((commit.moves data).map Prod.snd).Perm
      (commit.mainPlanes.map Vop2Plane.physId ++
        if commit.spliceMode then
          commit.mainPlanes.map fun plane => data.spliceWinId plane.physId
        else []) := by
  cases splice : commit.spliceMode with
  | false =>
      simp only [Commit.moves, splice, ← List.map_eq_flatMap, List.map_map, Bool.false_eq_true,
        if_false, List.append_nil]
      exact List.Perm.refl _
  | true =>
      have interleaved := List.map_append_flatMap_perm commit.mainPlanes Vop2Plane.physId
        fun plane => [data.spliceWinId plane.physId]
      rw [← List.map_eq_flatMap] at interleaved
      simpa [Commit.moves, splice, List.map_flatMap] using interleaved.symm

theorem Commit.Ok.distinct {commit : Commit} (ok : commit.Ok data) :
    ((commit.zposArray data).map Vop2Zpos.winPhysId).Nodup ∧
      ((commit.zposArray data).map Vop2Zpos.zpos).Nodup := by
  have once := (commit.map_snd_moves data).nodup_iff.mp ok.once
  rw [Commit.map_winPhysId_zposArray, Commit.zposArray, List.map_map]
  exact ⟨(List.nodup_append.mp once).1, ok.zpos⟩

theorem Commit.Ok.distinct_splice {commit : Commit} (ok : commit.Ok data)
    (splice : commit.spliceMode = true) :
    ((commit.spliceZposArray data).map Vop2Zpos.winPhysId).Nodup ∧
      ((commit.spliceZposArray data).map Vop2Zpos.zpos).Nodup ∧
      ∀ win ∈ (commit.zposArray data).map Vop2Zpos.winPhysId,
        win ∉ (commit.spliceZposArray data).map Vop2Zpos.winPhysId := by
  have once := (commit.map_snd_moves data).nodup_iff.mp ok.once
  rw [splice, if_pos rfl] at once
  obtain ⟨_, distinct, apart⟩ := List.nodup_append.mp once
  rw [Commit.map_winPhysId_zposArray, Commit.map_winPhysId_spliceZposArray,
    Commit.spliceZposArray, List.map_map]
  exact ⟨distinct, ok.zpos, fun win listed listed' => apart win listed win listed' rfl⟩

theorem Commit.Ok.moves_allowed {commit : Commit} (ok : commit.Ok data) :
    ∀ move ∈ commit.moves data, move.1 < data.nrVps ∧ move.2 ∈ data.wins := by
  intro move listed
  obtain ⟨plane, plane_mem, listed⟩ := List.mem_flatMap.mp listed
  rcases List.mem_cons.mp listed with rfl | listed
  · exact ⟨ok.port_lt, ok.windows plane plane_mem⟩
  · split at listed
    · next splice =>
        obtain rfl := List.mem_singleton.mp listed
        exact ⟨(ok.partner splice).1, ok.spliceWindows splice plane plane_mem⟩
    · cases listed

theorem keepsLayers_setHdr10AtSpliceMode (data : Vop2Data) (commit : Commit) (vop2 : Vop2) :
    KeepsLayers vop2 (setHdr10AtSpliceMode data commit vop2) := by
  unfold setHdr10AtSpliceMode
  split <;> exact ⟨rfl, fun _ => rfl, rfl⟩

theorem vpMask_setHdr10AtSpliceMode (data : Vop2Data) (commit : Commit) (vop2 : Vop2) (win : ℕ) :
    ((setHdr10AtSpliceMode data commit vop2).win win).vpMask = (vop2.win win).vpMask := by
  unfold setHdr10AtSpliceMode
  split <;> rfl

theorem winMask_setHdr10AtSpliceMode (data : Vop2Data) (commit : Commit) (vop2 : Vop2)
    (port : ℕ) : ((setHdr10AtSpliceMode data commit vop2).vps port).winMask =
      (vop2.vps port).winMask := by
  unfold setHdr10AtSpliceMode
  split
  · exact (winMask_setVp _ commit.port _ _ port).trans
      (winMask_setVp vop2 (data.spliceVpId commit.port) _ _ port)
  · exact winMask_setVp vop2 commit.port _ _ port

theorem hdr10_setHdr10AtSpliceMode (data : Vop2Data) (commit : Commit) (vop2 : Vop2) :
    ((setHdr10AtSpliceMode data commit vop2).vps commit.port).hdr10AtSpliceMode =
        commit.hdr10AtSpliceMode ∧
      (commit.spliceMode = true → ((setHdr10AtSpliceMode data commit vop2).vps
        (data.spliceVpId commit.port)).hdr10AtSpliceMode = commit.hdr10AtSpliceMode) := by
  refine ⟨by simp [setHdr10AtSpliceMode, Vop2.setVp], fun splice => ?_⟩
  simp only [setHdr10AtSpliceMode, splice, Vop2.setVp, Function.update_apply, if_true]
  split <;> rfl

/-- The state in which a commit sets up its ports. -/
structure Attached (data : Vop2Data) (commit : Commit) (vop2 : Vop2) : Prop where
  represents : ∃ assigned, Represents data vop2 vop2.layerSel assigned
  owned : Owned data vop2
  hdr10 : (vop2.vps commit.port).hdr10AtSpliceMode = false
  shown : ∀ plane ∈ commit.mainPlanes, plane.physId ∈ (vop2.vps commit.port).winMask
  hdr10_splice : commit.spliceMode = true →
    (vop2.vps (data.spliceVpId commit.port)).hdr10AtSpliceMode = false
  shown_splice : commit.spliceMode = true → ∀ plane ∈ commit.mainPlanes,
    data.spliceWinId plane.physId ∈ (vop2.vps (data.spliceVpId commit.port)).winMask

/-- The loop over the planes brings every window to its port. -/
theorem attached_of_moves {vop2 : Vop2} {commit : Commit} (mapped : LayerMap data vop2)
    (allowed : ∀ move ∈ commit.moves data, move.1 < data.nrVps ∧ move.2 ∈ data.wins)
    (once : ((commit.moves data).map Prod.snd).Nodup)
    (notHdr10 : commit.hdr10AtSpliceMode = false) :
    Attached data commit
      (setHdr10AtSpliceMode data commit (attachAll vop2 (commit.moves data))) := by
  obtain ⟨assigned, represents⟩ := mapped.exists_represents
  have owned := mapped.owned.attachAll allowed
  have keeps := (keepsLayers_attachAll vop2 (commit.moves data)).trans
    (keepsLayers_setHdr10AtSpliceMode data commit _)
  have hdr10 := hdr10_setHdr10AtSpliceMode data commit (attachAll vop2 (commit.moves data))
  rw [notHdr10] at hdr10
  have moved (move : ℕ × ℕ) (listed : move ∈ commit.moves data) :
      move.2 ∈ ((setHdr10AtSpliceMode data commit
        (attachAll vop2 (commit.moves data))).vps move.1).winMask := by
    rw [winMask_setHdr10AtSpliceMode]
    exact mapped.owned.mem_winMask_attachAll allowed once listed
  exact
    { represents := ⟨assigned, keeps.represents represents⟩
      owned := owned.congr (winMask_setHdr10AtSpliceMode data commit _)
        (vpMask_setHdr10AtSpliceMode data commit _)
      hdr10 := hdr10.1
      shown := fun plane plane_mem => moved (commit.port, plane.physId)
        (List.mem_flatMap.mpr ⟨plane, plane_mem, List.mem_cons_self⟩)
      hdr10_splice := hdr10.2
      shown_splice := fun splice plane plane_mem => moved
        (data.spliceVpId commit.port, data.spliceWinId plane.physId)
        (List.mem_flatMap.mpr ⟨plane, plane_mem, by simp [splice]⟩) }

theorem attached_of_ok {vop2 : Vop2} {commit : Commit} (mapped : LayerMap data vop2)
    (ok : commit.Ok data) :
    Attached data commit
      (setHdr10AtSpliceMode data commit (attachAll vop2 (commit.moves data))) :=
  attached_of_moves mapped ok.moves_allowed ok.once ok.notHdr10

theorem SetUp.layerMap {port : ℕ} {zposs : List Vop2Zpos} {before after : Vop2}
    (setUp : SetUp data port zposs before after) (owned : Owned data before) :
    LayerMap data after := by
  obtain ⟨assigned, represents⟩ := setUp.represents
  exact represents.layerMap (owned.congr setUp.winMask setUp.vpMask)

theorem SetUp.showsInOrder {port : ℕ} {array : List Vop2Zpos} {before after : Vop2}
    (setUp : SetUp data port (sortZpos array) before after)
    (distinct : (array.map Vop2Zpos.zpos).Nodup) : ShowsInOrder after port array :=
  ⟨sortZpos array, List.perm_insertionSort _ array, sortZpos_ascending distinct,
    fun _ => setUp.count, setUp.shows⟩

/-- Setting up another port leaves the windows a port shows. -/
theorem SetUp.keeps_shows {port other : ℕ} {zposs others : List Vop2Zpos}
    {before after : Vop2} (setUp : SetUp data other others before after)
    (shows : Shows before (usedLayers before port) zposs)
    (fits : usedLayers before port + zposs.length ≤ data.nrLayers)
    (apart : usedLayers before port + zposs.length ≤ usedLayers before other ∨
      usedLayers before other + others.length ≤ usedLayers before port)
    (different : ∀ zpos ∈ zposs, zpos.winPhysId ∉ others.map Vop2Zpos.winPhysId) :
    Shows after (usedLayers after port) zposs := by
  intro i zpos zpos_eq
  have shown := shows i zpos zpos_eq
  obtain ⟨i_lt, _⟩ := List.getElem?_eq_some_iff.mp zpos_eq
  have other_used := usedLayers_congr setUp.winMask other
  rw [usedLayers_congr setUp.winMask, setUp.frame (usedLayers before port + i) (by omega)
    (by omega) (by rw [shown]; exact different zpos (List.mem_of_getElem? zpos_eq)), shown]

/-- What a commit does: it succeeds, keeps the map, and shows its windows in order. -/
theorem vop2CrtcAtomicBegin_spec {vop2 : Vop2} {commit : Commit} (mapped : LayerMap data vop2)
    (ok : commit.Ok data) :
    ∃ next, vop2CrtcAtomicBegin data vop2 commit = some next ∧ LayerMap data next ∧
      ShowsInOrder next commit.port (commit.zposArray data) ∧
      (commit.spliceMode = true → ShowsInOrder next (data.spliceVpId commit.port)
        (commit.spliceZposArray data)) := by
  obtain ⟨⟨assigned, represents⟩, owned, hdr10, shown, hdr10_splice, shown_splice⟩ :=
    attached_of_ok mapped ok
  have loop : commit.mainPlanes.foldlM (attachPlane data commit) vop2 =
      some (attachAll vop2 (commit.moves data)) :=
    foldlM_attachPlane commit commit.mainPlanes ok.spliceWindows vop2
  simp only [vop2CrtcAtomicBegin, loop, Option.bind_eq_bind, Option.bind_some]
  generalize setHdr10AtSpliceMode data commit (attachAll vop2 (commit.moves data)) = attached
    at represents owned hdr10 shown hdr10_splice shown_splice ⊢
  rcases Nat.eq_zero_or_pos commit.mainPlanes.length with empty | some_planes
  · have no_planes := List.length_eq_zero_iff.mp empty
    refine ⟨attached, by rw [if_pos empty], represents.layerMap owned, ?_, fun _ => ?_⟩
    · simp [Commit.zposArray, no_planes, showsInOrder_nil]
    · simp [Commit.spliceZposArray, no_planes, showsInOrder_nil]
  rw [if_neg (Nat.ne_of_gt some_planes)]
  obtain ⟨distinct_win, distinct_zpos⟩ := ok.distinct
  have listed (win : ℕ) (win_mem : win ∈ (sortZpos (commit.zposArray data)).map
      Vop2Zpos.winPhysId) : win ∈ (attached.vps commit.port).winMask := by
    rw [mem_map_sortZpos, Commit.map_winPhysId_zposArray] at win_mem
    obtain ⟨plane, plane_mem, rfl⟩ := List.mem_map.mp win_mem
    exact shown plane plane_mem
  have sorted_distinct := nodup_map_sortZpos.mpr distinct_win
  obtain ⟨first, first_eq, setUp⟩ := setupVp_spec _ represents owned ok.port_lt hdr10 hdr10
    listed sorted_distinct
  have owned' : Owned data first := owned.congr setUp.winMask setUp.vpMask
  rw [first_eq, Option.bind_some]
  cases splice : commit.spliceMode with
  | false =>
      exact ⟨first, rfl, setUp.layerMap owned, setUp.showsInOrder distinct_zpos,
        fun splice => by cases splice⟩
  | true =>
      obtain ⟨partner_lt, partner_ne⟩ := ok.partner splice
      obtain ⟨distinct_win', distinct_zpos', apart⟩ := ok.distinct_splice splice
      have listed' (win : ℕ) (win_mem : win ∈ (sortZpos (commit.spliceZposArray data)).map
          Vop2Zpos.winPhysId) : win ∈ (first.vps (data.spliceVpId commit.port)).winMask := by
        rw [mem_map_sortZpos, Commit.map_winPhysId_spliceZposArray] at win_mem
        obtain ⟨plane, plane_mem, rfl⟩ := List.mem_map.mp win_mem
        rw [setUp.winMask]
        exact shown_splice splice plane plane_mem
      have sorted_distinct' := nodup_map_sortZpos.mpr distinct_win'
      have hdr10' : (first.vps commit.port).hdr10AtSpliceMode = false :=
        (setUp.hdr10 _).trans hdr10
      obtain ⟨assigned', represents'⟩ := setUp.represents
      obtain ⟨second, second_eq, setUp'⟩ := setupVp_spec _ represents' owned' partner_lt hdr10'
        ((setUp.hdr10 _).trans (hdr10_splice splice)) listed' sorted_distinct'
      refine ⟨second, ?_, setUp'.layerMap owned', ?_,
        fun _ => setUp'.showsInOrder distinct_zpos'⟩
      · rw [if_pos rfl, second_eq, Option.bind_some, setUp'.hdr10, hdr10', Bool.and_false]
        rfl
      · have kept_listed (win : ℕ) (win_mem : win ∈ (sortZpos (commit.zposArray data)).map
            Vop2Zpos.winPhysId) : win ∈ (first.vps commit.port).winMask := by
          rw [setUp.winMask]
          exact listed win win_mem
        refine ⟨sortZpos (commit.zposArray data), List.perm_insertionSort _ _,
          sortZpos_ascending distinct_zpos,
          fun _ => (setUp'.count_other _ partner_ne.symm).trans setUp.count,
          setUp'.keeps_shows setUp.shows ?_ ?_ ?_⟩
        · exact fits_of_shown assigned' owned' ok.port_lt kept_listed sorted_distinct
        · rcases Nat.lt_or_gt_of_ne partner_ne with below | above
          · have before := usedLayers_add_le sorted_distinct' listed' below
            rw [List.length_map] at before
            exact Or.inr before
          · have after := usedLayers_add_le sorted_distinct kept_listed above
            rw [List.length_map] at after
            exact Or.inl after
        · intro zpos zpos_mem
          rw [mem_map_sortZpos]
          exact apart _ (mem_map_sortZpos.mp (List.mem_map_of_mem zpos_mem))

/-! ### Sequences of commits -/

theorem runs_layerMap {start : Vop2} {commits : List Commit} (mapped : LayerMap data start)
    (ok : ∀ commit ∈ commits, commit.Ok data) :
    ∃ final, LabelledRun.runs (vop2CrtcAtomicBegin data) start commits = some final ∧
      LayerMap data final := by
  induction commits generalizing start with
  | nil => exact ⟨start, rfl, mapped⟩
  | cons commit commits ih =>
      obtain ⟨next, taken, mapped', _⟩ :=
        vop2CrtcAtomicBegin_spec mapped (ok commit List.mem_cons_self)
      obtain ⟨final, rest, mapped''⟩ := ih mapped' fun other listed =>
        ok other (List.mem_cons_of_mem _ listed)
      exact ⟨final, Option.bind_eq_some_iff.mpr ⟨next, taken, rest⟩, mapped''⟩

/-- The RK3588: eight main windows, four ports, the first of which can be spliced with the
second. -/
def rk3588 : Vop2Data where
  nrVps := 4
  nrLayers := 8
  wins := {0, 1, 2, 3, 6, 7, 8, 9}
  layerSelId win := [0, 1, 2, 3, 0, 0, 4, 5, 6, 7].getD win 0
  baseId win := win
  spliceWinId win := [1, 0, 3, 0, 0, 0, 7, 0, 9, 0].getD win 0
  spliceVpId port := if port = 0 then 1 else 0
  isRk3588 := true
  nrLayers_le := by decide
  layerSelId_lt := by decide

/-- Two windows on each port. -/
def rk3588WinMask (port : ℕ) : Finset ℕ :=
  [{0, 2}, {1, 3}, {6, 8}, {7, 9}].getD port ∅

def rk3588Start : Vop2 where
  layers layer := ⟨layer, [0, 2, 1, 3, 6, 8, 7, 9].getD layer 0⟩
  win win := ⟨[0, 2, 1, 3, 0, 0, 4, 6, 5, 7].getD win 0,
    (Finset.range 4).filter fun port => win ∈ rk3588WinMask port⟩
  vps port := ⟨rk3588WinMask port, 0, false⟩
  layerSel := 0x75643120

theorem layerMap_rk3588Start : LayerMap rk3588 rk3588Start where
  id := by decide
  ofLayer := by decide
  ofWin := by decide
  owned :=
    { inside := by decide
      disjoint := by decide
      vpMask := fun _ _ _ => Finset.mem_filter.trans (and_congr_left' Finset.mem_range) }
  layerSel := by decide

/-- The last port takes two windows of others, then the first port is spliced. -/
def rk3588Commits : List Commit :=
  [⟨3, [⟨1, false, false, 1, false⟩, ⟨8, false, false, 0, false⟩], false⟩,
    ⟨0, [⟨0, false, false, 4, false⟩, ⟨2, false, false, 3, false⟩], true⟩]

end Vop
end RockchipSoc
