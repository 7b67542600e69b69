import RockchipSoc.Vop.LayerMap

/-!
# The screens of the other ports

A commit on one port may take windows from others.  That moves the boundaries between the runs of
layers of the ports, and every placement pushes a window to the layer from which the new one
comes.  What the other ports still show should stay in its order and inside the run of its port.
-/

namespace RockchipSoc
namespace Vop

open Placement

variable {data : Vop2Data}

/-- The device with the windows each port shows: those of its last commit that no other port has
taken. -/
structure Screens where
  vop2 : Vop2
  shown : ℕ → Finset ℕ

/-- The windows of a commit. -/
def Commit.windows (commit : Commit) : Finset ℕ :=
  (commit.mainPlanes.map Vop2Plane.physId).toFinset

/-- The windows a port still shows when a commit has taken its own. -/
def Screens.stillShown (screens : Screens) (commit : Commit) (port : ℕ) : Finset ℕ :=
  screens.shown port \ commit.windows

/-- A commit on one port. -/
def Screens.commit (data : Vop2Data) (screens : Screens) (commit : Commit) : Option Screens :=
  (vop2CrtcAtomicBegin data screens.vop2 commit).map fun vop2 =>
    { vop2
      shown := fun port =>
        if port = commit.port then commit.windows else screens.stillShown commit port }

/-- A commit without splice mode, with windows of the chip, each of them once. -/
structure Commit.Plain (data : Vop2Data) (commit : Commit) : Prop where
  port_lt : commit.port < data.nrVps
  windows : ∀ plane ∈ commit.mainPlanes, plane.physId ∈ data.wins
  once : (commit.mainPlanes.map Vop2Plane.physId).Nodup
  notSplice : commit.spliceMode = false

/-- One window stands below another in the array of the layers. -/
def Below (data : Vop2Data) (vop2 : Vop2) (lower upper : ℕ) : Prop :=
  ∃ i j, i < j ∧ j < data.nrLayers ∧ (vop2.layers i).winPhysId = lower ∧
    (vop2.layers j).winPhysId = upper

/-- What the other ports still show keeps its order, and lies on the layers of its port as the
masks count them. -/
structure KeepsOthers (data : Vop2Data) (commit : Commit) (before after : Screens) : Prop where
  order : ∀ port < data.nrVps, port ≠ commit.port →
    ∀ lower ∈ after.shown port, ∀ upper ∈ after.shown port,
      Below data before.vop2 lower upper → Below data after.vop2 lower upper
  run : ∀ port < data.nrVps, port ≠ commit.port → ∀ win ∈ after.shown port,
    ∃ layer, usedLayers after.vop2 port ≤ layer ∧
      layer < usedLayers after.vop2 port + (after.vop2.vps port).winMask.card ∧
      (after.vop2.layers layer).winPhysId = win

/-! ### What a commit asks of the state before -/

/-- The mask of a port when the windows of a commit have moved. -/
def maskAfter (vop2 : Vop2) (commit : Commit) (port : ℕ) : Finset ℕ :=
  if port = commit.port then (vop2.vps port).winMask ∪ commit.windows
  else (vop2.vps port).winMask \ commit.windows

/-- The first layer of a port when the windows of a commit have moved. -/
def startAfter (vop2 : Vop2) (commit : Commit) (port : ℕ) : ℕ :=
  ∑ i ∈ Finset.range port, (maskAfter vop2 commit i).card

/-- A layer between the boundaries of a port, as the windows of a commit shift them. -/
def Within (vop2 : Vop2) (commit : Commit) (port layer : ℕ) : Prop :=
  startAfter vop2 commit port ≤ layer ∧
    layer < startAfter vop2 commit port + (maskAfter vop2 commit port).card

/-- The layers a commit fills, each with its window. -/
def filled (data : Vop2Data) (vop2 : Vop2) (commit : Commit) : List (ℕ × ℕ) :=
  fillings (startAfter vop2 commit commit.port) (sortZpos (commit.zposArray data))

/-- A window stands on a layer that the commit fills. -/
def InTheWay (data : Vop2Data) (vop2 : Vop2) (commit : Commit) (win : ℕ) : Prop :=
  vop2.layerOf win ∈ (filled data vop2 commit).map Prod.fst

/-- No window that another port still shows is passed by a boundary, and those in the way are
pushed to layers of their port, past no window of it that stays and not past each other. -/
structure LeavesOthers (data : Vop2Data) (screens : Screens) (commit : Commit) : Prop where
  stays : ∀ port < data.nrVps, port ≠ commit.port → ∀ win ∈ screens.stillShown commit port,
    ¬InTheWay data screens.vop2 commit win →
    Within screens.vop2 commit port (screens.vop2.layerOf win)
  pushed : ∀ port < data.nrVps, port ≠ commit.port → ∀ win ∈ screens.stillShown commit port,
    InTheWay data screens.vop2 commit win →
    ∀ landing, Lands screens.vop2.layerOf (filled data screens.vop2 commit)
        (screens.vop2.layerOf win) landing →
      Within screens.vop2 commit port landing ∧
      ∀ other ∈ screens.stillShown commit port, ¬InTheWay data screens.vop2 commit other →
        (screens.vop2.layerOf other < screens.vop2.layerOf win ↔
          screens.vop2.layerOf other < landing)
  together : ∀ port < data.nrVps, port ≠ commit.port →
    ∀ lower ∈ screens.stillShown commit port, ∀ upper ∈ screens.stillShown commit port,
    InTheWay data screens.vop2 commit lower → InTheWay data screens.vop2 commit upper →
    screens.vop2.layerOf lower < screens.vop2.layerOf upper →
    ∀ low high, Lands screens.vop2.layerOf (filled data screens.vop2 commit)
        (screens.vop2.layerOf lower) low →
      Lands screens.vop2.layerOf (filled data screens.vop2 commit)
        (screens.vop2.layerOf upper) high → low < high

/-! ### A commit without splice mode -/

theorem Commit.Plain.moves_eq {commit : Commit} (plain : commit.Plain data) :
    commit.moves data = (commit.mainPlanes.map Vop2Plane.physId).map (Prod.mk commit.port) := by
  simp only [Commit.moves, plain.notSplice, Bool.false_eq_true, if_false, ← List.map_eq_flatMap,
    List.map_map]
  rfl

theorem Commit.Plain.moves_allowed {commit : Commit} (plain : commit.Plain data) :
    ∀ move ∈ commit.moves data, move.1 < data.nrVps ∧ move.2 ∈ data.wins := by
  intro move listed
  rw [plain.moves_eq, List.map_map] at listed
  obtain ⟨plane, plane_mem, rfl⟩ := List.mem_map.mp listed
  exact ⟨plain.port_lt, plain.windows plane plane_mem⟩

theorem Commit.Plain.moves_once {commit : Commit} (plain : commit.Plain data) :
    ((commit.moves data).map Prod.snd).Nodup := by
  rw [plain.moves_eq, List.map_map]
  exact (List.map_id _).symm ▸ plain.once

theorem Commit.mem_windows {commit : Commit} {win : ℕ} :
    win ∈ commit.windows ↔ win ∈ commit.mainPlanes.map Vop2Plane.physId :=
  List.mem_toFinset

/-- The masks that the loop over the planes leaves. -/
theorem Commit.Plain.winMask_attachAll {vop2 : Vop2} {commit : Commit} (plain : commit.Plain data)
    (owned : Owned data vop2) {port : ℕ} (port_lt : port < data.nrVps) :
    ((attachAll vop2 (commit.moves data)).vps port).winMask = maskAfter vop2 commit port := by
  have inside (win : ℕ) (listed : win ∈ commit.mainPlanes.map Vop2Plane.physId) :
      win ∈ data.wins := by
    obtain ⟨plane, plane_mem, rfl⟩ := List.mem_map.mp listed
    exact plain.windows plane plane_mem
  ext win
  rw [plain.moves_eq, owned.mem_winMask_attachAll_iff plain.port_lt inside port_lt, maskAfter]
  by_cases taken : win ∈ commit.mainPlanes.map Vop2Plane.physId
  · have taken' := Commit.mem_windows.mpr taken
    by_cases own : port = commit.port
    · simp [taken, taken', own]
    · simp [taken, taken', own]
  · have taken' := mt Commit.mem_windows.mp taken
    by_cases own : port = commit.port
    · simp [taken, taken', own]
    · simp [taken, taken', own]

theorem startAfter_eq {vop2 next : Vop2} {commit : Commit}
    (masks : ∀ port < data.nrVps, (next.vps port).winMask = maskAfter vop2 commit port) {port : ℕ}
    (port_le : port ≤ data.nrVps) : usedLayers next port = startAfter vop2 commit port := by
  refine Finset.sum_congr rfl fun i i_lt => ?_
  rw [masks i (Nat.lt_of_lt_of_le (Finset.mem_range.mp i_lt) port_le)]

/-- What a commit leaves: the masks counted above, and every other window where it is pushed. -/
structure Committed (data : Vop2Data) (vop2 : Vop2) (commit : Commit) (next : Vop2) : Prop where
  mapped : LayerMap data next
  masks : ∀ port < data.nrVps, (next.vps port).winMask = maskAfter vop2 commit port
  lands : ∀ win ∈ data.wins, win ∉ commit.windows →
    Lands vop2.layerOf (filled data vop2 commit) (vop2.layerOf win) (next.layerOf win)
  own : ∀ win ∈ commit.windows, usedLayers next commit.port ≤ next.layerOf win ∧
    next.layerOf win < usedLayers next commit.port + (next.vps commit.port).winMask.card

theorem Commit.Plain.committed {vop2 : Vop2} {commit : Commit} (plain : commit.Plain data)
    (mapped : LayerMap data vop2) :
    ∃ next, vop2CrtcAtomicBegin data vop2 commit = some next ∧
      Committed data vop2 commit next := by
  have notHdr10 : commit.hdr10AtSpliceMode = false := by
    rw [Commit.hdr10AtSpliceMode, plain.notSplice, Bool.false_and]
  obtain ⟨⟨assigned, represents⟩, owned, hdr10, shown, _, _⟩ :=
    attached_of_moves mapped plain.moves_allowed plain.moves_once notHdr10
  have loop : commit.mainPlanes.foldlM (attachPlane data commit) vop2 =
      some (attachAll vop2 (commit.moves data)) :=
    foldlM_attachPlane commit commit.mainPlanes
      (fun splice => absurd splice (by rw [plain.notSplice]; exact Bool.false_ne_true)) vop2
  have keeps := (keepsLayers_attachAll vop2 (commit.moves data)).trans
    (keepsLayers_setHdr10AtSpliceMode data commit _)
  have masks (port : ℕ) (port_lt : port < data.nrVps) :
      ((setHdr10AtSpliceMode data commit (attachAll vop2 (commit.moves data))).vps port).winMask =
        maskAfter vop2 commit port := by
    rw [winMask_setHdr10AtSpliceMode, plain.winMask_attachAll mapped.owned port_lt]
  simp only [vop2CrtcAtomicBegin, loop, Option.bind_eq_bind, Option.bind_some]
  generalize setHdr10AtSpliceMode data commit (attachAll vop2 (commit.moves data)) = attached
    at represents owned hdr10 shown keeps masks ⊢
  have layerOf : attached.layerOf = vop2.layerOf := funext keeps.layerId
  rcases Nat.eq_zero_or_pos commit.mainPlanes.length with empty | some_planes
  · have no_planes := List.length_eq_zero_iff.mp empty
    refine ⟨attached, by rw [if_pos empty], represents.layerMap owned, masks,
      fun win _ _ => ?_, fun win taken => ?_⟩
    · rw [layerOf]
      exact .stay (by simp [filled, Commit.zposArray, no_planes, sortZpos, fillings])
    · simp [Commit.windows, no_planes] at taken
  rw [if_neg (Nat.ne_of_gt some_planes)]
  have listed (win : ℕ) (win_mem : win ∈ (sortZpos (commit.zposArray data)).map
      Vop2Zpos.winPhysId) : win ∈ (attached.vps commit.port).winMask := by
    rw [mem_map_sortZpos, Commit.map_winPhysId_zposArray] at win_mem
    obtain ⟨plane, plane_mem, rfl⟩ := List.mem_map.mp win_mem
    exact shown plane plane_mem
  have distinct : ((sortZpos (commit.zposArray data)).map Vop2Zpos.winPhysId).Nodup := by
    rw [nodup_map_sortZpos, Commit.map_winPhysId_zposArray]
    exact plain.once
  obtain ⟨next, next_eq, setUp⟩ := setupVp_spec _ represents owned plain.port_lt hdr10 hdr10
    listed distinct
  refine ⟨next, by rw [next_eq, Option.bind_some, plain.notSplice]; rfl, setUp.layerMap owned,
    fun port port_lt => (setUp.winMask port).trans (masks port port_lt),
    fun win win_mem free => ?_, fun win taken => ?_⟩
  · have apart : win ∉ (sortZpos (commit.zposArray data)).map Vop2Zpos.winPhysId := by
      rw [mem_map_sortZpos, Commit.map_winPhysId_zposArray, ← Commit.mem_windows]
      exact free
    have lands := setupVp_lands represents owned plain.port_lt hdr10 hdr10 listed distinct next_eq
      win_mem apart
    rw [layerOf, startAfter_eq masks (Nat.le_of_lt plain.port_lt)] at lands
    exact lands
  · rw [Commit.mem_windows, ← Commit.map_winPhysId_zposArray data, ← mem_map_sortZpos] at taken
    obtain ⟨zpos, zpos_mem, rfl⟩ := List.mem_map.mp taken
    obtain ⟨i, zpos_eq⟩ := List.mem_iff_getElem?.mp zpos_mem
    obtain ⟨i_lt, _⟩ := List.getElem?_eq_some_iff.mp zpos_eq
    obtain ⟨assigned', represents'⟩ := setUp.represents
    have owned' := (setUp.layerMap owned).owned
    have kept (win : ℕ) (win_mem : win ∈ (sortZpos (commit.zposArray data)).map
        Vop2Zpos.winPhysId) : win ∈ (next.vps commit.port).winMask := by
      rw [setUp.winMask]
      exact listed win win_mem
    have few := usedLayers_add_le distinct kept (Nat.lt_succ_self commit.port)
    have fits := fits_of_shown assigned' owned' plain.port_lt kept distinct
    rw [List.length_map, Nat.succ_eq_add_one, usedLayers_succ] at few
    have home : next.layerOf zpos.winPhysId = usedLayers next commit.port + i := by
      rw [← setUp.shows i zpos zpos_eq]
      exact ((setUp.layerMap owned).ofLayer _ (by omega)).2
    rw [home]
    omega

/-! ### Layers and windows -/

theorem LayerMap.below_iff {vop2 : Vop2} (mapped : LayerMap data vop2) {lower upper : ℕ}
    (lower_mem : lower ∈ data.wins) (upper_mem : upper ∈ data.wins) :
    Below data vop2 lower upper ↔ vop2.layerOf lower < vop2.layerOf upper := by
  constructor
  · rintro ⟨i, j, i_lt, j_lt, rfl, rfl⟩
    have first : vop2.layerOf (vop2.layers i).winPhysId = i :=
      (mapped.ofLayer i (Nat.lt_trans i_lt j_lt)).2
    have second : vop2.layerOf (vop2.layers j).winPhysId = j := (mapped.ofLayer j j_lt).2
    rw [first, second]
    exact i_lt
  · intro lt
    obtain ⟨_, lower_eq⟩ := mapped.ofWin lower lower_mem
    obtain ⟨upper_lt, upper_eq⟩ := mapped.ofWin upper upper_mem
    exact ⟨_, _, lt, upper_lt, lower_eq, upper_eq⟩

theorem LayerMap.layerOf_inj {vop2 : Vop2} (mapped : LayerMap data vop2) {win other : ℕ}
    (win_mem : win ∈ data.wins) (other_mem : other ∈ data.wins)
    (same : vop2.layerOf win = vop2.layerOf other) : win = other := by
  rw [← (mapped.ofWin win win_mem).2, ← (mapped.ofWin other other_mem).2]
  exact congrArg (fun layer => (vop2.layers layer).winPhysId) same

/-- A window lies in the run of a port when its layer does. -/
theorem LayerMap.inRun_iff {vop2 : Vop2} (mapped : LayerMap data vop2) {port win : ℕ}
    (port_lt : port < data.nrVps) (win_mem : win ∈ data.wins) :
    (∃ layer, usedLayers vop2 port ≤ layer ∧
      layer < usedLayers vop2 port + (vop2.vps port).winMask.card ∧
      (vop2.layers layer).winPhysId = win) ↔
      usedLayers vop2 port ≤ vop2.layerOf win ∧
        vop2.layerOf win < usedLayers vop2 port + (vop2.vps port).winMask.card := by
  constructor
  · rintro ⟨layer, first, last, rfl⟩
    obtain ⟨assigned, _⟩ := mapped.exists_represents
    have next := usedLayers_mono vop2 (Nat.succ_le_of_lt port_lt)
    have all := usedLayers_le assigned mapped.owned
    rw [Nat.succ_eq_add_one, usedLayers_succ] at next
    have home : vop2.layerOf (vop2.layers layer).winPhysId = layer :=
      (mapped.ofLayer layer (by omega)).2
    rw [home]
    exact ⟨first, last⟩
  · rintro ⟨first, last⟩
    exact ⟨_, first, last, (mapped.ofWin win win_mem).2⟩

/-! ### One commit -/

/-- The windows and the layers map one to one, and each port shows windows of its own. -/
structure Screens.Ok (data : Vop2Data) (screens : Screens) : Prop where
  mapped : LayerMap data screens.vop2
  shown : ∀ port < data.nrVps, screens.shown port ⊆ (screens.vop2.vps port).winMask

theorem Screens.Ok.mem_wins {screens : Screens} (ok : screens.Ok data) {commit : Commit}
    {port win : ℕ} (port_lt : port < data.nrVps) (still : win ∈ screens.stillShown commit port) :
    win ∈ data.wins ∧ win ∉ commit.windows := by
  obtain ⟨shown, free⟩ := Finset.mem_sdiff.mp still
  exact ⟨ok.mapped.owned.inside port port_lt (ok.shown port port_lt shown), free⟩

/-- Where the windows of another port are when a commit has been made. -/
structure Moved (data : Vop2Data) (screens : Screens) (commit : Commit) (next : Vop2)
    (port win : ℕ) : Prop where
  mem : win ∈ data.wins
  stayed : ¬InTheWay data screens.vop2 commit win →
    next.layerOf win = screens.vop2.layerOf win
  lands : ∀ landing, Lands screens.vop2.layerOf (filled data screens.vop2 commit)
    (screens.vop2.layerOf win) landing ↔ landing = next.layerOf win
  inRun : (∃ layer, usedLayers next port ≤ layer ∧
      layer < usedLayers next port + (next.vps port).winMask.card ∧
      (next.layers layer).winPhysId = win) ↔
    Within screens.vop2 commit port (next.layerOf win)

theorem Committed.moved {screens : Screens} {commit : Commit} {next : Vop2}
    (committed : Committed data screens.vop2 commit next) (ok : screens.Ok data) {port win : ℕ}
    (port_lt : port < data.nrVps) (still : win ∈ screens.stillShown commit port) :
    Moved data screens commit next port win := by
  obtain ⟨win_mem, free⟩ := ok.mem_wins port_lt still
  have lands := committed.lands win win_mem free
  exact
    { mem := win_mem
      stayed := fun outside => Lands.eq_of_not_mem outside lands
      lands := fun landing =>
        ⟨fun lands' => Lands.unique (nodup_map_fst_fillings _ _) lands' lands, fun same => by
          rw [same]
          exact lands⟩
      inRun := by
        rw [committed.mapped.inRun_iff port_lt win_mem, committed.masks port port_lt,
          startAfter_eq committed.masks (Nat.le_of_lt port_lt)]
        rfl }

theorem Committed.ok {screens : Screens} {commit : Commit} {next : Vop2}
    (committed : Committed data screens.vop2 commit next) (ok : screens.Ok data) :
    Screens.Ok data ⟨next, fun port =>
      if port = commit.port then commit.windows else screens.stillShown commit port⟩ where
  mapped := committed.mapped
  shown port port_lt win shown := by
    change win ∈ (next.vps port).winMask
    rw [committed.masks port port_lt, maskAfter]
    change win ∈ (if port = commit.port then _ else _) at shown
    split at shown
    · next own =>
        rw [if_pos own]
        exact Finset.mem_union_right _ shown
    · next other =>
        rw [if_neg other]
        obtain ⟨shown, free⟩ := Finset.mem_sdiff.mp shown
        exact Finset.mem_sdiff.mpr ⟨ok.shown port port_lt shown, free⟩

theorem KeepsOthers.leavesOthers {screens after : Screens} {commit : Commit}
    (keeps : KeepsOthers data commit screens after) (ok : screens.Ok data)
    (committed : Committed data screens.vop2 commit after.vop2)
    (shown : ∀ port ≠ commit.port, after.shown port = screens.stillShown commit port) :
    LeavesOthers data screens commit where
  stays port port_lt other win still outside := by
    have moved := committed.moved ok port_lt still
    have inside := moved.inRun.mp (keeps.run port port_lt other win (shown port other ▸ still))
    rw [moved.stayed outside] at inside
    exact inside
  pushed port port_lt other win still inWay landing lands := by
    have moved := committed.moved ok port_lt still
    obtain rfl := (moved.lands landing).mp lands
    refine ⟨moved.inRun.mp (keeps.run port port_lt other win (shown port other ▸ still)), ?_⟩
    intro beside still' outside
    have moved' := committed.moved ok port_lt still'
    have forth := keeps.order port port_lt other beside (shown port other ▸ still') win
      (shown port other ▸ still)
    have back := keeps.order port port_lt other win (shown port other ▸ still) beside
      (shown port other ▸ still')
    rw [ok.mapped.below_iff moved'.mem moved.mem,
      committed.mapped.below_iff moved'.mem moved.mem, moved'.stayed outside] at forth
    rw [ok.mapped.below_iff moved.mem moved'.mem,
      committed.mapped.below_iff moved.mem moved'.mem, moved'.stayed outside] at back
    have apart : screens.vop2.layerOf beside ≠ screens.vop2.layerOf win := by
      intro same
      rw [InTheWay, ← same] at inWay
      exact outside inWay
    omega
  together port port_lt other lower still upper still' _ _ lt low high lands lands' := by
    have moved := committed.moved ok port_lt still
    have moved' := committed.moved ok port_lt still'
    obtain rfl := (moved.lands low).mp lands
    obtain rfl := (moved'.lands high).mp lands'
    exact (committed.mapped.below_iff moved.mem moved'.mem).mp
      (keeps.order port port_lt other lower (shown port other ▸ still) upper
        (shown port other ▸ still') ((ok.mapped.below_iff moved.mem moved'.mem).mpr lt))

theorem LeavesOthers.order {screens : Screens} {next : Vop2} {commit : Commit}
    (leaves : LeavesOthers data screens commit) (ok : screens.Ok data)
    (committed : Committed data screens.vop2 commit next) {port : ℕ}
    (port_lt : port < data.nrVps) (other : port ≠ commit.port) {lower upper : ℕ}
    (still : lower ∈ screens.stillShown commit port)
    (still' : upper ∈ screens.stillShown commit port)
    (lt : screens.vop2.layerOf lower < screens.vop2.layerOf upper) :
    next.layerOf lower < next.layerOf upper := by
  have moved := committed.moved ok port_lt still
  have moved' := committed.moved ok port_lt still'
  by_cases inWay : InTheWay data screens.vop2 commit lower
  · by_cases inWay' : InTheWay data screens.vop2 commit upper
    · exact leaves.together port port_lt other lower still upper still' inWay inWay' lt _ _
        ((moved.lands _).mpr rfl) ((moved'.lands _).mpr rfl)
    · have passed := (leaves.pushed port port_lt other lower still inWay _
        ((moved.lands _).mpr rfl)).2 upper still' inWay'
      rw [← moved'.stayed inWay'] at passed
      have apart : next.layerOf lower ≠ next.layerOf upper := by
        intro same
        obtain rfl := committed.mapped.layerOf_inj moved.mem moved'.mem same
        exact Nat.lt_irrefl _ lt
      rw [moved'.stayed inWay'] at passed apart ⊢
      omega
  · by_cases inWay' : InTheWay data screens.vop2 commit upper
    · rw [moved.stayed inWay]
      exact ((leaves.pushed port port_lt other upper still' inWay' _
        ((moved'.lands _).mpr rfl)).2 lower still inWay).mp lt
    · rw [moved.stayed inWay, moved'.stayed inWay']
      exact lt

theorem LeavesOthers.keepsOthers {screens after : Screens} {commit : Commit}
    (leaves : LeavesOthers data screens commit) (ok : screens.Ok data)
    (committed : Committed data screens.vop2 commit after.vop2)
    (shown : ∀ port ≠ commit.port, after.shown port = screens.stillShown commit port) :
    KeepsOthers data commit screens after where
  order port port_lt other lower lower_shown upper upper_shown below := by
    rw [shown port other] at lower_shown upper_shown
    have moved := committed.moved ok port_lt lower_shown
    have moved' := committed.moved ok port_lt upper_shown
    rw [ok.mapped.below_iff moved.mem moved'.mem] at below
    rw [committed.mapped.below_iff moved.mem moved'.mem]
    exact leaves.order ok committed port_lt other lower_shown upper_shown below
  run port port_lt other win win_shown := by
    rw [shown port other] at win_shown
    have moved := committed.moved ok port_lt win_shown
    refine moved.inRun.mpr ?_
    by_cases inWay : InTheWay data screens.vop2 commit win
    · exact (leaves.pushed port port_lt other win win_shown inWay _
        ((moved.lands _).mpr rfl)).1
    · rw [moved.stayed inWay]
      exact leaves.stays port port_lt other win win_shown inWay

/-! ### Commits that push nothing -/

/-- What the ports show lies on their layers. -/
def Screens.Settled (data : Vop2Data) (screens : Screens) : Prop :=
  ∀ port < data.nrVps, ∀ win ∈ screens.shown port,
    usedLayers screens.vop2 port ≤ screens.vop2.layerOf win ∧
      screens.vop2.layerOf win <
        usedLayers screens.vop2 port + (screens.vop2.vps port).winMask.card

/-- Nothing that another port shows is in the way or passed by a boundary. -/
def Clear (data : Vop2Data) (screens : Screens) (commit : Commit) : Prop :=
  ∀ port < data.nrVps, port ≠ commit.port → ∀ win ∈ screens.stillShown commit port,
    ¬InTheWay data screens.vop2 commit win ∧
      Within screens.vop2 commit port (screens.vop2.layerOf win)

instance Clear.decidable (data : Vop2Data) (screens : Screens) (commit : Commit) :
    Decidable (Clear data screens commit) :=
  inferInstanceAs (Decidable (∀ port < data.nrVps, port ≠ commit.port →
    ∀ win ∈ screens.stillShown commit port,
      ¬screens.vop2.layerOf win ∈ (filled data screens.vop2 commit).map Prod.fst ∧
        startAfter screens.vop2 commit port ≤ screens.vop2.layerOf win ∧
        screens.vop2.layerOf win < startAfter screens.vop2 commit port +
          (maskAfter screens.vop2 commit port).card))

theorem Clear.leavesOthers {screens : Screens} {commit : Commit}
    (clear : Clear data screens commit) : LeavesOthers data screens commit where
  stays port port_lt other win still _ := (clear port port_lt other win still).2
  pushed port port_lt other win still inWay :=
    absurd inWay (clear port port_lt other win still).1
  together port port_lt other lower still _ _ inWay :=
    absurd inWay (clear port port_lt other lower still).1

/-- A commit that takes no window of another port leaves the masks of the others. -/
theorem maskAfter_of_own {vop2 : Vop2} {commit : Commit} (owned : Owned data vop2)
    (plain : commit.Plain data) (own : commit.windows ⊆ (vop2.vps commit.port).winMask)
    {port : ℕ} (port_lt : port < data.nrVps) :
    maskAfter vop2 commit port = (vop2.vps port).winMask := by
  rw [maskAfter]
  split
  · next same =>
      rw [same]
      exact Finset.union_eq_left.mpr own
  · next other =>
      exact Finset.sdiff_eq_self_of_disjoint
        ((owned.disjoint port port_lt commit.port plain.port_lt other).mono_right own)

theorem clear_of_own {screens : Screens} {commit : Commit} (ok : screens.Ok data)
    (settled : screens.Settled data) (plain : commit.Plain data)
    (own : commit.windows ⊆ (screens.vop2.vps commit.port).winMask) :
    Clear data screens commit := by
  have masks (port : ℕ) (port_lt : port < data.nrVps) :
      (screens.vop2.vps port).winMask = maskAfter screens.vop2 commit port :=
    (maskAfter_of_own ok.mapped.owned plain own port_lt).symm
  intro port port_lt other win still
  obtain ⟨first, last⟩ := settled port port_lt win (Finset.mem_sdiff.mp still).1
  constructor
  · intro inWay
    rw [InTheWay, filled, mem_map_fst_fillings,
      ← startAfter_eq masks (Nat.le_of_lt plain.port_lt)] at inWay
    have distinct : (commit.mainPlanes.map Vop2Plane.physId).Nodup := plain.once
    have few := usedLayers_add_le distinct
      (fun win listed => own (Commit.mem_windows.mpr listed)) (Nat.lt_succ_self commit.port)
    have length : (sortZpos (commit.zposArray data)).length = commit.mainPlanes.length := by
      rw [sortZpos, List.length_insertionSort, Commit.zposArray, List.length_map]
    rw [List.length_map, Nat.succ_eq_add_one] at few
    rcases Nat.lt_or_gt_of_ne other with below | above
    · have next := usedLayers_mono screens.vop2 (Nat.succ_le_of_lt below)
      rw [Nat.succ_eq_add_one, usedLayers_succ] at next
      omega
    · have next := usedLayers_mono screens.vop2 (Nat.succ_le_of_lt above)
      rw [Nat.succ_eq_add_one] at next
      omega
  · rw [Within, ← startAfter_eq masks (Nat.le_of_lt port_lt), ← masks port port_lt]
    exact ⟨first, last⟩

/-- A commit that keeps the others leaves every port's windows on its layers. -/
theorem KeepsOthers.settled {screens after : Screens} {commit : Commit}
    (keeps : KeepsOthers data commit screens after) (ok : after.Ok data)
    (own : ∀ win ∈ after.shown commit.port,
      usedLayers after.vop2 commit.port ≤ after.vop2.layerOf win ∧ after.vop2.layerOf win <
        usedLayers after.vop2 commit.port + (after.vop2.vps commit.port).winMask.card) :
    after.Settled data := by
  intro port port_lt win shown
  by_cases same : port = commit.port
  · subst same
    exact own win shown
  · have win_mem := ok.mapped.owned.inside port port_lt (ok.shown port port_lt shown)
    exact (ok.mapped.inRun_iff port_lt win_mem).mp (keeps.run port port_lt same win shown)

/-- A commit succeeds, and keeps what the other ports show exactly when it leaves their windows
alone. -/
theorem Commit.Plain.spec {screens : Screens} {commit : Commit} (plain : commit.Plain data)
    (ok : screens.Ok data) :
    ∃ after, screens.commit data commit = some after ∧ after.Ok data ∧
      (KeepsOthers data commit screens after ↔ LeavesOthers data screens commit) ∧
      (KeepsOthers data commit screens after → after.Settled data) := by
  obtain ⟨next, next_eq, committed⟩ := plain.committed ok.mapped
  refine ⟨_, congrArg (Option.map _) next_eq, committed.ok ok, ⟨?_, ?_⟩, ?_⟩
  · exact fun keeps => keeps.leavesOthers ok committed fun port other => if_neg other
  · exact fun leaves => leaves.keepsOthers ok committed fun port other => if_neg other
  · refine fun keeps => keeps.settled (committed.ok ok) fun win shown => committed.own win ?_
    exact (if_pos rfl : (if commit.port = commit.port then commit.windows
      else screens.stillShown commit commit.port) = commit.windows) ▸ shown

/-! ### Runs of commits -/

theorem runs_ok {start : Screens} {commits : List Commit} (ok : start.Ok data)
    (plain : ∀ commit ∈ commits, commit.Plain data) :
    ∃ final, LabelledRun.runs (Screens.commit data) start commits = some final := by
  induction commits generalizing start with
  | nil => exact ⟨start, rfl⟩
  | cons commit commits ih =>
      obtain ⟨after, taken, ok', _⟩ := (plain commit List.mem_cons_self).spec ok
      obtain ⟨final, rest⟩ := ih ok' fun other listed =>
        plain other (List.mem_cons_of_mem _ listed)
      exact ⟨final, Option.bind_eq_some_iff.mpr ⟨after, taken, rest⟩⟩

/-- Commits that take no window from another port leave the others alone, whatever their order. -/
theorem along_leavesOthers_of_own {start : Screens} {commits : List Commit}
    (ok : start.Ok data) (settled : start.Settled data)
    (plain : ∀ commit ∈ commits, commit.Plain data)
    (own : LabelledRun.Along (Screens.commit data)
      (fun before commit => commit.windows ⊆ (before.vop2.vps commit.port).winMask)
      start commits) :
    LabelledRun.Along (Screens.commit data) (LeavesOthers data) start commits := by
  induction commits generalizing start with
  | nil => exact trivial
  | cons commit commits ih =>
      have plain_first := plain commit List.mem_cons_self
      have leaves := (clear_of_own ok settled plain_first own.1).leavesOthers
      obtain ⟨after, taken, ok', exact_iff, settled'⟩ := plain_first.spec ok
      refine ⟨leaves, fun next taken' => ?_⟩
      obtain rfl := Option.some.inj (taken.symm.trans taken')
      exact ih ok' (settled' (exact_iff.mpr leaves))
        (fun other listed => plain other (List.mem_cons_of_mem _ listed)) (own.2 after taken)

/-- From any assignment of windows to layers every sequence of commits goes through.  It keeps
what the other ports show, in its order and inside their runs of layers, exactly when each commit
finds their windows between the boundaries and pushes none of them past another. -/
theorem others_kept_iff (data : Vop2Data) (start : Screens) (commits : List Commit)
    (ok : start.Ok data) (plain : ∀ commit ∈ commits, commit.Plain data) :
    (∃ final, LabelledRun.runs (Screens.commit data) start commits = some final) ∧
      (LabelledRun.Along (Screens.commit data)
          (fun before commit => ∀ after, before.commit data commit = some after →
            KeepsOthers data commit before after) start commits ↔
        LabelledRun.Along (Screens.commit data) (LeavesOthers data) start commits) := by
  refine ⟨runs_ok ok plain, ?_⟩
  induction commits generalizing start with
  | nil => exact Iff.rfl
  | cons commit commits ih =>
      obtain ⟨after, taken, ok', exact_iff, _⟩ := (plain commit List.mem_cons_self).spec ok
      have rest := ih after ok' fun other listed => plain other (List.mem_cons_of_mem _ listed)
      constructor
      · rintro ⟨keeps, later⟩
        refine ⟨exact_iff.mp (keeps after taken), fun next taken' => ?_⟩
        obtain rfl := Option.some.inj (taken.symm.trans taken')
        exact rest.mp (later after taken)
      · rintro ⟨leaves, later⟩
        refine ⟨fun next taken' => ?_, fun next taken' => ?_⟩
        · obtain rfl := Option.some.inj (taken.symm.trans taken')
          exact exact_iff.mpr leaves
        · obtain rfl := Option.some.inj (taken.symm.trans taken')
          exact rest.mpr (later after taken)

/-- The start of the RK3588, with nothing shown. -/
def rk3588Screens : Screens := ⟨rk3588Start, fun _ => ∅⟩

theorem ok_rk3588Screens : rk3588Screens.Ok rk3588 where
  mapped := layerMap_rk3588Start
  shown _ _ := Finset.empty_subset _

/-- The second port shows one of its windows, then the third takes the other. -/
def takeOver : List Commit :=
  [⟨1, [⟨1, false, false, 0, false⟩], false⟩,
    ⟨2, [⟨6, false, false, 0, false⟩, ⟨8, false, false, 1, false⟩,
      ⟨3, false, false, 2, false⟩], false⟩]

theorem others_kept_iff_takeOver :
    LabelledRun.Along (Screens.commit rk3588)
      (fun before commit => ∀ after, before.commit rk3588 commit = some after →
        KeepsOthers rk3588 commit before after) rk3588Screens takeOver :=
  (others_kept_iff rk3588 rk3588Screens takeOver ok_rk3588Screens (by
    intro commit listed
    rcases List.mem_cons.mp listed with rfl | listed
    · exact ⟨by decide, by decide, by decide, rfl⟩
    · obtain rfl := List.mem_singleton.mp listed
      exact ⟨by decide, by decide, by decide, rfl⟩)).2.mpr
    (LabelledRun.Along.imp (fun _ _ clear => clear.leavesOthers)
      (by decide : LabelledRun.Along (Screens.commit rk3588) (Clear rk3588) rk3588Screens takeOver))

/-- The second port shows both of its windows, then the third takes one from the first. -/
def restacking : List Commit :=
  [⟨1, [⟨1, false, false, 0, false⟩, ⟨3, false, false, 1, false⟩], false⟩,
    ⟨2, [⟨6, false, false, 0, false⟩, ⟨8, false, false, 1, false⟩,
      ⟨0, false, false, 2, false⟩], false⟩]

theorem plain_restacking : ∀ commit ∈ restacking, commit.Plain rk3588 := by
  intro commit listed
  rcases List.mem_cons.mp listed with rfl | listed
  · exact ⟨by decide, by decide, by decide, rfl⟩
  · obtain rfl := List.mem_singleton.mp listed
    exact ⟨by decide, by decide, by decide, rfl⟩

/-- The second commit throws a window that the second port shows to the bottom. -/
theorem others_restacked :
    ¬LabelledRun.Along (Screens.commit rk3588)
      (fun before commit => ∀ after, before.commit rk3588 commit = some after →
        KeepsOthers rk3588 commit before after) rk3588Screens restacking := by
  intro along
  obtain ⟨middle, taken, ok, _⟩ :=
    (plain_restacking _ List.mem_cons_self).spec ok_rk3588Screens
  obtain ⟨last, taken', ok', _⟩ :=
    (plain_restacking _ (List.mem_cons_of_mem _ List.mem_cons_self)).spec ok
  have before : (LabelledRun.runs (Screens.commit rk3588) rk3588Screens
      (restacking.take 1)).map (fun screens =>
        (screens.vop2.layerOf 1, screens.vop2.layerOf 3)) = some (2, 3) := by decide
  have after : (LabelledRun.runs (Screens.commit rk3588) rk3588Screens restacking).map
      (fun screens => (screens.shown 1, screens.vop2.layerOf 1, screens.vop2.layerOf 3)) =
        some ({1, 3}, 2, 0) := by decide
  simp only [restacking, List.take, LabelledRun.runs, taken, taken', Option.bind_some,
    Option.map_some, Option.some.injEq, Prod.mk.injEq] at before after
  obtain ⟨shown, after_one, after_three⟩ := after
  have keeps := (along.2 middle taken).1 last taken'
  have order := keeps.order 1 (by decide) (by decide) 1 (by rw [shown]; decide) 3
    (by rw [shown]; decide)
  rw [ok.mapped.below_iff (by decide) (by decide),
    ok'.mapped.below_iff (by decide) (by decide)] at order
  omega

end Vop
end RockchipSoc
