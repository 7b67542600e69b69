import RockchipSoc.Vop.LayerPlacement
import Mathlib.Data.List.Perm.Basic

/-!
# The windows of the ports

A window's mask names the one port whose mask contains the window.  A commit moves its windows
to its ports and touches neither the layers nor the register.
-/

namespace RockchipSoc
namespace Vop

variable {data : Vop2Data}

/-- Each window belongs to at most one port, the one its mask names. -/
structure Owned (data : Vop2Data) (vop2 : Vop2) : Prop where
  inside : ∀ port < data.nrVps, (vop2.vps port).winMask ⊆ data.wins
  disjoint : ∀ port < data.nrVps, ∀ other < data.nrVps, port ≠ other →
    Disjoint (vop2.vps port).winMask (vop2.vps other).winMask
  vpMask : ∀ win ∈ data.wins, ∀ port,
    port ∈ (vop2.win win).vpMask ↔ port < data.nrVps ∧ win ∈ (vop2.vps port).winMask

/-- A step that touches neither the layers nor the register. -/
structure KeepsLayers (before after : Vop2) : Prop where
  layers : after.layers = before.layers
  layerId : ∀ win, (after.win win).layerId = (before.win win).layerId
  layerSel : after.layerSel = before.layerSel

theorem KeepsLayers.trans {first second third : Vop2} (left : KeepsLayers first second)
    (right : KeepsLayers second third) : KeepsLayers first third where
  layers := right.layers.trans left.layers
  layerId win := (right.layerId win).trans (left.layerId win)
  layerSel := right.layerSel.trans left.layerSel

theorem KeepsLayers.represents {before after : Vop2}
    {assigned : Fin data.nrLayers ≃ data.wins} (keeps : KeepsLayers before after)
    (represents : Represents data before before.layerSel assigned) :
    Represents data after after.layerSel assigned where
  id layer := by rw [keeps.layers, represents.id]
  winPhysId layer := by rw [keeps.layers, represents.winPhysId]
  layerId win := by rw [keeps.layerId, represents.layerId]
  layerSel layer := by rw [keeps.layerSel, represents.layerSel]

theorem Owned.congr {before after : Vop2} (owned : Owned data before)
    (winMask : ∀ port, (after.vps port).winMask = (before.vps port).winMask)
    (vpMask : ∀ win, (after.win win).vpMask = (before.win win).vpMask) : Owned data after where
  inside port port_lt := by rw [winMask]; exact owned.inside port port_lt
  disjoint port port_lt other other_lt different := by
    rw [winMask, winMask]
    exact owned.disjoint port port_lt other other_lt different
  vpMask win win_mem port := by
    rw [vpMask, winMask]
    exact owned.vpMask win win_mem port

/-! ### Moving one window -/

theorem oldVpId_mem {vpMask : Finset ℕ} (named : vpMask.Nonempty) : oldVpId vpMask ∈ vpMask := by
  simp only [oldVpId, ffs, named, dif_pos, Nat.succ_ne_zero, if_false, Nat.add_sub_cancel]
  exact vpMask.min'_mem named

/-- No port but the one read off a window's mask has the window. -/
theorem Owned.not_mem_of_ne_oldVpId {vop2 : Vop2} (owned : Owned data vop2) {win : ℕ}
    (win_mem : win ∈ data.wins) {port : ℕ} (port_lt : port < data.nrVps)
    (different : port ≠ oldVpId (vop2.win win).vpMask) : win ∉ (vop2.vps port).winMask := by
  intro shown
  have named : port ∈ (vop2.win win).vpMask := (owned.vpMask win win_mem port).mpr ⟨port_lt, shown⟩
  obtain ⟨old_lt, old_shown⟩ := (owned.vpMask win win_mem _).mp (oldVpId_mem ⟨port, named⟩)
  exact Finset.disjoint_left.mp (owned.disjoint port port_lt _ old_lt different) shown old_shown

theorem keepsLayers_attachWin (vop2 : Vop2) (port win : ℕ) :
    KeepsLayers vop2 (attachWin vop2 port win) where
  layers := rfl
  layerId other := by
    simp only [attachWin, Vop2.setWin, Vop2.setVp, Function.update_apply]
    split_ifs with same
    · rw [same]
    · rfl
  layerSel := rfl

theorem vpMask_attachWin (vop2 : Vop2) (port win other : ℕ) :
    ((attachWin vop2 port win).win other).vpMask =
      if other = win then {port} else (vop2.win other).vpMask := by
  simp only [attachWin, Vop2.setWin, Vop2.setVp, Function.update_apply]
  split_ifs <;> rfl

/-- A move takes the window from every other port. -/
theorem Owned.mem_winMask_attachWin {vop2 : Vop2} (owned : Owned data vop2) {win : ℕ}
    (win_mem : win ∈ data.wins) (port : ℕ) {which : ℕ} (which_lt : which < data.nrVps) (other : ℕ) :
    other ∈ ((attachWin vop2 port win).vps which).winMask ↔
      if other = win then which = port else other ∈ (vop2.vps which).winMask := by
  have away := owned.not_mem_of_ne_oldVpId win_mem which_lt
  simp only [Vop.attachWin, Vop2.setWin, Vop2.setVp, Function.update_apply]
  generalize oldVpId (vop2.win win).vpMask = old at away
  by_cases same : other = win
  · subst same
    by_cases target : which = port
    · simp [target]
    · by_cases left : which = old
      · subst left
        simp [target]
      · simp [target, left, away left]
  · by_cases target : which = port
    · subst target
      by_cases left : which = old
      · subst left
        simp [same]
      · simp [same, left]
    · by_cases left : which = old
      · subst left
        simp [same, target]
      · simp [same, target, left]

theorem Owned.attachWin {vop2 : Vop2} (owned : Owned data vop2) {port win : ℕ}
    (port_lt : port < data.nrVps) (win_mem : win ∈ data.wins) :
    Owned data (attachWin vop2 port win) where
  inside which which_lt other shown := by
    rw [owned.mem_winMask_attachWin win_mem port which_lt] at shown
    split at shown
    · next same => exact same ▸ win_mem
    · exact owned.inside which which_lt shown
  disjoint first first_lt second second_lt different := by
    refine Finset.disjoint_left.mpr fun other shown shown' => ?_
    rw [owned.mem_winMask_attachWin win_mem port first_lt] at shown
    rw [owned.mem_winMask_attachWin win_mem port second_lt] at shown'
    split at shown
    · next same =>
        rw [if_pos same] at shown'
        exact different (shown.trans shown'.symm)
    · next other_ne =>
        rw [if_neg other_ne] at shown'
        exact Finset.disjoint_left.mp (owned.disjoint first first_lt second second_lt different)
          shown shown'
  vpMask other other_mem which := by
    rw [vpMask_attachWin]
    split
    · next same =>
        rw [Finset.mem_singleton]
        constructor
        · intro target
          subst target
          exact ⟨port_lt, (owned.mem_winMask_attachWin win_mem which port_lt other).mpr
            (by rw [if_pos same])⟩
        · rintro ⟨which_lt, shown⟩
          rw [owned.mem_winMask_attachWin win_mem port which_lt, if_pos same] at shown
          exact shown
    · next other_ne =>
        rw [owned.vpMask other other_mem which]
        refine and_congr_right fun which_lt => ?_
        rw [owned.mem_winMask_attachWin win_mem port which_lt, if_neg other_ne]

/-! ### Moving the windows of a commit -/

/-- The moves of a commit: each window with the port it goes to. -/
def Commit.moves (data : Vop2Data) (commit : Commit) : List (ℕ × ℕ) :=
  commit.mainPlanes.flatMap fun plane =>
    (commit.port, plane.physId) ::
      if commit.spliceMode then
        [(data.spliceVpId commit.port, data.spliceWinId plane.physId)]
      else []

def attachAll (vop2 : Vop2) (moves : List (ℕ × ℕ)) : Vop2 :=
  moves.foldl (fun vop2 move => attachWin vop2 move.1 move.2) vop2

/-- The loop over the planes makes the moves of the commit. -/
theorem foldlM_attachPlane (commit : Commit) (planes : List Vop2Plane)
    (splice_mem : commit.spliceMode = true → ∀ plane ∈ planes,
      data.spliceWinId plane.physId ∈ data.wins) (vop2 : Vop2) :
    planes.foldlM (attachPlane data commit) vop2 =
      some (attachAll vop2 (planes.flatMap fun plane =>
        (commit.port, plane.physId) ::
          if commit.spliceMode then
            [(data.spliceVpId commit.port, data.spliceWinId plane.physId)]
          else [])) := by
  induction planes generalizing vop2 with
  | nil => rfl
  | cons plane planes ih =>
      have rest := ih fun splice other other_mem =>
        splice_mem splice other (List.mem_cons_of_mem _ other_mem)
      rw [List.foldlM_cons, List.flatMap_cons]
      cases splice : commit.spliceMode with
      | false => simp_all [attachPlane, attachAll]
      | true =>
          have found := splice_mem splice plane List.mem_cons_self
          simp_all [attachPlane, attachAll, vop2FindWinByPhysId]

theorem keepsLayers_attachAll (vop2 : Vop2) (moves : List (ℕ × ℕ)) :
    KeepsLayers vop2 (attachAll vop2 moves) := by
  induction moves generalizing vop2 with
  | nil => exact ⟨rfl, fun _ => rfl, rfl⟩
  | cons move moves ih => exact (keepsLayers_attachWin vop2 move.1 move.2).trans (ih _)

/-- Moves keep every window with one port at most. -/
theorem Owned.attachAll {vop2 : Vop2} (owned : Owned data vop2) {moves : List (ℕ × ℕ)}
    (allowed : ∀ move ∈ moves, move.1 < data.nrVps ∧ move.2 ∈ data.wins) :
    Owned data (attachAll vop2 moves) := by
  induction moves generalizing vop2 with
  | nil => exact owned
  | cons move moves ih =>
      obtain ⟨port_lt, win_mem⟩ := allowed move List.mem_cons_self
      exact ih (owned.attachWin port_lt win_mem) fun other other_mem =>
        allowed other (List.mem_cons_of_mem _ other_mem)

/-- A window that no move names stays with its port. -/
theorem Owned.mem_winMask_attachAll_of_not_mem {vop2 : Vop2} (owned : Owned data vop2)
    {moves : List (ℕ × ℕ)} (allowed : ∀ move ∈ moves, move.1 < data.nrVps ∧ move.2 ∈ data.wins)
    {port : ℕ} (port_lt : port < data.nrVps) {win : ℕ} (absent : win ∉ moves.map Prod.snd)
    (shown : win ∈ (vop2.vps port).winMask) :
    win ∈ ((Vop.attachAll vop2 moves).vps port).winMask := by
  induction moves generalizing vop2 with
  | nil => exact shown
  | cons move moves ih =>
      obtain ⟨target_lt, win_mem⟩ := allowed move List.mem_cons_self
      rw [List.map_cons, List.mem_cons, not_or] at absent
      refine ih (owned.attachWin target_lt win_mem)
        (fun other other_mem => allowed other (List.mem_cons_of_mem _ other_mem)) absent.2 ?_
      rw [owned.mem_winMask_attachWin win_mem _ port_lt, if_neg absent.1]
      exact shown

/-- Windows that are moved once end at the ports they are moved to. -/
theorem Owned.mem_winMask_attachAll {vop2 : Vop2} (owned : Owned data vop2)
    {moves : List (ℕ × ℕ)} (allowed : ∀ move ∈ moves, move.1 < data.nrVps ∧ move.2 ∈ data.wins)
    (once : (moves.map Prod.snd).Nodup) {move : ℕ × ℕ} (listed : move ∈ moves) :
    move.2 ∈ ((Vop.attachAll vop2 moves).vps move.1).winMask := by
  induction moves generalizing vop2 with
  | nil => cases listed
  | cons first moves ih =>
      obtain ⟨target_lt, win_mem⟩ := allowed first List.mem_cons_self
      have rest_allowed : ∀ move ∈ moves, move.1 < data.nrVps ∧ move.2 ∈ data.wins :=
        fun other other_mem => allowed other (List.mem_cons_of_mem _ other_mem)
      rw [List.map_cons, List.nodup_cons] at once
      rcases List.mem_cons.mp listed with rfl | later
      · refine (owned.attachWin target_lt win_mem).mem_winMask_attachAll_of_not_mem rest_allowed
          target_lt once.1 ?_
        rw [owned.mem_winMask_attachWin win_mem _ target_lt, if_pos rfl]
      · exact ih (owned.attachWin target_lt win_mem) rest_allowed once.2 later

/-- Where a window is after windows were moved to one port. -/
theorem Owned.mem_winMask_attachAll_iff {vop2 : Vop2} (owned : Owned data vop2) {port : ℕ}
    (port_lt : port < data.nrVps) {wins : List ℕ} (inside : ∀ win ∈ wins, win ∈ data.wins)
    {which : ℕ} (which_lt : which < data.nrVps) (other : ℕ) :
    other ∈ ((Vop.attachAll vop2 (wins.map (Prod.mk port))).vps which).winMask ↔
      if other ∈ wins then which = port else other ∈ (vop2.vps which).winMask := by
  induction wins generalizing vop2 with
  | nil => simp [Vop.attachAll]
  | cons win wins ih =>
      have win_mem := inside win List.mem_cons_self
      have rest := ih (owned.attachWin port_lt win_mem) fun later listed =>
        inside later (List.mem_cons_of_mem _ listed)
      rw [owned.mem_winMask_attachWin win_mem port which_lt] at rest
      refine rest.trans ?_
      by_cases later : other ∈ wins
      · simp [later]
      · simp [later]

end Vop
end RockchipSoc
