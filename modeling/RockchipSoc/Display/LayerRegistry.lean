import RockchipSoc.Display.HdiDisplay

/-!
# The registry of layers

`mLayers` lists the layers of `mLayersMap` by zorder as long as no layer is destroyed that shares
its zorder with another one.
-/

namespace RockchipSoc
namespace Display

open LabelledRun KeyedList

/-- `mLayers` has each layer of `mLayersMap` once and nothing else, by zorder. -/
structure RegistryKept (s : HdiDisplay) : Prop where
  once : s.mLayers.Nodup
  same : ∀ layer, layer ∈ s.mLayers ↔ Live s layer
  sorted : Sorted (zorder s) s.mLayers

/-- What `DestroyLayer` needs: no other layer of the display has the zorder of the layer. -/
def Alone (s : HdiDisplay) (id : Nat) : Prop :=
  ∀ layer ∈ s.mLayersMap id, ∀ other, Live s other → zorder s other = zorder s layer → other = layer

/-- What `CreateLayer` needs: the id that it obtains is not the id of a layer of the display. -/
def FreshId (s : HdiDisplay) : Prop :=
  ∀ id used idle, getIdleId s.mIdSets s.mIdleId = some (id, used, idle) → id ≠ invalideLayerId →
    s.mLayersMap id = none

def KeepsOthers (s : HdiDisplay) : DisplayLabel → Prop
  | .destroyLayer id => Alone s id
  | .createLayer => FreshId s
  | _ => True

/-- What ties the keys of `mLayersMap` to the layers. -/
def Named (s : HdiDisplay) : Prop :=
  ∀ id layer, s.mLayersMap id = some layer → layer < s.nextLayer ∧ (s.layers layer).mId = id

structure RegistryInv (s : HdiDisplay) : Prop extends RegistryKept s where
  named : Named s

variable {s s' : HdiDisplay} {id layer : Nat} {label : DisplayLabel}

theorem registryInv_init : RegistryInv {} where
  once := List.nodup_nil
  same := fun layer =>
    ⟨fun member => (List.not_mem_nil member).elim, fun ⟨_, found⟩ => by cases found⟩
  sorted := List.Pairwise.nil
  named := fun _ _ found => by cases found

/-- A layer has one id. -/
theorem Named.id_unique (named : Named s) {id' : Nat} (left : s.mLayersMap id = some layer)
    (right : s.mLayersMap id' = some layer) : id = id' := by
  rw [← (named id layer left).2, (named id' layer right).2]

theorem Named.below (named : Named s) (live : Live s layer) : layer < s.nextLayer :=
  let ⟨id, found⟩ := live
  (named id layer found).1

theorem Named.not_live_next (named : Named s) : ¬Live s s.nextLayer := fun live =>
  Nat.lt_irrefl _ (named.below live)

theorem Named.congr (named : Named s) (map : s'.mLayersMap = s.mLayersMap)
    (next : s'.nextLayer = s.nextLayer)
    (ids : ∀ layer, (s'.layers layer).mId = (s.layers layer).mId) :
    Named s' := fun id layer found => by
  rw [next, ids]
  exact named id layer (map ▸ found)

/-- Steps that leave the registry and the zorders alone. -/
theorem RegistryInv.congr (inv : RegistryInv s) (map : s'.mLayersMap = s.mLayersMap)
    (list : s'.mLayers = s.mLayers) (next : s'.nextLayer = s.nextLayer)
    (keys : ∀ layer, (s'.layers layer).mZorder = (s.layers layer).mZorder ∧
      (s'.layers layer).mId = (s.layers layer).mId) : RegistryInv s' where
  once := list ▸ inv.once
  same := fun layer => by rw [list, inv.same layer, Live, Live, map]
  sorted := list ▸ inv.sorted.congr fun layer _ => (keys layer).1
  named := inv.named.congr map next fun layer => (keys layer).2

/-! ## Creating -/

theorem live_addLayer (fresh : s.mLayersMap id = none) :
    Live (addLayer s id) layer ↔ layer = s.nextLayer ∨ Live s layer := by
  simp only [addLayer, fresh]
  constructor
  · rintro ⟨key, found⟩
    by_cases same : key = id
    · exact Or.inl (Option.some.inj ((if_pos same).symm.trans found)).symm
    · exact Or.inr ⟨key, (if_neg same).symm.trans found⟩
  · rintro (rfl | ⟨key, found⟩)
    · exact ⟨id, if_pos rfl⟩
    · have other : key ≠ id := fun equal => by rw [equal, fresh] at found; cases found
      exact ⟨key, (if_neg other).trans found⟩

theorem Named.addLayer (named : Named s) (fresh : s.mLayersMap id = none) :
    Named (addLayer s id) := by
  simp only [Display.addLayer, fresh]
  intro key layer found
  by_cases same : key = id
  · obtain rfl := Option.some.inj ((if_pos same).symm.trans found)
    exact ⟨Nat.lt_succ_self _, by simp [setLayer, same]⟩
  · have old : s.mLayersMap key = some layer := (if_neg same).symm.trans found
    obtain ⟨below, own⟩ := named key layer old
    exact ⟨Nat.lt_succ_of_lt below, by simp [setLayer, Nat.ne_of_lt below, own]⟩

theorem zorder_setLayer_other (value : HdiLayer) (k : Nat) (other : layer ≠ k) :
    zorder (setLayer s k value) layer = zorder s layer := by
  simp [zorder, setLayer, other]

theorem RegistryInv.addLayer (inv : RegistryInv s) (fresh : s.mLayersMap id = none) :
    RegistryInv (addLayer s id) := by
  have absent : s.nextLayer ∉ s.mLayers := fun member =>
    inv.named.not_live_next ((inv.same _).mp member)
  refine ⟨⟨?_, fun layer => ?_, ?_⟩, inv.named.addLayer fresh⟩
  · simp only [Display.addLayer, fresh]
    exact nodup_insertUpper absent inv.once
  · rw [live_addLayer fresh, ← inv.same]
    simp only [Display.addLayer, fresh]
    exact mem_insertUpper
  · simp only [Display.addLayer, fresh]
    refine (inv.sorted.congr fun layer member => ?_).insertUpper
    have other : layer ≠ s.nextLayer := fun equal => absent (equal ▸ member)
    exact zorder_setLayer_other _ _ other

/-- With the id of another layer, the new layer is listed and not owned. -/
theorem not_kept_addLayer (inv : RegistryInv s) (taken : s.mLayersMap id ≠ none) :
    ¬RegistryKept (addLayer s id) := by
  obtain ⟨layer, found⟩ := Option.ne_none_iff_exists'.mp taken
  intro kept
  have listed : s.nextLayer ∈ (addLayer s id).mLayers := by
    simp only [addLayer, found]
    exact mem_insertUpper.mpr (Or.inl rfl)
  obtain ⟨key, owned⟩ := (kept.same _).mp listed
  simp only [addLayer, found] at owned
  exact inv.named.not_live_next ⟨key, owned⟩

/-! ## Destroying -/

theorem live_destroyLayer (named : Named s) (found : s.mLayersMap id = some layer) {other : Nat} :
    Live (destroyLayer s id) other ↔ other ≠ layer ∧ Live s other := by
  simp only [destroyLayer, found]
  constructor
  · rintro ⟨key, owned⟩
    by_cases same : key = id
    · exact absurd ((if_pos same).symm.trans owned) (by simp)
    · have owned : s.mLayersMap key = some other := (if_neg same).symm.trans owned
      exact ⟨fun equal => same (named.id_unique (equal ▸ owned) found), key, owned⟩
  · rintro ⟨different, key, owned⟩
    have otherKey : key ≠ id := fun equal => by
      rw [equal, found] at owned
      exact different (Option.some.inj owned).symm
    exact ⟨key, (if_neg otherKey).trans owned⟩

theorem Named.destroyLayer (named : Named s) (id : Nat) : Named (destroyLayer s id) := by
  simp only [Display.destroyLayer]
  split
  · exact named
  · intro key other listed
    by_cases same : key = id
    · exact absurd ((if_pos same).symm.trans listed) (by simp)
    · exact named key other ((if_neg same).symm.trans listed)

theorem mLayers_destroyLayer (inv : RegistryInv s) (alone : Alone s id)
    (found : s.mLayersMap id = some layer) :
    (destroyLayer s id).mLayers = s.mLayers.erase layer := by
  simp only [destroyLayer, found]
  exact eraseClass_eq_erase inv.once fun other member =>
    alone layer found other ((inv.same other).mp member)

theorem RegistryInv.destroyLayer (inv : RegistryInv s) (alone : Alone s id) :
    RegistryInv (destroyLayer s id) := by
  cases found : s.mLayersMap id with
  | none => simpa only [Display.destroyLayer, found] using inv
  | some layer =>
      refine ⟨⟨?_, fun other => ?_, ?_⟩, inv.named.destroyLayer id⟩
      · simp only [Display.destroyLayer, found]
        exact inv.once.sublist eraseClass_sublist
      · rw [live_destroyLayer inv.named found, mLayers_destroyLayer inv alone found,
          inv.once.mem_erase_iff, inv.same]
      · simp only [Display.destroyLayer, found]
        exact inv.sorted.sublist eraseClass_sublist

/-- Another layer of that zorder is no longer listed. -/
theorem not_kept_destroyLayer (shared : ¬Alone s id) :
    ¬RegistryKept (destroyLayer s id) := by
  simp only [Alone, not_forall] at shared
  obtain ⟨layer, found, other, ⟨key, owned⟩, equal, different⟩ := shared
  have found : s.mLayersMap id = some layer := found
  intro kept
  have otherKey : key ≠ id := fun same => by
    rw [same, found] at owned
    exact different (Option.some.inj owned).symm
  have owned' : Live (destroyLayer s id) other := by
    simp only [destroyLayer, found]
    exact ⟨key, (if_neg otherKey).trans owned⟩
  have listed := (kept.same other).mpr owned'
  simp only [destroyLayer, found] at listed
  exact not_mem_eraseClass equal listed

/-! ## Other steps -/

theorem mId_setLayer (value : HdiLayer) (same : value.mId = (s.layers layer).mId) (k : Nat) :
    ((setLayer s layer value).layers k).mId = (s.layers k).mId := by
  by_cases equal : k = layer
  · simp [setLayer, equal, same]
  · simp [setLayer, equal]

theorem Named.setLayerZorder (named : Named s) (id z : Nat) : Named (setLayerZorder s id z) := by
  simp only [Display.setLayerZorder]
  split
  · exact named
  · split
    · exact named
    · exact named.congr rfl rfl (mId_setLayer _ rfl)

theorem RegistryInv.setLayerZorder (inv : RegistryInv s) (z : Nat) :
    RegistryInv (setLayerZorder s id z) := by
  refine ⟨?_, inv.named.setLayerZorder id z⟩
  simp only [Display.setLayerZorder]
  split
  · exact inv.toRegistryKept
  · next layer found =>
      split
      · exact inv.toRegistryKept
      · have absent : layer ∉ s.mLayers.erase layer := fun member =>
          (inv.once.mem_erase_iff.mp member).1 rfl
        refine ⟨nodup_insertUpper absent (inv.once.erase layer), fun other => ?_, ?_⟩
        · rw [mem_insertUpper, inv.once.mem_erase_iff]
          by_cases same : other = layer
          · rw [same]
            exact iff_of_true (Or.inl rfl) ⟨id, found⟩
          · simp only [same, false_or, ne_eq, not_false_eq_true, true_and]
            exact inv.same other
        · refine ((inv.sorted.sublist List.erase_sublist).congr fun other member => ?_).insertUpper
          exact zorder_setLayer_other _ _ (inv.once.mem_erase_iff.mp member).1

theorem RegistryInv.setLayerCompositionType (inv : RegistryInv s) (type : CompositionType) :
    RegistryInv (setLayerCompositionType s id type) := by
  simp only [Display.setLayerCompositionType]
  split
  · exact inv
  · next layer found =>
      refine inv.congr rfl rfl rfl fun other => ?_
      by_cases same : other = layer
      · simp [setLayer, same]
      · simp [setLayer, same]

theorem RegistryInv.prepareDisplayLayers (inv : RegistryInv s) :
    RegistryInv (prepareDisplayLayers s) :=
  inv.congr rfl rfl rfl fun layer => by
    by_cases listed : layer ∈ s.mLayers <;> simp [Display.prepareDisplayLayers, setLayers, listed]

/-- `CreateLayer` obtains an id, or the call fails or does not return. -/
theorem createLayer_cases (created : createLayer s = some s') :
    (s'.mLayersMap = s.mLayersMap ∧ s'.mLayers = s.mLayers ∧ s'.nextLayer = s.nextLayer ∧
        s'.layers = s.layers ∧ s'.mChangeLayers = s.mChangeLayers ∧
        s'.mCompLayers = s.mCompLayers ∧ s'.destroyed = s.destroyed) ∨
      ∃ id used idle, getIdleId s.mIdSets s.mIdleId = some (id, used, idle) ∧
        id ≠ invalideLayerId ∧ s' = addLayer { s with mIdSets := used, mIdleId := idle } id := by
  obtain ⟨⟨id, used, idle⟩, found, rfl⟩ := Option.map_eq_some_iff.mp created
  by_cases out : id = invalideLayerId
  · simp [out]
  · exact Or.inr ⟨id, used, idle, found, out, if_neg out⟩

theorem RegistryInv.setIds (inv : RegistryInv s) (used : List Nat) (idle : Nat) :
    RegistryInv { s with mIdSets := used, mIdleId := idle } :=
  inv.congr rfl rfl rfl fun _ => ⟨rfl, rfl⟩

theorem RegistryInv.step (inv : RegistryInv s) (keeps : KeepsOthers s label)
    (taken : displayStep s label = some s') : RegistryInv s' := by
  cases label with
  | createLayer =>
      rcases createLayer_cases taken with
        ⟨map, list, next, layers, _⟩ | ⟨id, used, idle, found, free, rfl⟩
      · exact inv.congr map list next fun layer => by rw [layers]; exact ⟨rfl, rfl⟩
      · exact (inv.setIds used idle).addLayer (keeps id used idle found free)
  | destroyLayer id =>
      obtain rfl := Option.some.inj taken
      exact inv.destroyLayer keeps
  | setLayerZorder id z =>
      obtain rfl := Option.some.inj taken
      exact inv.setLayerZorder z
  | setLayerCompositionType id type =>
      obtain rfl := Option.some.inj taken
      exact inv.setLayerCompositionType type
  | prepareDisplayLayers =>
      obtain rfl := Option.some.inj taken
      exact inv.prepareDisplayLayers
  | getDisplayCompChange layers type =>
      obtain rfl := Option.some.inj taken
      exact inv
  | commit gfx =>
      obtain rfl := Option.some.inj taken
      exact inv
  | otherCreate =>
      obtain ⟨⟨id, used, idle⟩, _, rfl⟩ := Option.map_eq_some_iff.mp taken
      dsimp only
      split <;> exact inv.congr rfl rfl rfl fun _ => ⟨rfl, rfl⟩
  | otherDestroy id =>
      obtain ⟨_, outcome⟩ := Option.ite_none_right_eq_some.mp taken
      obtain rfl := Option.some.inj outcome
      exact inv.congr rfl rfl rfl fun _ => ⟨rfl, rfl⟩

/-- A step that does not meet the condition breaks the registry. -/
theorem broken_of_not_keepsOthers (inv : RegistryInv s) (breaks : ¬KeepsOthers s label) :
    ∃ next, displayStep s label = some next ∧ ¬RegistryKept next := by
  cases label with
  | destroyLayer id => exact ⟨_, rfl, not_kept_destroyLayer breaks⟩
  | createLayer =>
      simp only [KeepsOthers, FreshId, not_forall] at breaks
      obtain ⟨id, used, idle, found, free, taken⟩ := breaks
      refine ⟨addLayer { s with mIdSets := used, mIdleId := idle } id, ?_,
        not_kept_addLayer (inv.setIds used idle) taken⟩
      simp [displayStep, createLayer, found, free]
  | _ => exact absurd trivial breaks

/-! ## Runs -/

/-- What the next frame is composed of. -/
theorem mCompLayers_prepareDisplayLayers (s : HdiDisplay) :
    (prepareDisplayLayers s).mCompLayers = s.mLayers := rfl

/-- The registry is kept in every state of a run if and only if each layer is destroyed while no
other one shares its zorder, and created with an id that no layer has.  In such a run `DestroyLayer`
removes the named layer, and no other, from what the next frame is composed of. -/
theorem hdi_layers_kept_iff (labels : List DisplayLabel) :
    (Always displayStep RegistryKept {} labels ↔ Along displayStep KeepsOthers {} labels) ∧
      (Along displayStep KeepsOthers {} labels → ∀ front id rest,
        labels = front ++ .destroyLayer id :: rest → ∀ s, runs displayStep {} front = some s →
          ∀ layer ∈ s.mLayersMap id, (prepareDisplayLayers (destroyLayer s id)).mCompLayers =
            (prepareDisplayLayers s).mCompLayers.erase layer) := by
  constructor
  · exact always_iff_along RegistryInv (fun _ inv => inv.toRegistryKept)
      (fun _ _ _ inv _ keeps taken => inv.step keeps taken)
      (fun _ _ inv _ breaks => broken_of_not_keepsOthers inv breaks) registryInv_init labels
      (along_anyStep _ _)
  · rintro along front id rest rfl s execution layer found
    obtain ⟨reach, alone⟩ := along.split execution
    have inv : RegistryInv s :=
      reach.invariant (fun _ _ _ inv keeps taken => inv.step keeps taken) registryInv_init
    rw [mCompLayers_prepareDisplayLayers, mCompLayers_prepareDisplayLayers]
    exact mLayers_destroyLayer inv alone found

/-- Two layers are created and the first one is destroyed. -/
def destroyedFirst : List DisplayLabel := [.createLayer, .createLayer, .destroyLayer 0]

theorem destroying_a_layer_drops_another :
    ∃ final, runs displayStep {} destroyedFirst = some final ∧ final.mLayersMap 1 = some 1 ∧
      (prepareDisplayLayers final).mCompLayers = [] ∧ ¬RegistryKept final := by
  have outcome : (runs displayStep {} destroyedFirst).map
      (fun final => (final.mLayersMap 1, final.mLayers)) = some (some 1, []) := by decide +kernel
  obtain ⟨final, execution, lists⟩ := Option.map_eq_some_iff.mp outcome
  obtain ⟨owned, empty⟩ := Prod.mk.inj lists
  refine ⟨final, execution, owned, empty, fun kept => ?_⟩
  have listed := (kept.same 1).mpr ⟨1, owned⟩
  rw [empty] at listed
  cases listed

end Display
end RockchipSoc
