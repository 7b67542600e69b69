import RockchipSoc.Display.LayerRegistry

/-!
# Pointers to the layers of a frame

`PrepareDisplayLayers` collects pointers that `Commit` and `GetDisplayCompChange` read later.  Each
collected layer is one of the display or has been destroyed since.
-/

namespace RockchipSoc
namespace Display

open LabelledRun KeyedList

/-- All layers that the step reads are layers of the display. -/
def ReadsLive (s : HdiDisplay) (label : DisplayLabel) : Prop :=
  ∀ layer ∈ reads s label, Live s layer

/-- None of the layers that the step reads was destroyed since the last `PrepareDisplayLayers`. -/
def SincePrepared (s : HdiDisplay) (label : DisplayLabel) : Prop :=
  ∀ layer ∈ reads s label, layer ∉ s.destroyed

def FreshStep (s : HdiDisplay) : DisplayLabel → Prop
  | .createLayer => FreshId s
  | _ => True

/-- Where the collected pointers lead. -/
structure PointerInv (s : HdiDisplay) : Prop where
  named : Named s
  listed : ∀ layer ∈ s.mLayers, Live s layer
  collected : ∀ layer, layer ∈ s.mCompLayers ∨ layer ∈ s.mChangeLayers →
    Live s layer ∨ layer ∈ s.destroyed
  dead : ∀ layer ∈ s.destroyed, layer < s.nextLayer ∧ ¬Live s layer

variable {s s' : HdiDisplay} {id : Nat} {label : DisplayLabel}

theorem pointerInv_init : PointerInv {} where
  named := fun _ _ found => by cases found
  listed := fun _ member => by cases member
  collected := fun _ member => by rcases member with member | member <;> cases member
  dead := fun _ member => by cases member

/-- Steps that change only the list and what the layers hold. -/
theorem PointerInv.congr (inv : PointerInv s) (named : Named s')
    (map : s'.mLayersMap = s.mLayersMap) (list : ∀ layer ∈ s'.mLayers, Live s layer)
    (next : s'.nextLayer = s.nextLayer) (composed : s'.mCompLayers = s.mCompLayers)
    (changed : s'.mChangeLayers = s.mChangeLayers) (destroyed : s'.destroyed = s.destroyed) :
    PointerInv s' := by
  have live : Live s' = Live s := by
    funext layer
    rw [Live, Live, map]
  refine ⟨named, ?_, ?_, ?_⟩
  · rwa [live]
  · rw [live, composed, changed, destroyed]
    exact inv.collected
  · rw [live, next, destroyed]
    exact inv.dead

theorem PointerInv.addLayer (inv : PointerInv s) (fresh : s.mLayersMap id = none) :
    PointerInv (addLayer s id) := by
  have parts : (Display.addLayer s id).mCompLayers = s.mCompLayers ∧
      (Display.addLayer s id).mChangeLayers = s.mChangeLayers ∧
      (Display.addLayer s id).destroyed = s.destroyed ∧
      (Display.addLayer s id).nextLayer = s.nextLayer + 1 := by
    simp [Display.addLayer, fresh, setLayer]
  obtain ⟨composed, changed, destroyed, next⟩ := parts
  refine ⟨inv.named.addLayer fresh, fun layer member => ?_, fun layer member => ?_,
    fun layer member => ?_⟩
  · rw [live_addLayer fresh]
    simp only [Display.addLayer, fresh] at member
    exact (mem_insertUpper.mp member).imp_right (inv.listed layer)
  · rw [live_addLayer fresh, destroyed]
    rw [composed, changed] at member
    exact (inv.collected layer member).imp_left Or.inr
  · rw [destroyed] at member
    obtain ⟨below, gone⟩ := inv.dead layer member
    rw [live_addLayer fresh, next]
    exact ⟨Nat.lt_succ_of_lt below, not_or.mpr ⟨Nat.ne_of_lt below, gone⟩⟩

theorem PointerInv.destroyLayer (inv : PointerInv s) (id : Nat) :
    PointerInv (destroyLayer s id) := by
  cases found : s.mLayersMap id with
  | none => simpa only [Display.destroyLayer, found] using inv
  | some layer =>
      have owned : Live s layer := ⟨id, found⟩
      have live := fun other => @live_destroyLayer s id layer inv.named found other
      have parts : (Display.destroyLayer s id).mCompLayers = s.mCompLayers ∧
          (Display.destroyLayer s id).mChangeLayers = s.mChangeLayers ∧
          (Display.destroyLayer s id).destroyed = layer :: s.destroyed ∧
          (Display.destroyLayer s id).nextLayer = s.nextLayer ∧
          (Display.destroyLayer s id).mLayers = eraseClass (zorder s) layer s.mLayers := by
        simp [Display.destroyLayer, found]
      obtain ⟨composed, changed, destroyed, next, list⟩ := parts
      refine ⟨inv.named.destroyLayer id, fun other member => ?_, fun other member => ?_,
        fun other member => ?_⟩
      · rw [list] at member
        refine (live other).mpr ⟨fun equal => ?_,
          inv.listed other (eraseClass_sublist.subset member)⟩
        exact not_mem_eraseClass rfl (equal ▸ member)
      · rw [live, destroyed, List.mem_cons]
        rw [composed, changed] at member
        by_cases same : other = layer
        · exact Or.inr (Or.inl same)
        · exact (inv.collected other member).imp (fun old => ⟨same, old⟩) Or.inr
      · rw [live, next]
        rw [destroyed] at member
        rcases List.mem_cons.mp member with rfl | old
        · exact ⟨inv.named.below owned, fun both => both.1 rfl⟩
        · exact ⟨(inv.dead other old).1, fun both => (inv.dead other old).2 both.2⟩

theorem PointerInv.setLayerZorder (inv : PointerInv s) (id z : Nat) :
    PointerInv (setLayerZorder s id z) := by
  have named := inv.named.setLayerZorder id z
  simp only [Display.setLayerZorder] at named ⊢
  split at named
  · exact inv
  · next layer found =>
      split at named
      · next same => rwa [if_pos same]
      · next moves =>
          rw [if_neg moves]
          refine inv.congr named rfl (fun other member => ?_) rfl rfl rfl rfl
          rcases mem_insertUpper.mp member with rfl | old
          · exact ⟨id, found⟩
          · exact inv.listed other (List.mem_of_mem_erase old)

theorem PointerInv.setLayerCompositionType (inv : PointerInv s) (type : CompositionType) :
    PointerInv (setLayerCompositionType s id type) := by
  simp only [Display.setLayerCompositionType]
  split
  · exact inv
  · exact inv.congr (inv.named.congr rfl rfl (mId_setLayer _ rfl)) rfl inv.listed rfl rfl rfl rfl

/-- The frame is prepared of layers of the display. -/
theorem PointerInv.prepareDisplayLayers (inv : PointerInv s) :
    PointerInv (prepareDisplayLayers s) where
  named := inv.named.congr rfl rfl fun layer => by
    by_cases listed : layer ∈ s.mLayers <;> simp [Display.prepareDisplayLayers, setLayers, listed]
  listed := inv.listed
  collected := fun layer member => Or.inl (inv.listed layer (member.elim (fun h => h) fun h => h))
  dead := fun _ member => by cases member

theorem PointerInv.step (inv : PointerInv s) (fresh : FreshStep s label)
    (taken : displayStep s label = some s') : PointerInv s' := by
  cases label with
  | createLayer =>
      rcases createLayer_cases taken with
        ⟨map, list, next, layers, changed, composed, destroyed⟩ | ⟨id, used, idle, found, free, rfl⟩
      · exact inv.congr (inv.named.congr map next fun layer => by rw [layers]) map
          (list ▸ inv.listed) next composed changed destroyed
      · have ids : PointerInv { s with mIdSets := used, mIdleId := idle } :=
          inv.congr inv.named rfl inv.listed rfl rfl rfl rfl
        exact ids.addLayer (fresh id used idle found free)
  | destroyLayer id =>
      obtain rfl := Option.some.inj taken
      exact inv.destroyLayer id
  | setLayerZorder id z =>
      obtain rfl := Option.some.inj taken
      exact inv.setLayerZorder id z
  | setLayerCompositionType id type =>
      obtain rfl := Option.some.inj taken
      exact inv.setLayerCompositionType type
  | prepareDisplayLayers =>
      obtain rfl := Option.some.inj taken
      exact inv.prepareDisplayLayers
  | getDisplayCompChange layers type =>
      obtain rfl := Option.some.inj taken
      exact inv
  | commit gfx =>
      obtain rfl := Option.some.inj taken
      exact inv
  | otherCreate =>
      obtain ⟨⟨id, used, idle⟩, _, rfl⟩ := Option.map_eq_some_iff.mp taken
      dsimp only
      split <;> exact inv.congr inv.named rfl inv.listed rfl rfl rfl rfl
  | otherDestroy id =>
      obtain ⟨_, outcome⟩ := Option.ite_none_right_eq_some.mp taken
      obtain rfl := Option.some.inj outcome
      exact inv.congr inv.named rfl inv.listed rfl rfl rfl rfl

/-! ## Reading -/

theorem mem_of_mem_readUntil {stops : Nat → Nat → Bool} {layers : List Nat} {i layer : Nat}
    (member : layer ∈ readUntil stops i layers) : layer ∈ layers := by
  induction layers generalizing i with
  | nil => cases member
  | cons first rest ih =>
      rcases List.mem_cons.mp member with rfl | later
      · exact List.mem_cons_self
      · split at later
        · cases later
        · exact List.mem_cons_of_mem _ (ih later)

/-- Every layer that a step reads was collected when the frame was prepared. -/
theorem collected_of_mem_reads {layer : Nat} (member : layer ∈ reads s label) :
    layer ∈ s.mCompLayers ∨ layer ∈ s.mChangeLayers := by
  cases label with
  | commit gfx =>
      rcases List.mem_append.mp member with first | second
      · exact Or.inl (mem_of_mem_readUntil first)
      · exact Or.inl (mem_of_mem_readUntil second)
  | getDisplayCompChange layers type =>
      simp only [reads, compChangeReads] at member
      split at member
      · exact Or.inr member
      · cases member
  | _ => cases member

/-- A step reads layers of the display if and only if none of them was destroyed since. -/
theorem PointerInv.readsLive_iff (inv : PointerInv s) :
    ReadsLive s label ↔ SincePrepared s label := by
  constructor
  · intro live layer member gone
    exact (inv.dead layer gone).2 (live layer member)
  · intro kept layer member
    exact (inv.collected layer (collected_of_mem_reads member)).resolve_right (kept layer member)

/-! ## Runs -/

/-- A run reads no destroyed layer, and creates each layer with an id that no layer of the display
has, if and only if it creates the layers so and reads no layer that was destroyed since the last
`PrepareDisplayLayers`. -/
theorem hdi_reads_live_iff (labels : List DisplayLabel) :
    Along displayStep FreshStep {} labels ∧ Along displayStep ReadsLive {} labels ↔
      Along displayStep (fun s label => FreshStep s label ∧ SincePrepared s label) {} labels := by
  rw [← along_and_iff]
  exact Along.congr PointerInv (fun _ _ inv => and_congr_right fun _ => inv.readsLive_iff)
    (fun _ _ _ inv both taken => inv.step both.1 taken) pointerInv_init labels

/-- The only layer is destroyed when the frame is prepared. -/
def destroyedPrepared : List DisplayLabel :=
  [.createLayer, .prepareDisplayLayers, .destroyLayer 0]

/-- Both calls for the frame then read the destroyed layer. -/
theorem composer_reads_a_destroyed_layer :
    ∃ s, runs displayStep {} destroyedPrepared = some s ∧ ¬Live s 0 ∧
      0 ∈ reads s (.getDisplayCompChange true true) ∧ 0 ∈ reads s (.commit fun _ => true) ∧
      ¬ReadsLive s (.getDisplayCompChange true true) ∧ ¬ReadsLive s (.commit fun _ => true) := by
  have outcome : (runs displayStep {} destroyedPrepared).map (fun s =>
      (reads s (.getDisplayCompChange true true), reads s (.commit fun _ => true), s.destroyed)) =
      some ([0], [0, 0], [0]) := by decide +kernel
  obtain ⟨s, execution, lists⟩ := Option.map_eq_some_iff.mp outcome
  obtain ⟨change, rest⟩ := Prod.mk.inj lists
  obtain ⟨commit, destroyed⟩ := Prod.mk.inj rest
  have along : Along displayStep FreshStep {} destroyedPrepared :=
    ⟨fun _ _ _ _ _ => rfl, fun _ _ => ⟨trivial, fun _ _ => ⟨trivial, fun _ _ => trivial⟩⟩⟩
  have inv : PointerInv s := (reaches_of_runs along execution).invariant
    (fun _ _ _ inv fresh taken => inv.step fresh taken) pointerInv_init
  have gone : ¬Live s 0 := (inv.dead 0 (by simp [destroyed])).2
  have first : 0 ∈ reads s (.getDisplayCompChange true true) := by simp [change]
  have second : 0 ∈ reads s (.commit fun _ => true) := by simp [commit]
  exact ⟨s, execution, gone, first, second, fun live => gone (live 0 first),
    fun live => gone (live 0 second)⟩

end Display
end RockchipSoc
