import RockchipSoc.Display.LayerRegistry

/-!
# The composition types that a client asks for

`SetLayerCompositionType` stores what the client asks for in `mCompositionType`, and
`PrepareDisplayLayers` stores its selection in the same place.  The client keeps beside the display
which layers it has and what it asked for each of them, and compares every frame with that.
-/

namespace RockchipSoc
namespace Display

open LabelledRun KeyedList

/-- A display and what its client remembers. -/
structure ClientView where
  display : HdiDisplay := {}
  /-- The layers created and not destroyed. -/
  current : List Nat := []
  /-- The type last asked for; a new layer has the type that it starts with. -/
  asked : Nat → CompositionType := fun _ => .client

/-- The layers of the client after a step. -/
def currentAfter (c : ClientView) (next : HdiDisplay) : DisplayLabel → List Nat
  | .createLayer =>
      if next.nextLayer = c.display.nextLayer then c.current
      else c.display.nextLayer :: c.current
  | .destroyLayer id =>
      match c.display.mLayersMap id with
      | none => c.current
      | some layer => c.current.erase layer
  | _ => c.current

/-- The requests of the client after a step. -/
def askedAfter (c : ClientView) : DisplayLabel → Nat → CompositionType
  | .createLayer => fun layer => if layer = c.display.nextLayer then .client else c.asked layer
  | .setLayerCompositionType id type =>
      match c.display.mLayersMap id with
      | none => c.asked
      | some asked => fun layer => if layer = asked then type else c.asked layer
  | _ => c.asked

def clientStep (c : ClientView) (label : DisplayLabel) : Option ClientView :=
  (displayStep c.display label).map fun next =>
    { display := next, current := currentAfter c next label, asked := askedAfter c label }

/-! ## What the client expects -/

/-- A request is for `CLIENT`, or more than four layers are to be placed by the composition. -/
def ClientWanted (c : ClientView) : Prop :=
  (∃ layer ∈ c.current, c.asked layer = .client) ∨
    4 < c.current.countP fun layer => !ownComposition (c.asked layer)

instance (c : ClientView) : Decidable (ClientWanted c) := by unfold ClientWanted; infer_instance

/-- The type of all layers that the composition places. -/
def selection (c : ClientView) : CompositionType := if ClientWanted c then .client else .device

/-- The type that a layer is to have in the next frame. -/
def wantedType (c : ClientView) (layer : Nat) : CompositionType :=
  if ownComposition (c.asked layer) then c.asked layer else selection c

/-- What `GetDisplayCompChange` answers with. -/
def getDisplayCompChange (s : HdiDisplay) : List (Nat × CompositionType) :=
  s.mChangeLayers.map fun layer => ((s.layers layer).mId, compositionType s layer)

/-- Each layer has the type that follows from the requests. -/
def SelectedAsAsked (c : ClientView) (next : HdiDisplay) : Prop :=
  ∀ layer ∈ c.current, compositionType next layer = wantedType c layer

/-- The change list has each layer that did not get the type asked for, and nothing else. -/
def ChangesListed (c : ClientView) (next : HdiDisplay) : Prop :=
  (getDisplayCompChange next).Perm
    ((c.current.filter fun layer => decide (compositionType next layer ≠ c.asked layer)).map
      fun layer => ((next.layers layer).mId, compositionType next layer))

def FrameAsAsked (c : ClientView) : DisplayLabel → Prop
  | .prepareDisplayLayers =>
      SelectedAsAsked c (prepareDisplayLayers c.display) ∧
        ChangesListed c (prepareDisplayLayers c.display)
  | _ => True

/-- What a frame needs: a layer holds `CLIENT` only where that is selected anyway, and every layer
asks for a type that the composition replaces. -/
def NothingLeftOver (c : ClientView) : DisplayLabel → Prop
  | .prepareDisplayLayers =>
      ((∃ layer ∈ c.current, compositionType c.display layer = .client) → ClientWanted c) ∧
        ∀ layer ∈ c.current,
          ownComposition (c.asked layer) = false ∧ c.asked layer ≠ selection c
  | _ => True

/-! ## What a layer holds -/

/-- A layer holds what was asked for, or what a frame has put in its place. -/
def HoldsFor (asked held : CompositionType) : Prop :=
  held = asked ∨ asked ≠ .client ∧ ownComposition asked = false ∧ ownComposition held = false

theorem HoldsFor.own {asked held : CompositionType} (holds : HoldsFor asked held) :
    ownComposition held = ownComposition asked := by
  rcases holds with rfl | ⟨_, placed, replaced⟩
  · rfl
  · rw [placed, replaced]

theorem HoldsFor.client {asked held : CompositionType} (holds : HoldsFor asked held)
    (client : asked = .client) : held = .client := by
  rcases holds with rfl | ⟨other, _⟩
  · exact client
  · exact absurd client other

/-- The composition replaces the types of the layers that it places, and keeps `CLIENT`. -/
theorem HoldsFor.deviceSelect {s : HdiDisplay} {asked : CompositionType} {layer : Nat}
    (holds : HoldsFor asked (compositionType s layer)) (member : layer ∈ s.mLayers) :
    HoldsFor asked (deviceSelect s s.mLayers layer) := by
  unfold Display.deviceSelect
  by_cases own : ownComposition (compositionType s layer) = true
  · rw [if_pos own]
    exact holds
  · rw [if_neg own]
    have placed : ownComposition asked = false := by
      rw [← holds.own]
      exact Bool.eq_false_iff.mpr own
    by_cases client : asked = .client
    · have used : useCompositionClient s s.mLayers = true := by
        simp only [useCompositionClient, Bool.or_eq_true, List.any_eq_true, decide_eq_true_eq]
        exact Or.inl ⟨layer, member, holds.client client⟩
      exact Or.inl (by rw [if_pos used, client])
    · refine Or.inr ⟨client, placed, ?_⟩
      split <;> rfl

structure AskedInv (c : ClientView) : Prop where
  registry : RegistryInv c.display
  once : c.current.Nodup
  same : ∀ layer, layer ∈ c.current ↔ layer ∈ c.display.mLayers
  holds : ∀ layer ∈ c.current, HoldsFor (c.asked layer) (compositionType c.display layer)

theorem askedInv_init : AskedInv {} where
  registry := registryInv_init
  once := List.nodup_nil
  same := fun _ => Iff.rfl
  holds := fun _ member => (List.not_mem_nil member).elim

/-! ## Steps -/

variable {c c' : ClientView} {label : DisplayLabel}

/-- Steps of which neither the layers of the client nor what they hold change. -/
theorem AskedInv.congr (inv : AskedInv c) (registry : RegistryInv c'.display)
    (current : c'.current = c.current) (asked : c'.asked = c.asked)
    (list : ∀ layer, layer ∈ c'.display.mLayers ↔ layer ∈ c.display.mLayers)
    (types : ∀ layer ∈ c.current,
      compositionType c'.display layer = compositionType c.display layer) : AskedInv c' where
  registry := registry
  once := current ▸ inv.once
  same := fun layer => by rw [current, list, inv.same]
  holds := fun layer member => by
    rw [current] at member
    rw [asked, types layer member]
    exact inv.holds layer member

theorem AskedInv.current_lt (inv : AskedInv c) {layer : Nat} (member : layer ∈ c.current) :
    layer < c.display.nextLayer :=
  inv.registry.named.below ((inv.registry.same layer).mp ((inv.same layer).mp member))

theorem AskedInv.addLayer (inv : AskedInv c) {id : Nat} (used : List Nat) (idle : Nat)
    (fresh : c.display.mLayersMap id = none) :
    let next := addLayer { c.display with mIdSets := used, mIdleId := idle } id
    AskedInv { display := next, current := currentAfter c next .createLayer,
               asked := askedAfter c .createLayer } := by
  intro next
  have kept : RegistryInv next := (inv.registry.setIds used idle).addLayer fresh
  have current : currentAfter c next .createLayer = c.display.nextLayer :: c.current := by
    simp [currentAfter, next, Display.addLayer, fresh, setLayer]
  refine ⟨kept, ?_, fun layer => ?_, fun layer member => ?_⟩
  · rw [current]
    exact List.nodup_cons.mpr
      ⟨fun member => Nat.lt_irrefl _ (inv.current_lt member), inv.once⟩
  · rw [current, List.mem_cons, inv.same]
    simp only [next, Display.addLayer, fresh]
    exact mem_insertUpper.symm
  · rw [current, List.mem_cons] at member
    have types : compositionType next layer =
        if layer = c.display.nextLayer then .client else compositionType c.display layer := by
      simp only [next, Display.addLayer, fresh, compositionType, setLayer]
      split <;> rfl
    rw [types]
    simp only [askedAfter]
    by_cases new : layer = c.display.nextLayer
    · rw [if_pos new, if_pos new]
      exact Or.inl rfl
    · rw [if_neg new, if_neg new]
      exact inv.holds layer (member.resolve_left new)

theorem AskedInv.createLayer (inv : AskedInv c) (fresh : FreshId c.display) {next : HdiDisplay}
    (taken : displayStep c.display .createLayer = some next) :
    AskedInv { display := next, current := currentAfter c next .createLayer,
               asked := askedAfter c .createLayer } := by
  have kept : RegistryInv next := @RegistryInv.step _ _ .createLayer inv.registry fresh taken
  rcases createLayer_cases taken with
    ⟨_, list, counter, layers, _⟩ | ⟨id, used, idle, found, free, rfl⟩
  · have current : currentAfter c next .createLayer = c.current := if_pos counter
    refine ⟨kept, current ▸ inv.once, fun layer => by rw [current, list, inv.same],
      fun layer member => ?_⟩
    rw [current] at member
    have other : layer ≠ c.display.nextLayer := Nat.ne_of_lt (inv.current_lt member)
    simp only [askedAfter, if_neg other, compositionType, layers]
    exact inv.holds layer member
  · exact inv.addLayer used idle (fresh id used idle found free)

theorem AskedInv.destroyLayer (inv : AskedInv c) {id : Nat} (alone : Alone c.display id) :
    let next := destroyLayer c.display id
    AskedInv { c with display := next, current := currentAfter c next (.destroyLayer id) } := by
  intro next
  have kept := inv.registry.destroyLayer alone
  cases found : c.display.mLayersMap id with
  | none =>
      refine inv.congr kept (by simp only [currentAfter, found]) rfl (fun _ => ?_) fun _ _ => ?_
      · simp only [next, Display.destroyLayer, found]
      · simp only [next, Display.destroyLayer, found]
  | some layer =>
      have current : currentAfter c (Display.destroyLayer c.display id) (.destroyLayer id) =
          c.current.erase layer := by simp only [currentAfter, found]
      refine ⟨kept, ?_, fun other => ?_, fun other member => ?_⟩
      · rw [current]
        exact inv.once.erase layer
      · rw [current, mLayers_destroyLayer inv.registry alone found, inv.once.mem_erase_iff,
          inv.registry.once.mem_erase_iff, inv.same]
      · rw [current] at member
        simp only [next, compositionType, Display.destroyLayer, found]
        exact inv.holds other (List.mem_of_mem_erase member)

theorem AskedInv.setLayerZorder (inv : AskedInv c) (id z : Nat) :
    AskedInv { c with display := setLayerZorder c.display id z } := by
  have kept := @RegistryInv.setLayerZorder _ id inv.registry z
  refine inv.congr kept rfl rfl (fun other => ?_) fun other _ => ?_
  · simp only [Display.setLayerZorder]
    split
    · rfl
    · next layer found =>
        split
        · rfl
        · have listed := (inv.registry.same layer).mpr ⟨id, found⟩
          rw [mem_insertUpper, inv.registry.once.mem_erase_iff]
          by_cases moved : other = layer
          · exact iff_of_true (Or.inl moved) (moved ▸ listed)
          · simp [moved]
  · simp only [Display.setLayerZorder]
    split
    · rfl
    · split
      · rfl
      · simp only [compositionType, setLayer]
        split
        · next same => rw [same]
        · rfl

/-- The client asks for what the layer then holds. -/
theorem AskedInv.setLayerCompositionType (inv : AskedInv c) (id : Nat) (type : CompositionType) :
    AskedInv { c with display := setLayerCompositionType c.display id type,
                      asked := askedAfter c (.setLayerCompositionType id type) } := by
  have kept := @RegistryInv.setLayerCompositionType _ id inv.registry type
  cases found : c.display.mLayersMap id with
  | none =>
      have unasked : askedAfter c (.setLayerCompositionType id type) = c.asked := by
        simp only [askedAfter, found]
      refine inv.congr kept rfl unasked (fun _ => ?_) fun _ _ => ?_
      · simp only [Display.setLayerCompositionType, found]
      · simp only [Display.setLayerCompositionType, found]
  | some layer =>
      refine ⟨kept, inv.once, fun other => ?_, fun other member => ?_⟩
      · rw [inv.same]
        simp only [Display.setLayerCompositionType, found, setLayer]
      · simp only [askedAfter, found, Display.setLayerCompositionType, compositionType, setLayer]
        by_cases same : other = layer
        · rw [if_pos same, if_pos same]
          exact Or.inl rfl
        · rw [if_neg same, if_neg same]
          exact inv.holds other member

/-- What a layer of the frame holds behind `PrepareDisplayLayers`. -/
theorem compositionType_prepareDisplayLayers {s : HdiDisplay} {layer : Nat}
    (member : layer ∈ s.mLayers) :
    compositionType (prepareDisplayLayers s) layer = deviceSelect s s.mLayers layer := by
  simp [compositionType, prepareDisplayLayers, setLayers, member]

theorem AskedInv.prepare (inv : AskedInv c) :
    AskedInv { c with display := prepareDisplayLayers c.display } where
  registry := inv.registry.prepareDisplayLayers
  once := inv.once
  same := inv.same
  holds := fun layer member => by
    have listed := (inv.same layer).mp member
    rw [compositionType_prepareDisplayLayers listed]
    exact (inv.holds layer member).deviceSelect listed

theorem AskedInv.step (inv : AskedInv c) (keeps : KeepsOthers c.display label)
    (taken : clientStep c label = some c') : AskedInv c' := by
  obtain ⟨next, moved, rfl⟩ := Option.map_eq_some_iff.mp taken
  cases label with
  | createLayer => exact inv.createLayer keeps moved
  | destroyLayer id =>
      obtain rfl := Option.some.inj moved
      exact inv.destroyLayer keeps
  | setLayerZorder id z =>
      obtain rfl := Option.some.inj moved
      exact inv.setLayerZorder id z
  | setLayerCompositionType id type =>
      obtain rfl := Option.some.inj moved
      exact inv.setLayerCompositionType id type
  | prepareDisplayLayers =>
      obtain rfl := Option.some.inj moved
      exact inv.prepare
  | getDisplayCompChange layers type =>
      obtain rfl := Option.some.inj moved
      exact inv
  | commit gfx =>
      obtain rfl := Option.some.inj moved
      exact inv
  | otherCreate =>
      have kept := inv.registry.step keeps moved
      obtain ⟨⟨id, used, idle⟩, _, rfl⟩ := Option.map_eq_some_iff.mp moved
      refine inv.congr kept rfl rfl (fun _ => ?_) fun _ _ => ?_
      · dsimp only
        split <;> rfl
      · dsimp only
        split <;> rfl
  | otherDestroy id =>
      have kept := inv.registry.step keeps moved
      obtain ⟨_, outcome⟩ := Option.ite_none_right_eq_some.mp moved
      obtain rfl := Option.some.inj outcome
      exact inv.congr kept rfl rfl (fun _ => Iff.rfl) fun _ _ => rfl

/-! ## Frames -/

theorem AskedInv.perm (inv : AskedInv c) : c.display.mLayers.Perm c.current :=
  (List.perm_ext_iff_of_nodup inv.registry.once inv.once).mpr fun layer => (inv.same layer).symm

/-- The code selects by what the layers hold, the client by what it asked for. -/
theorem AskedInv.useCompositionClient_iff (inv : AskedInv c) :
    useCompositionClient c.display c.display.mLayers = true ↔
      (∃ layer ∈ c.current, compositionType c.display layer = .client) ∨ ClientWanted c := by
  have crowd : (c.display.mLayers.countP fun layer =>
      !ownComposition (compositionType c.display layer)) =
      c.current.countP fun layer => !ownComposition (c.asked layer) := by
    rw [inv.perm.countP_eq]
    refine List.countP_congr fun layer member => ?_
    rw [(inv.holds layer member).own]
  have held : (∃ layer ∈ c.display.mLayers, compositionType c.display layer = .client) ↔
      ∃ layer ∈ c.current, compositionType c.display layer = .client := by
    simp only [inv.same]
  simp only [useCompositionClient, Bool.or_eq_true, List.any_eq_true, decide_eq_true_eq]
  rw [crowd, held, ClientWanted]
  constructor
  · rintro (client | crowded)
    · exact Or.inl client
    · exact Or.inr (Or.inr crowded)
  · rintro (client | ⟨layer, member, client⟩ | crowded)
    · exact Or.inl client
    · exact Or.inl ⟨layer, member, (inv.holds layer member).client client⟩
    · exact Or.inr crowded

/-- The type that a layer has behind `PrepareDisplayLayers`, by the request. -/
theorem AskedInv.prepared_eq (inv : AskedInv c) {layer : Nat} (member : layer ∈ c.current) :
    compositionType (prepareDisplayLayers c.display) layer =
      if ownComposition (c.asked layer) then compositionType c.display layer
      else if useCompositionClient c.display c.display.mLayers then .client else .device := by
  rw [compositionType_prepareDisplayLayers ((inv.same layer).mp member), deviceSelect,
    (inv.holds layer member).own]

theorem HoldsFor.eq_of_own {asked held : CompositionType} (holds : HoldsFor asked held)
    (own : ownComposition asked = true) : held = asked := by
  rcases holds with same | ⟨_, placed, _⟩
  · exact same
  · rw [placed] at own
    cases own

theorem AskedInv.selectedAsAsked_iff (inv : AskedInv c) :
    SelectedAsAsked c (prepareDisplayLayers c.display) ↔
      ((∃ layer ∈ c.current, compositionType c.display layer = .client) → ClientWanted c) := by
  constructor
  · rintro selected ⟨layer, member, client⟩
    have placed : ownComposition (c.asked layer) = false := by
      rw [← (inv.holds layer member).own, client]
      rfl
    have used := inv.useCompositionClient_iff.mpr (Or.inl ⟨layer, member, client⟩)
    have right := selected layer member
    rw [inv.prepared_eq member, wantedType, placed, used, selection] at right
    by_contra unwanted
    rw [if_neg unwanted] at right
    cases right
  · intro wanted layer member
    rw [inv.prepared_eq member, wantedType]
    by_cases own : ownComposition (c.asked layer) = true
    · rw [if_pos own, if_pos own]
      exact (inv.holds layer member).eq_of_own own
    · have same : useCompositionClient c.display c.display.mLayers = true ↔ ClientWanted c :=
        inv.useCompositionClient_iff.trans ⟨fun either => either.elim wanted id, Or.inr⟩
      rw [if_neg own, if_neg own, selection]
      by_cases client : ClientWanted c
      · rw [if_pos client, if_pos (same.mpr client)]
      · rw [if_neg client, if_neg (fun used => client (same.mp used))]

/-- All layers are in the change list. -/
theorem AskedInv.changesListed_iff (inv : AskedInv c) :
    ChangesListed c (prepareDisplayLayers c.display) ↔
      ∀ layer ∈ c.current,
        compositionType (prepareDisplayLayers c.display) layer ≠ c.asked layer := by
  have all : (getDisplayCompChange (prepareDisplayLayers c.display)).Perm
      (c.current.map fun layer => (((prepareDisplayLayers c.display).layers layer).mId,
        compositionType (prepareDisplayLayers c.display) layer)) := inv.perm.map _
  constructor
  · intro listed
    have lengths := (all.symm.trans listed).length_eq
    rw [List.length_map, List.length_map] at lengths
    simpa using List.length_filter_eq_length_iff.mp lengths.symm
  · intro changed
    rw [ChangesListed, List.filter_eq_self.mpr (by simpa using changed)]
    exact all

theorem AskedInv.frameAsAsked_iff (inv : AskedInv c) (label : DisplayLabel) :
    FrameAsAsked c label ↔ NothingLeftOver c label := by
  cases label with
  | prepareDisplayLayers =>
      simp only [FrameAsAsked, NothingLeftOver, inv.selectedAsAsked_iff]
      refine and_congr_right fun wanted => ?_
      have selected := inv.selectedAsAsked_iff.mpr wanted
      rw [inv.changesListed_iff]
      refine forall₂_congr fun layer member => ?_
      rw [selected layer member, wantedType]
      cases own : ownComposition (c.asked layer) with
      | true => simp
      | false => simpa using ne_comm
  | _ => exact Iff.rfl

/-! ## Runs -/

/-- A run in which no layer is destroyed that shares its zorder, nor created with the id of another
one, composes every frame as the client asked if and only if in every frame a layer holds `CLIENT`
only where that is selected anyway, and every layer asks for a type that the composition
replaces. -/
theorem frames_as_asked_iff (labels : List DisplayLabel) :
    Along clientStep (fun c label => KeepsOthers c.display label ∧ FrameAsAsked c label) {} labels ↔
      Along clientStep (fun c label => KeepsOthers c.display label ∧ NothingLeftOver c label)
        {} labels :=
  Along.congr AskedInv (fun _ label inv => and_congr_right fun _ => inv.frameAsAsked_iff label)
    (fun _ _ _ inv both taken => inv.step both.1 taken) askedInv_init labels

instance (c : ClientView) (next : HdiDisplay) : Decidable (SelectedAsAsked c next) := by
  unfold SelectedAsAsked; infer_instance

instance (c : ClientView) (next : HdiDisplay) : Decidable (ChangesListed c next) := by
  unfold ChangesListed; infer_instance

/-- A layer of its own zorder for which the client asks for `DEVICE`. -/
def newDeviceLayer (id : Nat) : List DisplayLabel :=
  [.createLayer, .setLayerZorder id id, .setLayerCompositionType id .device]

/-- Five layers are composed by the client, then one of them is destroyed. -/
def calmAfterCrowd : List DisplayLabel :=
  (List.range 5).flatMap newDeviceLayer ++ [.prepareDisplayLayers, .destroyLayer 4]

/-- The client asks for `VIDEO` for its only layer. -/
def singleVideo : List DisplayLabel := [.createLayer, .setLayerCompositionType 0 .video]

/-- The next frame of the four layers is still composed by the client, and the single layer that
gets what was asked for is in the change list. -/
theorem frame_remembers_the_crowd :
    (∃ c, runs clientStep {} calmAfterCrowd = some c ∧
      ¬SelectedAsAsked c (prepareDisplayLayers c.display)) ∧
    ∃ c, runs clientStep {} singleVideo = some c ∧
      ¬ChangesListed c (prepareDisplayLayers c.display) := by
  have crowd : (runs clientStep {} calmAfterCrowd).map (fun c =>
      decide (SelectedAsAsked c (prepareDisplayLayers c.display))) = some false := by
    decide +kernel
  have video : (runs clientStep {} singleVideo).map (fun c =>
      decide (ChangesListed c (prepareDisplayLayers c.display))) = some false := by
    decide +kernel
  obtain ⟨c, execution, wrong⟩ := Option.map_eq_some_iff.mp crowd
  obtain ⟨c', execution', wrong'⟩ := Option.map_eq_some_iff.mp video
  exact ⟨⟨c, execution, of_decide_eq_false wrong⟩, c', execution', of_decide_eq_false wrong'⟩

end Display
end RockchipSoc
