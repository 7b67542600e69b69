import RockchipSoc.Omx.ResourceManager

/-!
# The lists of the resource manager

What a call of the resource manager does to the lists of components, and that each list keeps to
components of its type, each at most once, and no more of them than there are places.
-/

namespace RockchipSoc
namespace Omx

variable {C : Type*} {codecType : C → CodecType} {sys sys' : OmxSystem C} {comp other : C}
  {list : List (RmEntry C)} {entry : RmEntry C} {env : RmEnv}

/-- The components in a list of the resource manager. -/
def OmxSystem.members (sys : OmxSystem C) (type : CodecType) : List C :=
  (sys.componentList type).map RmEntry.comp

/-- The component that has to give its place to another one. -/
def preempted (codecType : C → CodecType) (sys : OmxSystem C) (comp : C) : Option (RmEntry C) :=
  if maxResource (codecType comp) ≤ (sys.componentList (codecType comp)).length then
    candidate codecType sys comp
  else none

/-! ### What a call of the resource manager changes -/

/-- Nothing but the lists changes, and commands may have been queued. -/
structure Grown (sys sys' : OmxSystem C) : Prop where
  comps : sys'.comps = sys.comps
  running : sys'.running = sys.running
  messageQ : ∀ comp, ∃ more, sys'.messageQ comp = sys.messageQ comp ++ more

theorem Grown.refl (sys : OmxSystem C) : Grown sys sys :=
  ⟨rfl, rfl, fun _ => ⟨[], (List.append_nil _).symm⟩⟩

theorem Grown.trans {middle : OmxSystem C} (first : Grown sys middle) (second : Grown middle sys') :
    Grown sys sys' := by
  refine ⟨second.comps.trans first.comps, second.running.trans first.running, fun comp => ?_⟩
  obtain ⟨more, first_eq⟩ := first.messageQ comp
  obtain ⟨later, second_eq⟩ := second.messageQ comp
  exact ⟨more ++ later, by rw [second_eq, first_eq, List.append_assoc]⟩

theorem grown_setComponents : Grown sys (sys.setComponents codecType comp list) :=
  ⟨rfl, rfl, (Grown.refl sys).messageQ⟩

theorem grown_setWaiting : Grown sys (sys.setWaiting codecType comp list) :=
  ⟨rfl, rfl, (Grown.refl sys).messageQ⟩

@[simp] theorem members_setWaiting :
    (sys.setWaiting codecType comp list).members = sys.members := rfl

@[simp] theorem members_setComponents : (sys.setComponents codecType comp list).members =
    Function.update sys.members (codecType comp) (list.map RmEntry.comp) := by
  funext type
  by_cases same : type = codecType comp
  · subst same
    simp [OmxSystem.members, OmxSystem.setComponents]
  · simp [OmxSystem.members, OmxSystem.setComponents, same]

/-! ### The lists stay in order -/

/-- Each list has components of its type only, each at most once, and no more than there are
places. -/
structure ListsOk (codecType : C → CodecType) (sys : OmxSystem C) : Prop where
  typed : ∀ type, ∀ comp ∈ sys.members type, codecType comp = type
  nodup : ∀ type, (sys.members type).Nodup
  bounded : ∀ type, (sys.members type).length ≤ maxResource type

/-- The component has a place. -/
def Held (codecType : C → CodecType) (sys : OmxSystem C) (comp : C) : Prop :=
  comp ∈ sys.members (codecType comp)

theorem held_congr (same : sys'.members = sys.members) :
    Held codecType sys' comp ↔ Held codecType sys comp := by
  rw [Held, Held, same]

theorem ListsOk.congr (lists : ListsOk codecType sys) (same : sys'.members = sys.members) :
    ListsOk codecType sys' :=
  ⟨same ▸ lists.typed, same ▸ lists.nodup, same ▸ lists.bounded⟩

/-- Another list for one type. -/
theorem ListsOk.update {type : CodecType} {members : List C} (lists : ListsOk codecType sys)
    (changed : sys'.members = Function.update sys.members type members)
    (typed : ∀ comp ∈ members, codecType comp = type) (nodup : members.Nodup)
    (bounded : members.length ≤ maxResource type) : ListsOk codecType sys' := by
  have parts : ∀ type', (∀ comp ∈ sys'.members type', codecType comp = type') ∧
      (sys'.members type').Nodup ∧ (sys'.members type').length ≤ maxResource type' := by
    intro type'
    rw [changed]
    by_cases same : type' = type
    · subst same
      rw [Function.update_self]
      exact ⟨typed, nodup, bounded⟩
    · rw [Function.update_of_ne same]
      exact ⟨lists.typed type', lists.nodup type', lists.bounded type'⟩
  exact ⟨fun type' => (parts type').1, fun type' => (parts type').2.1,
    fun type' => (parts type').2.2⟩

/-! ### The calls -/

theorem inWaitForResource_spec : Grown sys (inWaitForResource codecType sys comp env).1 ∧
    (inWaitForResource codecType sys comp env).1.members = sys.members :=
  ⟨grown_setWaiting, rfl⟩

theorem addComponent_spec : Grown sys (addComponent codecType sys comp env list).1 ∧
    (addComponent codecType sys comp env list).1.members = Function.update sys.members
      (codecType comp) (list.map RmEntry.comp ++ if env.malloc then [comp] else []) ∧
    (addComponent codecType sys comp env list).2 = env.malloc := by
  unfold addComponent addElementList
  cases env.malloc <;> exact ⟨grown_setComponents, by simp, rfl⟩

/-- An entry is added to what is left of the list of its type. -/
theorem ListsOk.added (lists : ListsOk codecType sys) (absent : ¬Held codecType sys comp)
    (part : (list.map RmEntry.comp).Sublist (sys.members (codecType comp)))
    (room : list.length < maxResource (codecType comp)) :
    ListsOk codecType (addComponent codecType sys comp env list).1 ∧
      (Held codecType (addComponent codecType sys comp env list).1 comp ↔ env.malloc = true) ∧
      ∀ other, other ≠ comp →
        (Held codecType (addComponent codecType sys comp env list).1 other ↔
          if codecType other = codecType comp then other ∈ list.map RmEntry.comp
          else Held codecType sys other) := by
  obtain ⟨-, members, -⟩ := @addComponent_spec C codecType sys comp list env
  have missing : comp ∉ list.map RmEntry.comp := fun member => absent (part.mem member)
  have nodup : (list.map RmEntry.comp).Nodup := (lists.nodup _).sublist part
  refine ⟨lists.update members ?_ ?_ ?_, ?_, fun other differ => ?_⟩
  · intro other member
    rcases List.mem_append.mp member with old | new
    · exact lists.typed _ other (part.mem old)
    · cases malloc : env.malloc with
      | false => simp [malloc] at new
      | true => simp_all
  · cases env.malloc with
    | false => simpa using nodup
    | true => simpa [List.nodup_append, nodup] using missing
  · cases env.malloc with
    | false => simpa using Nat.le_of_lt room
    | true =>
        simp only [if_true, List.length_append, List.length_map, List.length_singleton]
        exact room
  · rw [Held, members, Function.update_self]
    cases env.malloc <;> simp_all
  · rw [Held, members]
    by_cases same : codecType other = codecType comp
    · rw [same, Function.update_self]
      cases env.malloc <;> simp [differ]
    · rw [Function.update_of_ne same, if_neg same, Held]

/-- Only a component that has a place can be asked for it. -/
theorem ListsOk.held_preempted (lists : ListsOk codecType sys)
    (found : entry ∈ preempted codecType sys comp) : Held codecType sys entry.comp := by
  unfold preempted at found
  split at found
  · have member : entry.comp ∈ sys.members (codecType comp) :=
      List.mem_map_of_mem (searchLowPriority_spec found).1
    rw [Held, lists.typed _ _ member]
    exact member
  · cases found

variable [DecidableEq C]

theorem grown_sendCommand {destState : Option OmxState} {queued : Bool} :
    Grown sys (sendCommand sys comp destState queued).1 := by
  unfold sendCommand
  split
  · exact .refl sys
  · refine ⟨rfl, rfl, fun other => ?_⟩
    by_cases same : other = comp
    · subst same
      exact ⟨[destState], Function.update_self ..⟩
    · exact ⟨[], by simp [same]⟩

@[simp] theorem members_sendCommand {destState : Option OmxState} {queued : Bool} :
    (sendCommand sys comp destState queued).1.members = sys.members := by
  unfold sendCommand
  split <;> rfl

theorem members_removed (sys : OmxSystem C) (type : CodecType) (comp : C) :
    (removeElementList (sys.componentList type) comp).1.map RmEntry.comp =
      (sys.members type).erase comp :=
  map_removeElementList _ _

theorem wakeWaiting_spec : Grown sys (wakeWaiting codecType sys comp env) ∧
    (wakeWaiting codecType sys comp env).members = sys.members := by
  unfold wakeWaiting
  split
  · exact ⟨.refl sys, rfl⟩
  · exact ⟨grown_setWaiting.trans grown_sendCommand, members_sendCommand⟩

theorem outWaitForResource_spec : Grown sys (outWaitForResource codecType sys comp).1 ∧
    (outWaitForResource codecType sys comp).1.members = sys.members :=
  ⟨grown_setWaiting, rfl⟩

/-- The component gives its place back, if it has one. -/
theorem releaseResource_spec : Grown sys (releaseResource codecType sys comp env).1 ∧
    (releaseResource codecType sys comp env).1.members = Function.update sys.members
      (codecType comp) ((sys.members (codecType comp)).erase comp) := by
  have removed_eq := members_removed sys (codecType comp) comp
  have found := removeElementList_snd (sys.componentList (codecType comp)) comp
  unfold releaseResource
  simp only
  split
  · obtain ⟨grown, members⟩ := @wakeWaiting_spec C codecType (sys.setComponents codecType comp
      (removeElementList (sys.componentList (codecType comp)) comp).1) comp env _
    exact ⟨grown_setComponents.trans grown, by rw [members, members_setComponents, removed_eq]⟩
  · next absent =>
      have missing : comp ∉ sys.members (codecType comp) := fun member => absent (found.mpr member)
      refine ⟨.refl sys, ?_⟩
      rw [List.erase_of_not_mem missing, Function.update_eq_self]

theorem ListsOk.released (lists : ListsOk codecType sys) :
    ListsOk codecType (releaseResource codecType sys comp env).1 ∧
      ∀ other, Held codecType (releaseResource codecType sys comp env).1 other ↔
        Held codecType sys other ∧ other ≠ comp := by
  obtain ⟨-, members⟩ := @releaseResource_spec C codecType sys comp env _
  have nodup := lists.nodup (codecType comp)
  refine ⟨lists.update members ?_ (nodup.erase comp) ?_, fun other => ?_⟩
  · exact fun other member => lists.typed _ other (List.mem_of_mem_erase member)
  · exact Nat.le_trans (List.length_erase_le ..) (lists.bounded _)
  · rw [Held, members]
    by_cases same : codecType other = codecType comp
    · rw [same, Function.update_self, nodup.mem_erase_iff, Held, same, and_comm]
    · rw [Function.update_of_ne same, Held]
      exact ⟨fun held => ⟨held, fun equal => same (congrArg codecType equal)⟩, And.left⟩

/-- The candidate leaves room in the list of its type. -/
theorem ListsOk.room (lists : ListsOk codecType sys)
    (found : candidate codecType sys comp = some entry) :
    (removeElementList (sys.componentList (codecType comp)) entry.comp).1.length <
        maxResource (codecType comp) ∧
      ((removeElementList (sys.componentList (codecType comp)) entry.comp).1.map
        RmEntry.comp).Sublist (sys.members (codecType comp)) := by
  have gone := members_removed sys (codecType comp) entry.comp
  have member : entry.comp ∈ sys.members (codecType comp) :=
    List.mem_map_of_mem (searchLowPriority_spec found).1
  have length := congrArg List.length gone
  rw [List.length_map, List.length_erase_of_mem member] at length
  have bounded := lists.bounded (codecType comp)
  have positive := List.length_pos_of_mem member
  refine ⟨by omega, ?_⟩
  rw [gone]
  exact List.erase_sublist

theorem removeComponent_spec {queued : Bool} :
    Grown sys (removeComponent sys comp queued).1 ∧
      (removeComponent sys comp queued).1.members = sys.members ∧
      ((removeComponent sys comp queued).2 = true → sys.currentState comp = .idle →
        queued = true ∧ (removeComponent sys comp queued).1.messageQ comp =
          sys.messageQ comp ++ [some .loaded]) := by
  unfold removeComponent
  split
  · next idle =>
      refine ⟨grown_sendCommand, members_sendCommand, fun sent _ => ?_⟩
      unfold sendCommand at sent ⊢
      split at sent
      · cases sent
      · next accepted =>
          rw [if_neg accepted]
          exact ⟨by simpa using (not_or.mp accepted).2, Function.update_self ..⟩
  · next busy => exact ⟨.refl sys, rfl, fun _ idle => absurd idle busy⟩

/-- A component that has no place gets one if and only if the call succeeds.  At most one other
component loses its place, the candidate; if it is Idle, it has been told to go to Loaded. -/
theorem ListsOk.got (lists : ListsOk codecType sys) (absent : ¬Held codecType sys comp) :
    Grown sys (getResource codecType sys comp env).1 ∧
      ListsOk codecType (getResource codecType sys comp env).1 ∧
      (Held codecType (getResource codecType sys comp env).1 comp ↔
        (getResource codecType sys comp env).2 = true) ∧
      ∀ other, other ≠ comp →
        (Held codecType (getResource codecType sys comp env).1 other ↔ Held codecType sys other) ∨
          ∃ low ∈ preempted codecType sys comp, low.comp = other ∧
            ¬Held codecType (getResource codecType sys comp env).1 other ∧
            (sys.currentState other = .idle → env.queued = true ∧
              (getResource codecType sys comp env).1.messageQ other =
                sys.messageQ other ++ [some .loaded]) := by
  unfold getResource preempted
  simp only
  split
  · next full =>
      cases found : candidate codecType sys comp with
      | none => exact ⟨.refl sys, lists, by simpa using absent, fun other _ => .inl Iff.rfl⟩
      | some low =>
          obtain ⟨grown, members, told⟩ := @removeComponent_spec C sys low.comp _ env.queued
          simp only
          split
          · next removed =>
              have gone := members_removed sys (codecType comp) low.comp
              obtain ⟨room, part⟩ := lists.room found
              obtain ⟨lists', held, others⟩ := @ListsOk.added C codecType _ comp _ env
                (lists.congr members) ((held_congr members).not.mpr absent)
                (by rw [members]; exact part) room
              obtain ⟨later, -, granted⟩ := @addComponent_spec C codecType
                (removeComponent sys low.comp env.queued).1 comp
                (removeElementList (sys.componentList (codecType comp)) low.comp).1 env
              refine ⟨grown.trans later, lists', held.trans (by rw [granted]), ?_⟩
              intro other differ
              have nodup := lists.nodup (codecType comp)
              rw [others other differ, held_congr members, gone, nodup.mem_erase_iff]
              by_cases lost : other = low.comp
              · have type : codecType other = codecType comp := lists.typed _ _ <| by
                  rw [lost]
                  exact List.mem_map_of_mem (searchLowPriority_spec found).1
                rw [if_pos type]
                refine .inr ⟨low, rfl, lost.symm, fun kept => kept.1 lost, fun idle => ?_⟩
                subst lost
                exact told removed idle
              · left
                split
                · next type => simp [lost, Held, type]
                · exact Iff.rfl
          · next kept =>
              exact ⟨grown, lists.congr members, by simpa [held_congr members] using absent,
                fun other _ => .inl (held_congr members)⟩
  · next room =>
      have room : (sys.componentList (codecType comp)).length < maxResource (codecType comp) :=
        Nat.not_le.mp room
      obtain ⟨grown, -, granted⟩ :=
        @addComponent_spec C codecType sys comp (sys.componentList (codecType comp)) env
      obtain ⟨lists', held, others⟩ := @ListsOk.added C codecType sys comp
        (sys.componentList (codecType comp)) env lists absent (List.Sublist.refl _) room
      refine ⟨grown, lists', held.trans (by rw [granted]), fun other differ => .inl ?_⟩
      rw [others other differ]
      split
      · next same => rw [Held, same, OmxSystem.members]
      · exact Iff.rfl

/-- Of the other calls only one that gives a place back changes who has one. -/
theorem ListsOk.called {call : RmCall} (lists : ListsOk codecType sys)
    (taken : call ≠ .getResource) :
    Grown sys (rmCall codecType sys comp env call).1 ∧
      ListsOk codecType (rmCall codecType sys comp env call).1 ∧
      ∀ other, Held codecType (rmCall codecType sys comp env call).1 other ↔
        Held codecType sys other ∧ ¬(call = .releaseResource ∧ other = comp) := by
  cases call with
  | getResource => exact absurd rfl taken
  | releaseResource =>
      obtain ⟨lists', held⟩ := @ListsOk.released C codecType sys comp env _ lists
      exact ⟨releaseResource_spec.1, lists', fun other => (held other).trans (by simp)⟩
  | inWaitForResource =>
      obtain ⟨grown, members⟩ := @inWaitForResource_spec C codecType sys comp env
      exact ⟨grown, lists.congr members, fun other => (held_congr members).trans (by simp)⟩
  | outWaitForResource =>
      obtain ⟨grown, members⟩ := @outWaitForResource_spec C codecType sys comp _
      exact ⟨grown, lists.congr members, fun other => (held_congr members).trans (by simp)⟩

end Omx
end RockchipSoc
