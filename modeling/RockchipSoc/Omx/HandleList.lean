import Mathlib.Data.Finset.Range
import Mathlib.Data.List.Perm.Subperm
import RockchipSoc.Omx.CoreHandles

/-!
# The list of loaded components

The list in the heap is a chain of the numbers of the loaded components.  A call of
`OMX_FreeHandle` does what it should exactly when the handle is loaded: for any other one the search
reads through the pointer of the last element.
-/

namespace RockchipSoc
namespace Omx

open LabelledRun LinkedChain Ledger

variable {core next : OmxCore} {handles front rest : List ℕ} {h : ℕ}

/-- The list is a chain of the handles, each of which is in its element. -/
structure CoreInv (core : OmxCore) (handles : List ℕ) : Prop where
  chain : Chain LoadedComponent.nextOMXComp core.nodes core.gLoadComponentList handles
  distinct : handles.Nodup
  created : ∀ h ∈ handles, h < core.created
  own : ∀ h ∈ handles, ∀ node, core.nodes h = some node → node.pOMXComponent = h

/-! ### Reading the list -/

theorem deref_some {node : LoadedComponent} (here : core.nodes h = some node) :
    deref core (some h) = .ok node := by
  simp only [deref, Option.bind_some, here]

theorem deref_none : deref core none = .error .nullDereference := rfl

/-- There are no more loaded components than were created. -/
theorem CoreInv.length_le (inv : CoreInv core handles) : handles.length ≤ core.created := by
  have sub : handles ⊆ List.range core.created := fun h member =>
    List.mem_range.mpr (inv.created h member)
  have shorter := (inv.distinct.subperm sub).length_le
  rwa [List.length_range] at shorter

theorem handlesFrom_eq {pointer : Option ℕ} {fuel : ℕ} {list : List ℕ}
    (chain : Chain LoadedComponent.nextOMXComp core.nodes pointer list)
    (own : ∀ h ∈ list, ∀ node, core.nodes h = some node → node.pOMXComponent = h)
    (enough : list.length < fuel) : handlesFrom core fuel pointer = list := by
  induction list generalizing pointer fuel with
  | nil =>
      obtain rfl : pointer = none := chain
      obtain ⟨fuel, rfl⟩ := Nat.exists_eq_add_of_lt enough
      rfl
  | cons first list ih =>
      obtain ⟨rfl, node, here, tail⟩ := chain
      cases fuel with
      | zero => exact absurd enough (Nat.not_lt_zero _)
      | succ fuel =>
          rw [handlesFrom, Option.bind_some, here]
          dsimp only
          rw [own first List.mem_cons_self node here,
            ih tail (fun h member => own h (List.mem_cons_of_mem first member))
              (Nat.lt_of_succ_lt_succ enough)]

theorem CoreInv.loaded_eq (inv : CoreInv core handles) : core.loaded = handles :=
  handlesFrom_eq inv.chain inv.own (Nat.lt_succ_of_le inv.length_le)

theorem coreInv_omxInit (gComponentList : List String) : CoreInv (omxInit gComponentList) [] where
  chain := rfl
  distinct := List.nodup_nil
  created _ member := by cases member
  own _ member := by cases member

/-- A changed link leaves the handles where they are. -/
theorem own_setNextOMXComp {address : ℕ} {node : LoadedComponent} {nextOMXComp : Option ℕ}
    (own : ∀ a ∈ handles, ∀ found, core.nodes a = some found → found.pOMXComponent = a)
    (here : core.nodes address = some node) :
    ∀ a ∈ handles, ∀ found, (setNextOMXComp core address node nextOMXComp).nodes a = some found →
      found.pOMXComponent = a := by
  intro a member found there
  have there : Function.update core.nodes address _ a = some found := there
  by_cases same : a = address
  · subst same
    rw [Function.update_self] at there
    obtain rfl := Option.some.inj there
    exact own a member node here
  · rw [Function.update_of_ne same] at there
    exact own a member found there

/-! ### Freeing a handle -/

/-- An element ahead whose handle is another one: the loop goes on. -/
theorem previousComponent_succ {first second : ℕ} {node ahead : LoadedComponent} (fuel : ℕ)
    (here : core.nodes first = some node) (leads : node.nextOMXComp = some second)
    (there : core.nodes second = some ahead) (other : ahead.pOMXComponent ≠ h) :
    previousComponent core h (fuel + 1) (some first) =
      previousComponent core h fuel (some second) := by
  simp only [previousComponent, deref_some here, leads, deref_some there, Except.bind, ne_eq, other,
    not_false_eq_true, if_true]

/-- The loop stops at the element before the one with the handle. -/
theorem previousComponent_found {previous fuel : ℕ} {pointer : Option ℕ}
    (chain : Chain LoadedComponent.nextOMXComp core.nodes pointer (front ++ previous :: h :: rest))
    (own : ∀ a ∈ front ++ previous :: h :: rest, ∀ node, core.nodes a = some node →
      node.pOMXComponent = a)
    (before : h ∉ front ++ [previous]) (enough : front.length < fuel) :
    previousComponent core h fuel pointer = .ok (some previous) := by
  induction front generalizing pointer fuel with
  | nil =>
      obtain ⟨rfl, node, here, leads, ahead, there, -⟩ := chain
      obtain ⟨fuel, rfl⟩ := Nat.exists_eq_succ_of_ne_zero (Nat.ne_of_gt enough)
      have handle := own h (by simp) ahead there
      simp only [previousComponent, deref_some here, leads, deref_some there, Except.bind, handle,
        ne_eq, not_true_eq_false, if_false]
  | cons first front ih =>
      obtain ⟨rfl, node, here, tail⟩ := chain
      obtain ⟨fuel, rfl⟩ := Nat.exists_eq_succ_of_ne_zero (Nat.ne_of_gt (Nat.zero_lt_of_lt enough))
      obtain ⟨second, more, split, member⟩ : ∃ second more,
          front ++ previous :: h :: rest = second :: more ∧ second ∈ front ++ [previous] := by
        cases front with
        | nil => exact ⟨previous, h :: rest, rfl, List.mem_singleton.mpr rfl⟩
        | cons second front => exact ⟨second, _, rfl, List.mem_cons_self⟩
      have behind : Chain LoadedComponent.nextOMXComp core.nodes node.nextOMXComp
          (second :: more) := split.subst (motive := fun list => Chain _ _ _ list) tail
      obtain ⟨leads, ahead, there, -⟩ := behind
      have inside : second ∈ front ++ previous :: h :: rest := split ▸ List.mem_cons_self
      have handle := own second (List.mem_cons_of_mem first inside) ahead there
      have other : ahead.pOMXComponent ≠ h := by
        rw [handle]
        rintro rfl
        exact before (List.mem_cons_of_mem first member)
      rw [previousComponent_succ fuel here leads there other, ← leads]
      exact ih tail (fun a found => own a (List.mem_cons_of_mem first found))
        (fun found => before (List.mem_cons_of_mem first found)) (Nat.lt_of_succ_lt_succ enough)

/-- A handle that is not behind the pointer: the loop reads through the last link. -/
theorem previousComponent_missing {first fuel : ℕ} {list : List ℕ}
    (chain : Chain LoadedComponent.nextOMXComp core.nodes (some first) (first :: list))
    (own : ∀ a ∈ list, ∀ node, core.nodes a = some node → node.pOMXComponent = a)
    (missing : h ∉ list) (enough : list.length < fuel) :
    previousComponent core h fuel (some first) = .error .nullDereference := by
  induction list generalizing first fuel with
  | nil =>
      obtain ⟨-, node, here, ends⟩ := chain
      obtain ⟨fuel, rfl⟩ := Nat.exists_eq_succ_of_ne_zero (Nat.ne_of_gt enough)
      have ends : node.nextOMXComp = none := ends
      simp only [previousComponent, deref_some here, ends, deref_none, Except.bind]
  | cons second list ih =>
      obtain ⟨-, node, here, tail⟩ := chain
      obtain ⟨fuel, rfl⟩ := Nat.exists_eq_succ_of_ne_zero (Nat.ne_of_gt (Nat.zero_lt_of_lt enough))
      obtain ⟨leads, ahead, there, -⟩ := id tail
      have handle := own second List.mem_cons_self ahead there
      have other : ahead.pOMXComponent ≠ h := by
        rw [handle]
        rintro rfl
        exact missing List.mem_cons_self
      rw [previousComponent_succ fuel here leads there other]
      exact ih (leads ▸ tail) (fun a found => own a (List.mem_cons_of_mem second found))
        (fun found => missing (List.mem_cons_of_mem second found)) (Nat.lt_of_succ_lt_succ enough)

/-- An element that is no longer in the list is unloaded. -/
theorem CoreInv.unload (inv : CoreInv core handles) (absent : h ∉ handles)
    {node : LoadedComponent} (here : core.nodes h = some node) (handle : node.pOMXComponent = h) :
    CoreInv (componentUnload core (some h)) handles ∧
      (componentUnload core (some h)).deInits = bump core.deInits h := by
  have unloaded : componentUnload core (some h) =
      { core with nodes := Function.update core.nodes h none, deInits := bump core.deInits h } := by
    simp only [componentUnload, here, handle]
  have other (a : ℕ) (member : a ∈ handles) : a ≠ h := fun same => absent (same ▸ member)
  rw [unloaded]
  refine ⟨⟨inv.chain.frame fun a member => ?_, inv.distinct, inv.created,
    fun a member node found => ?_⟩, rfl⟩
  · exact Function.update_of_ne (other a member) _ _
  · change Function.update core.nodes h none a = some node at found
    rw [Function.update_of_ne (other a member)] at found
    exact inv.own a member node found

/-- An element behind another one is unlinked. -/
theorem CoreInv.unlink {previous : ℕ} {node ahead : LoadedComponent}
    (inv : CoreInv core (front ++ previous :: h :: rest)) (here : core.nodes previous = some node)
    (there : core.nodes h = some ahead) :
    CoreInv (setNextOMXComp core previous node ahead.nextOMXComp) (front ++ previous :: rest) := by
  have part : (front ++ previous :: rest).Sublist (front ++ previous :: h :: rest) :=
    List.Sublist.append_left ((List.sublist_cons_self h rest).cons_cons previous) front
  obtain ⟨-, distinct, apart⟩ := List.nodup_append.mp inv.distinct
  obtain ⟨fresh, -⟩ := List.nodup_cons.mp distinct
  refine ⟨inv.chain.relink (fun b member => ?_) (Function.update_self _ _ _) ?_,
    inv.distinct.sublist part, fun a member => inv.created a (part.subset member),
    own_setNextOMXComp (fun a member => inv.own a (part.subset member)) here⟩
  · exact Function.update_of_ne (apart b member previous List.mem_cons_self) _ _
  · obtain ⟨node', -, -, ahead', there', tail⟩ := inv.chain.behind
    obtain rfl : ahead' = ahead := Option.some.inj (there'.symm.trans there)
    refine tail.frame fun b member => Function.update_of_ne ?_ _ _
    rintro rfl
    exact fresh (List.mem_cons_of_mem h member)

/-- The first element is unlinked. -/
theorem CoreInv.unlinkFirst {node : LoadedComponent} (inv : CoreInv core (h :: rest))
    (here : core.nodes h = some node) :
    CoreInv { core with gLoadComponentList := node.nextOMXComp } rest := by
  obtain ⟨-, node', here', tail⟩ := inv.chain
  obtain rfl : node' = node := Option.some.inj (here'.symm.trans here)
  exact ⟨tail, (List.nodup_cons.mp inv.distinct).2,
    fun a member => inv.created a (List.mem_cons_of_mem h member),
    fun a member => inv.own a (List.mem_cons_of_mem h member)⟩

/-- A handle behind the first one has an element before it. -/
theorem exists_previous {first : ℕ} {list : List ℕ} (member : h ∈ list)
    (distinct : (first :: list).Nodup) :
    ∃ front previous rest, first :: list = front ++ previous :: h :: rest ∧
      h ∉ front ++ [previous] ∧ (first :: list).erase h = front ++ previous :: rest := by
  obtain ⟨middle, rest, rfl⟩ := List.append_of_mem member
  have ends := List.dropLast_append_getLast (List.cons_ne_nil first middle)
  have split : first :: (middle ++ h :: rest) = (first :: middle).dropLast ++
      (first :: middle).getLast (List.cons_ne_nil first middle) :: h :: rest := by
    have moved := congrArg (· ++ h :: rest) ends.symm
    rwa [List.append_assoc, List.singleton_append] at moved
  have fresh : h ∉ first :: middle := fun before =>
    (List.nodup_append.mp (List.cons_append ▸ distinct)).2.2 h before h List.mem_cons_self rfl
  refine ⟨_, _, rest, split, ends.symm ▸ fresh, ?_⟩
  rw [← List.cons_append, List.erase_append_right _ fresh, List.erase_cons_head]
  nth_rewrite 1 [← ends]
  rw [List.append_assoc, List.singleton_append]

/-- Behind the element at which the loop stops, the component is unlinked and unloaded. -/
theorem unlinkBehind_found {previous : ℕ}
    (inv : CoreInv core (front ++ previous :: h :: rest)) :
    ∃ next, unlinkBehind core h (some previous) = .ok (next, .errorNone) ∧
      CoreInv next (front ++ previous :: rest) ∧ next.deInits = bump core.deInits h := by
  obtain ⟨node, here, leads, ahead, there, -⟩ := inv.chain.behind
  have handle := inv.own h (by simp) ahead there
  obtain ⟨-, distinct, apart⟩ := List.nodup_append.mp inv.distinct
  obtain ⟨fresh, distinct⟩ := List.nodup_cons.mp distinct
  have other : h ≠ previous := by
    rintro rfl
    exact fresh List.mem_cons_self
  have absent : h ∉ front ++ previous :: rest := by
    intro member
    obtain before | behind := List.mem_append.mp member
    · exact apart h before h (List.mem_cons_of_mem previous List.mem_cons_self) rfl
    · have later := (List.mem_cons.mp behind).resolve_left other
      exact (List.nodup_cons.mp distinct).1 later
  have there' : (setNextOMXComp core previous node ahead.nextOMXComp).nodes h = some ahead :=
    (Function.update_of_ne other _ _).trans there
  obtain ⟨after, deInits⟩ := (inv.unlink here there).unload absent there' handle
  refine ⟨_, ?_, after, deInits⟩
  simp only [unlinkBehind, deref_some here, leads, deref_some there, Except.bind, handle, if_true]

/-- A handle in the list: its component is unloaded, and the list goes on without it. -/
theorem omxFreeHandle_loaded (inv : CoreInv core handles) (member : h ∈ handles) :
    ∃ next, omxFreeHandle core h = .ok (next, .errorNone) ∧ CoreInv next (handles.erase h) ∧
      next.deInits = bump core.deInits h := by
  cases handles with
  | nil => cases member
  | cons first list =>
      obtain ⟨leads, node, here, -⟩ := id inv.chain
      have handle := inv.own first List.mem_cons_self node here
      by_cases found : first = h
      · subst found
        have fresh := (List.nodup_cons.mp inv.distinct).1
        obtain ⟨after, deInits⟩ := (inv.unlinkFirst here).unload fresh here handle
        refine ⟨_, ?_, ?_, deInits⟩
        · rw [omxFreeHandle, leads, deref_some here, Except.bind]
          exact if_pos handle
        · rw [List.erase_cons_head]
          exact after
      · have later : h ∈ list := (List.mem_cons.mp member).resolve_left (Ne.symm found)
        have other : node.pOMXComponent ≠ h := fun same => found (handle.symm.trans same)
        obtain ⟨front, previous, rest, split, before, erased⟩ := exists_previous later inv.distinct
        rw [split] at inv
        have enough : front.length < core.created + 1 := by
          have bound := inv.length_le
          rw [List.length_append] at bound
          omega
        have search := previousComponent_found inv.chain inv.own before enough
        obtain ⟨next, unlinked, after, deInits⟩ := unlinkBehind_found inv
        refine ⟨next, ?_, erased ▸ after, deInits⟩
        rw [omxFreeHandle, leads, deref_some here, Except.bind, if_neg other, ← leads, search]
        exact unlinked

/-- Any other handle: the search reads through a pointer that leads nowhere. -/
theorem omxFreeHandle_missing (inv : CoreInv core handles) (missing : h ∉ handles) :
    omxFreeHandle core h = .error .nullDereference := by
  cases handles with
  | nil =>
      have leads : core.gLoadComponentList = none := inv.chain
      rw [omxFreeHandle, leads, deref_none]
      rfl
  | cons first list =>
      obtain ⟨leads, node, here, -⟩ := id inv.chain
      have handle := inv.own first List.mem_cons_self node here
      have other : node.pOMXComponent ≠ h := by
        rw [handle]
        rintro rfl
        exact missing List.mem_cons_self
      have enough : list.length < core.created + 1 :=
        Nat.lt_succ_of_le ((Nat.le_succ _).trans inv.length_le)
      have search := previousComponent_missing (leads ▸ inv.chain)
        (fun a member => inv.own a (List.mem_cons_of_mem first member))
        (fun member => missing (List.mem_cons_of_mem first member)) enough
      rw [omxFreeHandle, leads, deref_some here, Except.bind, if_neg other, search]
      rfl

/-! ### Getting a handle -/

/-- The loop of `OMX_GetHandle` ends at the last element. -/
theorem lastComponent_chain {first last fuel : ℕ}
    (chain : Chain LoadedComponent.nextOMXComp core.nodes (some first) (front ++ [last]))
    (enough : front.length < fuel) : lastComponent core fuel first = .ok last := by
  induction front generalizing first fuel with
  | nil =>
      obtain ⟨same, node, here, ends⟩ := chain
      obtain rfl := Option.some.inj same
      obtain ⟨fuel, rfl⟩ := Nat.exists_eq_succ_of_ne_zero (Nat.ne_of_gt enough)
      have ends : node.nextOMXComp = none := ends
      simp only [lastComponent, deref_some here, ends, Except.bind]
  | cons second front ih =>
      obtain ⟨same, node, here, tail⟩ := chain
      obtain rfl := Option.some.inj same
      obtain ⟨fuel, rfl⟩ := Nat.exists_eq_succ_of_ne_zero (Nat.ne_of_gt (Nat.zero_lt_of_lt enough))
      obtain ⟨second, leads⟩ := Chain.leads tail
      simp only [lastComponent, deref_some here, leads, Except.bind]
      exact ih (leads ▸ tail) (Nat.lt_of_succ_lt_succ enough)

/-- A component is created outside the list. -/
theorem CoreInv.create (inv : CoreInv core handles) : CoreInv (createComponent core) handles := by
  have kept (a : ℕ) (member : a ∈ handles) : (createComponent core).nodes a = core.nodes a :=
    Function.update_of_ne (Nat.ne_of_lt (inv.created a member)) _ _
  refine ⟨inv.chain.frame kept, inv.distinct, fun a member => ?_, fun a member node here => ?_⟩
  · exact Nat.lt_succ_of_lt (inv.created a member)
  · exact inv.own a member node ((kept a member).symm.trans here)

/-- An element outside the list goes to its end. -/
theorem CoreInv.append {address : ℕ} (inv : CoreInv core handles) (fresh : address ∉ handles)
    (below : address < core.created) (here : core.nodes address = some ⟨address, none⟩) :
    ∃ next, appendComponent core address = .ok next ∧ CoreInv next (handles ++ [address]) ∧
      next.deInits = core.deInits := by
  have distinct : (handles ++ [address]).Nodup :=
    List.nodup_append.mpr ⟨inv.distinct, List.nodup_singleton address, by
      rintro a member b alone rfl
      exact fresh (List.mem_singleton.mp alone ▸ member)⟩
  have created (a : ℕ) (member : a ∈ handles ++ [address]) : a < core.created := by
    obtain old | alone := List.mem_append.mp member
    · exact inv.created a old
    · exact List.mem_singleton.mp alone ▸ below
  have own (a : ℕ) (member : a ∈ handles ++ [address]) (node : LoadedComponent)
      (there : core.nodes a = some node) : node.pOMXComponent = a := by
    obtain old | alone := List.mem_append.mp member
    · exact inv.own a old node there
    · obtain rfl := List.mem_singleton.mp alone
      obtain rfl := Option.some.inj (here.symm.trans there)
      rfl
  obtain rfl | ⟨front, last, rfl⟩ := List.eq_nil_or_concat' handles
  · have leads : core.gLoadComponentList = none := inv.chain
    refine ⟨{ core with gLoadComponentList := some address }, ?_, ?_, rfl⟩
    · simp only [appendComponent, leads]
    · exact ⟨⟨rfl, ⟨address, none⟩, here, rfl⟩, distinct, created, own⟩
  · obtain ⟨first, leads⟩ := inv.chain.leads
    obtain ⟨node, there, -⟩ := inv.chain.behind
    have enough : front.length < core.created + 1 := by
      have bound := inv.length_le
      rw [List.length_append, List.length_singleton] at bound
      omega
    have found := lastComponent_chain (leads ▸ inv.chain) enough
    have apart : address ≠ last := by
      rintro rfl
      exact fresh (List.mem_append_right front List.mem_cons_self)
    have apartFront : ∀ b ∈ front, b ≠ last := fun b member same =>
      (List.nodup_append.mp inv.distinct).2.2 b member last List.mem_cons_self same
    have untouched : (setNextOMXComp core last node (some address)).nodes address =
        some ⟨address, none⟩ := (Function.update_of_ne apart _ _).trans here
    refine ⟨setNextOMXComp core last node (some address), ?_,
      ⟨?_, distinct, created, own_setNextOMXComp own there⟩, rfl⟩
    · simp only [appendComponent, leads, found, deref_some there, Except.bind]
    · rw [List.append_assoc, List.singleton_append]
      exact inv.chain.relink (fun b member => Function.update_of_ne (apartFront b member) _ _)
        (Function.update_self _ _ _) ⟨rfl, _, untouched, rfl⟩

/-- A component that was created and is unloaded again: the list is as before. -/
theorem CoreInv.discard (inv : CoreInv core handles) :
    CoreInv (componentUnload (createComponent core) (some core.created)) handles :=
  (inv.create.unload (fun member => Nat.lt_irrefl _ (inv.created _ member))
    (Function.update_self _ _ _) rfl).1

theorem omxGetHandle_meets (inv : CoreInv core handles) (cComponentName : String) (env : LoadEnv) :
    ∃ next ret, omxGetHandle core cComponentName env = .ok (next, ret) ∧
      GetsHandle core next ret ∧ ∃ handles', CoreInv next handles' := by
  by_cases registered : cComponentName ∈ core.gComponentList
  · by_cases load : env.load = .errorNone
    · by_cases setCallbacks : env.setCallbacks = .errorNone
      · by_cases checkResource : env.checkResource = .errorNone
        · have fresh : core.created ∉ handles := fun member =>
            Nat.lt_irrefl _ (inv.created _ member)
          obtain ⟨next, appended, after, deInits⟩ := inv.create.append fresh
            (Nat.lt_succ_self core.created) (Function.update_self _ _ _)
          refine ⟨next, .errorNone, ?_, ?_, _, after⟩
          · simp only [omxGetHandle, registered, load, setCallbacks, checkResource, appended,
              ne_eq, not_true_eq_false, if_true, if_false, Except.map]
          · rw [GetsHandle, if_pos rfl, after.loaded_eq, inv.loaded_eq]
            exact ⟨rfl, deInits⟩
        · refine ⟨_, env.checkResource, ?_, ?_, _, inv.discard⟩
          · simp only [omxGetHandle, registered, load, setCallbacks, checkResource, ne_eq,
              not_true_eq_false, not_false_eq_true, if_true, if_false]
          · rw [GetsHandle, if_neg checkResource, inv.discard.loaded_eq, inv.loaded_eq]
      · refine ⟨_, env.setCallbacks, ?_, ?_, _, inv.discard⟩
        · simp only [omxGetHandle, registered, load, setCallbacks, ne_eq, not_true_eq_false,
            not_false_eq_true, if_true, if_false]
        · rw [GetsHandle, if_neg setCallbacks, inv.discard.loaded_eq, inv.loaded_eq]
    · refine ⟨core, env.load, ?_, ?_, _, inv⟩
      · simp only [omxGetHandle, registered, load, ne_eq, not_false_eq_true, if_true]
      · exact (if_neg load).mpr rfl
  · refine ⟨core, .componentNotFound, ?_, (if_neg (by decide)).mpr rfl, _, inv⟩
    exact if_neg registered

/-! ### Sequences of calls -/

theorem callMeets_iff (inv : CoreInv core handles) (op : CoreOp) :
    CallMeets core op ↔ HandleLoaded core op := by
  cases op with
  | getHandle cComponentName env =>
      obtain ⟨next, ret, done, gets, -⟩ := omxGetHandle_meets inv cComponentName env
      exact iff_of_true ⟨next, ret, done, gets⟩ trivial
  | freeHandle hComponent =>
      rw [HandleLoaded, inv.loaded_eq]
      constructor
      · rintro ⟨next, ret, done, -⟩
        by_contra missing
        have fault := omxFreeHandle_missing inv missing
        exact absurd (done.symm.trans fault) (by simp)
      · intro member
        obtain ⟨next, done, after, deInits⟩ := omxFreeHandle_loaded inv member
        refine ⟨next, .errorNone, done, ?_⟩
        change FreesHandle core hComponent next .errorNone
        rw [FreesHandle, inv.loaded_eq, if_pos member, after.loaded_eq]
        exact ⟨rfl, rfl, deInits⟩

theorem coreStep_inv {op : CoreOp} (inv : CoreInv core handles) (meets : CallMeets core op)
    (taken : coreStep core op = some next) : ∃ handles', CoreInv next handles' := by
  cases op with
  | getHandle cComponentName env =>
      obtain ⟨next', ret, done, -, after⟩ := omxGetHandle_meets inv cComponentName env
      simp only [coreStep, coreCall, done] at taken
      obtain rfl := Option.some.inj taken
      exact after
  | freeHandle hComponent =>
      have member : hComponent ∈ handles := inv.loaded_eq ▸ (callMeets_iff inv _).mp meets
      obtain ⟨next', done, after, -⟩ := omxFreeHandle_loaded inv member
      simp only [coreStep, coreCall, done] at taken
      obtain rfl := Option.some.inj taken
      exact ⟨_, after⟩

/-- The calls of a sequence all do what they should exactly when each handle that is freed is loaded
at that time. -/
theorem handle_calls_meet_iff (gComponentList : List String) (ops : List CoreOp) :
    Along coreStep CallMeets (omxInit gComponentList) ops ↔
      Along coreStep HandleLoaded (omxInit gComponentList) ops :=
  Along.congr (fun core => ∃ handles, CoreInv core handles)
    (fun _ op ⟨_, inv⟩ => callMeets_iff inv op)
    (fun _ _ _ ⟨_, inv⟩ meets taken => coreStep_inv inv meets taken)
    ⟨[], coreInv_omxInit gComponentList⟩ ops

/-- A handle is freed when nothing is loaded, or an unknown one behind the last component. -/
theorem free_unknown_handle :
    let core := omxInit ["OMX.rk.video_decoder.avc"]
    let load := CoreOp.getHandle "OMX.rk.video_decoder.avc" ⟨.errorNone, .errorNone, .errorNone⟩
    ¬Along coreStep CallMeets core [.freeHandle 0] ∧
      ¬Along coreStep CallMeets core [load, .freeHandle 1] := by
  intro core load
  have empty : omxFreeHandle core 0 = .error .nullDereference := rfl
  have behind : ∀ next, coreStep core load = some next →
      omxFreeHandle next 1 = .error .nullDereference := by
    intro next taken
    obtain rfl := Option.some.inj taken
    rfl
  constructor
  · rintro ⟨⟨next, ret, done, -⟩, -⟩
    exact absurd (empty.symm.trans done) (by simp)
  · rintro ⟨-, later⟩
    obtain ⟨⟨next, ret, done, -⟩, -⟩ := later _ rfl
    exact absurd ((behind _ rfl).symm.trans done) (by simp)

end Omx
end RockchipSoc
