import Mathlib.Logic.Equiv.Basic
import Mathlib.Data.List.Nodup

/-!
# Placing items on slots

Slots and items correspond one to one.  An item is put on a slot by a swap: the item that it
displaces takes the slot it comes from.  After a list of placements on different slots each of
the items is on its slot, a slot that no placement touches keeps its item, and an item that is
displaced ends on the first slot left free that the pushes lead to.
-/

namespace Placement

variable {α β : Type*}

/-! ### Where a displaced item lands -/

/-- Where an item lands that stands on a slot: the item placed there leaves a slot of its own for
it, and so on until a slot that no placement names. -/
inductive Lands (slotOf : β → α) (placements : List (α × β)) : α → α → Prop
  | stay {slot : α} : slot ∉ placements.map Prod.fst → Lands slotOf placements slot slot
  | push {slot landing : α} {item : β} : (slot, item) ∈ placements →
      Lands slotOf placements (slotOf item) landing → Lands slotOf placements slot landing

/-- The slot an item lands on is determined when the placements name different slots. -/
theorem Lands.unique {slotOf : β → α} {placements : List (α × β)}
    (slots : (placements.map Prod.fst).Nodup) {slot first second : α}
    (lands : Lands slotOf placements slot first) (lands' : Lands slotOf placements slot second) :
    first = second := by
  induction lands with
  | stay free =>
      cases lands' with
      | stay => rfl
      | push listed => exact absurd (List.mem_map_of_mem listed) free
  | push listed _ ih =>
      cases lands' with
      | stay free => exact absurd (List.mem_map_of_mem listed) free
      | push listed' rest =>
          have same := List.inj_on_of_nodup_map slots listed listed' rfl
          obtain rfl := (Prod.mk.inj same).2
          exact ih rest

theorem Lands.free {slotOf : β → α} {placements : List (α × β)} {slot landing : α}
    (lands : Lands slotOf placements slot landing) : landing ∉ placements.map Prod.fst := by
  induction lands with
  | stay free => exact free
  | push _ _ ih => exact ih

/-- An item on a slot that no placement names stays. -/
theorem Lands.eq_of_not_mem {slotOf : β → α} {placements : List (α × β)} {slot landing : α}
    (free : slot ∉ placements.map Prod.fst) (lands : Lands slotOf placements slot landing) :
    landing = slot := by
  cases lands with
  | stay => rfl
  | push listed => exact absurd (List.mem_map_of_mem listed) free

/-- The same slots and items under other names. -/
theorem Lands.map {α' β' : Type*} {slotOf : β → α} {slotOf' : β' → α'} {f : α → α'} {g : β → β'}
    (injective : Function.Injective f) (agree : ∀ item, slotOf' (g item) = f (slotOf item))
    {placements : List (α × β)} {slot landing : α} (lands : Lands slotOf placements slot landing) :
    Lands slotOf' (placements.map (Prod.map f g)) (f slot) (f landing) := by
  induction lands with
  | stay free =>
      refine .stay fun listed => free ?_
      obtain ⟨_, renamed, same⟩ := List.mem_map.mp listed
      obtain ⟨placement, listed', rfl⟩ := List.mem_map.mp renamed
      exact injective same ▸ List.mem_map_of_mem listed'
  | push listed _ ih =>
      refine .push (List.mem_map_of_mem listed) ?_
      rw [agree]
      exact ih

/-! ### Placements -/

variable [DecidableEq α]

/-- Put an item on a slot; the item displaced takes the slot that becomes free. -/
def place (assigned : α ≃ β) (slot : α) (item : β) : α ≃ β :=
  (Equiv.swap slot (assigned.symm item)).trans assigned

/-- Make the placements of a list one after the other. -/
def placeAll (assigned : α ≃ β) (placements : List (α × β)) : α ≃ β :=
  placements.foldl (fun assigned placement => place assigned placement.1 placement.2) assigned

@[simp] theorem placeAll_nil (assigned : α ≃ β) : placeAll assigned [] = assigned := rfl

@[simp] theorem placeAll_cons (assigned : α ≃ β) (placement : α × β)
    (placements : List (α × β)) :
    placeAll assigned (placement :: placements) =
      placeAll (place assigned placement.1 placement.2) placements := rfl

/-- The assignment after a placement, as two updates in the order of a swap through memory. -/
theorem place_apply (assigned : α ≃ β) (slot : α) (item : β) (other : α) :
    place assigned slot item other =
      if other = assigned.symm item then assigned slot
      else if other = slot then item else assigned other := by
  simp only [place, Equiv.trans_apply, Equiv.swap_apply_def]
  split_ifs <;> simp_all

theorem place_symm_apply [DecidableEq β] (assigned : α ≃ β) (slot : α) (item other : β) :
    (place assigned slot item).symm other =
      if other = assigned slot then assigned.symm item
      else if other = item then slot else assigned.symm other := by
  simp only [place, Equiv.symm_trans_apply, Equiv.symm_swap, Equiv.swap_apply_def,
    Equiv.symm_apply_eq, Equiv.apply_symm_apply]

@[simp] theorem place_slot (assigned : α ≃ β) (slot : α) (item : β) :
    place assigned slot item slot = item := by
  simp [place]

/-- The item displaced takes the slot that becomes free. -/
theorem place_symm_displaced {assigned : α ≃ β} {slot : α} {item other : β}
    (displaced : assigned slot = other) :
    (place assigned slot item).symm other = assigned.symm item := by
  rw [Equiv.symm_apply_eq, place_apply, if_pos rfl, displaced]

theorem place_of_ne {assigned : α ≃ β} {slot other : α} {item : β}
    (other_ne : other ≠ slot) (holds_ne : assigned other ≠ item) :
    place assigned slot item other = assigned other := by
  have not_vacated : other ≠ assigned.symm item :=
    fun vacated => holds_ne ((Equiv.eq_symm_apply assigned).mp vacated)
  simp [place, Equiv.swap_apply_of_ne_of_ne other_ne not_vacated]

theorem place_symm_of_ne {assigned : α ≃ β} {slot : α} {item other : β} (other_ne : other ≠ item)
    (stays : assigned slot ≠ other) :
    (place assigned slot item).symm other = assigned.symm other := by
  have elsewhere : assigned.symm other ≠ slot :=
    fun same => stays ((Equiv.symm_apply_eq assigned).mp same).symm
  rw [Equiv.symm_apply_eq, place_of_ne elsewhere (by rwa [Equiv.apply_symm_apply]),
    Equiv.apply_symm_apply]

/-- A slot that no placement names, with an item that no placement names, keeps its item. -/
theorem placeAll_of_not_mem {assigned : α ≃ β} {placements : List (α × β)} {slot : α}
    (free : slot ∉ placements.map Prod.fst)
    (apart : assigned slot ∉ placements.map Prod.snd) :
    placeAll assigned placements slot = assigned slot := by
  induction placements generalizing assigned with
  | nil => rfl
  | cons placement placements ih =>
      rw [List.map_cons, List.mem_cons, not_or] at free apart
      have kept := place_of_ne free.1 apart.1
      rw [placeAll_cons, ih free.2 (by rw [kept]; exact apart.2), kept]

/-- Placements of different items on different slots all hold at the end. -/
theorem placeAll_of_mem {assigned : α ≃ β} {placements : List (α × β)} {placement : α × β}
    (slots : (placements.map Prod.fst).Nodup) (items : (placements.map Prod.snd).Nodup)
    (listed : placement ∈ placements) :
    placeAll assigned placements placement.1 = placement.2 := by
  induction placements generalizing assigned with
  | nil => cases listed
  | cons first placements ih =>
      rw [List.map_cons, List.nodup_cons] at slots items
      rw [placeAll_cons]
      rcases List.mem_cons.mp listed with rfl | later
      · rw [placeAll_of_not_mem slots.1 (by rw [place_slot]; exact items.1), place_slot]
      · exact ih slots.2 items.2 later

/-- A placement made before the others adds at most one push after each of theirs. -/
theorem Lands.cons {assigned : α ≃ β} {placements : List (α × β)} {slot start landing : α}
    {item : β} (apart : item ∉ placements.map Prod.snd) (elsewhere : start ≠ slot)
    (lands : Lands (place assigned slot item).symm placements start landing) :
    Lands assigned.symm ((slot, item) :: placements) start landing := by
  induction lands with
  | stay free =>
      refine .stay ?_
      rw [List.map_cons, List.mem_cons, not_or]
      exact ⟨elsewhere, free⟩
  | @push start landing other listed _ ih =>
      have other_ne : other ≠ item := fun same => apart (same ▸ List.mem_map_of_mem listed)
      have left : (place assigned slot item).symm other ≠ slot := by
        intro same
        rw [Equiv.symm_apply_eq, place_slot] at same
        exact other_ne same
      have rest := ih left
      refine .push (List.mem_cons_of_mem _ listed) ?_
      by_cases displaced : assigned slot = other
      · rw [place_symm_displaced displaced] at rest
        rw [← displaced, Equiv.symm_apply_apply]
        exact .push List.mem_cons_self rest
      · rw [place_symm_of_ne other_ne displaced] at rest
        exact rest

/-- An item that no placement names ends on the slot it is pushed to. -/
theorem placeAll_lands {assigned : α ≃ β} {placements : List (α × β)} {item : β}
    (items : (placements.map Prod.snd).Nodup) (apart : item ∉ placements.map Prod.snd) :
    Lands assigned.symm placements (assigned.symm item)
      ((placeAll assigned placements).symm item) := by
  induction placements generalizing assigned with
  | nil => exact .stay List.not_mem_nil
  | cons first placements ih =>
      obtain ⟨slot, placed⟩ := first
      rw [List.map_cons, List.nodup_cons] at items
      rw [List.map_cons, List.mem_cons, not_or] at apart
      have rest := @ih (place assigned slot placed) items.2 apart.2
      have left : (place assigned slot placed).symm item ≠ slot := by
        intro same
        rw [Equiv.symm_apply_eq, place_slot] at same
        exact apart.1 same
      have pushed := rest.cons items.1 left
      rw [placeAll_cons]
      by_cases displaced : assigned slot = item
      · rw [place_symm_displaced displaced] at pushed
        have home : assigned.symm item = slot := by rw [← displaced, Equiv.symm_apply_apply]
        rw [home]
        exact .push List.mem_cons_self pushed
      · rw [place_symm_of_ne apart.1 displaced] at pushed
        exact pushed

end Placement
