import Mathlib.Data.List.Sort
import Mathlib.Data.List.Nodup

/-!
# Multisets ordered by a key

A multiset whose elements are compared by a key is a list sorted by it.  A new element goes behind
those with the same key, and erasing an element by comparison erases all elements with its key.
-/

namespace KeyedList

variable {α β : Type*} [LinearOrder β] (key : α → β)

/-- Sorted by the key. -/
def Sorted (list : List α) : Prop := list.Pairwise fun a b => key a ≤ key b

/-- Insert behind the elements with the same or a smaller key. -/
def insertUpper (a : α) (list : List α) : List α :=
  list.orderedInsert (fun a b => key a < key b) a

/-- Erase all elements with the key of `a`. -/
def eraseClass (a : α) (list : List α) : List α := list.filter fun b => decide (key b ≠ key a)

variable {key} {a b : α} {list : List α}

theorem mem_insertUpper : b ∈ insertUpper key a list ↔ b = a ∨ b ∈ list := List.mem_orderedInsert _

theorem nodup_insertUpper (new : a ∉ list) (distinct : list.Nodup) :
    (insertUpper key a list).Nodup :=
  (List.perm_orderedInsert _ a list).nodup_iff.mpr (List.nodup_cons.mpr ⟨new, distinct⟩)

theorem Sorted.insertUpper (sorted : Sorted key list) : Sorted key (insertUpper key a list) := by
  induction list with
  | nil => exact List.pairwise_singleton _ a
  | cons first list ih =>
      obtain ⟨lower, rest⟩ := List.pairwise_cons.mp sorted
      simp only [KeyedList.insertUpper, List.orderedInsert_cons]
      split
      · next before =>
          refine List.pairwise_cons.mpr ⟨fun b member => ?_, sorted⟩
          rcases List.mem_cons.mp member with rfl | later
          · exact before.le
          · exact before.le.trans (lower b later)
      · next behind =>
          refine List.pairwise_cons.mpr ⟨fun b member => ?_, ih rest⟩
          rcases mem_insertUpper.mp member with rfl | later
          · exact not_lt.mp behind
          · exact lower b later

theorem Sorted.sublist {part : List α} (sorted : Sorted key list) (sub : part.Sublist list) :
    Sorted key part := List.Pairwise.sublist sub sorted

/-- Only the keys of the elements matter. -/
theorem Sorted.congr {key' : α → β} (sorted : Sorted key list)
    (same : ∀ a ∈ list, key' a = key a) : Sorted key' list :=
  List.Pairwise.imp_of_mem (fun left right le => by rwa [same _ left, same _ right]) sorted

theorem eraseClass_sublist : (eraseClass key a list).Sublist list := List.filter_sublist

theorem not_mem_eraseClass (same : key b = key a) : b ∉ eraseClass key a list := fun member => by
  simpa [same] using (List.mem_filter.mp member).2

/-- An element that shares its key with no other is erased alone. -/
theorem eraseClass_eq_erase [DecidableEq α] (distinct : list.Nodup)
    (alone : ∀ b ∈ list, key b = key a → b = a) : eraseClass key a list = list.erase a := by
  rw [distinct.erase_eq_filter a, eraseClass]
  refine List.filter_congr fun b member => ?_
  by_cases same : b = a
  · simp [same]
  · have different : key b ≠ key a := fun equal => same (alone b member equal)
    simp [same, different]

end KeyedList
