import Mathlib.Data.List.TakeWhile
import Mathlib.Order.Lattice

/-!
# Nearest entries of a sorted table

A table is a list of entries in the order of their keys.  The entry that serves a requested key is
the first one from that key on, and the last of the table if there is none: up if possible, else
down.
-/

namespace NearestEntry

variable {α κ : Type*} [LinearOrder κ] {key : α → κ} {table : List α} {x y : κ} {a b : α}

/-- The first entry whose key is not below the request. -/
def ceil (key : α → κ) (table : List α) (x : κ) : Option α := table.find? fun a => x ≤ key a

/-- The last entry before the first whose key is above the request. -/
def floor (key : α → κ) (table : List α) (x : κ) : Option α :=
  (table.takeWhile fun a => key a ≤ x).getLast?

/-- The entry above the request, or else the one below. -/
def nearest (key : α → κ) (table : List α) (x : κ) : Option α :=
  (ceil key table x).or (floor key table x)

/-- The keys of a table ascend. -/
def Sorted (key : α → κ) (table : List α) : Prop := table.Pairwise fun a b => key a < key b

theorem mem_of_nearest (found : nearest key table x = some a) : a ∈ table := by
  rcases Option.or_eq_some_iff.mp found with above | ⟨_, below⟩
  · exact List.mem_of_find?_eq_some above
  · exact (List.takeWhile_sublist _).subset (List.mem_of_getLast? below)

theorem Sorted.key_injective (sorted : Sorted key table) (left : a ∈ table) (right : b ∈ table)
    (same : key a = key b) : a = b := by
  by_contra distinct
  have order := List.pairwise_iff_getElem.mp sorted
  obtain ⟨i, i_lt, rfl⟩ := List.getElem_of_mem left
  obtain ⟨j, j_lt, rfl⟩ := List.getElem_of_mem right
  rcases Nat.lt_trichotomy i j with before | rfl | after
  · exact (order i j i_lt j_lt before).ne same
  · exact distinct rfl
  · exact (order j i j_lt i_lt after).ne same.symm

/-- The entry found from the request on is the lowest there. -/
theorem Sorted.ceil_le (sorted : Sorted key table) (found : ceil key table x = some a)
    (member : b ∈ table) (above : x ≤ key b) : key a ≤ key b := by
  induction table with
  | nil => cases member
  | cons first rest ih =>
      obtain ⟨first_lt, sorted⟩ := List.pairwise_cons.mp sorted
      simp only [ceil, List.find?_cons] at found
      split at found
      · obtain rfl := Option.some.inj found
        rcases List.mem_cons.mp member with rfl | member
        · exact le_rfl
        · exact (first_lt b member).le
      · next low =>
          rcases List.mem_cons.mp member with rfl | member
          · exact absurd above (of_decide_eq_false low)
          · exact ih sorted found member

theorem Sorted.mem_takeWhile (sorted : Sorted key table) (member : b ∈ table)
    (below : key b ≤ x) : b ∈ table.takeWhile fun a => key a ≤ x := by
  induction table with
  | nil => cases member
  | cons first rest ih =>
      obtain ⟨first_lt, sorted⟩ := List.pairwise_cons.mp sorted
      rcases List.mem_cons.mp member with rfl | member
      · simp [below]
      · have first_le : key first ≤ x := (first_lt b member).le.trans below
        rw [List.takeWhile_cons_of_pos (by simpa using first_le)]
        exact List.mem_cons_of_mem _ (ih sorted member)

/-- The entry found up to the request is the highest there. -/
theorem Sorted.le_floor (sorted : Sorted key table) (found : floor key table x = some a)
    (member : b ∈ table) (below : key b ≤ x) : key b ≤ key a := by
  obtain ⟨front, split⟩ := List.getLast?_eq_some_iff.mp found
  have order := sorted.sublist (List.takeWhile_sublist fun a => decide (key a ≤ x))
  have served := sorted.mem_takeWhile member below
  rw [split] at order served
  rcases List.mem_append.mp served with early | last
  · exact ((List.pairwise_append.mp order).2.2 b early a (List.mem_singleton.mpr rfl)).le
  · rw [List.mem_singleton.mp last]

theorem le_of_ceil (found : ceil key table x = some a) : x ≤ key a := by
  simpa using List.find?_some found

theorem floor_le (found : floor key table x = some a) : key a ≤ x := by
  simpa using List.mem_takeWhile_imp (List.mem_of_getLast? found)

theorem ceil_eq_none : ceil key table x = none ↔ ∀ a ∈ table, key a < x := by
  simp [ceil]

/-- Every request to a table with an entry is served. -/
theorem Sorted.nearest_of_mem (sorted : Sorted key table) (member : b ∈ table) (x : κ) :
    ∃ a, nearest key table x = some a := by
  cases above : ceil key table x with
  | some a => exact ⟨a, by rw [nearest, above, Option.some_or]⟩
  | none =>
      have served := sorted.mem_takeWhile member (ceil_eq_none.mp above b member).le
      have found := List.getLast?_eq_some_getLast (List.ne_nil_of_mem served)
      exact ⟨_, by rw [nearest, above, Option.none_or, floor, found]⟩

/-- A key of the table is served by its own entry. -/
theorem Sorted.nearest_key (sorted : Sorted key table) (member : b ∈ table) :
    nearest key table (key b) = some b := by
  cases found : ceil key table (key b) with
  | none => exact absurd (ceil_eq_none.mp found b member) (lt_irrefl _)
  | some a =>
      have same := le_antisymm (sorted.ceil_le found member le_rfl) (le_of_ceil found)
      rw [nearest, found, Option.some_or,
        sorted.key_injective (List.mem_of_find?_eq_some found) member same]

/-- A higher request is served by an entry that is not lower. -/
theorem Sorted.nearest_mono (sorted : Sorted key table) (le : x ≤ y)
    (low : nearest key table x = some a) (high : nearest key table y = some b) :
    key a ≤ key b := by
  rcases Option.or_eq_some_iff.mp low with above | ⟨none_above, below⟩
  · rcases Option.or_eq_some_iff.mp high with above' | ⟨none_above', below'⟩
    · exact sorted.ceil_le above (List.mem_of_find?_eq_some above') (le.trans (le_of_ceil above'))
    · have member := List.mem_of_find?_eq_some above
      exact sorted.le_floor below' member (ceil_eq_none.mp none_above' a member).le
  · have member : a ∈ table := mem_of_nearest low
    have below_y : key a ≤ y := (floor_le below).trans le
    rcases Option.or_eq_some_iff.mp high with above' | ⟨_, below'⟩
    · exact below_y.trans (le_of_ceil above')
    · exact sorted.le_floor below' member below_y

/-- What never decreases along the table does not decrease with the key. -/
theorem Sorted.value_mono {β : Type*} [Preorder β] {value : α → β} (sorted : Sorted key table)
    (values : table.Pairwise fun a b => value a ≤ value b) (left : a ∈ table)
    (right : b ∈ table) (le : key a ≤ key b) : value a ≤ value b := by
  obtain ⟨i, i_lt, rfl⟩ := List.getElem_of_mem left
  obtain ⟨j, j_lt, rfl⟩ := List.getElem_of_mem right
  rcases Nat.lt_trichotomy i j with before | rfl | after
  · exact List.pairwise_iff_getElem.mp values i j i_lt j_lt before
  · exact le_rfl
  · exact absurd le (List.pairwise_iff_getElem.mp sorted j i j_lt i_lt after).not_ge

end NearestEntry
