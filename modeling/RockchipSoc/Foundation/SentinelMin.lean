import Mathlib.Data.List.Induction
import Mathlib.Order.Basic
import Mathlib.Order.Lattice
import Mathlib.Tactic.Common

/-!
# A running minimum with a sentinel

A scan keeps the element of the lowest key so far and that key.  It starts from a key that means
that nothing has been seen yet.  Where elements may have this key too, the scan forgets them.
-/

namespace SentinelMin

variable {α β : Type*} [LinearOrder β] {key : α → β} {unset : β} {elements : List α} {a b : α}

/-- An element is kept if its key is lower, or if nothing seems to have been seen. -/
def scanStep (key : α → β) (unset : β) (best : Option α × β) (a : α) : Option α × β :=
  if key a < best.2 ∨ best.2 = unset then (some a, key a) else best

def scan (key : α → β) (unset : β) (elements : List α) : Option α × β :=
  elements.foldl (scanStep key unset) (none, unset)

theorem scan_concat : scan key unset (elements ++ [a]) =
    scanStep key unset (scan key unset elements) a := by
  rw [scan, scan, List.foldl_append]
  rfl

/-- The key of the best element after one more element. -/
theorem scan_concat_key : (scan key unset (elements ++ [a])).2 =
    if key a < (scan key unset elements).2 ∨ (scan key unset elements).2 = unset then key a
    else (scan key unset elements).2 := by
  rw [scan_concat, scanStep]
  split
  · rfl
  · rfl

/-- The scan ends with an element and its key. -/
theorem exists_scan (key : α → β) (unset : β) (nonempty : elements ≠ []) :
    ∃ a ∈ elements, scan key unset elements = (some a, key a) := by
  induction elements using List.reverseRecOn with
  | nil => exact absurd rfl nonempty
  | append_singleton front last ih =>
      have member : last ∈ front ++ [last] := List.mem_append_right front List.mem_cons_self
      rw [scan_concat, scanStep]
      split
      · exact ⟨last, member, rfl⟩
      · next kept =>
          cases front with
          | nil => exact absurd (Or.inr rfl) kept
          | cons first rest =>
              obtain ⟨best, best_mem, scanned⟩ := ih (List.cons_ne_nil first rest)
              exact ⟨best, List.mem_append_left [last] best_mem, scanned⟩

/-- Below the sentinel nothing is forgotten. -/
theorem scan_le_of_lt (low : b ∈ elements) (below : key b < unset) :
    (scan key unset elements).2 < unset ∧ ∀ a ∈ elements, (scan key unset elements).2 ≤ key a := by
  induction elements using List.reverseRecOn generalizing b with
  | nil => cases low
  | append_singleton front last ih =>
      rw [scan_concat_key]
      by_cases earlier : ∃ c ∈ front, key c < unset
      · obtain ⟨c, member, lower⟩ := earlier
        obtain ⟨seen, minimal⟩ := ih member lower
        have set : (scan key unset front).2 ≠ unset := seen.ne
        split
        · next replaced =>
            have less := replaced.resolve_right set
            refine ⟨less.trans seen, fun a member => ?_⟩
            rcases List.mem_append.mp member with old | new
            · exact less.le.trans (minimal a old)
            · rw [List.mem_singleton.mp new]
        · next kept =>
            have not_less : ¬key last < (scan key unset front).2 := fun less => kept (Or.inl less)
            refine ⟨seen, fun a member => ?_⟩
            rcases List.mem_append.mp member with old | new
            · exact minimal a old
            · rw [List.mem_singleton.mp new]
              exact not_lt.mp not_less
      · have above : ∀ c ∈ front, unset ≤ key c := fun c member =>
          not_lt.mp fun lower => earlier ⟨c, member, lower⟩
        have is_last : b = last := by
          rcases List.mem_append.mp low with old | new
          · exact absurd below (not_lt.mpr (above b old))
          · exact List.mem_singleton.mp new
        subst is_last
        have replaced : key b < (scan key unset front).2 ∨ (scan key unset front).2 = unset := by
          cases front with
          | nil => exact Or.inr rfl
          | cons first rest =>
              obtain ⟨best, best_mem, scanned⟩ :=
                exists_scan key unset (List.cons_ne_nil first rest)
              rw [scanned]
              exact Or.inl (below.trans_le (above best best_mem))
        rw [if_pos replaced]
        refine ⟨below, fun a member => ?_⟩
        rcases List.mem_append.mp member with old | new
        · exact below.le.trans (above a old)
        · rw [List.mem_singleton.mp new]

/-- Without the sentinel among the keys nothing is forgotten either. -/
theorem scan_le_of_ne (distinct : ∀ a ∈ elements, key a ≠ unset) :
    ∀ a ∈ elements, (scan key unset elements).2 ≤ key a := by
  induction elements using List.reverseRecOn with
  | nil => exact fun a member => absurd member List.not_mem_nil
  | append_singleton front last ih =>
      have front_distinct : ∀ a ∈ front, key a ≠ unset := fun a member =>
        distinct a (List.mem_append_left [last] member)
      rw [scan_concat_key]
      intro a member
      split
      · next replaced =>
          rcases List.mem_append.mp member with old | new
          · have set : (scan key unset front).2 ≠ unset := by
              obtain ⟨best, best_mem, scanned⟩ :=
                exists_scan key unset (List.ne_nil_of_mem old)
              rw [scanned]
              exact front_distinct best best_mem
            exact (replaced.resolve_right set).le.trans (ih front_distinct a old)
          · rw [List.mem_singleton.mp new]
      · next kept =>
          rcases List.mem_append.mp member with old | new
          · exact ih front_distinct a old
          · rw [List.mem_singleton.mp new]
            exact not_lt.mp fun less => kept (Or.inl less)

/-- From the sentinel upwards the scan ends with it only if the last element has it. -/
theorem scan_concat_eq_unset_iff (above : ∀ b ∈ elements, unset ≤ key b) :
    (scan key unset (elements ++ [a])).2 = unset ↔ key a = unset := by
  have seen : unset ≤ (scan key unset elements).2 := by
    cases elements with
    | nil => exact le_rfl
    | cons first rest =>
        obtain ⟨best, best_mem, scanned⟩ :=
          exists_scan key unset (List.cons_ne_nil first rest)
        rw [scanned]
        exact above best best_mem
  rw [scan_concat_key]
  split
  · rfl
  · next kept =>
      have set : (scan key unset elements).2 ≠ unset := fun eq => kept (Or.inr eq)
      have not_less : ¬key a < (scan key unset elements).2 := fun less => kept (Or.inl less)
      constructor
      · exact fun eq => absurd eq set
      · intro eq
        rw [eq] at not_less
        exact absurd (lt_of_le_of_ne seen set.symm) not_less

/-- The scan finds a minimum exactly if the sentinel is not the lowest key, or the last element
has it. -/
theorem scan_minimal_iff (key : α → β) (unset : β) (front : List α) (last : α) :
    (∀ a ∈ front ++ [last], (scan key unset (front ++ [last])).2 ≤ key a) ↔
      (∃ a ∈ front ++ [last], key a < unset) ∨ (∀ a ∈ front ++ [last], key a ≠ unset) ∨
        key last = unset := by
  constructor
  · intro minimal
    by_contra forgotten
    obtain ⟨not_below, some_unset, last_ne⟩ : (¬∃ a ∈ front ++ [last], key a < unset) ∧
        (¬∀ a ∈ front ++ [last], key a ≠ unset) ∧ key last ≠ unset := by
      simpa only [not_or] using forgotten
    have above : ∀ a ∈ front ++ [last], unset ≤ key a := fun a member =>
      not_lt.mp fun lower => not_below ⟨a, member, lower⟩
    obtain ⟨a, member, eq⟩ : ∃ a ∈ front ++ [last], key a = unset := by
      by_contra none_unset
      exact some_unset fun a member eq => none_unset ⟨a, member, eq⟩
    have nonempty : front ++ [last] ≠ [] := List.append_ne_nil_of_right_ne_nil front (by simp)
    obtain ⟨best, best_mem, scanned⟩ := exists_scan key unset nonempty
    have least : key best ≤ unset := by
      have bound := minimal a member
      rwa [scanned, eq] at bound
    have ended : (scan key unset (front ++ [last])).2 = unset := by
      rw [scanned]
      exact le_antisymm least (above best best_mem)
    exact last_ne ((scan_concat_eq_unset_iff fun b old =>
      above b (List.mem_append_left [last] old)).mp ended)
  · rintro (⟨a, member, below⟩ | distinct | eq)
    · exact (scan_le_of_lt member below).2
    · exact scan_le_of_ne distinct
    · by_cases low : ∃ a ∈ front ++ [last], key a < unset
      · obtain ⟨a, member, below⟩ := low
        exact (scan_le_of_lt member below).2
      · have above : ∀ a ∈ front ++ [last], unset ≤ key a := fun a member =>
          not_lt.mp fun lower => low ⟨a, member, lower⟩
        have ended := (scan_concat_eq_unset_iff (a := last) fun b old =>
          above b (List.mem_append_left [last] old)).mpr eq
        rw [ended]
        exact above

end SentinelMin
