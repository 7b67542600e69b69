import Mathlib.Order.Interval.Set.LinearOrder
import Mathlib.Data.Set.Prod
import Mathlib.Algebra.Order.Ring.Int
import Mathlib.Data.Int.SuccPred
import Mathlib.Data.Int.ConditionallyCompleteOrder

/-!
# Rectangles of pixels

A rectangle is its upper left corner and its extent.  Without a positive extent it has no pixel.
-/

/-- A rectangle. -/
structure PixelRect where
  x : ℤ
  y : ℤ
  width : ℤ
  height : ℤ
  deriving DecidableEq, Repr

namespace PixelRect

variable {inner outer : PixelRect}

/-- The pixels of the rectangle. -/
def pixels (rect : PixelRect) : Set (ℤ × ℤ) :=
  Set.Ico rect.x (rect.x + rect.width) ×ˢ Set.Ico rect.y (rect.y + rect.height)

/-- The rectangle that starts at the origin. -/
def ofSize (width height : ℤ) : PixelRect := ⟨0, 0, width, height⟩

/-- The borders lie within the borders of the other rectangle. -/
def Bounded (inner outer : PixelRect) : Prop :=
  (outer.x ≤ inner.x ∧ inner.x + inner.width ≤ outer.x + outer.width) ∧
    outer.y ≤ inner.y ∧ inner.y + inner.height ≤ outer.y + outer.height

instance (inner outer : PixelRect) : Decidable (Bounded inner outer) :=
  inferInstanceAs (Decidable (_ ∧ _))

/-- A rectangle lies within another one if it has no pixel or by its borders. -/
theorem pixels_subset_iff : inner.pixels ⊆ outer.pixels ↔
    inner.width ≤ 0 ∨ inner.height ≤ 0 ∨ Bounded inner outer := by
  by_cases wide : 0 < inner.width
  · by_cases high : 0 < inner.height
    · have columns : inner.x < inner.x + inner.width := lt_add_of_pos_right _ wide
      have rows : inner.y < inner.y + inner.height := lt_add_of_pos_right _ high
      have some_columns := (Set.nonempty_Ico.mpr columns).ne_empty
      have some_rows := (Set.nonempty_Ico.mpr rows).ne_empty
      rw [or_iff_right (not_le.mpr wide), or_iff_right (not_le.mpr high), pixels, pixels,
        Set.prod_subset_prod_iff, Set.Ico_subset_Ico_iff columns, Set.Ico_subset_Ico_iff rows]
      simp only [some_columns, some_rows, or_false]
      rfl
    · have none : inner.pixels = ∅ := by
        rw [pixels, Set.Ico_eq_empty (by omega : ¬inner.y < inner.y + inner.height), Set.prod_empty]
      rw [none]
      exact iff_of_true (Set.empty_subset _) (Or.inr (Or.inl (not_lt.mp high)))
  · have none : inner.pixels = ∅ := by
      rw [pixels, Set.Ico_eq_empty (by omega : ¬inner.x < inner.x + inner.width), Set.empty_prod]
    rw [none]
    exact iff_of_true (Set.empty_subset _) (Or.inl (not_lt.mp wide))

end PixelRect
