import Mathlib.Order.Lattice

/-!
# Two limits and one request

Two sources may each impose an upper limit, and what is requested is the stricter of those that
are imposed, or a default if there is none.  When both sources write into the same request, the
last one to write is right only if the other imposes nothing stricter.
-/

namespace SharedLimit

variable {α : Type*} [LinearOrder α] {default a : α} {mine other : Option α}

/-- The stricter of the limits that are imposed. -/
def strictest : Option α → Option α → Option α
  | some a, some b => some (min a b)
  | some a, none => some a
  | none, other => other

/-- What is to be requested. -/
def value (default : α) (left right : Option α) : α := (strictest left right).getD default

theorem strictest_comm (left right : Option α) : strictest left right = strictest right left := by
  cases left <;> cases right <;> simp [strictest, min_comm]

theorem value_comm (left right : Option α) :
    value default left right = value default right left := by
  rw [value, strictest_comm, value]

@[simp] theorem value_none_right (left : Option α) :
    value default left none = left.getD default := by
  cases left <;> rfl

/-- The other source imposes nothing that is stricter than `mine`. -/
def Undisturbed (mine other : Option α) : Prop := ∀ b ∈ other, ∃ a ∈ mine, a ≤ b

instance : Decidable (Undisturbed mine other) := inferInstanceAs (Decidable (∀ _ ∈ other, _))

@[simp] theorem undisturbed_none : Undisturbed mine none := fun _ member => by cases member

/-- A source that writes its own limit has then written the right request. -/
theorem Undisturbed.value_eq (undisturbed : Undisturbed mine other) :
    value default mine other = mine.getD default := by
  cases other with
  | none => exact value_none_right mine
  | some b =>
      obtain ⟨a, rfl, le⟩ := undisturbed b rfl
      simp [value, strictest, le]

end SharedLimit
