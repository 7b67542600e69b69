import Mathlib.Data.List.Nodup
import Mathlib.Logic.Function.Basic

/-!
# Forests of parent links

Every element has a parent or is a root, and a depth that falls along the links makes the way to
the root end.  The chain of an element is that way, the element itself first.
-/

/-- Links to parents that never run in a circle. -/
structure Forest (α : Type*) where
  parent : α → Option α
  depth : α → Nat
  depth_lt : ∀ x p, parent x = some p → depth p < depth x

namespace Forest

variable {α : Type*}

/-- The way to the root, cut off after a number of links. -/
def chainUpTo (forest : Forest α) : Nat → α → List α
  | 0, x => [x]
  | steps + 1, x =>
      x :: match forest.parent x with
        | none => []
        | some p => forest.chainUpTo steps p

/-- The way from an element to its root. -/
def chain (forest : Forest α) (x : α) : List α :=
  forest.chainUpTo (forest.depth x) x

variable {forest : Forest α} {x y z p : α}

theorem chainUpTo_eq (forest : Forest α) {first second : Nat} {x : α}
    (first_enough : forest.depth x ≤ first) (second_enough : forest.depth x ≤ second) :
    forest.chainUpTo first x = forest.chainUpTo second x := by
  induction first generalizing second x with
  | zero =>
      have root : forest.parent x = none := by
        cases parent_eq : forest.parent x with
        | none => rfl
        | some p =>
            have := forest.depth_lt x p parent_eq
            omega
      cases second with
      | zero => rfl
      | succ second => simp [chainUpTo, root]
  | succ first ih =>
      cases parent_eq : forest.parent x with
      | none => cases second <;> simp [chainUpTo, parent_eq]
      | some p =>
          have lower := forest.depth_lt x p parent_eq
          cases second with
          | zero => omega
          | succ second =>
              have same : forest.chainUpTo first p = forest.chainUpTo second p :=
                ih (by omega) (by omega)
              simp [chainUpTo, parent_eq, same]

theorem chain_of_root (root : forest.parent x = none) : forest.chain x = [x] := by
  unfold chain
  cases forest.depth x <;> simp [chainUpTo, root]

theorem chain_of_parent (parent_eq : forest.parent x = some p) :
    forest.chain x = x :: forest.chain p := by
  have lower := forest.depth_lt x p parent_eq
  obtain ⟨steps, depth_eq⟩ := Nat.exists_eq_succ_of_ne_zero (Nat.ne_of_gt (Nat.zero_lt_of_lt lower))
  rw [chain, depth_eq, chainUpTo, parent_eq]
  exact congrArg (x :: ·) (forest.chainUpTo_eq (by omega) (Nat.le_refl _))

/-- Induction from the roots to the leaves. -/
@[elab_as_elim]
theorem induction_on {motive : α → Prop} (forest : Forest α) (x : α)
    (root : ∀ x, forest.parent x = none → motive x)
    (child : ∀ x p, forest.parent x = some p → motive p → motive x) : motive x := by
  induction depth_eq : forest.depth x using Nat.strongRecOn generalizing x with
  | _ depth ih =>
      cases parent_eq : forest.parent x with
      | none => exact root x parent_eq
      | some p =>
          have lower := forest.depth_lt x p parent_eq
          exact child x p parent_eq (ih _ (depth_eq ▸ lower) p rfl)

@[simp] theorem self_mem_chain (forest : Forest α) (x : α) : x ∈ forest.chain x := by
  cases parent_eq : forest.parent x with
  | none => simp [chain_of_root parent_eq]
  | some p => simp [chain_of_parent parent_eq]

theorem depth_le_of_mem_chain (member : y ∈ forest.chain x) :
    forest.depth y ≤ forest.depth x := by
  induction x using forest.induction_on with
  | root x root =>
      rw [chain_of_root root, List.mem_singleton] at member
      exact Nat.le_of_eq (congrArg _ member)
  | child x p parent_eq ih =>
      rw [chain_of_parent parent_eq, List.mem_cons] at member
      have lower := forest.depth_lt x p parent_eq
      rcases member with rfl | member
      · exact Nat.le_refl _
      · exact Nat.le_trans (ih member) (Nat.le_of_lt lower)

theorem nodup_chain (forest : Forest α) (x : α) : (forest.chain x).Nodup := by
  induction x using forest.induction_on with
  | root x root => simp [chain_of_root root]
  | child x p parent_eq ih =>
      rw [chain_of_parent parent_eq, List.nodup_cons]
      refine ⟨fun member => ?_, ih⟩
      have := forest.depth_lt x p parent_eq
      have := depth_le_of_mem_chain member
      omega

/-- The chain of an element contains the parents of its members. -/
theorem parent_mem_chain (member : y ∈ forest.chain x) (parent_eq : forest.parent y = some p) :
    p ∈ forest.chain x := by
  induction x using forest.induction_on with
  | root x root =>
      rw [chain_of_root root, List.mem_singleton] at member
      rw [member, root] at parent_eq
      cases parent_eq
  | child x q above ih =>
      rw [chain_of_parent above, List.mem_cons] at member ⊢
      rcases member with rfl | member
      · obtain rfl : q = p := Option.some.inj (above.symm.trans parent_eq)
        exact Or.inr (forest.self_mem_chain q)
      · exact Or.inr (ih member)

/-- An element without children is on no chain but its own. -/
theorem eq_of_leaf_mem_chain (leaf : ∀ child, forest.parent child ≠ some y)
    (member : y ∈ forest.chain x) : y = x := by
  induction x using forest.induction_on with
  | root x root => simpa [chain_of_root root] using member
  | child x p parent_eq ih =>
      rw [chain_of_parent parent_eq, List.mem_cons] at member
      rcases member with rfl | member
      · rfl
      · exact absurd (ih member ▸ parent_eq) (leaf x)

/-- Cut the link of one element. -/
def cut [DecidableEq α] (forest : Forest α) (x : α) : Forest α where
  parent := Function.update forest.parent x none
  depth := forest.depth
  depth_lt y p parent_eq := by
    rw [Function.update_apply] at parent_eq
    split at parent_eq
    · cases parent_eq
    · exact forest.depth_lt y p parent_eq

theorem cut_of_root [DecidableEq α] (root : forest.parent x = none) : forest.cut x = forest := by
  have same : Function.update forest.parent x none = forest.parent := by
    rw [← root, Function.update_eq_self]
  cases forest
  simp_all [cut]

end Forest
