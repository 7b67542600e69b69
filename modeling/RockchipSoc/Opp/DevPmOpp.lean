import Mathlib.Algebra.Order.Ring.Int
import Mathlib.Data.List.Pairwise

/-!
# Operating points

The core of the kernel keeps the operating points of a device in a list, ascending in their rates.
The drivers of the SoC change the voltages of the points by signed differences; a voltage is an
unsigned integer of 64 bits, so that a sum below zero wraps.
-/

namespace RockchipSoc
namespace Opp

/-- `struct dev_pm_opp`, with the voltages of its first supply. -/
structure DevPmOpp where
  rate : ℕ
  available : Bool
  uVolt : ℕ
  uVoltMin : ℕ
  uVoltMax : ℕ
  deriving DecidableEq, Repr

/-- An `unsigned long` plus an `int`. -/
def addDelta (volt : ℕ) (delta : ℤ) : ℕ := ((volt + delta) % 2 ^ 64).toNat

/-- `dev_pm_opp_get_opp_count`: points that are disabled do not count. -/
def devPmOppGetOppCount (opps : List DevPmOpp) : ℕ := (opps.filter DevPmOpp.available).length

/-- The target voltage is between the bounds. -/
def DevPmOpp.Ordered (opp : DevPmOpp) : Prop := opp.uVoltMin ≤ opp.uVolt ∧ opp.uVolt ≤ opp.uVoltMax

instance (opp : DevPmOpp) : Decidable opp.Ordered := inferInstanceAs (Decidable (_ ∧ _))

/-- The list is ascending in the rates. -/
def Ascending (opps : List DevPmOpp) : Prop := opps.Pairwise fun first second =>
  first.rate < second.rate

instance (opps : List DevPmOpp) : Decidable (Ascending opps) :=
  inferInstanceAs (Decidable (opps.Pairwise _))

variable {volt : ℕ} {delta : ℤ} {opps : List DevPmOpp}

theorem addDelta_of_fits (nonneg : 0 ≤ volt + delta) (fits : volt + delta < 2 ^ 64) :
    (addDelta volt delta : ℤ) = volt + delta := by
  rw [addDelta, Int.emod_eq_of_lt nonneg fits, Int.toNat_of_nonneg nonneg]

/-- A sum below zero wraps to the top of the range. -/
theorem addDelta_of_neg (neg : volt + delta < 0) (fits : -2 ^ 64 ≤ volt + delta) :
    (addDelta volt delta : ℤ) = volt + delta + 2 ^ 64 := by
  have shifted : (volt + delta) % 2 ^ 64 = volt + delta + 2 ^ 64 := by
    rw [← Int.add_emod_right, Int.emod_eq_of_lt (by omega) (by omega)]
  rw [addDelta, shifted, Int.toNat_of_nonneg (by omega)]

/-- A sum above the range wraps to its bottom. -/
theorem addDelta_of_over (above : 2 ^ 64 ≤ volt + delta) (fits : volt + delta < 2 ^ 65) :
    (addDelta volt delta : ℤ) = volt + delta - 2 ^ 64 := by
  have shifted : (volt + delta) % 2 ^ 64 = volt + delta - 2 ^ 64 := by
    rw [← Int.sub_emod_right, Int.emod_eq_of_lt (by omega) (by omega)]
  rw [addDelta, shifted, Int.toNat_of_nonneg (by omega)]

/-- All points are counted exactly when none is disabled. -/
theorem length_le_devPmOppGetOppCount_iff :
    opps.length ≤ devPmOppGetOppCount opps ↔ ∀ opp ∈ opps, opp.available = true := by
  rw [← List.length_filter_eq_length_iff, devPmOppGetOppCount]
  exact ⟨fun counted => Nat.le_antisymm (List.length_filter_le _ _) counted, Nat.le_of_eq ∘ Eq.symm⟩

/-- In an ascending list, the points up to the rate of one of them are those in front of it. -/
theorem Ascending.rate_le_iff {before after : List DevPmOpp} {opp other : DevPmOpp}
    (ascending : Ascending (before ++ opp :: after)) (member : other ∈ before ++ opp :: after) :
    other.rate ≤ opp.rate ↔ other ∈ before ++ [opp] := by
  obtain ⟨_, later, across⟩ := List.pairwise_append.mp ascending
  have behind := (List.pairwise_cons.mp later).1
  rcases List.mem_append.mp member with front | rest
  · exact iff_of_true (across other front opp List.mem_cons_self).le
      (List.mem_append_left _ front)
  · rcases List.mem_cons.mp rest with rfl | back
    · exact iff_of_true le_rfl (List.mem_append_right _ (List.mem_singleton_self _))
    · have above := behind other back
      refine iff_of_false (Nat.not_le.mpr above) fun inFront => ?_
      rcases List.mem_append.mp inFront with front | same
      · exact absurd (across other front opp List.mem_cons_self) (Nat.not_lt.mpr above.le)
      · rw [List.mem_singleton.mp same] at above
        exact Nat.lt_irrefl _ above

end Opp
end RockchipSoc
