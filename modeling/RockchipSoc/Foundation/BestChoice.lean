import Mathlib.Algebra.Order.Field.Rat
import Mathlib.Data.List.MinMax
import Mathlib.Data.Set.Lattice
import Mathlib.Order.Defs.LinearOrder
import Mathlib.Order.Lattice
import Mathlib.Order.MinMax
import Mathlib.Order.Monotone.Basic
import Mathlib.Tactic.Linarith

/-!
# Best candidates

What a search for the best candidate finds: among choices whose values decrease, in a loop that
keeps the best one seen, and among the fractions within bounds.
-/

/-!
## The best of decreasing choices under a request

Choices up to a limit give values that decrease with the choice.  The best one for a request is the
largest value not above it, or the lowest value where all are above.  It is the value of the first
choice that is not above the request, cut to the limit.
-/

namespace BestChoice

variable {ι α : Type*} [LinearOrder ι] [LinearOrder α] {value : ι → α} {limit first : ι}
  {request : α}

structure Best (value : ι → α) (limit : ι) (request result : α) : Prop where
  produced : ∃ choice ≤ limit, value choice = result
  largest : ∀ choice ≤ limit, value choice ≤ request → result ≤ request ∧ value choice ≤ result
  lowest : (∀ choice ≤ limit, request < value choice) → ∀ choice ≤ limit, result ≤ value choice

/-- There is one best value. -/
theorem Best.unique {result result' : α} (best : Best value limit request result)
    (best' : Best value limit request result') : result = result' := by
  obtain ⟨choice, within, attained⟩ := best.produced
  obtain ⟨choice', within', attained'⟩ := best'.produced
  by_cases below : ∃ other ≤ limit, value other ≤ request
  · obtain ⟨other, inside, small⟩ := below
    have small' := (best.largest other inside small).1
    have small'' := (best'.largest other inside small).1
    rw [← attained] at small'
    rw [← attained'] at small''
    rw [← attained, ← attained']
    apply le_antisymm
    · exact attained' ▸ (best'.largest choice within small').2
    · exact attained ▸ (best.largest choice' within' small'').2
  · push Not at below
    apply le_antisymm
    · exact attained' ▸ best.lowest below choice' within'
    · exact attained ▸ best'.lowest below choice within

/-- The first choice that is not above the request. -/
def IsFirst (value : ι → α) (request : α) (first : ι) : Prop :=
  ∀ choice, value choice ≤ request ↔ first ≤ choice

theorem best_of_isFirst (limit : ι) (decreasing : Antitone value)
    (isFirst : IsFirst value request first) :
    Best value limit request (value (min first limit)) where
  produced := ⟨min first limit, min_le_right first limit, rfl⟩
  largest := fun choice within below => by
    have behind := (isFirst choice).mp below
    rw [min_eq_left (behind.trans within)]
    exact ⟨(isFirst first).mpr le_rfl, decreasing behind⟩
  lowest := fun above choice within => by
    have beyond : limit ≤ first := by
      by_contra inside
      exact (above limit le_rfl).not_ge ((isFirst limit).mpr (not_le.mp inside).le)
    rw [min_eq_right beyond]
    exact decreasing within

/-- Only the values up to the limit matter. -/
theorem Best.congr {value' : ι → α} {result : α} (best : Best value limit request result)
    (same : ∀ choice ≤ limit, value choice = value' choice) :
    Best value' limit request result where
  produced := by
    obtain ⟨choice, within, attained⟩ := best.produced
    exact ⟨choice, within, same choice within ▸ attained⟩
  largest := fun choice within below => by
    rw [← same choice within] at below ⊢
    exact best.largest choice within below
  lowest := fun above choice within => by
    rw [← same choice within]
    exact best.lowest (fun other inside => same other inside ▸ above other inside) choice within

end BestChoice

/-!
## Searches that keep the best candidate

A search walks over candidates and keeps one of the greatest key.  What it has seen is a set, so
searches in sequence and in a loop compose by unions.
-/

namespace KeepBest

variable {α ι κ : Type*} [LinearOrder κ] {key : α → κ} {seen seen' : Set α}
  {init middle result : α}

/-- The result is the best of the initial value and the candidates that were seen. -/
structure Improves (key : α → κ) (seen : Set α) (init result : α) : Prop where
  origin : result = init ∨ result ∈ seen
  init_le : key init ≤ key result
  covers : ∀ candidate ∈ seen, key candidate ≤ key result

theorem Improves.refl (key : α → κ) (init : α) : Improves key ∅ init init where
  origin := Or.inl rfl
  init_le := le_rfl
  covers := fun _ absurd => absurd.elim

/-- One candidate is kept where it is better. -/
theorem Improves.keep (key : α → κ) (init candidate : α) :
    Improves key {candidate} init (if key init < key candidate then candidate else init) := by
  split
  · next better => exact ⟨Or.inr rfl, better.le, fun _ same => same ▸ le_rfl⟩
  · next worse => exact ⟨Or.inl rfl, le_rfl, fun _ same => same ▸ not_lt.mp worse⟩

theorem Improves.trans (first : Improves key seen init middle)
    (second : Improves key seen' middle result) : Improves key (seen ∪ seen') init result where
  origin := by
    rcases second.origin with kept | found
    · rw [kept]
      exact first.origin.imp_right Or.inl
    · exact Or.inr (Or.inr found)
  init_le := first.init_le.trans second.init_le
  covers := by
    rintro candidate (early | late)
    · exact (first.covers candidate early).trans second.init_le
    · exact second.covers candidate late

/-- A loop whose passes each improve has seen the candidates of all passes. -/
theorem Improves.foldl {step : α → ι → α} {candidates : ι → Set α}
    (improves : ∀ best index, Improves key (candidates index) best (step best index))
    (indices : List ι) (init : α) :
    Improves key {candidate | ∃ index ∈ indices, candidate ∈ candidates index} init
      (indices.foldl step init) := by
  induction indices generalizing init with
  | nil =>
      have none : {candidate | ∃ index ∈ ([] : List ι), candidate ∈ candidates index} = ∅ := by
        simp
      rw [none]
      exact Improves.refl key init
  | cons index indices ih =>
      have both : {candidate | ∃ other ∈ index :: indices, candidate ∈ candidates other} =
          candidates index ∪ {candidate | ∃ other ∈ indices, candidate ∈ candidates other} := by
        ext candidate
        simp
      rw [both]
      exact (improves init index).trans (ih (step init index))

/-- With a candidate better than the initial value, the result is a candidate. -/
theorem Improves.mem_of_lt (improves : Improves key seen init result) {candidate : α}
    (mem : candidate ∈ seen) (better : key init < key candidate) : result ∈ seen := by
  rcases improves.origin with kept | found
  · have covered := improves.covers candidate mem
    rw [kept] at covered
    exact absurd better (not_lt.mpr covered)
  · exact found

end KeepBest

/-!
## Best fractions within bounds

A best fraction is in lowest terms, and no fraction of a bounded numerator and a bounded denominator
is nearer to the target.  It never passes a fraction within the bounds that the target does not
pass.
-/

namespace BestFraction

/-- The value of a numerator and a denominator. -/
def value (fraction : ℕ × ℕ) : ℚ := fraction.1 / fraction.2

structure Bounded (maxNum maxDen : ℕ) (fraction : ℕ × ℕ) : Prop where
  num_le : fraction.1 ≤ maxNum
  den_pos : 0 < fraction.2
  den_le : fraction.2 ≤ maxDen

structure Best (target : ℚ) (maxNum maxDen : ℕ) (fraction : ℕ × ℕ) : Prop extends
    Bounded maxNum maxDen fraction where
  lowest : fraction.1.Coprime fraction.2
  nearest : ∀ other, Bounded maxNum maxDen other →
    |value fraction - target| ≤ |value other - target|

variable {target : ℚ} {maxNum maxDen : ℕ} {fraction other : ℕ × ℕ}

theorem value_le_iff (positive : 0 < fraction.2) (positive' : 0 < other.2) :
    value fraction ≤ value other ↔ fraction.1 * other.2 ≤ other.1 * fraction.2 := by
  have left : (0 : ℚ) < fraction.2 := by exact_mod_cast positive
  have right : (0 : ℚ) < other.2 := by exact_mod_cast positive'
  rw [value, value, div_le_div_iff₀ left right]
  exact_mod_cast Iff.rfl

theorem value_eq_iff (positive : 0 < fraction.2) (positive' : 0 < other.2) :
    value fraction = value other ↔ fraction.1 * other.2 = other.1 * fraction.2 := by
  rw [le_antisymm_iff, value_le_iff positive positive', value_le_iff positive' positive]
  omega

/-- A best fraction does not pass a bounded one that the target does not pass. -/
theorem Best.value_le (best : Best target maxNum maxDen fraction)
    (bounded : Bounded maxNum maxDen other) (below : target ≤ value other) :
    value fraction ≤ value other := by
  by_contra passes
  push Not at passes
  have nearest := best.nearest other bounded
  rw [abs_of_nonneg (by linarith), abs_of_nonneg (by linarith)] at nearest
  linarith

/-- A target within the bounds is met. -/
theorem Best.value_eq (best : Best (value other) maxNum maxDen fraction)
    (bounded : Bounded maxNum maxDen other) : value fraction = value other := by
  have nearest := best.nearest other bounded
  rw [sub_self, abs_zero] at nearest
  have distance := abs_eq_zero.mp (le_antisymm nearest (abs_nonneg _))
  linarith

/-- A unit fraction within the bounds is met by itself. -/
theorem Best.eq_unit {den : ℕ} (best : Best (value (1, den)) maxNum maxDen fraction)
    (bounded : Bounded maxNum maxDen (1, den)) : fraction = (1, den) := by
  have same := best.value_eq bounded
  rw [value_eq_iff best.den_pos bounded.den_pos, Nat.one_mul] at same
  have divides : fraction.1 ∣ fraction.2 := ⟨den, same.symm⟩
  have one : fraction.1 = 1 := best.lowest.eq_one_of_dvd divides
  rw [one, Nat.one_mul] at same
  exact Prod.ext one same.symm

/-! ### A search -/

/-- The fractions in lowest terms within the bounds. -/
def candidates (maxNum maxDen : ℕ) : List (ℕ × ℕ) :=
  ((List.range (maxNum + 1)).flatMap fun num =>
    (List.range maxDen).map fun before => (num, before + 1)).filter
      fun fraction => fraction.1.Coprime fraction.2

theorem mem_candidates :
    fraction ∈ candidates maxNum maxDen ↔
      Bounded maxNum maxDen fraction ∧ fraction.1.Coprime fraction.2 := by
  obtain ⟨num, den⟩ := fraction
  simp only [candidates, List.mem_filter, List.mem_flatMap, List.mem_range, List.mem_map,
    Prod.mk.injEq, decide_eq_true_eq]
  constructor
  · rintro ⟨⟨_, num_lt, before, before_lt, rfl, rfl⟩, lowest⟩
    exact ⟨⟨Nat.le_of_lt_succ num_lt, Nat.succ_pos before, before_lt⟩, lowest⟩
  · rintro ⟨⟨num_le, den_pos, den_le⟩, lowest⟩
    exact ⟨⟨num, Nat.lt_succ_of_le num_le, den - 1, Nat.sub_one_lt_of_le den_pos den_le, rfl,
      Nat.sub_add_cancel den_pos⟩, lowest⟩

/-- How far a fraction is from the target. -/
def distance (target : ℚ) (fraction : ℕ × ℕ) : ℚ := |value fraction - target|

/-- The candidate nearest to the target. -/
def search (target : ℚ) (maxNum maxDen : ℕ) : ℕ × ℕ :=
  ((candidates maxNum maxDen).argmin (distance target)).getD (0, 1)

/-- Every bounded fraction is a candidate once its terms are lowest. -/
theorem Bounded.exists_candidate (bounded : Bounded maxNum maxDen other) :
    ∃ reduced ∈ candidates maxNum maxDen, value reduced = value other := by
  obtain ⟨num, den, lowest, num_eq, den_eq⟩ := Nat.exists_coprime other.1 other.2
  have common : 0 < other.1.gcd other.2 := Nat.gcd_pos_of_pos_right _ bounded.den_pos
  have den_pos : 0 < den := by
    apply Nat.pos_of_ne_zero
    rintro rfl
    rw [Nat.zero_mul] at den_eq
    exact bounded.den_pos.ne' den_eq
  have num_le : num ≤ other.1 := num_eq ▸ Nat.le_mul_of_pos_right num common
  have den_le : den ≤ other.2 := den_eq ▸ Nat.le_mul_of_pos_right den common
  refine ⟨(num, den), mem_candidates.mpr ⟨⟨num_le.trans bounded.num_le, den_pos,
    den_le.trans bounded.den_le⟩, lowest⟩, ?_⟩
  rw [value_eq_iff den_pos bounded.den_pos]
  calc
    num * other.2 = num * (den * other.1.gcd other.2) := by rw [← den_eq]
    _ = num * other.1.gcd other.2 * den := by rw [Nat.mul_right_comm, Nat.mul_assoc]
    _ = other.1 * den := by rw [← num_eq]

theorem best_search (target : ℚ) (maxNum : ℕ) (positive : 0 < maxDen) :
    Best target maxNum maxDen (search target maxNum maxDen) := by
  have zero : (0, 1) ∈ candidates maxNum maxDen :=
    mem_candidates.mpr ⟨⟨Nat.zero_le _, Nat.one_pos, positive⟩, Nat.coprime_one_right 0⟩
  cases found : (candidates maxNum maxDen).argmin (distance target) with
  | none =>
      rw [List.argmin_eq_none] at found
      rw [found] at zero
      cases zero
  | some nearest =>
      rw [search, found, Option.getD_some]
      obtain ⟨bounded, lowest⟩ := mem_candidates.mp (List.argmin_mem found)
      refine { bounded with lowest := lowest, nearest := fun other within => ?_ }
      obtain ⟨reduced, mem, same⟩ := within.exists_candidate
      have nearer := List.le_of_mem_argmin mem found
      rwa [distance, distance, same] at nearer

end BestFraction
