import Mathlib.Data.Int.ModEq
import RockchipSoc.Power.OcvTables
import RockchipSoc.Power.ScaledPlaces

/-!
# Places that rise with the voltage

A higher voltage is to have a higher place in the table.  From one voltage to the next the place can
fall in the middle of a gap, where the product no longer fits half a word, and at the last entry,
where another formula takes over.  A negative voltage is above every entry, as it is compared
without sign.
-/

namespace RockchipSoc
namespace Power
namespace Words

open Inquiry

theorem atMost_ofNat {p q : ℕ} (range : p ≤ 1000) (range' : q ≤ 1000) :
    AtMost (pure (UInt32.ofNat p) : Program UInt32) (pure (UInt32.ofNat q)) ↔ p ≤ q :=
  atMost_pure.trans
    (UInt32.ofNat_le_iff_le (range.trans_lt (by decide)) (range'.trans_lt (by decide)))

/-- What `interpolate` is for, as far as the voltages from `low` on are concerned. -/
structure PlacesWell (low : Int32) (table : OcvTable) : Prop where
  monotone : ∀ v w, low ≤ v → v ≤ w →
    AtMost (interpolate v table.entries) (interpolate w table.entries)
  within : ∀ v, low ≤ v → ∃ place ≤ 1000, interpolate v table.entries = pure place
  below_first : ∀ v, low ≤ v → v.toInt < table.first.toNat →
    interpolate v table.entries = pure 0
  from_last : ∀ v w : Int32, low ≤ v → table.last.toNat ≤ v.toInt → w.toInt + 1 = table.last.toNat →
    AtMost (interpolate w table.entries) (interpolate v table.entries)
  soc : ∀ dev : Rk817Device, dev.pdata.ocvTable = table.entries → ∀ v w, low ≤ v → v ≤ w →
    AtMost (rk817BatVolToSoc dev v) (rk817BatVolToSoc dev w)

/-- No negative voltage, no voltage that a byte cannot find, no product that wraps once it has
reached the width of its gap, and an end that is not below the end of the last gap. -/
structure TableFits (low : Int32) (table : OcvTable) : Prop where
  nonneg : 0 ≤ low
  walked : ∀ entry, table.entries[255]? = some entry → 2 ^ 31 ≤ entry.toNat
  narrow : ∀ (gap : table.Gap) (k : ℕ), low.toInt ≤ gap.below.toNat + k → k + 1 < gap.width →
    gap.below.toNat + (k + 1) < 2 ^ 31 → gap.width ≤ k * table.step % 2 ^ 16 →
      k * table.step % 2 ^ 16 + table.step < 2 ^ 16
  ends : table.last.toNat < 2 ^ 31 →
    (table.lastGap.width - 1) * table.step % 2 ^ 16 / table.lastGap.width +
      table.lastGap.i * table.step ≤ table.endPlace

/-! ## Voltages as numbers -/

section Voltages

variable {table : OcvTable} {u : ℕ}

/-- The program that looks up a voltage. -/
def OcvTable.look (table : OcvTable) (u : ℕ) : Program UInt32 :=
  interpolate (Int32.ofNat u) table.entries

theorem toNat_ofNat_voltage (small : u < 2 ^ 31) : (Int32.ofNat u).toUInt32.toNat = u :=
  UInt32.toNat_ofNat_of_lt' (small.trans (by decide))

theorem look_below (small : u < 2 ^ 31) (below : u < table.first.toNat) :
    table.look u = pure 0 :=
  interpolate_below (by rwa [UInt32.lt_iff_toNat_lt, toNat_ofNat_voltage small])

theorem look_gap (gap : table.Gap) {k : ℕ} (few : gap.i < 255) (within : k < gap.width)
    (small : gap.below.toNat + k < 2 ^ 31) :
    table.look (gap.below.toNat + k) = pure (UInt32.ofNat (gap.place k)) := by
  have word := toNat_ofNat_voltage small
  have from_below : gap.below ≤ (Int32.ofNat (gap.below.toNat + k)).toUInt32 := by
    rw [UInt32.le_iff_toNat_le, word]
    exact Nat.le_add_right _ k
  have under : (Int32.ofNat (gap.below.toNat + k)).toUInt32 < gap.entry := by
    unfold OcvTable.Gap.width at within
    rw [UInt32.lt_iff_toNat_lt, word]
    omega
  rw [OcvTable.look, interpolate_gap gap few from_below under, word, Nat.add_sub_cancel_left]

theorem look_end (few : table.size < 256) (small : u < 2 ^ 31) (from_last : table.last.toNat ≤ u) :
    table.look u = pure (UInt32.ofNat (min table.endPlace 1000)) :=
  interpolate_end few (by rwa [UInt32.le_iff_toNat_le, toNat_ofNat_voltage small])

/-- Where a voltage lies in its table. -/
theorem look_cases (table : OcvTable) (small : u < 2 ^ 31) :
    u < table.first.toNat ∨
      (∃ (gap : table.Gap) (k : ℕ), k < gap.width ∧ u = gap.below.toNat + k) ∨
      table.last.toNat ≤ u := by
  have word := toNat_ofNat_voltage small
  rcases table.position (Int32.ofNat u).toUInt32 with below | ⟨gap, from_below, under⟩ | from_last
  · rw [UInt32.lt_iff_toNat_lt, word] at below
    exact .inl below
  · rw [UInt32.le_iff_toNat_le, word] at from_below
    rw [UInt32.lt_iff_toNat_lt, word] at under
    exact .inr (.inl ⟨gap, u - gap.below.toNat, Nat.sub_lt_sub_right from_below under, by omega⟩)
  · rw [UInt32.le_iff_toNat_le, word] at from_last
    exact .inr (.inr from_last)

end Voltages

/-! ## From one voltage to the next -/

section Walked

variable {table : OcvTable}
  (walked : ∀ entry, table.entries[255]? = some entry → 2 ^ 31 ≤ entry.toNat)

include walked

theorem gap_few (gap : table.Gap) (small : gap.below.toNat < 2 ^ 31) : gap.i < 255 := by
  by_contra late
  have inside := gap.inside
  have reached := walked table.entries[255] (List.getElem?_eq_getElem (by omega))
  have upTo := UInt32.le_iff_toNat_le.mp
    (table.entry_le (Nat.le_of_not_lt late) (Nat.lt_of_succ_lt gap.inside))
  have below_eq : gap.below.toNat = table.entries[gap.i].toNat := rfl
  omega

theorem size_few (small : table.last.toNat < 2 ^ 31) : table.size < 256 := by
  by_contra late
  unfold OcvTable.size at late
  have reached := walked table.entries[255] (List.getElem?_eq_getElem (by omega))
  rw [OcvTable.last, List.getLast_eq_getElem] at small
  have upTo := UInt32.le_iff_toNat_le.mp
    (table.entry_le (i := 255) (j := table.entries.length - 1) (by omega) (by omega))
  omega

/-- Every voltage has a place. -/
theorem look_returns {u : ℕ} (small : u < 2 ^ 31) :
    ∃ place ≤ 1000, table.look u = pure (UInt32.ofNat place) := by
  rcases look_cases table small with below | ⟨gap, k, within, rfl⟩ | from_last
  · exact ⟨0, by decide, look_below small below⟩
  · have few := gap_few walked gap (by omega)
    exact ⟨_, gap.place_le_range within.le, look_gap gap few within small⟩
  · exact ⟨_, min_le_right _ _, look_end (size_few walked (by omega)) small from_last⟩

theorem look_succ_iff (gap : table.Gap) {k : ℕ} (within : k + 1 < gap.width)
    (small : gap.below.toNat + (k + 1) < 2 ^ 31) :
    AtMost (table.look (gap.below.toNat + k)) (table.look (gap.below.toNat + (k + 1))) ↔
      (gap.width ≤ k * table.step % 2 ^ 16 → k * table.step % 2 ^ 16 + table.step < 2 ^ 16) := by
  have few := gap_few walked gap (by omega)
  rw [look_gap gap few (by omega) (by omega), look_gap gap few within small,
    atMost_ofNat (gap.place_le_range (by omega)) (gap.place_le_range within.le),
    gap.place_le_place_succ_iff]

/-- Just below the last entry, and from there on. -/
theorem look_end_iff {u w : ℕ} (small : w < 2 ^ 31) (from_last : table.last.toNat ≤ w)
    (before : u + 1 = table.last.toNat) :
    AtMost (table.look u) (table.look w) ↔
      table.lastGap.place (table.lastGap.width - 1) ≤ table.endPlace := by
  have positive := table.lastGap.width_pos
  have last_eq := table.lastGap.below_add_width
  rw [table.lastGap_entry] at last_eq
  have range : table.lastGap.place (table.lastGap.width - 1) ≤ 1000 :=
    table.lastGap.place_le_range (Nat.sub_le _ 1)
  have u_eq : u = table.lastGap.below.toNat + (table.lastGap.width - 1) := by omega
  rw [u_eq, look_gap table.lastGap (gap_few walked _ (by omega)) (by omega) (by omega),
    look_end (size_few walked (by omega)) small from_last,
    atMost_ofNat range (min_le_right _ _), le_min_iff, and_iff_left range]

end Walked

section Fits

variable {low : Int32} {table : OcvTable} (fits : TableFits low table)

include fits

theorem look_succ {u : ℕ} (reached : low.toInt ≤ u) (small : u + 1 < 2 ^ 31) :
    AtMost (table.look u) (table.look (u + 1)) := by
  rcases look_cases table (Nat.lt_of_succ_lt small) with below | ⟨gap, k, within, rfl⟩ | from_last
  · obtain ⟨place, range, returned⟩ := look_returns fits.walked small
    rw [look_below (Nat.lt_of_succ_lt small) below, returned]
    exact (atMost_ofNat (by decide) range).mpr (Nat.zero_le place)
  · by_cases inner : k + 1 < gap.width
    · exact (look_succ_iff fits.walked gap inner small).mpr
        (fits.narrow gap k (by exact_mod_cast reached) inner small)
    -- the entry itself is reached: the next gap begins, or the table ends
    have entry_eq : gap.below.toNat + k + 1 = gap.entry.toNat := by
      have := gap.below_add_width
      omega
    rcases Nat.eq_or_lt_of_le gap.inside with final | more
    · have isLast := gap.eq_lastGap final
      rw [isLast, table.lastGap_entry] at entry_eq
      rw [isLast] at small ⊢
      exact (look_end_iff fits.walked small entry_eq.ge entry_eq).mpr (fits.ends (by omega))
    · have few := gap_few fits.walked gap (by omega)
      have few' := gap_few fits.walked (gap.next more) (by rw [gap.next_below]; omega)
      have atEntry := look_gap (gap.next more) few' (gap.next more).width_pos
        (by rw [gap.next_below]; omega)
      rw [gap.next_below, Nat.add_zero, OcvTable.Gap.place_zero] at atEntry
      rw [look_gap gap few within (by omega), entry_eq, atEntry]
      exact (atMost_ofNat (gap.place_le_range within.le) (table.mul_step_le gap.inside)).mpr
        (gap.place_le within.le)
  · have few := size_few fits.walked (by omega)
    rw [look_end few (by omega) from_last, look_end few small (by omega)]
    exact atMost_pure.mpr (UInt32.le_refl _)

theorem look_mono {u w : ℕ} (reached : low.toInt ≤ u) (le : u ≤ w) (small : w < 2 ^ 31) :
    AtMost (table.look u) (table.look w) := by
  induction w, le using Nat.le_induction with
  | base =>
      obtain ⟨place, -, returned⟩ := look_returns fits.walked small
      rw [returned]
      exact atMost_pure.mpr (UInt32.le_refl _)
  | succ w le ih =>
      exact (ih (Nat.lt_of_succ_lt small)).trans (look_succ fits (by omega) small)

end Fits

/-! ## All voltages -/

section Voltage

variable {low v w : Int32} {table : OcvTable} {fcc : UInt32}

theorem exists_look (nonneg : 0 ≤ low) (reached : low ≤ v) :
    ∃ u < 2 ^ 31, v = Int32.ofNat u ∧ low.toInt ≤ u ∧ v.toInt = u := by
  have positive := Int32.le_trans nonneg reached
  have toInt_eq : v.toInt = v.toNatClampNeg := by
    rw [← Int32.toNat_toInt, Int.toNat_of_nonneg (Int32.le_iff_toInt_le.mp positive)]
  refine ⟨v.toNatClampNeg, v.toNatClampNeg_lt, (Int32.ofNat_toNatClampNeg v positive).symm, ?_,
    toInt_eq⟩
  rw [← toInt_eq]
  exact Int32.le_iff_toInt_le.mp reached

theorem PlacesWell.nonneg (well : PlacesWell low table) : 0 ≤ low := by
  by_contra negative
  have reached : low ≤ -1 := by
    rw [Int32.le_iff_toInt_le] at negative ⊢
    exact Int.le_of_lt_add_one (Int.not_le.mp negative)
  refine interpolate_neg_one table (well.below_first (-1) reached ?_)
  exact Int.lt_of_lt_of_le (by decide) (Int.natCast_nonneg _)

/-- The highest voltage is found, so the table is walked. -/
theorem PlacesWell.walked (well : PlacesWell low table) {entry : UInt32}
    (at_255 : table.entries[255]? = some entry) : 2 ^ 31 ≤ entry.toNat := by
  by_contra small
  obtain ⟨place, -, returned⟩ := well.within Int32.maxValue
    (Int32.le_iff_toInt_le.mpr low.toInt_le)
  have below_highest : entry.toNat ≤ Int32.maxValue.toUInt32.toNat :=
    Nat.le_of_lt_succ (Nat.lt_of_not_le small)
  rw [interpolate_forever at_255 (UInt32.le_iff_toNat_le.mpr below_highest)] at returned
  cases returned

theorem ofNat_le_ofNat {u u' : ℕ} (le : u ≤ u') (small : u' < 2 ^ 31) :
    Int32.ofNat u ≤ Int32.ofNat u' := by
  rw [Int32.le_iff_toInt_le, Int32.toInt_ofNat_of_lt (le.trans_lt small),
    Int32.toInt_ofNat_of_lt small]
  exact_mod_cast le

theorem le_ofNat {u : ℕ} (reached : low.toInt ≤ u) (small : u < 2 ^ 31) : low ≤ Int32.ofNat u := by
  rwa [Int32.le_iff_toInt_le, Int32.toInt_ofNat_of_lt small]

theorem fits_of_placesWell (well : PlacesWell low table) : TableFits low table where
  nonneg := well.nonneg
  walked _ at_255 := well.walked at_255
  narrow gap k reached within small := by
    refine (look_succ_iff (fun _ => well.walked) gap within small).mp ?_
    exact well.monotone _ _ (le_ofNat (by exact_mod_cast reached) (by omega))
      (ofNat_le_ofNat (by omega) small)
  ends small := by
    have positive := table.last_pos
    refine (look_end_iff (fun _ => well.walked) (u := table.last.toNat - 1) (w := 2 ^ 31 - 1)
      (by decide) (by omega) (by omega)).mp ?_
    refine well.from_last _ _ (Int32.le_iff_toInt_le.mpr low.toInt_le) ?_ ?_
    · rw [Int32.toInt_ofNat_of_lt (by decide)]
      omega
    · rw [Int32.toInt_ofNat_of_lt (by omega)]
      omega

theorem TableFits.monotone (fits : TableFits low table) (reached : low ≤ v) (le : v ≤ w) :
    AtMost (interpolate v table.entries) (interpolate w table.entries) := by
  obtain ⟨u, -, rfl, from_low, toInt_eq⟩ := exists_look fits.nonneg reached
  obtain ⟨u', small, rfl, -, toInt_eq'⟩ := exists_look fits.nonneg (Int32.le_trans reached le)
  rw [Int32.le_iff_toInt_le, toInt_eq, toInt_eq'] at le
  exact look_mono fits from_low (by exact_mod_cast le) small

theorem TableFits.within (fits : TableFits low table) (reached : low ≤ v) :
    ∃ place ≤ 1000, interpolate v table.entries = pure place := by
  obtain ⟨u, small, rfl, -, -⟩ := exists_look fits.nonneg reached
  obtain ⟨place, range, returned⟩ := look_returns fits.walked small
  have word : UInt32.ofNat place ≤ UInt32.ofNat 1000 :=
    (UInt32.ofNat_le_iff_le (range.trans_lt (by decide)) (by decide)).mpr range
  exact ⟨UInt32.ofNat place, word, returned⟩

theorem TableFits.from_last (fits : TableFits low table) (reached : low ≤ v)
    (from_last : table.last.toNat ≤ v.toInt) (before : w.toInt + 1 = table.last.toNat) :
    AtMost (interpolate w table.entries) (interpolate v table.entries) := by
  have last_pos := table.last_pos
  have positive : 0 ≤ w := by
    rw [Int32.le_iff_toInt_le, Int32.toInt_zero]
    omega
  obtain ⟨u, small, rfl, -, toInt_eq⟩ := exists_look fits.nonneg reached
  obtain ⟨u', -, rfl, -, toInt_eq'⟩ := exists_look (Int32.le_refl 0) positive
  rw [toInt_eq] at from_last
  rw [toInt_eq'] at before
  exact (look_end_iff fits.walked small (by exact_mod_cast from_last)
    (by exact_mod_cast before)).mpr (fits.ends (by omega))

/-- Places in order are scaled in order. -/
theorem TableFits.scaled (fits : TableFits low table) (scales : ScalesWell fcc)
    {ocvTable : List UInt32} (entries : ocvTable = table.entries) (reached : low ≤ v)
    (le : v ≤ w) :
    AtMost (interpolate v ocvTable >>= fun temp => abDivC temp fcc 1000)
      (interpolate w ocvTable >>= fun temp => abDivC temp fcc 1000) := by
  obtain ⟨x, y, left, right, placed⟩ := fits.monotone reached le
  obtain ⟨place, range, returned⟩ := fits.within (Int32.le_trans reached le)
  rw [right] at returned
  rw [← Inquiry.done.inj returned] at range
  have scaled := scales x.toNat y.toNat (UInt32.le_iff_toNat_le.mp placed)
    (UInt32.le_iff_toNat_le.mp range)
  rw [UInt32.ofNat_toNat, UInt32.ofNat_toNat] at scaled
  rw [entries, left, right]
  exact scaled

theorem placesWell_of_fits (fits : TableFits low table) : PlacesWell low table where
  monotone _ _ := fits.monotone
  within _ := fits.within
  below_first v reached below := by
    obtain ⟨u, small, rfl, -, toInt_eq⟩ := exists_look fits.nonneg reached
    rw [toInt_eq] at below
    exact look_below small (by exact_mod_cast below)
  from_last _ _ := fits.from_last
  soc _ entries _ _ :=
    fits.scaled (scalesWell_of_fits (capacityFits_of_le (by decide))) entries

/-- A table that a byte can walk, with gaps whose products fit half a word, and with an end that is
at most one below what its gaps add up to. -/
theorem tableFits_of_narrow (nonneg : 0 ≤ low) (few : table.size ≤ 255)
    (narrow : ∀ gap : table.Gap, (gap.width - 1) * table.step < 2 ^ 16)
    (ends : (table.size - 1) * table.step ≤ table.endPlace + 1) : TableFits low table where
  nonneg := nonneg
  walked entry at_255 := by
    obtain ⟨inside, -⟩ := List.getElem?_eq_some_iff.mp at_255
    exact absurd few (Nat.not_le_of_lt inside)
  narrow gap k _ within _ _ := by
    have product : (k + 1) * table.step ≤ (gap.width - 1) * table.step :=
      Nat.mul_le_mul_right _ (by omega)
    have fits := narrow gap
    rw [Nat.succ_mul] at product
    rw [Nat.mod_eq_of_lt (by omega)]
    omega
  ends _ := by
    have positive := table.lastGap.width_pos
    have two_le : 2 ≤ table.size := table.two_le
    have i_eq : table.size - 1 = table.lastGap.i + 1 := by
      change table.size - 1 = table.size - 2 + 1
      omega
    rw [i_eq, Nat.succ_mul] at ends
    rw [Nat.mod_eq_of_lt (narrow table.lastGap)]
    rcases Nat.eq_zero_or_pos table.step with zero | share
    · rw [zero, Nat.mul_zero, Nat.mul_zero, Nat.zero_div]
      exact Nat.zero_le _
    · have less : (table.lastGap.width - 1) * table.step / table.lastGap.width < table.step :=
        Nat.div_lt_of_lt_mul (Nat.mul_lt_mul_of_pos_right (by omega) share)
      omega

end Voltage

end Words
end Power
end RockchipSoc

/-!
## The gauge in whole numbers places a voltage alike

`interpolate` on whole numbers takes its remainders where the driver stores into a word.  On a table
that a byte can walk it has the places of the driver, so they rise with the voltage where the table
fits.
-/

namespace RockchipSoc
namespace Power
namespace Words

open Inquiry CInt

variable {table : OcvTable} {value : Int32}

/-- The entries as the gauge holds them. -/
def OcvTable.numbers (table : OcvTable) : List ℕ := table.entries.map UInt32.toNat

theorem u32_toInt (value : Int32) : u32 value.toInt = value.toUInt32.toNat := by
  have small := value.toUInt32.toNat_lt
  have word : value.toInt = (value.toUInt32.toNat : ℤ).bmod (2 ^ 32) :=
    BitVec.toInt_eq_toNat_bmod _
  rw [u32, word]
  exact (Int.bmod_emod (m := 2 ^ 32)).trans (by omega)

theorem numbers_findIdx (table : OcvTable) (value : Int32) :
    table.numbers.findIdx (fun entry : ℕ => decide (u32 value.toInt < (entry : ℤ))) =
      table.entries.findIdx (value.toUInt32 < ·) := by
  rw [OcvTable.numbers, List.findIdx_map]
  congr 1
  funext entry
  simp only [Function.comp, u32_toInt, Int.ofNat_lt, UInt32.lt_iff_toNat_lt]

theorem numbers_getD_below (gap : table.Gap) :
    table.numbers.getD gap.i 0 = gap.below.toNat := by
  rw [OcvTable.numbers, ← UInt32.toNat_zero, List.getD_map, gap.getD_below]

theorem numbers_getD_entry (gap : table.Gap) :
    table.numbers.getD (gap.i + 1) 0 = gap.entry.toNat := by
  rw [OcvTable.numbers, ← UInt32.toNat_zero, List.getD_map, gap.getD_entry]

/-- Only the last bits of a product are kept, so that the sign of the voltage does not matter. -/
theorem u32_product {below : ℕ} (from_below : below ≤ value.toUInt32.toNat) (step : ℕ) :
    (u32 ((value.toInt - below) * step)).toNat % 2 ^ 16 =
      (value.toUInt32.toNat - below) * step % 2 ^ 16 := by
  have same : Int.ModEq (2 ^ 32) value.toInt value.toUInt32.toNat := by
    have word := u32_toInt value
    unfold u32 at word
    rw [Int.ModEq, word]
    omega
  have product := (same.sub_right below).mul_right step
  rw [Int.ModEq, ← Nat.cast_sub from_below] at product
  have remainder : u32 ((value.toInt - below) * step) =
      ((value.toUInt32.toNat - below) * step % 2 ^ 32 : ℕ) := by
    rw [u32, product, ← Nat.cast_mul]
    norm_cast
  rw [remainder, Int.toNat_natCast, Nat.mod_mod_of_dvd _ (by decide)]

theorem cut_eq_min {place : ℕ} (small : place < 2 ^ 16) :
    (if place % 2 ^ 16 > 1000 then 1000 else place % 2 ^ 16) = min place 1000 := by
  rw [Nat.mod_eq_of_lt small]
  split <;> omega

/-- The two models have the same place for every voltage. -/
theorem interpolate_numbers (few : table.size < 256) :
    interpolate value table.entries =
      pure (UInt32.ofNat (Power.interpolate value.toInt table.numbers)) := by
  have length_eq : table.numbers.length = table.size := List.length_map _
  have positive : 0 < table.size := Nat.lt_of_lt_of_le Nat.two_pos table.two_le
  rcases table.position value.toUInt32 with below | ⟨gap, from_below, under⟩ | from_last
  · have outside : ¬(0 < 0 ∧ 0 < table.size) := fun inner => Nat.lt_irrefl 0 inner.1
    rw [interpolate_below below]
    simp only [Power.interpolate, numbers_findIdx, table.findIdx_below below, length_eq,
      if_neg outside, Nat.zero_mul]
    rfl
  · have inside : 0 < gap.i + 1 ∧ gap.i + 1 < table.size := ⟨Nat.succ_pos _, gap.inside⟩
    have within : value.toUInt32.toNat - gap.below.toNat ≤ gap.width :=
      Nat.sub_le_sub_right (UInt32.lt_iff_toNat_lt.mp under).le _
    have range := gap.place_le_range within
    have cut := cut_eq_min (range.trans_lt (by decide))
    rw [min_eq_left range] at cut
    rw [interpolate_gap gap (by omega) from_below under]
    simp only [Power.interpolate, numbers_findIdx, table.findIdx_gap gap from_below under,
      length_eq, if_pos inside, Nat.add_sub_cancel, numbers_getD_below, numbers_getD_entry,
      u32_product (UInt32.le_iff_toNat_le.mp from_below)]
    exact congrArg (fun place => done (UInt32.ofNat place)) cut.symm
  · have outside : ¬(0 < table.size ∧ table.size < table.size) :=
      fun inner => Nat.lt_irrefl _ inner.2
    have product : table.endPlace ≤ 1000 + table.size / 2 := Nat.mul_div_le _ _
    have small : table.endPlace < 2 ^ 16 := by omega
    rw [interpolate_end few from_last]
    simp only [Power.interpolate, numbers_findIdx, table.findIdx_end from_last, length_eq,
      if_neg outside]
    exact congrArg (fun place => done (UInt32.ofNat place)) (cut_eq_min small).symm

/-- The gauge of a table that fits is monotone too. -/
theorem gauge_interpolate_mono {low v w : Int32} (fits : TableFits low table)
    (few : table.size < 256) (reached : low ≤ v) (le : v ≤ w) :
    Power.interpolate v.toInt table.numbers ≤ Power.interpolate w.toInt table.numbers := by
  have placed := fits.monotone reached le
  rw [interpolate_numbers few, interpolate_numbers few] at placed
  exact (atMost_ofNat (interpolate_le _ _) (interpolate_le _ _)).mp placed

end Words
end Power
end RockchipSoc
