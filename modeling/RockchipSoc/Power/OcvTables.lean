import Mathlib.Algebra.Group.Nat.Defs
import RockchipSoc.Foundation.WordMultiples
import RockchipSoc.Power.Rk817Device

/-!
# Where a voltage lies in its table

A rising table cuts the voltages into those below its first entry, its gaps, and those from its last
entry on.  In each of these `interpolate` is a formula; the voltages are taken without sign, as the
comparison takes them.
-/

namespace RockchipSoc
namespace Power
namespace Words

open Inquiry

/-- A table of voltages that rises, with two entries at least. -/
structure OcvTable where
  entries : List UInt32
  rising : entries.Pairwise (· < ·)
  two_le : 2 ≤ entries.length

namespace OcvTable

variable (table : OcvTable)

def size : ℕ := table.entries.length

/-- `MAX_INTERPOLATE / (size - 1)`, the share of one gap. -/
def step : ℕ := 1000 / (table.size - 1)

/-- The place of everything from the last entry on. -/
def endPlace : ℕ := table.size * ((1000 + table.size / 2) / table.size)

theorem entries_ne_nil : table.entries ≠ [] := by
  intro empty
  have two_le := table.two_le
  rw [empty] at two_le
  cases two_le

def first : UInt32 := table.entries.head table.entries_ne_nil

def last : UInt32 := table.entries.getLast table.entries_ne_nil

theorem entry_lt {i j : ℕ} (lt : i < j) (inside : j < table.entries.length) :
    table.entries[i] < table.entries[j] :=
  List.pairwise_iff_getElem.mp table.rising i j (by omega) inside lt

theorem entry_le {i j : ℕ} (le : i ≤ j) (inside : j < table.entries.length) :
    table.entries[i] ≤ table.entries[j] := by
  rcases Nat.eq_or_lt_of_le le with rfl | lt
  · exact UInt32.le_refl _
  · exact UInt32.le_of_lt (table.entry_lt lt inside)

theorem length_ne_zero : table.entries.length ≠ 0 := by
  have two_le := table.two_le
  omega

theorem step_le : table.step ≤ 1000 := Nat.div_le_self _ _

/-- The last place in a gap is within the range. -/
theorem mul_step_le {i : ℕ} (inside : i + 1 < table.size) : (i + 1) * table.step ≤ 1000 :=
  (Nat.mul_le_mul_right _ (by omega)).trans (Nat.mul_div_le 1000 (table.size - 1))

/-- Two entries that follow one another. -/
structure Gap where
  i : ℕ
  inside : i + 1 < table.entries.length

def lastGap : table.Gap := ⟨table.size - 2, by have := table.two_le; unfold size; omega⟩

namespace Gap

variable {table} (gap : table.Gap)

def below : UInt32 := table.entries.get ⟨gap.i, Nat.lt_of_succ_lt gap.inside⟩

def entry : UInt32 := table.entries.get ⟨gap.i + 1, gap.inside⟩

def width : ℕ := gap.entry.toNat - gap.below.toNat

/-- The place of the voltage that is `k` above the entry below.  The product is kept in half a
word. -/
def place (k : ℕ) : ℕ := k * table.step % 2 ^ 16 / gap.width + gap.i * table.step

theorem below_lt_entry : gap.below < gap.entry := table.entry_lt (Nat.lt_succ_self _) gap.inside

theorem getD_below : table.entries.getD gap.i 0 = gap.below :=
  List.getD_eq_getElem _ _ (Nat.lt_of_succ_lt gap.inside)

theorem getD_entry : table.entries.getD (gap.i + 1) 0 = gap.entry :=
  List.getD_eq_getElem _ _ gap.inside

theorem width_pos : 0 < gap.width :=
  Nat.sub_pos_of_lt (UInt32.lt_iff_toNat_lt.mp gap.below_lt_entry)

@[simp] theorem place_zero : gap.place 0 = gap.i * table.step := by
  rw [place, Nat.zero_mul, Nat.zero_mod, Nat.zero_div, Nat.zero_add]

theorem place_le {k : ℕ} (within : k ≤ gap.width) : gap.place k ≤ (gap.i + 1) * table.step := by
  have product : k * table.step % 2 ^ 16 ≤ gap.width * table.step :=
    (Nat.mod_le _ _).trans (Nat.mul_le_mul_right _ within)
  rw [place, Nat.succ_mul, Nat.add_comm]
  exact Nat.add_le_add_left (Nat.div_le_of_le_mul product) _

theorem place_le_range {k : ℕ} (within : k ≤ gap.width) : gap.place k ≤ 1000 :=
  (gap.place_le within).trans (table.mul_step_le gap.inside)

/-- Within a gap the place falls only where the product wraps. -/
theorem place_le_place_succ_iff (k : ℕ) :
    gap.place k ≤ gap.place (k + 1) ↔
      (gap.width ≤ k * table.step % 2 ^ 16 → k * table.step % 2 ^ 16 + table.step < 2 ^ 16) := by
  have short := table.step_le
  rw [place, place, Nat.add_le_add_iff_right, WrappedMultiples.succ_mul_mod]
  exact WrappedMultiples.div_le_div_succ_iff (Nat.mod_lt _ (by decide)) (by omega) gap.width_pos

/-- The gap that follows. -/
def next (more : gap.i + 2 < table.entries.length) : table.Gap := ⟨gap.i + 1, more⟩

@[simp] theorem next_below (more : gap.i + 2 < table.entries.length) :
    (gap.next more).below = gap.entry := rfl

theorem eq_lastGap (final : gap.i + 2 = table.entries.length) : gap = table.lastGap := by
  cases gap
  simp only [lastGap, size, mk.injEq] at final ⊢
  omega

theorem below_add_width : gap.below.toNat + gap.width = gap.entry.toNat :=
  Nat.add_sub_cancel' (UInt32.lt_iff_toNat_lt.mp gap.below_lt_entry).le

end Gap

@[simp] theorem lastGap_entry : table.lastGap.entry = table.last := by
  have two_le := table.two_le
  rw [last, List.getLast_eq_getElem, Gap.entry, List.get_eq_getElem]
  congr 1
  simp only [lastGap, size]
  omega

theorem last_pos : 0 < table.last.toNat := by
  have rising := UInt32.lt_iff_toNat_lt.mp table.lastGap.below_lt_entry
  rw [lastGap_entry] at rising
  exact Nat.zero_lt_of_lt rising

/-! ## The search -/

variable {table} {x : UInt32}

theorem findIdx_below (below : x < table.first) : table.entries.findIdx (x < ·) = 0 := by
  rw [List.findIdx_eq (List.length_pos_iff.mpr table.entries_ne_nil)]
  rw [first, List.head_eq_getElem] at below
  exact ⟨decide_eq_true below, fun j later => absurd later j.not_lt_zero⟩

theorem findIdx_gap (gap : table.Gap) (from_below : gap.below ≤ x) (under : x < gap.entry) :
    table.entries.findIdx (x < ·) = gap.i + 1 := by
  rw [List.findIdx_eq gap.inside]
  refine ⟨decide_eq_true under, fun j earlier => decide_eq_false ?_⟩
  have upToBelow := table.entry_le (Nat.le_of_lt_succ earlier) (Nat.lt_of_succ_lt gap.inside)
  exact UInt32.not_lt.mpr (UInt32.le_trans upToBelow from_below)

theorem findIdx_end (from_last : table.last ≤ x) : table.entries.findIdx (x < ·) = table.size := by
  rw [size, List.findIdx_eq_length]
  intro entry member
  obtain ⟨j, inside, rfl⟩ := List.getElem_of_mem member
  rw [last, List.getLast_eq_getElem] at from_last
  have upToLast := table.entry_le (Nat.le_sub_one_of_lt inside) (by omega)
  exact decide_eq_false (UInt32.not_lt.mpr (UInt32.le_trans upToLast from_last))

/-- Every voltage lies somewhere. -/
theorem position (table : OcvTable) (x : UInt32) :
    x < table.first ∨ (∃ gap : table.Gap, gap.below ≤ x ∧ x < gap.entry) ∨ table.last ≤ x := by
  by_cases found : table.entries.findIdx (x < ·) < table.entries.length
  · have above := of_decide_eq_true (List.findIdx_getElem (w := found))
    rcases at_i : table.entries.findIdx (x < ·) with _ | i
    · simp only [at_i] at above
      left
      rwa [first, List.head_eq_getElem]
    · simp only [at_i] at above
      have earlier : i < table.entries.findIdx (x < ·) := by omega
      have notAbove := List.not_of_lt_findIdx earlier
      right; left
      exact ⟨⟨i, by rw [← at_i]; exact found⟩,
        UInt32.not_lt.mp (by simpa using notAbove : ¬x < table.entries[i]), above⟩
  · right; right
    have none_above := List.findIdx_eq_length.mp
      (le_antisymm List.findIdx_le_length (Nat.le_of_not_lt found))
    exact UInt32.not_lt.mp
      (of_decide_eq_false (none_above _ (List.getLast_mem table.entries_ne_nil)))

end OcvTable

/-! ## The formulas -/

variable {table : OcvTable} {value : Int32}

theorem interpolate_below (below : value.toUInt32 < table.first) :
    interpolate value table.entries = pure 0 := by
  simp only [interpolate, table.findIdx_below below, atEntry]
  rw [if_neg (by decide), if_neg (by omega), divide_of_ne table.length_ne_zero]
  simp only [Nat.zero_mul]
  rfl

/-- A table that a byte cannot walk, and no entry above the voltage where it can. -/
theorem interpolate_forever {entry : UInt32} (at_255 : table.entries[255]? = some entry)
    (reached : entry ≤ value.toUInt32) : interpolate value table.entries = forever := by
  obtain ⟨inside, rfl⟩ := List.getElem?_eq_some_iff.mp at_255
  have late : 256 ≤ table.entries.findIdx (value.toUInt32 < ·) := by
    by_contra early
    have found : table.entries.findIdx (value.toUInt32 < ·) < table.entries.length := by omega
    have above := of_decide_eq_true (List.findIdx_getElem (w := found))
    exact UInt32.not_lt.mpr (UInt32.le_trans (table.entry_le (by omega) inside) reached) above
  simp only [interpolate]
  rw [if_pos late]

/-- What is cut to half a word, and then to the range. -/
theorem capped_ofNat {place : ℕ} (small : place < 2 ^ 16) :
    (if UInt16.ofNat place > 1000 then 1000 else (UInt16.ofNat place).toUInt32) =
      UInt32.ofNat (min place 1000) := by
  have toNat_eq : (UInt16.ofNat place).toNat = place := UInt16.toNat_ofNat_of_lt' small
  by_cases over_range : 1000 < place
  · rw [if_pos (UInt16.lt_iff_toNat_lt.mpr (by rw [toNat_eq]; exact over_range)),
      min_eq_right over_range.le]
    rfl
  · rw [if_neg (by rw [gt_iff_lt, UInt16.lt_iff_toNat_lt, toNat_eq]; exact over_range),
      min_eq_left (Nat.le_of_not_lt over_range), ← UInt32.ofNat_uInt16ToNat, toNat_eq]

theorem betweenEntries_gap (gap : table.Gap) (from_below : gap.below ≤ value.toUInt32) :
    betweenEntries value gap.below gap.entry (gap.i + 1) table.size =
      pure (UInt16.ofNat (gap.place (value.toUInt32.toNat - gap.below.toNat))) := by
  have inside := gap.inside
  have gaps : table.size - 1 ≠ 0 := by unfold OcvTable.size; omega
  have distinct : gap.entry - gap.below ≠ 0 :=
    sub_ne_zero_of_distinct (UInt32.ne_of_lt gap.below_lt_entry).symm
  have width_eq : (gap.entry - gap.below).toNat = gap.width :=
    UInt32.toNat_sub_of_le _ _ (UInt32.le_of_lt gap.below_lt_entry)
  have height_eq : (value.toUInt32 - gap.below).toNat =
      value.toUInt32.toNat - gap.below.toNat :=
    UInt32.toNat_sub_of_le _ _ from_below
  have step_eq : (UInt32.ofNat (1000 / (table.size - 1))).toNat = table.step :=
    UInt32.toNat_ofNat_of_lt' (table.step_le.trans_lt (by decide))
  have product : ((value.toUInt32 - gap.below) *
      UInt32.ofNat (1000 / (table.size - 1))).toUInt16.toUInt32.toNat =
      (value.toUInt32.toNat - gap.below.toNat) * table.step % 2 ^ 16 := by
    rw [UInt16.toNat_toUInt32, UInt32.toNat_toUInt16, UInt32.toNat_mul, height_eq, step_eq,
      Nat.mod_mod_of_dvd _ (by decide)]
  rw [betweenEntries, divide_of_ne gaps]
  change (do
    let d ← divide _ _
    pure _) = _
  rw [divide_of_ne distinct]
  refine congrArg done (UInt16.toNat_inj.mp ?_)
  rw [UInt16.toNat_add, UInt32.toNat_toUInt16, UInt32.toNat_div, product, width_eq,
    UInt16.toNat_ofNat', UInt16.toNat_ofNat', Nat.add_sub_cancel, ← Nat.add_mod]
  rfl

theorem interpolate_gap (gap : table.Gap) (few : gap.i < 255)
    (from_below : gap.below ≤ value.toUInt32) (under : value.toUInt32 < gap.entry) :
    interpolate value table.entries =
      pure (UInt32.ofNat (gap.place (value.toUInt32.toNat - gap.below.toNat))) := by
  have within : value.toUInt32.toNat - gap.below.toNat ≤ gap.width :=
    Nat.sub_le_sub_right (UInt32.lt_iff_toNat_lt.mp under).le _
  have range := gap.place_le_range within
  have found : 0 < gap.i + 1 ∧ gap.i + 1 < table.entries.length := ⟨Nat.succ_pos _, gap.inside⟩
  simp only [interpolate, table.findIdx_gap gap from_below under]
  rw [if_neg (by omega), if_pos found, Nat.add_sub_cancel, gap.getD_below, gap.getD_entry,
    ← OcvTable.size, betweenEntries_gap gap from_below]
  exact congrArg done ((capped_ofNat (range.trans_lt (by decide))).trans
    (by rw [min_eq_left range]))

theorem interpolate_end (few : table.size < 256) (from_last : table.last ≤ value.toUInt32) :
    interpolate value table.entries = pure (UInt32.ofNat (min table.endPlace 1000)) := by
  have product : table.endPlace ≤ 1000 + table.size / 2 := Nat.mul_div_le _ _
  have small : table.endPlace < 2 ^ 16 := by omega
  simp only [interpolate, table.findIdx_end from_last, atEntry]
  rw [if_neg (by omega), if_neg (fun inner => Nat.lt_irrefl _ inner.2),
    divide_of_ne table.length_ne_zero]
  exact congrArg done (capped_ofNat small)

/-- The least negative voltage is above every table, or is never found. -/
theorem interpolate_neg_one (table : OcvTable) : interpolate (-1) table.entries ≠ pure 0 := by
  have above (entry : UInt32) : entry ≤ (-1 : Int32).toUInt32 :=
    UInt32.le_iff_toNat_le.mpr (Nat.le_of_lt_succ entry.toNat_lt)
  have two_le : 2 ≤ table.size := table.two_le
  by_cases few : table.size < 256
  · rw [interpolate_end few (above _)]
    intro same
    have share : 1 ≤ (1000 + table.size / 2) / table.size := Nat.div_pos (by omega) (by omega)
    have product : table.size ≤ table.endPlace := Nat.le_mul_of_pos_right _ share
    have zero := congrArg UInt32.toNat (Inquiry.done.inj same)
    rw [UInt32.toNat_ofNat_of_lt' ((min_le_right _ _).trans_lt (by decide))] at zero
    change min table.endPlace 1000 = 0 at zero
    omega
  · have at_255 := List.getElem?_eq_getElem (Nat.le_of_not_lt few)
    rw [interpolate_forever at_255 (above _)]
    intro same
    cases same

end Words
end Power
end RockchipSoc
