import RockchipSoc.Power.VoltagePlaces

/-!
# The charge that a voltage stands for

The places of a table that fits are scaled to the capacity of the battery.  A table with a hundred
millivolts to a tenth has every place there is, so that a capacity is monotone in every table that
fits only if it scales every place well.
-/

namespace RockchipSoc
namespace Power
namespace Words

open Inquiry

/-- A battery of this capacity holds no less at a higher voltage, with any table that fits. -/
def ChargesWell (fcc : Int32) : Prop :=
  ∀ (dev : Rk817Device) (table : OcvTable) (low : Int32), dev.fcc = fcc →
    dev.pdata.ocvTable = table.entries → TableFits low table → ∀ v w, low ≤ v → v ≤ w →
      AtMost (rk817BatVolToCap dev v) (rk817BatVolToCap dev w)

theorem chargesWell_of_fits {fcc : Int32} (fits : CapacityFits fcc.toUInt32) :
    ChargesWell fcc := by
  rintro dev table low rfl entries tableFits v w reached le
  exact tableFits.scaled (scalesWell_of_fits fits) entries reached le

/-! ## A table with every place -/

/-- From 0 to 1000 in steps of 100. -/
def tenths : OcvTable where
  entries := (List.range 11).map fun i => UInt32.ofNat (100 * i)
  rising := by decide
  two_le := by decide

theorem tenths_get {i : ℕ} (inside : i < tenths.entries.length) :
    (tenths.entries.get ⟨i, inside⟩).toNat = 100 * i := by
  have few : i < 11 := inside
  have small : 100 * i < UInt32.size := Nat.lt_of_lt_of_le (by omega : 100 * i < 1100) (by decide)
  simp only [tenths, List.get_eq_getElem, List.getElem_map, List.getElem_range]
  exact UInt32.toNat_ofNat_of_lt' small

theorem tenths_width (gap : tenths.Gap) : gap.width = 100 := by
  rw [OcvTable.Gap.width, OcvTable.Gap.below, OcvTable.Gap.entry, tenths_get, tenths_get]
  omega

theorem tenths_step : tenths.step = 100 := by decide

theorem tenths_fits : TableFits 0 tenths := by
  refine tableFits_of_narrow (Int32.le_refl 0) (by decide) (fun gap => ?_) (by decide)
  rw [tenths_width, tenths_step]
  decide

/-- Every place is reached. -/
theorem tenths_look {place : ℕ} (range : place ≤ 1000) :
    tenths.look place = pure (UInt32.ofNat place) := by
  rcases Nat.eq_or_lt_of_le range with rfl | inside
  · have past : 1000 ≤ tenths.endPlace := by decide
    rw [look_end (by decide) (by decide) (by decide), min_eq_right past]
  · let gap : tenths.Gap := ⟨place / 100, by change place / 100 + 1 < 11; omega⟩
    have below_eq : gap.below.toNat = 100 * (place / 100) := tenths_get _
    have place_eq : gap.below.toNat + place % 100 = place := by omega
    have reached := look_gap gap (k := place % 100) (by change place / 100 < 255; omega)
      (by rw [tenths_width]; omega) (by omega)
    have value : gap.place (place % 100) = place := by
      rw [OcvTable.Gap.place, tenths_width, tenths_step]
      change place % 100 * 100 % 2 ^ 16 / 100 + place / 100 * 100 = place
      omega
    rwa [place_eq, value] at reached

/-- A battery whose node has this table and this capacity, and nothing else. -/
def OcvTable.battery (table : OcvTable) (fcc : UInt32) (sensible : 500 ≤ fcc) : Rk817Device where
  isRk809 := false
  np :=
    { ocvTable := some table.entries, designCapacity := some fcc, designQmax := some fcc
      sampleRes := none, energyMode := none, zeroAlgorithmVol := none, zeroReserveDsoc := none
      batRes := none, powerOffThresd := none, lowPowerSleep := none, batResUp := none
      batResDown := none, designMaxVoltage := none }
  pdata :=
    { ocvTable := table.entries, designCapacity := fcc, designQmax := fcc, sampleRes := 20
      energyMode := 0, zeroAlgorithmVol := 0, zeroReserveDsoc := 10 * 1000 * 1000, batRes := 135
      pwroffVol := 3400, lowPwrSleep := 0, batResUp := 0, batResDown := 0, designMaxVoltage := 0 }
  storedFcc := 0
  accepted := if_neg table.entries_ne_nil
  minFcc_le := sensible
  capacity_le := UInt32.le_refl fcc

theorem OcvTable.battery_fcc (table : OcvTable) {fcc : UInt32} (sensible : 500 ≤ fcc) :
    (table.battery fcc sensible).fcc = fcc.toInt32 := rfl

theorem fits_of_chargesWell {fcc : Int32} (well : ChargesWell fcc) :
    CapacityFits fcc.toUInt32 := by
  by_cases sensible : 500 ≤ fcc.toUInt32
  · refine fits_of_scalesWell fun p q le range => ?_
    have charged := well (tenths.battery fcc.toUInt32 sensible) tenths 0
      (tenths.battery_fcc sensible) rfl tenths_fits (Int32.ofNat p) (Int32.ofNat q)
      (le_ofNat (Int.natCast_nonneg p) (by omega)) (ofNat_le_ofNat le (by omega))
    change AtMost (tenths.look p >>= _) (tenths.look q >>= _) at charged
    rwa [tenths_look (le.trans range), tenths_look range] at charged
  · refine capacityFits_of_le ?_
    have small := UInt32.lt_iff_toNat_lt.mp (UInt32.not_le.mp sensible)
    exact small.le.trans (by decide)

/-- From a voltage on a table places well exactly where it fits, and a capacity is charged well
exactly where it fits. -/
theorem interpolate_monotone_iff (low : Int32) (table : OcvTable) (fcc : Int32) :
    (PlacesWell low table ↔ TableFits low table) ∧
      (ChargesWell fcc ↔ CapacityFits fcc.toUInt32) :=
  ⟨⟨fits_of_placesWell, placesWell_of_fits⟩, ⟨fits_of_chargesWell, chargesWell_of_fits⟩⟩

/-- A single gap of 800 millivolts. -/
def singleGap : OcvTable := ⟨[3400, 4200], by decide, by decide⟩

/-- Gaps of 100 millivolts, with an end that is below them. -/
def manyGaps : OcvTable where
  entries := (List.range 26).map fun i => UInt32.ofNat (1700 + 100 * i)
  rising := by decide
  two_le := by decide

/-- The product wraps in the middle of a gap, a negative voltage is at the top, and the last entry
is below the voltage before it. -/
theorem interpolate_falls :
    interpolate 3465 singleGap.entries = pure 81 ∧ interpolate 3466 singleGap.entries = pure 0 ∧
      interpolate (-1) singleGap.entries = pure 1000 ∧
      interpolate 0 singleGap.entries = pure 0 ∧
      interpolate 4199 manyGaps.entries = pure 999 ∧
      interpolate 4200 manyGaps.entries = pure 988 ∧
      ∀ low ≤ 3465, ¬PlacesWell low singleGap := by
  have before : interpolate 3465 singleGap.entries = pure 81 := rfl
  have after : interpolate 3466 singleGap.entries = pure 0 := rfl
  refine ⟨before, after, rfl, rfl, rfl, rfl, fun low reached well => ?_⟩
  have falls := well.monotone 3465 3466 reached (by decide)
  rw [before, after] at falls
  exact absurd (atMost_pure.mp falls) (by decide)

end Words
end Power
end RockchipSoc
