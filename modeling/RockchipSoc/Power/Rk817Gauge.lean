import Mathlib.Tactic.Linarith
import Mathlib.Data.Nat.Bitwise
import RockchipSoc.Foundation.CheckedArith

/-!
# The readings of the rk817 fuel gauge

The coulomb counter is a register in units of the converter; the battery voltage is turned into a
charge by a table of open circuit voltages.
-/

namespace RockchipSoc
namespace Power

open CInt

def maxInterpolate : ℕ := 1000
def maxPercentage : ℕ := 100
def maxInt : ℤ := 0x7FFF
def minFcc : ℤ := 500

/-- `DIV(x)`. -/
def orOne (x : ℤ) : ℤ := if x ≠ 0 then x else 1

/-- The fixed data of a battery: `struct battery_platform_data` and what the start-up computes
from it.  The capacity is one that `rk817_bat_get_fcc` accepts, and the table can be walked with
a byte. -/
structure Rk817Data where
  isRk809 : Bool
  fcc : ℤ
  resDiv : ℕ
  batRes : ℤ
  pwroffVol : ℕ
  zeroAlgorithmVol : ℕ
  zeroReserveDsoc : ℕ
  designMaxVoltage : ℕ
  energyMode : Bool
  lowPwrSleep : Bool
  ocvTable : List ℕ
  fcc_valid : minFcc ≤ fcc
  fcc_fits : fcc < 2 ^ 31
  resDiv_pos : 1 ≤ resDiv
  resDiv_le : resDiv ≤ 2
  ocvTable_short : ocvTable.length < 256

/-- A battery of at most 10000 mAh. -/
structure Rk817Config extends Rk817Data where
  fcc_le : fcc ≤ 10000

instance : CoeOut Rk817Config Rk817Data := ⟨Rk817Config.toRk817Data⟩

/-- The place of a voltage in a table, scaled to `maxInterpolate`. -/
def interpolate (value : ℤ) (table : List ℕ) : ℕ :=
  let size := table.length
  let i := table.findIdx fun entry : ℕ => decide (u32 value < (entry : ℤ))
  let d :=
    if 0 < i ∧ i < size then
      let below := table.getD (i - 1) 0
      let d := (u32 ((value - below) * (maxInterpolate / (size - 1) : ℕ))).toNat % 2 ^ 16
      let d := d / (table.getD i 0 - below)
      (d + (i - 1) * (maxInterpolate / (size - 1))) % 2 ^ 16
    else i * ((maxInterpolate + size / 2) / size) % 2 ^ 16
  if d > 1000 then 1000 else d

/-- `(a * b) / c`, rounded, on 32-bit words whose signs are handled apart. -/
def abDivC (a b c : ℕ) : ℤ :=
  let sign := (a ^^^ b ^^^ c).testBit 31
  let ans :=
    if c = 0 then maxInt
    else
      let c := if sign then 2 ^ 32 - c else c
      let tmp := s32 (((a * b + c / 2) % 2 ^ 32 / c : ℕ) : ℤ)
      if tmp < maxInt then tmp else maxInt
  if sign then -ans else ans

def rk817BatVolToSoc (cfg : Rk817Data) (voltage : ℤ) : ℤ :=
  abDivC (interpolate voltage cfg.ocvTable) maxPercentage maxInterpolate

def rk817BatVolToCap (cfg : Rk817Data) (voltage : ℤ) : ℤ :=
  abDivC (interpolate voltage cfg.ocvTable) cfg.fcc.toNat maxInterpolate

/-- `rk817_bat_get_capacity_uah`: nothing remains while the register is marked invalid. -/
def rk817BatGetCapacityUah (cfg : Rk817Data) (qPress : ℕ) : ℤ :=
  if qPress.testBit 31 then 0 else (qPress / 3600 * 172 / cfg.resDiv : ℕ)

/-- `CAPACITY_TO_ADC`. -/
def capacityToAdc (capacity samp_res : ℕ) : ℕ :=
  capacity * samp_res * 3600 / 172 * 1000 % 2 ^ 32

theorem capped_le (d : ℕ) : (if d > 1000 then 1000 else d) ≤ 1000 := by
  split <;> omega

theorem interpolate_le (value : ℤ) (table : List ℕ) : interpolate value table ≤ 1000 :=
  capped_le _

theorem abDivC_interpolate {a b : ℕ} (small : a ≤ 1000) (small' : b ≤ 10000) :
    0 ≤ abDivC a b maxInterpolate ∧ abDivC a b maxInterpolate ≤ b := by
  have positive : (a ^^^ b ^^^ maxInterpolate).testBit 31 = false := by
    apply Nat.testBit_lt_two_pow
    exact Nat.xor_lt_two_pow (Nat.xor_lt_two_pow (by omega) (by omega)) (by decide)
  have product : a * b ≤ 1000 * b := Nat.mul_le_mul_right b small
  have quotient : (a * b + 1000 / 2) % 2 ^ 32 / 1000 ≤ b := by omega
  have unwrapped : s32 (((a * b + 1000 / 2) % 2 ^ 32 / 1000 : ℕ) : ℤ) =
      ((a * b + 1000 / 2) % 2 ^ 32 / 1000 : ℕ) := s32_of_fits (by omega) (by omega)
  simp only [abDivC, positive]
  simp only [maxInterpolate, OfNat.ofNat_ne_zero, if_false, Bool.false_eq_true, unwrapped, maxInt]
  constructor <;> split <;> omega

theorem rk817BatVolToCap_bounds (cfg : Rk817Config) (voltage : ℤ) :
    0 ≤ rk817BatVolToCap cfg voltage ∧ rk817BatVolToCap cfg voltage ≤ cfg.fcc := by
  have valid := cfg.fcc_valid
  have small := cfg.fcc_le
  unfold minFcc at valid
  have bounds := abDivC_interpolate (interpolate_le voltage cfg.ocvTable)
    (show cfg.fcc.toNat ≤ 10000 by omega)
  rw [Int.toNat_of_nonneg (by omega)] at bounds
  exact bounds

theorem rk817BatGetCapacityUah_nonneg (cfg : Rk817Data) (qPress : ℕ) :
    0 ≤ rk817BatGetCapacityUah cfg qPress := by
  unfold rk817BatGetCapacityUah
  split
  · exact le_rfl
  · exact Int.natCast_nonneg _

/-- A capacity written to the counter is read back without gain. -/
theorem capacityUah_capacityToAdc (cfg : Rk817Data) {capacity : ℕ} (small : capacity ≤ 10100) :
    rk817BatGetCapacityUah cfg (capacityToAdc capacity cfg.resDiv) ≤ 1000 * capacity := by
  have low := cfg.resDiv_pos
  have high := cfg.resDiv_le
  have units : 172 * (capacity * cfg.resDiv * 3600 / 172) ≤ capacity * cfg.resDiv * 3600 :=
    Nat.mul_div_le _ _
  have scaled : capacity * cfg.resDiv ≤ 20200 := by nlinarith
  have unwrapped : capacityToAdc capacity cfg.resDiv =
      capacity * cfg.resDiv * 3600 / 172 * 1000 := Nat.mod_eq_of_lt (by omega)
  have gauge : capacityToAdc capacity cfg.resDiv / 3600 * 172 ≤ 1000 * capacity * cfg.resDiv := by
    have floor := Nat.div_mul_le_self (capacityToAdc capacity cfg.resDiv) 3600
    rw [unwrapped] at floor ⊢
    rw [Nat.mul_assoc 1000]
    omega
  unfold rk817BatGetCapacityUah
  split
  · omega
  · exact_mod_cast Nat.div_le_of_le_mul (by linarith)

end Power
end RockchipSoc
