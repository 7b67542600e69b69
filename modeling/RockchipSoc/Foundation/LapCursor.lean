import Mathlib.Data.Nat.ModEq

/-!
# Cursors of a ring that run over two laps

A ring of `size` slots whose cursors run modulo `2 * size`, so that an empty ring and a full one
look different.  A cursor is the number of slots it has passed modulo two laps, and the slot it is
at is that number modulo `size`.  The reading cursor may be kept one lap ahead of the writing one.
-/

namespace LapCursor

/-- The slot at a cursor. -/
def slot (size cursor : Nat) : Nat := if cursor < size then cursor else cursor - size

def advance (size cursor : Nat) : Nat := if 2 * size ≤ cursor + 1 then 0 else cursor + 1

/-- The slots between a reading cursor that is one lap ahead and a writing cursor. -/
def between (size read write : Nat) : Nat := (write + 3 * size - read) % (2 * size)

variable {size : Nat}

theorem slot_mod (positive : 0 < size) (n : Nat) : slot size (n % (2 * size)) = n % size := by
  have lap : n % (2 * size) % size = n % size := Nat.mod_mod_of_dvd n (Dvd.intro_left 2 rfl)
  have inside : n % (2 * size) < 2 * size := Nat.mod_lt n (by omega)
  rw [slot, ← lap]
  split
  · next first => exact (Nat.mod_eq_of_lt first).symm
  · next second =>
      have less : n % (2 * size) - size < size := by omega
      exact ((Nat.mod_eq_sub_mod (Nat.not_lt.mp second)).trans (Nat.mod_eq_of_lt less)).symm

theorem advance_mod (positive : 0 < size) (n : Nat) :
    advance size (n % (2 * size)) = (n + 1) % (2 * size) := by
  have inside : n % (2 * size) < 2 * size := Nat.mod_lt n (by omega)
  have step : (n % (2 * size) + 1) % (2 * size) = (n + 1) % (2 * size) := Nat.mod_add_mod n _ 1
  rw [advance, ← step]
  split
  · next last =>
      have wraps : n % (2 * size) + 1 = 2 * size := by omega
      rw [wraps, Nat.mod_self]
  · next inner => exact (Nat.mod_eq_of_lt (Nat.not_le.mp inner)).symm

/-- The distance of two cursors is the number of slots that are written and not read. -/
theorem between_mod (positive : 0 < size) {read write : Nat} (order : read ≤ write)
    (room : write ≤ read + size) :
    between size ((read + size) % (2 * size)) (write % (2 * size)) = write - read := by
  have inside : (read + size) % (2 * size) < 2 * size := Nat.mod_lt _ (by omega)
  have cancel : write % (2 * size) + 3 * size - (read + size) % (2 * size) +
      (read + size) % (2 * size) ≡ write - read + (read + size) [MOD 2 * size] := by
    rw [Nat.sub_add_cancel (by omega), show write - read + (read + size) = write + size by omega]
    calc write % (2 * size) + 3 * size
        = write % (2 * size) + size + 2 * size := by omega
      _ ≡ write % (2 * size) + size [MOD 2 * size] := Nat.add_mod_right _ _
      _ ≡ write + size [MOD 2 * size] := (Nat.mod_modEq write _).add_right size
  have same := Nat.ModEq.add_right_cancel (Nat.mod_modEq (read + size) _) cancel
  rw [between, same, Nat.mod_eq_of_lt (by omega)]

/-- The distance of two cursors, when it is one lap at most, without a division. -/
theorem between_eq_ite {read write : Nat} (inside : read < 2 * size) (inside' : write < 2 * size)
    (room : between size read write ≤ size) : (between size read write : Int) =
      if write ≤ read then (write : Int) + size - read else (write : Int) - read - size := by
  rw [between] at room ⊢
  rcases Nat.lt_or_ge (write + 3 * size - read) (2 * size) with short | long
  · rw [Nat.mod_eq_of_lt short] at room
    omega
  · rw [Nat.mod_eq_sub_mod long] at room ⊢
    rcases Nat.lt_or_ge (write + 3 * size - read - 2 * size) (2 * size) with one | two
    · rw [Nat.mod_eq_of_lt one] at room ⊢
      split <;> omega
    · rw [Nat.mod_eq_sub_mod two, Nat.mod_eq_of_lt (by omega)] at room ⊢
      split <;> omega

/-- Two positions less than a lap apart are at different slots. -/
theorem mod_ne_mod {first second : Nat} (order : first < second) (near : second < first + size) :
    first % size ≠ second % size := by
  intro same
  have multiple : size ∣ second - first := (Nat.modEq_iff_dvd' order.le).mp same
  exact absurd (Nat.le_of_dvd (by omega) multiple) (by omega)

end LapCursor
