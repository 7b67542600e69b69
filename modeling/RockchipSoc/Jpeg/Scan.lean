import RockchipSoc.Jpeg.Readers

/-!
# The search for the end marker

The search leaves a byte 0xFF together with the byte behind it.  Over a run of such bytes before the
end marker it moves in pairs: where the run is odd, the last pair takes the first byte of the
marker, and the search runs on behind it.
-/

namespace RockchipSoc.Jpeg

open Emit

variable {m : Buffer} {pos dataEnd : ℤ} {data : List Byte}

/-- The number of bytes 0xFF at the end. -/
def trailing (data : List Byte) : Nat := (data.reverse.takeWhile fun byte => byte = 0xff).length

theorem trailing_cons (byte : Byte) (data : List Byte) :
    trailing (byte :: data) =
      if trailing data = data.length ∧ byte = 0xff then data.length + 1 else trailing data := by
  rw [trailing, List.reverse_cons, List.takeWhile_append, List.length_reverse]
  change (if trailing data = data.length then _ else _ : List Byte).length = _
  by_cases all : trailing data = data.length
  · rw [if_pos all, List.length_append, List.length_reverse]
    by_cases last : byte = 0xff
    · rw [if_pos ⟨all, last⟩, List.takeWhile_cons_of_pos (by simp [last])]
      rfl
    · rw [if_neg fun both => last both.2, List.takeWhile_cons_of_neg (by simpa using last), all]
      rfl
  · rw [if_neg all, if_neg fun both => all both.1]
    rfl

theorem trailing_le (data : List Byte) : trailing data ≤ data.length :=
  (List.takeWhile_prefix _).length_le.trans_eq List.length_reverse

/-- A byte other than 0xFF in front does not count. -/
theorem trailing_cons_of_ne {byte : Byte} (other : byte ≠ 0xff) (data : List Byte) :
    trailing (byte :: data) = trailing data := by
  rw [trailing_cons, if_neg fun both => other both.2]

/-- A byte 0xFF and the one behind it do not change the parity. -/
theorem trailing_cons_cons (byte : Byte) (data : List Byte) :
    trailing (0xff :: byte :: data) % 2 = trailing data % 2 := by
  by_cases all : trailing data = data.length ∧ byte = 0xff
  · rw [trailing_cons, trailing_cons byte, if_pos all, List.length_cons, if_pos ⟨rfl, rfl⟩, all.1]
    omega
  · have rest := trailing_cons byte data
    rw [if_neg all] at rest
    have short := trailing_le data
    have unequal : ¬(trailing (byte :: data) = (byte :: data).length ∧ (0xff : Byte) = 0xff) := by
      rw [rest, List.length_cons]
      omega
    rw [trailing_cons, if_neg unequal, rest]

/-- The end marker stands nowhere in the bytes. -/
def NoEoi (data : List Byte) : Prop := ¬[0xff, 0xd9] <:+: data

theorem NoEoi.of_cons {byte : Byte} (free : NoEoi (byte :: data)) : NoEoi data :=
  fun infix_ => free (infix_.trans (List.suffix_cons byte data).isInfix)

theorem NoEoi.next_ne {byte : Byte} (free : NoEoi (0xff :: byte :: data)) : byte ≠ 0xd9 := by
  rintro rfl
  exact free (List.prefix_append [0xff, 0xd9] data).isInfix

/-- Over bytes without an end marker the search comes to their end, or one byte behind it. -/
theorem findEoi_skip : ∀ (data : List Byte) {pos : ℤ}, NoEoi data →
    Holds m pos (data ++ [0xff, 0xd9]) → ∃ steps, ∀ fuel, findEoi m (fuel + steps) pos =
      findEoi m fuel (pos + (data.length + trailing data % 2 : Nat))
  | [], pos, _, _ => ⟨0, fun fuel => by simp [trailing]⟩
  | byte :: rest, pos, free, holds => by
      obtain ⟨first, behind⟩ := holds_cons.mp holds
      by_cases other : byte = 0xff
      · match rest with
        | [] =>
            obtain ⟨second, -⟩ := holds_cons.mp behind
            refine ⟨1, fun fuel => ?_⟩
            rw [findEoi, getInt8, first, other, if_neg (not_not.mpr rfl), getInt8, second,
              if_pos (by decide)]
            rfl
        | byte' :: rest' =>
            obtain ⟨second, others⟩ := holds_cons.mp behind
            obtain ⟨steps, skips⟩ := findEoi_skip rest' free.of_cons.of_cons others
            refine ⟨steps + 1, fun fuel => ?_⟩
            have address : pos + 1 + 1 = pos + 2 := Int.add_assoc pos 1 1
            have target : pos + 2 + ((rest'.length + trailing rest' % 2 : Nat) : ℤ) =
                pos + (((byte :: byte' :: rest').length +
                  trailing (byte :: byte' :: rest') % 2 : Nat) : ℤ) := by
              rw [other, trailing_cons_cons, List.length_cons, List.length_cons]
              push_cast
              omega
            have unended : byte' ≠ 0xd9 := (other ▸ free).next_ne
            rw [address] at skips
            rw [← Nat.add_assoc, findEoi, getInt8, first, other, if_neg (not_not.mpr rfl), getInt8,
              second, if_pos unended, skips, target, other]
      · obtain ⟨steps, skips⟩ := findEoi_skip rest free.of_cons behind
        refine ⟨steps + 1, fun fuel => ?_⟩
        have target : pos + 1 + ((rest.length + trailing rest % 2 : Nat) : ℤ) =
            pos + (((byte :: rest).length + trailing (byte :: rest) % 2 : Nat) : ℤ) := by
          rw [trailing_cons_of_ne other, List.length_cons]
          push_cast
          omega
        rw [← Nat.add_assoc, findEoi, getInt8, first, if_pos other, skips, target]

theorem findEoi_mono {fuel fuel' : Nat} (found : findEoi m fuel pos = some dataEnd)
    (more : fuel ≤ fuel') : findEoi m fuel' pos = some dataEnd := by
  induction fuel generalizing pos fuel' with
  | zero => cases found
  | succ fuel ih =>
      obtain ⟨fuel', rfl⟩ : ∃ rest, fuel' = rest + 1 := ⟨fuel' - 1, by omega⟩
      have less : fuel ≤ fuel' := Nat.le_of_succ_le_succ more
      rw [findEoi] at found ⊢
      split at found
      · rename_i other
        rw [if_pos other]
        exact ih found less
      · rename_i marker
        rw [if_neg marker]
        split at found
        · rename_i other
          rw [if_pos other]
          exact ih found less
        · rename_i last
          rw [if_neg last]
          exact found

theorem le_of_findEoi {fuel : Nat} (found : findEoi m fuel pos = some dataEnd) : pos ≤ dataEnd := by
  induction fuel generalizing pos with
  | zero => cases found
  | succ fuel ih =>
      rw [findEoi] at found
      split at found
      · have := ih found
        omega
      · split at found
        · have := ih found
          omega
        · exact (Option.some.inj found).le

/-- After an even run the end marker is found where it was written. -/
theorem findEoi_of_even (free : NoEoi data) (holds : Holds m pos (data ++ [0xff, 0xd9]))
    (even : trailing data % 2 = 0) : ∃ fuel, findEoi m fuel pos = some (pos + data.length) := by
  obtain ⟨steps, skips⟩ := findEoi_skip data free holds
  obtain ⟨-, marker⟩ := holds_append.mp holds
  obtain ⟨first, behind⟩ := holds_cons.mp marker
  obtain ⟨second, -⟩ := holds_cons.mp behind
  refine ⟨1 + steps, ?_⟩
  rw [skips, even, Nat.add_zero, findEoi, getInt8, first, if_neg (not_not.mpr rfl), getInt8, second,
    if_neg (not_not.mpr rfl)]

/-- After an odd run whatever is found lies behind the end marker that was written. -/
theorem le_of_findEoi_of_odd (free : NoEoi data) (holds : Holds m pos (data ++ [0xff, 0xd9]))
    (odd : trailing data % 2 = 1) {fuel : Nat} (found : findEoi m fuel pos = some dataEnd) :
    pos + data.length + 2 ≤ dataEnd := by
  obtain ⟨steps, skips⟩ := findEoi_skip data free holds
  obtain ⟨-, marker⟩ := holds_append.mp holds
  obtain ⟨-, behind⟩ := holds_cons.mp marker
  obtain ⟨second, -⟩ := holds_cons.mp behind
  have later := findEoi_mono found (show fuel ≤ fuel + 1 + steps by omega)
  have address : pos + ((data.length + 1 : Nat) : ℤ) = pos + data.length + 1 := by
    push_cast
    omega
  rw [skips, odd, address, findEoi, getInt8, second, if_pos (by decide)] at later
  have last := le_of_findEoi later
  omega

end RockchipSoc.Jpeg
