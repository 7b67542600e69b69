import Mathlib.Data.Nat.Bitwise

/-!
# Fields of registers with write-enable bits

A register keeps sixteen bits.  A word written to it carries the new bits in its low half and
one enable for each of them in its high half, so a single write updates some fields and leaves
the others alone.  A field is a mask that has been shifted into place.
-/

namespace HiwordField

/-- The word that updates one field: its value below, its mask in the enable half. -/
def hiwordUpdate (value mask shift : Nat) : BitVec 32 :=
  BitVec.ofNat 32 ((value <<< shift) ||| (mask <<< (shift + 16)))

/-- What a register holds after a word has been written to it. -/
def hiwordWrite (old : BitVec 16) (word : BitVec 32) : BitVec 16 :=
  (old &&& ~~~ word.extractLsb' 16 16) ||| (word.extractLsb' 0 16 &&& word.extractLsb' 16 16)

/-- What a register without enables holds after a field of it was changed. -/
def plainWrite (old : BitVec 16) (value mask shift : Nat) : BitVec 16 :=
  (old &&& ~~~ BitVec.ofNat 16 (mask <<< shift)) ||| BitVec.ofNat 16 (value <<< shift)

/-- The value of a field. -/
def field (reg : BitVec 16) (mask shift : Nat) : Nat :=
  (reg.toNat >>> shift) &&& mask

/-- The word enables no bit of the field. -/
def Spares (word : BitVec 32) (mask shift : Nat) : Prop :=
  (word.extractLsb' 16 16).toNat &&& (mask <<< shift) = 0

/-- Two fields of one register share no bit. -/
def Disjoint (mask shift mask' shift' : Nat) : Prop :=
  (mask <<< shift) &&& (mask' <<< shift') = 0

instance (word : BitVec 32) (mask shift : Nat) : Decidable (Spares word mask shift) :=
  inferInstanceAs (Decidable (_ = _))

instance (mask shift mask' shift' : Nat) : Decidable (Disjoint mask shift mask' shift') :=
  inferInstanceAs (Decidable (_ = _))

theorem testBit_field (reg : BitVec 16) (mask shift bit : Nat) :
    (field reg mask shift).testBit bit = (reg.getLsbD (shift + bit) && mask.testBit bit) := by
  rw [field, Nat.testBit_and, Nat.testBit_shiftRight, BitVec.testBit_toNat]

theorem getLsbD_hiwordWrite (old : BitVec 16) (word : BitVec 32) {bit : Nat} (inside : bit < 16) :
    (hiwordWrite old word).getLsbD bit =
      if word.getLsbD (16 + bit) then word.getLsbD bit else old.getLsbD bit := by
  simp only [hiwordWrite, BitVec.getLsbD_or, BitVec.getLsbD_and, BitVec.getLsbD_not,
    BitVec.getLsbD_extractLsb', inside, decide_true, Bool.true_and, Nat.zero_add]
  cases word.getLsbD (16 + bit) <;> simp

theorem testBit_enables (word : BitVec 32) {bit : Nat} (inside : bit < 16) :
    (word.extractLsb' 16 16).toNat.testBit bit = word.getLsbD (16 + bit) := by
  rw [BitVec.testBit_toNat, BitVec.getLsbD_extractLsb']
  simp [inside]

theorem getLsbD_hiwordUpdate (value mask shift : Nat) {bit : Nat} (inside : bit < 32) :
    (hiwordUpdate value mask shift).getLsbD bit =
      ((decide (shift ≤ bit) && value.testBit (bit - shift)) ||
        (decide (shift + 16 ≤ bit) && mask.testBit (bit - (shift + 16)))) := by
  rw [hiwordUpdate, BitVec.getLsbD_ofNat, Nat.testBit_or, Nat.testBit_shiftLeft,
    Nat.testBit_shiftLeft]
  simp [inside]

/-- A field whose bits are not enabled keeps its value. -/
theorem field_hiwordWrite_of_spares {old : BitVec 16} {word : BitVec 32} {mask shift : Nat}
    (spares : Spares word mask shift) :
    field (hiwordWrite old word) mask shift = field old mask shift := by
  apply Nat.eq_of_testBit_eq
  intro bit
  simp only [testBit_field]
  rcases Bool.eq_false_or_eq_true (mask.testBit bit) with inMask | outside
  · rcases Nat.lt_or_ge (shift + bit) 16 with inside | above
    · have clear := congrArg (fun n => n.testBit (shift + bit)) spares
      rw [Nat.testBit_and, testBit_enables word inside] at clear
      have disabled : word.getLsbD (16 + (shift + bit)) = false := by
        simpa [Nat.testBit_shiftLeft, inMask] using clear
      rw [getLsbD_hiwordWrite _ _ inside, disabled]
      simp
    · simp [BitVec.getLsbD_of_ge _ _ above]
  · simp [outside]

/-- An update whose value stays inside the register leaves the fields beside its own alone. -/
theorem spares_hiwordUpdate {value mask shift mask' shift' : Nat}
    (value_fits : value <<< shift < 2 ^ 16) (disjoint : Disjoint mask shift mask' shift') :
    Spares (hiwordUpdate value mask shift) mask' shift' := by
  apply Nat.eq_of_testBit_eq
  intro bit
  rw [Nat.testBit_and, Nat.zero_testBit]
  rcases Nat.lt_or_ge bit 16 with inside | above
  · have value_clear : (value <<< shift).testBit (16 + bit) = false :=
      Nat.testBit_lt_two_pow (value_fits.trans_le (Nat.pow_le_pow_right (by decide) (by omega)))
    have clear := congrArg (fun n => n.testBit bit) disjoint
    rw [Nat.testBit_and, Nat.testBit_shiftLeft, Nat.zero_testBit] at clear
    have place : decide (shift + 16 ≤ 16 + bit) = decide (shift ≤ bit) := by
      rw [decide_eq_decide]
      omega
    have index : 16 + bit - (shift + 16) = bit - shift := by omega
    rw [testBit_enables _ inside, getLsbD_hiwordUpdate _ _ _ (by omega),
      ← Nat.testBit_shiftLeft, value_clear, Bool.false_or, place, index]
    exact clear
  · rw [BitVec.testBit_toNat, BitVec.getLsbD_of_ge _ _ above, Bool.false_and]

/-- The bits of a field lie inside the register. -/
theorem bit_lt_of_mask {mask shift bit : Nat} (mask_fits : mask <<< shift < 2 ^ 16)
    (inMask : mask.testBit bit = true) : shift + bit < 16 := by
  by_contra beyond
  have low := Nat.testBit_lt_two_pow
    (mask_fits.trans_le (Nat.pow_le_pow_right (by decide) (Nat.le_of_not_lt beyond)))
  simp [Nat.testBit_shiftLeft, inMask] at low

/-- An update puts its value into its own field. -/
theorem field_hiwordUpdate {old : BitVec 16} {value mask shift : Nat}
    (mask_fits : mask <<< shift < 2 ^ 16) :
    field (hiwordWrite old (hiwordUpdate value mask shift)) mask shift = value &&& mask := by
  apply Nat.eq_of_testBit_eq
  intro bit
  rw [testBit_field, Nat.testBit_and]
  rcases Bool.eq_false_or_eq_true (mask.testBit bit) with inMask | outside
  · have inside := bit_lt_of_mask mask_fits inMask
    have enabled : (hiwordUpdate value mask shift).getLsbD (16 + (shift + bit)) = true := by
      have index : 16 + (shift + bit) - (shift + 16) = bit := by omega
      have place : shift + 16 ≤ 16 + (shift + bit) := by omega
      rw [getLsbD_hiwordUpdate _ _ _ (by omega), index, inMask]
      simp [place]
    have written : (hiwordUpdate value mask shift).getLsbD (shift + bit) = value.testBit bit := by
      have below : ¬ shift + 16 ≤ shift + bit := by omega
      rw [getLsbD_hiwordUpdate _ _ _ (by omega)]
      simp [below]
    rw [getLsbD_hiwordWrite _ _ inside, enabled, written]
    simp
  · simp [outside]

/-- A change puts its value into its own field. -/
theorem field_plainWrite {old : BitVec 16} {value mask shift : Nat}
    (mask_fits : mask <<< shift < 2 ^ 16) (inside : value &&& mask = value) :
    field (plainWrite old value mask shift) mask shift = value := by
  apply Nat.eq_of_testBit_eq
  intro bit
  have valueBit : value.testBit bit = (value.testBit bit && mask.testBit bit) := by
    rw [← Nat.testBit_and, inside]
  rw [testBit_field]
  rcases Bool.eq_false_or_eq_true (mask.testBit bit) with inMask | outside
  · have below := bit_lt_of_mask mask_fits inMask
    have index : shift + bit - shift = bit := by omega
    have place : shift ≤ shift + bit := by omega
    simp only [plainWrite, BitVec.getLsbD_or, BitVec.getLsbD_and, BitVec.getLsbD_not,
      BitVec.getLsbD_ofNat, Nat.testBit_shiftLeft, below, place, index, inMask, decide_true,
      Bool.and_true, Bool.not_true, Bool.and_false, Bool.false_or, Bool.true_and]
  · rw [valueBit, outside, Bool.and_false, Bool.and_false]

/-! ### Words with several updates -/

/-- The word neither enables nor carries a bit of the field. -/
def Clear (word : BitVec 32) (mask shift : Nat) : Prop :=
  ∀ bit, mask.testBit bit = true →
    word.getLsbD (shift + bit) = false ∧ word.getLsbD (16 + (shift + bit)) = false

theorem Clear.or {word word' : BitVec 32} {mask shift : Nat} (clear : Clear word mask shift)
    (clear' : Clear word' mask shift) : Clear (word ||| word') mask shift := by
  intro bit inMask
  rw [BitVec.getLsbD_or, BitVec.getLsbD_or, (clear bit inMask).1, (clear bit inMask).2,
    (clear' bit inMask).1, (clear' bit inMask).2]
  exact ⟨rfl, rfl⟩

/-- An update of another field is clear, once its value stays inside its field. -/
theorem clear_hiwordUpdate {value mask shift mask' shift' : Nat} (inside : value &&& mask = value)
    (mask_fits : mask <<< shift < 2 ^ 16) (mask_fits' : mask' <<< shift' < 2 ^ 16)
    (disjoint : Disjoint mask shift mask' shift') :
    Clear (hiwordUpdate value mask shift) mask' shift' := by
  intro bit inMask
  have below := bit_lt_of_mask mask_fits' inMask
  have unmasked : shift ≤ shift' + bit → mask.testBit (shift' + bit - shift) = false := by
    intro place
    have apart := congrArg (fun n => n.testBit (shift' + bit)) disjoint
    have index : shift' + bit - shift' = bit := by omega
    rw [Nat.testBit_and, Nat.testBit_shiftLeft, Nat.testBit_shiftLeft, Nat.zero_testBit, index,
      inMask] at apart
    simpa [place] using apart
  have unset : shift ≤ shift' + bit → value.testBit (shift' + bit - shift) = false := by
    intro place
    rw [← inside, Nat.testBit_and, unmasked place, Bool.and_false]
  constructor
  · rw [getLsbD_hiwordUpdate _ _ _ (by omega)]
    have early : ¬ shift + 16 ≤ shift' + bit := by
      intro late
      exact absurd late (by omega)
    by_cases place : shift ≤ shift' + bit
    · rw [unset place]
      simp [early]
    · simp [place, early]
  · rw [getLsbD_hiwordUpdate _ _ _ (by omega)]
    have index : 16 + (shift' + bit) - (shift + 16) = shift' + bit - shift := by omega
    have high : value.testBit (16 + (shift' + bit) - shift) = false := by
      rw [← inside, Nat.testBit_and]
      have outside : mask.testBit (16 + (shift' + bit) - shift) = false := by
        by_contra set
        have within := bit_lt_of_mask mask_fits (Bool.eq_true_of_not_eq_false set)
        omega
      rw [outside, Bool.and_false]
    by_cases place : shift ≤ shift' + bit
    · rw [index, unmasked place, high, Bool.and_false, Bool.and_false, Bool.or_false]
    · have early : ¬ shift + 16 ≤ 16 + (shift' + bit) := by omega
      rw [high]
      simp [early]

/-- Beside a clear word, a word does to the field what it does alone. -/
theorem field_hiwordWrite_or {old : BitVec 16} {word word' : BitVec 32} {mask shift : Nat}
    (mask_fits : mask <<< shift < 2 ^ 16) (clear : Clear word' mask shift) :
    field (hiwordWrite old (word ||| word')) mask shift =
      field (hiwordWrite old word) mask shift := by
  apply Nat.eq_of_testBit_eq
  intro bit
  rw [testBit_field, testBit_field]
  rcases Bool.eq_false_or_eq_true (mask.testBit bit) with inMask | outside
  · have inside := bit_lt_of_mask mask_fits inMask
    rw [getLsbD_hiwordWrite _ _ inside, getLsbD_hiwordWrite _ _ inside, BitVec.getLsbD_or,
      BitVec.getLsbD_or, (clear bit inMask).1, (clear bit inMask).2, Bool.or_false,
      Bool.or_false]
  · rw [outside, Bool.and_false, Bool.and_false]

/-- A clear word leaves the field alone. -/
theorem field_hiwordWrite_of_clear {old : BitVec 16} {word : BitVec 32} {mask shift : Nat}
    (mask_fits : mask <<< shift < 2 ^ 16) (clear : Clear word mask shift) :
    field (hiwordWrite old word) mask shift = field old mask shift := by
  apply Nat.eq_of_testBit_eq
  intro bit
  rw [testBit_field, testBit_field]
  rcases Bool.eq_false_or_eq_true (mask.testBit bit) with inMask | outside
  · rw [getLsbD_hiwordWrite _ _ (bit_lt_of_mask mask_fits inMask), (clear bit inMask).2]
    simp
  · rw [outside, Bool.and_false, Bool.and_false]

end HiwordField
