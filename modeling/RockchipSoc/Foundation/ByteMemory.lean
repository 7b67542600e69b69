import Mathlib.Logic.Function.Basic

/-!
# Flat little-endian byte memory

A memory is a total function from addresses to bytes.  Fields of a packed record are read and
written at fixed addresses, so two stores commute exactly when their address ranges are disjoint.
The frame theorems are stated once here, with linear side conditions on addresses.
-/

namespace ByteMemory

/-- Bytes indexed by address. -/
abbrev Bytes := Nat → UInt8

/-- Two memories agree on a half-open address range. -/
def AgreeOn (lo hi : Nat) (left right : Bytes) : Prop :=
  ∀ a, lo ≤ a → a < hi → left a = right a

theorem AgreeOn.refl (lo hi : Nat) (m : Bytes) : AgreeOn lo hi m m := fun _ _ _ => rfl

theorem AgreeOn.symm {lo hi : Nat} {left right : Bytes} (agree : AgreeOn lo hi left right) :
    AgreeOn lo hi right left := fun a lower upper => (agree a lower upper).symm

theorem AgreeOn.trans {lo hi : Nat} {left middle right : Bytes}
    (first : AgreeOn lo hi left middle) (second : AgreeOn lo hi middle right) :
    AgreeOn lo hi left right := fun a lower upper =>
  (first a lower upper).trans (second a lower upper)

theorem AgreeOn.mono {lo hi lo' hi' : Nat} {left right : Bytes}
    (agree : AgreeOn lo hi left right) (lower : lo ≤ lo') (upper : hi' ≤ hi) :
    AgreeOn lo' hi' left right := fun a above below => agree a (by omega) (by omega)

/-- Little-endian sixteen-bit load. -/
def read16 (m : Bytes) (a : Nat) : Nat :=
  (m a).toNat + 256 * (m (a + 1)).toNat

/-- Little-endian thirty-two-bit load. -/
def read32 (m : Bytes) (a : Nat) : Nat :=
  read16 m a + 65536 * read16 m (a + 2)

/-- Little-endian sixteen-bit store; the value is truncated. -/
def write16 (m : Bytes) (a v : Nat) : Bytes := fun x =>
  if x = a then UInt8.ofNat v else if x = a + 1 then UInt8.ofNat (v / 256) else m x

/-- Little-endian thirty-two-bit store; the value is truncated. -/
def write32 (m : Bytes) (a v : Nat) : Bytes :=
  write16 (write16 m a v) (a + 2) (v / 65536)

/-- Copy `n` bytes of another object to address `dst`. -/
def copyIn (m : Bytes) (dst : Nat) (src : Bytes) (n : Nat) : Bytes := fun x =>
  if dst ≤ x ∧ x < dst + n then src (x - dst) else m x

/-- Copy `n` bytes inside one memory, one byte after the other in ascending order. -/
def copyForward (m : Bytes) (dst src : Nat) : Nat → Bytes
  | 0 => m
  | n + 1 => Function.update (copyForward m dst src n) (dst + n)
      (copyForward m dst src n (src + n))

theorem read16_lt (m : Bytes) (a : Nat) : read16 m a < 65536 := by
  have low : (m a).toNat < 256 := (m a).toNat_lt
  have high : (m (a + 1)).toNat < 256 := (m (a + 1)).toNat_lt
  simp only [read16]
  omega

theorem read16_congr {left right : Bytes} {a : Nat} (low : left a = right a)
    (high : left (a + 1) = right (a + 1)) : read16 left a = read16 right a := by
  simp only [read16, low, high]

theorem AgreeOn.read16 {lo hi a : Nat} {left right : Bytes} (agree : AgreeOn lo hi left right)
    (lower : lo ≤ a) (upper : a + 2 ≤ hi) : read16 left a = read16 right a :=
  read16_congr (agree a lower (by omega)) (agree (a + 1) (by omega) (by omega))

theorem AgreeOn.read32 {lo hi a : Nat} {left right : Bytes} (agree : AgreeOn lo hi left right)
    (lower : lo ≤ a) (upper : a + 4 ≤ hi) : read32 left a = read32 right a := by
  simp only [ByteMemory.read32]
  rw [agree.read16 lower (by omega), agree.read16 (a := a + 2) (by omega) (by omega)]

theorem write16_apply_of_ne {m : Bytes} {a v x : Nat} (outside : x < a ∨ a + 2 ≤ x) :
    write16 m a v x = m x := by
  rw [write16, if_neg (by omega), if_neg (by omega)]

theorem write32_apply_of_ne {m : Bytes} {a v x : Nat} (outside : x < a ∨ a + 4 ≤ x) :
    write32 m a v x = m x := by
  rw [write32, write16_apply_of_ne (by omega), write16_apply_of_ne (by omega)]

/-- Stores to disjoint addresses commute. -/
theorem write16_comm {m : Bytes} {a b v w : Nat} (disjoint : a + 2 ≤ b ∨ b + 2 ≤ a) :
    write16 (write16 m a v) b w = write16 (write16 m b w) a v := by
  funext x
  by_cases inFirst : x = a ∨ x = a + 1
  · rw [write16_apply_of_ne (by omega)]
    rcases inFirst with rfl | rfl <;> simp [write16]
  · rw [write16_apply_of_ne (a := a) (by omega)]
    by_cases inSecond : x = b ∨ x = b + 1
    · rcases inSecond with rfl | rfl <;> simp [write16]
    · rw [write16_apply_of_ne (by omega), write16_apply_of_ne (by omega),
        write16_apply_of_ne (by omega)]

theorem read16_write16_same (m : Bytes) (a v : Nat) :
    read16 (write16 m a v) a = v % 65536 := by
  simp [read16, write16]
  omega

theorem read16_write16_of_disjoint {m : Bytes} {a b v : Nat}
    (disjoint : b + 2 ≤ a ∨ a + 2 ≤ b) : read16 (write16 m a v) b = read16 m b :=
  read16_congr (write16_apply_of_ne (by omega)) (write16_apply_of_ne (by omega))

theorem read32_write16_of_disjoint {m : Bytes} {a b v : Nat}
    (disjoint : b + 4 ≤ a ∨ a + 2 ≤ b) : read32 (write16 m a v) b = read32 m b := by
  simp only [read32]
  rw [read16_write16_of_disjoint (by omega), read16_write16_of_disjoint (by omega)]

theorem read16_write32_of_disjoint {m : Bytes} {a b v : Nat}
    (disjoint : b + 2 ≤ a ∨ a + 4 ≤ b) : read16 (write32 m a v) b = read16 m b :=
  read16_congr (write32_apply_of_ne (by omega)) (write32_apply_of_ne (by omega))

theorem read32_write32_same (m : Bytes) (a v : Nat) :
    read32 (write32 m a v) a = v % 4294967296 := by
  simp only [read32, write32]
  rw [read16_write16_of_disjoint (by omega), read16_write16_same, read16_write16_same]
  omega

theorem read32_write32_of_disjoint {m : Bytes} {a b v : Nat}
    (disjoint : b + 4 ≤ a ∨ a + 4 ≤ b) : read32 (write32 m a v) b = read32 m b := by
  simp only [read32]
  rw [read16_write32_of_disjoint (by omega), read16_write32_of_disjoint (by omega)]

theorem copyIn_apply_of_mem {m src : Bytes} {dst n x : Nat} (lower : dst ≤ x)
    (upper : x < dst + n) : copyIn m dst src n x = src (x - dst) :=
  if_pos ⟨lower, upper⟩

theorem copyIn_apply_of_notMem {m src : Bytes} {dst n x : Nat} (outside : x < dst ∨ dst + n ≤ x) :
    copyIn m dst src n x = m x :=
  if_neg (by omega)

/-- A copy depends only on the bytes it copies. -/
theorem copyIn_congr {m src src' : Bytes} {dst n : Nat} (same : ∀ k, k < n → src k = src' k) :
    copyIn m dst src n = copyIn m dst src' n := by
  funext x
  by_cases inside : dst ≤ x ∧ x < dst + n
  · rw [copyIn_apply_of_mem inside.1 inside.2, copyIn_apply_of_mem inside.1 inside.2]
    exact same _ (by omega)
  · rw [copyIn_apply_of_notMem (by omega), copyIn_apply_of_notMem (by omega)]

theorem read16_copyIn_of_disjoint {m src : Bytes} {dst n a : Nat}
    (disjoint : a + 2 ≤ dst ∨ dst + n ≤ a) : read16 (copyIn m dst src n) a = read16 m a :=
  read16_congr (copyIn_apply_of_notMem (by omega)) (copyIn_apply_of_notMem (by omega))

theorem copyForward_apply_of_notMem {m : Bytes} {dst src n x : Nat}
    (outside : x < dst ∨ dst + n ≤ x) : copyForward m dst src n x = m x := by
  induction n with
  | zero => rfl
  | succ n ih =>
      rw [copyForward, Function.update_of_ne (by omega)]
      exact ih (by omega)

/-- A forward copy to a lower or equal address moves the original bytes, overlapping or not. -/
theorem copyForward_apply_of_mem {m : Bytes} {dst src n k : Nat} (downward : dst ≤ src)
    (inside : k < n) : copyForward m dst src n (dst + k) = m (src + k) := by
  induction n with
  | zero => omega
  | succ n ih =>
      rw [copyForward]
      rcases Nat.lt_succ_iff_lt_or_eq.mp inside with earlier | rfl
      · rw [Function.update_of_ne (by omega)]
        exact ih earlier
      · rw [Function.update_self]
        exact copyForward_apply_of_notMem (by omega)

theorem read16_copyForward_of_disjoint {m : Bytes} {dst src n a : Nat}
    (disjoint : a + 2 ≤ dst ∨ dst + n ≤ a) :
    read16 (copyForward m dst src n) a = read16 m a :=
  read16_congr (copyForward_apply_of_notMem (by omega)) (copyForward_apply_of_notMem (by omega))

end ByteMemory
