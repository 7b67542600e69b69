import Mathlib.Data.Nat.Bitwise

/-!
# Entries of the IOMMU tables

`rockchip-iommu.c` keeps a directory table and page tables of 1024 words each.  An entry holds a
page address, flags and a valid bit.  The first version of the hardware keeps the low 32 bits of an
address in place; the second packs bits 35:32 and 39:36 into the reserved low bits of the entry.
`PageFormat` is what the walk over the tables needs to know of a version, laws included.
-/

namespace RockchipSoc
namespace Iommu

/-- `SPAGE_SIZE`. -/
def spageSize : ℕ := 4096

/-- `GENMASK` and `GENMASK_ULL`. -/
def genmask (high low : ℕ) : ℕ := (2 ^ (high + 1 - low) - 1) <<< low

/-- `RK_DTE_PT_ADDRESS_MASK`, `RK_PTE_PAGE_ADDRESS_MASK`, `PAGE_DESC_LO_MASK`. -/
def pageDescLoMask : ℕ := 0xfffff000

/-- `PAGE_DESC_HI_MASK1`. -/
def pageDescHiMask1 : ℕ := genmask 35 32

/-- `PAGE_DESC_HI_MASK2`. -/
def pageDescHiMask2 : ℕ := genmask 39 36

/-- `DTE_HI_MASK1`. -/
def dteHiMask1 : ℕ := genmask 11 8

/-- `DTE_HI_MASK2`. -/
def dteHiMask2 : ℕ := genmask 7 4

/-- `PAGE_DESC_HI_SHIFT1`. -/
def pageDescHiShift1 : ℕ := 32 - 8

/-- `PAGE_DESC_HI_SHIFT2`. -/
def pageDescHiShift2 : ℕ := 36 - 4

/-- `RK_DTE_PT_ADDRESS_MASK_V2`, `RK_PTE_PAGE_ADDRESS_MASK_V2`. -/
def addressMaskV2 : ℕ := 0xfffffff0

/-- `RK_DTE_PT_VALID`, `RK_PTE_PAGE_VALID`. -/
def entryValid : ℕ := 2 ^ 0

/-- `RK_PTE_PAGE_READABLE`, the same bit in both versions. -/
def pageReadable : ℕ := 2 ^ 1

/-- `RK_PTE_PAGE_WRITABLE`, the same bit in both versions. -/
def pageWritable : ℕ := 2 ^ 2

def iommuRead : ℕ := 2 ^ 0

def iommuWrite : ℕ := 2 ^ 1

def rkDteIsPtValid (dte : ℕ) : Bool := dte &&& entryValid ≠ 0

def rkPteIsPageValid (pte : ℕ) : Bool := pte &&& entryValid ≠ 0

def rkDtePtAddress (dte : ℕ) : ℕ := dte &&& pageDescLoMask

def rkMkDte (ptDma : ℕ) : ℕ := (ptDma &&& pageDescLoMask) ||| entryValid

def rkPtePageAddress (pte : ℕ) : ℕ := pte &&& pageDescLoMask

/-- The flag bits both versions of `rk_mk_pte` compute from the protection. -/
def pteFlags (prot : ℕ) : ℕ :=
  (if prot &&& iommuRead ≠ 0 then pageReadable else 0) |||
    (if prot &&& iommuWrite ≠ 0 then pageWritable else 0)

def rkMkPte (page prot : ℕ) : ℕ := (page &&& pageDescLoMask) ||| pteFlags prot ||| entryValid

/-- The address in an entry of the second version. -/
def unpackV2 (entry : ℕ) : ℕ :=
  ((entry &&& dteHiMask2) <<< pageDescHiShift2) |||
    ((entry &&& dteHiMask1) <<< pageDescHiShift1) ||| (entry &&& pageDescLoMask)

/-- The address bits of an entry of the second version. -/
def packV2 (address : ℕ) : ℕ :=
  ((address &&& pageDescLoMask) ||| ((address &&& pageDescHiMask1) >>> pageDescHiShift1) |||
    ((address &&& pageDescHiMask2) >>> pageDescHiShift2)) &&& addressMaskV2

def rkDtePtAddressV2 (dte : ℕ) : ℕ := unpackV2 dte

def rkMkDteV2 (ptDma : ℕ) : ℕ := packV2 ptDma ||| entryValid

def rkPtePageAddressV2 (pte : ℕ) : ℕ := unpackV2 pte

def rkMkPteV2 (page prot : ℕ) : ℕ := packV2 page ||| pteFlags prot ||| entryValid

/-- `pte & ~RK_PTE_PAGE_VALID`, a word of 32 bits. -/
def rkMkPteInvalid (pte : ℕ) : ℕ := pte &&& 0xfffffffe

def rkIovaDteIndex (iova : ℕ) : ℕ := (iova &&& 0xffc00000) >>> 22

def rkIovaPteIndex (iova : ℕ) : ℕ := (iova &&& 0x003ff000) >>> 12

def rkIovaPageOffset (iova : ℕ) : ℕ := iova &&& 0x00000fff

/-- The address of a page in a physical address space of that many bits. -/
def pageBase (bits address : ℕ) : ℕ := address / 2 ^ 12 % 2 ^ (bits - 12) * 2 ^ 12

/-! ## Bits -/

theorem testBit_genmask (high low bit : ℕ) :
    (genmask high low).testBit bit = (decide (low ≤ bit) && decide (bit ≤ high)) := by
  rw [genmask, Nat.testBit_shiftLeft, Nat.testBit_two_pow_sub_one]
  by_cases above : low ≤ bit
  · simp only [above, decide_true, Bool.true_and, decide_eq_decide]
    omega
  · simp [above]

theorem testBit_pageBase (bits address bit : ℕ) :
    (pageBase bits address).testBit bit =
      (decide (12 ≤ bit) && decide (bit < bits) && address.testBit bit) := by
  rw [pageBase, Nat.mul_comm, Nat.testBit_two_pow_mul, Nat.testBit_mod_two_pow,
    Nat.testBit_div_two_pow]
  by_cases above : 12 ≤ bit
  · have inside : bit - 12 < bits - 12 ↔ bit < bits := by omega
    simp only [ge_iff_le, above, decide_true, Bool.true_and, inside, Nat.sub_add_cancel above]
  · simp [above]

theorem pageDescLoMask_eq : pageDescLoMask = genmask 31 12 := by decide

theorem addressMaskV2_eq : addressMaskV2 = genmask 31 4 := by decide

theorem and_two_pow_ne_zero (word bit : ℕ) : word &&& 2 ^ bit ≠ 0 ↔ word.testBit bit = true := by
  rw [Nat.and_two_pow]
  cases word.testBit bit with
  | false => simp
  | true => simp

theorem rkPteIsPageValid_eq (pte : ℕ) : rkPteIsPageValid pte = pte.testBit 0 := by
  rw [rkPteIsPageValid, entryValid, Bool.eq_iff_iff, decide_eq_true_iff, and_two_pow_ne_zero]

theorem rkDteIsPtValid_eq (dte : ℕ) : rkDteIsPtValid dte = dte.testBit 0 := rkPteIsPageValid_eq dte

theorem testBit_entryValid (bit : ℕ) : entryValid.testBit bit = decide (0 = bit) :=
  Nat.testBit_two_pow

/-- Only the readable and the writable bit can be set among the flags. -/
theorem testBit_pteFlags (prot bit : ℕ) :
    (pteFlags prot).testBit bit =
      ((decide (1 = bit) && prot.testBit 0) || (decide (2 = bit) && prot.testBit 1)) := by
  have flag (test mask position : ℕ) :
      (if prot &&& 2 ^ test ≠ 0 then 2 ^ position else 0).testBit bit =
        (decide (position = bit) && prot.testBit test) := by
    simp only [and_two_pow_ne_zero]
    cases prot.testBit test with
    | false => simp
    | true => simp [Nat.testBit_two_pow]
  rw [pteFlags, Nat.testBit_or, iommuRead, iommuWrite, pageReadable, pageWritable, flag 0 0 1,
    flag 1 0 2]

theorem testBit_packV2 (address bit : ℕ) :
    (packV2 address).testBit bit =
      (if 12 ≤ bit then decide (bit < 32) && address.testBit bit
      else if 8 ≤ bit then address.testBit (bit + 24)
      else decide (4 ≤ bit) && address.testBit (bit + 32)) := by
  simp only [packV2, pageDescLoMask_eq, addressMaskV2_eq, pageDescHiMask1, pageDescHiMask2,
    pageDescHiShift1, pageDescHiShift2, Nat.testBit_and, Nat.testBit_or, Nat.testBit_shiftRight,
    testBit_genmask]
  grind

theorem testBit_unpackV2 (entry bit : ℕ) :
    (unpackV2 entry).testBit bit =
      (if bit < 32 then decide (12 ≤ bit) && entry.testBit bit
      else if bit < 36 then entry.testBit (bit - 24)
      else decide (bit < 40) && entry.testBit (bit - 32)) := by
  simp only [unpackV2, pageDescLoMask_eq, dteHiMask1, dteHiMask2, pageDescHiShift1,
    pageDescHiShift2, Nat.testBit_and, Nat.testBit_or, Nat.testBit_shiftLeft, testBit_genmask]
  grind

/-- A word without bits above the 31st. -/
theorem lt_word {word : ℕ} (clear : ∀ bit, 32 ≤ bit → word.testBit bit = false) :
    word < 2 ^ 32 := Nat.lt_pow_two_of_testBit word clear

/-- Unpacking undoes packing; the lowest four bits of an entry are no part of the address. -/
theorem unpackV2_packV2 (address : ℕ) {flags : ℕ}
    (low : ∀ bit, 4 ≤ bit → flags.testBit bit = false) :
    unpackV2 (packV2 address ||| flags) = pageBase 40 address := by
  apply Nat.eq_of_testBit_eq
  intro bit
  rw [testBit_unpackV2, testBit_pageBase]
  simp only [Nat.testBit_or, testBit_packV2]
  by_cases inPlace : bit < 32
  · by_cases page : 12 ≤ bit
    · simp [inPlace, page, low bit (by omega), Nat.lt_trans inPlace (by decide : 32 < 40)]
    · simp [inPlace, page]
  · have page : 12 ≤ bit := by omega
    by_cases first : bit < 36
    · have place : ¬12 ≤ bit - 24 ∧ 8 ≤ bit - 24 := by omega
      simp [inPlace, page, first, place, low (bit - 24) (by omega),
        Nat.sub_add_cancel (by omega : 24 ≤ bit), Nat.lt_trans first (by decide : 36 < 40)]
    · by_cases second : bit < 40
      · have place : ¬12 ≤ bit - 32 ∧ ¬8 ≤ bit - 32 ∧ 4 ≤ bit - 32 := by omega
        simp [inPlace, page, first, second, place, low (bit - 32) (by omega),
          Nat.sub_add_cancel (by omega : 32 ≤ bit)]
      · simp [inPlace, page, first, second]

/-! ## The two versions -/

/-- What an entry grants: a physical page and two permissions. -/
structure PageEntry where
  address : ℕ
  readable : Bool
  writable : Bool
  deriving DecidableEq, Repr

/-- What a caller asks for, cut down to the address bits of the hardware. -/
def PageEntry.granted (bits page prot : ℕ) : PageEntry :=
  { address := pageBase bits page
    readable := prot.testBit 0
    writable := prot.testBit 1 }

/-- The entry functions of one version of the hardware, with the laws that the tables need. -/
structure PageFormat where
  addressBits : ℕ
  mkDte : ℕ → ℕ
  dtePtAddress : ℕ → ℕ
  mkPte : ℕ → ℕ → ℕ
  ptePageAddress : ℕ → ℕ
  addressBits_ge : 32 ≤ addressBits
  addressBits_le : addressBits ≤ 64
  mkDte_lt : ∀ ptDma, mkDte ptDma < 2 ^ 32
  mkPte_lt : ∀ page prot, mkPte page prot < 2 ^ 32
  isValid_mkDte : ∀ ptDma, rkDteIsPtValid (mkDte ptDma) = true
  dtePtAddress_mkDte : ∀ ptDma, dtePtAddress (mkDte ptDma) = pageBase addressBits ptDma
  isValid_mkPte : ∀ page prot, rkPteIsPageValid (mkPte page prot) = true
  ptePageAddress_mkPte : ∀ page prot, ptePageAddress (mkPte page prot) = pageBase addressBits page
  readable_mkPte : ∀ page prot, (mkPte page prot).testBit 1 = prot.testBit 0
  writable_mkPte : ∀ page prot, (mkPte page prot).testBit 2 = prot.testBit 1

/-- The hardware's reading of a valid entry. -/
def PageFormat.decode (format : PageFormat) (pte : ℕ) : PageEntry :=
  { address := format.ptePageAddress pte
    readable := pte.testBit 1
    writable := pte.testBit 2 }

theorem PageFormat.decode_mkPte (format : PageFormat) (page prot : ℕ) :
    format.decode (format.mkPte page prot) = .granted format.addressBits page prot := by
  simp only [decode, PageEntry.granted, format.ptePageAddress_mkPte, format.readable_mkPte,
    format.writable_mkPte]

/-- Version 1: addresses of 32 bits. -/
def formatV1 : PageFormat where
  addressBits := 32
  mkDte := rkMkDte
  dtePtAddress := rkDtePtAddress
  mkPte := rkMkPte
  ptePageAddress := rkPtePageAddress
  addressBits_ge := Nat.le_refl 32
  addressBits_le := by decide
  mkDte_lt ptDma := by
    refine lt_word fun bit high => ?_
    simp only [rkMkDte, pageDescLoMask_eq, Nat.testBit_or, Nat.testBit_and, testBit_genmask,
      testBit_entryValid]
    grind
  mkPte_lt page prot := by
    refine lt_word fun bit high => ?_
    simp only [rkMkPte, pageDescLoMask_eq, Nat.testBit_or, Nat.testBit_and, testBit_genmask,
      testBit_pteFlags, testBit_entryValid]
    grind
  isValid_mkDte ptDma := by
    rw [rkDteIsPtValid_eq, rkMkDte, Nat.testBit_or, testBit_entryValid, decide_eq_true rfl,
      Bool.or_true]
  dtePtAddress_mkDte ptDma := by
    apply Nat.eq_of_testBit_eq
    intro bit
    simp only [rkDtePtAddress, rkMkDte, pageDescLoMask_eq, Nat.testBit_and, Nat.testBit_or,
      testBit_genmask, testBit_entryValid, testBit_pageBase]
    grind
  isValid_mkPte page prot := by
    rw [rkPteIsPageValid_eq, rkMkPte, Nat.testBit_or, testBit_entryValid, decide_eq_true rfl,
      Bool.or_true]
  ptePageAddress_mkPte page prot := by
    apply Nat.eq_of_testBit_eq
    intro bit
    simp only [rkPtePageAddress, rkMkPte, pageDescLoMask_eq, Nat.testBit_and, Nat.testBit_or,
      testBit_genmask, testBit_entryValid, testBit_pteFlags, testBit_pageBase]
    grind
  readable_mkPte page prot := by
    simp [rkMkPte, pageDescLoMask_eq, testBit_genmask, testBit_entryValid, testBit_pteFlags]
  writable_mkPte page prot := by
    simp [rkMkPte, pageDescLoMask_eq, testBit_genmask, testBit_entryValid, testBit_pteFlags]

/-- Version 2: addresses of 40 bits. -/
def formatV2 : PageFormat where
  addressBits := 40
  mkDte := rkMkDteV2
  dtePtAddress := rkDtePtAddressV2
  mkPte := rkMkPteV2
  ptePageAddress := rkPtePageAddressV2
  addressBits_ge := by decide
  addressBits_le := by decide
  mkDte_lt ptDma := by
    refine lt_word fun bit high => ?_
    simp only [rkMkDteV2, Nat.testBit_or, testBit_packV2, testBit_entryValid]
    grind
  mkPte_lt page prot := by
    refine lt_word fun bit high => ?_
    simp only [rkMkPteV2, Nat.testBit_or, testBit_packV2, testBit_pteFlags, testBit_entryValid]
    grind
  isValid_mkDte ptDma := by
    rw [rkDteIsPtValid_eq, rkMkDteV2, Nat.testBit_or, testBit_entryValid, decide_eq_true rfl,
      Bool.or_true]
  dtePtAddress_mkDte ptDma := unpackV2_packV2 ptDma fun bit high => by
    rw [testBit_entryValid, decide_eq_false (by omega)]
  isValid_mkPte page prot := by
    rw [rkPteIsPageValid_eq, rkMkPteV2, Nat.testBit_or, testBit_entryValid, decide_eq_true rfl,
      Bool.or_true]
  ptePageAddress_mkPte page prot := by
    rw [rkPtePageAddressV2, rkMkPteV2, Nat.or_assoc]
    refine unpackV2_packV2 page fun bit high => ?_
    simp only [Nat.testBit_or, testBit_pteFlags, testBit_entryValid]
    grind
  readable_mkPte page prot := by
    simp [rkMkPteV2, testBit_packV2, testBit_entryValid, testBit_pteFlags]
  writable_mkPte page prot := by
    simp [rkMkPteV2, testBit_packV2, testBit_entryValid, testBit_pteFlags]

/-- An aligned page address that fits survives. -/
theorem pageBase_of_lt {bits address : ℕ} (aligned : address % spageSize = 0)
    (wide : 12 ≤ bits) (fits : address < 2 ^ bits) : pageBase bits address = address := by
  have width : 2 ^ bits = 2 ^ (bits - 12) * 2 ^ 12 := by
    rw [← Nat.pow_add, Nat.sub_add_cancel wide]
  have page : address / 2 ^ 12 < 2 ^ (bits - 12) := Nat.div_lt_of_lt_mul (by
    rw [Nat.mul_comm, ← width]
    exact fits)
  rw [pageBase, Nat.mod_eq_of_lt page]
  exact Nat.div_mul_cancel (Nat.dvd_of_mod_eq_zero aligned)

/-- Physical addresses are 64 bits wide, more than any entry keeps. -/
theorem pageBase_word {bits : ℕ} (narrow : bits ≤ 64) (address : ℕ) :
    pageBase bits (address % 2 ^ 64) = pageBase bits address := by
  apply Nat.eq_of_testBit_eq
  intro bit
  simp only [testBit_pageBase, Nat.testBit_mod_two_pow]
  grind

/-- An invalidated entry is invalid. -/
theorem isValid_rkMkPteInvalid (pte : ℕ) : rkPteIsPageValid (rkMkPteInvalid pte) = false := by
  have mask : (0xfffffffe : ℕ) = genmask 31 1 := by decide
  rw [rkPteIsPageValid_eq, rkMkPteInvalid, mask, Nat.testBit_and, testBit_genmask]
  simp

/-! ## The address of the directory -/

/-- `DT_HI_MASK`. -/
def dtHiMask : ℕ := genmask 39 32

/-- `DTE_BASE_HI_MASK`. -/
def dteBaseHiMask : ℕ := genmask 11 4

/-- `DT_SHIFT`. -/
def dtShift : ℕ := 28

/-- What `rk_iommu_enable` writes to `RK_MMU_DTE_ADDR`, a register of 32 bits. -/
def mmuDteAddr (version dtDma : ℕ) : ℕ :=
  if 2 ≤ version then (dtDma &&& pageDescLoMask) ||| ((dtDma &&& dtHiMask) >>> dtShift)
  else dtDma % 2 ^ 32

/-- The directory that `log_iova` finds with the register. -/
def mmuDteAddrPhys (version register : ℕ) : ℕ :=
  if 2 ≤ version then
    (register &&& pageDescLoMask) ||| ((register &&& dteBaseHiMask) <<< dtShift)
  else register

/-- The register names the directory, as far as the hardware can address it. -/
theorem mmuDteAddrPhys_mmuDteAddr {version bits dtDma : ℕ} (aligned : dtDma % spageSize = 0)
    (fits : dtDma < 2 ^ bits) (width : bits = if 2 ≤ version then 40 else 32) :
    mmuDteAddrPhys version (mmuDteAddr version dtDma) = dtDma := by
  by_cases second : 2 ≤ version
  · rw [if_pos second] at width
    subst width
    have base : pageBase 40 dtDma = dtDma := pageBase_of_lt aligned (by decide) fits
    rw [mmuDteAddrPhys, mmuDteAddr, if_pos second, if_pos second]
    conv_rhs => rw [← base]
    apply Nat.eq_of_testBit_eq
    intro bit
    simp only [pageDescLoMask_eq, dtHiMask, dteBaseHiMask, dtShift, Nat.testBit_or,
      Nat.testBit_and, Nat.testBit_shiftLeft, Nat.testBit_shiftRight, testBit_genmask,
      testBit_pageBase]
    by_cases inPlace : bit < 32
    · by_cases page : 12 ≤ bit
      · simp [page, show bit ≤ 31 by omega, show bit < 40 by omega, show ¬28 + bit ≤ 39 by omega,
          show ¬4 ≤ bit - 28 by omega]
      · simp [page, show ¬28 ≤ bit by omega]
    · by_cases inside : bit < 40
      · simp [inside, show 28 ≤ bit by omega, show 12 ≤ bit by omega, show 32 ≤ bit by omega,
          show bit ≤ 39 by omega, show ¬bit ≤ 31 by omega, show 4 ≤ bit - 28 by omega,
          show bit - 28 ≤ 11 by omega, show ¬12 ≤ bit - 28 by omega,
          show 28 + (bit - 28) = bit by omega]
      · simp [inside, show ¬bit ≤ 31 by omega, show ¬bit - 28 ≤ 11 by omega]
  · rw [if_neg second] at width
    subst width
    rw [mmuDteAddrPhys, mmuDteAddr, if_neg second, if_neg second, Nat.mod_eq_of_lt fits]

/-! ## Parts of an iova -/

theorem rkIovaDteIndex_eq (iova : ℕ) : rkIovaDteIndex iova = iova / 2 ^ 22 % 1024 := by
  have mask : (0xffc00000 : ℕ) = genmask 31 22 := by decide
  apply Nat.eq_of_testBit_eq
  intro bit
  rw [rkIovaDteIndex, mask, show (1024 : ℕ) = 2 ^ 10 from rfl, Nat.testBit_mod_two_pow,
    Nat.testBit_div_two_pow, Nat.testBit_shiftRight, Nat.testBit_and, testBit_genmask]
  grind

theorem rkIovaPteIndex_eq (iova : ℕ) : rkIovaPteIndex iova = iova / 2 ^ 12 % 1024 := by
  have mask : (0x003ff000 : ℕ) = genmask 21 12 := by decide
  apply Nat.eq_of_testBit_eq
  intro bit
  rw [rkIovaPteIndex, mask, show (1024 : ℕ) = 2 ^ 10 from rfl, Nat.testBit_mod_two_pow,
    Nat.testBit_div_two_pow, Nat.testBit_shiftRight, Nat.testBit_and, testBit_genmask]
  grind

theorem rkIovaPageOffset_eq (iova : ℕ) : rkIovaPageOffset iova = iova % spageSize :=
  Nat.and_two_pow_sub_one_eq_mod iova 12

end Iommu
end RockchipSoc
