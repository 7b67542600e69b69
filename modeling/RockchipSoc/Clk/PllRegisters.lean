import RockchipSoc.Foundation.HiwordField

/-!
# Registers of PLLs

The parameters of a PLL are kept in fields of its first four registers.  The fractional PLLs of
RK3036 and RK3399 place the same parameters differently.  The PLL of RK3066 has parameters of its
own, each stored less one.  Only the register of the fraction has no write-enable bits.
-/

namespace RockchipSoc
namespace Clk

open HiwordField

/-- The members of `struct rockchip_pll_rate_table` for RK3036 and RK3399. -/
@[ext]
structure Rk3036Params where
  fbdiv : ℕ
  postdiv1 : ℕ
  refdiv : ℕ
  postdiv2 : ℕ
  dsmpd : ℕ
  frac : ℕ
  deriving DecidableEq, Repr

/-- The members of `struct rockchip_pll_rate_table` for RK3066. -/
@[ext]
structure Rk3066Params where
  nr : ℕ
  nf : ℕ
  no : ℕ
  nb : ℕ
  deriving DecidableEq, Repr

/-- The parameters that the fields hold. -/
structure Rk3036Params.Fits (params : Rk3036Params) : Prop where
  fbdiv : params.fbdiv < 2 ^ 12
  postdiv1 : params.postdiv1 < 2 ^ 3
  refdiv : params.refdiv < 2 ^ 6
  postdiv2 : params.postdiv2 < 2 ^ 3
  dsmpd : params.dsmpd < 2 ^ 1
  frac : params.frac < 2 ^ 24

structure Rk3066Params.Fits (params : Rk3066Params) : Prop where
  nr : 1 ≤ params.nr ∧ params.nr ≤ 2 ^ 6
  nf : 1 ≤ params.nf ∧ params.nf ≤ 2 ^ 13
  no : 1 ≤ params.no ∧ params.no ≤ 2 ^ 4
  nb : 1 ≤ params.nb ∧ params.nb ≤ 2 ^ 12

/-! ### The fraction -/

/-- `RK3036_PLLCON2_FRAC_MASK`, the same for RK3399. -/
def fracMask : ℕ := 0xffffff

def fracField (reg : BitVec 32) : ℕ := reg.toNat &&& fracMask

/-- The register of the fraction behind a change: the old fraction is cleared. -/
def fracWrite (reg : BitVec 32) (frac : ℕ) : BitVec 32 :=
  (reg &&& ~~~ BitVec.ofNat 32 fracMask) ||| BitVec.ofNat 32 frac

theorem fracField_lt (reg : BitVec 32) : fracField reg < 2 ^ 24 :=
  Nat.lt_succ_of_le Nat.and_le_right

theorem fracField_fracWrite (reg : BitVec 32) {frac : ℕ} (fits : frac < 2 ^ 24) :
    fracField (fracWrite reg frac) = frac := by
  apply Nat.eq_of_testBit_eq
  intro bit
  have mask : fracMask.testBit bit = decide (bit < 24) := Nat.testBit_two_pow_sub_one 24 bit
  rw [fracField, Nat.testBit_and, BitVec.testBit_toNat, mask]
  by_cases inside : bit < 24
  · simp only [fracWrite, BitVec.getLsbD_or, BitVec.getLsbD_and, BitVec.getLsbD_not,
      BitVec.getLsbD_ofNat, mask, inside, show bit < 32 by omega, decide_true, Bool.and_true,
      Bool.not_true, Bool.and_false, Bool.false_or, Bool.true_and]
  · have beyond := Nat.testBit_lt_two_pow
      (fits.trans_le (Nat.pow_le_pow_right (by decide) (Nat.le_of_not_lt inside)))
    simp [inside, beyond]

/-! ### RK3036 -/

@[ext]
structure Rk3036Con where
  con0 : BitVec 16
  con1 : BitVec 16
  con2 : BitVec 32
  deriving DecidableEq

/-- `rockchip_rk3036_pll_get_params`. -/
def rockchipRk3036PllGetParams (con : Rk3036Con) : Rk3036Params where
  fbdiv := field con.con0 0xfff 0
  postdiv1 := field con.con0 0x7 12
  refdiv := field con.con1 0x3f 0
  postdiv2 := field con.con1 0x7 6
  dsmpd := field con.con1 0x1 12
  frac := fracField con.con2

/-- The registers that `rockchip_rk3036_pll_set_params` writes. -/
def rk3036PllUpdate (con : Rk3036Con) (rate : Rk3036Params) : Rk3036Con where
  con0 := hiwordWrite con.con0
    (hiwordUpdate rate.fbdiv 0xfff 0 ||| hiwordUpdate rate.postdiv1 0x7 12)
  con1 := hiwordWrite con.con1
    (hiwordUpdate rate.refdiv 0x3f 0 ||| hiwordUpdate rate.postdiv2 0x7 6 |||
      hiwordUpdate rate.dsmpd 0x1 12)
  con2 := fracWrite con.con2 rate.frac

/-! ### RK3399 -/

@[ext]
structure Rk3399Con where
  con0 : BitVec 16
  con1 : BitVec 16
  con2 : BitVec 32
  con3 : BitVec 16
  deriving DecidableEq

/-- `rockchip_rk3399_pll_get_params`. -/
def rockchipRk3399PllGetParams (con : Rk3399Con) : Rk3036Params where
  fbdiv := field con.con0 0xfff 0
  refdiv := field con.con1 0x3f 0
  postdiv1 := field con.con1 0x7 8
  postdiv2 := field con.con1 0x7 12
  frac := fracField con.con2
  dsmpd := field con.con3 0x1 3

/-- The registers that `rockchip_rk3399_pll_set_params` writes.  The PLL is powered down
meanwhile. -/
def rk3399PllUpdate (con : Rk3399Con) (rate : Rk3036Params) : Rk3399Con where
  con0 := hiwordWrite con.con0 (hiwordUpdate rate.fbdiv 0xfff 0)
  con1 := hiwordWrite con.con1
    (hiwordUpdate rate.refdiv 0x3f 0 ||| hiwordUpdate rate.postdiv1 0x7 8 |||
      hiwordUpdate rate.postdiv2 0x7 12)
  con2 := fracWrite con.con2 rate.frac
  con3 := hiwordWrite
    (hiwordWrite (hiwordWrite con.con3 (hiwordUpdate 1 1 0)) (hiwordUpdate rate.dsmpd 0x1 3))
    (hiwordUpdate 0 1 0)

/-! ### RK3066 -/

@[ext]
structure Rk3066Con where
  con0 : BitVec 16
  con1 : BitVec 16
  con2 : BitVec 16
  con3 : BitVec 16
  deriving DecidableEq

/-- `rockchip_rk3066_pll_get_params`. -/
def rockchipRk3066PllGetParams (con : Rk3066Con) : Rk3066Params where
  nr := field con.con0 0x3f 8 + 1
  no := field con.con0 0xf 0 + 1
  nf := field con.con1 0x1fff 0 + 1
  nb := field con.con2 0xfff 0 + 1

/-- A parameter less one, as an `unsigned int`. -/
def lessOne (param : ℕ) : ℕ := (param + 2 ^ 32 - 1) % 2 ^ 32

/-- The registers that `rockchip_rk3066_pll_set_params` writes.  The PLL is in reset meanwhile. -/
def rk3066PllUpdate (con : Rk3066Con) (rate : Rk3066Params) : Rk3066Con where
  con0 := hiwordWrite con.con0
    (hiwordUpdate (lessOne rate.nr) 0x3f 8 ||| hiwordUpdate (lessOne rate.no) 0xf 0)
  con1 := hiwordWrite con.con1 (hiwordUpdate (lessOne rate.nf) 0x1fff 0)
  con2 := hiwordWrite con.con2 (hiwordUpdate (lessOne rate.nb) 0xfff 0)
  con3 := hiwordWrite (hiwordWrite con.con3 (hiwordUpdate (1 <<< 5) (1 <<< 5) 0))
    (hiwordUpdate 0 (1 <<< 5) 0)

/-- `RK3066_PLLCON3_BYPASS`. -/
def rk3066Bypassed (con : Rk3066Con) : Bool := con.con3.getLsbD 0

/-! ### Rates -/

/-- The members of `struct rockchip_clk_pll` for adaptive scaling. -/
structure PllScale where
  sel : ℤ
  scaling : ℕ
  deriving DecidableEq

/-- The rate of a fractional PLL. -/
def fracPllRate (cur : Rk3036Params) (prate : ℕ) : ℕ :=
  let rate64 := prate * cur.fbdiv % 2 ^ 64 / cur.refdiv
  let fracRate64 := prate * cur.frac % 2 ^ 64 / cur.refdiv
  let sum := if cur.dsmpd = 0 then (rate64 + fracRate64 >>> 24) % 2 ^ 64 else rate64
  sum / cur.postdiv1 / cur.postdiv2

/-- `rockchip_rk3036_pll_recalc_rate`. -/
def rockchipRk3036PllRecalcRate (pll : PllScale) (con : Rk3036Con) (prate : ℕ) : ℕ :=
  if pll.sel ≠ 0 ∧ pll.scaling ≠ 0 then pll.scaling
  else fracPllRate (rockchipRk3036PllGetParams con) prate

/-- `rockchip_rk3399_pll_recalc_rate`. -/
def rockchipRk3399PllRecalcRate (pll : PllScale) (con : Rk3399Con) (prate : ℕ) : ℕ :=
  if pll.sel ≠ 0 ∧ pll.scaling ≠ 0 then pll.scaling
  else fracPllRate (rockchipRk3399PllGetParams con) prate

/-- The rate of a PLL of RK3066. -/
def rk3066PllRate (cur : Rk3066Params) (prate : ℕ) : ℕ :=
  prate * cur.nf % 2 ^ 64 / cur.nr / cur.no

/-- `rockchip_rk3066_pll_recalc_rate`. -/
def rockchipRk3066PllRecalcRate (pll : PllScale) (con : Rk3066Con) (prate : ℕ) : ℕ :=
  if rk3066Bypassed con then prate
  else if pll.sel ≠ 0 ∧ pll.scaling ≠ 0 then pll.scaling
  else rk3066PllRate (rockchipRk3066PllGetParams con) prate

/-! ### What is written is read back -/

theorem and_mask {value bits : ℕ} (fits : value < 2 ^ bits) : value &&& (2 ^ bits - 1) = value := by
  rw [Nat.and_two_pow_sub_one_eq_mod, Nat.mod_eq_of_lt fits]

variable {mask shift mask' shift' mask'' shift'' value value' value'' : ℕ} {old : BitVec 16}

/-- The first of two fields. -/
theorem field_of_two (inside : value &&& mask = value) (inside' : value' &&& mask' = value')
    (mask_fits : mask <<< shift < 2 ^ 16) (mask_fits' : mask' <<< shift' < 2 ^ 16)
    (disjoint : Disjoint mask' shift' mask shift) :
    field (hiwordWrite old (hiwordUpdate value mask shift ||| hiwordUpdate value' mask' shift'))
      mask shift = value := by
  rw [field_hiwordWrite_or mask_fits (clear_hiwordUpdate inside' mask_fits' mask_fits disjoint),
    field_hiwordUpdate mask_fits, inside]

/-- The second of two fields. -/
theorem field_of_two' (inside : value &&& mask = value) (inside' : value' &&& mask' = value')
    (mask_fits : mask <<< shift < 2 ^ 16) (mask_fits' : mask' <<< shift' < 2 ^ 16)
    (disjoint : Disjoint mask shift mask' shift') :
    field (hiwordWrite old (hiwordUpdate value mask shift ||| hiwordUpdate value' mask' shift'))
      mask' shift' = value' := by
  rw [BitVec.or_comm]
  exact field_of_two inside' inside mask_fits' mask_fits disjoint

/-- The last of three fields. -/
theorem field_of_three (inside : value &&& mask = value) (inside' : value' &&& mask' = value')
    (inside'' : value'' &&& mask'' = value'')
    (mask_fits : mask <<< shift < 2 ^ 16) (mask_fits' : mask' <<< shift' < 2 ^ 16)
    (mask_fits'' : mask'' <<< shift'' < 2 ^ 16)
    (disjoint : Disjoint mask shift mask'' shift'')
    (disjoint' : Disjoint mask' shift' mask'' shift'') :
    field (hiwordWrite old (hiwordUpdate value mask shift ||| hiwordUpdate value' mask' shift' |||
      hiwordUpdate value'' mask'' shift'')) mask'' shift'' = value'' := by
  have clear := clear_hiwordUpdate inside mask_fits mask_fits'' disjoint
  have clear' := clear_hiwordUpdate inside' mask_fits' mask_fits'' disjoint'
  rw [BitVec.or_comm, field_hiwordWrite_or mask_fits'' (clear.or clear'),
    field_hiwordUpdate mask_fits'', inside'']

theorem rk3036_getParams_update (con : Rk3036Con) {rate : Rk3036Params} (fits : rate.Fits) :
    rockchipRk3036PllGetParams (rk3036PllUpdate con rate) = rate := by
  have fbdiv : rate.fbdiv &&& 0xfff = rate.fbdiv := and_mask fits.fbdiv
  have postdiv1 : rate.postdiv1 &&& 0x7 = rate.postdiv1 := and_mask fits.postdiv1
  have refdiv : rate.refdiv &&& 0x3f = rate.refdiv := and_mask fits.refdiv
  have postdiv2 : rate.postdiv2 &&& 0x7 = rate.postdiv2 := and_mask fits.postdiv2
  have dsmpd : rate.dsmpd &&& 0x1 = rate.dsmpd := and_mask fits.dsmpd
  have clear : Clear (hiwordUpdate rate.dsmpd 0x1 12) 0x3f 0 :=
    clear_hiwordUpdate dsmpd (by decide) (by decide) (by decide)
  have clear' : Clear (hiwordUpdate rate.dsmpd 0x1 12) 0x7 6 :=
    clear_hiwordUpdate dsmpd (by decide) (by decide) (by decide)
  apply Rk3036Params.ext
  · exact field_of_two fbdiv postdiv1 (by decide) (by decide) (by decide)
  · exact field_of_two' fbdiv postdiv1 (by decide) (by decide) (by decide)
  · exact (field_hiwordWrite_or (by decide) clear).trans
      (field_of_two refdiv postdiv2 (by decide) (by decide) (by decide))
  · exact (field_hiwordWrite_or (by decide) clear').trans
      (field_of_two' refdiv postdiv2 (by decide) (by decide) (by decide))
  · exact field_of_three refdiv postdiv2 dsmpd (by decide) (by decide) (by decide) (by decide)
      (by decide)
  · exact fracField_fracWrite con.con2 fits.frac

theorem rk3399_getParams_update (con : Rk3399Con) {rate : Rk3036Params} (fits : rate.Fits) :
    rockchipRk3399PllGetParams (rk3399PllUpdate con rate) = rate := by
  have fbdiv : rate.fbdiv &&& 0xfff = rate.fbdiv := and_mask fits.fbdiv
  have postdiv1 : rate.postdiv1 &&& 0x7 = rate.postdiv1 := and_mask fits.postdiv1
  have refdiv : rate.refdiv &&& 0x3f = rate.refdiv := and_mask fits.refdiv
  have postdiv2 : rate.postdiv2 &&& 0x7 = rate.postdiv2 := and_mask fits.postdiv2
  have dsmpd : rate.dsmpd &&& 0x1 = rate.dsmpd := and_mask fits.dsmpd
  have clear : Clear (hiwordUpdate rate.postdiv2 0x7 12) 0x3f 0 :=
    clear_hiwordUpdate postdiv2 (by decide) (by decide) (by decide)
  have clear' : Clear (hiwordUpdate rate.postdiv2 0x7 12) 0x7 8 :=
    clear_hiwordUpdate postdiv2 (by decide) (by decide) (by decide)
  have powered : Clear (hiwordUpdate 0 1 0) 0x1 3 :=
    clear_hiwordUpdate (by decide) (by decide) (by decide) (by decide)
  apply Rk3036Params.ext
  · exact (field_hiwordUpdate (by decide)).trans fbdiv
  · exact (field_hiwordWrite_or (by decide) clear').trans
      (field_of_two' refdiv postdiv1 (by decide) (by decide) (by decide))
  · exact (field_hiwordWrite_or (by decide) clear).trans
      (field_of_two refdiv postdiv1 (by decide) (by decide) (by decide))
  · exact field_of_three refdiv postdiv1 postdiv2 (by decide) (by decide) (by decide) (by decide)
      (by decide)
  · exact (field_hiwordWrite_of_clear (by decide) powered).trans
      ((field_hiwordUpdate (by decide)).trans dsmpd)
  · exact fracField_fracWrite con.con2 fits.frac

theorem lessOne_eq {param bits : ℕ} (narrow : bits ≤ 32) (fits : 1 ≤ param ∧ param ≤ 2 ^ bits) :
    lessOne param = param - 1 ∧ lessOne param < 2 ^ bits := by
  have bound : 2 ^ bits ≤ 2 ^ 32 := Nat.pow_le_pow_right (by decide) narrow
  unfold lessOne
  omega

theorem rk3066_getParams_update (con : Rk3066Con) {rate : Rk3066Params} (fits : rate.Fits) :
    rockchipRk3066PllGetParams (rk3066PllUpdate con rate) = rate := by
  obtain ⟨nrEq, nrLt⟩ := lessOne_eq (by decide) fits.nr
  obtain ⟨nfEq, nfLt⟩ := lessOne_eq (by decide) fits.nf
  obtain ⟨noEq, noLt⟩ := lessOne_eq (by decide) fits.no
  obtain ⟨nbEq, nbLt⟩ := lessOne_eq (by decide) fits.nb
  have nr : lessOne rate.nr &&& 0x3f = lessOne rate.nr := and_mask nrLt
  have nf : lessOne rate.nf &&& 0x1fff = lessOne rate.nf := and_mask nfLt
  have no : lessOne rate.no &&& 0xf = lessOne rate.no := and_mask noLt
  have nb : lessOne rate.nb &&& 0xfff = lessOne rate.nb := and_mask nbLt
  have nrField : field (rk3066PllUpdate con rate).con0 0x3f 8 = lessOne rate.nr :=
    field_of_two nr no (by decide) (by decide) (by decide)
  have noField : field (rk3066PllUpdate con rate).con0 0xf 0 = lessOne rate.no :=
    field_of_two' nr no (by decide) (by decide) (by decide)
  have nfField : field (rk3066PllUpdate con rate).con1 0x1fff 0 = lessOne rate.nf :=
    (field_hiwordUpdate (by decide)).trans nf
  have nbField : field (rk3066PllUpdate con rate).con2 0xfff 0 = lessOne rate.nb :=
    (field_hiwordUpdate (by decide)).trans nb
  rw [rockchipRk3066PllGetParams, nrField, noField, nfField, nbField, nrEq, nfEq, noEq, nbEq]
  apply Rk3066Params.ext
  · exact Nat.sub_add_cancel fits.nr.1
  · exact Nat.sub_add_cancel fits.nf.1
  · exact Nat.sub_add_cancel fits.no.1
  · exact Nat.sub_add_cancel fits.nb.1

/-! ### What is read fits -/

theorem field_lt (bits : ℕ) (reg : BitVec 16) {mask shift : ℕ} (width : mask = 2 ^ bits - 1) :
    field reg mask shift < 2 ^ bits := by
  have positive : 0 < 2 ^ bits := Nat.two_pow_pos bits
  have le : field reg mask shift ≤ mask := Nat.and_le_right
  omega

theorem rk3036_getParams_fits (con : Rk3036Con) : (rockchipRk3036PllGetParams con).Fits where
  fbdiv := field_lt 12 con.con0 rfl
  postdiv1 := field_lt 3 con.con0 rfl
  refdiv := field_lt 6 con.con1 rfl
  postdiv2 := field_lt 3 con.con1 rfl
  dsmpd := field_lt 1 con.con1 rfl
  frac := fracField_lt con.con2

theorem rk3399_getParams_fits (con : Rk3399Con) : (rockchipRk3399PllGetParams con).Fits where
  fbdiv := field_lt 12 con.con0 rfl
  postdiv1 := field_lt 3 con.con1 rfl
  refdiv := field_lt 6 con.con1 rfl
  postdiv2 := field_lt 3 con.con1 rfl
  dsmpd := field_lt 1 con.con3 rfl
  frac := fracField_lt con.con2

theorem rk3066_getParams_fits (con : Rk3066Con) : (rockchipRk3066PllGetParams con).Fits where
  nr := ⟨Nat.le_add_left _ _, field_lt 6 con.con0 rfl⟩
  nf := ⟨Nat.le_add_left _ _, field_lt 13 con.con1 rfl⟩
  no := ⟨Nat.le_add_left _ _, field_lt 4 con.con0 rfl⟩
  nb := ⟨Nat.le_add_left _ _, field_lt 12 con.con2 rfl⟩

end Clk
end RockchipSoc
