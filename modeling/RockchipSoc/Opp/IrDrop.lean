import Mathlib.Data.List.Induction
import RockchipSoc.Foundation.CheckedArith
import RockchipSoc.Opp.DevPmOpp

/-!
# The voltage drop of the board

A board may lose more voltage between regulator and load than the reference board does, depending
on the rate.  The difference is added to the voltages of each operating point, up to a maximum, and
the points that need more than that are only safe at the rate of a point below.  The running safe
rate is an `int`, which does not hold every rate.
-/

namespace RockchipSoc
namespace Opp

open CInt

/-- `struct sel_table`; here, from MHz on and the drop in microvolt. -/
structure SelTable where
  min : ℤ
  max : ℤ
  sel : ℤ
  deriving DecidableEq, Repr

/-- `SEL_TABLE_END`. -/
def selTableEnd : ℤ := -2

/-- `-EINVAL`. -/
def negEinval : ℤ := -22

/-- The properties of the node; without `rockchip,max-volt`, the maximum is `UINT_MAX`. -/
structure IrdropConfig where
  boardIrdrop : Option (List SelTable)
  evbIrdrop : ℤ
  maxVolt : ℕ
  maxVolt_lt : maxVolt < 2 ^ 32

variable (cfg : IrdropConfig)

/-- The last entry of the table that is not above the rate. -/
def boardIrdrop (table : List SelTable) (rate : ℕ) : ℤ :=
  (table.takeWhile fun entry => entry.sel ≠ selTableEnd).foldl (fun drop entry =>
    if s32 (rate / 1000000 : ℕ) ≥ entry.min then entry.sel else drop) negEinval

def deltaIrdrop (rate : ℕ) : ℤ :=
  match cfg.boardIrdrop with
  | none => 0
  | some table =>
      if boardIrdrop table rate = negEinval then 0
      else s32 (boardIrdrop table rate - cfg.evbIrdrop)

/-- `u_volt + delta_irdrop`. -/
def raisedVolt (opp : DevPmOpp) : ℕ := addDelta opp.uVolt (deltaIrdrop cfg opp.rate)

/-- What the loop stores in the point. -/
def adjustOpp (opp : DevPmOpp) : DevPmOpp :=
  if raisedVolt cfg opp ≤ cfg.maxVolt then
    { opp with
      uVolt := raisedVolt cfg opp
      uVoltMin := addDelta opp.uVoltMin (deltaIrdrop cfg opp.rate)
      uVoltMax :=
        if addDelta opp.uVoltMax (deltaIrdrop cfg opp.rate) ≤ cfg.maxVolt then
          addDelta opp.uVoltMax (deltaIrdrop cfg opp.rate)
        else cfg.maxVolt }
  else { opp with uVolt := cfg.maxVolt, uVoltMin := cfg.maxVolt, uVoltMax := cfg.maxVolt }

/-- An `int` as an `unsigned long`. -/
def signExtend (value : ℤ) : ℕ := (value % 2 ^ 64).toNat

/-- The points adjusted so far, the variables of the loop, and the two results. -/
structure IrdropPass where
  opps : List DevPmOpp
  tmpSafeRate : ℤ
  reachMaxVolt : Bool
  safeRate : ℕ
  maxRate : ℕ
  deriving DecidableEq, Repr

/-- The rate of a point that fits under the maximum is safe until one reaches it. -/
def IrdropPass.moveSafeRate (pass : IrdropPass) (opp : DevPmOpp) : IrdropPass :=
  if raisedVolt cfg opp ≤ cfg.maxVolt then
    { pass with
      tmpSafeRate := if ¬pass.reachMaxVolt then s32 opp.rate else pass.tmpSafeRate
      reachMaxVolt := pass.reachMaxVolt || raisedVolt cfg opp = cfg.maxVolt }
  else pass

/-- The end of the body stores the results. -/
def IrdropPass.store (pass : IrdropPass) (opp : DevPmOpp) : IrdropPass :=
  { pass with
    maxRate := opp.rate
    safeRate :=
      if signExtend pass.tmpSafeRate ≠ opp.rate then signExtend pass.tmpSafeRate
      else pass.safeRate }

def IrdropPass.step (pass : IrdropPass) (opp : DevPmOpp) : IrdropPass :=
  IrdropPass.store
    { pass.moveSafeRate cfg opp with opps := pass.opps ++ [adjustOpp cfg opp] } opp

/-- The call on the list of points, with what the two results held before. -/
def rockchipAdjustOppByIrdrop (opps : List DevPmOpp) (safeRate maxRate : ℕ) : IrdropPass :=
  opps.foldl (IrdropPass.step cfg) ⟨[], 0, false, safeRate, maxRate⟩

/-! ### What the call is for -/

/-- The voltage that a point needs on the board. -/
def neededVolt (opp : DevPmOpp) : ℤ := opp.uVolt + deltaIrdrop cfg opp.rate

/-- The safe rate: as before if all points fit and only the last one may need the maximum, and
otherwise that of the first point that needs the maximum, or of the last one below it. -/
def expectedSafeRate (opps : List DevPmOpp) (safeRate : ℕ) : ℕ :=
  if (∀ opp ∈ opps, neededVolt cfg opp ≤ cfg.maxVolt) ∧
      ∀ opp ∈ opps.dropLast, neededVolt cfg opp ≠ cfg.maxVolt then
    safeRate
  else
    match opps.find? fun opp => neededVolt cfg opp = cfg.maxVolt with
    | some opp => opp.rate
    | none => ((opps.filter fun opp => neededVolt cfg opp < cfg.maxVolt).getLast?.map
        DevPmOpp.rate).getD 0

/-- The points adjusted for the board are in order, under the maximum and at the voltage needed,
and the two rates are right, whatever they were before. -/
structure AdjustedForBoard (opps : List DevPmOpp) : Prop where
  volts (safeRate maxRate : ℕ) :
    ∀ pair ∈ opps.zip (rockchipAdjustOppByIrdrop cfg opps safeRate maxRate).opps,
      pair.2.Ordered ∧ pair.2.uVoltMax ≤ cfg.maxVolt ∧
        (pair.2.uVolt : ℤ) = min (neededVolt cfg pair.1) cfg.maxVolt
  max_rate (safeRate maxRate : ℕ) : ∀ opp ∈ opps,
    opp.rate ≤ (rockchipAdjustOppByIrdrop cfg opps safeRate maxRate).maxRate
  max_rate_mem (safeRate maxRate : ℕ) : opps ≠ [] →
    (rockchipAdjustOppByIrdrop cfg opps safeRate maxRate).maxRate ∈ opps.map DevPmOpp.rate
  safe_rate (safeRate maxRate : ℕ) :
    (rockchipAdjustOppByIrdrop cfg opps safeRate maxRate).safeRate =
      expectedSafeRate cfg opps safeRate

/-- What the call is promised: rates of 32 bits in ascending order, voltages of 64 bits in their
order, and positive needs that do not fall. -/
structure Adjustable (opps : List DevPmOpp) : Prop where
  ascending : Ascending opps
  rate_lt : ∀ opp ∈ opps, opp.rate < 2 ^ 32
  ordered : ∀ opp ∈ opps, opp.Ordered
  volt_lt : ∀ opp ∈ opps, opp.uVoltMax < 2 ^ 64
  positive : ∀ opp ∈ opps, 0 < neededVolt cfg opp
  needed_lt : ∀ opp ∈ opps, neededVolt cfg opp < 2 ^ 64
  monotone : opps.Pairwise fun first second => neededVolt cfg first ≤ neededVolt cfg second

/-- The points that move the safe rate: those below the maximum, and the first one at it. -/
def movers : List DevPmOpp → List DevPmOpp
  | [] => []
  | opp :: opps =>
      if neededVolt cfg opp < cfg.maxVolt then opp :: movers opps
      else if neededVolt cfg opp = cfg.maxVolt then [opp]
      else []

/-- The condition: no bound of a point that fits wraps, no point from 2 ^ 31 Hz on moves the safe
rate, and the list is not a single point that is too high with the rate zero. -/
structure IrdropOk (opps : List DevPmOpp) : Prop where
  min_ok : ∀ opp ∈ opps, neededVolt cfg opp ≤ cfg.maxVolt →
    0 ≤ opp.uVoltMin + deltaIrdrop cfg opp.rate
  max_ok : ∀ opp ∈ opps, neededVolt cfg opp ≤ cfg.maxVolt →
    opp.uVoltMax + deltaIrdrop cfg opp.rate < 2 ^ 64
  rate_ok : ∀ opp ∈ movers cfg opps, opp.rate < 2 ^ 31
  zero_ok : ∀ opp, opps = [opp] → opp.rate = 0 → neededVolt cfg opp ≤ cfg.maxVolt

variable {cfg} {opps : List DevPmOpp} {opp : DevPmOpp} {pass : IrdropPass} {safeRate maxRate : ℕ}

/-! ### The voltages of a point -/

theorem deltaIrdrop_bounds (cfg : IrdropConfig) (rate : ℕ) :
    -2 ^ 31 ≤ deltaIrdrop cfg rate ∧ deltaIrdrop cfg rate < 2 ^ 31 := by
  unfold deltaIrdrop
  split
  · decide
  · split
    · decide
    · unfold s32
      omega

theorem raisedVolt_eq (positive : 0 < neededVolt cfg opp)
    (needed_lt : neededVolt cfg opp < 2 ^ 64) :
    (raisedVolt cfg opp : ℤ) = neededVolt cfg opp :=
  addDelta_of_fits positive.le needed_lt

/-- A lower bound that fits is raised without a wrap exactly when it stays below the target. -/
theorem raisedMin_le_iff (ordered : opp.Ordered)
    (fits : neededVolt cfg opp ≤ cfg.maxVolt) :
    (addDelta opp.uVoltMin (deltaIrdrop cfg opp.rate) : ℤ) ≤ neededVolt cfg opp ↔
      0 ≤ opp.uVoltMin + deltaIrdrop cfg opp.rate := by
  have bounds := deltaIrdrop_bounds cfg opp.rate
  have width := cfg.maxVolt_lt
  have below : (opp.uVoltMin : ℤ) ≤ opp.uVolt := Int.ofNat_le.mpr ordered.1
  unfold neededVolt at *
  constructor
  · intro bounded
    by_contra neg
    rw [addDelta_of_neg (by omega) (by omega)] at bounded
    omega
  · intro nonneg
    rw [addDelta_of_fits nonneg (by omega)]
    omega

/-- An upper bound of a point that fits is raised without a wrap exactly when it stays above the
target. -/
theorem le_raisedMax_iff (ordered : opp.Ordered) (volt_lt : opp.uVoltMax < 2 ^ 64)
    (positive : 0 < neededVolt cfg opp) :
    neededVolt cfg opp ≤ addDelta opp.uVoltMax (deltaIrdrop cfg opp.rate) ↔
      opp.uVoltMax + deltaIrdrop cfg opp.rate < 2 ^ 64 := by
  have bounds := deltaIrdrop_bounds cfg opp.rate
  have above : (opp.uVolt : ℤ) ≤ opp.uVoltMax := Int.ofNat_le.mpr ordered.2
  unfold neededVolt at *
  constructor
  · intro bounded
    by_contra wraps
    rw [addDelta_of_over (by omega) (by omega)] at bounded
    omega
  · intro fits
    rw [addDelta_of_fits (by omega) fits]
    omega

/-- The voltages of a point are right exactly when no bound of it wraps. -/
theorem adjustOpp_ok_iff (ordered : opp.Ordered) (volt_lt : opp.uVoltMax < 2 ^ 64)
    (positive : 0 < neededVolt cfg opp) (needed_lt : neededVolt cfg opp < 2 ^ 64) :
    ((adjustOpp cfg opp).Ordered ∧ (adjustOpp cfg opp).uVoltMax ≤ cfg.maxVolt ∧
        ((adjustOpp cfg opp).uVolt : ℤ) = min (neededVolt cfg opp) cfg.maxVolt) ↔
      (neededVolt cfg opp ≤ cfg.maxVolt → 0 ≤ opp.uVoltMin + deltaIrdrop cfg opp.rate ∧
        opp.uVoltMax + deltaIrdrop cfg opp.rate < 2 ^ 64) := by
  have raised := raisedVolt_eq positive needed_lt
  have fits_iff : raisedVolt cfg opp ≤ cfg.maxVolt ↔ neededVolt cfg opp ≤ cfg.maxVolt := by omega
  unfold adjustOpp DevPmOpp.Ordered
  by_cases fits : neededVolt cfg opp ≤ cfg.maxVolt
  · rw [if_pos (fits_iff.mpr fits), ← raisedMin_le_iff ordered fits,
      ← le_raisedMax_iff ordered volt_lt positive]
    dsimp only
    split <;> omega
  · rw [if_neg (mt fits_iff.mp fits)]
    refine iff_of_true ⟨⟨le_rfl, le_rfl⟩, le_rfl, ?_⟩ fun absurd_fits => absurd absurd_fits fits
    dsimp only
    omega

/-! ### The results of the loop -/

theorem rockchipAdjustOppByIrdrop_snoc :
    rockchipAdjustOppByIrdrop cfg (opps ++ [opp]) safeRate maxRate =
      (rockchipAdjustOppByIrdrop cfg opps safeRate maxRate).step cfg opp := by
  rw [rockchipAdjustOppByIrdrop, List.foldl_append]
  rfl

theorem adjusted_opps (opps : List DevPmOpp) :
    (rockchipAdjustOppByIrdrop cfg opps safeRate maxRate).opps = opps.map (adjustOpp cfg) := by
  induction opps using List.reverseRecOn with
  | nil => rfl
  | append_singleton opps opp ih =>
      rw [rockchipAdjustOppByIrdrop_snoc, List.map_append, ← ih]
      rfl

/-- The maximum rate is that of the last point. -/
theorem adjusted_maxRate :
    (rockchipAdjustOppByIrdrop cfg (opps ++ [opp]) safeRate maxRate).maxRate = opp.rate := by
  rw [rockchipAdjustOppByIrdrop_snoc]
  rfl

/-! ### The safe rate -/

theorem step_reachMaxVolt :
    (pass.step cfg opp).reachMaxVolt =
      (pass.reachMaxVolt || decide (raisedVolt cfg opp = cfg.maxVolt)) := by
  simp only [IrdropPass.step, IrdropPass.store, IrdropPass.moveSafeRate]
  split
  · rfl
  · rename_i high
    simp [(Nat.lt_of_not_le high).ne']

theorem step_tmpSafeRate :
    (pass.step cfg opp).tmpSafeRate =
      if raisedVolt cfg opp ≤ cfg.maxVolt ∧ pass.reachMaxVolt = false then s32 opp.rate
      else pass.tmpSafeRate := by
  simp only [IrdropPass.step, IrdropPass.store, IrdropPass.moveSafeRate]
  split <;> simp_all

theorem step_safeRate :
    (pass.step cfg opp).safeRate =
      if signExtend (pass.step cfg opp).tmpSafeRate ≠ opp.rate then
        signExtend (pass.step cfg opp).tmpSafeRate
      else pass.safeRate := by
  simp only [IrdropPass.step, IrdropPass.store, IrdropPass.moveSafeRate]
  split <;> rfl

theorem signExtend_s32_of_lt {rate : ℕ} (small : rate < 2 ^ 31) : signExtend (s32 rate) = rate := by
  rw [s32_of_fits (by omega) (by omega)]
  unfold signExtend
  omega

/-- From 2 ^ 31 Hz on, the safe rate turns into a rate that no point has. -/
theorem signExtend_s32_of_le {rate : ℕ} (large : 2 ^ 31 ≤ rate) (rate_lt : rate < 2 ^ 32) :
    2 ^ 32 ≤ signExtend (s32 rate) := by
  unfold signExtend s32
  omega

/-- The rate of the last point, or zero. -/
def lastRate (opps : List DevPmOpp) : ℕ := (opps.getLast?.map DevPmOpp.rate).getD 0

@[simp] theorem lastRate_nil : lastRate [] = 0 := rfl

@[simp] theorem lastRate_concat : lastRate (opps ++ [opp]) = opp.rate := by
  simp [lastRate]

theorem lastRate_le {bound : ℕ} (bounded : ∀ opp ∈ opps, opp.rate ≤ bound) :
    lastRate opps ≤ bound := by
  rcases List.eq_nil_or_concat opps with rfl | ⟨front, last, rfl⟩
  · exact Nat.zero_le bound
  · rw [List.concat_eq_append, lastRate_concat]
    exact bounded last (by simp)

/-- Points that move the safe rate up to one that needs the maximum, or in front of points that
need more. -/
structure SafeSplit (cfg : IrdropConfig) (moved rest : List DevPmOpp) : Prop where
  fits : ∀ opp ∈ moved, neededVolt cfg opp ≤ cfg.maxVolt
  below : ∀ opp ∈ moved.dropLast, neededVolt cfg opp < cfg.maxVolt
  final : (∃ front opp, moved = front ++ [opp] ∧ neededVolt cfg opp = cfg.maxVolt) ∨
    (∀ opp ∈ moved, neededVolt cfg opp < cfg.maxVolt) ∧
      ∀ opp ∈ rest, cfg.maxVolt < neededVolt cfg opp

theorem movers_split
    (monotone : opps.Pairwise fun first second => neededVolt cfg first ≤ neededVolt cfg second) :
    ∃ rest, opps = movers cfg opps ++ rest ∧ SafeSplit cfg (movers cfg opps) rest := by
  induction opps with
  | nil => exact ⟨[], rfl, by simp [movers], by simp [movers], .inr (by simp [movers])⟩
  | cons opp opps ih =>
      obtain ⟨later, monotone⟩ := List.pairwise_cons.mp monotone
      rcases lt_trichotomy (neededVolt cfg opp) cfg.maxVolt with below | same | above
      · obtain ⟨rest, split, safe⟩ := ih monotone
        have head : movers cfg (opp :: opps) = opp :: movers cfg opps := if_pos below
        rw [head]
        refine ⟨rest, by rw [List.cons_append, ← split], ?_, ?_, ?_⟩
        · exact List.forall_mem_cons.mpr ⟨below.le, safe.fits⟩
        · intro other member
          cases moved : movers cfg opps with
          | nil => simp [moved] at member
          | cons first more =>
              rw [moved, List.dropLast_cons_cons] at member
              rcases List.mem_cons.mp member with rfl | inside
              · exact below
              · exact safe.below other (moved ▸ inside)
        · rcases safe.final with ⟨front, last, ends, reached⟩ | ⟨all_below, above⟩
          · exact .inl ⟨opp :: front, last, by rw [ends, List.cons_append], reached⟩
          · exact .inr ⟨List.forall_mem_cons.mpr ⟨below, all_below⟩, above⟩
      · have head : movers cfg (opp :: opps) = [opp] := by
          rw [movers, if_neg (by omega), if_pos same]
        rw [head]
        exact ⟨opps, rfl, by simp [same], by simp, .inl ⟨[], opp, rfl, same⟩⟩
      · have head : movers cfg (opp :: opps) = [] := by
          rw [movers, if_neg (by omega), if_neg (by omega)]
        rw [head]
        refine ⟨opp :: opps, rfl, by simp, by simp, .inr ⟨by simp, ?_⟩⟩
        exact List.forall_mem_cons.mpr ⟨above, fun other member => above.trans_le
          (later other member)⟩

variable {moved rest : List DevPmOpp}

/-- The safe rate is that of the last point that moves it, if any point does not. -/
theorem SafeSplit.expected (safe : SafeSplit cfg moved rest) :
    expectedSafeRate cfg (moved ++ rest) safeRate =
      if rest = [] then safeRate else lastRate moved := by
  unfold expectedSafeRate
  by_cases empty : rest = []
  · rw [if_pos empty, empty, List.append_nil,
      if_pos ⟨safe.fits, fun opp member => (safe.below opp member).ne⟩]
  · rw [if_neg empty, List.dropLast_append_of_ne_nil empty]
    rcases safe.final with ⟨front, last, rfl, reached⟩ | ⟨below, above⟩
    · have not_first : front.find? (fun opp => neededVolt cfg opp = cfg.maxVolt) = none := by
        refine List.find?_eq_none.mpr fun opp member => ?_
        simpa using (safe.below opp (by simpa using member)).ne
      rw [if_neg fun all => all.2 last (by simp) reached, List.append_assoc, List.find?_append,
        not_first, Option.none_or, List.singleton_append, List.find?_cons_of_pos (by simpa)]
      simp
    · obtain ⟨opp, member⟩ := List.exists_mem_of_ne_nil rest empty
      have none_at :
          (moved ++ rest).find? (fun opp => neededVolt cfg opp = cfg.maxVolt) = none := by
        refine List.find?_eq_none.mpr fun opp member => ?_
        rcases List.mem_append.mp member with front | back
        · simpa using (below opp front).ne
        · simpa using (above opp back).ne'
      have front_only : (moved ++ rest).filter (fun opp => neededVolt cfg opp < cfg.maxVolt) =
          moved := by
        rw [List.filter_append, List.filter_eq_self.mpr (by simpa using below),
          List.filter_eq_nil_iff.mpr (by simpa using fun opp member => (above opp member).le),
          List.append_nil]
      rw [if_neg fun all => Int.not_le.mpr (above opp member) (all.1 opp (by simp [member])),
        none_at, front_only]
      rfl

/-- The loop over the points that move the safe rate. -/
theorem moved_loop (safeRate maxRate : ℕ) (ascending : Ascending moved)
    (machine : ∀ opp ∈ moved, (raisedVolt cfg opp : ℤ) = neededVolt cfg opp)
    (rate_lt : ∀ opp ∈ moved, opp.rate < 2 ^ 32)
    (fits : ∀ opp ∈ moved, neededVolt cfg opp ≤ cfg.maxVolt)
    (below : ∀ opp ∈ moved.dropLast, neededVolt cfg opp < cfg.maxVolt) :
    let pass := rockchipAdjustOppByIrdrop cfg moved safeRate maxRate
    (pass.reachMaxVolt = true ↔ ∃ opp ∈ moved, neededVolt cfg opp = cfg.maxVolt) ∧
      pass.tmpSafeRate = s32 (lastRate moved) ∧
      pass.safeRate =
        if lastRate moved < 2 ^ 31 then safeRate else signExtend (s32 (lastRate moved)) := by
  induction moved using List.reverseRecOn with
  | nil => exact ⟨by simp [rockchipAdjustOppByIrdrop], rfl, rfl⟩
  | append_singleton moved last ih =>
      rw [List.dropLast_concat] at below
      obtain ⟨front, -, across⟩ := List.pairwise_append.mp ascending
      have machine_last := machine last (by simp)
      have fits_last := fits last (by simp)
      obtain ⟨reach, tmp, safe⟩ := ih front (fun opp member => machine opp (by simp [member]))
        (fun opp member => rate_lt opp (by simp [member]))
        (fun opp member => fits opp (by simp [member]))
        (fun opp member => below opp (List.dropLast_subset _ member))
      have unreached : (rockchipAdjustOppByIrdrop cfg moved safeRate maxRate).reachMaxVolt =
          false := by
        refine Bool.eq_false_iff.mpr fun reached => ?_
        obtain ⟨opp, member, same⟩ := reach.mp reached
        exact (below opp member).ne same
      have moves : (rockchipAdjustOppByIrdrop cfg (moved ++ [last]) safeRate maxRate).tmpSafeRate =
          s32 last.rate := by
        rw [rockchipAdjustOppByIrdrop_snoc, step_tmpSafeRate, if_pos ⟨by omega, unreached⟩]
      refine ⟨?_, by rw [moves, lastRate_concat], ?_⟩
      · rw [rockchipAdjustOppByIrdrop_snoc, step_reachMaxVolt, Bool.or_eq_true, reach,
          decide_eq_true_iff]
        have same : raisedVolt cfg last = cfg.maxVolt ↔ neededVolt cfg last = cfg.maxVolt := by
          omega
        simp [same, or_and_right, exists_or]
      · rw [lastRate_concat]
        have stored : (rockchipAdjustOppByIrdrop cfg (moved ++ [last]) safeRate maxRate).safeRate =
            if signExtend (s32 last.rate) ≠ last.rate then signExtend (s32 last.rate)
            else (rockchipAdjustOppByIrdrop cfg moved safeRate maxRate).safeRate := by
          rw [← moves, rockchipAdjustOppByIrdrop_snoc]
          exact step_safeRate
        rw [stored, safe]
        have upTo : lastRate moved ≤ last.rate :=
          lastRate_le fun opp member => (across opp member last (by simp)).le
        by_cases small : last.rate < 2 ^ 31
        · rw [if_neg (not_not.mpr (signExtend_s32_of_lt small)), if_pos small,
            if_pos (upTo.trans_lt small)]
        · have large := signExtend_s32_of_le (Nat.le_of_not_lt small) (rate_lt last (by simp))
          rw [if_pos (by have := rate_lt last (by simp); omega), if_neg small]

/-- The loop over points that cannot move the safe rate stores it, if their rate is another. -/
theorem rest_loop (stuck : ∀ opp ∈ rest, ¬(raisedVolt cfg opp ≤ cfg.maxVolt ∧
      pass.reachMaxVolt = false)) :
    (rest.foldl (IrdropPass.step cfg) pass).safeRate =
      if ∃ opp ∈ rest, opp.rate ≠ signExtend pass.tmpSafeRate then signExtend pass.tmpSafeRate
      else pass.safeRate := by
  induction rest generalizing pass with
  | nil => simp
  | cons opp rest ih =>
      obtain ⟨stuck_first, stuck_rest⟩ := List.forall_mem_cons.mp stuck
      have same : (pass.step cfg opp).tmpSafeRate = pass.tmpSafeRate := by
        rw [step_tmpSafeRate, if_neg stuck_first]
      rw [List.foldl_cons, ih fun other member moves => stuck_rest other member ⟨moves.1, ?_⟩]
      · rw [step_safeRate, same]
        by_cases other : opp.rate = signExtend pass.tmpSafeRate
        · simp [other]
        · simp [other, Ne.symm other]
      · have unreached := moves.2
        rw [step_reachMaxVolt, Bool.or_eq_false_iff] at unreached
        exact unreached.1

theorem Adjustable.machine (usable : Adjustable cfg opps) (member : opp ∈ opps) :
    (raisedVolt cfg opp : ℤ) = neededVolt cfg opp :=
  raisedVolt_eq (usable.positive opp member) (usable.needed_lt opp member)

/-- What the loop leaves as the safe rate. -/
theorem adjusted_safeRate (usable : Adjustable cfg (moved ++ rest))
    (safe : SafeSplit cfg moved rest) :
    (rockchipAdjustOppByIrdrop cfg (moved ++ rest) safeRate maxRate).safeRate =
      if ∃ opp ∈ rest, opp.rate ≠ signExtend (s32 (lastRate moved)) then
        signExtend (s32 (lastRate moved))
      else if lastRate moved < 2 ^ 31 then safeRate
      else signExtend (s32 (lastRate moved)) := by
  obtain ⟨reach, tmp, stored⟩ := moved_loop safeRate maxRate
    (List.pairwise_append.mp usable.ascending).1
    (fun opp member => usable.machine (List.mem_append_left _ member))
    (fun opp member => usable.rate_lt opp (List.mem_append_left _ member)) safe.fits safe.below
  have whole : rockchipAdjustOppByIrdrop cfg (moved ++ rest) safeRate maxRate =
      rest.foldl (IrdropPass.step cfg) (rockchipAdjustOppByIrdrop cfg moved safeRate maxRate) :=
    List.foldl_append
  rw [whole, rest_loop, tmp, stored]
  rintro opp member ⟨fits, unreached⟩
  rcases safe.final with ⟨front, last, ends, reached⟩ | ⟨-, above⟩
  · have reached' := reach.mpr ⟨last, by simp [ends], reached⟩
    exact absurd reached' (Bool.eq_false_iff.mp unreached)
  · have machine := usable.machine (List.mem_append_right moved member)
    have high := above opp member
    omega

theorem lastRate_mem (nonempty : opps ≠ []) : ∃ opp ∈ opps, opp.rate = lastRate opps := by
  rcases List.eq_nil_or_concat opps with rfl | ⟨front, last, rfl⟩
  · exact absurd rfl nonempty
  · exact ⟨last, by simp, by simp⟩

theorem le_lastRate (ascending : Ascending opps) (member : opp ∈ opps) :
    opp.rate ≤ lastRate opps := by
  rcases List.eq_nil_or_concat opps with rfl | ⟨front, last, rfl⟩
  · exact absurd member List.not_mem_nil
  · rw [List.concat_eq_append] at *
    rw [lastRate_concat]
    rcases List.mem_append.mp member with inside | same
    · exact ((List.pairwise_append.mp ascending).2.2 opp inside last (by simp)).le
    · exact (congrArg DevPmOpp.rate (List.mem_singleton.mp same)).le

/-- The safe rate is right exactly when no point from 2 ^ 31 Hz on moves it, and there is not just
one point that is too high, with the rate zero. -/
theorem safeRate_iff (usable : Adjustable cfg opps) :
    (∀ safeRate maxRate, (rockchipAdjustOppByIrdrop cfg opps safeRate maxRate).safeRate =
        expectedSafeRate cfg opps safeRate) ↔
      (∀ opp ∈ movers cfg opps, opp.rate < 2 ^ 31) ∧
        ∀ opp, opps = [opp] → opp.rate = 0 → neededVolt cfg opp ≤ cfg.maxVolt := by
  obtain ⟨rest, split, safe⟩ := movers_split usable.monotone
  generalize movers cfg opps = moved at split safe ⊢
  subst split
  obtain ⟨ascending, ascending', across⟩ := List.pairwise_append.mp usable.ascending
  have rate_lt : ∀ opp ∈ moved, opp.rate < 2 ^ 32 := fun opp member =>
    usable.rate_lt opp (List.mem_append_left _ member)
  simp only [adjusted_safeRate usable safe, safe.expected]
  constructor
  · intro right
    have small : lastRate moved < 2 ^ 31 := by
      by_contra large
      have bound : lastRate moved < 2 ^ 32 :=
        (lastRate_le fun opp member => Nat.le_of_lt_succ (by have := rate_lt opp member; omega) :
          lastRate moved ≤ 2 ^ 32 - 1).trans_lt (by omega)
      have far := signExtend_s32_of_le (Nat.le_of_not_lt large) bound
      have wrong := right 0 0
      rw [if_neg large, ite_self] at wrong
      split at wrong <;> omega
    refine ⟨fun opp member => (le_lastRate ascending member).trans_lt small, ?_⟩
    intro opp single zero
    by_contra high
    have nothing : moved = [] := by
      refine List.eq_nil_iff_forall_not_mem.mpr fun other member => high ?_
      have same := List.mem_singleton.mp (single ▸ List.mem_append_left rest member)
      exact same ▸ safe.fits other member
    subst nothing
    rw [List.nil_append] at single
    have wrong := right 1 0
    rw [single] at wrong
    simp [zero, signExtend, s32] at wrong
  · rintro ⟨small, zero_ok⟩ safeRate -
    have last_small : lastRate moved < 2 ^ 31 :=
      (lastRate_le fun opp member => Nat.le_sub_one_of_lt (small opp member)).trans_lt (by decide)
    rw [signExtend_s32_of_lt last_small, if_pos last_small]
    rcases rest with - | ⟨first, more⟩
    · simp
    · rw [if_neg (List.cons_ne_nil _ _), if_pos]
      by_contra same
      simp only [not_exists, not_and, not_not] at same
      have first_same := same first List.mem_cons_self
      rcases eq_or_ne moved [] with rfl | nonempty
      · rcases more with - | ⟨second, more⟩
        · have high := zero_ok first rfl first_same
          rcases safe.final with ⟨front, last, ends, -⟩ | ⟨-, above⟩
          · simp at ends
          · exact absurd (above first List.mem_cons_self) (Int.not_lt.mpr high)
        · have second_same := same second (by simp)
          have order := (List.pairwise_cons.mp ascending').1 second List.mem_cons_self
          omega
      · obtain ⟨opp, member, rate⟩ := lastRate_mem nonempty
        have order := across opp member first List.mem_cons_self
        omega

/-- The adjusted points and the two rates are right exactly when no bound wraps, no point from
2 ^ 31 Hz on moves the safe rate, and there is not just one point that is too high, with the rate
zero. -/
theorem irdrop_adjusts_iff (cfg : IrdropConfig) (opps : List DevPmOpp)
    (usable : Adjustable cfg opps) : AdjustedForBoard cfg opps ↔ IrdropOk cfg opps := by
  have zipped (safeRate maxRate : ℕ) :
      opps.zip (rockchipAdjustOppByIrdrop cfg opps safeRate maxRate).opps =
        opps.map fun opp => (opp, adjustOpp cfg opp) := by
    rw [adjusted_opps, List.zip, List.zipWith_map_right, List.zipWith_self]
  have point (opp : DevPmOpp) (member : opp ∈ opps) := adjustOpp_ok_iff
    (usable.ordered opp member) (usable.volt_lt opp member) (usable.positive opp member)
    (usable.needed_lt opp member)
  constructor
  · intro adjusted
    have volts (opp : DevPmOpp) (member : opp ∈ opps) := by
      have pairs := adjusted.volts 0 0
      rw [zipped] at pairs
      exact (point opp member).mp (pairs _ (List.mem_map_of_mem member))
    obtain ⟨rate_ok, zero_ok⟩ := (safeRate_iff usable).mp adjusted.safe_rate
    exact ⟨fun opp member fits => (volts opp member fits).1,
      fun opp member fits => (volts opp member fits).2, rate_ok, zero_ok⟩
  · intro ok
    refine ⟨fun safeRate maxRate => ?_, fun safeRate maxRate opp member => ?_,
      fun safeRate maxRate nonempty => ?_,
      (safeRate_iff usable).mpr ⟨ok.rate_ok, ok.zero_ok⟩⟩
    · rw [zipped, List.forall_mem_map]
      exact fun opp member => (point opp member).mpr fun fits =>
        ⟨ok.min_ok opp member fits, ok.max_ok opp member fits⟩
    · have upTo := le_lastRate usable.ascending member
      rcases List.eq_nil_or_concat opps with rfl | ⟨front, last, rfl⟩
      · exact absurd member List.not_mem_nil
      · rw [List.concat_eq_append, lastRate_concat] at upTo
        rwa [List.concat_eq_append, adjusted_maxRate]
    · rcases List.eq_nil_or_concat opps with rfl | ⟨front, last, rfl⟩
      · exact absurd rfl nonempty
      · rw [List.concat_eq_append, adjusted_maxRate]
        exact List.mem_map_of_mem (by simp)

/-- A board that loses 25 mV more than the reference from 800 MHz on, with at most 1 V. -/
def lossyBoard : IrdropConfig :=
  ⟨some [⟨0, 800, 0⟩, ⟨800, 5000, 50000⟩], 25000, 1000000, by decide⟩

def boardPoints : List DevPmOpp :=
  [⟨408000000, true, 800000, 800000, 1000000⟩, ⟨1200000000, true, 950000, 950000, 1000000⟩,
    ⟨1800000000, true, 1000000, 1000000, 1000000⟩]

/-- The reference board takes more at low rates, and the highest point is clipped. -/
theorem irdrop_adjusts_boardPoints : AdjustedForBoard lossyBoard boardPoints :=
  (irdrop_adjusts_iff lossyBoard boardPoints
    ⟨by decide, by decide, by decide, by decide, by decide, by decide, by decide⟩).mpr
    ⟨by decide, by decide, by decide, fun opp single => absurd (congrArg List.length single)
      (by simp [boardPoints])⟩

/-- Points above 2 ^ 31 Hz on a board without a table. -/
def fastPoints : List DevPmOpp :=
  [⟨2400000000, true, 950000, 950000, 1000000⟩, ⟨2600000000, true, 1050000, 1050000, 1050000⟩]

/-- The safe rate of the fast points is a rate that none of them has. -/
theorem fast_points_lose_safe_rate :
    ¬(∀ cfg opps, Adjustable cfg opps → AdjustedForBoard cfg opps) ∧
      (rockchipAdjustOppByIrdrop ⟨none, 0, 1000000, by decide⟩ fastPoints 0 0).safeRate =
        18446744071814584320 := by
  refine ⟨fun always => ?_, by decide⟩
  have adjusted := always ⟨none, 0, 1000000, by decide⟩ fastPoints
    ⟨by decide, by decide, by decide, by decide, by decide, by decide, by decide⟩
  exact absurd (adjusted.safe_rate 0 0) (by decide)

end Opp
end RockchipSoc
