import Mathlib.Data.List.Induction
import RockchipSoc.Foundation.CheckedArith
import RockchipSoc.Opp.DevPmOpp

/-!
# Voltages for low temperatures

The monitor keeps, beside the operating points of a device, a table of its own with their voltages
for both states.  The table has one entry for each point that is available, but the walks go over
all of them.  The same pass derives the rate up to which a point is not clipped to the maximum: it
takes the last point that moved it before some point did not.
-/

namespace RockchipSoc
namespace SystemMonitor

open CInt Opp

/-- `struct volt_adjust_table`: from and to MHz, and the difference in microvolt. -/
structure VoltAdjustTable where
  min : ℕ
  max : ℕ
  volt : ℤ
  deriving DecidableEq, Repr

/-- The configuration of the voltages in `struct monitor_dev_info`. -/
structure TempVoltConfig where
  lowTempAdjustTable : Option (List VoltAdjustTable)
  maxVolt : ℕ
  lowTempMinVolt : ℕ
  highTempMaxVolt : ℕ
  maxVolt_lt : maxVolt < 2 ^ 64

/-- `struct temp_opp_table`. -/
structure TempOppTable where
  rate : ℕ
  volt : ℕ
  lowTempVolt : ℕ
  maxVolt : ℕ
  deriving DecidableEq, Repr

variable (cfg : TempVoltConfig)

/-- The last entry for the rate; the table ends before an entry with `INT_MAX`. -/
def rockchipGetLowTempVolt (rate : ℕ) : Option ℤ :=
  match cfg.lowTempAdjustTable with
  | none => none
  | some table =>
      (table.takeWhile fun entry => entry.volt ≠ intMax).foldl (fun found entry =>
        if entry.min ≤ rate / 1000000 % 2 ^ 32 ∧ rate / 1000000 % 2 ^ 32 ≤ entry.max then
          some entry.volt
        else found) none

def deltaVolt (rate : ℕ) : ℤ := (rockchipGetLowTempVolt cfg rate).getD 0

/-- `u_volt + delta_volt`, as the pass computes it. -/
def raisedVolt (opp : Opp.DevPmOpp) : ℕ := addDelta opp.uVolt (deltaVolt cfg opp.rate)

/-- The first branch of the pass: the sum is not above the maximum. -/
def Fits (opp : Opp.DevPmOpp) : Prop := raisedVolt cfg opp ≤ cfg.maxVolt

instance (opp : Opp.DevPmOpp) : Decidable (Fits cfg opp) := inferInstanceAs (Decidable (_ ≤ _))

/-- `low_temp_volt` of the point. -/
def lowTempVolt (opp : Opp.DevPmOpp) : ℕ :=
  if Fits cfg opp then
    if raisedVolt cfg opp < cfg.lowTempMinVolt then cfg.lowTempMinVolt else raisedVolt cfg opp
  else cfg.maxVolt

/-- The entry of the table for the point. -/
def tempEntry (opp : Opp.DevPmOpp) : TempOppTable :=
  ⟨opp.rate, opp.uVolt, lowTempVolt cfg opp, opp.uVoltMax⟩

/-- The pass over the points: the entries written so far, its local variables, and the limits of
the device. -/
structure TempOppPass where
  entries : List TempOppTable
  lowLimit : ℕ
  highLimit : ℕ
  reachMaxVolt : Bool
  reachHighTempMaxVolt : Bool
  infoLowLimit : ℕ
  infoHighLimit : ℕ
  deriving DecidableEq, Repr

/-- The part for high temperatures. -/
def TempOppPass.high (pass : TempOppPass) (opp : Opp.DevPmOpp) : TempOppPass :=
  if opp.uVolt ≤ cfg.highTempMaxVolt then
    { pass with
      highLimit := if ¬pass.reachHighTempMaxVolt then opp.rate else pass.highLimit
      reachHighTempMaxVolt := pass.reachHighTempMaxVolt || opp.uVolt = cfg.highTempMaxVolt }
  else pass

/-- The part for low temperatures. -/
def TempOppPass.low (pass : TempOppPass) (opp : Opp.DevPmOpp) : TempOppPass :=
  if Fits cfg opp then
    { pass with
      lowLimit := if ¬pass.reachMaxVolt then opp.rate else pass.lowLimit
      reachMaxVolt := pass.reachMaxVolt || lowTempVolt cfg opp = cfg.maxVolt }
  else pass

/-- The limits of the device are those that some later point did not move. -/
def TempOppPass.limits (pass : TempOppPass) (opp : Opp.DevPmOpp) : TempOppPass :=
  { pass with
    infoLowLimit :=
      if pass.lowLimit ≠ 0 ∧ pass.lowLimit ≠ opp.rate then pass.lowLimit else pass.infoLowLimit
    infoHighLimit :=
      if pass.highLimit ≠ 0 ∧ pass.highLimit ≠ opp.rate then pass.highLimit
      else pass.infoHighLimit }

def TempOppPass.entry (pass : TempOppPass) (opp : Opp.DevPmOpp) : TempOppPass :=
  { pass with entries := pass.entries ++ [tempEntry cfg opp] }

/-- The body of the loop. -/
def TempOppPass.step (pass : TempOppPass) (opp : Opp.DevPmOpp) : TempOppPass :=
  (((pass.entry cfg opp).high cfg opp).low cfg opp).limits opp

def tempOppPass (opps : List Opp.DevPmOpp) : TempOppPass :=
  opps.foldl (TempOppPass.step cfg) ⟨[], 0, 0, false, false, 0, 0⟩

/-- What the pass leaves in `struct monitor_dev_info`: `opp_table`, with the number of entries
allocated for it, and the limits. -/
structure TempOppInfo where
  maxCount : ℕ
  oppTable : List TempOppTable
  lowLimit : ℕ
  highLimit : ℕ
  deriving DecidableEq, Repr

/-- It fails without a point that is available, and without memory or the table of points. -/
def rockchipInitTempOppTable (opps : List Opp.DevPmOpp) (memory : Bool) : Option TempOppInfo :=
  if devPmOppGetOppCount opps = 0 ∨ ¬memory then none
  else
    some ⟨devPmOppGetOppCount opps, (tempOppPass cfg opps).entries,
      (tempOppPass cfg opps).infoLowLimit, (tempOppPass cfg opps).infoHighLimit⟩

def adjustLowTempOpp (isLowTemp : Bool) (opp : Opp.DevPmOpp) (entry : TempOppTable) :
    Opp.DevPmOpp :=
  if isLowTemp then
    { opp with
      uVoltMax := if opp.uVoltMax < entry.lowTempVolt then entry.lowTempVolt else opp.uVoltMax
      uVolt := entry.lowTempVolt
      uVoltMin := entry.lowTempVolt }
  else { opp with uVoltMin := entry.volt, uVolt := entry.volt, uVoltMax := entry.maxVolt }

/-- The walk takes one entry for each point. -/
def rockchipAdjustLowTempOppVolt (info : TempOppInfo) (opps : List Opp.DevPmOpp)
    (isLowTemp : Bool) : List Opp.DevPmOpp :=
  opps.zipWith (adjustLowTempOpp isLowTemp) info.oppTable

/-- The points after a sequence of switches; `true` is to the low state. -/
def afterSwitches (info : TempOppInfo) (opps : List Opp.DevPmOpp) (switches : List Bool) :
    List Opp.DevPmOpp :=
  switches.foldl (rockchipAdjustLowTempOppVolt info) opps

/-- A walk over the points stays within the entries allocated. -/
def Within (info : TempOppInfo) (opps : List Opp.DevPmOpp) : Prop :=
  ∀ i < opps.length, i < info.maxCount

/-- What the switches are for. -/
structure Reversible (opps : List Opp.DevPmOpp) (info : TempOppInfo) : Prop where
  init_within : Within info opps
  within (switches : List Bool) : Within info (afterSwitches info opps switches)
  ordered (switches : List Bool) (isLowTemp : Bool) :
    ∀ opp ∈ afterSwitches info opps (switches ++ [isLowTemp]), opp.Ordered
  low_le (switches : List Bool) :
    ∀ opp ∈ afterSwitches info opps (switches ++ [true]), opp.uVolt ≤ cfg.maxVolt
  restored (switches : List Bool) :
    (afterSwitches info opps (switches ++ [false])).map
        (fun opp => (opp.rate, opp.uVolt, opp.uVoltMax)) =
      opps.map fun opp => (opp.rate, opp.uVolt, opp.uVoltMax)
  full (switches : List Bool) : info.lowLimit ≠ 0 →
    ∀ pair ∈ opps.zip (afterSwitches info opps (switches ++ [true])),
      pair.1.rate ≤ info.lowLimit →
        (pair.1.uVolt + deltaVolt cfg pair.1.rate : ℤ) ≤ pair.2.uVolt

/-! ### The pass -/

/-- The point sets `reach_max_volt`. -/
def ReachesMax (opp : Opp.DevPmOpp) : Prop := Fits cfg opp ∧ lowTempVolt cfg opp = cfg.maxVolt

instance (opp : Opp.DevPmOpp) : Decidable (ReachesMax cfg opp) :=
  inferInstanceAs (Decidable (_ ∧ _))

/-- The point moves the running limit. -/
def Moves (before : List Opp.DevPmOpp) (opp : Opp.DevPmOpp) : Prop :=
  Fits cfg opp ∧ 0 < opp.rate ∧ ∀ other ∈ before, ¬ReachesMax cfg other

/-- Some point behind this one does not move the running limit. -/
def Stuck (opp : Opp.DevPmOpp) (after : List Opp.DevPmOpp) : Prop :=
  (∃ other ∈ after, ¬Fits cfg other) ∨ ∃ other ∈ (opp :: after).dropLast, ReachesMax cfg other

/-- The maximum leaves room for the whole difference. -/
def HasRoom (opp : Opp.DevPmOpp) : Prop := (opp.uVolt + deltaVolt cfg opp.rate : ℤ) ≤ cfg.maxVolt

instance (opp : Opp.DevPmOpp) : Decidable (HasRoom cfg opp) := inferInstanceAs (Decidable (_ ≤ _))

/-- No point is clipped below one that moved the limit before another did not. -/
def LimitOk (opps : List Opp.DevPmOpp) : Prop :=
  ∀ before opp after, opps = before ++ opp :: after → Moves cfg before opp →
    Stuck cfg opp after → ∀ other ∈ before ++ [opp], HasRoom cfg other

variable {cfg} {pass : TempOppPass} {opps before after : List Opp.DevPmOpp}
  {opp other : Opp.DevPmOpp}

@[simp] theorem step_entries :
    (pass.step cfg opp).entries = pass.entries ++ [tempEntry cfg opp] := by
  simp only [TempOppPass.step, TempOppPass.limits, TempOppPass.low, TempOppPass.high]
  split <;> split <;> rfl

@[simp] theorem step_reachMaxVolt :
    (pass.step cfg opp).reachMaxVolt = (pass.reachMaxVolt || decide (ReachesMax cfg opp)) := by
  simp only [TempOppPass.step, TempOppPass.limits, TempOppPass.low, ReachesMax]
  split <;> simp_all [TempOppPass.high, TempOppPass.entry] <;> split <;> rfl

theorem step_lowLimit :
    (pass.step cfg opp).lowLimit =
      if Fits cfg opp ∧ pass.reachMaxVolt = false then opp.rate else pass.lowLimit := by
  simp only [TempOppPass.step, TempOppPass.limits, TempOppPass.low]
  split <;> simp_all [TempOppPass.high, TempOppPass.entry] <;> split <;> rfl

theorem step_infoLowLimit :
    (pass.step cfg opp).infoLowLimit =
      if (pass.step cfg opp).lowLimit ≠ 0 ∧ (pass.step cfg opp).lowLimit ≠ opp.rate then
        (pass.step cfg opp).lowLimit
      else pass.infoLowLimit := by
  simp only [TempOppPass.step, TempOppPass.limits, TempOppPass.low]
  split <;> simp_all [TempOppPass.high, TempOppPass.entry] <;> split <;> rfl

theorem tempOppPass_snoc :
    tempOppPass cfg (opps ++ [opp]) = (tempOppPass cfg opps).step cfg opp := by
  rw [tempOppPass, List.foldl_append]
  rfl

/-- One entry for each point, whether it is available or not. -/
theorem tempOppPass_entries (opps : List Opp.DevPmOpp) :
    (tempOppPass cfg opps).entries = opps.map (tempEntry cfg) := by
  induction opps using List.reverseRecOn with
  | nil => rfl
  | append_singleton opps opp ih => simp [tempOppPass_snoc, ih]

theorem reachMaxVolt_iff (opps : List Opp.DevPmOpp) :
    (tempOppPass cfg opps).reachMaxVolt = true ↔ ∃ opp ∈ opps, ReachesMax cfg opp := by
  induction opps using List.reverseRecOn with
  | nil => simp [tempOppPass]
  | append_singleton opps opp ih => simp [tempOppPass_snoc, ih, or_and_right, exists_or]

/-! ### The limit of the pass -/

theorem not_stuck_nil : ¬Stuck cfg opp [] := by
  simp [Stuck]

/-- A further point is stuck itself, or changes nothing. -/
theorem stuck_snoc {last : Opp.DevPmOpp} :
    Stuck cfg opp (after ++ [last]) ↔
      Stuck cfg opp after ∨ ¬(Fits cfg last ∧ ∀ other ∈ opp :: after, ¬ReachesMax cfg other) := by
  have whole : (opp :: (after ++ [last])).dropLast = opp :: after := by
    rw [← List.cons_append, List.dropLast_concat]
  have part : (∃ other ∈ (opp :: after).dropLast, ReachesMax cfg other) →
      ∃ other ∈ opp :: after, ReachesMax cfg other :=
    fun ⟨other, member, reaches⟩ => ⟨other, List.dropLast_subset _ member, reaches⟩
  have negated : (¬∀ other ∈ opp :: after, ¬ReachesMax cfg other) ↔
      ∃ other ∈ opp :: after, ReachesMax cfg other := by
    simp only [not_forall, not_not, exists_prop]
  have clipped : (∃ other ∈ after ++ [last], ¬Fits cfg other) ↔
      (∃ other ∈ after, ¬Fits cfg other) ∨ ¬Fits cfg last := by simp [or_and_right, exists_or]
  rw [Stuck, Stuck, whole, clipped, not_and_or, negated]
  constructor
  · rintro ((earlier | here) | reached)
    · exact .inl (.inl earlier)
    · exact .inr (.inl here)
    · exact .inr (.inr reached)
  · rintro ((earlier | reached) | here | reached)
    · exact .inl (.inl earlier)
    · exact .inr (part reached)
    · exact .inl (.inr here)
    · exact .inr reached

/-- A place in a list with one more point is that point, or a place in the list. -/
theorem split_snoc {last : Opp.DevPmOpp} (split : opps ++ [last] = before ++ opp :: after) :
    (before = opps ∧ opp = last ∧ after = []) ∨
      ∃ rest, after = rest ++ [last] ∧ opps = before ++ opp :: rest := by
  rcases List.eq_nil_or_concat after with rfl | ⟨rest, final, rfl⟩
  · obtain ⟨same, last_eq⟩ := List.append_inj' split rfl
    exact .inl ⟨same.symm, (List.cons.inj last_eq).1.symm, rfl⟩
  · rw [List.concat_eq_append, ← List.cons_append, ← List.append_assoc] at split
    obtain ⟨same, last_eq⟩ := List.append_inj' split rfl
    refine .inr ⟨rest, ?_, same⟩
    rw [List.concat_eq_append, (List.cons.inj last_eq).1]

/-- The running limit is the rate of the last point that moved it, and the limit of the device that
of the last one with a stuck point behind it. -/
structure LimitsOf (cfg : TempVoltConfig) (opps : List Opp.DevPmOpp) (pass : TempOppPass) :
    Prop where
  low_from : pass.lowLimit ≠ 0 → ∃ before opp after,
    opps = before ++ opp :: after ∧ Moves cfg before opp ∧ opp.rate = pass.lowLimit
  le_low {before after : List Opp.DevPmOpp} {opp : Opp.DevPmOpp} :
    opps = before ++ opp :: after → Moves cfg before opp → opp.rate ≤ pass.lowLimit
  info_from : pass.infoLowLimit ≠ 0 → ∃ before opp after,
    opps = before ++ opp :: after ∧ Moves cfg before opp ∧ Stuck cfg opp after ∧
      opp.rate = pass.infoLowLimit
  le_info {before after : List Opp.DevPmOpp} {opp : Opp.DevPmOpp} :
    opps = before ++ opp :: after → Moves cfg before opp → Stuck cfg opp after →
      opp.rate ≤ pass.infoLowLimit

/-- A point that moves the running limit leaves that of the device. -/
theorem LimitsOf.moved {last : Opp.DevPmOpp} (limits : LimitsOf cfg opps pass)
    (above : ∀ other ∈ opps, other.rate < last.rate) (fits : Fits cfg last)
    (unreached : ∀ other ∈ opps, ¬ReachesMax cfg other) (reach : pass.reachMaxVolt = false) :
    LimitsOf cfg (opps ++ [last]) (pass.step cfg last) := by
  have low : (pass.step cfg last).lowLimit = last.rate := by
    rw [step_lowLimit, if_pos ⟨fits, reach⟩]
  have info : (pass.step cfg last).infoLowLimit = pass.infoLowLimit := by
    rw [step_infoLowLimit, low, if_neg (by simp)]
  refine ⟨fun moved => ?_, fun split moves => ?_, fun set => ?_, fun split moves stuck => ?_⟩
  · rw [low] at moved ⊢
    exact ⟨opps, last, [], rfl, ⟨fits, Nat.pos_of_ne_zero moved, unreached⟩, rfl⟩
  · rw [low]
    rcases split_snoc split with ⟨-, rfl, -⟩ | ⟨rest, -, rfl⟩
    · exact le_rfl
    · exact (above _ (List.mem_append_right _ List.mem_cons_self)).le
  · rw [info] at set ⊢
    obtain ⟨before, opp, after, rfl, moves, stuck, rate⟩ := limits.info_from set
    exact ⟨before, opp, after ++ [last], by simp, moves, stuck_snoc.mpr (.inl stuck), rate⟩
  · rw [info]
    rcases split_snoc split with ⟨-, -, rfl⟩ | ⟨rest, rfl, rfl⟩
    · exact absurd stuck not_stuck_nil
    · rcases stuck_snoc.mp stuck with earlier | now
      · exact limits.le_info rfl moves earlier
      · exact absurd ⟨fits, fun other member => unreached other (List.mem_append_right _ member)⟩
          now

/-- A point that does not move the running limit makes it the limit of the device. -/
theorem LimitsOf.stuck {last : Opp.DevPmOpp} (limits : LimitsOf cfg opps pass)
    (above : ∀ other ∈ opps, other.rate < last.rate)
    (reach : pass.reachMaxVolt = true ↔ ∃ other ∈ opps, ReachesMax cfg other)
    (unmoved : ¬(Fits cfg last ∧ pass.reachMaxVolt = false)) :
    LimitsOf cfg (opps ++ [last]) (pass.step cfg last) := by
  have low : (pass.step cfg last).lowLimit = pass.lowLimit := by
    rw [step_lowLimit, if_neg unmoved]
  have last_stuck {before after : List Opp.DevPmOpp} {opp : Opp.DevPmOpp}
      (split : opps = before ++ opp :: after) (moves : Moves cfg before opp) :
      Stuck cfg opp (after ++ [last]) := by
    refine stuck_snoc.mpr (.inr fun ⟨fits, none_after⟩ => unmoved ⟨fits, ?_⟩)
    refine Bool.eq_false_iff.mpr fun reached => ?_
    obtain ⟨other, member, reaches⟩ := reach.mp reached
    rcases List.mem_append.mp (split ▸ member) with front | rest
    · exact moves.2.2 other front reaches
    · exact none_after other rest reaches
  have info (set : pass.lowLimit ≠ 0) : (pass.step cfg last).infoLowLimit = pass.lowLimit := by
    obtain ⟨before, opp, after, rfl, -, rate⟩ := limits.low_from set
    have below := above opp (List.mem_append_right _ List.mem_cons_self)
    rw [step_infoLowLimit, low, if_pos ⟨set, by omega⟩]
  refine ⟨fun moved => ?_, fun split moves => ?_, fun set => ?_, fun split moves stuck => ?_⟩
  · rw [low] at moved ⊢
    obtain ⟨before, opp, after, rfl, moves, rate⟩ := limits.low_from moved
    exact ⟨before, opp, after ++ [last], by simp, moves, rate⟩
  · rw [low]
    rcases split_snoc split with ⟨rfl, rfl, -⟩ | ⟨rest, -, earlier⟩
    · refine absurd ⟨moves.1, Bool.eq_false_iff.mpr fun reached => ?_⟩ unmoved
      obtain ⟨other, member, reaches⟩ := reach.mp reached
      exact moves.2.2 other member reaches
    · exact limits.le_low earlier moves
  · by_cases moved : pass.lowLimit = 0
    · have kept : (pass.step cfg last).infoLowLimit = pass.infoLowLimit := by
        rw [step_infoLowLimit, low, if_neg (by simp [moved])]
      rw [kept] at set ⊢
      obtain ⟨before, opp, after, rfl, moves, stuck, rate⟩ := limits.info_from set
      exact ⟨before, opp, after ++ [last], by simp, moves, stuck_snoc.mpr (.inl stuck), rate⟩
    · rw [info moved]
      obtain ⟨before, opp, after, split, moves, rate⟩ := limits.low_from moved
      exact ⟨before, opp, after ++ [last], by simp [split], moves, last_stuck split moves, rate⟩
  · rcases split_snoc split with ⟨-, -, rfl⟩ | ⟨rest, rfl, earlier⟩
    · exact absurd stuck not_stuck_nil
    · have bound := limits.le_low earlier moves
      rw [info (Nat.ne_of_gt (Nat.lt_of_lt_of_le moves.2.1 bound))]
      exact bound

theorem limitsOf (ascending : Ascending opps) : LimitsOf cfg opps (tempOppPass cfg opps) := by
  induction opps using List.reverseRecOn with
  | nil =>
      refine ⟨fun set => absurd rfl set, fun split => ?_, fun set => absurd rfl set,
        fun split => ?_⟩ <;> simp at split
  | append_singleton opps last ih =>
      obtain ⟨front, -, across⟩ := List.pairwise_append.mp ascending
      have above : ∀ other ∈ opps, other.rate < last.rate := fun other member =>
        across other member last (List.mem_singleton_self last)
      rw [tempOppPass_snoc]
      by_cases moves : Fits cfg last ∧ (tempOppPass cfg opps).reachMaxVolt = false
      · refine (ih front).moved above moves.1 (fun other member reaches => ?_) moves.2
        exact absurd ((reachMaxVolt_iff opps).mpr ⟨other, member, reaches⟩) (by simp [moves.2])
      · exact (ih front).stuck above (reachMaxVolt_iff opps) moves

/-! ### The voltages -/

variable {info : TempOppInfo} {isLowTemp : Bool}

theorem lowTempVolt_le (minBelow : cfg.lowTempMinVolt ≤ cfg.maxVolt) (opp : Opp.DevPmOpp) :
    lowTempVolt cfg opp ≤ cfg.maxVolt := by
  unfold lowTempVolt
  split
  · rename_i fits
    split
    · exact minBelow
    · exact fits
  · exact le_rfl

/-- A point gets its full voltage exactly when the maximum has room for it. -/
theorem full_iff (minBelow : cfg.lowTempMinVolt ≤ cfg.maxVolt) (opp : Opp.DevPmOpp) :
    (opp.uVolt + deltaVolt cfg opp.rate : ℤ) ≤ lowTempVolt cfg opp ↔ HasRoom cfg opp := by
  constructor
  · intro full
    exact full.trans (Int.ofNat_le.mpr (lowTempVolt_le minBelow opp))
  · intro room
    have room' : (opp.uVolt + deltaVolt cfg opp.rate : ℤ) ≤ cfg.maxVolt := room
    rcases Int.lt_or_le (opp.uVolt + deltaVolt cfg opp.rate : ℤ) 0 with neg | nonneg
    · exact neg.le.trans (Int.natCast_nonneg _)
    · have width := cfg.maxVolt_lt
      have raised : (raisedVolt cfg opp : ℤ) = opp.uVolt + deltaVolt cfg opp.rate :=
        addDelta_of_fits nonneg (by omega)
      have fits : Fits cfg opp := by
        rw [Fits]
        omega
      rw [lowTempVolt, if_pos fits]
      split <;> omega

/-- A switch overwrites what the one before it left. -/
theorem adjustLowTempOpp_again (first : Bool) (opp : Opp.DevPmOpp) :
    adjustLowTempOpp isLowTemp (adjustLowTempOpp first opp (tempEntry cfg opp))
        (tempEntry cfg opp) =
      adjustLowTempOpp isLowTemp opp (tempEntry cfg opp) := by
  cases isLowTemp
  · cases first <;> rfl
  · cases first
    · rfl
    · simp only [adjustLowTempOpp, if_true, Opp.DevPmOpp.mk.injEq, true_and]
      split <;> simp_all

theorem afterSwitches_concat (switches : List Bool) (isLowTemp : Bool) :
    afterSwitches info opps (switches ++ [isLowTemp]) =
      rockchipAdjustLowTempOppVolt info (afterSwitches info opps switches) isLowTemp := by
  rw [afterSwitches, List.foldl_append]
  rfl

theorem rockchipAdjustLowTempOppVolt_map (table : info.oppTable = opps.map (tempEntry cfg))
    (now : Opp.DevPmOpp → Opp.DevPmOpp) (isLowTemp : Bool) :
    rockchipAdjustLowTempOppVolt info (opps.map now) isLowTemp =
      opps.map fun opp => adjustLowTempOpp isLowTemp (now opp) (tempEntry cfg opp) := by
  rw [rockchipAdjustLowTempOppVolt, table, List.zipWith_map, List.zipWith_self]

/-- The points depend on the last switch only. -/
theorem afterSwitches_snoc (table : info.oppTable = opps.map (tempEntry cfg))
    (switches : List Bool) (isLowTemp : Bool) :
    afterSwitches info opps (switches ++ [isLowTemp]) =
      opps.map fun opp => adjustLowTempOpp isLowTemp opp (tempEntry cfg opp) := by
  induction switches using List.reverseRecOn generalizing isLowTemp with
  | nil =>
      have first := rockchipAdjustLowTempOppVolt_map table id isLowTemp
      rwa [List.map_id] at first
  | append_singleton switches first ih =>
      rw [afterSwitches_concat, ih, rockchipAdjustLowTempOppVolt_map table]
      simp only [adjustLowTempOpp_again]

theorem afterSwitches_length (table : info.oppTable = opps.map (tempEntry cfg))
    (switches : List Bool) : (afterSwitches info opps switches).length = opps.length := by
  rcases List.eq_nil_or_concat switches with rfl | ⟨earlier, last, rfl⟩
  · rfl
  · rw [List.concat_eq_append, afterSwitches_snoc table, List.length_map]

/-- The two ways a point is set are in order, the second one only when the point was. -/
theorem ordered_iff (opps : List Opp.DevPmOpp) :
    (∀ isLowTemp, ∀ opp ∈ opps, (adjustLowTempOpp isLowTemp opp (tempEntry cfg opp)).Ordered) ↔
      ∀ opp ∈ opps, opp.uVolt ≤ opp.uVoltMax := by
  constructor
  · intro ordered opp member
    exact (ordered false opp member).2
  · intro ordered isLowTemp opp member
    cases isLowTemp
    · exact ⟨le_rfl, ordered opp member⟩
    · refine ⟨le_rfl, ?_⟩
      simp only [adjustLowTempOpp, if_true]
      split <;> omega

theorem within_iff : Within info opps ↔ opps.length ≤ info.maxCount := by
  constructor
  · intro within
    by_contra short
    exact Nat.lt_irrefl _ (within info.maxCount (by omega))
  · intro enough i below
    exact Nat.lt_of_lt_of_le below enough

/-- Up to the limit of the device, no point is clipped, exactly when no point is clipped below one
that moved the limit before another did not. -/
theorem limitOk_iff (ascending : Ascending opps) :
    ((tempOppPass cfg opps).infoLowLimit ≠ 0 →
        ∀ opp ∈ opps, opp.rate ≤ (tempOppPass cfg opps).infoLowLimit → HasRoom cfg opp) ↔
      LimitOk cfg opps := by
  have limits : LimitsOf cfg opps (tempOppPass cfg opps) := limitsOf ascending
  constructor
  · intro upTo before opp after split moves stuck other member
    have bound := limits.le_info split moves stuck
    subst split
    have inList : other ∈ before ++ opp :: after := by
      simp only [List.mem_append, List.mem_cons, List.not_mem_nil, or_false] at member ⊢
      tauto
    exact upTo (Nat.ne_of_gt (Nat.lt_of_lt_of_le moves.2.1 bound)) other inList
      (((ascending.rate_le_iff inList).mpr member).trans bound)
  · intro ok set opp member below
    obtain ⟨before, mover, after, rfl, moves, stuck, rate⟩ := limits.info_from set
    exact ok before mover after rfl moves stuck opp
      ((ascending.rate_le_iff member).mp (rate ▸ below))

/-- The table and the limit are those of the pass. -/
theorem reversible_iff (minBelow : cfg.lowTempMinVolt ≤ cfg.maxVolt) (ascending : Ascending opps)
    (table : info.oppTable = opps.map (tempEntry cfg))
    (limit : info.lowLimit = (tempOppPass cfg opps).infoLowLimit) :
    Reversible cfg opps info ↔
      opps.length ≤ info.maxCount ∧ (∀ opp ∈ opps, opp.uVolt ≤ opp.uVoltMax) ∧
        LimitOk cfg opps := by
  have zipped (switches : List Bool) :
      opps.zip (afterSwitches info opps (switches ++ [true])) =
        opps.map fun opp => (opp, adjustLowTempOpp true opp (tempEntry cfg opp)) := by
    rw [afterSwitches_snoc table, List.zip, List.zipWith_map_right, List.zipWith_self]
  rw [← limitOk_iff ascending, ← @ordered_iff cfg opps, ← within_iff, ← limit]
  constructor
  · intro reversible
    refine ⟨reversible.init_within, fun isLowTemp opp member => ?_, fun set opp member below => ?_⟩
    · have ordered := reversible.ordered [] isLowTemp
      rw [afterSwitches_snoc table] at ordered
      exact ordered _ (List.mem_map_of_mem member)
    · have full := reversible.full [] set
      rw [zipped] at full
      exact (full_iff minBelow opp).mp (full _ (List.mem_map_of_mem member) below)
  · rintro ⟨within, ordered, upTo⟩
    refine ⟨within, fun switches => ?_, fun switches isLowTemp => ?_, fun switches => ?_,
      fun switches => ?_, fun switches set => ?_⟩
    · rw [Within, afterSwitches_length table]
      exact within
    · rw [afterSwitches_snoc table, List.forall_mem_map]
      exact ordered isLowTemp
    · rw [afterSwitches_snoc table, List.forall_mem_map]
      exact fun opp _ => lowTempVolt_le minBelow opp
    · rw [afterSwitches_snoc table, List.map_map]
      rfl
    · rw [zipped, List.forall_mem_map]
      exact fun opp member below => (full_iff minBelow opp).mpr (upTo set opp member below)

/-- The voltages are bounded and reversible, and the limit is right, exactly when no point is
disabled, each was in order, and no point is clipped below the limit; or when there is no point to
adjust. -/
theorem low_temp_volts_reversible_iff (cfg : TempVoltConfig) (opps : List Opp.DevPmOpp)
    (minBelow : cfg.lowTempMinVolt ≤ cfg.maxVolt) (ascending : Ascending opps) :
    (∀ memory info, rockchipInitTempOppTable cfg opps memory = some info →
        Reversible cfg opps info) ↔
      devPmOppGetOppCount opps = 0 ∨
        (∀ opp ∈ opps, opp.available = true) ∧ (∀ opp ∈ opps, opp.uVolt ≤ opp.uVoltMax) ∧
          LimitOk cfg opps := by
  by_cases empty : devPmOppGetOppCount opps = 0
  · refine iff_of_true (fun memory info made => ?_) (.inl empty)
    rw [rockchipInitTempOppTable, if_pos (.inl empty)] at made
    exact absurd made (by simp)
  · have table : (tempOppPass cfg opps).entries = opps.map (tempEntry cfg) :=
      tempOppPass_entries opps
    rw [or_iff_right empty, ← length_le_devPmOppGetOppCount_iff]
    constructor
    · intro reversible
      exact (reversible_iff minBelow ascending table rfl).mp
        (reversible true _ (if_neg (by simp [empty])))
    · intro ok memory info made
      rw [rockchipInitTempOppTable] at made
      split at made
      · exact absurd made (by simp)
      · cases made
        exact (reversible_iff minBelow ascending table rfl).mpr ok

/-- The last point may be clipped. -/
theorem limitOk_of_room (room : ∀ opp ∈ opps.dropLast, HasRoom cfg opp) : LimitOk cfg opps := by
  rintro before opp after rfl - stuck other member
  rcases List.eq_nil_or_concat after with rfl | ⟨rest, last, rfl⟩
  · exact absurd stuck not_stuck_nil
  · refine room other ?_
    rw [List.concat_eq_append, ← List.cons_append, ← List.append_assoc, List.dropLast_concat]
    simp only [List.mem_append, List.mem_cons, List.not_mem_nil, or_false] at member ⊢
    tauto

/-- Fifty millivolt more up to 1 GHz, and at most a volt. -/
def oneVolt : TempVoltConfig := ⟨some [⟨0, 1000, 50000⟩], 1000000, 750000, 1000000, by decide⟩

def threePoints : List Opp.DevPmOpp :=
  [⟨400000000, true, 800000, 800000, 900000⟩, ⟨800000000, true, 950000, 950000, 1000000⟩,
    ⟨900000000, true, 980000, 980000, 1000000⟩]

/-- With the last point clipped, the limit is the rate below it. -/
theorem low_temp_volts_reversible_threePoints :
    (∀ memory info, rockchipInitTempOppTable oneVolt threePoints memory = some info →
      Reversible oneVolt threePoints info) ∧
    (tempOppPass oneVolt threePoints).infoLowLimit = 800000000 :=
  ⟨(low_temp_volts_reversible_iff oneVolt threePoints (by decide) (by decide)).mpr
    (.inr ⟨by decide, by decide, limitOk_of_room (by decide)⟩), by decide⟩

/-- The first of two points is disabled. -/
def disabledPoint : List Opp.DevPmOpp :=
  [⟨400000000, false, 800000, 800000, 900000⟩, ⟨800000000, true, 900000, 900000, 1000000⟩]

/-- The second point is clipped; the third one, which gets nothing, moves the limit again. -/
def unevenPoints : List Opp.DevPmOpp :=
  [⟨400000000, true, 800000, 800000, 900000⟩, ⟨800000000, true, 980000, 980000, 1000000⟩,
    ⟨1200000000, true, 990000, 990000, 1000000⟩, ⟨1400000000, true, 1010000, 1010000, 1010000⟩]

/-- The table for a disabled point and another is too short, and the limit of the uneven points is
above one that is clipped. -/
theorem disabled_point_overruns_table :
    ¬(∀ memory info, rockchipInitTempOppTable oneVolt disabledPoint memory = some info →
      Reversible oneVolt disabledPoint info) ∧
    ¬∀ memory info, rockchipInitTempOppTable oneVolt unevenPoints memory = some info →
      Reversible oneVolt unevenPoints info := by
  constructor
  · intro reversible
    exact absurd ((reversible true _ rfl).init_within 1 (by decide)) (by decide)
  · intro reversible
    have full := (reversible true _ rfl).full [] (by decide)
      (⟨800000000, true, 980000, 980000, 1000000⟩, ⟨800000000, true, 1000000, 1000000, 1000000⟩)
    exact absurd (full (by decide) (by decide)) (by decide)

end SystemMonitor
end RockchipSoc
