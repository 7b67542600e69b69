import RockchipSoc.SystemMonitor.WideTemp

/-!
# The maximum frequency follows the temperature

Each side writes its own limit and forgets the other one, so the request is right only as long as
the side that changes last imposes the stricter limit.  A table has one more defect: when the
temperature falls below its first entry, nothing is written at all.
-/

namespace RockchipSoc
namespace SystemMonitor

open CInt NearestEntry SharedLimit

variable {cfg : WideTempConfig} {temp : ℤ} {dev : WideTempDev} {table : List TempFreqTable}

/-! ### What should be requested -/

/-- The low limit, in the low temperature state. -/
def lowPart (cfg : WideTempConfig) (dev : WideTempDev) : Option ℕ :=
  if dev.isLowTemp = true ∧ cfg.lowLimit ≠ 0 then some (cfg.lowLimit / 1000) else none

/-- The single high limit, in the high temperature state. -/
def highPart (dev : WideTempDev) : Option ℕ :=
  if dev.isHighTemp = true ∧ dev.highLimit ≠ 0 then some (dev.highLimit / 1000) else none

/-- The entry with the highest threshold below the temperature. -/
def limitEntry (table : List TempFreqTable) (temp : ℤ) : Option TempFreqTable :=
  floor TempFreqTable.temp table (temp - 1)

/-- The stricter of the limits that apply, or the default. -/
def wantedReq (cfg : WideTempConfig) (dev : WideTempDev) (temp : ℤ) : ℕ :=
  value freqQosMaxDefaultValue (lowPart cfg dev)
    (match cfg.highLimitTable with
      | some table => (limitEntry table temp).map TempFreqTable.freq
      | none => highPart dev)

/-- The entry that applies is below the temperature, and no other such entry has a higher
threshold. -/
theorem limitEntry_highest {entry other : TempFreqTable}
    (sorted : Sorted TempFreqTable.temp table) (found : limitEntry table temp = some entry) :
    entry.temp < temp ∧ (other ∈ table → other.temp < temp → other.temp ≤ entry.temp) :=
  ⟨Int.lt_of_le_sub_one (floor_le found),
    fun member below => sorted.le_floor found member (Int.le_sub_one_of_lt below)⟩

/-- The loop ends with the entry that applies. -/
theorem targetFreq_eq (sorted : Sorted TempFreqTable.temp table) :
    targetFreq temp table =
      ((limitEntry table temp).map fun entry => entry.freq * 1000 % 2 ^ 32).getD 0 := by
  unfold targetFreq
  generalize (0 : ℕ) = start
  induction table generalizing start with
  | nil => rfl
  | cons entry table ih =>
      obtain ⟨entry_lt, sorted⟩ := List.pairwise_cons.mp sorted
      rw [List.foldl_cons, ih sorted]
      unfold limitEntry floor
      by_cases below : entry.temp < temp
      · rw [if_pos below, List.takeWhile_cons_of_pos (by simpa using Int.le_sub_one_of_lt below),
          List.getLast?_cons]
        cases (table.takeWhile fun entry => decide (entry.temp ≤ temp - 1)).getLast? <;> rfl
      · have above : ∀ later ∈ table, ¬later.temp ≤ temp - 1 := fun later member le => by
          have order := entry_lt later member
          omega
        rw [if_neg below, List.takeWhile_cons_of_neg (by rw [decide_eq_true_eq]; omega)]
        cases table with
        | nil => rfl
        | cons later table =>
            rw [List.takeWhile_cons_of_neg (by simpa using above later List.mem_cons_self)]

/-! ### One sample -/

/-- Whether the device is in the low temperature state after a sample. -/
def coldAfter (cfg : WideTempConfig) (dev : WideTempDev) (temp : ℤ) : Bool :=
  if temp < cfg.lowTemp then true
  else if temp > s32 (cfg.lowTemp + cfg.tempHysteresis) then false else dev.isLowTemp

/-- Whether a device with a single high limit is in the high temperature state after a sample. -/
def hotAfter (cfg : WideTempConfig) (dev : WideTempDev) (temp : ℤ) : Bool :=
  if temp > cfg.highTemp then true
  else if temp < s32 (cfg.highTemp - cfg.tempHysteresis) then false else dev.isHighTemp

/-- The low limit after a sample. -/
def lowAfter (cfg : WideTempConfig) (dev : WideTempDev) (temp : ℤ) : Option ℕ :=
  if coldAfter cfg dev temp = true ∧ cfg.lowLimit ≠ 0 then some (cfg.lowLimit / 1000) else none

/-- The single high limit after a sample. -/
def highAfter (cfg : WideTempConfig) (dev : WideTempDev) (temp : ℤ) : Option ℕ :=
  if hotAfter cfg dev temp = true ∧ dev.highLimit ≠ 0 then some (dev.highLimit / 1000) else none

/-- The limit that the table gives for a sample. -/
def tableAfter (table : List TempFreqTable) (temp : ℤ) : Option ℕ :=
  if targetFreq temp table ≠ 0 then some (targetFreq temp table / 1000) else none

/-- The low side changes in a sample, and has a limit. -/
def LowWrites (cfg : WideTempConfig) (dev : WideTempDev) (temp : ℤ) : Prop :=
  coldAfter cfg dev temp ≠ dev.isLowTemp ∧ cfg.lowLimit ≠ 0

/-- The high side changes in a sample, and has a limit. -/
def HighWrites (cfg : WideTempConfig) (dev : WideTempDev) (temp : ℤ) : Prop :=
  hotAfter cfg dev temp ≠ dev.isHighTemp ∧ dev.highLimit ≠ 0

/-- The table gives a limit that is not the last one. -/
def TableWrites (dev : WideTempDev) (table : List TempFreqTable) (temp : ℤ) : Prop :=
  targetFreq temp table ≠ dev.highLimit ∧ targetFreq temp table ≠ 0

instance : Decidable (LowWrites cfg dev temp) := inferInstanceAs (Decidable (_ ∧ _))
instance : Decidable (HighWrites cfg dev temp) := inferInstanceAs (Decidable (_ ∧ _))
instance : Decidable (TableWrites dev table temp) := inferInstanceAs (Decidable (_ ∧ _))

theorem rockchipLowTempAdjust_eq (isLow : Bool) : rockchipLowTempAdjust cfg dev isLow =
    { dev with
      isLowTemp := isLow
      maxFreqReq :=
        if cfg.lowLimit ≠ 0 then
          (if isLow then cfg.lowLimit / 1000 else freqQosMaxDefaultValue)
        else dev.maxFreqReq } := by
  unfold rockchipLowTempAdjust rockchipMonitorCpuLowTempAdjust rockchipMonitorDevLowTempAdjust
    pmQosMaxFrequencyDefaultValue lowTempAdjust
  cases cfg.type <;> dsimp only <;> split <;> rfl

theorem rockchipHighTempAdjust_eq (isHigh : Bool) (single : cfg.highLimitTable = none) :
    rockchipHighTempAdjust cfg dev isHigh =
    { dev with
      isHighTemp := isHigh
      maxFreqReq :=
        if dev.highLimit ≠ 0 then
          (if isHigh then dev.highLimit / 1000 else freqQosMaxDefaultValue)
        else dev.maxFreqReq } := by
  unfold rockchipHighTempAdjust rockchipMonitorCpuHighTempAdjust rockchipMonitorDevHighTempAdjust
    pmQosMaxFrequencyDefaultValue highTempAdjust
  simp only [single, Option.isSome_none, Bool.false_eq_true, if_false, ite_not]
  cases cfg.type <;> dsimp only <;> split <;> rfl

theorem rockchipHighTempAdjust_table (isHigh : Bool) (tabled : cfg.highLimitTable = some table) :
    rockchipHighTempAdjust cfg dev isHigh =
    { dev with
      maxFreqReq := if dev.highLimit ≠ 0 then dev.highLimit / 1000 else dev.maxFreqReq } := by
  unfold rockchipHighTempAdjust rockchipMonitorCpuHighTempAdjust rockchipMonitorDevHighTempAdjust
    pmQosMaxFrequencyDefaultValue highTempAdjust
  simp only [tabled, Option.isSome_some, if_true, ite_not]
  cases cfg.type <;> dsimp only <;> split <;> rfl

theorem adjustLow_eq : adjustLow cfg temp dev =
    { dev with
      isLowTemp := coldAfter cfg dev temp
      maxFreqReq :=
        if LowWrites cfg dev temp then (lowAfter cfg dev temp).getD freqQosMaxDefaultValue
        else dev.maxFreqReq } := by
  obtain ⟨isLow, isHigh, highLimit, maxFreqReq⟩ := dev
  unfold adjustLow LowWrites lowAfter coldAfter
  rw [rockchipLowTempAdjust_eq, rockchipLowTempAdjust_eq]
  by_cases limited : cfg.lowLimit = 0 <;> by_cases below : temp < cfg.lowTemp <;>
    by_cases above : temp > s32 (cfg.lowTemp + cfg.tempHysteresis) <;>
    cases isLow <;> simp [limited, below, above]

theorem adjustHigh_eq (single : cfg.highLimitTable = none) : adjustHigh cfg temp dev =
    { dev with
      isHighTemp := hotAfter cfg dev temp
      maxFreqReq :=
        if HighWrites cfg dev temp then (highAfter cfg dev temp).getD freqQosMaxDefaultValue
        else dev.maxFreqReq } := by
  obtain ⟨isLow, isHigh, highLimit, maxFreqReq⟩ := dev
  unfold adjustHigh HighWrites highAfter hotAfter
  rw [single]
  dsimp only
  rw [rockchipHighTempAdjust_eq _ single, rockchipHighTempAdjust_eq _ single]
  by_cases limited : highLimit = 0 <;> by_cases above : temp > cfg.highTemp <;>
    by_cases below : temp < s32 (cfg.highTemp - cfg.tempHysteresis) <;>
    cases isHigh <;> simp [limited, below, above]

theorem adjustHigh_table (tabled : cfg.highLimitTable = some table) : adjustHigh cfg temp dev =
    { dev with
      highLimit := targetFreq temp table
      maxFreqReq :=
        if TableWrites dev table temp then
          (tableAfter table temp).getD freqQosMaxDefaultValue
        else dev.maxFreqReq } := by
  unfold adjustHigh TableWrites tableAfter
  rw [tabled]
  dsimp only
  rw [rockchipHighTempAdjust_table _ tabled]
  obtain ⟨isLow, isHigh, highLimit, maxFreqReq⟩ := dev
  by_cases same : targetFreq temp table = highLimit
  · subst same
    simp
  · by_cases unlimited : targetFreq temp table = 0
    · have wasLimited : highLimit ≠ 0 := fun zero => same (unlimited.trans zero.symm)
      simp [unlimited, wasLimited.symm]
    · simp [same, unlimited]

/-- What the last request was made for: the limits in force after the last sample. -/
def InForce (cfg : WideTempConfig) (dev : WideTempDev) : Prop :=
  dev.maxFreqReq = value freqQosMaxDefaultValue (lowPart cfg dev)
    (match cfg.highLimitTable with
      | some _ => if dev.highLimit ≠ 0 then some (dev.highLimit / 1000) else none
      | none => highPart dev)

/-- The condition on a sample: the side that writes last imposes the stricter limit.  With a
table, a limit that ends without a write must have been hidden by the low limit, and the entry must
be a frequency that can be converted to Hz. -/
structure SampleOk (cfg : WideTempConfig) (dev : WideTempDev) (temp : ℤ) : Prop where
  highLast : cfg.highLimitTable = none → HighWrites cfg dev temp →
    Undisturbed (highAfter cfg dev temp) (lowAfter cfg dev temp)
  lowLast : cfg.highLimitTable = none → ¬HighWrites cfg dev temp → LowWrites cfg dev temp →
    Undisturbed (lowAfter cfg dev temp) (highAfter cfg dev temp)
  tableLast : ∀ table ∈ cfg.highLimitTable, TableWrites dev table temp →
    Undisturbed (tableAfter table temp) (lowAfter cfg dev temp)
  lowBesideTable : ∀ table ∈ cfg.highLimitTable, ¬TableWrites dev table temp →
    LowWrites cfg dev temp → Undisturbed (lowAfter cfg dev temp) (tableAfter table temp)
  tableEnds : ∀ table ∈ cfg.highLimitTable, targetFreq temp table = 0 → dev.highLimit ≠ 0 →
    ¬LowWrites cfg dev temp → Undisturbed (lowAfter cfg dev temp) (some (dev.highLimit / 1000))
  entryFits : ∀ table ∈ cfg.highLimitTable, ∀ entry ∈ limitEntry table temp,
    0 < entry.freq ∧ entry.freq * 1000 < 2 ^ 32

/-- Without a table, only the two sides matter. -/
theorem sampleOk_single (single : cfg.highLimitTable = none)
    (high : HighWrites cfg dev temp →
      Undisturbed (highAfter cfg dev temp) (lowAfter cfg dev temp))
    (low : ¬HighWrites cfg dev temp → LowWrites cfg dev temp →
      Undisturbed (lowAfter cfg dev temp) (highAfter cfg dev temp)) : SampleOk cfg dev temp := by
  have noTable : ∀ table, table ∉ cfg.highLimitTable := by simp [single]
  exact ⟨fun _ => high, fun _ => low, fun table member => (noTable table member).elim,
    fun table member => (noTable table member).elim,
    fun table member => (noTable table member).elim,
    fun table member => (noTable table member).elim⟩

theorem lowAfter_eq_of_not (silent : ¬LowWrites cfg dev temp) :
    lowAfter cfg dev temp = lowPart cfg dev := by
  unfold lowAfter lowPart
  by_cases limited : cfg.lowLimit = 0
  · simp [limited]
  · rw [not_not.mp fun changed => silent ⟨changed, limited⟩]

theorem highAfter_eq_of_not (silent : ¬HighWrites cfg dev temp) :
    highAfter cfg dev temp = highPart dev := by
  unfold highAfter highPart
  by_cases limited : dev.highLimit = 0
  · simp [limited]
  · rw [not_not.mp fun changed => silent ⟨changed, limited⟩]

theorem sample_single (single : cfg.highLimitTable = none) (inForce : InForce cfg dev)
    (ok : SampleOk cfg dev temp) :
    (rockchipSystemMonitorWideTempAdjust cfg temp dev).maxFreqReq =
      value freqQosMaxDefaultValue (lowAfter cfg dev temp) (highAfter cfg dev temp) := by
  unfold rockchipSystemMonitorWideTempAdjust
  rw [adjustHigh_eq single, adjustLow_eq]
  show (if HighWrites cfg dev temp then (highAfter cfg dev temp).getD freqQosMaxDefaultValue
    else if LowWrites cfg dev temp then (lowAfter cfg dev temp).getD freqQosMaxDefaultValue
    else dev.maxFreqReq) = _
  split
  · next high => rw [value_comm, (ok.highLast single high).value_eq]
  · next highSilent =>
      split
      · next low => rw [(ok.lowLast single highSilent low).value_eq]
      · next lowSilent =>
          rw [inForce, lowAfter_eq_of_not lowSilent, highAfter_eq_of_not highSilent, single]

theorem sample_table (tabled : cfg.highLimitTable = some table) (inForce : InForce cfg dev)
    (ok : SampleOk cfg dev temp) :
    (rockchipSystemMonitorWideTempAdjust cfg temp dev).maxFreqReq =
      value freqQosMaxDefaultValue (lowAfter cfg dev temp) (tableAfter table temp) := by
  unfold rockchipSystemMonitorWideTempAdjust
  rw [adjustHigh_table tabled, adjustLow_eq]
  show (if TableWrites dev table temp then (tableAfter table temp).getD freqQosMaxDefaultValue
    else if LowWrites cfg dev temp then (lowAfter cfg dev temp).getD freqQosMaxDefaultValue
    else dev.maxFreqReq) = _
  split
  · next writes => rw [value_comm, (ok.tableLast table tabled writes).value_eq]
  · next silent =>
      split
      · next low => rw [(ok.lowBesideTable table tabled silent low).value_eq]
      · next lowSilent =>
          rw [inForce, ← lowAfter_eq_of_not lowSilent, tabled]
          dsimp only
          by_cases ended : targetFreq temp table = 0
          · rw [tableAfter, if_neg (not_not.mpr ended), value_none_right]
            by_cases wasLimited : dev.highLimit = 0
            · rw [if_neg (not_not.mpr wasLimited), value_none_right]
            · rw [if_pos wasLimited,
                (ok.tableEnds table tabled ended wasLimited lowSilent).value_eq]
          · have kept : targetFreq temp table = dev.highLimit :=
              not_not.mp fun changed => silent ⟨changed, ended⟩
            rw [tableAfter, kept]

theorem tableAfter_eq (sorted : Sorted TempFreqTable.temp table)
    (fits : ∀ entry ∈ limitEntry table temp, 0 < entry.freq ∧ entry.freq * 1000 < 2 ^ 32) :
    tableAfter table temp = (limitEntry table temp).map TempFreqTable.freq := by
  unfold tableAfter
  rw [targetFreq_eq sorted]
  cases found : limitEntry table temp with
  | none => rfl
  | some entry =>
      obtain ⟨pos, small⟩ := fits entry found
      simp only [Option.map_some, Option.getD_some, Nat.mod_eq_of_lt small]
      rw [if_pos (by omega), Nat.mul_div_cancel _ (by decide)]

/-- After a sample that meets the condition, the request is for the limits that apply. -/
theorem InForce.sample (inForce : InForce cfg dev) (ok : SampleOk cfg dev temp) :
    InForce cfg (rockchipSystemMonitorWideTempAdjust cfg temp dev) ∧
      (rockchipSystemMonitorWideTempAdjust cfg temp dev).maxFreqReq =
        wantedReq cfg (rockchipSystemMonitorWideTempAdjust cfg temp dev) temp := by
  cases single : cfg.highLimitTable with
  | none =>
      have req := sample_single single inForce ok
      have low : lowPart cfg (rockchipSystemMonitorWideTempAdjust cfg temp dev) =
          lowAfter cfg dev temp := by
        rw [rockchipSystemMonitorWideTempAdjust, adjustHigh_eq single, adjustLow_eq]
        rfl
      have high : highPart (rockchipSystemMonitorWideTempAdjust cfg temp dev) =
          highAfter cfg dev temp := by
        rw [rockchipSystemMonitorWideTempAdjust, adjustHigh_eq single, adjustLow_eq]
        rfl
      rw [← low, ← high] at req
      exact ⟨by rw [InForce, single]; exact req, by rw [wantedReq, single]; exact req⟩
  | some table =>
      have req := sample_table single inForce ok
      have low : lowPart cfg (rockchipSystemMonitorWideTempAdjust cfg temp dev) =
          lowAfter cfg dev temp := by
        rw [rockchipSystemMonitorWideTempAdjust, adjustHigh_table single, adjustLow_eq]
        rfl
      have limit : (rockchipSystemMonitorWideTempAdjust cfg temp dev).highLimit =
          targetFreq temp table := by
        rw [rockchipSystemMonitorWideTempAdjust, adjustHigh_table single]
      rw [← low] at req
      refine ⟨?_, ?_⟩
      · rw [InForce, single, limit]
        exact req
      · rw [wantedReq, single, req, tableAfter_eq (cfg.table_ascends table single)
          (ok.entryFits table single)]

/-! ### Runs -/

/-- Every sample of a sequence meets the condition. -/
def SamplesOk (cfg : WideTempConfig) : WideTempDev → List ℤ → Prop
  | _, [] => True
  | dev, temp :: temps =>
      SampleOk cfg dev temp ∧ SamplesOk cfg (rockchipSystemMonitorWideTempAdjust cfg temp dev) temps

/-- The flags of a device when it is registered: the two states exclude each other. -/
theorem wideTempInit_flags (hasOppTable : Bool) (reading : Option ℤ) (cold : dev.isLowTemp = false)
    (notHot : dev.isHighTemp = false) :
    ∃ isLow isHigh, rockchipSystemMonitorWideTempInit cfg dev hasOppTable reading =
        { dev with isLowTemp := isLow, isHighTemp := isHigh } ∧ (isLow && isHigh) = false := by
  obtain ⟨isLow, isHigh, highLimit, maxFreqReq⟩ := dev
  obtain rfl : isLow = false := cold
  obtain rfl : isHigh = false := notHot
  unfold rockchipSystemMonitorWideTempInit
  split
  · exact ⟨false, false, rfl, rfl⟩
  · split
    · exact ⟨true, false, rfl, rfl⟩
    · split
      · exact ⟨false, true, rfl, rfl⟩
      · split
        · exact ⟨false, false, rfl, rfl⟩
        · exact ⟨true, false, rfl, rfl⟩

theorem inForce_start (hasOppTable : Bool) (reading : Option ℤ) :
    InForce cfg (wideTempStart cfg hasOppTable reading) := by
  obtain ⟨isLow, isHigh, init, exclusive⟩ := @wideTempInit_flags cfg
    ⟨false, false, if cfg.highLimitTable.isSome then 0 else cfg.highLimit, 0⟩ hasOppTable reading
    rfl rfl
  unfold wideTempStart
  rw [init]
  unfold InForce rockchipSystemMonitorFreqQosRequset lowPart highPart
  cases tabled : cfg.highLimitTable with
  | none =>
      cases isLow <;> cases isHigh <;> by_cases low : cfg.lowLimit = 0 <;>
        by_cases high : cfg.highLimit = 0 <;> simp_all [value, strictest]
  | some table =>
      cases isLow <;> by_cases low : cfg.lowLimit = 0 <;> simp [low, value, strictest]

theorem inForce_run {temps : List ℤ} (inForce : InForce cfg dev) (ok : SamplesOk cfg dev temps) :
    InForce cfg (wideTempRun cfg dev temps) := by
  induction temps generalizing dev with
  | nil => exact inForce
  | cons temp temps ih => exact ih (inForce.sample ok.1).1 ok.2

theorem samplesOk_append {temps later : List ℤ} :
    SamplesOk cfg dev (temps ++ later) ↔
      SamplesOk cfg dev temps ∧ SamplesOk cfg (wideTempRun cfg dev temps) later := by
  induction temps generalizing dev with
  | nil => simp [SamplesOk, wideTempRun]
  | cons temp temps ih =>
      rw [List.cons_append, SamplesOk, SamplesOk, ih, and_assoc]
      rfl

/-- In every sequence of temperatures whose samples meet the condition, the request for the maximum
frequency is, after each sample, the stricter of the limits that apply there. -/
theorem wide_temp_limits_follow (cfg : WideTempConfig) (hasOppTable : Bool) (reading : Option ℤ)
    (temps : List ℤ) (temp : ℤ)
    (ok : SamplesOk cfg (wideTempStart cfg hasOppTable reading) (temps ++ [temp])) :
    (wideTempRun cfg (wideTempStart cfg hasOppTable reading) (temps ++ [temp])).maxFreqReq =
      wantedReq cfg (wideTempRun cfg (wideTempStart cfg hasOppTable reading) (temps ++ [temp]))
        temp := by
  obtain ⟨before, last, _⟩ := samplesOk_append.mp ok
  have inForce := inForce_run (inForce_start hasOppTable reading) before
  rw [wideTempRun, List.foldl_append]
  exact (inForce.sample last).2

/-! ### A board -/

/-- A core that is limited below 0 °C and above 85 °C. -/
def boardSingle : WideTempConfig :=
  { type := .cpu
    lowTemp := 0
    highTemp := 85000
    tempHysteresis := 5000
    lowLimit := 1008000000
    highLimit := 1608000000
    highLimitTable := none
    table_ascends := fun _ member => by cases member }

/-- A core with a table of high limits. -/
def boardTable : WideTempConfig :=
  { boardSingle with
    highLimitTable := some [⟨85000, 1608000⟩, ⟨95000, 1200000⟩]
    table_ascends := fun table member => by
      obtain rfl := Option.some.inj member
      exact List.pairwise_pair.mpr (by decide) }

/-- From the low range through the normal one into the high range and back. -/
theorem wide_temp_limits_follow_boardSingle :
    (wideTempRun boardSingle (wideTempStart boardSingle true (some (-10000)))
        ([20000, 90000, 82000] ++ [70000])).maxFreqReq = freqQosMaxDefaultValue := by
  refine (wide_temp_limits_follow boardSingle true (some (-10000)) [20000, 90000, 82000] 70000
    ⟨?_, ?_, ?_, ?_, trivial⟩).trans (by decide)
  all_goals exact sampleOk_single rfl (by decide) (by decide)

/-- Two failures: with a table, the limit stays when the temperature has fallen below the first
entry; with a single limit, a fall from the high range into the low range loses the low limit. -/
theorem wide_temp_limits_fail :
    (wideTempRun boardTable (wideTempStart boardTable true (some 20000))
        ([90000] ++ [20000])).maxFreqReq ≠
      wantedReq boardTable (wideTempRun boardTable (wideTempStart boardTable true (some 20000))
        ([90000] ++ [20000])) 20000 ∧
    (wideTempRun boardSingle (wideTempStart boardSingle true (some 20000))
        ([90000] ++ [-10000])).maxFreqReq ≠
      wantedReq boardSingle (wideTempRun boardSingle (wideTempStart boardSingle true (some 20000))
        ([90000] ++ [-10000])) (-10000) := by
  decide

end SystemMonitor
end RockchipSoc
