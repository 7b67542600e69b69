import RockchipSoc.Rga.LoadBalance

/-!
# What the chosen core can do

The checks of `rga_job_assign` are weaker than the limits of the hardware in three places: one
common feature bit is enough, the ratio of a reduction is compared after a truncating shift, and an
unknown format code leaves `format` as it was.  The rest of the limits follows from the checks.
-/

namespace RockchipSoc
namespace Rga

/-- The request fills the target and reads no source. -/
def FillRequest (job : RgaPolicyJob) : Prop := (rgaSetFeature job &&& rgaColorFill) ≠ 0

instance (job : RgaPolicyJob) : Decidable (FillRequest job) := inferInstanceAs (Decidable (_ ≠ _))

/-- The windows whose images a request uses. -/
def UsesWin (job : RgaPolicyJob) : RgaWin → Prop
  | .src0 => ¬FillRequest job
  | .src1 => ¬FillRequest job ∧ 0 < job.pat.yrgbAddr
  | .dst => True

/-- The formats that a window lists for a read mode. -/
def RgaWinData.formats (win : RgaWinData) (rdMode : Nat) : List Rga2Format :=
  if rdMode = rgaRasterMode then win.rasterFormats
  else if rdMode = rgaFbcMode then win.fbcFormats
  else if rdMode = rgaTileMode then win.tileFormats
  else []

def RgaHwData.least (data : RgaHwData) : RgaWin → RgaRect
  | .src0 => data.minInput
  | .src1 => data.minInput
  | .dst => data.minOutput

def RgaHwData.largest (data : RgaHwData) : RgaWin → RgaRect
  | .src0 => data.maxInput
  | .src1 => data.maxInput
  | .dst => data.maxOutput

/-- The size of an image is within the limits of its window. -/
structure SizeWithin (data : RgaHwData) (win : RgaWin) (image : RgaImgInfo) : Prop where
  least_w : (data.least win).w ≤ image.actW
  least_h : (data.least win).h ≤ image.actH
  largest_w : image.actW ≤ (data.largest win).w
  largest_h : image.actH ≤ (data.largest win).h

/-- A window supports the read mode, the converted format and the size of an image. -/
structure ImageCapable (data : RgaHwData) (win : RgaWin) (image : RgaImgInfo) : Prop where
  read : image.rdMode ≠ 0 ∧ (image.rdMode &&& (data.win win).rdMode) = image.rdMode
  format : ∃ format ∈ (data.win win).formats image.rdMode,
    userFormatConvert none image.format = some format
  size : SizeWithin data win image

/-- Neither reduced nor enlarged beyond the factors of the core. -/
structure AxisCapable (data : RgaHwData) (s d : Nat) : Prop where
  down : s ≤ d * 2 ^ data.maxDownscaleFactor
  up : d ≤ s * 2 ^ data.maxUpscaleFactor

/-- The core can execute the request. -/
structure Capable (scheduler : RgaCore) (job : RgaPolicyJob) : Prop where
  memory : (job.flags &&& rgaJobUnsupportRga2) ≠ 0 → scheduler.core ≠ rga2SchedulerCore0
  features : (rgaSetFeature job &&& scheduler.data.feature) = rgaSetFeature job
  images : ∀ win, UsesWin job win → ImageCapable scheduler.data win (job.image win)
  scale : ¬FillRequest job → AxisCapable scheduler.data job.src.actW (rotatedDst job).w ∧
    AxisCapable scheduler.data job.src.actH (rotatedDst job).h

/-- Under every load the core that is assigned can execute the request. -/
def AssignsCapable (drv : RgaDrvdata) (left : Nat → RgaWin → Option Rga2Format)
    (job : RgaPolicyJob) : Prop :=
  ∀ load, 0 < rgaJobAssign drv load left job →
    ∃ scheduler ∈ drv.schedulers, rgaJobAssign drv load left job = scheduler.core ∧
      Capable scheduler job

/-- The request has only features of the core, only known formats, and reduces no direction by
more than the factor of the core. -/
structure ExactLimits (data : RgaHwData) (job : RgaPolicyJob) : Prop where
  features : (rgaSetFeature job &&& data.feature) = rgaSetFeature job
  known : ∀ win, UsesWin job win → (userFormatConvert none (job.image win).format).isSome
  down : ¬FillRequest job → job.src.actW ≤ (rotatedDst job).w * 2 ^ data.maxDownscaleFactor ∧
    job.src.actH ≤ (rotatedDst job).h * 2 ^ data.maxDownscaleFactor

variable {drv : RgaDrvdata} {load : Nat → CoreLoad} {data : RgaHwData} {job : RgaPolicyJob}
  {left : RgaWin → Option Rga2Format} {scheduler other : RgaCore}

/-! ## The checks -/

/-- A window reads the modes for which it lists formats. -/
theorem RgaWinData.reads {win : RgaWinData} {rdMode : Nat} {format : Rga2Format}
    (listed : format ∈ win.formats rdMode) : rdMode ≠ 0 ∧ (rdMode &&& win.rdMode) = rdMode := by
  rw [RgaWinData.formats] at listed
  split at listed
  · next raster =>
      subst raster
      exact ⟨by decide, win.raster_read (List.ne_nil_of_mem listed)⟩
  · split at listed
    · next fbc =>
        subst fbc
        exact ⟨by decide, win.fbc_read (List.ne_nil_of_mem listed)⟩
    · split at listed
      · next tile =>
          subst tile
          exact ⟨by decide, win.tile_read (List.ne_nil_of_mem listed)⟩
      · exact absurd listed List.not_mem_nil

theorem rgaCheckFormat_iff {rdMode : Nat} {format : Option Rga2Format} {win : RgaWin} :
    rgaCheckFormat data rdMode format win = true ↔
      ∃ listed ∈ (data.win win).formats rdMode, format = some listed := by
  rw [rgaCheckFormat, RgaWinData.formats]
  cases format with
  | none => split <;> simp
  | some format =>
      split
      · simp
      · split
        · simp
        · split
          · simp
          · simp

/-- What one image check says: the size is within the limits, and what `format` holds is listed. -/
theorem rgaCheckImage_iff {before : Option Rga2Format} {low high : RgaRect} {win : RgaWin}
    {image : RgaImgInfo} :
    rgaCheckImage before data low high win image = true ↔
      (low.w ≤ image.actW ∧ low.h ≤ image.actH ∧ image.actW ≤ high.w ∧ image.actH ≤ high.h) ∧
      ∃ format ∈ (data.win win).formats image.rdMode,
        userFormatConvert before image.format = some format := by
  rw [rgaCheckImage, ← rgaCheckFormat_iff]
  split
  · next small =>
      simp only [Bool.or_eq_true, decide_eq_true_eq] at small
      simp only [Bool.false_eq_true, false_iff]
      omega
  · split
    · next large =>
        simp only [Bool.or_eq_true, decide_eq_true_eq] at large
        simp only [Bool.false_eq_true, false_iff]
        omega
    · next not_small not_large =>
        simp only [Bool.or_eq_true, decide_eq_true_eq] at not_small not_large
        exact ⟨fun listed => ⟨by omega, listed⟩, And.right⟩

/-- A code with a case is converted whatever `format` held before. -/
theorem userFormatConvert_of_known {sf : Nat} (before : Option Rga2Format)
    (known : (userFormatConvert none sf).isSome) :
    userFormatConvert none sf = userFormatConvert before sf := by
  unfold userFormatConvert at known ⊢
  split <;> first | rfl | simp at known

/-- The check of one direction bounds an enlargement exactly. -/
theorem scaleFits_up {s d : Nat} (fits : scaleFits data s d = true) :
    d ≤ s * 2 ^ data.maxUpscaleFactor := by
  have grows : s ≤ s * 2 ^ data.maxUpscaleFactor := Nat.le_mul_of_pos_right s (Nat.two_pow_pos _)
  rw [scaleFits] at fits
  split at fits
  · omega
  · split at fits
    · rw [Nat.shiftLeft_eq] at fits
      simpa using fits
    · omega

theorem sourcesSuit_spec (suit : sourcesSuit left data job = true) :
    rgaCheckScale data job = true ∧ rgaCheckSrc0 (left .src0) data job.src = true ∧
      (0 < job.pat.yrgbAddr → rgaCheckSrc1 (left .src1) data job.pat = true) := by
  rw [sourcesSuit] at suit
  split at suit
  · cases suit
  split at suit
  · cases suit
  split at suit
  · cases suit
  split at suit
  · cases suit
  next scaled =>
    split at suit
    · cases suit
    next checked0 =>
      split at suit
      · cases suit
      next checked1 =>
        simp only [Bool.not_eq_true', Bool.not_eq_false] at scaled checked0
        refine ⟨scaled, checked0, fun present => ?_⟩
        simpa [present] using checked1

/-- What a scheduler has that passes the checks. -/
structure Passed (left : RgaWin → Option Rga2Format) (scheduler : RgaCore) (job : RgaPolicyJob) :
    Prop where
  memory : (job.flags &&& rgaJobUnsupportRga2) ≠ 0 → scheduler.core ≠ rga2SchedulerCore0
  images : ∀ win, UsesWin job win → SizeWithin scheduler.data win (job.image win) ∧
    ∃ format ∈ (scheduler.data.win win).formats (job.image win).rdMode,
      userFormatConvert (left win) (job.image win).format = some format
  scale : ¬FillRequest job → rgaCheckScale scheduler.data job = true

theorem not_fillRequest_iff : ¬FillRequest job ↔ (rgaSetFeature job &&& 1) = 0 :=
  Decidable.not_not

theorem passed_of_suits (passes : suits left scheduler job = true) :
    Passed left scheduler job := by
  rw [suits] at passes
  split at passes
  · cases passes
  next memory =>
    split at passes
    · cases passes
    split at passes
    · cases passes
    next sources =>
      have suit : ¬FillRequest job → sourcesSuit left scheduler.data job = true := by
        intro not_fill
        simpa [not_fillRequest_iff.mp not_fill] using sources
      refine ⟨fun unsupported core => memory ⟨core, unsupported⟩, fun win used => ?_,
        fun not_fill => (sourcesSuit_spec (suit not_fill)).1⟩
      cases win with
      | src0 =>
          obtain ⟨⟨w, h, w', h'⟩, listed⟩ :=
            rgaCheckImage_iff.mp (sourcesSuit_spec (suit used)).2.1
          exact ⟨⟨w, h, w', h'⟩, listed⟩
      | src1 =>
          obtain ⟨⟨w, h, w', h'⟩, listed⟩ :=
            rgaCheckImage_iff.mp ((sourcesSuit_spec (suit used.1)).2.2 used.2)
          exact ⟨⟨w, h, w', h'⟩, listed⟩
      | dst =>
          obtain ⟨⟨w, h, w', h'⟩, listed⟩ := rgaCheckImage_iff.mp passes
          exact ⟨⟨w, h, w', h'⟩, listed⟩

/-- A scheduler that passes the checks lacks only the exact limits. -/
theorem capable_iff (passed : suits left scheduler job = true) :
    Capable scheduler job ↔ ExactLimits scheduler.data job := by
  constructor
  · intro capable
    refine ⟨capable.features, fun win used => ?_, fun sources => ?_⟩
    · obtain ⟨format, _, converted⟩ := (capable.images win used).format
      rw [converted]
      rfl
    · exact ⟨(capable.scale sources).1.down, (capable.scale sources).2.down⟩
  · intro exact_limits
    have checked := passed_of_suits passed
    refine ⟨checked.memory, exact_limits.features, fun win used => ?_, fun sources => ?_⟩
    · obtain ⟨size, format, listed, converted⟩ := checked.images win used
      refine ⟨RgaWinData.reads listed, ⟨format, listed, ?_⟩, size⟩
      rw [userFormatConvert_of_known (left win) (exact_limits.known win used), converted]
    · have fits := checked.scale sources
      rw [rgaCheckScale, Bool.and_eq_true] at fits
      exact ⟨⟨(exact_limits.down sources).1, scaleFits_up fits.1⟩,
        ⟨(exact_limits.down sources).2, scaleFits_up fits.2⟩⟩

/-! ## The candidates -/

theorem functionalCores_and_ne_zero {leftOf : Nat → RgaWin → Option Rga2Format} {mask : Nat}
    {schedulers : List RgaCore} : (functionalCores leftOf job schedulers &&& mask) ≠ 0 ↔
      ∃ scheduler ∈ schedulers, suits (leftOf scheduler.core) scheduler job = true ∧
        (scheduler.core &&& mask) ≠ 0 := by
  induction schedulers with
  | nil => simp [functionalCores, rgaNoneCore]
  | cons first rest ih =>
      rw [functionalCores, Nat.and_or_distrib_right, ne_eq, Nat.or_eq_zero_iff, not_and_or,
        ← ne_eq, ← ne_eq, ih]
      simp only [List.mem_cons, exists_eq_or_imp]
      refine or_congr_left ?_
      split
      · next passes => simp [passes]
      · next fails => simp [fails]

/-- The masks of two cores of the drivers meet only if the cores are the same. -/
theorem RgaDrvdata.core_eq_of_and (drv : RgaDrvdata) (member : scheduler ∈ drv.schedulers)
    (member' : other ∈ drv.schedulers) (meet : (scheduler.core &&& other.core) ≠ 0) :
    scheduler = other := by
  refine drv.eq_of_core member member' ?_
  have some_core := drv.known scheduler member
  have other_core := drv.known other member'
  rcases some_core with core | core | core <;> rcases other_core with core' | core' | core' <;>
    rw [core, core'] at meet ⊢ <;> exact absurd rfl meet

theorem RgaDrvdata.core_ne_zero (drv : RgaDrvdata) (member : scheduler ∈ drv.schedulers) :
    (scheduler.core &&& scheduler.core) ≠ 0 := by
  rcases drv.known scheduler member with core | core | core <;> rw [core] <;> decide

/-- For a request without fixed cores the candidates are the schedulers that pass the checks. -/
theorem mem_candidates_iff_suits {leftOf : Nat → RgaWin → Option Rga2Format}
    (unfixed : job.core = 0) (member : scheduler ∈ drv.schedulers) :
    scheduler ∈ candidates (candidateCores drv leftOf job) drv.schedulers ↔
      suits (leftOf scheduler.core) scheduler job = true := by
  have functional : candidateCores drv leftOf job = functionalCores leftOf job drv.schedulers := by
    rw [candidateCores, unfixed]
    rfl
  rw [mem_candidates_iff, functional, functionalCores_and_ne_zero]
  constructor
  · rintro ⟨_, other, member', passes, meet⟩
    rw [← drv.core_eq_of_and member' member meet]
    exact passes
  · exact fun passes => ⟨member, scheduler, member, passes, drv.core_ne_zero member⟩

/-- Without candidates no core is assigned. -/
theorem rgaJobAssign_of_empty {leftOf : Nat → RgaWin → Option Rga2Format}
    (empty : candidates (candidateCores drv leftOf job) drv.schedulers = []) :
    rgaJobAssign drv load leftOf job ≤ 0 := by
  have found := @leastLoaded_of_busy load (candidateCores drv leftOf job) drv.schedulers (none, 0)
    fun scheduler member => by rw [empty] at member; cases member
  rw [empty] at found
  have nobody : leastLoaded load (candidateCores drv leftOf job) rgaNoneCore 0 drv.schedulers = 0 :=
    found
  rw [rgaJobAssign, nobody]
  split
  · exact le_refl _
  · split
    · decide
    · exact le_refl _

/-- A core that is assigned has passed the checks. -/
theorem exists_suits_of_assigned {leftOf : Nat → RgaWin → Option Rga2Format}
    (unfixed : job.core = 0) (assigned : 0 < rgaJobAssign drv load leftOf job) :
    ∃ scheduler ∈ drv.schedulers, rgaJobAssign drv load leftOf job = scheduler.core ∧
      suits (leftOf scheduler.core) scheduler job = true := by
  have nonempty : candidates (candidateCores drv leftOf job) drv.schedulers ≠ [] := by
    intro empty
    exact absurd assigned (Int.not_lt.mpr (rgaJobAssign_of_empty empty))
  obtain ⟨scheduler, member, found⟩ : ∃ scheduler ∈
      candidates (candidateCores drv leftOf job) drv.schedulers,
      rgaJobAssign drv load leftOf job = scheduler.core := by
    by_cases idle : ∃ scheduler ∈ candidates (candidateCores drv leftOf job) drv.schedulers,
        Idle load scheduler
    · obtain ⟨scheduler, member, _, found⟩ :=
        leastLoaded_of_idle rgaNoneCore 0 idle
      exact ⟨scheduler, member, (rgaJobAssign_eq nonempty).trans (congrArg Int.ofNat found)⟩
    · obtain ⟨scheduler, member, found, _⟩ := rgaJobAssign_of_busy nonempty
        fun scheduler member free => idle ⟨scheduler, member, free⟩
      exact ⟨scheduler, member, found⟩
  have listed := (mem_candidates_iff.mp member).1
  exact ⟨scheduler, listed, found, (mem_candidates_iff_suits unfixed listed).mp member⟩

/-- Only this core is idle. -/
def idleOnly (core : Nat) (other : Nat) : CoreLoad :=
  if other = core then ⟨none, 0⟩ else ⟨some 0, 1⟩

/-- Every core that passes the checks is assigned under some load. -/
theorem assigned_of_suits {leftOf : Nat → RgaWin → Option Rga2Format} (unfixed : job.core = 0)
    (member : scheduler ∈ drv.schedulers)
    (passes : suits (leftOf scheduler.core) scheduler job = true) :
    rgaJobAssign drv (idleOnly scheduler.core) leftOf job = scheduler.core := by
  have candidate := (mem_candidates_iff_suits unfixed member).mpr passes
  have free : Idle (idleOnly scheduler.core) scheduler := by simp [Idle, idleOnly]
  obtain ⟨other, _, other_free, found⟩ := leastLoaded_of_idle rgaNoneCore 0
    ⟨scheduler, candidate, free⟩
  have same : other.core = scheduler.core := by
    by_contra different
    simp [Idle, idleOnly, different] at other_free
  rw [rgaJobAssign_eq (List.ne_nil_of_mem candidate), found, same]

/-- The hardware that is chosen can execute the request under every load exactly if each core that
passes the checks has all features of the request, knows its formats and reduces far enough. -/
theorem rga_job_assign_capable_iff (drv : RgaDrvdata)
    (left : Nat → RgaWin → Option Rga2Format) (job : RgaPolicyJob) (unfixed : job.core = 0) :
    AssignsCapable drv left job ↔
      ∀ scheduler ∈ drv.schedulers, suits (left scheduler.core) scheduler job = true →
        ExactLimits scheduler.data job := by
  constructor
  · intro capable scheduler member passes
    have assigned := assigned_of_suits unfixed member passes
    have positive : 0 < scheduler.core :=
      Nat.pos_of_ne_zero fun zero => drv.core_ne_zero member (by rw [zero]; rfl)
    obtain ⟨other, member', same, can⟩ := capable (idleOnly scheduler.core)
      (by rw [assigned]; exact Int.natCast_pos.mpr positive)
    have same_core : scheduler.core = other.core := Int.ofNat.inj (assigned.symm.trans same)
    rw [drv.eq_of_core member member' same_core] at passes ⊢
    exact (capable_iff passes).mp can
  · intro exact_limits load assigned
    obtain ⟨scheduler, member, found, passes⟩ := exists_suits_of_assigned unfixed assigned
    exact ⟨scheduler, member, found,
      (capable_iff passes).mpr (exact_limits scheduler member passes)⟩

/-! ## Requests of both kinds -/

/-- An RGBA image without compression. -/
def rasterImage (w h : Nat) : RgaImgInfo := { format := 0, actW := w, actH := h, rdMode := 1 }

/-- A copy that reduces the width to a half. -/
def halvingJob : RgaPolicyJob := { src := rasterImage 256 128, dst := rasterImage 128 128 }

theorem rga_job_assign_capable_iff_halving :
    AssignsCapable rk3588Cores (fun _ _ => none) halvingJob := by
  refine (rga_job_assign_capable_iff rk3588Cores (fun _ _ => none) halvingJob rfl).mpr ?_
  intro scheduler member _
  refine ⟨?_, fun win _ => ?_, fun _ => ?_⟩
  · simp [halvingJob, rasterImage, rgaSetFeature, colorFillMode, colorPaletteMode]
  · cases win with
    | src0 => rfl
    | src1 => rfl
    | dst => rfl
  · simp only [rk3588Cores, List.mem_cons, List.not_mem_nil, or_false] at member
    rcases member with rfl | rfl | rfl <;> decide

/-- A fill with a colour key. -/
def keyedFill : RgaPolicyJob := { renderMode := 2, colorKeyMax := 1, dst := rasterImage 128 128 }

/-- A copy that reduces the width by slightly more than eight. -/
def deepReduction : RgaPolicyJob := { src := rasterImage 1031 128, dst := rasterImage 128 128 }

/-- A fill of an image with a format code that the driver does not know. -/
def unknownFill : RgaPolicyJob :=
  { renderMode := 2, dst := { rasterImage 128 128 with format := 0x30 } }

/-- Nothing runs. -/
def allIdle (_ : Nat) : CoreLoad := ⟨none, 0⟩

/-- What a former call left in `format`. -/
def staleFormat (_ : Nat) (_ : RgaWin) : Option Rga2Format := some .rgba8888

/-- RGA3 gets a fill, which it cannot do, and a reduction by more than eight; and RGA2 gets an image
of an unknown format. -/
theorem incapable_core_assigned :
    ¬AssignsCapable rk3588Cores staleFormat keyedFill ∧
      ¬AssignsCapable rk3588Cores staleFormat deepReduction ∧
      ¬AssignsCapable rk3588Cores staleFormat unknownFill := by
  have lacks : ∀ (job : RgaPolicyJob) (chosen : RgaCore), chosen ∈ rk3588Cores.schedulers →
      rgaJobAssign rk3588Cores allIdle staleFormat job = chosen.core → 0 < chosen.core →
      ¬ExactLimits chosen.data job → suits (staleFormat chosen.core) chosen job = true →
      ¬AssignsCapable rk3588Cores staleFormat job := by
    intro job chosen member assigned positive beyond passes capable
    obtain ⟨other, member', same, can⟩ := capable allIdle
      (by rw [assigned]; exact Int.natCast_pos.mpr positive)
    have same_core : chosen.core = other.core := Int.ofNat.inj (assigned.symm.trans same)
    rw [rk3588Cores.eq_of_core member member' same_core] at passes beyond
    exact beyond ((capable_iff passes).mp can)
  refine ⟨lacks keyedFill ⟨rga3SchedulerCore0, rga3Data⟩ List.mem_cons_self ?_ ?_ ?_ ?_,
    lacks deepReduction ⟨rga3SchedulerCore0, rga3Data⟩ List.mem_cons_self ?_ ?_ ?_ ?_,
    lacks unknownFill ⟨rga2SchedulerCore0, rga2eData⟩ (by simp [rk3588Cores]) ?_ ?_ ?_ ?_⟩
  · decide +kernel
  · decide
  · exact fun exact_limits => absurd exact_limits.features (by decide)
  · decide +kernel
  · decide +kernel
  · decide
  · exact fun exact_limits => absurd (exact_limits.down (by decide)).1 (by decide)
  · decide +kernel
  · decide +kernel
  · decide
  · exact fun exact_limits => absurd (exact_limits.known .dst trivial) (by decide)
  · decide +kernel

end Rga
end RockchipSoc
