import RockchipSoc.Rga.Mm

/-!
# Choosing a core for a job

`rga_job_assign` collects the cores whose hardware data suit the request, unless user space has
fixed the cores, and takes an idle one of them or one with few jobs.  `int format` of the checks is
not initialised: where `user_format_convert` has no case, the check reads what was left there.
-/

namespace RockchipSoc
namespace Rga

def rgaNoneCore : Nat := 0
def rgaCoreMask : Nat := 7

def rgaRasterMode : Nat := 1
def rgaFbcMode : Nat := 2
def rgaTileMode : Nat := 4

def colorPaletteMode : Nat := 1
def colorFillMode : Nat := 2

def rgaColorFill : Nat := 1
def rgaColorPalette : Nat := 2
def rgaColorKey : Nat := 4
def rgaRopCalculate : Nat := 8
def rgaNnQuantize : Nat := 16
def rgaDither : Nat := 64

def rgaJobUnsupportRga2 : Nat := 16

/-! ## Hardware data -/

structure RgaRect where
  w : Nat
  h : Nat
  deriving DecidableEq, Repr

/-- A window lists formats only for the read modes that it has. -/
structure RgaWinData where
  rasterFormats : List Rga2Format
  fbcFormats : List Rga2Format
  tileFormats : List Rga2Format
  rdMode : Nat
  raster_read : rasterFormats ≠ [] → rgaRasterMode &&& rdMode = rgaRasterMode
  fbc_read : fbcFormats ≠ [] → rgaFbcMode &&& rdMode = rgaFbcMode
  tile_read : tileFormats ≠ [] → rgaTileMode &&& rdMode = rgaTileMode

/-- The windows `win[0]`, `win[1]` and `win[2]` read the two sources and write the target. -/
inductive RgaWin
  | src0 | src1 | dst
  deriving DecidableEq, Repr

structure RgaHwData where
  feature : Nat
  maxInput : RgaRect
  maxOutput : RgaRect
  minInput : RgaRect
  minOutput : RgaRect
  maxUpscaleFactor : Nat
  maxDownscaleFactor : Nat
  win : RgaWin → RgaWinData

def rga3RasterFormat : List Rga2Format :=
  [.rgba8888, .bgra8888, .rgb888, .bgr888, .rgb565, .bgr565, .ycbcr422sp, .ycbcr420sp, .ycrcb422sp,
    .ycrcb420sp, .yvyu422, .vyuy422, .yuyv422, .uyvy422, .ycbcr420sp10b, .ycrcb420sp10b,
    .ycbcr422sp10b, .ycrcb422sp10b]

def rga3FbcdFormat : List Rga2Format :=
  [.rgba8888, .bgra8888, .rgb888, .bgr888, .rgb565, .bgr565, .ycbcr422sp, .ycbcr420sp, .ycrcb422sp,
    .ycrcb420sp, .ycbcr420sp10b, .ycrcb420sp10b, .ycbcr422sp10b, .ycrcb422sp10b]

def rga3TileFormat : List Rga2Format :=
  [.ycbcr422sp, .ycbcr420sp, .ycrcb422sp, .ycrcb420sp, .ycbcr420sp10b, .ycrcb420sp10b,
    .ycbcr422sp10b, .ycrcb422sp10b]

def rga2eRasterFormat : List Rga2Format :=
  [.rgba8888, .rgbx8888, .bgra8888, .bgrx8888, .rgb888, .bgr888, .rgb565, .bgr565, .ycbcr422p,
    .ycbcr420p, .ycrcb422p, .ycrcb420p, .ycbcr422sp, .ycbcr420sp, .ycrcb422sp, .ycrcb420sp,
    .yvyu422, .vyuy422, .yuyv422, .uyvy422, .ycbcr420sp10b, .ycrcb420sp10b, .ycbcr422sp10b,
    .ycrcb422sp10b, .y4, .ycbcr400, .rgba5551, .bgra5551, .rgba4444, .bgra4444, .xrgb8888,
    .xbgr8888, .bpp1, .bpp2, .bpp4, .bpp8, .argb8888, .argb5551, .argb4444, .abgr8888, .abgr5551,
    .abgr4444]

/-- The three windows of `rga3_win_data` differ in nothing that the policy reads. -/
def rga3WinData : RgaWinData where
  rasterFormats := rga3RasterFormat
  fbcFormats := rga3FbcdFormat
  tileFormats := rga3TileFormat
  rdMode := rgaRasterMode ||| rgaFbcMode ||| rgaTileMode
  raster_read _ := rfl
  fbc_read _ := rfl
  tile_read _ := rfl

/-- So do those of `rga2e_win_data`. -/
def rga2eWinData : RgaWinData where
  rasterFormats := rga2eRasterFormat
  fbcFormats := []
  tileFormats := []
  rdMode := rgaRasterMode
  raster_read _ := rfl
  fbc_read listed := absurd rfl listed
  tile_read listed := absurd rfl listed

def rga3Data : RgaHwData where
  feature := rgaColorKey
  maxInput := ⟨8176, 8176⟩
  maxOutput := ⟨8128, 8128⟩
  minInput := ⟨128, 128⟩
  minOutput := ⟨128, 128⟩
  maxUpscaleFactor := 3
  maxDownscaleFactor := 3
  win _ := rga3WinData

def rga2eData : RgaHwData where
  feature := rgaColorFill ||| rgaColorPalette ||| rgaColorKey ||| rgaRopCalculate |||
    rgaNnQuantize ||| rgaDither
  maxInput := ⟨8192, 8192⟩
  maxOutput := ⟨4096, 4096⟩
  minInput := ⟨0, 0⟩
  minOutput := ⟨0, 0⟩
  maxUpscaleFactor := 4
  maxDownscaleFactor := 4
  win _ := rga2eWinData

/-! ## Requests -/

/-- What the policy reads of `struct rga_img_info_t`. -/
structure RgaImgInfo where
  yrgbAddr : Nat := 0
  format : Nat := 0
  actW : Nat := 0
  actH : Nat := 0
  rdMode : Nat := 0
  deriving DecidableEq, Repr

/-- What the policy reads of a job: `flags`, and the rest from `rga_command_base`. -/
structure RgaPolicyJob where
  flags : Nat := 0
  core : Nat := 0
  renderMode : Nat := 0
  src : RgaImgInfo := {}
  dst : RgaImgInfo := {}
  pat : RgaImgInfo := {}
  sina : Int := 0
  cosa : Int := 0
  alphaRopFlag : Nat := 0
  colorKeyMax : Nat := 0
  colorKeyMin : Nat := 0
  deriving DecidableEq, Repr

def RgaPolicyJob.image (job : RgaPolicyJob) : RgaWin → RgaImgInfo
  | .src0 => job.src
  | .src1 => job.pat
  | .dst => job.dst

def rgaSetFeature (job : RgaPolicyJob) : Nat :=
  (if job.renderMode = colorFillMode then rgaColorFill else 0) |||
  (if job.renderMode = colorPaletteMode then rgaColorPalette else 0) |||
  (if job.colorKeyMax > 0 ∨ job.colorKeyMin > 0 then rgaColorKey else 0) |||
  (if job.alphaRopFlag >>> 1 &&& 1 = 1 then rgaRopCalculate else 0) |||
  (if job.alphaRopFlag >>> 8 &&& 1 = 1 then rgaNnQuantize else 0)

/-! ## The checks of one core -/

def rgaCheckFormat (data : RgaHwData) (rdMode : Nat) (format : Option Rga2Format)
    (winNum : RgaWin) : Bool :=
  if rdMode = rgaRasterMode then format.any (data.win winNum).rasterFormats.contains
  else if rdMode = rgaFbcMode then format.any (data.win winNum).fbcFormats.contains
  else if rdMode = rgaTileMode then format.any (data.win winNum).tileFormats.contains
  else false

/-- The common body of the three image checks; `left` is what `format` held on entry. -/
def rgaCheckImage (left : Option Rga2Format) (data : RgaHwData) (low high : RgaRect)
    (winNum : RgaWin) (image : RgaImgInfo) : Bool :=
  if image.actW < low.w || image.actH < low.h then false
  else if image.actW > high.w || image.actH > high.h then false
  else rgaCheckFormat data image.rdMode (userFormatConvert left image.format) winNum

def rgaCheckSrc0 (left : Option Rga2Format) (data : RgaHwData) (src0 : RgaImgInfo) : Bool :=
  rgaCheckImage left data data.minInput data.maxInput .src0 src0

def rgaCheckSrc1 (left : Option Rga2Format) (data : RgaHwData) (src1 : RgaImgInfo) : Bool :=
  rgaCheckImage left data data.minInput data.maxInput .src1 src1

def rgaCheckDst (left : Option Rga2Format) (data : RgaHwData) (dst : RgaImgInfo) : Bool :=
  rgaCheckImage left data data.minOutput data.maxOutput .dst dst

/-- The width and the height of the target as the source sees them. -/
def rotatedDst (job : RgaPolicyJob) : RgaRect :=
  if (job.sina = 65536 ∧ job.cosa = 0) ∨ (job.sina = -65536 ∧ job.cosa = 0) then
    ⟨job.dst.actH, job.dst.actW⟩
  else ⟨job.dst.actW, job.dst.actH⟩

/-- The check of one direction, from `s` pixels to `d`. -/
def scaleFits (data : RgaHwData) (s d : Nat) : Bool :=
  if s > d then !decide (s >>> data.maxDownscaleFactor > d)
  else if s < d then !decide (s <<< data.maxUpscaleFactor < d)
  else true

def rgaCheckScale (data : RgaHwData) (job : RgaPolicyJob) : Bool :=
  scaleFits data job.src.actW (rotatedDst job).w && scaleFits data job.src.actH (rotatedDst job).h

/-! ## The two loops -/

structure RgaCore where
  core : Nat
  data : RgaHwData

/-- The schedulers, one for each core, in the order in which they were probed. -/
structure RgaDrvdata where
  schedulers : List RgaCore
  known : ∀ scheduler ∈ schedulers, scheduler.core = rga3SchedulerCore0 ∨
    scheduler.core = rga3SchedulerCore1 ∨ scheduler.core = rga2SchedulerCore0
  distinct : (schedulers.map RgaCore.core).Nodup

/-- `running_job` and `job_count` of a scheduler. -/
structure CoreLoad where
  runningJob : Option Nat
  jobCount : Int
  deriving DecidableEq, Repr

/-- The part of the first loop that a fill request skips. -/
def sourcesSuit (left : RgaWin → Option Rga2Format) (data : RgaHwData) (job : RgaPolicyJob) :
    Bool :=
  if (job.src.rdMode &&& (data.win .src0).rdMode) = 0 then false
  else if job.pat.yrgbAddr > 0 && (job.pat.rdMode &&& (data.win .src1).rdMode) = 0 then false
  else if (job.dst.rdMode &&& (data.win .dst).rdMode) = 0 then false
  else if !rgaCheckScale data job then false
  else if !rgaCheckSrc0 (left .src0) data job.src then false
  else if job.pat.yrgbAddr > 0 && !rgaCheckSrc1 (left .src1) data job.pat then false
  else true

/-- One round of the first loop adds the core to `optional_cores`. -/
def suits (left : RgaWin → Option Rga2Format) (scheduler : RgaCore) (job : RgaPolicyJob) : Bool :=
  if scheduler.core = rga2SchedulerCore0 ∧ (job.flags &&& rgaJobUnsupportRga2) ≠ 0 then false
  else if rgaSetFeature job > 0 ∧ (rgaSetFeature job &&& scheduler.data.feature) = 0 then false
  else if (rgaSetFeature job &&& 1) = 0 && !sourcesSuit left scheduler.data job then false
  else rgaCheckDst (left .dst) scheduler.data job.dst

def functionalCores (left : Nat → RgaWin → Option Rga2Format) (job : RgaPolicyJob) :
    List RgaCore → Nat
  | [] => rgaNoneCore
  | scheduler :: rest =>
      (if suits (left scheduler.core) scheduler job then scheduler.core else 0) |||
        functionalCores left job rest

/-- The second loop; `core` and `least` are the core and `min_of_job_count` so far. -/
def leastLoaded (load : Nat → CoreLoad) (optionalCores core : Nat) (least : Int) :
    List RgaCore → Nat
  | [] => core
  | scheduler :: rest =>
      if (optionalCores &&& scheduler.core) = 0 then leastLoaded load optionalCores core least rest
      else if (load scheduler.core).runningJob = none then scheduler.core
      else if least > (load scheduler.core).jobCount ∨ least = 0 then
        leastLoaded load optionalCores scheduler.core (load scheduler.core).jobCount rest
      else leastLoaded load optionalCores core least rest

/-- `optional_cores` at the second loop; zero where that loop is not reached. -/
def candidateCores (drv : RgaDrvdata) (left : Nat → RgaWin → Option Rga2Format)
    (job : RgaPolicyJob) : Nat :=
  if job.core > rgaCoreMask then 0
  else if (job.core &&& rgaCoreMask) ≠ 0 then job.core
  else functionalCores left job drv.schedulers

/-- `left` is what the checks of each core find in `format`. -/
def rgaJobAssign (drv : RgaDrvdata) (load : Nat → CoreLoad)
    (left : Nat → RgaWin → Option Rga2Format) (job : RgaPolicyJob) : Int :=
  if job.core > rgaCoreMask then rgaNoneCore
  else if (job.core &&& rgaCoreMask) = 0 ∧ candidateCores drv left job = 0 then -1
  else leastLoaded load (candidateCores drv left job) rgaNoneCore 0 drv.schedulers

end Rga
end RockchipSoc
