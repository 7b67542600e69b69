import Mathlib.Tactic.Tauto
import RockchipSoc.Foundation.CheckedArith

/-!
# The check of a plane

Before a plane is shown, its window, its picture and its rectangles are checked, and the addresses
at which the scan-out begins are computed from the clipped source.
-/

namespace RockchipSoc
namespace Vop

open CInt

/-- `struct drm_rect`.  Sources are in 1/65536 pixels. -/
structure DrmRect where
  x1 : ℤ
  y1 : ℤ
  x2 : ℤ
  y2 : ℤ
  deriving DecidableEq, Repr

def DrmRect.width (rect : DrmRect) : ℤ := rect.x2 - rect.x1
def DrmRect.height (rect : DrmRect) : ℤ := rect.y2 - rect.y1

/-- `>> 16`: the whole pixels. -/
def whole (position : ℤ) : ℤ := position / 2 ^ 16

/-- `struct drm_format_info`. -/
structure FormatInfo where
  isYuv : Bool
  numPlanes : ℕ
  cpp0 : ℤ
  cpp1 : ℤ
  hsub : ℤ
  vsub : ℤ

/-- A framebuffer with the addresses of its buffers. -/
structure Framebuffer where
  format : FormatInfo
  width : ℤ
  height : ℤ
  pitches0 : ℤ
  pitches1 : ℤ
  offsets0 : ℤ
  offsets1 : ℤ
  dmaAddr0 : ℤ
  dmaAddr1 : ℤ
  /-- `rockchip_afbc`. -/
  afbc : Bool
  /-- `vop2_convert_format`. -/
  convertFormat : ℤ

def drmModeRotate90 : BitVec 8 := 1 <<< 1
def drmModeRotate270 : BitVec 8 := 1 <<< 3
def drmModeReflectX : BitVec 8 := 1 <<< 4
def drmModeReflectY : BitVec 8 := 1 <<< 5

/-- A plane's state, with the rectangles and the visibility that
`drm_atomic_helper_check_plane_state` leaves in it. -/
structure PlaneState where
  /-- The display of the plane and its state. -/
  crtc : Bool
  crtcState : Bool
  fb : Option Framebuffer
  rotation : BitVec 8
  src : DrmRect
  dst : DrmRect
  visible : Bool
  /-- The height that was asked for, before clipping. -/
  srcH : ℤ

/-- The window's part of a check. -/
structure PlaneWindow where
  cluster : Bool
  clusterSub : Bool
  supportedRotations : BitVec 8

/-- The results of what the check calls: of `vop2_plane_splice_check` where two ports are joined, of
the clipping helper and of `vop2_cluster_two_win_mode_check`. -/
structure PlaneCalls where
  spliceCheck : Option ℤ
  helper : ℤ
  twoWinMode : ℤ

/-- The controller's version and its largest source. -/
structure PlaneLimits where
  version : ℕ
  maxInputWidth : ℤ
  maxInputHeight : ℤ

/-- `VOP_VERSION_RK3568`. -/
def vopVersionRk3568 : ℕ := 0x40 <<< 8 ||| 0x15

/-- What a plane's state of the controller holds behind the check. -/
structure Vop2PlaneState where
  xmirrorEn : Bool
  ymirrorEn : Bool
  rotate270En : Bool
  rotate90En : Bool
  afbcEn : Bool
  offset : ℤ
  yrgbMst : ℤ
  uvMst : Option ℤ
  deriving DecidableEq, Repr

/-- The plane is refused with an error, accepted but not shown, or shown. -/
inductive PlaneVerdict where
  | refused (errno : ℤ)
  | hidden
  | shown (vpstate : Vop2PlaneState)
  deriving DecidableEq, Repr

/-- `-EINVAL`. -/
def planeInvalid : ℤ := -22

/-- The check of the sizes: the destination's width is compared twice. -/
def invalidSize (src dest : DrmRect) : Bool :=
  decide (whole src.width < 4) || decide (whole src.height < 4) || decide (dest.width < 4) ||
    decide (dest.width < 4)

theorem invalidSize_eq_false_iff {src dest : DrmRect} : invalidSize src dest = false ↔
    4 ≤ whole src.width ∧ 4 ≤ whole src.height ∧ 4 ≤ dest.width := by
  simp only [invalidSize, Bool.or_eq_false_iff, decide_eq_false_iff_not, not_lt]
  tauto

/-- A sum in 64 bits. -/
def u64 (n : ℤ) : ℤ := n % 2 ^ 64

def yrgbOffset (fb : Framebuffer) (src : DrmRect) (afbcEn ymirrorEn : Bool) : ℤ :=
  let offset := whole src.x1 * fb.format.cpp0
  if afbcEn then 0
  else if ymirrorEn then offset + u32 ((whole src.y2 - 1) * fb.pitches0)
  else offset + u32 (whole src.y1 * fb.pitches0)

def uvOffset (fb : Framebuffer) (src : DrmRect) (srcH : ℤ) (afbcEn ymirrorEn : Bool) : ℤ :=
  let offset := cdiv (whole src.x1 * fb.format.cpp1) fb.format.hsub +
    u32 (whole src.y1 * fb.pitches1) / fb.format.vsub
  if ymirrorEn && !afbcEn then
    offset + u32 (fb.pitches1 * u32 (whole srcH - 2)) / fb.format.vsub
  else offset

/-- The end of the check: the addresses. -/
def planeAddresses (fb : Framebuffer) (pstate : PlaneState) : Vop2PlaneState :=
  let ymirrorEn := decide (pstate.rotation &&& drmModeReflectY ≠ 0)
  { xmirrorEn := decide (pstate.rotation &&& drmModeReflectX ≠ 0)
    ymirrorEn
    rotate270En := decide (pstate.rotation &&& drmModeRotate270 ≠ 0)
    rotate90En := decide (pstate.rotation &&& drmModeRotate90 ≠ 0)
    afbcEn := fb.afbc
    offset := whole pstate.src.x1 * fb.format.cpp0 + fb.offsets0
    yrgbMst := u64 (fb.dmaAddr0 + yrgbOffset fb pstate.src fb.afbc ymirrorEn + fb.offsets0)
    uvMst :=
      if fb.format.isYuv ∧ fb.format.numPlanes > 1 then
        some (u64 (fb.dmaAddr1 + uvOffset fb pstate.src pstate.srcH fb.afbc ymirrorEn +
          fb.offsets1))
      else none }

def vop2PlaneAtomicCheck (limits : PlaneLimits) (win : PlaneWindow) (calls : PlaneCalls)
    (pstate : PlaneState) : PlaneVerdict :=
  match pstate.fb with
  | none => .hidden
  | some fb =>
    if ¬pstate.crtc then .hidden
    else if ¬pstate.crtcState then .refused planeInvalid
    else if calls.spliceCheck.any (· < 0) then .refused (calls.spliceCheck.getD 0)
    else
      let maxInputW :=
        if calls.spliceCheck.isSome then limits.maxInputWidth * 2 else limits.maxInputWidth
      if pstate.rotation &&& drmModeRotate270 ≠ 0 ∧ pstate.rotation &&& drmModeRotate90 ≠ 0 then
        .refused planeInvalid
      else if calls.helper ≠ 0 then .refused calls.helper
      else if ¬pstate.visible then .hidden
      else if fb.convertFormat < 0 then .refused fb.convertFormat
      else if invalidSize pstate.src pstate.dst then .hidden
      else if whole pstate.src.width > maxInputW ∨
          whole pstate.src.height > limits.maxInputHeight then
        .refused planeInvalid
      else if limits.version = vopVersionRk3568 ∧ win.cluster ∧ ¬fb.afbc then
        .refused planeInvalid
      else if limits.version > vopVersionRk3568 ∧ win.cluster ∧ ¬fb.afbc ∧ fb.format.isYuv then
        .refused planeInvalid
      else if limits.version > vopVersionRk3568 ∧ win.cluster ∧ ¬fb.afbc ∧
          win.supportedRotations &&& pstate.rotation ≠ 0 then
        .refused planeInvalid
      else if win.clusterSub ∧ calls.twoWinMode < 0 then .refused calls.twoWinMode
      else if fb.format.isYuv ∧ whole pstate.src.x1 % 2 ≠ 0 then .refused planeInvalid
      else .shown (planeAddresses fb pstate)

end Vop
end RockchipSoc
