import Mathlib.Logic.Function.Basic
import Mathlib.Data.List.Basic
import Mathlib.Algebra.Group.Nat.Defs

/-!
# The system status

Drivers and user space raise and clear bits of one status word, each of which is counted.  User
space announces a video with a string of its parameters, and takes it back with the same string;
the running videos decide which of three bits is raised.
-/

namespace RockchipSoc
namespace SystemMonitor

def sysStatusVideo4k : BitVec 32 := 1 <<< 4
def sysStatusVideo1080p : BitVec 32 := 1 <<< 5
def sysStatusPerformance : BitVec 32 := 1 <<< 13
def sysStatusVideo4k10b : BitVec 32 := 1 <<< 16
def sysStatusLowPower : BitVec 32 := 1 <<< 17

/-- `SYS_STATUS_VIDEO`. -/
def sysStatusVideo : BitVec 32 := sysStatusVideo4k ||| sysStatusVideo1080p ||| sysStatusVideo4k10b

/-- `VIDEO_1080P_SIZE`. -/
def video1080pSize : ℕ := 1920 * 1080

/-- `struct video_info`; the fields are unsigned integers. -/
structure VideoInfo where
  width : ℕ
  height : ℕ
  ishevc : ℕ
  videoFramerate : ℕ
  streamBitrate : ℕ
  deriving DecidableEq, Repr

/-- `system_status`, `ref_count` and `video_info_list`. -/
structure SystemStatus where
  systemStatus : BitVec 32
  refCount : ℕ → ℕ
  videoInfoList : List VideoInfo

/-! ### The counted bits -/

/-- The offsets of the bits that are set, from the highest on. -/
def statusOffsets (status : BitVec 32) : List ℕ :=
  (List.range 32).reverse.filter fun offset => status.getLsbD offset

def setSingleStatus (sys : SystemStatus) (offset : ℕ) : SystemStatus :=
  { sys with
    systemStatus :=
      if sys.refCount offset = 0 then sys.systemStatus ||| BitVec.twoPow 32 offset
      else sys.systemStatus
    refCount := Function.update sys.refCount offset (sys.refCount offset + 1) }

def clearSingleStatus (sys : SystemStatus) (offset : ℕ) : SystemStatus :=
  if sys.refCount offset = 0 then sys
  else
    { sys with
      systemStatus :=
        if sys.refCount offset = 1 then sys.systemStatus &&& ~~~(BitVec.twoPow 32 offset)
        else sys.systemStatus
      refCount := Function.update sys.refCount offset (sys.refCount offset - 1) }

def rockchipSetSystemStatus (sys : SystemStatus) (status : BitVec 32) : SystemStatus :=
  (statusOffsets status).foldl setSingleStatus sys

def rockchipClearSystemStatus (sys : SystemStatus) (status : BitVec 32) : SystemStatus :=
  (statusOffsets status).foldl clearSingleStatus sys

/-! ### The strings -/

/-- `strsep`: the token before the delimiter, and what follows it. -/
def strsep (delim : Char) : Option (List Char) → Option (List Char) × Option (List Char)
  | none => (none, none)
  | some str =>
      (some (str.takeWhile (· ≠ delim)),
        match str.dropWhile (· ≠ delim) with
        | [] => none
        | _ :: rest => some rest)

/-- `kstrtoul` to base 10: an optional plus sign, digits, and at most one newline. -/
def kstrtoul (str : List Char) : Option ℕ :=
  let str := if str.head? = some '+' then str.tail else str
  let digits := str.takeWhile Char.isDigit
  let rest := str.dropWhile Char.isDigit
  let value : ℕ := digits.foldl (fun value digit => 10 * value + (digit.toNat - '0'.toNat)) 0
  if digits = [] ∨ value ≥ 2 ^ 64 then none
  else if rest = [] ∨ rest = ['\n'] then some value
  else none

/-- The value after the next equals sign, zero if it is not a number, and the rest. -/
def rockchipGetVideoParam (str : Option (List Char)) : ℕ × Option (List Char) :=
  let (p, rest) := strsep ',' (strsep '=' str).2
  ((p.bind kstrtoul).getD 0 % 2 ^ 32, rest)

/-- The five values of a string with five commas after its first character. -/
def rockchipParseVideoInfo (buf : List Char) : Option VideoInfo :=
  if buf.tail.count ',' ≠ 5 then none
  else
    let (_, p) := strsep ',' (some buf)
    let (width, p) := rockchipGetVideoParam p
    let (height, p) := rockchipGetVideoParam p
    let (ishevc, p) := rockchipGetVideoParam p
    let (videoFramerate, p) := rockchipGetVideoParam p
    let (streamBitrate, _) := rockchipGetVideoParam p
    some ⟨width, height, ishevc, videoFramerate, streamBitrate⟩

/-! ### The running videos -/

/-- `max_res`: the largest product of width and height, as unsigned integers. -/
def maxRes (videos : List VideoInfo) : ℕ :=
  videos.foldl (fun most video =>
    let res := video.width * video.height % 2 ^ 32
    if res > most then res else most) 0

/-- `max_stream_bitrate`. -/
def maxStreamBitrate (videos : List VideoInfo) : ℕ :=
  videos.foldl (fun most video =>
    if video.streamBitrate > most then video.streamBitrate else most) 0

/-- The bit for the running videos. -/
def videoStatus (videos : List VideoInfo) : BitVec 32 :=
  if maxRes videos ≤ video1080pSize then sysStatusVideo1080p
  else if maxStreamBitrate videos = 10 then sysStatusVideo4k10b
  else sysStatusVideo4k

def rockchipUpdateVideoInfo (sys : SystemStatus) : SystemStatus :=
  if sys.videoInfoList = [] then rockchipClearSystemStatus sys sysStatusVideo
  else rockchipSetSystemStatus sys (videoStatus sys.videoInfoList)

/-- The first video of the list with the values of the string. -/
def rockchipFindVideoInfo (sys : SystemStatus) (buf : List Char) : Option VideoInfo :=
  (rockchipParseVideoInfo buf).bind fun video => sys.videoInfoList.find? (· = video)

def rockchipUpdateSystemStatus (sys : SystemStatus) (buf : List Char) : SystemStatus :=
  match buf with
  | '0' :: _ =>
      match rockchipFindVideoInfo sys buf with
      | some video =>
          rockchipUpdateVideoInfo { sys with videoInfoList := sys.videoInfoList.erase video }
      | none => sys
  | '1' :: _ =>
      match rockchipParseVideoInfo buf with
      | some video =>
          rockchipUpdateVideoInfo { sys with videoInfoList := video :: sys.videoInfoList }
      | none => sys
  | 'L' :: _ => rockchipClearSystemStatus sys sysStatusLowPower
  | 'l' :: _ => rockchipSetSystemStatus sys sysStatusLowPower
  | 'p' :: _ => rockchipSetSystemStatus sys sysStatusPerformance
  | 'n' :: _ => rockchipClearSystemStatus sys sysStatusPerformance
  | _ => sys

/-- The status when the system has started. -/
def systemStatusInit : SystemStatus := ⟨0, fun _ => 0, []⟩

end SystemMonitor
end RockchipSoc
