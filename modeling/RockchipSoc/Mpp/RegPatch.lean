import Mathlib.Algebra.Group.Nat.Defs
import RockchipSoc.Foundation.ByteMemory
import RockchipSoc.Foundation.LabelledRun
import RockchipSoc.Mpp.Request

/-!
# Patching the registers of a decoder task

The messages of one ioctl fill the registers of an rkvdec2 task, and four tables name registers to
be patched: the translation table of the session or of the driver, the address offsets and the RCB
list.  `mpp_dev_ioctl`, `rkvdec2_task_init` and `mpp_set_rcbbuf` are executed one loop iteration
after the other.  The memory of a task begins with `reg`; `off_inf` follows it.
-/

namespace RockchipSoc
namespace Mpp
namespace RegPatch

open ByteMemory LabelledRun

def rkvdecMaxRcbNum : Nat := 16
def rkvdecRegNum : Nat := 278
def rkvdecRegFormatIndex : Nat := 9

/-- `sizeof(task->reg)`, which is also where `off_inf.cnt` lies. -/
def regBytes : Nat := 4 * rkvdecRegNum

/-- Where `off_inf.elem` lies; each element has an index and an offset. -/
def elemBase : Nat := regBytes + 4

/-- `sizeof(off_inf->elem)`. -/
def elemBytes : Nat := 8 * mppMaxRegTransNum

/-! ## State -/

/-- A request with the user memory that its data pointer leads to, readable for some bytes. -/
structure UserRequest where
  req : MppRequest
  data : Bytes
  readable : Nat

/-- The parts of the session that outlive an ioctl. -/
structure RkvdecSession where
  transCount : Nat
  transTable : Bytes
  msgFlags : BitVec 32
  /-- `priv` is there. -/
  priv : Bool
  rcbCnt : Nat
  rcbElem : Bytes

/-- The internal memory of the device, and what lies behind its three translation tables. -/
structure RkvdecDev where
  rcbIova : Nat
  rcbSize : Nat
  rcbMinWidth : Nat
  behindTrans : Nat → List Nat

/-- A register that is patched, or a copy into `off_inf->elem`. -/
inductive Access
  | reg (index : Nat)
  | elem (start len : Nat)
  deriving DecidableEq, Repr

def Access.InBounds : Access → Prop
  | .reg index => index < rkvdecRegNum
  | .elem start len => start + len ≤ elemBytes

instance : (access : Access) → Decidable access.InBounds
  | .reg _ => inferInstanceAs (Decidable (_ < _))
  | .elem _ _ => inferInstanceAs (Decidable (_ ≤ _))

/-- The loop that is executed next, with what is left of it. -/
inductive Stage
  | collecting (reqs : List UserRequest) (flags : BitVec 32) (setCnt : Nat)
  | extracting (rest : List UserRequest) (flags : BitVec 32)
  | translating (rest : List Nat)
  | offsetting (i : Nat)
  | rcbs (i rcbOffset : Nat)
  | returned

structure PatchState where
  session : RkvdecSession
  task : Bytes
  stage : Stage
  accesses : List Access

/-- The next message of the ioctl, or the next iteration of the loop in progress, where the kernel
answers the import of a file descriptor and the session has a width. -/
inductive PatchLabel
  | message (req : UserRequest)
  | proceed (attached : Option Nat) (width : Nat)

/-! ## Messages -/

/-- `copy_from_user` to an address of the task; what cannot be read is zeroed. -/
def copyFromUser (m : Bytes) (dst : Nat) (req : UserRequest) (size : Nat) : Bytes :=
  copyIn m dst (fun k => if k < req.readable then req.data k else 0) size

/-- `INIT_TRANS_TABLE`; `none` is an error. -/
def initTransTable (session : RkvdecSession) (req : UserRequest) : Option RkvdecSession :=
  if req.req.size = 0 then some session
  else if req.req.size.toNat > 2 * mppMaxRegTransNum then none
  else if req.readable < req.req.size.toNat then none
  else some { session with
    transTable := copyFromUser session.transTable 0 req req.req.size.toNat
    transCount := req.req.size.toNat / 2 }

def isSetCmd (cmd : BitVec 32) : Bool :=
  cmd == mppCmdSetRegWrite || cmd == mppCmdSetRegRead || cmd == mppCmdSetRegAddrOffset ||
    cmd == mppCmdSetRcbInfo

/-- The cases of `mpp_process_request` that concern the registers. -/
def mppProcessRequest (session : RkvdecSession) (req : UserRequest) (flags : BitVec 32)
    (setCnt : Nat) : Option (RkvdecSession × BitVec 32 × Nat) :=
  if req.req.cmd = mppCmdInitTransTable then
    (initTransTable session req).map fun session => (session, flags, setCnt)
  else if isSetCmd req.req.cmd then some (session, flags ||| req.req.flags, setCnt + 1)
  else if req.req.cmd = mppCmdPollHwFinish then some (session, flags ||| req.req.flags, setCnt)
  else some (session, flags, setCnt)

/-- One round of `mpp_dev_ioctl`.  The last message allocates a zeroed task; what lies behind its
registers and offsets is left open. -/
def mppDevIoctl (s : PatchState) (reqs : List UserRequest) (flags : BitVec 32) (setCnt : Nat)
    (req : UserRequest) : PatchState :=
  if !mppCheckCmdV1 req.req.cmd then { s with stage := .returned }
  else if reqs.length + 1 > mppMaxMsgNum then { s with stage := .returned }
  else match mppProcessRequest s.session req flags setCnt with
    | none => { s with stage := .returned }
    | some (session, flags, setCnt) =>
        if mppMsgIsLast req.req then
          if setCnt > 0 then
            { s with
              session := { session with msgFlags := flags }
              task := fun a => if a < elemBase + elemBytes then 0 else s.task a
              stage := .extracting (reqs ++ [req]) flags }
          else { s with session := { session with msgFlags := flags }, stage := .returned }
        else { s with session := session, stage := .collecting (reqs ++ [req]) flags setCnt }

/-! ## The loops of a task -/

/-- `off_inf->cnt`. -/
def offCnt (task : Bytes) : Nat := read32 task regBytes

def offIndex (task : Bytes) (i : Nat) : Nat := read32 task (elemBase + 8 * i)

def offOffset (task : Bytes) (i : Nat) : Nat := read32 task (elemBase + 8 * i + 4)

/-- The number of elements passes the check of `mpp_extract_reg_offset_info`. -/
def OffsetsAccepted (task : Bytes) (req : MppRequest) : Prop :=
  (req.size.toNat / 8 + offCnt task) % 2 ^ 32 ≤ mppMaxRegTransNum

instance (task : Bytes) (req : MppRequest) : Decidable (OffsetsAccepted task req) :=
  inferInstanceAs (Decidable (_ ≤ _))

def mppExtractRegOffsetInfo (s : PatchState) (req : UserRequest) : PatchState :=
  if OffsetsAccepted s.task req.req then
    let copied := copyFromUser s.task (elemBase + 8 * offCnt s.task) req req.req.size.toNat
    { s with
      task := if req.readable < req.req.size.toNat then copied
        else write32 copied regBytes (offCnt copied + req.req.size.toNat / 8)
      accesses := s.accesses ++ [.elem (8 * offCnt s.task) req.req.size.toNat] }
  else s

def mppExtractRcbInfo (s : PatchState) (req : UserRequest) : PatchState :=
  if req.req.size.toNat > 8 * rkvdecMaxRcbNum then s
  else
    { s with session := { s.session with
        rcbElem := copyFromUser s.session.rcbElem 0 req req.req.size.toNat
        rcbCnt := if req.readable < req.req.size.toNat then s.session.rcbCnt
          else req.req.size.toNat / 8 } }

/-- `SET_REG_WRITE`; the registers reach from `reg_start` 0 to `reg_end` 277. -/
def setRegWrite (s : PatchState) (req : UserRequest) (rest : List UserRequest)
    (flags : BitVec 32) : PatchState :=
  let checked := mppCheckReq req.req 0 1112 0 1108
  if checked.1 ≠ 0 then { s with stage := .extracting rest flags }
  else
    { s with
      task := copyFromUser s.task checked.2.offset.toNat req checked.2.size.toNat
      stage := if req.readable < checked.2.size.toNat then .returned
        else .extracting rest flags }

/-- One round of `rkvdec2_extract_task_msg`; `SET_REG_READ` patches nothing. -/
def rkvdec2ExtractTaskMsg (s : PatchState) (req : UserRequest) (rest : List UserRequest)
    (flags : BitVec 32) : PatchState :=
  if req.req.size = 0 then { s with stage := .extracting rest flags }
  else if req.req.cmd = mppCmdSetRegWrite then setRegWrite s req rest flags
  else if req.req.cmd = mppCmdSetRegAddrOffset then
    { mppExtractRegOffsetInfo s req with stage := .extracting rest flags }
  else if req.req.cmd = mppCmdSetRcbInfo ∧ s.session.priv = true then
    { mppExtractRcbInfo s req with stage := .extracting rest flags }
  else { s with stage := .extracting rest flags }

def transTblH26xd : List Nat :=
  [128, 129, 130, 131, 132, 133, 134, 135, 136, 137, 138, 139, 140, 141, 142,
    161, 163, 164, 165, 166, 167, 168, 169, 170, 171, 172, 173, 174, 175, 176,
    177, 178, 179, 180, 181, 182, 183, 184, 185, 186, 187, 188, 189, 190, 191,
    192, 193, 194, 195, 196, 197]

def transTblVp9d : List Nat :=
  [128, 129, 130, 131, 132, 133, 134, 135, 136, 137, 138, 139, 140, 141, 142,
    160, 162, 164, 165, 166, 167, 168, 169, 170, 171, 172, 180, 181, 182, 183,
    184, 185, 186, 187, 188, 189, 190, 191, 192, 193, 194, 195, 196, 197]

/-- `rkvdec_v2_trans[fmt]`, whose tables for H.265 and H.264 are the same; the array has no entry
from 3 on. -/
def rkvdecV2Trans (dev : RkvdecDev) : Nat → List Nat
  | 0 => transTblH26xd
  | 1 => transTblH26xd
  | 2 => transTblVp9d
  | fmt => dev.behindTrans fmt

/-- The table that `mpp_translate_reg_address` goes through. -/
def transTable (dev : RkvdecDev) (s : PatchState) : List Nat :=
  if s.session.transCount > 0 then
    (List.range s.session.transCount).map fun i => read16 s.session.transTable (2 * i)
  else rkvdecV2Trans dev (read32 s.task (4 * rkvdecRegFormatIndex) % 1024)

/-- The file descriptor in a register, as `mpp_translate_reg_address` takes it out. -/
def usrFd (s : PatchState) (index : Nat) : Nat :=
  if (s.session.msgFlags &&& mppFlagsRegNoOffset) ≠ 0 then read32 s.task (4 * index)
  else read32 s.task (4 * index) % 1024

def fdOffset (s : PatchState) (index : Nat) : Nat :=
  if (s.session.msgFlags &&& mppFlagsRegNoOffset) ≠ 0 then 0
  else read32 s.task (4 * index) / 1024

/-- `mpp_task_attach_fd` refuses a negative descriptor; else the kernel answers. -/
def attachFd (fd : Nat) (attached : Option Nat) : Option Nat :=
  if fd < 2 ^ 31 then attached else none

/-- Where `mpp_set_rcbbuf` begins, or skips all. -/
def rcbStart (dev : RkvdecDev) (s : PatchState) (width : Nat) : Stage :=
  if s.session.priv = true ∧ dev.rcbIova ≠ 0 ∧ ¬width < dev.rcbMinWidth then .rcbs 0 0
  else .returned

/-- A store to a register. -/
def PatchState.patch (s : PatchState) (index value : Nat) : PatchState :=
  { s with
    task := write32 s.task (4 * index) value
    accesses := s.accesses ++ [.reg index] }

def translateReg (s : PatchState) (index : Nat) (rest : List Nat) (attached : Option Nat) :
    PatchState :=
  if usrFd s index = 0 then { s with stage := .translating rest }
  else match attachFd (usrFd s index) attached with
    | none => { s with stage := .returned }
    | some iova => { s.patch index (iova + fdOffset s index) with stage := .translating rest }

def translateOffset (s : PatchState) (i : Nat) : PatchState :=
  { s.patch (offIndex s.task i) (read32 s.task (4 * offIndex s.task i) + offOffset s.task i) with
    stage := .offsetting (i + 1) }

def rcbIndex (session : RkvdecSession) (i : Nat) : Nat := read32 session.rcbElem (8 * i)

def rcbSizeOf (session : RkvdecSession) (i : Nat) : Nat := read32 session.rcbElem (8 * i + 4)

/-- The buffer has room in the internal memory. -/
def RcbFits (dev : RkvdecDev) (session : RkvdecSession) (i rcbOffset : Nat) : Prop :=
  (rcbOffset + rcbSizeOf session i) % 2 ^ 32 ≤ dev.rcbSize

instance (dev : RkvdecDev) (session : RkvdecSession) (i rcbOffset : Nat) :
    Decidable (RcbFits dev session i rcbOffset) :=
  inferInstanceAs (Decidable (_ ≤ _))

def setRcb (dev : RkvdecDev) (s : PatchState) (i rcbOffset : Nat) : PatchState :=
  if RcbFits dev s.session i rcbOffset then
    { s.patch (rcbIndex s.session i) (dev.rcbIova + rcbOffset) with
      stage := .rcbs (i + 1) ((rcbOffset + rcbSizeOf s.session i) % 2 ^ 32) }
  else { s with stage := .rcbs (i + 1) rcbOffset }

/-- One iteration of the loop in progress, or the way to the next loop. -/
def proceed (dev : RkvdecDev) (s : PatchState) (attached : Option Nat) (width : Nat) :
    Option PatchState :=
  match s.stage with
  | .collecting _ _ _ => none
  | .extracting (req :: rest) flags => some (rkvdec2ExtractTaskMsg s req rest flags)
  | .extracting [] flags =>
      some { s with stage := if (flags &&& mppFlagsRegFdNoTrans) ≠ 0 then rcbStart dev s width
        else .translating (transTable dev s) }
  | .translating (index :: rest) => some (translateReg s index rest attached)
  | .translating [] => some { s with stage := .offsetting 0 }
  | .offsetting i =>
      some (if i < offCnt s.task then translateOffset s i
        else { s with stage := rcbStart dev s width })
  | .rcbs i rcbOffset =>
      some (if i < s.session.rcbCnt then setRcb dev s i rcbOffset
        else { s with stage := .returned })
  | .returned => none

def patchStep (dev : RkvdecDev) (s : PatchState) : PatchLabel → Option PatchState
  | .message req =>
      match s.stage with
      | .collecting reqs flags setCnt => some (mppDevIoctl s reqs flags setCnt req)
      | _ => none
  | .proceed attached width => proceed dev s attached width

/-- An ioctl begins. -/
def patchStart (session : RkvdecSession) (memory : Bytes) : PatchState :=
  ⟨session, memory, .collecting [] 0 0, []⟩

end RegPatch
end Mpp
end RockchipSoc
