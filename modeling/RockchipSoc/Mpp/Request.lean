import Mathlib.Tactic.Common

/-!
# Requests of user space

One `mpp_dev_ioctl` call takes a stream of messages, each parsed into a request.  A message without
`MPP_FLAGS_MULTI_MSG` stands alone; with it, the stream goes on until `MPP_FLAGS_LAST_MSG`.
-/

namespace RockchipSoc
namespace Mpp

/-- `struct mpp_request` without the pointer to the data. -/
structure MppRequest where
  cmd : BitVec 32 := 0
  flags : BitVec 32 := 0
  size : BitVec 32 := 0
  offset : BitVec 32 := 0
  deriving DecidableEq, Repr

def mppEinval : Int := 22
def mppEfault : Int := 14
def mppEnomem : Int := 12

def mppCmdQueryButt : BitVec 32 := 0x3
def mppCmdInitBase : BitVec 32 := 0x100
def mppCmdInitTransTable : BitVec 32 := 0x102
def mppCmdInitButt : BitVec 32 := 0x103
def mppCmdSetRegWrite : BitVec 32 := 0x200
def mppCmdSetRegRead : BitVec 32 := 0x201
def mppCmdSetRegAddrOffset : BitVec 32 := 0x202
def mppCmdSetRcbInfo : BitVec 32 := 0x203
def mppCmdSendButt : BitVec 32 := 0x204
def mppCmdPollHwFinish : BitVec 32 := 0x300
def mppCmdPollButt : BitVec 32 := 0x301
def mppCmdControlBase : BitVec 32 := 0x400
def mppCmdControlButt : BitVec 32 := 0x404

def mppFlagsMultiMsg : BitVec 32 := 0x1
def mppFlagsLastMsg : BitVec 32 := 0x2
def mppFlagsRegFdNoTrans : BitVec 32 := 0x4
def mppFlagsRegNoOffset : BitVec 32 := 0x10

def mppMaxMsgNum : Nat := 16
def mppMaxRegTransNum : Nat := 60

/-- The command is in one of the known groups; each group starts at its base. -/
def mppCheckCmdV1 (cmd : BitVec 32) : Bool :=
  cmd < mppCmdQueryButt ||
    (mppCmdInitBase ≤ cmd && cmd < mppCmdInitButt) ||
    (mppCmdSetRegWrite ≤ cmd && cmd < mppCmdSendButt) ||
    (mppCmdPollHwFinish ≤ cmd && cmd < mppCmdPollButt) ||
    (mppCmdControlBase ≤ cmd && cmd < mppCmdControlButt)

def mppMsgIsLast (req : MppRequest) : Bool :=
  if (req.flags &&& mppFlagsMultiMsg) ≠ 0 then (req.flags &&& mppFlagsLastMsg) ≠ 0 else true

end Mpp
end RockchipSoc

/-!
## The range check of register requests

`mpp_check_req` checks the offset and the size of a request against an area of registers, in a
mixture of `int` and `u32`.  A request that reaches too far is not refused but shortened, to the
number of bytes by which it is too long instead of the number that fits.
-/

namespace RockchipSoc
namespace Mpp

/-- `base` and `max_size` are `int`; all sums and all comparisons but one are unsigned. -/
def mppCheckReq (req : MppRequest) (base maxSize offS offE : BitVec 32) : Int × MppRequest :=
  let reqOff := req.offset - base
  if req.offset < base then (-mppEinval, req)
  else if reqOff + req.size < offS then (-mppEinval, req)
  else if maxSize < offE then (-mppEinval, req)
  else if maxSize.slt reqOff then (-mppEinval, req)
  else if maxSize < reqOff + req.size then
    (0, { req with size := reqOff + req.size - maxSize })
  else (0, req)

/-- The request stays within `max_size` bytes from `base` on. -/
def Inside (req : MppRequest) (base maxSize : BitVec 32) : Prop :=
  base.toInt ≤ req.offset.toNat ∧
    (req.offset.toNat - base.toInt) + req.size.toNat ≤ maxSize.toInt

instance (req : MppRequest) (base maxSize : BitVec 32) : Decidable (Inside req base maxSize) :=
  inferInstanceAs (Decidable (_ ∧ _))

/-- A request that is accepted, and perhaps shortened, stays within the area. -/
def ClampsSoundly (req : MppRequest) (base maxSize offS offE : BitVec 32) : Prop :=
  (mppCheckReq req base maxSize offS offE).1 = 0 →
    Inside (mppCheckReq req base maxSize offS offE).2 base maxSize

/-- The comparisons that refuse a request. -/
def Refused (req : MppRequest) (base maxSize offS offE : BitVec 32) : Prop :=
  req.offset < base ∨ req.offset - base + req.size < offS ∨ maxSize < offE ∨
    maxSize.slt (req.offset - base) = true

/-- The request reaches beyond the area by at most the room that its offset leaves. -/
def ExcessFits (req : MppRequest) (base maxSize : BitVec 32) : Prop :=
  2 * (req.offset.toNat - base.toInt) + req.size.toNat ≤ 2 * maxSize.toInt

variable {req : MppRequest} {base maxSize offS offE : BitVec 32}

theorem mppCheckReq_of_refused (refused : Refused req base maxSize offS offE) :
    mppCheckReq req base maxSize offS offE = (-mppEinval, req) := by
  unfold mppCheckReq
  by_cases low : req.offset < base
  · simp only [if_pos low]
  by_cases short : req.offset - base + req.size < offS
  · simp only [if_neg low, if_pos short]
  by_cases small : maxSize < offE
  · simp only [if_neg low, if_neg short, if_pos small]
  have high : maxSize.slt (req.offset - base) = true :=
    ((refused.resolve_left low).resolve_left short).resolve_left small
  simp only [if_neg low, if_neg short, if_neg small, if_pos high]

theorem mppCheckReq_of_accepted (accepted : ¬Refused req base maxSize offS offE) :
    mppCheckReq req base maxSize offS offE =
      if maxSize < req.offset - base + req.size then
        (0, { req with size := req.offset - base + req.size - maxSize })
      else (0, req) := by
  simp only [Refused, not_or] at accepted
  obtain ⟨low, short, small, high⟩ := accepted
  unfold mppCheckReq
  simp only [if_neg low, if_neg short, if_neg small, if_neg high]

/-- From `base` on, the 32-bit distance is the real one up to the sign of `base`. -/
theorem toNat_offset_sub (above : ¬req.offset < base) :
    (req.offset - base).toNat + base.toNat = req.offset.toNat := by
  rw [BitVec.not_lt, BitVec.le_def] at above
  rw [BitVec.toNat_sub]
  have offset_lt := req.offset.isLt
  omega

/-- The check clamps soundly exactly if it refuses the request or its excess fits. -/
theorem mpp_check_req_clamps_iff (req : MppRequest) (base maxSize offS offE : BitVec 32) :
    ClampsSoundly req base maxSize offS offE ↔
      Refused req base maxSize offS offE ∨ ExcessFits req base maxSize := by
  by_cases refused : Refused req base maxSize offS offE
  · rw [ClampsSoundly, mppCheckReq_of_refused refused]
    have nonzero : -mppEinval ≠ 0 := by decide
    exact iff_of_true (fun zero => absurd zero nonzero) (Or.inl refused)
  · have distance := toNat_offset_sub fun low => refused (Or.inl low)
    have near : ¬maxSize.slt (req.offset - base) = true :=
      fun high => refused (Or.inr (Or.inr (Or.inr high)))
    have base_int := BitVec.toInt_eq_toNat_cond base
    have max_int := BitVec.toInt_eq_toNat_cond maxSize
    have off_int := BitVec.toInt_eq_toNat_cond (req.offset - base)
    have base_lt := base.isLt
    have max_lt := maxSize.isLt
    have size_lt := req.size.isLt
    have end_eq := BitVec.toNat_add (req.offset - base) req.size
    rw [BitVec.slt_iff_toInt_lt] at near
    rw [ClampsSoundly, mppCheckReq_of_accepted refused, or_iff_right refused]
    by_cases long : maxSize < req.offset - base + req.size
    · simp only [if_pos long, forall_const, Inside, ExcessFits]
      have shortened := BitVec.toNat_sub (req.offset - base + req.size) maxSize
      rw [BitVec.lt_def] at long
      split at base_int <;> split at max_int <;> split at off_int <;> omega
    · simp only [if_neg long, forall_const, Inside, ExcessFits]
      rw [BitVec.lt_def] at long
      split at base_int <;> split at max_int <;> split at off_int <;> omega

/-- A write of all 278 registers from the last one on, as `rkvdec2_extract_task_msg` checks it:
instead of one register 277 are left, and 276 of them lie behind the array. -/
theorem shortened_request_overruns :
    (mppCheckReq { size := 1112, offset := 1108 } 0 1112 0 1108).2.size = 1108 ∧
      ¬ClampsSoundly { size := 1112, offset := 1108 } 0 1112 0 1108 := by
  refine ⟨rfl, fun clamps => ?_⟩
  have inside := clamps rfl
  exact absurd inside (by decide)

end Mpp
end RockchipSoc
