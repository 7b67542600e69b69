import RockchipSoc.VendorStorage.Image

/-!
# The eMMC vendor-storage driver

The medium is a map from sector addresses to sectors.  Four slots of `128` sectors hold complete
images; a write programs the slot named by `next_index`, sector by sector.  The results of
`rk_emmc_transfer` are an argument, numbered in the order in which one call issues its transfers;
a transfer that fails leaves the buffer and the sector alone.
-/

namespace RockchipSoc
namespace VendorStorage

open ByteMemory

def emmcVendorPartStart : Nat := 1024 * 7
def emmcVendorPartSize : Nat := 128
def emmcVendorPartNum : Nat := 4
def emmcVendorTag : Nat := 0x524B5644

/-- `struct vendor_info` of the eMMC driver. -/
def emmcShape : ImageShape where
  itemMax := 126
  dataSize := emmcVendorPartSize * 512 - 1024 - 8
  itemMax_lt := by decide
  dataSize_lt := by decide

/-- `free_size -= align_size - alloc_size`. -/
def emmcCharge : GrowCharge := fun m alignSize allocSize =>
  freeSize m + 4294967296 + allocSize - alignSize

/-- Sectors by address; only the first `512` bytes of a sector are used. -/
abbrev Media := Nat → Bytes

/-- Result of each `rk_emmc_transfer` call, by its number within the calling function. -/
abbrev TransferResults := Nat → Int

/-- All transfers succeed. -/
def allTransfersOk : TransferResults := fun _ => 0

/-- `emmc_vendor_ops` with `write` set: the result of the last transfer and the new medium. -/
def emmcVendorOpsWrite (results : TransferResults) (buffer : Bytes) (addr : Nat) :
    Nat → Media → Int × Media
  | 0, media => (0, media)
  | n + 1, media =>
      let media := (emmcVendorOpsWrite results buffer addr n media).2
      if results n = 0 then
        (0, Function.update media (addr + n) fun b => buffer (512 * n + b))
      else (results n, media)

/-- `emmc_vendor_ops` with `write` clear: the result of the last transfer and the new buffer. -/
def emmcVendorOpsRead (results : TransferResults) (media : Media) (addr : Nat) :
    Nat → Bytes → Int × Bytes
  | 0, buffer => (0, buffer)
  | n + 1, buffer =>
      let buffer := (emmcVendorOpsRead results media addr n buffer).2
      if results n = 0 then (0, copyIn buffer (512 * n) (media (addr + n)) 512)
      else (results n, buffer)

/-- The locals `max_ver` and `max_index` of the slot scan, with the scanned buffer. -/
structure SlotScan where
  buffer : Bytes
  maxVer : Nat
  maxIndex : Nat

/-- The scan over the first `i` slots, reading the first and the last sector of each. -/
def scanSlots (results : TransferResults) (media : Media) (buffer : Bytes) : Nat → Option SlotScan
  | 0 => some ⟨buffer, 0, 0⟩
  | i + 1 => do
      let scan ← scanSlots results media buffer i
      if results (2 * i) ≠ 0 then none
      else if results (2 * i + 1) ≠ 0 then none
      else
        let first := media (emmcVendorPartStart + emmcVendorPartSize * i)
        let last := media (emmcVendorPartStart + emmcVendorPartSize * (i + 1) - 1)
        let buffer := copyIn (copyIn scan.buffer 0 first 512)
          ((emmcVendorPartSize - 1) * 512) last 512
        if tag buffer = emmcVendorTag ∧ version2 emmcShape buffer = version buffer ∧
            scan.maxVer < version buffer then
          some ⟨buffer, version buffer, i⟩
        else some ⟨buffer, scan.maxVer, scan.maxIndex⟩

/-- The image that initialisation builds when no slot is valid. -/
def emmcFreshImage (buffer : Bytes) : Bytes :=
  let m := copyIn buffer 0 (fun _ => 0) emmcShape.size
  let m := write32 m 4 1
  let m := write32 m 0 emmcVendorTag
  let m := write32 m emmcShape.version2Base (version m)
  let m := write16 m 12 0
  write16 m 14 emmcShape.dataSize

/-- `emmc_vendor_storage_init` on a newly allocated buffer; `none` is the return value `-1`. -/
def emmcVendorStorageInit (results : TransferResults) (media : Media) (buffer : Bytes) :
    Option VendorInfo := do
  let scan ← scanSlots results media buffer emmcVendorPartNum
  if scan.maxVer ≠ 0 then
    let (ret, m) := emmcVendorOpsRead (fun n => results (2 * emmcVendorPartNum + n)) media
      (emmcVendorPartStart + emmcVendorPartSize * scan.maxIndex) emmcVendorPartSize scan.buffer
    if ret ≠ 0 then none else some ⟨m, false⟩
  else some ⟨emmcFreshImage scan.buffer, false⟩

/-- `next_index++` with the wrap to slot zero. -/
def advanceNextIndex (g : VendorInfo) : VendorInfo :=
  let m := write16 g.mem 8 (nextIndex g.mem + 1)
  { g with mem := if emmcVendorPartNum ≤ nextIndex m then write16 m 8 0 else m }

/-- The image `emmc_vendor_write` hands to the medium; `none` when it returns `-1`. -/
def emmcNextImage (g : VendorInfo) (id : Nat) (pbuf : Bytes) (size : Nat) : Option VendorInfo :=
  (vendorUpdate emmcShape emmcCharge g id pbuf size).map fun g =>
    advanceNextIndex (bumpVersion emmcShape g)

/-- First sector of the slot that the next write of `g` programs. -/
def slotAddress (g : VendorInfo) : Nat :=
  emmcVendorPartStart + emmcVendorPartSize * nextIndex g.mem

/-- `g_vendor` and the medium. -/
structure EmmcDevice where
  gVendor : VendorInfo
  media : Media

def emmcVendorRead (dev : EmmcDevice) (id : Nat) (pbuf : Bytes) (size : Nat) : Int × Bytes :=
  vendorRead emmcShape dev.gVendor.mem id pbuf size

/-- `emmc_vendor_write` after the check that `g_vendor` is allocated.  The result of the slot
write is ignored, as in the driver. -/
def emmcVendorWrite (results : TransferResults) (dev : EmmcDevice) (id : Nat) (pbuf : Bytes)
    (size : Nat) : Int × EmmcDevice :=
  match emmcNextImage dev.gVendor id pbuf size with
  | some g => (0, ⟨g, (emmcVendorOpsWrite results g.mem (slotAddress dev.gVendor)
      emmcVendorPartSize dev.media).2⟩)
  | none => (-1, dev)

/-! ## The ioctl -/

/-- `struct rk_vendor_req` as user space fills it. -/
structure RkVendorReq where
  tag : UInt32
  id : UInt16
  len : UInt16
  data : Bytes

def vendorReqTag : UInt32 := 0x56524551

/-- What one call finds outside the driver: the page allocation, the copies from and to user
space, the second fetch of the request by a write, and the transfer results. -/
structure IoctlEnv where
  pageAllocated : Bool
  headerCopied : Bool
  bodyCopied : Bool
  replyCopied : Bool
  /-- A write copies the header again with the body; user space may have changed it. -/
  body : RkVendorReq
  transfers : TransferResults

/-- The commands of `vendor_storage_ioctl` outside the loader-update configuration. -/
inductive IoctlCmd
  | vendorReadIo
  | vendorWriteIo
  | unknown
  deriving DecidableEq

/-- `vendor_storage_ioctl`: the return value, the request page as copied back (if it is), and the
device afterwards.  `req` is the page after the first fetch of eight bytes. -/
def vendorStorageIoctl (env : IoctlEnv) (cmd : IoctlCmd) (req : RkVendorReq) (dev : EmmcDevice) :
    Int × Option RkVendorReq × EmmcDevice :=
  if !env.pageAllocated then (-12, none, dev)
  else
    match cmd with
    | .vendorReadIo =>
        if !env.headerCopied then (-14, none, dev)
        else if req.tag = vendorReqTag then
          let (size, data) := emmcVendorRead dev req.id.toNat req.data req.len.toNat
          if size = -1 then (-1, none, dev)
          else if !env.replyCopied then (-14, none, dev)
          else (0, some { req with len := UInt16.ofNat size.toNat, data }, dev)
        else (-1, none, dev)
    | .vendorWriteIo =>
        if !env.headerCopied then (-14, none, dev)
        else if req.tag = vendorReqTag ∧ req.len.toNat < 4096 - 8 then
          if !env.bodyCopied then (-14, none, dev)
          else
            let (ret, dev) := emmcVendorWrite env.transfers dev env.body.id.toNat env.body.data
              env.body.len.toNat
            (ret, none, dev)
        else (-1, none, dev)
    | .unknown => (-22, none, dev)

end VendorStorage
end RockchipSoc
