import RockchipSoc.VendorStorage.Image

/-!
# The MTD vendor-storage driver

Offsets are counted in erase blocks and, inside a block, in units of `ops_size`; both divide the
device.  One machine covers mounting, formatting and writing, with one label for each operation of
the medium, so that a power cut falls between any two of them.  The results of `mtd_write` and
`mtd_erase`, and whatever a failed one leaves behind, are chosen by the label.
-/

namespace RockchipSoc
namespace VendorStorage

open ByteMemory

def mtdVendorTag : Nat := 0x524B5644

/-- `struct vendor_info` of the MTD driver. -/
def mtdShape : ImageShape where
  itemMax := 62
  dataSize := 8 * 512 - 512 - 8
  itemMax_lt := by decide
  dataSize_lt := by decide

/-- `free_size = sizeof(data) - free_offset`. -/
def mtdCharge : GrowCharge := fun m _ _ => mtdShape.dataSize + 65536 - freeOffset m

/-! ## The medium -/

/-- The results of `mtd_read` that mounting tells apart. -/
inductive MtdErr
  | ok
  | euclean
  | failed
  deriving DecidableEq

/-- What `mtd_read` of one page answers. -/
structure PageRead where
  err : MtdErr
  /-- `bytes_read == sizeof(*g_vendor)`. -/
  full : Bool
  image : Bytes

/-- The three words by which mounting recognises a page that is not programmed. -/
def PageRead.unprogrammed (read : PageRead) : Bool :=
  decide (read.err = .ok ∧ read.full = true ∧ tag read.image = 0xFFFFFFFF ∧
    version read.image = 0xFFFFFFFF ∧ version2 mtdShape read.image = 0xFFFFFFFF)

/-- The page was read and its image carries the tag and twice the same version. -/
def PageRead.valid (read : PageRead) : Bool :=
  decide (read.err ≠ .failed ∧ read.full = true ∧ tag read.image = mtdVendorTag ∧
    version read.image = version2 mtdShape read.image)

/-- `ops_size` bytes of the medium. -/
inductive Page
  | erased
  | programmed (read : PageRead)

def Page.isErased : Page → Bool
  | .erased => true
  | .programmed _ => false

/-- An erased page reads as ones. -/
def Page.read : Page → PageRead
  | .erased => ⟨.ok, true, fun _ => 0xFF⟩
  | .programmed read => read

/-- Pages by block and by page number inside the block. -/
abbrev Flash := Nat → Nat → Page

/-- The medium after one page changed. -/
def setPage (flash : Flash) (blk page : Nat) (value : Page) : Flash :=
  Function.update flash blk (Function.update (flash blk) page value)

structure MtdGeometry where
  /-- `mtd->size / mtd->erasesize`. -/
  blocks : Nat
  /-- `mtd->erasesize / ops_size`. -/
  pages : Nat
  /-- `mtd_block_isbad`. -/
  isBad : Nat → Bool
  pages_pos : 0 < pages

/-- The result of `mtd_write` with the page it leaves. -/
inductive WriteResult
  | done (euclean : Bool)
  | failed (left : Page)

/-- The result of `mtd_erase` with the pages it leaves. -/
inductive EraseResult
  | done
  | failed (left : Nat → Page)

/-- `mtd_write` of `ops_size` bytes of `g_vendor`; answers whether it succeeded. -/
def mtdWrite (geo : MtdGeometry) (flash : Flash) (blk page : Nat) (image : Bytes) :
    WriteResult → Bool × Flash
  | .done euclean =>
      if blk < geo.blocks then
        let read : PageRead := ⟨if euclean then .euclean else .ok, true, image⟩
        (true, setPage flash blk page (.programmed read))
      else (false, flash)
  | .failed left =>
      if blk < geo.blocks then (false, setPage flash blk page left) else (false, flash)

/-- `mtd_erase` of one block, refused for a bad block and outside the device. -/
def mtdErase (geo : MtdGeometry) (flash : Flash) (blk : Nat) : EraseResult → Bool × Flash
  | .done =>
      if blk < geo.blocks && !geo.isBad blk then
        (true, Function.update flash blk fun _ => .erased)
      else (false, flash)
  | .failed left =>
      if blk < geo.blocks && !geo.isBad blk then (false, Function.update flash blk left)
      else (false, flash)

/-! ## Mounting -/

/-- `struct mtd_nand_info` without the constant `ops_size`. -/
structure NandInfo where
  blkOffset : Nat
  pageOffset : Nat
  version : Nat

/-- The loop over the first pages of the blocks, after `n` blocks: `blk_offset` and `version`. -/
def scanBlocks (geo : MtdGeometry) (flash : Flash) : Nat → Nat × Nat
  | 0 => (0, 0)
  | offset + 1 =>
      let (blkOffset, newest) := scanBlocks geo flash offset
      if !geo.isBad offset then
        let read := (flash offset 0).read
        if read.valid && newest < version read.image then (offset, version read.image)
        else (blkOffset, newest)
      else if blkOffset = offset then (blkOffset + 1, newest)
      else (blkOffset, newest)

/-- The locals of the loop over the pages of the chosen block. -/
structure PageScan where
  pageOffset : Nat
  version : Nat
  buffer : Bytes

/-- The loop over the pages of the chosen block, from the last page down. -/
def scanPages (flash : Flash) (blk : Nat) : Nat → PageScan → PageScan
  | 0, scan => scan
  | offset + 1, scan =>
      let read := (flash blk offset).read
      let buffer := copyIn scan.buffer 0 read.image mtdShape.size
      if read.unprogrammed then scanPages flash blk offset { scan with buffer }
      else
        let pageOffset := if scan.pageOffset < offset then offset + 1 else scan.pageOffset
        if read.valid then ⟨pageOffset, version read.image, buffer⟩
        else scanPages flash blk offset { scan with pageOffset, buffer }

/-- The image that initialisation builds when no block holds one. -/
def mtdFreshImage (buffer : Bytes) : Bytes :=
  let m := copyIn buffer 0 (fun _ => 0) mtdShape.size
  let m := write32 m 4 1
  let m := write32 m 0 mtdVendorTag
  let m := write16 m 14 mtdShape.dataSize
  write32 m mtdShape.version2Base (version m)

/-- Where `mtd_vendor_storage_init` stands after its two scans. -/
structure MtdMount where
  nandInfo : NandInfo
  gVendor : VendorInfo
  /-- No image was found, so the device is about to be formatted. -/
  formats : Bool

/-- `mtd_vendor_storage_init` up to its first access that changes the medium. -/
def mtdMount (geo : MtdGeometry) (flash : Flash) (buffer : Bytes) : MtdMount :=
  let (blkOffset, newest) := scanBlocks geo flash geo.blocks
  if newest ≠ 0 then
    let scan := scanPages flash blkOffset geo.pages ⟨0, newest, buffer⟩
    ⟨⟨blkOffset, scan.pageOffset, scan.version⟩, ⟨scan.buffer, false⟩, false⟩
  else ⟨⟨blkOffset, 0, 0⟩, ⟨mtdFreshImage buffer, false⟩, true⟩

/-! ## The machine -/

/-- Who called `mtd_vendor_nand_write`. -/
inductive Caller
  | init
  | vendorWrite
  deriving DecidableEq

/-- The place of the driver between two operations of the medium. -/
inductive MtdPc
  | off
  | idle
  /-- In the erase loop of initialisation, at block `offset`. -/
  | format (offset : Nat)
  /-- In the loop of `mtd_vendor_nand_write`, with the local `count`. -/
  | write (caller : Caller) (count : Nat)
  deriving DecidableEq

structure MtdState where
  flash : Flash
  nandInfo : NandInfo
  gVendor : VendorInfo
  pc : MtdPc
  /-- The image of the last `mtd_vendor_write` that returned zero. -/
  returned : Option Bytes
  /-- Some `mtd_write` was issued to a page that was not erased. -/
  reprogrammed : Bool

inductive MtdLabel
  /-- Power on and mount into a new buffer. -/
  | boot (buffer : Bytes)
  /-- One pass of the erase loop of initialisation. -/
  | formatErase (result : EraseResult)
  /-- `mtd_vendor_write` up to its first access to the medium. -/
  | call (id : Nat) (pbuf : Bytes) (size : Nat)
  /-- The next `mtd_erase` or `mtd_write` of `mtd_vendor_nand_write`, whichever comes. -/
  | pass (erase : EraseResult) (write : WriteResult)
  /-- Power is cut. -/
  | cut

/-- The branch of `mtd_vendor_nand_write` that enters the next block. -/
def enterBlock (geo : MtdGeometry) (state : MtdState) (erase : EraseResult) : MtdState :=
  let next := state.nandInfo.blkOffset + 1
  let blkOffset := if geo.blocks ≤ next then 0 else next
  let nandInfo := { state.nandInfo with blkOffset }
  if geo.isBad blkOffset then { state with nandInfo }
  else
    let (erased, flash) := mtdErase geo state.flash blkOffset erase
    if erased then { state with flash, nandInfo := { nandInfo with pageOffset := 0 } }
    else { state with flash, nandInfo }

/-- The page write of `mtd_vendor_nand_write` and the end of its loop. -/
def writePage (geo : MtdGeometry) (state : MtdState) (write : WriteResult) (caller : Caller)
    (count : Nat) : MtdState :=
  let blk := state.nandInfo.blkOffset
  let page := state.nandInfo.pageOffset
  let (written, flash) := mtdWrite geo state.flash blk page state.gVendor.mem write
  let reprogrammed := state.reprogrammed ||
    (decide (blk < geo.blocks) && !(state.flash blk page).isErased)
  let nandInfo := { state.nandInfo with pageOffset := page + 1 }
  if !written then { state with flash, nandInfo, reprogrammed }
  else if count + 1 < 2 then
    { state with flash, nandInfo, reprogrammed, pc := .write caller (count + 1) }
  else
    let returned := if caller = .vendorWrite then some state.gVendor.mem else state.returned
    { state with flash, nandInfo, reprogrammed, returned, pc := .idle }

def mtdStep (geo : MtdGeometry) (state : MtdState) : MtdLabel → Option MtdState
  | .boot buffer =>
      if state.pc = .off then
        let mount := mtdMount geo state.flash buffer
        some { state with
          nandInfo := mount.nandInfo
          gVendor := mount.gVendor
          pc := if mount.formats then .format 0 else .idle }
      else none
  | .formatErase result =>
      match state.pc with
      | .format offset =>
          if offset < geo.blocks then
            let flash := if geo.isBad offset then state.flash
              else (mtdErase geo state.flash (state.nandInfo.blkOffset + offset) result).2
            some { state with flash, pc := .format (offset + 1) }
          else some { state with pc := .write .init 0 }
      | _ => none
  | .call id pbuf size =>
      if state.pc = .idle then
        match vendorUpdate mtdShape mtdCharge state.gVendor id pbuf size with
        | some g =>
            some { state with gVendor := bumpVersion mtdShape g, pc := .write .vendorWrite 0 }
        | none => some state
      else none
  | .pass erase write =>
      match state.pc with
      | .write caller count =>
          if geo.pages ≤ state.nandInfo.pageOffset then some (enterBlock geo state erase)
          else some (writePage geo state write caller count)
      | _ => none
  | .cut => some { state with pc := .off }

end VendorStorage
end RockchipSoc
