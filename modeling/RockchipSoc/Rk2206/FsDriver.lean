import Mathlib.Data.List.Basic
import Mathlib.Algebra.Group.Nat.Defs

/-!
# The LittleFS block device of the RK2206

The driver reads a table of partitions from the device resource, checks each against the part of
the flash that belongs to the user, and mounts them.  LittleFS then calls `fs_read`, `fs_write` and
`fs_erase` with the configuration of a partition; each looks the partition up by its mount point
and calls the flash at an address it computes from the block number.  All numbers are unsigned and
have 32 bits.

The flash itself is a parameter.  Its calls are recorded in the order in which they are made.
-/

namespace RockchipSoc
namespace Rk2206

/-- `FLASH_ADDRESS_USER_START`. -/
def flashAddressUserStart : UInt32 := 0x400000

/-- `FLASH_ADDRESS_USER_END`. -/
def flashAddressUserEnd : UInt32 := 0x800000

/-- The part of `struct lfs_config` that the driver uses. -/
structure LfsConfig where
  context : Option String
  blockSize : UInt32
  blockCount : UInt32
  deriving DecidableEq, Repr

/-- `struct fs_cfg`; a mount point may be NULL. -/
structure FsCfg where
  mountPoint : Option String
  blockStart : UInt32
  lfsCfg : LfsConfig
  deriving DecidableEq, Repr

/-- An entry of `m_fs_cfg` before anything is written to it. -/
instance : Inhabited FsCfg := ⟨⟨none, 0, ⟨none, 0, 0⟩⟩⟩

/-! ### Reading the table -/

/-- The arrays of the device resource. -/
structure FsResource where
  elemNum : Int
  mountPoint : Nat → Option (Option String)
  blockSize : Nat → Option UInt32
  blockCount : Nat → Option UInt32
  blockStart : Nat → Option UInt32

inductive HdfStatus
  | failure | invalidParam
  deriving DecidableEq, Repr

/-- One entry of the table, if all of its values can be read. -/
def readEntry (resource : FsResource) (i : Nat) : Option FsCfg := do
  let mountPoint ← resource.mountPoint i
  let blockSize ← resource.blockSize i
  let blockCount ← resource.blockCount i
  let blockStart ← resource.blockStart i
  return ⟨mountPoint, blockStart, ⟨mountPoint, blockSize, blockCount⟩⟩

/-- The checks of one partition. -/
def checkPartition (flashBlockSize : UInt32) (fs : FsCfg) : Except HdfStatus Unit :=
  if fs.lfsCfg.blockSize ≠ flashBlockSize then .error .invalidParam
  else if fs.blockStart * fs.lfsCfg.blockSize < flashAddressUserStart then .error .failure
  else if (fs.blockStart + fs.lfsCfg.blockCount) * fs.lfsCfg.blockSize > flashAddressUserEnd then
    .error .failure
  else .ok ()

/-- The checks end at the first entry without a mount point. -/
def checkPartitions (flashBlockSize : UInt32) : List FsCfg → Except HdfStatus Unit
  | [] => .ok ()
  | fs :: rest =>
      if fs.mountPoint = none then .ok ()
      else
        match checkPartition flashBlockSize fs with
        | .error status => .error status
        | .ok () => checkPartitions flashBlockSize rest

/-- `fsdrv_readdrs`, which fills `m_fs_cfg` up to the number of mount points. -/
def fsdrvReaddrs (resource : Option FsResource) (flashBlockSize : UInt32) (maxMountSize : Nat) :
    Except HdfStatus (List FsCfg) :=
  match resource with
  | none => .error .invalidParam
  | some resource =>
      if resource.elemNum < 0 ∨ (maxMountSize : Int) < resource.elemNum then .error .failure
      else
        match (List.range resource.elemNum.toNat).mapM (readEntry resource) with
        | none => .error .failure
        | some entries =>
            match checkPartitions flashBlockSize entries with
            | .error status => .error status
            | .ok () => .ok (entries ++ List.replicate (maxMountSize - entries.length) default)

/-! ### The flash -/

/-- The contents of memory behind a pointer. -/
abbrev Memory := Nat → UInt8

/-- A flash: what each call does to it, and what it gives back when it succeeds. -/
structure FlashDevice (σ : Type*) where
  flashRead : σ → UInt32 → UInt32 → σ × Option Memory
  flashErase : σ → UInt32 → UInt32 → σ × Bool
  flashWrite : σ → UInt32 → UInt32 → Memory → σ × Bool

inductive FlashCall
  | flashRead (flashOffset size : UInt32)
  | flashErase (flashOffset size : UInt32)
  | flashWrite (flashOffset size : UInt32) (ramData : Memory)

/-- The flash together with the calls made so far. -/
structure Flash (σ : Type*) where
  state : σ
  calls : List FlashCall

section calls

variable {σ : Type*} (device : FlashDevice σ) (flash : Flash σ) (flashOffset size : UInt32)

def flashRead : Flash σ × Option Memory :=
  let (state, data) := device.flashRead flash.state flashOffset size
  (⟨state, flash.calls ++ [.flashRead flashOffset size]⟩, data)

def flashErase : Flash σ × Bool :=
  let (state, done) := device.flashErase flash.state flashOffset size
  (⟨state, flash.calls ++ [.flashErase flashOffset size]⟩, done)

def flashWrite (ramData : Memory) : Flash σ × Bool :=
  let (state, done) := device.flashWrite flash.state flashOffset size ramData
  (⟨state, flash.calls ++ [.flashWrite flashOffset size ramData]⟩, done)

end calls

/-! ### Requests of LittleFS -/

inductive LfsError
  | inval | io | nomem
  deriving DecidableEq, Repr

/-- A request ends with a result or an error of LittleFS, or what it does is undefined. -/
inductive FsResult (α : Type*)
  | returned (result : Except LfsError α)
  | undefined

/-- What a lookup finds; comparing with a NULL string is undefined. -/
inductive Lookup
  | found (partition : Nat)
  | notSupport
  | nullCompare
  deriving DecidableEq, Repr

/-- `fs_get_partition`, from an entry of the table on. -/
def fsGetPartition (str : Option String) : List FsCfg → Nat → Lookup
  | [], _ => .notSupport
  | fs :: rest, i =>
      match fs.mountPoint, str with
      | some mountPoint, some src =>
          if mountPoint = src then .found i else fsGetPartition str rest (i + 1)
      | _, _ => .nullCompare

/-- The checks of `fs_read` and `fs_write`: start and end of the request lie in the partition. -/
def acceptsRange (c : LfsConfig) (block off size : UInt32) : Bool :=
  ¬(block * c.blockSize + off ≥ c.blockSize * c.blockCount) ∧
    ¬(block * c.blockSize + off + size > c.blockSize * c.blockCount)

section requests

variable {σ : Type*} (device : FlashDevice σ) (table : List FsCfg) (flash : Flash σ)

/-- Look the partition up and go on with its entry. -/
def withPartition {α : Type*} (c : LfsConfig) (next : FsCfg → Flash σ × FsResult α) :
    Flash σ × FsResult α :=
  match fsGetPartition c.context table 0 with
  | .found partition => next (table.getD partition default)
  | .notSupport => (flash, .returned (.error .inval))
  | .nullCompare => (flash, .undefined)

/-- `fs_read`; `dst` says whether there is a buffer. -/
def fsRead (c : Option LfsConfig) (block off : UInt32) (dst : Bool) (size : UInt32) :
    Flash σ × FsResult Memory :=
  match c with
  | none => (flash, .returned (.error .inval))
  | some c =>
      if ¬acceptsRange c block off size then (flash, .returned (.error .inval))
      else if ¬dst then (flash, .returned (.error .inval))
      else withPartition table flash c fun fs =>
        match flashRead device flash ((fs.blockStart + block) * c.blockSize + off) size with
        | (flash, some data) => (flash, .returned (.ok data))
        | (flash, none) => (flash, .returned (.error .io))

/-- `memcpy_s`, whose result is ignored: too many bytes clear the destination instead. -/
def memcpyS (dest : Memory) (start destMax : UInt32) (src : Memory) (srcOffset count : UInt32) :
    Memory := fun k =>
  if destMax = 0 ∨ 0x7fffffff < destMax then dest k
  else if destMax < count then
    if start.toNat ≤ k ∧ k < start.toNat + destMax.toNat then 0 else dest k
  else if start.toNat ≤ k ∧ k < start.toNat + count.toNat then
    src (srcOffset.toNat + (k - start.toNat))
  else dest k

/-- A whole block is read, erased, changed and written again, up to the first failure. -/
def rewriteBlock (address blockSize : UInt32) (change : Memory → Memory) : Flash σ × Bool :=
  match flashRead device flash address blockSize with
  | (flash, none) => (flash, false)
  | (flash, some buffer) =>
      match flashErase device flash address blockSize with
      | (flash, false) => (flash, false)
      | (flash, true) => flashWrite device flash address blockSize (change buffer)

/-- A whole block is erased and written. -/
def replaceBlock (address blockSize : UInt32) (data : Memory) : Flash σ × Bool :=
  match flashErase device flash address blockSize with
  | (flash, false) => (flash, false)
  | (flash, true) => flashWrite device flash address blockSize data

/-- The range of a write: its bytes, and the blocks from the first one up to the last. -/
structure WriteRange where
  addr : UInt32
  size : UInt32
  blockSize : UInt32

def WriteRange.blockStart (range : WriteRange) : UInt32 := range.addr / range.blockSize

def WriteRange.blockEnd (range : WriteRange) : UInt32 :=
  let block := (range.addr + range.size) / range.blockSize
  if (range.addr + range.size) % range.blockSize ≠ 0 then block + 1 else block

/-- One round of the loop in `fs_write`: the flash, the number of bytes of `src` the round took, and
whether it succeeded. -/
def writeBlock (range : WriteRange) (src : Memory) (blockOffset strOffset : UInt32) :
    (Flash σ × Bool) × UInt32 :=
  let address := blockOffset * range.blockSize
  if blockOffset = range.blockStart then
    let writeOffset := range.addr - address
    let writeLength := range.blockSize - writeOffset
    (rewriteBlock device flash address range.blockSize fun buffer =>
      memcpyS buffer writeOffset (range.blockSize - writeOffset) src strOffset writeLength,
      writeLength)
  else if blockOffset = range.blockEnd - 1 then
    let writeLength := range.addr + range.size - address
    (rewriteBlock device flash address range.blockSize fun buffer =>
      memcpyS buffer 0 range.blockSize src strOffset writeLength, writeLength)
  else
    (replaceBlock device flash address range.blockSize fun k => src (strOffset.toNat + k),
      range.blockSize)

/-- The loop in `fs_write`, with the number of blocks that are left. -/
def writeBlocks (range : WriteRange) (src : Memory) :
    Nat → Flash σ → UInt32 → UInt32 → Flash σ × Bool
  | 0, flash, _, _ => (flash, true)
  | left + 1, flash, blockOffset, strOffset =>
      match writeBlock device flash range src blockOffset strOffset with
      | ((flash, false), _) => (flash, false)
      | ((flash, true), writeLength) =>
          writeBlocks range src left flash (blockOffset + 1) (strOffset + writeLength)

/-- `fs_write`. -/
def fsWrite (c : Option LfsConfig) (block off : UInt32) (src : Option Memory) (size : UInt32)
    (malloc : Bool) : Flash σ × FsResult Unit :=
  match c, src with
  | some c, some src =>
      if ¬acceptsRange c block off size then (flash, .returned (.error .inval))
      else withPartition table flash c fun fs =>
        let range : WriteRange :=
          ⟨(fs.blockStart + block) * c.blockSize + off, size, c.blockSize⟩
        if ¬malloc then (flash, .returned (.error .nomem))
        else
          match writeBlocks device range src (range.blockEnd.toNat - range.blockStart.toNat) flash
            range.blockStart 0 with
          | (flash, true) => (flash, .returned (.ok ()))
          | (flash, false) => (flash, .returned (.error .io))
  | _, _ => (flash, .returned (.error .inval))

/-- `fs_erase`, which ignores whether the block could be erased. -/
def fsErase (c : Option LfsConfig) (block : UInt32) : Flash σ × FsResult Unit :=
  match c with
  | none => (flash, .returned (.error .inval))
  | some c =>
      if block ≥ c.blockCount then (flash, .returned (.error .inval))
      else withPartition table flash c fun fs =>
        ((flashErase device flash ((fs.blockStart + block) * c.blockSize) c.blockSize).1,
          .returned (.ok ()))

end requests

end Rk2206
end RockchipSoc
