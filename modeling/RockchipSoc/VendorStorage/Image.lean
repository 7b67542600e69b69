import RockchipSoc.Foundation.ByteMemory

/-!
# The vendor-storage image and its in-memory update

`struct vendor_info` is kept as the packed bytes the drivers program into the medium: a header,
the table `item[]`, the area `data[]`, a hash word and a second version word.  The eMMC and MTD
drivers share this layout and the update of the table; they differ in the two array lengths and
in how a grown item is charged to `free_size`.  The memory is flat, so a store past `item[]` lands
in `data[]` exactly as it does in the driver, and a ghost flag remembers that it happened.
-/

namespace RockchipSoc
namespace VendorStorage

open ByteMemory

/-- The array lengths in which two instances of `struct vendor_info` differ. -/
structure ImageShape where
  /-- Length of `item[]`. -/
  itemMax : Nat
  /-- `sizeof(data)`. -/
  dataSize : Nat
  /-- `item_num` is sixteen bits wide. -/
  itemMax_lt : itemMax < 65536
  /-- `free_size` and `free_offset` are sixteen bits wide. -/
  dataSize_lt : dataSize < 65536

namespace ImageShape

/-- Address of `data[0]`, right after the header and `item[]`. -/
def dataBase (shape : ImageShape) : Nat := 16 + 8 * shape.itemMax

/-- Address of `version2`, after the unused `hash` word. -/
def version2Base (shape : ImageShape) : Nat := shape.dataBase + shape.dataSize + 4

/-- `sizeof(struct vendor_info)`. -/
def size (shape : ImageShape) : Nat := shape.dataBase + shape.dataSize + 8

end ImageShape

/-- `ALIGN(x, 0x40)` in thirty-two-bit arithmetic. -/
def align (x : Nat) : Nat := (x + 63) % 4294967296 / 64 * 64

/-! ## Fields -/

def tag (m : Bytes) : Nat := read32 m 0
def version (m : Bytes) : Nat := read32 m 4
def nextIndex (m : Bytes) : Nat := read16 m 8
def itemNum (m : Bytes) : Nat := read16 m 10
def freeOffset (m : Bytes) : Nat := read16 m 12
def freeSize (m : Bytes) : Nat := read16 m 14
def version2 (shape : ImageShape) (m : Bytes) : Nat := read32 m shape.version2Base
def dataByte (shape : ImageShape) (m : Bytes) (k : Nat) : UInt8 := m (shape.dataBase + k)

/-- The fields of `struct vendor_item` that the drivers use. -/
structure VendorItem where
  id : Nat
  offset : Nat
  size : Nat
  deriving DecidableEq, Repr

/-- Load `item[i]`. -/
def item (m : Bytes) (i : Nat) : VendorItem where
  id := read16 m (16 + 8 * i)
  offset := read16 m (16 + 8 * i + 2)
  size := read16 m (16 + 8 * i + 4)

/-- `*g_vendor` together with a ghost flag. -/
structure VendorInfo where
  /-- The bytes of the structure and of the memory after it. -/
  mem : Bytes
  /-- Some store through `item[]` or `data[]` left its array. -/
  overrun : Bool

/-! ## Stores -/

def storeItemId (shape : ImageShape) (g : VendorInfo) (i v : Nat) : VendorInfo where
  mem := write16 g.mem (16 + 8 * i) v
  overrun := g.overrun || decide (shape.itemMax ≤ i)

def storeItemOffset (shape : ImageShape) (g : VendorInfo) (i v : Nat) : VendorInfo where
  mem := write16 g.mem (16 + 8 * i + 2) v
  overrun := g.overrun || decide (shape.itemMax ≤ i)

def storeItemSize (shape : ImageShape) (g : VendorInfo) (i v : Nat) : VendorInfo where
  mem := write16 g.mem (16 + 8 * i + 4) v
  overrun := g.overrun || decide (shape.itemMax ≤ i)

/-- `memcpy(&data[offset], pbuf, size)`. -/
def storeData (shape : ImageShape) (g : VendorInfo) (offset : Nat) (pbuf : Bytes) (size : Nat) :
    VendorInfo where
  mem := copyIn g.mem (shape.dataBase + offset) pbuf size
  overrun := g.overrun || decide (0 < size ∧ shape.dataSize < offset + size)

/-- `memcpy(&data[dst], &data[src], size)`, taken as a forward byte copy. -/
def moveData (shape : ImageShape) (g : VendorInfo) (dst src size : Nat) : VendorInfo where
  mem := copyForward g.mem (shape.dataBase + dst) (shape.dataBase + src) size
  overrun := g.overrun || decide (0 < size ∧ shape.dataSize < dst + size)

def storeItemNum (g : VendorInfo) (v : Nat) : VendorInfo := { g with mem := write16 g.mem 10 v }
def storeFreeOffset (g : VendorInfo) (v : Nat) : VendorInfo := { g with mem := write16 g.mem 12 v }
def storeFreeSize (g : VendorInfo) (v : Nat) : VendorInfo := { g with mem := write16 g.mem 14 v }

/-! ## Lookup, read and update -/

/-- First index below `item_num` whose item carries `id`. -/
def findItem (m : Bytes) (id : Nat) : Option Nat :=
  (List.range (itemNum m)).find? fun i => (item m i).id == id

/-- The read shared by the drivers: the return value and the caller's buffer afterwards. -/
def vendorRead (shape : ImageShape) (m : Bytes) (id : Nat) (pbuf : Bytes) (size : Nat) :
    Int × Bytes :=
  match findItem m id with
  | some i =>
      let size := if (item m i).size < size then (item m i).size else size
      (size, copyIn pbuf 0 (fun k => dataByte shape m ((item m i).offset + k)) size)
  | none => (-1, pbuf)

/-- One pass of the compaction loop: move item `j + 1` down to index `j` and to `offset`. -/
def shiftItem (shape : ImageShape) (g : VendorInfo) (j offset : Nat) : VendorInfo :=
  let g := storeItemId shape g j (item g.mem (j + 1)).id
  let g := storeItemSize shape g j (item g.mem (j + 1)).size
  let g := storeItemOffset shape g j offset
  moveData shape g offset (item g.mem (j + 1)).offset (align (item g.mem (j + 1)).size)

/-- The compaction loop, with the number of passes left; answers the final `offset` as well. -/
def compact (shape : ImageShape) : Nat → Nat → Nat → VendorInfo → VendorInfo × Nat
  | 0, _, offset, g => (g, offset)
  | n + 1, j, offset, g =>
      compact shape n (j + 1) ((offset + align (item g.mem (j + 1)).size) % 4294967296)
        (shiftItem shape g j offset)

/-- Fill `item[i]` and copy the caller's bytes to the offset just stored. -/
def placeItem (shape : ImageShape) (g : VendorInfo) (i id offset size : Nat) (pbuf : Bytes) :
    VendorInfo :=
  let g := storeItemId shape g i id
  let g := storeItemOffset shape g i offset
  let g := storeItemSize shape g i size
  storeData shape g (item g.mem i).offset pbuf size

/-- The append branch up to `item_num++`. -/
def appendItem (shape : ImageShape) (g : VendorInfo) (id : Nat) (pbuf : Bytes) (size : Nat) :
    VendorInfo :=
  let i := itemNum g.mem
  let offset := freeOffset g.mem
  let g := storeItemId shape g i id
  let g := storeItemOffset shape g i offset
  let g := storeItemSize shape g i size
  let g := storeFreeOffset g (freeOffset g.mem + align size)
  let g := storeFreeSize g (freeSize g.mem + 4294967296 - align size)
  let g := storeData shape g (item g.mem i).offset pbuf size
  storeItemNum g (itemNum g.mem + 1)

/-- The branch for an item that stays inside its aligned room. -/
def rewriteItem (shape : ImageShape) (g : VendorInfo) (i : Nat) (pbuf : Bytes) (size : Nat) :
    VendorInfo :=
  storeItemSize shape (storeData shape g (item g.mem i).offset pbuf size) i size

/-- How the grow branch recomputes `free_size` from the image and the two aligned sizes. -/
abbrev GrowCharge := Bytes → Nat → Nat → Nat

/-- The branch for an item that outgrows its room: later items are compacted over it and the
item is placed last. -/
def growItem (shape : ImageShape) (charge : GrowCharge) (g : VendorInfo) (i id : Nat)
    (pbuf : Bytes) (size : Nat) : VendorInfo :=
  let allocSize := align (item g.mem i).size
  let last := itemNum g.mem - 1
  let (g, offset) := compact shape (last - i) i (item g.mem i).offset g
  let g := placeItem shape g last id offset size pbuf
  let g := storeFreeOffset g (offset + align size)
  storeFreeSize g (charge g.mem (align size) allocSize)

/-- The table and data update of `emmc_vendor_write` and `mtd_vendor_write`; `none` is the
return value `-1`, before which nothing is stored. -/
def vendorUpdate (shape : ImageShape) (charge : GrowCharge) (g : VendorInfo) (id : Nat)
    (pbuf : Bytes) (size : Nat) : Option VendorInfo :=
  match findItem g.mem id with
  | some i =>
      if align (item g.mem i).size < size then
        if freeSize g.mem < align size then none
        else some (growItem shape charge g i id pbuf size)
      else some (rewriteItem shape g i pbuf size)
  | none =>
      if align size ≤ freeSize g.mem then some (appendItem shape g id pbuf size) else none

/-- `version++; version2 = version`. -/
def bumpVersion (shape : ImageShape) (g : VendorInfo) : VendorInfo :=
  let m := write32 g.mem 4 (version g.mem + 1)
  { g with mem := write32 m shape.version2Base (version m) }

end VendorStorage
end RockchipSoc
