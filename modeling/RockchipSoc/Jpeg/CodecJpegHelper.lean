import RockchipSoc.Foundation.Emit

/-!
# Writing and reading the headers of a JPEG image

The codec service takes a picture apart into its tables, its components and the compressed bytes,
and the hardware's side puts such a description together again, segment by segment.  The buffer is
the memory it stands in: the reader can run on behind what was written.
-/

namespace RockchipSoc.Jpeg

open Emit

/-- A byte of the buffer. -/
abbrev Byte := BitVec 8

/-- The buffer by the offset from its start. -/
abbrev Buffer := ℤ → Byte

/-- A component of the picture. -/
structure CodecJpegCompInfo where
  infoFlag : Bool
  componentId : Nat
  hSampFactor : Nat
  vSampFactor : Nat
  quantTableNo : Nat
  dcTableNo : Nat
  acTableNo : Nat
  deriving DecidableEq

/-- A quantisation table. -/
structure CodecJpegQuantTable where
  quantVal : List (BitVec 16)
  tableFlag : Bool
  deriving DecidableEq

/-- A Huffman table: how many codes have each length, and their values. -/
structure CodecJpegHuffTable where
  bits : List Byte
  huffVal : List Byte
  tableFlag : Bool
  deriving DecidableEq

/-- The description of a picture. -/
structure CodecJpegDecInfo where
  imageWidth : Nat
  imageHeight : Nat
  dataPrecision : Nat
  numComponents : Nat
  restartInterval : Nat
  compInfo : List CodecJpegCompInfo
  quantTbl : List CodecJpegQuantTable
  dcHuffTbl : List CodecJpegHuffTable
  acHuffTbl : List CodecJpegHuffTable
  deriving DecidableEq

/-- The description before anything is read. -/
def CodecJpegDecInfo.blank : CodecJpegDecInfo :=
  { imageWidth := 0, imageHeight := 0, dataPrecision := 0, numComponents := 0
    restartInterval := 0, compInfo := [], quantTbl := [], dcHuffTbl := [], acHuffTbl := [] }

/-! ## The secure copy -/

/-- How the secure copy refuses: its positive errors, and what it leaves at the destination. -/
structure CopyErrors where
  /-- The answer to a destination of size zero. -/
  range : ℤ
  /-- The answer to a missing source. -/
  null : ℤ
  /-- The destination after a missing source. -/
  reset : Buffer → ℤ → Buffer
  range_pos : 0 < range
  null_pos : 0 < null

/-- Copy the bytes to the destination, whose size is given as theirs. -/
def memcpyS (errors : CopyErrors) (buffer : Buffer) (dest : ℤ) : Option (List Byte) → Buffer × ℤ
  | none => (errors.reset buffer dest, errors.null)
  | some [] => (buffer, errors.range)
  | some (byte :: bytes) => (emit buffer dest (byte :: bytes), 0)

variable (errors : CopyErrors)

/-- Copy bytes to the current position and go on behind them; otherwise return. -/
def copyBytes (bytes : Option (List Byte)) (failure : ℤ → ℤ) : Emit.Part Byte :=
    fun buffer curPos =>
  let copied := memcpyS errors buffer curPos bytes
  if copied.2 ≠ 0 then (copied.1, .error (failure copied.2))
  else (copied.1, .ok (curPos + (bytes.getD []).length))

/-- The two bytes of a value, the high one first. -/
def int16Bytes (value : BitVec 16) : List Byte := [value.extractLsb' 8 8, value.extractLsb' 0 8]

def putInt16 (value : BitVec 16) : Writer Byte :=
  Part.body (copyBytes errors (some (int16Bytes value)) fun _ => -1)

def putInt8 (value : Byte) : Writer Byte := Part.body (copyBytes errors (some [value]) fun _ => -1)

/-! ## The segments -/

namespace JpegMarker

def sof0 : BitVec 16 := 0xffc0
def dht : BitVec 16 := 0xffc4
def soi : BitVec 16 := 0xffd8
def eoi : BitVec 16 := 0xffd9
def sos : BitVec 16 := 0xffda
def dqt : BitVec 16 := 0xffdb
def dri : BitVec 16 := 0xffdd

end JpegMarker

/-- A marker, a length that is written last, and tables between them. -/
def tablesSegment (marker : BitVec 16) (tables : Emit.Part Byte) : Writer Byte :=
    fun buffer curPos =>
  let marked := putInt16 errors marker buffer curPos
  if marked.2 < 0 then marked
  else
    let lenPos := marked.2
    match tables marked.1 (lenPos + 2) with
    | (buffer', .error answer) => (buffer', answer)
    | (buffer', .ok curPos') =>
        let ret := putInt16 errors (BitVec.ofInt 16 (curPos' - lenPos)) buffer' lenPos
        if ret.2 < 0 then ret else (ret.1, curPos')

/-- The entries of a table; the answers are not looked at. -/
def putQuantVals : List (BitVec 16) → Emit.Part Byte
  | [] => Part.done
  | value :: values => fun buffer curPos =>
      let put := putInt16 errors value buffer curPos
      putQuantVals values put.1 put.2

/-- The byte in front of a table: a class above its number. -/
def tableByte (tableClass : Byte) (i : Nat) : Byte := tableClass <<< 4 ||| BitVec.ofNat 8 i

/-- The precision that stands in front of a table. -/
def quantPrecision (table : CodecJpegQuantTable) : Byte :=
  if table.quantVal.length = 64 then 1 else 0

/-- The tables up to the first one that is not set. -/
def putQuantTables : Nat → List CodecJpegQuantTable → Emit.Part Byte
  | _, [] => Part.done
  | i, table :: tables =>
      if table.tableFlag then
        Part.seq (Part.call (putInt8 errors (tableByte (quantPrecision table) i)) id)
          (Part.seq (putQuantVals errors table.quantVal) (putQuantTables (i + 1) tables))
      else Part.done

def jpegDqtAssemble (decInfo : CodecJpegDecInfo) : Writer Byte :=
  tablesSegment errors JpegMarker.dqt (putQuantTables errors 0 decInfo.quantTbl)

/-- The class of a Huffman table. -/
def huffClass (dc : Bool) : Byte := if dc then 0 else 1

/-- The tables up to the first one that is not set; a refused copy is the answer of the segment. -/
def putHuffTables (dc : Bool) : Nat → List CodecJpegHuffTable → Emit.Part Byte
  | _, [] => Part.done
  | i, table :: tables =>
      if table.tableFlag then
        Part.seq (Part.call (putInt8 errors (tableByte (huffClass dc) i)) id)
          (Part.seq (copyBytes errors (some table.bits) id)
            (Part.seq (copyBytes errors (some table.huffVal) id) (putHuffTables dc (i + 1) tables)))
      else Part.done

/-- The segment of the tables of one class. -/
def jpegDhtAssembleTable (table : List CodecJpegHuffTable) (dc : Bool) : Writer Byte :=
  tablesSegment errors JpegMarker.dht (putHuffTables errors dc 0 table)

def jpegDhtAssemble (decInfo : CodecJpegDecInfo) : Writer Byte :=
  Part.body (Part.seq (Part.call (jpegDhtAssembleTable errors decInfo.dcHuffTbl true) id)
    (Part.call (jpegDhtAssembleTable errors decInfo.acHuffTbl false) id))

def jpegDriAssemble (decInfo : CodecJpegDecInfo) : Writer Byte :=
  if decInfo.restartInterval = 0 then fun buffer curPos => (buffer, curPos)
  else
    Part.body (Part.all
      [Part.call (putInt16 errors JpegMarker.dri) id, Part.call (putInt16 errors 4) id,
        Part.call (putInt16 errors (BitVec.ofNat 16 decInfo.restartInterval)) id])

/-- Both sampling factors in one byte. -/
def sampFactor (info : CodecJpegCompInfo) : Byte :=
  BitVec.ofNat 8 ((info.hSampFactor &&& 0xFF) <<< 4 ||| (info.vSampFactor &&& 0xFF))

/-- What the frame header says of a component. -/
def sofBytes (info : CodecJpegCompInfo) : List Byte :=
  [BitVec.ofNat 8 info.componentId, sampFactor info, BitVec.ofNat 8 info.quantTableNo]

def jpegSofAssemble (decInfo : CodecJpegDecInfo) : Writer Byte :=
  Part.body (Part.all
    ([Part.call (putInt16 errors JpegMarker.sof0) id,
        Part.call (putInt16 errors (BitVec.ofNat 16 (decInfo.numComponents * 3 + 8))) id,
        Part.call (putInt8 errors (BitVec.ofNat 8 decInfo.dataPrecision)) id,
        Part.call (putInt16 errors (BitVec.ofNat 16 decInfo.imageHeight)) id,
        Part.call (putInt16 errors (BitVec.ofNat 16 decInfo.imageWidth)) id,
        Part.call (putInt8 errors (BitVec.ofNat 8 decInfo.numComponents)) id] ++
      decInfo.compInfo.map fun info => copyBytes errors (some (sofBytes info)) id))

/-- Both table numbers in one byte. -/
def indexNo (info : CodecJpegCompInfo) : Byte :=
  BitVec.ofNat 8 ((info.dcTableNo &&& 0xFF) <<< 4 ||| (info.acTableNo &&& 0xFF))

/-- What the scan header says of a component: both bytes keep their sign. -/
def sosValue (info : CodecJpegCompInfo) : BitVec 16 :=
  (BitVec.ofNat 8 info.componentId).signExtend 16 <<< 8 ||| (indexNo info).signExtend 16

def jpegSosAssemble (decInfo : CodecJpegDecInfo) : Writer Byte :=
  Part.body (Part.all
    ([Part.call (putInt16 errors JpegMarker.sos) id,
        Part.call (putInt16 errors (BitVec.ofNat 16 (decInfo.numComponents * 2 + 6))) id,
        Part.call (putInt8 errors (BitVec.ofNat 8 decInfo.numComponents)) id] ++
      (decInfo.compInfo.map fun info => Part.call (putInt16 errors (sosValue info)) id) ++
      [copyBytes errors (some [0x00, 0x3F, 0x00]) id]))

/-- The compressed bytes; the memory behind the descriptor may be missing. -/
def jpegDataAssemble (mem : Option (List Byte)) : Writer Byte :=
  Part.body (copyBytes errors mem fun ret => if 0 < ret then -ret else ret)

/-- The segments of a picture; any negative answer makes the whole answer minus one. -/
def jpegParts (decInfo : CodecJpegDecInfo) (mem : Option (List Byte)) : List (Emit.Part Byte) :=
  [Part.call (putInt16 errors JpegMarker.soi) fun _ => -1,
    Part.call (jpegDqtAssemble errors decInfo) fun _ => -1,
    Part.call (jpegDhtAssemble errors decInfo) fun _ => -1,
    Part.call (jpegDriAssemble errors decInfo) fun _ => -1,
    Part.call (jpegSofAssemble errors decInfo) fun _ => -1,
    Part.call (jpegSosAssemble errors decInfo) fun _ => -1,
    Part.call (jpegDataAssemble errors mem) fun _ => -1,
    Part.call (putInt16 errors JpegMarker.eoi) fun _ => -1]

/-- Put the picture together at the start of the buffer. -/
def jpegAssemble (decInfo : CodecJpegDecInfo) (buffer : Buffer) (mem : Option (List Byte)) :
    Buffer × ℤ :=
  Part.body (Part.all (jpegParts errors decInfo mem)) buffer 0

/-! ## Reading -/

section Reading

variable (buffer : Buffer)

def getInt8 (pos : ℤ) : Byte := buffer pos

def getInt16 (pos : ℤ) : BitVec 16 := buffer pos ++ buffer (pos + 1)

def findMarker (start : ℤ) : BitVec 16 := getInt16 buffer start

/-- The components of a frame header; the upper factor keeps the sign of its byte. -/
def getSofComponents : Nat → ℤ → List CodecJpegCompInfo
  | 0, _ => []
  | count + 1, pos =>
      { infoFlag := true
        componentId := (getInt8 buffer pos).toNat
        hSampFactor := ((getInt8 buffer (pos + 1)).sshiftRight 4).toNat
        vSampFactor := (getInt8 buffer (pos + 1) &&& 0x0F).toNat
        quantTableNo := (getInt8 buffer (pos + 2)).toNat
        dcTableNo := 0
        acTableNo := 0 } :: getSofComponents count (pos + 3)

def dessambleSof (pos : ℤ) (decInfo : CodecJpegDecInfo) : Nat × CodecJpegDecInfo :=
  let components := (getInt8 buffer (pos + 7)).toNat
  ((getInt16 buffer pos).toNat,
    { decInfo with
      dataPrecision := (getInt8 buffer (pos + 2)).toNat
      imageHeight := (getInt16 buffer (pos + 3)).toNat
      imageWidth := (getInt16 buffer (pos + 5)).toNat
      numComponents := components
      compInfo := decInfo.compInfo ++ getSofComponents buffer components (pos + 8) })

/-- The table numbers of the components; no component may be missing. -/
def getSosComponents : Nat → ℤ → List CodecJpegCompInfo → Option (List CodecJpegCompInfo)
  | 0, _, infos => some infos
  | _ + 1, _, [] => none
  | count + 1, pos, info :: infos =>
      (getSosComponents count (pos + 2) infos).map fun rest =>
        { info with
          infoFlag := true
          dcTableNo := (getInt8 buffer (pos + 1) >>> 4).toNat
          acTableNo := (getInt8 buffer (pos + 1) &&& 0x0F).toNat } :: rest

def dessambleSos (pos : ℤ) (decInfo : CodecJpegDecInfo) : Option (Nat × CodecJpegDecInfo) :=
  (getSosComponents buffer (getInt8 buffer (pos + 2)).toNat (pos + 3) decInfo.compInfo).map
    fun compInfo => ((getInt16 buffer pos).toNat, { decInfo with compInfo })

/-- Where the end marker is found: a byte 0xFF is left together with the byte behind it. -/
def findEoi : Nat → ℤ → Option ℤ
  | 0, _ => none
  | fuel + 1, pos =>
      if getInt8 buffer pos ≠ 0xff then findEoi fuel (pos + 1)
      else if getInt8 buffer (pos + 1) ≠ 0xd9 then findEoi fuel (pos + 2)
      else some pos

/-- The compressed bytes before the end marker, with the answer of the copy for their length. -/
def dessambleCompressData (fuel : Nat) (dataStart : ℤ) : Option (ℤ × Option (List Byte)) :=
  (findEoi buffer fuel dataStart).map fun dataEnd =>
    let comBufLen := (dataEnd - dataStart).toNat
    let ret := (memcpyS errors buffer 0 (some (cellsAt buffer dataStart comBufLen))).2
    if ret ≠ 0 then (ret, none) else (comBufLen, some (cellsAt buffer dataStart comBufLen))

def getQuantVals : Nat → ℤ → List (BitVec 16)
  | 0, _ => []
  | count + 1, pos => getInt16 buffer pos :: getQuantVals count (pos + 2)

/-- How many entries the byte in front of a table promises. -/
def quantEntries (data : Byte) : Nat := if data >>> 4 = 1 then 64 else 32

/-- The tables up to the end of the segment. -/
def getQuantTables (segmentEnd : ℤ) : Nat → ℤ → List CodecJpegQuantTable
  | 0, _ => []
  | fuel + 1, pos =>
      if pos < segmentEnd then
        let entries := quantEntries (getInt8 buffer pos)
        { quantVal := getQuantVals buffer entries (pos + 1), tableFlag := true } ::
          getQuantTables segmentEnd fuel (pos + 1 + 2 * entries)
      else []

/-- Every table takes a byte at least, so that the length bounds their number. -/
def dessambleDqt (pos : ℤ) (decInfo : CodecJpegDecInfo) : Nat × CodecJpegDecInfo :=
  let len := (getInt16 buffer pos).toNat
  (len, { decInfo with
    quantTbl := decInfo.quantTbl ++ getQuantTables buffer (pos + len) len (pos + 2) })

/-- A table behind its first byte. -/
def getHuffTable (pos : ℤ) : CodecJpegHuffTable :=
  let bits := cellsAt buffer pos 16
  { bits
    huffVal := cellsAt buffer (pos + 16) (bits.map BitVec.toNat).sum
    tableFlag := true }

/-- The tables up to the end of the segment, each put behind those of its class. -/
def getHuffTables (segmentEnd : ℤ) : Nat → ℤ → CodecJpegDecInfo → CodecJpegDecInfo
  | 0, _, decInfo => decInfo
  | fuel + 1, pos, decInfo =>
      if pos < segmentEnd then
        let table := getHuffTable buffer (pos + 1)
        getHuffTables segmentEnd fuel (pos + 17 + table.huffVal.length)
          (if getInt8 buffer pos >>> 4 = 1 then
            { decInfo with acHuffTbl := decInfo.acHuffTbl ++ [table] }
          else { decInfo with dcHuffTbl := decInfo.dcHuffTbl ++ [table] })
      else decInfo

def dessambleDht (pos : ℤ) (decInfo : CodecJpegDecInfo) : Nat × CodecJpegDecInfo :=
  let len := (getInt16 buffer pos).toNat
  (len, getHuffTables buffer (pos + len) len (pos + 2) decInfo)

/-- Where the reader is, and what it has read. -/
structure Reading where
  start : ℤ
  decInfo : CodecJpegDecInfo
  compressBuffer : Option (List Byte)

/-- Go on behind a segment that was read. -/
def Reading.behind (reading : Reading) (pos : ℤ) (answer : Nat × CodecJpegDecInfo) : Reading :=
  { reading with start := pos + answer.1, decInfo := answer.2 }

/-- Read one segment; the answer is false where the reader gives up. -/
def dessambleSegment (fuel : Nat) (reading : Reading) : Option (Bool × Reading) :=
  let marker := findMarker buffer reading.start
  let start := reading.start + 2
  if marker = JpegMarker.soi ∨ marker = JpegMarker.eoi then
    some (true, { reading with start := start })
  else if marker = JpegMarker.sof0 then
    some (true, reading.behind start (dessambleSof buffer start reading.decInfo))
  else if marker = JpegMarker.dht then
    some (true, reading.behind start (dessambleDht buffer start reading.decInfo))
  else if marker = JpegMarker.sos then
    (dessambleSos buffer start reading.decInfo).bind fun header =>
      (dessambleCompressData errors buffer fuel (start + header.1)).map fun copied =>
        (decide (0 ≤ copied.1),
          { start := start + header.1 + copied.1
            decInfo := header.2
            compressBuffer := copied.2 })
  else if marker = JpegMarker.dqt then
    some (true, reading.behind start (dessambleDqt buffer start reading.decInfo))
  else if marker = JpegMarker.dri then
    some (true, reading.behind start
      (4, { reading.decInfo with restartInterval := (getInt16 buffer (start + 2)).toNat }))
  else some (true, { reading with start := start + (getInt16 buffer start).toInt })

/-- Read segments up to the end of the buffer. -/
def dessambleSegments (bufferEnd : ℤ) : Nat → Reading → Option (Bool × Reading)
  | 0, _ => none
  | fuel + 1, reading =>
      if reading.start < bufferEnd then
        (dessambleSegment errors buffer fuel reading).bind fun answer =>
          if answer.1 then dessambleSegments bufferEnd fuel answer.2 else some answer
      else some (true, reading)

/-- Take a picture apart, from the start of the buffer. -/
def dessambleJpeg (fuel : Nat) (bufferLen : ℤ) : Option (Bool × Reading) :=
  dessambleSegments errors buffer bufferLen fuel
    { start := 0, decInfo := CodecJpegDecInfo.blank, compressBuffer := none }

end Reading

end RockchipSoc.Jpeg
