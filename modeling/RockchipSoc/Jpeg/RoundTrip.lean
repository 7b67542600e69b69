import RockchipSoc.Jpeg.SegmentLoop

/-!
# The round trip of a picture

A picture that is put together and taken apart again is the same picture where its Huffman tables
have values, its components fit into their bytes, and the compressed bytes end with an even run of
bytes 0xFF.
-/

namespace RockchipSoc.Jpeg

open Emit

variable {errors : CopyErrors} {m : Buffer} {bufferEnd pos : ℤ} {decInfo : CodecJpegDecInfo}
  {data : List Byte}

/-! ## Pictures -/

/-- The pictures that the header format can describe. -/
structure CodecJpegDecInfo.WellFormed (decInfo : CodecJpegDecInfo) : Prop where
  set : decInfo.TablesSet
  quantFew : decInfo.quantTbl.length ≤ 4
  quantSized : ∀ table ∈ decInfo.quantTbl, table.Sized
  dcFew : decInfo.dcHuffTbl.length ≤ 4
  dcCounted : ∀ table ∈ decInfo.dcHuffTbl, table.Counted
  acFew : decInfo.acHuffTbl.length ≤ 4
  acCounted : ∀ table ∈ decInfo.acHuffTbl, table.Counted
  count : decInfo.numComponents = decInfo.compInfo.length
  factors : ∀ info ∈ decInfo.compInfo, info.hSampFactor < 16 ∧ info.vSampFactor < 16
  tableNumbers : ∀ info ∈ decInfo.compInfo,
    info.quantTableNo < 16 ∧ info.dcTableNo < 16 ∧ info.acTableNo < 16
  width : decInfo.imageWidth < 65536
  height : decInfo.imageHeight < 65536
  interval : decInfo.restartInterval < 65536

/-- The length of the picture with its compressed bytes. -/
def jpegLength (decInfo : CodecJpegDecInfo) (data : List Byte) : Nat :=
  2 + (4 + (decInfo.quantTbl.map fun table => 1 + 2 * table.quantVal.length).sum) +
    (4 + (decInfo.dcHuffTbl.map fun table => 17 + table.huffVal.length).sum) +
    (4 + (decInfo.acHuffTbl.map fun table => 17 + table.huffVal.length).sum) +
    (if decInfo.restartInterval = 0 then 0 else 6) + (10 + 3 * decInfo.numComponents) +
    (8 + 2 * decInfo.numComponents) + data.length + 2

theorem length_tablesBytes {τ : Type} {bytes : Nat → τ → List Byte} {size : τ → Nat}
    {tables : List τ} (sized : ∀ table ∈ tables, ∀ i, (bytes i table).length = size table)
    (i : Nat) : (tablesBytes bytes i tables).length = (tables.map size).sum := by
  induction tables generalizing i with
  | nil => rfl
  | cons table tables ih =>
      rw [tablesBytes, List.length_append, sized table List.mem_cons_self,
        ih fun other member => sized other (List.mem_cons_of_mem _ member), List.map_cons,
        List.sum_cons]

theorem length_dhtBytes {tables : List CodecJpegHuffTable}
    (counted : ∀ table ∈ tables, table.Counted) (dc : Bool) :
    (dhtBytes dc tables).length = 4 + (tables.map fun table => 17 + table.huffVal.length).sum := by
  rw [dhtBytes, length_segmentBytes, length_tablesBytes, Nat.add_comm]
  intro table member i
  rw [length_huffTableBytes, (counted table member).1]

theorem length_driBytes (decInfo : CodecJpegDecInfo) :
    (driBytes decInfo).length = if decInfo.restartInterval = 0 then 0 else 6 := by
  rw [driBytes]
  split <;> rfl

theorem length_jpegBytes (wellFormed : decInfo.WellFormed) (data : List Byte) :
    (jpegBytes decInfo data).length = jpegLength decInfo data := by
  have quant : (tablesBytes quantTableBytes 0 decInfo.quantTbl).length =
      (decInfo.quantTbl.map fun table => 1 + 2 * table.quantVal.length).sum :=
    length_tablesBytes (fun table _ i => length_quantTableBytes i table) 0
  simp only [jpegBytes, jpegBlocks, List.flatten_cons, List.flatten_nil, List.length_append,
    List.length_nil, length_int16Bytes, dqtBytes, length_segmentBytes, quant,
    length_dhtBytes wellFormed.dcCounted, length_dhtBytes wellFormed.acCounted, length_driBytes,
    length_sofSegmentBytes, length_sosSegmentBytes, jpegLength, wellFormed.count]
  omega

/-! ## What is read back of a component -/

theorem sampFactor_read {info : CodecJpegCompInfo} (h : info.hSampFactor < 16)
    (v : info.vSampFactor < 16) :
    ((sampFactor info).sshiftRight 4).toNat =
        (if info.hSampFactor < 8 then info.hSampFactor else 240 + info.hSampFactor) ∧
      (sampFactor info &&& 0x0F).toNat = info.vSampFactor := by
  have table : ∀ h v : Fin 16,
      ((BitVec.ofNat 8 ((h.val &&& 0xFF) <<< 4 ||| (v.val &&& 0xFF))).sshiftRight 4).toNat =
          (if h.val < 8 then h.val else 240 + h.val) ∧
        (BitVec.ofNat 8 ((h.val &&& 0xFF) <<< 4 ||| (v.val &&& 0xFF)) &&& 0x0F).toNat = v.val := by
    decide
  exact table ⟨_, h⟩ ⟨_, v⟩

theorem indexNo_read {info : CodecJpegCompInfo} (dc : info.dcTableNo < 16)
    (ac : info.acTableNo < 16) :
    (indexNo info >>> 4).toNat = info.dcTableNo ∧
      (indexNo info &&& 0x0F).toNat = info.acTableNo := by
  have table : ∀ dc ac : Fin 16,
      (BitVec.ofNat 8 ((dc.val &&& 0xFF) <<< 4 ||| (ac.val &&& 0xFF)) >>> 4).toNat = dc.val ∧
        (BitVec.ofNat 8 ((dc.val &&& 0xFF) <<< 4 ||| (ac.val &&& 0xFF)) &&& 0x0F).toNat =
          ac.val := by
    decide
  exact table ⟨_, dc⟩ ⟨_, ac⟩

/-- The component fits into its bytes: an upper factor from eight on takes the sign of its byte. -/
def CodecJpegCompInfo.Fits (info : CodecJpegCompInfo) : Prop :=
  info.infoFlag = true ∧ info.componentId < 256 ∧ info.hSampFactor < 8

theorem readBack_eq_iff {info : CodecJpegCompInfo}
    (factors : info.hSampFactor < 16 ∧ info.vSampFactor < 16)
    (numbers : info.quantTableNo < 16 ∧ info.dcTableNo < 16 ∧ info.acTableNo < 16) :
    info.readBack = info ↔ info.Fits := by
  obtain ⟨h, v⟩ := sampFactor_read factors.1 factors.2
  obtain ⟨dc, ac⟩ := indexNo_read numbers.2.1 numbers.2.2
  have quant := toNat_ofNat_of_lt (show info.quantTableNo < 2 ^ 8 by omega)
  have cut := (BitVec.ofNat 8 info.componentId).isLt
  have whole (small : info.componentId < 256) := toNat_ofNat_of_lt (show _ < 2 ^ 8 from small)
  obtain ⟨infoFlag, componentId, hSampFactor, vSampFactor, quantTableNo, dcTableNo, acTableNo⟩ :=
    info
  simp only [CodecJpegCompInfo.readBack, CodecJpegCompInfo.sofRead, h, v, dc, ac, quant,
    CodecJpegCompInfo.mk.injEq, and_true, CodecJpegCompInfo.Fits] at cut whole ⊢
  constructor
  · rintro ⟨flag, id, upper⟩
    refine ⟨flag.symm, by omega, ?_⟩
    by_contra large
    rw [if_neg large] at upper
    omega
  · rintro ⟨flag, id, upper⟩
    exact ⟨flag.symm, whole id, if_pos upper⟩

/-! ## The headers -/

/-- The bytes stand from the position up to the end of the buffer. -/
def Stands (m : Buffer) (bufferEnd pos : ℤ) (bytes : List Byte) : Prop :=
  Holds m pos bytes ∧ pos + bytes.length = bufferEnd

theorem Stands.block {block rest : List Byte} (stands : Stands m bufferEnd pos (block ++ rest)) :
    Holds m pos block :=
  (holds_append.mp stands.1).1

theorem Stands.behind {block rest : List Byte} (stands : Stands m bufferEnd pos (block ++ rest)) :
    Stands m bufferEnd (pos + block.length) rest := by
  refine ⟨(holds_append.mp stands.1).2, ?_⟩
  rw [← stands.2, List.length_append]
  push_cast
  omega

/-- Reading a segment that stands at the position takes the reader to its end. -/
theorem Stands.reads_iff {block rest : List Byte} {info info' : CodecJpegDecInfo}
    {compressBuffer : Option (List Byte)} {answer : Bool × Reading}
    (stands : Stands m bufferEnd pos (block ++ rest)) (nonempty : 0 < block.length)
    (leads : Leads errors m ⟨pos, info, compressBuffer⟩
      ⟨pos + block.length, info', compressBuffer⟩) :
    Reads errors m bufferEnd ⟨pos, info, compressBuffer⟩ answer ↔
      Reads errors m bufferEnd ⟨pos + block.length, info', compressBuffer⟩ answer := by
  apply leads.reads_iff
  have total := stands.2
  rw [List.length_append] at total
  push_cast at total
  show pos < bufferEnd
  omega

section Segments

variable {info info' : CodecJpegDecInfo} {compressBuffer : Option (List Byte)}

/-- A segment that gives its length without the marker leads behind both. -/
theorem behind_eq {len : Nat} (long : 2 ≤ len) :
    (⟨pos, info, compressBuffer⟩ : Reading).behind (pos + 2) (len - 2, info') =
      ⟨pos + len, info', compressBuffer⟩ := by
  have address : pos + 2 + ((len - 2 : Nat) : ℤ) = pos + len := by omega
  rw [Reading.behind, address]

theorem leads_soi (holds : Holds m pos (int16Bytes JpegMarker.soi)) :
    Leads errors m ⟨pos, info, compressBuffer⟩
      ⟨pos + (int16Bytes JpegMarker.soi).length, info, compressBuffer⟩ := by
  rw [← List.append_nil (int16Bytes _)] at holds
  have marker : findMarker m pos = JpegMarker.soi := (holds_int16 holds).1
  refine ⟨0, ?_⟩
  simp only [dessambleSegment, marker]
  rfl

theorem leads_eoi (holds : Holds m pos (int16Bytes JpegMarker.eoi)) :
    Leads errors m ⟨pos, info, compressBuffer⟩
      ⟨pos + (int16Bytes JpegMarker.eoi).length, info, compressBuffer⟩ := by
  rw [← List.append_nil (int16Bytes _)] at holds
  have marker : findMarker m pos = JpegMarker.eoi := (holds_int16 holds).1
  refine ⟨0, ?_⟩
  simp only [dessambleSegment, marker]
  rfl

theorem leads_dqt (wellFormed : decInfo.WellFormed) (holds : Holds m pos (dqtBytes decInfo)) :
    Leads errors m ⟨pos, info, compressBuffer⟩ ⟨pos + (dqtBytes decInfo).length,
      { info with quantTbl := info.quantTbl ++ decInfo.quantTbl }, compressBuffer⟩ := by
  obtain ⟨marker, read⟩ := dessambleDqt_of_holds wellFormed.set.quant wellFormed.quantSized
    wellFormed.quantFew holds info
  have long : 2 ≤ (dqtBytes decInfo).length := by
    rw [dqtBytes, length_segmentBytes]
    omega
  refine ⟨0, ?_⟩
  rw [← behind_eq long, ← read]
  simp only [dessambleSegment, marker]
  rfl

theorem leads_dht {dc : Bool} {tables : List CodecJpegHuffTable}
    (set : ∀ table ∈ tables, table.tableFlag = true) (counted : ∀ table ∈ tables, table.Counted)
    (few : tables.length ≤ 4) (holds : Holds m pos (dhtBytes dc tables)) :
    Leads errors m ⟨pos, info, compressBuffer⟩
      ⟨pos + (dhtBytes dc tables).length, info.withHuff dc tables, compressBuffer⟩ := by
  obtain ⟨marker, read⟩ := dessambleDht_of_holds set counted few holds info
  have long : 2 ≤ (dhtBytes dc tables).length := by
    rw [dhtBytes, length_segmentBytes]
    omega
  refine ⟨0, ?_⟩
  rw [← behind_eq long, ← read]
  simp only [dessambleSegment, marker]
  rfl

theorem leads_dri (restarts : decInfo.restartInterval ≠ 0)
    (small : decInfo.restartInterval < 65536) (holds : Holds m pos (driBytes decInfo)) :
    Leads errors m ⟨pos, info, compressBuffer⟩ ⟨pos + (driBytes decInfo).length,
      { info with restartInterval := decInfo.restartInterval }, compressBuffer⟩ := by
  have length := length_driBytes decInfo
  rw [if_neg restarts] at length
  rw [driBytes, if_neg restarts, List.flatten_cons, List.flatten_cons, List.flatten_cons] at holds
  obtain ⟨marker, behind⟩ := holds_int16 holds
  obtain ⟨-, interval⟩ := holds_int16 behind
  have value := (holds_int16 interval).1
  have found : findMarker m pos = JpegMarker.dri := marker
  have read : (getInt16 m (pos + 2 + 2)).toNat = decInfo.restartInterval := by
    rw [value]
    exact toNat_ofNat_of_lt small
  refine ⟨0, ?_⟩
  rw [← behind_eq (show 2 ≤ (driBytes decInfo).length by omega), length]
  simp only [dessambleSegment, found, read]
  rfl

theorem leads_sof (wellFormed : decInfo.WellFormed) (few : decInfo.numComponents < 256)
    (holds : Holds m pos (sofSegmentBytes decInfo)) :
    Leads errors m ⟨pos, info, compressBuffer⟩ ⟨pos + (sofSegmentBytes decInfo).length,
      info.withFrame decInfo, compressBuffer⟩ := by
  obtain ⟨marker, read⟩ := dessambleSof_of_holds wellFormed.count few wellFormed.height
    wellFormed.width holds info
  have long : 2 ≤ (sofSegmentBytes decInfo).length := by
    rw [length_sofSegmentBytes]
    omega
  refine ⟨0, ?_⟩
  rw [← behind_eq long, ← read]
  simp only [dessambleSegment, marker]
  rfl

end Segments

/-- What is known of the picture before the scan header. -/
def CodecJpegDecInfo.headerRead (decInfo : CodecJpegDecInfo) : CodecJpegDecInfo :=
  { decInfo with
    dataPrecision := (BitVec.ofNat 8 decInfo.dataPrecision).toNat
    compInfo := decInfo.compInfo.map CodecJpegCompInfo.sofRead }

/-- What is read back of the picture. -/
def CodecJpegDecInfo.readBack (decInfo : CodecJpegDecInfo) : CodecJpegDecInfo :=
  { decInfo.headerRead with compInfo := decInfo.compInfo.map CodecJpegCompInfo.readBack }

/-- The bytes from the scan header on. -/
def scanBytes (decInfo : CodecJpegDecInfo) (data : List Byte) : List Byte :=
  sosSegmentBytes decInfo ++ (data ++ int16Bytes JpegMarker.eoi)

/-- The tables that the reader has before the restart interval. -/
def CodecJpegDecInfo.tablesRead (decInfo : CodecJpegDecInfo) : CodecJpegDecInfo :=
  { CodecJpegDecInfo.blank with
    quantTbl := decInfo.quantTbl, dcHuffTbl := decInfo.dcHuffTbl, acHuffTbl := decInfo.acHuffTbl }

/-- Over the tables the reader comes to the restart interval. -/
theorem reads_tables (errors : CopyErrors) (wellFormed : decInfo.WellFormed) {rest : List Byte}
    (stands : Stands m bufferEnd 0 (int16Bytes JpegMarker.soi ++ (dqtBytes decInfo ++
      (dhtBytes true decInfo.dcHuffTbl ++ (dhtBytes false decInfo.acHuffTbl ++ rest))))) :
    ∃ pos, Stands m bufferEnd pos rest ∧ ∀ answer,
      Reads errors m bufferEnd ⟨0, .blank, none⟩ answer ↔
        Reads errors m bufferEnd ⟨pos, decInfo.tablesRead, none⟩ answer := by
  have dqt := stands.behind
  have dc := dqt.behind
  have ac := dc.behind
  have long (marker : BitVec 16) (cells : List Byte) : 0 < (segmentBytes marker cells).length := by
    rw [length_segmentBytes]
    omega
  refine ⟨_, ac.behind, fun answer => ?_⟩
  rw [stands.reads_iff (by decide) (leads_soi stands.block),
    dqt.reads_iff (long _ _) (leads_dqt wellFormed dqt.block),
    dc.reads_iff (long _ _)
      (leads_dht wellFormed.set.dc wellFormed.dcCounted wellFormed.dcFew dc.block),
    ac.reads_iff (long _ _)
      (leads_dht wellFormed.set.ac wellFormed.acCounted wellFormed.acFew ac.block)]
  rfl

/-- Over the restart interval and the frame header the reader comes to the scan header. -/
theorem reads_frame (errors : CopyErrors) (wellFormed : decInfo.WellFormed)
    (few : decInfo.numComponents < 256) {rest : List Byte}
    (stands : Stands m bufferEnd pos (driBytes decInfo ++ (sofSegmentBytes decInfo ++ rest))) :
    ∃ pos', Stands m bufferEnd pos' rest ∧ ∀ answer,
      Reads errors m bufferEnd ⟨pos, decInfo.tablesRead, none⟩ answer ↔
        Reads errors m bufferEnd ⟨pos', decInfo.headerRead, none⟩ answer := by
  have sof := stands.behind
  have long : 0 < (sofSegmentBytes decInfo).length := by
    rw [length_sofSegmentBytes]
    omega
  refine ⟨_, sof.behind, fun answer => ?_⟩
  have frame : Reads errors m bufferEnd ⟨pos + (driBytes decInfo).length,
      { decInfo.tablesRead with restartInterval := decInfo.restartInterval }, none⟩ answer ↔ _ :=
    sof.reads_iff long (leads_sof wellFormed few sof.block)
  refine Iff.trans ?_ frame
  by_cases restarts : decInfo.restartInterval = 0
  · have nothing : driBytes decInfo = [] := if_pos restarts
    rw [nothing, restarts, List.length_nil, Int.natCast_zero, Int.add_zero]
    rfl
  · have length := length_driBytes decInfo
    rw [if_neg restarts] at length
    exact stands.reads_iff (by omega) (leads_dri restarts wellFormed.interval stands.block)

/-- Over the headers the reader comes to the scan header. -/
theorem reads_headers (errors : CopyErrors) (wellFormed : decInfo.WellFormed)
    (few : decInfo.numComponents < 256)
    (stands : Stands m bufferEnd 0 (jpegBytes decInfo data)) :
    ∃ pos, Stands m bufferEnd pos (scanBytes decInfo data) ∧ ∀ answer,
      Reads errors m bufferEnd ⟨0, .blank, none⟩ answer ↔
        Reads errors m bufferEnd ⟨pos, decInfo.headerRead, none⟩ answer := by
  simp only [jpegBytes, jpegBlocks, List.flatten_cons, List.flatten_nil, List.append_nil,
    List.append_assoc] at stands
  obtain ⟨pos, frame, tables⟩ := reads_tables errors wellFormed stands
  obtain ⟨pos', scan, headers⟩ := reads_frame errors wellFormed few frame
  exact ⟨pos', scan, fun answer => (tables answer).trans (headers answer)⟩

/-! ## The compressed bytes -/

/-- A scan header leads to the compressed bytes behind it. -/
theorem dessambleSegment_of_scanHeader (wellFormed : decInfo.WellFormed)
    (few : decInfo.numComponents < 256) (holds : Holds m pos (sosSegmentBytes decInfo))
    (fuel : Nat) :
    dessambleSegment errors m fuel ⟨pos, decInfo.headerRead, none⟩ =
      (dessambleCompressData errors m fuel (pos + (sosSegmentBytes decInfo).length)).map
        fun copied => (decide (0 ≤ copied.1),
          ⟨pos + (sosSegmentBytes decInfo).length + copied.1, decInfo.readBack, copied.2⟩) := by
  obtain ⟨marker, header⟩ := dessambleSos_of_holds wellFormed.count few holds
    (show decInfo.headerRead.compInfo = _ from rfl)
  have long : 2 ≤ (sosSegmentBytes decInfo).length := by
    rw [length_sosSegmentBytes]
    omega
  have dataStart : pos + 2 + (((sosSegmentBytes decInfo).length - 2 : Nat) : ℤ) =
      pos + (sosSegmentBytes decInfo).length := by omega
  simp only [dessambleSegment, marker, header, Option.bind_some, dataStart]
  rfl

/-- From the scan header on: whatever end marker is found ends the compressed bytes. -/
theorem dessambleSegment_scan (wellFormed : decInfo.WellFormed)
    (few : decInfo.numComponents < 256) (holds : Holds m pos (sosSegmentBytes decInfo))
    {fuel : Nat} {dataEnd : ℤ}
    (found : findEoi m fuel (pos + (sosSegmentBytes decInfo).length) = some dataEnd)
    (nonempty : pos + (sosSegmentBytes decInfo).length < dataEnd) :
    dessambleSegment errors m fuel ⟨pos, decInfo.headerRead, none⟩ =
      some (true, ⟨dataEnd, decInfo.readBack,
        some (cellsAt m (pos + (sosSegmentBytes decInfo).length)
          (dataEnd - (pos + (sosSegmentBytes decInfo).length)).toNat)⟩) := by
  have copied : dessambleCompressData errors m fuel _ = _ :=
    dessambleCompressData_of_findEoi found nonempty
  have positive : 0 ≤ dataEnd - (pos + (sosSegmentBytes decInfo).length) := by omega
  have last : pos + ((sosSegmentBytes decInfo).length : ℤ) +
      (dataEnd - (pos + (sosSegmentBytes decInfo).length)) = dataEnd := by omega
  simp only [dessambleSegment_of_scanHeader wellFormed few holds, copied, Option.map_some, positive,
    decide_true, last]

/-- The scan is read only where an end marker is found behind its header. -/
theorem exists_findEoi (wellFormed : decInfo.WellFormed) (few : decInfo.numComponents < 256)
    (holds : Holds m pos (sosSegmentBytes decInfo)) {fuel : Nat} {answer : Bool × Reading}
    (read : dessambleSegment errors m fuel ⟨pos, decInfo.headerRead, none⟩ = some answer) :
    ∃ dataEnd, findEoi m fuel (pos + (sosSegmentBytes decInfo).length) = some dataEnd := by
  rw [dessambleSegment_of_scanHeader wellFormed few holds] at read
  obtain ⟨copied, copy, -⟩ := Option.map_eq_some_iff.mp read
  obtain ⟨dataEnd, found, -⟩ := Option.map_eq_some_iff.mp copy
  exact ⟨dataEnd, found⟩

theorem scanBytes_pos (decInfo : CodecJpegDecInfo) : 0 < (sosSegmentBytes decInfo).length := by
  rw [length_sosSegmentBytes]
  omega

/-- After an even run of bytes 0xFF the compressed bytes are read back. -/
theorem reads_scan_of_even (errors : CopyErrors) (wellFormed : decInfo.WellFormed)
    (few : decInfo.numComponents < 256) (nonempty : data ≠ []) (free : NoEoi data)
    (even : trailing data % 2 = 0) (stands : Stands m bufferEnd pos (scanBytes decInfo data)) :
    Reads errors m bufferEnd ⟨pos, decInfo.headerRead, none⟩
      (true, ⟨bufferEnd, decInfo.readBack, some data⟩) := by
  have scan := stands.behind
  have eoi := scan.behind
  have written : Stands m bufferEnd
      (pos + (sosSegmentBytes decInfo).length + data.length) (int16Bytes JpegMarker.eoi ++ []) := by
    rw [List.append_nil]
    exact eoi
  have size := List.length_pos_iff.mpr nonempty
  obtain ⟨fuel, found⟩ := findEoi_of_even free scan.1 even
  have segment : dessambleSegment errors m fuel _ = _ :=
    dessambleSegment_scan wellFormed few stands.block found (by omega)
  have count : (pos + ((sosSegmentBytes decInfo).length : ℤ) + data.length -
      (pos + (sosSegmentBytes decInfo).length)).toNat = data.length := by omega
  rw [count, scan.block.cellsAt] at segment
  have before : pos < bufferEnd := by
    have := scanBytes_pos decInfo
    have := scan.2
    omega
  rw [Leads.reads_iff ⟨fuel, segment⟩ before, written.reads_iff (by decide) (leads_eoi eoi.1),
    eoi.2]
  exact reads_of_end (lt_irrefl bufferEnd)

/-- After an odd run whatever is read back is too long. -/
theorem reads_scan_of_odd (wellFormed : decInfo.WellFormed) (few : decInfo.numComponents < 256)
    (free : NoEoi data) (odd : trailing data % 2 = 1)
    (stands : Stands m bufferEnd pos (scanBytes decInfo data)) {answer : Bool × Reading}
    (reads : Reads errors m bufferEnd ⟨pos, decInfo.headerRead, none⟩ answer) :
    answer.2.compressBuffer ≠ some data := by
  have scan := stands.behind
  have total : pos + (sosSegmentBytes decInfo).length + data.length + 2 = bufferEnd := by
    rw [← scan.2, List.length_append, length_int16Bytes]
    push_cast
    omega
  have before : pos < bufferEnd := by omega
  obtain ⟨fuel, read⟩ := reads
  cases fuel with
  | zero => cases read
  | succ fuel =>
      rw [dessambleSegments, if_pos before] at read
      obtain ⟨segment, segmentRead, -⟩ := Option.bind_eq_some_iff.mp read
      obtain ⟨dataEnd, found⟩ := exists_findEoi wellFormed few stands.block segmentRead
      have late := le_of_findEoi_of_odd free scan.1 odd found
      have explicit : dessambleSegment errors m fuel _ = _ :=
        dessambleSegment_scan wellFormed few stands.block found (by omega)
      have leads : Leads errors m _ _ := ⟨fuel, explicit⟩
      have rest := (leads.reads_iff before).mp ⟨fuel + 1, by
        rw [dessambleSegments, if_pos before]
        exact read⟩
      have behind : ¬dataEnd < bufferEnd := by omega
      rw [rest.unique (reads_of_end behind)]
      intro same
      have length := congrArg List.length (Option.some.inj same)
      rw [cellsAt, List.length_map, List.length_range] at length
      omega

/-! ## The round trip -/

/-- The same tables, components, size and restart interval. -/
structure SamePicture (read decInfo : CodecJpegDecInfo) : Prop where
  imageWidth : read.imageWidth = decInfo.imageWidth
  imageHeight : read.imageHeight = decInfo.imageHeight
  numComponents : read.numComponents = decInfo.numComponents
  restartInterval : read.restartInterval = decInfo.restartInterval
  compInfo : read.compInfo = decInfo.compInfo
  quantTbl : read.quantTbl = decInfo.quantTbl
  dcHuffTbl : read.dcHuffTbl = decInfo.dcHuffTbl
  acHuffTbl : read.acHuffTbl = decInfo.acHuffTbl

/-- Some copy of the writer has nothing to copy. -/
def StepFails (decInfo : CodecJpegDecInfo) (mem : Option (List Byte)) : Prop :=
  ¬decInfo.Filled ∨ mem.getD [] = []

/-- Whatever the buffer held before: a failed step makes the answer negative; otherwise the answer
is the exact length, and the picture and its compressed bytes are read back. -/
def RoundTrips (errors : CopyErrors) (decInfo : CodecJpegDecInfo) (mem : Option (List Byte)) :
    Prop :=
  ∀ buffer,
    (StepFails decInfo mem → (jpegAssemble errors decInfo buffer mem).2 < 0) ∧
      (¬StepFails decInfo mem →
        (jpegAssemble errors decInfo buffer mem).2 = jpegLength decInfo (mem.getD []) ∧
          ∃ fuel reading,
            dessambleJpeg errors (jpegAssemble errors decInfo buffer mem).1 fuel
                (jpegAssemble errors decInfo buffer mem).2 = some (true, reading) ∧
              reading.compressBuffer = mem ∧ SamePicture reading.decInfo decInfo)

/-- Nothing to write at all, or a picture whose tables, components and compressed bytes all
survive. -/
def Survives (decInfo : CodecJpegDecInfo) (mem : Option (List Byte)) : Prop :=
  mem.getD [] = [] ∨
    (decInfo.Filled ∧ decInfo.numComponents < 256 ∧ (∀ info ∈ decInfo.compInfo, info.Fits) ∧
      trailing (mem.getD []) % 2 = 0)

theorem samePicture_readBack_iff (wellFormed : decInfo.WellFormed) :
    SamePicture decInfo.readBack decInfo ↔ ∀ info ∈ decInfo.compInfo, info.Fits := by
  have components : decInfo.compInfo.map CodecJpegCompInfo.readBack = decInfo.compInfo ↔
      ∀ info ∈ decInfo.compInfo, info.Fits := by
    have each := List.map_inj_left (f := CodecJpegCompInfo.readBack) (g := id)
      (l := decInfo.compInfo)
    rw [List.map_id] at each
    rw [each]
    exact forall₂_congr fun info member =>
      readBack_eq_iff (wellFormed.factors info member) (wellFormed.tableNumbers info member)
  constructor
  · intro same
    exact components.mp same.compInfo
  · intro fits
    exact { imageWidth := rfl, imageHeight := rfl, numComponents := rfl, restartInterval := rfl
            compInfo := components.mpr fits, quantTbl := rfl, dcHuffTbl := rfl, acHuffTbl := rfl }

/-- What is read back of a written picture. -/
theorem reads_jpegBytes_iff (errors : CopyErrors) (wellFormed : decInfo.WellFormed)
    (nonempty : data ≠ []) (free : NoEoi data)
    (stands : Stands m bufferEnd 0 (jpegBytes decInfo data)) :
    (∃ reading, Reads errors m bufferEnd ⟨0, .blank, none⟩ (true, reading) ∧
        reading.compressBuffer = some data ∧ SamePicture reading.decInfo decInfo) ↔
      decInfo.numComponents < 256 ∧ (∀ info ∈ decInfo.compInfo, info.Fits) ∧
        trailing data % 2 = 0 := by
  constructor
  · rintro ⟨reading, reads, same, picture⟩
    have few : decInfo.numComponents < 256 := by
      rw [← picture.numComponents]
      exact reads.numComponents (by decide)
    obtain ⟨pos, scan, headers⟩ := reads_headers errors wellFormed few stands
    have later := (headers _).mp reads
    rcases Nat.mod_two_eq_zero_or_one (trailing data) with even | odd
    · have whole := reads_scan_of_even errors wellFormed few nonempty free even scan
      obtain rfl := congrArg (fun answer : Bool × Reading => answer.2) (later.unique whole)
      exact ⟨few, (samePicture_readBack_iff wellFormed).mp picture, even⟩
    · exact absurd same (reads_scan_of_odd wellFormed few free odd scan later)
  · rintro ⟨few, fits, even⟩
    obtain ⟨pos, scan, headers⟩ := reads_headers errors wellFormed few stands
    have whole := reads_scan_of_even errors wellFormed few nonempty free even scan
    exact ⟨_, (headers _).mpr whole, rfl, (samePicture_readBack_iff wellFormed).mpr fits⟩

/-- With every table filled, the picture is read back exactly where the rest of it survives. -/
theorem roundTrips_some_iff (errors : CopyErrors) (wellFormed : decInfo.WellFormed)
    (filled : decInfo.Filled) (nonempty : data ≠ []) (free : NoEoi data) :
    RoundTrips errors decInfo (some data) ↔
      decInfo.numComponents < 256 ∧ (∀ info ∈ decInfo.compInfo, info.Fits) ∧
        trailing data % 2 = 0 := by
  have whole : ¬StepFails decInfo (some data) := by
    rintro (empty | empty)
    · exact empty filled
    · exact nonempty empty
  have stands (buffer : Buffer) : Stands (emit buffer 0 (jpegBytes decInfo data))
      (jpegBytes decInfo data).length 0 (jpegBytes decInfo data) :=
    ⟨holds_emit buffer 0 _, Int.zero_add _⟩
  have back (buffer : Buffer) := reads_jpegBytes_iff errors wellFormed nonempty free (stands buffer)
  have written (buffer : Buffer) : jpegAssemble errors decInfo buffer (some data) = _ :=
    jpegAssemble_eq wellFormed.set filled nonempty buffer
  constructor
  · intro trips
    obtain ⟨-, fuel, reading, read, same⟩ := (trips fun _ => 0).2 whole
    rw [written] at read
    exact (back _).mp ⟨reading, ⟨fuel, read⟩, same⟩
  · intro survives buffer
    refine ⟨fun fails => absurd fails whole, fun _ => ?_⟩
    obtain ⟨reading, ⟨fuel, read⟩, same⟩ := (back buffer).mpr survives
    rw [written]
    exact ⟨congrArg _ (length_jpegBytes wellFormed data), fuel, reading, read, same⟩

/-- The error numbers of the secure copy. -/
def secureErrors : CopyErrors :=
  { range := 34, null := 22, reset := fun buffer _ => buffer
    range_pos := by decide, null_pos := by decide }

/-- One component, one quantisation table and two Huffman tables with one value each. -/
def greyPicture : CodecJpegDecInfo :=
  { imageWidth := 16, imageHeight := 8, dataPrecision := 8, numComponents := 1, restartInterval := 4
    compInfo := [{ infoFlag := true, componentId := 1, hSampFactor := 2, vSampFactor := 1
                   quantTableNo := 0, dcTableNo := 1, acTableNo := 9 }]
    quantTbl := [{ quantVal := List.replicate 32 0x1234, tableFlag := true }]
    dcHuffTbl := [{ bits := 1 :: List.replicate 15 0, huffVal := [7], tableFlag := true }]
    acHuffTbl := [{ bits := List.replicate 15 0 ++ [1], huffVal := [0xff], tableFlag := true }] }

theorem greyPicture_wellFormed : greyPicture.WellFormed where
  set := ⟨by decide, by decide, by decide⟩
  quantFew := by decide
  quantSized := by simp [greyPicture, CodecJpegQuantTable.Sized]
  dcFew := by decide
  dcCounted := by simp [greyPicture, CodecJpegHuffTable.Counted]
  acFew := by decide
  acCounted := by simp [greyPicture, CodecJpegHuffTable.Counted]
  count := rfl
  factors := by decide
  tableNumbers := by decide
  width := by decide
  height := by decide
  interval := by decide

/-- A picture with a Huffman table of no values. -/
def emptyTablePicture : CodecJpegDecInfo :=
  { greyPicture with
    dcHuffTbl := [{ bits := List.replicate 16 0, huffVal := [], tableFlag := true }] }

end RockchipSoc.Jpeg
