import RockchipSoc.Jpeg.Segments

/-!
# Reading what was written

Each reader finds in the bytes of a segment what its writer put there.  Only the bytes of a
component do not keep everything: a number is cut to its byte, the upper sampling factor is read
with the sign of its byte, and the mark of a component is set.
-/

namespace RockchipSoc.Jpeg

open Emit

variable {m : Buffer} {pos : ℤ} {decInfo : CodecJpegDecInfo}

/-! ## Bytes and values -/

@[simp] theorem length_int16Bytes (value : BitVec 16) : (int16Bytes value).length = 2 := rfl

theorem holds_int16 {value : BitVec 16} {rest : List Byte} :
    Holds m pos (int16Bytes value ++ rest) → getInt16 m pos = value ∧ Holds m (pos + 2) rest := by
  intro holds
  rw [int16Bytes, List.cons_append, holds_cons, List.cons_append, holds_cons] at holds
  obtain ⟨high, low, behind⟩ := holds
  constructor
  · rw [getInt16, high, low]
    exact BitVec.extractLsb'_append_extractLsb'
  · rw [Int.add_assoc] at behind
    exact behind

/-- The class that stands above the number of a table. -/
theorem tableByte_ushiftRight {tableClass : Byte} (small : tableClass = 0 ∨ tableClass = 1)
    {i : Nat} (few : i < 16) : tableByte tableClass i >>> 4 = tableClass := by
  have table : ∀ i : Fin 16, tableByte 0 i >>> 4 = 0 ∧ tableByte 1 i >>> 4 = 1 := by decide
  rcases small with rfl | rfl
  · exact (table ⟨i, few⟩).1
  · exact (table ⟨i, few⟩).2

/-! ## Segments of tables -/

section Tables

variable {τ : Type} {bytes : Nat → τ → List Byte} {tables : List τ}

theorem length_tablesBytes_le {bound : Nat}
    (bounded : ∀ table ∈ tables, ∀ i, (bytes i table).length ≤ bound) (i : Nat) :
    (tablesBytes bytes i tables).length ≤ tables.length * bound := by
  induction tables generalizing i with
  | nil => simp [tablesBytes]
  | cons table tables ih =>
      have first := bounded table List.mem_cons_self i
      have rest := ih (fun other member => bounded other (List.mem_cons_of_mem _ member)) (i + 1)
      rw [tablesBytes, List.length_append, List.length_cons, Nat.succ_mul]
      omega

theorem le_length_tablesBytes (nonempty : ∀ table i, 0 < (bytes i table).length) (i : Nat) :
    tables.length ≤ (tablesBytes bytes i tables).length := by
  induction tables generalizing i with
  | nil => simp [tablesBytes]
  | cons table tables ih =>
      have first := nonempty table i
      have rest := ih (i + 1)
      rw [tablesBytes, List.length_append, List.length_cons]
      omega

end Tables

theorem length_segmentBytes (marker : BitVec 16) (cells : List Byte) :
    (segmentBytes marker cells).length = cells.length + 4 := by
  simp only [segmentBytes, List.length_append, int16Bytes, List.length_cons, List.length_nil]
  omega

/-- The length of a segment is read as it was written where it fits into its sixteen bits. -/
theorem holds_segmentBytes {marker : BitVec 16} {cells : List Byte}
    (small : cells.length + 2 < 65536) (holds : Holds m pos (segmentBytes marker cells)) :
    findMarker m pos = marker ∧ (getInt16 m (pos + 2)).toNat = cells.length + 2 ∧
      Holds m (pos + 2 + 2) cells := by
  obtain ⟨found, behind⟩ := holds_int16 holds
  obtain ⟨len, tables⟩ := holds_int16 behind
  rw [len, BitVec.toNat_ofNat, Nat.mod_eq_of_lt small]
  exact ⟨found, rfl, tables⟩

/-- The end of a segment, by the length that it gives and by the bytes behind the length. -/
theorem segmentEnd (pos : ℤ) (count : Nat) : pos + (count + 2 : Nat) = pos + 2 + count := by
  push_cast
  omega

/-! ## Quantisation tables -/

theorem getQuantVals_of_holds {values : List (BitVec 16)} {rest : List Byte}
    (holds : Holds m pos (values.flatMap int16Bytes ++ rest)) :
    getQuantVals m values.length pos = values ∧ Holds m (pos + 2 * values.length) rest := by
  induction values generalizing pos with
  | nil => simpa [getQuantVals] using holds
  | cons value values ih =>
      rw [List.flatMap_cons, List.append_assoc] at holds
      obtain ⟨first, behind⟩ := holds_int16 holds
      obtain ⟨others, last⟩ := ih behind
      have address : pos + 2 + 2 * (values.length : ℤ) = pos + 2 * (value :: values).length := by
        rw [List.length_cons]
        push_cast
        omega
      rw [address] at last
      rw [List.length_cons, getQuantVals, first, others]
      exact ⟨rfl, by simpa using last⟩

/-- The sizes that a quantisation table can have. -/
def CodecJpegQuantTable.Sized (table : CodecJpegQuantTable) : Prop :=
  table.quantVal.length = 32 ∨ table.quantVal.length = 64

theorem quantEntries_tableByte {table : CodecJpegQuantTable} (sized : table.Sized) {i : Nat}
    (few : i < 16) : quantEntries (tableByte (quantPrecision table) i) = table.quantVal.length := by
  rw [quantEntries, quantPrecision]
  rcases sized with length | length
  · have precision : (if 32 = 64 then 1 else 0 : Byte) = 0 := by decide
    rw [length, precision, tableByte_ushiftRight (.inl rfl) few, if_neg (by decide)]
  · rw [length, if_pos rfl, tableByte_ushiftRight (.inr rfl) few, if_pos rfl]

theorem length_flatMap_int16Bytes (values : List (BitVec 16)) :
    (values.flatMap int16Bytes).length = 2 * values.length := by
  induction values with
  | nil => rfl
  | cons value values ih =>
      rw [List.flatMap_cons, List.length_append, ih, List.length_cons]
      simp only [int16Bytes, List.length_cons, List.length_nil]
      omega

theorem length_quantTableBytes (i : Nat) (table : CodecJpegQuantTable) :
    (quantTableBytes i table).length = 1 + 2 * table.quantVal.length := by
  rw [quantTableBytes, List.length_cons, length_flatMap_int16Bytes]
  omega

/-- The tables of a segment are found up to its end. -/
theorem getQuantTables_of_holds {tables : List CodecJpegQuantTable} {i fuel : Nat}
    (set : ∀ table ∈ tables, table.tableFlag = true) (sized : ∀ table ∈ tables, table.Sized)
    (few : i + tables.length ≤ 16) (enough : tables.length ≤ fuel)
    (holds : Holds m pos (tablesBytes quantTableBytes i tables)) :
    getQuantTables m (pos + (tablesBytes quantTableBytes i tables).length) fuel pos = tables := by
  induction tables generalizing pos i fuel with
  | nil => cases fuel <;> simp [getQuantTables, tablesBytes]
  | cons table tables ih =>
      rw [List.length_cons] at few enough
      obtain ⟨fuel, rfl⟩ : ∃ rest, fuel = rest + 1 := ⟨fuel - 1, by omega⟩
      have within : pos < pos + (tablesBytes quantTableBytes i (table :: tables)).length := by
        rw [tablesBytes, List.length_append, length_quantTableBytes]
        push_cast
        omega
      rw [tablesBytes, quantTableBytes, List.cons_append, holds_cons] at holds
      obtain ⟨first, behind⟩ := holds
      obtain ⟨values, others⟩ := getQuantVals_of_holds behind
      have entries := quantEntries_tableByte (sized table List.mem_cons_self)
        (show i < 16 by omega)
      have flag := set table List.mem_cons_self
      have rest := ih (fun other member => set other (List.mem_cons_of_mem _ member))
        (fun other member => sized other (List.mem_cons_of_mem _ member))
        (show i + 1 + tables.length ≤ 16 by omega) (show tables.length ≤ fuel by omega) others
      have segmentEnd : pos + 1 + 2 * (table.quantVal.length : ℤ) +
          (tablesBytes quantTableBytes (i + 1) tables).length =
            pos + (tablesBytes quantTableBytes i (table :: tables)).length := by
        rw [tablesBytes, List.length_append, length_quantTableBytes]
        push_cast
        omega
      rw [segmentEnd] at rest
      rw [getQuantTables, if_pos within]
      simp only [getInt8, first, entries, values, rest]
      rw [← flag]

/-- The segment of the quantisation tables is read back behind its marker. -/
theorem dessambleDqt_of_holds (set : ∀ table ∈ decInfo.quantTbl, table.tableFlag = true)
    (sized : ∀ table ∈ decInfo.quantTbl, table.Sized) (few : decInfo.quantTbl.length ≤ 4)
    (holds : Holds m pos (dqtBytes decInfo)) (before : CodecJpegDecInfo) :
    findMarker m pos = JpegMarker.dqt ∧
      dessambleDqt m (pos + 2) before =
        ((dqtBytes decInfo).length - 2,
          { before with quantTbl := before.quantTbl ++ decInfo.quantTbl }) := by
  have bound : ∀ table ∈ decInfo.quantTbl, ∀ i, (quantTableBytes i table).length ≤ 129 := by
    intro table member i
    rw [length_quantTableBytes]
    rcases sized table member with length | length <;> omega
  have small := length_tablesBytes_le bound 0
  have nonempty (table : CodecJpegQuantTable) (i : Nat) : 0 < (quantTableBytes i table).length :=
    Nat.succ_pos _
  have many : decInfo.quantTbl.length ≤ (tablesBytes quantTableBytes 0 decInfo.quantTbl).length :=
    le_length_tablesBytes nonempty 0
  have enough := Nat.le_add_right_of_le (k := 2) many
  obtain ⟨marker, len, tables⟩ := holds_segmentBytes (by omega) holds
  have found := getQuantTables_of_holds set sized
    (show 0 + decInfo.quantTbl.length ≤ 16 by omega) enough tables
  refine ⟨marker, ?_⟩
  rw [dessambleDqt, len, segmentEnd, found, dqtBytes, length_segmentBytes]
  rfl

/-! ## Huffman tables -/

/-- The counts of a table are one byte for each length, and their sum is the number of values. -/
def CodecJpegHuffTable.Counted (table : CodecJpegHuffTable) : Prop :=
  table.bits.length = 16 ∧ (table.bits.map BitVec.toNat).sum = table.huffVal.length

/-- The tables put behind those of their class. -/
def CodecJpegDecInfo.withHuff (decInfo : CodecJpegDecInfo) (dc : Bool)
    (tables : List CodecJpegHuffTable) : CodecJpegDecInfo :=
  if dc then { decInfo with dcHuffTbl := decInfo.dcHuffTbl ++ tables }
  else { decInfo with acHuffTbl := decInfo.acHuffTbl ++ tables }

theorem CodecJpegDecInfo.withHuff_withHuff (decInfo : CodecJpegDecInfo) (dc : Bool)
    (front rest : List CodecJpegHuffTable) :
    (decInfo.withHuff dc front).withHuff dc rest = decInfo.withHuff dc (front ++ rest) := by
  cases dc <;> simp [withHuff]

theorem CodecJpegDecInfo.withHuff_nil (decInfo : CodecJpegDecInfo) (dc : Bool) :
    decInfo.withHuff dc [] = decInfo := by
  cases dc <;> simp [withHuff]

theorem length_huffTableBytes (dc : Bool) (i : Nat) (table : CodecJpegHuffTable) :
    (huffTableBytes dc i table).length = 1 + table.bits.length + table.huffVal.length := by
  rw [huffTableBytes, List.length_cons, List.length_append]
  omega

/-- A table is read back behind its first byte. -/
theorem getHuffTable_of_holds {table : CodecJpegHuffTable} {rest : List Byte}
    (set : table.tableFlag = true) (counted : table.Counted)
    (holds : Holds m pos (table.bits ++ (table.huffVal ++ rest))) :
    getHuffTable m pos = table ∧ Holds m (pos + 16 + table.huffVal.length) rest := by
  obtain ⟨length, sum⟩ := counted
  obtain ⟨bits, behind⟩ := holds_append.mp holds
  rw [length] at behind
  obtain ⟨values, last⟩ := holds_append.mp behind
  have readBits := bits.cellsAt
  have readValues := values.cellsAt
  rw [length] at readBits
  simp only [getHuffTable, readBits, sum]
  exact ⟨by rw [← set]; exact congrArg (CodecJpegHuffTable.mk _ · _) readValues, last⟩

/-- The tables of a segment are found up to its end, all of the class that stands before them. -/
theorem getHuffTables_of_holds {dc : Bool} {tables : List CodecJpegHuffTable} {i fuel : Nat}
    (set : ∀ table ∈ tables, table.tableFlag = true) (counted : ∀ table ∈ tables, table.Counted)
    (few : i + tables.length ≤ 16) (enough : tables.length ≤ fuel)
    (holds : Holds m pos (tablesBytes (huffTableBytes dc) i tables)) (before : CodecJpegDecInfo) :
    getHuffTables m (pos + (tablesBytes (huffTableBytes dc) i tables).length) fuel pos before =
      before.withHuff dc tables := by
  induction tables generalizing pos i fuel before with
  | nil =>
      rw [before.withHuff_nil]
      cases fuel <;> simp [getHuffTables, tablesBytes]
  | cons table tables ih =>
      rw [List.length_cons] at few enough
      obtain ⟨fuel, rfl⟩ : ∃ rest, fuel = rest + 1 := ⟨fuel - 1, by omega⟩
      have within : pos < pos + (tablesBytes (huffTableBytes dc) i (table :: tables)).length := by
        rw [tablesBytes, List.length_append, length_huffTableBytes]
        push_cast
        omega
      rw [tablesBytes, huffTableBytes, List.cons_append, List.append_assoc, holds_cons] at holds
      obtain ⟨first, behind⟩ := holds
      have isCounted := counted table List.mem_cons_self
      obtain ⟨read, others⟩ := getHuffTable_of_holds (set table List.mem_cons_self) isCounted behind
      have rest := ih (fun other member => set other (List.mem_cons_of_mem _ member))
        (fun other member => counted other (List.mem_cons_of_mem _ member))
        (show i + 1 + tables.length ≤ 16 by omega) (show tables.length ≤ fuel by omega) others
        (before.withHuff dc [table])
      have start : pos + 17 + (table.huffVal.length : ℤ) =
          pos + 1 + 16 + table.huffVal.length := by omega
      have segmentEnd : pos + 1 + 16 + (table.huffVal.length : ℤ) +
          (tablesBytes (huffTableBytes dc) (i + 1) tables).length =
            pos + (tablesBytes (huffTableBytes dc) i (table :: tables)).length := by
        rw [tablesBytes, List.length_append, length_huffTableBytes, isCounted.1]
        push_cast
        omega
      have tableClass : tableByte (huffClass dc) i >>> 4 = huffClass dc :=
        tableByte_ushiftRight (by cases dc <;> simp [huffClass]) (by omega)
      rw [segmentEnd, before.withHuff_withHuff] at rest
      rw [getHuffTables, if_pos within]
      simp only [getInt8, first, read, tableClass, start]
      refine Eq.trans ?_ rest
      cases dc <;> rfl

theorem sum_toNat_le (bits : List Byte) : (bits.map BitVec.toNat).sum ≤ 255 * bits.length := by
  induction bits with
  | nil => exact le_refl 0
  | cons count bits ih =>
      have byte := count.isLt
      rw [List.map_cons, List.sum_cons, List.length_cons]
      omega

/-- A segment of Huffman tables is read back behind its marker. -/
theorem dessambleDht_of_holds {dc : Bool} {tables : List CodecJpegHuffTable}
    (set : ∀ table ∈ tables, table.tableFlag = true) (counted : ∀ table ∈ tables, table.Counted)
    (few : tables.length ≤ 4) (holds : Holds m pos (dhtBytes dc tables))
    (before : CodecJpegDecInfo) :
    findMarker m pos = JpegMarker.dht ∧
      dessambleDht m (pos + 2) before =
        ((dhtBytes dc tables).length - 2, before.withHuff dc tables) := by
  have bound : ∀ table ∈ tables, ∀ i, (huffTableBytes dc i table).length ≤ 4097 := by
    intro table member i
    obtain ⟨length, sum⟩ := counted table member
    have values := sum_toNat_le table.bits
    rw [length_huffTableBytes]
    omega
  have small := length_tablesBytes_le bound 0
  have nonempty (table : CodecJpegHuffTable) (i : Nat) : 0 < (huffTableBytes dc i table).length :=
    Nat.succ_pos _
  have many : tables.length ≤ (tablesBytes (huffTableBytes dc) 0 tables).length :=
    le_length_tablesBytes nonempty 0
  have enough := Nat.le_add_right_of_le (k := 2) many
  obtain ⟨marker, len, written⟩ := holds_segmentBytes (by omega) holds
  have found := getHuffTables_of_holds set counted
    (show 0 + tables.length ≤ 16 by omega) enough written before
  refine ⟨marker, ?_⟩
  rw [dessambleDht, len, segmentEnd, found, dhtBytes, length_segmentBytes]
  rfl

/-! ## Components -/

theorem toNat_ofNat_of_lt {width n : Nat} (small : n < 2 ^ width) :
    (BitVec.ofNat width n).toNat = n := by
  rw [BitVec.toNat_ofNat, Nat.mod_eq_of_lt small]

theorem length_flatten_map {bytes : CodecJpegCompInfo → List Byte} {width : Nat}
    (const : ∀ info, (bytes info).length = width) (infos : List CodecJpegCompInfo) :
    (infos.map bytes).flatten.length = width * infos.length := by
  induction infos with
  | nil => rfl
  | cons info infos ih =>
      rw [List.map_cons, List.flatten_cons, List.length_append, const, ih, List.length_cons,
        Nat.mul_succ, Nat.add_comm]

/-- What the frame header keeps of a component. -/
def CodecJpegCompInfo.sofRead (info : CodecJpegCompInfo) : CodecJpegCompInfo :=
  { infoFlag := true
    componentId := (BitVec.ofNat 8 info.componentId).toNat
    hSampFactor := ((sampFactor info).sshiftRight 4).toNat
    vSampFactor := (sampFactor info &&& 0x0F).toNat
    quantTableNo := (BitVec.ofNat 8 info.quantTableNo).toNat
    dcTableNo := 0
    acTableNo := 0 }

/-- What both headers keep of a component. -/
def CodecJpegCompInfo.readBack (info : CodecJpegCompInfo) : CodecJpegCompInfo :=
  { info.sofRead with
    dcTableNo := (indexNo info >>> 4).toNat
    acTableNo := (indexNo info &&& 0x0F).toNat }

theorem getSofComponents_of_holds {infos : List CodecJpegCompInfo}
    (holds : Holds m pos (infos.map sofBytes).flatten) :
    getSofComponents m infos.length pos = infos.map CodecJpegCompInfo.sofRead := by
  induction infos generalizing pos with
  | nil => rfl
  | cons info infos ih =>
      rw [List.map_cons, List.flatten_cons, sofBytes, List.cons_append, holds_cons,
        List.cons_append, holds_cons, List.cons_append, holds_cons] at holds
      obtain ⟨componentId, factors, quantTable, behind⟩ := holds
      have second : pos + 1 + 1 = pos + 2 := Int.add_assoc pos 1 1
      have third : pos + 2 + 1 = pos + 3 := Int.add_assoc pos 2 1
      rw [second] at quantTable behind
      rw [third] at behind
      rw [List.length_cons, getSofComponents, ih behind, List.map_cons]
      simp only [getInt8, componentId, factors, quantTable]
      rfl

theorem length_sofSegmentBytes (decInfo : CodecJpegDecInfo) :
    (sofSegmentBytes decInfo).length = 10 + 3 * decInfo.compInfo.length := by
  have components := length_flatten_map (fun info => show (sofBytes info).length = 3 from rfl)
    decInfo.compInfo
  simp only [sofSegmentBytes, List.flatten_append, List.length_append, components,
    List.flatten_cons, List.flatten_nil, length_int16Bytes, List.length_cons, List.length_nil]

/-- What the reader of the frame header makes of the description before it. -/
def CodecJpegDecInfo.withFrame (before decInfo : CodecJpegDecInfo) : CodecJpegDecInfo :=
  { before with
    dataPrecision := (BitVec.ofNat 8 decInfo.dataPrecision).toNat
    imageHeight := decInfo.imageHeight
    imageWidth := decInfo.imageWidth
    numComponents := decInfo.numComponents
    compInfo := before.compInfo ++ decInfo.compInfo.map CodecJpegCompInfo.sofRead }

/-- The frame header is read back where the number of components fits into its byte. -/
theorem dessambleSof_of_holds (count : decInfo.numComponents = decInfo.compInfo.length)
    (few : decInfo.numComponents < 256) (height : decInfo.imageHeight < 65536)
    (width : decInfo.imageWidth < 65536) (holds : Holds m pos (sofSegmentBytes decInfo))
    (before : CodecJpegDecInfo) :
    findMarker m pos = JpegMarker.sof0 ∧
      dessambleSof m (pos + 2) before =
        ((sofSegmentBytes decInfo).length - 2, before.withFrame decInfo) := by
  simp only [sofSegmentBytes, List.cons_append, List.nil_append, List.flatten_cons] at holds
  obtain ⟨marker, behind⟩ := holds_int16 holds
  obtain ⟨len, behind⟩ := holds_int16 behind
  obtain ⟨precision, behind⟩ := holds_cons.mp behind
  obtain ⟨imageHeight, behind⟩ := holds_int16 behind
  obtain ⟨imageWidth, behind⟩ := holds_int16 behind
  obtain ⟨components, behind⟩ := holds_cons.mp behind
  have at4 : pos + 2 + 2 + 1 = pos + 2 + 3 := by omega
  have at7 : pos + 2 + 3 + 2 = pos + 2 + 5 := by omega
  have at9 : pos + 2 + 5 + 2 = pos + 2 + 7 := by omega
  have at10 : pos + 2 + 7 + 1 = pos + 2 + 8 := by omega
  rw [at4] at imageHeight imageWidth components behind
  rw [at7] at imageWidth components behind
  rw [at9] at components behind
  rw [at10] at behind
  have infos := getSofComponents_of_holds behind
  refine ⟨marker, ?_⟩
  have lenFits : decInfo.numComponents * 3 + 8 < 2 ^ 16 := by omega
  have heightFits : decInfo.imageHeight < 2 ^ 16 := height
  have widthFits : decInfo.imageWidth < 2 ^ 16 := width
  have countFits : decInfo.numComponents < 2 ^ 8 := few
  have size : (sofSegmentBytes decInfo).length - 2 = decInfo.numComponents * 3 + 8 := by
    rw [length_sofSegmentBytes]
    omega
  simp only [dessambleSof, len, getInt8, precision, imageHeight, imageWidth, components,
    toNat_ofNat_of_lt heightFits, toNat_ofNat_of_lt widthFits, toNat_ofNat_of_lt countFits,
    toNat_ofNat_of_lt lenFits, size]
  rw [CodecJpegDecInfo.withFrame, count, infos]

theorem length_sosSegmentBytes (decInfo : CodecJpegDecInfo) :
    (sosSegmentBytes decInfo).length = 8 + 2 * decInfo.compInfo.length := by
  have components := length_flatten_map
    (fun info => length_int16Bytes (sosValue info)) decInfo.compInfo
  simp only [sosSegmentBytes, List.flatten_append, List.length_append, components,
    List.flatten_cons, List.flatten_nil, length_int16Bytes, List.length_cons, List.length_nil]
  omega

/-- The lower byte of a scan value holds the table numbers, whatever sign the upper one took. -/
theorem extractLsb'_sosValue (info : CodecJpegCompInfo) :
    (sosValue info).extractLsb' 0 8 = indexNo info := by
  apply BitVec.eq_of_getLsbD_eq
  intro k small
  simp [sosValue, BitVec.getLsbD_signExtend, small]
  omega

theorem getSosComponents_of_holds {infos : List CodecJpegCompInfo} {rest : List Byte}
    (holds : Holds m pos ((infos.map fun info => int16Bytes (sosValue info)).flatten ++ rest)) :
    getSosComponents m infos.length pos (infos.map CodecJpegCompInfo.sofRead) =
      some (infos.map CodecJpegCompInfo.readBack) := by
  induction infos generalizing pos with
  | nil => rfl
  | cons info infos ih =>
      rw [List.map_cons, List.flatten_cons, List.append_assoc, int16Bytes, List.cons_append,
        holds_cons, List.cons_append, holds_cons, extractLsb'_sosValue] at holds
      obtain ⟨-, tableNumbers, behind⟩ := holds
      have second : pos + 1 + 1 = pos + 2 := Int.add_assoc pos 1 1
      rw [second] at behind
      rw [List.length_cons, List.map_cons, getSosComponents, ih behind, Option.map_some,
        List.map_cons]
      simp only [getInt8, tableNumbers]
      rfl

/-- The scan header is read back into the components that the frame header has left. -/
theorem dessambleSos_of_holds (count : decInfo.numComponents = decInfo.compInfo.length)
    (few : decInfo.numComponents < 256) (holds : Holds m pos (sosSegmentBytes decInfo))
    {before : CodecJpegDecInfo}
    (components : before.compInfo = decInfo.compInfo.map CodecJpegCompInfo.sofRead) :
    findMarker m pos = JpegMarker.sos ∧
      dessambleSos m (pos + 2) before =
        some ((sosSegmentBytes decInfo).length - 2,
          { before with compInfo := decInfo.compInfo.map CodecJpegCompInfo.readBack }) := by
  simp only [sosSegmentBytes, List.cons_append, List.nil_append, List.flatten_cons,
    List.flatten_append] at holds
  obtain ⟨marker, behind⟩ := holds_int16 holds
  obtain ⟨len, behind⟩ := holds_int16 behind
  obtain ⟨number, behind⟩ := holds_cons.mp behind
  have at5 : pos + 2 + 2 + 1 = pos + 2 + 3 := by omega
  rw [at5] at behind
  have infos := getSosComponents_of_holds behind
  refine ⟨marker, ?_⟩
  have lenFits : decInfo.numComponents * 2 + 6 < 2 ^ 16 := by omega
  have countFits : decInfo.numComponents < 2 ^ 8 := few
  have size : (sosSegmentBytes decInfo).length - 2 = decInfo.numComponents * 2 + 6 := by
    rw [length_sosSegmentBytes]
    omega
  simp only [dessambleSos, len, getInt8, number, components, toNat_ofNat_of_lt countFits,
    toNat_ofNat_of_lt lenFits, size]
  rw [count, infos]
  rfl

end RockchipSoc.Jpeg
