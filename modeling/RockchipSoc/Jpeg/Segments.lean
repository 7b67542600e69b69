import RockchipSoc.Jpeg.CodecJpegHelper

/-!
# The bytes of a picture

What each segment writes, as a sequence of bytes.  A copy of no bytes is refused with a positive
code; such a code is taken for a position, so that only the segment of the compressed bytes can
make the writer fail.
-/

namespace RockchipSoc.Jpeg

open Emit

variable (errors : CopyErrors)

/-! ## Copies -/

variable {errors}

theorem copyBytes_emits {bytes : List Byte} (nonempty : bytes ≠ []) (failure : ℤ → ℤ) :
    Part.Emits (copyBytes errors (some bytes) failure) bytes := by
  intro m pos _
  cases bytes with
  | nil => exact absurd rfl nonempty
  | cons byte bytes => simp [copyBytes, memcpyS]

theorem memcpyS_nonneg (buffer : Buffer) (dest : ℤ) (bytes : Option (List Byte)) :
    0 ≤ (memcpyS errors buffer dest bytes).2 := by
  match bytes with
  | none => exact errors.null_pos.le
  | some [] => exact errors.range_pos.le
  | some (_ :: _) => exact le_refl 0

/-- A refused copy whose code is returned does not stop the writer. -/
theorem copyBytes_advances (bytes : Option (List Byte)) :
    Part.Advances (copyBytes errors bytes id) := by
  intro m pos nonneg
  by_cases refused : (memcpyS errors m pos bytes).2 ≠ 0
  · simp only [Part.body, copyBytes, if_pos refused]
    exact memcpyS_nonneg m pos bytes
  · simp only [Part.body, copyBytes, if_neg refused]
    exact Int.add_nonneg nonneg (Int.natCast_nonneg _)

theorem putInt16_emits (errors : CopyErrors) (value : BitVec 16) :
    Writer.Emits (putInt16 errors value) (int16Bytes value) :=
  (copyBytes_emits (List.cons_ne_nil _ _) _).body

theorem putInt8_emits (errors : CopyErrors) (value : Byte) :
    Writer.Emits (putInt8 errors value) [value] :=
  (copyBytes_emits (List.cons_ne_nil _ _) _).body

/-! ## Segments of tables -/

/-- A segment of tables: marker, length and tables. -/
def segmentBytes (marker : BitVec 16) (cells : List Byte) : List Byte :=
  int16Bytes marker ++ (int16Bytes (BitVec.ofNat 16 (cells.length + 2)) ++ cells)

/-- The length is written last, into the gap that was left for it. -/
theorem tablesSegment_emits {tables : Emit.Part Byte} {cells : List Byte}
    (emits : Part.Emits tables cells) (marker : BitVec 16) :
    Writer.Emits (tablesSegment errors marker tables) (segmentBytes marker cells) := by
  intro m pos nonneg
  have marked := putInt16_emits errors marker m pos nonneg
  have width (value : BitVec 16) : ((int16Bytes value).length : ℤ) = 2 := rfl
  have lenPos : 0 ≤ pos + 2 := by omega
  have written := emits (emit m pos (int16Bytes marker)) (pos + 2 + 2) (by omega)
  have len : pos + 2 + 2 + (cells.length : ℤ) - (pos + 2) = (cells.length + 2 : Nat) := by
    push_cast
    omega
  have last := putInt16_emits errors
    (BitVec.ofInt 16 (pos + 2 + 2 + cells.length - (pos + 2)))
    (emit (emit m pos (int16Bytes marker)) (pos + 2 + 2) cells) (pos + 2) lenPos
  rw [width] at marked last
  have behind : ¬pos + 2 + 2 < 0 := by omega
  simp only [tablesSegment, marked, if_neg (not_lt.mpr lenPos), written, last, if_neg behind]
  have gap := emit_gap (emit m pos (int16Bytes marker)) (pos + 2)
    (int16Bytes (BitVec.ofNat 16 (cells.length + 2))) cells
  have total : ((segmentBytes marker cells).length : ℤ) = 2 + 2 + cells.length := by
    simp only [segmentBytes, List.length_append, int16Bytes, List.length_cons, List.length_nil]
    push_cast
    omega
  rw [width] at gap
  rw [len, BitVec.ofInt_natCast, gap]
  apply Prod.ext
  · exact (emit_append m pos (int16Bytes marker) _).symm
  · rw [total]
    omega

theorem tablesSegment_advances {tables : Emit.Part Byte} (advances : Part.Advances tables)
    (marker : BitVec 16) : Writer.Advances (tablesSegment errors marker tables) := by
  intro m pos nonneg
  have marked := (putInt16_emits errors marker).advances m pos nonneg
  have written := advances (putInt16 errors marker m pos).1 ((putInt16 errors marker m pos).2 + 2)
    (by omega)
  simp only [tablesSegment, if_neg (not_lt.mpr marked)]
  rw [Part.body] at written
  generalize tables (putInt16 errors marker m pos).1 ((putInt16 errors marker m pos).2 + 2) = answer
    at written
  obtain ⟨m', answer | pos'⟩ := answer
  · exact written
  · have last := (putInt16_emits errors
      (BitVec.ofInt 16 (pos' - (putInt16 errors marker m pos).2))).advances m' _ marked
    simp only [if_neg (not_lt.mpr last)]
    exact written

/-- The tables one behind the other, each with its number. -/
def tablesBytes {τ : Type} (bytes : Nat → τ → List Byte) : Nat → List τ → List Byte
  | _, [] => []
  | i, table :: tables => bytes i table ++ tablesBytes bytes (i + 1) tables

/-! ## Quantisation tables -/

def quantTableBytes (i : Nat) (table : CodecJpegQuantTable) : List Byte :=
  tableByte (quantPrecision table) i :: table.quantVal.flatMap int16Bytes

theorem putQuantVals_emits (values : List (BitVec 16)) :
    Part.Emits (putQuantVals errors values) (values.flatMap int16Bytes) := by
  induction values with
  | nil => exact Part.emits_done
  | cons value values ih =>
      intro m pos nonneg
      have put := putInt16_emits errors value m pos nonneg
      have behind : 0 ≤ pos + ((int16Bytes value).length : ℤ) :=
        Int.add_nonneg nonneg (Int.natCast_nonneg _)
      simp only [putQuantVals, put, ih _ _ behind, List.flatMap_cons, emit_append,
        List.length_append]
      push_cast
      rw [Int.add_assoc]

theorem putQuantTables_emits {tables : List CodecJpegQuantTable}
    (set : ∀ table ∈ tables, table.tableFlag = true) (i : Nat) :
    Part.Emits (putQuantTables errors i tables) (tablesBytes quantTableBytes i tables) := by
  induction tables generalizing i with
  | nil => exact Part.emits_done
  | cons table tables ih =>
      rw [putQuantTables, if_pos (set table List.mem_cons_self)]
      have rest := ih (fun other member => set other (List.mem_cons_of_mem _ member)) (i + 1)
      exact (Part.Emits.call (putInt8_emits _ _)).seq ((putQuantVals_emits _).seq rest)

/-! ## Huffman tables -/

def huffTableBytes (dc : Bool) (i : Nat) (table : CodecJpegHuffTable) : List Byte :=
  tableByte (huffClass dc) i :: (table.bits ++ table.huffVal)

theorem putHuffTables_emits {tables : List CodecJpegHuffTable} (dc : Bool)
    (set : ∀ table ∈ tables, table.tableFlag = true)
    (filled : ∀ table ∈ tables, table.bits ≠ [] ∧ table.huffVal ≠ []) (i : Nat) :
    Part.Emits (putHuffTables errors dc i tables) (tablesBytes (huffTableBytes dc) i tables) := by
  induction tables generalizing i with
  | nil => exact Part.emits_done
  | cons table tables ih =>
      rw [putHuffTables, if_pos (set table List.mem_cons_self)]
      have rest := ih (fun other member => set other (List.mem_cons_of_mem _ member))
        (fun other member => filled other (List.mem_cons_of_mem _ member)) (i + 1)
      obtain ⟨bits, values⟩ := filled table List.mem_cons_self
      rw [tablesBytes, huffTableBytes, List.cons_append, List.append_assoc]
      exact (Part.Emits.call (putInt8_emits _ _)).seq
        ((copyBytes_emits bits id).seq ((copyBytes_emits values id).seq rest))

theorem putHuffTables_advances (dc : Bool) (tables : List CodecJpegHuffTable) (i : Nat) :
    Part.Advances (putHuffTables errors dc i tables) := by
  induction tables generalizing i with
  | nil => exact Part.emits_done.advances
  | cons table tables ih =>
      rw [putHuffTables]
      split
      · exact (Part.Emits.call (putInt8_emits _ _)).advances.seq
          ((copyBytes_advances _).seq ((copyBytes_advances _).seq (ih (i + 1))))
      · exact Part.emits_done.advances

/-! ## The whole picture -/

def dqtBytes (decInfo : CodecJpegDecInfo) : List Byte :=
  segmentBytes JpegMarker.dqt (tablesBytes quantTableBytes 0 decInfo.quantTbl)

def dhtBytes (dc : Bool) (tables : List CodecJpegHuffTable) : List Byte :=
  segmentBytes JpegMarker.dht (tablesBytes (huffTableBytes dc) 0 tables)

/-- No segment is written for the restart interval zero. -/
def driBytes (decInfo : CodecJpegDecInfo) : List Byte :=
  if decInfo.restartInterval = 0 then []
  else
    [int16Bytes JpegMarker.dri, int16Bytes 4,
      int16Bytes (BitVec.ofNat 16 decInfo.restartInterval)].flatten

def sofSegmentBytes (decInfo : CodecJpegDecInfo) : List Byte :=
  ([int16Bytes JpegMarker.sof0, int16Bytes (BitVec.ofNat 16 (decInfo.numComponents * 3 + 8)),
      [BitVec.ofNat 8 decInfo.dataPrecision], int16Bytes (BitVec.ofNat 16 decInfo.imageHeight),
      int16Bytes (BitVec.ofNat 16 decInfo.imageWidth), [BitVec.ofNat 8 decInfo.numComponents]] ++
    decInfo.compInfo.map sofBytes).flatten

def sosSegmentBytes (decInfo : CodecJpegDecInfo) : List Byte :=
  ([int16Bytes JpegMarker.sos, int16Bytes (BitVec.ofNat 16 (decInfo.numComponents * 2 + 6)),
      [BitVec.ofNat 8 decInfo.numComponents]] ++
    (decInfo.compInfo.map fun info => int16Bytes (sosValue info)) ++ [[0x00, 0x3F, 0x00]]).flatten

/-- The segments of the picture with its compressed bytes. -/
def jpegBlocks (decInfo : CodecJpegDecInfo) (data : List Byte) : List (List Byte) :=
  [int16Bytes JpegMarker.soi, dqtBytes decInfo,
    [dhtBytes true decInfo.dcHuffTbl, dhtBytes false decInfo.acHuffTbl].flatten, driBytes decInfo,
    sofSegmentBytes decInfo, sosSegmentBytes decInfo, data, int16Bytes JpegMarker.eoi]

/-- The whole picture. -/
def jpegBytes (decInfo : CodecJpegDecInfo) (data : List Byte) : List Byte :=
  (jpegBlocks decInfo data).flatten

/-- Every table of the picture is marked as set. -/
structure CodecJpegDecInfo.TablesSet (decInfo : CodecJpegDecInfo) : Prop where
  quant : ∀ table ∈ decInfo.quantTbl, table.tableFlag = true
  dc : ∀ table ∈ decInfo.dcHuffTbl, table.tableFlag = true
  ac : ∀ table ∈ decInfo.acHuffTbl, table.tableFlag = true

/-- The table has counts and values. -/
def CodecJpegHuffTable.Filled (table : CodecJpegHuffTable) : Prop :=
  table.bits ≠ [] ∧ table.huffVal ≠ []

/-- Every Huffman table of the picture has counts and values. -/
def CodecJpegDecInfo.Filled (decInfo : CodecJpegDecInfo) : Prop :=
  (∀ table ∈ decInfo.dcHuffTbl, table.Filled) ∧ ∀ table ∈ decInfo.acHuffTbl, table.Filled

section Whole

variable {decInfo : CodecJpegDecInfo}

theorem jpegDqtAssemble_emits (set : decInfo.TablesSet) :
    Writer.Emits (jpegDqtAssemble errors decInfo) (dqtBytes decInfo) :=
  tablesSegment_emits (putQuantTables_emits set.quant 0) _

theorem jpegDhtAssemble_emits (set : decInfo.TablesSet) (filled : decInfo.Filled) :
    Writer.Emits (jpegDhtAssemble errors decInfo)
      [dhtBytes true decInfo.dcHuffTbl, dhtBytes false decInfo.acHuffTbl].flatten := by
  rw [List.flatten_cons, List.flatten_cons, List.flatten_nil, List.append_nil]
  apply Part.Emits.body
  apply Part.Emits.seq
  · exact .call (tablesSegment_emits (putHuffTables_emits true set.dc filled.1 0) _)
  · exact .call (tablesSegment_emits (putHuffTables_emits false set.ac filled.2 0) _)

theorem jpegDhtAssemble_advances (decInfo : CodecJpegDecInfo) :
    Writer.Advances (jpegDhtAssemble errors decInfo) :=
  (Part.Advances.call (tablesSegment_advances (putHuffTables_advances true _ 0) _)).seq
    (Part.Advances.call (tablesSegment_advances (putHuffTables_advances false _ 0) _))

theorem jpegDriAssemble_emits (decInfo : CodecJpegDecInfo) :
    Writer.Emits (jpegDriAssemble errors decInfo) (driBytes decInfo) := by
  rw [jpegDriAssemble, driBytes]
  split
  · intro m pos _
    simp
  · apply Part.Emits.body
    apply Part.Emits.all
    exact .cons (.call (putInt16_emits _ _)) (.cons (.call (putInt16_emits _ _))
      (.cons (.call (putInt16_emits _ _)) .nil))

/-- The components of a header, each written by a part of its own. -/
theorem forall₂_map_emits {part : CodecJpegCompInfo → Emit.Part Byte}
    {bytes : CodecJpegCompInfo → List Byte} (emits : ∀ info, Part.Emits (part info) (bytes info))
    (infos : List CodecJpegCompInfo) :
    List.Forall₂ Part.Emits (infos.map part) (infos.map bytes) := by
  rw [List.forall₂_map_left_iff, List.forall₂_map_right_iff, List.forall₂_same]
  exact fun info _ => emits info

theorem jpegSofAssemble_emits (decInfo : CodecJpegDecInfo) :
    Writer.Emits (jpegSofAssemble errors decInfo) (sofSegmentBytes decInfo) := by
  apply Part.Emits.body
  apply Part.Emits.all
  exact .cons (.call (putInt16_emits _ _)) (.cons (.call (putInt16_emits _ _))
    (.cons (.call (putInt8_emits _ _)) (.cons (.call (putInt16_emits _ _))
      (.cons (.call (putInt16_emits _ _)) (.cons (.call (putInt8_emits _ _))
        (forall₂_map_emits (fun _ => copyBytes_emits (List.cons_ne_nil _ _) _) _))))))

theorem jpegSosAssemble_emits (decInfo : CodecJpegDecInfo) :
    Writer.Emits (jpegSosAssemble errors decInfo) (sosSegmentBytes decInfo) := by
  apply Part.Emits.body
  apply Part.Emits.all
  have last : List.Forall₂ Part.Emits [copyBytes errors (some [0x00, 0x3F, 0x00]) id]
      [[0x00, 0x3F, 0x00]] := .cons (copyBytes_emits (List.cons_ne_nil _ _) _) .nil
  exact .cons (.call (putInt16_emits _ _)) (.cons (.call (putInt16_emits _ _))
    (.cons (.call (putInt8_emits _ _)) (List.rel_append
      (forall₂_map_emits (fun _ => .call (putInt16_emits _ _)) _) last)))

theorem jpegDataAssemble_emits {data : List Byte} (nonempty : data ≠ []) :
    Writer.Emits (jpegDataAssemble errors (some data)) data :=
  (copyBytes_emits nonempty _).body

/-- Without compressed bytes the copy is refused, and the code answered is negative. -/
theorem jpegDataAssemble_neg {mem : Option (List Byte)} (nothing : mem.getD [] = []) (m : Buffer)
    (pos : ℤ) : (jpegDataAssemble errors mem m pos).2 < 0 := by
  have refused : 0 < (memcpyS errors m pos mem).2 := by
    match mem, nothing with
    | none, _ => exact errors.null_pos
    | some [], _ => exact errors.range_pos
  simp only [jpegDataAssemble, Part.body, copyBytes, if_pos refused.ne', if_pos refused]
  omega

theorem jpegParts_emits (errors : CopyErrors) (set : decInfo.TablesSet) (filled : decInfo.Filled)
    {data : List Byte} (nonempty : data ≠ []) :
    List.Forall₂ Part.Emits (jpegParts errors decInfo (some data)) (jpegBlocks decInfo data) :=
  .cons (.call (putInt16_emits _ _)) (.cons (.call (jpegDqtAssemble_emits set))
    (.cons (.call (jpegDhtAssemble_emits set filled)) (.cons (.call (jpegDriAssemble_emits decInfo))
      (.cons (.call (jpegSofAssemble_emits decInfo)) (.cons (.call (jpegSosAssemble_emits decInfo))
        (.cons (.call (jpegDataAssemble_emits nonempty))
          (.cons (.call (putInt16_emits _ _)) .nil)))))))

/-- With every table filled and compressed bytes, the picture is written from the start on. -/
theorem jpegAssemble_eq (set : decInfo.TablesSet) (filled : decInfo.Filled) {data : List Byte}
    (nonempty : data ≠ []) (buffer : Buffer) :
    jpegAssemble errors decInfo buffer (some data) =
      (emit buffer 0 (jpegBytes decInfo data), ((jpegBytes decInfo data).length : ℤ)) := by
  have blocks := Part.Emits.all (jpegParts_emits errors set filled nonempty)
  have written := blocks.body buffer 0 le_rfl
  rw [Int.zero_add] at written
  exact written

/-- With compressed bytes the answer is never negative, whatever a table may lack. -/
theorem jpegAssemble_nonneg (set : decInfo.TablesSet) {data : List Byte} (nonempty : data ≠ [])
    (buffer : Buffer) : 0 ≤ (jpegAssemble errors decInfo buffer (some data)).2 := by
  apply Part.Advances.all _ buffer 0 le_rfl
  simp only [jpegParts, List.forall_mem_cons]
  exact ⟨.call (putInt16_emits _ _).advances, .call (jpegDqtAssemble_emits set).advances,
    .call (jpegDhtAssemble_advances decInfo), .call (jpegDriAssemble_emits decInfo).advances,
    .call (jpegSofAssemble_emits decInfo).advances, .call (jpegSosAssemble_emits decInfo).advances,
    .call (jpegDataAssemble_emits nonempty).advances, .call (putInt16_emits _ _).advances,
    List.forall_mem_nil _⟩

/-- Without compressed bytes the answer is negative, whatever happened before. -/
theorem jpegAssemble_neg {mem : Option (List Byte)} (nothing : mem.getD [] = [])
    (decInfo : CodecJpegDecInfo) (buffer : Buffer) :
    (jpegAssemble errors decInfo buffer mem).2 < 0 := by
  have negative : ∀ answer : ℤ, (fun _ => -1 : ℤ → ℤ) answer < 0 := fun _ => neg_one_lt_zero
  refine Part.Fails.call_seq negative (.call_seq negative (.call_seq negative
    (.call_seq negative (.call_seq negative (.call_seq negative
      (Part.fails_call_seq negative ?_)))))) buffer 0 le_rfl
  exact fun m pos _ => jpegDataAssemble_neg nothing m pos

end Whole

end RockchipSoc.Jpeg
