import RockchipSoc.Jpeg.ReadOffsets
import RockchipSoc.Jpeg.RoundTrip

/-!
# Buffers that are read safely

The reader believes the lengths and the numbers that it finds.  It comes to an end and stays in the
buffer exactly where the buffer is a chain of whole segments: each of them, its tables and its scan
up to the end marker lie in the buffer, a scan names no more components than the frames before it,
and the chain leads behind the buffer.
-/

namespace RockchipSoc.Jpeg

open Emit Footprint

/-! ## What a safe run is -/

/-- The reader comes to an answer, which it does not where a component is missing, and everything
it has read by then lies in the buffer. -/
def ReadsSafely (errors : CopyErrors) (buffer : Buffer) (bufferLen : ℤ) : Prop :=
  ∃ fuel answer, dessambleJpeg errors buffer fuel bufferLen = some answer ∧
    Inside bufferLen (dessambleJpegReads buffer errors fuel bufferLen)

/-! ## Chains of whole segments -/

section Chains

variable (errors : CopyErrors) (buffer : Buffer)

/-- Where a segment ends by the length behind its marker. -/
def statedEnd (pos : ℤ) : ℤ := pos + 2 + (getInt16 buffer (pos + 2)).toNat

/-- The number of components that a frame announces. -/
def frameComponents (pos : ℤ) : Nat := (getInt8 buffer (pos + 2 + 7)).toNat

/-- The number of components that a scan names. -/
def scanComponents (pos : ℤ) : Nat := (getInt8 buffer (pos + 2 + 2)).toNat

/-- The markers for which there is a reader. -/
def JpegMarker.handled : List (BitVec 16) := [soi, eoi, sof0, dht, sos, dqt, dri]

/-- The end marker is found: a byte 0xFF before it is left together with the byte behind it. -/
inductive ScanEnds : ℤ → ℤ → Prop
  | marker {pos : ℤ} (first : getInt8 buffer pos = 0xff)
      (second : getInt8 buffer (pos + 1) = 0xd9) : ScanEnds pos pos
  | byte {pos dataEnd : ℤ} (other : getInt8 buffer pos ≠ 0xff)
      (rest : ScanEnds (pos + 1) dataEnd) : ScanEnds pos dataEnd
  | pair {pos dataEnd : ℤ} (first : getInt8 buffer pos = 0xff)
      (other : getInt8 buffer (pos + 1) ≠ 0xd9) (rest : ScanEnds (pos + 2) dataEnd) :
      ScanEnds pos dataEnd

/-- Behind the scan stands its end marker; the refused copy of an empty scan counts as a length. -/
def behindScan (dataStart dataEnd : ℤ) : ℤ :=
  if dataEnd = dataStart then dataStart + errors.range else dataEnd

/-- A segment that lies in the buffer with its tables and its scan: how many components there are
before and behind it, and where the next segment starts. -/
inductive WholeSegment (bufferLen : ℤ) : Nat → ℤ → Nat → ℤ → Prop
  | mark {n : Nat} {pos : ℤ}
      (marker : findMarker buffer pos = JpegMarker.soi ∨ findMarker buffer pos = JpegMarker.eoi)
      (fits : pos + 2 ≤ bufferLen) : WholeSegment bufferLen n pos n (pos + 2)
  | sof0 {n : Nat} {pos : ℤ} (marker : findMarker buffer pos = JpegMarker.sof0)
      (fits : pos + 10 + 3 * frameComponents buffer pos ≤ bufferLen) :
      WholeSegment bufferLen n pos (n + frameComponents buffer pos) (statedEnd buffer pos)
  | dht {n : Nat} {pos behind : ℤ} (marker : findMarker buffer pos = JpegMarker.dht)
      (tables : Blocks (huffTableSize buffer) (statedEnd buffer pos) (pos + 4) behind)
      (fits : behind ≤ bufferLen) : WholeSegment bufferLen n pos n (statedEnd buffer pos)
  | sos {n : Nat} {pos dataEnd : ℤ} (marker : findMarker buffer pos = JpegMarker.sos)
      (known : scanComponents buffer pos ≤ n)
      (header : pos + 5 + 2 * scanComponents buffer pos ≤ bufferLen)
      (scan : ScanEnds buffer (statedEnd buffer pos) dataEnd) (fits : dataEnd + 2 ≤ bufferLen) :
      WholeSegment bufferLen n pos n (behindScan errors (statedEnd buffer pos) dataEnd)
  | dqt {n : Nat} {pos behind : ℤ} (marker : findMarker buffer pos = JpegMarker.dqt)
      (tables : Blocks (quantTableSize buffer) (statedEnd buffer pos) (pos + 4) behind)
      (fits : behind ≤ bufferLen) : WholeSegment bufferLen n pos n (statedEnd buffer pos)
  | dri {n : Nat} {pos : ℤ} (marker : findMarker buffer pos = JpegMarker.dri)
      (fits : pos + 6 ≤ bufferLen) : WholeSegment bufferLen n pos n (pos + 6)
  | other {n : Nat} {pos : ℤ} (marker : findMarker buffer pos ∉ JpegMarker.handled)
      (fits : pos + 4 ≤ bufferLen) :
      WholeSegment bufferLen n pos n (pos + 2 + (getInt16 buffer (pos + 2)).toInt)

/-- From a position on, whole segments lead behind the buffer. -/
inductive Framed (bufferLen : ℤ) : Nat → ℤ → Prop
  | done {n : Nat} {pos : ℤ} (reached : bufferLen ≤ pos) : Framed bufferLen n pos
  | segment {n n' : Nat} {pos next : ℤ} (inside : 0 ≤ pos) (before : pos < bufferLen)
      (whole : WholeSegment errors buffer bufferLen n pos n' next)
      (rest : Framed bufferLen n' next) : Framed bufferLen n pos

end Chains

variable {errors : CopyErrors} {m : Buffer} {bufferLen pos next dataEnd : ℤ} {reading : Reading}
  {answer : Bool × Reading} {fuel n n' : Nat}

/-! ## The end of a scan -/

theorem scanEnds_of_findEoi (found : findEoi m fuel pos = some dataEnd) :
    ScanEnds m pos dataEnd := by
  induction fuel generalizing pos with
  | zero => cases found
  | succ fuel ih =>
      rw [findEoi] at found
      split at found
      · next other => exact .byte other (ih found)
      · next first =>
          split at found
          · next other => exact .pair (not_not.mp first) other (ih found)
          · next second =>
              obtain rfl := Option.some.inj found
              exact .marker (not_not.mp first) (not_not.mp second)

theorem ScanEnds.findEoi (scan : ScanEnds m pos dataEnd) :
    ∃ fuel, Jpeg.findEoi m fuel pos = some dataEnd := by
  induction scan with
  | marker first second =>
      refine ⟨1, ?_⟩
      rw [Jpeg.findEoi, if_neg (not_not.mpr first), if_neg (not_not.mpr second)]
  | byte other rest ih =>
      obtain ⟨fuel, found⟩ := ih
      refine ⟨fuel + 1, ?_⟩
      rw [Jpeg.findEoi, if_pos other, found]
  | pair first other rest ih =>
      obtain ⟨fuel, found⟩ := ih
      refine ⟨fuel + 1, ?_⟩
      rw [Jpeg.findEoi, if_neg (not_not.mpr first), if_pos other, found]

theorem ScanEnds.unique {dataEnd' : ℤ} (scan : ScanEnds m pos dataEnd)
    (found : Jpeg.findEoi m fuel pos = some dataEnd') : dataEnd' = dataEnd := by
  obtain ⟨fuel', found'⟩ := scan.findEoi
  have later := findEoi_mono found (Nat.le_max_left fuel fuel')
  have later' := findEoi_mono found' (Nat.le_max_right fuel fuel')
  exact Option.some.inj (later.symm.trans later')

theorem le_behindScan (errors : CopyErrors) (before : pos ≤ dataEnd) :
    pos ≤ behindScan errors pos dataEnd := by
  have positive := errors.range_pos
  rw [behindScan]
  split
  · omega
  · exact before

/-- The reader goes on behind the scan. -/
theorem dessambleCompressData_of_found (errors : CopyErrors)
    (found : findEoi m fuel pos = some dataEnd) :
    ∃ compressBuffer, dessambleCompressData errors m fuel pos =
      some (behindScan errors pos dataEnd - pos, compressBuffer) := by
  by_cases empty : dataEnd = pos
  · have length : (pos - pos).toNat = 0 := by omega
    have refused : (memcpyS errors m 0 (some (cellsAt m pos (pos - pos).toNat))).2 =
        errors.range := by
      rw [length]
      rfl
    refine ⟨none, ?_⟩
    rw [empty] at found
    rw [behindScan, if_pos empty, dessambleCompressData, found, Option.map_some]
    simp only [refused, ne_eq, errors.range_pos.ne', not_false_eq_true, if_true,
      add_sub_cancel_left]
  · have nonempty : pos < dataEnd := lt_of_le_of_ne (le_of_findEoi found) (Ne.symm empty)
    refine ⟨some (cellsAt m pos (dataEnd - pos).toNat), ?_⟩
    rw [dessambleCompressData_of_findEoi found nonempty, behindScan, if_neg empty]

/-! ## The number of components -/

theorem length_getSofComponents (m : Buffer) (count : Nat) (pos : ℤ) :
    (getSofComponents m count pos).length = count := by
  induction count generalizing pos with
  | zero => rfl
  | succ count ih => rw [getSofComponents, List.length_cons, ih]

theorem getHuffTables_compInfo (segmentEnd : ℤ) (fuel : Nat) (pos : ℤ)
    (decInfo : CodecJpegDecInfo) :
    (getHuffTables m segmentEnd fuel pos decInfo).compInfo = decInfo.compInfo := by
  induction fuel generalizing pos decInfo with
  | zero => rfl
  | succ fuel ih =>
      rw [getHuffTables]
      split
      · rw [ih]
        split <;> rfl
      · rfl

/-- A scan header is read where it names no component that is missing. -/
theorem getSosComponents_eq_some {count : Nat} {infos infos' : List CodecJpegCompInfo}
    (read : getSosComponents m count pos infos = some infos') :
    count ≤ infos.length ∧ infos'.length = infos.length := by
  induction count generalizing pos infos infos' with
  | zero =>
      obtain rfl := Option.some.inj read
      exact ⟨Nat.zero_le _, rfl⟩
  | succ count ih =>
      cases infos with
      | nil => cases read
      | cons info infos =>
          obtain ⟨rest, restRead, rfl⟩ := Option.map_eq_some_iff.mp read
          obtain ⟨known, length⟩ := ih restRead
          exact ⟨Nat.succ_le_succ known, congrArg Nat.succ length⟩

theorem exists_getSosComponents {count : Nat} {infos : List CodecJpegCompInfo}
    (known : count ≤ infos.length) (pos : ℤ) :
    ∃ infos', getSosComponents m count pos infos = some infos' := by
  induction count generalizing pos infos with
  | zero => exact ⟨infos, by rw [getSosComponents]⟩
  | succ count ih =>
      cases infos with
      | nil => cases known
      | cons info infos =>
          obtain ⟨rest, read⟩ := ih (Nat.le_of_succ_le_succ known) (pos + 2)
          rw [getSosComponents, read]
          exact ⟨_, rfl⟩

/-! ## One segment -/

theorem marker_cases (marker : BitVec 16) :
    (marker = JpegMarker.soi ∨ marker = JpegMarker.eoi) ∨ marker = JpegMarker.sof0 ∨
      marker = JpegMarker.dht ∨ marker = JpegMarker.sos ∨ marker = JpegMarker.dqt ∨
      marker = JpegMarker.dri ∨ marker ∉ JpegMarker.handled := by
  simp only [JpegMarker.handled, List.mem_cons, List.not_mem_nil]
  tauto

theorem dessambleSegment_mark (marker : findMarker m reading.start = JpegMarker.soi ∨
    findMarker m reading.start = JpegMarker.eoi) :
    dessambleSegment errors m fuel reading =
      some (true, { reading with start := reading.start + 2 }) := if_pos marker

theorem dessambleSegment_sof0 (marker : findMarker m reading.start = JpegMarker.sof0) :
    dessambleSegment errors m fuel reading = some (true, reading.behind (reading.start + 2)
      (dessambleSof m (reading.start + 2) reading.decInfo)) := by
  simp only [dessambleSegment, marker]
  rfl

theorem dessambleSegment_dht (marker : findMarker m reading.start = JpegMarker.dht) :
    dessambleSegment errors m fuel reading = some (true, reading.behind (reading.start + 2)
      (dessambleDht m (reading.start + 2) reading.decInfo)) := by
  simp only [dessambleSegment, marker]
  rfl

theorem dessambleSegment_dqt (marker : findMarker m reading.start = JpegMarker.dqt) :
    dessambleSegment errors m fuel reading = some (true, reading.behind (reading.start + 2)
      (dessambleDqt m (reading.start + 2) reading.decInfo)) := by
  simp only [dessambleSegment, marker]
  rfl

theorem dessambleSegment_dri (marker : findMarker m reading.start = JpegMarker.dri) :
    dessambleSegment errors m fuel reading = some (true, reading.behind (reading.start + 2)
      (4, { reading.decInfo with
        restartInterval := (getInt16 m (reading.start + 2 + 2)).toNat })) := by
  simp only [dessambleSegment, marker]
  rfl

theorem dessambleSegment_other (marker : findMarker m reading.start ∉ JpegMarker.handled) :
    dessambleSegment errors m fuel reading = some (true, { reading with
      start := reading.start + 2 + (getInt16 m (reading.start + 2)).toInt }) := by
  simp only [JpegMarker.handled, List.mem_cons, List.not_mem_nil, or_false, not_or] at marker
  obtain ⟨soi, eoi, sof0, dht, sos, dqt, dri⟩ := marker
  rw [dessambleSegment]
  simp only [soi, eoi, sof0, dht, sos, dqt, dri, or_false, if_false]

theorem dessambleSegment_sos (marker : findMarker m reading.start = JpegMarker.sos) :
    dessambleSegment errors m fuel reading =
      (dessambleSos m (reading.start + 2) reading.decInfo).bind fun header =>
        (dessambleCompressData errors m fuel (reading.start + 2 + header.1)).map fun copied =>
          (decide (0 ≤ copied.1),
            { start := reading.start + 2 + header.1 + copied.1
              decInfo := header.2
              compressBuffer := copied.2 }) := by
  simp only [dessambleSegment, marker]
  rfl

/-- Where a scan is read no component is missing, and an end marker is found. -/
theorem exists_of_dessambleSegment_sos (marker : findMarker m reading.start = JpegMarker.sos)
    (read : dessambleSegment errors m fuel reading = some answer) :
    ∃ infos dataEnd, getSosComponents m (scanComponents m reading.start) (reading.start + 2 + 3)
        reading.decInfo.compInfo = some infos ∧
      findEoi m fuel (statedEnd m reading.start) = some dataEnd := by
  rw [dessambleSegment_sos marker] at read
  obtain ⟨header, headerRead, rest⟩ := Option.bind_eq_some_iff.mp read
  obtain ⟨copied, copy, -⟩ := Option.map_eq_some_iff.mp rest
  obtain ⟨infos, components, rfl⟩ := Option.map_eq_some_iff.mp headerRead
  obtain ⟨dataEnd, found, -⟩ := Option.map_eq_some_iff.mp copy
  exact ⟨infos, dataEnd, components, found⟩

theorem dessambleSegment_sos_of_found (errors : CopyErrors)
    (marker : findMarker m reading.start = JpegMarker.sos) {infos : List CodecJpegCompInfo}
    (components : getSosComponents m (scanComponents m reading.start) (reading.start + 2 + 3)
      reading.decInfo.compInfo = some infos)
    (found : findEoi m fuel (statedEnd m reading.start) = some dataEnd) :
    ∃ compressBuffer, dessambleSegment errors m fuel reading =
      some (true,
        { start := behindScan errors (statedEnd m reading.start) dataEnd
          decInfo := { reading.decInfo with compInfo := infos }
          compressBuffer }) := by
  obtain ⟨compressBuffer, copy⟩ := dessambleCompressData_of_found errors found
  have header : dessambleSos m (reading.start + 2) reading.decInfo =
      some ((getInt16 m (reading.start + 2)).toNat,
        { reading.decInfo with compInfo := infos }) :=
    Option.map_eq_some_iff.mpr ⟨_, components, rfl⟩
  have behind : 0 ≤ behindScan errors (statedEnd m reading.start) dataEnd -
      statedEnd m reading.start := sub_nonneg.mpr (le_behindScan errors (le_of_findEoi found))
  refine ⟨compressBuffer, ?_⟩
  rw [statedEnd] at copy behind
  rw [dessambleSegment_sos marker, header, Option.bind_some, copy, Option.map_some,
    decide_eq_true behind, statedEnd, add_sub_cancel]

/-! ## Where the reads of a segment stay in the buffer -/

theorem inside_mark_iff
    (marker : findMarker m pos = JpegMarker.soi ∨ findMarker m pos = JpegMarker.eoi) :
    Inside bufferLen (segmentReads m fuel pos) ↔ 0 ≤ pos ∧ pos + 2 ≤ bufferLen := by
  have reads : segmentReads m fuel pos = int16Reads pos := by
    rw [segmentReads]
    exact (congrArg _ (if_pos marker)).trans (List.append_nil _)
  rw [reads, (covers_int16Reads pos).inside_iff (by omega)]

theorem inside_sof0_iff (marker : findMarker m pos = JpegMarker.sof0) :
    Inside bufferLen (segmentReads m fuel pos) ↔
      0 ≤ pos ∧ pos + 10 + 3 * frameComponents m pos ≤ bufferLen := by
  have reads : segmentReads m fuel pos = int16Reads pos ++ sofReads m (pos + 2) := by
    simp only [segmentReads, marker]
    rfl
  rw [reads, ((covers_int16Reads pos).append (covers_sofReads m (pos + 2)) (by omega)
    (by omega)).inside_iff (by omega)]
  rw [frameComponents]
  omega

/-- Tables reach as far as the last one that begins in the segment. -/
theorem exists_inside_tables_iff {size : ℤ → Nat} {tableReads : List ℤ}
    (reads : segmentReads m fuel pos = int16Reads pos ++ tableReads)
    (covered : ∃ behind, Blocks size (statedEnd m pos) (pos + 2 + 2) behind ∧
      Covers tableReads (pos + 2) behind) :
    ∃ behind, Blocks size (statedEnd m pos) (pos + 4) behind ∧
      (Inside bufferLen (segmentReads m fuel pos) ↔ 0 ≤ pos ∧ behind ≤ bufferLen) := by
  obtain ⟨behind, tables, covers⟩ := covered
  have start : pos + 2 + 2 = pos + 4 := Int.add_assoc pos 2 2
  have reaches := tables.le
  rw [start] at tables
  refine ⟨behind, tables, ?_⟩
  rw [reads, ((covers_int16Reads pos).append covers (by omega) (by omega)).inside_iff (by omega)]

theorem exists_inside_dht_iff (marker : findMarker m pos = JpegMarker.dht) :
    ∃ behind, Blocks (huffTableSize m) (statedEnd m pos) (pos + 4) behind ∧
      (Inside bufferLen (segmentReads m fuel pos) ↔ 0 ≤ pos ∧ behind ≤ bufferLen) := by
  have reads : segmentReads m fuel pos = int16Reads pos ++ dhtReads m (pos + 2) := by
    simp only [segmentReads, marker]
    rfl
  exact exists_inside_tables_iff reads (covers_dhtReads m (pos + 2))

theorem exists_inside_dqt_iff (marker : findMarker m pos = JpegMarker.dqt) :
    ∃ behind, Blocks (quantTableSize m) (statedEnd m pos) (pos + 4) behind ∧
      (Inside bufferLen (segmentReads m fuel pos) ↔ 0 ≤ pos ∧ behind ≤ bufferLen) := by
  have reads : segmentReads m fuel pos = int16Reads pos ++ dqtReads m (pos + 2) := by
    simp only [segmentReads, marker]
    rfl
  exact exists_inside_tables_iff reads (covers_dqtReads m (pos + 2))

theorem inside_sos_iff (marker : findMarker m pos = JpegMarker.sos)
    (found : findEoi m fuel (statedEnd m pos) = some dataEnd) :
    Inside bufferLen (segmentReads m fuel pos) ↔ 0 ≤ pos ∧
      pos + 5 + 2 * scanComponents m pos ≤ bufferLen ∧ dataEnd + 2 ≤ bufferLen := by
  have reads : segmentReads m fuel pos = int16Reads pos ++ sosReads m (pos + 2) ++
      compressDataReads m fuel (statedEnd m pos) := by
    rw [List.append_assoc]
    simp only [segmentReads, marker]
    rfl
  have before := le_of_findEoi found
  have header := (covers_int16Reads pos).append (covers_sosReads m (pos + 2)) (by omega) (by omega)
  rw [reads, inside_append, header.inside_iff (by omega),
    (covers_compressDataReads found).inside_iff (by omega)]
  rw [scanComponents]
  rw [statedEnd] at before ⊢
  omega

theorem inside_dri_iff (marker : findMarker m pos = JpegMarker.dri) :
    Inside bufferLen (segmentReads m fuel pos) ↔ 0 ≤ pos ∧ pos + 6 ≤ bufferLen := by
  have reads : segmentReads m fuel pos = int16Reads pos ++ int16Reads (pos + 2 + 2) := by
    simp only [segmentReads, marker]
    rfl
  rw [reads, inside_append, (covers_int16Reads pos).inside_iff (by omega),
    (covers_int16Reads (pos + 2 + 2)).inside_iff (by omega)]
  omega

theorem inside_other_iff (marker : findMarker m pos ∉ JpegMarker.handled) :
    Inside bufferLen (segmentReads m fuel pos) ↔ 0 ≤ pos ∧ pos + 4 ≤ bufferLen := by
  have reads : segmentReads m fuel pos = int16Reads pos ++ int16Reads (pos + 2) := by
    simp only [JpegMarker.handled, List.mem_cons, List.not_mem_nil, or_false, not_or] at marker
    obtain ⟨soi, eoi, sof0, dht, sos, dqt, dri⟩ := marker
    simp only [segmentReads, soi, eoi, sof0, dht, sos, dqt, dri, or_false, if_false]
  rw [reads, inside_append, (covers_int16Reads pos).inside_iff (by omega),
    (covers_int16Reads (pos + 2)).inside_iff (by omega)]
  omega

/-! ## One step of the chain -/

/-- A segment that is read inside the buffer is whole. -/
theorem wholeSegment_of_inside (read : dessambleSegment errors m fuel reading = some answer)
    (inside : Inside bufferLen (segmentReads m fuel reading.start)) :
    answer.1 = true ∧ 0 ≤ reading.start ∧
      WholeSegment errors m bufferLen reading.decInfo.compInfo.length reading.start
        answer.2.decInfo.compInfo.length answer.2.start := by
  rcases marker_cases (findMarker m reading.start) with
    mark | sof0 | dht | sos | dqt | dri | other
  · rw [dessambleSegment_mark mark] at read
    obtain rfl := Option.some.inj read
    obtain ⟨nonneg, fits⟩ := (inside_mark_iff mark).mp inside
    exact ⟨rfl, nonneg, .mark mark fits⟩
  · rw [dessambleSegment_sof0 sof0] at read
    obtain rfl := Option.some.inj read
    obtain ⟨nonneg, fits⟩ := (inside_sof0_iff sof0).mp inside
    have components : (reading.behind (reading.start + 2) (dessambleSof m (reading.start + 2)
        reading.decInfo)).decInfo.compInfo.length =
          reading.decInfo.compInfo.length + frameComponents m reading.start :=
      List.length_append.trans (congrArg _ (length_getSofComponents m _ _))
    refine ⟨rfl, nonneg, ?_⟩
    rw [components]
    exact .sof0 sof0 fits
  · rw [dessambleSegment_dht dht] at read
    obtain rfl := Option.some.inj read
    obtain ⟨behind, tables, inside_iff⟩ := exists_inside_dht_iff dht
    obtain ⟨nonneg, fits⟩ := inside_iff.mp inside
    have components : (reading.behind (reading.start + 2) (dessambleDht m (reading.start + 2)
        reading.decInfo)).decInfo.compInfo = reading.decInfo.compInfo :=
      getHuffTables_compInfo _ _ _ _
    refine ⟨rfl, nonneg, ?_⟩
    rw [components]
    exact .dht dht tables fits
  · obtain ⟨infos, dataEnd, components, found⟩ := exists_of_dessambleSegment_sos sos read
    obtain ⟨compressBuffer, explicit⟩ :=
      dessambleSegment_sos_of_found errors sos components found
    obtain rfl := Option.some.inj (read.symm.trans explicit)
    obtain ⟨known, length⟩ := getSosComponents_eq_some components
    obtain ⟨nonneg, header, fits⟩ := (inside_sos_iff sos found).mp inside
    refine ⟨rfl, nonneg, ?_⟩
    rw [length]
    exact .sos sos known header (scanEnds_of_findEoi found) fits
  · rw [dessambleSegment_dqt dqt] at read
    obtain rfl := Option.some.inj read
    obtain ⟨behind, tables, inside_iff⟩ := exists_inside_dqt_iff dqt
    obtain ⟨nonneg, fits⟩ := inside_iff.mp inside
    exact ⟨rfl, nonneg, .dqt dqt tables fits⟩
  · rw [dessambleSegment_dri dri] at read
    obtain rfl := Option.some.inj read
    obtain ⟨nonneg, fits⟩ := (inside_dri_iff dri).mp inside
    have next : reading.start + 2 + (4 : Nat) = reading.start + 6 := Int.add_assoc _ 2 4
    refine ⟨rfl, nonneg, ?_⟩
    rw [Reading.behind, next]
    exact .dri dri fits
  · rw [dessambleSegment_other other] at read
    obtain rfl := Option.some.inj read
    obtain ⟨nonneg, fits⟩ := (inside_other_iff other).mp inside
    exact ⟨rfl, nonneg, .other other fits⟩

/-- What is read of a whole segment lies in the buffer. -/
theorem WholeSegment.inside (whole : WholeSegment errors m bufferLen n pos n' next)
    (nonneg : 0 ≤ pos) (start : reading.start = pos)
    (read : dessambleSegment errors m fuel reading = some answer) :
    Inside bufferLen (segmentReads m fuel pos) := by
  cases whole with
  | mark marker fits => exact (inside_mark_iff marker).mpr ⟨nonneg, fits⟩
  | sof0 marker fits => exact (inside_sof0_iff marker).mpr ⟨nonneg, fits⟩
  | dht marker tables fits =>
      obtain ⟨behind, tables', inside_iff⟩ := exists_inside_dht_iff marker
      obtain rfl := tables.unique tables'
      exact inside_iff.mpr ⟨nonneg, fits⟩
  | sos marker known header scan fits =>
      rw [← start] at marker scan
      obtain ⟨infos, dataEnd', -, found⟩ := exists_of_dessambleSegment_sos marker read
      obtain rfl := scan.unique found
      rw [start] at marker found
      exact (inside_sos_iff marker found).mpr ⟨nonneg, header, fits⟩
  | dqt marker tables fits =>
      obtain ⟨behind, tables', inside_iff⟩ := exists_inside_dqt_iff marker
      obtain rfl := tables.unique tables'
      exact inside_iff.mpr ⟨nonneg, fits⟩
  | dri marker fits => exact (inside_dri_iff marker).mpr ⟨nonneg, fits⟩
  | other marker fits => exact (inside_other_iff marker).mpr ⟨nonneg, fits⟩

/-- A whole segment is read, and leads to the next one. -/
theorem WholeSegment.leads (whole : WholeSegment errors m bufferLen n pos n' next)
    (start : reading.start = pos) (components : reading.decInfo.compInfo.length = n) :
    ∃ reading', Leads errors m reading reading' ∧ reading'.start = next ∧
      reading'.decInfo.compInfo.length = n' := by
  subst start components
  cases whole with
  | mark marker fits => exact ⟨_, ⟨0, dessambleSegment_mark marker⟩, rfl, rfl⟩
  | sof0 marker fits =>
      refine ⟨_, ⟨0, dessambleSegment_sof0 marker⟩, rfl, ?_⟩
      exact List.length_append.trans (congrArg _ (length_getSofComponents m _ _))
  | dht marker tables fits =>
      refine ⟨_, ⟨0, dessambleSegment_dht marker⟩, rfl, ?_⟩
      exact congrArg List.length (getHuffTables_compInfo _ _ _ _)
  | sos marker known header scan fits =>
      obtain ⟨infos, read⟩ := exists_getSosComponents known (reading.start + 2 + 3)
      obtain ⟨fuel, found⟩ := scan.findEoi
      obtain ⟨compressBuffer, segment⟩ := dessambleSegment_sos_of_found errors marker read found
      exact ⟨_, ⟨fuel, segment⟩, rfl, (getSosComponents_eq_some read).2⟩
  | dqt marker tables fits => exact ⟨_, ⟨0, dessambleSegment_dqt marker⟩, rfl, rfl⟩
  | dri marker fits =>
      exact ⟨_, ⟨0, dessambleSegment_dri marker⟩, Int.add_assoc _ 2 4, rfl⟩
  | other marker fits => exact ⟨_, ⟨0, dessambleSegment_other marker⟩, rfl, rfl⟩

/-! ## The whole run -/

theorem framed_of_read (read : dessambleSegments errors m bufferLen fuel reading = some answer)
    (inside : Inside bufferLen (segmentsReads m errors bufferLen fuel reading)) :
    Framed errors m bufferLen reading.decInfo.compInfo.length reading.start := by
  induction fuel generalizing reading with
  | zero => cases read
  | succ fuel ih =>
      rw [dessambleSegments] at read
      by_cases before : reading.start < bufferLen
      · rw [if_pos before] at read
        obtain ⟨⟨goesOn, reading'⟩, segment, rest⟩ := Option.bind_eq_some_iff.mp read
        have front : Inside bufferLen (segmentReads m fuel reading.start) := by
          rw [segmentsReads, if_pos before] at inside
          exact (inside_append.mp inside).1
        obtain ⟨rfl, nonneg, whole⟩ := wholeSegment_of_inside segment front
        rw [segmentsReads_of_segment before segment] at inside
        exact .segment nonneg before whole (ih rest (inside_append.mp inside).2)
      · exact .done (not_lt.mp before)

/-- Along a chain the reader comes to an answer. -/
theorem Framed.reads (framed : Framed errors m bufferLen n pos) (start : reading.start = pos)
    (components : reading.decInfo.compInfo.length = n) :
    ∃ answer, Reads errors m bufferLen reading answer := by
  induction framed generalizing reading with
  | done reached => exact ⟨_, reads_of_end (not_lt.mpr (start ▸ reached))⟩
  | segment inside before whole rest ih =>
      obtain ⟨reading', leads, start', components'⟩ := whole.leads start components
      obtain ⟨answer, reads⟩ := ih start' components'
      exact ⟨answer, (leads.reads_iff (start ▸ before)).mpr reads⟩

/-- Along a chain everything that is read lies in the buffer. -/
theorem Framed.inside (framed : Framed errors m bufferLen n pos) (start : reading.start = pos)
    (components : reading.decInfo.compInfo.length = n)
    (read : dessambleSegments errors m bufferLen fuel reading = some answer) :
    Inside bufferLen (segmentsReads m errors bufferLen fuel reading) := by
  induction framed generalizing reading fuel with
  | done reached =>
      cases fuel with
      | zero => cases read
      | succ fuel =>
          rw [segmentsReads, if_neg (not_lt.mpr (start ▸ reached))]
          exact List.forall_mem_nil _
  | segment nonneg before whole rest ih =>
      cases fuel with
      | zero => cases read
      | succ fuel =>
          rw [dessambleSegments, if_pos (start ▸ before)] at read
          obtain ⟨segment, segmentRead, later⟩ := Option.bind_eq_some_iff.mp read
          obtain ⟨reading', leads, start', components'⟩ := whole.leads start components
          obtain rfl := leads.eq_of_read segmentRead
          rw [segmentsReads_of_segment (start ▸ before) segmentRead, inside_append]
          exact ⟨start ▸ whole.inside nonneg start segmentRead, ih start' components' later⟩

-- A picture without anything between its marks is read safely.
example : Framed secureErrors (fun k => if k = 1 then 0xd8 else if k = 3 then 0xd9 else 0xff) 4 0
    0 :=
  .segment (by decide) (by decide) (.mark (.inl (by decide)) (by decide))
    (.segment (by decide) (by decide) (.mark (.inr (by decide)) (by decide)) (.done (by decide)))

/-- Both bytes of a marker are read. -/
theorem marker_mem_segmentReads (m : Buffer) (fuel : Nat) (pos : ℤ) :
    pos + 1 ∈ segmentReads m fuel pos :=
  List.mem_append_left _ (List.mem_cons_of_mem _ List.mem_cons_self)

/-- A picture that was cut off in its second marker. -/
def cutPicture : Buffer := fun k => if k = 1 then 0xd8 else 0xff

end RockchipSoc.Jpeg
