import RockchipSoc.Foundation.Footprint
import RockchipSoc.Jpeg.SegmentLoop

/-!
# Where the reader reads

The offsets of the bytes that each part of the reader reads, in the order of reading.  Every part
reads an interval of the buffer; how long it is, the bytes themselves say.
-/

namespace RockchipSoc.Jpeg

open Emit Footprint

section Offsets

variable (buffer : Buffer)

def int8Reads (pos : ℤ) : List ℤ := [pos]

def int16Reads (pos : ℤ) : List ℤ := [pos, pos + 1]

/-- A component of a frame header: its number, its factors and its table. -/
def sofComponentReads (pos : ℤ) : List ℤ :=
  int8Reads pos ++ int8Reads (pos + 1) ++ int8Reads (pos + 2)

def sofReads (pos : ℤ) : List ℤ :=
  int16Reads pos ++ int8Reads (pos + 2) ++ int16Reads (pos + 3) ++ int16Reads (pos + 5) ++
    int8Reads (pos + 7) ++
    counted sofComponentReads 3 (getInt8 buffer (pos + 7)).toNat (pos + 8)

/-- A component of a scan header: its number, which is not used, and its tables. -/
def sosComponentReads (pos : ℤ) : List ℤ := int8Reads pos ++ int8Reads (pos + 1)

/-- The three bytes behind the components are left out. -/
def sosReads (pos : ℤ) : List ℤ :=
  int16Reads pos ++ int8Reads (pos + 2) ++
    counted sosComponentReads 2 (getInt8 buffer (pos + 2)).toNat (pos + 3)

/-- The search for the end marker. -/
def findEoiReads : Nat → ℤ → List ℤ
  | 0, _ => []
  | fuel + 1, pos =>
      if getInt8 buffer pos ≠ 0xff then int8Reads pos ++ findEoiReads fuel (pos + 1)
      else if getInt8 buffer (pos + 1) ≠ 0xd9 then
        int8Reads pos ++ int8Reads (pos + 1) ++ findEoiReads fuel (pos + 2)
      else int8Reads pos ++ int8Reads (pos + 1)

/-- The search, and the copy of what stands before the end marker. -/
def compressDataReads (fuel : Nat) (dataStart : ℤ) : List ℤ :=
  findEoiReads buffer fuel dataStart ++
    match findEoi buffer fuel dataStart with
    | .none => []
    | some dataEnd => counted int8Reads 1 (dataEnd - dataStart).toNat dataStart

/-- How long a quantisation table is with the byte in front of it. -/
def quantTableSize (pos : ℤ) : Nat := 1 + 2 * quantEntries (getInt8 buffer pos)

def quantTableReads (pos : ℤ) : List ℤ :=
  int8Reads pos ++ counted int16Reads 2 (quantEntries (getInt8 buffer pos)) (pos + 1)

def dqtReads (pos : ℤ) : List ℤ :=
  let len := (getInt16 buffer pos).toNat
  int16Reads pos ++
    chained (quantTableReads buffer) (quantTableSize buffer) (pos + len) len (pos + 2)

/-- How many values the counts of a Huffman table announce. -/
def huffValues (pos : ℤ) : Nat := ((cellsAt buffer (pos + 1) 16).map BitVec.toNat).sum

/-- How long a Huffman table is with the byte in front of it. -/
def huffTableSize (pos : ℤ) : Nat := 17 + huffValues buffer pos

def huffTableReads (pos : ℤ) : List ℤ :=
  int8Reads pos ++ counted int8Reads 1 16 (pos + 1) ++
    counted int8Reads 1 (huffValues buffer pos) (pos + 17)

def dhtReads (pos : ℤ) : List ℤ :=
  let len := (getInt16 buffer pos).toNat
  int16Reads pos ++
    chained (huffTableReads buffer) (huffTableSize buffer) (pos + len) len (pos + 2)

/-- One segment, from its marker on. -/
def segmentReads (fuel : Nat) (pos : ℤ) : List ℤ :=
  let marker := findMarker buffer pos
  let start := pos + 2
  int16Reads pos ++
    if marker = JpegMarker.soi ∨ marker = JpegMarker.eoi then []
    else if marker = JpegMarker.sof0 then sofReads buffer start
    else if marker = JpegMarker.dht then dhtReads buffer start
    else if marker = JpegMarker.sos then
      sosReads buffer start ++
        compressDataReads buffer fuel (start + (getInt16 buffer start).toNat)
    else if marker = JpegMarker.dqt then dqtReads buffer start
    else if marker = JpegMarker.dri then int16Reads (start + 2)
    else int16Reads start

variable (errors : CopyErrors)

/-- Every segment up to the end of the buffer. -/
def segmentsReads (bufferEnd : ℤ) : Nat → Reading → List ℤ
  | 0, _ => []
  | fuel + 1, reading =>
      if reading.start < bufferEnd then
        segmentReads buffer fuel reading.start ++
          match dessambleSegment errors buffer fuel reading with
          | some (true, reading') => segmentsReads bufferEnd fuel reading'
          | _ => []
      else []

def dessambleJpegReads (fuel : Nat) (bufferLen : ℤ) : List ℤ :=
  segmentsReads buffer errors bufferLen fuel
    { start := 0, decInfo := CodecJpegDecInfo.blank, compressBuffer := .none }

end Offsets

/-! ## The interval that each part reads -/

variable {m : Buffer} {pos dataEnd : ℤ} {fuel : Nat}

/-- A segment that is read can be left out. -/
theorem segmentsReads_of_segment {errors : CopyErrors} {bufferEnd : ℤ} {reading reading' : Reading}
    (before : reading.start < bufferEnd)
    (segment : dessambleSegment errors m fuel reading = some (true, reading')) :
    segmentsReads m errors bufferEnd (fuel + 1) reading =
      segmentReads m fuel reading.start ++ segmentsReads m errors bufferEnd fuel reading' := by
  rw [segmentsReads, if_pos before, segment]

theorem covers_int8Reads (pos : ℤ) : Covers (int8Reads pos) pos (pos + 1) := by
  intro k
  rw [int8Reads, List.mem_singleton]
  omega

theorem covers_int16Reads (pos : ℤ) : Covers (int16Reads pos) pos (pos + 2) := by
  intro k
  rw [int16Reads, List.mem_cons, List.mem_singleton]
  omega

theorem covers_sofComponentReads (pos : ℤ) : Covers (sofComponentReads pos) pos (pos + 3) := by
  intro k
  simp only [sofComponentReads, List.mem_append, (covers_int8Reads _) k]
  omega

theorem covers_sofReads (m : Buffer) (pos : ℤ) :
    Covers (sofReads m pos) pos (pos + 8 + (3 * (getInt8 m (pos + 7)).toNat : Nat)) := by
  intro k
  have components := covers_counted covers_sofComponentReads (getInt8 m (pos + 7)).toNat (pos + 8) k
  simp only [sofReads, List.mem_append, (covers_int8Reads _) k, (covers_int16Reads _) k, components]
  omega

theorem covers_sosComponentReads (pos : ℤ) : Covers (sosComponentReads pos) pos (pos + 2) := by
  intro k
  simp only [sosComponentReads, List.mem_append, (covers_int8Reads _) k]
  omega

theorem covers_sosReads (m : Buffer) (pos : ℤ) :
    Covers (sosReads m pos) pos (pos + 3 + (2 * (getInt8 m (pos + 2)).toNat : Nat)) := by
  intro k
  have components := covers_counted covers_sosComponentReads (getInt8 m (pos + 2)).toNat (pos + 3) k
  simp only [sosReads, List.mem_append, (covers_int8Reads _) k, (covers_int16Reads _) k, components]
  omega

/-- The search reads up to the end marker and over it. -/
theorem covers_findEoiReads (found : findEoi m fuel pos = some dataEnd) :
    Covers (findEoiReads m fuel pos) pos (dataEnd + 2) := by
  induction fuel generalizing pos with
  | zero => cases found
  | succ fuel ih =>
      have before := le_of_findEoi found
      rw [findEoi] at found
      rw [findEoiReads]
      intro k
      split at found
      · next other =>
          have later := le_of_findEoi found
          simp only [if_pos other, List.mem_append, covers_int8Reads pos k, ih found k]
          omega
      · next marker =>
          rw [if_neg marker]
          split at found
          · next other =>
              have later := le_of_findEoi found
              simp only [if_pos other, List.mem_append, (covers_int8Reads _) k, ih found k]
              omega
          · next last =>
              obtain rfl := Option.some.inj found
              simp only [if_neg last, List.mem_append, (covers_int8Reads _) k]
              omega

/-- The copy reads nothing that the search has not read. -/
theorem covers_compressDataReads (found : findEoi m fuel pos = some dataEnd) :
    Covers (compressDataReads m fuel pos) pos (dataEnd + 2) := by
  intro k
  have before := le_of_findEoi found
  have copied := covers_counted covers_int8Reads (dataEnd - pos).toNat pos k
  simp only [compressDataReads, found, List.mem_append, covers_findEoiReads found k, copied]
  omega

theorem covers_quantTableReads (m : Buffer) (pos : ℤ) :
    Covers (quantTableReads m pos) pos (pos + quantTableSize m pos) := by
  intro k
  have entries := covers_counted covers_int16Reads (quantEntries (getInt8 m pos)) (pos + 1) k
  simp only [quantTableReads, quantTableSize, List.mem_append, covers_int8Reads pos k, entries]
  omega

theorem covers_huffTableReads (m : Buffer) (pos : ℤ) :
    Covers (huffTableReads m pos) pos (pos + huffTableSize m pos) := by
  intro k
  have bits := covers_counted covers_int8Reads 16 (pos + 1) k
  have values := covers_counted covers_int8Reads (huffValues m pos) (pos + 17) k
  simp only [huffTableReads, huffTableSize, List.mem_append, covers_int8Reads pos k, bits, values]
  omega

/-- The tables reach as far as the last one that begins in the segment. -/
theorem covers_dqtReads (m : Buffer) (pos : ℤ) :
    ∃ behind, Blocks (quantTableSize m) (pos + (getInt16 m pos).toNat) (pos + 2) behind ∧
      Covers (dqtReads m pos) pos behind := by
  have enough : pos + ((getInt16 m pos).toNat : ℤ) ≤ pos + 2 + (getInt16 m pos).toNat := by omega
  obtain ⟨behind, tables, reads⟩ := covers_chained (covers_quantTableReads m)
    (fun pos => Nat.add_pos_left Nat.one_pos _) enough
  have reaches := tables.le
  exact ⟨behind, tables, (covers_int16Reads pos).append reads (by omega) reaches⟩

theorem covers_dhtReads (m : Buffer) (pos : ℤ) :
    ∃ behind, Blocks (huffTableSize m) (pos + (getInt16 m pos).toNat) (pos + 2) behind ∧
      Covers (dhtReads m pos) pos behind := by
  have enough : pos + ((getInt16 m pos).toNat : ℤ) ≤ pos + 2 + (getInt16 m pos).toNat := by omega
  obtain ⟨behind, tables, reads⟩ := covers_chained (covers_huffTableReads m)
    (fun pos => Nat.add_pos_left (Nat.succ_pos 16) _) enough
  have reaches := tables.le
  exact ⟨behind, tables, (covers_int16Reads pos).append reads (by omega) reaches⟩

end RockchipSoc.Jpeg
