import RockchipSoc.Jpeg.Scan

/-!
# The loop over the segments

What the reader makes of a buffer does not depend on how long it is given, and a segment that is
read can be left out of it.
-/

namespace RockchipSoc.Jpeg

open Emit

variable {errors : CopyErrors} {m : Buffer} {bufferEnd pos : ℤ} {reading reading' : Reading}
  {answer answer' : Bool × Reading} {fuel fuel' : Nat}

/-! ## The compressed bytes -/

theorem dessambleCompressData_of_findEoi {fuel : Nat} {dataEnd : ℤ}
    (found : findEoi m fuel pos = some dataEnd) (nonempty : pos < dataEnd) :
    dessambleCompressData errors m fuel pos =
      some (dataEnd - pos, some (cellsAt m pos (dataEnd - pos).toNat)) := by
  obtain ⟨count, length⟩ : ∃ count : Nat, (dataEnd - pos).toNat = count + 1 :=
    ⟨(dataEnd - pos).toNat - 1, by omega⟩
  have copied : (memcpyS errors m 0 (some (cellsAt m pos (dataEnd - pos).toNat))).2 = 0 := by
    rw [length, cellsAt, List.range_succ_eq_map]
    rfl
  have size : ((dataEnd - pos).toNat : ℤ) = dataEnd - pos := by omega
  rw [dessambleCompressData, found, Option.map_some]
  simp only [copied, ne_eq, not_true_eq_false, if_false, size]

/-! ## More time -/

theorem dessambleCompressData_mono {copied : ℤ × Option (List Byte)}
    (read : dessambleCompressData errors m fuel pos = some copied) (more : fuel ≤ fuel') :
    dessambleCompressData errors m fuel' pos = some copied := by
  obtain ⟨dataEnd, found, rfl⟩ := Option.map_eq_some_iff.mp read
  rw [dessambleCompressData, findEoi_mono found more, Option.map_some]

theorem dessambleSegment_mono (read : dessambleSegment errors m fuel reading = some answer)
    (more : fuel ≤ fuel') : dessambleSegment errors m fuel' reading = some answer := by
  by_cases scan : findMarker m reading.start = JpegMarker.sos
  · simp only [dessambleSegment, scan] at read ⊢
    obtain ⟨header, headerRead, rest⟩ := Option.bind_eq_some_iff.mp read
    obtain ⟨copied, copy, rfl⟩ := Option.map_eq_some_iff.mp rest
    have later := dessambleCompressData_mono copy more
    exact Option.bind_eq_some_iff.mpr ⟨header, headerRead, Option.map_eq_some_iff.mpr
      ⟨copied, later, rfl⟩⟩
  · simp only [dessambleSegment, if_neg scan] at read ⊢
    exact read

theorem dessambleSegments_mono
    (read : dessambleSegments errors m bufferEnd fuel reading = some answer)
    (more : fuel ≤ fuel') : dessambleSegments errors m bufferEnd fuel' reading = some answer := by
  induction fuel generalizing reading fuel' with
  | zero => cases read
  | succ fuel ih =>
      obtain ⟨fuel', rfl⟩ : ∃ rest, fuel' = rest + 1 := ⟨fuel' - 1, by omega⟩
      have less := Nat.le_of_succ_le_succ more
      rw [dessambleSegments] at read ⊢
      split at read
      · rename_i before
        obtain ⟨segment, segmentRead, rest⟩ := Option.bind_eq_some_iff.mp read
        rw [if_pos before, dessambleSegment_mono segmentRead less, Option.bind_some]
        split at rest
        · rename_i goes
          rw [if_pos goes]
          exact ih rest less
        · rename_i stops
          rw [if_neg stops]
          exact rest
      · rename_i behind
        rw [if_neg behind]
        exact read

/-! ## What the reader makes of the buffer -/

/-- The reader comes to the answer, given time enough. -/
def Reads (errors : CopyErrors) (m : Buffer) (bufferEnd : ℤ) (reading : Reading)
    (answer : Bool × Reading) : Prop :=
  ∃ fuel, dessambleSegments errors m bufferEnd fuel reading = some answer

/-- The next segment is read. -/
def Leads (errors : CopyErrors) (m : Buffer) (reading reading' : Reading) : Prop :=
  ∃ fuel, dessambleSegment errors m fuel reading = some (true, reading')

theorem Leads.eq_of_read (leads : Leads errors m reading reading')
    (read : dessambleSegment errors m fuel reading = some answer) : answer = (true, reading') := by
  obtain ⟨fuel', read'⟩ := leads
  have later := dessambleSegment_mono read (Nat.le_max_left fuel fuel')
  have later' := dessambleSegment_mono read' (Nat.le_max_right fuel fuel')
  exact Option.some.inj (later.symm.trans later')

theorem Reads.unique (reads : Reads errors m bufferEnd reading answer)
    (reads' : Reads errors m bufferEnd reading answer') : answer = answer' := by
  obtain ⟨fuel, read⟩ := reads
  obtain ⟨fuel', read'⟩ := reads'
  have later := dessambleSegments_mono read (Nat.le_max_left fuel fuel')
  have later' := dessambleSegments_mono read' (Nat.le_max_right fuel fuel')
  exact Option.some.inj (later.symm.trans later')

theorem reads_of_end (behind : ¬reading.start < bufferEnd) :
    Reads errors m bufferEnd reading (true, reading) :=
  ⟨1, by rw [dessambleSegments, if_neg behind]⟩

/-- A segment that is read can be left out. -/
theorem Leads.reads_iff (leads : Leads errors m reading reading')
    (before : reading.start < bufferEnd) :
    Reads errors m bufferEnd reading answer ↔ Reads errors m bufferEnd reading' answer := by
  obtain ⟨fuel, segment⟩ := leads
  constructor
  · rintro ⟨total, read⟩
    obtain ⟨total, rfl⟩ : ∃ rest, total = rest + 1 := by
      cases total with
      | zero => cases read
      | succ rest => exact ⟨rest, rfl⟩
    rw [dessambleSegments, if_pos before] at read
    obtain ⟨segment', segmentRead, rest⟩ := Option.bind_eq_some_iff.mp read
    obtain rfl := Leads.eq_of_read ⟨fuel, segment⟩ segmentRead
    exact ⟨total, rest⟩
  · rintro ⟨total, read⟩
    refine ⟨max fuel total + 1, ?_⟩
    rw [dessambleSegments, if_pos before,
      dessambleSegment_mono segment (Nat.le_max_left fuel total), Option.bind_some, if_pos rfl]
    exact dessambleSegments_mono read (Nat.le_max_right fuel total)

/-! ## The number of components -/

theorem getHuffTables_numComponents (segmentEnd : ℤ) (fuel : Nat) (pos : ℤ)
    (decInfo : CodecJpegDecInfo) :
    (getHuffTables m segmentEnd fuel pos decInfo).numComponents = decInfo.numComponents := by
  induction fuel generalizing pos decInfo with
  | zero => rfl
  | succ fuel ih =>
      rw [getHuffTables]
      split
      · rw [ih]
        split <;> rfl
      · rfl

/-- The number of components is only ever read from a byte. -/
theorem dessambleSegment_numComponents
    (read : dessambleSegment errors m fuel reading = some answer)
    (few : reading.decInfo.numComponents < 256) : answer.2.decInfo.numComponents < 256 := by
  rw [dessambleSegment] at read
  split at read
  · obtain rfl := Option.some.inj read
    exact few
  split at read
  · obtain rfl := Option.some.inj read
    exact (getInt8 m (reading.start + 2 + 7)).isLt
  split at read
  · obtain rfl := Option.some.inj read
    exact (getHuffTables_numComponents _ _ _ _).trans_lt few
  split at read
  · obtain ⟨header, headerRead, rest⟩ := Option.bind_eq_some_iff.mp read
    obtain ⟨copied, -, rfl⟩ := Option.map_eq_some_iff.mp rest
    obtain ⟨compInfo, -, rfl⟩ := Option.map_eq_some_iff.mp headerRead
    exact few
  split at read
  · obtain rfl := Option.some.inj read
    exact few
  split at read
  · obtain rfl := Option.some.inj read
    exact few
  · obtain rfl := Option.some.inj read
    exact few

theorem Reads.numComponents (reads : Reads errors m bufferEnd reading answer)
    (few : reading.decInfo.numComponents < 256) : answer.2.decInfo.numComponents < 256 := by
  obtain ⟨fuel, read⟩ := reads
  induction fuel generalizing reading with
  | zero => cases read
  | succ fuel ih =>
      rw [dessambleSegments] at read
      split at read
      · obtain ⟨segment, segmentRead, rest⟩ := Option.bind_eq_some_iff.mp read
        have still := dessambleSegment_numComponents segmentRead few
        split at rest
        · exact ih still rest
        · obtain rfl := Option.some.inj rest
          exact still
      · obtain rfl := Option.some.inj read
        exact few

end RockchipSoc.Jpeg
