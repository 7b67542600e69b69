import RockchipSoc.Omx.PostOutputFrame

/-!
# The end of the stream reaches the client

A decoder that reports the end of the stream as its result is always passed on.  One that reports it
in the flags of a frame is passed on with that frame, unless the frame is dropped or goes out with
other flags.
-/

namespace RockchipSoc
namespace Omx

variable {dec : VideoDec} {out : DecoderOut} {posted : Posted} {buffer : OutputDataBuffer}
  {dataSize : ℕ} {callbacks more : List ClientCallback}

/-- The client was given a buffer with the flag, or an error. -/
def EosGiven (callbacks : List ClientCallback) : Prop :=
  .eventError ∈ callbacks ∨
    ∃ header nFlags, .fillBufferDone header nFlags ∈ callbacks ∧ nFlags &&& bufferFlagEos ≠ 0

/-- The decoder reports the end of the stream. -/
def ReportsEos (out : DecoderOut) : Prop := out.ret = .eosStreamReached ∨ out.nFlagsEos = true

/-- A frame, if there is one, has the format that the ports have. -/
def FormatKept (dec : VideoDec) (out : DecoderOut) : Prop :=
  0 < out.size →
    (if dec.bufferShare then formatChangedShared dec out.frame
      else formatChangedCopied dec out.frame) = false

/-- The condition under which the end of the stream is passed on. -/
def EosOk (dec : VideoDec) (out : DecoderOut) : Prop :=
  out.ret ≠ .decoded ∨
    if dec.bufferShare then
      out.frame.oversized = true ∨ 0 < out.size ∧ dropsFrame dec out.frame = false ∧
        fd2OmxBufferHeader dec out.frame.fd ≠ none ∧ out.frame.frameType = 0
    else
      out.frame.errorInfo = 0 ∧
        (out.frame.oversized = true ∨ 0 < out.size ∧ out.frame.phyAddr ≠ 0)

theorem eosGiven_nil : ¬EosGiven [] := by
  rintro (error | ⟨header, nFlags, member, -⟩)
  · cases error
  · cases member

theorem EosGiven.of_prefix (given : EosGiven callbacks) (before : callbacks <+: more) :
    EosGiven more := by
  obtain error | ⟨header, nFlags, member, eos⟩ := given
  · exact .inl (before.subset error)
  · exact .inr ⟨header, nFlags, before.subset member, eos⟩

theorem eosGiven_fillBufferDone {header nFlags : ℕ} :
    EosGiven [.fillBufferDone header nFlags] ↔ nFlags &&& bufferFlagEos ≠ 0 := by
  constructor
  · rintro (error | ⟨_, _, member, eos⟩)
    · cases List.mem_singleton.mp error
    · cases List.mem_singleton.mp member
      exact eos
  · exact fun eos => .inr ⟨header, nFlags, List.mem_singleton.mpr rfl, eos⟩

theorem or_bufferFlagEos (nFlags : ℕ) : (nFlags ||| bufferFlagEos) &&& bufferFlagEos = 1 := by
  rw [bufferFlagEos, Nat.and_one_is_mod, Nat.or_mod_two_eq_one]
  exact .inr rfl

/-- A data buffer with the flag is given to the client, with a header from the pool if it has none;
and where the pool has none, there is an error. -/
theorem eosGiven_rkvpuOutputBufferReturn (eos : buffer.nFlags &&& bufferFlagEos ≠ 0) :
    EosGiven (rkvpuOutputBufferReturn dec buffer) := by
  unfold rkvpuOutputBufferReturn
  simp only [eos, ne_eq, not_false_eq_true, if_true]
  split
  · exact .inr ⟨_, _, List.mem_append_right _ (List.mem_singleton.mpr rfl), eos⟩
  · exact .inl (List.mem_singleton.mpr rfl)

/-- A result below zero reaches the client, whatever it is. -/
theorem eosGiven_postDecodeReturn (negative : out.ret ≠ .decoded) :
    EosGiven (postDecodeReturn dec out).callbacks := by
  unfold postDecodeReturn
  cases ret : out.ret with
  | decoded => exact absurd ret negative
  | failed => exact .inl List.mem_cons_self
  | eosStreamReached =>
      dsimp only
      split
      · exact eosGiven_rkvpuOutputBufferReturn (by rw [or_bufferFlagEos]; exact one_ne_zero)
      · exact .inl List.mem_cons_self

/-! ### Shared buffers -/

/-- What comes behind the result only adds to the callbacks. -/
theorem postSharedFrame_callbacks (dec : VideoDec) (posted : Posted) (out : DecoderOut) :
    posted.callbacks <+: (postSharedFrame dec posted out).callbacks := by
  unfold postSharedFrame
  split
  · exact List.prefix_append _ _
  · split
    · exact List.prefix_rfl
    · split
      · exact List.prefix_rfl
      · dsimp only
        split
        · exact List.prefix_append _ _
        · exact List.prefix_rfl

theorem postCopiedFrame_callbacks (dec : VideoDec) (posted : Posted) (out : DecoderOut)
    (dataSize : ℕ) :
    posted.callbacks <+: (postCopiedFrame dec posted out dataSize).callbacks := by
  unfold postCopiedFrame
  split
  · exact List.prefix_append _ _
  · split
    · exact List.prefix_rfl
    · split
      · exact List.prefix_rfl
      · dsimp only
        generalize (if out.nFlagsEos then posted.outputDataBuffer.nFlags ||| bufferFlagEos
          else posted.outputDataBuffer.nFlags) = nFlags
        split
        · exact List.prefix_append _ _
        · exact List.prefix_rfl

theorem postShared_callbacks (dec : VideoDec) (out : DecoderOut) (asks : asksShared dec = true) :
    (postDecodeReturn dec out).callbacks <+: (postShared dec out).callbacks := by
  simp only [postShared, asks, if_true]
  split
  · exact List.prefix_append _ _
  · split
    · exact postSharedFrame_callbacks dec _ out
    · split
      · exact List.prefix_append _ _
      · exact List.prefix_rfl

theorem postCopied_callbacks (dec : VideoDec) (out : DecoderOut) (dataSize : ℕ) :
    (postDecodeReturn dec out).callbacks <+: (postCopied dec out dataSize).callbacks := by
  unfold postCopied
  dsimp only
  split
  · exact List.prefix_rfl
  · split
    · exact List.prefix_append _ _
    · split
      · exact postCopiedFrame_callbacks dec _ out dataSize
      · split
        · exact List.prefix_append _ _
        · exact List.prefix_rfl

/-- The flags that a frame with the end of the stream goes out with. -/
theorem sharedFlags_iff (header : OutputHeader) (eos : out.nFlagsEos = true) :
    sharedFlags header out &&& bufferFlagEos = bufferFlagEos ↔ out.frame.frameType = 0 := by
  unfold sharedFlags
  rw [if_pos eos]
  by_cases key : out.frame.frameType > 0
  · rw [if_pos key]
    exact iff_of_false (by decide) (Nat.ne_of_gt key)
  · rw [if_neg key]
    exact iff_of_true (or_bufferFlagEos _) (Nat.eq_zero_of_not_pos key)

theorem and_bufferFlagEos (nFlags : ℕ) :
    nFlags &&& bufferFlagEos ≠ 0 ↔ nFlags &&& bufferFlagEos = bufferFlagEos := by
  rw [bufferFlagEos, Nat.and_one_is_mod]
  omega

/-- A frame with the flag reaches the client with it when it is not dropped, a header is found for
its memory, and it is no key frame. -/
theorem eosGiven_postSharedFrame (eos : out.nFlagsEos = true)
    (kept : formatChangedShared dec out.frame = false) (silent : posted.callbacks = []) :
    EosGiven (postSharedFrame dec posted out).callbacks ↔ dropsFrame dec out.frame = false ∧
      fd2OmxBufferHeader dec out.frame.fd ≠ none ∧ out.frame.frameType = 0 := by
  unfold postSharedFrame
  rw [kept, if_neg Bool.false_ne_true]
  by_cases drops : dropsFrame dec out.frame = true
  · rw [if_pos drops, silent]
    exact iff_of_false eosGiven_nil fun ok => Bool.false_ne_true (ok.1.symm.trans drops)
  · rw [if_neg drops, and_iff_right (Bool.eq_false_iff.mpr drops)]
    cases found : fd2OmxBufferHeader dec out.frame.fd with
    | none =>
        dsimp only
        rw [silent]
        exact iff_of_false eosGiven_nil fun ok => ok.1 rfl
    | some header =>
        rw [and_iff_right (Option.some_ne_none _), ← sharedFlags_iff header eos]
        dsimp only
        split
        · simp only [Posted.calls, silent, List.nil_append, omxOutputBufferReturn]
          rw [eosGiven_fillBufferDone, and_bufferFlagEos]
        · rename_i empty
          rw [silent]
          exact iff_of_false eosGiven_nil fun flagged => empty (.inr (.inl flagged))

/-- An error behind what was called before. -/
theorem eosGiven_calls_eventError (posted : Posted) :
    EosGiven (posted.calls [.eventError]).callbacks :=
  .inl (List.mem_append_right _ (List.mem_singleton.mpr rfl))

theorem eosGiven_postShared (asks : asksShared dec = true) (unflushed : dec.bIsPortFlushed = false)
    (kept : 0 < out.size → formatChangedShared dec out.frame = false)
    (decoded : out.ret = .decoded) (eos : out.nFlagsEos = true) :
    EosGiven (postShared dec out).callbacks ↔
      out.frame.oversized = true ∨ 0 < out.size ∧ dropsFrame dec out.frame = false ∧
        fd2OmxBufferHeader dec out.frame.fd ≠ none ∧ out.frame.frameType = 0 := by
  have silent : (postDecodeReturn dec out).callbacks = [] := by
    rw [postDecodeReturn, decoded]
  simp only [postShared, asks, if_true, unflushed, Bool.false_eq_true, not_false_eq_true, and_true,
    if_false]
  by_cases large : out.frame.oversized = true
  · rw [if_pos large]
    exact iff_of_true (eosGiven_calls_eventError _) (.inl large)
  · rw [if_neg large, or_iff_right large]
    by_cases filled : out.size > 0
    · rw [if_pos filled, and_iff_right filled]
      exact eosGiven_postSharedFrame eos (kept filled) silent
    · rw [if_neg filled, silent]
      exact iff_of_false eosGiven_nil fun ok => filled ok.1

/-! ### Copied buffers -/

theorem eosGiven_postCopiedFrame (eos : out.nFlagsEos = true)
    (kept : formatChangedCopied dec out.frame = false) (silent : posted.callbacks = []) :
    EosGiven (postCopiedFrame dec posted out dataSize).callbacks ↔ out.frame.phyAddr ≠ 0 := by
  unfold postCopiedFrame
  rw [kept, if_neg Bool.false_ne_true]
  by_cases null : out.frame.phyAddr = 0
  · rw [if_pos null, silent]
    exact iff_of_false eosGiven_nil fun ok => ok null
  · have new : repeatedFrame dec out ≠ true := by
      simp [repeatedFrame, eos]
    have flagged : (posted.outputDataBuffer.nFlags ||| bufferFlagEos) &&& bufferFlagEos =
        bufferFlagEos := or_bufferFlagEos _
    simp only [if_neg null, if_neg new, eos, if_true, flagged, true_or, or_true]
    refine iff_of_true ?_ null
    simp only [Posted.calls, silent, List.nil_append]
    exact eosGiven_rkvpuOutputBufferReturn ((and_bufferFlagEos _).mpr flagged)

theorem eosGiven_postCopied (unflushed : dec.bIsPortFlushed = false)
    (kept : 0 < out.size → formatChangedCopied dec out.frame = false)
    (decoded : out.ret = .decoded) (eos : out.nFlagsEos = true) :
    EosGiven (postCopied dec out dataSize).callbacks ↔ out.frame.errorInfo = 0 ∧
      (out.frame.oversized = true ∨ 0 < out.size ∧ out.frame.phyAddr ≠ 0) := by
  have silent : (postDecodeReturn dec out).callbacks = [] := by
    rw [postDecodeReturn, decoded]
  simp only [postCopied, unflushed, Bool.false_eq_true, not_false_eq_true, and_true, if_false]
  by_cases marked : out.frame.errorInfo = 0
  · rw [if_neg (not_not_intro marked), and_iff_right marked]
    by_cases large : out.frame.oversized = true
    · rw [if_pos large]
      exact iff_of_true (eosGiven_calls_eventError _) (.inl large)
    · rw [if_neg large, or_iff_right large]
      by_cases filled : out.size > 0
      · rw [if_pos filled, and_iff_right filled]
        exact eosGiven_postCopiedFrame eos (kept filled) silent
      · rw [if_neg filled, silent]
        exact iff_of_false eosGiven_nil fun ok => filled ok.1
  · rw [if_pos marked, silent]
    exact iff_of_false eosGiven_nil fun ok => marked ok.1

/-! ### The call -/

/-- A call that asks the decoder goes by the mode of the port. -/
theorem rkvpuPostOutputFrame_eq (asks : asksDecoder dec = true) :
    (dec.bufferShare = true → asksShared dec = true ∧
        rkvpuPostOutputFrame dec out dataSize = postShared dec out) ∧
      (dec.bufferShare = false →
        rkvpuPostOutputFrame dec out dataSize = postCopied dec out dataSize) := by
  simp only [asksDecoder, Bool.and_eq_true, Bool.not_eq_true'] at asks
  obtain ⟨⟨⟨context, started⟩, unsent⟩, asks⟩ := asks
  simp only [rkvpuPostOutputFrame, context, started, unsent, Bool.not_true, Bool.or_self,
    Bool.false_eq_true, if_false]
  constructor
  · intro share
    rw [if_pos share] at asks
    exact ⟨asks, if_pos share⟩
  · intro copy
    rw [copy, if_neg Bool.false_ne_true] at asks
    rw [copy, if_neg Bool.false_ne_true, if_pos asks]

/-- A report of the end of the stream reaches the client exactly when it meets the condition. -/
theorem end_of_stream_given_iff (dec : VideoDec) (out : DecoderOut) (dataSize : ℕ)
    (asks : asksDecoder dec = true) (unflushed : dec.bIsPortFlushed = false)
    (kept : FormatKept dec out) (reports : ReportsEos out) :
    EosGiven (rkvpuPostOutputFrame dec out dataSize).callbacks ↔ EosOk dec out := by
  obtain ⟨shared, copied⟩ := rkvpuPostOutputFrame_eq asks
  unfold FormatKept at kept
  unfold EosOk
  by_cases decoded : out.ret = .decoded
  · have eos : out.nFlagsEos = true := reports.resolve_left fun ended => by
      rw [decoded] at ended
      cases ended
    rw [or_iff_right (not_not_intro decoded)]
    cases mode : dec.bufferShare with
    | true =>
        obtain ⟨asks, result⟩ := shared mode
        rw [mode, if_pos rfl] at kept
        rw [result, if_pos rfl]
        exact eosGiven_postShared asks unflushed kept decoded eos
    | false =>
        rw [mode, if_neg Bool.false_ne_true] at kept
        rw [copied mode, if_neg Bool.false_ne_true]
        exact eosGiven_postCopied unflushed kept decoded eos
  · refine iff_of_true ?_ (.inl decoded)
    have given : EosGiven (postDecodeReturn dec out).callbacks := eosGiven_postDecodeReturn decoded
    cases mode : dec.bufferShare with
    | true =>
        obtain ⟨asks, result⟩ := shared mode
        rw [result]
        exact given.of_prefix (postShared_callbacks dec out asks)
    | false =>
        rw [copied mode]
        exact given.of_prefix (postCopied_callbacks dec out dataSize)

/-- A decoder of a port that shares one buffer. -/
def sharingDec : VideoDec where
  vpuCtx := true
  bFirstFrame := false
  bDecSendEOS := false
  bufferShare := true
  bIsPortFlushed := false
  bGtsMediaTest := false
  bDRMPlayerMode := false
  bStoreMetaData := false
  mpeg2 := false
  maxCount := 0
  lastPts := 0
  formats := ⟨1920, 1080, 1088, 1920, 0⟩
  slots := [⟨some ⟨1, 0, 3110400⟩, true, 5, false⟩]
  outputDataBuffer := resetDataBuffer
  poolFds := fun _ => none

/-- The last frame of a stream; a key frame where its type is not zero. -/
def lastFrame (frameType : ℕ) : DecoderOut :=
  ⟨.decoded, 3133440, 40000, true, ⟨1920, 1080, 1920, 1088, frameType, 0, 4096, 5, 0⟩⟩

theorem end_of_stream_given_lastFrame :
    EosGiven (rkvpuPostOutputFrame sharingDec (lastFrame 0) 0).callbacks ↔
      EosOk sharingDec (lastFrame 0) :=
  end_of_stream_given_iff sharingDec (lastFrame 0) 0 rfl rfl (fun _ => rfl) (.inr rfl)

/-- A stream that ends in a key frame: the client gets the frame, and not its end. -/
theorem end_of_stream_lost_with_key_frame :
    asksDecoder sharingDec = true ∧ FormatKept sharingDec (lastFrame 1) ∧
      ReportsEos (lastFrame 1) ∧
      (rkvpuPostOutputFrame sharingDec (lastFrame 1) 0).callbacks =
        [.fillBufferDone 1 bufferFlagSyncFrame] ∧
      ¬EosGiven (rkvpuPostOutputFrame sharingDec (lastFrame 1) 0).callbacks := by
  have callbacks : (rkvpuPostOutputFrame sharingDec (lastFrame 1) 0).callbacks =
      [.fillBufferDone 1 bufferFlagSyncFrame] := by decide
  refine ⟨rfl, fun _ => rfl, .inr rfl, callbacks, ?_⟩
  rw [callbacks, eosGiven_fillBufferDone]
  decide

end Omx
end RockchipSoc
