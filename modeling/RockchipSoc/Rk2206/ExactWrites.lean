import RockchipSoc.Rk2206.PartitionIsolation

/-!
# What a write leaves on the flash

A write is made block by block: the first and the last block are read, erased, changed and written
again, the blocks between are replaced.  The first block is always filled up to its end.
-/

namespace RockchipSoc
namespace Rk2206

/-! ### Bytes laid over others -/

/-- The contents of a memory with a number of bytes laid over it from an address on. -/
def overlay (contents : Nat → UInt8) (start count : Nat) (data : Memory) : Nat → UInt8 :=
  fun a => if start ≤ a ∧ a < start + count then data (a - start) else contents a

section overlay

variable {contents : Nat → UInt8} {start count more k a : Nat} {data data' : Memory}

theorem overlay_of_inside (inside : k < count) : overlay contents start count data (start + k) =
    data k := by
  rw [overlay, if_pos ⟨Nat.le_add_right _ _, Nat.add_lt_add_left inside _⟩, Nat.add_sub_cancel_left]

theorem overlay_of_outside (outside : a < start ∨ start + count ≤ a) :
    overlay contents start count data a = contents a :=
  if_neg (by omega)

/-- Bytes laid over behind those of the same data. -/
theorem overlay_append :
    overlay (overlay contents start count data) (start + count) more (fun k => data (count + k)) =
      overlay contents start (count + more) data := by
  funext a
  unfold overlay
  by_cases behind : start + count ≤ a ∧ a < start + count + more
  · rw [if_pos behind, if_pos (by omega)]
    exact congrArg data (by omega)
  · rw [if_neg behind]
    by_cases before : start ≤ a ∧ a < start + count
    · rw [if_pos before, if_pos (by omega)]
    · rw [if_neg before, if_neg (by omega)]

/-- A whole range laid over, of which only a part differs from the contents. -/
theorem overlay_part (first length : Nat) (data' : Memory) (within : first + length ≤ count)
    (inside : ∀ k < length, data (first + k) = data' k)
    (outside : ∀ k < count, k < first ∨ first + length ≤ k → data k = contents (start + k)) :
    overlay contents start count data = overlay contents (start + first) length data' := by
  funext a
  unfold overlay
  by_cases range : start ≤ a ∧ a < start + count
  · rw [if_pos range]
    by_cases part : start + first ≤ a ∧ a < start + first + length
    · rw [if_pos part, ← inside (a - (start + first)) (by omega)]
      exact congrArg data (by omega)
    · rw [if_neg part, outside (a - start) (by omega) (by omega)]
      exact congrArg contents (by omega)
  · rw [if_neg range, if_neg (by omega)]

end overlay

/-! ### A flash that does what it is told -/

/-- The calls of the flash succeed and act on exactly the range they are given: a read gives the
bytes of the range, an erase sets them, and a write to erased bytes lays the buffer's over them and
depends on no byte of the buffer behind them. -/
structure ActsExactly {σ : Type*} (device : FlashDevice σ) (contents : σ → Nat → UInt8) : Prop where
  read : ∀ state addr size, ∃ next data, device.flashRead state addr size = (next, some data) ∧
    contents next = contents state ∧
    ∀ k < size.toNat, data k = contents state (addr.toNat + k)
  erase : ∀ state addr size, ∃ next, device.flashErase state addr size = (next, true) ∧
    contents next = overlay (contents state) addr.toNat size.toNat fun _ => 0xff
  write : ∀ state addr size data, (∀ k < size.toNat, contents state (addr.toNat + k) = 0xff) →
    ∃ next, device.flashWrite state addr size data = (next, true) ∧
      contents next = overlay (contents state) addr.toNat size.toNat data
  write_congr : ∀ state addr size data data', (∀ k < size.toNat, data k = data' k) →
    device.flashWrite state addr size data = device.flashWrite state addr size data'

variable {σ : Type*} {device : FlashDevice σ} {contents : σ → Nat → UInt8} {flash other : Flash σ}
  {address blockSize : UInt32} {data data' : Memory} {change change' : Memory → Memory}

section device

variable (acts : ActsExactly device contents)

include acts

theorem ActsExactly.replaceBlock (flash : Flash σ) (address blockSize : UInt32) (data : Memory) :
    ∃ next, replaceBlock device flash address blockSize data = (next, true) ∧
      contents next.state = overlay (contents flash.state) address.toNat blockSize.toNat data := by
  obtain ⟨erased, erase, blank⟩ := acts.erase flash.state address blockSize
  obtain ⟨written, write, laid⟩ := acts.write erased address blockSize data fun k inside => by
    rw [blank, overlay_of_inside inside]
  refine ⟨⟨written, flash.calls ++ [.flashErase address blockSize] ++
    [.flashWrite address blockSize data]⟩, ?_, ?_⟩
  · simp only [Rk2206.replaceBlock, flashErase, erase, flashWrite, write]
  · rw [laid, blank]
    funext a
    unfold overlay
    split <;> rfl

theorem ActsExactly.replaceBlock_congr (same : flash.state = other.state)
    (agree : ∀ k < blockSize.toNat, data k = data' k) :
    (Rk2206.replaceBlock device flash address blockSize data).1.state =
        (Rk2206.replaceBlock device other address blockSize data').1.state ∧
      (Rk2206.replaceBlock device flash address blockSize data).2 =
        (Rk2206.replaceBlock device other address blockSize data').2 := by
  obtain ⟨erased, erase, -⟩ := acts.erase other.state address blockSize
  simp only [Rk2206.replaceBlock, flashErase, same, erase, flashWrite,
    acts.write_congr erased address blockSize data data' agree, and_self]

theorem ActsExactly.rewriteBlock (flash : Flash σ) (address blockSize : UInt32)
    (change : Memory → Memory) :
    ∃ next buffer, rewriteBlock device flash address blockSize change = (next, true) ∧
      (∀ k < blockSize.toNat, buffer k = contents flash.state (address.toNat + k)) ∧
      contents next.state =
        overlay (contents flash.state) address.toNat blockSize.toNat (change buffer) := by
  obtain ⟨before, buffer, read, same, bytes⟩ := acts.read flash.state address blockSize
  obtain ⟨next, replaced, laid⟩ := acts.replaceBlock
    ⟨before, flash.calls ++ [.flashRead address blockSize]⟩ address blockSize (change buffer)
  refine ⟨next, buffer, ?_, bytes, ?_⟩
  · rw [← replaced]
    simp only [Rk2206.rewriteBlock, flashRead, read]
    rfl
  · rw [laid, same]

theorem ActsExactly.rewriteBlock_congr (same : flash.state = other.state)
    (agree : ∀ buffer, ∀ k < blockSize.toNat, change buffer k = change' buffer k) :
    (Rk2206.rewriteBlock device flash address blockSize change).1.state =
        (Rk2206.rewriteBlock device other address blockSize change').1.state ∧
      (Rk2206.rewriteBlock device flash address blockSize change).2 =
        (Rk2206.rewriteBlock device other address blockSize change').2 := by
  obtain ⟨before, buffer, read, -, -⟩ := acts.read other.state address blockSize
  have replaced := @ActsExactly.replaceBlock_congr σ device contents
    ⟨before, flash.calls ++ [.flashRead address blockSize]⟩
    ⟨before, other.calls ++ [.flashRead address blockSize]⟩ address blockSize (change buffer)
    (change' buffer) acts rfl (agree buffer)
  simp only [Rk2206.rewriteBlock, flashRead, same, read]
  exact replaced

end device

/-! ### The copy of `memcpy_s` -/

variable {dest src src' : Memory} {start destMax srcOffset count : UInt32} {k : Nat}

theorem memcpyS_of_inside (some : destMax ≠ 0) (small : destMax.toNat ≤ 0x7fffffff)
    (fits : count ≤ destMax) (inside : k < count.toNat) :
    memcpyS dest start destMax src srcOffset count (start.toNat + k) =
      src (srcOffset.toNat + k) := by
  have large : ¬(destMax = 0 ∨ 0x7fffffff < destMax) := by
    rintro (zero | large)
    · exact some zero
    · exact absurd (UInt32.lt_iff_toNat_lt.mp large) (Nat.not_lt.mpr small)
  unfold memcpyS
  rw [if_neg large, if_neg (UInt32.not_lt.mpr fits), if_pos (by omega), Nat.add_sub_cancel_left]

theorem memcpyS_of_outside (fits : count ≤ destMax)
    (outside : k < start.toNat ∨ start.toNat + count.toNat ≤ k) :
    memcpyS dest start destMax src srcOffset count k = dest k := by
  have other : ¬(start.toNat ≤ k ∧ k < start.toNat + count.toNat) := by omega
  unfold memcpyS
  rw [if_neg (UInt32.not_lt.mpr fits), if_neg other, ite_self]

theorem memcpyS_of_large (large : 0x7fffffff < destMax) :
    memcpyS dest start destMax src srcOffset count = dest :=
  funext fun _ => if_pos (.inr large)

theorem memcpyS_congr (agree : ∀ i < count.toNat, src (srcOffset.toNat + i) =
    src' (srcOffset.toNat + i)) : memcpyS dest start destMax src srcOffset count =
      memcpyS dest start destMax src' srcOffset count := by
  funext k
  unfold memcpyS
  split
  · rfl
  · split
    · rfl
    · split
      · next inside => exact agree _ (by omega)
      · rfl

/-! ### The rounds of a write -/

/-- A range of a few bytes whose end does not wrap. -/
structure Unwrapped (range : WriteRange) : Prop where
  positive : 0 < range.blockSize.toNat
  nonempty : 0 < range.size.toNat
  fits : range.addr.toNat + range.size.toNat < 2 ^ 32

/-- The end of the range, and the number of the first block behind it. -/
def WriteRange.stop (range : WriteRange) : Nat := range.addr.toNat + range.size.toNat

def WriteRange.stopBlock (range : WriteRange) : Nat :=
  BlockCover.blockStop range.blockSize.toNat range.stop

/-- The bytes from the start of the range up to the end of its first block. -/
def WriteRange.firstLength (range : WriteRange) : Nat :=
  range.blockSize.toNat - range.addr.toNat % range.blockSize.toNat

variable {range : WriteRange} {blockOffset strOffset : UInt32}

section rounds

variable (unwrapped : Unwrapped range)

include unwrapped

theorem Unwrapped.toNat_blockEnd : range.blockEnd.toNat = range.stopBlock := by
  rw [Rk2206.toNat_blockEnd range unwrapped.positive, toNat_add_of_lt unwrapped.fits]
  rfl

omit unwrapped in
theorem toNat_blockStart (range : WriteRange) :
    range.blockStart.toNat = range.addr.toNat / range.blockSize.toNat := UInt32.toNat_div ..

omit unwrapped in
theorem firstBlock_parts (range : WriteRange) :
    range.addr.toNat / range.blockSize.toNat * range.blockSize.toNat +
      range.addr.toNat % range.blockSize.toNat = range.addr.toNat :=
  Nat.div_add_mod' ..

/-- A block of the range begins before the range ends. -/
theorem Unwrapped.block_lt (inside : blockOffset.toNat < range.stopBlock) :
    blockOffset.toNat * range.blockSize.toNat < range.stop := by
  rw [← Nat.not_le, ← BlockCover.blockStop_le_iff unwrapped.positive, Nat.not_le]
  exact inside

theorem Unwrapped.blockStart_lt : range.blockStart.toNat < range.stopBlock := by
  rw [← Nat.not_le, WriteRange.stopBlock, BlockCover.blockStop_le_iff unwrapped.positive,
    toNat_blockStart]
  have parts := firstBlock_parts range
  have some := unwrapped.nonempty
  unfold WriteRange.stop
  omega

theorem Unwrapped.toNat_address (inside : blockOffset.toNat < range.stopBlock) :
    (blockOffset * range.blockSize).toNat = blockOffset.toNat * range.blockSize.toNat := by
  refine toNat_mul_of_lt ?_
  have below := unwrapped.block_lt inside
  have fits := unwrapped.fits
  unfold WriteRange.stop at below
  omega

/-- The offset of the range in its first block, and the bytes that are copied there. -/
theorem Unwrapped.toNat_first :
    (range.addr - range.blockStart * range.blockSize).toNat =
        range.addr.toNat % range.blockSize.toNat ∧
      (range.blockSize - (range.addr - range.blockStart * range.blockSize)).toNat =
        range.firstLength := by
  have parts := firstBlock_parts range
  have address := unwrapped.toNat_address unwrapped.blockStart_lt
  rw [toNat_blockStart] at address
  have offset : (range.addr - range.blockStart * range.blockSize).toNat =
      range.addr.toNat % range.blockSize.toNat := by
    rw [UInt32.toNat_sub_of_le, address]
    · omega
    · rw [UInt32.le_iff_toNat_le, address]
      omega
  refine ⟨offset, ?_⟩
  have below := Nat.mod_lt range.addr.toNat unwrapped.positive
  rw [UInt32.toNat_sub_of_le, offset]
  · rfl
  · rw [UInt32.le_iff_toNat_le, offset]
    exact below.le

/-- The first round fills the first block from the start of the range up to its end, unless that is
too much for the copy. -/
theorem Unwrapped.first_round (acts : ActsExactly device contents) (flash : Flash σ)
    (src : Memory) :
    ∃ next writeLength,
      writeBlock device flash range src range.blockStart 0 = ((next, true), writeLength) ∧
      writeLength.toNat = range.firstLength ∧
      contents next.state =
        if range.firstLength ≤ 0x7fffffff then
          overlay (contents flash.state) range.addr.toNat range.firstLength src
        else contents flash.state := by
  obtain ⟨offset, length⟩ := unwrapped.toNat_first
  have address := unwrapped.toNat_address unwrapped.blockStart_lt
  rw [toNat_blockStart] at address
  have parts := firstBlock_parts range
  have below := Nat.mod_lt range.addr.toNat unwrapped.positive
  have first : range.firstLength =
      range.blockSize.toNat - range.addr.toNat % range.blockSize.toNat := rfl
  obtain ⟨next, buffer, done, bytes, laid⟩ := acts.rewriteBlock flash
    (range.blockStart * range.blockSize) range.blockSize fun buffer =>
      memcpyS buffer (range.addr - range.blockStart * range.blockSize)
        (range.blockSize - (range.addr - range.blockStart * range.blockSize)) src 0
        (range.blockSize - (range.addr - range.blockStart * range.blockSize))
  refine ⟨next, _, ?_, length, ?_⟩
  · unfold writeBlock
    simp only [if_true, done]
  · rw [laid, address]
    split
    · next small =>
        have within : range.addr.toNat % range.blockSize.toNat + range.firstLength ≤
            range.blockSize.toNat := by omega
        rw [overlay_part _ _ src within ?_ ?_, parts]
        · intro k inside
          rw [← offset, memcpyS_of_inside _ _ UInt32.le_rfl (by rw [length]; exact inside)]
          · simp
          · intro zero
            rw [← UInt32.toNat_inj, length] at zero
            simp only [UInt32.toNat_zero] at zero
            omega
          · rw [length]
            exact small
        · intro k inside outside
          rw [memcpyS_of_outside UInt32.le_rfl (by rw [offset, length]; exact outside),
            bytes k inside, address]
    · next large =>
        funext a
        have copied : memcpyS buffer (range.addr - range.blockStart * range.blockSize)
            (range.blockSize - (range.addr - range.blockStart * range.blockSize)) src 0
            (range.blockSize - (range.addr - range.blockStart * range.blockSize)) = buffer := by
          refine memcpyS_of_large (UInt32.lt_iff_toNat_lt.mpr ?_)
          rw [length]
          exact Nat.not_le.mp large
        rw [copied]
        unfold overlay
        split
        · next inside =>
            rw [bytes _ (by omega), address]
            exact congrArg (contents flash.state) (by omega)
        · rfl

/-- The bytes of a block behind the first one. -/
def WriteRange.laterLength (range : WriteRange) (block : Nat) : Nat :=
  min range.blockSize.toNat (range.stop - block * range.blockSize.toNat)

/-- A later round lays the next bytes over the start of its block, up to its end or that of the
range. -/
theorem Unwrapped.later_round (acts : ActsExactly device contents)
    (small : range.blockSize.toNat ≤ 0x7fffffff) (flash : Flash σ) (src : Memory)
    (later : range.blockStart.toNat < blockOffset.toNat)
    (inside : blockOffset.toNat < range.stopBlock) (strOffset : UInt32) :
    ∃ next writeLength,
      writeBlock device flash range src blockOffset strOffset = ((next, true), writeLength) ∧
      writeLength.toNat = range.laterLength blockOffset.toNat ∧
      contents next.state = overlay (contents flash.state)
        (blockOffset.toNat * range.blockSize.toNat) (range.laterLength blockOffset.toNat)
        fun k => src (strOffset.toNat + k) := by
  have address := unwrapped.toNat_address inside
  have below := unwrapped.block_lt inside
  have notFirst : blockOffset ≠ range.blockStart := by
    rintro rfl
    exact absurd later (Nat.lt_irrefl _)
  have last_iff : blockOffset = range.blockEnd - 1 ↔ range.stopBlock = blockOffset.toNat + 1 := by
    have count := unwrapped.toNat_blockEnd
    rw [← UInt32.toNat_inj, UInt32.toNat_sub_of_le _ _ (by
      rw [UInt32.le_iff_toNat_le, count]
      simp only [UInt32.toNat_one]
      omega), count]
    simp only [UInt32.toNat_one]
    omega
  unfold writeBlock
  rw [if_neg notFirst]
  by_cases last : blockOffset = range.blockEnd - 1
  · have ends := last_iff.mp last
    have covered : range.stop ≤ (blockOffset.toNat + 1) * range.blockSize.toNat := by
      rw [← BlockCover.blockStop_le_iff unwrapped.positive]
      exact ends.le
    rw [Nat.succ_mul] at covered
    have total : (range.addr + range.size).toNat = range.stop := toNat_add_of_lt unwrapped.fits
    have length : (range.addr + range.size - blockOffset * range.blockSize).toNat =
        range.laterLength blockOffset.toNat := by
      rw [UInt32.toNat_sub_of_le, total, address]
      · exact (Nat.min_eq_right (by omega)).symm
      · rw [UInt32.le_iff_toNat_le, total, address]
        exact below.le
    have within : range.laterLength blockOffset.toNat ≤ range.blockSize.toNat := Nat.min_le_left _ _
    obtain ⟨next, buffer, done, bytes, laid⟩ := acts.rewriteBlock flash
      (blockOffset * range.blockSize) range.blockSize fun buffer =>
        memcpyS buffer 0 range.blockSize src strOffset
          (range.addr + range.size - blockOffset * range.blockSize)
    refine ⟨next, _, ?_, length, ?_⟩
    · rw [if_pos last]
      simp only [done]
    · have fits : range.addr + range.size - blockOffset * range.blockSize ≤ range.blockSize := by
        rw [UInt32.le_iff_toNat_le, length]
        exact within
      rw [laid, address, overlay_part 0 _ (fun k => src (strOffset.toNat + k)) ?_ ?_ ?_,
        Nat.add_zero]
      · rw [Nat.zero_add]
        exact within
      · intro k inside
        have copied := @memcpyS_of_inside buffer src 0 range.blockSize strOffset
          (range.addr + range.size - blockOffset * range.blockSize) k ?_ small fits
          (by rw [length]; exact inside)
        · exact copied
        · intro zero
          have positive := unwrapped.positive
          rw [zero] at positive
          exact absurd positive (by decide)
      · intro k inside outside
        rw [memcpyS_of_outside fits (by rw [length]; exact outside), bytes k inside, address]
  · have whole : range.laterLength blockOffset.toNat = range.blockSize.toNat := by
      have more : ¬range.stopBlock ≤ blockOffset.toNat + 1 := fun contra =>
        last (last_iff.mpr (by omega))
      rw [WriteRange.stopBlock, BlockCover.blockStop_le_iff unwrapped.positive,
        Nat.succ_mul] at more
      exact Nat.min_eq_left (by omega)
    obtain ⟨next, done, laid⟩ := acts.replaceBlock flash (blockOffset * range.blockSize)
      range.blockSize fun k => src (strOffset.toNat + k)
    refine ⟨next, _, ?_, whole.symm, ?_⟩
    · rw [if_neg last]
      simp only [done]
    · rw [laid, address, whole]

omit unwrapped in
/-- A round depends on no bytes but those it lays over the flash. -/
theorem round_congr (acts : ActsExactly device contents) {src src' : Memory}
    (same : flash.state = other.state)
    (agree : ∀ k < (writeBlock device flash range src blockOffset strOffset).2.toNat,
      src (strOffset.toNat + k) = src' (strOffset.toNat + k)) :
    (writeBlock device flash range src blockOffset strOffset).1.1.state =
        (writeBlock device other range src' blockOffset strOffset).1.1.state ∧
      (writeBlock device flash range src blockOffset strOffset).1.2 =
        (writeBlock device other range src' blockOffset strOffset).1.2 ∧
      (writeBlock device flash range src blockOffset strOffset).2 =
        (writeBlock device other range src' blockOffset strOffset).2 := by
  unfold writeBlock at agree ⊢
  dsimp only at agree ⊢
  split
  · next first =>
      rw [if_pos first] at agree
      have rewritten := @ActsExactly.rewriteBlock_congr _ _ _ _ _ (blockOffset * range.blockSize)
        range.blockSize _ _ acts same fun buffer k _ => congrFun
        (@memcpyS_congr buffer src src' (range.addr - blockOffset * range.blockSize)
          (range.blockSize - (range.addr - blockOffset * range.blockSize)) strOffset
          (range.blockSize - (range.addr - blockOffset * range.blockSize)) agree) k
      exact ⟨rewritten.1, rewritten.2, rfl⟩
  · next later =>
      rw [if_neg later] at agree
      split
      · next last =>
          rw [if_pos last] at agree
          have rewritten := @ActsExactly.rewriteBlock_congr _ _ _ _ _
            (blockOffset * range.blockSize) range.blockSize _ _ acts same fun buffer k _ => congrFun
            (@memcpyS_congr buffer src src' 0 range.blockSize strOffset
              (range.addr + range.size - blockOffset * range.blockSize) agree) k
          exact ⟨rewritten.1, rewritten.2, rfl⟩
      · next middle =>
          rw [if_neg middle] at agree
          have replaced := @ActsExactly.replaceBlock_congr _ _ _ _ _ (blockOffset * range.blockSize)
            range.blockSize _ _ acts same agree
          exact ⟨replaced.1, replaced.2, rfl⟩

/-! ### The whole loop -/

/-- The loop succeeds and lays the range's bytes over what was there before, and a flash in the same
state ends in the same one for every source with these bytes. -/
def LaysExactly (device : FlashDevice σ) (contents : σ → Nat → UInt8) (range : WriteRange)
    (src : Memory) (before : Nat → UInt8) (left : Nat) (flash : Flash σ)
    (blockOffset strOffset : UInt32) : Prop :=
  ∃ final, writeBlocks device range src left flash blockOffset strOffset = (final, true) ∧
    contents final.state = overlay before range.addr.toNat range.size.toNat src ∧
    ∀ src' other, flash.state = other.state → (∀ k < range.size.toNat, src k = src' k) →
      (writeBlocks device range src' left other blockOffset strOffset).1.state = final.state ∧
        (writeBlocks device range src' left other blockOffset strOffset).2 = true

omit unwrapped in
/-- A round, and the rounds behind it. -/
theorem LaysExactly.round (acts : ActsExactly device contents) {src : Memory}
    {before : Nat → UInt8} {left : Nat} {next : Flash σ} {writeLength : UInt32}
    (done : writeBlock device flash range src blockOffset strOffset = ((next, true), writeLength))
    (within : strOffset.toNat + writeLength.toNat ≤ range.size.toNat)
    (rest : LaysExactly device contents range src before left next (blockOffset + 1)
      (strOffset + writeLength)) :
    LaysExactly device contents range src before (left + 1) flash blockOffset strOffset := by
  obtain ⟨final, loop, laid, unread⟩ := rest
  refine ⟨final, ?_, laid, fun src' other same agree => ?_⟩
  · rw [writeBlocks, done]
    exact loop
  · have agree' : ∀ k < (writeBlock device flash range src blockOffset strOffset).2.toNat,
        src (strOffset.toNat + k) = src' (strOffset.toNat + k) := by
      rw [done]
      exact fun k inside => agree _ (Nat.lt_of_lt_of_le (Nat.add_lt_add_left inside _) within)
    have congr := round_congr acts same agree'
    rw [done] at congr
    rw [writeBlocks]
    rcases round : writeBlock device other range src' blockOffset strOffset with
      ⟨⟨next', done'⟩, writeLength'⟩
    rw [round] at congr
    obtain ⟨state, rfl, rfl⟩ := congr
    exact unread src' next' state agree

theorem Unwrapped.later_rounds (acts : ActsExactly device contents)
    (small : range.blockSize.toNat ≤ 0x7fffffff) {src : Memory} {before : Nat → UInt8} {left : Nat}
    (later : range.blockStart.toNat < blockOffset.toNat)
    (count : blockOffset.toNat + left = range.stopBlock)
    (offset : range.addr.toNat + strOffset.toNat =
      min (blockOffset.toNat * range.blockSize.toNat) range.stop)
    (laid : contents flash.state = overlay before range.addr.toNat strOffset.toNat src) :
    LaysExactly device contents range src before left flash blockOffset strOffset := by
  induction left generalizing flash blockOffset strOffset with
  | zero =>
      have ends : range.stop ≤ blockOffset.toNat * range.blockSize.toNat := by
        rw [← BlockCover.blockStop_le_iff unwrapped.positive]
        exact count.ge
      have all : strOffset.toNat = range.size.toNat := by
        rw [Nat.min_eq_right ends, WriteRange.stop] at offset
        omega
      refine ⟨flash, rfl, ?_, fun src' other same agree => ⟨same.symm, rfl⟩⟩
      rw [laid, all]
  | succ left ih =>
      have inside : blockOffset.toNat < range.stopBlock := by omega
      have below := unwrapped.block_lt inside
      rw [Nat.min_eq_left below.le] at offset
      obtain ⟨next, writeLength, done, length, round⟩ :=
        unwrapped.later_round acts small flash src later inside strOffset
      have bounded := UInt32.toNat_lt range.blockEnd
      rw [unwrapped.toNat_blockEnd] at bounded
      have fits := unwrapped.fits
      have advanced : (blockOffset + 1).toNat = blockOffset.toNat + 1 :=
        toNat_add_of_lt (by simp only [UInt32.toNat_one]; omega)
      have stop : range.stop = range.addr.toNat + range.size.toNat := rfl
      have upTo : strOffset.toNat + writeLength.toNat ≤ range.size.toNat := by
        rw [length]
        unfold WriteRange.laterLength
        omega
      have sum : (strOffset + writeLength).toNat = strOffset.toNat + writeLength.toNat :=
        toNat_add_of_lt (by omega)
      refine LaysExactly.round acts done upTo (ih ?_ ?_ ?_ ?_)
      · omega
      · omega
      · rw [sum, length, advanced, Nat.succ_mul]
        unfold WriteRange.laterLength
        omega
      · rw [round, laid, ← offset, overlay_append, sum, length]

/-- A range that reaches the end of its first block is written exactly. -/
theorem Unwrapped.laysExactly (acts : ActsExactly device contents)
    (small : range.blockSize.toNat ≤ 0x7fffffff)
    (reaches : range.firstLength ≤ range.size.toNat) (flash : Flash σ) (src : Memory) :
    LaysExactly device contents range src (contents flash.state)
      (range.blockEnd.toNat - range.blockStart.toNat) flash range.blockStart 0 := by
  obtain ⟨next, writeLength, done, length, round⟩ := unwrapped.first_round acts flash src
  have begins := unwrapped.blockStart_lt
  have bounded := UInt32.toNat_lt range.blockEnd
  rw [unwrapped.toNat_blockEnd] at bounded ⊢
  have parts := firstBlock_parts range
  have below := Nat.mod_lt range.addr.toNat unwrapped.positive
  have first : range.firstLength =
      range.blockSize.toNat - range.addr.toNat % range.blockSize.toNat := rfl
  have advanced : (range.blockStart + 1).toNat = range.blockStart.toNat + 1 :=
    toNat_add_of_lt (by simp only [UInt32.toNat_one]; omega)
  obtain ⟨left, count⟩ : ∃ left, range.stopBlock - range.blockStart.toNat = left + 1 :=
    ⟨_, (Nat.succ_pred_eq_of_pos (by omega)).symm⟩
  rw [count]
  refine LaysExactly.round acts done ?_ (unwrapped.later_rounds acts small ?_ ?_ ?_ ?_)
  · rw [length]
    simpa using reaches
  · omega
  · omega
  · rw [UInt32.zero_add, length, advanced, Nat.succ_mul, toNat_blockStart]
    unfold WriteRange.stop
    omega
  · rw [round, if_pos (by omega), UInt32.zero_add, length]

end rounds

/-- A range that ends inside its first block: the rest of the block is overwritten too, or the copy
is too large and nothing is written. -/
theorem Unwrapped.not_laysExactly (unwrapped : Unwrapped range)
    (acts : ActsExactly device contents) (short : range.size.toNat < range.firstLength)
    (flash : Flash σ) :
    ∃ src final, writeBlocks device range src (range.blockEnd.toNat - range.blockStart.toNat) flash
        range.blockStart 0 = (final, true) ∧
      contents final.state ≠
        overlay (contents flash.state) range.addr.toNat range.size.toNat src := by
  have differs (n : UInt8) : n + 1 ≠ n := by
    intro same
    have value := congrArg UInt8.toNat same
    have bounded := UInt8.toNat_lt n
    rw [UInt8.toNat_add, UInt8.toNat_one] at value
    omega
  have parts := firstBlock_parts range
  have first : range.firstLength =
      range.blockSize.toNat - range.addr.toNat % range.blockSize.toNat := rfl
  have one : range.blockEnd.toNat - range.blockStart.toNat = 1 := by
    have begins := unwrapped.blockStart_lt
    rw [toNat_blockStart] at begins
    have ends : range.stopBlock ≤ range.addr.toNat / range.blockSize.toNat + 1 := by
      rw [WriteRange.stopBlock, BlockCover.blockStop_le_iff unwrapped.positive, Nat.succ_mul]
      unfold WriteRange.stop
      omega
    rw [unwrapped.toNat_blockEnd, toNat_blockStart]
    omega
  obtain ⟨next, writeLength, done, -, laid⟩ := unwrapped.first_round acts flash
    fun k => contents flash.state (range.addr.toNat + k) + 1
  refine ⟨fun k => contents flash.state (range.addr.toNat + k) + 1, next, ?_, fun same => ?_⟩
  · rw [one, writeBlocks, done]
    rfl
  · rw [laid] at same
    split at same
    · have behind := congrFun same (range.addr.toNat + range.size.toNat)
      rw [overlay_of_inside short, overlay_of_outside (.inr (Nat.le_refl _))] at behind
      exact differs _ behind
    · have start := congrFun same (range.addr.toNat + 0)
      rw [overlay_of_inside unwrapped.nonempty] at start
      exact differs _ start.symm

/-! ### Writes of LittleFS -/

variable {table : List FsCfg} {fs first : FsCfg} {block off size : UInt32} {malloc : Bool}

/-- The address of a request, computed without wrap. -/
def requestAddr (fs first : FsCfg) (block off : UInt32) : Nat :=
  (first.blockStart.toNat + block.toNat) * fs.lfsCfg.blockSize.toNat + off.toNat

/-- Every source is written as it was asked for: the request succeeds, the bytes of its range and no
others are changed, no byte of the source behind them matters, and any part of them that is read
again has the bytes written. -/
def WritesAsAsked (device : FlashDevice σ) (contents : σ → Nat → UInt8) (table : List FsCfg)
    (fs first : FsCfg) (block off size : UInt32) (malloc : Bool) (flash : Flash σ) : Prop :=
  ∀ src, ∃ final, fsWrite device table flash (some fs.lfsCfg) block off (some src) size malloc =
      (final, .returned (.ok ())) ∧
    contents final.state = overlay (contents flash.state) (requestAddr fs first block off)
      size.toNat src ∧
    (∀ src', (∀ k < size.toNat, src k = src' k) →
      (fsWrite device table flash (some fs.lfsCfg) block off (some src') size malloc).1.state =
        final.state) ∧
    ∀ block' off' size', acceptsRange fs.lfsCfg block' off' size' = true →
      requestAddr fs first block off ≤ requestAddr fs first block' off' →
      requestAddr fs first block' off' + size'.toNat ≤
        requestAddr fs first block off + size.toNat →
      ∃ next data, fsRead device table final (some fs.lfsCfg) block' off' true size' =
          (next, .returned (.ok data)) ∧
        ∀ k < size'.toNat, data k =
          src (requestAddr fs first block' off' - requestAddr fs first block off + k)

/-- A partition that was checked is found, and does not begin at the start of the flash. -/
theorem found_of_checked {flashBlockSize : UInt32} {i : Nat}
    (checked : checkPartitions flashBlockSize table = .ok ())
    (context : fs.lfsCfg.context = fs.mountPoint) (mounted : Mounted table i fs)
    (before : ¬∃ k, ∃ entry, k < i ∧ table[k]? = some entry ∧ entry.mountPoint = none)
    (found : firstNamed table fs = some first) :
    Named table fs first ∧ 0 < first.blockStart.toNat := by
  obtain ⟨named, k, inside, place, earlier⟩ := List.find?_eq_some_iff_getElem.mp found
  have entry : table[k]? = some first := by rw [List.getElem?_eq_getElem inside, place]
  have first_le : k ≤ i := by
    by_contra behind
    obtain ⟨bound, here⟩ := List.getElem?_eq_some_iff.mp mounted.1
    have skipped := earlier i (Nat.not_le.mp behind)
    rw [here] at skipped
    simp at skipped
  have present : first.mountPoint ≠ none := by
    intro null
    rcases Nat.lt_or_eq_of_le first_le with less | rfl
    · exact before ⟨k, first, less, entry, null⟩
    · rw [mounted.1] at entry
      obtain rfl := Option.some.inj entry
      exact mounted.2 null
  refine ⟨⟨context, mounted.2, found, present⟩, Nat.pos_of_ne_zero fun zero => ?_⟩
  have passed := checkPartition_of_checkPartitions checked ⟨entry, present⟩
    fun ⟨j, other, less, place, null⟩ =>
      before ⟨j, other, Nat.lt_of_lt_of_le less first_le, place, null⟩
  have start : first.blockStart = 0 := UInt32.toNat_inj.mp zero
  have low : (0 : UInt32) < flashAddressUserStart := by decide
  unfold checkPartition at passed
  rw [start, UInt32.zero_mul, if_pos low] at passed
  split at passed <;> cases passed

/-- The range of a write. -/
def requestRange (fs first : FsCfg) (block off size : UInt32) : WriteRange :=
  ⟨(first.blockStart + block) * fs.lfsCfg.blockSize + off, size, fs.lfsCfg.blockSize⟩

section request

variable (positive : 0 < fs.lfsCfg.blockSize.toNat)
  (noWrap : requestAddr fs first block off + size.toNat < 2 ^ 32)

include positive noWrap

theorem toNat_requestRange :
    ((first.blockStart + block) * fs.lfsCfg.blockSize + off).toNat =
      requestAddr fs first block off := by
  unfold requestAddr at noWrap ⊢
  have blocks : first.blockStart.toNat + block.toNat ≤
      (first.blockStart.toNat + block.toNat) * fs.lfsCfg.blockSize.toNat :=
    Nat.le_mul_of_pos_right _ positive
  have number : (first.blockStart + block).toNat = first.blockStart.toNat + block.toNat :=
    toNat_add_of_lt (by omega)
  have product : ((first.blockStart + block) * fs.lfsCfg.blockSize).toNat =
      (first.blockStart.toNat + block.toNat) * fs.lfsCfg.blockSize.toNat := by
    rw [toNat_mul_of_lt (by rw [number]; omega), number]
  rw [toNat_add_of_lt (by rw [product]; omega), product]

theorem unwrapped_requestRange (nonempty : 0 < size.toNat) :
    Unwrapped (requestRange fs first block off size) := by
  refine ⟨positive, nonempty, ?_⟩
  simp only [requestRange, toNat_requestRange positive noWrap]
  exact noWrap

end request

/-- What a write that is accepted does. -/
theorem fsWrite_eq (named : Named table fs first)
    (accepts : acceptsRange fs.lfsCfg block off size = true) (src : Memory) :
    fsWrite device table flash (some fs.lfsCfg) block off (some src) size true =
      match writeBlocks device (requestRange fs first block off size) src
        ((requestRange fs first block off size).blockEnd.toNat -
          (requestRange fs first block off size).blockStart.toNat) flash
        (requestRange fs first block off size).blockStart 0 with
      | (flash, true) => (flash, .returned (.ok ()))
      | (flash, false) => (flash, .returned (.error .io)) := by
  simp only [fsWrite, accepts, not_true_eq_false, if_false, named.withPartition]
  rfl

/-- An accepted range lies in a partition that has blocks. -/
theorem blockSize_pos_of_accepts (accepts : acceptsRange fs.lfsCfg block off size = true) :
    0 < fs.lfsCfg.blockSize.toNat := by
  refine Nat.pos_of_ne_zero fun zero => ?_
  have size_zero : fs.lfsCfg.blockSize = 0 := UInt32.toNat_inj.mp zero
  simp [acceptsRange, size_zero] at accepts

/-- What was laid over a flash is read again, from any range within. -/
theorem ActsExactly.reads_overlay {base : Nat → UInt8} {src : Memory}
    {block' off' size' : UInt32} (acts : ActsExactly device contents)
    (named : Named table fs first)
    (laid : contents flash.state = overlay base (requestAddr fs first block off) size.toNat src)
    (noWrap : requestAddr fs first block off + size.toNat < 2 ^ 32)
    (accepts : acceptsRange fs.lfsCfg block' off' size' = true)
    (low : requestAddr fs first block off ≤ requestAddr fs first block' off')
    (high : requestAddr fs first block' off' + size'.toNat ≤
      requestAddr fs first block off + size.toNat) :
    ∃ next data, fsRead device table flash (some fs.lfsCfg) block' off' true size' =
        (next, .returned (.ok data)) ∧
      ∀ k < size'.toNat, data k =
        src (requestAddr fs first block' off' - requestAddr fs first block off + k) := by
  have address := @toNat_requestRange fs first block' off' size' (blockSize_pos_of_accepts accepts)
    (by omega)
  obtain ⟨next, data, got, -, bytes⟩ := acts.read flash.state
    ((first.blockStart + block') * fs.lfsCfg.blockSize + off') size'
  refine ⟨⟨next, flash.calls ++ [.flashRead
    ((first.blockStart + block') * fs.lfsCfg.blockSize + off') size']⟩, data, ?_, ?_⟩
  · simp only [fsRead, accepts, not_true_eq_false, if_false, named.withPartition, flashRead, got]
  · intro k inside
    rw [bytes k inside, laid, address]
    obtain ⟨distance, apart⟩ := Nat.exists_eq_add_of_le low
    rw [apart, Nat.add_sub_cancel_left, Nat.add_assoc]
    exact overlay_of_inside (by omega)

/-- For every partition that was checked, every accepted range whose end does not wrap and every
flash, a write does what it was asked for exactly if its buffer can be allocated and the range
reaches the end of its first block. -/
theorem write_exact_iff {resource : Option FsResource} {flashBlockSize : UInt32}
    {maxMountSize i : Nat} (read : fsdrvReaddrs resource flashBlockSize maxMountSize = .ok table)
    (mounted : Mounted table i fs)
    (before : ¬∃ k, ∃ entry, k < i ∧ table[k]? = some entry ∧ entry.mountPoint = none)
    (found : firstNamed table fs = some first)
    (accepts : acceptsRange fs.lfsCfg block off size = true) (nonempty : 0 < size.toNat)
    (noWrap : requestAddr fs first block off + size.toNat < 2 ^ 32)
    (acts : ActsExactly device contents) (flash : Flash σ) :
    WritesAsAsked device contents table fs first block off size malloc flash ↔
      malloc = true ∧ fs.lfsCfg.blockSize.toNat ≤
        off.toNat % fs.lfsCfg.blockSize.toNat + size.toNat := by
  obtain ⟨checked, contexts⟩ := fsdrvReaddrs_spec read
  obtain ⟨named, begins⟩ := found_of_checked checked
    (contexts _ (List.mem_of_getElem? mounted.1)) mounted before found
  have positive := blockSize_pos_of_accepts accepts
  have unwrapped := unwrapped_requestRange positive noWrap nonempty
  have address : (requestRange fs first block off size).addr.toNat =
      requestAddr fs first block off := toNat_requestRange positive noWrap
  have offset : (requestRange fs first block off size).addr.toNat %
      (requestRange fs first block off size).blockSize.toNat =
        off.toNat % fs.lfsCfg.blockSize.toNat := by
    rw [address, requestAddr, Nat.add_comm]
    exact Nat.add_mul_mod_self_right ..
  have below := Nat.mod_lt off.toNat positive
  have reaches_iff : (requestRange fs first block off size).firstLength ≤ size.toNat ↔
      fs.lfsCfg.blockSize.toNat ≤ off.toNat % fs.lfsCfg.blockSize.toNat + size.toNat := by
    rw [WriteRange.firstLength, offset]
    exact Nat.sub_le_iff_le_add'
  rw [← reaches_iff]
  cases malloc with
  | false =>
      refine iff_of_false (fun asked => ?_) (by simp)
      obtain ⟨final, done, -⟩ := asked fun _ => 0
      simp only [fsWrite, accepts, not_true_eq_false, if_false, named.withPartition,
        Bool.false_eq_true, not_false_eq_true, if_true, Prod.mk.injEq, FsResult.returned.injEq,
        reduceCtorEq, and_false] at done
  | true =>
      simp only [true_and]
      constructor
      · intro asked
        by_contra short
        obtain ⟨src, final, loop, wrong⟩ := unwrapped.not_laysExactly acts
          (Nat.not_le.mp short) flash
        obtain ⟨final', done, laid, -⟩ := asked src
        rw [fsWrite_eq named accepts, loop] at done
        obtain rfl := congrArg Prod.fst done
        rw [address] at wrong
        exact wrong laid
      · intro reaches src
        have small : fs.lfsCfg.blockSize.toNat ≤ 0x7fffffff := by
          have later : fs.lfsCfg.blockSize.toNat ≤
              (first.blockStart.toNat + block.toNat) * fs.lfsCfg.blockSize.toNat :=
            Nat.le_mul_of_pos_left _ (by omega)
          have enough := reaches_iff.mp reaches
          have rest := Nat.mod_le off.toNat fs.lfsCfg.blockSize.toNat
          unfold requestAddr at noWrap
          omega
        obtain ⟨final, loop, laid, unread⟩ := unwrapped.laysExactly acts small reaches flash src
        refine ⟨final, ?_, ?_, fun src' agree => ?_, fun block' off' size' accepts' low high => ?_⟩
        · rw [fsWrite_eq named accepts, loop]
        · rw [laid, address]
          rfl
        · obtain ⟨state, done⟩ := unread src' flash rfl agree
          rw [fsWrite_eq named accepts]
          rcases result : writeBlocks device (requestRange fs first block off size) src'
            ((requestRange fs first block off size).blockEnd.toNat -
              (requestRange fs first block off size).blockStart.toNat) flash
            (requestRange fs first block off size).blockStart 0 with ⟨next, done'⟩
          rw [result] at state done
          obtain rfl : done' = true := done
          exact state
        · rw [address] at laid
          exact acts.reads_overlay named laid noWrap accepts' low high

/-! ### A flash in memory -/

/-- A flash that is its contents. -/
def memoryFlash : FlashDevice (Nat → UInt8) where
  flashRead := fun bytes addr _ => (bytes, some fun k => bytes (addr.toNat + k))
  flashErase := fun bytes addr size => (overlay bytes addr.toNat size.toNat fun _ => 0xff, true)
  flashWrite := fun bytes addr size data => (overlay bytes addr.toNat size.toNat data, true)

theorem actsExactly_memoryFlash : ActsExactly memoryFlash id where
  read := fun bytes addr _ => ⟨bytes, fun k => bytes (addr.toNat + k), rfl, rfl, fun _ _ => rfl⟩
  erase := fun bytes addr size =>
    ⟨overlay bytes addr.toNat size.toNat fun _ => 0xff, rfl, rfl⟩
  write := fun bytes addr size data _ => ⟨overlay bytes addr.toNat size.toNat data, rfl, rfl⟩
  write_congr := by
    intro bytes addr size data data' agree
    refine Prod.ext (funext fun a => ?_) rfl
    show overlay bytes addr.toNat size.toNat data a = overlay bytes addr.toNat size.toNat data' a
    unfold overlay
    split
    · exact agree _ (by omega)
    · rfl

/-- The data partition of the board, and an erased flash. -/
def dataPartition : FsCfg := entryOf (some "/data", 1024, 256)

def erasedFlash : Flash (Nat → UInt8) := ⟨fun _ => 0xff, []⟩

/-- Two blocks from the middle of one on. -/
theorem write_exact_spanning : WritesAsAsked memoryFlash id (littlefsRows.map entryOf) dataPartition
    dataPartition 3 100 8192 true erasedFlash := by
  have read : fsdrvReaddrs (some (resourceOf littlefsRows)) 4096 3 =
    .ok (littlefsRows.map entryOf) := by rfl
  exact (@write_exact_iff _ _ _ _ _ dataPartition 3 100 8192 true _ _ _ 0 read ⟨rfl, by decide⟩
    (fun ⟨_, _, inside, _⟩ => Nat.not_lt_zero _ inside) rfl (by decide) (by decide) (by decide)
    actsExactly_memoryFlash erasedFlash).mpr ⟨rfl, by decide⟩

/-- Sixteen bytes at the start of a block: the rest of the block is taken from behind the source. -/
theorem short_write_overruns :
    ¬WritesAsAsked memoryFlash id (littlefsRows.map entryOf) dataPartition dataPartition 3 0 16 true
      erasedFlash ∧
    (fsWrite memoryFlash (littlefsRows.map entryOf) erasedFlash (some dataPartition.lfsCfg) 3 0
      (some fun k => if k < 16 then 1 else 2) 16 true).1.state (0x403000 + 16) = 2 := by
  constructor
  · intro asked
    obtain ⟨final, done, laid, -⟩ := asked fun k => if k < 16 then 1 else 2
    have behind := congrFun laid (0x403000 + 16)
    obtain rfl := congrArg Prod.fst done
    exact absurd behind (by decide)
  · decide

end Rk2206
end RockchipSoc
