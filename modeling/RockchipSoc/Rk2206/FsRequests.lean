import RockchipSoc.Foundation.WordMultiples
import RockchipSoc.Rk2206.FsDriver

/-!
# The calls of the flash that a request makes

A request looks its partition up by the mount point and then calls the flash.  A read or an erase
that is accepted makes one call, a write a few for each block that it touches.
-/

namespace RockchipSoc
namespace Rk2206

variable {σ : Type*} {device : FlashDevice σ} {table : List FsCfg} {flash : Flash σ}
  {fs first : FsCfg}

def FlashCall.flashOffset : FlashCall → UInt32
  | .flashRead offset _ | .flashErase offset _ | .flashWrite offset _ _ => offset

def FlashCall.size : FlashCall → UInt32
  | .flashRead _ size | .flashErase _ size | .flashWrite _ size _ => size

/-- The requests of LittleFS, with what the environment decides. -/
inductive FsRequest
  | read (block off size : UInt32) (dst : Bool)
  | write (block off size : UInt32) (src : Option Memory) (malloc : Bool)
  | erase (block : UInt32)

def FsResult.Defined {α : Type*} : FsResult α → Prop
  | .returned _ => True
  | .undefined => False

/-- The flash after a request, and whether what happened is defined. -/
def serve (device : FlashDevice σ) (table : List FsCfg) (flash : Flash σ) (c : LfsConfig) :
    FsRequest → Flash σ × Prop
  | .read block off size dst =>
      let (flash, result) := fsRead device table flash (some c) block off dst size
      (flash, result.Defined)
  | .write block off size src malloc =>
      let (flash, result) := fsWrite device table flash (some c) block off src size malloc
      (flash, result.Defined)
  | .erase block =>
      let (flash, result) := fsErase device table flash (some c) block
      (flash, result.Defined)

/-- The request passes the checks. -/
def Accepted (fs : FsCfg) : FsRequest → Prop
  | .read block off size dst => acceptsRange fs.lfsCfg block off size = true ∧ dst = true
  | .write block off size src _ => acceptsRange fs.lfsCfg block off size = true ∧ src ≠ none
  | .erase block => block < fs.lfsCfg.blockCount

/-- The first entry whose mount point is NULL or that of the partition. -/
def firstNamed (table : List FsCfg) (fs : FsCfg) : Option FsCfg :=
  table.find? fun entry => entry.mountPoint = none ∨ entry.mountPoint = fs.mountPoint

/-! ### Sums and products that do not wrap -/

theorem toNat_add_of_lt {a b : UInt32} (fits : a.toNat + b.toNat < 2 ^ 32) :
    (a + b).toNat = a.toNat + b.toNat := by
  rw [UInt32.toNat_add, Nat.mod_eq_of_lt fits]

theorem toNat_mul_of_lt {a b : UInt32} (fits : a.toNat * b.toNat < 2 ^ 32) :
    (a * b).toNat = a.toNat * b.toNat := by
  rw [UInt32.toNat_mul, Nat.mod_eq_of_lt fits]

/-- The address of a request is that of the partition and the offset of the request. -/
theorem address_eq (start block size off : UInt32) :
    (start + block) * size + off = start * size + (block * size + off) := by
  rw [UInt32.add_mul, UInt32.add_assoc]

/-! ### Looking a partition up -/

/-- The lookup ends at the first entry whose mount point is NULL or the one asked for. -/
theorem fsGetPartition_spec (table : List FsCfg) (name : String) (i : Nat) :
    match table.find? (fun entry => entry.mountPoint = none ∨ entry.mountPoint = some name) with
    | none => fsGetPartition (some name) table i = .notSupport
    | some first =>
        if first.mountPoint = none then fsGetPartition (some name) table i = .nullCompare
        else ∃ k, fsGetPartition (some name) table i = .found (i + k) ∧ table[k]? = some first := by
  induction table generalizing i with
  | nil => rfl
  | cons entry table ih =>
      rw [List.find?_cons]
      rcases mounted : entry.mountPoint with _ | mountPoint
      · simp [mounted, fsGetPartition]
      · by_cases same : mountPoint = name
        · subst same
          simp only [mounted, or_true, decide_true, fsGetPartition, if_true]
          exact ⟨0, rfl, rfl⟩
        · have other : ¬(some mountPoint = none ∨ some mountPoint = some name) := by simp [same]
          simp only [mounted, other, decide_false, fsGetPartition, if_neg same]
          have rest := ih (i + 1)
          split at rest
          · next nothing =>
              simp only [nothing]
              exact rest
          · next first found =>
              simp only [found]
              split at rest
              · next null =>
                  rw [if_pos null]
                  exact rest
              · next named =>
                  rw [if_neg named]
                  obtain ⟨k, lookup, entry⟩ := rest
                  exact ⟨k + 1, by rw [lookup, Nat.add_assoc, Nat.add_comm 1 k], entry⟩

/-- A lookup that meets the name before a NULL goes on with the entry of that name. -/
theorem withPartition_named {α : Type*} {c : LfsConfig} {next : FsCfg → Flash σ × FsResult α}
    (context : c.context = fs.mountPoint) (mounted : fs.mountPoint ≠ none)
    (found : firstNamed table fs = some first) (named : first.mountPoint ≠ none) :
    withPartition table flash c next = next first := by
  obtain ⟨name, name_eq⟩ := Option.ne_none_iff_exists'.mp mounted
  have lookup := fsGetPartition_spec table name 0
  rw [firstNamed, name_eq] at found
  rw [found] at lookup
  simp only [if_neg named, Nat.zero_add] at lookup
  obtain ⟨k, lookup, entry⟩ := lookup
  simp only [withPartition, context, name_eq, lookup, List.getD_eq_getElem?_getD, entry,
    Option.getD_some]

/-- A lookup that meets a NULL is undefined. -/
theorem withPartition_null {α : Type*} {c : LfsConfig} {next : FsCfg → Flash σ × FsResult α}
    (context : c.context = fs.mountPoint) (mounted : fs.mountPoint ≠ none)
    (found : firstNamed table fs = some first) (null : first.mountPoint = none) :
    withPartition table flash c next = (flash, .undefined) := by
  obtain ⟨name, name_eq⟩ := Option.ne_none_iff_exists'.mp mounted
  have lookup := fsGetPartition_spec table name 0
  rw [firstNamed, name_eq] at found
  rw [found] at lookup
  simp only [if_pos null] at lookup
  simp only [withPartition, context, name_eq, lookup]

/-- A mounted partition and the entry its lookup goes on with. -/
structure Named (table : List FsCfg) (fs first : FsCfg) : Prop where
  context : fs.lfsCfg.context = fs.mountPoint
  mounted : fs.mountPoint ≠ none
  found : firstNamed table fs = some first
  named : first.mountPoint ≠ none

/-- A flash on which every call fails. -/
def deadFlash : FlashDevice Unit where
  flashRead := fun _ _ _ => ((), none)
  flashErase := fun _ _ _ => ((), false)
  flashWrite := fun _ _ _ _ => ((), false)

section named

variable (named : Named table fs first)

include named

theorem Named.withPartition {α : Type*} {next : FsCfg → Flash σ × FsResult α} :
    withPartition table flash fs.lfsCfg next = next first :=
  withPartition_named named.context named.mounted named.found named.named

/-- A read that is accepted makes one call. -/
theorem Named.serve_read {block off size : UInt32} {dst : Bool}
    (accepted : Accepted fs (.read block off size dst)) :
    (serve device table flash fs.lfsCfg (.read block off size dst)).2 ∧
      (serve device table flash fs.lfsCfg (.read block off size dst)).1.calls = flash.calls ++
        [.flashRead ((first.blockStart + block) * fs.lfsCfg.blockSize + off) size] := by
  simp only [serve, fsRead, accepted.1, accepted.2, named.withPartition, not_true_eq_false,
    if_false, flashRead]
  cases (device.flashRead flash.state
    ((first.blockStart + block) * fs.lfsCfg.blockSize + off) size).2 <;> exact ⟨trivial, rfl⟩

theorem Named.serve_erase {block : UInt32} (accepted : Accepted fs (.erase block)) :
    (serve device table flash fs.lfsCfg (.erase block)).2 ∧
      (serve device table flash fs.lfsCfg (.erase block)).1.calls = flash.calls ++
        [.flashErase ((first.blockStart + block) * fs.lfsCfg.blockSize) fs.lfsCfg.blockSize] := by
  have inside : ¬block ≥ fs.lfsCfg.blockCount := UInt32.not_le.mpr accepted
  simp only [serve, fsErase, if_neg inside, named.withPartition]
  exact ⟨trivial, rfl⟩

end named

/-! ### The calls of a write -/

section writes

variable {address blockSize : UInt32} {call : FlashCall} {P : FlashCall → Prop}

/-- The calls of one round of a write are for the block of that round. -/
theorem calls_replaceBlock {data : Memory}
    (member : call ∈ (replaceBlock device flash address blockSize data).1.calls) :
    call ∈ flash.calls ∨ call.flashOffset = address ∧ call.size = blockSize := by
  unfold replaceBlock at member
  rcases erased : flashErase device flash address blockSize with ⟨next, done⟩
  have calls : next.calls = flash.calls ++ [.flashErase address blockSize] :=
    congrArg (fun result => result.1.calls) erased.symm
  rw [erased] at member
  cases done with
  | false =>
      rw [calls] at member
      refine (List.mem_append.mp member).imp_right fun last => ?_
      obtain rfl := List.mem_singleton.mp last
      exact ⟨rfl, rfl⟩
  | true =>
      have written : (flashWrite device next address blockSize data).1.calls =
        next.calls ++ [.flashWrite address blockSize data] := rfl
      rw [written, calls, List.append_assoc] at member
      refine (List.mem_append.mp member).imp_right fun last => ?_
      rcases List.mem_cons.mp last with rfl | last
      · exact ⟨rfl, rfl⟩
      · obtain rfl := List.mem_singleton.mp last
        exact ⟨rfl, rfl⟩

theorem calls_rewriteBlock {change : Memory → Memory}
    (member : call ∈ (rewriteBlock device flash address blockSize change).1.calls) :
    call ∈ flash.calls ∨ call.flashOffset = address ∧ call.size = blockSize := by
  unfold rewriteBlock at member
  rcases read : flashRead device flash address blockSize with ⟨next, data⟩
  have calls : next.calls = flash.calls ++ [.flashRead address blockSize] :=
    congrArg (fun result => result.1.calls) read.symm
  have earlier : call ∈ next.calls →
      call ∈ flash.calls ∨ call.flashOffset = address ∧ call.size = blockSize := by
    intro member
    rw [calls] at member
    refine (List.mem_append.mp member).imp_right fun last => ?_
    obtain rfl := List.mem_singleton.mp last
    exact ⟨rfl, rfl⟩
  rw [read] at member
  cases data with
  | none => exact earlier member
  | some buffer =>
      have rest : call ∈ (replaceBlock device next address blockSize (change buffer)).1.calls :=
        member
      exact (calls_replaceBlock rest).elim earlier .inr

theorem calls_writeBlock {range : WriteRange} {src : Memory} {blockOffset strOffset : UInt32}
    (member : call ∈ (writeBlock device flash range src blockOffset strOffset).1.1.calls) :
    call ∈ flash.calls ∨
      call.flashOffset = blockOffset * range.blockSize ∧ call.size = range.blockSize := by
  unfold writeBlock at member
  simp only at member
  split at member
  · exact calls_rewriteBlock member
  · split at member
    · exact calls_rewriteBlock member
    · exact calls_replaceBlock member

/-- What holds of the calls for each of the blocks holds of all calls of a write. -/
theorem calls_writeBlocks {range : WriteRange} {src : Memory} {left : Nat}
    {blockOffset strOffset : UInt32} (before : ∀ call ∈ flash.calls, P call)
    (blocks : ∀ j < left, ∀ call : FlashCall,
      call.flashOffset = (blockOffset + UInt32.ofNat j) * range.blockSize →
        call.size = range.blockSize → P call) :
    ∀ call ∈ (writeBlocks device range src left flash blockOffset strOffset).1.calls, P call := by
  induction left generalizing flash blockOffset strOffset with
  | zero => exact before
  | succ left ih =>
      have round : ∀ call ∈ (writeBlock device flash range src blockOffset strOffset).1.1.calls,
          P call := by
        intro call member
        rcases calls_writeBlock member with old | ⟨offset, size⟩
        · exact before call old
        · refine blocks 0 (Nat.succ_pos left) call ?_ size
          simpa using offset
      unfold writeBlocks
      rcases result : writeBlock device flash range src blockOffset strOffset with
        ⟨⟨next, done⟩, writeLength⟩
      rw [result] at round
      cases done with
      | false => exact round
      | true =>
          refine ih round fun j inside call offset size => ?_
          refine blocks (j + 1) (Nat.succ_lt_succ inside) call ?_ size
          rw [offset, UInt32.ofNat_add, UInt32.add_assoc, UInt32.add_comm 1]
          rfl

/-- The last block of a write is that of its last byte. -/
theorem toNat_blockEnd (range : WriteRange) (positive : 0 < range.blockSize.toNat) :
    range.blockEnd.toNat =
      BlockCover.blockStop range.blockSize.toNat (range.addr + range.size).toNat := by
  have bounded := UInt32.toNat_lt (range.addr + range.size)
  have decomposed := Nat.div_add_mod' (range.addr + range.size).toNat range.blockSize.toNat
  have partial_le : (range.addr + range.size).toNat / range.blockSize.toNat ≤
      (range.addr + range.size).toNat / range.blockSize.toNat * range.blockSize.toNat :=
    Nat.le_mul_of_pos_right _ positive
  have rest : (range.addr + range.size) % range.blockSize = 0 ↔
      (range.addr + range.size).toNat % range.blockSize.toNat = 0 := by
    rw [← UInt32.toNat_inj, UInt32.toNat_mod]
    rfl
  unfold WriteRange.blockEnd BlockCover.blockStop
  simp only [ne_eq, rest]
  split
  · rw [toNat_add_of_lt, UInt32.toNat_div]
    · rfl
    · rw [UInt32.toNat_div, show (1 : UInt32).toNat = 1 from rfl]
      omega
  · exact UInt32.toNat_div ..

end writes

end Rk2206
end RockchipSoc
