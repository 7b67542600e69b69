import RockchipSoc.Iommu.CoreLoops

/-!
# Scatterlists

`iommu_map_sg` maps the segments of a scatterlist behind one another.  It holds back a chunk for as
long as the next segment continues it in physical memory, and maps the chunk when a segment does
not.  The loop visits the last segment twice, which flushes the last chunk.  An error undoes what
was mapped, so the whole list is bound or nothing of it.
-/

namespace RockchipSoc
namespace Iommu

open PartialMap

/-- `sg_phys` and `length` of an entry of a scatterlist. -/
structure Segment where
  phys : ℕ
  length : ℕ
  deriving DecidableEq, Repr

/-- The variables of `iommu_map_sg_ext`; lengths are 32 bits, so their sum does not wrap. -/
structure SgLoop where
  domain : RkIommuDomain
  pending : Segment
  mapped : ℕ

section Core

variable (format : PageFormat) (prot iova : ℕ)

/-- The loop over the visited segments, with the last result of `iommu_map_ext`. -/
def mapSgLoop (loop : SgLoop) : List Segment → SgLoop × ℤ
  | [] => (loop, 0)
  | sg :: visits =>
      if loop.pending.length ≠ 0 ∧
          sg.phys ≠ (loop.pending.phys + loop.pending.length) % 2 ^ 64 then
        let flushed := iommuMap format loop.domain ((iova + loop.mapped) % 2 ^ 64)
          loop.pending.phys loop.pending.length prot
        if flushed.2 ≠ 0 then ({ loop with domain := flushed.1 }, flushed.2)
        else
          mapSgLoop
            { domain := flushed.1, pending := sg, mapped := loop.mapped + loop.pending.length }
            visits
      else if loop.pending.length ≠ 0 then
        mapSgLoop { loop with
          pending := { loop.pending with length := loop.pending.length + sg.length } } visits
      else mapSgLoop { loop with pending := sg } visits

/-- `while (i <= nents)` without stepping behind the last entry. -/
def sgVisits (segments : List Segment) : List Segment := segments ++ segments.getLast?.toList

/-- `iommu_map_sg_ext`, the whole of `iommu_map_sg` and `iommu_map_sg_atomic`. -/
def iommuMapSg (domain : RkIommuDomain) (segments : List Segment) : RkIommuDomain × ℕ :=
  let done := mapSgLoop format prot iova { domain, pending := ⟨0, 0⟩, mapped := 0 }
    (sgVisits segments)
  if done.2 ≠ 0 then ((iommuUnmap format done.1.domain iova done.1.mapped).1, 0)
  else (done.1.domain, done.1.mapped)

end Core

/-! ## Chunks -/

/-- The sum of the lengths. -/
def total (segments : List Segment) : ℕ := (segments.map Segment.length).sum

/-- The chunks that the visits flush; the last one stays pending. -/
def flushes (pending : Segment) : List Segment → List Segment
  | [] => []
  | sg :: visits =>
      if pending.length ≠ 0 ∧ sg.phys ≠ (pending.phys + pending.length) % 2 ^ 64 then
        pending :: flushes sg visits
      else if pending.length ≠ 0 then
        flushes { pending with length := pending.length + sg.length } visits
      else flushes sg visits

/-- Segments put together where one continues the other. -/
def coalesceFrom (pending : Segment) : List Segment → List Segment
  | [] => [pending]
  | sg :: segments =>
      if sg.phys ≠ (pending.phys + pending.length) % 2 ^ 64 then pending :: coalesceFrom sg segments
      else coalesceFrom { pending with length := pending.length + sg.length } segments

def coalesce : List Segment → List Segment
  | [] => []
  | sg :: segments => coalesceFrom sg segments

/-- The bindings of segments behind one another. -/
def sgBindings (format : PageFormat) (prot iova : ℕ) : List Segment → List (IovaPage × PageEntry)
  | [] => []
  | sg :: segments =>
      bindings format prot iova sg.phys (sg.length / spageSize) ++
        sgBindings format prot (iova + sg.length) segments

/-- Nonempty segments in a physical address space of 64 bits, with lengths of 32 bits. -/
def SgValid (segments : List Segment) : Prop :=
  ∀ sg ∈ segments, sg.phys < 2 ^ 64 ∧ 0 < sg.length ∧ sg.length < 2 ^ 32

variable {format : PageFormat} {domain : RkIommuDomain} {prot iova : ℕ}

/-- Putting segments together loses no length. -/
theorem total_coalesceFrom (pending : Segment) (segments : List Segment) :
    total (coalesceFrom pending segments) = pending.length + total segments := by
  induction segments generalizing pending with
  | nil => rfl
  | cons sg segments ih =>
      rw [coalesceFrom]
      split
      · show pending.length + total (coalesceFrom sg segments) = _
        rw [ih]
        rfl
      · rw [ih, Nat.add_assoc]
        rfl

theorem total_coalesce (segments : List Segment) : total (coalesce segments) = total segments := by
  cases segments with
  | nil => rfl
  | cons sg segments => exact total_coalesceFrom sg segments

/-- The second visit of the last segment flushes what is pending. -/
theorem flushes_last {pending last : Segment} (segments : List Segment)
    (nonempty : 0 < pending.length) (valid : SgValid (segments ++ [last]))
    (behind : segments = [] → (pending.phys + pending.length) % 2 ^ 64 =
      (last.phys + last.length) % 2 ^ 64)
    (final : ∀ sg ∈ segments.getLast?, sg = last) :
    flushes pending (segments ++ [last]) = coalesceFrom pending segments := by
  induction segments generalizing pending with
  | nil =>
      obtain ⟨low, positive, short⟩ := valid last (by simp)
      have apart : last.phys ≠ (pending.phys + pending.length) % 2 ^ 64 := by
        rw [behind rfl]
        omega
      rw [List.nil_append, flushes, if_pos ⟨Nat.ne_of_gt nonempty, apart⟩]
      rfl
  | cons sg segments ih =>
      have valid' : SgValid (segments ++ [last]) := fun other member =>
        valid other (List.mem_cons_of_mem _ member)
      have nonempty' := (valid sg (List.mem_cons_self ..)).2.1
      have final' : ∀ other ∈ segments.getLast?, other = last := by
        cases segments with
        | nil => simp
        | cons next segments => simpa using final
      have single : segments = [] → sg = last := by
        rintro rfl
        exact final sg rfl
      rw [List.cons_append, flushes, coalesceFrom]
      by_cases apart : sg.phys ≠ (pending.phys + pending.length) % 2 ^ 64
      · rw [if_pos ⟨Nat.ne_of_gt nonempty, apart⟩, if_pos apart,
          ih nonempty' valid' (fun empty => by rw [single empty]) final']
      · rw [if_neg fun both => apart both.2, if_pos (Nat.ne_of_gt nonempty), if_neg apart]
        refine ih (Nat.add_pos_left nonempty _) valid' (fun empty => ?_) final'
        rw [not_not] at apart
        rw [← single empty]
        simp only
        omega

/-- The loop flushes the chunks of the list. -/
theorem flushes_sgVisits {segments : List Segment} (valid : SgValid segments) (start : ℕ) :
    flushes ⟨start, 0⟩ (sgVisits segments) = coalesce segments := by
  cases segments with
  | nil => rfl
  | cons sg segments =>
      have nonempty := (valid sg (List.mem_cons_self ..)).2.1
      obtain ⟨last, found⟩ : ∃ last, (sg :: segments).getLast? = some last :=
        ⟨_, List.getLast?_eq_some_getLast (List.cons_ne_nil sg segments)⟩
      have member : last ∈ sg :: segments := List.mem_of_getLast? found
      rw [sgVisits, found, Option.toList_some, List.cons_append, flushes, if_neg (by simp),
        if_neg (by simp)]
      refine flushes_last segments nonempty (fun other among => ?_) (fun empty => ?_) ?_
      · rcases List.mem_append.mp among with inside | only
        · exact valid other (List.mem_cons_of_mem _ inside)
        · rw [List.mem_singleton.mp only]
          exact valid last member
      · subst empty
        rw [List.getLast?_singleton] at found
        rw [Option.some.inj found]
      · intro other among
        cases segments with
        | nil => simp at among
        | cons next segments =>
            rw [List.getLast?_cons_cons] at found
            rw [found] at among
            exact (Option.some.inj among).symm

/-! ## The loop -/

theorem map_fst_sgBindings (format : PageFormat) (prot iova : ℕ) {chunks : List Segment}
    (whole : ∀ chunk ∈ chunks, spageSize ∣ chunk.length) :
    spageSize ∣ total chunks ∧
      (sgBindings format prot iova chunks).map Prod.fst =
        pagesFrom iova (total chunks / spageSize) := by
  induction chunks generalizing iova with
  | nil => exact ⟨Nat.dvd_zero _, rfl⟩
  | cons chunk chunks ih =>
      obtain ⟨pages, length⟩ := whole chunk (List.mem_cons_self ..)
      obtain ⟨rest, keys⟩ :=
        ih (iova + chunk.length) fun other member => whole other (List.mem_cons_of_mem _ member)
      have sum : total (chunk :: chunks) = chunk.length + total chunks := rfl
      have count : chunk.length / spageSize = pages := by
        rw [length]
        exact Nat.mul_div_cancel_left pages (by decide)
      rw [sum, sgBindings, List.map_append, map_fst_bindings, keys, count]
      refine ⟨Nat.dvd_add ⟨pages, length⟩ rest, ?_⟩
      rw [length, Nat.mul_add_div (by decide), pagesFrom_add]

/-- What the loop has flushed is bound, and without an error that is every chunk. -/
structure SgResult (format : PageFormat) (prot iova : ℕ) (loop : SgLoop) (visits : List Segment)
    (flushed : List Segment) (result : SgLoop × ℤ) : Prop where
  formed : WellFormed format result.1.domain
  evolves : Evolves format loop.domain result.1.domain
  whole : ∀ chunk ∈ flushed, spageSize ∣ chunk.length
  aligned : flushed ≠ [] → spageSize ∣ iova + loop.mapped
  mapped : result.1.mapped = loop.mapped + total flushed
  bound : insertNew (lookup format loop.domain)
      (sgBindings format prot (iova + loop.mapped) flushed) =
    some (lookup format result.1.domain)
  all : result.2 = 0 → flushed = flushes loop.pending visits

/-- An iteration that flushes nothing. -/
theorem SgResult.keep {loop : SgLoop} {pending sg : Segment} {visits flushed : List Segment}
    {result : SgLoop × ℤ}
    (rest : SgResult format prot iova { loop with pending } visits flushed result)
    (flushes_eq : flushes loop.pending (sg :: visits) = flushes pending visits) :
    SgResult format prot iova loop (sg :: visits) flushed result where
  formed := rest.formed
  evolves := rest.evolves
  whole := rest.whole
  aligned := rest.aligned
  mapped := rest.mapped
  bound := rest.bound
  all zero := (rest.all zero).trans flushes_eq.symm

/-- An iteration that flushes the pending chunk. -/
theorem SgResult.flush {loop : SgLoop} {domain : RkIommuDomain} {sg : Segment}
    {visits flushed : List Segment} {result : SgLoop × ℤ}
    (apart : loop.pending.length ≠ 0 ∧
      sg.phys ≠ (loop.pending.phys + loop.pending.length) % 2 ^ 64)
    (evolves : Evolves format loop.domain domain)
    (aligned : Aligned ((iova + loop.mapped) % 2 ^ 64) loop.pending.phys loop.pending.length)
    (inserted : insertNew (lookup format loop.domain)
        (bindings format prot ((iova + loop.mapped) % 2 ^ 64) loop.pending.phys
          (loop.pending.length / spageSize)) = some (lookup format domain))
    (rest : SgResult format prot iova ⟨domain, sg, loop.mapped + loop.pending.length⟩ visits
      flushed result) :
    SgResult format prot iova loop (sg :: visits) (loop.pending :: flushed) result where
  formed := rest.formed
  evolves := evolves.trans rest.evolves
  whole chunk member := by
    rcases List.mem_cons.mp member with rfl | later
    · exact aligned.2.2
    · exact rest.whole chunk later
  aligned _ := by
    have word := aligned.1
    simp only [spageSize] at *
    omega
  mapped := by
    rw [rest.mapped, Nat.add_assoc]
    rfl
  bound := by
    rw [sgBindings, bindings_congr (Nat.mod_mod _ _).symm rfl, insertNew_append, inserted,
      Option.bind_some, Nat.add_assoc]
    exact rest.bound
  all zero := by
    rw [flushes, if_pos apart, rest.all zero]

theorem mapSgLoop_spec (prot iova : ℕ) (loop : SgLoop) (formed : WellFormed format loop.domain)
    (visits : List Segment) :
    ∃ flushed, SgResult format prot iova loop visits flushed
      (mapSgLoop format prot iova loop visits) := by
  induction visits generalizing loop with
  | nil =>
      refine ⟨[], formed, .refl format loop.domain, ?_, ?_, rfl, rfl, fun _ => rfl⟩
      · intro chunk member
        simp at member
      · intro nonempty
        exact absurd rfl nonempty
  | cons sg visits ih =>
      rw [mapSgLoop]
      by_cases apart : loop.pending.length ≠ 0 ∧
          sg.phys ≠ (loop.pending.phys + loop.pending.length) % 2 ^ 64
      · rw [if_pos apart]
        obtain ⟨formed', evolves, result⟩ := iommuMap_spec formed
          ((iova + loop.mapped) % 2 ^ 64) loop.pending.phys loop.pending.length prot
        have done := iommuMap_of_zero formed ((iova + loop.mapped) % 2 ^ 64) loop.pending.phys
          loop.pending.length prot
        generalize iommuMap format loop.domain ((iova + loop.mapped) % 2 ^ 64) loop.pending.phys
          loop.pending.length prot = flush at *
        by_cases failed : flush.2 = 0
        · obtain ⟨aligned, inserted⟩ := done failed
          obtain ⟨flushed, rest⟩ := ih ⟨flush.1, sg, loop.mapped + loop.pending.length⟩ formed'
          simp only [failed, ne_eq, not_true_eq_false, if_false]
          exact ⟨loop.pending :: flushed, .flush apart evolves aligned inserted rest⟩
        · have kept : lookup format flush.1 = lookup format loop.domain := by
            rcases result with ⟨zero, -⟩ | ⟨kept, -⟩
            · exact absurd zero failed
            · exact kept
          simp only [failed, ne_eq, not_false_eq_true, if_true]
          refine ⟨[], formed', evolves, ?_, ?_, rfl, congrArg some kept.symm, ?_⟩
          · intro chunk member
            simp at member
          · intro nonempty
            exact absurd rfl nonempty
          · intro zero
            exact absurd zero failed
      · rw [if_neg apart]
        by_cases some_pending : loop.pending.length ≠ 0
        · rw [if_pos some_pending]
          obtain ⟨flushed, rest⟩ := ih { loop with
            pending := { loop.pending with length := loop.pending.length + sg.length } } formed
          refine ⟨flushed, rest.keep ?_⟩
          rw [flushes, if_neg apart, if_pos some_pending]
        · rw [if_neg some_pending]
          obtain ⟨flushed, rest⟩ := ih { loop with pending := sg } formed
          refine ⟨flushed, rest.keep ?_⟩
          rw [flushes, if_neg apart, if_neg some_pending]

/-- Of whole pages, the chunks have the bindings of the segments. -/
theorem sgBindings_coalesceFrom {pending : Segment} {segments : List Segment}
    (pages : ∀ sg ∈ pending :: segments, spageSize ∣ sg.length) (iova : ℕ) :
    sgBindings format prot iova (coalesceFrom pending segments) =
      sgBindings format prot iova (pending :: segments) := by
  induction segments generalizing pending iova with
  | nil => rfl
  | cons sg segments ih =>
      have first := pages pending (List.mem_cons_self ..)
      have second := pages sg (by simp)
      rw [coalesceFrom]
      by_cases apart : sg.phys ≠ (pending.phys + pending.length) % 2 ^ 64
      · rw [if_pos apart, sgBindings,
          ih fun other member => pages other (List.mem_cons_of_mem _ member)]
        rfl
      · rw [if_neg apart, ih, sgBindings, sgBindings, sgBindings]
        · obtain ⟨front, length⟩ := first
          obtain ⟨back, length'⟩ := second
          rw [not_not] at apart
          have count : (pending.length + sg.length) / spageSize = front + back := by
            rw [length, length', ← Nat.mul_add]
            exact Nat.mul_div_cancel_left _ (by decide)
          have frontCount : pending.length / spageSize = front := by
            rw [length]
            exact Nat.mul_div_cancel_left _ (by decide)
          have backCount : sg.length / spageSize = back := by
            rw [length']
            exact Nat.mul_div_cancel_left _ (by decide)
          have continued : bindings format prot (iova + pending.length) sg.phys back =
              bindings format prot (iova + pending.length) (pending.phys + pending.length) back :=
            bindings_congr rfl (by rw [apart, Nat.mod_mod]) back
          rw [count, frontCount, backCount, bindings_add, List.append_assoc, ← length,
            Nat.add_assoc, continued]
        · intro other member
          rcases List.mem_cons.mp member with rfl | later
          · exact Nat.dvd_add first second
          · exact pages other (by simp [later])

theorem sgBindings_coalesce {segments : List Segment}
    (pages : ∀ sg ∈ segments, spageSize ∣ sg.length) (iova : ℕ) :
    sgBindings format prot iova (coalesce segments) = sgBindings format prot iova segments := by
  cases segments with
  | nil => rfl
  | cons sg segments => exact sgBindings_coalesceFrom pages iova

/-- `iommu_map_sg` binds every chunk of the list, or nothing and returns 0. -/
theorem iommuMapSg_spec (prot iova : ℕ) (formed : WellFormed format domain)
    {segments : List Segment} (valid : SgValid segments) :
    let result := iommuMapSg format prot iova domain segments
    WellFormed format result.1 ∧ Evolves format domain result.1 ∧
      ((result.2 = total segments ∧
          insertNew (lookup format domain) (sgBindings format prot iova (coalesce segments)) =
            some (lookup format result.1)) ∨
        (result.2 = 0 ∧ lookup format result.1 = lookup format domain)) := by
  rw [iommuMapSg]
  obtain ⟨flushed, done⟩ :=
    mapSgLoop_spec prot iova ⟨domain, ⟨0, 0⟩, 0⟩ formed (sgVisits segments)
  generalize mapSgLoop format prot iova ⟨domain, ⟨0, 0⟩, 0⟩ (sgVisits segments) = result at *
  have bound := done.bound
  have mapped := done.mapped
  simp only [Nat.add_zero, Nat.zero_add] at bound mapped
  by_cases failed : result.2 = 0
  · simp only [failed, ne_eq, not_true_eq_false, if_false]
    have all := done.all failed
    rw [flushes_sgVisits valid] at all
    rw [all] at bound mapped
    rw [total_coalesce] at mapped
    exact ⟨done.formed, done.evolves, .inl ⟨mapped, bound⟩⟩
  · simp only [failed, ne_eq, not_false_eq_true, if_true]
    obtain ⟨formed', evolves, undone⟩ := iommuUnmap_spec done.formed iova result.1.mapped
    refine ⟨formed', done.evolves.trans evolves, .inr ⟨trivial, ?_⟩⟩
    obtain ⟨pages, keys⟩ := map_fst_sgBindings format prot iova done.whole
    have restored := eraseBound_of_insertNew bound
    rw [keys, ← mapped] at restored
    rw [← mapped] at pages
    split at undone
    · rw [undone.1, restored]
    · -- An address that is not aligned has failed at the first chunk already.
      next misaligned =>
        have nothing : flushed = [] := by
          by_contra nonempty
          exact misaligned ⟨done.aligned nonempty, pages⟩
        rw [nothing] at bound
        exact undone.1.trans (Option.some.inj bound).symm

end Iommu
end RockchipSoc
