import RockchipSoc.Iommu.Translation

/-!
# Zapping what is unmapped

A domain keeps a list of the IOMMUs that are attached to it.  `rk_iommu_unmap` zaps, line by line
and in each of them that is in use, the range it unmapped.  Over any run of attaching and detaching
the list holds exactly the IOMMUs that point to the domain, so the zapped lines are those of the
pages that lost their translation, in every IOMMU that might have cached it.
-/

namespace RockchipSoc
namespace Iommu

open PartialMap

/-- The part of `struct rk_iommu` that attaching looks at; domains are named by numbers. -/
structure RkIommu where
  numMmu : ℕ
  shootdownEntire : Bool
  domain : Option ℕ

/-- The IOMMUs, and for each domain its list of IOMMUs and `shootdown_entire`. -/
structure IommuSystem where
  iommu : ℕ → RkIommu
  iommus : ℕ → List ℕ
  shootdownEntire : ℕ → Bool

namespace IommuSystem

/-- `iommu->domain = domain`. -/
def setDomain (system : IommuSystem) (dev : ℕ) (domain : Option ℕ) : IommuSystem :=
  { system with iommu := Function.update system.iommu dev { system.iommu dev with domain } }

/-- `list_del_init(&iommu->node)`, from whichever list the node is on. -/
def unlink (system : IommuSystem) (dev : ℕ) : IommuSystem :=
  { system with iommus := fun domain => (system.iommus domain).filter fun other => other ≠ dev }

/-- `list_add_tail`, with `shootdown_entire` handed over. -/
def link (system : IommuSystem) (dev domain : ℕ) : IommuSystem :=
  { system with
    iommus := Function.update system.iommus domain (system.iommus domain ++ [dev])
    shootdownEntire :=
      Function.update system.shootdownEntire domain (system.iommu dev).shootdownEntire }

/-- `rk_iommu_detach_device` for a device behind an IOMMU. -/
def rkIommuDetachDevice (system : IommuSystem) (dev : ℕ) : IommuSystem :=
  match (system.iommu dev).domain with
  | none => system
  | some _ => (system.setDomain dev none).unlink dev

/-- `rk_iommu_attach_device` for a device behind an IOMMU, with the answers of
`pm_runtime_get_if_in_use` and `rk_iommu_enable`. -/
def rkIommuAttachDevice (system : IommuSystem) (domain : Option ℕ) (dev : ℕ)
    (inUse enable : ℤ) : IommuSystem × ℤ :=
  let detached := (system.rkIommuDetachDevice dev).setDomain dev domain
  match domain with
  | none => (detached, 0)
  | some target =>
      let attached := detached.link dev target
      if inUse ≤ 0 then (attached, 0)
      else if enable ≠ 0 then (attached.rkIommuDetachDevice dev, enable)
      else (attached, 0)

/-- A device that is attached to a domain, or to none, or detached. -/
inductive AttachCall where
  | attach (domain : Option ℕ) (dev : ℕ) (inUse enable : ℤ)
  | detach (dev : ℕ)

def attachAll (system : IommuSystem) : List AttachCall → IommuSystem
  | [] => system
  | .attach domain dev inUse enable :: calls =>
      (system.rkIommuAttachDevice domain dev inUse enable).1.attachAll calls
  | .detach dev :: calls => (system.rkIommuDetachDevice dev).attachAll calls

/-- Each domain has on its list, once, the IOMMUs that point to it. -/
structure Attached (system : IommuSystem) : Prop where
  mem_iff : ∀ dev domain, dev ∈ system.iommus domain ↔ (system.iommu dev).domain = some domain
  nodup : ∀ domain, (system.iommus domain).Nodup

/-- Nothing is attached yet. -/
def IsInitial (system : IommuSystem) : Prop :=
  (∀ dev, (system.iommu dev).domain = none) ∧ ∀ domain, system.iommus domain = []

variable {system : IommuSystem}

theorem IsInitial.attached (initial : system.IsInitial) : system.Attached where
  mem_iff dev domain := by simp [initial.1 dev, initial.2 domain]
  nodup domain := by simp [initial.2 domain]

theorem rkIommuDetachDevice_domain (system : IommuSystem) (dev : ℕ) :
    ((system.rkIommuDetachDevice dev).iommu dev).domain = none := by
  rw [rkIommuDetachDevice]
  split
  · assumption
  · simp [unlink, setDomain]

theorem Attached.detach (attached : system.Attached) (dev : ℕ) :
    (system.rkIommuDetachDevice dev).Attached := by
  rw [rkIommuDetachDevice]
  split
  · exact attached
  · refine ⟨fun other domain => ?_, fun domain => (attached.nodup domain).filter _⟩
    simp only [unlink, setDomain, List.mem_filter, decide_eq_true_eq, attached.mem_iff]
    by_cases same : other = dev
    · simp [same]
    · simp [same]

/-- A detached IOMMU is put at the end of one list. -/
theorem Attached.link (attached : system.Attached) {dev : ℕ}
    (detached : (system.iommu dev).domain = none) (domain : ℕ) :
    ((system.setDomain dev (some domain)).link dev domain).Attached := by
  have absent (other : ℕ) : dev ∉ system.iommus other := by
    simp [attached.mem_iff, detached]
  refine ⟨fun other target => ?_, fun target => ?_⟩
  · simp only [IommuSystem.link, setDomain]
    by_cases same : target = domain
    · subst same
      rw [Function.update_self, List.mem_append, List.mem_singleton, attached.mem_iff]
      by_cases self : other = dev
      · simp [self]
      · simp [self]
    · rw [Function.update_of_ne same, attached.mem_iff]
      by_cases self : other = dev
      · subst self
        simp [detached, Ne.symm same]
      · simp [self]
  · simp only [IommuSystem.link, setDomain]
    by_cases same : target = domain
    · subst same
      rw [Function.update_self]
      refine List.nodup_append.mpr ⟨attached.nodup target, List.pairwise_singleton _ _, ?_⟩
      intro other member self only
      rw [List.mem_singleton.mp only]
      rintro rfl
      exact absent target member
    · rw [Function.update_of_ne same]
      exact attached.nodup target

theorem Attached.attach (attached : system.Attached) (domain : Option ℕ) (dev : ℕ)
    (inUse enable : ℤ) : (system.rkIommuAttachDevice domain dev inUse enable).1.Attached := by
  have before := attached.detach dev
  have none_left := rkIommuDetachDevice_domain system dev
  cases domain with
  | none =>
      refine ⟨fun other target => ?_, before.nodup⟩
      simp only [rkIommuAttachDevice, setDomain, before.mem_iff]
      by_cases same : other = dev
      · subst same
        simp [none_left]
      · simp [same]
  | some target =>
      have linked := before.link none_left target
      simp only [rkIommuAttachDevice]
      split
      · exact linked
      · split
        · exact linked.detach dev
        · exact linked

/-- The lists are right after any run of attaching and detaching. -/
theorem Attached.attachAll (attached : system.Attached) (calls : List AttachCall) :
    (system.attachAll calls).Attached := by
  induction calls generalizing system with
  | nil => exact attached
  | cons call calls ih =>
      cases call with
      | attach domain dev inUse enable => exact ih (attached.attach domain dev inUse enable)
      | detach dev => exact ih (attached.detach dev)

/-! ## Zapping -/

/-- The lines `rk_iommu_zap_lines` writes to `RK_MMU_ZAP_ONE_LINE`. -/
def rkIommuZapLines (iovaStart size : ℕ) : List ℕ :=
  (List.range ((size + (spageSize - 1)) / spageSize)).map fun i =>
    (iovaStart + spageSize * i) % 2 ^ 32

/-- A line written in one of the MMUs of an IOMMU. -/
structure Zap where
  dev : ℕ
  mmu : ℕ
  line : ℕ
  deriving DecidableEq, Repr

/-- `rk_iommu_zap_iova`, with the answers of `pm_runtime_get_if_in_use`. -/
def rkIommuZapIova (system : IommuSystem) (domain : ℕ) (inUse : ℕ → ℤ) (iova size : ℕ) :
    List Zap :=
  (system.iommus domain).flatMap fun dev =>
    if inUse dev ≤ 0 then []
    else
      (List.range (system.iommu dev).numMmu).flatMap fun mmu =>
        (rkIommuZapLines iova size).map fun line => { dev, mmu, line }

/-- The ranges that the calls of `rk_iommu_unmap` report in the loop of `iommu_unmap_ext`. -/
def unmapRanges (format : PageFormat) (tables : RkIommuDomain) (iova size unmapped : ℕ) :
    List (ℕ × ℕ) :=
  if unmapped < size then
    let piece := rkIommuUnmap format tables iova (iommuPgsize iova iova (size - unmapped)).1
    if piece.2 = 0 then [(iova, 0)]
    else
      (iova, piece.2) ::
        unmapRanges format piece.1 ((iova + piece.2) % 2 ^ 64) size (unmapped + piece.2)
  else []
termination_by size - unmapped
decreasing_by
  have : (rkIommuUnmap format tables iova (iommuPgsize iova iova (size - unmapped)).1).2 ≠ 0 := by
    assumption
  omega

/-- Everything that an `iommu_unmap` zaps.  The second version leaves it to the user of a domain
with `shootdown_entire`. -/
def unmapZaps (system : IommuSystem) (domain version : ℕ) (inUse : ℕ → ℤ)
    (tables : RkIommuDomain) (iova size : ℕ) : List Zap :=
  if isAligned (iova ||| size) ∧ (version < 2 ∨ system.shootdownEntire domain = false) then
    (unmapRanges (rkIommuOps version) tables iova size 0).flatMap fun range =>
      system.rkIommuZapIova domain inUse range.1 range.2
  else []

theorem dvd_rkIommuUnmap (format : PageFormat) (tables : RkIommuDomain) (iova size : ℕ) :
    spageSize ∣ (rkIommuUnmap format tables iova size).2 := by
  rw [rkIommuUnmap]
  split
  · exact Nat.dvd_zero _
  · exact Nat.dvd_mul_left _ _

/-- The lines of a range of whole pages are those of its pages. -/
theorem map_pageOf_rkIommuZapLines {iova size : ℕ} (whole : spageSize ∣ size) :
    (rkIommuZapLines iova size).map pageOf = pagesFrom iova (size / spageSize) := by
  obtain ⟨pages, rfl⟩ := whole
  have count : (spageSize * pages + (spageSize - 1)) / spageSize = pages := by
    rw [Nat.mul_add_div (by decide)]
    rfl
  rw [rkIommuZapLines, count, Nat.mul_div_cancel_left pages (by decide), List.map_map]
  induction pages generalizing iova with
  | zero => rfl
  | succ pages ih =>
      rw [List.range_succ_eq_map, List.map_cons, List.map_map, pagesFrom, ← ih (by
        rw [Nat.mul_add_div (by decide)]
        rfl)]
      have first : pageOf ((iova + spageSize * 0) % 2 ^ 32) = pageOf iova := by
        apply Fin.ext
        rw [pageOf_val, pageOf_val]
        omega
      refine List.cons_eq_cons.mpr ⟨first, List.map_congr_left fun i _ => ?_⟩
      simp only [Function.comp_apply, Nat.mul_succ, Nat.add_assoc, Nat.add_comm spageSize]

/-- The ranges together are the part of the range that was unmapped. -/
theorem map_pageOf_unmapRanges (format : PageFormat) (tables : RkIommuDomain)
    (iova size unmapped : ℕ) :
    ∃ count, (iommuUnmapLoop format tables iova size unmapped).2 = unmapped + count * spageSize ∧
      ((unmapRanges format tables iova size unmapped).flatMap fun range =>
        (rkIommuZapLines range.1 range.2).map pageOf) = pagesFrom iova count := by
  induction left : size - unmapped using Nat.strong_induction_on
    generalizing tables iova unmapped with
  | _ left ih =>
      subst left
      rw [iommuUnmapLoop, unmapRanges]
      by_cases more : unmapped < size
      · rw [if_pos more, if_pos more]
        have whole :=
          dvd_rkIommuUnmap format tables iova (iommuPgsize iova iova (size - unmapped)).1
        generalize rkIommuUnmap format tables iova
          (iommuPgsize iova iova (size - unmapped)).1 = piece at whole ⊢
        by_cases stopped : piece.2 = 0
        · rw [if_pos stopped, if_pos stopped]
          exact ⟨0, by simp, by simp [rkIommuZapLines, pagesFrom, spageSize]⟩
        · rw [if_neg stopped, if_neg stopped]
          have less : size - (unmapped + piece.2) < size - unmapped := by omega
          obtain ⟨count, counted, pages⟩ :=
            ih _ less piece.1 ((iova + piece.2) % 2 ^ 64) (unmapped + piece.2) rfl
          obtain ⟨first, length⟩ := whole
          refine ⟨first + count, ?_, ?_⟩
          · rw [counted, length, Nat.add_mul, Nat.add_assoc, Nat.mul_comm spageSize]
          · rw [List.flatMap_cons, pages, map_pageOf_rkIommuZapLines ⟨first, length⟩, length,
              Nat.mul_div_cancel_left first (by decide), pagesFrom_add]
            exact congrArg _ (pagesFrom_congr (Nat.mod_mod _ _) count)
      · rw [if_neg more, if_neg more]
        exact ⟨0, by simp, rfl⟩

theorem mem_rkIommuZapIova {domain : ℕ} {inUse : ℕ → ℤ} {iova size dev mmu line : ℕ} :
    { dev, mmu, line } ∈ system.rkIommuZapIova domain inUse iova size ↔
      (dev ∈ system.iommus domain ∧ 0 < inUse dev ∧ mmu < (system.iommu dev).numMmu) ∧
        line ∈ rkIommuZapLines iova size := by
  simp only [rkIommuZapIova, List.mem_flatMap]
  constructor
  · rintro ⟨other, listed, zapped⟩
    split at zapped
    · simp at zapped
    · next used =>
        obtain ⟨place, inside, zapped⟩ := List.mem_flatMap.mp zapped
        obtain ⟨other', member, same⟩ := List.mem_map.mp zapped
        obtain ⟨rfl, rfl, rfl⟩ := Zap.mk.inj same
        exact ⟨⟨listed, Int.not_le.mp used, List.mem_range.mp inside⟩, member⟩
  · rintro ⟨⟨listed, used, inside⟩, member⟩
    refine ⟨dev, listed, ?_⟩
    rw [if_neg (Int.not_le.mpr used)]
    exact List.mem_flatMap.mpr ⟨mmu, List.mem_range.mpr inside, List.mem_map_of_mem member⟩

end IommuSystem

end Iommu
end RockchipSoc
