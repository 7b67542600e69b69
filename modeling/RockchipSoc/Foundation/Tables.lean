import Mathlib.Data.List.Basic
import Mathlib.Data.List.Nodup
import Mathlib.Logic.Function.Basic

/-!
# Tables of named objects

Objects that are created and found again by a handle or by an id.
-/

/-!
## Objects behind handles

Objects are created and terminated by name.  A table records which of them exist, and every fault:
an object that is created over an existing one, and one that is terminated while it does not exist.
-/

namespace HandleTable

variable {ω : Type*} [DecidableEq ω]

inductive Fault (ω : Type*)
  | createdOver (object : ω)
  | terminatedAbsent (object : ω)
  deriving DecidableEq, Repr

/-- Which objects exist, and what has gone wrong so far. -/
structure Table (ω : Type*) where
  present : ω → Bool
  faults : List (Fault ω)

/-- No object exists, and nothing has gone wrong. -/
def Table.empty : Table ω := ⟨fun _ => false, []⟩

def Table.create (table : Table ω) (object : ω) : Table ω :=
  { present := Function.update table.present object true
    faults :=
      if table.present object then .createdOver object :: table.faults else table.faults }

def Table.terminate (table : Table ω) (object : ω) : Table ω :=
  { present := Function.update table.present object false
    faults :=
      if table.present object then table.faults
      else .terminatedAbsent object :: table.faults }

/-- A handle that is overwritten with a new object or with none, whatever it was. -/
def Table.assign (table : Table ω) (object : ω) (made : Bool) : Table ω :=
  { table with present := Function.update table.present object made }

def Table.createAll (table : Table ω) (objects : List ω) : Table ω :=
  objects.foldl Table.create table

def Table.terminateAll (table : Table ω) (objects : List ω) : Table ω :=
  objects.foldl Table.terminate table

variable {table : Table ω} {object : ω} {objects : List ω}

theorem present_createAll : (table.createAll objects).present object =
    (table.present object || decide (object ∈ objects)) := by
  induction objects generalizing table with
  | nil => simp [Table.createAll]
  | cons first rest ih =>
      rw [Table.createAll, List.foldl_cons, ← Table.createAll, ih]
      by_cases same : object = first
      · simp [Table.create, same]
      · simp [Table.create, same]

theorem present_terminateAll : (table.terminateAll objects).present object =
    (table.present object && decide (object ∉ objects)) := by
  induction objects generalizing table with
  | nil => simp [Table.terminateAll]
  | cons first rest ih =>
      rw [Table.terminateAll, List.foldl_cons, ← Table.terminateAll, ih]
      by_cases same : object = first
      · simp [Table.terminate, same]
      · simp [Table.terminate, same]

/-- Distinct objects that do not exist can be created. -/
theorem faults_createAll (nodup : objects.Nodup)
    (absent : ∀ object ∈ objects, table.present object = false) :
    (table.createAll objects).faults = table.faults := by
  induction objects generalizing table with
  | nil => rfl
  | cons first rest ih =>
      obtain ⟨fresh, nodup⟩ := List.nodup_cons.mp nodup
      have first_absent := absent first List.mem_cons_self
      rw [Table.createAll, List.foldl_cons, ← Table.createAll, ih nodup]
      · simp [Table.create, first_absent]
      · intro object member
        have other : object ≠ first := fun same => fresh (same ▸ member)
        simpa [Table.create, other] using absent object (List.mem_cons_of_mem _ member)

/-- Distinct objects that exist can be terminated. -/
theorem faults_terminateAll (nodup : objects.Nodup)
    (exist : ∀ object ∈ objects, table.present object = true) :
    (table.terminateAll objects).faults = table.faults := by
  induction objects generalizing table with
  | nil => rfl
  | cons first rest ih =>
      obtain ⟨fresh, nodup⟩ := List.nodup_cons.mp nodup
      have first_exists := exist first List.mem_cons_self
      rw [Table.terminateAll, List.foldl_cons, ← Table.terminateAll, ih nodup]
      · simp [Table.terminate, first_exists]
      · intro object member
        have other : object ≠ first := fun same => fresh (same ▸ member)
        simpa [Table.terminate, other] using exist object (List.mem_cons_of_mem _ member)

theorem createAll_append (left right : List ω) :
    table.createAll (left ++ right) = (table.createAll left).createAll right :=
  List.foldl_append

theorem terminateAll_append (left right : List ω) :
    table.terminateAll (left ++ right) = (table.terminateAll left).terminateAll right :=
  List.foldl_append

end HandleTable

/-!
## Tables with allocated ids

A table is a list of values in ascending order of their ids.  An allocation takes the lowest free
id.  The lemmas say that allocation keeps the order, that its id is new, and that an id of the
table finds the value that carries it.
-/

namespace IdTable

variable {α : Type*} {key : α → Nat} {low : Nat} {table : List α}

/-- The ids are strictly ascending from `low` on. -/
def Ascending (key : α → Nat) : Nat → List α → Prop
  | _, [] => True
  | low, head :: tail => low ≤ key head ∧ Ascending key (key head + 1) tail

/-- The lowest free id from `id` on. -/
def lowestFree (key : α → Nat) (id : Nat) : List α → Nat
  | [] => id
  | head :: tail => if key head = id then lowestFree key (id + 1) tail else id

/-- Enter a value at the place of its id. -/
def insert (key : α → Nat) (value : α) : List α → List α
  | [] => [value]
  | head :: tail =>
      if key head < key value then head :: insert key value tail else value :: head :: tail

theorem Ascending.mono {low' : Nat} (ascending : Ascending key low table) (le : low' ≤ low) :
    Ascending key low' table := by
  cases table with
  | nil => trivial
  | cons head tail => exact ⟨Nat.le_trans le ascending.1, ascending.2⟩

theorem Ascending.le_of_mem {value : α} (ascending : Ascending key low table)
    (member : value ∈ table) : low ≤ key value := by
  induction table generalizing low with
  | nil => cases member
  | cons head tail ih =>
      rcases List.mem_cons.mp member with rfl | later
      · exact ascending.1
      · have := ih ascending.2 later
        have := ascending.1
        omega

/-- An id finds the value that carries it. -/
theorem Ascending.find_key {value : α} (ascending : Ascending key low table)
    (member : value ∈ table) : table.find? (fun other => key other == key value) = some value := by
  induction table generalizing low with
  | nil => cases member
  | cons head tail ih =>
      rcases List.mem_cons.mp member with rfl | later
      · simp
      · have above := ascending.2.le_of_mem later
        have different : (key head == key value) = false := by
          rw [beq_eq_false_iff_ne]
          omega
        rw [List.find?_cons, different]
        exact ih ascending.2 later

/-- Dropping values and changing them under their ids keeps the order. -/
theorem Ascending.filterMap {update : α → Option α} (ascending : Ascending key low table)
    (sameKey : ∀ value value', update value = some value' → key value' = key value) :
    Ascending key low (table.filterMap update) := by
  induction table generalizing low with
  | nil => trivial
  | cons head tail ih =>
      rw [List.filterMap_cons]
      cases kept : update head with
      | none => exact ih (ascending.2.mono (Nat.le_succ_of_le ascending.1))
      | some head' =>
          have same := sameKey head head' kept
          refine ⟨same ▸ ascending.1, ?_⟩
          rw [same]
          exact ih ascending.2

theorem le_lowestFree (key : α → Nat) (id : Nat) (table : List α) :
    id ≤ lowestFree key id table := by
  induction table generalizing id with
  | nil => exact Nat.le_refl id
  | cons head tail ih =>
      rw [lowestFree]
      split
      · exact Nat.le_of_succ_le (ih (id + 1))
      · exact Nat.le_refl id

/-- Entering a value under the lowest free id keeps the order. -/
theorem Ascending.insert {value : α} (ascending : Ascending key low table)
    (allocated : key value = lowestFree key low table) :
    Ascending key low (insert key value table) := by
  induction table generalizing low with
  | nil => exact ⟨Nat.le_of_eq allocated.symm, trivial⟩
  | cons head tail ih =>
      rw [lowestFree] at allocated
      split at allocated
      case isTrue taken =>
        have above := le_lowestFree key (low + 1) tail
        rw [IdTable.insert, if_pos (by omega)]
        refine ⟨ascending.1, ?_⟩
        rw [taken]
        exact ih (taken ▸ ascending.2) allocated
      case isFalse free =>
        have above : low < key head := Nat.lt_of_le_of_ne ascending.1 (Ne.symm free)
        rw [IdTable.insert, if_neg (by omega)]
        exact ⟨Nat.le_of_eq allocated.symm, by omega, ascending.2⟩

theorem insert_perm (value : α) (table : List α) :
    (insert key value table).Perm (value :: table) := by
  induction table with
  | nil => exact List.Perm.refl _
  | cons head tail ih =>
      rw [insert]
      split
      · exact (ih.cons head).trans (List.Perm.swap value head tail)
      · exact List.Perm.refl _

theorem mem_insert {value other : α} :
    other ∈ insert key value table ↔ other = value ∨ other ∈ table := by
  induction table with
  | nil => simp [insert]
  | cons head tail ih =>
      rw [insert]
      split
      · rw [List.mem_cons, List.mem_cons, ih]
        exact or_left_comm
      · rw [List.mem_cons]

end IdTable
