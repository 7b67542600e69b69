import RockchipSoc.Foundation.BoundedFifo
import RockchipSoc.Omx.BufferPort

/-!
# The queues of the OMX components

A queue is a ring of nodes.  Its constructor makes one node, and two fewer than the size it is given
after that, so the ring has one node less than declared; the counter of elements is compared with
the declared size.
-/

namespace RockchipSoc
namespace Omx

open BoundedFifo

variable {α : Type*}

/-- `ROCKCHIP_QElem`; a node of zeros has neither data nor a next node. -/
structure QElem (α : Type*) where
  data : Option α := none
  qNext : Option ℕ := none

/-- `ROCKCHIP_QUEUE` with the memory of its nodes, which are named in the order of their
allocation. -/
structure OsalQueue (α : Type*) where
  nodes : ℕ → QElem α
  first : Option ℕ
  last : Option ℕ
  numElem : ℕ
  maxNumElem : ℕ

/-- `MAX_QUEUE_ELEMENTS`. -/
def maxQueueElements : ℕ := 40

def setData (nodes : ℕ → QElem α) (node : ℕ) (data : Option α) : ℕ → QElem α :=
  Function.update nodes node { nodes node with data }

def setNext (nodes : ℕ → QElem α) (node : ℕ) (qNext : Option ℕ) : ℕ → QElem α :=
  Function.update nodes node { nodes node with qNext }

/-- The loop of the constructor: each new node is linked behind the one before. -/
def linkNodes : ℕ → ℕ → QElem α
  | 0 => fun _ => {}
  | count + 1 => setNext (linkNodes count) count (some (count + 1))

/-- With memory for all nodes; the last one is linked to the first. -/
def rockchipOsalQueueCreate (maxNumElem : ℕ) : OsalQueue α where
  nodes := setNext (linkNodes (maxNumElem - 2)) (maxNumElem - 2) (some 0)
  first := some 0
  last := some 0
  numElem := 0
  maxNumElem := maxNumElem

/-- The nodes that the constructor allocates. -/
def nodeCount (maxNumElem : ℕ) : ℕ := maxNumElem - 2 + 1

variable (queue : OsalQueue α)

/-- `none` is a fault; the result is whether the element was accepted. -/
def rockchipOsalQueue (data : α) : Option (OsalQueue α × Bool) :=
  queue.last.map fun last =>
    if (queue.nodes last).data.isSome ∨ queue.maxNumElem ≤ queue.numElem then (queue, false)
    else
      ({ queue with
          nodes := setData queue.nodes last (some data)
          last := (queue.nodes last).qNext
          numElem := queue.numElem + 1 }, true)

def rockchipOsalDequeue : Option (OsalQueue α × Option α) :=
  queue.first.map fun first =>
    if (queue.nodes first).data = none ∨ queue.numElem = 0 then (queue, none)
    else
      ({ queue with
          nodes := setData queue.nodes first none
          first := (queue.nodes first).qNext
          numElem := queue.numElem - 1 }, (queue.nodes first).data)

/-- The loop of the reset, back to the first node. -/
def clearNodes (first : ℕ) : ℕ → Option ℕ → (ℕ → QElem α) → Option (ℕ → QElem α)
  | 0, _, _ => none
  | fuel + 1, current, nodes =>
      current.bind fun node =>
        if node = first then some nodes
        else clearNodes first fuel (nodes node).qNext (setData nodes node none)

def rockchipOsalResetQueue (fuel : ℕ) : Option (OsalQueue α) :=
  queue.first.bind fun first =>
    (clearNodes first fuel (queue.nodes first).qNext (setData queue.nodes first none)).map
      fun nodes => { queue with nodes, last := some first, numElem := 0 }

/-- The loop of `Rockchip_OSAL_QueueTerminate`, and the node that is left. -/
def freeNodes (nodes : ℕ → QElem α) : ℕ → Option ℕ → Option (List ℕ)
  | 0, first => some first.toList
  | count + 1, first =>
      first.bind fun node => (freeNodes nodes count (nodes node).qNext).map (node :: ·)

/-- The nodes freed, in their order. -/
def rockchipOsalQueueTerminate : Option (List ℕ) :=
  freeNodes queue.nodes (queue.maxNumElem - 2) queue.first

/-- An operation, and `Rockchip_OSAL_GetElemNum` after it. -/
def osalStep (queue : OsalQueue α) (op : Op α) : Option (OsalQueue α × (Outcome α × ℕ)) :=
  match op with
  | .queue data =>
      (rockchipOsalQueue queue data).map fun next => (next.1, .accepted next.2, next.1.numElem)
  | .dequeue => (rockchipOsalDequeue queue).map fun next => (next.1, .data next.2, next.1.numElem)
  | .reset =>
      (rockchipOsalResetQueue queue queue.maxNumElem).map fun next => (next, .done, next.numElem)

/-- A queue of the declared size answers like a bounded queue of that capacity, and whatever was
done with it, each of its nodes is freed once. -/
structure BoundedQueue (α : Type*) (maxNumElem : ℕ) : Prop where
  fifo : ∀ ops : List (Op α),
    answers osalStep (rockchipOsalQueueCreate maxNumElem) ops = fifoAnswers maxNumElem ops
  frees : ∀ (ops : List (Op α)) (queue : OsalQueue α),
    after osalStep (rockchipOsalQueueCreate maxNumElem) ops = some queue →
      ∃ freed, rockchipOsalQueueTerminate queue = some freed ∧
        freed.Perm (List.range (nodeCount maxNumElem))

/-! ### The ring -/

theorem setData_data (nodes : ℕ → QElem α) (node : ℕ) (data : Option α) :
    (fun i => (setData nodes node data i).data) =
      Function.update (fun i => (nodes i).data) node data := by
  funext i
  by_cases same : i = node
  · simp [setData, same]
  · simp [setData, same]

@[simp] theorem setData_qNext (nodes : ℕ → QElem α) (node i : ℕ) (data : Option α) :
    (setData nodes node data i).qNext = (nodes i).qNext := by
  by_cases same : i = node
  · simp [setData, same]
  · simp [setData, same]

/-- The nodes are linked to a ring. -/
def Linked (size : ℕ) (nodes : ℕ → QElem α) : Prop :=
  ∀ i < size, (nodes i).qNext = some ((i + 1) % size)

theorem linkNodes_qNext (count i : ℕ) :
    (linkNodes count i : QElem α).qNext = if i < count then some (i + 1) else none := by
  induction count with
  | zero => rfl
  | succ count ih =>
      rw [linkNodes, setNext]
      by_cases last : i = count
      · rw [last, Function.update_self, if_pos (Nat.lt_succ_self _)]
      · rw [Function.update_of_ne last, ih]
        exact if_congr (by omega) rfl rfl

theorem linkNodes_data (count i : ℕ) : (linkNodes count i : QElem α).data = none := by
  induction count with
  | zero => rfl
  | succ count ih =>
      rw [linkNodes, setNext]
      by_cases last : i = count
      · rw [last, Function.update_self]
        exact last ▸ ih
      · rw [Function.update_of_ne last, ih]

theorem linked_create (maxNumElem : ℕ) :
    Linked (nodeCount maxNumElem) (rockchipOsalQueueCreate maxNumElem : OsalQueue α).nodes := by
  intro i below
  rw [nodeCount] at below ⊢
  rw [rockchipOsalQueueCreate, setNext]
  dsimp only
  by_cases last : i = maxNumElem - 2
  · rw [last, Function.update_self, Nat.mod_self]
  · rw [Function.update_of_ne last, linkNodes_qNext, if_pos (by omega), Nat.mod_eq_of_lt (by omega)]

theorem Linked.setData {size : ℕ} {nodes : ℕ → QElem α} (linked : Linked size nodes) (node : ℕ)
    (data : Option α) : Linked size (setData nodes node data) := fun i below => by
  rw [setData_qNext, linked i below]

theorem nodeCount_pos (maxNumElem : ℕ) : 0 < nodeCount maxNumElem := Nat.succ_pos _

theorem nodeCount_le {maxNumElem : ℕ} (declared : 1 ≤ maxNumElem) :
    nodeCount maxNumElem ≤ maxNumElem := by
  unfold nodeCount
  omega

/-- The ring holds the elements from the first node on; the last pointer is behind them. -/
structure Represents (queue : OsalQueue α) (items : List α) : Prop where
  declared : 1 ≤ queue.maxNumElem
  linked : Linked (nodeCount queue.maxNumElem) queue.nodes
  ring : ∃ first < nodeCount queue.maxNumElem, queue.first = some first ∧
    queue.last = some ((first + items.length) % nodeCount queue.maxNumElem) ∧
    Holds (nodeCount queue.maxNumElem) (fun i => (queue.nodes i).data) first items
  counted : queue.numElem = items.length

variable {queue : OsalQueue α} {items : List α}

theorem represents_create {maxNumElem : ℕ} (declared : 1 ≤ maxNumElem) :
    Represents (rockchipOsalQueueCreate maxNumElem : OsalQueue α) [] where
  declared := declared
  linked := linked_create maxNumElem
  ring := ⟨0, nodeCount_pos _, rfl, by simp [rockchipOsalQueueCreate], holds_nil fun i _ => by
    rw [rockchipOsalQueueCreate, setNext]
    by_cases last : i = maxNumElem - 2
    · simpa [last] using linkNodes_data (maxNumElem - 2) (maxNumElem - 2)
    · simpa [last] using linkNodes_data (maxNumElem - 2) i⟩
  counted := rfl

theorem Represents.enqueue (represents : Represents queue items) (data : α) :
    ∃ next, rockchipOsalQueue queue data =
        some (next, decide (items.length < nodeCount queue.maxNumElem)) ∧
      next.maxNumElem = queue.maxNumElem ∧
      Represents next
        (if items.length < nodeCount queue.maxNumElem then items ++ [data] else items) := by
  obtain ⟨first, below, atFirst, atLast, holds⟩ := represents.ring
  have positive := nodeCount_pos queue.maxNumElem
  have free := holds.free_iff positive
  rw [rockchipOsalQueue, atLast, Option.map_some]
  by_cases room : items.length < nodeCount queue.maxNumElem
  · have slot_free := free.mpr room
    have counter : queue.numElem < queue.maxNumElem := by
      rw [represents.counted]
      exact room.trans_le (nodeCount_le represents.declared)
    rw [decide_eq_true room, if_pos room, if_neg (by simp [slot_free]; omega)]
    refine ⟨_, rfl, rfl, ?_⟩
    exact
      { declared := represents.declared
        linked := represents.linked.setData _ _
        ring := ⟨first, below, atFirst, by
          dsimp only
          rw [represents.linked _ (Nat.mod_lt _ positive), Nat.mod_add_mod, List.length_append,
            List.length_singleton, Nat.add_assoc], by
          dsimp only
          rw [setData_data]
          exact holds.put room⟩
        counted := by simp [represents.counted] }
  · have occupied :
        (queue.nodes ((first + items.length) % nodeCount queue.maxNumElem)).data.isSome :=
      Option.isSome_iff_ne_none.mpr (mt free.mp room)
    rw [decide_eq_false room, if_neg room, if_pos (.inl occupied)]
    exact ⟨queue, rfl, rfl, represents⟩

theorem Represents.dequeue (represents : Represents queue items) :
    ∃ next, rockchipOsalDequeue queue = some (next, items.head?) ∧
      next.maxNumElem = queue.maxNumElem ∧ Represents next items.tail := by
  obtain ⟨first, below, atFirst, atLast, holds⟩ := represents.ring
  have head := holds.head (Nat.zero_lt_of_lt below)
  rw [Nat.mod_eq_of_lt below] at head
  rw [rockchipOsalDequeue, atFirst, Option.map_some, head]
  cases items with
  | nil => exact ⟨queue, congrArg some (if_pos (.inl rfl)), rfl, represents⟩
  | cons x items =>
      have counted := represents.counted
      rw [List.length_cons] at counted
      rw [if_neg (by simp [counted])]
      refine ⟨_, rfl, rfl, ?_⟩
      exact
        { declared := represents.declared
          linked := represents.linked.setData _ _
          ring := ⟨(first + 1) % nodeCount queue.maxNumElem, Nat.mod_lt _ (nodeCount_pos _),
            represents.linked first below, by
              rw [atLast, Nat.mod_add_mod, List.length_cons, List.tail_cons, Nat.add_assoc,
                Nat.add_comm 1], by
              dsimp only
              have taken := holds.take
              rw [Nat.mod_eq_of_lt below] at taken
              rw [setData_data]
              exact taken⟩
          counted := by simp [counted] }

/-- Each node is some number of steps behind the first one. -/
theorem exists_steps {size first i : ℕ} (below : first < size) (below' : i < size) :
    ∃ steps < size, (first + steps) % size = i := by
  refine ⟨(i + size - first) % size, Nat.mod_lt _ (by omega), ?_⟩
  rw [Nat.add_mod_mod, show first + (i + size - first) = i + size by omega, Nat.add_mod_right,
    Nat.mod_eq_of_lt below']

/-- With as many rounds as nodes, the loop of the reset comes back to the first one. -/
theorem clearNodes_spec {size first fuel steps : ℕ} {nodes : ℕ → QElem α} (below : first < size)
    (linked : Linked size nodes) (started : 0 < steps) (upTo : steps ≤ size)
    (enough : size < steps + fuel)
    (cleared : ∀ i < steps, (nodes ((first + i) % size)).data = none) :
    ∃ final, clearNodes first fuel (some ((first + steps) % size)) nodes = some final ∧
      Linked size final ∧ ∀ i < size, (final i).data = none := by
  induction fuel generalizing steps nodes with
  | zero => omega
  | succ fuel ih =>
      rw [clearNodes, Option.bind_some]
      rcases upTo.lt_or_eq with inside | round
      · have other : (first + steps) % size ≠ first := by
          have apart : (first + steps) % size ≠ (first + 0) % size :=
            slot_ne inside (Nat.zero_lt_of_lt below) started.ne'
          rwa [Nat.add_zero, Nat.mod_eq_of_lt below] at apart
        rw [if_neg other, linked _ (Nat.mod_lt _ (Nat.zero_lt_of_lt below)), Nat.mod_add_mod,
          Nat.add_assoc]
        refine ih (linked.setData _ _) (Nat.succ_pos _) inside (by omega) fun i within => ?_
        have data := congrFun (setData_data nodes ((first + steps) % size) none)
          ((first + i) % size)
        rw [data]
        rcases Nat.lt_succ_iff_lt_or_eq.mp within with earlier | rfl
        · rw [Function.update_of_ne (slot_ne (by omega) inside earlier.ne), cleared i earlier]
        · rw [Function.update_self]
      · rw [round, Nat.add_mod_right, Nat.mod_eq_of_lt below, if_pos rfl]
        refine ⟨nodes, rfl, linked, fun i inside => ?_⟩
        obtain ⟨behind, within, position⟩ := exists_steps below inside
        rw [← position]
        exact cleared behind (round ▸ within)

theorem Represents.reset (represents : Represents queue items) :
    ∃ next, rockchipOsalResetQueue queue queue.maxNumElem = some next ∧
      next.maxNumElem = queue.maxNumElem ∧ Represents next [] := by
  obtain ⟨first, below, atFirst, -, -⟩ := represents.ring
  have upTo := nodeCount_le represents.declared
  have started : ∀ i < 1, (setData queue.nodes first none
      ((first + i) % nodeCount queue.maxNumElem)).data = none := by
    intro i single
    obtain rfl : i = 0 := by omega
    rw [Nat.add_zero, Nat.mod_eq_of_lt below, setData, Function.update_self]
  obtain ⟨final, cleared, linked, empty⟩ := clearNodes_spec below
    (represents.linked.setData first none) Nat.one_pos (nodeCount_pos _)
    (show nodeCount queue.maxNumElem < 1 + queue.maxNumElem by omega) started
  rw [rockchipOsalResetQueue, atFirst, Option.bind_some, represents.linked first below, cleared,
    Option.map_some]
  refine ⟨_, rfl, rfl, ?_⟩
  exact
    { declared := represents.declared
      linked := linked
      ring := ⟨first, below, rfl, by simp [Nat.mod_eq_of_lt below], holds_nil empty⟩
      counted := rfl }

/-- Each operation follows a bounded queue with as many elements as there are nodes. -/
theorem osalStep_follows (represents : Represents queue items) (op : Op α) :
    ∃ next, osalStep queue op =
        some (next, (fifoStep (nodeCount queue.maxNumElem) items op).2) ∧
      next.maxNumElem = queue.maxNumElem ∧
      Represents next (fifoStep (nodeCount queue.maxNumElem) items op).1 := by
  cases op with
  | queue data =>
      obtain ⟨next, run, same, represents⟩ := represents.enqueue data
      have counted := represents.counted
      refine ⟨next, ?_, same, ?_⟩
      · rw [osalStep, run, Option.map_some, counted, fifoStep]
        split <;> simp_all
      · rw [fifoStep]
        split <;> simp_all
  | dequeue =>
      obtain ⟨next, run, same, represents⟩ := represents.dequeue
      refine ⟨next, ?_, same, represents⟩
      simp [osalStep, run, represents.counted, fifoStep]
  | reset =>
      obtain ⟨next, run, same, represents⟩ := represents.reset
      refine ⟨next, ?_, same, represents⟩
      simp [osalStep, run, represents.counted, fifoStep]

/-- A queue of any declared size answers like a bounded queue with as many elements as it has
nodes, and its pointers stay in the ring. -/
theorem osal_queue_refines_fifo {maxNumElem : ℕ} (declared : 1 ≤ maxNumElem)
    (ops : List (Op α)) :
    answers osalStep (rockchipOsalQueueCreate maxNumElem) ops =
        fifoAnswers (nodeCount maxNumElem) ops ∧
      ∃ queue items, after osalStep (rockchipOsalQueueCreate maxNumElem) ops = some queue ∧
        queue.maxNumElem = maxNumElem ∧ Represents queue items := by
  refine answers_eq_of_follows (fun queue items op ⟨same, represents⟩ => ?_)
    ⟨rfl, represents_create declared⟩ ops
  obtain ⟨next, run, same', represents⟩ := osalStep_follows represents op
  rw [same] at run represents
  exact ⟨next, run, same'.trans same, represents⟩

/-! ### The end of a queue -/

theorem freeNodes_linked {size : ℕ} {nodes : ℕ → QElem α} (linked : Linked size nodes)
    (positive : 0 < size) (count start : ℕ) :
    freeNodes nodes count (some (start % size)) =
      some ((List.range (count + 1)).map fun steps => (start + steps) % size) := by
  induction count generalizing start with
  | zero => rfl
  | succ count ih =>
      rw [freeNodes, Option.bind_some, linked _ (Nat.mod_lt _ positive), Nat.mod_add_mod, ih,
        Option.map_some, List.range_succ_eq_map (n := count + 1), List.map_cons, List.map_map]
      congr 3
      funext steps
      simp only [Function.comp_apply, Nat.succ_eq_add_one]
      congr 1
      omega

/-- Wherever the first pointer is, each node is freed once. -/
theorem Represents.frees (represents : Represents queue items) :
    ∃ freed, rockchipOsalQueueTerminate queue = some freed ∧
      freed.Perm (List.range (nodeCount queue.maxNumElem)) := by
  obtain ⟨first, below, atFirst, -, -⟩ := represents.ring
  have run := freeNodes_linked represents.linked (nodeCount_pos _) (queue.maxNumElem - 2) first
  rw [Nat.mod_eq_of_lt below] at run
  refine ⟨_, by rw [rockchipOsalQueueTerminate, atFirst, run], ?_⟩
  refine (List.perm_ext_iff_of_nodup ?_ List.nodup_range).mpr fun node => ?_
  · refine List.Nodup.map_on (fun i inside j inside' same => ?_) List.nodup_range
    by_contra other
    exact slot_ne (List.mem_range.mp inside) (List.mem_range.mp inside') other same
  · rw [List.mem_map, List.mem_range]
    constructor
    · rintro ⟨steps, -, rfl⟩
      exact Nat.mod_lt _ (nodeCount_pos _)
    · intro inside
      obtain ⟨steps, within, position⟩ := exists_steps below inside
      exact ⟨steps, List.mem_range.mpr within, position⟩

/-- A queue is a bounded queue of its declared size exactly when that size is one: every larger ring
is short of one node. -/
theorem osal_queue_bounded_iff (α : Type*) [Inhabited α] (maxNumElem : ℕ)
    (declared : 1 ≤ maxNumElem) : BoundedQueue α maxNumElem ↔ maxNumElem = 1 := by
  constructor
  · intro bounded
    have short := nodeCount_le declared
    have same := capacity_le_of_fifoAnswers_eq (α := α) fun ops =>
      (bounded.fifo ops).symm.trans (osal_queue_refines_fifo declared ops).1
    unfold nodeCount at same short
    omega
  · rintro rfl
    refine ⟨fun ops => (osal_queue_refines_fifo declared ops).1, fun ops queue run => ?_⟩
    obtain ⟨-, queue', items, run', same, represents⟩ := osal_queue_refines_fifo declared ops
    obtain rfl := Option.some.inj (run.symm.trans run')
    rw [← same]
    exact represents.frees

theorem osal_queue_bounded_one : BoundedQueue ℕ 1 :=
  (osal_queue_bounded_iff ℕ 1 le_rfl).mpr rfl

/-- The queues of the ports have room for one buffer fewer than they are made for. -/
theorem nodeCount_maxQueueElements : nodeCount maxQueueElements = ringElements := rfl

/-- The last of forty buffers is not accepted. -/
theorem fortieth_buffer_refused :
    ¬BoundedQueue ℕ maxQueueElements ∧
      (answers osalStep (rockchipOsalQueueCreate maxQueueElements)
        ((List.range 40).map Op.queue)).bind List.getLast? =
          some (.accepted false, 39) := by
  refine ⟨fun bounded => ?_, by decide⟩
  have room : maxQueueElements ≤ nodeCount maxQueueElements :=
    capacity_le_of_fifoAnswers_eq (α := ℕ) fun ops =>
      (bounded.fifo ops).symm.trans (osal_queue_refines_fifo (by decide) ops).1
  exact absurd room (by decide)

end Omx
end RockchipSoc
