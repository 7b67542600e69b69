import RockchipSoc.Foundation.Ledger
import RockchipSoc.Omx.BufferPort

/-!
# Who owns a buffer header

A header whose call has succeeded is in the queue of its port, in its data buffer, or with the
message thread that is about to hand it back, and in one of these only.  This fails where a call
fails behind the mark that it sets, and where a call that has looked at the port before a flush
queues its message when the flush has already left the loop that empties the queue.
-/

namespace RockchipSoc
namespace Omx

open LabelledRun Ledger

variable {Header : Type} {p p' : BasePort Header}

/-- The header that the message thread has taken from the queue. -/
def FlushStage.hand : FlushStage Header → Option Header
  | .handing h => some h
  | _ => none

/-- The headers in the component: in the queue, in the data buffer, or about to be handed back. -/
def BasePort.contents (p : BasePort Header) : List Header :=
  p.bufferQ ++ (p.dataBuffer.toList ++ p.flush.hand.toList)

/-! ## The mutexes of the data buffers -/

/-- The message thread holds the mutexes. -/
def FlushStage.locked : FlushStage Header → Bool
  | .off | .raised | .posted => false
  | _ => true

/-- The flush has left the loop that empties the queue, and is not yet complete. -/
def FlushStage.pastQueue : FlushStage Header → Bool
  | .returning | .draining | .resetting | .finishing => true
  | _ => false

/-- The data buffer was handed back, and the mutexes are still held. -/
def FlushStage.pastBuffers : FlushStage Header → Bool
  | .draining | .resetting | .finishing | .unlocking => true
  | _ => false

/-- One thread is at the data buffer; behind its loops the flush finds nothing. -/
structure Guarded (p : BasePort Header) : Prop where
  process : p.process ≠ .outside ↔ p.bufferMutex = some .process
  flush : p.flush.locked = true ↔ p.bufferMutex = some .messageHandler
  queue : p.flush.pastQueue = true → p.bufferQ = []
  buffer : p.flush.pastBuffers = true → p.dataBuffer = none

theorem FlushStage.locked_of_pastQueue {stage : FlushStage Header} (past : stage.pastQueue = true) :
    stage.locked = true := by
  cases stage <;> first | rfl | cases past

theorem FlushStage.locked_of_pastBuffers {stage : FlushStage Header}
    (past : stage.pastBuffers = true) : stage.locked = true := by
  cases stage <;> first | rfl | cases past

/-- While the thread of the port holds the mutex, the flush has not come to the queue. -/
theorem Guarded.not_locked (guarded : Guarded p) (inside : p.process ≠ .outside) :
    p.flush.locked = false := by
  rw [Bool.eq_false_iff]
  intro locked
  have owner := guarded.process.mp inside
  rw [guarded.flush.mp locked] at owner
  cases owner

/-- Steps of the thread of the port within the mutex. -/
theorem Guarded.within (guarded : Guarded p) (inside : p.process ≠ .outside)
    (still : p'.process ≠ .outside) (mutex : p'.bufferMutex = p.bufferMutex)
    (flush : p'.flush = p.flush) : Guarded p' := by
  have unlocked := guarded.not_locked inside
  refine ⟨?_, ?_, ?_, ?_⟩
  · rw [mutex, ← guarded.process]
    exact iff_of_true still inside
  · rw [flush, mutex]
    exact guarded.flush
  · intro past
    rw [flush] at past
    rw [FlushStage.locked_of_pastQueue past] at unlocked
    cases unlocked
  · intro past
    rw [flush] at past
    rw [FlushStage.locked_of_pastBuffers past] at unlocked
    cases unlocked

/-- Steps that leave the mutex, the threads and the data buffer as they are. -/
theorem Guarded.congr (guarded : Guarded p) (process : p'.process = p.process)
    (mutex : p'.bufferMutex = p.bufferMutex) (flush : p'.flush = p.flush)
    (buffer : p'.dataBuffer = p.dataBuffer)
    (queue : p.flush.pastQueue = true → p'.bufferQ = p.bufferQ) : Guarded p' where
  process := by rw [process, mutex, guarded.process]
  flush := by rw [flush, mutex, guarded.flush]
  queue := fun past => by
    rw [flush] at past
    rw [queue past, guarded.queue past]
  buffer := fun past => by
    rw [flush] at past
    rw [buffer, guarded.buffer past]

/-- Steps of the message thread within the mutexes. -/
theorem Guarded.flushing (guarded : Guarded p) (locked : p.flush.locked = true)
    (still : p'.flush.locked = true) (process : p'.process = p.process)
    (mutex : p'.bufferMutex = p.bufferMutex)
    (queue : p'.flush.pastQueue = true → p'.bufferQ = [])
    (buffer : p'.flush.pastBuffers = true → p'.dataBuffer = none) : Guarded p' where
  process := by rw [process, mutex, guarded.process]
  flush := by
    rw [mutex, ← guarded.flush]
    exact iff_of_true still locked
  queue := queue
  buffer := buffer

/-! ## What the client can rely on -/

variable [DecidableEq Header]

/-- Each header that was accepted was handed back or is in one place; one that was refused is not
in the component and not marked; behind a flush nothing is in the component. -/
structure HeadersOwned (p : BasePort Header) : Prop where
  books : Balanced p.accepted p.handedBack p.contents
  refused : ∀ h, p.refused h = true →
    p.bBufferInOMX h = false ∧ h ∉ p.contents ∧ p.accepted h = p.handedBack h
  flushed : p.flushed = true → p.contents = []

/-- A call queues its message with memory and room for it, and not behind a flush's back. -/
def QueuesWell (p : BasePort Header) : PortLabel Header → Prop
  | .callQueue _ memory =>
      memory = true ∧ p.bufferQ.length < ringElements ∧ p.flush.pastQueue = false
  | _ => True

def QueuesSafely (ports : Ports Header) (label : PortIndex × PortLabel Header) : Prop :=
  QueuesWell (ports label.1) label.2

/-! ## The books -/

structure Custody (p : BasePort Header) : Prop where
  books : Balanced p.accepted p.handedBack p.contents
  calling : ∀ h, p.calls h = .checked ∨ p.calls h = .marked → h ∉ p.contents
  marked : ∀ h, p.bBufferInOMX h = true ↔ p.calls h = .marked ∨ h ∈ p.contents
  refused : ∀ h, p.refused h = true → p.calls h = .idle ∧ h ∉ p.contents
  flushed : p.flushed = true → p.contents = []

/-- Nothing changes in what the calls and the books say. -/
structure SameBooks (p p' : BasePort Header) : Prop where
  calls : p'.calls = p.calls
  accepted : p'.accepted = p.accepted
  refused : p'.refused = p.refused

/-- Steps that only move the headers. -/
theorem Custody.congr (custody : Custody p) (moved : p.contents.Perm p'.contents)
    (same : SameBooks p p') (marks : p'.bBufferInOMX = p.bBufferInOMX)
    (handedBack : p'.handedBack = p.handedBack)
    (flushed : p'.flushed = true → p.flushed = true ∨ p.contents = []) : Custody p' where
  books := by
    rw [same.accepted, handedBack]
    exact custody.books.perm moved
  calling := fun h stage member => by
    rw [same.calls] at stage
    exact custody.calling h stage (moved.mem_iff.mpr member)
  marked := fun h => by rw [marks, same.calls, custody.marked h, moved.mem_iff]
  refused := fun h error => by
    rw [same.refused] at error
    obtain ⟨idle, outside⟩ := custody.refused h error
    rw [same.calls]
    exact ⟨idle, fun member => outside (moved.mem_iff.mpr member)⟩
  flushed := fun complete => by
    have nothing : p.contents = [] := by
      rcases flushed complete with before | nothing
      · exact custody.flushed before
      · exact nothing
    rw [nothing] at moved
    exact moved.nil_eq.symm

/-- A header of the component is handed back. -/
theorem Custody.bufferReturn (custody : Custody p) {h : Header}
    (moved : p.contents.Perm (h :: p'.contents)) (same : SameBooks p p')
    (marks : p'.bBufferInOMX = Function.update p.bBufferInOMX h false)
    (handedBack : p'.handedBack = Function.update p.handedBack h (p.handedBack h + 1))
    (flushed : p'.flushed = p.flushed) : Custody p' := by
  have before := custody.books.perm moved
  have gone : h ∉ p'.contents := (List.nodup_cons.mp before.once).1
  have within {other : Header} (member : other ∈ p'.contents) : other ∈ p.contents :=
    moved.mem_iff.mpr (List.mem_cons_of_mem h member)
  have inside : h ∈ p.contents := moved.mem_iff.mpr List.mem_cons_self
  refine ⟨?_, ?_, ?_, ?_, ?_⟩
  · rw [same.accepted, handedBack]
    exact before.give
  · intro other stage member
    rw [same.calls] at stage
    exact custody.calling other stage (within member)
  · intro other
    rw [marks, same.calls]
    by_cases equal : other = h
    · subst equal
      have unmarked : p.calls other ≠ .marked := fun stage =>
        custody.calling other (.inr stage) inside
      simp [unmarked, gone]
    · rw [Function.update_of_ne equal, custody.marked other, moved.mem_iff, List.mem_cons]
      simp [equal]
  · intro other error
    rw [same.refused] at error
    obtain ⟨idle, outside⟩ := custody.refused other error
    rw [same.calls]
    exact ⟨idle, fun member => outside (within member)⟩
  · intro complete
    rw [flushed] at complete
    rw [custody.flushed complete] at inside
    cases inside

theorem Custody.headersOwned (custody : Custody p) : HeadersOwned p where
  books := custody.books
  refused := fun h error => by
    obtain ⟨idle, outside⟩ := custody.refused h error
    refine ⟨?_, outside, custody.books.notMem_iff.mp outside⟩
    rw [Bool.eq_false_iff]
    intro mark
    rcases (custody.marked h).mp mark with stage | member
    · rw [idle] at stage
      cases stage
    · exact outside member
  flushed := custody.flushed

/-! ## Calls -/

/-- A call goes on with a header that it has not marked. -/
theorem Custody.restage (custody : Custody p) {h : Header} {stage : CallStage}
    (contents : p'.contents = p.contents) (calls : p'.calls = Function.update p.calls h stage)
    (marks : p'.bBufferInOMX = p.bBufferInOMX) (accepted : p'.accepted = p.accepted)
    (handedBack : p'.handedBack = p.handedBack) (flushed : p'.flushed = p.flushed)
    (before : p.calls h ≠ .marked) (after : stage ≠ .marked)
    (outside : stage = .checked → h ∉ p.contents)
    (refused : ∀ other, p'.refused other = true →
      p.refused other = true ∧ (other = h → stage = .idle)) : Custody p' := by
  refine ⟨?_, fun other active => ?_, fun other => ?_, fun other error => ?_, fun complete => ?_⟩
  · rw [accepted, handedBack, contents]
    exact custody.books
  · rw [calls] at active
    rw [contents]
    by_cases same : other = h
    · subst same
      rw [Function.update_self] at active
      exact outside (active.resolve_right after)
    · rw [Function.update_of_ne same] at active
      exact custody.calling other active
  · rw [marks, calls, contents, custody.marked other]
    by_cases same : other = h
    · subst same
      simp only [Function.update_self, before, after, false_or]
    · rw [Function.update_of_ne same]
  · obtain ⟨old, idle'⟩ := refused other error
    obtain ⟨idle, free⟩ := custody.refused other old
    rw [calls, contents]
    refine ⟨?_, free⟩
    by_cases same : other = h
    · rw [same, Function.update_self, idle' same]
    · rw [Function.update_of_ne same, idle]
  · rw [flushed] at complete
    rw [contents, custody.flushed complete]

/-- A call with a header that the client owns. -/
theorem Custody.callCheck (custody : Custody p) {h : Header} (step : callCheck p h = some p') :
    Custody p' := by
  obtain ⟨⟨idle, owned⟩, taken⟩ := Option.ite_none_right_eq_some.mp step
  have outside : h ∉ p.contents := custody.books.notMem_iff.mpr owned
  have unmarked : p.calls h ≠ .marked := by simp [idle]
  split at taken
  · obtain rfl := Option.some.inj taken
    refine custody.restage rfl rfl rfl rfl rfl rfl unmarked (by decide) (fun _ => outside)
      fun other error => ?_
    by_cases same : other = h
    · simp only [same, Function.update_self, Bool.false_eq_true] at error
    · simp only [Function.update_of_ne same] at error
      exact ⟨error, fun equal => absurd equal same⟩
  · obtain rfl := Option.some.inj taken
    refine ⟨custody.books, custody.calling, custody.marked, fun other error => ?_,
      custody.flushed⟩
    by_cases same : other = h
    · subst same
      exact ⟨idle, outside⟩
    · simp only [Function.update_of_ne same] at error
      exact custody.refused other error

theorem Custody.callMark (custody : Custody p) {h : Header} (step : callMark p h = some p') :
    Custody p' := by
  obtain ⟨⟨checked, _⟩, taken⟩ := Option.ite_none_right_eq_some.mp step
  obtain rfl := Option.some.inj taken
  refine ⟨custody.books, fun other stage => ?_, fun other => ?_, fun other error => ?_,
    custody.flushed⟩
  · by_cases same : other = h
    · exact same ▸ custody.calling h (.inl checked)
    · simp only [Function.update_of_ne same] at stage
      exact custody.calling other stage
  · by_cases same : other = h
    · simp [same]
    · simp only [Function.update_of_ne same]
      exact custody.marked other
  · obtain ⟨idle, outside⟩ := custody.refused other error
    have different : other ≠ h := by
      rintro rfl
      rw [idle] at checked
      cases checked
    simp only [Function.update_of_ne different]
    exact ⟨idle, outside⟩

/-- A message that is queued puts its header into the component. -/
theorem Custody.callQueue (custody : Custody p) {h : Header} {memory : Bool}
    (allocated : memory = true) (room : p.bufferQ.length < ringElements)
    (step : callQueue p h memory = some p') : Custody p' := by
  obtain ⟨stage, taken⟩ := Option.ite_none_right_eq_some.mp step
  have queued : (memory && decide (p.bufferQ.length < ringElements)) = true := by
    simp [allocated, room]
  rw [if_pos queued] at taken
  obtain rfl := Option.some.inj taken
  have outside := custody.calling h (.inr stage)
  have moved : (h :: p.contents).Perm
      (p.bufferQ ++ [h] ++ (p.dataBuffer.toList ++ p.flush.hand.toList)) := by
    rw [List.append_assoc]
    exact List.perm_middle.symm
  have member (other : Header) :
      other ∈ p.bufferQ ++ [h] ++ (p.dataBuffer.toList ++ p.flush.hand.toList) ↔
        other = h ∨ other ∈ p.contents := by
    rw [← moved.mem_iff, List.mem_cons]
  refine ⟨(custody.books.take outside).perm moved, fun other stage' => ?_, fun other => ?_,
    fun other error => ?_, fun complete => by cases complete⟩
  · by_cases same : other = h
    · simp [same] at stage'
    · simp only [Function.update_of_ne same] at stage'
      rw [BasePort.contents, member]
      rintro (equal | inside)
      · exact same equal
      · exact custody.calling other stage' inside
  · rw [BasePort.contents, member]
    by_cases same : other = h
    · subst same
      simp [(custody.marked other).mpr (.inl stage)]
    · simp only [Function.update_of_ne same, same, false_or]
      exact custody.marked other
  · obtain ⟨idle, outside'⟩ := custody.refused other error
    have different : other ≠ h := by
      rintro rfl
      rw [idle] at stage
      cases stage
    rw [BasePort.contents, member]
    simp only [Function.update_of_ne different, different, false_or]
    exact ⟨idle, outside'⟩

theorem Custody.callPost (custody : Custody p) {h : Header} (step : callPost p h = some p') :
    Custody p' := by
  obtain ⟨queued, taken⟩ := Option.ite_none_right_eq_some.mp step
  obtain rfl := Option.some.inj taken
  have unmarked : p.calls h ≠ .marked := by simp [queued]
  exact custody.restage rfl rfl rfl rfl rfl rfl unmarked (by decide)
    (fun checked => by cases checked) fun _ error => ⟨error, fun _ => rfl⟩

/-! ## The thread of a port -/

/-- Steps that leave every header in its place. -/
theorem Custody.stay (custody : Custody p) (queue : p'.bufferQ = p.bufferQ)
    (buffer : p'.dataBuffer = p.dataBuffer) (hand : p'.flush.hand = p.flush.hand)
    (same : SameBooks p p') (marks : p'.bBufferInOMX = p.bBufferInOMX)
    (handedBack : p'.handedBack = p.handedBack) (flushed : p'.flushed = p.flushed) :
    Custody p' := by
  have contents : p'.contents = p.contents := by
    rw [BasePort.contents, BasePort.contents, queue, buffer, hand]
  exact custody.congr (.of_eq contents.symm) same marks handedBack
    fun complete => .inl (flushed ▸ complete)

theorem Custody.processTake (custody : Custody p) (step : processTake p = some p') :
    Custody p' := by
  obtain ⟨-, taken⟩ := Option.ite_none_right_eq_some.mp step
  cases buffer : p.dataBuffer with
  | some header =>
      simp only [buffer] at taken
      obtain rfl := Option.some.inj taken
      exact custody.stay rfl buffer.symm rfl ⟨rfl, rfl, rfl⟩ rfl rfl rfl
  | none =>
      cases queue : p.bufferQ with
      | nil =>
          simp only [buffer, queue] at taken
          obtain rfl := Option.some.inj taken
          exact custody.stay queue.symm buffer.symm rfl ⟨rfl, rfl, rfl⟩ rfl rfl rfl
      | cons h rest =>
          simp only [buffer, queue] at taken
          obtain rfl := Option.some.inj taken
          have moved : p.contents.Perm (rest ++ (h :: p.flush.hand.toList)) := by
            rw [BasePort.contents, queue, buffer]
            exact List.perm_middle.symm
          exact custody.congr moved ⟨rfl, rfl, rfl⟩ rfl rfl fun complete => .inl complete

theorem Custody.processReturn (custody : Custody p) (step : processReturn p = some p') :
    Custody p' := by
  rw [Omx.processReturn] at step
  split at step
  · next h _ buffer _ =>
      obtain rfl := Option.some.inj step
      have moved : p.contents.Perm (h :: (p.bufferQ ++ p.flush.hand.toList)) := by
        rw [BasePort.contents, buffer]
        exact List.perm_middle
      exact custody.bufferReturn moved ⟨rfl, rfl, rfl⟩ rfl rfl rfl
  · cases step

/-! ## The message thread -/

theorem Custody.flushTake (custody : Custody p) (step : flushTake p = some p') : Custody p' := by
  obtain ⟨⟨stage, _⟩, taken⟩ := Option.ite_none_right_eq_some.mp step
  have hand : p.flush.hand = none := by rw [stage]; rfl
  cases queue : p.bufferQ with
  | nil =>
      simp only [queue] at taken
      obtain rfl := Option.some.inj taken
      exact custody.stay queue.symm rfl hand.symm ⟨rfl, rfl, rfl⟩ rfl rfl rfl
  | cons h rest =>
      simp only [queue] at taken
      obtain rfl := Option.some.inj taken
      have moved : p.contents.Perm (rest ++ (p.dataBuffer.toList ++ [h])) := by
        rw [BasePort.contents, queue, hand, Option.toList_none, List.append_nil,
          ← List.append_assoc]
        exact (List.perm_append_singleton h (rest ++ p.dataBuffer.toList)).symm
      exact custody.congr moved ⟨rfl, rfl, rfl⟩ rfl rfl fun complete => .inl complete

theorem Custody.flushHand (custody : Custody p) (step : flushHand p = some p') : Custody p' := by
  rw [Omx.flushHand] at step
  split at step
  · next h stage _ =>
      obtain rfl := Option.some.inj step
      have moved : p.contents.Perm (h :: (p.bufferQ ++ (p.dataBuffer.toList ++ []))) := by
        rw [BasePort.contents, stage, List.append_nil, ← List.append_assoc]
        exact List.perm_append_singleton h (p.bufferQ ++ p.dataBuffer.toList)
      exact custody.bufferReturn moved ⟨rfl, rfl, rfl⟩ rfl rfl rfl
  · cases step

theorem Custody.flushReturn (custody : Custody p) (step : flushReturn p = some p') :
    Custody p' := by
  obtain ⟨stage, taken⟩ := Option.ite_none_right_eq_some.mp step
  have hand : p.flush.hand = none := by rw [stage]; rfl
  split at taken
  · obtain rfl := Option.some.inj taken
    exact custody.stay rfl rfl hand.symm ⟨rfl, rfl, rfl⟩ rfl rfl rfl
  · next h buffer _ =>
      obtain rfl := Option.some.inj taken
      have moved : p.contents.Perm (h :: (p.bufferQ ++ [])) := by
        rw [BasePort.contents, buffer, hand]
        exact List.perm_middle
      exact custody.bufferReturn moved ⟨rfl, rfl, rfl⟩ rfl rfl rfl
  · cases taken

/-- The queue that is dropped is empty. -/
theorem Custody.flushReset (custody : Custody p) (guarded : Guarded p)
    (step : flushReset p = some p') : Custody p' := by
  obtain ⟨stage, taken⟩ := Option.ite_none_right_eq_some.mp step
  obtain rfl := Option.some.inj taken
  have hand : p.flush.hand = none := by rw [stage]; rfl
  have nothing := guarded.queue (by rw [stage]; rfl)
  exact custody.stay nothing.symm rfl hand.symm ⟨rfl, rfl, rfl⟩ rfl rfl rfl

/-- Behind its loops the flush leaves nothing in the component. -/
theorem Custody.flushDone (custody : Custody p) (guarded : Guarded p)
    (step : flushDone p = some p') : Custody p' := by
  obtain ⟨stage, taken⟩ := Option.ite_none_right_eq_some.mp step
  obtain rfl := Option.some.inj taken
  have hand : p.flush.hand = none := by rw [stage]; rfl
  have queue := guarded.queue (by rw [stage]; rfl)
  have buffer := guarded.buffer (by rw [stage]; rfl)
  have nothing : p.contents = [] := by
    rw [BasePort.contents, queue, buffer, hand]
    rfl
  have moved : p.contents.Perm (p.bufferQ ++ (p.dataBuffer.toList ++ [])) := by
    rw [nothing, queue, buffer]
    exact .refl []
  exact custody.congr moved ⟨rfl, rfl, rfl⟩ rfl rfl fun _ => .inr nothing

/-! ## One step of a port -/

theorem Guarded.callQueue (guarded : Guarded p) {h : Header} {memory : Bool}
    (early : p.flush.pastQueue = false) (step : callQueue p h memory = some p') : Guarded p' := by
  obtain ⟨_, taken⟩ := Option.ite_none_right_eq_some.mp step
  have late (past : p.flush.pastQueue = true) : p'.bufferQ = p.bufferQ := by
    rw [early] at past
    cases past
  split at taken <;> obtain rfl := Option.some.inj taken <;>
    exact guarded.congr rfl rfl rfl rfl late

omit [DecidableEq Header] in
theorem Guarded.processLock (guarded : Guarded p) (step : processLock p = some p') :
    Guarded p' := by
  obtain ⟨⟨outside, free⟩, taken⟩ := Option.ite_none_right_eq_some.mp step
  obtain rfl := Option.some.inj taken
  have unlocked : p.flush.locked = false := by
    rw [Bool.eq_false_iff]
    intro locked
    rw [guarded.flush.mp locked] at free
    cases free
  exact ⟨by simp, by simp [unlocked], guarded.queue, guarded.buffer⟩

omit [DecidableEq Header] in
theorem Guarded.processUnlock (guarded : Guarded p) (step : processUnlock p = some p') :
    Guarded p' := by
  obtain ⟨stage, taken⟩ := Option.ite_none_right_eq_some.mp step
  obtain rfl := Option.some.inj taken
  have inside : p.process ≠ .outside := by
    rcases stage with stage | stage <;> simp [stage]
  have unlocked := guarded.not_locked inside
  exact ⟨by simp, by simp [unlocked], guarded.queue, guarded.buffer⟩

omit [DecidableEq Header] in
theorem Guarded.processGet (guarded : Guarded p) (step : processGet p = some p') : Guarded p' := by
  obtain ⟨stage, taken⟩ := Option.ite_none_right_eq_some.mp step
  have inside : p.process ≠ .outside := by simp [stage]
  split at taken
  · obtain rfl := Option.some.inj taken
    exact guarded.within inside (by simp) rfl rfl
  · obtain rfl := Option.some.inj taken
    refine guarded.within inside ?_ rfl rfl
    show (if p.bIsPortFlushed then ProcessStage.leaving else .waiting) ≠ .outside
    split <;> simp

omit [DecidableEq Header] in
theorem Guarded.processTake (guarded : Guarded p) (step : processTake p = some p') :
    Guarded p' := by
  obtain ⟨stage, taken⟩ := Option.ite_none_right_eq_some.mp step
  have inside : p.process ≠ .outside := by simp [stage]
  split at taken <;> obtain rfl := Option.some.inj taken <;>
    exact guarded.within inside (by simp) rfl rfl

theorem Guarded.processReturn (guarded : Guarded p) (step : processReturn p = some p') :
    Guarded p' := by
  rw [Omx.processReturn] at step
  split at step
  · next stage _ _ =>
      obtain rfl := Option.some.inj step
      exact guarded.within (by simp [stage]) (by simp) rfl rfl
  · cases step

theorem Guarded.flushHand (guarded : Guarded p) (step : flushHand p = some p') : Guarded p' := by
  rw [Omx.flushHand] at step
  split at step
  · next stage _ =>
      obtain rfl := Option.some.inj step
      exact guarded.flushing (by simp [stage, FlushStage.locked]) rfl rfl rfl nofun nofun
  · cases step

theorem Guarded.flushReturn (guarded : Guarded p) (step : flushReturn p = some p') :
    Guarded p' := by
  obtain ⟨stage, taken⟩ := Option.ite_none_right_eq_some.mp step
  have locked : p.flush.locked = true := by rw [stage]; rfl
  have queue : p.bufferQ = [] := guarded.queue (by rw [stage]; rfl)
  split at taken
  · next buffer =>
      obtain rfl := Option.some.inj taken
      exact guarded.flushing locked rfl rfl rfl (fun _ => queue) fun _ => buffer
  · obtain rfl := Option.some.inj taken
    exact guarded.flushing locked rfl rfl rfl (fun _ => queue) fun _ => rfl
  · cases taken

theorem Guarded.flushLock (guarded : Guarded p) (step : flushLock p = some p') : Guarded p' := by
  obtain ⟨⟨_, free⟩, taken⟩ := Option.ite_none_right_eq_some.mp step
  obtain rfl := Option.some.inj taken
  have outside : p.process = .outside := by
    by_contra inside
    rw [guarded.process.mp inside] at free
    cases free
  exact ⟨by simp [outside], by simp [FlushStage.locked], nofun, nofun⟩

theorem Guarded.flushTake (guarded : Guarded p) (step : flushTake p = some p') : Guarded p' := by
  obtain ⟨⟨stage, _⟩, taken⟩ := Option.ite_none_right_eq_some.mp step
  have locked : p.flush.locked = true := by rw [stage]; rfl
  split at taken <;> obtain rfl := Option.some.inj taken <;>
    exact guarded.flushing locked rfl rfl rfl nofun nofun

theorem Guarded.flushLoop (guarded : Guarded p) (step : flushLoop p = some p') : Guarded p' := by
  obtain ⟨stage, taken⟩ := Option.ite_none_right_eq_some.mp step
  have locked : p.flush.locked = true := by rw [stage]; rfl
  split at taken
  · next empty =>
      obtain rfl := Option.some.inj taken
      exact guarded.flushing locked rfl rfl rfl (fun _ => empty) nofun
  · obtain rfl := Option.some.inj taken
    exact guarded.flushing locked rfl rfl rfl nofun nofun

theorem Guarded.flushDrain (guarded : Guarded p) (step : flushDrain p = some p') :
    Guarded p' := by
  obtain ⟨stage, taken⟩ := Option.ite_none_right_eq_some.mp step
  have locked : p.flush.locked = true := by rw [stage]; rfl
  have queue : p.bufferQ = [] := guarded.queue (by rw [stage]; rfl)
  have buffer : p.dataBuffer = none := guarded.buffer (by rw [stage]; rfl)
  split at taken
  · obtain rfl := Option.some.inj taken
    exact guarded.flushing locked rfl rfl rfl (fun _ => queue) fun _ => buffer
  · obtain rfl := Option.some.inj taken
    exact guarded.congr rfl rfl rfl rfl fun _ => rfl

theorem Guarded.flushReset (guarded : Guarded p) (step : flushReset p = some p') :
    Guarded p' := by
  obtain ⟨stage, taken⟩ := Option.ite_none_right_eq_some.mp step
  obtain rfl := Option.some.inj taken
  have locked : p.flush.locked = true := by rw [stage]; rfl
  have buffer : p.dataBuffer = none := guarded.buffer (by rw [stage]; rfl)
  exact guarded.flushing locked rfl rfl rfl (fun _ => rfl) fun _ => buffer

theorem Guarded.flushDone (guarded : Guarded p) (step : flushDone p = some p') : Guarded p' := by
  obtain ⟨stage, taken⟩ := Option.ite_none_right_eq_some.mp step
  obtain rfl := Option.some.inj taken
  have locked : p.flush.locked = true := by rw [stage]; rfl
  have buffer : p.dataBuffer = none := guarded.buffer (by rw [stage]; rfl)
  exact guarded.flushing locked rfl rfl rfl nofun fun _ => buffer

theorem Guarded.flushUnlock (guarded : Guarded p) (step : flushUnlock p = some p') :
    Guarded p' := by
  obtain ⟨stage, taken⟩ := Option.ite_none_right_eq_some.mp step
  obtain rfl := Option.some.inj taken
  have owner := guarded.flush.mp (by rw [stage]; rfl)
  have outside : p.process = .outside := by
    by_contra inside
    rw [guarded.process.mp inside] at owner
    cases owner
  exact ⟨by simp [outside], by simp [FlushStage.locked], nofun, nofun⟩

omit [DecidableEq Header] in
/-- A flush that is not yet in the mutexes. -/
theorem Guarded.before (guarded : Guarded p) (unlocked : p.flush.locked = false)
    (still : p'.flush.locked = false) (process : p'.process = p.process)
    (mutex : p'.bufferMutex = p.bufferMutex) : Guarded p' where
  process := by rw [process, mutex, guarded.process]
  flush := by rw [mutex, ← guarded.flush, unlocked, still]
  queue := fun past => by
    rw [FlushStage.locked_of_pastQueue past] at still
    cases still
  buffer := fun past => by
    rw [FlushStage.locked_of_pastBuffers past] at still
    cases still

/-- What holds of a port in every run. -/
structure PortInv (p : BasePort Header) : Prop where
  custody : Custody p
  guarded : Guarded p

/-- Every step keeps the books and the mutexes. -/
theorem PortInv.portStep {label : PortLabel Header} (inv : PortInv p) (well : QueuesWell p label)
    (step : portStep p label = some p') : PortInv p' := by
  obtain ⟨custody, guarded⟩ := inv
  cases label with
  | callCheck h =>
      refine ⟨custody.callCheck step, ?_⟩
      obtain ⟨_, taken⟩ := Option.ite_none_right_eq_some.mp step
      split at taken <;> obtain rfl := Option.some.inj taken <;>
        exact guarded.congr rfl rfl rfl rfl fun _ => rfl
  | callMark h =>
      refine ⟨custody.callMark step, ?_⟩
      obtain ⟨_, taken⟩ := Option.ite_none_right_eq_some.mp step
      obtain rfl := Option.some.inj taken
      exact guarded.congr rfl rfl rfl rfl fun _ => rfl
  | callQueue h memory =>
      obtain ⟨allocated, room, early⟩ := well
      exact ⟨custody.callQueue allocated room step, guarded.callQueue early step⟩
  | callPost h =>
      refine ⟨custody.callPost step, ?_⟩
      obtain ⟨_, taken⟩ := Option.ite_none_right_eq_some.mp step
      obtain rfl := Option.some.inj taken
      exact guarded.congr rfl rfl rfl rfl fun _ => rfl
  | processLock =>
      refine ⟨?_, guarded.processLock step⟩
      obtain ⟨_, taken⟩ := Option.ite_none_right_eq_some.mp step
      obtain rfl := Option.some.inj taken
      exact custody.stay rfl rfl rfl ⟨rfl, rfl, rfl⟩ rfl rfl rfl
  | processGet =>
      refine ⟨?_, guarded.processGet step⟩
      obtain ⟨_, taken⟩ := Option.ite_none_right_eq_some.mp step
      split at taken <;> obtain rfl := Option.some.inj taken <;>
        exact custody.stay rfl rfl rfl ⟨rfl, rfl, rfl⟩ rfl rfl rfl
  | processWait =>
      obtain ⟨⟨stage, _⟩, taken⟩ := Option.ite_none_right_eq_some.mp step
      obtain rfl := Option.some.inj taken
      exact ⟨custody.stay rfl rfl rfl ⟨rfl, rfl, rfl⟩ rfl rfl rfl,
        guarded.within (by simp [stage]) (by simp) rfl rfl⟩
  | processTake => exact ⟨custody.processTake step, guarded.processTake step⟩
  | processReturn => exact ⟨custody.processReturn step, guarded.processReturn step⟩
  | processUnlock =>
      refine ⟨?_, guarded.processUnlock step⟩
      obtain ⟨_, taken⟩ := Option.ite_none_right_eq_some.mp step
      obtain rfl := Option.some.inj taken
      exact custody.stay rfl rfl rfl ⟨rfl, rfl, rfl⟩ rfl rfl rfl
  | sendFlush =>
      obtain rfl := Option.some.inj step
      exact ⟨custody.stay rfl rfl rfl ⟨rfl, rfl, rfl⟩ rfl rfl rfl,
        guarded.congr rfl rfl rfl rfl fun _ => rfl⟩
  | flushStart =>
      obtain ⟨stage, taken⟩ := Option.ite_none_right_eq_some.mp step
      obtain rfl := Option.some.inj taken
      have hand : p.flush.hand = none := by rw [stage]; rfl
      exact ⟨custody.stay rfl rfl hand.symm ⟨rfl, rfl, rfl⟩ rfl rfl rfl,
        guarded.before (by rw [stage]; rfl) rfl rfl rfl⟩
  | flushPost =>
      obtain ⟨stage, taken⟩ := Option.ite_none_right_eq_some.mp step
      obtain rfl := Option.some.inj taken
      have hand : p.flush.hand = none := by rw [stage]; rfl
      exact ⟨custody.stay rfl rfl hand.symm ⟨rfl, rfl, rfl⟩ rfl rfl rfl,
        guarded.before (by rw [stage]; rfl) rfl rfl rfl⟩
  | flushLock =>
      refine ⟨?_, guarded.flushLock step⟩
      obtain ⟨⟨stage, _⟩, taken⟩ := Option.ite_none_right_eq_some.mp step
      obtain rfl := Option.some.inj taken
      have hand : p.flush.hand = none := by rw [stage]; rfl
      exact custody.stay rfl rfl hand.symm ⟨rfl, rfl, rfl⟩ rfl rfl rfl
  | flushLoop =>
      refine ⟨?_, guarded.flushLoop step⟩
      obtain ⟨stage, taken⟩ := Option.ite_none_right_eq_some.mp step
      have hand : p.flush.hand = none := by rw [stage]; rfl
      split at taken <;> obtain rfl := Option.some.inj taken <;>
        exact custody.stay rfl rfl hand.symm ⟨rfl, rfl, rfl⟩ rfl rfl rfl
  | flushTake => exact ⟨custody.flushTake step, guarded.flushTake step⟩
  | flushHand => exact ⟨custody.flushHand step, guarded.flushHand step⟩
  | flushReturn => exact ⟨custody.flushReturn step, guarded.flushReturn step⟩
  | flushDrain =>
      refine ⟨?_, guarded.flushDrain step⟩
      obtain ⟨stage, taken⟩ := Option.ite_none_right_eq_some.mp step
      have hand : p.flush.hand = none := by rw [stage]; rfl
      split at taken <;> obtain rfl := Option.some.inj taken
      · exact custody.stay rfl rfl hand.symm ⟨rfl, rfl, rfl⟩ rfl rfl rfl
      · exact custody.stay rfl rfl rfl ⟨rfl, rfl, rfl⟩ rfl rfl rfl
  | flushReset => exact ⟨custody.flushReset guarded step, guarded.flushReset step⟩
  | flushDone => exact ⟨custody.flushDone guarded step, guarded.flushDone step⟩
  | flushUnlock =>
      refine ⟨?_, guarded.flushUnlock step⟩
      obtain ⟨stage, taken⟩ := Option.ite_none_right_eq_some.mp step
      obtain rfl := Option.some.inj taken
      have hand : p.flush.hand = none := by rw [stage]; rfl
      exact custody.stay rfl rfl hand.symm ⟨rfl, rfl, rfl⟩ rfl rfl rfl
  | disablePort =>
      obtain ⟨_, taken⟩ := Option.ite_none_right_eq_some.mp step
      obtain rfl := Option.some.inj taken
      exact ⟨custody.stay rfl rfl rfl ⟨rfl, rfl, rfl⟩ rfl rfl rfl,
        guarded.congr rfl rfl rfl rfl fun _ => rfl⟩

/-! ## Runs -/

theorem PortInv.fresh : PortInv ({} : BasePort Header) where
  custody := by
    refine ⟨balanced_nil, ?_, ?_, ?_, fun _ => rfl⟩
    · intro h _ member
      cases member
    · intro h
      simp [BasePort.contents, FlushStage.hand]
    · intro h refused
      cases refused
  guarded := ⟨by simp, by simp [FlushStage.locked], nofun, nofun⟩

/-- A step of one port leaves the other one alone. -/
theorem PortInv.portsStep {ports ports' : Ports Header} {label : PortIndex × PortLabel Header}
    (inv : ∀ i, PortInv (ports i)) (safely : QueuesSafely ports label)
    (step : portsStep ports label = some ports') (i : PortIndex) : PortInv (ports' i) := by
  rw [Omx.portsStep] at step
  split at step
  · cases step
  · obtain ⟨p', taken, rfl⟩ := Option.map_eq_some_iff.mp step
    by_cases same : i = label.1
    · subst same
      rw [Function.update_self]
      exact (inv label.1).portStep safely taken
    · rw [Function.update_of_ne same]
      exact inv i

/-- In a run whose calls queue their messages with memory and room for them, and not behind the
back of a flush, every header that was accepted was handed back or is in one place, and a refused
one has stayed with the client. -/
theorem headers_owned {ports : Ports Header}
    (run : Reaches portsStep QueuesSafely (freshPorts Header) ports) (i : PortIndex) :
    HeadersOwned (ports i) := by
  have inv : ∀ i, PortInv (ports i) := by
    apply run.invariant
    · intro before label after inv safely step
      exact PortInv.portsStep inv safely step
    · exact fun _ => PortInv.fresh
  exact (inv i).custody.headersOwned

instance QueuesWell.decidable (p : BasePort Header) :
    (label : PortLabel Header) → Decidable (QueuesWell p label)
  | .callQueue _ _ => inferInstanceAs (Decidable (_ ∧ _ ∧ _))
  | .callCheck _ | .callMark _ | .callPost _ | .processLock | .processGet | .processWait
  | .processTake | .processReturn | .processUnlock | .sendFlush | .flushStart | .flushPost
  | .flushLock | .flushLoop | .flushTake | .flushHand | .flushReturn | .flushDrain | .flushReset
  | .flushDone | .flushUnlock | .disablePort => isTrue trivial

instance (ports : Ports Header) (label : PortIndex × PortLabel Header) :
    Decidable (QueuesSafely ports label) :=
  QueuesWell.decidable (ports label.1) label.2

/-- Two calls; one header is copied, and the other one is flushed. -/
def copiedAndFlushed : List (PortIndex × PortLabel Nat) :=
  [.callCheck 0, .callMark 0, .callQueue 0 true, .callPost 0,
    .callCheck 1, .callMark 1, .callQueue 1 true, .callPost 1,
    .processLock, .processGet, .processWait, .processTake, .processReturn, .processUnlock,
    .sendFlush, .flushStart, .flushPost, .flushLock, .flushLoop, .flushTake, .flushHand,
    .flushLoop, .flushReturn, .flushDrain, .flushDrain, .flushReset, .flushDone,
    .flushUnlock].map fun label => (.input, label)

theorem headers_owned_copiedAndFlushed :
    ∃ ports, runs portsStep (freshPorts Nat) copiedAndFlushed = some ports ∧
      HeadersOwned (ports .input) := by
  obtain ⟨ports, execution⟩ := Option.isSome_iff_exists.mp
    (show (runs portsStep (freshPorts Nat) copiedAndFlushed).isSome by decide)
  have along : Along portsStep QueuesSafely (freshPorts Nat) copiedAndFlushed := by decide
  exact ⟨ports, execution, headers_owned (reaches_of_runs along execution) .input⟩

/-- A call looks at the port before a flush, and queues its message behind the loop of the flush
that empties the queue. -/
def queuedBehindFlush : List (PortIndex × PortLabel Nat) :=
  [.callCheck 0, .callMark 0, .flushStart, .flushPost, .flushLock, .flushLoop, .flushReturn,
    .callQueue 0 true, .flushDrain, .flushDrain, .flushReset].map fun label => (.input, label)

/-- The header is accepted, not handed back, and nowhere in the component. -/
theorem flush_loses_header :
    ∃ ports, runs portsStep (freshPorts Nat) queuedBehindFlush = some ports ∧
      ¬HeadersOwned (ports .input) := by
  obtain ⟨ports, execution⟩ := Option.isSome_iff_exists.mp
    (show (runs portsStep (freshPorts Nat) queuedBehindFlush).isSome by decide)
  have lost : ((runs portsStep (freshPorts Nat) queuedBehindFlush).map fun ports =>
      ((ports .input).accepted 0, (ports .input).handedBack 0, (ports .input).contents)) =
        some (1, 0, []) := by decide
  rw [execution, Option.map_some, Option.some.injEq, Prod.mk.injEq, Prod.mk.injEq] at lost
  obtain ⟨accepted, handedBack, contents⟩ := lost
  refine ⟨ports, execution, fun owned => ?_⟩
  have books := owned.books.conserved 0
  rw [accepted, handedBack, contents] at books
  cases books

end Omx
end RockchipSoc
