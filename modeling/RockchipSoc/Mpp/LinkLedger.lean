import RockchipSoc.Mpp.LinkTask

/-!
# The ledger of one task

Seen from one task the link mode is a small machine: the lists that hold the task, the bits its
waiter looks at, and how often each stage is still to be executed for it.  A ledger is sound when
the references are those of the holders, and every holder is one that will put its reference.
-/

namespace RockchipSoc
namespace Mpp
namespace LinkTask

/-- What the system holds of one task; the bits are numbers so that they can be added. -/
structure Ledger where
  /-- The task is allotted. -/
  born : Nat
  ref : Nat
  freed : Nat
  inSession : Nat
  inPending : Nat
  inRunning : Nat
  inHw : Nat
  procDone : Nat
  done : Nat
  abort : Nat
  timeoutWork : Nat
  /-- How often a stage is still to be executed for the task. -/
  due : Stage → Nat

namespace Ledger

/-- A thread executes a stage and is left with others. -/
def turn (l : Ledger) (stage : Stage) (next : List Stage) : Ledger :=
  { l with due := fun other => l.due other - [stage].count other + next.count other }

/-- A stage becomes due without another being executed. -/
def owe (l : Ledger) (stage : Stage) (count : Nat) : Ledger :=
  { l with due := fun other => l.due other + if stage = other then count else 0 }

/-- The references that pending stages will put or hand on. -/
def held (l : Ledger) : Nat :=
  l.due .getSession + 2 * l.due .linkSession + l.due .getQueue + 2 * l.due .linkQueue + l.due .put

def toSession (l : Ledger) : Nat := l.due .getSession + l.due .linkSession

def toQueue (l : Ledger) : Nat := toSession l + l.due .getQueue + l.due .linkQueue

/-- The worker has the finished task in hand. -/
def receives (l : Ledger) : Nat := l.due .unlinkRunning + l.due .procDone

/-- The worker sends the task to the hardware. -/
def sends (l : Ledger) : Nat := l.due .taskQueue + l.due .toRunning

/-- The worker looks at a task that it found in the pending list. -/
def inspects (l : Ledger) : Nat := l.due .scan + l.due .abortCheck + sends l

def awaits (l : Ledger) : Nat := l.due .wait + l.due .popDone + l.due .abort + l.due .popPending

end Ledger

open LinkTask.Ledger

/-- What a step does to the ledger of one task. -/
inductive Moves (l : Ledger) : Ledger → Prop
  | rests : Moves l l
  | allotted (fresh : l.born = 0) : Moves l { l.owe .getSession 1 with
      born := 1, ref := 1, procDone := 0, done := 0, abort := 0, timeoutWork := 0 }
  | sessionGot (due : 0 < l.due .getSession) :
      Moves l { l.turn .getSession [.linkSession] with ref := l.ref + 1 }
  | sessionLinked (due : 0 < l.due .linkSession) :
      Moves l { l.turn .linkSession [.getQueue] with inSession := l.inSession + 1 }
  | queueGot (due : 0 < l.due .getQueue) :
      Moves l { l.turn .getQueue [.linkQueue] with ref := l.ref + 1 }
  | queueLinked (due : 0 < l.due .linkQueue) :
      Moves l { l.turn .linkQueue [.put] with inPending := l.inPending + 1 }
  | putLast (due : 0 < l.due .put) (last : l.ref = 1) (asleep : l.due .wakeUp = 0) :
      Moves l { l.turn .put [.freeTask] with ref := 0 }
  | putOther (due : 0 < l.due .put) (other : l.ref ≠ 1) :
      Moves l { l.turn .put [] with ref := l.ref - 1 }
  | freed (due : 0 < l.due .freeTask) : Moves l { l.turn .freeTask [] with
      freed := l.freed + 1, inPending := l.inPending - 1, inRunning := l.inRunning - 1 }
  | waits (listed : 0 < l.inSession) (alone : l.awaits = 0) : Moves l (l.owe .wait 1)
  | woken (due : 0 < l.due .wait) (processed : l.procDone = 1) :
      Moves l (l.turn .wait [.popDone])
  | waitTimedOut (due : 0 < l.due .wait) : Moves l (l.turn .wait [.abort])
  | donePopped (due : 0 < l.due .popDone) :
      Moves l { l.turn .popDone [.put, .popPending] with done := 1 }
  | aborted (due : 0 < l.due .abort) (waiting : 0 < l.inPending + l.toQueue)
      (unsent : l.sends = 0) : Moves l { l.turn .abort [.popPending] with abort := 1 }
  | pendingPopped (due : 0 < l.due .popPending) :
      Moves l { l.turn .popPending [.put] with inSession := l.inSession - 1 }
  | expires (scheduled : l.timeoutWork = 1) :
      Moves l { l.owe .timeoutProc 1 with timeoutWork := 0 }
  | timedOut (due : 0 < l.due .timeoutProc) : Moves l (l.turn .timeoutProc [])
  | received (sent : 0 < l.inHw) (cancelled : l.due .timeoutProc = 0) (idle : l.inspects = 0) :
      Moves l { l.owe .unlinkRunning 1 with inHw := l.inHw - 1, timeoutWork := 0 }
  | runningUnlinked (due : 0 < l.due .unlinkRunning) :
      Moves l { l.turn .unlinkRunning [.procDone] with
        inPending := l.inPending - 1, inRunning := l.inRunning - 1 }
  | processed (due : 0 < l.due .procDone) :
      Moves l { l.turn .procDone [.wakeUp] with procDone := 1 }
  | wokenUp (due : 0 < l.due .wakeUp) : Moves l (l.turn .wakeUp [])
  | scanBegins (idle : l.inspects = 0) : Moves l (l.owe .scan l.inPending)
  | scanDrops (due : 0 < l.due .scan) (request : l.abort = 1) :
      Moves l { l.turn .scan [.put] with
        inPending := l.inPending - 1, inRunning := l.inRunning - 1 }
  | scanLeaves (due : 0 < l.due .scan) : Moves l (l.turn .scan [])
  | found (idle : l.inspects = 0) (listed : 0 < l.inPending) : Moves l (l.owe .abortCheck 1)
  | checkStops (due : 0 < l.due .abortCheck) : Moves l (l.turn .abortCheck [])
  | admitted (due : 0 < l.due .abortCheck) (request : l.abort = 0) :
      Moves l (l.turn .abortCheck [.taskQueue])
  | queued (due : 0 < l.due .taskQueue) :
      Moves l { l.turn .taskQueue [.toRunning] with inHw := l.inHw + 1, timeoutWork := 1 }
  | movedToRunning (due : 0 < l.due .toRunning) :
      Moves l { l.turn .toRunning [] with
        inPending := l.inPending - 1, inRunning := l.inRunning - 1 + 1 }

/-- Who holds references to the task. -/
structure Booked (l : Ledger) : Prop where
  /-- Every reference is one that a list, the hardware, the waiter or a thread will put. -/
  references : l.ref + l.due .toRunning + l.done =
    l.held + l.inSession + l.inPending + l.inHw + l.receives + l.procDone
  /-- A task is freed when it loses its last reference. -/
  life : l.freed + l.due .freeTask + min l.ref 1 = l.born
  bits : l.born ≤ 1 ∧ l.done ≤ l.procDone ∧ l.procDone ≤ 1 ∧ l.abort ≤ 1 ∧ l.timeoutWork ≤ 1
  /-- A task that nobody refers to is not woken. -/
  asleep : 0 < l.due .wakeUp → 0 < l.ref

/-- Where the worker has the task. -/
structure Placed (l : Ledger) : Prop where
  /-- The queue takes the task once. -/
  once : l.toQueue + l.inPending + l.inHw + l.receives + l.procDone ≤ 1 + l.due .toRunning
  sent : l.due .toRunning ≤ l.inHw
  /-- The worker looks at tasks that are in the pending list. -/
  inspected : l.inspects ≤ l.inPending
  running : l.inRunning ≤ l.inHw + l.due .unlinkRunning
  /-- The timeout is cancelled when the hardware is done. -/
  timer : 0 < l.timeoutWork + l.due .timeoutProc → 0 < l.inHw

/-- What the waiter has done. -/
structure Waited (l : Ledger) : Prop where
  once : l.toSession + l.inSession ≤ 1
  waiter : l.awaits ≤ l.inSession
  rewarded : 0 < l.due .popDone → l.procDone = 1
  leaves : 0 < l.due .popPending → l.done = 1 ∨ l.abort = 1
  left : l.done = 1 ∨ l.abort = 1 → l.inSession + l.toSession ≤ l.due .popPending
  /-- Only a waiter that gave up or has the result ends the wait. -/
  ended : l.born = 1 → l.toSession + l.inSession = 1 ∨ l.done = 1 ∨ l.abort = 1
  /-- An aborted task has not reached the hardware. -/
  unsent : l.abort = 1 → l.inHw = 0 ∧ l.receives = 0 ∧ l.procDone = 0 ∧ l.sends = 0

structure Sound (l : Ledger) : Prop where
  booked : Booked l
  placed : Placed l
  waited : Waited l

variable {l l' : Ledger}

theorem Sound.booked_of_moves (sound : Sound l) (moves : Moves l l') : Booked l' := by
  obtain ⟨⟨references, life, bits, asleep⟩, ⟨once, sent, inspected, -, -⟩,
    ⟨single, waiter, rewarded, -, left, -, -⟩⟩ := sound
  cases moves <;>
  simp only [turn, owe, held, toSession, toQueue, receives, sends, inspects, awaits,
    List.count_cons, List.count_nil, beq_iff_eq, Nat.zero_add, Nat.add_zero] at * <;>
  refine ⟨?_, ?_, ?_, ?_⟩ <;>
  (try simp only [held, receives, reduceCtorEq, if_false, if_true, Nat.add_zero,
    Nat.sub_zero]) <;>
  first | assumption | omega

theorem Sound.placed_of_moves (sound : Sound l) (moves : Moves l l') : Placed l' := by
  obtain ⟨⟨references, life, bits, -⟩, ⟨once, sent, inspected, running, timer⟩,
    ⟨-, -, -, -, -, -, -⟩⟩ := sound
  cases moves <;>
  simp only [turn, owe, held, toSession, toQueue, receives, sends, inspects, awaits,
    List.count_cons, List.count_nil, beq_iff_eq, Nat.zero_add, Nat.add_zero] at * <;>
  refine ⟨?_, ?_, ?_, ?_, ?_⟩ <;>
  (try simp only [toSession, toQueue, receives, sends, inspects, reduceCtorEq, if_false,
    if_true, Nat.add_zero, Nat.sub_zero]) <;>
  first | assumption | omega

theorem Sound.waited_of_moves (sound : Sound l) (moves : Moves l l') : Waited l' := by
  obtain ⟨⟨references, life, bits, -⟩, ⟨once, sent, inspected, -, -⟩,
    ⟨single, waiter, rewarded, leaves, left, ended, unsent⟩⟩ := sound
  cases moves <;>
  simp only [turn, owe, held, toSession, toQueue, receives, sends, inspects, awaits,
    List.count_cons, List.count_nil, beq_iff_eq, Nat.zero_add, Nat.add_zero] at * <;>
  refine ⟨?_, ?_, ?_, ?_, ?_, ?_, ?_⟩ <;>
  (try simp only [toSession, receives, sends, awaits, reduceCtorEq, if_false, if_true, or_true,
    true_or, or_self, false_imp_iff, imp_true_iff, Nat.add_zero, Nat.sub_zero]) <;>
  first | assumption | omega

/-- Every move keeps the books. -/
theorem Sound.of_moves (sound : Sound l) (moves : Moves l l') : Sound l' :=
  ⟨sound.booked_of_moves moves, sound.placed_of_moves moves, sound.waited_of_moves moves⟩

/-- Nothing is held of a task that is freed. -/
theorem Sound.released (sound : Sound l) (freed : l.freed ≠ 0) :
    l.freed = 1 ∧ l.ref = 0 ∧ l.inSession = 0 ∧ l.inPending = 0 ∧ l.inRunning = 0 ∧ l.inHw = 0 ∧
      ∀ stage, l.due stage = 0 := by
  obtain ⟨⟨references, life, bits, asleep⟩, ⟨once, sent, inspected, running, timer⟩, waited⟩ :=
    sound
  have waiter := waited.waiter
  simp only [held, toSession, toQueue, receives, sends, inspects, awaits] at *
  refine ⟨by omega, by omega, by omega, by omega, by omega, by omega, fun stage => ?_⟩
  cases stage <;> omega

/-- A task that nobody holds any more is freed. -/
theorem Sound.settled (sound : Sound l) (born : l.born = 1) (session : l.inSession = 0)
    (pending : l.inPending = 0) (hardware : l.inHw = 0) (done : ∀ stage, l.due stage = 0) :
    l.ref = 0 ∧ l.freed = 1 := by
  have references := sound.booked.references
  have life := sound.booked.life
  have bits := sound.booked.bits
  have ended := sound.waited.ended born
  have unsent := sound.waited.unsent
  simp only [held, toSession, receives, done] at *
  omega

end LinkTask
end Mpp
end RockchipSoc
