import RockchipSoc.Foundation.LabelledRun
import RockchipSoc.Foundation.LapCursor

/-!
# The link table ring of the video decoder

The worker writes tasks to the slots of the link table, sends them to the hardware, and receives
them in the same order.  Four cursors run over two laps of the table.  A task may take two slots;
the worker admits it only while two slots and one more are free.
-/

namespace RockchipSoc
namespace Mpp
namespace LinkRing

open LabelledRun LapCursor

/-- `struct rkvdec_link_dev`, as far as the ring goes. -/
structure RkvdecLinkDev where
  /-- Both `task_size` and `task_capacity`. -/
  taskSize : Nat
  taskWrite : Nat
  taskRead : Nat
  taskSend : Nat
  taskRecv : Nat
  taskTotal : Int := 0
  taskDecoded : Int := 0
  taskRunning : Int := 0
  taskPrepared : Int := 0
  taskToRun : Nat := 0
  /-- The task in a slot, if the slot does not hold the stuff task of the hack. -/
  tasksHw : Nat → Option Nat := fun _ => none
  resetRequest : Nat := 0
  /-- How many slots were written, sent and received so far; no function reads these. -/
  written : Nat := 0
  sent : Nat := 0
  received : Nat := 0
  /-- The slots that were written and not read back, and how often such a slot was written. -/
  occupied : Nat → Bool := fun _ => false
  reused : Nat := 0

/-- The cursors behind `rkvdec2_link_alloc_table`. -/
def allocTable (taskCapacity : Nat) : RkvdecLinkDev where
  taskSize := taskCapacity
  taskWrite := 0
  taskRead := taskCapacity
  taskSend := 0
  taskRecv := taskCapacity

def getTaskWrite (s : RkvdecLinkDev) : Nat := slot s.taskSize s.taskWrite

def getTaskRead (s : RkvdecLinkDev) : Nat := slot s.taskSize s.taskRead

def getTaskSend (s : RkvdecLinkDev) : Nat := slot s.taskSize s.taskSend

/-- `rkvdec_link_get_task_hw_queue_length`. -/
def getTaskHwQueueLength (s : RkvdecLinkDev) : Int :=
  if s.taskSend ≤ s.taskRecv then (s.taskSend : Int) + s.taskSize - s.taskRecv
  else (s.taskSend : Int) - s.taskRecv - s.taskSize

def getNextSlot (s : RkvdecLinkDev) : Option Nat :=
  if s.taskWrite = s.taskRead then none else some (getTaskWrite s)

/-! ## Writing and sending -/

/-- One slot is written: `rkvdec_link_inc_task_write` and what follows it. -/
def writeSlot (s : RkvdecLinkDev) (task : Option Nat) : RkvdecLinkDev :=
  { s with
    taskWrite := advance s.taskSize s.taskWrite
    tasksHw := fun k => if k = getTaskWrite s then task else s.tasksHw k
    taskToRun := s.taskToRun + 1
    taskPrepared := s.taskPrepared + 1
    written := s.written + 1
    occupied := fun k => s.occupied k || k == getTaskWrite s
    reused := s.reused + if s.occupied (getTaskWrite s) then 1 else 0 }

def writeTaskToSlot (s : RkvdecLinkDev) (idx task : Nat) (needHack : Bool) : RkvdecLinkDev :=
  if s.taskSize ≤ idx then s
  else writeSlot (if needHack then writeSlot s none else s) (some task)

/-- `rkvdec_link_inc_task_send`, once for each slot to run. -/
def advanceSend : Nat → RkvdecLinkDev → RkvdecLinkDev
  | 0, s => s
  | n + 1, s => advanceSend n
      { s with taskSend := advance s.taskSize s.taskSend, sent := s.sent + 1 }

def sendTaskToHw (s : RkvdecLinkDev) (slotIdx taskToRun : Nat) (resend : Bool) : RkvdecLinkDev :=
  if taskToRun = 0 ∨ s.taskSize < taskToRun ∨ s.taskSize ≤ slotIdx then s
  else
    let started :=
      if s.taskTotal = 0 ∨ resend then { s with taskTotal := 0, taskDecoded := 0 } else s
    let sent := if resend then started else advanceSend taskToRun started
    { sent with taskTotal := sent.taskTotal + taskToRun }

def linkPrepare (s : RkvdecLinkDev) (task : Nat) (needHack : Bool) : RkvdecLinkDev :=
  match getNextSlot s with
  | none => s
  | some idx => writeTaskToSlot s idx task needHack

def mppTaskQueue (s : RkvdecLinkDev) (task : Nat) (needHack : Bool) : RkvdecLinkDev :=
  let prepared := linkPrepare s task needHack
  if prepared.taskToRun = 0 then prepared
  else sendTaskToHw
    { prepared with
      taskToRun := 0
      taskRunning := prepared.taskRunning + prepared.taskToRun }
    (getTaskSend prepared) prepared.taskToRun false

/-! ## Receiving -/

/-- A slot is received and read back. -/
def recvSlot (s : RkvdecLinkDev) : RkvdecLinkDev :=
  { s with
    taskRecv := advance s.taskSize s.taskRecv
    taskRead := advance s.taskSize s.taskRead
    taskRunning := s.taskRunning - 1
    taskPrepared := s.taskPrepared - 1
    received := s.received + 1
    occupied := fun k => s.occupied k && k != getTaskRead s }

/-- `rkvdec_link_isr_recv_task`, with `decoded`: a stuff task that is the last one of a batch with
an error is not received, for it is sent again. -/
def isrRecvTask (error : Bool) : Nat → RkvdecLinkDev × Int → RkvdecLinkDev × Int
  | 0, outcome => outcome
  | n + 1, (s, decoded) =>
      if s.tasksHw (getTaskRead s) = none ∧ error ∧ n = 0 then
        isrRecvTask error n (s, decoded - 1)
      else isrRecvTask error n (recvSlot s, decoded)

/-- The registers that `rkvdec_link_status_update` reads, and bit 2 of register 224. -/
structure HwStatus where
  decoded : Int
  total : Int
  enabled : Bool
  error : Bool
  frameComplete : Bool

/-- `link_dec->decoded` when the tasks are counted. -/
def decodedTasks (hw : HwStatus) (taskTimeout : Bool) : Int :=
  hw.decoded + if (!hw.enabled || taskTimeout) && !hw.frameComplete then 1 else 0

/-- `do_reset` of `rkvdec2_link_isr`. -/
def resetAndResend (s : RkvdecLinkDev) (total decoded : Int) : RkvdecLinkDev :=
  let reset := { s with resetRequest := 0, taskDecoded := 0, taskTotal := 0 }
  let len := (getTaskHwQueueLength reset % 2 ^ 32).toNat
  if total = decoded ∨ len = 0 then reset
  else sendTaskToHw reset (getTaskRead reset) len true

def rkvdec2LinkIsr (s : RkvdecLinkDev) (hw : HwStatus) (taskTimeout : Bool) : RkvdecLinkDev :=
  let decoded := decodedTasks hw taskTimeout
  let count := decoded - s.taskDecoded
  if hw.enabled ∧ count = 0 ∧ s.resetRequest = 0 then s
  else
    let received := isrRecvTask hw.error count.toNat (s, decoded)
    let counted :=
      if count = 0 then s else { received.1 with taskDecoded := received.2 }
    if hw.enabled ∧ s.resetRequest = 0 then counted
    else resetAndResend counted hw.total received.2

/-! ## The worker -/

inductive LinkLabel
  /-- `rkvdec2_link_try_dequeue` for an interrupt or a timeout. -/
  | isr (hw : HwStatus) (taskTimeout : Bool)
  | reset
  | queue (task : Nat) (needHack : Bool)
  | powerOff
  /-- Somebody else raises `reset_request`. -/
  | requestReset

def linkStep (s : RkvdecLinkDev) : LinkLabel → Option RkvdecLinkDev
  | .isr hw taskTimeout =>
      if s.taskRunning ≠ 0 then
        some (rkvdec2LinkIsr { s with
          resetRequest := s.resetRequest + if taskTimeout then 1 else 0 } hw taskTimeout)
      else none
  | .reset =>
      if s.resetRequest ≠ 0 ∧ s.taskRunning = 0 ∧ s.taskPrepared = 0 then
        some { s with resetRequest := 0, taskDecoded := 0, taskTotal := 0 }
      else none
  | .queue task needHack =>
      if s.resetRequest = 0 ∧ s.taskRunning < (s.taskSize : Int) - 2 then
        some (mppTaskQueue s task needHack)
      else none
  | .powerOff =>
      if s.taskRunning = 0 ∧ s.taskPrepared = 0 then
        some { s with taskDecoded := 0, taskTotal := 0 }
      else none
  | .requestReset => some { s with resetRequest := s.resetRequest + 1 }

/-- The hardware counts no more tasks than are outstanding. -/
def CountsOutstanding (s : RkvdecLinkDev) : LinkLabel → Prop
  | .isr hw taskTimeout =>
      decodedTasks hw taskTimeout - s.taskDecoded ≤ (s.sent : Int) - s.received
  | _ => True

instance (s : RkvdecLinkDev) : (label : LinkLabel) → Decidable (CountsOutstanding s label)
  | .isr _ _ => inferInstanceAs (Decidable (_ ≤ _))
  | .reset | .queue _ _ | .powerOff | .requestReset => isTrue trivial

/-- The cursors, the counters and the slots of the ring. -/
structure RingKept (s : RkvdecLinkDev) : Prop where
  cursors : s.taskWrite < 2 * s.taskSize ∧ s.taskRead < 2 * s.taskSize ∧
    s.taskSend < 2 * s.taskSize ∧ s.taskRecv < 2 * s.taskSize
  prepared : s.taskPrepared = between s.taskSize s.taskRead s.taskWrite
  room : s.taskPrepared ≤ s.taskSize
  length : getTaskHwQueueLength s = (s.sent : Int) - s.received
  reused : s.reused = 0

/-! ## The invariant -/

variable {s s' : RkvdecLinkDev}

/-- The cursors as numbers of slots passed; the slots that are written and not read back are those
between two of these numbers. -/
structure RingInv (s : RkvdecLinkDev) : Prop where
  write : s.taskWrite = s.written % (2 * s.taskSize)
  send : s.taskSend = s.sent % (2 * s.taskSize)
  read : s.taskRead = (s.received + s.taskSize) % (2 * s.taskSize)
  recv : s.taskRecv = (s.received + s.taskSize) % (2 * s.taskSize)
  order : s.received ≤ s.sent
  toRun : s.sent + s.taskToRun = s.written
  room : s.written ≤ s.received + s.taskSize
  prepared : s.taskPrepared = (s.written : Int) - s.received
  running : s.taskRunning = (s.sent : Int) - s.received
  occupied : ∀ i, s.occupied i = true → ∃ n, s.received ≤ n ∧ n < s.written ∧ n % s.taskSize = i
  reused : s.reused = 0

theorem ringInv_allocTable (taskCapacity : Nat) : RingInv (allocTable taskCapacity) where
  write := (Nat.zero_mod _).symm
  send := (Nat.zero_mod _).symm
  read := by
    simp only [allocTable, Nat.zero_add]
    rcases Nat.eq_zero_or_pos taskCapacity with rfl | positive
    · rfl
    · rw [Nat.mod_eq_of_lt (by omega)]
  recv := by
    simp only [allocTable, Nat.zero_add]
    rcases Nat.eq_zero_or_pos taskCapacity with rfl | positive
    · rfl
    · rw [Nat.mod_eq_of_lt (by omega)]
  order := Nat.le_refl 0
  toRun := rfl
  room := Nat.zero_le _
  prepared := rfl
  running := rfl
  occupied _ busy := nomatch busy
  reused := rfl

theorem RingInv.getTaskWrite (inv : RingInv s) (positive : 0 < s.taskSize) :
    getTaskWrite s = s.written % s.taskSize := by
  rw [LinkRing.getTaskWrite, inv.write, slot_mod positive]

theorem RingInv.getTaskRead (inv : RingInv s) (positive : 0 < s.taskSize) :
    getTaskRead s = s.received % s.taskSize := by
  rw [LinkRing.getTaskRead, inv.read, slot_mod positive, Nat.add_mod_right]

/-- The slot at the writing cursor is free while the ring is not full. -/
theorem RingInv.free (inv : RingInv s) (positive : 0 < s.taskSize)
    (room : s.written < s.received + s.taskSize) :
    s.occupied (LinkRing.getTaskWrite s) = false := by
  refine Bool.eq_false_iff.mpr fun busy => ?_
  obtain ⟨n, later, earlier, same⟩ := inv.occupied _ busy
  rw [inv.getTaskWrite positive] at same
  exact mod_ne_mod earlier (by omega) same

theorem ringInv_writeSlot (inv : RingInv s) (positive : 0 < s.taskSize)
    (room : s.written < s.received + s.taskSize) (task : Option Nat) :
    RingInv (writeSlot s task) where
  write := by
    change advance s.taskSize s.taskWrite = (s.written + 1) % (2 * s.taskSize)
    rw [inv.write, advance_mod positive]
  send := inv.send
  read := inv.read
  recv := inv.recv
  order := inv.order
  toRun := by
    change s.sent + (s.taskToRun + 1) = s.written + 1
    rw [← inv.toRun, Nat.add_assoc]
  room := room
  prepared := by
    change s.taskPrepared + 1 = ((s.written + 1 : Nat) : Int) - s.received
    rw [inv.prepared]
    omega
  running := inv.running
  occupied i busy := by
    rcases Bool.or_eq_true_iff.mp busy with old | new
    · obtain ⟨n, later, earlier, same⟩ := inv.occupied i old
      exact ⟨n, later, Nat.lt_succ_of_lt earlier, same⟩
    · refine ⟨s.written, ?_, Nat.lt_succ_self _, ?_⟩
      · have order := inv.order
        have toRun := inv.toRun
        change s.received ≤ s.written
        omega
      · exact (inv.getTaskWrite positive).symm.trans (beq_iff_eq.mp new).symm
  reused := by
    change s.reused + (if s.occupied (LinkRing.getTaskWrite s) then 1 else 0) = 0
    rw [inv.free positive room, inv.reused]
    rfl

/-- What the ring does not depend on. -/
theorem RingInv.setCounts (inv : RingInv s) (total decoded : Int) (request : Nat) :
    RingInv { s with taskTotal := total, taskDecoded := decoded, resetRequest := request } :=
  ⟨inv.write, inv.send, inv.read, inv.recv, inv.order, inv.toRun, inv.room, inv.prepared,
    inv.running, inv.occupied, inv.reused⟩

theorem ringInv_recvSlot (inv : RingInv s) (positive : 0 < s.taskSize)
    (some : s.received < s.sent) : RingInv (recvSlot s) where
  write := inv.write
  send := inv.send
  read := by
    change advance s.taskSize s.taskRead = (s.received + 1 + s.taskSize) % (2 * s.taskSize)
    rw [inv.read, advance_mod positive, Nat.add_right_comm]
  recv := by
    change advance s.taskSize s.taskRecv = (s.received + 1 + s.taskSize) % (2 * s.taskSize)
    rw [inv.recv, advance_mod positive, Nat.add_right_comm]
  order := some
  toRun := inv.toRun
  room := by
    have room := inv.room
    change s.written ≤ s.received + 1 + s.taskSize
    omega
  prepared := by
    change s.taskPrepared - 1 = (s.written : Int) - (s.received + 1 : Nat)
    rw [inv.prepared]
    omega
  running := by
    change s.taskRunning - 1 = (s.sent : Int) - (s.received + 1 : Nat)
    rw [inv.running]
    omega
  occupied i busy := by
    obtain ⟨old, other⟩ := Bool.and_eq_true_iff.mp busy
    obtain ⟨n, later, earlier, same⟩ := inv.occupied i old
    have read := inv.getTaskRead positive
    have different : i ≠ LinkRing.getTaskRead s := bne_iff_ne.mp other
    have unread : n ≠ s.received := fun here => different (by rw [read, ← here, same])
    refine ⟨n, ?_, earlier, same⟩
    change s.received + 1 ≤ n
    omega
  reused := inv.reused

/-- A batch of receptions; the last one may leave its slot to be sent again. -/
theorem ringInv_isrRecvTask (error : Bool) (count : Nat) :
    ∀ {s : RkvdecLinkDev} (decoded : Int), RingInv s → 0 < s.taskSize →
      count ≤ s.sent - s.received →
      RingInv (isrRecvTask error count (s, decoded)).1 ∧
        (isrRecvTask error count (s, decoded)).1.taskSize = s.taskSize ∧
        (isrRecvTask error count (s, decoded)).1.taskToRun = s.taskToRun := by
  induction count with
  | zero => exact fun decoded inv _ _ => ⟨inv, rfl, rfl⟩
  | succ count ih =>
      intro s decoded inv positive outstanding
      rw [isrRecvTask]
      split
      · exact ih (decoded - 1) inv positive (by omega)
      · have received := ringInv_recvSlot inv positive (by omega)
        obtain ⟨later, size, toRun⟩ := ih decoded received positive
          (show count ≤ s.sent - (s.received + 1) by omega)
        exact ⟨later, size, toRun⟩

/-! ## Calls -/

/-- Between two calls every written slot is sent. -/
structure LinkInv (s : RkvdecLinkDev) : Prop extends RingInv s where
  size : 3 ≤ s.taskSize
  nothingToRun : s.taskToRun = 0

theorem RingInv.length (inv : RingInv s) (positive : 0 < s.taskSize) :
    getTaskHwQueueLength s = (s.sent : Int) - s.received := by
  have order := inv.order
  have toRun := inv.toRun
  have room := inv.room
  have distance := between_mod positive order (by omega)
  have inside : s.taskRecv < 2 * s.taskSize := inv.recv ▸ Nat.mod_lt _ (by omega)
  have inside' : s.taskSend < 2 * s.taskSize := inv.send ▸ Nat.mod_lt _ (by omega)
  rw [← inv.recv, ← inv.send] at distance
  rw [getTaskHwQueueLength, ← between_eq_ite inside inside' (by omega), distance]
  omega

theorem LinkInv.kept (inv : LinkInv s) : RingKept s := by
  have size := inv.size
  have order := inv.order
  have toRun := inv.toRun
  have room := inv.room
  have distance : between s.taskSize ((s.received + s.taskSize) % (2 * s.taskSize))
      (s.written % (2 * s.taskSize)) = s.written - s.received :=
    between_mod (by omega) (by omega) inv.room
  rw [← inv.read, ← inv.write] at distance
  refine ⟨⟨?_, ?_, ?_, ?_⟩, ?_, ?_, inv.toRingInv.length (by omega), inv.reused⟩
  · exact inv.write ▸ Nat.mod_lt _ (by omega)
  · exact inv.read ▸ Nat.mod_lt _ (by omega)
  · exact inv.send ▸ Nat.mod_lt _ (by omega)
  · exact inv.recv ▸ Nat.mod_lt _ (by omega)
  · rw [distance, inv.prepared]
    omega
  · rw [inv.prepared]
    omega

theorem linkInv_setCounts (inv : LinkInv s) (total decoded : Int) (request : Nat) :
    LinkInv { s with taskTotal := total, taskDecoded := decoded, resetRequest := request } where
  toRingInv := inv.toRingInv.setCounts total decoded request
  size := inv.size
  nothingToRun := inv.nothingToRun

/-- Sending again touches no cursor. -/
theorem linkInv_resend (inv : LinkInv s) (slotIdx taskToRun : Nat) :
    LinkInv (sendTaskToHw s slotIdx taskToRun true) := by
  rw [sendTaskToHw]
  split
  · exact inv
  · simp only [or_true, if_true]
    exact linkInv_setCounts inv _ _ _

theorem linkInv_resetAndResend (inv : LinkInv s) (total decoded : Int) :
    LinkInv (resetAndResend s total decoded) := by
  simp only [resetAndResend]
  split
  · exact linkInv_setCounts inv _ _ _
  · exact linkInv_resend (linkInv_setCounts inv _ _ _) _ _

theorem linkInv_rkvdec2LinkIsr (inv : LinkInv s) {hw : HwStatus} {taskTimeout : Bool}
    (counts : decodedTasks hw taskTimeout - s.taskDecoded ≤ (s.sent : Int) - s.received) :
    LinkInv (rkvdec2LinkIsr s hw taskTimeout) := by
  have size := inv.size
  have order := inv.order
  obtain ⟨ring, sizeSame, toRunSame⟩ := ringInv_isrRecvTask hw.error
    (decodedTasks hw taskTimeout - s.taskDecoded).toNat (decodedTasks hw taskTimeout)
    inv.toRingInv (by omega) (by omega)
  have received : LinkInv (isrRecvTask hw.error
      (decodedTasks hw taskTimeout - s.taskDecoded).toNat (s, decodedTasks hw taskTimeout)).1 :=
    ⟨ring, sizeSame ▸ inv.size, toRunSame.trans inv.nothingToRun⟩
  have counted : LinkInv (if decodedTasks hw taskTimeout - s.taskDecoded = 0 then s else
      { (isrRecvTask hw.error (decodedTasks hw taskTimeout - s.taskDecoded).toNat
        (s, decodedTasks hw taskTimeout)).1 with
        taskDecoded := (isrRecvTask hw.error (decodedTasks hw taskTimeout - s.taskDecoded).toNat
          (s, decodedTasks hw taskTimeout)).2 }) := by
    split
    · exact inv
    · exact linkInv_setCounts received _ _ _
  simp only [rkvdec2LinkIsr]
  split
  · exact inv
  · split
    · exact counted
    · exact linkInv_resetAndResend counted _ _

/-- The sending cursor behind a number of slots. -/
def atSent (s : RkvdecLinkDev) (sent : Nat) : RkvdecLinkDev :=
  { s with taskSend := sent % (2 * s.taskSize), sent := sent }

theorem advanceSend_atSent (positive : 0 < s.taskSize) (n sent : Nat) :
    advanceSend n (atSent s sent) = atSent s (sent + n) := by
  induction n generalizing sent with
  | zero => rfl
  | succ n ih =>
      have next : advance s.taskSize (sent % (2 * s.taskSize)) = (sent + 1) % (2 * s.taskSize) :=
        advance_mod positive sent
      calc advanceSend (n + 1) (atSent s sent)
          = advanceSend n (atSent s (sent + 1)) := by
            rw [advanceSend]
            simp only [atSent, next]
        _ = atSent s (sent + (n + 1)) := by rw [ih, Nat.add_assoc, Nat.add_comm 1 n]

/-- Sending what was prepared moves the sending cursor up to the writing one. -/
theorem linkInv_send (inv : RingInv s) (size : 3 ≤ s.taskSize) (some : s.taskToRun ≠ 0)
    (few : s.taskToRun ≤ s.taskSize) :
    LinkInv (sendTaskToHw { s with taskToRun := 0, taskRunning := s.taskRunning + s.taskToRun }
      (getTaskSend s) s.taskToRun false) := by
  have positive : 0 < s.taskSize := by omega
  have order := inv.order
  have inside : getTaskSend s < s.taskSize := by
    rw [getTaskSend, inv.send, slot_mod positive]
    exact Nat.mod_lt _ positive
  rw [sendTaskToHw, if_neg (by
    rintro (none | many | outside)
    · exact some none
    · exact absurd few (Nat.not_le.mpr many)
    · exact absurd inside (Nat.not_lt.mpr outside))]
  simp only [Bool.false_eq_true, or_false, if_false]
  have started : ∀ total decoded total' : Int, LinkInv
      { advanceSend s.taskToRun { s with
          taskToRun := 0, taskRunning := s.taskRunning + s.taskToRun,
          taskTotal := total, taskDecoded := decoded } with taskTotal := total' } := by
    intro total decoded total'
    have current : { s with
        taskToRun := 0, taskRunning := s.taskRunning + s.taskToRun,
        taskTotal := total, taskDecoded := decoded } = atSent { s with
          taskToRun := 0, taskRunning := s.taskRunning + s.taskToRun,
          taskTotal := total, taskDecoded := decoded } s.sent := by
      rw [atSent, ← inv.send]
    rw [current, advanceSend_atSent (by exact positive)]
    refine ⟨⟨inv.write, rfl, inv.read, inv.recv, Nat.le_add_right_of_le order, inv.toRun, inv.room,
      inv.prepared, ?_, inv.occupied, inv.reused⟩, size, rfl⟩
    change s.taskRunning + s.taskToRun = ((s.sent + s.taskToRun : Nat) : Int) - s.received
    rw [inv.running]
    omega
  split
  · exact started 0 0 _
  · exact started s.taskTotal s.taskDecoded _

/-- A ring that is not full has a next slot. -/
theorem getNextSlot_of_room (inv : RingInv s) (positive : 0 < s.taskSize)
    (room : s.written < s.received + s.taskSize) :
    getNextSlot s = some (getTaskWrite s) := by
  have order := inv.order
  have toRun := inv.toRun
  have distance := between_mod positive (show s.received ≤ s.written by omega) inv.room
  rw [← inv.read, ← inv.write, between] at distance
  refine if_neg fun full => ?_
  rw [full, show s.taskRead + 3 * s.taskSize - s.taskRead = s.taskSize + 2 * s.taskSize by omega,
    Nat.add_mod_right, Nat.mod_eq_of_lt (by omega)] at distance
  omega

theorem linkInv_mppTaskQueue (inv : LinkInv s) (task : Nat) (needHack : Bool)
    (admitted : s.taskRunning < (s.taskSize : Int) - 2) :
    LinkInv (mppTaskQueue s task needHack) := by
  have size := inv.size
  have positive : 0 < s.taskSize := by omega
  have nothing := inv.nothingToRun
  have toRun := inv.toRun
  rw [inv.running] at admitted
  have next := getNextSlot_of_room inv.toRingInv positive (by omega)
  have inside : getTaskWrite s < s.taskSize := by
    rw [inv.toRingInv.getTaskWrite positive]
    exact Nat.mod_lt _ positive
  have prepared : linkPrepare s task needHack =
      writeSlot (if needHack then writeSlot s none else s) (some task) := by
    rw [linkPrepare, next]
    exact if_neg (Nat.not_le.mpr inside)
  rw [mppTaskQueue, prepared]
  cases needHack with
  | false =>
      have ring := ringInv_writeSlot inv.toRingInv positive (by omega) (some task)
      have one : (writeSlot s (some task)).taskToRun = 1 := congrArg (· + 1) nothing
      simp only [Bool.false_eq_true, if_false, one, one_ne_zero]
      exact one ▸ linkInv_send ring size (by omega) (by rw [one]; exact positive)
  | true =>
      have stuff := ringInv_writeSlot inv.toRingInv positive (by omega) none
      have ring := ringInv_writeSlot stuff positive
        (show s.written + 1 < s.received + s.taskSize by omega) (some task)
      have two : (writeSlot (writeSlot s none) (some task)).taskToRun = 2 :=
        congrArg (· + 2) nothing
      simp only [if_true, two, OfNat.ofNat_ne_zero, if_false]
      exact two ▸ linkInv_send ring size (by omega)
        (by rw [two]; exact (Nat.le_succ 2).trans size)

theorem linkInv_of_linkStep {label : LinkLabel} (inv : LinkInv s)
    (counts : CountsOutstanding s label) (taken : linkStep s label = some s') : LinkInv s' := by
  cases label with
  | isr hw taskTimeout =>
      obtain ⟨_, outcome⟩ := Option.ite_none_right_eq_some.mp taken
      obtain rfl := Option.some.inj outcome
      exact linkInv_rkvdec2LinkIsr (linkInv_setCounts inv _ _ _) counts
  | reset =>
      obtain ⟨_, outcome⟩ := Option.ite_none_right_eq_some.mp taken
      obtain rfl := Option.some.inj outcome
      exact linkInv_setCounts inv _ _ _
  | queue task needHack =>
      obtain ⟨⟨_, admitted⟩, outcome⟩ := Option.ite_none_right_eq_some.mp taken
      obtain rfl := Option.some.inj outcome
      exact linkInv_mppTaskQueue inv task needHack admitted
  | powerOff =>
      obtain ⟨_, outcome⟩ := Option.ite_none_right_eq_some.mp taken
      obtain rfl := Option.some.inj outcome
      exact linkInv_setCounts inv _ _ _
  | requestReset =>
      obtain rfl := Option.some.inj taken
      exact linkInv_setCounts inv _ _ _

/-- A task with the hack and one without it on a table of five slots; an error leaves the stuff
slot of the third task to be sent again, and the ring runs into its second lap. -/
def hackedTasks : List LinkLabel :=
  [.queue 0 true, .queue 1 false, .isr ⟨3, 3, true, false, true⟩ false, .queue 2 true,
    .isr ⟨4, 5, false, true, true⟩ false, .isr ⟨2, 2, true, false, true⟩ false, .queue 3 true]

end LinkRing
end Mpp
end RockchipSoc
