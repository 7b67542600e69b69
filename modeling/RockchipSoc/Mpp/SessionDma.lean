import RockchipSoc.Foundation.LabelledRun
import Mathlib.Data.List.Dedup

/-!
# The DMA session of one open file

The messages of one open file create, use and destroy the DMA session that `session->dma` points
to, and link the session in the lists of a queue.  `mpp_session_deinit_default` clears the pointer
when it destroys; `RESET_SESSION` does not, and `INIT_CLIENT_TYPE` does not ask whether it is set.
-/

namespace RockchipSoc
namespace Mpp
namespace SessionDma

open LabelledRun

/-- The lists that `session_link` can be in. -/
inductive QueueList
  | attach (queue : Nat)
  | detach (queue : Nat)
  deriving DecidableEq, Repr

/-- The devices of a service and their queues. -/
structure MppService where
  subDevices : Nat → Option Nat
  queueOf : Nat → Nat

inductive Phase
  | opened | released | freed
  deriving DecidableEq, Repr

/-- A session with its DMA sessions, which are numbered in the order of their creation. -/
structure SessionFile where
  mpp : Option Nat := none
  dma : Option Nat := none
  /-- The lists that the link was added to, the newest first. -/
  links : List QueueList := []
  /-- For each task that is not freed, the file descriptors of its memory regions. -/
  tasks : List (List Nat) := []
  /-- `set_cnt` and `poll_cnt` of the ioctl in progress. -/
  msgs : Option (Nat × Nat) := none
  phase : Phase := .opened
  nextDma : Nat := 0
  /-- How often a DMA session was destroyed; no function reads it. -/
  destroyed : Nat → Nat := fun _ => 0
  /-- Uses of `session->dma` that dereference NULL or a destroyed DMA session. -/
  badUses : Nat := 0

/-- `MPP_DEVICE_BUTT`. -/
def mppDeviceButt : Nat := 29

/-- `MPP_MAX_REG_TRANS_NUM`. -/
def mppMaxRegTransNum : Nat := 60

/-! ## Uses of `session->dma` -/

/-- A function gets `session->dma`, which it may test for NULL, and answers. -/
def accessDma (checked : Bool) (s : SessionFile) (answer : Bool) : SessionFile × Bool :=
  match s.dma with
  | none => (if checked then s else { s with badUses := s.badUses + 1 }, false)
  | some dma =>
      ({ s with badUses := s.badUses + if s.destroyed dma = 0 then 0 else 1 }, answer)

def mppDmaImportFd : SessionFile → Bool → SessionFile × Bool := accessDma true

def mppDmaReleaseFd : SessionFile → Bool → SessionFile × Bool := accessDma false

def mppDmaRelease (s : SessionFile) : SessionFile := (accessDma false s true).1

def mppDmaSessionDestroy (s : SessionFile) : SessionFile :=
  match s.dma with
  | none => s
  | some dma => { (accessDma true s true).1 with
      destroyed := fun k => s.destroyed k + if k = dma then 1 else 0 }

/-- The loops over the file descriptors of a message stop at the first error. -/
def forFds (call : SessionFile → Bool → SessionFile × Bool) (s : SessionFile) :
    List Bool → SessionFile × Bool
  | [] => (s, true)
  | answer :: answers =>
      match call s answer with
      | (s', true) => forFds call s' answers
      | (s', false) => (s', false)

/-! ## Tasks -/

/-- `mpp_task_attach_fd` for the file descriptors in the registers: a repeated one is not
imported again. -/
def attachFds (imports : Nat → Bool) (s : SessionFile) (regions : List Nat) :
    List Nat → SessionFile × List Nat × Bool
  | [] => (s, regions, true)
  | fd :: fds =>
      if fd = 0 then attachFds imports s regions fds
      else if s.dma = none ∨ s.mpp = none then (s, regions, false)
      else if mppMaxRegTransNum < regions.length then (s, regions, false)
      else if fd ∈ regions then attachFds imports s (regions ++ [fd]) fds
      else
        match mppDmaImportFd s (imports fd) with
        | (s', true) => attachFds imports s' (regions ++ [fd]) fds
        | (s', false) => (s', regions, false)

/-- `mpp_task_finalize` releases each region that is not a duplicate. -/
def mppTaskFinalize (s : SessionFile) (regions : List Nat) : SessionFile :=
  regions.dedup.foldl (fun s _ => mppDmaRelease s) s

/-- What user space and the environment decide about a submission: the file descriptors in the
registers, whether a buffer can be imported, and whether `alloc_task` fails afterwards. -/
structure Submission where
  fds : List Nat := []
  imports : Nat → Bool := fun _ => true
  fails : Bool := false

def mppProcessTask (s : SessionFile) (submission : Submission) : SessionFile × Bool :=
  if s.mpp = none then (s, false)
  else
    match attachFds submission.imports s [] submission.fds with
    | (s', regions, attached) =>
        if attached && !submission.fails then
          ({ s' with tasks := s'.tasks ++ [regions] }, true)
        else (mppTaskFinalize s' regions, false)

/-! ## Messages -/

inductive Request
  /-- `get_user` may fail, `mpp_dma_session_create` and `init_session` too. -/
  | initClientType (clientType : Option Nat) (created initFails : Bool)
  | setReg
  | pollHwFinish
  | resetSession
  | transFdToIova (size : Nat) (copied copiedBack : Bool) (imports : Nat → Bool)
  | releaseFd (size : Nat) (copied : Bool) (found : Nat → Bool)

/-- `srv->sub_devices[client_type]`, with the tests before it. -/
def clientDevice (srv : MppService) (clientType : Option Nat) : Option Nat :=
  (clientType.filter (· < mppDeviceButt)).bind srv.subDevices

/-- The checks of a message with file descriptors. -/
def fdsCopied (size : Nat) (copied : Bool) : Bool :=
  decide (size ≠ 0 ∧ size ≤ mppMaxRegTransNum * 4) && copied

/-- The answers for the file descriptors of a message. -/
def answersFor (size : Nat) (answer : Nat → Bool) : List Bool :=
  (List.range (size / 4)).map answer

def mppInitClientType (srv : MppService) (s : SessionFile) (mpp : Nat) (created initFails : Bool) :
    SessionFile × Bool :=
  let s := { s with
    dma := if created then some s.nextDma else none
    nextDma := s.nextDma + if created then 1 else 0
    mpp := some mpp }
  if initFails then (s, false)
  else ({ s with links := .attach (srv.queueOf mpp) :: s.links }, true)

/-- `RESET_SESSION`: without tasks there is nothing for `mpp_session_clear`. -/
def mppResetSession (s : SessionFile) : SessionFile × Bool :=
  if s.tasks ≠ [] then (s, false)
  else if s.mpp = none then (s, false)
  else (mppDmaSessionDestroy s, s.dma.isSome)

def mppProcessRequest (srv : MppService) (s : SessionFile) : Request → SessionFile × Bool
  | .initClientType clientType created initFails =>
      match clientDevice srv clientType with
      | none => (s, false)
      | some mpp => mppInitClientType srv s mpp created initFails
  | .setReg => ({ s with msgs := s.msgs.map fun counts => (counts.1 + 1, counts.2) }, true)
  | .pollHwFinish => ({ s with msgs := s.msgs.map fun counts => (counts.1, counts.2 + 1) }, true)
  | .resetSession => mppResetSession s
  | .transFdToIova size copied copiedBack imports =>
      if s.mpp = none ∨ fdsCopied size copied = false then (s, false)
      else
        match forFds mppDmaImportFd s (answersFor size imports) with
        | (s', imported) => (s', imported && copiedBack)
  | .releaseFd size copied found =>
      if fdsCopied size copied = false then (s, false)
      else forFds mppDmaReleaseFd s (answersFor size found)

/-- One message of an ioctl; the last one submits the collected task.  Waiting for a task does
not touch `session->dma`. -/
def mppDevIoctl (srv : MppService) (s : SessionFile) (request : Request) (last : Bool)
    (submission : Submission) : SessionFile :=
  match mppProcessRequest srv { s with msgs := some (s.msgs.getD (0, 0)) } request with
  | (s', true) =>
      if last then
        let submitted :=
          if 0 < (s'.msgs.getD (0, 0)).1 then (mppProcessTask s' submission).1 else s'
        { submitted with msgs := none }
      else s'
  | (s', false) => { s' with msgs := none }

/-! ## Release -/

/-- `list_del_init`: the link leaves the list that it was added to last. -/
def unlinkSession (s : SessionFile) : SessionFile := { s with links := s.links.tail }

/-- `mpp_session_deinit_default`, and the `kfree` behind it. -/
def mppSessionDeinitDefault (s : SessionFile) : SessionFile :=
  let cleared := if s.mpp = none then s else { mppDmaSessionDestroy s with dma := none }
  { unlinkSession cleared with phase := .freed }

def mppSessionDeinit (s : SessionFile) : SessionFile :=
  if s.tasks ≠ [] then s else mppSessionDeinitDefault s

def mppDevRelease (srv : MppService) (s : SessionFile) : SessionFile :=
  match s.mpp with
  | some mpp => { unlinkSession s with
      phase := .released, links := .detach (srv.queueOf mpp) :: s.links.tail }
  | none => mppSessionDeinit { s with phase := .released }

inductive FileLabel
  | message (request : Request) (last : Bool) (submission : Submission)
  /-- The last reference of a task goes, whoever puts it. -/
  | freeTask (n : Nat)
  | release
  /-- The worker takes the session out of `session_detach`. -/
  | worker

def fileStep (srv : MppService) (s : SessionFile) : FileLabel → Option SessionFile
  | .message request last submission =>
      if s.phase = .opened then some (mppDevIoctl srv s request last submission) else none
  | .freeTask n => (s.tasks[n]?).map fun regions =>
      { mppTaskFinalize s regions with tasks := s.tasks.eraseIdx n }
  | .release =>
      if s.phase = .opened ∧ s.msgs = none then some (mppDevRelease srv s) else none
  | .worker =>
      match s.phase, s.links with
      | .released, .detach _ :: _ => some (mppSessionDeinit (unlinkSession s))
      | _, _ => none

/-! ## The property -/

/-- So far `session->dma` was only used where that is right, no DMA session was destroyed twice,
those that are not destroyed are still named by the session, and a session with a device is in
one list. -/
structure SessionSound (s : SessionFile) : Prop where
  uses : s.badUses = 0
  once : ∀ i, s.destroyed i ≤ 1
  kept : ∀ i < s.nextDma, s.destroyed i = 0 → s.phase ≠ .freed ∧ s.dma = some i
  linked : s.links.length = if s.mpp = none ∨ s.phase = .freed then 0 else 1

/-- The message that is handled in this state does not break the session: a device is chosen once
and its session can be initialised, a reset finds no DMA session to destroy, file descriptors are
released only with a DMA session, and the worker gets a session without tasks. -/
def Careful (srv : MppService) (s : SessionFile) : FileLabel → Prop
  | .message (.initClientType clientType _ initFails) _ _ =>
      clientDevice srv clientType = none ∨ s.mpp = none ∧ initFails = false
  | .message .resetSession _ _ => s.tasks ≠ [] ∨ s.dma = none
  | .message (.releaseFd size copied _) _ _ =>
      fdsCopied size copied = false ∨ size < 4 ∨ s.dma ≠ none
  | .worker => s.tasks = []
  | _ => True

instance (srv : MppService) (s : SessionFile) :
    (label : FileLabel) → Decidable (Careful srv s label)
  | .message (.initClientType _ _ _) _ _ => inferInstanceAs (Decidable (_ ∨ _ ∧ _))
  | .message .resetSession _ _ => inferInstanceAs (Decidable (_ ∨ _))
  | .message (.releaseFd _ _ _) _ _ => inferInstanceAs (Decidable (_ ∨ _ ∨ _))
  | .worker => inferInstanceAs (Decidable (_ = _))
  | .message .setReg _ _ | .message .pollHwFinish _ _ | .message (.transFdToIova _ _ _ _) _ _
  | .freeTask _ | .release => isTrue trivial

/-- The DMA sessions other than `session->dma` are destroyed, and that one is not; a session
without a device has nothing. -/
structure SessionInv (s : SessionFile) : Prop where
  uses : s.badUses = 0
  life : ∀ i, s.destroyed i = if i < s.nextDma ∧ s.dma ≠ some i then 1 else 0
  named : ∀ i, s.dma = some i → i < s.nextDma
  unset : s.mpp = none → s.dma = none ∧ s.tasks = []
  regions : s.dma = none → ∀ regions ∈ s.tasks, regions = []
  linked : s.links.length = if s.mpp = none ∨ s.phase = .freed then 0 else 1
  freed : s.phase = .freed → s.dma = none

variable {srv : MppService} {s s' : SessionFile}

theorem SessionInv.sound (inv : SessionInv s) : SessionSound s where
  uses := inv.uses
  once i := by
    rw [inv.life i]
    split <;> omega
  kept i created alive := by
    have named : s.dma = some i := Classical.byContradiction fun other => by
      rw [inv.life i, if_pos ⟨created, other⟩] at alive
      omega
    exact ⟨fun freed => by simp [inv.freed freed] at named, named⟩
  linked := inv.linked

theorem sessionInv_init : SessionInv {} where
  uses := rfl
  life i := by simp
  named i names := by cases names
  unset _ := ⟨rfl, rfl⟩
  regions _ _ member := by cases member
  linked := rfl
  freed _ := rfl

/-! ## Uses of a live DMA session change nothing -/

/-- No use goes wrong: the DMA session is there, or the function tests for NULL. -/
def Usable (checked : Bool) (s : SessionFile) : Prop :=
  (checked = true ∨ s.dma ≠ none) ∧ ∀ i, s.dma = some i → s.destroyed i = 0

theorem SessionInv.usable (inv : SessionInv s) {checked : Bool}
    (there : checked = true ∨ s.dma ≠ none) : Usable checked s :=
  ⟨there, fun i names => by rw [inv.life i, if_neg fun both => both.2 names]⟩

theorem accessDma_of_usable {checked : Bool} (usable : Usable checked s) (answer : Bool) :
    (accessDma checked s answer).1 = s := by
  rw [accessDma]
  split
  · next null =>
      rcases usable.1 with checks | there
      · rw [if_pos checks]
      · exact absurd null there
  · next dma names =>
      rw [if_pos (usable.2 dma names), Nat.add_zero]

theorem forFds_of_usable {checked : Bool} (usable : Usable checked s) (answers : List Bool) :
    (forFds (accessDma checked) s answers).1 = s := by
  induction answers with
  | nil => rfl
  | cons answer answers ih =>
      have same := accessDma_of_usable usable answer
      rw [forFds]
      split
      · next next called =>
          obtain rfl : next = s := (congrArg Prod.fst called).symm.trans same
          exact ih
      · next next called => exact (congrArg Prod.fst called).symm.trans same

theorem attachFds_of_usable (usable : Usable true s) (imports : Nat → Bool) (fds : List Nat) :
    ∀ regions, (attachFds imports s regions fds).1 = s := by
  induction fds with
  | nil => exact fun _ => rfl
  | cons fd fds ih =>
      intro regions
      have same := accessDma_of_usable usable (imports fd)
      rw [attachFds]
      split
      · exact ih regions
      · split
        · rfl
        · split
          · rfl
          · split
            · exact ih _
            · split
              · next next called =>
                  obtain rfl : next = s := (congrArg Prod.fst called).symm.trans same
                  exact ih _
              · next next called => exact (congrArg Prod.fst called).symm.trans same

/-- Without a DMA session no region is attached. -/
theorem attachFds_regions (null : s.dma = none) (imports : Nat → Bool) (fds : List Nat) :
    (attachFds imports s [] fds).2.1 = [] := by
  induction fds with
  | nil => rfl
  | cons fd fds ih =>
      rw [attachFds]
      split
      · exact ih
      · rw [if_pos (Or.inl null)]

theorem mppTaskFinalize_of_usable {regions : List Nat}
    (usable : ∀ i, s.dma = some i → s.destroyed i = 0) (there : s.dma = none → regions = []) :
    mppTaskFinalize s regions = s := by
  by_cases null : s.dma = none
  · rw [there null]
    rfl
  · rw [mppTaskFinalize]
    induction regions.dedup with
    | nil => rfl
    | cons fd fds ih =>
        have same : mppDmaRelease s = s := accessDma_of_usable ⟨Or.inr null, usable⟩ true
        rw [List.foldl_cons, same]
        exact ih

/-! ## Messages keep the invariant -/

theorem SessionInv.setMsgs (inv : SessionInv s) (msgs : Option (Nat × Nat)) :
    SessionInv { s with msgs := msgs } :=
  ⟨inv.uses, inv.life, inv.named, inv.unset, inv.regions, inv.linked, inv.freed⟩

theorem sessionInv_mppInitClientType (inv : SessionInv s) (opened : s.phase = .opened)
    (fresh : s.mpp = none) (mpp : Nat) (created : Bool) :
    SessionInv (mppInitClientType srv s mpp created false).1 := by
  obtain ⟨null, idle⟩ := inv.unset fresh
  have life := inv.life
  have border : ∀ i, i < s.nextDma ↔ i < s.nextDma + 1 ∧ s.nextDma ≠ i := by omega
  have unlinked := inv.linked
  rw [if_pos (Or.inl fresh)] at unlinked
  cases created with
  | false =>
      refine ⟨inv.uses, fun i => ?_, fun _ names => (nomatch names), fun unset => (nomatch unset),
        fun _ => inv.regions null, ?_, fun _ => rfl⟩
      · exact (life i).trans (by simp [mppInitClientType, null])
      · simp [mppInitClientType, unlinked, opened]
  | true =>
      refine ⟨inv.uses, fun i => ?_, fun i names => ?_, fun unset => (nomatch unset),
        fun missing => (nomatch missing), ?_, fun freed => ?_⟩
      · exact (life i).trans (by simp [mppInitClientType, null, border])
      · obtain rfl : s.nextDma = i := Option.some.inj names
        exact Nat.lt_succ_self _
      · simp [mppInitClientType, unlinked, opened]
      · exact absurd (opened.symm.trans freed) (by decide)

theorem mppDmaSessionDestroy_none (null : s.dma = none) : mppDmaSessionDestroy s = s := by
  rw [mppDmaSessionDestroy]
  split
  · rfl
  · next names => rw [null] at names; cases names

theorem sessionInv_mppProcessRequest (inv : SessionInv s) (opened : s.phase = .opened)
    {request : Request} {last : Bool} {submission : Submission}
    (careful : Careful srv s (.message request last submission)) :
    SessionInv (mppProcessRequest srv s request).1 := by
  cases request with
  | initClientType clientType created initFails =>
      rw [mppProcessRequest]
      split
      · exact inv
      · next found =>
          rcases careful with missing | ⟨fresh, rfl⟩
          · rw [missing] at found
            cases found
          · exact sessionInv_mppInitClientType inv opened fresh _ created
  | setReg | pollHwFinish => exact inv.setMsgs _
  | resetSession =>
      simp only [mppProcessRequest, mppResetSession]
      split
      · exact inv
      · next idle =>
          split
          · exact inv
          · rw [mppDmaSessionDestroy_none (careful.resolve_left idle)]
            exact inv
  | transFdToIova size copied copiedBack imports =>
      rw [mppProcessRequest]
      split
      · exact inv
      · rw [show (forFds mppDmaImportFd s (answersFor size imports)).1 = s from
          forFds_of_usable (inv.usable (Or.inl rfl)) _]
        exact inv
  | releaseFd size copied found =>
      rw [mppProcessRequest]
      split
      · exact inv
      · next copies =>
          rcases careful with refused | short | there
          · exact absurd refused copies
          · rw [answersFor, Nat.div_eq_of_lt short]
            exact inv
          · rw [show (forFds mppDmaReleaseFd s (answersFor size found)).1 = s from
              forFds_of_usable (inv.usable (Or.inr there)) _]
            exact inv

theorem sessionInv_mppProcessTask (inv : SessionInv s) (submission : Submission) :
    SessionInv (mppProcessTask s submission).1 := by
  have usable : Usable true s := inv.usable (Or.inl rfl)
  have same := attachFds_of_usable usable submission.imports submission.fds []
  have empty : s.dma = none → (attachFds submission.imports s [] submission.fds).2.1 = [] :=
    fun null => attachFds_regions null _ _
  rw [mppProcessTask]
  split
  · exact inv
  · next device =>
      generalize attachFds submission.imports s [] submission.fds = attached at same empty
      obtain ⟨next, regions, answer⟩ := attached
      obtain rfl : next = s := same
      dsimp only
      split
      · refine ⟨inv.uses, inv.life, inv.named, fun unset => absurd unset device,
          fun null list member => ?_, inv.linked, inv.freed⟩
        rcases List.mem_append.mp member with old | new
        · exact inv.regions null list old
        · rw [List.mem_singleton.mp new]
          exact empty null
      · rw [mppTaskFinalize_of_usable usable.2 empty]
        exact inv

theorem sessionInv_mppDevIoctl (inv : SessionInv s) (opened : s.phase = .opened)
    {request : Request} {last : Bool} {submission : Submission}
    (careful : Careful srv s (.message request last submission)) :
    SessionInv (mppDevIoctl srv s request last submission) := by
  have processed : SessionInv (mppProcessRequest srv
      { s with msgs := some (s.msgs.getD (0, 0)) } request).1 :=
    sessionInv_mppProcessRequest (inv.setMsgs (some (s.msgs.getD (0, 0)))) opened careful
  rw [mppDevIoctl]
  generalize mppProcessRequest srv { s with msgs := some (s.msgs.getD (0, 0)) } request = outcome
    at processed
  obtain ⟨next, answer⟩ := outcome
  cases answer with
  | false => exact processed.setMsgs none
  | true =>
      dsimp only
      split
      · split
        · exact (sessionInv_mppProcessTask processed submission).setMsgs none
        · exact processed.setMsgs none
      · exact processed

/-! ## Release -/

theorem sessionInv_mppSessionDeinitDefault (inv : SessionInv s) (idle : s.tasks = [])
    {links : List QueueList} (phase : Phase) (short : links.length ≤ 1) :
    SessionInv (mppSessionDeinitDefault { s with links := links, phase := phase }) := by
  have unlinked : links.tail.length = 0 := by
    rw [List.length_tail]
    omega
  have life := inv.life
  rw [mppSessionDeinitDefault]
  dsimp only
  split
  · next unset =>
      exact ⟨inv.uses, life, inv.named, inv.unset, inv.regions, by simp [unlinkSession, unlinked],
        fun _ => (inv.unset unset).1⟩
  · next device =>
      cases names : s.dma with
      | none =>
          rw [names] at life
          simp only [mppDmaSessionDestroy]
          exact ⟨inv.uses, life, fun i named => (nomatch named), fun unset => absurd unset device,
            fun _ list member => by simp [unlinkSession, idle] at member,
            by simp [unlinkSession, unlinked], fun _ => rfl⟩
      | some dma =>
          have created := inv.named dma names
          have alive := life dma
          rw [if_neg fun both => both.2 names] at alive
          rw [names] at life
          simp only [mppDmaSessionDestroy, accessDma, alive]
          refine ⟨inv.uses, fun i => ?_, fun i named => (nomatch named),
            fun unset => absurd unset device,
            fun _ list member => by simp [unlinkSession, idle] at member,
            by simp [unlinkSession, unlinked], fun _ => rfl⟩
          simp only [unlinkSession, life i]
          by_cases same : i = dma
          · simp [same, created]
          · simp [same, Ne.symm same]

theorem sessionInv_mppDevRelease (inv : SessionInv s) (opened : s.phase = .opened) :
    SessionInv (mppDevRelease srv s) := by
  have linked := inv.linked
  rw [mppDevRelease]
  split
  · next mpp device =>
      refine ⟨inv.uses, inv.life, inv.named, fun unset => ?_, inv.regions, ?_,
        fun freed => (nomatch freed)⟩
      · exact absurd (device.symm.trans unset) (Option.some_ne_none mpp)
      · simp only [device, opened, reduceCtorEq, or_self, if_false] at linked
        simp [unlinkSession, device, linked]
  · next unset =>
      have idle := (inv.unset unset).2
      rw [if_pos (Or.inl unset)] at linked
      rw [mppSessionDeinit, if_neg fun tasks => tasks idle]
      exact sessionInv_mppSessionDeinitDefault inv idle .released (by omega)

theorem sessionInv_of_fileStep {label : FileLabel} (inv : SessionInv s)
    (careful : Careful srv s label) (taken : fileStep srv s label = some s') : SessionInv s' := by
  cases label with
  | message request last submission =>
      obtain ⟨opened, outcome⟩ := Option.ite_none_right_eq_some.mp taken
      obtain rfl := Option.some.inj outcome
      exact sessionInv_mppDevIoctl inv opened careful
  | freeTask n =>
      obtain ⟨regions, found, rfl⟩ := Option.map_eq_some_iff.mp taken
      have listed := List.mem_of_getElem? found
      have usable : Usable true s := inv.usable (Or.inl rfl)
      rw [mppTaskFinalize_of_usable usable.2
        fun null => inv.regions null regions listed]
      refine ⟨inv.uses, inv.life, inv.named, fun unset => ?_, fun null list member => ?_,
        inv.linked, inv.freed⟩
      · obtain ⟨null, idle⟩ := inv.unset unset
        exact ⟨null, by simp [idle]⟩
      · exact inv.regions null list (List.mem_of_mem_eraseIdx member)
  | release =>
      obtain ⟨⟨opened, _⟩, outcome⟩ := Option.ite_none_right_eq_some.mp taken
      obtain rfl := Option.some.inj outcome
      exact sessionInv_mppDevRelease inv opened
  | worker =>
      simp only [fileStep] at taken
      split at taken
      · next queue rest released listed =>
          obtain rfl := Option.some.inj taken
          have idle : s.tasks = [] := careful
          have linked := inv.linked
          rw [listed, List.length_cons] at linked
          have alone : rest.length = 0 := by
            split at linked <;> omega
          rw [mppSessionDeinit, if_neg fun tasks => tasks idle, unlinkSession, listed]
          exact sessionInv_mppSessionDeinitDefault inv idle s.phase (by simp [alone])
      · cases taken

/-- The session is sound in every run of messages, frees and the release whose steps are
careful. -/
theorem mpp_session_sound (srv : MppService)
    (reach : Reaches (fileStep srv) (Careful srv) {} s) : SessionSound s :=
  (reach.invariant (fun _ _ _ inv careful taken => sessionInv_of_fileStep inv careful taken)
    sessionInv_init).sound

/-! ## Runs -/

/-- A service with one device. -/
def oneDevice : MppService where
  subDevices := fun clientType => if clientType = 9 then some 0 else none
  queueOf := fun _ => 0

def initMessage : FileLabel := .message (.initClientType (some 9) true false) true {}

/-- A task with the buffers of three registers, two of which are the same. -/
def submitMessage : FileLabel := .message .setReg true { fds := [5, 7, 5] }

def resetMessage : FileLabel := .message .resetSession true {}

def releaseFdMessage : FileLabel := .message (.releaseFd 4 true fun _ => true) true {}

/-- The session of a file that is used and closed. -/
def ordinaryFile : List FileLabel :=
  [initMessage, .message (.transFdToIova 8 true true fun _ => true) true {}, submitMessage,
    resetMessage, releaseFdMessage, .release, .freeTask 0, .worker]

theorem mpp_session_sound_ordinaryFile :
    ∃ final, runs (fileStep oneDevice) {} ordinaryFile = some final ∧ final.phase = .freed ∧
      final.nextDma = 1 ∧ final.destroyed 0 = 1 ∧ SessionSound final := by
  have outcome : (runs (fileStep oneDevice) {} ordinaryFile).map
      (fun final => (final.phase, final.nextDma, final.destroyed 0)) = some (.freed, 1, 1) := by
    decide +kernel
  obtain ⟨final, execution, observed⟩ := Option.map_eq_some_iff.mp outcome
  obtain ⟨phase, created, destroyed⟩ : _ ∧ _ ∧ _ := by simpa using observed
  have along : Along (fileStep oneDevice) (Careful oneDevice) {} ordinaryFile := by decide +kernel
  exact ⟨final, execution, phase, created, destroyed,
    mpp_session_sound _ (reaches_of_runs along execution)⟩

/-- A wrong use, a DMA session that was destroyed twice or that nobody names, or a session with a
device that is not in one list. -/
def Broken (s : SessionFile) : Prop :=
  s.badUses ≠ 0 ∨ 1 < s.destroyed 0 ∨ (0 < s.nextDma ∧ s.destroyed 0 = 0 ∧ s.dma ≠ some 0) ∨
    (s.mpp ≠ none ∧ s.phase ≠ .freed ∧ s.links.length ≠ 1)

instance : Decidable (Broken s) := inferInstanceAs (Decidable (_ ∨ _ ∨ (_ ∧ _ ∧ _) ∨ (_ ∧ _ ∧ _)))

theorem Broken.unsound (broken : Broken s) : ¬SessionSound s := by
  intro sound
  rcases broken with use | twice | ⟨created, alive, unnamed⟩ | ⟨device, unfreed, links⟩
  · exact use sound.uses
  · exact absurd (sound.once 0) (by omega)
  · exact unnamed (sound.kept 0 created alive).2
  · have linked := sound.linked
    rw [if_neg fun either => either.elim device unfreed] at linked
    exact links linked

/-- A reset destroys the DMA session, which the worker destroys again; a second initialisation
drops it; a file descriptor is released before the first one; the worker refuses a session whose
task is still there. -/
def brokenFiles : List (List FileLabel) :=
  [[initMessage, resetMessage, .release, .worker], [initMessage, initMessage],
    [releaseFdMessage], [initMessage, submitMessage, .release, .worker, .freeTask 0]]

/-- The run ends in a state where the session is not sound. -/
def EndsBroken (labels : List FileLabel) : Prop :=
  ∃ final, runs (fileStep oneDevice) {} labels = some final ∧ Broken final ∧ ¬SessionSound final

theorem messages_break_session : brokenFiles.Forall EndsBroken := by
  have outcomes : ∀ labels ∈ brokenFiles, (runs (fileStep oneDevice) {} labels).map
      (fun final => decide (Broken final)) = some true := by decide +kernel
  rw [List.forall_iff_forall_mem]
  intro labels listed
  obtain ⟨final, execution, broken⟩ := Option.map_eq_some_iff.mp (outcomes labels listed)
  exact ⟨final, execution, of_decide_eq_true broken, (of_decide_eq_true broken).unsound⟩

end SessionDma
end Mpp
end RockchipSoc
