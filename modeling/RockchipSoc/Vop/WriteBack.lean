import Mathlib.Data.List.Basic
import RockchipSoc.Foundation.LabelledRun

/-!
# Write-back jobs

`vop2_wb_commit` queues a job at the write-back connector, enters it in the next of two slots and
directs the write back to its video port.  At each frame start of that port `vop2_wb_handler` counts
in every pending slot, and at the second one has the connector complete the job that it queued
first.  A slot does not say which job it was entered for, and a slot that is still pending can be
entered again.
-/

namespace RockchipSoc
namespace Vop
namespace WriteBack

open LabelledRun

/-- `VOP2_WB_JOB_MAX`. -/
def vop2WbJobMax : Nat := 2

structure Vop2WbJob where
  pending : Bool
  fsVsyncCnt : Nat

/-- The jobs that the connector has queued, and with how many frame starts each was completed.
`ages` has the frame starts since each queued job was entered. -/
structure WbConnector where
  queue : List Nat
  ages : List Nat
  completed : List (Nat × Nat)

/-- Where `vop2_wb_commit` is, which runs for one video port at a time. -/
inductive CommitAt
  | idle
  | queued (vp : Nat)
  | entered (vp : Nat)

/-- Jobs are numbered; `wbVpId` is the register that directs the write back to a port, and
`handling` says that the handler has read it and found its own port. -/
structure WbState where
  conn : WbConnector
  jobs : List Vop2WbJob
  jobIndex : Nat
  wbVpId : Nat
  commit : CommitAt
  handling : Bool
  jobCount : Nat

inductive WbLabel
  | queue (vp : Nat)
  | enter
  | direct
  | frameStart (vp : Nat)
  | count

/-- The connector completes the job that it queued first. -/
def drmWritebackSignalCompletion (conn : WbConnector) : WbConnector :=
  match conn.queue with
  | [] => conn
  | job :: queue =>
      { conn with
        queue := queue
        ages := conn.ages.tail
        completed := conn.completed ++ [(job, conn.ages.headD 0)] }

/-- The body of the loop of `vop2_wb_handler`. -/
def countFrame (conn : WbConnector) (job : Vop2WbJob) : WbConnector × Vop2WbJob :=
  if job.pending then
    if job.fsVsyncCnt + 1 = 2 then (drmWritebackSignalCompletion conn, ⟨false, 0⟩)
    else (conn, { job with fsVsyncCnt := job.fsVsyncCnt + 1 })
  else (conn, job)

/-- The loop of `vop2_wb_handler`. -/
def countFrames : WbConnector → List Vop2WbJob → WbConnector × List Vop2WbJob
  | conn, [] => (conn, [])
  | conn, job :: jobs =>
      let counted := countFrame conn job
      let rest := countFrames counted.1 jobs
      (rest.1, counted.2 :: rest.2)

/-- One more frame start for all jobs that are entered. -/
def WbConnector.older (conn : WbConnector) : WbConnector :=
  { conn with ages := conn.ages.map (· + 1) }

def setPending (job : Vop2WbJob) : Vop2WbJob := { job with pending := true }

def enterJob (s : WbState) (vp : Nat) : WbState :=
  { s with
    conn := { s.conn with ages := s.conn.ages ++ [0] }
    jobs := s.jobs.modify s.jobIndex setPending
    jobIndex := if s.jobIndex + 1 ≥ vop2WbJobMax then 0 else s.jobIndex + 1
    commit := .entered vp }

def wbStep (s : WbState) : WbLabel → Option WbState
  | .queue vp =>
      match s.commit with
      | .idle =>
          some { s with
            conn := { s.conn with queue := s.conn.queue ++ [s.jobCount] }
            jobCount := s.jobCount + 1
            commit := .queued vp }
      | _ => none
  | .enter =>
      match s.commit with
      | .queued vp => some (enterJob s vp)
      | _ => none
  | .direct =>
      match s.commit with
      | .entered vp => some { s with wbVpId := vp, commit := .idle }
      | _ => none
  | .frameStart vp => if s.handling then none else some { s with handling := s.wbVpId == vp }
  | .count =>
      if s.handling then
        some { s with
          conn := (countFrames s.conn.older s.jobs).1
          jobs := (countFrames s.conn.older s.jobs).2
          handling := false }
      else none

def wbStart : WbState :=
  ⟨⟨[], [], []⟩, List.replicate vop2WbJobMax ⟨false, 0⟩, 0, 0, .idle, false, 0⟩

/-! ## Jobs and their slots -/

def pendingCount (jobs : List Vop2WbJob) : Nat := (jobs.filter (·.pending)).length

/-- Every job is completed once, in order, at its second frame start, and every job that is entered
has a slot to itself. -/
structure Timely (s : WbState) : Prop where
  once : s.conn.completed.map Prod.fst ++ s.conn.queue = List.range s.jobCount
  second : ∀ done ∈ s.conn.completed, done.2 = 2
  young : ∀ age ∈ s.conn.ages, age < 2
  slots : pendingCount s.jobs = s.conn.ages.length

/-- The slot that is entered next is free. -/
def SlotFree (s : WbState) : WbLabel → Prop
  | .enter => ∀ vp job, s.commit = .queued vp → s.jobs[s.jobIndex]? = some job → job.pending = false
  | _ => True

/-- The slot entered before the last one, the last one, and the frame starts of their jobs. -/
inductive Slots : Vop2WbJob → Vop2WbJob → List Nat → Prop
  | none : Slots ⟨false, 0⟩ ⟨false, 0⟩ []
  | one {age : Nat} (young : age < 2) : Slots ⟨false, 0⟩ ⟨true, age⟩ [age]
  | two {first second : Nat} (young : first < 2) (ordered : second ≤ first) :
      Slots ⟨true, first⟩ ⟨true, second⟩ [first, second]

/-- The slot entered before the last one is the next to be entered. -/
inductive Arranged : Nat → List Vop2WbJob → Vop2WbJob → Vop2WbJob → Prop
  | low {first second : Vop2WbJob} : Arranged 0 [first, second] first second
  | high {first second : Vop2WbJob} : Arranged 1 [second, first] first second

/-- How many queued jobs are still to be entered. -/
def unentered : CommitAt → Nat
  | .queued _ => 1
  | _ => 0

structure WbInv (s : WbState) : Prop where
  once : s.conn.completed.map Prod.fst ++ s.conn.queue = List.range s.jobCount
  second : ∀ done ∈ s.conn.completed, done.2 = 2
  entered : s.conn.queue.length = s.conn.ages.length + unentered s.commit
  slots : ∃ first second, Arranged s.jobIndex s.jobs first second ∧ Slots first second s.conn.ages

variable {s s' : WbState} {label : WbLabel} {conn : WbConnector} {jobs : List Vop2WbJob}
  {index extra : Nat} {first second : Vop2WbJob} {ages : List Nat}

theorem Arranged.pendingCount_eq (arranged : Arranged index jobs first second) :
    pendingCount jobs = pendingCount [first, second] := by
  cases arranged with
  | low => rfl
  | high =>
      obtain ⟨pending, -⟩ := first
      obtain ⟨pending', -⟩ := second
      cases pending <;> cases pending' <;> rfl

theorem Slots.length_eq (slots : Slots first second ages) :
    pendingCount [first, second] = ages.length := by
  cases slots <;> rfl

theorem Slots.young (slots : Slots first second ages) : ∀ age ∈ ages, age < 2 := by
  cases slots with
  | none => nofun
  | one young =>
      intro age there
      rw [List.mem_singleton.mp there]
      exact young
  | two young ordered =>
      intro age there
      rcases List.mem_cons.mp there with rfl | there
      · exact young
      · rw [List.mem_singleton.mp there]
        exact Nat.lt_of_le_of_lt ordered young

theorem WbInv.timely (inv : WbInv s) : Timely s := by
  obtain ⟨first, second, arranged, slots⟩ := inv.slots
  exact ⟨inv.once, inv.second, slots.young, arranged.pendingCount_eq.trans slots.length_eq⟩

/-! ## A frame start -/

/-- What the connector has done since: completed the jobs at the front, at their second frame. -/
structure Completes (conn conn' : WbConnector) (extra : Nat) : Prop where
  same : conn'.completed.map Prod.fst ++ conn'.queue = conn.completed.map Prod.fst ++ conn.queue
  second : (∀ done ∈ conn.completed, done.2 = 2) → ∀ done ∈ conn'.completed, done.2 = 2
  entered : conn'.queue.length = conn'.ages.length + extra

theorem Completes.refl (entered : conn.queue.length = conn.ages.length + extra) :
    Completes conn conn extra := ⟨rfl, id, entered⟩

theorem Completes.trans {conn' conn'' : WbConnector} (left : Completes conn conn' extra)
    (right : Completes conn' conn'' extra) : Completes conn conn'' extra :=
  ⟨right.same.trans left.same, fun all => right.second (left.second all), right.entered⟩

/-- The completion of a job at its second frame. -/
theorem completes_signal {rest : List Nat} (ages : conn.ages = 2 :: rest)
    (entered : conn.queue.length = conn.ages.length + extra) :
    Completes conn (drmWritebackSignalCompletion conn) extra ∧
      (drmWritebackSignalCompletion conn).ages = rest := by
  obtain ⟨queue, ages', completed⟩ := conn
  obtain rfl : ages' = 2 :: rest := ages
  cases queue with
  | nil =>
      rw [List.length_cons] at entered
      change 0 = _ at entered
      omega
  | cons job queue =>
      refine ⟨⟨?_, fun all done there => ?_, ?_⟩, rfl⟩
      · change (completed ++ [(job, 2)]).map Prod.fst ++ queue =
          completed.map Prod.fst ++ job :: queue
        rw [List.map_append, List.append_assoc]
        rfl
      · rcases List.mem_append.mp there with there | same
        · exact all done there
        · rw [List.mem_singleton.mp same]
          rfl
      · simp only [List.length_cons] at entered
        change queue.length = rest.length + extra
        omega

/-- What the loop of the handler leaves: the jobs at their second frame are completed, and the
others keep their slots. -/
structure Counts (index extra : Nat) (conn conn' : WbConnector) (jobs : List Vop2WbJob) : Prop where
  completes : Completes conn conn' extra
  slots : ∃ first second, Arranged index jobs first second ∧ Slots first second conn'.ages

theorem counts_countFrames (arranged : Arranged index jobs first second)
    (slots : Slots first second ages) (stored : conn.ages = ages)
    (entered : conn.queue.length = conn.ages.length + extra) :
    Counts index extra conn.older (countFrames conn.older jobs).1
      (countFrames conn.older jobs).2 := by
  have entered' : conn.older.queue.length = conn.older.ages.length + extra := by
    rw [WbConnector.older, List.length_map]
    exact entered
  have older : conn.older.ages = ages.map (· + 1) := stored ▸ rfl
  generalize conn.older = now at older entered' ⊢
  cases slots with
  | none =>
      have quiet : Slots ⟨false, 0⟩ ⟨false, 0⟩ now.ages := older ▸ .none
      cases arranged with
      | low => exact ⟨.refl entered', _, _, .low, quiet⟩
      | high => exact ⟨.refl entered', _, _, .high, quiet⟩
  | @one age young =>
      obtain rfl | rfl : age = 0 ∨ age = 1 := by omega
      · have once : Slots ⟨false, 0⟩ ⟨true, 1⟩ now.ages := older ▸ .one (by decide)
        cases arranged with
        | low => exact ⟨.refl entered', _, _, .low, once⟩
        | high => exact ⟨.refl entered', _, _, .high, once⟩
      · obtain ⟨completes, left⟩ := completes_signal older entered'
        have quiet : Slots ⟨false, 0⟩ ⟨false, 0⟩ (drmWritebackSignalCompletion now).ages :=
          left ▸ .none
        cases arranged with
        | low => exact ⟨completes, _, _, .low, quiet⟩
        | high => exact ⟨completes, _, _, .high, quiet⟩
  | @two age age' young ordered =>
      obtain ⟨rfl, rfl⟩ | ⟨rfl, rfl⟩ | ⟨rfl, rfl⟩ :
          age = 0 ∧ age' = 0 ∨ age = 1 ∧ age' = 0 ∨ age = 1 ∧ age' = 1 := by omega
      · have once : Slots ⟨true, 1⟩ ⟨true, 1⟩ now.ages :=
          older ▸ .two (by decide) (Nat.le_refl 1)
        cases arranged with
        | low => exact ⟨.refl entered', _, _, .low, once⟩
        | high => exact ⟨.refl entered', _, _, .high, once⟩
      · obtain ⟨completes, left⟩ := completes_signal older entered'
        have once : Slots ⟨false, 0⟩ ⟨true, 1⟩ (drmWritebackSignalCompletion now).ages :=
          left ▸ .one (by decide)
        cases arranged with
        | low => exact ⟨completes, _, _, .low, once⟩
        | high => exact ⟨completes, _, _, .high, once⟩
      · obtain ⟨completes, left⟩ := completes_signal older entered'
        obtain ⟨completes', left'⟩ := completes_signal left completes.entered
        have quiet : Slots ⟨false, 0⟩ ⟨false, 0⟩
            (drmWritebackSignalCompletion (drmWritebackSignalCompletion now)).ages :=
          left' ▸ .none
        cases arranged with
        | low => exact ⟨completes.trans completes', _, _, .low, quiet⟩
        | high => exact ⟨completes.trans completes', _, _, .high, quiet⟩

/-! ## A commit -/

/-- A free slot is entered behind the other one. -/
theorem enter_slots (arranged : Arranged index jobs first second)
    (slots : Slots first second ages) (free : first.pending = false) :
    ∃ second', Arranged (if index + 1 ≥ vop2WbJobMax then 0 else index + 1)
      (jobs.modify index setPending) second second' ∧ Slots second second' (ages ++ [0]) := by
  refine ⟨⟨true, 0⟩, ?_, ?_⟩
  · cases slots with
    | none => cases arranged <;> constructor
    | one => cases arranged <;> constructor
    | two => cases free
  · cases slots with
    | none => exact .one (by decide)
    | one young => exact .two young (Nat.zero_le _)
    | two => cases free

theorem Arranged.getElem_index (arranged : Arranged index jobs first second) :
    jobs[index]? = some first := by
  cases arranged <;> rfl

/-- A slot that is entered again keeps the number of pending slots. -/
theorem pendingCount_enter_of_pending (arranged : Arranged index jobs first second)
    (pending : first.pending = true) :
    pendingCount (jobs.modify index setPending) = pendingCount jobs := by
  have same : setPending first = first := by
    obtain ⟨_, _⟩ := first
    obtain rfl : _ = true := pending
    rfl
  cases arranged with
  | low =>
      change pendingCount [setPending first, second] = _
      rw [same]
  | high =>
      change pendingCount [second, setPending first] = _
      rw [same]

theorem WbInv.step (inv : WbInv s) (free : SlotFree s label) (taken : wbStep s label = some s') :
    WbInv s' := by
  obtain ⟨once, done, entered, first, second, arranged, slots⟩ := inv
  cases label with
  | queue vp =>
      simp only [wbStep] at taken
      split at taken
      · next idle =>
          obtain rfl := Option.some.inj taken
          rw [idle] at entered
          refine ⟨?_, done, ?_, first, second, arranged, slots⟩
          · change _ ++ (s.conn.queue ++ [s.jobCount]) = List.range (s.jobCount + 1)
            rw [← List.append_assoc, once, List.range_succ]
          · change (s.conn.queue ++ [s.jobCount]).length = _
            rw [List.length_append, entered]
            rfl
      · cases taken
  | enter =>
      simp only [wbStep] at taken
      split at taken
      · next vp queued =>
          obtain rfl := Option.some.inj taken
          have unused := free vp first queued arranged.getElem_index
          obtain ⟨second', arranged', slots'⟩ := enter_slots arranged slots unused
          refine ⟨once, done, ?_, second, second', arranged', slots'⟩
          rw [queued] at entered
          change s.conn.queue.length = (s.conn.ages ++ [0]).length + 0
          rw [entered, List.length_append]
          rfl
      · cases taken
  | direct =>
      simp only [wbStep] at taken
      split at taken
      · next vp at_entered =>
          obtain rfl := Option.some.inj taken
          rw [at_entered] at entered
          exact ⟨once, done, entered, first, second, arranged, slots⟩
      · cases taken
  | frameStart vp =>
      simp only [wbStep] at taken
      split at taken
      · cases taken
      · obtain rfl := Option.some.inj taken
        exact ⟨once, done, entered, first, second, arranged, slots⟩
  | count =>
      simp only [wbStep] at taken
      split at taken
      · obtain rfl := Option.some.inj taken
        obtain ⟨completes, slots'⟩ := counts_countFrames arranged slots rfl entered
        exact ⟨completes.same.trans once, completes.second done, completes.entered, slots'⟩
      · cases taken

theorem wbInv_wbStart : WbInv wbStart where
  once := rfl
  second := nofun
  entered := rfl
  slots := ⟨_, _, .low, .none⟩

/-- Two jobs are entered before the first one has had its frames, and a third one then goes into the
slot of the first: it is queued and has no slot that counts for it. -/
example : Option.map (fun s => (s.conn.queue, pendingCount s.jobs))
    (runs wbStep wbStart [.queue 0, .enter, .direct, .queue 0, .enter, .direct, .queue 0, .enter,
      .direct, .frameStart 0, .count, .frameStart 0, .count]) = some ([2], 0) := by
  decide

end WriteBack
end Vop
end RockchipSoc
