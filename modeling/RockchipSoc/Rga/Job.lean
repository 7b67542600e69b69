import RockchipSoc.Foundation.ActionPool
import RockchipSoc.Foundation.LabelledRun
import RockchipSoc.Rga.Mm

/-!
# Jobs, schedulers and the calls that work on them

Every call into the driver is a thread of atomic actions: a section under `irq_lock` or `mm->lock`,
or a single effect outside of them.  An action pushes the actions that follow it, so the functions
of the source appear as the lists that they push.  Any thread may execute next.  A ledger counts
power, references and frees; no function reads it.
-/

namespace RockchipSoc
namespace Rga

open LabelledRun ActionPool

def rgaSchedPriorityDefault : Nat := 0
def rgaSchedPriorityMax : Nat := 6

/-- The four places of a job that refer to an imported buffer. -/
inductive Channel
  | src | dst | src1 | els
  deriving DecidableEq, Repr

/-- What the scheduler reads of `struct rga_req`: the channel handles and some flags. -/
structure RgaReq where
  src : Nat
  dst : Nat
  pat : Nat
  updatePalette : Bool
  handleFlag : Bool
  priority : Nat
  deriving DecidableEq, Repr

structure RgaJob where
  src : Nat := 0
  dst : Nat := 0
  pat : Nat := 0
  updatePalette : Bool := false
  buffer : Channel → Option Nat := fun _ => none
  /-- The fence and whether it is signaled. -/
  outFence : Option Bool := none
  /-- The descriptor of the fence is installed. -/
  fenceFd : Bool := false
  async : Bool := false
  useHandle : Bool := false
  done : Bool := false
  priority : Nat := 0
  core : Nat := 0
  ret : Int := 0

structure RgaScheduler where
  runningJob : Option Nat := none
  todoList : List Nat := []
  jobCount : Nat := 0
  /-- `set_reg` has been executed since `running_job` was set. -/
  hwStarted : Bool := false
  /-- The hardware works and will raise an interrupt. -/
  hwBusy : Bool := false
  deriving DecidableEq, Repr

/-- Who called `rga_job_schedule`. -/
inductive Caller
  | sync | async | inputFence
  deriving DecidableEq, Repr

/-- The input fence of a request: no descriptor, one without a fence, or the status of the fence
with the result of adding a callback to it. -/
inductive InFence
  | absent
  | missing
  | status (status callback : Int)
  deriving DecidableEq, Repr

/-- The steps of `rga_job_run`. -/
inductive StartStage
  | power | src | dst | pat | dmaInfo | initReg | setReg
  deriving DecidableEq, Repr

/-- The steps that end the life of a job on a core. -/
inductive RetireStage
  | mark
  | put (channel : Channel)
  | signal
  | cleanup
  deriving DecidableEq, Repr

/-- Which of the three endings of a job on a core. -/
inductive Ending
  | completed | failed | timedOut
  deriving DecidableEq, Repr

inductive Action
  | inputFence (j : Nat) (fence : InFence)
  | assign (j : Nat) (caller : Caller)
  | timeoutClean (c j : Nat) (caller : Caller)
  | softReset (c : Nat)
  | enqueue (c j : Nat) (caller : Caller)
  | next (c : Nat)
  | start (c j : Nat) (stage : StartStage)
  | storeRet (c j : Nat) (ret : Int)
  | clearRunning (c j : Nat)
  | retire (j : Nat) (ending : Ending) (stage : RetireStage)
  | powerDisable (c : Nat)
  | irqThread (c : Nat)
  | takeDone (c : Nat)
  | checkRet (c j : Nat)
  | wait (c j : Nat)
  | abort (c j : Nat)
  | cleanup (j : Nat)
  deriving DecidableEq, Repr

/-- The counts that the properties speak of. -/
structure Ledger where
  freed : Nat → Nat
  enables : Nat → Nat
  disables : Nat → Nat
  imports : Nat → Nat
  releases : Nat → Nat
  /-- The references that jobs took and did not put yet. -/
  taken : List (Nat × Channel × Nat)

structure RgaState where
  sched : Nat → RgaScheduler
  jobs : Nat → RgaJob
  nextJob : Nat
  mm : RgaMm
  /-- Jobs whose callback waits for an input fence. -/
  fenceWaits : List Nat
  ledger : Ledger
  threads : List (List Action)

def rgaInit : RgaState where
  sched := fun _ => {}
  jobs := fun _ => {}
  nextJob := 0
  mm := rgaMmInit
  fenceWaits := []
  ledger := ⟨fun _ => 0, fun _ => 0, fun _ => 0, fun _ => 0, fun _ => 0, []⟩
  threads := []

/-- How `wait_event_interruptible_timeout` ends. -/
inductive WaitEnd
  | woken | timeout | interrupted
  deriving DecidableEq, Repr

/-- What the environment decides during one action: the core of `rga_job_assign`, whether the
running job is older than the timeout, what the power, mapping or register functions return, and
how a wait ends. -/
structure Choice where
  core : Option Nat := none
  elapsed : Bool := false
  ret : Int := 0
  waitEnd : WaitEnd := .woken

/-! ## Updates of one field -/

def setRunning (s : RgaState) (c : Nat) (running : Option Nat) : RgaState :=
  { s with sched := fun k => { s.sched k with
      runningJob := if k = c then running else (s.sched k).runningJob } }

def setHwBusy (s : RgaState) (c : Nat) (busy : Bool) : RgaState :=
  { s with sched := fun k => { s.sched k with
      hwBusy := if k = c then busy else (s.sched k).hwBusy } }

def setCore (s : RgaState) (j core : Nat) : RgaState :=
  { s with jobs := fun k => { s.jobs k with core := if k = j then core else (s.jobs k).core } }

def setRet (s : RgaState) (j : Nat) (ret : Int) : RgaState :=
  { s with jobs := fun k => { s.jobs k with ret := if k = j then ret else (s.jobs k).ret } }

def setDone (s : RgaState) (j : Nat) : RgaState :=
  { s with jobs := fun k => { s.jobs k with done := if k = j then true else (s.jobs k).done } }

/-- `dma_fence_signal(job->out_fence)`, if there is a fence. -/
def signalOutFence (s : RgaState) (j : Nat) : RgaState :=
  { s with jobs := fun k => { s.jobs k with
      outFence := if k = j then (s.jobs k).outFence.map fun _ => true else (s.jobs k).outFence } }

def setBuffer (s : RgaState) (j : Nat) (channel : Channel) (buffer : Option Nat) : RgaState :=
  { s with jobs := fun k => { s.jobs k with
      buffer := if k = j then Function.update (s.jobs k).buffer channel buffer
        else (s.jobs k).buffer } }

/-- Raise the priority of the listed jobs by one. -/
def raisePriority (s : RgaState) (raised : List Nat) : RgaState :=
  { s with jobs := fun k => { s.jobs k with
      priority := (s.jobs k).priority + if k ∈ raised then 1 else 0 } }

/-- `rga_job_free`. -/
def rgaJobFree (s : RgaState) (j : Nat) : RgaState :=
  { s with ledger := { s.ledger with
      freed := fun k => s.ledger.freed k + if k = j then 1 else 0 } }

/-! ## References to buffers -/

/-- What `rga_mm_get_channel_handle_info` returns and writes. -/
structure ChannelInfo where
  ret : Int
  mm : RgaMm
  buffer : Option Nat
  yrgbAddr : Nat

/-- An error behind `kref_get` keeps the reference and the pointer. -/
def rgaMmGetChannelHandleInfo (mm : RgaMm) (core yrgbAddr : Nat) : ChannelInfo :=
  match rgaMmLookupHandle mm (u32 yrgbAddr) with
  | none => ⟨-efault, mm, none, yrgbAddr⟩
  | some buffer =>
      let iova := rgaMmLookupIova buffer core
      let got := krefGet mm buffer.ptr
      match buffer.type with
      | .dmaBuffer =>
          if isRga3 core then
            ⟨if iova = 0 then -einval else 0, got, some buffer.ptr, iova⟩
          else ⟨0, got, some buffer.ptr, 0⟩
      | .virtualAddress =>
          if isRga3 core && iova == 0 then ⟨-einval, got, some buffer.ptr, 0⟩
          else
            ⟨if rgaMmLookupSgt buffer core then 0 else -einval, got, some buffer.ptr,
              if isRga3 core then iova else (buffer.virtAddr.map RgaVirtAddr.addr).getD 0⟩
      | .physicalAddress => ⟨0, got, some buffer.ptr, buffer.physAddr⟩
      | .illegal _ => ⟨-efault, got, some buffer.ptr, yrgbAddr⟩

def setYrgbAddr (s : RgaState) (j : Nat) (channel : Channel) (addr : Nat) : RgaState :=
  { s with jobs := fun k => { s.jobs k with
      src := if k = j ∧ channel = .src then addr else (s.jobs k).src
      dst := if k = j ∧ channel = .dst then addr else (s.jobs k).dst
      pat := if k = j ∧ (channel = .src1 ∨ channel = .els) then addr else (s.jobs k).pat } }

/-- Take the reference of one channel. -/
def getChannel (s : RgaState) (c j : Nat) (channel : Channel) (yrgbAddr : Nat) : Int × RgaState :=
  let info := rgaMmGetChannelHandleInfo s.mm c yrgbAddr
  let taken := info.buffer.toList.map fun ptr => (j, channel, ptr)
  (info.ret, setYrgbAddr (setBuffer { s with
      mm := info.mm, ledger := { s.ledger with taken := taken ++ s.ledger.taken } }
    j channel info.buffer) j channel info.yrgbAddr)

/-- `rga_mm_put_channel_handle_info` on the pointer of one channel, if it is set. -/
def putChannel (s : RgaState) (j : Nat) (channel : Channel) : RgaState :=
  match (s.jobs j).buffer channel with
  | none => s
  | some ptr => { s with
      mm := krefPut s.mm ptr
      ledger := { s.ledger with taken := s.ledger.taken.erase (j, channel, ptr) } }

/-! ## Starting a job -/

/-- The error path of `rga_job_run`. -/
def startFailed (c j : Nat) (ret : Int) : List Action := [.powerDisable c, .storeRet c j ret]

/-- A channel of `rga_mm_get_handle_info`; handle zero is skipped. -/
def getHandleInfo (s : RgaState) (c j : Nat) (channel : Channel) (yrgbAddr : Nat)
    (following : StartStage) : RgaState × List Action :=
  if yrgbAddr = 0 then (s, [.start c j following])
  else
    let got := getChannel s c j channel yrgbAddr
    (got.2, if got.1 < 0 then startFailed c j got.1 else [.start c j following])

/-- A function of the start that only returns a result. -/
def startCall (s : RgaState) (c j : Nat) (ret : Int) (following : StartStage) :
    RgaState × List Action :=
  (s, if ret < 0 then startFailed c j ret else [.start c j following])

def rgaPowerEnable (s : RgaState) (c : Nat) : RgaState :=
  { s with ledger := { s.ledger with
      enables := fun k => s.ledger.enables k + if k = c then 1 else 0 } }

def rgaPowerDisable (s : RgaState) (c : Nat) : RgaState :=
  { s with ledger := { s.ledger with
      disables := fun k => s.ledger.disables k + if k = c then 1 else 0 } }

/-- `set_reg` starts the hardware. -/
def setReg (s : RgaState) (c j : Nat) (ret : Int) : RgaState :=
  setRet { s with sched := fun k => { s.sched k with
      hwStarted := if k = c then true else (s.sched k).hwStarted
      hwBusy := if k = c then true else (s.sched k).hwBusy } } j ret

def rgaJobRun (s : RgaState) (c j : Nat) (choice : Choice) : StartStage → RgaState × List Action
  | .power =>
      if choice.ret < 0 then (s, [.storeRet c j choice.ret])
      else (rgaPowerEnable s c,
        [.start c j (if (s.jobs j).useHandle then .src else .dmaInfo)])
  | .src => getHandleInfo s c j .src (s.jobs j).src .dst
  | .dst => getHandleInfo s c j .dst (s.jobs j).dst .pat
  | .pat => getHandleInfo s c j (if (s.jobs j).updatePalette then .els else .src1) (s.jobs j).pat
      .initReg
  | .dmaInfo => startCall s c j choice.ret .initReg
  | .initReg => startCall s c j choice.ret .setReg
  | .setReg =>
      if choice.ret < 0 then (s, startFailed c j choice.ret) else (setReg s c j choice.ret, [])

/-! ## Ending a job -/

/-- `rga_mm_put_handle_info` for jobs with handles; `rga_dma_put_info` holds no imports. -/
def putStage (job : RgaJob) : RetireStage := if job.useHandle then .put .src else .signal

def afterPut : Channel → RetireStage
  | .src => .put .dst
  | .dst => .put .src1
  | .src1 => .put .els
  | .els => .signal

/-- The job on its way out: flags, references, fence, and at last `rga_job_cleanup`, which a sync
job leaves to its caller. -/
def retireJob (s : RgaState) (j : Nat) (ending : Ending) :
    RetireStage → RgaState × List Action
  | .mark => (setRet (setDone s j) j 0, [.retire j ending (putStage (s.jobs j))])
  | .put channel => (putChannel s j channel, [.retire j ending (afterPut channel)])
  | .signal => (signalOutFence s j, [.retire j ending .cleanup])
  | .cleanup =>
      if (s.jobs j).async || ending == .timedOut then (rgaJobFree s j, [])
      else if ending == .failed then (setDone s j, [])
      else (s, [])

/-! ## The queue -/

/-- The loop of `rga_job_schedule` over `todo_list`: the list with the job entered, and the jobs
whose priority the loop raises. -/
def insertByPriority (priority : Nat → Nat) (j : Nat) : List Nat → List Nat × List Nat
  | [] => ([j], [])
  | pos :: rest =>
      if priority pos < priority j then (pos :: j :: rest, pos :: j :: rest)
      else
        let inserted := insertByPriority priority j rest
        (pos :: inserted.1, inserted.2)

def todoInsert (s : RgaState) (j : Nat) (todo : List Nat) : List Nat × List Nat :=
  if todo = [] ∨ (s.jobs j).priority = rgaSchedPriorityDefault then (todo ++ [j], [])
  else insertByPriority (fun k => (s.jobs k).priority) j todo

def enqueue (s : RgaState) (c j : Nat) : RgaState :=
  let inserted := todoInsert s j (s.sched c).todoList
  raisePriority { s with sched := fun k => { s.sched k with
      todoList := if k = c then inserted.1 else (s.sched k).todoList
      jobCount := (s.sched k).jobCount + if k = c then 1 else 0 } } inserted.2

/-- The first job leaves `todo_list` and becomes `running_job`. -/
def takeFirst (s : RgaState) (c j : Nat) (rest : List Nat) : RgaState :=
  { s with sched := fun k => { s.sched k with
      runningJob := if k = c then some j else (s.sched k).runningJob
      todoList := if k = c then rest else (s.sched k).todoList
      jobCount := (s.sched k).jobCount - if k = c then 1 else 0
      hwStarted := if k = c then false else (s.sched k).hwStarted } }

/-- The section of `rga_job_next`: only an idle core takes a job. -/
def rgaJobNext (s : RgaState) (c : Nat) : RgaState × List Action :=
  match (s.sched c).runningJob, (s.sched c).todoList with
  | none, j :: rest => (takeFirst s c j rest, [.start c j .power])
  | _, _ => (s, [])

/-- `rga_job_timeout_clean`, with the rest of `rga_job_schedule` behind it. -/
def rgaJobTimeoutClean (s : RgaState) (c j : Nat) (caller : Caller) (elapsed : Bool) :
    RgaState × List Action :=
  match (s.sched c).runningJob with
  | some x =>
      if (s.jobs x).async && elapsed then
        (setRunning s c none, [.softReset c, .retire x .timedOut (putStage (s.jobs x)),
          .powerDisable c, .enqueue c j caller])
      else (s, [.enqueue c j caller])
  | none => (s, [.enqueue c j caller])

/-- `rga_job_assign` and `rga_job_get_scheduler`; without a scheduler only `rga_job_commit` frees
the job. -/
def rgaJobSchedule (cores : List Nat) (s : RgaState) (j : Nat) (caller : Caller)
    (core : Option Nat) : RgaState × List Action :=
  match core.filter (· ∈ cores) with
  | some c => (setCore s j c, [.timeoutClean c j caller])
  | none => (s, if caller = .inputFence then [] else [.cleanup j])

/-- The section of `rga_job_done`; it does not survive an idle core. -/
def rgaJobDone (s : RgaState) (c : Nat) : Option (RgaState × List Action) :=
  (s.sched c).runningJob.map fun j =>
    (setRunning s c none, [.retire j .completed .mark, .next c, .powerDisable c])

/-! ## The rest of `rga_job_commit` -/

def inputFence (s : RgaState) (j : Nat) : InFence → RgaState × List Action
  | .absent => (s, [.assign j .async])
  | .missing => (s, [.cleanup j])
  | .status status callback =>
      if status = 1 then (s, [.assign j .async])
      else if status = 0 then
        if callback < 0 then (s, [.cleanup j])
        else ({ s with fenceWaits := j :: s.fenceWaits }, [])
      else (s, [.cleanup j])

def rgaJobWait (s : RgaState) (c j : Nat) (waitEnd : WaitEnd) : Option (RgaState × List Action) :=
  match (s.jobs j).done, waitEnd with
  | true, .woken => some (s, [.cleanup j])
  | false, .timeout => some (s, [.softReset c, .abort c j])
  | false, .interrupted => some (s, [.abort c j])
  | _, _ => none

def rgaRunningJobAbort (s : RgaState) (c j : Nat) : RgaState × List Action :=
  (if (s.sched c).runningJob = some j then setRunning s c none else s, [.cleanup j])

/-! ## Execution -/

/-- One action of a thread: the state behind it and the actions it pushes. -/
def execute (cores : List Nat) (s : RgaState) (choice : Choice) :
    Action → Option (RgaState × List Action)
  | .inputFence j fence => some (inputFence s j fence)
  | .assign j caller => some (rgaJobSchedule cores s j caller choice.core)
  | .timeoutClean c j caller => some (rgaJobTimeoutClean s c j caller choice.elapsed)
  | .softReset c => some (setHwBusy s c false, [])
  | .enqueue c j caller =>
      some (enqueue s c j, .next c :: if caller = .sync then [.checkRet c j] else [])
  | .next c => some (rgaJobNext s c)
  | .start c j stage => some (rgaJobRun s c j choice stage)
  | .storeRet c j ret => some (setRet s j ret, [.clearRunning c j])
  | .clearRunning c j =>
      some (setRunning s c none, [.retire j .failed (putStage (s.jobs j)), .next c])
  | .retire j ending stage => some (retireJob s j ending stage)
  | .powerDisable c => some (rgaPowerDisable s c, [])
  | .irqThread c => some (s, if (s.sched c).runningJob = none then [] else [.takeDone c])
  | .takeDone c => rgaJobDone s c
  | .checkRet c j => some (s, if (s.jobs j).ret < 0 then [.abort c j] else [.wait c j])
  | .wait c j => rgaJobWait s c j choice.waitEnd
  | .abort c j => some (rgaRunningJobAbort s c j)
  | .cleanup j => some (rgaJobFree s j, [])

/-- How the first part of `rga_job_commit` ends. -/
inductive Prologue
  | noMemory
  | dmaBufFails
  | outFenceFails
  | ready (fenceFd : Bool)
  deriving DecidableEq, Repr

inductive RgaLabel
  | commit (req : RgaReq) (async : Bool) (prologue : Prologue) (fence : InFence)
  | fenceSignaled (j : Nat)
  | irq (c : Nat)
  | call (t : Nat) (choice : Choice)
  | importBuffer (external : RgaExternalBuffer) (env : ImportEnv)
  | releaseBuffer (handle : Nat)

/-- `rga_job_alloc` and, for an async job, its fence. -/
def rgaJobAlloc (req : RgaReq) (async fenceFd : Bool) : RgaJob where
  src := req.src
  dst := req.dst
  pat := req.pat
  updatePalette := req.updatePalette
  outFence := if async then some false else none
  fenceFd := async && fenceFd
  async := async
  useHandle := req.handleFlag
  priority := min req.priority rgaSchedPriorityMax

/-- A job whose allocation is undone at once. -/
def allocAndFree (s : RgaState) : RgaState :=
  { rgaJobFree s s.nextJob with nextJob := s.nextJob + 1 }

def commit (s : RgaState) (req : RgaReq) (async : Bool) (fence : InFence) :
    Prologue → RgaState
  | .noMemory => s
  | .dmaBufFails | .outFenceFails => allocAndFree s
  | .ready fenceFd => { s with
      jobs := fun k => if k = s.nextJob then rgaJobAlloc req async fenceFd else s.jobs k
      nextJob := s.nextJob + 1
      threads := s.threads ++ [[if async then .inputFence s.nextJob fence
        else .assign s.nextJob .sync]] }

/-- The ledger counts the import for the buffer that the returned handle finds. -/
def importBuffer (cores : List Nat) (s : RgaState) (external : RgaExternalBuffer)
    (env : ImportEnv) : RgaState :=
  let outcome := rgaMmImportBuffer cores env s.mm external
  let found := if outcome.1 < 0 then none else rgaMmLookupHandle outcome.2 outcome.1.toNat
  { s with
    mm := outcome.2
    ledger := { s.ledger with
      imports := fun ptr => s.ledger.imports ptr +
        if found.map RgaInternalBuffer.ptr = some ptr then 1 else 0 } }

def releaseBuffer (s : RgaState) (handle : Nat) : RgaState :=
  { s with
    mm := (rgaMmReleaseBuffer s.mm handle).2
    ledger := { s.ledger with
      releases := fun ptr => s.ledger.releases ptr +
        if (rgaMmLookupHandle s.mm handle).map RgaInternalBuffer.ptr = some ptr then 1 else 0 } }

/-- Thread `t` has executed its first action: it goes on with the pushed ones. -/
def resume (s : RgaState) (threads : List (List Action)) (t : Nat) (pushed rest : List Action) :
    RgaState :=
  { s with threads := threads.set t (pushed ++ rest) }

def rgaStep (cores : List Nat) (s : RgaState) : RgaLabel → Option RgaState
  | .commit req async prologue fence => some (commit s req async fence prologue)
  | .fenceSignaled j =>
      if j ∈ s.fenceWaits then
        some { s with fenceWaits := s.fenceWaits.erase j
                      threads := s.threads ++ [[.assign j .inputFence]] }
      else none
  | .irq c =>
      if (s.sched c).hwBusy then
        some { setHwBusy s c false with threads := s.threads ++ [[.irqThread c]] }
      else none
  | .call t choice =>
      match s.threads[t]? with
      | some (action :: rest) => (execute cores s choice action).map fun outcome =>
          resume outcome.1 s.threads t outcome.2 rest
      | _ => none
  | .importBuffer external env => some (importBuffer cores s external env)
  | .releaseBuffer handle => some (releaseBuffer s handle)

/-- The action that a label executes. -/
def executing (s : RgaState) : RgaLabel → Option Action
  | .call t _ => (s.threads[t]?).bind List.head?
  | _ => none

/-- The core and the job of a `rga_running_job_abort`. -/
def aborts : Action → Option (Nat × Nat)
  | .abort c j => some (c, j)
  | _ => none

/-! ## Calls step by step -/

def plainReq : RgaReq := ⟨0, 0, 0, false, false, 0⟩

/-- Thread `t` schedules its job on core `c` and asks for the next job. -/
def scheduleOn (t c : Nat) : List RgaLabel :=
  [.call t { core := some c }, .call t {}, .call t {}, .call t {}]

/-- Thread `t` executes `n` actions that all go well. -/
def proceed (t n : Nat) : List RgaLabel := List.replicate n (.call t {})

end Rga
end RockchipSoc
