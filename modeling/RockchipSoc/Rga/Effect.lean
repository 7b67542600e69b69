import RockchipSoc.Rga.Place

/-!
# What one action does

`Effect` lists the outcomes of every action with what is known where it occurs.  The invariants of
the scheduler are case analyses of it.
-/

namespace RockchipSoc
namespace Rga

open LabelledRun ActionPool

/-- A start goes on with this stage. -/
def StartStage.following : StartStage → StartStage
  | .power | .src => .dst
  | .dst => .pat
  | .pat | .dmaInfo => .initReg
  | .initReg | .setReg => .setReg

/-- The channels whose reference a stage may take. -/
def StartStage.serves : StartStage → List Channel
  | .src => [.src]
  | .dst => [.dst]
  | .pat => [.els, .src1]
  | _ => []

/-- The input fences with which `rga_job_commit` goes on. -/
def InFence.accepted : InFence → Bool
  | .absent => true
  | .missing => false
  | .status state callback => state == 1 || (state == 0 && decide (0 ≤ callback))

inductive Effect (cores : List Nat) (s : RgaState) (choice : Choice) :
    Action → RgaState → List Action → Prop
  | fenceReady {j fence} : Effect cores s choice (.inputFence j fence) s [.assign j .async]
  | fenceAwaited {j fence} : Effect cores s choice (.inputFence j fence)
      { s with fenceWaits := j :: s.fenceWaits } []
  | fenceRefused {j fence} (refused : fence.accepted = false) :
      Effect cores s choice (.inputFence j fence) s [.cleanup j]
  | assigned {j caller c} (member : c ∈ cores) :
      Effect cores s choice (.assign j caller) (setCore s j c) [.timeoutClean c j caller]
  | unassigned {j caller} (refused : choice.core.filter (· ∈ cores) = none)
      (callback : caller ≠ .inputFence) : Effect cores s choice (.assign j caller) s [.cleanup j]
  | callbackUnassigned {j} (refused : choice.core.filter (· ∈ cores) = none) :
      Effect cores s choice (.assign j .inputFence) s []
  | notTimedOut {c j caller} :
      Effect cores s choice (.timeoutClean c j caller) s [.enqueue c j caller]
  | timedOut {c j caller x} (runs : running s c = some x) (async : (s.jobs x).async = true)
      (elapsed : choice.elapsed = true) :
      Effect cores s choice (.timeoutClean c j caller) (setRunning s c none)
        [.softReset c, .retire x .timedOut (putStage (s.jobs x)), .powerDisable c,
          .enqueue c j caller]
  | softReset {c} : Effect cores s choice (.softReset c) (setHwBusy s c false) []
  | enqueued {c j caller} : Effect cores s choice (.enqueue c j caller) (enqueue s c j)
      (.next c :: if caller = .sync then [.checkRet c j] else [])
  | nothingNext {c} (busy : running s c = none → todo s c = []) :
      Effect cores s choice (.next c) s []
  | begun {c x queue} (idle : running s c = none) (listed : todo s c = x :: queue) :
      Effect cores s choice (.next c) (takeFirst s c x queue) [.start c x .power]
  | unpowered {c j ret} : Effect cores s choice (.start c j .power) s [.storeRet c j ret]
  | powered {c j} : Effect cores s choice (.start c j .power) (rgaPowerEnable s c)
      [.start c j (if (s.jobs j).useHandle then .src else .dmaInfo)]
  | passed {c j stage} (on : stage ≠ .power) (under : stage ≠ .setReg) :
      Effect cores s choice (.start c j stage) s [.start c j stage.following]
  | failed {c j stage ret} (on : stage ≠ .power) :
      Effect cores s choice (.start c j stage) s (startFailed c j ret)
  | got {c j stage channel addr pushed} (serves : channel ∈ stage.serves)
      (pushes : pushed = [.start c j stage.following] ∨ ∃ ret, pushed = startFailed c j ret) :
      Effect cores s choice (.start c j stage) (getChannel s c j channel addr).2 pushed
  | registersSet {c j ret} : Effect cores s choice (.start c j .setReg) (setReg s c j ret) []
  | retStored {c j ret} :
      Effect cores s choice (.storeRet c j ret) (setRet s j ret) [.clearRunning c j]
  | cleared {c j} : Effect cores s choice (.clearRunning c j) (setRunning s c none)
      [.retire j .failed (putStage (s.jobs j)), .next c]
  | marked {j ending} : Effect cores s choice (.retire j ending .mark) (setRet (setDone s j) j 0)
      [.retire j ending (putStage (s.jobs j))]
  | put {j ending channel} : Effect cores s choice (.retire j ending (.put channel))
      (putChannel s j channel) [.retire j ending (afterPut channel)]
  | signaled {j ending} : Effect cores s choice (.retire j ending .signal) (signalOutFence s j)
      [.retire j ending .cleanup]
  | retired {j ending} (own : (s.jobs j).async = true ∨ ending = .timedOut) :
      Effect cores s choice (.retire j ending .cleanup) (rgaJobFree s j) []
  | leftToCaller {j ending} (sync : (s.jobs j).async = false) :
      Effect cores s choice (.retire j ending .cleanup)
        (if ending = .failed then setDone s j else s) []
  | powerDisabled {c} : Effect cores s choice (.powerDisable c) (rgaPowerDisable s c) []
  | irqWithoutJob {c} : Effect cores s choice (.irqThread c) s []
  | irqWithJob {c} : Effect cores s choice (.irqThread c) s [.takeDone c]
  | completed {c x} (runs : running s c = some x) :
      Effect cores s choice (.takeDone c) (setRunning s c none)
        [.retire x .completed .mark, .next c, .powerDisable c]
  | retFailed {c j} : Effect cores s choice (.checkRet c j) s [.abort c j]
  | retGood {c j} : Effect cores s choice (.checkRet c j) s [.wait c j]
  | woken {c j} (done : (s.jobs j).done = true) (wakes : choice.waitEnd = .woken) :
      Effect cores s choice (.wait c j) s [.cleanup j]
  | waitTimedOut {c j} : Effect cores s choice (.wait c j) s [.softReset c, .abort c j]
  | interrupted {c j} : Effect cores s choice (.wait c j) s [.abort c j]
  | aborted {c j} (runs : running s c = some j) :
      Effect cores s choice (.abort c j) (setRunning s c none) [.cleanup j]
  | abortedElsewhere {c j} (elsewhere : running s c ≠ some j) :
      Effect cores s choice (.abort c j) s [.cleanup j]
  | cleaned {j} : Effect cores s choice (.cleanup j) (rgaJobFree s j) []

variable {cores : List Nat} {s s' : RgaState} {choice : Choice} {head : Action}
  {pushed : List Action} {c j : Nat}

theorem effect_inputFence (fence : InFence) : Effect cores s choice (.inputFence j fence)
    (inputFence s j fence).1 (inputFence s j fence).2 := by
  cases fence with
  | absent => exact .fenceReady
  | missing => exact .fenceRefused rfl
  | status status callback =>
      simp only [inputFence]
      split
      · exact .fenceReady
      · next notSignaled =>
          split
          · next active =>
              split
              · next error => exact .fenceRefused (by simp [InFence.accepted, active, error])
              · exact .fenceAwaited
          · next broken =>
              exact .fenceRefused (by simp [InFence.accepted, notSignaled, broken])

theorem effect_getHandleInfo {stage : StartStage} {channel : Channel} (addr : Nat)
    (serves : channel ∈ stage.serves) : Effect cores s choice (.start c j stage)
      (getHandleInfo s c j channel addr stage.following).1
      (getHandleInfo s c j channel addr stage.following).2 := by
  have on : stage ≠ .power := fun none => by simp [none, StartStage.serves] at serves
  have under : stage ≠ .setReg := fun none => by simp [none, StartStage.serves] at serves
  simp only [getHandleInfo]
  split
  · exact .passed on under
  · refine .got serves ?_
    split
    · exact Or.inr ⟨_, rfl⟩
    · exact Or.inl rfl

theorem effect_startCall {stage : StartStage} (ret : Int) (on : stage ≠ .power)
    (under : stage ≠ .setReg) : Effect cores s choice (.start c j stage)
      (startCall s c j ret stage.following).1 (startCall s c j ret stage.following).2 := by
  simp only [startCall]
  split
  · exact .failed on
  · exact .passed on under

theorem effect_rgaJobRun (stage : StartStage) : Effect cores s choice (.start c j stage)
    (rgaJobRun s c j choice stage).1 (rgaJobRun s c j choice stage).2 := by
  cases stage with
  | power =>
      simp only [rgaJobRun]
      split
      · exact .unpowered
      · exact .powered
  | src | dst => exact effect_getHandleInfo _ (by simp [StartStage.serves])
  | pat => exact effect_getHandleInfo _ (by split <;> simp [StartStage.serves])
  | dmaInfo | initReg => exact effect_startCall choice.ret (by simp) (by simp)
  | setReg =>
      simp only [rgaJobRun]
      split
      · exact .failed (by simp)
      · exact .registersSet

theorem effect_retireJob (ending : Ending) (stage : RetireStage) :
    Effect cores s choice (.retire j ending stage) (retireJob s j ending stage).1
      (retireJob s j ending stage).2 := by
  cases stage with
  | mark => exact .marked
  | put channel => exact .put
  | signal => exact .signaled
  | cleanup =>
      simp only [retireJob]
      split
      · next own => exact .retired (by simpa using own)
      · next other =>
          have sync : (s.jobs j).async = false := by simp_all
          have left : Effect cores s choice (.retire j ending .cleanup)
            (if ending = .failed then setDone s j else s) [] := .leftToCaller sync
          split
          · next failed =>
              rw [if_pos (beq_iff_eq.mp failed)] at left
              exact left
          · next others =>
              rw [if_neg fun same => others (beq_iff_eq.mpr same)] at left
              exact left

theorem effect_of_execute (executed : execute cores s choice head = some (s', pushed)) :
    Effect cores s choice head s' pushed := by
  cases head with
  | takeDone c =>
      obtain ⟨x, runs, outcome⟩ := Option.map_eq_some_iff.mp executed
      obtain ⟨rfl, rfl⟩ := Prod.mk.inj outcome
      exact .completed runs
  | wait c j =>
      simp only [execute, rgaJobWait] at executed
      split at executed
      case h_4 => cases executed
      all_goals obtain ⟨rfl, rfl⟩ := Prod.mk.inj (Option.some.inj executed)
      · exact .woken ‹_› ‹_›
      · exact .waitTimedOut
      · exact .interrupted
  | inputFence j fence =>
      obtain ⟨rfl, rfl⟩ := Prod.mk.inj (Option.some.inj executed)
      exact effect_inputFence fence
  | assign j caller =>
      simp only [execute, rgaJobSchedule, Option.some.injEq] at executed
      split at executed
      · next chosen =>
          obtain ⟨rfl, rfl⟩ := Prod.mk.inj executed
          exact .assigned (by simpa using (Option.filter_eq_some_iff.mp chosen).2)
      · next refused =>
          obtain ⟨rfl, rfl⟩ := Prod.mk.inj executed
          split
          · next callback =>
              subst callback
              exact .callbackUnassigned refused
          · next direct => exact .unassigned refused direct
  | timeoutClean c j caller =>
      simp only [execute, rgaJobTimeoutClean, Option.some.injEq] at executed
      split at executed
      · next runs =>
          split at executed
          · next old =>
              obtain ⟨rfl, rfl⟩ := Prod.mk.inj executed
              rw [Bool.and_eq_true] at old
              exact .timedOut runs old.1 old.2
          · obtain ⟨rfl, rfl⟩ := Prod.mk.inj executed
            exact .notTimedOut
      · obtain ⟨rfl, rfl⟩ := Prod.mk.inj executed
        exact .notTimedOut
  | next c =>
      simp only [execute, rgaJobNext, Option.some.injEq] at executed
      split at executed
      · next idle listed =>
          obtain ⟨rfl, rfl⟩ := Prod.mk.inj executed
          exact .begun idle listed
      · next busy =>
          obtain ⟨rfl, rfl⟩ := Prod.mk.inj executed
          refine .nothingNext fun idle => ?_
          cases listed : (s.sched c).todoList with
          | nil => exact listed
          | cons x queue => exact absurd listed (busy x queue idle)
  | start c j stage =>
      obtain ⟨rfl, rfl⟩ := Prod.mk.inj (Option.some.inj executed)
      exact effect_rgaJobRun stage
  | retire j ending stage =>
      obtain ⟨rfl, rfl⟩ := Prod.mk.inj (Option.some.inj executed)
      exact effect_retireJob ending stage
  | irqThread c =>
      obtain ⟨rfl, rfl⟩ := Prod.mk.inj (Option.some.inj executed)
      split
      · exact .irqWithoutJob
      · exact .irqWithJob
  | checkRet c j =>
      obtain ⟨rfl, rfl⟩ := Prod.mk.inj (Option.some.inj executed)
      split
      · exact .retFailed
      · exact .retGood
  | abort c j =>
      obtain ⟨rfl, rfl⟩ := Prod.mk.inj (Option.some.inj executed)
      split
      · next runs => exact .aborted runs
      · next elsewhere => exact .abortedElsewhere elsewhere
  | softReset c =>
      obtain ⟨rfl, rfl⟩ := Prod.mk.inj (Option.some.inj executed)
      exact .softReset
  | enqueue c j caller =>
      obtain ⟨rfl, rfl⟩ := Prod.mk.inj (Option.some.inj executed)
      exact .enqueued
  | storeRet c j ret =>
      obtain ⟨rfl, rfl⟩ := Prod.mk.inj (Option.some.inj executed)
      exact .retStored
  | clearRunning c j =>
      obtain ⟨rfl, rfl⟩ := Prod.mk.inj (Option.some.inj executed)
      exact .cleared
  | powerDisable c =>
      obtain ⟨rfl, rfl⟩ := Prod.mk.inj (Option.some.inj executed)
      exact .powerDisabled
  | cleanup j =>
      obtain ⟨rfl, rfl⟩ := Prod.mk.inj (Option.some.inj executed)
      exact .cleaned

theorem todo_putChannel (s : RgaState) (j : Nat) (channel : Channel) (k : Nat) :
    todo (putChannel s j channel) k = todo s k := by
  rw [putChannel]
  split <;> rfl

theorem running_putChannel (s : RgaState) (j : Nat) (channel : Channel) (k : Nat) :
    running (putChannel s j channel) k = running s k := by
  rw [putChannel]
  split <;> rfl

theorem nextJob_of_effect (effect : Effect cores s choice head s' pushed) :
    s'.nextJob = s.nextJob := by
  cases effect with
  | put =>
      rw [putChannel]
      split <;> rfl
  | leftToCaller => split <;> rfl
  | _ => rfl

/-- What one step of the system does. -/
inductive Steps (cores : List Nat) (s : RgaState) : RgaLabel → RgaState → Prop
  | refused {req async prologue fence} : Steps cores s (.commit req async prologue fence) s
  | undone {req async prologue fence} :
      Steps cores s (.commit req async prologue fence) (allocAndFree s)
  | committed {req async fenceFd fence} : Steps cores s (.commit req async (.ready fenceFd) fence)
      (commit s req async fence (.ready fenceFd))
  | fenceSignaled {j : Nat} (waits : j ∈ s.fenceWaits) : Steps cores s (.fenceSignaled j)
      { s with fenceWaits := s.fenceWaits.erase j
               threads := s.threads ++ [[.assign j .inputFence]] }
  | irq {c : Nat} : Steps cores s (.irq c)
      { setHwBusy s c false with threads := s.threads ++ [[.irqThread c]] }
  | call {t : Nat} {choice : Choice} {head : Action}
      {rest pushed : List Action} {middle : RgaState}
      (current : s.threads[t]? = some (head :: rest))
      (effect : Effect cores s choice head middle pushed) :
      Steps cores s (.call t choice) (resume middle s.threads t pushed rest)
  | imported {external env} :
      Steps cores s (.importBuffer external env) (importBuffer cores s external env)
  | released {handle} : Steps cores s (.releaseBuffer handle) (releaseBuffer s handle)

theorem steps_of_rgaStep {label : RgaLabel} (taken : rgaStep cores s label = some s') :
    Steps cores s label s' := by
  cases label with
  | commit req async prologue fence =>
      obtain rfl := Option.some.inj taken
      cases prologue with
      | noMemory => exact .refused
      | dmaBufFails | outFenceFails => exact .undone
      | ready fenceFd => exact .committed
  | fenceSignaled j =>
      simp only [rgaStep] at taken
      split at taken
      · next waits =>
          obtain rfl := Option.some.inj taken
          exact .fenceSignaled waits
      · cases taken
  | irq c =>
      simp only [rgaStep] at taken
      split at taken
      · obtain rfl := Option.some.inj taken
        exact .irq
      · cases taken
  | call t choice =>
      simp only [rgaStep] at taken
      split at taken
      · next current =>
          obtain ⟨outcome, executed, rfl⟩ := Option.map_eq_some_iff.mp taken
          exact .call current (effect_of_execute executed)
      · cases taken
  | importBuffer external env =>
      obtain rfl := Option.some.inj taken
      exact .imported
  | releaseBuffer handle =>
      obtain rfl := Option.some.inj taken
      exact .released

end Rga
end RockchipSoc
