import Mathlib.Data.List.Pairwise
import RockchipSoc.Vop.FlipEvents

/-!
# Flips complete in time

A flip is announced, and the framebuffers it replaces are released, only when the hardware displays
the commit or a later one.  The wait for the interrupt handler is what this rests on: a handler that
has read a frame start before the config done bit was set has returned before the event is stored.
-/

namespace RockchipSoc
namespace Vop
namespace FlipEvents

open LabelledRun

variable {s s' : FlipState} {label : FlipLabel} {vp commit : Nat} {port port' : Port}
  {served served' : Prop}

/-! ## No flip is early -/

/-- The registers of a commit are displayed or will be from the next frame on, and before any frame
start is served that the driver does not know of. -/
structure AwaitsIn (served : Prop) (written scanned : Nat) (cfgDone fsStatus : Bool)
    (commit : Nat) : Prop where
  written : commit ≤ written
  latched : cfgDone = true ∨ commit ≤ scanned
  unseen : fsStatus = true ∨ served → commit ≤ scanned

abbrev Awaits (served : Prop) (port : Port) : Nat → Prop :=
  AwaitsIn served port.written port.scanned port.cfgDone port.fsStatus

/-- The flush has set the config done bit. -/
def isConfigured : FlushAt → Bool
  | .idle | .written => false
  | _ => true

/-- The flush has waited for the handler. -/
def hasWaited : FlushAt → Bool
  | .waited | .replacing _ | .marking _ => true
  | _ => false

/-- What has been announced or released belongs to commits that are displayed or were. -/
structure NotEarly (port : Port) : Prop where
  sent : ∀ commit ∈ port.sent, commit ≤ port.scanned
  released : ∀ fb ∈ port.released, fb.2 ≤ port.scanned

structure PortInv (served : Prop) (port : Port) : Prop extends NotEarly port where
  scanned : port.scanned ≤ port.written
  configured : isConfigured port.flush = true →
    port.cfgDone = true ∨ port.written ≤ port.scanned
  polled : port.flush = .polled → port.fsStatus = true → port.written ≤ port.scanned
  waited : hasWaited port.flush = true → Awaits served port port.written
  event : ∀ commit ∈ port.event, Awaits served port commit
  queued : ∀ fb ∈ port.fbUnrefQueued, Awaits served port fb.2
  committed : ∀ fb ∈ port.fbUnrefCommitted, fb.2 ≤ port.scanned

theorem Awaits.still (awaits : Awaits served port commit) (still : served' → served) :
    Awaits served' port commit :=
  ⟨awaits.written, awaits.latched, fun seen => awaits.unseen (seen.imp_right still)⟩

theorem Awaits.write (awaits : Awaits served port commit) :
    Awaits served (writeRegs port) commit :=
  ⟨Nat.le_succ_of_le awaits.written, awaits.latched, awaits.unseen⟩

theorem Awaits.cfgDone (awaits : Awaits served port commit) :
    Awaits served (vop2CfgDone port) commit :=
  ⟨awaits.written, Or.inl rfl, awaits.unseen⟩

/-- What is marked done is displayed from a frame start on. -/
theorem scanned_frameStart (enabled : Bool)
    (written : commit ≤ port.written) (latched : port.cfgDone = true ∨ commit ≤ port.scanned) :
    commit ≤ (frameStart port enabled).scanned := by
  change commit ≤ if port.cfgDone then port.written else port.scanned
  split
  · exact written
  · next undone => exact latched.resolve_left undone

theorem Awaits.frameStart (awaits : Awaits served port commit) (enabled : Bool) :
    Awaits served (frameStart port enabled) commit := by
  have shown := scanned_frameStart enabled awaits.written awaits.latched
  exact ⟨awaits.written, Or.inr shown, fun _ => shown⟩

theorem Awaits.read (awaits : Awaits served port commit) (now : served' → port.fsStatus = true) :
    Awaits served' { port with fsStatus := false } commit :=
  ⟨awaits.written, awaits.latched, fun seen =>
    awaits.unseen (Or.inl (now (seen.resolve_left Bool.false_ne_true)))⟩

theorem portInv_emptyPort : PortInv served emptyPort where
  sent := nofun
  released := nofun
  scanned := Nat.le_refl 0
  configured := nofun
  polled := nofun
  waited := nofun
  event := nofun
  queued := nofun
  committed := nofun

theorem PortInv.still (inv : PortInv served port) (still : served' → served) :
    PortInv served' port where
  toNotEarly := inv.toNotEarly
  scanned := inv.scanned
  configured := inv.configured
  polled := inv.polled
  waited := fun waited => (inv.waited waited).still still
  event := fun commit there => (inv.event commit there).still still
  queued := fun fb there => (inv.queued fb there).still still
  committed := inv.committed

theorem PortInv.frameStart (inv : PortInv served port) (enabled : Bool) :
    PortInv served (frameStart port enabled) := by
  have later : ∀ commit, commit ≤ port.scanned →
      commit ≤ (FlipEvents.frameStart port enabled).scanned := fun commit shown =>
    scanned_frameStart enabled (Nat.le_trans shown inv.scanned) (Or.inr shown)
  refine ⟨⟨fun commit sent => later commit (inv.sent commit sent), fun fb released =>
    later fb.2 (inv.released fb released)⟩, ?_, fun configured => Or.inr ?_,
    fun polled _ => ?_, fun waited => (inv.waited waited).frameStart enabled,
    fun commit there => (inv.event commit there).frameStart enabled,
    fun fb there => (inv.queued fb there).frameStart enabled,
    fun fb there => later fb.2 (inv.committed fb there)⟩
  · change (if port.cfgDone then port.written else port.scanned) ≤ port.written
    split
    · exact Nat.le_refl _
    · exact inv.scanned
  · exact scanned_frameStart enabled (Nat.le_refl _) (inv.configured configured)
  · have polled' : port.flush = .polled := polled
    exact scanned_frameStart enabled (Nat.le_refl _)
      (inv.configured (by rw [polled']; rfl))

theorem PortInv.step (inv : PortInv served port) (step : PortStep served port port') :
    PortInv served port' := by
  obtain ⟨⟨sent, released⟩, scanned, configured, polled, waited, event, queued, committed⟩ := id inv
  cases step with
  | write =>
      exact ⟨⟨sent, released⟩, Nat.le_succ_of_le scanned, nofun, nofun, nofun,
        fun commit there => (event commit there).write, fun fb there => (queued fb there).write,
        committed⟩
  | cfgDone =>
      exact ⟨⟨sent, released⟩, scanned, fun _ => Or.inl rfl, nofun, nofun,
        fun commit there => (event commit there).cfgDone, fun fb there => (queued fb there).cfgDone,
        committed⟩
  | poll ready answered =>
      exact ⟨⟨sent, released⟩, scanned, fun _ => configured (by rw [ready]; rfl),
        fun _ seen => absurd (answered.symm.trans seen) Bool.false_ne_true, nofun, event, queued,
        committed⟩
  | synchronize ready quiet =>
      have latched := configured (by rw [ready]; rfl)
      exact ⟨⟨sent, released⟩, scanned, fun _ => latched, nofun,
        fun _ => ⟨Nat.le_refl _, latched, fun seen => polled ready (seen.resolve_right quiet)⟩,
        event, queued, committed⟩
  | finish =>
      exact ⟨⟨sent, released⟩, scanned, nofun, nofun, nofun, event, queued, committed⟩
  | @queue fb fbs replacing =>
      have own := waited (by rw [replacing]; rfl)
      refine ⟨⟨sent, released⟩, scanned, fun _ => configured (by rw [replacing]; rfl), nofun,
        fun _ => own, event, fun other there => ?_, committed⟩
      rcases List.mem_append.mp there with there | same
      · exact queued other there
      · rw [List.mem_singleton.mp same]
        exact own
  | mark marking =>
      exact ⟨⟨sent, released⟩, scanned, fun _ => configured (by rw [marking]; rfl), nofun,
        fun _ => waited (by rw [marking]; rfl), event, queued, committed⟩
  | frameStart enabled => exact inv.frameStart enabled
  | sendEvent now =>
      unfold FlipEvents.sendEvent
      split
      · exact inv
      · next commit stored =>
          refine ⟨⟨fun other there => ?_, released⟩, scanned, configured, polled, waited, nofun,
            queued, committed⟩
          rcases List.mem_append.mp there with there | same
          · exact sent other there
          · rw [List.mem_singleton.mp same]
            exact (event commit stored).unseen (Or.inr now)
  | commitUnref now =>
      unfold FlipEvents.commitUnref
      split
      · refine ⟨⟨sent, released⟩, scanned, configured, polled, waited, event, nofun,
          fun fb there => ?_⟩
        rcases List.mem_append.mp there with there | there
        · exact committed fb there
        · exact (queued fb there).unseen (Or.inr now)
      · exact inv
  | @release fb rest first =>
      refine ⟨⟨sent, fun other there => ?_⟩, scanned, configured, polled, waited, event, queued,
        fun other there => committed other (by rw [first]; exact List.mem_cons_of_mem fb there)⟩
      rcases List.mem_append.mp there with there | same
      · exact released other there
      · rw [List.mem_singleton.mp same]
        exact committed fb (by rw [first]; exact List.mem_cons_self)

theorem PortInv.event_stored (inv : PortInv served port) (waited : port.flush = .waited)
    (wanted : Bool) (fbs : List Nat) : PortInv served (storeEvent port wanted fbs) := by
  have own := inv.waited (by rw [waited]; rfl)
  have latched := inv.configured (by rw [waited]; rfl)
  unfold storeEvent
  split
  · refine ⟨⟨inv.sent, inv.released⟩, inv.scanned, fun _ => latched, nofun, fun _ => own,
      fun commit stored => ?_, inv.queued, inv.committed⟩
    obtain rfl := Option.some.inj stored
    exact own
  · exact ⟨⟨inv.sent, inv.released⟩, inv.scanned, fun _ => latched, nofun, fun _ => own, inv.event,
      inv.queued, inv.committed⟩

def timesOut : FlipLabel → Bool
  | .pollTimeout _ => true
  | _ => false

/-- The poll of the status does not time out. -/
def Answered (_ : FlipState) (label : FlipLabel) : Prop := timesOut label = false

instance (s : FlipState) (label : FlipLabel) : Decidable (Answered s label) :=
  inferInstanceAs (Decidable (timesOut label = false))

theorem PortInv.move (inv : PortInv served port) (answered : Answered s label)
    (move : PortMove label vp served served' port port') : PortInv served' port' := by
  cases move with
  | stay still => exact inv.still still
  | step still taken => exact (inv.step taken).still still
  | event still _ waited => exact (inv.event_stored waited _ _).still still
  | timeout _ late =>
      rw [late] at answered
      cases answered
  | read quiet now =>
      exact ⟨⟨inv.sent, inv.released⟩, inv.scanned, inv.configured, nofun,
        fun waited => (inv.waited waited).read now,
        fun commit there => (inv.event commit there).read now,
        fun fb there => (inv.queued fb there).read now, inv.committed⟩

/-- The invariant of all ports. -/
structure FlipInv (s : FlipState) : Prop where
  handler : HandlerInv s
  ports : ∀ vp, PortInv (Served s vp) (s.port vp)

/-- In a run whose polls are answered no flip is announced and no framebuffer is released before the
hardware displays the commit that asked for it, or a later one. -/
theorem flips_never_early (nrVps : Nat) (labels : List FlipLabel)
    (answered : Along flipStep Answered (flipStart nrVps) labels) :
    Always flipStep (fun s => ∀ vp, NotEarly (s.port vp)) (flipStart nrVps) labels :=
  always_of_along FlipInv (fun _ inv vp => (inv.ports vp).toNotEarly)
    (fun _ _ _ inv answers taken =>
      have moves := moves_of_flipStep inv.handler taken
      ⟨moves.1, fun vp => (inv.ports vp).move answers (moves.2 vp)⟩)
    ⟨nofun, fun _ => portInv_emptyPort⟩ answered

/-- A frame starts between the registers and the config done bit, so that its vblank announces
nothing; the next one does. -/
def lateFlip : List FlipLabel :=
  [.write 0, .frameStart 0 true, .cfgDone 0, .irq, .poll 0, .serve false, .serve false,
    .synchronize 0, .event 0 true [4], .replace 0, .replace 0, .replace 0, .frameStart 0 true, .irq,
    .serve false, .serve false, .fbUnrefWork 0]

example : (runs flipStep (flipStart 1) lateFlip).map (fun s => (s.port 0).sent) = some [1] := by
  decide

theorem flips_never_early_lateFlip :
    Along flipStep Answered (flipStart 1) lateFlip ∧
      Always flipStep (fun s => ∀ vp, NotEarly (s.port vp)) (flipStart 1) lateFlip :=
  have answered : Along flipStep Answered (flipStart 1) lateFlip := by decide
  ⟨answered, flips_never_early 1 lateFlip answered⟩

end FlipEvents
end Vop
end RockchipSoc
