import RockchipSoc.Foundation.LabelledRun
import Mathlib.Logic.Function.Basic

/-!
# Page flips of the video ports

`vop2_crtc_atomic_flush` writes the registers of a commit, sets the config done bit, waits for the
interrupt handler, and only then stores the event of the commit and queues the framebuffers that it
replaces.  The hardware takes over the registers at a frame start if the bit is set.  The handler
reads and clears the frame start status of all ports, and then serves one port after the other.
-/

namespace RockchipSoc
namespace Vop
namespace FlipEvents

open LabelledRun

/-- Where `vop2_crtc_atomic_flush` is for a port, with the framebuffers that are still to be
queued; `marking` stands before `set_bit`. -/
inductive FlushAt
  | idle
  | written
  | configured
  | polled
  | waited
  | replacing (fbs : List Nat)
  | marking (fbs : List Nat)
deriving DecidableEq

/-- A video port.  Commits are numbered; `written` is the last one whose registers were written,
`scanned` the one that is displayed.  Framebuffers stand beside the commit that replaces them.  The
last four fields record what was asked for and done. -/
structure Port where
  written : Nat
  scanned : Nat
  cfgDone : Bool
  fsStatus : Bool
  flush : FlushAt
  event : Option Nat
  pendingFbUnref : Bool
  fbUnrefQueued : List (Nat × Nat)
  fbUnrefCommitted : List (Nat × Nat)
  vblankRefs : Int
  asked : List Nat
  sent : List Nat
  replaced : List (Nat × Nat)
  released : List (Nat × Nat)

/-- Where `vop2_isr` is in its loop over the ports: before `vop2_handle_vblank` looks for an event,
or before it looks for framebuffers. -/
inductive HandlerAt
  | idle
  | vblank (vp : Nat) (rest : List Nat)
  | fbUnref (vp : Nat) (rest : List Nat)

structure FlipState where
  nrVps : Nat
  handler : HandlerAt
  vpIrqs : Nat → Bool
  port : Nat → Port

/-- A flush goes on, up to the poll of `vop2_wait_for_irq_handler` that may time out; a frame
starts, with its interrupt enabled or not; the handler begins, or goes on and may skip a vblank; a
replaced framebuffer is released. -/
inductive FlipLabel
  | write (vp : Nat)
  | cfgDone (vp : Nat)
  | poll (vp : Nat)
  | pollTimeout (vp : Nat)
  | synchronize (vp : Nat)
  | event (vp : Nat) (wanted : Bool) (fbs : List Nat)
  | replace (vp : Nat)
  | frameStart (vp : Nat) (enabled : Bool)
  | irq
  | serve (skip : Bool)
  | fbUnrefWork (vp : Nat)

/-! ## The commit -/

/-- The next commit writes its registers. -/
def writeRegs (port : Port) : Port := { port with written := port.written + 1, flush := .written }

/-- `vop2_cfg_done` with the write mask of the RK3588. -/
def vop2CfgDone (port : Port) : Port := { port with cfgDone := true, flush := .configured }

/-- The event of the commit, if there is one, takes a vblank reference. -/
def storeEvent (port : Port) (wanted : Bool) (fbs : List Nat) : Port :=
  if wanted then
    { port with
      event := some port.written
      vblankRefs := port.vblankRefs + 1
      asked := port.asked ++ [port.written]
      flush := .replacing fbs }
  else { port with flush := .replacing fbs }

/-- A framebuffer that the commit replaces takes a vblank reference and is queued. -/
def queueUnref (port : Port) (fb : Nat) (fbs : List Nat) : Port :=
  { port with
    fbUnrefQueued := port.fbUnrefQueued ++ [(fb, port.written)]
    vblankRefs := port.vblankRefs + 1
    replaced := port.replaced ++ [(fb, port.written)]
    flush := .marking fbs }

/-- The end of `vop2_crtc_atomic_flush`: framebuffers are queued and `VOP_PENDING_FB_UNREF` set. -/
def replaceStep (port : Port) : Option Port :=
  match port.flush with
  | .replacing [] => some { port with flush := .idle }
  | .replacing (fb :: fbs) => some (queueUnref port fb fbs)
  | .marking fbs => some { port with pendingFbUnref := true, flush := .replacing fbs }
  | _ => none

/-! ## The hardware and the handler -/

/-- At a frame start the hardware takes over what is marked done. -/
def frameStart (port : Port) (enabled : Bool) : Port :=
  { port with
    scanned := if port.cfgDone then port.written else port.scanned
    cfgDone := false
    fsStatus := port.fsStatus || enabled }

/-- The first half of `vop2_handle_vblank`. -/
def sendEvent (port : Port) : Port :=
  match port.event with
  | none => port
  | some commit =>
      { port with
        event := none
        vblankRefs := port.vblankRefs - 1
        sent := port.sent ++ [commit] }

/-- The second half of `vop2_handle_vblank`. -/
def commitUnref (port : Port) : Port :=
  if port.pendingFbUnref then
    { port with
      pendingFbUnref := false
      fbUnrefCommitted := port.fbUnrefCommitted ++ port.fbUnrefQueued
      fbUnrefQueued := [] }
  else port

/-- `vop2_fb_unref_worker`. -/
def vop2FbUnrefWorker (port : Port) (fb : Nat × Nat) (rest : List (Nat × Nat)) : Port :=
  { port with
    fbUnrefCommitted := rest
    vblankRefs := port.vblankRefs - 1
    released := port.released ++ [fb] }

/-- The loop of `vop2_isr` over the ports that are left. -/
def serveFrom : List Nat → HandlerAt
  | [] => .idle
  | vp :: rest => .vblank vp rest

def updatePort (s : FlipState) (vp : Nat) (port : Port) : FlipState :=
  { s with port := Function.update s.port vp port }

/-- `vop2_isr` reads and clears the status of each port. -/
def readIrqs (s : FlipState) : FlipState :=
  { s with
    vpIrqs := fun vp => vp < s.nrVps && (s.port vp).fsStatus
    port := fun vp => if vp < s.nrVps then { s.port vp with fsStatus := false } else s.port vp
    handler := serveFrom (List.range s.nrVps) }

def serveStep (s : FlipState) (skip : Bool) : Option FlipState :=
  match s.handler with
  | .idle => none
  | .vblank vp rest =>
      if s.vpIrqs vp && !skip then
        some { updatePort s vp (sendEvent (s.port vp)) with handler := .fbUnref vp rest }
      else some { s with handler := serveFrom rest }
  | .fbUnref vp rest =>
      some { updatePort s vp (commitUnref (s.port vp)) with handler := serveFrom rest }

def flipStep (s : FlipState) : FlipLabel → Option FlipState
  | .write vp =>
      if (s.port vp).flush = .idle then some (updatePort s vp (writeRegs (s.port vp))) else none
  | .cfgDone vp =>
      if (s.port vp).flush = .written then some (updatePort s vp (vop2CfgDone (s.port vp)))
      else none
  | .poll vp =>
      if (s.port vp).flush = .configured ∧ (s.port vp).fsStatus = false then
        some (updatePort s vp { s.port vp with flush := .polled })
      else none
  | .pollTimeout vp =>
      if (s.port vp).flush = .configured then
        some (updatePort s vp { s.port vp with flush := .polled })
      else none
  | .synchronize vp =>
      match s.handler with
      | .idle =>
          if (s.port vp).flush = .polled then
            some (updatePort s vp { s.port vp with flush := .waited })
          else none
      | _ => none
  | .event vp wanted fbs =>
      if (s.port vp).flush = .waited then
        some (updatePort s vp (storeEvent (s.port vp) wanted fbs))
      else none
  | .replace vp => (replaceStep (s.port vp)).map (updatePort s vp)
  | .frameStart vp enabled => some (updatePort s vp (frameStart (s.port vp) enabled))
  | .irq =>
      match s.handler with
      | .idle => some (readIrqs s)
      | _ => none
  | .serve skip => serveStep s skip
  | .fbUnrefWork vp =>
      match (s.port vp).fbUnrefCommitted with
      | [] => none
      | fb :: rest => some (updatePort s vp (vop2FbUnrefWorker (s.port vp) fb rest))

def emptyPort : Port :=
  ⟨0, 0, false, false, .idle, none, false, [], [], 0, [], [], [], []⟩

def flipStart (nrVps : Nat) : FlipState :=
  ⟨nrVps, .idle, fun _ => false, fun _ => emptyPort⟩

/-! ## What is done to a port -/

/-- The ports that the handler has still to serve. -/
def remaining : HandlerAt → List Nat
  | .idle => []
  | .vblank vp rest => vp :: rest
  | .fbUnref vp rest => vp :: rest

/-- The handler has read a frame start of the port and has still to serve it. -/
def Served (s : FlipState) (vp : Nat) : Prop := s.vpIrqs vp = true ∧ vp ∈ remaining s.handler

/-- A step on one port; `served` says that the handler is at work for it. -/
inductive PortStep (served : Prop) (port : Port) : Port → Prop
  | write (ready : port.flush = .idle) : PortStep served port (writeRegs port)
  | cfgDone (written : port.flush = .written) : PortStep served port (vop2CfgDone port)
  | poll (configured : port.flush = .configured) (answered : port.fsStatus = false) :
      PortStep served port { port with flush := .polled }
  | synchronize (polled : port.flush = .polled) (quiet : ¬served) :
      PortStep served port { port with flush := .waited }
  | finish (replaced : port.flush = .replacing []) :
      PortStep served port { port with flush := .idle }
  | queue {fb : Nat} {fbs : List Nat} (replacing : port.flush = .replacing (fb :: fbs)) :
      PortStep served port (queueUnref port fb fbs)
  | mark {fbs : List Nat} (queued : port.flush = .marking fbs) :
      PortStep served port { port with pendingFbUnref := true, flush := .replacing fbs }
  | frameStart (enabled : Bool) : PortStep served port (frameStart port enabled)
  | sendEvent (now : served) : PortStep served port (sendEvent port)
  | commitUnref (now : served) : PortStep served port (commitUnref port)
  | release {fb : Nat × Nat} {rest : List (Nat × Nat)}
      (committed : port.fbUnrefCommitted = fb :: rest) :
      PortStep served port (vop2FbUnrefWorker port fb rest)

/-- What a step of the system is for one port: the port may be left alone, take a step, be given the
event of its commit, give up the poll, or have its status read by the handler. -/
inductive PortMove (label : FlipLabel) (vp : Nat) (served served' : Prop) (port : Port) :
    Port → Prop
  | stay (still : served' → served) : PortMove label vp served served' port port
  | step {port' : Port} (still : served' → served) (taken : PortStep served port port') :
      PortMove label vp served served' port port'
  | event (still : served' → served) {wanted : Bool} {fbs : List Nat}
      (named : label = .event vp wanted fbs) (waited : port.flush = .waited) :
      PortMove label vp served served' port (storeEvent port wanted fbs)
  | timeout (still : served' → served) (late : label = .pollTimeout vp)
      (configured : port.flush = .configured) :
      PortMove label vp served served' port { port with flush := .polled }
  | read (quiet : ¬served) (now : served' → port.fsStatus = true) :
      PortMove label vp served served' port { port with fsStatus := false }

variable {s s' : FlipState} {label : FlipLabel} {vp other : Nat} {port port' : Port}
  {served served' : Prop}

theorem portMove_updatePort {handler : HandlerAt}
    (still : ∀ other, other ∈ remaining handler → other ∈ remaining s.handler)
    (moved : ∀ served', (served' → Served s vp) →
      PortMove label vp (Served s vp) served' (s.port vp) port) (other : Nat) :
    PortMove label other (Served s other)
      (Served { updatePort s vp port with handler := handler } other) (s.port other)
      (Function.update s.port vp port other) := by
  have kept : Served { updatePort s vp port with handler := handler } other → Served s other :=
    And.imp_right (still other)
  by_cases same : other = vp
  · subst same
    rw [Function.update_self]
    exact moved _ kept
  · rw [Function.update_of_ne same]
    exact .stay kept

theorem remaining_serveFrom (vps : List Nat) : remaining (serveFrom vps) = vps := by
  cases vps <;> rfl

/-- The handler stands before the framebuffers only of a port that has had a frame start. -/
def HandlerInv (s : FlipState) : Prop :=
  ∀ vp rest, s.handler = .fbUnref vp rest → s.vpIrqs vp = true

theorem moves_of_flipStep (handler : HandlerInv s) (taken : flipStep s label = some s') :
    HandlerInv s' ∧
      ∀ vp, PortMove label vp (Served s vp) (Served s' vp) (s.port vp) (s'.port vp) := by
  have same : ∀ other, other ∈ remaining s.handler → other ∈ remaining s.handler := fun _ => id
  cases label with
  | write vp =>
      simp only [flipStep] at taken
      split at taken
      · next ready =>
          obtain rfl := Option.some.inj taken
          exact ⟨handler, portMove_updatePort same fun _ still => .step still (.write ready)⟩
      · cases taken
  | cfgDone vp =>
      simp only [flipStep] at taken
      split at taken
      · next written =>
          obtain rfl := Option.some.inj taken
          exact ⟨handler, portMove_updatePort same fun _ still => .step still (.cfgDone written)⟩
      · cases taken
  | poll vp =>
      simp only [flipStep] at taken
      split at taken
      · next ready =>
          obtain rfl := Option.some.inj taken
          exact ⟨handler, portMove_updatePort same fun _ still =>
            .step still (.poll ready.1 ready.2)⟩
      · cases taken
  | pollTimeout vp =>
      simp only [flipStep] at taken
      split at taken
      · next configured =>
          obtain rfl := Option.some.inj taken
          exact ⟨handler, portMove_updatePort same fun _ still => .timeout still rfl configured⟩
      · cases taken
  | synchronize vp =>
      simp only [flipStep] at taken
      split at taken
      · next idle =>
          split at taken
          · next polled =>
              obtain rfl := Option.some.inj taken
              have quiet : ¬Served s vp := fun busy => by
                have there := busy.2
                rw [idle] at there
                exact List.not_mem_nil there
              exact ⟨handler, portMove_updatePort same fun _ still =>
                .step still (.synchronize polled quiet)⟩
          · cases taken
      · cases taken
  | event vp wanted fbs =>
      simp only [flipStep] at taken
      split at taken
      · next waited =>
          obtain rfl := Option.some.inj taken
          exact ⟨handler, portMove_updatePort same fun _ still => .event still rfl waited⟩
      · cases taken
  | replace vp =>
      obtain ⟨port, replaced, rfl⟩ := Option.map_eq_some_iff.mp taken
      refine ⟨handler, portMove_updatePort same fun _ still => .step still ?_⟩
      unfold replaceStep at replaced
      split at replaced
      · next done => exact Option.some.inj replaced ▸ .finish done
      · next replacing => exact Option.some.inj replaced ▸ .queue replacing
      · next queued => exact Option.some.inj replaced ▸ .mark queued
      · cases replaced
  | frameStart vp enabled =>
      obtain rfl := Option.some.inj taken
      exact ⟨handler, portMove_updatePort same fun _ still => .step still (.frameStart enabled)⟩
  | irq =>
      simp only [flipStep] at taken
      split at taken
      · next idle =>
          obtain rfl := Option.some.inj taken
          have begun : ∀ vps vp rest, serveFrom vps ≠ .fbUnref vp rest := fun vps _ _ => by
            cases vps <;> nofun
          refine ⟨fun vp rest at_unref => absurd at_unref (begun _ vp rest), fun vp => ?_⟩
          have quiet : ¬Served s vp := fun busy => by
            have there := busy.2
            rw [idle] at there
            exact List.not_mem_nil there
          have now : Served (readIrqs s) vp → vp < s.nrVps ∧ (s.port vp).fsStatus = true :=
            fun busy => by
              have read : (decide (vp < s.nrVps) && (s.port vp).fsStatus) = true := busy.1
              rw [Bool.and_eq_true, decide_eq_true_eq] at read
              exact read
          change PortMove .irq vp _ _ _
            (if vp < s.nrVps then { s.port vp with fsStatus := false } else s.port vp)
          split
          · exact .read quiet fun busy => (now busy).2
          · next beyond => exact .stay fun busy => absurd (now busy).1 beyond
      · cases taken
  | serve skip =>
      simp only [flipStep, serveStep] at taken
      split at taken
      · cases taken
      · next vp rest before =>
          have within : ∀ other, other ∈ rest → other ∈ remaining s.handler := fun other there => by
            rw [before]
            exact List.mem_cons_of_mem vp there
          split at taken
          · next due =>
              obtain rfl := Option.some.inj taken
              rw [Bool.and_eq_true] at due
              have busy : Served s vp := ⟨due.1, by rw [before]; exact List.mem_cons_self⟩
              have stays : ∀ other, other ∈ remaining (.fbUnref vp rest) →
                  other ∈ remaining s.handler := fun other there => by
                rw [before]
                exact there
              refine ⟨fun other rest' at_unref => ?_, portMove_updatePort stays fun _ still =>
                .step still (.sendEvent busy)⟩
              obtain ⟨rfl, -⟩ := HandlerAt.fbUnref.inj at_unref
              exact due.1
          · obtain rfl := Option.some.inj taken
            refine ⟨fun other rest' at_unref => ?_, fun other => .stay (And.imp_right ?_)⟩
            · cases rest <;> cases at_unref
            · change other ∈ remaining (serveFrom rest) → _
              rw [remaining_serveFrom]
              exact within other
      · next vp rest before =>
          obtain rfl := Option.some.inj taken
          have busy : Served s vp :=
            ⟨handler vp rest before, by rw [before]; exact List.mem_cons_self⟩
          have within : ∀ other, other ∈ remaining (serveFrom rest) →
              other ∈ remaining s.handler := fun other there => by
            rw [remaining_serveFrom] at there
            rw [before]
            exact List.mem_cons_of_mem vp there
          refine ⟨fun other rest' at_unref => ?_, portMove_updatePort within fun _ still =>
            .step still (.commitUnref busy)⟩
          cases rest <;> cases at_unref
  | fbUnrefWork vp =>
      simp only [flipStep] at taken
      split at taken
      · cases taken
      · next committed =>
          obtain rfl := Option.some.inj taken
          exact ⟨handler, portMove_updatePort same fun _ still => .step still (.release committed)⟩

end FlipEvents
end Vop
end RockchipSoc
