import RockchipSoc.Vop.FlipOrder

/-!
# Flips complete once

What a port has asked for is announced once and in order, each framebuffer that it replaces is
released once, and every vblank reference belongs to one of the two.  The flush only warns of an
event that is still stored, and then overwrites it.
-/

namespace RockchipSoc
namespace Vop
namespace FlipEvents

open LabelledRun

variable {s s' : FlipState} {label : FlipLabel} {vp : Nat} {port port' : Port}
  {served served' : Prop}

/-- What was asked for is done or stands with the port, and a queued framebuffer is seen by the next
vblank. -/
structure Books (port : Port) : Prop where
  asked : port.asked = port.sent ++ port.event.toList
  once : port.asked.Pairwise (· < ·)
  replaced : port.replaced = port.released ++ (port.fbUnrefCommitted ++ port.fbUnrefQueued)
  vblankRefs : port.vblankRefs =
    port.event.toList.length + port.fbUnrefCommitted.length + port.fbUnrefQueued.length
  pending : port.fbUnrefQueued ≠ [] →
    port.pendingFbUnref = true ∨ ∃ fbs, port.flush = .marking fbs

/-- The flush has written its registers and has still to store its event. -/
def isUnannounced : FlushAt → Bool
  | .written | .configured | .polled | .waited => true
  | _ => false

structure BooksInv (port : Port) : Prop extends Books port where
  numbered : ∀ commit ∈ port.asked, commit ≤ port.written
  fresh : isUnannounced port.flush = true → ∀ commit ∈ port.asked, commit < port.written

/-- No event is stored over another one. -/
def EventTaken (s : FlipState) : FlipLabel → Prop
  | .event vp true _ => (s.port vp).flush = .waited → (s.port vp).event = none
  | _ => True

theorem booksInv_emptyPort : BooksInv emptyPort where
  asked := rfl
  once := .nil
  replaced := rfl
  vblankRefs := rfl
  pending := fun queued => absurd rfl queued
  numbered := nofun
  fresh := nofun

theorem Books.pending_of_unmarked (books : Books port)
    (unmarked : ∀ fbs, port.flush ≠ .marking fbs) (queued : port.fbUnrefQueued ≠ []) :
    port.pendingFbUnref = true :=
  (books.pending queued).resolve_right fun marking => marking.elim unmarked

theorem BooksInv.step (inv : BooksInv port) (step : PortStep served port port') :
    BooksInv port' := by
  obtain ⟨⟨asked, once, replaced, refs, pending⟩, numbered, fresh⟩ := id inv
  have unmarked := inv.toBooks.pending_of_unmarked
  cases step with
  | write ready =>
      exact ⟨⟨asked, once, replaced, refs, fun queued =>
          Or.inl (unmarked (by rw [ready]; nofun) queued)⟩,
        fun commit there => Nat.le_succ_of_le (numbered commit there),
        fun _ commit there => Nat.lt_succ_of_le (numbered commit there)⟩
  | cfgDone written =>
      exact ⟨⟨asked, once, replaced, refs, fun queued =>
          Or.inl (unmarked (by rw [written]; nofun) queued)⟩,
        numbered, fun _ => fresh (by rw [written]; rfl)⟩
  | poll configured =>
      exact ⟨⟨asked, once, replaced, refs, fun queued =>
          Or.inl (unmarked (by rw [configured]; nofun) queued)⟩,
        numbered, fun _ => fresh (by rw [configured]; rfl)⟩
  | synchronize polled =>
      exact ⟨⟨asked, once, replaced, refs, fun queued =>
          Or.inl (unmarked (by rw [polled]; nofun) queued)⟩,
        numbered, fun _ => fresh (by rw [polled]; rfl)⟩
  | finish done =>
      exact ⟨⟨asked, once, replaced, refs, fun queued =>
          Or.inl (unmarked (by rw [done]; nofun) queued)⟩, numbered, nofun⟩
  | @queue fb fbs replacing =>
      refine ⟨⟨asked, once, ?_, ?_, fun _ => Or.inr ⟨fbs, rfl⟩⟩, numbered, nofun⟩
      · change port.replaced ++ _ = port.released ++ (port.fbUnrefCommitted ++ (_ ++ _))
        rw [replaced, List.append_assoc, List.append_assoc]
      · change port.vblankRefs + 1 = _ + ((port.fbUnrefQueued ++ [(fb, port.written)]).length : Int)
        rw [refs, List.length_append, Int.natCast_add, ← Int.add_assoc]
        rfl
  | mark => exact ⟨⟨asked, once, replaced, refs, fun _ => Or.inl rfl⟩, numbered, nofun⟩
  | frameStart => exact ⟨⟨asked, once, replaced, refs, pending⟩, numbered, fresh⟩
  | sendEvent =>
      unfold FlipEvents.sendEvent
      split
      · exact inv
      · next commit stored =>
          rw [stored] at asked refs
          refine ⟨⟨?_, once, replaced, ?_, pending⟩, numbered, fresh⟩
          · rw [asked, List.append_assoc]
            rfl
          · simp only [Option.toList_some, Option.toList_none, List.length_cons,
              List.length_nil] at refs ⊢
            omega
  | commitUnref =>
      unfold FlipEvents.commitUnref
      split
      · refine ⟨⟨asked, once, ?_, ?_, fun queued => absurd rfl queued⟩, numbered, fresh⟩
        · rw [replaced, List.append_nil]
        · change port.vblankRefs =
            (port.event.toList.length : Int) + ((_ ++ _ : List _).length : Int) + (0 : Nat)
          rw [refs, List.length_append]
          omega
      · exact inv
  | @release fb rest committed =>
      rw [committed] at replaced refs
      refine ⟨⟨asked, once, ?_, ?_, pending⟩, numbered, fresh⟩
      · exact replaced.trans
          (List.append_assoc port.released [fb] (rest ++ port.fbUnrefQueued)).symm
      · change port.vblankRefs - 1 =
          (port.event.toList.length : Int) + rest.length + port.fbUnrefQueued.length
        rw [refs, List.length_cons]
        omega

theorem BooksInv.event_stored (inv : BooksInv port) {wanted : Bool} (waited : port.flush = .waited)
    (taken : wanted = true → port.event = none) (fbs : List Nat) :
    BooksInv (storeEvent port wanted fbs) := by
  obtain ⟨⟨asked, once, replaced, refs, pending⟩, numbered, fresh⟩ := id inv
  have unmarked := inv.toBooks.pending_of_unmarked (by rw [waited]; nofun)
  have earlier := fresh (by rw [waited]; rfl)
  unfold storeEvent
  split
  · next wanted =>
      rw [taken wanted] at asked refs
      refine ⟨⟨?_, ?_, replaced, ?_, fun queued => Or.inl (unmarked queued)⟩, ?_, nofun⟩
      · rw [asked, Option.toList_none, List.append_nil]
        rfl
      · refine List.pairwise_append.mpr ⟨once, List.pairwise_singleton _ _, ?_⟩
        intro commit there own same
        rw [List.mem_singleton.mp same]
        exact earlier commit there
      · simp only [Option.toList_some, Option.toList_none, List.length_cons,
          List.length_nil] at refs ⊢
        omega
      · intro commit there
        rcases List.mem_append.mp there with there | same
        · exact numbered commit there
        · exact Nat.le_of_eq (List.mem_singleton.mp same)
  · exact ⟨⟨asked, once, replaced, refs, fun queued => Or.inl (unmarked queued)⟩, numbered, nofun⟩

theorem BooksInv.move (inv : BooksInv port) (taken : ∀ fbs, label = .event vp true fbs →
      port.flush = .waited → port.event = none)
    (move : PortMove label vp served served' port port') : BooksInv port' := by
  cases move with
  | stay => exact inv
  | step _ step => exact inv.step step
  | @event _ wanted fbs named waited =>
      exact inv.event_stored waited (fun wanted => taken fbs (wanted ▸ named) waited) fbs
  | timeout _ _ configured =>
      exact ⟨⟨inv.asked, inv.once, inv.replaced, inv.vblankRefs, fun queued =>
          Or.inl (inv.toBooks.pending_of_unmarked (by rw [configured]; nofun) queued)⟩,
        inv.numbered, fun _ => inv.fresh (by rw [configured]; rfl)⟩
  | read =>
      exact ⟨⟨inv.asked, inv.once, inv.replaced, inv.vblankRefs, inv.pending⟩, inv.numbered,
        inv.fresh⟩

/-- An event that is stored over another one is announced in its place. -/
theorem not_books_storeEvent (books : Books port) (event : port.event ≠ none) (fbs : List Nat) :
    ¬Books (storeEvent port true fbs) := by
  intro after
  have asked : port.asked ++ [port.written] = port.sent ++ [port.written] := after.asked
  have all : port.sent ++ port.event.toList = port.sent :=
    books.asked.symm.trans (List.append_cancel_right asked)
  exact event (Option.toList_eq_nil_iff.mp (List.append_right_eq_self.mp all))

/-- The books of all ports. -/
structure FlipBooks (s : FlipState) : Prop where
  handler : HandlerInv s
  ports : ∀ vp, BooksInv (s.port vp)

theorem flipBooks_flipStart (nrVps : Nat) : FlipBooks (flipStart nrVps) where
  handler := nofun
  ports := fun _ => booksInv_emptyPort

/-- Each flip is announced once and in order, each replaced framebuffer released once, and each
vblank reference given back, in exactly the runs in which no event is stored over another one. -/
theorem flips_announced_once (nrVps : Nat) (labels : List FlipLabel) :
    Always flipStep (fun s => ∀ vp, Books (s.port vp)) (flipStart nrVps) labels ↔
      Along flipStep EventTaken (flipStart nrVps) labels := by
  refine always_iff_along FlipBooks (fun _ inv vp => (inv.ports vp).toBooks) ?_ ?_
    (flipBooks_flipStart nrVps) labels (along_anyStep _ labels)
  · intro s label s' inv _ taken step
    have moves := moves_of_flipStep inv.handler step
    refine ⟨moves.1, fun vp => (inv.ports vp).move (fun fbs named => ?_) (moves.2 vp)⟩
    rw [named] at taken
    exact taken
  · intro s label inv _ refused
    unfold EventTaken at refused
    split at refused
    · next vp fbs _ =>
        obtain ⟨waited, stored⟩ := Classical.not_imp.mp refused
        refine ⟨updatePort s vp (storeEvent (s.port vp) true fbs), if_pos waited, fun books => ?_⟩
        have own := books vp
        change Books (Function.update s.port vp _ vp) at own
        rw [Function.update_self] at own
        exact not_books_storeEvent (inv.ports vp).toBooks stored fbs own
    · exact absurd trivial refused

end FlipEvents
end Vop
end RockchipSoc
