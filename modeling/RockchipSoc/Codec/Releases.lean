import RockchipSoc.Codec.OutputDelivery
import RockchipSoc.Codec.Sessions

/-!
# What calls release

Frames that are decoded and packets that are encoded are released before the next is obtained.
The packet that is decoded, a frame that could not be filled and a header that could not be got
are not released at all, and a component that was not created to its end keeps its context.
-/

namespace RockchipSoc
namespace Codec

open LabelledRun Polling

/-! ### Settled logs -/

/-- An event that neither obtains nor releases an object. -/
def Event.Idle (event : Event) : Prop :=
  event.obtains = none ∧ ∀ object, event ≠ .deinit object

/-- A log in which every object is released before the next is obtained, with the number of the
next. -/
inductive Settled : List Event → ℕ → Prop
  | nil (next : ℕ) : Settled [] next
  | idle {log : List Event} {event : Event} {next : ℕ} : Settled log next → event.Idle →
      Settled (log ++ [event]) next
  | passed {log events : List Event} {got : Event} {next : ℕ} : Settled log next →
      got.obtains = some next → (∀ event ∈ events, event.Idle) →
      Settled (log ++ got :: (events ++ [.deinit next])) (next + 1)

theorem ne_deinit_of_obtains {event : Event} {next object : ℕ}
    (obtained : event.obtains = some next) : event ≠ .deinit object := by
  rintro rfl
  cases obtained

theorem count_deinit_idle {events : List Event} (idle : ∀ event ∈ events, event.Idle)
    (object : ℕ) : events.count (.deinit object) = 0 :=
  List.count_eq_zero.mpr fun listed => (idle _ listed).2 object rfl

/-- The block of an object releases that one and no other. -/
theorem count_deinit_passed {log events : List Event} {got : Event} {next : ℕ}
    (obtained : got.obtains = some next) (idle : ∀ event ∈ events, event.Idle) (object : ℕ) :
    (log ++ got :: (events ++ [.deinit next])).count (.deinit object) =
      log.count (.deinit object) + if object = next then 1 else 0 := by
  rw [List.count_append, List.count_cons_of_ne (ne_deinit_of_obtains obtained),
    List.count_append, count_deinit_idle idle, Nat.zero_add]
  congr 1
  by_cases same : object = next
  · rw [if_pos same, same, List.count_singleton_self]
  · rw [if_neg same, List.count_eq_zero]
    simp [same]

/-- Nothing is released before it is obtained. -/
theorem Settled.count_eq_zero {log : List Event} {next object : ℕ} (settled : Settled log next)
    (le : next ≤ object) : log.count (.deinit object) = 0 := by
  induction settled with
  | nil => rfl
  | idle _ idle ih =>
      rw [List.count_append, ih le, Nat.zero_add, count_deinit_idle]
      intro event listed
      rw [List.mem_singleton.mp listed]
      exact idle
  | @passed log events got next _ obtained idle ih =>
      rw [count_deinit_passed obtained idle, ih (Nat.le_of_succ_le le),
        if_neg (Nat.ne_of_gt le)]

theorem Settled.obtains_lt {log : List Event} {next object : ℕ} {event : Event}
    (settled : Settled log next) (listed : event ∈ log) (obtained : event.obtains = some object) :
    object < next := by
  induction settled with
  | nil => cases listed
  | @idle log last next _ idle ih =>
      rcases List.mem_append.mp listed with earlier | last_eq
      · exact ih earlier
      · rw [List.mem_singleton.mp last_eq, idle.1] at obtained
        cases obtained
  | @passed log events got next _ got_obtains idle ih =>
      rcases List.mem_append.mp listed with earlier | block
      · exact Nat.lt_succ_of_lt (ih earlier)
      rcases List.mem_cons.mp block with rfl | rest
      · rw [Option.some.inj (obtained.symm.trans got_obtains)]
        exact Nat.lt_succ_self next
      rcases List.mem_append.mp rest with between | release
      · rw [(idle event between).1] at obtained
        cases obtained
      · rw [List.mem_singleton.mp release] at obtained
        cases obtained

/-- In a settled log everything is released once. -/
theorem Settled.released {log : List Event} {next : ℕ} (settled : Settled log next) :
    Released log := by
  induction settled with
  | nil =>
      intro event listed
      cases listed
  | @idle log last next _ idle ih =>
      intro event listed object obtained
      have others : [last].count (.deinit object) = 0 := by
        refine count_deinit_idle (fun event listed => ?_) object
        rw [List.mem_singleton.mp listed]
        exact idle
      rcases List.mem_append.mp listed with earlier | last_eq
      · rw [List.count_append, ih event earlier object obtained, others]
      · rw [List.mem_singleton.mp last_eq, idle.1] at obtained
        cases obtained
  | @passed log events got next settled got_obtains idle ih =>
      intro event listed object obtained
      rw [count_deinit_passed got_obtains idle]
      rcases List.mem_append.mp listed with earlier | block
      · rw [ih event earlier object obtained,
          if_neg (Nat.ne_of_lt (settled.obtains_lt earlier obtained))]
      -- of the block only its first event obtains an object
      have object_eq : object = next := by
        rcases List.mem_cons.mp block with rfl | rest
        · exact Option.some.inj (obtained.symm.trans got_obtains)
        rcases List.mem_append.mp rest with between | release
        · rw [(idle event between).1] at obtained
          cases obtained
        · rw [List.mem_singleton.mp release] at obtained
          cases obtained
      rw [object_eq, settled.count_eq_zero (Nat.le_refl next), if_pos rfl]

theorem idle_announcement (frameCount : ℤ) (delivered : CodecBuffer × Bool) :
    ∀ event ∈ announcement frameCount delivered, event.Idle := by
  obtain ⟨buffer, copied⟩ := delivered
  cases copied <;> simp [announcement, Event.Idle, Event.obtains]

/-! ### Decoding -/

theorem idle_delivery (call : Call) (frame : MppFrame) :
    ∀ event ∈ (delivery frame call.outInfo).elim [] (announcement (call.frameCount + 1)),
      event.Idle := by
  cases delivery frame call.outInfo with
  | none => exact fun _ listed => absurd listed List.not_mem_nil
  | some delivered => exact idle_announcement _ delivered

/-- Frames release themselves and nothing before them. -/
theorem count_deinit_takes {call : Call} {object : ℕ} (frames : List MppFrame)
    (earlier : object < call.objects) :
    (call.takes frames).log.count (.deinit object) = call.log.count (.deinit object) := by
  induction frames generalizing call with
  | nil => rfl
  | cons frame frames ih =>
      obtain ⟨log, _, objects⟩ := take_log call frame
      have next : object < (call.take (.ok (some frame))).objects := by
        rw [objects]
        exact Nat.lt_succ_of_lt earlier
      refine (ih next).trans ?_
      rw [log, frameEvents, count_deinit_passed rfl (idle_delivery call frame),
        if_neg (Nat.ne_of_lt earlier), Nat.add_zero]

theorem mem_takes {call : Call} {event : Event} (frames : List MppFrame)
    (listed : event ∈ call.log) : event ∈ (call.takes frames).log := by
  induction frames generalizing call with
  | nil => exact listed
  | cons frame frames ih =>
      apply ih
      rw [(take_log call frame).1]
      exact List.mem_append_left _ listed

/-- The packet of a call of `CodecDecode` is not released. -/
theorem decode_released_iff (fuel objects : ℕ) (component : Component) (inputData : CodecBuffer)
    (outInfo : Option CodecBuffer) (answers : DecodeAnswers) :
    Released (codecDecode fuel objects component inputData outInfo answers).1.log ↔
      answers.packetInit = false := by
  cases taken : answers.packetInit with
  | false =>
      rw [codecDecode_untaken taken]
      exact iff_of_true (Settled.nil objects).released rfl
  | true =>
      refine iff_of_false (fun released => ?_) (by simp)
      obtain ⟨frames, tail, last, log⟩ : ∃ frames tail, (tail = [] ∨ tail = [.inputAvailable]) ∧
          (codecDecode fuel objects component inputData outInfo answers).1.log =
            ((component.withPacket objects outInfo).takes frames).log ++ tail :=
        codecDecode_log taken
      have obtained : .packetInit objects ∈ (component.withPacket objects outInfo).log :=
        List.mem_singleton_self _
      have once := released (.packetInit objects)
        (by rw [log]; exact List.mem_append_left _ (mem_takes frames obtained)) objects rfl
      have tail_count : tail.count (.deinit objects) = 0 := by
        rcases last with rfl | rfl <;> rfl
      rw [log, List.count_append, tail_count,
        count_deinit_takes frames (Nat.lt_succ_self objects)] at once
      cases once

/-! ### Encoding -/

theorem handleEncodedPacket_idle (packet : MppPacket) (call : Call) :
    ∃ events : List Event, (∀ event ∈ events, event.Idle) ∧
      (handleEncodedPacket packet call).log = call.log ++ events ∧
      (handleEncodedPacket packet call).objects = call.objects := by
  rw [handleEncodedPacket]
  cases call.outInfo with
  | none =>
      exact ⟨[], fun _ listed => absurd listed List.not_mem_nil, (List.append_nil _).symm, rfl⟩
  | some outInfo => exact ⟨_, idle_announcement call.frameCount (_, _), rfl, rfl⟩

/-- A packet is released before the next one is fetched. -/
theorem Settled.body {state : PacketLoop} (settled : Settled state.call.log state.call.objects)
    (answer : GetPacket) :
    Settled (codecEncodeGetPacketBody state answer).1.call.log
      (codecEncodeGetPacketBody state answer).1.call.objects := by
  cases answer with
  | failed => exact settled.idle ⟨rfl, by simp⟩
  | ok packet =>
      cases packet with
      | none => exact settled
      | some packet =>
          obtain ⟨events, idle, log, objects⟩ := handleEncodedPacket_idle packet
            (state.call.receive fun object => .gotPacket object packet)
          simp only [codecEncodeGetPacketBody, Call.emit_log, Call.emit_objects, log, objects,
            Call.receive_log, Call.receive_objects, List.append_assoc, List.singleton_append]
          exact settled.passed rfl idle

theorem settled_loop (fuel : ℕ) {call : Call} (settled : Settled call.log call.objects)
    (getPacket : ℕ → GetPacket) :
    Settled (codecEncodeGetPacketLoop fuel call getPacket).1.call.log
      (codecEncodeGetPacketLoop fuel call getPacket).1.call.objects :=
  poll_invariant (fun state : PacketLoop => Settled state.call.log state.call.objects)
    (fun _ answer settled => settled.body answer) fuel settled

/-- A frame that could not be filled is not released. -/
theorem encode_released_iff (fuel objects : ℕ) (component : Component)
    (inputData : Option CodecBuffer) (outInfo : CodecBuffer) (answers : EncodeAnswers) :
    Released (codecEncode fuel objects component inputData outInfo answers).1.log ↔
      ∀ input ∈ inputData, input.bufferCnt ≠ 0 → answers.frameInit = true →
        getEncodeFrameFromInput input answers = true := by
  have withFrame : Settled (component.withFrame objects outInfo).log
      (component.withFrame objects outInfo).objects :=
    (Settled.nil objects).passed rfl fun _ listed => absurd listed List.not_mem_nil
  have goes := codecEncode_goes fuel objects component inputData outInfo answers
  generalize codecEncode fuel objects component inputData outInfo answers = result at goes ⊢
  cases goes with
  | refused unmade =>
      refine iff_of_true (Settled.nil objects).released fun input given buffer made => ?_
      exact absurd (made.symm.trans (unmade input given buffer)) (by simp)
  | @unfilled input buffer made failed =>
      refine iff_of_false (fun released => ?_) fun fills => ?_
      · have once := released (.frameInit objects) List.mem_cons_self objects rfl
        cases once
      · exact absurd (failed.symm.trans (fills input rfl buffer made)) (by simp)
  | unput filled =>
      refine iff_of_true withFrame.released ?_
      rintro _ ⟨⟩ _ _
      exact filled
  | fetches filled =>
      have settled := settled_loop fuel withFrame answers.getPacket
      refine iff_of_true ?_ ?_
      · split
        · exact (settled.idle ⟨rfl, by simp⟩).released
        · exact settled.released
      · rintro _ ⟨⟩ _ _
        exact filled

/-- A header that could not be got is not released. -/
theorem encodeHeader_released_iff (objects : ℕ) (component : Component) (outInfo : CodecBuffer)
    (answers : HeaderAnswers) :
    Released (codecEncodeHeader objects component outInfo answers).1.log ↔
      (answers.packetInit = true → answers.control = true) := by
  rw [codecEncodeHeader]
  cases answers.packetInit with
  | false =>
      refine iff_of_true ?_ fun made => by cases made
      cases answers.control with
      | false => exact (Settled.nil objects).released
      | true =>
          intro event listed object obtained
          rw [(idle_announcement component.frameCount (_, _) event listed).1] at obtained
          cases obtained
  | true =>
      cases answers.control with
      | false =>
          refine iff_of_false (fun released => ?_) fun got => absurd (got rfl) (by simp)
          have once := released (.packetInit objects) List.mem_cons_self objects rfl
          cases once
      | true =>
          exact iff_of_true (((Settled.nil objects).passed rfl
            (idle_announcement component.frameCount (_, _))).released) fun _ => rfl

/-! ### Components -/

/-- A call that fails leaves the contexts and the components as they were. -/
def FailsClean (before : Session) (result : Session × HdfStatus) : Prop :=
  result.2 ≠ .success →
    result.1.contexts = before.contexts ∧ result.1.components = before.components

/-- Once there is a context, a component is created without a trace only to its end. -/
theorem createContext_failsClean_iff {session : Session} {ctxType : MppCtxType}
    {answers : CreateAnswers} {ctx : ℕ} (created : answers.hdiMppCreate = some ctx) :
    FailsClean session (createContext session ctxType answers) ↔
      session.components ctx = none ∧ (ctxType = .enc → answers.setOutputTimeout = true) ∧
        answers.hdiMppInit = true := by
  have kept (session' : Session) (contexts : session'.contexts = ctx :: session.contexts) :
      ¬FailsClean session (session', .failure) := fun clean =>
    List.cons_ne_self ctx session.contexts (contexts.symm.trans (clean (by simp)).1)
  unfold createContext
  rw [created]
  simp only [addToMppComponentManager]
  cases there : session.components ctx with
  | some component =>
      simp only [Option.isSome_some, if_true]
      exact iff_of_false (kept _ rfl) fun created => by cases created.1
  | none =>
      simp only [Option.isSome_none, Bool.false_eq_true, if_false]
      by_cases timed : ctxType = .enc ∧ answers.setOutputTimeout = false
      · simp only [timed, and_self, if_true]
        exact iff_of_false (kept _ rfl) (by simp)
      simp only [timed, if_false]
      have in_time : ctxType = .enc → answers.setOutputTimeout = true := fun enc => by
        simpa [enc] using timed
      cases answers.hdiMppInit with
      | false => exact iff_of_false (kept _ rfl) (by simp)
      | true => exact iff_of_true (fun failed => absurd rfl failed) ⟨trivial, in_time, rfl⟩

theorem codecCreate_failsClean_iff (session : Session) (name : Option String) (handle : Bool)
    (answers : CreateAnswers) :
    FailsClean session (codecCreate session name handle answers) ↔
      ReleasesWhen session (.create name handle answers) := by
  have untouched (status : HdfStatus) : FailsClean session (session, status) :=
    fun _ => ⟨rfl, rfl⟩
  unfold codecCreate
  cases name with
  | none => exact iff_of_true (untouched _) fun _ _ _ _ named => by cases named
  | some name =>
      cases handle with
      | false => exact iff_of_true (untouched _) fun _ _ _ _ _ given => by cases given
      | true =>
          simp only [Bool.true_eq_false, if_false]
          cases type_eq : getMppCtxType name with
          | none =>
              refine iff_of_true (untouched _) ?_
              rintro _ _ _ _ ⟨⟩ _ typed
              rw [type_eq] at typed
              cases typed
          | some ctxType =>
              cases coding_eq : getMppCodingType name with
              | none =>
                  refine iff_of_true (untouched _) ?_
                  rintro _ _ _ _ ⟨⟩ _ _ coded
                  rw [coding_eq] at coded
                  cases coded
              | some coding =>
                  cases made : answers.createMppComponent with
                  | false =>
                      simp only [if_true]
                      refine iff_of_true (untouched _) ?_
                      rintro _ _ _ _ _ _ _ _ component
                      rw [made] at component
                      cases component
                  | true =>
                      simp only [Bool.true_eq_false, if_false]
                      cases created : answers.hdiMppCreate with
                      | none =>
                          refine iff_of_true ?_ ?_
                          · rw [createContext, created]
                            exact untouched _
                          · rintro _ _ _ _ _ _ _ _ _ context
                            rw [created] at context
                            cases context
                      | some ctx =>
                          rw [createContext_failsClean_iff created]
                          constructor
                          · rintro clean _ _ _ _ ⟨⟩ _ typed _ _ context
                            rw [type_eq] at typed
                            rw [created] at context
                            cases typed
                            cases context
                            exact clean
                          · intro clean
                            exact clean name ctxType coding ctx rfl rfl type_eq coding_eq made
                              created

theorem Session.finish_log {session : Session} {handle : ℕ} {component : Component}
    {result : Call × Option HdfStatus} {returned : Returned}
    (finished : session.finish handle component result = some returned) :
    returned.log = result.1.log := by
  obtain ⟨status, _, rfl⟩ := Option.map_eq_some_iff.mp finished
  rfl

theorem releases_iff_released {before : Session} {call : SessionCall} {returned : Returned}
    (other : ∀ name handle answers, call ≠ .create name handle answers) :
    Releases before call returned ↔ Released returned.log :=
  ⟨Releases.objects, fun released => ⟨released, fun name handle answers created =>
    absurd created (other name handle answers)⟩⟩

/-- A call on a component releases what it obtains exactly under a condition that only matters
where the component is there. -/
theorem releases_of_component {before : Session} {call : SessionCall} {returned : Returned}
    {handle : ℕ} {result : Component → Call × Option HdfStatus} {releases : Prop}
    (other : ∀ name handle answers, call ≠ .create name handle answers)
    (exact_when : ∀ component, Released (result component).1.log ↔ releases)
    (called : (match before.components handle with
      | none => some ⟨before, [], .failure⟩
      | some component => before.finish handle component (result component)) = some returned) :
    Releases before call returned ↔ (before.components handle ≠ none → releases) := by
  rw [releases_iff_released other]
  cases there : before.components handle with
  | none =>
      rw [there] at called
      obtain rfl := Option.some.inj called
      exact iff_of_true (Settled.nil 0).released fun present => absurd rfl present
  | some component =>
      rw [there] at called
      rw [Session.finish_log called, exact_when component]
      exact ⟨fun released _ => released, fun released => released (by simp)⟩

/-- What a call that returns releases. -/
theorem releases_iff {session : Session} {call : SessionCall} {returned : Returned}
    (called : sessionCall session call = some returned) :
    Releases session call returned ↔ ReleasesWhen session call := by
  cases call with
  | create name handle answers =>
      obtain rfl := Option.some.inj called
      rw [← codecCreate_failsClean_iff]
      constructor
      · exact fun releases => releases.created name handle answers rfl
      · intro clean
        refine ⟨(Settled.nil 0).released, ?_⟩
        rintro _ _ _ ⟨⟩
        exact clean
  | destroy handle destroyed =>
      rw [releases_iff_released fun _ _ _ => by simp]
      refine iff_of_true ?_ trivial
      simp only [sessionCall] at called
      cases there : session.components handle with
      | none =>
          rw [there] at called
          obtain rfl := Option.some.inj called
          exact (Settled.nil 0).released
      | some component =>
          rw [there] at called
          obtain rfl := Option.some.inj called
          intro event listed object obtained
          rcases List.mem_append.mp listed with packet | frame
          · obtain ⟨_, _, rfl⟩ := List.mem_map.mp packet
            cases obtained
          · obtain ⟨_, _, rfl⟩ := List.mem_map.mp frame
            cases obtained
  | decode handle fuel inputData outInfo answers =>
      exact releases_of_component (fun _ _ _ => by simp) (fun component =>
        decode_released_iff fuel session.objects component inputData outInfo answers) called
  | encode handle fuel inputData outInfo answers =>
      exact releases_of_component (fun _ _ _ => by simp) (fun component =>
        encode_released_iff fuel session.objects component inputData outInfo answers) called
  | encodeHeader handle outInfo answers =>
      exact releases_of_component (fun _ _ _ => by simp) (fun component =>
        encodeHeader_released_iff session.objects component outInfo answers) called

/-- In a sequence of calls that return, every packet and frame is released exactly once in its
call, and nothing is left of a component that was not created, exactly when every call is one of
those that release what they obtain. -/
theorem released_iff {start final : Session} {calls : List SessionCall}
    (execution : runs sessionStep start calls = some final) :
    Along sessionStep (fun session call => ∀ returned, sessionCall session call = some returned →
        Releases session call returned) start calls ↔
      Along sessionStep ReleasesWhen start calls := by
  refine Along.congr_of_runs (fun session call next taken => ?_) execution
  obtain ⟨returned, called, _⟩ := Option.map_eq_some_iff.mp taken
  constructor
  · exact fun releases => (releases_iff called).mp (releases returned called)
  · rintro condition returned' called'
    exact (releases_iff called').mpr condition

/-! ### Sequences of calls -/

def emptySession : Session := ⟨fun _ => none, [], 0⟩

/-- A component is created with the context 1, encodes one frame and a header, and is destroyed. -/
def encoderCalls : List SessionCall :=
  [.create (some "video_encoder_avc") true ⟨true, some 1, true, true⟩,
    .encode 1 1 (some (codecBuffer true)) (codecBuffer false)
      ⟨true, true, true, fun _ => .ok (some ⟨1, 64, 1, false, 0⟩)⟩,
    .encodeHeader 1 (codecBuffer false) ⟨true, true, 1, 16⟩,
    .destroy 1 true]

theorem released_iff_encoderCalls :
    ∃ final, runs sessionStep emptySession encoderCalls = some final ∧
      Along sessionStep (fun session call => ∀ returned,
        sessionCall session call = some returned → Releases session call returned)
        emptySession encoderCalls := by
  refine ⟨_, rfl, (released_iff rfl).mpr ⟨?_, fun _ _ => ⟨?_, fun _ _ => ⟨?_, fun _ _ =>
    ⟨trivial, fun _ _ => trivial⟩⟩⟩⟩⟩
  · intro _ _ _ _ _ _ _ _ _ _
    exact ⟨rfl, fun _ => rfl, rfl⟩
  · rintro _ _ ⟨⟩ _ _
    rfl
  · exact fun _ _ => rfl

/-- A component is created with the context 1 and decodes one buffer. -/
def decoderCalls : List SessionCall :=
  [.create (some "video_decoder_avc") true ⟨true, some 1, true, true⟩,
    .decode 1 2 (codecBuffer true) (some (codecBuffer false))
      ⟨true, fun _ => ⟨true, fun _ _ => .ok (some (goodFrame true))⟩⟩]

/-- A buffer is decoded with success, and its packet is never released; and a component whose
initialisation fails keeps its context. -/
theorem packet_never_released :
    (∃ final, runs sessionStep emptySession decoderCalls = some final) ∧
      ¬Along sessionStep (fun session call => ∀ returned,
        sessionCall session call = some returned → Releases session call returned)
        emptySession decoderCalls ∧
      ¬FailsClean emptySession (codecCreate emptySession (some "video_decoder_avc") true
        ⟨true, some 1, true, false⟩) := by
  refine ⟨⟨_, rfl⟩, fun along => ?_, fun clean => ?_⟩
  · obtain ⟨returned, called⟩ : ∃ returned, sessionCall
        (codecCreate emptySession (some "video_decoder_avc") true ⟨true, some 1, true, true⟩).1
        (.decode 1 2 (codecBuffer true) (some (codecBuffer false))
          ⟨true, fun _ => ⟨true, fun _ _ => .ok (some (goodFrame true))⟩⟩) = some returned :=
      ⟨_, rfl⟩
    have condition := (releases_iff called).mp ((along.2 _ rfl).1 returned called)
    exact absurd (condition (by rintro ⟨⟩)) (by decide)
  · exact absurd (clean (by decide)).1 (by decide)

end Codec
end RockchipSoc
