import RockchipSoc.Codec.HdiMpp
import RockchipSoc.Foundation.LabelledRun

/-!
# Components and their calls

The manager finds a component by its handle, the MPP context.  A component is created, called and
destroyed; a call that returns leaves the counters of its component and the log of what it
obtained and released.
-/

namespace RockchipSoc
namespace Codec

/-- `g_mppComponents`, the MPP contexts there are, and the number of the next object. -/
structure Session where
  components : ℕ → Option Component
  contexts : List ℕ
  objects : ℕ

/-! ### Creating a component -/

/-- Whether `strstr` finds a name in another. -/
def strstr (name part : String) : Bool := decide (part.toList <:+: name.toList)

def getMppCtxType (name : String) : Option MppCtxType :=
  if strstr name "decoder" then some .dec
  else if strstr name "encoder" then some .enc
  else none

/-- The names that `GetMppCodingType` looks for, in its order. -/
def codingNames : List String :=
  ["avc", "hevc", "mpeg4", "mpeg2", "vp8", "vp9", "flv1", "mjpeg"]

def getMppCodingType (name : String) : Option String := codingNames.find? (strstr name)

/-- `AddToMppComponentManager`, which refuses a handle that is there. -/
def addToMppComponentManager (session : Session) (handle : ℕ) (component : Component) :
    Option Session :=
  if (session.components handle).isSome then none
  else some { session with
    components := Function.update session.components handle (some component) }

/-- What is answered to a call of `CodecCreate`. -/
structure CreateAnswers where
  createMppComponent : Bool
  hdiMppCreate : Option ℕ
  setOutputTimeout : Bool
  hdiMppInit : Bool
  deriving DecidableEq, Repr

/-- `CodecCreate` from the MPP context on. -/
def createContext (session : Session) (ctxType : MppCtxType) (answers : CreateAnswers) :
    Session × HdfStatus :=
  match answers.hdiMppCreate with
  | none => (session, .failure)
  | some ctx =>
      let session := { session with contexts := ctx :: session.contexts }
      match addToMppComponentManager session ctx ⟨ctxType, none, none, 0, 0, 0⟩ with
      | none => (session, .failure)
      | some session =>
          if ctxType = .enc ∧ answers.setOutputTimeout = false then (session, .failure)
          else if answers.hdiMppInit = false then (session, .failure)
          else (session, .success)

def codecCreate (session : Session) (name : Option String) (handle : Bool)
    (answers : CreateAnswers) : Session × HdfStatus :=
  match name with
  | none => (session, .failure)
  | some name =>
      if handle = false then (session, .failure)
      else
        match getMppCtxType name with
        | none => (session, .errNotSupport)
        | some ctxType =>
            match getMppCodingType name with
            | none => (session, .errNotSupport)
            | some _ =>
                if answers.createMppComponent = false then (session, .failure)
                else createContext session ctxType answers

/-! ### Calls -/

/-- The calls, each with its arguments and what it is answered. -/
inductive SessionCall
  | create (name : Option String) (handle : Bool) (answers : CreateAnswers)
  | destroy (handle : ℕ) (destroyed : Bool)
  | decode (handle fuel : ℕ) (inputData : CodecBuffer) (outInfo : Option CodecBuffer)
      (answers : DecodeAnswers)
  | encode (handle fuel : ℕ) (inputData : Option CodecBuffer) (outInfo : CodecBuffer)
      (answers : EncodeAnswers)
  | encodeHeader (handle : ℕ) (outInfo : CodecBuffer) (answers : HeaderAnswers)

/-- What a call that returned leaves. -/
structure Returned where
  session : Session
  log : List Event
  status : HdfStatus

/-- Keep the counters of a call in its component. -/
def Session.store (session : Session) (handle : ℕ) (component : Component) (call : Call) :
    Session :=
  { session with
    components := Function.update session.components handle
      (some { component with frameCount := call.frameCount, frameErr := call.frameErr })
    objects := call.objects }

def Session.finish (session : Session) (handle : ℕ) (component : Component)
    (result : Call × Option HdfStatus) : Option Returned :=
  result.2.map fun status =>
    ⟨session.store handle component result.1, result.1.log, status⟩

def codecDestroy (session : Session) (handle : ℕ) (destroyed : Bool) (component : Component) :
    Returned where
  session := { session with
    components := Function.update session.components handle none
    contexts := if destroyed then session.contexts.erase handle else session.contexts }
  log := component.packet.toList.map .deinit ++ component.frame.toList.map .deinit
  status := if destroyed then .success else .failure

/-- A call, which has no result while it is under way.  Without a component it fails. -/
def sessionCall (session : Session) : SessionCall → Option Returned
  | .create name handle answers =>
      let result := codecCreate session name handle answers
      some ⟨result.1, [], result.2⟩
  | .destroy handle destroyed =>
      match session.components handle with
      | none => some ⟨session, [], .failure⟩
      | some component => some (codecDestroy session handle destroyed component)
  | .decode handle fuel inputData outInfo answers =>
      match session.components handle with
      | none => some ⟨session, [], .failure⟩
      | some component => session.finish handle component
          (codecDecode fuel session.objects component inputData outInfo answers)
  | .encode handle fuel inputData outInfo answers =>
      match session.components handle with
      | none => some ⟨session, [], .failure⟩
      | some component => session.finish handle component
          (codecEncode fuel session.objects component inputData outInfo answers)
  | .encodeHeader handle outInfo answers =>
      match session.components handle with
      | none => some ⟨session, [], .failure⟩
      | some component => session.finish handle component
          (codecEncodeHeader session.objects component outInfo answers)

/-- The sessions that follow each other. -/
def sessionStep (session : Session) (call : SessionCall) : Option Session :=
  (sessionCall session call).map Returned.session

/-! ### What is released -/

/-- The object that an event obtains. -/
def Event.obtains : Event → Option ℕ
  | .packetInit object => some object
  | .frameInit object => some object
  | .gotFrame object _ => some object
  | .gotPacket object _ => some object
  | _ => none

/-- Every object obtained is released exactly once through the variable that holds it. -/
def Released (log : List Event) : Prop :=
  ∀ event ∈ log, ∀ object, event.obtains = some object → log.count (.deinit object) = 1

/-- A call releases the packets and frames it obtains, and if it fails to create a component it
leaves no context and no entry. -/
structure Releases (before : Session) (call : SessionCall) (returned : Returned) : Prop where
  objects : Released returned.log
  created : ∀ name handle answers, call = .create name handle answers →
    returned.status ≠ .success → returned.session.contexts = before.contexts ∧
      returned.session.components = before.components

/-- The calls that release what they obtain: a component is created to its end once it has a
context; a packet is decoded only in vain; a frame that is made is filled; and a header that has a
packet is got. -/
def ReleasesWhen (session : Session) : SessionCall → Prop
  | .create name handle answers => ∀ word ctxType coding ctx, name = some word →
      handle = true → getMppCtxType word = some ctxType → getMppCodingType word = some coding →
      answers.createMppComponent = true → answers.hdiMppCreate = some ctx →
        session.components ctx = none ∧ (ctxType = .enc → answers.setOutputTimeout = true) ∧
          answers.hdiMppInit = true
  | .destroy _ _ => True
  | .decode handle _ _ _ answers =>
      session.components handle ≠ none → answers.packetInit = false
  | .encode handle _ inputData _ answers =>
      session.components handle ≠ none → ∀ input ∈ inputData, input.bufferCnt ≠ 0 →
        answers.frameInit = true → getEncodeFrameFromInput input answers = true
  | .encodeHeader handle _ answers =>
      session.components handle ≠ none → answers.packetInit = true → answers.control = true

end Codec
end RockchipSoc
