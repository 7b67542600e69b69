import Mathlib.Data.BitVec
import Mathlib.Logic.Function.Basic

/-!
# Hot-plug events of a connector

`DrmConnector::HandleHotplug` assigns a display controller to the encoder of a connector and commits
the change to the kernel.  It is declared to return `bool`, and several of its exits return an error
code instead.
-/

namespace RockchipSoc
namespace Drm

/-- The error codes of the display interface, of which success is zero. -/
structure DispErrCode where
  failure : ℤ
  nullPtr : ℤ
  failure_ne_zero : failure ≠ 0
  nullPtr_ne_zero : nullPtr ≠ 0

/-- An integer where `bool` is returned. -/
def toBool (code : ℤ) : Bool := decide (code ≠ 0)

structure DrmModeInfo where
  hdisplay : Nat
  vdisplay : Nat
  vrefresh : Nat
  preferred : Bool

/-- What `drmModeGetConnector` reports. -/
structure DrmModeConnector where
  connection : Nat
  encoders : List Nat
  modes : List DrmModeInfo

structure DrmEncoder where
  mCrtcId : Nat
  mPossibleCrtcs : BitVec 32

structure DrmCrtc where
  mId : Nat
  mPipe : Nat
  mActivePropId : Nat
  mModePropId : Nat

structure DrmConnector where
  mId : Nat
  mEncoderId : Nat
  mConnectState : Nat
  mPropCrtcId : Nat
  mModes : List DrmModeInfo := []
  mPreferenceId : Option Nat := none

/-- The connector with the encoders of its device. -/
structure HotplugState where
  connector : DrmConnector
  encoders : Nat → Option DrmEncoder
  /-- What the vsync worker was told last. -/
  vsync : Bool := false

/-- The value that a property of an object is to have. -/
structure AtomicProperty where
  object : Nat
  property : Nat
  value : Nat
  deriving DecidableEq, Repr

/-- What the calls of the DRM library return. -/
structure DrmCalls where
  atomicAlloc : Bool
  getConnector : Option DrmModeConnector
  blobId : Nat
  addActive : BitVec 32
  addModeId : BitVec 32
  addCrtcId : BitVec 32
  commit : BitVec 32

structure HotplugOutcome where
  returned : Bool
  /-- The request that the kernel has accepted. -/
  committed : Option (List AtomicProperty)
  state : HotplugState

/-- The loop over the crtcs: the last one that is the only possible one of the encoder. -/
def pickCrtc (possibleCrtcs : BitVec 32) (crtcs : List DrmCrtc) : Option DrmCrtc :=
  crtcs.foldl (fun crtc posCrts =>
    if possibleCrtcs = (1 : BitVec 32) <<< posCrts.mPipe then some posCrts else crtc) none

def setCrtcId (s : HotplugState) (encoderId crtcId : Nat) : HotplugState :=
  let encoder := (s.encoders encoderId).map fun encoder => { encoder with mCrtcId := crtcId }
  { s with encoders := Function.update s.encoders encoderId encoder }

def setEncoderId (s : HotplugState) (id : Nat) : HotplugState :=
  { s with connector := { s.connector with mEncoderId := id } }

/-- `UpdateCrtcId` answers with the crtc, `crtc_id` and the state. -/
def updateCrtcId (s : HotplugState) (crtcs : List DrmCrtc) (plugIn : Bool) (encoderid : Nat) :
    Option DrmCrtc × Nat × HotplugState :=
  match s.encoders encoderid with
  | none => (none, 0, s)
  | some encoder =>
      let crtc := pickCrtc encoder.mPossibleCrtcs crtcs
      let crtc_id := (crtc.map DrmCrtc.mId).getD 0
      if plugIn then (crtc, crtc_id, setEncoderId (setCrtcId s encoderid crtc_id) encoderid)
      else (crtc, 0, setCrtcId (setEncoderId s 0) encoderid 0)

/-- `InitModes`. -/
def initModes (connector : DrmConnector) (c : DrmModeConnector) : DrmConnector :=
  { connector with
    mModes := c.modes
    mPreferenceId := c.modes.findIdx? DrmModeInfo.preferred }

/-- The properties of the request, in the order in which they are added. -/
def atomicRequest (s : HotplugState) (crtc : DrmCrtc) (plugIn : Bool) (blobId crtc_id : Nat) :
    List AtomicProperty :=
  [⟨crtc.mId, crtc.mActivePropId, plugIn.toNat⟩, ⟨crtc.mId, crtc.mModePropId, blobId⟩,
    ⟨s.connector.mId, s.connector.mPropCrtcId, crtc_id⟩]

/-- The part of `HandleHotplug` behind `UpdateCrtcId`. -/
def commitHotplug (codes : DispErrCode) (calls : DrmCalls) (c : DrmModeConnector) (plugIn : Bool) :
    Option DrmCrtc × Nat × HotplugState → HotplugOutcome
  | (none, _, s) => ⟨toBool codes.failure, none, s⟩
  | (some crtc, crtc_id, s) =>
      let s := { s with vsync := plugIn }
      if (calls.addActive ||| calls.addModeId ||| calls.addCrtcId).slt 0 then
        ⟨toBool codes.failure, none, s⟩
      else if calls.commit.slt 0 then ⟨toBool codes.failure, none, s⟩
      else
        ⟨true, some (atomicRequest s crtc plugIn calls.blobId crtc_id),
          { s with connector := initModes { s.connector with mConnectState := c.connection } c }⟩

/-- `HandleHotplug`.  It does not return from reading the encoder of a connector without any. -/
def handleHotplug (codes : DispErrCode) (calls : DrmCalls) (s : HotplugState)
    (crtcs : List DrmCrtc) (plugIn : Bool) : Option HotplugOutcome :=
  if calls.atomicAlloc then
    match calls.getConnector with
    | none => some ⟨false, none, s⟩
    | some c =>
        if s.connector.mConnectState = c.connection then some ⟨false, none, s⟩
        else c.encoders.head?.map fun encoderid =>
          commitHotplug codes calls c plugIn (updateCrtcId s crtcs plugIn encoderid)
  else some ⟨toBool codes.nullPtr, none, s⟩

/-! ## Truthful results -/

/-- The encoder of the connector and the crtcs of all encoders are the same. -/
def SameAssignment (s s' : HotplugState) : Prop :=
  s'.connector.mEncoderId = s.connector.mEncoderId ∧
    ∀ id, (s'.encoders id).map DrmEncoder.mCrtcId = (s.encoders id).map DrmEncoder.mCrtcId

/-- Success is reported of a change that is committed and recorded, anything else leaves the
assignment as it was. -/
def ReportsTruthfully (calls : DrmCalls) (s : HotplugState) (outcome : HotplugOutcome) : Prop :=
  (outcome.returned = true → outcome.committed.isSome ∧
    ∃ c, calls.getConnector = some c ∧ outcome.state.connector.mConnectState = c.connection) ∧
  (outcome.returned ≠ true → SameAssignment s outcome.state)

/-- The calls accept the request. -/
def Accepts (calls : DrmCalls) : Prop :=
  0 ≤ calls.addActive.toInt ∧ 0 ≤ calls.addModeId.toInt ∧ 0 ≤ calls.addCrtcId.toInt ∧
    0 ≤ calls.commit.toInt

instance (calls : DrmCalls) : Decidable (Accepts calls) := inferInstanceAs (Decidable (_ ∧ _))

/-- The device has the encoder and a crtc that is the only possible one of it. -/
def CrtcFound (s : HotplugState) (crtcs : List DrmCrtc) (encoderid : Nat) : Prop :=
  ∃ encoder, s.encoders encoderid = some encoder ∧
    ∃ crtc ∈ crtcs, encoder.mPossibleCrtcs = (1 : BitVec 32) <<< crtc.mPipe

/-- A request can be allocated, and when the state of the connector has changed, its first encoder
has a crtc and the kernel accepts the request. -/
def CanSettle (calls : DrmCalls) (s : HotplugState) (crtcs : List DrmCrtc) : Prop :=
  calls.atomicAlloc = true ∧
    ∀ c, calls.getConnector = some c → s.connector.mConnectState ≠ c.connection →
      ∀ encoderid ∈ c.encoders.head?, CrtcFound s crtcs encoderid ∧ Accepts calls

variable {codes : DispErrCode} {calls : DrmCalls} {s : HotplugState} {crtcs : List DrmCrtc}
  {plugIn : Bool} {c : DrmModeConnector} {encoderid : Nat}

@[simp] theorem toBool_failure (codes : DispErrCode) : toBool codes.failure = true :=
  decide_eq_true codes.failure_ne_zero

@[simp] theorem toBool_nullPtr (codes : DispErrCode) : toBool codes.nullPtr = true :=
  decide_eq_true codes.nullPtr_ne_zero

theorem sameAssignment_refl (s : HotplugState) : SameAssignment s s := ⟨rfl, fun _ => rfl⟩

/-! ## The crtc -/

/-- The loop ends with a possible crtc, or with what it began with. -/
theorem foldl_pick_cases (possibleCrtcs : BitVec 32) (crtcs : List DrmCrtc)
    (start : Option DrmCrtc) :
    let found := crtcs.foldl (fun crtc posCrts =>
      if possibleCrtcs = (1 : BitVec 32) <<< posCrts.mPipe then some posCrts else crtc) start
    (∃ crtc ∈ crtcs, possibleCrtcs = (1 : BitVec 32) <<< crtc.mPipe ∧ found = some crtc) ∨
      (∀ crtc ∈ crtcs, possibleCrtcs ≠ (1 : BitVec 32) <<< crtc.mPipe) ∧ found = start := by
  induction crtcs generalizing start with
  | nil => exact Or.inr ⟨fun _ member => absurd member List.not_mem_nil, rfl⟩
  | cons first rest ih =>
      rcases ih (if possibleCrtcs = (1 : BitVec 32) <<< first.mPipe then some first else start) with
        ⟨crtc, member, only, found⟩ | ⟨others, found⟩
      · exact Or.inl ⟨crtc, List.mem_cons_of_mem first member, only, found⟩
      · by_cases only : possibleCrtcs = (1 : BitVec 32) <<< first.mPipe
        · exact Or.inl ⟨first, List.mem_cons_self, only, found.trans (if_pos only)⟩
        · refine Or.inr ⟨fun crtc member => ?_, found.trans (if_neg only)⟩
          rcases List.mem_cons.mp member with rfl | later
          · exact only
          · exact others crtc later

/-- A crtc is answered if and only if the encoder and a crtc for it are found. -/
theorem updateCrtcId_isSome_iff :
    (updateCrtcId s crtcs plugIn encoderid).1.isSome ↔ CrtcFound s crtcs encoderid := by
  cases known : s.encoders encoderid with
  | none => simp [updateCrtcId, CrtcFound, known]
  | some encoder =>
      have crtc : (updateCrtcId s crtcs plugIn encoderid).1 =
          pickCrtc encoder.mPossibleCrtcs crtcs := by
        simp only [updateCrtcId, known]
        split <;> rfl
      rw [crtc]
      rcases foldl_pick_cases encoder.mPossibleCrtcs crtcs none with
        ⟨crtc, member, only, found⟩ | ⟨others, found⟩
      · rw [pickCrtc, found]
        exact iff_of_true rfl ⟨encoder, known, crtc, member, only⟩
      · rw [pickCrtc, found]
        refine iff_of_false nofun fun ⟨other, same, crtc, member, only⟩ => ?_
        obtain rfl := Option.some.inj (known.symm.trans same)
        exact others crtc member only

/-! ## The commit -/

/-- A union of results is negative if one of them is. -/
theorem or_slt_zero_iff (a b c : BitVec 32) :
    (a ||| b ||| c).slt 0 = false ↔ 0 ≤ a.toInt ∧ 0 ≤ b.toInt ∧ 0 ≤ c.toInt := by
  have sign : ∀ x : BitVec 32, x.slt 0 = false ↔ 0 ≤ x.toInt := fun x => by
    rw [BitVec.slt_eq_decide, decide_eq_false_iff_not, not_lt]
    rfl
  have msb : ∀ x : BitVec 32, 0 ≤ x.toInt ↔ x.msb = false := fun x => by
    rw [BitVec.msb_eq_toInt, decide_eq_false_iff_not, not_lt]
  rw [sign, msb, msb, msb, msb, BitVec.msb_or, BitVec.msb_or]
  cases a.msb <;> cases b.msb <;> cases c.msb <;> simp

/-- The commit answers success if and only if the calls accept the request. -/
theorem accepts_iff : Accepts calls ↔
    (calls.addActive ||| calls.addModeId ||| calls.addCrtcId).slt 0 = false ∧
      calls.commit.slt 0 = false := by
  have commit : calls.commit.slt 0 = false ↔ 0 ≤ calls.commit.toInt := by
    have single := or_slt_zero_iff calls.commit calls.commit calls.commit
    simpa only [BitVec.or_self, and_self] using single
  rw [or_slt_zero_iff, commit, Accepts, and_assoc, and_assoc]

/-- Every exit reports success; only the last one has committed anything. -/
theorem reportsTruthfully_commitHotplug_iff (known : calls.getConnector = some c)
    (answer : Option DrmCrtc × Nat × HotplugState) (s : HotplugState) :
    ReportsTruthfully calls s (commitHotplug codes calls c plugIn answer) ↔
      answer.1.isSome ∧ Accepts calls := by
  obtain ⟨_ | crtc, crtc_id, next⟩ := answer
  · refine iff_of_false (fun truthful => ?_) fun ⟨found, _⟩ => nomatch found
    exact absurd (truthful.1 (toBool_failure codes)).1 nofun
  · simp only [Option.isSome_some, true_and, accepts_iff, commitHotplug]
    cases adds : (calls.addActive ||| calls.addModeId ||| calls.addCrtcId).slt 0 with
    | true =>
        simp only [if_true]
        refine iff_of_false (fun truthful => ?_) fun ⟨accepted, _⟩ => nomatch accepted
        exact absurd (truthful.1 (toBool_failure codes)).1 nofun
    | false =>
        simp only [Bool.false_eq_true, if_false, true_and]
        cases commit : calls.commit.slt 0 with
        | true =>
            simp only [if_true]
            refine iff_of_false (fun truthful => ?_) nofun
            exact absurd (truthful.1 (toBool_failure codes)).1 nofun
        | false =>
            simp only [Bool.false_eq_true, if_false, iff_true]
            exact ⟨fun _ => ⟨rfl, c, known, rfl⟩, fun refused => absurd rfl refused⟩

/-- A call that changes nothing and reports nothing is truthful. -/
theorem reportsTruthfully_unchanged (calls : DrmCalls) (s : HotplugState) :
    ReportsTruthfully calls s ⟨false, none, s⟩ :=
  ⟨nofun, fun _ => sameAssignment_refl s⟩

/-- The exits before the state of the connector is compared. -/
theorem handleHotplug_of_not_changed (alloc : calls.atomicAlloc = true)
    (same : ∀ c, calls.getConnector = some c → s.connector.mConnectState = c.connection) :
    handleHotplug codes calls s crtcs plugIn = some ⟨false, none, s⟩ := by
  rw [handleHotplug, if_pos alloc]
  cases known : calls.getConnector with
  | none => rfl
  | some c => exact if_pos (same c known)

theorem handleHotplug_of_changed (alloc : calls.atomicAlloc = true)
    (known : calls.getConnector = some c) (changed : s.connector.mConnectState ≠ c.connection) :
    handleHotplug codes calls s crtcs plugIn = c.encoders.head?.map fun encoderid =>
      commitHotplug codes calls c plugIn (updateCrtcId s crtcs plugIn encoderid) := by
  rw [handleHotplug, if_pos alloc, known]
  exact if_neg changed

/-- `HandleHotplug` reports truthfully if and only if a request can be allocated and, when the state
of the connector has changed, its first encoder has a crtc and the kernel accepts the request. -/
theorem handleHotplug_truthful_iff (codes : DispErrCode) (calls : DrmCalls) (s : HotplugState)
    (crtcs : List DrmCrtc) (plugIn : Bool) :
    (∀ outcome, handleHotplug codes calls s crtcs plugIn = some outcome →
      ReportsTruthfully calls s outcome) ↔ CanSettle calls s crtcs := by
  cases alloc : calls.atomicAlloc with
  | false =>
      refine iff_of_false (fun truthful => ?_) fun settles => ?_
      · have failed : handleHotplug codes calls s crtcs plugIn =
            some ⟨toBool codes.nullPtr, none, s⟩ := by rw [handleHotplug, alloc]; rfl
        exact absurd ((truthful _ failed).1 (toBool_nullPtr codes)).1 nofun
      · exact absurd (alloc.symm.trans settles.1) nofun
  | true =>
      rw [CanSettle, and_iff_right alloc]
      by_cases same : ∀ c, calls.getConnector = some c → s.connector.mConnectState = c.connection
      · rw [handleHotplug_of_not_changed alloc same]
        refine iff_of_true (fun outcome returned => ?_) fun c known changed => ?_
        · obtain rfl := Option.some.inj returned
          exact reportsTruthfully_unchanged calls s
        · exact absurd (same c known) changed
      · simp only [not_forall] at same
        obtain ⟨c, known, changed⟩ := same
        have commit : ∀ encoderid,
            ReportsTruthfully calls s
              (commitHotplug codes calls c plugIn (updateCrtcId s crtcs plugIn encoderid)) ↔
            CrtcFound s crtcs encoderid ∧ Accepts calls := fun encoderid => by
          rw [reportsTruthfully_commitHotplug_iff known, updateCrtcId_isSome_iff]
        rw [handleHotplug_of_changed alloc known changed]
        constructor
        · intro truthful c' known' _ encoderid first
          obtain rfl := Option.some.inj (known.symm.trans known')
          exact (commit encoderid).mp (truthful _ (Option.map_eq_some_iff.mpr ⟨_, first, rfl⟩))
        · intro settles outcome returned
          obtain ⟨encoderid, first, rfl⟩ := Option.map_eq_some_iff.mp returned
          exact (commit encoderid).mpr (settles c known changed encoderid first)

/-! ## Examples -/

/-- A connector without a crtc that loses its display. -/
def unpluggedCalls : DrmCalls where
  atomicAlloc := true
  getConnector := some ⟨2, [7], []⟩
  blobId := 0
  addActive := 0
  addModeId := 0
  addCrtcId := 0
  commit := 0

def orphanState : HotplugState where
  connector := { mId := 1, mEncoderId := 7, mConnectState := 1, mPropCrtcId := 20 }
  encoders := fun id => if id = 7 then some ⟨3, 2⟩ else none

/-- Error codes are negative. -/
def negativeCodes : DispErrCode := ⟨-1, -4, by decide, by decide⟩

/-- The only crtc belongs to another encoder: nothing is committed, the assignment is gone and the
call reports success. -/
theorem hotplug_reports_nothing_done :
    ∃ outcome, handleHotplug negativeCodes unpluggedCalls orphanState [⟨3, 0, 30, 31⟩] false =
        some outcome ∧
      outcome.returned = true ∧ outcome.committed = none ∧
      outcome.state.connector.mConnectState = 1 ∧ outcome.state.connector.mEncoderId = 0 ∧
      ¬ReportsTruthfully unpluggedCalls orphanState outcome := by
  refine ⟨_, rfl, rfl, rfl, rfl, rfl, fun truthful => ?_⟩
  exact absurd (truthful.1 rfl).1 nofun

end Drm
end RockchipSoc
