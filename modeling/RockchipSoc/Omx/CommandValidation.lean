import RockchipSoc.Omx.SendCommand

/-!
# Which commands are validated before they act

A command is validated exactly when it meets its condition.  The three commands that mark ports go
through one loop, so that what a failing command leaves behind is what the loop has changed before a
port refuses, or before the queue does.
-/

namespace RockchipSoc
namespace Omx

open GuardedWrites

variable {comp comp' : CommandComponent} {nParam : BitVec 32} {cmd : PortCommand} {env : QueueEnv}
  {refuses : CommandPort → Bool} {change : CommandPort → CommandPort} {indices : List ℤ}

theorem commandQueue_spec (comp : CommandComponent) (env : QueueEnv) :
    (commandQueue comp env).1.ports = comp.ports ∧
      (commandQueue comp env).1.nRkFlags = comp.nRkFlags ∧
      ((commandQueue comp env).2 = .errorNone ↔ Queues comp env) := by
  unfold commandQueue Queues
  split
  · rename_i memory
    refine ⟨rfl, rfl, iff_of_false (fun same => by cases same) fun queues => ?_⟩
    rw [queues.1] at memory
    cases memory
  · rename_i memory
    split
    · rename_i full
      exact ⟨rfl, rfl, iff_of_false (fun same => by cases same)
        fun queues => absurd queues.2.1 (Nat.not_lt.mpr full)⟩
    · rename_i room
      refine ⟨rfl, rfl, ?_⟩
      rw [and_iff_right (by simpa using memory), and_iff_right (Nat.not_le.mp room)]

/-- What a command that goes through the loop does, and when it succeeds. -/
theorem rockchipSendCommand_setPorts (env : QueueEnv) (valid : comp.currentState ≠ .invalid)
    (set : setCommand comp nParam cmd = setPorts comp' refuses change indices)
    (messages : comp'.messages = comp.messages) :
    (rockchipSendCommand comp nParam cmd env).indexed =
        (guardedWrites refuses change indices comp'.ports).touched ∧
      (rockchipSendCommand comp nParam cmd env).comp.ports =
        (guardedWrites refuses change indices comp'.ports).cells ∧
      (rockchipSendCommand comp nParam cmd env).comp.nRkFlags = comp'.nRkFlags ∧
      ((rockchipSendCommand comp nParam cmd env).ret = .errorNone ↔
        (guardedWrites refuses change indices comp'.ports).done = true ∧ Queues comp env) := by
  obtain ⟨ports, flags, ret⟩ := commandQueue_spec (setPorts comp' refuses change indices).comp env
  have queues : Queues (setPorts comp' refuses change indices).comp env ↔ Queues comp env := by
    unfold Queues
    rw [show (setPorts comp' refuses change indices).comp.messages = comp.messages from messages]
  rw [rockchipSendCommand, if_neg valid, set]
  by_cases done : (guardedWrites refuses change indices comp'.ports).done = true
  · have none : (setPorts comp' refuses change indices).ret = .errorNone := if_pos done
    simp only [none, ne_eq, not_true_eq_false, if_false]
    exact ⟨rfl, ports, flags, ret.trans (queues.trans (and_iff_right done).symm)⟩
  · have refused : (setPorts comp' refuses change indices).ret ≠ .errorNone := by
      rw [setPorts, if_neg done]
      exact fun same => by cases same
    rw [if_pos refused]
    exact ⟨rfl, rfl, rfl, iff_of_false refused fun success => done success.1⟩

/-- A loop over ports is validated when an accepted command can be handled, and a failing one finds
what it has written set before. -/
theorem validated_setPorts (valid : comp.currentState ≠ .invalid)
    (set : setCommand comp nParam cmd = setPorts comp' refuses change indices)
    (messages : comp'.messages = comp.messages) (ports : comp'.ports = comp.ports)
    (distinct : indices.Nodup) (within : ∀ i ∈ indices, InRange i) :
    Validated comp nParam cmd env ↔
      ((∀ i ∈ indices, refuses (comp.ports i) = false) ∧ Queues comp env →
          ∀ i ∈ handlerIndices nParam cmd, InRange i) ∧
        (¬((∀ i ∈ indices, refuses (comp.ports i) = false) ∧ Queues comp env) →
          comp'.nRkFlags = comp.nRkFlags ∧
            ∀ i ∈ changed refuses indices comp.ports,
              (change (comp.ports i)).settings = (comp.ports i).settings) := by
  obtain ⟨indexed, cells, flags, ret⟩ := rockchipSendCommand_setPorts env valid set messages
  rw [done_iff distinct] at ret
  rw [ports] at indexed cells ret
  constructor
  · intro validated
    refine ⟨fun success => validated.handled (ret.mpr success), fun fails => ?_⟩
    have error := mt ret.mp fails
    refine ⟨flags.symm.trans (validated.flags error),
      (kept_iff CommandPort.settings distinct within).mp ?_⟩
    rw [← cells]
    exact validated.ports error
  · rintro ⟨handled, fails⟩
    refine ⟨fun i member => ?_, fun success => handled (ret.mp success), fun error => ?_,
      fun error => ?_⟩
    · rw [indexed] at member
      exact within i (touched_subset member)
    · exact flags.trans (fails (mt ret.mpr error)).1
    · rw [cells]
      exact (kept_iff CommandPort.settings distinct within).mpr (fails (mt ret.mpr error)).2

/-- A loop that begins outside the ports. -/
theorem not_validated_outside {first : ℤ} {rest : List ℤ} (valid : comp.currentState ≠ .invalid)
    (set : setCommand comp nParam cmd = setPorts comp' refuses change (first :: rest))
    (messages : comp'.messages = comp.messages) (outside : ¬InRange first) :
    ¬Validated comp nParam cmd env := fun validated => by
  have indexed := (rockchipSendCommand_setPorts env valid set messages).1
  refine outside (validated.indexed first ?_)
  rw [indexed]
  exact head_touched first rest

/-- A command that is refused before it looks at a port. -/
theorem validated_refused {ret : OmxError} (valid : comp.currentState ≠ .invalid)
    (set : setCommand comp nParam cmd = ⟨comp', [], ret⟩) (error : ret ≠ .errorNone)
    (ports : comp'.ports = comp.ports) :
    Validated comp nParam cmd env ↔ comp'.nRkFlags = comp.nRkFlags := by
  have sent : rockchipSendCommand comp nParam cmd env = ⟨comp', [], ret⟩ := by
    rw [rockchipSendCommand, if_neg valid, set]
    exact if_pos error
  constructor
  · intro validated
    have flags := validated.flags
    rw [sent] at flags
    exact flags error
  · intro flags
    refine ⟨fun i member => ?_, fun success => ?_, fun _ => ?_, fun _ i _ => ?_⟩
    · rw [sent] at member
      cases member
    · rw [sent] at success
      exact absurd success error
    · rw [sent]
      exact flags
    · rw [sent]
      exact congrArg (fun ports => CommandPort.settings (ports i)) ports

/-! ### The number of a port -/

theorem badPortIndex_iff : badPortIndex nParam = true ↔ nPorts ≤ nParam.toInt := by
  rw [badPortIndex, Bool.and_eq_true, decide_eq_true_iff, decide_eq_true_iff]
  refine and_iff_right_of_imp fun large all => ?_
  unfold allPortIndex nPorts at *
  omega

theorem portIndices_nodup : (portIndices nParam).Nodup := by
  unfold portIndices
  split
  · decide
  · exact List.nodup_singleton _

theorem portIndices_inRange (least : allPortIndex ≤ nParam.toInt) (below : nParam.toInt < nPorts) :
    ∀ i ∈ portIndices nParam, InRange i := by
  intro i member
  unfold allPortIndex nPorts at *
  unfold portIndices allPortIndex at member
  unfold InRange nPorts
  split at member
  · obtain rfl | rfl := List.mem_pair.mp member
    · decide
    · decide
  · obtain rfl := List.mem_singleton.mp member
    omega

theorem portIndices_outside (negative : nParam.toInt < allPortIndex) :
    portIndices nParam = [nParam.toInt] ∧ ¬InRange nParam.toInt := by
  unfold allPortIndex at negative
  refine ⟨if_neg fun all => ?_, fun within => ?_⟩
  · unfold allPortIndex at all
    omega
  · unfold InRange at within
    omega

/-- A number that stands for ports has 16 bits. -/
theorem flushIndices_eq (least : allPortIndex ≤ nParam.toInt) (below : nParam.toInt < nPorts) :
    flushIndices nParam = portIndices nParam := by
  unfold flushIndices portIndices
  split
  · rfl
  · rename_i single
    unfold allPortIndex nPorts at *
    have value := BitVec.toInt_eq_toNat_cond nParam
    have width := nParam.isLt
    congr 1
    rw [BitVec.toNat_setWidth]
    split at value <;> omega

/-- The handlers of commands that mark ports go to the ports that the number stands for. -/
theorem handlerIndices_iff (marks : cmd ≠ .markBuffer) :
    (∀ i ∈ handlerIndices nParam cmd, InRange i) ↔ ∀ i ∈ portIndices nParam, InRange i := by
  cases cmd with
  | flush => exact Iff.rfl
  | portEnable => exact Iff.rfl
  | markBuffer => exact absurd rfl marks
  | portDisable =>
      have same : handlerIndices nParam .portDisable =
          (portIndices nParam).flatMap bufferFlushProcess ++ portIndices nParam := rfl
      have flushed : (portIndices nParam).flatMap bufferFlushProcess = portIndices nParam := by
        unfold portIndices
        split
        · rfl
        · rename_i single
          rw [List.flatMap_singleton, bufferFlushProcess, if_neg single]
      rw [same, flushed, List.forall_mem_append, and_self]

/-! ### The commands -/

/-- A command that refuses a number above the ports, and loops over those that it stands for. -/
theorem validated_ports_iff (valid : comp.currentState ≠ .invalid) (marks : cmd ≠ .markBuffer)
    (set : setCommand comp nParam cmd = if badPortIndex nParam then ⟨comp, [], .badPortIndex⟩
      else setPorts comp refuses change (portIndices nParam))
    {already : CommandPort → Prop}
    (sets : ∀ port, (change port).settings = port.settings ↔ already port) :
    Validated comp nParam cmd env ↔ nPorts ≤ nParam.toInt ∨ allPortIndex ≤ nParam.toInt ∧
      Undisturbed comp env refuses already (portIndices nParam) := by
  by_cases large : nPorts ≤ nParam.toInt
  · rw [if_pos (badPortIndex_iff.mpr large)] at set
    exact iff_of_true ((validated_refused valid set (fun same => by cases same) rfl).mpr rfl)
      (.inl large)
  · rw [if_neg fun bad => large (badPortIndex_iff.mp bad)] at set
    rw [or_iff_right large]
    by_cases least : allPortIndex ≤ nParam.toInt
    · have within := portIndices_inRange least (Int.not_le.mp large)
      rw [validated_setPorts valid set rfl rfl portIndices_nodup within, and_iff_right least,
        Undisturbed, or_iff_not_imp_left]
      refine (and_iff_right fun _ => (handlerIndices_iff marks).mpr within).trans ?_
      refine imp_congr_right fun _ => (and_iff_right rfl).trans ?_
      exact forall₂_congr fun i _ => sets (comp.ports i)
    · obtain ⟨single, outside⟩ := portIndices_outside (Int.not_le.mp least)
      rw [single] at set
      exact iff_of_false (not_validated_outside valid set rfl outside) fun ok => least ok.1

theorem validated_portEnable_iff (valid : comp.currentState ≠ .invalid) :
    Validated comp nParam .portEnable env ↔ PortCommandOk comp nParam .portEnable env := by
  simp only [PortCommandOk, valid, false_or]
  refine validated_ports_iff valid (fun same => by cases same) rfl fun port => ?_
  simp only [CommandPort.settings, Prod.mk.injEq, and_true]
  exact eq_comm

theorem validated_portDisable_iff (valid : comp.currentState ≠ .invalid) :
    Validated comp nParam .portDisable env ↔ PortCommandOk comp nParam .portDisable env := by
  simp only [PortCommandOk, valid, false_or]
  refine validated_ports_iff valid (fun same => by cases same) rfl fun port => ?_
  simp only [CommandPort.settings, Prod.mk.injEq, true_and]
  exact and_congr eq_comm eq_comm

theorem settings_flushed (port : CommandPort) :
    ({ port with bIsPortFlushed := true } : CommandPort).settings = port.settings ↔
      port.bIsPortFlushed = true := by
  simp only [CommandPort.settings, Prod.mk.injEq, true_and, and_true]
  exact eq_comm

/-- A flush that is not refused: what its loop would set, behind the flag. -/
theorem validated_flushLoop_iff {indices : List ℤ} (valid : comp.currentState ≠ .invalid)
    (set : setCommand comp nParam .flush =
      setPorts { comp with nRkFlags := comp.nRkFlags ||| needFlushOnSeek } (fun _ => false)
        (fun port => { port with bIsPortFlushed := true }) indices)
    (distinct : indices.Nodup) (within : ∀ i ∈ indices, InRange i) :
    Validated comp nParam .flush env ↔
      (Queues comp env → ∀ i ∈ portIndices nParam, InRange i) ∧
        (¬Queues comp env → comp.nRkFlags ||| needFlushOnSeek = comp.nRkFlags ∧
          ∀ i ∈ indices, (comp.ports i).bIsPortFlushed = true) := by
  have all : changed (fun _ => false) indices comp.ports = indices := changed_eq_self fun _ _ => rfl
  have accepted : (∀ i ∈ indices, false = false) ∧ Queues comp env ↔ Queues comp env :=
    and_iff_right fun _ _ => rfl
  rw [validated_setPorts valid set rfl rfl distinct within, all, accepted,
    handlerIndices_iff fun same => by cases same]
  refine and_congr_right fun _ => imp_congr_right fun _ => and_congr_right fun _ => ?_
  exact forall₂_congr fun i _ => settings_flushed (comp.ports i)

/-- The flush sets its flag before it looks at anything. -/
theorem validated_flush_iff (valid : comp.currentState ≠ .invalid) :
    Validated comp nParam .flush env ↔ PortCommandOk comp nParam .flush env := by
  simp only [PortCommandOk, valid, false_or]
  by_cases started : comp.started = true
  · by_cases large : nPorts ≤ nParam.toInt
    · have set : setCommand comp nParam .flush =
          ⟨{ comp with nRkFlags := comp.nRkFlags ||| needFlushOnSeek }, [], .badPortIndex⟩ :=
        (if_pos started).trans (if_pos (badPortIndex_iff.mpr large))
      rw [if_pos (.inr large)]
      exact validated_refused valid set (fun same => by cases same) rfl
    · have set : setCommand comp nParam .flush =
          setPorts { comp with nRkFlags := comp.nRkFlags ||| needFlushOnSeek } (fun _ => false)
            (fun port => { port with bIsPortFlushed := true }) (flushIndices nParam) :=
        (if_pos started).trans (if_neg fun bad => large (badPortIndex_iff.mp bad))
      rw [if_neg (by simp [started, large])]
      have below := Int.not_le.mp large
      split
      · rename_i least
        have within := portIndices_inRange least below
        rw [flushIndices_eq least below] at set
        rw [validated_flushLoop_iff valid set portIndices_nodup within,
          and_iff_right fun _ => within, or_iff_not_imp_left]
      · rename_i negative
        have single : flushIndices nParam = [((nParam.setWidth 16).toNat : ℤ)] :=
          if_neg fun same => negative (Int.le_of_eq same.symm)
        rw [single] at set
        by_cases within : InRange (nParam.setWidth 16).toNat
        · rw [validated_flushLoop_iff valid set (List.nodup_singleton _) (by simpa using within)]
          obtain ⟨alone, outside⟩ := portIndices_outside (Int.not_le.mp negative)
          rw [alone, List.forall_mem_singleton, List.forall_mem_singleton, and_iff_right within]
          constructor
          · rintro ⟨taken, fails⟩
            have full : ¬Queues comp env := fun queues => outside (taken queues)
            exact ⟨full, fails full⟩
          · rintro ⟨full, kept⟩
            exact ⟨fun queues => absurd queues full, fun _ => kept⟩
        · exact iff_of_false (not_validated_outside valid set rfl within) fun ok => within ok.1
  · have set : setCommand comp nParam .flush =
        ⟨{ comp with nRkFlags := comp.nRkFlags ||| needFlushOnSeek }, [],
          .incorrectStateOperation⟩ := if_neg started
    rw [if_pos (.inl (Bool.eq_false_iff.mpr started))]
    exact validated_refused valid set (fun same => by cases same) rfl

theorem validated_markBuffer (valid : comp.currentState ≠ .invalid) :
    Validated comp nParam .markBuffer env := by
  by_cases large : (nParam.toNat : ℤ) ≥ nPorts
  · have set : setCommand comp nParam .markBuffer = ⟨comp, [], .badPortIndex⟩ := if_pos large
    exact (validated_refused valid set (fun same => by cases same) rfl).mpr rfl
  · by_cases started : comp.started = true
    · have sent : rockchipSendCommand comp nParam .markBuffer env =
          ⟨(commandQueue comp env).1, [], (commandQueue comp env).2⟩ := by
        have set : setCommand comp nParam .markBuffer = ⟨comp, [], .errorNone⟩ :=
          (if_neg large).trans (if_pos started)
        rw [rockchipSendCommand, if_neg valid, set]
        exact if_neg fun error => error rfl
      obtain ⟨ports, flags, -⟩ := commandQueue_spec comp env
      refine ⟨fun i member => ?_, fun _ i member => ?_, fun _ => ?_, fun _ i _ => ?_⟩
      · rw [sent] at member
        cases member
      · obtain rfl := List.mem_singleton.mp member
        exact ⟨Int.natCast_nonneg _, Int.not_le.mp large⟩
      · rw [sent]
        exact flags
      · rw [sent]
        exact congrArg (fun ports => CommandPort.settings (ports i)) ports
    · have set : setCommand comp nParam .markBuffer = ⟨comp, [], .incorrectStateOperation⟩ :=
        (if_neg large).trans (if_neg started)
      exact (validated_refused valid set (fun same => by cases same) rfl).mpr rfl

theorem validated_invalid (invalid : comp.currentState = .invalid) :
    Validated comp nParam cmd env := by
  have sent : rockchipSendCommand comp nParam cmd env = ⟨comp, [], .invalidState⟩ := if_pos invalid
  refine ⟨fun i member => ?_, fun success => ?_, fun _ => ?_, fun _ i _ => ?_⟩
  · rw [sent] at member
    cases member
  · rw [sent] at success
    cases success
  · rw [sent]
  · rw [sent]

/-- A command is validated before it acts exactly when it meets its condition. -/
theorem commands_validated_iff (comp : CommandComponent) (nParam : BitVec 32) (cmd : PortCommand)
    (env : QueueEnv) : Validated comp nParam cmd env ↔ PortCommandOk comp nParam cmd env := by
  by_cases invalid : comp.currentState = .invalid
  · exact iff_of_true (validated_invalid invalid) (.inl invalid)
  · cases cmd with
    | flush => exact validated_flush_iff invalid
    | portDisable => exact validated_portDisable_iff invalid
    | portEnable => exact validated_portEnable_iff invalid
    | markBuffer => exact iff_of_true (validated_markBuffer invalid) (.inr trivial)

/-- A port at -2 is accepted, and enabled. -/
theorem negative_port_accepted :
    ¬Validated ⟨.executing, 0, fun _ => ⟨.loaded, false, false, false⟩, 0⟩ 0xFFFFFFFE#32 .portEnable
      ⟨true, .errorNone⟩ := fun validated =>
  absurd (validated.handled rfl (-2) (by decide)).1 (by decide)

end Omx
end RockchipSoc
