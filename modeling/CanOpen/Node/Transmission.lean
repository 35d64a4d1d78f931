import CanOpen.Node.Effects
import CanOpen.Node.TransmitPdos

/-! # What an operation transmits

The frames of an operation as they go on the bus, by the service they belong to.
-/

namespace CanOpen

open Lss (LssAddress)

variable {N : Nat}

abbrev BusFrame := UInt16 × List UInt8

abbrev BusEvent (N : Nat) := Trace.Event (Node N) (NodeOp N) (List BusFrame)

/-! ## One frame -/

namespace TxFrame

theorem payload_of_new {cobId : UInt16} {bytes : List UInt8} {frame : TxFrame}
    (built : new cobId bytes = pure frame) (short : bytes.length ≤ 8) :
    frame.cobId = cobId ∧ frame.payload = pure bytes := by
  rcases new_returns cobId bytes with ⟨again, rebuilt, sameId, length, data⟩
  cases built.symm.trans rebuilt
  refine ⟨sameId, ?_⟩
  rw [payload_eq, data, length, Nat.min_eq_left short, List.take_of_length_le short,
    List.take_left]

end TxFrame

def onBus (frames : List TxFrame) : Exec (List BusFrame) :=
  frames.mapM fun frame => do
    let data ← frame.payload
    pure (frame.cobId, data)

theorem onBus_eq (frames : List TxFrame) :
    onBus frames =
      pure (frames.map fun frame => (frame.cobId, frame.data.toList.take frame.len.toNat)) :=
  Exec.mapM_eq_pure fun frame _ => by rw [frame.payload_eq, pure_bind]

theorem onBus_singleton {frame : TxFrame} {bytes : List UInt8}
    (carries : frame.payload = pure bytes) : onBus [frame] = pure [(frame.cobId, bytes)] := by
  rw [frame.payload_eq, Exec.pure_inj] at carries
  rw [onBus_eq, List.map_singleton, carries]

theorem NodeOp.step_eq_pure_iff {node after : Node N} {op : NodeOp N} {sent : List BusFrame} :
    op.step node = pure (after, sent) ↔
      ∃ frames, op.perform node = pure (after, frames) ∧ onBus frames = pure sent := by
  constructor
  · intro taken
    rw [step, Exec.bind_eq_pure_iff] at taken
    rcases taken with ⟨⟨next, frames⟩, performed, taken⟩
    rw [Exec.bind_eq_pure_iff] at taken
    rcases taken with ⟨read, reads, taken⟩
    cases taken
    exact ⟨frames, performed, reads⟩
  · rintro ⟨frames, performed, reads⟩
    rw [step, performed, pure_bind]
    change onBus frames >>= _ = _
    rw [reads, pure_bind]

theorem NodeOp.run_returns (nodeId : NodeId) (od : ObjectDictionary N) (ops : List (NodeOp N)) :
    ∃ events final,
      Trace.run NodeOp.step (Node.new nodeId od) ops = pure (events, final) := by
  have valid : (Node.new nodeId od).sdo.Valid := Sdo.SdoServer.valid_new nodeId
  rcases Trace.run_total (fun node : Node N => node.sdo.Valid) ops valid
    (fun node op _ valid => NodeOp.step_returns valid op) with ⟨events, final, ran, -⟩
  exact ⟨events, final, ran⟩

/-! ## The frames of an operation -/

def NodeOp.IsSilent : NodeOp N → Prop
  | .enableLss _ | .enableLssUnconfigured _ | .setNodeId _ | .applyLssNodeId | .addRpdo _ _
  | .addTpdo _ _ _ | .configurePdosFromOd | .takeWrittenObject | .odMut _
  | .enableSyncProducer _ => True
  | _ => False

/-- The frames that an operation of a node puts on the bus. -/
inductive Transmits (node : Node N) : NodeOp N → List BusFrame → Prop
  | bootup : Transmits node .boot [(heartbeatCobId node.nodeId, bootupFrame.toList)]
  | guarded : Transmits node .nodeGuardResponse
      [(heartbeatCobId node.nodeId, [encodeNodeGuard node.state node.guardToggle])]
  | heartbeat : Transmits node .heartbeat
      [(heartbeatCobId node.nodeId, (encodeHeartbeat node.state).toList)]
  | raised (code : UInt16) (register : ErrorRegister) (info : Vector UInt8 5) :
      Transmits node (.raiseEmergency code register info) [(emcyCobId node.nodeId,
        (EmergencyMessage.encode ⟨code,
          ⟨node.errorRegister ||| (register.bits ||| ErrorRegister.generic)⟩, info⟩).toList)]
  | cleared : Transmits node .clearErrors
      [(emcyCobId node.nodeId, EmergencyMessage.errorReset.encode.toList)]
  | sync (counter advanced : SyncCounter) (count : Option UInt8) :
      node.syncProducer = some counter → counter.advance = pure (advanced, count) →
      Transmits node .produceSync [(syncCobId, syncData count)]
  | noSync : node.syncProducer = none → Transmits node .produceSync []
  | replied (cobId : UInt16) (data : List UInt8) (sent : List BusFrame) :
      (∀ frame ∈ sent, cobId = Lss.lssMasterCobId ∧ frame.1 = Lss.lssSlaveCobId ∨
        cobId = node.sdo.requestCobId ∧ frame.1 = node.sdo.responseCobId) →
      Transmits node (.onFrame cobId data) sent
  | synced (sent : List BusFrame) :
      (∀ frame ∈ sent, ∃ slot ∈ node.tpdos.toList, slot.cobId = frame.1) →
      Transmits node .syncTpdos sent
  | demanded (index : Nat) (sent : List BusFrame) :
      (∀ frame ∈ sent, ∃ slot ∈ node.tpdos.toList, slot.cobId = frame.1) →
      Transmits node (.tpdo index) sent
  | silent (op : NodeOp N) : op.IsSilent → Transmits node op []

theorem syncData_length_le (count : Option UInt8) : (syncData count).length ≤ 8 := by
  cases count <;> simp [syncData, encodeCounter]

/-- A reply is on the COB-ID of the LSS slaves or on that of the SDO server. -/
theorem Node.Served.reply {node : Node N} {cobId : UInt16} {data : List UInt8} {after : Node N}
    {frame : TxFrame} (served : Served node cobId data (after, some frame)) :
    cobId = Lss.lssMasterCobId ∧ frame.cobId = Lss.lssSlaveCobId ∨
      cobId = node.sdo.requestCobId ∧ frame.cobId = node.sdo.responseCobId := by
  cases served with
  | lss _ _ _ request _ _ _ replies => exact .inl ⟨request, replies frame rfl⟩
  | sdo payload handled _ request _ _ _ handles sameId =>
      cases responds : handled.response with
      | none =>
          rw [responds] at sameId
          cases sameId
      | some response =>
          rw [responds, Option.map_some, Option.map_some, Option.some.injEq] at sameId
          rw [sameId, Sdo.SdoServer.responseCobId,
            (Sdo.SdoServer.handle_effect handles).node]
          exact .inr ⟨request, rfl⟩

theorem Node.tpdo_cobId {node : Node N} {index : Nat} {frame : TxFrame}
    (taken : node.tpdo index = pure (some frame)) :
    ∃ slot ∈ node.tpdos.toList, slot.cobId = frame.cobId := by
  unfold tpdo at taken
  split at taken
  · cases taken
  · split at taken
    · cases taken
    · next slot found =>
        rcases node.buildTpdo_outcome slot with ⟨result, built, -, sameId⟩
        cases taken.symm.trans built
        exact ⟨slot, List.mem_of_getElem? found, (sameId frame rfl).symm⟩

theorem Node.syncTpdos_cobId {node : Node N} {frames : BoundedVec TxFrame maxPdos}
    (taken : node.syncTpdos = pure frames) :
    ∀ frame ∈ frames.toList, ∃ slot ∈ node.tpdos.toList, slot.cobId = frame.cobId := by
  by_cases operational : node.state = .operational
  · rcases syncTpdos_collects operational with ⟨collected, again, members⟩
    cases taken.symm.trans again
    intro frame member
    rcases (members frame).mp member with ⟨slot, configured, -, built⟩
    rcases node.buildTpdo_outcome slot with ⟨result, rebuilt, -, sameId⟩
    cases built.symm.trans rebuilt
    exact ⟨slot, configured, (sameId frame rfl).symm⟩
  · rw [syncTpdos, if_pos operational] at taken
    cases taken
    intro frame member
    cases member

theorem cobId_of_onBus (Allowed : UInt16 → Prop) {frames : List TxFrame}
    {sent : List BusFrame} (reads : onBus frames = pure sent)
    (allowed : ∀ frame ∈ frames, Allowed frame.cobId) : ∀ frame ∈ sent, Allowed frame.1 := by
  rw [onBus_eq, Exec.pure_inj] at reads
  subst reads
  intro frame member
  rcases List.mem_map.mp member with ⟨built, isBuilt, rfl⟩
  exact allowed built isBuilt

theorem sent_of_new {cobId : UInt16} {bytes : List UInt8} {frame : TxFrame}
    {sent : List BusFrame} (built : TxFrame.new cobId bytes = pure frame)
    (short : bytes.length ≤ 8) (reads : onBus [frame] = pure sent) : sent = [(cobId, bytes)] := by
  rcases TxFrame.payload_of_new built short with ⟨rfl, carries⟩
  rw [onBus_singleton carries, Exec.pure_inj] at reads
  exact reads.symm

theorem NodeOp.transmits {node after : Node N} {op : NodeOp N} {sent : List BusFrame}
    (taken : op.step node = pure (after, sent)) : Transmits node op sent := by
  rcases step_eq_pure_iff.mp taken with ⟨frames, performed, reads⟩
  cases op with
  | enableLss | enableLssUnconfigured | setNodeId | applyLssNodeId | addRpdo | addTpdo
  | configurePdosFromOd | takeWrittenObject | odMut | enableSyncProducer =>
      cases performed
      cases reads
      exact .silent _ trivial
  | boot =>
      simp only [perform, Node.boot, Exec.bind_eq_pure_iff] at performed
      rcases performed with ⟨_, ⟨frame, built, ⟨⟩⟩, ⟨⟩⟩
      rw [sent_of_new built (by decide) reads]
      exact .bootup
  | nodeGuardResponse =>
      simp only [perform, Node.nodeGuardResponse, Exec.bind_eq_pure_iff] at performed
      rcases performed with ⟨_, ⟨frame, built, ⟨⟩⟩, ⟨⟩⟩
      rw [sent_of_new built (by simp) reads]
      exact .guarded
  | heartbeat =>
      simp only [perform, Node.heartbeat, Exec.bind_eq_pure_iff] at performed
      rcases performed with ⟨frame, built, ⟨⟩⟩
      rw [sent_of_new built (by simp [encodeHeartbeat]) reads]
      exact .heartbeat
  | raiseEmergency code register info =>
      simp only [perform, Node.raiseEmergency, Exec.bind_eq_pure_iff] at performed
      rcases performed with ⟨_, ⟨recorded, -, frame, built, ⟨⟩⟩, ⟨⟩⟩
      rw [sent_of_new built (by simp) reads]
      exact .raised code register info
  | clearErrors =>
      simp only [perform, Node.clearErrors, Exec.bind_eq_pure_iff] at performed
      rcases performed with ⟨_, ⟨frame, built, ⟨⟩⟩, ⟨⟩⟩
      rw [sent_of_new built (by simp) reads]
      exact .cleared
  | produceSync =>
      simp only [perform, Exec.bind_eq_pure_iff] at performed
      rcases performed with ⟨⟨next, frame⟩, produced, ⟨⟩⟩
      unfold Node.produceSync at produced
      split at produced
      · next absent =>
          cases produced
          cases reads
          exact .noSync absent
      · next counter present =>
          simp only [Exec.bind_eq_pure_iff] at produced
          rcases produced with ⟨⟨advanced, count⟩, advances, frame, built, ⟨⟩⟩
          rw [sent_of_new built (syncData_length_le count) reads]
          exact .sync counter advanced count present advances
  | onFrame cobId data =>
      simp only [perform, Exec.bind_eq_pure_iff] at performed
      rcases performed with ⟨⟨next, tx⟩, received, ⟨⟩⟩
      refine .replied cobId data sent (cobId_of_onBus
        (fun id => cobId = Lss.lssMasterCobId ∧ id = Lss.lssSlaveCobId ∨
          cobId = node.sdo.requestCobId ∧ id = node.sdo.responseCobId) reads ?_)
      intro frame member
      rw [Option.mem_toList] at member
      subst member
      exact (Node.onFrame_served received).reply
  | syncTpdos =>
      simp only [perform, Exec.bind_eq_pure_iff] at performed
      rcases performed with ⟨built, collects, ⟨⟩⟩
      exact .synced sent (cobId_of_onBus
        (fun id => ∃ slot ∈ node.tpdos.toList, slot.cobId = id) reads
        (Node.syncTpdos_cobId collects))
  | tpdo index =>
      simp only [perform, Exec.bind_eq_pure_iff] at performed
      rcases performed with ⟨built, emits, ⟨⟩⟩
      refine .demanded index sent (cobId_of_onBus
        (fun id => ∃ slot ∈ node.tpdos.toList, slot.cobId = id) reads ?_)
      intro frame member
      rw [Option.mem_toList] at member
      subst member
      exact Node.tpdo_cobId emits

end CanOpen
