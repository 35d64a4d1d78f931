import CanOpen.Foundation.Trace
import CanOpen.Node.Receive

/-! # Every operation of a node

The public operations of a node as the steps of a machine, none of which panics in
a state that the node can reach.
-/

namespace CanOpen

open Sdo (SdoServer SdoPayload)
open Lss (LssAddress)

variable {N : Nat}

/-! ## The error history -/

theorem Node.shiftBack_returns (history : BoundedVec UInt32 maxErrorHistory) {len : Nat}
    (within : len < history.toList.length) :
    ∃ shifted, Node.shiftBack history len = pure shifted ∧
      shifted.toList = history.toList.take 1 ++ history.toList.take len ++
        history.toList.drop (len + 1) := by
  induction len generalizing history with
  | zero =>
      refine ⟨history, rfl, ?_⟩
      rw [List.take_zero, List.append_nil, List.take_append_drop]
  | succ len induction =>
      have read : history.index len = pure history.toList[len] :=
        Exec.index_of_lt (by omega)
      rcases BoundedVec.setIndex_of_lt history.toList[len] within with
        ⟨changed, set, content⟩
      rcases induction changed (by rw [content, List.length_set]; omega) with
        ⟨shifted, shifts, order⟩
      refine ⟨shifted, ?_, ?_⟩
      · rw [Node.shiftBack, List.range_succ, List.reverse_append, List.reverse_singleton,
          List.singleton_append, List.foldlM_cons, read, pure_bind, set, pure_bind]
        exact shifts
      · have moved : (history.toList.set (len + 1) history.toList[len]).drop (len + 1) =
            history.toList[len] :: history.toList.drop (len + 2) := by
          rw [List.drop_eq_getElem_cons (by simpa using within), List.getElem_set_self,
            List.drop_set_of_lt (by omega)]
        rw [order, content, List.take_set_of_le (by omega), List.take_set_of_le (by omega),
          moved, ← List.take_append_getElem (show len < history.toList.length by omega)]
        simp only [List.append_assoc, List.singleton_append]

theorem Node.recordError_returns (history : BoundedVec UInt32 maxErrorHistory)
    (code : UInt32) :
    ∃ recorded, Node.recordError history code = pure recorded ∧
      recorded.toList = code :: history.toList.take 7 := by
  let kept := if history.isFull then history.pop else history
  have bound : history.toList.length ≤ 8 := history.length_le
  have keptList : kept.toList = history.toList.take 7 := by
    by_cases full : history.toList.length = 8
    · have isFull : history.isFull = true := by
        simp [BoundedVec.isFull, BoundedVec.len, maxErrorHistory, full]
      simp only [kept, isFull, if_true, BoundedVec.pop, List.dropLast_eq_take, full]
    · have notFull : history.isFull = false := by
        simp [BoundedVec.isFull, BoundedVec.len, maxErrorHistory, full]
      simp only [kept, notFull, Bool.false_eq_true, if_false]
      exact (List.take_of_length_le (by omega)).symm
  have room : kept.toList.length < maxErrorHistory := by
    rw [keptList, List.length_take]
    show min 7 _ < 8
    omega
  rcases BoundedVec.push_of_lt (0 : UInt32) room with ⟨pushed, pushes, content⟩
  rcases Node.shiftBack_returns pushed
    (show kept.toList.length < pushed.toList.length by simp [content]) with ⟨shifted, shifts, order⟩
  have nonempty : 0 < shifted.toList.length := by
    rw [order, content]
    simp
  rcases BoundedVec.setIndex_of_lt code nonempty with ⟨recorded, sets, result⟩
  refine ⟨recorded, ?_, ?_⟩
  · show (Node.shiftBack ((kept.push 0).getD kept) kept.len >>= fun history =>
      history.setIndex 0 code) = pure recorded
    rw [pushes, Option.getD_some, BoundedVec.len, shifts, pure_bind, sets]
  · rw [result, order, content, ← keptList]
    cases kept.toList <;> simp

namespace Node

/-! ## The frames a node builds -/

theorem raiseEmergency_returns (node : Node N) (code : UInt16) (register : ErrorRegister)
    (info : Vector UInt8 5) :
    ∃ after frame, node.raiseEmergency code register info = pure (after, frame) ∧
      after.sdo = node.sdo ∧ after.nodeId = node.nodeId := by
  rcases recordError_returns node.errorHistory code.toUInt32 with ⟨recorded, records, -⟩
  let errorRegister := node.errorRegister ||| (register.bits ||| ErrorRegister.generic)
  let after := { node with errorRegister, errorHistory := recorded }.mirrorErrorObjects
  rcases TxFrame.new_returns (emcyCobId after.nodeId)
    (EmergencyMessage.encode ⟨code, ⟨after.errorRegister⟩, info⟩).toList with
    ⟨frame, built, -⟩
  refine ⟨after, frame, ?_, rfl, rfl⟩
  rw [raiseEmergency, records, pure_bind]
  simp only [after, errorRegister] at built
  simp only [built, pure_bind, after, errorRegister]

theorem clearErrors_returns (node : Node N) :
    ∃ after frame, node.clearErrors = pure (after, frame) ∧ after.sdo = node.sdo ∧
      after.nodeId = node.nodeId := by
  let after := { node with errorRegister := 0, errorHistory := .new }.mirrorErrorObjects
  rcases TxFrame.new_returns (emcyCobId after.nodeId)
    EmergencyMessage.errorReset.encode.toList with ⟨frame, built, -⟩
  refine ⟨after, frame, ?_, rfl, rfl⟩
  simp only [after] at built
  simp only [clearErrors, built, pure_bind, after]

theorem produceSync_returns (node : Node N) :
    ∃ after frame, node.produceSync = pure (after, frame) ∧ after.sdo = node.sdo ∧
      after.nodeId = node.nodeId := by
  unfold produceSync
  split
  · exact ⟨node, none, rfl, rfl, rfl⟩
  · next counter _ =>
      rcases counter.advance_returns with ⟨advanced, count, advances⟩
      rcases TxFrame.new_returns syncCobId (syncData count) with ⟨frame, built, -⟩
      refine ⟨{ node with syncProducer := some advanced }, some frame, ?_, rfl, rfl⟩
      simp only [advances, pure_bind, built]

theorem buildTpdo_returns (node : Node N) (slot : TpdoSlot) :
    ∃ frame, node.buildTpdo slot = pure frame := by
  unfold buildTpdo
  split
  · exact ⟨none, rfl⟩
  · rcases pack_returns slot.mapping node.od (Vector.replicate 8 0) with
      ⟨result, packed, packs, within⟩
    rw [packs, pure_bind]
    cases result with
    | error error => exact ⟨none, rfl⟩
    | ok len =>
        have slice := Exec.slice_of_le packed.toList (Nat.zero_le len)
          (by simpa using within len rfl)
        rcases TxFrame.new_returns slot.cobId ((packed.toList.take len).drop 0) with
          ⟨frame, built, -⟩
        exact ⟨some frame, by simp only [slice, pure_bind, built]⟩

theorem syncTpdos_returns (node : Node N) : ∃ frames, node.syncTpdos = pure frames := by
  unfold syncTpdos
  split
  · exact ⟨.new, rfl⟩
  · refine Exec.foldlM_returns (fun frames slot _ => ?_) BoundedVec.new
    split
    · rcases node.buildTpdo_returns slot with ⟨frame, built⟩
      exact ⟨pushSlot frames frame, by rw [built, pure_bind]⟩
    · exact ⟨frames, rfl⟩

theorem tpdo_returns (node : Node N) (index : Nat) :
    ∃ frame, node.tpdo index = pure frame := by
  unfold tpdo
  split
  · exact ⟨none, rfl⟩
  · split
    · exact ⟨none, rfl⟩
    · exact node.buildTpdo_returns _

end Node

/-! ## The operations -/

/-- The public operations of a node that do more than read one of its fields. -/
inductive NodeOp (N : Nat) where
  | enableLss (address : LssAddress)
  | enableLssUnconfigured (address : LssAddress)
  | setNodeId (nodeId : NodeId)
  | applyLssNodeId
  | addRpdo (cobId : UInt16) (mapping : PdoMapping maxPdoMapping)
  | addTpdo (cobId : UInt16) (mapping : PdoMapping maxPdoMapping)
      (transmission : TransmissionType)
  | configurePdosFromOd
  | takeWrittenObject
  /-- The dictionary is borrowed mutably and left as `od`. -/
  | odMut (od : ObjectDictionary N)
  | boot
  | nodeGuardResponse
  | heartbeat
  | raiseEmergency (code : UInt16) (register : ErrorRegister) (info : Vector UInt8 5)
  | clearErrors
  | enableSyncProducer (counterOverflow : UInt8)
  | produceSync
  | onFrame (cobId : UInt16) (data : List UInt8)
  | syncTpdos
  | tpdo (index : Nat)

/-- Perform an operation. The result has the frames to transmit. A fallible operation
that fails leaves the node as it is. -/
def NodeOp.perform (node : Node N) : NodeOp N → Exec (Node N × List TxFrame)
  | .enableLss address => pure (node.enableLss address, [])
  | .enableLssUnconfigured address => pure (node.enableLssUnconfigured address, [])
  | .setNodeId nodeId => pure (node.setNodeId nodeId, [])
  | .applyLssNodeId => pure (node.applyLssNodeId.1, [])
  | .addRpdo cobId mapping => pure ((node.addRpdo cobId mapping).toOption.getD node, [])
  | .addTpdo cobId mapping transmission =>
      pure ((node.addTpdo cobId mapping transmission).toOption.getD node, [])
  | .configurePdosFromOd => pure (node.configurePdosFromOd, [])
  | .takeWrittenObject => pure (node.takeWrittenObject.1, [])
  | .odMut od => pure ({ node with od }, [])
  | .boot => do
      let (node, frame) ← node.boot
      pure (node, [frame])
  | .nodeGuardResponse => do
      let (node, frame) ← node.nodeGuardResponse
      pure (node, [frame])
  | .heartbeat => do
      let frame ← node.heartbeat
      pure (node, [frame])
  | .raiseEmergency code register info => do
      let (node, frame) ← node.raiseEmergency code register info
      pure (node, [frame])
  | .clearErrors => do
      let (node, frame) ← node.clearErrors
      pure (node, [frame])
  | .enableSyncProducer counterOverflow =>
      pure ((node.enableSyncProducer counterOverflow).toOption.getD node, [])
  | .produceSync => do
      let (node, frame) ← node.produceSync
      pure (node, frame.toList)
  | .onFrame cobId data => do
      let (node, frame) ← node.onFrame cobId data
      pure (node, frame.toList)
  | .syncTpdos => do
      let frames ← node.syncTpdos
      pure (node, frames.toList)
  | .tpdo index => do
      let frame ← node.tpdo index
      pure (node, frame.toList)

def NodeOp.step (node : Node N) (op : NodeOp N) :
    Exec (Node N × List (UInt16 × List UInt8)) := do
  let (node, frames) ← op.perform node
  let sent ← frames.mapM fun frame => do
    let data ← frame.payload
    pure (frame.cobId, data)
  pure (node, sent)

/-! ## Absence of panics -/

/-- What an operation makes of the SDO server: its transfer goes on, it is renewed for the
node-id, or it handles a frame. -/
inductive ServerChange (node after : Node N) : Prop
  | kept (sameTransfer : after.sdo.transfer = node.sdo.transfer)
      (sameServer : after.sdo.node = node.sdo.node) (sameId : after.nodeId = node.nodeId)
  | renewed (new : after.sdo = .new after.nodeId)
  | served (cobId : UInt16) (data : List UInt8) (tx : Option TxFrame)
      (served : Node.Served node cobId data (after, tx))

theorem NodeOp.perform_changes {node : Node N} (valid : node.sdo.Valid) (op : NodeOp N) :
    ∃ after frames, op.perform node = pure (after, frames) ∧ ServerChange node after := by
  cases op with
  | enableLss | enableLssUnconfigured | odMut | configurePdosFromOd | takeWrittenObject =>
      exact ⟨_, _, rfl, .kept rfl rfl rfl⟩
  | setNodeId nodeId => exact ⟨_, _, rfl, .renewed rfl⟩
  | applyLssNodeId =>
      refine ⟨_, _, rfl, ?_⟩
      unfold Node.applyLssNodeId
      split
      · exact .kept rfl rfl rfl
      · split
        · exact .kept rfl rfl rfl
        · exact .renewed rfl
  | addRpdo cobId mapping =>
      refine ⟨_, _, rfl, ?_⟩
      unfold Node.addRpdo
      split <;> exact .kept rfl rfl rfl
  | addTpdo cobId mapping transmission =>
      refine ⟨_, _, rfl, ?_⟩
      unfold Node.addTpdo
      split <;> exact .kept rfl rfl rfl
  | boot =>
      rcases TxFrame.new_returns (heartbeatCobId node.nodeId) bootupFrame.toList with
        ⟨frame, built, -⟩
      refine ⟨{ node with nmt := node.nmt.boot, guardToggle := false }, [frame], ?_,
        .kept rfl rfl rfl⟩
      simp only [perform, Node.boot, built, pure_bind]
  | nodeGuardResponse =>
      rcases TxFrame.new_returns (heartbeatCobId node.nodeId)
        [encodeNodeGuard node.state node.guardToggle] with ⟨frame, built, -⟩
      refine ⟨{ node with guardToggle := !node.guardToggle }, [frame], ?_, .kept rfl rfl rfl⟩
      simp only [perform, Node.nodeGuardResponse, built, pure_bind]
  | heartbeat =>
      rcases TxFrame.new_returns (heartbeatCobId node.nodeId)
        (encodeHeartbeat node.state).toList with ⟨frame, built, -⟩
      refine ⟨node, [frame], ?_, .kept rfl rfl rfl⟩
      simp only [perform, Node.heartbeat, built, pure_bind]
  | raiseEmergency code register info =>
      rcases node.raiseEmergency_returns code register info with
        ⟨after, frame, raised, same, sameId⟩
      refine ⟨after, [frame], ?_, .kept (by rw [same]) (by rw [same]) sameId⟩
      simp only [perform, raised, pure_bind]
  | clearErrors =>
      rcases node.clearErrors_returns with ⟨after, frame, cleared, same, sameId⟩
      refine ⟨after, [frame], ?_, .kept (by rw [same]) (by rw [same]) sameId⟩
      simp only [perform, cleared, pure_bind]
  | enableSyncProducer counterOverflow =>
      refine ⟨_, _, rfl, ?_⟩
      unfold Node.enableSyncProducer
      cases SyncCounter.new counterOverflow <;> exact .kept rfl rfl rfl
  | produceSync =>
      rcases node.produceSync_returns with ⟨after, frame, produced, same, sameId⟩
      refine ⟨after, frame.toList, ?_, .kept (by rw [same]) (by rw [same]) sameId⟩
      simp only [perform, produced, pure_bind]
  | onFrame cobId data =>
      rcases Node.onFrame_returns cobId data (fun _ => valid) with ⟨⟨after, tx⟩, taken⟩
      refine ⟨after, tx.toList, ?_, .served cobId data tx (Node.onFrame_served taken)⟩
      simp only [perform, taken, pure_bind]
  | syncTpdos =>
      rcases node.syncTpdos_returns with ⟨frames, built⟩
      exact ⟨node, frames.toList, by simp only [perform, built, pure_bind], .kept rfl rfl rfl⟩
  | tpdo index =>
      rcases node.tpdo_returns index with ⟨frame, built⟩
      exact ⟨node, frame.toList, by simp only [perform, built, pure_bind], .kept rfl rfl rfl⟩

theorem ServerChange.valid {node after : Node N} (change : ServerChange node after)
    (valid : node.sdo.Valid) : after.sdo.Valid := by
  cases change with
  | kept sameTransfer =>
      rw [SdoServer.Valid, sameTransfer]
      exact valid
  | renewed new => exact new ▸ SdoServer.valid_new _
  | served cobId data tx served => exact served.valid valid

theorem ServerChange.sameNode {node after : Node N} (change : ServerChange node after)
    (same : node.sdo.node = node.nodeId) : after.sdo.node = after.nodeId := by
  cases change with
  | kept _ sameServer sameId => rw [sameServer, same, sameId]
  | renewed new => rw [new, SdoServer.new]
  | served cobId data tx served => exact served.server same

theorem NodeOp.perform_returns {node : Node N} (valid : node.sdo.Valid) (op : NodeOp N) :
    ∃ after frames, op.perform node = pure (after, frames) ∧ after.sdo.Valid := by
  rcases op.perform_changes valid with ⟨after, frames, performed, change⟩
  exact ⟨after, frames, performed, change.valid valid⟩

theorem NodeOp.serverChange {node after : Node N} {op : NodeOp N} {frames : List TxFrame}
    (valid : node.sdo.Valid) (performed : op.perform node = pure (after, frames)) :
    ServerChange node after := by
  rcases op.perform_changes valid with ⟨reached, sent, again, change⟩
  cases performed.symm.trans again
  exact change

theorem Node.new_runs (nodeId : NodeId) (od : ObjectDictionary N) (ops : List (NodeOp N)) :
    ∃ events final, Trace.run NodeOp.perform (Node.new nodeId od) ops = pure (events, final) := by
  have valid : (Node.new nodeId od).sdo.Valid := SdoServer.valid_new nodeId
  rcases Trace.run_total (fun node : Node N => node.sdo.Valid) ops valid
    (fun node op _ valid => NodeOp.perform_returns valid op) with ⟨events, final, ran, -⟩
  exact ⟨events, final, ran⟩

theorem NodeOp.valid_in_run {node final : Node N} {ops : List (NodeOp N)}
    {events : List (Trace.Event (Node N) (NodeOp N) (List TxFrame))} (valid : node.sdo.Valid)
    (ran : Trace.run NodeOp.perform node ops = pure (events, final)) :
    ∀ past event future, events = past ++ event :: future → event.before.sdo.Valid := by
  have history := Trace.run_history (fun _ (state : Node N) => state.sdo.Valid)
    (fun _ event => event.before.sdo.Valid) valid
    (fun _ _ _ _ _ validBefore taken =>
      ⟨(NodeOp.serverChange validBefore taken).valid validBefore, validBefore⟩) ran
  exact history.2

theorem NodeOp.sameNode_in_run {nodeId : NodeId} {od : ObjectDictionary N} {final : Node N}
    {ops : List (NodeOp N)} {events : List (Trace.Event (Node N) (NodeOp N) (List TxFrame))}
    (ran : Trace.run NodeOp.perform (Node.new nodeId od) ops = pure (events, final)) :
    final.sdo.node = final.nodeId ∧
      ∀ past event future, events = past ++ event :: future →
        event.after.sdo.node = event.after.nodeId := by
  have history := Trace.run_history
    (fun _ (state : Node N) => state.sdo.Valid ∧ state.sdo.node = state.nodeId)
    (fun _ event => event.after.sdo.node = event.after.nodeId)
    ⟨SdoServer.valid_new nodeId, rfl⟩
    (fun _ _ _ _ _ server taken => by
      have change := NodeOp.serverChange server.1 taken
      exact ⟨⟨change.valid server.1, change.sameNode server.2⟩, change.sameNode server.2⟩) ran
  exact ⟨history.1.2, history.2⟩

theorem NodeOp.step_returns {node : Node N} (valid : node.sdo.Valid) (op : NodeOp N) :
    ∃ after sent, op.step node = pure (after, sent) ∧ after.sdo.Valid := by
  rcases op.perform_returns valid with ⟨after, frames, performed, validAfter⟩
  have read : frames.mapM (fun frame => do
        let data ← frame.payload
        pure (frame.cobId, data)) =
      (pure (frames.map fun frame =>
        (frame.cobId, frame.data.toList.take frame.len.toNat)) : Exec _) :=
    Exec.mapM_eq_pure fun frame _ => by rw [frame.payload_eq, pure_bind]
  refine ⟨after, frames.map fun frame => (frame.cobId, frame.data.toList.take frame.len.toNat),
    ?_, validAfter⟩
  rw [step, performed, pure_bind]
  simp only [read, pure_bind]

def serveRequest (server : SdoServer) (request : ObjectDictionary N × SdoPayload) :
    Exec (SdoServer × Option SdoPayload) := do
  let handled ← server.handle request.1 request.2
  pure (handled.server, handled.response)

theorem csAbort_iff (command : UInt8) :
    command &&& Sdo.csMask = Sdo.csAbort ↔ command >>> 5 = 0b100 := by
  apply LittleEndian.byte_of_forall _ command command.toNat_lt
  decide +kernel

theorem serveRequest_returns {server : SdoServer} (valid : server.Valid)
    (request : ObjectDictionary N × SdoPayload) :
    ∃ after response, serveRequest server request = pure (after, response) ∧ after.Valid := by
  rcases SdoServer.handle_returns valid request.1 request.2 with ⟨handled, handles⟩
  exact ⟨handled.server, handled.response, by rw [serveRequest, handles, pure_bind],
    (SdoServer.handle_effect handles).valid valid⟩

theorem serveRequest_quiet_iff {server after : SdoServer}
    {request : ObjectDictionary N × SdoPayload} {response : Option SdoPayload}
    (served : serveRequest server request = pure (after, response)) :
    response = none ↔ request.2.get 0 >>> 5 = 0b100 := by
  rw [serveRequest, Exec.bind_eq_pure_iff] at served
  rcases served with ⟨handled, handles, served⟩
  cases served
  rw [(SdoServer.handle_effect handles).response_eq_none_iff, csAbort_iff]

/-- No sequence of operations and received frames makes a new node panic. A server
that has only handled requests answers all of them but the client aborts. -/
theorem peer_cannot_crash (nodeId : NodeId) (od : ObjectDictionary N) :
    (∀ ops, ∃ events final,
      Trace.run NodeOp.step (Node.new nodeId od) ops = pure (events, final)) ∧
    ∀ requests : List (ObjectDictionary N × SdoPayload), ∃ events final,
      Trace.run serveRequest (SdoServer.new nodeId) requests = pure (events, final) ∧
        ∀ event ∈ events, event.output = none ↔ event.input.2.get 0 >>> 5 = 0b100 := by
  constructor
  · intro ops
    have valid : (Node.new nodeId od).sdo.Valid := SdoServer.valid_new nodeId
    rcases Trace.run_total (fun node : Node N => node.sdo.Valid) ops valid
      (fun node op _ valid => NodeOp.step_returns valid op) with ⟨events, final, ran, -⟩
    exact ⟨events, final, ran⟩
  · intro requests
    rcases Trace.run_total SdoServer.Valid requests
      (SdoServer.valid_new nodeId) (fun server request _ valid =>
        serveRequest_returns valid request) with ⟨events, final, ran, -⟩
    refine ⟨events, final, ran, fun event member => ?_⟩
    rcases List.append_of_mem member with ⟨past, future, split⟩
    exact (Trace.run_history (fun _ _ => True)
      (fun _ (event : Trace.Event SdoServer (ObjectDictionary N × SdoPayload)
        (Option SdoPayload)) =>
          event.output = none ↔ event.input.2.get 0 >>> 5 = (0b100 : UInt8)) trivial
      (fun _ _ _ _ _ _ taken => ⟨trivial, serveRequest_quiet_iff taken⟩) ran).2
      past event future split

end CanOpen
