import CanOpen.Node.Traffic
import CanOpen.Sdo.Read
import CanOpen.Sdo.Segments
import CanOpen.Sdo.Write

/-! # Transfers amid other traffic

An SDO transfer driven through a node, with any other frames between its requests,
simulates the transfer against the server alone.
-/

namespace CanOpen

open Sdo (SdoServer SdoPayload SdoClient SdoEvent Exchange Host)
open ObjectDictionary (SameShape)

variable {N : Nat}

/-! ## Other traffic -/

/-- An NMT frame that, if it addresses the node, commands it to one of the states
in which SDO is served. -/
def KeepsServing (nodeId : NodeId) (data : List UInt8) : Prop :=
  ∀ (frame : NmtCommandFrame) (rest : List UInt8) (command : NmtCommand) (target : NodeId),
    data = frame.toList ++ rest → decodeCommand frame = .ok (command, target) →
    target = .broadcast ∨ target = nodeId →
    command = .startRemoteNode ∨ command = .enterPreOperational

theorem KeepsServing.of_fromByte {nodeId : NodeId} {byte : UInt8} {command : NmtCommand}
    (rest : List UInt8) (decodes : NmtCommand.fromByte byte = .ok command)
    (serves : command = .startRemoteNode ∨ command = .enterPreOperational) :
    KeepsServing nodeId (byte :: rest) := by
  intro frame tail other target data decoded _
  have first : frame[0] = byte := by
    have heads := congrArg (fun bytes : List UInt8 => bytes[0]?) data
    simpa [List.getElem?_append] using heads.symm
  have same := fromByte_of_decodeCommand decoded
  rw [first, decodes, Except.ok.injEq] at same
  exact same ▸ serves

/-- A frame that is no SDO request to the node and keeps it serving SDO. -/
structure Unrelated (node : Node N) (frame : UInt16 × List UInt8) : Prop where
  noRequest : frame.1 ≠ node.sdo.requestCobId
  keeps : frame.1 = nmtCommandCobId → KeepsServing node.nodeId frame.2

namespace Node

structure ServesAs (origin node : Node N) : Prop where
  server : node.sdo.node = origin.sdo.node
  nodeId : node.nodeId = origin.nodeId
  serving : node.Serving
  configured : node.lssUnconfigured = false

theorem receive_unrelated {origin node : Node N} {frame : UInt16 × List UInt8}
    (serves : ServesAs origin node) (unrelated : Unrelated origin frame) :
    ∃ after tx, node.receive frame = pure (after, tx) ∧ ServesAs origin after ∧
      after.sdo = node.sdo ∧ SameShape node.od after.od := by
  have noRequest : frame.1 ≠ node.sdo.requestCobId := by
    rw [SdoServer.requestCobId, serves.server]
    exact unrelated.noRequest
  rcases onFrame_returns frame.1 frame.2 (fun request => absurd request noRequest) with
    ⟨⟨after, tx⟩, taken⟩
  refine ⟨after, tx, taken, ?_⟩
  cases onFrame_served taken with
  | ignored => exact ⟨serves, rfl, .refl node.od⟩
  | lss before after tx _ enabled _ sameNodeId =>
      have configured : Node.lssUnconfigured { node with lss := some after } = false := by
        have before_ := serves.configured
        rw [lssUnconfigured, enabled, Option.any_some] at before_
        rw [lssUnconfigured, Option.any_some, sameNodeId, before_]
      exact ⟨⟨serves.server, serves.nodeId, serves.serving, configured⟩, rfl, .refl node.od⟩
  | nmt command rest decoded target isNmt _ data decodes addressed =>
      have serving : Node.Serving { node with nmt := node.nmt.apply decoded } := by
        rcases unrelated.keeps isNmt command rest decoded target data decodes
          (serves.nodeId ▸ addressed) with rfl | rfl
        · rcases serves.serving with state | state
          · exact .inr (by rw [Node.state] at state ⊢; simp [NmtStateMachine.apply, state])
          · exact .inr (by rw [Node.state] at state ⊢; simp [NmtStateMachine.apply, state])
        · rcases serves.serving with state | state
          · exact .inl (by rw [Node.state] at state ⊢; simp [NmtStateMachine.apply, state])
          · exact .inl (by rw [Node.state] at state ⊢; simp [NmtStateMachine.apply, state])
      exact ⟨⟨serves.server, serves.nodeId, serving, serves.configured⟩, rfl, .refl node.od⟩
  | sdo _ _ _ request => exact absurd request noRequest
  | rpdo slot result od _ _ _ _ _ unpacks =>
      exact ⟨⟨serves.server, serves.nodeId, serves.serving, serves.configured⟩, rfl,
        (masterChange_unpack unpacks).sameShape⟩

theorem run_unrelated {origin node : Node N} {frames : List (UInt16 × List UInt8)}
    (serves : ServesAs origin node) (unrelated : ∀ frame ∈ frames, Unrelated origin frame) :
    ∃ events after, Trace.run receive node frames = pure (events, after) ∧
      ServesAs origin after ∧ after.sdo = node.sdo ∧ SameShape node.od after.od := by
  refine Trace.run_total (fun state : Node N => ServesAs origin state ∧
    state.sdo = node.sdo ∧ SameShape node.od state.od) frames ⟨serves, rfl, .refl node.od⟩ ?_
  rintro state frame member ⟨servesState, sameServer, shape⟩
  rcases receive_unrelated servesState (unrelated frame member) with
    ⟨after, tx, taken, servesAfter, keptServer, keptShape⟩
  exact ⟨after, tx, taken, servesAfter, keptServer.trans sameServer, shape.trans keptShape⟩

/-! ## Requests -/

def responseOf (cobId : UInt16) (frame : TxFrame) : Option SdoPayload :=
  if frame.cobId = cobId ∧ frame.len = 8 then some frame.data else none

theorem onFrame_serves {node : Node N} (serving : node.Serving)
    (configured : node.lssUnconfigured = false) {data : List UInt8} {req resp : SdoPayload}
    (padded : padFrame data = pure req) {handled : Sdo.Handled N}
    (handles : node.sdo.handle node.od req = pure handled)
    (responds : handled.response = some resp) :
    ∃ tx, node.onFrame node.sdo.requestCobId data =
        pure ({ node with sdo := handled.server, od := handled.od }, some tx) ∧
      tx.cobId = node.sdo.responseCobId ∧ tx.len = 8 ∧ tx.data = resp := by
  rcases requestCobId_ne node.sdo.node with ⟨notNmt, notLss⟩
  have active : ¬ (node.state ≠ .preOperational ∧ node.state ≠ .operational) := by
    rintro ⟨notPre, notOperational⟩
    rcases serving with state | state
    · exact notPre state
    · exact notOperational state
  have sameNode : handled.server.node = node.sdo.node :=
    (SdoServer.handle_effect handles).node
  rcases TxFrame.new_of_response handled.server.responseCobId resp with
    ⟨tx, built, sameId, length, data⟩
  refine ⟨tx, ?_, ?_, length, data⟩
  · rw [onFrame, if_neg (show node.sdo.requestCobId ≠ _ from notLss), configured]
    simp only [Bool.false_eq_true, if_false]
    rw [if_neg (show node.sdo.requestCobId ≠ _ from notNmt)]
    simp only [if_true]
    rw [onSdo, if_neg active, if_neg (Nat.not_lt.mpr (short_of_padFrame padded)), padded,
      pure_bind, handles, pure_bind]
    simp only [responds, built, pure_bind]
  · rw [sameId, SdoServer.responseCobId, sameNode, SdoServer.responseCobId]

theorem onFrame_request {node : Node N} (serving : node.Serving)
    (configured : node.lssUnconfigured = false) {req resp : SdoPayload}
    {handled : Sdo.Handled N} (handles : node.sdo.handle node.od req = pure handled)
    (responds : handled.response = some resp) :
    ∃ tx, node.onFrame node.sdo.requestCobId req.toList =
        pure ({ node with sdo := handled.server, od := handled.od }, some tx) ∧
      responseOf node.sdo.responseCobId tx = some resp := by
  rcases onFrame_serves serving configured (padFrame_toList req) handles responds with
    ⟨tx, taken, sameId, length, data⟩
  exact ⟨tx, taken, by rw [responseOf, if_pos ⟨sameId, length⟩, data]⟩

def serveAmid (frames : Nat → List (UInt16 × List UInt8)) (position : Nat) (node : Node N)
    (req : SdoPayload) : Exec (Node N × Option SdoPayload) := do
  let (_, node) ← Trace.run receive node (if position = 0 then [] else frames position)
  let (after, tx) ← node.onFrame node.sdo.requestCobId req.toList
  pure (after, tx.bind (responseOf node.sdo.responseCobId))

end Node

/-! ## The simulation -/

/-- After the initiate the client has sent a segment request, and the last one if
only its confirmation is missing. -/
structure Pending (client : SdoClient) (frame : SdoPayload) : Prop where
  segment : SdoServer.IsSegmentRequest frame
  last : SdoClient.Sent client.state → frame.get 0 &&& Sdo.csMask = Sdo.ccsDownloadSegment ∧
    (Sdo.segmentOf frame).last = true

theorem pending_of_answer {client after : SdoClient} {resp frame : SdoPayload}
    (answer : SdoClient.Answer client resp (after, .send frame)) : Pending after frame := by
  cases answer with
  | finished _ quiet => exact absurd rfl (quiet frame)
  | polled dataType buf toggle =>
      refine ⟨.inr (Sdo.encodeUploadSegmentRequest_fields toggle).1, fun sent => ?_⟩
      cases sent
  | delivered data len pos toggle p _ specifier last =>
      refine ⟨.inl specifier, fun sent => ⟨specifier, ?_⟩⟩
      cases sent with
      | downloadSeg _ _ _ _ all => exact last all

/-- The transfer through the node stands where the one with the server alone does. -/
structure Isolated (origin : Node N) (alone : Exchange (Host N)) (amid : Exchange (Node N)) :
    Prop where
  client : amid.client = alone.client
  event : amid.event = alone.event
  replies : amid.replies = alone.replies
  server : amid.peer.sdo = alone.peer.server
  serves : Node.ServesAs origin amid.peer
  shape : SameShape alone.peer.od amid.peer.od
  fresh : alone.replies = [] → amid.peer.od = alone.peer.od
  pending : alone.replies ≠ [] → ∀ frame, alone.event = .send frame →
    Pending alone.client frame
  written : alone.event = .complete none → ∀ addr,
    alone.peer.server.lastWrite = some addr →
      alone.peer.od.entry addr = amid.peer.od.entry addr

variable {origin : Node N} {frames : Nat → List (UInt16 × List UInt8)}
  {alone next : Exchange (Host N)} {amid : Exchange (Node N)}

/-- The frames before the next request leave the server as it was, and before
the first request there are none. -/
theorem Isolated.between (isolated : Isolated origin alone amid)
    (unrelated : ∀ position, ∀ frame ∈ frames position, Unrelated origin frame) :
    ∃ events between, Trace.run Node.receive amid.peer
        (if amid.replies.length = 0 then [] else frames amid.replies.length) =
          pure (events, between) ∧
      Node.ServesAs origin between ∧ between.sdo = alone.peer.server ∧
      SameShape alone.peer.od between.od ∧
      (alone.replies = [] → between.od = alone.peer.od) := by
  by_cases first : alone.replies = []
  · have none : amid.replies.length = 0 := by rw [isolated.replies, first, List.length_nil]
    rw [if_pos none]
    exact ⟨[], amid.peer, rfl, isolated.serves, isolated.server, isolated.shape,
      isolated.fresh⟩
  · have some : amid.replies.length ≠ 0 := by
      rw [isolated.replies]
      exact fun none => first (List.length_eq_zero_iff.mp none)
    rw [if_neg some]
    rcases Node.run_unrelated isolated.serves (unrelated amid.replies.length) with
      ⟨events, between, ran, serves, sameServer, shape⟩
    exact ⟨events, between, ran, serves, sameServer.trans isolated.server,
      isolated.shape.trans shape, fun none => absurd none first⟩

theorem Isolated.handled (isolated : Isolated origin alone amid) {frame : SdoPayload}
    (sends : alone.event = .send frame) {out : Sdo.Handled N}
    (handles : alone.peer.server.handle alone.peer.od frame = pure out)
    {od : ObjectDictionary N} (shape : SameShape alone.peer.od od)
    (fresh : alone.replies = [] → od = alone.peer.od) :
    ∃ outAmid, alone.peer.server.handle od frame = pure outAmid ∧
      outAmid.server = out.server ∧ outAmid.response = out.response ∧
      SameShape out.od outAmid.od ∧
      ∀ resp client, out.response = some resp →
        alone.client.onResponse resp = pure (client, .complete none) →
        ∀ addr, out.server.lastWrite = some addr →
          out.od.entry addr = outAmid.od.entry addr := by
  by_cases first : alone.replies = []
  · rw [fresh first]
    exact ⟨out, handles, rfl, rfl, .refl out.od, fun _ _ _ _ _ _ => rfl⟩
  · have pending := isolated.pending first frame sends
    rcases SdoServer.handle_agrees shape pending.segment handles with
      ⟨outAmid, handlesAmid, agrees⟩
    refine ⟨outAmid, handlesAmid, agrees.server, agrees.response, agrees.shape, ?_⟩
    intro resp client responds answered
    rcases SdoClient.Answer.confirmed (SdoClient.onResponse_answer answered) with
      ⟨notAbort, sent⟩
    rcases pending.last sent with ⟨download, last⟩
    refine agrees.written download last fun other otherResponds => ?_
    rw [responds, Option.some.injEq] at otherResponds
    exact otherResponds ▸ notAbort

theorem Isolated.step (isolated : Isolated origin alone amid)
    (unrelated : ∀ position, ∀ frame ∈ frames position, Unrelated origin frame)
    (taken : alone.turn (Host.serve Host.undisturbed) = pure (some next)) :
    ∃ answer, amid.turn (Node.serveAmid frames) = pure (some answer) ∧
      Isolated origin next answer := by
  rcases Exchange.turn_eq_some_iff.mp taken with
    ⟨frame, peer, resp, client, event, sends, served, answered, rfl⟩
  rw [Host.serve, Exec.bind_eq_pure_iff] at served
  rcases served with ⟨out, handles, served⟩
  rw [Exec.pure_inj, Prod.mk.injEq] at served
  rcases served with ⟨rfl, responds⟩
  rcases isolated.between unrelated with ⟨events, between, ran, serves, sameServer, shape, fresh⟩
  rcases isolated.handled sends handles shape fresh with
    ⟨outAmid, handlesAmid, sameOut, sameResponse, sameShape, written⟩
  rw [← sameServer] at handlesAmid
  rcases Node.onFrame_request serves.serving serves.configured handlesAmid
    (sameResponse.trans responds) with ⟨tx, answers, carries⟩
  have servedAmid : Node.serveAmid frames amid.replies.length amid.peer frame =
      pure ({ between with sdo := outAmid.server, od := outAmid.od }, some resp) := by
    simp only [Node.serveAmid, ran, pure_bind, answers, Option.bind_some, carries]
  have answeredAmid : amid.client.onResponse resp = pure (client, event) := by
    rw [isolated.client, answered]
  have kept : outAmid.server.node = origin.sdo.node :=
    (SdoServer.handle_effect handlesAmid).node.trans serves.server
  refine ⟨_, Exchange.turn_send (isolated.event.trans sends) servedAmid answeredAmid, ?_⟩
  exact {
    client := rfl
    event := rfl
    replies := congrArg (· ++ [resp]) isolated.replies
    server := sameOut
    serves := ⟨kept, serves.nodeId, serves.serving, serves.configured⟩
    shape := sameShape
    fresh := fun none => absurd none (by simp)
    pending := by
      intro _ frame sends
      simp only at sends
      subst sends
      exact pending_of_answer (SdoClient.onResponse_answer answered)
    written := by
      intro complete
      simp only at complete
      subst complete
      exact written resp client responds answered }

/-! ## Whole transfers -/

/-- Driven through a node amid `frames`, the transfer ends after as many requests as
with the server alone, with the same replies and the same result. -/
structure EndsAlike (frames : Nat → List (UInt16 × List UInt8)) (begun : Exchange (Host N))
    (amid : Exchange (Node N)) (requests : Nat) (alone : Exchange (Host N))
    (final : Exchange (Node N)) : Prop where
  endsAlone : Loop.Ends (Exchange.turn (Host.serve Host.undisturbed)) begun requests alone
  endsAmid : Loop.Ends (Exchange.turn (Node.serveAmid frames)) amid requests final
  replies : final.replies = alone.replies
  event : final.event = alone.event
  client : final.client = alone.client

theorem ends_alike {node : Node N} (serving : node.Serving)
    (configured : node.lssUnconfigured = false)
    (unrelated : ∀ position, ∀ frame ∈ frames position, Unrelated node frame)
    {client : SdoClient} {frame : SdoPayload} {requests : Nat} {alone : Exchange (Host N)}
    (ends : Loop.Ends (Exchange.turn (Host.serve Host.undisturbed))
      ⟨client, ⟨node.sdo, node.od⟩, .send frame, []⟩ requests alone) :
    ∃ final, EndsAlike frames ⟨client, ⟨node.sdo, node.od⟩, .send frame, []⟩
        ⟨client, node, .send frame, []⟩ requests alone final ∧ Isolated node alone final := by
  have start : Isolated node ⟨client, ⟨node.sdo, node.od⟩, .send frame, []⟩
      ⟨client, node, .send frame, []⟩ := {
    client := rfl
    event := rfl
    replies := rfl
    server := rfl
    serves := ⟨rfl, rfl, serving, configured⟩
    shape := .refl node.od
    fresh := fun _ => rfl
    pending := fun some => absurd rfl some
    written := fun complete => by cases complete }
  have stop : ∀ (alone : Exchange (Host N)) (amid : Exchange (Node N)),
      Isolated node alone amid → alone.turn (Host.serve Host.undisturbed) = pure none →
      amid.turn (Node.serveAmid frames) = pure none := by
    intro alone amid isolated done
    rw [Exchange.turn_eq_none_iff] at done ⊢
    rw [isolated.event]
    exact done
  rcases ends.simulated (fun _ _ _ isolated taken => isolated.step unrelated taken) stop start with
    ⟨final, endsAmid, isolated⟩
  exact ⟨final, ⟨ends, endsAmid, isolated.replies, isolated.event, isolated.client⟩, isolated⟩

/-- Frames that are no SDO requests, received between the requests of a transfer,
change neither its replies nor its result, as long as the node keeps serving: a read
completes with the value at the first request, and a write that completes has left
its value in the object. -/
theorem transfers_isolated (node : Node N) (serving : node.Serving)
    (configured : node.lssUnconfigured = false)
    (frames : Nat → List (UInt16 × List UInt8))
    (unrelated : ∀ position, ∀ frame ∈ frames position, Unrelated node frame)
    (client : SdoClient) (addr : Address) :
    (∀ dataType, ∃ requests alone final,
      EndsAlike frames (Exchange.read client ⟨node.sdo, node.od⟩ addr dataType)
        (Exchange.read client node addr dataType) requests alone final ∧
      Sdo.ReadOutcome node.od addr dataType final.event) ∧
    (∀ value, ∃ begun amid requests alone final,
      Exchange.write client ⟨node.sdo, node.od⟩ addr value = pure begun ∧
      Exchange.write client node addr value = pure amid ∧
      EndsAlike frames begun amid requests alone final ∧
      Sdo.WriteOutcome node.od addr value requests alone ∧
      (final.event = .complete none → ∀ entry, node.od.entry addr = some entry →
        entry.value.dataType = value.dataType →
        final.peer.od.entry addr = some { entry with value })) := by
  constructor
  · intro dataType
    rcases (Sdo.read_ends client node.sdo node.od addr dataType Host.undisturbed).1 with
      ⟨requests, alone, ends, _, outcome⟩
    rcases ends_alike serving configured unrelated ends with ⟨final, alike, _⟩
    exact ⟨requests, alone, final, alike, alike.event ▸ outcome⟩
  · intro value
    rcases Sdo.write_ends client node.sdo node.od addr value with
      ⟨begun, requests, alone, starts, ends, _, outcome⟩
    rw [Exchange.write, Exec.bind_eq_pure_iff] at starts
    rcases starts with ⟨⟨started, frame⟩, writes, starts⟩
    rw [Exec.pure_inj] at starts
    subst starts
    rcases ends_alike serving configured unrelated ends with ⟨final, alike, isolated⟩
    refine ⟨_, ⟨started, node, .send frame, []⟩, requests, alone, final, ?_, ?_, alike,
      outcome, ?_⟩
    · rw [Exchange.write, writes, pure_bind]
    · rw [Exchange.write, writes, pure_bind]
    · intro complete entry present sameType
      rw [isolated.event] at complete
      rcases outcome.completed complete present sameType with ⟨content, recorded⟩
      rw [← isolated.written complete addr recorded, content]

/-- A receive PDO overwrites the object that is being transferred, and the node is
sent back to pre-operational. -/
theorem transfers_isolated_mapped_object :
    let addr : Address := ⟨0x2000, 0⟩
    let od : ObjectDictionary 1 := ⟨[(addr, ⟨.unsigned64 7, .rw⟩)], by simp, by simp⟩
    let mapping : PdoMapping maxPdoMapping := ⟨⟨[⟨addr, 64⟩], by decide⟩, by decide⟩
    let node : Node 1 := { Node.new ⟨5, by decide⟩ od with
      nmt := ⟨.operational⟩, rpdos := ⟨[⟨0x205, mapping⟩], by decide⟩ }
    let frames (_ : Nat) : List (UInt16 × List UInt8) :=
      [(0x205, [1, 2, 3, 4, 5, 6, 7, 8]), (nmtCommandCobId, [0x80, 5])]
    (∀ dataType, ∃ requests alone final,
      EndsAlike frames (Exchange.read (.new ⟨5, by decide⟩) ⟨node.sdo, node.od⟩ addr dataType)
        (Exchange.read (.new ⟨5, by decide⟩) node addr dataType) requests alone final ∧
      Sdo.ReadOutcome node.od addr dataType final.event) ∧
    (∀ value, ∃ begun amid requests alone final,
      Exchange.write (.new ⟨5, by decide⟩) ⟨node.sdo, node.od⟩ addr value = pure begun ∧
      Exchange.write (.new ⟨5, by decide⟩) node addr value = pure amid ∧
      EndsAlike frames begun amid requests alone final ∧
      Sdo.WriteOutcome node.od addr value requests alone ∧
      (final.event = .complete none → ∀ entry, node.od.entry addr = some entry →
        entry.value.dataType = value.dataType →
        final.peer.od.entry addr = some { entry with value })) := by
  refine transfers_isolated _ (.inr rfl) rfl _ ?_ (.new ⟨5, by decide⟩) _
  intro position frame member
  rw [List.mem_cons, List.mem_singleton] at member
  rcases member with rfl | rfl
  · exact ⟨by decide, fun isNmt => absurd isNmt (by decide)⟩
  · exact ⟨by decide, fun _ => .of_fromByte [5] (show NmtCommand.fromByte 0x80 = _ from rfl)
      (.inr rfl)⟩

end CanOpen
