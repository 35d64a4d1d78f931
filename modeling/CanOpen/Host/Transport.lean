import CanOpen.Node.Isolation

/-! # The transport of the host

Frames are sent to the bus and awaited from it through a socket, which delivers all traffic and
from which an SDO transaction picks the replies of its server.
-/

namespace CanOpen

open Sdo (SdoClient SdoEvent SdoPayload SdoServer Exchange Host)

/-! ## Frames of the driver -/

inductive CanId where
  | standard (raw : UInt16)
  | extended (raw : UInt32)
  deriving DecidableEq, Repr

inductive CanFrameKind where
  | data
  | remote
  | error
  deriving DecidableEq, Repr

structure CanFrame where
  kind : CanFrameKind
  id : CanId
  data : List UInt8
  deriving DecidableEq, Repr

namespace CanFrame

def frameFrom (cobId : UInt16) (data : List UInt8) : Option CanFrame :=
  if cobId ≤ 0x7FF then
    if data.length ≤ 8 then some ⟨.data, .standard cobId, data⟩ else none
  else none

def cobId (frame : CanFrame) : Option UInt16 :=
  match frame.id with
  | .standard raw => some raw
  | .extended _ => none

def isDataFrame (frame : CanFrame) : Bool := frame.kind = .data

end CanFrame

structure Received where
  cobId : UInt16
  data : Vector UInt8 8
  len : Nat
  deriving DecidableEq, Repr

namespace Received

def new (cobId : UInt16) (bytes : List UInt8) : Exec Received := do
  let len := min bytes.length 8
  let source ← Exec.slice bytes 0 len
  let data ← Exec.overwrite (Vector.replicate 8 0) 0 len source
  pure ⟨cobId, data, len⟩

theorem new_returns (cobId : UInt16) (bytes : List UInt8) :
    ∃ received, new cobId bytes = pure received ∧ received.cobId = cobId ∧
      received.data.toList = bytes.take 8 ++ List.replicate (8 - bytes.length) 0 := by
  have window : Exec.slice bytes 0 (min bytes.length 8) = pure (bytes.take 8) := by
    rw [Exec.slice_of_le _ (Nat.zero_le _) (Nat.min_le_left _ _), List.drop_zero,
      List.take_eq_take_iff.mpr]
    omega
  have length : 0 + (bytes.take 8).length = min bytes.length 8 := by
    rw [List.length_take]
    omega
  have copied := Exec.overwrite_of_le (Vector.replicate 8 (0 : UInt8)) length
    (Nat.min_le_right _ _)
  refine ⟨⟨cobId, Exec.splice (Vector.replicate 8 0) 0 (bytes.take 8) ?_, min bytes.length 8⟩,
    ?_, rfl, ?_⟩
  · rw [length]
    exact Nat.min_le_right _ _
  · rw [new, window, pure_bind, copied, pure_bind]
  · rw [Exec.toList_splice, length, Vector.toList_replicate, List.take_zero, List.nil_append,
      List.drop_replicate]
    congr 2
    omega

theorem new_payload (cobId : UInt16) (reply : SdoPayload) :
    ∃ received, new cobId reply.toList = pure received ∧ received.cobId = cobId ∧
      received.data = reply := by
  rcases new_returns cobId reply.toList with ⟨received, taken, sameId, data⟩
  refine ⟨received, taken, sameId, ?_⟩
  rw [← Vector.toList_inj, data, List.take_of_length_le (by simp)]
  simp

def bytes (received : Received) : Exec (List UInt8) :=
  Exec.slice received.data.toList 0 received.len

def payload (received : Received) : SdoPayload := received.data

end Received

/-! ## The socket -/

inductive IoError where
  | invalidInput (message : String)
  | wouldBlock
  deriving DecidableEq, Repr

inductive SdoError where
  | io (error : IoError)
  | aborted (code : UInt32)
  | noValue
  deriving DecidableEq, Repr

/-- A bus as it is seen through a socket: what arrives in answer to a frame, and before the next
one is sent. -/
abbrev Bus (σ : Type) := σ → CanFrame → Exec (σ × List CanFrame)

/-- A socket with the frames that have arrived and have not been read. Reading one that has none
runs into the timeout. -/
structure SocketCan (σ : Type) where
  bus : σ
  arrived : List CanFrame

namespace SocketCan

variable {σ : Type} (carry : Bus σ)

def send (socket : SocketCan σ) (cobId : UInt16) (data : List UInt8) :
    Exec (Except IoError (SocketCan σ)) :=
  match CanFrame.frameFrom cobId data with
  | none => pure (.error (.invalidInput "invalid COB-ID or over-long data"))
  | some frame => do
      let (bus, arriving) ← carry socket.bus frame
      pure (.ok ⟨bus, socket.arrived ++ arriving⟩)

/-- The next data frame with a COB-ID among the frames that have arrived, and those after it. -/
def recv : List CanFrame → Exec (Except IoError (Received × List CanFrame))
  | [] => pure (.error .wouldBlock)
  | frame :: later =>
      if frame.isDataFrame then
        match frame.cobId with
        | none => recv later
        | some cobId => do
            let received ← Received.new cobId frame.data
            pure (.ok (received, later))
      else recv later

theorem length_of_recv {frames later : List CanFrame} {received : Received}
    (reads : recv frames = pure (.ok (received, later))) : later.length < frames.length := by
  induction frames with
  | nil => cases reads
  | cons frame frames induction =>
      unfold recv at reads
      split at reads
      · split at reads
        · exact Nat.lt_succ_of_lt (induction reads)
        · rw [Exec.bind_eq_pure_iff] at reads
          rcases reads with ⟨_, _, ⟨⟩⟩
          exact Nat.lt_succ_self _
      · exact Nat.lt_succ_of_lt (induction reads)

def recvOn (cobId : UInt16) (frames : List CanFrame) :
    Exec (Except IoError (Received × List CanFrame)) :=
  match _ : recv frames with
  | .error panic => throw panic
  | .ok (.error error) => pure (.error error)
  | .ok (.ok (received, later)) =>
      if received.cobId = cobId then pure (.ok (received, later)) else recvOn cobId later
  termination_by frames.length
  decreasing_by exact length_of_recv (by assumption)

def sendNmt (socket : SocketCan σ) (command : NmtCommand) (target : NodeId) :
    Exec (Except IoError (SocketCan σ)) :=
  socket.send carry nmtCommandCobId (encodeCommand command target).toList

/-! ## Skipping frames -/

/-- A frame that one who waits for a COB-ID never sees: it is remote, an error, extended or on
another COB-ID. -/
def Skips (cobId : UInt16) (frame : CanFrame) : Prop :=
  frame.isDataFrame = true → frame.cobId ≠ some cobId

theorem recvOn_of_skips {cobId : UInt16} {frame : CanFrame} (skips : Skips cobId frame)
    (later : List CanFrame) : recvOn cobId (frame :: later) = recvOn cobId later := by
  by_cases isData : frame.isDataFrame = true
  · cases identified : frame.cobId with
    | none =>
        have reads : recv (frame :: later) = recv later := by simp [recv, isData, identified]
        rw [recvOn, recvOn, reads]
    | some other =>
        rcases Received.new_returns other frame.data with ⟨received, taken, sameId, -⟩
        have reads : recv (frame :: later) = pure (.ok (received, later)) := by
          simp [recv, isData, identified, taken]
        have different : received.cobId ≠ cobId := by
          rintro rfl
          exact skips isData (identified.trans (congrArg some sameId.symm))
        rw [recvOn, reads]
        exact if_neg different
  · have reads : recv (frame :: later) = recv later := by simp [recv, isData]
    rw [recvOn, recvOn, reads]

theorem recvOn_of_all_skip {cobId : UInt16} {frames : List CanFrame}
    (skip : ∀ frame ∈ frames, Skips cobId frame) (later : List CanFrame) :
    recvOn cobId (frames ++ later) = recvOn cobId later := by
  induction frames with
  | nil => rfl
  | cons frame frames induction =>
      rw [List.cons_append, recvOn_of_skips (skip frame List.mem_cons_self)]
      exact induction fun other member => skip other (List.mem_cons_of_mem frame member)

theorem recvOn_reply (cobId : UInt16) (reply : SdoPayload) (later : List CanFrame) :
    ∃ received, recvOn cobId (⟨.data, .standard cobId, reply.toList⟩ :: later) =
        pure (.ok (received, later)) ∧ received.payload = reply := by
  rcases Received.new_payload cobId reply with ⟨received, taken, sameId, carried⟩
  refine ⟨received, ?_, carried⟩
  have reads : recv (⟨.data, .standard cobId, reply.toList⟩ :: later) =
      pure (.ok (received, later)) := by
    simp [recv, CanFrame.isDataFrame, CanFrame.cobId, taken]
  rw [recvOn, reads]
  exact if_pos sameId

theorem recvOn_reply_amid {cobId : UInt16} {arrived front : List CanFrame}
    (quiet : ∀ frame ∈ arrived, Skips cobId frame) (skip : ∀ frame ∈ front, Skips cobId frame)
    (reply : SdoPayload) (later : List CanFrame) :
    ∃ received, recvOn cobId
        (arrived ++ (front ++ [⟨.data, .standard cobId, reply.toList⟩] ++ later)) =
        pure (.ok (received, later)) ∧ received.payload = reply := by
  rw [recvOn_of_all_skip quiet, List.append_assoc, recvOn_of_all_skip skip]
  exact recvOn_reply cobId reply later

end SocketCan

/-! ## Operations -/

theorem Sdo.SdoClient.write_node {client started : SdoClient} {addr : Address} {value : Value}
    {frame : SdoPayload} (starts : client.write addr value = pure (started, frame)) :
    started.node = client.node := by
  unfold Sdo.SdoClient.write at starts
  simp only at starts
  split at starts
  · simp only [Exec.bind_eq_pure_iff] at starts
    rcases starts with ⟨_, _, _, _, ⟨⟩⟩
    rfl
  · simp only [Exec.bind_eq_pure_iff] at starts
    rcases starts with ⟨_, _, _, _, ⟨⟩⟩
    rfl

theorem Sdo.SdoClient.onResponse_node {client after : SdoClient} {resp : SdoPayload}
    {event : SdoEvent} (answered : client.onResponse resp = pure (after, event)) :
    after.node = client.node := by
  have answer := Sdo.SdoClient.onResponse_answer answered
  generalize same : (after, event) = out at answer
  cases answer <;> cases same <;> rfl

inductive Operation where
  | read (addr : Address) (dataType : DataType)
  | write (addr : Address) (value : Value)

namespace Operation

variable {N : Nat}

def start (client : SdoClient) : Operation → Exec (SdoClient × SdoPayload)
  | read addr dataType => pure (client.read addr dataType)
  | write addr value => client.write addr value

def Outcome (od : ObjectDictionary N) (requests : Nat) (final : Exchange (Host N)) :
    Operation → Prop
  | read addr dataType => Sdo.ReadOutcome od addr dataType final.event
  | write addr value => Sdo.WriteOutcome od addr value requests final

theorem ends (client : SdoClient) (operation : Operation) :
    ∃ started frame, operation.start client = pure (started, frame) ∧
      started.node = client.node ∧
      ∀ (server : SdoServer) (od : ObjectDictionary N), ∃ requests final,
        Loop.Ends (Exchange.turn (Host.serve Host.undisturbed))
          ⟨started, ⟨server, od⟩, .send frame, []⟩ requests final ∧
        operation.Outcome od requests final := by
  cases operation with
  | read addr dataType =>
      refine ⟨_, _, rfl, rfl, fun server od => ?_⟩
      rcases (Sdo.read_ends client server od addr dataType Host.undisturbed).1 with
        ⟨requests, final, ends, _, outcome⟩
      exact ⟨requests, final, ends, outcome⟩
  | write addr value =>
      rcases Sdo.write_initiate client addr value with ⟨started, frame, starts, -⟩
      refine ⟨started, frame, starts, Sdo.SdoClient.write_node starts, fun server od => ?_⟩
      rcases Sdo.write_ends client server od addr value with
        ⟨begun, requests, final, begins, ends, _, outcome⟩
      rw [Exchange.write, starts, pure_bind, Exec.pure_inj] at begins
      subst begins
      exact ⟨requests, final, ends, outcome⟩

end Operation

/-! ## Transactions -/

/-- A transaction of a host: the request that its client sends next, or what it came to, and the
error of the socket that has ended it. -/
structure Transaction (σ : Type) where
  client : SdoClient
  event : SdoEvent
  socket : SocketCan σ
  error : Option IoError

def returned : SdoEvent → Except SdoError (Option Value)
  | .complete value => .ok value
  | .aborted code => .error (.aborted code)
  | .send _ => .error .noValue

def readValue (result : Except SdoError (Option Value)) : Except SdoError Value :=
  result.bind fun value => value.elim (.error .noValue) .ok

namespace Transaction

variable {σ : Type} (carry : Bus σ)

def turn (transaction : Transaction σ) : Exec (Option (Transaction σ)) :=
  match transaction.error, transaction.event with
  | none, .send request => do
      match ← transaction.socket.send carry transaction.client.requestCobId request.toList with
      | .error error => pure (some { transaction with error := some error })
      | .ok socket =>
          match ← SocketCan.recvOn transaction.client.responseCobId socket.arrived with
          | .error error =>
              pure (some { transaction with socket := ⟨socket.bus, []⟩, error := some error })
          | .ok (reply, later) => do
              let (client, event) ← transaction.client.onResponse reply.payload
              pure (some ⟨client, event, ⟨socket.bus, later⟩, none⟩)
  | _, _ => pure none

def result (transaction : Transaction σ) : Except SdoError (Option Value) :=
  match transaction.error with
  | some error => .error (.io error)
  | none => returned transaction.event

end Transaction

namespace SocketCan

variable {σ : Type} (carry : Bus σ)

def transact (fuel : Nat) (socket : SocketCan σ) (client : SdoClient) (request : SdoPayload) :
    Exec (Option (Except SdoError (Option Value) × SocketCan σ)) := do
  match ← Loop.run (Transaction.turn carry) fuel ⟨client, .send request, socket, none⟩ with
  | none => pure none
  | some (_, ended) => pure (some (ended.result, ended.socket))

def sdoRead (fuel : Nat) (socket : SocketCan σ) (node : NodeId) (addr : Address)
    (dataType : DataType) : Exec (Option (Except SdoError Value × SocketCan σ)) := do
  let (client, request) := (SdoClient.new node).read addr dataType
  let ended ← socket.transact carry fuel client request
  pure (ended.map fun (result, socket) => (readValue result, socket))

def sdoWrite (fuel : Nat) (socket : SocketCan σ) (node : NodeId) (addr : Address)
    (value : Value) : Exec (Option (Except SdoError Unit × SocketCan σ)) := do
  let (client, request) ← (SdoClient.new node).write addr value
  let ended ← socket.transact carry fuel client request
  pure (ended.map fun (result, socket) => (result.map fun _ => (), socket))

end SocketCan

/-! ## A bus with a node -/

/-- What goes on around the transaction of a host with a node: what the node receives before each
request but the first, and what arrives at the host in front of and behind each reply, and had
arrived there before. -/
structure Surroundings where
  frames : Nat → List (UInt16 × List UInt8)
  noise : Nat → List CanFrame × List CanFrame
  stale : List CanFrame

/-- The node receives no other SDO request and no NMT command that takes it out of service, and the
host no other data frame on the response COB-ID. -/
structure Surroundings.Apart {N : Nat} (around : Surroundings) (node : Node N) : Prop where
  frames : ∀ position, ∀ frame ∈ around.frames position, Unrelated node frame
  noise : ∀ position,
    (∀ frame ∈ (around.noise position).1, SocketCan.Skips node.sdo.responseCobId frame) ∧
      ∀ frame ∈ (around.noise position).2, SocketCan.Skips node.sdo.responseCobId frame
  stale : ∀ frame ∈ around.stale, SocketCan.Skips node.sdo.responseCobId frame

def servedBus {N : Nat} (around : Surroundings) : Bus (Nat × Node N) :=
  fun (position, node) frame => do
    let (_, node) ← Trace.run Node.receive node
      (if position = 0 then [] else around.frames position)
    match frame.cobId with
    | none => pure ((position, node), [])
    | some cobId => do
        let (after, tx) ← node.onFrame cobId frame.data
        let replies ← tx.toList.mapM fun reply => do
          let data ← reply.payload
          pure (⟨.data, .standard reply.cobId, data⟩ : CanFrame)
        pure ((position + 1, after),
          (around.noise position).1 ++ replies ++ (around.noise position).2)

section

variable {N : Nat} {origin : Node N} {around : Surroundings}

theorem Node.reply_of_responseOf {tx : Option TxFrame} {cobId : UInt16} {resp : SdoPayload}
    (responds : tx.bind (Node.responseOf cobId) = some resp) :
    ∃ reply, tx = some reply ∧ reply.cobId = cobId ∧ reply.payload = pure resp.toList := by
  rw [Option.bind_eq_some_iff] at responds
  rcases responds with ⟨reply, rfl, responds⟩
  rw [Node.responseOf, Option.ite_none_right_eq_some] at responds
  rcases responds with ⟨⟨sameId, full⟩, carries⟩
  rw [Option.some.injEq] at carries
  refine ⟨reply, rfl, sameId, ?_⟩
  rw [reply.payload_eq, full, carries, List.take_of_length_le (by simp)]

theorem Node.run_receive_rpdos {node after : Node N} {frames : List (UInt16 × List UInt8)}
    {events : List (Trace.Event (Node N) (UInt16 × List UInt8) (Option TxFrame))}
    (ran : Trace.run Node.receive node frames = pure (events, after)) :
    after.rpdos = node.rpdos :=
  Trace.run_invariant (fun state => state.rpdos = node.rpdos) rfl
    (fun _ _ _ _ same taken => (onFrame_served taken).pdos.1.trans same) ran

theorem requestCobId_le (node : NodeId) : Sdo.requestCobId node ≤ 0x7FF := by
  have bound : node.raw.toNat ≤ 127 := UInt8.le_iff_toNat_le.mp node.raw_le
  have last : (0x7FF : UInt16).toNat = 0x7FF := rfl
  rw [UInt16.le_iff_toNat_le, requestCobId_toNat, last]
  omega

/-- The transaction of a host stands where the exchange of its client with the node does. -/
structure Carries (origin : Node N) (amid : Exchange (Node N))
    (transaction : Transaction (Nat × Node N)) : Prop where
  client : transaction.client = amid.client
  sameNode : amid.client.node = origin.sdo.node
  event : transaction.event = amid.event
  bus : transaction.socket.bus = (amid.replies.length, amid.peer)
  quiet : ∀ frame ∈ transaction.socket.arrived,
    SocketCan.Skips origin.sdo.responseCobId frame
  noError : transaction.error = none
  rpdos : amid.peer.rpdos = origin.rpdos

/-- A request that is sent to a node that serves is answered amid the noise. -/
theorem send_servedBus {socket : SocketCan (Nat × Node N)} {position : Nat}
    {node after : Node N} {request resp : SdoPayload}
    (serves : Node.ServesAs origin node) (apart : around.Apart origin)
    (bus : socket.bus = (position, node))
    (served : Node.serveAmid around.frames position node request = pure (after, some resp)) :
    socket.send (servedBus around) (Sdo.requestCobId origin.sdo.node) request.toList =
        pure (.ok ⟨(position + 1, after), socket.arrived ++ ((around.noise position).1 ++
          [⟨.data, .standard origin.sdo.responseCobId, resp.toList⟩] ++
            (around.noise position).2)⟩) ∧
      after.rpdos = node.rpdos := by
  rw [Node.serveAmid, Exec.bind_eq_pure_iff] at served
  rcases served with ⟨⟨events, between⟩, ran, served⟩
  rw [Exec.bind_eq_pure_iff] at served
  rcases served with ⟨⟨reached, tx⟩, handled, served⟩
  rw [Exec.pure_inj, Prod.mk.injEq] at served
  rcases served with ⟨rfl, responds⟩
  -- what the node receives before the request leaves its identity alone
  have unrelated : ∀ frame ∈ (if position = 0 then [] else around.frames position),
      Unrelated origin frame := by
    split
    · exact fun _ member => absurd member List.not_mem_nil
    · exact apart.frames position
  rcases Node.run_unrelated serves unrelated with ⟨_, _, again, servesBetween, -⟩
  cases ran.symm.trans again
  have requestId : Sdo.requestCobId origin.sdo.node = between.sdo.requestCobId := by
    rw [SdoServer.requestCobId, servesBetween.server]
  have framed : CanFrame.frameFrom (Sdo.requestCobId origin.sdo.node) request.toList =
      some ⟨.data, .standard between.sdo.requestCobId, request.toList⟩ := by
    rw [requestId, CanFrame.frameFrom,
      if_pos (show between.sdo.requestCobId ≤ 0x7FF from requestCobId_le _), if_pos (by simp)]
  rcases Node.reply_of_responseOf responds with ⟨reply, rfl, replyId, replyData⟩
  have sameId : reply.cobId = origin.sdo.responseCobId := by
    rw [replyId, SdoServer.responseCobId, servesBetween.server]
    rfl
  constructor
  · simp only [SocketCan.send, framed, servedBus, bus, ran, pure_bind, CanFrame.cobId, handled,
      Option.toList_some, List.mapM_cons, List.mapM_nil, replyData, sameId]
  · exact (Node.onFrame_served handled).pdos.1.trans (Node.run_receive_rpdos ran)

theorem Carries.step {amid next : Exchange (Node N)} {transaction : Transaction (Nat × Node N)}
    (carries : Carries origin amid transaction) (serves : Node.ServesAs origin amid.peer)
    (apart : around.Apart origin)
    (taken : amid.turn (Node.serveAmid around.frames) = pure (some next)) :
    ∃ after, transaction.turn (servedBus around) = pure (some after) ∧
      Carries origin next after := by
  rcases Exchange.turn_eq_some_iff.mp taken with
    ⟨request, peer, resp, client, event, sends, served, answered, rfl⟩
  rcases send_servedBus serves apart carries.bus served with ⟨sent, sameSlots⟩
  rcases SocketCan.recvOn_reply_amid carries.quiet (apart.noise amid.replies.length).1 resp
    (around.noise amid.replies.length).2 with ⟨received, awaited, carried⟩
  have requestId : transaction.client.requestCobId = Sdo.requestCobId origin.sdo.node := by
    rw [SdoClient.requestCobId, carries.client, carries.sameNode]
  have responseId : transaction.client.responseCobId = origin.sdo.responseCobId := by
    rw [SdoClient.responseCobId, carries.client, carries.sameNode, SdoServer.responseCobId]
  rw [← requestId] at sent
  rw [← responseId] at awaited
  refine ⟨⟨client, event, ⟨(amid.replies.length + 1, peer),
    (around.noise amid.replies.length).2⟩, none⟩, ?_, ?_⟩
  · rw [← carries.client] at answered
    rw [← responseId] at sent
    simp only [Transaction.turn, carries.noError, carries.event, sends, sent, pure_bind, awaited,
      carried, answered]
  · exact {
      client := rfl
      sameNode := (Sdo.SdoClient.onResponse_node answered).trans carries.sameNode
      event := rfl
      bus := by rw [List.length_append, List.length_singleton]
      quiet := (apart.noise _).2
      noError := rfl
      rpdos := sameSlots.trans carries.rpdos }

theorem transact_ends {node : Node N} (serving : node.Serving)
    (configured : node.lssUnconfigured = false) (apart : around.Apart node)
    {client : SdoClient} (sameNode : client.node = node.sdo.node) {frame : SdoPayload}
    {requests : Nat} {alone : Exchange (Host N)}
    (ends : Loop.Ends (Exchange.turn (Host.serve Host.undisturbed))
      ⟨client, ⟨node.sdo, node.od⟩, .send frame, []⟩ requests alone) :
    ∃ amid socket, Isolated node alone amid ∧ socket.bus = (amid.replies.length, amid.peer) ∧
      amid.peer.rpdos = node.rpdos ∧
      ∀ fuel, requests < fuel →
        SocketCan.transact (servedBus around) fuel ⟨(0, node), around.stale⟩ client frame =
          pure (some (returned alone.event, socket)) := by
  have start : Isolated node ⟨client, ⟨node.sdo, node.od⟩, .send frame, []⟩
      ⟨client, node, .send frame, []⟩ := {
    client := rfl
    event := rfl
    replies := rfl
    server := rfl
    serves := ⟨rfl, rfl, serving, configured⟩
    shape := .refl node.od
    fresh := fun _ => rfl
    pending := fun some => absurd rfl some
    written := fun complete => by cases complete }
  have carried : Carries node ⟨client, node, .send frame, []⟩
      ⟨client, .send frame, ⟨(0, node), around.stale⟩, none⟩ := {
    client := rfl
    sameNode := sameNode
    event := rfl
    bus := rfl
    quiet := apart.stale
    noError := rfl
    rpdos := rfl }
  have related : ∃ amid, Isolated node ⟨client, ⟨node.sdo, node.od⟩, .send frame, []⟩ amid ∧
      Carries node amid ⟨client, .send frame, ⟨(0, node), around.stale⟩, none⟩ :=
    ⟨_, start, carried⟩
  have stop : ∀ (alone : Exchange (Host N)) (transaction : Transaction (Nat × Node N)),
      (∃ amid, Isolated node alone amid ∧ Carries node amid transaction) →
      alone.turn (Host.serve Host.undisturbed) = pure none →
      transaction.turn (servedBus around) = pure none := by
    rintro alone transaction ⟨amid, isolated, carries⟩ done
    rw [Exchange.turn_eq_none_iff] at done
    rw [← isolated.event, ← carries.event] at done
    unfold Transaction.turn
    split
    · next _ request _ sends => exact absurd sends (done request)
    · rfl
  rcases ends.simulated (fun _ _ _ ⟨amid, isolated, carries⟩ taken => by
    rcases isolated.step apart.frames taken with ⟨answer, answered, isolatedNext⟩
    rcases carries.step isolated.serves apart answered with ⟨after, turned, carriesNext⟩
    exact ⟨after, turned, answer, isolatedNext, carriesNext⟩) stop related with
    ⟨final, endsHere, amid, isolated, carries⟩
  refine ⟨amid, final.socket, isolated, carries.bus, carries.rpdos, fun fuel enough => ?_⟩
  rw [SocketCan.transact, endsHere fuel enough, pure_bind]
  simp only [Transaction.result, carries.noError, carries.event, isolated.event]

theorem sdoRead_ends {node : Node N} (serving : node.Serving)
    (configured : node.lssUnconfigured = false) (apart : around.Apart node) (addr : Address)
    (dataType : DataType) :
    ∃ enough event socket, Sdo.ReadOutcome node.od addr dataType event ∧
      ∀ fuel, enough < fuel →
        SocketCan.sdoRead (servedBus around) fuel ⟨(0, node), around.stale⟩ node.sdo.node addr
          dataType = pure (some (readValue (returned event), socket)) := by
  rcases (Operation.read addr dataType).ends (.new node.sdo.node) with
    ⟨started, frame, starts, sameNode, ends⟩
  rcases ends node.sdo node.od with ⟨requests, alone, endsAlone, outcome⟩
  rcases transact_ends serving configured apart sameNode endsAlone with
    ⟨amid, socket, -, -, -, returns⟩
  refine ⟨requests, alone.event, socket, outcome, fun fuel enough => ?_⟩
  rw [Operation.start, Exec.pure_inj] at starts
  rw [SocketCan.sdoRead, starts]
  simp only [returns fuel enough, pure_bind, Option.map_some]

theorem sdoWrite_ends {node : Node N} (serving : node.Serving)
    (configured : node.lssUnconfigured = false) (apart : around.Apart node) (addr : Address)
    (value : Value) :
    ∃ enough alone socket, Sdo.WriteOutcome node.od addr value enough alone ∧
      (∀ fuel, enough < fuel →
        SocketCan.sdoWrite (servedBus around) fuel ⟨(0, node), around.stale⟩ node.sdo.node addr
          value = pure (some ((returned alone.event).map fun _ => (), socket))) ∧
      Node.ServesAs node socket.bus.2 ∧ socket.bus.2.rpdos = node.rpdos ∧
      (alone.event = .complete none → ∀ entry, node.od.entry addr = some entry →
        entry.value.dataType = value.dataType →
        socket.bus.2.od.entry addr = some { entry with value }) := by
  rcases (Operation.write addr value).ends (.new node.sdo.node) with
    ⟨started, frame, starts, sameNode, ends⟩
  rcases ends node.sdo node.od with ⟨requests, alone, endsAlone, outcome⟩
  rcases transact_ends serving configured apart sameNode endsAlone with
    ⟨amid, socket, isolated, bus, rpdos, returns⟩
  refine ⟨requests, alone, socket, outcome, fun fuel enough => ?_, ?_, ?_, ?_⟩
  · rw [Operation.start] at starts
    rw [SocketCan.sdoWrite, starts, pure_bind]
    simp only [returns fuel enough, pure_bind, Option.map_some]
  · rw [bus]
    exact isolated.serves
  · rw [bus]
    exact rpdos
  · intro complete entry present sameType
    rcases outcome.completed complete present sameType with ⟨content, recorded⟩
    rw [bus, ← isolated.written complete addr recorded, content]

/-- A host that reads or writes an object of a serving node through a socket gets what the
dictionary has for it at the first request. Neither what the node receives between the requests
matters, unless it is another SDO request or takes the node out of service, nor what else arrives on
the socket, unless it is a data frame on the response COB-ID. -/
theorem host_transactions_return (node : Node N) (serving : node.Serving)
    (configured : node.lssUnconfigured = false) (around : Surroundings)
    (apart : around.Apart node) (addr : Address) :
    (∀ dataType, ∃ enough event socket, Sdo.ReadOutcome node.od addr dataType event ∧
      ∀ fuel, enough < fuel →
        SocketCan.sdoRead (servedBus around) fuel ⟨(0, node), around.stale⟩ node.sdo.node addr
          dataType = pure (some (readValue (returned event), socket))) ∧
    ∀ value, ∃ enough alone socket, Sdo.WriteOutcome node.od addr value enough alone ∧
      (∀ fuel, enough < fuel →
        SocketCan.sdoWrite (servedBus around) fuel ⟨(0, node), around.stale⟩ node.sdo.node addr
          value = pure (some ((returned alone.event).map fun _ => (), socket))) ∧
      (alone.event = .complete none → ∀ entry, node.od.entry addr = some entry →
        entry.value.dataType = value.dataType →
        socket.bus.2.od.entry addr = some { entry with value }) := by
  refine ⟨sdoRead_ends serving configured apart addr, fun value => ?_⟩
  rcases sdoWrite_ends serving configured apart addr value with
    ⟨enough, alone, socket, outcome, returns, -, -, stored⟩
  exact ⟨enough, alone, socket, outcome, returns, stored⟩

/-- A value is read behind a stale remote frame, while an error frame, an extended frame and a
heartbeat arrive with every reply, and the object is overwritten by a receive PDO. -/
theorem host_transactions_return_noisy :
    let addr : Address := ⟨0x2000, 0⟩
    let od : ObjectDictionary 1 := ⟨[(addr, ⟨.unsigned64 7, .rw⟩)], by simp, by simp⟩
    let mapping : PdoMapping maxPdoMapping := ⟨⟨[⟨addr, 64⟩], by decide⟩, by decide⟩
    let node : Node 1 := { Node.new ⟨5, by decide⟩ od with
      nmt := ⟨.operational⟩, rpdos := ⟨[⟨0x205, mapping⟩], by decide⟩ }
    let around : Surroundings := {
      frames := fun _ => [(0x205, [1, 2, 3, 4, 5, 6, 7, 8])]
      noise := fun _ => ([⟨.error, .standard 0x585, []⟩, ⟨.data, .extended 0x585, [1]⟩],
        [⟨.data, .standard 0x705, [5]⟩])
      stale := [⟨.remote, .standard 0x585, []⟩] }
    ∃ enough event socket, Sdo.ReadOutcome node.od addr .unsigned64 event ∧
      ∀ fuel, enough < fuel →
        SocketCan.sdoRead (servedBus around) fuel ⟨(0, node), around.stale⟩ node.sdo.node addr
          .unsigned64 = pure (some (readValue (returned event), socket)) := by
  intro addr od mapping node around
  refine (host_transactions_return node (.inr rfl) rfl around ⟨?_, ?_, ?_⟩ addr).1 .unsigned64
  · intro position frame member
    rw [List.mem_singleton.mp member]
    exact ⟨by decide, fun isNmt => absurd isNmt (by decide)⟩
  · intro position
    refine ⟨fun frame member => ?_, fun frame member => ?_⟩
    · rcases List.mem_cons.mp member with rfl | member
      · exact fun isData => absurd isData (by decide)
      · rw [List.mem_singleton.mp member]
        exact fun _ => by decide
    · rw [List.mem_singleton.mp member]
      exact fun _ => by decide
  · intro frame member
    rw [List.mem_singleton.mp member]
    exact fun isData => absurd isData (by decide)

end

end CanOpen
