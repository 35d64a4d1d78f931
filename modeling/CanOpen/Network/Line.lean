import CanOpen.Host.Transport
import CanOpen.Node.Transmission

/-! # One session and its node

A host in a transaction and the node that serves it, as parties of a bus on which there is other
traffic. Whatever they hear of it, they follow the transaction with the server alone.
-/

namespace CanOpen

open Sdo (SdoClient SdoEvent SdoPayload SdoServer Exchange Host)
open ObjectDictionary (SameShape)

/-- A host in a transaction: its client, the request that it sends next or what the transaction
came to, and whether it awaits the reply to that request. -/
structure Session where
  client : SdoClient
  event : SdoEvent
  awaiting : Bool

variable {N : Nat}

/-- A frame that belongs to no transfer with a node, and keeps it serving SDO. -/
structure Harmless (origin : Node N) (frame : BusFrame) : Prop where
  noRequest : frame.1 ≠ origin.sdo.requestCobId
  noResponse : frame.1 ≠ origin.sdo.responseCobId
  keeps : frame.1 = nmtCommandCobId → KeepsServing origin.nodeId frame.2

/-- What a session and its node have of the network. -/
structure Line (N : Nat) where
  node : Node N
  session : Session
  toNode : List BusFrame
  toHost : List BusFrame

def requestsTo (origin : Node N) (frames : List BusFrame) : List BusFrame :=
  frames.filter fun frame => frame.1 = origin.sdo.requestCobId

def responsesOf (origin : Node N) (frames : List BusFrame) : List BusFrame :=
  frames.filter fun frame => frame.1 = origin.sdo.responseCobId

/-! ## Steps -/

inductive Own where
  | request
  | receive
  | serve
  deriving DecidableEq, Repr

def Line.Enables (line : Line N) : Own → Prop
  | .request => (∃ frame, line.session.event = .send frame) ∧ line.session.awaiting = false
  | .receive => line.session.awaiting = true ∧ line.toHost ≠ []
  | .serve => line.toNode ≠ []

/-- How a line goes on when its host or its node is to do something, or when another party is: the
frames of others are heard, the request is sent, a frame is taken by the host or by the node. -/
inductive LineStep (origin : Node N) (line : Line N) : Option Own → Line N → Prop
  | heard (own : Option Own) (toNode toHost : List BusFrame) :
      (∀ kind, own = some kind → ¬ line.Enables kind) →
      (∀ frame ∈ toNode, Harmless origin frame) → (∀ frame ∈ toHost, Harmless origin frame) →
      LineStep origin line own
        { line with toNode := line.toNode ++ toNode, toHost := line.toHost ++ toHost }
  | requested (frame : SdoPayload) : line.session.event = .send frame →
      line.session.awaiting = false →
      LineStep origin line (some .request) { line with
        session := { line.session with awaiting := true }
        toNode := line.toNode ++ [(origin.sdo.requestCobId, frame.toList)] }
  | discarded (frame : BusFrame) (rest : List BusFrame) : line.toHost = frame :: rest →
      frame.1 ≠ origin.sdo.responseCobId →
      LineStep origin line (some .receive) { line with toHost := rest }
  | received (frame : BusFrame) (rest : List BusFrame) (resp : SdoPayload) (client : SdoClient)
      (event : SdoEvent) : line.toHost = frame :: rest → frame.1 = origin.sdo.responseCobId →
      frame.2 = resp.toList → line.session.client.onResponse resp = pure (client, event) →
      LineStep origin line (some .receive)
        { line with session := ⟨client, event, false⟩, toHost := rest }
  | overheard (frame : BusFrame) (rest : List BusFrame) (node : Node N) (tx : Option TxFrame)
      (replies : List BusFrame) : line.toNode = frame :: rest →
      frame.1 ≠ origin.sdo.requestCobId → line.node.receive frame = pure (node, tx) →
      (∀ reply ∈ replies, Harmless origin reply) →
      LineStep origin line (some .serve)
        { line with node, toNode := rest, toHost := line.toHost ++ replies }
  | served (frame : BusFrame) (rest : List BusFrame) (node : Node N) (tx : TxFrame)
      (resp : List UInt8) : line.toNode = frame :: rest → frame.1 = origin.sdo.requestCobId →
      line.node.receive frame = pure (node, some tx) →
      onBus [tx] = pure [(origin.sdo.responseCobId, resp)] →
      LineStep origin line (some .serve) { line with
        node, toNode := rest, toHost := line.toHost ++ [(origin.sdo.responseCobId, resp)] }

/-! ## Going the way of the server alone -/

def IsAsked (origin : Node N) (inbox : List BusFrame) : Prop :=
  ∃ frame rest, inbox = frame :: rest ∧ frame.1 = origin.sdo.requestCobId

/-- The node stands where the server alone does, in dictionaries of one shape that are the same
before the first request is served. -/
structure Tracks (origin : Node N) (alone : Exchange (Host N)) (node : Node N) : Prop where
  server : node.sdo = alone.peer.server
  serves : Node.ServesAs origin node
  shape : SameShape alone.peer.od node.od
  fresh : alone.replies = [] → node.od = alone.peer.od
  pending : alone.replies ≠ [] → ∀ frame, alone.event = .send frame →
    Pending alone.client frame

/-- How far the next request has come on its way to the node and back. -/
inductive Phase (origin : Node N) (alone : Exchange (Host N)) :
    Session → (requests responses : List BusFrame) → Prop
  | ready : Phase origin alone ⟨alone.client, alone.event, false⟩ [] []
  | requested (frame : SdoPayload) : alone.event = .send frame →
      Phase origin alone ⟨alone.client, alone.event, true⟩
        [(origin.sdo.requestCobId, frame.toList)] []
  | answered (client : SdoClient) (frame resp : SdoPayload) : alone.replies ≠ [] →
      client.onResponse resp = pure (alone.client, alone.event) →
      Phase origin alone ⟨client, .send frame, true⟩ []
        [(origin.sdo.responseCobId, resp.toList)]

/-- The session follows the exchange with the server alone that starts on `od`. The node had that
dictionary when it took its first request, and had what was written once it took the last one. -/
structure Follows (origin : Node N) (started : SdoClient) (first : SdoPayload)
    (taken : ObjectDictionary N → ObjectDictionary N → Prop) (od : ObjectDictionary N)
    (alone : Exchange (Host N)) (line : Line N) : Prop where
  steps : Loop.Steps (Exchange.turn (Host.serve Host.undisturbed))
    ⟨started, ⟨origin.sdo, od⟩, .send first, []⟩ alone.replies.length alone
  tracks : Tracks origin alone line.node
  phase : Phase origin alone line.session (requestsTo origin line.toNode)
    (responsesOf origin line.toHost)
  sameNode : line.session.client.node = origin.sdo.node
  keeps : ∀ frame ∈ line.toNode, frame.1 = nmtCommandCobId →
    KeepsServing origin.nodeId frame.2
  seen : alone.replies ≠ [] → ∃ after, taken od after
  written : alone.event = .complete none → ∀ addr, alone.peer.server.lastWrite = some addr →
    ∃ before after, taken before after ∧ after.entry addr = alone.peer.od.entry addr

namespace Follows

variable {origin : Node N} {started : SdoClient} {first : SdoPayload}
  {taken more : ObjectDictionary N → ObjectDictionary N → Prop} {od : ObjectDictionary N}
  {alone : Exchange (Host N)} {line : Line N}

theorem filter_harmless {frames : List BusFrame}
    (harmless : ∀ frame ∈ frames, Harmless origin frame) :
    requestsTo origin frames = [] ∧ responsesOf origin frames = [] := by
  constructor
  · exact List.filter_eq_nil_iff.mpr fun frame member =>
      by simpa using (harmless frame member).noRequest
  · exact List.filter_eq_nil_iff.mpr fun frame member =>
      by simpa using (harmless frame member).noResponse

theorem mono (follows : Follows origin started first taken od alone line)
    (includes : ∀ before after, taken before after → more before after) :
    Follows origin started first more od alone line := { follows with
  seen := fun begun => (follows.seen begun).imp fun after => includes od after
  written := fun complete addr recorded => by
    rcases follows.written complete addr recorded with ⟨before, after, took, content⟩
    exact ⟨before, after, includes before after took, content⟩ }

theorem hear (follows : Follows origin started first taken od alone line)
    (toNode toHost : List BusFrame) (harmlessNode : ∀ frame ∈ toNode, Harmless origin frame)
    (harmlessHost : ∀ frame ∈ toHost, Harmless origin frame) :
    Follows origin started first taken od alone
      { line with toNode := line.toNode ++ toNode, toHost := line.toHost ++ toHost } := {
  steps := follows.steps
  tracks := follows.tracks
  phase := by
    simp only [requestsTo, responsesOf, List.filter_append]
    have noRequests := (filter_harmless harmlessNode).1
    have noResponses := (filter_harmless harmlessHost).2
    rw [requestsTo] at noRequests
    rw [responsesOf] at noResponses
    rw [noRequests, noResponses, List.append_nil, List.append_nil]
    exact follows.phase
  sameNode := follows.sameNode
  keeps := by
    intro frame member
    rcases List.mem_append.mp member with earlier | later
    · exact follows.keeps frame earlier
    · exact (harmlessNode frame later).keeps
  seen := follows.seen
  written := follows.written }

theorem request (follows : Follows origin started first taken od alone line)
    {frame : SdoPayload} (sends : line.session.event = .send frame)
    (free : line.session.awaiting = false) :
    Follows origin started first taken od alone { line with
      session := { line.session with awaiting := true }
      toNode := line.toNode ++ [(origin.sdo.requestCobId, frame.toList)] } := {
  steps := follows.steps
  tracks := follows.tracks
  phase := by
    have phase := follows.phase
    generalize line.session = session at phase sends free
    generalize requests : requestsTo origin line.toNode = requests at phase
    generalize responsesOf origin line.toHost = responses at phase
    cases phase with
    | ready =>
        have own : requestsTo origin
            (line.toNode ++ [(origin.sdo.requestCobId, frame.toList)]) =
              [(origin.sdo.requestCobId, frame.toList)] := by
          simp only [requestsTo, List.filter_append] at requests ⊢
          rw [requests]
          simp
        rw [own]
        exact .requested frame sends
    | requested | answered => cases free
  sameNode := follows.sameNode
  keeps := by
    intro other member isNmt
    rcases List.mem_append.mp member with earlier | later
    · exact follows.keeps other earlier isNmt
    · rw [List.mem_singleton.mp later] at isNmt
      exact absurd isNmt (requestCobId_ne origin.sdo.node).1
  seen := follows.seen
  written := follows.written }

theorem discard (follows : Follows origin started first taken od alone line) {frame : BusFrame}
    {rest : List BusFrame} (next : line.toHost = frame :: rest)
    (noResponse : frame.1 ≠ origin.sdo.responseCobId) :
    Follows origin started first taken od alone { line with toHost := rest } := {
  steps := follows.steps
  tracks := follows.tracks
  phase := by
    have phase := follows.phase
    rwa [next, responsesOf, List.filter_cons_of_neg (by simpa using noResponse)] at phase
  sameNode := follows.sameNode
  keeps := follows.keeps
  seen := follows.seen
  written := follows.written }

theorem receive (follows : Follows origin started first taken od alone line) {frame : BusFrame}
    {rest : List BusFrame} (next : line.toHost = frame :: rest)
    (isResponse : frame.1 = origin.sdo.responseCobId) :
    ∃ resp client event, frame.2 = Vector.toList (n := 8) resp ∧
      line.session.client.onResponse resp = pure (client, event) ∧
      Follows origin started first taken od alone
        { line with session := ⟨client, event, false⟩, toHost := rest } := by
  have phase := follows.phase
  have own : responsesOf origin line.toHost = frame :: responsesOf origin rest := by
    rw [next, responsesOf, List.filter_cons_of_pos (by simpa using isResponse)]
    rfl
  rw [own] at phase
  generalize same : line.session = session at phase
  generalize requested : requestsTo origin line.toNode = requests at phase
  generalize later : responsesOf origin rest = responses at phase
  cases phase with
  | answered client request resp begun answered =>
      refine ⟨resp, alone.client, alone.event, rfl, answered, ?_⟩
      exact {
        steps := follows.steps
        tracks := follows.tracks
        phase := by
          rw [requested, later]
          exact .ready
        sameNode := (Sdo.SdoClient.onResponse_node answered).trans (by
          rw [← follows.sameNode, same])
        keeps := follows.keeps
        seen := follows.seen
        written := follows.written }

/-- Before its next request is served the transfer through the node stands where the one with the
server alone does. -/
theorem isolated (follows : Follows origin started first taken od alone line)
    {frame : SdoPayload} (sends : alone.event = .send frame) :
    Isolated origin alone ⟨alone.client, line.node, alone.event, alone.replies⟩ := {
  client := rfl
  event := rfl
  replies := rfl
  server := follows.tracks.server
  serves := follows.tracks.serves
  shape := follows.tracks.shape
  fresh := follows.tracks.fresh
  pending := follows.tracks.pending
  written := fun complete => by cases sends.symm.trans complete }

/-- Before the first request is served the session is at its beginning, on the dictionary that the
node has then. -/
theorem unbegun (follows : Follows origin started first taken od alone line)
    (none : alone.replies = []) :
    alone = ⟨started, ⟨origin.sdo, line.node.od⟩, .send first, []⟩ ∧ line.node.od = od := by
  have steps := follows.steps
  have fresh := follows.tracks.fresh none
  rw [none, List.length_nil] at steps
  cases steps with
  | refl => exact ⟨by rw [fresh], fresh⟩

theorem overhear (follows : Follows origin started first taken od alone line) {frame : BusFrame}
    {rest : List BusFrame} (next : line.toNode = frame :: rest)
    (noRequest : frame.1 ≠ origin.sdo.requestCobId) :
    ∃ after tx, line.node.receive frame = pure (after, tx) ∧
      (∀ reply, tx = some reply → reply.cobId = Lss.lssSlaveCobId) ∧
      ∃ laterOd later, Follows origin started first taken laterOd later
          { line with node := after, toNode := rest } ∧
        later.replies = alone.replies ∧ (alone.replies ≠ [] → later = alone) := by
  have keeps := follows.keeps frame (next ▸ List.mem_cons_self)
  have unrelated : Unrelated origin frame := ⟨noRequest, keeps⟩
  rcases Node.receive_unrelated follows.tracks.serves unrelated with
    ⟨after, tx, received, serves, sameServer, shape⟩
  have requests : requestsTo origin line.toNode = requestsTo origin rest := by
    rw [next, requestsTo, List.filter_cons_of_neg (by simpa using noRequest)]
    rfl
  refine ⟨after, tx, received, ?_, ?_⟩
  · intro reply replied
    subst replied
    have served := Node.onFrame_served received
    rw [SdoServer.requestCobId, ← follows.tracks.serves.server] at noRequest
    cases served with
    | lss _ _ _ _ _ _ _ replies => exact replies reply rfl
    | sdo _ _ _ isRequest => exact absurd isRequest noRequest
  · have phase := follows.phase
    by_cases begun : alone.replies = []
    · rcases follows.unbegun begun with ⟨same, -⟩
      subst same
      rw [requests] at phase
      refine ⟨after.od, ⟨started, ⟨origin.sdo, after.od⟩, .send first, []⟩, ⟨{
        steps := .refl _
        tracks := {
          server := sameServer.trans follows.tracks.server
          serves := serves
          shape := .refl _
          fresh := fun _ => rfl
          pending := fun begun => absurd rfl begun }
        phase := ?_
        sameNode := follows.sameNode
        keeps := fun other member => follows.keeps other (next ▸ List.mem_cons_of_mem _ member)
        seen := fun begun => absurd rfl begun
        written := fun complete => by cases complete }, rfl, fun begun => absurd rfl begun⟩⟩
      generalize line.session = session at phase ⊢
      generalize requestsTo origin rest = requests at phase ⊢
      generalize responsesOf origin line.toHost = responses at phase ⊢
      cases phase with
      | ready => exact .ready
      | requested frame sends => exact .requested frame sends
      | answered _ _ _ begun => exact absurd rfl begun
    · exact ⟨od, alone, ⟨{
        steps := follows.steps
        tracks := {
          server := sameServer.trans follows.tracks.server
          serves := serves
          shape := follows.tracks.shape.trans shape
          fresh := fun none => absurd none begun
          pending := follows.tracks.pending }
        phase := requests ▸ phase
        sameNode := follows.sameNode
        keeps := fun other member => follows.keeps other (next ▸ List.mem_cons_of_mem _ member)
        seen := follows.seen
        written := follows.written }, rfl, fun _ => rfl⟩⟩

theorem serve (follows : Follows origin started first taken od alone line)
    (ends : ∀ od : ObjectDictionary N, ∃ requests final,
      Loop.Ends (Exchange.turn (Host.serve Host.undisturbed))
        ⟨started, ⟨origin.sdo, od⟩, .send first, []⟩ requests final)
    {frame : BusFrame} {rest : List BusFrame} (next : line.toNode = frame :: rest)
    (isRequest : frame.1 = origin.sdo.requestCobId) :
    ∃ after tx resp, line.node.receive frame = pure (after, some tx) ∧
      onBus [tx] = pure [(origin.sdo.responseCobId, resp)] ∧
      ∃ reached, Follows origin started first
          (fun before later => taken before later ∨ before = line.node.od ∧ later = after.od)
          od reached { line with
            node := after
            toNode := rest
            toHost := line.toHost ++ [(origin.sdo.responseCobId, resp)] } ∧
        alone.turn (Host.serve Host.undisturbed) = pure (some reached) := by
  have phase := follows.phase
  have own : requestsTo origin line.toNode = frame :: requestsTo origin rest := by
    rw [next, requestsTo, List.filter_cons_of_pos (by simpa using isRequest)]
    rfl
  rw [own] at phase
  generalize same : line.session = session at phase
  generalize later : requestsTo origin rest = requests at phase
  generalize waiting : responsesOf origin line.toHost = responses at phase
  cases phase with
  | requested request sends =>
      rcases ends od with ⟨requests, final, endsHere⟩
      have turns : ∃ next, alone.turn (Host.serve Host.undisturbed) = pure (some next) := by
        rcases endsHere.next_or_final follows.steps with turns | rfl
        · exact turns
        · exact absurd sends (Exchange.turn_eq_none_iff.mp endsHere.steps.2 request)
      rcases turns with ⟨reached, turned⟩
      rcases Exchange.turn_eq_some_iff.mp turned with
        ⟨request', peer, resp, client, event, sends', served, answered, rfl⟩
      cases sends.symm.trans sends'
      rw [Host.serve, Exec.bind_eq_pure_iff] at served
      rcases served with ⟨out, handles, served⟩
      rw [Exec.pure_inj, Prod.mk.injEq] at served
      rcases served with ⟨rfl, responds⟩
      have tracks := follows.tracks
      rcases (follows.isolated sends).handled sends handles tracks.shape tracks.fresh with
        ⟨outAmid, handlesAmid, sameOut, sameResponse, sameShape, written⟩
      rw [← tracks.server] at handlesAmid
      rcases Node.onFrame_request tracks.serves.serving tracks.serves.configured handlesAmid
        (sameResponse.trans responds) with ⟨tx, answers, carries⟩
      have sameId : line.node.sdo.requestCobId = origin.sdo.requestCobId := by
        rw [SdoServer.requestCobId, tracks.serves.server, SdoServer.requestCobId]
      have responseId : line.node.sdo.responseCobId = origin.sdo.responseCobId := by
        rw [SdoServer.responseCobId, tracks.serves.server, SdoServer.responseCobId]
      have responded : (some tx).bind (Node.responseOf line.node.sdo.responseCobId) = some resp :=
        carries
      rcases Node.reply_of_responseOf responded with ⟨reply, ⟨⟩, replyId, payload⟩
      have kept : outAmid.server.node = origin.sdo.node :=
        (SdoServer.handle_effect handlesAmid).node.trans tracks.serves.server
      refine ⟨{ line.node with sdo := outAmid.server, od := outAmid.od }, tx, resp.toList, ?_, ?_,
        ⟨client, ⟨out.server, out.od⟩, event, alone.replies ++ [resp]⟩, ⟨{
        steps := ?_
        tracks := {
          server := sameOut
          serves := ⟨kept, tracks.serves.nodeId, tracks.serves.serving, tracks.serves.configured⟩
          shape := sameShape
          fresh := fun none => absurd none (by simp)
          pending := ?_ }
        phase := ?_
        sameNode := by rw [← follows.sameNode, same]
        keeps := fun other member => follows.keeps other (next ▸ List.mem_cons_of_mem _ member)
        seen := ?_
        written := ?_ }, turned⟩⟩
      · rw [Node.receive, ← sameId]
        exact answers
      · rw [onBus_singleton payload, replyId, responseId]
      · rw [List.length_append, List.length_singleton]
        exact follows.steps.trans (Loop.Steps.one turned)
      · intro _ frame sends
        simp only at sends
        subst sends
        exact pending_of_answer (SdoClient.onResponse_answer answered)
      · have responses : responsesOf origin
            (line.toHost ++ [(origin.sdo.responseCobId, resp.toList)]) =
              [(origin.sdo.responseCobId, resp.toList)] := by
          simp only [responsesOf, List.filter_append] at waiting ⊢
          rw [waiting]
          simp
        simp only
        rw [later, responses, sends]
        exact .answered alone.client request resp (by simp) answered
      · intro _
        by_cases begun : alone.replies = []
        · exact ⟨_, .inr ⟨(follows.unbegun begun).2.symm, rfl⟩⟩
        · exact (follows.seen begun).imp fun _ => .inl
      · intro complete addr recorded
        simp only at complete
        subst complete
        exact ⟨_, _, .inr ⟨rfl, rfl⟩, (written resp client responds answered addr recorded).symm⟩

/-- How the exchange with the server alone goes on with a step of the line. -/
inductive Advances (alone : Exchange (Host N)) : Option Own → Exchange (Host N) → Prop
  | stays (own : Option Own) (later : Exchange (Host N)) : later.replies = alone.replies →
      (alone.replies ≠ [] → later = alone) → Advances alone own later
  | turns (reached : Exchange (Host N)) :
      alone.turn (Host.serve Host.undisturbed) = pure (some reached) →
      Advances alone (some .serve) reached

theorem step (follows : Follows origin started first taken od alone line)
    (ends : ∀ od : ObjectDictionary N, ∃ requests final,
      Loop.Ends (Exchange.turn (Host.serve Host.undisturbed))
        ⟨started, ⟨origin.sdo, od⟩, .send first, []⟩ requests final)
    {own : Option Own} {after : Line N} (stepped : LineStep origin line own after)
    (more : ObjectDictionary N → ObjectDictionary N → Prop)
    (includes : ∀ before later, taken before later → more before later)
    (added : own = some .serve → IsAsked origin line.toNode →
      more line.node.od after.node.od) :
    ∃ laterOd later, Follows origin started first more laterOd later after ∧
      Advances alone own later := by
  cases stepped with
  | heard _ toNode toHost _ harmlessNode harmlessHost =>
      exact ⟨od, alone, (follows.hear toNode toHost harmlessNode harmlessHost).mono includes,
        .stays _ _ rfl fun _ => rfl⟩
  | requested frame sends free =>
      exact ⟨od, alone, (follows.request sends free).mono includes, .stays _ _ rfl fun _ => rfl⟩
  | discarded frame rest next noResponse =>
      exact ⟨od, alone, (follows.discard next noResponse).mono includes,
        .stays _ _ rfl fun _ => rfl⟩
  | received frame rest resp client event next isResponse carries fed =>
      rcases follows.receive next isResponse with ⟨resp', _, _, carries', fed', received⟩
      have sameResp : resp' = resp := Vector.toList_inj.mp (carries'.symm.trans carries)
      subst sameResp
      cases fed.symm.trans fed'
      exact ⟨od, alone, received.mono includes, .stays _ _ rfl fun _ => rfl⟩
  | overheard frame rest node tx replies next noRequest took harmless =>
      rcases follows.overhear next noRequest with
        ⟨_, _, took', -, laterOd, later, overheard, sameReplies, same⟩
      cases took.symm.trans took'
      have heard := overheard.hear [] replies (by simp) harmless
      simp only [List.append_nil] at heard
      exact ⟨laterOd, later, heard.mono includes, .stays _ _ sameReplies same⟩
  | served frame rest node tx resp next isRequest took sent =>
      rcases follows.serve ends next isRequest with
        ⟨_, _, resp', took', sent', reached, served, turned⟩
      cases took.symm.trans took'
      cases sent.symm.trans sent'
      refine ⟨od, reached, served.mono ?_, .turns reached turned⟩
      rintro before later (taken | ⟨rfl, rfl⟩)
      · exact includes before later taken
      · exact added rfl ⟨frame, rest, next, isRequest⟩

/-- While the request or the response is under way the host awaits it, and the other one is not. -/
theorem underWay (follows : Follows origin started first taken od alone line) :
    (requestsTo origin line.toNode ≠ [] →
      line.session.awaiting = true ∧ responsesOf origin line.toHost = []) ∧
    (responsesOf origin line.toHost ≠ [] →
      line.session.awaiting = true ∧ requestsTo origin line.toNode = []) := by
  have phase := follows.phase
  generalize line.session = session at phase
  generalize requestsTo origin line.toNode = requests at phase
  generalize responsesOf origin line.toHost = responses at phase
  cases phase <;> simp

theorem begin (serving : origin.Serving) (configured : origin.lssUnconfigured = false)
    (sameNode : started.node = origin.sdo.node) :
    Follows origin started first taken origin.od
      ⟨started, ⟨origin.sdo, origin.od⟩, .send first, []⟩
      ⟨origin, ⟨started, .send first, false⟩, [], []⟩ := {
  steps := .refl _
  tracks := {
    server := rfl
    serves := ⟨rfl, rfl, serving, configured⟩
    shape := .refl _
    fresh := fun _ => rfl
    pending := fun begun => absurd rfl begun }
  phase := .ready
  sameNode := sameNode
  keeps := fun _ member => by cases member
  seen := fun begun => absurd rfl begun
  written := fun complete => by cases complete }

theorem enabled (follows : Follows origin started first taken od alone line)
    {frame : SdoPayload} (sends : line.session.event = .send frame) :
    ∃ kind, line.Enables kind := by
  have phase := follows.phase
  generalize same : line.session = session at phase sends
  generalize requested : requestsTo origin line.toNode = requests at phase
  generalize waiting : responsesOf origin line.toHost = responses at phase
  cases phase with
  | ready => exact ⟨.request, ⟨frame, same ▸ sends⟩, same ▸ rfl⟩
  | requested request _ =>
      refine ⟨.serve, fun none => ?_⟩
      rw [none] at requested
      cases requested
  | answered client request resp _ _ =>
      refine ⟨.receive, same ▸ rfl, fun none => ?_⟩
      rw [none] at waiting
      cases waiting

/-- A session that has ended has the outcome of its operation on the dictionary with which its
node took the first request. What it has written was in the dictionary once the node had taken
the last one. -/
theorem outcome (follows : Follows origin started first taken od alone line)
    {operation : Operation}
    (ends : ∀ od : ObjectDictionary N, ∃ requests final,
      Loop.Ends (Exchange.turn (Host.serve Host.undisturbed))
        ⟨started, ⟨origin.sdo, od⟩, .send first, []⟩ requests final ∧
      operation.Outcome od requests final)
    (ended : ∀ frame, line.session.event ≠ .send frame) :
    ∃ before after requests alone, taken before after ∧
      operation.Outcome before requests alone ∧ alone.event = line.session.event ∧
      (alone.event = .complete none → ∀ addr, alone.peer.server.lastWrite = some addr →
        ∃ before after, taken before after ∧ after.entry addr = alone.peer.od.entry addr) := by
  have sameEvent : alone.event = line.session.event := by
    have phase := follows.phase
    generalize line.session = session at phase ended
    generalize requestsTo origin line.toNode = requests at phase
    generalize responsesOf origin line.toHost = responses at phase
    cases phase with
    | ready => rfl
    | requested => rfl
    | answered _ frame _ _ _ => exact absurd rfl (ended frame)
  have begun : alone.replies ≠ [] := by
    intro none
    rw [(follows.unbegun none).1] at sameEvent
    exact ended _ sameEvent.symm
  rcases ends od with ⟨requests, final, endsHere, outcome⟩
  have isFinal : alone = final := by
    rcases endsHere.next_or_final follows.steps with ⟨next, turned⟩ | isFinal
    · have done : alone.turn (Host.serve Host.undisturbed) = pure none :=
        Exchange.turn_eq_none_iff.mpr fun frame => sameEvent ▸ ended frame
      cases done.symm.trans turned
    · exact isFinal
  subst isFinal
  rcases follows.seen begun with ⟨after, took⟩
  exact ⟨od, after, requests, alone, took, outcome, sameEvent, follows.written⟩

end Follows

/-! ## Frames of other sessions -/

theorem cobIds_differ {left right : NodeId} (different : left ≠ right) :
    Sdo.requestCobId left ≠ Sdo.requestCobId right ∧
      Sdo.responseCobId left ≠ Sdo.responseCobId right := by
  have raws : left.raw.toNat ≠ right.raw.toNat := by
    intro same
    refine different ?_
    rcases left with ⟨raw, _⟩
    rcases right with ⟨raw', _⟩
    cases UInt8.toNat_inj.mp same
    rfl
  constructor
  · intro same
    have numbers := congrArg UInt16.toNat same
    rw [requestCobId_toNat, requestCobId_toNat] at numbers
    omega
  · intro same
    have numbers := congrArg UInt16.toNat same
    rw [responseCobId_toNat, responseCobId_toNat] at numbers
    omega

theorem requestCobId_ne_response (left right : NodeId) :
    Sdo.requestCobId left ≠ Sdo.responseCobId right := by
  intro same
  have bound : right.raw.toNat ≤ 127 := UInt8.le_iff_toNat_le.mp right.raw_le
  have numbers := congrArg UInt16.toNat same
  rw [requestCobId_toNat, responseCobId_toNat] at numbers
  omega

theorem responseCobId_ne_nmt (node : NodeId) : Sdo.responseCobId node ≠ nmtCommandCobId := by
  intro same
  have numbers := congrArg UInt16.toNat same
  rw [responseCobId_toNat, show nmtCommandCobId.toNat = 0 from rfl] at numbers
  omega

theorem requestCobId_ne_lssSlave (node : NodeId) :
    Sdo.requestCobId node ≠ Lss.lssSlaveCobId := by
  intro same
  have bound : node.raw.toNat ≤ 127 := UInt8.le_iff_toNat_le.mp node.raw_le
  have numbers := congrArg UInt16.toNat same
  rw [requestCobId_toNat, show Lss.lssSlaveCobId.toNat = 0x7E4 from rfl] at numbers
  omega

variable {origin : Node N}

theorem harmless_request {other : NodeId} (different : other ≠ origin.sdo.node)
    (data : List UInt8) : Harmless origin (Sdo.requestCobId other, data) where
  noRequest := (cobIds_differ different).1
  noResponse := requestCobId_ne_response other _
  keeps := fun isNmt => absurd isNmt (requestCobId_ne other).1

theorem harmless_response {other : NodeId} (different : other ≠ origin.sdo.node)
    (data : List UInt8) : Harmless origin (Sdo.responseCobId other, data) where
  noRequest := (requestCobId_ne_response _ other).symm
  noResponse := (cobIds_differ different).2
  keeps := fun isNmt => absurd isNmt (responseCobId_ne_nmt other)

theorem harmless_lss (origin : Node N) (data : List UInt8) :
    Harmless origin (Lss.lssSlaveCobId, data) where
  noRequest := (requestCobId_ne_lssSlave _).symm
  noResponse := (responseCobId_ne_lss _).symm
  keeps := fun isNmt => absurd isNmt (show Lss.lssSlaveCobId ≠ nmtCommandCobId by decide)

end CanOpen
