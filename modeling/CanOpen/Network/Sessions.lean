import CanOpen.Foundation.Broadcast
import CanOpen.Network.Line

/-! # Concurrent SDO sessions

Any number of hosts, each in a transaction with a node of its own, share the bus. Whatever the
order in which requests are sent, frames are taken and other traffic appears, every session goes
the way it would go alone.
-/

namespace CanOpen

open Sdo (SdoClient SdoEvent SdoPayload SdoServer Exchange Host)

/-! ## The parties -/

inductive Party (ι : Type) where
  | node (index : ι)
  | host (index : ι)
  deriving DecidableEq

/-- What happens next: a host sends its request, a host or a node takes the oldest frame that it
has not taken yet, or a frame of other traffic appears on the bus. -/
inductive Move (ι : Type) where
  | request (index : ι)
  | receive (index : ι)
  | serve (index : ι)
  | traffic (sender : Option (Party ι)) (frame : BusFrame)

structure Network {ι : Type} (capacity : ι → Nat) where
  nodes : ∀ index, Node (capacity index)
  sessions : ι → Session
  inboxes : Inboxes (Party ι) BusFrame

namespace Network

variable {ι : Type} [DecidableEq ι] {capacity : ι → Nat}

def request (network : Network capacity) (index : ι) : Network capacity :=
  let session := network.sessions index
  match session.event, session.awaiting with
  | .send frame, false => { network with
      sessions := Function.update network.sessions index { session with awaiting := true }
      inboxes := network.inboxes.broadcast (some (.host index))
        (session.client.requestCobId, frame.toList) }
  | _, _ => network

/-- A host that awaits a reply takes a frame, and feeds it to its client if it is a response. -/
def receive (network : Network capacity) (index : ι) : Exec (Network capacity) :=
  let session := network.sessions index
  match session.awaiting, network.inboxes (.host index) with
  | true, frame :: rest => do
      let network := { network with
        inboxes := Function.update network.inboxes (.host index) rest }
      if frame.1 = session.client.responseCobId then
        let received ← Received.new frame.1 frame.2
        let (client, event) ← session.client.onResponse received.payload
        pure { network with
          sessions := Function.update network.sessions index ⟨client, event, false⟩ }
      else pure network
  | _, _ => pure network

def answered (network : Network capacity) (index : ι) (node : Node (capacity index))
    (rest replies : List BusFrame) : Network capacity :=
  { network with
    nodes := Function.update network.nodes index node
    inboxes := Inboxes.broadcastAll (Function.update network.inboxes (.node index) rest)
      (some (.node index)) replies }

def serve (network : Network capacity) (index : ι) : Exec (Network capacity) :=
  match network.inboxes (.node index) with
  | [] => pure network
  | frame :: rest => do
      let (after, reply) ← (network.nodes index).receive frame
      let replies ← onBus reply.toList
      pure (network.answered index after rest replies)

def step (network : Network capacity) : Move ι → Exec (Network capacity × Unit)
  | .request index => pure (network.request index, ())
  | .receive index => do
      let network ← network.receive index
      pure (network, ())
  | .serve index => do
      let network ← network.serve index
      pure (network, ())
  | .traffic sender frame =>
      pure ({ network with inboxes := network.inboxes.broadcast sender frame }, ())

end Network

/-! ## The lines of a network -/

def Move.own {ι : Type} [DecidableEq ι] (index : ι) : Move ι → Option Own
  | .request other => if other = index then some .request else none
  | .receive other => if other = index then some .receive else none
  | .serve other => if other = index then some .serve else none
  | .traffic _ _ => none

namespace Network

variable {ι : Type} [DecidableEq ι] {capacity : ι → Nat}

def line (network : Network capacity) (index : ι) : Line (capacity index) :=
  ⟨network.nodes index, network.sessions index, network.inboxes (.node index),
    network.inboxes (.host index)⟩

structure Opened (origin : ∀ index, Node (capacity index)) (started : ι → SdoClient)
    (first : ι → SdoPayload) : Prop where
  distinct : ∀ left right, (origin left).sdo.node = (origin right).sdo.node → left = right
  ends : ∀ index (od : ObjectDictionary (capacity index)), ∃ requests final,
    Loop.Ends (Exchange.turn (Host.serve Host.undisturbed))
      ⟨started index, ⟨(origin index).sdo, od⟩, .send (first index), []⟩ requests final

/-- Every session goes the way it would go alone. `taken` has the dictionaries of each node around
the requests that it has taken. -/
def AllFollow (origin : ∀ index, Node (capacity index)) (started : ι → SdoClient)
    (first : ι → SdoPayload)
    (taken : ∀ index, ObjectDictionary (capacity index) → ObjectDictionary (capacity index) → Prop)
    (network : Network capacity) : Prop :=
  ∀ index, ∃ od alone, Follows (origin index) (started index) (first index) (taken index) od
    alone (network.line index)

variable {origin : ∀ index, Node (capacity index)} {started : ι → SdoClient}
  {first : ι → SdoPayload}
  {taken : ∀ index, ObjectDictionary (capacity index) → ObjectDictionary (capacity index) → Prop}
  {network : Network capacity}

omit [DecidableEq ι] in
theorem idle (index : ι) {own : Option Own}
    (disabled : ∀ kind, own = some kind → ¬ (network.line index).Enables kind) :
    LineStep (origin index) (network.line index) own (network.line index) := by
  simpa using LineStep.heard own [] [] disabled (by simp) (by simp)

theorem request_line (opened : Opened origin started first)
    (follow : AllFollow origin started first taken network) (index other : ι) :
    LineStep (origin other) (network.line other) (Move.own other (.request index))
      ((network.request index).line other) := by
  rcases follow index with ⟨od, alone, follows⟩
  have requestId : (network.sessions index).client.requestCobId =
      (origin index).sdo.requestCobId := by
    rw [SdoClient.requestCobId, SdoServer.requestCobId]
    exact congrArg _ follows.sameNode
  unfold request
  simp only
  split
  · next frame sends free =>
      by_cases same : index = other
      · subst same
        have sent : LineStep (origin index) (network.line index) (some .request) _ :=
          .requested frame sends free
        simpa [line, Move.own, Inboxes.broadcast, requestId] using sent
      · have different : (origin index).sdo.node ≠ (origin other).sdo.node :=
          fun shared_ => same (opened.distinct index other shared_)
        have harmless : ∀ heard ∈ [((network.sessions index).client.requestCobId, frame.toList)],
            Harmless (origin other) heard := by
          intro heard member
          rw [List.mem_singleton.mp member, requestId]
          exact harmless_request different _
        have heard : LineStep (origin other) (network.line other) none _ :=
          .heard none _ _ (by simp) harmless harmless
        simpa [line, Move.own, Inboxes.broadcast, same, Ne.symm same] using heard
  · next disabled =>
      refine idle other fun kind own => ?_
      rw [Move.own] at own
      split at own
      · next same =>
          subst same
          cases own
          rintro ⟨⟨frame, sends⟩, free⟩
          exact disabled frame sends free
      · cases own

theorem own_other {index other : ι} (different : index ≠ other) :
    Move.own other (.request index) = none ∧ Move.own other (.receive index) = none ∧
      Move.own other (.serve index) = none := by
  simp [Move.own, different]

theorem receive_line (follow : AllFollow origin started first taken network) (index : ι) :
    ∃ after, network.receive index = pure after ∧ ∀ other,
      LineStep (origin other) (network.line other) (Move.own other (.receive index))
        (after.line other) := by
  rcases follow index with ⟨od, alone, follows⟩
  have responseId : (network.sessions index).client.responseCobId =
      (origin index).sdo.responseCobId := by
    rw [SdoClient.responseCobId, SdoServer.responseCobId]
    exact congrArg _ follows.sameNode
  have others : ∀ after : Network capacity,
      LineStep (origin index) (network.line index) (some .receive) (after.line index) →
      (∀ other, index ≠ other → after.line other = network.line other) → ∀ other,
      LineStep (origin other) (network.line other) (Move.own other (.receive index))
        (after.line other) := by
    intro after stepped unchanged other
    by_cases same : index = other
    · subst same
      simpa [Move.own] using stepped
    · rw [unchanged other same, (own_other same).2.1]
      exact idle other (by simp)
  unfold receive
  simp only
  split
  · next frame rest awaits next =>
      by_cases isResponse : frame.1 = (origin index).sdo.responseCobId
      · rcases follows.receive next isResponse with ⟨resp, client, event, carries, fed, -⟩
        rcases Received.new_payload frame.1 resp with ⟨reply, built, -, payload⟩
        have answered : (network.sessions index).client.onResponse reply.payload =
            pure (client, event) := by
          rw [Received.payload, payload]
          exact fed
        refine ⟨{ network with
          sessions := Function.update network.sessions index ⟨client, event, false⟩
          inboxes := Function.update network.inboxes (.host index) rest }, ?_, others _ ?_ ?_⟩
        · rw [if_pos (isResponse.trans responseId.symm), carries, built, pure_bind, answered,
            pure_bind]
        · have received : LineStep (origin index) (network.line index) (some .receive) _ :=
            .received frame rest resp client event next isResponse carries fed
          simpa [line] using received
        · intro other different
          simp [line, Ne.symm different]
      · refine ⟨{ network with inboxes := Function.update network.inboxes (.host index) rest },
          if_neg fun isNext => isResponse (isNext.trans responseId), others _ ?_ ?_⟩
        · have discarded : LineStep (origin index) (network.line index) (some .receive) _ :=
            .discarded frame rest next isResponse
          simpa [line] using discarded
        · intro other different
          simp [line, Ne.symm different]
  · next disabled =>
      refine ⟨network, rfl, others network (idle index ?_) fun _ _ => rfl⟩
      rintro kind ⟨⟩ ⟨awaits, waiting⟩
      rcases List.exists_cons_of_ne_nil waiting with ⟨frame, rest, next⟩
      exact disabled frame rest awaits next

theorem line_answered_self (network : Network capacity) (index : ι)
    (node : Node (capacity index)) (rest replies : List BusFrame) :
    (network.answered index node rest replies).line index =
      ⟨node, (network.line index).session, rest, (network.line index).toHost ++ replies⟩ := by
  simp [line, answered, Inboxes.broadcastAll_sender, Inboxes.broadcastAll_other]

theorem line_answered_other (network : Network capacity) {index other : ι}
    (different : other ≠ index) (node : Node (capacity index)) (rest replies : List BusFrame) :
    (network.answered index node rest replies).line other = { network.line other with
      toNode := (network.line other).toNode ++ replies
      toHost := (network.line other).toHost ++ replies } := by
  simp [line, answered, Inboxes.broadcastAll_other, different, Ne.symm different]

theorem serve_line (opened : Opened origin started first)
    (follow : AllFollow origin started first taken network) (index : ι) :
    ∃ after, network.serve index = pure after ∧ ∀ other,
      LineStep (origin other) (network.line other) (Move.own other (.serve index))
        (after.line other) := by
  rcases follow index with ⟨od, alone, follows⟩
  have others : ∀ (node : Node (capacity index)) (rest replies : List BusFrame),
      LineStep (origin index) (network.line index) (some .serve)
        ⟨node, (network.line index).session, rest, (network.line index).toHost ++ replies⟩ →
      (∀ other, index ≠ other → ∀ reply ∈ replies, Harmless (origin other) reply) → ∀ other,
      LineStep (origin other) (network.line other) (Move.own other (.serve index))
        ((network.answered index node rest replies).line other) := by
    intro node rest replies stepped harmless other
    by_cases same : index = other
    · subst same
      rw [line_answered_self]
      simpa [Move.own] using stepped
    · rw [line_answered_other network (Ne.symm same), (own_other same).2.2]
      exact .heard none replies replies (by simp) (harmless other same) (harmless other same)
  unfold serve
  split
  · next none =>
      refine ⟨network, rfl, fun other => idle other fun kind own => ?_⟩
      by_cases same : index = other
      · subst same
        simp only [Move.own, if_true, Option.some.injEq] at own
        subst own
        exact fun waiting => waiting none
      · rw [(own_other same).2.2] at own
        cases own
  · next frame rest next =>
      by_cases isRequest : frame.1 = (origin index).sdo.requestCobId
      · rcases follows.serve (opened.ends index) next isRequest with
          ⟨node, tx, resp, took, sent, -⟩
        refine ⟨network.answered index node rest [((origin index).sdo.responseCobId, resp)], ?_,
          others node rest _ (.served frame rest node tx resp next isRequest took sent) ?_⟩
        · rw [show network.nodes index = (network.line index).node from rfl, took, pure_bind]
          simp only [Option.toList_some, sent, pure_bind]
        · intro other different reply member
          rw [List.mem_singleton.mp member]
          exact harmless_response (fun shared_ =>
            different (opened.distinct index other shared_)) resp
      · rcases follows.overhear next isRequest with ⟨node, tx, took, replies, -⟩
        have harmless : ∀ other, ∀ reply ∈ tx.toList.map fun frame =>
            (frame.cobId, frame.data.toList.take frame.len.toNat),
            Harmless (origin other) reply := by
          intro other reply member
          rcases List.mem_map.mp member with ⟨frame, isReply, rfl⟩
          rw [replies frame (Option.mem_toList.mp isReply)]
          exact harmless_lss _ _
        refine ⟨network.answered index node rest (tx.toList.map fun frame =>
            (frame.cobId, frame.data.toList.take frame.len.toNat)), ?_,
          others node rest _ (.overheard frame rest node tx _ next isRequest took
            (harmless index)) fun other _ => harmless other⟩
        rw [show network.nodes index = (network.line index).node from rfl, took, pure_bind]
        simp only [onBus_eq, pure_bind]

theorem traffic_line (network : Network capacity) (sender : Option (Party ι)) {frame : BusFrame}
    (harmless : ∀ index, Harmless (origin index) frame) (index : ι) :
    LineStep (origin index) (network.line index) (Move.own index (.traffic sender frame))
      (line { network with inboxes := network.inboxes.broadcast sender frame } index) := by
  have heard : ∀ party, ∃ frames, network.inboxes.broadcast sender frame party =
      network.inboxes party ++ frames ∧ ∀ other ∈ frames, Harmless (origin index) other := by
    intro party
    by_cases own : sender = some party
    · exact ⟨[], by simp [Inboxes.broadcast, own], by simp⟩
    · refine ⟨[frame], Inboxes.broadcast_other _ own frame, fun other member => ?_⟩
      rw [List.mem_singleton.mp member]
      exact harmless index
  rcases heard (.node index) with ⟨toNode, isNode, harmlessNode⟩
  rcases heard (.host index) with ⟨toHost, isHost, harmlessHost⟩
  have stepped : LineStep (origin index) (network.line index) none _ :=
    .heard none toNode toHost (by simp) harmlessNode harmlessHost
  simpa [line, Move.own, isNode, isHost] using stepped

theorem step_line (opened : Opened origin started first)
    (follow : AllFollow origin started first taken network) (move : Move ι)
    (harmless : ∀ sender frame, move = .traffic sender frame →
      ∀ index, Harmless (origin index) frame) :
    ∃ after, network.step move = pure (after, ()) ∧ ∀ index,
      LineStep (origin index) (network.line index) (Move.own index move) (after.line index) := by
  cases move with
  | request index => exact ⟨_, rfl, request_line opened follow index⟩
  | receive index =>
      rcases receive_line follow index with ⟨after, received, lines⟩
      exact ⟨after, by rw [Network.step, received, pure_bind], lines⟩
  | serve index =>
      rcases serve_line opened follow index with ⟨after, served, lines⟩
      exact ⟨after, by rw [Network.step, served, pure_bind], lines⟩
  | traffic sender frame =>
      exact ⟨_, rfl, network.traffic_line sender (harmless sender frame rfl)⟩

/-! ## Runs -/

abbrev NetworkEvent (capacity : ι → Nat) := Trace.Event (Network capacity) (Move ι) Unit

/-- The dictionaries of a node around a request that it has taken in a run. -/
def Took (origin : ∀ index, Node (capacity index)) (events : List (NetworkEvent capacity))
    (index : ι) (before after : ObjectDictionary (capacity index)) : Prop :=
  ∃ event ∈ events, event.input = .serve index ∧
    IsAsked (origin index) (event.before.inboxes (.node index)) ∧
    before = (event.before.nodes index).od ∧ after = (event.after.nodes index).od

omit [DecidableEq ι] in
theorem Took.concat {past : List (NetworkEvent capacity)} {index : ι}
    {before after : ObjectDictionary (capacity index)} (took : Took origin past index before after)
    (event : NetworkEvent capacity) : Took origin (past ++ [event]) index before after := by
  rcases took with ⟨earlier, member, taken⟩
  exact ⟨earlier, List.mem_append_left _ member, taken⟩

theorem own_eq_serve {move : Move ι} {index : ι} (own : Move.own index move = some .serve) :
    move = .serve index := by
  cases move with
  | serve other =>
      simp only [Move.own, Option.ite_none_right_eq_some] at own
      rw [own.1]
  | request | receive => simp [Move.own] at own
  | traffic => cases own

theorem AllFollow.step (opened : Opened origin started first) {past : List (NetworkEvent capacity)}
    (follow : AllFollow origin started first (Took origin past) network) (move : Move ι)
    (harmless : ∀ sender frame, move = .traffic sender frame →
      ∀ index, Harmless (origin index) frame) :
    ∃ after, network.step move = pure (after, ()) ∧
      AllFollow origin started first (Took origin (past ++ [⟨network, move, (), after⟩]))
        after := by
  rcases step_line opened follow move harmless with ⟨after, moved, lines⟩
  refine ⟨after, moved, fun index => ?_⟩
  rcases follow index with ⟨od, alone, follows⟩
  rcases follows.step (opened.ends index) (lines index)
    (Took origin (past ++ [⟨network, move, (), after⟩]) index)
    (fun _ _ took => took.concat _) (fun own asked =>
      ⟨_, List.mem_append_right _ List.mem_cons_self, own_eq_serve own, asked, rfl, rfl⟩) with
    ⟨laterOd, later, followsAfter, -⟩
  exact ⟨laterOd, later, followsAfter⟩

theorem AllFollow.run (opened : Opened origin started first) {past : List (NetworkEvent capacity)}
    (follow : AllFollow origin started first (Took origin past) network) (moves : List (Move ι))
    (harmless : ∀ sender frame, .traffic sender frame ∈ moves →
      ∀ index, Harmless (origin index) frame) :
    ∃ events final, Trace.run Network.step network moves = pure (events, final) ∧
      AllFollow origin started first (Took origin (past ++ events)) final := by
  induction moves generalizing past network with
  | nil => exact ⟨[], network, rfl, by simpa using follow⟩
  | cons move moves induction =>
      rcases follow.step opened move fun sender frame same =>
        harmless sender frame (same ▸ List.mem_cons_self) with ⟨after, moved, follows⟩
      rcases induction follows fun sender frame member =>
        harmless sender frame (List.mem_cons_of_mem move member) with
        ⟨events, final, ran, followsFinal⟩
      refine ⟨_, final, Trace.run_cons_eq_pure_iff.mpr ⟨after, (), events, moved, ran, rfl⟩, ?_⟩
      simpa using followsFinal

def begin (origin : ∀ index, Node (capacity index)) (started : ι → SdoClient)
    (first : ι → SdoPayload) : Network capacity :=
  ⟨origin, fun index => ⟨started index, .send (first index), false⟩, fun _ => []⟩

end Network

end CanOpen
