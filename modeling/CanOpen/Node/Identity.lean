import CanOpen.Node.Adoption
import CanOpen.Node.Effects

/-! # One identity

The node-id stands in the node, in its SDO server and in its LSS slave. All operations keep
the three in agreement but a change of the node-id behind the back of the slave.
-/

namespace CanOpen

open Lss (LssSlave)
open Sdo (SdoServer)

variable {N : Nat}

namespace Node

def slaveNodeId (node : Node N) : Option UInt8 := node.lss.map LssSlave.nodeId

/-- Requests are served under the node-id, the slave has the same one or none, and it reports
the one it has. -/
structure OneIdentity (node : Node N) : Prop where
  requests : node.sdo.requestCobId = 0x600 + node.nodeId.raw.toUInt16
  active : ∀ slave, node.lss = some slave →
    slave.nodeId = Lss.unconfiguredNodeId ∨ slave.nodeId = node.nodeId.raw
  inquired : ∀ slave, node.lss = some slave → slave.state = .configuration →
    slave.nodeId ≠ Lss.unconfiguredNodeId →
    ∃ tx, node.onFrame Lss.lssMasterCobId Lss.encodeInquireNodeId.toList = pure (node, some tx) ∧
      tx.data = Lss.frameByte Lss.csInquireNodeId node.nodeId.raw

theorem lssUnconfigured_eq (node : Node N) :
    node.lssUnconfigured = decide (node.slaveNodeId = some Lss.unconfiguredNodeId) := by
  unfold lssUnconfigured slaveNodeId
  cases node.lss <;> simp

theorem onFrame_inquire {node : Node N} {slave : LssSlave} (enabled : node.lss = some slave)
    (configuring : slave.state = .configuration) :
    ∃ tx, node.onFrame Lss.lssMasterCobId Lss.encodeInquireNodeId.toList = pure (node, some tx) ∧
      tx.data = Lss.frameByte Lss.csInquireNodeId slave.nodeId := by
  have handled : slave.handle Lss.encodeInquireNodeId =
      pure (slave, some (Lss.frameByte Lss.csInquireNodeId slave.nodeId)) := by
    have specifier : Lss.encodeInquireNodeId.get 0 = Lss.csInquireNodeId := rfl
    simp only [LssSlave.handle, specifier, configuring, and_true]
    rfl
  have short : ¬ 8 < Lss.encodeInquireNodeId.toList.length := by simp
  rcases TxFrame.new_of_response Lss.lssSlaveCobId
    (Lss.frameByte Lss.csInquireNodeId slave.nodeId) with ⟨tx, built, -, -, data⟩
  refine ⟨tx, ?_, data⟩
  rw [onFrame, if_pos rfl, onLss, enabled]
  dsimp only
  rw [if_neg short, padFrame_toList, pure_bind, handled, pure_bind]
  simp only [built, pure_bind, ← enabled]

/-- The identity is one as soon as the server has the node-id and the slave has it or none. -/
theorem OneIdentity.of_active {node : Node N} (sameServer : node.sdo.node = node.nodeId)
    (active : ∀ slave, node.lss = some slave →
      slave.nodeId = Lss.unconfiguredNodeId ∨ slave.nodeId = node.nodeId.raw) :
    node.OneIdentity where
  requests := by
    rw [SdoServer.requestCobId, Sdo.requestCobId, sameServer, Sdo.sdoRequestCobBase]
  active := active
  inquired := by
    intro slave enabled configuring configured
    rw [← (active slave enabled).resolve_left configured]
    exact onFrame_inquire enabled configuring

end Node

/-! ## Whole runs -/

/-- The node has been given a node-id since it was last told that it has none. -/
def GivenId (past : List (NodeEvent N)) : Prop :=
  ∃ earlier given later id, past = earlier ++ given :: later ∧ given.input = .setNodeId id ∧
    ∀ event ∈ later, ∀ address, event.input ≠ .enableLssUnconfigured address

/-- The node-id is changed while LSS is disabled, or to the one that is active in the
slave. -/
def SetsActiveId (event : NodeEvent N) : Prop :=
  ∀ id, event.input = .setNodeId id →
    event.before.slaveNodeId = none ∨ event.before.slaveNodeId = some id.raw

/-- The slave agrees with the node, and is configured once the node has been given an id. -/
structure Agrees (past : List (NodeEvent N)) (node : Node N) : Prop where
  active : node.slaveNodeId = none ∨ node.slaveNodeId = some Lss.unconfiguredNodeId ∨
    node.slaveNodeId = some node.nodeId.raw
  configured : GivenId past → node.slaveNodeId ≠ some Lss.unconfiguredNodeId

theorem GivenId.before {past : List (NodeEvent N)} {event : NodeEvent N}
    (given : GivenId (past ++ [event])) (other : ∀ id, event.input ≠ .setNodeId id) :
    GivenId past ∧ ∀ address, event.input ≠ .enableLssUnconfigured address := by
  rcases given with ⟨earlier, setEvent, later, id, split, sets, quiet⟩
  rcases List.eq_nil_or_concat later with rfl | ⟨front, last, rfl⟩
  · rcases List.append_inj' split rfl with ⟨-, same⟩
    cases same
    exact absurd sets (other id)
  · rw [List.concat_eq_append, ← List.cons_append, ← List.append_assoc] at split
    rcases List.append_inj' split rfl with ⟨rfl, same⟩
    cases same
    rw [List.concat_eq_append, List.forall_mem_append, List.forall_mem_singleton] at quiet
    exact ⟨⟨earlier, setEvent, front, id, rfl, sets, quiet.1⟩, quiet.2⟩

theorem Node.Served.kept {node : Node N} {cobId : UInt16} {data : List UInt8}
    {out : Node N × Option TxFrame} (served : Node.Served node cobId data out) :
    out.1.nodeId = node.nodeId ∧ out.1.slaveNodeId = node.slaveNodeId := by
  cases served with
  | ignored | nmt | sdo | rpdo => exact ⟨rfl, rfl⟩
  | lss before slave _ _ enabled _ sameNodeId =>
      refine ⟨rfl, ?_⟩
      rw [Node.slaveNodeId, Node.slaveNodeId, enabled, Option.map_some, Option.map_some,
        sameNodeId]

section

variable {past : List (NodeEvent N)} {node after : Node N} {op : NodeOp N}
  {frames : List TxFrame}

theorem Agrees.keep (agrees : Agrees past node) (sameId : after.nodeId = node.nodeId)
    (sameSlave : after.slaveNodeId = node.slaveNodeId) (notSet : ∀ id, op ≠ .setNodeId id) :
    Agrees (past ++ [⟨node, op, frames, after⟩]) after := by
  refine ⟨by rw [sameSlave, sameId]; exact agrees.active, fun given => ?_⟩
  rw [sameSlave]
  exact agrees.configured (given.before notSet).1

theorem Agrees.of_own (own : after.slaveNodeId = some after.nodeId.raw) :
    Agrees (past ++ [⟨node, op, frames, after⟩]) after := by
  refine ⟨.inr (.inr own), fun _ => ?_⟩
  rw [own, ne_eq, Option.some.injEq]
  exact after.nodeId.raw_ne_unconfigured

theorem agrees_step (agrees : Agrees past node) (sets : SetsActiveId ⟨node, op, frames, after⟩)
    (effect : OpEffect node op after frames) :
    Agrees (past ++ [⟨node, op, frames, after⟩]) after := by
  cases effect with
  | enabled address => exact .of_own rfl
  | unconfigured address =>
      refine ⟨.inr (.inl rfl), fun given => ?_⟩
      exact absurd rfl ((given.before (by simp)).2 address)
  | renumbered id =>
      have sameSlave : (node.setNodeId id).slaveNodeId = node.slaveNodeId := rfl
      rcases sets id rfl with disabled | own
      · rw [← sameSlave] at disabled
        exact ⟨.inl disabled, fun _ => by simp [disabled]⟩
      · rw [← sameSlave] at own
        exact .of_own own
  | adopted id _ applied =>
      rcases Node.applyLssNodeId_eq_some_iff.mp applied with ⟨slave, _, pending, _, rfl⟩
      exact .of_own (congrArg some pending)
  | borrowed | booted | raised | cleared => exact agrees.keep rfl rfl (by simp)
  | received cobId data _ tx taken =>
      have kept := (Node.onFrame_served taken).kept
      exact agrees.keep kept.1 kept.2 (by simp)
  | internal _ _ _ isInternal sameId sameSlave =>
      apply agrees.keep sameId (by rw [Node.slaveNodeId, sameSlave, Node.slaveNodeId])
      rintro id rfl
      exact isInternal

end

theorem Agrees.oneIdentity {past : List (NodeEvent N)} {node : Node N}
    (agrees : Agrees past node) (sameServer : node.sdo.node = node.nodeId) : node.OneIdentity := by
  apply Node.OneIdentity.of_active sameServer
  intro slave enabled
  have active := agrees.active
  rw [Node.slaveNodeId, enabled, Option.map_some] at active
  simpa using active

/-- The node is one to its master after every operation, and is no longer without a node-id
once it has been given one. -/
structure HasOneIdentity (events : List (NodeEvent N)) : Prop where
  after : ∀ event ∈ events, event.after.OneIdentity
  configured : ∀ past event future, events = past ++ event :: future →
    GivenId (past ++ [event]) → event.after.lssUnconfigured = false

/-- A change of the node-id after which the node has one identity is to the active id. -/
theorem HasOneIdentity.setsActiveId {events : List (NodeEvent N)} (one : HasOneIdentity events)
    (effects : ∀ event ∈ events, OpEffect event.before event.input event.after event.output) :
    ∀ event ∈ events, SetsActiveId event := by
  intro event member id isOp
  rcases List.append_of_mem member with ⟨past, future, split⟩
  have configured := one.configured past event future split
    ⟨past, event, [], id, rfl, isOp, by simp⟩
  have sameAfter : event.after = event.before.setNodeId id := by
    have effect := effects event member
    rw [isOp] at effect
    exact effect.eq_setNodeId
  have sameSlave : event.after.slaveNodeId = event.before.slaveNodeId := by
    rw [sameAfter]
    rfl
  cases enabled : event.after.lss with
  | none => exact .inl (by rw [← sameSlave, Node.slaveNodeId, enabled, Option.map_none])
  | some slave =>
      have same : event.after.slaveNodeId = some slave.nodeId := by
        rw [Node.slaveNodeId, enabled, Option.map_some]
      rw [Node.lssUnconfigured_eq, same, decide_eq_false_iff_not, Option.some.injEq]
        at configured
      have own := ((one.after event member).active slave enabled).resolve_left configured
      exact .inr (by rw [← sameSlave, same, own, sameAfter, Node.setNodeId])

/-- A node serves requests under its node-id after every operation. It has one identity
throughout exactly if its node-id is only ever changed while LSS is disabled or to the one that
is active in the slave. -/
theorem one_identity_iff (nodeId : NodeId) (od : ObjectDictionary N) (ops : List (NodeOp N)) :
    (Node.new nodeId od).OneIdentity ∧
      ∃ events final,
        Trace.run NodeOp.perform (Node.new nodeId od) ops = pure (events, final) ∧
          (∀ event ∈ events,
            event.after.sdo.requestCobId = 0x600 + event.after.nodeId.raw.toUInt16) ∧
          (HasOneIdentity events ↔ ∀ event ∈ events, SetsActiveId event) := by
  rcases Node.new_runs nodeId od ops with ⟨events, final, ran⟩
  have atStart : Agrees [] (Node.new nodeId od) :=
    ⟨.inl rfl, fun given => by rcases given with ⟨_, _, _, _, split, -⟩; simp at split⟩
  have sameNode := (NodeOp.sameNode_in_run ran).2
  have taken : ∀ past event future, events = past ++ event :: future →
      OpEffect event.before event.input event.after event.output := by
    rintro past event future rfl
    exact NodeOp.effect (Trace.run_split ran).1
  refine ⟨atStart.oneIdentity rfl, events, final, ran, ?_, ?_, ?_⟩
  · intro event member
    rcases List.append_of_mem member with ⟨past, future, split⟩
    rw [SdoServer.requestCobId, Sdo.requestCobId, sameNode past event future split,
      Sdo.sdoRequestCobBase]
  · intro one
    apply one.setsActiveId
    intro event member
    rcases List.append_of_mem member with ⟨past, future, split⟩
    exact taken past event future split
  · intro sets
    have history := Trace.run_while SetsActiveId Agrees atStart
      (fun past event agrees performed sets => agrees_step agrees sets (NodeOp.effect performed))
      ran
    have agrees : ∀ past event future, events = past ++ event :: future →
        Agrees (past ++ [event]) event.after := by
      intro past event future split
      have before : Agrees past event.before := by
        apply history.2 past event future split
        intro earlier member
        apply sets earlier
        rw [split]
        exact List.mem_append_left _ member
      apply agrees_step before _ (taken past event future split)
      apply sets event
      rw [split]
      exact List.mem_append_right _ List.mem_cons_self
    constructor
    · intro event member
      rcases List.append_of_mem member with ⟨past, future, split⟩
      exact (agrees past event future split).oneIdentity (sameNode past event future split)
    · intro past event future split given
      rw [Node.lssUnconfigured_eq, decide_eq_false_iff_not]
      exact (agrees past event future split).configured given

/-- Node `1` is renumbered after LSS was enabled, and its slave keeps the old node-id. A node
without a node-id is renumbered, and is still taken to have none. -/
theorem renumbered_behind_slave :
    let node : Node 0 := Node.new ⟨1, by decide⟩ .new
    let id : NodeId := ⟨2, by decide⟩
    (∃ events final,
      Trace.run NodeOp.perform node [.enableLss ⟨1, 2, 3, 4⟩, .setNodeId id] =
          pure (events, final) ∧
        final.nodeId = id ∧ final.slaveNodeId = some 1 ∧ ¬ final.OneIdentity ∧
        ¬ HasOneIdentity events) ∧
    ∃ events final,
      Trace.run NodeOp.perform node [.enableLssUnconfigured ⟨1, 2, 3, 4⟩, .setNodeId id] =
          pure (events, final) ∧
        GivenId events ∧ final.lssUnconfigured = true ∧ ¬ HasOneIdentity events := by
  constructor
  · refine ⟨[_, _], _, rfl, rfl, rfl, ?_, fun one => ?_⟩
    · intro one
      exact absurd (one.active _ rfl) (by decide)
    · have last := one.after _ (List.mem_cons_of_mem _ List.mem_cons_self)
      exact absurd (last.active _ rfl) (by decide)
  · have given : ∀ first second : NodeEvent 0,
        second.input = .setNodeId ⟨2, by decide⟩ → GivenId ([first] ++ [second]) :=
      fun first second isOp => ⟨[first], second, [], _, rfl, isOp, by simp⟩
    refine ⟨[_, _], _, rfl, given _ _ rfl, rfl, fun one => ?_⟩
    exact absurd (one.configured [_] _ [] rfl (given _ _ rfl)) (by decide)

end CanOpen
