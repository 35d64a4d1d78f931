import CanOpen.Cli.Monitor
import CanOpen.Network.Supervision

/-! # The pre-defined connection set

As long as the nodes keep to the COB-IDs that belong to their node-ids, each frame that they
transmit tells its service and its sender, and is no command to any node.
-/

namespace CanOpen

/-! ## Services and COB-IDs -/

section Sender

variable {N : Nat}

def NodeOp.service : NodeOp N → String
  | .boot | .nodeGuardResponse | .heartbeat => "heartbeat"
  | .raiseEmergency _ _ _ | .clearErrors => "EMCY"
  | .produceSync => "SYNC"
  | .onFrame cobId _ => if cobId = Lss.lssMasterCobId then "LSS" else "SDO tx"
  | .syncTpdos | .tpdo _ => "PDO"
  | _ => ""

/-- The node has a node-id, its SDO server is on the COB-IDs of this id, and so are its transmit
PDOs. -/
structure Node.OnConnectionSet (node : Node N) : Prop where
  positive : 1 ≤ node.nodeId.raw
  server : node.sdo.node = node.nodeId
  tpdos : ∀ slot ∈ node.tpdos.toList, ∃ number,
    defaultCobId .transmit number node.nodeId = some slot.cobId

/-- The COB-ID is the one of SYNC or of the LSS slaves, or has the node-id in its low seven
bits. -/
def IsSentBy (node : NodeId) (cobId : UInt16) : Prop :=
  cobId = syncCobId ∨ cobId = Lss.lssSlaveCobId ∨ cobId &&& 0x7F = node.raw.toUInt16

theorem isSentBy_of_toNat {node : NodeId} {cobId : UInt16}
    (low : cobId.toNat % 128 = node.raw.toNat) : IsSentBy node cobId := by
  refine .inr (.inr (UInt16.toNat_inj.mp ?_))
  rw [UInt16.toNat_and, UInt8.toNat_toUInt16, ← low]
  exact Nat.and_two_pow_sub_one_eq_mod cobId.toNat 7

/-- No frame on the COB-ID is a command of a master: for the NMT, for an SDO server or for the LSS
slaves. -/
structure NoCommand (cobId : UInt16) : Prop where
  nmt : cobId ≠ nmtCommandCobId
  sdo : ∀ node : NodeId, 1 ≤ node.raw → cobId ≠ Sdo.requestCobId node
  lss : cobId ≠ Lss.lssMasterCobId

theorem noCommand_of_toNat {cobId : UInt16} (positive : 0 < cobId.toNat)
    (range : cobId.toNat ≤ 0x600 ∨ 0x680 ≤ cobId.toNat) (notLss : cobId.toNat ≠ 0x7E5) :
    NoCommand cobId := by
  refine ⟨?_, fun node isNode => ?_, ?_⟩
  · rintro rfl
    exact absurd positive (by decide)
  · rintro rfl
    have bound : node.raw.toNat ≤ 127 := UInt8.le_iff_toNat_le.mp node.raw_le
    have one : 1 ≤ node.raw.toNat := UInt8.le_iff_toNat_le.mp isNode
    rw [requestCobId_toNat] at range
    omega
  · rintro rfl
    exact notLss rfl

theorem noCommand_sync : NoCommand syncCobId :=
  noCommand_of_toNat (by decide) (by decide) (by decide)

theorem noCommand_lssSlave : NoCommand Lss.lssSlaveCobId :=
  noCommand_of_toNat (by decide) (by decide) (by decide)

structure TellsSender (node : Node N) (op : NodeOp N) (cobId : UInt16) : Prop where
  service : Cli.classify cobId = op.service
  sender : IsSentBy node.nodeId cobId
  noCommand : NoCommand cobId

theorem Transmits.tells {node : Node N} {op : NodeOp N} {sent : List BusFrame}
    (transmits : Transmits node op sent) (keeps : node.OnConnectionSet) :
    ∀ frame ∈ sent, TellsSender node op frame.1 := by
  have bound : node.nodeId.raw.toNat ≤ 127 := UInt8.le_iff_toNat_le.mp node.nodeId.raw_le
  have one : 1 ≤ node.nodeId.raw.toNat := UInt8.le_iff_toNat_le.mp keeps.positive
  have heartbeat : ∀ op : NodeOp N, op.service = "heartbeat" →
      TellsSender node op (heartbeatCobId node.nodeId) := by
    intro op isHeartbeat
    have number := heartbeatCobId_toNat node.nodeId
    exact ⟨(Cli.classify_heartbeat (by omega) (by omega)).trans isHeartbeat.symm,
      isSentBy_of_toNat (by omega), noCommand_of_toNat (by omega) (by omega) (by omega)⟩
  have emergency : ∀ op : NodeOp N, op.service = "EMCY" →
      TellsSender node op (emcyCobId node.nodeId) := by
    intro op isEmergency
    have number := emcyCobId_toNat node.nodeId
    exact ⟨(Cli.classify_emergency (by omega) (by omega)).trans isEmergency.symm,
      isSentBy_of_toNat (by omega), noCommand_of_toNat (by omega) (by omega) (by omega)⟩
  have pdo : ∀ (op : NodeOp N) (cobId : UInt16), op.service = "PDO" →
      (∃ slot ∈ node.tpdos.toList, slot.cobId = cobId) → TellsSender node op cobId := by
    rintro op _ isPdo ⟨slot, member, rfl⟩
    rcases keeps.tpdos slot member with ⟨number, isDefault⟩
    rcases toNat_defaultCobId isDefault with ⟨low, high, value⟩
    rw [PdoKind.base] at value
    exact ⟨(Cli.classify_pdo (by omega) (by omega)).trans isPdo.symm,
      isSentBy_of_toNat (by omega), noCommand_of_toNat (by omega) (by omega) (by omega)⟩
  cases transmits with
  | bootup | guarded | heartbeat => simpa using heartbeat _ rfl
  | raised | cleared => simpa using emergency _ rfl
  | sync =>
      rw [List.forall_mem_singleton]
      exact ⟨rfl, .inl rfl, noCommand_sync⟩
  | noSync | silent => simp
  | replied cobId data _ replies =>
      intro frame member
      rcases replies frame member with ⟨request, isLss⟩ | ⟨request, isResponse⟩
      · rw [isLss]
        refine ⟨?_, .inr (.inl rfl), noCommand_lssSlave⟩
        rw [NodeOp.service, if_pos request]
        rfl
      · have number := responseCobId_toNat node.nodeId
        have noLss : cobId ≠ Lss.lssMasterCobId := by
          rw [request]
          exact (requestCobId_ne node.sdo.node).2
        rw [isResponse, Sdo.SdoServer.responseCobId, keeps.server]
        refine ⟨?_, isSentBy_of_toNat (by omega),
          noCommand_of_toNat (by omega) (by omega) (by omega)⟩
        rw [NodeOp.service, if_neg noLss]
        exact Cli.classify_sdoResponse (by omega) (by omega)
  | synced _ slots | demanded _ _ slots =>
      exact fun frame member => pdo _ frame.1 rfl (slots frame member)

/-- A frame that is no command draws no answer, and changes nothing but the objects that a receive
PDO on its COB-ID maps. -/
theorem Node.onFrame_noCommand {node : Node N} (positive : 1 ≤ node.nodeId.raw)
    (server : node.sdo.node = node.nodeId) {cobId : UInt16} (noCommand : NoCommand cobId)
    (data : List UInt8) :
    ∃ od, node.onFrame cobId data = pure ({ node with od }, none) ∧
      (od = node.od ∨ node.state = .operational ∧ ∃ slot ∈ node.rpdos.toList, slot.cobId = cobId ∧
        ∀ addr, (∀ entry ∈ slot.mapping.entries.toList, entry.address ≠ addr) →
          od.entry addr = node.od.entry addr) := by
  have noRequest : cobId ≠ node.sdo.requestCobId := by
    rw [Sdo.SdoServer.requestCobId, server]
    exact noCommand.sdo node.nodeId positive
  rcases node.onFrame_returns cobId data fun request => absurd request noRequest with
    ⟨out, received⟩
  rw [received]
  cases onFrame_served received with
  | ignored => exact ⟨node.od, rfl, .inl rfl⟩
  | lss _ _ _ request => exact absurd request noCommand.lss
  | nmt _ _ _ _ request => exact absurd request noCommand.nmt
  | sdo _ _ _ request => exact absurd request noRequest
  | rpdo slot result od _ _ operational member listens unpacks =>
      exact ⟨od, rfl, .inr ⟨operational, slot, member, listens,
        fun addr unmapped => unpack_leaves unpacks unmapped⟩⟩

end Sender

/-! ## The nodes of a network -/

namespace Plant

variable {ι : Type} [DecidableEq ι] {capacity : ι → Nat}

/-- The server of each node is in a state it can reach, and on the COB-IDs of its node-id. -/
def ServersOwn (plant : Plant capacity) : Prop :=
  ∀ index, (plant index).sdo.Valid ∧ (plant index).sdo.node = (plant index).nodeId

theorem ServersOwn.step {plant after : Plant capacity} (own : ServersOwn plant)
    {action : Action capacity} {received : List HeartbeatMonitor.Received}
    (taken : plant.step action = pure (after, received)) : ServersOwn after := by
  rw [Plant.step, Exec.bind_eq_pure_iff] at taken
  rcases taken with ⟨⟨node, sent⟩, stepped, ⟨⟩⟩
  rcases NodeOp.step_eq_pure_iff.mp stepped with ⟨frames, performed, -⟩
  rcases own action.index with ⟨valid, server⟩
  have change := NodeOp.serverChange valid performed
  intro index
  by_cases same : index = action.index
  · subst same
    rw [Function.update_self]
    exact ⟨change.valid valid, change.sameNode server⟩
  · rw [Function.update_of_ne same]
    exact own index

end Plant

/-- Whatever the nodes of a network do, in any order: a frame of a node whose transmit PDOs are on
their default COB-IDs is labelled with the service that it belongs to, and tells the node-id of its
sender unless it is a SYNC or an answer to the LSS master. No node takes it for a command: a node
that it is handed does not answer, and remains as it is but for the objects that one of its receive
PDOs maps. -/
theorem frames_tell_their_sender {ι : Type} [DecidableEq ι] {capacity : ι → Nat}
    (ids : ι → NodeId) (ods : ∀ index, ObjectDictionary (capacity index))
    (actions : List (Action capacity)) :
    ∃ events final,
      Trace.run Plant.step (fun index => Node.new (ids index) (ods index)) actions =
        pure (events, final) ∧
      ∀ event ∈ events, 1 ≤ (Plant.actor event).nodeId.raw →
        (∀ slot ∈ (Plant.actor event).tpdos.toList, ∃ number,
          defaultCobId .transmit number (Plant.actor event).nodeId = some slot.cobId) →
        ∀ frame ∈ event.output,
          Cli.classify frame.cobId = event.input.op.service ∧
          IsSentBy (Plant.actor event).nodeId frame.cobId ∧
          ∀ index, 1 ≤ (event.before index).nodeId.raw →
            ∃ od, (event.before index).onFrame frame.cobId frame.data =
                pure ({ event.before index with od }, none) ∧
              (od = (event.before index).od ∨ (event.before index).state = .operational ∧
                ∃ slot ∈ (event.before index).rpdos.toList, slot.cobId = frame.cobId ∧
                  ∀ addr, (∀ entry ∈ slot.mapping.entries.toList, entry.address ≠ addr) →
                    od.entry addr = (event.before index).od.entry addr) := by
  let start : Plant capacity := fun index => Node.new (ids index) (ods index)
  have own : start.ServersOwn := fun index => ⟨Sdo.SdoServer.valid_new (ids index), rfl⟩
  rcases Plant.run_returns start (fun index => (own index).1) actions with ⟨events, final, ran⟩
  refine ⟨events, final, ran, ?_⟩
  have history := (Trace.run_history (fun _ (plant : Plant capacity) => plant.ServersOwn)
    (fun _ event => event.before.ServersOwn) own
    (fun _ _ _ _ _ own taken => ⟨own.step taken, own⟩) ran).2
  intro event member positive tpdos frame sent
  rcases List.append_of_mem member with ⟨past, future, split⟩
  have owns := history past event future split
  rw [split] at ran
  rcases Plant.step_transmits (Trace.run_split ran).1 with ⟨frames, transmits, received⟩
  rw [received] at sent
  rcases List.mem_map.mp sent with ⟨onBus, isOnBus, rfl⟩
  have tells := transmits.tells ⟨positive, (owns event.input.index).2, tpdos⟩ onBus isOnBus
  exact ⟨tells.service, tells.sender, fun index isNode =>
    Node.onFrame_noCommand isNode (owns index).2 tells.noCommand onBus.2⟩

end CanOpen
