import CanOpen.Node.Operations

/-! # Which services a node offers

What a frame may change, and what may be sent, by the state of the node and the
COB-ID of the frame.
-/

namespace CanOpen

open Sdo (SdoServer)

variable {N : Nat}

namespace Node

/-! ## One frame -/

def ServesSdo (node : Node N) (cobId : UInt16) : Prop :=
  node.Serving ∧ cobId = node.sdo.requestCobId

/-- A frame of a configured receive PDO in the state in which PDOs are exchanged. -/
def ServesRpdo (node : Node N) (cobId : UInt16) : Prop :=
  node.state = .operational ∧ ∃ slot ∈ node.rpdos.toList, slot.cobId = cobId

def Commanded (node : Node N) (data : List UInt8) : Prop :=
  ∃ (frame : NmtCommandFrame) (rest : List UInt8) (command : NmtCommand) (target : NodeId),
    data = frame.toList ++ rest ∧ decodeCommand frame = .ok (command, target) ∧
      (target = .broadcast ∨ target = node.nodeId)

/-- What a frame may change and return. -/
structure Gated (node : Node N) (cobId : UInt16) (data : List UInt8) (after : Node N)
    (tx : Option TxFrame) : Prop where
  unconfigured : node.lssUnconfigured = true → cobId ≠ Lss.lssMasterCobId →
    after = node ∧ tx = none
  lss : cobId = Lss.lssMasterCobId → after = { node with lss := after.lss } ∧
    ∀ frame, tx = some frame → frame.cobId = Lss.lssSlaveCobId
  nmt : cobId = nmtCommandCobId → after = { node with nmt := after.nmt } ∧ tx = none ∧
    (after ≠ node → node.Commanded data)
  od : after.od ≠ node.od → node.ServesSdo cobId ∨ node.ServesRpdo cobId
  sdo : after.sdo ≠ node.sdo → node.ServesSdo cobId
  response : ∀ frame, tx = some frame → frame.cobId = node.sdo.responseCobId →
    node.ServesSdo cobId

theorem onLss_changes {node after : Node N} {data : List UInt8} {tx : Option TxFrame}
    (taken : node.onLss data = pure (after, tx)) :
    after = { node with lss := after.lss } ∧
      ∀ frame, tx = some frame → frame.cobId = Lss.lssSlaveCobId := by
  rcases node.onLss_returns data with
    ⟨out, returns, rfl | ⟨before, slave, sent, enabled, sameAddress, sameNodeId, replies, rfl⟩⟩
  · rw [taken] at returns
    cases returns
    exact ⟨rfl, by simp⟩
  · rw [taken] at returns
    cases returns
    exact ⟨rfl, replies⟩

theorem onNmt_changes {node after : Node N} {data : List UInt8}
    (taken : node.onNmt data = pure after) :
    after = { node with nmt := after.nmt } ∧ (after ≠ node → node.Commanded data) := by
  rcases node.onNmt_returns data with
    ⟨handled, returns, rfl | ⟨frame, rest, command, target, starts, decodes, addressed, rfl⟩⟩
  · rw [taken] at returns
    cases returns
    exact ⟨rfl, fun changed => absurd rfl changed⟩
  · rw [taken] at returns
    cases returns
    exact ⟨rfl, fun _ => ⟨frame, rest, command, target, starts, decodes, addressed⟩⟩

theorem onFrame_gated {node after : Node N} {cobId : UInt16} {data : List UInt8}
    {tx : Option TxFrame} (taken : node.onFrame cobId data = pure (after, tx)) :
    Gated node cobId data after tx := by
  have lss : cobId = Lss.lssMasterCobId → after = { node with lss := after.lss } ∧
      ∀ frame, tx = some frame → frame.cobId = Lss.lssSlaveCobId := by
    intro isLss
    rw [onFrame, if_pos isLss] at taken
    exact onLss_changes taken
  have unconfigured : node.lssUnconfigured = true → cobId ≠ Lss.lssMasterCobId →
      after = node ∧ tx = none := by
    intro unconfigured notLss
    rw [onFrame, if_neg notLss, if_pos unconfigured] at taken
    cases taken
    exact ⟨rfl, rfl⟩
  have nmt : cobId = nmtCommandCobId → after = { node with nmt := after.nmt } ∧ tx = none ∧
      (after ≠ node → node.Commanded data) := by
    intro isNmt
    have notLss : cobId ≠ Lss.lssMasterCobId := by
      rw [isNmt]
      decide
    cases configured : node.lssUnconfigured with
    | true =>
        rcases unconfigured configured notLss with ⟨rfl, rfl⟩
        exact ⟨rfl, rfl, fun changed => absurd rfl changed⟩
    | false =>
        rw [isNmt, onFrame_nmtCommand configured, Exec.bind_eq_pure_iff] at taken
        rcases taken with ⟨changed, handled, taken⟩
        cases taken
        exact ⟨(onNmt_changes handled).1, rfl, (onNmt_changes handled).2⟩
  have effect : (after.od ≠ node.od → node.ServesSdo cobId ∨ node.ServesRpdo cobId) ∧
      (after.sdo ≠ node.sdo → node.ServesSdo cobId) ∧
      (∀ frame, tx = some frame → frame.cobId = node.sdo.responseCobId →
        node.ServesSdo cobId) := by
    generalize out : (after, tx) = result at taken
    have sameAfter : after = result.1 := by rw [← out]
    have sameTx : tx = result.2 := by rw [← out]
    rw [sameAfter, sameTx]
    cases onFrame_served taken with
    | ignored | nmt => simp
    | lss before slave tx isLss enabled sameAddress sameNodeId replies =>
        refine ⟨by simp, by simp, ?_⟩
        intro frame sent onResponse
        exact absurd ((onResponse.symm.trans (replies frame sent)))
          (responseCobId_ne_lss node.sdo.node)
    | sdo payload handled tx isRequest configured serving =>
        exact ⟨fun _ => .inl ⟨serving, isRequest⟩, fun _ => ⟨serving, isRequest⟩,
          fun _ _ _ => ⟨serving, isRequest⟩⟩
    | rpdo slot outcome od notRequest configured operational member listens =>
        exact ⟨fun _ => .inr ⟨operational, slot, member, listens⟩, by simp, by simp⟩
  exact ⟨unconfigured, lss, nmt, effect.1, effect.2.1, effect.2.2⟩

/-! ## Transmit PDOs -/

theorem syncTpdos_operational {node : Node N} {frames : BoundedVec TxFrame maxPdos}
    (taken : node.syncTpdos = pure frames) (some_ : frames.toList ≠ []) :
    node.state = .operational := by
  unfold syncTpdos at taken
  split at taken
  · cases taken
    exact absurd rfl some_
  · next operational => simpa using operational

theorem tpdo_operational {node : Node N} {index : Nat} {frame : TxFrame}
    (taken : node.tpdo index = pure (some frame)) : node.state = .operational := by
  unfold tpdo at taken
  split at taken
  · cases taken
  · next operational => simpa using operational

end Node

/-! ## Whole runs -/

def NodeOp.IsTraffic : NodeOp N → Prop
  | .onFrame _ _ | .syncTpdos | .tpdo _ => True
  | _ => False

namespace Node

/-- The states in which a node offers neither SDO nor PDOs. -/
def Inactive (node : Node N) : Prop := node.state = .initialising ∨ node.state = .stopped

theorem Inactive.not_serving {node : Node N} (inactive : node.Inactive) : ¬ node.Serving := by
  rcases inactive with state | state <;> simp [Serving, state]

theorem Inactive.not_operational {node : Node N} (inactive : node.Inactive) :
    node.state ≠ .operational := by
  rcases inactive with state | state <;> simp [state]

def SameData (node other : Node N) : Prop :=
  other.od = node.od ∧ other.sdo = node.sdo ∧ other.rpdos = node.rpdos ∧
    other.tpdos = node.tpdos

theorem SameData.trans {node middle other : Node N} (first : node.SameData middle)
    (second : middle.SameData other) : node.SameData other :=
  ⟨second.1.trans first.1, second.2.1.trans first.2.1, second.2.2.1.trans first.2.2.1,
    second.2.2.2.trans first.2.2.2⟩

theorem perform_inactive {node after : Node N} {op : NodeOp N} {frames : List TxFrame}
    (inactive : node.Inactive) (traffic : op.IsTraffic)
    (taken : op.perform node = pure (after, frames)) :
    node.SameData after ∧ ∀ frame ∈ frames, frame.cobId = Lss.lssSlaveCobId := by
  cases op with
  | onFrame cobId data =>
      rw [NodeOp.perform, Exec.bind_eq_pure_iff] at taken
      rcases taken with ⟨⟨next, tx⟩, handled, taken⟩
      cases taken
      have gated := onFrame_gated handled
      have served := onFrame_served handled
      have notSdo : ¬ node.ServesSdo cobId := fun serves => inactive.not_serving serves.1
      have notRpdo : ¬ node.ServesRpdo cobId := fun serves =>
        inactive.not_operational serves.1
      refine ⟨⟨?_, ?_, served.pdos.1, served.pdos.2⟩, ?_⟩
      · by_contra changed
        rcases gated.od changed with serves | serves
        · exact notSdo serves
        · exact notRpdo serves
      · by_contra changed
        exact notSdo (gated.sdo changed)
      · intro frame sent
        rw [Option.mem_toList] at sent
        by_cases isLss : cobId = Lss.lssMasterCobId
        · exact (gated.lss isLss).2 frame sent
        · generalize out : (after, tx) = result at handled served
          have sameTx : tx = result.2 := by rw [← out]
          subst sameTx
          cases served with
          | ignored | nmt | rpdo => cases sent
          | lss _ _ _ equal => exact absurd equal isLss
          | sdo _ _ _ isRequest _ serving => exact absurd ⟨serving, isRequest⟩ notSdo
  | syncTpdos =>
      rw [NodeOp.perform, Exec.bind_eq_pure_iff] at taken
      rcases taken with ⟨built, builds, taken⟩
      cases taken
      refine ⟨⟨rfl, rfl, rfl, rfl⟩, fun frame sent => ?_⟩
      exact absurd (syncTpdos_operational builds (List.ne_nil_of_mem sent))
        inactive.not_operational
  | tpdo index =>
      rw [NodeOp.perform, Exec.bind_eq_pure_iff] at taken
      rcases taken with ⟨built, builds, taken⟩
      cases taken
      refine ⟨⟨rfl, rfl, rfl, rfl⟩, fun frame sent => ?_⟩
      rw [Option.mem_toList] at sent
      subst sent
      exact absurd (tpdo_operational builds) inactive.not_operational
  | _ => exact traffic.elim

/-- Services are gated by the state of the node: frame by frame, for transmit PDOs, and
over any traffic during which the node stays inactive. The COB-IDs that matter are those
of the node, whatever was done to it since it was made. -/
theorem services_gated (node : Node N) :
    (∀ cobId data after tx, node.onFrame cobId data = pure (after, tx) →
      Gated node cobId data after tx) ∧
    (∀ frames, node.syncTpdos = pure frames → frames.toList ≠ [] →
      node.state = .operational) ∧
    (∀ index frame, node.tpdo index = pure (some frame) → node.state = .operational) ∧
    (∀ ops events final, (∀ op ∈ ops, op.IsTraffic) →
      Trace.run NodeOp.perform node ops = pure (events, final) →
      (∀ event ∈ events, event.before.Inactive) →
      node.SameData final ∧
        ∀ event ∈ events, ∀ frame ∈ event.output, frame.cobId = Lss.lssSlaveCobId) ∧
    ∀ nodeId od ops events final,
      Trace.run NodeOp.perform (Node.new nodeId od : Node N) ops = pure (events, final) →
      final.sdo.requestCobId = 0x600 + final.nodeId.raw.toUInt16 ∧
        final.sdo.responseCobId = 0x580 + final.nodeId.raw.toUInt16 := by
  refine ⟨fun cobId data after tx taken => onFrame_gated taken,
    fun frames taken some_ => syncTpdos_operational taken some_,
    fun index frame taken => tpdo_operational taken, ?_, ?_⟩
  · intro ops events final traffic ran inactive
    have inputs := Trace.run_inputs ran
    have history := Trace.run_while
      (fun event => event.input.IsTraffic ∧ event.before.Inactive)
      (fun past state => node.SameData state ∧
        ∀ event ∈ past, ∀ frame ∈ event.output, frame.cobId = Lss.lssSlaveCobId)
      ⟨⟨rfl, rfl, rfl, rfl⟩, by simp⟩
      (fun past event holds taken quiet => by
        rcases perform_inactive quiet.2 quiet.1 taken with ⟨sameStep, reply⟩
        rw [List.forall_mem_append, List.forall_mem_singleton]
        exact ⟨holds.1.trans sameStep, holds.2, reply⟩) ran
    apply history.1
    intro event member
    refine ⟨traffic event.input ?_, inactive event member⟩
    rw [← inputs]
    exact List.mem_map_of_mem member
  · intro nodeId od ops events final ran
    rw [SdoServer.requestCobId, SdoServer.responseCobId, (NodeOp.sameNode_in_run ran).1]
    exact ⟨rfl, rfl⟩

end Node

end CanOpen
