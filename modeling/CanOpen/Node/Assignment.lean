import CanOpen.Node.Adoption

/-! # The node-id that a master assigns

The slave acknowledges two kinds of node-ids, those of a device and the one of an
unconfigured node. The node adopts only the first kind at its reset.
-/

namespace CanOpen

/-! ## The answer of the slave -/

namespace Lss

/-- A node-id that a slave takes: that of a device, or the one of no node. -/
def IsAssignable (id : UInt8) : Prop := (1 ≤ id ∧ id ≤ 127) ∨ id = unconfiguredNodeId

instance (id : UInt8) : Decidable (IsAssignable id) := by
  unfold IsAssignable
  infer_instance

/-- A slave in configuration answers every configure frame, with an error code of zero exactly
if it takes the node-id. -/
theorem LssSlave.handle_of_configure {slave : LssSlave} {req : LssFrame}
    (configuring : slave.state = .configuration) (configures : req.get 0 = csConfigureNodeId) :
    slave.handle req =
      if IsAssignable (req.get 1) then
        pure ({ slave with pendingNodeId := req.get 1 }, some (frameByte csConfigureNodeId 0))
      else pure (slave, some (frameByte csConfigureNodeId 1)) := by
  unfold handle
  rw [configures]
  simp [configuring, IsAssignable, csConfigureNodeId, csSwitchGlobal, csSwitchSelectiveVendor,
    csSwitchSelectiveProduct, csSwitchSelectiveRevision, csSwitchSelectiveSerial]

end Lss

namespace Node

open Lss (LssSlave)

variable {N : Nat}

/-! ## Assignment and reset -/

structure ServesSdoAs (node : Node N) (id : UInt8) : Prop where
  request : node.sdo.requestCobId = 0x600 + id.toUInt16
  response : node.sdo.responseCobId = 0x580 + id.toUInt16
  dispatch : ∀ data, node.onFrame (0x600 + id.toUInt16) data = node.onSdo data

/-- The node takes no notice of a frame on any other COB-ID than that of LSS. -/
def ServesOnlyLss (node : Node N) : Prop :=
  ∀ cobId data, cobId ≠ Lss.lssMasterCobId → node.onFrame cobId data = pure (node, none)

structure TakesEffect (node : Node N) (id : UInt8) : Prop where
  active : node.lss.map LssSlave.nodeId = some id
  serves : 1 ≤ id → id ≤ 127 → node.ServesSdoAs id
  unconfigured : id = Lss.unconfiguredNodeId → node.lssUnconfigured = true ∧ node.ServesOnlyLss

theorem pending_of_acknowledged {node after : Node N} {slave : LssSlave} {id : UInt8}
    {data : List UInt8} {tx : TxFrame} (enabled : node.lss = some slave)
    (configuring : slave.state = .configuration)
    (specifier : data[0]? = some Lss.csConfigureNodeId) (names : data[1]? = some id)
    (answered : node.onFrame Lss.lssMasterCobId data = pure (after, some tx))
    (acknowledged : Lss.decodeConfigureNodeIdResponse tx.data = some (.ok ())) :
    Lss.IsAssignable id ∧
      after = { node with lss := some { slave with pendingNodeId := id } } := by
  rw [onFrame, if_pos rfl, onLss, enabled] at answered
  dsimp only at answered
  split at answered
  · cases answered
  · next short =>
      rcases padFrame_returns (Nat.not_lt.mp short) with ⟨f, padded, content⟩
      have first : f.get 0 = Lss.csConfigureNodeId := by
        apply Exec.get_eq_of_toList
        rw [content]
        exact List.getElem?_append_left (List.getElem?_eq_some_iff.mp specifier).1 ▸ specifier
      have second : f.get 1 = id := by
        apply Exec.get_eq_of_toList
        rw [content]
        exact List.getElem?_append_left (List.getElem?_eq_some_iff.mp names).1 ▸ names
      rw [padded, pure_bind, LssSlave.handle_of_configure configuring first, second] at answered
      split at answered
      · next assignable =>
          rcases TxFrame.new_of_response Lss.lssSlaveCobId
            (Lss.frameByte Lss.csConfigureNodeId 0) with ⟨frame, built, -⟩
          simp only [pure_bind, built, Exec.pure_inj, Prod.mk.injEq] at answered
          exact ⟨assignable, answered.1.symm⟩
      · rcases TxFrame.new_of_response Lss.lssSlaveCobId
          (Lss.frameByte Lss.csConfigureNodeId 1) with ⟨frame, built, -, -, refused⟩
        simp only [pure_bind, built, Exec.pure_inj, Prod.mk.injEq, Option.some.injEq] at answered
        rw [← answered.2, refused] at acknowledged
        cases acknowledged

theorem servesSdoAs_setNodeId {node : Node N} {id : NodeId} {slave : LssSlave}
    (active : slave.nodeId = id.raw) :
    ServesSdoAs { node.setNodeId id with lss := some slave } id.raw := by
  have configured : lssUnconfigured { node.setNodeId id with lss := some slave } = false := by
    simpa [lssUnconfigured, active] using id.raw_ne_unconfigured
  refine ⟨rfl, rfl, fun data => ?_⟩
  have others := requestCobId_ne id
  have request : (0x600 : UInt16) + id.raw.toUInt16 = Sdo.requestCobId id := rfl
  rw [request, onFrame, if_neg others.2, configured, if_neg Bool.false_ne_true,
    if_neg others.1]
  exact if_pos rfl

theorem servesOnlyLss_of_unconfigured {node : Node N} (unconfigured : node.lssUnconfigured) :
    node.ServesOnlyLss := by
  intro cobId data other
  rw [onFrame, if_neg other, if_pos unconfigured]

/-- An acknowledged node-id is in use after the reset exactly if it is that of a device, or the
node has been unconfigured before. -/
theorem acknowledged_id_takes_effect_iff {node after : Node N} {slave : LssSlave} {id : UInt8}
    {data : List UInt8} {tx : TxFrame} (enabled : node.lss = some slave)
    (configuring : slave.state = .configuration)
    (specifier : data[0]? = some Lss.csConfigureNodeId) (names : data[1]? = some id)
    (answered : node.onFrame Lss.lssMasterCobId data = pure (after, some tx))
    (acknowledged : Lss.decodeConfigureNodeIdResponse tx.data = some (.ok ())) :
    after.applyLssNodeId.1.TakesEffect id ↔
      id ≤ 127 ∨ slave.nodeId = Lss.unconfiguredNodeId := by
  rcases pending_of_acknowledged enabled configuring specifier names answered acknowledged with
    ⟨⟨positive, device⟩ | unassigned, rfl⟩
  · let pending := { slave with pendingNodeId := id }
    have applied : applyLssNodeId { node with lss := some pending } = _ :=
      applyLssNodeId_eq_some_iff.mpr ⟨pending, rfl, show id = (⟨id, device⟩ : NodeId).raw from rfl,
        positive, rfl⟩
    rw [applied]
    refine ⟨fun _ => .inl device, fun _ => ⟨rfl, fun _ _ => ?_, ?_⟩⟩
    · exact @servesSdoAs_setNodeId N node ⟨id, device⟩ pending.adoptPending rfl
    · rintro rfl
      exact absurd device (by decide)
  · subst unassigned
    have kept : applyLssNodeId { node with
        lss := some { slave with pendingNodeId := Lss.unconfiguredNodeId } } =
        ({ node with lss := some { slave with pendingNodeId := Lss.unconfiguredNodeId } }, none) :=
      rfl
    rw [kept]
    constructor
    · intro takes
      exact .inr (Option.some.inj takes.active)
    · rintro (device | unconfigured)
      · exact absurd device (by decide)
      · refine ⟨congrArg some unconfigured, fun _ device => absurd device (by decide),
          fun _ => ?_⟩
        have only : lssUnconfigured { node with
            lss := some { slave with pendingNodeId := Lss.unconfiguredNodeId } } = true := by
          simpa [lssUnconfigured] using unconfigured
        exact ⟨only, servesOnlyLss_of_unconfigured only⟩

/-- An unconfigured node in configuration is assigned the node-id `0x33`. -/
theorem acknowledged_id_takes_effect_device :
    let slave : LssSlave := ⟨⟨1, 2, 3, 4⟩, 0xFF, 0xFF, .configuration, 0, 0⟩
    let node : Node 0 := { Node.new ⟨1, by decide⟩ .new with lss := some slave }
    let after := { node with lss := some { slave with pendingNodeId := 0x33 } }
    after.applyLssNodeId.1.TakesEffect 0x33 ↔
      (0x33 : UInt8) ≤ 127 ∨ slave.nodeId = Lss.unconfiguredNodeId := by
  intro slave node after
  have answered : node.onFrame Lss.lssMasterCobId (Lss.encodeConfigureNodeId 0x33).toList =
    pure (after, some ⟨Lss.lssSlaveCobId, Lss.frameByte Lss.csConfigureNodeId 0, 8, by decide⟩) :=
    rfl
  exact acknowledged_id_takes_effect_iff rfl rfl rfl rfl answered rfl

/-- A node with the node-id `0x10` acknowledges that it is to have none, and keeps it at the
reset. -/
theorem acknowledged_id_without_effect :
    let slave : LssSlave := ⟨⟨1, 2, 3, 4⟩, 0x10, 0x10, .configuration, 0, 0⟩
    let node : Node 0 := { Node.new ⟨0x10, by decide⟩ .new with lss := some slave }
    ∃ after tx, node.onFrame Lss.lssMasterCobId (Lss.encodeConfigureNodeId 0xFF).toList =
        pure (after, some tx) ∧
      Lss.decodeConfigureNodeIdResponse tx.data = some (.ok ()) ∧
      after.applyLssNodeId.2 = none ∧
      after.applyLssNodeId.1.lss.map LssSlave.nodeId = some 0x10 ∧
      ¬ after.applyLssNodeId.1.TakesEffect 0xFF := by
  refine ⟨_, _, rfl, rfl, rfl, rfl, fun takes => ?_⟩
  exact absurd takes.active (by decide)

end Node

end CanOpen
