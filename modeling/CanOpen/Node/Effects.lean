import CanOpen.Node.Operations

/-! # What an operation can do

The operations that concern the node-id, the state or the dictionary of a node, and what
all the others leave alone.
-/

namespace CanOpen

open ObjectDictionary (SameShape sameShape_replace kind)

variable {N : Nat}

abbrev NodeEvent (N : Nat) := Trace.Event (Node N) (NodeOp N) (List TxFrame)

/-! ## The mirror -/

theorem sameShape_setQuietly (od : ObjectDictionary N) (addr : Address) (value : Value) :
    SameShape od (Node.setQuietly od addr value) := by
  unfold Node.setQuietly ObjectDictionary.set
  cases present : od.entry addr with
  | none => exact .refl od
  | some entry =>
      by_cases mistyped : entry.value.dataType ≠ value.dataType
      · simp only [mistyped, ne_eq, not_false_eq_true, if_true]
        exact .refl od
      · have sameType : entry.value.dataType = value.dataType := not_not.mp mistyped
        simp only [sameType, ne_eq, not_true_eq_false, if_false]
        exact sameShape_replace present (by simp [kind, sameType])

theorem sameShape_mirrorErrorObjects {before node : Node N} (same : node.od = before.od) :
    SameShape before.od node.mirrorErrorObjects.od := by
  have all : ∀ (items : List (UInt32 × Nat)) (od : ObjectDictionary N),
      SameShape od (items.foldl (fun od item =>
        Node.setQuietly od ⟨0x1003, UInt8.ofNat (item.2 + 1)⟩ (.unsigned32 item.1)) od) := by
    intro items
    induction items with
    | nil => exact .refl
    | cons item items induction =>
        intro od
        exact (sameShape_setQuietly od _ _).trans (induction _)
  rw [← same]
  have register := sameShape_setQuietly node.od ⟨0x1001, 0⟩ (.unsigned8 node.errorRegister)
  exact (register.trans (sameShape_setQuietly _ _ _)).trans (all _ _)

/-! ## The effects -/

namespace NodeOp

/-- The operation concerns neither the node-id, nor the state of the node, nor its dictionary
and errors, nor a frame. -/
def IsInternal : NodeOp N → Prop
  | .enableLss _ | .enableLssUnconfigured _ | .setNodeId _ | .odMut _ | .boot
  | .raiseEmergency _ _ _ | .clearErrors | .onFrame _ _ => False
  | _ => True

end NodeOp

inductive OpEffect (node : Node N) : NodeOp N → Node N → List TxFrame → Prop
  | enabled (address : Lss.LssAddress) :
      OpEffect node (.enableLss address) (node.enableLss address) []
  | unconfigured (address : Lss.LssAddress) :
      OpEffect node (.enableLssUnconfigured address) (node.enableLssUnconfigured address) []
  | renumbered (id : NodeId) : OpEffect node (.setNodeId id) (node.setNodeId id) []
  | adopted (id : NodeId) (after : Node N) :
      node.applyLssNodeId = (after, some id) → OpEffect node .applyLssNodeId after []
  | borrowed (od : ObjectDictionary N) : OpEffect node (.odMut od) { node with od } []
  | booted (frame : TxFrame) :
      OpEffect node .boot { node with nmt := node.nmt.boot, guardToggle := false } [frame]
  | raised (code : UInt16) (register : ErrorRegister) (info : Vector UInt8 5)
      (recorded : BoundedVec UInt32 maxErrorHistory) (frame : TxFrame) :
      recorded.toList = code.toUInt32 :: node.errorHistory.toList.take 7 →
      OpEffect node (.raiseEmergency code register info)
        { node with
          errorRegister := node.errorRegister ||| (register.bits ||| ErrorRegister.generic)
          errorHistory := recorded }.mirrorErrorObjects [frame]
  | cleared (frame : TxFrame) :
      OpEffect node .clearErrors
        { node with errorRegister := 0, errorHistory := .new }.mirrorErrorObjects [frame]
  | received (cobId : UInt16) (data : List UInt8) (after : Node N) (tx : Option TxFrame) :
      node.onFrame cobId data = pure (after, tx) →
      OpEffect node (.onFrame cobId data) after tx.toList
  | internal (op : NodeOp N) (after : Node N) (frames : List TxFrame) :
      op.IsInternal → after.nodeId = node.nodeId → after.lss = node.lss → after.nmt = node.nmt →
      after.sdo.node = node.sdo.node → after.sdo.transfer = node.sdo.transfer →
      after.od = node.od → after.errorHistory = node.errorHistory → OpEffect node op after frames

theorem OpEffect.eq_setNodeId {node after : Node N} {id : NodeId} {frames : List TxFrame}
    (effect : OpEffect node (.setNodeId id) after frames) : after = node.setNodeId id := by
  cases effect with
  | renumbered => rfl
  | internal _ _ _ isInternal => exact isInternal.elim

theorem OpEffect.eq_boot {node after : Node N} {frames : List TxFrame}
    (effect : OpEffect node .boot after frames) :
    after = { node with nmt := node.nmt.boot, guardToggle := false } := by
  cases effect with
  | booted => rfl
  | internal _ _ _ isInternal => exact isInternal.elim

theorem NodeId.raw_ne_unconfigured (id : NodeId) : id.raw ≠ Lss.unconfiguredNodeId := by
  intro equal
  have bound := id.raw_le
  rw [equal] at bound
  exact absurd bound (by decide)

theorem Node.applyLssNodeId_eq_some_iff {node adopted : Node N} {id : NodeId} :
    node.applyLssNodeId = (adopted, some id) ↔
      ∃ slave, node.lss = some slave ∧ slave.pendingNodeId = id.raw ∧ 1 ≤ id.raw ∧
        adopted = { node.setNodeId id with lss := some slave.adoptPending } := by
  unfold applyLssNodeId
  cases enabled : node.lss with
  | none => simp
  | some slave =>
      dsimp only
      cases checked : NodeId.new slave.pendingNodeId with
      | error error =>
          simp only [Prod.mk.injEq, reduceCtorEq, and_false, false_iff, Option.some.injEq]
          rintro ⟨_, rfl, pending, positive, -⟩
          rw [NodeId.new_eq_ok_iff.mpr ⟨pending, positive⟩] at checked
          cases checked
      | ok nodeId =>
          have valid := NodeId.new_eq_ok_iff.mp checked
          simp only [Prod.mk.injEq, Option.some.injEq]
          constructor
          · rintro ⟨rfl, rfl⟩
            exact ⟨slave, rfl, valid.1, valid.2, rfl⟩
          · rintro ⟨_, rfl, pending, positive, rfl⟩
            rw [NodeId.new_eq_ok_iff.mpr ⟨pending, positive⟩, Except.ok.injEq] at checked
            subst checked
            exact ⟨rfl, rfl⟩

theorem Node.eq_of_applyLssNodeId_none {node after : Node N}
    (applied : node.applyLssNodeId = (after, none)) : after = node := by
  unfold applyLssNodeId at applied
  split at applied
  · cases applied
    rfl
  · split at applied
    · cases applied
      rfl
    · cases applied

theorem NodeOp.effect {node after : Node N} {op : NodeOp N} {frames : List TxFrame}
    (performed : op.perform node = pure (after, frames)) : OpEffect node op after frames := by
  cases op with
  | enableLss address =>
      cases performed
      exact .enabled address
  | enableLssUnconfigured address =>
      cases performed
      exact .unconfigured address
  | setNodeId nodeId =>
      cases performed
      exact .renumbered nodeId
  | odMut od =>
      cases performed
      exact .borrowed od
  | applyLssNodeId =>
      cases applied : node.applyLssNodeId with
      | mk next result =>
          simp only [perform, applied, Exec.pure_inj, Prod.mk.injEq] at performed
          rcases performed with ⟨rfl, rfl⟩
          cases result with
          | none =>
              have same := Node.eq_of_applyLssNodeId_none applied
              subst same
              exact .internal _ _ _ trivial rfl rfl rfl rfl rfl rfl rfl
          | some id => exact .adopted id next applied
  | boot =>
      simp only [perform, Node.boot, Exec.bind_eq_pure_iff] at performed
      rcases performed with ⟨_, ⟨frame, -, ⟨⟩⟩, ⟨⟩⟩
      exact .booted frame
  | onFrame cobId data =>
      simp only [perform, Exec.bind_eq_pure_iff] at performed
      rcases performed with ⟨⟨next, tx⟩, taken, ⟨⟩⟩
      exact .received cobId data next tx taken
  | configurePdosFromOd | takeWrittenObject =>
      cases performed
      exact .internal _ _ _ trivial rfl rfl rfl rfl rfl rfl rfl
  | addRpdo cobId mapping =>
      cases performed
      unfold Node.addRpdo
      split <;> exact .internal _ _ _ trivial rfl rfl rfl rfl rfl rfl rfl
  | addTpdo cobId mapping transmission =>
      cases performed
      unfold Node.addTpdo
      split <;> exact .internal _ _ _ trivial rfl rfl rfl rfl rfl rfl rfl
  | enableSyncProducer counterOverflow =>
      cases performed
      unfold Node.enableSyncProducer
      cases SyncCounter.new counterOverflow <;>
        exact .internal _ _ _ trivial rfl rfl rfl rfl rfl rfl rfl
  | nodeGuardResponse =>
      simp only [perform, Node.nodeGuardResponse, Exec.bind_eq_pure_iff] at performed
      rcases performed with ⟨_, ⟨_, -, ⟨⟩⟩, ⟨⟩⟩
      exact .internal _ _ _ trivial rfl rfl rfl rfl rfl rfl rfl
  | raiseEmergency code register info =>
      simp only [perform, Node.raiseEmergency, Exec.bind_eq_pure_iff] at performed
      rcases performed with ⟨_, ⟨recorded, records, frame, -, ⟨⟩⟩, ⟨⟩⟩
      rcases Node.recordError_returns node.errorHistory code.toUInt32 with ⟨_, again, content⟩
      cases records.symm.trans again
      exact .raised code register info recorded frame content
  | clearErrors =>
      simp only [perform, Node.clearErrors, Exec.bind_eq_pure_iff] at performed
      rcases performed with ⟨_, ⟨frame, -, ⟨⟩⟩, ⟨⟩⟩
      exact .cleared frame
  | heartbeat | syncTpdos | tpdo =>
      simp only [perform, Exec.bind_eq_pure_iff] at performed
      rcases performed with ⟨_, -, ⟨⟩⟩
      exact .internal _ _ _ trivial rfl rfl rfl rfl rfl rfl rfl
  | produceSync =>
      simp only [perform, Exec.bind_eq_pure_iff] at performed
      rcases performed with ⟨⟨next, frame⟩, produced, ⟨⟩⟩
      unfold Node.produceSync at produced
      split at produced
      · cases produced
        exact .internal _ _ _ trivial rfl rfl rfl rfl rfl rfl rfl
      · simp only [Exec.bind_eq_pure_iff] at produced
        rcases produced with ⟨_, -, _, -, ⟨⟩⟩
        exact .internal _ _ _ trivial rfl rfl rfl rfl rfl rfl rfl

end CanOpen
