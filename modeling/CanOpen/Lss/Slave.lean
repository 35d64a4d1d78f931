import CanOpen.Foundation.Exec
import CanOpen.Lss.Frames

/-! # The LSS slave -/

namespace CanOpen.Lss

inductive LssState where
  | waiting
  | configuration
  deriving DecidableEq, Repr

structure LssSlave where
  address : LssAddress
  nodeId : UInt8
  pendingNodeId : UInt8
  state : LssState
  selective : UInt8
  fsSub : UInt8
  deriving DecidableEq, Repr

namespace LssSlave

def new (address : LssAddress) (nodeId : UInt8) : LssSlave :=
  ⟨address, nodeId, nodeId, .waiting, 0, 0⟩

def identity (slave : LssSlave) (sub : UInt8) : UInt32 := slave.address.identity sub.toNat

def handleFastscan (slave : LssSlave) (req : LssFrame) :
    Exec (LssSlave × Option LssFrame) :=
  if slave.nodeId ≠ unconfiguredNodeId ∨ slave.state ≠ .waiting then pure (slave, none)
  else
    let idNumber := u32At req
    let bitCheck := req.get 5
    let lssSub := req.get 6
    let lssNext := req.get 7
    if fastscanInit ≤ bitCheck then
      pure ({ slave with fsSub := 0 }, some (frame csIdentifySlave))
    else if lssSub ≠ slave.fsSub then pure (slave, none)
    else do
      let mask ← Exec.shiftLeft 0xFFFFFFFF bitCheck.toNat
      if (idNumber ^^^ slave.identity lssSub) &&& mask ≠ 0 then pure (slave, none)
      else if bitCheck = 0 ∧ lssNext ≠ lssSub then
        if 3 ≤ lssSub then
          pure ({ slave with state := .configuration }, some (frame csIdentifySlave))
        else pure ({ slave with fsSub := lssNext }, some (frame csIdentifySlave))
      else pure (slave, some (frame csIdentifySlave))

def adoptPending (slave : LssSlave) : LssSlave :=
  { slave with nodeId := slave.pendingNodeId }

def handle (slave : LssSlave) (req : LssFrame) : Exec (LssSlave × Option LssFrame) :=
  let configuring : Prop := slave.state = .configuration
  if req.get 0 = csSwitchGlobal then
    pure ({ slave with
      selective := 0
      state := if req.get 1 = modeConfiguration then .configuration else .waiting }, none)
  else if req.get 0 = csSwitchSelectiveVendor then
    pure ({ slave with
      selective := if u32At req = slave.address.vendorId then 1 else 0 }, none)
  else if req.get 0 = csSwitchSelectiveProduct then
    pure ({ slave with
      selective :=
        if slave.selective = 1 ∧ u32At req = slave.address.productCode then 2 else 0 }, none)
  else if req.get 0 = csSwitchSelectiveRevision then
    pure ({ slave with
      selective :=
        if slave.selective = 2 ∧ u32At req = slave.address.revisionNumber then 3 else 0 },
      none)
  else if req.get 0 = csSwitchSelectiveSerial then
    if slave.selective = 3 ∧ u32At req = slave.address.serialNumber then
      pure ({ slave with selective := 0, state := .configuration },
        some (frame csSwitchSelectiveResponse))
    else pure ({ slave with selective := 0 }, none)
  else if req.get 0 = csConfigureNodeId ∧ configuring then
    let id := req.get 1
    if (1 ≤ id ∧ id ≤ 127) ∨ id = unconfiguredNodeId then
      pure ({ slave with pendingNodeId := id }, some (frameByte csConfigureNodeId 0))
    else pure (slave, some (frameByte csConfigureNodeId 1))
  else if req.get 0 = csStoreConfiguration ∧ configuring then
    pure (slave, some (frame csStoreConfiguration))
  else if req.get 0 = csInquireNodeId ∧ configuring then
    pure (slave, some (frameByte csInquireNodeId slave.nodeId))
  else if req.get 0 = csInquireVendor ∧ configuring then
    pure (slave, some (frameU32 csInquireVendor slave.address.vendorId))
  else if req.get 0 = csInquireProduct ∧ configuring then
    pure (slave, some (frameU32 csInquireProduct slave.address.productCode))
  else if req.get 0 = csInquireRevision ∧ configuring then
    pure (slave, some (frameU32 csInquireRevision slave.address.revisionNumber))
  else if req.get 0 = csInquireSerial ∧ configuring then
    pure (slave, some (frameU32 csInquireSerial slave.address.serialNumber))
  else if req.get 0 = csFastscan then slave.handleFastscan req
  else pure (slave, none)

/-! ## No frame panics or changes the identity -/

theorem handle_of_fastscan (slave : LssSlave) {req : LssFrame}
    (specifier : req.get 0 = csFastscan) : slave.handle req = slave.handleFastscan req := by
  unfold handle
  rw [specifier]
  rfl

def Keeps (slave : LssSlave) (handled : Exec (LssSlave × Option LssFrame)) : Prop :=
  ∃ after response, handled = pure (after, response) ∧ after.address = slave.address ∧
    after.nodeId = slave.nodeId

theorem Keeps.ite {slave : LssSlave} {condition : Prop} [Decidable condition]
    {left right : Exec (LssSlave × Option LssFrame)} (keepsLeft : slave.Keeps left)
    (keepsRight : slave.Keeps right) :
    slave.Keeps (if condition then left else right) := by
  split
  · exact keepsLeft
  · exact keepsRight

theorem handleFastscan_keeps (slave : LssSlave) (req : LssFrame) :
    slave.Keeps (slave.handleFastscan req) := by
  unfold handleFastscan
  refine .ite ⟨_, _, rfl, rfl, rfl⟩ ?_
  dsimp only
  split
  · exact ⟨_, _, rfl, rfl, rfl⟩
  · next probes =>
      have within : (req.get 5).toNat < 32 := by
        rw [fastscanInit, UInt8.le_iff_toNat_le, not_le] at probes
        exact probes
      rw [Exec.shiftLeft_of_lt _ within, pure_bind]
      repeat' apply Keeps.ite
      all_goals exact ⟨_, _, rfl, rfl, rfl⟩

theorem handle_keeps (slave : LssSlave) (req : LssFrame) :
    slave.Keeps (slave.handle req) := by
  have fastscan := slave.handleFastscan_keeps req
  unfold handle
  generalize slave.handleFastscan req = scanned at fastscan ⊢
  repeat' apply Keeps.ite
  all_goals first
    | exact fastscan
    | exact ⟨_, _, rfl, rfl, rfl⟩

end LssSlave

end CanOpen.Lss
