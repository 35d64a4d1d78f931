import CanOpen.Emcy
import CanOpen.Lss.Slave
import CanOpen.Nmt
import CanOpen.Pdo
import CanOpen.Sdo.Server
import CanOpen.Sync

/-! # The device node

An object dictionary served over SDO, with NMT state, LSS, PDO exchange, error
signalling and the SYNC producer, driven by the frames it is handed.
-/

namespace CanOpen

open Sdo (SdoServer SdoPayload)
open Lss (LssAddress LssFrame LssSlave)

def maxPdos : Nat := 4

def maxPdoMapping : Nat := 8

def maxErrorHistory : Nat := 8

/-! ## Frames to transmit -/

structure TxFrame where
  cobId : UInt16
  data : Vector UInt8 8
  len : UInt8
  len_le : len ≤ 8
  deriving DecidableEq

namespace TxFrame

def new (cobId : UInt16) (bytes : List UInt8) : Exec TxFrame := do
  let len := min bytes.length 8
  let source ← Exec.slice bytes 0 len
  let data ← Exec.overwrite (Vector.replicate 8 0) 0 len source
  pure ⟨cobId, data, UInt8.ofNat len, by
    have bound : min bytes.length 8 ≤ 8 := Nat.min_le_right _ _
    rw [UInt8.le_iff_toNat_le, UInt8.toNat_ofNat', Nat.mod_eq_of_lt (by omega)]
    exact bound⟩

def payload (frame : TxFrame) : Exec (List UInt8) :=
  Exec.slice frame.data.toList 0 frame.len.toNat

end TxFrame

/-! ## The node -/

structure RpdoSlot where
  cobId : UInt16
  mapping : PdoMapping maxPdoMapping
  deriving DecidableEq

structure TpdoSlot where
  cobId : UInt16
  mapping : PdoMapping maxPdoMapping
  transmission : TransmissionType
  deriving DecidableEq

structure Node (N : Nat) where
  nodeId : NodeId
  od : ObjectDictionary N
  sdo : SdoServer
  nmt : NmtStateMachine
  rpdos : BoundedVec RpdoSlot maxPdos
  tpdos : BoundedVec TpdoSlot maxPdos
  lss : Option LssSlave
  guardToggle : Bool
  errorRegister : UInt8
  errorHistory : BoundedVec UInt32 maxErrorHistory
  syncProducer : Option SyncCounter
  deriving DecidableEq

/-! ## PDO parameters in the object dictionary -/

section Parameters

variable {N : Nat}

def odU32 (od : ObjectDictionary N) (index : UInt16) (sub : UInt8) : Option UInt32 :=
  match od.read ⟨index, sub⟩ with
  | .ok (.unsigned32 value) => some value
  | _ => none

def odU8 (od : ObjectDictionary N) (index : UInt16) (sub : UInt8) : Option UInt8 :=
  match od.read ⟨index, sub⟩ with
  | .ok (.unsigned8 value) => some value
  | _ => none

def readPdoMapping (od : ObjectDictionary N) (mapIndex : UInt16) :
    Option (PdoMapping maxPdoMapping) := do
  let count ← odU8 od mapIndex 0
  (List.range' 1 count.toNat).foldlM (fun mapping sub => do
    let raw ← odU32 od mapIndex (UInt8.ofNat sub)
    (mapping.push (.fromU32 raw)).toOption) .new

def buildRpdo (od : ObjectDictionary N) (n : UInt16) : Option RpdoSlot := do
  let cobId ← odU32 od (0x1400 + n) 1
  if !pdoIsValid cobId then none
  else
    let mapping ← readPdoMapping od (0x1600 + n)
    some ⟨pdoCanId cobId, mapping⟩

def buildTpdo (od : ObjectDictionary N) (n : UInt16) : Option TpdoSlot := do
  let cobId ← odU32 od (0x1800 + n) 1
  if !pdoIsValid cobId then none
  else
    -- An absent or reserved transmission type counts as event-driven.
    let transmission := ((odU8 od (0x1800 + n) 2).bind fun byte =>
      (TransmissionType.fromByte byte).toOption).getD .eventDrivenProfile
    let mapping ← readPdoMapping od (0x1A00 + n)
    some ⟨pdoCanId cobId, mapping, transmission⟩

end Parameters

def isSynchronous : TransmissionType → Bool
  | .synchronousAcyclic | .synchronousCyclic _ => true
  | _ => false

namespace Node

variable {N : Nat}

def new (nodeId : NodeId) (od : ObjectDictionary N) : Node N where
  nodeId
  od
  sdo := .new nodeId
  nmt := .new
  rpdos := .new
  tpdos := .new
  lss := none
  guardToggle := false
  errorRegister := 0
  errorHistory := .new
  syncProducer := none

/-! ## Configuration -/

def enableLss (node : Node N) (address : LssAddress) : Node N :=
  { node with lss := some (.new address node.nodeId.raw) }

def enableLssUnconfigured (node : Node N) (address : LssAddress) : Node N :=
  { node with lss := some (.new address Lss.unconfiguredNodeId) }

def lssUnconfigured (node : Node N) : Bool :=
  node.lss.any fun slave => slave.nodeId = Lss.unconfiguredNodeId

def setNodeId (node : Node N) (nodeId : NodeId) : Node N :=
  { node with nodeId, sdo := .new nodeId }

def applyLssNodeId (node : Node N) : Node N × Option NodeId :=
  match node.lss with
  | none => (node, none)
  | some slave =>
      match NodeId.new slave.pendingNodeId with
      | .error _ => (node, none)
      | .ok nodeId => ({ node.setNodeId nodeId with lss := some slave.adoptPending }, some nodeId)

def addRpdo (node : Node N) (cobId : UInt16) (mapping : PdoMapping maxPdoMapping) :
    Except Error (Node N) :=
  match node.rpdos.push ⟨cobId, mapping⟩ with
  | some rpdos => .ok { node with rpdos }
  | none => .error .mappingFull

def addTpdo (node : Node N) (cobId : UInt16) (mapping : PdoMapping maxPdoMapping)
    (transmission : TransmissionType) : Except Error (Node N) :=
  match node.tpdos.push ⟨cobId, mapping, transmission⟩ with
  | some tpdos => .ok { node with tpdos }
  | none => .error .mappingFull

def pushSlot {α : Type} (slots : BoundedVec α maxPdos) (slot : Option α) :
    BoundedVec α maxPdos :=
  match slot with
  | none => slots
  | some slot => (slots.push slot).getD slots

def configurePdosFromOd (node : Node N) : Node N :=
  (List.range maxPdos).foldl (fun node n =>
    { node with
      rpdos := pushSlot node.rpdos (buildRpdo node.od (UInt16.ofNat n))
      tpdos := pushSlot node.tpdos (buildTpdo node.od (UInt16.ofNat n)) })
    { node with rpdos := .new, tpdos := .new }

def takeWrittenObject (node : Node N) : Node N × Option Address :=
  let (written, sdo) := node.sdo.takeWrite
  ({ node with sdo }, written)

def state (node : Node N) : NmtState := node.nmt.state

/-! ## Error control -/

def boot (node : Node N) : Exec (Node N × TxFrame) := do
  let frame ← TxFrame.new (heartbeatCobId node.nodeId) bootupFrame.toList
  pure ({ node with nmt := node.nmt.boot, guardToggle := false }, frame)

def nodeGuardResponse (node : Node N) : Exec (Node N × TxFrame) := do
  let byte := encodeNodeGuard node.state node.guardToggle
  let frame ← TxFrame.new (heartbeatCobId node.nodeId) [byte]
  pure ({ node with guardToggle := !node.guardToggle }, frame)

def heartbeat (node : Node N) : Exec TxFrame :=
  TxFrame.new (heartbeatCobId node.nodeId) (encodeHeartbeat node.state).toList

/-! ## Emergencies -/

def setQuietly (od : ObjectDictionary N) (addr : Address) (value : Value) :
    ObjectDictionary N :=
  match od.set addr value with
  | .ok od => od
  | .error _ => od

def mirrorErrorObjects (node : Node N) : Node N :=
  let od := setQuietly node.od ⟨0x1001, 0⟩ (.unsigned8 node.errorRegister)
  let count := UInt8.ofNat node.errorHistory.len
  let od := setQuietly od ⟨0x1003, 0⟩ (.unsigned8 count)
  let od := node.errorHistory.toList.zipIdx.foldl (fun od item =>
    setQuietly od ⟨0x1003, UInt8.ofNat (item.2 + 1)⟩ (.unsigned32 item.1)) od
  { node with od }

def shiftBack (history : BoundedVec UInt32 maxErrorHistory) (len : Nat) :
    Exec (BoundedVec UInt32 maxErrorHistory) :=
  (List.range len).reverse.foldlM (fun history i => do
    let entry ← history.index i
    history.setIndex (i + 1) entry) history

def recordError (history : BoundedVec UInt32 maxErrorHistory) (code : UInt32) :
    Exec (BoundedVec UInt32 maxErrorHistory) := do
  let history := if history.isFull then history.pop else history
  let len := history.len
  let history := (history.push 0).getD history
  let history ← shiftBack history len
  history.setIndex 0 code

def raiseEmergency (node : Node N) (code : UInt16) (register : ErrorRegister)
    (info : Vector UInt8 5) : Exec (Node N × TxFrame) := do
  let errorRegister := node.errorRegister ||| (register.bits ||| ErrorRegister.generic)
  let errorHistory ← recordError node.errorHistory code.toUInt32
  let node := { node with errorRegister, errorHistory }.mirrorErrorObjects
  let message : EmergencyMessage := ⟨code, ⟨node.errorRegister⟩, info⟩
  let frame ← TxFrame.new (emcyCobId node.nodeId) message.encode.toList
  pure (node, frame)

def clearErrors (node : Node N) : Exec (Node N × TxFrame) := do
  let node := { node with errorRegister := 0, errorHistory := .new }.mirrorErrorObjects
  let frame ← TxFrame.new (emcyCobId node.nodeId) EmergencyMessage.errorReset.encode.toList
  pure (node, frame)

/-! ## SYNC -/

def enableSyncProducer (node : Node N) (counterOverflow : UInt8) : Except Error (Node N) := do
  let counter ← SyncCounter.new counterOverflow
  .ok { node with syncProducer := some counter }

def produceSync (node : Node N) : Exec (Node N × Option TxFrame) :=
  match node.syncProducer with
  | none => pure (node, none)
  | some counter => do
      let (counter, count) ← counter.advance
      let frame ← TxFrame.new syncCobId (syncData count)
      pure ({ node with syncProducer := some counter }, some frame)

/-! ## Received frames -/

def padFrame (data : List UInt8) : Exec (Vector UInt8 8) :=
  Exec.overwrite (Vector.replicate 8 0) 0 data.length data

def onLss (node : Node N) (data : List UInt8) : Exec (Node N × Option TxFrame) :=
  match node.lss with
  | none => pure (node, none)
  | some slave =>
      if 8 < data.length then pure (node, none)
      else do
        let frame ← padFrame data
        let (slave, response) ← slave.handle frame
        let node := { node with lss := some slave }
        match response with
        | none => pure (node, none)
        | some response => do
            let tx ← TxFrame.new Lss.lssSlaveCobId response.toList
            pure (node, some tx)

def onRpdo (node : Node N) (cobId : UInt16) (data : List UInt8) : Exec (Node N) :=
  if node.state ≠ .operational then pure node
  else
    match node.rpdos.toList.findIdx? fun slot => slot.cobId = cobId with
    | none => pure node
    | some i => do
        let slot ← node.rpdos.index i
        let (_, od) ← unpack slot.mapping node.od data
        pure { node with od }

def onNmt (node : Node N) (data : List UInt8) : Exec (Node N) :=
  if data.length < 2 then pure node
  else do
    let command ← Exec.index data 0
    let target ← Exec.index data 1
    match decodeCommand #v[command, target] with
    | .error _ => pure node
    | .ok (command, target) =>
        if target = .broadcast ∨ target = node.nodeId then
          pure { node with nmt := node.nmt.apply command }
        else pure node

def commandFrame (specifier target : UInt8) : NmtCommandFrame := #v[specifier, target]

def onSdo (node : Node N) (data : List UInt8) : Exec (Node N × Option TxFrame) :=
  if node.state ≠ .preOperational ∧ node.state ≠ .operational then pure (node, none)
  else if 8 < data.length then pure (node, none)
  else do
    let payload ← padFrame data
    let handled ← node.sdo.handle node.od payload
    let node := { node with sdo := handled.server, od := handled.od }
    match handled.response with
    | none => pure (node, none)
    | some response => do
        let tx ← TxFrame.new node.sdo.responseCobId response.toList
        pure (node, some tx)

def onFrame (node : Node N) (cobId : UInt16) (data : List UInt8) :
    Exec (Node N × Option TxFrame) :=
  if cobId = Lss.lssMasterCobId then node.onLss data
  else if node.lssUnconfigured then pure (node, none)
  else if cobId = nmtCommandCobId then do
    let node ← node.onNmt data
    pure (node, none)
  else if cobId = node.sdo.requestCobId then node.onSdo data
  else do
    let node ← node.onRpdo cobId data
    pure (node, none)

/-! ## Transmit PDOs -/

def buildTpdo (node : Node N) (slot : TpdoSlot) : Exec (Option TxFrame) :=
  if slot.mapping.isEmpty then pure none
  else do
    let (result, buf) ← pack slot.mapping node.od (Vector.replicate 8 0)
    match result with
    | .error _ => pure none
    | .ok len => do
        let data ← Exec.slice buf.toList 0 len
        let frame ← TxFrame.new slot.cobId data
        pure (some frame)

def syncTpdos (node : Node N) : Exec (BoundedVec TxFrame maxPdos) :=
  if node.state ≠ .operational then pure .new
  else node.tpdos.toList.foldlM (fun frames slot =>
    if isSynchronous slot.transmission then do
      let frame ← node.buildTpdo slot
      pure (pushSlot frames frame)
    else pure frames) .new

def tpdo (node : Node N) (index : Nat) : Exec (Option TxFrame) :=
  if node.state ≠ .operational then pure none
  else
    match node.tpdos.toList[index]? with
    | none => pure none
    | some slot => node.buildTpdo slot

end Node

end CanOpen
