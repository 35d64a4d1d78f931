import CanOpen.Foundation.Relational
import CanOpen.Node.Operations

/-! # Write-only objects

Nodes that differ at most in the values of write-only objects are compared side by
side: nothing that either returns, in any sequence of operations, tells them apart.
-/

namespace CanOpen

variable {N : Nat}

/-! ## Dictionaries -/

namespace ObjectDictionary

/-- What may be learnt of an entry: everything but the value of a write-only one. -/
def visible (entry : Entry) : AccessType × DataType × Option Value :=
  (entry.access, entry.value.dataType, if entry.access = .wo then none else some entry.value)

def SameView (left right : ObjectDictionary N) : Prop :=
  ∀ addr, (left.entry addr).map visible = (right.entry addr).map visible

inductive SameWrite : Except Error (ObjectDictionary N) → Except Error (ObjectDictionary N) → Prop
  | ok {left right : ObjectDictionary N} : SameView left right → SameWrite (.ok left) (.ok right)
  | error (error : Error) : SameWrite (.error error) (.error error)

variable {left right : ObjectDictionary N}

theorem SameView.refl (od : ObjectDictionary N) : SameView od od := fun _ => rfl

theorem SameView.entries (same : SameView left right) (addr : Address) :
    left.entry addr = none ∧ right.entry addr = none ∨
      ∃ entry other, left.entry addr = some entry ∧ right.entry addr = some other ∧
        other.access = entry.access ∧ other.value.dataType = entry.value.dataType ∧
        (entry.access ≠ .wo → other.value = entry.value) := by
  have equal := same addr
  cases present : left.entry addr with
  | none =>
      rw [present, Option.map_none, eq_comm, Option.map_eq_none_iff] at equal
      exact .inl ⟨rfl, equal⟩
  | some entry =>
      rw [present, Option.map_some, eq_comm, Option.map_eq_some_iff] at equal
      rcases equal with ⟨other, found, sameVisible⟩
      simp only [visible, Prod.mk.injEq] at sameVisible
      rcases sameVisible with ⟨sameAccess, sameType, sameValue⟩
      refine .inr ⟨entry, other, rfl, found, sameAccess, sameType, fun notSecret => ?_⟩
      rw [sameAccess, if_neg notSecret, if_neg notSecret, Option.some.injEq] at sameValue
      exact sameValue

theorem SameView.read (same : SameView left right) (addr : Address) :
    left.read addr = right.read addr := by
  rcases same.entries addr with ⟨absent, absentRight⟩ |
    ⟨entry, other, present, found, sameAccess, -, sameValue⟩
  · simp only [ObjectDictionary.read, absent, absentRight]
  · simp only [ObjectDictionary.read, present, found, sameAccess]
    cases access : entry.access with
    | wo => rfl
    | ro | rw | const => rw [sameValue (by simp [access])]

theorem SameView.replace (same : SameView left right) {addr : Address} {entry other : Entry}
    (present : left.entry addr = some entry) (found : right.entry addr = some other)
    (sameAccess : other.access = entry.access) (value : Value) :
    SameView (left.replace addr { entry with value })
      (right.replace addr { other with value }) := by
  intro position
  by_cases equal : position = addr
  · subst equal
    rw [entry_replace_self present, entry_replace_self found]
    simp only [Option.map_some, visible, sameAccess]
  · rw [entry_replace_of_ne equal, entry_replace_of_ne equal]
    exact same position

theorem SameView.write (same : SameView left right) (addr : Address) (value : Value) :
    SameWrite (left.write addr value) (right.write addr value) := by
  rcases same.entries addr with ⟨absent, absentRight⟩ |
    ⟨entry, other, present, found, sameAccess, sameType, -⟩
  · simp only [ObjectDictionary.write, absent, absentRight]
    exact .error _
  · simp only [ObjectDictionary.write, present, found, sameAccess, sameType]
    split
    · exact .error _
    · split
      · exact .error _
      · exact .ok (by simpa [sameAccess] using same.replace present found sameAccess value)

theorem SameView.set (same : SameView left right) (addr : Address) (value : Value) :
    SameWrite (left.set addr value) (right.set addr value) := by
  rcases same.entries addr with ⟨absent, absentRight⟩ |
    ⟨entry, other, present, found, sameAccess, sameType, -⟩
  · simp only [ObjectDictionary.set, absent, absentRight]
    exact .error _
  · simp only [ObjectDictionary.set, present, found, sameType]
    split
    · exact .error _
    · exact .ok (by simpa [sameAccess] using same.replace present found sameAccess value)

end ObjectDictionary

open ObjectDictionary (SameView SameWrite)

/-! ## The SDO server -/

structure Sdo.SameHandled (left right : Sdo.Handled N) : Prop where
  server : left.server = right.server
  response : left.response = right.response
  view : SameView left.od right.od

theorem ObjectDictionary.SameView.passed {left right : ObjectDictionary N}
    (same : SameView left right) (server : Sdo.SdoServer) (response : Option Sdo.SdoPayload) :
    Exec.Relates Sdo.SameHandled (pure ⟨server, left, response⟩)
      (pure ⟨server, right, response⟩) :=
  .returns ⟨rfl, rfl, same⟩

namespace Sdo

variable {left right : ObjectDictionary N}

namespace SdoServer

theorem writeValue_alike (same : SameView left right) (server : SdoServer) (addr : Address)
    (value : Value) :
    SameHandled (server.writeValue left addr value) (server.writeValue right addr value) := by
  have writes := same.write addr value
  unfold writeValue
  generalize left.write addr value = writtenLeft at writes ⊢
  generalize right.write addr value = writtenRight at writes ⊢
  cases writes with
  | ok view => exact ⟨rfl, rfl, view⟩
  | error error => cases error <;> exact ⟨rfl, rfl, same⟩

theorem onDownloadExpedited_alike (same : SameView left right) (server : SdoServer)
    (req : SdoPayload) (addr : Address) (dataType : DataType) :
    Exec.Relates SameHandled (server.onDownloadExpedited left req addr dataType)
      (server.onDownloadExpedited right req addr dataType) := by
  refine .bind_same fun len => .ite (fun _ => same.passed _ _) fun _ => ?_
  refine .ite (fun _ => same.passed _ _) fun _ => .bind_same fun window => ?_
  refine .bind_same fun decoded => ?_
  cases decoded with
  | error error => exact same.passed _ _
  | ok value => exact .returns (writeValue_alike same server addr value)

theorem onDownloadInitiate_alike (same : SameView left right) (server : SdoServer)
    (req : SdoPayload) :
    Exec.Relates SameHandled (server.onDownloadInitiate left req)
      (server.onDownloadInitiate right req) := by
  rcases same.entries (reqAddress req) with ⟨absent, absentRight⟩ |
    ⟨entry, other, present, found, sameAccess, sameType, -⟩
  · simp only [onDownloadInitiate, absent, absentRight]
    exact same.passed _ _
  · simp only [onDownloadInitiate, present, found, sameAccess, sameType]
    refine .ite (fun _ => same.passed _ _) fun _ => .ite (fun _ => ?_) fun _ => ?_
    · exact onDownloadExpedited_alike same server req _ _
    · unfold onDownloadSegmented
      cases decodeDownloadInitiateSegmented req with
      | error error => exact same.passed _ _
      | ok declared =>
          simp only
          split <;> exact same.passed _ _

theorem onUploadInitiate_alike (same : SameView left right) (server : SdoServer)
    (req : SdoPayload) :
    Exec.Relates SameHandled (server.onUploadInitiate left req)
      (server.onUploadInitiate right req) := by
  simp only [onUploadInitiate, same.read]
  cases right.read (reqAddress req) with
  | error error => cases error <;> exact same.passed _ _
  | ok value =>
      refine .ite (fun _ => ?_) fun _ => ?_
      · exact .bind_same fun encoded => .bind_same fun response => same.passed _ _
      · exact .bind_same fun window => .bind_same fun written => same.passed _ _

theorem finishDownload_alike (same : SameView left right) (server : SdoServer) (addr : Address)
    (dataType : DataType) (bytes : List UInt8) (declared : Nat) (ack : SdoPayload) :
    Exec.Relates SameHandled (server.finishDownload left addr dataType bytes declared ack)
      (server.finishDownload right addr dataType bytes declared ack) := by
  refine .ite (fun _ => same.passed _ _) fun _ => .bind_same fun decoded => ?_
  cases decoded with
  | error error => exact same.passed _ _
  | ok value =>
      have writes := same.write addr value
      simp only
      generalize left.write addr value = writtenLeft at writes ⊢
      generalize right.write addr value = writtenRight at writes ⊢
      cases writes with
      | ok view => exact .returns ⟨rfl, rfl, view⟩
      | error error => cases error <;> exact same.passed _ _

theorem onDownloadSegment_alike (same : SameView left right) (server : SdoServer)
    (req : SdoPayload) :
    Exec.Relates SameHandled (server.onDownloadSegment left req)
      (server.onDownloadSegment right req) := by
  refine .bind_same fun decoded => ?_
  cases decoded with
  | error error => exact same.passed _ _
  | ok seg =>
      simp only
      cases server.transfer with
      | none => exact same.passed _ _
      | some transfer =>
          cases transfer with
          | upload => exact same.passed _ _
          | download addr dataType buf declared toggle =>
              refine .ite (fun _ => same.passed _ _) fun _ => ?_
              cases buf.extendFromSlice seg.data with
              | none => exact same.passed _ _
              | some buf =>
                  exact .ite (fun _ => finishDownload_alike same _ _ _ _ _ _)
                    fun _ => same.passed _ _

theorem onUploadSegment_alike (same : SameView left right) (server : SdoServer)
    (req : SdoPayload) :
    Exec.Relates SameHandled (server.onUploadSegment left req)
      (server.onUploadSegment right req) := by
  unfold onUploadSegment
  cases server.transfer with
  | none => exact same.passed _ _
  | some transfer =>
      cases transfer with
      | download => exact same.passed _ _
      | upload addr data len pos toggle =>
          refine .ite (fun _ => same.passed _ _) fun _ => ?_
          refine .bind_same fun remaining => .bind_same fun window => ?_
          refine .bind_same fun encoded => .bind_same fun seg => ?_
          exact .ite (fun _ => same.passed _ _) fun _ => same.passed _ _

theorem handle_alike (same : SameView left right) (server : SdoServer) (req : SdoPayload) :
    Exec.Relates SameHandled (server.handle left req) (server.handle right req) := by
  refine .ite (fun _ => onDownloadInitiate_alike same server req) fun _ => ?_
  refine .ite (fun _ => onUploadInitiate_alike same server req) fun _ => ?_
  refine .ite (fun _ => onDownloadSegment_alike same server req) fun _ => ?_
  refine .ite (fun _ => onUploadSegment_alike same server req) fun _ => ?_
  exact .ite (fun _ => same.passed _ _) fun _ => same.passed _ _

end SdoServer

end Sdo

/-! ## Process data -/

section ProcessData

variable {left right : ObjectDictionary N}

theorem packFrom_alike (same : SameView left right) {length : Nat} (entries : List MappingEntry)
    (offset : Nat) (buf : Vector UInt8 length) :
    packFrom left entries offset buf = packFrom right entries offset buf := by
  induction entries generalizing offset buf with
  | nil => rfl
  | cons entry entries induction => simp only [packFrom, same.read, induction]

theorem pack_alike (same : SameView left right) {capacity length : Nat}
    (mapping : PdoMapping capacity) (buf : Vector UInt8 length) :
    pack mapping left buf = pack mapping right buf := by
  simp only [pack, packFrom_alike same]

def SameUnpacked (left right : Except Error Unit × ObjectDictionary N) : Prop :=
  left.1 = right.1 ∧ SameView left.2 right.2

theorem unpackFrom_alike (same : SameView left right) (data : List UInt8)
    (entries : List MappingEntry) (offset : Nat) :
    Exec.Relates SameUnpacked (unpackFrom data entries offset left)
      (unpackFrom data entries offset right) := by
  have failed : ∀ (error : Error) {left right : ObjectDictionary N}, SameView left right →
      Exec.Relates SameUnpacked (pure (.error error, left)) (pure (.error error, right)) :=
    fun _ _ _ same => .returns ⟨rfl, same⟩
  induction entries generalizing left right offset with
  | nil => exact .returns ⟨rfl, same⟩
  | cons entry entries induction =>
      simp only [unpackFrom]
      cases byteWidth entry.bitLength with
      | error error => exact failed error same
      | ok width =>
          rcases same.entries entry.address with ⟨absent, absentRight⟩ |
            ⟨target, other, present, found, -, sameType, -⟩
          · simp only [absent, absentRight]
            exact failed _ same
          · simp only [present, found, sameType]
            refine .ite (fun _ => failed _ same) fun _ => .bind_same fun field => ?_
            refine .bind_same fun decoded => ?_
            cases decoded with
            | error error => exact failed error same
            | ok value =>
                have writes := same.write entry.address value
                simp only
                generalize left.write entry.address value = writtenLeft at writes ⊢
                generalize right.write entry.address value = writtenRight at writes ⊢
                cases writes with
                | ok view => exact induction view _
                | error error => exact failed error same

theorem unpack_alike (same : SameView left right) {capacity : Nat}
    (mapping : PdoMapping capacity) (data : List UInt8) :
    Exec.Relates SameUnpacked (unpack mapping left data) (unpack mapping right data) := by
  refine .ite (fun _ => .returns ⟨rfl, same⟩) fun _ => ?_
  exact unpackFrom_alike same data mapping.entries.toList 0

theorem readPdoMapping_alike (same : SameView left right) (mapIndex : UInt16) :
    readPdoMapping left mapIndex = readPdoMapping right mapIndex := by
  simp only [readPdoMapping, odU8, odU32, same.read]

theorem buildRpdo_alike (same : SameView left right) (n : UInt16) :
    buildRpdo left n = buildRpdo right n := by
  simp only [buildRpdo, odU32, same.read, readPdoMapping_alike same]

theorem buildTpdo_alike (same : SameView left right) (n : UInt16) :
    buildTpdo left n = buildTpdo right n := by
  simp only [buildTpdo, odU32, odU8, same.read, readPdoMapping_alike same]

end ProcessData

/-! ## The node -/

namespace Node

/-- The nodes differ at most in the values of write-only objects. -/
structure Alike (left right : Node N) : Prop where
  others : right = { left with od := right.od }
  view : SameView left.od right.od

def SameStep {ω : Type} (left right : Node N × ω) : Prop :=
  left.2 = right.2 ∧ Alike left.1 right.1

variable {node : Node N} {od : ObjectDictionary N}

theorem onLss_alike (same : SameView node.od od) (data : List UInt8) :
    Exec.Relates SameStep (node.onLss data) ({ node with od }.onLss data) := by
  unfold onLss
  cases enabled : node.lss with
  | none => exact .returns ⟨rfl, by rw [enabled], same⟩
  | some slave =>
      refine .ite (fun _ => .returns ⟨rfl, by rw [enabled], same⟩) fun _ => ?_
      refine .bind_same fun frame => .bind_same ?_
      rintro ⟨after, response⟩
      cases response with
      | none => exact .returns ⟨rfl, rfl, same⟩
      | some response => exact .bind_same fun tx => .returns ⟨rfl, rfl, same⟩

theorem onNmt_alike (same : SameView node.od od) (data : List UInt8) :
    Exec.Relates Alike (node.onNmt data) ({ node with od }.onNmt data) := by
  refine .ite (fun _ => .returns ⟨rfl, same⟩) fun _ => .bind_same fun command => ?_
  refine .bind_same fun target => ?_
  cases decodeCommand #v[command, target] with
  | error error => exact .returns ⟨rfl, same⟩
  | ok decoded =>
      exact .ite (fun _ => .returns ⟨rfl, same⟩) fun _ => .returns ⟨rfl, same⟩

theorem onSdo_alike (same : SameView node.od od) (data : List UInt8) :
    Exec.Relates SameStep (node.onSdo data) ({ node with od }.onSdo data) := by
  refine .ite (fun _ => .returns ⟨rfl, rfl, same⟩) fun _ => ?_
  refine .ite (fun _ => .returns ⟨rfl, rfl, same⟩) fun _ => .bind_same fun payload => ?_
  refine (Sdo.SdoServer.handle_alike same node.sdo payload).bind ?_
  rintro ⟨server, left, response⟩ ⟨_, right, _⟩ ⟨rfl, rfl, view⟩
  cases response with
  | none => exact .returns ⟨rfl, rfl, view⟩
  | some response => exact .bind_same fun tx => .returns ⟨rfl, rfl, view⟩

theorem onRpdo_alike (same : SameView node.od od) (cobId : UInt16) (data : List UInt8) :
    Exec.Relates Alike (node.onRpdo cobId data) ({ node with od }.onRpdo cobId data) := by
  refine .ite (fun _ => .returns ⟨rfl, same⟩) fun _ => ?_
  cases node.rpdos.toList.findIdx? fun slot => slot.cobId = cobId with
  | none => exact .returns ⟨rfl, same⟩
  | some i =>
      refine .bind_same fun slot => (unpack_alike same slot.mapping data).bind ?_
      exact fun _ _ unpacked => .returns ⟨rfl, unpacked.2⟩

theorem onFrame_alike (same : SameView node.od od) (cobId : UInt16) (data : List UInt8) :
    Exec.Relates SameStep (node.onFrame cobId data) ({ node with od }.onFrame cobId data) := by
  refine .ite (fun _ => onLss_alike same data) fun _ => ?_
  refine .ite (fun _ => .returns ⟨rfl, rfl, same⟩) fun _ => ?_
  refine .ite (fun _ => ?_) fun _ => ?_
  · exact (onNmt_alike same data).bind fun _ _ alike => .returns ⟨rfl, alike⟩
  · refine .ite (fun _ => onSdo_alike same data) fun _ => ?_
    exact (onRpdo_alike same cobId data).bind fun _ _ alike => .returns ⟨rfl, alike⟩

/-! ## The other operations -/

theorem setQuietly_alike {left right : ObjectDictionary N} (same : SameView left right)
    (addr : Address) (value : Value) :
    SameView (setQuietly left addr value) (setQuietly right addr value) := by
  have sets := same.set addr value
  unfold setQuietly
  generalize left.set addr value = setLeft at sets ⊢
  generalize right.set addr value = setRight at sets ⊢
  cases sets with
  | ok view => exact view
  | error error => exact same

theorem setAll_alike {left right : ObjectDictionary N} (same : SameView left right)
    (items : List (UInt32 × Nat)) (addr : Nat → Address) :
    SameView
      (items.foldl (fun od item => setQuietly od (addr item.2) (.unsigned32 item.1)) left)
      (items.foldl (fun od item => setQuietly od (addr item.2) (.unsigned32 item.1)) right) := by
  induction items generalizing left right with
  | nil => exact same
  | cons item items induction => exact induction (setQuietly_alike same _ _)

theorem mirrorErrorObjects_alike (same : SameView node.od od) :
    Alike node.mirrorErrorObjects { node with od }.mirrorErrorObjects :=
  ⟨rfl, setAll_alike (setQuietly_alike (setQuietly_alike same _ _) _ _) _
    fun position => ⟨0x1003, UInt8.ofNat (position + 1)⟩⟩

theorem buildTpdo_same (same : SameView node.od od) (slot : TpdoSlot) :
    node.buildTpdo slot = { node with od }.buildTpdo slot := by
  simp only [buildTpdo, pack_alike same]

theorem syncTpdos_same (same : SameView node.od od) :
    node.syncTpdos = { node with od }.syncTpdos := by
  simp only [syncTpdos, buildTpdo_same same]
  rfl

theorem tpdo_same (same : SameView node.od od) (index : Nat) :
    node.tpdo index = { node with od }.tpdo index := by
  simp only [tpdo, buildTpdo_same same]
  rfl

theorem pushSlots_alike (positions : List Nat) (same : SameView node.od od) :
    let step (node : Node N) (n : Nat) : Node N := { node with
      rpdos := pushSlot node.rpdos (buildRpdo node.od (UInt16.ofNat n))
      tpdos := pushSlot node.tpdos (CanOpen.buildTpdo node.od (UInt16.ofNat n)) }
    Alike (positions.foldl step node) (positions.foldl step { node with od }) := by
  intro step
  induction positions generalizing node with
  | nil => exact ⟨rfl, same⟩
  | cons n positions induction =>
      have sameStep : step { node with od } n = { step node n with od } := by
        simp only [step, buildRpdo_alike same, buildTpdo_alike same]
      rw [List.foldl_cons, List.foldl_cons, sameStep]
      exact induction same

theorem configurePdosFromOd_alike (same : SameView node.od od) :
    Alike node.configurePdosFromOd { node with od }.configurePdosFromOd :=
  @pushSlots_alike _ { node with rpdos := .new, tpdos := .new } _ (List.range maxPdos) same

theorem boot_alike (same : SameView node.od od) :
    Exec.Relates SameStep node.boot { node with od }.boot :=
  .bind_same fun _ => .returns ⟨rfl, rfl, same⟩

theorem nodeGuardResponse_alike (same : SameView node.od od) :
    Exec.Relates SameStep node.nodeGuardResponse { node with od }.nodeGuardResponse :=
  .bind_same fun _ => .returns ⟨rfl, rfl, same⟩

theorem raiseEmergency_alike (same : SameView node.od od) (code : UInt16)
    (register : ErrorRegister) (info : Vector UInt8 5) :
    Exec.Relates SameStep (node.raiseEmergency code register info)
      ({ node with od }.raiseEmergency code register info) := by
  refine .bind_same fun errorHistory => .bind_same fun frame => .returns ⟨rfl, ?_⟩
  let errorRegister := node.errorRegister ||| (register.bits ||| ErrorRegister.generic)
  exact @mirrorErrorObjects_alike _ { node with errorRegister, errorHistory } od same

theorem clearErrors_alike (same : SameView node.od od) :
    Exec.Relates SameStep node.clearErrors { node with od }.clearErrors := by
  refine .bind_same fun frame => .returns ⟨rfl, ?_⟩
  exact @mirrorErrorObjects_alike _ { node with errorRegister := 0, errorHistory := .new } od same

theorem produceSync_alike (same : SameView node.od od) :
    Exec.Relates SameStep node.produceSync { node with od }.produceSync := by
  unfold produceSync
  cases producer : node.syncProducer with
  | none => exact .returns ⟨rfl, by rw [producer], same⟩
  | some counter =>
      exact .bind_same fun advanced => .bind_same fun frame => .returns ⟨rfl, rfl, same⟩

/-- The node after an operation that may fail and is then as if it had not been tried. -/
theorem applyLssNodeId_alike (same : SameView node.od od) :
    Alike node.applyLssNodeId.1 { node with od }.applyLssNodeId.1 := by
  unfold applyLssNodeId
  cases enabled : node.lss with
  | none => exact ⟨by rw [enabled], same⟩
  | some slave =>
      simp only
      cases NodeId.new slave.pendingNodeId with
      | error error => exact ⟨by rw [enabled], same⟩
      | ok nodeId => exact ⟨rfl, same⟩

theorem addRpdo_alike (same : SameView node.od od) (cobId : UInt16)
    (mapping : PdoMapping maxPdoMapping) :
    Alike ((node.addRpdo cobId mapping).toOption.getD node)
      (({ node with od }.addRpdo cobId mapping).toOption.getD { node with od }) := by
  unfold addRpdo
  cases node.rpdos.push ⟨cobId, mapping⟩ <;> exact ⟨rfl, same⟩

theorem addTpdo_alike (same : SameView node.od od) (cobId : UInt16)
    (mapping : PdoMapping maxPdoMapping) (transmission : TransmissionType) :
    Alike ((node.addTpdo cobId mapping transmission).toOption.getD node)
      (({ node with od }.addTpdo cobId mapping transmission).toOption.getD { node with od }) := by
  unfold addTpdo
  cases node.tpdos.push ⟨cobId, mapping, transmission⟩ <;> exact ⟨rfl, same⟩

theorem enableSyncProducer_alike (same : SameView node.od od) (counterOverflow : UInt8) :
    Alike ((node.enableSyncProducer counterOverflow).toOption.getD node)
      (({ node with od }.enableSyncProducer counterOverflow).toOption.getD { node with od }) := by
  unfold enableSyncProducer
  cases SyncCounter.new counterOverflow <;> exact ⟨rfl, same⟩

end Node

/-! ## Every operation -/

namespace NodeOp

open Node (Alike SameStep)

variable {node : Node N} {od : ObjectDictionary N}

theorem sends_alike {ω : Type} {left right : Exec (Node N × ω)} (frames : ω → List TxFrame)
    (alike : Exec.Relates SameStep left right) :
    Exec.Relates SameStep (left >>= fun done => pure (done.1, frames done.2))
      (right >>= fun done => pure (done.1, frames done.2)) :=
  alike.bind fun _ _ same => .returns ⟨congrArg frames same.1, same.2⟩

theorem perform_alike (same : SameView node.od od) (op : NodeOp N) :
    Exec.Relates SameStep (op.perform node) (op.perform { node with od }) := by
  cases op with
  | enableLss | enableLssUnconfigured | setNodeId | takeWrittenObject =>
      exact .returns ⟨rfl, rfl, same⟩
  | odMut replaced => exact .returns ⟨rfl, rfl, .refl replaced⟩
  | applyLssNodeId => exact .returns ⟨rfl, Node.applyLssNodeId_alike same⟩
  | addRpdo cobId mapping => exact .returns ⟨rfl, Node.addRpdo_alike same cobId mapping⟩
  | addTpdo cobId mapping transmission =>
      exact .returns ⟨rfl, Node.addTpdo_alike same cobId mapping transmission⟩
  | configurePdosFromOd => exact .returns ⟨rfl, Node.configurePdosFromOd_alike same⟩
  | enableSyncProducer counterOverflow =>
      exact .returns ⟨rfl, Node.enableSyncProducer_alike same counterOverflow⟩
  | boot => exact sends_alike (fun frame => [frame]) (Node.boot_alike same)
  | nodeGuardResponse =>
      exact sends_alike (fun frame => [frame]) (Node.nodeGuardResponse_alike same)
  | heartbeat => exact .bind_same fun frame => .returns ⟨rfl, rfl, same⟩
  | raiseEmergency code register info =>
      exact sends_alike (fun frame => [frame])
        (Node.raiseEmergency_alike same code register info)
  | clearErrors => exact sends_alike (fun frame => [frame]) (Node.clearErrors_alike same)
  | produceSync => exact sends_alike Option.toList (Node.produceSync_alike same)
  | onFrame cobId data => exact sends_alike Option.toList (Node.onFrame_alike same cobId data)
  | syncTpdos =>
      simp only [perform, ← Node.syncTpdos_same same]
      exact .bind_same fun frames => .returns ⟨rfl, rfl, same⟩
  | tpdo index =>
      simp only [perform, ← Node.tpdo_same same]
      exact .bind_same fun frame => .returns ⟨rfl, rfl, same⟩

def written (node : Node N) : NodeOp N → Option Address
  | .takeWrittenObject => node.takeWrittenObject.2
  | _ => none

/-- Perform an operation and observe what it returns: frames to transmit, or the object
whose write is taken. -/
def observe (node : Node N) (op : NodeOp N) :
    Exec (Node N × List TxFrame × Option Address) := do
  let (after, frames) ← op.perform node
  pure (after, frames, op.written node)

theorem observe_alike (same : SameView node.od od) (op : NodeOp N) :
    Exec.Relates SameStep (op.observe node) (op.observe { node with od }) := by
  refine (op.perform_alike same).bind ?_
  rintro ⟨left, frames⟩ ⟨right, _⟩ ⟨rfl, alike⟩
  cases op <;> exact .returns ⟨rfl, alike⟩

theorem observe_returns {node : Node N} (valid : node.sdo.Valid) (op : NodeOp N) :
    ∃ after returned, op.observe node = pure (after, returned) ∧ after.sdo.Valid := by
  rcases op.perform_returns valid with ⟨after, frames, performed, validAfter⟩
  exact ⟨after, (frames, op.written node), by rw [observe, performed, pure_bind], validAfter⟩

end NodeOp

/-- Nodes that differ at most in the values of write-only objects return the same in every
sequence of operations, and differ in nothing else afterwards. No such sequence panics if
the SDO server starts in a state it can reach. -/
theorem write_only_hidden {left right : Node N} (alike : Node.Alike left right)
    (ops : List (NodeOp N)) :
    Exec.Relates (Trace.SameOutputs Node.Alike) (Trace.run NodeOp.observe left ops)
        (Trace.run NodeOp.observe right ops) ∧
      (left.sdo.Valid →
        ∃ events final, Trace.run NodeOp.observe left ops = pure (events, final)) := by
  constructor
  · refine Trace.run_relates (fun left right op alike => ?_) ops alike
    rw [alike.others]
    exact op.observe_alike alike.view
  · intro valid
    rcases Trace.run_total (fun node : Node N => node.sdo.Valid) ops valid
      (fun node op _ valid => op.observe_returns valid) with ⟨events, final, ran, -⟩
    exact ⟨events, final, ran⟩

/-- Two passwords of different length, read and written over SDO and mapped into a
transmit PDO. -/
theorem write_only_hidden_password :
    let password : Address := ⟨0x2000, 0⟩
    let device (bytes : List UInt8) (fits : bytes.length ≤ maxStringLen) : Node 1 :=
      Node.new ⟨5, by decide⟩
        ⟨[(password, ⟨.visibleString ⟨bytes, fits⟩, .wo⟩)], by simp, by simp⟩
    let ops : List (NodeOp 1) := [.boot, .onFrame 0x605 [0x40, 0x00, 0x20, 0x00],
      .addTpdo 0x185 ⟨⟨[⟨password, 16⟩], by decide⟩, by decide⟩ .synchronousAcyclic,
      .onFrame 0x000 [0x01, 0x05], .syncTpdos, .takeWrittenObject]
    Exec.Relates (Trace.SameOutputs Node.Alike)
        (Trace.run NodeOp.observe (device [1, 2] (by decide)) ops)
        (Trace.run NodeOp.observe (device [3, 4, 5] (by decide)) ops) ∧
      ((device [1, 2] (by decide)).sdo.Valid → ∃ events final,
        Trace.run NodeOp.observe (device [1, 2] (by decide)) ops = pure (events, final)) := by
  refine write_only_hidden ⟨rfl, fun addr => ?_⟩ _
  by_cases atPassword : (⟨0x2000, 0⟩ : Address) = addr
  · subst atPassword
    rfl
  · have absent : ∀ value, ObjectDictionary.entry (⟨[(⟨0x2000, 0⟩, ⟨value, .wo⟩)], by simp,
        by simp⟩ : ObjectDictionary 1) addr = none := by
      intro value
      simp [ObjectDictionary.entry, atPassword]
    exact (congrArg _ (absent _)).trans (congrArg _ (absent _)).symm

end CanOpen
