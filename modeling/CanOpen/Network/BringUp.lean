import CanOpen.Lss.Commissioning
import CanOpen.Node.Adoption

/-! # Bringing up a network

Devices without node-ids are discovered one after the other, are given a node-id each, adopt it
and boot, and are started together. Everything is done by frames that all of them receive.
-/

namespace CanOpen

open Lss (LssAddress LssFrame LssSlave FastscanMaster Ready)

/-! ## Devices on a bus -/

/-- A node with the size of its dictionary. -/
structure Device where
  capacity : Nat
  node : Node capacity

namespace Device

def hear (cobId : UInt16) (data : List UInt8) (device : Device) :
    Exec (Device × Option TxFrame) := do
  let (node, tx) ← device.node.onFrame cobId data
  pure (⟨device.capacity, node⟩, tx)

/-- A device without a node-id adopts the one that it has been assigned, and boots. -/
def adopt (device : Device) : Exec (Device × Option TxFrame) :=
  if device.node.lssUnconfigured then
    match device.node.applyLssNodeId with
    | (_, none) => pure (device, none)
    | (node, some _) => do
        let (node, frame) ← node.boot
        pure (⟨device.capacity, node⟩, some frame)
  else pure (device, none)

end Device

def tellAll (cobId : UInt16) (data : List UInt8) (devices : List Device) :
    Exec (List (Device × Option TxFrame)) :=
  devices.mapM (Device.hear cobId data)

structure DeviceScan where
  master : FastscanMaster
  devices : List Device

def DeviceScan.step (scan : DeviceScan) : Exec (Option DeviceScan) := do
  match ← scan.master.nextRequest with
  | none => pure none
  | some req => do
      let handled ← tellAll Lss.lssMasterCobId req.toList scan.devices
      let master ← scan.master.onResponse (handled.any fun answer => answer.2.isSome)
      pure (some ⟨master, handled.map Prod.fst⟩)

/-- Discover a device, assign it a node-id, send all of them back to waiting and let the one that
has been assigned a node-id adopt it. -/
def bringUpNext (fuel : Nat) (id : NodeId) (devices : List Device) :
    Exec (Option (List Device × List TxFrame)) := do
  match ← Loop.run DeviceScan.step fuel ⟨.new, devices⟩ with
  | none => pure none
  | some (_, ended) => do
      let configured ← tellAll Lss.lssMasterCobId (Lss.encodeConfigureNodeId id.raw).toList
        ended.devices
      let waiting ← tellAll Lss.lssMasterCobId (Lss.encodeSwitchGlobal false).toList
        (configured.map Prod.fst)
      let adopted ← (waiting.map Prod.fst).mapM Device.adopt
      pure (some (adopted.map Prod.fst, adopted.filterMap Prod.snd))

def bringUp (fuel : Nat) : List NodeId → List Device → Exec (Option (List Device × List TxFrame))
  | [], devices => pure (some (devices, []))
  | id :: ids, devices => do
      match ← bringUpNext fuel id devices with
      | none => pure none
      | some (next, boots) => do
          let rest ← bringUp fuel ids next
          pure (rest.map fun (last, later) => (last, boots ++ later))

def startAll (devices : List Device) : Exec (List Device) := do
  let handled ← tellAll nmtCommandCobId (encodeCommand .startRemoteNode .broadcast).toList devices
  pure (handled.map Prod.fst)

/-! ## Devices and their slaves -/

def Device.withSlave (device : Device) (slave : LssSlave) : Device :=
  ⟨device.capacity, { device.node with lss := some slave }⟩

theorem Device.hear_lss (device : Device) {slave after : LssSlave} {req : LssFrame}
    {response : Option LssFrame} (handles : slave.handle req = pure (after, response)) :
    ∃ tx, (device.withSlave slave).hear Lss.lssMasterCobId req.toList =
        pure (device.withSlave after, tx) ∧ tx.isSome = response.isSome := by
  have short : ¬ 8 < req.toList.length := by simp
  have heard : (device.withSlave slave).node.onFrame Lss.lssMasterCobId req.toList =
      (device.withSlave slave).node.onLss req.toList := if_pos rfl
  have reads : Node.padFrame req.toList = pure req := Node.padFrame_toList req
  cases response with
  | none =>
      refine ⟨none, ?_, rfl⟩
      rw [hear, heard, Node.onLss]
      simp only [withSlave, short, if_false, reads, pure_bind, handles]
  | some response =>
      rcases TxFrame.new_of_response Lss.lssSlaveCobId response with ⟨tx, built, -⟩
      refine ⟨some tx, ?_, rfl⟩
      rw [hear, heard, Node.onLss]
      simp only [withSlave, short, if_false, reads, pure_bind, handles, built]

theorem tellAll_lss {base : List Device} {slaves : List LssSlave} {req : LssFrame}
    {handled : List (LssSlave × Option LssFrame)} (same : slaves.length = base.length)
    (handles : Lss.Scan.broadcast req slaves = pure handled) :
    ∃ answers, tellAll Lss.lssMasterCobId req.toList (base.zipWith Device.withSlave slaves) =
        pure answers ∧
      answers.map Prod.fst = base.zipWith Device.withSlave (handled.map Prod.fst) ∧
      (answers.any fun answer => answer.2.isSome) =
        (handled.any fun answer => answer.2.isSome) ∧
      handled.length = slaves.length := by
  induction base generalizing slaves handled with
  | nil =>
      cases List.length_eq_zero_iff.mp same
      cases handles
      exact ⟨[], rfl, rfl, rfl, rfl⟩
  | cons device base induction =>
      cases slaves with
      | nil => cases same
      | cons slave slaves =>
          rw [Lss.Scan.broadcast, List.mapM_cons, Exec.bind_eq_pure_iff] at handles
          rcases handles with ⟨⟨after, response⟩, first, handles⟩
          rw [Exec.bind_eq_pure_iff] at handles
          rcases handles with ⟨others, rest, ⟨⟩⟩
          rcases device.hear_lss first with ⟨tx, heard, isSome⟩
          rcases induction (Nat.succ.inj same) rest with
            ⟨answers, told, devices, any_, length⟩
          refine ⟨(device.withSlave after, tx) :: answers, ?_, ?_, ?_, ?_⟩
          · rw [List.zipWith_cons_cons, tellAll, List.mapM_cons, heard, pure_bind]
            rw [tellAll] at told
            rw [told, pure_bind]
          · simp [devices]
          · simp [isSome, any_]
          · simp [length]

/-! ## The scan of devices -/

/-- A scan of devices and the scan of the slaves in them. -/
structure Simulates (base : List Device) (scan : Lss.Scan) (other : DeviceScan) : Prop where
  master : other.master = scan.master
  devices : other.devices = base.zipWith Device.withSlave scan.slaves
  length : scan.slaves.length = base.length

theorem Simulates.next {base : List Device} {scan reached : Lss.Scan} {other : DeviceScan}
    (same : Simulates base scan other) (taken : scan.step = pure (some reached)) :
    ∃ answer, other.step = pure (some answer) ∧ Simulates base reached answer := by
  rw [Lss.Scan.step, Exec.bind_eq_pure_iff] at taken
  rcases taken with ⟨_ | req, requests, taken⟩
  · cases taken
  · simp only [Exec.bind_eq_pure_iff] at taken
    rcases taken with ⟨handled, handles, master, advances, ⟨⟩⟩
    rcases tellAll_lss same.length handles with ⟨answers, told, devices, any_, length⟩
    refine ⟨⟨master, answers.map Prod.fst⟩, ?_, rfl, devices, ?_⟩
    · rw [DeviceScan.step, same.master, requests, pure_bind]
      simp only [same.devices, told, pure_bind, any_, advances]
    · rw [List.length_map, length, same.length]

theorem Simulates.stop {base : List Device} {scan : Lss.Scan} {other : DeviceScan}
    (same : Simulates base scan other) (done : scan.step = pure none) :
    other.step = pure none := by
  rw [Lss.Scan.step, Exec.bind_eq_pure_iff] at done
  rcases done with ⟨_ | req, requests, done⟩
  · rw [DeviceScan.step, same.master, requests, pure_bind]
  · simp only [Exec.bind_eq_pure_iff] at done
    rcases done with ⟨handled, -, master, -, ⟨⟩⟩

/-! ## One device -/

theorem Lss.LssSlave.adoptPending_of_settled {slave : LssSlave}
    (settled : slave.pendingNodeId = slave.nodeId) : slave.adoptPending = slave := by
  cases slave
  simp only at settled
  simp only [adoptPending, settled]

namespace Device

def slave (device : Device) : LssSlave :=
  device.node.lss.getD (.new ⟨0, 0, 0, 0⟩ Lss.unconfiguredNodeId)

def raise (id : NodeId) (device : Device) : Device :=
  ⟨device.capacity,
    { device.node.setNodeId id with nmt := device.node.nmt.boot, guardToggle := false }⟩

/-- A device that still has no node-id, and has the address that a scan has found. -/
def IsFound (found : LssAddress) (device : Device) : Prop :=
  device.slave.nodeId = Lss.unconfiguredNodeId ∧ device.slave.address = found

instance (found : LssAddress) (device : Device) : Decidable (device.IsFound found) := by
  unfold IsFound
  infer_instance

/-- A device after a round in which the one that is found is assigned a node-id. -/
def afterRound (found : LssAddress) (id : NodeId) (device : Device) : Device :=
  (if device.IsFound found then device.raise id else device).withSlave
    (device.slave.afterRound found id.raw)

@[simp] theorem slave_withSlave (device : Device) (slave : LssSlave) :
    (device.withSlave slave).slave = slave := rfl

theorem withSlave_slave {device : Device} (enabled : device.node.lss = some device.slave) :
    device.withSlave device.slave = device := by
  rw [withSlave, ← enabled]

theorem exists_bootUp (id : NodeId) :
    ∃ frame, TxFrame.new (heartbeatCobId id) bootupFrame.toList = pure frame := by
  rcases TxFrame.new_returns (heartbeatCobId id) bootupFrame.toList with ⟨frame, built, -⟩
  exact ⟨frame, built⟩

theorem adopt_pending {device : Device} {slave : LssSlave} {id : NodeId} {frame : TxFrame}
    (built : TxFrame.new (heartbeatCobId id) bootupFrame.toList = pure frame)
    (positive : 1 ≤ id.raw) (unconfigured : slave.nodeId = Lss.unconfiguredNodeId)
    (pending : slave.pendingNodeId = id.raw) :
    (device.withSlave slave).adopt =
      pure ((device.raise id).withSlave slave.adoptPending, some frame) := by
  have missing : (device.withSlave slave).node.lssUnconfigured = true := by
    simp [withSlave, Node.lssUnconfigured, unconfigured]
  have applied : (device.withSlave slave).node.applyLssNodeId =
      ({ device.node.setNodeId id with lss := some slave.adoptPending }, some id) :=
    Node.applyLssNodeId_eq_some_iff.mpr ⟨slave, rfl, pending, positive, rfl⟩
  rw [adopt, if_pos missing, applied]
  simp only [Node.boot, Node.setNodeId, built, pure_bind]
  rfl

theorem adopt_other {device : Device} {slave : LssSlave}
    (settled : slave.pendingNodeId = slave.nodeId) :
    (device.withSlave slave).adopt = pure (device.withSlave slave, none) := by
  by_cases unconfigured : slave.nodeId = Lss.unconfiguredNodeId
  · have missing : (device.withSlave slave).node.lssUnconfigured = true := by
      simp [withSlave, Node.lssUnconfigured, unconfigured]
    have invalid : NodeId.new slave.pendingNodeId = .error .invalidNodeId := by
      rw [settled, unconfigured]
      rfl
    have kept : (device.withSlave slave).node.applyLssNodeId =
        ((device.withSlave slave).node, none) := by
      simp only [Node.applyLssNodeId, withSlave, invalid]
    rw [adopt, if_pos missing, kept]
  · have configured : (device.withSlave slave).node.lssUnconfigured = false := by
      simp [withSlave, Node.lssUnconfigured, unconfigured]
    rw [adopt, configured]
    rfl

theorem adopt_afterRound {device : Device} {found : LssAddress} {id : NodeId} {frame : TxFrame}
    (built : TxFrame.new (heartbeatCobId id) bootupFrame.toList = pure frame)
    (positive : 1 ≤ id.raw) (settled : device.slave.Settled) :
    (device.withSlave ((device.slave.settle found).configure id.raw).wait).adopt =
      pure (device.afterRound found id, if device.IsFound found then some frame else none) := by
  have scanned := device.slave.afterScan_settle found
  have participates : device.slave.Participates ↔
      device.slave.nodeId = Lss.unconfiguredNodeId := by
    rw [LssSlave.Participates, settled.state]
    simp
  have state := scanned.state
  simp only [participates] at state
  by_cases isFound : device.IsFound found
  · rw [if_pos ⟨isFound.1, isFound.2⟩] at state
    rw [if_pos isFound, afterRound, if_pos isFound]
    refine adopt_pending built positive ?_ ?_
    · simp only [LssSlave.wait, LssSlave.configure, state, if_true]
      exact scanned.nodeId.trans isFound.1
    · simp only [LssSlave.wait, LssSlave.configure, state, if_true]
  · have differs : ¬ (device.slave.nodeId = Lss.unconfiguredNodeId ∧
        device.slave.address = found) := isFound
    rw [if_neg differs, settled.state] at state
    rw [if_neg isFound, afterRound, if_neg isFound]
    have unchanged : ((device.slave.settle found).configure id.raw).wait.pendingNodeId =
        ((device.slave.settle found).configure id.raw).wait.nodeId := by
      simp only [LssSlave.wait, LssSlave.configure, state, reduceCtorEq, if_false]
      rw [scanned.pendingNodeId, scanned.nodeId, settled.pending]
    rw [adopt_other unchanged, LssSlave.afterRound, LssSlave.adoptPending_of_settled unchanged]

end Device

/-! ## One round -/

theorem tellAll_map {devices : List Device} {req : LssFrame} {before after : Device → LssSlave}
    (handles : ∀ device ∈ devices, ∃ response,
      (before device).handle req = pure (after device, response)) :
    ∃ answers, tellAll Lss.lssMasterCobId req.toList
        (devices.map fun device => device.withSlave (before device)) = pure answers ∧
      answers.map Prod.fst = devices.map fun device => device.withSlave (after device) := by
  induction devices with
  | nil => exact ⟨[], rfl, rfl⟩
  | cons device devices induction =>
      rcases handles device List.mem_cons_self with ⟨response, handled⟩
      rcases device.hear_lss handled with ⟨tx, heard, -⟩
      rcases induction fun other member => handles other (List.mem_cons_of_mem _ member) with
        ⟨answers, told, next⟩
      refine ⟨(device.withSlave (after device), tx) :: answers, ?_, ?_⟩
      · rw [tellAll] at told
        rw [List.map_cons, tellAll, List.mapM_cons, heard, pure_bind, told, pure_bind]
      · rw [List.map_cons, List.map_cons, next]

theorem boots_of_found {devices : List Device} {address : LssAddress} {addresses}
    (ready : Ready (devices.map Device.slave) (address :: addresses)) (frame : TxFrame) :
    (devices.filterMap fun device =>
      if device.IsFound address then some frame else none) = [frame] := by
  rcases (ready.unconfigured address).mp List.mem_cons_self with
    ⟨slave, member, unconfigured, equal⟩
  rcases List.mem_map.mp member with ⟨device, present, rfl⟩
  rcases List.append_of_mem present with ⟨front, back, split⟩
  have distinct := ready.distinct
  rw [split, List.map_append, List.map_cons, List.map_append, List.map_cons,
    List.nodup_middle, List.nodup_cons] at distinct
  have others : ∀ other, other ∈ front ∨ other ∈ back → ¬ other.IsFound address := by
    intro other elsewhere isFound
    refine distinct.1 ?_
    rw [equal, ← isFound.2, List.mem_append]
    exact elsewhere.imp (fun member => List.mem_map_of_mem (List.mem_map_of_mem member))
      fun member => List.mem_map_of_mem (List.mem_map_of_mem member)
  have none_in : ∀ items : List Device, (∀ other ∈ items, other ∈ front ∨ other ∈ back) →
      (items.filterMap fun device =>
        if device.IsFound address then some frame else none) = [] := by
    intro items within
    rw [List.filterMap_eq_nil_iff]
    exact fun other member => if_neg (others other (within other member))
  rw [split, List.filterMap_append, List.filterMap_cons, if_pos ⟨unconfigured, equal⟩,
    none_in front fun _ => .inl, none_in back fun _ => .inr]
  rfl

theorem bringUpNext_eq {fuel : Nat} (enough : 133 < fuel) {id : NodeId} (positive : 1 ≤ id.raw)
    {frame : TxFrame}
    (built : TxFrame.new (heartbeatCobId id) bootupFrame.toList = pure frame)
    {devices : List Device} (enabled : ∀ device ∈ devices, device.node.lss = some device.slave)
    {address : LssAddress} {addresses : List LssAddress}
    (ready : Ready (devices.map Device.slave) (address :: addresses)) :
    bringUpNext fuel id devices =
      pure (some (devices.map (Device.afterRound address id), [frame])) := by
  have valid : 1 ≤ id.raw ∧ id.raw ≤ 127 := ⟨positive, id.raw_le⟩
  have atStart : Simulates devices ⟨.new, devices.map Device.slave⟩ ⟨.new, devices⟩ := by
    refine ⟨rfl, ?_, List.length_map _⟩
    rw [List.zipWith_map_right, List.zipWith_self]
    exact (List.map_id' devices).symm.trans (List.map_congr_left fun device member =>
      (Device.withSlave_slave (enabled device member)).symm)
  rcases (Lss.Scan.ends_discovered ready.least).simulated
    (fun _ _ _ same taken => same.next taken) (fun _ _ same done => same.stop done) atStart with
    ⟨ended, ends, same⟩
  have scanned : ended.devices = devices.map fun device =>
      device.withSlave (device.slave.settle address) := by
    rw [same.devices, Lss.Scan.discovered, List.map_map, List.zipWith_map_right,
      List.zipWith_self]
    rfl
  rcases @tellAll_map devices (Lss.encodeConfigureNodeId id.raw)
    (fun device => device.slave.settle address)
    (fun device => (device.slave.settle address).configure id.raw)
    (fun device _ => ⟨_, (device.slave.settle address).handle_configure valid⟩) with
    ⟨configured, tells, configures⟩
  rcases @tellAll_map devices (Lss.encodeSwitchGlobal false)
    (fun device => (device.slave.settle address).configure id.raw)
    (fun device => ((device.slave.settle address).configure id.raw).wait)
    (fun device _ => ⟨_, LssSlave.handle_switch_waiting _⟩) with ⟨waiting, sends, waits⟩
  have adopted : (devices.map fun device =>
      device.withSlave ((device.slave.settle address).configure id.raw).wait).mapM Device.adopt =
      pure (devices.map fun device =>
        (device.afterRound address id, if device.IsFound address then some frame else none)) := by
    rw [List.mapM_map]
    exact Exec.mapM_eq_pure fun device member =>
      device.adopt_afterRound built positive (ready.settled _ (List.mem_map_of_mem member))
  rw [bringUpNext, ends fuel enough, pure_bind]
  simp only [scanned, tells, pure_bind, configures, sends]
  rw [waits, adopted, pure_bind, List.map_map, List.filterMap_map]
  exact congrArg (fun boots => pure (some (_, boots))) (boots_of_found ready frame)

/-! ## All rounds -/

/-- What the rounds leave of a device: one without a node-id has been assigned one. -/
structure BroughtUp (assigned : LssAddress → NodeId) (before after : Device) (slave : LssSlave) :
    Prop where
  address : slave.address = before.slave.address
  nodeId : slave.nodeId = if before.slave.nodeId = Lss.unconfiguredNodeId
    then (assigned before.slave.address).raw else before.slave.nodeId
  same : after = (if before.slave.nodeId = Lss.unconfiguredNodeId
    then before.raise (assigned before.slave.address) else before).withSlave slave
  settled : slave.Settled

theorem raw_ne_unconfigured (id : NodeId) : id.raw ≠ Lss.unconfiguredNodeId := by
  intro equal
  have bound := id.raw_le
  rw [equal] at bound
  exact absurd bound (by decide)

theorem BroughtUp.after_round {assigned : LssAddress → NodeId} {address : LssAddress}
    {id : NodeId} {before after : Device} {slave : LssSlave} (settled : before.slave.Settled)
    (rest : BroughtUp assigned (before.afterRound address id) after slave) :
    BroughtUp (Function.update assigned address id) before after slave := by
  rcases LssSlave.afterRound_fields settled address id.raw with ⟨kept, -, nodeId⟩
  have known : (before.afterRound address id).slave = before.slave.afterRound address id.raw := rfl
  by_cases unconfigured : before.slave.nodeId = Lss.unconfiguredNodeId
  · by_cases equal : before.slave.address = address
    · rw [if_pos ⟨unconfigured, equal⟩] at nodeId
      have assignedId : Function.update assigned address id before.slave.address = id := by
        rw [equal, Function.update_self]
      have last := rest.same
      have lastId := rest.nodeId
      rw [known, nodeId, if_neg (raw_ne_unconfigured id)] at last lastId
      refine ⟨rest.address.trans kept, ?_, ?_, rest.settled⟩
      · rw [if_pos unconfigured, assignedId, lastId]
      · rw [if_pos unconfigured, assignedId, last, Device.afterRound,
          if_pos (show before.IsFound address from ⟨unconfigured, equal⟩)]
        rfl
    · have differs : ¬ before.IsFound address := fun isFound => equal isFound.2
      rw [if_neg fun both => equal both.2, unconfigured] at nodeId
      have last := rest.same
      have lastId := rest.nodeId
      rw [known, nodeId, if_pos rfl, kept] at last lastId
      have assignedId : Function.update assigned address id before.slave.address =
          assigned before.slave.address := Function.update_of_ne equal _ _
      refine ⟨rest.address.trans kept, ?_, ?_, rest.settled⟩
      · rw [if_pos unconfigured, assignedId, lastId]
      · rw [if_pos unconfigured, assignedId, last, Device.afterRound, if_neg differs]
        rfl
  · have differs : ¬ before.IsFound address := fun isFound => unconfigured isFound.1
    rw [if_neg fun both => unconfigured both.1] at nodeId
    have last := rest.same
    have lastId := rest.nodeId
    rw [known, nodeId, if_neg unconfigured] at last lastId
    refine ⟨rest.address.trans kept, ?_, ?_, rest.settled⟩
    · rw [if_neg unconfigured, lastId]
    · rw [if_neg unconfigured, last, Device.afterRound, if_neg differs]
      rfl

/-- The boot-up frame of a node. -/
def Announces (id : NodeId) (frame : TxFrame) : Prop :=
  TxFrame.new (heartbeatCobId id) bootupFrame.toList = pure frame

theorem bringUp_raises {fuel : Nat} (enough : 133 < fuel) {ids : List NodeId}
    (positive : ∀ id ∈ ids, 1 ≤ id.raw) {devices : List Device} {addresses : List LssAddress}
    (count : addresses.length = ids.length)
    (enabled : ∀ device ∈ devices, device.node.lss = some device.slave)
    (ready : Ready (devices.map Device.slave) addresses) :
    ∃ assigned : LssAddress → NodeId, addresses.map assigned = ids ∧ ∃ last boots,
      bringUp fuel ids devices = pure (some (last, boots)) ∧
      List.Forall₂ Announces ids boots ∧
      List.Forall₂ (fun before after => ∃ slave, BroughtUp assigned before after slave)
        devices last := by
  induction ids generalizing devices addresses with
  | nil =>
      rw [List.length_nil, List.length_eq_zero_iff] at count
      subst count
      refine ⟨fun _ => .broadcast, rfl, devices, [], rfl, .nil,
        List.forall₂_same.mpr fun device member => ⟨device.slave, rfl, ?_, ?_,
          ready.settled _ (List.mem_map_of_mem member)⟩⟩
      all_goals
        rw [if_neg fun unconfigured => List.not_mem_nil ((ready.unconfigured _).mpr
          ⟨device.slave, List.mem_map_of_mem member, unconfigured, rfl⟩)]
      exact (Device.withSlave_slave (enabled device member)).symm
  | cons id ids induction =>
      cases addresses with
      | nil => cases count
      | cons address addresses =>
          have positiveId := positive id List.mem_cons_self
          rcases Device.exists_bootUp id with ⟨frame, built⟩
          have next := (ready.next ⟨positiveId, id.raw_le⟩).1
          have same : (devices.map (Device.afterRound address id)).map Device.slave =
              (devices.map Device.slave).map (LssSlave.afterRound address id.raw) := by
            rw [List.map_map, List.map_map]
            rfl
          rw [← same] at next
          rcases induction (fun other member => positive other (List.mem_cons_of_mem _ member))
            (by simpa using count) (fun device member => by
              rcases List.mem_map.mp member with ⟨before, -, rfl⟩
              rfl) next with ⟨assigned, order, last, boots, raises, announce, broughtUp⟩
          have fresh : address ∉ addresses := fun later =>
            lt_irrefl address ((List.pairwise_cons.mp ready.sorted).1 _ later)
          refine ⟨Function.update assigned address id, ?_, last, frame :: boots, ?_,
            .cons built announce, ?_⟩
          · rw [List.map_cons, Function.update_self, ← order]
            refine congrArg (id :: ·) (List.map_congr_left fun other later => ?_)
            exact Function.update_of_ne (fun equal : other = address => fresh (equal ▸ later)) _ _
          · rw [bringUp, bringUpNext_eq enough positiveId built enabled ready, pure_bind]
            simp only [raises, pure_bind, Option.map_some]
            rfl
          · have settled : ∀ device ∈ devices, device.slave.Settled := fun device member =>
              ready.settled _ (List.mem_map_of_mem member)
            refine ((List.forall₂_and_left _ _).mpr ⟨settled,
              List.forall₂_map_left_iff.mp broughtUp⟩).imp ?_
            rintro before after ⟨settled, slave, rest⟩
            exact ⟨slave, rest.after_round settled⟩

/-! ## The start -/

def Device.started (id : NodeId) (slave : LssSlave) (device : Device) : Device :=
  ⟨device.capacity, { device.node.setNodeId id with
    lss := some slave, nmt := ⟨.operational⟩, guardToggle := false }⟩

theorem Device.hear_start {device : Device} {id : NodeId} {slave : LssSlave}
    (configured : slave.nodeId = id.raw) :
    ((device.raise id).withSlave slave).hear nmtCommandCobId
        (encodeCommand .startRemoteNode .broadcast).toList =
      pure (device.started id slave, none) := by
  have served : ((device.raise id).withSlave slave).node.lssUnconfigured = false := by
    simp [withSlave, Node.lssUnconfigured, configured, raw_ne_unconfigured]
  have starts : device.node.nmt.boot.apply .startRemoteNode = ⟨.operational⟩ := by
    rcases device.node.nmt with ⟨_ | _ | _ | _⟩ <;> rfl
  have commanded : ((device.raise id).withSlave slave).node.onNmt
      (encodeCommand .startRemoteNode .broadcast).toList =
      pure { ((device.raise id).withSlave slave).node with nmt := ⟨.operational⟩ } := by
    rw [← starts]
    rfl
  rw [hear, Node.onFrame_nmtCommand served, commanded]
  rfl

structure Device.Assigned (device : Device) (id : NodeId) (slave : LssSlave) : Prop where
  address : slave.address = device.slave.address
  nodeId : slave.nodeId = id.raw
  pending : slave.pendingNodeId = id.raw
  waiting : slave.state = .waiting

def Raised (assigned : LssAddress → NodeId) (before after : Device) : Prop :=
  ∃ slave, before.Assigned (assigned before.slave.address) slave ∧
    after = (before.raise (assigned before.slave.address)).withSlave slave

def Started (assigned : LssAddress → NodeId) (before after : Device) : Prop :=
  ∃ slave, before.Assigned (assigned before.slave.address) slave ∧
    after = before.started (assigned before.slave.address) slave

theorem startAll_raised {assigned : LssAddress → NodeId} {devices last : List Device}
    (raised : List.Forall₂ (Raised assigned) devices last) :
    ∃ started, startAll last = pure started ∧
      List.Forall₂ (Started assigned) devices started := by
  induction raised with
  | nil => exact ⟨[], rfl, .nil⟩
  | cons first rest induction =>
      rcases first with ⟨slave, given, rfl⟩
      rcases induction with ⟨started, starts, all⟩
      rw [startAll, Exec.bind_eq_pure_iff] at starts
      rcases starts with ⟨handled, tells, ⟨⟩⟩
      refine ⟨_, ?_, .cons ⟨slave, given, rfl⟩ all⟩
      rw [tellAll] at tells
      rw [startAll, tellAll, List.mapM_cons, Device.hear_start given.nodeId, pure_bind, tells]
      rfl

theorem nodeIds_of_started {assigned : LssAddress → NodeId} {devices started : List Device}
    (all : List.Forall₂ (Started assigned) devices started) :
    started.map (fun device => device.node.nodeId) =
      (devices.map fun device => device.slave.address).map assigned := by
  induction all with
  | nil => rfl
  | cons first rest induction =>
      rcases first with ⟨slave, -, rfl⟩
      rw [List.map_cons, List.map_cons, List.map_cons, induction]
      rfl

structure Device.Unassigned (device : Device) : Prop where
  enabled : device.node.lss = some device.slave
  nodeId : device.slave.nodeId = Lss.unconfiguredNodeId
  pending : device.slave.pendingNodeId = Lss.unconfiguredNodeId
  waiting : device.slave.state = .waiting

/-- Devices without node-ids are given the node-ids in the order of their addresses, announce
themselves in that order, and are operational once they are started, with everything else as it
was before. -/
theorem network_is_brought_up {fuel : Nat} (enough : 133 < fuel) {devices : List Device}
    {ids : List NodeId} (count : devices.length = ids.length)
    (positive : ∀ id ∈ ids, 1 ≤ id.raw) (unassigned : ∀ device ∈ devices, device.Unassigned)
    (distinct : (devices.map fun device => device.slave.address).Nodup) :
    ∃ (addresses : List LssAddress) (assigned : LssAddress → NodeId),
      addresses.Perm (devices.map fun device => device.slave.address) ∧
      addresses.Pairwise (· < ·) ∧ addresses.map assigned = ids ∧
      ∃ last boots, bringUp fuel ids devices = pure (some (last, boots)) ∧
        List.Forall₂ Announces ids boots ∧
        ∃ started, startAll last = pure started ∧
          List.Forall₂ (Started assigned) devices started ∧
          (started.map fun device => device.node.nodeId).Perm ids := by
  have everySlave : ∀ slave ∈ devices.map Device.slave,
      slave.nodeId = Lss.unconfiguredNodeId ∧
        slave.pendingNodeId = Lss.unconfiguredNodeId ∧ slave.state = .waiting := by
    intro slave member
    rcases List.mem_map.mp member with ⟨device, present, rfl⟩
    rcases unassigned device present with ⟨-, nodeId, pending, waiting⟩
    exact ⟨nodeId, pending, waiting⟩
  have addressesOf : (devices.map Device.slave).map LssSlave.address =
      devices.map fun device => device.slave.address := by
    rw [List.map_map]
    rfl
  rcases Lss.exists_ready everySlave (by rw [addressesOf]; exact distinct) with
    ⟨addresses, permuted, ready⟩
  rw [addressesOf] at permuted
  have length : addresses.length = ids.length := by
    rw [permuted.length_eq, List.length_map, count]
  rcases bringUp_raises enough positive length
    (fun device member => (unassigned device member).enabled) ready with
    ⟨assigned, order, last, boots, raises, announce, broughtUp⟩
  have raised : List.Forall₂ (Raised assigned) devices last := by
    refine ((List.forall₂_and_left _ _).mpr ⟨unassigned, broughtUp⟩).imp ?_
    rintro before after ⟨unassigned, slave, broughtUp⟩
    have nodeId := broughtUp.nodeId
    have same := broughtUp.same
    rw [if_pos unassigned.nodeId] at nodeId same
    exact ⟨slave, ⟨broughtUp.address, nodeId, broughtUp.settled.pending.trans nodeId,
      broughtUp.settled.state⟩, same⟩
  rcases startAll_raised raised with ⟨started, starts, all⟩
  refine ⟨addresses, assigned, permuted, ready.sorted, order, last, boots, raises, announce,
    started, starts, all, ?_⟩
  rw [nodeIds_of_started all, ← order]
  exact (permuted.map assigned).symm

/-- Two devices that still have the same provisional node-id. -/
theorem network_is_brought_up_two :
    let device (vendor : UInt32) : Device :=
      ⟨1, (Node.new ⟨1, by decide⟩ .new).enableLssUnconfigured ⟨vendor, 2, 3, 4⟩⟩
    ∃ last boots, bringUp 134 [⟨5, by decide⟩, ⟨6, by decide⟩] [device 9, device 1] =
        pure (some (last, boots)) ∧
      ∃ started, startAll last = pure started ∧
        (started.map fun device => device.node.nodeId).Perm
          [⟨5, by decide⟩, ⟨6, by decide⟩] := by
  intro device
  rcases @network_is_brought_up 134 (by decide) [device 9, device 1]
    [⟨5, by decide⟩, ⟨6, by decide⟩] rfl (by decide) (by
      intro other member
      rcases List.mem_cons.mp member with rfl | member
      · exact ⟨rfl, rfl, rfl, rfl⟩
      · rw [List.mem_singleton.mp member]
        exact ⟨rfl, rfl, rfl, rfl⟩)
    (by decide) with ⟨-, -, -, -, -, last, boots, raises, -, started, starts, -, nodeIds⟩
  exact ⟨last, boots, raises, started, starts, nodeIds⟩

end CanOpen
