import CanOpen.Host.HeartbeatMonitor
import CanOpen.Node.Transmission

/-! # Supervision of a network

A monitor that is fed with everything that the nodes of a network transmit knows of each of them
what it last reported, and when.
-/

namespace CanOpen

open HeartbeatMonitor (heartbeatOf lastHeartbeat)

/-! ## What the frames of a node report -/

def Node.reports {N : Nat} (node : Node N) : NodeOp N → Option NmtState
  | .boot => some .initialising
  | .heartbeat | .nodeGuardResponse => some node.state
  | _ => none

theorem heartbeatCobId_toNat (node : NodeId) :
    (heartbeatCobId node).toNat = 0x700 + node.raw.toNat := by
  have small := node.raw.toNat_lt
  simp only [heartbeatCobId, heartbeatCobBase, UInt16.toNat_add, UInt8.toNat_toUInt16,
    UInt16.reduceToNat]
  omega

theorem heartbeatCobId_eq_iff {left right : NodeId} :
    heartbeatCobId left = heartbeatCobId right ↔ left = right := by
  constructor
  · intro same
    have numbers := congrArg UInt16.toNat same
    rw [heartbeatCobId_toNat, heartbeatCobId_toNat] at numbers
    rcases left with ⟨raw, _⟩
    rcases right with ⟨raw', _⟩
    have raws : raw = raw' := UInt8.toNat_inj.mp (Nat.add_left_cancel numbers)
    subst raws
    rfl
  · rintro rfl
    rfl

theorem emcyCobId_toNat (node : NodeId) : (emcyCobId node).toNat = 0x80 + node.raw.toNat := by
  have small := node.raw.toNat_lt
  simp only [emcyCobId, emcyCobBase, UInt16.toNat_add, UInt8.toNat_toUInt16, UInt16.reduceToNat]
  omega

theorem heartbeatCobId_ne_services (node other : NodeId) :
    emcyCobId node ≠ heartbeatCobId other ∧ syncCobId ≠ heartbeatCobId other ∧
      Lss.lssSlaveCobId ≠ heartbeatCobId other ∧
      Sdo.responseCobId node ≠ heartbeatCobId other := by
  have bound : node.raw.toNat ≤ 127 := UInt8.le_iff_toNat_le.mp node.raw_le
  have bound' : other.raw.toNat ≤ 127 := UInt8.le_iff_toNat_le.mp other.raw_le
  have number := heartbeatCobId_toNat other
  refine ⟨fun same => ?_, fun same => ?_, fun same => ?_, fun same => ?_⟩
  · rw [← same, emcyCobId_toNat] at number
    omega
  · rw [← same, show syncCobId.toNat = 0x80 from rfl] at number
    omega
  · rw [← same, show Lss.lssSlaveCobId.toNat = 0x7E4 from rfl] at number
    omega
  · rw [← same, responseCobId_toNat] at number
    omega

theorem heartbeatOf_other {id : NodeId} {frame : HeartbeatMonitor.Received}
    (other : frame.cobId ≠ heartbeatCobId id) : heartbeatOf id frame = none :=
  if_neg other

theorem heartbeatOf_own (id node : NodeId) {first : UInt8} {state : NmtState}
    (carries : first &&& 0x7F = state.toByte) (rest : List UInt8) (time : Instant) :
    heartbeatOf id ⟨heartbeatCobId node, first :: rest, time⟩ =
      if node = id then some ⟨state, time⟩ else none := by
  by_cases same : node = id
  · subst same
    have found := HeartbeatMonitor.findState_eq_some_iff.mpr carries
    rw [if_pos rfl, heartbeatOf]
    exact (if_pos rfl).trans (by simp [found])
  · rw [if_neg same]
    exact heartbeatOf_other fun shared_ => same (heartbeatCobId_eq_iff.mp shared_)

/-- The frames of an operation say of a node what it reports by it, unless a PDO uses the COB-ID
of its heartbeat. -/
theorem Transmits.heartbeats {N : Nat} {node : Node N} {op : NodeOp N} {sent : List BusFrame}
    (transmits : Transmits node op sent) (id : NodeId)
    (noPdo : ∀ slot ∈ node.tpdos.toList, slot.cobId ≠ heartbeatCobId id) (time : Instant) :
    (sent.map fun frame =>
        (⟨frame.1, frame.2, time⟩ : HeartbeatMonitor.Received)).filterMap (heartbeatOf id) =
      (if node.nodeId = id then (node.reports op).map fun state => ⟨state, time⟩
        else none).toList := by
  rcases heartbeatCobId_ne_services node.nodeId id with ⟨emcy, sync, lss, -⟩
  have response := (heartbeatCobId_ne_services node.sdo.node id).2.2.2
  have quiet : (∀ frame ∈ sent, frame.1 ≠ heartbeatCobId id) →
      (sent.map fun frame =>
          (⟨frame.1, frame.2, time⟩ : HeartbeatMonitor.Received)).filterMap (heartbeatOf id) =
        [] := by
    intro other
    rw [List.filterMap_map, List.filterMap_eq_nil_iff]
    exact fun frame member => heartbeatOf_other (other frame member)
  have own : ∀ (first : UInt8) (rest : List UInt8) (state : NmtState),
      first &&& 0x7F = state.toByte →
      (([(heartbeatCobId node.nodeId, first :: rest)] : List BusFrame).map fun frame =>
        (⟨frame.1, frame.2, time⟩ : HeartbeatMonitor.Received)).filterMap (heartbeatOf id) =
        (if node.nodeId = id then some ⟨state, time⟩ else none).toList := by
    intro first rest state carries
    rw [List.map_singleton, List.filterMap_cons, heartbeatOf_own id node.nodeId carries]
    split <;> simp_all
  cases transmits with
  | bootup => exact own 0 [] .initialising rfl
  | guarded =>
      refine own _ [] node.state ?_
      cases node.state <;> cases node.guardToggle <;> rfl
  | heartbeat =>
      refine own _ [] node.state ?_
      cases node.state <;> rfl
  | raised | cleared =>
      rw [quiet (by simpa using emcy)]
      simp [Node.reports]
  | sync =>
      rw [quiet (by simpa using sync)]
      simp [Node.reports]
  | noSync => simp [Node.reports]
  | replied _ _ _ replies =>
      rw [quiet fun frame member => by
        rcases replies frame member with ⟨-, isLss⟩ | ⟨-, isResponse⟩
        · exact isLss ▸ lss
        · exact isResponse ▸ response]
      simp [Node.reports]
  | synced _ slots | demanded _ _ slots =>
      rw [quiet fun frame member => by
        rcases slots frame member with ⟨slot, configured, isSlot⟩
        exact isSlot ▸ noPdo slot configured]
      simp [Node.reports]
  | silent op silent =>
      cases op with
      | boot | heartbeat | nodeGuardResponse => exact silent.elim
      | _ => simp [Node.reports]

/-! ## The nodes of a network -/

structure Action {ι : Type} (capacity : ι → Nat) where
  index : ι
  op : NodeOp (capacity index)
  time : Instant

/-- The nodes of a network. -/
abbrev Plant {ι : Type} (capacity : ι → Nat) := ∀ index, Node (capacity index)

namespace Plant

variable {ι : Type} [DecidableEq ι] {capacity : ι → Nat}

def step (plant : Plant capacity) (action : Action capacity) :
    Exec (Plant capacity × List HeartbeatMonitor.Received) := do
  let (after, sent) ← action.op.step (plant action.index)
  pure (Function.update plant action.index after,
    sent.map fun frame => ⟨frame.1, frame.2, action.time⟩)

abbrev PlantEvent (capacity : ι → Nat) :=
  Trace.Event (Plant capacity) (Action capacity) (List HeartbeatMonitor.Received)

def actor (event : PlantEvent capacity) : Node (capacity event.input.index) :=
  event.before event.input.index

def report (id : NodeId) (event : PlantEvent capacity) : Option NodeHealth :=
  if (actor event).nodeId = id then
    ((actor event).reports event.input.op).map fun state => ⟨state, event.input.time⟩
  else none

def lastReport (id : NodeId) (events : List (PlantEvent capacity)) : Option NodeHealth :=
  (events.filterMap (report id)).getLast?

theorem step_transmits {plant after : Plant capacity} {action : Action capacity}
    {received : List HeartbeatMonitor.Received}
    (taken : plant.step action = pure (after, received)) :
    ∃ sent, Transmits (plant action.index) action.op sent ∧
      received = sent.map fun frame => ⟨frame.1, frame.2, action.time⟩ := by
  rw [step, Exec.bind_eq_pure_iff] at taken
  rcases taken with ⟨⟨node, sent⟩, stepped, ⟨⟩⟩
  exact ⟨sent, NodeOp.transmits stepped, rfl⟩

theorem run_returns (plant : Plant capacity) (valid : ∀ index, (plant index).sdo.Valid)
    (actions : List (Action capacity)) :
    ∃ events final, Trace.run step plant actions = pure (events, final) := by
  have returns : ∀ state : Plant capacity, ∀ action ∈ actions,
      (∀ index, (state index).sdo.Valid) → ∃ after received,
        step state action = pure (after, received) ∧ ∀ index, (after index).sdo.Valid := by
    intro state action _ valid
    rcases NodeOp.step_returns (valid action.index) action.op with
      ⟨after, sent, stepped, validAfter⟩
    refine ⟨Function.update state action.index after,
      sent.map fun frame => ⟨frame.1, frame.2, action.time⟩, ?_, fun index => ?_⟩
    · rw [step, stepped, pure_bind]
    · by_cases same : index = action.index
      · subst same
        rw [Function.update_self]
        exact validAfter
      · rw [Function.update_of_ne same]
        exact valid index
  rcases Trace.run_total (fun plant : Plant capacity => ∀ index, (plant index).sdo.Valid) actions
    valid returns with ⟨events, final, ran, -⟩
  exact ⟨events, final, ran⟩

/-- The last heartbeat of a node is what it reported last, unless a PDO has used the COB-ID of its
heartbeat. -/
theorem lastHeartbeat_eq {plant final : Plant capacity} {actions : List (Action capacity)}
    {events : List (PlantEvent capacity)}
    (ran : Trace.run step plant actions = pure (events, final)) (id : NodeId)
    (noPdo : ∀ event ∈ events, ∀ slot ∈ (actor event).tpdos.toList,
      slot.cobId ≠ heartbeatCobId id) :
    lastHeartbeat id (events.flatMap fun event => event.output) = lastReport id events := by
  have reported : ∀ event ∈ events,
      event.output.filterMap (heartbeatOf id) = (report id event).toList := by
    intro event member
    rcases List.append_of_mem member with ⟨past, future, split⟩
    rw [split] at ran
    rcases step_transmits (Trace.run_split ran).1 with ⟨sent, transmits, received⟩
    rw [received]
    exact transmits.heartbeats id (noPdo event member) event.input.time
  rw [lastHeartbeat, lastReport, List.filterMap_flatMap, List.flatMap_congr reported,
    List.filterMap_eq_flatMap_toList]

end Plant

/-- Whatever the nodes of a network do, in any order, a monitor that receives all they transmit
knows of every node what it reported last, by a boot-up, a heartbeat or the answer to a node guard
request: it takes a node for alive as long as this is not older than its timeout, and lists it as
timed out afterwards. The COB-ID of the heartbeat must not be that of a transmit PDO. -/
theorem monitor_follows_the_nodes {ι : Type} [DecidableEq ι] {capacity : ι → Nat}
    (ids : ι → NodeId) (ods : ∀ index, ObjectDictionary (capacity index))
    (actions : List (Action capacity)) (timeout : Nat) :
    ∃ events final,
      Trace.run Plant.step (fun index => Node.new (ids index) (ods index)) actions =
        pure (events, final) ∧
      ∀ id : NodeId, 1 ≤ id.raw →
        (∀ event ∈ events, ∀ slot ∈ (Plant.actor event).tpdos.toList,
          slot.cobId ≠ heartbeatCobId id) →
        let monitor := (HeartbeatMonitor.new timeout).feed
          (events.flatMap fun event => event.output)
        monitor.health id = Plant.lastReport id events ∧
        ∀ now : Instant,
          (monitor.isAlive id now = true ↔ ∃ health, Plant.lastReport id events = some health ∧
            (now - health.lastSeen).toNat ≤ timeout) ∧
          (id ∈ monitor.timedOut now ↔ ∃ health, Plant.lastReport id events = some health ∧
            timeout < (now - health.lastSeen).toNat) := by
  have valid : ∀ index, (Node.new (ids index) (ods index)).sdo.Valid :=
    fun index => Sdo.SdoServer.valid_new (ids index)
  rcases Plant.run_returns _ valid actions with ⟨events, final, ran⟩
  refine ⟨events, final, ran, fun id device noPdo => ?_⟩
  have last := Plant.lastHeartbeat_eq ran id noPdo
  have reflects := HeartbeatMonitor.reflects_feed timeout
    (events.flatMap fun event => event.output)
  intro monitor
  have heard : monitor.nodes.lookup id.raw = Plant.lastReport id events :=
    (reflects.heard id device).trans last
  refine ⟨heard, fun now => ⟨?_, ?_⟩⟩
  · rw [HeartbeatMonitor.isAlive, heard, reflects.sameTimeout]
    simp [Option.any_eq_true, Instant.saturatingDurationSince]
  · have silent := (HeartbeatMonitor.filterMap_nodes reflects fun health =>
      decide (monitor.timeout < now.saturatingDurationSince health.lastSeen)).2 id
    rw [last] at silent
    simp only [decide_eq_true_eq] at silent
    rw [HeartbeatMonitor.timedOut, silent, show monitor.timeout = timeout from
      reflects.sameTimeout]
    exact ⟨fun found => found.2, fun found => ⟨device, found⟩⟩

end CanOpen
