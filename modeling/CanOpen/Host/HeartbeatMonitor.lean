import CanOpen.Foundation.SortedMap
import CanOpen.Nmt

/-! # The heartbeat monitor

A master that knows of each node the state that it last reported, and which nodes have been
silent for too long.
-/

namespace CanOpen

abbrev Instant := Int

def Instant.saturatingDurationSince (now earlier : Instant) : Nat := (now - earlier).toNat

structure NodeHealth where
  state : NmtState
  lastSeen : Instant

structure HeartbeatMonitor where
  nodes : SortedMap UInt8 NodeHealth
  timeout : Nat

namespace HeartbeatMonitor

def new (timeout : Nat) : HeartbeatMonitor := ⟨.empty, timeout⟩

def checkedSub (left right : UInt16) : Option UInt16 :=
  if right ≤ left then some (left - right) else none

def tryByte (number : UInt16) : Option UInt8 :=
  if number ≤ 0xFF then some number.toUInt8 else none

def readHeartbeat (cobId : UInt16) (data : List UInt8) : Option (NodeId × NmtState) := do
  let raw ← checkedSub cobId heartbeatCobBase
  let byte ← tryByte raw
  let node ← (NodeId.new byte).toOption
  let first ← data.head?
  let state ← (decodeHeartbeat (Vector.singleton first)).toOption
  some (node, state)

def onFrame (monitor : HeartbeatMonitor) (cobId : UInt16) (data : List UInt8) (now : Instant) :
    HeartbeatMonitor × Option (NodeId × NmtState) :=
  match readHeartbeat cobId data with
  | none => (monitor, none)
  | some (node, state) =>
      ({ monitor with nodes := monitor.nodes.insert node.raw ⟨state, now⟩ }, some (node, state))

def health (monitor : HeartbeatMonitor) (node : NodeId) : Option NodeHealth :=
  monitor.nodes.lookup node.raw

def state (monitor : HeartbeatMonitor) (node : NodeId) : Option NmtState :=
  (monitor.nodes.lookup node.raw).map NodeHealth.state

def isAlive (monitor : HeartbeatMonitor) (node : NodeId) (now : Instant) : Bool :=
  (monitor.nodes.lookup node.raw).any fun health =>
    now.saturatingDurationSince health.lastSeen ≤ monitor.timeout

def timedOut (monitor : HeartbeatMonitor) (now : Instant) : List NodeId :=
  monitor.nodes.entries.filterMap fun entry =>
    if monitor.timeout < now.saturatingDurationSince entry.2.lastSeen then
      (NodeId.new entry.1).toOption
    else none

def iterNodes (monitor : HeartbeatMonitor) : List (NodeId × NodeHealth) :=
  monitor.nodes.entries.filterMap fun entry =>
    (NodeId.new entry.1).toOption.map fun node => (node, entry.2)

/-! ## The last heartbeat -/

structure Received where
  cobId : UInt16
  data : List UInt8
  time : Instant

def feed (monitor : HeartbeatMonitor) (frames : List Received) : HeartbeatMonitor :=
  frames.foldl (fun monitor frame => (monitor.onFrame frame.cobId frame.data frame.time).1) monitor

/-- What a frame says of a node, if it is a heartbeat of it: one with a state below the toggle
bit of its first byte. -/
def heartbeatOf (node : NodeId) (frame : Received) : Option NodeHealth :=
  if frame.cobId = 0x700 + node.raw.toUInt16 then do
    let first ← frame.data.head?
    let state ← [NmtState.initialising, .stopped, .operational, .preOperational].find? fun state =>
      first &&& 0x7F = state.toByte
    some ⟨state, frame.time⟩
  else none

def lastHeartbeat (node : NodeId) (frames : List Received) : Option NodeHealth :=
  (frames.filterMap (heartbeatOf node)).getLast?

theorem lastHeartbeat_append (node : NodeId) (frames : List Received) (frame : Received) :
    lastHeartbeat node (frames ++ [frame]) =
      (heartbeatOf node frame).or (lastHeartbeat node frames) := by
  rw [lastHeartbeat, List.filterMap_append]
  cases reported : heartbeatOf node frame with
  | none => simp [List.filterMap_cons_none reported, lastHeartbeat]
  | some health => simp [List.filterMap_cons_some reported]

/-! ## What a frame reports -/

theorem newNodeId_eq_some_iff {raw : UInt8} {node : NodeId} :
    (NodeId.new raw).toOption = some node ↔ raw = node.raw ∧ 1 ≤ node.raw := by
  rw [← NodeId.new_eq_ok_iff]
  cases NodeId.new raw <;> simp [Except.toOption]

theorem decodeHeartbeat_eq_some_iff {first : UInt8} {state : NmtState} :
    (decodeHeartbeat (Vector.singleton first)).toOption = some state ↔
      first &&& 0x7F = state.toByte := by
  rw [← NmtState.fromWire_eq_ok_iff]
  show (NmtState.fromWire first).toOption = some state ↔ _
  cases NmtState.fromWire first <;> simp [Except.toOption]

theorem heartbeatCobId_iff {cobId : UInt16} {node : NodeId} :
    (heartbeatCobBase ≤ cobId ∧ cobId - heartbeatCobBase ≤ 0xFF ∧
      (cobId - heartbeatCobBase).toUInt8 = node.raw) ↔ cobId = 0x700 + node.raw.toUInt16 := by
  have bound := UInt8.le_iff_toNat_le.mp node.raw_le
  simp only [heartbeatCobBase, UInt16.le_iff_toNat_le, ← UInt8.toNat_inj, ← UInt16.toNat_inj,
    UInt16.toNat_toUInt8, UInt16.toNat_sub, UInt16.toNat_add, UInt8.toNat_toUInt16,
    UInt16.reduceToNat, UInt8.reduceToNat] at bound ⊢
  have small := cobId.toNat_lt
  omega

theorem findState_eq_some_iff {byte : UInt8} {state : NmtState} :
    ([NmtState.initialising, .stopped, .operational, .preOperational].find? fun state =>
      byte = state.toByte) = some state ↔ byte = state.toByte := by
  constructor
  · intro found
    simpa using List.find?_some found
  · rintro rfl
    cases state <;> rfl

theorem readHeartbeat_eq_some_iff {frame : Received} {node : NodeId} {state : NmtState} :
    readHeartbeat frame.cobId frame.data = some (node, state) ↔
      1 ≤ node.raw ∧ heartbeatOf node frame = some ⟨state, frame.time⟩ := by
  have ofNode : heartbeatOf node frame = some ⟨state, frame.time⟩ ↔
      frame.cobId = 0x700 + node.raw.toUInt16 ∧
        ∃ first, frame.data.head? = some first ∧ first &&& 0x7F = state.toByte := by
    unfold heartbeatOf
    split
    · next own =>
        simp only [Option.bind_eq_bind, Option.bind_eq_some_iff, findState_eq_some_iff,
          Option.some.injEq, NodeHealth.mk.injEq, and_true, exists_eq_right, own, true_and]
    · next other => simp [other]
  rw [ofNode, ← heartbeatCobId_iff]
  simp only [readHeartbeat, checkedSub, tryByte, Option.bind_eq_bind, Option.bind_eq_some_iff,
    Option.ite_none_right_eq_some, Option.some.injEq, Prod.mk.injEq]
  constructor
  · rintro ⟨raw, ⟨above, rfl⟩, byte, ⟨below, rfl⟩, found, isNode, first, isFirst, decoded, decodes,
      rfl, rfl⟩
    rcases newNodeId_eq_some_iff.mp isNode with ⟨same, positive⟩
    exact ⟨positive, ⟨above, below, same⟩, first, isFirst,
      decodeHeartbeat_eq_some_iff.mp decodes⟩
  · rintro ⟨positive, ⟨above, below, same⟩, first, isFirst, carried⟩
    exact ⟨_, ⟨above, rfl⟩, _, ⟨below, rfl⟩, node, newNodeId_eq_some_iff.mpr ⟨same, positive⟩,
      first, isFirst, state, decodeHeartbeat_eq_some_iff.mpr carried, rfl, rfl⟩

theorem heartbeatOf_of_unread {frame : Received} {node : NodeId} (device : 1 ≤ node.raw)
    (unread : readHeartbeat frame.cobId frame.data = none) : heartbeatOf node frame = none := by
  cases reported : heartbeatOf node frame with
  | none => rfl
  | some health =>
      have sameTime : health = ⟨health.state, frame.time⟩ := by
        unfold heartbeatOf at reported
        split at reported
        · simp only [Option.bind_eq_bind, Option.bind_eq_some_iff, Option.some.injEq] at reported
          rcases reported with ⟨_, _, _, _, rfl⟩
          rfl
        · cases reported
      rw [sameTime] at reported
      rw [readHeartbeat_eq_some_iff.mpr ⟨device, reported⟩] at unread
      cases unread

theorem eq_of_heartbeatOf {frame : Received} {node other : NodeId} {health also : NodeHealth}
    (reported : heartbeatOf node frame = some health)
    (alsoReported : heartbeatOf other frame = some also) : other.raw = node.raw := by
  unfold heartbeatOf at reported alsoReported
  split at reported
  · next own =>
      split at alsoReported
      · next shared_ =>
          rw [← heartbeatCobId_iff] at own shared_
          exact shared_.2.2.symm.trans own.2.2
      · cases alsoReported
  · cases reported

/-! ## What the monitor knows -/

structure Reflects (timeout : Nat) (frames : List Received) (monitor : HeartbeatMonitor) :
    Prop where
  sameTimeout : monitor.timeout = timeout
  heard : ∀ node : NodeId, 1 ≤ node.raw →
    monitor.nodes.lookup node.raw = lastHeartbeat node frames
  devices : ∀ key health, monitor.nodes.lookup key = some health → 1 ≤ key ∧ key ≤ 127

theorem Reflects.onFrame {timeout : Nat} {frames : List Received} {monitor : HeartbeatMonitor}
    (reflects : Reflects timeout frames monitor) (frame : Received) :
    Reflects timeout (frames ++ [frame])
      (monitor.onFrame frame.cobId frame.data frame.time).1 := by
  unfold HeartbeatMonitor.onFrame
  cases reads : readHeartbeat frame.cobId frame.data with
  | none =>
      refine ⟨reflects.sameTimeout, fun node device => ?_, reflects.devices⟩
      rw [lastHeartbeat_append, heartbeatOf_of_unread device reads, Option.none_or]
      exact reflects.heard node device
  | some report =>
      rcases report with ⟨reporter, state⟩
      rcases readHeartbeat_eq_some_iff.mp reads with ⟨device, reported⟩
      refine ⟨reflects.sameTimeout, fun node other => ?_, fun key health found => ?_⟩
      · rw [lastHeartbeat_append, SortedMap.lookup_insert]
        split
        · next same =>
            have sameNode : node = reporter := by
              rcases node with ⟨raw, bound⟩
              rcases reporter with ⟨raw', bound'⟩
              cases same
              rfl
            rw [sameNode, reported, Option.some_or]
        · next different =>
            have quiet : heartbeatOf node frame = none := by
              cases also : heartbeatOf node frame with
              | none => rfl
              | some health => exact absurd (eq_of_heartbeatOf reported also) different
            rw [quiet, Option.none_or]
            exact reflects.heard node other
      · rw [SortedMap.lookup_insert] at found
        split at found
        · next same => exact same ▸ ⟨device, reporter.raw_le⟩
        · exact reflects.devices key health found

theorem reflects_feed (timeout : Nat) (frames : List Received) :
    Reflects timeout frames ((new timeout).feed frames) := by
  suffices general : ∀ past monitor, Reflects timeout past monitor →
      Reflects timeout (past ++ frames) (monitor.feed frames) from
    general [] _ ⟨rfl, fun _ _ => rfl, fun _ _ found => by cases found⟩
  induction frames with
  | nil =>
      intro past monitor reflects
      rwa [List.append_nil]
  | cons frame frames induction =>
      intro past monitor reflects
      rw [List.append_cons]
      exact induction (past ++ [frame]) _ (reflects.onFrame frame)

/-- What is listed of the devices of a monitor by a test of their health, in order. -/
theorem filterMap_nodes {timeout : Nat} {frames : List Received} {monitor : HeartbeatMonitor}
    (reflects : Reflects timeout frames monitor) (test : NodeHealth → Bool) :
    let listed := monitor.nodes.entries.filterMap fun entry =>
      if test entry.2 then (NodeId.new entry.1).toOption else none
    listed.Pairwise (fun left right => left.raw < right.raw) ∧
      ∀ node, node ∈ listed ↔
        1 ≤ node.raw ∧ ∃ health, lastHeartbeat node frames = some health ∧ test health = true := by
  constructor
  · rw [List.pairwise_filterMap]
    refine monitor.nodes.sorted.imp fun {left right} before => ?_
    intro node isLeft other isRight
    rw [Option.ite_none_right_eq_some, newNodeId_eq_some_iff] at isLeft isRight
    exact isLeft.2.1 ▸ isRight.2.1 ▸ before
  · intro node
    simp only [List.mem_filterMap, Option.ite_none_right_eq_some, newNodeId_eq_some_iff]
    constructor
    · rintro ⟨⟨key, health⟩, member, passes, rfl, device⟩
      rw [SortedMap.mem_entries_iff, reflects.heard node device] at member
      exact ⟨device, health, member, passes⟩
    · rintro ⟨device, health, last, passes⟩
      rw [← reflects.heard node device, ← SortedMap.mem_entries_iff] at last
      exact ⟨_, last, passes, rfl, device⟩

/-- After any frames the monitor knows the last heartbeat of every device. At any time it lists
the devices whose last heartbeat is older than the timeout, in order, and takes for alive those
whose last heartbeat is not. -/
theorem monitor_reflects_last_heartbeats (timeout : Nat) (frames : List Received) :
    (∀ node : NodeId, 1 ≤ node.raw →
      ((new timeout).feed frames).health node = lastHeartbeat node frames ∧
      ((new timeout).feed frames).state node =
        (lastHeartbeat node frames).map NodeHealth.state) ∧
    (∀ node health, (node, health) ∈ ((new timeout).feed frames).iterNodes ↔
      1 ≤ node.raw ∧ lastHeartbeat node frames = some health) ∧
    ∀ now : Instant,
      (((new timeout).feed frames).timedOut now).Pairwise
        (fun left right => left.raw < right.raw) ∧
      (∀ node, node ∈ ((new timeout).feed frames).timedOut now ↔
        1 ≤ node.raw ∧ ∃ health, lastHeartbeat node frames = some health ∧
          timeout < (now - health.lastSeen).toNat) ∧
      ∀ node, ((new timeout).feed frames).isAlive node now = true ↔
        1 ≤ node.raw ∧ ∃ health, lastHeartbeat node frames = some health ∧
          (now - health.lastSeen).toNat ≤ timeout := by
  have reflects := reflects_feed timeout frames
  generalize (new timeout).feed frames = monitor at reflects
  refine ⟨fun node device => ?_, fun node health => ?_, fun now => ?_⟩
  · rw [health, state, reflects.heard node device]
    exact ⟨rfl, rfl⟩
  · simp only [iterNodes, List.mem_filterMap, Option.map_eq_some_iff, Prod.mk.injEq,
      newNodeId_eq_some_iff]
    constructor
    · rintro ⟨⟨key, found⟩, member, reporter, ⟨rfl, device⟩, rfl, rfl⟩
      rw [SortedMap.mem_entries_iff, reflects.heard reporter device] at member
      exact ⟨device, member⟩
    · rintro ⟨device, last⟩
      rw [← reflects.heard node device, ← SortedMap.mem_entries_iff] at last
      exact ⟨_, last, node, ⟨rfl, device⟩, rfl, rfl⟩
  · have silent := filterMap_nodes reflects fun health =>
      decide (monitor.timeout < now.saturatingDurationSince health.lastSeen)
    simp only [decide_eq_true_eq, reflects.sameTimeout] at silent
    rw [timedOut, reflects.sameTimeout]
    refine ⟨silent.1, silent.2, fun node => ?_⟩
    simp only [isAlive, reflects.sameTimeout, Option.any_eq_true, decide_eq_true_eq]
    constructor
    · rintro ⟨health, found, recent⟩
      have device := (reflects.devices node.raw health found).1
      rw [reflects.heard node device] at found
      exact ⟨device, health, found, recent⟩
    · rintro ⟨device, health, last, recent⟩
      exact ⟨health, (reflects.heard node device).trans last, recent⟩

end HeartbeatMonitor

end CanOpen
