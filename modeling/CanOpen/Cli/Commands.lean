import CanOpen.Cli.Arguments
import CanOpen.Host.Transport
import CanOpen.Network.BringUp
import CanOpen.Node.Lifecycle

/-! # Commands on the bus

The subcommands that read, write and command nodes, on a socket that is already open.
-/

namespace CanOpen

open Sdo (SdoServer SdoEvent)

namespace Cli

variable {σ : Type} (carry : Bus σ)

inductive CommandError where
  | argument (message : Text)
  | transfer (context : String) (error : SdoError)
  | io (error : IoError)
  deriving DecidableEq, Repr

/-! ## The subcommands -/

def read (fuel : Nat) (socket : SocketCan σ) (node : UInt8) (object datatype : Text) :
    Exec (Option (Except CommandError Value × SocketCan σ)) :=
  let arguments : Except Text (NodeId × Address × DataType) := do
    return (← nodeId node, ← parseObject object, ← parseDatatype datatype)
  match arguments with
  | .error message => pure (some (.error (.argument message), socket))
  | .ok (node, addr, dataType) => do
      let ended ← socket.sdoRead carry fuel node addr dataType
      pure (ended.map fun (result, socket) =>
        (result.mapError (.transfer "SDO read failed"), socket))

def write (reals : RealLiterals) (fuel : Nat) (socket : SocketCan σ) (node : UInt8)
    (object datatype value : Text) :
    Exec (Option (Except CommandError Unit × SocketCan σ)) :=
  let arguments : Except Text (NodeId × Address × Value) := do
    let dataType ← parseDatatype datatype
    return (← nodeId node, ← parseObject object, ← parseValue reals dataType value)
  match arguments with
  | .error message => pure (some (.error (.argument message), socket))
  | .ok (node, addr, value) => do
      let ended ← socket.sdoWrite carry fuel node addr value
      pure (ended.map fun (result, socket) =>
        (result.mapError (.transfer "SDO write failed"), socket))

section

variable {carry} {fuel : Nat} {socket : SocketCan σ} {node : UInt8} {object datatype : Text}
  {id : NodeId} {addr : Address} {dataType : DataType}

theorem read_of_arguments (target : nodeId node = .ok id) (isObject : parseObject object = .ok addr)
    (isType : parseDatatype datatype = .ok dataType) :
    read carry fuel socket node object datatype = (do
      let ended ← socket.sdoRead carry fuel id addr dataType
      pure (ended.map fun (result, socket) =>
        (result.mapError (.transfer "SDO read failed"), socket))) := by
  rw [read, target, isObject, isType]
  rfl

theorem write_of_arguments {reals : RealLiterals} {text : Text} {value : Value}
    (target : nodeId node = .ok id) (isObject : parseObject object = .ok addr)
    (isType : parseDatatype datatype = .ok dataType)
    (isValue : parseValue reals dataType text = .ok value) :
    write carry reals fuel socket node object datatype text = (do
      let ended ← socket.sdoWrite carry fuel id addr value
      pure (ended.map fun (result, socket) =>
        (result.mapError (.transfer "SDO write failed"), socket))) := by
  simp only [write, target, isObject, isType, bind, Except.bind, isValue]
  rfl

end

def nmtArguments (command : Text) (node : UInt8) : Except Text (NmtCommand × NodeId) := do
  let target ← if node = 0 then pure .broadcast else nodeId node
  return (← parseNmtCommand command, target)

def nmt (socket : SocketCan σ) (command : Text) (node : UInt8) :
    Exec (Except CommandError (SocketCan σ)) :=
  match nmtArguments command node with
  | .error message => pure (.error (.argument message))
  | .ok (command, target) => do
      let sent ← socket.sendNmt carry command target
      pure (sent.mapError .io)

end Cli

/-! ## Reading back -/

section

variable {N : Nat} {origin node : Node N}

theorem Sdo.WriteOutcome.complete {od : ObjectDictionary N} {addr : Address} {value : Value}
    {requests : Nat} {final : Sdo.Exchange (Sdo.Host N)} {entry : Entry}
    (outcome : Sdo.WriteOutcome od addr value requests final)
    (present : od.entry addr = some entry) (access : entry.access = .rw)
    (sameType : value.dataType = entry.value.dataType) : final.event = .complete none := by
  have suits := Sdo.accepts_iff_suits.mp (sameType ▸ value.accepts_size)
  simp only [Sdo.WriteOutcome, present, access, AccessType.isWritable, suits, Bool.true_eq_false,
    Bool.false_eq_true, if_false] at outcome
  exact outcome.1

theorem Sdo.ReadOutcome.complete {od : ObjectDictionary N} {addr : Address} {event : SdoEvent}
    {entry : Entry} (outcome : Sdo.ReadOutcome od addr entry.value.dataType event)
    (present : od.entry addr = some entry) (access : entry.access = .rw) :
    event = .complete (some entry.value) := by
  simp only [Sdo.ReadOutcome, present, access, AccessType.isReadable, Bool.true_eq_false,
    if_false] at outcome
  rcases outcome with ⟨_, decoded, -, -, complete, -, same⟩
  exact complete _ (same trivial)

/-- A frame that is unrelated to a node is unrelated to one that serves under its identity. -/
theorem Unrelated.of_servesAs {frame : UInt16 × List UInt8} (serves : Node.ServesAs origin node)
    (unrelated : Unrelated origin frame) : Unrelated node frame := by
  refine ⟨?_, ?_⟩
  · rw [SdoServer.requestCobId, serves.server]
    exact unrelated.noRequest
  · rw [serves.nodeId]
    exact unrelated.keeps

theorem Surroundings.Apart.of_servesAs {around : Surroundings} (serves : Node.ServesAs origin node)
    (apart : around.Apart origin) : around.Apart node := by
  have sameId : node.sdo.responseCobId = origin.sdo.responseCobId := by
    rw [SdoServer.responseCobId, serves.server]
    rfl
  exact {
    frames := fun position frame member =>
      (apart.frames position frame member).of_servesAs serves
    noise := sameId.symm ▸ apart.noise
    stale := sameId.symm ▸ apart.stale }

/-- No receive PDO of the node that the frame is for maps the object. -/
def LeavesObject (node : Node N) (addr : Address) (frame : UInt16 × List UInt8) : Prop :=
  ∀ slot ∈ node.rpdos.toList, slot.cobId = frame.1 →
    ∀ entry ∈ slot.mapping.entries.toList, entry.address ≠ addr

theorem Node.receive_leavesObject {after : Node N} {addr : Address}
    {frame : UInt16 × List UInt8} {tx : Option TxFrame}
    (noRequest : frame.1 ≠ node.sdo.requestCobId) (leaves : LeavesObject node addr frame)
    (taken : node.receive frame = pure (after, tx)) :
    after.od.entry addr = node.od.entry addr := by
  cases onFrame_served taken with
  | ignored | lss | nmt => rfl
  | sdo _ _ _ request => exact absurd request noRequest
  | rpdo slot _ od _ _ _ member listens unpacks =>
      exact unpack_leaves unpacks (leaves slot member listens)

theorem Node.run_leavesObject {addr : Address} {frames : List (UInt16 × List UInt8)}
    (serves : ServesAs origin node)
    (unrelated : ∀ frame ∈ frames, Unrelated origin frame)
    (leaves : ∀ frame ∈ frames, LeavesObject node addr frame) :
    ∃ events after, Trace.run receive node frames = pure (events, after) ∧
      ServesAs origin after ∧ after.od.entry addr = node.od.entry addr := by
  rcases Trace.run_total (fun state : Node N => ServesAs origin state ∧
    state.rpdos = node.rpdos ∧ state.od.entry addr = node.od.entry addr) frames
    ⟨serves, rfl, rfl⟩ (by
      rintro state frame member ⟨servesState, sameSlots, sameEntry⟩
      rcases receive_unrelated servesState (unrelated frame member) with
        ⟨after, tx, taken, servesAfter, -, -⟩
      have noRequest : frame.1 ≠ state.sdo.requestCobId := by
        rw [SdoServer.requestCobId, servesState.server]
        exact (unrelated frame member).noRequest
      have leavesHere : LeavesObject state addr frame := by
        rw [LeavesObject, sameSlots]
        exact leaves frame member
      exact ⟨after, tx, taken, servesAfter, (onFrame_served taken).pdos.1.trans sameSlots,
        (receive_leavesObject noRequest leavesHere taken).trans sameEntry⟩) with
    ⟨events, after, ran, servesAfter, -, sameEntry⟩
  exact ⟨events, after, ran, servesAfter, sameEntry⟩

/-- A value that is written on the command line to an object of its type is what a read of the
object then shows, though the node receives other frames during the two transfers and between
them. Those between them may not be receive PDOs that map the object, and none may be an SDO request
to the node or take it out of service. -/
theorem written_value_is_read_back (origin : Node N) (serving : origin.Serving)
    (configured : origin.lssUnconfigured = false) (writing reading : Surroundings)
    (writingApart : writing.Apart origin) (readingApart : reading.Apart origin)
    (between : List (UInt16 × List UInt8))
    (unrelated : ∀ frame ∈ between, Unrelated origin frame)
    (reals : RealLiterals) (id : UInt8) (object datatype text : Text) (addr : Address)
    (value : Value) (entry : Entry) (leaves : ∀ frame ∈ between, LeavesObject origin addr frame)
    (target : Cli.nodeId id = .ok origin.sdo.node) (isObject : Cli.parseObject object = .ok addr)
    (isType : Cli.parseDatatype datatype = .ok entry.value.dataType)
    (isValue : Cli.parseValue reals entry.value.dataType text = .ok value)
    (present : origin.od.entry addr = some entry) (access : entry.access = .rw) :
    ∃ enough written events reached shown,
      Trace.run Node.receive written.bus.2 between = pure (events, reached) ∧
      ∀ fuel, enough < fuel →
        Cli.write (servedBus writing) reals fuel ⟨(0, origin), writing.stale⟩ id object datatype
          text = pure (some (.ok (), written)) ∧
        Cli.read (servedBus reading) fuel ⟨(0, reached), reading.stale⟩ id object datatype =
          pure (some (.ok value, shown)) := by
  have sameType := Cli.parseValue_dataType isValue
  rcases sdoWrite_ends serving configured writingApart addr value with
    ⟨firstTurns, alone, written, outcome, writes, serves, sameSlots, stored⟩
  have complete := outcome.complete present access sameType
  have after := stored complete entry present sameType.symm
  -- the write leaves the receive PDOs alone, so the frames behind it leave the object alone
  rcases Node.run_leavesObject serves unrelated (fun frame member => by
    rw [LeavesObject, sameSlots]
    exact leaves frame member) with ⟨events, reached, ran, servesReached, sameEntry⟩
  -- and the node still serves under its identity, so the read meets the same COB-IDs
  rcases sdoRead_ends servesReached.serving servesReached.configured
      (readingApart.of_servesAs servesReached) addr value.dataType with
    ⟨secondTurns, event, shown, shows, reads⟩
  have read : event = .complete (some value) := shows.complete (sameEntry.trans after) access
  refine ⟨max firstTurns secondTurns, written, events, reached, shown, ran,
    fun fuel enough => ⟨?_, ?_⟩⟩
  · rw [Cli.write_of_arguments target isObject isType isValue,
      writes fuel (lt_of_le_of_lt (le_max_left _ _) enough), complete]
    rfl
  · have got := reads fuel (lt_of_le_of_lt (le_max_right _ _) enough)
    rw [read, servesReached.server, sameType] at got
    rw [Cli.read_of_arguments target isObject isType, got]
    rfl

/-- A value of eight bytes is written in segments, between which a receive PDO overwrites the
object. Behind the write another receive PDO overwrites another object. -/
theorem written_value_is_read_back_segmented :
    let addr : Address := ⟨0x2000, 0⟩
    let entry : Entry := ⟨.unsigned64 7, .rw⟩
    let od : ObjectDictionary 2 :=
      ⟨[(addr, entry), (⟨0x2001, 0⟩, ⟨.unsigned8 1, .rw⟩)], by decide, by decide⟩
    let mapping : PdoMapping maxPdoMapping := ⟨⟨[⟨addr, 64⟩], by decide⟩, by decide⟩
    let other : PdoMapping maxPdoMapping := ⟨⟨[⟨⟨0x2001, 0⟩, 8⟩], by decide⟩, by decide⟩
    let origin : Node 2 := { Node.new ⟨5, by decide⟩ od with
      nmt := ⟨.operational⟩, rpdos := ⟨[⟨0x205, mapping⟩, ⟨0x305, other⟩], by decide⟩ }
    let around : Surroundings := {
      frames := fun _ => [(0x205, [1, 2, 3, 4, 5, 6, 7, 8])]
      noise := fun _ => ([⟨.data, .extended 0x585, [1]⟩], [⟨.data, .standard 0x705, [5]⟩])
      stale := [⟨.remote, .standard 0x585, []⟩] }
    ∃ enough written events reached shown,
      Trace.run Node.receive written.bus.2 [(0x305, [9])] = pure (events, reached) ∧
      ∀ fuel, enough < fuel →
        Cli.write (servedBus around) ⟨fun _ => none, fun _ => none⟩ fuel
          ⟨(0, origin), around.stale⟩ 5 "2000".toList "U64".toList " 0x1F4 ".toList =
            pure (some (.ok (), written)) ∧
        Cli.read (servedBus around) fuel ⟨(0, reached), around.stale⟩ 5 "2000".toList
          "U64".toList = pure (some (.ok (.unsigned64 0x1F4), shown)) := by
  intro addr entry od mapping other origin around
  have apart : around.Apart origin := by
    refine ⟨?_, ?_, ?_⟩
    · intro position frame member
      rw [List.mem_singleton.mp member]
      exact ⟨by decide, fun isNmt => absurd isNmt (by decide)⟩
    · intro position
      refine ⟨fun frame member => ?_, fun frame member => ?_⟩
      · rw [List.mem_singleton.mp member]
        exact fun _ => by decide
      · rw [List.mem_singleton.mp member]
        exact fun _ => by decide
    · intro frame member
      rw [List.mem_singleton.mp member]
      exact fun isData => absurd isData (by decide)
  refine written_value_is_read_back origin (.inr rfl) rfl around around apart apart
    [(0x305, [9])] ?_ _ _ _ _ _ addr (.unsigned64 0x1F4) entry ?_ rfl rfl rfl (by decide) rfl rfl
  · intro frame member
    rw [List.mem_singleton.mp member]
    exact ⟨by decide, fun isNmt => absurd isNmt (by decide)⟩
  · intro frame member
    rw [List.mem_singleton.mp member]
    intro slot isSlot listens
    rcases List.mem_cons.mp isSlot with rfl | isSlot
    · exact absurd listens (by decide)
    · rw [List.mem_singleton.mp isSlot]
      decide

end

/-! ## Commands to the nodes of a network -/

/-- A bus of devices that all hear a frame. What they answer arrives in their order. -/
def devicesBus : Bus (List Device) := fun devices frame =>
  match frame.cobId with
  | none => pure (devices, [])
  | some cobId => do
      let handled ← tellAll cobId frame.data devices
      let replies ← (handled.filterMap Prod.snd).mapM fun reply => do
        let data ← reply.payload
        pure (⟨.data, .standard reply.cobId, data⟩ : CanFrame)
      pure (handled.map Prod.fst, replies)

/-- One command line to the devices of a network, with the error that it reports. -/
def Cli.nmtTurn (devices : List Device) (line : Text × UInt8) :
    Exec (List Device × Option Cli.CommandError) := do
  match ← Cli.nmt devicesBus ⟨devices, []⟩ line.1 line.2 with
  | .error error => pure (devices, some error)
  | .ok socket => pure (socket.bus, none)

namespace NmtCommand

/-- The state that commands lead to from a state: a reset ends in the initialisation, from which no
command leads away, and otherwise the last command decides. -/
def lead (state : NmtState) (commands : List NmtCommand) : NmtState :=
  if state = .initialising ∨
      ∃ command ∈ commands, (LifecycleSignal.command command).isReset = true then .initialising
  else
    match commands.getLast? with
    | none => state
    | some command => ((LifecycleSignal.command command).target).getD state

section

variable {state : NmtState} {commands : List NmtCommand}

theorem lead_of_held (held : state = .initialising ∨
    ∃ command ∈ commands, (LifecycleSignal.command command).isReset = true) :
    lead state commands = .initialising := if_pos held

theorem lead_of_free (booted : state ≠ .initialising)
    (noReset : ∀ command ∈ commands, (LifecycleSignal.command command).isReset = false) :
    lead state commands ≠ .initialising := by
  have free : ¬ (state = .initialising ∨
      ∃ command ∈ commands, (LifecycleSignal.command command).isReset = true) := by
    rintro (initialising | ⟨command, member, resets⟩)
    · exact booted initialising
    · rw [noReset command member] at resets
      cases resets
  rw [lead, if_neg free]
  cases last : commands.getLast? with
  | none => exact booted
  | some command =>
      have stays := noReset command (List.mem_of_getLast? last)
      cases command with
      | resetNode | resetCommunication => cases stays
      | startRemoteNode | stopRemoteNode | enterPreOperational => exact NmtState.noConfusion

theorem apply_lead (state : NmtState) (commands : List NmtCommand) (command : NmtCommand) :
    (NmtStateMachine.apply ⟨lead state commands⟩ command).state =
      lead state (commands ++ [command]) := by
  by_cases held : state = .initialising ∨
      ∃ command ∈ commands, (LifecycleSignal.command command).isReset = true
  · have still : state = .initialising ∨ ∃ earlier ∈ commands ++ [command],
        (LifecycleSignal.command earlier).isReset = true := by
      refine held.imp_right ?_
      rintro ⟨earlier, member, resets⟩
      exact ⟨earlier, List.mem_append_left _ member, resets⟩
    rw [lead_of_held held, lead_of_held still]
    cases command <;> rfl
  · push Not at held
    have noReset : ∀ earlier ∈ commands, (LifecycleSignal.command earlier).isReset = false :=
      fun earlier member => Bool.eq_false_iff.mpr (held.2 earlier member)
    cases resets : (LifecycleSignal.command command).isReset with
    | true =>
        rw [lead_of_held (.inr ⟨command, List.mem_append_right _ (List.mem_singleton_self _),
          resets⟩)]
        cases command <;> first | rfl | cases resets
    | false =>
        have free : ¬ (state = .initialising ∨ ∃ earlier ∈ commands ++ [command],
            (LifecycleSignal.command earlier).isReset = true) := by
          rintro (initialising | ⟨earlier, member, isReset⟩)
          · exact held.1 initialising
          · rcases List.mem_append.mp member with before | last
            · exact held.2 earlier before isReset
            · rw [List.mem_singleton.mp last, resets] at isReset
              cases isReset
        rw [lead.eq_1 state (commands ++ [command]), if_neg free, List.getLast?_concat]
        have apart := lead_of_free held.1 noReset
        cases atState : lead state commands with
        | initialising => exact absurd atState apart
        | stopped | operational | preOperational => cases command <;> first | rfl | cases resets

end

end NmtCommand

def Device.inState (device : Device) (state : NmtState) : Device :=
  ⟨device.capacity, { device.node with nmt := ⟨state⟩ }⟩

def Device.obey (device : Device) (order : NmtCommand × NodeId) : Device :=
  if device.node.lssUnconfigured = false ∧
      (order.2 = .broadcast ∨ order.2 = device.node.nodeId) then
    device.inState (device.node.nmt.apply order.1).state
  else device

section

variable {device : Device} {command : NmtCommand} {target : NodeId}

theorem Device.inState_obey (configured : device.node.lssUnconfigured = false)
    (addressed : target = .broadcast ∨ target = device.node.nodeId) (state : NmtState) :
    (device.inState state).obey (command, target) =
      device.inState (NmtStateMachine.apply ⟨state⟩ command).state :=
  if_pos ⟨configured, addressed⟩

theorem Device.inState_obey_other
    (other : ¬ (target = .broadcast ∨ target = device.node.nodeId)) (state : NmtState) :
    (device.inState state).obey (command, target) = device.inState state :=
  if_neg fun both => other both.2

end

theorem Device.hear_command (device : Device) (command : NmtCommand) (target : NodeId) :
    device.hear nmtCommandCobId (encodeCommand command target).toList =
      pure (device.obey (command, target), none) := by
  have commanded : device.node.onNmt (encodeCommand command target).toList =
      pure (if target = .broadcast ∨ target = device.node.nodeId then
        { device.node with nmt := device.node.nmt.apply command } else device.node) := by
    have decoded := decodeCommand_encodeCommand command target
    simpa using device.node.onNmt_of_decodes decoded []
  cases configured : device.node.lssUnconfigured with
  | true =>
      have deaf : device.obey (command, target) = device := by
        rw [obey, configured]
        exact if_neg fun both => Bool.noConfusion both.1
      have notLss : nmtCommandCobId ≠ Lss.lssMasterCobId := by decide
      rw [hear, Node.onFrame, if_neg notLss, configured, deaf]
      rfl
  | false =>
      rw [hear, Node.onFrame_nmtCommand configured, commanded, pure_bind, pure_bind]
      by_cases addressed : target = .broadcast ∨ target = device.node.nodeId
      · rw [if_pos addressed]
        exact congrArg (fun after => pure (after, none))
          (inState_obey configured addressed device.node.state).symm
      · rw [if_neg addressed]
        exact congrArg (fun after => pure (after, none))
          (inState_obey_other addressed device.node.state).symm

theorem tellAll_command (devices : List Device) (command : NmtCommand) (target : NodeId) :
    tellAll nmtCommandCobId (encodeCommand command target).toList devices =
      pure (devices.map fun device => (device.obey (command, target), none)) :=
  Exec.mapM_eq_pure fun device _ => device.hear_command command target

theorem Cli.nmtTurn_eq (devices : List Device) (line : Text × UInt8) :
    Cli.nmtTurn devices line = pure (match Cli.nmtArguments line.1 line.2 with
      | .error message => (devices, some (.argument message))
      | .ok order => (devices.map fun device => device.obey order, none)) := by
  unfold nmtTurn nmt
  cases arguments : nmtArguments line.1 line.2 with
  | error message => rfl
  | ok order =>
      rcases order with ⟨command, target⟩
      have sent : SocketCan.sendNmt devicesBus ⟨devices, []⟩ command target =
          pure (.ok ⟨devices.map fun device => device.obey (command, target), []⟩) := by
        have frame : CanFrame.frameFrom nmtCommandCobId (encodeCommand command target).toList =
            some ⟨.data, .standard nmtCommandCobId, (encodeCommand command target).toList⟩ := rfl
        have quiet : (devices.map fun device =>
            (device.obey (command, target), (none : Option TxFrame))).filterMap Prod.snd = [] := by
          rw [List.filterMap_map, List.filterMap_eq_nil_iff]
          exact fun _ _ => rfl
        rw [SocketCan.sendNmt, SocketCan.send, frame]
        simp only [devicesBus, CanFrame.cobId, tellAll_command, pure_bind, quiet, List.mapM_nil,
          List.map_map, List.append_nil]
        rfl
      simp only [sent, pure_bind]
      rfl

def Cli.ordersFor (id : NodeId) (lines : List (Text × UInt8)) : List NmtCommand :=
  lines.filterMap fun line =>
    match Cli.nmtArguments line.1 line.2 with
    | .error _ => none
    | .ok (command, target) => if target = .broadcast ∨ target = id then some command else none

def Device.led (device : Device) (lines : List (Text × UInt8)) : Device :=
  if device.node.lssUnconfigured = true then device
  else device.inState
    (NmtCommand.lead device.node.state (Cli.ordersFor device.node.nodeId lines))

theorem Device.led_concat (device : Device) (lines : List (Text × UInt8)) (line : Text × UInt8) :
    device.led (lines ++ [line]) = match Cli.nmtArguments line.1 line.2 with
      | .error _ => device.led lines
      | .ok order => (device.led lines).obey order := by
  unfold led
  by_cases unconfigured : device.node.lssUnconfigured = true
  · simp only [if_pos unconfigured]
    cases Cli.nmtArguments line.1 line.2 with
    | error message => rfl
    | ok order => exact (if_neg (by simp [unconfigured])).symm
  · simp only [if_neg unconfigured]
    cases arguments : Cli.nmtArguments line.1 line.2 with
    | error message =>
        have ignored : Cli.ordersFor device.node.nodeId [line] = [] := by
          simp [Cli.ordersFor, arguments]
        rw [Cli.ordersFor, List.filterMap_append, ← Cli.ordersFor, ← Cli.ordersFor, ignored,
          List.append_nil]
    | ok order =>
        rcases order with ⟨command, target⟩
        have configured : device.node.lssUnconfigured = false :=
          Bool.eq_false_iff.mpr unconfigured
        rw [Cli.ordersFor, List.filterMap_append, ← Cli.ordersFor, ← Cli.ordersFor]
        by_cases addressed : target = .broadcast ∨ target = device.node.nodeId
        · have taken : Cli.ordersFor device.node.nodeId [line] = [command] := by
            simp [Cli.ordersFor, arguments, addressed]
          rw [taken, ← NmtCommand.apply_lead]
          exact (inState_obey configured addressed _).symm
        · have ignored : Cli.ordersFor device.node.nodeId [line] = [] := by
            simp [Cli.ordersFor, arguments, addressed]
          rw [ignored, List.append_nil]
          exact (inState_obey_other addressed _).symm

theorem Device.led_nil (device : Device) : device.led [] = device := by
  unfold led
  split
  · rfl
  · have same : NmtCommand.lead device.node.state [] = device.node.state := by
      rw [NmtCommand.lead]
      split
      · next held => exact (show device.node.state = .initialising by simpa using held).symm
      · rfl
    rw [Cli.ordersFor, List.filterMap_nil, same]
    rfl

theorem Cli.nmtArguments_ok_iff (command : Text) (node : UInt8) :
    (∃ order, Cli.nmtArguments command node = .ok order) ↔
      (∃ named, Cli.parseNmtCommand command = .ok named) ∧ node ≤ 127 := by
  unfold nmtArguments
  by_cases all : node = 0
  · subst all
    cases Cli.parseNmtCommand command with
    | error message => simp [bind, Except.bind, pure, Except.pure]
    | ok named => simp [bind, Except.bind, pure, Except.pure]
  · have positive : 1 ≤ node := by
      rw [UInt8.le_iff_toNat_le]
      have nonzero : node.toNat ≠ 0 := fun zero => all (UInt8.toNat_inj.mp zero)
      exact Nat.one_le_iff_ne_zero.mpr nonzero
    rw [if_neg all, nodeId, NodeId.new]
    by_cases small : node ≤ 127
    · rw [dif_pos ⟨positive, small⟩]
      cases Cli.parseNmtCommand command with
      | error message => simp [bind, Except.bind]
      | ok named => simp [bind, Except.bind, pure, Except.pure, small]
    · rw [dif_neg fun both => small both.2]
      simp [bind, Except.bind, small]

/-- Whatever lines are given on the command line one after the other, each device of the network
that has a node-id is led by the accepted commands for it or for all nodes, and everything else
remains as it is. A line is accepted if it names a command and a node from 0 to 127. -/
theorem nmt_lines_lead_the_nodes (devices : List Device) (lines : List (Text × UInt8)) :
    ∃ events final, Trace.run Cli.nmtTurn devices lines = pure (events, final) ∧
      final = devices.map (fun device => device.led lines) ∧
      ∀ event ∈ events, (event.output = none ↔
        (∃ command, Cli.parseNmtCommand event.input.1 = .ok command) ∧
          event.input.2 ≤ 127) := by
  have returns : ∃ events final,
      Trace.run Cli.nmtTurn devices lines = pure (events, final) ∧ True :=
    Trace.run_total (fun _ => True) lines trivial fun devices line _ _ =>
      ⟨_, _, Cli.nmtTurn_eq devices line, trivial⟩
  rcases returns with ⟨events, final, ran, -⟩
  have history := Trace.run_history
    (fun past state => state = devices.map fun device => device.led (past.map Trace.Event.input))
    (fun _ event => event.output = none ↔
      (∃ command, Cli.parseNmtCommand event.input.1 = .ok command) ∧ event.input.2 ≤ 127)
    (by simp [Device.led_nil]) (fun past state line after output led taken => by
      rw [Cli.nmtTurn_eq, Exec.pure_inj] at taken
      have accepted := Cli.nmtArguments_ok_iff line.1 line.2
      rw [List.map_append, List.map_singleton]
      simp only [Device.led_concat]
      cases arguments : Cli.nmtArguments line.1 line.2 with
      | error message =>
          rw [arguments] at taken accepted
          cases taken
          exact ⟨led, by simpa using accepted⟩
      | ok order =>
          rw [arguments] at taken accepted
          cases taken
          refine ⟨by rw [led, List.map_map]; rfl, by simpa using accepted⟩) ran
  refine ⟨events, final, ran, ?_, fun event member => ?_⟩
  · rw [history.1, Trace.run_inputs ran]
  · rcases List.append_of_mem member with ⟨past, future, split⟩
    exact history.2 past event future split

end CanOpen
