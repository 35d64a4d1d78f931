import CanOpen.Types

/-! # Network management -/

namespace CanOpen

def nmtCommandCobId : UInt16 := 0x000
def heartbeatCobBase : UInt16 := 0x700

def heartbeatCobId (node : NodeId) : UInt16 := heartbeatCobBase + node.raw.toUInt16

inductive NmtState where
  | initialising
  | stopped
  | operational
  | preOperational
  deriving DecidableEq, Repr

namespace NmtState

def toByte : NmtState → UInt8
  | initialising => 0x00
  | stopped => 0x04
  | operational => 0x05
  | preOperational => 0x7F

def fromWire (byte : UInt8) : Except Error NmtState :=
  if byte &&& 0x7F = 0x00 then .ok initialising
  else if byte &&& 0x7F = 0x04 then .ok stopped
  else if byte &&& 0x7F = 0x05 then .ok operational
  else if byte &&& 0x7F = 0x7F then .ok preOperational
  else .error .unknownState

theorem fromWire_eq_ok_iff {byte : UInt8} {state : NmtState} :
    fromWire byte = .ok state ↔ byte &&& 0x7F = state.toByte := by
  unfold fromWire
  constructor
  · intro decoded
    split at decoded
    · cases decoded
      assumption
    · split at decoded
      · cases decoded
        assumption
      · split at decoded
        · cases decoded
          assumption
        · split at decoded
          · cases decoded
            assumption
          · cases decoded
  · intro carried
    rw [carried]
    cases state <;> rfl

end NmtState

inductive NmtCommand where
  | startRemoteNode
  | stopRemoteNode
  | enterPreOperational
  | resetNode
  | resetCommunication
  deriving DecidableEq, Repr

namespace NmtCommand

def toByte : NmtCommand → UInt8
  | startRemoteNode => 0x01
  | stopRemoteNode => 0x02
  | enterPreOperational => 0x80
  | resetNode => 0x81
  | resetCommunication => 0x82

def fromByte (byte : UInt8) : Except Error NmtCommand :=
  if byte = 0x01 then .ok startRemoteNode
  else if byte = 0x02 then .ok stopRemoteNode
  else if byte = 0x80 then .ok enterPreOperational
  else if byte = 0x81 then .ok resetNode
  else if byte = 0x82 then .ok resetCommunication
  else .error .unexpectedCommand

theorem fromByte_toByte (command : NmtCommand) : fromByte command.toByte = .ok command := by
  cases command <;> rfl

end NmtCommand

/-! ## Frames -/

@[reducible] def NmtCommandFrame := Vector UInt8 2

def bootupFrame : Vector UInt8 1 := #v[0x00]

def encodeCommand (command : NmtCommand) (target : NodeId) : NmtCommandFrame :=
  #v[command.toByte, target.raw]

/-- A target byte of `0` is a broadcast, any other one a checked device id. -/
def decodeCommand (frame : NmtCommandFrame) : Except Error (NmtCommand × NodeId) := do
  let command ← NmtCommand.fromByte frame[0]
  let target ← if frame[1] = 0 then .ok NodeId.broadcast else NodeId.new frame[1]
  .ok (command, target)

theorem decodeCommand_encodeCommand (command : NmtCommand) (target : NodeId) :
    decodeCommand (encodeCommand command target) = .ok (command, target) := by
  have specifier : (encodeCommand command target)[0] = command.toByte := rfl
  have addressee : (encodeCommand command target)[1] = target.raw := rfl
  unfold decodeCommand
  rw [specifier, addressee, NmtCommand.fromByte_toByte]
  split
  · next broadcast =>
      have same : target = .broadcast := by
        cases target
        cases broadcast
        rfl
      rw [same]
      rfl
  · next device =>
      have positive : 1 ≤ target.raw := by
        rw [UInt8.le_iff_toNat_le]
        exact Nat.one_le_iff_ne_zero.mpr fun zero => device (UInt8.toNat_inj.mp zero)
      rw [NodeId.new_eq_ok_iff.mpr ⟨rfl, positive⟩]
      rfl

theorem fromByte_of_decodeCommand {frame : NmtCommandFrame} {command : NmtCommand}
    {target : NodeId} (decodes : decodeCommand frame = .ok (command, target)) :
    NmtCommand.fromByte frame[0] = .ok command := by
  unfold decodeCommand at decodes
  cases decoded : NmtCommand.fromByte frame[0] with
  | error error =>
      rw [decoded] at decodes
      cases decodes
  | ok named =>
      rw [decoded] at decodes
      split at decodes
      · cases decodes
        rfl
      · cases checked : NodeId.new frame[1] with
        | error error =>
            rw [checked] at decodes
            cases decodes
        | ok node =>
            rw [checked] at decodes
            cases decodes
            rfl

def encodeHeartbeat (state : NmtState) : Vector UInt8 1 := #v[state.toByte]

def decodeHeartbeat (frame : Vector UInt8 1) : Except Error NmtState :=
  NmtState.fromWire frame[0]

def encodeNodeGuard (state : NmtState) (toggle : Bool) : UInt8 :=
  (if toggle then 0x80 else 0) ||| state.toByte

def decodeNodeGuard (byte : UInt8) : Except Error (Bool × NmtState) := do
  let state ← NmtState.fromWire byte
  .ok (byte &&& 0x80 != 0, state)

theorem decodeNodeGuard_encodeNodeGuard (state : NmtState) (toggle : Bool) :
    decodeNodeGuard (encodeNodeGuard state toggle) = .ok (toggle, state) := by
  cases state <;> cases toggle <;> rfl

/-! ## The state machine -/

structure NmtStateMachine where
  state : NmtState
  deriving DecidableEq, Repr

namespace NmtStateMachine

def new : NmtStateMachine := ⟨.initialising⟩

def boot (machine : NmtStateMachine) : NmtStateMachine :=
  match machine.state with
  | .initialising => ⟨.preOperational⟩
  | _ => machine

/-- Apply a command. A reset applies in any state, the other commands only once
the node is booted. -/
def apply (machine : NmtStateMachine) (command : NmtCommand) : NmtStateMachine :=
  match machine.state, command with
  | _, .resetNode | _, .resetCommunication => ⟨.initialising⟩
  | .initialising, _ => ⟨.initialising⟩
  | _, .startRemoteNode => ⟨.operational⟩
  | _, .stopRemoteNode => ⟨.stopped⟩
  | _, .enterPreOperational => ⟨.preOperational⟩

end NmtStateMachine

end CanOpen
