import CanOpen.Host.Eds
import CanOpen.Nmt

/-! # Arguments on the command line

An error is the text that is shown for it.
-/

namespace CanOpen.Cli

def trimStartHex : Text → Text
  | '0' :: 'x' :: digits => trimStartHex digits
  | text => text

/-- Parse an index and a subindex, with zero for a subindex that is not there. -/
def parseObject (text : Text) : Except Text Address :=
  let (index, sub) := (Text.splitOnce [':'] text).getD (text, ['0'])
  match Text.fromStrRadix 0 0xFFFF 16 (trimStartHex index) with
  | none => .error ("invalid object index '".toList ++ index ++ "' (expected hex)".toList)
  | some indexValue =>
      match Text.fromStrRadix 0 0xFF 16 (trimStartHex sub) with
      | none => .error ("invalid subindex '".toList ++ sub ++ "' (expected hex)".toList)
      | some subValue => .ok ⟨UInt16.ofInt indexValue, UInt8.ofInt subValue⟩

def parseDatatype (text : Text) : Except Text DataType :=
  let name := Text.toAsciiLowercase text
  if name = "u8".toList then .ok .unsigned8
  else if name = "u16".toList then .ok .unsigned16
  else if name = "u32".toList then .ok .unsigned32
  else if name = "u64".toList then .ok .unsigned64
  else if name = "i8".toList then .ok .integer8
  else if name = "i16".toList then .ok .integer16
  else if name = "i32".toList then .ok .integer32
  else if name = "i64".toList then .ok .integer64
  else if name = "f32".toList then .ok .real32
  else if name = "f64".toList then .ok .real64
  else if name = "bool".toList then .ok .boolean
  else .error ("unknown data type '".toList ++ name ++
    "' (use u8|u16|u32|u64|i8|i16|i32|i64|f32|f64|bool)".toList)

def parseInt (text : Text) : Except Text Int :=
  let text := Text.trim text
  match (Text.stripPrefix "0x".toList text).or (Text.stripPrefix "0X".toList text) with
  | some hex =>
      match Text.fromStrRadix i128Min i128Max 16 hex with
      | some n => .ok n
      | none => .error ("invalid hex '".toList ++ text ++ "'".toList)
  | none =>
      match Text.fromStrRadix i128Min i128Max 10 text with
      | some n => .ok n
      | none => .error ("invalid integer '".toList ++ text ++ "'".toList)

def parseValue (reals : RealLiterals) (dataType : DataType) (value : Text) : Except Text Value :=
  match dataType with
  | .boolean =>
      let name := Text.toAsciiLowercase (Text.trim value)
      .ok (.boolean (name == "true".toList || name == "1".toList))
  | .real32 =>
      match reals.real32 (Text.trim value) with
      | some bits => .ok (.real32 bits)
      | none => .error "invalid f32".toList
  | .real64 =>
      match reals.real64 (Text.trim value) with
      | some bits => .ok (.real64 bits)
      | none => .error "invalid f64".toList
  | .unsigned8 => do return .unsigned8 (UInt8.ofInt (← parseInt value))
  | .unsigned16 => do return .unsigned16 (UInt16.ofInt (← parseInt value))
  | .unsigned32 => do return .unsigned32 (UInt32.ofInt (← parseInt value))
  | .unsigned64 => do return .unsigned64 (UInt64.ofInt (← parseInt value))
  | .integer8 => do return .integer8 (Int8.ofInt (← parseInt value))
  | .integer16 => do return .integer16 (Int16.ofInt (← parseInt value))
  | .integer32 => do return .integer32 (Int32.ofInt (← parseInt value))
  | .integer64 => do return .integer64 (Int64.ofInt (← parseInt value))
  | _ => .error "unsupported data type for writing".toList

theorem parseValue_dataType {reals : RealLiterals} {dataType : DataType} {text : Text}
    {value : Value} (parsed : parseValue reals dataType text = .ok value) :
    value.dataType = dataType := by
  unfold parseValue at parsed
  cases dataType with
  | boolean =>
      cases parsed
      rfl
  | real32 | real64 =>
      simp only at parsed
      split at parsed
      · cases parsed
        rfl
      · cases parsed
  | unsigned8 | unsigned16 | unsigned32 | unsigned64 | integer8 | integer16 | integer32
  | integer64 =>
      simp only at parsed
      cases integer : parseInt text with
      | error message =>
          rw [integer] at parsed
          cases parsed
      | ok n =>
          rw [integer] at parsed
          cases parsed
          rfl
  | _ => cases parsed

def parseNmtCommand (text : Text) : Except Text NmtCommand :=
  let name := Text.toAsciiLowercase text
  if name = "start".toList then .ok .startRemoteNode
  else if name = "stop".toList then .ok .stopRemoteNode
  else if name = "preop".toList ∨ name = "pre-op".toList ∨ name = "pre-operational".toList then
    .ok .enterPreOperational
  else if name = "reset".toList ∨ name = "reset-node".toList then .ok .resetNode
  else if name = "reset-comm".toList ∨ name = "reset-communication".toList then
    .ok .resetCommunication
  else .error ("unknown NMT command '".toList ++ name ++
    "' (use start|stop|preop|reset|reset-comm)".toList)

def nodeId (node : UInt8) : Except Text NodeId :=
  match NodeId.new node with
  | .ok id => .ok id
  | .error _ =>
      .error ("node id ".toList ++ (toString node.toNat).toList ++ " out of range (1..=127)".toList)

end CanOpen.Cli
