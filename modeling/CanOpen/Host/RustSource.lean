import CanOpen.Foundation.Grammar
import CanOpen.Host.Eds

/-! # Rust source that builds a dictionary

The fragment of Rust in which dictionaries are written: a function that inserts entries given by
literals into a new dictionary and returns it. Source is read into a program, which is checked and
run.
-/

namespace CanOpen.RustSource

open Reader (phrase word wordThen mark)

/-! ## Programs -/

/-- The argument of a value constructor: a literal, which may be negated, or a byte string. -/
inductive Argument where
  | literal (negative : Bool) (text : Text)
  | bytes (items : List Text)
  deriving DecidableEq, Repr

/-- A statement that inserts an entry, with its names and literals as they are written. -/
structure Insertion where
  index : Text
  subindex : Text
  variant : Text
  argument : Argument
  access : Text
  deriving DecidableEq, Repr

structure Program where
  name : Text
  capacity : Text
  insertions : List Insertion
  deriving DecidableEq, Repr

/-! ## Reading a program -/

def items : Reader (List Text)
  | .mark ']' :: tokens => some ([], tokens)
  | .word item :: .mark ']' :: tokens => some ([item], tokens)
  | .word item :: .mark ',' :: tokens => do
      let (others, rest) ← items tokens
      some (item :: others, rest)
  | _ => none

def literal : Reader Argument := do
  let negative ← mark '-'
  let text ← wordThen ")".toList
  pure (.literal negative text)

def byteString : Reader Argument := do
  phrase "canopen_rs::ByteString::from_bytes(&[".toList
  let items ← items
  phrase ").unwrap())".toList
  pure (.bytes items)

def insertion : Reader Insertion := do
  phrase "od.insert(canopen_rs::Address::new(".toList
  let index ← wordThen ", ".toList
  let subindex ← wordThen "), canopen_rs::Entry \x7b value: canopen_rs::Value::".toList
  let variant ← wordThen "(".toList
  let argument ← literal <|> byteString
  phrase ", access: canopen_rs::AccessType::".toList
  let access ← wordThen " \x7d).unwrap();".toList
  pure ⟨index, subindex, variant, argument, access⟩

def insertions : (fuel : Nat) → Reader (List Insertion)
  | 0 => failure
  | fuel + 1 =>
      (do
        let first ← insertion
        let rest ← insertions fuel
        pure (first :: rest)) <|>
      (do
        phrase "od \x7d".toList
        pure [])

def program (fuel : Nat) : Reader Program := do
  phrase "pub fn".toList
  let name ← wordThen "() -> canopen_rs::ObjectDictionary<".toList
  let capacity ← wordThen "> \x7b let mut od = canopen_rs::ObjectDictionary::new();".toList
  let insertions ← insertions fuel
  pure ⟨name, capacity, insertions⟩

def read (source : Text) : Option Program :=
  match program source.length (Token.lex source) with
  | some (program, []) => some program
  | _ => none

/-! ## Checking a program -/

def keywords : List Text :=
  ["_", "as", "async", "await", "break", "const", "continue", "crate", "dyn", "else", "enum",
    "extern", "false", "fn", "for", "if", "impl", "in", "let", "loop", "match", "mod", "move",
    "mut", "pub", "ref", "return", "self", "Self", "static", "struct", "super", "trait", "true",
    "type", "unsafe", "use", "where", "while", "abstract", "become", "box", "do", "final", "gen",
    "macro", "override", "priv", "try", "typeof", "unsized", "virtual", "yield"].map String.toList

def isIdentifier (text : Text) : Bool :=
  text.head?.any (fun char => !Token.isDigit char) && text.all Token.isWordChar &&
    !keywords.contains text

def integerLiteral (text : Text) : Option Nat :=
  match Text.stripPrefix "0x".toList text with
  | some hex => Text.digitsValue 16 hex
  | none => Text.digitsValue 10 text

def unsigned (greatest : Nat) (negative : Bool) (text : Text) : Option Nat :=
  if negative then none else (integerLiteral text).filter fun number => number ≤ greatest

def signed (bits : Nat) (negative : Bool) (text : Text) : Option Int :=
  let number : Option Int := (integerLiteral text).map fun magnitude : Nat =>
    if negative then -(magnitude : Int) else (magnitude : Int)
  number.filter fun number => -2 ^ (bits - 1) ≤ number ∧ number < 2 ^ (bits - 1)

def real {α : Type} (literal : Text → Option α) (negate : α → α) (type : Text) (negative : Bool)
    (text : Text) : Option α := do
  let digits ← Text.stripSuffix type text
  if digits.head?.any Token.isDigit then
    (literal digits).map fun value => if negative then negate value else value
  else none

def negate32 (bits : UInt32) : UInt32 := bits + 0x80000000
def negate64 (bits : UInt64) : UInt64 := bits + 0x8000000000000000

def constructorType (variant : Text) : Option DataType :=
  ([("Boolean".toList, .boolean), ("Unsigned8".toList, .unsigned8),
    ("Unsigned16".toList, .unsigned16), ("Unsigned32".toList, .unsigned32),
    ("Unsigned64".toList, .unsigned64), ("Integer8".toList, .integer8),
    ("Integer16".toList, .integer16), ("Integer32".toList, .integer32),
    ("Integer64".toList, .integer64), ("Real32".toList, .real32), ("Real64".toList, .real64),
    ("VisibleString".toList, .visibleString), ("OctetString".toList, .octetString),
    ("Domain".toList, .domain)] : List (Text × DataType)).lookup variant

def literalValue (reals : RealLiterals) (dataType : DataType) (negative : Bool) (text : Text) :
    Option Value :=
  match dataType with
  | .boolean =>
      if negative then none
      else if text = "true".toList then some (.boolean true)
      else if text = "false".toList then some (.boolean false)
      else none
  | .unsigned8 => (unsigned 0xFF negative text).map fun n => .unsigned8 (UInt8.ofNat n)
  | .unsigned16 => (unsigned 0xFFFF negative text).map fun n => .unsigned16 (UInt16.ofNat n)
  | .unsigned32 => (unsigned 0xFFFFFFFF negative text).map fun n => .unsigned32 (UInt32.ofNat n)
  | .unsigned64 =>
      (unsigned 0xFFFFFFFFFFFFFFFF negative text).map fun n => .unsigned64 (UInt64.ofNat n)
  | .integer8 => (signed 8 negative text).map fun n => .integer8 (Int8.ofInt n)
  | .integer16 => (signed 16 negative text).map fun n => .integer16 (Int16.ofInt n)
  | .integer32 => (signed 32 negative text).map fun n => .integer32 (Int32.ofInt n)
  | .integer64 => (signed 64 negative text).map fun n => .integer64 (Int64.ofInt n)
  | .real32 => (real reals.real32 negate32 "f32".toList negative text).map .real32
  | .real64 => (real reals.real64 negate64 "f64".toList negative text).map .real64
  | .visibleString | .octetString | .domain => none

def stringValue : DataType → Option (ByteString → Value)
  | .visibleString => some .visibleString
  | .octetString => some .octetString
  | .domain => some .domain
  | _ => none

def argumentValue (reals : RealLiterals) (dataType : DataType) : Argument → Option (Exec Value)
  | .literal negative text => (literalValue reals dataType negative text).map pure
  | .bytes items => do
      let make ← stringValue dataType
      let bytes ← items.mapM fun item => (unsigned 0xFF false item).map UInt8.ofNat
      some (make <$> Exec.unwrap (ByteString.fromBytes bytes).toOption)

def accessVariant (text : Text) : Option AccessType :=
  if text = "Ro".toList then some .ro
  else if text = "Wo".toList then some .wo
  else if text = "Rw".toList then some .rw
  else if text = "Const".toList then some .const
  else none

def checkInsertion (reals : RealLiterals) (insertion : Insertion) :
    Option (Address × Exec Entry) := do
  let index ← unsigned 0xFFFF false insertion.index
  let subindex ← unsigned 0xFF false insertion.subindex
  let dataType ← constructorType insertion.variant
  let value ← argumentValue reals dataType insertion.argument
  let access ← accessVariant insertion.access
  some (⟨UInt16.ofNat index, UInt8.ofNat subindex⟩, (⟨·, access⟩) <$> value)

/-! ## Running a program -/

structure Function where
  name : Text
  capacity : Nat
  build : Exec (ObjectDictionary capacity)

def run (N : Nat) (insertions : List (Address × Exec Entry)) : Exec (ObjectDictionary N) :=
  insertions.foldlM (fun od insertion => do
    let entry ← insertion.2
    Exec.unwrap (od.insert insertion.1 entry).toOption) .new

def compile (reals : RealLiterals) (source : Text) : Option Function := do
  let program ← read source
  let capacity ← integerLiteral program.capacity
  let insertions ← program.insertions.mapM (checkInsertion reals)
  if isIdentifier program.name then some ⟨program.name, capacity, run capacity insertions⟩
  else none

end CanOpen.RustSource
