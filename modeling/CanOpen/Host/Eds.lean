import CanOpen.Foundation.SortedMap
import CanOpen.Foundation.Text
import CanOpen.ObjectDictionary
import Mathlib.Data.Char
import Mathlib.Data.List.Lex
import Mathlib.Data.List.Sort

/-! # Electronic data sheets

A device description as sections of an INI file, each section with the fields of one object.
Parsing evaluates the expressions of the file in 128-bit arithmetic that panics on overflow.
-/

namespace CanOpen

inductive EdsError where
  | unknownAccessType (access : Text)
  | invalidValue (section_ value : Text)
  | tooManyObjects
  deriving DecidableEq, Repr

structure ObjectDescription where
  address : Address
  parameterName : Text
  dataType : DataType
  access : AccessType
  defaultValue : Value
  pdoMappable : Bool
  deriving DecidableEq, Repr

def ObjectDescription.entry (object : ObjectDescription) : Entry :=
  ⟨object.defaultValue, object.access⟩

structure Eds where
  vendorName : Option Text
  productName : Option Text
  nodeId : Option UInt8
  objects : List ObjectDescription
  deriving DecidableEq, Repr

/-- How the literals of the real types are read, as bit patterns. -/
structure RealLiterals where
  real32 : Text → Option UInt32
  real64 : Text → Option UInt64

namespace Eds

/-! ## Sections -/

abbrev Fields := SortedMap Text Text

abbrev Sections := SortedMap Text Fields

def openSection (sections : Sections) (name : Text) : Sections :=
  match sections.lookup name with
  | some _ => sections
  | none => sections.insert name SortedMap.empty

def sectionHeader (line : Text) : Option Text :=
  (Text.stripPrefix ['['] line).bind fun behind => Text.stripSuffix [']'] behind

/-- The effect of one line on the sections and the name of the current one. -/
def parseLine (state : Sections × Option Text) (line : Text) : Exec (Sections × Option Text) :=
  let line := Text.trim line
  if line = [] ∨ line.head? = some ';' then pure state
  else
    match sectionHeader line with
    | some inner =>
        let name := Text.toAsciiLowercase (Text.trim inner)
        pure (openSection state.1 name, some name)
    | none =>
        match state.2, Text.splitOnce ['='] line with
        | some current, some (key, value) => do
            let fields ← Exec.unwrap (state.1.lookup current)
            let key := Text.toAsciiLowercase (Text.trim key)
            pure (state.1.insert current (fields.insert key (Text.trim value)), state.2)
        | _, _ => pure state

def parseIni (text : Text) : Exec Sections := do
  let (sections, _) ← (Text.lines text).foldlM parseLine (SortedMap.empty, none)
  pure sections

/-- The address that the name of a section denotes, if it is the section of an object. -/
def parseObjectSection (name : Text) : Option Address :=
  match Text.splitOnce "sub".toList name with
  | some (index, subindex) => do
      let index ← Text.fromStrRadix 0 0xFFFF 16 index
      let subindex ← Text.fromStrRadix 0 0xFF 16 subindex
      some ⟨UInt16.ofInt index, UInt8.ofInt subindex⟩
  | none => do
      let index ← Text.fromStrRadix 0 0xFFFF 16 name
      some ⟨UInt16.ofInt index, 0⟩

def accessFromStr (text : Text) : Except EdsError AccessType :=
  let name := Text.toAsciiLowercase (Text.trim text)
  if name = "ro".toList then .ok .ro
  else if name = "wo".toList then .ok .wo
  else if name ∈ ["rw".toList, "rwr".toList, "rww".toList] then .ok .rw
  else if name = "const".toList then .ok .const
  else .error (.unknownAccessType name)

/-! ## Expressions -/

/-- What a text behind one of the two hexadecimal prefixes stands for, or else the text as a
decimal integer. -/
def parseI128 (text : Text) : Option Int :=
  match (Text.stripPrefix "0x".toList text).or (Text.stripPrefix "0X".toList text) with
  | some hex => Text.fromStrRadix i128Min i128Max 16 hex
  | none => Text.fromStrRadix i128Min i128Max 10 text

def evalTerm (nodeId : UInt8) (term : Text) : Option Int :=
  if Text.eqIgnoreAsciiCase term "$nodeid".toList then some nodeId.toNat else parseI128 term

/-- Add up the terms of an expression, to the first that stands for no integer. -/
def sumTerms (nodeId : UInt8) (sum : Int) : List Text → Exec (Option Int)
  | [] => pure (some sum)
  | term :: terms =>
      if Text.trim term = [] then sumTerms nodeId sum terms
      else
        match evalTerm nodeId (Text.trim term) with
        | none => pure none
        | some value => do
            let sum ← Exec.checkedAdd i128Min i128Max sum value
            sumTerms nodeId sum terms

def evalIntExpr (text : Text) (nodeId : UInt8) : Exec (Option Int) :=
  sumTerms nodeId 0 (text.splitOn '+')

/-! ## Values -/

/-- A value of a variable-length type: the bytes of the text, cut off at the capacity. -/
def variableValue (dataType : DataType) (text : Text) : Exec (Option Value) := do
  let bytes := Text.asBytes text
  let bytes ← Exec.slice bytes 0 (min bytes.length maxStringLen)
  match ByteString.fromBytes bytes with
  | .error _ => pure none
  | .ok string =>
      match dataType with
      | .octetString => pure (some (.octetString string))
      | .domain => pure (some (.domain string))
      | _ => pure (some (.visibleString string))

/-- The integer that the text of a value stands for, which is zero for no text. -/
def integerOf (text : Text) (nodeId : UInt8) : Exec (Option Int) :=
  if text = [] then pure (some 0) else evalIntExpr text nodeId

def castInteger (dataType : DataType) (n : Int) : Option Value :=
  match dataType with
  | .boolean => some (.boolean (n != 0))
  | .integer8 => some (.integer8 (Int8.ofInt n))
  | .integer16 => some (.integer16 (Int16.ofInt n))
  | .integer32 => some (.integer32 (Int32.ofInt n))
  | .unsigned8 => some (.unsigned8 (UInt8.ofInt n))
  | .unsigned16 => some (.unsigned16 (UInt16.ofInt n))
  | .unsigned32 => some (.unsigned32 (UInt32.ofInt n))
  | .integer64 => some (.integer64 (Int64.ofInt n))
  | .unsigned64 => some (.unsigned64 (UInt64.ofInt n))
  | _ => none

def valueFromStr (reals : RealLiterals) (dataType : DataType) (text : Text) (nodeId : UInt8) :
    Exec (Option Value) :=
  let text := Text.trim text
  if dataType.isVariable then variableValue dataType text
  else
    match dataType with
    | .real32 => pure (if text = [] then some (.real32 0) else (reals.real32 text).map .real32)
    | .real64 => pure (if text = [] then some (.real64 0) else (reals.real64 text).map .real64)
    | _ => do
        let n ← integerOf text nodeId
        pure (n.bind (castInteger dataType))

/-! ## Parsing -/

def dataTypeOf (index : Int) : Option DataType :=
  if 0 ≤ index ∧ index ≤ 0xFFFF then DataType.fromIndex (UInt16.ofInt index) else none

/-- The access rights of an object, which is read-only if it has no field for them. -/
def accessOf (fields : Fields) : Except EdsError AccessType :=
  match fields.lookup "accesstype".toList with
  | some text => accessFromStr text
  | none => .ok .ro

def rawValue (fields : Fields) : Text :=
  ((fields.lookup "parametervalue".toList).or (fields.lookup "defaultvalue".toList)).getD []

/-- The object of an address and a data type, with the other fields of its section. -/
def describeObject (reals : RealLiterals) (nodeId : UInt8) (name : Text) (fields : Fields)
    (address : Address) (dataType : DataType) : Exec (Except EdsError ObjectDescription) :=
  match accessOf fields with
  | .error error => pure (.error error)
  | .ok access => do
      match ← valueFromStr reals dataType (rawValue fields) nodeId with
      | none => pure (.error (.invalidValue name (rawValue fields)))
      | some defaultValue =>
          pure (.ok {
            address
            parameterName := (fields.lookup "parametername".toList).getD []
            dataType
            access
            defaultValue
            pdoMappable :=
              ((fields.lookup "pdomapping".toList).map fun text =>
                Text.trim text != ['0']).getD false })

/-- The object that a section describes, if it describes one. Sections without a data type, and
those of data types that are not modelled, are skipped. -/
def describeSection (reals : RealLiterals) (nodeId : UInt8) (name : Text) (fields : Fields) :
    Exec (Except EdsError (Option ObjectDescription)) :=
  match parseObjectSection name, fields.lookup "datatype".toList with
  | some address, some raw => do
      match ← evalIntExpr raw nodeId with
      | none => pure (.error (.invalidValue name raw))
      | some index =>
          match dataTypeOf index with
          | none => pure (.ok none)
          | some dataType => do
              let object ← describeObject reals nodeId name fields address dataType
              pure (object.map some)
  | _, _ => pure (.ok none)

def describeSections (reals : RealLiterals) (nodeId : UInt8) (objects : List ObjectDescription) :
    List (Text × Fields) → Exec (Except EdsError (List ObjectDescription))
  | [] => pure (.ok objects)
  | (name, fields) :: sections => do
      match ← describeSection reals nodeId name fields with
      | .error error => pure (.error error)
      | .ok object => describeSections reals nodeId (objects ++ object.toList) sections

/-- The text of the node id of a file; the name of its section has two spellings. -/
def nodeIdText (sections : Sections) : Option Text :=
  let commissioning := (sections.lookup "devicecomissioning".toList).or
    (sections.lookup "devicecommissioning".toList)
  commissioning.bind fun fields => fields.lookup "nodeid".toList

def nodeIdOf (sections : Sections) : Exec (Option UInt8) :=
  match nodeIdText sections with
  | none => pure none
  | some text => do
      let n ← evalIntExpr text 0
      pure (n.bind fun n => if 0 ≤ n ∧ n ≤ 0xFF then some (UInt8.ofInt n) else none)

def addressLe (left right : ObjectDescription) : Prop :=
  left.address.index < right.address.index ∨
    left.address.index = right.address.index ∧ left.address.subindex ≤ right.address.subindex

instance : DecidableRel addressLe := fun _ _ => inferInstanceAs (Decidable (_ ∨ _))

def parse (reals : RealLiterals) (text : Text) : Exec (Except EdsError Eds) := do
  let sections ← parseIni text
  let device := sections.lookup "deviceinfo".toList
  let vendorName := device.bind fun fields => fields.lookup "vendorname".toList
  let productName := device.bind fun fields => fields.lookup "productname".toList
  let nodeId ← nodeIdOf sections
  match ← describeSections reals (nodeId.getD 0) [] sections.entries with
  | .error error => pure (.error error)
  | .ok objects =>
      pure (.ok { vendorName, productName, nodeId, objects := objects.insertionSort addressLe })

def get (eds : Eds) (address : Address) : Option ObjectDescription :=
  eds.objects.find? fun object => object.address = address

def objectDictionary (N : Nat) (eds : Eds) : Except EdsError (ObjectDictionary N) :=
  eds.objects.foldlM (fun od object =>
    (od.insert object.address object.entry).mapError fun _ => EdsError.tooManyObjects)
    ObjectDictionary.new

end Eds

end CanOpen
