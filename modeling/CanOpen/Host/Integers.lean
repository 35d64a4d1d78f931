import CanOpen.Cli.Arguments
import CanOpen.Host.Parsing

/-! # Integers in texts

An integer that is read from a data sheet or from the command line is cast to the type of the
object without a check: the value is the one that was meant if the integer is in the range of
the type, and another one otherwise.
-/

namespace CanOpen

def DataType.integerWidth : DataType → Option Nat
  | integer8 | unsigned8 => some 8
  | integer16 | unsigned16 => some 16
  | integer32 | unsigned32 => some 32
  | integer64 | unsigned64 => some 64
  | _ => none

def Value.bits (value : Value) : Nat := LittleEndian.decode value.bytes

def InRange (width : Nat) (n : Int) : Prop := -2 ^ (width - 1) ≤ n ∧ n < 2 ^ width

instance (width : Nat) (n : Int) : Decidable (InRange width n) :=
  inferInstanceAs (Decidable (_ ∧ _))

/-- Only integers in the range are made into values, with their own bits; the others are
rejected. -/
def Checked (width : Nat) (n : Int) (returned : Value → Prop) (rejected : Prop) : Prop :=
  (∀ value, returned value → InRange width n ∧ (value.bits : Int) = n % 2 ^ width) ∧
    (¬ InRange width n → rejected)

/-- Where every integer is made into the value with its bits, those in the range are checked
and the others are not. -/
theorem checked_iff {width : Nat} {n : Int} {returned : Value → Prop} {rejected : Prop}
    (returns : ∃ value, returned value)
    (bits : ∀ value, returned value → (value.bits : Int) = n % 2 ^ width) :
    Checked width n returned rejected ↔ InRange width n := by
  constructor
  · rintro ⟨only, _⟩
    rcases returns with ⟨value, isReturned⟩
    exact (only value isReturned).1
  · intro inRange
    exact ⟨fun value isReturned => ⟨inRange, bits value isReturned⟩, absurd inRange⟩

theorem bits_castInteger {dataType : DataType} {width : Nat}
    (isWidth : dataType.integerWidth = some width) (n : Int) :
    ∃ value, Eds.castInteger dataType n = some value ∧ (value.bits : Int) = n % 2 ^ width := by
  cases dataType with
  | integer8 | unsigned8 =>
      cases isWidth
      refine ⟨_, rfl, ?_⟩
      simp [Value.bits, Value.bytes, LittleEndian.decode, Int8.ofInt, UInt8.ofInt]
      omega
  | integer16 | unsigned16 =>
      cases isWidth
      refine ⟨_, rfl, ?_⟩
      simp [Value.bits, Value.bytes, LittleEndian.decode_encode, Int16.ofInt, UInt16.ofInt]
      omega
  | integer32 | unsigned32 =>
      cases isWidth
      refine ⟨_, rfl, ?_⟩
      simp [Value.bits, Value.bytes, LittleEndian.decode_encode, Int32.ofInt, UInt32.ofInt]
      omega
  | integer64 | unsigned64 =>
      cases isWidth
      refine ⟨_, rfl, ?_⟩
      simp [Value.bits, Value.bytes, LittleEndian.decode_encode, Int64.ofInt, UInt64.ofInt]
      omega
  | _ => cases isWidth

namespace Eds

theorem readsExpression_of_integerWidth {dataType : DataType} {width : Nat}
    (isWidth : dataType.integerWidth = some width) : ReadsExpression dataType := by
  unfold ReadsExpression
  cases dataType <;> first | decide | cases isWidth

structure Declares (reals : RealLiterals) (file : Text) (nodeId : UInt8)
    (section_ : Text × Fields) (dataType : DataType) : Prop where
  reached : ∃ sections commissioned front behind, parseIni file = pure sections ∧
    nodeIdOf sections = pure commissioned ∧ commissioned.getD 0 = nodeId ∧
    sections.entries = front ++ section_ :: behind ∧
    ∀ earlier ∈ front, Accepted reals nodeId earlier
  isObject : ∃ address raw index access, parseObjectSection section_.1 = some address ∧
    section_.2.lookup "datatype".toList = some raw ∧
    evalIntExpr raw nodeId = pure (some index) ∧ dataTypeOf index = some dataType ∧
    accessOf section_.2 = .ok access

theorem valueFromStr_of_integer (reals : RealLiterals) {dataType : DataType} {width : Nat}
    (isWidth : dataType.integerWidth = some width) {text : Text} {nodeId : UInt8} {n : Int}
    (evaluates : evalIntExpr (Text.trim text) nodeId = pure (some n)) :
    ∃ value, valueFromStr reals dataType text nodeId = pure (some value) ∧
      (value.bits : Int) = n % 2 ^ width := by
  rcases bits_castInteger isWidth n with ⟨value, isCast, bits⟩
  refine ⟨value, ?_, bits⟩
  rw [valueFromStr_of_readsExpression reals (readsExpression_of_integerWidth isWidth),
    evaluates, pure_bind, Option.bind_some, isCast]

theorem describeSection_of_declares {reals : RealLiterals} {file : Text} {nodeId : UInt8}
    {section_ : Text × Fields} {dataType : DataType}
    (declares : Declares reals file nodeId section_ dataType) {value : Value}
    (read : valueFromStr reals dataType (rawValue section_.2) nodeId = pure (some value)) :
    ∃ object, describeSection reals nodeId section_.1 section_.2 = pure (.ok (some object)) ∧
      object.defaultValue = value := by
  rcases declares.isObject with
    ⟨address, raw, index, access, isAddress, isRaw, hasIndex, isType, allowed⟩
  simp only [describeSection, describeObject, isAddress, isRaw, hasIndex, isType, allowed, read,
    pure_bind]
  exact ⟨_, rfl, rfl⟩

end Eds

namespace Cli

theorem parseValue_of_integer (reals : RealLiterals) {dataType : DataType} {width : Nat}
    (isWidth : dataType.integerWidth = some width) {text : Text} {n : Int}
    (evaluates : parseInt text = .ok n) :
    ∃ value, parseValue reals dataType text = .ok value ∧
      (value.bits : Int) = n % 2 ^ width := by
  rcases bits_castInteger isWidth n with ⟨value, isCast, bits⟩
  refine ⟨value, ?_, bits⟩
  unfold parseValue
  rw [evaluates]
  cases dataType <;> cases isWidth <;> cases isCast <;> rfl

end Cli

open Eds Cli

/-- An integer that a text stands for is checked exactly if it is in the range of the type: as
a value by itself, in a section that parsing comes to, and on the command line. -/
theorem integers_checked_iff (reals : RealLiterals) {dataType : DataType} {width : Nat}
    (isWidth : dataType.integerWidth = some width) :
    (∀ (text : Text) (nodeId : UInt8) (n : Int),
      evalIntExpr (Text.trim text) nodeId = pure (some n) →
      (Checked width n
        (fun value => valueFromStr reals dataType text nodeId = pure (some value))
        (valueFromStr reals dataType text nodeId = pure none) ↔ InRange width n)) ∧
    (∀ (file : Text) (nodeId : UInt8) (section_ : Text × Fields) (n : Int),
      Declares reals file nodeId section_ dataType →
      evalIntExpr (Text.trim (rawValue section_.2)) nodeId = pure (some n) →
      (Checked width n
        (fun value => ∃ object, object.defaultValue = value ∧
          describeSection reals nodeId section_.1 section_.2 = pure (.ok (some object)))
        (parse reals file =
          pure (.error (.invalidValue section_.1 (rawValue section_.2)))) ↔ InRange width n)) ∧
    ∀ (text : Text) (n : Int), parseInt text = .ok n →
      (Checked width n (fun value => parseValue reals dataType text = .ok value)
        (∃ error, parseValue reals dataType text = .error error) ↔ InRange width n) := by
  refine ⟨fun text nodeId n evaluates => ?_, fun file nodeId section_ n declares evaluates => ?_,
    fun text n evaluates => ?_⟩
  · rcases valueFromStr_of_integer reals isWidth evaluates with ⟨value, read, bits⟩
    refine checked_iff ⟨value, read⟩ fun other also => ?_
    cases Exec.pure_inj.mp (read.symm.trans also)
    exact bits
  · rcases valueFromStr_of_integer reals isWidth evaluates with ⟨value, read, bits⟩
    rcases describeSection_of_declares declares read with ⟨object, described, isDefault⟩
    refine checked_iff ⟨value, object, isDefault, described⟩ fun other also => ?_
    rcases also with ⟨_, rfl, also⟩
    cases Exec.pure_inj.mp (described.symm.trans also)
    exact isDefault ▸ bits
  · rcases parseValue_of_integer reals isWidth evaluates with ⟨value, read, bits⟩
    refine checked_iff ⟨value, read⟩ fun other also => ?_
    cases read.symm.trans also
    exact bits

/-- The greatest byte, in the same three places. -/
theorem integers_checked_byte :
    let reals : RealLiterals := ⟨fun _ => none, fun _ => none⟩
    let file := "[1000]\nDataType=5\nDefaultValue=0xFF".toList
    let fields := (SortedMap.empty.insert "datatype".toList "5".toList).insert
      "defaultvalue".toList "0xFF".toList
    (Checked 8 255
      (fun value => valueFromStr reals .unsigned8 "0xFF".toList 0 = pure (some value))
      (valueFromStr reals .unsigned8 "0xFF".toList 0 = pure none) ↔ InRange 8 255) ∧
    (Checked 8 255
      (fun value => ∃ object, object.defaultValue = value ∧
        describeSection reals 0 "1000".toList fields = pure (.ok (some object)))
      (parse reals file = pure (.error (.invalidValue "1000".toList (rawValue fields)))) ↔
        InRange 8 255) ∧
    (Checked 8 255 (fun value => parseValue reals .unsigned8 "255".toList = .ok value)
      (∃ error, parseValue reals .unsigned8 "255".toList = .error error) ↔ InRange 8 255) := by
  intro reals file fields
  have checked := @integers_checked_iff reals .unsigned8 8 rfl
  have declares : Declares reals file 0 ("1000".toList, fields) .unsigned8 :=
    ⟨⟨SortedMap.empty.insert "1000".toList fields, none, [], [], rfl, rfl, rfl, rfl,
        List.forall_mem_nil _⟩,
      ⟨⟨0x1000, 0⟩, "5".toList, 5, .ro, by decide, rfl, by decide, by decide, rfl⟩⟩
  exact ⟨checked.1 _ _ _ (by decide), checked.2.1 file 0 _ _ declares (by decide),
    checked.2.2 _ _ (by decide)⟩

/-- One more than the greatest byte becomes zero. -/
theorem integers_wrap :
    let reals : RealLiterals := ⟨fun _ => none, fun _ => none⟩
    ¬ InRange 8 256 ∧ evalIntExpr "256".toList 0 = pure (some 256) ∧
      parseInt "256".toList = .ok 256 ∧
      valueFromStr reals .unsigned8 "256".toList 0 = pure (some (.unsigned8 0)) ∧
      parse reals "[1000]\nDataType=5\nDefaultValue=256".toList =
        pure (.ok ⟨none, none, none,
          [⟨⟨0x1000, 0⟩, [], .unsigned8, .ro, .unsigned8 0, false⟩]⟩) ∧
      parseValue reals .unsigned8 "256".toList = .ok (.unsigned8 0) := by
  decide

end CanOpen
