import CanOpen.Foundation.Exec
import CanOpen.Foundation.LittleEndian
import CanOpen.Types

/-! # Basic data types and their little-endian encoding -/

namespace CanOpen

def maxStringLen : Nat := 32

/-- A bounded byte string. Two of them are equal when their meaningful bytes
are; the unused tail of the buffer is not represented. -/
structure ByteString where
  bytes : List UInt8
  length_le : bytes.length ≤ maxStringLen
  deriving DecidableEq, Repr

namespace ByteString

def new : ByteString := ⟨[], Nat.zero_le _⟩

def fromBytes (bytes : List UInt8) : Except Error ByteString :=
  if fits : bytes.length ≤ maxStringLen then .ok ⟨bytes, fits⟩ else .error .badLength

def len (string : ByteString) : Nat := string.bytes.length

def asStr (string : ByteString) : Option String := String.fromUTF8? string.bytes.toByteArray

end ByteString

inductive DataType where
  | boolean
  | integer8
  | integer16
  | integer32
  | unsigned8
  | unsigned16
  | unsigned32
  | real32
  | real64
  | integer64
  | unsigned64
  | visibleString
  | octetString
  | domain
  deriving DecidableEq, Repr

namespace DataType

/-- The basic data type for a data type index, or `none` for an index that is not modelled. -/
def fromIndex (index : UInt16) : Option DataType :=
  if index = 0x01 then some boolean
  else if index = 0x02 then some integer8
  else if index = 0x03 then some integer16
  else if index = 0x04 then some integer32
  else if index = 0x05 then some unsigned8
  else if index = 0x06 then some unsigned16
  else if index = 0x07 then some unsigned32
  else if index = 0x08 then some real32
  else if index = 0x09 then some visibleString
  else if index = 0x0A then some octetString
  else if index = 0x0F then some domain
  else if index = 0x11 then some real64
  else if index = 0x15 then some integer64
  else if index = 0x1B then some unsigned64
  else none

/-- The fixed encoded size of a value of this type, or `none` for a
variable-length type. -/
def fixedSize : DataType → Option Nat
  | boolean | integer8 | unsigned8 => some 1
  | integer16 | unsigned16 => some 2
  | integer32 | unsigned32 | real32 => some 4
  | integer64 | unsigned64 | real64 => some 8
  | visibleString | octetString | domain => none

def isVariable (dataType : DataType) : Bool := dataType.fixedSize.isNone

def size (dataType : DataType) : Nat :=
  match dataType.fixedSize with
  | some fixed => fixed
  | none => 0

def Accepts (dataType : DataType) (length : Nat) : Prop :=
  match dataType.fixedSize with
  | some fixed => length = fixed
  | none => length ≤ maxStringLen

instance (dataType : DataType) (length : Nat) : Decidable (dataType.Accepts length) := by
  unfold Accepts
  split <;> infer_instance

theorem Accepts.length_le {dataType : DataType} {length : Nat}
    (accepts : dataType.Accepts length) : length ≤ maxStringLen := by
  cases dataType <;> simp [Accepts, fixedSize, maxStringLen] at accepts ⊢ <;> omega

theorem accepts_iff {dataType : DataType} {length : Nat} (fits : length ≤ maxStringLen) :
    dataType.Accepts length ↔ ∀ fixed, dataType.fixedSize = some fixed → length = fixed := by
  cases dataType <;> simp [Accepts, fixedSize, fits]

end DataType

/-- A typed value. Reals are their bit patterns. -/
inductive Value where
  | boolean (value : Bool)
  | integer8 (value : Int8)
  | integer16 (value : Int16)
  | integer32 (value : Int32)
  | unsigned8 (value : UInt8)
  | unsigned16 (value : UInt16)
  | unsigned32 (value : UInt32)
  | real32 (bits : UInt32)
  | real64 (bits : UInt64)
  | integer64 (value : Int64)
  | unsigned64 (value : UInt64)
  | visibleString (string : ByteString)
  | octetString (string : ByteString)
  | domain (string : ByteString)
  deriving DecidableEq, Repr

namespace Value

def dataType : Value → DataType
  | boolean _ => .boolean
  | integer8 _ => .integer8
  | integer16 _ => .integer16
  | integer32 _ => .integer32
  | unsigned8 _ => .unsigned8
  | unsigned16 _ => .unsigned16
  | unsigned32 _ => .unsigned32
  | real32 _ => .real32
  | real64 _ => .real64
  | integer64 _ => .integer64
  | unsigned64 _ => .unsigned64
  | visibleString _ => .visibleString
  | octetString _ => .octetString
  | domain _ => .domain

def size : Value → Nat
  | visibleString string | octetString string | domain string => string.len
  | value => value.dataType.size

def writeFront (value : Value) (buf : List UInt8) : Exec (List UInt8) :=
  match value with
  | boolean value => Exec.setIndex buf 0 value.toUInt8
  | integer8 value => Exec.setIndex buf 0 value.toUInt8
  | unsigned8 value => Exec.setIndex buf 0 value
  | integer16 value =>
      Exec.copyFromSlice buf 0 2 (LittleEndian.encode 2 value.toUInt16.toNat)
  | unsigned16 value =>
      Exec.copyFromSlice buf 0 2 (LittleEndian.encode 2 value.toNat)
  | integer32 value =>
      Exec.copyFromSlice buf 0 4 (LittleEndian.encode 4 value.toUInt32.toNat)
  | unsigned32 value =>
      Exec.copyFromSlice buf 0 4 (LittleEndian.encode 4 value.toNat)
  | real32 bits =>
      Exec.copyFromSlice buf 0 4 (LittleEndian.encode 4 bits.toNat)
  | integer64 value =>
      Exec.copyFromSlice buf 0 8 (LittleEndian.encode 8 value.toUInt64.toNat)
  | unsigned64 value =>
      Exec.copyFromSlice buf 0 8 (LittleEndian.encode 8 value.toNat)
  | real64 bits =>
      Exec.copyFromSlice buf 0 8 (LittleEndian.encode 8 bits.toNat)
  | visibleString string | octetString string | domain string =>
      Exec.copyFromSlice buf 0 string.len string.bytes

/-- Encode this value into `buf`. The result is the number of bytes written,
with the buffer as it is left. -/
def encodeLe (value : Value) (buf : List UInt8) :
    Exec (Except Error Nat × List UInt8) :=
  let n := value.size
  if buf.length < n then pure (.error .badLength, buf)
  else do
    let buf ← value.writeFront buf
    pure (.ok n, buf)

def encodeWindow {length : Nat} (value : Value) (buf : Vector UInt8 length)
    (first last : Nat) : Exec (Except Error Nat × Vector UInt8 length) := do
  let window ← Exec.slice buf.toList first last
  let (result, window) ← value.encodeLe window
  let buf ← Exec.overwrite buf first last window
  pure (result, buf)

def readBytes (bytes : List UInt8) (count : Nat) : Exec (List UInt8) :=
  (List.range count).mapM (Exec.index bytes)

def decodeLe (dataType : DataType) (bytes : List UInt8) : Exec (Except Error Value) :=
  match dataType.fixedSize with
  | some fixed => if bytes.length ≠ fixed then pure (.error .badLength) else body
  | none => if maxStringLen < bytes.length then pure (.error .badLength) else body
where
  body : Exec (Except Error Value) := match dataType with
    | .boolean => do pure (.ok (.boolean ((← Exec.index bytes 0) != 0)))
    | .integer8 => do pure (.ok (.integer8 (← Exec.index bytes 0).toInt8))
    | .unsigned8 => do pure (.ok (.unsigned8 (← Exec.index bytes 0)))
    | .integer16 => do
        pure (.ok (.integer16 (UInt16.ofNat (LittleEndian.decode (← readBytes bytes 2))).toInt16))
    | .unsigned16 => do
        pure (.ok (.unsigned16 (UInt16.ofNat (LittleEndian.decode (← readBytes bytes 2)))))
    | .integer32 => do
        pure (.ok (.integer32 (UInt32.ofNat (LittleEndian.decode (← readBytes bytes 4))).toInt32))
    | .unsigned32 => do
        pure (.ok (.unsigned32 (UInt32.ofNat (LittleEndian.decode (← readBytes bytes 4)))))
    | .real32 => do
        pure (.ok (.real32 (UInt32.ofNat (LittleEndian.decode (← readBytes bytes 4)))))
    | .integer64 => do
        pure (.ok (.integer64 (UInt64.ofNat (LittleEndian.decode (← readBytes bytes 8))).toInt64))
    | .unsigned64 => do
        pure (.ok (.unsigned64 (UInt64.ofNat (LittleEndian.decode (← readBytes bytes 8)))))
    | .real64 => do
        pure (.ok (.real64 (UInt64.ofNat (LittleEndian.decode (← readBytes bytes 8)))))
    | .visibleString => pure ((ByteString.fromBytes bytes).map .visibleString)
    | .octetString => pure ((ByteString.fromBytes bytes).map .octetString)
    | .domain => pure ((ByteString.fromBytes bytes).map .domain)

/-! ## What the codec computes -/

def bytes : Value → List UInt8
  | boolean value => [value.toUInt8]
  | integer8 value => [value.toUInt8]
  | unsigned8 value => [value]
  | integer16 value => LittleEndian.encode 2 value.toUInt16.toNat
  | unsigned16 value => LittleEndian.encode 2 value.toNat
  | integer32 value => LittleEndian.encode 4 value.toUInt32.toNat
  | unsigned32 value => LittleEndian.encode 4 value.toNat
  | real32 bits => LittleEndian.encode 4 bits.toNat
  | integer64 value => LittleEndian.encode 8 value.toUInt64.toNat
  | unsigned64 value => LittleEndian.encode 8 value.toNat
  | real64 bits => LittleEndian.encode 8 bits.toNat
  | visibleString string | octetString string | domain string => string.bytes

def ofBytes (dataType : DataType) (bytes : List UInt8) : Value :=
  let number := LittleEndian.decode bytes
  let string : ByteString :=
    ⟨bytes.take maxStringLen, List.length_take_le maxStringLen bytes⟩
  match dataType with
  | .boolean => .boolean (bytes.headD 0 != 0)
  | .integer8 => .integer8 (bytes.headD 0).toInt8
  | .unsigned8 => .unsigned8 (bytes.headD 0)
  | .integer16 => .integer16 (UInt16.ofNat number).toInt16
  | .unsigned16 => .unsigned16 (UInt16.ofNat number)
  | .integer32 => .integer32 (UInt32.ofNat number).toInt32
  | .unsigned32 => .unsigned32 (UInt32.ofNat number)
  | .real32 => .real32 (UInt32.ofNat number)
  | .integer64 => .integer64 (UInt64.ofNat number).toInt64
  | .unsigned64 => .unsigned64 (UInt64.ofNat number)
  | .real64 => .real64 (UInt64.ofNat number)
  | .visibleString => .visibleString string
  | .octetString => .octetString string
  | .domain => .domain string

@[simp] theorem bytes_length (value : Value) : value.bytes.length = value.size := by
  cases value <;> simp [bytes, size, dataType, DataType.size, DataType.fixedSize,
    ByteString.len]

theorem size_le (value : Value) : value.size ≤ maxStringLen := by
  cases value <;> simp [size, dataType, DataType.size, DataType.fixedSize,
    ByteString.len, maxStringLen]
  all_goals
    next string => exact string.length_le

theorem accepts_size (value : Value) : value.dataType.Accepts value.size := by
  cases value <;> simp [size, dataType, DataType.size, DataType.fixedSize,
    DataType.Accepts, ByteString.len]
  all_goals
    next string => exact string.length_le

@[simp] theorem dataType_ofBytes (dataType : DataType) (bytes : List UInt8) :
    (ofBytes dataType bytes).dataType = dataType := by
  cases dataType <;> rfl

theorem size_ofBytes {dataType : DataType} {bytes : List UInt8}
    (accepts : dataType.Accepts bytes.length) : (ofBytes dataType bytes).size = bytes.length := by
  have own := accepts_size (ofBytes dataType bytes)
  rw [dataType_ofBytes] at own
  cases dataType with
  | visibleString | octetString | domain => exact (List.length_take.trans (min_eq_right accepts))
  | _ => exact Eq.trans own accepts.symm

@[simp] theorem ofBytes_bytes (value : Value) : ofBytes value.dataType value.bytes = value := by
  cases value with
  | boolean value => cases value <;> rfl
  | unsigned8 value => rfl
  | integer8 value | integer16 value | integer32 value | integer64 value =>
      simp [ofBytes, dataType, bytes]
  | unsigned16 value | unsigned32 value | unsigned64 value => simp [ofBytes, dataType, bytes]
  | real32 bits | real64 bits => simp [ofBytes, dataType, bytes]
  | visibleString string | octetString string | domain string =>
      simp [ofBytes, dataType, bytes, List.take_of_length_le string.length_le]

theorem writeFront_eq (value : Value) {buf : List UInt8} (room : value.size ≤ buf.length) :
    value.writeFront buf = pure (value.bytes ++ buf.drop value.size) := by
  have front : ∀ byte : UInt8, value.size = 1 →
      Exec.setIndex buf 0 byte = pure ([byte] ++ buf.drop 1) := by
    intro byte single
    cases buf with
    | nil => simp [single] at room
    | cons head tail => simp [Exec.setIndex]
  have window : ∀ (width : Nat) (source : List UInt8), value.size = width →
      source.length = width →
      Exec.copyFromSlice buf 0 width source = pure (source ++ buf.drop width) := by
    intro width source sameSize sameLength
    exact Exec.copyFromSlice_front (by omega) sameLength
  cases value with
  | boolean _ | integer8 _ | unsigned8 _ => exact front _ rfl
  | integer16 _ | unsigned16 _ | integer32 _ | unsigned32 _ | real32 _
  | integer64 _ | unsigned64 _ | real64 _ =>
      exact window _ _ rfl (LittleEndian.encode_length _ _)
  | visibleString _ | octetString _ | domain _ => exact window _ _ rfl rfl

/-- The encoder never panics: it writes the encoding over the front of a buffer
that has room for it and otherwise leaves the buffer alone. -/
theorem encodeLe_eq (value : Value) (buf : List UInt8) :
    value.encodeLe buf =
      pure (if buf.length < value.size then (.error .badLength, buf)
        else (.ok value.size, value.bytes ++ buf.drop value.size)) := by
  unfold encodeLe
  split
  · next short => simp [short]
  · next room => simp [writeFront_eq value (Nat.not_lt.mp room), room]

theorem readBytes_of_length {bytes : List UInt8} {count : Nat}
    (length : bytes.length = count) : readBytes bytes count = pure bytes := by
  subst length
  have read : ∀ position ∈ List.range bytes.length,
      Exec.index bytes position = pure (bytes.getD position 0) := by
    intro position member
    have within := List.mem_range.mp member
    simp [within]
  rw [readBytes, Exec.mapM_eq_pure read]
  congr 1
  apply List.ext_getElem (by simp)
  intro position _ within
  simp [within]

theorem decodeLe_eq (dataType : DataType) (bytes : List UInt8) :
    decodeLe dataType bytes =
      pure (if dataType.Accepts bytes.length then .ok (ofBytes dataType bytes)
        else .error .badLength) := by
  have single : bytes.length = 1 → Exec.index bytes 0 = pure (bytes.headD 0) := by
    intro length
    cases bytes with
    | nil => cases length
    | cons head tail => rfl
  cases dataType with
  | boolean | integer8 | unsigned8 =>
      by_cases length : bytes.length = 1
      · simp only [decodeLe, decodeLe.body, DataType.fixedSize, DataType.Accepts, length,
          single length, ofBytes, pure_bind, ne_eq, not_true_eq_false, if_false, if_true]
      · simp [decodeLe, DataType.fixedSize, DataType.Accepts, length]
  | integer16 | unsigned16 =>
      by_cases length : bytes.length = 2
      · simp [decodeLe, decodeLe.body, DataType.fixedSize, DataType.Accepts, length,
          readBytes_of_length length, ofBytes]
      · simp [decodeLe, DataType.fixedSize, DataType.Accepts, length]
  | integer32 | unsigned32 | real32 =>
      by_cases length : bytes.length = 4
      · simp [decodeLe, decodeLe.body, DataType.fixedSize, DataType.Accepts, length,
          readBytes_of_length length, ofBytes]
      · simp [decodeLe, DataType.fixedSize, DataType.Accepts, length]
  | integer64 | unsigned64 | real64 =>
      by_cases length : bytes.length = 8
      · simp [decodeLe, decodeLe.body, DataType.fixedSize, DataType.Accepts, length,
          readBytes_of_length length, ofBytes]
      · simp [decodeLe, DataType.fixedSize, DataType.Accepts, length]
  | visibleString | octetString | domain =>
      by_cases fits : bytes.length ≤ maxStringLen
      · simp [decodeLe, decodeLe.body, DataType.fixedSize, DataType.Accepts, fits,
          ByteString.fromBytes, Except.map, ofBytes, List.take_of_length_le fits,
          Nat.not_lt.mpr fits]
      · simp [decodeLe, DataType.fixedSize, DataType.Accepts, fits, Nat.not_le.mp fits]

theorem decodeLe_eq_ok_iff {dataType : DataType} {bytes : List UInt8} {value : Value} :
    decodeLe dataType bytes = pure (.ok value) ↔
      dataType.Accepts bytes.length ∧ value = ofBytes dataType bytes := by
  rw [decodeLe_eq]
  by_cases accepts : dataType.Accepts bytes.length
  · simp [accepts, eq_comm]
  · simp [accepts]

theorem encodeWindow_eq {length first last : Nat} (value : Value)
    (buf : Vector UInt8 length) (exact_ : first + value.size = last)
    (within : last ≤ length) :
    value.encodeWindow buf first last =
      pure (.ok value.size, Exec.splice buf first value.bytes
        (by rw [bytes_length]; omega)) := by
  have slice := Exec.slice_of_le buf.toList (show first ≤ last by omega)
    (by simpa using within)
  have windowLength : ((buf.toList.take last).drop first).length = value.size := by
    simp only [List.length_drop, List.length_take, Vector.length_toList]
    omega
  have emptied : ((buf.toList.take last).drop first).drop value.size = [] := by
    rw [List.drop_eq_nil_iff, windowLength]
  have written : Exec.overwrite buf first last value.bytes =
      pure (Exec.splice buf first value.bytes (by rw [bytes_length]; omega)) :=
    Exec.overwrite_of_le buf (by rw [bytes_length]; exact exact_) within
  rw [encodeWindow, slice, pure_bind, encodeLe_eq, if_neg (by omega), pure_bind]
  simp only [emptied, List.append_nil, written, pure_bind]

end Value

end CanOpen
