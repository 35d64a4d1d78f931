import CanOpen.ObjectDictionary

/-! # SDO frames

The raw eight-byte data fields of the expedited and segmented transfers.
-/

namespace CanOpen.Sdo

def sdoRequestCobBase : UInt16 := 0x600
def sdoResponseCobBase : UInt16 := 0x580

abbrev SdoPayload := Vector UInt8 8

def requestCobId (node : NodeId) : UInt16 := sdoRequestCobBase + node.raw.toUInt16

def responseCobId (node : NodeId) : UInt16 := sdoResponseCobBase + node.raw.toUInt16

/-! ## Command specifiers -/

def ccsDownloadSegment : UInt8 := 0x00
def ccsDownloadInitiate : UInt8 := 0x20
def ccsUploadInitiate : UInt8 := 0x40
def ccsUploadSegment : UInt8 := 0x60
def scsDownloadSegment : UInt8 := 0x20
def scsUploadInitiate : UInt8 := 0x40
def scsDownloadInitiate : UInt8 := 0x60
def csAbort : UInt8 := 0x80

def csMask : UInt8 := 0xE0

def expedited : UInt8 := 0x02
def sizeIndicated : UInt8 := 0x01
def expeditedSized : UInt8 := expedited ||| sizeIndicated
def toggleBit : UInt8 := 0x10
def noMoreSegments : UInt8 := 0x01

@[reducible] def segmentDataMax : Nat := 7

inductive SdoAbortCode where
  | toggleBitNotAlternated
  | protocolTimedOut
  | commandInvalid
  | unsupportedAccess
  | readOfWriteOnly
  | writeOfReadOnly
  | objectDoesNotExist
  | dataTypeMismatchLengthHigh
  | dataTypeMismatchLengthLow
  | subIndexDoesNotExist
  | general
  deriving DecidableEq, Repr

def SdoAbortCode.code : SdoAbortCode → UInt32
  | toggleBitNotAlternated => 0x05030000
  | protocolTimedOut => 0x05040000
  | commandInvalid => 0x05040001
  | unsupportedAccess => 0x06010000
  | readOfWriteOnly => 0x06010001
  | writeOfReadOnly => 0x06010002
  | objectDoesNotExist => 0x06020000
  | dataTypeMismatchLengthHigh => 0x06070012
  | dataTypeMismatchLengthLow => 0x06070013
  | subIndexDoesNotExist => 0x06090011
  | general => 0x08000000

/-! ## Frame layout -/

def addressed (command : UInt8) (addr : Address) (word : UInt32) : SdoPayload :=
  #v[command,
    LittleEndian.byteAt addr.index.toNat 0, LittleEndian.byteAt addr.index.toNat 1,
    addr.subindex,
    LittleEndian.byteAt word.toNat 0, LittleEndian.byteAt word.toNat 1,
    LittleEndian.byteAt word.toNat 2, LittleEndian.byteAt word.toNat 3]

def addressOf (p : SdoPayload) : Address :=
  ⟨UInt16.ofNat (LittleEndian.decode [p.get 1, p.get 2]), p.get 3⟩

def wordOf (p : SdoPayload) : UInt32 :=
  UInt32.ofNat (LittleEndian.decode [p.get 4, p.get 5, p.get 6, p.get 7])

/-! ## Expedited transfer -/

def encodeExpedited (command : UInt8) (addr : Address) (value : Value) :
    Exec (Except Error SdoPayload) :=
  let len := value.size
  -- The two-bit count of unused bytes cannot express an empty payload.
  if len = 0 ∨ 4 < len then pure (.error .unsupportedTransfer)
  else do
    let unused ← Exec.checkedSub 4 len
    let p := addressed (command ||| (UInt8.ofNat unused <<< 2) ||| expeditedSized) addr 0
    let (result, p) ← value.encodeWindow p 4 (4 + len)
    pure (result.map fun _ => p)

def encodeDownloadExpedited (addr : Address) (value : Value) :
    Exec (Except Error SdoPayload) :=
  encodeExpedited ccsDownloadInitiate addr value

def encodeDownloadResponse (addr : Address) : SdoPayload :=
  addressed scsDownloadInitiate addr 0

def decodeDownloadResponse (p : SdoPayload) : Except Error Address :=
  if p.get 0 ≠ scsDownloadInitiate then .error .unexpectedCommand else .ok (addressOf p)

def encodeUploadRequest (addr : Address) : SdoPayload :=
  addressed ccsUploadInitiate addr 0

def encodeUploadExpeditedResponse (addr : Address) (value : Value) :
    Exec (Except Error SdoPayload) :=
  encodeExpedited scsUploadInitiate addr value

def decodeUploadExpeditedResponse (p : SdoPayload) (dataType : DataType) :
    Exec (Except Error (Address × Value)) :=
  let cmd := p.get 0
  if cmd &&& csMask ≠ scsUploadInitiate ∨ cmd &&& expeditedSized ≠ expeditedSized then
    pure (.error .unexpectedCommand)
  else do
    let n := (cmd >>> 2) &&& 0x03
    let len ← Exec.checkedSub 4 n.toNat
    if dataType.fixedSize.any (· ≠ len) then pure (.error .typeMismatch)
    else do
      let inline_ ← Exec.slice p.toList 4 (4 + len)
      let value ← Value.decodeLe dataType inline_
      pure (value.map fun value => (addressOf p, value))

def encodeAbort (addr : Address) (code : SdoAbortCode) : SdoPayload :=
  addressed csAbort addr code.code

def decodeAbort (p : SdoPayload) : Except Error (Address × UInt32) :=
  if p.get 0 ≠ csAbort then .error .unexpectedCommand else .ok (addressOf p, wordOf p)

/-! ## Segmented transfer -/

structure Segment where
  toggle : Bool
  last : Bool
  data : List UInt8
  deriving DecidableEq, Repr

def encodeDownloadInitiateSegmented (addr : Address) (size : UInt32) : SdoPayload :=
  addressed (ccsDownloadInitiate ||| sizeIndicated) addr size

def decodeInitiateSegmented (specifier : UInt8) (p : SdoPayload) :
    Except Error (Address × UInt32) :=
  if p.get 0 &&& csMask ≠ specifier ∨ p.get 0 &&& expedited ≠ 0 ∨
      p.get 0 &&& sizeIndicated = 0 then
    .error .unexpectedCommand
  else .ok (addressOf p, wordOf p)

def decodeDownloadInitiateSegmented (p : SdoPayload) : Except Error (Address × UInt32) :=
  decodeInitiateSegmented ccsDownloadInitiate p

def encodeUploadInitiateSegmentedResponse (addr : Address) (size : UInt32) : SdoPayload :=
  addressed (scsUploadInitiate ||| sizeIndicated) addr size

def decodeUploadInitiateSegmentedResponse (p : SdoPayload) : Except Error (Address × UInt32) :=
  decodeInitiateSegmented scsUploadInitiate p

def segmentCommand (unused : Nat) (toggle last : Bool) : UInt8 :=
  let command := (UInt8.ofNat unused <<< 1) &&& 0x0E
  let command := if toggle then command ||| toggleBit else command
  if last then command ||| noMoreSegments else command

def encodeDataSegment (data : List UInt8) (toggle last : Bool) :
    Exec (Except Error SdoPayload) :=
  if segmentDataMax < data.length then pure (.error .badLength)
  else do
    let n ← Exec.checkedSub segmentDataMax data.length
    let p : SdoPayload := #v[segmentCommand n toggle last, 0, 0, 0, 0, 0, 0, 0]
    let p ← Exec.overwrite p 1 (1 + data.length) data
    pure (.ok p)

def decodeDataSegment (p : SdoPayload) : Exec (Except Error Segment) :=
  if p.get 0 &&& csMask ≠ ccsDownloadSegment then pure (.error .unexpectedCommand)
  else
    let n := ((p.get 0 >>> 1) &&& 0x07).toNat
    if segmentDataMax < n then pure (.error .badLength)
    else do
      let count ← Exec.checkedSub segmentDataMax n
      let data ← Exec.slice p.toList 1 (1 + count)
      pure (.ok ⟨p.get 0 &&& toggleBit ≠ 0, p.get 0 &&& noMoreSegments ≠ 0, data⟩)

def toggleFrame (specifier : UInt8) (toggle : Bool) : SdoPayload :=
  #v[specifier ||| (if toggle then toggleBit else 0), 0, 0, 0, 0, 0, 0, 0]

def decodeToggle (specifier : UInt8) (p : SdoPayload) : Except Error Bool :=
  if p.get 0 &&& csMask ≠ specifier then .error .unexpectedCommand
  else .ok (p.get 0 &&& toggleBit ≠ 0)

def encodeDownloadSegmentResponse (toggle : Bool) : SdoPayload :=
  toggleFrame scsDownloadSegment toggle

def decodeDownloadSegmentResponse (p : SdoPayload) : Except Error Bool :=
  decodeToggle scsDownloadSegment p

def encodeUploadSegmentRequest (toggle : Bool) : SdoPayload :=
  toggleFrame ccsUploadSegment toggle

def decodeUploadSegmentRequest (p : SdoPayload) : Except Error Bool :=
  decodeToggle ccsUploadSegment p

/-! ## What the frames carry -/

@[simp] theorem addressed_command (command : UInt8) (addr : Address) (word : UInt32) :
    (addressed command addr word).get 0 = command := rfl

@[simp] theorem addressOf_addressed (command : UInt8) (addr : Address) (word : UInt32) :
    addressOf (addressed command addr word) = addr := by
  have fields : addressOf (addressed command addr word) =
      ⟨UInt16.ofNat (LittleEndian.decode [LittleEndian.byteAt addr.index.toNat 0,
        LittleEndian.byteAt addr.index.toNat 1]), addr.subindex⟩ := rfl
  rw [fields, LittleEndian.decode_byteAt_uInt16, UInt16.ofNat_toNat]

@[simp] theorem wordOf_addressed (command : UInt8) (addr : Address) (word : UInt32) :
    wordOf (addressed command addr word) = word := by
  have field : wordOf (addressed command addr word) =
      UInt32.ofNat (LittleEndian.decode [LittleEndian.byteAt word.toNat 0,
        LittleEndian.byteAt word.toNat 1, LittleEndian.byteAt word.toNat 2,
        LittleEndian.byteAt word.toNat 3]) := rfl
  rw [field, LittleEndian.decode_byteAt_uInt32, UInt32.ofNat_toNat]

@[simp] theorem toggleFrame_command (specifier : UInt8) (toggle : Bool) :
    (toggleFrame specifier toggle).get 0 = specifier ||| (if toggle then toggleBit else 0) :=
  rfl

theorem encodeDownloadInitiateSegmented_fields (addr : Address) (size : UInt32) :
    let p := encodeDownloadInitiateSegmented addr size
    p.get 0 &&& csMask = ccsDownloadInitiate ∧ p.get 0 &&& expedited = 0 ∧
      p.get 0 &&& sizeIndicated ≠ 0 ∧ addressOf p = addr ∧ wordOf p = size := by
  simp only [encodeDownloadInitiateSegmented, addressed_command, addressOf_addressed,
    wordOf_addressed, and_true]
  decide

structure IsExpedited (command : UInt8) (addr : Address) (bytes : List UInt8)
    (p : SdoPayload) : Prop where
  command_eq : p.get 0 =
    command ||| (UInt8.ofNat (4 - bytes.length) <<< 2) ||| expeditedSized
  address_eq : addressOf p = addr
  inline_eq : (p.toList.take (4 + bytes.length)).drop 4 = bytes

theorem encodeExpedited_eq (command : UInt8) (addr : Address) {value : Value}
    (positive : 1 ≤ value.size) (small : value.size ≤ 4) :
    ∃ p, encodeExpedited command addr value = pure (.ok p) ∧
      IsExpedited command addr value.bytes p := by
  have inRange : ¬ (value.size = 0 ∨ 4 < value.size) := by omega
  let blank := addressed
    (command ||| (UInt8.ofNat (4 - value.size) <<< 2) ||| expeditedSized) addr 0
  have fits : 4 + value.bytes.length ≤ 8 := by
    rw [Value.bytes_length]
    omega
  let p := Exec.splice blank 4 value.bytes fits
  have listed : p.toList = blank.toList.take 4 ++ value.bytes ++
      blank.toList.drop (4 + value.bytes.length) := Exec.toList_splice _ _ _ fits
  have head : ∀ position : Fin 8, position.val < 4 → p.get position = blank.get position := by
    intro position within
    apply Exec.get_eq_of_toList
    rw [listed, List.getElem?_append_left (by simp; omega),
      List.getElem?_append_left (by simp; omega), List.getElem?_take_of_lt within,
      Exec.toList_get]
  refine ⟨p, ?_, ?_, ?_, ?_⟩
  · have written := Value.encodeWindow_eq value blank
      (show 4 + value.size = 4 + value.size from rfl) (by omega)
    rw [encodeExpedited, if_neg inRange, Exec.checkedSub_of_le small, pure_bind]
    simp only [blank] at written
    simp only [written, pure_bind]
    rfl
  · rw [head 0 (by decide), Value.bytes_length]
    rfl
  · have same : addressOf p = addressOf blank := by
      simp only [addressOf, head 1 (by decide), head 2 (by decide), head 3 (by decide)]
    rw [same, addressOf_addressed]
  · have front : (blank.toList.take 4).length = 4 := by simp
    rw [listed, List.append_assoc, List.take_append, List.drop_append]
    simp [front]

theorem IsExpedited.command {command : UInt8} {addr : Address} {bytes : List UInt8}
    {p : SdoPayload} (fields : IsExpedited command addr bytes p)
    (known : command = ccsDownloadInitiate ∨ command = scsUploadInitiate)
    (positive : 1 ≤ bytes.length) (small : bytes.length ≤ 4) :
    p.get 0 &&& csMask = command ∧ p.get 0 &&& expedited ≠ 0 ∧ p.get 0 &&& sizeIndicated ≠ 0 ∧
      ((p.get 0 >>> 2) &&& 0x03).toNat = 4 - bytes.length := by
  have checked : ∀ (upload : Bool) (unused : Fin 4),
      let specifier := if upload then scsUploadInitiate else ccsDownloadInitiate
      let byte := specifier ||| (UInt8.ofNat unused <<< 2) ||| expeditedSized
      byte &&& csMask = specifier ∧ byte &&& expedited ≠ 0 ∧ byte &&& sizeIndicated ≠ 0 ∧
        ((byte >>> 2) &&& 0x03).toNat = unused := by
    decide
  rw [fields.command_eq]
  rcases known with rfl | rfl
  · exact checked false ⟨4 - bytes.length, by omega⟩
  · exact checked true ⟨4 - bytes.length, by omega⟩

def inlineCount (p : SdoPayload) : Nat := 4 - ((p.get 0 >>> 2) &&& 0x03).toNat

def inlineData (p : SdoPayload) : List UInt8 := (p.toList.take (4 + inlineCount p)).drop 4

theorem inlineData_length (p : SdoPayload) : (inlineData p).length = inlineCount p := by
  simp only [inlineData, List.length_drop, List.length_take, Vector.length_toList, inlineCount]
  omega

theorem IsExpedited.inline {command : UInt8} {addr : Address} {bytes : List UInt8}
    {p : SdoPayload} (fields : IsExpedited command addr bytes p)
    (known : command = ccsDownloadInitiate ∨ command = scsUploadInitiate)
    (positive : 1 ≤ bytes.length) (small : bytes.length ≤ 4) :
    inlineCount p = bytes.length ∧ inlineData p = bytes := by
  rcases fields.command known positive small with ⟨-, -, -, count⟩
  have length : inlineCount p = bytes.length := by
    rw [inlineCount, count]
    omega
  exact ⟨length, by rw [inlineData, length, fields.inline_eq]⟩

/-- An expedited response is one that says so and states its size. It decodes in every
type that accepts as many bytes. -/
theorem decodeUploadExpeditedResponse_returns (p : SdoPayload) (dataType : DataType) :
    decodeUploadExpeditedResponse p dataType =
      pure (if p.get 0 &&& csMask = scsUploadInitiate ∧
          p.get 0 &&& expeditedSized = expeditedSized then
        if dataType.Accepts (inlineCount p) then
          .ok (addressOf p, Value.ofBytes dataType (inlineData p))
        else .error .typeMismatch
      else .error .unexpectedCommand) := by
  have unused : ((p.get 0 >>> 2) &&& 0x03).toNat ≤ 4 := by
    rw [UInt8.toNat_and]
    exact Nat.le_trans Nat.and_le_right (by decide)
  have few : inlineCount p ≤ 4 := Nat.sub_le _ _
  by_cases inline_ : p.get 0 &&& csMask = scsUploadInitiate ∧
      p.get 0 &&& expeditedSized = expeditedSized
  · have fits : inlineCount p ≤ maxStringLen := by
      simp only [maxStringLen]
      omega
    have accepts_iff : dataType.Accepts (inlineCount p) ↔ _ := DataType.accepts_iff fits
    have slice := Exec.slice_of_le p.toList (Nat.le_add_right 4 (inlineCount p))
      (by simp only [Vector.length_toList]; omega)
    rw [decodeUploadExpeditedResponse, if_neg (by simp [inline_.1, inline_.2]), if_pos inline_]
    simp only
    rw [Exec.checkedSub_of_le unused, pure_bind]
    show (if dataType.fixedSize.any (· ≠ inlineCount p) = true then _ else _) = _
    by_cases accepts : dataType.Accepts (inlineCount p)
    · have suitable : dataType.fixedSize.any (· ≠ inlineCount p) = false := by
        cases size : dataType.fixedSize with
        | none => rfl
        | some fixed => simp [accepts_iff.mp accepts fixed size]
      have decoded := Value.decodeLe_eq dataType (inlineData p)
      rw [inlineData_length, if_pos accepts] at decoded
      rw [suitable, if_neg (by simp), if_pos accepts, ← inlineCount, slice, pure_bind]
      show (Value.decodeLe dataType (inlineData p) >>= _) = _
      rw [decoded, pure_bind]
      rfl
    · have unsuitable : dataType.fixedSize.any (· ≠ inlineCount p) = true := by
        rw [accepts_iff] at accepts
        push Not at accepts
        rcases accepts with ⟨fixed, size, different⟩
        simp [size, different.symm]
      rw [unsuitable, if_pos rfl, if_neg accepts]
  · rw [decodeUploadExpeditedResponse, if_neg inline_, if_pos]
    rwa [not_and_or] at inline_

/-- The response that carries a value decodes to it in every type that accepts as many
bytes. -/
theorem decodeUploadExpeditedResponse_eq {addr : Address} {bytes : List UInt8}
    {p : SdoPayload} (fields : IsExpedited scsUploadInitiate addr bytes p)
    (dataType : DataType) (positive : 1 ≤ bytes.length) (small : bytes.length ≤ 4) :
    decodeUploadExpeditedResponse p dataType =
      pure (if dataType.Accepts bytes.length then
          .ok (addr, Value.ofBytes dataType bytes)
        else .error .typeMismatch) := by
  rcases fields.command (.inr rfl) positive small with ⟨specifier, -, -, -⟩
  have both : p.get 0 &&& expeditedSized = expeditedSized := by
    rw [fields.command_eq]
    have checked : ∀ unused : Fin 4,
        (scsUploadInitiate ||| (UInt8.ofNat unused <<< 2) ||| expeditedSized) &&&
          expeditedSized = expeditedSized := by
      decide
    exact checked ⟨4 - bytes.length, by omega⟩
  rcases fields.inline (.inr rfl) positive small with ⟨length, data⟩
  rw [decodeUploadExpeditedResponse_returns, if_pos ⟨specifier, both⟩, length, data,
    fields.address_eq]

theorem expeditedSized_iff (command : UInt8) :
    command &&& expeditedSized = expeditedSized ↔
      command &&& expedited ≠ 0 ∧ command &&& sizeIndicated ≠ 0 := by
  apply LittleEndian.byte_of_forall _ command command.toNat_lt
  decide +kernel

theorem decodeInitiateSegmented_eq (specifier : UInt8) (p : SdoPayload) :
    decodeInitiateSegmented specifier p =
      if p.get 0 &&& csMask = specifier ∧ p.get 0 &&& expedited = 0 ∧
          p.get 0 &&& sizeIndicated ≠ 0 then
        .ok (addressOf p, wordOf p)
      else .error .unexpectedCommand := by
  unfold decodeInitiateSegmented
  by_cases specified : p.get 0 &&& csMask = specifier <;>
    by_cases inline_ : p.get 0 &&& expedited = 0 <;>
    by_cases sized : p.get 0 &&& sizeIndicated = 0 <;>
    simp [specified, inline_, sized]

theorem decodeUploadInitiateSegmentedResponse_eq (p : SdoPayload) :
    decodeUploadInitiateSegmentedResponse p =
      if p.get 0 &&& csMask = scsUploadInitiate ∧ p.get 0 &&& expedited = 0 ∧
          p.get 0 &&& sizeIndicated ≠ 0 then
        .ok (addressOf p, wordOf p)
      else .error .unexpectedCommand :=
  decodeInitiateSegmented_eq scsUploadInitiate p

theorem decodeUploadInitiateSegmentedResponse_encode (addr : Address) (size : UInt32) :
    decodeUploadInitiateSegmentedResponse (encodeUploadInitiateSegmentedResponse addr size) =
      .ok (addr, size) := by
  rw [decodeUploadInitiateSegmentedResponse_eq, if_pos]
  · simp [encodeUploadInitiateSegmentedResponse]
  · rw [encodeUploadInitiateSegmentedResponse, addressed_command]
    decide

def segmentOf (p : SdoPayload) : Segment where
  toggle := p.get 0 &&& toggleBit ≠ 0
  last := p.get 0 &&& noMoreSegments ≠ 0
  data := (p.toList.take (1 + (7 - ((p.get 0 >>> 1) &&& 0x07).toNat))).drop 1

theorem unused_le (command : UInt8) : ((command >>> 1) &&& 0x07).toNat ≤ 7 := by
  rw [UInt8.toNat_and]
  exact Nat.and_le_right

theorem decodeDataSegment_eq (p : SdoPayload) :
    decodeDataSegment p =
      pure (if p.get 0 &&& csMask = ccsDownloadSegment then .ok (segmentOf p)
        else .error .unexpectedCommand) := by
  have unused := unused_le (p.get 0)
  by_cases isSegment : p.get 0 &&& csMask = ccsDownloadSegment
  · have within : 1 + (7 - ((p.get 0 >>> 1) &&& 0x07).toNat) ≤ p.toList.length := by
      simp only [Vector.length_toList]
      omega
    have notLong : ¬ segmentDataMax < ((p.get 0 >>> 1) &&& 0x07).toNat := by
      simpa [segmentDataMax] using unused
    rw [decodeDataSegment, if_neg (by simpa using isSegment), if_neg notLong,
      Exec.checkedSub_of_le (by simpa [segmentDataMax] using unused), pure_bind,
      Exec.slice_of_le _ (by omega) (by simpa [segmentDataMax] using within), pure_bind]
    simp [isSegment, segmentOf, segmentDataMax]
  · simp [decodeDataSegment, isSegment]

private theorem segmentCommand_fields : ∀ (unused : Fin 8) (toggle last : Bool),
    (segmentCommand unused toggle last &&& csMask = ccsDownloadSegment) ∧
    ((segmentCommand unused toggle last >>> 1) &&& 0x07).toNat = unused ∧
    (segmentCommand unused toggle last &&& toggleBit ≠ 0 ↔ toggle) ∧
    (segmentCommand unused toggle last &&& noMoreSegments ≠ 0 ↔ last) := by
  decide

theorem overwrite_blank (command : UInt8) {data : List UInt8}
    (fits : data.length ≤ segmentDataMax) :
    ∃ p : SdoPayload, Exec.overwrite #v[command, 0, 0, 0, 0, 0, 0, 0] 1 (1 + data.length) data =
        pure p ∧ p.get 0 = command ∧
      p.toList = command :: (data ++ List.replicate (segmentDataMax - data.length) 0) := by
  let blank : SdoPayload := #v[command, 0, 0, 0, 0, 0, 0, 0]
  have room : 1 + data.length ≤ 8 := by
    simp only [segmentDataMax] at fits
    omega
  have zeros : blank.toList = command :: List.replicate segmentDataMax 0 := rfl
  have listed : (Exec.splice blank 1 data room).toList =
      command :: (data ++ List.replicate (segmentDataMax - data.length) 0) := by
    rw [Exec.toList_splice, zeros, Nat.add_comm 1 data.length, List.drop_succ_cons,
      List.drop_replicate]
    rfl
  refine ⟨Exec.splice blank 1 data room, Exec.overwrite_of_le _ rfl room, ?_, listed⟩
  apply Exec.get_eq_of_toList
  rw [listed]
  rfl

theorem encodeDataSegment_eq {data : List UInt8} (toggle last : Bool)
    (fits : data.length ≤ 7) :
    ∃ p, encodeDataSegment data toggle last = pure (.ok p) ∧
      p.get 0 &&& csMask = ccsDownloadSegment ∧ segmentOf p = ⟨toggle, last, data⟩ := by
  rcases overwrite_blank (segmentCommand (7 - data.length) toggle last) fits with
    ⟨p, written, command, listed⟩
  rcases segmentCommand_fields ⟨7 - data.length, by omega⟩ toggle last with
    ⟨specifier, count, toggled, final⟩
  refine ⟨p, ?_, ?_, ?_⟩
  · have notLong : ¬ segmentDataMax < data.length := by simpa [segmentDataMax] using fits
    rw [encodeDataSegment, if_neg notLong, Exec.checkedSub_of_le fits, pure_bind]
    simp only
    rw [written, pure_bind]
  · rw [command]
    exact specifier
  · have carried : 1 + (7 - (7 - data.length)) = data.length + 1 := by omega
    simp only [segmentOf, command, count, carried, listed, Segment.mk.injEq]
    refine ⟨?_, ?_, ?_⟩
    · cases toggle <;> simpa using toggled
    · cases last <;> simpa using final
    · rw [List.take_succ_cons, List.take_left]
      rfl

theorem encodeDataSegment_carries {data : List UInt8} {toggle last : Bool}
    {p : SdoPayload} (encoded : encodeDataSegment data toggle last = pure (.ok p)) :
    p.get 0 &&& csMask = ccsDownloadSegment ∧ segmentOf p = ⟨toggle, last, data⟩ := by
  by_cases fits : data.length ≤ 7
  · rcases encodeDataSegment_eq toggle last fits with ⟨q, equal, carries⟩
    rw [equal, Exec.pure_inj, Except.ok.injEq] at encoded
    exact encoded ▸ carries
  · rw [encodeDataSegment, if_pos (by simpa using fits), Exec.pure_inj] at encoded
    cases encoded

theorem encodeUploadSegmentRequest_fields (toggle : Bool) :
    (encodeUploadSegmentRequest toggle).get 0 &&& csMask = ccsUploadSegment ∧
      decide ((encodeUploadSegmentRequest toggle).get 0 &&& toggleBit ≠ 0) = toggle := by
  cases toggle <;> decide

/-! ## Segments of a byte string -/

def alternate (position : Nat) : Bool := position % 2 = 1

theorem alternate_succ (position : Nat) : alternate (position + 1) = !alternate position := by
  unfold alternate
  rcases Nat.mod_two_eq_zero_or_one position with even | odd
  · simp [Nat.add_mod, even]
  · simp [Nat.add_mod, odd]

def segmentCount (length : Nat) : Nat := max 1 ((length + 6) / 7)

theorem segmentCount_of_le {length : Nat} (short : length ≤ 7) : segmentCount length = 1 := by
  unfold segmentCount
  omega

theorem segmentCount_of_lt {length : Nat} (long : 7 < length) :
    segmentCount length = segmentCount (length - 7) + 1 := by
  unfold segmentCount
  omega

theorem segmentCount_last_iff {length index : Nat} (within : index < segmentCount length) :
    length - 7 * index ≤ 7 ↔ index + 1 = segmentCount length := by
  unfold segmentCount at within ⊢
  omega

theorem segment_window (bytes : List UInt8) (pos : Nat) :
    (bytes.take (pos + min (bytes.length - pos) 7)).drop pos = (bytes.drop pos).take 7 := by
  rw [List.drop_take, Nat.add_sub_cancel_left, ← List.length_drop, Nat.min_comm,
    ← List.take_eq_take_min]

/-! ## Transfer buffers -/

def Holds (data : Vector UInt8 maxStringLen) (bytes : List UInt8) : Prop :=
  data.toList.take bytes.length = bytes

theorem encodeWindow_front (value : Value) :
    ∃ data, value.encodeWindow (Vector.replicate maxStringLen 0) 0 value.size =
        pure (.ok value.size, data) ∧ Holds data value.bytes := by
  have fits : 0 + value.bytes.length ≤ maxStringLen := by
    simpa using value.size_le
  refine ⟨_, Value.encodeWindow_eq value _ (Nat.zero_add _) value.size_le, ?_⟩
  rw [Holds, Exec.toList_splice _ _ _ fits]
  simp

theorem Holds.window {data : Vector UInt8 maxStringLen} {bytes : List UInt8}
    (holds : Holds data bytes) (first : Nat) {last : Nat} (within : last ≤ bytes.length) :
    (data.toList.take last).drop first = (bytes.take last).drop first := by
  have shorter : data.toList.take last = bytes.take last := by
    rw [← holds, List.take_take, Nat.min_eq_left within]
  rw [shorter]

theorem take_append_window (bytes : List UInt8) {pos last : Nat}
    (ordered : pos ≤ last) :
    bytes.take pos ++ (bytes.take last).drop pos = bytes.take last := by
  have front : bytes.take pos = (bytes.take last).take pos := by
    rw [List.take_take, Nat.min_eq_left ordered]
  rw [front, List.take_append_drop]

end CanOpen.Sdo
