import CanOpen.Sdo.Server

/-! # What a request can do

Closed forms of the request handlers, and from them the complete list of the
effects a request can have on the server and the dictionary.
-/

namespace CanOpen.Sdo

theorem unusedInline_le (command : UInt8) : ((command >>> 2) &&& 0x03).toNat ≤ 3 := by
  rw [UInt8.toNat_and]
  exact Nat.and_le_right

namespace SdoServer

variable {N : Nat}

/-! ## Downloads -/

def inlineLength (req : SdoPayload) (dataType : DataType) : Nat :=
  if req.get 0 &&& sizeIndicated ≠ 0 then 4 - ((req.get 0 >>> 2) &&& 0x03).toNat
  else dataType.fixedSize.getD 0

theorem expeditedLength_eq (req : SdoPayload) (dataType : DataType) :
    expeditedLength req dataType = pure (inlineLength req dataType) := by
  have unused := unusedInline_le (req.get 0)
  unfold expeditedLength inlineLength
  split
  · rw [Exec.checkedSub_of_le (by omega)]
  · rfl

def inlineBytes (req : SdoPayload) (dataType : DataType) : List UInt8 :=
  (req.toList.take (4 + inlineLength req dataType)).drop 4

theorem length_inlineBytes {req : SdoPayload} {dataType : DataType}
    (short : inlineLength req dataType ≤ 4) :
    (inlineBytes req dataType).length = inlineLength req dataType := by
  simp only [inlineBytes, List.length_drop, List.length_take, Vector.length_toList]
  omega

theorem writeValue_of_writable {server : SdoServer} {od : ObjectDictionary N}
    {addr : Address} {entry : Entry} {value : Value} (present : od.entry addr = some entry)
    (writable : entry.access.isWritable = true)
    (sameType : entry.value.dataType = value.dataType) :
    server.writeValue od addr value =
      ⟨{ server with lastWrite := some addr }, od.replace addr { entry with value },
        some (encodeDownloadResponse addr)⟩ := by
  have writes : od.write addr value = .ok (od.replace addr { entry with value }) :=
    ObjectDictionary.write_eq_ok_iff.mpr ⟨entry, present, writable, sameType, rfl⟩
  simp [writeValue, writes]

theorem onDownloadExpedited_eq {server : SdoServer} {od : ObjectDictionary N}
    {req : SdoPayload} {addr : Address} {entry : Entry}
    (present : od.entry addr = some entry) (writable : entry.access.isWritable = true) :
    server.onDownloadExpedited od req addr entry.value.dataType =
      let dataType := entry.value.dataType
      if inlineLength req dataType ≤ 4 ∧ dataType.Accepts (inlineLength req dataType) then
        let value := Value.ofBytes dataType (inlineBytes req dataType)
        pure ⟨{ server with lastWrite := some addr }, od.replace addr { entry with value },
          some (encodeDownloadResponse addr)⟩
      else pure ⟨server, od, abort addr .dataTypeMismatchLengthHigh⟩ := by
  rw [onDownloadExpedited, expeditedLength_eq, pure_bind]
  by_cases long : 4 < inlineLength req entry.value.dataType
  · have tooLong : ¬ inlineLength req entry.value.dataType ≤ 4 := by omega
    simp [long, tooLong]
  · have short : inlineLength req entry.value.dataType ≤ 4 := by omega
    have fits : inlineLength req entry.value.dataType ≤ maxStringLen := by
      simp only [maxStringLen]
      omega
    by_cases accepts : entry.value.dataType.Accepts (inlineLength req entry.value.dataType)
    · have suitable : entry.value.dataType.fixedSize.any
          (inlineLength req entry.value.dataType ≠ ·) = false := by
        have exact_ := (DataType.accepts_iff fits).mp accepts
        cases size : entry.value.dataType.fixedSize with
        | none => rfl
        | some fixed => simp [exact_ fixed size]
      have slice := Exec.slice_of_le req.toList
        (Nat.le_add_right 4 (inlineLength req entry.value.dataType))
        (by simp only [Vector.length_toList]; omega)
      have decoded := Value.decodeLe_eq entry.value.dataType
        (inlineBytes req entry.value.dataType)
      rw [length_inlineBytes short, if_pos accepts] at decoded
      rw [if_neg long, suitable, if_neg (by simp), slice, pure_bind]
      show (Value.decodeLe _ (inlineBytes req entry.value.dataType) >>= _) = _
      rw [decoded, pure_bind]
      simp only [short, accepts, and_self, if_true]
      rw [writeValue_of_writable present writable (by simp)]
    · have unsuitable : entry.value.dataType.fixedSize.any
          (inlineLength req entry.value.dataType ≠ ·) = true := by
        rw [DataType.accepts_iff fits] at accepts
        push Not at accepts
        rcases accepts with ⟨fixed, size, different⟩
        simp [size, different]
      rw [if_neg long, unsuitable]
      simp [accepts]

theorem sizeSuits_eq (dataType : DataType) (size : Nat) :
    sizeSuits dataType size = decide (dataType.Accepts size) := by
  cases dataType <;> simp [sizeSuits, DataType.fixedSize, DataType.Accepts] <;> rfl

theorem onDownloadSegmented_eq (server : SdoServer) (od : ObjectDictionary N)
    {req : SdoPayload} (addr : Address) (dataType : DataType)
    (initiate : req.get 0 &&& csMask = ccsDownloadInitiate)
    (segmented : req.get 0 &&& expedited = 0) :
    server.onDownloadSegmented od req addr dataType =
      if req.get 0 &&& sizeIndicated = 0 then ⟨server, od, abort addr .commandInvalid⟩
      else if dataType.Accepts (wordOf req).toNat then
        ⟨{ server with
            transfer := some (.download addr dataType .new (wordOf req).toNat false) },
          od, some (encodeDownloadResponse addr)⟩
      else ⟨server, od, abort addr .dataTypeMismatchLengthHigh⟩ := by
  by_cases sized : req.get 0 &&& sizeIndicated = 0
  · simp [onDownloadSegmented, decodeDownloadInitiateSegmented, decodeInitiateSegmented,
      sized]
  · have decoded : decodeDownloadInitiateSegmented req = .ok (addressOf req, wordOf req) := by
      simp [decodeDownloadInitiateSegmented, decodeInitiateSegmented, initiate, segmented,
        sized]
    simp only [onDownloadSegmented, decoded, sizeSuits_eq, sized, if_false]
    by_cases accepts : dataType.Accepts (wordOf req).toNat <;> simp [accepts]

theorem onDownloadInitiate_absent (server : SdoServer) {od : ObjectDictionary N}
    {req : SdoPayload} (absent : od.entry (reqAddress req) = none) :
    server.onDownloadInitiate od req =
      pure ⟨server, od, abort (reqAddress req) .objectDoesNotExist⟩ := by
  simp only [onDownloadInitiate, absent]

theorem onDownloadInitiate_readOnly (server : SdoServer) {od : ObjectDictionary N}
    {req : SdoPayload} {entry : Entry} (present : od.entry (reqAddress req) = some entry)
    (protected_ : entry.access.isWritable = false) :
    server.onDownloadInitiate od req =
      pure ⟨server, od, abort (reqAddress req) .writeOfReadOnly⟩ := by
  simp [onDownloadInitiate, present, protected_]

theorem onDownloadInitiate_expedited (server : SdoServer) {od : ObjectDictionary N}
    {req : SdoPayload} {entry : Entry} (expedited_ : req.get 0 &&& expedited ≠ 0)
    (present : od.entry (reqAddress req) = some entry)
    (writable : entry.access.isWritable = true) :
    server.onDownloadInitiate od req =
      pure (if inlineLength req entry.value.dataType ≤ 4 ∧
          entry.value.dataType.Accepts (inlineLength req entry.value.dataType) then
        ⟨{ server with lastWrite := some (reqAddress req) },
          od.replace (reqAddress req) { entry with
            value := Value.ofBytes entry.value.dataType
              (inlineBytes req entry.value.dataType) },
          some (encodeDownloadResponse (reqAddress req))⟩
      else ⟨server, od, abort (reqAddress req) .dataTypeMismatchLengthHigh⟩) := by
  have unfolded : server.onDownloadInitiate od req =
      server.onDownloadExpedited od req (reqAddress req) entry.value.dataType := by
    simp [onDownloadInitiate, present, writable, expedited_]
  rw [unfolded, onDownloadExpedited_eq present writable]
  simp only
  split <;> rfl

theorem onDownloadInitiate_segmented (server : SdoServer) {od : ObjectDictionary N}
    {req : SdoPayload} {entry : Entry}
    (initiate : req.get 0 &&& csMask = ccsDownloadInitiate)
    (segmented : req.get 0 &&& expedited = 0)
    (present : od.entry (reqAddress req) = some entry)
    (writable : entry.access.isWritable = true) :
    server.onDownloadInitiate od req =
      pure (if req.get 0 &&& sizeIndicated = 0 then
          ⟨server, od, abort (reqAddress req) .commandInvalid⟩
        else if entry.value.dataType.Accepts (wordOf req).toNat then
          ⟨{ server with
              transfer := some (.download (reqAddress req) entry.value.dataType .new
                (wordOf req).toNat false) },
            od, some (encodeDownloadResponse (reqAddress req))⟩
        else ⟨server, od, abort (reqAddress req) .dataTypeMismatchLengthHigh⟩) := by
  have closed := onDownloadSegmented_eq server od (reqAddress req) entry.value.dataType
    initiate segmented
  simp [onDownloadInitiate, present, writable, segmented, closed]

/-- The final segment of a download of the declared length is written, if the
entry is still writable and of the type it had at the initiate. -/
theorem finishDownload_eq (server : SdoServer) (od : ObjectDictionary N) (addr : Address)
    (dataType : DataType) (bytes : List UInt8) (declared : Nat) (ack : SdoPayload) :
    server.finishDownload od addr dataType bytes declared ack =
      pure (if bytes.length = declared then
        if dataType.Accepts bytes.length then
          match od.write addr (Value.ofBytes dataType bytes) with
          | .ok od => ⟨{ server with lastWrite := some addr }, od, some ack⟩
          | .error .readOnly => ⟨server, od, abort addr .writeOfReadOnly⟩
          | .error _ => ⟨server, od, abort addr .general⟩
        else ⟨server, od, abort addr .general⟩
      else ⟨server, od, abort addr .dataTypeMismatchLengthLow⟩) := by
  unfold finishDownload
  by_cases complete : bytes.length = declared
  · rw [if_neg (by simpa using complete), Value.decodeLe_eq, pure_bind, if_pos complete]
    by_cases accepts : dataType.Accepts bytes.length
    · simp only [accepts, if_true]
      split <;> simp_all
    · simp [accepts]
  · simp [complete]

/-! ## Uploads -/

theorem onUploadInitiate_of_error (server : SdoServer) {od : ObjectDictionary N}
    {req : SdoPayload} {error : Error} (fails : od.read (reqAddress req) = .error error) :
    ∃ code, server.onUploadInitiate od req =
      pure ⟨server, od, abort (reqAddress req) code⟩ := by
  simp only [onUploadInitiate, fails]
  cases error <;> exact ⟨_, rfl⟩

theorem onUploadInitiate_expedited (server : SdoServer) {od : ObjectDictionary N}
    {req : SdoPayload} {value : Value} (reads : od.read (reqAddress req) = .ok value)
    (positive : 1 ≤ value.size) (small : value.size ≤ 4) :
    ∃ p, server.onUploadInitiate od req = pure ⟨server, od, some p⟩ ∧
      IsExpedited scsUploadInitiate (reqAddress req) value.bytes p := by
  rcases encodeExpedited_eq scsUploadInitiate (reqAddress req) positive small with
    ⟨p, encoded, fields⟩
  refine ⟨p, ?_, fields⟩
  simp only [onUploadInitiate, reads, positive, small, and_self, if_true,
    encodeUploadExpeditedResponse, encoded, pure_bind, Exec.expect_ok]

theorem onUploadInitiate_segmented (server : SdoServer) {od : ObjectDictionary N}
    {req : SdoPayload} {value : Value} (reads : od.read (reqAddress req) = .ok value)
    (large : ¬ (1 ≤ value.size ∧ value.size ≤ 4)) :
    ∃ data, server.onUploadInitiate od req =
        pure ⟨{ server with
          transfer := some (.upload (reqAddress req) data value.size 0 false) }, od,
          some (encodeUploadInitiateSegmentedResponse (reqAddress req)
            (UInt32.ofNat value.size))⟩ ∧
      Holds data value.bytes := by
  rcases encodeWindow_front value with ⟨data, encoded, holds⟩
  refine ⟨data, ?_, holds⟩
  simp only [onUploadInitiate, reads, large, if_false, encoded, pure_bind, Exec.expect_ok]

/-- An upload segment in sequence carries the next at most seven bytes, and the
transfer is kept exactly while more than seven remained. -/
theorem onUploadSegment_inSequence {server : SdoServer} (od : ObjectDictionary N)
    {req : SdoPayload} {addr : Address} {data : Vector UInt8 maxStringLen}
    {len pos : Nat} {toggle : Bool}
    (current : server.transfer = some (.upload addr data len pos toggle))
    (inSequence : decide (req.get 0 &&& toggleBit ≠ 0) = toggle)
    (posLe : pos ≤ len) (within : pos + min (len - pos) 7 ≤ maxStringLen) :
    ∃ p, server.onUploadSegment od req =
        pure ⟨{ server with
          transfer := if len - pos ≤ 7 then none
            else some (.upload addr data len (pos + min (len - pos) 7) !toggle) },
          od, some p⟩ ∧
      p.get 0 &&& csMask = ccsDownloadSegment ∧
      segmentOf p = ⟨toggle, decide (len - pos ≤ 7),
        (data.toList.take (pos + min (len - pos) 7)).drop pos⟩ := by
  have slice := Exec.slice_of_le data.toList (Nat.le_add_right pos (min (len - pos) 7))
    (by simpa using within)
  have short : ((data.toList.take (pos + min (len - pos) 7)).drop pos).length ≤ 7 := by
    simp only [List.length_drop, List.length_take]
    omega
  rcases encodeDataSegment_eq toggle (decide (len - pos ≤ 7)) short with
    ⟨p, encoded, specifier, carries⟩
  refine ⟨p, ?_, specifier, carries⟩
  simp only [onUploadSegment, current, inSequence, ne_eq, not_true_eq_false, if_false,
    Exec.checkedSub_of_le posLe, pure_bind, segmentDataMax, slice, encoded,
    Exec.expect_ok]
  by_cases last : len - pos ≤ 7 <;> simp [last]

theorem onUploadSegment_outOfSequence {server : SdoServer} {od : ObjectDictionary N}
    {req : SdoPayload} {addr : Address} {data : Vector UInt8 maxStringLen}
    {len pos : Nat} {toggle : Bool}
    (current : server.transfer = some (.upload addr data len pos toggle))
    (outOfSequence : decide (req.get 0 &&& toggleBit ≠ 0) ≠ toggle) :
    server.onUploadSegment od req =
      pure ⟨{ server with transfer := none }, od, abort addr .toggleBitNotAlternated⟩ := by
  simp [onUploadSegment, current] at outOfSequence ⊢
  simp [outOfSequence]

/-! ## Download segments -/

theorem onDownloadSegment_inSequence {server : SdoServer} (od : ObjectDictionary N)
    {req : SdoPayload} {addr : Address} {dataType : DataType}
    {buf extended : BoundedVec UInt8 maxStringLen} {declared : Nat}
    (segment : req.get 0 &&& csMask = ccsDownloadSegment)
    (current : server.transfer =
      some (.download addr dataType buf declared (segmentOf req).toggle))
    (more : (segmentOf req).last = false)
    (content : extended.toList = buf.toList ++ (segmentOf req).data) :
    server.onDownloadSegment od req =
      pure ⟨{ server with
          transfer := some (.download addr dataType extended declared
            !(segmentOf req).toggle) },
        od, some (encodeDownloadSegmentResponse (segmentOf req).toggle)⟩ := by
  have extends_ := BoundedVec.extendFromSlice_eq_some_iff.mpr content
  simp only [onDownloadSegment, decodeDataSegment_eq, segment, if_true, pure_bind, current,
    ne_eq, not_true_eq_false, if_false, extends_, more]
  rfl

theorem onDownloadSegment_last {server : SdoServer} (od : ObjectDictionary N)
    {req : SdoPayload} {addr : Address} {dataType : DataType}
    {buf extended : BoundedVec UInt8 maxStringLen} {declared : Nat}
    (segment : req.get 0 &&& csMask = ccsDownloadSegment)
    (current : server.transfer =
      some (.download addr dataType buf declared (segmentOf req).toggle))
    (last : (segmentOf req).last = true)
    (content : extended.toList = buf.toList ++ (segmentOf req).data) :
    server.onDownloadSegment od req =
      finishDownload { server with transfer := none } od addr dataType extended.toList
        declared (encodeDownloadSegmentResponse (segmentOf req).toggle) := by
  have extends_ := BoundedVec.extendFromSlice_eq_some_iff.mpr content
  simp only [onDownloadSegment, decodeDataSegment_eq, segment, if_true, pure_bind, current,
    ne_eq, not_true_eq_false, if_false, extends_, last]

theorem finishDownload_writes (server : SdoServer) {od : ObjectDictionary N}
    {addr : Address} {entry : Entry} {bytes : List UInt8} (ack : SdoPayload)
    (present : od.entry addr = some entry) (writable : entry.access.isWritable = true)
    (accepts : entry.value.dataType.Accepts bytes.length) :
    server.finishDownload od addr entry.value.dataType bytes bytes.length ack =
      pure ⟨{ server with lastWrite := some addr },
        od.replace addr { entry with value := Value.ofBytes entry.value.dataType bytes },
        some ack⟩ := by
  have writes : od.write addr (Value.ofBytes entry.value.dataType bytes) = .ok (od.replace
      addr { entry with value := Value.ofBytes entry.value.dataType bytes }) :=
    ObjectDictionary.write_eq_ok_iff.mpr ⟨entry, present, writable, by simp, rfl⟩
  rw [finishDownload_eq, if_pos rfl, if_pos accepts]
  simp only [writes]

/-! ## Dispatch -/

theorem handle_downloadInitiate {server : SdoServer} {od : ObjectDictionary N}
    {req : SdoPayload} (initiate : req.get 0 &&& csMask = ccsDownloadInitiate) :
    server.handle od req = server.onDownloadInitiate od req := by
  simp [handle, initiate]

theorem handle_uploadInitiate {server : SdoServer} {od : ObjectDictionary N}
    {req : SdoPayload} (initiate : req.get 0 &&& csMask = ccsUploadInitiate) :
    server.handle od req = server.onUploadInitiate od req := by
  simp only [handle, initiate]
  rfl

theorem handle_downloadSegment {server : SdoServer} {od : ObjectDictionary N}
    {req : SdoPayload} (segment : req.get 0 &&& csMask = ccsDownloadSegment) :
    server.handle od req = server.onDownloadSegment od req := by
  simp only [handle, segment]
  rfl

theorem handle_uploadSegment {server : SdoServer} {od : ObjectDictionary N}
    {req : SdoPayload} (segment : req.get 0 &&& csMask = ccsUploadSegment) :
    server.handle od req = server.onUploadSegment od req := by
  simp only [handle, segment]
  rfl

/-! ## The effects of a request -/

/-- Everything a request can do to the server and the dictionary, with the
response it draws. -/
inductive Effect (server : SdoServer) (od : ObjectDictionary N) (req : SdoPayload) :
    Handled N → Prop
  /-- A refused initiate, or a command that is not known. -/
  | rejected (addr : Address) (code : SdoAbortCode) :
      req.get 0 &&& csMask ≠ ccsDownloadSegment → req.get 0 &&& csMask ≠ ccsUploadSegment →
      req.get 0 &&& csMask ≠ csAbort →
      Effect server od req ⟨server, od, abort addr code⟩
  | clientAbort :
      req.get 0 &&& csMask = csAbort →
      Effect server od req ⟨{ server with transfer := none }, od, none⟩
  | expeditedWrite (entry : Entry) (value : Value) :
      req.get 0 &&& csMask = ccsDownloadInitiate → req.get 0 &&& expedited ≠ 0 →
      od.entry (reqAddress req) = some entry → entry.access.isWritable = true →
      inlineLength req entry.value.dataType ≤ 4 →
      entry.value.dataType.Accepts (inlineLength req entry.value.dataType) →
      value = Value.ofBytes entry.value.dataType (inlineBytes req entry.value.dataType) →
      Effect server od req
        ⟨{ server with lastWrite := some (reqAddress req) },
          od.replace (reqAddress req) { entry with value },
          some (encodeDownloadResponse (reqAddress req))⟩
  | downloadStarted (entry : Entry) :
      req.get 0 &&& csMask = ccsDownloadInitiate → req.get 0 &&& expedited = 0 →
      req.get 0 &&& sizeIndicated ≠ 0 →
      od.entry (reqAddress req) = some entry → entry.access.isWritable = true →
      entry.value.dataType.Accepts (wordOf req).toNat →
      Effect server od req
        ⟨{ server with
            transfer := some (.download (reqAddress req) entry.value.dataType .new
              (wordOf req).toNat false) },
          od, some (encodeDownloadResponse (reqAddress req))⟩
  | expeditedRead (value : Value) (p : SdoPayload) :
      req.get 0 &&& csMask = ccsUploadInitiate → od.read (reqAddress req) = .ok value →
      1 ≤ value.size → value.size ≤ 4 →
      IsExpedited scsUploadInitiate (reqAddress req) value.bytes p →
      Effect server od req ⟨server, od, some p⟩
  | uploadStarted (value : Value) (data : Vector UInt8 maxStringLen) :
      req.get 0 &&& csMask = ccsUploadInitiate → od.read (reqAddress req) = .ok value →
      ¬ (1 ≤ value.size ∧ value.size ≤ 4) → Holds data value.bytes →
      Effect server od req
        ⟨{ server with
            transfer := some (.upload (reqAddress req) data value.size 0 false) },
          od, some (encodeUploadInitiateSegmentedResponse (reqAddress req)
            (UInt32.ofNat value.size))⟩
  | uploadSegment (addr : Address) (data : Vector UInt8 maxStringLen) (len pos : Nat)
      (p : SdoPayload) :
      req.get 0 &&& csMask = ccsUploadSegment →
      server.transfer =
        some (.upload addr data len pos (decide (req.get 0 &&& toggleBit ≠ 0))) →
      pos ≤ len →
      p.get 0 &&& csMask = ccsDownloadSegment →
      segmentOf p = ⟨decide (req.get 0 &&& toggleBit ≠ 0), decide (len - pos ≤ 7),
        (data.toList.take (pos + min (len - pos) 7)).drop pos⟩ →
      Effect server od req
        ⟨{ server with
            transfer := if len - pos ≤ 7 then none
              else some (.upload addr data len (pos + min (len - pos) 7)
                !(decide (req.get 0 &&& toggleBit ≠ 0))) },
          od, some p⟩
  | downloadSegment (addr : Address) (dataType : DataType)
      (buf extended : BoundedVec UInt8 maxStringLen) (declared : Nat) :
      req.get 0 &&& csMask = ccsDownloadSegment →
      server.transfer =
        some (.download addr dataType buf declared (segmentOf req).toggle) →
      (segmentOf req).last = false →
      extended.toList = buf.toList ++ (segmentOf req).data →
      Effect server od req
        ⟨{ server with
            transfer := some (.download addr dataType extended declared
              !(segmentOf req).toggle) },
          od, some (encodeDownloadSegmentResponse (segmentOf req).toggle)⟩
  | downloadFinished (addr : Address) (dataType : DataType)
      (buf : BoundedVec UInt8 maxStringLen) (declared : Nat) (entry : Entry)
      (bytes : List UInt8) :
      req.get 0 &&& csMask = ccsDownloadSegment →
      server.transfer =
        some (.download addr dataType buf declared (segmentOf req).toggle) →
      (segmentOf req).last = true →
      bytes = buf.toList ++ (segmentOf req).data → bytes.length = declared →
      dataType.Accepts bytes.length →
      od.entry addr = some entry → entry.access.isWritable = true →
      entry.value.dataType = dataType →
      Effect server od req
        ⟨{ server with transfer := none, lastWrite := some addr },
          od.replace addr { entry with value := Value.ofBytes dataType bytes },
          some (encodeDownloadSegmentResponse (segmentOf req).toggle)⟩
  /-- A segment out of sequence or of place ends the transfer. -/
  | dropped (addr : Address) (code : SdoAbortCode) :
      req.get 0 &&& csMask = ccsDownloadSegment ∨ req.get 0 &&& csMask = ccsUploadSegment →
      Effect server od req ⟨{ server with transfer := none }, od, abort addr code⟩

theorem onDownloadInitiate_effect (server : SdoServer) (od : ObjectDictionary N)
    {req : SdoPayload} (initiate : req.get 0 &&& csMask = ccsDownloadInitiate) :
    ∃ out, server.onDownloadInitiate od req = pure out ∧ Effect server od req out := by
  have rejected : ∀ addr code, Effect server od req ⟨server, od, abort addr code⟩ := by
    intro addr code
    exact .rejected addr code (by simp [initiate]; decide) (by simp [initiate]; decide)
      (by simp [initiate]; decide)
  cases present : od.entry (reqAddress req) with
  | none => exact ⟨_, onDownloadInitiate_absent server present, rejected _ _⟩
  | some entry =>
      cases writable : entry.access.isWritable with
      | false => exact ⟨_, onDownloadInitiate_readOnly server present writable, rejected _ _⟩
      | true =>
          by_cases segmented : req.get 0 &&& expedited = 0
          · refine ⟨_, onDownloadInitiate_segmented server initiate segmented present writable, ?_⟩
            split
            · exact rejected _ _
            · next sized =>
                split
                · next accepts =>
                    exact .downloadStarted entry initiate segmented sized present writable
                      accepts
                · exact rejected _ _
          · refine ⟨_, onDownloadInitiate_expedited server segmented present writable, ?_⟩
            split
            · next suits =>
                exact .expeditedWrite entry _ initiate segmented present writable suits.1
                  suits.2 rfl
            · exact rejected _ _

theorem onUploadInitiate_effect (server : SdoServer) (od : ObjectDictionary N)
    {req : SdoPayload} (initiate : req.get 0 &&& csMask = ccsUploadInitiate) :
    ∃ out, server.onUploadInitiate od req = pure out ∧ Effect server od req out := by
  cases reads : od.read (reqAddress req) with
  | error error =>
      rcases onUploadInitiate_of_error server reads with ⟨code, equal⟩
      exact ⟨_, equal, .rejected _ code (by simp [initiate]; decide)
        (by simp [initiate]; decide) (by simp [initiate]; decide)⟩
  | ok value =>
      by_cases small : 1 ≤ value.size ∧ value.size ≤ 4
      · rcases onUploadInitiate_expedited server reads small.1 small.2 with
          ⟨p, equal, fields⟩
        exact ⟨_, equal, .expeditedRead value p initiate reads small.1 small.2 fields⟩
      · rcases onUploadInitiate_segmented server reads small with
          ⟨data, equal, holds⟩
        exact ⟨_, equal, .uploadStarted value data initiate reads small holds⟩

theorem onDownloadSegment_effect (server : SdoServer) (od : ObjectDictionary N)
    {req : SdoPayload} (segment : req.get 0 &&& csMask = ccsDownloadSegment) :
    ∃ out, server.onDownloadSegment od req = pure out ∧ Effect server od req out := by
  have dropped : ∀ addr code,
      Effect server od req ⟨{ server with transfer := none }, od, abort addr code⟩ :=
    fun addr code => .dropped addr code (.inl segment)
  have decoded : decodeDataSegment req = pure (.ok (segmentOf req)) := by
    rw [decodeDataSegment_eq, if_pos segment]
  rw [onDownloadSegment, decoded, pure_bind]
  cases current : server.transfer with
  | none => exact ⟨_, rfl, dropped _ _⟩
  | some transfer =>
      cases transfer with
      | upload => exact ⟨_, rfl, dropped _ _⟩
      | download addr dataType buf declared toggle =>
          by_cases inSequence : (segmentOf req).toggle = toggle
          · subst inSequence
            simp only [ne_eq, not_true_eq_false, if_false]
            cases extends_ : buf.extendFromSlice (segmentOf req).data with
            | none => exact ⟨_, rfl, dropped _ _⟩
            | some extended =>
                have content := BoundedVec.extendFromSlice_eq_some_iff.mp extends_
                cases last : (segmentOf req).last with
                | false =>
                    exact ⟨_, rfl, .downloadSegment addr dataType buf extended declared
                      segment current last content⟩
                | true =>
                    simp only [if_true, finishDownload_eq]
                    refine ⟨_, rfl, ?_⟩
                    split
                    · next complete =>
                        split
                        · next accepts =>
                            split
                            · next written writes =>
                                rcases ObjectDictionary.write_eq_ok_iff.mp writes with
                                  ⟨entry, present, writable, sameType, rfl⟩
                                exact .downloadFinished addr dataType buf declared entry
                                  extended.toList segment current last content complete
                                  accepts present writable (by simpa using sameType)
                            · exact dropped _ _
                            · exact dropped _ _
                        · exact dropped _ _
                    · exact dropped _ _
          · simp only [ne_eq, inSequence, not_false_eq_true, if_true]
            exact ⟨_, rfl, dropped _ _⟩

theorem onUploadSegment_effect {server : SdoServer} {od : ObjectDictionary N}
    {req : SdoPayload} {out : Handled N} (segment : req.get 0 &&& csMask = ccsUploadSegment)
    (returns : server.onUploadSegment od req = pure out) : Effect server od req out := by
  have dropped : ∀ addr code,
      Effect server od req ⟨{ server with transfer := none }, od, abort addr code⟩ :=
    fun addr code => .dropped addr code (.inr segment)
  cases current : server.transfer with
  | none =>
      simp only [onUploadSegment, current, Exec.pure_inj] at returns
      subst out
      exact dropped _ _
  | some transfer =>
      cases transfer with
      | download =>
          simp only [onUploadSegment, current, Exec.pure_inj] at returns
          subst out
          exact dropped _ _
      | upload addr data len pos toggle =>
          by_cases inSequence : decide (req.get 0 &&& toggleBit ≠ 0) = toggle
          · by_cases posLe : pos ≤ len
            · by_cases within : pos + min (len - pos) 7 ≤ maxStringLen
              · rcases onUploadSegment_inSequence od current inSequence posLe within
                  with ⟨p, equal, specifier, carries⟩
                rw [equal, Exec.pure_inj] at returns
                subst returns inSequence
                exact .uploadSegment addr data len pos p segment current posLe specifier
                  carries
              · have panics : Exec.slice data.toList pos (pos + min (len - pos) 7) =
                    throw .sliceOutOfBounds := by
                  simp [Exec.slice, within]
                simp only [onUploadSegment, current, inSequence, ne_eq, not_true_eq_false,
                  if_false, Exec.checkedSub_of_le posLe, pure_bind, segmentDataMax,
                  panics] at returns
                cases returns
            · have panics : Exec.checkedSub len pos = throw .arithmeticOverflow := by
                simp [Exec.checkedSub, posLe]
              simp only [onUploadSegment, current, inSequence, ne_eq, not_true_eq_false,
                if_false, panics] at returns
              cases returns
          · rw [onUploadSegment_outOfSequence current inSequence, Exec.pure_inj] at returns
            subst out
            exact dropped _ _

theorem handle_effect {server : SdoServer} {od : ObjectDictionary N} {req : SdoPayload}
    {out : Handled N} (returns : server.handle od req = pure out) :
    Effect server od req out := by
  have of_exists : ∀ {action : Exec (Handled N)}, action = pure out →
      (∃ result, action = pure result ∧ Effect server od req result) →
      Effect server od req out := by
    rintro action equal ⟨result, resultEqual, effect⟩
    rw [equal, Exec.pure_inj] at resultEqual
    exact resultEqual ▸ effect
  simp only [handle] at returns
  split at returns
  · next initiate => exact of_exists returns (onDownloadInitiate_effect server od initiate)
  · split at returns
    · next initiate => exact of_exists returns (onUploadInitiate_effect server od initiate)
    · split at returns
      · next segment => exact of_exists returns (onDownloadSegment_effect server od segment)
      · split at returns
        · next segment => exact onUploadSegment_effect segment returns
        · split at returns
          · next aborts =>
              rw [Exec.pure_inj] at returns
              exact returns ▸ .clientAbort aborts
          · next notDownload notUpload notAbort =>
              rw [Exec.pure_inj] at returns
              exact returns ▸ .rejected _ _ notDownload notUpload notAbort

theorem Effect.masterChange {server : SdoServer} {od : ObjectDictionary N}
    {req : SdoPayload} {out : Handled N} (effect : Effect server od req out) :
    ObjectDictionary.MasterChange od out.od := by
  cases effect with
  | rejected | clientAbort | downloadStarted | expeditedRead | uploadStarted | uploadSegment
  | downloadSegment | dropped => exact .refl od
  | expeditedWrite entry value _ _ present writable _ _ decoded =>
      subst decoded
      exact ObjectDictionary.masterChange_write (ObjectDictionary.write_eq_ok_iff.mpr
        ⟨entry, present, writable, (Value.dataType_ofBytes _ _).symm, rfl⟩)
  | downloadFinished addr dataType _ _ entry bytes _ _ _ _ _ _ present writable sameType =>
      exact ObjectDictionary.masterChange_write (ObjectDictionary.write_eq_ok_iff.mpr
        ⟨entry, present, writable, sameType.trans (Value.dataType_ofBytes _ _).symm, rfl⟩)

theorem Effect.node {server : SdoServer} {od : ObjectDictionary N} {req : SdoPayload}
    {out : Handled N} (effect : Effect server od req out) : out.server.node = server.node := by
  cases effect <;> rfl

theorem Effect.reports {server : SdoServer} {od : ObjectDictionary N} {req : SdoPayload}
    {out : Handled N} (effect : Effect server od req out) :
    (out.server.lastWrite = server.lastWrite ∧ out.od = od) ∨
      ∃ addr entry, out.server.lastWrite = some addr ∧ out.od = od.replace addr entry := by
  cases effect with
  | rejected | clientAbort | downloadStarted | expeditedRead | uploadStarted | uploadSegment
  | downloadSegment | dropped => exact .inl ⟨rfl, rfl⟩
  | expeditedWrite | downloadFinished => exact .inr ⟨_, _, rfl, rfl⟩

theorem Effect.response_eq_none_iff {server : SdoServer} {od : ObjectDictionary N}
    {req : SdoPayload} {out : Handled N} (effect : Effect server od req out) :
    out.response = none ↔ req.get 0 &&& csMask = csAbort := by
  have answered : ∀ {specifier : UInt8} {response : SdoPayload},
      req.get 0 &&& csMask = specifier → specifier ≠ csAbort →
      (some response = none ↔ req.get 0 &&& csMask = csAbort) := by
    intro specifier response carries different
    rw [carries]
    simp [different]
  cases effect with
  | clientAbort aborts => simp [aborts]
  | rejected addr code _ _ notAbort => simp [SdoServer.abort, notAbort]
  | expeditedWrite _ _ initiate | downloadStarted _ initiate | expeditedRead _ _ initiate
  | uploadStarted _ _ initiate =>
      exact answered initiate (by decide)
  | uploadSegment _ _ _ _ _ segment | downloadSegment _ _ _ _ _ segment
  | downloadFinished _ _ _ _ _ _ segment => exact answered segment (by decide)
  | dropped _ _ segment =>
      rcases segment with segment | segment
      · exact answered segment (by decide)
      · exact answered segment (by decide)

/-! ## Absence of panics -/

def Valid (server : SdoServer) : Prop :=
  ∀ addr data len pos toggle, server.transfer = some (.upload addr data len pos toggle) →
    pos ≤ len ∧ len ≤ maxStringLen

theorem valid_new (node : NodeId) : (new node).Valid := by
  intro addr data len pos toggle current
  cases current

theorem handle_returns {server : SdoServer} (valid : server.Valid)
    (od : ObjectDictionary N) (req : SdoPayload) :
    ∃ out, server.handle od req = pure out := by
  simp only [handle]
  split
  · next initiate =>
      rcases onDownloadInitiate_effect server od initiate with
        ⟨out, equal, _⟩
      exact ⟨out, equal⟩
  · split
    · next initiate =>
        rcases onUploadInitiate_effect server od initiate with
          ⟨out, equal, _⟩
        exact ⟨out, equal⟩
    · split
      · next segment =>
          rcases onDownloadSegment_effect server od segment with
            ⟨out, equal, _⟩
          exact ⟨out, equal⟩
      · split
        · cases current : server.transfer with
          | none =>
              simp only [onUploadSegment, current]
              exact ⟨_, rfl⟩
          | some transfer =>
              cases transfer with
              | download =>
                  simp only [onUploadSegment, current]
                  exact ⟨_, rfl⟩
              | upload addr data len pos toggle =>
                  rcases valid _ _ _ _ _ current with ⟨posLe, lenLe⟩
                  by_cases inSequence : decide (req.get 0 &&& toggleBit ≠ 0) = toggle
                  · rcases onUploadSegment_inSequence od current inSequence posLe
                      (by omega) with ⟨p, equal, _⟩
                    exact ⟨_, equal⟩
                  · exact ⟨_, onUploadSegment_outOfSequence current inSequence⟩
        · split <;> exact ⟨_, rfl⟩

theorem Effect.valid {server : SdoServer} {od : ObjectDictionary N} {req : SdoPayload}
    {out : Handled N} (effect : Effect server od req out) (before : server.Valid) :
    out.server.Valid := by
  cases effect with
  | rejected | expeditedRead => exact before
  | clientAbort | dropped | downloadStarted | downloadSegment | downloadFinished =>
      intro addr data len pos toggle current
      cases current
  | expeditedWrite =>
      intro addr data len pos toggle current
      exact before addr data len pos toggle current
  | uploadStarted value data =>
      intro addr data len pos toggle current
      cases current
      exact ⟨Nat.zero_le _, value.size_le⟩
  | uploadSegment addr data len pos p _ current posLe =>
      intro nextAddr nextData nextLen nextPos nextToggle next
      have bounds := before _ _ _ _ _ current
      simp only at next
      split at next
      · cases next
      · cases next
        exact ⟨by omega, bounds.2⟩

end SdoServer

end CanOpen.Sdo
