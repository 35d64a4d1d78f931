import CanOpen.Foundation.BoundedVec
import CanOpen.Sdo.Codec

/-! # The SDO server

Services requests against an object dictionary, holding the state of a
segmented transfer between frames.
-/

namespace CanOpen.Sdo

inductive Transfer where
  /-- The client is reading from us. -/
  | upload (addr : Address) (data : Vector UInt8 maxStringLen) (len pos : Nat)
      (toggle : Bool)
  /-- The client is writing to us. -/
  | download (addr : Address) (dataType : DataType) (buf : BoundedVec UInt8 maxStringLen)
      (declared : Nat) (toggle : Bool)
  deriving DecidableEq

structure SdoServer where
  node : NodeId
  transfer : Option Transfer
  lastWrite : Option Address
  deriving DecidableEq

structure Handled (N : Nat) where
  server : SdoServer
  od : ObjectDictionary N
  response : Option SdoPayload

namespace SdoServer

variable {N : Nat}

def new (node : NodeId) : SdoServer := ⟨node, none, none⟩

def requestCobId (server : SdoServer) : UInt16 := Sdo.requestCobId server.node

def responseCobId (server : SdoServer) : UInt16 := Sdo.responseCobId server.node

def isBusy (server : SdoServer) : Bool := server.transfer.isSome

def takeWrite (server : SdoServer) : Option Address × SdoServer :=
  (server.lastWrite, { server with lastWrite := none })

def reqAddress (req : SdoPayload) : Address := addressOf req

def abort (addr : Address) (code : SdoAbortCode) : Option SdoPayload :=
  some (encodeAbort addr code)

/-- Write `value` to `od`, recording the address on success and mapping
dictionary errors to aborts. -/
def writeValue (server : SdoServer) (od : ObjectDictionary N) (addr : Address)
    (value : Value) : Handled N :=
  match od.write addr value with
  | .ok od => ⟨{ server with lastWrite := some addr }, od, some (encodeDownloadResponse addr)⟩
  | .error .readOnly => ⟨server, od, abort addr .writeOfReadOnly⟩
  | .error .typeMismatch => ⟨server, od, abort addr .dataTypeMismatchLengthHigh⟩
  | .error _ => ⟨server, od, abort addr .general⟩

def expeditedLength (req : SdoPayload) (dataType : DataType) : Exec Nat :=
  if req.get 0 &&& sizeIndicated ≠ 0 then
    Exec.checkedSub 4 ((req.get 0 >>> 2) &&& 0x03).toNat
  else pure (dataType.fixedSize.getD 0)

def onDownloadExpedited (server : SdoServer) (od : ObjectDictionary N) (req : SdoPayload)
    (addr : Address) (dataType : DataType) : Exec (Handled N) := do
  let len ← expeditedLength req dataType
  -- Guards the slice below when a larger object is written without a size.
  if 4 < len then pure ⟨server, od, abort addr .dataTypeMismatchLengthHigh⟩
  else if dataType.fixedSize.any (len ≠ ·) then
    pure ⟨server, od, abort addr .dataTypeMismatchLengthHigh⟩
  else do
    let inline_ ← Exec.slice req.toList 4 (4 + len)
    match ← Value.decodeLe dataType inline_ with
    | .ok value => pure (server.writeValue od addr value)
    | .error _ => pure ⟨server, od, abort addr .general⟩

def sizeSuits (dataType : DataType) (size : Nat) : Bool :=
  match dataType.fixedSize with
  | some fixed => size == fixed
  | none => size ≤ maxStringLen

def onDownloadSegmented (server : SdoServer) (od : ObjectDictionary N) (req : SdoPayload)
    (addr : Address) (dataType : DataType) : Handled N :=
  match decodeDownloadInitiateSegmented req with
  | .error _ => ⟨server, od, abort addr .commandInvalid⟩
  | .ok (_, size) =>
      if !sizeSuits dataType size.toNat then ⟨server, od, abort addr .dataTypeMismatchLengthHigh⟩
      else
        ⟨{ server with transfer := some (.download addr dataType .new size.toNat false) },
          od, some (encodeDownloadResponse addr)⟩

def onDownloadInitiate (server : SdoServer) (od : ObjectDictionary N)
    (req : SdoPayload) : Exec (Handled N) :=
  let addr := reqAddress req
  match od.entry addr with
  | none => pure ⟨server, od, abort addr .objectDoesNotExist⟩
  | some entry =>
      if !entry.access.isWritable then pure ⟨server, od, abort addr .writeOfReadOnly⟩
      else if req.get 0 &&& expedited ≠ 0 then
        server.onDownloadExpedited od req addr entry.value.dataType
      else pure (server.onDownloadSegmented od req addr entry.value.dataType)

def onUploadInitiate (server : SdoServer) (od : ObjectDictionary N)
    (req : SdoPayload) : Exec (Handled N) :=
  let addr := reqAddress req
  match od.read addr with
  | .error .objectNotFound => pure ⟨server, od, abort addr .objectDoesNotExist⟩
  | .error .writeOnly => pure ⟨server, od, abort addr .readOfWriteOnly⟩
  | .error _ => pure ⟨server, od, abort addr .general⟩
  | .ok value =>
      let size := value.size
      if 1 ≤ size ∧ size ≤ 4 then do
        let encoded ← encodeUploadExpeditedResponse addr value
        let response ← Exec.expect encoded
        pure ⟨server, od, some response⟩
      else do
        let (result, data) ← value.encodeWindow (Vector.replicate maxStringLen 0) 0 size
        let _ ← Exec.expect result
        pure ⟨{ server with transfer := some (.upload addr data size 0 false) }, od,
          some (encodeUploadInitiateSegmentedResponse addr (UInt32.ofNat size))⟩

def onUploadSegment (server : SdoServer) (od : ObjectDictionary N) (req : SdoPayload) :
    Exec (Handled N) :=
  let wantToggle : Bool := req.get 0 &&& toggleBit ≠ 0
  let taken := { server with transfer := none }
  match server.transfer with
  | some (.upload addr data len pos toggle) =>
      if wantToggle ≠ toggle then pure ⟨taken, od, abort addr .toggleBitNotAlternated⟩
      else do
        let remaining ← Exec.checkedSub len pos
        let n := min remaining segmentDataMax
        let last : Bool := remaining ≤ segmentDataMax
        let window ← Exec.slice data.toList pos (pos + n)
        let encoded ← encodeDataSegment window toggle last
        let seg ← Exec.expect encoded
        if !last then
          pure ⟨{ taken with transfer := some (.upload addr data len (pos + n) !toggle) },
            od, some seg⟩
        else pure ⟨taken, od, some seg⟩
  | _ => pure ⟨taken, od, abort ⟨0, 0⟩ .commandInvalid⟩

def finishDownload (server : SdoServer) (od : ObjectDictionary N) (addr : Address)
    (dataType : DataType) (bytes : List UInt8) (declared : Nat) (ack : SdoPayload) :
    Exec (Handled N) :=
  if bytes.length ≠ declared then
    pure ⟨server, od, abort addr .dataTypeMismatchLengthLow⟩
  else do
    match ← Value.decodeLe dataType bytes with
    | .error _ => pure ⟨server, od, abort addr .general⟩
    | .ok value =>
        match od.write addr value with
        | .ok od => pure ⟨{ server with lastWrite := some addr }, od, some ack⟩
        | .error .readOnly => pure ⟨server, od, abort addr .writeOfReadOnly⟩
        | .error _ => pure ⟨server, od, abort addr .general⟩

def onDownloadSegment (server : SdoServer) (od : ObjectDictionary N) (req : SdoPayload) :
    Exec (Handled N) := do
  match ← decodeDataSegment req with
  | .error _ => pure ⟨server, od, abort ⟨0, 0⟩ .commandInvalid⟩
  | .ok seg =>
      let taken := { server with transfer := none }
      match server.transfer with
      | some (.download addr dataType buf declared toggle) =>
          if seg.toggle ≠ toggle then
            pure ⟨taken, od, abort addr .toggleBitNotAlternated⟩
          else
            match buf.extendFromSlice seg.data with
            | none => pure ⟨taken, od, abort addr .dataTypeMismatchLengthHigh⟩
            | some buf =>
                let ack := encodeDownloadSegmentResponse seg.toggle
                if seg.last then
                  taken.finishDownload od addr dataType buf.toList declared ack
                else
                  pure ⟨{ taken with
                      transfer := some (.download addr dataType buf declared !toggle) },
                    od, some ack⟩
      | _ => pure ⟨taken, od, abort ⟨0, 0⟩ .commandInvalid⟩

def handle (server : SdoServer) (od : ObjectDictionary N) (req : SdoPayload) :
    Exec (Handled N) :=
  let specifier := req.get 0 &&& csMask
  if specifier = ccsDownloadInitiate then server.onDownloadInitiate od req
  else if specifier = ccsUploadInitiate then server.onUploadInitiate od req
  else if specifier = ccsDownloadSegment then server.onDownloadSegment od req
  else if specifier = ccsUploadSegment then server.onUploadSegment od req
  else if specifier = csAbort then pure ⟨{ server with transfer := none }, od, none⟩
  else pure ⟨server, od, abort (reqAddress req) .commandInvalid⟩

end SdoServer

end CanOpen.Sdo
