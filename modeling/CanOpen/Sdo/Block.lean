import CanOpen.Foundation.BoundedVec
import CanOpen.Sdo.Codec

/-! # Block transfer

The frames of a block transfer, its checksum, and the helpers that split data into
sub-blocks of segments and put it together again.
-/

namespace CanOpen.Sdo.Block

/-! ## Command specifiers -/

def cs6 : UInt8 := 0xC0
def cs5 : UInt8 := 0xA0
def csMask : UInt8 := 0xE0

def crcSupported : UInt8 := 0x04
def sizeIndicated : UInt8 := 0x02

def subcmdMask : UInt8 := 0x03
def subcmdInitiate : UInt8 := 0x00
def subcmdEnd : UInt8 := 0x01
def subcmdResponse : UInt8 := 0x02
def subcmdStart : UInt8 := 0x03

def lastSegment : UInt8 := 0x80
def seqnoMask : UInt8 := 0x7F

def maxBlksize : UInt8 := 127

/-! ## Checksum -/

def crcBit (crc : UInt16) : UInt16 :=
  if crc &&& 0x8000 ≠ 0 then (crc <<< 1) ^^^ 0x1021 else crc <<< 1

def crcByte (crc : UInt16) (byte : UInt8) : UInt16 :=
  Nat.repeat crcBit 8 (crc ^^^ (byte.toUInt16 <<< 8))

def crc16 (data : List UInt8) : UInt16 := data.foldl crcByte 0

example : crc16 [0x31, 0x32, 0x33, 0x34, 0x35, 0x36, 0x37, 0x38, 0x39] = 0x31C3 := by
  decide +kernel

/-! ## Initiate handshake -/

structure BlockInitiate where
  address : Address
  size : Option UInt32
  crcSupport : Bool
  deriving DecidableEq, Repr

structure BlockNegotiation where
  address : Address
  blksize : UInt8
  crcSupport : Bool
  deriving DecidableEq, Repr

def encodeInitiateWithSize (cs : UInt8) (addr : Address) (size : Option UInt32) (crc : Bool) :
    SdoPayload :=
  let command := cs ||| subcmdInitiate
  let command := if crc then command ||| crcSupported else command
  match size with
  | some size => addressed (command ||| sizeIndicated) addr size
  | none => addressed command addr 0

def decodeInitiateWithSize (cs : UInt8) (p : SdoPayload) : Except Error BlockInitiate :=
  -- Bit 1 is the size flag here, so that bit 0 alone is the sub-command.
  if p.get 0 &&& csMask ≠ cs ∨ p.get 0 &&& subcmdEnd ≠ 0 then .error .unexpectedCommand
  else .ok
    { address := addressOf p
      size := if p.get 0 &&& sizeIndicated ≠ 0 then some (wordOf p) else none
      crcSupport := p.get 0 &&& crcSupported ≠ 0 }

def encodeInitiateWithBlksize (cs : UInt8) (addr : Address) (blksize : UInt8) (crc : Bool) :
    SdoPayload :=
  let command := cs ||| subcmdInitiate
  let command := if crc then command ||| crcSupported else command
  addressed command addr blksize.toUInt32

def decodeInitiateWithBlksize (cs : UInt8) (p : SdoPayload) : Except Error BlockNegotiation :=
  if p.get 0 &&& csMask ≠ cs ∨ p.get 0 &&& subcmdMask ≠ subcmdInitiate then
    .error .unexpectedCommand
  else .ok
    { address := addressOf p
      blksize := p.get 4
      crcSupport := p.get 0 &&& crcSupported ≠ 0 }

def encodeDownloadInitiate (addr : Address) (size : Option UInt32) (crcSupport : Bool) :
    SdoPayload :=
  encodeInitiateWithSize cs6 addr size crcSupport

def decodeDownloadInitiate (p : SdoPayload) : Except Error BlockInitiate :=
  decodeInitiateWithSize cs6 p

def encodeDownloadInitiateResponse (addr : Address) (blksize : UInt8) (crcSupport : Bool) :
    SdoPayload :=
  encodeInitiateWithBlksize cs5 addr blksize crcSupport

def decodeDownloadInitiateResponse (p : SdoPayload) : Except Error BlockNegotiation :=
  decodeInitiateWithBlksize cs5 p

def encodeUploadInitiate (addr : Address) (blksize : UInt8) (crcSupport : Bool) : SdoPayload :=
  encodeInitiateWithBlksize cs5 addr blksize crcSupport

def decodeUploadInitiate (p : SdoPayload) : Except Error BlockNegotiation :=
  decodeInitiateWithBlksize cs5 p

def encodeUploadInitiateResponse (addr : Address) (size : Option UInt32) (crcSupport : Bool) :
    SdoPayload :=
  encodeInitiateWithSize cs6 addr size crcSupport

def decodeUploadInitiateResponse (p : SdoPayload) : Except Error BlockInitiate :=
  decodeInitiateWithSize cs6 p

/-! ## Frames that carry a sub-command -/

def commandFrame (command first second : UInt8) : SdoPayload :=
  #v[command, first, second, 0, 0, 0, 0, 0]

def HasSubcmd (cs subcmd : UInt8) (p : SdoPayload) : Prop :=
  p.get 0 &&& csMask = cs ∧ p.get 0 &&& subcmdMask = subcmd

instance (cs subcmd : UInt8) (p : SdoPayload) : Decidable (HasSubcmd cs subcmd p) := by
  unfold HasSubcmd
  infer_instance

def encodeUploadStart : SdoPayload := commandFrame (cs5 ||| subcmdStart) 0 0

def decodeUploadStart (p : SdoPayload) : Except Error Unit :=
  if HasSubcmd cs5 subcmdStart p then .ok () else .error .unexpectedCommand

def encodeSubResponse (ackseq blksize : UInt8) : SdoPayload :=
  commandFrame (cs5 ||| subcmdResponse) ackseq blksize

def decodeSubResponse (p : SdoPayload) : Except Error (UInt8 × UInt8) :=
  if HasSubcmd cs5 subcmdResponse p then .ok (p.get 1, p.get 2) else .error .unexpectedCommand

/-- The end of a transfer: how many bytes of the last segment carry no data, and the
checksum. -/
def encodeEnd (unused : UInt8) (crc : UInt16) : SdoPayload :=
  commandFrame (cs6 ||| ((unused &&& 0x07) <<< 2) ||| subcmdEnd)
    (LittleEndian.byteAt crc.toNat 0) (LittleEndian.byteAt crc.toNat 1)

def decodeEnd (p : SdoPayload) : Except Error (UInt8 × UInt16) :=
  if HasSubcmd cs6 subcmdEnd p then
    .ok ((p.get 0 >>> 2) &&& 0x07, UInt16.ofNat (LittleEndian.decode [p.get 1, p.get 2]))
  else .error .unexpectedCommand

def encodeEndResponse : SdoPayload := commandFrame (cs5 ||| subcmdEnd) 0 0

def decodeEndResponse (p : SdoPayload) : Except Error Unit :=
  if HasSubcmd cs5 subcmdEnd p then .ok () else .error .unexpectedCommand

/-! ## Segments of a sub-block -/

structure SubSegment where
  seqno : UInt8
  last : Bool
  data : List UInt8
  deriving DecidableEq, Repr

def encodeSubSegment (seqno : UInt8) (data : List UInt8) (last : Bool) :
    Exec (Except Error SdoPayload) :=
  if seqno = 0 ∨ maxBlksize < seqno ∨ data.isEmpty ∨ segmentDataMax < data.length then
    pure (.error .badLength)
  else do
    let command := if last then seqno ||| lastSegment else seqno
    let p : SdoPayload := #v[command, 0, 0, 0, 0, 0, 0, 0]
    let p ← Exec.overwrite p 1 (1 + data.length) data
    pure (.ok p)

def decodeSubSegment (p : SdoPayload) : SubSegment where
  seqno := p.get 0 &&& seqnoMask
  last := p.get 0 &&& lastSegment ≠ 0
  data := p.toList.drop 1

/-! ## Splitting data -/

structure BlockWriter where
  data : List UInt8
  pos : Nat
  seqno : UInt8
  blksize : UInt8
  deriving DecidableEq, Repr

namespace BlockWriter

def new (data : List UInt8) (blksize : UInt8) : BlockWriter := ⟨data, 0, 1, blksize⟩

def isDone (writer : BlockWriter) : Bool := decide (writer.data.length ≤ writer.pos)

def nextSegment (writer : BlockWriter) : Exec (BlockWriter × Option SdoPayload) :=
  if writer.isDone ∨ writer.blksize < writer.seqno then pure (writer, none)
  else do
    let remaining ← Exec.checkedSub writer.data.length writer.pos
    let take := min remaining segmentDataMax
    let last := decide (remaining ≤ segmentDataMax)
    let window ← Exec.slice writer.data writer.pos (writer.pos + take)
    let segment ← Exec.expect (← encodeSubSegment writer.seqno window last)
    let seqno ← Exec.checkedSucc writer.seqno
    pure ({ writer with pos := writer.pos + take, seqno }, some segment)

def startSubBlock (writer : BlockWriter) (blksize : UInt8) : BlockWriter :=
  { writer with seqno := 1, blksize }

def endFrame (writer : BlockWriter) (crcSupport : Bool) : Exec SdoPayload := do
  let rest := writer.data.length % segmentDataMax
  let lastLen := if rest = 0 ∧ ¬ writer.data.isEmpty then segmentDataMax else rest
  let unused ← Exec.checkedSub segmentDataMax lastLen
  let crc := if crcSupport then crc16 writer.data else 0
  pure (encodeEnd (UInt8.ofNat unused) crc)

end BlockWriter

/-! ## Putting data together -/

structure BlockReceiver (N : Nat) where
  buf : BoundedVec UInt8 N
  done : Bool
  deriving DecidableEq, Repr

namespace BlockReceiver

variable {N : Nat}

def new : BlockReceiver N := ⟨.new, false⟩

def isDone (receiver : BlockReceiver N) : Bool := receiver.done

/-- Append the bytes of a segment. The receiver is left as it is when it refuses one. -/
def push (receiver : BlockReceiver N) (segment : SubSegment) :
    Except Error (BlockReceiver N) :=
  if receiver.done then .error .unexpectedCommand
  else
    match receiver.buf.extendFromSlice segment.data with
    | none => .error .overflow
    | some buf => .ok { buf, done := if segment.last then true else receiver.done }

/-- Trim the unused bytes and check the checksum if asked to. The bytes are trimmed even
if the checksum is wrong. -/
def finish (receiver : BlockReceiver N) (unused : UInt8) (crc : UInt16) (verifyCrc : Bool) :
    Exec (BlockReceiver N × Except Error (List UInt8)) :=
  let unused := unused.toNat
  if receiver.buf.len < unused then pure (receiver, .error .badLength)
  else do
    let kept ← Exec.checkedSub receiver.buf.len unused
    let receiver := { receiver with buf := receiver.buf.truncate kept }
    if verifyCrc ∧ crc16 receiver.buf.toList ≠ crc then
      pure (receiver, .error .crcMismatch)
    else pure (receiver, .ok receiver.buf.toList)

end BlockReceiver

/-! ## What the frames carry -/

theorem decodeInitiateWithSize_encode {cs : UInt8} (known : cs = cs5 ∨ cs = cs6)
    (addr : Address) (size : Option UInt32) (crc : Bool) :
    decodeInitiateWithSize cs (encodeInitiateWithSize cs addr size crc) =
      .ok ⟨addr, size, crc⟩ := by
  have command : ∀ crc sized : Bool,
      let command := if crc then cs ||| subcmdInitiate ||| crcSupported else cs ||| subcmdInitiate
      let command := if sized then command ||| sizeIndicated else command
      command &&& csMask = cs ∧ command &&& subcmdEnd = 0 ∧
        (command &&& sizeIndicated ≠ 0 ↔ sized) ∧ (command &&& crcSupported ≠ 0 ↔ crc) := by
    rcases known with rfl | rfl <;> decide
  unfold encodeInitiateWithSize decodeInitiateWithSize
  cases size with
  | some size =>
      have fields := command crc true
      simp only [if_true] at fields
      simp [fields]
  | none =>
      have fields := command crc false
      simp at fields
      simp [fields]

theorem decodeInitiateWithBlksize_encode (addr : Address) (blksize : UInt8) (crc : Bool) :
    decodeInitiateWithBlksize cs5 (encodeInitiateWithBlksize cs5 addr blksize crc) =
      .ok ⟨addr, blksize, crc⟩ := by
  have fourth : ∀ command, (addressed command addr blksize.toUInt32).get 4 = blksize := by
    intro command
    have field : (addressed command addr blksize.toUInt32).get 4 =
        LittleEndian.byteAt blksize.toUInt32.toNat 0 := rfl
    rw [field, LittleEndian.byteAt]
    simp
  cases crc <;>
    simp [encodeInitiateWithBlksize, decodeInitiateWithBlksize, fourth] <;> rfl

theorem decodeSubResponse_encode (ackseq blksize : UInt8) :
    decodeSubResponse (encodeSubResponse ackseq blksize) = .ok (ackseq, blksize) := by
  have command : (encodeSubResponse ackseq blksize).get 0 = cs5 ||| subcmdResponse := rfl
  have subcmd : HasSubcmd cs5 subcmdResponse (encodeSubResponse ackseq blksize) := by
    rw [HasSubcmd, command]
    decide
  rw [decodeSubResponse, if_pos subcmd]
  rfl

theorem decodeEnd_encode {unused : UInt8} (few : unused ≤ 7) (crc : UInt16) :
    decodeEnd (encodeEnd unused crc) = .ok (unused, crc) := by
  have fields : let command := cs6 ||| ((unused &&& 0x07) <<< 2) ||| subcmdEnd
      command &&& csMask = cs6 ∧ command &&& subcmdMask = subcmdEnd ∧
        (command >>> 2) &&& 0x07 = unused := by
    apply LittleEndian.byte_of_forall _ unused (Nat.lt_succ_of_le (UInt8.le_iff_toNat_le.mp few))
    decide
  have subcmd : HasSubcmd cs6 subcmdEnd (encodeEnd unused crc) := ⟨fields.1, fields.2.1⟩
  have carried : UInt16.ofNat (LittleEndian.decode
      [(encodeEnd unused crc).get 1, (encodeEnd unused crc).get 2]) = crc :=
    (congrArg UInt16.ofNat (LittleEndian.decode_byteAt_uInt16 crc)).trans (UInt16.ofNat_toNat)
  rw [decodeEnd, if_pos subcmd, carried]
  exact congrArg (fun unused => Except.ok (unused, crc)) fields.2.2

private theorem segmentByte_fields {seqno : UInt8} (within : seqno ≤ maxBlksize) :
    ∀ last : Bool,
      let byte := if last then seqno ||| lastSegment else seqno
      byte &&& seqnoMask = seqno ∧ (byte &&& lastSegment ≠ 0 ↔ last) := by
  apply LittleEndian.byte_of_forall _ seqno
    (Nat.lt_succ_of_le (UInt8.le_iff_toNat_le.mp within))
  decide +kernel

theorem encodeSubSegment_eq {seqno : UInt8} {data : List UInt8} (last : Bool)
    (positive : 1 ≤ seqno) (within : seqno ≤ maxBlksize) (some : data ≠ [])
    (fits : data.length ≤ segmentDataMax) :
    ∃ p, encodeSubSegment seqno data last = pure (.ok p) ∧
      decodeSubSegment p =
        ⟨seqno, last, data ++ List.replicate (segmentDataMax - data.length) 0⟩ := by
  let command := if last then seqno ||| lastSegment else seqno
  rcases overwrite_blank command fits with ⟨p, written, first, listed⟩
  have fields := segmentByte_fields within last
  refine ⟨p, ?_, ?_⟩
  · have nonzero : seqno ≠ 0 := by
      rintro rfl
      exact absurd positive (by decide)
    have accepted : ¬ (seqno = 0 ∨ maxBlksize < seqno ∨ data.isEmpty ∨
        segmentDataMax < data.length) := by
      rw [not_or, not_or, not_or]
      exact ⟨nonzero, UInt8.not_lt.mpr within, by simpa using some, not_lt.mpr fits⟩
    rw [encodeSubSegment, if_neg accepted]
    simp only
    rw [written, pure_bind]
  · have marked : decide (p.get 0 &&& lastSegment ≠ 0) = last := by
      rw [first, Bool.eq_iff_iff, decide_eq_true_iff]
      exact fields.2
    rw [decodeSubSegment, marked, first, listed]
    exact congrArg (SubSegment.mk · _ _) fields.1

end CanOpen.Sdo.Block
