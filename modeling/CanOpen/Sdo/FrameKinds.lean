import CanOpen.Sdo.Block

/-! # The kinds of frames

Every frame of the expedited, segmented and block transfers decodes to what it was made
of. Sub-block segments aside, its first byte tells it apart from all other kinds of frames
that travel in the same direction.
-/

namespace CanOpen.Sdo

/-! ## Kinds, frames and their decoders -/

inductive Direction where
  | toServer
  | toClient
  deriving DecidableEq, Repr

inductive FrameKind where
  | downloadExpedited
  | downloadResponse
  | uploadRequest
  | uploadExpeditedResponse
  | abort
  | downloadInitiateSegmented
  | uploadInitiateSegmentedResponse
  | dataSegment
  | downloadSegmentResponse
  | uploadSegmentRequest
  | blockDownloadInitiate
  | blockDownloadInitiateResponse
  | blockUploadInitiate
  | blockUploadInitiateResponse
  | blockUploadStart
  | blockSubSegment
  | blockSubResponse
  | blockEnd
  | blockEndResponse
  deriving DecidableEq, Repr

inductive Frame where
  | downloadExpedited (addr : Address) (value : Value) (positive : 1 ≤ value.size)
      (small : value.size ≤ 4)
  | downloadResponse (addr : Address)
  | uploadRequest (addr : Address)
  | uploadExpeditedResponse (addr : Address) (value : Value) (positive : 1 ≤ value.size)
      (small : value.size ≤ 4)
  | abort (addr : Address) (code : SdoAbortCode)
  | downloadInitiateSegmented (addr : Address) (size : UInt32)
  | uploadInitiateSegmentedResponse (addr : Address) (size : UInt32)
  | dataSegment (data : List UInt8) (toggle last : Bool) (fits : data.length ≤ 7)
  | downloadSegmentResponse (toggle : Bool)
  | uploadSegmentRequest (toggle : Bool)
  | blockDownloadInitiate (addr : Address) (size : Option UInt32) (crcSupport : Bool)
  | blockDownloadInitiateResponse (addr : Address) (blksize : UInt8) (crcSupport : Bool)
  | blockUploadInitiate (addr : Address) (blksize : UInt8) (crcSupport : Bool)
  | blockUploadInitiateResponse (addr : Address) (size : Option UInt32) (crcSupport : Bool)
  | blockUploadStart
  | blockSubSegment (seqno : UInt8) (data : List UInt8) (last : Bool) (first : 1 ≤ seqno)
      (within : seqno ≤ 127) (some : data ≠ []) (fits : data.length ≤ 7)
  | blockSubResponse (ackseq blksize : UInt8)
  | blockEnd (unused : UInt8) (crc : UInt16) (few : unused ≤ 7)
  | blockEndResponse

inductive Reading where
  | address (addr : Address)
  | value (addr : Address) (value : Value)
  | abort (addr : Address) (code : UInt32)
  | size (addr : Address) (size : UInt32)
  | segment (segment : Segment)
  | toggle (toggle : Bool)
  | initiate (initiate : Block.BlockInitiate)
  | negotiation (negotiation : Block.BlockNegotiation)
  | subSegment (segment : Block.SubSegment)
  | acknowledgement (ackseq blksize : UInt8)
  | ending (unused : UInt8) (crc : UInt16)
  | signal

namespace FrameKind

def travels : FrameKind → Direction → Bool
  | abort, _ | dataSegment, _ | blockSubSegment, _ | blockSubResponse, _ | blockEnd, _
  | blockEndResponse, _ => true
  | downloadExpedited, direction | uploadRequest, direction
  | downloadInitiateSegmented, direction | uploadSegmentRequest, direction
  | blockDownloadInitiate, direction | blockUploadInitiate, direction
  | blockUploadStart, direction => direction = .toServer
  | downloadResponse, direction | uploadExpeditedResponse, direction
  | uploadInitiateSegmentedResponse, direction | downloadSegmentResponse, direction
  | blockDownloadInitiateResponse, direction | blockUploadInitiateResponse, direction =>
      direction = .toClient

/-- The decoder of a kind of frames. There is none for the two requests that the server
reads field by field. A response that carries a value is read in a data type. -/
def decode (kind : FrameKind) (dataType : DataType) (p : SdoPayload) :
    Option (Exec (Except Error Reading)) :=
  match kind with
  | downloadExpedited | uploadRequest => none
  | downloadResponse => some (pure ((decodeDownloadResponse p).map .address))
  | uploadExpeditedResponse => some do
      let decoded ← decodeUploadExpeditedResponse p dataType
      pure (decoded.map fun (addr, value) => .value addr value)
  | abort => some (pure ((decodeAbort p).map fun (addr, code) => .abort addr code))
  | downloadInitiateSegmented =>
      some (pure ((decodeDownloadInitiateSegmented p).map fun (addr, size) => .size addr size))
  | uploadInitiateSegmentedResponse =>
      some (pure ((decodeUploadInitiateSegmentedResponse p).map
        fun (addr, size) => .size addr size))
  | dataSegment => some do
      let decoded ← decodeDataSegment p
      pure (decoded.map .segment)
  | downloadSegmentResponse => some (pure ((decodeDownloadSegmentResponse p).map .toggle))
  | uploadSegmentRequest => some (pure ((decodeUploadSegmentRequest p).map .toggle))
  | blockDownloadInitiate => some (pure ((Block.decodeDownloadInitiate p).map .initiate))
  | blockDownloadInitiateResponse =>
      some (pure ((Block.decodeDownloadInitiateResponse p).map .negotiation))
  | blockUploadInitiate => some (pure ((Block.decodeUploadInitiate p).map .negotiation))
  | blockUploadInitiateResponse =>
      some (pure ((Block.decodeUploadInitiateResponse p).map .initiate))
  | blockUploadStart => some (pure ((Block.decodeUploadStart p).map fun _ => .signal))
  | blockSubSegment => some (pure (.ok (.subSegment (Block.decodeSubSegment p))))
  | blockSubResponse =>
      some (pure ((Block.decodeSubResponse p).map
        fun (ackseq, blksize) => .acknowledgement ackseq blksize))
  | blockEnd =>
      some (pure ((Block.decodeEnd p).map fun (unused, crc) => .ending unused crc))
  | blockEndResponse => some (pure ((Block.decodeEndResponse p).map fun _ => .signal))

end FrameKind

namespace Frame

def kind : Frame → FrameKind
  | downloadExpedited .. => .downloadExpedited
  | downloadResponse .. => .downloadResponse
  | uploadRequest .. => .uploadRequest
  | uploadExpeditedResponse .. => .uploadExpeditedResponse
  | abort .. => .abort
  | downloadInitiateSegmented .. => .downloadInitiateSegmented
  | uploadInitiateSegmentedResponse .. => .uploadInitiateSegmentedResponse
  | dataSegment .. => .dataSegment
  | downloadSegmentResponse .. => .downloadSegmentResponse
  | uploadSegmentRequest .. => .uploadSegmentRequest
  | blockDownloadInitiate .. => .blockDownloadInitiate
  | blockDownloadInitiateResponse .. => .blockDownloadInitiateResponse
  | blockUploadInitiate .. => .blockUploadInitiate
  | blockUploadInitiateResponse .. => .blockUploadInitiateResponse
  | blockUploadStart => .blockUploadStart
  | blockSubSegment .. => .blockSubSegment
  | blockSubResponse .. => .blockSubResponse
  | blockEnd .. => .blockEnd
  | blockEndResponse => .blockEndResponse

def encode : Frame → Exec (Except Error SdoPayload)
  | downloadExpedited addr value .. => encodeDownloadExpedited addr value
  | downloadResponse addr => pure (.ok (encodeDownloadResponse addr))
  | uploadRequest addr => pure (.ok (encodeUploadRequest addr))
  | uploadExpeditedResponse addr value .. => encodeUploadExpeditedResponse addr value
  | abort addr code => pure (.ok (encodeAbort addr code))
  | downloadInitiateSegmented addr size =>
      pure (.ok (encodeDownloadInitiateSegmented addr size))
  | uploadInitiateSegmentedResponse addr size =>
      pure (.ok (encodeUploadInitiateSegmentedResponse addr size))
  | dataSegment data toggle last _ => encodeDataSegment data toggle last
  | downloadSegmentResponse toggle => pure (.ok (encodeDownloadSegmentResponse toggle))
  | uploadSegmentRequest toggle => pure (.ok (encodeUploadSegmentRequest toggle))
  | blockDownloadInitiate addr size crcSupport =>
      pure (.ok (Block.encodeDownloadInitiate addr size crcSupport))
  | blockDownloadInitiateResponse addr blksize crcSupport =>
      pure (.ok (Block.encodeDownloadInitiateResponse addr blksize crcSupport))
  | blockUploadInitiate addr blksize crcSupport =>
      pure (.ok (Block.encodeUploadInitiate addr blksize crcSupport))
  | blockUploadInitiateResponse addr size crcSupport =>
      pure (.ok (Block.encodeUploadInitiateResponse addr size crcSupport))
  | blockUploadStart => pure (.ok Block.encodeUploadStart)
  | blockSubSegment seqno data last .. => Block.encodeSubSegment seqno data last
  | blockSubResponse ackseq blksize => pure (.ok (Block.encodeSubResponse ackseq blksize))
  | blockEnd unused crc _ => pure (.ok (Block.encodeEnd unused crc))
  | blockEndResponse => pure (.ok Block.encodeEndResponse)

def reading : Frame → Reading
  | downloadExpedited addr value .. | uploadExpeditedResponse addr value .. => .value addr value
  | downloadResponse addr | uploadRequest addr => .address addr
  | abort addr code => .abort addr code.code
  | downloadInitiateSegmented addr size | uploadInitiateSegmentedResponse addr size =>
      .size addr size
  | dataSegment data toggle last _ => .segment ⟨toggle, last, data⟩
  | downloadSegmentResponse toggle | uploadSegmentRequest toggle => .toggle toggle
  | blockDownloadInitiate addr size crcSupport
  | blockUploadInitiateResponse addr size crcSupport => .initiate ⟨addr, size, crcSupport⟩
  | blockDownloadInitiateResponse addr blksize crcSupport
  | blockUploadInitiate addr blksize crcSupport => .negotiation ⟨addr, blksize, crcSupport⟩
  | blockUploadStart | blockEndResponse => .signal
  | blockSubSegment seqno data last .. =>
      .subSegment ⟨seqno, last, data ++ List.replicate (7 - data.length) 0⟩
  | blockSubResponse ackseq blksize => .acknowledgement ackseq blksize
  | blockEnd unused crc _ => .ending unused crc

def Expected (dataType : DataType) : Frame → Prop
  | uploadExpeditedResponse _ value .. => value.dataType = dataType
  | _ => True

/-- The requests that have no decoder carry their arguments in the fields that the server
reads. -/
def FieldsIn (p : SdoPayload) : Frame → Prop
  | downloadExpedited addr value .. => addressOf p = addr ∧ inlineData p = value.bytes
  | uploadRequest addr => addressOf p = addr
  | _ => True

end Frame

/-! ## What a command byte stands for -/

def kindOf (direction : Direction) (command : UInt8) : Option FrameKind :=
  let server := direction = .toServer
  let specifier := command &&& csMask
  let subcmd := command &&& Block.subcmdMask
  if specifier = ccsDownloadSegment then some .dataSegment
  else if specifier = ccsDownloadInitiate then
    if ¬ server then some .downloadSegmentResponse
    else if command &&& expedited ≠ 0 then some .downloadExpedited
    else some .downloadInitiateSegmented
  else if specifier = ccsUploadInitiate then
    if server then some .uploadRequest
    else if command &&& expedited ≠ 0 then some .uploadExpeditedResponse
    else some .uploadInitiateSegmentedResponse
  else if specifier = ccsUploadSegment then
    some (if server then .uploadSegmentRequest else .downloadResponse)
  else if specifier = csAbort then some .abort
  else if specifier = Block.cs5 then
    if subcmd = Block.subcmdInitiate then
      some (if server then .blockUploadInitiate else .blockDownloadInitiateResponse)
    else if subcmd = Block.subcmdEnd then some .blockEndResponse
    else if subcmd = Block.subcmdResponse then some .blockSubResponse
    else if server then some .blockUploadStart
    else none
  else if specifier = Block.cs6 then
    if command &&& Block.subcmdEnd ≠ 0 then some .blockEnd
    else some (if server then .blockDownloadInitiate else .blockUploadInitiateResponse)
  else none

/-- What the decoder of a kind asks of the command byte. The two requests without a decoder
are told apart by the server. -/
def FrameKind.claims (command : UInt8) : FrameKind → Bool
  | downloadExpedited =>
      command &&& csMask = ccsDownloadInitiate ∧ command &&& expedited ≠ 0
  | downloadResponse => command = scsDownloadInitiate
  | uploadRequest => command &&& csMask = ccsUploadInitiate
  | uploadExpeditedResponse =>
      command &&& csMask = scsUploadInitiate ∧ command &&& expeditedSized = expeditedSized
  | abort => command = csAbort
  | downloadInitiateSegmented =>
      command &&& csMask = ccsDownloadInitiate ∧ command &&& expedited = 0 ∧
        command &&& sizeIndicated ≠ 0
  | uploadInitiateSegmentedResponse =>
      command &&& csMask = scsUploadInitiate ∧ command &&& expedited = 0 ∧
        command &&& sizeIndicated ≠ 0
  | dataSegment => command &&& csMask = ccsDownloadSegment
  | downloadSegmentResponse => command &&& csMask = scsDownloadSegment
  | uploadSegmentRequest => command &&& csMask = ccsUploadSegment
  | blockDownloadInitiate | blockUploadInitiateResponse =>
      command &&& Block.csMask = Block.cs6 ∧ command &&& Block.subcmdEnd = 0
  | blockDownloadInitiateResponse | blockUploadInitiate =>
      command &&& Block.csMask = Block.cs5 ∧
        command &&& Block.subcmdMask = Block.subcmdInitiate
  | blockUploadStart =>
      command &&& Block.csMask = Block.cs5 ∧ command &&& Block.subcmdMask = Block.subcmdStart
  | blockSubSegment => true
  | blockSubResponse =>
      command &&& Block.csMask = Block.cs5 ∧
        command &&& Block.subcmdMask = Block.subcmdResponse
  | blockEnd =>
      command &&& Block.csMask = Block.cs6 ∧ command &&& Block.subcmdMask = Block.subcmdEnd
  | blockEndResponse =>
      command &&& Block.csMask = Block.cs5 ∧ command &&& Block.subcmdMask = Block.subcmdEnd

theorem kindOf_of_claims {kind : FrameKind} {direction : Direction}
    (sent : kind.travels direction = true) (framed : kind ≠ .blockSubSegment)
    (command : UInt8) (claimed : kind.claims command = true) :
    kindOf direction command = some kind := by
  suffices checked : kind.claims command = true → kindOf direction command = some kind from
    checked claimed
  clear claimed
  cases kind <;> cases direction <;> first
    | exact absurd sent (by decide)
    | exact absurd rfl framed
    | apply LittleEndian.byte_of_forall _ command command.toNat_lt
      decide +kernel

theorem decode_of_not_claims {kind : FrameKind} {dataType : DataType} {p : SdoPayload}
    {decoded : Exec (Except Error Reading)} (unclaimed : kind.claims (p.get 0) = false)
    (decodes : kind.decode dataType p = some decoded) :
    decoded = pure (.error .unexpectedCommand) := by
  cases kind with
  | downloadExpedited | uploadRequest => cases decodes
  | blockSubSegment => cases unclaimed
  | uploadExpeditedResponse =>
      cases decodes
      rw [decodeUploadExpeditedResponse_returns, if_neg (of_decide_eq_false unclaimed), pure_bind]
      rfl
  | dataSegment =>
      cases decodes
      rw [decodeDataSegment_eq, if_neg (of_decide_eq_false unclaimed), pure_bind]
      rfl
  | downloadResponse =>
      cases decodes
      rw [decodeDownloadResponse, if_pos (of_decide_eq_false unclaimed)]
      rfl
  | abort =>
      cases decodes
      rw [decodeAbort, if_pos (of_decide_eq_false unclaimed)]
      rfl
  | downloadInitiateSegmented =>
      cases decodes
      rw [decodeDownloadInitiateSegmented, decodeInitiateSegmented_eq,
        if_neg (of_decide_eq_false unclaimed)]
      rfl
  | uploadInitiateSegmentedResponse =>
      cases decodes
      rw [decodeUploadInitiateSegmentedResponse_eq, if_neg (of_decide_eq_false unclaimed)]
      rfl
  | downloadSegmentResponse =>
      cases decodes
      rw [decodeDownloadSegmentResponse, decodeToggle, if_pos (of_decide_eq_false unclaimed)]
      rfl
  | uploadSegmentRequest =>
      cases decodes
      rw [decodeUploadSegmentRequest, decodeToggle, if_pos (of_decide_eq_false unclaimed)]
      rfl
  | blockDownloadInitiate =>
      cases decodes
      rw [Block.decodeDownloadInitiate, Block.decodeInitiateWithSize,
        if_pos (not_and_or.mp (of_decide_eq_false unclaimed))]
      rfl
  | blockUploadInitiateResponse =>
      cases decodes
      rw [Block.decodeUploadInitiateResponse, Block.decodeInitiateWithSize,
        if_pos (not_and_or.mp (of_decide_eq_false unclaimed))]
      rfl
  | blockDownloadInitiateResponse =>
      cases decodes
      rw [Block.decodeDownloadInitiateResponse, Block.decodeInitiateWithBlksize,
        if_pos (not_and_or.mp (of_decide_eq_false unclaimed))]
      rfl
  | blockUploadInitiate =>
      cases decodes
      rw [Block.decodeUploadInitiate, Block.decodeInitiateWithBlksize,
        if_pos (not_and_or.mp (of_decide_eq_false unclaimed))]
      rfl
  | blockUploadStart =>
      have other : ¬ Block.HasSubcmd Block.cs5 Block.subcmdStart p := of_decide_eq_false unclaimed
      cases decodes
      rw [Block.decodeUploadStart, if_neg other]
      rfl
  | blockSubResponse =>
      have other : ¬ Block.HasSubcmd Block.cs5 Block.subcmdResponse p :=
        of_decide_eq_false unclaimed
      cases decodes
      rw [Block.decodeSubResponse, if_neg other]
      rfl
  | blockEnd =>
      have other : ¬ Block.HasSubcmd Block.cs6 Block.subcmdEnd p := of_decide_eq_false unclaimed
      cases decodes
      rw [Block.decodeEnd, if_neg other]
      rfl
  | blockEndResponse =>
      have other : ¬ Block.HasSubcmd Block.cs5 Block.subcmdEnd p := of_decide_eq_false unclaimed
      cases decodes
      rw [Block.decodeEndResponse, if_neg other]
      rfl

/-- What a frame is encoded to: its kind claims the command byte, and its decoder returns
what it was made of. -/
structure Carries (frame : Frame) (p : SdoPayload) : Prop where
  claimed : frame.kind.claims (p.get 0) = true
  decoded : ∀ dataType decoded, frame.Expected dataType →
    frame.kind.decode dataType p = some decoded → decoded = pure (.ok frame.reading)
  fields : frame.FieldsIn p

theorem Carries.of_decode {frame : Frame} {p : SdoPayload}
    (decodes : ∀ dataType, frame.kind.decode dataType p = some (pure (.ok frame.reading))) :
    Carries frame p where
  claimed := by
    by_contra unclaimed
    rw [Bool.not_eq_true] at unclaimed
    have rejected := decode_of_not_claims unclaimed (decodes .boolean)
    rw [Exec.pure_inj] at rejected
    cases rejected
  decoded := by
    intro dataType decoded _ decodesTo
    rw [decodes dataType, Option.some.injEq] at decodesTo
    exact decodesTo.symm
  fields := by
    have decoder := decodes .boolean
    cases frame with
    | downloadExpedited | uploadRequest => cases decoder
    | _ => trivial

theorem IsExpedited.claimed {command : UInt8} {addr : Address} {value : Value} {p : SdoPayload}
    (fields : IsExpedited command addr value.bytes p)
    (known : command = ccsDownloadInitiate ∨ command = scsUploadInitiate)
    (positive : 1 ≤ value.size) (small : value.size ≤ 4) :
    p.get 0 &&& csMask = command ∧ p.get 0 &&& expedited ≠ 0 ∧
      p.get 0 &&& expeditedSized = expeditedSized := by
  rw [← Value.bytes_length] at positive small
  rcases fields.command known positive small with ⟨specifier, inline_, sized, -⟩
  exact ⟨specifier, inline_, (expeditedSized_iff _).mpr ⟨inline_, sized⟩⟩

theorem encode_carries (frame : Frame) :
    ∃ p, frame.encode = pure (.ok p) ∧ Carries frame p := by
  cases frame with
  | downloadExpedited addr value positive small =>
      rcases encodeExpedited_eq ccsDownloadInitiate addr positive small with ⟨p, encoded, fields⟩
      have claimed := fields.claimed (.inl rfl) positive small
      refine ⟨p, encoded, decide_eq_true ⟨claimed.1, claimed.2.1⟩, ?_, fields.address_eq,
        (fields.inline (.inl rfl) (by simpa using positive) (by simpa using small)).2⟩
      intro dataType decoded _ decodes
      cases decodes
  | uploadRequest addr =>
      have claimed : FrameKind.uploadRequest.claims ccsUploadInitiate = true := by decide
      refine ⟨_, rfl, claimed, ?_, addressOf_addressed _ _ _⟩
      intro dataType decoded _ decodes
      cases decodes
  | uploadExpeditedResponse addr value positive small =>
      rcases encodeExpedited_eq scsUploadInitiate addr positive small with ⟨p, encoded, fields⟩
      have claimed := fields.claimed (.inr rfl) positive small
      refine ⟨p, encoded, decide_eq_true ⟨claimed.1, claimed.2.2⟩, ?_, trivial⟩
      intro dataType decoded expected decodes
      have sameType : value.dataType = dataType := expected
      subst sameType
      cases decodes
      have accepts : value.dataType.Accepts value.bytes.length := by
        rw [Value.bytes_length]
        exact value.accepts_size
      rw [decodeUploadExpeditedResponse_eq fields _ (by simpa using positive)
        (by simpa using small), if_pos accepts, Value.ofBytes_bytes, pure_bind]
      rfl
  | downloadResponse addr =>
      refine ⟨_, rfl, .of_decode fun _ => ?_⟩
      simp [Frame.kind, FrameKind.decode, decodeDownloadResponse, encodeDownloadResponse,
        Frame.reading]
      rfl
  | abort addr code =>
      refine ⟨_, rfl, .of_decode fun _ => ?_⟩
      simp [Frame.kind, FrameKind.decode, decodeAbort, encodeAbort, Frame.reading]
      rfl
  | downloadInitiateSegmented addr size =>
      rcases encodeDownloadInitiateSegmented_fields addr size with
        ⟨specifier, segmented, sized, named, declared⟩
      refine ⟨_, rfl, .of_decode fun _ => ?_⟩
      simp only [Frame.kind, FrameKind.decode, decodeDownloadInitiateSegmented]
      rw [decodeInitiateSegmented_eq, if_pos ⟨specifier, segmented, sized⟩, named, declared]
      rfl
  | uploadInitiateSegmentedResponse addr size =>
      refine ⟨_, rfl, .of_decode fun _ => ?_⟩
      simp only [Frame.kind, FrameKind.decode, decodeUploadInitiateSegmentedResponse_encode]
      rfl
  | dataSegment data toggle last fits =>
      rcases encodeDataSegment_eq toggle last fits with ⟨p, encoded, specifier, carries⟩
      refine ⟨p, encoded, .of_decode fun _ => ?_⟩
      simp only [Frame.kind, FrameKind.decode, decodeDataSegment_eq, specifier, if_true, pure_bind,
        carries]
      rfl
  | downloadSegmentResponse toggle | uploadSegmentRequest toggle =>
      cases toggle <;> exact ⟨_, rfl, .of_decode fun _ => rfl⟩
  | blockDownloadInitiate addr size crcSupport
  | blockUploadInitiateResponse addr size crcSupport =>
      have decodes := Block.decodeInitiateWithSize_encode (.inr rfl) addr size crcSupport
      refine ⟨_, rfl, .of_decode fun _ => ?_⟩
      simp only [Frame.kind, FrameKind.decode, Block.decodeDownloadInitiate,
        Block.encodeDownloadInitiate, Block.decodeUploadInitiateResponse,
        Block.encodeUploadInitiateResponse, decodes]
      rfl
  | blockDownloadInitiateResponse addr blksize crcSupport
  | blockUploadInitiate addr blksize crcSupport =>
      have decodes := Block.decodeInitiateWithBlksize_encode addr blksize crcSupport
      refine ⟨_, rfl, .of_decode fun _ => ?_⟩
      simp only [Frame.kind, FrameKind.decode, Block.decodeDownloadInitiateResponse,
        Block.encodeDownloadInitiateResponse, Block.decodeUploadInitiate,
        Block.encodeUploadInitiate, decodes]
      rfl
  | blockUploadStart | blockEndResponse => exact ⟨_, rfl, .of_decode fun _ => rfl⟩
  | blockSubSegment seqno data last first within some fits =>
      rcases Block.encodeSubSegment_eq last first within some fits with ⟨p, encoded, decodes⟩
      refine ⟨p, encoded, .of_decode fun _ => ?_⟩
      simp only [Frame.kind, FrameKind.decode, decodes]
      rfl
  | blockSubResponse ackseq blksize =>
      refine ⟨_, rfl, .of_decode fun _ => ?_⟩
      simp only [Frame.kind, FrameKind.decode, Block.decodeSubResponse_encode]
      rfl
  | blockEnd unused crc few =>
      refine ⟨_, rfl, .of_decode fun _ => ?_⟩
      simp only [Frame.kind, FrameKind.decode, Block.decodeEnd_encode few]
      rfl

/-- Every frame decodes to what it was made of. Sub-block segments aside, the decoder of
every other kind of frames that travel in the same direction rejects it. -/
theorem frames_decode_unambiguously (frame : Frame) :
    ∃ p, frame.encode = pure (.ok p) ∧
      (∀ dataType decoded, frame.Expected dataType →
        frame.kind.decode dataType p = some decoded → decoded = pure (.ok frame.reading)) ∧
      frame.FieldsIn p ∧
      ∀ direction kind dataType decoded, frame.kind ≠ .blockSubSegment →
        kind ≠ .blockSubSegment → kind ≠ frame.kind →
        frame.kind.travels direction = true → kind.travels direction = true →
        kind.decode dataType p = some decoded → ∃ error, decoded = pure (.error error) := by
  rcases encode_carries frame with ⟨p, encoded, carries⟩
  refine ⟨p, encoded, carries.decoded, carries.fields, ?_⟩
  intro direction kind dataType decoded framed otherFramed different sent otherSent decodes
  have own := kindOf_of_claims sent framed _ carries.claimed
  cases claimed : kind.claims (p.get 0) with
  | false => exact ⟨_, decode_of_not_claims claimed decodes⟩
  | true =>
      have other := kindOf_of_claims otherSent otherFramed _ claimed
      rw [own, Option.some.injEq] at other
      exact absurd other.symm different

end CanOpen.Sdo
