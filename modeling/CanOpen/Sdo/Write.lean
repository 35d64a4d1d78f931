import CanOpen.Sdo.Exchange

/-! # Writing an object

What a client's write comes to when it is driven against a server.
-/

namespace CanOpen.Sdo

open Exchange Host

variable {N : Nat}

/-! ## The segments of a download -/

/-- The client has sent the segment at `pos`, and the server holds everything
before it. -/
structure Downloading (exchange : Exchange (Host N)) (addr : Address)
    (dataType : DataType) (bytes : List UInt8) (pos : Nat) (toggle : Bool) : Prop where
  sends : ∃ p, exchange.event = .send p ∧ p.get 0 &&& csMask = ccsDownloadSegment ∧
    segmentOf p = ⟨toggle, decide (bytes.length - pos ≤ 7),
      (bytes.take (pos + min (bytes.length - pos) 7)).drop pos⟩
  client : ∃ data, Holds data bytes ∧ exchange.client.state =
    .downloadSeg data bytes.length (pos + min (bytes.length - pos) 7) toggle
  server : ∃ buf : BoundedVec UInt8 maxStringLen, buf.toList = bytes.take pos ∧
    exchange.peer.server.transfer =
      some (.download addr dataType buf bytes.length toggle)

theorem Downloading.next {exchange : Exchange (Host N)} {addr : Address}
    {dataType : DataType} {bytes : List UInt8} {pos : Nat} {toggle : Bool}
    (downloading : Downloading exchange addr dataType bytes pos toggle)
    (fits : bytes.length ≤ maxStringLen) (more : 7 < bytes.length - pos) :
    ∃ after, exchange.turn (serve undisturbed) = pure (some after) ∧
      Downloading after addr dataType bytes (pos + 7) (!toggle) ∧
      after.peer.od = exchange.peer.od := by
  rcases downloading with ⟨⟨p, sends, specifier, carries⟩, ⟨data, holds, state⟩,
    buf, prefix_, transfer⟩
  have window : min (bytes.length - pos) 7 = 7 := by omega
  have notLast : ¬ bytes.length - pos ≤ 7 := by omega
  rw [window] at carries state
  simp only [notLast, decide_false] at carries
  let extended : BoundedVec UInt8 maxStringLen :=
    ⟨bytes.take (pos + 7), (List.length_take_le _ _).trans (by omega)⟩
  have content : extended.toList = buf.toList ++ (segmentOf p).data := by
    rw [prefix_, carries, take_append_window bytes (by omega)]
  have handled := SdoServer.onDownloadSegment_inSequence exchange.peer.od
    specifier (by rw [transfer, carries]) (by rw [carries]) content
  rw [← SdoServer.handle_downloadSegment specifier, carries] at handled
  let parked : SdoClient := { exchange.client with state := .idle }
  rcases parked.sendDownloadSegment_eq data (!toggle)
    (show pos + 7 ≤ bytes.length by omega) fits with ⟨next, sent, nextSpecifier, nextCarries⟩
  have answered : exchange.client.onResponse (encodeDownloadSegmentResponse toggle) =
      parked.sendDownloadSegment data bytes.length (pos + 7) (!toggle) := by
    rw [SdoClient.onResponse_downloadSeg state, if_neg (by omega)]
  refine ⟨_, turn_handled undisturbed exchange sends handled (answered.trans sent),
    ⟨?_, ?_, ?_⟩, rfl⟩
  · refine ⟨next, rfl, nextSpecifier, ?_⟩
    rw [nextCarries, holds.window _ (by omega)]
  · exact ⟨data, holds, rfl⟩
  · exact ⟨extended, rfl, rfl⟩

theorem Downloading.last {exchange : Exchange (Host N)} {addr : Address} {entry : Entry}
    {bytes : List UInt8} {pos : Nat} {toggle : Bool}
    (downloading : Downloading exchange addr entry.value.dataType bytes pos toggle)
    (present : exchange.peer.od.entry addr = some entry)
    (writable : entry.access.isWritable = true)
    (accepts : entry.value.dataType.Accepts bytes.length)
    (posLe : pos ≤ bytes.length) (last : bytes.length - pos ≤ 7) :
    exchange.turn (serve undisturbed) = pure (some
      ⟨{ exchange.client with state := .idle },
        ⟨{ exchange.peer.server with transfer := none, lastWrite := some addr },
          exchange.peer.od.replace addr
            { entry with value := Value.ofBytes entry.value.dataType bytes }⟩,
        .complete none,
        exchange.replies ++ [encodeDownloadSegmentResponse toggle]⟩) := by
  rcases downloading with ⟨⟨p, sends, specifier, carries⟩, ⟨data, holds, state⟩,
    buf, prefix_, transfer⟩
  have window : pos + min (bytes.length - pos) 7 = bytes.length := by omega
  rw [window] at carries state
  simp only [last, decide_true] at carries
  let extended : BoundedVec UInt8 maxStringLen := ⟨bytes, accepts.length_le⟩
  have content : extended.toList = buf.toList ++ (segmentOf p).data := by
    rw [prefix_, carries, take_append_window bytes posLe, List.take_length]
  have handled := SdoServer.onDownloadSegment_last exchange.peer.od
    specifier (by rw [transfer, carries]) (by rw [carries]) content
  rw [← SdoServer.handle_downloadSegment specifier,
    SdoServer.finishDownload_writes _ _ present writable accepts, carries] at handled
  refine turn_handled undisturbed exchange sends handled ?_
  rw [SdoClient.onResponse_downloadSeg state, if_pos (Nat.le_refl _)]

/-- How a completed write leaves the exchange. -/
structure Written (od : ObjectDictionary N) (addr : Address) (entry : Entry)
    (bytes : List UInt8) (final : Exchange (Host N)) : Prop where
  idle : final.client.state = .idle
  event : final.event = .complete none
  od : final.peer.od =
    od.replace addr { entry with value := Value.ofBytes entry.value.dataType bytes }
  lastWrite : final.peer.server.lastWrite = some addr

theorem Downloading.ends {exchange : Exchange (Host N)} {addr : Address} {entry : Entry}
    {bytes : List UInt8} {pos : Nat} {toggle : Bool}
    (downloading : Downloading exchange addr entry.value.dataType bytes pos toggle)
    (present : exchange.peer.od.entry addr = some entry)
    (writable : entry.access.isWritable = true)
    (accepts : entry.value.dataType.Accepts bytes.length) (posLe : pos ≤ bytes.length) :
    ∃ final, Loop.Ends (turn (serve undisturbed)) exchange
        (segmentCount (bytes.length - pos)) final ∧
      Written exchange.peer.od addr entry bytes final := by
  -- Each acknowledged segment leaves seven bytes fewer to send.
  induction left : bytes.length - pos using Nat.strong_induction_on
    generalizing exchange pos toggle with
  | _ remaining induction =>
      by_cases last : remaining ≤ 7
      · have taken := downloading.last present writable accepts posLe (by omega)
        rw [segmentCount_of_le last]
        exact ⟨_, (Loop.Steps.one taken).ends (Loop.ends_of_done (turn_complete rfl)),
          rfl, rfl, rfl, rfl⟩
      · rcases downloading.next accepts.length_le (by omega) with
          ⟨after, taken, later, sameOd⟩
        rcases induction (remaining - 7) (by omega) later (sameOd ▸ present) (by omega)
          (by omega) with ⟨final, ends, written⟩
        have total : segmentCount remaining = 1 + segmentCount (remaining - 7) := by
          rw [segmentCount_of_lt (by omega)]
          omega
        rw [total]
        exact ⟨final, (Loop.Steps.one taken).ends ends, sameOd ▸ written⟩

/-! ## The initiate -/

theorem write_initiate (client : SdoClient) (addr : Address) (value : Value) :
    ∃ started frame, client.write addr value = pure (started, frame) ∧
      frame.get 0 &&& csMask = ccsDownloadInitiate ∧ SdoServer.reqAddress frame = addr := by
  by_cases small : 1 ≤ value.size ∧ value.size ≤ 4
  · rcases client.write_expedited addr small.1 small.2 with ⟨p, starts, fields⟩
    refine ⟨_, p, starts, ?_, fields.address_eq⟩
    exact (fields.command (.inl rfl) (by simpa using small.1) (by simpa using small.2)).1
  · rcases client.write_segmented addr small with ⟨data, starts, _⟩
    have fields := encodeDownloadInitiateSegmented_fields addr (UInt32.ofNat value.size)
    exact ⟨_, _, starts, fields.1, fields.2.2.2.1⟩

theorem write_expedited_ends (client : SdoClient) (server : SdoServer)
    {od : ObjectDictionary N} {addr : Address} {entry : Entry} {value : Value}
    (present : od.entry addr = some entry) (writable : entry.access.isWritable = true)
    (accepts : entry.value.dataType.Accepts value.size)
    (small : 1 ≤ value.size ∧ value.size ≤ 4) :
    ∃ started final, Exchange.write client ⟨server, od⟩ addr value = pure started ∧
      Loop.Ends (turn (serve undisturbed)) started 1 final ∧
      Written od addr entry value.bytes final := by
  rcases client.write_expedited addr small.1 small.2 with ⟨p, starts, fields⟩
  rcases fields.command (.inl rfl) (by simpa using small.1) (by simpa using small.2)
    with ⟨specifier, inline_, sized, count⟩
  have named : SdoServer.reqAddress p = addr := fields.address_eq
  have length : SdoServer.inlineLength p entry.value.dataType = value.size := by
    rw [SdoServer.inlineLength, if_pos sized, count, Value.bytes_length]
    omega
  have carried : SdoServer.inlineBytes p entry.value.dataType = value.bytes := by
    have inlineBytes := fields.inline_eq
    rw [Value.bytes_length] at inlineBytes
    rw [SdoServer.inlineBytes, length, inlineBytes]
  have handled := SdoServer.onDownloadInitiate_expedited server inline_
    (named ▸ present) writable
  rw [← SdoServer.handle_downloadInitiate specifier, length,
    if_pos ⟨small.2, accepts⟩, carried, named] at handled
  have answered := SdoClient.onResponse_downloadExpedited
    { client with state := .downloadExpedited } addr rfl
  let begun : Exchange (Host N) :=
    ⟨{ client with state := .downloadExpedited }, ⟨server, od⟩, .send p, []⟩
  have taken := turn_handled undisturbed begun rfl handled answered
  exact ⟨begun, _, by rw [Exchange.write, starts]; rfl,
    (Loop.Steps.one taken).ends (Loop.ends_of_done (turn_complete rfl)),
    ⟨rfl, rfl, rfl, rfl⟩⟩

theorem write_segmented_ends (client : SdoClient) (server : SdoServer)
    {od : ObjectDictionary N} {addr : Address} {entry : Entry} {value : Value}
    (present : od.entry addr = some entry) (writable : entry.access.isWritable = true)
    (accepts : entry.value.dataType.Accepts value.size)
    (large : ¬ (1 ≤ value.size ∧ value.size ≤ 4)) :
    ∃ started final, Exchange.write client ⟨server, od⟩ addr value = pure started ∧
      Loop.Ends (turn (serve undisturbed)) started (1 + segmentCount value.size) final ∧
      Written od addr entry value.bytes final := by
  rcases client.write_segmented addr large with ⟨data, starts, holds⟩
  let frame := encodeDownloadInitiateSegmented addr (UInt32.ofNat value.size)
  rcases encodeDownloadInitiateSegmented_fields addr (UInt32.ofNat value.size) with
    ⟨initiate, segmented, sized, named, word⟩
  have declared : (wordOf frame).toNat = value.size := by
    have bound := value.size_le
    simp only [maxStringLen] at bound
    rw [word]
    simp
    omega
  have handled := SdoServer.onDownloadInitiate_segmented server initiate
    segmented (SdoServer.reqAddress.eq_1 _ ▸ named ▸ present) writable
  rw [← SdoServer.handle_downloadInitiate initiate, if_neg sized, declared,
    if_pos accepts, SdoServer.reqAddress, named] at handled
  let parked : SdoClient := { client with state := .idle }
  rcases parked.sendDownloadSegment_eq data false (Nat.zero_le value.size) value.size_le
    with ⟨p, sent, specifier, carries⟩
  have answered := SdoClient.onResponse_downloadInit
    { client with state := .downloadInit data value.size } addr rfl
  let begun : Exchange (Host N) := ⟨{ client with state := .downloadInit data value.size },
    ⟨server, od⟩, .send frame, []⟩
  have length := value.bytes_length
  have started : ∃ first, turn (serve undisturbed) begun = pure (some first) ∧
      Downloading first addr entry.value.dataType value.bytes 0 false ∧
      first.peer.od = od := by
    refine ⟨_, turn_handled undisturbed begun rfl handled (answered.trans sent),
      ⟨⟨p, rfl, specifier, ?_⟩, ⟨data, holds, ?_⟩, .new, rfl, ?_⟩, rfl⟩
    · rw [carries, length, holds.window _ (by omega)]
    · rw [length]
    · rw [length]
  rcases started with ⟨first, taken, downloading, sameOd⟩
  rcases downloading.ends (sameOd ▸ present) writable (by rw [length]; exact accepts)
    (Nat.zero_le _) with ⟨final, ends, written⟩
  rw [length] at ends
  exact ⟨begun, final, by rw [Exchange.write, starts]; rfl,
    (Loop.Steps.one taken).ends ends, sameOd ▸ written⟩

theorem write_mismatched (client : SdoClient) (server : SdoServer)
    {od : ObjectDictionary N} {addr : Address} {entry : Entry} {value : Value}
    (present : od.entry addr = some entry) (writable : entry.access.isWritable = true)
    (unsuitable : ¬ entry.value.dataType.Accepts value.size) :
    ∃ started frame, client.write addr value = pure (started, frame) ∧
      server.handle od frame =
        pure ⟨server, od, some (encodeAbort addr .dataTypeMismatchLengthHigh)⟩ := by
  by_cases small : 1 ≤ value.size ∧ value.size ≤ 4
  · rcases client.write_expedited addr small.1 small.2 with ⟨p, starts, fields⟩
    rcases fields.command (.inl rfl) (by simpa using small.1) (by simpa using small.2)
      with ⟨specifier, inline_, sized, count⟩
    have named : SdoServer.reqAddress p = addr := fields.address_eq
    have length : SdoServer.inlineLength p entry.value.dataType = value.size := by
      rw [SdoServer.inlineLength, if_pos sized, count, Value.bytes_length]
      omega
    have handled := SdoServer.onDownloadInitiate_expedited server inline_
      (named ▸ present) writable
    rw [← SdoServer.handle_downloadInitiate specifier, length,
      if_neg fun suits => unsuitable suits.2, named] at handled
    exact ⟨_, p, starts, handled⟩
  · rcases client.write_segmented addr small with ⟨data, starts, _⟩
    rcases encodeDownloadInitiateSegmented_fields addr (UInt32.ofNat value.size) with
      ⟨initiate, segmented, sized, named, word⟩
    have bound := value.size_le
    simp only [maxStringLen] at bound
    have declared : (UInt32.ofNat value.size).toNat = value.size := by
      simp
      omega
    have handled := SdoServer.onDownloadInitiate_segmented server initiate
      segmented (SdoServer.reqAddress.eq_1 _ ▸ named ▸ present) writable
    rw [← SdoServer.handle_downloadInitiate initiate, if_neg sized, word, declared,
      if_neg unsuitable, SdoServer.reqAddress, named] at handled
    exact ⟨_, _, starts, handled⟩

theorem write_refused {client : SdoClient} {server : SdoServer} {od : ObjectDictionary N}
    {addr : Address} {value : Value} {code : SdoAbortCode}
    (refused : ∃ started frame, client.write addr value = pure (started, frame) ∧
      server.handle od frame = pure ⟨server, od, some (encodeAbort addr code)⟩) :
    ∃ started final, Exchange.write client ⟨server, od⟩ addr value = pure started ∧
      Loop.Ends (turn (serve undisturbed)) started 1 final ∧
      final.client.state = .idle ∧ final.event = .aborted code.code ∧
      final.peer.od = od := by
  rcases refused with ⟨started, frame, starts, handled⟩
  let begun : Exchange (Host N) := ⟨started, ⟨server, od⟩, .send frame, []⟩
  have taken := turn_handled undisturbed begun rfl handled
    (SdoClient.onResponse_abort started addr code)
  exact ⟨begun, _, by rw [Exchange.write, starts]; rfl,
    (Loop.Steps.one taken).ends (Loop.ends_of_done (turn_aborted rfl)), rfl, rfl, rfl⟩

/-! ## The whole write -/

/-- What a write comes to after `requests` requests: refused with one of three
codes and without a trace, or completed. -/
def WriteOutcome (od : ObjectDictionary N) (addr : Address) (value : Value)
    (requests : Nat) (final : Exchange (Host N)) : Prop :=
  match od.entry addr with
  | none => final.event = .aborted 0x06020000 ∧ final.peer.od = od ∧ requests = 1
  | some entry =>
      if entry.access.isWritable = false then
        final.event = .aborted 0x06010002 ∧ final.peer.od = od ∧ requests = 1
      else if entry.value.dataType.fixedSize.any (· ≠ value.size) then
        final.event = .aborted 0x06070012 ∧ final.peer.od = od ∧ requests = 1
      else
        final.event = .complete none ∧
        (∃ encoded written,
          value.encodeLe (List.replicate value.size 0) = pure (.ok value.size, encoded) ∧
          Value.decodeLe entry.value.dataType encoded = pure (.ok written) ∧
          final.peer.od.entry addr = some { entry with value := written } ∧
          (entry.value.dataType = value.dataType → written = value)) ∧
        final.peer.server.takeWrite.1 = some addr ∧
        (∀ other, other ≠ addr → final.peer.od.entry other = od.entry other) ∧
        requests =
          if 1 ≤ value.size ∧ value.size ≤ 4 then 1 else 1 + segmentCount value.size

theorem WriteOutcome.completed {od : ObjectDictionary N} {addr : Address} {value : Value}
    {requests : Nat} {final : Exchange (Host N)} {entry : Entry}
    (outcome : WriteOutcome od addr value requests final)
    (complete : final.event = .complete none) (present : od.entry addr = some entry)
    (sameType : entry.value.dataType = value.dataType) :
    final.peer.od.entry addr = some { entry with value } ∧
      final.peer.server.lastWrite = some addr := by
  simp only [WriteOutcome, present] at outcome
  split at outcome
  · rw [outcome.1] at complete
    cases complete
  · split at outcome
    · rw [outcome.1] at complete
      cases complete
    · rcases outcome with ⟨_, ⟨_, written, _, _, content, same⟩, recorded, _⟩
      exact ⟨same sameType ▸ content, recorded⟩

theorem accepts_iff_suits {dataType : DataType} {value : Value} :
    dataType.Accepts value.size ↔ dataType.fixedSize.any (· ≠ value.size) = false := by
  rw [DataType.accepts_iff value.size_le]
  cases dataType.fixedSize with
  | none => simp
  | some fixed =>
      simp only [Option.some.injEq, forall_eq', Option.any_some, decide_eq_false_iff_not,
        ne_eq, Decidable.not_not]
      exact eq_comm

theorem Written.outcome {od : ObjectDictionary N} {addr : Address} {entry : Entry}
    {value : Value} {final : Exchange (Host N)}
    (written : Written od addr entry value.bytes final)
    (present : od.entry addr = some entry) (writable : entry.access.isWritable = true)
    (accepts : entry.value.dataType.Accepts value.size) :
    WriteOutcome od addr value
      (if 1 ≤ value.size ∧ value.size ≤ 4 then 1 else 1 + segmentCount value.size) final := by
  have suits := accepts_iff_suits.mp accepts
  simp only [WriteOutcome, present, writable, suits, Bool.true_eq_false,
    Bool.false_eq_true, if_false]
  refine ⟨written.event, ⟨value.bytes, _, ?_, Value.decodeLe_eq_ok_iff.mpr ⟨?_, rfl⟩,
    ?_, ?_⟩, written.lastWrite, ?_, trivial⟩
  · rw [Value.encodeLe_eq, if_neg (by simp)]
    simp
  · rw [Value.bytes_length]
    exact accepts
  · rw [written.od, ObjectDictionary.entry_replace_self present]
  · intro sameType
    rw [sameType, Value.ofBytes_bytes]
  · intro other different
    rw [written.od, ObjectDictionary.entry_replace_of_ne different]

/-- Every write terminates with an idle client and one of the listed outcomes,
whatever the client and the server were doing before. -/
theorem write_ends (client : SdoClient) (server : SdoServer) (od : ObjectDictionary N)
    (addr : Address) (value : Value) :
    ∃ started requests final,
      Exchange.write client ⟨server, od⟩ addr value = pure started ∧
      Loop.Ends (turn (serve undisturbed)) started requests final ∧
      final.client.state = .idle ∧ WriteOutcome od addr value requests final := by
  rcases write_initiate client addr value with ⟨started, frame, starts, initiate, named⟩
  cases present : od.entry addr with
  | none =>
      have handled := SdoServer.onDownloadInitiate_absent server (named ▸ present)
      rw [← SdoServer.handle_downloadInitiate initiate, named] at handled
      rcases write_refused ⟨started, frame, starts, handled⟩ with
        ⟨begun, final, begins, ends, idle, event, sameOd⟩
      refine ⟨begun, 1, final, begins, ends, idle, ?_⟩
      simp only [WriteOutcome, present]
      exact ⟨event, sameOd, trivial⟩
  | some entry =>
      cases writable : entry.access.isWritable with
      | false =>
          have handled := SdoServer.onDownloadInitiate_readOnly server
            (named ▸ present) writable
          rw [← SdoServer.handle_downloadInitiate initiate, named] at handled
          rcases write_refused ⟨started, frame, starts, handled⟩ with
            ⟨begun, final, begins, ends, idle, event, sameOd⟩
          refine ⟨begun, 1, final, begins, ends, idle, ?_⟩
          simp only [WriteOutcome, present, writable, if_true]
          exact ⟨event, sameOd, trivial⟩
      | true =>
          by_cases accepts : entry.value.dataType.Accepts value.size
          · by_cases small : 1 ≤ value.size ∧ value.size ≤ 4
            · rcases write_expedited_ends client server present writable accepts small with
                ⟨begun, final, begins, ends, written⟩
              have outcome := written.outcome present writable accepts
              rw [if_pos small] at outcome
              exact ⟨begun, _, final, begins, ends, written.idle, outcome⟩
            · rcases write_segmented_ends client server present writable accepts small with
                ⟨begun, final, begins, ends, written⟩
              have outcome := written.outcome present writable accepts
              rw [if_neg small] at outcome
              exact ⟨begun, _, final, begins, ends, written.idle, outcome⟩
          · rcases write_refused (write_mismatched client server present writable accepts)
              with ⟨begun, final, begins, ends, idle, event, sameOd⟩
            have unsuitable : entry.value.dataType.fixedSize.any (· ≠ value.size) = true := by
              simpa using fun suits => accepts (accepts_iff_suits.mpr suits)
            refine ⟨begun, 1, final, begins, ends, idle, ?_⟩
            simp only [WriteOutcome, present, writable, unsuitable, Bool.true_eq_false,
              if_false, if_true]
            exact ⟨event, sameOd, trivial⟩

end CanOpen.Sdo
