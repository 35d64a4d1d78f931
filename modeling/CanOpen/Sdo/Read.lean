import CanOpen.Sdo.Exchange

/-! # Reading an object

What a client's read comes to when it is driven against a server, while the
dictionary may change after every response.
-/

namespace CanOpen.Sdo

open Exchange Host SdoClient

variable {N : Nat} {env : Nat → ObjectDictionary N → ObjectDictionary N}

/-! ## The segments of an upload -/

structure Uploading (exchange : Exchange (Host N)) (dataType : DataType)
    (bytes : List UInt8) (pos : Nat) (toggle : Bool) : Prop where
  sends : exchange.event = .send (encodeUploadSegmentRequest toggle)
  client : ∃ buf : BoundedVec UInt8 maxStringLen, buf.toList = bytes.take pos ∧
    exchange.client.state = .uploadSeg dataType buf toggle
  server : ∃ addr data, Holds data bytes ∧ exchange.peer.server.transfer =
    some (.upload addr data bytes.length pos toggle)

theorem Uploading.next (env : Nat → ObjectDictionary N → ObjectDictionary N)
    {exchange : Exchange (Host N)} {dataType : DataType}
    {bytes : List UInt8} {pos : Nat} {toggle : Bool}
    (uploading : Uploading exchange dataType bytes pos toggle)
    (fits : bytes.length ≤ maxStringLen) (more : 7 < bytes.length - pos) :
    ∃ after, exchange.turn (serve env) = pure (some after) ∧
      Uploading after dataType bytes (pos + 7) (!toggle) := by
  rcases uploading with ⟨sends, ⟨buf, prefix_, state⟩, addr, data, holds, transfer⟩
  rcases encodeUploadSegmentRequest_fields toggle with ⟨specifier, inSequence⟩
  rcases SdoServer.onUploadSegment_inSequence exchange.peer.od transfer inSequence
    (by omega) (by omega) with ⟨p, handled, segment, carries⟩
  have window : min (bytes.length - pos) 7 = 7 := by omega
  have notLast : ¬ bytes.length - pos ≤ 7 := by omega
  rw [← SdoServer.handle_uploadSegment specifier, window, if_neg notLast] at handled
  rw [window, holds.window _ (by omega)] at carries
  simp only [notLast, decide_false] at carries
  let extended : BoundedVec UInt8 maxStringLen :=
    ⟨bytes.take (pos + 7), (List.length_take_le _ _).trans (by omega)⟩
  have content : extended.toList = buf.toList ++ (segmentOf p).data := by
    rw [prefix_, carries, take_append_window bytes (by omega)]
  have answered := onResponse_uploadSeg_more exchange.client
    (by rw [state, carries]) segment (by rw [carries]) content
  rw [carries] at answered
  exact ⟨_, turn_handled env exchange sends handled answered, rfl, ⟨extended, rfl, rfl⟩,
    addr, data, holds, rfl⟩

theorem Uploading.last (env : Nat → ObjectDictionary N → ObjectDictionary N)
    {exchange : Exchange (Host N)} {dataType : DataType}
    {bytes : List UInt8} {pos : Nat} {toggle : Bool}
    (uploading : Uploading exchange dataType bytes pos toggle)
    (fits : bytes.length ≤ maxStringLen) (posLe : pos ≤ bytes.length)
    (last : bytes.length - pos ≤ 7) :
    ∃ after, exchange.turn (serve env) = pure (some after) ∧
      after.client.state = .idle ∧ after.event = readEvent dataType bytes := by
  rcases uploading with ⟨sends, ⟨buf, prefix_, state⟩, addr, data, holds, transfer⟩
  rcases encodeUploadSegmentRequest_fields toggle with ⟨specifier, inSequence⟩
  rcases SdoServer.onUploadSegment_inSequence exchange.peer.od transfer inSequence
    posLe (by omega) with ⟨p, handled, segment, carries⟩
  have window : pos + min (bytes.length - pos) 7 = bytes.length := by omega
  rw [← SdoServer.handle_uploadSegment specifier] at handled
  rw [window, holds.window _ (Nat.le_refl _)] at carries
  simp only [last, decide_true] at carries
  let extended : BoundedVec UInt8 maxStringLen := ⟨bytes, fits⟩
  have content : extended.toList = buf.toList ++ (segmentOf p).data := by
    rw [prefix_, carries, take_append_window bytes posLe, List.take_length]
  have answered := onResponse_uploadSeg_last exchange.client
    (by rw [state, carries]) segment (by rw [carries]) content
  exact ⟨_, turn_handled env exchange sends handled answered, rfl, rfl⟩

theorem turn_readEvent {serve : Nat → Host N → SdoPayload → Exec (Host N × Option SdoPayload)}
    {exchange : Exchange (Host N)} {dataType : DataType} {bytes : List UInt8}
    (event : exchange.event = readEvent dataType bytes) :
    exchange.turn serve = pure none := by
  apply turn_eq_none_iff.mpr
  intro frame
  rw [event, readEvent]
  split <;> simp

theorem Uploading.ends (env : Nat → ObjectDictionary N → ObjectDictionary N)
    {exchange : Exchange (Host N)} {dataType : DataType}
    {bytes : List UInt8} {pos : Nat} {toggle : Bool}
    (uploading : Uploading exchange dataType bytes pos toggle)
    (fits : bytes.length ≤ maxStringLen) (posLe : pos ≤ bytes.length) :
    ∃ requests final, Loop.Ends (turn (serve env)) exchange requests final ∧
      final.client.state = .idle ∧ final.event = readEvent dataType bytes := by
  induction left : bytes.length - pos using Nat.strong_induction_on
    generalizing exchange pos toggle with
  | _ remaining induction =>
      by_cases last : remaining ≤ 7
      · rcases uploading.last env fits posLe (by omega) with
          ⟨after, taken, idle, event⟩
        exact ⟨_, after, (Loop.Steps.one taken).ends
          (Loop.ends_of_done (turn_readEvent event)), idle, event⟩
      · rcases uploading.next env fits (by omega) with ⟨after, taken, later⟩
        rcases induction (remaining - 7) (by omega) later (by omega) (by omega) with
          ⟨requests, final, ends, idle, event⟩
        exact ⟨_, final, (Loop.Steps.one taken).ends ends, idle, event⟩

/-! ## The initiate -/

theorem uploadRequest_fields (addr : Address) :
    (encodeUploadRequest addr).get 0 &&& csMask = ccsUploadInitiate ∧
      SdoServer.reqAddress (encodeUploadRequest addr) = addr := by
  rw [SdoServer.reqAddress, encodeUploadRequest, addressOf_addressed, addressed_command]
  exact ⟨by decide, rfl⟩

theorem read_ends_of_readable (env : Nat → ObjectDictionary N → ObjectDictionary N)
    (client : SdoClient) (server : SdoServer)
    {od : ObjectDictionary N} {addr : Address} {value : Value} (dataType : DataType)
    (reads : od.read addr = .ok value) :
    ∃ requests final,
      Loop.Ends (turn (serve env)) (Exchange.read client ⟨server, od⟩ addr dataType)
        requests final ∧
      final.client.state = .idle ∧ final.event = readEvent dataType value.bytes := by
  let begun : Exchange (Host N) := Exchange.read client ⟨server, od⟩ addr dataType
  have state : begun.client.state = .uploadInit dataType := rfl
  have length := value.bytes_length
  have fits := value.size_le
  rcases uploadRequest_fields addr with ⟨specifier, named⟩
  by_cases small : 1 ≤ value.size ∧ value.size ≤ 4
  · rcases SdoServer.onUploadInitiate_expedited server (named ▸ reads)
      small.1 small.2 with ⟨p, handled, fields⟩
    rw [← SdoServer.handle_uploadInitiate specifier] at handled
    have answered := onResponse_uploadInit_expedited state fields (by omega) (by omega)
    have taken := turn_handled env begun rfl handled answered
    exact ⟨1, _, (Loop.Steps.one taken).ends (Loop.ends_of_done (turn_readEvent rfl)),
      rfl, rfl⟩
  · rcases SdoServer.onUploadInitiate_segmented server (named ▸ reads) small
      with ⟨data, handled, holds⟩
    rw [← SdoServer.handle_uploadInitiate specifier] at handled
    have answered := onResponse_uploadInit_segmented state
      (decodeUploadInitiateSegmentedResponse_encode
        (SdoServer.reqAddress (encodeUploadRequest addr)) (UInt32.ofNat value.size))
    have started : ∃ first, turn (serve env) begun = pure (some first) ∧
        Uploading first dataType value.bytes 0 false := by
      refine ⟨_, turn_handled env begun rfl handled answered, rfl, ⟨.new, rfl, rfl⟩,
        SdoServer.reqAddress (encodeUploadRequest addr), data, holds, ?_⟩
      rw [length]
    rcases started with ⟨first, taken, uploading⟩
    rcases uploading.ends env (by omega) (Nat.zero_le _) with
      ⟨requests, final, ends, idle, event⟩
    exact ⟨_, final, (Loop.Steps.one taken).ends ends, idle, event⟩

theorem read_refused (env : Nat → ObjectDictionary N → ObjectDictionary N)
    (client : SdoClient) {server : SdoServer} {od : ObjectDictionary N}
    {addr : Address} {code : SdoAbortCode} (dataType : DataType)
    (handled : server.onUploadInitiate od (encodeUploadRequest addr) =
      pure ⟨server, od, SdoServer.abort addr code⟩) :
    ∃ requests final,
      Loop.Ends (turn (serve env)) (Exchange.read client ⟨server, od⟩ addr dataType)
        requests final ∧
      final.client.state = .idle ∧ final.event = .aborted code.code := by
  let begun : Exchange (Host N) := Exchange.read client ⟨server, od⟩ addr dataType
  rw [← SdoServer.handle_uploadInitiate (uploadRequest_fields addr).1] at handled
  have taken := turn_handled env begun rfl handled
    (onResponse_abort begun.client addr code)
  exact ⟨1, _, (Loop.Steps.one taken).ends (Loop.ends_of_done (turn_aborted rfl)),
    rfl, rfl⟩

/-! ## The server leaves the dictionary alone -/

def evolved (env : Nat → ObjectDictionary N → ObjectDictionary N)
    (od : ObjectDictionary N) : Nat → ObjectDictionary N
  | 0 => od
  | position + 1 => env position (evolved env od position)

theorem od_of_upload {server : SdoServer} {od : ObjectDictionary N} {req : SdoPayload}
    {out : Handled N} (returns : server.handle od req = pure out)
    (uploads : req.get 0 &&& csMask = ccsUploadInitiate ∨
      req.get 0 &&& csMask = ccsUploadSegment) : out.od = od := by
  cases SdoServer.handle_effect returns with
  | expeditedWrite _ _ initiate =>
      rw [initiate] at uploads
      exact absurd uploads (by decide)
  | downloadFinished _ _ _ _ _ _ segment =>
      rw [segment] at uploads
      exact absurd uploads (by decide)
  | rejected | clientAbort | downloadStarted | expeditedRead | uploadStarted | uploadSegment
  | downloadSegment | dropped => rfl

/-- While a read is driven, nothing but the environment changes the dictionary,
and the client sends nothing but polls. -/
structure Undisturbing (env : Nat → ObjectDictionary N → ObjectDictionary N)
    (od : ObjectDictionary N) (position : Nat) (exchange : Exchange (Host N)) : Prop where
  od : exchange.peer.od = evolved env od position
  replies : exchange.replies.length = position
  polls : ∀ frame, exchange.event = .send frame → Polls exchange.client.state ∧
    (frame.get 0 &&& csMask = ccsUploadInitiate ∨ frame.get 0 &&& csMask = ccsUploadSegment)

theorem Undisturbing.step {od : ObjectDictionary N} {position : Nat}
    {exchange after : Exchange (Host N)} (undisturbing : Undisturbing env od position exchange)
    (taken : exchange.turn (serve env) = pure (some after)) :
    Undisturbing env od (position + 1) after := by
  rcases turn_eq_some_iff.mp taken with
    ⟨frame, peer, resp, client, event, sends, served, answered, rfl⟩
  rcases undisturbing.polls frame sends with ⟨polls, uploads⟩
  rw [serve, Exec.bind_eq_pure_iff] at served
  rcases served with ⟨out, handled, served⟩
  rw [Exec.pure_inj, Prod.mk.injEq] at served
  rcases served with ⟨rfl, _⟩
  refine ⟨?_, by simp [undisturbing.replies], ?_⟩
  · simp only [evolved, od_of_upload handled uploads, undisturbing.od, undisturbing.replies]
  · intro next sendsNext
    cases onResponse_answer answered with
    | finished _ quiet _ => exact absurd sendsNext (quiet next)
    | polled dataType buf toggle =>
        cases sendsNext
        exact ⟨.uploadSeg _ _ _, .inr (encodeUploadSegmentRequest_fields toggle).1⟩
    | delivered _ _ _ _ _ writes => exact absurd polls writes

theorem read_undisturbing (client : SdoClient) (server : SdoServer)
    (od : ObjectDictionary N) (addr : Address) (dataType : DataType) {position : Nat}
    {reached : Exchange (Host N)}
    (steps : Loop.Steps (turn (serve env))
      (Exchange.read client ⟨server, od⟩ addr dataType) position reached) :
    Undisturbing env od position reached := by
  refine steps.invariant (Undisturbing env od) ⟨rfl, rfl, ?_⟩ fun _ _ _ undisturbing taken =>
    undisturbing.step taken
  rintro frame sends
  cases sends
  exact ⟨.uploadInit dataType, .inl (uploadRequest_fields addr).1⟩

/-! ## The whole read -/

/-- What a read of `addr` as `dataType` comes to, by the dictionary at the first
request. -/
def ReadOutcome (od : ObjectDictionary N) (addr : Address) (dataType : DataType)
    (event : SdoEvent) : Prop :=
  match od.entry addr with
  | none => event = .aborted 0x06020000
  | some entry =>
      if entry.access.isReadable = false then event = .aborted 0x06010001
      else
        ∃ encoded decoded,
          entry.value.encodeLe (List.replicate entry.value.size 0) =
            pure (.ok entry.value.size, encoded) ∧
          Value.decodeLe dataType encoded = pure decoded ∧
          (∀ value, decoded = .ok value → event = .complete (some value)) ∧
          (∀ error, decoded = .error error → event = .aborted 0x08000000) ∧
          (dataType = entry.value.dataType → decoded = .ok entry.value)

/-- Every read terminates with an idle client and an outcome decided by the
value stored at the first request, however the dictionary changes after that,
and the server does not change it. -/
theorem read_ends (client : SdoClient) (server : SdoServer) (od : ObjectDictionary N)
    (addr : Address) (dataType : DataType)
    (env : Nat → ObjectDictionary N → ObjectDictionary N) :
    let begun : Exchange (Host N) := Exchange.read client ⟨server, od⟩ addr dataType
    (∃ requests final, Loop.Ends (turn (serve env)) begun requests final ∧
      final.client.state = .idle ∧ ReadOutcome od addr dataType final.event) ∧
    ∀ position reached, Loop.Steps (turn (serve env)) begun position reached →
      reached.peer.od = evolved env od position := by
  refine ⟨?_, fun position reached steps =>
    (read_undisturbing client server od addr dataType steps).od⟩
  rcases uploadRequest_fields addr with ⟨_, named⟩
  cases present : od.entry addr with
  | none =>
      have fails : od.read addr = .error .objectNotFound := by
        simp [ObjectDictionary.read, present]
      have handled : server.onUploadInitiate od (encodeUploadRequest addr) =
          pure ⟨server, od, SdoServer.abort addr .objectDoesNotExist⟩ := by
        simp [SdoServer.onUploadInitiate, named, fails]
      rcases read_refused env client dataType handled with
        ⟨requests, final, ends, idle, event⟩
      refine ⟨requests, final, ends, idle, ?_⟩
      simp only [ReadOutcome, present]
      exact event
  | some entry =>
      cases readable : entry.access.isReadable with
      | false =>
          have fails : od.read addr = .error .writeOnly := by
            simp [ObjectDictionary.read, present, readable]
          have handled : server.onUploadInitiate od (encodeUploadRequest addr) =
              pure ⟨server, od, SdoServer.abort addr .readOfWriteOnly⟩ := by
            simp [SdoServer.onUploadInitiate, named, fails]
          rcases read_refused env client dataType handled with
            ⟨requests, final, ends, idle, event⟩
          refine ⟨requests, final, ends, idle, ?_⟩
          simp only [ReadOutcome, present, readable, if_true]
          exact event
      | true =>
          have reads : od.read addr = .ok entry.value := by
            simp [ObjectDictionary.read, present, readable]
          rcases read_ends_of_readable env client server dataType reads with
            ⟨requests, final, ends, idle, event⟩
          refine ⟨requests, final, ends, idle, ?_⟩
          simp only [ReadOutcome, present, readable, Bool.true_eq_false, if_false]
          refine ⟨entry.value.bytes, _, ?_, Value.decodeLe_eq _ _, ?_, ?_, ?_⟩
          · rw [Value.encodeLe_eq, if_neg (by simp)]
            simp
          · intro value decoded
            rw [event, readEvent]
            split at decoded
            · next accepts =>
                rw [Except.ok.injEq] at decoded
                rw [if_pos accepts, decoded]
            · cases decoded
          · intro error decoded
            rw [event, readEvent]
            split at decoded
            · cases decoded
            · next rejects =>
                rw [if_neg rejects]
                rfl
          · rintro rfl
            rw [if_pos (by simpa using entry.value.accepts_size), Value.ofBytes_bytes]

end CanOpen.Sdo
