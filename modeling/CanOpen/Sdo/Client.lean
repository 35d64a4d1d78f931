import CanOpen.Foundation.BoundedVec
import CanOpen.Sdo.Codec

/-! # The SDO client

Drives read and write transactions, one response at a time.
-/

namespace CanOpen.Sdo

inductive SdoEvent where
  | send (frame : SdoPayload)
  | complete (value : Option Value)
  | aborted (code : UInt32)
  deriving DecidableEq

def abortToggle : UInt32 := 0x05030000

def abortGeneral : UInt32 := 0x08000000

inductive State where
  | idle
  | downloadExpedited
  | downloadInit (data : Vector UInt8 maxStringLen) (len : Nat)
  | downloadSeg (data : Vector UInt8 maxStringLen) (len pos : Nat) (lastToggle : Bool)
  | uploadInit (dataType : DataType)
  | uploadSeg (dataType : DataType) (buf : BoundedVec UInt8 maxStringLen) (toggle : Bool)
  deriving DecidableEq

structure SdoClient where
  node : NodeId
  state : State
  deriving DecidableEq

namespace SdoClient

def new (node : NodeId) : SdoClient := ⟨node, .idle⟩

def requestCobId (client : SdoClient) : UInt16 := Sdo.requestCobId client.node

def responseCobId (client : SdoClient) : UInt16 := Sdo.responseCobId client.node

def isBusy (client : SdoClient) : Bool :=
  match client.state with
  | .idle => false
  | _ => true

def read (client : SdoClient) (addr : Address) (dataType : DataType) :
    SdoClient × SdoPayload :=
  ({ client with state := .uploadInit dataType }, encodeUploadRequest addr)

def write (client : SdoClient) (addr : Address) (value : Value) :
    Exec (SdoClient × SdoPayload) :=
  let size := value.size
  if 1 ≤ size ∧ size ≤ 4 then do
    let encoded ← encodeDownloadExpedited addr value
    let frame ← Exec.expect encoded
    pure ({ client with state := .downloadExpedited }, frame)
  else do
    let (result, data) ← value.encodeWindow (Vector.replicate maxStringLen 0) 0 size
    let _ ← Exec.expect result
    pure ({ client with state := .downloadInit data size },
      encodeDownloadInitiateSegmented addr (UInt32.ofNat size))

def sendDownloadSegment (client : SdoClient) (data : Vector UInt8 maxStringLen)
    (len pos : Nat) (toggle : Bool) : Exec (SdoClient × SdoEvent) := do
  let remaining ← Exec.checkedSub len pos
  let n := min remaining segmentDataMax
  let last : Bool := remaining ≤ segmentDataMax
  let window ← Exec.slice data.toList pos (pos + n)
  let encoded ← encodeDataSegment window toggle last
  let frame ← Exec.expect encoded
  pure ({ client with state := .downloadSeg data len (pos + n) toggle }, .send frame)

def onDownloadExpedited (client : SdoClient) (resp : SdoPayload) : SdoClient × SdoEvent :=
  match decodeDownloadResponse resp with
  | .ok _ => (client, .complete none)
  | .error _ => (client, .aborted abortGeneral)

def onDownloadInit (client : SdoClient) (resp : SdoPayload)
    (data : Vector UInt8 maxStringLen) (len : Nat) : Exec (SdoClient × SdoEvent) :=
  match decodeDownloadResponse resp with
  | .error _ => pure (client, .aborted abortGeneral)
  | .ok _ => client.sendDownloadSegment data len 0 false

def onDownloadSeg (client : SdoClient) (resp : SdoPayload)
    (data : Vector UInt8 maxStringLen) (len pos : Nat) (lastToggle : Bool) :
    Exec (SdoClient × SdoEvent) :=
  match decodeDownloadSegmentResponse resp with
  | .ok t =>
      if t = lastToggle then
        if len ≤ pos then pure (client, .complete none)
        else client.sendDownloadSegment data len pos !lastToggle
      else pure (client, .aborted abortToggle)
  | .error _ => pure (client, .aborted abortGeneral)

def onUploadInit (client : SdoClient) (resp : SdoPayload) (dataType : DataType) :
    Exec (SdoClient × SdoEvent) := do
  match ← decodeUploadExpeditedResponse resp dataType with
  | .ok (_, value) => pure (client, .complete (some value))
  | .error _ =>
      match decodeUploadInitiateSegmentedResponse resp with
      | .ok _ =>
          pure ({ client with state := .uploadSeg dataType .new false },
            .send (encodeUploadSegmentRequest false))
      | .error _ => pure (client, .aborted abortGeneral)

def onUploadSeg (client : SdoClient) (resp : SdoPayload) (dataType : DataType)
    (buf : BoundedVec UInt8 maxStringLen) (toggle : Bool) : Exec (SdoClient × SdoEvent) := do
  match ← decodeDataSegment resp with
  | .error _ => pure (client, .aborted abortGeneral)
  | .ok seg =>
      if seg.toggle ≠ toggle then pure (client, .aborted abortToggle)
      else
        match buf.extendFromSlice seg.data with
        | none => pure (client, .aborted abortGeneral)
        | some buf =>
            if seg.last then do
              match ← Value.decodeLe dataType buf.toList with
              | .ok value => pure (client, .complete (some value))
              | .error _ => pure (client, .aborted abortGeneral)
            else
              pure ({ client with state := .uploadSeg dataType buf !toggle },
                .send (encodeUploadSegmentRequest !toggle))

def onResponse (client : SdoClient) (resp : SdoPayload) : Exec (SdoClient × SdoEvent) :=
  let parked := { client with state := .idle }
  match decodeAbort resp with
  | .ok (_, code) => pure (parked, .aborted code)
  | .error _ =>
      match client.state with
      | .idle => pure (parked, .aborted abortGeneral)
      | .downloadExpedited => pure (parked.onDownloadExpedited resp)
      | .downloadInit data len => parked.onDownloadInit resp data len
      | .downloadSeg data len pos lastToggle =>
          parked.onDownloadSeg resp data len pos lastToggle
      | .uploadInit dataType => parked.onUploadInit resp dataType
      | .uploadSeg dataType buf toggle => parked.onUploadSeg resp dataType buf toggle

/-! ## What the client does with a response -/

theorem onResponse_abort (client : SdoClient) (addr : Address) (code : SdoAbortCode) :
    client.onResponse (encodeAbort addr code) =
      pure ({ client with state := .idle }, .aborted code.code) := by
  simp [onResponse, decodeAbort, encodeAbort]

theorem decodeAbort_of_ne {resp : SdoPayload} (notAbort : resp.get 0 ≠ csAbort) :
    decodeAbort resp = .error .unexpectedCommand := by
  simp [decodeAbort, notAbort]

theorem ne_csAbort_of_specifier {resp : SdoPayload} {specifier : UInt8}
    (carries : resp.get 0 &&& csMask = specifier) (different : specifier ≠ csAbort) :
    resp.get 0 ≠ csAbort := by
  intro equal
  rw [equal] at carries
  exact different (carries ▸ by decide)

private theorem decode_downloadResponse (addr : Address) :
    decodeDownloadResponse (encodeDownloadResponse addr) = .ok addr ∧
      decodeAbort (encodeDownloadResponse addr) = .error .unexpectedCommand := by
  refine ⟨?_, decodeAbort_of_ne ?_⟩
  · simp [decodeDownloadResponse, encodeDownloadResponse]
  · rw [encodeDownloadResponse, addressed_command]
    decide

theorem onResponse_downloadExpedited (client : SdoClient) (addr : Address)
    (state : client.state = .downloadExpedited) :
    client.onResponse (encodeDownloadResponse addr) =
      pure ({ client with state := .idle }, .complete none) := by
  rcases decode_downloadResponse addr with ⟨confirmed, notAbort⟩
  simp [onResponse, notAbort, state, onDownloadExpedited, confirmed]

theorem onResponse_downloadInit (client : SdoClient) {data : Vector UInt8 maxStringLen}
    {len : Nat} (addr : Address) (state : client.state = .downloadInit data len) :
    client.onResponse (encodeDownloadResponse addr) =
      sendDownloadSegment { client with state := .idle } data len 0 false := by
  rcases decode_downloadResponse addr with ⟨confirmed, notAbort⟩
  simp [onResponse, notAbort, state, onDownloadInit, confirmed]

private theorem decode_downloadSegmentResponse (toggle : Bool) :
    decodeDownloadSegmentResponse (encodeDownloadSegmentResponse toggle) = .ok toggle ∧
      decodeAbort (encodeDownloadSegmentResponse toggle) = .error .unexpectedCommand := by
  cases toggle <;> decide

theorem onResponse_downloadSeg {client : SdoClient} {data : Vector UInt8 maxStringLen}
    {len pos : Nat} {toggle : Bool} (state : client.state = .downloadSeg data len pos toggle) :
    client.onResponse (encodeDownloadSegmentResponse toggle) =
      if len ≤ pos then pure ({ client with state := .idle }, .complete none)
      else sendDownloadSegment { client with state := .idle } data len pos (!toggle) := by
  rcases decode_downloadSegmentResponse toggle with ⟨confirmed, notAbort⟩
  simp [onResponse, notAbort, state, onDownloadSeg, confirmed]

theorem sendDownloadSegment_eq (client : SdoClient) (data : Vector UInt8 maxStringLen)
    {len pos : Nat} (toggle : Bool) (posLe : pos ≤ len) (lenLe : len ≤ maxStringLen) :
    ∃ p, client.sendDownloadSegment data len pos toggle =
        pure ({ client with
          state := .downloadSeg data len (pos + min (len - pos) 7) toggle }, .send p) ∧
      p.get 0 &&& csMask = ccsDownloadSegment ∧
      segmentOf p = ⟨toggle, decide (len - pos ≤ 7),
        (data.toList.take (pos + min (len - pos) 7)).drop pos⟩ := by
  have slice := Exec.slice_of_le data.toList (Nat.le_add_right pos (min (len - pos) 7))
    (by simp only [Vector.length_toList]; omega)
  have short : ((data.toList.take (pos + min (len - pos) 7)).drop pos).length ≤ 7 := by
    simp only [List.length_drop, List.length_take]
    omega
  rcases encodeDataSegment_eq toggle (decide (len - pos ≤ 7)) short with
    ⟨p, encoded, specifier, carries⟩
  refine ⟨p, ?_, specifier, carries⟩
  simp only [sendDownloadSegment, Exec.checkedSub_of_le posLe, pure_bind, segmentDataMax,
    slice, encoded, Exec.expect_ok]

theorem write_expedited (client : SdoClient) (addr : Address) {value : Value}
    (positive : 1 ≤ value.size) (small : value.size ≤ 4) :
    ∃ p, client.write addr value =
        pure ({ client with state := .downloadExpedited }, p) ∧
      IsExpedited ccsDownloadInitiate addr value.bytes p := by
  rcases encodeExpedited_eq ccsDownloadInitiate addr positive small with
    ⟨p, encoded, fields⟩
  refine ⟨p, ?_, fields⟩
  simp only [write, positive, small, and_self, if_true, encodeDownloadExpedited, encoded,
    pure_bind, Exec.expect_ok]

theorem write_segmented (client : SdoClient) (addr : Address) {value : Value}
    (large : ¬ (1 ≤ value.size ∧ value.size ≤ 4)) :
    ∃ data, client.write addr value =
        pure ({ client with state := .downloadInit data value.size },
          encodeDownloadInitiateSegmented addr (UInt32.ofNat value.size)) ∧
      Holds data value.bytes := by
  rcases encodeWindow_front value with ⟨data, encoded, holds⟩
  refine ⟨data, ?_, holds⟩
  simp only [write, large, if_false, encoded, pure_bind, Exec.expect_ok]

def readEvent (dataType : DataType) (bytes : List UInt8) : SdoEvent :=
  if dataType.Accepts bytes.length then .complete (some (Value.ofBytes dataType bytes))
  else .aborted abortGeneral

theorem onResponse_uploadInit_expedited {client : SdoClient} {dataType : DataType}
    {addr : Address} {bytes : List UInt8} {p : SdoPayload}
    (state : client.state = .uploadInit dataType)
    (fields : IsExpedited scsUploadInitiate addr bytes p)
    (positive : 1 ≤ bytes.length) (small : bytes.length ≤ 4) :
    client.onResponse p =
      pure ({ client with state := .idle }, readEvent dataType bytes) := by
  rcases fields.command (.inr rfl) positive small with ⟨specifier, inline_, sized, count⟩
  have notAbort := decodeAbort_of_ne (ne_csAbort_of_specifier specifier (by decide))
  have decoded := decodeUploadExpeditedResponse_eq fields dataType positive small
  have notSegmented : decodeUploadInitiateSegmentedResponse p = .error .unexpectedCommand := by
    simp [decodeUploadInitiateSegmentedResponse, decodeInitiateSegmented, inline_]
  simp only [onResponse, notAbort, state, onUploadInit, decoded, pure_bind, readEvent]
  by_cases accepts : dataType.Accepts bytes.length
  · simp [accepts]
  · simp only [accepts, if_false, notSegmented]

theorem onResponse_uploadInit_segmented {client : SdoClient} {dataType : DataType}
    {resp : SdoPayload} {addr : Address} {size : UInt32}
    (state : client.state = .uploadInit dataType)
    (segmented : decodeUploadInitiateSegmentedResponse resp = .ok (addr, size)) :
    client.onResponse resp =
      pure ({ client with state := .uploadSeg dataType .new false },
        .send (encodeUploadSegmentRequest false)) := by
  have fields := segmented
  rw [decodeUploadInitiateSegmentedResponse_eq] at fields
  split at fields
  · next initiate =>
      have notAbort := decodeAbort_of_ne (ne_csAbort_of_specifier initiate.1 (by decide))
      have notExpedited : decodeUploadExpeditedResponse resp dataType =
          pure (.error .unexpectedCommand) := by
        rw [decodeUploadExpeditedResponse_returns, if_neg]
        exact fun both => ((expeditedSized_iff _).mp both.2).1 initiate.2.1
      simp only [onResponse, notAbort, state, onUploadInit, notExpedited, pure_bind, segmented]
  · cases fields

theorem onResponse_uploadSeg_more (client : SdoClient) {dataType : DataType}
    {buf extended : BoundedVec UInt8 maxStringLen} {p : SdoPayload}
    (state : client.state = .uploadSeg dataType buf (segmentOf p).toggle)
    (specifier : p.get 0 &&& csMask = ccsDownloadSegment)
    (more : (segmentOf p).last = false)
    (content : extended.toList = buf.toList ++ (segmentOf p).data) :
    client.onResponse p =
      pure ({ client with state := .uploadSeg dataType extended !(segmentOf p).toggle },
        .send (encodeUploadSegmentRequest !(segmentOf p).toggle)) := by
  have notAbort := decodeAbort_of_ne (ne_csAbort_of_specifier specifier (by decide))
  have extends_ := BoundedVec.extendFromSlice_eq_some_iff.mpr content
  simp [onResponse, notAbort, state, onUploadSeg, decodeDataSegment_eq, specifier, extends_,
    more]

theorem onResponse_uploadSeg_last (client : SdoClient) {dataType : DataType}
    {buf extended : BoundedVec UInt8 maxStringLen} {p : SdoPayload}
    (state : client.state = .uploadSeg dataType buf (segmentOf p).toggle)
    (specifier : p.get 0 &&& csMask = ccsDownloadSegment)
    (last : (segmentOf p).last = true)
    (content : extended.toList = buf.toList ++ (segmentOf p).data) :
    client.onResponse p =
      pure ({ client with state := .idle }, readEvent dataType extended.toList) := by
  have notAbort := decodeAbort_of_ne (ne_csAbort_of_specifier specifier (by decide))
  have extends_ := BoundedVec.extendFromSlice_eq_some_iff.mpr content
  simp only [onResponse, notAbort, state, onUploadSeg, decodeDataSegment_eq, specifier,
    if_true, pure_bind, ne_eq, not_true_eq_false, if_false, extends_, last,
    Value.decodeLe_eq, readEvent]
  by_cases accepts : dataType.Accepts extended.toList.length <;> simp [accepts]

/-! ## What a response can lead to -/

inductive Polls : State → Prop
  | uploadInit (dataType) : Polls (.uploadInit dataType)
  | uploadSeg (dataType buf toggle) : Polls (.uploadSeg dataType buf toggle)

inductive Sent : State → Prop
  | downloadExpedited : Sent .downloadExpedited
  | downloadSeg (data len pos lastToggle) : len ≤ pos →
      Sent (.downloadSeg data len pos lastToggle)

/-- Every response ends the transaction, draws a poll from a reading client or
a segment from a writing one. -/
inductive Answer (client : SdoClient) (resp : SdoPayload) : SdoClient × SdoEvent → Prop
  | finished (event : SdoEvent) :
      (∀ frame, event ≠ .send frame) →
      (event = .complete none → resp.get 0 ≠ csAbort ∧ Sent client.state) →
      Answer client resp ({ client with state := .idle }, event)
  | polled (dataType : DataType) (buf : BoundedVec UInt8 maxStringLen) (toggle : Bool) :
      Polls client.state →
      Answer client resp ({ client with state := .uploadSeg dataType buf toggle },
        .send (encodeUploadSegmentRequest toggle))
  | delivered (data : Vector UInt8 maxStringLen) (len pos : Nat) (toggle : Bool)
      (p : SdoPayload) :
      ¬ Polls client.state → p.get 0 &&& csMask = ccsDownloadSegment →
      (len ≤ pos → (segmentOf p).last = true) →
      Answer client resp ({ client with state := .downloadSeg data len pos toggle }, .send p)

variable {client : SdoClient} {resp : SdoPayload} {out : SdoClient × SdoEvent}

theorem Answer.confirmed {after : SdoClient}
    (answer : Answer client resp (after, .complete none)) :
    resp.get 0 ≠ csAbort ∧ Sent client.state := by
  cases answer with
  | finished _ _ written => exact written rfl

private theorem Answer.of_end {event : SdoEvent}
    (answered : (pure ({ client with state := .idle }, event) : Exec _) = pure out)
    (quiet : ∀ frame, event ≠ .send frame) (notWritten : event ≠ .complete none) :
    Answer client resp out := by
  rw [Exec.pure_inj] at answered
  exact answered ▸ .finished event quiet fun equal => absurd equal notWritten

private theorem Answer.of_written
    (answered : (pure ({ client with state := .idle }, .complete none) : Exec _) = pure out)
    (notAbort : resp.get 0 ≠ csAbort) (sent : Sent client.state) : Answer client resp out := by
  rw [Exec.pure_inj] at answered
  exact answered ▸ .finished _ (by simp) fun _ => ⟨notAbort, sent⟩

private theorem Answer.of_segment {parked : SdoClient} {data : Vector UInt8 maxStringLen}
    {len pos : Nat} {toggle : Bool} (writes : ¬ Polls client.state)
    (same : parked = { client with state := .idle })
    (sent : parked.sendDownloadSegment data len pos toggle = pure out) :
    Answer client resp out := by
  subst same
  simp only [sendDownloadSegment, Exec.bind_eq_pure_iff, Exec.expect_eq_pure_iff] at sent
  rcases sent with ⟨remaining, counted, window, _, encoded, encodes, p, equal, sent⟩
  rw [Exec.pure_inj] at sent
  subst equal sent
  rcases encodeDataSegment_carries encodes with ⟨specifier, carries⟩
  refine .delivered _ _ _ _ p writes specifier fun all => ?_
  rw [carries, decide_eq_true_iff]
  rcases Exec.checkedSub_eq_pure_iff.mp counted with ⟨posLe, rfl⟩
  simp only [segmentDataMax] at all ⊢
  omega

theorem onResponse_answer (answered : client.onResponse resp = pure out) :
    Answer client resp out := by
  unfold onResponse at answered
  split at answered
  · exact .of_end answered (by simp) (by simp)
  · next notAborted =>
      have notAbort : resp.get 0 ≠ csAbort := by
        intro aborts
        simp [decodeAbort, aborts] at notAborted
      split at answered
      · exact .of_end answered (by simp) (by simp)
      · next state =>
          unfold onDownloadExpedited at answered
          split at answered
          · exact .of_written answered notAbort (state ▸ .downloadExpedited)
          · exact .of_end answered (by simp) (by simp)
      · next data len state =>
          have writes : ¬ Polls client.state := by
            rw [state]
            intro polls
            cases polls
          unfold onDownloadInit at answered
          split at answered
          · exact .of_end answered (by simp) (by simp)
          · exact .of_segment writes rfl answered
      · next data len pos toggle state =>
          have writes : ¬ Polls client.state := by
            rw [state]
            intro polls
            cases polls
          unfold onDownloadSeg at answered
          split at answered
          · split at answered
            · split at answered
              · next all =>
                  exact .of_written answered notAbort (state ▸ .downloadSeg _ _ _ _ all)
              · exact .of_segment writes rfl answered
            · exact .of_end answered (by simp) (by simp [abortToggle])
          · exact .of_end answered (by simp) (by simp)
      · next dataType state =>
          have polls : Polls client.state := state ▸ .uploadInit dataType
          rw [onUploadInit, Exec.bind_eq_pure_iff] at answered
          rcases answered with ⟨decoded, _, answered⟩
          split at answered
          · exact .of_end answered (by simp) (by simp)
          · split at answered
            · rw [Exec.pure_inj] at answered
              exact answered ▸ .polled _ _ _ polls
            · exact .of_end answered (by simp) (by simp)
      · next dataType buf toggle state =>
          have polls : Polls client.state := state ▸ .uploadSeg dataType buf toggle
          rw [onUploadSeg, Exec.bind_eq_pure_iff] at answered
          rcases answered with ⟨decoded, _, answered⟩
          split at answered
          · exact .of_end answered (by simp) (by simp)
          · split at answered
            · exact .of_end answered (by simp) (by simp)
            · split at answered
              · exact .of_end answered (by simp) (by simp)
              · split at answered
                · rw [Exec.bind_eq_pure_iff] at answered
                  rcases answered with ⟨value, _, answered⟩
                  split at answered
                  · exact .of_end answered (by simp) (by simp)
                  · exact .of_end answered (by simp) (by simp)
                · rw [Exec.pure_inj] at answered
                  exact answered ▸ .polled _ _ _ polls

end SdoClient

end CanOpen.Sdo
