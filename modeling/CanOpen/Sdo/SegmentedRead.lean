import CanOpen.Foundation.Trace
import CanOpen.Sdo.Responses

/-! # Reads that the server answers in segments

A client that reads is given arbitrary responses. What it returns, and when it stops
polling, is decided by the segments that follow the initiate.
-/

namespace CanOpen.Sdo

/-! ## Segments -/

def Alternates : Bool → List SdoPayload → Prop
  | _, [] => True
  | toggle, p :: rest =>
      p.get 0 &&& csMask = ccsDownloadSegment ∧ (segmentOf p).toggle = toggle ∧
        Alternates (!toggle) rest

def carried (segments : List SdoPayload) : List UInt8 :=
  segments.flatMap fun p => (segmentOf p).data

def AllMore (segments : List SdoPayload) : Prop :=
  ∀ p ∈ segments, (segmentOf p).last = false

structure Extends (bytes : List UInt8) (toggle : Bool) (p : SdoPayload) : Prop where
  specifier : p.get 0 &&& csMask = ccsDownloadSegment
  sameToggle : (segmentOf p).toggle = toggle
  fits : (bytes ++ (segmentOf p).data).length ≤ maxStringLen

structure Completes (dataType : DataType) (bytes : List UInt8) (toggle : Bool)
    (segments : List SdoPayload) (last : SdoPayload) : Prop where
  alternates : Alternates toggle (segments ++ [last])
  more : AllMore segments
  isLast : (segmentOf last).last = true
  accepts : dataType.Accepts (bytes ++ carried (segments ++ [last])).length

namespace SdoClient

variable {client : SdoClient} {dataType : DataType} {buf : BoundedVec UInt8 maxStringLen}
  {toggle : Bool}

/-- What a polling client makes of a response: it refuses it, completes the read with it,
or polls for the segment behind it. -/
inductive Polled (dataType : DataType) (bytes : List UInt8) (toggle : Bool)
    (resp : SdoPayload) (after : SdoClient) (event : SdoEvent) : Prop
  | refused (code : UInt32) (other : ¬ Extends bytes toggle resp)
      (idle : after.state = .idle) (aborts : event = .aborted code)
  | last (next : Extends bytes toggle resp) (isLast : (segmentOf resp).last = true)
      (idle : after.state = .idle)
      (reads : event = readEvent dataType (bytes ++ (segmentOf resp).data))
  | more (next : Extends bytes toggle resp) (notLast : (segmentOf resp).last = false)
      (extended : BoundedVec UInt8 maxStringLen)
      (content : extended.toList = bytes ++ (segmentOf resp).data)
      (polls : after.state = .uploadSeg dataType extended !toggle)
      (sends : event = .send (encodeUploadSegmentRequest !toggle))

theorem onResponse_polled (resp : SdoPayload)
    (state : client.state = .uploadSeg dataType buf toggle) :
    ∃ after event, client.onResponse resp = pure (after, event) ∧
      Polled dataType buf.toList toggle resp after event := by
  by_cases next : Extends buf.toList toggle resp
  · rcases next with ⟨specifier, rfl, fits⟩
    let extended : BoundedVec UInt8 maxStringLen := ⟨buf.toList ++ (segmentOf resp).data, fits⟩
    have content : extended.toList = buf.toList ++ (segmentOf resp).data := rfl
    cases last : (segmentOf resp).last with
    | true =>
        exact ⟨_, _, onResponse_uploadSeg_last client state specifier last content,
          .last ⟨specifier, rfl, fits⟩ last rfl rfl⟩
    | false =>
        exact ⟨_, _, onResponse_uploadSeg_more client state specifier last content,
          .more ⟨specifier, rfl, fits⟩ last extended content rfl rfl⟩
  · have aborts : ∃ code,
        client.onResponse resp = pure ({ client with state := .idle }, .aborted code) := by
      by_cases abort : resp.get 0 = csAbort
      · exact ⟨wordOf resp, by simp [onResponse, decodeAbort, abort]⟩
      · have notAbort := decodeAbort_of_ne abort
        simp only [onResponse, notAbort, state, onUploadSeg, decodeDataSegment_eq, pure_bind]
        by_cases specifier : resp.get 0 &&& csMask = ccsDownloadSegment
        · by_cases sameToggle : (segmentOf resp).toggle = toggle
          · have full : buf.extendFromSlice (segmentOf resp).data = none := by
              rw [BoundedVec.extendFromSlice, dif_neg]
              exact fun fits => next ⟨specifier, sameToggle, fits⟩
            exact ⟨abortGeneral, by simp [specifier, sameToggle, full]⟩
          · exact ⟨abortToggle, by simp [specifier, sameToggle]⟩
        · exact ⟨abortGeneral, by simp [specifier]⟩
    rcases aborts with ⟨code, aborts⟩
    exact ⟨_, _, aborts, .refused code next rfl rfl⟩

theorem polled_of_onResponse {resp : SdoPayload} {after : SdoClient} {event : SdoEvent}
    (state : client.state = .uploadSeg dataType buf toggle)
    (taken : client.onResponse resp = pure (after, event)) :
    Polled dataType buf.toList toggle resp after event := by
  rcases onResponse_polled resp state with ⟨_, _, answered, polled⟩
  rw [taken, Exec.pure_inj, Prod.mk.injEq] at answered
  rcases answered with ⟨rfl, rfl⟩
  exact polled

theorem readEvent_complete_iff {bytes : List UInt8} :
    (∃ value, readEvent dataType bytes = .complete (some value)) ↔
      dataType.Accepts bytes.length := by
  unfold readEvent
  by_cases accepts : dataType.Accepts bytes.length <;> simp [accepts]

theorem idle_aborts {responses : List SdoPayload}
    {events : List (Trace.Event SdoClient SdoPayload SdoEvent)} {final : SdoClient}
    (idle : client.state = .idle)
    (ran : Trace.run onResponse client responses = pure (events, final)) :
    ∀ event ∈ events, ∃ code, event.output = .aborted code := by
  have history := Trace.run_history (fun _ client => client.state = .idle)
    (fun _ event => ∃ code, event.output = .aborted code) idle
    (fun past client resp after event idle taken => by
      unfold onResponse at taken
      split at taken
      · cases taken
        exact ⟨rfl, _, rfl⟩
      · rw [idle] at taken
        cases taken
        exact ⟨rfl, _, rfl⟩) ran
  intro event member
  rcases List.append_of_mem member with ⟨past, future, split⟩
  exact history.2 past event future split

end SdoClient

/-! ## The responses behind the initiate -/

/-- A read in the history of a client: a response, with what the client makes of it. -/
abbrev Response := Trace.Event SdoClient SdoPayload SdoEvent

section Polling

variable {client final : SdoClient} {dataType : DataType}
  {buf : BoundedVec UInt8 maxStringLen} {toggle : Bool} {responses : List SdoPayload}
  {events : List Response}

theorem carried_cons (p : SdoPayload) (rest : List SdoPayload) :
    carried (p :: rest) = (segmentOf p).data ++ carried rest := rfl

theorem completes_cons_iff {bytes : List UInt8} {p last : SdoPayload}
    {segments : List SdoPayload} :
    Completes dataType bytes toggle (p :: segments) last ↔
      Extends bytes toggle p ∧ (segmentOf p).last = false ∧
        Completes dataType (bytes ++ (segmentOf p).data) (!toggle) segments last := by
  constructor
  · rintro ⟨⟨specifier, sameToggle, alternates⟩, more, isLast, accepts⟩
    rw [List.cons_append, carried_cons, ← List.append_assoc] at accepts
    have fits := accepts.length_le
    rw [List.length_append] at fits
    exact ⟨⟨specifier, sameToggle, by omega⟩, more p List.mem_cons_self, alternates,
      fun item member => more item (List.mem_cons_of_mem p member), isLast, accepts⟩
  · rintro ⟨⟨specifier, sameToggle, -⟩, notLast, alternates, more, isLast, accepts⟩
    refine ⟨⟨specifier, sameToggle, alternates⟩, List.forall_mem_cons.mpr ⟨notLast, more⟩,
      isLast, ?_⟩
    rwa [List.cons_append, carried_cons, ← List.append_assoc]

theorem completes_nil_iff {bytes : List UInt8} {last : SdoPayload} :
    Completes dataType bytes toggle [] last ↔
      Extends bytes toggle last ∧ (segmentOf last).last = true ∧
        dataType.Accepts (bytes ++ (segmentOf last).data).length := by
  have content : carried ([] ++ [last]) = (segmentOf last).data := by
    simp [carried]
  constructor
  · rintro ⟨⟨specifier, sameToggle, -⟩, -, isLast, accepts⟩
    rw [content] at accepts
    exact ⟨⟨specifier, sameToggle, accepts.length_le⟩, isLast, accepts⟩
  · rintro ⟨⟨specifier, sameToggle, -⟩, isLast, accepts⟩
    exact ⟨⟨specifier, sameToggle, trivial⟩, by simp [AllMore], isLast, by rwa [content]⟩

/-- A polling client completes the read with a response exactly if the segments up to
it complete the transfer. -/
theorem complete_iff {segments rest : List Response} {last : Response}
    (state : client.state = .uploadSeg dataType buf toggle)
    (ran : Trace.run SdoClient.onResponse client responses =
      pure (segments ++ last :: rest, final)) :
    (∃ value, last.output = .complete (some value)) ↔
      Completes dataType buf.toList toggle (segments.map Trace.Event.input) last.input := by
  induction segments generalizing client buf toggle responses with
  | nil =>
      rcases Trace.run_first ran with ⟨_, -, -, taken, -⟩
      rw [List.map_nil, completes_nil_iff]
      cases SdoClient.polled_of_onResponse state taken with
      | refused code other idle aborts => simp [aborts, other]
      | last next isLast idle reads =>
          rw [reads, SdoClient.readEvent_complete_iff]
          simp [next, isLast]
      | more next notLast extended content polls sends => simp [sends, notLast]
  | cons first segments induction =>
      rcases Trace.run_first ran with ⟨remaining, -, -, taken, laterRan⟩
      rw [List.map_cons, completes_cons_iff]
      have ended : first.after.state = .idle →
          ¬ ∃ value, last.output = .complete (some value) := by
        rintro idle ⟨value, complete⟩
        rcases SdoClient.idle_aborts idle laterRan last (by simp) with ⟨code, aborted⟩
        rw [complete] at aborted
        cases aborted
      cases SdoClient.polled_of_onResponse state taken with
      | refused code other idle aborts => simp [ended idle, other]
      | last next isLast idle reads => simp [ended idle, isLast]
      | more next notLast extended content polls sends =>
          rw [induction polls laterRan, content]
          simp [next, notLast]

structure Continues (bytes : List UInt8) (toggle : Bool) (segments : List SdoPayload) :
    Prop where
  alternates : Alternates toggle segments
  more : AllMore segments
  fits : (bytes ++ carried segments).length ≤ maxStringLen

theorem continues_cons_iff {bytes : List UInt8} {p : SdoPayload} {segments : List SdoPayload} :
    Continues bytes toggle (p :: segments) ↔
      Extends bytes toggle p ∧ (segmentOf p).last = false ∧
        Continues (bytes ++ (segmentOf p).data) (!toggle) segments := by
  constructor
  · rintro ⟨⟨specifier, sameToggle, alternates⟩, more, fits⟩
    rw [carried_cons, ← List.append_assoc] at fits
    have shorter := fits
    rw [List.length_append] at shorter
    exact ⟨⟨specifier, sameToggle, by omega⟩, more p List.mem_cons_self, alternates,
      fun item member => more item (List.mem_cons_of_mem p member), fits⟩
  · rintro ⟨⟨specifier, sameToggle, -⟩, notLast, alternates, more, fits⟩
    refine ⟨⟨specifier, sameToggle, alternates⟩, List.forall_mem_cons.mpr ⟨notLast, more⟩, ?_⟩
    rwa [carried_cons, ← List.append_assoc]

/-- A polling client goes on polling exactly as long as it is given segments that announce
another one and fit. -/
theorem polls_iff (state : client.state = .uploadSeg dataType buf toggle)
    (ran : Trace.run SdoClient.onResponse client responses = pure (events, final)) :
    (∀ event ∈ events, ∃ frame, event.output = .send frame) ↔
      Continues buf.toList toggle responses := by
  induction responses generalizing client buf toggle events with
  | nil =>
      cases ran
      have continues : Continues buf.toList toggle [] :=
        ⟨trivial, by simp [AllMore], by simpa [carried] using buf.length_le⟩
      simp [continues]
  | cons resp responses induction =>
      rcases Trace.run_cons_eq_pure_iff.mp ran with ⟨after, output, later, taken, laterRan, rfl⟩
      rw [List.forall_mem_cons, continues_cons_iff]
      cases SdoClient.polled_of_onResponse state taken with
      | refused code other idle aborts => simp [aborts, other]
      | last next isLast idle reads =>
          have ended : ¬ ∃ frame, output = .send frame := by
            rw [reads, SdoClient.readEvent]
            split <;> simp
          simp [ended, isLast]
      | more next notLast extended content polls sends =>
          rw [induction polls laterRan, content]
          simp [next, notLast, sends]

end Polling

/-! ## The first response -/

namespace SdoClient

theorem onResponse_no_initiate {client : SdoClient} {dataType : DataType} {resp : SdoPayload}
    {error : Error} (state : client.state = .uploadInit dataType)
    (notSegmented : decodeUploadInitiateSegmentedResponse resp = .error error) :
    ∃ event, client.onResponse resp = pure ({ client with state := .idle }, event) ∧
      ∀ frame, event ≠ .send frame := by
  by_cases abort : resp.get 0 = csAbort
  · exact ⟨.aborted (wordOf resp), by simp [onResponse, decodeAbort, abort], by simp⟩
  · have notAbort := decodeAbort_of_ne abort
    simp only [onResponse, notAbort, state, onUploadInit, decodeUploadExpeditedResponse_returns,
      pure_bind, notSegmented]
    split
    · exact ⟨_, rfl, by simp⟩
    · exact ⟨_, rfl, by simp⟩

/-- A client that reads, or has read. -/
inductive Reads : State → Prop
  | idle : Reads .idle
  | uploadInit (dataType) : Reads (.uploadInit dataType)
  | uploadSeg (dataType buf toggle) : Reads (.uploadSeg dataType buf toggle)

theorem onResponse_returns {client : SdoClient} (reads : Reads client.state)
    (resp : SdoPayload) :
    ∃ after event, client.onResponse resp = pure (after, event) ∧ Reads after.state := by
  generalize state : client.state = current at reads
  cases reads with
  | idle =>
      unfold onResponse
      split
      · exact ⟨_, _, rfl, .idle⟩
      · rw [state]
        exact ⟨_, _, rfl, .idle⟩
  | uploadInit dataType =>
      cases segmented : decodeUploadInitiateSegmentedResponse resp with
      | ok declared =>
          exact ⟨_, _, onResponse_uploadInit_segmented state segmented, .uploadSeg _ _ _⟩
      | error error =>
          rcases onResponse_no_initiate state segmented with ⟨event, answered, -⟩
          exact ⟨_, event, answered, .idle⟩
  | uploadSeg dataType buf toggle =>
      rcases onResponse_polled resp state with ⟨after, event, answered, polled⟩
      refine ⟨after, event, answered, ?_⟩
      cases polled with
      | refused code other idle aborts => exact idle ▸ .idle
      | last next isLast idle reads => exact idle ▸ .idle
      | more next notLast extended content polls sends => exact polls ▸ .uploadSeg _ _ _

theorem read_returns (client : SdoClient) (addr : Address) (dataType : DataType)
    (responses : List SdoPayload) :
    ∃ events final,
      Trace.run onResponse (client.read addr dataType).1 responses = pure (events, final) := by
  have begun : Reads (client.read addr dataType).1.state := .uploadInit dataType
  rcases Trace.run_total (fun client : SdoClient => Reads client.state) responses begun
    (fun client resp _ reads => onResponse_returns reads resp) with ⟨events, final, ran, -⟩
  exact ⟨events, final, ran⟩

end SdoClient

/-! ## The size of a segmented read -/

/-- A read that completes behind a segmented initiate has received as many bytes as that
declares. -/
def WholeReads (events : List Response) : Prop :=
  ∀ initiate segments last rest addr size value,
    events = initiate :: (segments ++ last :: rest) →
    decodeUploadInitiateSegmentedResponse initiate.input = .ok (addr, size) →
    last.output = .complete (some value) →
    (carried ((segments ++ [last]).map Trace.Event.input)).length = size.toNat

/-- Segments that complete the transfer behind a segmented initiate carry as many bytes as
that declares. -/
def SizesDeclared (dataType : DataType) (responses : List SdoPayload) : Prop :=
  ∀ initiate segments last rest addr size,
    responses = initiate :: (segments ++ last :: rest) →
    decodeUploadInitiateSegmentedResponse initiate = .ok (addr, size) →
    Completes dataType [] false segments last →
    (carried (segments ++ [last])).length = size.toNat

/-- A client returns only whole values exactly to a server that sends as many bytes as it
declares. -/
theorem wholeReads_iff (client : SdoClient) (addr : Address) (dataType : DataType)
    (responses : List SdoPayload) :
    ∃ events final,
      Trace.run SdoClient.onResponse (client.read addr dataType).1 responses =
        pure (events, final) ∧
      (WholeReads events ↔ SizesDeclared dataType responses) := by
  rcases client.read_returns addr dataType responses with ⟨events, final, ran⟩
  have inputs := Trace.run_inputs ran
  have completes : ∀ {initiate last : Response} {segments rest : List Response} {named size},
      events = initiate :: (segments ++ last :: rest) →
      decodeUploadInitiateSegmentedResponse initiate.input = .ok (named, size) →
      ((∃ value, last.output = .complete (some value)) ↔
        Completes dataType [] false (segments.map Trace.Event.input) last.input) := by
    intro initiate last segments rest named size split segmented
    rw [split] at ran
    rcases Trace.run_first ran with ⟨_, -, -, taken, laterRan⟩
    have begun : (client.read addr dataType).1.state = .uploadInit dataType := rfl
    rw [SdoClient.onResponse_uploadInit_segmented begun segmented, Exec.pure_inj,
      Prod.mk.injEq] at taken
    have polls : initiate.after.state = .uploadSeg dataType .new false := by
      rw [← taken.1]
    exact complete_iff polls laterRan
  refine ⟨events, final, ran, ?_, ?_⟩
  · intro whole initiate segments last rest named size split segmented complete
    rw [← inputs, List.map_eq_cons_iff] at split
    rcases split with ⟨initiateEvent, later, splitEvents, rfl, split⟩
    rw [List.map_eq_append_iff] at split
    rcases split with ⟨segmentEvents, ending, rfl, rfl, split⟩
    rw [List.map_eq_cons_iff] at split
    rcases split with ⟨lastEvent, restEvents, rfl, rfl, rfl⟩
    rcases (completes splitEvents segmented).mpr complete with ⟨value, completed⟩
    simpa using whole _ _ _ _ named size value splitEvents segmented completed
  · intro declared initiate segments last rest named size value split segmented complete
    have transfer := (completes split segmented).mp ⟨value, complete⟩
    rw [List.map_append, List.map_singleton]
    refine declared initiate.input _ last.input (rest.map Trace.Event.input) named size ?_
      segmented transfer
    rw [← inputs, split]
    simp

/-- A client that is promised ten bytes of the device name and given a single one takes
that for the name. -/
theorem truncated_read_completes :
    ¬ ∀ client addr dataType responses events final,
      Trace.run SdoClient.onResponse (SdoClient.read client addr dataType).1 responses =
        pure (events, final) → WholeReads events := by
  intro whole
  have completed := whole (.new ⟨0x10, by decide⟩) ⟨0x1008, 0⟩ .visibleString
    [#v[0x41, 0x08, 0x10, 0x00, 0x0A, 0x00, 0x00, 0x00],
      #v[0x0D, 0x56, 0x00, 0x00, 0x00, 0x00, 0x00, 0x00]] _ _ (by rfl)
    _ [] _ [] ⟨0x1008, 0⟩ 10 _ (by rfl) (by rfl) (by rfl)
  exact absurd completed (by decide)

/-! ## The length of a read -/

/-- The responses that a read may take: the initiate, a segment for every byte of the
buffer and the one that no longer fits. -/
def longestRead : Nat := maxStringLen + 2

def EndsWithin (bound : Nat) (events : List Response) : Prop :=
  bound ≤ events.length →
    ∃ event ∈ events.take bound, ∀ frame, event.output ≠ .send frame

/-- A segmented initiate is followed by that many segments that announce another one and
fit into the buffer together. -/
def Stalls (bound : Nat) (responses : List SdoPayload) : Prop :=
  ∃ initiate segments rest declared, responses = initiate :: (segments ++ rest) ∧
    segments.length = bound ∧
    decodeUploadInitiateSegmentedResponse initiate = .ok declared ∧
    Continues [] false segments

/-- Every segment behind the initiate that announces another one carries a byte, as its
documentation says. -/
def CarryData (responses : List SdoPayload) : Prop :=
  ∀ p ∈ responses.tail, p.get 0 &&& csMask = ccsDownloadSegment →
    (segmentOf p).last = false → (segmentOf p).data ≠ []

theorem Alternates.specifier {toggle : Bool} {segments : List SdoPayload} {p : SdoPayload}
    (alternates : Alternates toggle segments) (member : p ∈ segments) :
    p.get 0 &&& csMask = ccsDownloadSegment := by
  induction segments generalizing toggle with
  | nil => cases member
  | cons first rest induction =>
      rcases List.mem_cons.mp member with rfl | member
      · exact alternates.1
      · exact induction alternates.2.2 member

theorem length_le_carried {segments : List SdoPayload}
    (full : ∀ p ∈ segments, (segmentOf p).data ≠ []) :
    segments.length ≤ (carried segments).length := by
  induction segments with
  | nil => exact Nat.zero_le _
  | cons p rest induction =>
      have some := List.length_pos_iff.mpr (full p List.mem_cons_self)
      have others := induction fun item member => full item (List.mem_cons_of_mem p member)
      rw [List.length_cons, carried_cons, List.length_append]
      omega

theorem CarryData.not_stalls {responses : List SdoPayload} (full : CarryData responses) :
    ¬ Stalls (maxStringLen + 1) responses := by
  rintro ⟨initiate, segments, rest, declared, rfl, count, -, continues⟩
  have filled := length_le_carried fun p member => full p (by simp [member])
    (continues.alternates.specifier member) (continues.more p member)
  have fits := continues.fits
  rw [List.nil_append] at fits
  omega

theorem stalls_cons_iff {bound : Nat} {initiate : SdoPayload} {responses : List SdoPayload} :
    Stalls bound (initiate :: responses) ↔
      (∃ declared, decodeUploadInitiateSegmentedResponse initiate = .ok declared) ∧
        bound ≤ responses.length ∧ Continues [] false (responses.take bound) := by
  constructor
  · rintro ⟨_, segments, rest, declared, split, rfl, segmented, continues⟩
    cases split
    exact ⟨⟨declared, segmented⟩, by simp, by simpa using continues⟩
  · rintro ⟨⟨declared, segmented⟩, enough, continues⟩
    exact ⟨initiate, responses.take bound, responses.drop bound, declared, by simp,
      List.length_take_of_le enough, segmented, continues⟩

theorem stalls_iff {client final : SdoClient} {addr : Address} {dataType : DataType}
    {responses : List SdoPayload} {events : List Response} {bound : Nat}
    (ran : Trace.run SdoClient.onResponse (client.read addr dataType).1 responses =
      pure (events, final)) :
    Stalls bound responses ↔ bound + 1 ≤ events.length ∧
      ∀ event ∈ events.take (bound + 1), ∃ frame, event.output = .send frame := by
  have count := congrArg List.length (Trace.run_inputs ran)
  rw [List.length_map] at count
  have begun : (client.read addr dataType).1.state = .uploadInit dataType := rfl
  cases responses with
  | nil => simp [Stalls, count]
  | cons initiate responses =>
      rcases Trace.run_cons_eq_pure_iff.mp ran with
        ⟨after, output, later, taken, laterRan, rfl⟩
      rw [List.length_cons, List.length_cons, Nat.succ_inj] at count
      rw [stalls_cons_iff, List.take_succ_cons, List.forall_mem_cons, List.length_cons,
        Nat.succ_le_succ_iff, count]
      cases segmented : decodeUploadInitiateSegmentedResponse initiate with
      | ok declared =>
          rw [SdoClient.onResponse_uploadInit_segmented begun segmented, Exec.pure_inj,
            Prod.mk.injEq] at taken
          have polling : after.state = .uploadSeg dataType .new false := by
            rw [← taken.1]
          rcases Trace.run_take laterRan bound with ⟨reached, takenRan⟩
          rw [polls_iff polling takenRan]
          simp [← taken.2]
      | error error =>
          rcases SdoClient.onResponse_no_initiate begun segmented with
            ⟨event, answered, ended⟩
          rw [answered, Exec.pure_inj, Prod.mk.injEq] at taken
          simp [← taken.2, ended]

/-- A read is over by a number of responses unless they stall it, so that segments with
data in them end every read. -/
theorem endsWithin_iff (client : SdoClient) (addr : Address) (dataType : DataType)
    (responses : List SdoPayload) :
    ∃ events final,
      Trace.run SdoClient.onResponse (client.read addr dataType).1 responses =
        pure (events, final) ∧
      (∀ bound, EndsWithin (bound + 1) events ↔ ¬ Stalls bound responses) ∧
      (CarryData responses → EndsWithin longestRead events) := by
  rcases client.read_returns addr dataType responses with ⟨events, final, ran⟩
  have ends : ∀ bound, EndsWithin (bound + 1) events ↔ ¬ Stalls bound responses := by
    intro bound
    rw [stalls_iff ran, EndsWithin, not_and]
    simp
  exact ⟨events, final, ran, ends, fun full => (ends _).mpr full.not_stalls⟩

def emptySegments : Bool → Nat → List SdoPayload
  | _, 0 => []
  | toggle, count + 1 =>
      #v[if toggle then 0x1E else 0x0E, 0, 0, 0, 0, 0, 0, 0] :: emptySegments (!toggle) count

theorem emptySegments_length (toggle : Bool) (count : Nat) :
    (emptySegments toggle count).length = count := by
  induction count generalizing toggle with
  | zero => rfl
  | succ count induction => simp [emptySegments, induction]

theorem emptySegments_continues (toggle : Bool) (count : Nat) :
    Continues [] toggle (emptySegments toggle count) := by
  induction count generalizing toggle with
  | zero => exact ⟨trivial, by simp [AllMore, emptySegments], by simp [carried, emptySegments]⟩
  | succ count induction =>
      have next := induction (!toggle)
      rw [emptySegments, continues_cons_iff]
      cases toggle <;> exact ⟨⟨by decide, by decide, by decide⟩, by decide, next⟩

theorem stalls_emptySegments (bound : Nat) :
    Stalls bound (#v[0x41, 0x08, 0x10, 0x00, 0x0A, 0x00, 0x00, 0x00] ::
      emptySegments false bound) := by
  rw [stalls_cons_iff, List.take_of_length_le (Nat.le_of_eq (emptySegments_length _ _))]
  exact ⟨⟨(⟨0x1008, 0⟩, 10), by rfl⟩, Nat.le_of_eq (emptySegments_length _ _).symm,
    emptySegments_continues false bound⟩

/-- No number of responses ends every read. -/
theorem reads_unbounded :
    ¬ ∃ bound, ∀ client addr dataType responses events final,
      Trace.run SdoClient.onResponse (SdoClient.read client addr dataType).1 responses =
        pure (events, final) → EndsWithin bound events := by
  rintro ⟨bound, ends⟩
  rcases SdoClient.read_returns (.new ⟨0x10, by decide⟩) ⟨0x1008, 0⟩ .visibleString _
    with ⟨events, final, ran⟩
  rcases (stalls_iff ran).mp (stalls_emptySegments bound) with ⟨enough, sends⟩
  rcases ends _ _ _ _ _ _ ran (by omega) with ⟨event, member, ended⟩
  rcases sends event (List.take_subset_take_left events (by omega) member) with ⟨frame, sent⟩
  exact ended frame sent

end CanOpen.Sdo
