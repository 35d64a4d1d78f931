import CanOpen.Sdo.SegmentedRead
import CanOpen.Sdo.Segmenting

/-! # Writes to any server

What a client that writes sends and reports when its responses are arbitrary, and how its
segments compare with those of a segment writer.
-/

namespace CanOpen.Sdo

/-! ## Acknowledgements -/

def Acknowledges : (index : Nat) → SdoPayload → Prop
  | 0, resp => ∃ addr, decodeDownloadResponse resp = .ok addr
  | index + 1, resp => decodeDownloadSegmentResponse resp = .ok (alternate index)

def AllAcknowledge (responses : List SdoPayload) : Prop :=
  ∀ index resp, responses[index]? = some resp → Acknowledges index resp

def Inline (length : Nat) : Prop := 1 ≤ length ∧ length ≤ 4

instance (length : Nat) : Decidable (Inline length) := by
  unfold Inline
  infer_instance

def confirmations (length : Nat) : Nat := if Inline length then 1 else 1 + segmentCount length

def sentFrames (events : List Response) : List SdoPayload :=
  events.filterMap fun event =>
    match event.output with
    | .send frame => some frame
    | _ => none

def Ends : SdoEvent → Prop
  | .send _ => False
  | .complete _ | .aborted _ => True

section

variable {responses : List SdoPayload} {resp : SdoPayload} {index : Nat}

theorem Acknowledges.ne_abort (acknowledges : Acknowledges index resp) :
    resp.get 0 ≠ csAbort := by
  intro abort
  cases index with
  | zero =>
      rcases acknowledges with ⟨addr, confirmed⟩
      simp [decodeDownloadResponse, abort, csAbort, scsDownloadInitiate] at confirmed
  | succ index =>
      rw [Acknowledges, decodeDownloadSegmentResponse, decodeToggle, abort, if_pos (by decide)]
        at acknowledges
      cases acknowledges

theorem AllAcknowledge.snoc (all : AllAcknowledge responses)
    (last : Acknowledges responses.length resp) : AllAcknowledge (responses ++ [resp]) :=
  getElem?_snoc all last

theorem allAcknowledge_nil : AllAcknowledge [] := by
  intro index resp found
  cases found

theorem segmentCount_inside {length count : Nat} (within : count < segmentCount length) :
    7 * count ≤ length := by
  unfold segmentCount at within
  omega

end

/-! ## A writing client -/

/-- The client has sent this number of segments and awaits the next confirmation. -/
inductive Awaiting (bytes : List UInt8) : Nat → State → Prop
  | inline (small : Inline bytes.length) : Awaiting bytes 0 .downloadExpedited
  | initiate (large : ¬ Inline bytes.length) (data : Vector UInt8 maxStringLen)
      (holds : Holds data bytes) : Awaiting bytes 0 (.downloadInit data bytes.length)
  | segment (large : ¬ Inline bytes.length) (data : Vector UInt8 maxStringLen)
      (holds : Holds data bytes) (count : Nat) (within : count < segmentCount bytes.length) :
      Awaiting bytes (count + 1) (.downloadSeg data bytes.length
        (min (7 * (count + 1)) bytes.length) (alternate count))

/-- What a writing client makes of a response: the end of the write, or its next segment. -/
inductive Advances (bytes : List UInt8) (sent : Nat) (resp : SdoPayload)
    (after : SdoClient) (event : SdoEvent) : Prop
  | refused (code : UInt32) (other : ¬ Acknowledges sent resp) (idle : after.state = .idle)
      (aborts : event = .aborted code)
  | completed (confirmed : Acknowledges sent resp)
      (all : sent + 1 = confirmations bytes.length) (idle : after.state = .idle)
      (completes : event = .complete none)
  | sends (confirmed : Acknowledges sent resp) (large : ¬ Inline bytes.length) (p : SdoPayload)
      (within : sent < segmentCount bytes.length) (isSlice : IsSlice bytes sent p)
      (awaits : Awaiting bytes (sent + 1) after.state) (event_ : event = .send p)

namespace SdoClient

variable {client : SdoClient} {bytes : List UInt8} {sent : Nat}

theorem sendDownloadSegment_slice (client : SdoClient) {data : Vector UInt8 maxStringLen}
    (large : ¬ Inline bytes.length) (holds : Holds data bytes)
    (fits : bytes.length ≤ maxStringLen) {count : Nat}
    (within : count < segmentCount bytes.length) :
    ∃ p after, client.sendDownloadSegment data bytes.length (7 * count) (alternate count) =
        pure (after, .send p) ∧
      IsSlice bytes count p ∧ Awaiting bytes (count + 1) after.state := by
  have inside := segmentCount_inside within
  have last := segmentCount_last_iff within
  have reached : 7 * count + min (bytes.length - 7 * count) 7 =
      min (7 * (count + 1)) bytes.length := by
    omega
  have window := holds.window (7 * count)
    (show 7 * count + min (bytes.length - 7 * count) 7 ≤ bytes.length by omega)
  rw [segment_window, ← slice] at window
  rcases isSlice_exists bytes count with ⟨p, isSlice⟩
  let after : SdoClient := ⟨client.node,
    .downloadSeg data bytes.length (min (7 * (count + 1)) bytes.length) (alternate count)⟩
  refine ⟨p, after, ?_, isSlice, .segment large data holds count within⟩
  rw [sendDownloadSegment, Exec.checkedSub_of_le inside, pure_bind]
  simp only
  rw [Exec.slice_of_le _ (Nat.le_add_right _ _) (by
      rw [Vector.length_toList]
      omega), pure_bind, window, decide_eq_decide.mpr last, isSlice, pure_bind,
    Exec.expect_ok, pure_bind, reached]

theorem onResponse_acknowledged {resp : SdoPayload} (fits : bytes.length ≤ maxStringLen)
    (awaits : Awaiting bytes sent client.state) (confirmed : Acknowledges sent resp) :
    ∃ after event, client.onResponse resp = pure (after, event) ∧
      Advances bytes sent resp after event := by
  have notAbort := decodeAbort_of_ne confirmed.ne_abort
  generalize state : client.state = current at awaits
  cases awaits with
  | inline small =>
      rcases confirmed with ⟨addr, decoded⟩
      refine ⟨{ client with state := .idle }, .complete none, ?_,
        .completed ⟨addr, decoded⟩ (if_pos small).symm rfl rfl⟩
      simp only [onResponse, notAbort, state, onDownloadExpedited, decoded]
  | initiate large data holds =>
      rcases confirmed with ⟨addr, decoded⟩
      have within : 0 < segmentCount bytes.length := by
        rw [segmentCount]
        omega
      rcases sendDownloadSegment_slice { client with state := .idle } large holds fits within
        with ⟨p, after, sends, isSlice, awaitsNext⟩
      refine ⟨after, .send p, ?_,
        .sends ⟨addr, decoded⟩ large p within isSlice awaitsNext rfl⟩
      simp only [onResponse, notAbort, state, onDownloadInit, decoded]
      exact sends
  | segment large data holds count within =>
      have decoded : decodeDownloadSegmentResponse resp = .ok (alternate count) := confirmed
      have last := segmentCount_last_iff within
      by_cases all : bytes.length ≤ 7 * (count + 1)
      · refine ⟨{ client with state := .idle }, .complete none, ?_,
          .completed confirmed ?_ rfl rfl⟩
        · simp only [onResponse, notAbort, state, onDownloadSeg, decoded, if_true]
          rw [if_pos (by omega)]
        · rw [confirmations, if_neg large]
          omega
      · have more : count + 1 < segmentCount bytes.length := by omega
        have reached : min (7 * (count + 1)) bytes.length = 7 * (count + 1) := by omega
        rcases sendDownloadSegment_slice { client with state := .idle } large holds fits more
          with ⟨p, after, sends, isSlice, awaitsNext⟩
        refine ⟨after, .send p, ?_, .sends confirmed large p more isSlice awaitsNext rfl⟩
        simp only [onResponse, notAbort, state, onDownloadSeg, decoded, if_true]
        rw [if_neg (by omega), reached, ← alternate_succ]
        exact sends

theorem onResponse_refused {resp : SdoPayload} (awaits : Awaiting bytes sent client.state)
    (other : ¬ Acknowledges sent resp) :
    ∃ code, client.onResponse resp = pure ({ client with state := .idle }, .aborted code) := by
  by_cases abort : resp.get 0 = csAbort
  · exact ⟨wordOf resp, by simp [onResponse, decodeAbort, abort]⟩
  · have notAbort := decodeAbort_of_ne abort
    generalize state : client.state = current at awaits
    cases awaits with
    | inline small | initiate large data holds =>
        have failed : resp.get 0 ≠ scsDownloadInitiate := by
          intro confirmed
          apply other
          exact ⟨addressOf resp, by simp [decodeDownloadResponse, confirmed]⟩
        refine ⟨abortGeneral, ?_⟩
        simp [onResponse, notAbort, state, onDownloadExpedited, onDownloadInit,
          decodeDownloadResponse, failed]
    | segment large data holds count within =>
        cases decoded : decodeDownloadSegmentResponse resp with
        | error error =>
            exact ⟨abortGeneral, by simp [onResponse, notAbort, state, onDownloadSeg, decoded]⟩
        | ok toggle =>
            have differs : toggle ≠ alternate count := by
              rintro rfl
              exact other decoded
            exact ⟨abortToggle,
              by simp [onResponse, notAbort, state, onDownloadSeg, decoded, differs]⟩

theorem onResponse_advances (fits : bytes.length ≤ maxStringLen)
    (awaits : Awaiting bytes sent client.state) (resp : SdoPayload) :
    ∃ after event, client.onResponse resp = pure (after, event) ∧
      Advances bytes sent resp after event := by
  by_cases confirmed : Acknowledges sent resp
  · exact onResponse_acknowledged fits awaits confirmed
  · rcases onResponse_refused awaits confirmed with ⟨code, aborts⟩
    exact ⟨_, _, aborts, .refused code confirmed rfl rfl⟩

theorem advances_of_onResponse {resp : SdoPayload} {after : SdoClient} {event : SdoEvent}
    (fits : bytes.length ≤ maxStringLen) (awaits : Awaiting bytes sent client.state)
    (taken : client.onResponse resp = pure (after, event)) :
    Advances bytes sent resp after event := by
  rcases onResponse_advances fits awaits resp with ⟨_, _, answered, advances⟩
  rw [taken, Exec.pure_inj, Prod.mk.injEq] at answered
  rcases answered with ⟨rfl, rfl⟩
  exact advances

theorem onResponse_idle {resp : SdoPayload} (idle : client.state = .idle) :
    ∃ after code, client.onResponse resp = pure (after, .aborted code) ∧ after.state = .idle ∧
      ∀ error, decodeAbort resp = .error error → code = abortGeneral := by
  cases decoded : decodeAbort resp with
  | ok abort =>
      refine ⟨{ client with state := .idle }, abort.2, ?_, rfl, nofun⟩
      simp only [onResponse, decoded]
  | error error =>
      refine ⟨{ client with state := .idle }, abortGeneral, ?_, rfl, fun _ _ => rfl⟩
      simp only [onResponse, decoded, idle]

theorem write_awaits (client : SdoClient) (addr : Address) (value : Value) :
    ∃ started request, client.write addr value = pure (started, request) ∧
      Awaiting value.bytes 0 started.state := by
  by_cases small : 1 ≤ value.size ∧ value.size ≤ 4
  · rcases client.write_expedited addr small.1 small.2 with ⟨p, writes, -⟩
    refine ⟨_, p, writes, .inline ?_⟩
    rw [Value.bytes_length]
    exact small
  · rcases client.write_segmented addr small with ⟨data, writes, holds⟩
    rw [← Value.bytes_length] at writes small
    exact ⟨_, _, writes, .initiate small data holds⟩

end SdoClient

/-! ## The history of a write -/

/-- The frames sent are segments of the bytes, and none if the bytes fit inline. -/
structure SentBy (bytes : List UInt8) (frames : List SdoPayload) : Prop where
  slices : Slices bytes frames
  quiet : Inline bytes.length → frames = []

inductive Progress (bytes : List UInt8) (past : List Response) (state : State) : Prop
  | waiting (awaits : Awaiting bytes past.length state)
      (confirmed : AllAcknowledge (past.map Trace.Event.input))
      (each : (sentFrames past).length = past.length)
      (open_ : ∀ event ∈ past, ¬ Ends event.output)
  | finished (idle : state = .idle)
      (within : ∃ event ∈ past.take (confirmations bytes.length), Ends event.output)

structure WriteStep (bytes : List UInt8) (past : List Response) (event : Response) :
    Prop where
  completes : ∀ value, event.output = .complete value → value = none ∧
    AllAcknowledge (past.map Trace.Event.input ++ [event.input]) ∧
    past.length + 1 = confirmations bytes.length
  closes : Ends event.output → event.after.isBusy = false
  afterwards : (∃ earlier ∈ past, Ends earlier.output) → event.after.isBusy = false ∧
    ∀ error, decodeAbort event.input = .error error → event.output = .aborted abortGeneral

section

variable {bytes : List UInt8} {past : List Response} {event : Response}

theorem sentFrames_snoc (past : List Response) (event : Response) :
    sentFrames (past ++ [event]) = sentFrames past ++ sentFrames [event] := by
  rw [sentFrames, List.filterMap_append]
  rfl

theorem isBusy_of_idle {client : SdoClient} (idle : client.state = .idle) :
    client.isBusy = false := by
  rw [SdoClient.isBusy, idle]

theorem Awaiting.within {sent : Nat} {state : State} (awaits : Awaiting bytes sent state) :
    sent < confirmations bytes.length := by
  rw [confirmations]
  cases awaits with
  | inline small => rw [if_pos small]; exact Nat.zero_lt_one
  | initiate large data holds => rw [if_neg large]; omega
  | segment large data holds count within => rw [if_neg large]; omega

theorem Awaiting.busy {sent : Nat} {client : SdoClient}
    (awaits : Awaiting bytes sent client.state) : client.state ≠ .idle := by
  intro idle
  rw [idle] at awaits
  cases awaits

theorem over_step (idle : event.before.state = .idle)
    (taken : event.before.onResponse event.input = pure (event.after, event.output)) :
    event.after.state = .idle ∧ sentFrames [event] = [] ∧ WriteStep bytes past event := by
  rcases SdoClient.onResponse_idle idle with ⟨after, code, answered, idleAfter, general⟩
  rw [taken, Exec.pure_inj, Prod.mk.injEq] at answered
  rcases answered with ⟨rfl, output⟩
  refine ⟨idleAfter, by simp [sentFrames, output], ?_, fun _ => isBusy_of_idle idleAfter, ?_⟩
  · intro value completes
    rw [output] at completes
    cases completes
  · intro _
    refine ⟨isBusy_of_idle idleAfter, ?_⟩
    intro error notAbort
    rw [output, general error notAbort]

theorem Progress.ends (awaits : Awaiting bytes past.length event.before.state)
    (idle : event.after.state = .idle) (finished : Ends event.output) :
    Progress bytes (past ++ [event]) event.after.state := by
  apply Progress.finished idle
  refine ⟨event, ?_, finished⟩
  rw [List.take_of_length_le]
  · exact List.mem_append_right past (List.mem_singleton_self event)
  · rw [List.length_append, List.length_singleton]
    exact awaits.within

theorem Progress.step (fits : bytes.length ≤ maxStringLen)
    (progress : Progress bytes past event.before.state)
    (sentBy : SentBy bytes (sentFrames past))
    (taken : event.before.onResponse event.input = pure (event.after, event.output)) :
    Progress bytes (past ++ [event]) event.after.state ∧
      SentBy bytes (sentFrames (past ++ [event])) ∧ WriteStep bytes past event := by
  rw [sentFrames_snoc]
  cases progress with
  | finished idle within =>
      rcases over_step idle taken with ⟨idleAfter, sentNothing, shown⟩
      rw [sentNothing, List.append_nil]
      refine ⟨.finished idleAfter ?_, sentBy, shown⟩
      rcases within with ⟨earlier, member, finished⟩
      refine ⟨earlier, ?_, finished⟩
      rw [List.take_append]
      exact List.mem_append_left _ member
  | waiting awaits confirmed each open_ =>
      have noneOver : ¬ ∃ earlier ∈ past, Ends earlier.output := by
        rintro ⟨earlier, member, finished⟩
        exact open_ earlier member finished
      cases SdoClient.advances_of_onResponse fits awaits taken with
      | refused code other idle aborts =>
          have sentNothing : sentFrames [event] = [] := by simp [sentFrames, aborts]
          rw [sentNothing, List.append_nil]
          refine ⟨.ends awaits idle (by simp [aborts, Ends]), sentBy, ?_,
            fun _ => isBusy_of_idle idle, fun finished => absurd finished noneOver⟩
          intro value completes
          rw [aborts] at completes
          cases completes
      | completed confirms all idle completes =>
          have sentNothing : sentFrames [event] = [] := by simp [sentFrames, completes]
          rw [sentNothing, List.append_nil]
          refine ⟨.ends awaits idle (by simp [completes, Ends]), sentBy, ?_,
            fun _ => isBusy_of_idle idle, fun finished => absurd finished noneOver⟩
          intro value output
          rw [completes] at output
          cases output
          refine ⟨rfl, confirmed.snoc ?_, all⟩
          rwa [List.length_map]
      | sends confirms large p within isSlice awaitsNext event_ =>
          have sentOne : sentFrames [event] = [p] := by simp [sentFrames, event_]
          have length : (past ++ [event]).length = past.length + 1 := by
            rw [List.length_append, List.length_singleton]
          rw [sentOne]
          refine ⟨.waiting ?_ ?_ ?_ ?_, ⟨?_, fun small => absurd small large⟩, ?_, ?_,
            fun finished => absurd finished noneOver⟩
          · rwa [length]
          · rw [List.map_append]
            apply confirmed.snoc
            rwa [List.length_map]
          · rw [sentFrames_snoc, sentOne, List.length_append, List.length_singleton, each, length]
          · rw [List.forall_mem_append, List.forall_mem_singleton, event_]
            exact ⟨open_, id⟩
          · rw [← each] at within isSlice
            exact sentBy.slices.snoc within isSlice
          · intro value output
            rw [event_] at output
            cases output
          · rw [event_]
            exact False.elim

def Writing (bytes : List UInt8) (state : State) : Prop :=
  state = .idle ∨ ∃ sent, Awaiting bytes sent state

theorem Writing.onResponse_returns (fits : bytes.length ≤ maxStringLen) {client : SdoClient}
    (writing : Writing bytes client.state) (resp : SdoPayload) :
    ∃ after event, client.onResponse resp = pure (after, event) ∧ Writing bytes after.state := by
  rcases writing with idle | ⟨sent, awaits⟩
  · rcases @SdoClient.onResponse_idle client resp idle with ⟨after, code, answered, idleAfter, -⟩
    exact ⟨after, _, answered, .inl idleAfter⟩
  · rcases SdoClient.onResponse_advances fits awaits resp with
      ⟨after, event, answered, advances⟩
    refine ⟨after, event, answered, ?_⟩
    cases advances with
    | refused _ _ idle _ => exact .inl idle
    | completed _ _ idle _ => exact .inl idle
    | sends _ _ _ _ _ awaitsNext _ => exact .inr ⟨_, awaitsNext⟩

theorem run_writes (fits : bytes.length ≤ maxStringLen) {client : SdoClient}
    (awaits : Awaiting bytes 0 client.state) (responses : List SdoPayload) :
    ∃ events final, Trace.run SdoClient.onResponse client responses = pure (events, final) ∧
      Progress bytes events final.state ∧ SentBy bytes (sentFrames events) ∧
      ∀ past event future, events = past ++ event :: future → WriteStep bytes past event := by
  have begun : Writing bytes client.state := .inr ⟨0, awaits⟩
  rcases Trace.run_total (fun client : SdoClient => Writing bytes client.state) responses begun
    (fun client resp _ writing => writing.onResponse_returns fits resp) with
    ⟨events, final, ran, -⟩
  have atStart : Progress bytes [] client.state ∧ SentBy bytes (sentFrames []) := by
    refine ⟨.waiting awaits allAcknowledge_nil rfl ?_, slices_nil bytes, fun _ => rfl⟩
    intro event member
    cases member
  have history := Trace.run_history
    (fun past client => Progress bytes past client.state ∧ SentBy bytes (sentFrames past))
    (WriteStep bytes) atStart (by
      rintro past state resp after output ⟨progress, sentBy⟩ taken
      rcases @Progress.step bytes past ⟨state, resp, output, after⟩ fits progress sentBy taken
        with ⟨progressAfter, sentAfter, shown⟩
      exact ⟨⟨progressAfter, sentAfter⟩, shown⟩) ran
  exact ⟨events, final, ran, history.1.1, history.1.2, history.2⟩

end

/-! ## Writes to any server -/

/-- A write sends the first segments of its value, completes only when all is confirmed,
ends in time, and is over then. -/
structure WriteRun (value : Value) (events : List Response) : Prop where
  segments : SentBy value.bytes (sentFrames events)
  completes : ∀ past event future result, events = past ++ event :: future →
    event.output = .complete result → result = none ∧
      AllAcknowledge (past.map Trace.Event.input ++ [event.input]) ∧
      past.length + 1 = confirmations value.size
  ends : confirmations value.size ≤ events.length →
    ∃ event ∈ events.take (confirmations value.size), Ends event.output
  afterwards : ∀ past event future, events = past ++ event :: future → Ends event.output →
    event.after.isBusy = false ∧ ∀ later ∈ future, later.after.isBusy = false ∧
      ∀ error, decodeAbort later.input = .error error → later.output = .aborted abortGeneral

/-- Whatever the responses, a write sends its value correctly, and reports it as written
only if each step was confirmed. -/
theorem write_to_any_server (client : SdoClient) (addr : Address) (value : Value)
    (responses : List SdoPayload) :
    ∃ started request events final, client.write addr value = pure (started, request) ∧
      Trace.run SdoClient.onResponse started responses = pure (events, final) ∧
      WriteRun value events := by
  rcases client.write_awaits addr value with ⟨started, request, writes, awaits⟩
  have fits : value.bytes.length ≤ maxStringLen := by
    rw [Value.bytes_length]
    exact value.size_le
  rcases run_writes fits awaits responses with
    ⟨events, final, ran, progress, sentBy, shown⟩
  refine ⟨started, request, events, final, writes, ran, sentBy, ?_, ?_, ?_⟩
  · intro past event future result split completes
    rw [← Value.bytes_length]
    exact (shown past event future split).completes result completes
  · intro enough
    rw [← Value.bytes_length] at enough ⊢
    cases progress with
    | waiting awaits => exact absurd awaits.within (not_lt.mpr enough)
    | finished idle within => exact within
  · intro past event future split finished
    refine ⟨(shown past event future split).closes finished, ?_⟩
    intro later member
    rcases List.append_of_mem member with ⟨between, rest, splitLater⟩
    apply (shown (past ++ event :: between) later rest ?_).afterwards
    · exact ⟨event, by simp, finished⟩
    · rw [split, splitLater]
      simp

/-! ## The two segmenters -/

def Completed (events : List Response) : Prop :=
  ∃ past last, events = past ++ [last] ∧ last.output = .complete none

theorem acknowledgements_exist (count : Nat) :
    ∃ responses, AllAcknowledge responses ∧ responses.length = count := by
  induction count with
  | zero => exact ⟨[], allAcknowledge_nil, rfl⟩
  | succ count induction =>
      rcases induction with ⟨responses, all, length⟩
      have next : ∃ resp, Acknowledges responses.length resp := by
        cases responses.length with
        | zero => exact ⟨encodeDownloadResponse ⟨0, 0⟩, _, rfl⟩
        | succ index =>
            refine ⟨encodeDownloadSegmentResponse (alternate index), ?_⟩
            rw [Acknowledges]
            cases alternate index <;> decide
      rcases next with ⟨resp, acknowledges⟩
      exact ⟨responses ++ [resp], all.snoc acknowledges, by simp [length]⟩

theorem confirmed_run {bytes : List UInt8} (fits : bytes.length ≤ maxStringLen)
    (large : ¬ Inline bytes.length) {responses : List SdoPayload} {sent : Nat}
    {client : SdoClient} (awaits : Awaiting bytes sent client.state)
    (acknowledge : ∀ index resp, responses[index]? = some resp →
      Acknowledges (sent + index) resp)
    (count : sent + responses.length = confirmations bytes.length) :
    ∃ events final, Trace.run SdoClient.onResponse client responses = pure (events, final) ∧
      Completed events ∧ sent + (sentFrames events).length = segmentCount bytes.length ∧
      ∀ index p, (sentFrames events)[index]? = some p → IsSlice bytes (sent + index) p := by
  have total : confirmations bytes.length = 1 + segmentCount bytes.length := if_neg large
  induction responses generalizing sent client with
  | nil => exact absurd awaits.within (by simpa using count.ge)
  | cons resp rest induction =>
      have confirmed : Acknowledges sent resp := acknowledge 0 resp rfl
      rcases SdoClient.onResponse_advances fits awaits resp with
        ⟨after, event, answered, advances⟩
      cases advances with
      | refused code other idle aborts => exact absurd confirmed other
      | completed _ all idle completes =>
          have last : rest = [] := by
            rw [List.length_cons] at count
            exact List.length_eq_zero_iff.mp (by omega)
          subst last
          refine ⟨_, after, Trace.run_cons_eq_pure_iff.mpr
            ⟨after, event, [], answered, rfl, rfl⟩, ⟨[], _, rfl, completes⟩, ?_⟩
          have sentNothing : sentFrames [⟨client, resp, event, after⟩] = [] := by
            simp [sentFrames, completes]
          rw [sentNothing]
          exact ⟨by simp; omega, nofun⟩
      | sends _ _ p within isSlice awaitsNext event_ =>
          rcases induction awaitsNext (fun index item found => by
              rw [Nat.add_right_comm, Nat.add_assoc]
              exact acknowledge (index + 1) item found) (by
              rw [← count, List.length_cons]
              omega) with ⟨events, final, ran, ⟨past, last, split, completes⟩, frames, slices⟩
          refine ⟨_, final, Trace.run_cons_eq_pure_iff.mpr
            ⟨after, event, events, answered, ran, rfl⟩,
            ⟨_ :: past, last, by rw [split, List.cons_append], completes⟩, ?_⟩
          have sentOne : sentFrames (⟨client, resp, event, after⟩ :: events) =
              p :: sentFrames events := by
            simp [sentFrames, event_]
          rw [sentOne]
          constructor
          · rw [List.length_cons]
            omega
          · intro index q found
            cases index with
            | zero =>
                cases found
                exact isSlice
            | succ index =>
                have later := slices index q found
                rwa [Nat.add_right_comm, Nat.add_assoc] at later

/-- A client whose steps are all confirmed sends the segments of a segment writer exactly
if there is a byte to send. -/
theorem segmenters_agree_iff (client : SdoClient) (addr : Address) (value : Value) :
    ∃ started request, client.write addr value = pure (started, request) ∧
      (¬ Inline value.size →
        (∃ responses, AllAcknowledge responses ∧
          responses.length = confirmations value.size) ∧
        ∃ count drained, Loop.Ends Draining.step (.start value.bytes) count drained ∧
        ∀ responses, AllAcknowledge responses → responses.length = confirmations value.size →
          ∃ events final,
            Trace.run SdoClient.onResponse started responses = pure (events, final) ∧
            Completed events ∧
            (sentFrames events = drained.frames ↔ value.bytes ≠ [])) := by
  rcases client.write_awaits addr value with ⟨started, request, writes, awaits⟩
  have fits : value.bytes.length ≤ maxStringLen := by
    rw [Value.bytes_length]
    exact value.size_le
  refine ⟨started, request, writes, ?_⟩
  intro large
  refine ⟨acknowledgements_exist _, ?_⟩
  rcases draining_ends value.bytes with ⟨count, drained, ends, slices, length⟩
  refine ⟨count, drained, ends, ?_⟩
  intro responses all enough
  rw [← Value.bytes_length] at large enough
  rcases confirmed_run fits large awaits (fun index resp found => by
      rw [Nat.zero_add]
      exact all index resp found) ((Nat.zero_add _).trans enough) with
    ⟨events, final, ran, completes, frames, isSlice⟩
  rw [Nat.zero_add] at frames
  simp only [Nat.zero_add] at isSlice
  refine ⟨events, final, ran, completes, ?_⟩
  constructor
  · intro same empty
    rw [same, length, empty] at frames
    exact absurd frames (by decide)
  · intro some
    have positive := List.length_pos_iff.mpr some
    apply Slices.unique ⟨frames.le, isSlice⟩ slices
    rw [frames, length, segmentCount]
    omega

/-- For an empty string the client sends a segment, and the segment writer has none. -/
theorem empty_string_segmenters_differ :
    ¬ ∀ (client : SdoClient) (addr : Address) (value : Value) (started : SdoClient)
      (request : SdoPayload) (count : Nat) (drained : Draining) (responses : List SdoPayload)
      (events : List Response) (final : SdoClient), ¬ Inline value.size →
      client.write addr value = pure (started, request) →
      Loop.Ends Draining.step (.start value.bytes) count drained →
      AllAcknowledge responses → responses.length = confirmations value.size →
      Trace.run SdoClient.onResponse started responses = pure (events, final) →
      sentFrames events = drained.frames := by
  intro agree
  rcases SdoClient.write_awaits (.new ⟨0x10, by decide⟩) ⟨0x1008, 0⟩ (.visibleString .new) with
    ⟨started, request, writes, awaits⟩
  rcases acknowledgements_exist 2 with ⟨responses, all, length⟩
  rcases confirmed_run (Nat.zero_le _) (by decide) awaits (fun index resp found => by
      rw [Nat.zero_add]
      exact all index resp found) ((Nat.zero_add _).trans length) with
    ⟨events, final, ran, -, frames, -⟩
  have none : Loop.Ends Draining.step (.start []) 0 (.start []) := Loop.ends_of_done (by rfl)
  have same := agree _ _ (.visibleString .new) started request 0 _ responses events final
    (by decide) writes none all length ran
  rw [same] at frames
  exact absurd frames (by decide)

end CanOpen.Sdo
