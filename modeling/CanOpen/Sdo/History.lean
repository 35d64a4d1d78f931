import CanOpen.Foundation.Trace
import CanOpen.Sdo.Exchange

/-! # What a download segment may write

A server is given arbitrary requests. What a download segment writes is traced
back to the accepted initiate and the segments it completes.
-/

namespace CanOpen.Sdo

variable {N : Nat}

def Host.step (host : Host N) (req : SdoPayload) : Exec (Host N × Option SdoPayload) := do
  let out ← host.server.handle host.od req
  pure (⟨out.server, out.od⟩, out.response)

abbrev Request (N : Nat) := Trace.Event (Host N) SdoPayload (Option SdoPayload)

namespace Request

def specifier (request : Request N) : UInt8 := request.input.get 0 &&& csMask

def isSegment (request : Request N) : Bool := request.specifier == ccsDownloadSegment

def segment (request : Request N) : Segment := segmentOf request.input

structure StartsDownload (request : Request N) (addr : Address) (size : Nat) : Prop where
  specifier : request.specifier = ccsDownloadInitiate
  segmented : request.input.get 0 &&& expedited = 0
  address : SdoServer.reqAddress request.input = addr
  declared : (wordOf request.input).toNat = size
  accepted : request.output = some (encodeDownloadResponse addr)

structure StartsUpload (request : Request N) : Prop where
  specifier : request.specifier = ccsUploadInitiate
  accepted : ∃ response, request.output = some response ∧
    response.get 0 &&& csMask = scsUploadInitiate ∧ response.get 0 &&& expedited = 0

/-- The requests that may not come between the initiate of a download and its
last segment. -/
def Interrupts (request : Request N) : Prop :=
  request.specifier = csAbort ∨ request.specifier = ccsUploadSegment ∨
    (∃ addr size, request.StartsDownload addr size) ∨ request.StartsUpload

/-- The entry at `addr` changes, or a server whose last write was taken before
the request records one to `addr`. -/
def WritesTo (request : Request N) (addr : Address) : Prop :=
  request.after.od.entry addr ≠ request.before.od.entry addr ∨
    ∃ out, request.before.server.takeWrite.2.handle request.before.od request.input =
        pure out ∧
      out.server.takeWrite.1 = some addr

end Request

/-! ## Segments in sequence -/

def InSequence (segments : List (Request N)) : Prop :=
  segments.map (fun request => (request.segment.toggle, request.output)) =
    (List.range segments.length).map fun position =>
      (alternate position, some (encodeDownloadSegmentResponse (alternate position)))

def received (segments : List (Request N)) : List UInt8 :=
  segments.flatMap fun request => request.segment.data

theorem InSequence.snoc {segments : List (Request N)} {request : Request N}
    (inSequence : InSequence segments)
    (toggle : request.segment.toggle = alternate segments.length)
    (acknowledged : request.output =
      some (encodeDownloadSegmentResponse (alternate segments.length))) :
    InSequence (segments ++ [request]) := by
  unfold InSequence at inSequence ⊢
  rw [List.map_append, inSequence, List.length_append, List.length_singleton,
    List.range_succ, List.map_append]
  simp [toggle, acknowledged]

structure Transferred (start : Request N) (between : List (Request N))
    (finish : Request N) (addr : Address) : Prop where
  started : start.StartsDownload addr
    (received ((between ++ [finish]).filter Request.isSegment)).length
  uninterrupted : ∀ request ∈ between, ¬ request.Interrupts
  inSequence : InSequence ((between ++ [finish]).filter Request.isSegment)
  notLast : ∀ request ∈ between, request.isSegment → request.segment.last = false
  last : finish.segment.last = true
  written : ∃ initial current value,
    start.before.od.entry addr = some initial ∧
    Value.decodeLe initial.value.dataType
      (received ((between ++ [finish]).filter Request.isSegment)) = pure (.ok value) ∧
    finish.before.od.entry addr = some current ∧
    finish.after.od.entry addr = some { current with value }

/-! ## The history behind a transfer -/

structure Pending (past : List (Request N)) (addr : Address) (dataType : DataType)
    (bytes : List UInt8) (declared : Nat) (toggle : Bool) (earlier : List (Request N))
    (start : Request N) (between : List (Request N)) : Prop where
  past : past = earlier ++ start :: between
  started : start.StartsDownload addr declared
  type_ : ∃ initial, start.before.od.entry addr = some initial ∧
    initial.value.dataType = dataType
  uninterrupted : ∀ request ∈ between, ¬ request.Interrupts
  inSequence : InSequence (between.filter Request.isSegment)
  toggle : toggle = alternate (between.filter Request.isSegment).length
  notLast : ∀ request ∈ between, request.isSegment → request.segment.last = false
  bytes : received (between.filter Request.isSegment) = bytes

def Accounted (past : List (Request N)) (host : Host N) : Prop :=
  ∀ addr dataType buf declared toggle,
    host.server.transfer = some (.download addr dataType buf declared toggle) →
    ∃ earlier start between,
      Pending past addr dataType buf.toList declared toggle earlier start between

theorem Pending.pass {past earlier between : List (Request N)} {start request : Request N}
    {addr : Address} {dataType : DataType} {bytes : List UInt8} {declared : Nat}
    {toggle : Bool}
    (pending : Pending past addr dataType bytes declared toggle earlier start between)
    (quiet : ¬ request.Interrupts) (other : request.isSegment = false) :
    Pending (past ++ [request]) addr dataType bytes declared toggle earlier start
      (between ++ [request]) := by
  have same : (between ++ [request]).filter Request.isSegment =
      between.filter Request.isSegment := by
    simp [other]
  refine ⟨by simp [pending.past], pending.started, pending.type_, ?_, ?_, ?_, ?_, ?_⟩
  · intro item member
    rcases List.mem_append.mp member with old | new
    · exact pending.uninterrupted item old
    · rw [List.mem_singleton.mp new]
      exact quiet
  · rw [same]
    exact pending.inSequence
  · rw [same]
    exact pending.toggle
  · intro item member isSegment
    rcases List.mem_append.mp member with old | new
    · exact pending.notLast item old isSegment
    · rw [List.mem_singleton.mp new, other] at isSegment
      cases isSegment
  · rw [same]
    exact pending.bytes

theorem Request.not_interrupts_of_segment {request : Request N}
    (isSegment : request.isSegment = true) : ¬ request.Interrupts := by
  have specifier : request.specifier = ccsDownloadSegment := by
    simpa [Request.isSegment] using isSegment
  rintro (aborts | polls | ⟨addr, size, starts⟩ | starts)
  · rw [specifier] at aborts
    exact absurd aborts (by decide)
  · rw [specifier] at polls
    exact absurd polls (by decide)
  · exact absurd (specifier.symm.trans starts.specifier) (by decide)
  · exact absurd (specifier.symm.trans starts.specifier) (by decide)

theorem Pending.segment {past earlier between : List (Request N)}
    {start : Request N} (request : Request N) {addr : Address} {dataType : DataType}
    {bytes : List UInt8} {declared : Nat}
    (pending : Pending past addr dataType bytes declared request.segment.toggle earlier
      start between)
    (isSegment : request.isSegment = true)
    (acknowledged : request.output =
      some (encodeDownloadSegmentResponse request.segment.toggle))
    (more : request.segment.last = false) :
    Pending (past ++ [request]) addr dataType (bytes ++ request.segment.data) declared
      (!request.segment.toggle) earlier start (between ++ [request]) := by
  have segments : (between ++ [request]).filter Request.isSegment =
      between.filter Request.isSegment ++ [request] := by
    simp [isSegment]
  refine ⟨by simp [pending.past], pending.started, pending.type_, ?_, ?_, ?_, ?_, ?_⟩
  · intro item member
    rcases List.mem_append.mp member with old | new
    · exact pending.uninterrupted item old
    · rw [List.mem_singleton.mp new]
      exact Request.not_interrupts_of_segment isSegment
  · rw [segments]
    exact pending.inSequence.snoc pending.toggle (pending.toggle ▸ acknowledged)
  · rw [segments, List.length_append, List.length_singleton, alternate_succ,
      ← pending.toggle]
  · intro item member itemIsSegment
    rcases List.mem_append.mp member with old | new
    · exact pending.notLast item old itemIsSegment
    · rw [List.mem_singleton.mp new]
      exact more
  · rw [segments, received, List.flatMap_append, ← pending.bytes]
    simp [received]

/-! ## One request -/

theorem step_eq_pure_iff {host after : Host N} {req : SdoPayload}
    {response : Option SdoPayload} :
    host.step req = pure (after, response) ↔
      host.server.handle host.od req = pure ⟨after.server, after.od, response⟩ := by
  constructor
  · intro taken
    rw [Host.step, Exec.bind_eq_pure_iff] at taken
    rcases taken with ⟨out, handled, taken⟩
    rw [Exec.pure_inj, Prod.mk.injEq] at taken
    rcases taken with ⟨rfl, rfl⟩
    exact handled
  · intro handled
    simp [Host.step, handled]

private theorem not_starts_of_abort (request : Request N) {addr : Address}
    {code : SdoAbortCode} (aborted : request.output = some (encodeAbort addr code)) :
    (¬ ∃ other size, request.StartsDownload other size) ∧ ¬ request.StartsUpload := by
  constructor
  · rintro ⟨other, size, starts⟩
    have commands := congrArg (fun p : SdoPayload => p.get 0)
      (Option.some.inj (aborted.symm.trans starts.accepted))
    simp only [encodeAbort, encodeDownloadResponse, addressed_command] at commands
    exact absurd commands (by decide)
  · rintro ⟨_, response, accepted, specifier, _⟩
    have equal := Option.some.inj (aborted.symm.trans accepted)
    rw [← equal, encodeAbort, addressed_command] at specifier
    exact absurd specifier (by decide)

private theorem isSegment_eq_false {request : Request N} {specifier : UInt8}
    (equal : request.specifier = specifier) (different : specifier ≠ ccsDownloadSegment) :
    request.isSegment = false := by
  simp [Request.isSegment, equal, different]

private theorem Accounted.pass {past : List (Request N)} (request : Request N)
    (accounted : Accounted past request.before)
    (same : request.after.server.transfer = request.before.server.transfer)
    (quiet : ¬ request.Interrupts) (other : request.isSegment = false) :
    Accounted (past ++ [request]) request.after := by
  intro addr dataType buf declared toggle current
  rcases accounted addr dataType buf declared toggle (same ▸ current) with
    ⟨earlier, start, between, pending⟩
  exact ⟨earlier, start, _, pending.pass quiet other⟩

theorem accounted_step {past : List (Request N)} {host after : Host N} {req : SdoPayload}
    {response : Option SdoPayload} (accounted : Accounted past host)
    (taken : host.step req = pure (after, response)) :
    Accounted (past ++ [⟨host, req, response, after⟩]) after := by
  rcases after with ⟨server, od⟩
  let request : Request N := ⟨host, req, response, ⟨server, od⟩⟩
  have effect := SdoServer.handle_effect (step_eq_pure_iff.mp taken)
  cases effect with
  | rejected addr code notSegment notPoll notAbort =>
      have refused := not_starts_of_abort request rfl
      refine accounted.pass request rfl ?_ ?_
      · rintro (aborts | polls | starts | starts)
        · exact notAbort aborts
        · exact notPoll polls
        · exact refused.1 starts
        · exact refused.2 starts
      · simpa [Request.isSegment, Request.specifier] using notSegment
  | clientAbort | dropped =>
      intro addr dataType buf declared toggle current
      cases current
  | expeditedWrite entry value initiate inline_ =>
      have specifier : request.specifier = ccsDownloadInitiate := initiate
      refine accounted.pass request rfl ?_
        (isSegment_eq_false specifier (by decide))
      rintro (aborts | polls | ⟨addr, size, starts⟩ | starts)
      · exact absurd (specifier.symm.trans aborts) (by decide)
      · exact absurd (specifier.symm.trans polls) (by decide)
      · exact inline_ starts.segmented
      · exact absurd (specifier.symm.trans starts.specifier) (by decide)
  | downloadStarted entry initiate segmented sized present writable accepts =>
      intro addr dataType buf declared toggle current
      cases current
      exact ⟨past, request, [], rfl, ⟨initiate, segmented, rfl, rfl, rfl⟩,
        ⟨entry, present, rfl⟩, by simp, rfl, rfl, by simp, rfl⟩
  | expeditedRead value p initiate reads positive small fields =>
      have specifier : request.specifier = ccsUploadInitiate := initiate
      refine accounted.pass request rfl ?_
        (isSegment_eq_false specifier (by decide))
      rintro (aborts | polls | ⟨addr, size, starts⟩ | ⟨_, answer, accepted, _, segmented⟩)
      · exact absurd (specifier.symm.trans aborts) (by decide)
      · exact absurd (specifier.symm.trans polls) (by decide)
      · exact absurd (specifier.symm.trans starts.specifier) (by decide)
      · have inline_ := (fields.command (.inr rfl) (by simpa using positive)
          (by simpa using small)).2.1
        exact inline_ (Option.some.inj accepted ▸ segmented)
  | uploadStarted | uploadSegment =>
      intro addr dataType buf declared toggle current
      simp only at current
      first | cases current | split at current <;> cases current
  | downloadSegment addr dataType buf extended declared segment before more content =>
      intro nextAddr nextType nextBuf nextDeclared nextToggle current
      cases current
      rcases accounted _ _ _ _ _ before with ⟨earlier, start, between, pending⟩
      rw [content]
      exact ⟨earlier, start, _, pending.segment request
        (by simpa [Request.isSegment, Request.specifier] using segment) rfl more⟩
  | downloadFinished =>
      intro addr dataType buf declared toggle current
      cases current

/-! ## The last segment -/

/-- The request is the last segment of a complete download to a writable object
of the type it had at the initiate. -/
structure Finishes (server : SdoServer) (od : ObjectDictionary N) (req : SdoPayload)
    (addr : Address) (dataType : DataType) (buf : BoundedVec UInt8 maxStringLen)
    (entry : Entry) : Prop where
  segment : req.get 0 &&& csMask = ccsDownloadSegment
  current : server.transfer = some (.download addr dataType buf
    (buf.toList ++ (segmentOf req).data).length (segmentOf req).toggle)
  last : (segmentOf req).last = true
  accepts : dataType.Accepts (buf.toList ++ (segmentOf req).data).length
  present : od.entry addr = some entry
  writable : entry.access.isWritable = true
  sameType : entry.value.dataType = dataType

theorem Finishes.handle_eq {server : SdoServer} {od : ObjectDictionary N}
    {req : SdoPayload} {addr : Address} {dataType : DataType}
    {buf : BoundedVec UInt8 maxStringLen} {entry : Entry}
    (finishes : Finishes server od req addr dataType buf entry) :
    server.handle od req =
      pure ⟨{ server with transfer := none, lastWrite := some addr },
        od.replace addr { entry with
          value := Value.ofBytes dataType (buf.toList ++ (segmentOf req).data) },
        some (encodeDownloadSegmentResponse (segmentOf req).toggle)⟩ := by
  rcases finishes with ⟨segment, current, last, accepts, present, writable, rfl⟩
  let extended : BoundedVec UInt8 maxStringLen :=
    ⟨buf.toList ++ (segmentOf req).data, accepts.length_le⟩
  rw [SdoServer.handle_downloadSegment segment,
    SdoServer.onDownloadSegment_last od segment current last (show extended.toList = _ from rfl),
    SdoServer.finishDownload_writes _ _ present writable accepts]

/-- A segment that changes an entry, or records a write to it, finishes a
download to it. -/
theorem finishes_of_writesTo {request : Request N} {addr : Address}
    (taken : request.before.step request.input = pure (request.after, request.output))
    (isSegment : request.isSegment = true) (writes : request.WritesTo addr) :
    ∃ dataType buf entry, Finishes request.before.server request.before.od request.input
      addr dataType buf entry := by
  have segment : request.input.get 0 &&& csMask = ccsDownloadSegment := by
    simpa [Request.isSegment, Request.specifier] using isSegment
  rcases writes with changes | ⟨out, handled, records⟩
  · have effect := SdoServer.handle_effect (step_eq_pure_iff.mp taken)
    generalize outcome : (⟨request.after.server, request.after.od, request.output⟩ :
      Handled N) = out at effect
    have sameOd : request.after.od = out.od := by rw [← outcome]
    rw [sameOd] at changes
    cases effect with
    | downloadFinished written dataType buf declared entry bytes _ current last content
        complete accepts present writable sameType =>
        have equal : addr = written := by
          by_contra different
          exact changes (ObjectDictionary.entry_replace_of_ne different)
        subst equal complete content
        exact ⟨dataType, buf, entry, segment, current, last, accepts, present, writable,
          sameType⟩
    | expeditedWrite _ _ initiate => exact absurd (segment.symm.trans initiate) (by decide)
    | rejected | clientAbort | downloadStarted | expeditedRead | uploadStarted
    | uploadSegment | downloadSegment | dropped => exact absurd rfl changes
  · cases SdoServer.handle_effect handled with
    | downloadFinished written dataType buf declared entry bytes _ current last content
        complete accepts present writable sameType =>
        cases records
        subst complete content
        exact ⟨dataType, buf, entry, segment, current, last, accepts, present, writable,
          sameType⟩
    | expeditedWrite _ _ initiate => exact absurd (segment.symm.trans initiate) (by decide)
    | rejected | clientAbort | downloadStarted | expeditedRead | uploadStarted
    | uploadSegment | downloadSegment | dropped => cases records

theorem transferred_of_writesTo {past : List (Request N)} (request : Request N)
    {addr : Address} (accounted : Accounted past request.before)
    (taken : request.before.step request.input = pure (request.after, request.output))
    (isSegment : request.isSegment = true) (writes : request.WritesTo addr) :
    ∃ earlier start between, past = earlier ++ start :: between ∧
      Transferred start between request addr := by
  rcases finishes_of_writesTo taken isSegment writes with ⟨dataType, buf, entry, finishes⟩
  rcases accounted _ _ _ _ _ finishes.current with ⟨earlier, start, between, pending⟩
  rcases pending.type_ with ⟨initial, initialPresent, rfl⟩
  have handled := step_eq_pure_iff.mp taken
  rw [finishes.handle_eq, Exec.pure_inj, Handled.mk.injEq] at handled
  rcases handled with ⟨_, sameOd, sameOutput⟩
  have segments : (between ++ [request]).filter Request.isSegment =
      between.filter Request.isSegment ++ [request] := by
    simp [isSegment]
  have bytes : received (between.filter Request.isSegment ++ [request]) =
      buf.toList ++ (segmentOf request.input).data := by
    rw [received, List.flatMap_append, ← pending.bytes]
    simp [received, Request.segment]
  let value := Value.ofBytes initial.value.dataType
    (buf.toList ++ (segmentOf request.input).data)
  refine ⟨earlier, start, between, pending.past, ?_, pending.uninterrupted, ?_,
    pending.notLast, finishes.last, initial, entry, value, initialPresent, ?_,
    finishes.present, ?_⟩
  · rw [segments, bytes]
    exact pending.started
  · rw [segments]
    exact pending.inSequence.snoc pending.toggle
      (pending.toggle ▸ sameOutput.symm)
  · rw [segments, bytes]
    exact Value.decodeLe_eq_ok_iff.mpr ⟨finishes.accepts, rfl⟩
  · rw [← sameOd]
    exact ObjectDictionary.entry_replace_self finishes.present

/-! ## The whole history -/

theorem run_returns (node : NodeId) (lastWrite : Option Address) (od : ObjectDictionary N)
    (requests : List SdoPayload) :
    ∃ events final,
      Trace.run Host.step ⟨⟨node, none, lastWrite⟩, od⟩ requests = pure (events, final) := by
  have idle : SdoServer.Valid ⟨node, none, lastWrite⟩ := by
    intro addr data len pos toggle current
    cases current
  have total : ∀ (host : Host N) req, host.server.Valid →
      ∃ after response, host.step req = pure (after, response) ∧ after.server.Valid := by
    intro host req valid
    rcases SdoServer.handle_returns valid host.od req with ⟨out, handled⟩
    exact ⟨⟨out.server, out.od⟩, out.response, step_eq_pure_iff.mpr handled,
      (SdoServer.handle_effect handled).valid valid⟩
  let begun : Host N := ⟨⟨node, none, lastWrite⟩, od⟩
  rcases Trace.run_total (fun host : Host N => host.server.Valid) requests
    (show begun.server.Valid from idle) (fun host req _ => total host req) with
    ⟨events, final, ran, _⟩
  exact ⟨events, final, ran⟩

/-- Whatever an idle server is given, it answers every request, and each download
segment that changes or rewrites an entry completes a transfer begun by an
accepted initiate. -/
theorem only_complete_transfers_write (node : NodeId) (lastWrite : Option Address)
    (od : ObjectDictionary N) (requests : List SdoPayload) :
    ∃ events final,
      Trace.run Host.step ⟨⟨node, none, lastWrite⟩, od⟩ requests = pure (events, final) ∧
      ∀ past finish future addr, events = past ++ finish :: future →
        finish.isSegment = true → finish.WritesTo addr →
        ∃ earlier start between, past = earlier ++ start :: between ∧
          Transferred start between finish addr := by
  rcases run_returns node lastWrite od requests with ⟨events, final, ran⟩
  have history := Trace.run_history Accounted
    (fun past (request : Request N) => ∀ addr, request.isSegment = true →
      request.WritesTo addr → ∃ earlier start between, past = earlier ++ start :: between ∧
        Transferred start between request addr)
    (by intro addr dataType buf declared toggle current; cases current)
    (fun past state input after output accounted taken =>
      ⟨accounted_step accounted taken, fun addr isSegment writes =>
        transferred_of_writesTo ⟨state, input, output, after⟩ accounted taken
          isSegment writes⟩) ran
  exact ⟨events, final, ran, fun past finish future addr split isSegment writes =>
    history.2 past finish future split addr isSegment writes⟩

end CanOpen.Sdo
