import CanOpen.Sdo.History
import CanOpen.Sdo.Write

/-! # Segments over a lossy, duplicating bus

The segments a client emits for a byte string are delivered in order, but any of
them may be lost and any of them may be delivered again.
-/

namespace CanOpen.Sdo

open SdoClient

variable {N : Nat}

/-! ## What the client emits -/

/-- The segments a client emits when `resp` and every segment after it is
confirmed, for at most `fuel` responses. -/
def emitted : (fuel : Nat) → SdoClient → SdoPayload → Exec (List SdoPayload)
  | 0, _, _ => pure []
  | fuel + 1, client, resp => do
      match ← client.onResponse resp with
      | (client, .send frame) => do
          let rest ← emitted fuel client
            (encodeDownloadSegmentResponse (segmentOf frame).toggle)
          pure (frame :: rest)
      | (_, .complete _) => pure []
      | (_, .aborted _) => pure []

/-- The segments a client emits for the first `len` bytes of `data`, once its
initiate for `addr` is confirmed. -/
def emittedSegments (client : SdoClient) (addr : Address)
    (data : Vector UInt8 maxStringLen) (len : Nat) : Exec (List SdoPayload) :=
  emitted (maxStringLen + 2) { client with state := .downloadInit data len }
    (encodeDownloadResponse addr)

structure IsSegment (bytes : List UInt8) (position : Nat) (p : SdoPayload) : Prop where
  specifier : p.get 0 &&& csMask = ccsDownloadSegment
  carries : segmentOf p = ⟨alternate position, decide (bytes.length - 7 * position ≤ 7),
    (bytes.take (7 * position + 7)).drop (7 * position)⟩

private theorem sendDownloadSegment_isSegment (client : SdoClient)
    {data : Vector UInt8 maxStringLen} {bytes : List UInt8} (holds : Holds data bytes)
    (fits : bytes.length ≤ maxStringLen) {position : Nat}
    (within : 7 * position ≤ bytes.length) :
    ∃ p, client.sendDownloadSegment data bytes.length (7 * position) (alternate position) =
        pure ({ client with
          state := .downloadSeg data bytes.length
            (7 * position + min (bytes.length - 7 * position) 7) (alternate position) },
          .send p) ∧
      IsSegment bytes position p := by
  rcases client.sendDownloadSegment_eq data (alternate position) within fits with
    ⟨p, sent, specifier, carries⟩
  refine ⟨p, sent, specifier, ?_⟩
  rw [carries, holds.window _ (by omega), segment_window, List.drop_take,
    Nat.add_sub_cancel_left]

private theorem emitted_rest (node : NodeId) {data : Vector UInt8 maxStringLen} {bytes : List UInt8}
    (holds : Holds data bytes) (fits : bytes.length ≤ maxStringLen) :
    ∀ fuel position, 7 * position ≤ bytes.length → bytes.length < 7 * position + fuel →
      ∃ frames, emitted fuel
          ⟨node, .downloadSeg data bytes.length
            (7 * position + min (bytes.length - 7 * position) 7) (alternate position)⟩
          (encodeDownloadSegmentResponse (alternate position)) = pure frames ∧
        frames.length + 1 = segmentCount (bytes.length - 7 * position) ∧
        ∀ index (within : index < frames.length),
          IsSegment bytes (position + 1 + index) frames[index] := by
  intro fuel
  induction fuel with
  | zero =>
      intro position within enough
      omega
  | succ fuel induction =>
      intro position within enough
      by_cases last : bytes.length - 7 * position ≤ 7
      · refine ⟨[], ?_, by rw [segmentCount_of_le last]; rfl, by simp⟩
        rw [emitted, onResponse_downloadSeg rfl, if_pos (by omega)]
        rfl
      · have reached : 7 * position + min (bytes.length - 7 * position) 7 =
            7 * (position + 1) := by
          omega
        rcases sendDownloadSegment_isSegment ⟨node, .idle⟩ holds fits
          (show 7 * (position + 1) ≤ bytes.length by omega) with ⟨p, sent, isSegment⟩
        rcases induction (position + 1) (by omega) (by omega) with
          ⟨frames, rest, length, segments⟩
        refine ⟨p :: frames, ?_, ?_, ?_⟩
        · rw [emitted, onResponse_downloadSeg rfl, if_neg (by omega), reached,
            ← alternate_succ, sent, pure_bind]
          simp only [isSegment.carries, rest, pure_bind]
        · have fewer : bytes.length - 7 * (position + 1) = bytes.length - 7 * position - 7 := by
            omega
          have total := segmentCount_of_lt (Nat.lt_of_not_le last)
          rw [List.length_cons, length, fewer, total]
        · intro index within
          cases index with
          | zero => exact isSegment
          | succ index =>
              have later := segments index (by simpa using within)
              rw [show position + 1 + (index + 1) = position + 1 + 1 + index by omega]
              exact later

theorem emittedSegments_eq (client : SdoClient) (addr : Address)
    {data : Vector UInt8 maxStringLen} {bytes : List UInt8} (holds : Holds data bytes)
    (fits : bytes.length ≤ maxStringLen) :
    ∃ frames, emittedSegments client addr data bytes.length = pure frames ∧
      frames.length = segmentCount bytes.length ∧
      ∀ index (within : index < frames.length), IsSegment bytes index frames[index] := by
  let parked : SdoClient := { client with state := .idle }
  rcases sendDownloadSegment_isSegment parked holds fits
    (show 7 * 0 ≤ bytes.length by omega) with
    ⟨p, sent, isSegment⟩
  rcases emitted_rest client.node holds fits (maxStringLen + 1) 0 (by omega) (by omega) with
    ⟨frames, rest, length, segments⟩
  refine ⟨p :: frames, ?_, by simpa using length, ?_⟩
  · have answered := onResponse_downloadInit
      { client with state := .downloadInit data bytes.length } addr rfl
    have first : sendDownloadSegment parked data bytes.length 0 false = _ := sent
    rw [emittedSegments, emitted, answered]
    simp only [parked] at first
    rw [first, pure_bind]
    simp only [isSegment.carries]
    rw [rest]
    rfl
  · intro index within
    cases index with
    | zero => exact isSegment
    | succ index =>
        have later := segments index (by simpa using within)
        rwa [show 0 + 1 + index = index + 1 by omega] at later

/-! ## What the server makes of them -/

theorem step_returns {host : Host N} (valid : host.server.Valid) (req : SdoPayload) :
    ∃ after response, host.step req = pure (after, response) := by
  rcases SdoServer.handle_returns valid host.od req with ⟨out, handled⟩
  exact ⟨⟨out.server, out.od⟩, out.response, step_eq_pure_iff.mpr handled⟩

theorem step_of_none {host after : Host N} {p : SdoPayload} {response : Option SdoPayload}
    (none_ : host.server.transfer = none) (segment : p.get 0 &&& csMask = ccsDownloadSegment)
    (taken : host.step p = pure (after, response)) :
    after.server.transfer = none ∧ after.od = host.od := by
  rcases after with ⟨server, od⟩
  cases SdoServer.handle_effect (step_eq_pure_iff.mp taken) with
  | dropped => exact ⟨rfl, rfl⟩
  | rejected _ _ notSegment => exact absurd segment notSegment
  | clientAbort aborts => exact absurd (segment.symm.trans aborts) (by decide)
  | expeditedWrite _ _ initiate | downloadStarted _ initiate
  | expeditedRead _ _ initiate | uploadStarted _ _ initiate =>
      exact absurd (segment.symm.trans initiate) (by decide)
  | uploadSegment _ _ _ _ _ _ current => simp [none_] at current
  | downloadSegment _ _ _ _ _ _ current => simp [none_] at current
  | downloadFinished _ _ _ _ _ _ _ current => simp [none_] at current

structure Receiving (host : Host N) (addr : Address) (dataType : DataType)
    (bytes : List UInt8) (count next : Nat) : Prop where
  transfer : ∃ buf : BoundedVec UInt8 maxStringLen,
    host.server.transfer =
      some (.download addr dataType buf bytes.length (alternate count)) ∧
    buf.toList.length = 7 * count ∧
    (count = next → buf.toList = bytes.take (7 * next))
  ordered : count ≤ next
  inStep : alternate next = alternate count
  within : next < segmentCount bytes.length

/-- What the server makes of a segment that is not before the last one taken. -/
inductive Receives (host : Host N) (addr : Address) (entry : Entry) (bytes : List UInt8)
    (count next index : Nat) (after : Host N) : Prop
  /-- The toggle shows a loss or a duplicate, and the transfer is dropped. -/
  | dropped :
      after.server.transfer = none → after.od = host.od →
      Receives host addr entry bytes count next index after
  | taken :
      after.od = host.od → next ≤ index →
      Receiving after addr entry.value.dataType bytes (count + 1) (index + 1) →
      Receives host addr entry bytes count next index after
  /-- The length shows that no segment was lost. -/
  | finished :
      after.server.transfer = none →
      after.od = host.od.replace addr
        { entry with value := Value.ofBytes entry.value.dataType bytes } →
      count = next → next = index → index + 1 = segmentCount bytes.length →
      Receives host addr entry bytes count next index after

theorem Receiving.step {host after : Host N} {addr : Address} {entry : Entry}
    {bytes : List UInt8} {count next index : Nat} {p : SdoPayload}
    {response : Option SdoPayload}
    (receiving : Receiving host addr entry.value.dataType bytes count next)
    (present : host.od.entry addr = some entry) (segment : IsSegment bytes index p)
    (ordered : next ≤ index + 1) (within : index < segmentCount bytes.length)
    (taken : host.step p = pure (after, response)) :
    Receives host addr entry bytes count next index after := by
  rcases receiving with ⟨⟨buf, transfer, length, complete⟩, countLe, inStep, nextWithin⟩
  have isSegment := segment.specifier
  have toggle : (segmentOf p).toggle = alternate index := by rw [segment.carries]
  have last := segmentCount_last_iff within
  -- A segment whose toggle matches is not a repetition of the last one taken.
  have advanced : alternate count = alternate index → next ≤ index := by
    intro matching
    by_contra behind
    have previous : next = index + 1 := by omega
    rw [← inStep, previous, alternate_succ] at matching
    simp at matching
  rcases after with ⟨server, od⟩
  cases SdoServer.handle_effect (step_eq_pure_iff.mp taken) with
  | dropped => exact .dropped rfl rfl
  | rejected _ _ notSegment => exact absurd isSegment notSegment
  | clientAbort aborts => exact absurd (isSegment.symm.trans aborts) (by decide)
  | expeditedWrite _ _ initiate | downloadStarted _ initiate
  | expeditedRead _ _ initiate | uploadStarted _ _ initiate =>
      exact absurd (isSegment.symm.trans initiate) (by decide)
  | uploadSegment _ _ _ _ _ _ current =>
      rw [transfer] at current
      cases current
  | downloadSegment curAddr curType curBuf extended declared _ current more content =>
      rw [transfer, toggle, Option.some.injEq, Transfer.download.injEq] at current
      rcases current with ⟨rfl, rfl, rfl, rfl, matching⟩
      have notBehind := advanced matching
      rw [segment.carries] at more content
      have long : ¬ bytes.length - 7 * index ≤ 7 := of_decide_eq_false more
      have following : index + 1 < segmentCount bytes.length := by omega
      refine .taken rfl notBehind
        ⟨⟨extended, ?_, ?_, ?_⟩, by omega, ?_, following⟩
      · simp only [toggle, matching, alternate_succ]
      · rw [content, List.length_append, length, List.length_drop, List.length_take]
        omega
      · intro allTaken
        have upTo : count = next := by omega
        have here : index = next := by omega
        rw [content, complete upTo, here, take_append_window bytes (by omega)]
        rfl
      · rw [alternate_succ, alternate_succ, matching]
  | downloadFinished curAddr curType curBuf declared curEntry curBytes _ current final content
      exact_ accepts curPresent writable sameType =>
      rw [transfer, toggle, Option.some.injEq, Transfer.download.injEq] at current
      rcases current with ⟨rfl, rfl, rfl, rfl, matching⟩
      have notBehind := advanced matching
      rw [present, Option.some.injEq] at curPresent
      subst curPresent
      rw [segment.carries] at final content
      have short : bytes.length - 7 * index ≤ 7 := of_decide_eq_true final
      have start : 7 * index ≤ bytes.length := by
        unfold segmentCount at within
        omega
      have total := congrArg List.length content
      rw [exact_, List.length_append, length, List.length_drop, List.length_take] at total
      have all : count = index := by omega
      have upTo : count = next := by omega
      have here : next = index := by omega
      have whole : curBytes = bytes := by
        rw [content, complete upTo, here, take_append_window bytes (by omega),
          List.take_of_length_le (by omega)]
      subst whole
      exact .finished rfl rfl upTo here (last.mp short)

/-! ## Any sequence of segments -/

theorem feed_of_none {host : Host N} (none_ : host.server.transfer = none)
    {frames : List SdoPayload}
    (segments : ∀ p ∈ frames, p.get 0 &&& csMask = ccsDownloadSegment) :
    ∃ events final, Trace.run Host.step host frames = pure (events, final) ∧
      final.od = host.od ∧ ∀ event ∈ events, event.after.od = host.od := by
  induction frames generalizing host with
  | nil => exact ⟨[], host, rfl, rfl, by simp⟩
  | cons p frames induction =>
      have valid : host.server.Valid := by
        intro addr data len pos toggle current
        simp [none_] at current
      rcases step_returns valid p with ⟨after, response, taken⟩
      rcases step_of_none none_ (segments p (by simp)) taken with ⟨still, same⟩
      rcases induction still fun q member => segments q (by simp [member]) with
        ⟨events, final, ran, unchanged, every⟩
      refine ⟨_, final, Trace.run_cons_eq_pure_iff.mpr
        ⟨after, response, events, taken, ran, rfl⟩, unchanged.trans same, ?_⟩
      intro event member
      rcases List.mem_cons.mp member with rfl | later
      · exact same
      · exact (every event later).trans same

/-- Segments in order, with losses and repetitions, leave the dictionary alone
or complete the write, which takes every segment still missing. -/
theorem feed_receiving {host : Host N} {addr : Address} {entry : Entry}
    {bytes : List UInt8} {count next : Nat} {frames : List SdoPayload}
    {indices : List (Fin frames.length)}
    (receiving : Receiving host addr entry.value.dataType bytes count next)
    (present : host.od.entry addr = some entry)
    (all : frames.length = segmentCount bytes.length)
    (segments : ∀ index : Fin frames.length, IsSegment bytes index (frames.get index))
    (sorted : indices.Pairwise (· ≤ ·))
    (ordered : ∀ index ∈ indices, next ≤ index.val + 1) :
    let written := host.od.replace addr
      { entry with value := Value.ofBytes entry.value.dataType bytes }
    ∃ events final, Trace.run Host.step host (indices.map frames.get) =
        pure (events, final) ∧
      (∀ event ∈ events, event.after.od = host.od ∨ event.after.od = written) ∧
      (final.od = host.od ∨ final.od = written ∧ count = next ∧
        ∀ index : Fin frames.length, next ≤ index.val → index ∈ indices) := by
  intro written
  induction indices generalizing host count next with
  | nil => exact ⟨[], host, rfl, by simp, .inl rfl⟩
  | cons index indices induction =>
      have valid : host.server.Valid := by
        rcases receiving.transfer with ⟨buf, transfer, _⟩
        intro addr data len pos toggle current
        rw [transfer] at current
        cases current
      rcases List.pairwise_cons.mp sorted with ⟨first, sortedRest⟩
      have rest : ∀ p ∈ indices.map frames.get, p.get 0 &&& csMask = ccsDownloadSegment := by
        intro p member
        rcases List.mem_map.mp member with ⟨later, _, rfl⟩
        exact (segments later).specifier
      rcases step_returns valid (frames.get index) with ⟨after, response, taken⟩
      have extend : ∀ {events final}, Trace.run Host.step after (indices.map frames.get) =
          pure (events, final) →
          Trace.run Host.step host ((index :: indices).map frames.get) =
            pure (⟨host, frames.get index, response, after⟩ :: events, final) :=
        fun ran => Trace.run_cons_eq_pure_iff.mpr ⟨after, response, _, taken, ran, rfl⟩
      cases receiving.step present (segments index) (ordered index (by simp))
        (all ▸ index.isLt) taken with
      | dropped none_ same =>
          rcases feed_of_none none_ rest with ⟨events, final, ran, unchanged, every⟩
          refine ⟨_, final, extend ran, ?_, .inl (unchanged.trans same)⟩
          intro event member
          rcases List.mem_cons.mp member with rfl | later
          · exact .inl same
          · exact .inl ((every event later).trans same)
      | taken same notBehind later =>
          rcases induction later (same ▸ present) sortedRest
            (fun item member => by
              have bound := first item member
              simp only [Fin.le_def] at bound
              omega) with ⟨events, final, ran, every, outcome⟩
          rw [same] at every outcome
          refine ⟨_, final, extend ran, ?_, ?_⟩
          · intro event member
            rcases List.mem_cons.mp member with rfl | later
            · exact .inl same
            · exact every event later
          · rcases outcome with unchanged | ⟨done, upTo, delivered⟩
            · exact .inl unchanged
            · have ordered := receiving.ordered
              refine .inr ⟨done, by omega, fun item missing => ?_⟩
              by_cases here : item = index
              · exact here ▸ List.mem_cons_self
              · have different : item.val ≠ index.val := fun equal => here (Fin.ext equal)
                exact List.mem_cons_of_mem _ (delivered item (by omega))
      | finished none_ done upTo here last =>
          rcases feed_of_none none_ rest with ⟨events, final, ran, unchanged, every⟩
          refine ⟨_, final, extend ran, ?_, .inr ⟨unchanged.trans done, upTo, ?_⟩⟩
          · intro event member
            rcases List.mem_cons.mp member with rfl | later
            · exact .inr done
            · exact .inr ((every event later).trans done)
          · intro item missing
            have bound := item.isLt
            have equal : item = index := Fin.ext (by omega)
            exact equal ▸ List.mem_cons_self

/-- Any of `frames` in order, each any number of times, leave the entry at `addr`
with its old value, or all of them were delivered and it has the value of
`bytes`. No other entry changes at any point. -/
def SafeUnderLoss (server : SdoServer) (od : ObjectDictionary N) (addr : Address)
    (entry : Entry) (bytes : List UInt8) (frames : List SdoPayload) : Prop :=
  ∀ indices : List (Fin frames.length), indices.Pairwise (· ≤ ·) →
    ∃ events final,
      Trace.run Host.step ⟨server, od⟩ (indices.map frames.get) = pure (events, final) ∧
      (∀ event ∈ events, ∀ other, other ≠ addr →
        event.after.od.entry other = od.entry other) ∧
      (final.od.entry addr = some entry ∨
        (∃ value, Value.decodeLe entry.value.dataType bytes = pure (.ok value) ∧
          final.od.entry addr = some { entry with value }) ∧
        ∀ index, index ∈ indices)

/-- After the initiate of a download to a writable object is accepted, losing and
repeating segments cannot corrupt the object. -/
theorem lossy_download_safe (client : SdoClient) (server : SdoServer)
    {od : ObjectDictionary N} {addr : Address} {entry : Entry} {bytes : List UInt8}
    {data : Vector UInt8 maxStringLen} (present : od.entry addr = some entry)
    (writable : entry.access.isWritable = true)
    (suits : entry.value.dataType.Accepts bytes.length) (holds : Holds data bytes) :
    ∃ started frames,
      server.handle od
          (encodeDownloadInitiateSegmented addr (UInt32.ofNat bytes.length)) =
        pure ⟨started, od, some (encodeDownloadResponse addr)⟩ ∧
      emittedSegments client addr data bytes.length = pure frames ∧
      frames.length = segmentCount bytes.length ∧
      SafeUnderLoss started od addr entry bytes frames := by
  have fits := suits.length_le
  rcases encodeDownloadInitiateSegmented_fields addr (UInt32.ofNat bytes.length) with
    ⟨initiate, segmented, sized, named, word⟩
  have declared : (UInt32.ofNat bytes.length).toNat = bytes.length := by
    simp only [maxStringLen] at fits
    simp
    omega
  have handled := SdoServer.onDownloadInitiate_segmented server initiate
    segmented (SdoServer.reqAddress.eq_1 _ ▸ named ▸ present) writable
  rw [← SdoServer.handle_downloadInitiate initiate, if_neg sized, word, declared,
    if_pos suits, SdoServer.reqAddress, named] at handled
  rcases emittedSegments_eq client addr holds fits with ⟨frames, emits, all, segments⟩
  refine ⟨_, frames, handled, emits, all, ?_⟩
  intro indices sorted
  have receiving : Receiving (⟨{ server with
      transfer := some (.download addr entry.value.dataType .new bytes.length false) }, od⟩ :
      Host N) addr entry.value.dataType bytes 0 0 :=
    ⟨⟨.new, rfl, rfl, fun _ => rfl⟩, Nat.le_refl 0, rfl, by unfold segmentCount; omega⟩
  rcases feed_receiving receiving present all (fun index => segments index index.isLt)
    sorted (fun _ _ => Nat.zero_le _) with ⟨events, final, ran, every, outcome⟩
  refine ⟨events, final, ran, ?_, ?_⟩
  · intro event member other different
    rcases every event member with same | written
    · rw [same]
    · rw [written, ObjectDictionary.entry_replace_of_ne different]
  · rcases outcome with same | ⟨written, _, delivered⟩
    · exact .inl (by rw [same, present])
    · refine .inr ⟨⟨_, Value.decodeLe_eq_ok_iff.mpr ⟨suits, rfl⟩, ?_⟩,
        fun index => delivered index (Nat.zero_le _)⟩
      rw [written, ObjectDictionary.entry_replace_self present]

/-- Eight bytes written to an object of variable length, in two segments. -/
theorem lossy_download_safe_eight_bytes :
    let addr : Address := ⟨0x3001, 0⟩
    let entry : Entry := ⟨.domain .new, .rw⟩
    let od : ObjectDictionary 1 := ⟨[(addr, entry)], by simp, by simp⟩
    let data : Vector UInt8 maxStringLen := Vector.ofFn fun position => position.val.toUInt8
    let bytes : List UInt8 := [0, 1, 2, 3, 4, 5, 6, 7]
    ∃ started frames,
      (SdoServer.new ⟨0x10, by decide⟩).handle od
          (encodeDownloadInitiateSegmented addr (UInt32.ofNat bytes.length)) =
        pure ⟨started, od, some (encodeDownloadResponse addr)⟩ ∧
      emittedSegments (SdoClient.new ⟨0x10, by decide⟩) addr data bytes.length = pure frames ∧
      frames.length = segmentCount bytes.length ∧
      SafeUnderLoss started od addr entry bytes frames :=
  lossy_download_safe (SdoClient.new ⟨0x10, by decide⟩) (SdoServer.new ⟨0x10, by decide⟩)
    rfl rfl (by decide) (by unfold Holds; decide)

end CanOpen.Sdo
