import CanOpen.Foundation.Trace
import CanOpen.Sdo.BlockTransfer

/-! # Block writers and their peers

What a writer emits when its owner calls it in any order, with whatever sizes the peer
chose, and which transfers a receiver has room for.
-/

namespace CanOpen.Sdo.Block

/-! ## Calls of a writer -/

/-- What the owner of a writer asks of it. The size is a byte of the peer's answer. -/
inductive WriterCall where
  | nextSegment
  | startSubBlock (blksize : UInt8)
  deriving DecidableEq, Repr

def BlockWriter.call (writer : BlockWriter) :
    WriterCall → Exec (BlockWriter × Option SdoPayload)
  | .nextSegment => writer.nextSegment
  | .startSubBlock blksize => pure (writer.startSubBlock blksize, none)

def startedWith (calls : List WriterCall) : List UInt8 :=
  calls.filterMap fun
    | .nextSegment => none
    | .startSubBlock blksize => some blksize

abbrev WriterEvent := Trace.Event BlockWriter WriterCall (Option SdoPayload)

def returned (events : List WriterEvent) : List SdoPayload :=
  events.filterMap Trace.Event.output

/-- The writer has emitted the frames and stands behind them. -/
structure Written (data : List UInt8) (frames : List SdoPayload) (writer : BlockWriter) :
    Prop where
  sameData : writer.data = data
  pos : writer.pos = min (7 * frames.length) data.length
  segments : FirstSegments data frames
  positive : 1 ≤ writer.seqno

section

variable {data : List UInt8} {frames : List SdoPayload} {writer : BlockWriter}

theorem written_new (data : List UInt8) (blksize : UInt8) :
    Written data [] (.new data blksize) where
  sameData := rfl
  pos := (Nat.zero_min _).symm
  segments := ⟨Nat.zero_le _, rfl, rfl⟩
  positive := by simp [BlockWriter.new]

theorem Written.startSubBlock (written : Written data frames writer) (blksize : UInt8) :
    Written data frames (writer.startSubBlock blksize) where
  sameData := written.sameData
  pos := written.pos
  segments := written.segments
  positive := by simp [BlockWriter.startSubBlock]

theorem Written.isDone_iff (written : Written data frames writer) :
    writer.isDone = true ↔ data.length ≤ 7 * frames.length := by
  rw [BlockWriter.isDone, decide_eq_true_iff, written.sameData, written.pos]
  omega

theorem Written.reached (written : Written data frames writer)
    (inside : 7 * frames.length < data.length) : writer.pos = 7 * frames.length := by
  rw [written.pos]
  omega

theorem nextSegment_idle (idle : writer.isDone = true ∨ writer.blksize < writer.seqno) :
    writer.nextSegment = pure (writer, none) := by
  rw [BlockWriter.nextSegment, if_pos idle]

theorem Written.emits (written : Written data frames writer)
    (inside : 7 * frames.length < data.length) (room : writer.seqno ≤ writer.blksize)
    (inRange : writer.seqno ≤ maxBlksize) :
    ∃ segment after, writer.nextSegment = pure (after, some segment) ∧
      (decodeSubSegment segment).seqno = writer.seqno ∧
      after.seqno.toNat = writer.seqno.toNat + 1 ∧ after.blksize = writer.blksize ∧
      Written data (frames ++ [segment]) after := by
  have sameData := written.sameData
  subst sameData
  rcases nextSegment_emits (written.reached inside) inside written.positive room inRange with
    ⟨segment, emits, decoded⟩
  have few := UInt8.le_iff_toNat_le.mp inRange
  have bound : maxBlksize.toNat = 127 := rfl
  have counts : (writer.seqno + 1).toNat = writer.seqno.toNat + 1 := by
    rw [UInt8.toNat_add]
    exact Nat.mod_eq_of_lt (by simp; omega)
  refine ⟨segment, _, emits, by rw [decoded], counts, rfl, ?_⟩
  constructor
  · rfl
  · rw [List.length_append, List.length_singleton]
  · exact written.segments.snoc inside decoded
  · rw [UInt8.le_iff_toNat_le, counts]
    exact Nat.le_add_left 1 _

theorem Written.panics (written : Written data frames writer)
    (inside : 7 * frames.length < data.length) (room : writer.seqno ≤ writer.blksize)
    (beyond : maxBlksize < writer.seqno) : writer.nextSegment = throw .failedExpect := by
  have goesOn : ¬ (writer.isDone = true ∨ writer.blksize < writer.seqno) := by
    rw [not_or, UInt8.not_lt, written.isDone_iff]
    exact ⟨not_le.mpr inside, room⟩
  have sameData := written.sameData
  subst sameData
  rw [BlockWriter.nextSegment, if_neg goesOn, written.reached inside,
    Exec.checkedSub_of_le (Nat.le_of_lt inside), pure_bind]
  simp only
  rw [Exec.slice_of_le writer.data (Nat.le_add_right _ _) (by omega), pure_bind,
    encodeSubSegment, if_pos (.inr (.inl beyond))]
  rfl

theorem Written.call (written : Written data frames writer) {call : WriterCall}
    {after : BlockWriter} {output : Option SdoPayload}
    (taken : writer.call call = pure (after, output)) :
    Written data (frames ++ output.toList) after ∧ ∀ segment, output = some segment →
      (decodeSubSegment segment).seqno = writer.seqno ∧ writer.seqno ≤ maxBlksize ∧
        writer.seqno ≤ writer.blksize := by
  cases call with
  | startSubBlock blksize =>
      simp only [BlockWriter.call, Exec.pure_inj, Prod.mk.injEq] at taken
      rcases taken with ⟨rfl, rfl⟩
      simpa using written.startSubBlock blksize
  | nextSegment =>
      rw [BlockWriter.call] at taken
      by_cases idle : writer.isDone = true ∨ writer.blksize < writer.seqno
      · rw [nextSegment_idle idle, Exec.pure_inj, Prod.mk.injEq] at taken
        rcases taken with ⟨rfl, rfl⟩
        simpa using written
      · rw [not_or, UInt8.not_lt, written.isDone_iff, not_le] at idle
        by_cases inRange : writer.seqno ≤ maxBlksize
        · rcases written.emits idle.1 idle.2 inRange with
            ⟨segment, next, emits, number, -, -, writtenNext⟩
          rw [emits, Exec.pure_inj, Prod.mk.injEq] at taken
          rcases taken with ⟨rfl, rfl⟩
          refine ⟨writtenNext, ?_⟩
          rintro _ ⟨⟩
          exact ⟨number, inRange, idle.2⟩
        · rw [written.panics idle.1 idle.2 (UInt8.not_le.mp inRange)] at taken
          cases taken

theorem run_written {first : UInt8} {calls : List WriterCall} {events : List WriterEvent}
    {final : BlockWriter}
    (ran : Trace.run BlockWriter.call (.new data first) calls = pure (events, final)) :
    Written data (returned events) final ∧ ∀ event ∈ events, ∀ segment,
      event.output = some segment → 1 ≤ (decodeSubSegment segment).seqno ∧
        (decodeSubSegment segment).seqno ≤ maxBlksize ∧
        (decodeSubSegment segment).seqno ≤ event.before.blksize := by
  rcases Trace.run_history (fun past writer => Written data (returned past) writer)
    (fun _ event => ∀ segment, event.output = some segment →
      1 ≤ (decodeSubSegment segment).seqno ∧
        (decodeSubSegment segment).seqno ≤ maxBlksize ∧
        (decodeSubSegment segment).seqno ≤ event.before.blksize)
    (written_new data first) (by
      intro past writer call after output written taken
      rcases written.call taken with ⟨next, numbered⟩
      constructor
      · rw [returned, List.filterMap_append]
        cases output <;> exact next
      · intro segment emitted
        rcases numbered segment emitted with ⟨number, inRange, room⟩
        rw [number]
        exact ⟨written.positive, inRange, room⟩) ran with ⟨written, numbered⟩
  refine ⟨written, ?_⟩
  intro event member
  rcases List.append_of_mem member with ⟨past, future, split⟩
  exact numbered past event future split

end

/-! ## Sizes of the peer -/

def InRange (data : List UInt8) (frames : List SdoPayload) (writer : BlockWriter) : Prop :=
  writer.blksize ≤ maxBlksize ∨
    writer.seqno.toNat + (segmentTotal data - frames.length) ≤ 128

/-- Whatever the order of the calls, none panics, and every segment is numbered within its
sub-block. -/
def Serves (data : List UInt8) (first : UInt8) (sizes : List UInt8) : Prop :=
  ∀ calls, startedWith calls = sizes → ∃ events final,
    Trace.run BlockWriter.call (.new data first) calls = pure (events, final) ∧
    ∀ event ∈ events, ∀ segment, event.output = some segment →
      1 ≤ (decodeSubSegment segment).seqno ∧ (decodeSubSegment segment).seqno ≤ maxBlksize ∧
        (decodeSubSegment segment).seqno ≤ event.before.blksize

section

variable {data : List UInt8} {frames : List SdoPayload} {writer : BlockWriter}

/-- The numbers stay in range while the sub-blocks that are begun are small, or few
segments are left. -/
theorem Written.call_returns (written : Written data frames writer)
    (inRange : InRange data frames writer) {call : WriterCall}
    (small : ∀ blksize, call = .startSubBlock blksize →
      blksize ≤ maxBlksize ∨ segmentTotal data ≤ 127) :
    ∃ after output, writer.call call = pure (after, output) ∧
      Written data (frames ++ output.toList) after ∧
      InRange data (frames ++ output.toList) after := by
  cases call with
  | startSubBlock blksize =>
      refine ⟨_, none, rfl, by simpa using written.startSubBlock blksize, ?_⟩
      apply (small blksize rfl).imp id
      intro few
      have one : (writer.startSubBlock blksize).seqno.toNat = 1 := rfl
      rw [one]
      omega
  | nextSegment =>
      rw [BlockWriter.call]
      by_cases idle : writer.isDone = true ∨ writer.blksize < writer.seqno
      · exact ⟨writer, none, nextSegment_idle idle, by simpa using written,
          by simpa using inRange⟩
      · rw [not_or, UInt8.not_lt, written.isDone_iff, not_le] at idle
        have numbered : writer.seqno ≤ maxBlksize := by
          apply inRange.elim (UInt8.le_trans idle.2)
          intro fits
          have bound : maxBlksize.toNat = 127 := rfl
          rw [UInt8.le_iff_toNat_le, bound]
          rw [segmentTotal] at fits
          omega
        rcases written.emits idle.1 idle.2 numbered with
          ⟨segment, after, emits, -, counts, sameSize, writtenNext⟩
        refine ⟨after, some segment, emits, writtenNext, ?_⟩
        rw [InRange, sameSize]
        apply inRange.imp id
        intro fits
        rw [Option.toList_some, List.length_append, List.length_singleton, counts]
        rw [segmentTotal] at fits ⊢
        omega

theorem serves_of_small {first : UInt8} {sizes : List UInt8}
    (small : (∀ size ∈ first :: sizes, size ≤ maxBlksize) ∨ segmentTotal data ≤ 127) :
    Serves data first sizes := by
  intro calls started
  have atStart : ∃ frames, Written data frames (.new data first) ∧
      InRange data frames (.new data first) := by
    refine ⟨[], written_new data first, ?_⟩
    apply small.imp (fun sizes => sizes first List.mem_cons_self)
    intro few
    have one : (BlockWriter.new data first).seqno.toNat = 1 := rfl
    rw [one, List.length_nil]
    omega
  rcases Trace.run_total
    (fun writer => ∃ frames, Written data frames writer ∧ InRange data frames writer) calls
    atStart (by
      rintro writer call member ⟨frames, written, inRange⟩
      have smallCall : ∀ blksize, call = .startSubBlock blksize →
          blksize ≤ maxBlksize ∨ segmentTotal data ≤ 127 := by
        rintro blksize rfl
        apply small.imp _ id
        intro sizesSmall
        apply sizesSmall
        rw [← started]
        exact List.mem_cons_of_mem first (List.mem_filterMap.mpr ⟨_, member, rfl⟩)
      rcases written.call_returns inRange smallCall with
        ⟨after, output, taken, writtenAfter, inRangeAfter⟩
      exact ⟨after, output, taken, _, writtenAfter, inRangeAfter⟩)
    with ⟨events, final, ran, -⟩
  exact ⟨events, final, ran, (run_written ran).2⟩

theorem Written.overruns (written : Written data frames writer)
    (large : maxBlksize < writer.blksize) (count : Nat)
    (number : writer.seqno.toNat + count = 128)
    (many : frames.length + count < segmentTotal data) (rest : List WriterCall)
    (result : List WriterEvent × BlockWriter) :
    Trace.run BlockWriter.call writer (List.replicate (count + 1) .nextSegment ++ rest) ≠
      pure result := by
  intro ran
  rcases result with ⟨events, final⟩
  induction count generalizing writer frames events with
  | zero =>
      rw [Nat.add_zero] at number
      have inside : 7 * frames.length < data.length := by
        rw [segmentTotal] at many
        omega
      have beyond : maxBlksize < writer.seqno := by
        rw [UInt8.lt_iff_toNat_lt, number]
        decide
      have room : writer.seqno ≤ writer.blksize := by
        rw [UInt8.lt_iff_toNat_lt] at large
        rw [UInt8.le_iff_toNat_le, number]
        exact large
      rcases Trace.run_cons_eq_pure_iff.mp ran with ⟨next, output, later, taken, -⟩
      rw [BlockWriter.call, written.panics inside room beyond] at taken
      cases taken
  | succ count induction =>
      have inside : 7 * frames.length < data.length := by
        rw [segmentTotal] at many
        omega
      have inRange : writer.seqno ≤ maxBlksize := by
        have bound : maxBlksize.toNat = 127 := rfl
        rw [UInt8.le_iff_toNat_le, bound]
        omega
      have room : writer.seqno ≤ writer.blksize :=
        UInt8.le_trans inRange (UInt8.le_of_lt large)
      rcases written.emits inside room inRange with
        ⟨segment, after, emits, -, counts, sameSize, writtenAfter⟩
      rw [List.replicate_succ, List.cons_append] at ran
      rcases Trace.run_cons_eq_pure_iff.mp ran with ⟨next, output, later, taken, laterRan, -⟩
      rw [BlockWriter.call, emits, Exec.pure_inj, Prod.mk.injEq] at taken
      rcases taken with ⟨rfl, -⟩
      apply induction writtenAfter (sameSize ▸ large) _ _ later laterRan
      · rw [counts]
        omega
      · rw [List.length_append, List.length_singleton]
        omega

theorem startedWith_replicate (count : Nat) (calls : List WriterCall) :
    startedWith (List.replicate count .nextSegment ++ calls) = startedWith calls := by
  rw [startedWith, List.filterMap_append, List.filterMap_replicate_of_none rfl]
  rfl

theorem startedWith_map (sizes : List UInt8) :
    startedWith (sizes.map WriterCall.startSubBlock) = sizes := by
  induction sizes with
  | nil => rfl
  | cons size sizes induction => exact congrArg (size :: ·) induction

theorem Written.reaches_overrun (written : Written data [] writer) (first : writer.seqno = 1)
    (many : 127 < segmentTotal data) {sizes : List UInt8}
    (large : ∃ size ∈ writer.blksize :: sizes, maxBlksize < size) :
    ∃ calls, startedWith calls = sizes ∧
      ∀ result, Trace.run BlockWriter.call writer calls ≠ pure result := by
  induction sizes generalizing writer with
  | nil =>
      rcases large with ⟨size, member, large⟩
      cases List.mem_singleton.mp member
      refine ⟨List.replicate 128 .nextSegment ++ [], startedWith_replicate 128 [], ?_⟩
      exact written.overruns large 127 (by rw [first]; rfl) (by simpa using many) []
  | cons next sizes induction =>
      by_cases now : maxBlksize < writer.blksize
      · refine ⟨List.replicate 128 .nextSegment ++ (next :: sizes).map .startSubBlock,
          (startedWith_replicate 128 _).trans (startedWith_map _), ?_⟩
        exact written.overruns now 127 (by rw [first]; rfl) (by simpa using many) _
      · have later : ∃ size ∈ next :: sizes, maxBlksize < size := by
          rcases large with ⟨size, member, large⟩
          refine ⟨size, (List.mem_cons.mp member).resolve_left ?_, large⟩
          rintro rfl
          exact now large
        rcases induction (written.startSubBlock next) rfl later with
          ⟨calls, started, panics⟩
        refine ⟨.startSubBlock next :: calls, congrArg (next :: ·) started, ?_⟩
        rintro ⟨events, final⟩ ran
        rcases Trace.run_cons_eq_pure_iff.mp ran with ⟨after, output, rest, taken, laterRan, -⟩
        rw [BlockWriter.call, Exec.pure_inj, Prod.mk.injEq] at taken
        rcases taken with ⟨rfl, -⟩
        exact panics _ laterRan

theorem not_serves_of_large (many : 127 < segmentTotal data) {first : UInt8}
    {sizes : List UInt8} (large : ∃ size ∈ first :: sizes, maxBlksize < size) :
    ¬ Serves data first sizes := by
  intro serves
  rcases (written_new data first).reaches_overrun rfl many large with
    ⟨calls, started, panics⟩
  rcases serves calls started with ⟨events, final, ran, -⟩
  exact panics _ ran

/-- A writer serves its peer exactly if the peer asks for sub-blocks of the range or the
data has no more segments than fit in one. -/
theorem serves_iff_small (data : List UInt8) (first : UInt8) (sizes : List UInt8) :
    Serves data first sizes ↔
      (∀ size ∈ first :: sizes, size ≤ maxBlksize) ∨ segmentTotal data ≤ 127 := by
  constructor
  · intro serves
    by_contra neither
    rw [not_or, not_le] at neither
    apply not_serves_of_large neither.2 _ serves
    by_contra none
    apply neither.1
    intro size member
    rw [← UInt8.not_lt]
    intro large
    exact none ⟨size, member, large⟩
  · exact serves_of_small

/-- The answer to the initiate frame asks for sub-blocks of 128 segments, and the data has
as many. -/
theorem answered_size_not_served :
    decodeDownloadInitiateResponse #v[0xA0, 0x00, 0x20, 0x00, 128, 0, 0, 0] =
        .ok ⟨⟨0x2000, 0⟩, 128, false⟩ ∧
      ¬ Serves (List.replicate 890 0) 128 [] := by
  constructor
  · decide
  · apply not_serves_of_large
    · rw [segmentTotal, List.length_replicate]
      decide
    · exact ⟨128, List.mem_cons_self, by decide⟩

end

/-! ## Room of the receiver -/

section

variable {N : Nat} {frames : List SdoPayload}

theorem BlockReceiver.pushAll_overflows {receiver : BlockReceiver N}
    (open_ : receiver.done = false) (marks : MarksEnd frames)
    (full : N < (receiver.buf.toList ++ carried frames).length) :
    receiver.pushAll frames = .error .overflow := by
  induction frames generalizing receiver with
  | nil =>
      rw [carried, List.flatMap_nil, List.append_nil] at full
      exact absurd receiver.buf.length_le (not_le.mpr full)
  | cons p rest induction =>
      rw [pushAll, List.foldlM_cons]
      by_cases fits : (receiver.buf.toList ++ (decodeSubSegment p).data).length ≤ N
      · rcases push_returns (decodeSubSegment p) open_ fits with ⟨next, taken, content, done⟩
        rw [carried_cons, ← List.append_assoc, ← content] at full
        rw [taken]
        cases rest with
        | nil =>
            rw [carried, List.flatMap_nil, List.append_nil, content] at full
            exact absurd fits (not_le.mpr full)
        | cons q rest =>
            rcases List.pairwise_cons.mp marks with ⟨before, later⟩
            exact induction (done.trans (before q List.mem_cons_self)) later full
      · rw [push, if_neg (by simp [open_]), BoundedVec.extendFromSlice, dif_neg fits]
        rfl

theorem BlockReceiver.new_pushAll_overflow_iff (N : Nat) (marks : MarksEnd frames) :
    (new : BlockReceiver N).pushAll frames = .error .overflow ↔ N < 7 * frames.length := by
  constructor
  · intro overflows
    by_contra room
    rcases new_pushAll_returns marks (not_lt.mp room) with ⟨receiver, pushed, -⟩
    rw [pushed] at overflows
    cases overflows
  · intro full
    rw [← length_carried] at full
    exact @pushAll_overflows N frames .new rfl marks full

end

/-- Whatever the sizes of its sub-blocks, a transfer overflows exactly if the data, filled
up to whole segments, is longer than the capacity. Else its segments are all taken. -/
theorem transfer_overflows_iff (N : Nat) (sizes : Nat → BlockSize) (data : List UInt8) :
    ∃ count final, Loop.Ends (Sending.step sizes) (.start sizes data) count final ∧
      ((BlockReceiver.new : BlockReceiver N).pushAll final.frames = .error .overflow ↔
        N < 7 * segmentTotal data) ∧
      (7 * segmentTotal data ≤ N → ∃ receiver,
        (BlockReceiver.new : BlockReceiver N).pushAll final.frames = .ok receiver ∧
        receiver.buf.toList = padded data) := by
  rcases sending_ends sizes data with ⟨count, final, ends, emitted, all⟩
  have marks := emitted.segments.marksEnd
  refine ⟨count, final, ends, ?_, ?_⟩
  · rw [← all]
    exact BlockReceiver.new_pushAll_overflow_iff N marks
  · intro room
    rcases BlockReceiver.new_pushAll_returns marks (all ▸ room) with
      ⟨receiver, pushed, content, -⟩
    refine ⟨receiver, pushed, ?_⟩
    rw [content, emitted.segments.carries, all, ← length_padded, List.take_length]

/-- Eight bytes, in two segments, do not fit in a receiver of capacity eight. -/
theorem eight_bytes_overflow :
    ¬ ∀ (N : Nat) (sizes : Nat → BlockSize) (data : List UInt8) (count : Nat)
      (final : Sending), data ≠ [] → data.length ≤ N →
      Loop.Ends (Sending.step sizes) (.start sizes data) count final →
      (BlockReceiver.new : BlockReceiver N).pushAll final.frames ≠ .error .overflow := by
  intro takes
  have first : Sending.step (fun _ => ⟨127, by decide⟩)
      (.start (fun _ => ⟨127, by decide⟩) (List.replicate 8 1)) =
      pure (some ⟨⟨List.replicate 8 1, 7, 2, 127⟩, [], [#v[0x01, 1, 1, 1, 1, 1, 1, 1]]⟩) := by
    rfl
  have second : Sending.step (fun _ => ⟨127, by decide⟩)
      ⟨⟨List.replicate 8 1, 7, 2, 127⟩, [], [#v[0x01, 1, 1, 1, 1, 1, 1, 1]]⟩ =
      pure (some ⟨⟨List.replicate 8 1, 8, 3, 127⟩, [],
        [#v[0x01, 1, 1, 1, 1, 1, 1, 1], #v[0x82, 1, 0, 0, 0, 0, 0, 0]]⟩) := by
    rfl
  have ends := (Loop.Steps.next first (Loop.Steps.one second)).ends
    (Loop.ends_of_done (by rfl))
  exact takes 8 _ _ _ _ (by decide) (by decide) ends (by rfl)

end CanOpen.Sdo.Block
