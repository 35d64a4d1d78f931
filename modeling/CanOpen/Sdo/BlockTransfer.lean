import CanOpen.Foundation.Listing
import CanOpen.Foundation.Loop
import CanOpen.Sdo.Block

/-! # Block transfers

The documented loop over a writer, whose sub-blocks may each have another size, and what
a receiver makes of the segments, all of them or only some.
-/

namespace CanOpen.Sdo.Block

abbrev BlockSize := { size : UInt8 // 1 ≤ size ∧ size ≤ maxBlksize }

/-! ## The loop over the writer -/

/-- The loop of the sender: the sub-blocks it has finished and the one it is in. -/
structure Sending where
  writer : BlockWriter
  finished : List (List SdoPayload)
  current : List SdoPayload
  deriving DecidableEq, Repr

namespace Sending

def start (sizes : Nat → BlockSize) (data : List UInt8) : Sending :=
  ⟨.new data (sizes 0).val, [], []⟩

def step (sizes : Nat → BlockSize) (sending : Sending) : Exec (Option Sending) := do
  match ← sending.writer.nextSegment with
  | (writer, some segment) =>
      pure (some { sending with writer, current := sending.current ++ [segment] })
  | (writer, none) =>
      if writer.isDone then pure none
      else pure (some
        { writer := writer.startSubBlock (sizes (sending.finished.length + 1)).val
          finished := sending.finished ++ [sending.current]
          current := [] })

def blocks (sending : Sending) : List (List SdoPayload) := sending.finished ++ [sending.current]

def frames (sending : Sending) : List SdoPayload := sending.blocks.flatten

theorem frames_emit (sending : Sending) (writer : BlockWriter) (segment : SdoPayload) :
    frames { sending with writer, current := sending.current ++ [segment] } =
      sending.frames ++ [segment] := by
  simp [frames, blocks]

theorem frames_startSubBlock (sending : Sending) (writer : BlockWriter) :
    frames { writer, finished := sending.finished ++ [sending.current], current := [] } =
      sending.frames := by
  simp [frames, blocks]

end Sending

/-! ## The segments of the data -/

/-- The number of segments: the seventh part of the length, rounded up. -/
def segmentTotal (data : List UInt8) : Nat := (data.length + 6) / 7

def padded (data : List UInt8) : List UInt8 :=
  data ++ List.replicate (7 * segmentTotal data - data.length) 0

def carried (frames : List SdoPayload) : List UInt8 :=
  frames.flatMap fun p => (decodeSubSegment p).data

section

variable {data : List UInt8} {position : Nat}

theorem segmentTotal_eq_iff : segmentTotal data = position + 1 ↔
    7 * position < data.length ∧ data.length ≤ 7 * position + 7 := by
  rw [segmentTotal]
  omega

theorem segmentTotal_ne_zero (some : data ≠ []) : segmentTotal data ≠ 0 := by
  have positive := List.length_pos_iff.mpr some
  rw [segmentTotal]
  omega

theorem length_le_segmentTotal (data : List UInt8) : data.length ≤ 7 * segmentTotal data := by
  rw [segmentTotal]
  omega

theorem length_padded (data : List UInt8) : (padded data).length = 7 * segmentTotal data := by
  have enough := length_le_segmentTotal data
  rw [padded, List.length_append, List.length_replicate]
  omega

theorem padded_trim (data : List UInt8) :
    (padded data).take ((padded data).length - (7 * segmentTotal data - data.length)) =
      data := by
  have enough := length_le_segmentTotal data
  rw [length_padded, Nat.sub_sub_self enough, padded, List.take_left]

/-- The window of a segment, filled up with zeros, is the next part of the padded data. -/
theorem window_padded (inside : 7 * position < data.length) {window : List UInt8}
    (isWindow : window = (data.take (7 * position + min (data.length - 7 * position) 7)).drop
      (7 * position)) :
    window ++ List.replicate (7 - window.length) 0 =
      ((padded data).drop (7 * position)).take 7 := by
  rw [padded, List.drop_append_of_le_length (Nat.le_of_lt inside)]
  by_cases last : data.length ≤ 7 * position + 7
  · have whole : window = data.drop (7 * position) := by
      rw [isWindow, List.take_of_length_le (by omega)]
    have total := segmentTotal_eq_iff.mpr ⟨inside, last⟩
    have length : window.length = data.length - 7 * position := by
      rw [whole, List.length_drop]
    rw [List.take_of_length_le, whole, List.length_drop, total]
    · congr 2
      omega
    · simp only [List.length_append, List.length_drop, List.length_replicate]
      omega
  · have full : window = (data.drop (7 * position)).take 7 := by
      rw [isWindow, show min (data.length - 7 * position) 7 = 7 by omega, List.drop_take]
      congr 1
      omega
    have length : window.length = 7 := by
      rw [full, List.length_take, List.length_drop]
      omega
    rw [length, List.take_append_of_le_length, full]
    · simp
    · rw [List.length_drop]
      omega

theorem nextSegment_emits {writer : BlockWriter} (reached : writer.pos = 7 * position)
    (inside : 7 * position < writer.data.length) (positive : 1 ≤ writer.seqno)
    (room : writer.seqno ≤ writer.blksize) (inRange : writer.seqno ≤ maxBlksize) :
    ∃ segment, writer.nextSegment = pure ({ writer with
        pos := min (7 * (position + 1)) writer.data.length
        seqno := writer.seqno + 1 }, some segment) ∧
      decodeSubSegment segment = ⟨writer.seqno,
        decide (position + 1 = segmentTotal writer.data),
        ((padded writer.data).drop (7 * position)).take 7⟩ := by
  let take := min (writer.data.length - 7 * position) 7
  let window := (writer.data.take (7 * position + take)).drop (7 * position)
  let last := decide (writer.data.length - 7 * position ≤ 7)
  have goesOn : ¬ (writer.isDone = true ∨ writer.blksize < writer.seqno) := by
    rw [BlockWriter.isDone, decide_eq_true_iff, reached, not_or, UInt8.not_lt]
    exact ⟨not_le.mpr inside, room⟩
  have length : window.length = take := by
    simp only [window, take, List.length_drop, List.length_take]
    omega
  have nonempty : window ≠ [] := by
    apply List.ne_nil_of_length_pos
    omega
  have fits : window.length ≤ segmentDataMax := by
    rw [length]
    exact Nat.min_le_right _ _
  rcases encodeSubSegment_eq last positive inRange nonempty fits with
    ⟨segment, encoded, decoded⟩
  have slice : Exec.slice writer.data (7 * position) (7 * position + take) = pure window :=
    Exec.slice_of_le writer.data (Nat.le_add_right _ _) (by omega)
  have counts : Exec.checkedSucc writer.seqno = pure (writer.seqno + 1) := by
    rw [Exec.checkedSucc, if_neg]
    intro top
    rw [top] at inRange
    exact absurd inRange (by decide)
  refine ⟨segment, ?_, ?_⟩
  · have moves : 7 * position + take = min (7 * (position + 1)) writer.data.length := by omega
    rw [BlockWriter.nextSegment, if_neg goesOn, reached,
      Exec.checkedSub_of_le (Nat.le_of_lt inside), pure_bind]
    simp only
    change (Exec.slice writer.data (7 * position) (7 * position + take) >>= _) = _
    rw [slice, pure_bind, encoded, pure_bind, Exec.expect_ok, pure_bind, counts, pure_bind,
      ← moves]
  · have marked : last = decide (position + 1 = segmentTotal writer.data) := by
      rw [decide_eq_decide, eq_comm, segmentTotal_eq_iff]
      omega
    rw [decoded, marked, ← window_padded inside rfl]

end

/-! ## What the loop has emitted -/

/-- The segments of a sub-block are numbered from one, up to its size at most. -/
def Counted (size : BlockSize) (block : List SdoPayload) : Prop :=
  block.map (fun p => (decodeSubSegment p).seqno) =
      (List.range block.length).map (fun index => UInt8.ofNat (index + 1)) ∧
    block.length ≤ size.val.toNat

/-- The frames are the first segments of the data. -/
structure FirstSegments (data : List UInt8) (frames : List SdoPayload) : Prop where
  few : frames.length ≤ segmentTotal data
  carries : carried frames = (padded data).take (7 * frames.length)
  marks : frames.map (fun p => (decodeSubSegment p).last) =
    (List.range frames.length).map fun index => decide (index + 1 = segmentTotal data)

structure Emitted (sizes : Nat → BlockSize) (data : List UInt8) (sending : Sending) :
    Prop where
  sameData : sending.writer.data = data
  pos : sending.writer.pos = min (7 * sending.frames.length) data.length
  segments : FirstSegments data sending.frames
  seqno : sending.writer.seqno.toNat = sending.current.length + 1
  blksize : sending.writer.blksize = (sizes sending.finished.length).val
  counted : ∀ index block, sending.finished[index]? = some block → Counted (sizes index) block
  counting : Counted (sizes sending.finished.length) sending.current

section

variable {sizes : Nat → BlockSize} {data : List UInt8} {frames : List SdoPayload}
  {segment : SdoPayload} {sending : Sending}

theorem BlockSize.positive (size : BlockSize) : 1 ≤ size.val.toNat :=
  UInt8.le_iff_toNat_le.mp size.property.1

theorem BlockSize.le_maxBlksize (size : BlockSize) : size.val.toNat ≤ 127 :=
  UInt8.le_iff_toNat_le.mp size.property.2

theorem FirstSegments.snoc (segments : FirstSegments data frames)
    (inside : 7 * frames.length < data.length) {seqno : UInt8}
    (next : decodeSubSegment segment = ⟨seqno,
      decide (frames.length + 1 = segmentTotal data),
      ((padded data).drop (7 * frames.length)).take 7⟩) :
    FirstSegments data (frames ++ [segment]) where
  few := by
    rw [List.length_append, List.length_singleton, segmentTotal]
    omega
  carries := by
    have appended : carried (frames ++ [segment]) =
        carried frames ++ (decodeSubSegment segment).data := by
      simp [carried]
    rw [appended, segments.carries, next, List.length_append, List.length_singleton,
      Nat.mul_succ, List.take_add]
  marks := by
    rw [List.map_append, segments.marks, List.length_append, List.length_singleton,
      List.range_succ, List.map_append, List.map_singleton, List.map_singleton, next]

theorem Counted.snoc {size : BlockSize} {block : List SdoPayload}
    (counted : Counted size block) (room : block.length < size.val.toNat)
    (next : (decodeSubSegment segment).seqno = UInt8.ofNat (block.length + 1)) :
    Counted size (block ++ [segment]) := by
  constructor
  · rw [List.map_append, counted.1, List.length_append, List.length_singleton,
      List.range_succ, List.map_append, List.map_singleton, List.map_singleton, next]
  · rw [List.length_append, List.length_singleton]
    exact room

theorem counted_nil (size : BlockSize) : Counted size [] := ⟨rfl, Nat.zero_le _⟩

theorem emitted_start (sizes : Nat → BlockSize) (data : List UInt8) :
    Emitted sizes data (.start sizes data) where
  sameData := rfl
  pos := (Nat.zero_min _).symm
  segments := ⟨Nat.zero_le _, rfl, rfl⟩
  seqno := rfl
  blksize := rfl
  counted := by
    intro index block found
    cases found
  counting := counted_nil _

theorem Emitted.blocks_counted (emitted : Emitted sizes data sending) (index : Nat)
    (block : List SdoPayload) (found : sending.blocks[index]? = some block) :
    Counted (sizes index) block :=
  getElem?_snoc emitted.counted emitted.counting index block found

def Sending.remaining (data : List UInt8) (sending : Sending) : Nat :=
  2 * (segmentTotal data - sending.frames.length) + min 1 sending.current.length

theorem Emitted.stops (emitted : Emitted sizes data sending)
    (done : data.length ≤ 7 * sending.frames.length) :
    sending.step sizes = pure none := by
  have isDone : sending.writer.isDone = true := by
    rw [BlockWriter.isDone, decide_eq_true_iff, emitted.sameData, emitted.pos]
    omega
  rw [Sending.step, BlockWriter.nextSegment, if_pos (.inl isDone), pure_bind]
  simp [isDone]

theorem Emitted.not_done (emitted : Emitted sizes data sending)
    (inside : 7 * sending.frames.length < data.length) : sending.writer.isDone = false := by
  rw [BlockWriter.isDone, decide_eq_false_iff_not, emitted.sameData, emitted.pos]
  omega

theorem Emitted.starts_block (emitted : Emitted sizes data sending)
    (inside : 7 * sending.frames.length < data.length)
    (full : sending.writer.blksize < sending.writer.seqno) :
    ∃ next, sending.step sizes = pure (some next) ∧ Emitted sizes data next ∧
      next.remaining data < sending.remaining data := by
  let next : Sending :=
    ⟨sending.writer.startSubBlock (sizes (sending.finished.length + 1)).val,
      sending.finished ++ [sending.current], []⟩
  have sameFrames : next.frames = sending.frames := sending.frames_startSubBlock next.writer
  refine ⟨next, ?_, ?_, ?_⟩
  · rw [Sending.step, BlockWriter.nextSegment, if_pos (.inr full), pure_bind]
    simp [emitted.not_done inside, next]
  · constructor
    · exact emitted.sameData
    · rw [sameFrames]
      exact emitted.pos
    · rw [sameFrames]
      exact emitted.segments
    · rfl
    · simp [next, BlockWriter.startSubBlock]
    · exact emitted.blocks_counted
    · exact counted_nil _
  · have nonempty : 0 < sending.current.length := by
      have positive := (sizes sending.finished.length).positive
      rw [UInt8.lt_iff_toNat_lt, emitted.seqno, emitted.blksize] at full
      omega
    simp only [Sending.remaining, sameFrames, next, List.length_nil]
    omega

theorem Emitted.emits_segment (emitted : Emitted sizes data sending)
    (inside : 7 * sending.frames.length < data.length)
    (room : sending.writer.seqno ≤ sending.writer.blksize) :
    ∃ next, sending.step sizes = pure (some next) ∧ Emitted sizes data next ∧
      next.remaining data < sending.remaining data := by
  have sameData := emitted.sameData
  subst sameData
  have reached : sending.writer.pos = 7 * sending.frames.length := by
    rw [emitted.pos]
    omega
  have positive : 1 ≤ sending.writer.seqno := by
    rw [UInt8.le_iff_toNat_le, emitted.seqno]
    exact Nat.le_add_left 1 _
  have inRange : sending.writer.seqno ≤ maxBlksize := by
    apply UInt8.le_trans room
    rw [emitted.blksize]
    exact (sizes sending.finished.length).property.2
  rcases nextSegment_emits reached inside positive room inRange with
    ⟨segment, emits, decoded⟩
  let next : Sending :=
    ⟨{ sending.writer with
        pos := min (7 * (sending.frames.length + 1)) sending.writer.data.length
        seqno := sending.writer.seqno + 1 },
      sending.finished, sending.current ++ [segment]⟩
  have oneMore : next.frames = sending.frames ++ [segment] :=
    sending.frames_emit next.writer segment
  have count : next.frames.length = sending.frames.length + 1 := by
    rw [oneMore, List.length_append, List.length_singleton]
  have notFull : sending.current.length < (sizes sending.finished.length).val.toNat := by
    rw [UInt8.le_iff_toNat_le, emitted.seqno, emitted.blksize] at room
    exact room
  refine ⟨next, ?_, ?_, ?_⟩
  · rw [Sending.step, emits, pure_bind]
  · constructor
    · rfl
    · rw [count]
    · rw [oneMore]
      exact emitted.segments.snoc inside decoded
    · have few : sending.current.length < 127 :=
        lt_of_lt_of_le notFull (sizes sending.finished.length).le_maxBlksize
      simp only [next, UInt8.toNat_add, emitted.seqno, List.length_append, List.length_singleton]
      exact Nat.mod_eq_of_lt (by simp; omega)
    · exact emitted.blksize
    · exact emitted.counted
    · apply emitted.counting.snoc notFull
      rw [decoded, ← emitted.seqno, UInt8.ofNat_toNat]
  · have more : sending.frames.length + 1 ≤ segmentTotal sending.writer.data := by
      rw [segmentTotal]
      omega
    simp only [Sending.remaining, count, next, List.length_append, List.length_singleton]
    omega

theorem Emitted.goes_on (emitted : Emitted sizes data sending)
    (inside : 7 * sending.frames.length < data.length) :
    ∃ next, sending.step sizes = pure (some next) ∧ Emitted sizes data next ∧
      next.remaining data < sending.remaining data := by
  by_cases room : sending.writer.seqno ≤ sending.writer.blksize
  · exact emitted.emits_segment inside room
  · exact emitted.starts_block inside (UInt8.not_le.mp room)

theorem sending_ends (sizes : Nat → BlockSize) (data : List UInt8) :
    ∃ count final, Loop.Ends (Sending.step sizes) (.start sizes data) count final ∧
      Emitted sizes data final ∧ final.frames.length = segmentTotal data := by
  have progress : ∀ sending, Emitted sizes data sending →
      sending.step sizes = pure none ∨ ∃ next, sending.step sizes = pure (some next) ∧
        Emitted sizes data next ∧ next.remaining data < sending.remaining data := by
    intro sending emitted
    by_cases inside : 7 * sending.frames.length < data.length
    · exact .inr (emitted.goes_on inside)
    · exact .inl (emitted.stops (not_lt.mp inside))
  rcases Loop.ends_of_measure (Emitted sizes data) (Sending.remaining data) progress
    (emitted_start sizes data) with ⟨count, final, ends, emitted, done⟩
  have finished : ¬ 7 * final.frames.length < data.length := by
    intro inside
    rcases emitted.goes_on inside with ⟨next, taken, -⟩
    rw [done, Exec.pure_inj] at taken
    cases taken
  refine ⟨count, final, ends, emitted, Nat.le_antisymm emitted.segments.few ?_⟩
  rw [segmentTotal]
  omega

end

/-! ## What a receiver makes of segments -/

def BlockReceiver.pushAll {N : Nat} (receiver : BlockReceiver N) (frames : List SdoPayload) :
    Except Error (BlockReceiver N) :=
  frames.foldlM (fun receiver p => receiver.push (decodeSubSegment p)) receiver

def MarksEnd (frames : List SdoPayload) : Prop :=
  frames.Pairwise fun earlier _ => (decodeSubSegment earlier).last = false

section

variable {N : Nat} {frames : List SdoPayload}

theorem carried_cons (p : SdoPayload) (rest : List SdoPayload) :
    carried (p :: rest) = (decodeSubSegment p).data ++ carried rest := rfl

theorem length_carried (frames : List SdoPayload) :
    (carried frames).length = 7 * frames.length := by
  induction frames with
  | nil => rfl
  | cons p rest induction =>
      have one : (decodeSubSegment p).data.length = 7 := by
        simp [decodeSubSegment]
      rw [carried_cons, List.length_append, one, induction, List.length_cons]
      omega

namespace BlockReceiver

theorem push_returns {receiver : BlockReceiver N} (segment : SubSegment)
    (open_ : receiver.done = false)
    (fits : (receiver.buf.toList ++ segment.data).length ≤ N) :
    ∃ after, receiver.push segment = .ok after ∧
      after.buf.toList = receiver.buf.toList ++ segment.data ∧ after.done = segment.last := by
  refine ⟨⟨⟨receiver.buf.toList ++ segment.data, fits⟩, segment.last⟩, ?_, rfl, rfl⟩
  rw [push, if_neg (by simp [open_]), BoundedVec.extendFromSlice, dif_pos fits]
  cases last : segment.last <;> simp [open_]

theorem pushAll_returns {receiver : BlockReceiver N} (open_ : receiver.done = false)
    (marks : MarksEnd frames) (fits : (receiver.buf.toList ++ carried frames).length ≤ N) :
    ∃ after, receiver.pushAll frames = .ok after ∧
      after.buf.toList = receiver.buf.toList ++ carried frames ∧
      after.done = frames.any fun p => (decodeSubSegment p).last := by
  induction frames generalizing receiver with
  | nil => exact ⟨receiver, rfl, by simp [carried], open_⟩
  | cons p rest induction =>
      rw [carried_cons, ← List.append_assoc] at fits
      rcases push_returns (decodeSubSegment p) open_ (by
        rw [List.length_append] at fits
        omega) with ⟨next, taken, content, done⟩
      have pushes : receiver.pushAll (p :: rest) = next.pushAll rest := by
        rw [pushAll, List.foldlM_cons, taken]
        rfl
      rcases List.pairwise_cons.mp marks with ⟨before, later⟩
      rw [pushes, carried_cons, ← List.append_assoc, ← content]
      cases rest with
      | nil => exact ⟨next, rfl, by simp [carried], by simpa using done⟩
      | cons q rest =>
          have goesOn := before q List.mem_cons_self
          rw [← content] at fits
          rcases induction (done.trans goesOn) later fits with ⟨after, pushed, all, ended⟩
          exact ⟨after, pushed, all, by simp [ended, goesOn]⟩

theorem new_pushAll_returns (marks : MarksEnd frames) (room : 7 * frames.length ≤ N) :
    ∃ receiver : BlockReceiver N, new.pushAll frames = .ok receiver ∧
      receiver.buf.toList = carried frames ∧
      receiver.done = frames.any fun p => (decodeSubSegment p).last := by
  rw [← length_carried] at room
  exact @pushAll_returns N frames .new rfl marks room

theorem finish_eq (receiver : BlockReceiver N) (unused : UInt8) (crc : UInt16) :
    ∃ after, receiver.finish unused crc true = pure (after,
      let kept := receiver.buf.toList.take (receiver.buf.toList.length - unused.toNat)
      if receiver.buf.toList.length < unused.toNat then .error .badLength
      else if crc16 kept = crc then .ok kept else .error .crcMismatch) := by
  by_cases short : receiver.buf.toList.length < unused.toNat
  · exact ⟨receiver, by simp [finish, BoundedVec.len, short]⟩
  · refine ⟨{ receiver with
      buf := receiver.buf.truncate (receiver.buf.toList.length - unused.toNat) }, ?_⟩
    rw [finish]
    simp only [BoundedVec.len]
    rw [if_neg short, Exec.checkedSub_of_le (not_lt.mp short), pure_bind, if_neg short]
    by_cases same : crc16 (receiver.buf.toList.take
        (receiver.buf.toList.length - unused.toNat)) = crc
    · simp [same]
    · simp [same]

end BlockReceiver

/-- The end frame carries the number of zeros that fill up the last segment, and the
checksum of the data. -/
theorem endFrame_eq {writer : BlockWriter} (some : writer.data ≠ []) :
    ∃ frame unused, writer.endFrame true = pure frame ∧
      decodeEnd frame = .ok (unused, crc16 writer.data) ∧
      unused.toNat = 7 * segmentTotal writer.data - writer.data.length := by
  let rest := writer.data.length % segmentDataMax
  let lastLen := if rest = 0 ∧ ¬ writer.data.isEmpty then segmentDataMax else rest
  have positive := List.length_pos_iff.mpr some
  have restEq : rest = writer.data.length % 7 := rfl
  have trimmed : lastLen ≤ 7 ∧
      7 - lastLen = 7 * segmentTotal writer.data - writer.data.length := by
    rw [segmentTotal]
    by_cases whole : rest = 0
    · have full : lastLen = 7 := if_pos ⟨whole, by simpa using some⟩
      omega
    · have partly : lastLen = rest := if_neg fun both => whole both.1
      omega
  have recovered : (UInt8.ofNat (7 - lastLen)).toNat = 7 - lastLen :=
    UInt8.toNat_ofNat_of_lt' (lt_of_le_of_lt (Nat.sub_le 7 lastLen) (by decide))
  have few : UInt8.ofNat (7 - lastLen) ≤ 7 := by
    rw [UInt8.le_iff_toNat_le, recovered]
    exact Nat.sub_le 7 lastLen
  refine ⟨encodeEnd (UInt8.ofNat (7 - lastLen)) (crc16 writer.data), _, ?_,
    decodeEnd_encode few _, recovered.trans trimmed.2⟩
  rw [BlockWriter.endFrame]
  change (Exec.checkedSub segmentDataMax lastLen >>= _) = _
  rw [Exec.checkedSub_of_le trimmed.1, pure_bind]
  rfl

theorem FirstSegments.marksEnd {data : List UInt8} (segments : FirstSegments data frames) :
    MarksEnd frames := by
  have marks := segments.marks
  rw [MarksEnd, List.pairwise_iff_getElem]
  intro earlier later earlierLt laterLt ordered
  have mark := congrArg (fun marks => marks[earlier]?) marks
  have notEnd : earlier + 1 ≠ segmentTotal data := by
    have few := segments.few
    omega
  simpa [earlierLt, notEnd] using mark

theorem FirstSegments.all {data : List UInt8} (some : data ≠ [])
    (segments : FirstSegments data frames) (count : frames.length = segmentTotal data) :
    carried frames = padded data ∧
      frames.map (fun p => (decodeSubSegment p).last) =
        List.replicate (segmentTotal data - 1) false ++ [true] := by
  constructor
  · rw [segments.carries, count, ← length_padded, List.take_length]
  · rcases Nat.exists_eq_succ_of_ne_zero (segmentTotal_ne_zero some) with ⟨before, total⟩
    have noEnd : (List.range before).map (fun index => decide (index + 1 = before + 1)) =
        List.replicate before false := by
      rw [List.eq_replicate_iff]
      refine ⟨by simp, ?_⟩
      intro mark member
      rcases List.mem_map.mp member with ⟨index, within, rfl⟩
      rw [List.mem_range] at within
      exact decide_eq_false (by omega)
    rw [segments.marks, count, total, Nat.succ_eq_add_one, List.range_succ, List.map_append,
      noEnd]
    simp

end

/-! ## A complete transfer -/

/-- The whole data goes from a sender whose sub-blocks have the given sizes to a receiver
of capacity `N`. -/
structure RoundTrip (N : Nat) (sizes : Nat → BlockSize) (data : List UInt8)
    (final : Sending) : Prop where
  count : final.frames.length = segmentTotal data
  counted : ∀ index block, final.blocks[index]? = some block → Counted (sizes index) block
  marks : final.frames.map (fun p => (decodeSubSegment p).last) =
    List.replicate (segmentTotal data - 1) false ++ [true]
  returned : ∃ receiver frame unused crc after,
    (BlockReceiver.new : BlockReceiver N).pushAll final.frames = .ok receiver ∧
    receiver.isDone = true ∧ final.writer.endFrame true = pure frame ∧
    decodeEnd frame = .ok (unused, crc) ∧
    receiver.finish unused crc true = pure (after, .ok data)

/-- Whatever the sizes of its sub-blocks, a transfer ends and returns the data. -/
theorem block_transfer_returns (sizes : Nat → BlockSize) {data : List UInt8} {N : Nat}
    (some : data ≠ []) (room : 7 * segmentTotal data ≤ N) :
    ∃ count final, Loop.Ends (Sending.step sizes) (.start sizes data) count final ∧
      RoundTrip N sizes data final := by
  rcases sending_ends sizes data with ⟨count, final, ends, emitted, all⟩
  rcases emitted.segments.all some all with ⟨content, marks⟩
  have sameData := emitted.sameData
  subst sameData
  rcases BlockReceiver.new_pushAll_returns emitted.segments.marksEnd (all ▸ room) with
    ⟨receiver, pushed, received, done⟩
  rw [content] at received
  rcases endFrame_eq some with ⟨frame, unused, encoded, decoded, trim⟩
  rcases receiver.finish_eq unused (crc16 final.writer.data) with ⟨after, finished⟩
  refine ⟨count, final, ends, all, emitted.blocks_counted, marks, receiver, frame, unused,
    crc16 final.writer.data, after, pushed, ?_, encoded, decoded, ?_⟩
  · have marked := congrArg (fun marks => marks.any id) marks
    rw [BlockReceiver.isDone, done]
    simpa [List.any_map] using marked
  · have enough : ¬ (padded final.writer.data).length < unused.toNat := by
      rw [trim, length_padded]
      omega
    rw [finished, received, if_neg enough, trim]
    simp only [padded_trim, if_true]

theorem block_transfer_returns_eight_bytes :
    ∃ count final, Loop.Ends (Sending.step fun _ => ⟨1, by decide⟩)
        (.start (fun _ => ⟨1, by decide⟩) [1, 2, 3, 4, 5, 6, 7, 8]) count final ∧
      RoundTrip 14 (fun _ => ⟨1, by decide⟩) [1, 2, 3, 4, 5, 6, 7, 8] final :=
  block_transfer_returns (fun _ => ⟨1, by decide⟩) (by decide) (by decide)

/-! ## An incomplete transfer -/

def trimmed (received : List SdoPayload) (unused : UInt8) : List UInt8 :=
  (carried received).take (7 * received.length - unused.toNat)

/-- The receiver takes the segments that reach it and then accepts them exactly if they are
as many bytes as are trimmed, with the checksum of the data. What it returns then is
shorter than the data by a segment at least. -/
def OnlyCollides (N : Nat) (data : List UInt8) (final : Sending)
    (received : List SdoPayload) : Prop :=
  ∃ receiver frame unused crc after result,
    (BlockReceiver.new : BlockReceiver N).pushAll received = .ok receiver ∧
    final.writer.endFrame true = pure frame ∧ decodeEnd frame = .ok (unused, crc) ∧
    receiver.finish unused crc true = pure (after, result) ∧
    ((∃ bytes, result = .ok bytes) ↔ unused.toNat ≤ 7 * received.length ∧
      crc16 (trimmed received unused) = crc16 data) ∧
    ∀ bytes, result = .ok bytes →
      bytes = trimmed received unused ∧ bytes.length + 7 ≤ data.length

/-- A transfer of which segments are lost is accepted only if the checksums collide. -/
theorem incomplete_transfer_collides (sizes : Nat → BlockSize) {data : List UInt8} {N : Nat}
    (some : data ≠ []) (room : 7 * segmentTotal data ≤ N) :
    ∃ count final, Loop.Ends (Sending.step sizes) (.start sizes data) count final ∧
      ∀ received, received.Sublist final.frames → received ≠ final.frames →
        OnlyCollides N data final received := by
  rcases sending_ends sizes data with ⟨count, final, ends, emitted, all⟩
  have sameData := emitted.sameData
  subst sameData
  refine ⟨count, final, ends, ?_⟩
  intro received sublist lost
  have fewer : received.length < segmentTotal final.writer.data := by
    rw [← all]
    exact lt_of_le_of_ne sublist.length_le fun same => lost (sublist.eq_of_length same)
  rcases BlockReceiver.new_pushAll_returns (emitted.segments.marksEnd.sublist sublist)
    (show 7 * received.length ≤ N by omega) with ⟨receiver, pushed, content, -⟩
  rcases endFrame_eq some with ⟨frame, unused, encoded, decoded, trim⟩
  rcases receiver.finish_eq unused (crc16 final.writer.data) with ⟨after, finished⟩
  rw [content, length_carried, ← trimmed] at finished
  refine ⟨receiver, frame, unused, _, after, _, pushed, encoded, decoded, finished, ?_⟩
  dsimp only
  split
  · next short => simp [short]
  · next enough =>
      rw [not_lt] at enough
      split
      · next same =>
          have shorter : (trimmed received unused).length + 7 ≤ final.writer.data.length := by
            have whole := length_le_segmentTotal final.writer.data
            rw [trimmed, List.length_take, length_carried]
            omega
          simpa [enough, same] using shorter
      · next differs => simp [differs]

theorem incomplete_transfer_collides_three_segments :
    let data : List UInt8 := [1, 2, 3, 4, 5, 6, 7, 8, 9, 10, 11, 12, 13, 14, 15]
    let sizes (block : Nat) : BlockSize := if block = 0 then ⟨1, by decide⟩ else ⟨127, by decide⟩
    ∃ count final, Loop.Ends (Sending.step sizes) (.start sizes data) count final ∧
      ∀ received, received.Sublist final.frames → received ≠ final.frames →
        OnlyCollides 21 data final received := by
  intro data sizes
  exact incomplete_transfer_collides sizes (by decide) (by decide)

/-- Of fourteen zeros, seven are accepted without the others. -/
theorem lost_segment_accepted :
    ¬ ∀ sizes data N count final received receiver frame unused crc after bytes, data ≠ [] →
      Loop.Ends (Sending.step sizes) (.start sizes data) count final →
      received.Sublist final.frames → received ≠ final.frames →
      7 * segmentTotal data ≤ N →
      (BlockReceiver.new : BlockReceiver N).pushAll received = .ok receiver →
      final.writer.endFrame true = pure frame → decodeEnd frame = .ok (unused, crc) →
      receiver.finish unused crc true ≠ pure (after, .ok bytes) := by
  intro refused
  have first : Sending.step (fun _ => ⟨127, by decide⟩)
      (.start (fun _ => ⟨127, by decide⟩) (List.replicate 14 0)) =
      pure (some ⟨⟨List.replicate 14 0, 7, 2, 127⟩, [], [#v[0x01, 0, 0, 0, 0, 0, 0, 0]]⟩) := by
    rfl
  have second : Sending.step (fun _ => ⟨127, by decide⟩)
      ⟨⟨List.replicate 14 0, 7, 2, 127⟩, [], [#v[0x01, 0, 0, 0, 0, 0, 0, 0]]⟩ =
      pure (some ⟨⟨List.replicate 14 0, 14, 3, 127⟩, [],
        [#v[0x01, 0, 0, 0, 0, 0, 0, 0], #v[0x82, 0, 0, 0, 0, 0, 0, 0]]⟩) := by
    rfl
  have ends := (Loop.Steps.next first (Loop.Steps.one second)).ends
    (Loop.ends_of_done (by rfl))
  have frame : (BlockWriter.mk (List.replicate 14 0) 14 3 127).endFrame true =
      pure #v[0xC1, 0, 0, 0, 0, 0, 0, 0] := by
    decide +kernel
  have accepted :
      (⟨⟨List.replicate 7 0, by decide⟩, false⟩ : BlockReceiver 14).finish 0 0 true =
        pure (⟨⟨List.replicate 7 0, by decide⟩, false⟩, .ok (List.replicate 7 0)) := by
    decide +kernel
  exact refused _ _ 14 _ _ [#v[0x01, 0, 0, 0, 0, 0, 0, 0]] _ _ 0 0 _ _
    (by decide) ends (by decide) (by decide) (by decide) (by rfl) frame (by rfl) accepted

end CanOpen.Sdo.Block
