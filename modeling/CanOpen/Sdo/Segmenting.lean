import CanOpen.Foundation.BoundedVec
import CanOpen.Foundation.Listing
import CanOpen.Foundation.Loop
import CanOpen.Foundation.Trace
import CanOpen.Sdo.Codec

/-! # Segment writers and readers

The helpers that split a byte string into data segments and put it together again.
-/

namespace CanOpen.Sdo

/-! ## Splitting data -/

structure SegmentWriter where
  data : List UInt8
  pos : Nat
  toggle : Bool
  deriving DecidableEq, Repr

namespace SegmentWriter

def new (data : List UInt8) : SegmentWriter := ⟨data, 0, false⟩

def isDone (writer : SegmentWriter) : Bool := decide (writer.data.length ≤ writer.pos)

def nextSegment (writer : SegmentWriter) : Exec (SegmentWriter × Option SdoPayload) :=
  if writer.isDone then pure (writer, none)
  else do
    let remaining ← Exec.checkedSub writer.data.length writer.pos
    let len := min remaining segmentDataMax
    let last := decide (remaining ≤ segmentDataMax)
    let window ← Exec.slice writer.data writer.pos (writer.pos + len)
    let frame ← Exec.expect (← encodeDataSegment window writer.toggle last)
    pure ({ writer with pos := writer.pos + len, toggle := !writer.toggle }, some frame)

end SegmentWriter

/-! ## Putting data together -/

structure SegmentReader (N : Nat) where
  buf : BoundedVec UInt8 N
  toggle : Bool
  done : Bool
  deriving DecidableEq, Repr

namespace SegmentReader

variable {N : Nat}

def new : SegmentReader N := ⟨.new, false, false⟩

def isDone (reader : SegmentReader N) : Bool := reader.done

def data (reader : SegmentReader N) : List UInt8 := reader.buf.toList

def push (reader : SegmentReader N) (segment : Segment) :
    SegmentReader N × Except Error Unit :=
  if reader.done then (reader, .error .unexpectedCommand)
  else if segment.toggle ≠ reader.toggle then (reader, .error .toggleMismatch)
  else
    match reader.buf.extendFromSlice segment.data with
    | none => (reader, .error .overflow)
    | some buf =>
        ({ buf, toggle := !reader.toggle, done := if segment.last then true else reader.done },
          .ok ())

end SegmentReader

/-! ## The slices of a byte string -/

def slice (bytes : List UInt8) (position : Nat) : List UInt8 :=
  (bytes.drop (7 * position)).take 7

def IsSlice (bytes : List UInt8) (position : Nat) (p : SdoPayload) : Prop :=
  encodeDataSegment (slice bytes position) (alternate position)
    (decide (position + 1 = segmentCount bytes.length)) = pure (.ok p)

structure Slices (bytes : List UInt8) (frames : List SdoPayload) : Prop where
  few : frames.length ≤ segmentCount bytes.length
  each : ∀ position p, frames[position]? = some p → IsSlice bytes position p

section

variable {bytes : List UInt8} {position : Nat} {p : SdoPayload} {frames others : List SdoPayload}

theorem IsSlice.fields (isSlice : IsSlice bytes position p) :
    p.get 0 &&& csMask = ccsDownloadSegment ∧
      segmentOf p = ⟨alternate position, decide (position + 1 = segmentCount bytes.length),
        slice bytes position⟩ :=
  encodeDataSegment_carries isSlice

theorem slices_nil (bytes : List UInt8) : Slices bytes [] where
  few := Nat.zero_le _
  each := by simp

theorem Slices.snoc (slices : Slices bytes frames)
    (more : frames.length < segmentCount bytes.length)
    (isSlice : IsSlice bytes frames.length p) : Slices bytes (frames ++ [p]) where
  few := by
    rw [List.length_append, List.length_singleton]
    exact more
  each := getElem?_snoc slices.each isSlice

theorem Slices.unique (slices : Slices bytes frames) (slicesOthers : Slices bytes others)
    (sameLength : frames.length = others.length) : frames = others := by
  apply List.ext_getElem?
  intro position
  by_cases inside : position < frames.length
  · have insideOthers : position < others.length := sameLength ▸ inside
    have first := slices.each position _ (List.getElem?_eq_getElem inside)
    have second := slicesOthers.each position _ (List.getElem?_eq_getElem insideOthers)
    rw [IsSlice, second, Exec.pure_inj, Except.ok.injEq] at first
    rw [List.getElem?_eq_getElem inside, List.getElem?_eq_getElem insideOthers, first]
  · rw [List.getElem?_eq_none (not_lt.mp inside),
      List.getElem?_eq_none (sameLength ▸ not_lt.mp inside)]

theorem length_slice_le (bytes : List UInt8) (position : Nat) :
    (slice bytes position).length ≤ 7 :=
  List.length_take_le _ _

theorem take_append_slice (bytes : List UInt8) (position : Nat) :
    bytes.take (7 * position) ++ slice bytes position = bytes.take (7 * (position + 1)) := by
  rw [slice, Nat.mul_succ, List.take_add]

theorem isSlice_exists (bytes : List UInt8) (position : Nat) :
    ∃ p, IsSlice bytes position p := by
  rcases encodeDataSegment_eq (alternate position)
    (decide (position + 1 = segmentCount bytes.length)) (length_slice_le bytes position) with
    ⟨p, encoded, -⟩
  exact ⟨p, encoded⟩

end

/-! ## What the writer emits -/

structure HasEmitted (data : List UInt8) (count : Nat) (writer : SegmentWriter) : Prop where
  sameData : writer.data = data
  pos : writer.pos = min (7 * count) data.length
  toggle : writer.toggle = alternate count

section

variable {data : List UInt8} {count : Nat} {writer : SegmentWriter}

theorem hasEmitted_new (data : List UInt8) : HasEmitted data 0 (.new data) where
  sameData := rfl
  pos := (Nat.zero_min _).symm
  toggle := rfl

theorem HasEmitted.isDone (emitted : HasEmitted data count writer) :
    writer.isDone = decide (data.length ≤ 7 * count) := by
  rw [SegmentWriter.isDone, emitted.sameData, emitted.pos, decide_eq_decide]
  omega

theorem HasEmitted.stops (emitted : HasEmitted data count writer)
    (done : data.length ≤ 7 * count) :
    writer.nextSegment = pure (writer, none) := by
  rw [SegmentWriter.nextSegment, if_pos (by rw [emitted.isDone, decide_eq_true done])]

theorem HasEmitted.emits (emitted : HasEmitted data count writer)
    (inside : 7 * count < data.length) :
    ∃ p after, writer.nextSegment = pure (after, some p) ∧ IsSlice data count p ∧
      HasEmitted data (count + 1) after := by
  have goesOn : ¬ writer.isDone = true := by
    rw [emitted.isDone, decide_eq_true_iff]
    exact not_le.mpr inside
  have within : count < segmentCount data.length := by
    rw [segmentCount]
    omega
  have last := segmentCount_last_iff within
  have pos : writer.pos = 7 * count := by
    rw [emitted.pos]
    omega
  rcases isSlice_exists data count with ⟨p, isSlice⟩
  let after : SegmentWriter :=
    ⟨data, 7 * count + min (data.length - 7 * count) 7, !alternate count⟩
  refine ⟨p, after, ?_, isSlice, rfl, ?_, (alternate_succ count).symm⟩
  · rw [SegmentWriter.nextSegment, if_neg goesOn, emitted.sameData, pos, emitted.toggle,
      Exec.checkedSub_of_le (Nat.le_of_lt inside), pure_bind]
    simp only
    rw [Exec.slice_of_le data (Nat.le_add_right _ _) (by omega), pure_bind, segment_window,
      ← slice, decide_eq_decide.mpr last, isSlice, pure_bind, Exec.expect_ok, pure_bind]
  · simp only [after]
    omega

end

/-! ## Draining a writer -/

structure Draining where
  writer : SegmentWriter
  frames : List SdoPayload
  deriving DecidableEq, Repr

namespace Draining

def start (data : List UInt8) : Draining := ⟨.new data, []⟩

def step (draining : Draining) : Exec (Option Draining) := do
  match ← draining.writer.nextSegment with
  | (writer, some p) => pure (some ⟨writer, draining.frames ++ [p]⟩)
  | (_, none) => pure none

end Draining

structure Drained (data : List UInt8) (draining : Draining) : Prop where
  emitted : HasEmitted data draining.frames.length draining.writer
  slices : Slices data draining.frames
  few : draining.frames.length ≤ (data.length + 6) / 7

theorem Drained.goes_on {data : List UInt8} {draining : Draining}
    (drained : Drained data draining) (inside : 7 * draining.frames.length < data.length) :
    ∃ next, draining.step = pure (some next) ∧ Drained data next ∧
      next.frames.length = draining.frames.length + 1 := by
  rcases drained.emitted.emits inside with ⟨p, after, emits, isSlice, emitted⟩
  have more : draining.frames.length < segmentCount data.length := by
    rw [segmentCount]
    omega
  have length : (draining.frames ++ [p]).length = draining.frames.length + 1 := by
    rw [List.length_append, List.length_singleton]
  refine ⟨⟨after, draining.frames ++ [p]⟩, ?_, ?_, length⟩
  · rw [Draining.step, emits, pure_bind]
  · constructor
    · rw [length]
      exact emitted
    · exact drained.slices.snoc more isSlice
    · rw [length]
      omega

theorem draining_ends (data : List UInt8) :
    ∃ count final, Loop.Ends Draining.step (.start data) count final ∧
      Slices data final.frames ∧ final.frames.length = (data.length + 6) / 7 := by
  have progress : ∀ draining, Drained data draining →
      draining.step = pure none ∨ ∃ next, draining.step = pure (some next) ∧
        Drained data next ∧
        data.length - 7 * next.frames.length < data.length - 7 * draining.frames.length := by
    intro draining drained
    by_cases inside : 7 * draining.frames.length < data.length
    · rcases drained.goes_on inside with ⟨next, taken, drainedNext, one⟩
      exact .inr ⟨next, taken, drainedNext, by omega⟩
    · left
      rw [Draining.step, drained.emitted.stops (not_lt.mp inside), pure_bind]
  have atStart : Drained data (.start data) :=
    ⟨hasEmitted_new data, slices_nil data, Nat.zero_le _⟩
  rcases Loop.ends_of_measure (Drained data)
    (fun draining => data.length - 7 * draining.frames.length) progress atStart with
    ⟨count, final, ends, drained, done⟩
  refine ⟨count, final, ends, drained.slices, Nat.le_antisymm drained.few ?_⟩
  have finished : ¬ 7 * final.frames.length < data.length := by
    intro inside
    rcases drained.goes_on inside with ⟨next, taken, -⟩
    rw [done, Exec.pure_inj] at taken
    cases taken
  omega

/-! ## Segments between those of the writer -/

structure Segmenting (N : Nat) where
  writer : SegmentWriter
  reader : SegmentReader N
  deriving DecidableEq, Repr

inductive Delivery where
  | next
  | stray (segment : Segment)
  deriving DecidableEq, Repr

namespace Segmenting

variable {N : Nat}

def start (data : List UInt8) : Segmenting N := ⟨.new data, .new⟩

def step (segmenting : Segmenting N) :
    Delivery → Exec (Segmenting N × Option (Except Error Unit))
  | .stray segment =>
      let (reader, result) := segmenting.reader.push segment
      pure (⟨segmenting.writer, reader⟩, some result)
  | .next => do
      match ← segmenting.writer.nextSegment with
      | (writer, none) => pure (⟨writer, segmenting.reader⟩, none)
      | (writer, some p) =>
          match ← decodeDataSegment p with
          | .error error => pure (⟨writer, segmenting.reader⟩, some (.error error))
          | .ok segment =>
              let (reader, result) := segmenting.reader.push segment
              pure (⟨writer, reader⟩, some result)

end Segmenting

def Misplaced {N : Nat} (reader : SegmentReader N) (segment : Segment) : Prop :=
  segment.toggle ≠ reader.toggle ∨ N < reader.data.length + segment.data.length

abbrev SegmentingEvent (N : Nat) :=
  Trace.Event (Segmenting N) Delivery (Option (Except Error Unit))

def OnlyMisplaced {N : Nat} (event : SegmentingEvent N) : Prop :=
  ∀ segment, event.input = .stray segment → event.before.reader.isDone = false →
    Misplaced event.before.reader segment

structure Sorted {N : Nat} (event : SegmentingEvent N) : Prop where
  takes : event.input = .next → event.before.writer.isDone = false →
    event.output = some (.ok ())
  ended : event.input = .next → event.before.writer.isDone = true →
    event.output = none ∧ event.after = event.before
  refuses : ∀ segment, event.input = .stray segment →
    (∃ error, event.output = some (.error error)) ∧ event.after = event.before
  together : event.after.reader.isDone = event.after.writer.isDone

section

variable {N : Nat} {data : List UInt8} {count : Nat} {segmenting : Segmenting N}

structure InStep (data : List UInt8) (count : Nat) (segmenting : Segmenting N) : Prop where
  emitted : HasEmitted data count segmenting.writer
  holds : segmenting.reader.data = data.take (7 * count)
  toggle : segmenting.reader.toggle = alternate count
  done : segmenting.reader.done = decide (data.length ≤ 7 * count)

theorem SegmentReader.push_refuses {reader : SegmentReader N} {segment : Segment}
    (refused : reader.isDone = true ∨ Misplaced reader segment) :
    ∃ error, reader.push segment = (reader, .error error) := by
  by_cases done : reader.done = true
  · exact ⟨.unexpectedCommand, by rw [push, if_pos done]⟩
  · have misplaced := refused.resolve_left done
    by_cases toggled : segment.toggle ≠ reader.toggle
    · exact ⟨.toggleMismatch, by rw [push, if_neg done, if_pos toggled]⟩
    · have full : ¬ (reader.buf.toList ++ segment.data).length ≤ N := by
        rw [List.length_append]
        exact not_le.mpr (misplaced.resolve_left toggled)
      refine ⟨.overflow, ?_⟩
      rw [push, if_neg done, if_neg toggled, BoundedVec.extendFromSlice, dif_neg full]

theorem SegmentReader.push_takes {reader : SegmentReader N} {segment : Segment}
    (open_ : reader.done = false) (toggle : segment.toggle = reader.toggle)
    (fits : (reader.data ++ segment.data).length ≤ N) :
    reader.push segment =
      (⟨⟨reader.data ++ segment.data, fits⟩, !reader.toggle, segment.last⟩, .ok ()) := by
  have notDone : ¬ reader.done = true := by simp [open_]
  have inSequence : ¬ segment.toggle ≠ reader.toggle := not_not.mpr toggle
  have room : (reader.buf.toList ++ segment.data).length ≤ N := fits
  rw [push, if_neg notDone, if_neg inSequence, BoundedVec.extendFromSlice, dif_pos room]
  cases segment.last <;> simp [open_, data]

theorem inStep_start (nonempty : data ≠ []) : InStep data 0 (.start data : Segmenting N) where
  emitted := hasEmitted_new data
  holds := (List.take_zero (l := data)).symm
  toggle := rfl
  done := by
    have positive := List.length_pos_iff.mpr nonempty
    rw [decide_eq_false (by omega)]
    rfl

theorem InStep.isDone (inStep : InStep data count segmenting) :
    segmenting.reader.isDone = segmenting.writer.isDone := by
  rw [SegmentReader.isDone, inStep.done, inStep.emitted.isDone]

theorem InStep.next (inStep : InStep data count segmenting) (room : data.length ≤ N)
    (inside : 7 * count < data.length) :
    ∃ after, segmenting.step .next = pure (after, some (.ok ())) ∧
      InStep data (count + 1) after := by
  rcases inStep.emitted.emits inside with ⟨p, writer, emits, isSlice, emitted⟩
  rcases isSlice.fields with ⟨specifier, fields⟩
  have within : count < segmentCount data.length := by
    rw [segmentCount]
    omega
  have last : decide (count + 1 = segmentCount data.length) =
      decide (data.length ≤ 7 * (count + 1)) := by
    rw [decide_eq_decide, ← segmentCount_last_iff within]
    omega
  have open_ : segmenting.reader.done = false := by
    rw [inStep.done]
    exact decide_eq_false (not_le.mpr inside)
  have content : segmenting.reader.data ++ (segmentOf p).data = data.take (7 * (count + 1)) := by
    rw [inStep.holds, fields, take_append_slice]
  have fits : (segmenting.reader.data ++ (segmentOf p).data).length ≤ N := by
    rw [content]
    exact (List.length_take_le' _ _).trans room
  have toggle : (segmentOf p).toggle = segmenting.reader.toggle := by
    rw [fields, inStep.toggle]
  have pushed := SegmentReader.push_takes open_ toggle fits
  let after : Segmenting N := ⟨writer, ⟨segmenting.reader.data ++ (segmentOf p).data, fits⟩,
    !segmenting.reader.toggle, (segmentOf p).last⟩
  refine ⟨after, ?_, emitted, content, ?_, ?_⟩
  · rw [Segmenting.step, emits, pure_bind]
    simp only [decodeDataSegment_eq, specifier, if_true, pure_bind, pushed]
    rfl
  · simp only [after]
    rw [inStep.toggle, alternate_succ]
  · simp only [after]
    rw [fields]
    exact last

theorem InStep.step (inStep : InStep data count segmenting) (room : data.length ≤ N)
    {delivery : Delivery} {after : Segmenting N} {output : Option (Except Error Unit)}
    (only : OnlyMisplaced ⟨segmenting, delivery, output, after⟩)
    (taken : segmenting.step delivery = pure (after, output)) :
    Sorted ⟨segmenting, delivery, output, after⟩ ∧
      InStep data (if delivery = .next ∧ 7 * count < data.length then count + 1 else count)
        after := by
  cases delivery with
  | stray segment =>
      have refused : segmenting.reader.isDone = true ∨ Misplaced segmenting.reader segment := by
        cases done : segmenting.reader.isDone with
        | true => exact .inl rfl
        | false => exact .inr (only segment rfl done)
      rcases SegmentReader.push_refuses refused with ⟨error, pushed⟩
      rw [Segmenting.step, pushed] at taken
      simp only [Exec.pure_inj, Prod.mk.injEq] at taken
      rcases taken with ⟨rfl, rfl⟩
      have notNext : Delivery.stray segment ≠ .next := by simp
      refine ⟨⟨fun same => absurd same notNext, fun same => absurd same notNext, ?_,
        inStep.isDone⟩, by simpa using inStep⟩
      intro other same
      exact ⟨⟨error, rfl⟩, rfl⟩
  | next =>
      have notStray : ∀ segment, Delivery.next ≠ .stray segment := by simp
      by_cases inside : 7 * count < data.length
      · rcases inStep.next room inside with ⟨next, stepped, inStepNext⟩
        rw [stepped, Exec.pure_inj, Prod.mk.injEq] at taken
        rcases taken with ⟨rfl, rfl⟩
        rw [if_pos ⟨rfl, inside⟩]
        refine ⟨⟨fun _ _ => rfl, ?_, fun segment same => absurd same (notStray segment),
          inStepNext.isDone⟩, inStepNext⟩
        intro _ done
        rw [inStep.emitted.isDone, decide_eq_true_iff] at done
        exact absurd done (not_le.mpr inside)
      · rw [Segmenting.step, inStep.emitted.stops (not_lt.mp inside), pure_bind] at taken
        simp only [Exec.pure_inj, Prod.mk.injEq] at taken
        rcases taken with ⟨rfl, rfl⟩
        rw [if_neg fun both => inside both.2]
        refine ⟨⟨?_, fun _ _ => ⟨rfl, rfl⟩, fun segment same => absurd same (notStray segment),
          inStep.isDone⟩, inStep⟩
        intro _ goesOn
        rw [inStep.emitted.isDone, decide_eq_false_iff_not] at goesOn
        exact absurd (not_lt.mp inside) goesOn

def emittedCount (data : List UInt8) (deliveries : List Delivery) : Nat :=
  min (deliveries.count .next) (segmentCount data.length)

theorem emittedCount_snoc (nonempty : data ≠ []) (deliveries : List Delivery)
    (delivery : Delivery) :
    emittedCount data (deliveries ++ [delivery]) =
      if delivery = .next ∧ 7 * emittedCount data deliveries < data.length then
        emittedCount data deliveries + 1
      else emittedCount data deliveries := by
  have positive := List.length_pos_iff.mpr nonempty
  rw [emittedCount, List.count_append, emittedCount, segmentCount]
  cases delivery with
  | stray segment => simp
  | next =>
      rw [List.count_singleton_self]
      split
      · next more => omega
      · next stops =>
          rw [not_and, not_lt] at stops
          have done := stops rfl
          omega

theorem Segmenting.step_returns (emitted : HasEmitted data count segmenting.writer)
    (delivery : Delivery) :
    ∃ after output, segmenting.step delivery = pure (after, output) ∧
      ∃ next, HasEmitted data next after.writer := by
  cases delivery with
  | stray segment =>
      exact ⟨⟨segmenting.writer, (segmenting.reader.push segment).1⟩, _, rfl, count,
        emitted⟩
  | next =>
      by_cases inside : 7 * count < data.length
      · rcases emitted.emits inside with ⟨p, writer, emits, isSlice, emittedAfter⟩
        refine ⟨⟨writer, (segmenting.reader.push (segmentOf p)).1⟩,
          some (segmenting.reader.push (segmentOf p)).2, ?_, count + 1, emittedAfter⟩
        rw [step, emits, pure_bind]
        simp only [decodeDataSegment_eq, isSlice.fields.1, if_true, pure_bind]
      · refine ⟨⟨segmenting.writer, segmenting.reader⟩, none, ?_, count, emitted⟩
        rw [step, emitted.stops (not_lt.mp inside), pure_bind]

/-- Whatever misplaced segments come between those of the writer, the reader takes just
the latter, is done together with the writer, and holds the data then. -/
theorem misplaced_segments_harmless (nonempty : data ≠ []) (room : data.length ≤ N)
    (deliveries : List Delivery) :
    ∃ events final,
      Trace.run Segmenting.step (.start data : Segmenting N) deliveries = pure (events, final) ∧
      ((∀ event ∈ events, OnlyMisplaced event) →
        (∀ event ∈ events, Sorted event) ∧
        (final.reader.isDone = true ↔
          segmentCount data.length ≤ deliveries.count .next) ∧
        (final.reader.isDone = true → final.reader.data = data ∧
          ∀ segment, final.reader.push segment = (final.reader, .error .unexpectedCommand))) := by
  have fresh : ∃ count, HasEmitted data count (Segmenting.start data : Segmenting N).writer :=
    ⟨0, hasEmitted_new data⟩
  rcases Trace.run_total
    (fun segmenting : Segmenting N => ∃ count, HasEmitted data count segmenting.writer)
    deliveries fresh (by
      rintro segmenting delivery - ⟨count, emitted⟩
      exact Segmenting.step_returns emitted delivery) with ⟨events, final, ran, -⟩
  have whileMisplaced := Trace.run_while OnlyMisplaced
    (fun past segmenting => (∀ event ∈ past, Sorted event) ∧
      InStep data (emittedCount data (past.map Trace.Event.input)) segmenting)
    ⟨List.forall_mem_nil Sorted, inStep_start nonempty⟩ (by
      rintro past event ⟨sorted, inStep⟩ taken only
      rcases inStep.step room only taken with ⟨sortedEvent, inStepAfter⟩
      constructor
      · rw [List.forall_mem_append, List.forall_mem_singleton]
        exact ⟨sorted, sortedEvent⟩
      · rw [List.map_append, List.map_singleton, emittedCount_snoc nonempty]
        exact inStepAfter) ran
  refine ⟨events, final, ran, ?_⟩
  intro only
  rcases whileMisplaced.1 only with ⟨sorted, inStep⟩
  rw [Trace.run_inputs ran] at inStep
  have done : final.reader.isDone = true ↔
      segmentCount data.length ≤ deliveries.count .next := by
    have positive := List.length_pos_iff.mpr nonempty
    rw [SegmentReader.isDone, inStep.done, decide_eq_true_iff, emittedCount, segmentCount]
    omega
  refine ⟨sorted, done, ?_⟩
  intro isDone
  constructor
  · have all := isDone
    rw [SegmentReader.isDone, inStep.done, decide_eq_true_iff] at all
    rw [inStep.holds, List.take_of_length_le all]
  · intro segment
    have closed : final.reader.done = true := isDone
    rw [SegmentReader.push, if_pos closed]

/-- Two bytes in one segment, after one with the wrong toggle and one that is too long. -/
theorem misplaced_segments_harmless_two_bytes :
    ∃ events final, Trace.run Segmenting.step (.start [1, 2] : Segmenting 2)
        [.stray ⟨true, false, []⟩, .stray ⟨false, false, [1, 2, 3]⟩, .next] =
          pure (events, final) ∧
      ((∀ event ∈ events, OnlyMisplaced event) →
        (∀ event ∈ events, Sorted event) ∧
        (final.reader.isDone = true ↔ segmentCount [(1 : UInt8), 2].length ≤
          [.stray ⟨true, false, []⟩, .stray ⟨false, false, [1, 2, 3]⟩, Delivery.next].count
            .next) ∧
        (final.reader.isDone = true → final.reader.data = [1, 2] ∧
          ∀ segment, final.reader.push segment = (final.reader, .error .unexpectedCommand))) :=
  misplaced_segments_harmless (by decide) (by decide)
    [.stray ⟨true, false, []⟩, .stray ⟨false, false, [1, 2, 3]⟩, .next]

end

end CanOpen.Sdo
