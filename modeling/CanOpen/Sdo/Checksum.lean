import CanOpen.Foundation.BinaryPolynomial
import CanOpen.Sdo.BlockWriting

/-! # The checksum as a remainder

The checksum of a block transfer is the remainder of a polynomial division, which detects
the errors of short bursts.
-/

namespace CanOpen.Sdo.Block

open Polynomial BinaryPolynomial

/-! ## The register -/

def crcTaps : BitVec 16 := 0x1021#16

def messageBits (data : List UInt8) : List Bool :=
  data.flatMap fun byte => wordBits byte.toBitVec

theorem divisor_crcTaps : divisor crcTaps = X ^ 16 + X ^ 12 + X ^ 5 + 1 := by
  have taps : wordBits crcTaps = [false, false, false, true, false, false, false, false,
      false, false, true, false, false, false, false, true] := by
    decide
  rw [divisor, ofWord, taps]
  simp only [ofBits, coefficient, List.foldl_cons, List.foldl_nil, Bool.false_eq_true, if_false,
    if_true, map_zero, map_one]
  ring

theorem crcBit_toBitVec (crc : UInt16) :
    (crcBit crc).toBitVec = shift crcTaps crc.toBitVec := by
  have top : crc &&& 0x8000 ≠ 0 ↔ crc.toBitVec.msb = true := by
    have mask : (crc &&& 0x8000).toBitVec = crc.toBitVec &&& BitVec.twoPow 16 15 := rfl
    rw [Ne, ← UInt16.toBitVec_inj, mask, BitVec.and_twoPow, BitVec.msb_eq_getLsbD_last]
    cases crc.toBitVec.getLsbD 15 <;> decide
  by_cases set : crc.toBitVec.msb = true
  · rw [crcBit, if_pos (top.mpr set), shift, if_pos set]
    rfl
  · rw [crcBit, if_neg (mt top.mp set), shift, if_neg set]
    rfl

theorem repeat_crcBit_toBitVec (steps : Nat) (crc : UInt16) :
    (Nat.repeat crcBit steps crc).toBitVec = Nat.repeat (shift crcTaps) steps crc.toBitVec := by
  induction steps with
  | zero => rfl
  | succ steps induction => rw [Nat.repeat, crcBit_toBitVec, induction, Nat.repeat]

theorem mk_crcByte (crc : UInt16) (byte : UInt8) :
    AdjoinRoot.mk (divisor crcTaps) (ofWord (crcByte crc byte).toBitVec) =
      AdjoinRoot.mk (divisor crcTaps)
        (ofWord crc.toBitVec * X ^ 8 + ofWord byte.toBitVec * X ^ 16) := by
  have entered : (crc ^^^ (byte.toUInt16 <<< 8)).toBitVec =
      crc.toBitVec ^^^ (byte.toBitVec.setWidth 16 <<< 8) := rfl
  rw [crcByte, repeat_crcBit_toBitVec, mk_repeat_shift, entered, ofWord_xor,
    ofWord_placed byte.toBitVec (by decide), ← AdjoinRoot.mk_X, ← map_pow, ← map_mul]
  apply congrArg (AdjoinRoot.mk (divisor crcTaps))
  ring

theorem mk_crc16 (data : List UInt8) :
    AdjoinRoot.mk (divisor crcTaps) (ofWord (crc16 data).toBitVec) =
      AdjoinRoot.mk (divisor crcTaps) (ofBits (messageBits data) * X ^ 16) := by
  induction data using List.reverseRecOn with
  | nil =>
      have zero : wordBits (crc16 []).toBitVec = List.replicate 16 false := by decide
      rw [ofWord, zero]
      simp [ofBits, coefficient, messageBits]
  | append_singleton data byte induction =>
      have last : messageBits (data ++ [byte]) =
          messageBits data ++ wordBits byte.toBitVec := by
        simp [messageBits]
      have eight : (wordBits byte.toBitVec).length = 8 := by simp [wordBits]
      have next : crc16 (data ++ [byte]) = crcByte (crc16 data) byte := by
        rw [crc16, List.foldl_append]
        rfl
      rw [next, mk_crcByte, map_add, map_mul, induction, ← map_mul, ← map_add, last,
        ofBits_append, eight, ← ofWord]
      apply congrArg (AdjoinRoot.mk (divisor crcTaps))
      ring

/-- The checksum is the remainder of the message, moved up by the degree of the divisor. -/
theorem crc16_eq_remainder (data : List UInt8) :
    ofWord (crc16 data).toBitVec =
      (ofBits (messageBits data) * X ^ 16) %ₘ (X ^ 16 + X ^ 12 + X ^ 5 + 1) := by
  rw [← divisor_crcTaps]
  exact ofWord_eq_modByMonic (mk_crc16 data)

/-! ## Bursts -/

/-- Segments that arrive complete and in order, but with other data. -/
structure Corrupted (data corrupted : List UInt8) (frames received : List SdoPayload) :
    Prop where
  complete : received.map (·.get 0) = frames.map (·.get 0)
  bytes : (carried received).take data.length = corrupted

section

variable {data corrupted : List UInt8} {frames received : List SdoPayload}

theorem length_messageBits (data : List UInt8) :
    (messageBits data).length = 8 * data.length := by
  have byte : ∀ byte : UInt8, (wordBits byte.toBitVec).length = 8 := by
    intro byte
    simp [wordBits]
  simp [messageBits, List.length_flatMap, byte, Nat.mul_comm]

theorem messageBits_inj (sameLength : data.length = corrupted.length)
    (same : messageBits data = messageBits corrupted) : data = corrupted := by
  induction data generalizing corrupted with
  | nil => exact (List.length_eq_zero_iff.mp sameLength.symm).symm
  | cons byte rest induction =>
      cases corrupted with
      | nil => cases sameLength
      | cons other others =>
          rw [messageBits, List.flatMap_cons, messageBits, List.flatMap_cons] at same
          rcases List.append_inj same (by simp [wordBits]) with ⟨sameByte, sameRest⟩
          have bytes : byte = other := by
            rw [← UInt8.toBitVec_inj, ← ofWord_inj, ofWord, ofWord, sameByte]
          rw [bytes, induction (Nat.succ.inj sameLength) sameRest]

theorem crc16_ne_of_burst (sameLength : data.length = corrupted.length)
    (differs : data ≠ corrupted) (burst : Burst 16 (messageBits data) (messageBits corrupted)) :
    crc16 data ≠ crc16 corrupted := by
  intro collides
  apply differs
  apply messageBits_inj sameLength
  have sameBits : (messageBits data).length = (messageBits corrupted).length := by
    rw [length_messageBits, length_messageBits, sameLength]
  apply eq_of_burst (by decide : crcTaps.getLsbD 0 = true) sameBits burst 16
  rw [← ofWord_eq_modByMonic (mk_crc16 data), ← ofWord_eq_modByMonic (mk_crc16 corrupted),
    collides]

theorem MarksEnd.of_complete (marks : MarksEnd frames)
    (complete : received.map (·.get 0) = frames.map (·.get 0)) : MarksEnd received := by
  have bySpecifier : ∀ segments : List SdoPayload, MarksEnd segments ↔
      (segments.map (·.get 0)).Pairwise fun earlier _ =>
        decide (earlier &&& lastSegment ≠ 0) = false := by
    intro segments
    rw [List.pairwise_map]
    rfl
  rw [bySpecifier, complete, ← bySpecifier]
  exact marks

/-- A burst in the data has another checksum, and the receiver reports it at the end. -/
theorem burst_detected (sameLength : data.length = corrupted.length)
    (differs : data ≠ corrupted) (burst : Burst 16 (messageBits data) (messageBits corrupted)) :
    crc16 data ≠ crc16 corrupted ∧
      ∀ first calls events final,
        Trace.run BlockWriter.call (.new data first) calls = pure (events, final) →
        final.isDone = true → ∀ received, Corrupted data corrupted (returned events) received →
        ∀ N, 7 * received.length ≤ N → ∃ receiver frame unused after,
          (BlockReceiver.new : BlockReceiver N).pushAll received = .ok receiver ∧
          final.endFrame true = pure frame ∧ decodeEnd frame = .ok (unused, crc16 data) ∧
          receiver.finish unused (crc16 data) true = pure (after, .error .crcMismatch) := by
  have collision := crc16_ne_of_burst sameLength differs burst
  refine ⟨collision, ?_⟩
  intro first calls events final ran done received changed N room
  have written := (run_written ran).1
  have nonempty : data ≠ [] := by
    rintro rfl
    exact differs (List.length_eq_zero_iff.mp sameLength.symm).symm
  have count : received.length = segmentTotal data := by
    have all := written.isDone_iff.mp done
    have few := written.segments.few
    have lengths := congrArg List.length changed.complete
    rw [List.length_map, List.length_map] at lengths
    rw [lengths]
    rw [segmentTotal] at few ⊢
    omega
  rcases BlockReceiver.new_pushAll_returns
    (written.segments.marksEnd.of_complete changed.complete) room with
    ⟨receiver, pushed, content, -⟩
  have sameData := written.sameData
  subst sameData
  rcases endFrame_eq nonempty with ⟨frame, unused, encoded, decoded, trim⟩
  rcases receiver.finish_eq unused (crc16 final.data) with ⟨after, finished⟩
  refine ⟨receiver, frame, unused, after, pushed, encoded, decoded, ?_⟩
  have length : (carried received).length = 7 * segmentTotal final.data := by
    rw [length_carried, count]
  have whole := length_le_segmentTotal final.data
  have kept : (carried received).take ((carried received).length - unused.toNat) =
      corrupted := by
    rw [← changed.bytes, length, trim]
    congr 1
    omega
  have enough : ¬ (carried received).length < unused.toNat := by
    rw [length, trim]
    omega
  rw [finished, content, kept, if_neg enough]
  simp only [if_neg collision.symm]

/-- The last bit of the fourth byte and the first of the sixth are turned over, in the first of two
segments. -/
theorem burst_detected_across_bytes :
    let data : List UInt8 := [1, 2, 3, 4, 5, 6, 7, 8, 9]
    let corrupted : List UInt8 := [1, 2, 3, 5, 5, 0x86, 7, 8, 9]
    crc16 data ≠ crc16 corrupted ∧ ∃ receiver frame unused after,
      (BlockReceiver.new : BlockReceiver 14).pushAll
          [#v[0x01, 1, 2, 3, 5, 5, 0x86, 7], #v[0x82, 8, 9, 0, 0, 0, 0, 0]] = .ok receiver ∧
      (BlockWriter.mk data 9 3 127).endFrame true = pure frame ∧
      decodeEnd frame = .ok (unused, crc16 data) ∧
      receiver.finish unused (crc16 data) true = pure (after, .error .crcMismatch) := by
  intro data corrupted
  have burst : Burst 16 (messageBits data) (messageBits corrupted) := by
    have within : ∀ position < 72, (messageBits data)[position]? ≠
        (messageBits corrupted)[position]? → 31 ≤ position ∧ position < 31 + 16 := by
      decide
    refine ⟨31, fun position differs => within position ?_ differs⟩
    by_contra beyond
    apply differs
    rw [List.getElem?_eq_none (not_lt.mp beyond), List.getElem?_eq_none (not_lt.mp beyond)]
  have first : BlockWriter.call (.new data 127) .nextSegment =
      pure (⟨data, 7, 2, 127⟩, some #v[0x01, 1, 2, 3, 4, 5, 6, 7]) := by
    rfl
  have second : BlockWriter.call ⟨data, 7, 2, 127⟩ .nextSegment =
      pure (⟨data, 9, 3, 127⟩, some #v[0x82, 8, 9, 0, 0, 0, 0, 0]) := by
    decide
  have ended : Trace.run BlockWriter.call ⟨data, 9, 3, 127⟩ [] =
      pure ([], ⟨data, 9, 3, 127⟩) := by
    rfl
  have ran := Trace.run_cons_eq_pure_iff.mpr
    ⟨_, _, _, first, Trace.run_cons_eq_pure_iff.mpr ⟨_, _, _, second, ended, rfl⟩, rfl⟩
  rcases burst_detected (show data.length = corrupted.length from rfl) (by decide) burst with
    ⟨collision, detected⟩
  exact ⟨collision, detected 127 _ _ _ ran (by rfl) _ ⟨by rfl, by rfl⟩ 14 (by decide)⟩

end

end CanOpen.Sdo.Block
