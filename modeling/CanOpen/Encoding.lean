import CanOpen.Datatypes

/-! # Values and their encodings

Encoding and decoding are inverse to each other, but for the many encodings of a true boolean.
-/

namespace CanOpen

/-- The encoding of the value that a byte string stands for: the byte string itself, with a
boolean in its usual form. -/
def recoded (dataType : DataType) (bytes : List UInt8) : List UInt8 :=
  if dataType = .boolean then bytes.map fun byte => if byte = 0 then 0 else 1 else bytes

namespace Value

theorem encode_ofNat_decode {bytes : List UInt8} {width value : Nat}
    (length : bytes.length = width)
    (same : value = LittleEndian.decode bytes % 256 ^ width) :
    LittleEndian.encode width value = bytes := by
  subst length
  rw [same, Nat.mod_eq_of_lt (LittleEndian.decode_lt bytes), LittleEndian.encode_decode]

theorem bytes_ofBytes {dataType : DataType} {bytes : List UInt8}
    (accepts : dataType.Accepts bytes.length) :
    (ofBytes dataType bytes).bytes = recoded dataType bytes := by
  have single : bytes.length = 1 → bytes = [bytes.headD 0] := by
    intro length
    rcases List.length_eq_one_iff.mp length with ⟨byte, rfl⟩
    rfl
  cases dataType with
  | boolean =>
      rcases List.length_eq_one_iff.mp accepts with ⟨byte, rfl⟩
      by_cases zero : byte = 0
      · subst zero
        rfl
      · have true_ : (byte != 0) = true := bne_iff_ne.mpr zero
        simp only [ofBytes, Value.bytes, recoded, List.headD_cons, true_, zero, if_true, if_false,
          List.map_cons, List.map_nil]
        rfl
  | integer8 => simpa [ofBytes, Value.bytes, recoded] using (single accepts).symm
  | unsigned8 => exact (single accepts).symm
  | integer16 =>
      apply encode_ofNat_decode accepts
      simp
  | unsigned16 =>
      apply encode_ofNat_decode accepts
      simp
  | integer32 =>
      apply encode_ofNat_decode accepts
      simp
  | unsigned32 | real32 =>
      apply encode_ofNat_decode accepts
      simp
  | integer64 =>
      apply encode_ofNat_decode accepts
      simp
  | unsigned64 | real64 =>
      apply encode_ofNat_decode accepts
      simp
  | visibleString | octetString | domain => exact List.take_of_length_le accepts

/-- A value is encoded into every buffer with room for it, and decoded from there. A byte string
is decoded exactly if it has a length of the type, and encoded again to itself, with a boolean in
its usual form. -/
theorem codec_round_trips :
    (∀ (value : Value) (buf : List UInt8),
      (value.size ≤ buf.length → ∃ written,
        value.encodeLe buf = pure (.ok value.size, written) ∧
        written.length = buf.length ∧ written.drop value.size = buf.drop value.size ∧
        decodeLe value.dataType (written.take value.size) = pure (.ok value)) ∧
      (buf.length < value.size → ∃ error, value.encodeLe buf = pure (.error error, buf))) ∧
    ∀ (dataType : DataType) (bytes : List UInt8),
      ∃ result, decodeLe dataType bytes = pure result ∧
        ((∃ value, result = .ok value) ↔
          dataType.fixedSize = some bytes.length ∨
            dataType.fixedSize = none ∧ bytes.length ≤ 32) ∧
        ∀ value, result = .ok value → value.dataType = dataType ∧
          ∀ buf : List UInt8, bytes.length ≤ buf.length →
            value.encodeLe buf =
              pure (.ok bytes.length, recoded dataType bytes ++ buf.drop bytes.length) := by
  constructor
  · intro value buf
    have length := value.bytes_length
    constructor
    · intro room
      refine ⟨value.bytes ++ buf.drop value.size, ?_, ?_, ?_, ?_⟩
      · rw [encodeLe_eq, if_neg (Nat.not_lt.mpr room)]
      · rw [List.length_append, List.length_drop]
        omega
      · exact List.drop_left' length
      · rw [List.take_left' length, decodeLe_eq_ok_iff, length, ofBytes_bytes]
        exact ⟨value.accepts_size, rfl⟩
    · intro short
      exact ⟨.badLength, by rw [encodeLe_eq, if_pos short]⟩
  · intro dataType bytes
    have accepted : dataType.Accepts bytes.length ↔
        dataType.fixedSize = some bytes.length ∨
          dataType.fixedSize = none ∧ bytes.length ≤ 32 := by
      unfold DataType.Accepts
      cases dataType.fixedSize <;> simp [maxStringLen, eq_comm]
    refine ⟨_, decodeLe_eq dataType bytes, ?_, ?_⟩
    · rw [← accepted]
      split
      · next accepts => simp [accepts]
      · next refuses => simp [refuses]
    · intro value decoded
      split at decoded
      · next accepts =>
          cases decoded
          refine ⟨dataType_ofBytes dataType bytes, fun buf room => ?_⟩
          rw [encodeLe_eq, size_ofBytes accepts, if_neg (Nat.not_lt.mpr room),
            bytes_ofBytes accepts]
      · cases decoded

end Value

end CanOpen
