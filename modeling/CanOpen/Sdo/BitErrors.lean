import CanOpen.Foundation.BitErrors
import CanOpen.Sdo.Checksum
import Mathlib.Tactic.NormNum.Prime

/-! # Errors of few bits in a block transfer

The checksum of a block transfer has an even number of terms, and the order of its indeterminate
is 32767. Up to three bits of a transfer of fewer than 4096 bytes are never turned over unseen.
-/

namespace CanOpen.Sdo.Block

open Polynomial BinaryPolynomial

/-! ## The order of the indeterminate -/

noncomputable abbrev crcRoot : AdjoinRoot (divisor crcTaps) := AdjoinRoot.root (divisor crcTaps)

theorem crcRoot_pow_eq_one_iff (power : BitVec 16) :
    crcRoot ^ exponent (wordBits power) = 1 ↔
      powerOf crcTaps (wordBits power) = bitWord 16 true :=
  root_pow_eq_one_iff (by decide) (wordBits power)

theorem prime_of_dvd_32767 {p : Nat} (prime : p.Prime) (divides : p ∣ 32767) :
    p = 7 ∨ p = 31 ∨ p = 151 := by
  have factors : 32767 = 7 * 31 * 151 := by norm_num
  rw [factors, prime.dvd_mul, prime.dvd_mul, Nat.prime_dvd_prime_iff_eq prime (by norm_num),
    Nat.prime_dvd_prime_iff_eq prime (by norm_num),
    Nat.prime_dvd_prime_iff_eq prime (by norm_num), or_assoc] at divides
  exact divides

theorem orderOf_crcRoot : orderOf crcRoot = 32767 := by
  apply orderOf_eq_of_pow_and_pow_div_prime (by norm_num)
  · have power : exponent (wordBits 32767#16) = 32767 := by decide
    rw [← power, crcRoot_pow_eq_one_iff]
    decide +kernel
  · intro p prime divides
    rcases prime_of_dvd_32767 prime divides with rfl | rfl | rfl
    · have power : exponent (wordBits 4681#16) = 32767 / 7 := by decide
      rw [← power, Ne, crcRoot_pow_eq_one_iff]
      decide +kernel
    · have power : exponent (wordBits 1057#16) = 32767 / 31 := by decide
      rw [← power, Ne, crcRoot_pow_eq_one_iff]
      decide +kernel
    · have power : exponent (wordBits 217#16) = 32767 / 151 := by decide
      rw [← power, Ne, crcRoot_pow_eq_one_iff]
      decide +kernel

theorem eval_one_divisor : (divisor crcTaps).eval 1 = 0 := by
  rw [divisor_crcTaps]
  simp only [eval_add, eval_pow, eval_X, one_pow, eval_one]
  decide

/-! ## The errors of a transfer -/

def bitErrors (data corrupted : List UInt8) : List Bool :=
  errors (messageBits data) (messageBits corrupted)

section

variable {data corrupted : List UInt8}

theorem length_bitErrors (sameLength : data.length = corrupted.length) :
    (bitErrors data corrupted).length = 8 * data.length := by
  rw [bitErrors, length_errors, length_messageBits]
  rw [length_messageBits, length_messageBits, sameLength]

theorem crc16_eq_iff (sameLength : data.length = corrupted.length) :
    crc16 data = crc16 corrupted ↔
      AdjoinRoot.mk (divisor crcTaps) (ofBits (bitErrors data corrupted)) = 0 := by
  have sameBits : (messageBits data).length = (messageBits corrupted).length := by
    rw [length_messageBits, length_messageBits, sameLength]
  have periodic : 0 < orderOf crcRoot := by
    rw [orderOf_crcRoot]
    norm_num
  rw [bitErrors, ← mk_errors_eq_zero_iff periodic sameBits 16, ← mk_crc16, ← mk_crc16,
    mk_ofWord_inj, UInt16.toBitVec_inj]

theorem crc16_ne_of_odd (sameLength : data.length = corrupted.length)
    (odd : Odd ((bitErrors data corrupted).count true)) : crc16 data ≠ crc16 corrupted := by
  intro collides
  have even := even_of_undetected eval_one_divisor ((crc16_eq_iff sameLength).mp collides)
  exact (Nat.not_odd_iff_even.mpr even) odd

theorem crc16_eq_iff_of_pair (sameLength : data.length = corrupted.length) {first second : Nat}
    (order : first < second) (inside : second < 8 * data.length)
    (only : ∀ position, (bitErrors data corrupted)[position]?.getD false =
      decide (position = first ∨ position = second)) :
    crc16 data = crc16 corrupted ↔ 32767 ∣ second - first := by
  have periodic : 0 < orderOf crcRoot := by
    rw [orderOf_crcRoot]
    norm_num
  rw [← length_bitErrors sameLength] at inside
  rw [crc16_eq_iff sameLength, pair_undetected_iff periodic order inside only, orderOf_crcRoot]

theorem crc16_ne_of_few (sameLength : data.length = corrupted.length)
    (short : data.length < 4096) (some : 1 ≤ (bitErrors data corrupted).count true)
    (few : (bitErrors data corrupted).count true ≤ 3) : crc16 data ≠ crc16 corrupted := by
  by_cases two : (bitErrors data corrupted).count true = 2
  · rcases exists_of_count_two two with ⟨first, second, order, inside, only⟩
    rw [length_bitErrors sameLength] at inside
    rw [Ne, crc16_eq_iff_of_pair sameLength order inside only]
    intro multiple
    have least := Nat.le_of_dvd (by omega) multiple
    omega
  · apply crc16_ne_of_odd sameLength
    rw [Nat.odd_iff]
    omega

end

theorem BlockReceiver.finish_corrupted {corrupted rest : List UInt8} {N : Nat}
    {receiver : BlockReceiver N} {unused : UInt8}
    (holds : receiver.buf.toList = corrupted ++ rest) (trim : unused.toNat = rest.length)
    (crc : UInt16) :
    ∃ after, receiver.finish unused crc true = pure (after,
      if crc16 corrupted = crc then .ok corrupted else .error .crcMismatch) := by
  rcases receiver.finish_eq unused crc with ⟨after, finished⟩
  refine ⟨after, ?_⟩
  have length : (corrupted ++ rest).length - unused.toNat = corrupted.length := by
    rw [List.length_append, trim, Nat.add_sub_cancel]
  have enough : ¬ (corrupted ++ rest).length < unused.toNat := by
    rw [List.length_append, trim]
    omega
  rw [finished, holds, length, List.take_left, if_neg enough]

/-- A receiver that has put together other bytes than were sent reports it if an odd number of
bits is wrong, and two wrong bits unless their distance is a multiple of 32767; so in fewer than
4096 bytes it reports one, two and three wrong bits. -/
theorem few_bit_errors_detected {data corrupted rest : List UInt8}
    (sameLength : data.length = corrupted.length) {N : Nat} (receiver : BlockReceiver N)
    {unused : UInt8} (holds : receiver.buf.toList = corrupted ++ rest)
    (trim : unused.toNat = rest.length) :
    ∃ after, (Odd ((bitErrors data corrupted).count true) →
        receiver.finish unused (crc16 data) true = pure (after, .error .crcMismatch)) ∧
      (∀ first second, first < second →
        (∀ position, (messageBits data)[position]? ≠ (messageBits corrupted)[position]? ↔
          position = first ∨ position = second) →
        receiver.finish unused (crc16 data) true = pure (after,
          if 32767 ∣ second - first then .ok corrupted else .error .crcMismatch)) ∧
      (data.length < 4096 → 1 ≤ (bitErrors data corrupted).count true →
        (bitErrors data corrupted).count true ≤ 3 →
        receiver.finish unused (crc16 data) true = pure (after, .error .crcMismatch)) := by
  rcases BlockReceiver.finish_corrupted holds trim (crc16 data) with ⟨after, finished⟩
  refine ⟨after, fun odd => ?_, fun first second order only => ?_, fun short some few => ?_⟩
  · rw [finished, if_neg (crc16_ne_of_odd sameLength odd).symm]
  · have sameBits : (messageBits data).length = (messageBits corrupted).length := by
      rw [length_messageBits, length_messageBits, sameLength]
    have inside : second < 8 * data.length := by
      by_contra beyond
      rw [not_lt, ← length_messageBits] at beyond
      refine (only second).mpr (.inr rfl) ?_
      rw [List.getElem?_eq_none beyond, List.getElem?_eq_none (sameBits ▸ beyond)]
    have pattern : ∀ position, (bitErrors data corrupted)[position]?.getD false =
        decide (position = first ∨ position = second) := by
      intro position
      rw [Bool.eq_iff_iff, decide_eq_true_iff, bitErrors, getElem?_errors sameBits, only]
    have agree : crc16 corrupted = crc16 data ↔ 32767 ∣ second - first :=
      eq_comm.trans (crc16_eq_iff_of_pair sameLength order inside pattern)
    rw [finished]
    by_cases multiple : 32767 ∣ second - first
    · rw [if_pos (agree.mpr multiple), if_pos multiple]
    · rw [if_neg (mt agree.mp multiple), if_neg multiple]
  · rw [finished, if_neg (crc16_ne_of_few sameLength short some few).symm]

/-- The outermost bits of seven bytes are turned over. -/
theorem few_bit_errors_detected_seven_bytes : ∃ after,
    (BlockReceiver.mk ⟨[0x81, 2, 3, 4, 5, 6, 6], by decide⟩ true : BlockReceiver 7).finish 0
      (crc16 [1, 2, 3, 4, 5, 6, 7]) true = pure (after, .error .crcMismatch) := by
  rcases few_bit_errors_detected (show ([1, 2, 3, 4, 5, 6, 7] : List UInt8).length =
      ([0x81, 2, 3, 4, 5, 6, 6] : List UInt8).length from rfl)
    (BlockReceiver.mk ⟨[0x81, 2, 3, 4, 5, 6, 6], by decide⟩ true : BlockReceiver 7)
    (show _ = [0x81, 2, 3, 4, 5, 6, 6] ++ [] from rfl) (show (0 : UInt8).toNat = 0 from rfl) with
    ⟨after, -, -, few⟩
  exact ⟨after, few (by decide) (by decide) (by decide)⟩

end CanOpen.Sdo.Block
