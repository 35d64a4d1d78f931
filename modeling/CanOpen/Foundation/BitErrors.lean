import CanOpen.Foundation.BinaryPolynomial
import Mathlib.GroupTheory.OrderOfElement

/-! # Errors of few bits

Which errors of a message a shift register detects, wherever their bits are: the parity of their
number, and the distance of two of them.
-/

namespace CanOpen.BinaryPolynomial

open Polynomial

/-! ## Error patterns -/

def errors (sent received : List Bool) : List Bool := List.zipWith xor sent received

section

variable {sent received : List Bool}

theorem length_errors (sameLength : sent.length = received.length) :
    (errors sent received).length = sent.length := by
  rw [errors, List.length_zipWith, ← sameLength, Nat.min_self]

theorem getElem?_errors (sameLength : sent.length = received.length) (position : Nat) :
    (errors sent received)[position]?.getD false = true ↔
      sent[position]? ≠ received[position]? := by
  rw [errors, List.getElem?_zipWith]
  by_cases inside : position < sent.length
  · rw [List.getElem?_eq_getElem inside, List.getElem?_eq_getElem (sameLength ▸ inside)]
    simp
  · rw [List.getElem?_eq_none (not_lt.mp inside),
      List.getElem?_eq_none (sameLength ▸ not_lt.mp inside)]
    simp

theorem ofBits_errors (sameLength : sent.length = received.length) :
    ofBits (errors sent received) = ofBits sent - ofBits received := by
  ext power
  rw [CharTwo.sub_eq_add, coeff_add, coeff_ofBits, coeff_ofBits, coeff_ofBits,
    ← coefficient_xor, errors, List.reverse_zipWith sameLength, List.getElem?_zipWith]
  congr 1
  by_cases inside : power < sent.length
  · rw [List.getElem?_eq_getElem (by simpa using inside),
      List.getElem?_eq_getElem (by simpa [← sameLength] using inside)]
    rfl
  · rw [List.getElem?_eq_none (by simpa using inside),
      List.getElem?_eq_none (by simpa [← sameLength] using inside)]
    rfl

end

theorem eval_one_ofBits (bits : List Bool) : (ofBits bits).eval 1 = (bits.count true : ZMod 2) := by
  induction bits using List.reverseRecOn with
  | nil => simp [ofBits]
  | append_singleton bits bit induction =>
      rw [ofBits_snoc, eval_add, eval_mul, eval_X, mul_one, eval_C, induction, List.count_append]
      cases bit <;> simp [coefficient]

theorem ofBits_pair {bits : List Bool} {first second : Nat} (order : first < second)
    (inside : second < bits.length)
    (only : ∀ position,
      bits[position]?.getD false = decide (position = first ∨ position = second)) :
    ofBits bits = X ^ (bits.length - 1 - second) * (X ^ (second - first) + 1) := by
  ext power
  rw [mul_add, ← pow_add, mul_one, coeff_add, coeff_X_pow, coeff_X_pow, coeff_ofBits]
  by_cases within : power < bits.length
  · rw [List.getElem?_reverse within, only]
    have isFirst : bits.length - 1 - power = first ↔
        power = bits.length - 1 - second + (second - first) := by omega
    have isSecond : bits.length - 1 - power = second ↔ power = bits.length - 1 - second := by
      omega
    have apart : ¬ (power = bits.length - 1 - second + (second - first) ∧
        power = bits.length - 1 - second) := by omega
    simp only [isFirst, isSecond, coefficient, decide_eq_true_eq]
    by_cases low : power = bits.length - 1 - second
    · have notHigh := fun high => apart ⟨high, low⟩
      rw [if_pos (.inr low), if_neg notHigh, if_pos low, zero_add]
    · by_cases high : power = bits.length - 1 - second + (second - first)
      · rw [if_pos (.inl high), if_pos high, if_neg low, add_zero]
      · rw [if_neg (by simp [low, high]), if_neg high, if_neg low, add_zero]
  · rw [List.getElem?_eq_none (by simpa using within), if_neg (by omega), if_neg (by omega),
      add_zero]
    rfl

theorem exists_of_count_one {bits : List Bool} (one : bits.count true = 1) :
    ∃ first < bits.length,
      ∀ position, bits[position]?.getD false = decide (position = first) := by
  induction bits with
  | nil => cases one
  | cons bit bits induction =>
      cases bit with
      | true =>
          rw [List.count_cons_self, Nat.add_eq_right, List.count_eq_zero] at one
          refine ⟨0, Nat.zero_lt_succ _, fun position => ?_⟩
          cases position with
          | zero => rfl
          | succ position =>
              rw [List.getElem?_cons_succ, decide_eq_false (Nat.succ_ne_zero position)]
              cases found : bits[position]? with
              | none => rfl
              | some bit =>
                  cases bit with
                  | false => rfl
                  | true => exact absurd (List.mem_of_getElem? found) one
      | false =>
          rw [List.count_cons_of_ne (by decide)] at one
          rcases induction one with ⟨first, inside, only⟩
          refine ⟨first + 1, Nat.succ_lt_succ inside, fun position => ?_⟩
          cases position with
          | zero => simp
          | succ position => simpa using only position

theorem exists_of_count_two {bits : List Bool} (two : bits.count true = 2) :
    ∃ first second, first < second ∧ second < bits.length ∧
      ∀ position,
        bits[position]?.getD false = decide (position = first ∨ position = second) := by
  induction bits with
  | nil => cases two
  | cons bit bits induction =>
      cases bit with
      | true =>
          rw [List.count_cons_self, Nat.add_right_cancel_iff] at two
          rcases exists_of_count_one two with ⟨second, inside, only⟩
          refine ⟨0, second + 1, Nat.zero_lt_succ _, Nat.succ_lt_succ inside, fun position => ?_⟩
          cases position with
          | zero => simp
          | succ position => simpa using only position
      | false =>
          rw [List.count_cons_of_ne (by decide)] at two
          rcases induction two with ⟨first, second, order, inside, only⟩
          refine ⟨first + 1, second + 1, Nat.succ_lt_succ order, Nat.succ_lt_succ inside,
            fun position => ?_⟩
          cases position with
          | zero => simp
          | succ position => simpa using only position

/-! ## Powers of the indeterminate -/

section

variable {width : Nat} {taps : BitVec width}

theorem mk_ofWord_inj {left right : BitVec width} :
    AdjoinRoot.mk (divisor taps) (ofWord left) = AdjoinRoot.mk (divisor taps) (ofWord right) ↔
      left = right := by
  constructor
  · intro same
    rw [← ofWord_inj, ofWord_eq_modByMonic same]
    exact ((modByMonic_eq_self_iff (divisor_monic taps)).mpr
      (by rw [degree_divisor]; exact degree_ofWord_lt right))
  · rintro rfl
    rfl

def bitWord (width : Nat) (bit : Bool) : BitVec width := if bit then 1 else 0

theorem ofWord_bitWord (positive : 0 < width) (bit : Bool) :
    ofWord (bitWord width bit) = C (coefficient bit) := by
  ext power
  rw [coeff_ofWord, coeff_C, bitWord]
  cases bit with
  | false => simp [coefficient]
  | true =>
      have one : (1 : BitVec width).getLsbD power = decide (power = 0) := by
        rw [BitVec.ofNat_eq_ofNat, BitVec.getLsbD_one]
        simp [positive]
      rw [if_pos rfl, one]
      by_cases low : power = 0 <;> simp [low, coefficient]

/-- Multiply a word by itself: each of its bits enters two places behind the one before. -/
def square (taps register : BitVec width) : BitVec width :=
  (wordBits register).foldl
    (fun result bit => shift taps (shift taps result) ^^^ bitWord width bit) 0

theorem mk_square (positive : 0 < width) (register : BitVec width) :
    AdjoinRoot.mk (divisor taps) (ofWord (square taps register)) =
      AdjoinRoot.mk (divisor taps) (ofWord register) ^ 2 := by
  have general : ∀ bits : List Bool, AdjoinRoot.mk (divisor taps) (ofWord (bits.foldl
      (fun result bit => shift taps (shift taps result) ^^^ bitWord width bit) 0)) =
      AdjoinRoot.mk (divisor taps) (ofBits bits) ^ 2 := by
    intro bits
    induction bits using List.reverseRecOn with
    | nil =>
        have zero : ofWord (0 : BitVec width) = 0 := by
          ext power
          rw [coeff_ofWord]
          simp [coefficient]
        rw [List.foldl_nil, zero]
        simp [ofBits]
    | append_singleton bits bit induction =>
        have entered : C (coefficient bit) ^ 2 = C (coefficient bit) := by
          cases bit <;> simp [coefficient]
        have squared : ofBits (bits ++ [bit]) ^ 2 =
            ofBits bits ^ 2 * X ^ 2 + C (coefficient bit) := by
          rw [ofBits_snoc, CharTwo.add_sq, mul_pow, entered]
        rw [List.foldl_append, List.foldl_cons, List.foldl_nil, ofWord_xor, map_add, mk_shift,
          mk_shift, induction, ofWord_bitWord positive, ← map_pow, ← map_pow, squared, map_add,
          map_mul, map_pow _ X, AdjoinRoot.mk_X]
        ring
  exact general (wordBits register)

def powerOf (taps : BitVec width) (digits : List Bool) : BitVec width :=
  digits.foldl
    (fun power digit => if digit then shift taps (square taps power) else square taps power)
    (bitWord width true)

def exponent (digits : List Bool) : Nat :=
  digits.foldl (fun number digit => 2 * number + digit.toNat) 0

theorem mk_powerOf (positive : 0 < width) (digits : List Bool) :
    AdjoinRoot.mk (divisor taps) (ofWord (powerOf taps digits)) =
      AdjoinRoot.root (divisor taps) ^ exponent digits := by
  induction digits using List.reverseRecOn with
  | nil =>
      rw [powerOf, List.foldl_nil, ofWord_bitWord positive]
      simp [coefficient, exponent]
  | append_singleton digits digit induction =>
      have next : exponent (digits ++ [digit]) = 2 * exponent digits + digit.toNat := by
        rw [exponent, List.foldl_append]
        rfl
      have last : powerOf taps (digits ++ [digit]) =
          if digit then shift taps (square taps (powerOf taps digits))
          else square taps (powerOf taps digits) := by
        rw [powerOf, List.foldl_append]
        rfl
      rw [next, last, pow_add, pow_mul', ← induction]
      cases digit with
      | false =>
          rw [if_neg Bool.false_ne_true, mk_square positive]
          simp
      | true =>
          rw [if_pos rfl, mk_shift, mk_square positive, Bool.toNat_true, pow_one]
          ring

theorem root_pow_eq_one_iff (positive : 0 < width) (digits : List Bool) :
    AdjoinRoot.root (divisor taps) ^ exponent digits = 1 ↔
      powerOf taps digits = bitWord width true := by
  have remainder := @mk_ofWord_inj width taps (powerOf taps digits) (bitWord width true)
  rw [← remainder, ← mk_powerOf positive, ofWord_bitWord positive]
  simp [coefficient]

/-! ## What is detected -/

theorem mk_errors_eq_zero_iff (periodic : 0 < orderOf (AdjoinRoot.root (divisor taps)))
    {sent received : List Bool} (sameLength : sent.length = received.length) (power : Nat) :
    AdjoinRoot.mk (divisor taps) (ofBits sent * X ^ power) =
        AdjoinRoot.mk (divisor taps) (ofBits received * X ^ power) ↔
      AdjoinRoot.mk (divisor taps) (ofBits (errors sent received)) = 0 := by
  have unit : IsUnit (AdjoinRoot.root (divisor taps) ^ power) :=
    (orderOf_pos_iff.mp periodic).isUnit.pow power
  rw [← sub_eq_zero, ← map_sub, ← sub_mul, ← ofBits_errors sameLength, map_mul, map_pow,
    AdjoinRoot.mk_X, unit.mul_left_eq_zero]

theorem even_of_undetected (evenTerms : (divisor taps).eval 1 = 0) {bits : List Bool}
    (undetected : AdjoinRoot.mk (divisor taps) (ofBits bits) = 0) : Even (bits.count true) := by
  rcases AdjoinRoot.mk_eq_zero.mp undetected with ⟨quotient, product⟩
  have parity : ((bits.count true : Nat) : ZMod 2) = 0 := by
    rw [← eval_one_ofBits, product, eval_mul, evenTerms, zero_mul]
  exact (ZMod.natCast_eq_zero_iff_even).mp parity

theorem pair_undetected_iff (periodic : 0 < orderOf (AdjoinRoot.root (divisor taps)))
    {bits : List Bool} {first second : Nat} (order : first < second)
    (inside : second < bits.length)
    (only : ∀ position,
      bits[position]?.getD false = decide (position = first ∨ position = second)) :
    AdjoinRoot.mk (divisor taps) (ofBits bits) = 0 ↔
      orderOf (AdjoinRoot.root (divisor taps)) ∣ second - first := by
  have unit : IsUnit (AdjoinRoot.root (divisor taps) ^ (bits.length - 1 - second)) :=
    (orderOf_pos_iff.mp periodic).isUnit.pow _
  rw [ofBits_pair order inside only, ← CharTwo.sub_eq_add, map_mul, map_pow, map_sub, map_pow,
    map_one, AdjoinRoot.mk_X, unit.mul_right_eq_zero, orderOf_dvd_iff_pow_eq_one, sub_eq_zero]

end

end CanOpen.BinaryPolynomial
