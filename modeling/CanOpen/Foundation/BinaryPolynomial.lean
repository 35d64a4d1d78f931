import Mathlib.Algebra.CharP.Two
import Mathlib.Algebra.Field.ZMod
import Mathlib.RingTheory.AdjoinRoot
import Mathlib.RingTheory.Polynomial.Basic

/-! # Polynomials over the field of two elements

Bits and words as polynomials, the shift register that divides them by a fixed one, and
the errors that such a division detects.
-/

namespace CanOpen.BinaryPolynomial

open Polynomial

/-! ## Bits -/

def coefficient (bit : Bool) : ZMod 2 := if bit then 1 else 0

theorem coefficient_inj {left right : Bool} :
    coefficient left = coefficient right ↔ left = right := by
  cases left <;> cases right <;> decide

theorem coefficient_xor (left right : Bool) :
    coefficient (left ^^ right) = coefficient left + coefficient right := by
  cases left <;> cases right <;> decide

noncomputable def ofBits (bits : List Bool) : (ZMod 2)[X] :=
  bits.foldl (fun poly bit => poly * X + C (coefficient bit)) 0

theorem ofBits_snoc (bits : List Bool) (bit : Bool) :
    ofBits (bits ++ [bit]) = ofBits bits * X + C (coefficient bit) := by
  rw [ofBits, List.foldl_append]
  rfl

theorem ofBits_append (front back : List Bool) :
    ofBits (front ++ back) = ofBits front * X ^ back.length + ofBits back := by
  induction back using List.reverseRecOn with
  | nil => simp [ofBits]
  | append_singleton back bit induction =>
      rw [← List.append_assoc, ofBits_snoc, ofBits_snoc, induction, List.length_append,
        List.length_singleton, pow_succ]
      ring

theorem coeff_ofBits (bits : List Bool) (power : Nat) :
    (ofBits bits).coeff power = coefficient (bits.reverse[power]?.getD false) := by
  induction bits using List.reverseRecOn generalizing power with
  | nil => simp [ofBits, coefficient]
  | append_singleton bits bit induction =>
      rw [ofBits_snoc, List.reverse_append]
      cases power with
      | zero => simp
      | succ power => simp [induction]

/-! ## Words -/

def wordBits {width : Nat} (word : BitVec width) : List Bool :=
  (List.range width).map word.getMsbD

noncomputable def ofWord {width : Nat} (word : BitVec width) : (ZMod 2)[X] :=
  ofBits (wordBits word)

section

variable {width : Nat} {left right : BitVec width}

theorem coeff_ofWord (word : BitVec width) (power : Nat) :
    (ofWord word).coeff power = coefficient (word.getLsbD power) := by
  rw [ofWord, coeff_ofBits]
  congr 1
  by_cases inside : power < width
  · have within : power < (wordBits word).length := by simpa [wordBits] using inside
    rw [List.getElem?_reverse within]
    have position : width - 1 - power < width := by omega
    have back : width - 1 - (width - 1 - power) = power := by omega
    simp [wordBits, position, BitVec.getMsbD_eq_getLsbD, back]
  · rw [List.getElem?_eq_none (by simpa [wordBits] using inside),
      BitVec.getLsbD_of_ge word power (not_lt.mp inside)]
    rfl

theorem ofWord_xor (left right : BitVec width) :
    ofWord (left ^^^ right) = ofWord left + ofWord right := by
  ext power
  rw [coeff_add, coeff_ofWord, coeff_ofWord, coeff_ofWord, BitVec.getLsbD_xor, coefficient_xor]

theorem degree_ofWord_lt (word : BitVec width) : (ofWord word).degree < width := by
  rw [degree_lt_iff_coeff_zero]
  intro power beyond
  rw [coeff_ofWord, BitVec.getLsbD_of_ge word power beyond]
  rfl

theorem ofWord_inj : ofWord left = ofWord right ↔ left = right := by
  constructor
  · intro same
    apply BitVec.eq_of_getLsbD_eq
    intro power _
    rw [← coefficient_inj, ← coeff_ofWord, ← coeff_ofWord, same]
  · rintro rfl
    rfl

/-- A word at the top of a wider one is multiplied by the power it stands at. -/
theorem ofWord_placed {wide offset : Nat} (word : BitVec width) (fits : width + offset ≤ wide) :
    ofWord (word.setWidth wide <<< offset) = ofWord word * X ^ offset := by
  ext power
  rw [coeff_ofWord, coeff_mul_X_pow', coeff_ofWord, BitVec.getLsbD_shiftLeft]
  by_cases below : power < offset
  · simp [below, not_le.mpr below, coefficient]
  · rw [if_pos (not_lt.mp below), BitVec.getLsbD_setWidth]
    by_cases inside : power < wide
    · have shifted : power - offset < wide := by omega
      simp [below, inside, shifted]
    · rw [BitVec.getLsbD_of_ge word (power - offset) (by omega)]
      simp [inside, coefficient]

end

/-! ## The shift register -/

/-- One step of the division: what leaves the register at the top comes back at the taps. -/
def shift {width : Nat} (taps register : BitVec width) : BitVec width :=
  if register.msb then (register <<< 1) ^^^ taps else register <<< 1

noncomputable def divisor {width : Nat} (taps : BitVec width) : (ZMod 2)[X] :=
  X ^ width + ofWord taps

section

variable {width : Nat}

theorem divisor_monic (taps : BitVec width) : (divisor taps).Monic :=
  monic_X_pow_add (degree_ofWord_lt taps)

theorem degree_divisor (taps : BitVec width) : (divisor taps).degree = width := by
  have below : (ofWord taps).degree < ((X : (ZMod 2)[X]) ^ width).degree := by
    rw [degree_X_pow]
    exact degree_ofWord_lt taps
  rw [divisor, degree_add_eq_left_of_degree_lt below, degree_X_pow]

theorem X_mul_ofWord (register : BitVec width) :
    X * ofWord register =
      ofWord (register <<< 1) + if register.msb then X ^ width else 0 := by
  have top : ∀ power, (if register.msb then (X : (ZMod 2)[X]) ^ width else 0).coeff power =
      coefficient (decide (power = width) && register.msb) := by
    intro power
    by_cases set : register.msb
    · by_cases here : power = width <;> simp [set, coeff_X_pow, here, coefficient]
    · simp [set, coefficient]
  ext power
  rw [coeff_add, top, coeff_ofWord, BitVec.getLsbD_shiftLeft, ← coefficient_xor]
  cases power with
  | zero =>
      rw [coeff_X_mul_zero]
      by_cases empty : width = 0
      · subst empty
        simp [BitVec.msb, coefficient]
      · have notTop : ¬ 0 = width := fun same => empty same.symm
        simp [notTop, coefficient]
  | succ power =>
      rw [coeff_X_mul, coeff_ofWord]
      congr 1
      by_cases inside : power + 1 < width
      · have notTop : ¬ power + 1 = width := by omega
        simp [inside, notTop]
      · by_cases last : power + 1 = width
        · have isLast : width - 1 = power := by omega
          rw [BitVec.msb_eq_getLsbD_last, isLast]
          simp [last]
        · rw [BitVec.getLsbD_of_ge register power (by omega)]
          simp [inside, last]

theorem mk_shift (taps register : BitVec width) :
    AdjoinRoot.mk (divisor taps) (ofWord (shift taps register)) =
      AdjoinRoot.root (divisor taps) * AdjoinRoot.mk (divisor taps) (ofWord register) := by
  rw [← AdjoinRoot.mk_X, ← map_mul, X_mul_ofWord, shift]
  split
  · rw [ofWord_xor, AdjoinRoot.mk_eq_mk]
    have difference : ofWord (register <<< 1) + ofWord taps -
        (ofWord (register <<< 1) + X ^ width) = divisor taps := by
      rw [CharTwo.sub_eq_add, divisor, add_add_add_comm, CharTwo.add_self_eq_zero, zero_add,
        add_comm]
    rw [difference]
  · rw [add_zero]

theorem mk_repeat_shift (taps register : BitVec width) (steps : Nat) :
    AdjoinRoot.mk (divisor taps) (ofWord (Nat.repeat (shift taps) steps register)) =
      AdjoinRoot.root (divisor taps) ^ steps *
        AdjoinRoot.mk (divisor taps) (ofWord register) := by
  induction steps with
  | zero => simp [Nat.repeat]
  | succ steps induction => rw [Nat.repeat, mk_shift, induction, pow_succ', mul_assoc]

theorem ofWord_eq_modByMonic {taps register : BitVec width} {poly : (ZMod 2)[X]}
    (same : AdjoinRoot.mk (divisor taps) (ofWord register) =
      AdjoinRoot.mk (divisor taps) poly) :
    ofWord register = poly %ₘ divisor taps := by
  have small : (ofWord register).degree < (divisor taps).degree := by
    rw [degree_divisor]
    exact degree_ofWord_lt register
  calc ofWord register = ofWord register %ₘ divisor taps :=
        ((modByMonic_eq_self_iff (divisor_monic taps)).mpr small).symm
    _ = poly %ₘ divisor taps :=
        modByMonic_eq_of_dvd_sub (divisor_monic taps) (AdjoinRoot.mk_eq_mk.mp same)

end

/-! ## Error bursts -/

def Burst (length : Nat) (sent received : List Bool) : Prop :=
  ∃ first, ∀ position, sent[position]? ≠ received[position]? →
    first ≤ position ∧ position < first + length

section

variable {sent received : List Bool}

theorem ofBits_inj (sameLength : sent.length = received.length) :
    ofBits sent = ofBits received ↔ sent = received := by
  constructor
  · intro same
    rw [← List.reverse_inj]
    apply List.ext_getElem?
    intro power
    have bit := congrArg (fun poly => poly.coeff power) same
    simp only [coeff_ofBits, coefficient_inj] at bit
    by_cases inside : power < sent.length
    · have sentInside : power < sent.reverse.length := by simpa using inside
      have receivedInside : power < received.reverse.length := by simpa [← sameLength] using inside
      rw [List.getElem?_eq_getElem sentInside, List.getElem?_eq_getElem receivedInside] at bit ⊢
      exact congrArg some bit
    · rw [List.getElem?_eq_none (by simpa using inside),
        List.getElem?_eq_none (by simpa [← sameLength] using inside)]
  · rintro rfl
    rfl

/-- The difference that a burst makes is a polynomial of the degree of its length, moved up. -/
theorem burst_difference {length : Nat} (sameLength : sent.length = received.length)
    (burst : Burst length sent received) :
    ∃ power error, ofBits sent - ofBits received = X ^ power * error ∧
      error.degree < (length : WithBot Nat) := by
  rcases burst with ⟨first, within⟩
  have outside : ∀ power, (ofBits sent - ofBits received).coeff power ≠ 0 →
      power < sent.length ∧ first ≤ sent.length - 1 - power ∧
        sent.length - 1 - power < first + length := by
    intro power differs
    rw [coeff_sub, coeff_ofBits, coeff_ofBits, sub_ne_zero] at differs
    have inside : power < sent.length := by
      by_contra beyond
      apply differs
      rw [List.getElem?_eq_none (by simpa using beyond),
        List.getElem?_eq_none (by simpa [← sameLength] using beyond)]
    refine ⟨inside, within _ fun same => differs ?_⟩
    rw [List.getElem?_reverse inside, List.getElem?_reverse (sameLength ▸ inside), ← sameLength,
      same]
  have divides : (X : (ZMod 2)[X]) ^ (sent.length - (first + length)) ∣
      ofBits sent - ofBits received := by
    rw [X_pow_dvd_iff]
    intro power below
    by_contra differs
    have bounds := outside power differs
    omega
  rcases divides with ⟨error, moved⟩
  refine ⟨_, error, moved, ?_⟩
  rw [degree_lt_iff_coeff_zero]
  intro power beyond
  by_contra differs
  have place : (ofBits sent - ofBits received).coeff
      (power + (sent.length - (first + length))) ≠ 0 := by
    rw [moved, coeff_X_pow_mul]
    exact differs
  have bounds := outside _ place
  omega

theorem eq_of_burst {width : Nat} {taps : BitVec width} (constant : taps.getLsbD 0 = true)
    (sameLength : sent.length = received.length) (burst : Burst width sent received) (power : Nat)
    (same : ofBits sent * X ^ power %ₘ divisor taps = ofBits received * X ^ power %ₘ divisor taps) :
    sent = received := by
  rcases burst_difference sameLength burst with ⟨place, error, moved, small⟩
  have positive : 0 < width := by
    by_contra empty
    rw [BitVec.getLsbD_of_ge taps 0 (not_lt.mp empty)] at constant
    cases constant
  have unit : (divisor taps).coeff 0 = 1 := by
    rw [divisor, coeff_add, coeff_ofWord, constant, coeff_X_pow, if_neg positive.ne, zero_add]
    rfl
  have coprime : IsCoprime (divisor taps) X := by
    refine ⟨1, -(divisor taps).divX, ?_⟩
    have split := divX_mul_X_add (divisor taps)
    rw [unit, map_one] at split
    calc 1 * divisor taps + -(divisor taps).divX * X
        = (divisor taps).divX * X + 1 + -(divisor taps).divX * X := by rw [one_mul, split]
      _ = 1 := by ring
  have divides : divisor taps ∣ X ^ (place + power) * error := by
    have difference : ofBits sent * X ^ power - ofBits received * X ^ power =
        X ^ (place + power) * error := by
      rw [← sub_mul, moved, pow_add]
      ring
    rw [← difference, ← modByMonic_eq_zero_iff_dvd (divisor_monic taps), sub_modByMonic, same,
      sub_self]
  have clean : error = 0 := by
    apply eq_zero_of_dvd_of_degree_lt (coprime.pow_right.dvd_of_dvd_mul_left divides)
    rw [degree_divisor]
    exact small
  rw [clean, mul_zero, sub_eq_zero] at moved
  exact (ofBits_inj sameLength).mp moved

end

end CanOpen.BinaryPolynomial
