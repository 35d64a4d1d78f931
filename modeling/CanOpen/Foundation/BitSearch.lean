import Mathlib.Algebra.Order.Ring.Nat
import Mathlib.Data.Nat.Bitwise
import Mathlib.Order.Bounds.Basic
import Mathlib.Tactic.Ring

/-! # Finding the least of a set of numbers, bit by bit

The least number is found from the most significant bit down by asking, for each
bit, whether any number agrees with the bits found so far and has a zero there.
-/

namespace CanOpen.BitSearch

/-- `value` with the bits below `position` cleared. -/
def truncate (value position : Nat) : Nat := value / 2 ^ position * 2 ^ position

@[simp] theorem truncate_zero (value : Nat) : truncate value 0 = value := by
  simp [truncate]

theorem truncate_of_lt {value position : Nat} (bound : value < 2 ^ position) :
    truncate value position = 0 := by
  simp [truncate, Nat.div_eq_of_lt bound]

theorem truncate_le (value position : Nat) : truncate value position ≤ value :=
  Nat.div_mul_le_self value (2 ^ position)

@[simp] theorem truncate_div (value position : Nat) :
    truncate value position / 2 ^ position = value / 2 ^ position :=
  Nat.mul_div_cancel _ (Nat.two_pow_pos position)

theorem truncate_eq_add (value position : Nat) :
    truncate value position =
      truncate value (position + 1) + value / 2 ^ position % 2 * 2 ^ position := by
  have halves : value / 2 ^ (position + 1) = value / 2 ^ position / 2 := by
    rw [Nat.pow_succ, Nat.div_div_eq_div_mul]
  have split := Nat.div_add_mod (value / 2 ^ position) 2
  rw [truncate, truncate, halves, Nat.pow_succ]
  calc value / 2 ^ position * 2 ^ position
      = (2 * (value / 2 ^ position / 2) + value / 2 ^ position % 2) * 2 ^ position := by
        rw [split]
    _ = _ := by ring

theorem truncate_succ_div (value position : Nat) :
    truncate value (position + 1) / 2 ^ position =
      value / 2 ^ position - value / 2 ^ position % 2 := by
  have added := truncate_eq_add value position
  have divided := congrArg (· / 2 ^ position) added
  simp only [truncate_div] at divided
  rw [Nat.add_mul_div_right _ _ (Nat.two_pow_pos position)] at divided
  exact (Nat.sub_eq_of_eq_add divided).symm

theorem truncate_eq_iff (value position : Nat) :
    truncate value position = truncate value (position + 1) ↔
      value / 2 ^ position % 2 = 0 := by
  have added := truncate_eq_add value position
  have positive := Nat.two_pow_pos position
  constructor
  · intro equal
    rw [equal] at added
    have vanishes : value / 2 ^ position % 2 * 2 ^ position = 0 := by omega
    rcases Nat.mul_eq_zero.mp vanishes with zero | zero
    · exact zero
    · omega
  · intro zero
    rw [added, zero]
    simp

/-- Some number agrees with the bits found and has a zero at `position` exactly
when the least number has. -/
theorem answered_iff {numbers : Set Nat} {least : Nat} (isLeast : IsLeast numbers least)
    {found position : Nat} (soFar : found = truncate least (position + 1)) :
    (∃ number ∈ numbers, number / 2 ^ position = found / 2 ^ position) ↔
      truncate least position = found := by
  subst soFar
  rw [truncate_eq_iff, truncate_succ_div]
  constructor
  · rintro ⟨number, member, agrees⟩
    have smaller : least / 2 ^ position ≤ number / 2 ^ position :=
      Nat.div_le_div_right (isLeast.2 member)
    rw [agrees] at smaller
    generalize least / 2 ^ position = quotient at smaller ⊢
    have bound := Nat.mod_le quotient 2
    omega
  · intro zero
    exact ⟨least, isLeast.1, by rw [zero, Nat.sub_zero]⟩

theorem truncate_eq_or {value found position : Nat}
    (soFar : found = truncate value (position + 1))
    (different : truncate value position ≠ found) :
    truncate value position = found ||| 2 ^ position := by
  subst soFar
  have one : value / 2 ^ position % 2 = 1 := by
    have notZero := mt (truncate_eq_iff value position).mpr different
    omega
  have disjoint : truncate value (position + 1) + 2 ^ position =
      truncate value (position + 1) ||| 2 ^ position := by
    have smaller : 2 ^ position < 2 ^ (position + 1) :=
      Nat.pow_lt_pow_right (by decide) (Nat.lt_succ_self position)
    rw [truncate, Nat.mul_comm]
    exact Nat.two_pow_add_eq_or_of_lt smaller _
  rw [truncate_eq_add, one, Nat.one_mul, disjoint]

/-! ## Words of 32 bits -/

theorem masked_eq_zero_iff (left right : UInt32) {position : Nat} (within : position < 32) :
    (left ^^^ right) &&& (0xFFFFFFFF <<< UInt32.ofNat position) = 0 ↔
      left.toNat / 2 ^ position = right.toNat / 2 ^ position := by
  have mask : ((0xFFFFFFFF : UInt32) <<< UInt32.ofNat position).toNat =
      (2 ^ 32 - 1) <<< position % 2 ^ 32 := by
    simp [UInt32.toNat_shiftLeft, Nat.mod_eq_of_lt within,
      Nat.mod_eq_of_lt (show position < 4294967296 by omega)]
  rw [← UInt32.toNat_inj, UInt32.toNat_and, UInt32.toNat_xor, mask]
  constructor
  · intro zero
    apply Nat.eq_of_testBit_eq
    intro bit
    rw [Nat.testBit_div_two_pow, Nat.testBit_div_two_pow]
    have bitZero := congrArg (Nat.testBit · (bit + position)) zero
    simp only [Nat.testBit_and, Nat.testBit_xor, Nat.testBit_mod_two_pow,
      Nat.testBit_shiftLeft, UInt32.toNat_zero, Nat.zero_testBit] at bitZero
    by_cases low : bit + position < 32
    · have inMask : Nat.testBit 4294967295 bit = true := by
        rw [show 4294967295 = 2 ^ 32 - 1 from rfl, Nat.testBit_two_pow_sub_one]
        simp
        omega
      simpa [low, inMask, Nat.add_comm position bit, Nat.not_le.mpr low] using bitZero
    · rw [Nat.testBit_lt_two_pow (lt_of_lt_of_le left.toNat_lt
        (Nat.pow_le_pow_right (by decide) (by omega))),
        Nat.testBit_lt_two_pow (lt_of_lt_of_le right.toNat_lt
        (Nat.pow_le_pow_right (by decide) (by omega)))]
  · intro equal
    apply Nat.eq_of_testBit_eq
    intro bit
    simp only [Nat.testBit_and, Nat.testBit_xor, Nat.testBit_mod_two_pow,
      Nat.testBit_shiftLeft, UInt32.toNat_zero, Nat.zero_testBit]
    by_cases above : position ≤ bit
    · have same := congrArg (Nat.testBit · (bit - position)) equal
      simp only [Nat.testBit_div_two_pow] at same
      rw [Nat.sub_add_cancel above] at same
      simp [same]
    · simp [above]

theorem ofNat_or_bit {value position : Nat} (within : position < 32) :
    UInt32.ofNat value ||| (1 <<< UInt32.ofNat position) =
      UInt32.ofNat (value ||| 2 ^ position) := by
  have bit : ((1 : UInt32) <<< UInt32.ofNat position) = UInt32.ofNat (2 ^ position) := by
    apply UInt32.toNat_inj.mp
    simp [UInt32.toNat_shiftLeft, Nat.mod_eq_of_lt within, Nat.shiftLeft_eq,
      Nat.mod_eq_of_lt (show position < 4294967296 by omega)]
  rw [bit]
  apply UInt32.toNat_inj.mp
  simp [UInt32.toNat_or]

end CanOpen.BitSearch
