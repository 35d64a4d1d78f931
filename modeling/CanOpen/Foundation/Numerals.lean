import CanOpen.Foundation.Text
import Mathlib.Data.Nat.Digits.Lemmas

/-! # Numerals

Numbers written in a radix, with zeros in front up to a width, and read back.
-/

namespace CanOpen.Text

/-- The digits of a number in a radix, the first one in front, and at least `width` of them. -/
def digitsOf (radix width number : Nat) : List Nat :=
  List.replicate (width - (Nat.digits radix number).length) 0 ++ (Nat.digits radix number).reverse

def numeral (radix width number : Nat) : Text := (digitsOf radix width number).map Nat.digitChar

theorem lt_of_mem_digitsOf {radix width number digit : Nat} (large : 2 ≤ radix)
    (member : digit ∈ digitsOf radix width number) : digit < radix := by
  rcases List.mem_append.mp member with padding | member
  · rw [(List.mem_replicate.mp padding).2]
    omega
  · exact Nat.digits_lt_base large (List.mem_reverse.mp member)

theorem numeral_ne_nil {width : Nat} (wide : 1 ≤ width) (radix number : Nat) :
    numeral radix width number ≠ [] := by
  refine List.ne_nil_of_length_pos ?_
  rw [numeral, digitsOf, List.length_map, List.length_append, List.length_replicate,
    List.length_reverse]
  omega

theorem exists_digit_of_mem_numeral {radix width number : Nat} (large : 2 ≤ radix) {char : Char}
    (member : char ∈ numeral radix width number) : ∃ digit < radix, char = Nat.digitChar digit := by
  rcases List.mem_map.mp member with ⟨digit, listed, rfl⟩
  exact ⟨digit, lt_of_mem_digitsOf large listed, rfl⟩

/-! ## Reading a numeral -/

private theorem value_digitChar : ∀ digit : Fin 16,
    digitValue 16 (Nat.digitChar digit) = some digit.val := by decide

theorem digitValue_digitChar {radix digit : Nat} (small : radix ≤ 16) (below : digit < radix) :
    digitValue radix (Nat.digitChar digit) = some digit := by
  have value := value_digitChar ⟨digit, by omega⟩
  rw [digitValue, Option.filter_eq_some_iff] at value ⊢
  exact ⟨value.1, by simpa using below⟩

theorem foldlM_digitValue {radix : Nat} (small : radix ≤ 16) {digits : List Nat}
    (below : ∀ digit ∈ digits, digit < radix) (start : Nat) :
    (digits.map Nat.digitChar).foldlM (fun number char =>
      (digitValue radix char).map fun value => number * radix + value) start =
      some (digits.foldl (fun number digit => number * radix + digit) start) := by
  induction digits generalizing start with
  | nil => rfl
  | cons digit digits induction =>
      rw [List.map_cons, List.foldlM_cons,
        digitValue_digitChar small (below digit List.mem_cons_self), Option.map_some]
      exact induction (fun other member => below other (List.mem_cons_of_mem _ member)) _

theorem foldl_digitsOf (radix width number : Nat) :
    (digitsOf radix width number).foldl (fun number digit => number * radix + digit) 0 =
      number := by
  have zeros : ∀ count : Nat, (List.replicate count 0).foldl
      (fun number digit => number * radix + digit) 0 = 0 := by
    intro count
    induction count with
    | zero => rfl
    | succ count induction => simpa [List.replicate_succ] using induction
  calc (digitsOf radix width number).foldl (fun number digit => number * radix + digit) 0
      = (Nat.digits radix number).foldr (fun digit number => number * radix + digit) 0 := by
        rw [digitsOf, List.foldl_append, zeros, List.foldl_reverse]
    _ = Nat.ofDigits radix (Nat.digits radix number) := by
        rw [Nat.ofDigits_eq_foldr]
        simp only [Nat.cast_id, Nat.mul_comm, Nat.add_comm]
    _ = number := Nat.ofDigits_digits radix number

theorem digitsValue_numeral {radix width number : Nat} (large : 2 ≤ radix) (small : radix ≤ 16)
    (wide : 1 ≤ width) : digitsValue radix (numeral radix width number) = some number := by
  rw [digitsValue, if_neg (numeral_ne_nil wide radix number), numeral,
    foldlM_digitValue small fun digit member => lt_of_mem_digitsOf large member, foldl_digitsOf]

end CanOpen.Text
