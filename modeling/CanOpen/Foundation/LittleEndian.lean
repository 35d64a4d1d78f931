import Mathlib.Algebra.Order.Ring.Nat
import Mathlib.Tactic.Ring
import Mathlib.Data.List.Basic

/-! # Little-endian bytes

Naturals as byte strings of a chosen width, least significant byte first.
-/

namespace CanOpen.LittleEndian

theorem byte_of_forall {property : UInt8 → Prop} {bound : Nat}
    (all : ∀ number : Fin bound, property (UInt8.ofNat number)) (byte : UInt8)
    (within : byte.toNat < bound) : property byte := by
  have here := all ⟨byte.toNat, within⟩
  rwa [UInt8.ofNat_toNat] at here

def byteAt (value position : Nat) : UInt8 := UInt8.ofNat (value / 256 ^ position)

def encode : (width value : Nat) → List UInt8
  | 0, _ => []
  | width + 1, value => UInt8.ofNat value :: encode width (value / 256)

def decode : List UInt8 → Nat
  | [] => 0
  | byte :: bytes => byte.toNat + 256 * decode bytes

@[simp] theorem encode_length (width value : Nat) :
    (encode width value).length = width := by
  induction width generalizing value with
  | zero => rfl
  | succ width induction => simp [encode, induction]

theorem encode_two (value : Nat) : encode 2 value = [byteAt value 0, byteAt value 1] := by
  simp [encode, byteAt]

theorem encode_four (value : Nat) :
    encode 4 value = [byteAt value 0, byteAt value 1, byteAt value 2, byteAt value 3] := by
  simp [encode, byteAt, Nat.div_div_eq_div_mul]

theorem decode_encode (width value : Nat) :
    decode (encode width value) = value % 256 ^ width := by
  induction width generalizing value with
  | zero => simp [encode, decode, Nat.mod_one]
  | succ width induction =>
      rw [encode, decode, induction, pow_succ', Nat.mod_mul]
      simp

theorem decode_encode_of_lt {width value : Nat} (bound : value < 256 ^ width) :
    decode (encode width value) = value := by
  rw [decode_encode, Nat.mod_eq_of_lt bound]

/-! A word fits the bytes of its own width, so it always comes back. -/

@[simp] theorem decode_encode_uInt16 (word : UInt16) :
    decode (encode 2 word.toNat) = word.toNat :=
  decode_encode_of_lt word.toNat_lt

@[simp] theorem decode_encode_uInt32 (word : UInt32) :
    decode (encode 4 word.toNat) = word.toNat :=
  decode_encode_of_lt word.toNat_lt

@[simp] theorem decode_encode_uInt64 (word : UInt64) :
    decode (encode 8 word.toNat) = word.toNat :=
  decode_encode_of_lt word.toNat_lt

theorem decode_byteAt_uInt16 (word : UInt16) :
    decode [byteAt word.toNat 0, byteAt word.toNat 1] = word.toNat := by
  rw [← encode_two, decode_encode_uInt16]

theorem decode_byteAt_uInt32 (word : UInt32) :
    decode [byteAt word.toNat 0, byteAt word.toNat 1, byteAt word.toNat 2,
      byteAt word.toNat 3] = word.toNat := by
  rw [← encode_four, decode_encode_uInt32]

theorem decode_lt (bytes : List UInt8) : decode bytes < 256 ^ bytes.length := by
  induction bytes with
  | nil => exact Nat.one_pos
  | cons byte bytes induction =>
      have bound : byte.toNat < 256 := byte.toNat_lt
      rw [decode, List.length_cons, pow_succ]
      omega

theorem encode_decode (bytes : List UInt8) : encode bytes.length (decode bytes) = bytes := by
  induction bytes with
  | nil => rfl
  | cons byte bytes induction =>
      have bound : byte.toNat < 256 := byte.toNat_lt
      have low : UInt8.ofNat (byte.toNat + 256 * decode bytes) = byte := by
        apply UInt8.toNat_inj.mp
        rw [UInt8.toNat_ofNat', Nat.add_mul_mod_self_left, Nat.mod_eq_of_lt bound]
      have high : (byte.toNat + 256 * decode bytes) / 256 = decode bytes := by omega
      rw [List.length_cons, decode, encode, low, high, induction]

end CanOpen.LittleEndian
