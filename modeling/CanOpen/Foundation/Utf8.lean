import CanOpen.Foundation.Text

/-! # UTF-8

What decodes to a text, and what is left of a text whose bytes are cut off somewhere.
-/

namespace CanOpen.Text

/-! ## Decoding -/

theorem asBytes_append (front back : Text) :
    asBytes (front ++ back) = asBytes front ++ asBytes back :=
  List.flatMap_append

theorem asBytes_cons (char : Char) (text : Text) :
    asBytes (char :: text) = String.utf8EncodeChar char ++ asBytes text := rfl

theorem toByteArray_inj {left right : List UInt8} :
    left.toByteArray = right.toByteArray ↔ left = right := by
  constructor
  · intro same
    have sameData := congrArg ByteArray.data same
    rwa [List.data_toByteArray, List.data_toByteArray, Array.mk.injEq] at sameData
  · exact congrArg List.toByteArray

theorem toByteArray_eq (string : String) :
    string.toByteArray = (asBytes string.toList).toByteArray :=
  String.utf8Encode_toList.symm

theorem fromUTF8?_eq_some_iff {bytes : List UInt8} {string : String} :
    String.fromUTF8? bytes.toByteArray = some string ↔ bytes = asBytes string.toList := by
  rw [← toByteArray_inj, ← toByteArray_eq]
  unfold String.fromUTF8?
  split
  · next valid =>
      rw [Option.some.injEq, ← String.toByteArray_inj]
      rfl
  · next invalid =>
      constructor
      · intro decoded
        cases decoded
      · intro same
        exact absurd (same ▸ string.isValidUTF8) invalid

theorem toList_loop (bytes : ByteArray) (position : Nat) (before : List UInt8) :
    ByteArray.toList.loop bytes position before =
      before.reverse ++ bytes.data.toList.drop position := by
  fun_induction ByteArray.toList.loop bytes position before with
  | case1 position before within induction =>
      have inside : position < bytes.data.toList.length := by simpa using within
      have byte : bytes.get! position = bytes.data.toList[position] :=
        getElem!_pos bytes.data position within
      rw [induction, List.reverse_cons, List.append_assoc, List.drop_eq_getElem_cons inside, byte]
      rfl
  | case2 position before outside =>
      have behind : bytes.data.toList.length ≤ position := by simpa using outside
      rw [List.drop_eq_nil_of_le behind, List.append_nil]

theorem toList_toUTF8 (string : String) : string.toUTF8.toList = asBytes string.toList := by
  rw [String.toUTF8_eq_toByteArray, toByteArray_eq, ByteArray.toList, toList_loop,
    List.data_toByteArray]
  rfl

/-! ## Cutting -/

theorem isPrefix_of_asBytes {front text : Text} (begins : asBytes front <+: asBytes text) :
    front <+: text := by
  induction front generalizing text with
  | nil => exact List.nil_prefix
  | cons char front induction =>
      rcases begins with ⟨behind, same⟩
      rw [asBytes_cons, List.append_assoc] at same
      cases text with
      | nil =>
          have empty := (List.append_eq_nil_iff.mp same).1
          exact absurd empty String.utf8EncodeChar_ne_nil
      | cons other text =>
          rw [asBytes_cons] at same
          have decoded := congrArg (fun bytes => bytes.toByteArray.utf8DecodeChar? 0) same
          simp only [List.toByteArray_append, ByteArray.utf8DecodeChar?_utf8EncodeChar_append,
            Option.some.injEq] at decoded
          subst decoded
          have rest := induction ⟨behind, List.append_cancel_left same⟩
          exact List.cons_prefix_cons.mpr ⟨rfl, rest⟩

theorem isFirst_of_getElem?_asBytes {text : Text} {byte : UInt8}
    (first : (asBytes text)[0]? = some byte) : byte.IsUTF8FirstByte := by
  cases text with
  | nil => cases first
  | cons char text =>
      have length : 0 < (String.utf8EncodeChar char).length :=
        List.length_pos_iff.mpr String.utf8EncodeChar_ne_nil
      rw [asBytes_cons, List.getElem?_append_left length, List.getElem?_eq_getElem length,
        Option.some.injEq] at first
      rw [← first, UInt8.isUTF8FirstByte_getElem_utf8EncodeChar]

/-- The first `count` bytes of a text are those of a text exactly if the byte behind them, if
there is one, is the first of a character. -/
theorem exists_asBytes_eq_take_iff {text : Text} {count : Nat} :
    (∃ front, front <+: text ∧ asBytes front = (asBytes text).take count) ↔
      ∀ byte, (asBytes text)[count]? = some byte → byte.IsUTF8FirstByte := by
  constructor
  · rintro ⟨front, ⟨back, rfl⟩, cut⟩ byte behind
    have within := (List.getElem?_eq_some_iff.mp behind).1
    have length : (asBytes front).length = count := by
      rw [cut, List.length_take, Nat.min_eq_left (Nat.le_of_lt within)]
    rw [asBytes_append, List.getElem?_append_right (Nat.le_of_eq length), length,
      Nat.sub_self] at behind
    exact isFirst_of_getElem?_asBytes behind
  · intro first
    induction text generalizing count with
    | nil => exact ⟨[], List.nil_prefix, List.take_nil.symm⟩
    | cons char text induction =>
        rw [asBytes_cons] at first ⊢
        by_cases inside : count < (String.utf8EncodeChar char).length
        · -- A byte of the first character begins it only if nothing is left in front of it.
          rw [List.getElem?_append_left inside, List.getElem?_eq_getElem inside] at first
          have none_ : count = 0 :=
            UInt8.isUTF8FirstByte_getElem_utf8EncodeChar.mp (first _ rfl)
          exact ⟨[], List.nil_prefix, by rw [none_]; rfl⟩
        · have whole := Nat.not_lt.mp inside
          rw [List.getElem?_append_right whole] at first
          rcases induction first with ⟨front, begins, cut⟩
          refine ⟨char :: front, List.cons_prefix_cons.mpr ⟨rfl, begins⟩, ?_⟩
          rw [asBytes_cons, cut, List.take_append, List.take_of_length_le whole]

end CanOpen.Text
