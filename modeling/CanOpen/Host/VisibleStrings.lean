import CanOpen.Foundation.Utf8
import CanOpen.Host.Eds
import CanOpen.Standard

/-! # Texts in visible strings

A device name and the text of a default value are cut off where the bytes of a string end, which
can be amid a character. What is stored is a text then no longer.
-/

namespace CanOpen

/-- The byte behind the capacity of a string, if the text has one, is the first of a
character. -/
def CutsBetween (text : Text) : Prop :=
  ∀ byte, (Text.asBytes text)[maxStringLen]? = some byte → byte.IsUTF8FirstByte

def ReadsAsPrefix (string : ByteString) (text : Text) : Prop :=
  ∃ read, string.asStr = some read ∧ read.toList <+: text

def ByteString.cut (text : Text) : ByteString :=
  ⟨(Text.asBytes text).take maxStringLen, List.length_take_le _ _⟩

theorem ByteString.asStr_eq_some_iff {string : ByteString} {read : String} :
    string.asStr = some read ↔ string.bytes = Text.asBytes read.toList :=
  Text.fromUTF8?_eq_some_iff

theorem readsAsPrefix_cut_iff {text : Text} :
    ReadsAsPrefix (.cut text) text ↔ CutsBetween text := by
  rw [CutsBetween, ← Text.exists_asBytes_eq_take_iff]
  constructor
  · rintro ⟨read, isRead, begins⟩
    exact ⟨read.toList, begins, (ByteString.asStr_eq_some_iff.mp isRead).symm⟩
  · rintro ⟨front, begins, bytes⟩
    refine ⟨String.ofList front, ?_, ?_⟩
    · rw [ByteString.asStr_eq_some_iff, String.toList_ofList]
      exact bytes.symm
    · rwa [String.toList_ofList]

theorem asStr_cut_eq_none {text : Text} (amid : ¬ CutsBetween text) :
    (ByteString.cut text).asStr = none := by
  cases isRead : (ByteString.cut text).asStr with
  | none => rfl
  | some read =>
      have bytes := ByteString.asStr_eq_some_iff.mp isRead
      have begins : read.toList <+: text := by
        apply Text.isPrefix_of_asBytes
        rw [← bytes]
        exact List.take_prefix _ _
      exact absurd (readsAsPrefix_cut_iff.mp ⟨read, isRead, begins⟩) amid

theorem fromBytes_cut (text : Text) :
    ByteString.fromBytes ((Text.asBytes text).take maxStringLen) = .ok (.cut text) :=
  dif_pos (List.length_take_le _ _)

theorem deviceName_withDeviceName (standard : StandardObjects) (name : String) :
    (standard.withDeviceName name).deviceName = some (.cut name.toList) := by
  simp only [StandardObjects.withDeviceName, Text.toList_toUTF8, fromBytes_cut]
  rfl

theorem valueFromStr_visibleString (reals : RealLiterals) (text : Text) (nodeId : UInt8) :
    Eds.valueFromStr reals .visibleString text nodeId =
      pure (some (.visibleString (.cut (Text.trim text)))) := by
  let bytes := Text.asBytes (Text.trim text)
  have taken : (bytes.take (min bytes.length maxStringLen)).drop 0 = bytes.take maxStringLen := by
    rw [List.drop_zero, Nat.min_comm, ← List.take_eq_take_min]
  have slice : Exec.slice bytes 0 (min bytes.length maxStringLen) =
      pure (bytes.take maxStringLen) := by
    rw [Exec.slice_of_le _ (Nat.zero_le _) (Nat.min_le_left _ _), taken]
  have variable_ : Eds.valueFromStr reals .visibleString text nodeId =
      Eds.variableValue .visibleString (Text.trim text) := rfl
  rw [variable_, Eds.variableValue, slice, pure_bind, fromBytes_cut]

/-- A device name, and the text of a default value without the white space around it, are stored
as a text that begins them exactly if they are cut off between two characters. Otherwise what is
stored is no text. -/
theorem shortened_text_iff (reals : RealLiterals) :
    (∀ (standard : StandardObjects) (name : String),
      ∃ stored, (standard.withDeviceName name).deviceName = some stored ∧
        (ReadsAsPrefix stored name.toList ↔ CutsBetween name.toList) ∧
        (¬ CutsBetween name.toList → stored.asStr = none)) ∧
    ∀ (text : Text) (nodeId : UInt8),
      ∃ stored, Eds.valueFromStr reals .visibleString text nodeId =
          pure (some (.visibleString stored)) ∧
        (ReadsAsPrefix stored (Text.trim text) ↔ CutsBetween (Text.trim text)) ∧
        (¬ CutsBetween (Text.trim text) → stored.asStr = none) := by
  constructor
  · intro standard name
    exact ⟨.cut name.toList, deviceName_withDeviceName standard name, readsAsPrefix_cut_iff,
      asStr_cut_eq_none⟩
  · intro text nodeId
    exact ⟨.cut (Text.trim text), valueFromStr_visibleString reals text nodeId,
      readsAsPrefix_cut_iff, asStr_cut_eq_none⟩

/-- A text of 37 bytes with the 32nd and the 33rd in one character. -/
theorem shortened_text_amid_character :
    let name := "Temperatur- und Feuchtigkeits-Fühler"
    let standard := StandardObjects.new 0 ⟨0, 0, 0, 0⟩
    (∃ stored, (standard.withDeviceName name).deviceName = some stored ∧
      stored.asStr = none) ∧
    ∃ stored, Eds.valueFromStr ⟨fun _ => none, fun _ => none⟩ .visibleString name.toList 0 =
        pure (some (.visibleString stored)) ∧
      stored.asStr = none := by
  intro name standard
  have byte : (Text.asBytes name.toList)[maxStringLen]? = some 0xBC := by decide
  have amid : ¬ CutsBetween name.toList := fun between => absurd (between 0xBC byte) (by decide)
  have trimmed : Text.trim name.toList = name.toList := by decide
  constructor
  · exact ⟨_, deviceName_withDeviceName standard name, asStr_cut_eq_none amid⟩
  · refine ⟨_, valueFromStr_visibleString _ name.toList 0, ?_⟩
    rw [trimmed]
    exact asStr_cut_eq_none amid

end CanOpen
