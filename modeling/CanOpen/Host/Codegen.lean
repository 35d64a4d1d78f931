import CanOpen.Foundation.Listing
import CanOpen.Host.RustSource

/-! # Generated dictionaries

From a data sheet to the source of a function that builds its dictionary.
-/

namespace CanOpen

/-- How the real types are written for debugging, from their bit patterns. -/
structure RealTexts where
  real32 : UInt32 → Text
  real64 : UInt64 → Text

namespace Codegen

/-! ## The generator -/

def hexadecimal (digits number : Nat) : Text := "0x".toList ++ Text.numeral 16 digits number

def decimal (number : Nat) : Text := Text.numeral 10 1 number

def signedDecimal (number : Int) : Text :=
  if number < 0 then '-' :: decimal number.natAbs else decimal number.natAbs

def accessVariant : AccessType → Text
  | .ro => "Ro".toList
  | .wo => "Wo".toList
  | .rw => "Rw".toList
  | .const => "Const".toList

def byteList : List UInt8 → Text
  | [] => []
  | [byte] => hexadecimal 2 byte.toNat
  | byte :: next :: bytes => hexadecimal 2 byte.toNat ++ ", ".toList ++ byteList (next :: bytes)

def stringLiteral (variant : Text) (bytes : List UInt8) : Text :=
  "canopen_rs::Value::".toList ++ variant ++ "(".toList ++
    "canopen_rs::ByteString::from_bytes(&[".toList ++ byteList bytes ++ "]".toList ++
    ").unwrap())".toList

def fixedLiteral (variant literal : Text) : Text :=
  "canopen_rs::Value::".toList ++ variant ++ "(".toList ++ literal ++ ")".toList

def valueLiteral (texts : RealTexts) : Value → Text
  | .boolean value =>
      fixedLiteral "Boolean".toList (if value then "true".toList else "false".toList)
  | .unsigned8 value => fixedLiteral "Unsigned8".toList (hexadecimal 2 value.toNat)
  | .unsigned16 value => fixedLiteral "Unsigned16".toList (hexadecimal 4 value.toNat)
  | .unsigned32 value => fixedLiteral "Unsigned32".toList (hexadecimal 8 value.toNat)
  | .unsigned64 value => fixedLiteral "Unsigned64".toList (hexadecimal 16 value.toNat)
  | .integer8 value => fixedLiteral "Integer8".toList (signedDecimal value.toInt)
  | .integer16 value => fixedLiteral "Integer16".toList (signedDecimal value.toInt)
  | .integer32 value => fixedLiteral "Integer32".toList (signedDecimal value.toInt)
  | .integer64 value => fixedLiteral "Integer64".toList (signedDecimal value.toInt)
  | .real32 bits => fixedLiteral "Real32".toList (texts.real32 bits ++ "f32".toList)
  | .real64 bits => fixedLiteral "Real64".toList (texts.real64 bits ++ "f64".toList)
  | .visibleString string => stringLiteral "VisibleString".toList string.bytes
  | .octetString string => stringLiteral "OctetString".toList string.bytes
  | .domain string => stringLiteral "Domain".toList string.bytes

def insertLine (texts : RealTexts) (object : ObjectDescription) : Text :=
  "    od.insert(canopen_rs::Address::new(".toList ++
    hexadecimal 4 object.address.index.toNat ++ ", ".toList ++
    hexadecimal 2 object.address.subindex.toNat ++ "), canopen_rs::Entry \x7b value: ".toList ++
    valueLiteral texts object.defaultValue ++ ", access: canopen_rs::AccessType::".toList ++
    accessVariant object.access ++ " \x7d).unwrap();\n".toList

/-- The source of a function that builds the dictionary of a data sheet, with room for exactly its
objects. -/
def generateObjectDictionary (texts : RealTexts) (eds : Eds) (fnName : Text) : Text :=
  "/// Object dictionary generated from an EDS by canopen-host.\n".toList ++
    "pub fn ".toList ++ fnName ++ "() -> canopen_rs::ObjectDictionary<".toList ++
    decimal eds.objects.length ++ "> \x7b\n".toList ++
    "    let mut od = canopen_rs::ObjectDictionary::new();\n".toList ++
    eds.objects.flatMap (insertLine texts) ++ "    od\n".toList ++ "\x7d\n".toList

/-! ## Literals -/

open RustSource (Argument Insertion Program integerLiteral unsigned signed real)
open Reader (Reads reads_phrase reads_wordThen)
open Token (IsWord IsDecimal)

theorem isWord_hexadecimal (digits number : Nat) : IsWord (hexadecimal digits number) := by
  refine Token.isWord_append (by decide) fun char member => ?_
  exact Token.isWordChar_of_mem_numeral (by omega) (by omega) member

theorem isWord_decimal (number : Nat) : IsWord (decimal number) :=
  Token.isWord_of_isWordChar (Text.numeral_ne_nil (by omega) 10 number) fun _ member =>
    Token.isWordChar_of_mem_numeral (by omega) (by omega) member

theorem integerLiteral_hexadecimal {digits : Nat} (wide : 1 ≤ digits) (number : Nat) :
    integerLiteral (hexadecimal digits number) = some number := by
  have prefixed : Text.stripPrefix "0x".toList (hexadecimal digits number) =
      some (Text.numeral 16 digits number) := by
    have begins : "0x".toList.isPrefixOf (hexadecimal digits number) = true :=
      List.isPrefixOf_iff_prefix.mpr (List.prefix_append _ _)
    rw [Text.stripPrefix, if_pos begins, hexadecimal, List.drop_left]
  rw [integerLiteral, prefixed]
  exact Text.digitsValue_numeral (by omega) (by omega) wide

private theorem digitChar_ne : ∀ digit : Fin 10, Nat.digitChar digit ≠ 'x' := by decide

theorem integerLiteral_decimal (number : Nat) : integerLiteral (decimal number) = some number := by
  have plain : Text.stripPrefix "0x".toList (decimal number) = none := by
    refine if_neg fun begins => ?_
    have mark : 'x' ∈ decimal number :=
      (List.isPrefixOf_iff_prefix.mp begins).subset (by decide)
    rcases Text.exists_digit_of_mem_numeral (by omega) mark with ⟨digit, below, equal⟩
    exact digitChar_ne ⟨digit, below⟩ equal.symm
  rw [integerLiteral, plain]
  exact Text.digitsValue_numeral (by omega) (by omega) (by omega)

theorem unsigned_hexadecimal {digits number greatest : Nat} (wide : 1 ≤ digits)
    (fits : number ≤ greatest) : unsigned greatest false (hexadecimal digits number) =
      some number := by
  rw [unsigned, if_neg (by decide), integerLiteral_hexadecimal wide]
  simp [fits]

theorem signed_decimal {bits : Nat} {number : Int} (low : -2 ^ (bits - 1) ≤ number)
    (high : number < 2 ^ (bits - 1)) :
    signed bits (decide (number < 0)) (decimal number.natAbs) = some number := by
  have value : (if decide (number < 0) = true then -(number.natAbs : Int)
      else (number.natAbs : Int)) = number := by
    simp only [decide_eq_true_eq]
    omega
  rw [signed, integerLiteral_decimal]
  simp only [Option.map_some, value]
  simp [low, high]

/-! ## The literals of reals -/

def isFinite32 (bits : UInt32) : Bool := bits &&& 0x7F800000 != 0x7F800000
def isFinite64 (bits : UInt64) : Bool := bits &&& 0x7FF0000000000000 != 0x7FF0000000000000

/-- How a real type is documented to be written for debugging: finite values by decimal numerals
that are read back as the same value, and the others by their names. -/
structure ReadsBack {α : Type} (literal : Text → Option α) (write : α → Text)
    (isFinite : α → Bool) (negate : α → α) : Prop where
  finite : ∀ bits, isFinite bits = true → ∃ digits magnitude, IsDecimal digits ∧
    literal digits = some magnitude ∧
    (write bits = digits ∧ bits = magnitude ∨ write bits = '-' :: digits ∧ bits = negate magnitude)
  special : ∀ bits, isFinite bits = false →
    write bits ∈ ["NaN".toList, "inf".toList, "-inf".toList]

structure Documented (reals : RealLiterals) (texts : RealTexts) : Prop where
  real32 : ReadsBack reals.real32 texts.real32 isFinite32 RustSource.negate32
  real64 : ReadsBack reals.real64 texts.real64 isFinite64 RustSource.negate64

/-- Whether a literal has a minus sign in front, and what is behind the sign. -/
def isNegative (text : Text) : Bool := text.head? == some '-'
def magnitude (text : Text) : Text := if isNegative text then text.tail else text

theorem isNegative_of_isWord {text : Text} (word : IsWord text) : isNegative text = false := by
  rcases text with _ | ⟨first, more⟩
  · rfl
  · by_cases sign : first = '-'
    · subst sign
      have first : Token.step .between '-' = ([.mark '-'], .between) := by decide
      rw [IsWord, Token.scan, first] at word
      cases congrArg Prod.fst word
    · simp [isNegative, sign]

theorem magnitude_of_isWord {text : Text} (word : IsWord text) : magnitude text = text := by
  rw [magnitude, isNegative_of_isWord word]
  rfl

section Reals

variable {α : Type} {literal : Text → Option α} {write : α → Text} {isFinite : α → Bool}
  {negate : α → α} {type : Text} {bits : α}

theorem isWord_real (documented : ReadsBack literal write isFinite negate)
    (wordChars : ∀ char ∈ type, Token.isWordChar char = true) :
    IsWord (magnitude (write bits ++ type)) := by
  cases finite : isFinite bits with
  | true =>
      rcases documented.finite bits finite with
        ⟨digits, value, decimal, -, ⟨same, -⟩ | ⟨same, -⟩⟩
      · have word := Token.isWord_append decimal.isWord wordChars
        rw [same, magnitude_of_isWord word]
        exact word
      · rw [same]
        exact Token.isWord_append decimal.isWord wordChars
  | false =>
      have special := documented.special bits finite
      simp only [List.mem_cons, List.not_mem_nil, or_false] at special
      rcases special with same | same | same
      all_goals
        rw [same]
        exact Token.isWord_append (by decide) wordChars

theorem isWordChar_suffix :
    (∀ char ∈ "f32".toList, Token.isWordChar char = true) ∧
      ∀ char ∈ "f64".toList, Token.isWordChar char = true :=
  ⟨List.all_eq_true.mp (by decide), List.all_eq_true.mp (by decide)⟩

theorem stripSuffix_append (text type : Text) :
    Text.stripSuffix type (text ++ type) = some text := by
  have begins : type.reverse.isPrefixOf (text ++ type).reverse = true := by
    rw [List.reverse_append]
    exact List.isPrefixOf_iff_prefix.mpr (List.prefix_append _ _)
  rw [Text.stripSuffix, Text.stripPrefix, if_pos begins, List.reverse_append, List.drop_left,
    Option.map_some, List.reverse_reverse]

theorem head_of_isDecimal {digits : Text} (decimal : IsDecimal digits) :
    digits.head?.any Token.isDigit = true := by
  rcases decimal with ⟨_ | ⟨first, more⟩, fraction, exponent, rfl, areDigits, -⟩
  · exact absurd rfl areDigits.1
  · exact areDigits.2 first List.mem_cons_self

theorem real_finite (documented : ReadsBack literal write isFinite negate)
    (wordChars : ∀ char ∈ type, Token.isWordChar char = true) (finite : isFinite bits = true) :
    real literal negate type (isNegative (write bits ++ type)) (magnitude (write bits ++ type)) =
      some bits := by
  rcases documented.finite bits finite with
    ⟨digits, value, decimal, reads, ⟨same, rfl⟩ | ⟨same, rfl⟩⟩
  · have word := Token.isWord_append decimal.isWord wordChars
    rw [same, isNegative_of_isWord word, magnitude_of_isWord word, real, stripSuffix_append]
    simp [head_of_isDecimal decimal, reads]
  · have negative : isNegative ('-' :: digits ++ type) = true := rfl
    have behind : magnitude ('-' :: digits ++ type) = digits ++ type := rfl
    rw [same, negative, behind, real, stripSuffix_append]
    simp [head_of_isDecimal decimal, reads]

theorem real_special (documented : ReadsBack literal write isFinite negate)
    (special : isFinite bits = false) :
    real literal negate type (isNegative (write bits ++ type)) (magnitude (write bits ++ type)) =
      none := by
  have named := documented.special bits special
  simp only [List.mem_cons, List.not_mem_nil, or_false] at named
  have noDigit : ∀ name : Text, name.head?.any Token.isDigit = false →
      ∀ negative, real literal negate type negative (name ++ type) = none := by
    intro name plain negative
    rw [real, stripSuffix_append]
    simp [plain]
  rcases named with same | same | same
  · rw [same]
    exact noDigit "NaN".toList (by decide) false
  · rw [same]
    exact noDigit "inf".toList (by decide) false
  · rw [same]
    exact noDigit "inf".toList (by decide) true

end Reals

/-! ## The generated source as a program -/

def variant : DataType → Text
  | .boolean => "Boolean".toList
  | .unsigned8 => "Unsigned8".toList
  | .unsigned16 => "Unsigned16".toList
  | .unsigned32 => "Unsigned32".toList
  | .unsigned64 => "Unsigned64".toList
  | .integer8 => "Integer8".toList
  | .integer16 => "Integer16".toList
  | .integer32 => "Integer32".toList
  | .integer64 => "Integer64".toList
  | .real32 => "Real32".toList
  | .real64 => "Real64".toList
  | .visibleString => "VisibleString".toList
  | .octetString => "OctetString".toList
  | .domain => "Domain".toList

def literalArgument (text : Text) : Argument := .literal (isNegative text) (magnitude text)

def bytesArgument (bytes : List UInt8) : Argument :=
  .bytes (bytes.map fun byte => hexadecimal 2 byte.toNat)

def argument (texts : RealTexts) : Value → Argument
  | .boolean value => literalArgument (if value then "true".toList else "false".toList)
  | .unsigned8 value => literalArgument (hexadecimal 2 value.toNat)
  | .unsigned16 value => literalArgument (hexadecimal 4 value.toNat)
  | .unsigned32 value => literalArgument (hexadecimal 8 value.toNat)
  | .unsigned64 value => literalArgument (hexadecimal 16 value.toNat)
  | .integer8 value => literalArgument (signedDecimal value.toInt)
  | .integer16 value => literalArgument (signedDecimal value.toInt)
  | .integer32 value => literalArgument (signedDecimal value.toInt)
  | .integer64 value => literalArgument (signedDecimal value.toInt)
  | .real32 bits => literalArgument (texts.real32 bits ++ "f32".toList)
  | .real64 bits => literalArgument (texts.real64 bits ++ "f64".toList)
  | .visibleString string | .octetString string | .domain string => bytesArgument string.bytes

def insertion (texts : RealTexts) (object : ObjectDescription) : Insertion where
  index := hexadecimal 4 object.address.index.toNat
  subindex := hexadecimal 2 object.address.subindex.toNat
  variant := variant object.defaultValue.dataType
  argument := argument texts object.defaultValue
  access := accessVariant object.access

def program (texts : RealTexts) (eds : Eds) (fnName : Text) : Program where
  name := fnName
  capacity := decimal eds.objects.length
  insertions := eds.objects.map (insertion texts)

theorem reads_literal {text : Text} (word : IsWord (magnitude text)) :
    Reads RustSource.literal (text ++ ")".toList) (literalArgument text) := by
  have reads : ∀ negative, Reads (do
      let found ← Reader.wordThen ")".toList
      pure (Argument.literal negative found)) (magnitude text ++ ")".toList)
      (.literal negative (magnitude text)) := fun negative =>
    (reads_wordThen word (by decide)).map
  cases sign : isNegative text with
  | true =>
      rcases text with _ | ⟨first, more⟩
      · cases sign
      · have minus : first = '-' := by simpa [isNegative] using sign
        subst minus
        have marked : Reads (Reader.mark '-') ['-'] true := fun back => by
          rw [Token.lex_append (by decide)]
          rfl
        exact marked.bind (reads true)
  | false =>
      have same : magnitude text = text := by simp [magnitude, sign]
      rw [same] at reads word
      rw [literalArgument, sign, same]
      have closes : Reader.WritesBehind ")".toList ")".toList := by decide
      exact Reads.after (Reader.mark_of_word word closes '-') (reads false)

theorem reads_items (bytes : List UInt8) :
    Reads RustSource.items (byteList bytes ++ "]".toList)
      (bytes.map fun byte => hexadecimal 2 byte.toNat) := by
  induction bytes with
  | nil =>
      intro back
      rw [byteList, List.nil_append, Token.lex_append (by decide)]
      rfl
  | cons byte bytes induction =>
      intro back
      have word := isWord_hexadecimal 2 byte.toNat
      cases bytes with
      | nil =>
          rw [byteList, List.append_assoc, Token.lex_word_append word (by decide) (by decide)]
          rfl
      | cons second others =>
          rw [byteList, List.append_assoc, List.append_assoc, List.append_assoc,
            Token.lex_word_append word (by decide) (by decide), ← List.append_assoc]
          show (RustSource.items (Token.lex (byteList (second :: others) ++ "]".toList ++ back)) >>=
            fun result => some (hexadecimal 2 byte.toNat :: result.1, result.2)) = _
          rw [induction back]
          rfl

theorem reads_byteString (bytes : List UInt8) :
    Reads RustSource.byteString ("canopen_rs::ByteString::from_bytes(&[".toList ++
      ((byteList bytes ++ "]".toList) ++ ").unwrap())".toList)) (bytesArgument bytes) := by
  refine (reads_phrase (by decide)).bind ?_
  refine (reads_items bytes).bind ?_
  exact (reads_phrase (by decide)).map

theorem literal_of_byteString (back : Text) :
    RustSource.literal (Token.lex ("canopen_rs::ByteString::from_bytes(&[".toList ++ back)) =
      none := by
  rw [Token.lex_append (by decide)]
  have tokens : Token.lex "canopen_rs::ByteString::from_bytes(&[".toList =
      .word "canopen_rs".toList :: .mark ':' :: .mark ':' :: .word "ByteString".toList ::
        .mark ':' :: .mark ':' :: .word "from_bytes".toList :: .mark '(' :: .mark '&' ::
        [.mark '['] := by decide
  rw [tokens]
  rfl

section Reading

variable {reals : RealLiterals} {texts : RealTexts}

theorem reads_argument (documented : Documented reals texts) (value : Value) :
    ∃ text, valueLiteral texts value = "canopen_rs::Value::".toList ++ variant value.dataType ++
        ("(".toList ++ text) ∧
      Reads (RustSource.literal <|> RustSource.byteString) text (argument texts value) := by
  have fixed : ∀ literal : Text, IsWord (magnitude literal) →
      Reads (RustSource.literal <|> RustSource.byteString) (literal ++ ")".toList)
        (literalArgument literal) := fun literal word => (reads_literal word).orElse
  have string : ∀ bytes, Reads (RustSource.literal <|> RustSource.byteString)
      ("canopen_rs::ByteString::from_bytes(&[".toList ++
        ((byteList bytes ++ "]".toList) ++ ").unwrap())".toList)) (bytesArgument bytes) :=
    fun bytes => (reads_byteString bytes).otherwise fun back => by
      rw [List.append_assoc]
      exact literal_of_byteString _
  have hex : ∀ digits number, IsWord (magnitude (hexadecimal digits number)) := fun digits number =>
    (magnitude_of_isWord (isWord_hexadecimal digits number)).symm ▸
      isWord_hexadecimal digits number
  have signed : ∀ number : Int, IsWord (magnitude (signedDecimal number)) := by
    intro number
    rw [signedDecimal]
    split
    · exact isWord_decimal _
    · exact (magnitude_of_isWord (isWord_decimal _)).symm ▸ isWord_decimal _
  have layout : ∀ name literal : Text, fixedLiteral name literal =
      "canopen_rs::Value::".toList ++ name ++ ("(".toList ++ (literal ++ ")".toList)) := by
    intro name literal
    unfold fixedLiteral
    exact (List.append_assoc _ _ _).trans (List.append_assoc _ _ _)
  have stringLayout : ∀ name bytes, stringLiteral name bytes =
      "canopen_rs::Value::".toList ++ name ++ ("(".toList ++
        ("canopen_rs::ByteString::from_bytes(&[".toList ++
          ((byteList bytes ++ "]".toList) ++ ").unwrap())".toList))) := by
    intro name bytes
    unfold stringLiteral
    generalize "canopen_rs::ByteString::from_bytes(&[".toList = opening
    generalize ").unwrap())".toList = closing
    generalize "canopen_rs::Value::".toList = path
    simp only [List.append_assoc]
  cases value with
  | boolean value => exact ⟨_, layout _ _, fixed _ (by cases value <;> decide)⟩
  | unsigned8 | unsigned16 | unsigned32 | unsigned64 => exact ⟨_, layout _ _, fixed _ (hex _ _)⟩
  | integer8 | integer16 | integer32 | integer64 => exact ⟨_, layout _ _, fixed _ (signed _)⟩
  | real32 => exact ⟨_, layout _ _, fixed _ (isWord_real documented.real32 isWordChar_suffix.1)⟩
  | real64 => exact ⟨_, layout _ _, fixed _ (isWord_real documented.real64 isWordChar_suffix.2)⟩
  | visibleString | octetString | domain => exact ⟨_, stringLayout _ _, string _⟩

theorem isWord_variant (dataType : DataType) : IsWord (variant dataType) := by
  cases dataType <;> decide

theorem isWord_accessVariant (access : AccessType) : IsWord (accessVariant access) := by
  cases access <;> decide

theorem reads_insertion (documented : Documented reals texts) (object : ObjectDescription) :
    Reads RustSource.insertion (insertLine texts object) (insertion texts object) := by
  rcases reads_argument documented object.defaultValue with ⟨text, layout, reads⟩
  have same : insertLine texts object =
      "    od.insert(canopen_rs::Address::new(".toList ++
        (hexadecimal 4 object.address.index.toNat ++ ", ".toList ++
        (hexadecimal 2 object.address.subindex.toNat ++
          ("), canopen_rs::Entry \x7b value: ".toList ++ "canopen_rs::Value::".toList) ++
        (variant object.defaultValue.dataType ++ "(".toList ++
        (text ++
        (", access: canopen_rs::AccessType::".toList ++
        (accessVariant object.access ++ " \x7d).unwrap();\n".toList)))))) := by
    unfold insertLine
    rw [layout]
    generalize "    od.insert(canopen_rs::Address::new(".toList = opening
    generalize "), canopen_rs::Entry \x7b value: ".toList = between
    generalize "canopen_rs::Value::".toList = path
    generalize ", access: canopen_rs::AccessType::".toList = access
    generalize " \x7d).unwrap();\n".toList = closing
    simp only [List.append_assoc]
  rw [same]
  refine (reads_phrase (by decide)).bind ?_
  refine (reads_wordThen (isWord_hexadecimal _ _) (by decide)).bind ?_
  refine (reads_wordThen (isWord_hexadecimal _ _) (by decide)).bind ?_
  refine (reads_wordThen (isWord_variant _) (by decide)).bind ?_
  refine reads.bind ?_
  refine (reads_phrase (by decide)).bind ?_
  exact (reads_wordThen (isWord_accessVariant _) (by decide)).map

theorem insertion_of_end (back : Text) :
    RustSource.insertion (Token.lex ("    od\n\x7d\n".toList ++ back)) = none := by
  rw [Token.lex_append (by decide)]
  have tokens : Token.lex "    od\n\x7d\n".toList = [.word "od".toList, .mark '\x7d'] := by
    decide
  have opening : Token.lex "od.insert(canopen_rs::Address::new(".toList =
      .word "od".toList :: .mark '.' ::
        (Token.lex "insert(canopen_rs::Address::new(".toList) := by decide
  refine Reader.bind_eq_none ?_
  unfold Reader.phrase
  rw [opening, tokens]
  rfl

theorem reads_insertions (documented : Documented reals texts) {objects : List ObjectDescription}
    {fuel : Nat} (enough : objects.length < fuel) :
    Reads (RustSource.insertions fuel)
      (objects.flatMap (insertLine texts) ++ "    od\n\x7d\n".toList)
      (objects.map (insertion texts)) := by
  induction objects generalizing fuel with
  | nil =>
      cases fuel with
      | zero => cases enough
      | succ fuel =>
          rw [List.flatMap_nil, List.nil_append]
          exact Reads.otherwise (fun back => Reader.bind_eq_none (insertion_of_end back))
            (reads_phrase (by decide)).map
  | cons object objects induction =>
      cases fuel with
      | zero => cases enough
      | succ fuel =>
          rw [List.flatMap_cons, List.append_assoc]
          exact ((reads_insertion documented object).bind
            (induction (Nat.lt_of_succ_lt_succ enough)).map).orElse

theorem length_le_flatMap (texts : RealTexts) (objects : List ObjectDescription) :
    objects.length ≤ (objects.flatMap (insertLine texts)).length := by
  induction objects with
  | nil => exact Nat.le_refl 0
  | cons object objects induction =>
      have line : 0 < (insertLine texts object).length := by
        unfold insertLine
        simp only [List.length_append]
        exact Nat.lt_of_lt_of_le (by decide) (Nat.le_add_left
          " \x7d).unwrap();\n".toList.length _)
      rw [List.flatMap_cons, List.length_append, List.length_cons]
      omega

theorem read_generated (documented : Documented reals texts) (eds : Eds) {fnName : Text}
    (word : IsWord fnName) :
    RustSource.read (generateObjectDictionary texts eds fnName) =
      some (program texts eds fnName) := by
  have same : generateObjectDictionary texts eds fnName =
      ("/// Object dictionary generated from an EDS by canopen-host.\n".toList ++
        "pub fn ".toList) ++
      ((fnName ++ "() -> canopen_rs::ObjectDictionary<".toList) ++
      ((decimal eds.objects.length ++ ("> \x7b\n".toList ++
        "    let mut od = canopen_rs::ObjectDictionary::new();\n".toList)) ++
      (eds.objects.flatMap (insertLine texts) ++ ("    od\n".toList ++ "\x7d\n".toList)))) := by
    unfold generateObjectDictionary
    generalize "/// Object dictionary generated from an EDS by canopen-host.\n".toList = comment
    generalize "() -> canopen_rs::ObjectDictionary<".toList = result
    generalize "    let mut od = canopen_rs::ObjectDictionary::new();\n".toList = begins
    simp only [List.append_assoc]
  have enough : eds.objects.length < (generateObjectDictionary texts eds fnName).length := by
    have lines := length_le_flatMap texts eds.objects
    have closing : 0 < ("    od\n".toList ++ "\x7d\n".toList).length := by decide
    rw [same]
    simp only [List.length_append] at closing ⊢
    omega
  have reads : Reads (RustSource.program (generateObjectDictionary texts eds fnName).length)
      (generateObjectDictionary texts eds fnName) (program texts eds fnName) := by
    generalize (generateObjectDictionary texts eds fnName).length = fuel at enough ⊢
    rw [same]
    refine (reads_phrase (by decide)).bind ?_
    refine (reads_wordThen word (by decide)).bind ?_
    refine (reads_wordThen (isWord_decimal _) (by decide)).bind ?_
    exact (reads_insertions documented enough).map
  have all := reads []
  rw [List.append_nil] at all
  unfold RustSource.read
  rw [all]
  rfl

/-! ## The program as a dictionary -/

/-- A value whose literal stands for it: a real that is not a number or is infinite has none. -/
def isFinite : Value → Bool
  | .real32 bits => isFinite32 bits
  | .real64 bits => isFinite64 bits
  | _ => true

theorem constructorType_variant (dataType : DataType) :
    RustSource.constructorType (variant dataType) = some dataType := by
  cases dataType <;> decide

theorem accessVariant_accessVariant (access : AccessType) :
    RustSource.accessVariant (accessVariant access) = some access := by
  cases access <;> decide

theorem argumentValue_bytes {dataType : DataType} {make : ByteString → Value}
    (isString : RustSource.stringValue dataType = some make) (string : ByteString) :
    RustSource.argumentValue reals dataType (bytesArgument string.bytes) =
      some (pure (make string)) := by
  have bytes : (string.bytes.map fun byte => hexadecimal 2 byte.toNat).mapM (fun item =>
      (unsigned 0xFF false item).map UInt8.ofNat) = some string.bytes := by
    rw [List.mapM_map]
    have each : ∀ byte ∈ string.bytes, ((fun item => (unsigned 0xFF false item).map UInt8.ofNat) ∘
        fun byte : UInt8 => hexadecimal 2 byte.toNat) byte = some (id byte) := by
      intro byte _
      rw [Function.comp_apply, unsigned_hexadecimal (by omega) (Nat.le_of_lt_succ byte.toNat_lt),
        Option.map_some, UInt8.ofNat_toNat]
      rfl
    rw [mapM_eq_some each, List.map_id]
  have made : ByteString.fromBytes string.bytes = .ok string := by
    rw [ByteString.fromBytes, dif_pos string.length_le]
  rw [bytesArgument, RustSource.argumentValue, isString]
  simp only [Option.bind_eq_bind, Option.bind_some, bytes, made]
  rfl

section Numbers

variable {bits digits number greatest : Nat} {integer : Int} (dataType : DataType)

theorem literal_unsigned (wide : 1 ≤ digits) (fits : number ≤ greatest) (make : Nat → Value) :
    ((unsigned greatest (isNegative (hexadecimal digits number))
      (magnitude (hexadecimal digits number))).map make).map (pure : Value → Exec Value) =
      some (pure (make number)) := by
  have read : unsigned greatest (isNegative (hexadecimal digits number))
      (magnitude (hexadecimal digits number)) = some number := unsigned_hexadecimal wide fits
  rw [read]
  rfl

theorem literal_signed (low : -2 ^ (bits - 1) ≤ integer) (high : integer < 2 ^ (bits - 1))
    (make : Int → Value) :
    ((signed bits (isNegative (signedDecimal integer))
      (magnitude (signedDecimal integer))).map make).map (pure : Value → Exec Value) =
      some (pure (make integer)) := by
  have read := signed_decimal low high
  rw [signedDecimal]
  split
  · next negative =>
      rw [decide_eq_true negative] at read
      show ((signed bits true (decimal integer.natAbs)).map make).map _ = _
      rw [read]
      rfl
  · next positive =>
      rw [decide_eq_false positive] at read
      rw [isNegative_of_isWord (isWord_decimal _), magnitude_of_isWord (isWord_decimal _), read]
      rfl

end Numbers

theorem argumentValue_argument (documented : Documented reals texts) (value : Value) :
    RustSource.argumentValue reals value.dataType (argument texts value) =
      if isFinite value then some (pure value) else none := by
  cases value with
  | boolean value => cases value <;> rfl
  | unsigned8 value =>
      have fits := Nat.le_of_lt_succ value.toNat_lt
      refine (literal_unsigned (by omega) fits fun n => .unsigned8 (UInt8.ofNat n)).trans ?_
      simp [isFinite]
  | unsigned16 value =>
      have fits := Nat.le_of_lt_succ value.toNat_lt
      refine (literal_unsigned (by omega) fits fun n => .unsigned16 (UInt16.ofNat n)).trans ?_
      simp [isFinite]
  | unsigned32 value =>
      have fits := Nat.le_of_lt_succ value.toNat_lt
      refine (literal_unsigned (by omega) fits fun n => .unsigned32 (UInt32.ofNat n)).trans ?_
      simp [isFinite]
  | unsigned64 value =>
      have fits := Nat.le_of_lt_succ value.toNat_lt
      refine (literal_unsigned (by omega) fits fun n => .unsigned64 (UInt64.ofNat n)).trans ?_
      simp [isFinite]
  | integer8 value =>
      refine (literal_signed value.le_toInt value.toInt_lt fun n =>
        .integer8 (Int8.ofInt n)).trans ?_
      simp [isFinite]
  | integer16 value =>
      refine (literal_signed value.le_toInt value.toInt_lt fun n =>
        .integer16 (Int16.ofInt n)).trans ?_
      simp [isFinite]
  | integer32 value =>
      refine (literal_signed value.le_toInt value.toInt_lt fun n =>
        .integer32 (Int32.ofInt n)).trans ?_
      simp [isFinite]
  | integer64 value =>
      refine (literal_signed value.le_toInt value.toInt_lt fun n =>
        .integer64 (Int64.ofInt n)).trans ?_
      simp [isFinite]
  | real32 bits =>
      show ((real _ _ _ _ _).map _).map _ = if isFinite32 bits then _ else _
      cases finite : isFinite32 bits with
      | true => rw [real_finite documented.real32 isWordChar_suffix.1 finite]; rfl
      | false => rw [real_special documented.real32 finite]; rfl
  | real64 bits =>
      show ((real _ _ _ _ _).map _).map _ = if isFinite64 bits then _ else _
      cases finite : isFinite64 bits with
      | true => rw [real_finite documented.real64 isWordChar_suffix.2 finite]; rfl
      | false => rw [real_special documented.real64 finite]; rfl
  | visibleString string | octetString string | domain string =>
      exact argumentValue_bytes rfl string

theorem checkInsertion_insertion (documented : Documented reals texts)
    (object : ObjectDescription) :
    RustSource.checkInsertion reals (insertion texts object) =
      if isFinite object.defaultValue then some (object.address, pure object.entry) else none := by
  have index : unsigned 0xFFFF false (hexadecimal 4 object.address.index.toNat) =
      some object.address.index.toNat :=
    unsigned_hexadecimal (by omega) (Nat.le_of_lt_succ object.address.index.toNat_lt)
  have subindex : unsigned 0xFF false (hexadecimal 2 object.address.subindex.toNat) =
      some object.address.subindex.toNat :=
    unsigned_hexadecimal (by omega) (Nat.le_of_lt_succ object.address.subindex.toNat_lt)
  rw [RustSource.checkInsertion]
  simp only [insertion, index, subindex, constructorType_variant, accessVariant_accessVariant,
    argumentValue_argument documented, Option.bind_eq_bind, Option.bind_some]
  split
  · simp only [Option.bind_some, UInt16.ofNat_toNat, UInt8.ofNat_toNat]
    rfl
  · rfl

end Reading

/-! ## Building the dictionary -/

theorem exists_insert {N : Nat} {od : ObjectDictionary N} (room : od.entries.length < N)
    (addr : Address) (entry : Entry) :
    ∃ next, od.insert addr entry = .ok next ∧ next.entries.length ≤ od.entries.length + 1 := by
  unfold ObjectDictionary.insert
  split
  · refine ⟨_, rfl, ?_⟩
    rw [ObjectDictionary.replace, List.length_map]
    omega
  · refine ⟨_, rfl, ?_⟩
    rw [List.length_append]
    rfl

theorem run_eq {N : Nat} {objects : List ObjectDescription} {start : ObjectDictionary N}
    (room : start.entries.length + objects.length ≤ N) :
    ∃ od, objects.foldlM (fun od object =>
        (od.insert object.address object.entry).mapError fun _ => EdsError.tooManyObjects) start =
          .ok od ∧
      (objects.map fun object =>
        (object.address, (pure object.entry : Exec Entry))).foldlM (fun od insertion => do
          let entry ← insertion.2
          Exec.unwrap (od.insert insertion.1 entry).toOption) start = pure od := by
  induction objects generalizing start with
  | nil => exact ⟨start, rfl, rfl⟩
  | cons object objects induction =>
      rw [List.length_cons] at room
      rcases exists_insert (show start.entries.length < N by omega) object.address object.entry with
        ⟨next, inserts, bound⟩
      rcases @induction next (by omega) with ⟨od, builds, runs⟩
      refine ⟨od, ?_, ?_⟩
      · rw [List.foldlM_cons, inserts]
        exact builds
      · rw [List.map_cons, List.foldlM_cons, pure_bind, inserts]
        exact runs

/-- The generated source compiles exactly if every real among the values is finite, and then the
function builds the dictionary of the data sheet. -/
theorem generated_source_builds {reals : RealLiterals} {texts : RealTexts}
    (documented : Documented reals texts) (eds : Eds) {fnName : Text}
    (identifier : RustSource.isIdentifier fnName = true) :
    (RustSource.compile reals (generateObjectDictionary texts eds fnName) = none ↔
      ∃ object ∈ eds.objects, isFinite object.defaultValue = false) ∧
    ∀ function, RustSource.compile reals (generateObjectDictionary texts eds fnName) =
        some function →
      ∃ od, eds.objectDictionary eds.objects.length = .ok od ∧
        function = ⟨fnName, eds.objects.length, pure od⟩ := by
  have word : IsWord fnName := by
    simp only [RustSource.isIdentifier, Bool.and_eq_true, List.all_eq_true] at identifier
    refine Token.isWord_of_isWordChar ?_ identifier.1.2
    rintro rfl
    exact absurd identifier.1.1 (by decide)
  have compiled : RustSource.compile reals (generateObjectDictionary texts eds fnName) =
      (eds.objects.mapM (RustSource.checkInsertion reals ∘ insertion texts)).map fun insertions =>
        ⟨fnName, eds.objects.length, RustSource.run eds.objects.length insertions⟩ := by
    rw [RustSource.compile, read_generated documented eds word]
    simp only [program, integerLiteral_decimal, Option.bind_eq_bind, Option.bind_some,
      List.mapM_map, identifier, if_true]
    cases eds.objects.mapM (RustSource.checkInsertion reals ∘ insertion texts) <;> rfl
  have checks := fun object => checkInsertion_insertion documented object
  rw [compiled]
  constructor
  · rw [Option.map_eq_none_iff, mapM_eq_none_iff]
    refine exists_congr fun object => and_congr_right fun _ => ?_
    rw [Function.comp_apply, checks]
    cases isFinite object.defaultValue <;> simp
  · intro function isFunction
    rcases Option.map_eq_some_iff.mp isFunction with ⟨insertions, checked, rfl⟩
    have finite : ∀ object ∈ eds.objects, isFinite object.defaultValue = true := by
      intro object member
      by_contra special
      have fails : eds.objects.mapM (RustSource.checkInsertion reals ∘ insertion texts) = none :=
        mapM_eq_none_iff.mpr
          ⟨object, member, by rw [Function.comp_apply, checks, if_neg special]⟩
      rw [checked] at fails
      cases fails
    have all : eds.objects.mapM (RustSource.checkInsertion reals ∘ insertion texts) = some _ :=
      mapM_eq_some fun object member => by
        rw [Function.comp_apply, checks, if_pos (finite object member)]
    rw [checked, Option.some.injEq] at all
    subst all
    rcases @run_eq eds.objects.length eds.objects .new (by simp [ObjectDictionary.new]) with
      ⟨od, builds, runs⟩
    exact ⟨od, builds, by rw [RustSource.run, runs]⟩

/-! ## A data sheet and its source -/

theorem areDigits_decimal (number : Nat) : Token.AreDigits (decimal number) := by
  have digit : ∀ value : Fin 10, Token.isDigit (Nat.digitChar value) = true := by decide
  refine ⟨Text.numeral_ne_nil (by omega) 10 number, fun char member => ?_⟩
  rcases Text.exists_digit_of_mem_numeral (by omega) member with ⟨value, below, rfl⟩
  exact digit ⟨value, below⟩

section Patterns

variable {α : Type} (toNat : α → Nat) (ofNat : Nat → α) (isFinite : α → Bool) (half : Nat)

def patternText (bits : α) : Text :=
  if isFinite bits then
    if toNat bits < half then decimal (toNat bits) else '-' :: decimal (toNat bits - half)
  else "NaN".toList

def patternLiteral (text : Text) : Option α := (Text.digitsValue 10 text).map ofNat

theorem readsBack_pattern (negate : α → α) (same : ∀ bits, ofNat (toNat bits) = bits)
    (negated : ∀ number, negate (ofNat number) = ofNat (number + half)) :
    ReadsBack (patternLiteral ofNat) (patternText toNat isFinite half) isFinite negate := by
  have read : ∀ number, patternLiteral ofNat (decimal number) = some (ofNat number) :=
    fun number => by
      rw [patternLiteral, decimal, Text.digitsValue_numeral (by omega) (by omega) (by omega),
        Option.map_some]
  have numeral : ∀ number, IsDecimal (decimal number) := fun number =>
    ⟨decimal number, [], [], by simp, areDigits_decimal number, .inl rfl, .inl rfl⟩
  constructor
  · intro bits finite
    rw [patternText, if_pos finite]
    by_cases small : toNat bits < half
    · rw [if_pos small]
      exact ⟨_, _, numeral _, read _, .inl ⟨rfl, (same bits).symm⟩⟩
    · rw [if_neg small]
      refine ⟨_, _, numeral _, read _, .inr ⟨rfl, ?_⟩⟩
      rw [negated, Nat.sub_add_cancel (Nat.not_lt.mp small), same]
  · intro bits special
    rw [patternText, if_neg (by simp [special])]
    simp

end Patterns

/-- A data sheet with a device type, a device name and a negative real. -/
theorem generated_source_builds_device :
    let reals : RealLiterals := ⟨patternLiteral UInt32.ofNat, patternLiteral UInt64.ofNat⟩
    let texts : RealTexts := ⟨patternText UInt32.toNat isFinite32 0x80000000,
      patternText UInt64.toNat isFinite64 0x8000000000000000⟩
    let object (index : UInt16) (dataType : DataType) (value : Value) : ObjectDescription :=
      ⟨⟨index, 0⟩, [], dataType, .ro, value, false⟩
    let eds : Eds := ⟨none, none, none, [object 0x1000 .unsigned32 (.unsigned32 0x40192),
      object 0x1008 .visibleString (.visibleString ⟨[0x57, 0x69, 0x64, 0x67], by decide⟩),
      object 0x6000 .real32 (.real32 0xBFC00000)]⟩
    ∃ od, eds.objectDictionary 3 = .ok od ∧
      RustSource.compile reals (generateObjectDictionary texts eds "device_od".toList) =
        some ⟨"device_od".toList, 3, pure od⟩ := by
  intro reals texts object eds
  have documented : Documented reals texts :=
    ⟨readsBack_pattern _ _ _ _ RustSource.negate32 (fun bits => bits.ofNat_toNat) fun number =>
      (UInt32.ofNat_add number 0x80000000).symm,
    readsBack_pattern _ _ _ _ RustSource.negate64 (fun bits => bits.ofNat_toNat) fun number =>
      (UInt64.ofNat_add number 0x8000000000000000).symm⟩
  rcases @generated_source_builds reals texts documented eds "device_od".toList (by decide) with
    ⟨compiles, builds⟩
  cases compiled : RustSource.compile reals
      (generateObjectDictionary texts eds "device_od".toList) with
  | none =>
      rcases compiles.mp compiled with ⟨other, member, special⟩
      simp only [eds, List.mem_cons, List.not_mem_nil, or_false] at member
      rcases member with rfl | rfl | rfl <;> exact absurd special (by decide)
  | some function =>
      rcases builds function compiled with ⟨od, built, rfl⟩
      exact ⟨od, built, rfl⟩

end Codegen

end CanOpen
