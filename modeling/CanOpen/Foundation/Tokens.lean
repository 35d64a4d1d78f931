import CanOpen.Foundation.Numerals

/-! # Tokens

Source text as words and marks: names, keywords and numerals on the one hand, single characters of
punctuation on the other. White space and comments to the end of a line separate words.
-/

namespace CanOpen

inductive Token where
  | word (text : Text)
  | mark (char : Char)
  deriving DecidableEq, Repr

namespace Token

def isDigit (char : Char) : Bool := '0' ≤ char && char ≤ '9'

def isWordChar (char : Char) : Bool :=
  isDigit char || ('a' ≤ char && char ≤ 'z') || ('A' ≤ char && char ≤ 'Z') || char == '_'

def beginsDecimal (text : Text) : Bool :=
  text.head?.any isDigit && !"0x".toList.isPrefixOf text

inductive Mode where
  | between
  | slash
  | comment
  | word (text : Text)
  -- a decimal numeral and a point, which belongs to it if a digit follows
  | point (text : Text)
  deriving DecidableEq, Repr

def start (char : Char) : List Token × Mode :=
  if Text.isWhitespace char then ([], .between)
  else if char = '/' then ([], .slash)
  else if isWordChar char then ([], .word [char])
  else ([.mark char], .between)

def endedBy (tokens : List Token) (char : Char) : List Token × Mode :=
  (tokens ++ (start char).1, (start char).2)

def isExponentSign (text : Text) (char : Char) : Bool :=
  beginsDecimal text && (char == '+' || char == '-') && text.getLast?.any fun last =>
    last == 'e' || last == 'E'

def step : Mode → Char → List Token × Mode
  | .between, char => start char
  | .slash, char => if char = '/' then ([], .comment) else endedBy [.mark '/'] char
  | .comment, char => ([], if char = '\n' then .between else .comment)
  | .word text, char =>
      if isWordChar char || isExponentSign text char then ([], .word (text ++ [char]))
      else if beginsDecimal text && char == '.' then ([], .point text)
      else endedBy [.word text] char
  | .point text, char =>
      if isDigit char then ([], .word (text ++ ['.', char]))
      else endedBy [.word text, .mark '.'] char

/-- The tokens of a text, from a mode on, without those that are not completed. -/
def scan : Mode → Text → List Token × Mode
  | mode, [] => ([], mode)
  | mode, char :: text =>
      let rest := scan (step mode char).2 text
      ((step mode char).1 ++ rest.1, rest.2)

def finish : Mode → List Token
  | .between | .comment => []
  | .slash => [.mark '/']
  | .word text => [.word text]
  | .point text => [.word text, .mark '.']

def lex (text : Text) : List Token :=
  (scan .between text).1 ++ finish (scan .between text).2

/-! ## Parts of a text -/

theorem scan_append (mode : Mode) (front back : Text) :
    scan mode (front ++ back) =
      ((scan mode front).1 ++ (scan (scan mode front).2 back).1,
        (scan (scan mode front).2 back).2) := by
  induction front generalizing mode with
  | nil => rfl
  | cons char front induction => simp [scan, induction]

def Complete (text : Text) : Prop := (scan .between text).2 = .between

instance (text : Text) : Decidable (Complete text) := by
  unfold Complete
  infer_instance

theorem lex_append {front : Text} (complete : Complete front) (back : Text) :
    lex (front ++ back) = lex front ++ lex back := by
  rw [Complete] at complete
  simp only [lex, scan_append, complete, finish, List.append_nil, List.append_assoc]

/-- A text that is read as one word. -/
def IsWord (text : Text) : Prop := scan .between text = ([], .word text)

instance (text : Text) : Decidable (IsWord text) := by
  unfold IsWord
  infer_instance

theorem scan_word {text more : Text} (word : ∀ char ∈ more, isWordChar char = true) :
    scan (.word text) more = ([], .word (text ++ more)) := by
  induction more generalizing text with
  | nil => simp [scan]
  | cons char more induction =>
      have first : step (.word text) char = ([], .word (text ++ [char])) := by
        simp [step, word char List.mem_cons_self]
      rw [scan, first, induction fun other member => word other (List.mem_cons_of_mem _ member)]
      simp

def endsWord (char : Char) : Bool := !isWordChar char && char ∉ ['.', '+', '-']

theorem lex_word {text : Text} (word : IsWord text) {char : Char} (ends : endsWord char = true)
    (back : Text) : lex (text ++ char :: back) = .word text :: lex (char :: back) := by
  rw [IsWord] at word
  simp only [endsWord, Bool.and_eq_true, Bool.not_eq_true', decide_eq_true_eq, List.mem_cons,
    List.not_mem_nil, or_false, not_or] at ends
  rcases ends with ⟨other, point, plus, minus⟩
  have step : step (.word text) char = endedBy [.word text] char := by
    simp [step, isExponentSign, other, point, plus, minus]
  simp only [lex, scan_append, word, scan, step, endedBy, List.nil_append]
  rfl

theorem lex_word_append {text written : Text} (word : IsWord text)
    (ends : written.head?.any endsWord = true) (complete : Complete written) (back : Text) :
    lex (text ++ (written ++ back)) = .word text :: (lex written ++ lex back) := by
  cases written with
  | nil => cases ends
  | cons char written =>
      rw [List.cons_append, lex_word word ends, ← List.cons_append, lex_append complete]

/-! ## Names and numerals -/

theorem start_of_isWordChar {char : Char} (word : isWordChar char = true) :
    start char = ([], .word [char]) := by
  have plain : Text.isWhitespace char = false ∧ char ≠ '/' := by
    constructor
    · simp only [isWordChar, isDigit, Bool.or_eq_true, Bool.and_eq_true, decide_eq_true_eq,
        beq_iff_eq, Char.le_def, UInt32.le_iff_toNat_le] at word
      simp only [Text.isWhitespace, Char.toNat, Bool.or_eq_false_iff, Bool.and_eq_false_iff,
        decide_eq_false_iff_not, beq_eq_false_iff_ne]
      rcases word with ((word | word) | word) | rfl
      · simp only [show ('0' : Char).val.toNat = 48 from rfl,
          show ('9' : Char).val.toNat = 57 from rfl] at word
        omega
      · simp only [show ('a' : Char).val.toNat = 97 from rfl,
          show ('z' : Char).val.toNat = 122 from rfl] at word
        omega
      · simp only [show ('A' : Char).val.toNat = 65 from rfl,
          show ('Z' : Char).val.toNat = 90 from rfl] at word
        omega
      · decide
    · rintro rfl
      exact absurd word (by decide)
  rw [start, plain.1, if_neg (by simp), if_neg plain.2, if_pos word]

theorem isWord_append {text more : Text} (word : IsWord text)
    (wordChars : ∀ char ∈ more, isWordChar char = true) : IsWord (text ++ more) := by
  rw [IsWord] at word
  rw [IsWord, scan_append, word, scan_word wordChars]
  rfl

theorem isWord_of_isWordChar {text : Text} (nonempty : text ≠ [])
    (wordChars : ∀ char ∈ text, isWordChar char = true) : IsWord text := by
  cases text with
  | nil => exact absurd rfl nonempty
  | cons char text =>
      have first : IsWord [char] := by
        simp [IsWord, scan, step, start_of_isWordChar (wordChars char List.mem_cons_self)]
      exact isWord_append first fun other member => wordChars other (List.mem_cons_of_mem _ member)

private theorem isWordChar_digitChar : ∀ digit : Fin 16,
    isWordChar (Nat.digitChar digit) = true := by decide

theorem isWordChar_of_mem_numeral {radix width number : Nat} (large : 2 ≤ radix)
    (small : radix ≤ 16) {char : Char} (member : char ∈ Text.numeral radix width number) :
    isWordChar char = true := by
  rcases Text.exists_digit_of_mem_numeral large member with ⟨digit, below, rfl⟩
  exact isWordChar_digitChar ⟨digit, by omega⟩

def AreDigits (text : Text) : Prop := text ≠ [] ∧ ∀ char ∈ text, isDigit char = true

theorem AreDigits.isWordChar {text : Text} (digits : AreDigits text) :
    ∀ char ∈ text, isWordChar char = true := by
  intro char member
  rw [Token.isWordChar, digits.2 char member]
  rfl

def IsDecimal (text : Text) : Prop :=
  ∃ whole fraction exponent, text = whole ++ fraction ++ exponent ∧ AreDigits whole ∧
    (fraction = [] ∨ ∃ digits, AreDigits digits ∧ fraction = '.' :: digits) ∧
    (exponent = [] ∨ ∃ digits, AreDigits digits ∧
      (exponent = 'e' :: digits ∨ exponent = 'e' :: '-' :: digits))

theorem beginsDecimal_append {whole tail : Text} (digits : AreDigits whole)
    (plain : tail.head? ≠ some 'x') : beginsDecimal (whole ++ tail) = true := by
  rcases whole with _ | ⟨first, _ | ⟨second, more⟩⟩
  · exact absurd rfl digits.1
  · have digit := digits.2 first List.mem_cons_self
    rcases tail with _ | ⟨second, tail⟩
    · simp [beginsDecimal, digit, List.isPrefixOf]
    · have differs : ¬ 'x' = second := fun equal => plain (by rw [equal]; rfl)
      simp [beginsDecimal, digit, List.isPrefixOf, differs]
  · have digit := digits.2 first List.mem_cons_self
    have differs : ¬ 'x' = second := by
      rintro rfl
      exact absurd (digits.2 'x' (by simp)) (by decide)
    simp [beginsDecimal, digit, List.isPrefixOf, differs]

theorem IsDecimal.isWord {text : Text} (decimal : IsDecimal text) : IsWord text := by
  rcases decimal with ⟨whole, fraction, exponent, rfl, digits, fractional, exponential⟩
  have front : IsWord (whole ++ fraction) := by
    have begins := isWord_of_isWordChar digits.1 digits.isWordChar
    rcases fractional with rfl | ⟨_ | ⟨digit, more⟩, behind, rfl⟩
    · rwa [List.append_nil]
    · exact absurd rfl behind.1
    · have point : step (.word whole) '.' = ([], .point whole) := by
        have numeral : beginsDecimal (whole ++ []) = true := beginsDecimal_append digits (by simp)
        rw [List.append_nil] at numeral
        simp [step, numeral, show Token.isWordChar '.' = false from rfl, isExponentSign]
      have goesOn : step (.point whole) digit = ([], .word (whole ++ ['.', digit])) := by
        simp [step, behind.2 digit List.mem_cons_self]
      rw [IsWord] at begins
      rw [IsWord, scan_append, begins]
      simp only [scan, point, goesOn]
      rw [scan_word fun other member => behind.isWordChar other (List.mem_cons_of_mem _ member)]
      simp
  rcases exponential with rfl | ⟨more, behind, rfl | rfl⟩
  · rwa [List.append_nil]
  · refine isWord_append front fun char member => ?_
    rcases List.mem_cons.mp member with rfl | member
    · rfl
    · exact behind.isWordChar char member
  · have letter : IsWord (whole ++ fraction ++ ['e']) := isWord_append front (by simp; rfl)
    have plain : (fraction ++ ['e']).head? ≠ some 'x' := by
      rcases fractional with rfl | ⟨digits, -, rfl⟩ <;> simp
    have sign : step (.word (whole ++ fraction ++ ['e'])) '-' =
        ([], .word (whole ++ fraction ++ ['e'] ++ ['-'])) := by
      have numeral := beginsDecimal_append digits plain
      simp [step, isExponentSign, numeral, show Token.isWordChar '-' = false from rfl]
    have signed : IsWord (whole ++ fraction ++ ['e'] ++ ['-']) := by
      rw [IsWord] at letter
      rw [IsWord, scan_append, letter]
      simp only [scan, sign]
      rfl
    have same : whole ++ fraction ++ 'e' :: '-' :: more =
        whole ++ fraction ++ ['e'] ++ ['-'] ++ more := by simp
    rw [same]
    exact isWord_append signed behind.isWordChar

end Token

end CanOpen
