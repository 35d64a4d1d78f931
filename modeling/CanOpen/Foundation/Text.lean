import CanOpen.Foundation.Exec

/-! # Text

Text as a list of characters, with the operations of a standard library on it: trimming,
splitting, lines, and integers in a radix.
-/

namespace CanOpen

abbrev Text := List Char

namespace Text

/-! ## Characters -/

def isWhitespace (char : Char) : Bool :=
  let code := char.toNat
  (0x9 ≤ code && code ≤ 0xD) || code == 0x20 || code == 0x85 || code == 0xA0 || code == 0x1680 ||
    (0x2000 ≤ code && code ≤ 0x200A) || code == 0x2028 || code == 0x2029 || code == 0x202F ||
    code == 0x205F || code == 0x3000

def toAsciiLowercase (text : Text) : Text :=
  text.map fun char => if 'A' ≤ char ∧ char ≤ 'Z' then Char.ofNat (char.toNat + 32) else char

def eqIgnoreAsciiCase (left right : Text) : Bool :=
  toAsciiLowercase left == toAsciiLowercase right

def asBytes (text : Text) : List UInt8 := text.flatMap String.utf8EncodeChar

/-! ## Parts of a text -/

def trim (text : Text) : Text :=
  ((text.dropWhile isWhitespace).reverse.dropWhile isWhitespace).reverse

def stripPrefix (pre text : Text) : Option Text :=
  if pre.isPrefixOf text then some (text.drop pre.length) else none

def stripSuffix (suffix text : Text) : Option Text :=
  (stripPrefix suffix.reverse text.reverse).map List.reverse

def splitOnce (separator : Text) : Text → Option (Text × Text)
  | [] => if separator = [] then some ([], []) else none
  | char :: text =>
      match stripPrefix separator (char :: text) with
      | some behind => some ([], behind)
      | none => (splitOnce separator text).map fun parts => (char :: parts.1, parts.2)

/-- The lines among the pieces between line feeds: a carriage return in front of a line feed
belongs to the end of the line, and there is no empty line at the end. -/
def linesOfPieces : List Text → List Text
  | [] => []
  | [last] => if last = [] then [] else [last]
  | piece :: pieces => (stripSuffix ['\r'] piece).getD piece :: linesOfPieces pieces

def lines (text : Text) : List Text := linesOfPieces (text.splitOn '\n')

/-! ## Integers -/

def digitValue (radix : Nat) (char : Char) : Option Nat :=
  let value :=
    if '0' ≤ char ∧ char ≤ '9' then some (char.toNat - '0'.toNat)
    else if 'a' ≤ char ∧ char ≤ 'z' then some (char.toNat - 'a'.toNat + 10)
    else if 'A' ≤ char ∧ char ≤ 'Z' then some (char.toNat - 'A'.toNat + 10)
    else none
  value.filter fun value => value < radix

def digitsValue (radix : Nat) (digits : Text) : Option Nat :=
  if digits = [] then none
  else digits.foldlM (fun number char =>
    (digitValue radix char).map fun value => number * radix + value) 0

/-- The integer from `low` to `high` that a text stands for. A plus sign is always permitted, a
minus sign if there are negative integers. -/
def fromStrRadix (low high : Int) (radix : Nat) (text : Text) : Option Int :=
  let number : Option Int :=
    match text with
    | '+' :: digits => (digitsValue radix digits).map Int.ofNat
    | '-' :: digits =>
        if low < 0 then (digitsValue radix digits).map fun value => -(value : Int) else none
    | digits => (digitsValue radix digits).map Int.ofNat
  number.filter fun number => low ≤ number ∧ number ≤ high

end Text

end CanOpen
