import CanOpen.Foundation.Tokens

/-! # Reading tokens

Readers that take tokens from the front of a list. A reader that reads a text does so whatever
follows the text.
-/

namespace CanOpen

open Token (lex Complete IsWord)

/-- What takes tokens from the front of a list, or fails. -/
abbrev Reader (α : Type) := StateT (List Token) Option α

namespace Reader

def phrase (text : Text) : Reader Unit := fun tokens =>
  if (lex text).isPrefixOf tokens then some ((), tokens.drop (lex text).length) else none

def word : Reader Text
  | .word text :: tokens => some (text, tokens)
  | _ => none

def mark (char : Char) : Reader Bool
  | .mark other :: tokens => some (if other = char then (true, tokens) else
      (false, .mark other :: tokens))
  | tokens => some (false, tokens)

def wordThen (text : Text) : Reader Text := do
  let found ← word
  phrase text
  pure found

/-- A reader reads a value from a text, and nothing of what follows. -/
def Reads {α : Type} (reader : Reader α) (text : Text) (value : α) : Prop :=
  ∀ back, reader (lex (text ++ back)) = some (value, lex back)

variable {α β : Type} {reader : Reader α} {next : α → Reader β} {value : α} {result : β}
  {text more : Text}

theorem Reads.bind (first : Reads reader text value) (second : Reads (next value) more result) :
    Reads (reader >>= next) (text ++ more) result := by
  intro back
  show (reader (lex (text ++ more ++ back)) >>= fun item => next item.1 item.2) = _
  rw [List.append_assoc, first (more ++ back)]
  exact second back

theorem bind_eq_none {tokens : List Token} (fails : reader tokens = none) :
    (reader >>= next) tokens = none := by
  show (reader tokens >>= fun item => next item.1 item.2) = none
  rw [fails]
  rfl

theorem Reads.after (looks : ∀ back, reader (lex (text ++ back)) = some (value, lex (text ++ back)))
    (second : Reads (next value) text result) : Reads (reader >>= next) text result := by
  intro back
  show (reader (lex (text ++ back)) >>= fun item => next item.1 item.2) = _
  rw [looks back]
  exact second back

theorem Reads.pure (value : α) : Reads (pure value) [] value := fun _ => rfl

theorem Reads.map {function : α → β} (reads : Reads reader text value) :
    Reads (do let item ← reader; Pure.pure (function item)) text (function value) := by
  have both : Reads (do let item ← reader; Pure.pure (function item)) (text ++ []) _ :=
    reads.bind (Reads.pure (function value))
  rwa [List.append_nil] at both

theorem Reads.orElse {other : Reader α} (reads : Reads reader text value) :
    Reads (reader <|> other) text value := by
  intro back
  show (reader (lex (text ++ back)) <|> other (lex (text ++ back))) = _
  rw [reads back]
  rfl

theorem Reads.otherwise {other : Reader α} (fails : ∀ back, reader (lex (text ++ back)) = none)
    (reads : Reads other text value) : Reads (reader <|> other) text value := by
  intro back
  show (reader (lex (text ++ back)) <|> other (lex (text ++ back))) = _
  rw [fails back, reads back]
  rfl

theorem phrase_append (text : Text) (tokens : List Token) :
    phrase text (lex text ++ tokens) = some ((), tokens) := by
  have begins : (lex text).isPrefixOf (lex text ++ tokens) = true :=
    List.isPrefixOf_iff_prefix.mpr (List.prefix_append _ _)
  rw [phrase, if_pos begins, List.drop_left]

def Writes (written text : Text) : Prop := Complete written ∧ lex written = lex text

instance (written text : Text) : Decidable (Writes written text) :=
  inferInstanceAs (Decidable (_ ∧ _))

def WritesBehind (written text : Text) : Prop :=
  Writes written text ∧ written.head?.any Token.endsWord = true

instance (written text : Text) : Decidable (WritesBehind written text) :=
  inferInstanceAs (Decidable (_ ∧ _))

variable {found written : Text}

theorem reads_phrase (writes : Writes written text) : Reads (phrase text) written () := by
  intro back
  rw [Token.lex_append writes.1, writes.2, phrase_append]

theorem reads_wordThen (isWord : IsWord found) (writes : WritesBehind written text) :
    Reads (wordThen text) (found ++ written) found := by
  intro back
  have reads : word (lex (found ++ (written ++ back))) =
      some (found, lex written ++ lex back) := by
    rw [Token.lex_word_append isWord writes.2 writes.1.1]
    rfl
  show (word (lex (found ++ written ++ back)) >>= fun item =>
    phrase text item.2 >>= fun behind => some (item.1, behind.2)) = _
  rw [List.append_assoc, reads]
  show (phrase text (lex written ++ lex back) >>= fun behind => some (found, behind.2)) = _
  rw [writes.1.2, phrase_append]
  rfl

theorem mark_of_word (isWord : IsWord found) (writes : WritesBehind written text) (char : Char)
    (back : Text) :
    mark char (lex (found ++ written ++ back)) = some (false, lex (found ++ written ++ back)) := by
  rw [List.append_assoc, Token.lex_word_append isWord writes.2 writes.1.1]
  rfl

end Reader

end CanOpen
