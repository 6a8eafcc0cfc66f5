import MakerForms.Sexpr.Token

set_option autoImplicit false

/-! # Reading tokens one at a time

A scanner is a place in a text: the unread text and the number of bytes before it. Asking for
the next token gives a token with its span, or a lexical error, or nothing at the end of the
text, together with the scanner behind it; an error does not stop the scanner.

An opening parenthesis directly followed by the word `CODE-CHAR` starts a character literal,
which goes on with a numeral below 256 and a closing parenthesis. The first lexeme that does not
fit makes the literal an error up to and including that lexeme.

Each token and each error uses up some text (`length_lt_of_next`), so reading ends.

`Scanner.next` is the operation `next_token` of a `Tokenizer`, and `Scanner.afterOpen` is its
`open_paren`.
-/

namespace MakerForms

/-- The unread part of a text and the number of bytes before it. -/
structure Scanner where
  rest : List Char
  offset : Nat
deriving DecidableEq, Repr

namespace Scanner

/-- The scanner at the start of a text. -/
def ofString (source : String) : Scanner := ⟨source.toList, 0⟩

/-- The scanner behind the gap that comes next. -/
def skip (s : Scanner) : Scanner :=
  let (gap, rest) := splitGap false s.rest
  ⟨rest, s.offset + byteSize gap⟩

/-- The next lexeme and the scanner behind it. -/
def lexeme? (s : Scanner) : Option (Lexeme × Scanner) :=
  (Lexeme.first? s.skip.rest).map fun (lexeme, rest) =>
    (lexeme, ⟨rest, s.skip.offset + byteSize lexeme.text⟩)

/-- The text from one place up to a later one. -/
def textUpTo (s later : Scanner) : List Char :=
  s.rest.take (s.rest.length - later.rest.length)

/-- Reads what follows `(CODE-CHAR`. -/
def characterLiteral (s : Scanner) : Except LexFault Token × Scanner :=
  match s.lexeme? with
  | none => (.error .characterCode, s.skip)
  | some (.word run, behindCode) =>
    match Numeral.byte? run with
    | none => (.error .characterCode, behindCode)
    | some code =>
      match behindCode.lexeme? with
      | none => (.error .characterCode, behindCode.skip)
      | some (.closeParen, last) => (.ok (.character code), last)
      | some (_, last) => (.error .characterCode, last)
  | some (_, last) => (.error .characterCode, last)

/-- Reads what follows an opening parenthesis as far as it belongs to the same token. -/
def afterOpen (s : Scanner) : Except LexFault Token × Scanner :=
  match s.lexeme? with
  | some (.word run, behindHead) =>
    if String.ofList run = Symbol.codeChar then behindHead.characterLiteral
    else (.ok .openParen, s)
  | _ => (.ok .openParen, s)

/-- The token that starts with a lexeme, and the scanner behind the token. -/
def complete : Lexeme → Scanner → Except LexFault Token × Scanner
  | .openParen, behind => behind.afterOpen
  | lexeme, behind => (lexeme.token, behind)

/-- The next token or lexical error, `none` at the end of the text, and the scanner behind it. -/
def next (s : Scanner) : Option (Except LexError (Located Token)) × Scanner :=
  match s.lexeme? with
  | none => (none, s.skip)
  | some (lexeme, behind) =>
    let (result, last) := complete lexeme behind
    let span : Span := ⟨s.skip.offset, last.offset⟩
    match result with
    | .ok token => (some (.ok ⟨token, span⟩), last)
    | .error fault => (some (.error ⟨fault, String.ofList (s.skip.textUpTo last), span⟩), last)

/-! ## Reading uses up text -/

theorem length_skip_le (s : Scanner) : s.skip.rest.length ≤ s.rest.length := by
  have whole := congrArg List.length (splitGap_append false s.rest)
  rw [List.length_append] at whole
  show (splitGap false s.rest).2.length ≤ _
  omega

theorem length_lt_of_lexeme? {s behind : Scanner} {lexeme : Lexeme}
    (h : s.lexeme? = some (lexeme, behind)) : behind.rest.length < s.rest.length := by
  simp only [lexeme?, Option.map_eq_some_iff] at h
  obtain ⟨⟨l, rest⟩, first, eq⟩ := h
  cases eq
  exact Nat.lt_of_lt_of_le (Lexeme.length_lt_of_first? first) (length_skip_le s)

theorem length_characterLiteral_le (s : Scanner) :
    s.characterLiteral.2.rest.length ≤ s.rest.length := by
  unfold characterLiteral
  split
  · exact length_skip_le s
  · next run behindCode code =>
    have first := length_lt_of_lexeme? code
    split
    · exact Nat.le_of_lt first
    · split
      · exact Nat.le_trans (length_skip_le behindCode) (Nat.le_of_lt first)
      · next close => exact Nat.le_of_lt (Nat.lt_trans (length_lt_of_lexeme? close) first)
      · next other => exact Nat.le_of_lt (Nat.lt_trans (length_lt_of_lexeme? other) first)
  · next other => exact Nat.le_of_lt (length_lt_of_lexeme? other)

theorem length_afterOpen_le (s : Scanner) : s.afterOpen.2.rest.length ≤ s.rest.length := by
  unfold afterOpen
  split
  · next head =>
    split
    · exact Nat.le_trans (length_characterLiteral_le _) (Nat.le_of_lt (length_lt_of_lexeme? head))
    · exact Nat.le_refl _
  · exact Nat.le_refl _

theorem length_complete_le (lexeme : Lexeme) (s : Scanner) :
    (complete lexeme s).2.rest.length ≤ s.rest.length := by
  cases lexeme
  case openParen => exact length_afterOpen_le s
  all_goals exact Nat.le_refl _

theorem length_lt_of_next {s s' : Scanner} {result : Except LexError (Located Token)}
    (h : s.next = (some result, s')) : s'.rest.length < s.rest.length := by
  unfold next at h
  split at h
  · simp at h
  · next lexeme behind first =>
    have last : s' = (complete lexeme behind).2 := by
      dsimp only at h
      split at h <;> exact (Prod.mk.inj h).2.symm
    rw [last]
    exact Nat.lt_of_le_of_lt (length_complete_le lexeme behind) (length_lt_of_lexeme? first)

end Scanner

end MakerForms
