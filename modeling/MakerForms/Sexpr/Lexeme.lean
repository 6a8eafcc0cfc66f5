import MakerForms.Text.Quoted
import MakerForms.Text.Span

set_option autoImplicit false

/-! # Lexemes

A text is cut into lexemes: parentheses, quoted strings, words, and what is neither. Between
lexemes stand gaps: blanks, and comments from a semicolon to the end of the line. A word is a
maximal run of word characters; numbers, symbols and keywords are words, told apart later.

Cutting loses nothing: a gap and what follows it make up the text (`splitGap_append`), and so
do a lexeme and what follows it (`text_append_of_first?`).

A lexeme is a `RawToken`, and a gap is what the lexer skips in front of one.
-/

namespace MakerForms

/-! ## Gaps -/

/-- Whether `c` is a blank: space, tab, line feed, carriage return or form feed. -/
def isBlank (c : Char) : Bool :=
  c == ' ' || c == '\t' || c == '\n' || c == '\r' || c == '\x0c'

/-- Whether the gap goes on over `c`, and if so whether a comment is open behind `c`. -/
def gapStep (comment : Bool) (c : Char) : Option Bool :=
  if comment then some (c != '\n')
  else if isBlank c then some false
  else if c = ';' then some true
  else none

/-- The gap at the start of a text and the text behind it; `comment` says whether the text
starts inside a comment. -/
def splitGap (comment : Bool) : List Char → List Char × List Char
  | [] => ([], [])
  | c :: cs =>
    match gapStep comment c with
    | some comment =>
      let tail := splitGap comment cs
      (c :: tail.1, tail.2)
    | none => ([], c :: cs)

/-! ## Lexemes -/

/-- A piece of text between gaps. -/
inductive Lexeme
  | openParen
  | closeParen
  /-- A string literal; escapes in `body` are not resolved. -/
  | quoted (body : List Char)
  /-- A maximal run of word characters. -/
  | word (run : List Char)
  /-- A string literal that is not closed. -/
  | unclosed (body : List Char)
  /-- A character that starts no other lexeme. -/
  | stray (c : Char)
deriving DecidableEq, Repr

/-- Whether `c` is a word character: an ASCII letter or digit, `_`, `:` or `-`. -/
def isWordChar (c : Char) : Bool := c.isAlphanum || c == '_' || c == ':' || c == '-'

/-- The body of a string literal and the text behind it. The body ends before the first quote
that no backslash is paired with, or before a backslash with nothing left to pair with. -/
def splitBody : List Char → List Char × List Char
  | [] => ([], [])
  | '\\' :: c :: cs =>
    let tail := splitBody cs
    ('\\' :: c :: tail.1, tail.2)
  | c :: cs =>
    if c = '"' ∨ c = '\\' then ([], c :: cs)
    else
      let tail := splitBody cs
      (c :: tail.1, tail.2)

namespace Lexeme

/-- The characters that a lexeme covers. -/
def text : Lexeme → List Char
  | openParen => ['(']
  | closeParen => [')']
  | quoted body => '"' :: (body ++ ['"'])
  | word run => run
  | unclosed body => '"' :: body
  | stray c => [c]

/-- The string literal behind an opening quote, and the text behind the literal. -/
def literal (cs : List Char) : Lexeme × List Char :=
  match splitBody cs with
  | (body, '"' :: rest) => (quoted body, rest)
  | (body, rest) => (unclosed body, rest)

/-- The lexeme at the start of a text and the text behind it. -/
def first? : List Char → Option (Lexeme × List Char)
  | [] => none
  | c :: cs =>
    if c = '(' then some (openParen, cs)
    else if c = ')' then some (closeParen, cs)
    else if c = '"' then some (literal cs)
    else if isWordChar c then some (word (c :: cs.takeWhile isWordChar), cs.dropWhile isWordChar)
    else some (stray c, cs)

end Lexeme

/-! ## Cutting loses nothing -/

theorem splitGap_append (comment : Bool) (cs : List Char) :
    (splitGap comment cs).1 ++ (splitGap comment cs).2 = cs := by
  induction cs generalizing comment with
  | nil => rfl
  | cons c cs ih =>
    simp only [splitGap]
    split
    · simp [ih]
    · rfl

theorem splitBody_append (cs : List Char) : (splitBody cs).1 ++ (splitBody cs).2 = cs := by
  induction cs using splitBody.induct with
  | case1 => rfl
  | case2 c cs ih => simp [splitBody, ih]
  | case3 c cs unpaired stop =>
    rw [splitBody.eq_3 c cs unpaired, if_pos stop]
    rfl
  | case4 c cs unpaired go ih =>
    rw [splitBody.eq_3 c cs unpaired, if_neg go]
    simpa using ih

namespace Lexeme

theorem text_append_literal (cs : List Char) :
    (literal cs).1.text ++ (literal cs).2 = '"' :: cs := by
  have whole := splitBody_append cs
  unfold literal
  split
  · next body rest h =>
    rw [h] at whole
    simp [text, ← whole]
  · next body rest _ h =>
    rw [h] at whole
    simp [text, ← whole]

theorem text_append_of_first? {cs rest : List Char} {lexeme : Lexeme}
    (h : first? cs = some (lexeme, rest)) : lexeme.text ++ rest = cs := by
  cases cs with
  | nil => simp [first?] at h
  | cons c cs =>
    simp only [first?] at h
    split at h
    · next paren => simp at h; simp [← h.1, ← h.2, text, paren]
    split at h
    · next paren => simp at h; simp [← h.1, ← h.2, text, paren]
    split at h
    · next quote =>
      have whole := text_append_literal cs
      rw [Option.some.inj h] at whole
      rw [quote]
      exact whole
    split at h
    · simp at h; simp [← h.1, ← h.2, text]
    · simp at h; simp [← h.1, ← h.2, text]

theorem text_ne_nil_of_first? {cs rest : List Char} {lexeme : Lexeme}
    (h : first? cs = some (lexeme, rest)) : lexeme.text ≠ [] := by
  cases cs with
  | nil => simp [first?] at h
  | cons c cs =>
    simp only [first?] at h
    repeat' split at h
    all_goals
      try simp only [literal] at h
      try split at h
    all_goals
      simp at h
      simp [← h.1, text]

theorem length_lt_of_first? {cs rest : List Char} {lexeme : Lexeme}
    (h : first? cs = some (lexeme, rest)) : rest.length < cs.length := by
  have nonempty := List.length_pos_iff.mpr (text_ne_nil_of_first? h)
  rw [← text_append_of_first? h, List.length_append]
  omega

end Lexeme

end MakerForms
