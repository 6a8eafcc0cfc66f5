import MakerForms.Proofs.Sexpr.ReaderRuns

set_option autoImplicit false

/-! # Reading by descent, with one token held back

A `Parser` reads values without a stack of its own: to read a list is to read values until the
list is closed, and the lists that are open are those whose reading is under way
(`Parser.value`, `Parser.list`, `Parser.items`). To see whether a text has ended it takes the next
token and holds it back for the operation that follows (`Parser.peek`).

Whatever an operation does, it does to the token that comes next (`Parser.advance`), held back or
not. So parsers that advance alike cannot be told apart (`Parser.perform_congr`,
`Parser.run_congr`), and to have looked at a token changes nothing (`Parser.advance_atEnd`).
-/

namespace MakerForms

/-- A text, the place in it up to which tokens have been taken, and the token that has been taken
last if it is held back. The token at the end of the text is `none`. -/
structure Parser where
  source : String
  scanner : Scanner
  peeked : Option (Located (Option Token))

namespace Parser

open Reader (Operation Answer)

/-! ## One token -/

/-- The parser at a place of a text, with no token held back. -/
def bare (source : String) (s : Scanner) : Parser := ⟨source, s, none⟩

/-- The parser at the start of a text. -/
def ofString (source : String) : Parser := bare source (Scanner.ofString source)

/-- Takes a token from the text. The end of the text is a token behind the last byte. -/
def request (p : Parser) : Except LexError (Located (Option Token)) × Parser :=
  match p.scanner.next with
  | (none, s) =>
    (.ok ⟨none, ⟨p.source.utf8ByteSize, p.source.utf8ByteSize⟩⟩, { p with scanner := s })
  | (some (.error e), s) => (.error e, { p with scanner := s })
  | (some (.ok token), s) => (.ok ⟨some token.value, token.span⟩, { p with scanner := s })

/-- Takes the token that is held back, or else one from the text. -/
def advance (p : Parser) : Except LexError (Located (Option Token)) × Parser :=
  match p.peeked with
  | some token => (.ok token, { p with peeked := none })
  | none => p.request

/-- Takes a token and holds it back. -/
def peek (p : Parser) : Except LexError (Located (Option Token)) × Parser :=
  match p.advance with
  | (.error e, p') => (.error e, p')
  | (.ok token, p') => (.ok token, { p' with peeked := some token })

/-- The length of the text that is left, and one for a token held back: what bounds the number of
tokens to come. -/
def unread (p : Parser) : Nat :=
  p.scanner.rest.length +
    match p.peeked with
    | some ⟨some _, _⟩ => 1
    | _ => 0

section Tokens

variable {source : String} {s s' : Scanner}

theorem advance_of_next_none (h : s.next = (none, s')) :
    (bare source s).advance
      = (.ok ⟨none, ⟨source.utf8ByteSize, source.utf8ByteSize⟩⟩, bare source s') := by
  show (bare source s).request = _
  rw [request, bare, h]
  rfl

theorem advance_of_next_error {e : LexError} (h : s.next = (some (.error e), s')) :
    (bare source s).advance = (.error e, bare source s') := by
  show (bare source s).request = _
  rw [request, bare, h]
  rfl

theorem advance_of_next_ok {token : Located Token} (h : s.next = (some (.ok token), s')) :
    (bare source s).advance = (.ok ⟨some token.value, token.span⟩, bare source s') := by
  show (bare source s).request = _
  rw [request, bare, h]
  rfl

/-- Without a token held back, a parser goes where the scanner goes. -/
theorem advance_bare_snd (source : String) (s : Scanner) :
    (bare source s).advance.2 = bare source s.next.2 := by
  rcases hnext : s.next with ⟨_ | e | token, s'⟩
  · rw [advance_of_next_none hnext]
  · rw [advance_of_next_error hnext]
  · rw [advance_of_next_ok hnext]

/-- To advance is to take the token that is held back, or to go on with the text. -/
theorem advance_cases (p : Parser) :
    (∃ token, p.peeked = some token ∧ p.advance = (.ok token, bare p.source p.scanner)) ∨
      p = bare p.source p.scanner := by
  obtain ⟨source, s, _ | token⟩ := p
  · exact Or.inr rfl
  · exact Or.inl ⟨token, rfl, rfl⟩

theorem length_next_le (s : Scanner) : s.next.2.rest.length ≤ s.rest.length := by
  rcases hnext : s.next with ⟨_ | result, s'⟩
  · rw [(Scanner.next_eq_none hnext).1]
    exact s.length_skip_le
  · exact Nat.le_of_lt (Scanner.length_lt_of_next hnext)

theorem unread_advance_le (p : Parser) : p.advance.2.unread ≤ p.unread := by
  rcases p.advance_cases with ⟨token, -, h⟩ | h
  · rw [h]
    exact Nat.le_add_right _ _
  · rw [h, advance_bare_snd]
    exact length_next_le p.scanner

/-- A token that is not the end of the text makes what is left shorter. -/
theorem unread_advance_lt {p p' : Parser} {t : Token} {span : Span}
    (h : p.advance = (.ok ⟨some t, span⟩, p')) : p'.unread < p.unread := by
  rcases p.advance_cases with ⟨token, hpeeked, hadvance⟩ | hbare
  · rw [hadvance] at h
    obtain ⟨htoken, rfl⟩ := Prod.mk.inj h
    rw [Except.ok.inj htoken] at hpeeked
    rw [unread, unread, hpeeked]
    exact Nat.lt_succ_self _
  · rw [hbare] at h ⊢
    rcases hnext : p.scanner.next with ⟨_ | e | token, s⟩
    · rw [advance_of_next_none hnext] at h
      cases h
    · rw [advance_of_next_error hnext] at h
      cases h
    · rw [advance_of_next_ok hnext] at h
      rw [← (Prod.mk.inj h).2]
      exact Scanner.length_lt_of_next hnext

/-- Once a token has been taken, none is held back. -/
theorem eq_bare_of_advance {p p' : Parser} {result : Except LexError (Located (Option Token))}
    (h : p.advance = (result, p')) : p' = bare p.source p'.scanner := by
  rcases p.advance_cases with ⟨token, -, hadvance⟩ | hbare
  · rw [hadvance] at h
    rw [← (Prod.mk.inj h).2]
    rfl
  · have hsnd : p' = bare p.source p.scanner.next.2 := by
      rw [← advance_bare_snd, ← hbare, h]
    rw [hsnd]
    rfl

/-- A token that has been looked at is taken next, and the parser goes on as if it had not been
looked at. -/
theorem advance_peek {p : Parser} {token : Located (Option Token)} (h : p.peek.1 = .ok token) :
    p.peek.2.advance = p.advance := by
  rcases hadvance : p.advance with ⟨e | taken, p'⟩
  · rw [peek, hadvance] at h
    cases h
  · have hpeek : p.peek = (.ok taken, { p' with peeked := some taken }) := by rw [peek, hadvance]
    rw [hpeek, eq_bare_of_advance hadvance]
    rfl

end Tokens

/-! ## Values -/

/-- What comes of reading at `p`: a value or an error, and a parser with no more left than `p`. -/
abbrev Outcome (p : Parser) :=
  { out : Except ReadError Value × Parser // out.2.unread ≤ p.unread }

-- each item of a list takes a token; within one token the calls go from value to list to items

mutual

/-- The value that starts with a token, inside `depth` lists. -/
def value (p : Parser) (token : Located (Option Token)) (depth : Nat) : Outcome p :=
  match token.value with
  | none => ⟨(.error (.malformed .valueExpected token.span), p), Nat.le_refl _⟩
  | some .openParen => list p token.span (depth + 1)
  | some .closeParen => ⟨(.error (.malformed .strayClose token.span), p), Nat.le_refl _⟩
  | some (.symbol a) => ⟨(.ok (.symbol a), p), Nat.le_refl _⟩
  | some (.integer i) => ⟨(.ok (.integer i), p), Nat.le_refl _⟩
  | some (.string a) => ⟨(.ok (.string a), p), Nat.le_refl _⟩
  | some (.character code) => ⟨(.ok (.character code), p), Nat.le_refl _⟩
termination_by 3 * p.unread + 2

/-- The list behind an opening parenthesis, as the list number `depth` around its items. -/
def list (p : Parser) (paren : Span) (depth : Nat) : Outcome p :=
  if maxDepth < depth then ⟨(.error (.malformed .nestedTooDeep paren), p), Nat.le_refl _⟩
  else items p paren depth []
termination_by 3 * p.unread + 1

/-- The rest of a list; `read` holds the items before it, the last first. -/
def items (p : Parser) (paren : Span) (depth : Nat) (read : List Value) : Outcome p :=
  match h : p.advance with
  | (.error e, p') => ⟨(.error (.lexical e), p'), by
      have hle := p.unread_advance_le
      rwa [h] at hle⟩
  | (.ok ⟨none, span⟩, p') =>
    ⟨(.error (.malformed .unclosedList ⟨paren.start, span.stop⟩), p'), by
      have hle := p.unread_advance_le
      rwa [h] at hle⟩
  | (.ok ⟨some .closeParen, _⟩, p') =>
    ⟨(.ok (.list read.reverse), p'), Nat.le_of_lt (unread_advance_lt h)⟩
  | (.ok ⟨some t, span⟩, p') =>
    have hshorter := unread_advance_lt h
    match p'.value ⟨some t, span⟩ depth with
    | ⟨(.error e, p''), hle⟩ => ⟨(.error e, p''), Nat.le_trans hle (Nat.le_of_lt hshorter)⟩
    | ⟨(.ok v, p''), hle⟩ =>
      have hlt : p''.unread < p.unread := Nat.lt_of_le_of_lt hle hshorter
      ⟨(p''.items paren depth (v :: read)).1,
        Nat.le_trans (p''.items paren depth (v :: read)).2 (Nat.le_of_lt hlt)⟩
termination_by 3 * p.unread

end

/-- The descent into a list without the bounds on what is left. -/
theorem items_eq (p : Parser) (paren : Span) (depth : Nat) (read : List Value) :
    (p.items paren depth read).1 =
      match p.advance with
      | (.error e, p') => (.error (.lexical e), p')
      | (.ok ⟨none, span⟩, p') => (.error (.malformed .unclosedList ⟨paren.start, span.stop⟩), p')
      | (.ok ⟨some .closeParen, _⟩, p') => (.ok (.list read.reverse), p')
      | (.ok ⟨some t, span⟩, p') =>
        match (p'.value ⟨some t, span⟩ depth).1 with
        | (.error e, p'') => (.error e, p'')
        | (.ok v, p'') => (p''.items paren depth (v :: read)).1 := by
  rw [items]
  split
  · next e p' h => simp only [h]
  · next span p' h => simp only [h]
  · next span p' h => simp only [h]
  · next t span p' hclose h =>
    simp only [h]
    split
    · next e p'' hle hvalue => simp only [hvalue]
    · next v p'' hle hvalue => simp only [hvalue]

/-- What starts no end of a list starts an item of it. -/
theorem items_of_item {p p' : Parser} {t : Token} {span : Span}
    (h : p.advance = (.ok ⟨some t, span⟩, p')) (ht : t ≠ .closeParen) (paren : Span) (depth : Nat)
    (read : List Value) :
    (p.items paren depth read).1 =
      match (p'.value ⟨some t, span⟩ depth).1 with
      | (.error e, p'') => (.error e, p'')
      | (.ok v, p'') => (p''.items paren depth (v :: read)).1 := by
  rw [items_eq, h]
  cases t with
  | closeParen => exact absurd rfl ht
  | _ => rfl

/-- Reads the next value together with its span. -/
def located (p : Parser) : Except ReadError (Located Value) × Parser :=
  match p.advance with
  | (.error e, p') => (.error (.lexical e), p')
  | (.ok token, p') =>
    match (p'.value token 0).1 with
    | (.error e, p'') => (.error e, p'')
    | (.ok v, p'') => (.ok ⟨v, ⟨token.span.start, p''.scanner.offset⟩⟩, p'')

/-- Reads the next value. -/
def one (p : Parser) : Except ReadError Value × Parser :=
  (p.located.1.map Located.value, p.located.2)

/-- Whether only gaps are left. -/
def atEnd (p : Parser) : Except ReadError Bool × Parser :=
  match p.peek with
  | (.error e, p') => (.error (.lexical e), p')
  | (.ok token, p') => (.ok token.value.isNone, p')

section Looking

variable {source : String} {s s' : Scanner}

theorem atEnd_of_next_none (h : s.next = (none, s')) :
    (bare source s).atEnd = (.ok true,
      ⟨source, s', some ⟨none, ⟨source.utf8ByteSize, source.utf8ByteSize⟩⟩⟩) := by
  rw [atEnd, peek, advance_of_next_none h]
  rfl

theorem atEnd_of_next_error {e : LexError} (h : s.next = (some (.error e), s')) :
    (bare source s).atEnd = (.error (.lexical e), bare source s') := by
  rw [atEnd, peek, advance_of_next_error h]

theorem atEnd_of_next_ok {token : Located Token} (h : s.next = (some (.ok token), s')) :
    (bare source s).atEnd
      = (.ok false, ⟨source, s', some ⟨some token.value, token.span⟩⟩) := by
  rw [atEnd, peek, advance_of_next_ok h]
  rfl

end Looking

/-- Parsers that advance alike read alike. -/
theorem located_congr {p q : Parser} (h : p.advance = q.advance) : p.located = q.located := by
  rw [located, h, located]

theorem one_congr {p q : Parser} (h : p.advance = q.advance) : p.one = q.one := by
  rw [one, located_congr h, one]

theorem peek_congr {p q : Parser} (h : p.advance = q.advance) : p.peek = q.peek := by
  rw [peek, h, peek]

theorem atEnd_congr {p q : Parser} (h : p.advance = q.advance) : p.atEnd = q.atEnd := by
  rw [atEnd, peek_congr h, atEnd]

/-- To have looked whether the text has ended changes nothing that comes behind it. -/
theorem advance_atEnd {p : Parser} {b : Bool} (h : p.atEnd.1 = .ok b) :
    p.atEnd.2.advance = p.advance := by
  rcases hpeek : p.peek with ⟨e | token, p'⟩
  · rw [atEnd, hpeek] at h
    cases h
  · have hadvance := advance_peek (congrArg Prod.fst hpeek)
    rw [hpeek] at hadvance
    rw [atEnd, hpeek]
    exact hadvance

/-- A value that is read leaves less text. -/
theorem unread_located_lt {p p' : Parser} {v : Located Value} (h : p.located = (.ok v, p')) :
    p'.unread < p.unread := by
  rw [located] at h
  split at h
  · cases h
  · next token p₁ hadvance =>
    split at h
    · cases h
    · next u p₂ hvalue =>
      obtain ⟨-, rfl⟩ := Prod.mk.inj h
      have hle := (p₁.value token 0).2
      rw [hvalue] at hle
      obtain ⟨_ | t, span⟩ := token
      · rw [value] at hvalue
        cases hvalue
      · exact Nat.lt_of_le_of_lt hle (unread_advance_lt hadvance)

theorem unread_one_lt {p p' : Parser} {v : Value} (h : p.one = (.ok v, p')) :
    p'.unread < p.unread := by
  rcases hlocated : p.located with ⟨e | v', q⟩
  · rw [one, hlocated] at h
    cases h
  · rw [one, hlocated] at h
    obtain ⟨-, rfl⟩ := Prod.mk.inj h
    exact unread_located_lt hlocated

/-- Reads all values that are left; `read` holds those read before, the last first. -/
def all (p : Parser) (read : List Value) : Except ReadError (List Value) × Parser :=
  match _h : p.atEnd with
  | (.error e, p') => (.error e, p')
  | (.ok true, p') => (.ok read.reverse, p')
  | (.ok false, p') =>
    match _hone : p'.one with
    | (.error e, p'') => (.error e, p'')
    | (.ok v, p'') => all p'' (v :: read)
termination_by p.unread
decreasing_by
  -- what is read behind a look is what would have been read without it
  have hadvance := advance_atEnd (congrArg Prod.fst _h)
  rw [_h] at hadvance
  rw [one_congr hadvance] at _hone
  exact unread_one_lt _hone

/-- Reading all values asks whether any are left and reads one of them. -/
theorem all_eq (p : Parser) (read : List Value) :
    p.all read =
      match p.atEnd with
      | (.error e, p') => (.error e, p')
      | (.ok true, p') => (.ok read.reverse, p')
      | (.ok false, p') =>
        match p'.one with
        | (.error e, p'') => (.error e, p'')
        | (.ok v, p'') => p''.all (v :: read) := by
  rw [all]
  split
  · next e p' h => simp only [h]
  · next p' h => simp only [h]
  · next p' h =>
    simp only [h]
    split
    · next e p'' hone => simp only [hone]
    · next v p'' hone => simp only [hone]

/-! ## Operations -/

/-- Does one operation. -/
def perform (p : Parser) : Operation → Except ReadError Answer × Parser
  | .atEnd => (p.atEnd.1.map .atEnd, p.atEnd.2)
  | .one => (p.one.1.map .value, p.one.2)
  | .located => (p.located.1.map .located, p.located.2)
  | .all => ((p.all []).1.map .values, (p.all []).2)

/-- Does operations one after another, also behind errors. -/
def run (p : Parser) : List Operation → List (Except ReadError Answer) × Parser
  | [] => ([], p)
  | operation :: rest =>
    let (answer, p') := p.perform operation
    let (answers, last) := p'.run rest
    (answer :: answers, last)

theorem all_congr {p q : Parser} (h : p.advance = q.advance) (read : List Value) :
    p.all read = q.all read := by
  rw [all, all, atEnd_congr h]

/-- Operations do what they do to the token that comes next, whether it is held back or not. -/
theorem perform_congr {p q : Parser} (h : p.advance = q.advance) (operation : Operation) :
    p.perform operation = q.perform operation := by
  cases operation with
  | atEnd => rw [perform, atEnd_congr h, perform]
  | one => rw [perform, one_congr h, perform]
  | located => rw [perform, located_congr h, perform]
  | all => rw [perform, all_congr h, perform]

theorem run_congr {p q : Parser} (h : p.advance = q.advance) (operations : List Operation) :
    (p.run operations).1 = (q.run operations).1 := by
  cases operations with
  | nil => rfl
  | cons operation rest => rw [run, perform_congr h, run]

/-! ## What is still to come -/

/-- The results that are still to come: the token that is held back, and then those of the text. -/
def upcoming (p : Parser) : List (Except LexError (Located Token)) :=
  match p.peeked with
  | some ⟨some t, span⟩ => .ok ⟨t, span⟩ :: p.scanner.results
  | _ => p.scanner.results

/-- The parser from which a number of tokens, ends of the text or lexical errors have been taken. -/
def after (p : Parser) : Nat → Parser
  | 0 => p
  | n + 1 => p.advance.2.after n

end Parser

end MakerForms
