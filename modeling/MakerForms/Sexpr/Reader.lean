import MakerForms.Sexpr.Scanner
import MakerForms.Sexpr.Value

set_option autoImplicit false

/-! # Reading values

A value is read with a stack of the lists that are open. An opening parenthesis pushes an empty
list, a closing one turns the topmost list into a value, and a value is added to the topmost
list, or is the result if no list is open. Lists nest at most `maxDepth` deep.

A reader holds a text and a place in it. Its operations read one value, with or without its
span, or all values that are left, or look whether any are left. Each leaves the reader behind
what it has used up, also when it fails, so that reading can go on behind an error.

`Reader.one`, `Reader.located`, `Reader.all` and `Reader.atEnd` are the operations `parse_one`,
`parse_spanned`, `parse_all` and `is_at_end` of a `Parser`, whose `value` and `list` are
`Scanner.readValue`. `Value.read` is `from_str`, and `maxDepth` is `MAX_DEPTH`.
-/

namespace MakerForms

/-- The deepest nesting of lists that is read. -/
def maxDepth : Nat := 512

/-- The ways in which a sequence of tokens can fail to be a value. -/
inductive SyntaxFault
  | strayClose
  | valueExpected
  | nestedTooDeep
  | unclosedList
  | trailingInput
deriving DecidableEq, Repr

def SyntaxFault.message : SyntaxFault → String
  | strayClose => "unexpected )"
  | valueExpected => "expected a value"
  | nestedTooDeep => "lists nested deeper than " ++ Numeral.ofNat maxDepth
  | unclosedList => "unexpected end of input in list"
  | trailingInput => "unexpected input after value"

/-- The reasons why a text is not read. -/
inductive ReadError
  | lexical (e : LexError)
  | malformed (fault : SyntaxFault) (span : Span)
deriving DecidableEq, Repr

/-- A list that is being read: its opening parenthesis and its items so far, the last first. -/
structure OpenList where
  paren : Span
  items : List Value
deriving DecidableEq, Repr

/-- What has been read: a whole value, or lists that are still open, the innermost first. -/
inductive Progress
  | done (v : Value)
  | more (stack : List OpenList)

namespace Progress

/-- Puts a value where it belongs: into the innermost open list, or nowhere. -/
def deliver (v : Value) : List OpenList → Progress
  | [] => done v
  | inner :: outer => more (⟨inner.paren, v :: inner.items⟩ :: outer)

/-- What a token does to the lists that are open. -/
def step (stack : List OpenList) (token : Located Token) : Except ReadError Progress :=
  match token.value with
  | .openParen =>
    if stack.length < maxDepth then .ok (more (⟨token.span, []⟩ :: stack))
    else .error (.malformed .nestedTooDeep token.span)
  | .closeParen =>
    match stack with
    | [] => .error (.malformed .strayClose token.span)
    | inner :: outer => .ok (deliver (.list inner.items.reverse) outer)
  | .symbol s => .ok (deliver (.symbol s) stack)
  | .integer i => .ok (deliver (.integer i) stack)
  | .string s => .ok (deliver (.string s) stack)
  | .character code => .ok (deliver (.character code) stack)

/-- What is wrong when the text ends at `stop` with these lists open. -/
def atEnd (stop : Nat) : List OpenList → ReadError
  | [] => .malformed .valueExpected ⟨stop, stop⟩
  | inner :: _ => .malformed .unclosedList ⟨inner.paren.start, stop⟩

end Progress

namespace Scanner

/-- Reads on until the value is whole, with `stack` as the lists that are open. -/
def readValue (s : Scanner) (stack : List OpenList) : Except ReadError Value × Scanner :=
  match _h : s.next with
  | (none, s') => (.error (Progress.atEnd s'.offset stack), s')
  | (some (.error e), s') => (.error (.lexical e), s')
  | (some (.ok token), s') =>
    match Progress.step stack token with
    | .error e => (.error e, s')
    | .ok (.done v) => (.ok v, s')
    | .ok (.more stack) => readValue s' stack
termination_by s.rest.length
decreasing_by exact length_lt_of_next _h

theorem length_readValue_le (s : Scanner) (stack : List OpenList) :
    (s.readValue stack).2.rest.length ≤ s.rest.length := by
  induction s, stack using readValue.induct with
  | case1 s stack s' h =>
    rw [readValue, h]
    have skipped : s' = s.skip := by
      unfold next at h
      split at h
      · exact (Prod.mk.inj h).2.symm
      · dsimp only at h
        split at h <;> simp at h
    rw [skipped]
    exact length_skip_le s
  | case2 s stack s' e h =>
    rw [readValue, h]
    exact Nat.le_of_lt (length_lt_of_next h)
  | case3 s stack s' token h e stepped =>
    rw [readValue, h]
    simp only [stepped]
    exact Nat.le_of_lt (length_lt_of_next h)
  | case4 s stack s' token h v stepped =>
    rw [readValue, h]
    simp only [stepped]
    exact Nat.le_of_lt (length_lt_of_next h)
  | case5 s stack s' token h stack' stepped ih =>
    rw [readValue, h]
    simp only [stepped]
    exact Nat.le_trans ih (Nat.le_of_lt (length_lt_of_next h))

/-- Reading a value uses up at least the token it starts with. -/
theorem length_readValue_lt {s s' : Scanner} {result : Except LexError (Located Token)}
    (h : s.next = (some result, s')) (stack : List OpenList) :
    (s.readValue stack).2.rest.length < s.rest.length := by
  have shorter := length_lt_of_next h
  rw [readValue, h]
  cases result with
  | error e => exact shorter
  | ok token =>
    dsimp only
    split
    · exact shorter
    · exact shorter
    · exact Nat.lt_of_le_of_lt (length_readValue_le _ _) shorter

/-- Reads values until none is left; `read` holds those read before, the last first. -/
def readAll (s : Scanner) (read : List Value) : Except ReadError (List Value) × Scanner :=
  match _h : s.next with
  | (none, _) => (.ok read.reverse, s)
  | (some (.error e), s') => (.error (.lexical e), s')
  | (some (.ok _), _) =>
    match _result : s.readValue [] with
    | (.error e, s') => (.error e, s')
    | (.ok v, s') => readAll s' (v :: read)
termination_by s.rest.length
decreasing_by
  have shorter := length_readValue_lt _h []
  rw [_result] at shorter
  exact shorter

end Scanner

/-! ## Readers -/

/-- A text and the place in it up to which it has been read. -/
structure Reader where
  source : String
  scanner : Scanner

namespace Reader

def ofString (source : String) : Reader := ⟨source, Scanner.ofString source⟩

/-- Whether only gaps are left. The reader does not move unless a lexical error comes next,
which is then used up. -/
def atEnd (r : Reader) : Except ReadError Bool × Reader :=
  match r.scanner.next with
  | (none, _) => (.ok true, r)
  | (some (.error e), s) => (.error (.lexical e), { r with scanner := s })
  | (some (.ok _), _) => (.ok false, r)

def one (r : Reader) : Except ReadError Value × Reader :=
  let (result, s) := r.scanner.readValue []
  (result, { r with scanner := s })

def located (r : Reader) : Except ReadError (Located Value) × Reader :=
  let (result, r') := r.one
  (result.map fun v => ⟨v, ⟨r.scanner.skip.offset, r'.scanner.offset⟩⟩, r')

def all (r : Reader) : Except ReadError (List Value) × Reader :=
  let (result, s) := r.scanner.readAll []
  (result, { r with scanner := s })

end Reader

/-- Reads all values of a text. -/
def Value.readAll (source : String) : Except ReadError (List Value) :=
  (Reader.ofString source).all.1

/-- Reads a text that consists of exactly one value. -/
def Value.read (source : String) : Except ReadError Value :=
  match (Reader.ofString source).one with
  | (.error e, _) => .error e
  | (.ok v, r) =>
    match r.scanner.next with
    | (none, _) => .ok v
    | (some (.error e), _) => .error (.lexical e)
    | (some (.ok token), _) =>
      .error (.malformed .trailingInput ⟨token.span.start, source.utf8ByteSize⟩)

end MakerForms
