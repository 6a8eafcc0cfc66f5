import MakerForms.Proofs.Sexpr.Parser
import MakerForms.Proofs.Sexpr.Slice
import MakerForms.Proofs.Sexpr.TokenReading

set_option autoImplicit false

/-! # Reading by descent and reading with a stack

A `Parser` that has done the same operations as a `Reader` may be one token ahead of it, and keeps
no stack of open lists. Nonetheless both answer the same, whatever they have been asked before
(`Parser.answers_eq_reader`).

Within open lists the descent into a value comes back with what a reader goes on with. This holds
for every stack of lists around the value (`Parser.Unwinds`), so it holds of the items of a list
once it holds of the list (`Parser.unwinds_items`). Apart from that, a parser does what it does to
the token that comes next, and that token is the same for both (`Parser.Follows`).
-/

namespace MakerForms

/-! ## A reader goes on as the descent comes back -/

namespace Scanner

/-- Whether the text that a scanner has still to read ends at the byte `stop`. -/
def EndsAt (s : Scanner) (stop : Nat) : Prop := s.offset + byteSize s.rest = stop

theorem endsAt_ofString (source : String) : (ofString source).EndsAt source.utf8ByteSize :=
  (isBehind_ofString source).end_eq

theorem EndsAt.passes {s s' : Scanner} {cs : List Char} {stop : Nat} (h : s.EndsAt stop)
    (hpasses : s.Passes cs s') : s'.EndsAt stop :=
  hpasses.end_eq.trans h

theorem EndsAt.next {s s' : Scanner} {result : Except LexError (Located Token)} {stop : Nat}
    (h : s.EndsAt stop) (hnext : s.next = (some result, s')) : s'.EndsAt stop := by
  obtain ⟨cs, hpasses⟩ := (consumes_of_next hnext).1.exists_passes
  exact h.passes hpasses

theorem EndsAt.next_none {s s' : Scanner} {stop : Nat} (h : s.EndsAt stop)
    (hnext : s.next = (none, s')) : s'.EndsAt stop ∧ s'.offset = stop := by
  have hend := h.passes (passes_of_next_none hnext)
  refine ⟨hend, ?_⟩
  rw [EndsAt, rest_of_next_none hnext] at hend
  exact hend

theorem readValue_of_next_none {s s' : Scanner} (hnext : s.next = (none, s'))
    (stack : List OpenList) :
    s.readValue stack = (.error (Progress.atEnd s'.offset stack), s') := by
  rw [readValue, hnext]

/-- What reading goes on to behind a token that has been taken. -/
def afterToken (s : Scanner) (stack : List OpenList) (token : Located Token) :
    Except ReadError Value × Scanner :=
  match Progress.step stack token with
  | .error e => (.error e, s)
  | .ok p => s.resume p

theorem readValue_of_next_ok {s s' : Scanner} {token : Located Token}
    (hnext : s.next = (some (.ok token), s')) (stack : List OpenList) :
    s.readValue stack = s'.afterToken stack token := by
  rw [afterToken]
  cases hstep : Progress.step stack token with
  | error e => exact readValue_of_step_error hnext hstep
  | ok p => exact readValue_of_step hnext hstep

end Scanner

namespace Parser

open Reader (Operation Answer)

/-- What reading comes to within the lists `outer` when the descent comes back with something: a
value is put into the innermost of them and reading goes on, an error ends it. -/
def unwind (outer : List OpenList) :
    Except ReadError Value × Parser → Except ReadError Value × Scanner
  | (.error e, p) => (.error e, p.scanner)
  | (.ok v, p) => p.scanner.resume (Progress.deliver v outer)

/-- Whether a reader that has the lists `outer` open goes on as the descent comes back, which is
left at a place of the text with no token held back. -/
structure Unwinds (source : String) (outer : List OpenList)
    (out : Except ReadError Value × Parser) (read : Except ReadError Value × Scanner) : Prop where
  bare_eq : out.2 = bare source out.2.scanner
  endsAt : out.2.scanner.EndsAt source.utf8ByteSize
  read_eq : read = unwind outer out

/-- Outside of all lists the descent comes back with what is read. -/
theorem Unwinds.read_eq_of_nil {source : String} {out : Except ReadError Value × Parser}
    {read : Except ReadError Value × Scanner} (h : Unwinds source [] out read) :
    read = (out.1, out.2.scanner) := by
  rw [h.read_eq]
  rcases out with ⟨_ | _, _⟩ <;> rfl

section Descent

variable {source : String}

mutual

/-- Behind the token that a value starts with, a reader goes on as the value comes back. -/
theorem unwinds_value (s : Scanner) (token : Located Token) (outer : List OpenList)
    (hs : s.EndsAt source.utf8ByteSize) (hclose : token.value = .closeParen → outer = []) :
    Unwinds source outer
      ((bare source s).value ⟨some token.value, token.span⟩ outer.length).1
      (s.afterToken outer token) := by
  obtain ⟨t, span⟩ := token
  rw [value.eq_def]
  cases t with
  | openParen => exact unwinds_list s span outer hs
  | closeParen =>
      obtain rfl := hclose rfl
      exact ⟨rfl, hs, rfl⟩
  | symbol _ | integer _ | string _ | character _ => exact ⟨rfl, hs, rfl⟩
termination_by (s.rest.length, 2)

/-- Behind an opening parenthesis, a reader goes on as the list comes back. -/
theorem unwinds_list (s : Scanner) (paren : Span) (outer : List OpenList)
    (hs : s.EndsAt source.utf8ByteSize) :
    Unwinds source outer ((bare source s).list paren (outer.length + 1)).1
      (s.afterToken outer ⟨.openParen, paren⟩) := by
  rw [list]
  by_cases hroom : outer.length < maxDepth
  · have hstep : Progress.step outer ⟨.openParen, paren⟩
        = .ok (.more (⟨paren, []⟩ :: outer)) := by
      simp only [Progress.step, if_pos hroom]
    rw [if_neg (by omega), Scanner.afterToken, hstep]
    exact unwinds_items s paren [] outer hs
  · have hstep : Progress.step outer ⟨.openParen, paren⟩
        = .error (.malformed .nestedTooDeep paren) := by
      simp only [Progress.step, if_neg hroom]
    rw [if_pos (by omega), Scanner.afterToken, hstep]
    exact ⟨rfl, hs, rfl⟩
termination_by (s.rest.length, 1)

/-- In a list, a reader goes on as the rest of the list comes back. -/
theorem unwinds_items (s : Scanner) (paren : Span) (read : List Value) (outer : List OpenList)
    (hs : s.EndsAt source.utf8ByteSize) :
    Unwinds source outer ((bare source s).items paren (outer.length + 1) read).1
      (s.readValue (⟨paren, read⟩ :: outer)) := by
  rcases hnext : s.next with ⟨_ | e | ⟨t, span⟩, s'⟩
  · obtain ⟨hs', hoffset⟩ := hs.next_none hnext
    rw [items_eq, advance_of_next_none hnext, Scanner.readValue_of_next_none hnext, hoffset]
    exact ⟨rfl, hs', rfl⟩
  · rw [items_eq, advance_of_next_error hnext, Scanner.readValue_of_fault _ hnext]
    exact ⟨rfl, hs.next hnext, rfl⟩
  · have hs' := hs.next hnext
    have hshorter := Scanner.length_lt_of_next hnext
    rw [Scanner.readValue_of_next_ok hnext]
    by_cases hclose : t = .closeParen
    · subst hclose
      rw [items_eq, advance_of_next_ok hnext]
      exact ⟨rfl, hs', rfl⟩
    · rw [items_of_item (advance_of_next_ok hnext) hclose]
      have hitem := unwinds_value s' ⟨t, span⟩ (⟨paren, read⟩ :: outer) hs'
        fun h => absurd h hclose
      have hle := ((bare source s').value ⟨some t, span⟩ (outer.length + 1)).2
      rw [List.length_cons] at hitem
      rcases hvalue : ((bare source s').value ⟨some t, span⟩ (outer.length + 1)).1 with
        ⟨e | v, p⟩
      · rw [hvalue] at hitem
        exact ⟨hitem.bare_eq, hitem.endsAt, hitem.read_eq⟩
      · -- the reader has put the item into the list, and goes on with the rest of it
        rw [hvalue] at hitem hle
        obtain ⟨hbare, hends, hread⟩ := hitem
        have hbare' : p = bare source p.scanner := hbare
        have hle' : p.scanner.rest.length ≤ s'.rest.length := by
          rw [hbare'] at hle
          exact hle
        have hrest := unwinds_items p.scanner paren (v :: read) outer hends
        rw [← hbare'] at hrest
        rw [hread]
        exact hrest
termination_by (s.rest.length, 0)

end

end Descent

/-! ## The same answers -/

section Answers

variable {p : Parser} {r : Reader}

/-- A parser without a token held back reads as the reader at its place. -/
theorem located_bare (hs : r.scanner.EndsAt r.source.utf8ByteSize) :
    (bare r.source r.scanner).located = (r.located.1, bare r.source r.located.2.scanner) ∧
      r.located.2.scanner.EndsAt r.source.utf8ByteSize := by
  rw [Reader.located_eq]
  rcases hnext : r.scanner.next with ⟨_ | e | token, s'⟩
  · obtain ⟨hs', hoffset⟩ := hs.next_none hnext
    rw [Scanner.readValue_of_next_none hnext, hoffset, located, advance_of_next_none hnext]
    refine ⟨?_, hs'⟩
    simp only [value]
    rfl
  · rw [Scanner.readValue_of_fault _ hnext, located, advance_of_next_error hnext]
    exact ⟨rfl, hs.next hnext⟩
  · obtain ⟨-, -, -, hspan, -⟩ := Scanner.next_eq_some hnext
    have hstart : token.span.start = r.scanner.skip.offset := congrArg Span.start hspan
    have hdescent : Unwinds r.source []
        ((bare r.source s').value ⟨some token.value, token.span⟩ 0).1 (s'.afterToken [] token) :=
      unwinds_value s' token [] (hs.next hnext) fun _ => rfl
    rw [Scanner.readValue_of_next_ok hnext, hdescent.read_eq_of_nil, located,
      advance_of_next_ok hnext]
    refine ⟨?_, hdescent.endsAt⟩
    show _ = (_, bare r.source _)
    rw [← hdescent.bare_eq, ← hstart]
    dsimp only
    rcases ((bare r.source s').value ⟨some token.value, token.span⟩ 0).1 with ⟨_ | _, q⟩ <;> rfl

theorem one_bare (hs : r.scanner.EndsAt r.source.utf8ByteSize) :
    (bare r.source r.scanner).one = (r.one.1, bare r.source r.one.2.scanner) ∧
      r.one.2.scanner.EndsAt r.source.utf8ByteSize := by
  obtain ⟨hlocated, hends⟩ := located_bare hs
  have hone : r.located.1.map Located.value = r.one.1 := by
    rw [Reader.located]
    rcases r.one with ⟨_ | _, _⟩ <;> rfl
  refine ⟨?_, hends⟩
  rw [one, hlocated, hone]
  rfl

/-- Whether a parser is at the place of a reader, apart from a token that it may hold back. -/
structure Follows (p : Parser) (r : Reader) : Prop where
  advance_eq : p.advance = (bare r.source r.scanner).advance
  upcoming_eq : p.upcoming = r.scanner.results
  endsAt : r.scanner.EndsAt r.source.utf8ByteSize

theorem follows_ofString (source : String) : (ofString source).Follows (Reader.ofString source) :=
  ⟨rfl, rfl, Scanner.endsAt_ofString source⟩

/-- The next token tells whether the text has ended, and is still to come then. -/
theorem Follows.atEnd (h : p.Follows r) :
    p.atEnd.1 = r.atEnd.1 ∧ p.atEnd.2.Follows r.atEnd.2 := by
  have hadvance : ∀ b, p.atEnd.1 = .ok b →
      p.atEnd.2.advance = (bare r.source r.scanner).advance :=
    fun b hb => (advance_atEnd hb).trans h.advance_eq
  rw [atEnd_congr h.advance_eq] at hadvance ⊢
  -- unless there is an error, the parser gets behind what it looks at, and the reader does not
  rcases hnext : r.scanner.next with ⟨_ | e | token, s'⟩
  · have hleft : s'.results = r.scanner.results := by
      rw [(Scanner.consumes_of_next_none hnext).results_eq, List.nil_append]
    rw [atEnd_of_next_none hnext] at hadvance ⊢
    rw [Reader.atEnd, hnext]
    exact ⟨rfl, hadvance true rfl, hleft, h.endsAt⟩
  · rw [atEnd_of_next_error hnext, Reader.atEnd, hnext]
    exact ⟨rfl, rfl, rfl, h.endsAt.next hnext⟩
  · rw [atEnd_of_next_ok hnext] at hadvance ⊢
    rw [Reader.atEnd, hnext]
    exact ⟨rfl, hadvance false rfl, (Scanner.results_of_next_some hnext).symm, h.endsAt⟩

theorem Follows.located (h : p.Follows r) :
    p.located = (r.located.1, bare r.source r.located.2.scanner) ∧
      p.located.2.Follows r.located.2 := by
  obtain ⟨hlocated, hends⟩ := located_bare h.endsAt
  rw [located_congr h.advance_eq, hlocated]
  exact ⟨rfl, rfl, rfl, hends⟩

theorem Follows.one (h : p.Follows r) :
    p.one = (r.one.1, bare r.source r.one.2.scanner) ∧ p.one.2.Follows r.one.2 := by
  obtain ⟨hone, hends⟩ := one_bare h.endsAt
  rw [one_congr h.advance_eq, hone]
  exact ⟨rfl, rfl, rfl, hends⟩

theorem Follows.exists_atEnd {r' : Reader} {answer : Except ReadError Bool} (h : p.Follows r)
    (hr : r.atEnd = (answer, r')) : ∃ p', p.atEnd = (answer, p') ∧ p'.Follows r' := by
  obtain ⟨hanswer, hfollows⟩ := h.atEnd
  rw [hr] at hanswer hfollows
  exact ⟨p.atEnd.2, Prod.ext hanswer rfl, hfollows⟩

/-- While the text has not ended, a parser that reads all values does what the reader does with the
next one. -/
theorem Follows.exists_all_eq (h : p.Follows r) (hlook : r.atEnd = (.ok false, r))
    (before : List Value) :
    ∃ q : Parser, q.Follows r.one.2 ∧
      p.all before = match r.one.1 with
        | .error e => (.error e, q)
        | .ok v => q.all (v :: before) := by
  obtain ⟨p', hatEnd, hfollows⟩ := h.exists_atEnd hlook
  obtain ⟨hone, hfollows'⟩ := hfollows.one
  refine ⟨p'.one.2, hfollows', ?_⟩
  rw [all_eq, hatEnd]
  dsimp only
  rw [hone]
  cases r.one.1 <;> rfl

/-- While values are read, parser and reader stay together. -/
theorem Follows.all {source : String} {s : Scanner} (h : p.Follows ⟨source, s⟩)
    (before : List Value) :
    (p.all before).1 = (s.readAll before).1 ∧
      (p.all before).2.Follows ⟨source, (s.readAll before).2⟩ := by
  induction s, before using Scanner.readAll.induct generalizing p with
  | case1 s before s' hnext =>
      have hlook : (Reader.mk source s).atEnd = (.ok true, ⟨source, s⟩) := by
        rw [Reader.atEnd, hnext]
      obtain ⟨p', hatEnd, hfollows⟩ := h.exists_atEnd hlook
      rw [all_eq, hatEnd, Scanner.readAll, hnext]
      exact ⟨rfl, hfollows⟩
  | case2 s before e s' hnext =>
      have hlook : (Reader.mk source s).atEnd = (.error (.lexical e), ⟨source, s'⟩) := by
        rw [Reader.atEnd, hnext]
      obtain ⟨p', hatEnd, hfollows⟩ := h.exists_atEnd hlook
      rw [all_eq, hatEnd, Scanner.readAll, hnext]
      exact ⟨rfl, hfollows⟩
  | case3 s before token s' hnext e s₂ hread =>
      have hlook : (Reader.mk source s).atEnd = (.ok false, ⟨source, s⟩) := by
        rw [Reader.atEnd, hnext]
      have hone : (Reader.mk source s).one = (.error e, ⟨source, s₂⟩) := by
        rw [Reader.one, hread]
      obtain ⟨q, hfollows, hall⟩ := h.exists_all_eq hlook before
      rw [hone] at hfollows hall
      rw [hall, Scanner.readAll_of_next hnext, hread]
      exact ⟨rfl, hfollows⟩
  | case4 s before token s' hnext v s₂ hread ih =>
      have hlook : (Reader.mk source s).atEnd = (.ok false, ⟨source, s⟩) := by
        rw [Reader.atEnd, hnext]
      have hone : (Reader.mk source s).one = (.ok v, ⟨source, s₂⟩) := by
        rw [Reader.one, hread]
      obtain ⟨q, hfollows, hall⟩ := h.exists_all_eq hlook before
      rw [hone] at hfollows hall
      rw [hall, Scanner.readAll_of_next hnext, hread]
      exact ih hfollows

/-- An operation has the same answer and leaves parser and reader at the same place. -/
theorem Follows.perform (h : p.Follows r) (operation : Operation) :
    (p.perform operation).1 = (r.perform operation).1 ∧
      (p.perform operation).2.Follows (r.perform operation).2 := by
  cases operation with
  | atEnd =>
      obtain ⟨hanswer, hfollows⟩ := h.atEnd
      exact ⟨congrArg (Except.map Answer.atEnd) hanswer, hfollows⟩
  | one =>
      obtain ⟨hanswer, hfollows⟩ := h.one
      exact ⟨congrArg (fun out => out.1.map Answer.value) hanswer, hfollows⟩
  | located =>
      obtain ⟨hanswer, hfollows⟩ := h.located
      exact ⟨congrArg (fun out => out.1.map Answer.located) hanswer, hfollows⟩
  | all =>
      obtain ⟨hanswer, hfollows⟩ := Follows.all h []
      exact ⟨congrArg (Except.map Answer.values) hanswer, hfollows⟩

theorem Follows.run (h : p.Follows r) (operations : List Operation) :
    (p.run operations).1 = (r.run operations).1 ∧
      (p.run operations).2.Follows (r.run operations).2 := by
  induction operations generalizing p r with
  | nil => exact ⟨rfl, h⟩
  | cons operation rest ih =>
      obtain ⟨hanswer, hfollows⟩ := h.perform operation
      obtain ⟨hanswers, hlast⟩ := ih hfollows
      exact ⟨congrArg₂ List.cons hanswer hanswers, hlast⟩

end Answers

theorem after_bare (source : String) (s : Scanner) (n : Nat) :
    (bare source s).after n = bare source (s.after n) := by
  induction n generalizing s with
  | zero => rfl
  | succ n ih =>
      rw [after, advance_bare_snd, ih]
      rfl

/-- Once a token has been taken, a parser has taken as many as the reader's scanner. -/
theorem Follows.after_succ {p : Parser} {r : Reader} (h : p.Follows r) (n : Nat) :
    p.after (n + 1) = bare r.source (r.scanner.after (n + 1)) := by
  rw [after, h.advance_eq]
  exact after_bare r.source r.scanner (n + 1)

/-- The parser at the start of a text, after certain operations. -/
def reached (source : String) (operations : List Operation) : Parser :=
  ((ofString source).run operations).2

end Parser

/-- The reader at the start of a text, after certain operations. -/
def Reader.reached (source : String) (operations : List Operation) : Reader :=
  ((ofString source).run operations).2

namespace Parser

open Reader (Operation)

/-- **Descending and looking ahead cannot be told from reading with a stack.** A parser and a
reader that do the same operations, also behind errors, answer the same and get to the same place,
at which the same results are still to come. -/
theorem answers_eq_reader (source : String) (operations : List Operation) :
    ((ofString source).run operations).1 = ((Reader.ofString source).run operations).1 ∧
      (reached source operations).Follows (Reader.reached source operations) :=
  (follows_ofString source).run operations

end Parser

end MakerForms
