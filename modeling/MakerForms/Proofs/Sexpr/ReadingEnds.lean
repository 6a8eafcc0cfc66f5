import MakerForms.Proofs.Sexpr.FirstEvent

set_option autoImplicit false

/-! # Reading gets to the end of the text

Reading a value uses up at least one result as long as results are to come, also when it fails
(`Reader.length_results_one_lt`). So reading values again and again, whatever is answered, gets to
the end of the text (`Reader.exists_ended`). There the answer is that a value is expected, which is
the answer nowhere else (`Reader.results_eq_nil_of_one`), and a reader stays there whatever it is
asked to do (`Reader.Ended.perform`, `Reader.Ended.run`).

That reading all values comes to an end is built into `Parser.all`, which recurs on a measure. Here
the loops and the descent are given once more without any, from `Parser.valueWithin` to
`Parser.allWithin`: nothing comes of them if more calls than a given number would be under way at a
time, a round of a loop being a call inside the round before. Each token makes the text that is left
shorter, and from one token to the next there are three calls at most. So with three calls for each
character that is left, and a few more, they come to what the others come to
(`Parser.valueWithin_eq`, `Parser.allWithin_eq`).
-/

namespace MakerForms

open Reader (Operation Answer)

/-! ## The end of the text -/

section Events

variable {stop n : Nat} {results : List (Except LexError (Located Token))} {e : ReadError}

/-- A value is expected only where nothing is left. -/
theorem FirstEvent.results_eq_nil (h : FirstEvent stop results (.error e) n)
    (htold : e.Tells "expected a value" ⟨stop, stop⟩) : results = [] := by
  obtain ⟨before, hquiet, hbefore, -, hevent⟩ := h
  generalize hresult : results[before.length]? = result at hevent
  cases hevent with
  | valueExpected hnone _ =>
      -- nothing is open behind the tokens before, so there are none, and none comes next
      have hnil : before = [] := by
        by_contra hne
        exact (hquiet before hne (List.prefix_refl before)).1 hnone
      rw [hnil] at hresult
      cases results with
      | nil => rfl
      | cons first rest => cases hresult
  | lexical e =>
      obtain ⟨_, hmalformed, _⟩ := htold
      cases hmalformed
  | strayClose _ htold' | nestedTooDeep _ htold' | unclosedList _ htold' =>
      exact absurd (htold.message_eq htold') (by decide +kernel)

end Events

namespace Reader

/-- What an operation answers at the end of a text of `stop` bytes. -/
def endAnswer (stop : Nat) : Operation → Except ReadError Answer
  | .atEnd => .ok (.atEnd true)
  | .one | .located => .error (.malformed .valueExpected ⟨stop, stop⟩)
  | .all => .ok (.values [])

/-- Whether a reader is at the end of its text, apart from a gap. -/
structure Ended (r : Reader) : Prop where
  results_eq : r.scanner.results = []
  endsAt : r.scanner.EndsAt r.source.utf8ByteSize

variable {r : Reader}

/-- At the end an operation answers that nothing is left. -/
theorem Ended.answer (h : r.Ended) (operation : Operation) :
    (r.perform operation).1 = endAnswer r.source.utf8ByteSize operation := by
  rcases hnext : r.scanner.next with ⟨_ | result, s⟩
  · obtain ⟨-, hoffset⟩ := h.endsAt.next_none hnext
    have hread : r.scanner.readValue []
        = (.error (Progress.atEnd r.source.utf8ByteSize []), s) := by
      rw [Scanner.readValue_of_next_none hnext, hoffset]
    have hall : r.scanner.readAll [] = (.ok [], r.scanner) := by
      rw [Scanner.readAll, hnext]
      rfl
    cases operation with
    | atEnd =>
        rw [perform, Reader.atEnd, hnext]
        rfl
    | one =>
        rw [perform, Reader.one, hread]
        rfl
    | located =>
        rw [perform, located_eq, hread]
        rfl
    | all =>
        rw [perform, Reader.all, hall]
        rfl
  · have hresults := h.results_eq
    rw [Scanner.results_of_next_some hnext] at hresults
    cases hresults

theorem endsAt_perform (hends : r.scanner.EndsAt r.source.utf8ByteSize) (operation : Operation) :
    (r.perform operation).2.scanner.EndsAt (r.perform operation).2.source.utf8ByteSize := by
  obtain ⟨hsource, consumed, hconsumes, -⟩ := r.exists_consumes_perform operation
  obtain ⟨cs, hpasses⟩ := hconsumes.exists_passes
  rw [hsource]
  exact hends.passes hpasses

/-- An operation does not get back from the end of the text. -/
theorem Ended.perform (h : r.Ended) (operation : Operation) :
    (r.perform operation).2.Ended ∧ (r.perform operation).2.source = r.source := by
  obtain ⟨hsource, consumed, hconsumes, -⟩ := r.exists_consumes_perform operation
  have hresults := hconsumes.results_eq
  rw [h.results_eq] at hresults
  exact ⟨⟨(List.append_eq_nil_iff.mp hresults.symm).2, endsAt_perform h.endsAt operation⟩, hsource⟩

/-- At the end all operations answer that nothing is left. -/
theorem Ended.run (h : r.Ended) (later : List Operation) :
    (r.run later).1 = later.map (endAnswer r.source.utf8ByteSize) := by
  induction later generalizing r with
  | nil => rfl
  | cons operation rest ih =>
      obtain ⟨hended, hsource⟩ := h.perform operation
      rw [run_cons, h.answer, ih hended, hsource, List.map_cons]

theorem exists_firstEvent (hends : r.scanner.EndsAt r.source.utf8ByteSize) :
    ∃ n : Nat, FirstEvent r.source.utf8ByteSize r.scanner.results r.one.1 n ∧
      (r.perform .one).2 = ⟨r.source, r.scanner.after n⟩ := by
  have hfollows : (Parser.bare r.source r.scanner).Follows r := ⟨rfl, rfl, hends⟩
  obtain ⟨n, hfirst, -, -, hone⟩ := hfollows.exists_firstEvent
  rw [hfollows.upcoming_eq] at hfirst
  refine ⟨n, ?_, congrArg Prod.snd hone⟩
  rw [hone]
  exact hfirst

/-- Reading a value leaves fewer results, if any are left. -/
theorem length_results_one_lt (hends : r.scanner.EndsAt r.source.utf8ByteSize)
    (hsome : r.scanner.results ≠ []) :
    (r.perform .one).2.scanner.results.length < r.scanner.results.length := by
  obtain ⟨n, ⟨before, -, -, rfl, -⟩, hone⟩ := exists_firstEvent hends
  have hpositive := List.length_pos_iff.mpr hsome
  rw [hone, Scanner.results_after, List.length_drop]
  omega

/-- A value is expected only where nothing is left. -/
theorem results_eq_nil_of_one (hends : r.scanner.EndsAt r.source.utf8ByteSize) {e : ReadError}
    (hanswer : (r.perform .one).1 = .error e)
    (htold : e.Tells "expected a value" ⟨r.source.utf8ByteSize, r.source.utf8ByteSize⟩) :
    r.scanner.results = [] := by
  obtain ⟨n, hfirst, -⟩ := exists_firstEvent hends
  rw [perform] at hanswer
  cases hone : r.one.1 with
  | ok v =>
      rw [hone] at hanswer
      cases hanswer
  | error e' =>
      rw [hone] at hanswer hfirst
      obtain rfl := Except.error.inj hanswer
      exact hfirst.results_eq_nil htold

/-- Reading values again and again gets to the end of the text, and no answer on the way is that
the text has ended. -/
theorem exists_ended (hends : r.scanner.EndsAt r.source.utf8ByteSize) :
    ∃ n ≤ r.scanner.results.length,
      (r.run (List.replicate n .one)).2.Ended ∧
      (r.run (List.replicate n .one)).2.source = r.source ∧
      ∀ e, .error e ∈ (r.run (List.replicate n .one)).1 →
        ¬ e.Tells "expected a value" ⟨r.source.utf8ByteSize, r.source.utf8ByteSize⟩ := by
  -- the induction is on the number of results that are left, which each value makes smaller
  induction hleft : r.scanner.results.length using Nat.strong_induction_on generalizing r with
  | _ left ih =>
    by_cases hnone : r.scanner.results = []
    · exact ⟨0, Nat.zero_le _, ⟨hnone, hends⟩, rfl, by simp [run]⟩
    · have hfewer := length_results_one_lt hends hnone
      obtain ⟨hsource, -⟩ := r.exists_consumes_perform .one
      rw [hleft] at hfewer
      obtain ⟨n, hn, hended, hlast, hanswers⟩ := ih _ hfewer (endsAt_perform hends .one) rfl
      rw [hsource] at hlast hanswers
      refine ⟨n + 1, by omega, hended, hlast, fun e he htold => ?_⟩
      rw [List.replicate_succ, run_cons] at he
      rcases List.mem_cons.mp he with hhere | hlater
      · exact hnone (results_eq_nil_of_one hends hhere.symm htold)
      · exact hanswers e hlater htold

end Reader

/-! ## Loops and descent without a measure -/

namespace Parser

-- the text of `value`, `list`, `items`, `located`, `one` and `all`, but the descent goes down on
-- `fuel`, so that nothing but the number of calls keeps it from going on

mutual

/-- The value that starts with a token, or none where more than `fuel` calls would be under way
inside one another. -/
def valueWithin (p : Parser) (token : Located (Option Token)) (depth : Nat) :
    Nat → Option (Except ReadError Value × Parser)
  | 0 => none
  | fuel + 1 =>
    match token.value with
    | none => some (.error (.malformed .valueExpected token.span), p)
    | some .openParen => listWithin p token.span (depth + 1) fuel
    | some .closeParen => some (.error (.malformed .strayClose token.span), p)
    | some (.symbol a) => some (.ok (.symbol a), p)
    | some (.integer i) => some (.ok (.integer i), p)
    | some (.string a) => some (.ok (.string a), p)
    | some (.character code) => some (.ok (.character code), p)

/-- The list behind an opening parenthesis, unless it is nested too deep. -/
def listWithin (p : Parser) (paren : Span) (depth : Nat) :
    Nat → Option (Except ReadError Value × Parser)
  | 0 => none
  | fuel + 1 =>
    if maxDepth < depth then some (.error (.malformed .nestedTooDeep paren), p)
    else itemsWithin p paren depth [] fuel

/-- The items of a list up to its end. Each of them may use the calls that are left. -/
def itemsWithin (p : Parser) (paren : Span) (depth : Nat) (read : List Value) :
    Nat → Option (Except ReadError Value × Parser)
  | 0 => none
  | fuel + 1 =>
    match p.advance with
    | (.error e, p') => some (.error (.lexical e), p')
    | (.ok ⟨none, span⟩, p') =>
      some (.error (.malformed .unclosedList ⟨paren.start, span.stop⟩), p')
    | (.ok ⟨some .closeParen, _⟩, p') => some (.ok (.list read.reverse), p')
    | (.ok ⟨some t, span⟩, p') =>
      match valueWithin p' ⟨some t, span⟩ depth fuel with
      | none => none
      | some (.error e, p'') => some (.error e, p'')
      | some (.ok v, p'') => itemsWithin p'' paren depth (v :: read) fuel

end

/-- The next value with its span, read with at most `fuel` calls below this one. -/
def locatedWithin (p : Parser) (fuel : Nat) :
    Option (Except ReadError (Located Value) × Parser) :=
  match p.advance with
  | (.error e, p') => some (.error (.lexical e), p')
  | (.ok token, p') =>
    match p'.valueWithin token 0 fuel with
    | none => none
    | some (.error e, p'') => some (.error e, p'')
    | some (.ok v, p'') => some (.ok ⟨v, ⟨token.span.start, p''.scanner.offset⟩⟩, p'')

/-- The next value, read in the same way and given without its span. -/
def oneWithin (p : Parser) (fuel : Nat) : Option (Except ReadError Value × Parser) :=
  (p.locatedWithin fuel).map fun out => (out.1.map Located.value, out.2)

/-- Reads all values that are left with at most `fuel` calls inside one another. -/
def allWithin (p : Parser) (read : List Value) :
    Nat → Option (Except ReadError (List Value) × Parser)
  | 0 => none
  | fuel + 1 =>
    match p.atEnd with
    | (.error e, p') => some (.error e, p')
    | (.ok true, p') => some (.ok read.reverse, p')
    | (.ok false, p') =>
      match p'.oneWithin fuel with
      | none => none
      | some (.error e, p'') => some (.error e, p'')
      | some (.ok v, p'') => p''.allWithin (v :: read) fuel

mutual

theorem valueWithin_eq (p : Parser) (token : Located (Option Token)) (depth : Nat) {fuel : Nat}
    (hfuel : 3 * p.unread + 2 < fuel) :
    p.valueWithin token depth fuel = some (p.value token depth).1 := by
  cases fuel with
  | zero => omega
  | succ fuel =>
      obtain ⟨_ | t, span⟩ := token
      · rw [valueWithin, value]
      · cases t with
        | openParen =>
            rw [value.eq_def]
            exact listWithin_eq p span (depth + 1) (by omega)
        | closeParen | symbol _ | integer _ | string _ | character _ => rw [valueWithin, value]
termination_by fuel

theorem listWithin_eq (p : Parser) (paren : Span) (depth : Nat) {fuel : Nat}
    (hfuel : 3 * p.unread + 1 < fuel) :
    p.listWithin paren depth fuel = some (p.list paren depth).1 := by
  cases fuel with
  | zero => omega
  | succ fuel =>
      rw [listWithin, list]
      split
      · rfl
      · exact itemsWithin_eq p paren depth [] (by omega)
termination_by fuel

theorem itemsWithin_eq (p : Parser) (paren : Span) (depth : Nat) (read : List Value) {fuel : Nat}
    (hfuel : 3 * p.unread < fuel) :
    p.itemsWithin paren depth read fuel = some (p.items paren depth read).1 := by
  cases fuel with
  | zero => omega
  | succ fuel =>
      rcases hadvance : p.advance with ⟨e | ⟨_ | t, span⟩, p'⟩
      · rw [itemsWithin, items_eq, hadvance]
      · rw [itemsWithin, items_eq, hadvance]
      · have hshorter := unread_advance_lt hadvance
        by_cases hclose : t = .closeParen
        · subst hclose
          rw [itemsWithin, items_eq, hadvance]
        · have hvalue := valueWithin_eq p' ⟨some t, span⟩ depth (by omega : _ < fuel)
          have hle := (p'.value ⟨some t, span⟩ depth).2
          have hitem : p.itemsWithin paren depth read (fuel + 1) =
              match p'.valueWithin ⟨some t, span⟩ depth fuel with
              | none => none
              | some (.error e, p'') => some (.error e, p'')
              | some (.ok v, p'') => p''.itemsWithin paren depth (v :: read) fuel := by
            rw [itemsWithin, hadvance]
            cases t with
            | closeParen => exact absurd rfl hclose
            | _ => rfl
          rw [hitem, hvalue, items_of_item hadvance hclose]
          rcases hread : (p'.value ⟨some t, span⟩ depth).1 with ⟨e | v, p''⟩
          · rfl
          · rw [hread] at hle
            have hle' : p''.unread ≤ p'.unread := hle
            exact itemsWithin_eq p'' paren depth (v :: read) (by omega)
termination_by fuel

end

variable {p q : Parser} {fuel : Nat}

theorem locatedWithin_eq (hfuel : 3 * p.unread + 2 < fuel) :
    p.locatedWithin fuel = some p.located := by
  rcases hadvance : p.advance with ⟨e | token, p'⟩
  · rw [locatedWithin, located, hadvance]
  · have hle := p.unread_advance_le
    rw [hadvance] at hle
    have hle' : p'.unread ≤ p.unread := hle
    rw [locatedWithin, located, hadvance]
    dsimp only
    rw [valueWithin_eq p' token 0 (by omega)]
    rcases (p'.value token 0).1 with ⟨e | v, p''⟩ <;> rfl

theorem oneWithin_eq (hfuel : 3 * p.unread + 2 < fuel) : p.oneWithin fuel = some p.one := by
  rw [oneWithin, locatedWithin_eq hfuel]
  rfl

theorem oneWithin_congr (h : p.advance = q.advance) (fuel : Nat) :
    p.oneWithin fuel = q.oneWithin fuel := by
  rw [oneWithin, locatedWithin, h, oneWithin, locatedWithin]

/-- With three calls for each character that is left, and four more, all values are read. -/
theorem allWithin_eq (read : List Value) (hfuel : 3 * p.unread + 3 < fuel) :
    p.allWithin read fuel = some (p.all read) := by
  induction fuel generalizing p read with
  | zero => omega
  | succ fuel ih =>
      rcases hlook : p.atEnd with ⟨e | _ | _, p'⟩
      · rw [allWithin, all_eq, hlook]
      · -- a value is left, and to have looked for it changes nothing
        have hadvance := advance_atEnd (congrArg Prod.fst hlook)
        rw [hlook] at hadvance
        have hone : p'.oneWithin fuel = some p'.one := by
          rw [oneWithin_congr hadvance, one_congr hadvance, oneWithin_eq (by omega)]
        rw [allWithin, all_eq, hlook]
        dsimp only
        rw [hone]
        rcases hvalue : p'.one with ⟨e | v, p''⟩
        · rfl
        · rw [one_congr hadvance] at hvalue
          have hshorter := unread_one_lt hvalue
          exact ih (v :: read) (by omega)
      · rw [allWithin, all_eq, hlook]

/-- Parsers that advance alike need as much. -/
theorem allWithin_congr (h : p.advance = q.advance) (read : List Value) (fuel : Nat) :
    p.allWithin read fuel = q.allWithin read fuel := by
  cases fuel with
  | zero => rfl
  | succ fuel => rw [allWithin, atEnd_congr h, allWithin]

end Parser

/-- A token that is held back makes no difference to what a parser needs to read all values. -/
theorem Parser.Follows.allWithin_eq {p : Parser} {r : Reader} (h : p.Follows r)
    (read : List Value) {fuel : Nat} (hfuel : 3 * r.source.utf8ByteSize + 3 < fuel) :
    p.allWithin read fuel = some (p.all read) := by
  have hends : r.scanner.offset + byteSize r.scanner.rest = r.source.utf8ByteSize := h.endsAt
  have hlength := length_le_byteSize r.scanner.rest
  have hunread : (Parser.bare r.source r.scanner).unread = r.scanner.rest.length := rfl
  rw [Parser.allWithin_congr h.advance_eq, Parser.all_congr h.advance_eq]
  exact Parser.allWithin_eq read (by omega)

namespace Parser

/-- **Reading gets to the end of the text.** Wherever operations have led, also behind errors and
with a token held back: if values are read again and again, whatever is answered, no more answers
come than the text has bytes before the answer is that a value is expected at the end of the text.
That is the answer from then on, looking for the end finds it, and reading all values finds none,
in whatever order this is done. Reading all values comes to an end from every place of every text,
and at no time are more calls under way inside one another than three for each byte of the text and
four. -/
theorem reading_ends (source : String) (operations : List Operation) :
    (∃ answers : List (Except ReadError Answer),
      answers.length ≤ source.utf8ByteSize ∧
      (∀ e, .error e ∈ answers →
        ¬ e.Tells "expected a value" ⟨source.utf8ByteSize, source.utf8ByteSize⟩) ∧
      ∀ later : List Operation,
        ((reached source operations).run (List.replicate answers.length .one ++ later)).1
          = answers ++ later.map (Reader.endAnswer source.utf8ByteSize)) ∧
    (∃ e : ReadError, Reader.endAnswer source.utf8ByteSize .one = .error e ∧
      e.Tells "expected a value" ⟨source.utf8ByteSize, source.utf8ByteSize⟩) ∧
    (∀ fuel, 3 * source.utf8ByteSize + 3 < fuel →
      (reached source operations).allWithin [] fuel = some ((reached source operations).all [])) ∧
    ∀ (p : Parser) (fuel : Nat), 3 * p.unread + 3 < fuel →
      p.allWithin [] fuel = some (p.all []) := by
  obtain ⟨-, hfollows⟩ := answers_eq_reader source operations
  obtain ⟨hsource, consumed, hconsumes, -⟩ :=
    (Reader.ofString source).exists_consumes_run operations
  have hsource' : (Reader.reached source operations).source = source := hsource
  refine ⟨?_, ⟨_, rfl, _, rfl, rfl⟩, fun fuel hfuel => ?_, fun p fuel => allWithin_eq []⟩
  · obtain ⟨n, hn, hended, hlast, hanswers⟩ := Reader.exists_ended hfollows.endsAt
    have hresults := hconsumes.results_eq
    have hbytes : (Scanner.ofString source).results.length ≤ source.utf8ByteSize := by
      rw [utf8ByteSize_eq_byteSize]
      exact (Scanner.ofString source).tiles_results.length_le
    have hfew : n ≤ source.utf8ByteSize := by
      have hlength := congrArg List.length hresults
      rw [List.length_append] at hlength
      calc n ≤ (Reader.reached source operations).scanner.results.length := hn
        _ ≤ (Scanner.ofString source).results.length := hlength ▸ Nat.le_add_left _ _
        _ ≤ source.utf8ByteSize := hbytes
    rw [hsource'] at hlast hanswers
    refine ⟨((Reader.reached source operations).run (List.replicate n .one)).1, ?_, hanswers,
      fun later => ?_⟩
    · rw [Reader.length_run, List.length_replicate]
      exact hfew
    · rw [Reader.length_run, List.length_replicate, (hfollows.run _).1, Reader.run_append,
        hended.run, hlast]
  · rw [← hsource'] at hfuel
    exact hfollows.allWithin_eq [] hfuel

/-- A symbol, a list with a word that is no token, and a character that breaks off. -/
def brokenText : String := "A (2B) (CODE-CHAR"

theorem reading_ends_brokenText :
    (∃ answers : List (Except ReadError Answer), answers.length ≤ 17 ∧
      ∀ later : List Operation,
        ((reached brokenText [.atEnd]).run (List.replicate answers.length .one ++ later)).1
          = answers ++ later.map (Reader.endAnswer 17)) ∧
    ((reached brokenText [.atEnd]).run [.one, .one, .one, .one, .one, .all]).1
      = [.ok (.value (.symbol (.bare "A"))),
        .error (.lexical ⟨.malformedInteger, "2B", ⟨3, 5⟩⟩),
        .error (.malformed .strayClose ⟨5, 6⟩),
        .error (.lexical ⟨.characterCode, "(CODE-CHAR", ⟨7, 17⟩⟩),
        .error (.malformed .valueExpected ⟨17, 17⟩), .ok (.values [])] ∧
    ((reached brokenText [.atEnd]).allWithin [] 55).map Prod.fst
      = some (.error (.lexical ⟨.malformedInteger, "2B", ⟨3, 5⟩⟩)) ∧
    ((ofString brokenText).allWithin [] 55).map Prod.fst
      = some (.error (.lexical ⟨.malformedInteger, "2B", ⟨3, 5⟩⟩)) := by
  have hsize : brokenText.utf8ByteSize = 17 := by decide +kernel
  have hunread : (ofString brokenText).unread = 17 := by decide +kernel
  obtain ⟨⟨answers, hlength, -, hlater⟩, -, hall, hany⟩ := reading_ends brokenText [.atEnd]
  rw [hsize] at hlength hlater hall
  refine ⟨⟨answers, hlength, hlater⟩, by decide +kernel, ?_, ?_⟩
  · rw [hall 55 (by omega)]
    decide +kernel
  · rw [hany (ofString brokenText) 55 (by omega)]
    decide +kernel

end Parser

end MakerForms
