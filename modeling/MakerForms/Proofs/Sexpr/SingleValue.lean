import MakerForms.Proofs.Sexpr.AtEnd
import MakerForms.Proofs.Sexpr.FirstEvent
import MakerForms.Proofs.Sexpr.FormSpans

set_option autoImplicit false

/-! # Texts of exactly one value

A text may be read as exactly one value or as any number of values. The two ways agree
(`Value.read_agrees_with_readAll`): they give the same value where there is one, and the same error
where reading comes to one before it gets behind the first value and looks on. What else the one
refuses is what the other reads as no value or as several.

Several values are refused at the byte where the second begins. There the text may be cut: what
stands before reads as the first value alone, what stands behind as all others
(`Scanner.exists_split_behind_value`).

By descent, with a token held back, the end of the text is looked for twice, and a text is read the
same way (`Parser.single_eq_read`).
-/

namespace MakerForms

/-- No gap is left behind the gap that a text starts with. -/
theorem splitGap_behind (comment : Bool) (cs : List Char) :
    (splitGap false (splitGap comment cs).2).1 = [] := by
  induction cs generalizing comment with
  | nil => rfl
  | cons c cs ih =>
      simp only [splitGap]
      split
      · next comment' _ => exact ih comment'
      · next hstop =>
        -- inside a comment no character ends the gap
        have hcomment : comment = false := by
          cases comment with
          | false => rfl
          | true => simp [gapStep] at hstop
        rw [hcomment] at hstop
        simp [splitGap, hstop]

namespace Scanner

section Cutting

variable {source : String} {s s' t : Scanner} {v : Value}

/-- To pass a gap changes nothing that is still to come but the places. -/
theorem tokens_skip (s : Scanner) : s.skip.tokens = s.tokens := by
  have hgap : (splitGap false s.skip.rest).2 = s.skip.rest := by
    have hwhole := splitGap_append false s.skip.rest
    have hnone : (splitGap false s.skip.rest).1 = [] := splitGap_behind false s.rest
    rwa [hnone, List.nil_append] at hwhole
  have hlexemes : textLexemes s.skip.rest = textLexemes s.rest := by
    have hskip : (splitGap false s.rest).2 = s.skip.rest := rfl
    rw [textLexemes_eq, hgap, textLexemes_eq s.rest, hskip]
  rw [tokens_eq_fold, hlexemes, ← tokens_eq_fold]

theorem tokens_ofList_rest (s : Scanner) : (ofString (String.ofList s.rest)).tokens = s.tokens := by
  have hrest : (ofString (String.ofList s.rest)).rest = s.rest := String.toList_ofList
  rw [tokens_eq_fold, hrest, ← tokens_eq_fold]

/-- Where a value has been read and more follows, the text may be cut in front of what follows. The
text before it has the tokens of the value, that behind it starts with no gap. -/
theorem exists_split_behind_value (hread : (ofString source).readValue [] = (.ok v, s))
    {result : Except LexError (Located Token)} (hnext : s.next = (some result, t)) :
    ∃ before behind : String, source = before ++ behind ∧
      (resultSpan result).start = before.utf8ByteSize ∧
      (ofString before).tokens = v.tokens.map .ok ∧ (ofString behind).tokens = s.tokens ∧
      (splitGap false behind.toList).1 = [] := by
  obtain ⟨tokens, htakes, hv⟩ := exists_takes_readValue hread
  have hv' : tokens.map Located.value = v.tokens := hv
  obtain ⟨ls, -, hls, hfold⟩ := htakes.exists_lexes
  obtain ⟨body, -, -, hspan, -⟩ := next_eq_some hnext
  obtain ⟨cs, hpasses, hlexemes⟩ := hls.exists_passes_append s.passes_skip
  have hbefore : s.skip.IsBehind source (cs ++ (splitGap false s.rest).1) :=
    hpasses.trans s.passes_skip
  have hgap : IsGap True (splitGap false s.rest).1 :=
    (isGap_splitGap s.rest).1.imp fun _ => trivial
  rw [textLexemes_lastGap hgap, List.append_nil] at hlexemes
  refine ⟨String.ofList (cs ++ (splitGap false s.rest).1), String.ofList s.skip.rest, ?_, ?_, ?_,
    ?_, ?_⟩
  · rw [← String.ofList_append, ← hbefore.toList_eq, String.ofList_toList]
  · rw [utf8ByteSize_ofList, ← hbefore.offset_eq, hspan]
  · rw [tokens_eq_fold, ofString, String.toList_ofList, hlexemes, hfold, ← hv', List.map_map]
    rfl
  · rw [tokens_ofList_rest, tokens_skip]
  · rw [String.toList_ofList]
    exact splitGap_behind false s.rest

end Cutting

end Scanner

/-! ## One value and all values -/

theorem Reader.one_ofString {source : String} {answer : Except ReadError Value} {s : Scanner}
    (h : (Scanner.ofString source).readValue [] = (answer, s)) :
    (ofString source).one = (answer, ⟨source, s⟩) := by
  rw [one, ofString, h]

namespace Value

section Agreement

variable {source : String} {v : Value} {e : ReadError} {s : Scanner}

theorem read_of_readValue_error (h : (Scanner.ofString source).readValue [] = (.error e, s)) :
    read source = .error e := by
  rw [read, Reader.one_ofString h]

/-- Behind a value the text has to end. -/
theorem read_of_readValue_ok (h : (Scanner.ofString source).readValue [] = (.ok v, s)) :
    read source = match s.next.1 with
      | none => .ok v
      | some (.error e) => .error (.lexical e)
      | some (.ok token) =>
        .error (.malformed .trailingInput ⟨token.span.start, source.utf8ByteSize⟩) := by
  rw [read, Reader.one_ofString h]
  rcases hnext : s.next with ⟨_ | e | token, s'⟩ <;> simp only [hnext]

/-- A text without tokens is no value. -/
theorem read_of_next_none {s : Scanner} (h : (Scanner.ofString source).next = (none, s)) :
    read source
      = .error (.malformed .valueExpected ⟨source.utf8ByteSize, source.utf8ByteSize⟩) := by
  have hend := ((Scanner.endsAt_ofString source).next_none h).2
  rw [read_of_readValue_error (Scanner.readValue_of_next_none h []), hend]
  rfl

theorem read_eq_ok_iff_readAll : read source = .ok v ↔ readAll source = .ok [v] := by
  rw [read_eq_ok_iff_tokens, readAll_eq_ok_iff_tokens]
  simp [joinedTokens]

/-- An error in the first value is that of the text, if there is anything to be read. -/
theorem readAll_of_readValue_error (hsome : ¬ IsGap True source.toList)
    (h : (Scanner.ofString source).readValue [] = (.error e, s)) :
    readAll source = .error e := by
  have hall : readAll source = ((Scanner.ofString source).readAll []).1 := rfl
  rcases hnext : (Scanner.ofString source).next with ⟨_ | e' | token, s'⟩
  · exact absurd (Scanner.results_eq_nil_iff.mp (Scanner.results_of_next_none hnext)) hsome
  · rw [Scanner.readValue_of_fault [] hnext] at h
    obtain rfl := Except.error.inj (Prod.mk.inj h).1
    rw [hall, Scanner.readAll, hnext]
  · rw [hall, Scanner.readAll_of_next hnext, h]

/-- Behind the first value all others are read. -/
theorem readAll_of_readValue_ok (h : (Scanner.ofString source).readValue [] = (.ok v, s)) :
    readAll source = (s.readAll [v]).1 := by
  have hall : readAll source = ((Scanner.ofString source).readAll []).1 := rfl
  rcases hnext : (Scanner.ofString source).next with ⟨_ | e | token, s'⟩
  · rw [Scanner.readValue_of_next_none hnext] at h
    cases h
  · rw [Scanner.readValue_of_fault [] hnext] at h
    cases h
  · rw [hall, Scanner.readAll_of_next hnext, h]

/-- A text of several values is refused where the second begins. -/
theorem read_of_readAll_several {w : Value} {vs : List Value}
    (h : readAll source = .ok (v :: w :: vs)) :
    ∃ before behind : String, source = before ++ behind ∧ readAll before = .ok [v] ∧
      readAll behind = .ok (w :: vs) ∧ (splitGap false behind.toList).1 = [] ∧
      read source
        = .error (.malformed .trailingInput ⟨before.utf8ByteSize, source.utf8ByteSize⟩) := by
  obtain ⟨htokens, hdepth⟩ := readAll_eq_ok_iff_tokens.mp h
  have hvalue : v.depth ≤ maxDepth := hdepth v (by simp)
  rw [joinedTokens, List.map_append] at htokens
  obtain ⟨s, hs, hread⟩ := Scanner.readValue_tokens v _ [] _ htokens (by simpa using hvalue)
  -- the first token of the second value comes next
  obtain ⟨t, ts, hw, -⟩ := tokens_eq_cons w
  have hfirst : s.tokens = .ok t :: (ts ++ joinedTokens vs).map .ok := by
    rw [hs, joinedTokens, hw]
    rfl
  obtain ⟨token, s', hnext, -, -⟩ := Scanner.next_of_tokens_eq_cons hfirst
  obtain ⟨before, behind, hsource, hstart, hbefore, hbehind, hgap⟩ :=
    Scanner.exists_split_behind_value hread hnext
  refine ⟨before, behind, hsource, ?_, ?_, hgap, ?_⟩
  · rw [← read_eq_ok_iff_readAll, read_eq_ok_iff_tokens]
    exact ⟨hbefore, hvalue⟩
  · rw [readAll_eq_ok_iff_tokens, hbehind]
    exact ⟨hs, fun u hu => hdepth u (List.mem_cons_of_mem v hu)⟩
  · rw [read_of_readValue_ok hread, hnext, ← hstart]
    rfl

end Agreement

end Value

/-! ## One value by descent -/

namespace Parser

/-- Reads a text that consists of exactly one value. Behind the value it looks whether the text has
ended, and if not, looks once more for the place where it goes on. -/
def single (source : String) : Except ReadError Value :=
  match (ofString source).one with
  | (.error e, _) => .error e
  | (.ok v, p) =>
    match p.atEnd with
    | (.error e, _) => .error e
    | (.ok true, _) => .ok v
    | (.ok false, p') =>
      match p'.peek with
      | (.error e, _) => .error (.lexical e)
      | (.ok token, _) =>
        .error (.malformed .trailingInput ⟨token.span.start, source.utf8ByteSize⟩)

theorem single_eq_read (source : String) : single source = Value.read source := by
  obtain ⟨hone, -⟩ := (follows_ofString source).one
  rcases hread : (Scanner.ofString source).readValue [] with ⟨e | v, s⟩
  · rw [single, hone, Reader.one_ofString hread, Value.read_of_readValue_error hread]
  · rw [Reader.one_ofString hread] at hone
    rw [single, hone, Value.read_of_readValue_ok hread]
    dsimp only
    rcases hnext : s.next with ⟨_ | e | token, s'⟩
    · rw [Reader.ofString, atEnd_of_next_none hnext]
    · rw [Reader.ofString, atEnd_of_next_error hnext]
    · rw [Reader.ofString, atEnd_of_next_ok hnext]
      rfl

end Parser

namespace Value

/-- **Reading one value agrees with reading all.** A text reads as one value exactly if all its
values are this one. A text of no values is refused at its end, and a text of several from the
first byte of the second value up to its end. Where there is anything to be read, an error in the
first value is the error both ways, and so is a lexical error right behind the first value. By
descent, with a token held back, both ways give the same. -/
theorem read_agrees_with_readAll (source : String) :
    (∀ v, read source = .ok v ↔ readAll source = .ok [v]) ∧
    (readAll source = .ok [] → ∃ e, read source = .error e ∧
      e.Tells "expected a value" ⟨source.utf8ByteSize, source.utf8ByteSize⟩) ∧
    (∀ v w vs, readAll source = .ok (v :: w :: vs) → ∃ (e : ReadError) (before behind : String),
      read source = .error e ∧
      e.Tells "unexpected input after value" ⟨before.utf8ByteSize, source.utf8ByteSize⟩ ∧
      source = before ++ behind ∧ readAll before = .ok [v] ∧ readAll behind = .ok (w :: vs) ∧
      (splitGap false behind.toList).1 = []) ∧
    (∀ e, ¬ IsGap True source.toList → (Reader.ofString source).one.1 = .error e →
      read source = .error e ∧ readAll source = .error e) ∧
    (∀ v r e, (Reader.ofString source).one = (.ok v, r) → r.scanner.next.1 = some (.error e) →
      read source = .error (.lexical e) ∧ readAll source = .error (.lexical e)) ∧
    Parser.single source = read source ∧
    ((Parser.ofString source).all []).1 = readAll source := by
  refine ⟨fun v => read_eq_ok_iff_readAll, fun hnone => ?_, fun v w vs hseveral => ?_,
    fun e hsome herror => ?_, fun v r e hone hnext => ?_, Parser.single_eq_read source,
    ((Parser.follows_ofString source).all []).1⟩
  · obtain ⟨htokens, -⟩ := readAll_eq_ok_iff_tokens.mp hnone
    obtain ⟨s, hnext⟩ := Scanner.next_of_tokens_eq_nil htokens
    exact ⟨_, read_of_next_none hnext, _, rfl, rfl⟩
  · obtain ⟨before, behind, hsource, hbefore, hbehind, hgap, hread⟩ :=
      read_of_readAll_several hseveral
    exact ⟨_, before, behind, hread, ⟨_, rfl, rfl⟩, hsource, hbefore, hbehind, hgap⟩
  · have hread : (Scanner.ofString source).readValue []
        = (.error e, ((Scanner.ofString source).readValue []).2) := Prod.ext herror rfl
    exact ⟨read_of_readValue_error hread, readAll_of_readValue_error hsome hread⟩
  · have hread : (Scanner.ofString source).readValue [] = (.ok v, r.scanner) := by
      rw [Reader.one] at hone
      obtain ⟨hv, rfl⟩ := Prod.mk.inj hone
      exact Prod.ext hv rfl
    have hnext' : r.scanner.next = (some (.error e), r.scanner.next.2) := Prod.ext hnext rfl
    constructor
    · rw [read_of_readValue_ok hread, hnext]
    · rw [readAll_of_readValue_ok hread, Scanner.readAll, hnext']

/-- Two values, the second behind a comment, and a comment at the end. -/
def twoValues : String := "(A)\t; B \"\n\"é\" ; C"

/-- A value and a word that is no token. -/
def brokenTail : String := "(A) 2B"

theorem read_agrees_with_readAll_twoValues :
    readAll twoValues = .ok [list [symbol (.bare "A")], string "é"] ∧
      (∃ (e : ReadError) (before behind : String), read twoValues = .error e ∧
        e.Tells "unexpected input after value"
          ⟨before.utf8ByteSize, twoValues.utf8ByteSize⟩ ∧
        twoValues = before ++ behind ∧ readAll before = .ok [list [symbol (.bare "A")]] ∧
        readAll behind = .ok [string "é"] ∧ (splitGap false behind.toList).1 = []) ∧
      (∃ r e, (Reader.ofString brokenTail).one = (.ok (list [symbol (.bare "A")]), r) ∧
        r.scanner.next.1 = some (.error e) ∧ read brokenTail = .error (.lexical e) ∧
        readAll brokenTail = .error (.lexical e)) := by
  have htwo : readAll twoValues = .ok [list [symbol (.bare "A")], string "é"] := by
    decide +kernel
  have hfirst : (Reader.ofString brokenTail).one.1 = .ok (list [symbol (.bare "A")]) := by
    decide +kernel
  have hbehind : (Reader.ofString brokenTail).one.2.scanner.next.1
      = some (.error ⟨.malformedInteger, "2B", ⟨4, 6⟩⟩) := by decide +kernel
  obtain ⟨-, -, hseveral, -⟩ := read_agrees_with_readAll twoValues
  obtain ⟨-, -, -, -, hlexical, -⟩ := read_agrees_with_readAll brokenTail
  exact ⟨htwo, hseveral _ _ _ htwo, _, _, Prod.ext hfirst rfl, hbehind,
    hlexical _ _ _ (Prod.ext hfirst rfl) hbehind⟩

end Value

end MakerForms
