import MakerForms.Proofs.Sexpr.ParserAgreement
import MakerForms.Proofs.Sexpr.ReaderRuns
import MakerForms.Proofs.Sexpr.Slice
import MakerForms.Proofs.Sexpr.Spacing

set_option autoImplicit false

/-! # The span of a value that is read

A reader tells with a value the span that it was read from. That span covers the value and nothing
else: the text in it reads as the value by itself (`Reader.located_span_exact`). Whether the
reader has looked at the text or run into errors before makes no difference, nor does it whether
lists are kept on a stack or descended into.

The reason is that a text may be cut behind a lexeme. The lexemes that lead to the end of a value
(`Scanner.Lexes`) are those of the text between the ends, whatever stands behind it. They fold to
the tokens of the value also when nothing follows, since the last of them opens no list.
-/

namespace MakerForms

open Lexeme (fold foldFirst foldLiteral startLiteral)

/-! ## Cutting a text behind a lexeme -/

/-- Whether a lexeme is one that is closed and is more than a character that starts none. -/
def Lexeme.isProper : Lexeme → Bool
  | unclosed _ | stray _ => false
  | _ => true

theorem endsWord_dropWhile (cs : List Char) : EndsWord (cs.dropWhile isWordChar) := by
  induction cs with
  | nil => exact endsWord_nil
  | cons c cs ih =>
      by_cases hc : isWordChar c = true
      · rw [List.dropWhile_cons_of_pos hc]
        exact ih
      · rw [List.dropWhile_cons_of_neg hc]
        exact endsWord_cons (by simpa using hc)

theorem EndsWord.of_append {cs ds : List Char} (h : EndsWord (cs ++ ds)) : EndsWord cs := by
  cases cs with
  | nil => exact endsWord_nil
  | cons c cs => exact endsWord_cons (h c rfl)

/-- A lexeme that a text starts with is whole, and a word in it ends. -/
theorem Lexeme.whole_of_first? {cs rest : List Char} {lexeme : Lexeme}
    (h : first? cs = some (lexeme, rest)) (hproper : lexeme.isProper = true) :
    lexeme.Whole ∧ (lexeme.isWord = true → EndsWord rest) := by
  cases cs with
  | nil => cases h
  | cons c cs =>
      simp only [first?] at h
      split at h
      · obtain ⟨rfl, rfl⟩ := Prod.mk.inj (Option.some.inj h)
        exact ⟨trivial, by simp [isWord]⟩
      split at h
      · obtain ⟨rfl, rfl⟩ := Prod.mk.inj (Option.some.inj h)
        exact ⟨trivial, by simp [isWord]⟩
      split at h
      · have hbody := isBody_splitBody cs
        unfold literal at h
        split at h
        · next body rest' hsplit =>
          obtain ⟨rfl, rfl⟩ := Prod.mk.inj (Option.some.inj h)
          rw [hsplit] at hbody
          exact ⟨hbody, by simp [isWord]⟩
        · obtain ⟨rfl, rfl⟩ := Prod.mk.inj (Option.some.inj h)
          cases hproper
      split at h
      · next hword =>
        obtain ⟨rfl, rfl⟩ := Prod.mk.inj (Option.some.inj h)
        have hall : (c :: cs.takeWhile isWordChar).all isWordChar = true := by
          rw [List.all_cons, hword, List.all_takeWhile]
          rfl
        exact ⟨⟨by simp, hall⟩, fun _ => endsWord_dropWhile cs⟩
      · obtain ⟨rfl, rfl⟩ := Prod.mk.inj (Option.some.inj h)
        cases hproper

namespace Scanner

theorem whole_of_lexeme? {s t : Scanner} {lexeme : Lexeme} (h : s.lexeme? = some (lexeme, t))
    (hproper : lexeme.isProper = true) :
    lexeme.Whole ∧ (lexeme.isWord = true → EndsWord t.rest) := by
  obtain ⟨⟨l, rest⟩, hfirst, heq⟩ := Option.map_eq_some_iff.mp h
  obtain ⟨rfl, rfl⟩ := Prod.mk.inj heq
  exact Lexeme.whole_of_first? hfirst hproper

/-- In front of a lexeme stands a gap. -/
theorem isGap_of_lexeme? {s t : Scanner} {lexeme : Lexeme} (h : s.lexeme? = some (lexeme, t)) :
    IsGap False (splitGap false s.rest).1 := by
  obtain ⟨hfirst, hne⟩ := passes_of_lexeme? h
  have hmore : (splitGap false s.rest).2 ≠ [] := by
    show s.skip.rest ≠ []
    simp [hfirst.rest_eq, hne]
  exact (isGap_splitGap s.rest).1.imp hmore

/-- Behind the gap, a text that is cut somewhere behind its first lexeme starts with it. -/
theorem textLexemes_cut {s t u : Scanner} {lexeme : Lexeme} {cs : List Char}
    (h : s.lexeme? = some (lexeme, t)) (hproper : lexeme.isProper = true)
    (hpasses : t.Passes cs u) :
    textLexemes (lexeme.text ++ cs) = lexeme :: textLexemes cs := by
  obtain ⟨hwhole, hends⟩ := whole_of_lexeme? h hproper
  rw [hpasses.rest_eq] at hends
  exact textLexemes_text_append hwhole fun hword => (hends hword).of_append

/-- Whether certain lexemes lead from one place of a scanner to another. -/
inductive Lexes : Scanner → List Lexeme → Scanner → Prop
  | refl (s : Scanner) : Lexes s [] s
  | cons {s t u : Scanner} {lexeme : Lexeme} {ls : List Lexeme} :
      s.lexeme? = some (lexeme, t) → lexeme.isProper = true → Lexes t ls u →
      Lexes s (lexeme :: ls) u

section Lexing

variable {s t u : Scanner} {lexeme : Lexeme} {ls ms : List Lexeme}

theorem Lexes.append (h : Lexes s ls t) (h' : Lexes t ms u) : Lexes s (ls ++ ms) u := by
  induction h with
  | refl s => exact h'
  | cons hlexeme hproper _ ih => exact Lexes.cons hlexeme hproper (ih h')

theorem Lexes.textLexemes_eq (h : Lexes s ls t) :
    textLexemes s.rest = ls ++ textLexemes t.rest := by
  induction h with
  | refl s => rfl
  | cons hlexeme _ _ ih => rw [textLexemes_of_lexeme?_some hlexeme, ih, List.cons_append]

/-- The text between two places has the lexemes that lead from the one to the other, and some of
the text behind it has lexemes of its own. -/
theorem Lexes.exists_passes_append {ds : List Char} (h : Lexes s ls t) (hds : t.Passes ds u) :
    ∃ cs, s.Passes cs t ∧ textLexemes (cs ++ ds) = ls ++ textLexemes ds := by
  induction h with
  | refl s => exact ⟨[], Passes.refl s, rfl⟩
  | @cons s t v lexeme ls hlexeme hproper _ ih =>
      obtain ⟨cs, hpasses, hcs⟩ := ih hds
      obtain ⟨hfirst, -⟩ := passes_of_lexeme? hlexeme
      refine ⟨_, s.passes_skip.trans (hfirst.trans hpasses), ?_⟩
      calc textLexemes ((splitGap false s.rest).1 ++ (lexeme.text ++ cs) ++ ds)
          = textLexemes ((splitGap false s.rest).1 ++ (lexeme.text ++ (cs ++ ds))) := by
            rw [List.append_assoc, List.append_assoc]
        _ = textLexemes (lexeme.text ++ (cs ++ ds)) :=
            textLexemes_gap_append (isGap_of_lexeme? hlexeme) _
        _ = lexeme :: textLexemes (cs ++ ds) :=
            textLexemes_cut hlexeme hproper (hpasses.trans hds)
        _ = lexeme :: ls ++ textLexemes ds := by rw [hcs, List.cons_append]

/-- The text between two places has these lexemes whatever stands behind it. -/
theorem Lexes.exists_passes (h : Lexes s ls t) : ∃ cs, s.Passes cs t ∧ textLexemes cs = ls := by
  obtain ⟨cs, hpasses, hcs⟩ := h.exists_passes_append (Passes.refl t)
  rw [List.append_nil, textLexemes_nil, List.append_nil] at hcs
  exact ⟨cs, hpasses, hcs⟩

/-- Without the gap in front, too, the text has these lexemes, and is not empty. -/
theorem Lexes.exists_passes_skip (h : Lexes s ls t) (hls : ls ≠ []) :
    ∃ cs, cs ≠ [] ∧ s.skip.Passes cs t ∧ textLexemes cs = ls := by
  cases h with
  | refl s => exact absurd rfl hls
  | cons hlexeme hproper hrest =>
      obtain ⟨cs, hpasses, hcs⟩ := hrest.exists_passes
      obtain ⟨hfirst, hne⟩ := passes_of_lexeme? hlexeme
      refine ⟨_, by simp [hne], hfirst.trans hpasses, ?_⟩
      rw [textLexemes_cut hlexeme hproper hpasses, hcs]

end Lexing

/-! ## The lexemes of a token -/

/-- A character literal that is read takes a numeral and a closing parenthesis. -/
theorem lexes_characterLiteral {s : Scanner} {token : Token}
    (h : s.characterLiteral.1 = .ok token) :
    ∃ ls, Lexes s ls s.characterLiteral.2 ∧ token ≠ .openParen ∧
      ∀ ms, foldLiteral (ls ++ ms) = (.ok token, ms) := by
  unfold characterLiteral at h ⊢
  split at h
  · cases h
  · next run behindCode hcode =>
    split at h
    · cases h
    · next code hbyte =>
      split at h
      · cases h
      · next last hclose =>
        obtain rfl := Except.ok.inj h
        refine ⟨[.word run, .closeParen], ?_, by simp, fun ms => ?_⟩
        · exact Lexes.cons hcode rfl (Lexes.cons hclose rfl (Lexes.refl last))
        · simp [foldLiteral, hbyte]
      · cases h
  · cases h

/-- The lexemes of a token fold to it, whatever lexemes follow. Those behind an opening
parenthesis must not make it start a character literal. -/
theorem lexes_complete {lexeme : Lexeme} {s : Scanner} {token : Token}
    (h : (complete lexeme s).1 = .ok token) :
    lexeme.isProper = true ∧ ∃ ls, Lexes s ls (complete lexeme s).2 ∧
      ∀ ms, (token = .openParen → startLiteral ms = false) →
        foldFirst lexeme (ls ++ ms) = (.ok token, ms) := by
  cases lexeme with
  | openParen =>
      refine ⟨rfl, ?_⟩
      have hopen : (.ok .openParen : Except LexFault Token) = .ok token →
          ∃ ls, Lexes s ls s ∧ ∀ ms, (token = .openParen → startLiteral ms = false) →
            foldFirst .openParen (ls ++ ms) = (.ok token, ms) := by
        intro htoken
        obtain rfl := Except.ok.inj htoken
        refine ⟨[], Lexes.refl s, fun ms hms => ?_⟩
        simp [foldFirst, hms rfl]
      rw [complete, afterOpen] at h ⊢
      split at h
      · next run behindHead hhead =>
        by_cases hcode : String.ofList run = Symbol.codeChar
        · rw [if_pos hcode] at h ⊢
          obtain ⟨ls, hls, -, hfold⟩ := lexes_characterLiteral h
          refine ⟨.word run :: ls, Lexes.cons hhead rfl hls, fun ms _ => ?_⟩
          simp [foldFirst, startLiteral, hcode, hfold]
        · rw [if_neg hcode] at h ⊢
          exact hopen h
      · exact hopen h
  | unclosed _ | stray _ => cases h
  | closeParen | quoted _ | word _ => exact ⟨rfl, [], Lexes.refl s, fun ms _ => congrArg (·, ms) h⟩

/-- A token that is read is made of lexemes. These fold to it also in other texts. -/
theorem exists_lexes_of_next {s t : Scanner} {token : Located Token}
    (h : s.next = (some (.ok token), t)) :
    ∃ ls, ls ≠ [] ∧ Lexes s ls t ∧
      (token.value = .openParen → startLiteral (textLexemes t.rest) = false) ∧
      ∀ ms, (token.value = .openParen → startLiteral ms = false) →
        fold (ls ++ ms) = .ok token.value :: fold ms := by
  cases hlexeme : s.lexeme? with
  | none =>
      rw [next, hlexeme] at h
      cases (Prod.mk.inj h).1
  | some pair =>
      obtain ⟨lexeme, behind⟩ := pair
      obtain ⟨result, hnext, hmeaning⟩ := meaning_next hlexeme
      obtain ⟨hresult, rfl⟩ := Prod.mk.inj (hnext.symm.trans h)
      obtain rfl := Option.some.inj hresult
      have htoken : (complete lexeme behind).1 = .ok token.value := hmeaning.symm
      obtain ⟨hproper, ls, hls, hfold⟩ := lexes_complete htoken
      refine ⟨lexeme :: ls, by simp, Lexes.cons hlexeme hproper hls, ?_, fun ms hms => ?_⟩
      · intro hopen
        have hfirst := foldFirst_lexemes lexeme behind
        rw [htoken, hopen] at hfirst
        obtain ⟨hstart, hrest⟩ := Lexeme.foldFirst_eq_openParen (congrArg Prod.fst hfirst)
        rw [hfirst] at hrest
        rwa [← hrest] at hstart
      · rw [List.cons_append, fold, hfold ms hms]

/-! ## The tokens of a value -/

/-- Whether a scanner gets from one place to another by reading certain tokens. The first of
them starts behind the gap, the last ends where the scanner is left, and their lexemes fold to
them also when nothing follows. -/
structure Takes (s : Scanner) (tokens : List (Located Token)) (s' : Scanner) : Prop where
  results_eq : s.results = tokens.map .ok ++ s'.results
  start_eq : tokens.head?.map (fun token => token.span.start) = some s.skip.offset
  stop_eq : tokens.getLast?.map (fun token => token.span.stop) = some s'.offset
  exists_lexes : ∃ ls, ls ≠ [] ∧ Lexes s ls s' ∧ fold ls = tokens.map fun token => .ok token.value

section Taking

variable {s t u : Scanner} {token : Located Token} {tokens : List (Located Token)}

theorem takes_of_next (h : s.next = (some (.ok token), t)) (hopen : token.value ≠ .openParen) :
    s.Takes [token] t := by
  obtain ⟨ls, hne, hls, -, hfold⟩ := exists_lexes_of_next h
  obtain ⟨-, -, -, hspan, -⟩ := next_eq_some h
  have hspan' : token.span = ⟨s.skip.offset, t.offset⟩ := hspan
  refine ⟨results_of_next_some h, by simp [hspan'], by simp [hspan'], ls, hne, hls, ?_⟩
  have hlast := hfold [] fun hvalue => absurd hvalue hopen
  rwa [List.append_nil, fold] at hlast

theorem Takes.of_next (h : s.next = (some (.ok token), t)) (h' : t.Takes tokens u) :
    s.Takes (token :: tokens) u := by
  obtain ⟨ls, hne, hls, hopen, hfold⟩ := exists_lexes_of_next h
  obtain ⟨ms, hne', hms, hfold'⟩ := h'.exists_lexes
  obtain ⟨-, -, -, hspan, -⟩ := next_eq_some h
  have hspan' : token.span = ⟨s.skip.offset, t.offset⟩ := hspan
  refine ⟨?_, by simp [hspan'], ?_, ls ++ ms, by simp [hne], hls.append hms, ?_⟩
  · rw [results_of_next_some h, h'.results_eq]
    rfl
  · cases tokens with
    | nil => cases h'.stop_eq
    | cons second tokens =>
        rw [List.getLast?_cons_cons]
        exact h'.stop_eq
  · -- what follows an opening parenthesis starts no literal, here as in the text
    have hstart : token.value = .openParen → startLiteral ms = false := by
      intro hvalue
      have hrest := hopen hvalue
      rwa [hms.textLexemes_eq, Lexeme.startLiteral_append hne'] at hrest
    rw [hfold ms hstart, hfold', List.map_cons]

end Taking

/-- No value is whole behind an opening parenthesis. -/
theorem step_openParen_ne_done {stack : List OpenList} {token : Located Token} {v : Value}
    (h : Progress.step stack token = .ok (.done v)) : token.value ≠ .openParen := by
  intro hopen
  simp only [Progress.step, hopen] at h
  split at h <;> cases h

/-- A value that is read is read from its tokens. -/
theorem exists_takes_readValue {s s' : Scanner} {stack : List OpenList} {v : Value}
    (h : s.readValue stack = (.ok v, s')) :
    ∃ tokens, s.Takes tokens s' ∧
      Progress.openTokens stack ++ tokens.map Located.value = v.tokens := by
  -- along the run the tokens read before are those of the open lists
  induction s, stack using readValue.induct with
  | case1 s stack t hnext =>
      rw [readValue, hnext] at h
      cases h
  | case2 s stack t e hnext =>
      rw [readValue_of_fault stack hnext] at h
      cases h
  | case3 s stack token t hnext e hstep =>
      rw [readValue_of_step_error hnext hstep] at h
      cases h
  | case4 s stack token t hnext u hstep =>
      rw [readValue_of_step hnext hstep] at h
      obtain ⟨hu, rfl⟩ := Prod.mk.inj h
      obtain rfl := Except.ok.inj hu
      exact ⟨[token], takes_of_next hnext (step_openParen_ne_done hstep),
        (Progress.tokens_step hstep).symm⟩
  | case5 s stack token t hnext stack' hstep ih =>
      rw [readValue_of_step hnext hstep] at h
      obtain ⟨tokens, htakes, hv⟩ := ih h
      have hopen : Progress.openTokens stack' = Progress.openTokens stack ++ [token.value] :=
        Progress.tokens_step hstep
      refine ⟨token :: tokens, Takes.of_next hnext htakes, ?_⟩
      rw [← hv, hopen, List.append_assoc]
      rfl

/-- What is read is a piece of the text, and has the tokens by itself. -/
theorem Takes.exists_piece {s s' : Scanner} {tokens : List (Located Token)}
    (h : s.Takes tokens s') :
    ∃ cs, cs ≠ [] ∧ s.skip.Passes cs s' ∧
      (ofString (String.ofList cs)).tokens = tokens.map fun token => .ok token.value := by
  obtain ⟨ls, hne, hls, hfold⟩ := h.exists_lexes
  obtain ⟨cs, hcs, hpasses, hlexemes⟩ := hls.exists_passes_skip hne
  refine ⟨cs, hcs, hpasses, ?_⟩
  have hrest : (ofString (String.ofList cs)).rest = cs := String.toList_ofList
  calc (ofString (String.ofList cs)).tokens
      = fold (textLexemes cs) := by rw [tokens_eq_fold, hrest]
    _ = fold ls := by rw [hlexemes]
    _ = tokens.map fun token => .ok token.value := hfold

end Scanner

/-! ## Spans of values -/

open Scanner (resultSpan)

/-- Whether a span of a text covers the text of a value: its ends are ends of characters of the
text, and the piece between them reads as the value. -/
structure Span.Covers (span : Span) (source : String) (v : Value) : Prop where
  start_lt_stop : span.start < span.stop
  stop_le : span.stop ≤ source.utf8ByteSize
  exists_split : ∃ before behind : String, source = before ++ span.slice source ++ behind ∧
    span = ⟨before.utf8ByteSize, (before ++ span.slice source).utf8ByteSize⟩
  read_eq : Value.read (span.slice source) = .ok v

theorem Scanner.covers_of_readValue {source : String} {before : List Char} {s s' : Scanner}
    {v : Value} (hs : s.IsBehind source before) (h : s.readValue [] = (.ok v, s')) :
    Span.Covers ⟨s.skip.offset, s'.offset⟩ source v := by
  obtain ⟨tokens, htakes, hv⟩ := exists_takes_readValue h
  have hnone : Progress.ShallowStack [] := trivial
  obtain ⟨-, -, -, hdepth⟩ := tokens_of_readValue_eq_ok hnone h
  obtain ⟨cs, hne, hpasses, htokens⟩ := htakes.exists_piece
  have hskip := hs.passes s.passes_skip
  have hslice := hpasses.slice_eq hskip
  have hstop : s'.offset = s.skip.offset + byteSize cs := hpasses.offset_eq
  have hsize := byteSize_pos hne
  have hend := (hskip.passes hpasses).end_eq
  refine ⟨?_, ?_, ?_, ?_⟩
  · show s.skip.offset < s'.offset
    omega
  · show s'.offset ≤ source.utf8ByteSize
    omega
  · rw [hslice]
    exact hpasses.exists_split hskip
  · have hvalue : (ofString (String.ofList cs)).tokens = v.tokens.map .ok := by
      have hv' : tokens.map Located.value = v.tokens := hv
      rw [htokens, ← hv', List.map_map]
      rfl
    rw [hslice]
    exact (Value.read_of_tokens hvalue).1 hdepth

namespace Reader

/-- Reading by descent gives the answers of a reader, and the same value where it goes on. -/
theorem parser_of_run {source : String} {operations : List Operation}
    {answers : List (Except ReadError Answer)} {r : Reader}
    (hrun : (ofString source).run operations = (answers, r)) :
    ((Parser.ofString source).run operations).1 = answers ∧
      (Parser.reached source operations).located
        = (r.located.1, Parser.bare source r.located.2.scanner) := by
  obtain ⟨hanswers, hfollows⟩ := Parser.answers_eq_reader source operations
  obtain ⟨hsource, -⟩ := (ofString source).exists_consumes_run operations
  rw [reached, hrun] at hfollows
  rw [hrun] at hanswers hsource
  have hsource' : r.source = source := hsource
  obtain ⟨hlocated, -⟩ := hfollows.located
  exact ⟨hanswers, by rw [hlocated, hsource']⟩

/-- **A value has the span of its text.** Behind any operations, also such that failed, the span
told with a value that is read next covers its text: this is not empty, consists of whole
characters and reads as the value. The span begins with the first token of the value and ends with
the last. All that the operations have reported or used up lies before it. Reading with a stack and
reading by descent with a token held back tell the same values and spans, and go on from the same
place. -/
theorem located_span_exact {source : String} {operations : List Operation}
    {answers : List (Except ReadError Answer)} {r : Reader} {v : Value} {span : Span}
    (hrun : (ofString source).run operations = (answers, r))
    (h : r.located.1 = .ok ⟨v, span⟩ ∨
      (Parser.reached source operations).located.1 = .ok ⟨v, span⟩) :
    span.Covers source v ∧
      (∀ answer ∈ answers, ∀ earlier ∈ reported? answer, earlier.stop ≤ span.start) ∧
      (∃ (consumed : List (Except LexError (Located Token))) (tokens : List (Located Token)),
        (Scanner.ofString source).results
          = consumed ++ tokens.map .ok ++ r.located.2.scanner.results ∧
        r.scanner.results = tokens.map .ok ++ r.located.2.scanner.results ∧
        (∀ result ∈ consumed, (resultSpan result).stop ≤ span.start) ∧
        tokens.map Located.value = v.tokens ∧
        tokens.head?.map (fun token => token.span.start) = some span.start ∧
        tokens.getLast?.map (fun token => token.span.stop) = some span.stop) ∧
      r.located.1 = .ok ⟨v, span⟩ ∧
      ((Parser.ofString source).run operations).1 = answers ∧
      (Parser.reached source operations).located
        = (.ok ⟨v, span⟩, Parser.bare source r.located.2.scanner) := by
  obtain ⟨hanswers, hparser⟩ := parser_of_run hrun
  have hlocated : r.located.1 = .ok ⟨v, span⟩ := by
    rcases h with h | h
    · exact h
    · rwa [hparser] at h
  obtain ⟨-, consumed, hconsumes, hreported⟩ := (ofString source).exists_consumes_run operations
  rw [hrun] at hconsumes hreported
  obtain ⟨before, hbehind⟩ := hconsumes.exists_passes
  rcases hread : r.scanner.readValue [] with ⟨e | u, s'⟩
  · rw [located_eq, hread] at hlocated
    cases hlocated
  have hlater : r.located.2.scanner = s' := by rw [located_eq, hread]
  have hskip : r.scanner.offset ≤ r.scanner.skip.offset := r.scanner.passes_skip.offset_le
  obtain ⟨rfl, rfl⟩ : u = v ∧ (⟨r.scanner.skip.offset, s'.offset⟩ : Span) = span := by
    rw [located_eq, hread] at hlocated
    exact Located.mk.inj (Except.ok.inj hlocated)
  obtain ⟨tokens, htakes, hv⟩ := Scanner.exists_takes_readValue hread
  have hresults : (Scanner.ofString source).results = consumed ++ r.scanner.results :=
    hconsumes.results_eq
  refine ⟨Scanner.covers_of_readValue hbehind hread, ?_, ⟨consumed, tokens, ?_, ?_, ?_, hv,
    htakes.start_eq, htakes.stop_eq⟩, hlocated, hanswers, by rw [hparser, hlocated]⟩
  · intro answer hanswer earlier hearlier
    exact Nat.le_trans (hreported answer hanswer earlier hearlier) hskip
  · rw [hresults, htakes.results_eq, hlater, List.append_assoc]
  · rw [hlater]
    exact htakes.results_eq
  · intro result hresult
    exact Nat.le_trans (hconsumes.stop_le result hresult) hskip

/-- A list with a word in it that is no token, and two forms behind it. -/
def brokenText : String := "(A 256::X) ; é\n(B (CODE-CHAR 7) \"é\") C"

/-- Reading runs into the word, and then into the parenthesis behind it. -/
def brokenOperations : List Operation := [.atEnd, .one, .atEnd, .all, .atEnd]

/-- The form that is read behind both errors. -/
def formBehindErrors : Value := .list [.symbol (.bare "B"), .character 7, .string "é"]

theorem located_span_exact_brokenText :
    ∃ (answers : List (Except ReadError Answer)) (r : Reader),
      (ofString brokenText).run brokenOperations = (answers, r) ∧
      r.located.1 = .ok ⟨formBehindErrors, ⟨16, 38⟩⟩ ∧
      Span.Covers ⟨16, 38⟩ brokenText formBehindErrors ∧
      (∀ answer ∈ answers, ∀ earlier ∈ reported? answer, earlier.stop ≤ 16) ∧
      (Parser.reached brokenText brokenOperations).located.1
        = .ok ⟨formBehindErrors, ⟨16, 38⟩⟩ := by
  rcases hrun : (ofString brokenText).run brokenOperations with ⟨answers, r⟩
  have hr : r = ((ofString brokenText).run brokenOperations).2 := by rw [hrun]
  have hsome : r.located.1.toOption = some ⟨formBehindErrors, ⟨16, 38⟩⟩ := by
    rw [hr]
    decide +kernel
  have h : r.located.1 = .ok ⟨formBehindErrors, ⟨16, 38⟩⟩ := by
    rcases hlocated : r.located.1 with e | value
    · rw [hlocated] at hsome
      cases hsome
    · rw [hlocated] at hsome
      rw [Option.some.inj hsome]
  obtain ⟨hcovers, hearlier, -, -, -, hparser⟩ := located_span_exact hrun (.inl h)
  exact ⟨answers, r, rfl, h, hcovers, hearlier, by rw [hparser]⟩

end Reader

end MakerForms
