import MakerForms.Proofs.Sexpr.AtEnd
import MakerForms.Proofs.Sexpr.FormSpans

set_option autoImplicit false

/-! # Texts one behind the other

A text that reads as values may be followed by a line feed and another text, and the values of
the other text follow (`Value.readAll_append_lineFeed`). Whatever stands on the two sides of the
line feed, nothing reaches across it: it ends a word and a comment, strings are closed before it,
and no character literal can have begun, since the first text leaves no parenthesis open.

This is shown for lexemes (`Scanner.Lexes.textLexemes_append_lineFeed`) and then for tokens
(`Scanner.tokens_append_lineFeed`), where it suffices that the first text has no lexical error and
does not end with an opening parenthesis. Of the second text nothing is assumed there.

The values of a text can be read all at once, or some of them one at a time and then the others
(`Reader.run_ones_all`).
-/

namespace MakerForms

open Lexeme (fold startLiteral)
open Value (joinedTokens)
open Reader (Operation Answer)

/-! ## The line feed between two texts -/

/-- A line feed ends the comment that a text may end with. -/
theorem IsGap.append_lineFeed {last : Prop} {gap : List Char} (h : IsGap last gap) :
    IsGap False (gap ++ ['\n']) := by
  induction h with
  | nil => exact IsGap.blank (by decide) IsGap.nil
  | blank hblank _ ih => exact IsGap.blank hblank ih
  | @comment body cs hbody _ ih =>
      have happend : ';' :: (body ++ '\n' :: cs) ++ ['\n']
          = ';' :: (body ++ '\n' :: (cs ++ ['\n'])) := by simp
      rw [happend]
      exact IsGap.comment hbody ih
  | lastComment _ hbody => exact IsGap.comment hbody IsGap.nil

/-- A line feed ends the word that a text may end with. -/
theorem EndsWord.append_lineFeed {cs : List Char} (h : EndsWord cs) (behind : List Char) :
    EndsWord (cs ++ '\n' :: behind) := by
  cases cs with
  | nil => exact endsWord_cons (by decide)
  | cons c cs => exact endsWord_cons (h c rfl)

namespace Scanner

/-- Where only a gap is left behind certain lexemes, a line feed keeps them from what follows. -/
theorem Lexes.textLexemes_append_lineFeed {s t : Scanner} {ls : List Lexeme} (h : Lexes s ls t)
    (hend : IsGap True t.rest) (behind : List Char) :
    textLexemes (s.rest ++ '\n' :: behind) = ls ++ textLexemes behind := by
  induction h with
  | refl s =>
      have happend : s.rest ++ '\n' :: behind = (s.rest ++ ['\n']) ++ behind := by simp
      rw [happend]
      exact textLexemes_gap_append hend.append_lineFeed behind
  | @cons s t u lexeme ls hlexeme hproper _ ih =>
      obtain ⟨hfirst, -⟩ := passes_of_lexeme? hlexeme
      obtain ⟨hwhole, hends⟩ := whole_of_lexeme? hlexeme hproper
      have hrest : s.rest = (splitGap false s.rest).1 ++ (lexeme.text ++ t.rest) := by
        rw [← List.append_assoc]
        exact (s.passes_skip.trans hfirst).rest_eq
      calc textLexemes (s.rest ++ '\n' :: behind)
          = textLexemes ((splitGap false s.rest).1
              ++ (lexeme.text ++ (t.rest ++ '\n' :: behind))) := by
            conv_lhs => rw [hrest]
            simp
        _ = textLexemes (lexeme.text ++ (t.rest ++ '\n' :: behind)) :=
            textLexemes_gap_append (isGap_of_lexeme? hlexeme) _
        _ = lexeme :: textLexemes (t.rest ++ '\n' :: behind) :=
            textLexemes_text_append hwhole fun hword => (hends hword).append_lineFeed behind
        _ = lexeme :: ls ++ textLexemes behind := by rw [ih hend, List.cons_append]

/-- The tokens of a whole text are made of lexemes. These fold to them whatever lexemes follow,
unless the last token is an opening parenthesis. -/
theorem exists_lexes_of_tokens {s : Scanner} {ts : List Token} (h : s.tokens = ts.map .ok)
    (hlast : ts.getLast? ≠ some .openParen) :
    ∃ ls t, Lexes s ls t ∧ IsGap True t.rest ∧
      ∀ ms, fold (ls ++ ms) = ts.map .ok ++ fold ms := by
  induction ts generalizing s with
  | nil =>
      have hresults : s.results = [] := by simpa [tokens] using h
      exact ⟨[], s, Lexes.refl s, results_eq_nil_iff.mp hresults, fun ms => rfl⟩
  | cons t ts ih =>
      obtain ⟨token, s', hnext, rfl, hrest⟩ := next_of_tokens_eq_cons h
      obtain ⟨ls, -, hls, hopen, hfold⟩ := exists_lexes_of_next hnext
      have hlater : ts.getLast? ≠ some .openParen := by
        intro hts
        exact hlast (by simp [List.getLast?_cons, hts])
      obtain ⟨ms, u, hms, hgap, hfold'⟩ := ih hrest hlater
      refine ⟨ls ++ ms, u, hls.append hms, hgap, fun ns => ?_⟩
      -- behind an opening parenthesis there is a lexeme, and it starts no literal in this text
      have hstart : token.value = .openParen → startLiteral (ms ++ ns) = false := by
        intro hvalue
        have hne : ms ≠ [] := by
          rintro rfl
          obtain rfl : ts = [] := by simpa [fold] using (hfold' []).symm
          exact hlast (by simp [hvalue])
        have htext := hopen hvalue
        rw [hms.textLexemes_eq, textLexemes_lastGap hgap, List.append_nil] at htext
        rw [Lexeme.startLiteral_append hne, htext]
      rw [List.append_assoc, hfold (ms ++ ns) hstart, hfold' ns]
      rfl

/-- Behind a line feed the tokens and faults of another text follow. -/
theorem tokens_append_lineFeed {text : String} {ts : List Token}
    (h : (ofString text).tokens = ts.map .ok) (hlast : ts.getLast? ≠ some .openParen)
    (behind : String) :
    (ofString (text ++ "\n" ++ behind)).tokens = ts.map .ok ++ (ofString behind).tokens := by
  obtain ⟨ls, t, hls, hgap, hfold⟩ := exists_lexes_of_tokens h hlast
  have hrest : (ofString (text ++ "\n" ++ behind)).rest
      = (ofString text).rest ++ '\n' :: behind.toList := by
    simp [ofString]
  calc (ofString (text ++ "\n" ++ behind)).tokens
      = fold (textLexemes ((ofString text).rest ++ '\n' :: behind.toList)) := by
        rw [tokens_eq_fold, hrest]
    _ = fold (ls ++ textLexemes behind.toList) := by
        rw [hls.textLexemes_append_lineFeed hgap]
    _ = ts.map .ok ++ fold (textLexemes (ofString behind).rest) := hfold _
    _ = ts.map .ok ++ (ofString behind).tokens := by rw [← tokens_eq_fold]

end Scanner

/-! ## Values read one at a time -/

/-- The last token of values opens no list. -/
theorem Value.getLast?_joinedTokens (vs : List Value) :
    (joinedTokens vs).getLast? ≠ some .openParen := by
  have hvalue : ∀ v : Value, v.tokens.getLast? ≠ some .openParen := by
    intro v
    cases v with
    | list us =>
        rw [tokens, ← List.cons_append, List.getLast?_concat]
        simp
    | _ => simp [tokens]
  induction vs with
  | nil => simp [joinedTokens]
  | cons v vs ih =>
      rw [joinedTokens, List.getLast?_append]
      cases hlast : (joinedTokens vs).getLast? with
      | none => exact hvalue v
      | some t =>
          rw [hlast] at ih
          exact ih

namespace Reader

/-- Where the tokens of values come first, the values are read one at a time. -/
theorem run_ones (source : String) (us : List Value) {s : Scanner}
    {rest : List (Except LexFault Token)} (hs : s.tokens = (joinedTokens us).map .ok ++ rest)
    (hdepth : ∀ u ∈ us, u.depth ≤ maxDepth) :
    ∃ s' : Scanner, s'.tokens = rest ∧
      (Reader.mk source s).run (List.replicate us.length .one)
        = (us.map fun u => .ok (.value u), ⟨source, s'⟩) := by
  induction us generalizing s with
  | nil => exact ⟨s, hs, rfl⟩
  | cons u us ih =>
      rw [joinedTokens, List.map_append, List.append_assoc] at hs
      obtain ⟨s₁, hs₁, hread⟩ := Scanner.readValue_tokens u s [] _ hs
        (by simpa using hdepth u (by simp))
      obtain ⟨s', hs', hrun⟩ := ih hs₁ fun v hv => hdepth v (by simp [hv])
      have hone : (Reader.mk source s).perform .one = (.ok (.value u), ⟨source, s₁⟩) := by
        rw [perform, one, hread]
        rfl
      exact ⟨s', hs', by rw [List.length_cons, List.replicate_succ, run_cons, hone, hrun]; rfl⟩

/-- The values of a text may be read one at a time, as many as one likes, and then all others. -/
theorem run_ones_all {source : String} {firsts others : List Value}
    (h : Value.readAll source = .ok (firsts ++ others)) :
    ((ofString source).run (List.replicate firsts.length .one ++ [.all])).1
      = firsts.map (fun v => .ok (.value v)) ++ [.ok (.values others)] := by
  obtain ⟨htokens, hdepth⟩ := Value.readAll_eq_ok_iff_tokens.mp h
  rw [Value.joinedTokens_append, List.map_append] at htokens
  obtain ⟨s', hs', hrun⟩ := run_ones source firsts htokens
    fun v hv => hdepth v (List.mem_append_left others hv)
  have hall : (s'.readAll []).1 = .ok others :=
    Scanner.readAll_joinedTokens others s' [] hs'
      fun v hv => hdepth v (List.mem_append_right firsts hv)
  have hothers : ((Reader.mk source s').perform .all).1 = .ok (.values others) := by
    show ((s'.readAll []).1.map Answer.values) = _
    rw [hall]
    rfl
  have hstart : (ofString source).run (List.replicate firsts.length .one)
      = (firsts.map fun v => .ok (.value v), ⟨source, s'⟩) := hrun
  rw [run_append, hstart, run_cons, hothers]
  rfl

end Reader

namespace Value

/-- **Reading keeps texts apart.** If one text reads as certain values and another as others, then
the first, a line feed and the second read as the values of the first and then those of the second.
So they do if some of these values are read one at a time, such as all of the first text, and then
the rest at once, by a reader with a stack of open lists or by descent with a token held back. -/
theorem readAll_append_lineFeed {text behind : String} {as bs : List Value}
    (htext : readAll text = .ok as) (hbehind : readAll behind = .ok bs) :
    readAll (text ++ "\n" ++ behind) = .ok (as ++ bs) ∧
      ∀ firsts others : List Value, as ++ bs = firsts ++ others →
        ((Reader.ofString (text ++ "\n" ++ behind)).run
            (List.replicate firsts.length .one ++ [.all])).1
          = firsts.map (fun v => .ok (.value v)) ++ [.ok (.values others)] ∧
        ((Parser.ofString (text ++ "\n" ++ behind)).run
            (List.replicate firsts.length .one ++ [.all])).1
          = firsts.map (fun v => .ok (.value v)) ++ [.ok (.values others)] := by
  obtain ⟨htokens, hdepth⟩ := readAll_eq_ok_iff_tokens.mp htext
  obtain ⟨htokens', hdepth'⟩ := readAll_eq_ok_iff_tokens.mp hbehind
  have hall : readAll (text ++ "\n" ++ behind) = .ok (as ++ bs) := by
    refine readAll_eq_ok_iff_tokens.mpr ⟨?_, fun v hv => ?_⟩
    · rw [Scanner.tokens_append_lineFeed htokens (getLast?_joinedTokens as), htokens',
        joinedTokens_append, List.map_append]
    · rcases List.mem_append.mp hv with hv | hv
      · exact hdepth v hv
      · exact hdepth' v hv
  refine ⟨hall, fun firsts others hsplit => ?_⟩
  rw [hsplit] at hall
  have hrun := Reader.run_ones_all hall
  exact ⟨hrun, by rw [(Parser.answers_eq_reader _ _).1, hrun]⟩

/-- A text that ends with the symbol `CODE-CHAR` and a comment with a quote and a parenthesis. -/
def openEnd : String := "(A \"b\\\"\") CODE-CHAR;\"("

/-- A text that starts as a character literal would go on. -/
def closeStart : String := "65 ; c\n()"

theorem readAll_append_lineFeed_openEnd :
    readAll openEnd = .ok [list [symbol (.bare "A"), string "b\""], symbol (.bare "CODE-CHAR")] ∧
      readAll closeStart = .ok [integer 65, list []] ∧
      readAll (openEnd ++ "\n" ++ closeStart)
        = .ok [list [symbol (.bare "A"), string "b\""], symbol (.bare "CODE-CHAR"),
          integer 65, list []] ∧
      ((Reader.ofString (openEnd ++ "\n" ++ closeStart)).run [.one, .one, .all]).1
        = [.ok (.value (list [symbol (.bare "A"), string "b\""])),
          .ok (.value (symbol (.bare "CODE-CHAR"))), .ok (.values [integer 65, list []])] := by
  have hopen : readAll openEnd
      = .ok [list [symbol (.bare "A"), string "b\""], symbol (.bare "CODE-CHAR")] := by
    decide +kernel
  have hclose : readAll closeStart = .ok [integer 65, list []] := by decide +kernel
  obtain ⟨hall, hsteps⟩ := readAll_append_lineFeed hopen hclose
  exact ⟨hopen, hclose, hall, (hsteps _ _ rfl).1⟩

end Value

end MakerForms
