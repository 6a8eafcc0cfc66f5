import MakerForms.Proofs.Sexpr.TokenReading
import MakerForms.Proofs.Sexpr.Written
import Mathlib.Data.List.Chain

set_option autoImplicit false

/-! # Spacing does not matter

A text can be made by writing lexemes one after another, each behind a gap, with one more gap at
the end (`spacedText`). If the lexemes are whole and no two words touch (`IsSpacing`), the text
has just these lexemes (`textLexemes_spacedText`), whatever the gaps are: comments may hold
quotes and parentheses, and strings may hold semicolons and new lines. Tokens and values depend
on the lexemes alone, so texts that differ in nothing but their gaps read the same
(`Value.readAll_ignores_spacing`).

What holds of one gap and of one lexeme is shown first, for any text behind it.
-/

namespace MakerForms

/-! ## Gaps in front of a text -/

theorem splitGap_comment_append {body : List Char} (hbody : '\n' ∉ body) (rest : List Char) :
    (splitGap true (body ++ '\n' :: rest)).2 = (splitGap false rest).2 := by
  induction body with
  | nil => rfl
  | cons c body ih =>
      have hc : c ≠ '\n' := fun h => hbody (by simp [h])
      have hstep : gapStep true c = some true := by simp [gapStep, hc]
      rw [List.cons_append, splitGap, hstep]
      exact ih fun h => hbody (List.mem_cons_of_mem c h)

theorem splitGap_lastComment {body : List Char} (hbody : '\n' ∉ body) :
    (splitGap true body).2 = [] := by
  induction body with
  | nil => rfl
  | cons c body ih =>
      have hc : c ≠ '\n' := fun h => hbody (by simp [h])
      have hstep : gapStep true c = some true := by simp [gapStep, hc]
      rw [splitGap, hstep]
      exact ih fun h => hbody (List.mem_cons_of_mem c h)

/-- A gap in front of a text is split off together with the gap that the text starts with. -/
theorem splitGap_gap_append {gap : List Char} (h : IsGap False gap) (rest : List Char) :
    (splitGap false (gap ++ rest)).2 = (splitGap false rest).2 := by
  induction h with
  | nil => rfl
  | @blank c cs hblank _ ih =>
      have hstep : gapStep false c = some false := by simp [gapStep, hblank]
      rw [List.cons_append, splitGap, hstep]
      exact ih
  | @comment body cs hbody _ ih =>
      have happend : (';' :: (body ++ '\n' :: cs)) ++ rest
          = ';' :: (body ++ '\n' :: (cs ++ rest)) := by simp
      rw [happend]
      exact (splitGap_comment_append hbody _).trans ih
  | lastComment hlast _ => exact hlast.elim

/-- Nothing is left behind a gap that is the whole text, also if a comment in it is not ended. -/
theorem splitGap_lastGap {gap : List Char} (h : IsGap True gap) : (splitGap false gap).2 = [] := by
  induction h with
  | nil => rfl
  | @blank c cs hblank _ ih =>
      have hstep : gapStep false c = some false := by simp [gapStep, hblank]
      rw [splitGap, hstep]
      exact ih
  | comment hbody _ ih => exact (splitGap_comment_append hbody _).trans ih
  | lastComment _ hbody => exact splitGap_lastComment hbody

/-- Whether a text is a gap shows when something that is none follows it. -/
theorem isGap_iff {gap : List Char} :
    IsGap False gap ↔ (splitGap false (gap ++ [')'])).2 = [')'] := by
  constructor
  · intro h
    rw [splitGap_gap_append h]
    rfl
  · intro h
    have hwhole := splitGap_append false (gap ++ [')'])
    rw [h] at hwhole
    have hgap : (splitGap false (gap ++ [')'])).1 = gap := List.append_cancel_right hwhole
    have hsplit := (isGap_splitGap (gap ++ [')'])).1
    rw [hgap, h] at hsplit
    exact hsplit.imp (by simp)

theorem isGap_last_iff {gap : List Char} : IsGap True gap ↔ (splitGap false gap).2 = [] := by
  constructor
  · exact splitGap_lastGap
  · intro h
    have hwhole := splitGap_append false gap
    rw [h, List.append_nil] at hwhole
    have hsplit := (isGap_splitGap gap).1
    rw [hwhole] at hsplit
    exact hsplit.imp fun _ => trivial

instance (gap : List Char) : Decidable (IsGap False gap) := decidable_of_iff _ isGap_iff.symm

instance (gap : List Char) : Decidable (IsGap True gap) := decidable_of_iff _ isGap_last_iff.symm

/-- A gap in front of a text adds no lexemes. -/
theorem textLexemes_gap_append {gap : List Char} (h : IsGap False gap) (rest : List Char) :
    textLexemes (gap ++ rest) = textLexemes rest := by
  rw [textLexemes_eq, splitGap_gap_append h, ← textLexemes_eq]

theorem textLexemes_lastGap {gap : List Char} (h : IsGap True gap) : textLexemes gap = [] := by
  rw [textLexemes_eq, splitGap_lastGap h]
  rfl

theorem isWordChar_of_isBlank {c : Char} (h : isBlank c = true) : isWordChar c = false := by
  apply Bool.eq_false_iff.mpr
  intro hword
  have hstep := gapStep_of_isWordChar hword
  simp [gapStep, h] at hstep

/-- A gap that is not empty ends the word in front of it. -/
theorem endsWord_gap_append {last : Prop} {gap : List Char} (h : IsGap last gap) (hne : gap ≠ [])
    (rest : List Char) : EndsWord (gap ++ rest) := by
  have hsemicolon : isWordChar ';' = false := by decide
  cases h with
  | nil => exact absurd rfl hne
  | blank hblank _ => exact endsWord_cons (isWordChar_of_isBlank hblank)
  | comment _ _ => exact endsWord_cons hsemicolon
  | lastComment _ _ => exact endsWord_cons hsemicolon

/-! ## Whole lexemes in front of a text -/

theorem isBody_splitBody (cs : List Char) : IsBody (splitBody cs).1 := by
  induction cs using splitBody.induct with
  | case1 => exact IsBody.nil
  | case2 c cs ih =>
      rw [splitBody]
      exact IsBody.pair ih
  | case3 c cs unpaired stop =>
      rw [splitBody.eq_3 c cs unpaired, if_pos stop]
      exact IsBody.nil
  | case4 c cs unpaired go ih =>
      rw [splitBody.eq_3 c cs unpaired, if_neg go]
      exact IsBody.plain (fun h => go (Or.inl h)) (fun h => go (Or.inr h)) ih

/-- Whether a text is the body of a literal shows when a quote follows it. -/
theorem isBody_iff {body : List Char} : IsBody body ↔ (splitBody (body ++ ['"'])).1 = body := by
  constructor
  · intro h
    rw [splitBody_quote_append h]
  · intro h
    have hbody := isBody_splitBody (body ++ ['"'])
    rwa [h] at hbody

instance (body : List Char) : Decidable (IsBody body) := decidable_of_iff _ isBody_iff.symm

namespace Lexeme

/-- Whether a lexeme is a parenthesis, a string literal that is closed, or a word. -/
def Whole : Lexeme → Prop
  | openParen | closeParen => True
  | quoted body => IsBody body
  | word run => run ≠ [] ∧ run.all isWordChar = true
  | unclosed _ | stray _ => False

instance : DecidablePred Whole
  | openParen | closeParen => inferInstanceAs (Decidable True)
  | quoted body => inferInstanceAs (Decidable (IsBody body))
  | word run => inferInstanceAs (Decidable (run ≠ [] ∧ run.all isWordChar = true))
  | unclosed _ | stray _ => inferInstanceAs (Decidable False)

/-- Whether a lexeme is a word. -/
def isWord : Lexeme → Bool
  | word _ => true
  | _ => false

end Lexeme

/-- A whole lexeme in front of a text is its first lexeme, unless it is a word that goes on. -/
theorem textLexemes_text_append {lexeme : Lexeme} (h : lexeme.Whole) {rest : List Char}
    (hrest : lexeme.isWord = true → EndsWord rest) :
    textLexemes (lexeme.text ++ rest) = lexeme :: textLexemes rest := by
  cases lexeme with
  | openParen => exact textLexemes_openParen rest
  | closeParen => exact textLexemes_closeParen rest
  | quoted body => exact textLexemes_quoted_append h rest
  | word run => exact textLexemes_word_append h.1 (List.all_eq_true.mp h.2) (hrest rfl)
  | unclosed body => exact h.elim
  | stray c => exact h.elim

/-- A whole lexeme that is no word ends the word in front of it. -/
theorem endsWord_text_append {lexeme : Lexeme} (h : lexeme.Whole) (hword : lexeme.isWord = false)
    (rest : List Char) : EndsWord (lexeme.text ++ rest) := by
  cases lexeme with
  | openParen => exact endsWord_cons (by decide)
  | closeParen => exact endsWord_cons (by decide)
  | quoted body => exact endsWord_cons (by decide)
  | word run => cases hword
  | unclosed body => exact h.elim
  | stray c => exact h.elim

/-! ## Lexemes with gaps between them -/

/-- A lexeme and the gap in front of it. -/
structure SpacedLexeme where
  gap : List Char
  lexeme : Lexeme

/-- The characters of lexemes behind their gaps, with the gap `last` behind all of them. -/
def spacedChars : List SpacedLexeme → List Char → List Char
  | [], last => last
  | piece :: pieces, last => piece.gap ++ (piece.lexeme.text ++ spacedChars pieces last)

/-- The text of lexemes behind their gaps. -/
def spacedText (pieces : List SpacedLexeme) (last : List Char) : String :=
  String.ofList (spacedChars pieces last)

/-- Whether gaps keep lexemes apart: what stands for a gap is one, only the last of them may end
in a comment that goes on to the end of the text, the lexemes are whole, and between two words
the gap is not empty. -/
structure IsSpacing (pieces : List SpacedLexeme) (last : List Char) : Prop where
  isGap : ∀ piece ∈ pieces, IsGap False piece.gap
  isGap_last : IsGap True last
  whole : ∀ piece ∈ pieces, piece.lexeme.Whole
  apart : pieces.IsChain fun a b =>
    a.lexeme.isWord = true → b.lexeme.isWord = true → b.gap ≠ []

theorem isSpacing_iff {pieces : List SpacedLexeme} {last : List Char} :
    IsSpacing pieces last ↔
      (∀ piece ∈ pieces, IsGap False piece.gap ∧ piece.lexeme.Whole) ∧ IsGap True last ∧
        pieces.IsChain fun a b => a.lexeme.isWord = true → b.lexeme.isWord = true → b.gap ≠ [] := by
  constructor
  · intro h
    exact ⟨fun a ha => ⟨h.isGap a ha, h.whole a ha⟩, h.isGap_last, h.apart⟩
  · rintro ⟨hpieces, hlast, hapart⟩
    exact ⟨fun a ha => (hpieces a ha).1, hlast, fun a ha => (hpieces a ha).2, hapart⟩

instance (pieces : List SpacedLexeme) (last : List Char) : Decidable (IsSpacing pieces last) :=
  decidable_of_iff _ isSpacing_iff.symm

theorem IsSpacing.tail {piece : SpacedLexeme} {pieces : List SpacedLexeme} {last : List Char}
    (h : IsSpacing (piece :: pieces) last) : IsSpacing pieces last where
  isGap a ha := h.isGap a (List.mem_cons_of_mem piece ha)
  isGap_last := h.isGap_last
  whole a ha := h.whole a (List.mem_cons_of_mem piece ha)
  apart := h.apart.tail

/-- What follows a word in such a text does not go on with the word. -/
theorem IsSpacing.endsWord_spacedChars {piece : SpacedLexeme} {pieces : List SpacedLexeme}
    {last : List Char} (h : IsSpacing (piece :: pieces) last)
    (hword : piece.lexeme.isWord = true) : EndsWord (spacedChars pieces last) := by
  cases pieces with
  | nil =>
      by_cases hlast : last = []
      · rw [hlast]
        exact endsWord_nil
      · have hends := endsWord_gap_append h.isGap_last hlast []
        rwa [List.append_nil] at hends
  | cons next pieces =>
      have hnext : next ∈ piece :: next :: pieces := by simp
      by_cases hgap : next.gap = []
      · have hnoWord : next.lexeme.isWord = false := by
          apply Bool.eq_false_iff.mpr
          intro hboth
          exact h.apart.rel hword hboth hgap
        rw [spacedChars, hgap, List.nil_append]
        exact endsWord_text_append (h.whole next hnext) hnoWord _
      · exact endsWord_gap_append (h.isGap next hnext) hgap _

/-- The text has the lexemes that it was made of. -/
theorem textLexemes_spacedChars {pieces : List SpacedLexeme} {last : List Char}
    (h : IsSpacing pieces last) :
    textLexemes (spacedChars pieces last) = pieces.map SpacedLexeme.lexeme := by
  induction pieces with
  | nil => exact textLexemes_lastGap h.isGap_last
  | cons piece pieces ih =>
      have hgap := h.isGap piece List.mem_cons_self
      have hwhole := h.whole piece List.mem_cons_self
      calc textLexemes (spacedChars (piece :: pieces) last)
          = textLexemes (piece.lexeme.text ++ spacedChars pieces last) :=
            textLexemes_gap_append hgap _
        _ = piece.lexeme :: textLexemes (spacedChars pieces last) :=
            textLexemes_text_append hwhole h.endsWord_spacedChars
        _ = (piece :: pieces).map SpacedLexeme.lexeme := by
            rw [ih h.tail, List.map_cons]

theorem Scanner.tokens_spacedText {pieces : List SpacedLexeme} {last : List Char}
    (h : IsSpacing pieces last) :
    (Scanner.ofString (spacedText pieces last)).tokens
      = Lexeme.fold (pieces.map SpacedLexeme.lexeme) := by
  have hrest : (Scanner.ofString (spacedText pieces last)).rest = spacedChars pieces last :=
    String.toList_ofList
  rw [Scanner.tokens_eq_fold, hrest, textLexemes_spacedChars h]

namespace Value

/-- **Spacing does not matter.** Two texts that write the same lexemes with other gaps before,
between and behind them have the same tokens and kinds of lexical faults, namely those that the
lexemes fold to. Both texts read as the same values, or both are refused for the same reason. -/
theorem readAll_ignores_spacing {pieces pieces' : List SpacedLexeme} {last last' : List Char}
    (h : IsSpacing pieces last) (h' : IsSpacing pieces' last')
    (hsame : pieces.map SpacedLexeme.lexeme = pieces'.map SpacedLexeme.lexeme) :
    (Scanner.ofString (spacedText pieces last)).tokens
        = Lexeme.fold (pieces.map SpacedLexeme.lexeme) ∧
      (Scanner.ofString (spacedText pieces' last')).tokens
        = (Scanner.ofString (spacedText pieces last)).tokens ∧
      (readAll (spacedText pieces' last')).mapError ReadError.reason
        = (readAll (spacedText pieces last)).mapError ReadError.reason := by
  have hfold := Scanner.tokens_spacedText h
  have htokens : (Scanner.ofString (spacedText pieces' last')).tokens
      = (Scanner.ofString (spacedText pieces last)).tokens := by
    rw [hfold, Scanner.tokens_spacedText h', hsame]
  exact ⟨hfold, htokens, Scanner.readAll_congr [] htokens⟩

/-- A character literal, a string and a list, with as few gaps as can be. -/
def tightPieces : List SpacedLexeme :=
  [⟨[], .openParen⟩, ⟨[], .word "CODE-CHAR".toList⟩, ⟨[' '], .word "65".toList⟩,
   ⟨[], .closeParen⟩, ⟨[], .quoted ['\\', '"', ';', '\n']⟩, ⟨[], .openParen⟩,
   ⟨[], .word "A::B".toList⟩, ⟨['\t'], .word "-7".toList⟩, ⟨[], .closeParen⟩]

/-- The same lexemes with comments around and inside the character literal. -/
def loosePieces : List SpacedLexeme :=
  [⟨"; \")\\\n".toList, .openParen⟩, ⟨"\r\n".toList, .word "CODE-CHAR".toList⟩,
   ⟨";(\n".toList, .word "65".toList⟩, ⟨['\x0c'], .closeParen⟩,
   ⟨[' '], .quoted ['\\', '"', ';', '\n']⟩, ⟨";;\n ".toList, .openParen⟩,
   ⟨[' ', ' '], .word "A::B".toList⟩, ⟨";\"\n".toList, .word "-7".toList⟩, ⟨['\n'], .closeParen⟩]

theorem readAll_ignores_spacing_loosePieces :
    IsSpacing tightPieces [] ∧ IsSpacing loosePieces "; (end".toList ∧
      tightPieces.map SpacedLexeme.lexeme = loosePieces.map SpacedLexeme.lexeme ∧
      (Scanner.ofString (spacedText loosePieces "; (end".toList)).tokens
        = (Scanner.ofString (spacedText tightPieces [])).tokens ∧
      (readAll (spacedText loosePieces "; (end".toList)).mapError ReadError.reason
        = (readAll (spacedText tightPieces [])).mapError ReadError.reason := by
  have htight : IsSpacing tightPieces [] := by decide +kernel
  have hloose : IsSpacing loosePieces "; (end".toList := by decide +kernel
  have hsame : tightPieces.map SpacedLexeme.lexeme = loosePieces.map SpacedLexeme.lexeme := rfl
  exact ⟨htight, hloose, hsame, (readAll_ignores_spacing htight hloose hsame).2⟩

end Value

end MakerForms
