import MakerForms.Proofs.Sexpr.LexemeStream
import MakerForms.Sexpr.Printable

set_option autoImplicit false

/-! # Lexemes of written values

A value has one sequence of lexemes (`Value.lexemes`), and these are the lexemes of the
characters that the value is written with, whatever text follows (`textLexemes_chars_append`): the
characters of a symbol or an integer are one word, so all that is needed is that the text behind
does not go on with that word. One space or one parenthesis is enough for that.

The lexemes of a value fold to its tokens (`Value.fold_lexemes_append`) unless a symbol in it is
no symbol on its own or a list in it starts a character literal.
-/

namespace MakerForms

/-! ## Lexemes one after another -/

/-- Whether a word that stands before a text ends there. -/
def EndsWord (cs : List Char) : Prop := ∀ c ∈ cs.head?, isWordChar c = false

theorem endsWord_nil : EndsWord [] := by
  simp [EndsWord]

theorem endsWord_cons {c : Char} {cs : List Char} (h : isWordChar c = false) :
    EndsWord (c :: cs) := by
  simpa [EndsWord] using h

theorem textLexemes_blank {c : Char} (h : isBlank c = true) (cs : List Char) :
    textLexemes (c :: cs) = textLexemes cs := by
  have hgap : (splitGap false (c :: cs)).2 = (splitGap false cs).2 := by
    simp [splitGap, gapStep, h]
  rw [textLexemes_eq, hgap, ← textLexemes_eq]

theorem textLexemes_of_first? {c : Char} {cs rest : List Char} {lexeme : Lexeme}
    (hgap : gapStep false c = none) (h : Lexeme.first? (c :: cs) = some (lexeme, rest)) :
    textLexemes (c :: cs) = lexeme :: textLexemes rest := by
  have hsplit : (splitGap false (c :: cs)).2 = c :: cs := by
    simp [splitGap, hgap]
  rw [textLexemes_eq, hsplit, h]

theorem textLexemes_openParen (cs : List Char) :
    textLexemes ('(' :: cs) = .openParen :: textLexemes cs :=
  textLexemes_of_first? (by decide) rfl

theorem textLexemes_closeParen (cs : List Char) :
    textLexemes (')' :: cs) = .closeParen :: textLexemes cs :=
  textLexemes_of_first? (by decide) rfl

theorem gapStep_of_isWordChar {c : Char} (h : isWordChar c = true) : gapStep false c = none := by
  have hblank : ¬ isBlank c = true := by
    intro hc
    simp only [isBlank, Bool.or_eq_true, beq_iff_eq] at hc
    rcases hc with (((rfl | rfl) | rfl) | rfl) | rfl <;> exact absurd h (by decide)
  have hcomment : c ≠ ';' := by
    rintro rfl
    exact absurd h (by decide)
  simp [gapStep, hblank, hcomment]

/-- Where a text goes on with a word character, its first lexeme is the run of word characters. -/
theorem Lexeme.first?_of_isWordChar {c : Char} {cs : List Char} (hc : isWordChar c = true) :
    first? (c :: cs) = some (.word (c :: cs.takeWhile isWordChar), cs.dropWhile isWordChar) := by
  have hparens : c ≠ '(' ∧ c ≠ ')' ∧ c ≠ '"' := by
    refine ⟨?_, ?_, ?_⟩ <;> rintro rfl <;> exact absurd hc (by decide)
  rw [first?, if_neg hparens.1, if_neg hparens.2.1, if_neg hparens.2.2, if_pos hc]

/-- A run of word characters is one word if the text behind it ends the word. -/
theorem textLexemes_word_append {run rest : List Char} (hne : run ≠ [])
    (hrun : ∀ c ∈ run, isWordChar c = true) (hrest : EndsWord rest) :
    textLexemes (run ++ rest) = .word run :: textLexemes rest := by
  cases run with
  | nil => exact absurd rfl hne
  | cons c run =>
      have hc : isWordChar c = true := hrun c (by simp)
      have htail : ∀ d ∈ run, isWordChar d = true := fun d hd => hrun d (by simp [hd])
      -- a word is as long as it can be, so nothing behind the run may belong to it
      have hstop : rest.takeWhile isWordChar = [] ∧ rest.dropWhile isWordChar = rest := by
        cases rest with
        | nil => exact ⟨rfl, rfl⟩
        | cons d rest =>
            have hd : isWordChar d = false := hrest d (by simp)
            simp [hd]
      rw [List.cons_append]
      refine textLexemes_of_first? (gapStep_of_isWordChar hc) ?_
      rw [Lexeme.first?_of_isWordChar hc, List.takeWhile_append_of_pos htail,
        List.dropWhile_append_of_pos htail, hstop.1, hstop.2, List.append_nil]

/-- The text between the quotes of a string literal: a backslash makes a pair with the character
behind it, and a quote stands only in such a pair. -/
inductive IsBody : List Char → Prop
  | nil : IsBody []
  | pair {c : Char} {cs : List Char} : IsBody cs → IsBody ('\\' :: c :: cs)
  | plain {c : Char} {cs : List Char} : c ≠ '"' → c ≠ '\\' → IsBody cs → IsBody (c :: cs)

theorem isBody_escape (cs : List Char) : IsBody (Quoted.escape cs) := by
  induction cs with
  | nil => exact IsBody.nil
  | cons c cs ih =>
      by_cases hc : c = '"' ∨ c = '\\'
      · rw [Quoted.escape, if_pos hc]
        exact IsBody.pair ih
      · rw [Quoted.escape, if_neg hc]
        exact IsBody.plain (fun h => hc (Or.inl h)) (fun h => hc (Or.inr h)) ih

theorem splitBody_quote_append {body : List Char} (h : IsBody body) (rest : List Char) :
    splitBody (body ++ '"' :: rest) = (body, '"' :: rest) := by
  induction h with
  | nil =>
      rw [List.nil_append, splitBody.eq_3 _ _ (by simp)]
      simp
  | @pair c cs _ ih => rw [List.cons_append, List.cons_append, splitBody, ih]
  | @plain c cs hquote hbackslash _ ih =>
      have hplain : ¬ (c = '"' ∨ c = '\\') := by simp [hquote, hbackslash]
      rw [List.cons_append, splitBody.eq_3 _ _ fun _ _ h _ => hbackslash h, if_neg hplain, ih]

/-- A string literal is one lexeme, whatever follows. -/
theorem Lexeme.first?_quoted_append {body : List Char} (h : IsBody body) (rest : List Char) :
    first? ((quoted body).text ++ rest) = some (.quoted body, rest) := by
  have htext : (quoted body).text ++ rest = '"' :: (body ++ '"' :: rest) := by
    simp [text]
  have hliteral : literal (body ++ '"' :: rest) = (.quoted body, rest) := by
    rw [literal, splitBody_quote_append h]
    rfl
  rw [htext, ← hliteral]
  rfl

theorem textLexemes_quoted_append {body : List Char} (h : IsBody body) (rest : List Char) :
    textLexemes ((Lexeme.quoted body).text ++ rest) = .quoted body :: textLexemes rest :=
  textLexemes_of_first? (by decide) (Lexeme.first?_quoted_append h rest)

/-- A string literal that is written is one lexeme. -/
theorem textLexemes_encode_append (cs rest : List Char) :
    textLexemes (Quoted.encode cs ++ rest) = .quoted (Quoted.escape cs) :: textLexemes rest :=
  textLexemes_quoted_append (isBody_escape cs) rest

/-- It spells the string that it is written for. -/
theorem Lexeme.token_quoted_escape (cs : List Char) :
    (quoted (Quoted.escape cs)).token = .ok (.string (String.ofList cs)) := by
  rw [token, Quoted.resolve_escape]

/-! ## Words of symbols and integers -/

theorem isWordChar_of_isDigit {c : Char} (h : c.isDigit = true) : isWordChar c = true := by
  simp [isWordChar, Char.isAlphanum, h]

theorem Numeral.isWordChar_of_isDigits {cs : List Char} (h : isDigits cs = true) :
    cs ≠ [] ∧ ∀ c ∈ cs, isWordChar c = true := by
  obtain ⟨hne, hall⟩ := Bool.and_eq_true_iff.mp h
  refine ⟨by simpa using hne, fun c hc => ?_⟩
  exact isWordChar_of_isDigit (List.all_eq_true.mp hall c hc)

theorem Numeral.isWordChar_of_mem_intChars (i : Int) :
    intChars i ≠ [] ∧ ∀ c ∈ intChars i, isWordChar c = true := by
  cases i with
  | ofNat n => exact isWordChar_of_isDigits (isDigits_digits n)
  | negSucc n =>
      refine ⟨by simp [intChars], fun c hc => ?_⟩
      rcases List.mem_cons.mp hc with rfl | hc
      · rfl
      · exact (isWordChar_of_isDigits (isDigits_digits (n + 1))).2 c hc

namespace Symbol

theorem isWordChar_of_isName {cs : List Char} (h : isName cs = true) :
    cs ≠ [] ∧ ∀ c ∈ cs, isWordChar c = true := by
  obtain ⟨hne, hall⟩ := isName_iff.mp h
  exact ⟨hne, fun c hc => isNameChar_isWordChar (hall c hc)⟩

theorem isWordChar_of_mem_chars {s : Symbol} (h : s.Valid) :
    s.chars ≠ [] ∧ ∀ c ∈ s.chars, isWordChar c = true := by
  obtain ⟨package, name⟩ := s
  cases package with
  | none => exact isWordChar_of_isName (isName_of_isBareName h)
  | some package =>
      obtain ⟨hpackage, hname⟩ := h
      have hcolon : isWordChar ':' = true := by decide
      have hpackageChars := (isWordChar_of_isName hpackage).2
      have hnameChars := (isWordChar_of_isName hname).2
      unfold chars
      dsimp only
      split
      · refine ⟨by simp, fun c hc => ?_⟩
        rcases List.mem_cons.mp hc with rfl | hc
        · exact hcolon
        · exact hnameChars c hc
      · refine ⟨by simp, fun c hc => ?_⟩
        rcases List.mem_append.mp hc with hc | hc
        · exact hpackageChars c hc
        · rcases List.mem_cons.mp hc with rfl | hc
          · exact hcolon
          rcases List.mem_cons.mp hc with rfl | hc
          · exact hcolon
          · exact hnameChars c hc

end Symbol

namespace Value

open Lexeme (fold foldLiteral startLiteral)

/-! ## Lexemes of a value -/

mutual

/-- The lexemes that a value is written with. -/
def lexemes : Value → List Lexeme
  | .symbol s => [.word s.chars]
  | .list vs => .openParen :: (joinedLexemes vs ++ [.closeParen])
  | .integer i => [.word (Numeral.intChars i)]
  | .string s => [.quoted (Quoted.escape s.toList)]
  | .character code =>
    [.openParen, .word Symbol.codeChar.toList, .word (Numeral.digits code.toNat), .closeParen]

/-- The lexemes that values are written with, one value after another. -/
def joinedLexemes : List Value → List Lexeme
  | [] => []
  | v :: vs => v.lexemes ++ joinedLexemes vs

end

/-- Whether a symbol that a value is could be made. -/
def HasValidSymbol (v : Value) : Prop := ∀ s ∈ v.symbol?, s.Valid

/-- Whether the symbols in a value could be made. -/
def SymbolsValid (v : Value) : Prop := v.Everywhere HasValidSymbol

instance : DecidablePred HasValidSymbol := fun v =>
  inferInstanceAs (Decidable (∀ s ∈ v.symbol?, s.Valid))

instance (v : Value) : Decidable v.SymbolsValid :=
  inferInstanceAs (Decidable (v.Everywhere HasValidSymbol))

theorem textLexemes_characterChars_append (code : UInt8) (rest : List Char) :
    textLexemes (characterChars code ++ rest)
      = (character code).lexemes ++ textLexemes rest := by
  obtain ⟨hne, hdigits⟩ := Numeral.isWordChar_of_isDigits (Numeral.isDigits_digits code.toNat)
  have hname : Symbol.isName Symbol.codeChar.toList = true := by decide +kernel
  obtain ⟨hcode, hword⟩ := Symbol.isWordChar_of_isName hname
  have htext : characterChars code ++ rest
      = '(' :: (Symbol.codeChar.toList ++ (' ' :: (Numeral.digits code.toNat ++ ')' :: rest))) := by
    simp [characterChars]
  rw [htext, textLexemes_openParen,
    textLexemes_word_append hcode hword (endsWord_cons (by decide)),
    textLexemes_blank (by decide), textLexemes_word_append hne hdigits (endsWord_cons (by decide)),
    textLexemes_closeParen]
  rfl

mutual

/-- What a value is written with has the lexemes of the value, whatever follows. -/
theorem textLexemes_chars_append : (v : Value) → (rest : List Char) → v.SymbolsValid →
    EndsWord rest → textLexemes (v.chars ++ rest) = v.lexemes ++ textLexemes rest
  | .symbol s, _, hvalid, hrest => by
      obtain ⟨hne, hword⟩ := Symbol.isWordChar_of_mem_chars (hvalid s rfl)
      exact textLexemes_word_append hne hword hrest
  | .integer i, _, _, hrest => by
      obtain ⟨hne, hword⟩ := Numeral.isWordChar_of_mem_intChars i
      exact textLexemes_word_append hne hword hrest
  | .string s, rest, _, _ => textLexemes_encode_append s.toList rest
  | .character code, rest, _, _ => textLexemes_characterChars_append code rest
  | .list vs, rest, hvalid, _ => by
      have hitems := textLexemes_joinedChars_append vs (')' :: rest) hvalid.2
        (endsWord_cons (by decide))
      simp only [chars, lexemes, List.cons_append, List.append_assoc, List.nil_append,
        textLexemes_openParen, hitems, textLexemes_closeParen]

/-- What values are written with has the lexemes of the values, whatever follows. -/
theorem textLexemes_joinedChars_append : (vs : List Value) → (rest : List Char) →
    EverywhereIn HasValidSymbol vs → EndsWord rest →
    textLexemes (joinedChars vs ++ rest) = joinedLexemes vs ++ textLexemes rest
  | [], _, _, _ => rfl
  | [v], rest, hvalid, hrest => by
      rw [joinedChars, joinedLexemes, joinedLexemes, List.append_nil,
        textLexemes_chars_append v rest hvalid.1 hrest]
  | v :: w :: vs, rest, hvalid, hrest => by
      rw [joinedChars, joinedLexemes, List.append_assoc, List.cons_append,
        textLexemes_chars_append v _ hvalid.1 (endsWord_cons (by decide)),
        textLexemes_blank (by decide), textLexemes_joinedChars_append (w :: vs) rest hvalid.2 hrest,
        List.append_assoc]

end

/-! ## Tokens of a value -/

/-- Whether a symbol that a value is starts like no number. -/
def HasPlainPackage (v : Value) : Prop := ∀ s ∈ v.symbol?, s.hasNumericPackage = false

/-- Whether a value is no list headed by the symbol `CODE-CHAR`. -/
def IsNoLiteral (v : Value) : Prop := v.head? ≠ some (Symbol.bare Symbol.codeChar)

instance : DecidablePred HasPlainPackage := fun v =>
  inferInstanceAs (Decidable (∀ s ∈ v.symbol?, s.hasNumericPackage = false))

instance : DecidablePred IsNoLiteral := fun v =>
  inferInstanceAs (Decidable (v.head? ≠ some (Symbol.bare Symbol.codeChar)))

theorem fold_word (run : List Char) (ls : List Lexeme) :
    fold (.word run :: ls) = wordToken run :: fold ls := by
  rw [fold]
  rfl

theorem fold_quoted_escape (cs : List Char) (ls : List Lexeme) :
    fold (.quoted (Quoted.escape cs) :: ls) = .ok (.string (String.ofList cs)) :: fold ls := by
  rw [fold, ← Lexeme.token_quoted_escape]
  rfl

theorem fold_closeParen (ls : List Lexeme) :
    fold (.closeParen :: ls) = .ok .closeParen :: fold ls := by
  rw [fold]
  rfl

theorem fold_openParen {ls : List Lexeme} (h : startLiteral ls = false) :
    fold (.openParen :: ls) = .ok .openParen :: fold ls := by
  rw [fold, Lexeme.foldFirst, h]
  rfl

theorem fold_character_lexemes (code : UInt8) (ls : List Lexeme) :
    fold ((character code).lexemes ++ ls) = .ok (.character code) :: fold ls := by
  have hstart : startLiteral (.word Symbol.codeChar.toList ::
      .word (Numeral.digits code.toNat) :: .closeParen :: ls) = true := by
    simp [startLiteral]
  have hliteral : foldLiteral (.word (Numeral.digits code.toNat) :: .closeParen :: ls)
      = (.ok (.character code), ls) := by
    rw [foldLiteral, Numeral.byte?_digits]
  simp only [lexemes, List.cons_append, List.nil_append]
  rw [fold, Lexeme.foldFirst, if_pos hstart, List.tail_cons, hliteral]

/-- Written values start no character literal unless `CODE-CHAR` is the first. -/
theorem startLiteral_joinedLexemes {vs : List Value} (hvalid : EverywhereIn HasValidSymbol vs)
    (hliteral : (list vs).IsNoLiteral) (ls : List Lexeme) :
    startLiteral (joinedLexemes vs ++ .closeParen :: ls) = false := by
  cases vs with
  | nil => rfl
  | cons v vs =>
      cases v with
      | symbol s =>
          have hs : s.Valid := hvalid.1 s rfl
          have hne : String.ofList s.chars ≠ Symbol.codeChar := by
            intro hchars
            -- the word spells one symbol only, so the symbol is the head of a literal
            have hread := Symbol.wordSymbol?_chars hs
            rw [← String.toList_ofList (l := s.chars), hchars] at hread
            exact hliteral (congrArg some (Option.some.inj hread).symm)
          simpa [joinedLexemes, lexemes, startLiteral] using hne
      | integer i =>
          have hne : String.ofList (Numeral.intChars i) ≠ Symbol.codeChar := by
            intro hchars
            have hnumeral := Numeral.isNumeral_intChars i
            rw [← String.toList_ofList (l := Numeral.intChars i), hchars] at hnumeral
            exact absurd hnumeral (by decide)
          simpa [joinedLexemes, lexemes, startLiteral] using hne
      | list _ | string _ | character _ => rfl

mutual

/-- The lexemes of a value fold to its tokens, whatever follows. -/
theorem fold_lexemes_append : (v : Value) → (ls : List Lexeme) → v.SymbolsValid →
    v.Everywhere HasPlainPackage → v.Everywhere IsNoLiteral →
    fold (v.lexemes ++ ls) = v.tokens.map .ok ++ fold ls
  | .symbol s, ls, hvalid, hplain, _ => by
      have htoken := Symbol.wordToken_chars (hvalid s rfl) (hplain s rfl)
      simp [lexemes, tokens, fold_word, htoken]
  | .integer i, ls, _, _, _ => by
      simp [lexemes, tokens, fold_word, wordToken_intChars]
  | .string s, ls, _, _, _ => by
      simp [lexemes, tokens, fold_quoted_escape]
  | .character code, ls, _, _, _ => fold_character_lexemes code ls
  | .list vs, ls, hvalid, hplain, hliteral => by
      have hstart := startLiteral_joinedLexemes hvalid.2 hliteral.1 ls
      have hitems := fold_joinedLexemes_append vs (.closeParen :: ls) hvalid.2 hplain.2 hliteral.2
      simp [lexemes, tokens, fold_openParen hstart, hitems, fold_closeParen]

/-- The lexemes of values fold to their tokens, whatever follows. -/
theorem fold_joinedLexemes_append : (vs : List Value) → (ls : List Lexeme) →
    EverywhereIn HasValidSymbol vs → EverywhereIn HasPlainPackage vs →
    EverywhereIn IsNoLiteral vs →
    fold (joinedLexemes vs ++ ls) = (joinedTokens vs).map .ok ++ fold ls
  | [], _, _, _, _ => rfl
  | v :: vs, ls, hvalid, hplain, hliteral => by
      rw [joinedLexemes, joinedTokens, List.append_assoc,
        fold_lexemes_append v _ hvalid.1 hplain.1 hliteral.1,
        fold_joinedLexemes_append vs ls hvalid.2 hplain.2 hliteral.2, List.map_append,
        List.append_assoc]

end

end Value

end MakerForms
