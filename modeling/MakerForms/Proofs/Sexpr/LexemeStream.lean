import MakerForms.Proofs.Sexpr.TokenView
import MakerForms.Proofs.Sexpr.Words

set_option autoImplicit false

/-! # Tokens as a fold over lexemes

A text is a sequence of lexemes (`textLexemes`), and its tokens depend on nothing else: they are
made from the lexemes by going over them once (`Lexeme.fold`), from left to right. All lexemes
are tokens or faults by themselves, except that an opening parenthesis followed by the word
`CODE-CHAR` takes up to two more lexemes with it. `Scanner.tokens_eq_fold` says that the scanner,
which looks ahead in the text, does the same.

It follows that no opening parenthesis among the tokens has the symbol `CODE-CHAR` right behind
it, and that no symbol has a package that starts like a number.
-/

namespace MakerForms

/-! ## Lexemes of a text -/

theorem length_splitGap_le (comment : Bool) (cs : List Char) :
    (splitGap comment cs).2.length ≤ cs.length := by
  have h := congrArg List.length (splitGap_append comment cs)
  rw [List.length_append] at h
  omega

/-- The lexemes of a text in their order, without the gaps. -/
def textLexemes (cs : List Char) : List Lexeme :=
  match _h : Lexeme.first? (splitGap false cs).2 with
  | none => []
  | some (lexeme, rest) => lexeme :: textLexemes rest
termination_by cs.length
decreasing_by
  exact Nat.lt_of_lt_of_le (Lexeme.length_lt_of_first? _h) (length_splitGap_le false cs)

theorem textLexemes_eq (cs : List Char) :
    textLexemes cs =
      match Lexeme.first? (splitGap false cs).2 with
      | none => []
      | some (lexeme, rest) => lexeme :: textLexemes rest := by
  rw [textLexemes]
  rcases Lexeme.first? (splitGap false cs).2 with _ | ⟨lexeme, rest⟩
  · rfl
  · rfl

theorem textLexemes_nil : textLexemes [] = [] := by
  rw [textLexemes_eq]
  rfl

theorem textLexemes_eq_nil_of_first? {cs : List Char} (h : Lexeme.first? cs = none) :
    textLexemes cs = [] := by
  cases cs with
  | nil => exact textLexemes_nil
  | cons c cs =>
      simp only [Lexeme.first?] at h
      repeat' split at h
      all_goals cases h

namespace Scanner

theorem textLexemes_of_lexeme?_none {s : Scanner} (h : s.lexeme? = none) :
    textLexemes s.rest = [] ∧ textLexemes s.skip.rest = [] := by
  have hfirst : Lexeme.first? s.skip.rest = none := by simpa [lexeme?] using h
  have hgap : (splitGap false s.rest).2 = s.skip.rest := rfl
  exact ⟨by rw [textLexemes_eq, hgap, hfirst], textLexemes_eq_nil_of_first? hfirst⟩

theorem textLexemes_of_lexeme?_some {s s' : Scanner} {lexeme : Lexeme}
    (h : s.lexeme? = some (lexeme, s')) : textLexemes s.rest = lexeme :: textLexemes s'.rest := by
  obtain ⟨⟨l, rest⟩, hfirst, heq⟩ := Option.map_eq_some_iff.mp h
  obtain ⟨rfl, rfl⟩ := Prod.mk.inj heq
  have hgap : (splitGap false s.rest).2 = s.skip.rest := rfl
  rw [textLexemes_eq, hgap, hfirst]

end Scanner

/-! ## The fold -/

namespace Lexeme

/-- The token or fault that starts with `(CODE-CHAR`, given the lexemes behind that, and the
lexemes behind the token or fault. -/
def foldLiteral : List Lexeme → Except LexFault Token × List Lexeme
  | [] => (.error .characterCode, [])
  | .word run :: rest =>
    match Numeral.byte? run with
    | none => (.error .characterCode, rest)
    | some code =>
      match rest with
      | [] => (.error .characterCode, [])
      | .closeParen :: rest => (.ok (.character code), rest)
      | _ :: rest => (.error .characterCode, rest)
  | _ :: rest => (.error .characterCode, rest)

/-- Whether lexemes behind an opening parenthesis make it start a character literal. -/
def startLiteral : List Lexeme → Bool
  | .word run :: _ => String.ofList run = Symbol.codeChar
  | _ => false

theorem startLiteral_append {ls : List Lexeme} (h : ls ≠ []) (ms : List Lexeme) :
    startLiteral (ls ++ ms) = startLiteral ls := by
  cases ls with
  | nil => exact absurd rfl h
  | cons lexeme ls => cases lexeme <;> rfl

/-- The token or fault that starts with a lexeme, and the lexemes behind it. -/
def foldFirst : Lexeme → List Lexeme → Except LexFault Token × List Lexeme
  | .openParen, rest =>
    if startLiteral rest then foldLiteral rest.tail else (.ok .openParen, rest)
  | lexeme, rest => (lexeme.token, rest)

theorem length_foldLiteral_le (ls : List Lexeme) : (foldLiteral ls).2.length ≤ ls.length := by
  unfold foldLiteral
  repeat' split
  all_goals
    simp only [List.length_cons, List.length_nil]
    omega

theorem length_foldFirst_le (lexeme : Lexeme) (ls : List Lexeme) :
    (foldFirst lexeme ls).2.length ≤ ls.length := by
  cases lexeme
  case openParen =>
    rw [foldFirst]
    split
    · have h := length_foldLiteral_le ls.tail
      rw [List.length_tail] at h
      omega
    · exact Nat.le_refl _
  all_goals exact Nat.le_refl _

/-- The tokens and faults that lexemes make up. -/
def fold : List Lexeme → List (Except LexFault Token)
  | [] => []
  | lexeme :: rest => (foldFirst lexeme rest).1 :: fold (foldFirst lexeme rest).2
termination_by ls => ls.length
decreasing_by exact Nat.lt_succ_of_le (length_foldFirst_le lexeme rest)

end Lexeme

namespace Scanner

open Lexeme (foldLiteral startLiteral foldFirst fold)

theorem foldLiteral_lexemes (s : Scanner) :
    foldLiteral (textLexemes s.rest) =
      (s.characterLiteral.1, textLexemes s.characterLiteral.2.rest) := by
  unfold characterLiteral
  split
  · next hnone =>
    obtain ⟨hrest, hskip⟩ := textLexemes_of_lexeme?_none hnone
    rw [hrest, hskip]
    rfl
  · next run behind hsome =>
    rw [textLexemes_of_lexeme?_some hsome, foldLiteral]
    cases hbyte : Numeral.byte? run with
    | none => rfl
    | some code =>
        cases hnext : behind.lexeme? with
        | none =>
            obtain ⟨hrest, hskip⟩ := textLexemes_of_lexeme?_none hnext
            simp [hrest, hskip]
        | some pair =>
            obtain ⟨lexeme, last⟩ := pair
            rw [textLexemes_of_lexeme?_some hnext]
            cases lexeme <;> rfl
  · next lexeme last hother hsome =>
    rw [textLexemes_of_lexeme?_some hsome]
    cases lexeme
    case word run => exact absurd rfl (hother run)
    all_goals rfl

theorem foldFirst_lexemes (lexeme : Lexeme) (s : Scanner) :
    foldFirst lexeme (textLexemes s.rest) =
      ((complete lexeme s).1, textLexemes (complete lexeme s).2.rest) := by
  cases lexeme
  -- only an opening parenthesis looks at what comes behind it
  case openParen =>
    rw [foldFirst, complete, afterOpen]
    cases hlexeme : s.lexeme? with
    | none => simp [(textLexemes_of_lexeme?_none hlexeme).1, startLiteral]
    | some pair =>
        obtain ⟨behind, s'⟩ := pair
        have hlexemes := textLexemes_of_lexeme?_some hlexeme
        cases behind
        case word run =>
          by_cases hcode : String.ofList run = Symbol.codeChar
          · have hliteral := foldLiteral_lexemes s'
            simp [hlexemes, startLiteral, hcode, hliteral]
          · simp [hlexemes, startLiteral, hcode]
        all_goals simp [hlexemes, startLiteral]
  all_goals rfl

theorem meaning_next {s behind : Scanner} {lexeme : Lexeme}
    (h : s.lexeme? = some (lexeme, behind)) :
    ∃ result, s.next = (some result, (complete lexeme behind).2) ∧
      meaning result = (complete lexeme behind).1 := by
  rw [next, h]
  dsimp only
  split
  · next token htoken => exact ⟨_, rfl, htoken.symm⟩
  · next fault hfault => exact ⟨_, rfl, hfault.symm⟩

/-- The tokens of a text are those that its lexemes make up. -/
theorem tokens_eq_fold (s : Scanner) : s.tokens = fold (textLexemes s.rest) := by
  cases hlexeme : s.lexeme? with
  | none =>
      have hnext : s.next = (none, s.skip) := by rw [next, hlexeme]
      rw [tokens_of_next_none hnext, (textLexemes_of_lexeme?_none hlexeme).1, fold]
  | some pair =>
      obtain ⟨lexeme, behind⟩ := pair
      obtain ⟨result, hnext, hresult⟩ := meaning_next hlexeme
      have hshorter := length_lt_of_next hnext
      rw [tokens_of_next_some hnext, textLexemes_of_lexeme?_some hlexeme, fold, foldFirst_lexemes,
        hresult, tokens_eq_fold (complete lexeme behind).2]
termination_by s.rest.length

end Scanner

/-! ## What the fold never gives -/

namespace Lexeme

/-- A literal is a character if it is anything. -/
theorem character_of_foldLiteral {ls : List Lexeme} {t : Token} (h : (foldLiteral ls).1 = .ok t) :
    ∃ code, t = .character code := by
  unfold foldLiteral at h
  split at h
  · cases h
  · split at h
    · cases h
    · next code _ =>
      split at h
      · cases h
      · exact ⟨code, (Except.ok.inj h).symm⟩
      · cases h
  · cases h

/-- A symbol comes from a word. -/
theorem foldFirst_eq_symbol {lexeme : Lexeme} {ls : List Lexeme} {s : Symbol}
    (h : (foldFirst lexeme ls).1 = .ok (.symbol s)) :
    ∃ run, lexeme = .word run ∧ wordToken run = .ok (.symbol s) := by
  cases lexeme with
  | word run => exact ⟨run, rfl, h⟩
  | openParen =>
      rw [foldFirst] at h
      split at h
      · obtain ⟨code, hcode⟩ := character_of_foldLiteral h
        cases hcode
      · cases h
  | quoted body =>
      have htoken : (quoted body).token = .ok (.symbol s) := h
      rw [token] at htoken
      split at htoken <;> cases htoken
  | closeParen | unclosed _ | stray _ => cases h

theorem wordToken_ne_openParen (run : List Char) : wordToken run ≠ .ok .openParen := by
  unfold wordToken
  repeat' split
  all_goals simp

/-- An opening parenthesis that is a token starts no literal. -/
theorem foldFirst_eq_openParen {lexeme : Lexeme} {ls : List Lexeme}
    (h : (foldFirst lexeme ls).1 = .ok .openParen) :
    startLiteral ls = false ∧ (foldFirst lexeme ls).2 = ls := by
  cases lexeme with
  | openParen =>
      rw [foldFirst] at h ⊢
      by_cases hstart : startLiteral ls = true
      · rw [if_pos hstart] at h
        obtain ⟨code, hcode⟩ := character_of_foldLiteral h
        cases hcode
      · rw [if_neg hstart]
        exact ⟨by simpa using hstart, rfl⟩
  | word run => exact absurd h (wordToken_ne_openParen run)
  | quoted body =>
      have htoken : (quoted body).token = .ok .openParen := h
      rw [token] at htoken
      split at htoken <;> cases htoken
  | closeParen | unclosed _ | stray _ => cases h

/-- Every symbol among the tokens is spelled by a word. -/
theorem exists_wordToken_of_mem_fold {ls : List Lexeme} {s : Symbol}
    (h : .ok (.symbol s) ∈ fold ls) : ∃ run, wordToken run = .ok (.symbol s) := by
  induction ls using fold.induct with
  | case1 => simp [fold] at h
  | case2 lexeme rest ih =>
      rw [fold, List.mem_cons] at h
      rcases h with hfirst | hrest
      · obtain ⟨run, -, hrun⟩ := foldFirst_eq_symbol hfirst.symm
        exact ⟨run, hrun⟩
      · exact ih hrest

/-- No opening parenthesis among the tokens has the symbol `CODE-CHAR` behind it. -/
theorem not_codeChar_infix_fold (ls : List Lexeme) :
    ¬ [.ok .openParen, .ok (.symbol (Symbol.bare Symbol.codeChar))] <:+: fold ls := by
  induction ls using fold.induct with
  | case1 => simp [fold]
  | case2 lexeme rest ih =>
      rw [fold, List.infix_cons_iff]
      rintro (hstart | hlater)
      -- the word behind the parenthesis would be `CODE-CHAR` and start a literal with it
      · obtain ⟨hopen, hsymbol⟩ := List.cons_prefix_cons.mp hstart
        obtain ⟨hnoLiteral, hbehind⟩ := foldFirst_eq_openParen hopen.symm
        rw [hbehind] at hsymbol
        cases rest with
        | nil => simp [fold] at hsymbol
        | cons next rest =>
            rw [fold] at hsymbol
            obtain ⟨run, rfl, hrun⟩ := foldFirst_eq_symbol (List.cons_prefix_cons.mp hsymbol).1.symm
            simp [startLiteral, Symbol.run_of_wordToken_bare hrun] at hnoLiteral
      · exact ih hlater

end Lexeme

end MakerForms
