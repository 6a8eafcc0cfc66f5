import MakerForms.Proofs.Sexpr.LexemeStream
import MakerForms.Proofs.Sexpr.Slice

set_option autoImplicit false

/-! # Results as a fold over lexemes in their places

The scanner looks ahead behind an opening parenthesis, and sometimes keeps what it has seen. What
it does to a whole text is a fold over the raw lexemes with their spans (`Lexeme.foldAt`), which
never goes back: each result is made from one lexeme, or from an opening parenthesis, the word
`CODE-CHAR` and as many of the next lexemes as fit a character literal and the first that does not.
`Scanner.results_eq_foldAt` says so for tokens and errors with their spans and texts.
-/

namespace MakerForms

/-! ## The lexemes of a text in their places -/

/-- The lexemes that are left, in their order, with their spans. -/
def Scanner.lexemes (s : Scanner) : List (Located Lexeme) :=
  match _h : s.lexeme? with
  | none => []
  | some (lexeme, behind) => ⟨lexeme, ⟨s.skip.offset, behind.offset⟩⟩ :: behind.lexemes
termination_by s.rest.length
decreasing_by exact length_lt_of_lexeme? _h

/-! ## The fold -/

namespace Lexeme

/-- What the next lexemes make up: a token or a fault, where that stops, and the lexemes behind
it. -/
structure Folded where
  result : Except LexFault Token
  stop : Nat
  rest : List (Located Lexeme)

/-- What starts with `(CODE-CHAR`, given the lexemes behind that in a text that ends at `stop`. A
numeral below 256 and a closing parenthesis make it a character. Otherwise it is a fault, up to
the first lexeme that does not fit, or up to the end of the text. -/
def foldLiteralAt (stop : Nat) : List (Located Lexeme) → Folded
  | [] => ⟨.error .characterCode, stop, []⟩
  | ⟨.word run, span⟩ :: rest =>
    match Numeral.byte? run with
    | none => ⟨.error .characterCode, span.stop, rest⟩
    | some code =>
      match rest with
      | [] => ⟨.error .characterCode, stop, []⟩
      | ⟨.closeParen, span⟩ :: rest => ⟨.ok (.character code), span.stop, rest⟩
      | other :: rest => ⟨.error .characterCode, other.span.stop, rest⟩
  | other :: rest => ⟨.error .characterCode, other.span.stop, rest⟩

/-- What starts with a lexeme, given the lexemes behind it: an opening parenthesis with the word
`CODE-CHAR` behind it starts a character literal, every other lexeme stands for itself. -/
def foldFirstAt (stop : Nat) (first : Located Lexeme) (rest : List (Located Lexeme)) : Folded :=
  if first.value = .openParen ∧ startLiteral (rest.map Located.value) = true then
    foldLiteralAt stop rest.tail
  else ⟨first.value.token, first.span.stop, rest⟩

theorem length_foldLiteralAt_le (stop : Nat) (ls : List (Located Lexeme)) :
    (foldLiteralAt stop ls).rest.length ≤ ls.length := by
  unfold foldLiteralAt
  repeat' split
  all_goals
    simp only [List.length_cons, List.length_nil]
    omega

theorem length_foldFirstAt_le (stop : Nat) (first : Located Lexeme)
    (ls : List (Located Lexeme)) : (foldFirstAt stop first ls).rest.length ≤ ls.length := by
  unfold foldFirstAt
  split
  · have h := length_foldLiteralAt_le stop ls.tail
    rw [List.length_tail] at h
    omega
  · exact Nat.le_refl _

/-- A token or a fault in its place; a fault quotes the text that it lies in. -/
def resultAt (source : String) (span : Span) :
    Except LexFault Token → Except LexError (Located Token)
  | .ok token => .ok ⟨token, span⟩
  | .error fault => .error ⟨fault, span.slice source, span⟩

/-- The results that the lexemes of a text make up. -/
def foldAt (source : String) : List (Located Lexeme) → List (Except LexError (Located Token))
  | [] => []
  | first :: rest =>
    let folded := foldFirstAt source.utf8ByteSize first rest
    resultAt source ⟨first.span.start, folded.stop⟩ folded.result :: foldAt source folded.rest
termination_by ls => ls.length
decreasing_by exact Nat.lt_succ_of_le (length_foldFirstAt_le _ first rest)

end Lexeme

namespace Scanner

open Lexeme (foldLiteralAt foldFirstAt resultAt foldAt)

variable {source : String} {before : List Char} {s s' : Scanner} {lexeme : Lexeme}

theorem lexemes_of_lexeme?_none (h : s.lexeme? = none) : s.lexemes = [] := by
  rw [lexemes, h]

theorem lexemes_of_lexeme?_some (h : s.lexeme? = some (lexeme, s')) :
    s.lexemes = ⟨lexeme, ⟨s.skip.offset, s'.offset⟩⟩ :: s'.lexemes := by
  rw [lexemes, h]

/-- Where no lexeme is left, only a gap is, up to the end of the text. -/
theorem skip_of_lexeme?_none (h : s.lexeme? = none) :
    s.skip.lexemes = [] ∧ s.skip.offset = s.offset + byteSize s.rest := by
  have hnext : s.next = (none, s.skip) := by rw [next, h]
  have hpasses := passes_of_next_none hnext
  have hend : s.skip.next = (none, s.skip) := next_of_rest_eq_nil (rest_of_next_none hnext)
  have hnone : s.skip.lexeme? = none := by
    cases hlexeme : s.skip.lexeme? with
    | none => rfl
    | some pair =>
        obtain ⟨result, hsome, -⟩ := meaning_next hlexeme
        rw [hend] at hsome
        cases (Prod.mk.inj hsome).1
  exact ⟨lexemes_of_lexeme?_none hnone, hpasses.offset_eq⟩

theorem end_eq_of_lexeme? (h : s.lexeme? = some (lexeme, s')) :
    s'.offset + byteSize s'.rest = s.offset + byteSize s.rest := by
  obtain ⟨cs, hpasses⟩ := exists_passes_of_lexeme? h
  exact hpasses.end_eq

/-! ## The scanner folds -/

/-- The scanner reads a character literal as the fold does. -/
theorem foldLiteralAt_lexemes {stop : Nat} (hstop : s.offset + byteSize s.rest = stop) :
    foldLiteralAt stop s.lexemes = ⟨s.characterLiteral.1, s.characterLiteral.2.offset,
      s.characterLiteral.2.lexemes⟩ := by
  unfold characterLiteral
  split
  · next hnone =>
    obtain ⟨hbehind, hoffset⟩ := skip_of_lexeme?_none hnone
    rw [lexemes_of_lexeme?_none hnone, hbehind, hoffset, hstop]
    rfl
  · next run behind hsome =>
    have hend := end_eq_of_lexeme? hsome
    rw [lexemes_of_lexeme?_some hsome, foldLiteralAt]
    cases hbyte : Numeral.byte? run with
    | none => rfl
    | some code =>
        cases hnext : behind.lexeme? with
        | none =>
            obtain ⟨hbehind, hoffset⟩ := skip_of_lexeme?_none hnext
            simp [lexemes_of_lexeme?_none hnext, hbehind, hoffset, hend, hstop]
        | some pair =>
            obtain ⟨next, last⟩ := pair
            rw [lexemes_of_lexeme?_some hnext]
            cases next <;> rfl
  · next other last hother hsome =>
    rw [lexemes_of_lexeme?_some hsome]
    cases other
    case word run => exact absurd rfl (hother run)
    all_goals rfl

/-- The scanner completes a lexeme to a token as the fold does. -/
theorem foldFirstAt_lexemes {stop start : Nat} (hstop : s.offset + byteSize s.rest = stop) :
    foldFirstAt stop ⟨lexeme, ⟨start, s.offset⟩⟩ s.lexemes =
      ⟨(complete lexeme s).1, (complete lexeme s).2.offset, (complete lexeme s).2.lexemes⟩ := by
  cases lexeme
  -- only an opening parenthesis looks at what comes behind it
  case openParen =>
    rw [foldFirstAt, complete, afterOpen]
    cases hlexeme : s.lexeme? with
    | none => simp [lexemes_of_lexeme?_none hlexeme, Lexeme.startLiteral, Lexeme.token]
    | some pair =>
        obtain ⟨next, behind⟩ := pair
        have hlexemes := lexemes_of_lexeme?_some hlexeme
        cases next
        case word run =>
          by_cases hcode : String.ofList run = Symbol.codeChar
          · have hbehind : behind.offset + byteSize behind.rest = stop :=
              (end_eq_of_lexeme? hlexeme).trans hstop
            have hliteral := foldLiteralAt_lexemes hbehind
            simp [hlexemes, Lexeme.startLiteral, hcode, hliteral]
          · simp [hlexemes, Lexeme.startLiteral, hcode, Lexeme.token]
        all_goals simp [hlexemes, Lexeme.startLiteral, Lexeme.token]
  all_goals rfl

/-- One request gives the token or the fault that the next lexeme is completed to, in its place. -/
theorem next_eq_resultAt (hbehind : s.IsBehind source before)
    (h : s.lexeme? = some (lexeme, s')) :
    s.next = (some (resultAt source ⟨s.skip.offset, (complete lexeme s').2.offset⟩
      (complete lexeme s').1), (complete lexeme s').2) := by
  obtain ⟨hfirst, -⟩ := passes_of_lexeme? h
  obtain ⟨cs, hmore⟩ := exists_passes_complete lexeme s'
  have hwhole := hfirst.trans hmore
  have hslice := hwhole.slice_eq (hbehind.passes s.passes_skip)
  rw [next, h]
  cases hresult : (complete lexeme s').1 with
  | ok token => simp [hresult, resultAt]
  | error fault => simp [hresult, resultAt, hslice, hwhole.textUpTo_eq]

theorem results_eq_foldAt_lexemes (s : Scanner) (before : List Char)
    (hbehind : s.IsBehind source before) : s.results = foldAt source s.lexemes := by
  cases hlexeme : s.lexeme? with
  | none =>
      have hnext : s.next = (none, s.skip) := by rw [next, hlexeme]
      rw [results_of_next_none hnext, lexemes_of_lexeme?_none hlexeme, foldAt]
  | some pair =>
      obtain ⟨lexeme, s'⟩ := pair
      obtain ⟨cs, hpasses⟩ := exists_passes_of_lexeme? hlexeme
      obtain ⟨ds, hmore⟩ := exists_passes_complete lexeme s'
      have hlast := (hbehind.passes hpasses).passes hmore
      have hstop := (hbehind.passes hpasses).end_eq
      have hnext := next_eq_resultAt hbehind hlexeme
      have hshorter := length_lt_of_next hnext
      rw [results_of_next_some hnext, lexemes_of_lexeme?_some hlexeme, foldAt,
        foldFirstAt_lexemes hstop, results_eq_foldAt_lexemes _ _ hlast]
termination_by s.rest.length

/-- A lexeme stands where its span says. -/
theorem slice_of_mem_lexemes (s : Scanner) (before : List Char)
    (hbehind : s.IsBehind source before) :
    ∀ l ∈ s.lexemes, l.span.slice source = String.ofList l.value.text := by
  intro l hl
  cases hlexeme : s.lexeme? with
  | none =>
      rw [lexemes_of_lexeme?_none hlexeme] at hl
      cases hl
  | some pair =>
      obtain ⟨lexeme, s'⟩ := pair
      have hshorter := length_lt_of_lexeme? hlexeme
      obtain ⟨hfirst, -⟩ := passes_of_lexeme? hlexeme
      have hskip := hbehind.passes s.passes_skip
      rw [lexemes_of_lexeme?_some hlexeme] at hl
      rcases List.mem_cons.mp hl with rfl | hlater
      · exact hfirst.slice_eq hskip
      · exact slice_of_mem_lexemes s' _ (hskip.passes hfirst) l hlater
termination_by s.rest.length

/-- **Looking ahead for character literals is a fold over lexemes.** The raw lexemes of a text
are pieces of it in the places that their spans tell. The results of scanning the text, with all
spans and texts of errors, are what these lexemes fold to from left to right. So no opening
parenthesis among the tokens has the symbol `CODE-CHAR` right behind it. -/
theorem results_eq_foldAt (source : String) :
    (∀ l ∈ (ofString source).lexemes, l.span.slice source = String.ofList l.value.text) ∧
      (ofString source).results = foldAt source (ofString source).lexemes ∧
      ¬ [.ok .openParen, .ok (.symbol (Symbol.bare Symbol.codeChar))]
        <:+: (ofString source).results.map meaning := by
  have hbehind := isBehind_ofString source
  refine ⟨slice_of_mem_lexemes _ _ hbehind, results_eq_foldAt_lexemes _ _ hbehind, ?_⟩
  have htokens : (ofString source).results.map meaning = Lexeme.fold (textLexemes source.toList) :=
    tokens_eq_fold (ofString source)
  rw [htokens]
  exact Lexeme.not_codeChar_infix_fold _

end Scanner

end MakerForms
