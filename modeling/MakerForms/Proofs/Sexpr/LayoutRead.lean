import MakerForms.Proofs.Sexpr.PrintRead
import MakerForms.Proofs.Sexpr.TokenReading
import MakerForms.Sexpr.Layout

set_option autoImplicit false

/-! # Reading what has been laid out

Laying values out over several lines puts line breaks and indentation where one line has a
space, and nothing else: in every width the lexemes are those of the values
(`Value.textLexemes_layout_append`). So a layout has the tokens and faults of the text on one line
(`Value.tokens_prettyText`), also where these are not the tokens of the values, and reading can
not tell the two apart.
-/

namespace MakerForms

theorem textLexemes_replicate_space (n : Nat) (cs : List Char) :
    textLexemes (List.replicate n ' ' ++ cs) = textLexemes cs := by
  induction n with
  | zero => rfl
  | succ n ih => rw [List.replicate_succ, List.cons_append, textLexemes_blank (by decide), ih]

namespace Value

/-! ## Lexemes of a layout -/

/-- A new line inside lists begins with blanks. -/
theorem textLexemes_newLine (depth : Nat) (cs : List Char) :
    textLexemes ('\n' :: (indentation depth ++ cs)) = textLexemes cs := by
  rw [textLexemes_blank (by decide), indentation, textLexemes_replicate_space]

mutual

/-- A value that is laid out has the lexemes of the value, whatever follows. -/
theorem textLexemes_layout_append (width depth column closing : Nat) : (v : Value) →
    (rest : List Char) → v.SymbolsValid → EndsWord rest →
    textLexemes (layout width depth column closing v ++ rest) = v.lexemes ++ textLexemes rest
  | .symbol s, rest, hvalid, hrest => by
      rw [layout, textLexemes_chars_append (.symbol s) rest hvalid hrest]
  | .integer i, rest, hvalid, hrest => by
      rw [layout, textLexemes_chars_append (.integer i) rest hvalid hrest]
  | .string s, rest, hvalid, hrest => by
      rw [layout, textLexemes_chars_append (.string s) rest hvalid hrest]
  | .character code, rest, hvalid, hrest => by
      rw [layout, textLexemes_chars_append (.character code) rest hvalid hrest]
  | .list vs, rest, hvalid, hrest => by
      by_cases hfits : column + (Value.list vs).flatWidth + closing ≤ width
      · rw [layout, if_pos hfits, textLexemes_chars_append (.list vs) rest hvalid hrest]
      · have hitems := textLexemes_layoutItems_append width (depth + 1) (column + 1) closing vs
          (')' :: rest) hvalid.2 (endsWord_cons (by decide))
        rw [layout, if_neg hfits]
        simp only [lexemes, List.cons_append, List.append_assoc, List.nil_append,
          textLexemes_openParen, hitems, textLexemes_closeParen]

/-- The items of a broken list have the lexemes of the items, whatever follows. -/
theorem textLexemes_layoutItems_append (width depth column closing : Nat) : (vs : List Value) →
    (rest : List Char) → EverywhereIn HasValidSymbol vs → EndsWord rest →
    textLexemes (layoutItems width depth column closing vs ++ rest)
      = joinedLexemes vs ++ textLexemes rest
  | [], _, _, _ => rfl
  | [v], rest, hvalid, hrest => by
      rw [layoutItems, joinedLexemes, joinedLexemes, List.append_nil,
        textLexemes_layout_append width depth column (closing + 1) v rest hvalid.1 hrest]
  | v :: w :: vs, rest, hvalid, hrest => by
      have hlater := textLexemes_layoutItems_append width depth (2 * depth) closing (w :: vs) rest
        hvalid.2 hrest
      rw [layoutItems, joinedLexemes, List.append_assoc, List.cons_append, List.append_assoc,
        textLexemes_layout_append width depth column 0 v _ hvalid.1 (endsWord_cons (by decide)),
        textLexemes_newLine, hlater, List.append_assoc]

end

theorem textLexemes_prettyChars (width : Nat) (vs : List Value)
    (hvalid : EverywhereIn HasValidSymbol vs) :
    textLexemes (prettyChars width vs) = joinedLexemes vs := by
  induction vs with
  | nil => exact textLexemes_nil
  | cons v vs ih =>
      cases vs with
      | nil =>
          have hv := textLexemes_layout_append width 0 0 0 v [] hvalid.1 endsWord_nil
          rw [List.append_nil, textLexemes_nil, List.append_nil] at hv
          rw [prettyChars, hv, joinedLexemes, joinedLexemes, List.append_nil]
      | cons w vs =>
          rw [prettyChars, textLexemes_layout_append width 0 0 0 v _ hvalid.1
            (endsWord_cons (by decide)), textLexemes_blank (by decide),
            textLexemes_blank (by decide), ih hvalid.2]
          rfl

/-! ## Tokens of a layout -/

/-- Laid out in any width, values have the tokens and faults that they have on one line. -/
theorem tokens_prettyText (width : Nat) {vs : List Value}
    (hvalid : EverywhereIn HasValidSymbol vs) :
    (Scanner.ofString (prettyText width vs)).tokens
      = (Scanner.ofString (joinedText vs)).tokens := by
  have hpretty : (Scanner.ofString (prettyText width vs)).rest = prettyChars width vs := by
    simp [Scanner.ofString, prettyText]
  have hjoined : (Scanner.ofString (joinedText vs)).rest = joinedChars vs := toList_joinedText vs
  have hlexemes := textLexemes_joinedChars_append vs [] hvalid endsWord_nil
  rw [List.append_nil, textLexemes_nil, List.append_nil] at hlexemes
  calc (Scanner.ofString (prettyText width vs)).tokens
      = Lexeme.fold (joinedLexemes vs) := by
        rw [Scanner.tokens_eq_fold, hpretty, textLexemes_prettyChars width vs hvalid]
    _ = (Scanner.ofString (joinedText vs)).tokens := by
        rw [Scanner.tokens_eq_fold, hjoined, hlexemes]

/-- Written on one line or laid out, a value has its own tokens if it is written as it is read. -/
theorem tokens_text {v : Value} (hvalid : v.SymbolsValid) (hplain : v.Everywhere HasPlainPackage)
    (hliteral : v.Everywhere IsNoLiteral) :
    (Scanner.ofString v.text).tokens = v.tokens.map .ok ∧
      ∀ width, (Scanner.ofString (prettyText width [v])).tokens = v.tokens.map .ok := by
  have hvalid' : EverywhereIn HasValidSymbol [v] := ⟨hvalid, trivial⟩
  have hplain' : EverywhereIn HasPlainPackage [v] := ⟨hplain, trivial⟩
  have hliteral' : EverywhereIn IsNoLiteral [v] := ⟨hliteral, trivial⟩
  have htext : v.text = joinedText [v] := rfl
  have hjoined : joinedTokens [v] = v.tokens := by
    rw [joinedTokens, joinedTokens, List.append_nil]
  have hline : (Scanner.ofString v.text).tokens = v.tokens.map .ok := by
    rw [htext, tokens_joinedText hvalid' hplain' hliteral', hjoined]
  refine ⟨hline, fun width => ?_⟩
  rw [tokens_prettyText width hvalid', ← htext, hline]

/-- **The two ways of writing are interchangeable for the reader.** Values whose symbols are valid
are laid out, in any width, in a text that reads as certain values if and only if their text on
one line reads as the same values; where one is refused, the other is refused for the same
reason. -/
theorem readAll_prettyText_iff (width : Nat) (vs : List Value)
    (hvalid : ∀ v ∈ vs, v.SymbolsValid) :
    (∀ us : List Value,
      readAll (prettyText width vs) = .ok us ↔ readAll (joinedText vs) = .ok us) ∧
    (∀ e e' : ReadError, readAll (prettyText width vs) = .error e →
      readAll (joinedText vs) = .error e' → e.reason = e'.reason) := by
  have htokens := tokens_prettyText width (everywhereIn_iff.mpr hvalid)
  have hsame : (readAll (prettyText width vs)).mapError ReadError.reason
      = (readAll (joinedText vs)).mapError ReadError.reason := Scanner.readAll_congr [] htokens
  constructor
  · intro us
    have hok : ∀ result : Except ReadError (List Value),
        result.mapError ReadError.reason = .ok us ↔ result = .ok us := by
      intro result
      cases result <;> simp
    rw [← hok, hsame, hok]
  · intro e e' hpretty hjoined
    simpa [hpretty, hjoined] using hsame

/-- Values that cannot be read: the first is a list headed by `CODE-CHAR`, and the second has a
symbol whose package starts with a digit. -/
def refusedValues : List Value :=
  [list [symbol (.bare "CODE-CHAR"), string "; (\n\"", list []],
   list [integer (-7), symbol (.qualified "2D" "AREA")]]

theorem readAll_prettyText_iff_refusedValues :
    (∀ v ∈ refusedValues, v.SymbolsValid) ∧
      (∀ us : List Value, readAll (prettyText 4 refusedValues) = .ok us ↔
        readAll (joinedText refusedValues) = .ok us) ∧
      (∀ e e' : ReadError, readAll (prettyText 4 refusedValues) = .error e →
        readAll (joinedText refusedValues) = .error e' → e.reason = e'.reason) := by
  have hvalid : ∀ v ∈ refusedValues, v.SymbolsValid := by decide
  exact ⟨hvalid, readAll_prettyText_iff 4 refusedValues hvalid⟩

end Value

end MakerForms
