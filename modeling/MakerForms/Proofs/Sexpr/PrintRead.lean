import MakerForms.Proofs.Sexpr.Balanced
import MakerForms.Proofs.Sexpr.Written

set_option autoImplicit false

/-! # Reading what has been written

Not every value is read back from its text. A symbol whose package starts like a number is read
as a fault, a list headed by the symbol `CODE-CHAR` as a character literal or a fault, and lists
that nest too deep are refused. A value without any of these is readable (`Value.Readable`).

What is written is read back if it is readable, since its lexemes fold to its tokens and reading
accepts these. The converse holds of any text: the values that a text reads as are readable,
because neither such a symbol nor such a head comes out of the fold.
-/

namespace MakerForms

namespace Value

/-! ## Readable values -/

/-- A value that can be read from some text. -/
structure Readable (v : Value) : Prop where
  packages : v.Everywhere HasPlainPackage
  heads : v.Everywhere IsNoLiteral
  depth_le : v.depth ≤ maxDepth

theorem readable_iff {v : Value} :
    v.Readable ↔
      v.Everywhere HasPlainPackage ∧ v.Everywhere IsNoLiteral ∧ v.depth ≤ maxDepth := by
  constructor
  · rintro ⟨hpackages, hheads, hdepth⟩
    exact ⟨hpackages, hheads, hdepth⟩
  · rintro ⟨hpackages, hheads, hdepth⟩
    exact ⟨hpackages, hheads, hdepth⟩

instance (v : Value) : Decidable v.Readable := decidable_of_iff' _ readable_iff

/-! ## What is read is readable -/

theorem tokens_infix_of_mem {v : Value} {vs : List Value} (h : v ∈ vs) :
    v.tokens <:+: joinedTokens vs := by
  obtain ⟨us, ws, rfl⟩ := List.append_of_mem h
  exact ⟨joinedTokens us, joinedTokens ws, by simp [joinedTokens]⟩

theorem tokens_infix_of_mem_items {u v : Value} (h : u ∈ v.items) : u.tokens <:+: v.tokens := by
  cases v with
  | list vs =>
      have hjoined : joinedTokens vs <:+: (list vs).tokens := ⟨[.openParen], [.closeParen], rfl⟩
      exact (tokens_infix_of_mem h).trans hjoined
  | _ => simp [items] at h

/-- What holds of each value whose tokens stand somewhere in a sequence holds everywhere in each
value whose tokens stand there. -/
theorem everywhere_of_infix_tokens {P : Value → Prop} {ts : List Token}
    (h : ∀ u : Value, u.tokens <:+: ts → P u) (v : Value) :
    v.tokens <:+: ts → v.Everywhere P := by
  induction v using items_induction with
  | step v ih =>
      intro hv
      rw [everywhere_iff]
      exact ⟨h v hv, fun u hu => ih u hu ((tokens_infix_of_mem_items hu).trans hv)⟩

/-- The symbol that a value read from a text is has been spelled by a word. -/
theorem exists_wordToken_of_tokens {ls : List Lexeme} {ts : List Token}
    (hts : Lexeme.fold ls = ts.map .ok) {v : Value} (hv : v.tokens <:+: ts) {s : Symbol}
    (hs : v.symbol? = some s) : ∃ run, wordToken run = .ok (.symbol s) := by
  cases v with
  | symbol s' =>
      obtain rfl : s' = s := Option.some.inj hs
      -- the token of a symbol is the symbol, so it is one of the tokens
      have hmem : Token.symbol s' ∈ ts := hv.subset (by simp [tokens])
      have hfold : .ok (.symbol s') ∈ Lexeme.fold ls := by
        rw [hts]
        exact List.mem_map_of_mem hmem
      exact Lexeme.exists_wordToken_of_mem_fold hfold
  | _ => cases hs

theorem hasPlainPackage_of_tokens {ls : List Lexeme} {ts : List Token}
    (hts : Lexeme.fold ls = ts.map .ok) {v : Value} (hv : v.tokens <:+: ts) :
    v.HasPlainPackage := by
  intro s hs
  obtain ⟨run, hrun⟩ := exists_wordToken_of_tokens hts hv hs
  exact Symbol.hasNumericPackage_of_wordToken hrun

theorem hasValidSymbol_of_tokens {ls : List Lexeme} {ts : List Token}
    (hts : Lexeme.fold ls = ts.map .ok) {v : Value} (hv : v.tokens <:+: ts) :
    v.HasValidSymbol := by
  intro s hs
  obtain ⟨run, hrun⟩ := exists_wordToken_of_tokens hts hv hs
  exact Symbol.valid_of_wordToken hrun

theorem isNoLiteral_of_tokens {ls : List Lexeme} {ts : List Token}
    (hts : Lexeme.fold ls = ts.map .ok) {v : Value} (hv : v.tokens <:+: ts) :
    v.IsNoLiteral := by
  intro hhead
  cases v with
  | list vs =>
      cases vs with
      | nil => cases hhead
      | cons u vs =>
          cases u with
          | symbol s =>
              obtain rfl : s = Symbol.bare Symbol.codeChar := Option.some.inj hhead
              -- the list begins with just the two tokens that never follow each other
              have hstart : [Token.openParen, .symbol (Symbol.bare Symbol.codeChar)] <:+:
                  (list (symbol (Symbol.bare Symbol.codeChar) :: vs)).tokens :=
                ⟨[], joinedTokens vs ++ [.closeParen], by simp [tokens, joinedTokens]⟩
              apply Lexeme.not_codeChar_infix_fold ls
              rw [hts]
              exact (hstart.trans hv).map _
          | _ => cases hhead
  | _ => cases hhead

/-- The values that a text reads as are readable. -/
theorem readable_of_readAll {source : String} {vs : List Value}
    (h : readAll source = .ok vs) : ∀ v ∈ vs, v.Readable := by
  obtain ⟨htokens, hdepth⟩ := readAll_eq_ok_iff_tokens.mp h
  rw [Scanner.tokens_eq_fold] at htokens
  intro v hv
  have hv' := tokens_infix_of_mem hv
  exact
    { packages := everywhere_of_infix_tokens (fun _ => hasPlainPackage_of_tokens htokens) v hv'
      heads := everywhere_of_infix_tokens (fun _ => isNoLiteral_of_tokens htokens) v hv'
      depth_le := hdepth v hv }

/-- The symbols in the values that a text reads as are valid. -/
theorem symbolsValid_of_readAll {source : String} {vs : List Value}
    (h : readAll source = .ok vs) : ∀ v ∈ vs, v.SymbolsValid := by
  obtain ⟨htokens, -⟩ := readAll_eq_ok_iff_tokens.mp h
  rw [Scanner.tokens_eq_fold] at htokens
  intro v hv
  exact everywhere_of_infix_tokens (fun _ => hasValidSymbol_of_tokens htokens) v
    (tokens_infix_of_mem hv)

/-! ## What is readable is read back -/

theorem toList_joinedText (vs : List Value) : (joinedText vs).toList = joinedChars vs := by
  cases vs with
  | nil => rfl
  | cons v vs =>
      rw [joinedText, Writer.toList_values]
      simp [Writer.separated, Writer.empty]

/-- The tokens of written values are those of the values. -/
theorem tokens_joinedText {vs : List Value} (hvalid : EverywhereIn HasValidSymbol vs)
    (hplain : EverywhereIn HasPlainPackage vs) (hliteral : EverywhereIn IsNoLiteral vs) :
    (Scanner.ofString (joinedText vs)).tokens = (joinedTokens vs).map .ok := by
  have hlexemes := textLexemes_joinedChars_append vs [] hvalid endsWord_nil
  have htokens := fold_joinedLexemes_append vs [] hvalid hplain hliteral
  calc (Scanner.ofString (joinedText vs)).tokens
      = Lexeme.fold (textLexemes (joinedText vs).toList) := Scanner.tokens_eq_fold _
    _ = Lexeme.fold (textLexemes (joinedChars vs ++ [])) := by
        rw [toList_joinedText, List.append_nil]
    _ = Lexeme.fold (joinedLexemes vs ++ []) := by rw [hlexemes, textLexemes_nil]
    _ = (joinedTokens vs).map .ok := by
        rw [htokens, Lexeme.fold, List.append_nil]

/-- **What is written is read back exactly if it is readable.** The text of values whose symbols
are valid reads as these values if and only if no symbol in them has a package that starts like
a number, no list in them is headed by the symbol `CODE-CHAR`, and none nests lists deeper than
`maxDepth`. -/
theorem readAll_joinedText_iff_readable (vs : List Value) (hvalid : ∀ v ∈ vs, v.SymbolsValid) :
    readAll (joinedText vs) = .ok vs ↔ ∀ v ∈ vs, v.Readable := by
  constructor
  · exact readable_of_readAll
  · intro h
    rw [readAll_eq_ok_iff_tokens]
    refine ⟨tokens_joinedText ?_ ?_ ?_, fun v hv => (h v hv).depth_le⟩
    · exact everywhereIn_iff.mpr hvalid
    · exact everywhereIn_iff.mpr fun v hv => (h v hv).packages
    · exact everywhereIn_iff.mpr fun v hv => (h v hv).heads

/-- Values of all kinds: keywords, an empty list, a string with quotes and a line feed in it. -/
def mixedValues : List Value :=
  [ list [symbol (.qualified "SYNTHETO" "MAKE-IDENTIFIER"), symbol (.keyword "NAME"),
      string "a \"b\" \\ ; (\n"],
    integer (-30),
    list [symbol (.bare "LIST"), list [], character 255, list [symbol (.keyword "0-1")]] ]

theorem readAll_joinedText_mixedValues :
    (∀ v ∈ mixedValues, v.SymbolsValid) ∧ (∀ v ∈ mixedValues, v.Readable) ∧
      readAll (joinedText mixedValues) = .ok mixedValues := by
  have hvalid : ∀ v ∈ mixedValues, v.SymbolsValid := by decide
  have hreadable : ∀ v ∈ mixedValues, v.Readable := by decide
  exact ⟨hvalid, hreadable,
    (readAll_joinedText_iff_readable mixedValues hvalid).mpr hreadable⟩

end Value

end MakerForms
