import MakerForms.Proofs.Sexpr.Written

set_option autoImplicit false

/-! # The text of a value tells the value

Two values have the same text exactly if they are spelled the same (`Value.text_eq_iff`): a
character has the text of a list, namely that of the symbol `CODE-CHAR` and the code, and apart
from this no two values share a text. So the text tells the value where no list looks like a
character (`Value.text_identifies`), whether or not a reader takes it.

Texts are told apart by their lexemes, since the lexemes of a value are those of its text. Once
characters are spelled out as lists (`Value.spelled`), the lexemes of a value determine it and show
where it ends (`Value.lexemes_append_inj`): lists are closed, and no two of the words and literals
of symbols, integers and strings are the same.
-/

namespace MakerForms

/-! ## Words and literals -/

theorem Numeral.isName_of_isDigits {cs : List Char} (h : isDigits cs = true) :
    Symbol.isName cs = true := by
  obtain ⟨hne, hall⟩ := Bool.and_eq_true_iff.mp h
  refine Symbol.isName_iff.mpr ⟨by simpa using hne, fun c hc => ?_⟩
  have hdigit : c.isDigit = true := List.all_eq_true.mp hall c hc
  simp [Symbol.isNameChar, Char.isAlphanum, hdigit]

theorem Numeral.isName_intChars (i : Int) : Symbol.isName (intChars i) = true := by
  cases i with
  | ofNat n => exact isName_of_isDigits (isDigits_digits n)
  | negSucc n =>
      obtain ⟨-, hall⟩ := Symbol.isName_iff.mp (isName_of_isDigits (isDigits_digits (n + 1)))
      refine Symbol.isName_iff.mpr ⟨by simp [intChars], fun c hc => ?_⟩
      rcases List.mem_cons.mp hc with rfl | hc
      · rfl
      · exact hall c hc

theorem Numeral.intChars_inj {i j : Int} (h : intChars i = intChars j) : i = j := by
  rw [← intValue_intChars i, h, intValue_intChars]

theorem Quoted.escape_inj {cs ds : List Char} (h : escape cs = escape ds) : cs = ds := by
  have hread := resolve_escape cs
  rw [h, resolve_escape] at hread
  exact (Option.some.inj hread).symm

namespace Symbol

theorem chars_inj {a b : Symbol} (ha : a.Valid) (hb : b.Valid) (h : a.chars = b.chars) :
    a = b := by
  have hread := wordSymbol?_chars ha
  rw [h, wordSymbol?_chars hb] at hread
  exact (Option.some.inj hread).symm

/-- No symbol is written like an integer. -/
theorem chars_ne_intChars {s : Symbol} (h : s.Valid) (i : Int) : s.chars ≠ Numeral.intChars i := by
  intro hchars
  have hname := Numeral.isName_intChars i
  -- the word is a name, so it would have to be that of a symbol without a package
  have hword : wordSymbol? (Numeral.intChars i)
      = some (bare (String.ofList (Numeral.intChars i))) :=
    wordSymbol?_eq_some_iff.mpr (Or.inr (Or.inr ⟨hname, rfl⟩))
  have hread := wordSymbol?_chars h
  rw [hchars, hword] at hread
  rw [← Option.some.inj hread, Valid, bare, String.toList_ofList] at h
  have hstart := Numeral.startsLikeNumber_of_isNumeral (Numeral.isNumeral_intChars i)
  simp [isBareName, hstart] at h

end Symbol

namespace Value

/-! ## Characters spelled out -/

mutual

/-- A value with each character in it replaced by the list that it is written like. -/
def spelled : Value → Value
  | .symbol s => .symbol s
  | .list vs => .list (spelledAll vs)
  | .integer i => .integer i
  | .string s => .string s
  | .character code =>
    .list [.symbol (Symbol.bare Symbol.codeChar), .integer (code.toNat : Int)]

/-- Values with each character in them replaced. -/
def spelledAll : List Value → List Value
  | [] => []
  | v :: vs => v.spelled :: spelledAll vs

end

/-- Whether a value is a list of the symbol `CODE-CHAR` and an integer from 0 to 255, and of
nothing else. -/
def looksLikeCharacter : Value → Bool
  | .list [.symbol s, .integer i] => s.isBare Symbol.codeChar && decide (0 ≤ i ∧ i ≤ 255)
  | _ => false

/-- Whether a value is no list that looks like a character. -/
def IsPlain (v : Value) : Prop := v.looksLikeCharacter = false

instance : DecidablePred IsPlain := fun v =>
  inferInstanceAs (Decidable (v.looksLikeCharacter = false))

/-- Whether a value is no character, and its symbol, if it is one, could be made. -/
structure IsSpelled (v : Value) : Prop where
  symbol : v.HasValidSymbol
  noCharacter : v.character? = none

mutual

/-- To spell characters out changes no text. -/
theorem chars_spelled : (v : Value) → v.spelled.chars = v.chars
  | .symbol _ | .integer _ | .string _ => by rw [spelled]
  | .character code => by
      have hcode : Numeral.intChars (code.toNat : Int) = Numeral.digits code.toNat := rfl
      simp [spelled, chars, joinedChars, characterChars, Symbol.chars, Symbol.bare, hcode]
  | .list vs => by rw [spelled, chars, joinedChars_spelledAll vs, chars]

theorem joinedChars_spelledAll : (vs : List Value) → joinedChars (spelledAll vs) = joinedChars vs
  | [] => rfl
  | [v] => by rw [spelledAll, spelledAll, joinedChars, chars_spelled v, joinedChars]
  | v :: w :: vs => by
      have hrest := joinedChars_spelledAll (w :: vs)
      rw [spelledAll] at hrest
      rw [spelledAll, spelledAll, joinedChars, chars_spelled v, hrest, joinedChars]

end

mutual

/-- Where symbols are valid, they still are, and no character is left. -/
theorem everywhere_isSpelled : (v : Value) → v.SymbolsValid → v.spelled.Everywhere IsSpelled
  | .symbol _, h => ⟨h, rfl⟩
  | .integer _, h => ⟨h, rfl⟩
  | .string _, h => ⟨h, rfl⟩
  | .character code, _ => by
      have hcode : (Symbol.bare Symbol.codeChar).Valid := by decide +kernel
      have hsymbol : HasValidSymbol (.symbol (Symbol.bare Symbol.codeChar)) := by
        intro s hs
        obtain rfl := Option.some.inj hs
        exact hcode
      exact ⟨⟨by simp [HasValidSymbol, symbol?], rfl⟩, ⟨hsymbol, rfl⟩,
        ⟨by simp [HasValidSymbol, symbol?], rfl⟩, trivial⟩
  | .list vs, h =>
      ⟨⟨by simp [HasValidSymbol, symbol?], rfl⟩, everywhereIn_isSpelled vs h.2⟩

theorem everywhereIn_isSpelled : (vs : List Value) → EverywhereIn HasValidSymbol vs →
    EverywhereIn IsSpelled (spelledAll vs)
  | [], _ => trivial
  | v :: vs, h => ⟨everywhere_isSpelled v h.1, everywhereIn_isSpelled vs h.2⟩

end

/-- A list that is spelled like a character looks like one. -/
theorem looksLikeCharacter_of_spelled {vs : List Value} {code : UInt8}
    (h : (list vs).spelled = (character code).spelled) : (list vs).looksLikeCharacter = true := by
  have hcode : code.toNat < 256 := code.toNat_lt
  cases vs with
  | nil => simp [spelled, spelledAll] at h
  | cons u vs =>
      cases vs with
      | nil => simp [spelled, spelledAll] at h
      | cons v vs =>
          cases vs with
          | cons w vs => simp [spelled, spelledAll] at h
          | nil =>
              cases u <;> cases v <;> simp [spelled, spelledAll] at h
              obtain ⟨rfl, rfl⟩ := h
              simp [looksLikeCharacter, Symbol.isBare, Symbol.bare]
              omega

mutual

/-- Values in which no list looks like a character are told by how they are spelled. -/
theorem spelled_inj : (v w : Value) → v.Everywhere IsPlain → w.Everywhere IsPlain →
    v.spelled = w.spelled → v = w
  | .list us, .list vs, hu, hv, h => by
      rw [spelled, spelled, Value.list.injEq] at h
      rw [spelledAll_inj us vs hu.2 hv.2 h]
  | .list us, .character code, hu, _, h => by
      have hlooks := looksLikeCharacter_of_spelled h
      have hplain : (list us).looksLikeCharacter = false := hu.1
      rw [hplain] at hlooks
      cases hlooks
  | .character code, .list vs, _, hv, h => by
      have hlooks := looksLikeCharacter_of_spelled h.symm
      have hplain : (list vs).looksLikeCharacter = false := hv.1
      rw [hplain] at hlooks
      cases hlooks
  | .character a, .character b, _, _, h => by
      have hcode : (a.toNat : Int) = b.toNat := by simpa [spelled] using h
      rw [UInt8.toNat_inj.mp (Int.ofNat.inj hcode)]
  -- all others are spelled as themselves
  | .symbol _, w, _, _, h | .integer _, w, _, _, h | .string _, w, _, _, h => by
      cases w <;> simp_all [spelled]
  | .list us, .symbol _, _, _, h | .list us, .integer _, _, _, h | .list us, .string _, _, _, h
  | .character _, .symbol _, _, _, h | .character _, .integer _, _, _, h
  | .character _, .string _, _, _, h => by simp [spelled] at h

theorem spelledAll_inj : (vs ws : List Value) → EverywhereIn IsPlain vs →
    EverywhereIn IsPlain ws → spelledAll vs = spelledAll ws → vs = ws
  | [], [], _, _, _ => rfl
  | [], _ :: _, _, _, h | _ :: _, [], _, _, h => by simp [spelledAll] at h
  | v :: vs, w :: ws, hv, hw, h => by
      rw [spelledAll, spelledAll, List.cons.injEq] at h
      rw [spelled_inj v w hv.1 hw.1 h.1, spelledAll_inj vs ws hv.2 hw.2 h.2]

end

/-! ## Values are told by their lexemes -/

/-- The first lexeme of a value closes no list. -/
theorem lexemes_eq_cons (v : Value) : ∃ l ls, v.lexemes = l :: ls ∧ l ≠ .closeParen := by
  cases v <;> exact ⟨_, _, by rw [lexemes], by simp⟩

mutual

/-- Of the lexemes that follow, none can belong to the value that comes first. -/
theorem lexemes_append_inj : (v w : Value) → {rest rest' : List Lexeme} →
    v.Everywhere IsSpelled → w.Everywhere IsSpelled →
    v.lexemes ++ rest = w.lexemes ++ rest' → v = w ∧ rest = rest'
  | .list us, .list vs, rest, rest', hu, hv, h => by
      simp only [lexemes, List.cons_append, List.append_assoc, List.nil_append, List.cons.injEq,
        true_and] at h
      obtain ⟨rfl, rfl⟩ := joinedLexemes_append_inj us vs hu.2 hv.2 h
      exact ⟨rfl, rfl⟩
  | .symbol a, .symbol b, rest, rest', ha, hb, h => by
      simp only [lexemes, List.cons_append, List.nil_append, List.cons.injEq,
        Lexeme.word.injEq] at h
      exact ⟨congrArg symbol (Symbol.chars_inj (ha.symbol a rfl) (hb.symbol b rfl) h.1), h.2⟩
  | .integer i, .integer j, rest, rest', _, _, h => by
      simp only [lexemes, List.cons_append, List.nil_append, List.cons.injEq,
        Lexeme.word.injEq] at h
      exact ⟨congrArg integer (Numeral.intChars_inj h.1), h.2⟩
  | .string a, .string b, rest, rest', _, _, h => by
      simp only [lexemes, List.cons_append, List.nil_append, List.cons.injEq,
        Lexeme.quoted.injEq] at h
      exact ⟨congrArg string (String.toList_inj.mp (Quoted.escape_inj h.1)), h.2⟩
  -- a word is that of a symbol or of an integer, not of both
  | .symbol a, .integer j, rest, rest', ha, _, h => by
      simp only [lexemes, List.cons_append, List.nil_append, List.cons.injEq,
        Lexeme.word.injEq] at h
      exact absurd h.1 (Symbol.chars_ne_intChars (ha.symbol a rfl) j)
  | .integer i, .symbol b, rest, rest', _, hb, h => by
      simp only [lexemes, List.cons_append, List.nil_append, List.cons.injEq,
        Lexeme.word.injEq] at h
      exact absurd h.1.symm (Symbol.chars_ne_intChars (hb.symbol b rfl) i)
  -- a parenthesis, a word and a literal are three different lexemes
  | .list _, .symbol _, _, _, _, _, h | .list _, .integer _, _, _, _, _, h
  | .list _, .string _, _, _, _, _, h | .symbol _, .list _, _, _, _, _, h
  | .symbol _, .string _, _, _, _, _, h | .integer _, .list _, _, _, _, _, h
  | .integer _, .string _, _, _, _, _, h | .string _, .list _, _, _, _, _, h
  | .string _, .symbol _, _, _, _, _, h | .string _, .integer _, _, _, _, _, h => by
      simp [lexemes] at h
  | .character _, _, _, _, hv, _, _ => by cases hv.noCharacter
  | _, .character _, _, _, _, hw, _ => by cases hw.noCharacter

/-- The end of the list around them shows where values end. -/
theorem joinedLexemes_append_inj : (us vs : List Value) → {rest rest' : List Lexeme} →
    EverywhereIn IsSpelled us → EverywhereIn IsSpelled vs →
    joinedLexemes us ++ .closeParen :: rest = joinedLexemes vs ++ .closeParen :: rest' →
    us = vs ∧ rest = rest'
  | [], [], _, _, _, _, h => ⟨rfl, by simpa [joinedLexemes] using h⟩
  | [], v :: vs, _, _, _, _, h => by
      obtain ⟨l, ls, hv, hopen⟩ := lexemes_eq_cons v
      simp only [joinedLexemes, hv, List.cons_append, List.nil_append, List.cons.injEq] at h
      exact absurd h.1.symm hopen
  | u :: us, [], _, _, _, _, h => by
      obtain ⟨l, ls, hu, hopen⟩ := lexemes_eq_cons u
      simp only [joinedLexemes, hu, List.cons_append, List.nil_append, List.cons.injEq] at h
      exact absurd h.1 hopen
  | u :: us, v :: vs, _, _, hu, hv, h => by
      simp only [joinedLexemes, List.append_assoc] at h
      obtain ⟨rfl, hrest⟩ := lexemes_append_inj u v hu.1 hv.1 h
      obtain ⟨rfl, rfl⟩ := joinedLexemes_append_inj us vs hu.2 hv.2 hrest
      exact ⟨rfl, rfl⟩

end

/-! ## Values are told by their texts -/

/-- Values that are spelled out have the same characters only if they are the same. -/
theorem chars_inj {v w : Value} (hv : v.Everywhere IsSpelled) (hw : w.Everywhere IsSpelled)
    (h : v.chars = w.chars) : v = w := by
  have hlexemes : v.lexemes ++ textLexemes [] = w.lexemes ++ textLexemes [] := by
    rw [← textLexemes_chars_append v [] (hv.imp fun _ => IsSpelled.symbol) endsWord_nil, h,
      textLexemes_chars_append w [] (hw.imp fun _ => IsSpelled.symbol) endsWord_nil]
  exact (lexemes_append_inj v w hv hw hlexemes).1

/-- Two values have the same text exactly if they are spelled the same. -/
theorem text_eq_iff {v w : Value} (hv : v.SymbolsValid) (hw : w.SymbolsValid) :
    v.text = w.text ↔ v.spelled = w.spelled := by
  rw [← String.toList_inj, toList_text, toList_text, ← chars_spelled v, ← chars_spelled w]
  constructor
  · exact chars_inj (everywhere_isSpelled v hv) (everywhere_isSpelled w hw)
  · exact congrArg chars

/-- **The text of a value tells the value.** Two values with valid symbols have the same text
exactly if replacing each character by the list of the symbol `CODE-CHAR` and its code makes them
the same. So they are the same if they have the same text and no list in them consists of exactly
the symbol `CODE-CHAR` and an integer from 0 to 255; lists may nest as deep as they like. -/
theorem text_identifies {v w : Value} (hv : v.SymbolsValid) (hw : w.SymbolsValid) :
    (v.text = w.text ↔ v.spelled = w.spelled) ∧
      (v.Everywhere IsPlain → w.Everywhere IsPlain → v.text = w.text → v = w) := by
  refine ⟨text_eq_iff hv hw, fun hplain hplain' htext => ?_⟩
  exact spelled_inj v w hplain hplain' ((text_eq_iff hv hw).mp htext)

/-- A list that begins like a character, a character, and a symbol and a list that no reader
takes. -/
def lookalikes (s : Symbol) : Value :=
  .list [.list [.symbol (.bare "CODE-CHAR"), .integer 65, .symbol s], .character 65,
    .symbol (.qualified "0" "-"), .list [.symbol (.bare "CODE-CHAR"), .integer 256]]

theorem text_identifies_lookalikes :
    (lookalikes (.keyword "A")).SymbolsValid ∧ (lookalikes (.bare "A")).SymbolsValid ∧
      (lookalikes (.keyword "A")).Everywhere IsPlain ∧ (lookalikes (.bare "A")).Everywhere IsPlain ∧
      (lookalikes (.keyword "A")).text ≠ (lookalikes (.bare "A")).text ∧
      (character 65).text = (list [.symbol (.bare "CODE-CHAR"), .integer 65]).text := by
  have hkeyword : (lookalikes (.keyword "A")).SymbolsValid := by decide +kernel
  have hbare : (lookalikes (.bare "A")).SymbolsValid := by decide +kernel
  have hplain : (lookalikes (.keyword "A")).Everywhere IsPlain := by decide +kernel
  have hplain' : (lookalikes (.bare "A")).Everywhere IsPlain := by decide +kernel
  have hcharacter : (character 65).SymbolsValid := by decide +kernel
  have hlist : (list [.symbol (.bare "CODE-CHAR"), .integer 65]).SymbolsValid := by decide +kernel
  have hdiffer : lookalikes (.keyword "A") ≠ lookalikes (.bare "A") := by decide +kernel
  refine ⟨hkeyword, hbare, hplain, hplain', fun htext => ?_, ?_⟩
  · exact hdiffer ((text_identifies hkeyword hbare).2 hplain hplain' htext)
  · -- the last list is no plain value, and is written like a character
    exact (text_identifies hcharacter hlist).1.mpr rfl

end Value

end MakerForms
