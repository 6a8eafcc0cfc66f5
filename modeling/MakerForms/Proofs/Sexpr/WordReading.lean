import MakerForms.Proofs.Sexpr.FormSpans
import MakerForms.Proofs.Sexpr.LiteralFold
import Mathlib.Data.Nat.Digits.Defs

set_option autoImplicit false

/-! # Words are read whole

Where a scanner comes to a word character, the next lexeme is the whole run of word characters
there: none stands before it and none behind it (`Lexeme.boundary_of_first?`). What the run is read
as is decided by the run alone. It spells an integer, a keyword, the symbol of a package or a bare
symbol (`Spells`); a run that spells nothing is a fault, and its first character tells which one
(`WordReading`). These are all the cases, and no run belongs to two of them (`wordToken_eq_iff`).

That no run is cut from the left is an invariant of the places that a scanner comes to
(`Scanner.Reaches`), also inside of character literals: gaps and lexemes end in no word character,
unless no word character follows them.
-/

namespace MakerForms

/-! ## What words spell -/

/-- Digits have their decimal value. -/
theorem Numeral.value_eq_ofDigits (ds : List Char) :
    value ds = Nat.ofDigits 10 (ds.reverse.map digitValue) := by
  induction ds using List.reverseRecOn with
  | nil => rfl
  | append_singleton ds c ih =>
      have hstep : value (ds ++ [c]) = 10 * value ds + digitValue c := by
        rw [value, List.foldl_append]
        rfl
      rw [hstep, ih, List.reverse_append, List.reverse_singleton, List.singleton_append,
        List.map_cons, Nat.ofDigits_cons]
      omega

/-- The integers and the symbols that words spell. -/
inductive Spells : List Char → Token → Prop
  | natural {ds : List Char} : Numeral.isDigits ds = true →
      Spells ds (.integer (Nat.ofDigits 10 (ds.reverse.map Numeral.digitValue) : Nat))
  | negative {ds : List Char} : Numeral.isDigits ds = true →
      Spells ('-' :: ds) (.integer (-(Nat.ofDigits 10 (ds.reverse.map Numeral.digitValue) : Nat)))
  | keyword {name : List Char} : name ≠ [] → ':' ∉ name →
      Spells (':' :: name) (.symbol (Symbol.keyword (String.ofList name)))
  | qualified {package name : List Char} : package ≠ [] → ':' ∉ package → name ≠ [] →
      ':' ∉ name → Symbol.startsLikeNumber package = false →
      Spells (package ++ ':' :: ':' :: name)
        (.symbol (Symbol.qualified (String.ofList package) (String.ofList name)))
  | bare {name : List Char} : name ≠ [] → ':' ∉ name → Symbol.startsLikeNumber name = false →
      Spells name (.symbol (Symbol.bare (String.ofList name)))

/-- What a word is read as: what it spells, or else a fault. -/
inductive WordReading (run : List Char) : Except LexFault Token → Prop
  | token {t : Token} : Spells run t → WordReading run (.ok t)
  | number : (∀ t, ¬ Spells run t) → Symbol.startsLikeNumber run = true →
      WordReading run (.error .malformedInteger)
  | symbol : (∀ t, ¬ Spells run t) → Symbol.startsLikeNumber run = false →
      WordReading run (.error .malformedSymbol)

theorem isNameChar_of_isWordChar {c : Char} (h : isWordChar c = true) (hc : c ≠ ':') :
    Symbol.isNameChar c = true := by
  simp only [isWordChar, Bool.or_eq_true, beq_iff_eq] at h
  simp only [Symbol.isNameChar, Bool.or_eq_true, beq_iff_eq]
  rcases h with ((h | h) | h) | h
  · exact Or.inl (Or.inl h)
  · exact Or.inl (Or.inr h)
  · exact absurd h hc
  · exact Or.inr h

/-- Among word characters, names are what has no colon. -/
theorem isName_iff_of_isWordChar {cs : List Char} (h : ∀ c ∈ cs, isWordChar c = true) :
    Symbol.isName cs = true ↔ cs ≠ [] ∧ ':' ∉ cs := by
  rw [Symbol.isName_iff]
  constructor
  · rintro ⟨hne, hall⟩
    exact ⟨hne, Symbol.colon_notMem_of_isName (Symbol.isName_iff.mpr ⟨hne, hall⟩)⟩
  · rintro ⟨hne, hcolon⟩
    refine ⟨hne, fun c hc => isNameChar_of_isWordChar (h c hc) ?_⟩
    rintro rfl
    exact hcolon hc

section Words

variable {run : List Char} {t : Token}

theorem wordToken_of_spells (hrun : ∀ c ∈ run, isWordChar c = true) (h : Spells run t) :
    wordToken run = .ok t := by
  cases h with
  | natural hds =>
      obtain ⟨hnumeral, hvalue⟩ := Numeral.isNumeral_of_isDigits hds
      rw [wordToken, if_pos hnumeral, hvalue, Numeral.value_eq_ofDigits]
  | @negative ds hds =>
      have hnumeral : Numeral.isNumeral ('-' :: ds) = true := hds
      rw [wordToken, if_pos hnumeral, Numeral.intValue, Numeral.value_eq_ofDigits]
  | @keyword name hne hcolon =>
      have hname : Symbol.isName name = true :=
        (isName_iff_of_isWordChar fun c hc => hrun c (by simp [hc])).mpr ⟨hne, hcolon⟩
      exact wordToken_eq_ok_symbol_iff.mpr
        ⟨rfl, wordSymbol?_eq_some_iff.mpr (Or.inl ⟨name, rfl, hname, rfl⟩)⟩
  | @qualified package name hpackage hcolon hname hcolon' hstart =>
      have hpackageName : Symbol.isName package = true :=
        (isName_iff_of_isWordChar fun c hc => hrun c (by simp [hc])).mpr ⟨hpackage, hcolon⟩
      have hnameName : Symbol.isName name = true :=
        (isName_iff_of_isWordChar fun c hc => hrun c (by simp [hc])).mpr ⟨hname, hcolon'⟩
      have hstart' : Symbol.startsLikeNumber (package ++ ':' :: ':' :: name) = false := by
        cases package with
        | nil => exact absurd rfl hpackage
        | cons c package => exact hstart
      exact wordToken_eq_ok_symbol_iff.mpr ⟨hstart', wordSymbol?_eq_some_iff.mpr
        (Or.inr (Or.inl ⟨package, name, rfl, hpackageName, hnameName, rfl⟩))⟩
  | bare hne hcolon hstart =>
      have hname : Symbol.isName run = true :=
        (isName_iff_of_isWordChar hrun).mpr ⟨hne, hcolon⟩
      exact wordToken_eq_ok_symbol_iff.mpr
        ⟨hstart, wordSymbol?_eq_some_iff.mpr (Or.inr (Or.inr ⟨hname, rfl⟩))⟩

theorem spells_of_isNumeral (h : Numeral.isNumeral run = true) :
    Spells run (.integer (Numeral.intValue run)) := by
  unfold Numeral.isNumeral at h
  split at h
  · next ds =>
    rw [Numeral.intValue, Numeral.value_eq_ofDigits]
    exact .negative h
  · rw [(Numeral.isNumeral_of_isDigits h).2, Numeral.value_eq_ofDigits]
    exact .natural h

theorem spells_of_wordSymbol? {s : Symbol} (hstart : Symbol.startsLikeNumber run = false)
    (h : wordSymbol? run = some s) : Spells run (.symbol s) := by
  rcases wordSymbol?_eq_some_iff.mp h with
    ⟨name, rfl, hname, rfl⟩ | ⟨package, name, rfl, hpackage, hname, rfl⟩ | ⟨hname, rfl⟩
  · exact .keyword (Symbol.isName_iff.mp hname).1 (Symbol.colon_notMem_of_isName hname)
  · have hstart' : Symbol.startsLikeNumber package = false := by
      cases package with
      | nil => rfl
      | cons c package => exact hstart
    exact .qualified (Symbol.isName_iff.mp hpackage).1 (Symbol.colon_notMem_of_isName hpackage)
      (Symbol.isName_iff.mp hname).1 (Symbol.colon_notMem_of_isName hname) hstart'
  · exact .bare (Symbol.isName_iff.mp hname).1 (Symbol.colon_notMem_of_isName hname) hstart

/-- A word is read in one of these ways. -/
theorem wordReading_wordToken (hrun : ∀ c ∈ run, isWordChar c = true) :
    WordReading run (wordToken run) := by
  -- a word that is read as a fault spells nothing
  have hnothing : ∀ fault, wordToken run = .error fault → ∀ t, ¬ Spells run t := by
    intro fault hfault t ht
    rw [wordToken_of_spells hrun ht] at hfault
    cases hfault
  by_cases hnumeral : Numeral.isNumeral run = true
  · rw [wordToken, if_pos hnumeral]
    exact .token (spells_of_isNumeral hnumeral)
  by_cases hstart : Symbol.startsLikeNumber run = true
  · have hfault : wordToken run = .error .malformedInteger := by
      rw [wordToken, if_neg hnumeral, if_pos hstart]
    rw [hfault]
    exact .number (hnothing _ hfault) hstart
  · have hstart' : Symbol.startsLikeNumber run = false := by simpa using hstart
    cases hsymbol : wordSymbol? run with
    | some s =>
        rw [wordToken_eq_ok_symbol_iff.mpr ⟨hstart', hsymbol⟩]
        exact .token (spells_of_wordSymbol? hstart' hsymbol)
    | none =>
        have hfault : wordToken run = .error .malformedSymbol := by
          rw [wordToken, if_neg hnumeral, if_neg hstart, hsymbol]
        rw [hfault]
        exact .symbol (hnothing _ hfault) hstart'

/-- It is read in one of them only. -/
theorem WordReading.eq_wordToken {o : Except LexFault Token}
    (hrun : ∀ c ∈ run, isWordChar c = true) (h : WordReading run o) : wordToken run = o := by
  have hread := wordReading_wordToken hrun
  cases h with
  | token ht => exact wordToken_of_spells hrun ht
  | number hnothing hstart =>
      generalize wordToken run = o at hread
      cases hread with
      | token ht => exact absurd ht (hnothing _)
      | number _ _ => rfl
      | symbol _ hstart' => cases hstart.symm.trans hstart'
  | symbol hnothing hstart =>
      generalize wordToken run = o at hread
      cases hread with
      | token ht => exact absurd ht (hnothing _)
      | number _ hstart' => cases hstart.symm.trans hstart'
      | symbol _ _ => rfl

theorem wordToken_eq_iff (hrun : ∀ c ∈ run, isWordChar c = true) {o : Except LexFault Token} :
    wordToken run = o ↔ WordReading run o := by
  constructor
  · rintro rfl
    exact wordReading_wordToken hrun
  · exact WordReading.eq_wordToken hrun

example : ["-17", ":N", "P::N", ":A::B", "A:::B", "12AB"].map (fun run => wordToken run.toList)
    = [.ok (.integer (-17)), .ok (.symbol (Symbol.keyword "N")),
      .ok (.symbol (Symbol.qualified "P" "N")), .error .malformedSymbol, .error .malformedSymbol,
      .error .malformedInteger] := by decide +kernel

end Words

/-! ## The ends of words -/

/-- Whether no word goes on behind a text. -/
def EndsApart (cs : List Char) : Prop := ∀ c ∈ cs.getLast?, isWordChar c = false

theorem endsApart_concat {c : Char} (h : isWordChar c = false) (cs : List Char) :
    EndsApart (cs ++ [c]) := by
  simpa [EndsApart] using h

/-- What a text ends in is what its last part ends in, if there is one. -/
theorem EndsApart.append {before cs : List Char} (h : EndsApart cs)
    (hbefore : cs = [] → EndsApart before) : EndsApart (before ++ cs) := by
  by_cases hcs : cs = []
  · rw [hcs, List.append_nil]
    exact hbefore hcs
  · rw [EndsApart, List.getLast?_append_of_ne_nil _ hcs]
    exact h

/-- A gap ends in no word character, unless it ends in a comment and with the text. -/
theorem IsGap.endsApart {last : Prop} {gap : List Char} (h : IsGap last gap) :
    last ∨ EndsApart gap := by
  induction h with
  | nil => exact Or.inr (by simp [EndsApart])
  | @blank c cs hblank _ ih =>
      have hc : EndsApart [c] := endsApart_concat (isWordChar_of_isBlank hblank) []
      exact ih.imp_right fun hcs => hcs.append fun _ => hc
  | @comment body cs _ _ ih =>
      have hline : EndsApart ((';' :: body) ++ ['\n']) := endsApart_concat (by decide) _
      have htext : ';' :: (body ++ '\n' :: cs) = ((';' :: body) ++ ['\n']) ++ cs := by simp
      rw [htext]
      exact ih.imp_right fun hcs => hcs.append fun _ => hline
  | lastComment hlast _ => exact Or.inl hlast

/-- The body of a string literal stops at a quote or a backslash. -/
theorem head?_splitBody (cs : List Char) :
    ∀ c ∈ (splitBody cs).2.head?, c = '"' ∨ c = '\\' := by
  induction cs using splitBody.induct with
  | case1 => simp [splitBody]
  | case2 c cs ih =>
      rw [splitBody]
      exact ih
  | case3 c cs unpaired stop =>
      rw [splitBody.eq_3 c cs unpaired, if_pos stop]
      simpa using stop
  | case4 c cs unpaired go ih =>
      rw [splitBody.eq_3 c cs unpaired, if_neg go]
      exact ih

theorem endsWord_splitBody (cs : List Char) : EndsWord (splitBody cs).2 := by
  intro c hc
  rcases head?_splitBody cs c hc with rfl | rfl
  · decide
  · decide

/-- No word goes on behind the lexeme that a text starts with: a lexeme ends in no word character,
or none follows it. -/
theorem Lexeme.boundary_of_first? {cs rest : List Char} {lexeme : Lexeme}
    (h : first? cs = some (lexeme, rest)) : EndsApart lexeme.text ∨ EndsWord rest := by
  cases cs with
  | nil => cases h
  | cons c cs =>
      simp only [first?] at h
      split at h
      · obtain ⟨rfl, rfl⟩ := Prod.mk.inj (Option.some.inj h)
        exact Or.inl (endsApart_concat (by decide) [])
      split at h
      · obtain ⟨rfl, rfl⟩ := Prod.mk.inj (Option.some.inj h)
        exact Or.inl (endsApart_concat (by decide) [])
      split at h
      · have hends := endsWord_splitBody cs
        unfold literal at h
        split at h
        · next body rest' hsplit =>
          obtain ⟨rfl, rfl⟩ := Prod.mk.inj (Option.some.inj h)
          exact Or.inl (endsApart_concat (by decide) ('"' :: body))
        -- a literal that is not closed ends at a backslash or with the text
        · next body rest' _ hsplit =>
          obtain ⟨rfl, rfl⟩ := Prod.mk.inj (Option.some.inj h)
          rw [hsplit] at hends
          exact Or.inr hends
      split at h
      · obtain ⟨rfl, rfl⟩ := Prod.mk.inj (Option.some.inj h)
        exact Or.inr (endsWord_dropWhile cs)
      · next hword =>
        obtain ⟨rfl, rfl⟩ := Prod.mk.inj (Option.some.inj h)
        exact Or.inl (endsApart_concat (by simpa using hword) [])

namespace Scanner

open Lexeme (resultAt)

variable {source : String} {s : Scanner}

/-! ## The places that a scanner comes to -/

/-- Requests for tokens lead only to places that gaps and lexemes lead to. -/
theorem reaches_next (s : Scanner) : s.Reaches s.next.2 := by
  unfold next
  split
  · exact Reaches.refl.gap
  · next lexeme behind hlexeme =>
    have hbehind : s.Reaches behind := Reaches.refl.lexeme hlexeme
    have hlast : s.Reaches (complete lexeme behind).2 :=
      hbehind.trans (reaches_complete lexeme behind)
    dsimp only
    split
    · exact hlast
    · exact hlast

theorem reaches_after (s : Scanner) (n : Nat) : s.Reaches (s.after n) := by
  induction n generalizing s with
  | zero => exact Reaches.refl
  | succ n ih => exact s.reaches_next.trans (ih s.next.2)

/-- No word is cut at a place that a scanner comes to. -/
theorem Reaches.exists_boundary (h : (ofString source).Reaches s) :
    ∃ before, s.IsBehind source before ∧ (EndsApart before ∨ EndsWord s.rest) := by
  induction h with
  | refl => exact ⟨[], isBehind_ofString source, Or.inl (by simp [EndsApart])⟩
  | @gap s _ ih =>
      obtain ⟨before, hbehind, hboundary⟩ := ih
      refine ⟨_, hbehind.passes s.passes_skip, ?_⟩
      have hwhole := splitGap_append false s.rest
      rcases (isGap_splitGap s.rest).1.endsApart with hend | hgap
      · have hrest : s.skip.rest = [] := hend
        rw [hrest]
        exact Or.inr endsWord_nil
      · by_cases hempty : (splitGap false s.rest).1 = []
        · have hrest : s.skip.rest = s.rest := by
            rwa [hempty, List.nil_append] at hwhole
          rwa [hempty, List.append_nil, hrest]
        · exact Or.inl (hgap.append fun h => absurd h hempty)
  | @lexeme s s' lexeme _ hlexeme ih =>
      obtain ⟨before, hbehind, -⟩ := ih
      obtain ⟨hpasses, hne⟩ := passes_of_lexeme? hlexeme
      obtain ⟨⟨l, rest⟩, hfirst, heq⟩ := Option.map_eq_some_iff.mp hlexeme
      obtain ⟨rfl, rfl⟩ := Prod.mk.inj heq
      refine ⟨_, (hbehind.passes s.passes_skip).passes hpasses, ?_⟩
      exact (Lexeme.boundary_of_first? hfirst).imp_left fun htext =>
        htext.append fun h => absurd h hne

/-- Where a scanner comes to a word character, it takes a run of them that no word character stands
before or behind. -/
theorem Reaches.exists_word (h : (ofString source).Reaches s) {c : Char}
    (hhead : s.skip.rest.head? = some c) (hc : isWordChar c = true) :
    ∃ before run behind : List Char, s.skip.IsBehind source before ∧ EndsApart before ∧
      EndsWord behind ∧ run ≠ [] ∧ (∀ c ∈ run, isWordChar c = true) ∧
      s.skip.Passes run ⟨behind, byteSize (before ++ run)⟩ ∧
      s.lexeme? = some (.word run, ⟨behind, byteSize (before ++ run)⟩) := by
  obtain ⟨before, hbehind, hboundary⟩ := h.gap.exists_boundary
  obtain ⟨cs, hrest⟩ : ∃ cs, s.skip.rest = c :: cs := List.head?_eq_some_iff.mp hhead
  have hoffset := hbehind.offset_eq
  have hstop : byteSize (before ++ (c :: cs.takeWhile isWordChar))
      = s.skip.offset + byteSize (c :: cs.takeWhile isWordChar) := by
    rw [byteSize_append, hoffset]
  have hrun : ∀ d ∈ c :: cs.takeWhile isWordChar, isWordChar d = true := by
    intro d hd
    rcases List.mem_cons.mp hd with rfl | hd
    · exact hc
    · exact List.all_eq_true.mp List.all_takeWhile d hd
  refine ⟨before, c :: cs.takeWhile isWordChar, cs.dropWhile isWordChar, hbehind, ?_,
    endsWord_dropWhile cs, by simp, hrun, ⟨?_, hstop⟩, ?_⟩
  -- a word character is next, so it is the text before it that ends apart
  · rcases hboundary with hbefore | hends
    · exact hbefore
    · have hno := hends c hhead
      rw [hc] at hno
      cases hno
  · rw [hrest, List.cons_append, List.takeWhile_append_dropWhile]
  · rw [lexeme?, hrest, Lexeme.first?_of_isWordChar hc, hstop]
    rfl

/-- **Words are read whole, and each in one way.** Wherever a scanner comes to a word character, a
run of word characters stands there that goes on neither to the left nor to the right, and the next
lexeme is this run. If a token is asked for there, the result covers the run and nothing else. It is
what the run spells: an integer, a keyword, the symbol of a package or a bare symbol. If the run
spells nothing, it is a malformed integer or a malformed symbol, the first exactly if the run starts
like a number. Requests for tokens come only to such places. -/
theorem words_are_read_whole (source : String) :
    (∀ n, (ofString source).Reaches ((ofString source).after n)) ∧
    ∀ s, (ofString source).Reaches s → ∀ c, s.skip.rest.head? = some c → isWordChar c = true →
      ∃ before run behind : String, source = before ++ run ++ behind ∧
        EndsApart before.toList ∧ EndsWord behind.toList ∧
        run ≠ "" ∧ (∀ c ∈ run.toList, isWordChar c = true) ∧
        s.skip.offset = before.utf8ByteSize ∧
        s.lexeme? = some (.word run.toList, ⟨behind.toList, (before ++ run).utf8ByteSize⟩) ∧
        Span.slice ⟨before.utf8ByteSize, (before ++ run).utf8ByteSize⟩ source = run ∧
        ∃ o, (∀ o', WordReading run.toList o' ↔ o' = o) ∧
          s.next = (some (resultAt source ⟨before.utf8ByteSize, (before ++ run).utf8ByteSize⟩ o),
            ⟨behind.toList, (before ++ run).utf8ByteSize⟩) := by
  refine ⟨(ofString source).reaches_after, fun s hs c hhead hc => ?_⟩
  obtain ⟨before, run, behind, hbehind, hbefore, hends, hne, hrun, hpasses, hlexeme⟩ :=
    hs.exists_word hhead hc
  have hsource : source.toList = before ++ run ++ behind := by
    rw [hbehind.toList_eq, hpasses.rest_eq, List.append_assoc]
  refine ⟨String.ofList before, String.ofList run, String.ofList behind, ?_, ?_⟩
  · rw [← String.ofList_append, ← String.ofList_append, ← hsource, String.ofList_toList]
  simp only [String.toList_ofList, ← String.ofList_append, utf8ByteSize_ofList]
  obtain ⟨front, hfront, -⟩ := hs.exists_boundary
  have hnext := next_eq_resultAt hfront hlexeme
  rw [hbehind.offset_eq] at hnext
  refine ⟨hbefore, hends, by simpa using hne, hrun, hbehind.offset_eq, hlexeme,
    Span.slice_eq hsource, wordToken run, fun o => ?_, ?_⟩
  · rw [← wordToken_eq_iff hrun, eq_comm]
  -- a word is completed by nothing that stands behind it
  · exact hnext

theorem words_are_read_whole_indented :
    (ofString " FOO)").Reaches (ofString " FOO)") ∧
      (ofString " FOO)").skip.rest.head? = some 'F' ∧ isWordChar 'F' = true ∧
      ∃ o, (∀ o', WordReading "FOO".toList o' ↔ o' = o) ∧
        (ofString " FOO)").next = (some (resultAt " FOO)" ⟨1, 4⟩ o), ⟨[')'], 4⟩) := by
  have hhead : (ofString " FOO)").skip.rest.head? = some 'F' := by decide
  have hc : isWordChar 'F' = true := by decide
  have hplace : (ofString " FOO)").skip.offset = 1 := by decide
  have hword : (ofString " FOO)").lexeme? = some (.word "FOO".toList, ⟨[')'], 4⟩) := by decide
  refine ⟨.refl, hhead, hc, ?_⟩
  obtain ⟨before, run, behind, -, -, -, -, -, hoffset, hlexeme, -, o, hreading, hnext⟩ :=
    (words_are_read_whole " FOO)").2 (ofString " FOO)") .refl 'F' hhead hc
  rw [hword] at hlexeme
  obtain ⟨hrun, hbehind⟩ := Prod.mk.inj (Option.some.inj hlexeme)
  rw [← hbehind, ← (Scanner.mk.inj hbehind).2, ← hoffset, hplace] at hnext
  rw [← Lexeme.word.inj hrun] at hreading
  exact ⟨o, hreading, hnext⟩

end Scanner

end MakerForms
