import MakerForms.Sexpr.Flat
import MakerForms.Sexpr.Token

set_option autoImplicit false

/-! # Words that spell integers and symbols

Which words spell symbols, and which symbols they spell (`wordSymbol?_eq_some_iff`): `:NAME`,
`PACKAGE::NAME` and `NAME`. A word that starts like a number spells no symbol. So a symbol is
read back from its own characters, unless its package starts like a number, and an integer is
read back from its digits.
-/

namespace MakerForms

/-! ## Digits -/

namespace Numeral

theorem isDigit_digitChar {d : Nat} (h : d < 10) : (digitChar d).isDigit = true := by
  have all : ∀ e < 10, (digitChar e).isDigit = true := by decide
  exact all d h

theorem all_isDigit_digitsOnto (n : Nat) (tail : List Char)
    (htail : tail.all Char.isDigit = true) : (digitsOnto n tail).all Char.isDigit = true := by
  induction n, tail using digitsOnto.induct with
  | case1 n tail hsmall =>
      rw [digitsOnto, if_pos hsmall, List.all_cons, isDigit_digitChar hsmall, htail]
      rfl
  | case2 n tail hlarge ih =>
      rw [digitsOnto, if_neg hlarge]
      apply ih
      rw [List.all_cons, isDigit_digitChar (Nat.mod_lt n (by decide)), htail]
      rfl

theorem digitsOnto_ne_nil (n : Nat) (tail : List Char) : digitsOnto n tail ≠ [] := by
  induction n, tail using digitsOnto.induct with
  | case1 n tail hsmall =>
      rw [digitsOnto, if_pos hsmall]
      simp
  | case2 n tail hlarge ih =>
      rw [digitsOnto, if_neg hlarge]
      exact ih

theorem isDigits_digits (n : Nat) : isDigits (digits n) = true := by
  have hall := all_isDigit_digitsOnto n [] rfl
  have hne := digitsOnto_ne_nil n []
  simp [isDigits, digits, hall, hne]

/-- A non-empty run of digits is a numeral and stands for its value. -/
theorem isNumeral_of_isDigits {cs : List Char} (h : isDigits cs = true) :
    isNumeral cs = true ∧ intValue cs = value cs := by
  unfold isNumeral intValue
  split
  · next rest => simp [isDigits] at h
  · exact ⟨h, rfl⟩

theorem isNumeral_intChars (i : Int) : isNumeral (intChars i) = true := by
  cases i with
  | ofNat n => exact (isNumeral_of_isDigits (isDigits_digits n)).1
  | negSucc n => exact isDigits_digits (n + 1)

/-- Reading the characters of an integer gives the integer. -/
theorem intValue_intChars (i : Int) : intValue (intChars i) = i := by
  cases i with
  | ofNat n =>
      rw [intChars, (isNumeral_of_isDigits (isDigits_digits n)).2, value_digits]
      rfl
  | negSucc n =>
      rw [intChars, intValue, value_digits]
      rfl

theorem byte?_digits (code : UInt8) : byte? (digits code.toNat) = some code := by
  have hcode : code.toNat < 256 := code.toNat_lt
  simp [byte?, isDigits_digits, value_digits, hcode]

theorem startsLikeNumber_of_isNumeral {cs : List Char} (h : isNumeral cs = true) :
    Symbol.startsLikeNumber cs = true := by
  unfold isNumeral at h
  split at h
  · rfl
  · cases cs with
    | nil => simp [isDigits] at h
    | cons c cs =>
        have hc : c.isDigit = true := by
          simp [isDigits] at h
          exact h.1
        simp [Symbol.startsLikeNumber, hc]

end Numeral

/-! ## Names -/

namespace Symbol

theorem isName_iff {cs : List Char} :
    isName cs = true ↔ cs ≠ [] ∧ ∀ c ∈ cs, isNameChar c = true := by
  simp [isName]

theorem colon_notMem_of_isName {cs : List Char} (h : isName cs = true) : ':' ∉ cs := by
  intro hmem
  have hcolon := (isName_iff.mp h).2 ':' hmem
  exact absurd hcolon (by decide)

theorem isName_of_isBareName {cs : List Char} (h : isBareName cs = true) : isName cs = true :=
  (Bool.and_eq_true_iff.mp h).1

theorem isNameChar_isWordChar {c : Char} (h : isNameChar c = true) : isWordChar c = true := by
  simp only [isNameChar, Bool.or_eq_true] at h
  simp only [isWordChar, Bool.or_eq_true]
  rcases h with (h | h) | h
  · exact Or.inl (Or.inl (Or.inl h))
  · exact Or.inl (Or.inl (Or.inr h))
  · exact Or.inr h

theorem bare?_eq_ok_iff {name : String} {s : Symbol} :
    bare? name = .ok s ↔ isBareName name.toList = true ∧ s = bare name := by
  unfold bare?
  by_cases hname : isBareName name.toList = true
  · simp [hname, eq_comm]
  · simp [hname]

theorem qualified?_eq_ok_iff {package name : String} {s : Symbol} :
    qualified? package name = .ok s ↔
      (isName package.toList = true ∧ isName name.toList = true) ∧ s = qualified package name := by
  unfold qualified?
  by_cases hpackage : isName package.toList = true
  · by_cases hname : isName name.toList = true
    · simp [hpackage, hname, eq_comm]
    · simp [hpackage, hname]
  · simp [hpackage]

theorem keyword?_eq_ok_iff {name : String} {s : Symbol} :
    keyword? name = .ok s ↔ isName name.toList = true ∧ s = keyword name := by
  have hpackage : isName keywordPackage.toList = true := by decide +kernel
  rw [keyword?, qualified?_eq_ok_iff, keyword]
  simp only [hpackage, true_and]

/-- The valid symbols are those that can be made from names. -/
theorem valid_iff_made {s : Symbol} :
    s.Valid ↔ (∃ name, bare? name = .ok s) ∨ ∃ package name, qualified? package name = .ok s := by
  simp only [bare?_eq_ok_iff, qualified?_eq_ok_iff]
  constructor
  · intro h
    obtain ⟨package, name⟩ := s
    cases package with
    | none => exact Or.inl ⟨name, h, rfl⟩
    | some package => exact Or.inr ⟨package, name, h, rfl⟩
  · rintro (⟨name, hname, rfl⟩ | ⟨package, name, hnames, rfl⟩)
    · exact hname
    · exact hnames

/-- Whether the package of a symbol starts like a number. -/
def hasNumericPackage (s : Symbol) : Bool :=
  match s.package with
  | some package => startsLikeNumber package.toList
  | none => false

end Symbol

/-! ## Words that spell symbols -/

/-- The first double colon lies behind a text without colons. -/
theorem splitPackage?_append {package name : List Char} (h : ':' ∉ package) :
    splitPackage? (package ++ ':' :: ':' :: name) = some (package, name) := by
  induction package with
  | nil => rfl
  | cons c package ih =>
      obtain ⟨hc, hpackage⟩ : ':' ≠ c ∧ ':' ∉ package := by simpa using h
      rw [List.cons_append, splitPackage?.eq_3 _ _ fun _ heq _ => hc heq.symm, ih hpackage]
      rfl

theorem append_of_splitPackage? {run package name : List Char}
    (h : splitPackage? run = some (package, name)) : run = package ++ ':' :: ':' :: name := by
  induction run using splitPackage?.induct generalizing package with
  | case1 => cases h
  | case2 rest =>
      obtain ⟨rfl, rfl⟩ : [] = package ∧ rest = name := by simpa [splitPackage?] using h
      rfl
  | case3 c cs hno ih =>
      rw [splitPackage?.eq_3 c cs hno, Option.map_eq_some_iff] at h
      obtain ⟨⟨package', name'⟩, htail, heq⟩ := h
      obtain ⟨rfl, rfl⟩ := Prod.mk.inj heq
      rw [ih htail]
      rfl

theorem splitPackage?_eq_none {run : List Char} (h : ':' ∉ run) : splitPackage? run = none := by
  cases hsplit : splitPackage? run with
  | none => rfl
  | some parts =>
      obtain ⟨package, name⟩ := parts
      rw [append_of_splitPackage? hsplit] at h
      simp at h

/-- The words that spell symbols: a name behind a colon, a package and a name with two colons
between them, or a name. -/
theorem wordSymbol?_eq_some_iff {run : List Char} {s : Symbol} :
    wordSymbol? run = some s ↔
      (∃ name, run = ':' :: name ∧ Symbol.isName name = true ∧
        s = Symbol.keyword (String.ofList name)) ∨
      (∃ package name, run = package ++ ':' :: ':' :: name ∧ Symbol.isName package = true ∧
        Symbol.isName name = true ∧
        s = Symbol.qualified (String.ofList package) (String.ofList name)) ∨
      (Symbol.isName run = true ∧ s = Symbol.bare (String.ofList run)) := by
  constructor
  · intro h
    unfold wordSymbol? at h
    split at h
    · next name =>
      split at h
      · next hname => exact Or.inl ⟨name, rfl, hname, (Option.some.inj h).symm⟩
      · cases h
    · split at h
      · next package name hsplit =>
        split at h
        · next hnames =>
          obtain ⟨hpackage, hname⟩ := Bool.and_eq_true_iff.mp hnames
          exact Or.inr (Or.inl ⟨package, name, append_of_splitPackage? hsplit, hpackage, hname,
            (Option.some.inj h).symm⟩)
        · cases h
      · split at h
        · next hname => exact Or.inr (Or.inr ⟨hname, (Option.some.inj h).symm⟩)
        · cases h
  · rintro (⟨name, rfl, hname, rfl⟩ | ⟨package, name, rfl, hpackage, hname, rfl⟩ | ⟨hname, rfl⟩)
    · rw [wordSymbol?, if_pos hname]
    -- a name has no colon, so the first two colons are the ones behind the package
    · have hcolon := Symbol.colon_notMem_of_isName hpackage
      have hfirst : ∀ rest, package ++ ':' :: ':' :: name ≠ ':' :: rest := by
        cases package with
        | nil => cases hpackage
        | cons c package =>
            intro rest heq
            exact hcolon (List.mem_cons.mpr (Or.inl (List.cons.inj heq).1.symm))
      rw [wordSymbol?.eq_2 _ fun rest heq => hfirst rest heq, splitPackage?_append hcolon]
      simp [hpackage, hname]
    · have hcolon := Symbol.colon_notMem_of_isName hname
      have hfirst : ∀ rest, run ≠ ':' :: rest := by
        rintro rest rfl
        simp at hcolon
      rw [wordSymbol?.eq_2 _ fun rest heq => hfirst rest heq, splitPackage?_eq_none hcolon]
      simp [hname]

/-! ## Words that spell tokens -/

theorem wordToken_eq_ok_symbol_iff {run : List Char} {s : Symbol} :
    wordToken run = .ok (.symbol s) ↔
      Symbol.startsLikeNumber run = false ∧ wordSymbol? run = some s := by
  unfold wordToken
  -- a numeral starts like a number too, so both tests fail for a symbol
  by_cases hnumeral : Numeral.isNumeral run = true
  · simp [hnumeral, Numeral.startsLikeNumber_of_isNumeral hnumeral]
  · by_cases hstart : Symbol.startsLikeNumber run = true
    · simp [hnumeral, hstart]
    · rw [if_neg hnumeral, if_neg hstart]
      cases wordSymbol? run <;> simp [hstart]

/-- An integer is read back from its characters. -/
theorem wordToken_intChars (i : Int) :
    wordToken (Numeral.intChars i) = .ok (.integer i) := by
  rw [wordToken, if_pos (Numeral.isNumeral_intChars i), Numeral.intValue_intChars]

namespace Symbol

/-- A valid symbol is what its characters spell. -/
theorem wordSymbol?_chars {s : Symbol} (h : s.Valid) : wordSymbol? s.chars = some s := by
  obtain ⟨package, name⟩ := s
  rw [wordSymbol?_eq_some_iff]
  cases package with
  | none =>
      have hname : isName name.toList = true := isName_of_isBareName h
      exact Or.inr (Or.inr ⟨hname, by simp [chars, bare]⟩)
  | some package =>
      obtain ⟨hpackage, hname⟩ := h
      by_cases hkeyword : package = keywordPackage
      · exact Or.inl ⟨name.toList, by simp [chars, hkeyword], hname,
          by simp [keyword, qualified, hkeyword]⟩
      · exact Or.inr (Or.inl ⟨package.toList, name.toList, by simp [chars, hkeyword], hpackage,
          hname, by simp [qualified]⟩)

/-- The characters of a valid symbol start like a number only if its package does. -/
theorem startsLikeNumber_chars {s : Symbol} (h : s.Valid) :
    startsLikeNumber s.chars = s.hasNumericPackage := by
  obtain ⟨package, name⟩ := s
  cases package with
  | none =>
      have hname : isBareName name.toList = true := h
      have hstart : startsLikeNumber name.toList = false := by
        simpa using (Bool.and_eq_true_iff.mp hname).2
      exact hstart
  | some package =>
      by_cases hkeyword : package = keywordPackage
      · subst hkeyword
        rfl
      · have hne := (isName_iff.mp h.1).1
        simp only [chars, hkeyword, if_false, hasNumericPackage]
        cases hchars : package.toList with
        | nil => exact absurd hchars hne
        | cons c cs => rfl

/-- A valid symbol is read back from its characters unless its package starts like a number. -/
theorem wordToken_chars {s : Symbol} (h : s.Valid) (hnumeric : s.hasNumericPackage = false) :
    wordToken s.chars = .ok (.symbol s) := by
  rw [wordToken_eq_ok_symbol_iff, startsLikeNumber_chars h, wordSymbol?_chars h]
  exact ⟨hnumeric, rfl⟩

/-- The symbols that words spell are valid. -/
theorem valid_of_wordToken {run : List Char} {s : Symbol} (h : wordToken run = .ok (.symbol s)) :
    s.Valid := by
  obtain ⟨hstart, hsymbol⟩ := wordToken_eq_ok_symbol_iff.mp h
  rcases wordSymbol?_eq_some_iff.mp hsymbol with
    ⟨name, -, hname, rfl⟩ | ⟨package, name, -, hpackage, hname, rfl⟩ | ⟨hname, rfl⟩
  · have hkeyword : isName keywordPackage.toList = true := by decide +kernel
    have hchars : isName (String.ofList name).toList = true := by rwa [String.toList_ofList]
    exact ⟨hkeyword, hchars⟩
  · simp only [Valid, qualified, String.toList_ofList]
    exact ⟨hpackage, hname⟩
  -- the word is the whole name here, so the name starts as the word does
  · have hbare : isBareName run = true := by simp [isBareName, hname, hstart]
    rwa [Valid, bare, String.toList_ofList]

/-- No symbol that a word spells has a package that starts like a number. -/
theorem hasNumericPackage_of_wordToken {run : List Char} {s : Symbol}
    (h : wordToken run = .ok (.symbol s)) : s.hasNumericPackage = false := by
  obtain ⟨hstart, hsymbol⟩ := wordToken_eq_ok_symbol_iff.mp h
  rcases wordSymbol?_eq_some_iff.mp hsymbol with
    ⟨name, -, -, rfl⟩ | ⟨package, name, rfl, hpackage, -, rfl⟩ | ⟨-, rfl⟩
  · rfl
  · cases package with
    | nil => cases hpackage
    | cons c package => simpa [hasNumericPackage, qualified, startsLikeNumber] using hstart
  · rfl

/-- The word of a symbol without a package is the name of the symbol. -/
theorem run_of_wordToken_bare {run : List Char} {name : String}
    (h : wordToken run = .ok (.symbol (bare name))) : String.ofList run = name := by
  obtain ⟨-, hsymbol⟩ := wordToken_eq_ok_symbol_iff.mp h
  rcases wordSymbol?_eq_some_iff.mp hsymbol with
    ⟨_, -, -, heq⟩ | ⟨_, _, -, -, -, heq⟩ | ⟨-, heq⟩
  · simp [bare, keyword, qualified] at heq
  · simp [bare, qualified] at heq
  · simpa [bare] using heq.symm

end Symbol

end MakerForms
