import MakerForms.Text.Literal

set_option autoImplicit false

/-! # Symbols

A symbol has a name and may belong to a package. Symbols of the package `KEYWORD` are keywords
and are written `:NAME`; other packages are written `PACKAGE::NAME`. Names and packages are
non-empty runs of letters, digits, `_` and `-`; the name of a symbol without a package must not
start like a number. `Symbol.bare?` and `Symbol.qualified?` check this, and `Symbol.Valid` says
it of a symbol.

Symbols are ordered with those without a package first, then by package, then by name.

`Symbol.bare?`, `Symbol.qualified?` and `Symbol.keyword?` are the constructors `bare`, `qualified`
and `keyword`; `Symbol.isName` and `Symbol.isBareName` are `is_valid_name` and
`is_valid_bare_name`.
-/

namespace MakerForms

/-- A name that may belong to a package. -/
structure Symbol where
  package : Option String
  name : String
deriving DecidableEq, Repr

/-- The ways in which a symbol can fail to be one. -/
inductive SymbolError
  | invalidName (name : String)
  | invalidPackage (package : String)
deriving DecidableEq, Repr

def SymbolError.message : SymbolError → String
  | .invalidName name => "invalid symbol name " ++ Literal.encode name
  | .invalidPackage package => "invalid package " ++ Literal.encode package

namespace Symbol

/-! ## Names -/

/-- Whether `c` may occur in the name of a symbol or a package: an ASCII letter or digit, `_` or
`-`. -/
def isNameChar (c : Char) : Bool := c.isAlphanum || c == '_' || c == '-'

/-- Whether `cs` is the name of some symbol or package. -/
def isName (cs : List Char) : Bool := !cs.isEmpty && cs.all isNameChar

/-- Whether `cs` begins as a number does. -/
def startsLikeNumber : List Char → Bool
  | [] => false
  | c :: _ => c.isDigit || c == '-'

/-- Whether `cs` is the name of some symbol without a package. -/
def isBareName (cs : List Char) : Bool := isName cs && !startsLikeNumber cs

/-- A symbol is valid if its package and its name are. -/
def Valid (s : Symbol) : Prop :=
  match s.package with
  | none => isBareName s.name.toList = true
  | some package => isName package.toList = true ∧ isName s.name.toList = true

instance (s : Symbol) : Decidable s.Valid := by
  unfold Valid
  split <;> infer_instance

/-! ## Construction -/

def keywordPackage : String := "KEYWORD"

def bare (name : String) : Symbol := ⟨none, name⟩

def qualified (package name : String) : Symbol := ⟨some package, name⟩

def keyword (name : String) : Symbol := qualified keywordPackage name

/-- The symbol without a package, if the name allows it. -/
def bare? (name : String) : Except SymbolError Symbol :=
  if isBareName name.toList then .ok (bare name) else .error (.invalidName name)

/-- The symbol of a package, if package and name allow it; the package is looked at first. -/
def qualified? (package name : String) : Except SymbolError Symbol :=
  if !isName package.toList then .error (.invalidPackage package)
  else if !isName name.toList then .error (.invalidName name)
  else .ok (qualified package name)

/-- The keyword with a name, if the name allows it. -/
def keyword? (name : String) : Except SymbolError Symbol := qualified? keywordPackage name

/-- The symbol for the false value and for what is absent. -/
def nil : Symbol := bare "NIL"

/-- The symbol for the true value. -/
def t : Symbol := bare "T"

/-- The symbol at the head of a sequence. -/
def list : Symbol := bare "LIST"

/-- The name at the head of a character literal. -/
def codeChar : String := "CODE-CHAR"

/-! ## Observation -/

def isKeyword (s : Symbol) : Bool := s.package == some keywordPackage

/-- Whether a symbol is the one without a package called `name`. -/
def isBare (s : Symbol) (name : String) : Bool := s.package.isNone && s.name == name

/-- Whether a symbol is `NIL` without a package. -/
def isNil (s : Symbol) : Bool := s.isBare "NIL"

/-- The characters of a symbol as it is written. -/
def chars (s : Symbol) : List Char :=
  match s.package with
  | none => s.name.toList
  | some package =>
    if package = keywordPackage then ':' :: s.name.toList
    else package.toList ++ ':' :: ':' :: s.name.toList

def text (s : Symbol) : String := String.ofList s.chars

/-- The order of symbols: no package first, then by package, then by name. -/
def compare (a b : Symbol) : Ordering :=
  match a.package, b.package with
  | none, none => compareOfLessAndEq a.name b.name
  | none, some _ => .lt
  | some _, none => .gt
  | some p, some q => (compareOfLessAndEq p q).then (compareOfLessAndEq a.name b.name)

/-- Whether `a` comes before `b` or equals it. -/
def le (a b : Symbol) : Bool := compare a b != .gt

def sort (symbols : List Symbol) : List Symbol := symbols.mergeSort le

end Symbol

end MakerForms
