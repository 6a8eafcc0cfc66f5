import MakerForms.Sexpr.Symbol

set_option autoImplicit false

/-! # S-expressions

The values that are exchanged as text: symbols, lists, integers of any size, strings, and
characters given by a code below 256. The file defines the type, decides equality, and gives
the partial views of a value, one for each kind.

`Value.symbol?`, `Value.list?`, `Value.integer?`, `Value.string?` and `Value.character?` are
`as_symbol`, `as_list`, `as_integer`, `as_string` and `as_character` of a `Value`.
-/

namespace MakerForms

inductive Value
  | symbol (s : Symbol)
  | list (items : List Value)
  | integer (i : Int)
  | string (s : String)
  | character (code : UInt8)
deriving Repr

namespace Value

/-! ## Equality -/

mutual

def decEq : (a b : Value) → Decidable (a = b)
  | .symbol a, .symbol b =>
    if h : a = b then .isTrue (by rw [h]) else .isFalse (by simpa using h)
  | .list a, .list b =>
    match decEqList a b with
    | .isTrue h => .isTrue (by rw [h])
    | .isFalse h => .isFalse (by simpa using h)
  | .integer a, .integer b =>
    if h : a = b then .isTrue (by rw [h]) else .isFalse (by simpa using h)
  | .string a, .string b =>
    if h : a = b then .isTrue (by rw [h]) else .isFalse (by simpa using h)
  | .character a, .character b =>
    if h : a = b then .isTrue (by rw [h]) else .isFalse (by simpa using h)
  | .symbol _, .list _ | .symbol _, .integer _ | .symbol _, .string _ | .symbol _, .character _
  | .list _, .symbol _ | .list _, .integer _ | .list _, .string _ | .list _, .character _
  | .integer _, .symbol _ | .integer _, .list _ | .integer _, .string _
  | .integer _, .character _
  | .string _, .symbol _ | .string _, .list _ | .string _, .integer _ | .string _, .character _
  | .character _, .symbol _ | .character _, .list _ | .character _, .integer _
  | .character _, .string _ => .isFalse (by simp)

def decEqList : (as bs : List Value) → Decidable (as = bs)
  | [], [] => .isTrue rfl
  | [], _ :: _ | _ :: _, [] => .isFalse (by simp)
  | a :: as, b :: bs =>
    match decEq a b with
    | .isFalse h => .isFalse fun eq => h (List.cons.inj eq).1
    | .isTrue head =>
      match decEqList as bs with
      | .isTrue tail => .isTrue (by rw [head, tail])
      | .isFalse h => .isFalse fun eq => h (List.cons.inj eq).2

end

instance : DecidableEq Value := decEq

/-! ## Views -/

/-- The word for the kind of a value. -/
def kind : Value → String
  | .symbol _ => "symbol"
  | .list _ => "list"
  | .integer _ => "integer"
  | .string _ => "string"
  | .character _ => "character"

def symbol? : Value → Option Symbol
  | .symbol s => some s
  | _ => none

/-- The items of the list that a value is. -/
def list? : Value → Option (List Value)
  | .list items => some items
  | _ => none

def integer? : Value → Option Int
  | .integer i => some i
  | _ => none

def string? : Value → Option String
  | .string s => some s
  | _ => none

/-- The code of the character that a value is. -/
def character? : Value → Option UInt8
  | .character code => some code
  | _ => none

/-- The symbol at the head of the list that a value is. -/
def head? : Value → Option Symbol
  | .list (.symbol head :: _) => some head
  | _ => none

def nil : Value := .symbol Symbol.nil

/-- Whether a value is the symbol `NIL`; the empty list is not. -/
def isNil : Value → Bool
  | .symbol s => s.isNil
  | _ => false

/-- A truth value is the symbol `T` or the symbol `NIL`. -/
def ofBool : Bool → Value
  | true => .symbol Symbol.t
  | false => nil

/-- For each value the place of the first value that equals it. -/
def classes (values : List Value) : List Nat :=
  values.map fun v => values.findIdx (· = v)

/-- The number of different values in a list. -/
def countDistinct (values : List Value) : Nat := values.eraseDups.length

end Value

end MakerForms
