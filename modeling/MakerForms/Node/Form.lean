import MakerForms.Node.DecodeError
import MakerForms.Node.Tree

set_option autoImplicit false

/-! # Forms

A node is written as a form: a list headed by the symbol of its maker, followed by a keyword
and a value for each slot, in the order of the slots. A form that is being read is the list of
arguments not yet taken. Asking for a keyword takes the next two arguments if the first of them
is that keyword, and nothing otherwise.

What an argument means is not this file's business: an argument comes with the function that
decodes it.

`Form.start`, `Form.slot` and `Form.finish` are the operations `open`, `field` and `finish` of a
`FormReader`; `Draft.start?`, `Draft.add?` and `Draft.finish` are `new`, `field` and `finish` of a
`FormWriter`.
-/

namespace MakerForms

/-- An item of a list, together with what it means in a place of each schema. -/
structure Argument where
  value : Value
  decode : Schema → Except DecodeError Tree

/-- A form that is being read: the name of its maker and the arguments not yet taken. -/
structure Form where
  maker : String
  arguments : List Argument

namespace Form

/-- Starts to read `v`, whose items are `items`, as a form of a maker with `arity` keyword
arguments. An arity is a number of slots, so `arity * 2` stays within the range of indices,
`usize`, and the product of natural numbers is the one meant. -/
def start (v : Value) (items : List Argument) (maker : String) (arity : Nat) :
    Except DecodeError Form :=
  match v.head? with
  | none => .error (.shape maker (.notForm v))
  | some head =>
    if !head.isMaker maker then .error (.wrongHead head maker)
    else if items.tail.length ≠ arity * 2 then
      .error (.shape maker (.argumentCount arity items.tail.length))
    else .ok ⟨maker, items.tail⟩

/-- Reads the value for a keyword, which must come next. -/
def slot (form : Form) (keyword : String) (s : Schema) : Except DecodeError Tree × Form :=
  match form.arguments with
  | key :: argument :: rest =>
    if key.value = .symbol (Symbol.keyword keyword) then
      ((argument.decode s).mapError (.inSlot form.maker keyword), { form with arguments := rest })
    else (.error (.shape form.maker (.wrongKeyword keyword key.value)), form)
  | _ => (.error (.shape form.maker (.missingKeyword keyword)), form)

/-- Reads the values for slots one after another, up to the first error. -/
def slots (form : Form) : List Slot → Except DecodeError (List Tree × Form)
  | [] => .ok ([], form)
  | s :: rest =>
    match form.slot s.keyword s.schema with
    | (.error e, _) => .error e
    | (.ok t, form) =>
      match form.slots rest with
      | .error e => .error e
      | .ok (ts, form) => .ok (t :: ts, form)

/-- Checks that every argument has been taken. -/
def finish (form : Form) : Except DecodeError Unit :=
  match form.arguments with
  | [] => .ok ()
  | extra :: _ => .error (.shape form.maker (.extraArgument extra.value))

end Form

/-! ## Writing forms -/

def formArguments : List (String × Value) → List Value
  | [] => []
  | (keyword, v) :: rest => .symbol (Symbol.keyword keyword) :: v :: formArguments rest

/-- The form of a maker with a value for each keyword. -/
def Value.form (maker : String) (arguments : List (String × Value)) : Value :=
  .list (.symbol (Symbol.maker maker) :: formArguments arguments)

/-- A form that is being written: its items so far. -/
structure Draft where
  items : List Value

namespace Draft

/-- Starts a form, if the maker has a valid name. -/
def start? (maker : String) : Except SymbolError Draft :=
  (Symbol.maker? maker).map fun head => ⟨[.symbol head]⟩

/-- Adds a value for a keyword, if the keyword has a valid name. -/
def add? (draft : Draft) (keyword : String) (v : Value) : Except SymbolError Draft :=
  (Symbol.keyword? keyword).map fun key => ⟨draft.items ++ [.symbol key, v]⟩

def finish (draft : Draft) : Value := .list draft.items

end Draft

end MakerForms
