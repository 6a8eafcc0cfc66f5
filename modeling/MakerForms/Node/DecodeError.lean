import MakerForms.Node.Signature
import MakerForms.Sexpr.Printable
import MakerForms.Text.Literal

set_option autoImplicit false

/-! # Why a value is not a tree

A value can have the wrong shape, be headed by a maker that does not exist or by one of the
wrong kind, or hold a leaf that is out of bounds. An error inside a slot is wrapped once for
each slot around it. The slots from the outside in are the path of the error, and what is
wrong at its end is its innermost error.

`DecodeError.inSlot`, `DecodeError.innermost` and `DecodeError.path` are `within`, `innermost` and
`path` of a `DecodeError`, and `DecodeError.wrongHead` is `unexpected_maker`.
-/

namespace MakerForms

/-- The ways in which a value can have the wrong shape. -/
inductive ShapeFault
  | notForm (found : Value)
  | argumentCount (expected found : Nat)
  | missingKeyword (keyword : String)
  | wrongKeyword (expected : String) (found : Value)
  | extraArgument (found : Value)
  | notLeaf (wanted : String) (found : Value)
  | operatorArguments
  /-- Something else, in words. -/
  | other (message : String)
deriving DecidableEq, Repr

def ShapeFault.message : ShapeFault → String
  | notForm v => "expected a maker form, found " ++ v.kind ++ " `" ++ v.text ++ "`"
  | argumentCount expected found =>
    "expected " ++ Numeral.ofNat expected ++ " keyword arguments, found " ++
      Numeral.ofNat found ++ " values"
  | missingKeyword keyword => "missing :" ++ keyword
  | wrongKeyword expected found => "expected :" ++ expected ++ ", found `" ++ found.text ++ "`"
  | extraArgument found => "unexpected argument `" ++ found.text ++ "`"
  | notLeaf wanted found => "expected " ++ wanted ++ ", found `" ++ found.text ++ "`"
  | operatorArguments => "operators take no arguments"
  | other message => message

/-- The ways in which a leaf can be out of bounds. -/
inductive BoundFault
  | negative (i : Int)
  | outOfRange (i : Int)
  | notIdentifier (name : String)
  /-- Something else, in words. -/
  | other (message : String)
deriving DecidableEq, Repr

def BoundFault.message : BoundFault → String
  | negative i =>
    Numeral.ofInt i ++ " is negative; negative numbers are written with unary minus"
  | outOfRange i => Numeral.ofInt i ++ " is out of range"
  | notIdentifier name => Literal.encode name ++ " is not a valid identifier"
  | other message => message

inductive DecodeError
  /-- `context` says what the value should have been. -/
  | shape (context : String) (fault : ShapeFault)
  | unknownMaker (head : Symbol)
  | typeMismatch (expected : String) (found : Symbol)
  /-- `what` says what the leaf should have been. -/
  | bounds (what : String) (fault : BoundFault)
  | inSlot (maker keyword : String) (cause : DecodeError)
deriving DecidableEq, Repr

namespace DecodeError

def message : DecodeError → String
  | shape context fault => "malformed " ++ context ++ ": " ++ fault.message
  | unknownMaker head => "unknown maker `" ++ head.text ++ "`"
  | typeMismatch expected found => "expected " ++ expected ++ ", found `" ++ found.text ++ "`"
  | bounds what fault => "invalid " ++ what ++ ": " ++ fault.message
  | inSlot maker keyword cause => "in :" ++ keyword ++ " of " ++ maker ++ ": " ++ cause.message

/-- What is wrong at the end of the path. -/
def innermost : DecodeError → DecodeError
  | inSlot _ _ cause => cause.innermost
  | e => e

/-- The keywords of the slots around the innermost error, from the outside in. -/
def path : DecodeError → List String
  | inSlot _ keyword cause => keyword :: cause.path
  | _ => []

/-- The error for a form headed by another maker than expected. -/
def wrongHead (head : Symbol) (expected : String) : DecodeError :=
  if (Kind.ofSymbol? head).isSome then typeMismatch expected head else unknownMaker head

end DecodeError

end MakerForms
