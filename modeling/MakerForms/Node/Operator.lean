set_option autoImplicit false

/-! # Operators

Unary and binary operators stand only in the operator slot of unary and binary expressions.
Each has a maker of its own, which takes no arguments.

`Operator.maker` is `maker` of `BinaryOp` and `UnaryOp`, and `Place.operators` is their `ALL`.
-/

namespace MakerForms

inductive Operator
  | eq | ne | lt | le | gt | ge
  | and | or | implies | implied | iff
  | add | sub | mul | div | rem
  | not | minus
deriving DecidableEq, Repr

namespace Operator

/-- The two places that operators stand in. -/
inductive Place
  | unary
  | binary
deriving DecidableEq, Repr

/-- What is expected in a place, in messages. -/
def Place.name : Place → String
  | unary => "unary operator"
  | binary => "binary operator"

/-- The operators that stand in a place, in their order. -/
def Place.operators : Place → List Operator
  | unary => [.not, .minus]
  | binary => [.eq, .ne, .lt, .le, .gt, .ge, .and, .or, .implies, .implied, .iff, .add, .sub,
      .mul, .div, .rem]

def place : Operator → Place
  | not | minus => .unary
  | _ => .binary

def label : Operator → String
  | eq => "Eq"
  | ne => "Ne"
  | lt => "Lt"
  | le => "Le"
  | gt => "Gt"
  | ge => "Ge"
  | and => "And"
  | or => "Or"
  | implies => "Implies"
  | implied => "Implied"
  | iff => "Iff"
  | add => "Add"
  | sub => "Sub"
  | mul => "Mul"
  | div => "Div"
  | rem => "Rem"
  | not => "Not"
  | minus => "Minus"

def maker : Operator → String
  | eq => "MAKE-BINARY-OP-EQ"
  | ne => "MAKE-BINARY-OP-NE"
  | lt => "MAKE-BINARY-OP-LT"
  | le => "MAKE-BINARY-OP-LE"
  | gt => "MAKE-BINARY-OP-GT"
  | ge => "MAKE-BINARY-OP-GE"
  | and => "MAKE-BINARY-OP-AND"
  | or => "MAKE-BINARY-OP-OR"
  | implies => "MAKE-BINARY-OP-IMPLIES"
  | implied => "MAKE-BINARY-OP-IMPLIED"
  | iff => "MAKE-BINARY-OP-IFF"
  | add => "MAKE-BINARY-OP-ADD"
  | sub => "MAKE-BINARY-OP-SUB"
  | mul => "MAKE-BINARY-OP-MUL"
  | div => "MAKE-BINARY-OP-DIV"
  | rem => "MAKE-BINARY-OP-REM"
  | not => "MAKE-UNARY-OP-NOT"
  | minus => "MAKE-UNARY-OP-MINUS"

def Place.ofLabel? (place : Place) (label : String) : Option Operator :=
  place.operators.find? (·.label == label)

end Operator

end MakerForms
