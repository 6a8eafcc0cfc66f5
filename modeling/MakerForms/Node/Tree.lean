import MakerForms.Node.Signature

set_option autoImplicit false

/-! # Syntax trees

A tree is a leaf, an operator, a node of some kind with a tree for each slot, an optional tree
or a sequence of trees. The type does not force the slots to hold what the signature asks for;
decoding only produces trees that do.

An identifier is a node whose only leaf is its name: an ASCII letter or `_` and then ASCII
letters, digits and `_`.

`Identifier.isValid` is `is_valid`, and `Tree.maker?` is `maker` of a node or an operator.
-/

namespace MakerForms

inductive Tree
  | flag (b : Bool)
  | character (code : UInt8)
  | number (n : Nat)
  | string (s : String)
  | operator (o : Operator)
  | form (k : Kind) (slots : List Tree)
  | absent
  | present (t : Tree)
  | sequence (items : List Tree)
deriving Repr

namespace Tree

/-! ## Equality -/

mutual

def decEq : (a b : Tree) → Decidable (a = b)
  | .flag a, .flag b => if h : a = b then .isTrue (by rw [h]) else .isFalse (by simpa using h)
  | .character a, .character b =>
    if h : a = b then .isTrue (by rw [h]) else .isFalse (by simpa using h)
  | .number a, .number b =>
    if h : a = b then .isTrue (by rw [h]) else .isFalse (by simpa using h)
  | .string a, .string b =>
    if h : a = b then .isTrue (by rw [h]) else .isFalse (by simpa using h)
  | .operator a, .operator b =>
    if h : a = b then .isTrue (by rw [h]) else .isFalse (by simpa using h)
  | .form k as, .form l bs =>
    if h : k = l then
      match decEqList as bs with
      | .isTrue hs => .isTrue (by rw [h, hs])
      | .isFalse hs => .isFalse fun eq => hs (Tree.form.inj eq).2
    else .isFalse fun eq => h (Tree.form.inj eq).1
  | .absent, .absent => .isTrue rfl
  | .present a, .present b =>
    match decEq a b with
    | .isTrue h => .isTrue (by rw [h])
    | .isFalse h => .isFalse (by simpa using h)
  | .sequence as, .sequence bs =>
    match decEqList as bs with
    | .isTrue h => .isTrue (by rw [h])
    | .isFalse h => .isFalse (by simpa using h)
  | .flag _, .character _ | .flag _, .number _ | .flag _, .string _ | .flag _, .operator _
  | .flag _, .form _ _ | .flag _, .absent | .flag _, .present _ | .flag _, .sequence _
  | .character _, .flag _ | .character _, .number _ | .character _, .string _
  | .character _, .operator _ | .character _, .form _ _ | .character _, .absent
  | .character _, .present _ | .character _, .sequence _
  | .number _, .flag _ | .number _, .character _ | .number _, .string _
  | .number _, .operator _ | .number _, .form _ _ | .number _, .absent | .number _, .present _
  | .number _, .sequence _
  | .string _, .flag _ | .string _, .character _ | .string _, .number _
  | .string _, .operator _ | .string _, .form _ _ | .string _, .absent | .string _, .present _
  | .string _, .sequence _
  | .operator _, .flag _ | .operator _, .character _ | .operator _, .number _
  | .operator _, .string _ | .operator _, .form _ _ | .operator _, .absent
  | .operator _, .present _ | .operator _, .sequence _
  | .form _ _, .flag _ | .form _ _, .character _ | .form _ _, .number _ | .form _ _, .string _
  | .form _ _, .operator _ | .form _ _, .absent | .form _ _, .present _
  | .form _ _, .sequence _
  | .absent, .flag _ | .absent, .character _ | .absent, .number _ | .absent, .string _
  | .absent, .operator _ | .absent, .form _ _ | .absent, .present _ | .absent, .sequence _
  | .present _, .flag _ | .present _, .character _ | .present _, .number _
  | .present _, .string _ | .present _, .operator _ | .present _, .form _ _
  | .present _, .absent | .present _, .sequence _
  | .sequence _, .flag _ | .sequence _, .character _ | .sequence _, .number _
  | .sequence _, .string _ | .sequence _, .operator _ | .sequence _, .form _ _
  | .sequence _, .absent | .sequence _, .present _ => .isFalse (by simp)

def decEqList : (as bs : List Tree) → Decidable (as = bs)
  | [], [] => .isTrue rfl
  | [], _ :: _ | _ :: _, [] => .isFalse (by simp)
  | a :: as, b :: bs =>
    match decEq a b with
    | .isFalse h => .isFalse fun eq => h (List.cons.inj eq).1
    | .isTrue head =>
      match decEqList as bs with
      | .isTrue tail => .isTrue (by rw [head, tail])
      | .isFalse h => .isFalse fun eq => h (List.cons.inj eq).2

end

instance : DecidableEq Tree := decEq

/-! ## Views -/

def kind? : Tree → Option Kind
  | form k _ => some k
  | _ => none

/-- The name of the maker that builds a tree, if it is a node or an operator. -/
def maker? : Tree → Option String
  | form k _ => some k.maker
  | operator o => some o.maker
  | _ => none

/-- The name of the sort of places that a node stands in. -/
def variant? (t : Tree) : Option String := t.kind?.map Kind.variant

/-- Whether a tree is a node that may stand in a place of a schema for nodes. -/
def standsIn (t : Tree) : Schema → Bool
  | .node => t.kind?.isSome
  | .kind k => t.kind? == some k
  | .family f => t.kind?.bind Kind.family? == some f
  | _ => false

end Tree

/-! ## Identifiers -/

namespace Identifier

def isStart (c : Char) : Bool := c.isAlpha || c == '_'

def isRest (c : Char) : Bool := c.isAlphanum || c == '_'

/-- Whether a string is the name of an identifier. -/
def isValid (name : String) : Bool :=
  match name.toList with
  | [] => false
  | c :: cs => isStart c && cs.all isRest

def sortNames (names : List String) : List String :=
  names.mergeSort fun a b => compareOfLessAndEq a b != .gt

def tree (name : String) : Tree := .form .identifier [.string name]

end Identifier

end MakerForms
