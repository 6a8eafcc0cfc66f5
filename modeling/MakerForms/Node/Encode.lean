import MakerForms.Node.Decode
import MakerForms.Sexpr.Layout
import MakerForms.Sexpr.Reader

set_option autoImplicit false

/-! # Encoding, and trees as text

Each tree has one value that stands for it: leaves are written as they are read, an absent
thing as `NIL`, a sequence as a list headed by `LIST`, and a node as the form of its maker. With
the text of a value on one side and reading a value on the other, trees are exchanged as text.

`Tree.encode` is `to_sexpr`; `Tree.text`, `Tree.prettyText` and `Tree.read` are `to_string`,
`to_string_pretty` and `from_str` of nodes; `Tree.outcome?` is `message` and `is_failure` of an
`Outcome`.
-/

namespace MakerForms

namespace Tree

mutual

/-- The value that stands for a tree. -/
def encode : Tree → Value
  | flag b => Value.ofBool b
  | character code => .character code
  | number n => .integer n
  | string s => .string s
  | operator o => Value.form o.maker []
  | form k slots => Value.form k.maker (encodeSlots k.slots slots)
  | absent => Value.nil
  | present t => t.encode
  | sequence items => .list (.symbol Symbol.list :: encodeItems items)

/-- The keywords of slots with the values that stand for what is in them. -/
def encodeSlots : List Slot → List Tree → List (String × Value)
  | slot :: slots, t :: ts => (slot.keyword, t.encode) :: encodeSlots slots ts
  | _, [] => []
  | [], _ => []

def encodeItems : List Tree → List Value
  | [] => []
  | t :: ts => t.encode :: encodeItems ts

end

def text (t : Tree) : String := t.encode.text

/-- A tree laid out in lines of `width` columns where possible. -/
def prettyText (width : Nat) (t : Tree) : String := Value.prettyText width [t.encode]

/-- A tree as it is shown to people: an identifier by its name, all else on one line. A node in
a place for any kind is not treated as an identifier. -/
def display (s : Schema) (t : Tree) : String :=
  match s, t with
  | .kind .identifier, .form .identifier [.string name] => name
  | _, t => t.text

end Tree

inductive TextError
  | read (e : ReadError)
  | decode (e : DecodeError)
deriving DecidableEq, Repr

/-- What a text means in a place of a schema. -/
def Tree.read (s : Schema) (source : String) : Except TextError Tree :=
  match Value.read source with
  | .error e => .error (.read e)
  | .ok v => (v.decode s).mapError .decode

/-! ## Outcomes -/

/-- The kinds of outcomes that report a failure. -/
def Kind.isFailure : Kind → Bool
  | .proofObligationFailure | .theoremFailure | .transformationFailure | .unexpectedFailure => true
  | _ => false

/-- The message of an outcome and whether it reports a failure. -/
def Tree.outcome? : Tree → Option (String × Bool)
  | .form k (.string message :: _) =>
    if k.family? = some .outcome then some (message, k.isFailure) else none
  | _ => none

end MakerForms
