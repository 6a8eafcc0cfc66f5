import MakerForms.Node.Tree
import MakerForms.Text.Numeral

set_option autoImplicit false

/-! # Outlines

An outline shows the structure of a tree on one line, for diagnosis: the name of each kind, the
name of each slot with the outline of what is in it, and leaves so that no character is hidden.
In a place for a family a node is shown as the variant of the family that it is, in a place for
any kind also under the name of the family.

`Tree.outline` is the debug form of a node.
-/

namespace MakerForms

def joinTexts (separator : String) : List String → String
  | [] => ""
  | [s] => s
  | s :: t :: rest => s ++ separator ++ joinTexts separator (t :: rest)

/-- The schema of what an optional thing or a sequence holds. -/
def Schema.inner : Schema → Schema
  | .option s => s
  | .sequence s => s
  | s => s

/-- A text with a name for it in front. -/
def tagged (name text : String) : String := name ++ "(" ++ text ++ ")"

namespace Kind

/-- The outline of a node by itself, given outlines of its slots. -/
def outlineAlone (k : Kind) (slots : List String) : String :=
  match k.spec.role with
  | .constant _ => k.label
  | _ => k.label ++ " \x7b " ++ joinTexts ", " slots ++ " \x7d"

/-- The outline of a node in a place for its family, if it has one. -/
def outlineInFamily (k : Kind) (slots : List String) : String :=
  match k.spec.role with
  | .member _ variant => tagged variant (k.outlineAlone slots)
  | _ => k.outlineAlone slots

/-- The outline of a node in a place of a schema. -/
def outline (k : Kind) (slots : List String) : Schema → String
  | .node => tagged k.variant (k.outlineInFamily slots)
  | .family _ => k.outlineInFamily slots
  | _ => k.outlineAlone slots

end Kind

namespace Tree

mutual

/-- The outline of a tree in a place of a schema. -/
def outline (s : Schema) : Tree → String
  | flag b => if b then "true" else "false"
  | character code => Numeral.ofNat code.toNat
  | number n => Numeral.ofNat n
  | string text => Literal.encode text
  | operator o => o.label
  | form k slots => k.outline (outlineSlots k.slots slots) s
  | absent => "None"
  | present t => tagged "Some" (t.outline s.inner)
  | sequence items => "[" ++ joinTexts ", " (outlineItems s.inner items) ++ "]"

/-- The outlines of what is in slots, each behind the name of the slot. -/
def outlineSlots : List Slot → List Tree → List String
  | slot :: slots, t :: ts =>
    (slot.label ++ ": " ++ t.outline slot.schema) :: outlineSlots slots ts
  | _, [] => []
  | [], _ => []

def outlineItems (s : Schema) : List Tree → List String
  | [] => []
  | t :: ts => t.outline s :: outlineItems s ts

end

end Tree

end MakerForms
