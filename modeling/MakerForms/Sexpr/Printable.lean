import MakerForms.Sexpr.Flat
import MakerForms.Text.Span

set_option autoImplicit false

/-! # Writing values on one line

A printable is a value, a printable with the span it was read from, or several printables, which
are written one after another without parentheses around them. The writer goes over it once,
from left to right; all it keeps is the text so far and whether the next piece needs a space
before it. `Value.toList_text` says that this writes the characters of a value.

The writer is the `SimplePrinter`, with `Writer.separated` as its `separate` and `Writer.openList`
and `Writer.closeList` as the two ends of its `list`. `Printable.text` is what `to_string` gives.
-/

namespace MakerForms

/-- What can be written as a run of values. -/
inductive Printable
  | value (v : Value)
  | located (p : Printable) (span : Span)
  | several (ps : List Printable)

/-- The text written so far, and whether a space goes before the next piece. -/
structure Writer where
  text : String
  spaceDue : Bool

namespace Writer

/-- The writer that has written nothing. -/
def empty : Writer := ⟨"", false⟩

/-- The text so far with the space that is due. -/
def separated (w : Writer) : String := if w.spaceDue then w.text ++ " " else w.text

/-- Writes a piece of text. -/
def atom (w : Writer) (cs : List Char) : Writer := ⟨w.separated ++ String.ofList cs, true⟩

/-- Writes an opening parenthesis. -/
def openList (w : Writer) : Writer := ⟨w.separated ++ "(", false⟩

/-- Writes a closing parenthesis. -/
def closeList (w : Writer) : Writer := ⟨w.text ++ ")", true⟩

mutual

/-- Writes a value. -/
def value (w : Writer) : Value → Writer
  | .symbol s => w.atom s.chars
  | .list items => (w.openList.values items).closeList
  | .integer i => w.atom (Numeral.intChars i)
  | .string s => w.atom (Quoted.encode s.toList)
  | .character code => w.atom (Value.characterChars code)

/-- Writes values one after another. -/
def values (w : Writer) : List Value → Writer
  | [] => w
  | v :: vs => (w.value v).values vs

end

mutual

/-- Writes a printable. -/
def printable (w : Writer) : Printable → Writer
  | .value v => w.value v
  | .located p _ => w.printable p
  | .several ps => w.printables ps

/-- Writes printables one after another. -/
def printables (w : Writer) : List Printable → Writer
  | [] => w
  | p :: ps => (w.printable p).printables ps

end

/-! ## What is written -/

mutual

theorem spaceDue_value (w : Writer) : (v : Value) → (w.value v).spaceDue = true
  | .symbol _ | .integer _ | .string _ | .character _ => by simp only [value, atom]
  | .list _ => by simp only [value, closeList]

theorem toList_value (w : Writer) :
    (v : Value) → (w.value v).text.toList = w.separated.toList ++ v.chars
  | .symbol _ | .integer _ | .string _ | .character _ => by simp [value, atom, Value.chars]
  | .list items => by
    have inner := toList_values w.openList items
    have opened : w.openList.separated = w.openList.text := rfl
    rw [opened, ite_self] at inner
    rw [value, closeList, String.toList_append, inner]
    simp [openList, Value.chars]

theorem toList_values (w : Writer) : (vs : List Value) →
    (w.values vs).text.toList =
      (if vs = [] then w.text.toList else w.separated.toList) ++ Value.joinedChars vs
  | [] => by simp [values, Value.joinedChars]
  | [v] => by simp [values, Value.joinedChars, toList_value w v]
  | v :: u :: vs => by
    rw [values, toList_values (w.value v) (u :: vs)]
    simp [separated, spaceDue_value w v, toList_value w v, Value.joinedChars]

end

end Writer

/-- A value written on one line. -/
def Value.text (v : Value) : String := (Writer.empty.value v).text

/-- Values written on one line, separated by one space. -/
def Value.joinedText (vs : List Value) : String := (Writer.empty.values vs).text

/-- A printable written on one line. -/
def Printable.text (p : Printable) : String := (Writer.empty.printable p).text

/-- The text of a value holds its characters. -/
theorem Value.toList_text (v : Value) : v.text.toList = v.chars := by
  simp [Value.text, Writer.toList_value, Writer.separated, Writer.empty]

namespace Printable

mutual

/-- The values that a printable is written as. -/
def toValues : Printable → List Value
  | value v => [v]
  | located p _ => p.toValues
  | several ps => listToValues ps

/-- The values that printables are written as, one after another. -/
def listToValues : List Printable → List Value
  | [] => []
  | p :: ps => p.toValues ++ listToValues ps

end

end Printable

end MakerForms
