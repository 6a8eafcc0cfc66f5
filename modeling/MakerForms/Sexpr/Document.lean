import MakerForms.Sexpr.Printable
import MakerForms.Text.Width

set_option autoImplicit false

/-! # Documents

A document is a text that can be laid out in several ways. It says where a line may be broken, how
far the lines inside a part are indented, and which parts are groups: what is in a group stays on
one line if it fits there.

Documents are laid out from left to right. What is still to be written is a stack of tasks, each a
document with its indentation and its mode (`layOut`). A group that is met where lines are broken is
tried on one line first (`fits`). Every text of the group has to end within the width, and so has
every text behind it up to the next place where a line is broken.

The printer turns values into documents from the inside out. It keeps the documents of all that it
has printed; to complete a list it takes back those printed since the list was opened and puts them
between parentheses.

The printer is the `PrettyPrinter`, with `DocumentPrinter.closeList` as the end of its `list`.
Documents and their layout are what it asks of a layout library.
-/

namespace MakerForms

/-- A text that can be laid out on one line or over several. -/
inductive Document
  | empty
  | text (cs : List Char)
  /-- A space, or a line break where lines are broken. -/
  | line
  | append (d e : Document)
  /-- A part whose lines are indented by some more columns. -/
  | nest (columns : Nat) (d : Document)
  /-- A part that stays on one line if it fits there. -/
  | group (d : Document)

/-- How a part of a document is laid out: on one line, or broken at its lines. -/
inductive Mode
  | flat
  | broken
deriving DecidableEq, Repr

/-- What is put out when a document is laid out. -/
inductive Piece
  | text (cs : List Char)
  | space
  | newline (indent : Nat)
  /-- Marks where a group begins and says how it is laid out; nothing is written for it. -/
  | group (mode : Mode)
deriving DecidableEq, Repr

namespace Piece

/-- The characters that are written for a piece. -/
def chars : Piece → List Char
  | text cs => cs
  | space => [' ']
  | newline indent => '\n' :: List.replicate indent ' '
  | group _ => []

/-- The column behind a piece that starts at `column`. -/
def advance (column : Nat) : Piece → Nat
  | text cs => column + textWidth cs
  | space => column + 1
  | newline indent => indent
  | group _ => column

/-- The column behind pieces that start at `column`. -/
def columnBehind (column : Nat) (ps : List Piece) : Nat := ps.foldl advance column

/-- The characters that are written for pieces. -/
def allChars (ps : List Piece) : List Char := ps.flatMap chars

@[simp] theorem columnBehind_nil (column : Nat) : columnBehind column [] = column := rfl

@[simp] theorem columnBehind_cons (column : Nat) (p : Piece) (ps : List Piece) :
    columnBehind column (p :: ps) = columnBehind (p.advance column) ps := rfl

@[simp] theorem columnBehind_append (column : Nat) (ps qs : List Piece) :
    columnBehind column (ps ++ qs) = columnBehind (columnBehind column ps) qs := List.foldl_append

@[simp] theorem allChars_nil : allChars [] = [] := rfl

@[simp] theorem allChars_cons (p : Piece) (ps : List Piece) :
    allChars (p :: ps) = p.chars ++ allChars ps := List.flatMap_cons

@[simp] theorem allChars_append (ps qs : List Piece) :
    allChars (ps ++ qs) = allChars ps ++ allChars qs := List.flatMap_append

end Piece

/-! ## Laying out -/

namespace Document

/-- The number of constructors that a document is built from. -/
def size : Document → Nat
  | empty | text _ | line => 1
  | append d e => d.size + e.size + 1
  | nest _ d | group d => d.size + 1

/-- A document that is still to be written. -/
structure Task where
  indent : Nat
  mode : Mode
  document : Document

/-- The task with its lines broken. -/
def Task.breaking (t : Task) : Task := { t with mode := .broken }

/-- The size of all documents that are still to be written. -/
def workload : List Task → Nat
  | [] => 0
  | t :: tasks => t.document.size + workload tasks

/-- Whether all texts up to the next line break, or up to the end, fit in lines of `width` columns
if the first starts at `column`. -/
def fits (width column : Nat) : List Task → Bool
  | [] => true
  | ⟨_, _, .empty⟩ :: tasks => fits width column tasks
  | ⟨_, _, .text cs⟩ :: tasks =>
    decide (column + textWidth cs ≤ width) && fits width (column + textWidth cs) tasks
  | ⟨_, .flat, .line⟩ :: tasks => decide (column + 1 ≤ width) && fits width (column + 1) tasks
  | ⟨_, .broken, .line⟩ :: _ => true
  | ⟨i, m, .append d e⟩ :: tasks => fits width column (⟨i, m, d⟩ :: ⟨i, m, e⟩ :: tasks)
  | ⟨i, m, .nest n d⟩ :: tasks => fits width column (⟨i + n, m, d⟩ :: tasks)
  | ⟨i, m, .group d⟩ :: tasks => fits width column (⟨i, m, d⟩ :: tasks)
termination_by tasks => workload tasks
decreasing_by all_goals simp only [workload, size]; omega

/-- How a group is laid out that starts at `column` and is followed by `tasks`. On a line that is
not broken it is not tried. -/
def groupMode (width column : Nat) (t : Task) (tasks : List Task) : Mode :=
  match t.mode with
  | .flat => .flat
  | .broken =>
    if fits width column ({ t with mode := .flat } :: tasks.map Task.breaking) then .flat
    else .broken

/-- Carries out the tasks, the first of which starts at `column`, in lines of `width` columns where
possible. -/
def layOut (width column : Nat) : List Task → List Piece
  | [] => []
  | ⟨_, _, .empty⟩ :: tasks => layOut width column tasks
  | ⟨_, _, .text cs⟩ :: tasks => .text cs :: layOut width (column + textWidth cs) tasks
  | ⟨_, .flat, .line⟩ :: tasks => .space :: layOut width (column + 1) tasks
  | ⟨i, .broken, .line⟩ :: tasks => .newline i :: layOut width i tasks
  | ⟨i, m, .append d e⟩ :: tasks => layOut width column (⟨i, m, d⟩ :: ⟨i, m, e⟩ :: tasks)
  | ⟨i, m, .nest n d⟩ :: tasks => layOut width column (⟨i + n, m, d⟩ :: tasks)
  | ⟨i, m, .group d⟩ :: tasks =>
    let mode := groupMode width column ⟨i, m, d⟩ tasks
    .group mode :: layOut width column (⟨i, mode, d⟩ :: tasks)
termination_by tasks => workload tasks
decreasing_by all_goals simp only [workload, size]; omega

/-- The pieces of a document in lines of `width` columns where possible. -/
def render (width : Nat) (d : Document) : List Piece := layOut width 0 [⟨0, .broken, d⟩]

/-- Documents one after another with a separator between any two. -/
def intersperse (separator : Document) : List Document → Document
  | [] => .empty
  | d :: ds => ds.foldl (fun joined e => (joined.append separator).append e) d

/-- Documents between parentheses, on one line if they fit there. -/
def parenthesized (ds : List Document) : Document :=
  ((text ['(']).append (group (nest 2 (intersperse line ds)))).append (text [')'])

end Document

/-! ## Printing documents -/

/-- A printer of documents: those of all that it has printed. -/
structure DocumentPrinter where
  items : List Document

namespace DocumentPrinter

/-- The printer that has printed nothing. -/
def empty : DocumentPrinter := ⟨[]⟩

/-- Prints a piece of text. -/
def atom (p : DocumentPrinter) (cs : List Char) : DocumentPrinter := ⟨p.items ++ [.text cs]⟩

/-- Makes one list of what has been printed behind the first `position` documents. -/
def closeList (p : DocumentPrinter) (position : Nat) : DocumentPrinter :=
  ⟨p.items.take position ++ [.parenthesized (p.items.drop position)]⟩

mutual

/-- Prints a value. -/
def value (p : DocumentPrinter) : Value → DocumentPrinter
  | .symbol s => p.atom s.chars
  | .list items => (p.values items).closeList p.items.length
  | .integer i => p.atom (Numeral.intChars i)
  | .string s => p.atom (Quoted.encode s.toList)
  | .character code => p.atom (Value.characterChars code)

/-- Prints values one after another. -/
def values (p : DocumentPrinter) : List Value → DocumentPrinter
  | [] => p
  | v :: vs => (p.value v).values vs

end

mutual

/-- Prints a printable. -/
def printable (p : DocumentPrinter) : Printable → DocumentPrinter
  | .value v => p.value v
  | .located q _ => p.printable q
  | .several qs => p.printables qs

/-- Prints printables one after another. -/
def printables (p : DocumentPrinter) : List Printable → DocumentPrinter
  | [] => p
  | q :: qs => (p.printable q).printables qs

end

end DocumentPrinter

/-- The document of a printable: its values with an empty line between any two. -/
def Printable.document (p : Printable) : Document :=
  .intersperse (.append .line .line) (DocumentPrinter.empty.printable p).items

/-! ## What is printed -/

namespace Value

mutual

/-- The document of a value. -/
def document : Value → Document
  | .list items => .parenthesized (documents items)
  | .symbol s => .text s.chars
  | .integer i => .text (Numeral.intChars i)
  | .string s => .text (Quoted.encode s.toList)
  | .character code => .text (characterChars code)

/-- The documents of values. -/
def documents : List Value → List Document
  | [] => []
  | v :: vs => v.document :: documents vs

end

theorem documents_eq_map (vs : List Value) : documents vs = vs.map document := by
  induction vs with
  | nil => rfl
  | cons v vs ih => rw [documents, ih, List.map_cons]

end Value

namespace DocumentPrinter

mutual

/-- Printing a value adds its document. -/
theorem items_value (p : DocumentPrinter) :
    (v : Value) → (p.value v).items = p.items ++ [v.document]
  | .symbol _ | .integer _ | .string _ | .character _ => by
    simp only [value, atom, Value.document]
  | .list items => by
    rw [value, closeList, items_values p items, List.take_left, List.drop_left, Value.document]

theorem items_values (p : DocumentPrinter) :
    (vs : List Value) → (p.values vs).items = p.items ++ Value.documents vs
  | [] => by rw [values, Value.documents, List.append_nil]
  | v :: vs => by
    rw [values, items_values (p.value v) vs, items_value p v, Value.documents, List.append_assoc,
      List.singleton_append]

end

mutual

/-- Printing a printable adds the documents of its values. -/
theorem items_printable (p : DocumentPrinter) : (q : Printable) →
    (p.printable q).items = p.items ++ Value.documents q.toValues
  | .value v => items_value p v
  | .located q _ => items_printable p q
  | .several qs => items_printables p qs

theorem items_printables (p : DocumentPrinter) : (qs : List Printable) →
    (p.printables qs).items = p.items ++ Value.documents (Printable.listToValues qs)
  | [] => by rw [printables, Printable.listToValues, Value.documents, List.append_nil]
  | q :: qs => by
    rw [printables, items_printables (p.printable q) qs, items_printable p q,
      Printable.listToValues]
    simp only [Value.documents_eq_map, List.map_append, List.append_assoc]

end

end DocumentPrinter

/-- The document of a printable is made of those of its values. -/
theorem Printable.document_eq (p : Printable) :
    p.document = .intersperse (.append .line .line) (Value.documents p.toValues) := by
  rw [document, DocumentPrinter.items_printable, DocumentPrinter.empty, List.nil_append]

end MakerForms
