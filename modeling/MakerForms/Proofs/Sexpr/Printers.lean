import MakerForms.Proofs.Sexpr.DocumentLayout
import MakerForms.Proofs.Sexpr.PrintRead

set_option autoImplicit false

/-! # Printers

What is printed is handed to a printer piece by piece. A printer is a state and what is done to it
for each kind of piece (`Printer`). For the one that writes on one line, the state is the text so
far and whether a space is due. For the one that makes documents, it is a stack of them. Neither can
fail.

Things are handed to any printer in the same way: a value by its pieces, the items of a list while
the list is open, a thing behind a handle or in a place as what it is, and a vector as its items one
after another, with nothing around them (`Printer.print`). So a printer is handed the values in a
thing and nothing more (`Printer.print_eq_values`). A vector without values does nothing to its
state, so it leaves no space that is due and no document. Hence the text on one line is made of the
texts of the values with one space between any two, and the layout is that of the values
(`PrintType.printed_as_its_values`).
-/

namespace MakerForms

/-! ## Two printers -/

/-- A printer: what it does with each piece. A list is given by what prints its items. -/
structure Printer (σ : Type) where
  symbol : Symbol → σ → σ
  string : String → σ → σ
  integer : Int → σ → σ
  character : UInt8 → σ → σ
  list : (σ → σ) → σ → σ

/-- The printer that writes on one line. -/
def Writer.printer : Printer Writer where
  symbol s w := w.atom s.chars
  string s w := w.atom (Quoted.encode s.toList)
  integer i w := w.atom (Numeral.intChars i)
  character code w := w.atom (Value.characterChars code)
  list items w := (items w.openList).closeList

/-- The printer that makes documents. -/
def DocumentPrinter.printer : Printer DocumentPrinter where
  symbol s p := p.atom s.chars
  string s p := p.atom (Quoted.encode s.toList)
  integer i p := p.atom (Numeral.intChars i)
  character code p := p.atom (Value.characterChars code)
  list items p := (items p).closeList p.items.length

/-! ## Things that are printed -/

/-- A handle through which a thing is reached. -/
inductive Handle
  | reference
  | box
  | counted
  | sharedCounted

/-- A thing behind a handle. -/
structure Held (h : Handle) (α : Type) where
  content : α

/-- A type of things that are printed. -/
inductive PrintType
  | value
  | held (h : Handle) (T : PrintType)
  | located (T : PrintType)
  | vector (T : PrintType)

namespace PrintType

/-- The things of a type. -/
@[reducible] def Thing : PrintType → Type
  | value => Value
  | held h T => Held h T.Thing
  | located T => Located T.Thing
  | vector T => List T.Thing

/-- The values in a thing, in their order. -/
def values : (T : PrintType) → T.Thing → List Value
  | value, v => [v]
  | held _ T, x => T.values x.content
  | located T, x => T.values x.value
  | vector T, xs => xs.flatMap T.values

/-- The printable that a thing is. -/
def printable : (T : PrintType) → T.Thing → Printable
  | value, v => .value v
  | held _ T, x => T.printable x.content
  | located T, x => .located (T.printable x.value) x.span
  | vector T, xs => .several (xs.map T.printable)

theorem values_vector_value (vs : List Value) : (vector value).values vs = vs :=
  List.flatMap_singleton' vs

theorem toValues_printable (T : PrintType) (x : T.Thing) :
    (T.printable x).toValues = T.values x := by
  induction T with
  | value => rfl
  | held h T ih => exact ih x.content
  | located T ih => exact ih x.value
  | vector T ih =>
      rw [printable, Printable.toValues, values]
      induction x with
      | nil => rfl
      | cons x xs ihxs =>
          rw [List.map_cons, Printable.listToValues, ih x, ihxs, List.flatMap_cons]

end PrintType

/-! ## Printing -/

namespace Printer

section Printing

variable {σ : Type} (P : Printer σ)

mutual

/-- Prints a value. -/
def value : Value → σ → σ
  | .symbol s => P.symbol s
  | .list items => P.list (values items)
  | .integer i => P.integer i
  | .string s => P.string s
  | .character code => P.character code

/-- Prints values one after another. -/
def values : List Value → σ → σ
  | [], state => state
  | v :: vs, state => values vs (value v state)

end

/-- Prints a thing. -/
def print : (T : PrintType) → T.Thing → σ → σ
  | .value, v, state => P.value v state
  | .held _ T, x, state => print T x.content state
  | .located T, x, state => print T x.value state
  | .vector T, xs, state => xs.foldl (fun state x => print T x state) state

theorem values_append (us vs : List Value) (state : σ) :
    P.values (us ++ vs) state = P.values vs (P.values us state) := by
  induction us generalizing state with
  | nil => rfl
  | cons u us ih => rw [List.cons_append, values, values, ih]

/-- A printer gets the values in a thing, and nothing more. -/
theorem print_eq_values (T : PrintType) (x : T.Thing) (state : σ) :
    P.print T x state = P.values (T.values x) state := by
  induction T generalizing state with
  | value => rw [print, PrintType.values, values, values]
  | held h T ih => exact ih x.content state
  | located T ih => exact ih x.value state
  | vector T ih =>
      rw [print, PrintType.values]
      induction x generalizing state with
      | nil => rfl
      | cons x xs ihxs =>
          rw [List.foldl_cons, ih x, ihxs, List.flatMap_cons, values_append]

end Printing

mutual

theorem value_writer (w : Writer) : (v : Value) → Writer.printer.value v w = w.value v
  | .symbol _ | .integer _ | .string _ | .character _ => by
      rw [value, Writer.value, Writer.printer]
  | .list items => by
      have hitems := values_writer w.openList items
      rw [value, Writer.value, ← hitems]
      rfl

theorem values_writer (w : Writer) : (vs : List Value) → Writer.printer.values vs w = w.values vs
  | [] => by rw [values, Writer.values]
  | v :: vs => by rw [values, Writer.values, value_writer w v, values_writer (w.value v) vs]

end

mutual

theorem value_documentPrinter (p : DocumentPrinter) :
    (v : Value) → DocumentPrinter.printer.value v p = p.value v
  | .symbol _ | .integer _ | .string _ | .character _ => by
      rw [value, DocumentPrinter.value, DocumentPrinter.printer]
  | .list items => by
      have hitems := values_documentPrinter p items
      rw [value, DocumentPrinter.value, ← hitems]
      rfl

theorem values_documentPrinter (p : DocumentPrinter) :
    (vs : List Value) → DocumentPrinter.printer.values vs p = p.values vs
  | [] => by rw [values, DocumentPrinter.values]
  | v :: vs => by
      rw [values, DocumentPrinter.values, value_documentPrinter p v,
        values_documentPrinter (p.value v) vs]

end

end Printer

/-! ## What the writer writes -/

namespace Writer

theorem values_append (w : Writer) (us vs : List Value) :
    w.values (us ++ vs) = (w.values us).values vs := by
  have happend := printer.values_append us vs w
  rwa [Printer.values_writer, Printer.values_writer, Printer.values_writer] at happend

mutual

/-- A printable is written as its values. -/
theorem printable_eq_values (w : Writer) : (p : Printable) → w.printable p = w.values p.toValues
  | .value v => by rw [printable, Printable.toValues, values, values]
  | .located p _ => by rw [printable, Printable.toValues, printable_eq_values w p]
  | .several ps => by rw [printable, Printable.toValues, printables_eq_values w ps]

theorem printables_eq_values (w : Writer) :
    (ps : List Printable) → w.printables ps = w.values (Printable.listToValues ps)
  | [] => by rw [printables, Printable.listToValues, values]
  | p :: ps => by
      rw [printables, Printable.listToValues, values_append, printable_eq_values w p,
        printables_eq_values (w.values p.toValues) ps]

end

end Writer

namespace Value

mutual

/-- The text of a value on one line: for a list, the texts of its items with one space between any
two, between parentheses. -/
def oneLine : Value → String
  | .symbol s => s.text
  | .list items => "(" ++ " ".intercalate (oneLines items) ++ ")"
  | .integer i => Numeral.ofInt i
  | .string s => String.ofList (Quoted.encode s.toList)
  | .character code => String.ofList (characterChars code)

/-- The texts of values. -/
def oneLines : List Value → List String
  | [] => []
  | v :: vs => v.oneLine :: oneLines vs

end

theorem oneLines_eq_map (vs : List Value) : oneLines vs = vs.map oneLine := by
  induction vs with
  | nil => rfl
  | cons v vs ih => rw [oneLines, ih, List.map_cons]

mutual

theorem toList_oneLine : (v : Value) → v.oneLine.toList = v.chars
  | .symbol _ | .integer _ | .string _ | .character _ => by
      simp [oneLine, chars, Symbol.text, Numeral.ofInt]
  | .list items => by simp [oneLine, chars, toList_intercalate_oneLines items]

theorem toList_intercalate_oneLines :
    (vs : List Value) → (" ".intercalate (oneLines vs)).toList = joinedChars vs
  | [] => rfl
  | [v] => by rw [oneLines, oneLines, String.intercalate_singleton, toList_oneLine v, joinedChars]
  | v :: w :: vs => by
      have hrest := toList_intercalate_oneLines (w :: vs)
      rw [oneLines] at hrest
      rw [oneLines, oneLines, String.intercalate_cons_cons, String.toList_append,
        String.toList_append, toList_oneLine v, hrest, joinedChars]
      simp

end

/-- Values are written as their texts, with one space between any two. -/
theorem joinedText_eq_intercalate (vs : List Value) :
    joinedText vs = " ".intercalate (vs.map oneLine) := by
  rw [← String.toList_inj, toList_joinedText, ← oneLines_eq_map, toList_intercalate_oneLines]

end Value

/-! ## Texts and layouts of things -/

namespace PrintType

/-- A thing printed on one line. -/
def text (T : PrintType) (x : T.Thing) : String := (Writer.printer.print T x .empty).text

/-- A thing printed in lines of `width` columns where possible: the documents that have been printed
are laid out with an empty line between any two. -/
def prettyText (T : PrintType) (width : Nat) (x : T.Thing) : String :=
  let printed := DocumentPrinter.printer.print T x .empty
  let whole := Document.intersperse (.append .line .line) printed.items
  String.ofList (Piece.allChars (whole.render width))

/-- A thing is printed on one line as the values in it. -/
theorem text_eq_joinedText (T : PrintType) (x : T.Thing) :
    T.text x = Value.joinedText (T.values x) := by
  rw [text, Printer.print_eq_values, Printer.values_writer, Value.joinedText]

theorem prettyText_eq (T : PrintType) (width : Nat) (x : T.Thing) :
    T.prettyText width x = (T.printable x).prettyText width := by
  rw [prettyText, Printer.print_eq_values, Printer.values_documentPrinter,
    DocumentPrinter.items_values, ← toValues_printable, Printable.prettyText_eq_render,
    Printable.document_eq]
  rfl

/-- **Things are printed as the values in them.** Let values be held, located and put into vectors
in whatever order and however deep, with vectors that are empty or hold empty ones. Printed on one
line, this gives the texts of all the values with one space between any two, and the text of a list
is made in the same way from those of its items. Laid out for any width, it gives what the values
give in one vector. Both are what the library writes for the printable. -/
theorem printed_as_its_values (T : PrintType) (x : T.Thing) :
    T.text x = " ".intercalate ((T.values x).map Value.oneLine) ∧
    (∀ items, (Value.list items).oneLine
      = "(" ++ " ".intercalate (items.map Value.oneLine) ++ ")") ∧
    (∀ width, T.prettyText width x = (vector value).prettyText width (T.values x)) ∧
    T.text x = (T.printable x).text ∧
    ∀ width, T.prettyText width x = (T.printable x).prettyText width := by
  refine ⟨?_, fun items => ?_, fun width => ?_, ?_, fun width => prettyText_eq T width x⟩
  · rw [text_eq_joinedText, Value.joinedText_eq_intercalate]
  · rw [Value.oneLine, Value.oneLines_eq_map]
  · rw [prettyText, prettyText, Printer.print_eq_values, Printer.print_eq_values,
      values_vector_value]
  · rw [text_eq_joinedText, Printable.text, Writer.printable_eq_values, toValues_printable,
      Value.joinedText]

/-- Empty vectors leave no space behind, and an empty list is a value like any other. -/
example : (vector (vector (held .box value))).text [[], [⟨.list []⟩, ⟨.nil⟩], []] = "() NIL" :=
  rfl

end PrintType

end MakerForms
