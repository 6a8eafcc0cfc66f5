import MakerForms.Sexpr.Printable
import MakerForms.Text.Width

set_option autoImplicit false

/-! # Values over several lines

For people to read, a list that does not fit on its line is broken: each of its items after the
first starts a new line, indented by two columns for each list around it. A list fits if it
ends, together with the closing parentheses that directly follow it, within the width. Inside a
list that fits nothing is broken. Values at top level are separated by an empty line.

Columns count from the last line break that the layout has put in; a line break inside a string
takes one column like any other character.

`Value.prettyText` and `Printable.prettyText` are what `to_string_pretty` gives.
-/

namespace MakerForms

namespace Value

mutual

/-- The number of columns that a value takes on one line. -/
def flatWidth : Value → Nat
  | .list items => joinedWidth items + 2
  | .symbol s => textWidth s.chars
  | .integer i => textWidth (Numeral.intChars i)
  | .string s => textWidth (Quoted.encode s.toList)
  | .character code => textWidth (characterChars code)

/-- The number of columns that several values take on one line. -/
def joinedWidth : List Value → Nat
  | [] => 0
  | [v] => v.flatWidth
  | v :: w :: vs => v.flatWidth + 1 + joinedWidth (w :: vs)

end

/-- The blanks at the start of a line inside `depth` lists. -/
def indentation (depth : Nat) : List Char := List.replicate (2 * depth) ' '

mutual

/-- The characters of a value that starts at `column`, inside `depth` lists, and is directly
followed by `closing` closing parentheses. -/
def layout (width depth column closing : Nat) : Value → List Char
  | .list items =>
    if column + (Value.list items).flatWidth + closing ≤ width then (Value.list items).chars
    else '(' :: (layoutItems width (depth + 1) (column + 1) closing items ++ [')'])
  | .symbol s => (Value.symbol s).chars
  | .integer i => (Value.integer i).chars
  | .string s => (Value.string s).chars
  | .character code => (Value.character code).chars

/-- The characters of the items of a broken list, the first of which starts at `column`. -/
def layoutItems (width depth column closing : Nat) : List Value → List Char
  | [] => []
  | [v] => layout width depth column (closing + 1) v
  | v :: w :: vs =>
    layout width depth column 0 v ++
      '\n' :: (indentation depth ++ layoutItems width depth (2 * depth) closing (w :: vs))

end

/-- The characters of values laid out one below the other. -/
def prettyChars (width : Nat) : List Value → List Char
  | [] => []
  | [v] => v.layout width 0 0 0
  | v :: w :: vs => v.layout width 0 0 0 ++ '\n' :: '\n' :: prettyChars width (w :: vs)

/-- Values laid out one below the other, in lines of `width` columns where possible. -/
def prettyText (width : Nat) (vs : List Value) : String := String.ofList (prettyChars width vs)

/-! ## Pieces of text -/

mutual

/-- The pieces of text that a value is written in; the width of each is measured by itself. -/
def pieces : Value → List (List Char)
  | .list items => ['('] :: (joinedPieces items ++ [[')']])
  | .symbol s => [s.chars]
  | .integer i => [Numeral.intChars i]
  | .string s => [Quoted.encode s.toList]
  | .character code => [characterChars code]

/-- The pieces of text that several values are written in. -/
def joinedPieces : List Value → List (List Char)
  | [] => []
  | [v] => v.pieces
  | v :: w :: vs => v.pieces ++ [' '] :: joinedPieces (w :: vs)

end

mutual

/-- The pieces of a value make up its characters. -/
theorem flatten_pieces : (v : Value) → v.pieces.flatten = v.chars
  | .symbol _ | .integer _ | .string _ | .character _ => by simp [pieces, chars]
  | .list items => by simp [pieces, chars, flatten_joinedPieces items]

theorem flatten_joinedPieces : (vs : List Value) → (joinedPieces vs).flatten = joinedChars vs
  | [] => rfl
  | [v] => by rw [joinedPieces, joinedChars, flatten_pieces v]
  | v :: w :: vs => by
    simp [joinedPieces, joinedChars, flatten_pieces v, flatten_joinedPieces (w :: vs)]

end

/-- The number of columns that pieces of text take. -/
def columns : List (List Char) → Nat
  | [] => 0
  | piece :: rest => textWidth piece + columns rest

theorem columns_append (ps qs : List (List Char)) :
    columns (ps ++ qs) = columns ps + columns qs := by
  induction ps with
  | nil => simp [columns]
  | cons p ps ih => rw [List.cons_append, columns, columns, ih, Nat.add_assoc]

mutual

/-- The columns of a value are those of its pieces. -/
theorem flatWidth_eq_columns : (v : Value) → v.flatWidth = columns v.pieces
  | .symbol _ | .integer _ | .string _ | .character _ => by simp [flatWidth, pieces, columns]
  | .list items => by
    have open' : textWidth ['('] = 1 := by decide
    have close : textWidth [')'] = 1 := by decide
    simp only [flatWidth, pieces, columns, columns_append, joinedWidth_eq_columns items, open',
      close]
    omega

theorem joinedWidth_eq_columns : (vs : List Value) → joinedWidth vs = columns (joinedPieces vs)
  | [] => rfl
  | [v] => by rw [joinedWidth, joinedPieces, flatWidth_eq_columns v]
  | v :: w :: vs => by
    have space : textWidth [' '] = 1 := by decide
    simp only [joinedWidth, joinedPieces, columns, columns_append, flatWidth_eq_columns v,
      joinedWidth_eq_columns (w :: vs), space]
    omega

end

end Value

/-- A printable laid out in lines of `width` columns where possible. -/
def Printable.prettyText (width : Nat) (p : Printable) : String :=
  Value.prettyText width p.toValues

end MakerForms
