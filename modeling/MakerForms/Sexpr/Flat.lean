import MakerForms.Sexpr.Value
import MakerForms.Text.Numeral
import MakerForms.Text.Quoted

set_option autoImplicit false

/-! # The characters of a value on one line

An atom is one piece of text. A list stands between parentheses, its items separated by one
space. Nothing else is added, so the text is what another program reads.

`Value.chars` is what `to_string` gives for a value, and `characterChars` is `character_literal`.
-/

namespace MakerForms

namespace Value

/-- A character literal: its code in a form headed by `CODE-CHAR`. -/
def characterChars (code : UInt8) : List Char :=
  '(' :: (Symbol.codeChar.toList ++ ' ' :: (Numeral.digits code.toNat ++ [')']))

mutual

/-- The characters of a value on one line. -/
def chars : Value → List Char
  | .symbol s => s.chars
  | .list items => '(' :: (joinedChars items ++ [')'])
  | .integer i => Numeral.intChars i
  | .string s => Quoted.encode s.toList
  | .character code => characterChars code

/-- The characters of several values on one line, separated by one space. -/
def joinedChars : List Value → List Char
  | [] => []
  | [v] => v.chars
  | v :: w :: vs => v.chars ++ ' ' :: joinedChars (w :: vs)

end

end Value

end MakerForms
