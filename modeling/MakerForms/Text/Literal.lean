import MakerForms.Text.Combining
import MakerForms.Text.Ignorable
import MakerForms.Text.Invisible

set_option autoImplicit false

/-! # Strings in messages

Messages and outlines show a string so that each of its characters can be seen: between double
quotes, with the usual short escapes for quote, backslash, tab, line ends and the null
character. A character without a shape, or one that would join the character before it or may be
left out, is written by its code in hexadecimal.

`Literal.encode` is the debug form of a string, which `new` of an `Identifier` puts into its
error.
-/

namespace MakerForms.Literal

/-- The code of a character in braces, in lower-case hexadecimal digits. -/
def codeEscape (c : Char) : List Char :=
  "\\u\x7b".toList ++ Nat.toDigits 16 c.toNat ++ ['\x7d']

/-- One character as it is shown between quotes. -/
def showChar (c : Char) : List Char :=
  if c = '"' then ['\\', '"']
  else if c = '\\' then ['\\', '\\']
  else if c = '\x00' then ['\\', '0']
  else if c = '\t' then ['\\', 't']
  else if c = '\r' then ['\\', 'r']
  else if c = '\n' then ['\\', 'n']
  else if isCombining c || isIgnorable c || isInvisible c then codeEscape c
  else [c]

/-- A string as it is shown in a message. -/
def encode (s : String) : String :=
  String.ofList ('"' :: (s.toList.flatMap showChar ++ ['"']))

end MakerForms.Literal
