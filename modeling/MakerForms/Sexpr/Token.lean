import MakerForms.Sexpr.Lexeme
import MakerForms.Sexpr.Symbol
import MakerForms.Text.Numeral

set_option autoImplicit false

/-! # Tokens

What a lexeme means: a parenthesis, a symbol, an integer, a string, or a lexical fault. A word
is an integer if it is a numeral; any other word that starts like a number is a fault. The
remaining words are symbols: `:NAME`, `PACKAGE::NAME` or `NAME`. Characters are written as a
form of several lexemes, `(CODE-CHAR n)`; the scanner puts them together.

`wordSymbol?` is `split_symbol`, `LexFault` is `LexErrorKind`, and `LexError.message` is how a
`LexError` is displayed.
-/

namespace MakerForms

inductive Token
  | openParen
  | closeParen
  | symbol (s : Symbol)
  | integer (i : Int)
  | string (s : String)
  /-- A complete character literal. -/
  | character (code : UInt8)
deriving DecidableEq, Repr

/-- The ways in which a piece of text can fail to be a token. -/
inductive LexFault
  | unterminatedString
  | invalidEscape
  | malformedSymbol
  | malformedInteger
  | characterCode
  | unexpectedCharacter
deriving DecidableEq, Repr

def LexFault.message : LexFault → String
  | unterminatedString => "unterminated string"
  | invalidEscape => "invalid escape sequence in string"
  | malformedSymbol => "malformed symbol"
  | malformedInteger => "malformed integer"
  | characterCode => "malformed character literal"
  | unexpectedCharacter => "unexpected character"

/-- A lexical fault, the text it lies in and where that stands. -/
structure LexError where
  fault : LexFault
  lexeme : String
  span : Span
deriving DecidableEq, Repr

def LexError.message (e : LexError) : String :=
  e.fault.message ++ " `" ++ e.lexeme ++ "` at offset " ++ Numeral.ofNat e.span.start

/-- The texts before and behind the first double colon. -/
def splitPackage? : List Char → Option (List Char × List Char)
  | [] => none
  | ':' :: ':' :: name => some ([], name)
  | c :: cs => (splitPackage? cs).map fun (package, name) => (c :: package, name)

/-- The symbol that a word spells. -/
def wordSymbol? : List Char → Option Symbol
  | ':' :: name =>
    if Symbol.isName name then some (Symbol.keyword (String.ofList name)) else none
  | run =>
    match splitPackage? run with
    | some (package, name) =>
      if Symbol.isName package && Symbol.isName name then
        some (Symbol.qualified (String.ofList package) (String.ofList name))
      else none
    | none => if Symbol.isName run then some (Symbol.bare (String.ofList run)) else none

/-- The token that a word spells. -/
def wordToken (run : List Char) : Except LexFault Token :=
  if Numeral.isNumeral run then .ok (.integer (Numeral.intValue run))
  else if Symbol.startsLikeNumber run then .error .malformedInteger
  else
    match wordSymbol? run with
    | some s => .ok (.symbol s)
    | none => .error .malformedSymbol

/-- The token that a lexeme spells by itself. -/
def Lexeme.token : Lexeme → Except LexFault Token
  | openParen => .ok .openParen
  | closeParen => .ok .closeParen
  | quoted body =>
    match Quoted.resolve? body with
    | some cs => .ok (.string (String.ofList cs))
    | none => .error .invalidEscape
  | word run => wordToken run
  | unclosed _ => .error .unterminatedString
  | stray _ => .error .unexpectedCharacter

end MakerForms
