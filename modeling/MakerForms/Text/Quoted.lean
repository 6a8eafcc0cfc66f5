set_option autoImplicit false

/-! # Quoted strings

A string is written between double quotes, with a backslash before each quote and each
backslash it contains and every other character as it is. A reader of the written form
treats a backslash as escaping the next character, whatever it is.

On input more is allowed: `\n`, `\r` and `\t` name control characters, and `\u` with four
hexadecimal digits names a character by a code up to 255. Any other character behind a
backslash is refused. `resolve_escape` says that what is written reads back.

`Quoted.encode` is `escape_string`, `Quoted.resolve?` is `unescape`, and `Quoted.coded?` is
`parse_code`.
-/

namespace MakerForms.Quoted

/-- The text between the quotes: a backslash stands before each quote and each backslash. -/
def escape : List Char → List Char
  | [] => []
  | c :: cs => if c = '"' ∨ c = '\\' then '\\' :: c :: escape cs else c :: escape cs

/-- A string literal: the escaped text between two quotes. -/
def encode (cs : List Char) : List Char := '"' :: (escape cs ++ ['"'])

/-- The character that a backslash and one more character stand for. -/
def named? : Char → Option Char
  | 'n' => some '\n'
  | 'r' => some '\r'
  | 't' => some '\t'
  | '"' => some '"'
  | '\\' => some '\\'
  | _ => none

/-- The value of a hexadecimal digit of either case. -/
def hexDigit? (c : Char) : Option Nat :=
  if '0' ≤ c ∧ c ≤ '9' then some (c.toNat - '0'.toNat)
  else if 'a' ≤ c ∧ c ≤ 'f' then some (c.toNat - 'a'.toNat + 10)
  else if 'A' ≤ c ∧ c ≤ 'F' then some (c.toNat - 'A'.toNat + 10)
  else none

/-- The character with the code that four hexadecimal digits spell, if it is at most 255. -/
def coded? (a b c d : Char) : Option Char :=
  match hexDigit? a, hexDigit? b, hexDigit? c, hexDigit? d with
  | some a, some b, some c, some d =>
    let code := ((a * 16 + b) * 16 + c) * 16 + d
    if code ≤ 255 then some (Char.ofNat code) else none
  | _, _, _, _ => none

/-- The string that a text between quotes stands for; `none` if some backslash starts no
escape. -/
def resolve? : List Char → Option (List Char)
  | [] => some []
  | '\\' :: 'u' :: a :: b :: c :: d :: rest =>
    match coded? a b c d with
    | some x => (resolve? rest).map (x :: ·)
    | none => none
  | '\\' :: c :: rest =>
    match named? c with
    | some x => (resolve? rest).map (x :: ·)
    | none => none
  | c :: rest => if c = '\\' then none else (resolve? rest).map (c :: ·)

theorem resolve_escape (cs : List Char) : resolve? (escape cs) = some cs := by
  induction cs with
  | nil => rfl
  | cons c cs ih =>
    by_cases quote : c = '"'
    · subst quote
      simp [escape, resolve?, named?, ih]
    by_cases backslash : c = '\\'
    · subst backslash
      simp [escape, resolve?, named?, ih]
    · simp [escape, resolve?, quote, backslash, ih]

end MakerForms.Quoted
