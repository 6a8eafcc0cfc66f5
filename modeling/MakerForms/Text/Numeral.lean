set_option autoImplicit false

/-! # Decimal numerals

Numbers of any size are written in decimal without leading zeros, a minus sign before a
negative one. Reading allows leading zeros. `value_digits` says that what is written reads
back.

`Numeral.isNumeral` and `Numeral.intValue` are the pattern of integers of a `RawToken` and the
number that `next_token` takes from one; `Numeral.byte?` is how `open_paren` takes a code.
-/

namespace MakerForms.Numeral

/-- The character for a digit below ten. -/
def digitChar (d : Nat) : Char := Char.ofNat ('0'.toNat + d)

/-- The digit that a character stands for. -/
def digitValue (c : Char) : Nat := c.toNat - '0'.toNat

/-- The digits of `n` in front of `tail`. -/
def digitsOnto (n : Nat) (tail : List Char) : List Char :=
  if n < 10 then digitChar n :: tail else digitsOnto (n / 10) (digitChar (n % 10) :: tail)
termination_by n

/-- The decimal digits of a natural number. -/
def digits (n : Nat) : List Char := digitsOnto n []

/-- A natural number as text. -/
def ofNat (n : Nat) : String := String.ofList (digits n)

/-- The characters of an integer: a minus sign if it is negative, then its digits. -/
def intChars : Int → List Char
  | .ofNat n => digits n
  | .negSucc n => '-' :: digits (n + 1)

/-- An integer as text. -/
def ofInt (i : Int) : String := String.ofList (intChars i)

/-- The number that a run of digits stands for. -/
def value (cs : List Char) : Nat := cs.foldl (fun n c => 10 * n + digitValue c) 0

/-- Whether `cs` is a non-empty run of digits. -/
def isDigits (cs : List Char) : Bool := !cs.isEmpty && cs.all Char.isDigit

/-- Whether `cs` is a numeral: a non-empty run of digits behind at most one minus sign. -/
def isNumeral : List Char → Bool
  | '-' :: cs => isDigits cs
  | cs => isDigits cs

/-- The integer that a numeral stands for. -/
def intValue : List Char → Int
  | '-' :: cs => -(value cs : Int)
  | cs => value cs

/-- The byte that a run of digits stands for; there is none for a signed numeral or a number
above 255. -/
def byte? (cs : List Char) : Option UInt8 :=
  if isDigits cs && value cs < 256 then some (UInt8.ofNat (value cs)) else none

theorem digitValue_digitChar {d : Nat} (h : d < 10) : digitValue (digitChar d) = d := by
  have all : ∀ e < 10, digitValue (digitChar e) = e := by decide
  exact all d h

theorem foldl_digitsOnto (n : Nat) (tail : List Char) :
    ∃ scale, ∀ k, (digitsOnto n tail).foldl (fun n c => 10 * n + digitValue c) k =
      tail.foldl (fun n c => 10 * n + digitValue c) (scale * k + n) := by
  induction n, tail using digitsOnto.induct with
  | case1 n tail small =>
    refine ⟨10, fun k => ?_⟩
    rw [digitsOnto, if_pos small, List.foldl_cons, digitValue_digitChar small]
  | case2 n tail large ih =>
    obtain ⟨scale, hscale⟩ := ih
    refine ⟨10 * scale, fun k => ?_⟩
    rw [digitsOnto, if_neg large, hscale, List.foldl_cons,
      digitValue_digitChar (Nat.mod_lt n (by decide)), Nat.mul_add, Nat.mul_assoc, Nat.add_assoc,
      Nat.div_add_mod]

/-- Reading the digits of a number gives the number. -/
theorem value_digits (n : Nat) : value (digits n) = n := by
  obtain ⟨scale, h⟩ := foldl_digitsOnto n []
  simpa [value, digits] using h 0

end MakerForms.Numeral
