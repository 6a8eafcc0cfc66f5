set_option autoImplicit false

/-! # Sets of characters given by ranges of codes

Properties of characters that follow no rule are given by a table: a list of ranges of codes,
both ends included.

The tables of widths and of quoting are of this form.
-/

namespace MakerForms

/-- Whether `c` lies in one of the ranges of `table`. -/
def inRanges (table : List (Nat × Nat)) (c : Char) : Bool :=
  table.any fun range => range.1 ≤ c.toNat && c.toNat ≤ range.2

end MakerForms
