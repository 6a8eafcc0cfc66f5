import MakerForms.Text.Ranges

set_option autoImplicit false

/-! # Characters that may be left out

Some characters only say how others are to be shown. Where that is not understood they are left
out (Unicode property `Default_Ignorable_Code_Point`, version 17).

This serves to quote strings in messages (`Literal.encode`), and to measure the width of texts.
-/

namespace MakerForms

/-- Codes of the characters that may be left out. -/
def ignorableRanges : List (Nat × Nat) :=
  [(0xAD, 0xAD), (0x34F, 0x34F), (0x61C, 0x61C), (0x115F, 0x1160), (0x17B4, 0x17B5),
  (0x180B, 0x180F), (0x200B, 0x200F), (0x202A, 0x202E), (0x2060, 0x206F), (0x3164, 0x3164),
  (0xFE00, 0xFE0F), (0xFEFF, 0xFEFF), (0xFFA0, 0xFFA0), (0xFFF0, 0xFFF8), (0x1BCA0, 0x1BCA3),
  (0x1D173, 0x1D17A), (0xE0000, 0xE0FFF)]

/-- Whether a character may be left out. -/
def isIgnorable (c : Char) : Bool := inRanges ignorableRanges c

end MakerForms
