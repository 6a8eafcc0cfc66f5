import MakerForms.Text.CharWidth

set_option autoImplicit false

/-! # Ligatures

In some scripts two or three letters are drawn as one and take the columns of one. A text is
measured from its end to its start, so a ligature is recognised from its last letter: a tail is
what has been seen of it, and a letter in front of a tail completes the ligature, makes a longer
tail, or has nothing to do with it.

Ignorable marks between the parts do not hinder a ligature, and neither do joiners, but in
Arabic, where any transparent mark may stand between the two letters.

This is a part of the width by which `to_string_pretty` measures texts.
-/

namespace MakerForms

/-- The zero-width joiner. -/
def joiner : Char := '\u200D'

/-- Codes of the characters without a width that are not transparent to the joining of Arabic
letters (Unicode property `Joining_Type`). -/
def opaqueRanges : List (Nat × Nat) :=
  [(0x605, 0x605), (0x890, 0x891), (0x8E2, 0x8E2), (0x9BE, 0x9BE), (0x9D7, 0x9D7), (0xB3E, 0xB3E),
  (0xB57, 0xB57), (0xBBE, 0xBBE), (0xBD7, 0xBD7), (0xCC0, 0xCC0), (0xCC2, 0xCC2), (0xCC7, 0xCC8),
  (0xCCA, 0xCCB), (0xCD5, 0xCD6), (0xD3E, 0xD3E), (0xD4E, 0xD4E), (0xD57, 0xD57), (0xDCF, 0xDCF),
  (0xDDF, 0xDDF), (0x1160, 0x11FF), (0x1715, 0x1715), (0x1734, 0x1734), (0x180E, 0x180E),
  (0x1B35, 0x1B35), (0x1B3B, 0x1B3B), (0x1B3D, 0x1B3D), (0x1B43, 0x1B44), (0x1BAA, 0x1BAA),
  (0x1BF2, 0x1BF3), (0x200C, 0x200D), (0x2065, 0x2069), (0x302E, 0x302F), (0x3164, 0x3164),
  (0xA8FA, 0xA8FA), (0xA953, 0xA953), (0xA9C0, 0xA9C0), (0xD7B0, 0xD7C6), (0xD7CB, 0xD7FB),
  (0xFFA0, 0xFFA0), (0xFFF0, 0xFFF8), (0x111C0, 0x111C0), (0x111C2, 0x111C3), (0x11235, 0x11235),
  (0x1133E, 0x1133E), (0x1134D, 0x1134D), (0x11357, 0x11357), (0x113B8, 0x113B8),
  (0x113C2, 0x113C2), (0x113C5, 0x113C5), (0x113C7, 0x113C9), (0x113CF, 0x113CF),
  (0x113D1, 0x113D1), (0x114B0, 0x114B0), (0x114BD, 0x114BD), (0x115AF, 0x115AF),
  (0x116B6, 0x116B6), (0x11930, 0x11930), (0x1193D, 0x1193D), (0x1193F, 0x1193F),
  (0x11941, 0x11941), (0x11A84, 0x11A89), (0x11D46, 0x11D46), (0x11F02, 0x11F02),
  (0x11F41, 0x11F41), (0x16FF0, 0x16FF1), (0x1D165, 0x1D166), (0x1D16D, 0x1D172),
  (0xE0000, 0xE0000), (0xE0002, 0xE001F), (0xE0080, 0xE00FF), (0xE01F0, 0xE0FFF)]

/-- Whether a character may stand between Arabic letters that are drawn as one. -/
def isTransparent (c : Char) : Bool := charWidth c == 0 && !inRanges opaqueRanges c

/-- Whether a character is an ignorable mark. -/
def isIgnorableMark (c : Char) : Bool :=
  inRanges [(0x34F, 0x34F), (0x17B4, 0x17B5), (0x180B, 0x180D), (0x180F, 0x180F),
    (0xFE00, 0xFE0F), (0xE0100, 0xE01EF)] c

/-- Whether a character is an Arabic letter of the shape of alef. -/
def isAlef (c : Char) : Bool :=
  inRanges [(0x622, 0x623), (0x625, 0x625), (0x627, 0x627), (0x671, 0x673), (0x675, 0x675),
    (0x773, 0x774), (0x870, 0x882)] c

/-- Whether a character is an Arabic letter of the shape of lam. -/
def isLam (c : Char) : Bool :=
  inRanges [(0x644, 0x644), (0x6B5, 0x6B8), (0x76A, 0x76A), (0x8A6, 0x8A6), (0x8C7, 0x8C7)] c

/-- Whether a character is a Khmer letter that can be written below another. -/
def isSubscriptLetter (c : Char) : Bool :=
  inRanges [(0x1780, 0x1782), (0x1784, 0x1787), (0x1789, 0x178C), (0x178E, 0x1793),
    (0x1795, 0x1798), (0x179B, 0x179D), (0x17A0, 0x17A0), (0x17A2, 0x17A2), (0x17A7, 0x17A7),
    (0x17AB, 0x17AC), (0x17AF, 0x17AF)] c

/-- Whether a character is a Tifinagh consonant. -/
def isTifinagh (c : Char) : Bool := inRanges [(0x2D31, 0x2D65), (0x2D6F, 0x2D6F)] c

/-- What has been seen of a ligature, from its end. Where it matters, `joined` says whether a
joiner stands in front of the letter. -/
inductive Ligature
  | alef
  | lamed (joined : Bool)
  /-- The Buginese letter ya. -/
  | ya (joined : Bool)
  /-- The Buginese vowel sign i and a joined ya. -/
  | signYa
  | tifinagh (joined : Bool)
  /-- The consonant joiner and a Tifinagh consonant. -/
  | joinerTifinagh
  /-- The second part of a tone letter of Lisu. -/
  | tone
  /-- The Orkhon letter i. -/
  | orkhonI (joined : Bool)
  /-- A Khmer letter that can be written below another. -/
  | subscriptLetter
  /-- The vowel sign e of Kirat Rai. -/
  | vowelE
  /-- The vowel sign ai of Kirat Rai, which is e twice. -/
  | vowelAi
deriving DecidableEq, Repr

namespace Ligature

/-- The ligature that a character may be the end of. -/
def ofLast? (c : Char) : Option Ligature :=
  if isAlef c then some alef
  else if c = '\u05DC' then some (lamed false)
  else if c = '\u1A10' then some (ya false)
  else if isTifinagh c then some (tifinagh false)
  else if c = '\uA4FC' ∨ c = '\uA4FD' then some tone
  else if c.toNat = 0x10C03 then some (orkhonI false)
  else if isSubscriptLetter c then some subscriptLetter
  else if c.toNat = 0x16D67 then some vowelE
  else if c.toNat = 0x16D68 then some vowelAi
  else none

/-- Whether marks and selectors leave a tail as it is. -/
def admitsMarks : Ligature → Bool
  | vowelE | vowelAi => false
  | _ => true

/-- A tail with a joiner in front of it. -/
def withJoiner : Ligature → Ligature
  | lamed _ => lamed true
  | ya _ => ya true
  | tifinagh _ => tifinagh true
  | orkhonI _ => orkhonI true
  | l => l

/-- What a letter in front of a tail adds to the columns, and the longer tail, if there is one;
`none` if the letter is no part of the ligature. -/
def extend? (c : Char) : Ligature → Option (Int × Option Ligature)
  | alef =>
    if isLam c then some (0, none) else if isTransparent c then some (0, some alef) else none
  | lamed true => if c = '\u05D0' then some (0, none) else none
  | lamed false => none
  | ya true => if c = '\u1A17' then some (0, some signYa) else none
  | ya false => none
  | signYa => if c = '\u1A15' then some (0, none) else none
  | tifinagh joined =>
    if c = '\u2D7F' then some (1, some joinerTifinagh)
    else if joined && isTifinagh c then some (0, none)
    else none
  | joinerTifinagh => if isTifinagh c then some (-1, none) else none
  | tone => if inRanges [(0xA4F8, 0xA4FB)] c then some (0, none) else none
  | orkhonI true => if c.toNat = 0x10C32 then some (0, none) else none
  | orkhonI false => none
  | subscriptLetter => if c = '\u17D2' then some (-1, none) else none
  | vowelE =>
    if c.toNat = 0x16D63 ∨ c.toNat = 0x16D69 then some (0, none)
    else if c.toNat = 0x16D67 then some (0, some vowelAi)
    else if c.toNat = 0x16D68 then some (1, some vowelE)
    else none
  | vowelAi => if c.toNat = 0x16D63 then some (0, none) else none

/-- What a character in front of a tail adds to the columns, and the tail then: marks and
joiners between the parts add nothing. -/
def step? (c : Char) (l : Ligature) : Option (Int × Option Ligature) :=
  if l = alef ∨ l.admitsMarks = false then l.extend? c
  else if c = joiner then some (0, some l.withJoiner)
  else if isIgnorableMark c then some (0, some l)
  else l.extend? c

end Ligature

end MakerForms
