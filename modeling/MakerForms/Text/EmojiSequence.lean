import MakerForms.Text.Emoji
import MakerForms.Text.Ligature

set_option autoImplicit false

/-! # Emoji sequences

Several emoji can be put together to one picture: an emoji with a skin tone, two regional
indicators that make a flag, and emoji that are linked by joiners. A picture takes two columns.
A text is measured from its end to its start, so a tail is what has been seen of a sequence, and
a character in front of it either goes on with the sequence or stands by itself.

This is a part of the width by which `to_string_pretty` measures texts.
-/

namespace MakerForms

/-- What has been seen of the flag of a region, from its end: the number of tags in front of the
one that ends it. Its letters stand behind its digits. -/
structure FlagTags where
  letters : Nat
  digits : Nat
deriving DecidableEq, Repr

namespace FlagTags

/-- The tags with one more in front: up to six letters, or up to four and then three digits. -/
def push? (c : Char) (t : FlagTags) : Option FlagTags :=
  if inRanges [(0xE0061, 0xE007A)] c then
    if t.digits = 0 ∧ t.letters < 6 then some { t with letters := t.letters + 1 } else none
  else if inRanges [(0xE0030, 0xE0039)] c then
    if t.letters ≤ 4 ∧ t.digits < 3 then some { t with digits := t.digits + 1 } else none
  else none

/-- Whether the tags can stand behind a flag: three digits, or at least three letters. -/
def isComplete (t : FlagTags) : Bool := t.digits == 3 || (t.digits == 0 && 3 ≤ t.letters)

end FlagTags

/-- What has been seen of an emoji in front of a joiner that links it to another. -/
inductive LinkTail
  | start
  /-- The enclosing keycap. -/
  | keycap
  | indicators (count : Nat)
  | tags (t : FlagTags)
deriving DecidableEq, Repr

/-- What has been seen of an emoji sequence, from its end. -/
inductive EmojiTail
  | emoji
  | tone
  | indicators (count : Nat)
  | link (t : LinkTail)
deriving DecidableEq, Repr

namespace EmojiTail

/-- The tail that a character by itself makes. -/
def ofLast? (c : Char) : Option EmojiTail :=
  if isIndicator c then some (indicators 1)
  else if isTone c then some tone
  else if isEmoji c then some emoji
  else none

/-- Whether a joiner in front of the tail links it to what is before. -/
def isLinkable : EmojiTail → Bool
  | emoji | tone => true
  | indicators count | link (.indicators count) => 2 ≤ count
  | link _ => false

/-- What a character adds to the columns in front of a joiner that links it to an emoji, and the
tail then. Regional indicators pair off from the start of their run: of an even number the last
two are a flag, which is linked and takes no columns, of an odd number the last one stands alone
and takes one. -/
def linkStep? (c : Char) : LinkTail → Option (Int × EmojiTail)
  | .start =>
    if c = '\u20E3' then some (0, link .keycap)
    else if isIndicator c then some (1, link (.indicators 1))
    else if isTone c then some (0, tone)
    else if c.toNat = 0xE007F then some (0, link (.tags ⟨0, 0⟩))
    else if isEmoji c then some (0, emoji)
    else none
  | .keycap => none
  | .indicators count =>
    if isIndicator c then
      some (if count % 2 = 1 then -1 else 3, link (.indicators (count + 1)))
    else none
  | .tags t =>
    if c.toNat = 0x1F3F4 ∧ t.isComplete then some (0, emoji)
    else (t.push? c).map fun t => (0, link (.tags t))

/-- What a character in front of a tail adds to the columns, and the tail then; `none` if it is no
part of the sequence. -/
def step? (c : Char) (tail : EmojiTail) : Option (Int × EmojiTail) :=
  if c = joiner ∧ tail.isLinkable then some (0, link .start)
  else
    match tail with
    | emoji => none
    | tone => if isTonable c then some (0, emoji) else none
    | indicators count => if isIndicator c then some (1, indicators (count + 1)) else none
    | link t => linkStep? c t

/-- Whether a selector for the style of an emoji may stand in the middle of the sequence. -/
def admitsSelector : EmojiTail → Bool
  | link .start | link .keycap => true
  | _ => false

end EmojiTail

end MakerForms
