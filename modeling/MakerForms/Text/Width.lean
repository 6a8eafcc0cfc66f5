import MakerForms.Text.EmojiSequence

set_option autoImplicit false

/-! # Display width

The number of columns that a text takes on a display. A text of ASCII characters takes one
column for each of them, control characters included. In any other text each character takes
the columns that it has by itself, but ligatures and emoji sequences take those of one picture, a
carriage return with a line feed takes one column, and a selector behind a character can change
the width of that character.

The columns are counted from the end of the text to its start. What has to be known of the text
behind a character is its context.

`textWidth` is the width by which `to_string_pretty` measures texts.
-/

namespace MakerForms

namespace Width

/-- A style that a selector asks for. -/
inductive Style
  | text
  | emoji
  /-- The style of a quotation mark as wide as an ideograph. -/
  | wide
deriving DecidableEq, Repr

/-- The style that a selector asks for. -/
def Style.ofSelector? (c : Char) : Option Style :=
  if c = '\uFE0E' then some text
  else if c = '\uFE0F' then some emoji
  else if c = '\uFE01' then some wide
  else none

/-- What the text behind a character begins with, if it is part of something. -/
inductive Tail
  | plain
  | lineFeed
  | ligature (l : Ligature)
  | sequence (t : EmojiTail)
deriving DecidableEq, Repr

/-- What is known of the text behind a character: the style that a selector asks for, and what
stands behind the selector. -/
structure Context where
  style : Option Style
  tail : Tail
deriving DecidableEq, Repr

namespace Tail

/-- The context without a selector. -/
def context (t : Tail) : Context := ⟨none, t⟩

/-- The tail that is left of a ligature, which may be complete. -/
def ofLigature : Option Ligature → Tail
  | some l => ligature l
  | none => plain

/-- The tail that a character by itself makes. -/
def ofLast (c : Char) : Tail :=
  match EmojiTail.ofLast? c with
  | some t => sequence t
  | none => ofLigature (Ligature.ofLast? c)

/-- What is left of a tail behind a selector that has no effect. -/
def unselected : Tail → Tail
  | ligature l => ligature l
  | _ => plain

/-- The context that a selector makes. -/
def select (s : Style) : Tail → Context
  | ligature l => ⟨some s, if l.admitsMarks then ligature l else plain⟩
  | sequence t => ⟨some s, if s = .emoji ∧ t.admitsSelector then sequence t else plain⟩
  | _ => ⟨some s, plain⟩

/-- Whether a tail is an emoji with a joiner in front of it. -/
def isLinked : Tail → Bool
  | sequence t => t.admitsSelector
  | _ => false

/-- What a character adds to the columns and the tail then, if it is part of something. -/
def step? (c : Char) : Tail → Option (Int × Tail)
  | ligature l => (l.step? c).map fun (columns, l) => (columns, ofLigature l)
  | sequence t => (t.step? c).map fun (columns, t) => (columns, sequence t)
  | _ => none

/-- What a character in front of a tail adds to the columns, and the context that it makes. -/
def step (c : Char) (t : Tail) : Int × Context :=
  if c = '\n' then (1, lineFeed.context)
  else if c = '\r' ∧ t = lineFeed then (0, plain.context)
  else if c.toNat < 0xA1 then (1, plain.context)
  else
    match Style.ofSelector? c with
    | some s => (0, t.select s)
    | none =>
      match t.step? c with
      | some (columns, t) => (columns, t.context)
      | none => (charWidth c, (ofLast c).context)

end Tail

namespace Context

/-- What a character takes in a style that a selector asks for, and the context that it makes;
`none` if it has no such style. -/
def styled? (c : Char) (t : Tail) : Style → Option (Int × Context)
  | .emoji =>
    if isStyled c then some (if t.isLinked then 0 else 2, (Tail.sequence .emoji).context) else none
  | .text =>
    if isStyled c && isEmoji c && !inRanges [(0x1F200, 0x1F2FF)] c then some (1, Tail.plain.context)
    else none
  | .wide =>
    if inRanges [(0x2018, 0x2019), (0x201C, 0x201D)] c then some (2, Tail.plain.context) else none

/-- What a character adds to the columns of the text behind it, and the context that it makes. -/
def step (c : Char) (context : Context) : Int × Context :=
  match context.style with
  | none => context.tail.step c
  | some s => (styled? c context.tail s).getD (context.tail.unselected.step c)

end Context

/-- The columns of a text counted from its end, and the context that it makes. -/
def columns (cs : List Char) : Int × Context :=
  cs.foldr
    (fun c (count, context) =>
      let (more, context) := context.step c
      (count + more, context))
    (0, Tail.plain.context)

end Width

/-- The number of columns of a text. -/
def textWidth (cs : List Char) : Nat :=
  if cs.all (·.toNat < 0x80) then cs.length else (Width.columns cs).1.toNat

end MakerForms
