set_option autoImplicit false

/-! # Positions in a text

A position is a number of bytes: the size of the text before it in UTF-8. The file defines
the size of a run of characters, spans between two positions, and items together with the
span they were read from. Sizes add up over concatenation (`byteSize_append`), so the
position behind a run is the position before it plus the size of the run.

`Span` and `Located` are `Span` and `Spanned`.
-/

namespace MakerForms

/-- The number of bytes `cs` takes in UTF-8. -/
def byteSize : List Char → Nat
  | [] => 0
  | c :: cs => c.utf8Size + byteSize cs

@[simp] theorem byteSize_nil : byteSize [] = 0 := rfl

@[simp] theorem byteSize_cons (c : Char) (cs : List Char) :
    byteSize (c :: cs) = c.utf8Size + byteSize cs := rfl

@[simp] theorem byteSize_append (a b : List Char) :
    byteSize (a ++ b) = byteSize a + byteSize b := by
  induction a with
  | nil => simp
  | cons c a ih => simp [ih, Nat.add_assoc]

theorem length_le_byteSize (cs : List Char) : cs.length ≤ byteSize cs := by
  induction cs with
  | nil => exact Nat.le_refl 0
  | cons c cs ih =>
      have hpositive := c.utf8Size_pos
      rw [List.length_cons, byteSize_cons]
      omega

theorem byteSize_pos {cs : List Char} (h : cs ≠ []) : 0 < byteSize cs := by
  cases cs with
  | nil => exact absurd rfl h
  | cons c cs =>
      have hc := c.utf8Size_pos
      rw [byteSize_cons]
      omega

theorem utf8ByteSize_ofList (cs : List Char) : (String.ofList cs).utf8ByteSize = byteSize cs := by
  induction cs with
  | nil => rfl
  | cons c cs ih => simp [ih]

theorem utf8ByteSize_eq_byteSize (source : String) :
    source.utf8ByteSize = byteSize source.toList := by
  rw [← utf8ByteSize_ofList, String.ofList_toList]

/-- The bytes from `start` up to, not including, `stop`. -/
structure Span where
  start : Nat
  stop : Nat
deriving DecidableEq, Repr

/-- An item and the span of text it was read from. -/
structure Located (α : Type) where
  value : α
  span : Span
deriving DecidableEq, Repr

end MakerForms
