import MakerForms.Sexpr.Document
import MakerForms.Sexpr.Layout

set_option autoImplicit false

/-! # Values with a mode for each list

A laid out value is a value that says of each of its lists whether it is broken (`Laid`). Its pieces
are the texts of the atoms and the parentheses, and between two items of a list one separator that
depends on the mode of the list and the number of lists around the items (`Laid.pieces`). With a
space as the only separator the pieces spell the text on one line.

`Value.laid` gives each list the mode that it has in lines of a certain width. Its pieces spell the
layout of the value (`Value.allChars_pieces_laid`).
-/

namespace MakerForms

/-- A value with a mode for each list in it. -/
inductive Laid
  | atom (v : Value) (notList : v.list? = none)
  | list (mode : Mode) (items : List Laid)

namespace Laid

mutual

/-- The value without the modes. -/
def value : Laid → Value
  | atom v _ => v
  | list _ items => .list (values items)

/-- The values without the modes. -/
def values : List Laid → List Value
  | [] => []
  | l :: ls => l.value :: values ls

end

mutual

/-- The pieces of a value inside `depth` lists, with `between mode depth` between two items of a
list of a mode that are inside `depth` lists. -/
def pieces (between : Mode → Nat → Piece) (depth : Nat) : Laid → List Piece
  | atom v _ => [.text v.chars]
  | list mode items =>
    .text ['('] :: .group mode ::
      (joined between [between mode (depth + 1)] (depth + 1) items ++ [.text [')']])

/-- The pieces of values inside `depth` lists, with `gap` between any two of them. -/
def joined (between : Mode → Nat → Piece) (gap : List Piece) (depth : Nat) : List Laid → List Piece
  | [] => []
  | [l] => l.pieces between depth
  | l :: m :: ls => l.pieces between depth ++ (gap ++ joined between gap depth (m :: ls))

end

/-- Between items of a list that is not broken stands a space. Items of a broken list are on lines
of their own, indented by two columns for each list around them. -/
def separator : Mode → Nat → Piece
  | .flat, _ => .space
  | .broken, depth => .newline (2 * depth)

/-- The pieces of values one below the other: two line breaks between any two, and in each list the
separators that its mode asks for. -/
def spread (ls : List Laid) : List Piece := joined separator [.newline 0, .newline 0] 0 ls

/-- The pieces of values on one line: a space between any two, and between any two items of each
list. -/
def plain (ls : List Laid) : List Piece := joined (fun _ _ => .space) [.space] 0 ls

/-! ## Values one after another -/

section Joined

variable (between : Mode → Nat → Piece) (gap : List Piece) (depth : Nat)

/-- What stands in front of a value behind which no more is looked at. -/
def leading (us : List Laid) : List Piece := us.flatMap fun u => u.pieces between depth ++ gap

/-- What stands behind a value in front of which no more is looked at. -/
def trailing (ws : List Laid) : List Piece := ws.flatMap fun w => gap ++ w.pieces between depth

theorem joined_cons (l : Laid) (ws : List Laid) :
    joined between gap depth (l :: ws)
      = l.pieces between depth ++ trailing between gap depth ws := by
  induction ws generalizing l with
  | nil => rw [joined, trailing, List.flatMap_nil, List.append_nil]
  | cons w ws ih =>
      rw [joined, ih w, trailing, trailing, List.flatMap_cons, List.append_assoc]

/-- Each value stands between those in front of it and those behind it. -/
theorem joined_append_cons (us : List Laid) (l : Laid) (ws : List Laid) :
    joined between gap depth (us ++ l :: ws)
      = leading between gap depth us ++
        (l.pieces between depth ++ trailing between gap depth ws) := by
  induction us with
  | nil => exact joined_cons between gap depth l ws
  | cons u us ih =>
      have hnext : ∃ m ms, us ++ l :: ws = m :: ms := by
        cases us with
        | nil => exact ⟨l, ws, rfl⟩
        | cons m ms => exact ⟨m, ms ++ l :: ws, rfl⟩
      obtain ⟨m, ms, hms⟩ := hnext
      rw [List.cons_append, hms, joined, ← hms, ih, leading, leading, List.flatMap_cons]
      simp only [List.append_assoc]

end Joined

theorem values_eq_map (ls : List Laid) : values ls = ls.map value := by
  induction ls with
  | nil => rfl
  | cons l ls ih => rw [values, ih, List.map_cons]

/-! ## Characters -/

mutual

/-- With a space as the only separator, the pieces spell the value on one line. -/
theorem allChars_pieces_plain (depth : Nat) : (l : Laid) →
    Piece.allChars (l.pieces (fun _ _ => .space) depth) = l.value.chars
  | atom v _ => by simp [pieces, Piece.chars, value]
  | list mode items => by
      simp [pieces, Piece.chars, value, Value.chars, allChars_joined_plain (depth + 1) items]

theorem allChars_joined_plain (depth : Nat) : (ls : List Laid) →
    Piece.allChars (joined (fun _ _ => .space) [.space] depth ls) = Value.joinedChars (values ls)
  | [] => rfl
  | [l] => by rw [joined, allChars_pieces_plain depth l, values, values, Value.joinedChars]
  | l :: m :: ls => by
      have hfirst := allChars_pieces_plain depth l
      have hrest := allChars_joined_plain depth (m :: ls)
      simp [joined, Piece.chars, hfirst, hrest, values, Value.joinedChars]

end

end Laid

/-! ## The modes of lists -/

namespace Value

mutual

/-- The value with no list broken. -/
def flat : Value → Laid
  | .list items => .list .flat (flatItems items)
  | .symbol s => .atom (.symbol s) rfl
  | .integer i => .atom (.integer i) rfl
  | .string s => .atom (.string s) rfl
  | .character code => .atom (.character code) rfl

/-- The values with no list broken. -/
def flatItems : List Value → List Laid
  | [] => []
  | v :: vs => v.flat :: flatItems vs

end

mutual

/-- A value that starts at `column`, inside `depth` broken lists, and is directly followed by
`closing` closing parentheses, with each list broken that does not fit in lines of `width`
columns. -/
def laid (width depth column closing : Nat) : Value → Laid
  | .list items =>
    if column + (Value.list items).flatWidth + closing ≤ width then (Value.list items).flat
    else .list .broken (laidItems width (depth + 1) (column + 1) closing items)
  | .symbol s => .atom (.symbol s) rfl
  | .integer i => .atom (.integer i) rfl
  | .string s => .atom (.string s) rfl
  | .character code => .atom (.character code) rfl

/-- The items of a broken list, the first of which starts at `column`. -/
def laidItems (width depth column closing : Nat) : List Value → List Laid
  | [] => []
  | [v] => [laid width depth column (closing + 1) v]
  | v :: w :: vs =>
    laid width depth column 0 v :: laidItems width depth (2 * depth) closing (w :: vs)

end

theorem laidItems_ne_nil (width depth column closing : Nat) (v : Value) (vs : List Value) :
    laidItems width depth column closing (v :: vs) ≠ [] := by
  cases vs <;> exact List.cons_ne_nil _ _

section Items

variable (between : Mode → Nat → Piece) (gap : List Piece) (v w : Value) (vs : List Value)

theorem joined_flatItems_cons (depth : Nat) :
    Laid.joined between gap depth (flatItems (v :: w :: vs))
      = v.flat.pieces between depth ++
        (gap ++ Laid.joined between gap depth (flatItems (w :: vs))) := by
  rw [flatItems, flatItems, Laid.joined]

theorem joined_laidItems_cons (width depth column closing : Nat) :
    Laid.joined between gap depth (laidItems width depth column closing (v :: w :: vs))
      = (v.laid width depth column 0).pieces between depth ++
        (gap ++ Laid.joined between gap depth
          (laidItems width depth (2 * depth) closing (w :: vs))) := by
  obtain ⟨l, ls, hls⟩ :=
    List.exists_cons_of_ne_nil (laidItems_ne_nil width depth (2 * depth) closing w vs)
  rw [laidItems, hls, Laid.joined]

end Items

/-- Values one below the other, with each list broken that does not fit. -/
def laidOut (width : Nat) (vs : List Value) : List Laid := vs.map (laid width 0 0 0)

mutual

@[simp] theorem value_flat : (v : Value) → v.flat.value = v
  | .list items => by rw [flat, Laid.value, values_flatItems items]
  | .symbol _ | .integer _ | .string _ | .character _ => by simp only [flat, Laid.value]

@[simp] theorem values_flatItems : (vs : List Value) → Laid.values (flatItems vs) = vs
  | [] => rfl
  | v :: vs => by rw [flatItems, Laid.values, value_flat v, values_flatItems vs]

end

mutual

/-- Breaking lists changes no value. -/
@[simp] theorem value_laid (width depth column closing : Nat) :
    (v : Value) → (v.laid width depth column closing).value = v
  | .list items => by
      by_cases hfits : column + (Value.list items).flatWidth + closing ≤ width
      · rw [laid, if_pos hfits, value_flat]
      · rw [laid, if_neg hfits, Laid.value, values_laidItems]
  | .symbol _ | .integer _ | .string _ | .character _ => by simp only [laid, Laid.value]

@[simp] theorem values_laidItems (width depth column closing : Nat) :
    (vs : List Value) → Laid.values (laidItems width depth column closing vs) = vs
  | [] => rfl
  | [v] => by rw [laidItems, Laid.values, value_laid, Laid.values]
  | v :: w :: vs => by rw [laidItems, Laid.values, value_laid, values_laidItems]

end

theorem map_value_laidOut (width : Nat) (vs : List Value) :
    (laidOut width vs).map Laid.value = vs := by
  rw [laidOut, List.map_map]
  exact (List.map_congr_left fun v _ => value_laid width 0 0 0 v).trans (List.map_id vs)

/-! ## What laid out values spell -/

mutual

/-- A value with no list broken is spelled as it is on one line. -/
theorem allChars_pieces_flat (depth : Nat) :
    (v : Value) → Piece.allChars (v.flat.pieces Laid.separator depth) = v.chars
  | .list items => by
      simp [flat, Laid.pieces, Laid.separator, Piece.chars, chars,
        allChars_joined_flat (depth + 1) items]
  | .symbol _ | .integer _ | .string _ | .character _ => by
      simp [flat, Laid.pieces, Piece.chars]

theorem allChars_joined_flat (depth : Nat) : (vs : List Value) →
    Piece.allChars (Laid.joined Laid.separator [.space] depth (flatItems vs)) = joinedChars vs
  | [] => rfl
  | [v] => by
      rw [flatItems, flatItems, Laid.joined, allChars_pieces_flat depth v, joinedChars]
  | v :: w :: vs => by
      have hrest := allChars_joined_flat depth (w :: vs)
      simp [joined_flatItems_cons, Piece.chars, allChars_pieces_flat depth v, hrest, joinedChars]

end

mutual

/-- The pieces of a laid out value spell its layout. -/
theorem allChars_pieces_laid (width depth column closing : Nat) : (v : Value) →
    Piece.allChars ((v.laid width depth column closing).pieces Laid.separator depth)
      = v.layout width depth column closing
  | .list items => by
      by_cases hfits : column + (Value.list items).flatWidth + closing ≤ width
      · rw [laid, if_pos hfits, allChars_pieces_flat, layout, if_pos hfits]
      · have hitems := allChars_joined_laidItems width (depth + 1) (column + 1) closing items
        rw [laid, if_neg hfits, layout, if_neg hfits]
        simp [Laid.pieces, Laid.separator, Piece.chars, hitems]
  | .symbol _ | .integer _ | .string _ | .character _ => by
      simp [laid, layout, Laid.pieces, Piece.chars]

theorem allChars_joined_laidItems (width depth column closing : Nat) : (vs : List Value) →
    Piece.allChars (Laid.joined Laid.separator [.newline (2 * depth)] depth
        (laidItems width depth column closing vs))
      = layoutItems width depth column closing vs
  | [] => rfl
  | [v] => by rw [laidItems, Laid.joined, allChars_pieces_laid, layoutItems]
  | v :: w :: vs => by
      have hfirst := allChars_pieces_laid width depth column 0 v
      have hrest := allChars_joined_laidItems width depth (2 * depth) closing (w :: vs)
      rw [joined_laidItems_cons, layoutItems]
      simp [Piece.chars, hfirst, hrest, indentation]

end

/-- The pieces of values one below the other spell their layout. -/
theorem allChars_spread_laidOut (width : Nat) (vs : List Value) :
    Piece.allChars (Laid.spread (laidOut width vs)) = prettyChars width vs := by
  induction vs with
  | nil => rfl
  | cons v vs ih =>
      have hfirst := allChars_pieces_laid width 0 0 0 v
      cases vs with
      | nil => exact hfirst
      | cons w vs =>
          simp only [Laid.spread, laidOut, List.map_cons] at ih
          simp [Laid.spread, laidOut, Laid.joined, Piece.chars, hfirst, ih, prettyChars]

end Value

end MakerForms
