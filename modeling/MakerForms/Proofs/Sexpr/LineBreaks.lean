import MakerForms.Proofs.Sexpr.LayoutShape

set_option autoImplicit false

/-! # Lists are broken exactly where they must be

A list is kept on one line if it ends there within the width, together with the parentheses that are
closed right behind it; else it is broken. This is stated of what is put out: the column of a list
is counted over the pieces in front of it from the last line break that the layout has put in, and
the parentheses are those among the pieces behind it (`Value.broken_iff_too_wide`).

A line that goes beyond the width then has no space in it that could have been a line break. Passing
over the pieces from left to right, it is enough to know the column and whether the line has a space
in it so far (`KeepsLines`).
-/

namespace MakerForms

/-- Whether each line that has a space in it ends within the width. The first line has begun in
front of the pieces: it has come to `column`, and `spaced` says whether there is a space in it. -/
def KeepsLines (width : Nat) : Nat → Bool → List Piece → Prop
  | column, spaced, [] => spaced = true → column ≤ width
  | column, spaced, .text cs :: ps => KeepsLines width (column + textWidth cs) spaced ps
  | column, _, .space :: ps => KeepsLines width (column + 1) true ps
  | column, spaced, .newline indent :: ps =>
    (spaced = true → column ≤ width) ∧ KeepsLines width indent false ps
  | column, spaced, .group _ :: ps => KeepsLines width column spaced ps

namespace KeepsLines

section

variable {width column : Nat} {spaced : Bool} {ps rest : List Piece}

/-- Behind any pieces the lines are still kept. -/
theorem behind (h : KeepsLines width column spaced (ps ++ rest)) :
    ∃ spaced', KeepsLines width (Piece.columnBehind column ps) spaced' rest := by
  induction ps generalizing column spaced with
  | nil => exact ⟨spaced, h⟩
  | cons p ps ih =>
      cases p with
      | text cs => exact ih h
      | space => exact ih h
      | newline indent => exact ih h.2
      | group mode => exact ih h

theorem column_le_of_endsLine (h : KeepsLines width column true rest) (hrest : EndsLine rest) :
    column ≤ width := by
  cases hrest with
  | nil => exact h rfl
  | newline indent ps => exact h.1 rfl

/-- A line with a space in it ends within the width. -/
theorem columnBehind_le (h : KeepsLines width column spaced (ps ++ rest))
    (hline : ∀ indent, .newline indent ∉ ps) (hrest : EndsLine rest)
    (hspace : spaced = true ∨ .space ∈ ps) : Piece.columnBehind column ps ≤ width := by
  induction ps generalizing column spaced with
  | nil =>
      obtain rfl : spaced = true := by simpa using hspace
      exact h.column_le_of_endsLine hrest
  | cons p ps ih =>
      have hline' : ∀ indent, .newline indent ∉ ps :=
        fun indent hmem => hline indent (List.mem_cons_of_mem p hmem)
      cases p with
      | text cs => exact ih h hline' (by simpa using hspace)
      | space => exact ih h hline' (.inl rfl)
      | newline indent => exact absurd List.mem_cons_self (hline indent)
      | group mode => exact ih h hline' (by simpa using hspace)

/-- Pieces without a line break keep the line if the line is kept behind them. -/
theorem append_of_line (hline : ∀ indent, .newline indent ∉ ps)
    (h : ∀ spaced', KeepsLines width (Piece.columnBehind column ps) spaced' rest) :
    KeepsLines width column spaced (ps ++ rest) := by
  induction ps generalizing column spaced with
  | nil => exact h spaced
  | cons p ps ih =>
      have hline' : ∀ indent, .newline indent ∉ ps :=
        fun indent hmem => hline indent (List.mem_cons_of_mem p hmem)
      cases p with
      | text cs => exact ih hline' h
      | space => exact ih hline' h
      | newline indent => exact absurd List.mem_cons_self (hline indent)
      | group mode => exact ih hline' h

end

/-- Closing parentheses end a line within the width if there is room for them. -/
theorem closing {width column : Nat} {spaced : Bool} {rest : List Piece} (n : Nat)
    (hrest : ∀ column spaced, (spaced = true → column ≤ width) →
      KeepsLines width column spaced rest)
    (hcolumn : spaced = true → column + n ≤ width) :
    KeepsLines width column spaced (List.replicate n (.text [')']) ++ rest) := by
  induction n generalizing column with
  | zero => exact hrest column spaced hcolumn
  | succ n ih =>
      rw [List.replicate_succ, List.cons_append, KeepsLines, Document.textWidth_paren.2]
      refine ih fun hspaced => ?_
      have hroom := hcolumn hspaced
      omega

end KeepsLines

namespace Value

mutual

theorem newline_not_mem_flat (depth indent : Nat) :
    (v : Value) → .newline indent ∉ v.flat.pieces Laid.separator depth
  | .list vs => by
      have hitems := newline_not_mem_flatItems (depth + 1) indent vs
      simp [flat, Laid.pieces, Laid.separator, hitems]
  | .symbol _ | .integer _ | .string _ | .character _ => by simp [flat, Laid.pieces]

theorem newline_not_mem_flatItems (depth indent : Nat) : (vs : List Value) →
    .newline indent ∉ Laid.joined Laid.separator [.space] depth (flatItems vs)
  | [] => by simp [flatItems, Laid.joined]
  | [v] => newline_not_mem_flat depth indent v
  | v :: w :: vs => by
      have hfirst := newline_not_mem_flat depth indent v
      have hrest := newline_not_mem_flatItems depth indent (w :: vs)
      simp [joined_flatItems_cons, hfirst, hrest]

end

mutual

/-- On a line without a space so far, a laid out value keeps this line and the lines that it
begins. -/
theorem keepsLines_laid (width depth column closing : Nat) : (v : Value) → (rest : List Piece) →
    (∀ column spaced, (spaced = true → column ≤ width) → KeepsLines width column spaced rest) →
    KeepsLines width column false
      ((v.laid width depth column closing).pieces Laid.separator depth ++
        (List.replicate closing (.text [')']) ++ rest))
  | .list vs, rest, hrest => by
      by_cases hfits : column + (Value.list vs).flatWidth + closing ≤ width
      · -- the list is one stretch of the line, and its closing parentheses are known to fit
        rw [laid, if_pos hfits]
        refine .append_of_line (newline_not_mem_flat depth · (.list vs)) fun spaced' => ?_
        rw [Document.columnBehind_flat]
        exact .closing closing hrest fun _ => hfits
      · have hitems := keepsLines_laidItems width (depth + 1) (column + 1) closing vs rest hrest
        rw [laid, if_neg hfits, Laid.pieces, Laid.separator]
        rw [List.replicate_succ] at hitems
        simp only [List.cons_append, List.append_assoc, List.nil_append, KeepsLines,
          Document.textWidth_paren]
        exact hitems
  | .symbol _, rest, hrest | .integer _, rest, hrest | .string _, rest, hrest
  | .character _, rest, hrest => by
      simp only [laid, Laid.pieces, List.singleton_append, KeepsLines]
      exact .closing closing hrest fun h => absurd h Bool.false_ne_true

theorem keepsLines_laidItems (width depth column closing : Nat) : (vs : List Value) →
    (rest : List Piece) →
    (∀ column spaced, (spaced = true → column ≤ width) → KeepsLines width column spaced rest) →
    KeepsLines width column false
      (Laid.joined Laid.separator [.newline (2 * depth)] depth
          (laidItems width depth column closing vs) ++
        (List.replicate (closing + 1) (.text [')']) ++ rest))
  | [], rest, hrest => .closing (closing + 1) hrest fun h => absurd h Bool.false_ne_true
  | [v], rest, hrest => keepsLines_laid width depth column (closing + 1) v rest hrest
  | v :: w :: vs, rest, hrest => by
      have hothers := keepsLines_laidItems width depth (2 * depth) closing (w :: vs) rest hrest
      rw [joined_laidItems_cons, List.append_assoc, List.append_assoc]
      exact keepsLines_laid width depth column 0 v _ fun _ _ hline => ⟨hline, hothers⟩

end

theorem keepsLines_spread (width : Nat) (vs : List Value) :
    KeepsLines width 0 false (Laid.spread (laidOut width vs)) := by
  induction vs with
  | nil => exact fun _ => Nat.zero_le width
  | cons v vs ih =>
      cases vs with
      | nil =>
          have hlast := keepsLines_laid width 0 0 0 v [] fun _ _ hline => hline
          rwa [List.replicate_zero, List.append_nil, List.append_nil] at hlast
      | cons w vs =>
          -- the line between two values is empty
          exact keepsLines_laid width 0 0 0 v _ fun _ _ hline =>
            ⟨hline, fun h => absurd h Bool.false_ne_true, ih⟩

end Value

namespace Laid.Stands

variable {width : Nat} {vs : List Value} {modes : List Mode} {before after : List Piece}
  {mode : Mode} {items : List Laid}

theorem flat_of_mode (h : Stands (Value.laidOut width vs) modes before (.list .flat items) after) :
    ∃ v : Value, .list .flat items = v.flat := by
  rcases h.origin with ⟨-, hflat⟩ | ⟨-, v, closing, -, hv, -⟩
  · exact hflat
  · rcases Value.laid_eq_list hv.symm with ⟨-, -, hflat⟩ | ⟨hbroken, -⟩
    · exact ⟨v, hflat⟩
    · cases hbroken

/-- Inside broken lists, a list is broken exactly if it ends beyond the width on one line, with the
parentheses that are closed behind it. -/
theorem broken_iff (h : Stands (Value.laidOut width vs) modes before (.list mode items) after)
    (hmodes : .flat ∉ modes) :
    ∃ (closing : Nat) (rest : List Piece),
      after = List.replicate closing (.text [')']) ++ rest ∧ EndsLine rest ∧
      (mode = .broken ↔ width <
        Piece.columnBehind 0 before + (Laid.list mode items).value.flatWidth + closing) := by
  rcases h.origin with ⟨hflat, -⟩ | ⟨-, v, closing, rest, hv, hafter, hrest⟩
  · exact absurd hflat hmodes
  · refine ⟨closing, rest, hafter, hrest, ?_⟩
    rw [hv, Value.value_laid]
    rcases Value.laid_eq_list hv.symm with ⟨rfl, hfits, -⟩ | ⟨rfl, hwide, -⟩
    · exact ⟨nofun, fun hwide => absurd hwide (Nat.not_lt.mpr hfits)⟩
    · exact ⟨fun _ => hwide, fun _ => rfl⟩

end Laid.Stands

namespace Value

/-- **A list is broken exactly if it does not fit.** Wherever a list stands in what is put out, it
is written as on one line if it is not broken, and it is not broken if a list around it is not. If
all lists around it are broken, some closing parentheses stand behind it before the line ends, and
it is broken exactly if they end beyond the width when the list is on one line. So a line that goes
beyond the width has no space in it that separates two items. -/
theorem broken_iff_too_wide (width : Nat) (vs : List Value) :
    ∃ ls : List Laid, LaidOut width vs ls ∧
      prettyText width vs = String.ofList (Piece.allChars (rendered width vs)) ∧
      (∀ (modes : List Mode) (before after : List Piece) (mode : Mode) (items : List Laid),
        Laid.Stands ls modes before (.list mode items) after →
        rendered width vs
          = before ++ ((Laid.list mode items).pieces Laid.separator modes.length ++ after) ∧
        (mode = .flat →
          Piece.allChars ((Laid.list mode items).pieces Laid.separator modes.length)
            = (Laid.list mode items).value.chars) ∧
        (.flat ∈ modes → mode = .flat) ∧
        (.flat ∉ modes → ∃ (closing : Nat) (rest : List Piece),
          after = List.replicate closing (.text [')']) ++ rest ∧ EndsLine rest ∧
          (mode = .broken ↔
            width < Piece.columnBehind 0 before + (Laid.list mode items).value.flatWidth +
              closing))) ∧
      (∀ before line after : List Piece, rendered width vs = before ++ (line ++ after) →
        (∀ indent, .newline indent ∉ line) → EndsLine after →
        width < Piece.columnBehind 0 (before ++ line) → .space ∉ line) := by
  have hls := laidOut_laidOut width vs
  refine ⟨laidOut width vs, hls, prettyText_eq_rendered width vs, ?_, ?_⟩
  · intro modes before after mode items h
    refine ⟨hls.rendered_eq.trans h.spread_eq, ?_, h.mode_of_flat, h.broken_iff⟩
    rintro rfl
    obtain ⟨v, hv⟩ := h.flat_of_mode
    rw [hv, allChars_pieces_flat, value_flat]
  · intro before line after hpieces hline hafter hwide hspace
    have hkeeps := keepsLines_spread width vs
    rw [← hls.rendered_eq, hpieces] at hkeeps
    obtain ⟨spaced, hbehind⟩ := hkeeps.behind
    have hle := hbehind.columnBehind_le hline hafter (.inr hspace)
    rw [← Piece.columnBehind_append] at hle
    omega

end Value

end MakerForms
