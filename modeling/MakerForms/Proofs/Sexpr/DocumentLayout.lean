import MakerForms.Proofs.Sexpr.Laid

set_option autoImplicit false

/-! # Laying out the documents of values

The document of a value is laid out task by task, and the trial of a group walks over its texts and
over the parentheses that are still to be closed behind it. Both walks are followed here with any
tasks left behind the value: a trial ends in the column behind the value on one line
(`Document.fits_flat`), so a group is laid out on one line exactly if the list and the closing
parentheses behind it fit (`Document.groupMode_items`). Hence laying out gives each list the mode
that it has in `Value.laid` (`Document.layOut_laid`), and what is written is the layout of the
values (`Printable.prettyText_eq_render`).
-/

namespace MakerForms

namespace Document

open Laid (separator joined)

/-! ## Documents one after another -/

/-- The tasks for documents one after another. -/
def tasksOf (i : Nat) (m : Mode) (between : Document) : List Document → List Task
  | [] => []
  | d :: ds => ⟨i, m, d⟩ :: ds.flatMap fun e => [⟨i, m, between⟩, ⟨i, m, e⟩]

theorem tasksOf_cons_cons (i : Nat) (m : Mode) (between d e : Document) (ds : List Document) :
    tasksOf i m between (d :: e :: ds)
      = ⟨i, m, d⟩ :: ⟨i, m, between⟩ :: tasksOf i m between (e :: ds) := rfl

/-- What takes documents apart in order takes documents with a separator between them apart into
their tasks. -/
theorem intersperse_apart {α : Type} {F : List Task → α} {i : Nat} {m : Mode}
    (hempty : ∀ tasks, F (⟨i, m, .empty⟩ :: tasks) = F tasks)
    (happend : ∀ d e tasks, F (⟨i, m, .append d e⟩ :: tasks) = F (⟨i, m, d⟩ :: ⟨i, m, e⟩ :: tasks))
    (between : Document) (ds : List Document) (tasks : List Task) :
    F (⟨i, m, intersperse between ds⟩ :: tasks) = F (tasksOf i m between ds ++ tasks) := by
  cases ds with
  | nil => exact hempty tasks
  | cons d ds =>
      -- the first document grows as the others are joined to it
      induction ds generalizing d with
      | nil => rfl
      | cons e ds ih =>
          have hjoined := ih ((d.append between).append e)
          rw [tasksOf, List.cons_append, happend, happend] at hjoined
          rw [intersperse, List.foldl_cons, ← intersperse, hjoined]
          rfl

/-! ## Trying a line -/

/-- A place in front of another within the width need not be looked at. -/
theorem le_and_le {width a b : Nat} (h : a ≤ b) (rest : Bool) :
    (decide (a ≤ width) && (decide (b ≤ width) && rest)) = (decide (b ≤ width) && rest) := by
  by_cases hb : b ≤ width
  · rw [decide_eq_true (Nat.le_trans h hb), Bool.true_and]
  · rw [decide_eq_false hb, Bool.false_and, Bool.and_false]

theorem textWidth_paren : textWidth ['('] = 1 ∧ textWidth [')'] = 1 := by decide

/-- A list on one line ends behind its items and the two parentheses around them. -/
theorem add_flatWidth_list (column : Nat) (vs : List Value) :
    column + (Value.list vs).flatWidth = column + 1 + Value.joinedWidth vs + 1 := by
  rw [Value.flatWidth]
  omega

section Trying

variable {width column i : Nat} {m : Mode} {tasks : List Task}

theorem fits_text {cs : List Char} :
    fits width column (⟨i, m, .text cs⟩ :: tasks)
      = (decide (column + textWidth cs ≤ width) && fits width (column + textWidth cs) tasks) := by
  rw [fits]

theorem fits_append {d e : Document} :
    fits width column (⟨i, m, .append d e⟩ :: tasks)
      = fits width column (⟨i, m, d⟩ :: ⟨i, m, e⟩ :: tasks) := by
  rw [fits]

theorem fits_intersperse {between : Document} {ds : List Document} :
    fits width column (⟨i, m, intersperse between ds⟩ :: tasks)
      = fits width column (tasksOf i m between ds ++ tasks) :=
  intersperse_apart (fun _ => by rw [fits]) (fun _ _ _ => fits_append) between ds tasks

end Trying

mutual

/-- On one line, a value fits if the line holds all of it, and then what follows is tried. -/
theorem fits_flat (width column i : Nat) : (v : Value) → (tasks : List Task) →
    fits width column (⟨i, .flat, v.document⟩ :: tasks)
      = (decide (column + v.flatWidth ≤ width) && fits width (column + v.flatWidth) tasks)
  | .list vs, tasks => by
      have hitems := fits_flatItems width (column + 1) (i + 2) vs ⟨i, .flat, .text [')']⟩ rfl tasks
      rw [Value.document, parenthesized, fits_append, fits_append, fits_text, textWidth_paren.1,
        fits, fits, fits_intersperse, hitems, le_and_le (by omega), add_flatWidth_list]
  | .symbol _, _ | .integer _, _ | .string _, _ | .character _, _ => by
      rw [Value.document, fits_text, Value.flatWidth]

theorem fits_flatItems (width column i : Nat) : (vs : List Value) → (paren : Task) →
    paren.document = .text [')'] → (tasks : List Task) →
    fits width column (tasksOf i .flat .line (Value.documents vs) ++ paren :: tasks)
      = (decide (column + Value.joinedWidth vs + 1 ≤ width)
        && fits width (column + Value.joinedWidth vs + 1) tasks)
  | [], ⟨_, _, _⟩, rfl, tasks => by
      rw [Value.documents, tasksOf, List.nil_append, fits_text, textWidth_paren.2,
        Value.joinedWidth, Nat.add_zero]
  | [v], ⟨j, m, _⟩, rfl, tasks => by
      have hfirst := fits_flat width column i v (⟨j, m, .text [')']⟩ :: tasks)
      rw [fits_text, textWidth_paren.2, le_and_le (by omega)] at hfirst
      exact hfirst
  | v :: w :: vs, paren, hparen, tasks => by
      have hrest := fits_flatItems width (column + v.flatWidth + 1) i (w :: vs) paren hparen tasks
      have hend : column + v.flatWidth + 1 + Value.joinedWidth (w :: vs)
          = column + Value.joinedWidth (v :: w :: vs) := by
        rw [Value.joinedWidth]
        omega
      rw [hend, Value.documents] at hrest
      rw [Value.documents, Value.documents, tasksOf_cons_cons, List.cons_append, List.cons_append,
        fits_flat, fits, hrest, le_and_le (by omega), le_and_le (by omega)]

end

/-! ## Groups -/

/-- Whether the tasks begin with a number of closing parentheses in front of a line break or the
end, as far as trying a line can tell. -/
def Closes (width : Nat) (tasks : List Task) (closing : Nat) : Prop :=
  ∀ column, column ≤ width →
    fits width column (tasks.map Task.breaking) = decide (column + closing ≤ width)

section Closing

variable {width i : Nat} {m : Mode} {tasks : List Task}

theorem closes_nil : Closes width [] 0 := by
  intro column hcolumn
  rw [List.map_nil, fits, Nat.add_zero, decide_eq_true hcolumn]

theorem closes_line : Closes width (⟨i, m, .line⟩ :: tasks) 0 := by
  intro column hcolumn
  rw [List.map_cons, Task.breaking, fits, Nat.add_zero, decide_eq_true hcolumn]

theorem closes_lines {d : Document} : Closes width (⟨i, m, .append .line d⟩ :: tasks) 0 := by
  intro column hcolumn
  rw [List.map_cons, Task.breaking, fits_append, fits, Nat.add_zero, decide_eq_true hcolumn]

theorem Closes.paren {closing : Nat} (h : Closes width tasks closing) :
    Closes width (⟨i, m, .text [')']⟩ :: tasks) (closing + 1) := by
  intro column hcolumn
  rw [List.map_cons, Task.breaking, fits_text, textWidth_paren.2]
  by_cases hnext : column + 1 ≤ width
  · rw [h (column + 1) hnext, decide_eq_true hnext, Bool.true_and, Nat.add_assoc,
      Nat.add_comm 1 closing]
  · rw [decide_eq_false hnext, Bool.false_and, decide_eq_false (by omega)]

/-- The items of a list are laid out on one line exactly if the list fits there together with the
closing parentheses behind it. -/
theorem groupMode_items {column closing : Nat} (vs : List Value)
    (h : Closes width tasks closing) :
    groupMode width (column + 1) ⟨i, .broken, .nest 2 (intersperse .line (Value.documents vs))⟩
        (⟨i, .broken, .text [')']⟩ :: tasks)
      = if column + (Value.list vs).flatWidth + closing ≤ width then .flat else .broken := by
  have htry := fits_flatItems width (column + 1) (i + 2) vs ⟨i, .broken, .text [')']⟩ rfl
    (tasks.map Task.breaking)
  rw [groupMode, List.map_cons, Task.breaking, fits, fits_intersperse, htry, ← add_flatWidth_list]
  -- a list that ends within the width leaves the closing parentheses behind it to be tried
  by_cases hline : column + (Value.list vs).flatWidth ≤ width
  · rw [h _ hline, decide_eq_true hline, Bool.true_and]
    simp only [decide_eq_true_eq]
  · rw [decide_eq_false hline, Bool.false_and, if_neg Bool.false_ne_true, if_neg (by omega)]

end Closing

/-! ## Laying out -/

section Laying

variable {width column i : Nat} {m : Mode} {tasks : List Task}

theorem layOut_text {cs : List Char} :
    layOut width column (⟨i, m, .text cs⟩ :: tasks)
      = .text cs :: layOut width (column + textWidth cs) tasks := by
  rw [layOut]

theorem layOut_append {d e : Document} :
    layOut width column (⟨i, m, .append d e⟩ :: tasks)
      = layOut width column (⟨i, m, d⟩ :: ⟨i, m, e⟩ :: tasks) := by
  rw [layOut]

theorem layOut_intersperse {between : Document} {ds : List Document} :
    layOut width column (⟨i, m, intersperse between ds⟩ :: tasks)
      = layOut width column (tasksOf i m between ds ++ tasks) :=
  intersperse_apart (fun _ => by rw [layOut]) (fun _ _ _ => layOut_append) between ds tasks

/-- A list begins with its opening parenthesis and the decision on its group. -/
theorem layOut_parenthesized {ds : List Document} :
    layOut width column (⟨i, m, parenthesized ds⟩ :: tasks)
      = .text ['('] ::
        .group (groupMode width (column + 1) ⟨i, m, .nest 2 (intersperse .line ds)⟩
          (⟨i, m, .text [')']⟩ :: tasks)) ::
        layOut width (column + 1)
          (tasksOf (i + 2) (groupMode width (column + 1) ⟨i, m, .nest 2 (intersperse .line ds)⟩
            (⟨i, m, .text [')']⟩ :: tasks)) .line ds ++ ⟨i, m, .text [')']⟩ :: tasks) := by
  rw [parenthesized, layOut_append, layOut_append, layOut_text, textWidth_paren.1, layOut, layOut,
    layOut_intersperse]

end Laying

mutual

/-- On a line that is not broken, all lists of a value stay on that line. -/
theorem layOut_flat (width column i depth : Nat) : (v : Value) → (tasks : List Task) →
    layOut width column (⟨i, .flat, v.document⟩ :: tasks)
      = v.flat.pieces separator depth ++ layOut width (column + v.flatWidth) tasks
  | .list vs, tasks => by
      have hitems := layOut_flatItems width (column + 1) (i + 2) (depth + 1) vs
        (⟨i, .flat, .text [')']⟩ :: tasks)
      rw [Value.document, layOut_parenthesized, groupMode, hitems, layOut_text, textWidth_paren.2,
        ← add_flatWidth_list, Value.flat, Laid.pieces, separator]
      simp only [List.cons_append, List.append_assoc, List.nil_append]
  | .symbol _, _ | .integer _, _ | .string _, _ | .character _, _ => by
      simp only [Value.document, layOut_text, Value.flatWidth, Value.flat, Laid.pieces, Value.chars,
        List.singleton_append]

theorem layOut_flatItems (width column i depth : Nat) : (vs : List Value) →
    (tasks : List Task) →
    layOut width column (tasksOf i .flat .line (Value.documents vs) ++ tasks)
      = joined separator [.space] depth (Value.flatItems vs)
        ++ layOut width (column + Value.joinedWidth vs) tasks
  | [], tasks => rfl
  | [v], tasks => layOut_flat width column i depth v tasks
  | v :: w :: vs, tasks => by
      have hrest := layOut_flatItems width (column + v.flatWidth + 1) i depth (w :: vs) tasks
      have hend : column + v.flatWidth + 1 + Value.joinedWidth (w :: vs)
          = column + Value.joinedWidth (v :: w :: vs) := by
        rw [Value.joinedWidth]
        omega
      rw [hend, Value.documents] at hrest
      rw [Value.documents, Value.documents, tasksOf_cons_cons, List.cons_append, List.cons_append,
        layOut_flat width column i depth, layOut, hrest, Value.joined_flatItems_cons]
      simp only [List.cons_append, List.append_assoc, List.nil_append]

end

mutual

/-- On one line, a value ends behind its width. -/
theorem columnBehind_flat (column depth : Nat) : (v : Value) →
    Piece.columnBehind column (v.flat.pieces separator depth) = column + v.flatWidth
  | .list vs => by
      have hitems := columnBehind_flatItems (column + 1) (depth + 1) vs
      simp only [Value.flat, Laid.pieces, separator, Piece.columnBehind_cons, Piece.advance,
        Piece.columnBehind_append, textWidth_paren, hitems, Piece.columnBehind_nil,
        Value.flatWidth]
      omega
  | .symbol _ | .integer _ | .string _ | .character _ => by
      simp only [Value.flat, Laid.pieces, Piece.columnBehind_cons, Piece.advance, Value.chars,
        Piece.columnBehind_nil, Value.flatWidth]

theorem columnBehind_flatItems (column depth : Nat) : (vs : List Value) →
    Piece.columnBehind column (joined separator [.space] depth (Value.flatItems vs))
      = column + Value.joinedWidth vs
  | [] => rfl
  | [v] => columnBehind_flat column depth v
  | v :: w :: vs => by
      have hrest := columnBehind_flatItems (column + v.flatWidth + 1) depth (w :: vs)
      simp only [Value.joined_flatItems_cons, Piece.columnBehind_append, columnBehind_flat,
        Piece.columnBehind_cons, Piece.columnBehind_nil, Piece.advance, hrest, Value.joinedWidth]
      omega

end

mutual

/-- Where lines are broken, each list of a value is broken exactly if it does not fit. -/
theorem layOut_laid (width depth column closing : Nat) : (v : Value) → (tasks : List Task) →
    Closes width tasks closing →
    layOut width column (⟨2 * depth, .broken, v.document⟩ :: tasks)
      = (v.laid width depth column closing).pieces separator depth ++
        layOut width
          (Piece.columnBehind column ((v.laid width depth column closing).pieces separator depth))
          tasks
  | .list vs, tasks, htasks => by
      rw [Value.document, layOut_parenthesized, groupMode_items vs htasks]
      by_cases hfits : column + (Value.list vs).flatWidth + closing ≤ width
      · have hitems := layOut_flatItems width (column + 1) (2 * depth + 2) (depth + 1) vs
          (⟨2 * depth, .broken, .text [')']⟩ :: tasks)
        rw [if_pos hfits, hitems, layOut_text, textWidth_paren.2, ← add_flatWidth_list, Value.laid,
          if_pos hfits, columnBehind_flat, Value.flat, Laid.pieces, separator]
        simp only [List.cons_append, List.append_assoc, List.nil_append]
      · -- the list adds its own parenthesis to those behind it
        have hitems := layOut_laidItems width (depth + 1) (column + 1) closing vs
          (⟨2 * depth, .broken, .text [')']⟩ :: tasks) htasks.paren
        have hindent : 2 * depth + 2 = 2 * (depth + 1) := by omega
        rw [if_neg hfits, hindent, hitems, layOut_text, Value.laid, if_neg hfits, Laid.pieces,
          separator]
        simp only [List.cons_append, List.append_assoc, List.nil_append, Piece.columnBehind_cons,
          Piece.columnBehind_append, Piece.columnBehind_nil, Piece.advance, textWidth_paren]
  | .symbol _, _, _ | .integer _, _, _ | .string _, _, _ | .character _, _, _ => by
      simp only [Value.document, layOut_text, Value.laid, Laid.pieces, Value.chars,
        List.singleton_append, Piece.columnBehind_cons, Piece.columnBehind_nil, Piece.advance]

theorem layOut_laidItems (width depth column closing : Nat) : (vs : List Value) →
    (tasks : List Task) → Closes width tasks (closing + 1) →
    layOut width column (tasksOf (2 * depth) .broken .line (Value.documents vs) ++ tasks)
      = joined separator [.newline (2 * depth)] depth
          (Value.laidItems width depth column closing vs) ++
        layOut width
          (Piece.columnBehind column (joined separator [.newline (2 * depth)] depth
            (Value.laidItems width depth column closing vs)))
          tasks
  | [], tasks, _ => rfl
  | [v], tasks, htasks => layOut_laid width depth column (closing + 1) v tasks htasks
  | v :: w :: vs, tasks, htasks => by
      have hrest := layOut_laidItems width depth (2 * depth) closing (w :: vs) tasks htasks
      rw [Value.documents] at hrest
      rw [Value.documents, Value.documents, tasksOf_cons_cons, List.cons_append, List.cons_append,
        layOut_laid width depth column 0 v _ closes_line, layOut, hrest,
        Value.joined_laidItems_cons]
      simp only [List.cons_append, List.append_assoc, List.nil_append, Piece.columnBehind_cons,
        Piece.columnBehind_append, Piece.advance]

end

/-- Values one below the other are laid out each by itself. -/
theorem layOut_laidOut (width : Nat) (vs : List Value) :
    layOut width 0 (tasksOf 0 .broken (.append .line .line) (Value.documents vs))
      = Laid.spread (Value.laidOut width vs) := by
  induction vs with
  | nil => rw [Value.documents, tasksOf, layOut]; rfl
  | cons v vs ih =>
      cases vs with
      | nil =>
          have hlast := layOut_laid width 0 0 0 v [] closes_nil
          rw [layOut, List.append_nil] at hlast
          exact hlast
      | cons w vs =>
          have hfirst := layOut_laid width 0 0 0 v
          rw [Value.documents] at ih
          rw [Value.documents, Value.documents, tasksOf_cons_cons]
          rw [hfirst _ closes_lines, layOut_append, layOut, layOut, ih]
          rfl

end Document

/-- The pieces of values that are printed and laid out in lines of `width` columns. -/
def Value.rendered (width : Nat) (vs : List Value) : List Piece :=
  (Printable.several (vs.map .value)).document.render width

namespace Printable

theorem listToValues_map_value (vs : List Value) : listToValues (vs.map .value) = vs := by
  induction vs with
  | nil => rfl
  | cons v vs ih => rw [List.map_cons, listToValues, ih, toValues, List.singleton_append]

/-- Laying out the document of a printable gives each list its mode. -/
theorem render_document (width : Nat) (p : Printable) :
    p.document.render width = Laid.spread (Value.laidOut width p.toValues) := by
  rw [document_eq, Document.render, Document.layOut_intersperse, List.append_nil,
    Document.layOut_laidOut]

/-- What is written when the document of a printable is laid out is its layout. -/
theorem prettyText_eq_render (width : Nat) (p : Printable) :
    p.prettyText width = String.ofList (Piece.allChars (p.document.render width)) := by
  rw [render_document, Value.allChars_spread_laidOut, prettyText, Value.prettyText]

end Printable

end MakerForms
