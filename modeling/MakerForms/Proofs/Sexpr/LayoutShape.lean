import MakerForms.Proofs.Sexpr.DocumentLayout
import MakerForms.Proofs.Sexpr.PrintRead

set_option autoImplicit false

/-! # The shape of a layout

What is written for values differs from their text on one line only in what separates them: the
items of a broken list stand on lines of their own, all other items are separated by a space. Which
lists are broken can be read off the pieces that are put out (`LaidOut.unique`), and a list inside a
list that is not broken is not broken either (`Laid.Stands.mode_of_flat`).
-/

namespace MakerForms

/-- Whether `ls` are the values `vs` with the modes that their lists have been given when they were
laid out in lines of `width` columns. -/
structure LaidOut (width : Nat) (vs : List Value) (ls : List Laid) : Prop where
  values_eq : ls.map Laid.value = vs
  rendered_eq : Value.rendered width vs = Laid.spread ls

/-! ## The modes can be read off -/

namespace Laid

section Inversion

variable (between : Mode → Nat → Piece)

mutual

/-- What follows a value and the modes of its lists can be told from its pieces. -/
theorem pieces_append_inj (depth : Nat) : (l m : Laid) → (rest rest' : List Piece) →
    l.value = m.value → l.pieces between depth ++ rest = m.pieces between depth ++ rest' →
    l = m ∧ rest = rest'
  | atom v hv, atom u hu, rest, rest', hvalue, heq => by
      obtain rfl : v = u := hvalue
      exact ⟨rfl, List.append_cancel_left heq⟩
  | atom v hv, list mode items, _, _, hvalue, _ => by
      rw [value, value] at hvalue
      rw [hvalue] at hv
      cases hv
  | list mode items, atom v hv, _, _, hvalue, _ => by
      rw [value, value] at hvalue
      rw [← hvalue] at hv
      cases hv
  | list mode items, list mode' items', rest, rest', hvalue, heq => by
      have hvalues : values items = values items' := by
        rw [value, value] at hvalue
        exact Value.list.inj hvalue
      simp only [pieces, List.cons_append, List.append_assoc, List.cons.injEq, true_and,
        Piece.group.injEq] at heq
      obtain ⟨rfl, hrest⟩ := heq
      obtain ⟨rfl, hbehind⟩ :=
        joined_append_inj _ (depth + 1) items items' _ _ hvalues hrest
      exact ⟨rfl, (List.cons.inj hbehind).2⟩

theorem joined_append_inj (gap : List Piece) (depth : Nat) : (ls ms : List Laid) →
    (rest rest' : List Piece) → values ls = values ms →
    joined between gap depth ls ++ rest = joined between gap depth ms ++ rest' →
    ls = ms ∧ rest = rest'
  | [], [], rest, rest', _, heq => ⟨rfl, heq⟩
  | [], m :: ms, _, _, hvalues, _ => by
      rw [values, values] at hvalues
      cases hvalues
  | l :: ls, [], _, _, hvalues, _ => by
      rw [values, values] at hvalues
      cases hvalues
  | [l], [m], rest, rest', hvalues, heq => by
      have hvalue : l.value = m.value := (List.cons.inj hvalues).1
      obtain ⟨rfl, hrest⟩ := pieces_append_inj depth l m rest rest' hvalue heq
      exact ⟨rfl, hrest⟩
  | [l], m :: m' :: ms, _, _, hvalues, _ => by
      simp [values] at hvalues
  | l :: l' :: ls, [m], _, _, hvalues, _ => by
      simp [values] at hvalues
  | l :: l' :: ls, m :: m' :: ms, rest, rest', hvalues, heq => by
      have hvalue : l.value = m.value := (List.cons.inj hvalues).1
      have hothers : values (l' :: ls) = values (m' :: ms) := (List.cons.inj hvalues).2
      simp only [joined, List.append_assoc] at heq
      obtain ⟨rfl, hbehind⟩ := pieces_append_inj depth l m _ _ hvalue heq
      obtain ⟨hrest, hlast⟩ := joined_append_inj gap depth (l' :: ls) (m' :: ms) rest rest' hothers
        (List.append_cancel_left hbehind)
      exact ⟨by rw [hrest], hlast⟩

end

end Inversion

end Laid

/-- Values are laid out in one way only. -/
theorem LaidOut.unique {width : Nat} {vs : List Value} {ls ms : List Laid}
    (hls : LaidOut width vs ls) (hms : LaidOut width vs ms) : ls = ms := by
  have hvalues : Laid.values ls = Laid.values ms := by
    rw [Laid.values_eq_map, Laid.values_eq_map, hls.values_eq, hms.values_eq]
  have hpieces : Laid.spread ls ++ [] = Laid.spread ms ++ [] := by
    rw [← hls.rendered_eq, ← hms.rendered_eq]
  exact (Laid.joined_append_inj Laid.separator _ 0 ls ms [] [] hvalues hpieces).1

/-- Each list is given the mode that it has in `Value.laidOut`. -/
theorem laidOut_laidOut (width : Nat) (vs : List Value) :
    LaidOut width vs (Value.laidOut width vs) := by
  refine ⟨Value.map_value_laidOut width vs, ?_⟩
  rw [Value.rendered, Printable.render_document, Printable.toValues,
    Printable.listToValues_map_value]

/-- What is written is the layout of the values. -/
theorem Value.prettyText_eq_rendered (width : Nat) (vs : List Value) :
    prettyText width vs = String.ofList (Piece.allChars (rendered width vs)) := by
  rw [(laidOut_laidOut width vs).rendered_eq, allChars_spread_laidOut, prettyText]

/-- What is written is the values with the separators of their modes. -/
theorem LaidOut.prettyText_eq {width : Nat} {vs : List Value} {ls : List Laid}
    (h : LaidOut width vs ls) :
    Value.prettyText width vs = String.ofList (Piece.allChars (Laid.spread ls)) := by
  rw [Value.prettyText_eq_rendered, h.rendered_eq]

/-- With a space as the only separator, laid out values are written as on one line. -/
theorem LaidOut.joinedText_eq {width : Nat} {vs : List Value} {ls : List Laid}
    (h : LaidOut width vs ls) :
    Value.joinedText vs = String.ofList (Piece.allChars (Laid.plain ls)) := by
  rw [Laid.plain, Laid.allChars_joined_plain, Laid.values_eq_map, h.values_eq,
    ← Value.toList_joinedText, String.ofList_toList]

/-! ## Where a value stands -/

namespace Laid

/-- Whether `l` stands somewhere in `ls`: the modes of the lists around it, the innermost first, and
the pieces in front of it and behind it. -/
inductive Stands (ls : List Laid) : List Mode → List Piece → Laid → List Piece → Prop
  | top {us ws : List Laid} {l : Laid} : ls = us ++ l :: ws →
      Stands ls [] (leading separator [.newline 0, .newline 0] 0 us) l
        (trailing separator [.newline 0, .newline 0] 0 ws)
  | item {modes : List Mode} {before after : List Piece} {mode : Mode} {us ws : List Laid}
      {l : Laid} : Stands ls modes before (.list mode (us ++ l :: ws)) after →
      Stands ls (mode :: modes)
        (before ++ .text ['('] :: .group mode ::
          leading separator [separator mode (modes.length + 1)] (modes.length + 1) us)
        l
        (trailing separator [separator mode (modes.length + 1)] (modes.length + 1) ws ++
          .text [')'] :: after)

/-- What is in front of a value, the value and what is behind it are all that is put out. -/
theorem Stands.spread_eq {ls : List Laid} {modes : List Mode} {before after : List Piece}
    {l : Laid} (h : Stands ls modes before l after) :
    spread ls = before ++ (l.pieces separator modes.length ++ after) := by
  induction h with
  | top hls => rw [spread, hls, joined_append_cons, List.length_nil]
  | item hlist ih =>
      rw [ih, pieces, joined_append_cons, List.length_cons]
      simp only [List.cons_append, List.append_assoc, List.nil_append]

end Laid

/-! ## Lists inside a list that is not broken -/

namespace Value

theorem flatItems_eq_map (vs : List Value) : flatItems vs = vs.map flat := by
  induction vs with
  | nil => rfl
  | cons v vs ih => rw [flatItems, ih, List.map_cons]

theorem flat_eq_list {v : Value} {mode : Mode} {items : List Laid}
    (h : v.flat = .list mode items) :
    mode = .flat ∧ ∃ vs, v = .list vs ∧ items = flatItems vs := by
  cases v with
  | list vs =>
      rw [flat] at h
      obtain ⟨rfl, rfl⟩ := Laid.list.inj h
      exact ⟨rfl, vs, rfl, rfl⟩
  | symbol _ | integer _ | string _ | character _ =>
      simp only [flat] at h
      cases h

theorem flat_of_mem_items {v : Value} {mode : Mode} {items : List Laid} {l : Laid}
    (h : v.flat = .list mode items) (hl : l ∈ items) : ∃ u : Value, l = u.flat := by
  obtain ⟨-, vs, -, rfl⟩ := flat_eq_list h
  rw [flatItems_eq_map] at hl
  obtain ⟨u, -, hu⟩ := List.mem_map.mp hl
  exact ⟨u, hu.symm⟩

/-- A list is broken exactly if it does not fit, together with the closing parentheses behind it. -/
theorem laid_eq_list {width depth column closing : Nat} {v : Value} {mode : Mode}
    {items : List Laid} (h : v.laid width depth column closing = .list mode items) :
    (mode = .flat ∧ column + v.flatWidth + closing ≤ width ∧ .list mode items = v.flat) ∨
      (mode = .broken ∧ width < column + v.flatWidth + closing ∧
        ∃ vs, items = laidItems width (depth + 1) (column + 1) closing vs) := by
  cases v with
  | list vs =>
      by_cases hfits : column + (Value.list vs).flatWidth + closing ≤ width
      · rw [laid, if_pos hfits] at h
        exact .inl ⟨(flat_eq_list h).1, hfits, h.symm⟩
      · rw [laid, if_neg hfits] at h
        obtain ⟨rfl, rfl⟩ := Laid.list.inj h
        exact .inr ⟨rfl, by omega, vs, rfl⟩
  | symbol _ | integer _ | string _ | character _ =>
      simp only [laid] at h
      cases h

/-- What stands among the items of a broken list is laid out as far as the line in front of it and
the parentheses behind it go. -/
theorem laid_of_mem_laidItems {width depth column closing : Nat} {vs : List Value}
    {us ws : List Laid} {l : Laid}
    (h : laidItems width depth column closing vs = us ++ l :: ws) :
    ∃ v, l = laid width depth (if us = [] then column else 2 * depth)
      (if ws = [] then closing + 1 else 0) v := by
  induction us generalizing column vs with
  | nil =>
      match vs with
      | [] => cases h
      | [v] =>
          obtain ⟨hl, hws⟩ := List.cons.inj h
          exact ⟨v, by rw [if_pos rfl, if_pos hws.symm, ← hl]⟩
      | v :: w :: vs =>
          obtain ⟨hl, hws⟩ := List.cons.inj h
          have hne : ws ≠ [] := hws ▸ laidItems_ne_nil width depth (2 * depth) closing w vs
          exact ⟨v, by rw [if_pos rfl, if_neg hne, ← hl]⟩
  | cons u us ih =>
      match vs with
      | [] => cases h
      | [v] =>
          have hnil := (List.cons.inj h).2
          simp at hnil
      | v :: w :: vs =>
          obtain ⟨v, hv⟩ := ih (List.cons.inj h).2
          exact ⟨v, by rw [hv, if_neg (List.cons_ne_nil u us), ite_self]⟩

end Value

/-! ## Columns and ends of lines -/

/-- Whether pieces begin with a line break, or there are none. -/
inductive EndsLine : List Piece → Prop
  | nil : EndsLine []
  | newline (indent : Nat) (ps : List Piece) : EndsLine (.newline indent :: ps)

namespace Laid

/-- Behind a gap that ends in a line break a value starts at its indentation. -/
theorem columnBehind_leading {gap : List Piece} (indent : Nat)
    (hgap : ∀ column, Piece.columnBehind column gap = indent) (column depth : Nat)
    (us : List Laid) :
    Piece.columnBehind column (leading separator gap depth us)
      = if us = [] then column else indent := by
  induction us generalizing column with
  | nil => rfl
  | cons u us ih =>
      rw [leading, List.flatMap_cons, ← leading, Piece.columnBehind_append,
        Piece.columnBehind_append, hgap, ih, if_neg (List.cons_ne_nil u us), ite_self]

/-- Behind an item of a broken list stands a line break, or behind the last item the parenthesis
that closes the list and those that are closed behind the list. -/
theorem closing_behind_item (closing : Nat) {rest : List Piece} (hrest : EndsLine rest)
    (indent depth : Nat) (ws : List Laid) :
    ∃ rest', trailing separator [.newline indent] depth ws ++
        .text [')'] :: (List.replicate closing (.text [')']) ++ rest)
      = List.replicate (if ws = [] then closing + 1 else 0) (.text [')']) ++ rest' ∧
        EndsLine rest' := by
  cases ws with
  | nil =>
      refine ⟨rest, ?_, hrest⟩
      rw [if_pos rfl, List.replicate_succ]
      rfl
  | cons w ws =>
      rw [if_neg (List.cons_ne_nil w ws)]
      exact ⟨_, (List.nil_append _).symm, .newline indent _⟩

/-- What stands in values that are laid out stands inside a list that is not broken, and then no
list in it is; or all lists around it are broken, and then it is laid out for the column that it
starts at and for the parentheses that are closed behind it before the line ends. -/
theorem Stands.origin {width : Nat} {vs : List Value} {modes : List Mode}
    {before after : List Piece} {l : Laid}
    (h : Stands (Value.laidOut width vs) modes before l after) :
    (.flat ∈ modes ∧ ∃ v : Value, l = v.flat) ∨
      (.flat ∉ modes ∧ ∃ (v : Value) (closing : Nat) (rest : List Piece),
        l = v.laid width modes.length (Piece.columnBehind 0 before) closing ∧
        after = List.replicate closing (.text [')']) ++ rest ∧ EndsLine rest) := by
  induction h with
  | @top us ws l hls =>
      have hmem : l ∈ Value.laidOut width vs := by
        rw [hls]
        exact List.mem_append_right us List.mem_cons_self
      obtain ⟨v, -, rfl⟩ := List.mem_map.mp hmem
      have hcolumn :
          Piece.columnBehind 0 (leading separator [.newline 0, .newline 0] 0 us) = 0 := by
        rw [columnBehind_leading 0 fun _ => rfl, ite_self]
      refine .inr ⟨List.not_mem_nil, v, 0, _, by rw [hcolumn]; rfl, rfl, ?_⟩
      cases ws with
      | nil => exact .nil
      | cons w ws => exact .newline 0 _
  | @item modes before after mode us ws l hlist ih =>
      have hitem : l ∈ us ++ l :: ws := List.mem_append_right us List.mem_cons_self
      have hcolumn : Piece.columnBehind 0 (before ++ .text ['('] :: .group .broken ::
          leading separator [separator .broken (modes.length + 1)] (modes.length + 1) us)
          = if us = [] then Piece.columnBehind 0 before + 1 else 2 * (modes.length + 1) := by
        rw [Piece.columnBehind_append, Piece.columnBehind_cons, Piece.columnBehind_cons,
          columnBehind_leading (2 * (modes.length + 1)) fun _ => rfl]
        simp only [Piece.advance, Document.textWidth_paren]
      -- an item is on one line with its list; in a broken list the column of the item and what is
      -- closed behind it follow from those of the list
      rcases ih with ⟨hflat, v, hv⟩ | ⟨hbroken, v, closing, rest, hv, rfl, hrest⟩
      · exact .inl ⟨List.mem_cons_of_mem mode hflat, Value.flat_of_mem_items hv.symm hitem⟩
      · rcases Value.laid_eq_list hv.symm with ⟨rfl, -, hflat⟩ | ⟨rfl, -, vs, hvs⟩
        · exact .inl ⟨List.mem_cons_self, Value.flat_of_mem_items hflat.symm hitem⟩
        · obtain ⟨u, hu⟩ := Value.laid_of_mem_laidItems hvs.symm
          have hmodes : .flat ∉ Mode.broken :: modes := by simp [hbroken]
          rw [hcolumn, List.length_cons, hu]
          obtain ⟨rest', hbehind, hrest'⟩ :=
            closing_behind_item closing hrest (2 * (modes.length + 1)) (modes.length + 1) ws
          exact .inr ⟨hmodes, u, _, rest', rfl, hbehind, hrest'⟩

/-- A list inside a list that is not broken is not broken. -/
theorem Stands.mode_of_flat {width : Nat} {vs : List Value} {modes : List Mode}
    {before after : List Piece} {mode : Mode} {items : List Laid}
    (h : Stands (Value.laidOut width vs) modes before (.list mode items) after)
    (hflat : .flat ∈ modes) : mode = .flat := by
  rcases h.origin with ⟨-, v, hv⟩ | ⟨hbroken, -⟩
  · exact (Value.flat_eq_list hv.symm).1
  · exact absurd hflat hbroken

end Laid

/-- **A layout differs from the text on one line only in its separators.** When values are laid out,
their lists are given modes, which can be read off the pieces that are put out. A broken list stands
inside broken lists only. The same pieces with other separators make up the layout and the text on
one line: in the layout two line breaks between two values, between two items of a broken list a
line break and two blanks for each list around them, and one space between two items of any other
list; on one line always one space. Nothing else stands between parentheses and atoms. -/
theorem Value.layout_differs_in_separators (width : Nat) (vs : List Value) :
    ∃ ls : List Laid, LaidOut width vs ls ∧ (∀ ms, LaidOut width vs ms → ms = ls) ∧
      (∀ (modes : List Mode) (before after : List Piece) (items : List Laid),
        Laid.Stands ls modes before (.list .broken items) after → ∀ mode ∈ modes, mode = .broken) ∧
      prettyText width vs = String.ofList (Piece.allChars (Laid.spread ls)) ∧
      joinedText vs = String.ofList (Piece.allChars (Laid.plain ls)) := by
  have hls := laidOut_laidOut width vs
  refine ⟨laidOut width vs, hls, fun ms hms => hms.unique hls, ?_, hls.prettyText_eq,
    hls.joinedText_eq⟩
  intro modes before after items h mode hmode
  cases mode with
  | flat => exact absurd (h.mode_of_flat hmode) (by decide)
  | broken => rfl

end MakerForms
