import MakerForms.Proofs.Sexpr.LayoutShape

set_option autoImplicit false

/-! # More width never means more breaking

As long as the lists around it are broken, a list starts at the same column and is followed by the
same closing parentheses in lines of any width. So one that fits in narrow lines fits in wider ones,
and list by list what is on one line stays on one line (`Value.keepsFlat_laid`). Where that is so no
line breaks are added, neither in a single list nor in all of them (`Laid.KeepsFlat.lineBreaks_le`).
-/

namespace MakerForms

namespace Piece

def isNewline : Piece → Bool
  | newline _ => true
  | _ => false

/-- The number of line breaks among pieces. -/
def lineBreaks (ps : List Piece) : Nat := ps.countP isNewline

@[simp] theorem lineBreaks_nil : lineBreaks [] = 0 := rfl

theorem lineBreaks_cons (p : Piece) (ps : List Piece) :
    lineBreaks (p :: ps) = lineBreaks ps + (if p.isNewline then 1 else 0) := List.countP_cons

@[simp] theorem lineBreaks_append (ps qs : List Piece) :
    lineBreaks (ps ++ qs) = lineBreaks ps + lineBreaks qs := List.countP_append

end Piece

namespace Laid

/-- How the list that a value is, is laid out. -/
def mode? : Laid → Option Mode
  | atom _ _ => none
  | list mode _ => some mode

/-- The number of line breaks inside a value. -/
def lineBreaks (l : Laid) (depth : Nat) : Nat := Piece.lineBreaks (l.pieces separator depth)

/-- Whether `l` stands in a place of `ls`: which value it is or is in, then which item of that
value, and so on. -/
inductive At : List Laid → List Nat → Laid → Prop
  | here {ls : List Laid} {i : Nat} {l : Laid} : ls[i]? = some l → At ls [i] l
  | inside {ls items : List Laid} {i : Nat} {mode : Mode} {place : List Nat} {l : Laid} :
      ls[i]? = some (.list mode items) → At items place l → At ls (i :: place) l

/-! ## Lists that stay on one line -/

mutual

/-- Whether the second is the same value as the first, with each list on one line that is on one
line in the first. -/
def KeepsFlat : Laid → Laid → Prop
  | atom v _, atom u _ => u = v
  | list mode items, list mode' items' => (mode = .flat → mode' = .flat) ∧ KeepAllFlat items items'
  | _, _ => False

/-- Whether this is so for values one after another. -/
def KeepAllFlat : List Laid → List Laid → Prop
  | [], [] => True
  | l :: ls, m :: ms => KeepsFlat l m ∧ KeepAllFlat ls ms
  | _, _ => False

end

mutual

/-- A value with no list broken keeps on one line what is on one line. -/
theorem keepsFlat_flat : (l : Laid) → l.KeepsFlat l.value.flat
  | atom v hv => by
      cases v with
      | list vs => cases hv
      | symbol _ | integer _ | string _ | character _ => simp only [value, Value.flat, KeepsFlat]
  | list mode items => by
      rw [value, Value.flat, KeepsFlat]
      exact ⟨fun _ => rfl, keepAllFlat_flatItems items⟩

theorem keepAllFlat_flatItems : (ls : List Laid) → KeepAllFlat ls (Value.flatItems (values ls))
  | [] => by rw [values, Value.flatItems, KeepAllFlat]; trivial
  | l :: ls => by
      rw [values, Value.flatItems, KeepAllFlat]
      exact ⟨keepsFlat_flat l, keepAllFlat_flatItems ls⟩

end

end Laid

namespace Value

open Laid (KeepsFlat KeepAllFlat)

variable {width width' : Nat}

mutual

/-- In wider lines each list stays on one line, wherever the value starts and ends. -/
theorem keepsFlat_laid (h : width ≤ width') (depth column closing : Nat) : (v : Value) →
    KeepsFlat (v.laid width depth column closing) (v.laid width' depth column closing)
  | .list vs => by
      -- what fits in the wider lines is on one line there, whatever it is in the narrower ones
      by_cases hfits' : column + (Value.list vs).flatWidth + closing ≤ width'
      · have hflat := Laid.keepsFlat_flat ((Value.list vs).laid width depth column closing)
        rw [value_laid] at hflat
        rw [laid, laid, if_pos hfits', ← laid]
        exact hflat
      · rw [laid, laid, if_neg hfits', if_neg fun hfits => hfits' (Nat.le_trans hfits h), KeepsFlat]
        exact ⟨id, keepAllFlat_laidItems h (depth + 1) (column + 1) closing vs⟩
  | .symbol _ | .integer _ | .string _ | .character _ => by simp only [laid, KeepsFlat]

theorem keepAllFlat_laidItems (h : width ≤ width') (depth column closing : Nat) :
    (vs : List Value) → KeepAllFlat (laidItems width depth column closing vs)
      (laidItems width' depth column closing vs)
  | [] => by rw [laidItems, laidItems, KeepAllFlat]; trivial
  | [v] => by
      rw [laidItems, laidItems, KeepAllFlat, KeepAllFlat]
      exact ⟨keepsFlat_laid h depth column (closing + 1) v, trivial⟩
  | v :: w :: vs => by
      rw [laidItems, laidItems, KeepAllFlat]
      exact ⟨keepsFlat_laid h depth column 0 v,
        keepAllFlat_laidItems h depth (2 * depth) closing (w :: vs)⟩

end

theorem keepAllFlat_laidOut (h : width ≤ width') (vs : List Value) :
    KeepAllFlat (laidOut width vs) (laidOut width' vs) := by
  induction vs with
  | nil => rw [laidOut, laidOut, List.map_nil, List.map_nil, KeepAllFlat]; trivial
  | cons v vs ih =>
      rw [laidOut, laidOut, List.map_cons, List.map_cons, KeepAllFlat]
      exact ⟨keepsFlat_laid h 0 0 0 v, ih⟩

end Value

/-! ## What follows list by list -/

namespace Laid

mutual

theorem KeepsFlat.value_eq : {l m : Laid} → l.KeepsFlat m → m.value = l.value
  | atom v _, atom u _, h => by
      rw [KeepsFlat] at h
      exact h
  | list mode items, list mode' items', h => by
      rw [KeepsFlat] at h
      rw [value, value, KeepAllFlat.values_eq h.2]

theorem KeepAllFlat.values_eq : {ls ms : List Laid} → KeepAllFlat ls ms → values ms = values ls
  | [], [], _ => rfl
  | l :: ls, m :: ms, h => by
      rw [KeepAllFlat] at h
      rw [values, values, KeepsFlat.value_eq h.1, KeepAllFlat.values_eq h.2]

end

theorem lineBreaks_separator_le {mode mode' : Mode} (h : mode = .flat → mode' = .flat)
    (depth : Nat) :
    Piece.lineBreaks [separator mode' depth] ≤ Piece.lineBreaks [separator mode depth] := by
  cases mode with
  | flat =>
      obtain rfl : mode' = .flat := h rfl
      exact Nat.le_refl _
  | broken => cases mode' <;> simp [separator, Piece.lineBreaks_cons, Piece.isNewline]

mutual

/-- Where lists stay on one line no line breaks are added. -/
theorem KeepsFlat.lineBreaks_le (depth : Nat) : {l m : Laid} → l.KeepsFlat m →
    m.lineBreaks depth ≤ l.lineBreaks depth
  | atom v _, atom u _, h => by simp [lineBreaks, pieces, Piece.lineBreaks_cons, Piece.isNewline]
  | list mode items, list mode' items', h => by
      rw [KeepsFlat] at h
      have hitems := KeepAllFlat.lineBreaks_joined_le (depth + 1) h.2
        (lineBreaks_separator_le h.1 (depth + 1))
      simpa [lineBreaks, pieces, Piece.lineBreaks_cons, Piece.isNewline] using hitems

theorem KeepAllFlat.lineBreaks_joined_le (depth : Nat) {gap gap' : List Piece} :
    {ls ms : List Laid} → KeepAllFlat ls ms → Piece.lineBreaks gap' ≤ Piece.lineBreaks gap →
    Piece.lineBreaks (joined separator gap' depth ms)
      ≤ Piece.lineBreaks (joined separator gap depth ls)
  | [], [], _, _ => Nat.le_refl _
  | [l], [m], h, _ => by
      rw [KeepAllFlat] at h
      exact KeepsFlat.lineBreaks_le depth h.1
  | l :: l' :: ls, m :: m' :: ms, h, hgap => by
      rw [KeepAllFlat] at h
      have hfirst := KeepsFlat.lineBreaks_le depth h.1
      have hothers := KeepAllFlat.lineBreaks_joined_le depth h.2 hgap
      rw [lineBreaks, lineBreaks] at hfirst
      simp only [joined, Piece.lineBreaks_append]
      omega
  | [l], m :: m' :: ms, h, _ => by simp [KeepAllFlat] at h
  | l :: l' :: ls, [m], h, _ => by simp [KeepAllFlat] at h

end

theorem KeepsFlat.mode_eq_flat {l m : Laid} (h : l.KeepsFlat m) (hl : l.mode? = some .flat) :
    m.mode? = some .flat := by
  match l, m with
  | list mode items, list mode' items' =>
      rw [KeepsFlat] at h
      exact congrArg some (h.1 (Option.some.inj hl))
  | atom _ _, _ => cases hl
  | list _ _, atom _ _ => simp [KeepsFlat] at h

theorem KeepAllFlat.getElem? {ls ms : List Laid} (h : KeepAllFlat ls ms) {i : Nat} {l : Laid}
    (hl : ls[i]? = some l) : ∃ m, ms[i]? = some m ∧ l.KeepsFlat m := by
  induction ls generalizing ms i with
  | nil => cases hl
  | cons k ls ih =>
      cases ms with
      | nil => simp [KeepAllFlat] at h
      | cons m ms =>
          rw [KeepAllFlat] at h
          cases i with
          | zero => exact ⟨m, rfl, Option.some.inj hl ▸ h.1⟩
          | succ i => exact ih h.2 hl

/-- Each place has the same value in it, with the lists that are on one line still on one line. -/
theorem At.of_keepAllFlat {place : List Nat} {ls ms : List Laid} {l : Laid} (hl : At ls place l)
    (h : KeepAllFlat ls ms) : ∃ m, At ms place m ∧ l.KeepsFlat m := by
  induction hl generalizing ms with
  | here hl =>
      obtain ⟨m, hm, hkeeps⟩ := h.getElem? hl
      exact ⟨m, .here hm, hkeeps⟩
  | inside hlist _ ih =>
      obtain ⟨m, hm, hkeeps⟩ := h.getElem? hlist
      cases m with
      | atom v hv => simp [KeepsFlat] at hkeeps
      | list mode' items' =>
          rw [KeepsFlat] at hkeeps
          obtain ⟨m, hitem, hkeeps'⟩ := ih hkeeps.2
          exact ⟨m, .inside hm hitem, hkeeps'⟩

end Laid

namespace Value

/-- A value whose text on one line has no more columns than the lines is written on one line. -/
theorem prettyText_of_flatWidth_le {width : Nat} {v : Value} (h : v.flatWidth ≤ width) :
    prettyText width [v] = v.text := by
  have hchars : v.layout width 0 0 0 = v.chars := by
    cases v with
    | list vs => rw [layout, if_pos (by omega)]
    | symbol _ | integer _ | string _ | character _ => simp only [layout]
  rw [prettyText, prettyChars, hchars, ← toList_text, String.ofList_toList]

/-- **More width never means more breaking.** Of values laid out in lines of two widths, each list
that is on one line in the narrower lines is on one line in the wider ones, and in no value, nor in
all of them together, does the wider layout put in more line breaks. A value that is not wider than
the lines is written as on one line. -/
theorem wider_lines_break_no_more :
    (∀ (vs : List Value) (width width' : Nat), width ≤ width' →
      ∃ ls ms : List Laid, LaidOut width vs ls ∧ LaidOut width' vs ms ∧
        prettyText width vs = String.ofList (Piece.allChars (Laid.spread ls)) ∧
        prettyText width' vs = String.ofList (Piece.allChars (Laid.spread ms)) ∧
        (∀ (place : List Nat) (l : Laid), Laid.At ls place l → ∃ m, Laid.At ms place m ∧
          m.value = l.value ∧ (l.mode? = some .flat → m.mode? = some .flat) ∧
          ∀ depth, m.lineBreaks depth ≤ l.lineBreaks depth) ∧
        Piece.lineBreaks (Laid.spread ms) ≤ Piece.lineBreaks (Laid.spread ls)) ∧
    (∀ (v : Value) (width : Nat), v.flatWidth ≤ width → prettyText width [v] = v.text) := by
  refine ⟨fun vs width width' h => ?_, fun v width h => prettyText_of_flatWidth_le h⟩
  have hkeeps := keepAllFlat_laidOut h vs
  have hls := laidOut_laidOut width vs
  have hms := laidOut_laidOut width' vs
  refine ⟨laidOut width vs, laidOut width' vs, hls, hms, hls.prettyText_eq, hms.prettyText_eq,
    ?_, hkeeps.lineBreaks_joined_le 0 (Nat.le_refl _)⟩
  intro place l hl
  obtain ⟨m, hm, hkeeps'⟩ := hl.of_keepAllFlat hkeeps
  exact ⟨m, hm, hkeeps'.value_eq, hkeeps'.mode_eq_flat, fun depth => hkeeps'.lineBreaks_le depth⟩

/-- A number beside a list of two numbers. -/
def numberBesidePair : Value := .list [.integer 1, .list [.integer 2, .integer 3]]

theorem wider_lines_break_no_more_numberBesidePair :
    (∃ ls ms : List Laid, LaidOut 5 [numberBesidePair] ls ∧ LaidOut 8 [numberBesidePair] ms ∧
      (∀ (place : List Nat) (l : Laid), Laid.At ls place l → l.mode? = some .flat →
        ∃ m, Laid.At ms place m ∧ m.mode? = some .flat) ∧
      Piece.lineBreaks (Laid.spread ms) ≤ Piece.lineBreaks (Laid.spread ls)) ∧
    prettyText 5 [numberBesidePair] = "(1\n  (2\n    3))" ∧
    prettyText 8 [numberBesidePair] = "(1\n  (2 3))" ∧
    numberBesidePair.flatWidth = 9 ∧ prettyText 9 [numberBesidePair] = "(1 (2 3))" := by
  obtain ⟨ls, ms, hls, hms, -, -, hkeep, hbreaks⟩ :=
    wider_lines_break_no_more.1 [numberBesidePair] 5 8 (by decide)
  have hwidth : numberBesidePair.flatWidth = 9 := by decide +kernel
  have hfits := wider_lines_break_no_more.2 numberBesidePair 9 (Nat.le_of_eq hwidth)
  refine ⟨⟨ls, ms, hls, hms, ?_, hbreaks⟩, by decide +kernel, by decide +kernel, hwidth, ?_⟩
  · intro place l hl hflat
    obtain ⟨m, hm, -, hmode, -⟩ := hkeep place l hl
    exact ⟨m, hm, hmode hflat⟩
  · rw [hfits]
    decide +kernel

end Value

end MakerForms
