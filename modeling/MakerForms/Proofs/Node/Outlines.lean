import MakerForms.Node.Outline
import MakerForms.Proofs.Node.Fits
import MakerForms.Proofs.Node.Makers
import MakerForms.Proofs.Text.Literals

set_option autoImplicit false

/-! # What outlines show

An outline is for a reader to look at, so whatever is in the strings of a tree, no character of an
outline is without a shape, left out or drawn over another (`Tree.shown_outline`); in particular
an outline is one line. Strings are the only parts that come from elsewhere, and those of their
characters that would not be seen are written by their codes (`Literal.shown_encode`).

A place for any kind shows a node as its narrowest place does, and the name of that place besides
(`Tree.outline_node`).
-/

namespace MakerForms

/-! ## Characters that are seen -/

/-- Whether a character is seen by itself wherever it stands. -/
def isShown (c : Char) : Bool := !(isCombining c || isIgnorable c || isInvisible c)

/-- Whether a character is one of ASCII, and no control character. -/
def isPrintable (c : Char) : Bool := 0x20 ≤ c.toNat && c.toNat < 0x7F

/-- A character is in no range if its code lies in a stretch that all ranges leave out. -/
theorem inRanges_eq_false {table : List (Nat × Nat)} {c : Char} {low high : Nat}
    (htable : (table.all fun range => range.2 < low || high ≤ range.1) = true)
    (hlow : low ≤ c.toNat) (hhigh : c.toNat < high) : inRanges table c = false := by
  rw [inRanges, List.any_eq_false]
  intro range hrange
  have hout := List.all_eq_true.mp htable range hrange
  simp only [Bool.or_eq_true, decide_eq_true_eq] at hout
  simp only [Bool.and_eq_true, decide_eq_true_eq]
  omega

theorem isShown_of_isPrintable {c : Char} (h : isPrintable c = true) : isShown c = true := by
  obtain ⟨hlow, hhigh⟩ : 0x20 ≤ c.toNat ∧ c.toNat < 0x7F := by simpa [isPrintable] using h
  have hcombining : isCombining c = false := inRanges_eq_false (by decide +kernel) hlow hhigh
  have hignorable : isIgnorable c = false := inRanges_eq_false (by decide +kernel) hlow hhigh
  have hinvisible : isInvisible c = false := inRanges_eq_false (by decide +kernel) hlow hhigh
  rw [isShown, hcombining, hignorable, hinvisible]
  rfl

/-- Whether all characters of a text are seen. -/
def Shown (text : String) : Prop := ∀ c ∈ text.toList, isShown c = true

section Texts

variable {a b : String}

theorem shown_of_isPrintable (h : a.toList.all isPrintable = true) : Shown a := fun c hc =>
  isShown_of_isPrintable (List.all_eq_true.mp h c hc)

theorem Shown.append (ha : Shown a) (hb : Shown b) : Shown (a ++ b) := by
  intro c hc
  rw [String.toList_append, List.mem_append] at hc
  exact hc.elim (ha c) (hb c)

theorem Shown.tagged (ha : Shown a) (hb : Shown b) : Shown (tagged a b) :=
  ((ha.append (shown_of_isPrintable (by decide))).append hb).append
    (shown_of_isPrintable (by decide))

theorem Shown.joinTexts (ha : Shown a) :
    ∀ {texts : List String}, (∀ b ∈ texts, Shown b) → Shown (joinTexts a texts)
  | [], _ => shown_of_isPrintable rfl
  | [b], h => h b List.mem_cons_self
  | b :: d :: texts, h => by
      obtain ⟨hb, hrest⟩ := List.forall_mem_cons.mp h
      exact (hb.append ha).append (Shown.joinTexts ha hrest)

end Texts

/-! ## Words -/

/-- Whether a name is a word. -/
def IsWord (name : String) : Prop := name.toList ≠ [] ∧ name.toList.all isWordChar = true

instance (name : String) : Decidable (IsWord name) :=
  inferInstanceAs (Decidable (name.toList ≠ [] ∧ name.toList.all isWordChar = true))

theorem isWord_of_spelling {a : String}
    (h : ∃ cs, String.ofList cs = a ∧ (!cs.isEmpty && cs.all isWordChar) = true) : IsWord a := by
  obtain ⟨cs, rfl, hcs⟩ := h
  obtain ⟨hne, hall⟩ := Bool.and_eq_true_iff.mp hcs
  rw [IsWord, String.toList_ofList]
  exact ⟨by simpa using hne, hall⟩

theorem isPrintable_of_isWordChar {c : Char} (h : isWordChar c = true) : isPrintable c = true := by
  have hupper : c.isUpper = true ↔ 65 ≤ c.toNat ∧ c.toNat ≤ 90 := decide_eq_true_iff
  have hlower : c.isLower = true ↔ 97 ≤ c.toNat ∧ c.toNat ≤ 122 :=
    Bool.and_eq_true_iff.trans (and_congr decide_eq_true_iff decide_eq_true_iff)
  have hdigit : c.isDigit = true ↔ 48 ≤ c.toNat ∧ c.toNat ≤ 57 :=
    Bool.and_eq_true_iff.trans (and_congr decide_eq_true_iff decide_eq_true_iff)
  have hbounds : 45 ≤ c.toNat ∧ c.toNat ≤ 122 := by
    simp only [isWordChar, Char.isAlphanum, Bool.or_eq_true, beq_iff_eq] at h
    rcases h with (((h | h) | rfl) | rfl) | rfl
    · have hletter : c.isUpper = true ∨ c.isLower = true := Bool.or_eq_true_iff.mp h
      rw [hupper, hlower] at hletter
      omega
    · rw [hdigit] at h
      omega
    all_goals decide
  rw [isPrintable, Bool.and_eq_true, decide_eq_true_iff, decide_eq_true_iff]
  omega

theorem IsWord.shown {a : String} (h : IsWord a) : Shown a :=
  shown_of_isPrintable (List.all_eq_true.mpr fun c hc =>
    isPrintable_of_isWordChar (List.all_eq_true.mp h.2 c hc))

theorem Numeral.isWord_ofNat (n : Nat) : IsWord (ofNat n) := by
  obtain ⟨hne, hall⟩ := Bool.and_eq_true_iff.mp (isDigits_digits n)
  rw [IsWord, ofNat, String.toList_ofList]
  refine ⟨by simpa using hne, List.all_eq_true.mpr fun c hc => ?_⟩
  have hdigit : c.isDigit = true := List.all_eq_true.mp hall c hc
  simp [isWordChar, Char.isAlphanum, hdigit]

/-! ## Names -/

-- unification takes the characters from the names, which is much faster than evaluating them

theorem Operator.isWord_label (o : Operator) : IsWord o.label :=
  isWord_of_spelling (by cases o <;> exact ⟨_, rfl, rfl⟩)

namespace Kind

theorem isWord_label (k : Kind) : IsWord k.label :=
  isWord_of_spelling (by cases k <;> exact ⟨_, rfl, rfl⟩)

theorem isWord_variant (k : Kind) : IsWord k.variant :=
  isWord_of_spelling (by cases k <;> exact ⟨_, rfl, rfl⟩)

/-- What a kind is called among those that stand in the same places. -/
def placeName (k : Kind) : String :=
  match k.spec.role with
  | .member _ name => name
  | _ => k.label

theorem isWord_placeName (k : Kind) : IsWord k.placeName :=
  isWord_of_spelling (by cases k <;> exact ⟨_, rfl, rfl⟩)

theorem all_isWord_slotLabel :
    (Kind.all.all fun k => k.slots.all fun slot => decide (IsWord slot.label)) = true := by
  decide +kernel

theorem isWord_slotLabel {k : Kind} {slot : Slot} (h : slot ∈ k.slots) : IsWord slot.label := by
  have hslots := List.all_eq_true.mp all_isWord_slotLabel k k.mem_all
  exact of_decide_eq_true (List.all_eq_true.mp hslots slot h)

end Kind

/-! ## Strings -/

namespace Literal

/-- A character is written by an escape, or as it is if it is seen. -/
theorem showChar_cases (c : Char) :
    (showChar c).all isPrintable = true ∨ showChar c = [c] ∧ isShown c = true := by
  unfold showChar
  repeat' split
  any_goals exact .inl rfl
  · have hdigits : (Nat.toDigits 16 c.toNat).all isPrintable = true :=
      all_toDigits (by decide) c.toNat
    rw [codeEscape, List.all_append, List.all_append, hdigits]
    exact .inl rfl
  · next hseen => exact .inr ⟨rfl, by simpa [isShown] using hseen⟩

/-- Whatever characters a string has, those that it is shown with are seen. -/
theorem shown_encode (s : String) : Shown (encode s) := by
  have hquote : isShown '"' = true := isShown_of_isPrintable (by decide)
  intro c hc
  rw [encode, String.toList_ofList, List.mem_cons, List.mem_append, List.mem_singleton] at hc
  rcases hc with rfl | hc | rfl
  · exact hquote
  · obtain ⟨d, -, hd⟩ := List.mem_flatMap.mp hc
    rcases showChar_cases d with hescape | ⟨hself, hseen⟩
    · exact isShown_of_isPrintable (List.all_eq_true.mp hescape c hd)
    · rw [hself, List.mem_singleton] at hd
      rwa [hd]
  · exact hquote

end Literal

/-! ## Nodes -/

namespace Kind

theorem outline_placeSchema (k : Kind) (slots : List String) :
    k.outline slots k.placeSchema = k.outlineInFamily slots := by
  unfold outline placeSchema family? outlineInFamily
  cases k.spec.role <;> rfl

section Outlines

variable {k : Kind} {slots : List String}

theorem shown_outlineAlone (h : ∀ a ∈ slots, Shown a) : Shown (k.outlineAlone slots) := by
  unfold outlineAlone
  split
  · exact k.isWord_label.shown
  · have hslots : Shown (joinTexts ", " slots) :=
      Shown.joinTexts (shown_of_isPrintable (by decide)) h
    exact ((k.isWord_label.shown.append (shown_of_isPrintable (by decide))).append hslots).append
      (shown_of_isPrintable (by decide))

theorem shown_outlineInFamily (h : ∀ a ∈ slots, Shown a) : Shown (k.outlineInFamily slots) := by
  unfold outlineInFamily
  split
  · next name hrole =>
    obtain rfl : k.placeName = name := by rw [placeName, hrole]
    exact k.isWord_placeName.shown.tagged (shown_outlineAlone h)
  · exact shown_outlineAlone h

theorem shown_outline (h : ∀ a ∈ slots, Shown a) (s : Schema) : Shown (k.outline slots s) := by
  unfold outline
  split
  · exact k.isWord_variant.shown.tagged (shown_outlineInFamily h)
  · exact shown_outlineInFamily h
  · exact shown_outlineAlone h

end Outlines

end Kind

/-! ## Trees -/

namespace Tree

theorem outlineItems_eq_map (s : Schema) (ts : List Tree) :
    outlineItems s ts = ts.map (outline s) := by
  induction ts with
  | nil => rfl
  | cons t ts ih => rw [outlineItems, ih, List.map_cons]

/-- Each slot is shown by its name and what is in it. -/
theorem exists_of_mem_outlineSlots {slots : List Slot} {ts : List Tree} {a : String}
    (h : a ∈ outlineSlots slots ts) :
    ∃ slot ∈ slots, ∃ t ∈ ts, a = slot.label ++ ": " ++ t.outline slot.schema := by
  induction slots generalizing ts with
  | nil => cases ts <;> cases h
  | cons slot slots ih =>
      cases ts with
      | nil => cases h
      | cons t ts =>
          rcases List.mem_cons.mp h with rfl | h
          · exact ⟨slot, List.mem_cons_self, t, List.mem_cons_self, rfl⟩
          · obtain ⟨slot', hslot, u, hu, rfl⟩ := ih h
            exact ⟨slot', List.mem_cons_of_mem slot hslot, u, List.mem_cons_of_mem t hu, rfl⟩

/-- **Outlines show everything.** Whatever is in a tree, each character of an outline is seen. -/
theorem shown_outline (t : Tree) : ∀ s : Schema, Shown (t.outline s) := by
  induction t using parts_induction with
  | step t ih =>
  intro s
  cases t with
  | flag b =>
      rw [outline]
      split <;> exact shown_of_isPrintable (by decide)
  | character code => exact (Numeral.isWord_ofNat code.toNat).shown
  | number n => exact (Numeral.isWord_ofNat n).shown
  | string text => exact Literal.shown_encode text
  | operator o => exact o.isWord_label.shown
  | form k ts =>
      rw [outline]
      refine Kind.shown_outline (fun a ha => ?_) s
      obtain ⟨slot, hslot, u, hu, rfl⟩ := exists_of_mem_outlineSlots ha
      exact ((Kind.isWord_slotLabel hslot).shown.append (shown_of_isPrintable (by decide))).append
        (ih u hu slot.schema)
  | absent =>
      rw [outline]
      exact shown_of_isPrintable (by decide)
  | present t =>
      rw [outline]
      exact (shown_of_isPrintable (by decide)).tagged (ih t (by simp [parts]) s.inner)
  | sequence items =>
      rw [outline, outlineItems_eq_map]
      refine Shown.append (Shown.append (shown_of_isPrintable (by decide)) ?_)
        (shown_of_isPrintable (by decide))
      refine Shown.joinTexts (shown_of_isPrintable (by decide)) fun a ha => ?_
      obtain ⟨u, hu, rfl⟩ := List.mem_map.mp ha
      exact ih u (by simp [parts, hu]) s.inner

/-- An outline is one line. -/
theorem lineFeed_notMem_outline (t : Tree) (s : Schema) : '\n' ∉ (t.outline s).toList := by
  intro h
  have hhidden : isShown '\n' = false := by decide +kernel
  rw [t.shown_outline s '\n' h] at hhidden
  cases hhidden

/-- In a place for any kind a node is shown as in its narrowest place, and the name of that place
besides. -/
theorem outline_node {t : Tree} {k : Kind} (h : t.kind? = some k) :
    t.outline .node = tagged k.variant (t.outline k.placeSchema) := by
  cases t with
  | form l ts =>
      obtain rfl := Option.some.inj h
      rw [outline, outline, Kind.outline_placeSchema, Kind.outline]
  | _ => cases h

end Tree

end MakerForms
