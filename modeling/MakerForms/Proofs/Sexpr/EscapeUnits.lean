import MakerForms.Proofs.Sexpr.FormSpans
import MakerForms.Proofs.Text.Units

set_option autoImplicit false

/-! # Escapes and pairs

The text of a literal is gone through twice. To find the end of the literal, each backslash is
paired with the character behind it, whatever that is (`IsBody`). To find what the text stands for,
it is cut into units (`Quoted.TextUnit`).

The two stay in step, although an escape of six characters is a pair and four more characters. These
are digits, so none of them belongs to another pair (`Quoted.Denotes.append_of_front`). The cut gets
as far as the first pair that starts no unit. So the literal is a fault exactly if there is such a
pair (`Quoted.units_start_at_pairs`).
-/

namespace MakerForms

/-! ## Bodies of literals -/

section Bodies

variable {c : Char} {front cs : List Char}

theorem isBody_pair_iff : IsBody ('\\' :: c :: cs) ↔ IsBody cs := by
  constructor
  · intro h
    cases h with
    | pair h => exact h
    | plain _ hbackslash _ => exact absurd rfl hbackslash
  · exact IsBody.pair

theorem isBody_plain_iff (hc : c ≠ '\\') : IsBody (c :: cs) ↔ c ≠ '"' ∧ IsBody cs := by
  constructor
  · intro h
    cases h with
    | pair _ => exact absurd rfl hc
    | plain hquote _ h => exact ⟨hquote, h⟩
  · rintro ⟨hquote, h⟩
    exact IsBody.plain hquote hc h

theorem IsBody.append_iff (h : IsBody front) : IsBody (front ++ cs) ↔ IsBody cs := by
  induction h with
  | nil => rfl
  | pair _ ih => rw [List.cons_append, List.cons_append, isBody_pair_iff, ih]
  | plain hquote hbackslash _ ih =>
      rw [List.cons_append, isBody_plain_iff hbackslash, ih]
      exact and_iff_right hquote

end Bodies

namespace Quoted

/-! ## Units and pairs -/

/-- Whether the rule for literals pairs the backslash behind `front` with the character behind it:
`front` is made of pairs and plain characters, so nothing in it is paired with that backslash. -/
def PairsBehind (body front : List Char) : Prop :=
  ∃ c behind, body = front ++ '\\' :: c :: behind ∧ IsBody front

/-- Whether one of the units stands behind `front` and starts with a backslash. -/
def EscapeBehind (us : List TextUnit) (front : List Char) : Prop :=
  ∃ vs u ws, us = vs ++ u :: ws ∧ texts vs = front ∧ u.text.head? = some '\\'

/-- Whether some unit stands behind `front` in a text. -/
def UnitBehind (body front : List Char) : Prop := ∃ u : TextUnit, front ++ u.text <+: body

section InStep

variable {x cs front behind body : List Char} {c : Char}

/-- A unit ends between two pairs. -/
theorem Denotes.isBody_of_append (h : Denotes x c) (hbody : IsBody (x ++ cs)) :
    IsBody x ∧ IsBody cs := by
  have hx : IsBody x := by
    cases h with
    | plain hc => exact .plain ((isBody_plain_iff hc).mp hbody).1 hc .nil
    | lineFeed | carriageReturn | tab | quote | backslash => exact .pair .nil
    | code ha hb hc hd _ =>
        exact .pair (.plain ha.ne_quote ha.ne_backslash (.plain hb.ne_quote hb.ne_backslash
          (.plain hc.ne_quote hc.ne_backslash (.plain hd.ne_quote hd.ne_backslash .nil))))
  exact ⟨hx, hx.append_iff.mp hbody⟩

/-- No backslash stands behind the first pair of a unit. -/
theorem Denotes.backslash_not_mem (h : Denotes x c) : '\\' ∉ x.drop 2 := by
  cases h with
  | code ha hb hc hd _ =>
      simp [ha.ne_backslash.symm, hb.ne_backslash.symm, hc.ne_backslash.symm,
        hd.ne_backslash.symm]
  | _ => simp

/-- The rule for literals comes to no backslash inside of a unit. -/
theorem Denotes.not_cut (h : Denotes x c) (hfront : IsBody front) (hne : front ≠ []) :
    x ≠ front ++ '\\' :: behind := by
  rintro rfl
  cases hfront with
  | nil => exact hne rfl
  | pair _ => exact h.backslash_not_mem (by simp)
  | plain _ hbackslash _ =>
      -- a unit that starts with another character has only this one
      have hlength := h.length_eq []
      simp [unitLength, hbackslash] at hlength

/-- Where a unit starts and the rule for literals comes to a later backslash, it has gone over the
whole unit. -/
theorem Denotes.append_of_front (h : Denotes x c) (hfront : IsBody front) (hne : front ≠ [])
    (heq : x ++ cs = front ++ '\\' :: behind) :
    ∃ front', front = x ++ front' ∧ IsBody front' ∧ cs = front' ++ '\\' :: behind := by
  rcases List.append_eq_append_iff.mp heq with ⟨front', rfl, hcs⟩ | ⟨tail, rfl, htail⟩
  · exact ⟨front', rfl, (h.isBody_of_append hfront).2, hcs⟩
  · cases tail with
    | nil => exact ⟨[], by simp, .nil, htail.symm⟩
    | cons d tail =>
        obtain ⟨rfl, -⟩ := List.cons.inj htail
        exact absurd rfl (h.not_cut hfront hne)

theorem isBody_texts_of_append (us : List TextUnit) (h : IsBody (texts us ++ cs)) :
    IsBody (texts us) := by
  induction us with
  | nil => exact .nil
  | cons u us ih =>
      rw [texts_cons, List.append_assoc] at h
      obtain ⟨hu, hus⟩ := u.denotes.isBody_of_append h
      exact hu.append_iff.mpr (ih hus)

theorem EscapeBehind.cons {us : List TextUnit} (u : TextUnit) (h : EscapeBehind us front) :
    EscapeBehind (u :: us) (u.text ++ front) := by
  obtain ⟨vs, v, ws, rfl, rfl, hhead⟩ := h
  exact ⟨u :: vs, v, ws, rfl, rfl, hhead⟩

/-- A unit that starts with a backslash starts with a pair. -/
theorem EscapeBehind.pairsBehind {us : List TextUnit} (h : EscapeBehind us front)
    (hbody : IsBody (texts us ++ cs)) : PairsBehind (texts us ++ cs) front := by
  obtain ⟨vs, u, ws, rfl, rfl, hhead⟩ := h
  rw [texts_append, texts_cons, List.append_assoc, List.append_assoc] at hbody ⊢
  have hfront : IsBody (texts vs) := isBody_texts_of_append vs hbody
  obtain ⟨tail, hu⟩ : ∃ tail, u.text = '\\' :: tail := List.head?_eq_some_iff.mp hhead
  have hpair : IsBody u.text :=
    (u.denotes.isBody_of_append (hfront.append_iff.mp hbody)).1
  rw [hu] at hpair ⊢
  cases hpair with
  | pair _ => exact ⟨_, _, rfl, hfront⟩
  | plain _ hbackslash _ => exact absurd rfl hbackslash

theorem not_pairsBehind_nil : ¬ PairsBehind [] front := by
  rintro ⟨c, behind, heq, -⟩
  simp at heq

/-- The pairs of a body are where its first units start with a backslash, and the pairs of what is
left of it. -/
theorem pairsBehind_append_iff (us : List TextUnit) (hbody : IsBody (texts us ++ cs)) :
    PairsBehind (texts us ++ cs) front ↔
      EscapeBehind us front ∨ ∃ front', front = texts us ++ front' ∧ PairsBehind cs front' := by
  constructor
  · rintro ⟨c, behind, heq, hfront⟩
    induction us generalizing front with
    | nil => exact Or.inr ⟨front, rfl, c, behind, heq, hfront⟩
    | cons u us ih =>
        rw [texts_cons, List.append_assoc] at heq hbody
        by_cases hne : front = []
        · obtain ⟨d, tail, hu⟩ := List.exists_cons_of_ne_nil u.denotes.ne_nil
          rw [hne, hu] at heq
          obtain rfl : d = '\\' := (List.cons.inj heq).1
          exact Or.inl ⟨[], u, us, rfl, hne.symm, by rw [hu, List.head?_cons]⟩
        · -- a later pair stands behind the whole of the first unit
          obtain ⟨front', rfl, hfront', hrest⟩ := u.denotes.append_of_front hfront hne heq
          rcases ih (u.denotes.isBody_of_append hbody).2 hrest hfront' with
            hescape | ⟨last, rfl, hpairs⟩
          · exact Or.inl (hescape.cons u)
          · exact Or.inr ⟨last, by rw [texts_cons, List.append_assoc], hpairs⟩
  · rintro (hescape | ⟨front', rfl, c, behind, rfl, hfront'⟩)
    · exact hescape.pairsBehind hbody
    · have hfront : IsBody (texts us) := isBody_texts_of_append us hbody
      exact ⟨c, behind, by rw [List.append_assoc], hfront.append_iff.mpr hfront'⟩

/-! ## Pairs that start no unit -/

theorem exists_unit_of_isBody (hbody : IsBody body) (hne : body ≠ [])
    (h : ∀ front, PairsBehind body front → UnitBehind body front) :
    ∃ u : TextUnit, u.text <+: body := by
  cases hbody with
  | nil => exact absurd rfl hne
  | @pair c cs _ => exact h [] ⟨c, cs, rfl, .nil⟩
  | @plain c cs _ hbackslash _ => exact ⟨⟨[c], c, .plain hbackslash⟩, cs, rfl⟩

/-- A body all of whose pairs start units can be cut into units. -/
theorem exists_texts_of_pairs {body : List Char} (hbody : IsBody body)
    (h : ∀ front, PairsBehind body front → UnitBehind body front) : ∃ us, texts us = body := by
  by_cases hne : body = []
  · exact ⟨[], hne.symm⟩
  obtain ⟨u, rest, rfl⟩ := exists_unit_of_isBody hbody hne h
  obtain ⟨hu, hrest⟩ := u.denotes.isBody_of_append hbody
  have hpairs : ∀ front, PairsBehind rest front → UnitBehind rest front := by
    rintro front ⟨c, behind, rfl, hfront⟩
    obtain ⟨v, hv⟩ := h (u.text ++ front)
      ⟨c, behind, by rw [List.append_assoc], hu.append_iff.mpr hfront⟩
    rw [List.append_assoc, List.prefix_append_right_inj] at hv
    exact ⟨v, hv⟩
  have hshorter : rest.length < (u.text ++ rest).length := by
    have hpos := List.length_pos_iff.mpr u.denotes.ne_nil
    rw [List.length_append]
    omega
  -- what is left of the body is shorter, and its pairs start units, too
  obtain ⟨us, rfl⟩ := exists_texts_of_pairs hrest hpairs
  exact ⟨u :: us, texts_cons u us⟩
termination_by body.length

/-- A body stands for nothing exactly if some pair in it starts no unit. -/
theorem resolve?_eq_none_iff (hbody : IsBody body) :
    resolve? body = none ↔ ∃ front, PairsBehind body front ∧ ¬ UnitBehind body front := by
  constructor
  · intro hnone
    by_contra hall
    have hpairs : ∀ front, PairsBehind body front → UnitBehind body front := by
      intro front hfront
      by_contra hunit
      exact hall ⟨front, hfront, hunit⟩
    obtain ⟨us, rfl⟩ := exists_texts_of_pairs hbody hpairs
    rw [resolve?_texts] at hnone
    cases hnone
  · rintro ⟨front, hpair, hunit⟩
    rw [Option.eq_none_iff_forall_ne_some]
    intro t ht
    obtain ⟨us, rfl, -⟩ := exists_units_of_resolve? ht
    rw [← List.append_nil (texts us)] at hbody hpair
    rcases (pairsBehind_append_iff us hbody).mp hpair with hescape | ⟨last, -, hnil⟩
    · obtain ⟨vs, u, ws, rfl, rfl, -⟩ := hescape
      exact hunit ⟨u, texts ws, by simp⟩
    · exact not_pairsBehind_nil hnil

end InStep

end Quoted

/-! ## Literals -/

namespace Scanner

section Literals

variable {s behind : Scanner} {body : List Char}

theorem next_of_resolve? (h : s.lexeme? = some (.quoted body, behind)) :
    s.next = (some (match Quoted.resolve? body with
      | some cs => .ok ⟨.string (String.ofList cs), ⟨s.skip.offset, behind.offset⟩⟩
      | none => .error ⟨.invalidEscape, String.ofList (Lexeme.quoted body).text,
          ⟨s.skip.offset, behind.offset⟩⟩), behind) := by
  rw [next, h]
  simp only [complete, Lexeme.token, (passes_of_lexeme? h).1.textUpTo_eq]
  cases Quoted.resolve? body <;> rfl

end Literals

end Scanner

namespace Quoted

/-- **Escapes and pairs stay in step.** A text between quotes stands for something exactly if it can
be cut into units, and then for the characters of these units, and no text can be cut in two ways.

Let a scanner come to a literal with such a text. However much of the text is cut into units, the
pairs that the rule for literals makes of a backslash and the character behind it are where these
units start with a backslash, and the pairs of what is left; if nothing is left, there are no more.
The literal is a token of the string that its text stands for. If there is none, it is a fault over
the whole literal, and this is so exactly if some pair starts no unit. -/
theorem units_start_at_pairs (body : List Char) :
    (∀ t, resolve? body = some t ↔
      ∃ us, texts us = body ∧ us.map TextUnit.character = t) ∧
    Function.Injective texts ∧
    ∀ s behind : Scanner, s.lexeme? = some (.quoted body, behind) →
      s.skip.Passes (Lexeme.quoted body).text behind ∧
      (∀ us rest, texts us ++ rest = body → ∀ front, PairsBehind body front ↔
        EscapeBehind us front ∨ ∃ front', front = texts us ++ front' ∧ PairsBehind rest front') ∧
      (∀ t, resolve? body = some t ↔
        s.next = (some (.ok ⟨.string (String.ofList t), ⟨s.skip.offset, behind.offset⟩⟩), behind)) ∧
      (s.next = (some (.error ⟨.invalidEscape, String.ofList (Lexeme.quoted body).text,
          ⟨s.skip.offset, behind.offset⟩⟩), behind) ↔
        ∃ front, PairsBehind body front ∧ ¬ UnitBehind body front) := by
  refine ⟨fun t => resolve?_eq_some_iff, texts_injective, fun s behind h => ?_⟩
  have hbody : IsBody body := (Scanner.whole_of_lexeme? h rfl).1
  have hnext := Scanner.next_of_resolve? h
  refine ⟨(Scanner.passes_of_lexeme? h).1, ?_, fun t => ?_, ?_⟩
  · rintro us rest rfl front
    exact pairsBehind_append_iff us hbody
  · rw [hnext]
    cases resolve? body with
    | none => simp
    | some cs => simp [String.ofList_inj]
  · rw [← resolve?_eq_none_iff hbody, hnext]
    cases resolve? body with
    | none => simp
    | some cs => simp

/-- An escaped backslash before an `n`, and a code that ends early, at an escaped quote: the units
end behind the `n`, and the literal is a fault. -/
theorem units_start_at_pairs_shortCode :
    (Scanner.ofString "; \"\n \"\\\\n\\u00\\\"\"x").lexeme?
      = some (.quoted "\\\\n\\u00\\\"".toList, ⟨['x'], 16⟩) ∧
    (∀ front, PairsBehind "\\\\n\\u00\\\"".toList front ↔
      EscapeBehind [⟨_, _, .backslash⟩, ⟨['n'], _, .plain (by decide)⟩] front ∨
        ∃ front', front = '\\' :: '\\' :: 'n' :: front' ∧
          PairsBehind "\\u00\\\"".toList front') ∧
    (Scanner.ofString "; \"\n \"\\\\n\\u00\\\"\"x").next
      = (some (.error ⟨.invalidEscape, "\"\\\\n\\u00\\\"\"", ⟨5, 16⟩⟩), ⟨['x'], 16⟩) ∧
    ∃ front, PairsBehind "\\\\n\\u00\\\"".toList front ∧
      ¬ UnitBehind "\\\\n\\u00\\\"".toList front := by
  have hlexeme : (Scanner.ofString "; \"\n \"\\\\n\\u00\\\"\"x").lexeme?
      = some (.quoted "\\\\n\\u00\\\"".toList, ⟨['x'], 16⟩) := rfl
  obtain ⟨-, hunits, -, hfault⟩ := (units_start_at_pairs _).2.2 _ _ hlexeme
  exact ⟨hlexeme, hunits _ _ rfl, rfl, hfault.mp rfl⟩

end Quoted

end MakerForms
