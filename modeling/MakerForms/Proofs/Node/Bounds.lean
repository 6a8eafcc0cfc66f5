import MakerForms.Proofs.Node.RoundTrip

set_option autoImplicit false

/-! # What is accepted is within its bounds

A tree that a value decodes to fits the schema that the value was decoded for
(`Tree.fits_of_decode_eq_ok`), so every node in it, wherever it stands, has what the slots of its
kind ask for. For four kinds these are bounds: the name of an identifier is spelled as names are,
the literal of an integer is not negative, the index of a component has 64 bits and the literal of
a character has eight.

The same holds of the forms in the value itself: a form in an accepted value that is headed by the
maker of a kind has been decoded as a node of the kind, whatever place it stands in
(`Value.decode_kind_of_head?`). So one form that is out of bounds, at any depth, keeps the value
from being accepted.
-/

namespace MakerForms

/-! ## Names -/

namespace Identifier

/-- Whether `c` is one of `A` to `Z` and `a` to `z`. -/
def IsLetter (c : Char) : Prop := 'A' ≤ c ∧ c ≤ 'Z' ∨ 'a' ≤ c ∧ c ≤ 'z'

/-- Whether `c` is one of `0` to `9`. -/
def IsDigit (c : Char) : Prop := '0' ≤ c ∧ c ≤ '9'

/-- Whether a string is a letter or `_`, and then letters, digits and `_`. -/
def Spelled (name : String) : Prop :=
  ∃ c cs, name.toList = c :: cs ∧ (IsLetter c ∨ c = '_') ∧
    ∀ d ∈ cs, IsLetter d ∨ IsDigit d ∨ d = '_'

theorem isAlpha_iff {c : Char} : c.isAlpha = true ↔ IsLetter c := by
  have hupper : c.isUpper = true ↔ 'A' ≤ c ∧ c ≤ 'Z' := decide_eq_true_iff
  have hlower : c.isLower = true ↔ 'a' ≤ c ∧ c ≤ 'z' :=
    Bool.and_eq_true_iff.trans (and_congr decide_eq_true_iff decide_eq_true_iff)
  rw [IsLetter, ← hupper, ← hlower]
  exact Bool.or_eq_true_iff

theorem isStart_iff {c : Char} : isStart c = true ↔ IsLetter c ∨ c = '_' := by
  simp [isStart, isAlpha_iff]

theorem isRest_iff {c : Char} : isRest c = true ↔ IsLetter c ∨ IsDigit c ∨ c = '_' := by
  simp [isRest, Char.isAlphanum, isAlpha_iff, Char.isDigit, IsDigit, Char.le_def, or_assoc]

theorem isValid_iff {name : String} : isValid name = true ↔ Spelled name := by
  unfold isValid Spelled
  cases name.toList with
  | nil => simp
  | cons c cs => simp [isStart_iff, isRest_iff]

end Identifier

/-! ## What decodes fits -/

namespace Tree

theorem fitSlots_of_slotsDecode {slots : List Slot} {args : List (String × Value)}
    {ts : List Tree} (h : SlotsDecode slots args ts)
    (hargs : ∀ v ∈ formArguments args, ∀ (s : Schema) (t : Tree),
      v.decode s = .ok t → t.fits s = true) :
    fitSlots ts slots = true := by
  induction h with
  | nil => rfl
  | @cons slot slots v args t ts hv _ ih =>
      have ht : t.fits slot.schema = true := hargs v (by simp [formArguments]) slot.schema t hv
      have hts : fitSlots ts slots = true := ih fun u hu => hargs u (by simp [formArguments, hu])
      rw [fitSlots, ht, hts, Bool.and_self]

theorem fitAll_of_decode {s : Schema} {vs : List Value} {ts : List Tree}
    (h : List.Forall₂ (fun v t => v.decode s = .ok t) vs ts)
    (hvs : ∀ v ∈ vs, ∀ t : Tree, v.decode s = .ok t → t.fits s = true) :
    fitAll ts s = true := by
  induction h with
  | nil => rfl
  | @cons v t vs ts hv _ ih =>
      have ht : t.fits s = true := hvs v (by simp) t hv
      have hts : fitAll ts s = true := ih fun u hu => hvs u (by simp [hu])
      rw [fitAll, ht, hts, Bool.and_self]

/-- A tree that a value decodes to fits the place that the value was decoded for. -/
theorem fits_of_decode_eq_ok (v : Value) :
    ∀ (s : Schema) (t : Tree), v.decode s = .ok t → t.fits s = true := by
  induction v using Value.items_induction with
  | step v ih =>
  have hkind : ∀ (k : Kind) (t : Tree), v.decode (.kind k) = .ok t →
      t.fits (.kind k) = true := by
    intro k t h
    obtain ⟨args, ts, hargs, rfl, rfl⟩ := Value.decode_kind_eq_ok_iff.mp h
    refine fits_kind_iff.mpr ⟨ts, rfl, fitSlots_of_slotsDecode hargs fun u hu => ?_⟩
    exact ih u (by simp [Value.form, Value.items, hu])
  intro s
  -- an option decodes the same value in a place of its inner schema
  induction s with
  | flag =>
      intro t h
      obtain ⟨b, -, rfl⟩ := Value.decode_flag_eq_ok_iff.mp h
      exact fits_flag_iff.mpr ⟨b, rfl⟩
  | character =>
      intro t h
      obtain ⟨code, -, rfl⟩ := Value.decode_character_eq_ok_iff.mp h
      exact fits_character_iff.mpr ⟨code, rfl⟩
  | index =>
      intro t h
      obtain ⟨n, hn, -, rfl⟩ := Value.decode_index_eq_ok_iff.mp h
      exact fits_index_iff.mpr ⟨n, rfl, hn⟩
  | natural =>
      intro t h
      obtain ⟨n, -, rfl⟩ := Value.decode_natural_eq_ok_iff.mp h
      exact fits_natural_iff.mpr ⟨n, rfl⟩
  | string =>
      intro t h
      obtain ⟨s, -, rfl⟩ := Value.decode_string_eq_ok_iff.mp h
      exact fits_string_iff.mpr ⟨s, rfl⟩
  | name =>
      intro t h
      obtain ⟨s, hs, -, rfl⟩ := Value.decode_name_eq_ok_iff.mp h
      exact fits_name_iff.mpr ⟨s, rfl, hs⟩
  | operator place =>
      intro t h
      obtain ⟨o, ho, -, rfl⟩ := Value.decode_operator_eq_ok_iff.mp h
      exact fits_operator_iff.mpr ⟨o, rfl, ho⟩
  | kind k => exact hkind k
  | family f =>
      intro t h
      obtain ⟨k, hfamily, hk⟩ := Value.decode_family_eq_ok_iff.mp h
      exact fits_family_iff.mpr ⟨k, hfamily, hkind k t hk⟩
  | node =>
      intro t h
      obtain ⟨k, hk⟩ := Value.decode_node_eq_ok_iff.mp h
      exact fits_node_iff.mpr ⟨k, hkind k t hk⟩
  | option s ihs =>
      intro t h
      rcases Value.decode_option_eq_ok_iff.mp h with ⟨-, rfl⟩ | ⟨-, u, hu, rfl⟩
      · exact fits_option_iff.mpr (Or.inl rfl)
      · exact fits_option_iff.mpr (Or.inr ⟨u, rfl, ihs u hu⟩)
  | sequence s _ =>
      intro t h
      obtain ⟨vs, ts, hts, rfl, rfl⟩ := Value.decode_sequence_eq_ok_iff.mp h
      refine fits_sequence_iff.mpr ⟨ts, rfl, fitAll_of_decode hts fun u hu => ?_⟩
      exact ih u (by simp [Value.items, hu]) s

/-! ## Every node in a tree -/

/-- Whether a property holds of a tree and of all trees that it is made of. -/
inductive Everywhere (P : Tree → Prop) : Tree → Prop
  | step {t : Tree} : P t → (∀ u ∈ t.parts, Everywhere P u) → Everywhere P t

theorem exists_fits_of_fitSlots {ts : List Tree} {slots : List Slot}
    (h : fitSlots ts slots = true) : ∀ t ∈ ts, ∃ s : Schema, t.fits s = true := by
  induction ts generalizing slots with
  | nil => simp
  | cons t ts ih =>
      cases slots with
      | nil => simp [fitSlots] at h
      | cons slot slots =>
          obtain ⟨ht, hts⟩ : t.fits slot.schema = true ∧ fitSlots ts slots = true := by
            simpa [fitSlots] using h
          exact List.forall_mem_cons.mpr ⟨⟨slot.schema, ht⟩, ih hts⟩

theorem fitSlots_of_fits {k : Kind} {ts : List Tree} {s : Schema}
    (h : (form k ts).fits s = true) : fitSlots ts k.slots = true := by
  cases s with
  | kind l =>
      obtain ⟨us, heq, hus⟩ := fits_kind_iff.mp h
      obtain ⟨rfl, rfl⟩ := form.inj heq
      exact hus
  | family f => exact (Bool.and_eq_true_iff.mp (by rwa [fits] at h)).2
  | node => rwa [fits] at h
  | _ => simp at h

/-- The parts of a tree that fits some place fit their own places. -/
theorem exists_fits_of_mem_parts {t u : Tree} {s : Schema} (h : t.fits s = true)
    (hu : u ∈ t.parts) : ∃ r : Schema, u.fits r = true := by
  cases t with
  | form k ts => exact exists_fits_of_fitSlots (fitSlots_of_fits h) u hu
  | present t =>
      obtain rfl : u = t := by simpa [parts] using hu
      cases s with
      | option s => exact ⟨s, by rwa [fits] at h⟩
      | _ => simp at h
  | sequence ts =>
      cases s with
      | sequence s => exact ⟨s, fitAll_iff.mp (by rwa [fits] at h) u hu⟩
      | _ => simp at h
  | _ => simp [parts] at hu

/-- What holds of every tree that fits a place holds everywhere in such a tree. -/
theorem everywhere_of_fits {P : Tree → Prop}
    (hP : ∀ (t : Tree) (s : Schema), t.fits s = true → P t) (t : Tree) :
    ∀ s : Schema, t.fits s = true → t.Everywhere P := by
  induction t using parts_induction with
  | step t ih =>
      intro s h
      refine .step (hP t s h) fun u hu => ?_
      obtain ⟨r, hr⟩ := exists_fits_of_mem_parts h hu
      exact ih u hu r hr

/-- Whether a node is within the bounds of its kind, its parts apart. -/
structure WithinBounds (t : Tree) : Prop where
  name : ∀ ts, t = .form .identifier ts → ∃ name, Identifier.Spelled name ∧ ts = [.string name]
  integer : ∀ ts, t = .form .literalInteger ts → ∃ n : Nat, ts = [.number n]
  index : ∀ ts, t = .form .expressionComponent ts →
    ∃ multi n, n < 18446744073709551616 ∧ ts = [multi, .number n]
  character : ∀ ts, t = .form .literalCharacter ts →
    ∃ code : UInt8, code.toNat ≤ 255 ∧ ts = [.character code]

theorem withinBounds_of_fits (t : Tree) (s : Schema) (h : t.fits s = true) : t.WithinBounds := by
  constructor
  · rintro ts rfl
    obtain ⟨u, rfl, hu⟩ := fitSlots_singleton_iff.mp (fitSlots_of_fits h)
    obtain ⟨name, rfl, hname⟩ := fits_name_iff.mp hu
    exact ⟨name, Identifier.isValid_iff.mp hname, rfl⟩
  · rintro ts rfl
    obtain ⟨u, rfl, hu⟩ := fitSlots_singleton_iff.mp (fitSlots_of_fits h)
    obtain ⟨n, rfl⟩ := fits_natural_iff.mp hu
    exact ⟨n, rfl⟩
  · rintro ts rfl
    obtain ⟨multi, us, rfl, -, hus⟩ := fitSlots_cons_iff.mp (fitSlots_of_fits h)
    obtain ⟨u, rfl, hu⟩ := fitSlots_singleton_iff.mp hus
    obtain ⟨n, rfl, hn⟩ := fits_index_iff.mp hu
    exact ⟨multi, n, hn, rfl⟩
  · rintro ts rfl
    obtain ⟨u, rfl, hu⟩ := fitSlots_singleton_iff.mp (fitSlots_of_fits h)
    obtain ⟨code, rfl⟩ := fits_character_iff.mp hu
    have hcode : code.toNat < 256 := code.toNat_lt
    exact ⟨code, by omega, rfl⟩

end Tree

/-! ## Every form in a value -/

namespace Value

theorem maker_eq_of_form_eq {maker maker' : String} {vs : List Value}
    {args : List (String × Value)}
    (h : list (.symbol (Symbol.maker maker) :: vs) = form maker' args) : maker = maker' :=
  congrArg Symbol.name (symbol.inj (List.cons.inj (list.inj h)).1)

/-- In whatever place a form is accepted, it is accepted as a node of the kind whose maker heads
it. -/
theorem decode_kind_of_head? {v : Value} {k : Kind} {s : Schema} {t : Tree}
    (hhead : v.head? = some (Symbol.maker k.maker)) (h : v.decode s = .ok t) :
    ∃ u, v.decode (.kind k) = .ok u := by
  obtain ⟨vs, rfl⟩ := head?_eq_some_iff.mp hhead
  have hkind : ∀ {l : Kind} {u : Tree},
      (list (.symbol (Symbol.maker k.maker) :: vs)).decode (.kind l) = .ok u → l = k := by
    intro l u hu
    obtain ⟨args, ts, -, hform, -⟩ := decode_kind_eq_ok_iff.mp hu
    exact (Kind.maker_inj (maker_eq_of_form_eq hform)).symm
  induction s generalizing t with
  | flag =>
      obtain ⟨b, hb, -⟩ := decode_flag_eq_ok_iff.mp h
      cases b <;> cases hb
  | character =>
      obtain ⟨code, hv, -⟩ := decode_character_eq_ok_iff.mp h
      cases hv
  | index =>
      obtain ⟨n, -, hv, -⟩ := decode_index_eq_ok_iff.mp h
      cases hv
  | natural =>
      obtain ⟨n, hv, -⟩ := decode_natural_eq_ok_iff.mp h
      cases hv
  | string =>
      obtain ⟨s, hv, -⟩ := decode_string_eq_ok_iff.mp h
      cases hv
  | name =>
      obtain ⟨s, -, hv, -⟩ := decode_name_eq_ok_iff.mp h
      cases hv
  | operator place =>
      obtain ⟨o, -, heq, -⟩ := decode_operator_eq_ok_iff.mp h
      exact absurd (maker_eq_of_form_eq heq).symm (o.maker_ne_kind k)
  | kind l =>
      obtain rfl := hkind h
      exact ⟨t, h⟩
  | family f =>
      obtain ⟨l, -, hl⟩ := decode_family_eq_ok_iff.mp h
      obtain rfl := hkind hl
      exact ⟨t, hl⟩
  | node =>
      obtain ⟨l, hl⟩ := decode_node_eq_ok_iff.mp h
      obtain rfl := hkind hl
      exact ⟨t, hl⟩
  | option s ihs =>
      rcases decode_option_eq_ok_iff.mp h with ⟨hnil, -⟩ | ⟨-, u, hu, -⟩
      · cases hnil
      · exact ihs hu
  | sequence s _ =>
      obtain ⟨us, ts, -, heq, -⟩ := decode_sequence_eq_ok_iff.mp h
      have hsymbols := symbol.inj (List.cons.inj (list.inj heq)).1
      exact absurd (congrArg Symbol.package hsymbols) (by
        simp [Symbol.maker, Symbol.qualified, Symbol.list, Symbol.bare])

/-- An argument of a node that decodes is a keyword, or decodes in its own place. -/
theorem decode_of_mem_formArguments {slots : List Slot} {args : List (String × Value)}
    {ts : List Tree} (h : SlotsDecode slots args ts) {u : Value} (hu : u ∈ formArguments args) :
    (∃ name, u = symbol name) ∨ ∃ r w, u.decode r = .ok w := by
  induction h with
  | nil => simp [formArguments] at hu
  | @cons slot slots v args t ts hv _ ih =>
      rw [formArguments, List.mem_cons, List.mem_cons] at hu
      rcases hu with rfl | rfl | hu
      · exact Or.inl ⟨_, rfl⟩
      · exact Or.inr ⟨slot.schema, t, hv⟩
      · exact ih hu

/-- An item of a value that decodes is a symbol, or decodes in its own place. -/
theorem decode_of_mem_items {v u : Value} {s : Schema} {t : Tree} (h : v.decode s = .ok t)
    (hu : u ∈ v.items) : (∃ name, u = symbol name) ∨ ∃ r w, u.decode r = .ok w := by
  have hkind : ∀ {k : Kind} {w : Tree}, v.decode (.kind k) = .ok w →
      (∃ name, u = symbol name) ∨ ∃ r w, u.decode r = .ok w := by
    intro k w hw
    obtain ⟨args, ts, hargs, rfl, -⟩ := decode_kind_eq_ok_iff.mp hw
    rcases List.mem_cons.mp hu with rfl | hu
    · exact Or.inl ⟨_, rfl⟩
    · exact decode_of_mem_formArguments hargs hu
  induction s generalizing t with
  | flag =>
      obtain ⟨b, rfl, -⟩ := decode_flag_eq_ok_iff.mp h
      cases b <;> simp [ofBool, nil, items] at hu
  | character =>
      obtain ⟨code, rfl, -⟩ := decode_character_eq_ok_iff.mp h
      simp [items] at hu
  | index =>
      obtain ⟨n, -, rfl, -⟩ := decode_index_eq_ok_iff.mp h
      simp [items] at hu
  | natural =>
      obtain ⟨n, rfl, -⟩ := decode_natural_eq_ok_iff.mp h
      simp [items] at hu
  | string =>
      obtain ⟨s, rfl, -⟩ := decode_string_eq_ok_iff.mp h
      simp [items] at hu
  | name =>
      obtain ⟨s, -, rfl, -⟩ := decode_name_eq_ok_iff.mp h
      simp [items] at hu
  | operator place =>
      obtain ⟨o, -, rfl, -⟩ := decode_operator_eq_ok_iff.mp h
      exact Or.inl ⟨_, by simpa [form, formArguments, items] using hu⟩
  | kind k => exact hkind h
  | family f =>
      obtain ⟨k, -, hk⟩ := decode_family_eq_ok_iff.mp h
      exact hkind hk
  | node =>
      obtain ⟨k, hk⟩ := decode_node_eq_ok_iff.mp h
      exact hkind hk
  | option s ihs =>
      rcases decode_option_eq_ok_iff.mp h with ⟨rfl, -⟩ | ⟨-, w, hw, -⟩
      · simp [nil, items] at hu
      · exact ihs hw
  | sequence s _ =>
      obtain ⟨vs, ts, hts, rfl, -⟩ := decode_sequence_eq_ok_iff.mp h
      rcases List.mem_cons.mp hu with rfl | hu
      · exact Or.inl ⟨_, rfl⟩
      · have hboth : List.Forall₂ (fun v t => (∃ w, v.decode s = .ok w) ∧ v.decode s = .ok t)
            vs ts := hts.imp fun _ w hw => ⟨⟨w, hw⟩, hw⟩
        exact Or.inr ⟨s, ((List.forall₂_and_left vs ts).mp hboth).1 u hu⟩

/-- Whether a form of one of the four kinds with bounds is within them, its arguments apart. -/
structure WithinBounds (v : Value) : Prop where
  name : ∀ vs, v = .list (.symbol (Symbol.maker "MAKE-IDENTIFIER") :: vs) →
    ∃ name, Identifier.Spelled name ∧ vs = [.symbol (Symbol.keyword "NAME"), .string name]
  integer : ∀ vs, v = .list (.symbol (Symbol.maker "MAKE-LITERAL-INTEGER") :: vs) →
    ∃ i : Int, 0 ≤ i ∧ vs = [.symbol (Symbol.keyword "VALUE"), .integer i]
  index : ∀ vs, v = .list (.symbol (Symbol.maker "MAKE-EXPRESSION-COMPONENT") :: vs) →
    ∃ multi, ∃ i : Int, 0 ≤ i ∧ i < 18446744073709551616 ∧
      vs = [.symbol (Symbol.keyword "MULTI"), multi, .symbol (Symbol.keyword "INDEX"), .integer i]
  character : ∀ vs, v = .list (.symbol (Symbol.maker "MAKE-LITERAL-CHARACTER") :: vs) →
    ∃ code : UInt8, code.toNat ≤ 255 ∧ vs = [.symbol (Symbol.keyword "VALUE"), .character code]

/-- The arguments of an accepted form stand in the slots of the kind whose maker heads it. -/
theorem slotsDecode_of_head {k : Kind} {vs : List Value} {s : Schema} {t : Tree}
    (h : (list (.symbol (Symbol.maker k.maker) :: vs)).decode s = .ok t) :
    ∃ args ts, SlotsDecode k.slots args ts ∧ vs = formArguments args := by
  obtain ⟨u, hu⟩ := decode_kind_of_head? rfl h
  obtain ⟨args, ts, hargs, hform, -⟩ := decode_kind_eq_ok_iff.mp hu
  exact ⟨args, ts, hargs, (List.cons.inj (list.inj hform)).2⟩

theorem withinBounds_of_decode {v : Value} {s : Schema} {t : Tree} (h : v.decode s = .ok t) :
    v.WithinBounds := by
  constructor
  · rintro vs rfl
    obtain ⟨args, ts, hargs, rfl⟩ := slotsDecode_of_head (k := .identifier) h
    obtain ⟨u, w, rfl, hu⟩ := hargs.of_singleton
    obtain ⟨name, hname, rfl, -⟩ := decode_name_eq_ok_iff.mp hu
    exact ⟨name, Identifier.isValid_iff.mp hname, rfl⟩
  · rintro vs rfl
    obtain ⟨args, ts, hargs, rfl⟩ := slotsDecode_of_head (k := .literalInteger) h
    obtain ⟨u, w, rfl, hu⟩ := hargs.of_singleton
    obtain ⟨n, rfl, -⟩ := decode_natural_eq_ok_iff.mp hu
    exact ⟨n, Int.natCast_nonneg n, rfl⟩
  · rintro vs rfl
    obtain ⟨args, ts, hargs, rfl⟩ := slotsDecode_of_head (k := .expressionComponent) h
    obtain ⟨multi, rest, -, us, rfl, -, hrest⟩ := hargs.of_cons
    obtain ⟨u, w, rfl, hu⟩ := hrest.of_singleton
    obtain ⟨n, hn, rfl, -⟩ := decode_index_eq_ok_iff.mp hu
    have hsize : UInt64.size = 18446744073709551616 := rfl
    exact ⟨multi, n, by omega, by omega, rfl⟩
  · rintro vs rfl
    obtain ⟨args, ts, hargs, rfl⟩ := slotsDecode_of_head (k := .literalCharacter) h
    obtain ⟨u, w, rfl, hu⟩ := hargs.of_singleton
    obtain ⟨code, rfl, -⟩ := decode_character_eq_ok_iff.mp hu
    have hcode : code.toNat < 256 := code.toNat_lt
    exact ⟨code, by omega, rfl⟩

theorem withinBounds_symbol (s : Symbol) : (symbol s).WithinBounds := by
  constructor <;> rintro vs ⟨⟩

/-- Everything in an accepted value is within its bounds. -/
theorem everywhere_withinBounds_of_decode (v : Value) :
    ∀ (s : Schema) (t : Tree), v.decode s = .ok t → v.Everywhere WithinBounds := by
  induction v using items_induction with
  | step v ih =>
      intro s t h
      refine everywhere_iff.mpr ⟨withinBounds_of_decode h, fun u hu => ?_⟩
      rcases decode_of_mem_items h hu with ⟨name, rfl⟩ | ⟨r, w, hw⟩
      · exact withinBounds_symbol name
      · exact ih u hu r w hw

/-- **Only what is within its bounds is accepted.** A tree that a value decodes to fits the schema,
and each node in it has a name, a number or a character within the bounds of its kind; so has each
form in the value. A value with a form anywhere in it that is out of bounds is refused. -/
theorem decode_within_bounds (s : Schema) (v : Value) :
    (∀ t, v.decode s = .ok t →
      t.fits s = true ∧ t.Everywhere Tree.WithinBounds ∧ v.Everywhere WithinBounds) ∧
    (¬ v.Everywhere WithinBounds → ∃ e, v.decode s = .error e) := by
  constructor
  · intro t h
    have hfits := Tree.fits_of_decode_eq_ok v s t h
    exact ⟨hfits, Tree.everywhere_of_fits Tree.withinBounds_of_fits t s hfits,
      everywhere_withinBounds_of_decode v s t h⟩
  · intro hout
    cases hdecode : v.decode s with
    | error e => exact ⟨e, rfl⟩
    | ok t => exact absurd (everywhere_withinBounds_of_decode v s t hdecode) hout

/-- The form of a component of what a call of a function with a name gives for a character. -/
def componentOfCall (name : String) (index : Int) : Value :=
  .form "MAKE-EXPRESSION-COMPONENT" [("MULTI",
    .form "MAKE-EXPRESSION-CALL" [("FUNCTION", .form "MAKE-IDENTIFIER" [("NAME", .string name)]),
      ("TYPES", .list [.symbol Symbol.list]),
      ("ARGUMENTS", .list [.symbol Symbol.list, .form "MAKE-EXPRESSION-LITERAL"
        [("GET", .form "MAKE-LITERAL-CHARACTER" [("VALUE", .character 255)])]])]),
    ("INDEX", .integer index)]

theorem not_everywhere_withinBounds_componentOfCall :
    ¬ (componentOfCall "9lives" 0).Everywhere WithinBounds := by
  intro h
  obtain ⟨-, -, -, hcall, -⟩ := h
  obtain ⟨-, -, -, hidentifier, -⟩ := hcall
  obtain ⟨name, hname, heq⟩ := hidentifier.1.name _ rfl
  obtain rfl : "9lives" = name := by simpa [formArguments] using heq
  have hvalid := Identifier.isValid_iff.mpr hname
  revert hvalid
  decide +kernel

theorem decode_within_bounds_componentOfCall :
    (∃ t, (componentOfCall "_f1" 18446744073709551615).decode (.family .expression) = .ok t ∧
      t.Everywhere Tree.WithinBounds ∧
      (componentOfCall "_f1" 18446744073709551615).Everywhere WithinBounds) ∧
    ¬ (componentOfCall "9lives" 0).Everywhere WithinBounds ∧
    ∃ e, (componentOfCall "9lives" 0).decode (.family .expression) = .error e := by
  have h : (componentOfCall "_f1" 18446744073709551615).decode (.family .expression) = .ok
      (.form .expressionComponent [.form .expressionCall [Identifier.tree "_f1", .sequence [],
        .sequence [.form .expressionLiteral [.form .literalCharacter [.character 255]]]],
        .number 18446744073709551615]) := by
    rfl
  have hin := (decode_within_bounds _ _).1 _ h
  have hout := not_everywhere_withinBounds_componentOfCall
  exact ⟨⟨_, h, hin.2⟩, hout, (decode_within_bounds (.family .expression) _).2 hout⟩

end Value

end MakerForms
