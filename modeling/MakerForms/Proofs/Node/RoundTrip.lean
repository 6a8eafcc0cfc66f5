import MakerForms.Proofs.Node.Decoding
import MakerForms.Proofs.Node.Fits
import MakerForms.Proofs.Sexpr.Nesting

set_option autoImplicit false

/-! # Encoding and decoding are inverse

A tree that fits a clear schema decodes from its own value (`decode_encode_of_fits`), and a value
that decodes is the value of what it decodes to (`encode_of_decode_eq_ok`). So a node has one
written form: nothing in a value that decodes is read and then forgotten.

Both are inductions over the parts, of the tree in one case and of the value in the other, with
one case for each sort of schema.
-/

namespace MakerForms

namespace Tree

/-! ## From a tree to its value and back -/

theorem encodeItems_eq_map (ts : List Tree) : encodeItems ts = ts.map encode := by
  induction ts with
  | nil => rfl
  | cons t ts ih => rw [encodeItems, ih, List.map_cons]

/-- Where `NIL` stands for nothing by itself, no tree is written as `NIL`. -/
theorem encode_ne_nil {t : Tree} {s : Schema} (hs : s.readsNil = false)
    (ht : t.fits s = true) : t.encode ≠ Value.nil := by
  cases s with
  | flag => simp [Schema.readsNil] at hs
  | option s => simp [Schema.readsNil] at hs
  | character =>
      obtain ⟨code, rfl⟩ := fits_character_iff.mp ht
      simp [encode, Value.nil]
  | index =>
      obtain ⟨n, rfl, -⟩ := fits_index_iff.mp ht
      simp [encode, Value.nil]
  | natural =>
      obtain ⟨n, rfl⟩ := fits_natural_iff.mp ht
      simp [encode, Value.nil]
  | string =>
      obtain ⟨s, rfl⟩ := fits_string_iff.mp ht
      simp [encode, Value.nil]
  | name =>
      obtain ⟨s, rfl, -⟩ := fits_name_iff.mp ht
      simp [encode, Value.nil]
  | operator place =>
      obtain ⟨o, rfl, -⟩ := fits_operator_iff.mp ht
      simp [encode, Value.form, Value.nil]
  | kind k =>
      obtain ⟨ts, rfl, -⟩ := fits_kind_iff.mp ht
      simp [encode, Value.form, Value.nil]
  | family f =>
      obtain ⟨k, -, hk⟩ := fits_family_iff.mp ht
      obtain ⟨ts, rfl, -⟩ := fits_kind_iff.mp hk
      simp [encode, Value.form, Value.nil]
  | node =>
      obtain ⟨k, hk⟩ := fits_node_iff.mp ht
      obtain ⟨ts, rfl, -⟩ := fits_kind_iff.mp hk
      simp [encode, Value.form, Value.nil]
  | sequence s =>
      obtain ⟨ts, rfl, -⟩ := fits_sequence_iff.mp ht
      simp [encode, Value.nil]

/-- Trees that decode from their own values make up the slots that they are written in. -/
theorem slotsDecode_encodeSlots {slots : List Slot} {ts : List Tree}
    (hclear : (slots.all fun slot => slot.schema.isClear) = true)
    (hfits : fitSlots ts slots = true)
    (hts : ∀ t ∈ ts, ∀ s : Schema, s.isClear = true → t.fits s = true →
      t.encode.decode s = .ok t) :
    SlotsDecode slots (encodeSlots slots ts) ts := by
  induction ts generalizing slots with
  | nil =>
      cases slots with
      | nil => exact .nil
      | cons slot slots => simp [fitSlots] at hfits
  | cons t ts ih =>
      cases slots with
      | nil => simp [fitSlots] at hfits
      | cons slot slots =>
          obtain ⟨hslot, hslots⟩ := Bool.and_eq_true_iff.mp hclear
          obtain ⟨ht, hrest⟩ : t.fits slot.schema = true ∧ fitSlots ts slots = true := by
            simpa [fitSlots] using hfits
          rw [encodeSlots]
          exact .cons (hts t (by simp) slot.schema hslot ht)
            (ih hslots hrest fun u hu => hts u (by simp [hu]))

/-- A tree that fits a clear schema decodes from its own value. -/
theorem decode_encode_of_fits (t : Tree) :
    ∀ s : Schema, s.isClear = true → t.fits s = true → t.encode.decode s = .ok t := by
  induction t using parts_induction with
  | step t ih =>
  -- nodes are decoded as their kinds whatever the place is, so that case comes first
  have hkind : ∀ k : Kind, t.fits (.kind k) = true → t.encode.decode (.kind k) = .ok t := by
    intro k ht
    obtain ⟨ts, rfl, hts⟩ := fits_kind_iff.mp ht
    have hslots := slotsDecode_encodeSlots k.isClear_slot hts ih
    exact Value.decode_kind_eq_ok_iff.mpr ⟨_, ts, hslots, by rw [encode], rfl⟩
  intro s hs ht
  cases s with
  | flag =>
      obtain ⟨b, rfl⟩ := fits_flag_iff.mp ht
      exact Value.decode_flag_eq_ok_iff.mpr ⟨b, by rw [encode], rfl⟩
  | character =>
      obtain ⟨code, rfl⟩ := fits_character_iff.mp ht
      exact Value.decode_character_eq_ok_iff.mpr ⟨code, by rw [encode], rfl⟩
  | index =>
      obtain ⟨n, rfl, hn⟩ := fits_index_iff.mp ht
      exact Value.decode_index_eq_ok_iff.mpr ⟨n, hn, by rw [encode], rfl⟩
  | natural =>
      obtain ⟨n, rfl⟩ := fits_natural_iff.mp ht
      exact Value.decode_natural_eq_ok_iff.mpr ⟨n, by rw [encode], rfl⟩
  | string =>
      obtain ⟨str, rfl⟩ := fits_string_iff.mp ht
      exact Value.decode_string_eq_ok_iff.mpr ⟨str, by rw [encode], rfl⟩
  | name =>
      obtain ⟨str, rfl, hstr⟩ := fits_name_iff.mp ht
      exact Value.decode_name_eq_ok_iff.mpr ⟨str, hstr, by rw [encode], rfl⟩
  | operator place =>
      obtain ⟨o, rfl, ho⟩ := fits_operator_iff.mp ht
      exact Value.decode_operator_eq_ok_iff.mpr ⟨o, ho, by rw [encode], rfl⟩
  | kind k => exact hkind k ht
  | family f =>
      obtain ⟨k, hfamily, hk⟩ := fits_family_iff.mp ht
      exact Value.decode_family_eq_ok_iff.mpr ⟨k, hfamily, hkind k hk⟩
  | node =>
      obtain ⟨k, hk⟩ := fits_node_iff.mp ht
      exact Value.decode_node_eq_ok_iff.mpr ⟨k, hkind k hk⟩
  | option s =>
      obtain ⟨hnil, hclear⟩ : s.readsNil = false ∧ s.isClear = true := by
        simpa [Schema.isClear] using hs
      rcases fits_option_iff.mp ht with rfl | ⟨u, rfl, hu⟩
      · exact Value.decode_option_eq_ok_iff.mpr (Or.inl ⟨by rw [encode], rfl⟩)
      · refine Value.decode_option_eq_ok_iff.mpr (Or.inr ⟨?_, u, ?_, rfl⟩)
        · rw [encode]
          exact encode_ne_nil hnil hu
        · rw [encode]
          exact ih u (by simp [parts]) s hclear hu
  | sequence s =>
      obtain ⟨ts, rfl, hts⟩ := fits_sequence_iff.mp ht
      refine Value.decode_sequence_eq_ok_iff.mpr ⟨encodeItems ts, ts, ?_, by rw [encode], rfl⟩
      rw [encodeItems_eq_map, List.forall₂_map_left_iff, List.forall₂_same]
      intro u hu
      exact ih u hu s (by simpa [Schema.isClear] using hs) (fitAll_iff.mp hts u hu)

theorem fits_node_of_kind? {t : Tree} {s : Schema} (hs : s.isNodeType = true)
    (ht : t.fits s = true) (hkind : t.kind?.isSome = true) : t.fits .node = true := by
  cases s with
  | operator place =>
      obtain ⟨o, rfl, -⟩ := fits_operator_iff.mp ht
      simp [kind?] at hkind
  | kind k => exact fits_node_iff.mpr ⟨k, ht⟩
  | family f =>
      obtain ⟨k, -, hk⟩ := fits_family_iff.mp ht
      exact fits_node_iff.mpr ⟨k, hk⟩
  | node => exact ht
  | _ => simp [Schema.isNodeType] at hs

/-- **Decoding undoes encoding.** A tree of a kind, of a family, of any kind, or an operator
decodes from its own value, and a node also where any kind may stand. -/
theorem decode_encode_nodeType (s : Schema) (t : Tree) (hs : s.isNodeType = true)
    (ht : t.fits s = true) :
    t.encode.decode s = .ok t ∧
      (t.kind?.isSome = true → t.encode.decode .node = .ok t) := by
  constructor
  · exact decode_encode_of_fits t s (Schema.isClear_of_isNodeType hs) ht
  · intro hkind
    exact decode_encode_of_fits t .node rfl (fits_node_of_kind? hs ht hkind)

/-- The definition of a function that takes the first component of its argument and has a
postcondition, but no precondition and no measure. -/
def firstDefinition : Tree :=
  .form .functionDefinition
    [.form .functionHeader
      [Identifier.tree "first",
       .sequence [.form .typedVariable
        [Identifier.tree "x", .form .typeSequence [.form .typeInteger []]]],
       .sequence []],
     .absent,
     .present (.form .expressionBinary
      [.operator .ne, .form .expressionVariable [Identifier.tree "x"],
       .form .expressionLiteral [.form .literalCharacter [.character 255]]]),
     .form .functionDefinerRegular
      [.form .expressionComponent
        [.form .expressionVariable [Identifier.tree "x"], .number (UInt64.size - 1)],
       .absent]]

theorem decode_encode_firstDefinition :
    (Schema.kind .functionDefinition).isNodeType = true ∧
      firstDefinition.fits (.kind .functionDefinition) = true ∧
      firstDefinition.kind?.isSome = true ∧
      firstDefinition.encode.decode (.kind .functionDefinition) = .ok firstDefinition ∧
      firstDefinition.encode.decode .node = .ok firstDefinition := by
  have hfits : firstDefinition.fits (.kind .functionDefinition) = true := by decide +kernel
  have h := decode_encode_nodeType (.kind .functionDefinition) firstDefinition rfl hfits
  exact ⟨rfl, hfits, rfl, h.1, h.2 rfl⟩

/-! ## From a value to its tree and back -/

theorem encodeSlots_of_slotsDecode {slots : List Slot} {args : List (String × Value)}
    {ts : List Tree} (h : SlotsDecode slots args ts)
    (hargs : ∀ v ∈ formArguments args, ∀ (s : Schema) (t : Tree),
      v.decode s = .ok t → t.encode = v) :
    encodeSlots slots ts = args := by
  induction h with
  | nil => rfl
  | @cons slot slots v args t ts hv _ ih =>
      have ht : t.encode = v := hargs v (by simp [formArguments]) slot.schema t hv
      rw [encodeSlots, ht, ih fun u hu => hargs u (by simp [formArguments, hu])]

theorem encodeItems_of_decode {s : Schema} {vs : List Value} {ts : List Tree}
    (h : List.Forall₂ (fun v t => v.decode s = .ok t) vs ts)
    (hvs : ∀ v ∈ vs, ∀ t : Tree, v.decode s = .ok t → t.encode = v) :
    encodeItems ts = vs := by
  induction h with
  | nil => rfl
  | @cons v t vs ts hv _ ih =>
      rw [encodeItems, hvs v (by simp) t hv, ih fun u hu => hvs u (by simp [hu])]

/-- A value that decodes is the value of what it decodes to. -/
theorem encode_of_decode_eq_ok (v : Value) :
    ∀ (s : Schema) (t : Tree), v.decode s = .ok t → t.encode = v := by
  induction v using Value.items_induction with
  | step v ih =>
  have hkind : ∀ (k : Kind) (t : Tree), v.decode (.kind k) = .ok t → t.encode = v := by
    intro k t h
    obtain ⟨args, ts, hargs, rfl, rfl⟩ := Value.decode_kind_eq_ok_iff.mp h
    rw [encode, encodeSlots_of_slotsDecode hargs]
    intro u hu
    exact ih u (by simp [Value.form, Value.items, hu])
  intro s
  -- an option decodes the same value in a place of its inner schema
  induction s with
  | flag =>
      intro t h
      obtain ⟨b, rfl, rfl⟩ := Value.decode_flag_eq_ok_iff.mp h
      rw [encode]
  | character =>
      intro t h
      obtain ⟨code, rfl, rfl⟩ := Value.decode_character_eq_ok_iff.mp h
      rw [encode]
  | index =>
      intro t h
      obtain ⟨n, -, rfl, rfl⟩ := Value.decode_index_eq_ok_iff.mp h
      rw [encode]
  | natural =>
      intro t h
      obtain ⟨n, rfl, rfl⟩ := Value.decode_natural_eq_ok_iff.mp h
      rw [encode]
  | string =>
      intro t h
      obtain ⟨s, rfl, rfl⟩ := Value.decode_string_eq_ok_iff.mp h
      rw [encode]
  | name =>
      intro t h
      obtain ⟨s, -, rfl, rfl⟩ := Value.decode_name_eq_ok_iff.mp h
      rw [encode]
  | operator place =>
      intro t h
      obtain ⟨o, -, rfl, rfl⟩ := Value.decode_operator_eq_ok_iff.mp h
      rw [encode]
  | kind k => exact hkind k
  | family f =>
      intro t h
      obtain ⟨k, -, hk⟩ := Value.decode_family_eq_ok_iff.mp h
      exact hkind k t hk
  | node =>
      intro t h
      obtain ⟨k, hk⟩ := Value.decode_node_eq_ok_iff.mp h
      exact hkind k t hk
  | option s ihs =>
      intro t h
      rcases Value.decode_option_eq_ok_iff.mp h with ⟨rfl, rfl⟩ | ⟨-, u, hu, rfl⟩
      · rw [encode]
      · rw [encode]
        exact ihs u hu
  | sequence s _ =>
      intro t h
      obtain ⟨vs, ts, hts, rfl, rfl⟩ := Value.decode_sequence_eq_ok_iff.mp h
      rw [encode, encodeItems_of_decode hts]
      intro u hu
      exact ih u (by simp [Value.items, hu]) s

/-- **Encoding undoes decoding.** A value that decodes is the value of what it decodes to, so no
other value decodes to the same tree. -/
theorem encode_unique_of_decode (s : Schema) (v : Value) (t : Tree) (h : v.decode s = .ok t) :
    t.encode = v ∧ ∀ w : Value, w.decode s = .ok t → w = v := by
  have hv : t.encode = v := encode_of_decode_eq_ok v s t h
  refine ⟨hv, fun w hw => ?_⟩
  rw [← encode_of_decode_eq_ok w s t hw, hv]

/-- The form of a sum type whose one alternative has no fields and no invariant. -/
def unitSumForm : Value :=
  .form "MAKE-TYPE-DEFINER-SUM" [("GET",
    .form "MAKE-TYPE-SUM" [("ALTERNATIVES", .list [.symbol Symbol.list,
      .form "MAKE-ALTERNATIVE" [("NAME", .form "MAKE-IDENTIFIER" [("NAME", .string "none")]),
        ("PRODUCT", .form "MAKE-TYPE-PRODUCT"
          [("FIELDS", .list [.symbol Symbol.list]), ("INVARIANT", Value.nil)])]])])]

theorem encode_unique_of_decode_unitSumForm :
    ∃ t : Tree, unitSumForm.decode (.family .typeDefiner) = .ok t ∧ t.encode = unitSumForm ∧
      ∀ w : Value, w.decode (.family .typeDefiner) = .ok t → w = unitSumForm := by
  have h : unitSumForm.decode (.family .typeDefiner) = .ok
      (.form .typeDefinerSum [.form .typeSum [.sequence [.form .alternative
        [Identifier.tree "none", .form .typeProduct [.sequence [], .absent]]]]]) := by
    rfl
  exact ⟨_, h, encode_unique_of_decode _ _ _ h⟩

end Tree

end MakerForms
