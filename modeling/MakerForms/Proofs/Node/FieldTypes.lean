import MakerForms.Proofs.Node.Bounds
import MakerForms.Proofs.Node.RoundTrip
import Mathlib.Data.Set.List

set_option autoImplicit false

/-! # Types of fields

What stands in a field has a type: truth values, characters, indices, natural numbers, texts and
nodes, and on top of any type optional things, sequences and boxes (`FieldType`). The things of a
type (`FieldType.Thing`) are exactly the trees that fit its schema (`FieldType.exists_tree_iff`); a
box is written as what it holds, so the schema does not show it.

Whatever the type, a value that decodes is written for what it decodes to. The other way round,
`NIL` is read as what is absent, so a thing is lost in an option as soon as it is written as `NIL`
itself. Some thing is so written exactly in types of truth values and of options
(`Schema.readsNil_iff`), and a thing that is lost in one place is lost in whatever stands around it.
Hence the types that are read back are those in which no option is of truth values or of an option
(`FieldType.things_read_back_iff`).
-/

namespace MakerForms

/-! ## Schemas whose trees are read back -/

namespace Schema

/-- The schemas that read `NIL` are those with a tree that is written as `NIL`. -/
theorem readsNil_iff {s : Schema} :
    s.readsNil = true ↔ ∃ t : Tree, t.fits s = true ∧ t.encode = Value.nil := by
  constructor
  · intro h
    cases s with
    | flag => exact ⟨.flag false, rfl, by rw [Tree.encode, Value.ofBool]⟩
    | option s => exact ⟨.absent, rfl, by rw [Tree.encode]⟩
    | _ => cases h
  · rintro ⟨t, ht, hnil⟩
    by_contra hreads
    exact Tree.encode_ne_nil (Bool.eq_false_iff.mpr hreads) ht hnil

theorem readsNil_of_isNodeType {s : Schema} (h : s.isNodeType = true) : s.readsNil = false := by
  cases s with
  | flag | option _ => cases h
  | _ => rfl

/-- Whether all trees of a schema decode from their own values. -/
def ReadsBack (s : Schema) : Prop := ∀ t : Tree, t.fits s = true → t.encode.decode s = .ok t

/-- What is read back as an option is read back by itself, and `NIL` is not written for it. -/
theorem ReadsBack.of_option {s : Schema} (h : (option s).ReadsBack) :
    s.ReadsBack ∧ s.readsNil = false := by
  have hpresent : ∀ t : Tree, t.fits s = true →
      t.encode ≠ Value.nil ∧ t.encode.decode s = .ok t := by
    intro t ht
    have hfits : (Tree.present t).fits (.option s) = true :=
      Tree.fits_option_iff.mpr (Or.inr ⟨t, rfl, ht⟩)
    have hread := h _ hfits
    rw [Tree.encode] at hread
    rcases Value.decode_option_eq_ok_iff.mp hread with ⟨-, habsent⟩ | ⟨hne, u, hu, heq⟩
    · cases habsent
    · obtain rfl := Tree.present.inj heq
      exact ⟨hne, hu⟩
  refine ⟨fun t ht => (hpresent t ht).2, ?_⟩
  rw [Bool.eq_false_iff]
  intro hreads
  obtain ⟨t, ht, hnil⟩ := readsNil_iff.mp hreads
  exact (hpresent t ht).1 hnil

/-- What is read back in sequences is read back by itself. -/
theorem ReadsBack.of_sequence {s : Schema} (h : (sequence s).ReadsBack) : s.ReadsBack := by
  intro t ht
  have hfits : (Tree.sequence [t]).fits (.sequence s) = true :=
    Tree.fits_sequence_iff.mpr ⟨[t], rfl, Tree.fitAll_iff.mpr (by simpa using ht)⟩
  obtain ⟨vs, ts, hvs, hv, heq⟩ := Value.decode_sequence_eq_ok_iff.mp (h _ hfits)
  obtain rfl := Tree.sequence.inj heq
  rw [Tree.encode, Tree.encodeItems_eq_map] at hv
  obtain rfl : [t].map Tree.encode = vs := (List.cons.inj (Value.list.inj hv)).2
  exact (List.forall₂_cons.mp hvs).1

/-- The schemas whose trees are read back are those in which no option is of something that `NIL`
stands for. -/
theorem readsBack_iff (s : Schema) : s.ReadsBack ↔ s.isClear = true := by
  constructor
  · intro h
    induction s with
    | option s ih =>
        obtain ⟨hinner, hnil⟩ := h.of_option
        rw [isClear, hnil, ih hinner]
        rfl
    | sequence s ih =>
        rw [isClear]
        exact ih h.of_sequence
    | _ => rfl
  · intro h t ht
    exact Tree.decode_encode_of_fits t s h ht

end Schema

/-! ## Types -/

/-- A type of things that stand in fields. -/
inductive FieldType
  | flag
  | character
  /-- Natural numbers below `2 ^ 64`. -/
  | index
  | natural
  | string
  /-- The nodes of a kind, of a family or of any kind, or the operators of a place. -/
  | node (s : Schema) (h : s.isNodeType = true)
  | option (T : FieldType)
  | sequence (T : FieldType)
  | boxed (T : FieldType)

/-- A thing that is held in a place of its own. -/
structure Boxed (α : Type) where
  held : α

namespace FieldType

/-- The things of a type. -/
@[reducible] def Thing : FieldType → Type
  | flag => Bool
  | character => UInt8
  | index => UInt64
  | natural => Nat
  | string => String
  | node s _ => { t : Tree // t.fits s = true }
  | option T => Option T.Thing
  | sequence T => List T.Thing
  | boxed T => Boxed T.Thing

/-- What may stand in the places of a type. -/
def schema : FieldType → Schema
  | flag => .flag
  | character => .character
  | index => .index
  | natural => .natural
  | string => .string
  | node s _ => s
  | option T => .option T.schema
  | sequence T => .sequence T.schema
  | boxed T => T.schema

/-- The tree that a thing is. -/
def tree : (T : FieldType) → T.Thing → Tree
  | flag, b => .flag b
  | character, code => .character code
  | index, n => .number n.toNat
  | natural, n => .number n
  | string, s => .string s
  | node _ _, t => t.val
  | option _, none => .absent
  | option T, some x => .present (T.tree x)
  | sequence T, xs => .sequence (xs.map T.tree)
  | boxed T, x => T.tree x.held

/-- The types that a type is made of, with the type itself. -/
def parts : FieldType → List FieldType
  | option T => option T :: T.parts
  | sequence T => sequence T :: T.parts
  | boxed T => boxed T :: T.parts
  | T => [T]

/-- A type without the boxes around it. -/
def unboxed : FieldType → FieldType
  | boxed T => T.unboxed
  | T => T

/-! ## Things are trees that fit -/

theorem tree_injective (T : FieldType) : Function.Injective T.tree := by
  induction T with
  | flag => exact fun _ _ h => Tree.flag.inj h
  | character => exact fun _ _ h => Tree.character.inj h
  | index => exact fun _ _ h => UInt64.toNat_inj.mp (Tree.number.inj h)
  | natural => exact fun _ _ h => Tree.number.inj h
  | string => exact fun _ _ h => Tree.string.inj h
  | node s hs => exact Subtype.val_injective
  | option T ih =>
      intro x y h
      cases x with
      | none =>
          cases y with
          | none => rfl
          | some y => cases h
      | some x =>
          cases y with
          | none => cases h
          | some y => exact congrArg some (ih (Tree.present.inj h))
  | sequence T ih =>
      intro xs ys h
      exact List.map_injective_iff.mpr ih (Tree.sequence.inj h)
  | boxed T ih =>
      intro x y h
      exact congrArg Boxed.mk (ih h)

/-- The things of a type are the trees that fit its schema. -/
theorem exists_tree_iff (T : FieldType) (t : Tree) :
    (∃ x : T.Thing, T.tree x = t) ↔ t.fits T.schema = true := by
  induction T generalizing t with
  | flag => exact (exists_congr fun _ => eq_comm).trans Tree.fits_flag_iff.symm
  | character => exact (exists_congr fun _ => eq_comm).trans Tree.fits_character_iff.symm
  | natural => exact (exists_congr fun _ => eq_comm).trans Tree.fits_natural_iff.symm
  | string => exact (exists_congr fun _ => eq_comm).trans Tree.fits_string_iff.symm
  | index =>
      rw [schema, Tree.fits_index_iff]
      constructor
      · rintro ⟨n, rfl⟩
        exact ⟨n.toNat, rfl, n.toNat_lt_size⟩
      · rintro ⟨n, rfl, hn⟩
        exact ⟨UInt64.ofNatLT n hn, by rw [tree, UInt64.toNat_ofNatLT]⟩
  | node s hs =>
      constructor
      · rintro ⟨x, rfl⟩
        exact x.property
      · intro h
        exact ⟨⟨t, h⟩, rfl⟩
  | option T ih =>
      rw [schema, Tree.fits_option_iff]
      constructor
      · rintro ⟨_ | x, rfl⟩
        · exact Or.inl rfl
        · exact Or.inr ⟨T.tree x, rfl, (ih _).mp ⟨x, rfl⟩⟩
      · rintro (rfl | ⟨u, rfl, hu⟩)
        · exact ⟨none, rfl⟩
        · obtain ⟨x, rfl⟩ := (ih u).mpr hu
          exact ⟨some x, rfl⟩
  | sequence T ih =>
      rw [schema, Tree.fits_sequence_iff]
      constructor
      · rintro ⟨xs, rfl⟩
        refine ⟨xs.map T.tree, rfl, Tree.fitAll_iff.mpr fun u hu => ?_⟩
        obtain ⟨x, -, rfl⟩ := List.mem_map.mp hu
        exact (ih _).mp ⟨x, rfl⟩
      · rintro ⟨ts, rfl, hts⟩
        have hrange : ts ∈ Set.range (List.map T.tree) := by
          rw [Set.range_list_map]
          intro u hu
          exact (ih u).mpr (Tree.fitAll_iff.mp hts u hu)
        obtain ⟨xs, rfl⟩ := hrange
        exact ⟨xs, rfl⟩
  | boxed T ih =>
      rw [schema, ← ih]
      constructor
      · rintro ⟨x, rfl⟩
        exact ⟨x.held, rfl⟩
      · rintro ⟨x, rfl⟩
        exact ⟨⟨x⟩, rfl⟩

/-! ## Types that are read back -/

/-- Whether a type is one of truth values or of options, boxes aside. -/
def Nullable (T : FieldType) : Prop := T.unboxed = flag ∨ ∃ U, T.unboxed = option U

theorem nullable_iff_readsNil (T : FieldType) : T.Nullable ↔ T.schema.readsNil = true := by
  induction T with
  | boxed T ih => exact ih
  | node s hs => simp [Nullable, unboxed, schema, Schema.readsNil_of_isNodeType hs]
  | _ => simp [Nullable, unboxed, schema, Schema.readsNil]

/-- The nullable types are those with a thing that is written as `NIL`. -/
theorem nullable_iff (T : FieldType) :
    T.Nullable ↔ ∃ x : T.Thing, (T.tree x).encode = Value.nil := by
  rw [nullable_iff_readsNil, Schema.readsNil_iff]
  constructor
  · rintro ⟨t, ht, hnil⟩
    obtain ⟨x, rfl⟩ := (exists_tree_iff T t).mpr ht
    exact ⟨x, hnil⟩
  · rintro ⟨x, hnil⟩
    exact ⟨T.tree x, (exists_tree_iff T _).mp ⟨x, rfl⟩, hnil⟩

theorem isClear_schema_iff (T : FieldType) :
    T.schema.isClear = true ↔ ∀ U, option U ∈ T.parts → ¬ U.Nullable := by
  induction T with
  | option T ih =>
      have hnullable : T.schema.readsNil = false ↔ ¬ T.Nullable := by
        rw [nullable_iff_readsNil, Bool.not_eq_true]
      rw [schema, Schema.isClear, Bool.and_eq_true, Bool.not_eq_true', hnullable, ih]
      constructor
      · rintro ⟨hT, hparts⟩ U hU
        rcases List.mem_cons.mp hU with heq | hU
        · obtain rfl := FieldType.option.inj heq
          exact hT
        · exact hparts U hU
      · intro h
        exact ⟨h T (List.mem_cons_self ..), fun U hU => h U (List.mem_cons_of_mem _ hU)⟩
  | sequence T ih => simpa [schema, Schema.isClear, parts] using ih
  | boxed T ih => simpa [schema, parts] using ih
  | node s hs => simp [schema, parts, Schema.isClear_of_isNodeType hs]
  | _ => simp [schema, parts, Schema.isClear]

/-- **Which types are read back.** The things of a type are trees, different things different trees.
A value that decodes for a type stands for a thing of it and is what is written for this thing. All
things of a type decode from what is written for them exactly if no option in the type is of a
nullable type; and the nullable types, those of truth values and of options in whatever boxes, are
the types with a thing that is written as `NIL`. -/
theorem things_read_back_iff (T : FieldType) :
    Function.Injective T.tree ∧
    (∀ (v : Value) (t : Tree), v.decode T.schema = .ok t →
      (∃ x : T.Thing, T.tree x = t) ∧ t.encode = v) ∧
    ((∀ x : T.Thing, (T.tree x).encode.decode T.schema = .ok (T.tree x)) ↔
      ∀ U, option U ∈ T.parts → ¬ U.Nullable) ∧
    (T.Nullable ↔ ∃ x : T.Thing, (T.tree x).encode = Value.nil) := by
  refine ⟨T.tree_injective, fun v t h => ⟨?_, Tree.encode_of_decode_eq_ok v _ t h⟩, ?_,
    T.nullable_iff⟩
  · exact (exists_tree_iff T t).mpr (Tree.fits_of_decode_eq_ok v _ t h)
  · rw [← isClear_schema_iff, ← Schema.readsBack_iff]
    constructor
    · intro h t ht
      obtain ⟨x, rfl⟩ := (exists_tree_iff T t).mpr ht
      exact h x
    · intro h x
      exact h (T.tree x) ((exists_tree_iff T _).mp ⟨x, rfl⟩)

/-- A truth value that is there and false is read as one that is not there. -/
example : (FieldType.tree (.sequence (.option (.boxed .flag))) [some ⟨false⟩]).encode.decode
    (.sequence (.option .flag)) = .ok (.sequence [.absent]) := rfl

end FieldType

end MakerForms
