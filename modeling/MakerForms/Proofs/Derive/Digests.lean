import MakerForms.Derive.Digest
import MakerForms.Proofs.Derive.Agreement

set_option autoImplicit false

/-! # What digests list

A digest is of use only if what it lists is what the code does. Of the implementations that are
derived for a type one is of the interface of the codec (`implementing`). For a record it lists the
keywords, the same for both codecs, and these are the keywords of all that is written and of all
that can be read (`Definition.record_digests`). For a choice it lists the makers of the variants
without fields, each of which has an entry in the list of decoders (`Definition.choice_digests`).
-/

namespace MakerForms.Derive

/-! ## What is listed -/

def CodeLiteral.text? : CodeLiteral → Option String
  | text s => some s
  | number _ => none

/-- The texts among literals. -/
def texts (ls : List CodeLiteral) : List String := ls.filterMap (·.text?)

@[simp] theorem texts_text (s : String) (ls : List CodeLiteral) :
    texts (.text s :: ls) = s :: texts ls := rfl

@[simp] theorem texts_number (n : Nat) (ls : List CodeLiteral) :
    texts (.number n :: ls) = texts ls := rfl

@[simp] theorem texts_map_text {α : Type} (f : α → String) (as : List α) :
    texts (as.map fun a => .text (f a)) = as.map f := by
  induction as with
  | nil => rfl
  | cons a as ih => rw [List.map_cons, texts_text, ih, List.map_cons]

/-- The implementations of an interface. -/
def implementing (interface : String) (is : List Implementation) : List Implementation :=
  is.filter (·.interface == some interface)

/-- Whether a value is a form of a maker with certain keywords in their order. -/
def IsFormOf (maker : String) (keywords : List String) (v : Value) : Prop :=
  ∃ args : List (String × Value), v = .form maker args ∧ args.map Prod.fst = keywords

/-! ## Records -/

theorem SlotsDecode.map_fst_args {slots : List Slot} {args : List (String × Value)}
    {ts : List Tree} (h : SlotsDecode slots args ts) :
    args.map Prod.fst = slots.map (·.keyword) := by
  induction h with
  | nil => rfl
  | cons _ _ ih => rw [List.map_cons, List.map_cons, ih]

namespace RecordCodec

variable {c : RecordCodec} {v : Value}

theorem isFormOf_of_write {held : String → Value} (h : c.write held = .ok v) :
    IsFormOf c.maker (c.fields.map (·.keyword)) v := by
  obtain ⟨-, rfl⟩ := (c.write_eq_ok_iff held v).mp h
  exact ⟨_, rfl, by rw [List.map_map]; rfl⟩

theorem isFormOf_of_read {places : String → Schema} {found : Found}
    (h : c.read places v = .ok found) : IsFormOf c.maker (c.fields.map (·.keyword)) v := by
  obtain ⟨args, ts, hargs, rfl, -⟩ := read_eq_ok_iff_fillFields.mp h
  refine ⟨args, rfl, ?_⟩
  rw [SlotsDecode.map_fst_args hargs, slots, List.map_map]
  rfl

end RecordCodec

/-- **The digests of a record list what is written and read.** Where a record without parameters has
an encoder, one of the implementations of each codec is of its interface. The two list the same
keywords, the encoder behind the maker and the decoder behind their number, and all that is written
and all that can be read is a form of this maker with these keywords. -/
theorem Definition.record_digests {d : Definition} {fields : List FieldDef}
    {es : List Implementation} (hparameters : d.parameters = []) (hbody : d.body = .record fields)
    (h : d.derive .encoder = .ok es) :
    ∃ (c : RecordCodec) (ds : List Implementation) (e i : Implementation),
      d.encoder = .ok (.record c.maker c.fields) ∧ d.decoder = .ok (.record c.fields) ∧
      d.derive .decoder = .ok ds ∧
      implementing Codec.encoder.interface es = [e] ∧
      implementing Codec.decoder.interface ds = [i] ∧
      texts e.literals = c.maker :: texts i.literals ∧
      i.literals.head? = some (.number (texts i.literals).length) ∧
      (∀ held v, c.write held = .ok v → IsFormOf c.maker (texts i.literals) v) ∧
      ∀ places v found, c.read places v = .ok found → IsFormOf c.maker (texts i.literals) v := by
  rw [derive] at h
  obtain ⟨plan, hplan, rfl⟩ := map_eq_ok_iff.mp h
  obtain ⟨maker, plans, rfl, hdecoder, -⟩ := decoder_of_encoder hparameters hbody hplan
  have hdigest : d.derive .decoder = .ok (DecoderPlan.record plans).implementations := by
    rw [derive, hdecoder]
    rfl
  refine ⟨⟨maker, plans⟩, _, _, _, hplan, hdecoder, hdigest, rfl, rfl, ?_⟩
  simp only [texts_text, texts_number, texts_map_text, List.length_map, true_and]
  exact ⟨rfl, fun _ _ => RecordCodec.isFormOf_of_write, fun _ _ _ => RecordCodec.isFormOf_of_read⟩

/-! ## Choices -/

theorem texts_flatMap (makers : List String) :
    texts (makers.flatMap fun m => [.text m, .text m, .number 0])
      = makers.flatMap fun m => [m, m] := by
  induction makers with
  | nil => rfl
  | cons m makers ih =>
      rw [List.flatMap_cons, List.flatMap_cons, ← ih]
      rfl

/-- Each maker of a variant has an entry in the list of decoders, in the same order. -/
theorem sublist_decoders (codecs : String → RecordCodec) (places : String → String → Schema)
    (plans : List VariantPlan) :
    (plans.filterMap (·.maker?)).Sublist ((decoders codecs places plans).map Prod.fst) := by
  rw [decoders, List.map_map]
  induction plans with
  | nil => exact .slnil
  | cons p plans ih =>
      cases p with
      | unit name maker => exact ih.cons_cons maker
      | wrapper name type => exact ih.cons (codecs type).maker

/-- Each variant has a maker of its own or wraps a type. -/
theorem length_makers_add_length_types (plans : List VariantPlan) :
    (plans.filterMap (·.maker?)).length + (plans.filterMap (·.type?)).length = plans.length := by
  induction plans with
  | nil => rfl
  | cons p plans ih =>
      cases p with
      | unit name maker =>
          show (plans.filterMap (·.maker?)).length + 1 + (plans.filterMap (·.type?)).length
            = plans.length + 1
          omega
      | wrapper name type =>
          show (plans.filterMap (·.maker?)).length + ((plans.filterMap (·.type?)).length + 1)
            = plans.length + 1
          omega

theorem length_flatMap_twice (as : List String) :
    (as.flatMap fun a => [a, a]).length = 2 * as.length := by
  induction as with
  | nil => rfl
  | cons a as ih =>
      rw [List.flatMap_cons, List.length_append, ih, List.length_cons]
      show 2 + 2 * as.length = 2 * (as.length + 1)
      omega

/-- **The digests of a choice list what is decoded.** Where a choice has a decoder, one of the
implementations of its encoder is of the interface of encoders, and one of its decoder is of the
interface of families. The two name the same variants. The one lists the makers of those without
fields, the other each of them twice behind the name of the family, and all of them are entries in
the list of decoders; the remaining variants have the types that are listed. -/
theorem Definition.choice_digests {d : Definition} {variants : List Variant}
    {ds : List Implementation} (hbody : d.body = .choice variants)
    (h : d.derive .decoder = .ok ds) :
    ∃ (family : String) (plans : List VariantPlan) (es : List Implementation)
      (e i : Implementation),
      d.encoder = .ok (.family plans) ∧ d.decoder = .ok (.family family plans) ∧
      d.derive .encoder = .ok es ∧
      implementing Codec.encoder.interface es = [e] ∧ implementing "Family" ds = [i] ∧
      i.variants = e.variants ∧ e.variants.length = plans.length ∧
      texts i.literals = family :: (texts e.literals).flatMap (fun m => [m, m]) ∧
      2 * (texts e.literals).length + i.types.length = 2 * i.variants.length ∧
      ∀ codecs places,
        (texts e.literals).Sublist ((decoders codecs places plans).map Prod.fst) := by
  rw [derive] at h
  obtain ⟨plan, hplan, rfl⟩ := map_eq_ok_iff.mp h
  obtain ⟨family, plans, rfl, hencoder, -⟩ := encoder_of_decoder hbody hplan
  have hdigest : d.derive .encoder
      = .ok ((EncoderPlan.family plans).implementations (encoderBounds d.parameters)) := by
    rw [derive, hencoder]
    rfl
  have hmakers : texts ((plans.filterMap (·.maker?)).map CodeLiteral.text)
      = plans.filterMap (·.maker?) :=
    (texts_map_text id _).trans (List.map_id _)
  refine ⟨family, plans, _, _, _, hencoder, hplan, hdigest, rfl, rfl, rfl, List.length_map _, ?_⟩
  have hcount := length_makers_add_length_types plans
  simp only [texts_text, hmakers, texts_flatMap, length_flatMap_twice, List.length_map]
  exact ⟨trivial, by omega, fun codecs places => sublist_decoders codecs places plans⟩

/-! ## Bounds -/

/-- All implementations that are derived for a definition bound its type parameters in the same
way. -/
theorem Definition.bounds_of_derive {d : Definition} {codec : Codec} {is : List Implementation}
    (h : d.derive codec = .ok is) : ∀ i ∈ is, i.bounds = encoderBounds d.parameters := by
  cases codec with
  | encoder =>
      obtain ⟨plan, -, rfl⟩ := map_eq_ok_iff.mp h
      cases plan <;> simp [EncoderPlan.implementations]
  | decoder =>
      obtain ⟨plan, hplan, rfl⟩ := map_eq_ok_iff.mp h
      have hparameters : d.parameters = [] := by
        by_contra hne
        rw [decoder, if_pos (by simpa using hne)] at hplan
        cases hplan
      rw [hparameters]
      cases plan <;> simp [DecoderPlan.implementations, encoderBounds]

end MakerForms.Derive
