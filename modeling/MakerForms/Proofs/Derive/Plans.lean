import MakerForms.Derive.Plan
import MakerForms.Proofs.Node.Decoding

set_option autoImplicit false

/-! # Plans for derived codecs

The encoder and the decoder of a type are derived from its definition one by one, and look for
different things: only the encoder of a record needs a maker, and only the decoder of a choice a
name for the family. But they read the attributes of fields and of variants in the same way. So
where a record has an encoder it has a decoder, and where a choice has a decoder it has an encoder,
and in both cases the two have the same plans (`Definition.decoder_of_encoder`,
`Definition.encoder_of_decoder`).

What a plan takes from attributes is said without going through them in order: of all that is
written in attributes called `sexpr`, the last text for a name counts (`lastText`), whatever other
attributes stand between them.
-/

namespace MakerForms.Derive

/-! ## What attributes say -/

/-- What is written in the attributes called `sexpr`, in the order in which it is written. -/
def written (attributes : List Attribute) : List (String × Setting) :=
  (attributes.filter (·.path == "sexpr")).flatMap fun a => a.arguments.getD []

/-- The text that is given for a name in the attributes called `sexpr`, the last one if there are
several. -/
def lastText (attributes : List Attribute) (name : String) : Option String :=
  match (written attributes).reverse.lookup name with
  | some (.text s) => some s
  | _ => none

/-- Arguments that can be read give a text for each name. -/
theorem eq_map_of_readArguments {known : List String} {arguments : List (String × Setting)}
    {settings : List (String × String)} (h : readArguments known arguments = .ok settings) :
    arguments = settings.map fun (name, s) => (name, .text s) := by
  induction arguments generalizing settings with
  | nil =>
      obtain rfl : settings = [] := by simpa [readArguments, eq_comm] using h
      rfl
  | cons argument arguments ih =>
      obtain ⟨name, setting⟩ := argument
      cases setting with
      | missing | number _ =>
          unfold readArguments at h
          split at h <;> cases h
      | text s =>
          unfold readArguments at h
          split at h
          · cases h
          · obtain ⟨rest, hrest, rfl⟩ := map_eq_ok_iff.mp h
            rw [ih hrest]
            rfl

theorem written_of_readSettings {known : List String} {attributes : List Attribute}
    {settings : List (String × String)} (h : readSettings known attributes = .ok settings) :
    written attributes = settings.map fun (name, s) => (name, .text s) := by
  induction attributes generalizing settings with
  | nil =>
      obtain rfl : settings = [] := by simpa [readSettings, eq_comm] using h
      rfl
  | cons a attributes ih =>
      rw [readSettings] at h
      by_cases hpath : a.path = "sexpr"
      · rw [if_neg (by simpa using hpath)] at h
        cases harguments : a.arguments with
        | none =>
            rw [harguments] at h
            cases h
        | some arguments =>
            rw [harguments] at h
            obtain ⟨first, hfirst, h⟩ := bind_eq_ok_iff.mp h
            obtain ⟨others, hothers, h⟩ := bind_eq_ok_iff.mp h
            obtain rfl : first ++ others = settings := by simpa [pure, Except.pure] using h
            have htail := ih hothers
            rw [written] at htail ⊢
            simp [hpath, harguments, htail, eq_map_of_readArguments hfirst]
      · -- other attributes are passed over
        rw [if_pos hpath] at h
        have htail := ih h
        rw [written] at htail ⊢
        rwa [List.filter_cons_of_neg (by simpa using hpath)]

theorem lookup_map_text (settings : List (String × String)) (name : String) :
    (settings.map fun (name, s) => (name, Setting.text s)).lookup name
      = (settings.lookup name).map .text := by
  induction settings with
  | nil => rfl
  | cons setting settings ih =>
      obtain ⟨name', s⟩ := setting
      rw [List.map_cons, List.lookup_cons, List.lookup_cons, ih]
      cases name == name' <;> rfl

/-- The setting that counts is the last text for its name in attributes called `sexpr`. -/
theorem lastSetting_eq {known : List String} {attributes : List Attribute}
    {settings : List (String × String)} (h : readSettings known attributes = .ok settings)
    (name : String) : lastSetting settings name = lastText attributes name := by
  rw [lastText, written_of_readSettings h, ← List.map_reverse, lookup_map_text, lastSetting]
  cases settings.reverse.lookup name <;> rfl

/-! ## Plans for fields and variants -/

/-- Whether a plan is that of a field: it has the name of the field, and the keyword that the field
is renamed to or that comes from the name. -/
structure FieldPlan.Follows (p : FieldPlan) (f : FieldDef) : Prop where
  name_eq : f.name = some p.field
  keyword_eq : p.keyword = keywordOf p.field (lastText f.attributes "rename")

/-- Whether a plan is that of a variant: a variant without fields has the maker that it is given,
and any other wraps one type. -/
inductive VariantPlan.Follows : VariantPlan → Variant → Prop
  | unit {v : Variant} {maker : String} : v.fields = .unit →
      lastText v.attributes "maker" = some maker → Follows (.unit v.name maker) v
  | wrapper {v : Variant} {field : FieldDef} : v.fields = .unnamed [field] →
      lastText v.attributes "maker" = none → Follows (.wrapper v.name field.type) v

theorem FieldDef.follows_of_plan {codec : Codec} {f : FieldDef} {p : FieldPlan}
    (h : f.plan codec = .ok p) : p.Follows f := by
  unfold FieldDef.plan at h
  split at h
  · cases h
  · next name hname =>
    obtain ⟨settings, hsettings, h⟩ := bind_eq_ok_iff.mp h
    obtain rfl : _ = p := Except.ok.inj h
    exact ⟨hname, by rw [← lastSetting_eq hsettings]⟩

/-- What a field is planned as does not depend on the codec that it is planned for. -/
theorem FieldDef.plan_congr {codec : Codec} (codec' : Codec) {f : FieldDef} {p : FieldPlan}
    (h : f.plan codec = .ok p) : f.plan codec' = .ok p := by
  unfold FieldDef.plan at h ⊢
  split at h
  · cases h
  · exact h

theorem Variant.follows_of_plan {v : Variant} {p : VariantPlan} (h : v.plan = .ok p) :
    p.Follows v := by
  obtain ⟨settings, hsettings, h⟩ := bind_eq_ok_iff.mp h
  have hmaker := lastSetting_eq hsettings "maker"
  split at h
  · next maker hfields hlast =>
    obtain rfl : _ = p := Except.ok.inj h
    exact .unit hfields (by rw [← hmaker, hlast])
  · cases h
  · next field hfields hlast =>
    obtain rfl : _ = p := Except.ok.inj h
    exact .wrapper hfields (by rw [← hmaker, hlast])
  · cases h
  · cases h

/-! ## Plans for definitions -/

/-- What is planned for each of several things is planned for all of them. -/
theorem mapM_eq_ok_iff {α β ε : Type} {f : α → Except ε β} {as : List α} {bs : List β} :
    as.mapM f = .ok bs ↔ List.Forall₂ (fun a b => f a = .ok b) as bs := by
  induction as generalizing bs with
  | nil => simp [pure, Except.pure, eq_comm]
  | cons a as ih =>
      rw [List.mapM_cons, List.forall₂_cons_left_iff]
      constructor
      · intro h
        obtain ⟨b, hb, h⟩ := bind_eq_ok_iff.mp h
        obtain ⟨bs', hbs', h⟩ := bind_eq_ok_iff.mp h
        exact ⟨b, bs', hb, ih.mp hbs', (Except.ok.inj h).symm⟩
      · rintro ⟨b, bs', hb, hbs', rfl⟩
        exact bind_eq_ok_iff.mpr ⟨b, hb, bind_eq_ok_iff.mpr ⟨bs', ih.mpr hbs', rfl⟩⟩

namespace Definition

/-- A record with an encoder has a decoder with the same plans for its fields. -/
theorem decoder_of_encoder {d : Definition} {fields : List FieldDef} {plan : EncoderPlan}
    (hparameters : d.parameters = []) (hbody : d.body = .record fields)
    (h : d.encoder = .ok plan) :
    ∃ maker plans, plan = .record maker plans ∧ d.decoder = .ok (.record plans) ∧
      lastText d.attributes "maker" = some maker ∧
      List.Forall₂ (fun f p => p.Follows f) fields plans := by
  rw [encoder, hbody] at h
  obtain ⟨settings, hsettings, h⟩ := bind_eq_ok_iff.mp h
  have hmaker := lastSetting_eq hsettings "maker"
  split at h
  · cases h
  · next maker hlast =>
    obtain ⟨plans, hplans, h⟩ := bind_eq_ok_iff.mp h
    obtain rfl : _ = plan := Except.ok.inj h
    have hfields := mapM_eq_ok_iff.mp hplans
    have hdecoder : fields.mapM (FieldDef.plan .decoder) = .ok plans :=
      mapM_eq_ok_iff.mpr (hfields.imp fun _ _ hp => FieldDef.plan_congr .decoder hp)
    refine ⟨maker, plans, rfl, ?_, by rw [← hmaker, hlast],
      hfields.imp fun _ _ hp => FieldDef.follows_of_plan hp⟩
    rw [decoder, hparameters, hbody]
    simp only [List.isEmpty_nil, Bool.not_true, Bool.false_eq_true, if_false, hdecoder]
    rfl

/-- A choice with a decoder has an encoder with the same plans for its variants. -/
theorem encoder_of_decoder {d : Definition} {variants : List Variant} {plan : DecoderPlan}
    (hbody : d.body = .choice variants) (h : d.decoder = .ok plan) :
    ∃ family plans, plan = .family family plans ∧ d.encoder = .ok (.family plans) ∧
      lastText d.attributes "family" = some family ∧
      List.Forall₂ (fun v p => p.Follows v) variants plans := by
  rw [decoder, hbody] at h
  split at h
  · cases h
  · obtain ⟨settings, hsettings, h⟩ := bind_eq_ok_iff.mp h
    have hfamily := lastSetting_eq hsettings "family"
    split at h
    · cases h
    · next family hlast =>
      obtain ⟨plans, hplans, h⟩ := bind_eq_ok_iff.mp h
      obtain rfl : _ = plan := Except.ok.inj h
      refine ⟨family, plans, rfl, ?_, by rw [← hfamily, hlast],
        (mapM_eq_ok_iff.mp hplans).imp fun _ _ hp => Variant.follows_of_plan hp⟩
      rw [encoder, hbody]
      simp only [hplans]
      rfl

end Definition

end MakerForms.Derive
