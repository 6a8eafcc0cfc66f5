import MakerForms.Derive.Code
import MakerForms.Proofs.Derive.Plans

set_option autoImplicit false

/-! # Derived codecs agree

A decoder of a record asks for what the encoder writes (`RecordCodec.Agrees`), and the codecs of a
choice give the same maker for a variant in all three places (`VariantPlan.Agrees`). With the plans
of `Definition.decoder_of_encoder` and `Definition.encoder_of_decoder` this holds of whatever is
derived for a definition (`Definition.codecs_agree`).

The keywords are said in two ways here, by what is written and by what can be read. That variables
are filled in between is of no consequence as long as the fields have different names
(`RecordCodec.FieldsDiffer`), which the fields of a record have.
-/

namespace MakerForms.Derive

namespace RecordCodec

/-! ## What it is to agree -/

/-- The places in the forms of a record: the keywords of the fields in their order, each with what
may stand behind it. -/
def slots (c : RecordCodec) (places : String → Schema) : List Slot :=
  c.fields.map fun f => ⟨f.field, f.keyword, places f.field⟩

/-- Whether no two fields have the same name, marks in front of it apart. -/
def FieldsDiffer (c : RecordCodec) : Prop := (c.fields.map FieldPlan.variableName).Nodup

/-- What it is for the two codecs of a record to agree. -/
structure Agrees (c : RecordCodec) : Prop where
  /-- What is written is a form of the maker with the keyword and the value of each field. -/
  write_eq_ok_iff : ∀ (held : String → Value) (v : Value), c.write held = .ok v ↔
    (Symbol.isName c.maker.toList = true ∧
      ∀ f ∈ c.fields, Symbol.isName f.keyword.toList = true) ∧
    v = .form c.maker (c.fields.map fun f => (f.keyword, held f.field))
  /-- What can be read are the forms of the maker with the same keywords in the same order and no
  others. -/
  exists_read_iff : ∀ (places : String → Schema) (v : Value),
    (∃ found, c.read places v = .ok found) ↔
      ∃ args ts, SlotsDecode (c.slots places) args ts ∧ v = .form c.maker args
  /-- A field is filled from what is behind its own keyword. -/
  read_eq_ok_iff : ∀ (places : String → Schema) (v : Value) (found : Found), c.FieldsDiffer →
    (c.read places v = .ok found ↔
      ∃ args ts, SlotsDecode (c.slots places) args ts ∧ v = .form c.maker args ∧
        found = (c.fields.zip ts).map fun p => (p.1.field, some p.2))
  /-- So a field is filled from what has been written for it. -/
  read_of_write : ∀ (places : String → Schema) (held : String → Value) (trees : String → Tree)
    (v : Value), c.FieldsDiffer → c.write held = .ok v →
    (∀ f ∈ c.fields, (held f.field).decode (places f.field) = .ok (trees f.field)) →
    c.read places v = .ok (c.fields.map fun f => (f.field, some (trees f.field)))

/-! ## Writing -/

theorem write_eq_ok_iff (c : RecordCodec) (held : String → Value) (v : Value) :
    c.write held = .ok v ↔
      (Symbol.isName c.maker.toList = true ∧
        ∀ f ∈ c.fields, Symbol.isName f.keyword.toList = true) ∧
      v = .form c.maker (c.fields.map fun f => (f.keyword, held f.field)) :=
  Draft.write_eq_ok_iff

/-! ## Reading -/

/-- Reading fields into variables is reading slots: the variables hold what the slots do. -/
theorem readFields_eq (places : String → Schema) (fields : List FieldPlan) (form : Form)
    (env : List (String × Tree)) :
    readFields places fields form env =
      (form.slots (fields.map fun f => ⟨f.field, f.keyword, places f.field⟩)).map fun (ts, last) =>
        (((fields.map FieldPlan.variableName).zip ts).reverse ++ env, last) := by
  induction fields generalizing form env with
  | nil => rfl
  | cons f fields ih =>
      simp only [readFields, List.map_cons, Form.slots]
      rcases form.slot f.keyword (places f.field) with ⟨e | t, form'⟩
      · rfl
      · dsimp only
        rw [ih]
        cases form'.slots _ with
        | error e => rfl
        | ok read => simp [Except.map]

theorem readFields_eq_ok_iff {places : String → Schema} {fields : List FieldPlan} {form last : Form}
    {env env' : List (String × Tree)} :
    readFields places fields form env = .ok (env', last) ↔
      ∃ ts, form.slots (fields.map fun f => ⟨f.field, f.keyword, places f.field⟩) = .ok (ts, last) ∧
        env' = ((fields.map FieldPlan.variableName).zip ts).reverse ++ env := by
  rw [readFields_eq, map_eq_ok_iff]
  constructor
  · rintro ⟨⟨ts, last'⟩, hslots, h⟩
    obtain ⟨rfl, rfl⟩ := Prod.mk.inj h
    exact ⟨ts, hslots, rfl⟩
  · rintro ⟨ts, hslots, rfl⟩
    exact ⟨(ts, last), hslots, rfl⟩

/-- What is read depends only on what the slots hold. -/
theorem read_eq_ok_iff_fillFields {c : RecordCodec} {places : String → Schema} {v : Value}
    {found : Found} :
    c.read places v = .ok found ↔
      ∃ args ts, SlotsDecode (c.slots places) args ts ∧ v = .form c.maker args ∧
        found = fillFields c.fields ((c.fields.map FieldPlan.variableName).zip ts).reverse := by
  have hlength : (c.slots places).length = c.fields.length := List.length_map _
  constructor
  · intro h
    obtain ⟨form, hstart, h⟩ := bind_eq_ok_iff.mp h
    obtain ⟨⟨env, last⟩, hfields, h⟩ := bind_eq_ok_iff.mp h
    obtain ⟨_, hfinish, h⟩ := bind_eq_ok_iff.mp h
    obtain ⟨ts, hslots, rfl⟩ := readFields_eq_ok_iff.mp hfields
    rw [Form.ofValue, ← hlength] at hstart
    obtain ⟨args, hargs, hv⟩ := Form.whole_iff.mp ⟨form, last, hstart, hslots, hfinish⟩
    refine ⟨args, ts, hargs, hv, ?_⟩
    rw [← Except.ok.inj h, List.append_nil]
  · rintro ⟨args, ts, hargs, hv, rfl⟩
    obtain ⟨form, last, hstart, hslots, hfinish⟩ := Form.whole_iff.mpr ⟨args, hargs, hv⟩
    rw [hlength] at hstart
    have hfields := readFields_eq_ok_iff.mpr ⟨ts, hslots, (List.append_nil _).symm⟩
    exact bind_eq_ok_iff.mpr ⟨form, hstart, bind_eq_ok_iff.mpr ⟨_, hfields,
      bind_eq_ok_iff.mpr ⟨(), hfinish, rfl⟩⟩⟩

/-! ## Filling fields -/

/-- Where names differ, a lookup finds what is given for a name. -/
theorem lookup_eq_some_of_mem {α : Type} {env : List (String × α)} {name : String} {a : α}
    (hnames : (env.map Prod.fst).Nodup) (ha : (name, a) ∈ env) : env.lookup name = some a := by
  obtain ⟨before, behind, rfl⟩ := List.append_of_mem ha
  refine List.lookup_eq_some_iff.mpr ⟨before, behind, rfl, fun p hp => ?_⟩
  rw [List.map_append, List.map_cons, List.nodup_append] at hnames
  have hne : p.1 ≠ name := hnames.2.2 p.1 (List.mem_map_of_mem hp) name List.mem_cons_self
  simpa using hne.symm

/-- Fields with different names are filled with what has been read for them. -/
theorem fillFields_eq {fields : List FieldPlan} {ts : List Tree}
    (hdiffer : (fields.map FieldPlan.variableName).Nodup) (hlength : ts.length = fields.length) :
    fillFields fields ((fields.map FieldPlan.variableName).zip ts).reverse
      = (fields.zip ts).map fun p => (p.1.field, some p.2) := by
  -- the last variable comes first, but where names differ the order is of no consequence
  have hnames : ((fields.map FieldPlan.variableName).zip ts).reverse.map Prod.fst
      = (fields.map FieldPlan.variableName).reverse := by
    rw [List.map_reverse, List.map_fst_zip]
    simp [hlength]
  have hfill : ∀ p ∈ fields.zip ts,
      ((fields.map FieldPlan.variableName).zip ts).reverse.lookup p.1.variableName = some p.2 := by
    intro p hp
    refine lookup_eq_some_of_mem (by rw [hnames]; exact List.nodup_reverse.mpr hdiffer) ?_
    rw [List.mem_reverse, List.zip_map_left]
    exact List.mem_map_of_mem hp
  calc fillFields fields ((fields.map FieldPlan.variableName).zip ts).reverse
      = ((fields.zip ts).map Prod.fst).map fun f => (f.field,
          ((fields.map FieldPlan.variableName).zip ts).reverse.lookup f.variableName) := by
        rw [List.map_fst_zip (by omega), fillFields]
    _ = (fields.zip ts).map fun p => (p.1.field, some p.2) := by
        rw [List.map_map]
        exact List.map_congr_left fun p hp => by simp [hfill p hp]

theorem read_eq_ok_iff {c : RecordCodec} {places : String → Schema} {v : Value} {found : Found}
    (hdiffer : c.FieldsDiffer) :
    c.read places v = .ok found ↔
      ∃ args ts, SlotsDecode (c.slots places) args ts ∧ v = .form c.maker args ∧
        found = (c.fields.zip ts).map fun p => (p.1.field, some p.2) := by
  rw [read_eq_ok_iff_fillFields]
  refine exists_congr fun args => exists_congr fun ts => and_congr_right fun hargs => ?_
  rw [fillFields_eq hdiffer (by rw [hargs.length_trees, slots, List.length_map])]

/-- What is held for fields decodes in their slots if each of it decodes. -/
theorem slotsDecode_map {places : String → Schema} {held : String → Value}
    {trees : String → Tree} {fields : List FieldPlan}
    (h : ∀ f ∈ fields, (held f.field).decode (places f.field) = .ok (trees f.field)) :
    SlotsDecode (fields.map fun f => ⟨f.field, f.keyword, places f.field⟩)
      (fields.map fun f => (f.keyword, held f.field)) (fields.map fun f => trees f.field) := by
  induction fields with
  | nil => exact .nil
  | cons f fields ih =>
      rw [List.forall_mem_cons] at h
      exact .cons h.1 (ih h.2)

/-- The codecs of a record agree. -/
theorem agrees (c : RecordCodec) : c.Agrees where
  write_eq_ok_iff := c.write_eq_ok_iff
  exists_read_iff places v := by
    constructor
    · rintro ⟨found, h⟩
      obtain ⟨args, ts, hargs, hv, -⟩ := read_eq_ok_iff_fillFields.mp h
      exact ⟨args, ts, hargs, hv⟩
    · rintro ⟨args, ts, hargs, hv⟩
      exact ⟨_, read_eq_ok_iff_fillFields.mpr ⟨args, ts, hargs, hv, rfl⟩⟩
  read_eq_ok_iff places v found := read_eq_ok_iff
  read_of_write places held trees v hdiffer hwrite hdecode := by
    obtain ⟨-, rfl⟩ := (c.write_eq_ok_iff held v).mp hwrite
    refine (read_eq_ok_iff hdiffer).mpr ⟨_, _, slotsDecode_map hdecode, rfl, ?_⟩
    rw [← List.map_prod_left_eq_zip, List.map_map]
    rfl

end RecordCodec

/-! ## Choices -/

namespace VariantPlan

variable (codecs : String → RecordCodec) (places : String → String → Schema)

/-- The codecs that a variant is written and read with: those of the type that it wraps, or else
those of a record without fields. -/
def codec : VariantPlan → RecordCodec
  | unit _ maker => ⟨maker, []⟩
  | wrapper _ type => codecs type

/-- What may stand in the fields of a variant. -/
def fieldPlaces (p : VariantPlan) : String → Schema := places (p.type?.getD "")

/-- What it is for the codecs of a choice to agree on a variant that has an entry in the list of
decoders. -/
structure Agrees (p : VariantPlan)
    (entry : String × (Value → Except DecodeError (String × Found))) : Prop where
  /-- The entry stands under the maker that is reported. -/
  maker_eq : entry.1 = p.reportedMaker codecs
  /-- What is written is headed by this maker. -/
  head_of_write : ∀ (held : String → Value) (v : Value), p.write codecs held = .ok v →
    v.head? = some (Symbol.maker (p.reportedMaker codecs))
  /-- What can be read is headed by this maker, and is taken for the variant. -/
  head_of_read : ∀ (v : Value) (name : String) (found : Found), entry.2 v = .ok (name, found) →
    v.head? = some (Symbol.maker (p.reportedMaker codecs)) ∧ name = p.name
  /-- So what is written is read as the same variant, with its fields as they were. -/
  read_of_write : ∀ (held : String → Value) (trees : String → Tree) (v : Value),
    (p.codec codecs).FieldsDiffer → p.write codecs held = .ok v →
    (∀ f ∈ (p.codec codecs).fields,
      (held f.field).decode (p.fieldPlaces places f.field) = .ok (trees f.field)) →
    entry.2 v
      = .ok (p.name, (p.codec codecs).fields.map fun f => (f.field, some (trees f.field)))

theorem reportedMaker_eq (p : VariantPlan) : p.reportedMaker codecs = (p.codec codecs).maker := by
  cases p <;> rfl

theorem write_eq (p : VariantPlan) (held : String → Value) :
    p.write codecs held = (p.codec codecs).write held := by
  cases p with
  | unit name maker =>
      rw [write, codec, RecordCodec.write]
      cases Draft.start? maker <;> rfl
  | wrapper name type => rfl

theorem entry_eq (p : VariantPlan) :
    p.entry codecs places
      = ((p.codec codecs).maker, fun v =>
          ((p.codec codecs).read (p.fieldPlaces places) v).map (p.name, ·)) := by
  cases p with
  | unit name maker =>
      refine Prod.ext rfl (funext fun v => ?_)
      simp only [entry, read, codec, RecordCodec.read, List.length_nil]
      cases Form.ofValue v maker 0 with
      | error e => rfl
      | ok form =>
          -- without fields, the form that has been started is the one that is finished
          obtain ⟨formMaker, arguments⟩ := form
          cases arguments <;> rfl
  | wrapper name type => rfl

/-- The codecs of a choice agree on each variant. -/
theorem agrees (p : VariantPlan) : p.Agrees codecs places (p.entry codecs places) := by
  have hcodec := (p.codec codecs).agrees
  rw [entry_eq]
  refine ⟨(p.reportedMaker_eq codecs).symm, fun held v h => ?_, fun v name found h => ?_,
    fun held trees v hdiffer h hdecode => ?_⟩
  · rw [write_eq] at h
    obtain ⟨-, rfl⟩ := (hcodec.write_eq_ok_iff held v).mp h
    rw [reportedMaker_eq]
    rfl
  · obtain ⟨found', hread, heq⟩ := map_eq_ok_iff.mp h
    obtain ⟨args, ts, -, rfl⟩ := (hcodec.exists_read_iff _ v).mp ⟨found', hread⟩
    rw [reportedMaker_eq]
    exact ⟨rfl, (Prod.mk.inj heq).1.symm⟩
  · rw [write_eq] at h
    exact map_eq_ok_iff.mpr ⟨_, hcodec.read_of_write _ held trees v hdiffer h hdecode, rfl⟩

end VariantPlan

/-! ## Definitions -/

/-- **Derived codecs agree.** Take a definition without parameters. Where a record has an encoder,
it has a decoder for the same fields, and the two agree. Where a choice has a decoder, it has an
encoder for the same variants; its list of decoders has an entry for each variant in the order of
declaration, on which the two agree, whatever the codecs of the types that are wrapped. -/
theorem Definition.codecs_agree (d : Definition) (hparameters : d.parameters = []) :
    (∀ fields plan, d.body = .record fields → d.encoder = .ok plan →
      ∃ c : RecordCodec, plan = .record c.maker c.fields ∧ d.decoder = .ok (.record c.fields) ∧
        lastText d.attributes "maker" = some c.maker ∧
        List.Forall₂ (fun f p => p.Follows f) fields c.fields ∧ c.Agrees) ∧
    (∀ variants plan, d.body = .choice variants → d.decoder = .ok plan →
      ∃ family plans, plan = .family family plans ∧ d.encoder = .ok (.family plans) ∧
        lastText d.attributes "family" = some family ∧
        ∀ codecs places, List.Forall₂
          (fun v entry => ∃ p : VariantPlan, p.Follows v ∧ p.Agrees codecs places entry)
          variants (decoders codecs places plans)) := by
  constructor
  · intro fields plan hbody h
    obtain ⟨maker, plans, rfl, hdecoder, hmaker, hfields⟩ :=
      decoder_of_encoder hparameters hbody h
    exact ⟨⟨maker, plans⟩, rfl, hdecoder, hmaker, hfields, RecordCodec.agrees _⟩
  · intro variants plan hbody h
    obtain ⟨family, plans, rfl, hencoder, hfamily, hvariants⟩ := encoder_of_decoder hbody h
    refine ⟨family, plans, rfl, hencoder, hfamily, fun codecs places => ?_⟩
    rw [decoders, List.forall₂_map_right_iff]
    exact hvariants.imp fun v p hp => ⟨p, hp, p.agrees codecs places⟩

/-- A record with a field that is named by a reserved word, a field that is renamed twice, and
attributes of other kinds. -/
def bindingDefinition : Definition :=
  ⟨"Binding", [], [⟨"derive", none⟩, ⟨"sexpr", some [("maker", .text "MAKE-BINDING")]⟩],
    .record
      [⟨some "r#type", "SmolStr", [⟨"doc", none⟩]⟩,
       ⟨some "init_value", "u64", [⟨"sexpr", some [("rename", .text "INIT")]⟩,
         ⟨"sexpr", some [("rename", .text "VALUE")]⟩]⟩]⟩

/-- A choice between such a record and nothing. -/
def statementDefinition : Definition :=
  ⟨"Statement", [], [⟨"sexpr", some [("family", .text "statement")]⟩],
    .choice
      [⟨"Let", .unnamed [⟨none, "Binding", []⟩], []⟩,
       ⟨"Skip", .unit, [⟨"sexpr", some [("maker", .text "MAKE-SKIP")]⟩]⟩]⟩

theorem Definition.codecs_agree_binding :
    (∃ c : RecordCodec, bindingDefinition.decoder = .ok (.record c.fields) ∧
      c.write (fun name => if name = "r#type" then .string "x" else .integer 3)
        = .ok (.form "MAKE-BINDING" [("TYPE", .string "x"), ("VALUE", .integer 3)]) ∧
      c.read (fun name => if name = "r#type" then .string else .index)
          (.form "MAKE-BINDING" [("TYPE", .string "x"), ("VALUE", .integer 3)])
        = .ok [("r#type", some (.string "x")), ("init_value", some (.number 3))]) ∧
    ∃ plans, statementDefinition.encoder = .ok (.family plans) ∧
      (decoders (fun _ => ⟨"MAKE-BINDING", []⟩) (fun _ _ => .index) plans).map Prod.fst
        = ["MAKE-BINDING", "MAKE-SKIP"] := by
  have hencoder : bindingDefinition.encoder
      = .ok (.record "MAKE-BINDING" [⟨"r#type", "TYPE"⟩, ⟨"init_value", "VALUE"⟩]) := rfl
  have hdecoder : statementDefinition.decoder
      = .ok (.family "statement" [.wrapper "Let" "Binding", .unit "Skip" "MAKE-SKIP"]) := rfl
  obtain ⟨⟨maker, fields⟩, hplan, hfields, -, -, hagrees⟩ :=
    (Definition.codecs_agree bindingDefinition rfl).1 _ _ rfl hencoder
  obtain ⟨rfl, rfl⟩ := EncoderPlan.record.inj hplan
  obtain ⟨family, plans, hplans, hfamily, -⟩ :=
    (Definition.codecs_agree statementDefinition rfl).2 _ _ rfl hdecoder
  obtain ⟨rfl, rfl⟩ := DecoderPlan.family.inj hplans
  have hwrite := (hagrees.write_eq_ok_iff
    (fun name => if name = "r#type" then .string "x" else .integer 3) _).mpr
      ⟨by decide +kernel, rfl⟩
  refine ⟨⟨_, hfields, hwrite, ?_⟩, _, hfamily, rfl⟩
  refine hagrees.read_of_write _ _
    (fun name => if name = "r#type" then .string "x" else .number 3) _ ?_ hwrite ?_
  · unfold RecordCodec.FieldsDiffer
    decide +kernel
  · simp only [List.forall_mem_cons]
    exact ⟨rfl, rfl, by simp⟩

end MakerForms.Derive
