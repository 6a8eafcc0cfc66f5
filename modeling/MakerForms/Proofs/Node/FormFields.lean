import MakerForms.Proofs.Node.FormOutcome

set_option autoImplicit false

/-! # Forms with fields of any type

What stands in a form need not be trees. Whoever can say how the things of a type are written and
how they are read can have them as a field of a form (`FormField`), and asking for a slot is asking
for a field of the type of trees (`Form.slot_eq_field`).

A request takes the next keyword and value or nothing at all, so requests take no more pairs than
they are (`Form.behind_ofPairs`). Hence a form that is written with certain fields is read with the
same number of requests, not with fewer, and gives back what is written
(`Form.written_fields_read_back`).
-/

namespace MakerForms

/-! ## Fields -/

/-- What is asked of a form: a keyword, and what the value behind it means. -/
structure FieldRequest where
  keyword : String
  type : Type
  decode : Value → Except DecodeError type

/-- The request for what may stand in places of a schema. -/
def FieldRequest.ofSchema (keyword : String) (s : Schema) : FieldRequest :=
  ⟨keyword, Tree, fun v => v.decode s⟩

/-- A field of a form: what is asked to read it, how the things of its type are written, and the one
that it holds. -/
structure FormField extends FieldRequest where
  encode : type → Value
  held : type

namespace FormField

/-- What is written for a field. -/
def value (f : FormField) : Value := f.encode f.held

/-- Whether what is written for a field is read as what it holds. -/
def ReadsBack (f : FormField) : Prop := f.decode f.value = .ok f.held

/-- The fields as arguments of a form. -/
def arguments (fields : List FormField) : List (String × Value) :=
  fields.map fun f => (f.keyword, f.value)

end FormField

namespace Form

/-- Reads the value behind the keyword of a request, which must come next. -/
def field (form : Form) (r : FieldRequest) : Except DecodeError r.type × Form :=
  match form.arguments with
  | key :: argument :: rest =>
    if key.value = .symbol (Symbol.keyword r.keyword) then
      ((r.decode argument.value).mapError (.inSlot form.maker r.keyword),
        { form with arguments := rest })
    else (.error (.shape form.maker (.wrongKeyword r.keyword key.value)), form)
  | _ => (.error (.shape form.maker (.missingKeyword r.keyword)), form)

/-- The form behind requests, whatever comes of them. -/
def behind (form : Form) (requests : List FieldRequest) : Form :=
  requests.foldl (fun form r => (form.field r).2) form

/-- Whether fields are read from a form one after another, each as what it holds, and the form that
is left. -/
inductive ReadsFields : Form → List FormField → Form → Prop
  | nil {form : Form} : ReadsFields form [] form
  | cons {form next last : Form} {f : FormField} {fields : List FormField} :
      form.field f.toFieldRequest = (.ok f.held, next) → ReadsFields next fields last →
      ReadsFields form (f :: fields) last

/-- A form with pairs of keywords and values left to read. -/
def ofPairs (maker : String) (pairs : List (String × Value)) : Form :=
  ⟨maker, argumentsOf (formArguments pairs)⟩

section Pairs

variable {maker : String} {pairs : List (String × Value)}

theorem ofValue_form_eq_ok_iff {arity : Nat} {form : Form} :
    ofValue (.form maker pairs) maker arity = .ok form ↔
      arity = pairs.length ∧ form = ofPairs maker pairs := by
  rw [ofValue, start_eq_ok_iff]
  constructor
  · rintro ⟨vs, hv, hlength, rfl⟩
    obtain rfl : formArguments pairs = vs := (List.cons.inj (Value.list.inj hv)).2
    rw [length_formArguments] at hlength
    exact ⟨by omega, rfl⟩
  · rintro ⟨rfl, rfl⟩
    exact ⟨formArguments pairs, rfl, length_formArguments pairs, rfl⟩

theorem ofValue_form_of_count {arity : Nat} (h : arity ≠ pairs.length) :
    ofValue (.form maker pairs) maker arity
      = .error (.shape maker (.argumentCount arity (2 * pairs.length))) := by
  have hlength := length_formArguments pairs
  have hne : (formArguments pairs).length ≠ arity * 2 := by omega
  rw [ofValue, Value.form, start_of_count hne, hlength, Nat.mul_comm]

/-- In whatever form of another maker there is, the maker that is found is reported, as one that
does not belong there or as one that does not exist. -/
theorem ofValue_form_of_foreign {other : String} (h : other ≠ maker) (arity : Nat) :
    ofValue (.form maker pairs) other arity
      = .error (if Registry.full.contains (Symbol.maker maker) then
          .typeMismatch other (Symbol.maker maker)
        else .unknownMaker (Symbol.maker maker)) := by
  have hhead : Symbol.maker maker ≠ Symbol.maker other := fun hsame =>
    h (congrArg Symbol.name hsame).symm
  rw [ofValue, Value.form, start_of_foreign hhead, Registry.contains_full_eq, DecodeError.wrongHead]

/-! ## One request -/

/-- Where a slot is asked for, a field of the type of trees is. -/
theorem slot_eq_field (maker : String) (vs : List Value) (keyword : String) (s : Schema) :
    (⟨maker, argumentsOf vs⟩ : Form).slot keyword s
      = (⟨maker, argumentsOf vs⟩ : Form).field (.ofSchema keyword s) := by
  cases vs with
  | nil => rfl
  | cons key vs => cases vs <;> rfl

theorem field_ofPairs_cons (r : FieldRequest) (keyword : String) (v : Value) :
    (ofPairs maker ((keyword, v) :: pairs)).field r =
      if Value.symbol (Symbol.keyword keyword) = .symbol (Symbol.keyword r.keyword) then
        ((r.decode v).mapError (.inSlot maker r.keyword), ofPairs maker pairs)
      else (.error (.shape maker (.wrongKeyword r.keyword (.symbol (Symbol.keyword keyword)))),
        ofPairs maker ((keyword, v) :: pairs)) := rfl

/-- A request takes the next pair or nothing. -/
theorem field_ofPairs (maker : String) (pairs : List (String × Value)) (r : FieldRequest) :
    ∃ taken ≤ 1, ((ofPairs maker pairs).field r).2 = ofPairs maker (pairs.drop taken) := by
  cases pairs with
  | nil => exact ⟨0, Nat.zero_le 1, rfl⟩
  | cons pair pairs =>
      rw [field_ofPairs_cons]
      split
      · exact ⟨1, Nat.le_refl 1, rfl⟩
      · exact ⟨0, Nat.zero_le 1, rfl⟩

/-! ## Requests one after another -/

/-- Requests take no more pairs than they are. -/
theorem behind_ofPairs (maker : String) (pairs : List (String × Value))
    (requests : List FieldRequest) : ∃ taken ≤ requests.length,
      (ofPairs maker pairs).behind requests = ofPairs maker (pairs.drop taken) := by
  induction requests generalizing pairs with
  | nil => exact ⟨0, Nat.le_refl 0, rfl⟩
  | cons r requests ih =>
      obtain ⟨first, hfirst, hfield⟩ := field_ofPairs maker pairs r
      obtain ⟨others, hothers, hbehind⟩ := ih (pairs.drop first)
      refine ⟨first + others, by rw [List.length_cons]; omega, ?_⟩
      rw [behind, List.foldl_cons, hfield, ← behind, hbehind, List.drop_drop]

/-- Behind fewer requests than there are pairs the keyword of one of them is left. -/
theorem finish_behind (maker : String) {requests : List FieldRequest}
    (h : requests.length < pairs.length) :
    ∃ pair ∈ pairs, ((ofPairs maker pairs).behind requests).finish
      = .error (.shape maker (.extraArgument (.symbol (Symbol.keyword pair.1)))) := by
  obtain ⟨taken, htaken, hbehind⟩ := behind_ofPairs maker pairs requests
  have hleft : taken < pairs.length := by omega
  refine ⟨pairs[taken], List.getElem_mem hleft, ?_⟩
  rw [hbehind, List.drop_eq_getElem_cons hleft]
  rfl

/-- Fields that read back are read from their own arguments. -/
theorem readsFields_arguments {fields : List FormField} (h : ∀ f ∈ fields, f.ReadsBack) :
    (ofPairs maker (FormField.arguments fields)).ReadsFields fields (ofPairs maker []) := by
  induction fields with
  | nil => exact .nil
  | cons f fields ih =>
      obtain ⟨hf, hfields⟩ := List.forall_mem_cons.mp h
      refine .cons ?_ (ih hfields)
      rw [FormField.arguments, List.map_cons, field_ofPairs_cons, if_pos rfl, hf]
      rfl

end Pairs

/-- **A form that is written with fields of any types is read back.** If the names are valid and
each field reads back, the form can be written. It is opened as a form with as many fields, gives
what each field holds in their order, and is finished then. It is not opened as a form with another
number of fields, nor as one of another maker. Behind fewer requests, whatever they ask for, one of
its keywords is left; and slots are asked for as fields of the type of trees are. -/
theorem written_fields_read_back {maker : String} {fields : List FormField}
    (hmaker : Symbol.isName maker.toList = true)
    (hkeywords : ∀ f ∈ fields, Symbol.isName f.keyword.toList = true)
    (hfields : ∀ f ∈ fields, f.ReadsBack) :
    ∃ v, Draft.write maker (·.keyword) FormField.value fields = .ok v ∧
      (∃ form last, ofValue v maker fields.length = .ok form ∧ form.ReadsFields fields last ∧
        last.finish = .ok ()) ∧
      (∀ arity, arity ≠ fields.length → ofValue v maker arity
        = .error (.shape maker (.argumentCount arity (2 * fields.length)))) ∧
      (∀ other, other ≠ maker → ∀ arity, ofValue v other arity
        = .error (if Registry.full.contains (Symbol.maker maker) then
            .typeMismatch other (Symbol.maker maker)
          else .unknownMaker (Symbol.maker maker))) ∧
      ∀ form, ofValue v maker fields.length = .ok form → ∀ requests : List FieldRequest,
        (∀ keyword s, (form.behind requests).slot keyword s
          = (form.behind requests).field (.ofSchema keyword s)) ∧
        (requests.length < fields.length → ∃ f ∈ fields, (form.behind requests).finish
          = .error (.shape maker (.extraArgument (.symbol (Symbol.keyword f.keyword))))) := by
  have hlength : (FormField.arguments fields).length = fields.length := List.length_map _
  refine ⟨.form maker (FormField.arguments fields),
    Draft.write_eq_ok_iff.mpr ⟨⟨hmaker, hkeywords⟩, rfl⟩, ?_, ?_, ?_, ?_⟩
  · exact ⟨_, _, ofValue_form_eq_ok_iff.mpr ⟨hlength.symm, rfl⟩, readsFields_arguments hfields, rfl⟩
  · intro arity harity
    rw [← hlength] at harity ⊢
    exact ofValue_form_of_count harity
  · intro other hother arity
    exact ofValue_form_of_foreign hother arity
  · intro form hform requests
    obtain ⟨-, rfl⟩ := ofValue_form_eq_ok_iff.mp hform
    refine ⟨fun keyword s => ?_, fun hfewer => ?_⟩
    · obtain ⟨taken, -, hbehind⟩ :=
        behind_ofPairs maker (FormField.arguments fields) requests
      rw [hbehind, ofPairs, slot_eq_field]
    · rw [← hlength] at hfewer
      obtain ⟨pair, hpair, hfinish⟩ := finish_behind maker hfewer
      obtain ⟨f, hf, rfl⟩ := List.mem_map.mp hpair
      exact ⟨f, hf, hfinish⟩

end Form

/-- The field that holds a text. -/
def FormField.ofString (keyword text : String) : FormField where
  keyword := keyword
  type := String
  decode v :=
    match v.string? with
    | some s => .ok s
    | none => .error (leafError "string" "a string" v)
  encode := .string
  held := text

/-- The field that holds a tree for places of a schema. -/
def FormField.ofTree (keyword : String) (s : Schema) (t : Tree) : FormField where
  toFieldRequest := .ofSchema keyword s
  encode := Tree.encode
  held := t

/-- A text and truth values, and a text behind the keyword of the first one. -/
def mixedFields : List FormField :=
  [.ofString "A" "a", .ofTree "B" (.sequence .flag) (.sequence [.flag true, .flag false]),
   .ofString "A" "b"]

theorem Form.written_fields_read_back_mixedFields :
    Symbol.isName "MAKE-X".toList = true ∧
    (∀ f ∈ mixedFields, Symbol.isName f.keyword.toList = true) ∧
    (∀ f ∈ mixedFields, f.ReadsBack) ∧
    ∃ v, Draft.write "MAKE-X" (·.keyword) FormField.value mixedFields = .ok v ∧
      v.text = "(SYNTHETO::MAKE-X :A \"a\" :B (LIST T NIL) :A \"b\")" ∧
      (∃ form last, ofValue v "MAKE-X" 3 = .ok form ∧ form.ReadsFields mixedFields last ∧
        last.finish = .ok ()) ∧
      ofValue v "MAKE-X" 2 = .error (.shape "MAKE-X" (.argumentCount 2 6)) ∧
      ofValue v "MAKE-Y" 3 = .error (.unknownMaker (Symbol.maker "MAKE-X")) := by
  have hmaker : Symbol.isName "MAKE-X".toList = true := by decide +kernel
  have hkeywords : ∀ f ∈ mixedFields, Symbol.isName f.keyword.toList = true := by decide +kernel
  have hfields : ∀ f ∈ mixedFields, f.ReadsBack := by
    simp only [mixedFields, List.forall_mem_cons]
    exact ⟨rfl, rfl, rfl, by simp⟩
  refine ⟨hmaker, hkeywords, hfields, ?_⟩
  obtain ⟨v, hwrite, hread, hcount, hother, -⟩ :=
    written_fields_read_back hmaker hkeywords hfields
  have hunknown : Registry.full.contains (Symbol.maker "MAKE-X") = false := by
    rw [Registry.contains_full_eq]
    decide +kernel
  have hv : v = .form "MAKE-X" (FormField.arguments mixedFields) :=
    (Draft.write_eq_ok_iff.mp hwrite).2
  have hforeign := hother "MAKE-Y" (by decide) 3
  rw [hunknown] at hforeign
  refine ⟨v, hwrite, ?_, hread, hcount 2 (by decide), hforeign⟩
  rw [hv]
  decide +kernel

end MakerForms
