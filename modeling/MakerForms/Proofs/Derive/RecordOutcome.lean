import MakerForms.Proofs.Derive.Agreement
import MakerForms.Proofs.Node.FormOutcome

set_option autoImplicit false

/-! # The first fault that a derived decoder meets

The derived decoder of a record reads a form with a slot for each field (`RecordCodec.read_eq`), and
so does the decoder of a kind (`decode_kind_eq_readForm`). What either reports is therefore the
outcome of reading a form: the first fault in the order of `FormOutcome`, or what all arguments
decode to, each in its own field (`first_fault_decides`).
-/

namespace MakerForms.Derive

/-- What is found for the fields of a record if their slots hold certain trees. -/
def RecordCodec.found (c : RecordCodec) (ts : List Tree) : Found :=
  (c.fields.zip ts).map fun p => (p.1.field, some p.2)

namespace RecordCodec

variable {c : RecordCodec} {places : String → Schema}

/-- A record is read as a form; its fields are filled from what the slots hold. -/
theorem read_eq_fillFields (c : RecordCodec) (places : String → Schema) (v : Value) :
    c.read places v = (readForm c.maker (c.slots places) v).map fun ts =>
      fillFields c.fields ((c.fields.map FieldPlan.variableName).zip ts).reverse := by
  have hlength : (c.slots places).length = c.fields.length := List.length_map _
  rw [read, readForm, hlength, Form.ofValue]
  cases Form.start v v.arguments c.maker c.fields.length with
  | error e => rfl
  | ok form =>
      show ((readFields places c.fields form []).bind _) = _
      rw [readFields_eq]
      show _ = ((form.slots (c.slots places)).bind _).map _
      rw [slots]
      cases form.slots _ with
      | error e => rfl
      | ok read =>
          obtain ⟨ts, last⟩ := read
          show (last.finish.bind _) = (last.finish.bind _).map _
          cases last.finish with
          | error e => rfl
          | ok _ => simp [Except.bind, Except.map, pure, Except.pure]

/-- Where the fields differ, each holds what its own slot does. -/
theorem read_eq (hdiffer : c.FieldsDiffer) (v : Value) :
    c.read places v = (readForm c.maker (c.slots places) v).map c.found := by
  have hread := formOutcome_readForm c.maker (c.slots places) v
  rw [read_eq_fillFields]
  cases hform : readForm c.maker (c.slots places) v with
  | error e => rfl
  | ok ts =>
      rw [hform] at hread
      cases hread with
      | read _ hall =>
          have hlength : ts.length = c.fields.length := by
            rw [hall.length_eq, slots, List.length_map]
          exact congrArg Except.ok (fillFields_eq hdiffer hlength)

end RecordCodec

/-- What comes of a form is what the outcomes of reading it come to. -/
theorem map_readForm_eq_iff {α : Type} {maker : String} {slots : List Slot} {v : Value}
    {f : List Tree → α} {result : Except DecodeError α} :
    (readForm maker slots v).map f = result ↔
      ∃ outcome, FormOutcome maker slots v outcome ∧ result = outcome.map f := by
  constructor
  · rintro rfl
    exact ⟨_, formOutcome_readForm maker slots v, rfl⟩
  · rintro ⟨outcome, houtcome, rfl⟩
    rw [readForm_eq_iff.mpr houtcome]

/-- **The first fault decides.** What a value decodes to as a node of a kind, and what the derived
decoder of a record reads, is the outcome of reading a form: no form, a foreign head, a wrong number
of arguments, the first pair of arguments at fault, and only then the trees that the arguments
decode to, each in its field. Of these the first that applies decides. Arguments behind the first
pair at fault do not matter. -/
theorem first_fault_decides :
    (∀ (k : Kind) (v : Value) (result : Except DecodeError Tree),
      v.decode (.kind k) = result ↔
        ∃ outcome, FormOutcome k.maker k.slots v outcome ∧ result = outcome.map (Tree.form k)) ∧
    (∀ (c : RecordCodec) (places : String → Schema) (v : Value)
      (result : Except DecodeError Found), c.FieldsDiffer →
      (c.read places v = result ↔
        ∃ outcome, FormOutcome c.maker (c.slots places) v outcome ∧
          result = outcome.map c.found)) ∧
    (∀ (k : Kind) (args args' : List Value) (i : Nat) (e : DecodeError),
      args.length = 2 * k.slots.length → FirstFault k.maker k.slots args i e →
      args'.length = args.length → args'.take (2 * i + 2) = args.take (2 * i + 2) →
      (Value.list (.symbol (Symbol.maker k.maker) :: args')).decode (.kind k) = .error e) := by
  refine ⟨fun k v result => ?_, fun c places v result hdiffer => ?_, ?_⟩
  · rw [decode_kind_eq_readForm]
    exact map_readForm_eq_iff
  · rw [RecordCodec.read_eq hdiffer]
    exact map_readForm_eq_iff
  · intro k args args' i e hcount hfault hcount' htake
    have houtcome : FormOutcome k.maker k.slots
        (.list (.symbol (Symbol.maker k.maker) :: args')) (.error e) :=
      .fault (hcount'.trans hcount) (hfault.of_take htake)
    rw [decode_kind_eq_readForm, readForm_eq_iff.mpr houtcome]
    rfl

/-- A record with two fields, and what may stand in them. -/
def bindingCodec : RecordCodec := ⟨"MAKE-BINDING", [⟨"r#type", "TYPE"⟩, ⟨"init_value", "VALUE"⟩]⟩

def bindingPlaces (field : String) : Schema := if field = "r#type" then .string else .index

/-- The arguments of a variable with a number in place of its name. Behind that, the keyword of the
type is wrong as well. -/
def misnamedArguments : List Value :=
  [.symbol (Symbol.keyword "NAME"), .integer 9, .symbol (Symbol.keyword "KIND"), .integer 3]

theorem first_fault_decides_misnamedArguments :
    (∃ e : DecodeError,
      e = .inSlot "MAKE-TYPED-VARIABLE" "NAME" (.shape "MAKE-IDENTIFIER" (.notForm (.integer 9))) ∧
      FirstFault Kind.typedVariable.maker Kind.typedVariable.slots misnamedArguments 0 e ∧
      (Value.form "MAKE-TYPED-VARIABLE" [("NAME", .integer 9),
        ("TYPE", .form "MAKE-TYPE-BOOLEAN" [])]).decode (.kind .typedVariable) = .error e) ∧
    bindingCodec.FieldsDiffer ∧
      bindingCodec.read bindingPlaces (.form "MAKE-BINDING" [("TYPE", .string "x"),
        ("INIT", .integer (-1))])
        = .error (.shape "MAKE-BINDING"
          (.wrongKeyword "VALUE" (.symbol (Symbol.keyword "INIT")))) := by
  obtain ⟨-, hrecord, hlater⟩ := first_fault_decides
  have hvariable : FirstFault Kind.typedVariable.maker Kind.typedVariable.slots misnamedArguments 0
      (.inSlot "MAKE-TYPED-VARIABLE" "NAME" (.shape "MAKE-IDENTIFIER" (.notForm (.integer 9)))) :=
    SlotFails.first (@SlotFails.value _ _ _ _ ⟨"name", "NAME", .kind .identifier⟩ (.integer 9) _
      rfl rfl rfl rfl)
  have hdiffer : bindingCodec.FieldsDiffer := by
    unfold RecordCodec.FieldsDiffer
    decide +kernel
  -- the value behind the wrong keyword is out of bounds, which is not reported
  have hbinding : FirstFault bindingCodec.maker (bindingCodec.slots bindingPlaces)
      [.symbol (Symbol.keyword "TYPE"), .string "x", .symbol (Symbol.keyword "INIT"), .integer (-1)]
      1 (.shape "MAKE-BINDING" (.wrongKeyword "VALUE" (.symbol (Symbol.keyword "INIT")))) := by
    have hne : Value.symbol (Symbol.keyword "INIT") ≠ .symbol (Symbol.keyword "VALUE") := by
      decide +kernel
    refine ⟨@SlotFails.keyword _ _ _ _ ⟨"init_value", "VALUE", .index⟩ _ rfl rfl hne, ?_⟩
    intro j hj
    obtain rfl : j = 0 := by omega
    exact ⟨.string "x", @SlotReads.intro _ _ _ _ ⟨"r#type", "TYPE", .string⟩ (.string "x")
      rfl rfl rfl rfl⟩
  refine ⟨⟨_, rfl, hvariable, hlater .typedVariable _ _ 0 _ rfl hvariable rfl rfl⟩, hdiffer, ?_⟩
  exact (hrecord bindingCodec bindingPlaces _ _ hdiffer).mpr ⟨_, .fault rfl hbinding, rfl⟩

end MakerForms.Derive
