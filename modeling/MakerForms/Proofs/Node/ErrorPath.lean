import MakerForms.Proofs.Node.Decoding
import MakerForms.Proofs.Node.Fits
import MakerForms.Proofs.Sexpr.Nesting

set_option autoImplicit false

/-! # Where the path of an error leads

An error is wrapped in one layer for each slot around what is wrong, the maker and the keyword of
the slot. From a value that does not decode, the layers lead from a form to one of its arguments,
and on to an element where the argument is a sequence (`Value.Leads`). At the end is a value that
is refused in its own place, with the innermost error (`Value.error_path_leads`).

One step is the inversion of a decoder that fails: its error has no layers, so that the value
itself is at fault, or the value is a form and one of its arguments does not decode
(`Value.decode_eq_error_cases`). The whole path is an induction over the items of the value.
-/

namespace MakerForms

/-! ## The layers of an error -/

namespace DecodeError

/-- The makers and keywords of the slots around the innermost error, from the outside in. -/
@[simp] def layers : DecodeError → List (String × String)
  | inSlot maker keyword cause => (maker, keyword) :: cause.layers
  | _ => []

theorem path_eq_map_layers (e : DecodeError) : e.path = e.layers.map Prod.snd := by
  induction e with
  | inSlot maker keyword cause ih => rw [path, layers, ih, List.map_cons]
  | _ => rfl

theorem eq_foldr_layers (e : DecodeError) :
    e = e.layers.foldr (fun layer cause => .inSlot layer.1 layer.2 cause) e.innermost := by
  induction e with
  | inSlot maker keyword cause ih => rw [layers, innermost, List.foldr_cons, ← ih]
  | _ => rfl

theorem innermost_ne_inSlot (e : DecodeError) (maker keyword : String) (cause : DecodeError) :
    e.innermost ≠ .inSlot maker keyword cause := by
  induction e with
  | inSlot _ _ _ ih => exact ih
  | _ => simp [innermost]

theorem innermost_of_layers_eq_nil {e : DecodeError} (h : e.layers = []) : e.innermost = e := by
  cases e with
  | inSlot maker keyword cause => simp at h
  | _ => rfl

@[simp] theorem layers_wrongHead (head : Symbol) (expected : String) :
    (wrongHead head expected).layers = [] := by
  unfold wrongHead
  split <;> rfl

end DecodeError

/-- Whether a decoder, if it fails, fails with an error that has no layers. -/
def Unlayered {α : Type} (x : Except DecodeError α) : Prop :=
  ∀ e : DecodeError, x = .error e → e.layers = []

section Unlayered

variable {α β : Type}

@[simp] theorem unlayered_ok (a : α) : Unlayered (.ok a : Except DecodeError α) := by
  simp [Unlayered]

@[simp] theorem unlayered_error {e : DecodeError} :
    Unlayered (.error e : Except DecodeError α) ↔ e.layers = [] := by
  simp [Unlayered]

@[simp] theorem unlayered_map {x : Except DecodeError α} {f : α → β} :
    Unlayered (x.map f) ↔ Unlayered x := by
  simp only [Unlayered, map_eq_error_iff]

@[simp] theorem layers_leafError (context wanted : String) (v : Value) :
    (leafError context wanted v).layers = [] := rfl

theorem unlayered_decodeFlag (v : Value) : Unlayered (decodeFlag v) := by
  unfold decodeFlag
  split
  · split
    · simp
    · split <;> simp
  · simp

theorem unlayered_decodeCharacter (v : Value) : Unlayered (decodeCharacter v) := by
  unfold decodeCharacter
  split <;> simp

theorem unlayered_decodeNatural (v : Value) : Unlayered (decodeNatural v) := by
  unfold decodeNatural
  split <;> simp

theorem unlayered_decodeIndex (v : Value) : Unlayered (decodeIndex v) := by
  unfold decodeIndex
  split
  · split <;> simp
  · simp

theorem unlayered_decodeString (v : Value) : Unlayered (decodeString v) := by
  unfold decodeString
  split <;> simp

theorem unlayered_decodeName (v : Value) : Unlayered (decodeName v) := by
  unfold decodeName checkName
  split
  · split <;> simp
  · simp

theorem unlayered_decodeOperator (place : Operator.Place) (v : Value) :
    Unlayered (decodeOperator place v) := by
  unfold decodeOperator
  split
  · split
    · split <;> simp
    · simp
  · simp

theorem Form.unlayered_start (v : Value) (items : List Argument) (maker : String) (arity : Nat) :
    Unlayered (Form.start v items maker arity) := by
  unfold Form.start
  split
  · simp
  · split
    · simp
    · split <;> simp

theorem Form.unlayered_finish (form : Form) : Unlayered form.finish := by
  unfold Form.finish
  split <;> simp

end Unlayered

/-! ## Along a path -/

/-- Among values that are written for slots, a keyword and a value for each in their order, `u` is
the value for `keyword`, and `s` the schema of its slot. -/
inductive ArgumentIn : List Slot → List Value → String → Value → Schema → Prop
  | first {slot : Slot} {slots : List Slot} {u : Value} {vs : List Value} :
      ArgumentIn (slot :: slots) (.symbol (Symbol.keyword slot.keyword) :: u :: vs)
        slot.keyword u slot.schema
  | later {slot : Slot} {slots : List Slot} {v : Value} {vs : List Value} {keyword : String}
      {u : Value} {s : Schema} : ArgumentIn slots vs keyword u s →
      ArgumentIn (slot :: slots) (.symbol (Symbol.keyword slot.keyword) :: v :: vs) keyword u s

theorem ArgumentIn.mem {slots : List Slot} {vs : List Value} {keyword : String} {u : Value}
    {s : Schema} (h : ArgumentIn slots vs keyword u s) : u ∈ vs := by
  induction h with
  | first => simp
  | later _ ih => simp [ih]

theorem ArgumentIn.exists_slot {slots : List Slot} {vs : List Value} {keyword : String} {u : Value}
    {s : Schema} (h : ArgumentIn slots vs keyword u s) :
    ∃ slot ∈ slots, slot.keyword = keyword ∧ slot.schema = s := by
  induction h with
  | first => exact ⟨_, List.mem_cons_self, rfl, rfl⟩
  | later _ ih =>
      obtain ⟨slot, hmem, hkeyword, hschema⟩ := ih
      exact ⟨slot, List.mem_cons_of_mem _ hmem, hkeyword, hschema⟩

namespace Value

/-- The value is a form of the maker of a kind, `u` is its argument for `keyword`, and `s` the
schema of the slot of the kind that has this keyword. -/
inductive HasArgument : Value → String → String → Value → Schema → Prop
  | form {k : Kind} {vs : List Value} {keyword : String} {u : Value} {s : Schema} :
      ArgumentIn k.slots vs keyword u s →
      HasArgument (.list (.symbol (Symbol.maker k.maker) :: vs)) k.maker keyword u s

/-- From what stands in a slot to what a path goes on with: an element if it is a sequence in a
place for one, and otherwise the same value in the same place. -/
inductive Enters : Value → Schema → Value → Schema → Prop
  | same {v : Value} {s : Schema} :
      (∀ s', s = .sequence s' → v.head? ≠ some Symbol.list) → Enters v s v s
  | element {vs : List Value} {u : Value} {s : Schema} : u ∈ vs →
      Enters (.list (.symbol Symbol.list :: vs)) (.sequence s) u s

/-- Makers and keywords lead from a value in a place of a schema to a value in a place of a
schema. -/
inductive Leads : Value → Schema → List (String × String) → Value → Schema → Prop
  | here {v : Value} {s : Schema} : Leads v s [] v s
  | slot {v u u' w : Value} {s r r' t : Schema} {maker keyword : String}
      {layers : List (String × String)} : v.HasArgument maker keyword u r → Enters u r u' r' →
      Leads u' r' layers w t → Leads v s ((maker, keyword) :: layers) w t

/-- What it is for a value to be refused as a name: a string is refused by the check of the names
of identifiers, and anything else as a string. -/
def RefusedAsName (e : DecodeError) : Value → Prop
  | .string name => Identifier.ofName name = .error e
  | v => v.decode .string = .error e

theorem refusedAsName_of_decode {v : Value} {e : DecodeError} (h : v.decode .name = .error e) :
    v.RefusedAsName e := by
  rw [decode_eq, decodeWith, decodeName] at h
  cases v with
  | string name => exact map_eq_error_iff.mpr (map_eq_error_iff.mp h)
  | _ => exact h

end Value

/-! ## Errors of one decoder -/

/-- A slot that cannot be read is not there, or its value does not decode. -/
theorem Form.slot_eq_error {maker keyword : String} {s : Schema} {vs : List Value}
    {e : DecodeError} {form : Form}
    (h : (⟨maker, argumentsOf vs⟩ : Form).slot keyword s = (.error e, form)) :
    e.layers = [] ∨ ∃ u rest cause, vs = .symbol (Symbol.keyword keyword) :: u :: rest ∧
      u.decode s = .error cause ∧ e = .inSlot maker keyword cause := by
  cases vs with
  | nil =>
      obtain ⟨rfl, -⟩ : _ = e ∧ _ = form := by simpa [Form.slot, argumentsOf] using h
      exact Or.inl rfl
  | cons key vs =>
      cases vs with
      | nil =>
          obtain ⟨rfl, -⟩ : _ = e ∧ _ = form := by simpa [Form.slot, argumentsOf] using h
          exact Or.inl rfl
      | cons u rest =>
          simp only [Form.slot, argumentsOf] at h
          by_cases hkey : key = .symbol (Symbol.keyword keyword)
          · rw [if_pos hkey, Prod.mk.injEq] at h
            obtain ⟨cause, hu, hcause⟩ := mapError_eq_error_iff.mp h.1
            exact Or.inr ⟨u, rest, cause, by rw [hkey], hu, hcause.symm⟩
          · rw [if_neg hkey, Prod.mk.injEq] at h
            obtain rfl := Except.error.inj h.1
            exact Or.inl rfl

/-- Slots that cannot be read are not there, or the value of one of them does not decode. -/
theorem Form.slots_eq_error {maker : String} {slots : List Slot} {vs : List Value}
    {e : DecodeError} (h : (⟨maker, argumentsOf vs⟩ : Form).slots slots = .error e) :
    e.layers = [] ∨ ∃ keyword u s cause, ArgumentIn slots vs keyword u s ∧
      u.decode s = .error cause ∧ e = .inSlot maker keyword cause := by
  induction slots generalizing vs with
  | nil => simp [Form.slots] at h
  | cons slot slots ih =>
      rw [Form.slots] at h
      split at h
      · next _ _ hslot =>
        obtain rfl := Except.error.inj h
        rcases Form.slot_eq_error hslot with hlayers | ⟨u, rest, cause, rfl, hu, he⟩
        · exact Or.inl hlayers
        · exact Or.inr ⟨slot.keyword, u, slot.schema, cause, .first, hu, he⟩
      · next t form hslot =>
        -- the slot is read, so the error is one of reading the slots after it
        obtain ⟨v, rest, rfl, -, rfl⟩ := Form.slot_eq_ok_iff.mp hslot
        split at h
        · next _ hslots =>
          obtain rfl := Except.error.inj h
          rcases ih hslots with hlayers | ⟨keyword, u, s, cause, hargument, hu, he⟩
          · exact Or.inl hlayers
          · exact Or.inr ⟨keyword, u, s, cause, .later hargument, hu, he⟩
        · cases h

namespace Value

/-- An error comes from an argument of a form if its outermost layer is that of the argument, and
what is wrapped in the layer is the reason why the argument does not decode. -/
def FailsInside (v : Value) (e : DecodeError) : Prop :=
  ∃ maker keyword u s cause, v.HasArgument maker keyword u s ∧ u.decode s = .error cause ∧
    e = .inSlot maker keyword cause

section Nodes

variable {v : Value} {e : DecodeError}

theorem decodeSlots_eq_error {k : Kind} (h : decodeSlots k v v.arguments = .error e) :
    e.layers = [] ∨ v.FailsInside e := by
  unfold decodeSlots at h
  rcases bind_eq_error_iff.mp h with hstart | ⟨form, hstart, h⟩
  · exact Or.inl (Form.unlayered_start _ _ _ _ e hstart)
  · obtain ⟨vs, rfl, -, rfl⟩ := Form.start_eq_ok_iff.mp hstart
    rcases bind_eq_error_iff.mp h with hslots | ⟨⟨ts, rest⟩, -, h⟩
    · rcases Form.slots_eq_error hslots with hlayers | ⟨keyword, u, s, cause, hargument, hu, he⟩
      · exact Or.inl hlayers
      · exact Or.inr ⟨k.maker, keyword, u, s, cause, .form hargument, hu, he⟩
    · rcases bind_eq_error_iff.mp h with hfinish | ⟨_, -, h⟩
      · exact Or.inl (Form.unlayered_finish _ e hfinish)
      · cases h

theorem decodeNode_eq_error (h : decodeNode v v.arguments = .error e) :
    e.layers = [] ∨ v.FailsInside e := by
  unfold decodeNode at h
  split at h
  · obtain rfl := Except.error.inj h
    exact Or.inl rfl
  · split at h
    · obtain rfl := Except.error.inj h
      exact Or.inl rfl
    · exact decodeSlots_eq_error (map_eq_error_iff.mp h)

end Nodes

end Value

/-! ## One step -/

namespace Schema

/-- Whether a schema is of one thing, which may be absent but is no sequence. -/
def isSingle : Schema → Bool
  | option s => s.isSingle
  | sequence _ => false
  | _ => true

/-- Whether a schema is of one thing or of a sequence of such things. -/
def isPlace : Schema → Bool
  | sequence s => s.isSingle
  | s => s.isSingle

theorem isPlace_of_isSingle {s : Schema} (h : s.isSingle = true) : s.isPlace = true := by
  cases s with
  | sequence s => simp [isSingle] at h
  | _ => exact h

theorem isSingle_of_isPlace {s : Schema} (h : s.isPlace = true) (hs : ∀ r, s ≠ .sequence r) :
    s.isSingle = true := by
  cases s with
  | sequence s => exact absurd rfl (hs s)
  | _ => exact h

theorem isPlace_of_isNodeType {s : Schema} (h : s.isNodeType = true) : s.isPlace = true := by
  cases s <;> simp_all [isNodeType, isPlace, isSingle]

end Schema

theorem Kind.isPlace_slot (k : Kind) : (k.slots.all fun slot => slot.schema.isPlace) = true := by
  cases k <;> rfl

namespace Value

variable {v : Value} {e : DecodeError} {s : Schema}

theorem HasArgument.mem_items {maker keyword : String} {u : Value}
    (h : v.HasArgument maker keyword u s) : u ∈ v.items := by
  cases h with
  | form hargument => exact List.mem_cons_of_mem _ hargument.mem

theorem HasArgument.isPlace {maker keyword : String} {u : Value}
    (h : v.HasArgument maker keyword u s) : s.isPlace = true := by
  cases h with
  | @form k _ _ _ _ hargument =>
      obtain ⟨slot, hslot, -, rfl⟩ := hargument.exists_slot
      exact List.all_eq_true.mp k.isPlace_slot slot hslot

/-- An error of decoding one thing is that of the value itself, or comes from an argument of the
form that the value is. -/
theorem decode_eq_error_cases (hs : s.isSingle = true) (h : v.decode s = .error e) :
    e.layers = [] ∨ v.FailsInside e := by
  -- an option is decoded as the thing that it is an option of
  induction s with
  | option s ih =>
      rw [decode_option] at h
      split at h
      · cases h
      · exact ih hs (map_eq_error_iff.mp h)
  | sequence s => simp [Schema.isSingle] at hs
  | kind k =>
      rw [decode_eq, decodeWith] at h
      exact decodeSlots_eq_error (map_eq_error_iff.mp h)
  | node =>
      rw [decode_eq, decodeWith] at h
      exact decodeNode_eq_error (map_eq_error_iff.mp h)
  | family f =>
      rw [decode_eq, decodeWith] at h
      rcases bind_eq_error_iff.mp h with hnode | ⟨⟨k, ts⟩, -, h⟩
      · exact decodeNode_eq_error hnode
      · -- a node of another family has been decoded whole
        left
        dsimp only at h
        split at h
        · cases h
        · obtain rfl := Except.error.inj h
          rfl
  | flag => exact Or.inl (unlayered_decodeFlag v e (by rwa [decode_eq] at h))
  | character => exact Or.inl (unlayered_decodeCharacter v e (by rwa [decode_eq] at h))
  | index => exact Or.inl (unlayered_decodeIndex v e (by rwa [decode_eq] at h))
  | natural => exact Or.inl (unlayered_decodeNatural v e (by rwa [decode_eq] at h))
  | string => exact Or.inl (unlayered_decodeString v e (by rwa [decode_eq] at h))
  | name => exact Or.inl (unlayered_decodeName v e (by rwa [decode_eq] at h))
  | operator place => exact Or.inl (unlayered_decodeOperator place v e (by rwa [decode_eq] at h))

theorem decodeEach_eq_error {vs : List Value} (h : decodeEach s (argumentsOf vs) = .error e) :
    ∃ u ∈ vs, u.decode s = .error e := by
  induction vs with
  | nil => simp [argumentsOf, decodeEach] at h
  | cons u vs ih =>
      rw [argumentsOf, decodeEach] at h
      rcases bind_eq_error_iff.mp h with hu | ⟨t, -, h⟩
      · exact ⟨u, List.mem_cons_self, hu⟩
      · rcases bind_eq_error_iff.mp h with hvs | ⟨ts, -, h⟩
        · obtain ⟨w, hw, hfails⟩ := ih hvs
          exact ⟨w, List.mem_cons_of_mem _ hw, hfails⟩
        · cases h

/-- An error of decoding a sequence is that of one of its elements, unless the value is no
sequence, which is an error of the value itself. -/
theorem decode_sequence_eq_error (h : v.decode (.sequence s) = .error e) :
    (∃ vs, v = .list (.symbol Symbol.list :: vs) ∧ ∃ u ∈ vs, u.decode s = .error e) ∨
      v.head? ≠ some Symbol.list ∧ e.layers = [] := by
  rw [decode_eq, decodeWith] at h
  split at h
  · next hhead =>
    obtain ⟨vs, rfl⟩ := head?_eq_some_iff.mp hhead
    exact Or.inl ⟨vs, rfl, decodeEach_eq_error (map_eq_error_iff.mp h)⟩
  · next hhead =>
    obtain rfl := Except.error.inj h
    exact Or.inr ⟨hhead, rfl⟩

/-! ## The whole path -/

/-- The layers of an error lead from a value to one that is refused with the innermost error. -/
def LeadsToCause (v : Value) (s : Schema) (e : DecodeError) : Prop :=
  ∃ w t, Leads v s e.layers w t ∧ w.decode t = .error e.innermost

theorem leadsToCause_of_layers_eq_nil (hlayers : e.layers = []) (h : v.decode s = .error e) :
    LeadsToCause v s e := by
  refine ⟨v, s, ?_, ?_⟩
  · rw [hlayers]
    exact .here
  · rw [DecodeError.innermost_of_layers_eq_nil hlayers]
    exact h

/-- The error of one thing leads to its cause, if the errors of the items do. -/
theorem leadsToCause_of_isSingle (hs : s.isSingle = true) (h : v.decode s = .error e)
    (hitems : ∀ u ∈ v.items, ∀ (r : Schema) (cause : DecodeError), r.isPlace = true →
      u.decode r = .error cause → ∃ u' r', Enters u r u' r' ∧ LeadsToCause u' r' cause) :
    LeadsToCause v s e := by
  rcases decode_eq_error_cases hs h with hlayers | ⟨maker, keyword, u, r, cause, harg, hu, rfl⟩
  · exact leadsToCause_of_layers_eq_nil hlayers h
  · obtain ⟨u', r', henters, w, t, hleads, hw⟩ := hitems u harg.mem_items r cause harg.isPlace hu
    exact ⟨w, t, .slot harg henters hleads, hw⟩

/-- From a place where a value does not decode, the layers of the error lead to its cause. -/
theorem exists_enters_leadsToCause (v : Value) :
    ∀ (s : Schema) (e : DecodeError), s.isPlace = true → v.decode s = .error e →
      ∃ u r, Enters v s u r ∧ LeadsToCause u r e := by
  induction v using items_induction with
  | step v ih =>
  intro s e hs h
  by_cases hseq : ∃ r, s = .sequence r
  · obtain ⟨r, rfl⟩ := hseq
    rcases decode_sequence_eq_error h with ⟨vs, rfl, u, hu, hfails⟩ | ⟨hhead, hlayers⟩
    · have hmem : u ∈ (list (.symbol Symbol.list :: vs)).items := List.mem_cons_of_mem _ hu
      obtain ⟨u', r', henters, hcause⟩ := ih u hmem r e (Schema.isPlace_of_isSingle hs) hfails
      -- an element is no sequence, so the path goes on from the element itself
      cases henters with
      | same _ => exact ⟨u, r, .element hu, hcause⟩
      | element _ => simp [Schema.isPlace, Schema.isSingle] at hs
    · exact ⟨v, .sequence r, .same fun _ _ => hhead, leadsToCause_of_layers_eq_nil hlayers h⟩
  · have hsingle : s.isSingle = true := Schema.isSingle_of_isPlace hs fun r hr => hseq ⟨r, hr⟩
    exact ⟨v, s, .same fun r hr => absurd ⟨r, hr⟩ hseq, leadsToCause_of_isSingle hsingle h ih⟩

/-- **The path of an error leads to what is wrong.** The error is its innermost error wrapped in
its layers, whose keywords are its path. From a value that does not decode, the layers lead from
forms to their arguments, and on to elements of sequences, to a value that is refused with the
innermost error in the place where it stands. -/
theorem error_path_leads (s : Schema) (v : Value) (e : DecodeError) (hs : s.isNodeType = true)
    (h : v.decode s = .error e) :
    e = e.layers.foldr (fun layer cause => .inSlot layer.1 layer.2 cause) e.innermost ∧
      e.path = e.layers.map Prod.snd ∧
      (∀ maker keyword cause, e.innermost ≠ .inSlot maker keyword cause) ∧
      ∃ w t, Leads v s e.layers w t ∧ w.decode t = .error e.innermost ∧
        (t = .name → w.RefusedAsName e.innermost) := by
  refine ⟨e.eq_foldr_layers, e.path_eq_map_layers, e.innermost_ne_inSlot, ?_⟩
  obtain ⟨u, r, henters, w, t, hleads, hw⟩ :=
    exists_enters_leadsToCause v s e (Schema.isPlace_of_isNodeType hs) h
  have hname : t = .name → w.RefusedAsName e.innermost := by
    rintro rfl
    exact refusedAsName_of_decode hw
  cases henters with
  | same _ => exact ⟨w, t, hleads, hw, hname⟩
  | element _ => simp [Schema.isNodeType] at hs

/-- A form of two variables, of which the second has a name that starts with a digit. -/
def misnamedVariables : Value :=
  .form "MAKE-EXPRESSION-MULTI" [("ARGUMENTS", .list [.symbol Symbol.list,
    .form "MAKE-EXPRESSION-VARIABLE"
      [("NAME", .form "MAKE-IDENTIFIER" [("NAME", .string "nine")])],
    .form "MAKE-EXPRESSION-VARIABLE"
      [("NAME", .form "MAKE-IDENTIFIER" [("NAME", .string "9lives")])]])]

theorem error_path_leads_misnamedVariables :
    ∃ e : DecodeError, (Schema.family .expression).isNodeType = true ∧
      misnamedVariables.decode (.family .expression) = .error e ∧
      e.path = ["ARGUMENTS", "NAME", "NAME"] ∧
      ∃ w t, Leads misnamedVariables (.family .expression)
        [("MAKE-EXPRESSION-MULTI", "ARGUMENTS"), ("MAKE-EXPRESSION-VARIABLE", "NAME"),
          ("MAKE-IDENTIFIER", "NAME")] w t ∧
        w.decode t = .error (.bounds "identifier" (.notIdentifier "9lives")) := by
  let e : DecodeError :=
    .inSlot "MAKE-EXPRESSION-MULTI" "ARGUMENTS" (.inSlot "MAKE-EXPRESSION-VARIABLE" "NAME"
      (.inSlot "MAKE-IDENTIFIER" "NAME" (.bounds "identifier" (.notIdentifier "9lives"))))
  have h : misnamedVariables.decode (.family .expression) = .error e := by rfl
  obtain ⟨-, hpath, -, w, t, hleads, hw, -⟩ :=
    error_path_leads (.family .expression) misnamedVariables e rfl h
  exact ⟨e, rfl, h, hpath, w, t, hleads, hw⟩

end Value

end MakerForms
