import MakerForms.Proofs.Node.FormOutcome

set_option autoImplicit false

/-! # What comes of a value in a place for a family

In a place for a family a value is built by the decoder that its head has in the registry, and only
then is it asked whether what has been built belongs to the family. So three things can happen
(`Registry.decode_family_cases`): the value cannot be built, and the error is that of building it;
it is built as a member of the family; or it is built as something else.

Building fails in three ways (`Registry.build_error_cases`). In the third the form is one of a
registered maker and is faulty itself: its error names that maker or is wrapped in a slot, so it is
never taken for a mismatch, for an unknown maker or for a value that is no form.
-/

namespace MakerForms

/-- No maker is called as what is said to be expected in place of any node. -/
theorem Kind.maker_ne_node (k : Kind) : k.maker ≠ "node" := by
  cases k <;> decide +kernel

namespace Registry

variable {f : Family} {v : Value} {e : DecodeError}

/-! ## Building -/

/-- The ways in which building fails. -/
theorem build_error_cases (h : full.build v = .error e) :
    (v.head? = none ∧ e = .shape "node" (.notForm v)) ∨
    (∃ head, v.head? = some head ∧ full.contains head = false ∧ e = .unknownMaker head) ∨
    ∃ k : Kind, v.head? = some (Symbol.maker k.maker) ∧ v.decode (.kind k) = .error e ∧
      ((∃ fault, e = .shape k.maker fault) ∨
        ∃ maker keyword cause, e = .inSlot maker keyword cause) := by
  cases hhead : v.head? with
  | none =>
      rw [build, hhead] at h
      exact Or.inl ⟨rfl, (Except.error.inj h).symm⟩
  | some head =>
      right
      cases hkind : Kind.ofSymbol? head with
      | none =>
          have hunknown : full.contains head = false := by
            rw [contains_full_eq, hkind]
            rfl
          have hfound : full.decoder? head = none := by rw [decoder?_full, hkind, Option.map_none]
          rw [build, hhead] at h
          simp only [hfound] at h
          exact Or.inl ⟨head, rfl, hunknown, (Except.error.inj h).symm⟩
      | some k =>
          right
          obtain rfl := Kind.ofSymbol?_eq_some_iff.mp hkind
          rw [build_of_head hhead, map_eq_error_iff] at h
          refine ⟨k, rfl, h, ?_⟩
          rw [decode_kind_eq_readForm, map_eq_error_iff, readForm_eq_iff] at h
          -- the head is the maker of the kind, so only the arguments can be at fault
          cases h with
          | notForm hv =>
              obtain ⟨args, hargs⟩ := Value.head?_eq_some_iff.mp hhead
              exact absurd hargs (hv _ _)
          | mismatch hmaker _ | unknown hmaker _ =>
              exact absurd (Option.some.inj hhead) hmaker
          | count _ => exact Or.inl ⟨_, rfl⟩
          | fault _ hfault =>
              cases hfault.fails with
              | keyword _ _ _ => exact Or.inl ⟨_, rfl⟩
              | value _ _ _ _ => exact Or.inr ⟨_, _, _, rfl⟩

/-! ## Places for families -/

/-- What comes of a value in a place for a family. -/
theorem decode_family_cases (f : Family) (v : Value) :
    (∃ e, full.build v = .error e ∧ v.decode (.family f) = .error e) ∨
    (∃ n, full.build v = .ok n ∧ n.place = .family f ∧ v.decode (.family f) = .ok n.tree) ∨
    ∃ n head, full.build v = .ok n ∧ n.place ≠ .family f ∧ v.head? = some head ∧
      v.decode (.family f) = .error (.typeMismatch f.name head) := by
  have hbuild := build_eq_decodeNode v
  rw [Value.decode_eq, decodeWith]
  cases hnode : decodeNode v v.arguments with
  | error e =>
      rw [hnode] at hbuild
      exact Or.inl ⟨e, hbuild, rfl⟩
  | ok node =>
      right
      obtain ⟨k, slots⟩ := node
      rw [hnode] at hbuild
      have hbuilt : full.build v = .ok ⟨k.placeSchema, .form k slots⟩ := hbuild
      obtain ⟨args, hargs, rfl⟩ := decodeSlots_eq_ok_iff.mp (decodeNode_eq_ok_iff.mp hnode)
      by_cases hfamily : k.family? = some f
      · left
        refine ⟨_, hbuilt, Kind.placeSchema_eq_family_iff.mpr hfamily, ?_⟩
        show (if k.family? = some f then pure (Tree.form k slots) else throw _) = _
        rw [if_pos hfamily]
        rfl
      · right
        have hplace : k.placeSchema ≠ .family f := by
          intro hsame
          exact hfamily (Kind.placeSchema_eq_family_iff.mp hsame)
        refine ⟨_, Symbol.maker k.maker, hbuilt, hplace, rfl, ?_⟩
        show (if k.family? = some f then pure (Tree.form k slots) else throw _) = _
        rw [if_neg hfamily]
        rfl

/-- What cannot be built is refused for the same reason. -/
theorem decode_family_of_build_error (h : full.build v = .error e) :
    v.decode (.family f) = .error e := by
  rcases decode_family_cases f v with ⟨e', hbuild, hdecode⟩ | ⟨n, hbuild, -⟩ | ⟨n, head, hbuild, -⟩
  · obtain rfl := Except.error.inj (h.symm.trans hbuild)
    exact hdecode
  · cases h.symm.trans hbuild
  · cases h.symm.trans hbuild

/-- What is refused cannot be built, or has been built for another place. -/
theorem build_error_or_mismatch (h : v.decode (.family f) = .error e) :
    full.build v = .error e ∨
      ∃ n head, full.build v = .ok n ∧ n.place ≠ .family f ∧ v.head? = some head ∧
        e = .typeMismatch f.name head := by
  rcases decode_family_cases f v with ⟨e', hbuild, hdecode⟩ | ⟨n, -, -, hdecode⟩ |
    ⟨n, head, hbuild, hplace, hhead, hdecode⟩
  · obtain rfl := Except.error.inj (h.symm.trans hdecode)
    exact Or.inl hbuild
  · cases h.symm.trans hdecode
  · exact Or.inr ⟨n, head, hbuild, hplace, hhead, Except.error.inj (h.symm.trans hdecode)⟩

/-- Building never reports a mismatch that lies in no slot. -/
theorem build_ne_typeMismatch (expected : String) (found : Symbol) :
    full.build v ≠ .error (.typeMismatch expected found) := by
  intro h
  rcases build_error_cases h with ⟨-, he⟩ | ⟨_, -, -, he⟩ | ⟨_, -, -, ⟨_, he⟩ | ⟨_, _, _, he⟩⟩
  all_goals cases he

theorem build_eq_unknownMaker_iff {head : Symbol} :
    full.build v = .error (.unknownMaker head) ↔
      v.head? = some head ∧ full.contains head = false := by
  constructor
  · intro h
    rcases build_error_cases h with ⟨-, he⟩ | ⟨head', hhead, hunknown, he⟩ |
      ⟨_, -, -, ⟨_, he⟩ | ⟨_, _, _, he⟩⟩
    · cases he
    · obtain rfl := DecodeError.unknownMaker.inj he
      exact ⟨hhead, hunknown⟩
    · cases he
    · cases he
  · rintro ⟨hhead, hunknown⟩
    have hfound : full.decoder? head = none := by
      rw [contains, Option.isSome_eq_false_iff, Option.isNone_iff_eq_none] at hunknown
      exact hunknown
    rw [build, hhead]
    simp only [hfound]

theorem exists_build_eq_node_iff :
    (∃ fault, full.build v = .error (.shape "node" fault)) ↔ v.head? = none := by
  constructor
  · rintro ⟨fault, h⟩
    rcases build_error_cases h with ⟨hhead, -⟩ | ⟨_, -, -, he⟩ |
      ⟨k, -, -, ⟨_, he⟩ | ⟨_, _, _, he⟩⟩
    · exact hhead
    · cases he
    · exact absurd (DecodeError.shape.inj he).1.symm k.maker_ne_node
    · cases he
  · intro hhead
    exact ⟨.notForm v, by rw [build, hhead]⟩

theorem contains_full_operator (o : Operator) : full.contains (Symbol.maker o.maker) = false := by
  rw [Bool.eq_false_iff]
  intro hcontains
  obtain ⟨k, -, hk⟩ := List.mem_map.mp (contains_full_iff.mp hcontains)
  have hmaker : k.maker = o.maker := congrArg Symbol.name hk
  exact o.maker_ne_kind k hmaker.symm

/-- An error that is no mismatch is that of building. -/
theorem decode_family_eq_error_iff_build
    (he : ∀ expected found, e ≠ .typeMismatch expected found) :
    v.decode (.family f) = .error e ↔ full.build v = .error e := by
  constructor
  · intro h
    rcases build_error_or_mismatch h with hbuild | ⟨_, head, -, -, -, hmismatch⟩
    · exact hbuild
    · exact absurd hmismatch (he f.name head)
  · exact decode_family_of_build_error

/-- Behind a mismatch, something else has been built. -/
theorem exists_build_of_mismatch {expected : String} {found : Symbol}
    (h : v.decode (.family f) = .error (.typeMismatch expected found)) :
    ∃ n, full.build v = .ok n ∧ n.place ≠ .family f ∧ v.head? = some found ∧ expected = f.name := by
  rcases build_error_or_mismatch h with hbuild | ⟨n, head, hbuild, hplace, hhead, hsame⟩
  · exact absurd hbuild (build_ne_typeMismatch expected found)
  · obtain ⟨rfl, rfl⟩ := DecodeError.typeMismatch.inj hsame
    exact ⟨n, hbuild, hplace, hhead, rfl⟩

/-- What is built for another place is a mismatch. -/
theorem exists_mismatch_of_build {n : Wrapped} (hbuild : full.build v = .ok n)
    (hplace : n.place ≠ .family f) :
    ∃ expected found, v.decode (.family f) = .error (.typeMismatch expected found) := by
  rcases decode_family_cases f v with ⟨e, hfails, -⟩ | ⟨n', hbuild', hplace', -⟩ |
    ⟨_, head, -, -, -, h⟩
  · cases hbuild.symm.trans hfails
  · obtain rfl := Except.ok.inj (hbuild.symm.trans hbuild')
    exact absurd hplace' hplace
  · exact ⟨f.name, head, h⟩

/-- A value is no form of a node exactly if nothing stands at its head. -/
theorem exists_decode_family_eq_node_iff :
    (∃ fault, v.decode (.family f) = .error (.shape "node" fault)) ↔
      ¬ ∃ head args, v = .list (.symbol head :: args) := by
  have hnode : ∀ fault, v.decode (.family f) = .error (.shape "node" fault) ↔
      full.build v = .error (.shape "node" fault) :=
    fun _ => decode_family_eq_error_iff_build (by simp)
  simp only [hnode]
  rw [exists_build_eq_node_iff, Option.eq_none_iff_forall_ne_some]
  simp only [ne_eq, Value.head?_eq_some_iff, not_exists]

/-- **What comes of a value in a place for a family.** It decodes exactly if a member of the family
is built from it, as that member. It is a mismatch exactly if something else is built from it, and
then the family was expected and the head of the value was found. Its head is an unknown maker
exactly if it is not registered, like those of operators; it is no form of a node exactly if it is
no list that is headed by a symbol. All errors but mismatches are those of building it. In
particular a faulty form of a registered maker, of this family or not, is refused with its own
fault. -/
theorem decode_family_outcome (f : Family) (v : Value) :
    (∀ t : Tree, v.decode (.family f) = .ok t ↔ full.build v = .ok ⟨.family f, t⟩) ∧
    ((∃ expected found, v.decode (.family f) = .error (.typeMismatch expected found)) ↔
      ∃ n, full.build v = .ok n ∧ n.place ≠ .family f) ∧
    (∀ expected found, v.decode (.family f) = .error (.typeMismatch expected found) →
      expected = f.name ∧ ∃ args, v = .list (.symbol found :: args)) ∧
    (∀ head : Symbol, v.decode (.family f) = .error (.unknownMaker head) ↔
      (∃ args, v = .list (.symbol head :: args)) ∧ full.contains head = false) ∧
    (∀ o : Operator, full.contains (Symbol.maker o.maker) = false) ∧
    ((∃ fault, v.decode (.family f) = .error (.shape "node" fault)) ↔
      ¬ ∃ head args, v = .list (.symbol head :: args)) ∧
    (∀ e : DecodeError, (∀ expected found, e ≠ .typeMismatch expected found) →
      (v.decode (.family f) = .error e ↔ full.build v = .error e)) ∧
    (∀ (k : Kind) (e : DecodeError), v.head? = some (Symbol.maker k.maker) →
      v.decode (.kind k) = .error e →
      v.decode (.family f) = .error e ∧ ∀ expected found, e ≠ .typeMismatch expected found) := by
  refine ⟨fun t => decode_family_eq_ok_iff_build, ?_, ?_, ?_, contains_full_operator,
    exists_decode_family_eq_node_iff, fun e => decode_family_eq_error_iff_build, ?_⟩
  · constructor
    · rintro ⟨expected, found, h⟩
      obtain ⟨n, hbuild, hplace, -⟩ := exists_build_of_mismatch h
      exact ⟨n, hbuild, hplace⟩
    · rintro ⟨n, hbuild, hplace⟩
      exact exists_mismatch_of_build hbuild hplace
  · intro expected found h
    obtain ⟨n, -, -, hhead, hexpected⟩ := exists_build_of_mismatch h
    exact ⟨hexpected, Value.head?_eq_some_iff.mp hhead⟩
  · intro head
    rw [decode_family_eq_error_iff_build (by simp), build_eq_unknownMaker_iff,
      Value.head?_eq_some_iff]
  · intro k e hhead hkind
    have hbuild : full.build v = .error e := by
      rw [build_of_head hhead, hkind]
      rfl
    refine ⟨decode_family_of_build_error hbuild, ?_⟩
    rintro expected found rfl
    exact build_ne_typeMismatch expected found hbuild

theorem decode_family_outcome_bareVariable :
    (∃ n : Wrapped, full.build optionForm = .ok n ∧ n.place ≠ .family .expression ∧
      ∃ expected found,
        optionForm.decode (.family .expression) = .error (.typeMismatch expected found) ∧
        expected = Family.expression.name ∧ ∃ args, optionForm = .list (.symbol found :: args)) ∧
    ∃ e : DecodeError, bareVariable.head? = some (Symbol.maker Kind.expressionVariable.maker) ∧
      bareVariable.decode (.kind .expressionVariable) = .error e ∧
      bareVariable.decode (.family .type) = .error e ∧
      ∀ expected found, e ≠ .typeMismatch expected found := by
  obtain ⟨-, hmismatch, hnames, -⟩ := decode_family_outcome .expression optionForm
  obtain ⟨-, -, -, -, -, -, -, hfault⟩ := decode_family_outcome .type bareVariable
  have hoption : full.build optionForm
      = .ok ⟨.family .type, .form .typeOption [.form .typeInteger []]⟩ := by rfl
  have hplace : Schema.family .type ≠ .family .expression := by
    intro h
    cases h
  obtain ⟨expected, found, hrefused⟩ := hmismatch.mpr ⟨_, hoption, hplace⟩
  let e : DecodeError :=
    .inSlot "MAKE-EXPRESSION-VARIABLE" "NAME" (.shape "MAKE-IDENTIFIER" (.notForm (.string "x")))
  have hvariable : bareVariable.decode (.kind .expressionVariable) = .error e := by rfl
  exact ⟨⟨_, hoption, hplace, expected, found, hrefused, hnames _ _ hrefused⟩,
    e, rfl, hvariable, hfault .expressionVariable e rfl hvariable⟩

end Registry

end MakerForms
