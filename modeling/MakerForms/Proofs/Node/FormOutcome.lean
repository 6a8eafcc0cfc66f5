import MakerForms.Proofs.Node.Registry

set_option autoImplicit false

/-! # The first fault of a form decides

A value that is to be read as a form can have many faults at once: a foreign head, a wrong number of
arguments, wrong keywords, values that do not decode. Reading it as a whole (`readForm`) reports the
first of them in a fixed order, which `FormOutcome` lists without going through the arguments one
after another: the head, the number of arguments, and then the first pair of arguments that is not
the keyword of its slot with a value that decodes there (`FirstFault`).

By induction over the slots, some pair is at fault or all of them are read
(`slots_read_or_firstFault`); there is only one first fault (`FirstFault.unique`). So the list is
complete and free of overlap, and says exactly what is read (`readForm_eq_iff`).
-/

namespace MakerForms

/-! ## Pairs of arguments -/

section Pairs

variable {maker : String} {slots : List Slot} {args : List Value} {i : Nat} {s : Slot}
  {key u : Value} {t t' : Tree} {e e' : DecodeError}

/-- Whether the pair of arguments in place `i` is read as `t`: it is the keyword of the slot in that
place and a value that decodes there. -/
inductive SlotReads (slots : List Slot) (args : List Value) (i : Nat) (t : Tree) : Prop
  | intro {s : Slot} {u : Value} : slots[i]? = some s →
      args[2 * i]? = some (.symbol (Symbol.keyword s.keyword)) → args[2 * i + 1]? = some u →
      u.decode s.schema = .ok t → SlotReads slots args i t

/-- Whether the pair of arguments in place `i` is at fault with `e`. A wrong keyword counts before a
value that does not decode, and only the error of a value is wrapped in a layer of the slot. -/
inductive SlotFails (maker : String) (slots : List Slot) (args : List Value) (i : Nat) :
    DecodeError → Prop
  | keyword {s : Slot} {key : Value} : slots[i]? = some s → args[2 * i]? = some key →
      key ≠ .symbol (Symbol.keyword s.keyword) →
      SlotFails maker slots args i (.shape maker (.wrongKeyword s.keyword key))
  | value {s : Slot} {u : Value} {cause : DecodeError} : slots[i]? = some s →
      args[2 * i]? = some (.symbol (Symbol.keyword s.keyword)) → args[2 * i + 1]? = some u →
      u.decode s.schema = .error cause →
      SlotFails maker slots args i (.inSlot maker s.keyword cause)

/-- Whether the pair in place `i` is the first that is not read, and is at fault with `e`. -/
structure FirstFault (maker : String) (slots : List Slot) (args : List Value) (i : Nat)
    (e : DecodeError) : Prop where
  fails : SlotFails maker slots args i e
  reads_before : ∀ j, j < i → ∃ t, SlotReads slots args j t

theorem SlotReads.unique (h : SlotReads slots args i t) (h' : SlotReads slots args i t') :
    t = t' := by
  obtain ⟨hs, -, hu, ht⟩ := h
  obtain ⟨hs', -, hu', ht'⟩ := h'
  obtain rfl := Option.some.inj (hs.symm.trans hs')
  obtain rfl := Option.some.inj (hu.symm.trans hu')
  exact Except.ok.inj (ht.symm.trans ht')

theorem SlotFails.not_reads (h : SlotFails maker slots args i e) : ¬ SlotReads slots args i t := by
  rintro ⟨hs, hkey, hu, ht⟩
  cases h with
  | keyword hs' hkey' hne =>
      obtain rfl := Option.some.inj (hs.symm.trans hs')
      have hsame := Option.some.inj (hkey.symm.trans hkey')
      exact hne hsame.symm
  | value hs' _ hu' hcause =>
      obtain rfl := Option.some.inj (hs.symm.trans hs')
      obtain rfl := Option.some.inj (hu.symm.trans hu')
      cases ht.symm.trans hcause

theorem SlotFails.unique (h : SlotFails maker slots args i e)
    (h' : SlotFails maker slots args i e') : e = e' := by
  cases h with
  | keyword hs hkey hne =>
      cases h' with
      | keyword hs' hkey' _ =>
          obtain rfl := Option.some.inj (hs.symm.trans hs')
          obtain rfl := Option.some.inj (hkey.symm.trans hkey')
          rfl
      | value hs' hkey' _ _ =>
          obtain rfl := Option.some.inj (hs.symm.trans hs')
          exact absurd (Option.some.inj (hkey.symm.trans hkey')) hne
  | value hs hkey hu hcause =>
      cases h' with
      | keyword hs' hkey' hne =>
          obtain rfl := Option.some.inj (hs.symm.trans hs')
          exact absurd (Option.some.inj (hkey'.symm.trans hkey)) hne
      | value hs' _ hu' hcause' =>
          obtain rfl := Option.some.inj (hs.symm.trans hs')
          obtain rfl := Option.some.inj (hu.symm.trans hu')
          have hsame := Except.error.inj (hcause.symm.trans hcause')
          rw [hsame]

/-- There is only one first fault. -/
theorem FirstFault.unique {j : Nat} (h : FirstFault maker slots args i e)
    (h' : FirstFault maker slots args j e') : i = j ∧ e = e' := by
  rcases Nat.lt_trichotomy i j with hlt | rfl | hlt
  · obtain ⟨t, ht⟩ := h'.reads_before i hlt
    exact absurd ht h.fails.not_reads
  · exact ⟨rfl, h.fails.unique h'.fails⟩
  · obtain ⟨t, ht⟩ := h.reads_before j hlt
    exact absurd ht h'.fails.not_reads

/-! ## Arguments behind a pair -/

theorem slotReads_cons_iff :
    SlotReads (s :: slots) (key :: u :: args) (i + 1) t ↔ SlotReads slots args i t := by
  constructor
  · rintro ⟨hs, hkey, hu, ht⟩
    exact ⟨hs, hkey, hu, ht⟩
  · rintro ⟨hs, hkey, hu, ht⟩
    exact ⟨hs, hkey, hu, ht⟩

theorem SlotFails.cons (h : SlotFails maker slots args i e) :
    SlotFails maker (s :: slots) (key :: u :: args) (i + 1) e := by
  cases h with
  | keyword hs hkey hne => exact .keyword hs hkey hne
  | value hs hkey hu hcause => exact .value hs hkey hu hcause

/-- A fault behind a pair that is read is the first if it is the first behind the pair. -/
theorem FirstFault.cons (hread : ∃ t, SlotReads (s :: slots) (key :: u :: args) 0 t)
    (h : FirstFault maker slots args i e) :
    FirstFault maker (s :: slots) (key :: u :: args) (i + 1) e := by
  refine ⟨h.fails.cons, fun j hj => ?_⟩
  cases j with
  | zero => exact hread
  | succ j =>
      obtain ⟨t, ht⟩ := h.reads_before j (by omega)
      exact ⟨t, slotReads_cons_iff.mpr ht⟩

/-- Where nothing stands before it, a fault is the first. -/
theorem SlotFails.first (h : SlotFails maker slots args 0 e) : FirstFault maker slots args 0 e :=
  ⟨h, fun j hj => absurd hj (Nat.not_lt_zero j)⟩

end Pairs

/-! ## Reading slots -/

/-- Whether certain trees are read from all pairs of arguments, one for each slot. -/
structure AllRead (slots : List Slot) (args : List Value) (ts : List Tree) : Prop where
  length_eq : ts.length = slots.length
  reads : ∀ i t, ts[i]? = some t → SlotReads slots args i t

section Reading

variable {slots : List Slot} {args : List Value}

theorem AllRead.cons {s : Slot} {key u : Value} {t : Tree} {ts : List Tree}
    (hread : SlotReads (s :: slots) (key :: u :: args) 0 t) (h : AllRead slots args ts) :
    AllRead (s :: slots) (key :: u :: args) (t :: ts) := by
  refine ⟨by rw [List.length_cons, List.length_cons, h.length_eq], fun i t' ht' => ?_⟩
  cases i with
  | zero =>
      obtain rfl : t = t' := Option.some.inj ht'
      exact hread
  | succ i => exact slotReads_cons_iff.mpr (h.reads i t' ht')

theorem AllRead.unique {ts ts' : List Tree} (h : AllRead slots args ts)
    (h' : AllRead slots args ts') : ts = ts' := by
  have hlength : ts.length = ts'.length := h.length_eq.trans h'.length_eq.symm
  refine List.ext_getElem hlength fun i hi hi' => ?_
  exact (h.reads i _ (List.getElem?_eq_getElem hi)).unique
    (h'.reads i _ (List.getElem?_eq_getElem hi'))

/-- Where all pairs are read, none is at fault. -/
theorem AllRead.not_firstFault {maker : String} {ts : List Tree} {i : Nat} {e : DecodeError}
    (h : AllRead slots args ts) : ¬ FirstFault maker slots args i e := by
  intro hfault
  have hi : i < slots.length := by
    cases hfault.fails with
    | keyword hs _ _ => exact (List.getElem?_eq_some_iff.mp hs).1
    | value hs _ _ _ => exact (List.getElem?_eq_some_iff.mp hs).1
  have hts : i < ts.length := by
    rw [h.length_eq]
    exact hi
  exact hfault.fails.not_reads (h.reads i _ (List.getElem?_eq_getElem hts))

/-- Slots are read from all pairs of arguments, or reading them reports the first fault. -/
theorem slots_read_or_firstFault (maker : String) (hlength : args.length = slots.length * 2) :
    (∃ ts, (⟨maker, argumentsOf args⟩ : Form).slots slots = .ok (ts, ⟨maker, []⟩) ∧
      AllRead slots args ts) ∨
    ∃ i e, (⟨maker, argumentsOf args⟩ : Form).slots slots = .error e ∧
      FirstFault maker slots args i e := by
  -- one slot takes one pair, so the induction on the slots goes through the arguments in pairs
  induction slots generalizing args with
  | nil =>
      obtain rfl : args = [] := List.length_eq_zero_iff.mp hlength
      exact Or.inl ⟨[], rfl, rfl, by simp⟩
  | cons s slots ih =>
      match args, hlength with
      | [], hlength | [_], hlength =>
        simp only [List.length_cons, List.length_nil] at hlength
        omega
      | key :: u :: args, hlength =>
        have hrest : args.length = slots.length * 2 := by
          simp only [List.length_cons] at hlength
          omega
        simp only [Form.slots, Form.slot, argumentsOf]
        by_cases hkey : key = .symbol (Symbol.keyword s.keyword)
        · rw [if_pos hkey]
          have hkey' : (key :: u :: args)[2 * 0]?
              = some (.symbol (Symbol.keyword s.keyword)) := by
            rw [← hkey]
            rfl
          cases hu : u.decode s.schema with
          | error cause =>
              have hfails : SlotFails maker (s :: slots) (key :: u :: args) 0
                  (.inSlot maker s.keyword cause) := .value rfl hkey' rfl hu
              exact Or.inr ⟨0, _, rfl, hfails.first⟩
          | ok t =>
              have hread : SlotReads (s :: slots) (key :: u :: args) 0 t :=
                .intro rfl hkey' rfl hu
              rcases ih hrest with ⟨ts, hslots, hall⟩ | ⟨i, e, hslots, hfault⟩
              · exact Or.inl ⟨t :: ts, by simp [Except.mapError, hslots], hall.cons hread⟩
              · exact Or.inr ⟨i + 1, e, by simp [Except.mapError, hslots],
                  hfault.cons ⟨t, hread⟩⟩
        · rw [if_neg hkey]
          have hfails : SlotFails maker (s :: slots) (key :: u :: args) 0
              (.shape maker (.wrongKeyword s.keyword key)) := .keyword rfl rfl hkey
          exact Or.inr ⟨0, _, rfl, hfails.first⟩

end Reading

/-! ## Reading a whole form -/

/-- Reads a value as a form of a maker with certain slots and nothing more. -/
def readForm (maker : String) (slots : List Slot) (v : Value) :
    Except DecodeError (List Tree) := do
  let form ← Form.start v v.arguments maker slots.length
  let (ts, form) ← form.slots slots
  form.finish
  return ts

/-- What reading a value as a form comes to. Of these cases the first that applies decides. -/
inductive FormOutcome (maker : String) (slots : List Slot) :
    Value → Except DecodeError (List Tree) → Prop
  /-- The value is no list that is headed by a symbol. -/
  | notForm {v : Value} : (∀ head args, v ≠ .list (.symbol head :: args)) →
      FormOutcome maker slots v (.error (.shape maker (.notForm v)))
  /-- The head is another registered maker. -/
  | mismatch {head : Symbol} {args : List Value} : head ≠ Symbol.maker maker →
      Registry.full.contains head = true →
      FormOutcome maker slots (.list (.symbol head :: args)) (.error (.typeMismatch maker head))
  /-- The head is not registered. -/
  | unknown {head : Symbol} {args : List Value} : head ≠ Symbol.maker maker →
      Registry.full.contains head = false →
      FormOutcome maker slots (.list (.symbol head :: args)) (.error (.unknownMaker head))
  /-- The number of arguments is not twice that of the slots. -/
  | count {args : List Value} : args.length ≠ 2 * slots.length →
      FormOutcome maker slots (.list (.symbol (Symbol.maker maker) :: args))
        (.error (.shape maker (.argumentCount slots.length args.length)))
  /-- A pair of arguments is at fault. -/
  | fault {args : List Value} {i : Nat} {e : DecodeError} : args.length = 2 * slots.length →
      FirstFault maker slots args i e →
      FormOutcome maker slots (.list (.symbol (Symbol.maker maker) :: args)) (.error e)
  /-- All pairs are read. -/
  | read {args : List Value} {ts : List Tree} : args.length = 2 * slots.length →
      AllRead slots args ts →
      FormOutcome maker slots (.list (.symbol (Symbol.maker maker) :: args)) (.ok ts)

namespace Registry

theorem contains_full_eq (s : Symbol) : full.contains s = (Kind.ofSymbol? s).isSome := by
  rw [contains, decoder?_full, Option.isSome_map]

end Registry

section Forms

variable {maker : String} {slots : List Slot} {v : Value}

theorem readForm_of_head?_none (h : v.head? = none) :
    readForm maker slots v = .error (.shape maker (.notForm v)) := by
  rw [readForm, Form.start, h]
  rfl

theorem readForm_of_foreign {head : Symbol} {args : List Value} (h : head ≠ Symbol.maker maker) :
    readForm maker slots (.list (.symbol head :: args)) = .error (.wrongHead head maker) := by
  rw [readForm, Form.start_of_foreign h]
  rfl

theorem readForm_of_count {args : List Value} (h : args.length ≠ 2 * slots.length) :
    readForm maker slots (.list (.symbol (Symbol.maker maker) :: args))
      = .error (.shape maker (.argumentCount slots.length args.length)) := by
  have hne : args.length ≠ slots.length * 2 := by omega
  rw [readForm, Form.start_of_count hne]
  rfl

/-- A form with the right number of arguments is read slot by slot. -/
theorem readForm_eq_slots {args : List Value} (h : args.length = 2 * slots.length) :
    readForm maker slots (.list (.symbol (Symbol.maker maker) :: args))
      = (do
        let (ts, form) ← (⟨maker, argumentsOf args⟩ : Form).slots slots
        form.finish
        return ts) := by
  have hstart : Form.start (.list (.symbol (Symbol.maker maker) :: args))
      (Value.list (.symbol (Symbol.maker maker) :: args)).arguments maker slots.length
      = .ok ⟨maker, argumentsOf args⟩ :=
    Form.start_eq_ok_iff.mpr ⟨args, rfl, by omega, rfl⟩
  rw [readForm, hstart]
  rfl

/-- What is read is an outcome. -/
theorem formOutcome_readForm (maker : String) (slots : List Slot) (v : Value) :
    FormOutcome maker slots v (readForm maker slots v) := by
  cases hhead : v.head? with
  | none =>
      rw [readForm_of_head?_none hhead]
      refine .notForm fun head args hv => ?_
      rw [hv] at hhead
      cases hhead
  | some head =>
      obtain ⟨args, rfl⟩ := Value.head?_eq_some_iff.mp hhead
      by_cases hmaker : head = Symbol.maker maker
      · subst hmaker
        by_cases hcount : args.length = 2 * slots.length
        · have hlength : args.length = slots.length * 2 := by omega
          rw [readForm_eq_slots hcount]
          rcases slots_read_or_firstFault maker hlength with
            ⟨ts, hslots, hall⟩ | ⟨i, e, hslots, hfault⟩
          · rw [hslots]
            exact .read hcount hall
          · rw [hslots]
            exact .fault hcount hfault
        · rw [readForm_of_count hcount]
          exact .count hcount
      · rw [readForm_of_foreign hmaker, DecodeError.wrongHead, ← Registry.contains_full_eq]
        by_cases hregistered : Registry.full.contains head = true
        · rw [if_pos hregistered]
          exact .mismatch hmaker hregistered
        · rw [if_neg hregistered]
          exact .unknown hmaker (by simpa using hregistered)

/-- There is only one outcome. -/
theorem FormOutcome.unique {o o' : Except DecodeError (List Tree)}
    (h : FormOutcome maker slots v o) (h' : FormOutcome maker slots v o') : o = o' := by
  cases h with
  | notForm hv =>
      cases h' with
      | notForm _ => rfl
      | mismatch _ _ | unknown _ _ | count _ | fault _ _ | read _ _ => exact absurd rfl (hv _ _)
  | mismatch hmaker hregistered =>
      cases h' with
      | notForm hv => exact absurd rfl (hv _ _)
      | mismatch _ _ => rfl
      | unknown _ hunknown => cases hregistered.symm.trans hunknown
      | count _ | fault _ _ | read _ _ => exact absurd rfl hmaker
  | unknown hmaker hunknown =>
      cases h' with
      | notForm hv => exact absurd rfl (hv _ _)
      | mismatch _ hregistered => cases hregistered.symm.trans hunknown
      | unknown _ _ => rfl
      | count _ | fault _ _ | read _ _ => exact absurd rfl hmaker
  | count hcount =>
      cases h' with
      | notForm hv => exact absurd rfl (hv _ _)
      | mismatch hmaker _ | unknown hmaker _ => exact absurd rfl hmaker
      | count _ => rfl
      | fault hcount' _ | read hcount' _ => exact absurd hcount' hcount
  | fault hcount hfault =>
      cases h' with
      | notForm hv => exact absurd rfl (hv _ _)
      | mismatch hmaker _ | unknown hmaker _ => exact absurd rfl hmaker
      | count hcount' => exact absurd hcount hcount'
      | fault _ hfault' => rw [(hfault.unique hfault').2]
      | read _ hall => exact absurd hfault hall.not_firstFault
  | read hcount hall =>
      cases h' with
      | notForm hv => exact absurd rfl (hv _ _)
      | mismatch hmaker _ | unknown hmaker _ => exact absurd rfl hmaker
      | count hcount' => exact absurd hcount hcount'
      | fault _ hfault => exact absurd hfault hall.not_firstFault
      | read _ hall' => rw [hall.unique hall']

/-- A value is read as its outcome. -/
theorem readForm_eq_iff {o : Except DecodeError (List Tree)} :
    readForm maker slots v = o ↔ FormOutcome maker slots v o := by
  have hread := formOutcome_readForm maker slots v
  constructor
  · rintro rfl
    exact hread
  · intro h
    exact hread.unique h

/-- A node of a kind is read as a form of the maker of the kind. -/
theorem decode_kind_eq_readForm (k : Kind) (v : Value) :
    v.decode (.kind k) = (readForm k.maker k.slots v).map (Tree.form k) := by
  rw [Value.decode_eq, decodeWith]
  rfl

end Forms

/-! ## What stands behind the first fault -/

section Prefix

variable {maker : String} {slots : List Slot} {args args' : List Value} {i : Nat}

/-- Arguments that agree up to a place agree in each place before it. -/
theorem getElem?_of_take_eq {n j : Nat} (h : args'.take n = args.take n) (hj : j < n) :
    args'[j]? = args[j]? := by
  rw [← List.getElem?_take_of_lt hj, h, List.getElem?_take_of_lt hj]

theorem SlotReads.of_take {t : Tree} (h : SlotReads slots args i t)
    (htake : args'.take (2 * i + 2) = args.take (2 * i + 2)) : SlotReads slots args' i t := by
  obtain ⟨hs, hkey, hu, ht⟩ := h
  rw [← getElem?_of_take_eq htake (by omega)] at hkey hu
  exact ⟨hs, hkey, hu, ht⟩

theorem SlotFails.of_take {e : DecodeError} (h : SlotFails maker slots args i e)
    (htake : args'.take (2 * i + 2) = args.take (2 * i + 2)) :
    SlotFails maker slots args' i e := by
  cases h with
  | keyword hs hkey hne =>
      rw [← getElem?_of_take_eq htake (by omega)] at hkey
      exact .keyword hs hkey hne
  | value hs hkey hu hcause =>
      rw [← getElem?_of_take_eq htake (by omega)] at hkey hu
      exact .value hs hkey hu hcause

/-- The first fault is the same whatever stands behind it. -/
theorem FirstFault.of_take {e : DecodeError} (h : FirstFault maker slots args i e)
    (htake : args'.take (2 * i + 2) = args.take (2 * i + 2)) :
    FirstFault maker slots args' i e := by
  refine ⟨h.fails.of_take htake, fun j hj => ?_⟩
  obtain ⟨t, ht⟩ := h.reads_before j hj
  have hshorter : args'.take (2 * j + 2) = args.take (2 * j + 2) := by
    have hle : 2 * j + 2 ≤ 2 * i + 2 := by omega
    have hcut := congrArg (List.take (2 * j + 2)) htake
    rwa [List.take_take, List.take_take, Nat.min_eq_left hle] at hcut
  exact ⟨t, ht.of_take hshorter⟩

end Prefix

end MakerForms
