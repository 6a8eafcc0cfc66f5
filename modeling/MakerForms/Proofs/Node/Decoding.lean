import MakerForms.Node.Encode
import MakerForms.Proofs.Node.Makers
import Mathlib.Data.List.Forall2

set_option autoImplicit false

/-! # What decodes, and to what

For each schema the file says which values decode in its places and to which trees. A leaf, an
operator and what is absent have one written form each. A node of a kind decodes from the form
of the maker of the kind whose keywords are those of the slots, in order and without anything
more, and whose values decode in their slots (`SlotsDecode`). A node in a place for a family, or
for any node, decodes exactly as a node of its kind.

The statements are equivalences, so both directions of a round trip start from them and neither
opens the decoder.
-/

namespace MakerForms

universe u

/-! ## Success and failure in steps -/

section Steps

variable {ε ε' α β : Type}

theorem bind_eq_ok_iff {x : Except ε α} {f : α → Except ε β} {b : β} :
    (x >>= f) = .ok b ↔ ∃ a, x = .ok a ∧ f a = .ok b := by
  cases x <;> simp [bind, Except.bind]

theorem map_eq_ok_iff {x : Except ε α} {f : α → β} {b : β} :
    x.map f = .ok b ↔ ∃ a, x = .ok a ∧ f a = b := by
  cases x <;> simp [Except.map]

theorem mapError_eq_ok_iff {x : Except ε α} {f : ε → ε'} {a : α} :
    x.mapError f = .ok a ↔ x = .ok a := by
  cases x <;> simp [Except.mapError]

theorem bind_eq_error_iff {x : Except ε α} {f : α → Except ε β} {e : ε} :
    (x >>= f) = .error e ↔ x = .error e ∨ ∃ a, x = .ok a ∧ f a = .error e := by
  cases x <;> simp [bind, Except.bind]

theorem map_eq_error_iff {x : Except ε α} {f : α → β} {e : ε} :
    x.map f = .error e ↔ x = .error e := by
  cases x <;> simp [Except.map]

theorem mapError_eq_error_iff {x : Except ε α} {f : ε → ε'} {e : ε'} :
    x.mapError f = .error e ↔ ∃ cause, x = .error cause ∧ f cause = e := by
  cases x <;> simp [Except.mapError]

end Steps

/-! ## Leaves -/

theorem Symbol.isBare_iff {s : Symbol} {name : String} :
    s.isBare name = true ↔ s = Symbol.bare name := by
  obtain ⟨package, symbolName⟩ := s
  simp [Symbol.isBare, Symbol.bare]

theorem Value.isNil_iff {v : Value} : v.isNil = true ↔ v = Value.nil := by
  cases v with
  | symbol s => simp [Value.isNil, Value.nil, Symbol.isNil, Symbol.nil, Symbol.isBare_iff]
  | list _ | integer _ | string _ | character _ => simp [Value.isNil, Value.nil]

attribute [simp] decodeWith

namespace Value

section Leaves

variable {v : Value} {t : Tree}

theorem decode_flag_eq_ok_iff :
    v.decode .flag = .ok t ↔ ∃ b, v = .ofBool b ∧ t = .flag b := by
  rw [decode_eq, decodeWith, decodeFlag]
  cases v with
  | symbol s =>
      simp only [symbol?]
      by_cases htrue : s.isBare "T" = true
      · rw [if_pos htrue]
        obtain rfl := Symbol.isBare_iff.mp htrue
        simp [ofBool, nil, Symbol.t, Symbol.nil, Symbol.bare, eq_comm]
      · rw [if_neg htrue]
        -- `T` is excluded now, so only `NIL` is left as a truth value
        have hne : s ≠ Symbol.t := fun h => htrue (Symbol.isBare_iff.mpr h)
        by_cases hfalse : s.isNil = true
        · rw [if_pos hfalse]
          obtain rfl := Symbol.isBare_iff.mp hfalse
          simp [ofBool, nil, Symbol.t, Symbol.nil, Symbol.bare, eq_comm]
        · rw [if_neg hfalse]
          have hnil : s ≠ Symbol.nil := fun h => hfalse (Symbol.isBare_iff.mpr h)
          simp [ofBool, nil, hne, hnil]
  | list _ | integer _ | string _ | character _ => simp [symbol?, ofBool, nil]

theorem decode_character_eq_ok_iff :
    v.decode .character = .ok t ↔ ∃ code, v = .character code ∧ t = .character code := by
  rw [decode_eq, decodeWith, decodeCharacter]
  cases v <;> simp [character?, eq_comm]

theorem decode_natural_eq_ok_iff :
    v.decode .natural = .ok t ↔ ∃ n : Nat, v = .integer n ∧ t = .number n := by
  rw [decode_eq, decodeWith, decodeNatural]
  cases v with
  | integer i =>
      cases i with
      | ofNat n =>
          simp only [integer?]
          constructor
          · intro h
            exact ⟨n, rfl, by simpa using h.symm⟩
          · rintro ⟨m, hm, rfl⟩
            obtain rfl : n = m := Int.ofNat_inj.mp (Value.integer.inj hm)
            rfl
      | negSucc n => simp [integer?]
  | symbol _ | list _ | string _ | character _ => simp [integer?]

theorem decode_index_eq_ok_iff :
    v.decode .index = .ok t ↔ ∃ n : Nat, n < UInt64.size ∧ v = .integer n ∧ t = .number n := by
  rw [decode_eq, decodeWith, decodeIndex]
  cases v with
  | integer i =>
      simp only [integer?]
      by_cases hbound : 0 ≤ i ∧ i.toNat < UInt64.size
      · rw [if_pos hbound]
        constructor
        · intro h
          exact ⟨i.toNat, hbound.2, by simp [Int.toNat_of_nonneg hbound.1], by simpa using h.symm⟩
        · rintro ⟨n, -, hi, rfl⟩
          obtain rfl : i = n := by simpa using hi
          simp
      · rw [if_neg hbound]
        constructor
        · intro h
          cases h
        · rintro ⟨n, hn, hi, -⟩
          obtain rfl : i = n := by simpa using hi
          exact absurd ⟨Int.natCast_nonneg n, hn⟩ hbound
  | symbol _ | list _ | string _ | character _ => simp [integer?]

theorem decode_string_eq_ok_iff :
    v.decode .string = .ok t ↔ ∃ s, v = .string s ∧ t = .string s := by
  rw [decode_eq, decodeWith, decodeString]
  cases v <;> simp [string?, eq_comm]

theorem decode_name_eq_ok_iff :
    v.decode .name = .ok t ↔ ∃ s, Identifier.isValid s = true ∧ v = .string s ∧ t = .string s := by
  rw [decode_eq, decodeWith, decodeName]
  cases v with
  | string s =>
      simp only [string?, checkName, map_eq_ok_iff]
      by_cases hvalid : Identifier.isValid s = true
      · rw [if_pos hvalid]
        constructor
        · rintro ⟨name, hname, rfl⟩
          obtain rfl : s = name := by simpa using hname
          exact ⟨s, hvalid, rfl, rfl⟩
        · rintro ⟨name, -, hname, rfl⟩
          obtain rfl : s = name := by simpa using hname
          exact ⟨s, rfl, rfl⟩
      · rw [if_neg hvalid]
        constructor
        · rintro ⟨name, hname, -⟩
          cases hname
        · rintro ⟨name, hname, hs, -⟩
          obtain rfl : s = name := by simpa using hs
          exact absurd hname hvalid
  | symbol _ | list _ | integer _ | character _ => simp [string?]

theorem decode_operator_eq_ok_iff {place : Operator.Place} :
    v.decode (.operator place) = .ok t ↔
      ∃ o : Operator, o.place = place ∧ v = .form o.maker [] ∧ t = .operator o := by
  rw [decode_eq, decodeWith]
  constructor
  · intro h
    unfold decodeOperator at h
    split at h
    · next head arguments =>
      split at h
      · next o hfound =>
        -- what is found in the table of a place has that place and the maker of the head
        have hmaker := List.find?_some hfound
        have hplace := Operator.Place.mem_operators_iff.mp (List.mem_of_find?_eq_some hfound)
        obtain rfl := Symbol.isMaker_iff.mp hmaker
        cases arguments with
        | nil => exact ⟨o, hplace, rfl, by simpa using h.symm⟩
        | cons argument rest => simp at h
      · cases h
    · cases h
  · rintro ⟨o, rfl, rfl, rfl⟩
    simp only [form, formArguments, decodeOperator, Operator.find?_maker]
    rfl

end Leaves

end Value

/-! ## Forms -/

theorem Value.head?_eq_some_iff {v : Value} {head : Symbol} :
    v.head? = some head ↔ ∃ vs, v = .list (.symbol head :: vs) := by
  constructor
  · intro h
    unfold Value.head? at h
    split at h
    · next s vs => exact ⟨vs, by simpa using h⟩
    · cases h
  · rintro ⟨vs, rfl⟩
    rfl

@[simp] theorem length_argumentsOf (vs : List Value) : (argumentsOf vs).length = vs.length := by
  rw [argumentsOf_eq_map, List.length_map]

@[simp] theorem length_formArguments (args : List (String × Value)) :
    (formArguments args).length = args.length * 2 := by
  induction args with
  | nil => rfl
  | cons arg args ih =>
      simp only [formArguments, List.length_cons, ih]
      omega

theorem Form.start_eq_ok_iff {v : Value} {maker : String} {arity : Nat} {form : Form} :
    Form.start v v.arguments maker arity = .ok form ↔
      ∃ vs, v = .list (.symbol (Symbol.maker maker) :: vs) ∧ vs.length = arity * 2 ∧
        form = ⟨maker, argumentsOf vs⟩ := by
  constructor
  · intro h
    unfold Form.start at h
    split at h
    · cases h
    · next head hhead =>
      obtain ⟨vs, rfl⟩ := Value.head?_eq_some_iff.mp hhead
      split at h
      · cases h
      · next hmaker =>
        obtain rfl := Symbol.isMaker_iff.mp (by simpa using hmaker)
        have htail : (Value.list (.symbol (Symbol.maker maker) :: vs)).arguments.tail
            = argumentsOf vs := rfl
        rw [htail, length_argumentsOf] at h
        split at h
        · cases h
        · next hlength => exact ⟨vs, rfl, by omega, by simpa using h.symm⟩
  · rintro ⟨vs, rfl, hlength, rfl⟩
    have hmaker : (Symbol.maker maker).isMaker maker = true := Symbol.isMaker_iff.mpr rfl
    simp [Form.start, Value.head?, hmaker, Value.arguments, Value.list?, argumentsOf, hlength]

/-- Nothing headed by another symbol is read as a form of a maker. -/
theorem Form.start_of_foreign {head : Symbol} {vs : List Value} {maker : String}
    (h : head ≠ Symbol.maker maker) (arity : Nat) :
    Form.start (.list (.symbol head :: vs)) (Value.list (.symbol head :: vs)).arguments maker arity
      = .error (.wrongHead head maker) := by
  have hmaker : head.isMaker maker = false := by
    rw [Bool.eq_false_iff]
    exact fun hsame => h (Symbol.isMaker_iff.mp hsame)
  simp [Form.start, Value.head?, hmaker]

/-- A form of the maker is not read if it has another number of arguments. -/
theorem Form.start_of_count {vs : List Value} {maker : String} {arity : Nat}
    (h : vs.length ≠ arity * 2) :
    Form.start (.list (.symbol (Symbol.maker maker) :: vs))
        (Value.list (.symbol (Symbol.maker maker) :: vs)).arguments maker arity
      = .error (.shape maker (.argumentCount arity vs.length)) := by
  have hmaker : (Symbol.maker maker).isMaker maker = true := Symbol.isMaker_iff.mpr rfl
  simp [Form.start, Value.head?, hmaker, Value.arguments, Value.list?, argumentsOf, h]

/-- Arguments with the keywords of slots, in their order, whose values decode in the slots. -/
inductive SlotsDecode : List Slot → List (String × Value) → List Tree → Prop
  | nil : SlotsDecode [] [] []
  | cons {s : Slot} {slots : List Slot} {v : Value} {args : List (String × Value)} {t : Tree}
      {ts : List Tree} : v.decode s.schema = .ok t → SlotsDecode slots args ts →
      SlotsDecode (s :: slots) ((s.keyword, v) :: args) (t :: ts)

theorem SlotsDecode.length_args {slots : List Slot} {args : List (String × Value)}
    {ts : List Tree} (h : SlotsDecode slots args ts) : args.length = slots.length := by
  induction h with
  | nil => rfl
  | cons _ _ ih => rw [List.length_cons, List.length_cons, ih]

theorem SlotsDecode.length_trees {slots : List Slot} {args : List (String × Value)}
    {ts : List Tree} (h : SlotsDecode slots args ts) : ts.length = slots.length := by
  induction h with
  | nil => rfl
  | cons _ _ ih => rw [List.length_cons, List.length_cons, ih]

theorem SlotsDecode.of_cons {slot : Slot} {slots : List Slot} {args : List (String × Value)}
    {ts : List Tree} (h : SlotsDecode (slot :: slots) args ts) :
    ∃ v rest t us, args = (slot.keyword, v) :: rest ∧ v.decode slot.schema = .ok t ∧
      SlotsDecode slots rest us := by
  cases h with
  | cons hv hrest => exact ⟨_, _, _, _, rfl, hv, hrest⟩

theorem SlotsDecode.of_singleton {slot : Slot} {args : List (String × Value)} {ts : List Tree}
    (h : SlotsDecode [slot] args ts) :
    ∃ v t, args = [(slot.keyword, v)] ∧ v.decode slot.schema = .ok t := by
  obtain ⟨v, rest, t, us, rfl, hv, hrest⟩ := h.of_cons
  cases hrest
  exact ⟨v, t, rfl, hv⟩

/-- Reading one slot takes a pair of its keyword and a value that decodes. -/
theorem Form.slot_eq_ok_iff {maker keyword : String} {s : Schema} {vs : List Value} {t : Tree}
    {form : Form} :
    (⟨maker, argumentsOf vs⟩ : Form).slot keyword s = (.ok t, form) ↔
      ∃ v rest, vs = .symbol (Symbol.keyword keyword) :: v :: rest ∧ v.decode s = .ok t ∧
        form = ⟨maker, argumentsOf rest⟩ := by
  cases vs with
  | nil => simp [Form.slot, argumentsOf]
  | cons key vs =>
      cases vs with
      | nil => simp [Form.slot, argumentsOf]
      | cons v rest =>
          simp only [Form.slot, argumentsOf]
          by_cases hkey : key = .symbol (Symbol.keyword keyword)
          · rw [if_pos hkey, Prod.mk.injEq, mapError_eq_ok_iff]
            constructor
            · rintro ⟨hv, rfl⟩
              exact ⟨v, rest, by rw [hkey], hv, rfl⟩
            · rintro ⟨w, rest', hvs, hw, rfl⟩
              obtain ⟨-, rfl, rfl⟩ : key = _ ∧ v = w ∧ rest = rest' := by simpa using hvs
              exact ⟨hw, rfl⟩
          · rw [if_neg hkey]
            constructor
            · intro h
              cases h
            · rintro ⟨w, rest', hvs, -, -⟩
              exact absurd (List.cons.inj hvs).1 hkey

/-- Reading slots takes the arguments of all of them and leaves what follows. -/
theorem Form.slots_eq_ok_iff {maker : String} {slots : List Slot} {vs : List Value}
    {ts : List Tree} {form : Form} :
    (⟨maker, argumentsOf vs⟩ : Form).slots slots = .ok (ts, form) ↔
      ∃ args rest, SlotsDecode slots args ts ∧ vs = formArguments args ++ rest ∧
        form = ⟨maker, argumentsOf rest⟩ := by
  -- each slot leaves a form over the values that follow, so the values are not fixed
  induction slots generalizing vs ts form with
  | nil =>
      constructor
      · intro h
        obtain ⟨rfl, rfl⟩ : [] = ts ∧ _ = form := by simpa [Form.slots] using h
        exact ⟨[], vs, .nil, rfl, rfl⟩
      · rintro ⟨args, rest, hargs, rfl, rfl⟩
        cases hargs
        rfl
  | cons s slots ih =>
      constructor
      · intro h
        rw [Form.slots] at h
        split at h
        · cases h
        · next t form' hslot =>
          obtain ⟨v, rest, rfl, hv, rfl⟩ := Form.slot_eq_ok_iff.mp hslot
          split at h
          · cases h
          · next ts' form'' hslots =>
            obtain ⟨args, rest', hargs, rfl, rfl⟩ := ih.mp hslots
            obtain ⟨rfl, rfl⟩ : t :: ts' = ts ∧ _ = form := by simpa using h
            exact ⟨(s.keyword, v) :: args, rest', .cons hv hargs, rfl, rfl⟩
      · rintro ⟨args, rest, hargs, rfl, rfl⟩
        cases hargs with
        | @cons _ _ v args t ts hv hargs =>
            have hslot : (⟨maker, argumentsOf (.symbol (Symbol.keyword s.keyword) :: v ::
                (formArguments args ++ rest))⟩ : Form).slot s.keyword s.schema
                = (.ok t, ⟨maker, argumentsOf (formArguments args ++ rest)⟩) :=
              Form.slot_eq_ok_iff.mpr ⟨v, _, rfl, hv, rfl⟩
            have hslots : (⟨maker, argumentsOf (formArguments args ++ rest)⟩ : Form).slots slots
                = .ok (ts, ⟨maker, argumentsOf rest⟩) :=
              ih.mpr ⟨args, rest, hargs, rfl, rfl⟩
            simp only [Form.slots, formArguments, List.cons_append, hslot, hslots]

/-- A form is read as a whole, from its head to the check that nothing is left, if it is a form of
the maker with the keywords of the slots and values that decode. -/
theorem Form.whole_iff {v : Value} {maker : String} {slots : List Slot} {ts : List Tree} :
    (∃ form last, Form.start v v.arguments maker slots.length = .ok form ∧
      form.slots slots = .ok (ts, last) ∧ last.finish = .ok ()) ↔
      ∃ args, SlotsDecode slots args ts ∧ v = .form maker args := by
  constructor
  · rintro ⟨form, last, hstart, hslots, hfinish⟩
    obtain ⟨vs, rfl, hlength, rfl⟩ := Form.start_eq_ok_iff.mp hstart
    obtain ⟨args, rest, hargs, rfl, rfl⟩ := Form.slots_eq_ok_iff.mp hslots
    -- the form is finished only if the slots have used up all arguments
    cases rest with
    | nil => exact ⟨args, hargs, by rw [Value.form, List.append_nil]⟩
    | cons extra rest => cases hfinish
  · rintro ⟨args, hargs, rfl⟩
    refine ⟨⟨maker, argumentsOf (formArguments args)⟩, ⟨maker, []⟩, ?_, ?_, rfl⟩
    · have hlength : (formArguments args).length = slots.length * 2 := by
        rw [length_formArguments, hargs.length_args]
      exact Form.start_eq_ok_iff.mpr ⟨formArguments args, rfl, hlength, rfl⟩
    · exact Form.slots_eq_ok_iff.mpr ⟨args, [], hargs, (List.append_nil _).symm, rfl⟩

/-! ## Writing forms -/

namespace Draft

theorem start?_eq_ok_iff {maker : String} {draft : Draft} :
    start? maker = .ok draft ↔
      Symbol.isName maker.toList = true ∧ draft = ⟨[.symbol (Symbol.maker maker)]⟩ := by
  rw [start?, map_eq_ok_iff]
  simp only [Symbol.maker?_eq_ok_iff]
  constructor
  · rintro ⟨head, ⟨hname, rfl⟩, rfl⟩
    exact ⟨hname, rfl⟩
  · rintro ⟨hname, rfl⟩
    exact ⟨_, ⟨hname, rfl⟩, rfl⟩

theorem add?_eq_ok_iff {draft draft' : Draft} {keyword : String} {v : Value} :
    draft.add? keyword v = .ok draft' ↔
      Symbol.isName keyword.toList = true ∧
        draft' = ⟨draft.items ++ [.symbol (Symbol.keyword keyword), v]⟩ := by
  rw [add?, map_eq_ok_iff]
  simp only [Symbol.keyword?_eq_ok_iff]
  constructor
  · rintro ⟨key, ⟨hname, rfl⟩, rfl⟩
    exact ⟨hname, rfl⟩
  · rintro ⟨hname, rfl⟩
    exact ⟨_, ⟨hname, rfl⟩, rfl⟩

/-- Writes a form with a field for each of some things, in their order. -/
def write {α : Type u} (maker : String) (keyword : α → String) (held : α → Value)
    (fields : List α) : Except SymbolError Value := do
  let draft ← start? maker
  let draft ← fields.foldlM (fun draft f => draft.add? (keyword f) (held f)) draft
  return draft.finish

section Fields

variable {α : Type u} {keyword : α → String} {held : α → Value} {fields : List α}

/-- Adding fields to a draft adds their arguments, if the keywords are names. -/
theorem foldlM_add?_eq_ok_iff {draft draft' : Draft} :
    fields.foldlM (fun draft f => draft.add? (keyword f) (held f)) draft = .ok draft' ↔
      (∀ f ∈ fields, Symbol.isName (keyword f).toList = true) ∧
        draft' = ⟨draft.items ++ formArguments (fields.map fun f => (keyword f, held f))⟩ := by
  induction fields generalizing draft with
  | nil =>
      rw [List.foldlM_nil, List.map_nil, formArguments, List.append_nil]
      constructor
      · intro h
        exact ⟨by simp, (Except.ok.inj h).symm⟩
      · rintro ⟨-, rfl⟩
        rfl
  | cons f fields ih =>
      rw [List.foldlM_cons, bind_eq_ok_iff, List.forall_mem_cons]
      simp only [add?_eq_ok_iff, ih, List.map_cons, formArguments]
      constructor
      · rintro ⟨_, ⟨hf, rfl⟩, hfields, rfl⟩
        exact ⟨⟨hf, hfields⟩, by simp⟩
      · rintro ⟨⟨hf, hfields⟩, rfl⟩
        exact ⟨_, ⟨hf, rfl⟩, hfields, by simp⟩

/-- What is written is the form of the maker with the keywords and the values, if the maker and
the keywords are names. -/
theorem write_eq_ok_iff {maker : String} {v : Value} :
    write maker keyword held fields = .ok v ↔
      (Symbol.isName maker.toList = true ∧
        ∀ f ∈ fields, Symbol.isName (keyword f).toList = true) ∧
      v = .form maker (fields.map fun f => (keyword f, held f)) := by
  constructor
  · intro h
    obtain ⟨draft, hstart, h⟩ := bind_eq_ok_iff.mp h
    obtain ⟨draft', hadd, h⟩ := bind_eq_ok_iff.mp h
    obtain ⟨hmaker, rfl⟩ := start?_eq_ok_iff.mp hstart
    obtain ⟨hkeywords, rfl⟩ := foldlM_add?_eq_ok_iff.mp hadd
    exact ⟨⟨hmaker, hkeywords⟩, (Except.ok.inj h).symm⟩
  · rintro ⟨⟨hmaker, hkeywords⟩, rfl⟩
    exact bind_eq_ok_iff.mpr ⟨_, start?_eq_ok_iff.mpr ⟨hmaker, rfl⟩,
      bind_eq_ok_iff.mpr ⟨_, foldlM_add?_eq_ok_iff.mpr ⟨hkeywords, rfl⟩, rfl⟩⟩

end Fields

end Draft

/-! ## Nodes -/

theorem decodeSlots_eq_ok_iff {k : Kind} {v : Value} {ts : List Tree} :
    decodeSlots k v v.arguments = .ok ts ↔
      ∃ args, SlotsDecode k.slots args ts ∧ v = .form k.maker args := by
  rw [← Form.whole_iff, decodeSlots]
  constructor
  · intro h
    obtain ⟨form, hstart, hrest⟩ := bind_eq_ok_iff.mp h
    obtain ⟨⟨ts', last⟩, hslots, hlast⟩ := bind_eq_ok_iff.mp hrest
    obtain ⟨_, hfinish, hresult⟩ := bind_eq_ok_iff.mp hlast
    obtain rfl : ts' = ts := by simpa [pure, Except.pure] using hresult
    exact ⟨form, last, hstart, hslots, hfinish⟩
  · rintro ⟨form, last, hstart, hslots, hfinish⟩
    exact bind_eq_ok_iff.mpr ⟨form, hstart, bind_eq_ok_iff.mpr ⟨(ts, last), hslots,
      bind_eq_ok_iff.mpr ⟨(), hfinish, rfl⟩⟩⟩

/-- The registered decoder of a form is the decoder of the kind that its head names. -/
theorem decodeNode_eq_ok_iff {v : Value} {k : Kind} {ts : List Tree} :
    decodeNode v v.arguments = .ok (k, ts) ↔ decodeSlots k v v.arguments = .ok ts := by
  unfold decodeNode
  constructor
  · intro h
    split at h
    · cases h
    · split at h
      · cases h
      · next l hkind =>
        obtain ⟨ts', hslots, heq⟩ := map_eq_ok_iff.mp h
        obtain ⟨rfl, rfl⟩ := Prod.mk.inj heq
        exact hslots
  · intro h
    obtain ⟨args, hargs, rfl⟩ := decodeSlots_eq_ok_iff.mp h
    have hkind : Kind.ofSymbol? (Symbol.maker k.maker) = some k :=
      Kind.ofSymbol?_eq_some_iff.mpr rfl
    have hhead : (Value.form k.maker args).head? = some (Symbol.maker k.maker) := rfl
    simp only [hhead, hkind, h, Except.map]

namespace Value

section Nodes

variable {v : Value} {t : Tree}

theorem decode_kind_eq_ok_iff {k : Kind} :
    v.decode (.kind k) = .ok t ↔
      ∃ args ts, SlotsDecode k.slots args ts ∧ v = .form k.maker args ∧ t = .form k ts := by
  rw [decode_eq, decodeWith, map_eq_ok_iff]
  constructor
  · rintro ⟨ts, hslots, rfl⟩
    obtain ⟨args, hargs, rfl⟩ := decodeSlots_eq_ok_iff.mp hslots
    exact ⟨args, ts, hargs, rfl, rfl⟩
  · rintro ⟨args, ts, hargs, rfl, rfl⟩
    exact ⟨ts, decodeSlots_eq_ok_iff.mpr ⟨args, hargs, rfl⟩, rfl⟩

theorem decode_node_eq_ok_iff :
    v.decode .node = .ok t ↔ ∃ k : Kind, v.decode (.kind k) = .ok t := by
  simp only [decode_eq, decodeWith, map_eq_ok_iff]
  constructor
  · rintro ⟨⟨k, ts⟩, hnode, rfl⟩
    exact ⟨k, ts, decodeNode_eq_ok_iff.mp hnode, rfl⟩
  · rintro ⟨k, ts, hslots, rfl⟩
    exact ⟨(k, ts), decodeNode_eq_ok_iff.mpr hslots, rfl⟩

theorem decode_family_eq_ok_iff {f : Family} :
    v.decode (.family f) = .ok t ↔
      ∃ k : Kind, k.family? = some f ∧ v.decode (.kind k) = .ok t := by
  simp only [decode_eq, decodeWith, map_eq_ok_iff]
  constructor
  · intro h
    obtain ⟨⟨k, ts⟩, hnode, h⟩ := bind_eq_ok_iff.mp h
    dsimp only at h
    split at h
    · next hfamily =>
      exact ⟨k, hfamily, ts, decodeNode_eq_ok_iff.mp hnode, by simpa [pure, Except.pure] using h⟩
    · cases h
  · rintro ⟨k, hfamily, ts, hslots, rfl⟩
    refine bind_eq_ok_iff.mpr ⟨(k, ts), decodeNode_eq_ok_iff.mpr hslots, ?_⟩
    simp [hfamily, pure, Except.pure]

end Nodes

/-! ## Optional things and sequences -/

section Compound

variable {v : Value} {t : Tree} {s : Schema}

/-- What an option decodes to: `NIL` is the absent option, whatever else it may stand for. -/
theorem decode_option :
    v.decode (.option s) = if v.isNil then .ok .absent else (v.decode s).map .present := by
  rw [decode_eq, decode_eq, decodeWith]

theorem decode_option_eq_ok_iff :
    v.decode (.option s) = .ok t ↔
      v = nil ∧ t = .absent ∨ v ≠ nil ∧ ∃ u, v.decode s = .ok u ∧ t = .present u := by
  rw [decode_option]
  by_cases hnil : v = nil
  · rw [if_pos (isNil_iff.mpr hnil)]
    constructor
    · intro h
      exact Or.inl ⟨hnil, by simpa using h.symm⟩
    · rintro (⟨-, rfl⟩ | ⟨hne, -⟩)
      · rfl
      · exact absurd hnil hne
  · rw [if_neg fun h => hnil (isNil_iff.mp h), map_eq_ok_iff]
    constructor
    · rintro ⟨u, hu, rfl⟩
      exact Or.inr ⟨hnil, u, hu, rfl⟩
    · rintro (⟨h, -⟩ | ⟨-, u, hu, rfl⟩)
      · exact absurd h hnil
      · exact ⟨u, hu, rfl⟩

theorem decodeEach_eq_ok_iff {vs : List Value} {ts : List Tree} :
    decodeEach s (argumentsOf vs) = .ok ts ↔
      List.Forall₂ (fun v t => v.decode s = .ok t) vs ts := by
  induction vs generalizing ts with
  | nil => simp [argumentsOf, decodeEach, eq_comm]
  | cons v vs ih =>
      rw [argumentsOf, decodeEach, List.forall₂_cons_left_iff]
      constructor
      · intro h
        obtain ⟨u, hu, h⟩ := bind_eq_ok_iff.mp h
        obtain ⟨us, hus, h⟩ := bind_eq_ok_iff.mp h
        exact ⟨u, us, hu, ih.mp hus, by simpa [pure, Except.pure] using h.symm⟩
      · rintro ⟨u, us, hu, hus, rfl⟩
        exact bind_eq_ok_iff.mpr ⟨u, hu, bind_eq_ok_iff.mpr ⟨us, ih.mpr hus, rfl⟩⟩

theorem decode_sequence_eq_ok_iff :
    v.decode (.sequence s) = .ok t ↔
      ∃ vs ts, List.Forall₂ (fun v t => v.decode s = .ok t) vs ts ∧
        v = .list (.symbol Symbol.list :: vs) ∧ t = .sequence ts := by
  rw [decode_eq, decodeWith]
  constructor
  · intro h
    split at h
    · next hhead =>
      obtain ⟨vs, rfl⟩ := head?_eq_some_iff.mp hhead
      obtain ⟨ts, hts, rfl⟩ := map_eq_ok_iff.mp h
      exact ⟨vs, ts, decodeEach_eq_ok_iff.mp hts, rfl, rfl⟩
    · cases h
  · rintro ⟨vs, ts, hts, rfl, rfl⟩
    have hhead : (Value.list (.symbol Symbol.list :: vs)).head? = some Symbol.list := rfl
    rw [if_pos hhead]
    exact map_eq_ok_iff.mpr ⟨ts, decodeEach_eq_ok_iff.mpr hts, rfl⟩

end Compound

end Value

end MakerForms
