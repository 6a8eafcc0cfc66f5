import MakerForms.Node.Signature
import MakerForms.Proofs.Sexpr.Words
import Mathlib.Data.List.Nodup

set_option autoImplicit false

/-! # Makers tell kinds and operators apart

No two kinds share a maker, no two operators do, and no operator shares one with a kind. So the
symbol of a maker leads back to the kind or the operator that it belongs to
(`Kind.ofSymbol?_eq_some_iff`, `Operator.find?_maker`).
-/

namespace MakerForms

theorem Symbol.isMaker_iff {s : Symbol} {name : String} :
    s.isMaker name = true ↔ s = Symbol.maker name := by
  obtain ⟨package, symbolName⟩ := s
  simp [Symbol.isMaker, Symbol.maker, Symbol.qualified]

theorem Symbol.maker?_eq_ok_iff {name : String} {s : Symbol} :
    Symbol.maker? name = .ok s ↔ Symbol.isName name.toList = true ∧ s = Symbol.maker name := by
  have hpackage : Symbol.isName makerPackage.toList = true := by decide +kernel
  rw [Symbol.maker?, Symbol.qualified?_eq_ok_iff, Symbol.maker]
  simp only [hpackage, true_and]

/-! ## Texts told apart by numbers -/

/-- A number for a text, below `8191`. -/
def textNumber (cs : List Char) : Nat := cs.foldl (fun n c => (31 * n + c.toNat) % 8191) 0

/-- Whether no number occurs twice, or is a bit of `seen`. -/
def allNew (seen : Nat) : List Nat → Bool
  | [] => true
  | n :: ns => !seen.testBit n && allNew (seen ||| 1 <<< n) ns

theorem testBit_of_allNew {seen : Nat} {ns : List Nat} (h : allNew seen ns = true) :
    ∀ n ∈ ns, seen.testBit n = false := by
  induction ns generalizing seen with
  | nil => simp
  | cons n ns ih =>
      simp only [allNew, Bool.and_eq_true, Bool.not_eq_true'] at h
      intro m hm
      rcases List.mem_cons.mp hm with rfl | hm
      · exact h.1
      · have hboth := ih h.2 m hm
        rw [Nat.testBit_or, Bool.or_eq_false_iff] at hboth
        exact hboth.1

theorem nodup_of_allNew {seen : Nat} {ns : List Nat} (h : allNew seen ns = true) : ns.Nodup := by
  induction ns generalizing seen with
  | nil => exact List.nodup_nil
  | cons n ns ih =>
      simp only [allNew, Bool.and_eq_true, Bool.not_eq_true'] at h
      refine List.nodup_cons.mpr ⟨fun hn => ?_, ih h.2⟩
      have hbit := testBit_of_allNew h.2 n hn
      simp [Nat.testBit_or, Nat.one_shiftLeft] at hbit

/-- Things whose names have different numbers have different names. -/
theorem eq_of_allNew {α : Type} {all : List α} {name : α → String}
    (spelling : (a : α) → { cs : List Char // String.ofList cs = name a })
    (hall : allNew 0 (all.map fun a => textNumber (spelling a).1) = true) {a b : α}
    (ha : a ∈ all) (hb : b ∈ all) (h : name a = name b) : a = b := by
  have hspelling : (spelling a).1 = (spelling b).1 := by
    rw [← String.ofList_inj, (spelling a).2, (spelling b).2, h]
  exact List.inj_on_of_nodup_map (nodup_of_allNew hall) ha hb (congrArg textNumber hspelling)

/-! ## Kinds -/

theorem Kind.getElem?_all (k : Kind) : Kind.all[k.ctorIdx]? = some k := by
  cases k <;> rfl

theorem Kind.mem_all (k : Kind) : k ∈ Kind.all := List.mem_of_getElem? k.getElem?_all

/-- The characters of the maker of a kind. -/
def Kind.spelling (k : Kind) : { cs : List Char // String.ofList cs = k.maker } := by
  -- unification takes the characters from the text, which is much faster than evaluating it
  cases k <;> exact ⟨_, rfl⟩

theorem Kind.maker_inj {k l : Kind} (h : k.maker = l.maker) : k = l :=
  eq_of_allNew Kind.spelling (by decide +kernel) k.mem_all l.mem_all h

theorem Kind.maker_of_ofMaker? {name : String} {k : Kind} (h : Kind.ofMaker? name = some k) :
    k.maker = name := by
  rw [Kind.ofMaker?] at h
  have hmaker := List.find?_some h
  exact beq_iff_eq.mp hmaker

theorem Kind.ofMaker?_eq_some_iff {name : String} {k : Kind} :
    Kind.ofMaker? name = some k ↔ name = k.maker := by
  constructor
  · intro h
    exact (Kind.maker_of_ofMaker? h).symm
  · rintro rfl
    have hsome : (Kind.ofMaker? k.maker).isSome = true := by
      rw [Kind.ofMaker?, List.find?_isSome]
      exact ⟨k, k.mem_all, beq_self_eq_true k.maker⟩
    obtain ⟨l, hl⟩ := Option.isSome_iff_exists.mp hsome
    rw [hl, Kind.maker_inj (Kind.maker_of_ofMaker? hl)]

theorem Kind.ofSymbol?_eq_some_iff {s : Symbol} {k : Kind} :
    Kind.ofSymbol? s = some k ↔ s = Symbol.maker k.maker := by
  obtain ⟨package, name⟩ := s
  simp only [Kind.ofSymbol?, Symbol.maker, Symbol.qualified, Symbol.mk.injEq]
  by_cases h : package = some makerPackage
  · rw [if_pos h, Kind.ofMaker?_eq_some_iff]
    simp [h]
  · rw [if_neg h]
    simp [h]

/-! ## Operators -/

namespace Operator

theorem Place.mem_operators_iff {place : Place} {o : Operator} :
    o ∈ place.operators ↔ o.place = place := by
  cases place <;> cases o <;> simp [operators, Operator.place]

/-- The characters of the maker of an operator. -/
def spelling (o : Operator) : { cs : List Char // String.ofList cs = o.maker } := by
  cases o <;> exact ⟨_, rfl⟩

theorem allNew_operators (place : Place) :
    allNew 0 (place.operators.map fun o => textNumber o.spelling.1) = true := by
  cases place <;> decide +kernel

theorem maker_inj {o p : Operator} (hplace : o.place = p.place) (h : o.maker = p.maker) :
    o = p :=
  eq_of_allNew spelling (allNew_operators p.place) (Place.mem_operators_iff.mpr hplace)
    (Place.mem_operators_iff.mpr rfl) h

/-- In its place an operator is found by its maker. -/
theorem find?_maker (o : Operator) :
    (o.place.operators.find? fun p => (Symbol.maker o.maker).isMaker p.maker) = some o := by
  cases hfind : o.place.operators.find? fun p => (Symbol.maker o.maker).isMaker p.maker with
  | none =>
      have ho := List.find?_eq_none.mp hfind o (Place.mem_operators_iff.mpr rfl)
      exact absurd (Symbol.isMaker_iff.mpr rfl) ho
  | some p =>
      have hplace := Place.mem_operators_iff.mp (List.mem_of_find?_eq_some hfind)
      have hmaker : (Symbol.maker o.maker).isMaker p.maker = true := by
        simpa using List.find?_some hfind
      have hname := congrArg Symbol.name (Symbol.isMaker_iff.mp hmaker)
      rw [maker_inj hplace.symm hname]

end Operator

/-! ## Kinds beside operators -/

/-- The name of the maker of a kind or an operator. -/
def makerOf : Kind ⊕ Operator → String
  | .inl k => k.maker
  | .inr o => o.maker

/-- The characters of the maker of a kind or an operator. -/
def makerSpelling : (a : Kind ⊕ Operator) → { cs : List Char // String.ofList cs = makerOf a }
  | .inl k => k.spelling
  | .inr o => o.spelling

/-- All kinds, and then the operators of both places. -/
def allMade : List (Kind ⊕ Operator) :=
  Kind.all.map .inl ++ (Operator.Place.unary.operators ++ Operator.Place.binary.operators).map .inr

theorem Operator.maker_ne_kind (o : Operator) (k : Kind) : o.maker ≠ k.maker := by
  have hk : .inl k ∈ allMade := by simp [allMade, k.mem_all]
  have ho : .inr o ∈ allMade := by
    cases hplace : o.place <;> simp [allMade, Place.mem_operators_iff, hplace]
  intro h
  have hsame : (.inr o : Kind ⊕ Operator) = .inl k :=
    eq_of_allNew makerSpelling (by decide +kernel) ho hk h
  cases hsame

end MakerForms
