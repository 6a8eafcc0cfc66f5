import MakerForms.Sexpr.Value

set_option autoImplicit false

/-! # How values are nested

The items of a value are those of the list that it is; values of other kinds have none. What
holds of a value as soon as it holds of its items holds of every value (`items_induction`). The
depth of a value is the number of lists around its innermost item, and a property holds
everywhere in a value if it holds of the value and of all that is nested in it.
-/

namespace MakerForms

namespace Value

/-- The items of the list that a value is, none for other values. -/
def items : Value → List Value
  | .list vs => vs
  | _ => []

mutual

/-- What holds of a value as soon as it holds of the items of the value holds of every value. -/
theorem items_induction {P : Value → Prop} (step : ∀ v : Value, (∀ u ∈ v.items, P u) → P v) :
    (v : Value) → P v
  | .symbol _ | .integer _ | .string _ | .character _ =>
      step _ fun _ hu => by simp [items] at hu
  | .list vs => step (.list vs) (items_induction_list step vs)

theorem items_induction_list {P : Value → Prop}
    (step : ∀ v : Value, (∀ u ∈ v.items, P u) → P v) : (vs : List Value) → ∀ v ∈ vs, P v
  | [] => fun _ hv => by simp at hv
  | v :: vs => fun u hu => by
      rcases List.mem_cons.mp hu with h | h
      · rw [h]
        exact items_induction step v
      · exact items_induction_list step vs u h

end

/-! ## Depth -/

mutual

/-- How deep lists nest in a value: 0 for what is no list, 1 for a list without lists in it. -/
def depth : Value → Nat
  | .list vs => depthAll vs + 1
  | .symbol _ | .integer _ | .string _ | .character _ => 0

/-- How deep lists nest in the deepest of some values. -/
def depthAll : List Value → Nat
  | [] => 0
  | v :: vs => max v.depth (depthAll vs)

end

theorem depthAll_le_iff {vs : List Value} {n : Nat} :
    depthAll vs ≤ n ↔ ∀ v ∈ vs, v.depth ≤ n := by
  induction vs with
  | nil => simp [depthAll]
  | cons v vs ih => rw [depthAll, Nat.max_le, ih, List.forall_mem_cons]

/-! ## Everywhere in a value -/

mutual

/-- Whether a property holds of a value and of all values nested in it. -/
def Everywhere (P : Value → Prop) : Value → Prop
  | .list vs => P (.list vs) ∧ EverywhereIn P vs
  | .symbol s => P (.symbol s)
  | .integer i => P (.integer i)
  | .string s => P (.string s)
  | .character code => P (.character code)

/-- Whether a property holds everywhere in some values. -/
def EverywhereIn (P : Value → Prop) : List Value → Prop
  | [] => True
  | v :: vs => v.Everywhere P ∧ EverywhereIn P vs

end

mutual

/-- Decides whether a property holds everywhere in a value. -/
def decidableEverywhere {P : Value → Prop} [DecidablePred P] :
    (v : Value) → Decidable (v.Everywhere P)
  | .list vs =>
    have := decidableEverywhereIn (P := P) vs
    inferInstanceAs (Decidable (P (.list vs) ∧ EverywhereIn P vs))
  | .symbol s => inferInstanceAs (Decidable (P (.symbol s)))
  | .integer i => inferInstanceAs (Decidable (P (.integer i)))
  | .string s => inferInstanceAs (Decidable (P (.string s)))
  | .character code => inferInstanceAs (Decidable (P (.character code)))

/-- Decides whether a property holds everywhere in some values. -/
def decidableEverywhereIn {P : Value → Prop} [DecidablePred P] :
    (vs : List Value) → Decidable (EverywhereIn P vs)
  | [] => .isTrue trivial
  | v :: vs =>
    have := decidableEverywhere (P := P) v
    have := decidableEverywhereIn (P := P) vs
    inferInstanceAs (Decidable (v.Everywhere P ∧ EverywhereIn P vs))

end

instance {P : Value → Prop} [DecidablePred P] (v : Value) : Decidable (v.Everywhere P) :=
  decidableEverywhere v

theorem everywhereIn_iff {P : Value → Prop} {vs : List Value} :
    EverywhereIn P vs ↔ ∀ v ∈ vs, v.Everywhere P := by
  induction vs with
  | nil => simp [EverywhereIn]
  | cons v vs ih => simp [EverywhereIn, ih]

theorem everywhere_iff {P : Value → Prop} {v : Value} :
    v.Everywhere P ↔ P v ∧ ∀ u ∈ v.items, u.Everywhere P := by
  cases v with
  | list vs => rw [Everywhere, everywhereIn_iff, items]
  | _ => simp [Everywhere, items]

/-- What follows from a property of each value holds everywhere where the property does. -/
theorem Everywhere.imp {P Q : Value → Prop} (himp : ∀ v : Value, P v → Q v) {v : Value}
    (h : v.Everywhere P) : v.Everywhere Q := by
  induction v using items_induction with
  | step v ih =>
      obtain ⟨hv, hitems⟩ := everywhere_iff.mp h
      exact everywhere_iff.mpr ⟨himp v hv, fun u hu => ih u hu (hitems u hu)⟩

end Value

end MakerForms
