import MakerForms.Node.Tree

set_option autoImplicit false

/-! # Trees that fit a place

A tree fits a schema if it is of the sort that the schema asks for, all the way down: its leaves
are within their bounds, its names are those of identifiers, and each of its nodes has one tree
for each slot of its kind, which fits the slot. `Tree.fits` decides this.

A schema is clear if no option in it is of something that `NIL` stands for by itself, a truth
value or another option. The places in nodes all have clear schemas (`Kind.isClear_slot`).
-/

namespace MakerForms

namespace Tree

mutual

/-- Whether a tree may stand in a place of a schema. -/
@[simp] def fits : Tree → Schema → Bool
  | flag _, .flag => true
  | character _, .character => true
  | number n, .index => n < UInt64.size
  | number _, .natural => true
  | string _, .string => true
  | string s, .name => Identifier.isValid s
  | operator o, .operator place => o.place == place
  | form k ts, .kind l => k == l && fitSlots ts k.slots
  | form k ts, .family f => k.family? == some f && fitSlots ts k.slots
  | form k ts, .node => fitSlots ts k.slots
  | absent, .option _ => true
  | present t, .option s => t.fits s
  | sequence ts, .sequence s => fitAll ts s
  | _, _ => false

/-- Whether there is one tree for each slot, and fits it. -/
def fitSlots : List Tree → List Slot → Bool
  | [], [] => true
  | t :: ts, s :: slots => t.fits s.schema && fitSlots ts slots
  | _, _ => false

/-- Whether all trees may stand in a place of a schema. -/
def fitAll : List Tree → Schema → Bool
  | [], _ => true
  | t :: ts, s => t.fits s && fitAll ts s

end

theorem fitAll_iff {ts : List Tree} {s : Schema} :
    fitAll ts s = true ↔ ∀ t ∈ ts, t.fits s = true := by
  induction ts with
  | nil => simp [fitAll]
  | cons t ts ih => simp [fitAll, ih]

theorem fitSlots_cons_iff {ts : List Tree} {slot : Slot} {slots : List Slot} :
    fitSlots ts (slot :: slots) = true ↔
      ∃ u us, ts = u :: us ∧ u.fits slot.schema = true ∧ fitSlots us slots = true := by
  cases ts <;> simp [fitSlots, and_assoc]

theorem fitSlots_singleton_iff {ts : List Tree} {slot : Slot} :
    fitSlots ts [slot] = true ↔ ∃ u, ts = [u] ∧ u.fits slot.schema = true := by
  rw [fitSlots_cons_iff]
  constructor
  · rintro ⟨u, us, rfl, hu, hus⟩
    cases us with
    | nil => exact ⟨u, rfl, hu⟩
    | cons _ _ => simp [fitSlots] at hus
  · rintro ⟨u, rfl, hu⟩
    exact ⟨u, [], rfl, hu, rfl⟩

/-! ## What fits each schema -/

section Schemas

variable {t : Tree}

theorem fits_flag_iff : t.fits .flag = true ↔ ∃ b, t = flag b := by
  cases t <;> simp [fits]

theorem fits_character_iff : t.fits .character = true ↔ ∃ code, t = character code := by
  cases t <;> simp [fits]

theorem fits_index_iff : t.fits .index = true ↔ ∃ n, t = number n ∧ n < UInt64.size := by
  cases t <;> simp [fits]

theorem fits_natural_iff : t.fits .natural = true ↔ ∃ n, t = number n := by
  cases t <;> simp [fits]

theorem fits_string_iff : t.fits .string = true ↔ ∃ s, t = string s := by
  cases t <;> simp [fits]

theorem fits_name_iff : t.fits .name = true ↔ ∃ s, t = string s ∧ Identifier.isValid s = true := by
  cases t <;> simp [fits]

theorem fits_operator_iff {place : Operator.Place} :
    t.fits (.operator place) = true ↔ ∃ o, t = operator o ∧ o.place = place := by
  cases t <;> simp [fits]

theorem fits_kind_iff {k : Kind} :
    t.fits (.kind k) = true ↔ ∃ ts, t = form k ts ∧ fitSlots ts k.slots = true := by
  cases t with
  | form l ts =>
      simp only [fits, Bool.and_eq_true, beq_iff_eq, form.injEq]
      constructor
      · rintro ⟨rfl, hts⟩
        exact ⟨ts, ⟨rfl, rfl⟩, hts⟩
      · rintro ⟨us, ⟨rfl, rfl⟩, hus⟩
        exact ⟨rfl, hus⟩
  | _ => simp [fits]

theorem fits_family_iff {f : Family} :
    t.fits (.family f) = true ↔ ∃ k : Kind, k.family? = some f ∧ t.fits (.kind k) = true := by
  cases t with
  | form l ts =>
      simp only [fits, Bool.and_eq_true, beq_iff_eq]
      constructor
      · rintro ⟨hf, hts⟩
        exact ⟨l, hf, rfl, hts⟩
      · rintro ⟨k, hf, rfl, hts⟩
        exact ⟨hf, hts⟩
  | _ => simp [fits]

theorem fits_node_iff : t.fits .node = true ↔ ∃ k : Kind, t.fits (.kind k) = true := by
  cases t <;> simp [fits]

theorem fits_option_iff {s : Schema} :
    t.fits (.option s) = true ↔ t = absent ∨ ∃ u, t = present u ∧ u.fits s = true := by
  cases t <;> simp [fits]

theorem fits_sequence_iff {s : Schema} :
    t.fits (.sequence s) = true ↔ ∃ ts, t = sequence ts ∧ fitAll ts s = true := by
  cases t <;> simp [fits]

end Schemas

/-! ## Induction over the parts of a tree -/

/-- The trees that a tree is made of. -/
def parts : Tree → List Tree
  | form _ ts => ts
  | present t => [t]
  | sequence ts => ts
  | _ => []

mutual

/-- What holds of a tree as soon as it holds of the parts of the tree holds of every tree. -/
theorem parts_induction {P : Tree → Prop} (step : ∀ t : Tree, (∀ u ∈ t.parts, P u) → P t) :
    (t : Tree) → P t
  | flag _ | character _ | number _ | string _ | operator _ | absent =>
      step _ fun _ hu => by simp [parts] at hu
  | form k ts => step (form k ts) (parts_induction_list step ts)
  | present t => step (present t) fun u hu => by
      have h : u = t := by simpa [parts] using hu
      rw [h]
      exact parts_induction step t
  | sequence ts => step (sequence ts) (parts_induction_list step ts)

theorem parts_induction_list {P : Tree → Prop}
    (step : ∀ t : Tree, (∀ u ∈ t.parts, P u) → P t) : (ts : List Tree) → ∀ t ∈ ts, P t
  | [] => fun _ ht => by simp at ht
  | t :: ts => fun u hu => by
      rcases List.mem_cons.mp hu with h | h
      · rw [h]
        exact parts_induction step t
      · exact parts_induction_list step ts u h

end

end Tree

/-! ## Clear schemas -/

namespace Schema

/-- Whether `NIL` stands for something in places of a schema. -/
def readsNil : Schema → Bool
  | flag | option _ => true
  | _ => false

/-- Whether no option in a schema is of something that `NIL` stands for. -/
def isClear : Schema → Bool
  | option s => !s.readsNil && s.isClear
  | sequence s => s.isClear
  | _ => true

/-- Whether a schema is of nodes or operators: a kind, a family, any node, or an operator. -/
def isNodeType : Schema → Bool
  | operator _ | kind _ | family _ | node => true
  | _ => false

theorem isClear_of_isNodeType {s : Schema} (h : s.isNodeType = true) : s.isClear = true := by
  cases s <;> simp_all [isNodeType, isClear]

end Schema

theorem Kind.isClear_slot (k : Kind) : (k.slots.all fun slot => slot.schema.isClear) = true := by
  cases k <;> rfl

end MakerForms
