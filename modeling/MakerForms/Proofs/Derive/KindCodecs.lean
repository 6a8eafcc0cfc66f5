import MakerForms.Proofs.Derive.Agreement
import MakerForms.Proofs.Node.TextRoundTrip

set_option autoImplicit false

/-! # The codecs of node kinds

The nodes of a kind are written and read without going through plans: `Tree.encode` and
`Value.decode` look up the slots of the kind. A kind is a record all the same, with a field for each
slot. What is decoded in a place for the kind is what the derived decoder of this record reads
(`Kind.codec_read_eq_ok_iff`), and a node is encoded as what its derived encoder writes
(`Kind.codec_write_eq`).
-/

namespace MakerForms

open Derive

namespace Kind

/-- The codecs of the record that a kind is. -/
def codec (k : Kind) : RecordCodec := ⟨k.maker, k.slots.map fun s => ⟨s.label, s.keyword⟩⟩

/-- What may stand in the fields of the record that a kind is. -/
def places (k : Kind) (label : String) : Schema :=
  ((k.slots.find? (·.label == label)).map (·.schema)).getD .node

theorem slots_codec (k : Kind) : k.codec.slots k.places = k.slots := by
  cases k <;> decide +kernel

theorem fieldsDiffer_codec (k : Kind) : k.codec.FieldsDiffer := by
  unfold RecordCodec.FieldsDiffer
  cases k <;> decide +kernel

/-- **Nodes are read by derived decoders.** What is decoded in a place for a kind is what the
derived decoder finds for the fields. -/
theorem codec_read_eq_ok_iff (k : Kind) (v : Value) (found : Found) :
    k.codec.read k.places v = .ok found ↔
      ∃ ts, v.decode (.kind k) = .ok (.form k ts) ∧
        found = (k.slots.zip ts).map fun p => (p.1.label, some p.2) := by
  have hzip : ∀ ts : List Tree, ((k.codec.fields.zip ts).map fun p => (p.1.field, some p.2))
      = (k.slots.zip ts).map fun p => (p.1.label, some p.2) := by
    intro ts
    rw [codec, List.zip_map_left, List.map_map]
    rfl
  rw [RecordCodec.read_eq_ok_iff k.fieldsDiffer_codec, slots_codec]
  simp only [Value.decode_kind_eq_ok_iff, hzip]
  constructor
  · rintro ⟨args, ts, hargs, hv, rfl⟩
    exact ⟨ts, ⟨args, ts, hargs, hv, rfl⟩, rfl⟩
  · rintro ⟨ts, ⟨args, ts', hargs, hv, hts⟩, rfl⟩
    obtain ⟨-, rfl⟩ := Tree.form.inj hts
    exact ⟨args, ts, hargs, hv, rfl⟩

/-- Slots are encoded as arguments with what is held for them. -/
theorem encodeSlots_eq_map {held : String → Value} {slots : List Slot} {ts : List Tree}
    (hlength : ts.length = slots.length)
    (hheld : ∀ p ∈ slots.zip ts, held p.1.label = p.2.encode) :
    Tree.encodeSlots slots ts = slots.map fun s => (s.keyword, held s.label) := by
  induction slots generalizing ts with
  | nil => cases ts <;> rfl
  | cons s slots ih =>
      cases ts with
      | nil => cases hlength
      | cons t ts =>
          rw [List.zip_cons_cons, List.forall_mem_cons] at hheld
          rw [Tree.encodeSlots, ih (Nat.succ.inj hlength) hheld.2, List.map_cons, hheld.1]

/-- **Nodes are written by derived encoders.** A node is encoded as what the derived encoder writes
for the fields. -/
theorem codec_write_eq (k : Kind) (ts : List Tree) (held : String → Value)
    (hlength : ts.length = k.slots.length)
    (hheld : ∀ p ∈ k.slots.zip ts, held p.1.label = p.2.encode) :
    k.codec.write held = .ok (Tree.form k ts).encode := by
  refine (k.codec.write_eq_ok_iff held _).mpr ⟨⟨k.isName_maker, ?_⟩, ?_⟩
  · intro f hf
    obtain ⟨s, hs, rfl⟩ := List.mem_map.mp hf
    exact isName_keyword hs
  · rw [Tree.encode, encodeSlots_eq_map hlength hheld, codec, List.map_map]
    rfl

end Kind

end MakerForms
