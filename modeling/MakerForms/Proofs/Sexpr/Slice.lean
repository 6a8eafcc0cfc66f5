import MakerForms.Proofs.Sexpr.Tiling
import Mathlib.Data.String.Basic

set_option autoImplicit false

/-! # The text that a span covers

A span of a text covers a piece of it (`Span.slice`). Two places of a scanner in a text, one
behind the other, are the ends of a span, and what that span covers is what is read on the way
from the one to the other (`Scanner.Passes.slice_eq`).
-/

namespace MakerForms

/-- The text that a span of `source` covers. -/
def Span.slice (span : Span) (source : String) : String :=
  String.Pos.Raw.extract source ⟨span.start⟩ ⟨span.stop⟩

theorem utf8Len_eq_byteSize (cs : List Char) : String.utf8Len cs = byteSize cs :=
  (String.utf8ByteSize_ofList cs).symm.trans (utf8ByteSize_ofList cs)

/-- The span between what stands before a piece and what stands behind it covers the piece. -/
theorem Span.slice_eq {source : String} {before piece behind : List Char}
    (h : source.toList = before ++ piece ++ behind) :
    Span.slice ⟨byteSize before, byteSize (before ++ piece)⟩ source = String.ofList piece := by
  have hvalid := String.extract_of_valid before piece behind
  rw [← h, String.ofList_toList, utf8Len_eq_byteSize, utf8Len_eq_byteSize] at hvalid
  rw [slice, byteSize_append, hvalid]

namespace Scanner

/-- Whether a scanner stands in a text, with certain characters before it. -/
def IsBehind (s : Scanner) (source : String) (before : List Char) : Prop :=
  (ofString source).Passes before s

variable {source : String} {before cs : List Char} {s s' : Scanner}

theorem isBehind_ofString (source : String) : (ofString source).IsBehind source [] :=
  Passes.refl (ofString source)

theorem IsBehind.passes (h : s.IsBehind source before) (hpasses : s.Passes cs s') :
    s'.IsBehind source (before ++ cs) :=
  Passes.trans h hpasses

theorem IsBehind.toList_eq (h : s.IsBehind source before) :
    source.toList = before ++ s.rest :=
  h.rest_eq

theorem IsBehind.offset_eq (h : s.IsBehind source before) : s.offset = byteSize before := by
  have hoffset := Passes.offset_eq h
  have hstart : (ofString source).offset = 0 := rfl
  omega

/-- The text from one place of a scanner to a later one is what is read between them. -/
theorem Passes.slice_eq (hpasses : s.Passes cs s') (h : s.IsBehind source before) :
    Span.slice ⟨s.offset, s'.offset⟩ source = String.ofList cs := by
  have hstop := (h.passes hpasses).offset_eq
  have hsource : source.toList = before ++ cs ++ s'.rest := (h.passes hpasses).toList_eq
  rw [h.offset_eq, hstop, Span.slice_eq hsource]

/-- The ends of that span are ends of characters of the text. -/
theorem Passes.exists_split (hpasses : s.Passes cs s') (h : s.IsBehind source before) :
    ∃ front back : String, source = front ++ String.ofList cs ++ back ∧
      (⟨s.offset, s'.offset⟩ : Span)
        = ⟨front.utf8ByteSize, (front ++ String.ofList cs).utf8ByteSize⟩ := by
  have hbehind := h.passes hpasses
  refine ⟨String.ofList before, String.ofList s'.rest, ?_, ?_⟩
  · rw [← String.ofList_append, ← String.ofList_append, ← hbehind.toList_eq, String.ofList_toList]
  · rw [← String.ofList_append, utf8ByteSize_ofList, utf8ByteSize_ofList, h.offset_eq,
      hbehind.offset_eq]

/-- The end of the text is the same from all places in it. -/
theorem Passes.end_eq (h : s.Passes cs s') :
    s'.offset + byteSize s'.rest = s.offset + byteSize s.rest := by
  rw [h.offset_eq, h.rest_eq, byteSize_append, Nat.add_assoc]

theorem IsBehind.end_eq (h : s.IsBehind source before) :
    s.offset + byteSize s.rest = source.utf8ByteSize := by
  rw [Passes.end_eq h, utf8ByteSize_eq_byteSize]
  exact Nat.zero_add _

end Scanner

end MakerForms
