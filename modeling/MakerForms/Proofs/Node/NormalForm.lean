import MakerForms.Proofs.Node.RoundTrip
import MakerForms.Proofs.Sexpr.LayoutRead

set_option autoImplicit false

/-! # Writing is a normal form of what is read

A text can say the same in many ways: with comments, with `KEYWORD::X` for `:X`, with escapes for
characters that need none, with zeros in front of numbers. None of this is left in the value that
it reads as. A value that has been read can be written on one line or laid out in any width, and
reads back as the same value (`Value.readsBack_of_read`), although not every value does: the
symbols in it are valid, no package starts like a number and no list is headed by `CODE-CHAR`,
since none of these comes out of a text. So writing what has been read, reading it and writing it
again changes nothing.

Trees inherit this, because a value that decodes is the value of the tree that it decodes to.
-/

namespace MakerForms

namespace Value

/-- Writing a value in a certain way gives a text that reads as the value, and that is written in
the same way once it has been read. -/
structure ReadsBack (write : Value → String) (v : Value) : Prop where
  read_eq : Value.read (write v) = .ok v
  fixed : (Value.read (write v)).map write = .ok (write v)

theorem readsBack_of_tokens {write : Value → String} {v : Value} (hdepth : v.depth ≤ maxDepth)
    (h : (Scanner.ofString (write v)).tokens = v.tokens.map .ok) : v.ReadsBack write := by
  have hread : Value.read (write v) = .ok v := read_eq_ok_iff_tokens.mpr ⟨h, hdepth⟩
  exact ⟨hread, by rw [hread]; rfl⟩

/-- A value that a text reads as is read back from its text on one line and from its layouts. -/
theorem readsBack_of_read {source : String} {v : Value} (h : Value.read source = .ok v) :
    v.ReadsBack Value.text ∧ ∀ width, v.ReadsBack fun u => prettyText width [u] := by
  obtain ⟨htokens, hdepth⟩ := read_eq_ok_iff_tokens.mp h
  have hall : readAll source = .ok [v] := by
    refine readAll_eq_ok_iff_tokens.mpr ⟨?_, by simpa using hdepth⟩
    rw [htokens, joinedTokens, joinedTokens, List.append_nil]
  -- what holds of all values that a text reads as holds of the one value
  have hreadable := readable_of_readAll hall v (by simp)
  have hvalid := symbolsValid_of_readAll hall v (by simp)
  obtain ⟨hline, hlayout⟩ := tokens_text hvalid hreadable.packages hreadable.heads
  exact ⟨readsBack_of_tokens hdepth hline,
    fun width => readsBack_of_tokens hdepth (hlayout width)⟩

end Value

namespace Tree

/-- A text that reads as a tree reads as the value of the tree. -/
theorem read_eq_ok_iff {s : Schema} {source : String} {t : Tree} :
    Tree.read s source = .ok t ↔ Value.read source = .ok t.encode ∧ t.encode.decode s = .ok t := by
  unfold Tree.read
  cases hread : Value.read source with
  | error e => simp
  | ok v =>
      simp only [mapError_eq_ok_iff, Except.ok.injEq]
      constructor
      · intro h
        have hv : t.encode = v := encode_of_decode_eq_ok v s t h
        exact ⟨hv.symm, by rw [hv]; exact h⟩
      · rintro ⟨rfl, h⟩
        exact h

end Tree

/-- **Whatever is read is written in a normal form.** A value that a text reads as is read back
from its text on one line and from its layout in every width, and writing it again gives the same
text. A tree that a text reads as is written as the value that the text reads as, and is read back
from its own texts. -/
theorem read_text_of_read (source : String) :
    (∀ v, Value.read source = .ok v →
      v.ReadsBack Value.text ∧ ∀ width, v.ReadsBack fun u => Value.prettyText width [u]) ∧
    (∀ (s : Schema) (t : Tree), Tree.read s source = .ok t →
      ∃ v, Value.read source = .ok v ∧
        t.text = v.text ∧ Tree.read s t.text = .ok t ∧
        ∀ width, t.prettyText width = Value.prettyText width [v] ∧
          Tree.read s (t.prettyText width) = .ok t) := by
  refine ⟨fun v h => Value.readsBack_of_read h, fun s t h => ?_⟩
  obtain ⟨hread, hdecode⟩ := Tree.read_eq_ok_iff.mp h
  obtain ⟨hline, hlayout⟩ := Value.readsBack_of_read hread
  refine ⟨t.encode, hread, rfl, ?_, fun width => ⟨rfl, ?_⟩⟩
  · exact Tree.read_eq_ok_iff.mpr ⟨hline.read_eq, hdecode⟩
  · exact Tree.read_eq_ok_iff.mpr ⟨(hlayout width).read_eq, hdecode⟩

/-- A literal with a comment in front, a keyword that is written with its package, and escapes. -/
def handwrittenLiteral : String :=
  "; by hand\n( SYNTHETO::MAKE-LITERAL-STRING KEYWORD::VALUE \"a\\u00ff\\n\" ) "

theorem read_text_of_read_handwrittenLiteral :
    ∃ v t, Value.read handwrittenLiteral = .ok v ∧ v.ReadsBack Value.text ∧
      Tree.read (.family .literal) handwrittenLiteral = .ok t ∧ t.text = v.text ∧
      Tree.read (.family .literal) t.text = .ok t := by
  have htree : Tree.read (.family .literal) handwrittenLiteral
      = .ok (.form .literalString [.string "aÿ\n"]) := by
    decide +kernel
  obtain ⟨hvalues, htrees⟩ := read_text_of_read handwrittenLiteral
  obtain ⟨v, hread, htext, hback, -⟩ := htrees _ _ htree
  exact ⟨v, _, hread, (hvalues v hread).1, htree, htext, hback⟩

end MakerForms
