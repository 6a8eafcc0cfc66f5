import MakerForms.Proofs.Node.RoundTrip
import MakerForms.Proofs.Sexpr.LayoutRead

set_option autoImplicit false

/-! # Trees as text and back

The value of a tree is made up of the symbols of makers and keywords, of `LIST`, `T` and `NIL`, and
of leaves. All of these are written as they are read: their names are valid, no package starts
like a number, and no list is headed by `CODE-CHAR` (`Tree.encode_plain`). So the text of a tree
has the tokens of its value, on one line and in every layout, and all that can keep it from being
read back is the limit of nesting (`Tree.read_text_iff_depth_le`).
-/

namespace MakerForms

/-! ## Names in the signature -/

theorem Kind.all_isName_spelling :
    (Kind.all.all fun k => Symbol.isName k.spelling.1) = true := by
  decide +kernel

theorem Kind.isName_maker (k : Kind) : Symbol.isName k.maker.toList = true := by
  rw [← k.spelling.2, String.toList_ofList]
  exact List.all_eq_true.mp Kind.all_isName_spelling k k.mem_all

theorem Operator.isName_maker (o : Operator) : Symbol.isName o.maker.toList = true := by
  rw [← o.spelling.2, String.toList_ofList]
  cases o <;> decide +kernel

theorem Kind.all_isName_keyword :
    (Kind.all.all fun k => k.slots.all fun slot => Symbol.isName slot.keyword.toList) = true := by
  decide +kernel

theorem Kind.isName_keyword {k : Kind} {slot : Slot} (h : slot ∈ k.slots) :
    Symbol.isName slot.keyword.toList = true := by
  have hslots := List.all_eq_true.mp Kind.all_isName_keyword k k.mem_all
  exact List.all_eq_true.mp hslots slot h

/-! ## Values that are written as they are read -/

namespace Value

/-- A value that, its items apart, is written as it is read. -/
structure Plain (v : Value) : Prop where
  symbol : v.HasValidSymbol
  package : v.HasPlainPackage
  head : v.IsNoLiteral

theorem plain_of_symbol?_eq_none {v : Value} (hsymbol : v.symbol? = none)
    (hhead : v.IsNoLiteral) : v.Plain := by
  refine ⟨?_, ?_, hhead⟩
  · simp [HasValidSymbol, hsymbol]
  · simp [HasPlainPackage, hsymbol]

theorem plain_symbol {s : Symbol} (hvalid : s.Valid) (hpackage : s.hasNumericPackage = false) :
    (symbol s).Plain := by
  refine ⟨?_, ?_, ?_⟩
  · simpa [HasValidSymbol, symbol?] using hvalid
  · simpa [HasPlainPackage, symbol?] using hpackage
  · simp [IsNoLiteral, head?]

theorem plain_keyword {name : String} (h : Symbol.isName name.toList = true) :
    (symbol (Symbol.keyword name)).Plain := by
  have hpackage : Symbol.isName Symbol.keywordPackage.toList = true := by decide +kernel
  exact plain_symbol ⟨hpackage, h⟩ rfl

theorem plain_maker {name : String} (h : Symbol.isName name.toList = true) :
    (symbol (Symbol.maker name)).Plain := by
  have hpackage : Symbol.isName makerPackage.toList = true := by decide +kernel
  exact plain_symbol ⟨hpackage, h⟩ rfl

theorem everywhere_plain_ofBool (b : Bool) : (ofBool b).Everywhere Plain := by
  cases b with
  | false =>
      have hnil : (symbol Symbol.nil).Plain := plain_symbol (by decide +kernel) rfl
      exact hnil
  | true =>
      have htrue : (symbol Symbol.t).Plain := plain_symbol (by decide +kernel) rfl
      exact htrue

/-- A form whose keywords are names and whose values are plain everywhere is plain everywhere. -/
theorem everywhere_plain_form {maker : String} {args : List (String × Value)}
    (hmaker : Symbol.isName maker.toList = true)
    (hargs : ∀ arg ∈ args, Symbol.isName arg.1.toList = true ∧ arg.2.Everywhere Plain) :
    (form maker args).Everywhere Plain := by
  have hitems : EverywhereIn Plain (formArguments args) := by
    induction args with
    | nil => trivial
    | cons arg args ih =>
        obtain ⟨hname, hvalue⟩ := hargs arg (by simp)
        exact ⟨plain_keyword hname, hvalue, ih fun arg harg => hargs arg (by simp [harg])⟩
  have hhead : (form maker args).Plain := plain_of_symbol?_eq_none rfl (by
    simp [IsNoLiteral, form, head?, Symbol.maker, Symbol.qualified, Symbol.bare])
  exact ⟨hhead, plain_maker hmaker, hitems⟩

end Value

/-! ## Values of trees -/

namespace Tree

/-- What is written in the slots of a node stands behind their keywords and comes from its parts. -/
theorem exists_of_mem_encodeSlots {slots : List Slot} {ts : List Tree} {arg : String × Value}
    (h : arg ∈ encodeSlots slots ts) :
    ∃ slot ∈ slots, ∃ t ∈ ts, arg = (slot.keyword, t.encode) := by
  induction ts generalizing slots with
  | nil => cases slots <;> simp [encodeSlots] at h
  | cons t ts ih =>
      cases slots with
      | nil => simp [encodeSlots] at h
      | cons slot slots =>
          rw [encodeSlots, List.mem_cons] at h
          rcases h with rfl | h
          · exact ⟨slot, by simp, t, by simp, rfl⟩
          · obtain ⟨slot', hslot', t', ht', rfl⟩ := ih h
            exact ⟨slot', by simp [hslot'], t', by simp [ht'], rfl⟩

/-- The value of a tree is written as it is read. -/
theorem encode_plain (t : Tree) : t.encode.Everywhere Value.Plain := by
  induction t using parts_induction with
  | step t ih =>
  cases t with
  | flag b =>
      rw [encode]
      exact Value.everywhere_plain_ofBool b
  | character code | number n | string s =>
      rw [encode]
      exact Value.plain_of_symbol?_eq_none rfl (by simp [Value.IsNoLiteral, Value.head?])
  | operator o =>
      rw [encode]
      exact Value.everywhere_plain_form o.isName_maker (by simp)
  | form k ts =>
      rw [encode]
      refine Value.everywhere_plain_form k.isName_maker fun arg harg => ?_
      obtain ⟨slot, hslot, t, ht, rfl⟩ := exists_of_mem_encodeSlots harg
      exact ⟨Kind.isName_keyword hslot, ih t ht⟩
  | absent =>
      rw [encode]
      exact Value.everywhere_plain_ofBool false
  | present t =>
      rw [encode]
      exact ih t (by simp [parts])
  | sequence ts =>
      have hhead : (Value.list (.symbol Symbol.list :: encodeItems ts)).Plain :=
        Value.plain_of_symbol?_eq_none rfl (by
          simp [Value.IsNoLiteral, Value.head?, Symbol.list, Symbol.bare, Symbol.codeChar])
      have hlist : (Value.symbol Symbol.list).Plain := Value.plain_symbol (by decide +kernel) rfl
      have hitems : Value.EverywhereIn Value.Plain (encodeItems ts) := by
        rw [Value.everywhereIn_iff, encodeItems_eq_map]
        intro v hv
        obtain ⟨t, ht, rfl⟩ := List.mem_map.mp hv
        exact ih t ht
      rw [encode]
      exact ⟨hhead, hlist, hitems⟩

/-! ## Texts of trees -/

/-- The text of a tree on one line and its layouts have the tokens of the value of the tree. -/
theorem tokens_text (t : Tree) :
    (Scanner.ofString t.text).tokens = t.encode.tokens.map .ok ∧
      ∀ width, (Scanner.ofString (t.prettyText width)).tokens = t.encode.tokens.map .ok := by
  have hplain := t.encode_plain
  exact Value.tokens_text (hplain.imp fun _ h => h.symbol) (hplain.imp fun _ h => h.package)
    (hplain.imp fun _ h => h.head)

/-- Whether a text of a tree reads as the tree if lists nest at most `maxDepth` deep in the value
of the tree, and is refused for its nesting otherwise. -/
structure ReadsToLimit (s : Schema) (t : Tree) (source : String) : Prop where
  ok_iff : Tree.read s source = .ok t ↔ t.encode.depth ≤ maxDepth
  error_of_lt : maxDepth < t.encode.depth →
    ∃ span, Tree.read s source = .error (.read (.malformed .nestedTooDeep span))

theorem readsToLimit_of_tokens {s : Schema} {t : Tree} {source : String}
    (hdecode : t.encode.decode s = .ok t)
    (htokens : (Scanner.ofString source).tokens = t.encode.tokens.map .ok) :
    ReadsToLimit s t source := by
  obtain ⟨hshallow, hdeep⟩ := Value.read_of_tokens htokens
  have herror : maxDepth < t.encode.depth →
      ∃ span, Tree.read s source = .error (.read (.malformed .nestedTooDeep span)) := by
    intro h
    obtain ⟨span, hread⟩ := hdeep h
    exact ⟨span, by rw [Tree.read, hread]⟩
  refine ⟨⟨fun hok => ?_, fun h => ?_⟩, herror⟩
  · by_contra hlimit
    obtain ⟨span, hread⟩ := herror (by omega)
    rw [hread] at hok
    cases hok
  · rw [Tree.read, hshallow h]
    simp only [hdecode, Except.mapError]

/-- **Trees round-trip through text up to the limit of nesting.** The text of a node is read back
as the node if and only if lists nest at most `maxDepth` deep in its value, and is refused for its
nesting otherwise; the same holds of its layout in every width. -/
theorem read_text_iff_depth_le (s : Schema) (t : Tree) (hs : s.isNodeType = true)
    (ht : t.fits s = true) :
    ReadsToLimit s t t.text ∧ ∀ width, ReadsToLimit s t (t.prettyText width) := by
  have hdecode := decode_encode_of_fits t s (Schema.isClear_of_isNodeType hs) ht
  obtain ⟨htext, hpretty⟩ := t.tokens_text
  exact ⟨readsToLimit_of_tokens hdecode htext,
    fun width => readsToLimit_of_tokens hdecode (hpretty width)⟩

/-- The literal of a truth value behind a number of negations. -/
def negations : Nat → Tree
  | 0 => .form .expressionLiteral [.form .literalBoolean [.flag true]]
  | n + 1 => .form .expressionUnary [.operator .not, negations n]

theorem fits_negations (n : Nat) : (negations n).fits (.family .expression) = true := by
  induction n with
  | zero => rfl
  | succ n ih =>
      have hslots : fitSlots [.operator .not, negations n] Kind.expressionUnary.slots = true := by
        simpa [fitSlots, Kind.slots, Kind.spec, Operator.place] using ih
      exact fits_family_iff.mpr
        ⟨.expressionUnary, rfl, fits_kind_iff.mpr ⟨_, by rw [negations], hslots⟩⟩

/-- Each negation adds a list, to the two of the literal. -/
theorem depth_encode_negations (n : Nat) : (negations n).encode.depth = n + 2 := by
  induction n with
  | zero => rfl
  | succ n ih =>
      have hencode : (negations (n + 1)).encode = .form Kind.expressionUnary.maker
          [("OPERATOR", (Tree.operator .not).encode), ("OPERAND", (negations n).encode)] := rfl
      have hoperator : (Tree.operator .not).encode.depth = 1 := rfl
      rw [hencode]
      simp only [Value.form, formArguments, Value.depth, Value.depthAll, ih, hoperator]
      omega

theorem read_text_iff_depth_le_negations :
    (Schema.family .expression).isNodeType = true ∧
      (negations 510).fits (.family .expression) = true ∧
      (negations 511).fits (.family .expression) = true ∧
      Tree.read (.family .expression) (negations 510).text = .ok (negations 510) ∧
      ∃ span, Tree.read (.family .expression) ((negations 511).prettyText 80)
        = .error (.read (.malformed .nestedTooDeep span)) := by
  have hborder := (read_text_iff_depth_le (.family .expression) (negations 510) rfl
    (fits_negations 510)).1
  have hbehind := (read_text_iff_depth_le (.family .expression) (negations 511) rfl
    (fits_negations 511)).2 80
  have hlimit : maxDepth = 512 := rfl
  refine ⟨rfl, fits_negations 510, fits_negations 511, hborder.ok_iff.mpr ?_,
    hbehind.error_of_lt ?_⟩
  · have hdepth := depth_encode_negations 510
    omega
  · have hdepth := depth_encode_negations 511
    omega

end Tree

end MakerForms
