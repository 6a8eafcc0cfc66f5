import MakerForms.Proofs.Node.Registry
import MakerForms.Proofs.Node.TextRoundTrip
import MakerForms.Proofs.Sexpr.CheckedReading

set_option autoImplicit false

/-! # Decoding and encoding with all checks made

Decoding makes the symbols of makers: when the decoders of all kinds are filed, and for an error
about a node of another family. Encoding makes the symbols of makers and of keywords, and `T`, `NIL`
and `LIST`. Here these symbols are made by functions that check that the package and the name of
each are valid, instead of relying on the signature.

No check fails. So the checked decoder agrees with the decoder on all values, whatever error a
failed check would end in, the checked registry is the registry, and the checked encoder writes the
value of every tree. Together with reading (`Scanner.checkedNext_eq`, `Reader.checkedRun_eq`) this
says that no input of any sort makes a check fail (`no_check_fails`).
-/

namespace MakerForms

theorem Kind.maker?_eq (k : Kind) : Symbol.maker? k.maker = .ok (Symbol.maker k.maker) :=
  Symbol.maker?_eq_ok_iff.mpr ⟨k.isName_maker, rfl⟩

/-! ## Decoding -/

section Decoding

-- the error that a failed check ends in; no error is dropped on the way out of a decoder
variable (alarm : SymbolError → DecodeError)

/-- What `v`, whose items are `items`, means in a place of a schema. -/
def checkedDecodeWith (v : Value) (items : List Argument) : Schema → Except DecodeError Tree
  | .family f => do
    let (k, slots) ← decodeNode v items
    if k.family? = some f then return .form k slots
    else
      let found ← (Symbol.maker? k.maker).mapError alarm
      throw (.typeMismatch f.name found)
  | .option s => if v.isNil then .ok .absent else (checkedDecodeWith v items s).map .present
  | s => decodeWith v items s

mutual

/-- What a value means in a place of a schema. -/
def Value.checkedDecode : Value → Schema → Except DecodeError Tree
  | .symbol s => checkedDecodeWith alarm (.symbol s) []
  | .list items => checkedDecodeWith alarm (.list items) (checkedArguments items)
  | .integer i => checkedDecodeWith alarm (.integer i) []
  | .string s => checkedDecodeWith alarm (.string s) []
  | .character code => checkedDecodeWith alarm (.character code) []

/-- Values together with what they mean. -/
def checkedArguments : List Value → List Argument
  | [] => []
  | v :: vs => ⟨v, v.checkedDecode⟩ :: checkedArguments vs

end

theorem checkedDecodeWith_eq (v : Value) (items : List Argument) (s : Schema) :
    checkedDecodeWith alarm v items s = decodeWith v items s := by
  induction s with
  | family f =>
      rw [checkedDecodeWith, decodeWith]
      simp only [Kind.maker?_eq, mapError_ok]
      rfl
  | option s ih => rw [checkedDecodeWith, decodeWith, ih]
  | _ => rfl

theorem checkedArguments_eq {vs : List Value} (h : ∀ v ∈ vs, v.checkedDecode alarm = v.decode) :
    checkedArguments alarm vs = argumentsOf vs := by
  induction vs with
  | nil => rfl
  | cons v vs ih =>
      rw [checkedArguments, argumentsOf, h v (by simp), ih fun u hu => h u (by simp [hu])]

/-- No check fails while a value is decoded. -/
theorem Value.checkedDecode_eq (v : Value) : v.checkedDecode alarm = v.decode := by
  induction v using Value.items_induction with
  | step v ih =>
      funext s
      cases v with
      | list vs =>
          have harguments : checkedArguments alarm vs = argumentsOf vs :=
            checkedArguments_eq alarm ih
          rw [Value.checkedDecode, Value.decode, harguments, checkedDecodeWith_eq]
      | _ => exact checkedDecodeWith_eq alarm _ _ s

end Decoding

/-! ## Filing decoders -/

namespace Registry

/-- Files a decoder under the symbol of a maker. -/
def checkedInsert (r : Registry) (maker : String) (decode : Value → Except DecodeError Wrapped) :
    Except SymbolError Registry :=
  (Symbol.maker? maker).map fun symbol =>
    ⟨fun s => if s = symbol then some decode else r.decoder? s⟩

/-- Files the decoder of a kind of no family. -/
def checkedRegister (r : Registry) (k : Kind) : Except SymbolError Registry :=
  r.checkedInsert k.maker fun v => (v.decode (.kind k)).map (Wrapped.mk (.kind k))

/-- Files the decoders of a family. -/
def checkedRegisterFamily (r : Registry) (f : Family) : Except SymbolError Registry :=
  f.decoders.foldlM (fun r (maker, decode) =>
    r.checkedInsert maker fun v => (decode v).map (Wrapped.mk (.family f))) r

/-- Files the decoders of families, and then those of kinds of no family. -/
def checkedFiled (fs : List Family) (ks : List Kind) : Except SymbolError Registry := do
  let families ← fs.foldlM checkedRegisterFamily empty
  ks.foldlM checkedRegister families

/-- The registry of all kinds. -/
def checkedFull : Except SymbolError Registry := checkedFiled Family.all Kind.standalone

theorem checkedInsert_eq (r : Registry) (k : Kind)
    (decode : Value → Except DecodeError Wrapped) :
    r.checkedInsert k.maker decode = .ok (r.insert k.maker decode) := by
  rw [checkedInsert, k.maker?_eq]
  rfl

/-- Filing many things one after another succeeds if filing each of them does. -/
theorem foldlM_eq_ok {α : Type} {check : Registry → α → Except SymbolError Registry}
    {file : Registry → α → Registry} {as : List α}
    (h : ∀ a ∈ as, ∀ r, check r a = .ok (file r a)) (r : Registry) :
    as.foldlM check r = .ok (as.foldl file r) := by
  induction as generalizing r with
  | nil => rfl
  | cons a as ih =>
      rw [List.foldlM_cons, h a (by simp), List.foldl_cons]
      exact ih (fun b hb => h b (by simp [hb])) (file r a)

theorem checkedRegisterFamily_eq (r : Registry) (f : Family) :
    r.checkedRegisterFamily f = .ok (r.registerFamily f) := by
  refine foldlM_eq_ok ?_ r
  rintro ⟨maker, decode⟩ hdecoder r
  -- the makers that a family files its decoders under are those of its kinds
  obtain ⟨k, -, heq⟩ := List.mem_map.mp hdecoder
  obtain ⟨rfl, rfl⟩ := Prod.mk.inj heq
  exact r.checkedInsert_eq k _

theorem checkedRegister_eq (r : Registry) (k : Kind) :
    r.checkedRegister k = .ok (r.register k) :=
  r.checkedInsert_eq k _

theorem checkedFiled_eq (fs : List Family) (ks : List Kind) :
    checkedFiled fs ks = .ok (ks.foldl register (fs.foldl registerFamily empty)) := by
  have hfamilies : fs.foldlM checkedRegisterFamily empty
      = .ok (fs.foldl registerFamily empty) :=
    foldlM_eq_ok (fun f _ r => r.checkedRegisterFamily_eq f) empty
  rw [checkedFiled, hfamilies]
  exact foldlM_eq_ok (fun k _ r => r.checkedRegister_eq k) _

/-- No check fails while the decoders of all kinds are filed. -/
theorem checkedFull_eq : checkedFull = .ok full := checkedFiled_eq Family.all Kind.standalone

end Registry

/-! ## Encoding -/

namespace Tree

mutual

/-- The value that stands for a tree. -/
def checkedEncode : Tree → Except SymbolError Value
  | flag b => (Symbol.bare? (if b then "T" else "NIL")).map .symbol
  | character code => .ok (.character code)
  | number n => .ok (.integer n)
  | string s => .ok (.string s)
  | operator o => (Draft.start? o.maker).map Draft.finish
  | form k slots => do
    let draft ← Draft.start? k.maker
    let draft ← checkedEncodeSlots draft k.slots slots
    return draft.finish
  | absent => (Symbol.bare? "NIL").map .symbol
  | present t => t.checkedEncode
  | sequence items => do
    let head ← Symbol.bare? "LIST"
    let values ← checkedEncodeItems items
    return .list (.symbol head :: values)

/-- Writes the keywords of slots and the values that stand for what is in them. -/
def checkedEncodeSlots (draft : Draft) : List Slot → List Tree → Except SymbolError Draft
  | slot :: slots, t :: ts => do
    let v ← t.checkedEncode
    let draft ← draft.add? slot.keyword v
    checkedEncodeSlots draft slots ts
  | _, [] => .ok draft
  | [], _ => .ok draft

/-- The values that stand for trees. -/
def checkedEncodeItems : List Tree → Except SymbolError (List Value)
  | [] => .ok []
  | t :: ts => do
    let v ← t.checkedEncode
    let vs ← checkedEncodeItems ts
    return v :: vs

end

theorem checkedEncodeSlots_eq {slots : List Slot} {ts : List Tree} (draft : Draft)
    (hslots : ∀ slot ∈ slots, Symbol.isName slot.keyword.toList = true)
    (hts : ∀ t ∈ ts, t.checkedEncode = .ok t.encode) :
    checkedEncodeSlots draft slots ts
      = .ok ⟨draft.items ++ formArguments (encodeSlots slots ts)⟩ := by
  induction ts generalizing slots draft with
  | nil => cases slots <;> simp [checkedEncodeSlots, encodeSlots, formArguments]
  | cons t ts ih =>
      cases slots with
      | nil => simp [checkedEncodeSlots, encodeSlots, formArguments]
      | cons slot slots =>
          have hadd : draft.add? slot.keyword t.encode = .ok ⟨draft.items ++
              [.symbol (Symbol.keyword slot.keyword), t.encode]⟩ :=
            Draft.add?_eq_ok_iff.mpr ⟨hslots slot (by simp), rfl⟩
          have hslots' : ∀ s ∈ slots, Symbol.isName s.keyword.toList = true :=
            fun s hs => hslots s (by simp [hs])
          have hrest := ih ⟨draft.items ++ [.symbol (Symbol.keyword slot.keyword), t.encode]⟩
            hslots' fun u hu => hts u (by simp [hu])
          rw [checkedEncodeSlots, hts t (by simp)]
          simp only [bind, Except.bind, hadd, hrest, encodeSlots, formArguments,
            List.append_assoc, List.cons_append, List.nil_append]

theorem checkedEncodeItems_eq {ts : List Tree} (hts : ∀ t ∈ ts, t.checkedEncode = .ok t.encode) :
    checkedEncodeItems ts = .ok (encodeItems ts) := by
  induction ts with
  | nil => rfl
  | cons t ts ih =>
      rw [checkedEncodeItems, hts t (by simp), ih fun u hu => hts u (by simp [hu])]
      rfl

/-- No check fails while a tree is encoded. -/
theorem checkedEncode_eq (t : Tree) : t.checkedEncode = .ok t.encode := by
  have hnil : Symbol.bare? "NIL" = .ok Symbol.nil :=
    Symbol.bare?_eq_ok_iff.mpr ⟨by decide +kernel, rfl⟩
  induction t using parts_induction with
  | step t ih =>
  cases t with
  | flag b =>
      have htrue : Symbol.bare? "T" = .ok Symbol.t :=
        Symbol.bare?_eq_ok_iff.mpr ⟨by decide +kernel, rfl⟩
      cases b with
      | false => exact congrArg (Except.map Value.symbol) hnil
      | true => exact congrArg (Except.map Value.symbol) htrue
  | character code | number n | string s => rfl
  | operator o =>
      rw [checkedEncode, Draft.start?_eq_ok_iff.mpr ⟨o.isName_maker, rfl⟩]
      rfl
  | form k ts =>
      have hkeywords : ∀ slot ∈ k.slots, Symbol.isName slot.keyword.toList = true :=
        fun _ hslot => Kind.isName_keyword hslot
      have hslots : checkedEncodeSlots ⟨[.symbol (Symbol.maker k.maker)]⟩ k.slots ts = .ok _ :=
        checkedEncodeSlots_eq _ hkeywords ih
      rw [checkedEncode, Draft.start?_eq_ok_iff.mpr ⟨k.isName_maker, rfl⟩]
      simp only [bind, Except.bind, hslots]
      rfl
  | absent => exact congrArg (Except.map Value.symbol) hnil
  | present t => exact ih t (by simp [parts])
  | sequence ts =>
      have hlist : Symbol.bare? "LIST" = .ok Symbol.list :=
        Symbol.bare?_eq_ok_iff.mpr ⟨by decide +kernel, rfl⟩
      have hitems : checkedEncodeItems ts = .ok (encodeItems ts) := checkedEncodeItems_eq ih
      rw [checkedEncode, hlist, hitems]
      rfl

end Tree

/-- **No check fails.** From every place in every text the next token is found with all checks
passed, and so is whatever a run of a reader asks for; the decoders of all kinds are filed, every
value is decoded for every place, and every tree is encoded, with the outcome that they have
without the checks. -/
theorem no_check_fails :
    (∀ s : Scanner, s.checkedNext = .ok s.next) ∧
    (∀ (source : String) (operations : List Reader.Operation),
      (Reader.ofString source).checkedRun operations
        = .ok ((Reader.ofString source).run operations)) ∧
    Registry.checkedFull = .ok Registry.full ∧
    (∀ (alarm : SymbolError → DecodeError) (v : Value) (s : Schema),
      v.checkedDecode alarm s = v.decode s) ∧
    (∀ t : Tree, t.checkedEncode = .ok t.encode) := by
  refine ⟨Scanner.checkedNext_eq, ?_, Registry.checkedFull_eq, ?_, Tree.checkedEncode_eq⟩
  · intro source operations
    exact (Reader.ofString source).checkedRun_eq operations
  · intro alarm v s
    rw [v.checkedDecode_eq alarm]

end MakerForms
