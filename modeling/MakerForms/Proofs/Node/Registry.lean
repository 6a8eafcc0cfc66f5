import MakerForms.Proofs.Node.Decoding

set_option autoImplicit false

/-! # The registry of decoders

Nodes can be decoded without knowing in advance what kind they are. For this the decoders of all
kinds are filed under the symbols of their makers, first those of the families one after another
and then those of the kinds of no family (`Registry.full`). Which decoder a form gets is decided by
its head alone (`Registry.build`), and what comes out is wrapped for the place it belongs to.

Filing a decoder for one kind changes nothing for others, since makers tell kinds apart
(`Registry.Files.insert`). So behind all filings each maker has the decoder of its own kind
(`Registry.decoder?_full`), and decoding through the registry agrees with decoding that knows the
kind or the family (`Registry.build_agrees`).
-/

namespace MakerForms

/-! ## Filing decoders -/

/-- A tree that is wrapped for a place: that of a family, or of a kind of no family. -/
structure Wrapped where
  place : Schema
  tree : Tree
deriving DecidableEq, Repr

/-- Decoders of nodes, each filed under a symbol. -/
structure Registry where
  decoder? : Symbol → Option (Value → Except DecodeError Wrapped)

/-- The decoders of the kinds of a family, each with the maker of its kind. -/
def Family.decoders (f : Family) : List (String × (Value → Except DecodeError Tree)) :=
  f.kinds.map fun k => (k.maker, fun v => v.decode (.kind k))

/-- The kinds of no family in their order. -/
def Kind.standalone : List Kind := Kind.all.filter (·.family? == none)

namespace Registry

def empty : Registry := ⟨fun _ => none⟩

/-- Files a decoder under a maker, in place of what is filed there. -/
def insert (r : Registry) (maker : String) (decode : Value → Except DecodeError Wrapped) :
    Registry :=
  ⟨fun s => if s = Symbol.maker maker then some decode else r.decoder? s⟩

/-- Files the decoder of a kind of no family. -/
def register (r : Registry) (k : Kind) : Registry :=
  r.insert k.maker fun v => (v.decode (.kind k)).map (Wrapped.mk (.kind k))

/-- Files the decoders of a family. -/
def registerFamily (r : Registry) (f : Family) : Registry :=
  f.decoders.foldl (fun r (maker, decode) =>
    r.insert maker fun v => (decode v).map (Wrapped.mk (.family f))) r

/-- The registry of all kinds. -/
def full : Registry := Kind.standalone.foldl register (Family.all.foldl registerFamily empty)

/-- Whether a decoder is filed under a symbol. -/
def contains (r : Registry) (s : Symbol) : Bool := (r.decoder? s).isSome

/-- Decodes a form with the decoder that is filed under its head. -/
def build (r : Registry) (v : Value) : Except DecodeError Wrapped :=
  match v.head? with
  | none => .error (.shape "node" (.notForm v))
  | some head =>
    match r.decoder? head with
    | none => .error (.unknownMaker head)
    | some decode => decode v

end Registry

/-! ## What is filed -/

/-- Decodes a value as a node of a kind, and wraps it for its place. -/
def Kind.wrapDecoder (k : Kind) (v : Value) : Except DecodeError Wrapped :=
  (v.decode (.kind k)).map (Wrapped.mk k.placeSchema)

theorem Family.mem_all (f : Family) : f ∈ Family.all := by
  cases f <;> decide

theorem Family.mem_kinds_iff {f : Family} {k : Kind} : k ∈ f.kinds ↔ k.family? = some f := by
  simp [kinds, k.mem_all]

theorem Kind.mem_standalone_iff {k : Kind} : k ∈ Kind.standalone ↔ k.family? = none := by
  simp [standalone, k.mem_all]

theorem Kind.placeSchema_eq_family_iff {k : Kind} {f : Family} :
    k.placeSchema = .family f ↔ k.family? = some f := by
  unfold placeSchema
  cases k.family? <;> simp

namespace Registry

/-- Whether a registry has the decoders of certain kinds under their makers, and nothing else. -/
def Files (r : Registry) (P : Kind → Prop) : Prop :=
  ∀ s decode, r.decoder? s = some decode ↔
    ∃ k, P k ∧ s = Symbol.maker k.maker ∧ decode = k.wrapDecoder

theorem files_empty : empty.Files fun _ => False := by
  intro s decode
  simp [empty]

section Filing

variable {r : Registry} {P : Kind → Prop}

theorem Files.congr {Q : Kind → Prop} (h : r.Files P) (hPQ : ∀ k, P k ↔ Q k) : r.Files Q := by
  have hP : P = Q := funext fun k => propext (hPQ k)
  rwa [hP] at h

/-- Filing the decoder of one more kind keeps those of the others. -/
theorem Files.insert (h : r.Files P) (k : Kind) :
    (r.insert k.maker k.wrapDecoder).Files fun l => l = k ∨ P l := by
  intro s decode
  by_cases hs : s = Symbol.maker k.maker
  · have hfound : (r.insert k.maker k.wrapDecoder).decoder? s = some k.wrapDecoder := if_pos hs
    rw [hfound]
    constructor
    · intro hdecode
      exact ⟨k, Or.inl rfl, hs, (Option.some.inj hdecode).symm⟩
    · rintro ⟨l, -, hl, rfl⟩
      have hmaker : k.maker = l.maker := congrArg Symbol.name (hs.symm.trans hl)
      rw [Kind.maker_inj hmaker]
  · have hfound : (r.insert k.maker k.wrapDecoder).decoder? s = r.decoder? s := if_neg hs
    rw [hfound, h s decode]
    constructor
    · rintro ⟨l, hl, hsl, hdecode⟩
      exact ⟨l, Or.inr hl, hsl, hdecode⟩
    · rintro ⟨l, rfl | hl, hsl, hdecode⟩
      · exact absurd hsl hs
      · exact ⟨l, hl, hsl, hdecode⟩

/-- A decoder of a kind is filed as it should be if it wraps for the place of the kind. -/
theorem Files.insert_of_place (h : r.Files P) {k : Kind} {place : Schema}
    (hplace : k.placeSchema = place) :
    (r.insert k.maker fun v => (v.decode (.kind k)).map (Wrapped.mk place)).Files
      fun l => l = k ∨ P l := by
  subst hplace
  exact h.insert k

/-- Filing many things one after another adds the kinds of all of them. -/
theorem Files.foldl {α : Type} {file : Registry → α → Registry} {new : α → Kind → Prop}
    {as : List α}
    (hfile : ∀ a ∈ as, ∀ r P, Files r P → (file r a).Files fun k => new a k ∨ P k)
    (h : r.Files P) : (as.foldl file r).Files fun k => (∃ a ∈ as, new a k) ∨ P k := by
  induction as generalizing r P with
  | nil => exact h.congr (by simp)
  | cons a as ih =>
      have hfirst := hfile a List.mem_cons_self r P h
      have hrest := ih (fun b hb => hfile b (List.mem_cons_of_mem a hb)) hfirst
      refine hrest.congr fun k => ?_
      have hcons : (∃ b ∈ a :: as, new b k) ↔ new a k ∨ ∃ b ∈ as, new b k := by simp
      rw [hcons, or_left_comm, or_assoc]

theorem Files.register (h : r.Files P) {k : Kind} (hk : k.family? = none) :
    (r.register k).Files fun l => l = k ∨ P l := by
  have hplace : k.placeSchema = .kind k := by rw [Kind.placeSchema, hk]
  exact h.insert_of_place hplace

theorem Files.registerFamily (h : r.Files P) (f : Family) :
    (r.registerFamily f).Files fun k => k.family? = some f ∨ P k := by
  rw [Registry.registerFamily, Family.decoders, List.foldl_map]
  have hfile : ∀ k ∈ f.kinds, ∀ (r : Registry) (P : Kind → Prop), r.Files P →
      (r.insert k.maker fun v => (v.decode (.kind k)).map (Wrapped.mk (.family f))).Files
        fun l => l = k ∨ P l := by
    intro k hk r P h
    exact h.insert_of_place (Kind.placeSchema_eq_family_iff.mpr (Family.mem_kinds_iff.mp hk))
  refine (Files.foldl hfile h).congr fun k => ?_
  simp [Family.mem_kinds_iff]

end Filing

/-- The registry has the decoder of every kind under its maker, and nothing else. -/
theorem files_full : full.Files fun _ => True := by
  have hfamilies : (Family.all.foldl registerFamily empty).Files
      fun k => (∃ f ∈ Family.all, k.family? = some f) ∨ False :=
    Files.foldl (fun f _ _ _ h => h.registerFamily f) files_empty
  have hall : full.Files fun k => (∃ l ∈ Kind.standalone, k = l) ∨
      (∃ f ∈ Family.all, k.family? = some f) ∨ False :=
    Files.foldl (fun _ hk _ _ h => h.register (Kind.mem_standalone_iff.mp hk)) hfamilies
  refine hall.congr fun k => ?_
  cases hfamily : k.family? with
  | none => simp [Kind.mem_standalone_iff, hfamily]
  | some f => simp [f.mem_all]

theorem decoder?_full (s : Symbol) : full.decoder? s = (Kind.ofSymbol? s).map Kind.wrapDecoder := by
  apply Option.ext
  intro decode
  rw [files_full s decode, Option.map_eq_some_iff]
  constructor
  · rintro ⟨k, -, hs, hdecode⟩
    exact ⟨k, Kind.ofSymbol?_eq_some_iff.mpr hs, hdecode.symm⟩
  · rintro ⟨k, hk, hdecode⟩
    exact ⟨k, trivial, Kind.ofSymbol?_eq_some_iff.mp hk, hdecode.symm⟩

theorem contains_full_iff {s : Symbol} : full.contains s = true ↔ s ∈ makerSymbols := by
  rw [contains, Option.isSome_iff_exists, makerSymbols, List.mem_map]
  constructor
  · rintro ⟨decode, hdecode⟩
    obtain ⟨k, -, hs, -⟩ := (files_full s decode).mp hdecode
    exact ⟨k, k.mem_all, hs.symm⟩
  · rintro ⟨k, -, hs⟩
    exact ⟨k.wrapDecoder, (files_full s _).mpr ⟨k, trivial, hs.symm, rfl⟩⟩

/-! ## What is built -/

section Building

variable {v : Value} {n : Wrapped} {k : Kind}

/-- A form of the maker of a kind is decoded as a node of the kind. -/
theorem build_of_head (h : v.head? = some (Symbol.maker k.maker)) :
    full.build v = (v.decode (.kind k)).map (Wrapped.mk k.placeSchema) := by
  have hfound : full.decoder? (Symbol.maker k.maker) = some k.wrapDecoder :=
    (files_full _ _).mpr ⟨k, trivial, rfl, rfl⟩
  simp only [build, h, hfound]
  rfl

/-- What is built is a node of the kind whose maker the head is, wrapped for its place. -/
theorem exists_kind_of_build (h : full.build v = .ok n) :
    ∃ k : Kind, v.head? = some (Symbol.maker k.maker) ∧ n.place = k.placeSchema ∧
      v.decode (.kind k) = .ok n.tree := by
  cases hhead : v.head? with
  | none =>
      simp only [build, hhead] at h
      cases h
  | some head =>
      cases hfound : full.decoder? head with
      | none =>
          simp only [build, hhead, hfound] at h
          cases h
      | some decode =>
          obtain ⟨k, -, rfl, -⟩ := (files_full head decode).mp hfound
          rw [build_of_head hhead] at h
          obtain ⟨t, ht, rfl⟩ := map_eq_ok_iff.mp h
          exact ⟨k, rfl, rfl, ht⟩

end Building

/-- What is built is what the value means as a node of any kind, wrapped for the place of the kind
that it turns out to be. -/
theorem build_eq_decodeNode (v : Value) :
    full.build v = (decodeNode v v.arguments).map fun (k, slots) =>
      ⟨k.placeSchema, .form k slots⟩ := by
  cases hhead : v.head? with
  | none =>
      have hnode : decodeNode v v.arguments = .error (.shape "node" (.notForm v)) := by
        rw [decodeNode, hhead]
      rw [build, hhead, hnode]
      rfl
  | some head =>
      cases hkind : Kind.ofSymbol? head with
      | none =>
          have hfound : full.decoder? head = none := by rw [decoder?_full, hkind, Option.map_none]
          have hnode : decodeNode v v.arguments = .error (.unknownMaker head) := by
            rw [decodeNode, hhead]
            simp only [hkind]
          rw [hnode, build, hhead]
          simp only [hfound]
          rfl
      | some k =>
          obtain rfl := Kind.ofSymbol?_eq_some_iff.mp hkind
          have hnode : decodeNode v v.arguments
              = (decodeSlots k v v.arguments).map fun slots => (k, slots) := by
            rw [decodeNode, hhead]
            simp only [hkind]
          rw [hnode, build_of_head hhead, Value.decode_eq, decodeWith]
          cases decodeSlots k v v.arguments <;> rfl

/-- Without what it is wrapped for, what is built is what the value means as a node of any
kind. -/
theorem tree_of_build (v : Value) : (full.build v).map Wrapped.tree = v.decode .node := by
  rw [build_eq_decodeNode, Value.decode_eq, decodeWith]
  cases decodeNode v v.arguments <;> rfl

theorem head_of_decode_kind {v : Value} {k : Kind} {t : Tree} (h : v.decode (.kind k) = .ok t) :
    v.head? = some (Symbol.maker k.maker) ∧ ∃ ts, t = .form k ts := by
  obtain ⟨args, ts, -, rfl, rfl⟩ := Value.decode_kind_eq_ok_iff.mp h
  exact ⟨rfl, ts, rfl⟩

theorem decode_kind_eq_ok_iff_build {v : Value} {k : Kind} {t : Tree} :
    v.decode (.kind k) = .ok t ↔ full.build v = .ok ⟨k.placeSchema, t⟩ ∧ t.kind? = some k := by
  constructor
  · intro h
    obtain ⟨hhead, ts, rfl⟩ := head_of_decode_kind h
    refine ⟨?_, rfl⟩
    rw [build_of_head hhead, h]
    rfl
  · rintro ⟨hbuild, hkind⟩
    obtain ⟨l, -, -, hl⟩ := exists_kind_of_build hbuild
    obtain ⟨-, ts, ht⟩ := head_of_decode_kind hl
    have hlk : l = k := by
      apply Option.some.inj
      calc some l = (Tree.form l ts).kind? := rfl
        _ = t.kind? := congrArg Tree.kind? ht.symm
        _ = some k := hkind
    rwa [hlk] at hl

theorem decode_family_eq_ok_iff_build {v : Value} {f : Family} {t : Tree} :
    v.decode (.family f) = .ok t ↔ full.build v = .ok ⟨.family f, t⟩ := by
  rw [Value.decode_family_eq_ok_iff]
  constructor
  · rintro ⟨k, hfamily, hk⟩
    rw [← Kind.placeSchema_eq_family_iff.mpr hfamily]
    exact (decode_kind_eq_ok_iff_build.mp hk).1
  · intro hbuild
    obtain ⟨k, -, hplace, hk⟩ := exists_kind_of_build hbuild
    exact ⟨k, Kind.placeSchema_eq_family_iff.mp hplace.symm, hk⟩

/-- A node of a family is refused for what its kind's decoder finds. -/
theorem decode_family_eq_error_iff {v : Value} {k : Kind} {f : Family} {e : DecodeError}
    (h : v.head? = some (Symbol.maker k.maker)) (hfamily : k.family? = some f) :
    v.decode (.family f) = .error e ↔ v.decode (.kind k) = .error e := by
  have hkind : Kind.ofSymbol? (Symbol.maker k.maker) = some k :=
    Kind.ofSymbol?_eq_some_iff.mpr rfl
  rw [Value.decode_eq, Value.decode_eq, decodeWith, decodeWith, decodeNode]
  simp only [h, hkind]
  rw [map_eq_error_iff, bind_eq_error_iff, map_eq_error_iff]
  constructor
  · rintro (he | ⟨⟨l, ts⟩, hts, he⟩)
    · exact he
    · obtain ⟨slots, -, hl⟩ := map_eq_ok_iff.mp hts
      obtain ⟨rfl, -⟩ := Prod.mk.inj hl
      simp only [hfamily, if_true] at he
      cases he
  · intro he
    exact Or.inl he

/-- **Decoding through the registry agrees with direct decoding.** A value decodes as a node of a
kind, or of a family, exactly if the registry builds that node and wraps it for the place of the
kind, or for the family. For a form of the maker of a kind, the decoder of the kind, that of its
family and the registry report the same error. What the registry builds has the maker that the
head of the value names, and that maker is registered. -/
theorem build_agrees_with_decode (v : Value) :
    (∀ (k : Kind) (t : Tree), v.decode (.kind k) = .ok t ↔
      full.build v = .ok ⟨k.placeSchema, t⟩ ∧ t.kind? = some k) ∧
    (∀ (f : Family) (t : Tree), v.decode (.family f) = .ok t ↔
      full.build v = .ok ⟨.family f, t⟩) ∧
    (∀ k : Kind, v.head? = some (Symbol.maker k.maker) → ∀ e : DecodeError,
      (v.decode (.kind k) = .error e ↔ full.build v = .error e) ∧
      ∀ f : Family, k.family? = some f →
        (v.decode (.family f) = .error e ↔ full.build v = .error e)) ∧
    (∀ n : Wrapped, full.build v = .ok n → ∃ maker : String, n.tree.maker? = some maker ∧
      v.head? = some (Symbol.maker maker) ∧ full.contains (Symbol.maker maker) = true ∧
      Symbol.maker maker ∈ makerSymbols) ∧
    (full.build v).map Wrapped.tree = v.decode .node := by
  refine ⟨fun k t => decode_kind_eq_ok_iff_build, fun f t => decode_family_eq_ok_iff_build,
    ?_, ?_, tree_of_build v⟩
  · intro k hhead e
    have hkind : v.decode (.kind k) = .error e ↔ full.build v = .error e := by
      rw [build_of_head hhead, map_eq_error_iff]
    exact ⟨hkind, fun f hfamily => (decode_family_eq_error_iff hhead hfamily).trans hkind⟩
  · intro n hn
    obtain ⟨k, hhead, -, hk⟩ := exists_kind_of_build hn
    obtain ⟨-, ts, htree⟩ := head_of_decode_kind hk
    have hmem : Symbol.maker k.maker ∈ makerSymbols := List.mem_map_of_mem k.mem_all
    refine ⟨k.maker, ?_, hhead, contains_full_iff.mpr hmem, hmem⟩
    rw [htree]
    rfl

/-- The form of an optional type. -/
def optionForm : Value := .form "MAKE-TYPE-OPTION" [("BASE", .form "MAKE-TYPE-INTEGER" [])]

/-- The form of a variable with a string in the place of the identifier. -/
def bareVariable : Value := .form "MAKE-EXPRESSION-VARIABLE" [("NAME", .string "x")]

theorem build_agrees_with_decode_optionForm :
    (∃ n : Wrapped, full.build optionForm = .ok n ∧
      n = ⟨.family .type, .form .typeOption [.form .typeInteger []]⟩ ∧
      optionForm.head? = some (Symbol.maker Kind.typeOption.maker)) ∧
    ∃ e : DecodeError, bareVariable.head? = some (Symbol.maker Kind.expressionVariable.maker) ∧
      bareVariable.decode (.kind .expressionVariable) = .error e ∧
      full.build bareVariable = .error e ∧
      bareVariable.decode (.family .expression) = .error e := by
  obtain ⟨hkind, -⟩ := build_agrees_with_decode optionForm
  obtain ⟨-, -, herror, -⟩ := build_agrees_with_decode bareVariable
  have hoption : optionForm.decode (.kind .typeOption)
      = .ok (.form .typeOption [.form .typeInteger []]) := by rfl
  let e : DecodeError :=
    .inSlot "MAKE-EXPRESSION-VARIABLE" "NAME" (.shape "MAKE-IDENTIFIER" (.notForm (.string "x")))
  have hvariable : bareVariable.decode (.kind .expressionVariable) = .error e := by rfl
  obtain ⟨hbuild, hfamily⟩ := herror .expressionVariable rfl e
  have hbuilt := hbuild.mp hvariable
  exact ⟨⟨_, (hkind .typeOption _).mp hoption |>.1, rfl, rfl⟩,
    e, rfl, hvariable, hbuilt, (hfamily .expression rfl).mpr hbuilt⟩

end Registry

end MakerForms
