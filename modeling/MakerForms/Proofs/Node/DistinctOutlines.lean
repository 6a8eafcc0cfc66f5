import MakerForms.Proofs.Node.Outlines
import MakerForms.Proofs.Node.Registry
import MakerForms.Proofs.Sexpr.Written

set_option autoImplicit false

/-! # Outlines tell trees apart

Two different trees that fit one place never have the same outline there
(`Tree.eq_of_outline_eq`). Like the text of a value, an outline also shows where it ends, if no
word goes on behind it (`Tree.isOutlinedApart`): strings are quoted, sequences and nodes are in
brackets, and the rest are words. What a word stands for is clear from its place: the sorts of
places, the kinds of a family and the operators of a place have different names.
-/

namespace MakerForms

/-! ## Words -/

/-- Where texts that start with words are the same, so are the words, if they end where the texts
behind them start. -/
theorem word_append_inj {run run' rest rest' : List Char} (hrun : run.all isWordChar = true)
    (hrun' : run'.all isWordChar = true) (hrest : EndsWord rest) (hrest' : EndsWord rest')
    (h : run ++ rest = run' ++ rest') : run = run' ∧ rest = rest' := by
  have hstop : ∀ {run rest : List Char}, run.all isWordChar = true → EndsWord rest →
      (run ++ rest).takeWhile isWordChar = run := by
    intro run rest hrun hrest
    have hnone : rest.takeWhile isWordChar = [] := by
      cases rest with
      | nil => rfl
      | cons c rest => exact List.takeWhile_cons_of_neg (by simp [hrest c (by simp)])
    rw [List.takeWhile_append_of_pos (List.all_eq_true.mp hrun), hnone, List.append_nil]
  have heq : run = run' := by rw [← hstop hrun hrest, h, hstop hrun' hrest']
  exact ⟨heq, List.append_cancel_left (heq ▸ h)⟩

theorem endsWord_openParen (cs : List Char) : EndsWord ("(".toList ++ cs) :=
  endsWord_cons (by decide)

theorem endsWord_closeParen (cs : List Char) : EndsWord (")".toList ++ cs) :=
  endsWord_cons (by decide)

theorem EndsWord.append {cs ds : List Char} (hcs : EndsWord cs) (hds : EndsWord ds) :
    EndsWord (cs ++ ds) := by
  cases cs with
  | nil => exact hds
  | cons c cs => exact hcs

/-- Whether a text has a first character, and it is no closing bracket. -/
def Opens (text : String) : Prop := ∃ c cs, text.toList = c :: cs ∧ c ≠ ']'

theorem IsWord.opens {a : String} (h : IsWord a) : Opens a := by
  obtain ⟨hne, hall⟩ := h
  obtain ⟨c, cs, hcs⟩ := List.exists_cons_of_ne_nil hne
  refine ⟨c, cs, hcs, ?_⟩
  rintro rfl
  exact absurd (List.all_eq_true.mp hall ']' (by simp [hcs])) (by decide)

theorem Opens.append {a : String} (h : Opens a) (b : String) : Opens (a ++ b) := by
  obtain ⟨c, cs, hcs, hc⟩ := h
  exact ⟨c, cs ++ b.toList, by rw [String.toList_append, hcs, List.cons_append], hc⟩

theorem Opens.tagged {a b : String} (h : Opens a) : Opens (tagged a b) :=
  ((h.append _).append _).append _

theorem Numeral.ofNat_inj {m n : Nat} (h : (ofNat m).toList = (ofNat n).toList) : m = n := by
  rw [ofNat, ofNat, String.toList_ofList, String.toList_ofList] at h
  have hvalue := intValue_intChars (m : Int)
  rw [show intChars (m : Int) = intChars (n : Int) from h, intValue_intChars] at hvalue
  exact (Int.ofNat.inj hvalue).symm

/-! ## Names -/

namespace Operator

/-- The characters of the name of an operator. -/
def labelSpelling (o : Operator) : { cs : List Char // String.ofList cs = o.label } := by
  cases o <;> exact ⟨_, rfl⟩

theorem label_inj {o p : Operator} (hplace : o.place = p.place) (h : o.label = p.label) : o = p :=
  eq_of_allNew labelSpelling (by cases p.place <;> decide +kernel)
    (Place.mem_operators_iff.mpr hplace) (Place.mem_operators_iff.mpr rfl) h

end Operator

/-- The name of a sort of places in outlines. -/
def Schema.label : Schema → String
  | .family f => f.label
  | .kind k => k.label
  | _ => ""

/-- The places for nodes that are not for any kind. -/
def Schema.narrowest : List Schema := Family.all.map .family ++ Kind.standalone.map .kind

def Schema.labelSpelling (s : Schema) : { cs : List Char // String.ofList cs = s.label } := by
  cases s with
  | family f => cases f <;> exact ⟨_, rfl⟩
  | kind k => cases k <;> exact ⟨_, rfl⟩
  | _ => exact ⟨[], rfl⟩

namespace Kind

theorem label_placeSchema (k : Kind) : k.placeSchema.label = k.variant := by
  unfold placeSchema variant
  cases k.family? <;> rfl

theorem placeSchema_mem_narrowest (k : Kind) : k.placeSchema ∈ Schema.narrowest := by
  unfold placeSchema Schema.narrowest
  cases hk : k.family? with
  | some f => simp [f.mem_all]
  | none => simp [mem_standalone_iff, hk]

/-- The sorts of places have different names. -/
theorem placeSchema_eq_of_variant_eq {k l : Kind} (h : k.variant = l.variant) :
    k.placeSchema = l.placeSchema :=
  eq_of_allNew Schema.labelSpelling (by decide +kernel) k.placeSchema_mem_narrowest
    l.placeSchema_mem_narrowest (by rw [label_placeSchema, label_placeSchema, h])

def placeNameSpelling (k : Kind) : { cs : List Char // String.ofList cs = k.placeName } := by
  cases k <;> exact ⟨_, rfl⟩

/-- Kinds that stand in the same places have different names there. -/
theorem eq_of_placeName_eq {k l : Kind} (hplace : k.placeSchema = l.placeSchema)
    (h : k.placeName = l.placeName) : k = l := by
  cases hk : k.family? with
  | some f =>
      have hl : l.family? = some f :=
        placeSchema_eq_family_iff.mp (hplace ▸ placeSchema_eq_family_iff.mpr hk)
      exact eq_of_allNew placeNameSpelling (by cases f <;> decide +kernel)
        (Family.mem_kinds_iff.mpr hk) (Family.mem_kinds_iff.mpr hl) h
  | none =>
      unfold placeSchema at hplace
      rw [hk] at hplace
      cases hl : l.family? with
      | some f => rw [hl] at hplace; cases hplace
      | none => rw [hl] at hplace; exact Schema.kind.inj hplace

/-! ## Nodes -/

theorem slots_of_role_constant {k : Kind} {f : Family} (h : k.spec.role = .constant f) :
    k.slots = [] := by
  cases k <;> first | rfl | cases h

/-- Whether what is shown of nodes of a kind has the same text around the slots each time. -/
def HasFrame (k : Kind) (shown : List String → String) : Prop :=
  ∃ opening closing : List Char, EndsWord closing ∧
    ∀ slots : List String, (k.slots = [] → slots = []) →
      (shown slots).toList = opening ++ ((joinTexts ", " slots).toList ++ closing)

theorem hasFrame_outlineAlone (k : Kind) : k.HasFrame k.outlineAlone := by
  unfold outlineAlone
  cases hrole : k.spec.role with
  | constant f =>
      refine ⟨k.label.toList, [], endsWord_nil, fun slots h => ?_⟩
      rw [h (slots_of_role_constant hrole)]
      simp [joinTexts]
  | _ =>
      exact ⟨k.label.toList ++ " \x7b ".toList, " \x7d".toList, endsWord_cons (by decide),
        fun slots _ => by simp only [String.toList_append, List.append_assoc]⟩

theorem HasFrame.tagged {k : Kind} {shown : List String → String} (h : k.HasFrame shown)
    (name : String) : k.HasFrame fun slots => tagged name (shown slots) := by
  obtain ⟨opening, closing, hclosing, hframe⟩ := h
  refine ⟨name.toList ++ "(".toList ++ opening, closing ++ ")".toList,
    hclosing.append (endsWord_cons (by decide)), fun slots hslots => ?_⟩
  simp only [MakerForms.tagged, String.toList_append, hframe slots hslots, List.append_assoc]

theorem hasFrame_outline (k : Kind) (s : Schema) : k.HasFrame fun slots => k.outline slots s := by
  have hfamily : k.HasFrame k.outlineInFamily := by
    unfold outlineInFamily
    split
    · exact k.hasFrame_outlineAlone.tagged _
    · exact k.hasFrame_outlineAlone
  unfold outline
  split
  · exact hfamily.tagged _
  · exact hfamily
  · exact k.hasFrame_outlineAlone

/-- An outline of a node in the narrowest place starts with what the kind is called there. -/
theorem exists_outlineInFamily_eq (k : Kind) (slots : List String) :
    ∃ behind : List Char, EndsWord behind ∧
      (k.outlineInFamily slots).toList = k.placeName.toList ++ behind := by
  unfold outlineInFamily placeName outlineAlone tagged
  cases hrole : k.spec.role with
  | constant f => exact ⟨[], endsWord_nil, by simp⟩
  | _ =>
    simp only [String.toList_append, List.append_assoc]
    exact ⟨_, endsWord_cons (by decide), rfl⟩

theorem opens_outline (k : Kind) (slots : List String) (s : Schema) :
    Opens (k.outline slots s) := by
  have halone : Opens (k.outlineAlone slots) := by
    unfold outlineAlone
    split
    · exact k.isWord_label.opens
    · exact ((k.isWord_label.opens.append _).append _).append _
  have hfamily : Opens (k.outlineInFamily slots) := by
    obtain ⟨behind, -, hbehind⟩ := k.exists_outlineInFamily_eq slots
    obtain ⟨c, cs, hcs, hc⟩ := k.isWord_placeName.opens
    exact ⟨c, cs ++ behind, by rw [hbehind, hcs, List.cons_append], hc⟩
  unfold outline
  split
  · exact k.isWord_variant.opens.tagged
  · exact hfamily
  · exact halone

end Kind

/-! ## Lists -/

theorem toList_joinTexts_cons (separator a : String) (texts : List String) :
    (joinTexts separator (a :: texts)).toList
      = a.toList ++ texts.flatMap fun b => separator.toList ++ b.toList := by
  induction texts generalizing a with
  | nil => simp [joinTexts]
  | cons b texts ih =>
      rw [joinTexts, String.toList_append, String.toList_append, ih, List.flatMap_cons,
        List.append_assoc, List.append_assoc]

/-- What stands behind a separator, in front of another text. -/
def separated (texts : List String) (rest : List Char) : List Char :=
  (texts.flatMap fun a => ", ".toList ++ a.toList) ++ rest

theorem separated_cons (a : String) (texts : List String) (rest : List Char) :
    separated (a :: texts) rest = ',' :: ' ' :: (a.toList ++ separated texts rest) := by
  rw [separated, List.flatMap_cons, List.append_assoc, List.append_assoc]
  rfl

theorem endsWord_separated {texts : List String} {rest : List Char} (h : EndsWord rest) :
    EndsWord (separated texts rest) := by
  cases texts with
  | nil => exact h
  | cons a texts =>
      rw [separated_cons]
      exact endsWord_cons (by decide)

/-- Joined texts that are the same with what stands behind them still are behind a separator. -/
theorem separated_eq_of_joinTexts {texts texts' : List String} {rest rest' : List Char}
    (hempty : texts = [] ↔ texts' = [])
    (h : (joinTexts ", " texts).toList ++ rest = (joinTexts ", " texts').toList ++ rest') :
    separated texts rest = separated texts' rest' := by
  have hcons : ∀ (a : String) (texts : List String) (rest : List Char),
      separated (a :: texts) rest
        = ", ".toList ++ ((joinTexts ", " (a :: texts)).toList ++ rest) := by
    intro a texts rest
    rw [toList_joinTexts_cons, separated, List.flatMap_cons, List.append_assoc, List.append_assoc,
      List.append_assoc]
  cases texts with
  | nil =>
      obtain rfl := hempty.mp rfl
      exact h
  | cons a texts =>
      cases texts' with
      | nil => exact absurd (hempty.mpr rfl) (List.cons_ne_nil a texts)
      | cons b texts' => rw [hcons, hcons, h]

namespace Tree

/-- Whether a text that starts with the outline of a tree in a place starts with that of no other
tree, where no word goes on behind the outlines. -/
def IsOutlinedApart (t : Tree) (s : Schema) : Prop :=
  t.fits s = true → ∀ {u : Tree} {rest rest' : List Char}, u.fits s = true → EndsWord rest →
    EndsWord rest' → (t.outline s).toList ++ rest = (u.outline s).toList ++ rest' →
    t = u ∧ rest = rest'

theorem outlineSlots_eq_nil_iff {ts : List Tree} {slots : List Slot}
    (h : fitSlots ts slots = true) : outlineSlots slots ts = [] ↔ slots = [] := by
  cases slots with
  | nil => cases ts <;> simp [outlineSlots]
  | cons slot slots =>
      obtain ⟨t, ts, rfl, -, -⟩ := fitSlots_cons_iff.mp h
      simp [outlineSlots]

/-- No outline starts like what closes a list. -/
theorem opens_outline (t : Tree) (s : Schema) : Opens (t.outline s) := by
  cases t with
  | flag b =>
      rw [outline]
      split <;> exact IsWord.opens (by decide)
  | character code => exact (Numeral.isWord_ofNat code.toNat).opens
  | number n => exact (Numeral.isWord_ofNat n).opens
  | string text => exact ⟨_, _, String.toList_ofList, by decide⟩
  | operator o => exact o.isWord_label.opens
  | form k ts => exact k.opens_outline _ s
  | absent =>
      rw [outline]
      exact IsWord.opens (by decide)
  | present t =>
      rw [outline]
      exact Opens.tagged (IsWord.opens (by decide))
  | sequence ts =>
      have hbracket : Opens "[" := ⟨'[', [], by decide, by decide⟩
      rw [outline]
      exact (hbracket.append _).append _

theorem not_closed_joinTexts {s : Schema} (t : Tree) (ts : List Tree) {rest rest' : List Char} :
    (joinTexts ", " ((t :: ts).map (outline s))).toList ++ rest ≠ ']' :: rest' := by
  obtain ⟨c, cs, hcs, hc⟩ := t.opens_outline s
  rw [List.map_cons, toList_joinTexts_cons, hcs]
  exact fun h => hc (List.cons.inj h).1

section Lists

variable {ts us : List Tree} {rest rest' : List Char}

theorem separated_outlineSlots_inj {slots : List Slot}
    (hapart : ∀ t ∈ ts, ∀ s, t.IsOutlinedApart s) (hts : fitSlots ts slots = true)
    (hus : fitSlots us slots = true) (hrest : EndsWord rest) (hrest' : EndsWord rest')
    (h : separated (outlineSlots slots ts) rest = separated (outlineSlots slots us) rest') :
    ts = us ∧ rest = rest' := by
  induction slots generalizing ts us with
  | nil =>
      obtain rfl : ts = [] := by cases ts <;> simp_all [fitSlots]
      obtain rfl : us = [] := by cases us <;> simp_all [fitSlots]
      exact ⟨rfl, h⟩
  | cons slot slots ih =>
      obtain ⟨t, ts, rfl, ht, hfits⟩ := fitSlots_cons_iff.mp hts
      obtain ⟨u, us, rfl, hu, hfits'⟩ := fitSlots_cons_iff.mp hus
      obtain ⟨hfirst, hothers⟩ := List.forall_mem_cons.mp hapart
      rw [outlineSlots, outlineSlots, separated_cons, separated_cons] at h
      simp only [String.toList_append, List.append_assoc, List.cons.injEq, true_and,
        List.append_cancel_left_eq] at h
      obtain ⟨rfl, hbehind⟩ := hfirst slot.schema ht hu (endsWord_separated hrest)
        (endsWord_separated hrest') h
      obtain ⟨rfl, rfl⟩ := ih hothers hfits hfits' hbehind
      exact ⟨rfl, rfl⟩

theorem separated_outlines_inj {s : Schema} (hapart : ∀ t ∈ ts, t.IsOutlinedApart s)
    (hts : fitAll ts s = true) (hus : fitAll us s = true)
    (h : separated (ts.map (outline s)) (']' :: rest)
      = separated (us.map (outline s)) (']' :: rest')) :
    ts = us ∧ rest = rest' := by
  have hbracket : ∀ rest : List Char, EndsWord (']' :: rest) := fun _ => endsWord_cons (by decide)
  induction ts generalizing us with
  | nil =>
      cases us with
      | nil => exact ⟨rfl, (List.cons.inj h).2⟩
      | cons u us =>
          rw [List.map_cons, separated_cons] at h
          cases h
  | cons t ts ih =>
      cases us with
      | nil =>
          rw [List.map_cons, separated_cons] at h
          cases h
      | cons u us =>
          obtain ⟨ht, hfits⟩ := Bool.and_eq_true_iff.mp hts
          obtain ⟨hu, hfits'⟩ := Bool.and_eq_true_iff.mp hus
          obtain ⟨hfirst, hothers⟩ := List.forall_mem_cons.mp hapart
          rw [List.map_cons, List.map_cons, separated_cons, separated_cons] at h
          simp only [List.cons.injEq, true_and] at h
          obtain ⟨rfl, hbehind⟩ := hfirst ht hu (endsWord_separated (hbracket rest))
            (endsWord_separated (hbracket rest')) h
          obtain ⟨rfl, rfl⟩ := ih hothers hfits hfits' hbehind
          exact ⟨rfl, rfl⟩

theorem joined_outlineSlots_inj {slots : List Slot}
    (hapart : ∀ t ∈ ts, ∀ s, t.IsOutlinedApart s) (hts : fitSlots ts slots = true)
    (hus : fitSlots us slots = true) (hrest : EndsWord rest) (hrest' : EndsWord rest')
    (h : (joinTexts ", " (outlineSlots slots ts)).toList ++ rest
      = (joinTexts ", " (outlineSlots slots us)).toList ++ rest') : ts = us ∧ rest = rest' := by
  refine separated_outlineSlots_inj hapart hts hus hrest hrest' (separated_eq_of_joinTexts ?_ h)
  rw [outlineSlots_eq_nil_iff hts, outlineSlots_eq_nil_iff hus]

theorem joined_outlines_inj {s : Schema} (hapart : ∀ t ∈ ts, t.IsOutlinedApart s)
    (hts : fitAll ts s = true) (hus : fitAll us s = true)
    (h : (joinTexts ", " (ts.map (outline s))).toList ++ ']' :: rest
      = (joinTexts ", " (us.map (outline s))).toList ++ ']' :: rest') :
    ts = us ∧ rest = rest' := by
  refine separated_outlines_inj hapart hts hus (separated_eq_of_joinTexts ?_ h)
  -- an empty list shows its closing bracket at once, and no tree starts like that
  cases ts with
  | nil =>
      cases us with
      | nil => exact Iff.rfl
      | cons u us => exact absurd h.symm (not_closed_joinTexts u us)
  | cons t ts =>
      cases us with
      | nil => exact absurd h (not_closed_joinTexts t ts)
      | cons u us => simp

end Lists

/-! ## Trees -/

section Apart

variable {k l : Kind} {ts us : List Tree} {rest rest' : List Char}

theorem flag_inj_of_outline {a b : Bool} {s : Schema} (hrest : EndsWord rest)
    (hrest' : EndsWord rest')
    (h : ((flag a).outline s).toList ++ rest = ((flag b).outline s).toList ++ rest') :
    flag a = flag b ∧ rest = rest' := by
  have hword : ∀ b : Bool, IsWord (if b then "true" else "false") := by decide
  have hdistinct : ∀ a b : Bool, (if a then "true" else "false").toList
      = (if b then "true" else "false").toList → a = b := by decide
  obtain ⟨hflags, rfl⟩ := word_append_inj (hword a).2 (hword b).2 hrest hrest' h
  rw [hdistinct a b hflags]
  exact ⟨rfl, rfl⟩

theorem number_inj_of_outline {m n : Nat} {s : Schema} (hrest : EndsWord rest)
    (hrest' : EndsWord rest')
    (h : ((number m).outline s).toList ++ rest = ((number n).outline s).toList ++ rest') :
    number m = number n ∧ rest = rest' := by
  obtain ⟨hdigits, rfl⟩ := word_append_inj (Numeral.isWord_ofNat m).2 (Numeral.isWord_ofNat n).2
    hrest hrest' h
  rw [Numeral.ofNat_inj hdigits]
  exact ⟨rfl, rfl⟩

theorem string_inj_of_outline {a b : String} {s : Schema}
    (h : ((string a).outline s).toList ++ rest = ((string b).outline s).toList ++ rest') :
    string a = string b ∧ rest = rest' := by
  obtain ⟨rfl, rfl⟩ := Literal.encode_append_inj h
  exact ⟨rfl, rfl⟩

theorem absent_append_ne {s : Schema} (t : Tree) :
    (absent.outline s).toList ++ rest ≠ ((present t).outline s).toList ++ rest' := by
  rw [outline, outline, tagged, String.toList_append, String.toList_append]
  intro h
  cases (List.cons.inj h).1

/-- Nodes of one kind are told apart by their slots. -/
theorem slots_inj_of_outline {s : Schema} (hapart : ∀ t ∈ ts, ∀ s, t.IsOutlinedApart s)
    (hts : fitSlots ts k.slots = true) (hus : fitSlots us k.slots = true) (hrest : EndsWord rest)
    (hrest' : EndsWord rest')
    (h : ((form k ts).outline s).toList ++ rest = ((form k us).outline s).toList ++ rest') :
    ts = us ∧ rest = rest' := by
  obtain ⟨opening, closing, hclosing, hframe⟩ := k.hasFrame_outline s
  rw [outline, outline, hframe _ (outlineSlots_eq_nil_iff hts).mpr,
    hframe _ (outlineSlots_eq_nil_iff hus).mpr] at h
  simp only [List.append_assoc, List.append_cancel_left_eq] at h
  obtain ⟨rfl, hbehind⟩ :=
    joined_outlineSlots_inj hapart hts hus (hclosing.append hrest) (hclosing.append hrest') h
  exact ⟨rfl, List.append_cancel_left hbehind⟩

/-- In the same places kinds are told apart by what they are called there. -/
theorem kind_eq_of_outline (hplace : k.placeSchema = l.placeSchema) (hrest : EndsWord rest)
    (hrest' : EndsWord rest')
    (h : ((form k ts).outline k.placeSchema).toList ++ rest
      = ((form l us).outline l.placeSchema).toList ++ rest') : k = l := by
  rw [outline, outline, Kind.outline_placeSchema, Kind.outline_placeSchema] at h
  obtain ⟨behind, hbehind, hk⟩ := k.exists_outlineInFamily_eq (outlineSlots k.slots ts)
  obtain ⟨behind', hbehind', hl⟩ := l.exists_outlineInFamily_eq (outlineSlots l.slots us)
  rw [hk, hl, List.append_assoc, List.append_assoc] at h
  obtain ⟨hname, -⟩ := word_append_inj k.isWord_placeName.2 l.isWord_placeName.2
    (hbehind.append hrest) (hbehind'.append hrest') h
  exact Kind.eq_of_placeName_eq hplace (String.toList_inj.mp hname)

theorem kind_eq_of_outline_node
    (h : ((form k ts).outline .node).toList ++ rest = ((form l us).outline .node).toList ++ rest') :
    k = l := by
  rw [outline_node (k := k) rfl, outline_node (k := l) rfl] at h
  simp only [tagged, String.toList_append, List.append_assoc] at h
  obtain ⟨hvariant, hbehind⟩ := word_append_inj k.isWord_variant.2 l.isWord_variant.2
    (endsWord_openParen _) (endsWord_openParen _) h
  exact kind_eq_of_outline (Kind.placeSchema_eq_of_variant_eq (String.toList_inj.mp hvariant))
    (endsWord_closeParen rest) (endsWord_closeParen rest') (List.append_cancel_left hbehind)

end Apart

theorem isOutlinedApart (t : Tree) : ∀ s : Schema, t.IsOutlinedApart s := by
  induction t using parts_induction with
  | step t ih =>
  intro s ht u rest rest' hu hrest hrest' h
  cases s with
  | flag =>
      obtain ⟨a, rfl⟩ := fits_flag_iff.mp ht
      obtain ⟨b, rfl⟩ := fits_flag_iff.mp hu
      exact flag_inj_of_outline hrest hrest' h
  | character =>
      obtain ⟨code, rfl⟩ := fits_character_iff.mp ht
      obtain ⟨code', rfl⟩ := fits_character_iff.mp hu
      obtain ⟨hnumber, rfl⟩ := number_inj_of_outline (s := .natural) hrest hrest' h
      rw [UInt8.toNat_inj.mp (number.inj hnumber)]
      exact ⟨rfl, rfl⟩
  | index =>
      obtain ⟨m, rfl, -⟩ := fits_index_iff.mp ht
      obtain ⟨n, rfl, -⟩ := fits_index_iff.mp hu
      exact number_inj_of_outline hrest hrest' h
  | natural =>
      obtain ⟨m, rfl⟩ := fits_natural_iff.mp ht
      obtain ⟨n, rfl⟩ := fits_natural_iff.mp hu
      exact number_inj_of_outline hrest hrest' h
  | string =>
      obtain ⟨a, rfl⟩ := fits_string_iff.mp ht
      obtain ⟨b, rfl⟩ := fits_string_iff.mp hu
      exact string_inj_of_outline h
  | name =>
      obtain ⟨a, rfl, -⟩ := fits_name_iff.mp ht
      obtain ⟨b, rfl, -⟩ := fits_name_iff.mp hu
      exact string_inj_of_outline h
  | operator place =>
      obtain ⟨o, rfl, ho⟩ := fits_operator_iff.mp ht
      obtain ⟨p, rfl, hp⟩ := fits_operator_iff.mp hu
      obtain ⟨hlabel, rfl⟩ := word_append_inj o.isWord_label.2 p.isWord_label.2 hrest hrest' h
      rw [Operator.label_inj (ho.trans hp.symm) (String.toList_inj.mp hlabel)]
      exact ⟨rfl, rfl⟩
  | kind k =>
      obtain ⟨ts, rfl, hts⟩ := fits_kind_iff.mp ht
      obtain ⟨us, rfl, hus⟩ := fits_kind_iff.mp hu
      obtain ⟨rfl, rfl⟩ := slots_inj_of_outline ih hts hus hrest hrest' h
      exact ⟨rfl, rfl⟩
  | family f =>
      obtain ⟨k, hk, hk'⟩ := fits_family_iff.mp ht
      obtain ⟨l, hl, hl'⟩ := fits_family_iff.mp hu
      obtain ⟨ts, rfl, hts⟩ := fits_kind_iff.mp hk'
      obtain ⟨us, rfl, hus⟩ := fits_kind_iff.mp hl'
      rw [← Kind.placeSchema_eq_family_iff] at hk hl
      obtain rfl := kind_eq_of_outline (hk.trans hl.symm) hrest hrest' (by rwa [hk, hl])
      obtain ⟨rfl, rfl⟩ := slots_inj_of_outline ih hts hus hrest hrest' h
      exact ⟨rfl, rfl⟩
  | node =>
      obtain ⟨k, hk⟩ := fits_node_iff.mp ht
      obtain ⟨l, hl⟩ := fits_node_iff.mp hu
      obtain ⟨ts, rfl, hts⟩ := fits_kind_iff.mp hk
      obtain ⟨us, rfl, hus⟩ := fits_kind_iff.mp hl
      obtain rfl := kind_eq_of_outline_node h
      obtain ⟨rfl, rfl⟩ := slots_inj_of_outline ih hts hus hrest hrest' h
      exact ⟨rfl, rfl⟩
  | option s =>
      rcases fits_option_iff.mp ht with rfl | ⟨t, rfl, ht⟩ <;>
        rcases fits_option_iff.mp hu with rfl | ⟨u, rfl, hu⟩
      · exact ⟨rfl, List.append_cancel_left h⟩
      · exact absurd h (absent_append_ne u)
      · exact absurd h.symm (absent_append_ne t)
      · rw [outline, outline, tagged, tagged] at h
        simp only [String.toList_append, List.append_assoc, List.append_cancel_left_eq] at h
        obtain ⟨rfl, hbehind⟩ := ih t (by simp [parts]) s ht hu (endsWord_closeParen rest)
          (endsWord_closeParen rest') h
        exact ⟨rfl, List.append_cancel_left hbehind⟩
  | sequence s =>
      obtain ⟨ts, rfl, hts⟩ := fits_sequence_iff.mp ht
      obtain ⟨us, rfl, hus⟩ := fits_sequence_iff.mp hu
      rw [outline, outline, outlineItems_eq_map, outlineItems_eq_map] at h
      simp only [String.toList_append, List.append_assoc, List.append_cancel_left_eq] at h
      obtain ⟨rfl, rfl⟩ := joined_outlines_inj (fun t ht => ih t ht s) hts hus h
      exact ⟨rfl, rfl⟩

/-- **Outlines tell trees apart.** Two trees that fit a place and have the same outline there are
the same. -/
theorem eq_of_outline_eq {t u : Tree} {s : Schema} (ht : t.fits s = true) (hu : u.fits s = true)
    (h : t.outline s = u.outline s) : t = u :=
  (t.isOutlinedApart s ht hu endsWord_nil endsWord_nil (by rw [h])).1

end Tree

end MakerForms
