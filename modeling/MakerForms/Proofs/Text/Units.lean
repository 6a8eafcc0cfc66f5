import MakerForms.Text.Quoted

set_option autoImplicit false

/-! # Units of quoted text

The text between two quotes is made of units that stand for one character each (`Quoted.Denotes`):
plain characters, escapes of two characters, and escapes of six that name a character by its code.
A text stands for something exactly if it can be cut into units (`Quoted.resolve?_eq_some_iff`), and
then it can be cut in one way only, since the beginning of a unit tells its length
(`Quoted.texts_injective`).
-/

namespace MakerForms

namespace Quoted

/-! ## Units -/

/-- Whether a character is the hexadecimal digit for a number below sixteen, in either case. -/
def IsHexDigit (c : Char) (n : Nat) : Prop :=
  n < 16 ∧ (c = n.digitChar ∨ c = n.digitChar.toUpper)

/-- What stands for one character between quotes, with that character. -/
inductive Denotes : List Char → Char → Prop
  | plain {c : Char} : c ≠ '\\' → Denotes [c] c
  | lineFeed : Denotes ['\\', 'n'] '\n'
  | carriageReturn : Denotes ['\\', 'r'] '\r'
  | tab : Denotes ['\\', 't'] '\t'
  | quote : Denotes ['\\', '"'] '"'
  | backslash : Denotes ['\\', '\\'] '\\'
  | code {a b c d : Char} {i j k l : Nat} : IsHexDigit a i → IsHexDigit b j → IsHexDigit c k →
      IsHexDigit d l → ((i * 16 + j) * 16 + k) * 16 + l ≤ 255 →
      Denotes ['\\', 'u', a, b, c, d] (Char.ofNat (((i * 16 + j) * 16 + k) * 16 + l))

/-- A piece of a text between quotes that stands for one character. -/
structure TextUnit where
  text : List Char
  character : Char
  denotes : Denotes text character

/-- The text that units make up. -/
def texts (us : List TextUnit) : List Char := us.flatMap TextUnit.text

@[simp] theorem texts_nil : texts [] = [] := rfl

@[simp] theorem texts_cons (u : TextUnit) (us : List TextUnit) :
    texts (u :: us) = u.text ++ texts us := List.flatMap_cons

@[simp] theorem texts_append (us vs : List TextUnit) :
    texts (us ++ vs) = texts us ++ texts vs := List.flatMap_append

/-! ## Digits and codes -/

theorem isHexDigit_of_hexDigit? {c : Char} {n : Nat} (h : hexDigit? c = some n) :
    IsHexDigit c n := by
  -- digits are ASCII characters, and of these each can be looked at
  have hascii : ∀ k < 128, ∀ n ∈ hexDigit? (Char.ofNat k), n < 16 ∧
      (Char.ofNat k = n.digitChar ∨ Char.ofNat k = n.digitChar.toUpper) := by
    decide +kernel
  have hsmall : c.toNat < 128 := by
    rw [hexDigit?] at h
    split at h
    · next hc => exact Nat.lt_of_le_of_lt (show c.toNat ≤ '9'.toNat from hc.2) (by decide)
    split at h
    · next hc => exact Nat.lt_of_le_of_lt (show c.toNat ≤ 'f'.toNat from hc.2) (by decide)
    split at h
    · next hc => exact Nat.lt_of_le_of_lt (show c.toNat ≤ 'F'.toNat from hc.2) (by decide)
    · cases h
  have hc := hascii c.toNat hsmall
  rw [Char.ofNat_toNat] at hc
  exact hc n h

theorem hexDigit?_eq_some_iff {c : Char} {n : Nat} : hexDigit? c = some n ↔ IsHexDigit c n := by
  constructor
  · exact isHexDigit_of_hexDigit?
  · have hdigits : ∀ n < 16, hexDigit? n.digitChar = some n ∧
        hexDigit? n.digitChar.toUpper = some n := by decide
    rintro ⟨hn, rfl | rfl⟩
    · exact (hdigits n hn).1
    · exact (hdigits n hn).2

theorem IsHexDigit.ne_backslash {c : Char} {n : Nat} (h : IsHexDigit c n) : c ≠ '\\' := by
  rintro rfl
  cases hexDigit?_eq_some_iff.mpr h

theorem IsHexDigit.ne_quote {c : Char} {n : Nat} (h : IsHexDigit c n) : c ≠ '"' := by
  rintro rfl
  cases hexDigit?_eq_some_iff.mpr h

theorem denotes_of_named? {c x : Char} (h : named? c = some x) : Denotes ['\\', c] x := by
  rw [named?.eq_def] at h
  split at h
  · exact Option.some.inj h ▸ .lineFeed
  · exact Option.some.inj h ▸ .carriageReturn
  · exact Option.some.inj h ▸ .tab
  · exact Option.some.inj h ▸ .quote
  · exact Option.some.inj h ▸ .backslash
  · cases h

theorem denotes_of_coded? {a b c d x : Char} (h : coded? a b c d = some x) :
    Denotes ['\\', 'u', a, b, c, d] x := by
  unfold coded? at h
  split at h
  · next ha hb hc hd =>
    dsimp only at h
    split at h
    · next hsmall =>
      obtain rfl := Option.some.inj h
      exact .code (hexDigit?_eq_some_iff.mp ha) (hexDigit?_eq_some_iff.mp hb)
        (hexDigit?_eq_some_iff.mp hc) (hexDigit?_eq_some_iff.mp hd) hsmall
    · cases h
  · cases h

/-! ## A text stands for what its units stand for -/

section Resolving

variable {x cs t : List Char} {c : Char}

theorem resolve?_pair {d : Char} (h : named? d = some c) (cs : List Char) :
    resolve? ('\\' :: d :: cs) = (resolve? cs).map (c :: ·) := by
  have hcode : d ≠ 'u' := by
    rintro rfl
    cases h
  simp [resolve?, hcode, h]

/-- A unit in front of a text adds its character. -/
theorem Denotes.resolve?_append (h : Denotes x c) (cs : List Char) :
    resolve? (x ++ cs) = (resolve? cs).map (c :: ·) := by
  cases h with
  | plain hc => simp [resolve?, hc]
  | lineFeed | carriageReturn | tab | quote | backslash => exact resolve?_pair rfl cs
  | code ha hb hc hd hsmall =>
      rw [← hexDigit?_eq_some_iff] at ha hb hc hd
      simp [resolve?, coded?, ha, hb, hc, hd, hsmall]

theorem resolve?_texts (us : List TextUnit) :
    resolve? (texts us) = some (us.map TextUnit.character) := by
  induction us with
  | nil => rfl
  | cons u us ih => rw [texts_cons, u.denotes.resolve?_append, ih, Option.map_some, List.map_cons]

theorem exists_units_append (hx : Denotes x c)
    (hcs : ∀ t, resolve? cs = some t → ∃ us, texts us = cs ∧ us.map TextUnit.character = t)
    (h : (resolve? cs).map (c :: ·) = some t) :
    ∃ us, texts us = x ++ cs ∧ us.map TextUnit.character = t := by
  obtain ⟨t', ht', rfl⟩ := Option.map_eq_some_iff.mp h
  obtain ⟨us, rfl, rfl⟩ := hcs t' ht'
  exact ⟨⟨x, c, hx⟩ :: us, rfl, rfl⟩

theorem exists_units_of_resolve? (h : resolve? cs = some t) :
    ∃ us, texts us = cs ∧ us.map TextUnit.character = t := by
  -- a code, a named character and a plain one are units; the other cases stand for nothing
  induction cs using resolve?.induct generalizing t with
  | case1 => exact ⟨[], rfl, Option.some.inj h⟩
  | case2 a b c d cs x hx ih =>
      rw [resolve?, hx] at h
      exact exists_units_append (denotes_of_coded? hx) (fun _ => ih) h
  | case3 a b c d cs hx =>
      rw [resolve?, hx] at h
      cases h
  | case4 d cs hcode x hx ih =>
      rw [resolve?_pair hx] at h
      exact exists_units_append (denotes_of_named? hx) (fun _ => ih) h
  | case5 d cs hcode hx =>
      rw [resolve?.eq_3 _ _ hcode, hx] at h
      cases h
  | case6 cs hcode hpair =>
      rw [resolve?.eq_4 _ _ hcode hpair, if_pos rfl] at h
      cases h
  | case7 c cs hcode hpair hc ih =>
      rw [resolve?.eq_4 _ _ hcode hpair, if_neg hc] at h
      exact exists_units_append (.plain hc) (fun _ => ih) h

/-- A text stands for something exactly if it can be cut into units. -/
theorem resolve?_eq_some_iff :
    resolve? cs = some t ↔ ∃ us, texts us = cs ∧ us.map TextUnit.character = t := by
  constructor
  · exact exists_units_of_resolve?
  · rintro ⟨us, rfl, rfl⟩
    exact resolve?_texts us

/-- A code in either case, and an escaped backslash before what would be a code alone. -/
example : resolve? "\\u004A\\u004a\\\\u004A".toList = some "JJ\\u004A".toList := rfl

end Resolving

/-! ## There is one way to cut a text -/

section Cutting

variable {x y cs ds : List Char} {c d : Char}

/-- The number of characters that a unit has at the start of a text. -/
def unitLength : List Char → Nat
  | '\\' :: 'u' :: _ => 6
  | '\\' :: _ => 2
  | _ => 1

theorem Denotes.length_eq (h : Denotes x c) (cs : List Char) :
    unitLength (x ++ cs) = x.length := by
  cases h with
  | plain hc => simp [unitLength, hc]
  | _ => rfl

theorem Denotes.ne_nil (h : Denotes x c) : x ≠ [] := by
  rintro rfl
  cases h

theorem Denotes.append_inj (hx : Denotes x c) (hy : Denotes y d) (h : x ++ cs = y ++ ds) :
    x = y ∧ cs = ds := by
  have hlength : x.length = y.length := by
    rw [← hx.length_eq cs, h, hy.length_eq ds]
  exact List.append_inj h hlength

theorem Denotes.unique (hx : Denotes x c) (hy : Denotes x d) : c = d := by
  have hresolve : resolve? (x ++ []) = some [d] := hy.resolve?_append []
  rw [hx.resolve?_append [], resolve?] at hresolve
  exact (List.cons.inj (Option.some.inj hresolve)).1

theorem TextUnit.eq_of_text {u v : TextUnit} (h : u.text = v.text) : u = v := by
  obtain ⟨x, c, hx⟩ := u
  obtain ⟨y, d, hy⟩ := v
  obtain rfl : x = y := h
  obtain rfl := hx.unique hy
  rfl

theorem texts_injective : Function.Injective texts := by
  intro us vs h
  induction us generalizing vs with
  | nil =>
      cases vs with
      | nil => rfl
      | cons v vs => exact absurd (List.append_eq_nil_iff.mp h.symm).1 v.denotes.ne_nil
  | cons u us ih =>
      cases vs with
      | nil => exact absurd (List.append_eq_nil_iff.mp h).1 u.denotes.ne_nil
      | cons v vs =>
          obtain ⟨htext, hrest⟩ := u.denotes.append_inj v.denotes h
          rw [TextUnit.eq_of_text htext, ih hrest]

end Cutting

end Quoted

end MakerForms
