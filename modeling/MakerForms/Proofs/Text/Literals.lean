import MakerForms.Text.Literal

set_option autoImplicit false

/-! # Shown strings read back

What a string is shown as tells the string, and where it ends (`Literal.encode_append_inj`). Each
character is shown so that it can be found again whatever is shown behind it
(`Literal.readChar?_showChar_append`): an escape starts with a backslash, and the digits of a code
end with a brace.
-/

namespace MakerForms.Literal

/-- What holds of each hexadecimal digit holds of those of a number. -/
theorem all_toDigits {p : Char → Bool} (h : ∀ d < 16, p d.digitChar = true) (n : Nat) :
    (Nat.toDigits 16 n).all p = true := by
  induction n using Nat.strongRecOn with
  | _ n ih =>
    rw [Nat.toDigits_eq_if (by omega)]
    split
    · next hsmall => rw [List.all_cons, h n hsmall, List.all_nil, Bool.and_self]
    · next hlarge =>
      rw [List.all_append, ih (n / 16) (by omega), List.all_cons, h (n % 16) (by omega),
        List.all_nil, Bool.and_self, Bool.and_self]

/-- What stands for some characters behind a backslash. -/
def shortEscapes : List (Char × Char) :=
  [('"', '"'), ('\\', '\\'), ('0', '\x00'), ('t', '\t'), ('r', '\r'), ('n', '\n')]

def hexDigitValue (c : Char) : Nat :=
  if c.isDigit then c.toNat - '0'.toNat else c.toNat - 'a'.toNat + 10

/-- The number that lower-case hexadecimal digits stand for. -/
def hexValue (cs : List Char) : Nat := cs.foldl (fun n c => 16 * n + hexDigitValue c) 0

/-- Whether a character still belongs to what is in braces. -/
def inBraces (c : Char) : Bool := c != '\x7d'

/-- The character that is shown first and what is shown behind it, if a string does not end
there. -/
def readChar? : List Char → Option (Char × List Char)
  | '\\' :: 'u' :: '\x7b' :: rest =>
    some (Char.ofNat (hexValue (rest.takeWhile inBraces)), (rest.dropWhile inBraces).drop 1)
  | '\\' :: e :: rest => (shortEscapes.lookup e).map fun c => (c, rest)
  | c :: rest => if c = '"' then none else some (c, rest)
  | [] => none

theorem hexValue_toDigits (n : Nat) : hexValue (Nat.toDigits 16 n) = n := by
  have hdigit : ∀ d < 16, hexDigitValue d.digitChar = d := by decide
  induction n using Nat.strongRecOn with
  | _ n ih =>
    rw [Nat.toDigits_eq_if (by omega)]
    split
    · next hsmall => simpa [hexValue] using hdigit n hsmall
    · next hlarge =>
      have hinit : hexValue (Nat.toDigits 16 (n / 16)) = n / 16 := ih (n / 16) (by omega)
      rw [hexValue, List.foldl_append, ← hexValue, hinit, List.foldl_cons, List.foldl_nil,
        hdigit (n % 16) (by omega)]
      omega

/-- Each character is found again, whatever is shown behind it. -/
theorem readChar?_showChar_append (c : Char) (rest : List Char) :
    readChar? (showChar c ++ rest) = some (c, rest) := by
  unfold showChar
  repeat' split
  any_goals (subst c; rfl)
  · have hdigits : ∀ d ∈ Nat.toDigits 16 c.toNat, inBraces d = true :=
      List.all_eq_true.mp (all_toDigits (by decide) c.toNat)
    have hbrace : ¬ inBraces '\x7d' = true := by decide
    have hescape : codeEscape c ++ rest
        = '\\' :: 'u' :: '\x7b' :: (Nat.toDigits 16 c.toNat ++ '\x7d' :: rest) := by
      rw [codeEscape, List.append_assoc, List.append_assoc]
      rfl
    rw [hescape, readChar?, List.takeWhile_append_of_pos hdigits, List.takeWhile_cons_of_neg hbrace,
      List.append_nil, hexValue_toDigits, Char.ofNat_toNat, List.dropWhile_append_of_pos hdigits,
      List.dropWhile_cons_of_neg hbrace, List.drop_one, List.tail_cons]
  · next hquote hbackslash _ _ _ _ _ =>
    rw [List.cons_append, List.nil_append, readChar?, if_neg hquote]
    · rintro _ rfl; exact absurd rfl hbackslash
    · rintro _ _ rfl; exact absurd rfl hbackslash

theorem flatMap_showChar_append_inj {cs ds rest rest' : List Char}
    (h : cs.flatMap showChar ++ '"' :: rest = ds.flatMap showChar ++ '"' :: rest') :
    cs = ds ∧ rest = rest' := by
  have hread : ∀ {c : Char} {cs rest : List Char}, readChar? ((c :: cs).flatMap showChar ++ rest)
      = some (c, cs.flatMap showChar ++ rest) := by
    intro c cs rest
    rw [List.flatMap_cons, List.append_assoc, readChar?_showChar_append]
  induction cs generalizing ds with
  | nil =>
      cases ds with
      | nil => exact ⟨rfl, (List.cons.inj h).2⟩
      | cons d ds =>
          have hquote := hread.symm.trans (congrArg readChar? h.symm)
          cases hquote
  | cons c cs ih =>
      cases ds with
      | nil =>
          have hquote := hread.symm.trans (congrArg readChar? h)
          cases hquote
      | cons d ds =>
          have hboth := hread.symm.trans ((congrArg readChar? h).trans hread)
          obtain ⟨rfl, hbehind⟩ := Prod.mk.inj (Option.some.inj hboth)
          obtain ⟨rfl, rfl⟩ := ih hbehind
          exact ⟨rfl, rfl⟩

theorem encode_append_inj {s t : String} {rest rest' : List Char}
    (h : (encode s).toList ++ rest = (encode t).toList ++ rest') : s = t ∧ rest = rest' := by
  simp only [encode, String.toList_ofList, List.cons_append, List.append_assoc, List.nil_append,
    List.cons.injEq, true_and] at h
  obtain ⟨hchars, hrest⟩ := flatMap_showChar_append_inj h
  exact ⟨String.toList_inj.mp hchars, hrest⟩

end MakerForms.Literal
