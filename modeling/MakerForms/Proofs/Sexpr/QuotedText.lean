import MakerForms.Proofs.Sexpr.Tiling
import MakerForms.Proofs.Sexpr.Written

set_option autoImplicit false

/-! # Quoted text

A string that is written as a literal is read as that string, and the text behind the literal is
read as it would be alone: nothing in the string ends the literal early, and nothing in it joins
what follows. Whatever stands in the string, backslashes, quotes, semicolons or line ends, what
follows only moves behind the literal.

To move a text is to add a number to each place in it (`Scanner.shift`). No request for a token
depends on the bytes before the scanner, so requests on a moved text give the moved results
(`Scanner.next_shift`), as many of them as one likes (`Scanner.after_shift`,
`Scanner.results_shift`). The literal is one request: its lexeme is the escaped string whatever
follows (`Scanner.next_encode_append`).
-/

namespace MakerForms

/-- The literal that a string is written as. -/
def Quoted.literal (s : String) : String := String.ofList (Quoted.encode s.toList)

/-- The span of the same piece with `n` more bytes before it. -/
def Span.shift (n : Nat) (span : Span) : Span := ⟨span.start + n, span.stop + n⟩

namespace Scanner

/-- The scanner at the same place of the text with `n` more bytes before it. -/
def shift (n : Nat) (s : Scanner) : Scanner := ⟨s.rest, s.offset + n⟩

/-- A token or an error with `n` more bytes before it. -/
def shiftResult (n : Nat) : Except LexError (Located Token) → Except LexError (Located Token)
  | .ok token => .ok ⟨token.value, token.span.shift n⟩
  | .error e => .error ⟨e.fault, e.lexeme, e.span.shift n⟩

/-! ## Requests on a moved text -/

section Moved

variable (n : Nat) (s : Scanner)

theorem skip_shift : (s.shift n).skip = s.skip.shift n := by
  have hoffset : (s.shift n).skip.offset = s.skip.offset + n := Nat.add_right_comm _ _ _
  show Scanner.mk s.skip.rest (s.shift n).skip.offset = _
  rw [hoffset]
  rfl

theorem lexeme?_shift : (s.shift n).lexeme? = s.lexeme?.map (Prod.map id (shift n)) := by
  have hplace : ∀ lexeme : Lexeme, s.skip.offset + n + byteSize lexeme.text
      = s.skip.offset + byteSize lexeme.text + n := fun lexeme => Nat.add_right_comm _ _ _
  rw [lexeme?, lexeme?, skip_shift, Option.map_map]
  show (Lexeme.first? s.skip.rest).map _ = (Lexeme.first? s.skip.rest).map _
  refine congrArg (Lexeme.first? s.skip.rest).map (funext fun found => ?_)
  simp [shift, hplace]

theorem characterLiteral_shift :
    (s.shift n).characterLiteral = s.characterLiteral.map id (shift n) := by
  unfold characterLiteral
  rw [lexeme?_shift]
  cases s.lexeme? with
  | none => simp [skip_shift]
  | some found =>
      obtain ⟨lexeme, behindCode⟩ := found
      cases lexeme with
      | word run =>
          cases hcode : Numeral.byte? run with
          | none => simp [hcode]
          | some code =>
              simp only [Option.map_some, Prod.map_apply, id_eq, hcode, lexeme?_shift]
              cases behindCode.lexeme? with
              | none => simp [skip_shift]
              | some close =>
                  obtain ⟨lexeme, last⟩ := close
                  cases lexeme <;> rfl
      | _ => rfl

theorem afterOpen_shift : (s.shift n).afterOpen = s.afterOpen.map id (shift n) := by
  unfold afterOpen
  rw [lexeme?_shift]
  cases s.lexeme? with
  | none => rfl
  | some found =>
      obtain ⟨lexeme, behindHead⟩ := found
      cases lexeme with
      | word run =>
          by_cases hcode : String.ofList run = Symbol.codeChar
          · simp [hcode, characterLiteral_shift]
          · simp [hcode]
      | _ => rfl

theorem complete_shift (lexeme : Lexeme) :
    complete lexeme (s.shift n) = (complete lexeme s).map id (shift n) := by
  cases lexeme with
  | openParen => exact afterOpen_shift n s
  | _ => rfl

/-- A request on a moved text gives the moved result and leaves the scanner at the moved place. -/
theorem next_shift :
    (s.shift n).next = s.next.map (Option.map (shiftResult n)) (shift n) := by
  unfold next
  rw [lexeme?_shift, skip_shift]
  cases s.lexeme? with
  | none => rfl
  | some found =>
      obtain ⟨lexeme, behind⟩ := found
      simp only [Option.map_some, Prod.map_apply, id_eq, complete_shift]
      -- an error quotes the text between two places, and this text has not changed
      cases complete lexeme behind with
      | mk result last => cases result <;> rfl

theorem after_shift (m : Nat) : (s.shift n).after m = (s.after m).shift n := by
  induction m generalizing s with
  | zero => rfl
  | succ m ih =>
      calc (s.shift n).after (m + 1)
        _ = (s.shift n).next.2.after m := rfl
        _ = (s.next.2.shift n).after m := by rw [next_shift]; rfl
        _ = (s.after (m + 1)).shift n := ih s.next.2

end Moved

theorem results_shift (n : Nat) (s : Scanner) :
    (s.shift n).results = s.results.map (shiftResult n) := by
  have hmoved := next_shift n s
  rcases hnext : s.next with ⟨_ | result, s'⟩
  · rw [hnext] at hmoved
    rw [results_of_next_none hmoved, results_of_next_none hnext, List.map_nil]
  · rw [hnext] at hmoved
    have hshorter := length_lt_of_next hnext
    rw [results_of_next_some hmoved, results_of_next_some hnext, List.map_cons,
      results_shift n s']
termination_by s.rest.length

/-! ## Literals in front of a text -/

/-- The literal of a string is the next token, whatever follows. -/
theorem next_encode_append (cs rest : List Char) (start : Nat) :
    next ⟨Quoted.encode cs ++ rest, start⟩
      = (some (.ok ⟨.string (String.ofList cs), ⟨start, start + byteSize (Quoted.encode cs)⟩⟩),
        ⟨rest, start + byteSize (Quoted.encode cs)⟩) := by
  have hskip : skip ⟨Quoted.encode cs ++ rest, start⟩ = ⟨Quoted.encode cs ++ rest, start⟩ := rfl
  have hfirst : Lexeme.first? (Quoted.encode cs ++ rest)
      = some (.quoted (Quoted.escape cs), rest) :=
    Lexeme.first?_quoted_append (isBody_escape cs) rest
  have hlexeme : lexeme? ⟨Quoted.encode cs ++ rest, start⟩
      = some (.quoted (Quoted.escape cs), ⟨rest, start + byteSize (Quoted.encode cs)⟩) := by
    rw [lexeme?, hskip, hfirst]
    rfl
  rw [next, hlexeme]
  simp only [complete, Lexeme.token_quoted_escape, hskip]

/-- **Strings stay between their quotes.** Where the literal of a string stands before some text,
the first token is the string, and its span is the literal. All that follows is what the text gives
alone, tokens, errors and the end of the text, with the size of the literal added to each place. -/
theorem literal_ends_at_its_quote (s text : String) :
    (ofString (Quoted.literal s ++ text)).next
      = (some (.ok ⟨.string s, ⟨0, (Quoted.literal s).utf8ByteSize⟩⟩),
        (ofString text).shift (Quoted.literal s).utf8ByteSize) ∧
    (ofString (Quoted.literal s ++ text)).results
      = .ok ⟨.string s, ⟨0, (Quoted.literal s).utf8ByteSize⟩⟩
        :: (ofString text).results.map (shiftResult (Quoted.literal s).utf8ByteSize) ∧
    ∀ n, (ofString (Quoted.literal s ++ text)).after (n + 1)
        = ((ofString text).after n).shift (Quoted.literal s).utf8ByteSize ∧
      ((ofString (Quoted.literal s ++ text)).after (n + 1)).next.1
        = ((ofString text).after n).next.1.map (shiftResult (Quoted.literal s).utf8ByteSize) := by
  have hplace : ofString (Quoted.literal s ++ text)
      = ⟨Quoted.encode s.toList ++ text.toList, 0⟩ := by
    simp [ofString, Quoted.literal]
  have hsize : (Quoted.literal s).utf8ByteSize = byteSize (Quoted.encode s.toList) :=
    utf8ByteSize_ofList _
  have hnext : (ofString (Quoted.literal s ++ text)).next
      = (some (.ok ⟨.string s, ⟨0, (Quoted.literal s).utf8ByteSize⟩⟩),
        (ofString text).shift (Quoted.literal s).utf8ByteSize) := by
    rw [hplace, hsize, next_encode_append, Nat.zero_add, String.ofList_toList]
    simp [shift, ofString]
  have hafter : ∀ n, (ofString (Quoted.literal s ++ text)).after (n + 1)
      = ((ofString text).after n).shift (Quoted.literal s).utf8ByteSize := by
    intro n
    rw [after, hnext, after_shift]
  refine ⟨hnext, ?_, fun n => ⟨hafter n, ?_⟩⟩
  · rw [results_of_next_some hnext, results_shift]
  · rw [hafter, next_shift]
    rfl

/-- A string with quotes, backslashes and a line end, before a text that would go on with it. -/
example : (ofString (Quoted.literal "a\"\\;\n" ++ "n\" ;")).next.1
    = some (.ok ⟨.string "a\"\\;\n", ⟨0, 9⟩⟩) := rfl

end Scanner

end MakerForms
