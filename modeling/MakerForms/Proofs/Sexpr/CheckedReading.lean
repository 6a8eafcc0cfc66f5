import MakerForms.Proofs.Sexpr.ReaderRuns
import MakerForms.Proofs.Sexpr.TokenReading
import MakerForms.Proofs.Sexpr.Words

set_option autoImplicit false

/-! # Reading with all checks made

A scanner relies on things that it has looked at before: it cuts the text between the quotes of a
string out by its place in bytes, turns a numeral into a number, and makes symbols of the parts of
a word. Here the same is done by functions that check for themselves what they are given: the text
that is cut out must lie within the lexeme and between its characters, what is turned into a number
must be one, and a symbol must have a valid package and a valid name. A check that fails raises an
alarm, which ends everything.

No alarm is raised (`Scanner.checkedNext_eq`): from every place in every text the checked scanner
does what the scanner does. Runs of a reader ask the scanner for one token after another, so no run
raises an alarm either (`Reader.checkedRun_eq`).
-/

namespace MakerForms

/-- A check that fails. -/
inductive Alarm
  /-- A symbol was about to be made that is not valid. -/
  | symbol (e : SymbolError)
  /-- A span does not lie within a text, or not between its characters. -/
  | slice (text : List Char) (span : Span)
  /-- A text is no integer. -/
  | numeral (text : List Char)
deriving DecidableEq, Repr

/-! ## Pieces of a text by their place in bytes -/

/-- The texts before and behind a place in bytes; `none` behind the end and inside a character. -/
def splitBytes? : List Char → Nat → Option (List Char × List Char)
  | cs, 0 => some ([], cs)
  | [], _ + 1 => none
  | c :: cs, n + 1 =>
    if c.utf8Size ≤ n + 1 then
      (splitBytes? cs (n + 1 - c.utf8Size)).map fun (before, behind) => (c :: before, behind)
    else none

/-- The text that a span of `cs` covers; `none` if there is no such text. -/
def bytes? (cs : List Char) (span : Span) : Option (List Char) :=
  if span.start ≤ span.stop then
    (splitBytes? cs span.start).bind fun (_, behind) =>
      (splitBytes? behind (span.stop - span.start)).map Prod.fst
  else none

theorem splitBytes?_eq_some_iff {cs before behind : List Char} {n : Nat} :
    splitBytes? cs n = some (before, behind) ↔ cs = before ++ behind ∧ byteSize before = n := by
  induction cs, n using splitBytes?.induct generalizing before with
  | case1 cs =>
      cases before with
      | nil => simp [splitBytes?]
      | cons d before =>
          have hd := d.utf8Size_pos
          simp only [splitBytes?, Option.some.injEq, Prod.mk.injEq, byteSize_cons]
          constructor
          · rintro ⟨h, -⟩
            cases h
          · rintro ⟨-, h⟩
            omega
  | case2 n =>
      cases before with
      | nil => simp [splitBytes?]
      | cons d before => simp [splitBytes?]
  | case3 c cs n hsize ih =>
      rw [splitBytes?, if_pos hsize, Option.map_eq_some_iff]
      constructor
      · rintro ⟨⟨before', behind'⟩, hsplit, heq⟩
        obtain ⟨rfl, rfl⟩ := Prod.mk.inj heq
        obtain ⟨rfl, hbytes⟩ := ih.mp hsplit
        refine ⟨rfl, ?_⟩
        rw [byteSize_cons]
        omega
      · rintro ⟨heq, hbytes⟩
        cases before with
        | nil => simp at hbytes
        | cons d before =>
            obtain ⟨rfl, rfl⟩ := List.cons.inj heq
            rw [byteSize_cons] at hbytes
            exact ⟨(before, behind), ih.mpr ⟨rfl, by omega⟩, rfl⟩
  | case4 c cs n hsize =>
      rw [splitBytes?, if_neg hsize]
      constructor
      · intro h
        cases h
      · rintro ⟨heq, hbytes⟩
        cases before with
        | nil => simp at hbytes
        | cons d before =>
            obtain ⟨rfl, -⟩ := List.cons.inj heq
            rw [byteSize_cons] at hbytes
            omega

/-- A span covers a piece of a text if it starts and stops where the piece does. -/
theorem bytes?_eq_some_iff {cs piece : List Char} {span : Span} :
    bytes? cs span = some piece ↔
      ∃ before behind, cs = before ++ piece ++ behind ∧
        span = ⟨byteSize before, byteSize (before ++ piece)⟩ := by
  obtain ⟨start, stop⟩ := span
  unfold bytes?
  dsimp only
  by_cases horder : start ≤ stop
  · rw [if_pos horder, Option.bind_eq_some_iff]
    constructor
    · rintro ⟨⟨before, rest⟩, hstart, h⟩
      obtain ⟨⟨piece', behind⟩, hstop, rfl⟩ := Option.map_eq_some_iff.mp h
      obtain ⟨rfl, rfl⟩ := splitBytes?_eq_some_iff.mp hstart
      obtain ⟨rfl, hsize⟩ := splitBytes?_eq_some_iff.mp hstop
      refine ⟨before, behind, by rw [List.append_assoc], ?_⟩
      have hstop' : byteSize (before ++ piece') = stop := by
        rw [byteSize_append]
        omega
      rw [hstop']
    · rintro ⟨before, behind, rfl, hspan⟩
      obtain ⟨rfl, rfl⟩ := Span.mk.inj hspan
      have hlength : byteSize (before ++ piece) - byteSize before = byteSize piece := by
        rw [byteSize_append]
        omega
      refine ⟨(before, piece ++ behind), ?_, ?_⟩
      · exact splitBytes?_eq_some_iff.mpr ⟨by rw [List.append_assoc], rfl⟩
      · dsimp only
        rw [hlength, splitBytes?_eq_some_iff.mpr ⟨rfl, rfl⟩]
        rfl
  · rw [if_neg horder]
    constructor
    · intro h
      cases h
    · rintro ⟨before, behind, -, hspan⟩
      obtain ⟨rfl, rfl⟩ := Span.mk.inj hspan
      rw [byteSize_append] at horder
      omega

/-! ## Numerals -/

namespace Numeral

/-- The number that digits stand for behind those of `n`; `none` if one of them is no digit. -/
def parseOnto? (n : Nat) : List Char → Option Nat
  | [] => some n
  | c :: cs => if c.isDigit then parseOnto? (10 * n + digitValue c) cs else none

/-- The number that one digit or more stand for. -/
def parseDigits? : List Char → Option Nat
  | [] => none
  | c :: cs => parseOnto? 0 (c :: cs)

/-- The integer that a text spells: digits, behind a minus sign or not. -/
def parse? : List Char → Option Int
  | '-' :: cs => (parseDigits? cs).map fun n => -(n : Int)
  | cs => (parseDigits? cs).map fun n => (n : Int)

theorem parseOnto?_eq {cs : List Char} (h : cs.all Char.isDigit = true) (n : Nat) :
    parseOnto? n cs = some (cs.foldl (fun n c => 10 * n + digitValue c) n) := by
  induction cs generalizing n with
  | nil => rfl
  | cons c cs ih =>
      obtain ⟨hc, hcs⟩ : c.isDigit = true ∧ cs.all Char.isDigit = true := by simpa using h
      rw [parseOnto?, if_pos hc, ih hcs, List.foldl_cons]

theorem parseDigits?_eq {cs : List Char} (h : isDigits cs = true) :
    parseDigits? cs = some (value cs) := by
  obtain ⟨hne, hall⟩ := Bool.and_eq_true_iff.mp h
  cases cs with
  | nil => simp at hne
  | cons c cs => exact parseOnto?_eq hall 0

/-- A numeral spells its integer. -/
theorem parse?_eq {cs : List Char} (h : isNumeral cs = true) : parse? cs = some (intValue cs) := by
  unfold isNumeral at h
  split at h
  · rw [parse?, parseDigits?_eq h]
    rfl
  · next hsign =>
    rw [parse?.eq_2 cs hsign, parseDigits?_eq h, intValue.eq_2 cs hsign]
    rfl

end Numeral

/-! ## Symbols -/

namespace Symbol

/-- Makes a symbol without a package. -/
def checkedBare (name : List Char) : Except Alarm Symbol :=
  (bare? (String.ofList name)).mapError .symbol

/-- Makes a symbol of a package. -/
def checkedQualified (package name : List Char) : Except Alarm Symbol :=
  (qualified? (String.ofList package) (String.ofList name)).mapError .symbol

theorem checkedBare_eq {name : List Char} (hname : isName name = true)
    (hstart : startsLikeNumber name = false) :
    checkedBare name = .ok (bare (String.ofList name)) := by
  have hbare : isBareName (String.ofList name).toList = true := by
    rw [String.toList_ofList, isBareName, hname, hstart]
    rfl
  rw [checkedBare, bare?_eq_ok_iff.mpr ⟨hbare, rfl⟩, mapError_ok]

theorem checkedQualified_eq {package name : List Char} (hpackage : isName package = true)
    (hname : isName name = true) :
    checkedQualified package name
      = .ok (qualified (String.ofList package) (String.ofList name)) := by
  have hnames : isName (String.ofList package).toList = true ∧
      isName (String.ofList name).toList = true := by
    rw [String.toList_ofList, String.toList_ofList]
    exact ⟨hpackage, hname⟩
  rw [checkedQualified, qualified?_eq_ok_iff.mpr ⟨hnames, rfl⟩, mapError_ok]

end Symbol

/-! ## Words -/

/-- Whether a part of a word is a name in which no colon is left. -/
def isUnqualified (cs : List Char) : Bool := !cs.contains ':' && Symbol.isName cs

/-- The symbol that a word spells. -/
def checkedWordSymbol : List Char → Except Alarm (Option Symbol)
  | ':' :: name =>
    if isUnqualified name then
      (Symbol.checkedQualified Symbol.keywordPackage.toList name).map some
    else .ok none
  | run =>
    match splitPackage? run with
    | some (package, name) =>
      if isUnqualified package && isUnqualified name then
        (Symbol.checkedQualified package name).map some
      else .ok none
    | none => if isUnqualified run then (Symbol.checkedBare run).map some else .ok none

/-- The token that a word spells. -/
def checkedWordToken (run : List Char) : Except Alarm (Except LexFault Token) :=
  if Numeral.isNumeral run then
    match Numeral.parse? run with
    | some i => .ok (.ok (.integer i))
    | none => .error (.numeral run)
  else if Symbol.startsLikeNumber run then .ok (.error .malformedInteger)
  else
    (checkedWordSymbol run).map fun
      | some s => .ok (.symbol s)
      | none => .error .malformedSymbol

theorem isUnqualified_eq (cs : List Char) : isUnqualified cs = Symbol.isName cs := by
  unfold isUnqualified
  cases hname : Symbol.isName cs with
  | false => rw [Bool.and_false]
  | true =>
      have hcolon : cs.contains ':' = false := by
        simpa using Symbol.colon_notMem_of_isName hname
      rw [hcolon]
      rfl

/-- The parts that are made into a symbol are names, and a name that stands alone does not start
like a number if the word does not. -/
theorem checkedWordSymbol_eq {run : List Char} (hstart : Symbol.startsLikeNumber run = false) :
    checkedWordSymbol run = .ok (wordSymbol? run) := by
  by_cases hcolon : ∃ name, run = ':' :: name
  · obtain ⟨name, rfl⟩ := hcolon
    have hkeyword : Symbol.isName Symbol.keywordPackage.toList = true := by decide +kernel
    rw [checkedWordSymbol, wordSymbol?, isUnqualified_eq]
    by_cases hname : Symbol.isName name = true
    · rw [if_pos hname, if_pos hname, Symbol.checkedQualified_eq hkeyword hname,
        String.ofList_toList]
      rfl
    · rw [if_neg hname, if_neg hname]
  · have hfirst : ∀ name, run = ':' :: name → False := fun name h => hcolon ⟨name, h⟩
    rw [checkedWordSymbol.eq_2 run hfirst, wordSymbol?.eq_2 run hfirst]
    cases splitPackage? run with
    | some parts =>
        obtain ⟨package, name⟩ := parts
        dsimp only
        rw [isUnqualified_eq, isUnqualified_eq]
        by_cases hnames : (Symbol.isName package && Symbol.isName name) = true
        · obtain ⟨hpackage, hname⟩ := Bool.and_eq_true_iff.mp hnames
          rw [if_pos hnames, if_pos hnames, Symbol.checkedQualified_eq hpackage hname]
          rfl
        · rw [if_neg hnames, if_neg hnames]
    | none =>
        dsimp only
        rw [isUnqualified_eq]
        by_cases hname : Symbol.isName run = true
        · rw [if_pos hname, if_pos hname, Symbol.checkedBare_eq hname hstart]
          rfl
        · rw [if_neg hname, if_neg hname]

theorem checkedWordToken_eq (run : List Char) : checkedWordToken run = .ok (wordToken run) := by
  unfold checkedWordToken wordToken
  by_cases hnumeral : Numeral.isNumeral run = true
  · rw [if_pos hnumeral, if_pos hnumeral, Numeral.parse?_eq hnumeral]
  · rw [if_neg hnumeral, if_neg hnumeral]
    by_cases hstart : Symbol.startsLikeNumber run = true
    · rw [if_pos hstart, if_pos hstart]
    · rw [if_neg hstart, if_neg hstart, checkedWordSymbol_eq (by simpa using hstart)]
      cases wordSymbol? run <;> rfl

/-! ## Lexemes -/

namespace Lexeme

/-- The text between the quotes of a string literal: all but its first and its last byte. -/
def checkedBody (text : List Char) : Except Alarm (List Char) :=
  match bytes? text ⟨1, byteSize text - 1⟩ with
  | some body => .ok body
  | none => .error (.slice text ⟨1, byteSize text - 1⟩)

/-- The token that a lexeme spells, from the text that the lexeme covers. -/
def checkedToken (text : List Char) : Lexeme → Except Alarm (Except LexFault Token)
  | openParen => .ok (.ok .openParen)
  | closeParen => .ok (.ok .closeParen)
  | quoted _ =>
    (checkedBody text).map fun body =>
      match Quoted.resolve? body with
      | some cs => .ok (.string (String.ofList cs))
      | none => .error .invalidEscape
  | word _ => checkedWordToken text
  | unclosed _ => .ok (.error .unterminatedString)
  | stray _ => .ok (.error .unexpectedCharacter)

/-- A quote takes one byte, so the body of a literal lies between its first and its last byte. -/
theorem checkedBody_quoted (body : List Char) : checkedBody (quoted body).text = .ok body := by
  have hquote : byteSize ['"'] = 1 := rfl
  have htext : (quoted body).text = ['"'] ++ body ++ ['"'] := rfl
  have hsize : byteSize (quoted body).text - 1 = byteSize (['"'] ++ body) := by
    rw [htext, byteSize_append, hquote]
    omega
  have hbytes : bytes? (quoted body).text ⟨1, byteSize (quoted body).text - 1⟩ = some body :=
    bytes?_eq_some_iff.mpr ⟨['"'], ['"'], htext, by rw [hsize, hquote]⟩
  rw [checkedBody, hbytes]

theorem checkedToken_eq (lexeme : Lexeme) : lexeme.checkedToken lexeme.text = .ok lexeme.token := by
  cases lexeme with
  | quoted body =>
      rw [checkedToken, checkedBody_quoted]
      rfl
  | word run => exact checkedWordToken_eq run
  | openParen | closeParen | unclosed _ | stray _ => rfl

end Lexeme

/-! ## Requests for tokens -/

namespace Scanner

/-- The token that starts with a lexeme, which covers `text`, and the scanner behind the token. -/
def checkedComplete (text : List Char) :
    Lexeme → Scanner → Except Alarm (Except LexFault Token × Scanner)
  | .openParen, behind => .ok behind.afterOpen
  | lexeme, behind => (lexeme.checkedToken text).map fun result => (result, behind)

/-- The next token or lexical error, and the scanner behind it. -/
def checkedNext (s : Scanner) :
    Except Alarm (Option (Except LexError (Located Token)) × Scanner) :=
  match s.lexeme? with
  | none => .ok (none, s.skip)
  | some (lexeme, behind) =>
    (checkedComplete (s.skip.textUpTo behind) lexeme behind).map fun (result, last) =>
      let span : Span := ⟨s.skip.offset, last.offset⟩
      match result with
      | .ok token => (some (.ok ⟨token, span⟩), last)
      | .error fault => (some (.error ⟨fault, String.ofList (s.skip.textUpTo last), span⟩), last)

theorem checkedComplete_eq (lexeme : Lexeme) (behind : Scanner) :
    checkedComplete lexeme.text lexeme behind = .ok (complete lexeme behind) := by
  cases lexeme with
  | openParen => rfl
  | closeParen | quoted _ | word _ | unclosed _ | stray _ =>
      rw [checkedComplete, Lexeme.checkedToken_eq]
      · rfl
      · simp

/-- A request for a token raises no alarm, from any place in any text. -/
theorem checkedNext_eq (s : Scanner) : s.checkedNext = .ok s.next := by
  unfold checkedNext next
  cases hlexeme : s.lexeme? with
  | none => rfl
  | some found =>
      obtain ⟨lexeme, behind⟩ := found
      have htext : s.skip.textUpTo behind = lexeme.text :=
        (passes_of_lexeme? hlexeme).1.textUpTo_eq
      simp only [htext, checkedComplete_eq]
      rfl

/-! ## Reading values -/

theorem length_lt_of_checkedNext {s s' : Scanner} {result : Except LexError (Located Token)}
    (h : s.checkedNext = .ok (some result, s')) : s'.rest.length < s.rest.length := by
  rw [checkedNext_eq] at h
  exact length_lt_of_next (Except.ok.inj h)

/-- Reads on until the value is whole, with `stack` as the lists that are open. -/
def checkedValue (s : Scanner) (stack : List OpenList) :
    Except Alarm (Except ReadError Value × Scanner) :=
  match _h : s.checkedNext with
  | .error alarm => .error alarm
  | .ok (none, s') => .ok (.error (Progress.atEnd s'.offset stack), s')
  | .ok (some (.error e), s') => .ok (.error (.lexical e), s')
  | .ok (some (.ok token), s') =>
    match Progress.step stack token with
    | .error e => .ok (.error e, s')
    | .ok (.done v) => .ok (.ok v, s')
    | .ok (.more stack) => checkedValue s' stack
termination_by s.rest.length
decreasing_by exact length_lt_of_checkedNext _h

/-- Reading a value makes one request after another, none of which raises an alarm. -/
theorem checkedValue_eq (s : Scanner) (stack : List OpenList) :
    s.checkedValue stack = .ok (s.readValue stack) := by
  induction s, stack using readValue.induct with
  | case1 s stack s' hnext => rw [checkedValue, checkedNext_eq, hnext, readValue, hnext]
  | case2 s stack s' e hnext => rw [checkedValue, checkedNext_eq, hnext, readValue, hnext]
  | case3 s stack token s' hnext e hstep =>
      rw [checkedValue, checkedNext_eq, hnext, readValue, hnext]
      simp only [hstep]
  | case4 s stack token s' hnext v hstep =>
      rw [checkedValue, checkedNext_eq, hnext, readValue, hnext]
      simp only [hstep]
  | case5 s stack token s' hnext stack' hstep ih =>
      rw [checkedValue, checkedNext_eq, hnext, readValue, hnext]
      simp only [hstep]
      exact ih

/-- Reads values until none is left; `before` holds those read before, the last first. -/
def checkedAll (s : Scanner) (before : List Value) :
    Except Alarm (Except ReadError (List Value) × Scanner) :=
  match _h : s.checkedNext with
  | .error alarm => .error alarm
  | .ok (none, _) => .ok (.ok before.reverse, s)
  | .ok (some (.error e), s') => .ok (.error (.lexical e), s')
  | .ok (some (.ok _), _) =>
    match _result : s.checkedValue [] with
    | .error alarm => .error alarm
    | .ok (.error e, s') => .ok (.error e, s')
    | .ok (.ok v, s') => checkedAll s' (v :: before)
termination_by s.rest.length
decreasing_by
  rw [checkedNext_eq] at _h
  rw [checkedValue_eq] at _result
  have hshorter := length_readValue_lt (Except.ok.inj _h) []
  rwa [Except.ok.inj _result] at hshorter

/-- Where a token comes next, a value is read before the others. -/
theorem checkedAll_of_next {s s' : Scanner} {token : Located Token}
    (hnext : s.next = (some (.ok token), s')) (before : List Value) :
    s.checkedAll before =
      match s.checkedValue [] with
      | .error alarm => .error alarm
      | .ok (.error e, s') => .ok (.error e, s')
      | .ok (.ok v, s') => s'.checkedAll (v :: before) := by
  rw [checkedAll, checkedNext_eq, hnext]
  rcases s.checkedValue [] with alarm | ⟨e | v, s₂⟩
  · rfl
  · rfl
  · rfl

theorem checkedAll_eq (s : Scanner) (before : List Value) :
    s.checkedAll before = .ok (s.readAll before) := by
  induction s, before using readAll.induct with
  | case1 s before s' hnext => rw [checkedAll, checkedNext_eq, hnext, readAll, hnext]
  | case2 s before s' e hnext => rw [checkedAll, checkedNext_eq, hnext, readAll, hnext]
  | case3 s before token s' hnext e s₂ hread =>
      rw [checkedAll_of_next hnext, readAll_of_next hnext, checkedValue_eq, hread]
  | case4 s before token s' hnext v s₂ hread ih =>
      rw [checkedAll_of_next hnext, readAll_of_next hnext, checkedValue_eq, hread]
      exact ih

end Scanner

/-! ## Runs of a reader -/

namespace Reader

/-- Does one operation. -/
def checkedPerform (r : Reader) : Operation → Except Alarm (Except ReadError Answer × Reader)
  | .atEnd =>
    r.scanner.checkedNext.map fun
      | (none, _) => (.ok (.atEnd true), r)
      | (some (.error e), s) => (.error (.lexical e), { r with scanner := s })
      | (some (.ok _), _) => (.ok (.atEnd false), r)
  | .one =>
    (r.scanner.checkedValue []).map fun (result, s) =>
      (result.map .value, { r with scanner := s })
  | .located =>
    (r.scanner.checkedValue []).map fun (result, s) =>
      (result.map fun v => .located ⟨v, ⟨r.scanner.skip.offset, s.offset⟩⟩,
        { r with scanner := s })
  | .all =>
    (r.scanner.checkedAll []).map fun (result, s) =>
      (result.map .values, { r with scanner := s })

/-- Does operations one after another, also behind errors. -/
def checkedRun (r : Reader) :
    List Operation → Except Alarm (List (Except ReadError Answer) × Reader)
  | [] => .ok ([], r)
  | operation :: rest => do
    let (answer, r') ← r.checkedPerform operation
    let (answers, last) ← r'.checkedRun rest
    return (answer :: answers, last)

theorem checkedPerform_eq (r : Reader) (operation : Operation) :
    r.checkedPerform operation = .ok (r.perform operation) := by
  cases operation with
  | atEnd =>
      rw [checkedPerform, perform, Scanner.checkedNext_eq, atEnd]
      rcases r.scanner.next with ⟨_ | e | token, s⟩ <;> rfl
  | one =>
      rw [checkedPerform, perform, Scanner.checkedValue_eq]
      rfl
  | located =>
      rw [checkedPerform, perform, Scanner.checkedValue_eq, located_eq]
      rcases r.scanner.readValue [] with ⟨e | v, s⟩ <;> rfl
  | all =>
      rw [checkedPerform, perform, Scanner.checkedAll_eq]
      rfl

/-- No operation of a run raises an alarm. -/
theorem checkedRun_eq (r : Reader) (operations : List Operation) :
    r.checkedRun operations = .ok (r.run operations) := by
  induction operations generalizing r with
  | nil => rfl
  | cons operation rest ih =>
      rw [checkedRun, checkedPerform_eq]
      have hrest := ih (r.perform operation).2
      simp only [bind, Except.bind, hrest]
      rfl

end Reader

end MakerForms
