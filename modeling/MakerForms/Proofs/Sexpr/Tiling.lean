import MakerForms.Proofs.Sexpr.TokenView

set_option autoImplicit false

/-! # Results tile the text

Scanning a text gives one result after another, tokens and lexical errors, and then nothing
more. Each result covers a piece of the text that is not empty, its span says where that piece
lies, and an error quotes it. Between the pieces stand gaps: blanks and comments (`IsGap`). Gaps
and pieces make up the whole text (`Tiles`), so nothing is read twice and nothing is skipped
but gaps.

What one request for a token uses up is told by `Scanner.Passes`, which adds up over requests
(`Scanner.Passes.trans`). One request is described by `Scanner.next_eq_some` and
`Scanner.next_eq_none`, a whole run by `Scanner.tiles_results`.
-/

namespace MakerForms

/-! ## Gaps -/

/-- Text made up of blanks and comments. A comment goes from a semicolon to a line feed, or to
the end of the gap if that is the end of the text, which `last` says. -/
inductive IsGap (last : Prop) : List Char → Prop
  | nil : IsGap last []
  | blank {c : Char} {cs : List Char} : isBlank c = true → IsGap last cs → IsGap last (c :: cs)
  | comment {body cs : List Char} :
      '\n' ∉ body → IsGap last cs → IsGap last (';' :: (body ++ '\n' :: cs))
  | lastComment {body : List Char} : last → '\n' ∉ body → IsGap last (';' :: body)

theorem IsGap.imp {last last' : Prop} {cs : List Char} (hlast : last → last')
    (h : IsGap last cs) : IsGap last' cs := by
  induction h with
  | nil => exact IsGap.nil
  | blank hblank _ ih => exact IsGap.blank hblank ih
  | comment hbody _ ih => exact IsGap.comment hbody ih
  | lastComment h hbody => exact IsGap.lastComment (hlast h) hbody

theorem IsGap.longer_comment {last : Prop} {c : Char} {cs : List Char} (hc : c ≠ '\n')
    (h : IsGap last (';' :: cs)) : IsGap last (';' :: c :: cs) := by
  cases h with
  | blank hblank _ => exact absurd hblank (by decide)
  | @comment body cs hbody hcs =>
      have hlonger : '\n' ∉ c :: body := by
        simp [hbody, hc.symm]
      exact IsGap.comment hlonger hcs
  | lastComment hlast hbody =>
      have hlonger : '\n' ∉ c :: cs := by
        simp [hbody, hc.symm]
      exact IsGap.lastComment hlast hlonger

/-- What is split off as a gap is one; inside a comment it is one with its semicolon. -/
theorem isGap_splitGap (cs : List Char) :
    IsGap ((splitGap false cs).2 = []) (splitGap false cs).1 ∧
      IsGap ((splitGap true cs).2 = []) (';' :: (splitGap true cs).1) := by
  induction cs with
  | nil => exact ⟨IsGap.nil, IsGap.lastComment rfl (by simp [splitGap])⟩
  | cons c cs ih =>
      obtain ⟨hgap, hcomment⟩ := ih
      constructor
      · by_cases hblank : isBlank c = true
        · have hstep : gapStep false c = some false := by simp [gapStep, hblank]
          simp only [splitGap, hstep]
          exact IsGap.blank hblank hgap
        · by_cases hsemicolon : c = ';'
          · subst hsemicolon
            exact hcomment
          · have hstep : gapStep false c = none := by simp [gapStep, hblank, hsemicolon]
            simp only [splitGap, hstep]
            exact IsGap.nil
      · by_cases hend : c = '\n'
        · subst hend
          have hempty : '\n' ∉ ([] : List Char) := by simp
          exact IsGap.comment hempty hgap
        · have hstep : gapStep true c = some true := by simp [gapStep, hend]
          simp only [splitGap, hstep]
          exact hcomment.longer_comment hend

/-! ## What is used up -/

namespace Scanner

/-- Whether the scanner `s'` stands behind the characters `cs` that come next in `s`. -/
structure Passes (s : Scanner) (cs : List Char) (s' : Scanner) : Prop where
  rest_eq : s.rest = cs ++ s'.rest
  offset_eq : s'.offset = s.offset + byteSize cs

theorem Passes.refl (s : Scanner) : s.Passes [] s := ⟨rfl, rfl⟩

theorem Passes.trans {s t u : Scanner} {cs ds : List Char} (h : s.Passes cs t)
    (h' : t.Passes ds u) : s.Passes (cs ++ ds) u := by
  refine ⟨?_, ?_⟩
  · rw [h.rest_eq, h'.rest_eq, List.append_assoc]
  · rw [h'.offset_eq, h.offset_eq, byteSize_append, Nat.add_assoc]

/-- The characters between two places are those that lead from one to the other. -/
theorem Passes.textUpTo_eq {s s' : Scanner} {cs : List Char} (h : s.Passes cs s') :
    s.textUpTo s' = cs := by
  have hlength : s.rest.length - s'.rest.length = cs.length := by
    rw [h.rest_eq, List.length_append]
    omega
  rw [textUpTo, hlength, h.rest_eq, List.take_left]

theorem passes_skip (s : Scanner) : s.Passes (splitGap false s.rest).1 s.skip :=
  ⟨(splitGap_append false s.rest).symm, rfl⟩

theorem passes_of_lexeme? {s s' : Scanner} {lexeme : Lexeme}
    (h : s.lexeme? = some (lexeme, s')) : s.skip.Passes lexeme.text s' ∧ lexeme.text ≠ [] := by
  obtain ⟨⟨l, rest⟩, hfirst, heq⟩ := Option.map_eq_some_iff.mp h
  obtain ⟨rfl, rfl⟩ := Prod.mk.inj heq
  exact ⟨⟨(Lexeme.text_append_of_first? hfirst).symm, rfl⟩, Lexeme.text_ne_nil_of_first? hfirst⟩

/-- Some characters are used up on the way to the place behind a lexeme. -/
theorem exists_passes_of_lexeme? {s s' : Scanner} {lexeme : Lexeme}
    (h : s.lexeme? = some (lexeme, s')) : ∃ cs, s.Passes cs s' :=
  ⟨_, s.passes_skip.trans (passes_of_lexeme? h).1⟩

/-- Whether gaps and lexemes lead from one place of a scanner to another. -/
inductive Reaches (s : Scanner) : Scanner → Prop
  | refl : Reaches s s
  | gap {t : Scanner} : Reaches s t → Reaches s t.skip
  | lexeme {t u : Scanner} {lexeme : Lexeme} : Reaches s t → t.lexeme? = some (lexeme, u) →
      Reaches s u

theorem Reaches.trans {s t u : Scanner} (h : s.Reaches t) (h' : t.Reaches u) : s.Reaches u := by
  induction h' with
  | refl => exact h
  | gap _ ih => exact ih.gap
  | lexeme _ hlexeme ih => exact ih.lexeme hlexeme

theorem Reaches.exists_passes {s t : Scanner} (h : s.Reaches t) : ∃ cs, s.Passes cs t := by
  induction h with
  | refl => exact ⟨[], Passes.refl s⟩
  | @gap t _ ih =>
      obtain ⟨cs, hcs⟩ := ih
      exact ⟨_, hcs.trans t.passes_skip⟩
  | lexeme _ hlexeme ih =>
      obtain ⟨cs, hcs⟩ := ih
      obtain ⟨ds, hds⟩ := exists_passes_of_lexeme? hlexeme
      exact ⟨_, hcs.trans hds⟩

theorem reaches_characterLiteral (s : Scanner) : s.Reaches s.characterLiteral.2 := by
  unfold characterLiteral
  split
  · exact Reaches.refl.gap
  · next run behindCode hcode =>
    have hbehind : s.Reaches behindCode := Reaches.refl.lexeme hcode
    split
    · exact hbehind
    · split
      · exact hbehind.gap
      · next last hclose => exact hbehind.lexeme hclose
      · next other last _ hother => exact hbehind.lexeme hother
  · next other last _ hother => exact Reaches.refl.lexeme hother

theorem reaches_complete (lexeme : Lexeme) (s : Scanner) : s.Reaches (complete lexeme s).2 := by
  cases lexeme
  -- only an opening parenthesis may take more than its own lexeme
  case openParen =>
    show s.Reaches s.afterOpen.2
    unfold afterOpen
    split
    · next run behindHead hhead =>
      have hbehind : s.Reaches behindHead := Reaches.refl.lexeme hhead
      by_cases hcode : String.ofList run = Symbol.codeChar
      · rw [if_pos hcode]
        exact hbehind.trans behindHead.reaches_characterLiteral
      · rw [if_neg hcode]
        exact Reaches.refl
    · exact Reaches.refl
  all_goals exact Reaches.refl

theorem exists_passes_complete (lexeme : Lexeme) (s : Scanner) :
    ∃ cs, s.Passes cs (complete lexeme s).2 :=
  (reaches_complete lexeme s).exists_passes

/-! ## One request -/

/-- The span of a token or of a lexical error. -/
def resultSpan (result : Except LexError (Located Token)) : Span :=
  match result with
  | .ok token => token.span
  | .error e => e.span

/-- A result covers a piece of text behind the gap; the scanner is left behind that piece. -/
theorem next_eq_some {s s' : Scanner} {result : Except LexError (Located Token)}
    (h : s.next = (some result, s')) :
    ∃ body, body ≠ [] ∧ s.skip.Passes body s' ∧ resultSpan result = ⟨s.skip.offset, s'.offset⟩ ∧
      ∀ e, result = .error e → e.lexeme = String.ofList body := by
  unfold next at h
  split at h
  · cases (Prod.mk.inj h).1
  · next lexeme behind hlexeme =>
    obtain ⟨hfirst, hne⟩ := passes_of_lexeme? hlexeme
    obtain ⟨cs, hmore⟩ := exists_passes_complete lexeme behind
    have hwhole := hfirst.trans hmore
    have hbody : lexeme.text ++ cs ≠ [] := by
      simp [hne]
    refine ⟨lexeme.text ++ cs, hbody, ?_⟩
    dsimp only at h
    split at h
    · obtain ⟨hresult, rfl⟩ := Prod.mk.inj h
      obtain rfl := Option.some.inj hresult
      exact ⟨hwhole, rfl, by simp⟩
    · obtain ⟨hresult, rfl⟩ := Prod.mk.inj h
      obtain rfl := Option.some.inj hresult
      refine ⟨hwhole, rfl, fun e he => ?_⟩
      obtain rfl := Except.error.inj he
      rw [hwhole.textUpTo_eq]

theorem next_eq_none {s s' : Scanner} (h : s.next = (none, s')) :
    s' = s.skip ∧ s.skip.rest = [] := by
  unfold next at h
  split at h
  · next hlexeme =>
    have hfirst : Lexeme.first? s.skip.rest = none := by simpa [lexeme?] using hlexeme
    refine ⟨(Prod.mk.inj h).2.symm, ?_⟩
    cases hrest : s.skip.rest with
    | nil => rfl
    | cons c cs =>
        rw [hrest, Lexeme.first?] at hfirst
        repeat' split at hfirst
        all_goals cases hfirst
  · dsimp only at h
    split at h <;> cases (Prod.mk.inj h).1

/-- At the end of the text a scanner stays where it is. -/
theorem next_of_rest_eq_nil {s : Scanner} (h : s.rest = []) : s.next = (none, s) := by
  obtain ⟨rest, offset⟩ := s
  obtain rfl : rest = [] := h
  rfl

theorem rest_of_next_none {s s' : Scanner} (h : s.next = (none, s')) : s'.rest = [] := by
  obtain ⟨rfl, hrest⟩ := next_eq_none h
  exact hrest

theorem gap_of_next_none {s s' : Scanner} (h : s.next = (none, s')) :
    (splitGap false s.rest).1 = s.rest := by
  obtain ⟨rfl, hrest⟩ := next_eq_none h
  have hskip := s.passes_skip.rest_eq
  rw [hrest, List.append_nil] at hskip
  exact hskip.symm

/-- Where nothing is left, a request uses up all of the text. -/
theorem passes_of_next_none {s s' : Scanner} (h : s.next = (none, s')) : s.Passes s.rest s' := by
  have hskip := s.passes_skip
  rwa [gap_of_next_none h, ← (next_eq_none h).1] at hskip

theorem results_of_next_none {s s' : Scanner} (h : s.next = (none, s')) : s.results = [] := by
  rw [results, h]

theorem results_of_next_some {s s' : Scanner} {result : Except LexError (Located Token)}
    (h : s.next = (some result, s')) : s.results = result :: s'.results := by
  rw [results, h]

/-! ## A whole run -/

/-- Whether results tile a text that begins at the byte `start`. Each covers a piece that is not
empty and stands behind a gap, has the span of that piece, and quotes it if it is an error; a
gap is left at the end. -/
inductive Tiles : Nat → List Char → List (Except LexError (Located Token)) → Prop
  | last {start : Nat} {gap : List Char} : IsGap True gap → Tiles start gap []
  | cons {start : Nat} {gap body rest : List Char} {result : Except LexError (Located Token)}
      {results : List (Except LexError (Located Token))} :
      IsGap False gap → body ≠ [] →
      resultSpan result = ⟨start + byteSize gap, start + byteSize (gap ++ body)⟩ →
      (∀ e, result = .error e → e.lexeme = String.ofList body) →
      Tiles (start + byteSize (gap ++ body)) rest results →
      Tiles start (gap ++ body ++ rest) (result :: results)

/-- The results of a scanner tile the text that it has not read yet. -/
theorem tiles_results (s : Scanner) : Tiles s.offset s.rest s.results := by
  obtain ⟨hsplit, -⟩ := isGap_splitGap s.rest
  have hskip := s.passes_skip
  rcases hnext : s.next with ⟨_ | result, s'⟩
  · rw [gap_of_next_none hnext] at hsplit
    rw [results_of_next_none hnext]
    exact Tiles.last (hsplit.imp fun _ => trivial)
  · obtain ⟨body, hbody, hpasses, hspan, hlexeme⟩ := next_eq_some hnext
    -- a piece follows the gap, so the text does not end there
    have hmore : (splitGap false s.rest).2 ≠ [] := by
      show s.skip.rest ≠ []
      simp [hpasses.rest_eq, hbody]
    have hwhole := hskip.trans hpasses
    have hshorter := length_lt_of_next hnext
    have hrest := tiles_results s'
    rw [hwhole.offset_eq] at hrest
    rw [results_of_next_some hnext, hwhole.rest_eq]
    refine Tiles.cons (hsplit.imp hmore) hbody ?_ hlexeme hrest
    rw [hspan, hskip.offset_eq, hwhole.offset_eq]
termination_by s.rest.length

/-! ## What a tiling says of each result -/

section Tilings

variable {start : Nat} {cs : List Char} {results : List (Except LexError (Located Token))}

/-- Each result of a tiling covers a piece of the text. -/
theorem Tiles.exists_piece (h : Tiles start cs results) {result : Except LexError (Located Token)}
    (hresult : result ∈ results) :
    ∃ before body after : List Char, cs = before ++ body ++ after ∧ body ≠ [] ∧
      resultSpan result = ⟨start + byteSize before, start + byteSize (before ++ body)⟩ ∧
      ∀ e, result = .error e → e.lexeme = String.ofList body := by
  induction h with
  | last _ => cases hresult
  | @cons start gap body rest first results _ hbody hspan hlexeme _ ih =>
      rcases List.mem_cons.mp hresult with rfl | hlater
      · exact ⟨gap, body, rest, rfl, hbody, hspan, hlexeme⟩
      · obtain ⟨before, piece, after, rfl, hpiece, hspan', hlexeme'⟩ := ih hlater
        refine ⟨gap ++ body ++ before, piece, after, by simp, hpiece, ?_, hlexeme'⟩
        rw [hspan']
        simp [Nat.add_assoc]

/-- The results of a tiling come one behind the other. -/
theorem Tiles.pairwise (h : Tiles start cs results) :
    results.Pairwise fun a b => (resultSpan a).start < (resultSpan b).start ∧
      (resultSpan a).stop ≤ (resultSpan b).start := by
  induction h with
  | last _ => exact List.Pairwise.nil
  | @cons start gap body rest first results _ hbody hspan _ hrest ih =>
      refine List.Pairwise.cons (fun result hresult => ?_) ih
      obtain ⟨before, piece, -, -, -, hspan', -⟩ := hrest.exists_piece hresult
      have hsize := byteSize_pos hbody
      rw [hspan, hspan', byteSize_append]
      constructor
      · show start + byteSize gap < start + (byteSize gap + byteSize body) + byteSize before
        omega
      · exact Nat.le_add_right _ _

/-- A text has no more results than bytes. -/
theorem Tiles.length_le (h : Tiles start cs results) : results.length ≤ byteSize cs := by
  induction h with
  | last _ => exact Nat.zero_le _
  | @cons start gap body rest first results _ hbody _ _ _ ih =>
      have hpiece := byteSize_pos hbody
      rw [List.length_cons, byteSize_append, byteSize_append]
      omega

end Tilings

/-! ## Repeated requests -/

/-- The scanner behind a number of requests for a token. -/
def after (s : Scanner) : Nat → Scanner
  | 0 => s
  | n + 1 => s.next.2.after n

/-- Behind a number of requests the other results are left. -/
theorem results_after (s : Scanner) (n : Nat) : (s.after n).results = s.results.drop n := by
  induction n generalizing s with
  | zero => rfl
  | succ n ih =>
      rw [after, ih]
      rcases hnext : s.next with ⟨_ | result, s'⟩
      · have hend := results_of_next_none (next_of_rest_eq_nil (rest_of_next_none hnext))
        rw [results_of_next_none hnext, hend, List.drop_nil, List.drop_nil]
      · rw [results_of_next_some hnext, List.drop_succ_cons]

/-- Requests give the results in their order, each leaving the scanner behind the result. -/
theorem next_after_lt (s : Scanner) (n : Nat) (h : n < s.results.length) :
    (s.after n).next.1 = some s.results[n] ∧
      (s.after (n + 1)).offset = (resultSpan s.results[n]).stop := by
  induction n generalizing s with
  | zero =>
      rcases hnext : s.next with ⟨_ | result, s'⟩
      · rw [results_of_next_none hnext] at h
        cases h
      · obtain ⟨body, -, -, hspan, -⟩ := next_eq_some hnext
        simp [after, hnext, results_of_next_some hnext, hspan]
  | succ n ih =>
      rcases hnext : s.next with ⟨_ | result, s'⟩
      · rw [results_of_next_none hnext] at h
        cases h
      · have hresults := results_of_next_some hnext
        have hlater : n < s'.results.length := by
          rw [hresults, List.length_cons] at h
          omega
        simpa [after, hnext, hresults] using ih s' hlater

/-- Behind the last result each request finds the end of the text and stays there. -/
theorem next_after_ge (s : Scanner) (n : Nat) (h : s.results.length ≤ n) :
    (s.after n).next.1 = none ∧ (s.after (n + 1)).offset = s.offset + byteSize s.rest := by
  induction n generalizing s with
  | zero =>
      rcases hnext : s.next with ⟨_ | result, s'⟩
      · simp [after, hnext, (passes_of_next_none hnext).offset_eq]
      · rw [results_of_next_some hnext] at h
        cases h
  | succ n ih =>
      rcases hnext : s.next with ⟨_ | result, s'⟩
      · have hpasses := passes_of_next_none hnext
        have hend := rest_of_next_none hnext
        have hnone := results_of_next_none (next_of_rest_eq_nil hend)
        have hlater := ih s' (by simp [hnone])
        rw [hend, hpasses.offset_eq] at hlater
        simpa [after, hnext] using hlater
      · obtain ⟨body, -, hpasses, -, -⟩ := next_eq_some hnext
        have hwhole := s.passes_skip.trans hpasses
        have hlater : s'.results.length ≤ n := by
          rw [results_of_next_some hnext, List.length_cons] at h
          omega
        have hsize := congrArg byteSize hwhole.rest_eq
        rw [byteSize_append] at hsize
        have hih := ih s' hlater
        rw [hwhole.offset_eq, Nat.add_assoc, ← hsize] at hih
        simpa [after, hnext] using hih

end Scanner

/-! ## The tiling of a text -/

open Scanner (resultSpan Tiles)

/-- **Tokens and errors tile the source.** The results of scanning a text stand between gaps of
blanks and comments that make up the text with them. Each has the span of a piece of the text
that is not empty, and an error quotes that piece; the spans increase and do not overlap. There
are at most as many results as bytes. Each request for a token gives the next of them and leaves
the scanner at its end; all further requests give nothing and leave it at the end of the text. -/
theorem Scanner.results_tile_source (source : String) :
    Tiles 0 source.toList (ofString source).results ∧
    (∀ result ∈ (ofString source).results, ∃ before piece behind : String,
      source = before ++ piece ++ behind ∧ piece ≠ "" ∧
      resultSpan result = ⟨before.utf8ByteSize, (before ++ piece).utf8ByteSize⟩ ∧
      ∀ e, result = .error e → e.lexeme = piece) ∧
    (ofString source).results.Pairwise (fun a b =>
      (resultSpan a).start < (resultSpan b).start ∧
        (resultSpan a).stop ≤ (resultSpan b).start) ∧
    (ofString source).results.length ≤ source.utf8ByteSize ∧
    (∀ (n : Nat) (h : n < (ofString source).results.length),
      ((ofString source).after n).next.1 = some (ofString source).results[n] ∧
      ((ofString source).after (n + 1)).offset =
        (resultSpan (ofString source).results[n]).stop) ∧
    (∀ n : Nat, (ofString source).results.length ≤ n →
      ((ofString source).after n).next.1 = none ∧
      ((ofString source).after (n + 1)).offset = source.utf8ByteSize) := by
  have htiles : Tiles 0 source.toList (ofString source).results :=
    tiles_results (ofString source)
  refine ⟨htiles, fun result hresult => ?_, htiles.pairwise, ?_, (ofString source).next_after_lt,
    fun n hn => ?_⟩
  · obtain ⟨before, body, behind, hsource, hbody, hspan, hlexeme⟩ := htiles.exists_piece hresult
    refine ⟨String.ofList before, String.ofList body, String.ofList behind, ?_, ?_, ?_, hlexeme⟩
    · rw [← String.ofList_append, ← String.ofList_append, ← hsource, String.ofList_toList]
    · simpa using hbody
    · rw [hspan, ← String.ofList_append, utf8ByteSize_ofList, utf8ByteSize_ofList, Nat.zero_add,
        Nat.zero_add]
  · rw [utf8ByteSize_eq_byteSize]
    exact htiles.length_le
  · obtain ⟨hnone, hoffset⟩ := (ofString source).next_after_ge n hn
    refine ⟨hnone, ?_⟩
    rw [hoffset, utf8ByteSize_eq_byteSize]
    exact Nat.zero_add _

end MakerForms
