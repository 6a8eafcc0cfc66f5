import MakerForms.Proofs.Sexpr.Balanced
import MakerForms.Proofs.Sexpr.Tiling

set_option autoImplicit false

/-! # Reading depends on the tokens alone

Two texts with the same tokens and faults read the same (`Scanner.readAll_congr`): they give the
same values, or errors that differ in nothing but the place they name and the text they quote.
Such errors have the same reason (`ReadError.reason`).

Of the tokens of one value it is shown what reading them gives (`Value.read_of_tokens`): the value
if it nests lists at most `maxDepth` deep, and otherwise the error that lists nest too deep.
-/

namespace MakerForms

open Value (joinedTokens)

section Steps

variable {ε ε' α : Type}

@[simp] theorem mapError_ok (f : ε → ε') (a : α) :
    (.ok a : Except ε α).mapError f = .ok a := rfl

@[simp] theorem mapError_error (f : ε → ε') (e : ε) :
    (.error e : Except ε α).mapError f = .error (f e) := rfl

end Steps

/-! ## Reasons of errors -/

/-- What is wrong with a text, whatever the place. -/
inductive ReadError.Reason
  | lexical (fault : LexFault)
  | malformed (fault : SyntaxFault)
deriving DecidableEq, Repr

/-- What is wrong according to an error: the kind of the lexical error, or the fault that the
message of the syntax error tells. -/
def ReadError.reason : ReadError → ReadError.Reason
  | lexical e => .lexical e.fault
  | malformed fault _ => .malformed fault

namespace Progress

/-- What has been read, without the places of parentheses. -/
def content : Progress → Value ⊕ List (List Value)
  | done v => .inl v
  | more stack => .inr (stack.map OpenList.items)

theorem content_deliver {v : Value} {stack stack' : List OpenList}
    (hstack : stack.map OpenList.items = stack'.map OpenList.items) :
    (deliver v stack).content = (deliver v stack').content := by
  cases stack with
  | nil =>
      obtain rfl : stack' = [] := List.map_eq_nil_iff.mp hstack.symm
      rfl
  | cons inner outer =>
      obtain ⟨inner', outer', rfl, hitems, houter⟩ := List.map_eq_cons_iff.mp hstack.symm
      simp [deliver, content, hitems, houter]

/-- A step depends on the token and the items of the lists that are open, on no place. -/
theorem step_congr {stack stack' : List OpenList} {token token' : Located Token}
    (hstack : stack.map OpenList.items = stack'.map OpenList.items)
    (htoken : token.value = token'.value) :
    ((step stack token).map content).mapError ReadError.reason =
      ((step stack' token').map content).mapError ReadError.reason := by
  obtain ⟨t, span⟩ := token
  obtain ⟨t', span'⟩ := token'
  obtain rfl : t = t' := htoken
  cases t with
  | openParen =>
      have hlength : stack.length = stack'.length := by
        simpa using congrArg List.length hstack
      by_cases hroom : stack.length < maxDepth
      · have hroom' : stack'.length < maxDepth := by omega
        simp [step, hroom, hroom', Except.map, content, hstack]
      · have hroom' : ¬ stack'.length < maxDepth := by omega
        simp [step, hroom, hroom', Except.map, ReadError.reason]
  | closeParen =>
      cases stack with
      | nil =>
          obtain rfl : stack' = [] := List.map_eq_nil_iff.mp hstack.symm
          rfl
      | cons inner outer =>
          obtain ⟨inner', outer', rfl, hitems, houter⟩ := List.map_eq_cons_iff.mp hstack.symm
          simp only [step, Except.map, mapError_ok, hitems]
          rw [content_deliver houter]
  | symbol a | integer a | string a | character a =>
      simp only [step, Except.map, mapError_ok]
      rw [content_deliver hstack]

end Progress

namespace Scanner

open Progress

/-! ## Two texts with the same tokens -/

section Congruence

variable {s s' t : Scanner}

theorem next_none_congr (htokens : s.tokens = s'.tokens) (h : s.next = (none, t)) :
    ∃ t', s'.next = (none, t') := by
  rw [tokens_of_next_none h] at htokens
  exact next_of_tokens_eq_nil htokens.symm

theorem next_some_congr {result : Except LexError (Located Token)} (htokens : s.tokens = s'.tokens)
    (h : s.next = (some result, t)) :
    ∃ result' t', s'.next = (some result', t') ∧ meaning result' = meaning result ∧
      t.tokens = t'.tokens := by
  rw [tokens_of_next_some h] at htokens
  rcases hnext : s'.next with ⟨_ | result', t'⟩
  · rw [tokens_of_next_none hnext] at htokens
    cases htokens
  · rw [tokens_of_next_some hnext] at htokens
    obtain ⟨hmeaning, hrest⟩ := List.cons.inj htokens
    exact ⟨result', t', rfl, hmeaning.symm, hrest⟩

theorem next_ok_congr {token : Located Token} (htokens : s.tokens = s'.tokens)
    (h : s.next = (some (.ok token), t)) :
    ∃ token' t', s'.next = (some (.ok token'), t') ∧ token.value = token'.value ∧
      t.tokens = t'.tokens := by
  obtain ⟨result, t', hnext, hmeaning, hrest⟩ := next_some_congr htokens h
  cases result with
  | ok token' => exact ⟨token', t', hnext, (Except.ok.inj hmeaning).symm, hrest⟩
  | error e => cases hmeaning

/-- At the end of the text there are no tokens left. -/
theorem tokens_behind_end (h : s.next = (none, t)) : t.tokens = [] :=
  tokens_of_next_none (next_of_rest_eq_nil (rest_of_next_none h))

end Congruence

/-- What reading a value gives without places, and the tokens it leaves. -/
def valueOutcome (s : Scanner) (stack : List OpenList) :
    Except ReadError.Reason Value × List (Except LexFault Token) :=
  ((s.readValue stack).1.mapError ReadError.reason, (s.readValue stack).2.tokens)

theorem readValue_of_fault {s t : Scanner} {e : LexError} (stack : List OpenList)
    (hnext : s.next = (some (.error e), t)) : s.readValue stack = (.error (.lexical e), t) := by
  rw [readValue, hnext]

theorem readValue_of_step_error {s t : Scanner} {stack : List OpenList} {token : Located Token}
    {e : ReadError} (hnext : s.next = (some (.ok token), t)) (hstep : step stack token = .error e) :
    s.readValue stack = (.error e, t) := by
  rw [readValue, hnext]
  simp only [hstep]

/-- Reading a value depends on the tokens and the items of the lists that are open. -/
theorem valueOutcome_congr {s s' : Scanner} {stack stack' : List OpenList}
    (htokens : s.tokens = s'.tokens)
    (hstack : stack.map OpenList.items = stack'.map OpenList.items) :
    s.valueOutcome stack = s'.valueOutcome stack' := by
  unfold valueOutcome
  induction s, stack using readValue.induct generalizing s' stack' with
  | case1 s stack t hnext =>
      obtain ⟨t', hnext'⟩ := next_none_congr htokens hnext
      have hread : s.readValue stack = (.error (atEnd t.offset stack), t) := by
        rw [readValue, hnext]
      have hread' : s'.readValue stack' = (.error (atEnd t'.offset stack'), t') := by
        rw [readValue, hnext']
      have hreason : (atEnd t.offset stack).reason = (atEnd t'.offset stack').reason := by
        cases stack with
        | nil =>
            obtain rfl : stack' = [] := List.map_eq_nil_iff.mp hstack.symm
            rfl
        | cons inner outer =>
            obtain ⟨inner', outer', rfl, -, -⟩ := List.map_eq_cons_iff.mp hstack.symm
            rfl
      simp only [hread, hread', tokens_behind_end hnext, tokens_behind_end hnext',
        mapError_error, hreason]
  | case2 s stack e t hnext =>
      obtain ⟨result, t', hnext', hmeaning, hrest⟩ := next_some_congr htokens hnext
      cases result with
      | ok token => cases hmeaning
      | error e' =>
          have hfault : e'.fault = e.fault := Except.error.inj hmeaning
          simp only [readValue_of_fault stack hnext, readValue_of_fault stack' hnext',
            mapError_error, ReadError.reason, hfault, hrest]
  | case3 s stack token t hnext e hstep =>
      obtain ⟨token', t', hnext', hvalue, hrest⟩ := next_ok_congr htokens hnext
      have hcongr := step_congr hstack hvalue
      rcases hstep' : step stack' token' with e' | p
      · have hreason : e.reason = e'.reason := by
          simpa [hstep, hstep', Except.map] using hcongr
        simp only [readValue_of_step_error hnext hstep, readValue_of_step_error hnext' hstep',
          mapError_error, hreason, hrest]
      · simp [hstep, hstep', Except.map] at hcongr
  | case4 s stack token t hnext v hstep =>
      obtain ⟨token', t', hnext', hvalue, hrest⟩ := next_ok_congr htokens hnext
      have hcongr := step_congr hstack hvalue
      rcases hstep' : step stack' token' with e' | v' | stack₁'
      · simp [hstep, hstep', Except.map] at hcongr
      · obtain rfl : v = v' := by
          simpa [hstep, hstep', Except.map, content] using hcongr
        simp only [readValue_of_step hnext hstep, readValue_of_step hnext' hstep', resume,
          mapError_ok, hrest]
      · simp [hstep, hstep', Except.map, content] at hcongr
  | case5 s stack token t hnext stack₁ hstep ih =>
      obtain ⟨token', t', hnext', hvalue, hrest⟩ := next_ok_congr htokens hnext
      have hcongr := step_congr hstack hvalue
      rcases hstep' : step stack' token' with e' | v' | stack₁'
      · simp [hstep, hstep', Except.map] at hcongr
      · simp [hstep, hstep', Except.map, content] at hcongr
      · have hstack₁ : stack₁.map OpenList.items = stack₁'.map OpenList.items := by
          simpa [hstep, hstep', Except.map, content] using hcongr
        rw [readValue_of_step hnext hstep, readValue_of_step hnext' hstep']
        exact ih hrest hstack₁

/-- Reading all values depends on the tokens. -/
theorem readAll_congr {s s' : Scanner} (before : List Value) (htokens : s.tokens = s'.tokens) :
    (s.readAll before).1.mapError ReadError.reason =
      (s'.readAll before).1.mapError ReadError.reason := by
  induction s, before using readAll.induct generalizing s' with
  | case1 s before t hnext =>
      obtain ⟨t', hnext'⟩ := next_none_congr htokens hnext
      rw [readAll, hnext, readAll, hnext']
  | case2 s before e t hnext =>
      obtain ⟨result, t', hnext', hmeaning, -⟩ := next_some_congr htokens hnext
      cases result with
      | ok token => cases hmeaning
      | error e' =>
          have hfault : e'.fault = e.fault := Except.error.inj hmeaning
          rw [readAll, hnext, readAll, hnext']
          simp only [mapError_error, ReadError.reason, hfault]
  | case3 s before token t hnext e s₂ hread =>
      obtain ⟨token', t', hnext', -, -⟩ := next_ok_congr htokens hnext
      have hvalue : s.valueOutcome [] = s'.valueOutcome [] := valueOutcome_congr htokens rfl
      rcases hread' : s'.readValue [] with ⟨e' | v', s₂'⟩
      · have hreason : e.reason = e'.reason ∧ s₂.tokens = s₂'.tokens := by
          simpa [valueOutcome, hread, hread'] using hvalue
        rw [readAll_of_next hnext, readAll_of_next hnext', hread, hread']
        simp only [mapError_error, hreason.1]
      · simp [valueOutcome, hread, hread'] at hvalue
  | case4 s before token t hnext v s₂ hread ih =>
      obtain ⟨token', t', hnext', -, -⟩ := next_ok_congr htokens hnext
      have hvalue : s.valueOutcome [] = s'.valueOutcome [] := valueOutcome_congr htokens rfl
      rcases hread' : s'.readValue [] with ⟨e' | v', s₂'⟩
      · simp [valueOutcome, hread, hread'] at hvalue
      · obtain ⟨rfl, hrest⟩ : v = v' ∧ s₂.tokens = s₂'.tokens := by
          simpa [valueOutcome, hread, hread'] using hvalue
        rw [readAll_of_next hnext, readAll_of_next hnext', hread, hread']
        exact ih hrest

/-! ## Values that nest too deep -/

mutual

/-- Reading the tokens of a value that would nest too deep fails where the limit is passed. -/
theorem readValue_tooDeep : (v : Value) → (s : Scanner) → (stack : List OpenList) →
    (rest : List (Except LexFault Token)) → s.tokens = v.tokens.map .ok ++ rest →
    stack.length ≤ maxDepth → maxDepth < stack.length + v.depth →
    ∃ span s', s.readValue stack = (.error (.malformed .nestedTooDeep span), s')
  | .list vs, s, stack, rest, hs, _, hdeep => by
      rw [Value.depth] at hdeep
      simp only [Value.tokens, List.map_cons, List.map_append, List.map_nil, List.cons_append,
        List.append_assoc, List.nil_append] at hs
      obtain ⟨⟨t, paren⟩, s₁, hopen, rfl, hs₁⟩ := next_of_tokens_eq_cons hs
      by_cases hroom : stack.length < maxDepth
      · have hstep : step stack ⟨.openParen, paren⟩ = .ok (.more (⟨paren, []⟩ :: stack)) := by
          simp only [step, if_pos hroom]
        obtain ⟨span, s', hread⟩ :=
          readValue_joined_tooDeep vs s₁ ⟨paren, []⟩ stack _ hs₁ (by omega) (by omega)
        exact ⟨span, s', by rw [readValue_of_step hopen hstep, resume, hread]⟩
      · have hstep : step stack ⟨.openParen, paren⟩ = .error (.malformed .nestedTooDeep paren) := by
          simp only [step, if_neg hroom]
        exact ⟨paren, s₁, readValue_of_step_error hopen hstep⟩
  -- an atom adds nothing to the lists around it
  | .symbol _, _, _, _, _, hstack, hdeep | .integer _, _, _, _, _, hstack, hdeep
  | .string _, _, _, _, _, hstack, hdeep | .character _, _, _, _, _, hstack, hdeep => by
      rw [Value.depth] at hdeep
      omega

theorem readValue_joined_tooDeep : (vs : List Value) → (s : Scanner) → (inner : OpenList) →
    (outer : List OpenList) → (rest : List (Except LexFault Token)) →
    s.tokens = (joinedTokens vs).map .ok ++ rest → outer.length + 1 ≤ maxDepth →
    maxDepth < outer.length + 1 + Value.depthAll vs →
    ∃ span s', s.readValue (inner :: outer) = (.error (.malformed .nestedTooDeep span), s')
  | [], _, _, _, _, _, houter, hdeep => by
      rw [Value.depthAll] at hdeep
      omega
  | v :: vs, s, inner, outer, rest, hs, houter, hdeep => by
      rw [Value.depthAll] at hdeep
      rw [joinedTokens, List.map_append, List.append_assoc] at hs
      by_cases hv : outer.length + 1 + v.depth ≤ maxDepth
      · obtain ⟨s₁, hs₁, hread₁⟩ := readValue_tokens v s (inner :: outer) _ hs hv
        obtain ⟨span, s', hread⟩ := readValue_joined_tooDeep vs s₁ ⟨inner.paren, v :: inner.items⟩
          outer rest hs₁ houter (by omega)
        exact ⟨span, s', by rw [hread₁, deliver, resume, hread]⟩
      · exact readValue_tooDeep v s (inner :: outer) _ hs houter (by rw [List.length_cons]; omega)

end

end Scanner

/-- What a text with the tokens of one value reads as: the value, unless it nests too deep. -/
theorem Value.read_of_tokens {source : String} {v : Value}
    (h : (Scanner.ofString source).tokens = v.tokens.map .ok) :
    (v.depth ≤ maxDepth → Value.read source = .ok v) ∧
      (maxDepth < v.depth →
        ∃ span, Value.read source = .error (.malformed .nestedTooDeep span)) := by
  have htokens : (Scanner.ofString source).tokens = v.tokens.map .ok ++ [] := by
    rw [h, List.append_nil]
  have hone : (Reader.ofString source).one = (((Scanner.ofString source).readValue []).1,
      ⟨source, ((Scanner.ofString source).readValue []).2⟩) := rfl
  constructor
  · intro hdepth
    obtain ⟨s', hs', hread⟩ := Scanner.readValue_tokens v _ [] [] htokens (by simpa using hdepth)
    obtain ⟨s₂, hend⟩ := Scanner.next_of_tokens_eq_nil hs'
    rw [Progress.deliver, Scanner.resume] at hread
    rw [Value.read, hone, hread]
    simp only [hend]
  · intro hdeep
    obtain ⟨span, s', hread⟩ := Scanner.readValue_tooDeep v _ [] [] htokens (Nat.zero_le _)
      (by simpa using hdeep)
    exact ⟨span, by rw [Value.read, hone, hread]⟩

/-- A text reads as one value exactly if its tokens are those of the value and it is not too
deep. -/
theorem Value.read_eq_ok_iff_tokens {source : String} {v : Value} :
    Value.read source = .ok v ↔
      (Scanner.ofString source).tokens = v.tokens.map .ok ∧ v.depth ≤ maxDepth := by
  constructor
  · intro h
    have hone : (Reader.ofString source).one = (((Scanner.ofString source).readValue []).1,
        ⟨source, ((Scanner.ofString source).readValue []).2⟩) := rfl
    rcases hread : (Scanner.ofString source).readValue [] with ⟨e | u, s'⟩
    · rw [Value.read, hone, hread] at h
      cases h
    · rw [Value.read, hone, hread] at h
      -- nothing may follow the value, so the tokens are those that it was read from
      rcases hnext : s'.next with ⟨_ | e | token, s''⟩
      · simp only [hnext] at h
        obtain rfl := Except.ok.inj h
        have hnone : Progress.ShallowStack [] := trivial
        obtain ⟨ts, hts, hu, hdepth⟩ := Scanner.tokens_of_readValue_eq_ok hnone hread
        obtain rfl : ts = u.tokens := hu
        refine ⟨?_, hdepth⟩
        rw [hts, Scanner.tokens_of_next_none hnext, List.append_nil]
      · simp only [hnext] at h
        cases h
      · simp only [hnext] at h
        cases h
  · rintro ⟨htokens, hdepth⟩
    exact (Value.read_of_tokens htokens).1 hdepth

end MakerForms
