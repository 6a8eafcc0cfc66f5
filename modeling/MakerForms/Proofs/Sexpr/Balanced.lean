import MakerForms.Proofs.Sexpr.TokenView

set_option autoImplicit false

/-! # Reading accepts the balanced sequences of tokens

Lists that are open stand for the tokens read so far (`Progress.openTokens`). A step of reading
adds its token to them (`Progress.tokens_step`) and keeps the lists within the limit of nesting
(`Progress.shallow_step`); so a whole value has been read from its own tokens. Conversely,
reading goes through the tokens of a value of bounded depth without an error and delivers the
value (`Scanner.readValue_tokens`). Together: a text reads as certain values exactly if its
tokens are theirs and none of them is too deep (`Value.readAll_eq_ok_iff_tokens`).
-/

namespace MakerForms

open Value (joinedTokens)

namespace Progress

/-! ## What open lists stand for -/

/-- The tokens that lists that are open have been read from, given the innermost first. -/
def openTokens : List OpenList → List Token
  | [] => []
  | inner :: outer => openTokens outer ++ .openParen :: joinedTokens inner.items.reverse

/-- The tokens that have been read. -/
def tokens : Progress → List Token
  | done v => v.tokens
  | more stack => openTokens stack

theorem tokens_deliver (v : Value) (stack : List OpenList) :
    (deliver v stack).tokens = openTokens stack ++ v.tokens := by
  cases stack with
  | nil => rfl
  | cons inner outer => simp [deliver, tokens, openTokens, joinedTokens]

/-- A step of reading adds its token to those read before: none is lost, repeated or moved. -/
theorem tokens_step {stack : List OpenList} {token : Located Token} {p : Progress}
    (h : step stack token = .ok p) : p.tokens = openTokens stack ++ [token.value] := by
  obtain ⟨t, span⟩ := token
  cases t with
  | openParen =>
      simp only [step] at h
      split at h
      · obtain rfl := Except.ok.inj h
        simp [tokens, openTokens, joinedTokens]
      · cases h
  | closeParen =>
      cases stack with
      | nil => cases h
      | cons inner outer =>
          obtain rfl := Except.ok.inj h
          simp [tokens_deliver, openTokens, Value.tokens]
  | symbol a | integer a | string a | character a =>
      obtain rfl := Except.ok.inj h
      rw [tokens_deliver, Value.tokens]

/-! ## The limit of nesting -/

/-- Whether lists that are open, and what is in them, nest at most `maxDepth` deep. -/
def ShallowStack : List OpenList → Prop
  | [] => True
  | inner :: outer =>
    outer.length < maxDepth ∧ (∀ v ∈ inner.items, outer.length + 1 + v.depth ≤ maxDepth) ∧
      ShallowStack outer

/-- Whether all that has been read nests at most `maxDepth` deep. -/
def Shallow : Progress → Prop
  | done v => v.depth ≤ maxDepth
  | more stack => ShallowStack stack

theorem shallow_deliver {v : Value} {stack : List OpenList} (hstack : ShallowStack stack)
    (hv : stack.length + v.depth ≤ maxDepth) : (deliver v stack).Shallow := by
  cases stack with
  | nil => simpa [deliver, Shallow] using hv
  | cons inner outer =>
      obtain ⟨hlength, hitems, houter⟩ := hstack
      refine ⟨hlength, fun u hu => ?_, houter⟩
      rcases List.mem_cons.mp hu with rfl | hu
      · rwa [List.length_cons] at hv
      · exact hitems u hu

theorem length_le_of_shallowStack {stack : List OpenList} (h : ShallowStack stack) :
    stack.length ≤ maxDepth := by
  cases stack with
  | nil => exact Nat.zero_le _
  | cons inner outer => exact h.1

/-- A step of reading keeps within the limit of nesting. -/
theorem shallow_step {stack : List OpenList} {token : Located Token} {p : Progress}
    (hstack : ShallowStack stack) (h : step stack token = .ok p) : p.Shallow := by
  have hlength := length_le_of_shallowStack hstack
  obtain ⟨t, span⟩ := token
  cases t with
  | openParen =>
      simp only [step] at h
      split at h
      · next hroom =>
        obtain rfl := Except.ok.inj h
        exact ⟨hroom, fun v hv => by simp at hv, hstack⟩
      · cases h
  | closeParen =>
      cases stack with
      | nil => cases h
      | cons inner outer =>
          obtain rfl := Except.ok.inj h
          obtain ⟨hroom, hitems, houter⟩ := hstack
          -- the closed list is one deeper than its items, and stands in one list fewer
          refine shallow_deliver houter ?_
          have hdepth : Value.depthAll inner.items.reverse ≤ maxDepth - outer.length - 1 := by
            rw [Value.depthAll_le_iff]
            intro v hv
            have := hitems v (List.mem_reverse.mp hv)
            omega
          rw [Value.depth]
          omega
  | symbol a | integer a | string a | character a =>
      obtain rfl := Except.ok.inj h
      exact shallow_deliver hstack (by simpa [Value.depth] using hlength)

end Progress

namespace Scanner

open Progress

/-! ## What is read comes from its tokens -/

/-- A value that is read has been read from its tokens, and is not too deep. -/
theorem tokens_of_readValue_eq_ok {s s' : Scanner} {stack : List OpenList} {v : Value}
    (hstack : ShallowStack stack) (h : s.readValue stack = (.ok v, s')) :
    ∃ ts : List Token, s.tokens = ts.map .ok ++ s'.tokens ∧ openTokens stack ++ ts = v.tokens ∧
      v.depth ≤ maxDepth := by
  -- along the run the tokens read before are those of the open lists
  induction s, stack using readValue.induct with
  | case1 s stack s₁ hnext =>
      rw [readValue, hnext] at h
      cases h
  | case2 s stack s₁ e hnext =>
      rw [readValue, hnext] at h
      cases h
  | case3 s stack token s₁ hnext e hstep =>
      rw [readValue, hnext] at h
      simp only [hstep] at h
      cases h
  | case4 s stack token s₁ hnext u hstep =>
      rw [readValue, hnext] at h
      simp only [hstep] at h
      obtain ⟨hu, rfl⟩ := Prod.mk.inj h
      obtain rfl := Except.ok.inj hu
      exact ⟨[token.value], tokens_of_next_some hnext, (tokens_step hstep).symm,
        shallow_step hstack hstep⟩
  | case5 s stack token s₁ hnext stack' hstep ih =>
      rw [readValue, hnext] at h
      simp only [hstep] at h
      obtain ⟨ts, hts, hv, hdepth⟩ := ih (shallow_step hstack hstep) h
      refine ⟨token.value :: ts, ?_, ?_, hdepth⟩
      · rw [tokens_of_next_some hnext, hts]
        rfl
      · have hopen : openTokens stack' = openTokens stack ++ [token.value] := tokens_step hstep
        rw [← hv, hopen, List.append_assoc]
        rfl

/-- Where a token comes next, a value is read before the others. -/
theorem readAll_of_next {s s' : Scanner} {token : Located Token}
    (hnext : s.next = (some (.ok token), s')) (before : List Value) :
    s.readAll before =
      match s.readValue [] with
      | (.error e, s') => (.error e, s')
      | (.ok v, s') => s'.readAll (v :: before) := by
  rw [readAll, hnext]
  rcases s.readValue [] with ⟨e | v, s₂⟩
  · rfl
  · rfl

theorem tokens_of_readAll_eq_ok {s s' : Scanner} {before vs : List Value}
    (h : s.readAll before = (.ok vs, s')) :
    ∃ us : List Value, vs = before.reverse ++ us ∧ s.tokens = (joinedTokens us).map .ok ∧
      ∀ u ∈ us, u.depth ≤ maxDepth := by
  induction s, before using readAll.induct with
  | case1 s before s₁ hnext =>
      rw [readAll, hnext] at h
      obtain ⟨hvs, -⟩ := Prod.mk.inj h
      exact ⟨[], by simpa using (Except.ok.inj hvs).symm, tokens_of_next_none hnext, by simp⟩
  | case2 s before s₁ e hnext =>
      rw [readAll, hnext] at h
      cases h
  | case3 s before token s₁ hnext e s₂ hread =>
      rw [readAll_of_next hnext, hread] at h
      cases h
  | case4 s before token s₁ hnext v s₂ hread ih =>
      rw [readAll_of_next hnext, hread] at h
      obtain ⟨us, hvs, hus, hdepth⟩ := ih h
      have hnone : ShallowStack [] := trivial
      obtain ⟨ts, hts, hv, hvdepth⟩ := tokens_of_readValue_eq_ok hnone hread
      refine ⟨v :: us, by simp [hvs], ?_, ?_⟩
      · have hts' : ts = v.tokens := hv
        rw [hts, hus, hts', ← List.map_append]
        rfl
      · intro u hu
        rcases List.mem_cons.mp hu with rfl | hu
        · exact hvdepth
        · exact hdepth u hu

/-! ## The tokens of values are read -/

/-- What reading goes on to from a state of progress. -/
def resume (s : Scanner) : Progress → Except ReadError Value × Scanner
  | .done v => (.ok v, s)
  | .more stack => s.readValue stack

theorem readValue_of_step {s s' : Scanner} {stack : List OpenList} {token : Located Token}
    {p : Progress} (hnext : s.next = (some (.ok token), s')) (hstep : step stack token = .ok p) :
    s.readValue stack = s'.resume p := by
  rw [readValue, hnext]
  simp only [hstep]
  cases p <;> rfl

/-- An atom is delivered by the step that reads its token. -/
theorem readValue_atom {s : Scanner} {stack : List OpenList} {v : Value} {t : Token}
    {rest : List (Except LexFault Token)} (hs : s.tokens = .ok t :: rest)
    (hstep : ∀ span, step stack ⟨t, span⟩ = .ok (deliver v stack)) :
    ∃ s' : Scanner, s'.tokens = rest ∧ s.readValue stack = s'.resume (deliver v stack) := by
  obtain ⟨⟨t', span⟩, s', hnext, rfl, hrest⟩ := next_of_tokens_eq_cons hs
  exact ⟨s', hrest, readValue_of_step hnext (hstep span)⟩

mutual

/-- Reading goes through the tokens of a value and delivers the value. -/
theorem readValue_tokens : (v : Value) → (s : Scanner) → (stack : List OpenList) →
    (rest : List (Except LexFault Token)) → s.tokens = v.tokens.map .ok ++ rest →
    stack.length + v.depth ≤ maxDepth →
    ∃ s' : Scanner, s'.tokens = rest ∧ s.readValue stack = s'.resume (deliver v stack)
  | .symbol _, _, _, _, hs, _ => readValue_atom hs fun _ => rfl
  | .integer _, _, _, _, hs, _ => readValue_atom hs fun _ => rfl
  | .string _, _, _, _, hs, _ => readValue_atom hs fun _ => rfl
  | .character _, _, _, _, hs, _ => readValue_atom hs fun _ => rfl
  | .list vs, s, stack, rest, hs, hdepth => by
      rw [Value.depth] at hdepth
      -- one step opens the list, its items are read into it, and one step delivers it
      simp only [Value.tokens, List.map_cons, List.map_append, List.map_nil, List.cons_append,
        List.append_assoc, List.nil_append] at hs
      obtain ⟨⟨t, paren⟩, s₁, hopen, rfl, hs₁⟩ := next_of_tokens_eq_cons hs
      have hstep : step stack ⟨.openParen, paren⟩ = .ok (.more (⟨paren, []⟩ :: stack)) := by
        have hroom : stack.length < maxDepth := by omega
        simp only [step, if_pos hroom]
      obtain ⟨s₂, hs₂, hitems⟩ := readValue_joinedTokens vs s₁ ⟨paren, []⟩ stack _ hs₁ (by omega)
      obtain ⟨⟨t, span⟩, s₃, hclose, rfl, hs₃⟩ := next_of_tokens_eq_cons hs₂
      have hend : step (⟨paren, vs.reverse ++ []⟩ :: stack) ⟨.closeParen, span⟩
          = .ok (deliver (.list vs) stack) := by
        simp [step]
      refine ⟨s₃, hs₃, ?_⟩
      rw [readValue_of_step hopen hstep, resume, hitems, readValue_of_step hclose hend]

/-- Reading goes through the tokens of values and adds the values to the innermost open list. -/
theorem readValue_joinedTokens : (vs : List Value) → (s : Scanner) → (inner : OpenList) →
    (outer : List OpenList) → (rest : List (Except LexFault Token)) →
    s.tokens = (joinedTokens vs).map .ok ++ rest →
    outer.length + 1 + Value.depthAll vs ≤ maxDepth →
    ∃ s' : Scanner, s'.tokens = rest ∧
      s.readValue (inner :: outer)
        = s'.readValue (⟨inner.paren, vs.reverse ++ inner.items⟩ :: outer)
  | [], s, _, _, _, hs, _ => ⟨s, hs, rfl⟩
  | v :: vs, s, inner, outer, rest, hs, hdepth => by
      have hv : v.depth ≤ Value.depthAll (v :: vs) := Nat.le_max_left _ _
      have hvs : Value.depthAll vs ≤ Value.depthAll (v :: vs) := Nat.le_max_right _ _
      rw [joinedTokens, List.map_append, List.append_assoc] at hs
      obtain ⟨s₁, hs₁, hread₁⟩ := readValue_tokens v s (inner :: outer) _ hs
        (by rw [List.length_cons]; omega)
      obtain ⟨s₂, hs₂, hread₂⟩ := readValue_joinedTokens vs s₁ ⟨inner.paren, v :: inner.items⟩
        outer rest hs₁ (by omega)
      refine ⟨s₂, hs₂, ?_⟩
      rw [hread₁, deliver, resume, hread₂, List.reverse_cons, List.append_assoc]
      rfl

end

theorem readAll_joinedTokens (us : List Value) (s : Scanner) (before : List Value)
    (hs : s.tokens = (joinedTokens us).map .ok) (hdepth : ∀ u ∈ us, u.depth ≤ maxDepth) :
    (s.readAll before).1 = .ok (before.reverse ++ us) := by
  induction us generalizing s before with
  | nil =>
      obtain ⟨s', hnext⟩ := next_of_tokens_eq_nil hs
      rw [readAll, hnext]
      simp
  | cons u us ih =>
      rw [joinedTokens, List.map_append] at hs
      obtain ⟨s', hs', hread⟩ := readValue_tokens u s [] _ hs
        (by simpa using hdepth u (by simp))
      have hnext : ∃ token s₁, s.next = (some (.ok token), s₁) := by
        cases u with
        | list vs =>
            obtain ⟨token, s₁, h, -⟩ := next_of_tokens_eq_cons hs
            exact ⟨token, s₁, h⟩
        | _ =>
            obtain ⟨token, s₁, h, -⟩ := next_of_tokens_eq_cons hs
            exact ⟨token, s₁, h⟩
      obtain ⟨token, s₁, hnext⟩ := hnext
      have hrest := ih s' (u :: before) hs' fun v hv => hdepth v (by simp [hv])
      rw [readAll_of_next hnext, hread, deliver, resume, hrest, List.reverse_cons,
        List.append_assoc]
      rfl

end Scanner

/-! ## Exactly the balanced sequences -/

/-- A text reads as certain values exactly if its tokens are theirs and none is too deep. -/
theorem Value.readAll_eq_ok_iff_tokens {source : String} {vs : List Value} :
    Value.readAll source = .ok vs ↔
      (Scanner.ofString source).tokens = (joinedTokens vs).map .ok ∧
        ∀ v ∈ vs, v.depth ≤ maxDepth := by
  have hall : Value.readAll source = ((Scanner.ofString source).readAll []).1 := rfl
  rw [hall]
  constructor
  · intro h
    obtain ⟨us, hvs, hus, hdepth⟩ := Scanner.tokens_of_readAll_eq_ok (Prod.ext h rfl)
    obtain rfl : vs = us := hvs
    exact ⟨hus, hdepth⟩
  · rintro ⟨htokens, hdepth⟩
    exact Scanner.readAll_joinedTokens vs _ [] htokens hdepth

/-- **Reading accepts exactly the balanced sequences of tokens.** A text reads as certain values
if and only if its results hold no lexical error, their tokens are those of the values one after
another, and no value nests lists deeper than `maxDepth`. Tokens are those of one sequence of
values at most. -/
theorem Value.readAll_iff_balanced :
    (∀ (source : String) (vs : List Value), Value.readAll source = .ok vs ↔
      ∃ tokens : List (Located Token),
        (Scanner.ofString source).results = tokens.map .ok ∧
        tokens.map Located.value = joinedTokens vs ∧
        ∀ v ∈ vs, v.depth ≤ maxDepth) ∧
      Function.Injective joinedTokens := by
  refine ⟨fun source vs => ?_, Value.joinedTokens_injective⟩
  rw [Value.readAll_eq_ok_iff_tokens, Scanner.tokens_eq_map_ok_iff]
  constructor
  · rintro ⟨⟨tokens, hresults, hvalues⟩, hdepth⟩
    exact ⟨tokens, hresults, hvalues, hdepth⟩
  · rintro ⟨tokens, hresults, hvalues, hdepth⟩
    exact ⟨⟨tokens, hresults, hvalues⟩, hdepth⟩

end MakerForms
