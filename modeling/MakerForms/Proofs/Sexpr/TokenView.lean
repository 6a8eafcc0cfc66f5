import MakerForms.Proofs.Sexpr.Nesting
import MakerForms.Sexpr.Reader

set_option autoImplicit false

/-! # Values and texts as sequences of tokens

A value has one sequence of tokens (`Value.tokens`): an atom is one token, a list is the tokens
of its items between parentheses. A text has one sequence of results (`Scanner.results`): the
tokens and lexical errors that come before its end. Without places and texts of errors these are
the tokens and faults of the text (`Scanner.tokens`).
-/

namespace MakerForms

namespace Value

mutual

/-- The tokens that a value is written with. -/
def tokens : Value → List Token
  | .symbol s => [.symbol s]
  | .list vs => .openParen :: (joinedTokens vs ++ [.closeParen])
  | .integer i => [.integer i]
  | .string s => [.string s]
  | .character code => [.character code]

/-- The tokens that values are written with, one value after another. -/
def joinedTokens : List Value → List Token
  | [] => []
  | v :: vs => v.tokens ++ joinedTokens vs

end

@[simp] theorem joinedTokens_append (us vs : List Value) :
    joinedTokens (us ++ vs) = joinedTokens us ++ joinedTokens vs := by
  induction us with
  | nil => rfl
  | cons u us ih => simp [joinedTokens, ih]

/-- The first token of a value closes no list. -/
theorem tokens_eq_cons (v : Value) : ∃ t ts, v.tokens = t :: ts ∧ t ≠ .closeParen := by
  cases v <;> exact ⟨_, _, by rw [tokens], by simp⟩

/-- The value that a token stands for without any other. -/
def ofToken? : Token → Option Value
  | .symbol s => some (.symbol s)
  | .integer i => some (.integer i)
  | .string s => some (.string s)
  | .character code => some (.character code)
  | .openParen | .closeParen => none

/-- A value is a list or the one that its first token stands for, which is its only token then. -/
theorem ofToken?_of_tokens_eq_cons {v : Value} {t : Token} {ts : List Token}
    (h : v.tokens = t :: ts) (ht : t ≠ .openParen) : ofToken? t = some v ∧ ts = [] := by
  cases v with
  | list vs =>
      rw [tokens] at h
      exact absurd (List.cons.inj h).1.symm ht
  | symbol _ | integer _ | string _ | character _ =>
      rw [tokens] at h
      obtain ⟨rfl, rfl⟩ := List.cons.inj h
      exact ⟨rfl, rfl⟩

/-- An atom is told from every other value by its one token. -/
theorem tokens_append_inj_of_singleton {v w : Value} {t : Token} {rest rest' : List Token}
    (hv : v.tokens = [t]) (ht : t ≠ .openParen) (h : v.tokens ++ rest = w.tokens ++ rest') :
    v = w ∧ rest = rest' := by
  obtain ⟨u, us, hw, -⟩ := tokens_eq_cons w
  rw [hv, hw] at h
  obtain ⟨rfl, hrest⟩ := List.cons.inj h
  obtain ⟨hfirst, -⟩ := ofToken?_of_tokens_eq_cons hv ht
  obtain ⟨hsecond, rfl⟩ := ofToken?_of_tokens_eq_cons hw ht
  exact ⟨Option.some.inj (hfirst.symm.trans hsecond), hrest⟩

mutual

/-- Of the tokens that follow, none can belong to the value that comes first. -/
theorem tokens_append_inj : (v w : Value) → {rest rest' : List Token} →
    v.tokens ++ rest = w.tokens ++ rest' → v = w ∧ rest = rest'
  | .list us, .list vs, rest, rest', h => by
      simp only [tokens, List.cons_append, List.append_assoc, List.nil_append, List.cons.injEq,
        true_and] at h
      obtain ⟨rfl, rfl⟩ := joinedTokens_append_inj us vs h
      exact ⟨rfl, rfl⟩
  | .symbol _, _, _, _, h => tokens_append_inj_of_singleton (by rw [tokens]) (by simp) h
  | .integer _, _, _, _, h => tokens_append_inj_of_singleton (by rw [tokens]) (by simp) h
  | .string _, _, _, _, h => tokens_append_inj_of_singleton (by rw [tokens]) (by simp) h
  | .character _, _, _, _, h => tokens_append_inj_of_singleton (by rw [tokens]) (by simp) h
  | .list us, .symbol _, _, _, h | .list us, .integer _, _, _, h
  | .list us, .string _, _, _, h | .list us, .character _, _, _, h => by
      simp [tokens] at h

/-- The end of the list around them shows where values end. -/
theorem joinedTokens_append_inj : (us vs : List Value) → {rest rest' : List Token} →
    joinedTokens us ++ .closeParen :: rest = joinedTokens vs ++ .closeParen :: rest' →
    us = vs ∧ rest = rest'
  | [], [], _, _, h => ⟨rfl, by simpa [joinedTokens] using h⟩
  | [], v :: vs, _, _, h => by
      obtain ⟨t, ts, hv, hopen⟩ := tokens_eq_cons v
      simp only [joinedTokens, hv, List.cons_append, List.nil_append, List.cons.injEq] at h
      exact absurd h.1.symm hopen
  | u :: us, [], _, _, h => by
      obtain ⟨t, ts, hu, hopen⟩ := tokens_eq_cons u
      simp only [joinedTokens, hu, List.cons_append, List.nil_append, List.cons.injEq] at h
      exact absurd h.1 hopen
  | u :: us, v :: vs, _, _, h => by
      simp only [joinedTokens, List.append_assoc] at h
      obtain ⟨rfl, hrest⟩ := tokens_append_inj u v h
      obtain ⟨rfl, rfl⟩ := joinedTokens_append_inj us vs hrest
      exact ⟨rfl, rfl⟩

end

/-- No two sequences of values have the same tokens. -/
theorem joinedTokens_injective : Function.Injective joinedTokens := by
  intro us vs h
  exact (joinedTokens_append_inj us vs (congrArg (· ++ [Token.closeParen]) h)).1

end Value

namespace Scanner

/-- What is read up to the end of the text: tokens and lexical errors, in their order. -/
def results (s : Scanner) : List (Except LexError (Located Token)) :=
  match _h : s.next with
  | (none, _) => []
  | (some result, s') => result :: s'.results
termination_by s.rest.length
decreasing_by exact length_lt_of_next _h

/-- What a result says apart from places: the token, or what is wrong. -/
def meaning (result : Except LexError (Located Token)) : Except LexFault Token :=
  match result with
  | .ok token => .ok token.value
  | .error e => .error e.fault

/-- The tokens and faults up to the end of the text. -/
def tokens (s : Scanner) : List (Except LexFault Token) := s.results.map meaning

theorem tokens_of_next_none {s s' : Scanner} (h : s.next = (none, s')) : s.tokens = [] := by
  rw [tokens, results, h]
  rfl

theorem tokens_of_next_some {s s' : Scanner} {result : Except LexError (Located Token)}
    (h : s.next = (some result, s')) : s.tokens = meaning result :: s'.tokens := by
  rw [tokens, results, h]
  rfl

theorem next_of_tokens_eq_nil {s : Scanner} (h : s.tokens = []) :
    ∃ s', s.next = (none, s') := by
  rcases hnext : s.next with ⟨_ | result, s'⟩
  · exact ⟨s', rfl⟩
  · rw [tokens_of_next_some hnext] at h
    cases h

/-- Where a token comes first, the next result is that token. -/
theorem next_of_tokens_eq_cons {s : Scanner} {t : Token} {rest : List (Except LexFault Token)}
    (h : s.tokens = .ok t :: rest) :
    ∃ token s', s.next = (some (.ok token), s') ∧ token.value = t ∧ s'.tokens = rest := by
  rcases hnext : s.next with ⟨_ | e | token, s'⟩
  · rw [tokens_of_next_none hnext] at h
    cases h
  · rw [tokens_of_next_some hnext] at h
    cases (List.cons.inj h).1
  · rw [tokens_of_next_some hnext] at h
    obtain ⟨htoken, hrest⟩ := List.cons.inj h
    exact ⟨token, s', rfl, Except.ok.inj htoken, hrest⟩

/-- The results have no lexical error and certain tokens exactly if their meanings do. -/
theorem tokens_eq_map_ok_iff {s : Scanner} {ts : List Token} :
    s.tokens = ts.map .ok ↔
      ∃ tokens : List (Located Token),
        s.results = tokens.map .ok ∧ tokens.map Located.value = ts := by
  rw [tokens]
  generalize s.results = results
  induction results generalizing ts with
  | nil =>
      constructor
      · intro h
        exact ⟨[], rfl, by simpa [eq_comm] using h⟩
      · rintro ⟨tokens, hresults, rfl⟩
        obtain rfl : tokens = [] := by simpa [eq_comm] using hresults
        rfl
  | cons result results ih =>
      constructor
      · intro h
        cases ts with
        | nil => simp at h
        | cons t ts =>
            obtain ⟨hresult, hrest⟩ := List.cons.inj h
            obtain ⟨tokens, htokens, rfl⟩ := ih.mp hrest
            cases result with
            | error e => cases hresult
            | ok token =>
                obtain rfl : token.value = t := Except.ok.inj hresult
                exact ⟨token :: tokens, by rw [htokens, List.map_cons], rfl⟩
      · rintro ⟨tokens, hresults, rfl⟩
        cases tokens with
        | nil => simp at hresults
        | cons token tokens =>
            obtain ⟨rfl, hrest⟩ := List.cons.inj hresults
            rw [List.map_cons, ih.mpr ⟨tokens, hrest, rfl⟩]
            rfl

end Scanner

end MakerForms
