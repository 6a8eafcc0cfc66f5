import MakerForms.Proofs.Sexpr.Balanced
import MakerForms.Proofs.Sexpr.Tiling

set_option autoImplicit false

/-! # Runs of a reader

A reader is asked for values and looks for the end of its text in any order
(`Reader.Operation`), also behind errors. An operation uses up some of the results that come next
(`Scanner.Consumes`), and what it reports lies within what has been used up
(`Reader.exists_consumes_perform`). By induction the same holds of a whole run
(`Reader.exists_consumes_run`).
-/

namespace MakerForms

/-- The place that an error names. -/
def ReadError.span : ReadError → Span
  | lexical e => e.span
  | malformed _ span => span

namespace Scanner

/-! ## What reading uses up -/

theorem Passes.offset_le {s s' : Scanner} {cs : List Char} (h : s.Passes cs s') :
    s.offset ≤ s'.offset := by
  rw [h.offset_eq]
  exact Nat.le_add_right _ _

/-- Whether a scanner gets from one place to another by using up certain results. -/
structure Consumes (s : Scanner) (consumed : List (Except LexError (Located Token)))
    (s' : Scanner) : Prop where
  exists_passes : ∃ cs, s.Passes cs s'
  results_eq : s.results = consumed ++ s'.results
  stop_le : ∀ result ∈ consumed, (resultSpan result).stop ≤ s'.offset

section Consumption

variable {s t u : Scanner} {as bs : List (Except LexError (Located Token))}

theorem Consumes.refl (s : Scanner) : s.Consumes [] s :=
  ⟨⟨[], Passes.refl s⟩, rfl, by simp⟩

theorem Consumes.offset_le (h : s.Consumes as t) : s.offset ≤ t.offset := by
  obtain ⟨cs, hpasses⟩ := h.exists_passes
  exact hpasses.offset_le

theorem Consumes.trans (h : s.Consumes as t) (h' : t.Consumes bs u) :
    s.Consumes (as ++ bs) u := by
  obtain ⟨cs, hpasses⟩ := h.exists_passes
  obtain ⟨ds, hpasses'⟩ := h'.exists_passes
  refine ⟨⟨cs ++ ds, hpasses.trans hpasses'⟩, ?_, ?_⟩
  · rw [h.results_eq, h'.results_eq, List.append_assoc]
  · intro result hresult
    rcases List.mem_append.mp hresult with hfirst | hlater
    · exact Nat.le_trans (h.stop_le result hfirst) h'.offset_le
    · exact h'.stop_le result hlater

/-- A request uses up its result, which ends where the scanner is left. -/
theorem consumes_of_next {result : Except LexError (Located Token)}
    (h : s.next = (some result, t)) :
    s.Consumes [result] t ∧ (resultSpan result).stop = t.offset := by
  obtain ⟨body, -, hpasses, hspan, -⟩ := next_eq_some h
  have hstop : (resultSpan result).stop = t.offset := by rw [hspan]
  refine ⟨⟨⟨_, s.passes_skip.trans hpasses⟩, results_of_next_some h, ?_⟩, hstop⟩
  intro other hother
  rw [List.mem_singleton.mp hother]
  exact Nat.le_of_eq hstop

/-- At the end of the text a request uses up a gap. -/
theorem consumes_of_next_none (h : s.next = (none, t)) : s.Consumes [] t := by
  have hend : t.results = [] :=
    results_of_next_none (next_of_rest_eq_nil (rest_of_next_none h))
  refine ⟨⟨_, passes_of_next_none h⟩, ?_, by simp⟩
  rw [results_of_next_none h, hend, List.append_nil]

end Consumption

/-- An error of a step names the token that was read. -/
theorem span_of_step_eq_error {stack : List OpenList} {token : Located Token} {e : ReadError}
    (h : Progress.step stack token = .error e) : e.span = token.span := by
  obtain ⟨t, span⟩ := token
  cases t with
  | openParen =>
      simp only [Progress.step] at h
      split at h
      · cases h
      · rw [← Except.error.inj h]
        rfl
  | closeParen =>
      cases stack with
      | nil =>
          rw [← Except.error.inj h]
          rfl
      | cons inner outer => cases h
  | symbol _ | integer _ | string _ | character _ => cases h

/-- Reading a value uses up results, and an error lies within what is used up. -/
theorem exists_consumes_readValue (s : Scanner) (stack : List OpenList) :
    ∃ consumed, s.Consumes consumed (s.readValue stack).2 ∧
      ∀ e, (s.readValue stack).1 = .error e → e.span.stop ≤ (s.readValue stack).2.offset := by
  induction s, stack using readValue.induct with
  | case1 s stack t hnext =>
      rw [readValue, hnext]
      refine ⟨[], consumes_of_next_none hnext, ?_⟩
      intro e he
      rw [← Except.error.inj he]
      cases stack <;> exact Nat.le_refl _
  | case2 s stack e t hnext =>
      obtain ⟨hconsumes, hstop⟩ := consumes_of_next hnext
      rw [readValue, hnext]
      refine ⟨_, hconsumes, ?_⟩
      intro e' he
      rw [← Except.error.inj he]
      exact Nat.le_of_eq hstop
  | case3 s stack token t hnext e hstep =>
      obtain ⟨hconsumes, hstop⟩ := consumes_of_next hnext
      rw [readValue, hnext]
      simp only [hstep]
      refine ⟨_, hconsumes, ?_⟩
      intro e' he
      rw [← Except.error.inj he, span_of_step_eq_error hstep]
      exact Nat.le_of_eq hstop
  | case4 s stack token t hnext v hstep =>
      obtain ⟨hconsumes, -⟩ := consumes_of_next hnext
      rw [readValue, hnext]
      simp only [hstep]
      exact ⟨_, hconsumes, by simp⟩
  | case5 s stack token t hnext stack' hstep ih =>
      obtain ⟨hconsumes, -⟩ := consumes_of_next hnext
      obtain ⟨consumed, hrest, herror⟩ := ih
      rw [readValue_of_step hnext hstep]
      exact ⟨_, hconsumes.trans hrest, herror⟩

/-- Reading all values uses up results, and an error lies within what is used up. -/
theorem exists_consumes_readAll (s : Scanner) (before : List Value) :
    ∃ consumed, s.Consumes consumed (s.readAll before).2 ∧
      ∀ e, (s.readAll before).1 = .error e → e.span.stop ≤ (s.readAll before).2.offset := by
  induction s, before using readAll.induct with
  | case1 s before t hnext =>
      rw [readAll, hnext]
      exact ⟨[], Consumes.refl s, by simp⟩
  | case2 s before t e hnext =>
      obtain ⟨hconsumes, hstop⟩ := consumes_of_next hnext
      rw [readAll, hnext]
      refine ⟨_, hconsumes, ?_⟩
      intro e' he
      rw [← Except.error.inj he]
      exact Nat.le_of_eq hstop
  | case3 s before token t hnext e s' hread =>
      have hvalue := exists_consumes_readValue s []
      rw [hread] at hvalue
      obtain ⟨consumed, hconsumes, herror⟩ := hvalue
      rw [readAll_of_next hnext, hread]
      refine ⟨consumed, hconsumes, ?_⟩
      intro e' he
      rw [← Except.error.inj he]
      exact herror e rfl
  | case4 s before token t hnext v s' hread ih =>
      have hvalue := exists_consumes_readValue s []
      rw [hread] at hvalue
      obtain ⟨consumed, hconsumes, -⟩ := hvalue
      obtain ⟨later, hlater, herror⟩ := ih
      rw [readAll_of_next hnext, hread]
      exact ⟨_, hconsumes.trans hlater, herror⟩

end Scanner

/-! ## Operations -/

namespace Reader

/-- What a reader can be asked to do. -/
inductive Operation
  | atEnd
  | one
  | located
  | all
deriving DecidableEq, Repr

/-- What an operation answers. -/
inductive Answer
  | atEnd (b : Bool)
  | value (v : Value)
  | located (v : Located Value)
  | values (vs : List Value)
deriving DecidableEq, Repr

/-- Does one operation. -/
def perform (r : Reader) : Operation → Except ReadError Answer × Reader
  | .atEnd => (r.atEnd.1.map .atEnd, r.atEnd.2)
  | .one => (r.one.1.map .value, r.one.2)
  | .located => (r.located.1.map .located, r.located.2)
  | .all => (r.all.1.map .values, r.all.2)

/-- Does operations one after another, also behind errors. -/
def run (r : Reader) : List Operation → List (Except ReadError Answer) × Reader
  | [] => ([], r)
  | operation :: rest =>
    let (answer, r') := r.perform operation
    let (answers, last) := r'.run rest
    (answer :: answers, last)

theorem run_cons (r : Reader) (operation : Operation) (rest : List Operation) :
    r.run (operation :: rest)
      = ((r.perform operation).1 :: ((r.perform operation).2.run rest).1,
        ((r.perform operation).2.run rest).2) := rfl

theorem run_append (r : Reader) (operations later : List Operation) :
    r.run (operations ++ later)
      = ((r.run operations).1 ++ ((r.run operations).2.run later).1,
        ((r.run operations).2.run later).2) := by
  induction operations generalizing r with
  | nil => rfl
  | cons operation rest ih => rw [List.cons_append, run_cons, ih, run_cons, List.cons_append]

theorem length_run (r : Reader) (operations : List Operation) :
    (r.run operations).1.length = operations.length := by
  induction operations generalizing r with
  | nil => rfl
  | cons operation rest ih => rw [run_cons, List.length_cons, ih, List.length_cons]

/-- The span that an operation reports: that of a value, or the place of an error. -/
def reported? : Except ReadError Answer → Option Span
  | .error e => some e.span
  | .ok (.located v) => some v.span
  | .ok _ => none

/-- A value is read from where the gap in front of it ends to where reading it stops. -/
theorem located_eq (r : Reader) :
    r.located = ((r.scanner.readValue []).1.map fun v =>
        ⟨v, ⟨r.scanner.skip.offset, (r.scanner.readValue []).2.offset⟩⟩,
      { r with scanner := (r.scanner.readValue []).2 }) := rfl

/-- Where only errors report a span, what is reported lies before `limit` if errors do. -/
theorem stop_le_of_reported {α : Type} {result : Except ReadError α} {f : α → Answer} {limit : Nat}
    (hok : ∀ a, reported? (.ok (f a)) = none)
    (herror : ∀ e, result = .error e → e.span.stop ≤ limit) :
    ∀ span ∈ reported? (result.map f), span.stop ≤ limit := by
  intro span hspan
  cases result with
  | ok a =>
      have hspan' : span ∈ reported? (.ok (f a)) := hspan
      rw [hok a] at hspan'
      cases hspan'
  | error e =>
      obtain rfl : e.span = span := Option.some.inj hspan
      exact herror e rfl

/-- Looking for the end of the text uses up nothing but a lexical error. -/
theorem exists_consumes_atEnd (r : Reader) :
    r.atEnd.2.source = r.source ∧
      ∃ consumed, r.scanner.Consumes consumed r.atEnd.2.scanner ∧
        ∀ e, r.atEnd.1 = .error e → e.span.stop ≤ r.atEnd.2.scanner.offset := by
  rcases hnext : r.scanner.next with ⟨_ | e | token, t⟩
  · have hatEnd : r.atEnd = (.ok true, r) := by rw [Reader.atEnd, hnext]
    rw [hatEnd]
    exact ⟨rfl, [], Scanner.Consumes.refl _, by simp⟩
  · have hatEnd : r.atEnd = (.error (.lexical e), { r with scanner := t }) := by
      rw [Reader.atEnd, hnext]
    obtain ⟨hconsumes, hstop⟩ := Scanner.consumes_of_next hnext
    rw [hatEnd]
    refine ⟨rfl, _, hconsumes, ?_⟩
    intro e' he
    rw [← Except.error.inj he]
    exact Nat.le_of_eq hstop
  · have hatEnd : r.atEnd = (.ok false, r) := by rw [Reader.atEnd, hnext]
    rw [hatEnd]
    exact ⟨rfl, [], Scanner.Consumes.refl _, by simp⟩

/-- An operation uses up results, and what it reports lies within what is used up. -/
theorem exists_consumes_perform (r : Reader) (operation : Operation) :
    (r.perform operation).2.source = r.source ∧
      ∃ consumed, r.scanner.Consumes consumed (r.perform operation).2.scanner ∧
        ∀ span ∈ reported? (r.perform operation).1,
          span.stop ≤ (r.perform operation).2.scanner.offset := by
  obtain ⟨consumed, hconsumes, herror⟩ := r.scanner.exists_consumes_readValue []
  cases operation with
  | atEnd =>
      obtain ⟨hsource, consumed', hconsumes', herror'⟩ := r.exists_consumes_atEnd
      exact ⟨hsource, consumed', hconsumes', stop_le_of_reported (fun _ => rfl) herror'⟩
  | one =>
      exact ⟨rfl, consumed, hconsumes, stop_le_of_reported (fun _ => rfl) herror⟩
  | located =>
      refine ⟨rfl, consumed, hconsumes, ?_⟩
      intro span hspan
      rw [perform, located_eq] at hspan
      cases hread : (r.scanner.readValue []).1 with
      | ok v =>
          rw [hread] at hspan
          rw [← Option.some.inj hspan]
          exact Nat.le_refl _
      | error e =>
          rw [hread] at hspan
          rw [← Option.some.inj hspan]
          exact herror e hread
  | all =>
      obtain ⟨consumed', hconsumes', herror'⟩ := r.scanner.exists_consumes_readAll []
      exact ⟨rfl, consumed', hconsumes', stop_le_of_reported (fun _ => rfl) herror'⟩

/-- A run uses up results, and what its operations report lies within what is used up. -/
theorem exists_consumes_run (r : Reader) (operations : List Operation) :
    (r.run operations).2.source = r.source ∧
      ∃ consumed, r.scanner.Consumes consumed (r.run operations).2.scanner ∧
        ∀ answer ∈ (r.run operations).1, ∀ span ∈ reported? answer,
          span.stop ≤ (r.run operations).2.scanner.offset := by
  induction operations generalizing r with
  | nil => exact ⟨rfl, [], Scanner.Consumes.refl r.scanner, by simp [run]⟩
  | cons operation rest ih =>
      obtain ⟨hsource, consumed, hconsumes, hreported⟩ := r.exists_consumes_perform operation
      obtain ⟨hsource', later, hlater, hreported'⟩ := ih (r.perform operation).2
      have hanswers : (r.run (operation :: rest)).1
          = (r.perform operation).1 :: ((r.perform operation).2.run rest).1 := rfl
      refine ⟨hsource'.trans hsource, _, hconsumes.trans hlater, ?_⟩
      intro answer hanswer span hspan
      rw [hanswers] at hanswer
      rcases List.mem_cons.mp hanswer with rfl | hrest
      · exact Nat.le_trans (hreported span hspan) hlater.offset_le
      · exact hreported' answer hrest span hspan

end Reader

end MakerForms
