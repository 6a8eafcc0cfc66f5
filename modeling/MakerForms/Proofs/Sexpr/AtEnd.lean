import MakerForms.Proofs.Sexpr.ParserAgreement
import MakerForms.Proofs.Sexpr.Spacing

set_option autoImplicit false

/-! # Looking for the end of a text

A parser that looks whether its text has ended holds back the token that it finds, and is one
token ahead of where it was. That cannot be noticed: it advances as before
(`Parser.advance_atEnd`), and so do all operations that follow (`Parser.run_looks`). Only a lexical
error cannot be held back. It is used up, just as reading a value would use it up
(`Parser.one_of_atEnd_error`).

The text has ended if no results are to come, and this is the case exactly if a gap is left behind
the last result that has been used up (`Scanner.results_eq_nil_iff`).
-/

namespace MakerForms

namespace Scanner

/-! ## The text behind a number of results -/

/-- Nothing is to come exactly if a gap is left. -/
theorem results_eq_nil_iff {s : Scanner} : s.results = [] ↔ IsGap True s.rest := by
  rw [isGap_last_iff]
  constructor
  · intro h
    rcases hnext : s.next with ⟨_ | result, s'⟩
    · exact (next_eq_none hnext).2
    · rw [results_of_next_some hnext] at h
      cases h
  · intro h
    have hskip : s.skip.rest = [] := h
    have hlexeme : s.lexeme? = none := by
      rw [lexeme?, hskip]
      rfl
    have hnext : s.next = (none, s.skip) := by rw [next, hlexeme]
    exact results_of_next_none hnext

theorem exists_passes_next (s : Scanner) : ∃ cs, s.Passes cs s.next.2 := by
  rcases hnext : s.next with ⟨_ | result, s'⟩
  · exact ⟨_, passes_of_next_none hnext⟩
  · exact (consumes_of_next hnext).1.exists_passes

theorem exists_passes_after (s : Scanner) (n : Nat) : ∃ cs, s.Passes cs (s.after n) := by
  induction n generalizing s with
  | zero => exact ⟨[], Passes.refl s⟩
  | succ n ih =>
      obtain ⟨cs, hnext⟩ := s.exists_passes_next
      obtain ⟨ds, hlater⟩ := ih s.next.2
      exact ⟨cs ++ ds, hnext.trans hlater⟩

/-- Where the last of some results ends, or the start of the text if there are none. -/
def lastStop (consumed : List (Except LexError (Located Token))) : Nat :=
  (consumed.getLast?.map fun result => (resultSpan result).stop).getD 0

/-- Requests leave a scanner where the last of their results ends. -/
theorem offset_after {source : String} {consumed later : List (Except LexError (Located Token))}
    (h : (ofString source).results = consumed ++ later) :
    ((ofString source).after consumed.length).offset = lastStop consumed := by
  rcases List.eq_nil_or_concat' consumed with rfl | ⟨front, last, rfl⟩
  · rfl
  · have hlength : front.length < (ofString source).results.length := by
      rw [h, List.length_append, List.length_append, List.length_singleton]
      omega
    have hlast : (ofString source).results[front.length] = last := by
      simp [h]
    obtain ⟨-, hoffset⟩ := (ofString source).next_after_lt front.length hlength
    rw [hlast] at hoffset
    rw [List.length_append, List.length_singleton, hoffset, lastStop, List.getLast?_concat]
    rfl

/-- A text is what leads up to the end of the results it starts with, and the rest. -/
theorem exists_split_after {source : String}
    {consumed later : List (Except LexError (Located Token))}
    (h : (ofString source).results = consumed ++ later) :
    ∃ before behind : String, source = before ++ behind ∧
      before.utf8ByteSize = lastStop consumed ∧ (later = [] ↔ IsGap True behind.toList) := by
  have hlater : ((ofString source).after consumed.length).results = later := by
    rw [results_after, h, List.drop_left]
  have hstop := offset_after h
  obtain ⟨before, hpasses⟩ := (ofString source).exists_passes_after consumed.length
  have hbehind : ((ofString source).after consumed.length).IsBehind source before := hpasses
  refine ⟨String.ofList before, String.ofList ((ofString source).after consumed.length).rest,
    ?_, ?_, ?_⟩
  · rw [← String.ofList_append, ← hbehind.toList_eq, String.ofList_toList]
  · rw [utf8ByteSize_ofList, ← hbehind.offset_eq, hstop]
  · rw [String.toList_ofList, ← results_eq_nil_iff, hlater]

end Scanner

namespace Parser

open Reader (Operation Answer)

variable {p : Parser} {r : Reader} {b : Bool}

/-! ## Looking for the end -/

/-- The answer tells whether results are still to come. -/
theorem Follows.atEnd_eq_ok (h : p.Follows r) (hb : p.atEnd.1 = .ok b) :
    b = true ↔ p.upcoming = [] := by
  rw [h.atEnd.1, Reader.atEnd] at hb
  rw [h.upcoming_eq]
  rcases hnext : r.scanner.next with ⟨_ | e | token, s'⟩
  · rw [hnext] at hb
    rw [Scanner.results_of_next_none hnext, ← Except.ok.inj hb]
    simp
  · rw [hnext] at hb
    cases hb
  · rw [hnext] at hb
    rw [Scanner.results_of_next_some hnext, ← Except.ok.inj hb]
    simp

/-- To have looked changes no answer that follows. -/
theorem run_atEnd (hb : p.atEnd.1 = .ok b) (later : List Operation) :
    (p.run (.atEnd :: later)).1 = .ok (.atEnd b) :: (p.run later).1 := by
  have hlook : (p.perform .atEnd).1 = .ok (.atEnd b) := congrArg (Except.map Answer.atEnd) hb
  have hlater : (p.atEnd.2.run later).1 = (p.run later).1 := run_congr (advance_atEnd hb) later
  calc (p.run (.atEnd :: later)).1
      = (p.perform .atEnd).1 :: (p.atEnd.2.run later).1 := rfl
    _ = .ok (.atEnd b) :: (p.run later).1 := by rw [hlook, hlater]

/-- Nor does looking many times, and each time the answer is the same. -/
theorem run_looks (hb : p.atEnd.1 = .ok b) (n : Nat) (later : List Operation) :
    (p.run (List.replicate n .atEnd ++ later)).1
      = List.replicate n (.ok (.atEnd b)) ++ (p.run later).1 := by
  induction n with
  | zero => rfl
  | succ n ih =>
      rw [List.replicate_succ, List.cons_append, run_atEnd hb, ih]
      rfl

/-- Where looking fails, reading a value fails with the same lexical error and takes it. -/
theorem one_of_atEnd_error {e : ReadError} (h : p.atEnd.1 = .error e) :
    (∃ fault, e = .lexical fault) ∧ p.one = (.error e, p.atEnd.2) := by
  rcases hadvance : p.advance with ⟨fault | token, p'⟩
  · have hlook : p.atEnd = (.error (.lexical fault), p') := by
      rw [atEnd, peek, hadvance]
    have hone : p.one = (.error (.lexical fault), p') := by
      rw [one, located, hadvance]
      rfl
    rw [hlook] at h
    obtain rfl := Except.error.inj h
    rw [hlook, hone]
    exact ⟨⟨fault, rfl⟩, rfl⟩
  · rw [atEnd, peek, hadvance] at h
    cases h

/-- **Looking for the end only looks.** Wherever operations have led: if looking answers, the
answer is whether a gap is all that is left behind the last result that has been used up; looking
any number of times gives that answer each time, and all operations that follow answer as without
it. If looking fails, it does so with a lexical error; reading a value in its place would have
failed with the same error, and then all operations that follow would answer the same. A reader,
which holds no token back, answers like the parser at each point. -/
theorem atEnd_only_looks (source : String) (operations : List Operation) :
    (∀ b, (reached source operations).atEnd.1 = .ok b →
      (∃ (consumed : List (Except LexError (Located Token))) (before behind : String),
        (Scanner.ofString source).results
          = consumed ++ (reached source operations).upcoming ∧
        source = before ++ behind ∧ before.utf8ByteSize = Scanner.lastStop consumed ∧
        (b = true ↔ IsGap True behind.toList)) ∧
      ∀ (n : Nat) (later : List Operation),
        ((reached source operations).run (List.replicate n .atEnd ++ later)).1
          = List.replicate n (.ok (.atEnd b)) ++ ((reached source operations).run later).1) ∧
    (∀ e, (reached source operations).atEnd.1 = .error e →
      (∃ fault, e = .lexical fault) ∧ (reached source operations).one.1 = .error e ∧
      ∀ later : List Operation,
        ((reached source operations).atEnd.2.run later).1
          = ((reached source operations).one.2.run later).1) ∧
    ∀ later : List Operation,
      ((reached source operations).run later).1
        = ((Reader.reached source operations).run later).1 := by
  obtain ⟨-, hfollows⟩ := answers_eq_reader source operations
  obtain ⟨-, consumed, hconsumes, -⟩ := (Reader.ofString source).exists_consumes_run operations
  have hresults : (Scanner.ofString source).results
      = consumed ++ (reached source operations).upcoming := by
    rw [hfollows.upcoming_eq]
    exact hconsumes.results_eq
  refine ⟨fun b hb => ⟨?_, run_looks hb⟩, fun e he => ?_, fun later => (hfollows.run later).1⟩
  · obtain ⟨before, behind, hsource, hstop, hgap⟩ := Scanner.exists_split_after hresults
    exact ⟨consumed, before, behind, hresults, hsource, hstop,
      (hfollows.atEnd_eq_ok hb).trans hgap⟩
  · obtain ⟨hlexical, hone⟩ := one_of_atEnd_error he
    rw [hone]
    exact ⟨hlexical, rfl, fun _ => rfl⟩

/-- A symbol, a word that is no token, and a comment. -/
def commentedText : String := "A 2B ; c"

theorem atEnd_only_looks_commentedText :
    (∃ e, (reached commentedText [.atEnd, .one]).atEnd.1 = .error e ∧
      (reached commentedText [.atEnd, .one]).one.1 = .error e) ∧
    (reached commentedText [.atEnd, .one, .atEnd]).atEnd.1 = .ok true ∧
    ((reached commentedText [.atEnd, .one, .atEnd]).run [.atEnd, .atEnd, .all]).1
      = [.ok (.atEnd true), .ok (.atEnd true), .ok (.values [])] := by
  obtain ⟨-, herror, -⟩ := atEnd_only_looks commentedText [.atEnd, .one]
  obtain ⟨hlooks, -, -⟩ := atEnd_only_looks commentedText [.atEnd, .one, .atEnd]
  have hword : (reached commentedText [.atEnd, .one]).atEnd.1
      = .error (.lexical ⟨.malformedInteger, "2B", ⟨2, 4⟩⟩) := by decide +kernel
  have hcomment : (reached commentedText [.atEnd, .one, .atEnd]).atEnd.1 = .ok true := by
    decide +kernel
  have hall : ((reached commentedText [.atEnd, .one, .atEnd]).run [.all]).1
      = [.ok (.values [])] := by decide +kernel
  refine ⟨⟨_, hword, (herror _ hword).2.1⟩, hcomment, ?_⟩
  obtain ⟨-, hrun⟩ := hlooks true hcomment
  have htwice := hrun 2 [.all]
  rw [hall] at htwice
  exact htwice

end Parser

end MakerForms
