import MakerForms.Proofs.Sexpr.ParserAgreement
import Mathlib.Data.List.Infix

set_option autoImplicit false

/-! # Reading a value ends with the first event

Going through tokens, one can keep the parentheses that are open: an opening one is put on a
stack, a closing one takes one off (`unclosed`). The first of certain events (`Event`) ends the
value: a lexical error, a closing parenthesis that closes nothing, the end of the text, an opening
parenthesis too many, or a token behind which nothing is open. Before it nothing happens
(`Quiet`), so there is one first event at most (`FirstEvent.unique`).

Reading a value answers with its first event (`ReadFrom.exists_endsBehind`). Along the way the
lists that are open are those of the parentheses on the stack, and together they have been read
from the tokens before (`ReadFrom`).
-/

namespace MakerForms

/-- Whether an error tells that something is wrong with the tokens at a span. -/
def ReadError.Tells (e : ReadError) (message : String) (span : Span) : Prop :=
  ∃ fault, e = .malformed fault span ∧ fault.message = message

theorem SyntaxFault.message_inj {fault fault' : SyntaxFault} (h : fault.message = fault'.message) :
    fault = fault' := by
  cases fault <;> cases fault' <;> first | rfl | exact absurd h (by decide +kernel)

theorem ReadError.Tells.unique {e e' : ReadError} {message : String} {span : Span}
    (h : e.Tells message span) (h' : e'.Tells message span) : e = e' := by
  obtain ⟨fault, rfl, hfault⟩ := h
  obtain ⟨fault', rfl, hfault'⟩ := h'
  rw [SyntaxFault.message_inj (hfault.trans hfault'.symm)]

theorem ReadError.Tells.message_eq {e : ReadError} {message message' : String} {span span' : Span}
    (h : e.Tells message span) (h' : e.Tells message' span') : message = message' := by
  obtain ⟨fault, rfl, rfl⟩ := h
  obtain ⟨fault', heq, rfl⟩ := h'
  obtain ⟨rfl, -⟩ := ReadError.malformed.inj heq
  rfl

/-! ## Events -/

/-- What a token does to the parentheses that are open. -/
def nest (stack : List Span) (token : Located Token) : List Span :=
  match token.value with
  | .openParen => token.span :: stack
  | .closeParen => stack.tail
  | _ => stack

/-- The parentheses that are open behind tokens, the innermost first. -/
def unclosed (tokens : List (Located Token)) : List Span := tokens.foldl nest []

@[simp] theorem unclosed_concat (tokens : List (Located Token)) (token : Located Token) :
    unclosed (tokens ++ [token]) = nest (unclosed tokens) token := by
  rw [unclosed, List.foldl_append]
  rfl

/-- Whether no token ends a value: behind each something is open, but not too much. -/
def Quiet (tokens : List (Located Token)) : Prop :=
  ∀ front, front ≠ [] → front <+: tokens →
    unclosed front ≠ [] ∧ (unclosed front).length ≤ maxDepth

/-- What ends a value when it comes behind the tokens `before`, and how reading the value is
answered then. Where no result is left, the text ends at the byte `stop`. -/
inductive Event (stop : Nat) (before : List (Located Token)) :
    Option (Except LexError (Located Token)) → Except ReadError Value → Prop
  | lexical (e : LexError) : Event stop before (some (.error e)) (.error (.lexical e))
  | strayClose {span : Span} {e : ReadError} :
      unclosed before = [] → e.Tells "unexpected )" span →
      Event stop before (some (.ok ⟨.closeParen, span⟩)) (.error e)
  | valueExpected {e : ReadError} :
      unclosed before = [] → e.Tells "expected a value" ⟨stop, stop⟩ →
      Event stop before none (.error e)
  | nestedTooDeep {span : Span} {e : ReadError} :
      (unclosed (before ++ [⟨.openParen, span⟩])).length = maxDepth + 1 →
      e.Tells "lists nested deeper than 512" span →
      Event stop before (some (.ok ⟨.openParen, span⟩)) (.error e)
  | unclosedList {paren : Span} {outer : List Span} {e : ReadError} :
      unclosed before = paren :: outer →
      e.Tells "unexpected end of input in list" ⟨paren.start, stop⟩ →
      Event stop before none (.error e)
  | closed {token : Located Token} {v : Value} :
      token.value = .closeParen → unclosed before ≠ [] → unclosed (before ++ [token]) = [] →
      v.tokens = (before ++ [token]).map Located.value →
      Event stop before (some (.ok token)) (.ok v)
  | atom {token : Located Token} {v : Value} :
      token.value ≠ .openParen → token.value ≠ .closeParen → unclosed before = [] →
      v.tokens = [token.value] →
      Event stop before (some (.ok token)) (.ok v)

/-- Whether the first event in `results` is the `n`-th of them and is answered with `answer`. The
end of the text comes behind the last result. -/
def FirstEvent (stop : Nat) (results : List (Except LexError (Located Token)))
    (answer : Except ReadError Value) (n : Nat) : Prop :=
  ∃ before : List (Located Token), Quiet before ∧ before.map .ok <+: results ∧
    n = before.length + 1 ∧ Event stop before results[before.length]? answer

section Events

variable {stop : Nat} {before : List (Located Token)} {token : Located Token}
  {result : Option (Except LexError (Located Token))} {answer answer' : Except ReadError Value}

theorem quiet_nil : Quiet [] := by
  intro front hne hfront
  exact absurd (List.prefix_nil.mp hfront) hne

/-- A token that ends no value may come behind others that end none. -/
theorem Quiet.concat (h : Quiet before) (hopen : unclosed (before ++ [token]) ≠ [])
    (hdepth : (unclosed (before ++ [token])).length ≤ maxDepth) : Quiet (before ++ [token]) := by
  intro front hne hfront
  rcases List.prefix_concat_iff.mp hfront with rfl | hfront'
  · exact ⟨hopen, hdepth⟩
  · exact h front hne hfront'

theorem Quiet.length_le (h : Quiet before) : (unclosed before).length ≤ maxDepth := by
  by_cases hbefore : before = []
  · rw [hbefore]
    exact Nat.zero_le _
  · exact (h before hbefore (List.prefix_refl before)).2

/-- A token that ends a value cannot be passed over. -/
theorem Event.not_quiet (h : Event stop before (some (.ok token)) answer) :
    ¬ Quiet (before ++ [token]) := by
  intro hquiet
  obtain ⟨hopen, hdepth⟩ := hquiet (before ++ [token]) (by simp) (List.prefix_refl _)
  cases h with
  | strayClose hnone _ =>
      rw [unclosed_concat, hnone] at hopen
      exact hopen rfl
  | nestedTooDeep hdeep _ => omega
  | closed _ _ hclosed _ => exact hopen hclosed
  | atom hnoOpen hnoClose hnone _ =>
      apply hopen
      rw [unclosed_concat, hnone]
      obtain ⟨t, span⟩ := token
      cases t with
      | openParen => exact absurd rfl hnoOpen
      | closeParen => rfl
      | _ => rfl

theorem Value.tokens_inj {v v' : Value} (h : v.tokens = v'.tokens) : v = v' := by
  have happend : v.tokens ++ [] = v'.tokens ++ [] := by rw [h]
  exact (Value.tokens_append_inj v v' happend).1

/-- What ends a value tells how reading it is answered. -/
theorem Event.unique (h : Event stop before result answer) (h' : Event stop before result answer') :
    answer = answer' := by
  cases h with
  | lexical e =>
      cases h'
      rfl
  | strayClose hnone htold =>
      cases h' with
      | strayClose _ htold' => rw [htold.unique htold']
      | closed _ hopen _ _ => exact absurd hnone hopen
      | atom _ hnoClose _ _ => exact absurd rfl hnoClose
  | valueExpected hnone htold =>
      cases h' with
      | valueExpected _ htold' => rw [htold.unique htold']
      | unclosedList hopen _ => cases hnone.symm.trans hopen
  | nestedTooDeep hdeep htold =>
      cases h' with
      | nestedTooDeep _ htold' => rw [htold.unique htold']
      | closed hclose _ _ _ => cases hclose
      | atom hnoOpen _ _ _ => exact absurd rfl hnoOpen
  | unclosedList hopen htold =>
      cases h' with
      | valueExpected hnone _ => cases hnone.symm.trans hopen
      | unclosedList hopen' htold' =>
          obtain ⟨rfl, rfl⟩ := List.cons.inj (hopen.symm.trans hopen')
          rw [htold.unique htold']
  | closed hclose hopen _ htokens =>
      cases h' with
      | strayClose hnone _ => exact absurd hnone hopen
      | nestedTooDeep _ _ => cases hclose
      | closed _ _ _ htokens' => rw [Value.tokens_inj (htokens.trans htokens'.symm)]
      | atom _ hnoClose _ _ => exact absurd hclose hnoClose
  | atom hnoOpen hnoClose _ htokens =>
      cases h' with
      | strayClose _ _ => exact absurd rfl hnoClose
      | nestedTooDeep _ _ => exact absurd rfl hnoOpen
      | closed hclose _ _ _ => exact absurd hclose hnoClose
      | atom _ _ _ htokens' => rw [Value.tokens_inj (htokens.trans htokens'.symm)]

section FirstEvents

variable {results : List (Except LexError (Located Token))} {before' : List (Located Token)}

/-- Of two sequences of tokens that results start with, the shorter starts the longer. -/
theorem isPrefix_of_map (h : before.map .ok <+: results) (h' : before'.map .ok <+: results)
    (hlength : before.length ≤ before'.length) : before <+: before' := by
  have hinj : Function.Injective (Except.ok : Located Token → Except LexError (Located Token)) :=
    fun _ _ => Except.ok.inj
  apply (List.prefix_map_iff_of_injective hinj).mp
  apply List.prefix_of_prefix_length_le h h'
  rw [List.length_map, List.length_map]
  exact hlength

/-- Tokens that end no value do not go on behind an event. -/
theorem Event.length_le (h : Event stop before results[before.length]? answer)
    (hbefore : before.map .ok <+: results) (hbefore' : before'.map .ok <+: results)
    (hquiet : Quiet before') : before'.length ≤ before.length := by
  by_contra hlonger
  obtain ⟨later, rfl⟩ := isPrefix_of_map hbefore hbefore' (by omega)
  cases later with
  | nil =>
      rw [List.append_nil] at hlonger
      omega
  | cons token later =>
      obtain ⟨rest, rfl⟩ := hbefore'
      have hnext : ((before ++ token :: later).map Except.ok ++ rest)[before.length]?
          = some (.ok token) := by simp
      rw [hnext] at h
      apply h.not_quiet
      intro front hne hfront
      apply hquiet front hne
      have hwhole : before ++ [token] <+: before ++ token :: later := ⟨later, by simp⟩
      exact hfront.trans hwhole

/-- There is one first event at most. -/
theorem FirstEvent.unique {n n' : Nat} (h : FirstEvent stop results answer n)
    (h' : FirstEvent stop results answer' n') : answer = answer' ∧ n = n' := by
  obtain ⟨before, hquiet, hbefore, rfl, hevent⟩ := h
  obtain ⟨before', hquiet', hbefore', rfl, hevent'⟩ := h'
  have hlength : before.length = before'.length :=
    Nat.le_antisymm (hevent'.length_le hbefore' hbefore hquiet)
      (hevent.length_le hbefore hbefore' hquiet')
  have hsame : before = before' :=
    (isPrefix_of_map hbefore hbefore' hlength.le).eq_of_length hlength
  rw [hsame] at hevent
  exact ⟨hevent.unique hevent', by rw [hlength]⟩

end FirstEvents

end Events

/-! ## Reading comes to the first event -/

section Reading

variable {stop : Nat} {before : List (Located Token)} {token : Located Token}
  {stack stack' : List OpenList} {v : Value} {e : ReadError}

/-- Whether the lists that are open have been read from certain tokens. -/
structure ReadFrom (stack : List OpenList) (before : List (Located Token)) : Prop where
  quiet : Quiet before
  parens_eq : stack.map OpenList.paren = unclosed before
  tokens_eq : Progress.openTokens stack = before.map Located.value

theorem readFrom_nil : ReadFrom [] [] := ⟨quiet_nil, rfl, rfl⟩

theorem ReadFrom.length_eq (h : ReadFrom stack before) :
    (unclosed before).length = stack.length := by
  rw [← h.parens_eq, List.length_map]

theorem ReadFrom.length_le (h : ReadFrom stack before) : stack.length ≤ maxDepth := by
  rw [← h.length_eq]
  exact h.quiet.length_le

/-- A token that is refused is an event. -/
theorem ReadFrom.event_of_error (h : ReadFrom stack before)
    (hstep : Progress.step stack token = .error e) :
    Event stop before (some (.ok token)) (.error e) := by
  have hle := h.length_le
  have hlength := h.length_eq
  have hparens := h.parens_eq
  obtain ⟨t, span⟩ := token
  cases t with
  | openParen =>
      simp only [Progress.step] at hstep
      split at hstep
      · cases hstep
      · next hfull =>
        obtain rfl := Except.error.inj hstep
        refine Event.nestedTooDeep ?_ ⟨_, rfl, by decide +kernel⟩
        rw [unclosed_concat]
        show (unclosed before).length + 1 = maxDepth + 1
        omega
  | closeParen =>
      cases stack with
      | nil =>
          obtain rfl := Except.error.inj hstep
          exact Event.strayClose hparens.symm ⟨_, rfl, rfl⟩
      | cons inner outer => cases hstep
  | symbol _ | integer _ | string _ | character _ => cases hstep

theorem deliver_eq_done {u : Value} (h : Progress.deliver u stack = .done v) : stack = [] := by
  cases stack with
  | nil => rfl
  | cons inner outer => cases h

/-- A value that goes into a list leaves the same lists open. -/
theorem deliver_eq_more {u : Value} (h : Progress.deliver u stack = .more stack') :
    stack'.map OpenList.paren = stack.map OpenList.paren ∧ stack' ≠ [] ∧
      stack'.length = stack.length := by
  cases stack with
  | nil => cases h
  | cons inner outer =>
      cases h
      exact ⟨rfl, by simp, rfl⟩

/-- A token that makes a value whole is an event. -/
theorem ReadFrom.event_of_done (h : ReadFrom stack before)
    (hstep : Progress.step stack token = .ok (.done v)) :
    Event stop before (some (.ok token)) (.ok v) := by
  have hparens := h.parens_eq
  have htokens : v.tokens = Progress.openTokens stack ++ [token.value] :=
    Progress.tokens_step hstep
  obtain ⟨t, span⟩ := token
  cases t with
  | openParen =>
      simp only [Progress.step] at hstep
      split at hstep <;> cases hstep
  | closeParen =>
      cases stack with
      | nil => cases hstep
      | cons inner outer =>
          obtain rfl := deliver_eq_done (Except.ok.inj hstep)
          have hopen : unclosed before = [inner.paren] := hparens.symm
          refine Event.closed rfl (by simp [hopen]) ?_ ?_
          · rw [unclosed_concat, hopen]
            rfl
          · rw [htokens, h.tokens_eq, List.map_append]
            rfl
  | symbol _ | integer _ | string _ | character _ =>
      obtain rfl := deliver_eq_done (Except.ok.inj hstep)
      exact Event.atom (by simp) (by simp) hparens.symm htokens

/-- What a token does to the lists that are open it does to their parentheses. -/
theorem parens_of_step (h : Progress.step stack token = .ok (.more stack')) :
    stack'.map OpenList.paren = nest (stack.map OpenList.paren) token ∧ stack' ≠ [] ∧
      (stack.length ≤ maxDepth → stack'.length ≤ maxDepth) := by
  obtain ⟨t, span⟩ := token
  cases t with
  | openParen =>
      simp only [Progress.step] at h
      split at h
      · next hroom =>
        obtain rfl := Progress.more.inj (Except.ok.inj h)
        exact ⟨rfl, by simp, fun _ => hroom⟩
      · cases h
  | closeParen =>
      cases stack with
      | nil => cases h
      | cons inner outer =>
          obtain ⟨hsame, hopen, hlength⟩ := deliver_eq_more (Except.ok.inj h)
          refine ⟨hsame, hopen, ?_⟩
          rw [hlength, List.length_cons]
          omega
  | symbol _ | integer _ | string _ | character _ =>
      obtain ⟨hsame, hopen, hlength⟩ := deliver_eq_more (Except.ok.inj h)
      exact ⟨hsame, hopen, fun hle => by rwa [hlength]⟩

/-- Lists that are open behind one more token have been read from it as well. -/
theorem ReadFrom.of_more (h : ReadFrom stack before)
    (hstep : Progress.step stack token = .ok (.more stack')) :
    ReadFrom stack' (before ++ [token]) := by
  obtain ⟨hsame, hopen, hdepth⟩ := parens_of_step hstep
  have hparens : stack'.map OpenList.paren = unclosed (before ++ [token]) := by
    rw [hsame, h.parens_eq, unclosed_concat]
  have htokens : Progress.openTokens stack' = Progress.openTokens stack ++ [token.value] :=
    Progress.tokens_step hstep
  refine ⟨h.quiet.concat ?_ ?_, hparens, ?_⟩
  · rw [← hparens]
    simpa using hopen
  · rw [← hparens, List.length_map]
    exact hdepth h.length_le
  · rw [htokens, h.tokens_eq, List.map_append]
    rfl

/-- Whether reading on with lists open, behind the tokens `before`, goes through the tokens `more`
and answers with the event behind them. -/
structure EndsBehind (stop : Nat) (before : List (Located Token)) (s : Scanner)
    (stack : List OpenList) (more : List (Located Token)) : Prop where
  quiet : Quiet (before ++ more)
  starts : more.map .ok <+: s.results
  event : Event stop (before ++ more) s.results[more.length]? (s.readValue stack).1
  scanner_eq : (s.readValue stack).2 = s.after (more.length + 1)

/-- What comes next may be the event. -/
theorem ReadFrom.endsBehind_nil {s : Scanner} {answer : Except ReadError Value}
    (h : ReadFrom stack before) (hread : s.readValue stack = (answer, s.next.2))
    (hevent : Event stop before s.results[0]? answer) :
    EndsBehind stop before s stack [] := by
  rw [← List.append_nil before] at hevent
  refine ⟨?_, List.nil_prefix, ?_, ?_⟩
  · rw [List.append_nil]
    exact h.quiet
  · rw [hread]
    exact hevent
  · rw [hread]
    rfl

/-- Reading on with lists open comes to an event. -/
theorem ReadFrom.exists_endsBehind {s : Scanner} (h : ReadFrom stack before) (hs : s.EndsAt stop) :
    ∃ more, EndsBehind stop before s stack more := by
  -- `before` grows with each step, and the open lists have been read from it throughout
  induction s, stack using Scanner.readValue.induct generalizing before with
  | case1 s stack s' hnext =>
      obtain ⟨-, hoffset⟩ := hs.next_none hnext
      have hparens := h.parens_eq
      refine ⟨[], h.endsBehind_nil (by rw [Scanner.readValue_of_next_none hnext, hnext]) ?_⟩
      rw [Scanner.results_of_next_none hnext, hoffset]
      cases stack with
      | nil => exact Event.valueExpected hparens.symm ⟨_, rfl, rfl⟩
      | cons inner outer => exact Event.unclosedList hparens.symm ⟨_, rfl, rfl⟩
  | case2 s stack e s' hnext =>
      refine ⟨[], h.endsBehind_nil (by rw [Scanner.readValue_of_fault _ hnext, hnext]) ?_⟩
      rw [Scanner.results_of_next_some hnext]
      exact Event.lexical e
  | case3 s stack token s' hnext e hstep =>
      refine ⟨[], h.endsBehind_nil (by rw [Scanner.readValue_of_step_error hnext hstep, hnext]) ?_⟩
      rw [Scanner.results_of_next_some hnext]
      exact h.event_of_error hstep
  | case4 s stack token s' hnext v hstep =>
      have hread : s.readValue stack = (.ok v, s.next.2) := by
        rw [Scanner.readValue_of_step hnext hstep, hnext]
        rfl
      refine ⟨[], h.endsBehind_nil hread ?_⟩
      rw [Scanner.results_of_next_some hnext]
      exact h.event_of_done hstep
  | case5 s stack token s' hnext stack' hstep ih =>
      obtain ⟨more, hquiet, hmore, hevent, hlast⟩ := ih (h.of_more hstep) (hs.next hnext)
      have hread : s.readValue stack = s'.readValue stack' := Scanner.readValue_of_step hnext hstep
      have hresults := Scanner.results_of_next_some hnext
      rw [List.append_assoc, List.singleton_append] at hquiet hevent
      refine ⟨token :: more, hquiet, ?_, ?_, ?_⟩
      · rw [hresults]
        exact List.cons_prefix_cons.mpr ⟨rfl, hmore⟩
      · rw [hresults, hread]
        exact hevent
      · rw [hread, hlast]
        show _ = s.next.2.after (more.length + 1)
        rw [hnext]

end Reading

namespace Parser

open Reader (Operation)

/-- A parser answers with the first event in what is still to come, and takes what it has used. -/
theorem Follows.exists_firstEvent {p : Parser} {r : Reader} (h : p.Follows r) :
    ∃ n : Nat, FirstEvent r.source.utf8ByteSize p.upcoming p.one.1 n ∧ p.one.2 = p.after n ∧
      p.one.2.upcoming = p.upcoming.drop n ∧
      r.one = (p.one.1, ⟨r.source, r.scanner.after n⟩) := by
  obtain ⟨more, hquiet, hmore, hevent, hlast⟩ := readFrom_nil.exists_endsBehind h.endsAt
  obtain ⟨hone, hfollows⟩ := h.one
  have hreader : r.one = ((r.scanner.readValue []).1, ⟨r.source, (r.scanner.readValue []).2⟩) := rfl
  rw [hreader, hlast] at hone hfollows
  have hupcoming : p.one.2.upcoming = p.upcoming.drop (more.length + 1) := by
    rw [hfollows.upcoming_eq, h.upcoming_eq]
    exact Scanner.results_after r.scanner (more.length + 1)
  refine ⟨more.length + 1, ⟨more, hquiet, ?_, rfl, ?_⟩, ?_, hupcoming, ?_⟩
  · rw [h.upcoming_eq]
    exact hmore
  · rw [h.upcoming_eq, hone]
    exact hevent
  · rw [hone, h.after_succ]
  · rw [hreader, hlast, hone]

/-- **Reading a value is answered with the first event.** Wherever operations have led, also
behind errors and with a token held back, exactly one event comes first in what is still to come.
Reading a value answers with it, and takes no more and no less than what leads up to it and the
event itself. The reader that keeps a stack of open lists does the same. -/
theorem one_answers_first_event (source : String) (operations : List Operation) :
    ∃ n : Nat,
      (∀ (answer : Except ReadError Value) (m : Nat),
        FirstEvent source.utf8ByteSize (reached source operations).upcoming answer m ↔
          answer = (reached source operations).one.1 ∧ m = n) ∧
      (reached source operations).one.2 = (reached source operations).after n ∧
      (reached source operations).one.2.upcoming
        = (reached source operations).upcoming.drop n ∧
      (Reader.reached source operations).one
        = ((reached source operations).one.1,
          ⟨source, (Reader.reached source operations).scanner.after n⟩) ∧
      (Reader.reached source operations).scanner.results
        = (reached source operations).upcoming := by
  obtain ⟨-, hfollows⟩ := answers_eq_reader source operations
  obtain ⟨hsource, -⟩ := (Reader.ofString source).exists_consumes_run operations
  have hsource' : (Reader.reached source operations).source = source := hsource
  obtain ⟨n, hfirst, hlast, hupcoming, hreader⟩ := hfollows.exists_firstEvent
  rw [hsource'] at hfirst hreader
  refine ⟨n, fun answer m => ⟨fun hother => hother.unique hfirst, ?_⟩, hlast, hupcoming, hreader,
    hfollows.upcoming_eq.symm⟩
  rintro ⟨rfl, rfl⟩
  exact hfirst

-- an error leaves the lists behind that were open, and what comes next is outside of all lists
example : ((ofString "((A 2B) C").run [.one, .one, .one]).1
    = [.error (.lexical ⟨.malformedInteger, "2B", ⟨4, 6⟩⟩),
      .error (.malformed .strayClose ⟨6, 7⟩), .ok (.value (.symbol (.bare "C")))] := by
  decide +kernel

end Parser

end MakerForms
