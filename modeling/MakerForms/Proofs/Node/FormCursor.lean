import MakerForms.Proofs.Node.FormFields

set_option autoImplicit false

/-! # A form as a cursor

A form that is being read is a place among the arguments of the value that it was opened on. A
request looks at the keyword there. If it is the one asked for, the request moves on by that keyword
and the value behind it, whatever comes of the value; if not, it stays (`Form.field_of_matches`,
`Form.field_of_not_matches`). What it answers depends on these two arguments alone
(`Form.answer_field`).

A form is opened on an even number of arguments, so no keyword is ever left without a value behind
it: an even number is left behind any requests (`Form.behind_eq`). Hence the number of requests that
have found their keyword tells the place, when a keyword can be missing, and whether the form can be
finished (`Form.matched_requests_move_cursor`).
-/

namespace MakerForms

/-- What comes of a request in a form of a maker, given what stands at the cursor: a keyword and the
value behind it, or nothing. -/
def FieldRequest.answer (r : FieldRequest) (maker : String) :
    Option (Value × Value) → Except DecodeError r.type
  | none => .error (.shape maker (.missingKeyword r.keyword))
  | some (key, v) =>
    if key = .symbol (Symbol.keyword r.keyword) then
      (r.decode v).mapError (.inSlot maker r.keyword)
    else .error (.shape maker (.wrongKeyword r.keyword key))

namespace Form

/-! ## The cursor -/

/-- The values that are left to read. -/
def unread (form : Form) : List Value := form.arguments.map Argument.value

/-- The keyword at the cursor with the value behind it. -/
def cursor? (form : Form) : Option (Value × Value) :=
  match form.unread with
  | key :: v :: _ => some (key, v)
  | _ => none

/-- Whether the keyword of a request stands at the cursor. -/
def Matches (form : Form) (r : FieldRequest) : Prop :=
  form.unread.head? = some (.symbol (Symbol.keyword r.keyword))

instance (form : Form) (r : FieldRequest) : Decidable (form.Matches r) :=
  inferInstanceAs (Decidable (_ = _))

/-- How many of some requests, made one after another, find their keyword at the cursor. -/
def matched (form : Form) : List FieldRequest → Nat
  | [] => 0
  | r :: requests => (if form.Matches r then 1 else 0) + (form.field r).2.matched requests

/-- The form that is left when a number of pairs has been read. -/
def dropPairs (form : Form) (n : Nat) : Form :=
  { form with arguments := form.arguments.drop (2 * n) }

section Requests

variable {form : Form} {r : FieldRequest}

theorem unread_dropPairs (form : Form) (n : Nat) :
    (form.dropPairs n).unread = form.unread.drop (2 * n) :=
  List.map_drop

theorem dropPairs_dropPairs (form : Form) (m n : Nat) :
    (form.dropPairs m).dropPairs n = form.dropPairs (m + n) := by
  simp only [dropPairs, List.drop_drop]
  rw [← Nat.mul_add]

/-! ## One request -/

/-- What a request answers depends on nothing but what stands at the cursor. -/
theorem answer_field (form : Form) (r : FieldRequest) :
    (form.field r).1 = r.answer form.maker form.cursor? := by
  obtain ⟨maker, arguments⟩ := form
  match arguments with
  | [] => rfl
  | [_] => rfl
  | key :: argument :: rest =>
      show (field ⟨maker, key :: argument :: rest⟩ r).1
        = r.answer maker (some (key.value, argument.value))
      by_cases hkey : key.value = .symbol (Symbol.keyword r.keyword)
      · simp only [field, FieldRequest.answer, if_pos hkey]
      · simp only [field, FieldRequest.answer, if_neg hkey]

/-- A request that finds its keyword takes one pair, even if the value does not decode. -/
theorem field_of_matches (heven : 2 ∣ form.unread.length) (h : form.Matches r) :
    (form.field r).2 = form.dropPairs 1 := by
  obtain ⟨maker, arguments⟩ := form
  match arguments with
  | [] => cases h
  -- a keyword with nothing behind it would be an odd number of arguments
  | [_] =>
      have hodd : ¬ 2 ∣ 1 := by omega
      exact absurd heven hodd
  | key :: argument :: rest =>
      have hkey : key.value = .symbol (Symbol.keyword r.keyword) := Option.some.inj h
      simp only [field, if_pos hkey]
      rfl

/-- Any other request takes nothing. -/
theorem field_of_not_matches (h : ¬ form.Matches r) : (form.field r).2 = form := by
  obtain ⟨maker, arguments⟩ := form
  match arguments with
  | [] => rfl
  | [_] => rfl
  | key :: argument :: rest =>
      have hkey : key.value ≠ .symbol (Symbol.keyword r.keyword) := by
        intro hkey
        exact h (congrArg some hkey)
      simp only [field, if_neg hkey]

/-- What matches is not the end. -/
theorem matched_singleton_le (heven : 2 ∣ form.unread.length) (r : FieldRequest) :
    2 * form.matched [r] ≤ form.unread.length := by
  by_cases h : form.Matches r
  · have hpos : 0 < form.unread.length := by
      apply List.length_pos_of_ne_nil
      intro hnil
      rw [Matches, hnil] at h
      cases h
    rw [matched, if_pos h, matched]
    omega
  · rw [matched, if_neg h]
    exact Nat.zero_le _

/-- A request moves the cursor by the pairs that it matches: one or none. -/
theorem field_snd (heven : 2 ∣ form.unread.length) (r : FieldRequest) :
    (form.field r).2 = form.dropPairs (form.matched [r]) := by
  by_cases h : form.Matches r
  · rw [field_of_matches heven h, matched, if_pos h]
    rfl
  · rw [field_of_not_matches h, matched, if_neg h]
    rfl

/-- Only where nothing is left a keyword is missing. -/
theorem field_eq_missing_iff (heven : 2 ∣ form.unread.length) :
    (form.field r).1 = .error (.shape form.maker (.missingKeyword r.keyword)) ↔
      form.unread = [] := by
  rw [answer_field, cursor?]
  match hunread : form.unread, heven with
  | [], _ => exact ⟨fun _ => rfl, fun _ => rfl⟩
  | [_], heven =>
      have hodd : ¬ 2 ∣ 1 := by omega
      exact absurd heven hodd
  | key :: v :: rest, _ =>
      simp only [FieldRequest.answer]
      constructor
      · intro h
        by_cases hkey : key = .symbol (Symbol.keyword r.keyword)
        · rw [if_pos hkey, mapError_eq_error_iff] at h
          obtain ⟨cause, -, hcause⟩ := h
          cases hcause
        · rw [if_neg hkey] at h
          cases h
      · intro h
        cases h

/-! ## Requests one after another -/

/-- Requests move the cursor by as many pairs as there are requests that match. -/
theorem behind_eq (heven : 2 ∣ form.unread.length) (requests : List FieldRequest) :
    form.behind requests = form.dropPairs (form.matched requests) ∧
      2 * form.matched requests ≤ form.unread.length := by
  induction requests generalizing form with
  | nil => exact ⟨rfl, Nat.zero_le _⟩
  | cons r requests ih =>
      -- the first request keeps what is left even, so the others can go on behind it
      have hfirst := field_snd heven r
      have hlength : (form.field r).2.unread.length
          = form.unread.length - 2 * form.matched [r] := by
        rw [hfirst, unread_dropPairs, List.length_drop]
      have heven' : 2 ∣ (form.field r).2.unread.length := by
        rw [hlength]
        omega
      have hle : 2 * form.matched [r] ≤ form.unread.length := matched_singleton_le heven r
      obtain ⟨hothers, hbound⟩ := ih heven'
      have hcount : form.matched (r :: requests)
          = form.matched [r] + (form.field r).2.matched requests := rfl
      constructor
      · calc form.behind (r :: requests)
            = (form.field r).2.behind requests := rfl
          _ = (form.field r).2.dropPairs ((form.field r).2.matched requests) := hothers
          _ = (form.dropPairs (form.matched [r])).dropPairs ((form.field r).2.matched requests) :=
              congrArg (fun next => next.dropPairs ((form.field r).2.matched requests)) hfirst
          _ = form.dropPairs (form.matched (r :: requests)) := by rw [dropPairs_dropPairs, hcount]
      · rw [hcount]
        omega

theorem finish_eq_ok_iff (form : Form) : form.finish = .ok () ↔ form.unread = [] := by
  obtain ⟨maker, arguments⟩ := form
  cases arguments with
  | nil => exact ⟨fun _ => rfl, fun _ => rfl⟩
  | cons extra rest =>
      constructor
      · intro h
        cases h
      · intro h
        cases h

end Requests

theorem map_value_argumentsOf (vs : List Value) : (argumentsOf vs).map Argument.value = vs := by
  rw [argumentsOf_eq_map, List.map_map]
  exact List.map_id vs

/-- **Requests that find their keyword, and no others, move the cursor of a form.** A form is opened
on twice as many arguments as it should have. Behind any requests, whatever comes of them, two of
these have been read for each request that found its keyword, and the others are left. One more
request takes the keyword that it asks for with the value behind it, or nothing. What it answers is
told by these two arguments, and the keyword is missing exactly if all pairs have been read. In that
case and in no other the form can be finished. Asking for a slot is such a request. -/
theorem matched_requests_move_cursor {v : Value} {maker : String} {arity : Nat} {form : Form}
    (hopen : ofValue v maker arity = .ok form) (requests : List FieldRequest) :
    ∃ args : List Value, v = .list (.symbol (Symbol.maker maker) :: args) ∧
      args.length = 2 * arity ∧ form.matched requests ≤ arity ∧
      (form.behind requests).unread = args.drop (2 * form.matched requests) ∧
      (∀ r : FieldRequest,
        ((form.behind requests).Matches r → ((form.behind requests).field r).2.unread
          = args.drop (2 * (form.matched requests + 1))) ∧
        (¬ (form.behind requests).Matches r →
          ((form.behind requests).field r).2 = form.behind requests) ∧
        ((form.behind requests).field r).1 = r.answer maker (form.behind requests).cursor? ∧
        (((form.behind requests).field r).1 = .error (.shape maker (.missingKeyword r.keyword)) ↔
          form.matched requests = arity)) ∧
      (∀ keyword s, (form.behind requests).slot keyword s
        = (form.behind requests).field (.ofSchema keyword s)) ∧
      ((form.behind requests).finish = .ok () ↔ form.matched requests = arity) := by
  obtain ⟨args, rfl, hlength, rfl⟩ := start_eq_ok_iff.mp hopen
  have hargs : (⟨maker, argumentsOf args⟩ : Form).unread = args := map_value_argumentsOf args
  have heven : 2 ∣ (⟨maker, argumentsOf args⟩ : Form).unread.length := by
    rw [hargs]
    omega
  obtain ⟨hbehind, hbound⟩ := behind_eq heven requests
  rw [hargs] at hbound
  rw [hbehind]
  generalize (⟨maker, argumentsOf args⟩ : Form).matched requests = n at hbound ⊢
  have hleft : ((⟨maker, argumentsOf args⟩ : Form).dropPairs n).unread = args.drop (2 * n) := by
    rw [unread_dropPairs, hargs]
  have heven' : 2 ∣ ((⟨maker, argumentsOf args⟩ : Form).dropPairs n).unread.length := by
    rw [hleft, List.length_drop]
    omega
  -- nothing is left exactly if all pairs have been read
  have hend : ((⟨maker, argumentsOf args⟩ : Form).dropPairs n).unread = [] ↔ n = arity := by
    rw [hleft, List.drop_eq_nil_iff]
    omega
  refine ⟨args, rfl, by omega, by omega, hleft, fun r => ⟨fun hr => ?_, field_of_not_matches,
    answer_field _ r, ?_⟩, fun keyword s => ?_, ?_⟩
  · rw [field_of_matches heven' hr, dropPairs_dropPairs, unread_dropPairs, hargs]
  · exact (field_eq_missing_iff heven').trans hend
  · have hdrop : (⟨maker, argumentsOf args⟩ : Form).dropPairs n
        = ⟨maker, argumentsOf (args.drop (2 * n))⟩ := by
      rw [dropPairs, argumentsOf_eq_map, argumentsOf_eq_map, List.map_drop]
    rw [hdrop, slot_eq_field]
  · exact (finish_eq_ok_iff _).trans hend

/-- A form with an integer where a text is asked for, and with one keyword in two places. -/
def mistypedForm : Value :=
  .form "MAKE-X" [("A", .integer 1), ("B", .string "b"), ("A", Value.nil)]

/-- A text that is an integer there, a keyword that does not come next, and a text. -/
def textRequests : List FieldRequest :=
  [.ofSchema "A" .string, .ofSchema "C" .flag, .ofSchema "B" .string]

theorem matched_requests_move_cursor_mistypedForm :
    ∃ form, ofValue mistypedForm "MAKE-X" 3 = .ok form ∧ form.matched textRequests = 2 ∧
      (form.behind textRequests).unread = [.symbol (Symbol.keyword "A"), Value.nil] ∧
      ((form.behind textRequests).field (.ofSchema "A" (.option .flag))).1 = .ok .absent ∧
      ((form.behind textRequests).field (.ofSchema "B" .flag)).2.unread
        = [.symbol (Symbol.keyword "A"), Value.nil] ∧
      (form.behind textRequests).finish ≠ .ok () := by
  have hopen : ofValue mistypedForm "MAKE-X" 3
      = .ok (ofPairs "MAKE-X" [("A", .integer 1), ("B", .string "b"), ("A", Value.nil)]) := rfl
  obtain ⟨args, hv, -, -, hunread, hrequest, -, hfinish⟩ :=
    matched_requests_move_cursor hopen textRequests
  have hcount : (ofPairs "MAKE-X" [("A", .integer 1), ("B", .string "b"), ("A", Value.nil)]).matched
      textRequests = 2 := by decide +kernel
  obtain rfl : _ = args := (List.cons.inj (Value.list.inj hv)).2
  rw [hcount] at hunread hfinish
  obtain ⟨-, -, hanswer, -⟩ := hrequest (.ofSchema "A" (.option .flag))
  obtain ⟨-, hstays, -, -⟩ := hrequest (.ofSchema "B" .flag)
  refine ⟨_, hopen, hcount, hunread, ?_, ?_, ?_⟩
  · rw [hanswer, cursor?, hunread]
    rfl
  · rw [hstays, hunread]
    · rfl
    · rw [Matches, hunread]
      decide +kernel
  · rw [ne_eq, hfinish]
    decide

end Form

end MakerForms
