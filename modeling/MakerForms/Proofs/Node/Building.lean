import MakerForms.Node.Construct
import MakerForms.Proofs.Node.Bounds
import MakerForms.Proofs.Node.NormalForm

set_option autoImplicit false

/-! # What is built is whole

To build a node, a step looks at what its parts are, but not into them (`Tree.standsIn`). That is
enough: trees that fit as nodes make up a node that fits (`Construction.fits_assemble`), so on a
stack of such trees there are never others (`BuildStep.wholeNodes_of_run`), and all that a run
builds decodes from its own value (`wholeNodes_of_runBuildSteps`).

A step takes the parts of a node if they are on top of the stack and all belong where they would go
(`takeParts_eq_ok_iff`); otherwise it fails at the last place that cannot be filled
(`takeParts_eq_error_iff`). A step that fails is as good as none for those behind it
(`getElem?_runBuildSteps`).
-/

namespace MakerForms

/-! ## Taking parts -/

/-- Whether each of several trees belongs in the place for it. -/
def StandIn (ts : List Tree) (places : List Schema) : Prop :=
  List.Forall₂ (fun t s => t.standsIn s = true) ts places

section Parts

variable {places : List Schema} {stack taken : List Tree}

/-- Trees that belong in the first places are taken for them. -/
theorem takeParts_append {used rest : List Tree} {before behind : List Schema}
    (h : StandIn used before) :
    takeParts (before ++ behind) (used ++ rest) taken
      = takeParts behind rest (used.reverse ++ taken) := by
  induction h generalizing taken with
  | nil => rfl
  | cons ht _ ih =>
      rw [List.cons_append, List.cons_append, takeParts, if_pos ht, ih, List.reverse_cons,
        List.append_assoc, List.singleton_append]

theorem takeParts_of_standIn {used rest : List Tree} (h : StandIn used places) :
    takeParts places (used ++ rest) taken = .ok (used.reverse ++ taken, rest) := by
  rw [← List.append_nil places, takeParts_append h, takeParts]

theorem takeParts_of_emptyStack {used : List Tree} {before behind : List Schema} {s : Schema}
    (h : StandIn used before) :
    takeParts (before ++ s :: behind) used taken = .error .emptyStack := by
  rw [← List.append_nil used, takeParts_append h, takeParts]

theorem takeParts_of_wrongNode {used rest : List Tree} {before behind : List Schema} {s : Schema}
    {t : Tree} (h : StandIn used before) (ht : t.standsIn s = false) :
    takeParts (before ++ s :: behind) (used ++ t :: rest) taken = .error (.wrongNode t) := by
  rw [takeParts_append h, takeParts, if_neg (by simp [ht])]

/-- The trees on top of a stack fill all places, or there is a first place for which there is no
tree or one that does not belong there. -/
theorem takeParts_cases (places : List Schema) (stack : List Tree) :
    (∃ used rest, stack = used ++ rest ∧ StandIn used places) ∨
      ∃ used before s behind, places = before ++ s :: behind ∧ StandIn used before ∧
        (stack = used ∨ ∃ t rest, stack = used ++ t :: rest ∧ t.standsIn s = false) := by
  induction places generalizing stack with
  | nil => exact .inl ⟨[], stack, rfl, .nil⟩
  | cons s places ih =>
      cases stack with
      | nil => exact .inr ⟨[], [], s, places, rfl, .nil, .inl rfl⟩
      | cons t stack =>
          cases ht : t.standsIn s with
          | false => exact .inr ⟨[], [], s, places, rfl, .nil, .inr ⟨t, stack, rfl, ht⟩⟩
          | true =>
              rcases ih stack with ⟨used, rest, rfl, hused⟩ | ⟨used, before, s', behind, rfl, hused,
                rfl | ⟨u, rest, rfl, hu⟩⟩
              · exact .inl ⟨t :: used, rest, rfl, .cons ht hused⟩
              · exact .inr ⟨t :: stack, s :: before, s', behind, rfl, .cons ht hused, .inl rfl⟩
              · exact .inr ⟨t :: used, s :: before, s', behind, rfl, .cons ht hused,
                  .inr ⟨u, rest, rfl, hu⟩⟩

/-- Parts are taken exactly if they are on top of the stack and all belong where they would go. -/
theorem takeParts_eq_ok_iff {parts rest : List Tree} :
    takeParts places stack taken = .ok (parts, rest) ↔
      ∃ used, stack = used ++ rest ∧ parts = used.reverse ++ taken ∧ StandIn used places := by
  constructor
  · intro h
    rcases takeParts_cases places stack with ⟨used, rest', rfl, hused⟩ |
      ⟨used, before, s, behind, rfl, hused, rfl | ⟨t, rest', rfl, ht⟩⟩
    · rw [takeParts_of_standIn hused] at h
      obtain ⟨rfl, rfl⟩ := Prod.mk.inj (Except.ok.inj h)
      exact ⟨used, rfl, rfl, hused⟩
    · rw [takeParts_of_emptyStack hused] at h
      cases h
    · rw [takeParts_of_wrongNode hused ht] at h
      cases h
  · rintro ⟨used, rfl, rfl, hused⟩
    exact takeParts_of_standIn hused

/-- What is wrong otherwise is wrong with the first place that is not filled: there is no tree for
it, or the tree does not belong there. -/
theorem takeParts_eq_error_iff {e : BuildError} :
    takeParts places stack taken = .error e ↔
      ∃ used before s behind, places = before ++ s :: behind ∧ StandIn used before ∧
        ((stack = used ∧ e = .emptyStack) ∨
          ∃ t rest, stack = used ++ t :: rest ∧ t.standsIn s = false ∧ e = .wrongNode t) := by
  constructor
  · intro h
    rcases takeParts_cases places stack with ⟨used, rest, rfl, hused⟩ |
      ⟨used, before, s, behind, rfl, hused, rfl | ⟨t, rest, rfl, ht⟩⟩
    · rw [takeParts_of_standIn hused] at h
      cases h
    · rw [takeParts_of_emptyStack hused] at h
      exact ⟨stack, before, s, behind, rfl, hused, .inl ⟨rfl, (Except.error.inj h).symm⟩⟩
    · rw [takeParts_of_wrongNode hused ht] at h
      exact ⟨used, before, s, behind, rfl, hused,
        .inr ⟨t, rest, rfl, ht, (Except.error.inj h).symm⟩⟩
  · rintro ⟨used, before, s, behind, rfl, hused, ⟨rfl, rfl⟩ | ⟨t, rest, rfl, ht, rfl⟩⟩
    · exact takeParts_of_emptyStack hused
    · exact takeParts_of_wrongNode hused ht

end Parts

/-- The parts of a construction are on top of the stack, the last one first. -/
theorem BuildStep.run_construct_eq_ok_iff {c : Construction} {stack stack' : List Tree} :
    (construct c).run stack = .ok stack' ↔
      ∃ parts rest, stack = parts.reverse ++ rest ∧ StandIn parts c.parts ∧
        stack' = c.assemble parts :: rest := by
  rw [run]
  constructor
  · intro h
    rcases htake : takeParts c.parts.reverse stack [] with e | ⟨parts, rest⟩
    · rw [htake] at h
      cases h
    · rw [htake] at h
      obtain ⟨used, rfl, hparts, hused⟩ := takeParts_eq_ok_iff.mp htake
      obtain rfl : parts = used.reverse := by simpa using hparts
      refine ⟨used.reverse, rest, by rw [List.reverse_reverse], ?_, (Except.ok.inj h).symm⟩
      exact List.forall₂_reverse_iff.mp (by rwa [List.reverse_reverse])
  · rintro ⟨parts, rest, rfl, hparts, rfl⟩
    have htake : takeParts c.parts.reverse (parts.reverse ++ rest) [] = .ok (parts, rest) :=
      takeParts_eq_ok_iff.mpr
        ⟨parts.reverse, rfl, by simp, List.forall₂_reverse_iff.mpr hparts⟩
    rw [htake]

/-! ## Whole nodes -/

/-- To know where a whole node belongs, it is enough to look at what it is. -/
theorem Tree.standsIn_iff_fits {t : Tree} (h : t.fits .node = true) (s : Schema) :
    t.standsIn s = true ↔ t.fits s = true := by
  obtain ⟨k, hk⟩ := fits_node_iff.mp h
  obtain ⟨ts, rfl, hts⟩ := fits_kind_iff.mp hk
  cases s <;> simp [standsIn, kind?, fits, hts]

/-- Whether all trees are whole nodes. -/
def WholeNodes (ts : List Tree) : Prop := ∀ t ∈ ts, t.fits .node = true

theorem fitSlots_iff_forall₂ {ts : List Tree} {slots : List Slot} :
    Tree.fitSlots ts slots = true ↔
      List.Forall₂ (fun t s => t.fits s = true) ts (slots.map (·.schema)) := by
  induction slots generalizing ts with
  | nil => cases ts <;> simp [Tree.fitSlots]
  | cons slot slots ih =>
      rw [Tree.fitSlots_cons_iff, List.map_cons, List.forall₂_cons_right_iff]
      simp only [ih]
      constructor
      · rintro ⟨u, us, rfl, hu, hus⟩
        exact ⟨u, us, hu, hus, rfl⟩
      · rintro ⟨u, us, hu, hus, rfl⟩
        exact ⟨u, us, rfl, hu, hus⟩

/-- Whole nodes belong in places exactly if they fit there. -/
theorem standIn_iff_fits {ts : List Tree} {places : List Schema} (hwhole : WholeNodes ts) :
    StandIn ts places ↔ List.Forall₂ (fun t s => t.fits s = true) ts places := by
  have himp : ∀ {P Q : Tree → Schema → Prop},
      (∀ t s, t.fits .node = true → P t s → Q t s) →
      List.Forall₂ P ts places → List.Forall₂ Q ts places := fun h hP =>
    ((List.forall₂_and_left _ _).mpr ⟨hwhole, hP⟩).imp fun t s ht => h t s ht.1 ht.2
  exact ⟨himp fun t s ht => (Tree.standsIn_iff_fits ht s).mp,
    himp fun t s ht => (Tree.standsIn_iff_fits ht s).mpr⟩

/-- Trees that fit the same place several times over are items of a sequence for it. -/
theorem fitAll_of_forall₂_replicate {ts : List Tree} {s : Schema} {n : Nat}
    (h : List.Forall₂ (fun t s => t.fits s = true) ts (List.replicate n s)) :
    Tree.fitAll ts s = true := by
  induction n generalizing ts with
  | zero =>
      obtain rfl := List.forall₂_nil_right_iff.mp h
      rfl
  | succ n ih =>
      obtain ⟨t, ts, ht, hts, rfl⟩ := List.forall₂_cons_right_iff.mp h
      rw [Tree.fitAll, ht, ih hts, Bool.and_self]

/-- What is built from whole nodes is a whole node. -/
theorem Construction.fits_assemble {c : Construction} {parts : List Tree}
    (hparts : StandIn parts c.parts) (hwhole : WholeNodes parts) :
    (c.assemble parts).fits .node = true := by
  have hfits := (standIn_iff_fits hwhole).mp hparts
  cases c with
  | node k =>
      rw [assemble, Tree.fits]
      exact fitSlots_iff_forall₂.mpr hfits
  | operation o =>
      rw [Construction.parts] at hfits
      rw [assemble]
      cases hplace : o.place with
      | unary =>
          simp only [hplace] at hfits ⊢
          exact fitSlots_iff_forall₂.mpr (.cons (by simp [hplace]) hfits)
      | binary =>
          simp only [hplace] at hfits ⊢
          exact fitSlots_iff_forall₂.mpr (.cons (by simp [hplace]) hfits)
  | call count =>
      obtain ⟨name, operands, hname, hoperands, rfl⟩ := List.forall₂_cons_right_iff.mp hfits
      have hsequence := fitAll_of_forall₂_replicate hoperands
      exact fitSlots_iff_forall₂.mpr (.cons hname (.cons rfl (.cons hsequence .nil)))
  | identifiers count =>
      exact fitSlots_iff_forall₂.mpr (.cons (fitAll_of_forall₂_replicate hfits) .nil)
  | program count =>
      exact fitSlots_iff_forall₂.mpr (.cons (fitAll_of_forall₂_replicate hfits) .nil)
  | cast s =>
      obtain ⟨t, ts, -, hts, rfl⟩ := List.forall₂_cons_right_iff.mp hfits
      exact hwhole t List.mem_cons_self

/-! ## Steps -/

namespace BuildStep

/-- Whether a step puts a whole node on the stack if it puts a given tree there. -/
def PutsNode : BuildStep → Prop
  | put t => t.fits .node = true
  | _ => True

/-- A step that can be taken keeps a stack of whole nodes one. -/
theorem wholeNodes_of_run {stack stack' : List Tree} {step : BuildStep} (hput : step.PutsNode)
    (hstack : WholeNodes stack) (h : step.run stack = .ok stack') : WholeNodes stack' := by
  cases step with
  | read source =>
      rw [run] at h
      split at h
      · next t ht =>
        obtain rfl := Except.ok.inj h
        obtain ⟨-, hdecode⟩ := Tree.read_eq_ok_iff.mp ht
        exact List.forall_mem_cons.mpr ⟨Tree.fits_of_decode_eq_ok _ _ _ hdecode, hstack⟩
      · cases h
  | identifier name =>
      rw [run, Identifier.ofName, checkName] at h
      by_cases hname : Identifier.isValid name = true
      · rw [if_pos hname] at h
        obtain rfl := Except.ok.inj h
        refine List.forall_mem_cons.mpr ⟨?_, hstack⟩
        exact Tree.fitSlots_singleton_iff.mpr ⟨_, rfl, by simpa using hname⟩
      · rw [if_neg hname] at h
        cases h
  | put t =>
      obtain rfl := Except.ok.inj h
      exact List.forall_mem_cons.mpr ⟨hput, hstack⟩
  | drop =>
      cases stack with
      | nil => cases h
      | cons t rest =>
          obtain rfl := Except.ok.inj h
          exact (List.forall_mem_cons.mp hstack).2
  | dup =>
      cases stack with
      | nil => cases h
      | cons t rest =>
          obtain rfl := Except.ok.inj h
          exact List.forall_mem_cons.mpr ⟨(List.forall_mem_cons.mp hstack).1, hstack⟩
  | swap =>
      cases stack with
      | nil => cases h
      | cons t rest =>
          cases rest with
          | nil => cases h
          | cons u rest =>
              obtain rfl := Except.ok.inj h
              simp only [WholeNodes, List.forall_mem_cons] at hstack ⊢
              exact ⟨hstack.2.1, hstack.1, hstack.2.2⟩
  | construct c =>
      obtain ⟨parts, rest, rfl, hparts, rfl⟩ := run_construct_eq_ok_iff.mp h
      have hwhole : WholeNodes parts := fun t ht => hstack t (by simp [ht])
      have hrest : WholeNodes rest := fun t ht => hstack t (by simp [ht])
      exact List.forall_mem_cons.mpr ⟨c.fits_assemble hparts hwhole, hrest⟩

/-- On a stack of whole nodes, a node of a kind is built exactly if the trees on top fit its
slots. -/
theorem run_node_eq_ok_iff {k : Kind} {stack stack' : List Tree} (hstack : WholeNodes stack) :
    (construct (.node k)).run stack = .ok stack' ↔
      ∃ ts rest, stack = ts.reverse ++ rest ∧ (Tree.form k ts).fits (.kind k) = true ∧
        stack' = .form k ts :: rest := by
  rw [run_construct_eq_ok_iff]
  refine exists_congr fun ts => exists_congr fun rest => and_congr_right fun hsplit => ?_
  have hwhole : WholeNodes ts := fun t ht => hstack t (by simp [hsplit, ht])
  rw [standIn_iff_fits hwhole, Construction.parts, ← fitSlots_iff_forall₂, Tree.fits,
    beq_self_eq_true, Bool.true_and]
  rfl

end BuildStep

/-! ## Runs -/

/-- The stack behind several steps, of which those that fail change nothing. -/
def stackBehind (stack : List Tree) : List BuildStep → List Tree
  | [] => stack
  | step :: rest => stackBehind ((step.run stack).toOption.getD stack) rest

theorem runBuildSteps_cons (stack : List Tree) (step : BuildStep) (rest : List BuildStep) :
    runBuildSteps stack (step :: rest)
      = step.run stack :: runBuildSteps ((step.run stack).toOption.getD stack) rest := by
  rw [runBuildSteps]
  cases step.run stack <;> rfl

/-- Each step finds the stack that the steps before it leave, and is answered for by itself. -/
theorem getElem?_runBuildSteps (stack : List Tree) (steps : List BuildStep) (i : Nat) :
    (runBuildSteps stack steps)[i]?
      = steps[i]?.map fun step => step.run (stackBehind stack (steps.take i)) := by
  induction steps generalizing stack i with
  | nil => simp [runBuildSteps]
  | cons step rest ih =>
      rw [runBuildSteps_cons]
      cases i with
      | zero => simp [stackBehind]
      | succ i => simp [ih, stackBehind]

theorem wholeNodes_stackBehind {stack : List Tree} {steps : List BuildStep}
    (hput : ∀ step ∈ steps, step.PutsNode) (hstack : WholeNodes stack) :
    WholeNodes (stackBehind stack steps) := by
  induction steps generalizing stack with
  | nil => exact hstack
  | cons step rest ih =>
      obtain ⟨hstep, hrest⟩ := List.forall_mem_cons.mp hput
      rw [stackBehind]
      refine ih hrest ?_
      cases hrun : step.run stack with
      | error e => exact hstack
      | ok stack' => exact step.wholeNodes_of_run hstep hstack hrun

/-- **What is built is whole.** From a stack of whole nodes on, with none but such put there as they
are, every stack that a run comes to is one of whole nodes: each has a value and is what the value
decodes to. -/
theorem wholeNodes_of_runBuildSteps {stack stack' : List Tree} {steps : List BuildStep}
    (hput : ∀ step ∈ steps, step.PutsNode) (hstack : WholeNodes stack)
    (h : .ok stack' ∈ runBuildSteps stack steps) :
    WholeNodes stack' ∧ ∀ t ∈ stack', t.encode.decode .node = .ok t := by
  obtain ⟨i, hi⟩ := List.getElem?_of_mem h
  rw [getElem?_runBuildSteps] at hi
  obtain ⟨step, hstep, hrun⟩ := Option.map_eq_some_iff.mp hi
  have hbefore : WholeNodes (stackBehind stack (steps.take i)) :=
    wholeNodes_stackBehind (fun s hs => hput s (List.mem_of_mem_take hs)) hstack
  have hwhole := step.wholeNodes_of_run (hput step (List.mem_of_getElem? hstep)) hbefore hrun
  exact ⟨hwhole, fun t ht => Tree.decode_encode_of_fits t .node rfl (hwhole t ht)⟩

end MakerForms
