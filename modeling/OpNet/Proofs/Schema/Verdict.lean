import Mathlib.Data.Prod.Lex
import OpNet.Schema

/-!
# The verdict of a schema

A schema accepts the definitions that keep all its rules. Of a definition that breaks some it tells
the first breach: a wrong number of inputs before a wrong number of outputs, these before two
positions that share a blob without permission, and such a pair before one that has to share a blob
and does not.

* `Schema.Strays`, `Schema.Parts` — the two ways in which an input and an output break a rule.
* `Schema.strayPair?_eq_some_iff` — of the pairs that stray the search finds the least, where the
  position of the input counts first.
* `Schema.brokenPair?_eq_some_iff` — of the enforced pairs that part it finds the one that was
  declared first.
* `Schema.FirstViolation` — the fault that a definition is refused with.
* `Schema.verify_accepts_or_reports` — what the check of a definition tells.
-/

set_option autoImplicit false

namespace OpNet

/-! ## Counts -/

theorem Bounds.admits_iff {b : Bounds} {n : Nat} : b.admits n ↔ b.lo ≤ n ∧ n ≤ b.hi := by
  rw [admits, Bool.and_eq_true, decide_eq_true_iff, decide_eq_true_iff]

namespace Schema

variable {s : Schema} {d : OperatorDef} {cause : Fault}

theorem checkCount_eq_ok_iff {what : String} {got : Nat} {b : Bounds} :
    s.checkCount what got b = .ok () ↔ b.lo ≤ got ∧ got ≤ b.hi := by
  rw [checkCount, ← Bounds.admits_iff]
  split <;> simp [*]

theorem checkCount_eq_error_iff {what : String} {got : Nat} {b : Bounds} :
    s.checkCount what got b = .error cause ↔
      ¬(b.lo ≤ got ∧ got ≤ b.hi) ∧ cause = .arity s.opType what got b.lo b.hi := by
  rw [checkCount, ← Bounds.admits_iff]
  split <;> simp [*, eq_comm]

/-! ## Pairs that share a blob -/

/-- An input and an output are the same blob, and no rule lets them be. -/
structure Strays (s : Schema) (d : OperatorDef) (blob : String) (i o : Nat) : Prop where
  input : d.inputs[i]? = some blob
  output : d.outputs[o]? = some blob
  notAllowed : (i, o) ∉ s.allowed
  notEnforced : (i, o) ∉ s.enforced

/-- What is found at the first position that has something to find. -/
theorem exists_of_findSome?_zipIdx {α β : Type} {f : α × Nat → Option β} {xs : List α} {b : β}
    (h : xs.zipIdx.findSome? f = some b) : ∃ n x, xs[n]? = some x ∧ f (x, n) = some b ∧
      ∀ m < n, ∀ y, xs[m]? = some y → f (y, m) = none := by
  obtain ⟨before, ⟨x, n⟩, after, hsplit, hf, hbefore⟩ := List.findSome?_eq_some_iff.1 h
  have hget (m : Nat) : (before ++ (x, n) :: after)[m]? = xs[m]?.map (·, m) := by
    rw [← hsplit, List.getElem?_zipIdx]
    simp
  have hn := hget before.length
  rw [List.getElem?_append_right (Nat.le_refl _), Nat.sub_self] at hn
  obtain ⟨x', hx', heq⟩ := Option.map_eq_some_iff.1 hn.symm
  obtain ⟨rfl, rfl⟩ := Prod.mk.inj heq
  refine ⟨before.length, x', hx', hf, fun m hm y hy => hbefore _ (List.mem_of_getElem? (i := m) ?_)⟩
  have hm' := hget m
  rwa [List.getElem?_append_left hm, hy] at hm'

theorem strayOutput?_eq (i : Nat) (input : String) (o : Nat) (outputs : List String) :
    s.strayOutput? i input o outputs = (outputs.zipIdx o).findSome? fun p =>
      if input = p.1 ∧ s.permits i p.2 = false then some p.2 else none := by
  induction outputs generalizing o with
  | nil => rfl
  | cons output rest ih =>
    rw [strayOutput?, List.zipIdx_cons, List.findSome?_cons, ih]
    split <;> rfl

theorem strayPair?_eq (outputs : List String) (i : Nat) (inputs : List String) :
    s.strayPair? outputs i inputs = (inputs.zipIdx i).findSome? fun p =>
      (s.strayOutput? p.2 p.1 0 outputs).map (p.2, ·, p.1) := by
  induction inputs generalizing i with
  | nil => rfl
  | cons input rest ih =>
    rw [strayPair?, List.zipIdx_cons, List.findSome?_cons, ih]
    cases s.strayOutput? i input 0 outputs <;> rfl

theorem permits_eq_false_iff {i o : Nat} :
    s.permits i o = false ↔ (i, o) ∉ s.allowed ∧ (i, o) ∉ s.enforced := by
  simp [permits]

theorem Strays.permits_eq_false {blob : String} {i o : Nat} (h : s.Strays d blob i o) :
    s.permits i o = false :=
  permits_eq_false_iff.2 ⟨h.notAllowed, h.notEnforced⟩

/-- An input strays with none of the outputs. -/
theorem strayOutput?_eq_none_iff {blob : String} {i : Nat} (hi : d.inputs[i]? = some blob) :
    s.strayOutput? i blob 0 d.outputs = none ↔ ∀ o, ¬s.Strays d blob i o := by
  rw [strayOutput?_eq, List.findSome?_eq_none_iff]
  constructor
  · intro h o hstrays
    have hnone := h _ (List.mk_mem_zipIdx_iff_getElem?.2 hstrays.output)
    rw [if_pos ⟨rfl, hstrays.permits_eq_false⟩] at hnone
    cases hnone
  · rintro h ⟨output, o⟩ hmem
    refine if_neg fun ⟨hblob, hpermits⟩ => h o ?_
    subst hblob
    obtain ⟨hallowed, henforced⟩ := permits_eq_false_iff.1 hpermits
    exact ⟨hi, List.mk_mem_zipIdx_iff_getElem?.1 hmem, hallowed, henforced⟩

/-- The output that is found for an input is the first one that it strays with. -/
theorem strays_of_strayOutput? {blob : String} {i o : Nat} (hi : d.inputs[i]? = some blob)
    (h : s.strayOutput? i blob 0 d.outputs = some o) :
    s.Strays d blob i o ∧ ∀ o', s.Strays d blob i o' → o ≤ o' := by
  rw [strayOutput?_eq] at h
  obtain ⟨n, output, hn, hfound, hbefore⟩ := exists_of_findSome?_zipIdx h
  obtain ⟨⟨rfl, hpermits⟩, heq⟩ := Option.ite_none_right_eq_some.1 hfound
  obtain rfl := Option.some.inj heq
  obtain ⟨hallowed, henforced⟩ := permits_eq_false_iff.1 hpermits
  refine ⟨⟨hi, hn, hallowed, henforced⟩, fun o' hstrays => Nat.le_of_not_lt fun hlt => ?_⟩
  have hnone := hbefore o' hlt _ hstrays.output
  rw [if_pos ⟨rfl, hstrays.permits_eq_false⟩] at hnone
  cases hnone

theorem strayPair?_eq_none_iff :
    s.strayPair? d.outputs 0 d.inputs = none ↔ ∀ blob i o, ¬s.Strays d blob i o := by
  rw [strayPair?_eq, List.findSome?_eq_none_iff]
  constructor
  · intro h blob i o hstrays
    have hnone := h _ (List.mk_mem_zipIdx_iff_getElem?.2 hstrays.input)
    exact (strayOutput?_eq_none_iff hstrays.input).1 (Option.map_eq_none_iff.1 hnone) o hstrays
  · rintro h ⟨blob, i⟩ hmem
    have hi := List.mk_mem_zipIdx_iff_getElem?.1 hmem
    exact Option.map_eq_none_iff.2 ((strayOutput?_eq_none_iff hi).2 (h blob i))

/-- A pair that strays comes before all others that do. -/
structure FirstStray (s : Schema) (d : OperatorDef) (blob : String) (i o : Nat) : Prop where
  strays : s.Strays d blob i o
  least : ∀ blob' i' o', s.Strays d blob' i' o' → toLex (i, o) ≤ toLex (i', o')

theorem FirstStray.unique {blob blob' : String} {i i' o o' : Nat} (h : s.FirstStray d blob i o)
    (h' : s.FirstStray d blob' i' o') : (i, o, blob) = (i', o', blob') := by
  have hpair : toLex (i, o) = toLex (i', o') :=
    le_antisymm (h.least _ _ _ h'.strays) (h'.least _ _ _ h.strays)
  obtain ⟨rfl, rfl⟩ := Prod.mk.inj (toLex_inj.1 hpair)
  rw [Option.some.inj (h.strays.input.symm.trans h'.strays.input)]

theorem firstStray_of_strayPair? {blob : String} {i o : Nat}
    (h : s.strayPair? d.outputs 0 d.inputs = some (i, o, blob)) : s.FirstStray d blob i o := by
  rw [strayPair?_eq] at h
  obtain ⟨n, input, hn, hfound, hbefore⟩ := exists_of_findSome?_zipIdx h
  obtain ⟨o', ho', heq⟩ := Option.map_eq_some_iff.1 hfound
  obtain ⟨rfl, rfl, rfl⟩ : n = i ∧ o' = o ∧ input = blob := by simpa using heq
  obtain ⟨hstrays, hleast⟩ := strays_of_strayOutput? hn ho'
  refine ⟨hstrays, fun blob' i' k hstrays' => Prod.Lex.toLex_le_toLex.2 ?_⟩
  rcases Nat.lt_trichotomy i' n with hlt | rfl | hgt
  · -- the search has found nothing for the inputs before
    have hnone := hbefore i' hlt _ hstrays'.input
    exact absurd hstrays' ((strayOutput?_eq_none_iff hstrays'.input).1
      (Option.map_eq_none_iff.1 hnone) k)
  · obtain rfl := Option.some.inj (hn.symm.trans hstrays'.input)
    exact .inr ⟨rfl, hleast k hstrays'⟩
  · exact .inl hgt

/-- The search goes through the inputs, and for each of them through the outputs. -/
theorem strayPair?_eq_some_iff {blob : String} {i o : Nat} :
    s.strayPair? d.outputs 0 d.inputs = some (i, o, blob) ↔ s.FirstStray d blob i o := by
  refine ⟨firstStray_of_strayPair?, fun h => ?_⟩
  cases hfound : s.strayPair? d.outputs 0 d.inputs with
  | none => exact absurd h.strays (strayPair?_eq_none_iff.1 hfound blob i o)
  | some pair => exact congrArg some ((firstStray_of_strayPair? hfound).unique h)

/-! ## Pairs that have to share a blob -/

/-- The input and the output of a pair are both there, and they are different blobs. -/
def Parts (d : OperatorDef) (output : String) (p : Nat × Nat) : Prop :=
  ∃ input, d.inputs[p.1]? = some input ∧ d.outputs[p.2]? = some output ∧ input ≠ output

theorem brokenOutput?_eq_some_iff {p : Nat × Nat} {output : String} :
    brokenOutput? d p = some output ↔ Parts d output p := by
  rw [brokenOutput?, Parts]
  cases d.inputs[p.1]? with
  | none => simp
  | some input =>
    cases d.outputs[p.2]? with
    | none => simp
    | some output' =>
      by_cases h : input = output'
      · simp [h]
      · simpa [h] using fun heq => heq ▸ h

theorem brokenOutput?_eq_none_iff {p : Nat × Nat} :
    brokenOutput? d p = none ↔ ∀ output, ¬Parts d output p := by
  simp only [← brokenOutput?_eq_some_iff, Option.eq_none_iff_forall_ne_some, ne_eq]

theorem brokenPair?_eq (pairs : List (Nat × Nat)) : brokenPair? d pairs =
    pairs.findSome? fun p => (brokenOutput? d p).map (p.1, p.2, ·) := by
  induction pairs with
  | nil => rfl
  | cons p rest ih =>
    rw [brokenPair?, List.findSome?_cons, ih]
    cases brokenOutput? d p <;> rfl

theorem brokenPair?_eq_none_iff {pairs : List (Nat × Nat)} :
    brokenPair? d pairs = none ↔ ∀ p ∈ pairs, ∀ output, ¬Parts d output p := by
  simp only [brokenPair?_eq, List.findSome?_eq_none_iff, Option.map_eq_none_iff,
    brokenOutput?_eq_none_iff]

/-- The search goes through the pairs in the order of their declaration. -/
theorem brokenPair?_eq_some_iff {pairs : List (Nat × Nat)} {output : String} {i o : Nat} :
    brokenPair? d pairs = some (i, o, output) ↔ ∃ before rest, pairs = before ++ (i, o) :: rest ∧
      Parts d output (i, o) ∧ ∀ p ∈ before, ∀ output, ¬Parts d output p := by
  simp only [brokenPair?_eq, List.findSome?_eq_some_iff, Option.map_eq_none_iff,
    brokenOutput?_eq_none_iff, Option.map_eq_some_iff, brokenOutput?_eq_some_iff]
  constructor
  · rintro ⟨before, ⟨i', o'⟩, rest, hsplit, ⟨output', hparts, heq⟩, hbefore⟩
    obtain ⟨rfl, rfl, rfl⟩ : i' = i ∧ o' = o ∧ output' = output := by simpa using heq
    exact ⟨before, rest, hsplit, hparts, hbefore⟩
  · rintro ⟨before, rest, hsplit, hparts, hbefore⟩
    exact ⟨before, (i, o), rest, hsplit, ⟨output, hparts, rfl⟩, hbefore⟩

/-! ## The verdict -/

/-- The numbers of inputs and outputs lie within their bounds. -/
structure Counts (s : Schema) (d : OperatorDef) : Prop where
  inputs : s.inputs.lo ≤ d.inputs.length ∧ d.inputs.length ≤ s.inputs.hi
  outputs : s.outputs.lo ≤ d.outputs.length ∧ d.outputs.length ≤ s.outputs.hi

/-- The fault that a definition is refused with: it tells the first rule that the definition
breaks. -/
inductive FirstViolation (s : Schema) (d : OperatorDef) : Fault → Prop
  | inputCount (h : ¬(s.inputs.lo ≤ d.inputs.length ∧ d.inputs.length ≤ s.inputs.hi)) :
      FirstViolation s d
        (.arity s.opType "input" d.inputs.length s.inputs.lo s.inputs.hi)
  | outputCount (hinputs : s.inputs.lo ≤ d.inputs.length ∧ d.inputs.length ≤ s.inputs.hi)
      (h : ¬(s.outputs.lo ≤ d.outputs.length ∧ d.outputs.length ≤ s.outputs.hi)) :
      FirstViolation s d
        (.arity s.opType "output" d.outputs.length s.outputs.lo s.outputs.hi)
  | stray {blob : String} {i o : Nat} (hcounts : s.Counts d) (h : s.FirstStray d blob i o) :
      FirstViolation s d (.inPlace s.opType i o blob "may not be computed in place")
  | broken {before rest : List (Nat × Nat)} {output : String} {i o : Nat} (hcounts : s.Counts d)
      (hstray : ∀ blob i o, ¬s.Strays d blob i o) (hsplit : s.enforced = before ++ (i, o) :: rest)
      (h : Parts d output (i, o)) (hbefore : ∀ p ∈ before, ∀ output, ¬Parts d output p) :
      FirstViolation s d (.inPlace s.opType i o output "must be computed in place")

theorem accepts_iff : s.Accepts d ↔ s.Counts d ∧ (∀ blob i o, ¬s.Strays d blob i o) ∧
    ∀ p ∈ s.enforced, ∀ output, ¬Parts d output p := by
  constructor
  · intro h
    refine ⟨⟨h.inputs, h.outputs⟩, fun blob i o hstrays => ?_, ?_⟩
    · exact (h.shared i o blob hstrays.input hstrays.output).elim hstrays.notAllowed
        hstrays.notEnforced
    · rintro ⟨i, o⟩ hmem output ⟨input, hi, ho, hne⟩
      exact hne (h.enforced i o input output hmem hi ho)
  · rintro ⟨hcounts, hstrays, hparts⟩
    refine ⟨hcounts.inputs, hcounts.outputs, fun i o blob hi ho => ?_,
      fun i o input output hmem hi ho => ?_⟩
    · refine Decidable.or_iff_not_imp_left.2 fun hallowed => ?_
      exact Decidable.not_not.1 fun henforced => hstrays blob i o ⟨hi, ho, hallowed, henforced⟩
    · exact Decidable.not_not.1 fun hne => hparts (i, o) hmem output ⟨input, hi, ho, hne⟩

theorem accepts_or_exists_firstViolation (s : Schema) (d : OperatorDef) :
    s.Accepts d ∨ ∃ cause, s.FirstViolation d cause := by
  by_cases hinputs : s.inputs.lo ≤ d.inputs.length ∧ d.inputs.length ≤ s.inputs.hi
  case neg => exact .inr ⟨_, .inputCount hinputs⟩
  by_cases houtputs : s.outputs.lo ≤ d.outputs.length ∧ d.outputs.length ≤ s.outputs.hi
  case neg => exact .inr ⟨_, .outputCount hinputs houtputs⟩
  have hcounts : s.Counts d := ⟨hinputs, houtputs⟩
  cases hstray : s.strayPair? d.outputs 0 d.inputs with
  | some pair => exact .inr ⟨_, .stray hcounts (strayPair?_eq_some_iff.1 hstray)⟩
  | none =>
    have hnone := strayPair?_eq_none_iff.1 hstray
    cases hbroken : brokenPair? d s.enforced with
    | some pair =>
      obtain ⟨before, rest, hsplit, hparts, hbefore⟩ := brokenPair?_eq_some_iff.1 hbroken
      exact .inr ⟨_, .broken hcounts hnone hsplit hparts hbefore⟩
    | none => exact .inl (accepts_iff.2 ⟨hcounts, hnone, brokenPair?_eq_none_iff.1 hbroken⟩)

theorem verify_of_accepts (h : s.Accepts d) : s.verify d = .ok () := by
  obtain ⟨hcounts, hstrays, hparts⟩ := accepts_iff.1 h
  rw [verify, checkCount_eq_ok_iff.2 hcounts.inputs, checkCount_eq_ok_iff.2 hcounts.outputs,
    strayPair?_eq_none_iff.2 hstrays, brokenPair?_eq_none_iff.2 hparts]
  rfl

theorem verify_of_firstViolation (h : s.FirstViolation d cause) : s.verify d = .error cause := by
  rw [verify]
  cases h with
  | inputCount h =>
    rw [checkCount_eq_error_iff.2 ⟨h, rfl⟩]
    rfl
  | outputCount hinputs h =>
    rw [checkCount_eq_ok_iff.2 hinputs, checkCount_eq_error_iff.2 ⟨h, rfl⟩]
    rfl
  | stray hcounts h =>
    rw [checkCount_eq_ok_iff.2 hcounts.inputs, checkCount_eq_ok_iff.2 hcounts.outputs,
      strayPair?_eq_some_iff.2 h]
    rfl
  | broken hcounts hstrays hsplit h hbefore =>
    rw [checkCount_eq_ok_iff.2 hcounts.inputs, checkCount_eq_ok_iff.2 hcounts.outputs,
      strayPair?_eq_none_iff.2 hstrays, brokenPair?_eq_some_iff.2 ⟨_, _, hsplit, h, hbefore⟩]
    rfl

/-- **A schema accepts the definitions that keep its rules, and of any other it tells the rule that
is broken first.** -/
theorem verify_accepts_or_reports (s : Schema) (d : OperatorDef) :
    (s.verify d = .ok () ↔ s.Accepts d) ∧
      ∀ cause, s.verify d = .error cause ↔ s.FirstViolation d cause := by
  have hcases := s.accepts_or_exists_firstViolation d
  refine ⟨⟨fun hok => ?_, verify_of_accepts⟩,
    fun cause => ⟨fun herror => ?_, verify_of_firstViolation⟩⟩
  · rcases hcases with haccepts | ⟨cause, hviolation⟩
    · exact haccepts
    · exact nomatch hok.symm.trans (verify_of_firstViolation hviolation)
  · rcases hcases with haccepts | ⟨cause', hviolation⟩
    · exact nomatch herror.symm.trans (verify_of_accepts haccepts)
    · rwa [Except.error.inj (herror.symm.trans (verify_of_firstViolation hviolation))]

/-- A pair that shares a blob without permission is told before one that has to share it. -/
example : ({ opType := "Add", enforced := [(1, 0)] } : Schema).verify
    { opType := "Add", inputs := ["x", "y"], outputs := ["x"] } =
      .error (.inPlace "Add" 0 0 "x" "may not be computed in place") := rfl

end Schema
end OpNet
