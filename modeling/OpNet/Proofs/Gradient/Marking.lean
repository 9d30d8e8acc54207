import OpNet.Proofs.Gradient.Calls

/-!
# The marks that a maker leaves

Some calls of a maker mark the gradient of an input, and the others read. The same input may be
marked again, and in another way: what is left is decided by the last mark.

* `Making.Call.target?`, `Making.Call.slot?` — the input that a call marks, and what it leaves
  there.
* `Making.Reads`, `Making.Call.reads_perform`, `Making.Call.perform_of_target?` — all that a call
  does to the context, and `Making.Program.leads_of_perform` — all that a run does.
* `Gradient.Reflects`, `GradientRegistry.reflects_of_derive` — the gradients of the inputs after any
  calls of the maker.
-/

set_option autoImplicit false

namespace OpNet
namespace Making

variable {α β : Type}

/-! ## Marks -/

namespace Call

/-- The input whose gradient a call marks. -/
def target? : Call → Option Nat
  | gradInput i | gradInputSparse i | setDense i _ | setSparse i _ _ => some i
  | forward | input _ | output _ | hasGradOutput _ | gradOutput _ | gradOutputIndices _
  | gradOutputValues _ => none

/-- How a call leaves the gradient of the input that it marks: a dense name without a sparse pair,
or a sparse pair without a dense name. -/
def slot? (d : OperatorDef) : Call → Option GradientSlot
  | gradInput i => d.inputs[i]?.map fun name =>
      { dense := gradientName name, indices := "", values := "" }
  | gradInputSparse i => d.inputs[i]?.map fun name =>
      { dense := "", indices := gradientIndicesName name, values := gradientValuesName name }
  | setDense _ dense => some { dense, indices := "", values := "" }
  | setSparse _ indices values => some { dense := "", indices, values }
  | forward | input _ | output _ | hasGradOutput _ | gradOutput _ | gradOutputIndices _
  | gradOutputValues _ => none

/-- What a call leaves of the gradients of the inputs. -/
def leave (d : OperatorDef) (inputs : List GradientSlot) (c : Call) : List GradientSlot :=
  match c.target?, c.slot? d with
  | some i, some g => inputs.set i g
  | _, _ => inputs

end Call

/-! ## What a call does -/

section Calls

variable {cx cx' cx'' : GradientContext} {c : Call} {i : Nat}

theorem bind_eq_ok_iff {m : Making α} {f : α → Making β} {b : β} :
    (m >>= f) cx = .ok (b, cx'') ↔ ∃ a cx', m cx = .ok (a, cx') ∧ f a cx' = .ok (b, cx'') := by
  change (m cx).bind (fun p => f p.1 p.2) = _ ↔ _
  constructor
  · intro h
    cases hm : m cx with
    | ok p =>
      rw [hm] at h
      exact ⟨p.1, p.2, rfl, h⟩
    | error stop =>
      rw [hm] at h
      cases h
  · rintro ⟨a, cx', hm, hf⟩
    rw [hm]
    exact hf

/-- The computation leaves the context as it is. -/
def Reads (m : Making α) : Prop := ∀ cx a cx', m cx = .ok (a, cx') → cx' = cx

theorem reads_pure (a : α) : Reads (pure a : Making α) := by
  intro cx b cx' h
  cases h
  rfl

theorem reads_get : Reads (get : Making GradientContext) := by
  intro cx b cx' h
  cases h
  rfl

theorem reads_throw (stop : Stop) : Reads (throw stop : Making α) := by
  intro cx b cx' h
  cases h

theorem monadLift_nth_eq_ok_iff {xs : List α} {a : α} :
    (nth xs i : Making α) cx = .ok (a, cx') ↔ xs[i]? = some a ∧ cx' = cx := by
  change (nth xs i).bind (fun a => .ok (a, cx)) = _ ↔ _
  rw [← nth_eq_ok_iff]
  constructor
  · intro h
    cases hnth : nth xs i with
    | ok b =>
      rw [hnth] at h
      cases h
      exact ⟨rfl, rfl⟩
    | error stop =>
      rw [hnth] at h
      cases h
  · rintro ⟨hnth, rfl⟩
    rw [hnth]
    rfl

theorem reads_nth (xs : List α) (i : Nat) : Reads (nth xs i : Making α) :=
  fun _ _ _ h => (monadLift_nth_eq_ok_iff.1 h).2

theorem Reads.bind {m : Making α} {f : α → Making β} (hm : Reads m) (hf : ∀ a, Reads (f a)) :
    Reads (m >>= f) := by
  intro cx b cx'' h
  obtain ⟨a, cx', ha, hb⟩ := bind_eq_ok_iff.1 h
  rw [hf a cx' b cx'' hb, hm cx a cx' ha]

theorem Reads.attempt {m : Making α} (hm : Reads m) : Reads (attempt m) := by
  intro cx b cx' h
  rw [Making.attempt] at h
  split at h
  · next a cx'' ha =>
    cases h
    exact hm cx a _ ha
  · cases h
    rfl
  · cases h

theorem reads_slot (k : Nat) : Reads (slot k) := reads_get.bind fun cx => reads_nth cx.outputs k

theorem reads_reject (text : String) : Reads (reject text : Making α) :=
  reads_get.bind fun _ => reads_throw _

theorem reads_gradOutput (k : Nat) : Reads (gradOutput k) := by
  refine (reads_slot k).bind fun g => ?_
  split
  · exact reads_pure _
  · exact reads_reject _

theorem reads_sparseOutput (k : Nat) : Reads (sparseOutput k) := by
  refine (reads_slot k).bind fun g => ?_
  split
  · exact reads_pure _
  · exact reads_reject _

/-- The calls without a target read. -/
theorem Call.reads_perform (h : c.target? = none) : Reads c.perform := by
  cases c with
  | forward => exact reads_get.bind fun _ => reads_pure _
  | input i => exact reads_get.bind fun cx => reads_nth cx.forward.inputs i
  | output k => exact reads_get.bind fun cx => reads_nth cx.forward.outputs k
  | hasGradOutput k => exact (reads_slot k).bind fun _ => reads_pure _
  | gradOutput k => exact (reads_gradOutput k).attempt
  | gradOutputIndices k => exact ((reads_sparseOutput k).bind fun _ => reads_pure _).attempt
  | gradOutputValues k => exact ((reads_sparseOutput k).bind fun _ => reads_pure _).attempt
  | _ => cases h

/-- An input can be marked if it exists. -/
theorem mark_eq_ok_iff {g : GradientSlot} {u : Unit} : mark i g cx = .ok (u, cx') ↔
    i < cx.inputs.length ∧ cx' = { cx with inputs := cx.inputs.set i g } := by
  constructor
  · intro h
    obtain ⟨_, _, hget, h⟩ := bind_eq_ok_iff.1 h
    obtain ⟨old, _, hold, hset⟩ := bind_eq_ok_iff.1 h
    cases hget
    obtain ⟨hi, rfl⟩ := monadLift_nth_eq_ok_iff.1 hold
    cases hset
    exact ⟨(List.getElem?_eq_some_iff.1 hi).1, rfl⟩
  · rintro ⟨hi, rfl⟩
    have hold := List.getElem?_eq_getElem hi
    exact bind_eq_ok_iff.2 ⟨cx, cx, rfl,
      bind_eq_ok_iff.2 ⟨_, cx, monadLift_nth_eq_ok_iff.2 ⟨hold, rfl⟩, rfl⟩⟩

/-- An input can be marked by its name if it exists and has a name. -/
theorem markNamed_eq_ok_iff {slotOf : String → GradientSlot} {answerOf : String → α} {answer : α} :
    (do let name ← input i; mark i (slotOf name); return answerOf name : Making α) cx =
      .ok (answer, cx') ↔ i < cx.inputs.length ∧ ∃ name, cx.forward.inputs[i]? = some name ∧
        answer = answerOf name ∧ cx' = { cx with inputs := cx.inputs.set i (slotOf name) } := by
  constructor
  · intro h
    obtain ⟨name, mid, hinput, hrest⟩ := bind_eq_ok_iff.1 h
    obtain ⟨_, _, hget, hnth⟩ := bind_eq_ok_iff.1 hinput
    cases hget
    obtain ⟨hname, rfl⟩ := monadLift_nth_eq_ok_iff.1 hnth
    obtain ⟨_, _, hmark, hpure⟩ := bind_eq_ok_iff.1 hrest
    obtain ⟨hi, rfl⟩ := mark_eq_ok_iff.1 hmark
    cases hpure
    exact ⟨hi, name, hname, rfl, rfl⟩
  · rintro ⟨hi, name, hname, rfl, rfl⟩
    have hinput : input i cx = .ok (name, cx) :=
      bind_eq_ok_iff.2 ⟨cx, cx, rfl, monadLift_nth_eq_ok_iff.2 ⟨hname, rfl⟩⟩
    exact bind_eq_ok_iff.2 ⟨name, cx, hinput,
      bind_eq_ok_iff.2 ⟨(), _, mark_eq_ok_iff.2 ⟨hi, rfl⟩, rfl⟩⟩

/-- **A call with a target marks it**, and changes nothing else. -/
theorem Call.perform_of_target? {answer : c.Answer} (htarget : c.target? = some i)
    (h : c.perform cx = .ok (answer, cx')) : i < cx.inputs.length ∧
      ∃ g, c.slot? cx.forward = some g ∧ cx' = { cx with inputs := cx.inputs.set i g } := by
  cases c with
  | gradInput j | gradInputSparse j =>
    obtain rfl := Option.some.inj htarget
    obtain ⟨hi, name, hname, -, rfl⟩ := markNamed_eq_ok_iff.1 h
    exact ⟨hi, _, by rw [slot?, hname]; rfl, rfl⟩
  | setDense | setSparse =>
    obtain rfl := Option.some.inj htarget
    obtain ⟨hi, rfl⟩ := mark_eq_ok_iff.1 h
    exact ⟨hi, _, rfl, rfl⟩
  | _ => cases htarget

end Calls

/-! ## What a run does -/

section Runs

variable {cx cx' cx'' : GradientContext} {c : Call} {d : OperatorDef} {calls : List Call}

/-- The calls lead from one context to another: they mark the gradients of inputs that exist, and
nothing else has changed. -/
structure Leads (cx : GradientContext) (calls : List Call) (cx' : GradientContext) : Prop where
  valid : ∀ c ∈ calls, ∀ i, c.target? = some i → i < cx.inputs.length
  eq : cx' = { cx with inputs := calls.foldl (Call.leave cx.forward) cx.inputs }

theorem Call.length_leave (d : OperatorDef) (inputs : List GradientSlot) (c : Call) :
    (c.leave d inputs).length = inputs.length := by
  rw [leave]
  split
  · exact List.length_set
  · rfl

/-- A call leads from the context before it to the one after it. -/
theorem Call.leads_of_perform {answer : c.Answer} (h : c.perform cx = .ok (answer, cx')) :
    Leads cx [c] cx' := by
  cases htarget : c.target? with
  | none =>
    obtain rfl := Call.reads_perform htarget cx answer cx' h
    refine ⟨fun c' hc' i hi => ?_, ?_⟩
    · obtain rfl := List.mem_singleton.1 hc'
      rw [htarget] at hi
      cases hi
    · rw [List.foldl_cons, List.foldl_nil, Call.leave, htarget]
  | some i =>
    obtain ⟨hi, g, hslot, rfl⟩ := Call.perform_of_target? htarget h
    refine ⟨fun c' hc' j hj => ?_, ?_⟩
    · obtain rfl := List.mem_singleton.1 hc'
      rwa [← Option.some.inj (htarget.symm.trans hj)]
    · rw [List.foldl_cons, List.foldl_nil, Call.leave, htarget, hslot]

theorem Leads.cons (h : Leads cx [c] cx') (h' : Leads cx' calls cx'') :
    Leads cx (c :: calls) cx'' := by
  obtain ⟨hvalid, rfl⟩ := h
  obtain ⟨hvalid', rfl⟩ := h'
  refine ⟨List.forall_mem_cons.2 ⟨hvalid c List.mem_cons_self, fun c' hc' i hi => ?_⟩, rfl⟩
  have hlt := hvalid' c' hc' i hi
  rwa [List.foldl_cons, List.foldl_nil, Call.length_leave] at hlt

/-- **A run is its calls**: whatever a maker does between them, they alone change the context. -/
theorem Program.leads_of_perform {p : Program α} {a : α} (h : p.perform cx = .ok (a, cx')) :
    Leads cx (p.calls cx) cx' := by
  induction p generalizing cx with
  | done b =>
    cases h
    exact ⟨fun c hc => absurd hc List.not_mem_nil, rfl⟩
  | halt stop => cases h
  | call c next ih =>
    obtain ⟨answer, mid, hc, hnext⟩ := bind_eq_ok_iff.1 h
    rw [calls, hc]
    exact (Call.leads_of_perform hc).cons (ih answer hnext)

/-- What no call has marked is as it was. -/
theorem getElem?_foldl_leave (d : OperatorDef) (inputs : List GradientSlot) {i : Nat}
    (h : ∀ c ∈ calls, c.target? ≠ some i) :
    (calls.foldl (Call.leave d) inputs)[i]? = inputs[i]? := by
  induction calls generalizing inputs with
  | nil => rfl
  | cons c calls ih =>
    obtain ⟨hc, hcalls⟩ := List.forall_mem_cons.1 h
    rw [List.foldl_cons, ih _ hcalls, Call.leave]
    split
    · next j g htarget hslot =>
      refine List.getElem?_set_ne ?_
      rintro rfl
      exact hc htarget
    · rfl

theorem length_foldl_leave (d : OperatorDef) (inputs : List GradientSlot) (calls : List Call) :
    (calls.foldl (Call.leave d) inputs).length = inputs.length := by
  induction calls generalizing inputs with
  | nil => rfl
  | cons c calls ih => rw [List.foldl_cons, ih, Call.length_leave]

/-- What a call leaves where it marks. -/
theorem Call.getElem?_leave {inputs : List GradientSlot} {i : Nat} (htarget : c.target? = some i)
    (hi : i < inputs.length) (hlength : inputs.length = d.inputs.length) :
    (c.leave d inputs)[i]? = c.slot? d := by
  have hslot : ∃ g, c.slot? d = some g := by
    rw [hlength] at hi
    cases c with
    | gradInput j | gradInputSparse j =>
      obtain rfl := Option.some.inj htarget
      exact ⟨_, by rw [slot?, List.getElem?_eq_getElem hi]; rfl⟩
    | setDense | setSparse => exact ⟨_, rfl⟩
    | _ => cases htarget
  obtain ⟨g, hslot⟩ := hslot
  rw [leave, htarget, hslot]
  exact List.getElem?_set_self hi

end Runs

end Making

/-! ## One kind of gradient -/

/-- Nothing is left of a dense name where there is a sparse pair, and the other way round. -/
def GradientSlot.OfOneKind (g : GradientSlot) : Prop :=
  g.dense = "" ∨ (g.indices = "" ∧ g.values = "")

theorem GradientSlot.OfOneKind.not_both {g : GradientSlot} (h : g.OfOneKind) :
    ¬(g.isDense ∧ g.isSparse) := by
  rintro ⟨hdense, hsparse⟩
  rcases h with h | ⟨h, -⟩
  · simp [isDense, h] at hdense
  · simp [isSparse, h] at hsparse

namespace Making

variable {d : OperatorDef} {c : Call} {inputs : List GradientSlot}

theorem Call.ofOneKind_of_slot? {g : GradientSlot} (h : c.slot? d = some g) : g.OfOneKind := by
  cases c with
  | gradInput j =>
    obtain ⟨name, -, rfl⟩ := Option.map_eq_some_iff.1 h
    exact .inr ⟨rfl, rfl⟩
  | gradInputSparse j =>
    obtain ⟨name, -, rfl⟩ := Option.map_eq_some_iff.1 h
    exact .inl rfl
  | setDense j dense =>
    obtain rfl := Option.some.inj h
    exact .inr ⟨rfl, rfl⟩
  | setSparse j indices values =>
    obtain rfl := Option.some.inj h
    exact .inl rfl
  | _ => cases h

theorem Call.ofOneKind_leave (h : ∀ g ∈ inputs, g.OfOneKind) :
    ∀ g ∈ c.leave d inputs, g.OfOneKind := by
  intro g hg
  rw [leave] at hg
  split at hg
  · next hslot =>
    rcases List.mem_or_eq_of_mem_set hg with hg | rfl
    · exact h g hg
    · exact ofOneKind_of_slot? hslot
  · exact h g hg

theorem ofOneKind_foldl_leave (h : ∀ g ∈ inputs, g.OfOneKind) (calls : List Call) :
    ∀ g ∈ calls.foldl (Call.leave d) inputs, g.OfOneKind := by
  induction calls generalizing inputs with
  | nil => exact h
  | cons c calls ih => exact ih (Call.ofOneKind_leave h)

end Making

/-! ## What a derivation leaves -/

/-- The gradients of the inputs of a definition, as the calls of a maker have marked them. -/
structure Gradient.Reflects (g : Gradient) (d : OperatorDef) (calls : List Making.Call) :
    Prop where
  /-- There is one for each input. -/
  length_eq : g.inputs.length = d.inputs.length
  /-- Only inputs that exist were marked. -/
  valid : ∀ c ∈ calls, ∀ i, c.target? = some i → i < d.inputs.length
  /-- The last call that marks an input decides. -/
  last : ∀ before c after i, calls = before ++ c :: after → c.target? = some i →
    (∀ c' ∈ after, c'.target? ≠ some i) → g.inputs[i]? = c.slot? d
  /-- An input that no call marks has no gradient. -/
  never : ∀ i < d.inputs.length, (∀ c ∈ calls, c.target? ≠ some i) →
    g.inputs[i]? = some { dense := "", indices := "", values := "" }
  /-- Nothing is left of an earlier mark of the other kind. -/
  ofOneKind : ∀ slot ∈ g.inputs, slot.dense = "" ∨ (slot.indices = "" ∧ slot.values = "")
  /-- So no gradient is both dense and sparse. -/
  not_both : ∀ slot ∈ g.inputs, ¬(slot.isDense ∧ slot.isSparse)

theorem Making.Leads.reflects {d : OperatorDef} {outputs : List GradientSlot} {calls : List Call}
    {cx : GradientContext} (h : Leads (.init d outputs) calls cx) (ops : List OperatorDef) :
    ({ ops, inputs := cx.inputs } : Gradient).Reflects d calls := by
  obtain ⟨hvalid, rfl⟩ := h
  have hlength : (GradientContext.init d outputs).inputs.length = d.inputs.length :=
    List.length_map _
  have hempty : ∀ g ∈ (GradientContext.init d outputs).inputs, g.OfOneKind := by
    intro g hg
    obtain ⟨_, -, rfl⟩ := List.mem_map.1 hg
    exact .inl rfl
  have honeKind := ofOneKind_foldl_leave (d := d) hempty calls
  refine ⟨(length_foldl_leave ..).trans hlength, fun c hc i hi => hlength ▸ hvalid c hc i hi,
    fun before c after i hsplit htarget hafter => ?_, fun i hi hnever => ?_, honeKind,
    fun slot hslot => (honeKind slot hslot).not_both⟩
  · subst hsplit
    have hi := hvalid c (List.mem_append_right _ List.mem_cons_self) i htarget
    have hbefore := length_foldl_leave d (GradientContext.init d outputs).inputs before
    dsimp only
    rw [List.foldl_append, List.foldl_cons]
    refine (getElem?_foldl_leave d _ hafter).trans (Call.getElem?_leave htarget ?_ ?_)
    · rwa [← hbefore] at hi
    · exact hbefore.trans hlength
  · refine (getElem?_foldl_leave d _ hnever).trans ?_
    rw [GradientContext.init, List.getElem?_map, List.getElem?_eq_getElem hi]
    rfl

/-- The calls that an entry makes for a definition, if its maker is a tree of calls. An entry that
says that there is no gradient makes none. -/
inductive GradientEntry.Makes (d : OperatorDef) (outputs : List GradientSlot) :
    GradientEntry → List Making.Call → Prop
  | maker {m : GradientMaker} (p : Making.Program (List OperatorDef)) (h : p.perform = m.generate) :
      Makes d outputs (.maker m) (p.calls (.init d outputs))
  | noGradient : Makes d outputs .noGradient []

/-- **The last mark of an input decides.** Whatever calls a maker makes, in whatever order and
mixed with whatever reads: if a gradient is derived then it has one entry for each input, which is
what the last call that marked the input has left there, and empty if no call has. -/
theorem GradientRegistry.reflects_of_derive {r : GradientRegistry} {d : OperatorDef}
    {outputs : List GradientSlot} {e : GradientEntry} {calls : List Making.Call} {g : Gradient}
    (he : r.known? d.opType = some e) (hcalls : e.Makes d outputs calls)
    (hg : r.derive d outputs = .ok g) : g.Reflects d calls := by
  rw [derive, he] at hg
  obtain ⟨-, hrun⟩ : outputs.length = d.outputs.length ∧ run e d outputs = .ok g := by
    dsimp only at hg
    split at hg
    · next hlength => exact ⟨hlength, hg⟩
    · cases hg
  cases hcalls with
  | noGradient =>
    obtain rfl := Except.ok.inj hrun
    exact Making.Leads.reflects ⟨fun c hc => absurd hc List.not_mem_nil, rfl⟩ []
  | @maker m p hp =>
    rw [run, ← hp] at hrun
    split at hrun
    · cases hrun
    · next ops cx hperform =>
      obtain rfl := Except.ok.inj hrun
      exact (Making.Program.leads_of_perform hperform).reflects _

namespace Gather

/-- A gather with a table of weights, the rows to take, and a mask. -/
def forward : OperatorDef where
  opType := "Gather"
  inputs := ["weights", "rows", "mask"]
  outputs := ["taken"]

/-- Marks the gradient of the weights as a dense one, and marks it again as a sparse one when it is
refused the indices of the gradient of the output. The rows go the other way round, and the mask is
left alone. -/
def program : Making.Program (List OperatorDef) :=
  .call (.gradInput 0) fun _ => .call (.setSparse 1 "a" "b") fun _ =>
    .call (.gradOutputIndices 0) fun (indices : Except Fault String) =>
      match indices with
      | .ok _ => .done []
      | .error _ =>
        .call (.gradInputSparse 0) fun _ => .call (.setDense 1 "direct") fun _ => .done []

/-- The calls of the program where the gradient of the output is dense. -/
def calls : List Making.Call :=
  [.gradInput 0, .setSparse 1 "a" "b", .gradOutputIndices 0, .gradInputSparse 0,
    .setDense 1 "direct"]

/-- The maker that does what the program says. -/
def maker : GradientMaker := { generate := program.perform }

/-- The registry that knows the maker. -/
def registry : GradientRegistry := (({} : GradientRegistry).register "Gather" maker).2

/-- What the calls leave: nothing of the first marks, and no gradient of the mask. -/
def gradient : Gradient where
  inputs := [.ofSparse "weights_grad_indices" "weights_grad_values", .ofDense "direct", {}]

end Gather

open Gather in
/-- The last marks decide, whichever kind they are of. -/
theorem gather_reflects : registry.known? forward.opType = some (.maker maker) ∧
    GradientEntry.Makes forward [.ofDense "taken_grad"] (.maker maker) calls ∧
    registry.derive forward [.ofDense "taken_grad"] = .ok gradient ∧
    gradient.Reflects forward calls := by
  have hknown : registry.known? forward.opType = some (.maker maker) := rfl
  have hmakes : GradientEntry.Makes forward [.ofDense "taken_grad"] (.maker maker) calls :=
    .maker program rfl
  have hderive : registry.derive forward [.ofDense "taken_grad"] = .ok gradient := rfl
  exact ⟨hknown, hmakes, hderive, GradientRegistry.reflects_of_derive hknown hmakes hderive⟩

end OpNet
