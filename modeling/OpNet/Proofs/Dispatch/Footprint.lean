import OpNet.Proofs.Dispatch.Fallback

/-!
# What dispatch does to a workspace

Every attempt to build an operator creates the outputs of the definition before the factory is
asked, and it may decline. Still the workspace ends up in one of two states: as it was, or with all
the outputs.

* `Fault.isViolation` — the faults by which a schema refuses a definition.
* `Registry.Footprint` — what is in the workspace after a dispatch, by the way in which it ended.
* `Registry.footprint_createOperator` — every dispatch is of this kind.
-/

set_option autoImplicit false

namespace OpNet

variable {σ : Type}

/-! ## Refusals by a schema -/

/-- Whether a fault says that a definition breaks a schema. -/
def Fault.isViolation : Fault → Bool
  | .arity .. | .inPlace .. => true
  | _ => false

namespace Schema

variable {s : Schema} {cause : Fault}

theorem isViolation_of_checkCount {what : String} {got : Nat} {b : Bounds}
    (h : s.checkCount what got b = .error cause) : cause.isViolation := by
  rw [checkCount] at h
  split at h
  · cases h
  · cases h
    rfl

theorem isViolation_of_blame {reason : String} {pair? : Option (Nat × Nat × String)}
    (h : s.blame reason pair? = .error cause) : cause.isViolation := by
  cases pair? with
  | none => cases h
  | some pair =>
    cases h
    rfl

/-- A schema refuses a definition with a fault that says so. -/
theorem isViolation_of_verify {d : OperatorDef} (h : s.verify d = .error cause) :
    cause.isViolation := by
  rw [verify] at h
  cases hin : s.checkCount "input" d.inputs.length s.inputs with
  | error cause' =>
    rw [hin] at h
    obtain rfl := Except.error.inj h
    exact isViolation_of_checkCount hin
  | ok =>
    rw [hin] at h
    cases hout : s.checkCount "output" d.outputs.length s.outputs with
    | error cause' =>
      rw [hout] at h
      obtain rfl := Except.error.inj h
      exact isViolation_of_checkCount hout
    | ok =>
      rw [hout] at h
      cases hstray : s.blame strayReason (s.strayPair? d.outputs 0 d.inputs) with
      | error cause' =>
        rw [hstray] at h
        obtain rfl := Except.error.inj h
        exact isViolation_of_blame hstray
      | ok =>
        rw [hstray] at h
        exact isViolation_of_blame h

end Schema

namespace Registry

variable {r : Registry σ} {s : Store} {ws : String} {d : OperatorDef}

theorem isViolation_of_verify {cause : Fault} (h : r.verify d = .error cause) :
    cause.isViolation := by
  rw [verify] at h
  cases hs : r.schema? d.opType with
  | none =>
    rw [hs] at h
    cases h
  | some schema =>
    rw [hs] at h
    exact schema.isViolation_of_verify h

/-! ## The footprint -/

/-- There is a factory to ask: that of an engine that is tried, or the default one. -/
def Offers (r : Registry σ) (d : OperatorDef) : Prop :=
  (∃ engine ∈ r.candidates d, ∃ f, r.lookup d.opType d.device engine = some f) ∨
    ∃ f, r.lookupDefault d.opType d.device = some f

theorem routes_ne_nil_iff : r.routes d ≠ [] ↔ r.Offers d := by
  have hnamed : r.engineRoutes d ≠ [] ↔
      ∃ engine ∈ r.candidates d, ∃ f, r.lookup d.opType d.device engine = some f := by
    rw [engineRoutes, Ne, List.filterMap_eq_nil_iff]
    simp [Option.eq_none_iff_forall_ne_some]
  have hdefault : ((r.lookupDefault d.opType d.device).map (Route.mk none)).toList ≠ [] ↔
      ∃ f, r.lookupDefault d.opType d.device = some f := by
    cases r.lookupDefault d.opType d.device <;> simp
  change r.engineRoutes d ++ _ ≠ [] ↔ _
  rw [Ne, List.append_eq_nil_iff, not_and_or, Offers, ← hnamed, ← hdefault]

/-- Where factories were called, a fault says that none of them is left or that one has failed. -/
theorem FirstSuccess.fault_cases {b : Binding} {engines : List String}
    {named called : List (Route σ)} {default? : Option (Factory σ)} {cause : Fault}
    (h : FirstSuccess d b engines named default? called (.error (.fault cause))) :
    (∃ engine source, cause = .construction d.opType engine source) ∨
      cause = .notRegistered d.opType d.device (EngineList.join engines) := by
  have hends {route : Route σ} (h : route.Ends d b (.error (.fault cause))) :
      ∃ engine source, cause = .construction d.opType engine source := by
    cases h with
    | failed => exact ⟨_, _, rfl⟩
    | declined => exact ⟨_, _, rfl⟩
  cases h with
  | engine _ _ _ h => exact .inl (hends h)
  | fallback _ _ h => exact .inl (hends h)
  | exhausted => exact .inr rfl

/-- What a dispatch has done to the workspace, and which factories it has called, by the way in
which it has ended. -/
structure Footprint (r : Registry σ) (s : Store) (ws : String) (d : OperatorDef)
    (result : Dispatch σ) : Prop where
  keeps : s.Keeps result.store
  /-- Either all outputs were added or none. -/
  all_or_none : result.store = s ∨ s.Adds result.store ws d.outputs
  rejected : ∀ cause, result.outcome = .error (.fault cause) → cause.isViolation →
    result.store = s ∧ result.calls = []
  /-- An input is reported only if there is a factory that would have been asked. -/
  missing_iff : ∀ name, result.outcome = .error (.fault (.blobNotFound name)) ↔
    (∀ schema, r.schema? d.opType = some schema → schema.verify d = .ok ()) ∧ r.Offers d ∧
      d.inputs.find? (fun name => !s.has ws name) = some name
  missing : ∀ name, result.outcome = .error (.fault (.blobNotFound name)) →
    result.store = s ∧ result.calls = []
  unrouted : ¬r.Offers d → result.store = s ∧ result.calls = []
  /-- In all other cases the outputs are there, whatever the factories have answered. -/
  otherwise : r.Offers d → (∀ cause, result.outcome = .error (.fault cause) →
    cause.isViolation = false ∧ ∀ name, cause ≠ .blobNotFound name) →
      s.Adds result.store ws d.outputs

section Footprint

variable {result : Dispatch σ}

/-- Every dispatch adds the outputs of its definition or nothing. -/
theorem Dispatches.all_or_none (h : r.Dispatches s ws d result) :
    result.store = s ∨ s.Adds result.store ws d.outputs := by
  cases h with
  | rejected | unrouted | unbound => exact .inl rfl
  | called => exact .inr (s.adds_createAll ws d.outputs)

theorem Dispatches.keeps (h : r.Dispatches s ws d result) : s.Keeps result.store := by
  rcases h.all_or_none with heq | hadds
  · rw [heq]
    exact .refl s
  · exact hadds.keeps

/-- A dispatch that has built something has added the outputs. -/
theorem Dispatches.adds_of_ok (h : r.Dispatches s ws d result) {op : Operator σ}
    (hok : result.outcome = .ok op) : s.Adds result.store ws d.outputs := by
  cases h with
  | rejected | unrouted | unbound => cases hok
  | called => exact s.adds_createAll ws d.outputs

/-- An input is reported as missing by the search for it, and by nothing else. -/
theorem Dispatches.missing_iff (h : r.Dispatches s ws d result) (name : String) :
    result.outcome = .error (.fault (.blobNotFound name)) ↔
      r.verify d = .ok () ∧ r.routes d ≠ [] ∧
        d.inputs.find? (fun name => !s.has ws name) = some name := by
  cases h with
  | @rejected cause h =>
    refine ⟨fun hout => ?_, fun hok => ?_⟩
    · have hcause := isViolation_of_verify h
      cases hout
      cases hcause
    · rw [hok.1] at h
      cases h
  | unrouted hverify hroutes => exact ⟨nofun, fun h => absurd hroutes h.2.1⟩
  | @unbound name' hverify hroutes hmissing =>
    rw [hmissing]
    refine ⟨fun hout => ?_, fun h => by rw [Option.some.inj h.2.2]⟩
    cases hout
    exact ⟨hverify, hroutes, rfl⟩
  | called hverify hroutes hinputs hfresh hbound hfirst =>
    rw [Store.find?_missing_eq_none_iff.2 hinputs]
    refine ⟨fun hout => ?_, nofun⟩
    obtain rfl := hout
    rcases hfirst.fault_cases with ⟨engine, source, h⟩ | h <;> cases h

/-- **The footprint of a dispatch.** Whatever comes of it, a dispatch changes no blob that is there
and adds the outputs of its definition or nothing. It adds nothing and calls no factory if the
schema refuses the definition, if there is no factory, or if an input is missing. -/
theorem footprint_createOperator (r : Registry σ) (s : Store) (ws : String) (d : OperatorDef) :
    r.Footprint s ws d (r.createOperator s ws d) := by
  have h := r.dispatches s ws d
  refine ⟨h.keeps, h.all_or_none, ?rejected, fun name => ?missing_iff, fun name hout => ?missing,
    fun hnone => ?unrouted, fun hoffers hother => ?otherwise⟩
  case missing_iff => rw [h.missing_iff, verify_eq_ok_iff, routes_ne_nil_iff]
  all_goals generalize r.createOperator s ws d = result at *
  case rejected =>
    intro cause hout hcause
    cases h with
    | rejected | unrouted | unbound => exact ⟨rfl, rfl⟩
    | called _ _ _ _ _ hfirst =>
      obtain rfl := hout
      rcases hfirst.fault_cases with ⟨engine, source, rfl⟩ | rfl <;> cases hcause
  case missing =>
    cases h with
    | rejected | unrouted | unbound => exact ⟨rfl, rfl⟩
    | called _ _ _ _ _ hfirst =>
      obtain rfl := hout
      rcases hfirst.fault_cases with ⟨engine, source, h⟩ | h <;> cases h
  case unrouted =>
    cases h with
    | rejected | unrouted | unbound => exact ⟨rfl, rfl⟩
    | called _ hroutes => exact absurd (routes_ne_nil_iff.1 hroutes) hnone
  case otherwise =>
    cases h with
    | rejected h =>
      have hcause := isViolation_of_verify h
      rw [(hother _ rfl).1] at hcause
      cases hcause
    | unrouted _ hroutes => exact absurd hroutes (routes_ne_nil_iff.2 hoffers)
    | @unbound name => exact absurd rfl ((hother _ rfl).2 name)
    | called => exact s.adds_createAll ws d.outputs

end Footprint

end Registry
end OpNet
