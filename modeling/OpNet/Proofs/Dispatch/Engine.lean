import OpNet.Proofs.Dispatch.Fallback

/-!
# The engine on record

An operator that dispatch returns records the engine by which it was built, and the empty name
stands for the default implementation. A definition never asks for an engine with the empty name.
But a preference may name one, and an implementation may be registered for it, and then the record
does not tell the two apart.

* `Call.Built`, `Call.Declined` — what has come of a call of a factory.
* `EngineList.empty_not_mem_parse` — no definition asks for the empty name.
* `Registry.exists_built` — the last factory called is the one that has built the operator.
* `Registry.Records`, `Registry.exists_records` — what can be told from the record.
* `Registry.nameless_recorded_as_default` — an engine with the empty name is recorded as the default
  implementation would be.
-/

set_option autoImplicit false

namespace OpNet

variable {σ : Type}

/-- No text asks for an engine with the empty name. -/
theorem EngineList.empty_not_mem_parse (text : String) : "" ∉ parse text := by
  intro h
  obtain ⟨name, hname, hempty⟩ := List.mem_map.1 h
  obtain rfl := String.ofList_eq_empty_iff.1 hempty
  exact absurd (List.mem_filter.1 hname).2 (by decide)

namespace Call

/-- The factory was called and has built the operator. -/
structure Built (call : Call σ) (op : Operator σ) : Prop where
  attempt : call.attempt = call.route.factory call.binding
  verdict : call.attempt.verdict = .built (op.inner, op.body)

/-- The factory was called and does not support the definition. -/
def Declined (call : Call σ) : Prop :=
  ∃ reason, call.attempt.verdict = .refused (.unsupported reason)

end Call

namespace Registry

section Record

variable {r : Registry σ} {history : List (Request σ)} {s : Store} {ws : String} {d : OperatorDef}
  {op : Operator σ}

/-! ## The factory that has built an operator -/

/-- A route leads to the factory in the slot of its engine, and its engine was asked for. -/
theorem slot?_of_mem_routes {route : Route σ} (h : route ∈ r.routes d) :
    r.slot? d.opType d.device route.engine? = some route.factory ∧
      ∀ engine, route.engine? = some engine → engine ∈ r.candidates d := by
  rcases List.mem_append.1 h with h | h
  · obtain ⟨engine, hengine, hroute⟩ := List.mem_filterMap.1 h
    obtain ⟨f, hf, rfl⟩ := Option.map_eq_some_iff.1 hroute
    exact ⟨hf, fun _ heq => Option.some.inj heq ▸ hengine⟩
  · obtain ⟨f, hf, rfl⟩ := Option.map_eq_some_iff.1 (Option.mem_toList.1 h)
    exact ⟨hf, nofun⟩

/-- An empty name among the candidates is one of the preferences. -/
theorem mem_enginePreference_of_empty (h : "" ∈ r.candidates d) :
    "" ∈ r.enginePreference d.opType d.device :=
  (List.mem_append.1 (List.mem_eraseDups.1 h)).resolve_left (EngineList.empty_not_mem_parse d.engine)

theorem built_of_ends {route : Route σ} {b : Binding} (h : route.Ends d b (.ok op)) :
    (route.call b).Built op ∧ op.binding.engine = route.engine := by
  cases h with
  | built hverdict => exact ⟨⟨rfl, hverdict⟩, rfl⟩

/-- **The last factory called has built the operator**, after all the others have declined. -/
theorem exists_built (h : (r.createOperator s ws d).outcome = .ok op) :
    ∃ before call, (r.createOperator s ws d).calls = before ++ [call] ∧
      (∀ other ∈ before, other.Declined) ∧ call.Built op ∧ call.route ∈ r.routes d ∧
      op.binding.engine = call.route.engine := by
  have hways := r.dispatches s ws d
  generalize r.createOperator s ws d = result at *
  cases hways with
  | rejected | unrouted | unbound => cases h
  | @called b called outcome _ _ _ _ _ hfirst =>
    obtain rfl : outcome = .ok op := h
    have hcalls (declined : List (Route σ)) (route : Route σ)
        (hdeclined : ∀ other ∈ declined, other.Declines b) :
        (declined ++ [route]).map (Route.call · b) =
            declined.map (Route.call · b) ++ [route.call b] ∧
          ∀ other ∈ declined.map (Route.call · b), other.Declined := by
      refine ⟨by rw [List.map_append, List.map_singleton], fun other hother => ?_⟩
      obtain ⟨route', hroute', rfl⟩ := List.mem_map.1 hother
      exact hdeclined route' hroute'
    cases hfirst with
    | @engine declined later route _ hnamed hdeclined _ hends =>
      obtain ⟨heq, hothers⟩ := hcalls declined route hdeclined
      obtain ⟨hbuilt, hengine⟩ := built_of_ends hends
      refine ⟨_, _, heq, hothers, hbuilt, List.mem_append_left _ ?_, hengine⟩
      change route ∈ r.engineRoutes d
      rw [hnamed]
      exact List.mem_append_right _ List.mem_cons_self
    | @fallback f _ hdeclined hdefault hends =>
      obtain ⟨heq, hothers⟩ := hcalls _ ⟨none, f⟩ hdeclined
      obtain ⟨hbuilt, hengine⟩ := built_of_ends hends
      refine ⟨_, _, heq, hothers, hbuilt, List.mem_append_right _ ?_, hengine⟩
      rw [hdefault]
      exact List.mem_singleton_self _

/-! ## The record -/

/-- What the engine on record tells of the call that has built the operator. -/
structure Records (history : List (Request σ)) (d : OperatorDef) (op : Operator σ) (call : Call σ) :
    Prop where
  built : call.Built op
  /-- The factory is the one that was registered first, for its engine or as the default one. -/
  registered : firstFactory? history d.opType d.device call.route.engine? = some call.route.factory
  /-- A name on record is the name that the factory was registered for. -/
  named : op.binding.engine ≠ "" → call.route.engine? = some op.binding.engine
  /-- No name is on record for the default factory and for that of an engine with the empty name. -/
  unnamed_iff : op.binding.engine = "" ↔
    call.route.engine? = none ∨ call.route.engine? = some ""
  /-- Such an engine is asked for by a preference only. -/
  preferred : call.route.engine? = some "" →
    "" ∈ (ofHistory history).enginePreference d.opType d.device
  /-- Where it is not preferred or not registered, no name on record means the default factory. -/
  default_iff : ("" ∈ (ofHistory history).enginePreference d.opType d.device →
      firstFactory? history d.opType d.device (some "") = none) →
    (op.binding.engine = "" ↔ call.route.engine? = none)

/-- **The engine on record identifies the factory**, but for an engine with the empty name. -/
theorem exists_records (h : ((ofHistory history).createOperator s ws d).outcome = .ok op) :
    ∃ before call, ((ofHistory history).createOperator s ws d).calls = before ++ [call] ∧
      (∀ other ∈ before, other.Declined) ∧ Records history d op call := by
  obtain ⟨before, call, hcalls, hothers, hbuilt, hroute, hengine⟩ := exists_built h
  obtain ⟨hslot, hcandidates⟩ := slot?_of_mem_routes hroute
  rw [slot?_ofHistory] at hslot
  have hunnamed : op.binding.engine = "" ↔
      call.route.engine? = none ∨ call.route.engine? = some "" := by
    rw [hengine, Route.engine]
    cases call.route.engine? <;> simp
  have hpreferred (hempty : call.route.engine? = some "") :
      "" ∈ (ofHistory history).enginePreference d.opType d.device :=
    mem_enginePreference_of_empty (hcandidates "" hempty)
  refine ⟨before, call, hcalls, hothers, hbuilt, hslot, fun hne => ?_, hunnamed, hpreferred,
    fun hfree => ?_⟩
  · rw [hengine, Route.engine] at hne ⊢
    cases hname : call.route.engine? with
    | none => exact absurd (by rw [hname]; rfl) hne
    | some engine => rfl
  · rw [hunnamed]
    refine or_iff_left fun hempty => ?_
    rw [hempty, hfree (hpreferred hempty)] at hslot
    cases hslot

/-- The record of an operator that the third of four candidates has built. -/
theorem matMul_records : ∃ op before call,
    ((ofHistory MatMul.history).createOperator MatMul.store "" MatMul.definition).outcome = .ok op ∧
      ((ofHistory MatMul.history).createOperator MatMul.store "" MatMul.definition).calls =
        before ++ [call] ∧
      Records MatMul.history MatMul.definition op call ∧ op.binding.engine = "BLAS" ∧
      call.route.engine? = some "BLAS" := by
  have hok : ∃ op, ((ofHistory MatMul.history).createOperator MatMul.store ""
      MatMul.definition).outcome = .ok op ∧ op.binding.engine = "BLAS" := ⟨_, rfl, rfl⟩
  obtain ⟨op, hok, hengine⟩ := hok
  obtain ⟨before, call, hcalls, -, hrecords⟩ := exists_records hok
  have hname := hrecords.named (by rw [hengine]; decide)
  exact ⟨op, before, call, hok, hcalls, hrecords, hengine, hengine ▸ hname⟩

end Record

namespace Nameless

/-- A factory of operators that do nothing but know who has built them. -/
def building (builder : String) : Factory String := fun _ =>
  { verdict := .built (builder, Builtin.noOp) }

/-- A registry with a default implementation and one for an engine with the empty name, which is
preferred. -/
def history : List (Request String) :=
  [.register "Relu" .cpu none (building "default"),
    .register "Relu" .cpu (some "") (building "nameless"), .preferGlobally .cpu [""]]

/-- A definition that asks for no engine. -/
def definition : OperatorDef := { opType := "Relu" }

end Nameless

/-- An operator that an engine with the empty name has built is recorded as if the default factory
had built it. -/
theorem nameless_recorded_as_default : ∃ op call,
    ((ofHistory Nameless.history).createOperator {} "" Nameless.definition).outcome = .ok op ∧
      ((ofHistory Nameless.history).createOperator {} "" Nameless.definition).calls = [call] ∧
      call.Built op ∧ op.inner = "nameless" ∧ call.route.engine? = some "" ∧
      ¬(op.binding.engine = "" ↔ call.route.engine? = none) :=
  ⟨_, _, rfl, rfl, ⟨rfl, rfl⟩, rfl, rfl, fun h => absurd (h.1 rfl) nofun⟩

end Registry
end OpNet
