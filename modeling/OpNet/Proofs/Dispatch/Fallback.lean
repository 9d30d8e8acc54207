import Mathlib.Data.List.Nodup
import OpNet.Builtin
import OpNet.Proofs.Dispatch.Binding
import OpNet.Proofs.Registry.History

/-!
# Falling back from engine to engine

Dispatch asks the factories of the engines in the order of preference, and then the default one. It
goes on as long as they decline, and the first other answer is final, good or bad.

* `Route.Declines`, `Route.Ends` — what a factory answers to a binding, and how dispatch ends at it.
* `Registry.FirstSuccess` — which factories are called, and what dispatch answers.
* `Registry.firstSuccess_walk` — a walk does this wherever the blobs of the definition are.
* `Registry.Dispatches`, `Registry.dispatches` — all the ways of a dispatch: it is refused by the
  schema, finds no factory, misses an input, or calls some factories.
* `Registry.createOperator_firstSuccess` — so dispatch picks the first factory that does not
  decline, among those that were registered first.
-/

set_option autoImplicit false

namespace OpNet

variable {σ : Type}

/-! ## Answers of factories -/

namespace Route

/-- The call of the factory with a binding. -/
def call (route : Route σ) (b : Binding) : Call σ := ⟨route, b, route.factory b⟩

/-- The factory does not support the definition of the binding. -/
def Declines (route : Route σ) (b : Binding) : Prop :=
  ∃ reason, (route.factory b).verdict = .refused (.unsupported reason)

/-- How dispatch ends at the factory that it calls last. -/
inductive Ends (route : Route σ) (d : OperatorDef) (b : Binding) : Outcome (Operator σ) → Prop
  /-- What the factory has built is ready, and knows by which engine it was built. -/
  | built {product : σ × Body σ} (h : (route.factory b).verdict = .built product) :
      Ends route d b (.ok
        { binding := { b with engine := route.engine?.getD "", state := .ready }
          inner := product.1
          body := product.2 })
  | failed {source : Fault} (h : (route.factory b).verdict = .refused (.failed source)) :
      Ends route d b (.error (.fault (.construction d.opType (route.engine?.getD "") source)))
  | panicked {text : String} (h : (route.factory b).verdict = .panicked text) :
      Ends route d b (.error (.panic text))
  /-- There is nothing to fall back on after the default factory. -/
  | declined (hdefault : route.engine? = none) (h : route.Declines b) :
      Ends route d b (.error (.fault (.construction d.opType ""
        (.other "default implementation declined the configuration"))))

end Route

/-- What dispatch does with the factories of the engines and the default one, if there is one: which
of them it calls with a binding, and how it ends. -/
inductive Registry.FirstSuccess (d : OperatorDef) (b : Binding) (engines : List String)
    (named : List (Route σ)) (default? : Option (Factory σ)) :
    List (Route σ) → Outcome (Operator σ) → Prop
  /-- It ends at the first engine that does not decline; the later ones are not asked. -/
  | engine {declined later : List (Route σ)} {route : Route σ} {outcome : Outcome (Operator σ)}
      (hnamed : named = declined ++ route :: later)
      (hdeclined : ∀ route ∈ declined, route.Declines b) (hroute : ¬route.Declines b)
      (h : route.Ends d b outcome) :
      FirstSuccess d b engines named default? (declined ++ [route]) outcome
  /-- If all engines decline it ends at the default factory. -/
  | fallback {f : Factory σ} {outcome : Outcome (Operator σ)}
      (hdeclined : ∀ route ∈ named, route.Declines b) (hdefault : default? = some f)
      (h : (Route.mk none f).Ends d b outcome) :
      FirstSuccess d b engines named default? (named ++ [⟨none, f⟩]) outcome
  /-- Without a default factory it reports the engines. -/
  | exhausted (hdeclined : ∀ route ∈ named, route.Declines b) (hdefault : default? = none) :
      FirstSuccess d b engines named default? named
        (.error (.fault (.notRegistered d.opType d.device (EngineList.join engines))))

namespace Registry

/-! ## Walking -/

section Walk

variable {r : Registry σ} {s s' : Store} {ws : String} {d : OperatorDef} {b : Binding}
  {route : Route σ} {rest : List (Route σ)}

theorem FirstSuccess.cons {engines : List String} {named called : List (Route σ)}
    {default? : Option (Factory σ)} {outcome : Outcome (Operator σ)} (hroute : route.Declines b)
    (h : FirstSuccess d b engines named default? called outcome) :
    FirstSuccess d b engines (route :: named) default? (route :: called) outcome := by
  cases h with
  | engine hnamed hdeclined hlast h =>
    exact .engine (by rw [hnamed, List.cons_append]) (List.forall_mem_cons.2 ⟨hroute, hdeclined⟩)
      hlast h
  | fallback hdeclined hdefault h =>
    exact .fallback (List.forall_mem_cons.2 ⟨hroute, hdeclined⟩) hdefault h
  | exhausted hdeclined hdefault =>
    exact .exhausted (List.forall_mem_cons.2 ⟨hroute, hdeclined⟩) hdefault

/-- A walk goes on after an engine that declines. -/
theorem walk_declined (hbind : Binding.bind s ws d = .ok (b, s')) (hroute : route.Declines b)
    {engine : String} (hengine : route.engine? = some engine) :
    r.walk ws d s (route :: rest) = (r.walk ws d s' rest).after (route.call b) := by
  obtain ⟨reason, hverdict⟩ := hroute
  rw [walk, hbind]
  dsimp only
  rw [hverdict, hengine]
  rfl

/-- A walk ends at any other answer, and at the default factory. -/
theorem exists_walk_ends (r : Registry σ)
    (hroute : ¬route.Declines b ∨ route.engine? = none) :
    ∃ outcome, route.Ends d b outcome ∧ ∀ s ws rest, Binding.bind s ws d = .ok (b, s) →
      r.walk ws d s (route :: rest) = ⟨s, [route.call b], outcome⟩ := by
  cases hverdict : (route.factory b).verdict with
  | built product =>
    refine ⟨_, .built hverdict, fun s ws rest hbind => ?_⟩
    obtain ⟨hdef, hbound, -⟩ := Binding.bound_of_bind hbind
    rw [walk, hbind]
    dsimp only
    rw [hverdict, ← hdef, Store.createAll_eq_of_map_blob? hbound.outputs]
    rfl
  | refused refusal =>
    cases refusal with
    | unsupported reason =>
      have hdefault := hroute.resolve_left fun h => h ⟨reason, hverdict⟩
      refine ⟨_, .declined hdefault ⟨reason, hverdict⟩, fun s ws rest hbind => ?_⟩
      rw [walk, hbind]
      dsimp only
      rw [hverdict, hdefault]
      rfl
    | failed source =>
      refine ⟨_, .failed hverdict, fun s ws rest hbind => ?_⟩
      rw [walk, hbind]
      dsimp only
      rw [hverdict]
      rfl
  | panicked text =>
    refine ⟨_, .panicked hverdict, fun s ws rest hbind => ?_⟩
    rw [walk, hbind]
    dsimp only
    rw [hverdict]
    rfl

/-- **A walk ends at the first factory that does not decline**, and what it does before depends on
the binding only. -/
theorem exists_firstSuccess_walk (r : Registry σ) (d : OperatorDef) (b : Binding)
    {named : List (Route σ)} (hnamed : ∀ route ∈ named, ∃ engine, route.engine? = some engine)
    (default? : Option (Factory σ)) :
    ∃ called outcome, FirstSuccess d b (r.candidates d) named default? called outcome ∧
      ∀ s ws, Binding.bind s ws d = .ok (b, s) →
        r.walk ws d s (named ++ (default?.map (Route.mk none)).toList) =
          ⟨s, called.map (·.call b), outcome⟩ := by
  induction named with
  | nil =>
    cases default? with
    | none => exact ⟨[], _, .exhausted nofun rfl, fun s ws _ => rfl⟩
    | some f =>
      have hlast : ¬(Route.mk none f).Declines b ∨ (Route.mk none f).engine? = none := .inr rfl
      obtain ⟨outcome, hends, hwalk⟩ := r.exists_walk_ends (d := d) hlast
      exact ⟨_, outcome, .fallback nofun rfl hends, fun s ws hbind => hwalk s ws [] hbind⟩
  | cons route named ih =>
    obtain ⟨⟨engine, hengine⟩, hnamed⟩ := List.forall_mem_cons.1 hnamed
    by_cases hroute : route.Declines b
    · obtain ⟨called, outcome, hfirst, hwalk⟩ := ih hnamed
      refine ⟨route :: called, outcome, hfirst.cons hroute, fun s ws hbind => ?_⟩
      rw [List.cons_append, walk_declined hbind hroute hengine, hwalk s ws hbind]
      rfl
    · obtain ⟨outcome, hends, hwalk⟩ := r.exists_walk_ends (d := d) (.inl hroute)
      refine ⟨[] ++ [route], outcome, .engine rfl ?_ hroute hends, fun s ws hbind => ?_⟩
      · exact fun _ h => absurd h List.not_mem_nil
      · exact hwalk s ws _ hbind

/-- The first call of a walk creates the outputs, and the walk goes on as if they had been there. -/
theorem walk_eq_of_bind (hbind : Binding.bind s ws d = .ok (b, s')) :
    r.walk ws d s (route :: rest) = r.walk ws d s' (route :: rest) := by
  obtain ⟨-, hbound, -⟩ := Binding.bound_of_bind hbind
  rw [walk, walk, hbind, Binding.bind_of_bound (Binding.fresh_of_bind hbind) hbound]

end Walk

/-! ## All the ways of a dispatch -/

/-- The routes of the engines, in the order in which they are tried. -/
def engineRoutes (r : Registry σ) (d : OperatorDef) : List (Route σ) :=
  (r.candidates d).filterMap fun engine =>
    (r.lookup d.opType d.device engine).map (⟨some engine, ·⟩)

/-- The ways of a dispatch. -/
inductive Dispatches (r : Registry σ) (s : Store) (ws : String) (d : OperatorDef) :
    Dispatch σ → Prop
  | rejected {cause : Fault} (h : r.verify d = .error cause) :
      Dispatches r s ws d { store := s, outcome := .error (.fault cause) }
  | unrouted (hverify : r.verify d = .ok ()) (hroutes : r.routes d = []) :
      Dispatches r s ws d { store := s, outcome := .error (.fault (r.exhausted d)) }
  | unbound {name : String} (hverify : r.verify d = .ok ()) (hroutes : r.routes d ≠ [])
      (hmissing : d.inputs.find? (fun name => !s.has ws name) = some name) :
      Dispatches r s ws d { store := s, outcome := .error (.fault (.blobNotFound name)) }
  | called {b : Binding} {called : List (Route σ)} {outcome : Outcome (Operator σ)}
      (hverify : r.verify d = .ok ()) (hroutes : r.routes d ≠ [])
      (hinputs : ∀ name ∈ d.inputs, s.has ws name) (hfresh : b.Fresh d)
      (hbound : b.Bound (s.createAll ws d.outputs).2 ws)
      (hfirst : FirstSuccess d b (r.candidates d) (r.engineRoutes d)
        (r.lookupDefault d.opType d.device) called outcome) :
      Dispatches r s ws d
        { store := (s.createAll ws d.outputs).2, calls := called.map (·.call b), outcome }

section Dispatches

variable {r : Registry σ} {s s' : Store} {ws : String} {d : OperatorDef}

theorem verify_eq_ok_iff : r.verify d = .ok () ↔
    ∀ schema, r.schema? d.opType = some schema → schema.verify d = .ok () := by
  rw [verify]
  cases r.schema? d.opType with
  | none => exact iff_of_true rfl nofun
  | some schema => exact ⟨fun h _ heq => Option.some.inj heq ▸ h, fun h => h schema rfl⟩

theorem mem_engineRoutes {route : Route σ} (h : route ∈ r.engineRoutes d) :
    ∃ engine, route.engine? = some engine := by
  obtain ⟨engine, -, hroute⟩ := List.mem_filterMap.1 h
  obtain ⟨f, -, rfl⟩ := Option.map_eq_some_iff.1 hroute
  exact ⟨engine, rfl⟩

/-- Once there is a factory to call, what a dispatch does depends on the binding only. -/
theorem exists_createOperator_eq (hverify : r.verify d = .ok ()) (hroutes : r.routes d ≠ [])
    (b : Binding) : ∃ called outcome,
      FirstSuccess d b (r.candidates d) (r.engineRoutes d) (r.lookupDefault d.opType d.device)
        called outcome ∧
      ∀ s ws s', Binding.bind s ws d = .ok (b, s') →
        r.createOperator s ws d = ⟨s', called.map (·.call b), outcome⟩ := by
  obtain ⟨called, outcome, hfirst, hwalk⟩ := r.exists_firstSuccess_walk d b
    (fun _ => mem_engineRoutes) (r.lookupDefault d.opType d.device)
  refine ⟨called, outcome, hfirst, fun s ws s' hbind => ?_⟩
  obtain ⟨-, hbound, -⟩ := Binding.bound_of_bind hbind
  have hbind' := Binding.bind_of_bound (Binding.fresh_of_bind hbind) hbound
  obtain ⟨route, rest, hcons⟩ := List.exists_cons_of_ne_nil hroutes
  rw [createOperator, hverify]
  dsimp only
  rw [hcons, walk_eq_of_bind hbind, ← hcons]
  exact hwalk s' ws hbind'

/-- **The list of ways is complete.** -/
theorem dispatches (r : Registry σ) (s : Store) (ws : String) (d : OperatorDef) :
    r.Dispatches s ws d (r.createOperator s ws d) := by
  cases hverify : r.verify d with
  | error cause =>
    rw [createOperator, hverify]
    exact .rejected hverify
  | ok =>
    by_cases hroutes : r.routes d = []
    · rw [createOperator, hverify, hroutes]
      exact .unrouted hverify hroutes
    · rcases Binding.bind_cases s ws d with ⟨b, hbind, hfresh, hinputs⟩ | ⟨name, hbind, hmissing⟩
      · obtain ⟨called, outcome, hfirst, heq⟩ := exists_createOperator_eq hverify hroutes b
        rw [heq s ws _ hbind]
        exact .called hverify hroutes hinputs hfresh (Binding.bound_of_bind hbind).2.1 hfirst
      · obtain ⟨route, rest, hcons⟩ := List.exists_cons_of_ne_nil hroutes
        rw [createOperator, hverify]
        dsimp only
        rw [hcons, walk, hbind]
        exact .unbound hverify hroutes hmissing

/-- **Dispatching again does the same again**, in any later store. -/
theorem createOperator_again (hinputs : ∀ name ∈ d.inputs, s.has ws name)
    (hlater : (r.createOperator s ws d).store.Extends s') :
    r.createOperator s' ws d = { r.createOperator s ws d with store := s' } := by
  cases hverify : r.verify d with
  | error cause => rw [createOperator, createOperator, hverify]
  | ok =>
    by_cases hroutes : r.routes d = []
    · rw [createOperator, createOperator, hverify, hroutes]
      rfl
    · rcases Binding.bind_cases s ws d with ⟨b, hbind, hfresh, -⟩ | ⟨name, -, hmissing⟩
      · obtain ⟨called, outcome, -, heq⟩ := exists_createOperator_eq hverify hroutes b
        rw [heq s ws _ hbind] at hlater ⊢
        have hbound := (Binding.bound_of_bind hbind).2.1.mono hlater
        rw [heq s' ws s' (Binding.bind_of_bound hfresh hbound)]
      · rw [Store.find?_missing_eq_none_iff.2 hinputs] at hmissing
        cases hmissing

end Dispatches

/-! ## The first success -/

/-- The routes of engines to the factories that were registered first for them. -/
def firstRoutes (history : List (Request σ)) (d : OperatorDef) (engines : List String) :
    List (Route σ) :=
  engines.filterMap fun engine =>
    (firstFactory? history d.opType d.device (some engine)).map (⟨some engine, ·⟩)

theorem engineRoutes_ofHistory (history : List (Request σ)) (d : OperatorDef) :
    (ofHistory history).engineRoutes d =
      firstRoutes history d ((ofHistory history).candidates d) := by
  unfold engineRoutes firstRoutes lookup
  simp only [slot?_ofHistory]

theorem nodup_eraseDups (engines : List String) : engines.eraseDups.Nodup := by
  induction hn : engines.length using Nat.strongRecOn generalizing engines with
  | _ n ih =>
    cases engines with
    | nil => exact List.nodup_nil
    | cons engine rest =>
      have hlen := List.length_filter_le (fun other => !other == engine) rest
      rw [List.length_cons] at hn
      rw [List.eraseDups_cons, List.nodup_cons]
      refine ⟨fun hmem => ?_, ih _ (by omega) _ rfl⟩
      have hfilter := (List.mem_filter.1 (List.mem_eraseDups.1 hmem)).2
      simp at hfilter

/-- Each engine has one route. -/
theorem nodup_engineRoutes (r : Registry σ) (d : OperatorDef) :
    ((r.engineRoutes d).map Route.engine?).Nodup := by
  rw [engineRoutes, List.map_filterMap]
  refine (nodup_eraseDups _).filterMap fun engine engine' engine? h h' => ?_
  rw [Option.map_map] at h h'
  obtain ⟨f, -, rfl⟩ := Option.map_eq_some_iff.1 h
  obtain ⟨f', -, heq⟩ := Option.map_eq_some_iff.1 h'
  exact (Option.some.inj heq).symm

/-- No route is called twice. -/
theorem FirstSuccess.nodup {r : Registry σ} {d : OperatorDef} {b : Binding}
    {engines : List String} {default? : Option (Factory σ)} {called : List (Route σ)}
    {outcome : Outcome (Operator σ)}
    (h : FirstSuccess d b engines (r.engineRoutes d) default? called outcome) :
    (called.map Route.engine?).Nodup := by
  have hnodup := r.nodup_engineRoutes d
  cases h with
  | @engine declined later route _ hnamed =>
    rw [hnamed, List.append_cons, List.map_append] at hnodup
    exact hnodup.of_append_left
  | fallback =>
    rw [List.map_append, List.map_singleton, ← List.concat_eq_append]
    refine hnodup.concat fun hmem => ?_
    obtain ⟨route, hroute, hnone⟩ := List.mem_map.1 hmem
    obtain ⟨engine, hengine⟩ := mem_engineRoutes hroute
    rw [hengine] at hnone
    cases hnone
  | exhausted => exact hnodup

/-- A definition that can be bound is offered to the factories. -/
theorem Dispatches.exists_firstSuccess {r : Registry σ} {s : Store} {ws : String}
    {d : OperatorDef} {result : Dispatch σ} (h : r.Dispatches s ws d result)
    (hverify : r.verify d = .ok ()) (hinputs : ∀ name ∈ d.inputs, s.has ws name) :
    ∃ b called, b.Fresh d ∧ result.calls = called.map (Route.call · b) ∧
      (called.map Route.engine?).Nodup ∧ (called ≠ [] → b.Bound result.store ws) ∧
      FirstSuccess d b (r.candidates d) (r.engineRoutes d) (r.lookupDefault d.opType d.device)
        called result.outcome := by
  cases h with
  | rejected h =>
    rw [hverify] at h
    cases h
  | unrouted _ hroutes =>
    obtain ⟨hnamed, hdefault⟩ : r.engineRoutes d = [] ∧
        ((r.lookupDefault d.opType d.device).map (Route.mk none)).toList = [] :=
      List.append_eq_nil_iff.1 hroutes
    rw [Option.toList_eq_nil_iff, Option.map_eq_none_iff] at hdefault
    rw [hnamed, hdefault]
    exact ⟨{ definition := d, inputs := [], outputs := [] }, [], ⟨rfl, rfl, rfl⟩, rfl,
      List.nodup_nil, fun h => absurd rfl h, .exhausted (fun _ h => absurd h List.not_mem_nil) rfl⟩
  | unbound _ _ hmissing =>
    rw [Store.find?_missing_eq_none_iff.2 hinputs] at hmissing
    cases hmissing
  | called _ _ _ hfresh hbound hfirst =>
    exact ⟨_, _, hfresh, rfl, hfirst.nodup, fun _ => hbound, hfirst⟩

/-- **Dispatch picks the first success.** A definition that its schema accepts, with all its inputs
there, is offered to the factories that were registered first for its engines, for those preferred
for its type and for those preferred on its device, one after another, each engine at its first
mention, and if they all decline to the default factory. Each is called with the same fresh binding,
and none after the first that does not decline. -/
theorem createOperator_firstSuccess {history : List (Request σ)} {s : Store} {ws : String}
    {d : OperatorDef}
    (hschema : ∀ schema, (ofHistory history).schema? d.opType = some schema →
      schema.verify d = .ok ())
    (hinputs : ∀ name ∈ d.inputs, s.has ws name) :
    let r := ofHistory history
    let engines := (d.engines ++ ((r.opPreference.get d.device).getD d.opType [] ++
      r.globalPreference.get d.device)).eraseDups
    let result := r.createOperator s ws d
    ∃ b called, b.Fresh d ∧ result.calls = called.map (Route.call · b) ∧
      (called.map Route.engine?).Nodup ∧ (called ≠ [] → b.Bound result.store ws) ∧
      FirstSuccess d b engines (firstRoutes history d engines)
        (firstFactory? history d.opType d.device none) called result.outcome := by
  intro r engines result
  have hverify : r.verify d = .ok () := verify_eq_ok_iff.2 hschema
  have hnamed : firstRoutes history d engines = r.engineRoutes d :=
    (engineRoutes_ofHistory history d).symm
  have hdefault : firstFactory? history d.opType d.device none =
      r.lookupDefault d.opType d.device := (slot?_ofHistory ..).symm
  rw [hnamed, hdefault]
  exact (r.dispatches s ws d).exists_firstSuccess hverify hinputs

namespace MatMul

/-- A factory that declines whatever it is asked for. -/
def declining : Factory Unit := fun _ => { verdict := .refused (.unsupported "too small") }

/-- A factory that fails to build anything. -/
def failing : Factory Unit := fun _ => { verdict := .refused (.failed (.other "out of handles")) }

/-- A factory of operators that do nothing. -/
def building : Factory Unit := fun _ => { verdict := .built ((), Builtin.noOp) }

/-- A registry with two engines, one of which declines, and with preferences for these and others.
The second factory for an engine that has one is ignored. -/
def history : List (Request Unit) :=
  [.registerSchema (({ opType := "MatMul" } : Schema).numInputs 1 2),
    .register "MatMul" .cpu none failing, .register "MatMul" .cpu (some "TILED") declining,
    .register "MatMul" .cpu (some "BLAS") building, .register "MatMul" .cpu (some "BLAS") failing,
    .preferGlobally .cpu ["TILED", "BLAS"], .preferFor "MatMul" .cpu ["BLAS", "NAIVE"]]

/-- A product that would like to be computed by an engine that is not there. -/
def definition : OperatorDef :=
  { opType := "MatMul", inputs := ["a", "a"], outputs := ["c"], engine := " GPU ,TILED, GPU" }

/-- A workspace with the factors. -/
def store : Store := (({} : Store).create "" "a").2

end MatMul

/-- The first engine is not there, the second declines, and the third builds the operator; the
default factory, which would fail, is not called. -/
theorem matMul_firstSuccess :
    (∀ schema, (ofHistory MatMul.history).schema? MatMul.definition.opType = some schema →
      schema.verify MatMul.definition = .ok ()) ∧
    (∀ name ∈ MatMul.definition.inputs, MatMul.store.has "" name) ∧
    ∃ b called outcome op, b.Fresh MatMul.definition ∧
      FirstSuccess MatMul.definition b ["GPU", "TILED", "BLAS", "NAIVE"]
        [⟨some "TILED", MatMul.declining⟩, ⟨some "BLAS", MatMul.building⟩] (some MatMul.failing)
        called outcome ∧
      called.map Route.engine? = [some "TILED", some "BLAS"] ∧
      outcome = .ok op ∧ op.state = .ready ∧ op.binding.engine = "BLAS" := by
  have hschema : ∀ schema, (ofHistory MatMul.history).schema? MatMul.definition.opType =
      some schema → schema.verify MatMul.definition = .ok () := by
    intro schema h
    obtain rfl : ({ opType := "MatMul" } : Schema).numInputs 1 2 = schema := Option.some.inj h
    rfl
  have hinputs : ∀ name ∈ MatMul.definition.inputs, MatMul.store.has "" name := by decide
  obtain ⟨b, called, hfresh, hcalls, -, -, hfirst⟩ := createOperator_firstSuccess hschema hinputs
  refine ⟨hschema, hinputs, b, called, _, _, hfresh, hfirst, ?_, rfl, rfl, rfl⟩
  have hengines := congrArg (List.map (·.route.engine?)) hcalls
  rw [List.map_map] at hengines
  exact hengines.symm

end Registry
end OpNet
