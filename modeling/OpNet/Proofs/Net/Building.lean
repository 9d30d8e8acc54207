import OpNet.Proofs.Dispatch.Footprint
import OpNet.Proofs.Net.Lifetime

/-!
# What building a net does to a workspace

A net creates what its operators read before the first of them is dispatched, so that no dispatch
misses an input, whichever operator writes it, and whether one does. Names are added only, and when
a net was built once they are all there.

* `Registry.Dispatched` — definitions that dispatch one after another.
* `Registry.createOperators_append` — a list of definitions behind such definitions goes on in the
  store that they leave.
* `Registry.createOperators_again` — dispatching a list again does the same again.
* `Registry.NetFootprint`, `Registry.footprint_createNet` — what is in the workspace after building
  a net, by the way in which it ended.
-/

set_option autoImplicit false

namespace OpNet

variable {σ : Type}

namespace NetKind

theorem exists_parse_eq_ok {netType : String} (h : netType ∈ ["", "simple", "dag"]) :
    ∃ kind, parse netType = .ok kind := by
  rw [List.mem_cons, List.mem_cons, List.mem_singleton] at h
  rcases h with rfl | rfl | rfl
  · exact ⟨simple, rfl⟩
  · exact ⟨simple, rfl⟩
  · exact ⟨dag, rfl⟩

theorem eq_dag_iff {netType : String} {kind : NetKind} (h : parse netType = .ok kind) :
    kind = dag ↔ netType = "dag" := by
  rw [parse] at h
  split at h
  · next hsimple =>
    obtain rfl := Except.ok.inj h
    refine iff_of_false nofun ?_
    rintro rfl
    revert hsimple
    decide
  · split at h
    · next hdag => exact iff_of_true (Except.ok.inj h).symm hdag
    · cases h

theorem parse_eq_error {netType : String} (h : netType ∉ ["", "simple", "dag"]) :
    parse netType = .error (.unknownNetType netType) := by
  simp only [List.mem_cons, List.not_mem_nil, or_false, not_or] at h
  rw [parse, if_neg (not_or.2 ⟨h.1, h.2.1⟩), if_neg h.2.2]

end NetKind

/-- A construction without operators gives no net. -/
theorem Construction.net_eq_error {built : Construction σ} {stop : Stop}
    (h : built.outcome = .error stop) (pools : WorkerPools) (kind : NetKind) (d : NetDef) :
    built.net pools kind d = .error stop := by
  cases kind with
  | simple => rw [net, simpleNet, h]; rfl
  | dag => rw [net, dagNet, h]; rfl

/-- A construction with operators gives a simple net, and a dag net if its pool starts. -/
theorem Construction.exists_net_eq_ok {built : Construction σ} {ops : List (Operator σ)}
    {pools : WorkerPools} {kind : NetKind} {d : NetDef} (h : built.outcome = .ok ops)
    (hpool : kind = .dag → pools.Starts d) :
    ∃ net, built.net pools kind d = .ok net ∧ net.ops = ops := by
  cases kind with
  | simple =>
    refine ⟨.simple ⟨d.name, ops⟩, ?_, rfl⟩
    rw [net, simpleNet, h]
    rfl
  | dag =>
    obtain ⟨graph, -, heq⟩ := dagNet_eq h pools d
    refine ⟨.dag ⟨d.name, ops, dependencies d.ops, graph, max 1 d.workers⟩, ?_, rfl⟩
    rw [net, heq, WorkerPools.startFor_eq_ok_iff.2 (hpool rfl)]
    rfl

/-- There is no dag net if its pool does not start. -/
theorem Construction.net_eq_error_of_startFor {built : Construction σ} {ops : List (Operator σ)}
    {pools : WorkerPools} {d : NetDef} {stop : Stop} (h : built.outcome = .ok ops)
    (hpool : pools.startFor d = .error stop) : built.net pools .dag d = .error stop := by
  obtain ⟨graph, -, heq⟩ := dagNet_eq h pools d
  rw [net, heq, hpool]
  rfl

/-- A net has the operators of its construction. -/
theorem Construction.outcome_of_net_eq_ok {built : Construction σ} {pools : WorkerPools}
    {kind : NetKind} {d : NetDef} {net : Net σ} (h : built.net pools kind d = .ok net) :
    built.outcome = .ok net.ops := by
  cases hbuilt : built.outcome with
  | error stop =>
    rw [net_eq_error hbuilt] at h
    cases h
  | ok ops =>
    have hpool : kind = .dag → pools.Starts d := by
      rintro rfl
      rw [← WorkerPools.startFor_eq_ok_iff]
      cases hstart : pools.startFor d with
      | error stop =>
        rw [net_eq_error_of_startFor hbuilt hstart] at h
        cases h
      | ok => rfl
    obtain ⟨net', hnet', hops⟩ := exists_net_eq_ok hbuilt hpool
    obtain rfl := Except.ok.inj (hnet'.symm.trans h)
    rw [hops]

namespace Registry

/-! ## Dispatching a list of definitions -/

/-- Definitions that dispatch one after another, each in the store that the one before it has left:
the operators that they give, and the store after the last. -/
inductive Dispatched (r : Registry σ) (ws : String) :
    Store → List OperatorDef → List (Operator σ) → Store → Prop
  | nil (s : Store) : Dispatched r ws s [] [] s
  | cons {s s' : Store} {d : OperatorDef} {ds : List OperatorDef} {op : Operator σ}
      {ops : List (Operator σ)} (h : (r.createOperator s ws d).outcome = .ok op)
      (hrest : Dispatched r ws (r.createOperator s ws d).store ds ops s') :
      Dispatched r ws s (d :: ds) (op :: ops) s'

section Dispatched

variable {r : Registry σ} {ws : String} {s s' : Store} {ds : List OperatorDef}
  {ops : List (Operator σ)}

/-- Definitions that dispatch add their outputs. -/
theorem Dispatched.adds (h : r.Dispatched ws s ds ops s') :
    s.Adds s' ws (ds.flatMap (·.outputs)) := by
  induction h with
  | nil s => exact Store.adds_self fun _ hname => absurd hname List.not_mem_nil
  | @cons s _ d _ _ _ h _ ih => exact ((r.dispatches s ws d).adds_of_ok h).trans ih

/-- The definitions of a list dispatch, or there is a first one that does not. -/
theorem exists_dispatched (r : Registry σ) (ws : String) (s : Store) (ds : List OperatorDef) :
    (∃ ops s', r.Dispatched ws s ds ops s') ∨
    ∃ before d after ops s' stop, ds = before ++ d :: after ∧ r.Dispatched ws s before ops s' ∧
      (r.createOperator s' ws d).outcome = .error stop := by
  induction ds generalizing s with
  | nil => exact .inl ⟨[], s, .nil s⟩
  | cons d ds ih =>
    cases h : (r.createOperator s ws d).outcome with
    | error stop => exact .inr ⟨[], d, ds, [], s, stop, rfl, .nil s, h⟩
    | ok op =>
      rcases ih (r.createOperator s ws d).store with
        ⟨ops, s', hrest⟩ | ⟨before, d', after, ops, s', stop, rfl, hrest, hstop⟩
      · exact .inl ⟨op :: ops, s', .cons h hrest⟩
      · exact .inr ⟨d :: before, d', after, op :: ops, s', stop, rfl, .cons h hrest, hstop⟩

/-- Behind definitions that dispatch, the others go on in the store that these leave. -/
theorem createOperators_append (h : r.Dispatched ws s ds ops s') (ds' : List OperatorDef) :
    (r.createOperators ws s (ds ++ ds')).store = (r.createOperators ws s' ds').store ∧
      (r.createOperators ws s (ds ++ ds')).outcome =
        (r.createOperators ws s' ds').outcome.map (ops ++ ·) := by
  induction h with
  | nil s =>
    refine ⟨rfl, ?_⟩
    rw [List.nil_append]
    cases (r.createOperators ws s ds').outcome <;> rfl
  | cons h _ ih =>
    rw [List.cons_append, createOperators]
    dsimp only
    rw [h]
    refine ⟨ih.1, ?_⟩
    dsimp only
    rw [ih.2]
    cases (r.createOperators ws _ ds').outcome <;> rfl

theorem createOperators_of_dispatched (h : r.Dispatched ws s ds ops s') :
    (r.createOperators ws s ds).store = s' ∧ (r.createOperators ws s ds).outcome = .ok ops := by
  have happend := createOperators_append h []
  rw [List.append_nil] at happend
  refine ⟨happend.1, happend.2.trans ?_⟩
  change Except.ok (ops ++ []) = _
  rw [List.append_nil]

/-- The first definition that does not dispatch ends the construction. -/
theorem createOperators_of_failed (h : r.Dispatched ws s ds ops s') {d : OperatorDef} {stop : Stop}
    (hstop : (r.createOperator s' ws d).outcome = .error stop) (after : List OperatorDef) :
    (r.createOperators ws s (ds ++ d :: after)).store = (r.createOperator s' ws d).store ∧
      (r.createOperators ws s (ds ++ d :: after)).outcome = .error stop := by
  have hrest : r.createOperators ws s' (d :: after) =
      ⟨(r.createOperator s' ws d).store, (r.createOperator s' ws d).calls, .error stop⟩ := by
    rw [createOperators]
    dsimp only
    rw [hstop]
  obtain ⟨hstore, houtcome⟩ := createOperators_append h (d :: after)
  rw [hrest] at hstore houtcome
  exact ⟨hstore, houtcome⟩

/-- Dispatching changes no blob that is there. -/
theorem keeps_createOperators (r : Registry σ) (ws : String) (s : Store) (ds : List OperatorDef) :
    s.Keeps (r.createOperators ws s ds).store := by
  rcases r.exists_dispatched ws s ds with
    ⟨ops, s', h⟩ | ⟨before, d, after, ops, s', stop, rfl, h, hstop⟩
  · rw [(createOperators_of_dispatched h).1]
    exact h.adds.keeps
  · rw [(createOperators_of_failed h hstop after).1]
    exact h.adds.keeps.trans (r.dispatches s' ws d).keeps

/-- **Dispatching a list again does the same again**, in any later store. -/
theorem createOperators_again (hinputs : ∀ d ∈ ds, ∀ name ∈ d.inputs, s.has ws name)
    (hlater : (r.createOperators ws s ds).store.Extends s') :
    r.createOperators ws s' ds = { r.createOperators ws s ds with store := s' } := by
  induction ds generalizing s with
  | nil => rfl
  | cons d ds ih =>
    obtain ⟨hd, hds⟩ := List.forall_mem_cons.1 hinputs
    rw [createOperators] at hlater
    rw [createOperators, createOperators]
    dsimp only at hlater ⊢
    -- the later definitions find their inputs in the store that the first one leaves
    have hfirst : s.Extends (r.createOperator s ws d).store := extends_createOperator s d
    cases h : (r.createOperator s ws d).outcome with
    | error stop =>
      rw [h] at hlater
      rw [createOperator_again hd hlater, h]
    | ok op =>
      rw [h] at hlater
      dsimp only at hlater
      have hmid : (r.createOperator s ws d).store.Extends s' :=
        (extends_createOperators _ ds).trans hlater
      rw [createOperator_again hd hmid, h]
      dsimp only
      rw [ih (fun d' hd' name hname => hfirst.has (hds d' hd' name hname)) hlater]

/-- A dispatch changes nothing where the outputs are there. -/
theorem store_createOperator_eq_self (r : Registry σ) {d : OperatorDef}
    (h : ∀ name ∈ d.outputs, s.has ws name) : (r.createOperator s ws d).store = s := by
  have hways := r.dispatches s ws d
  generalize r.createOperator s ws d = result at hways
  cases hways with
  | rejected | unrouted | unbound => rfl
  | called => exact Store.createAll_eq_self h

theorem store_createOperators_eq_self (r : Registry σ)
    (h : ∀ d ∈ ds, ∀ name ∈ d.outputs, s.has ws name) : (r.createOperators ws s ds).store = s := by
  induction ds with
  | nil => rfl
  | cons d ds ih =>
    obtain ⟨hd, hds⟩ := List.forall_mem_cons.1 h
    rw [createOperators]
    dsimp only
    rw [store_createOperator_eq_self r hd]
    split
    · rfl
    · exact ih hds

end Dispatched

/-! ## Building a net -/

/-- The store in which the first operator of a net is dispatched: what the net reads is there. -/
def prepare (s : Store) (ws : String) (d : NetDef) : Store :=
  (s.createAll ws (d.externalInputs ++ d.opInputs)).2

/-- What building a net has done to the workspace, by the way in which it has ended. -/
structure NetFootprint (r : Registry σ) (pools : WorkerPools) (s : Store) (ws : String) (d : NetDef)
    (result : NetConstruction σ) : Prop where
  keeps : s.Keeps result.store
  unknown : d.netType ∉ ["", "simple", "dag"] →
    result.store = s ∧ result.outcome = .error (.fault (.unknownNetType d.netType))
  /-- All operators dispatch, or there is a first one that does not. -/
  ways : (∃ ops s', r.Dispatched ws (prepare s ws d) d.ops ops s') ∨
    ∃ before op after ops s' stop, d.ops = before ++ op :: after ∧
      r.Dispatched ws (prepare s ws d) before ops s' ∧
      (r.createOperator s' ws op).outcome = .error stop
  /-- No operator misses an input, be it written by a later operator or by none. -/
  found : ∀ before op after ops s', d.ops = before ++ op :: after →
    r.Dispatched ws (prepare s ws d) before ops s' →
      ∀ name, (r.createOperator s' ws op).outcome ≠ .error (.fault (.blobNotFound name))
  /-- The first operator that does not dispatch ends the construction. All that the net reads is
  there then, and what the operators before it write; of its own outputs all or none. -/
  failed : d.netType ∈ ["", "simple", "dag"] →
    ∀ before op after ops s' stop, d.ops = before ++ op :: after →
      r.Dispatched ws (prepare s ws d) before ops s' →
      (r.createOperator s' ws op).outcome = .error stop →
        result.outcome = .error stop ∧
          let names := d.externalInputs ++ d.opInputs ++ before.flatMap (·.outputs)
          s.Adds result.store ws names ∨ s.Adds result.store ws (names ++ op.outputs)
  /-- If all operators dispatch, all that the net reads and writes is there. What can be wrong with
  the net then is an output that it promises and does not write, and after that the pool of a dag
  net, which may not start. -/
  built : d.netType ∈ ["", "simple", "dag"] →
    ∀ ops s', r.Dispatched ws (prepare s ws d) d.ops ops s' →
      s.Adds result.store ws (d.externalInputs ++ d.opInputs ++ d.opOutputs) ∧
      (∀ name, result.outcome = .error (.fault (.blobNotFound name)) ↔
        d.externalOutputs.find? (fun name => !result.store.has ws name) = some name) ∧
      ((∀ name ∈ d.externalOutputs, result.store.has ws name) →
        (pools.Serves d → ∃ net, result.outcome = .ok net ∧ net.ops = ops) ∧
        (d.netType = "dag" → ∀ stop, pools.startFor d = .error stop →
          result.outcome = .error stop))
  /-- Building the net again does the same again, if the pools start as they did. -/
  again : r.createNet pools result.store ws d = result
  /-- Building the net at any later time adds nothing, whatever becomes of its pool. -/
  settled : ∀ pools' s', result.store.Extends s' → (r.createNet pools' s' ws d).store = s'
  /-- Once all operators were dispatched, this is so with other factories too. -/
  settled_any : d.netType ∈ ["", "simple", "dag"] →
    ∀ ops s', r.Dispatched ws (prepare s ws d) d.ops ops s' →
      ∀ (r' : Registry σ) pools' s'', result.store.Extends s'' →
        (r'.createNet pools' s'' ws d).store = s''

section Footprint

variable {r : Registry σ} {pools : WorkerPools} {s s' : Store} {ws : String} {d : NetDef}

theorem adds_prepare (s : Store) (ws : String) (d : NetDef) :
    s.Adds (prepare s ws d) ws (d.externalInputs ++ d.opInputs) :=
  s.adds_createAll ws _

theorem has_input_prepare {op : OperatorDef} (hop : op ∈ d.ops) {name : String}
    (hname : name ∈ op.inputs) : (prepare s ws d).has ws name :=
  (adds_prepare s ws d).has
    (List.mem_append_right _ (List.mem_flatMap.2 ⟨op, hop, hname⟩))

/-- No dispatch within a net misses an input. -/
theorem ne_blobNotFound_of_dispatched {before after : List OperatorDef} {op : OperatorDef}
    {ops : List (Operator σ)} (hops : d.ops = before ++ op :: after)
    (h : r.Dispatched ws (prepare s ws d) before ops s') (name : String) :
    (r.createOperator s' ws op).outcome ≠ .error (.fault (.blobNotFound name)) := by
  intro hmissing
  have hinputs : ∀ name ∈ op.inputs, s'.has ws name := fun name hname =>
    h.adds.keeps.names.has (has_input_prepare (by simp [hops]) hname)
  have hfind := ((r.dispatches s' ws op).missing_iff name).1 hmissing
  rw [Store.find?_missing_eq_none_iff.2 hinputs] at hfind
  exact absurd hfind.2.2 nofun

/-- Building the operators of a net, in terms of what it reads. -/
theorem instantiate_eq (r : Registry σ) (s : Store) (ws : String) (d : NetDef) :
    let built := r.createOperators ws (prepare s ws d) d.ops
    r.instantiate s ws d = { built with
      outcome := built.outcome.bind fun ops =>
        (missingOutput? built.store ws d).elim (.ok ops) fun name =>
          .error (.fault (.blobNotFound name)) } := by
  unfold instantiate prepare
  dsimp only
  generalize r.createOperators ws (s.createAll ws (d.externalInputs ++ d.opInputs)).2 d.ops = built
  obtain ⟨store, calls, outcome⟩ := built
  cases outcome with
  | error stop => rfl
  | ok ops => cases missingOutput? store ws d <;> rfl

theorem store_instantiate (r : Registry σ) (s : Store) (ws : String) (d : NetDef) :
    (r.instantiate s ws d).store = (r.createOperators ws (prepare s ws d) d.ops).store := by
  rw [instantiate_eq]

theorem instantiate_of_failed {before after : List OperatorDef} {op : OperatorDef}
    {ops : List (Operator σ)} {stop : Stop} (hops : d.ops = before ++ op :: after)
    (h : r.Dispatched ws (prepare s ws d) before ops s')
    (hstop : (r.createOperator s' ws op).outcome = .error stop) :
    (r.instantiate s ws d).store = (r.createOperator s' ws op).store ∧
      (r.instantiate s ws d).outcome = .error stop := by
  obtain ⟨hstore, houtcome⟩ := createOperators_of_failed h hstop after
  rw [← hops] at hstore houtcome
  rw [instantiate_eq]
  refine ⟨hstore, ?_⟩
  dsimp only
  rw [houtcome]
  rfl

/-- Of the operator that does not dispatch all outputs are there, or none are added. -/
theorem adds_instantiate_of_failed {before after : List OperatorDef} {op : OperatorDef}
    {ops : List (Operator σ)} {stop : Stop} (hops : d.ops = before ++ op :: after)
    (h : r.Dispatched ws (prepare s ws d) before ops s')
    (hstop : (r.createOperator s' ws op).outcome = .error stop) :
    let names := d.externalInputs ++ d.opInputs ++ before.flatMap (·.outputs)
    s.Adds (r.instantiate s ws d).store ws names ∨
      s.Adds (r.instantiate s ws d).store ws (names ++ op.outputs) := by
  have hadds := (adds_prepare s ws d).trans h.adds
  rw [(instantiate_of_failed hops h hstop).1]
  rcases (r.dispatches s' ws op).all_or_none with hnone | hall
  · exact .inl (by rwa [hnone])
  · exact .inr (hadds.trans hall)

theorem instantiate_of_dispatched {ops : List (Operator σ)}
    (h : r.Dispatched ws (prepare s ws d) d.ops ops s') :
    (r.instantiate s ws d).store = s' ∧ (r.instantiate s ws d).outcome =
      (missingOutput? s' ws d).elim (.ok ops) fun name => .error (.fault (.blobNotFound name)) := by
  obtain ⟨hstore, houtcome⟩ := createOperators_of_dispatched h
  rw [instantiate_eq]
  refine ⟨hstore, ?_⟩
  dsimp only
  rw [hstore, houtcome]
  rfl

theorem keeps_instantiate (r : Registry σ) (s : Store) (ws : String) (d : NetDef) :
    s.Keeps (r.instantiate s ws d).store := by
  rw [store_instantiate]
  exact (adds_prepare s ws d).keeps.trans (keeps_createOperators r ws _ _)

/-- Once a net was built, there is nothing left to prepare. -/
theorem prepare_eq_self (hlater : (r.instantiate s ws d).store.Extends s') :
    prepare s' ws d = s' := by
  refine Store.createAll_eq_self fun name hname => hlater.has ?_
  rw [store_instantiate]
  exact (extends_createOperators _ _).has ((adds_prepare s ws d).has hname)

/-- Building the operators of a net at a later time adds nothing. -/
theorem store_instantiate_later (hlater : (r.instantiate s ws d).store.Extends s') :
    (r.instantiate s' ws d).store = s' := by
  have hprepared := prepare_eq_self hlater
  rw [store_instantiate] at hlater
  rw [store_instantiate, hprepared,
    createOperators_again (fun op hop name => has_input_prepare hop) hlater]

/-- Building the operators of a net again does the same again. -/
theorem instantiate_again (r : Registry σ) (s : Store) (ws : String) (d : NetDef) :
    r.instantiate (r.instantiate s ws d).store ws d = r.instantiate s ws d := by
  have hprepared := prepare_eq_self (Store.Extends.refl (r.instantiate s ws d).store)
  have hagain := createOperators_again (fun op hop name => has_input_prepare hop)
    (Store.Extends.refl (r.createOperators ws (prepare s ws d) d.ops).store)
  rw [instantiate_eq r (r.instantiate s ws d).store, hprepared, store_instantiate, hagain,
    ← instantiate_eq]

/-- Where the blobs of a net are, no registry adds any. -/
theorem store_instantiate_eq_self (r : Registry σ)
    (hinputs : ∀ name ∈ d.externalInputs ++ d.opInputs, s.has ws name)
    (houtputs : ∀ name ∈ d.opOutputs, s.has ws name) :
    (r.instantiate s ws d).store = s := by
  rw [store_instantiate, prepare, Store.createAll_eq_self hinputs]
  exact store_createOperators_eq_self r fun op hop name hname =>
    houtputs name (List.mem_flatMap.2 ⟨op, hop, hname⟩)

theorem createNet_eq_error (h : d.netType ∉ ["", "simple", "dag"]) (r : Registry σ)
    (pools : WorkerPools) (s : Store) (ws : String) : r.createNet pools s ws d =
      { store := s, outcome := .error (.fault (.unknownNetType d.netType)) } := by
  rw [createNet, NetKind.parse_eq_error h]

/-- A net of a known type is built from its operators. -/
theorem exists_createNet_eq (h : d.netType ∈ ["", "simple", "dag"]) :
    ∃ kind, (kind = .dag ↔ d.netType = "dag") ∧ ∀ (r : Registry σ) pools s ws,
      r.createNet pools s ws d = r.createNetOf pools kind s ws d := by
  obtain ⟨kind, hkind⟩ := NetKind.exists_parse_eq_ok h
  exact ⟨kind, NetKind.eq_dag_iff hkind, fun r pools s ws => by rw [createNet, hkind]⟩

section OfDispatched

variable {kind : NetKind} {ops : List (Operator σ)}
  (h : r.Dispatched ws (prepare s ws d) d.ops ops s')
include h

theorem store_createNetOf (pools : WorkerPools) (kind : NetKind) :
    (r.createNetOf pools kind s ws d).store = s' :=
  (instantiate_of_dispatched h).1

/-- A net whose operators all dispatch can lack an output that it promises. -/
theorem createNetOf_of_missing (pools : WorkerPools) (kind : NetKind) {name : String}
    (hmissing : missingOutput? s' ws d = some name) :
    (r.createNetOf pools kind s ws d).outcome = .error (.fault (.blobNotFound name)) := by
  have houtcome := (instantiate_of_dispatched h).2
  rw [hmissing] at houtcome
  exact Construction.net_eq_error houtcome pools kind d

/-- If it does not, the pool of a dag net is all that it can lack. -/
theorem createNetOf_of_startFor (hpromised : missingOutput? s' ws d = none) {stop : Stop}
    (hstop : pools.startFor d = .error stop) :
    (r.createNetOf pools .dag s ws d).outcome = .error stop := by
  have houtcome := (instantiate_of_dispatched h).2
  rw [hpromised] at houtcome
  exact Construction.net_eq_error_of_startFor houtcome hstop

theorem exists_createNetOf (hpromised : missingOutput? s' ws d = none)
    (hpool : kind = .dag → pools.Starts d) :
    ∃ net, (r.createNetOf pools kind s ws d).outcome = .ok net ∧ net.ops = ops := by
  have houtcome := (instantiate_of_dispatched h).2
  rw [hpromised] at houtcome
  exact Construction.exists_net_eq_ok houtcome hpool

/-- The ways to end for a net whose operators all dispatch. -/
theorem createNetOf_cases (pools : WorkerPools) (kind : NetKind) :
    (∃ name, missingOutput? s' ws d = some name ∧
      (r.createNetOf pools kind s ws d).outcome = .error (.fault (.blobNotFound name))) ∨
    (missingOutput? s' ws d = none ∧ kind = .dag ∧ ∃ stop, pools.startFor d = .error stop ∧
      (r.createNetOf pools kind s ws d).outcome = .error stop) ∨
    (missingOutput? s' ws d = none ∧ (kind = .dag → pools.Starts d) ∧
      ∃ net, (r.createNetOf pools kind s ws d).outcome = .ok net ∧ net.ops = ops) := by
  cases hpromised : missingOutput? s' ws d with
  | some name => exact .inl ⟨name, rfl, createNetOf_of_missing h pools kind hpromised⟩
  | none =>
    by_cases hpool : kind = .dag → pools.Starts d
    · exact .inr (.inr ⟨rfl, hpool, exists_createNetOf h hpromised hpool⟩)
    · obtain ⟨rfl, hstarts⟩ := Classical.not_imp.1 hpool
      obtain ⟨stop, hstop⟩ := WorkerPools.exists_startFor_eq_error hstarts
      exact .inr (.inl ⟨rfl, rfl, stop, hstop, createNetOf_of_startFor h hpromised hstop⟩)

/-- A blob is missing exactly if it is the first output that is promised and not there. -/
theorem createNetOf_missing_iff (pools : WorkerPools) (kind : NetKind) (name : String) :
    (r.createNetOf pools kind s ws d).outcome = .error (.fault (.blobNotFound name)) ↔
      missingOutput? s' ws d = some name := by
  rcases createNetOf_cases h pools kind with ⟨name', hmissing, houtcome⟩ |
    ⟨hpromised, -, stop, hstop, houtcome⟩ | ⟨hpromised, -, net, hnet, -⟩
  · rw [hmissing, houtcome]
    simp
  · rw [hpromised, houtcome]
    refine iff_of_false (fun heq => ?_) nofun
    exact WorkerPools.ne_blobNotFound_of_startFor hstop name (Except.error.inj heq)
  · rw [hpromised, hnet]
    exact iff_of_false nofun nofun

end OfDispatched

/-- **The footprint of building a net.** Building a net changes no blob that is there. It creates
all that the net reads, then the outputs of one operator after another, up to the first that does
not dispatch, and no operator misses an input. Building the net again adds nothing. -/
theorem footprint_createNet (r : Registry σ) (pools : WorkerPools) (s : Store) (ws : String)
    (d : NetDef) : r.NetFootprint pools s ws d (r.createNet pools s ws d) := by
  have hways := r.exists_dispatched ws (prepare s ws d) d.ops
  have hfound : ∀ before op after ops s', d.ops = before ++ op :: after →
      r.Dispatched ws (prepare s ws d) before ops s' →
        ∀ name, (r.createOperator s' ws op).outcome ≠ .error (.fault (.blobNotFound name)) :=
    fun _ _ _ _ _ hops h => ne_blobNotFound_of_dispatched hops h
  by_cases hknown : d.netType ∈ ["", "simple", "dag"]
  case neg =>
    -- the type is read before anything is created
    rw [createNet_eq_error hknown]
    refine ⟨.refl s, fun _ => ⟨rfl, rfl⟩, hways, hfound, fun h => absurd h hknown,
      fun h => absurd h hknown, createNet_eq_error hknown r pools s ws, fun _ s' _ => ?_,
      fun h => absurd h hknown⟩
    rw [createNet_eq_error hknown]
  obtain ⟨kind, hdag, heq⟩ := exists_createNet_eq (σ := σ) hknown
  rw [heq]
  refine ⟨keeps_instantiate r s ws d, fun h => absurd hknown h, hways, hfound,
    fun _ => ?failed, fun _ => ?built, ?again, ?settled, fun _ => ?settled_any⟩
  case failed =>
    intro before op after ops s' stop hops h hstop
    have houtcome := (instantiate_of_failed hops h hstop).2
    exact ⟨Construction.net_eq_error houtcome pools kind d,
      adds_instantiate_of_failed hops h hstop⟩
  case built =>
    intro ops s' h
    rw [store_createNetOf h]
    refine ⟨(adds_prepare s ws d).trans h.adds, createNetOf_missing_iff h pools kind,
      fun hall => ?_⟩
    have hpromised : missingOutput? s' ws d = none := Store.find?_missing_eq_none_iff.2 hall
    refine ⟨fun hserves => exists_createNetOf h hpromised fun hkind => hserves (hdag.1 hkind),
      fun htype stop hstop => ?_⟩
    obtain rfl := hdag.2 htype
    exact createNetOf_of_startFor h hpromised hstop
  case again =>
    rw [heq]
    change r.createNetOf pools kind (r.instantiate s ws d).store ws d = _
    rw [createNetOf, instantiate_again]
    rfl
  case settled =>
    intro pools' s' hlater
    rw [heq]
    exact store_instantiate_later hlater
  case settled_any =>
    intro ops s' h r' pools' s'' hlater
    rw [store_createNetOf h] at hlater
    have hadds := (adds_prepare s ws d).trans h.adds
    rw [heq]
    exact store_instantiate_eq_self r'
      (fun name hname => hlater.has (hadds.has (List.mem_append_left _ hname)))
      (fun name hname => hlater.has (hadds.has (List.mem_append_right _ hname)))

-- The second operator has no factory. What the third one reads is there all the same.
example :
    let r : Registry Unit := ofHistory
      [.register "Copy" .cpu none fun _ => { verdict := .built ((), Builtin.noOp) }]
    let d : NetDef :=
      { ops := [{ opType := "Copy", inputs := ["a"], outputs := ["b"] },
          { opType := "Cast", inputs := ["b", "c"], outputs := ["d"] },
          { opType := "Copy", inputs := ["e"], outputs := ["f"] }] }
    let store := (r.createNet .plentiful {} "" d).store
    ["a", "b", "c", "d", "e", "f"].filter (store.has "") = ["a", "b", "c", "e"] := by
  decide

end Footprint

end Registry
end OpNet
