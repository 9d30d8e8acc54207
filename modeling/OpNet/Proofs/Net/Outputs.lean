import OpNet.Proofs.Net.Building

/-!
# The outputs that a net promises

A net declares the blobs that its surroundings expect to read. Whether they are there is looked up
when all operators were dispatched. By then the blobs that operators only read are there as well, so
that a promise is let pass if some operator reads the blob, though nothing ever writes it.

* `Registry.Produced` — a blob was there before, is fed from outside, or is written by an operator.
* `Registry.createNet_cases` — all the ways to end for the building of a net.
* `Registry.has_dispatched_iff` — what is there when all operators were dispatched.
* `Registry.Promises`, `Registry.promises_createNet` — which promises a net that was built keeps,
  and what becomes of a net with a promise that nothing keeps.
* `Registry.ghost_promised` — a net is built whose output nothing produces.
-/

set_option autoImplicit false

namespace OpNet
namespace Registry

variable {σ : Type}

/-- The blob was there before the net, is fed from outside, or is written by an operator. -/
def Produced (s : Store) (ws : String) (d : NetDef) (name : String) : Prop :=
  s.has ws name ∨ name ∈ d.externalInputs ∨ name ∈ d.opOutputs

/-- What becomes of the outputs that a net promises. -/
structure Promises (r : Registry σ) (pools : WorkerPools) (s : Store) (ws : String) (d : NetDef)
    (result : NetConstruction σ) : Prop where
  /-- What a net that was built has promised is produced, or else it is read by an operator. -/
  promised : ∀ net, result.outcome = .ok net →
    ∀ name ∈ d.externalOutputs, Produced s ws d name ∨ name ∈ d.opInputs
  /-- So all is produced, if this is so of what is read. -/
  kept : (∀ name ∈ d.externalOutputs, name ∈ d.opInputs → Produced s ws d name) →
    ∀ net, result.outcome = .ok net → ∀ name ∈ d.externalOutputs, Produced s ws d name
  /-- A net with an output that nothing produces and no operator reads is not built. The first such
  output is reported, unless the type of the net is unknown or an operator does not dispatch. -/
  refused : ∀ name ∈ d.externalOutputs, ¬Produced s ws d name → name ∉ d.opInputs →
    (d.netType ∉ ["", "simple", "dag"] ∧
      result.outcome = .error (.fault (.unknownNetType d.netType))) ∨
    (∃ before op after ops s' stop, d.ops = before ++ op :: after ∧
      r.Dispatched ws (prepare s ws d) before ops s' ∧
      (r.createOperator s' ws op).outcome = .error stop ∧ result.outcome = .error stop) ∨
    ∃ before first after, d.externalOutputs = before ++ first :: after ∧
      (∀ other ∈ before, Produced s ws d other ∨ other ∈ d.opInputs) ∧
      ¬Produced s ws d first ∧ first ∉ d.opInputs ∧
      result.outcome = .error (.fault (.blobNotFound first))
  /-- A net without such an output is built as soon as its operators dispatch and its pool, if it
  asks for one, starts. -/
  built : d.netType ∈ ["", "simple", "dag"] → pools.Serves d →
    ∀ ops s', r.Dispatched ws (prepare s ws d) d.ops ops s' →
      (∀ name ∈ d.externalOutputs, Produced s ws d name ∨ name ∈ d.opInputs) →
        ∃ net, result.outcome = .ok net ∧ net.ops = ops

section Promises

variable {r : Registry σ} {s s' : Store} {ws : String} {d : NetDef} {ops : List (Operator σ)}

/-- What is there when all operators were dispatched: what is produced, and what is read. -/
theorem has_dispatched_iff (h : r.Dispatched ws (prepare s ws d) d.ops ops s') (name : String) :
    s'.has ws name ↔ Produced s ws d name ∨ name ∈ d.opInputs := by
  have hadds := ((adds_prepare s ws d).trans h.adds).has_iff ws name
  change s'.has ws name ↔
    _ ∨ (ws = ws ∧ name ∈ d.externalInputs ++ d.opInputs ++ d.opOutputs) at hadds
  rw [hadds, Produced]
  simp only [List.mem_append, true_and]
  tauto

/-- The first output that is missing is one that nothing produces and no operator reads. -/
theorem missingOutput?_eq_some_iff (h : r.Dispatched ws (prepare s ws d) d.ops ops s')
    {first : String} : missingOutput? s' ws d = some first ↔
      ∃ before after, d.externalOutputs = before ++ first :: after ∧
        (∀ other ∈ before, Produced s ws d other ∨ other ∈ d.opInputs) ∧
        ¬Produced s ws d first ∧ first ∉ d.opInputs := by
  rw [missingOutput?, List.find?_eq_some_iff_append]
  simp only [Bool.not_eq_true', Bool.not_not, Bool.eq_false_iff, ne_eq, has_dispatched_iff h, not_or]
  tauto

theorem missingOutput?_eq_none_iff (h : r.Dispatched ws (prepare s ws d) d.ops ops s') :
    missingOutput? s' ws d = none ↔
      ∀ name ∈ d.externalOutputs, Produced s ws d name ∨ name ∈ d.opInputs := by
  rw [missingOutput?, Store.find?_missing_eq_none_iff]
  simp only [has_dispatched_iff h]

/-- The ways to end for the building of a net: the type is unknown, an operator does not dispatch, a
promised output is missing, the pool does not start, or the net is built. -/
theorem createNet_cases (r : Registry σ) (pools : WorkerPools) (s : Store) (ws : String)
    (d : NetDef) :
    (d.netType ∉ ["", "simple", "dag"] ∧
      (r.createNet pools s ws d).outcome = .error (.fault (.unknownNetType d.netType))) ∨
    (∃ before op after ops s' stop, d.ops = before ++ op :: after ∧
      r.Dispatched ws (prepare s ws d) before ops s' ∧
      (r.createOperator s' ws op).outcome = .error stop ∧
      (r.createNet pools s ws d).outcome = .error stop) ∨
    ∃ ops s', r.Dispatched ws (prepare s ws d) d.ops ops s' ∧
      ((∃ name, missingOutput? s' ws d = some name ∧
          (r.createNet pools s ws d).outcome = .error (.fault (.blobNotFound name))) ∨
        (missingOutput? s' ws d = none ∧ d.netType = "dag" ∧ ∃ stop,
          pools.startFor d = .error stop ∧ (r.createNet pools s ws d).outcome = .error stop) ∨
        (missingOutput? s' ws d = none ∧ pools.Serves d ∧
          ∃ net, (r.createNet pools s ws d).outcome = .ok net ∧ net.ops = ops)) := by
  by_cases hknown : d.netType ∈ ["", "simple", "dag"]
  case neg => exact .inl ⟨hknown, by rw [createNet_eq_error hknown]⟩
  obtain ⟨kind, hdag, heq⟩ := exists_createNet_eq (σ := σ) hknown
  rw [heq, ← hdag, WorkerPools.Serves, ← hdag]
  rcases r.exists_dispatched ws (prepare s ws d) d.ops with
    ⟨ops, s', hdispatched⟩ | ⟨before, op, after, ops, s', stop, hops, hdispatched, hstop⟩
  · exact .inr (.inr ⟨ops, s', hdispatched, createNetOf_cases hdispatched pools kind⟩)
  · have houtcome := (instantiate_of_failed hops hdispatched hstop).2
    exact .inr (.inl ⟨before, op, after, ops, s', stop, hops, hdispatched, hstop,
      Construction.net_eq_error houtcome pools kind d⟩)

/-- **What becomes of the outputs that a net promises.** A net is built only if each of them is
produced or read by an operator, and if all operators dispatch and its pool starts it is built then.
So a promise is empty only where an operator reads what nothing produces. -/
theorem promises_createNet (r : Registry σ) (pools : WorkerPools) (s : Store) (ws : String)
    (d : NetDef) : r.Promises pools s ws d (r.createNet pools s ws d) := by
  have hpromised : ∀ net, (r.createNet pools s ws d).outcome = .ok net →
      ∀ name ∈ d.externalOutputs, Produced s ws d name ∨ name ∈ d.opInputs := by
    intro net hnet
    rcases r.createNet_cases pools s ws d with ⟨-, herror⟩ | ⟨_, _, _, _, _, _, -, -, -, herror⟩ |
      ⟨ops, s', hdispatched, ⟨name, -, herror⟩ | ⟨-, -, stop, -, herror⟩ | ⟨hnone, -⟩⟩
    · cases herror.symm.trans hnet
    · cases herror.symm.trans hnet
    · cases herror.symm.trans hnet
    · cases herror.symm.trans hnet
    · exact (missingOutput?_eq_none_iff hdispatched).1 hnone
  refine ⟨hpromised, fun hread net hnet name hname => ?kept,
    fun name hname hfree hunread => ?refused,
    fun hknown hserves ops s' hdispatched hall => ?built⟩
  case kept => exact (hpromised net hnet name hname).elim id (hread name hname)
  case refused =>
    have hlacks : ∀ {ops s'}, r.Dispatched ws (prepare s ws d) d.ops ops s' →
        missingOutput? s' ws d ≠ none := fun hdispatched hnone =>
      absurd ((missingOutput?_eq_none_iff hdispatched).1 hnone name hname)
        (not_or.2 ⟨hfree, hunread⟩)
    rcases r.createNet_cases pools s ws d with hunknown | hstopped |
      ⟨ops, s', hdispatched, ⟨first, hmissing, herror⟩ | ⟨hnone, -⟩ | ⟨hnone, -⟩⟩
    · exact .inl hunknown
    · exact .inr (.inl hstopped)
    · obtain ⟨before, after, hsplit, hothers, hfirst, hunread'⟩ :=
        (missingOutput?_eq_some_iff hdispatched).1 hmissing
      exact .inr (.inr ⟨before, first, after, hsplit, hothers, hfirst, hunread', herror⟩)
    · exact absurd hnone (hlacks hdispatched)
    · exact absurd hnone (hlacks hdispatched)
  case built =>
    obtain ⟨kind, hdag, heq⟩ := exists_createNet_eq (σ := σ) hknown
    rw [heq]
    exact exists_createNetOf hdispatched ((missingOutput?_eq_none_iff hdispatched).2 hall)
      fun hkind => hserves (hdag.1 hkind)

end Promises

namespace Ghost

/-- A registry with an operator that does nothing. -/
def registry : Registry Unit :=
  ofHistory [.register "NoOp" .cpu none fun _ => { verdict := .built ((), Builtin.noOp) }]

/-- A net that promises a blob which its operator reads and nobody writes. -/
def definition : NetDef :=
  { ops := [{ opType := "NoOp", inputs := ["ghost"] }], externalOutputs := ["ghost"] }

end Ghost

/-- A net is built, though nothing produces the output that it promises. -/
theorem ghost_promised :
    (∃ net, (Ghost.registry.createNet .plentiful {} "" Ghost.definition).outcome = .ok net) ∧
    "ghost" ∈ Ghost.definition.externalOutputs ∧ ¬Produced {} "" Ghost.definition "ghost" := by
  refine ⟨⟨_, rfl⟩, List.mem_singleton_self _, ?_⟩
  rintro (hhas | hinput | houtput)
  · cases hhas
  · cases hinput
  · cases houtput

end Registry
end OpNet
