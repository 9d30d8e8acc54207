import OpNet.Proofs.Dispatch.Fallback
import OpNet.Proofs.Registry.Account

/-!
# Dispatch to the built-in operators

A registry that was filled with the built-in operators and nothing else has default factories only.
So a copy is built in the same way whatever engines its definition asks for, and its schema lets it
copy a blob to itself.

* `Registry.builtin` — the registry with the built-in operators only.
* `OperatorDef.Copies` — the definition of a copy on the host.
* `Registry.exists_createOperator_of_copies` — such a definition dispatches as soon as there is
  something to bind it to.
-/

set_option autoImplicit false

namespace OpNet

variable {σ : Type}

/-- The definition of a copy from one blob to another, or to itself, on the host. Its name, the
number of its device, its engines and its arguments may be any. -/
structure OperatorDef.Copies (d : OperatorDef) (source target : String) : Prop where
  opType : d.opType = "Copy"
  inputs : d.inputs = [source]
  outputs : d.outputs = [target]
  device : d.device = .cpu

/-- Both blobs of a copy may be the same. -/
theorem Builtin.verify_copySchema {d : OperatorDef} {source target : String}
    (h : d.Copies source target) : copySchema.verify d = .ok () := by
  have hpair : copySchema.strayPair? [target] 0 [source] = none := by
    have hpermits : copySchema.permits 0 0 = true := rfl
    simp [Schema.strayPair?, Schema.strayOutput?, hpermits]
  rw [Schema.verify, h.inputs, h.outputs, hpair]
  rfl

namespace Registry

variable [Inhabited σ]

/-- The registry with the built-in operators and nothing else. -/
def builtin : Registry σ := ofHistory
  [.registerSchema Builtin.copySchema,
    .register "NoOp" .cpu none fun _ => { verdict := .built (default, Builtin.noOp) },
    .registerKernel "Copy" none .host fun _ => { verdict := .built (default, Builtin.copy) }]

theorem addBuiltins_empty : ({} : Registry σ).addBuiltins = .ok builtin := rfl

theorem schema?_builtin : (builtin : Registry σ).schema? "Copy" = some Builtin.copySchema := by
  rw [builtin, schema?_ofHistory]
  rfl

theorem lookupDefault_builtin : (builtin : Registry σ).lookupDefault "Copy" .cpu =
    some (DeviceContext.host.factory fun _ => { verdict := .built (default, Builtin.copy) }) := by
  rw [builtin, lookupDefault, slot?_ofHistory]
  rfl

/-- No engine has a factory of its own. -/
theorem engineRoutes_builtin (d : OperatorDef) : (builtin : Registry σ).engineRoutes d = [] := by
  rw [engineRoutes, List.filterMap_eq_nil_iff]
  intro engine _
  rw [builtin, lookup, slot?_ofHistory]
  simp [firstFactory?, Request.factory?]

/-- **A copy dispatches.** Whatever engines it asks for, the default factory builds it. -/
theorem exists_createOperator_of_copies {d : OperatorDef} {source target : String}
    (h : d.Copies source target) {s : Store} {ws : String} (hsource : s.has ws source) :
    ∃ op : Operator σ, (builtin.createOperator s ws d).outcome = .ok op ∧
      op.body = DeviceContext.host.body Builtin.copy := by
  have hverify : (builtin : Registry σ).verify d = .ok () := by
    rw [verify, h.opType, schema?_builtin]
    exact Builtin.verify_copySchema h
  have hinputs : ∀ name ∈ d.inputs, s.has ws name := by
    rw [h.inputs]
    exact List.forall_mem_singleton.2 hsource
  obtain ⟨b, called, -, -, -, -, hfirst⟩ :=
    ((builtin : Registry σ).dispatches s ws d).exists_firstSuccess hverify hinputs
  rw [engineRoutes_builtin, h.opType, h.device, lookupDefault_builtin] at hfirst
  generalize ((builtin : Registry σ).createOperator s ws d).outcome = outcome at hfirst ⊢
  cases hfirst with
  | engine hnamed => simp at hnamed
  | exhausted _ hdefault => cases hdefault
  | fallback _ hdefault hends =>
    obtain rfl := Option.some.inj hdefault
    cases hends with
    | built hbuilt =>
      obtain rfl := Verdict.built.inj hbuilt
      exact ⟨_, rfl, rfl⟩
    | failed hfailed => cases hfailed
    | panicked hpanicked => cases hpanicked
    | declined _ hdeclines =>
      obtain ⟨reason, hrefused⟩ := hdeclines
      cases hrefused

end Registry
end OpNet
