import OpNet.Proofs.Dispatch.Builtin
import OpNet.Proofs.Net.Building
import OpNet.Proofs.Net.Relay

/-!
# Nets that deliver

A net of copies that are defined one behind the other can be built in any workspace, and carries what
it finds in its first blob over to its last one. Its definitions may come back to a blob, or copy it
to itself: the operators that they are dispatched to are a relay all the same.

* `CopyPath` — definitions of copies from one blob to another, through any blobs.
* `CopyPath.exists_dispatched` — they dispatch one after another, and `CopyPath.exists_relay` — their
  operators are a relay.
* `Registry.Delivers`, `Registry.delivers_of_copyPath` — what such a net does for its surroundings,
  in terms of names.
-/

set_option autoImplicit false

namespace OpNet

variable {σ : Type}

/-! ## Paths of copies -/

/-- Definitions of copies on the host, of which each reads what the one before it writes, from a
first blob to a last one. -/
inductive CopyPath : String → List OperatorDef → String → Prop
  | nil (blob : String) : CopyPath blob [] blob
  | cons {source middle target : String} {d : OperatorDef} {ds : List OperatorDef}
      (h : d.Copies source middle) (hrest : CopyPath middle ds target) :
      CopyPath source (d :: ds) target

namespace CopyPath

variable {s : Store} {ws source middle target : String} {d : OperatorDef} {ds : List OperatorDef}

theorem concat (h : CopyPath source ds middle) (hlast : d.Copies middle target) :
    CopyPath source (ds ++ [d]) target := by
  induction h with
  | nil => exact .cons hlast (.nil target)
  | cons hfirst _ ih => exact .cons hfirst (ih hlast)

/-- The definitions of a path dispatch one after another, once its first blob is there. -/
theorem exists_dispatched [Inhabited σ] (h : CopyPath source ds target)
    (hsource : s.has ws source) : ∃ (ops : List (Operator σ)) (s' : Store),
      Registry.builtin.Dispatched ws s ds ops s' ∧
        ∀ op ∈ ops, op.body = DeviceContext.host.body Builtin.copy := by
  induction h generalizing s with
  | nil => exact ⟨[], s, .nil s, fun _ hop => absurd hop List.not_mem_nil⟩
  | @cons source middle target d ds h _ ih =>
    obtain ⟨op, hop, hbody⟩ := Registry.exists_createOperator_of_copies (σ := σ) h hsource
    -- the next definition finds what this one writes
    have hadds := (Registry.builtin.dispatches s ws d).adds_of_ok hop
    have hwritten : middle ∈ d.outputs := h.outputs ▸ List.mem_singleton_self middle
    obtain ⟨ops, s', hrest, hbodies⟩ := ih (hadds.has hwritten)
    exact ⟨op :: ops, s', .cons hop hrest, List.forall_mem_cons.2 ⟨hbody, hbodies⟩⟩

/-- The operators of a path are a relay from the first blob to the last one. -/
theorem exists_relay (h : CopyPath source ds target) {ops : List (Operator σ)} {b : BlobId}
    (hdefs : ops.map (·.binding.definition) = ds) (hbound : ∀ op ∈ ops, op.binding.Bound s ws)
    (hbodies : ∀ op ∈ ops, op.body = DeviceContext.host.body Builtin.copy)
    (hb : s.blob? ws source = some b) :
    ∃ c, s.blob? ws target = some c ∧ Relay b ops c := by
  induction h generalizing ops b with
  | nil =>
    rw [List.map_eq_nil_iff] at hdefs
    exact ⟨b, hb, hdefs ▸ .nil b⟩
  | @cons source middle target d ds h _ ih =>
    obtain ⟨op, rest, rfl, rfl, hrest⟩ := List.map_eq_cons_iff.1 hdefs
    obtain ⟨hop, hbound⟩ := List.forall_mem_cons.1 hbound
    obtain ⟨hbody, hbodies⟩ := List.forall_mem_cons.1 hbodies
    obtain ⟨hinputs, houtputs⟩ := hop
    rw [h.inputs, List.map_singleton, hb, eq_comm, List.map_eq_singleton_iff] at hinputs
    rw [h.outputs, List.map_singleton, eq_comm, List.map_eq_singleton_iff] at houtputs
    obtain ⟨b', hin, hb'⟩ := hinputs
    obtain rfl := Option.some.inj hb'
    obtain ⟨m, hout, hm⟩ := houtputs
    obtain ⟨c, hc, hrelay⟩ := ih hrest hbound hbodies hm.symm
    exact ⟨c, hc, .cons ⟨hbody, hin, hout, source, h.inputs⟩ hrelay⟩

end CopyPath

namespace Registry

/-! ## What nets deliver -/

/-- With the given pools the net can be built, in whatever workspace. Whenever it is run later, if
its source holds a payload then, the run succeeds, on any schedule, and its target holds the same
payload. -/
def Delivers (r : Registry σ) (pools : WorkerPools) (d : NetDef) (source target : String) : Prop :=
  ∀ s ws, ∃ net, (r.createNet pools s ws d).outcome = .ok net ∧
    ∀ net', net.Later net' → ∀ s' : Store, (r.createNet pools s ws d).store.Extends s' →
      ∀ p : Payload, s'.fetch ws source p.value.type = .ok p → ∀ mode,
        (∃ result order, net'.RunsTo mode s'.heap result order) ∧
          ∀ result order, net'.RunsTo mode s'.heap result order → result.outcome = .ok () ∧
            ({ s' with heap := result.heap } : Store).fetch ws target p.value.type = .ok p

/-- **A net of copies delivers.** -/
theorem delivers_of_copyPath [Inhabited σ] {pools : WorkerPools} {d : NetDef}
    {source target : String} (h : CopyPath source d.ops target)
    (htype : d.netType ∈ ["", "simple", "dag"]) (hserves : pools.Serves d)
    (hinputs : d.externalInputs = [source]) (houtputs : d.externalOutputs = [target]) :
    (builtin : Registry σ).Delivers pools d source target := by
  intro s ws
  obtain ⟨kind, hdag, heq⟩ := exists_createNet_eq (σ := σ) htype
  rw [heq]
  -- all operators dispatch, and they are a relay in the store that they leave
  have hsource : (prepare s ws d).has ws source := (adds_prepare s ws d).has (by simp [hinputs])
  obtain ⟨ops, s₁, hdispatched, hbodies⟩ := h.exists_dispatched (σ := σ) hsource
  obtain ⟨b, hb⟩ := Store.has_iff_exists.1 (hdispatched.adds.keeps.names.has hsource)
  obtain ⟨hleft, hops⟩ := createOperators_of_dispatched hdispatched
  obtain ⟨hdefs, hbound⟩ := bound_of_createOperators hops
  rw [hleft] at hbound
  obtain ⟨c, hc, hrelay⟩ := h.exists_relay hdefs hbound hbodies hb
  -- so the net has all that it promises
  have hpromised : missingOutput? s₁ ws d = none := by
    rw [missingOutput?, houtputs, Store.find?_missing_eq_none_iff]
    exact List.forall_mem_singleton.2 (Store.has_iff_exists.2 ⟨c, hc⟩)
  obtain ⟨net, hnet, rfl⟩ := exists_createNetOf hdispatched hpromised fun hkind =>
    hserves (hdag.1 hkind)
  refine ⟨net, hnet, fun net' hlater s' hext p hp mode =>
    ⟨⟨_, net'.exists_runsTo_run mode s'.heap⟩, fun result order hrun => ?_⟩⟩
  rw [store_createNetOf hdispatched] at hext
  have hp' := (Store.fetch_eq_ok_iff (hext _ _ _ hb)).1 hp
  obtain ⟨hok, htarget⟩ := Net.relays_of_runsTo hnet hrelay hlater hrun hp'
  have hc' : ({ s' with heap := result.heap } : Store).blob? ws target = some c := hext _ _ _ hc
  exact ⟨hok, (Store.fetch_eq_ok_iff hc').2 htarget⟩

end Registry
end OpNet
