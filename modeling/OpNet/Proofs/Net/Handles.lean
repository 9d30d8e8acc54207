import OpNet.Proofs.Net.Building
import OpNet.Proofs.Net.Constancy
import OpNet.Session.Blobs
import OpNet.Session.Operators

/-!
# Operators stay bound to their workspace

The handles of an operator are resolved once, when it is built. After that names are only ever
added, so that a handle remains the one that its name has, whatever is done in the workspace later
and however often the operator runs. Operators that name the same blob therefore share it.

* `Registry.bound_of_mem_calls`, `Registry.bound_of_mem_calls_instantiate` — every binding that was
  handed to a factory is bound, be it used or not.
* `World`, `World.Steps` — all that is there, and what any operations make of it; `World.Sound`
  holds of every world that can be reached.
* `World.handles_shared` — so a handle is at any later time what the name resolves to.
-/

set_option autoImplicit false

namespace OpNet

variable {σ : Type}

/-! ## Bindings handed to factories -/

theorem Binding.Bound.of_base_eq {s : Store} {ws : String} {b b' : Binding} (h : b.Bound s ws)
    (heq : b'.base = b.base) : b'.Bound s ws := by
  have hbase : b.base.Bound s ws := ⟨h.inputs, h.outputs⟩
  rw [← heq] at hbase
  exact ⟨hbase.inputs, hbase.outputs⟩

namespace Registry

variable {r : Registry σ} {s : Store} {ws : String}

theorem bound_of_mem_calls {d : OperatorDef} {call : Call σ}
    (h : call ∈ (r.createOperator s ws d).calls) :
    call.binding.Bound (r.createOperator s ws d).store ws := by
  have hways := r.dispatches s ws d
  generalize r.createOperator s ws d = result at *
  cases hways with
  | rejected | unrouted | unbound => cases h
  | called _ _ _ _ hbound =>
    obtain ⟨route, -, rfl⟩ := List.mem_map.1 h
    exact hbound

theorem bound_of_mem_calls_createOperators {ds : List OperatorDef} {call : Call σ}
    (h : call ∈ (r.createOperators ws s ds).calls) :
    call.binding.Bound (r.createOperators ws s ds).store ws := by
  induction ds generalizing s with
  | nil => cases h
  | cons d ds ih =>
    rw [createOperators] at h ⊢
    dsimp only at h ⊢
    split at h
    · exact bound_of_mem_calls h
    · rcases List.mem_append.1 h with hfirst | hrest
      · exact (bound_of_mem_calls hfirst).mono (extends_createOperators _ ds)
      · exact ih hrest

theorem bound_of_mem_calls_instantiate {d : NetDef} {call : Call σ}
    (h : call ∈ (r.instantiate s ws d).calls) :
    call.binding.Bound (r.instantiate s ws d).store ws := by
  rw [instantiate_eq] at h ⊢
  exact bound_of_mem_calls_createOperators h

/-- The operators of a net that was built are bound. -/
theorem bound_of_createNetOf {pools : WorkerPools} {kind : NetKind} {d : NetDef} {net : Net σ}
    (h : (r.createNetOf pools kind s ws d).outcome = .ok net) {op : Operator σ}
    (hop : op ∈ net.ops) : op.binding.Bound (r.instantiate s ws d).store ws :=
  (bound_of_instantiate (Construction.outcome_of_net_eq_ok h)).2 op hop

end Registry

/-! ## Runs -/

theorem Operator.base_execute (op : Operator σ) (mode : Mode) (heap : Heap) :
    (op.execute mode heap).op.binding.base = op.binding.base := by
  have h := congrArg Prod.fst (op.fixed_execute mode heap)
  exact h

theorem Operator.base_runAs (op : Operator σ) (style : RunStyle) (heap : Heap) :
    (op.runAs style heap).op.binding.base = op.binding.base := by
  rw [runAs]
  split
  · exact op.base_execute style.mode heap
  · rfl

/-! ## Worlds -/

/-- All that is there: the store, every binding that was made so far, and the operators and nets
that were built, each with the workspace that it was built in. -/
structure World (σ : Type) where
  store : Store := {}
  bindings : List (String × Binding) := []
  operators : List (String × Operator σ) := []
  nets : List (String × Net σ) := []

/-- What was built in a workspace, if it was. -/
def Outcome.keep {α : Type} (ws : String) : Outcome α → List (String × α)
  | .ok a => [(ws, a)]
  | .error _ => []

theorem Outcome.mem_keep {α : Type} {ws ws' : String} {outcome : Outcome α} {a : α} :
    (ws', a) ∈ outcome.keep ws ↔ ws' = ws ∧ outcome = .ok a := by
  cases outcome with
  | error stop => simp [keep]
  | ok a' => simp [keep, eq_comm]

/-- What a dispatch adds to a world. -/
def Dispatch.world (ws : String) (result : Dispatch σ) : World σ where
  store := result.store
  bindings := result.calls.map fun call => (ws, call.binding)
  operators := result.outcome.keep ws

/-- What the construction of a net adds to a world, together with the net that has come of it. -/
def Construction.world (ws : String) (outcome : Outcome (Net σ)) (built : Construction σ) :
    World σ where
  store := built.store
  bindings := built.calls.map fun call => (ws, call.binding)
  nets := outcome.keep ws

namespace World

/-- A world with all that another one adds to it. -/
def grow (w added : World σ) : World σ where
  store := added.store
  bindings := w.bindings ++ added.bindings
  operators := w.operators ++ added.operators
  nets := w.nets ++ added.nets

/-- The operations on a world. They may use any registry, with factories that build whatever they
like. A dag net may follow any schedule. -/
inductive Step (w : World σ) : World σ → Prop
  | blobs (ws : String) (c : BlobCommand) : Step w (w.grow { store := (c.run w.store ws).2 })
  /-- Binds a definition and makes an operator of it without dispatch. -/
  | assemble {ws : String} {d : OperatorDef} {b : Binding} {s : Store}
      (h : Binding.bind w.store ws d = .ok (b, s)) (inner : σ) (body : Body σ) :
      Step w (w.grow { store := s, bindings := [(ws, b)], operators := [(ws, ⟨b, inner, body⟩)] })
  | createOperator (r : Registry σ) (ws : String) (d : OperatorDef) :
      Step w (w.grow ((r.createOperator w.store ws d).world ws))
  /-- Builds a net. If an operator fails, or the pool of the net, then the operators built so far
  are gone, but what they were bound to is on record. -/
  | createNet (r : Registry σ) (pools : WorkerPools) (kind : NetKind) (ws : String) (d : NetDef) :
      Step w (w.grow ((r.instantiate w.store ws d).world ws
        (r.createNetOf pools kind w.store ws d).outcome))
  | runOperator {before after : List (String × Operator σ)} {ws : String} {op : Operator σ}
      (h : w.operators = before ++ (ws, op) :: after) (style : RunStyle) :
      Step w { w with
        store := { w.store with heap := (op.runAs style w.store.heap).heap }
        operators := before ++ (ws, (op.runAs style w.store.heap).op) :: after }
  | runNet {before after : List (String × Net σ)} {ws : String} {net : Net σ} {mode : Mode}
      {result : NetRun σ} {order : List Nat} (h : w.nets = before ++ (ws, net) :: after)
      (hrun : net.RunsTo mode w.store.heap result order) :
      Step w { w with
        store := { w.store with heap := result.heap }
        nets := before ++ (ws, net.withOps result.ops) :: after }

/-- Some operations lead from one world to another. -/
inductive Steps (w : World σ) : World σ → Prop
  | refl : Steps w w
  | step {w' w'' : World σ} (h : Steps w w') (hstep : Step w' w'') : Steps w w''

/-- Some operations lead to the world, from one in which there is nothing. -/
def Reachable (w : World σ) : Prop := Steps {} w

/-- The bindings in a workspace: those that were made so far, and those of the operators as they
are now. -/
inductive Has (w : World σ) (ws : String) : Binding → Prop
  | made {b : Binding} (h : (ws, b) ∈ w.bindings) : Has w ws b
  | operator {op : Operator σ} (h : (ws, op) ∈ w.operators) : Has w ws op.binding
  | net {net : Net σ} {op : Operator σ} (h : (ws, net) ∈ w.nets) (hop : op ∈ net.ops) :
      Has w ws op.binding

/-- All bindings are bound to the blobs of their definitions. -/
def Sound (w : World σ) : Prop := ∀ ws b, w.Has ws b → b.Bound w.store ws

section Sound

variable {w w' added : World σ} {ws : String} {b : Binding}

theorem Has.of_grow (h : (w.grow added).Has ws b) : w.Has ws b ∨ added.Has ws b := by
  cases h with
  | made h => exact (List.mem_append.1 h).imp .made .made
  | operator h => exact (List.mem_append.1 h).imp .operator .operator
  | net h hop => exact (List.mem_append.1 h).imp (.net · hop) (.net · hop)

theorem Sound.grow (h : w.Sound) (hadded : added.Sound) (hext : w.store.Extends added.store) :
    (w.grow added).Sound := by
  intro ws b hb
  rcases hb.of_grow with hold | hnew
  · exact (h ws b hold).mono hext
  · exact hadded ws b hnew

/-- A world in which there is nothing but a store. -/
theorem sound_store (s : Store) : ({ store := s } : World σ).Sound := by
  intro ws b hb
  cases hb with
  | made h | operator h | net h => exact absurd h List.not_mem_nil

/-- What a dispatch adds is bound. -/
theorem sound_dispatch (r : Registry σ) (s : Store) (ws : String) (d : OperatorDef) :
    ((r.createOperator s ws d).world ws).Sound := by
  intro ws' b hb
  cases hb with
  | made h =>
    obtain ⟨call, hcall, heq⟩ := List.mem_map.1 h
    obtain ⟨rfl, rfl⟩ := Prod.mk.inj heq
    exact Registry.bound_of_mem_calls hcall
  | operator h =>
    obtain ⟨rfl, hok⟩ := Outcome.mem_keep.1 h
    exact (Registry.bound_of_createOperator hok).2
  | net h => exact absurd h List.not_mem_nil

/-- What the construction of a net adds is bound, be it finished or not. -/
theorem sound_construction (r : Registry σ) (pools : WorkerPools) (kind : NetKind) (s : Store)
    (ws : String) (d : NetDef) :
    ((r.instantiate s ws d).world ws (r.createNetOf pools kind s ws d).outcome).Sound := by
  intro ws' b hb
  cases hb with
  | made h =>
    obtain ⟨call, hcall, heq⟩ := List.mem_map.1 h
    obtain ⟨rfl, rfl⟩ := Prod.mk.inj heq
    exact Registry.bound_of_mem_calls_instantiate hcall
  | operator h => exact absurd h List.not_mem_nil
  | net h hop =>
    obtain ⟨rfl, hok⟩ := Outcome.mem_keep.1 h
    exact Registry.bound_of_createNetOf hok hop

/-- Commands on blobs add names at most. -/
theorem extends_blobs (s : Store) (ws : String) (c : BlobCommand) :
    s.Extends (c.run s ws).2 := by
  cases c with
  | create name => exact s.extends_create ws name
  | feed name v => exact s.extends_create ws name
  | use name what =>
    rw [BlobCommand.run]
    split
    · exact .refl s
    · cases what <;> exact .refl s
  | share name sourceSpace source =>
    rw [BlobCommand.run]
    split <;> exact .refl s
  | same name otherSpace other =>
    rw [BlobCommand.run]
    split <;> exact .refl s
  | _ => exact .refl s

/-- No operation takes a name back. -/
theorem Step.extends (h : Step w w') : w.store.Extends w'.store := by
  cases h with
  | blobs ws c => exact extends_blobs w.store ws c
  | assemble hbind => exact (Binding.bound_of_bind hbind).2.2
  | createOperator r ws d => exact Registry.extends_createOperator w.store d
  | createNet r pools kind ws d => exact (Registry.keeps_instantiate r w.store ws d).names
  | runOperator | runNet => exact .refl w.store

theorem Steps.trans {w'' : World σ} (h : Steps w w') (h' : Steps w' w'') : Steps w w'' := by
  induction h' with
  | refl => exact h
  | step _ hstep ih => exact .step ih hstep

theorem Steps.extends (h : Steps w w') : w.store.Extends w'.store := by
  induction h with
  | refl => exact .refl w.store
  | step _ hstep ih => exact ih.trans hstep.extends

/-- An operator that is assembled is bound. -/
theorem sound_assemble {d : OperatorDef} {s s' : Store} (h : Binding.bind s ws d = .ok (b, s'))
    (inner : σ) (body : Body σ) :
    ({ store := s', bindings := [(ws, b)], operators := [(ws, ⟨b, inner, body⟩)] } :
      World σ).Sound := by
  have hbound := (Binding.bound_of_bind h).2.1
  intro ws' b' hb
  cases hb with
  | made h =>
    obtain ⟨rfl, rfl⟩ := Prod.mk.inj (List.mem_singleton.1 h)
    exact hbound
  | operator h =>
    obtain ⟨rfl, rfl⟩ := Prod.mk.inj (List.mem_singleton.1 h)
    exact hbound
  | net h => exact absurd h List.not_mem_nil

theorem mem_replace {α : Type} {before after : List α} {x y z : α}
    (h : x ∈ before ++ z :: after) : x = z ∨ x ∈ before ++ y :: after := by
  rw [List.mem_append, List.mem_cons] at h ⊢
  rcases h with h | h | h
  · exact .inr (.inl h)
  · exact .inl h
  · exact .inr (.inr (.inr h))

/-- After a run of an operator the bindings are those that were there before. -/
theorem Has.before_runOperator {before after : List (String × Operator σ)} {ws' : String}
    {op op' : Operator σ} {s : Store} (hops : w.operators = before ++ (ws', op) :: after)
    (hbase : op'.binding.base = op.binding.base)
    (h : Has { w with store := s, operators := before ++ (ws', op') :: after } ws b) :
    ∃ b', w.Has ws b' ∧ b.base = b'.base := by
  cases h with
  | made hmem => exact ⟨b, .made hmem, rfl⟩
  | net hmem hop => exact ⟨_, .net hmem hop, rfl⟩
  | operator hmem =>
    rcases mem_replace (y := (ws', op)) hmem with heq | hmem
    · obtain ⟨rfl, rfl⟩ := Prod.mk.inj heq
      exact ⟨_, .operator (hops ▸ List.mem_append_right _ List.mem_cons_self), hbase⟩
    · exact ⟨_, .operator (hops ▸ hmem), rfl⟩

/-- After a run of a net the bindings are those that were there before. -/
theorem Has.before_runNet {before after : List (String × Net σ)} {ws' : String}
    {net net' : Net σ} {s : Store} (hnets : w.nets = before ++ (ws', net) :: after)
    (hbases : net'.ops.map (·.binding.base) = net.ops.map (·.binding.base))
    (h : Has { w with store := s, nets := before ++ (ws', net') :: after } ws b) :
    ∃ b', w.Has ws b' ∧ b.base = b'.base := by
  cases h with
  | made hmem => exact ⟨b, .made hmem, rfl⟩
  | operator hmem => exact ⟨_, .operator hmem, rfl⟩
  | @net net'' op hmem hop =>
    rcases mem_replace (y := (ws', net)) hmem with heq | hmem
    · obtain ⟨rfl, rfl⟩ := Prod.mk.inj heq
      have hold : op.binding.base ∈ net.ops.map (·.binding.base) :=
        hbases ▸ List.mem_map_of_mem hop
      obtain ⟨op', hop', hbase⟩ := List.mem_map.1 hold
      exact ⟨_, .net (hnets ▸ List.mem_append_right _ List.mem_cons_self) hop', hbase.symm⟩
    · exact ⟨_, .net (hnets ▸ hmem) hop, rfl⟩

theorem Sound.of_bases (h : w.Sound) (hext : w.store.Extends w'.store)
    (hhas : ∀ ws b, w'.Has ws b → ∃ b', w.Has ws b' ∧ b.base = b'.base) : w'.Sound := by
  intro ws b hb
  obtain ⟨b', hb', hbase⟩ := hhas ws b hb
  exact ((h ws b' hb').of_base_eq hbase).mono hext

/-- **Every operation leaves the bindings bound**, those that are there and those that it adds. -/
theorem Sound.step (h : w.Sound) (hstep : Step w w') : w'.Sound := by
  have hext := hstep.extends
  -- constructions add bindings that are bound; runs add none and leave the handles of all
  cases hstep with
  | blobs ws c => exact h.grow (sound_store _) hext
  | assemble hbind inner body => exact h.grow (sound_assemble hbind inner body) hext
  | createOperator r ws d => exact h.grow (sound_dispatch r w.store ws d) hext
  | createNet r pools kind ws d => exact h.grow (sound_construction r pools kind w.store ws d) hext
  | runOperator hops style =>
    exact h.of_bases hext fun ws b hb => hb.before_runOperator hops (Operator.base_runAs ..)
  | @runNet _ _ _ net _ result _ hnets hrun =>
    have hbases := net.ops_withOps result.ops ▸ Net.bases_of_runsTo hrun
    exact h.of_bases hext fun ws b hb => hb.before_runNet hnets hbases

/-- **All bindings are bound in every world that can be reached.** -/
theorem Reachable.sound (h : w.Reachable) : w.Sound := by
  induction h with
  | refl => exact sound_store {}
  | step _ hstep ih => exact ih.step hstep

end Sound

end World

/-! ## Sharing -/

/-- The handles of names, one by one; past the end both lists fail alike. -/
theorem Store.nth_of_map_blob? {s : Store} {ws : String} {names : List String} {bs : List BlobId}
    (h : names.map (s.blob? ws) = bs.map some) (i : Nat) :
    nth bs i = (nth names i).bind fun name => Outcome.ofExcept (s.getBlob ws name) := by
  have hlen : names.length = bs.length := by simpa using congrArg List.length h
  have hget : (names[i]?).map (s.blob? ws) = (bs[i]?).map some := by
    simpa using congrArg (·[i]?) h
  unfold nth
  cases hname : names[i]? with
  | none =>
    rw [hname] at hget
    rw [Option.map_eq_none_iff.1 hget.symm, hlen]
    rfl
  | some name =>
    rw [hname] at hget
    obtain ⟨b, hb, hblob⟩ := Option.map_eq_some_iff.1 hget.symm
    rw [hb]
    change _ = Outcome.ofExcept (s.getBlob ws name)
    rw [getBlob, ← hblob]
    rfl

theorem Store.blob?_of_getBlob {s : Store} {ws name : String} {id : BlobId}
    (h : Outcome.ofExcept (s.getBlob ws name) = .ok id) : s.blob? ws name = some id := by
  rw [getBlob] at h
  cases hblob : s.blob? ws name with
  | none =>
    rw [hblob] at h
    cases h
  | some b =>
    rw [hblob] at h
    exact congrArg some (Except.ok.inj h)

namespace Binding

/-- A binding refers to a blob by a name: the name and the handle are at the same position, among
the inputs or among the outputs. -/
def Refers (b : Binding) (name : String) (id : BlobId) : Prop :=
  (∃ i, nth b.definition.inputs i = .ok name ∧ b.input i = .ok id) ∨
    ∃ k, nth b.definition.outputs k = .ok name ∧ b.output k = .ok id

/-- The handles of a binding are those that its names have in the store, and it shares the blobs of
these names with another binding. -/
structure Shares (s : Store) (ws : String) (b b' : Binding) : Prop where
  input_eq : ∀ i, b.input i =
    (nth b.definition.inputs i).bind fun name => Outcome.ofExcept (s.getBlob ws name)
  output_eq : ∀ k, b.output k =
    (nth b.definition.outputs k).bind fun name => Outcome.ofExcept (s.getBlob ws name)
  /-- They have a blob in common exactly if they have its name in common. -/
  eq_iff : ∀ name name' id id', b.Refers name id → b'.Refers name' id' →
    (id = id' ↔ name = name')
  /-- Whatever the blobs hold, fetching by the name gives what is at the handle. -/
  fetch_eq_ok_iff : ∀ name id, b.Refers name id → ∀ heap p,
    ({ s with heap } : Store).fetch ws name p.value.type = .ok p ↔ heap.content id = some p
  /-- What is stored through the handle of one is read through that of the other. -/
  value?_set : ∀ name id id', b.Refers name id → b'.Refers name id' →
    ∀ (heap : Heap) v, (heap.set id v).value? id' = some v

variable {s : Store} {ws : String} {b b' : Binding}

theorem Bound.blob?_of_refers (h : b.Bound s ws) {name : String} {id : BlobId}
    (hrefers : b.Refers name id) : s.blob? ws name = some id := by
  obtain ⟨i, hname, hid⟩ | ⟨k, hname, hid⟩ := hrefers
  · rw [input, Store.nth_of_map_blob? h.inputs, hname] at hid
    exact Store.blob?_of_getBlob hid
  · rw [output, Store.nth_of_map_blob? h.outputs, hname] at hid
    exact Store.blob?_of_getBlob hid

/-- Bindings that are bound in one workspace share its blobs. -/
theorem Bound.shares (h : b.Bound s ws) (h' : b'.Bound s ws) : b.Shares s ws b' where
  input_eq := Store.nth_of_map_blob? h.inputs
  output_eq := Store.nth_of_map_blob? h.outputs
  eq_iff name name' id id' hid hid' := by
    have hblob := h.blob?_of_refers hid
    have hblob' := h'.blob?_of_refers hid'
    constructor
    · rintro rfl
      exact Store.name_eq_of_blob?_eq hblob hblob'
    · rintro rfl
      exact Option.some.inj (hblob.symm.trans hblob')
  fetch_eq_ok_iff name id hid heap p := by
    have hblob : ({ s with heap } : Store).blob? ws name = some id := h.blob?_of_refers hid
    exact Store.fetch_eq_ok_iff hblob
  value?_set name id id' hid hid' heap v := by
    have hblob := h.blob?_of_refers hid
    obtain rfl := Option.some.inj (hblob.symm.trans (h'.blob?_of_refers hid'))
    rw [Heap.value?, Heap.content, Heap.cell_set_self]
    rfl

end Binding

/-- **Operators stay bound to their workspace.** A binding that was made at some time, for an
operator or for a factory that has declined, has at any later time the handles that the names of its
definition have. So it shares with any other binding, be it made before or after, the blobs that
both name. -/
theorem World.handles_shared {w w' : World σ} (h : w.Reachable) (hlater : w.Steps w')
    {ws : String} {b b' : Binding} (hb : w.Has ws b) (hb' : w'.Has ws b') :
    b.Shares w'.store ws b' := by
  have hbound := (h.sound ws b hb).mono hlater.extends
  have hreachable : w'.Reachable := Steps.trans h hlater
  exact hbound.shares (hreachable.sound ws b' hb')

namespace Fork

/-- A world with a blob. -/
def fedWorld : World Unit :=
  ({} : World Unit).grow { store := ((BlobCommand.feed "in" (.known (.byte 3))).run {} "").2 }

/-- The world with an operator that copies the blob. -/
def copyWorld : World Unit :=
  fedWorld.grow ((registry.createOperator fedWorld.store ""
    { opType := "Copy", inputs := ["in"], outputs := ["x"] }).world "")

/-- The operator, bound to the two blobs. -/
def copyOp : Operator Unit where
  binding :=
    { definition := { opType := "Copy", inputs := ["in"], outputs := ["x"] }
      inputs := [0]
      outputs := [1]
      state := .ready }
  inner := ()
  body := DeviceContext.host.body Builtin.copy

/-- The world after the operator has run. -/
def ranWorld : World Unit :=
  { copyWorld with
    store := { copyWorld.store with heap := (copyOp.execute .sync copyWorld.store.heap).heap }
    operators := [("", (copyOp.execute .sync copyWorld.store.heap).op)] }

/-- The world after the net was built. -/
def forkWorld : World Unit :=
  ranWorld.grow ((registry.instantiate ranWorld.store "" definition).world ""
    (registry.createNetOf .plentiful .simple ranWorld.store "" definition).outcome)

/-- The second operator of the net. -/
def reader : Operator Unit where
  binding :=
    { definition := { opType := "Copy", inputs := ["x"], outputs := ["y"] }
      inputs := [1]
      outputs := [2]
      state := .ready }
  inner := ()
  body := DeviceContext.host.body Builtin.copy

end Fork

open Fork in
/-- What the operator writes is what the net reads, which was built after the operator has run. -/
theorem World.fork_handles_shared : copyWorld.Reachable ∧ copyWorld.Steps forkWorld ∧
    copyWorld.Has "" copyOp.binding ∧ forkWorld.Has "" reader.binding ∧
    copyOp.binding.Shares forkWorld.store "" reader.binding ∧
    copyOp.binding.output 0 = .ok 1 ∧ reader.binding.input 0 = .ok 1 := by
  have hreachable : copyWorld.Reachable :=
    .step (.step .refl (.blobs "" (.feed "in" (.known (.byte 3))))) (.createOperator registry "" _)
  have hran : Step copyWorld ranWorld :=
    @Step.runOperator _ copyWorld [] [] "" copyOp rfl ⟨.sync, true⟩
  have hlater : copyWorld.Steps forkWorld :=
    .step (.step .refl hran) (.createNet registry .plentiful .simple "" definition)
  have hfirst : copyWorld.Has "" copyOp.binding := .operator (List.mem_of_getElem? (i := 0) rfl)
  have hsecond : forkWorld.Has "" reader.binding :=
    .net (List.mem_of_getElem? (i := 0) rfl) (List.mem_of_getElem? (i := 1) (a := reader) rfl)
  exact ⟨hreachable, hlater, hfirst, hsecond, handles_shared hreachable hlater hfirst hsecond, rfl,
    rfl⟩

end OpNet
