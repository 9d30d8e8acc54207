import OpNet.Proofs.Net.Constancy

/-!
# Relays

A row of copies of which each reads what the one before it writes is a relay: it hands on what there
is in its first blob. On the way a blob may be visited again and overwritten, by what is handed on
itself. As every operator touches what the next one touches, a dag net has no choice but to run the
row in order.

* `Operator.Copies`, `Relay` — a copy from one blob to another, and a row of them.
* `Causal.eq_range` — where neighbours clash, the order of the list is the only causal order, and
  `Run.heap_eq_of_steps` — so a run of a dag net leaves the very payloads where a run in order does.
* `Relay.runInOrder` — what a relay hands on, run in order.
* `Net.relays_of_runsTo` — so do the runs of a net of either kind, the later ones as well as the
  first.
-/

set_option autoImplicit false

namespace OpNet

variable {σ : Type}

/-! ## Rows of copies -/

/-- The operator makes one blob share the payload of another one, or of itself. -/
structure Operator.Copies (op : Operator σ) (source target : BlobId) : Prop where
  body : op.body = DeviceContext.host.body Builtin.copy
  inputs : op.binding.inputs = [source]
  outputs : op.binding.outputs = [target]
  named : ∃ name, op.binding.definition.inputs = [name]

/-- Copies of which each reads what the one before it writes, from a first blob to a last one. -/
inductive Relay : BlobId → List (Operator σ) → BlobId → Prop
  | nil (b : BlobId) : Relay b [] b
  | cons {source middle target : BlobId} {op : Operator σ} {ops : List (Operator σ)}
      (h : op.Copies source middle) (hrest : Relay middle ops target) :
      Relay source (op :: ops) target

section Copies

variable {op op' : Operator σ} {source target : BlobId}

theorem Operator.Copies.of_fixed_eq (h : op.Copies source target) (heq : op'.fixed = op.fixed) :
    op'.Copies source target := by
  obtain ⟨hbase, hbody⟩ := Prod.mk.inj heq
  obtain ⟨name, hname⟩ := h.named
  exact ⟨hbody.trans h.body, (congrArg Binding.inputs hbase).trans h.inputs,
    (congrArg Binding.outputs hbase).trans h.outputs,
    name, (congrArg (·.definition.inputs) hbase).trans hname⟩

theorem Operator.Copies.isLocal (h : op.Copies source target) : op.Local := by
  obtain ⟨name, hname⟩ := h.named
  exact Builtin.local_copy h.body h.inputs h.outputs hname

/-- If there is something to copy, the very payload is shared. -/
theorem Operator.Copies.execute (h : op.Copies source target) {heap : Heap} {p : Payload}
    (hp : heap.content source = some p) (mode : Mode) :
    (op.execute mode heap).outcome = .ok () ∧
      (op.execute mode heap).heap.content target = some p := by
  obtain ⟨name, hname⟩ := h.named
  obtain ⟨cause, hreport⟩ := Builtin.report_copy h.body h.inputs h.outputs hname
  have hcopied : op.report mode op.inner heap =
      { inner := op.inner, heap := heap.share target source } := by
    rw [hreport, Builtin.copied, Heap.value?, hp]
    rfl
  rw [op.outcome_execute_eq_ok_iff, op.heap_execute, hcopied]
  refine ⟨rfl, ?_⟩
  rw [Heap.content, Heap.cell_share_self]
  exact hp

end Copies

/-! ## In order -/

section InOrder

variable {mode : Mode} {ops ops' : List (Operator σ)} {source target : BlobId} {heap : Heap}
  {p : Payload}

theorem Relay.of_map_fixed_eq (h : Relay source ops target)
    (heq : ops'.map Operator.fixed = ops.map Operator.fixed) : Relay source ops' target := by
  induction h generalizing ops' with
  | nil b =>
    rw [List.map_nil, List.map_eq_nil_iff] at heq
    exact heq ▸ .nil b
  | cons h _ ih =>
    rw [List.map_cons, List.map_eq_cons_iff] at heq
    obtain ⟨op', rest', rfl, hop, hrest⟩ := heq
    exact .cons (h.of_fixed_eq hop) (ih hrest)

theorem Relay.isLocal (h : Relay source ops target) : ∀ op ∈ ops, op.Local := by
  induction h with
  | nil => exact fun _ hop => absurd hop List.not_mem_nil
  | cons h _ ih => exact List.forall_mem_cons.2 ⟨h.isLocal, ih⟩

/-- **A relay hands on what there is.** By induction along the row: what was handed on so far is what
the next operator finds, whatever else was overwritten with it. -/
theorem Relay.runInOrder (h : Relay source ops target) (hp : heap.content source = some p)
    (mode : Mode) : (runInOrder mode ops heap).outcome = .ok () ∧
      (runInOrder mode ops heap).heap.content target = some p := by
  induction h generalizing heap with
  | nil => exact ⟨rfl, hp⟩
  | cons h _ ih =>
    obtain ⟨hok, hnext⟩ := h.execute hp mode
    rw [OpNet.runInOrder]
    dsimp only
    rw [hok]
    exact ih hnext

/-- An operator of a relay writes what the next one reads. -/
theorem Relay.clash_succ (h : Relay source ops target) {i : Nat} (hi : i + 1 < ops.length) :
    Clash ops i (i + 1) := by
  induction h generalizing i with
  | nil => cases hi
  | @cons source middle target op ops h hrest ih =>
    cases i with
    | zero =>
      cases hrest with
      | nil => exact absurd hi (Nat.lt_irrefl 1)
      | @cons _ _ _ next _ hnext =>
        refine ⟨middle, .inl ⟨⟨op, rfl, ?_⟩, next, rfl, ?_⟩⟩
        · rw [h.outputs]
          exact List.mem_singleton_self middle
        · rw [Operator.blobs, hnext.inputs]
          exact List.mem_cons_self
    | succ i =>
      -- positions in the rest of the row are one less
      obtain ⟨b, hclash⟩ := ih (Nat.lt_of_succ_lt_succ hi)
      exact ⟨b, hclash⟩

end InOrder

/-! ## By dependencies -/

/-- **Where neighbours clash there is no choice.** The only causal order is that of the list. -/
theorem Causal.eq_range {ops : List (Operator σ)} {order : List Nat} (h : Causal ops order)
    (hclash : ∀ i, i + 1 < ops.length → Clash ops i (i + 1)) :
    order = List.range order.length := by
  induction h with
  | nil => rfl
  | @snoc order i _ hi hnew hearlier ih =>
    rw [ih, List.mem_range] at hnew
    have hlast : i = order.length := by
      by_contra hne
      obtain ⟨j, rfl⟩ : ∃ j, i = j + 1 := ⟨i - 1, by omega⟩
      have hj := hearlier j (Nat.lt_succ_self j) (hclash j hi)
      rw [ih, List.mem_range] at hj
      omega
    rw [List.length_append, List.length_singleton, List.range_succ, ← ih, hlast]

namespace Run

variable {nodes : List Node} {g : ChainGraph} {mode : Mode} {ops : List (Operator σ)} {heap : Heap}
  {r : Run σ}

/-- **Where neighbours clash a dag net is a simple net.** If the operators succeed in order, a run on
any schedule succeeds and leaves the same payloads in the same blobs. -/
theorem heap_eq_of_steps (hg : g.QuotientOf nodes) (hops : ops.length = nodes.length)
    (hclash : ∀ {i j}, i < j → Clash ops i j → Reaches nodes i j)
    (hlocal : ∀ op ∈ ops, op.Local) (hnext : ∀ i, i + 1 < ops.length → Clash ops i (i + 1))
    (hok : (runInOrder mode ops heap).outcome = .ok ()) (h : Steps g mode (init g ops heap) r)
    (hover : r.Over) : r.outcome = .ok () ∧ r.heap = (runInOrder mode ops heap).heap := by
  have hr : r.Reachable nodes g mode := ⟨hg, ops, heap, hops, h⟩
  have hsucceed : r.outcome = .ok () :=
    (outcome_eq_ok_iff_of_steps hg hops hclash hlocal (fun _ => rfl) h hover).2
      (runInOrder_outcome_eq_ok_iff.1 hok)
  have hpanic := not_panicked_of_steps hg hops hclash hlocal (fun _ => rfl) h
  have hclean : r.Clean := fun i => ⟨hpanic i, (hr.outcome_eq_ok_iff hover hpanic).1 hsucceed i⟩
  -- all operators have finished, and the only order in which they can is that of the list
  have hall : r.finished.Perm (List.range ops.length) :=
    hops ▸ hr.finished_perm_of_over hclean hover
  have hfinished : r.finished = List.range ops.length := by
    rw [(causal_of_steps hg hops hclash h).eq_range hnext, hall.length_eq, List.length_range]
  refine ⟨hsucceed, ?_⟩
  rw [(replays_of_steps hg hops h).heap_eq, hfinished, (runInOrder_eq_replay hok).2]

end Run

/-! ## Nets of either kind -/

/-- **A net that is a relay hands on what there is**, on every schedule, and however often it was run
before. -/
theorem Net.relays_of_runsTo {r : Registry σ} {pools : WorkerPools} {kind : NetKind} {s : Store}
    {ws : String} {d : NetDef} {net net' : Net σ} {source target : BlobId}
    (hnet : (r.createNetOf pools kind s ws d).outcome = .ok net)
    (hrelay : Relay source net.ops target) (hlater : net.Later net') {mode : Mode} {heap : Heap}
    {result : NetRun σ} {order : List Nat} (hrun : net'.RunsTo mode heap result order)
    {p : Payload} (hp : heap.content source = some p) :
    result.outcome = .ok () ∧ result.heap.content target = some p := by
  have hrelay' := hrelay.of_map_fixed_eq hlater.map_fixed
  cases kind with
  | simple =>
    obtain ⟨simple, rfl⟩ := exists_of_map_eq_ok hnet
    obtain ⟨simple', rfl⟩ := hlater.exists_simple
    cases hrun with
    | simple => exact hrelay'.runInOrder hp mode
  | dag =>
    obtain ⟨dag, rfl⟩ := exists_of_map_eq_ok hnet
    obtain ⟨dag', rfl, hlater'⟩ := hlater.exists_dag
    obtain ⟨hg, -⟩ := DagNet.quotientOf_of_later hnet hlater'
    obtain ⟨ops, graph, hops, hgraph, -, rfl⟩ := Registry.createNetOf_dag_eq_ok_iff.1 hnet
    obtain ⟨hdefs, hbound⟩ := Registry.bound_of_instantiate hops
    have hseated := Seated.of_later ⟨hdefs, hbound, hrelay.isLocal⟩ (quotientOf_dependencies hgraph)
      hlater'
    obtain ⟨hok, htarget⟩ := hrelay'.runInOrder hp mode
    cases hrun with
    | dag hsteps hover =>
      obtain ⟨hsucceed, hheap⟩ := Run.heap_eq_of_steps hg hseated.length_eq hseated.reaches_of_clash
        hseated.isLocal (fun _ => hrelay'.clash_succ) hok hsteps hover
      exact ⟨hsucceed, hheap ▸ htarget⟩

end OpNet
