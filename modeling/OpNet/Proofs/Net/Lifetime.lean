import OpNet.Builtin
import OpNet.Net.Dag
import OpNet.Proofs.Dispatch.Binding
import OpNet.Proofs.Net.Order

/-!
# The life of a dag net

A dag net is built once and run any number of times. What its runs do to it is in its operators; the
graph that they follow stays the same, so that every run starts from the same counters, whatever
became of the runs before it.

* `Registry.createNetOf_dag_eq_ok_iff` — when a dag net is built, and which.
* `DagNet.Later` — what any number of runs can make of a net.
* `DagNet.reachable_of_steps` — what was shown for the schedules of a graph holds for all the runs
  of a net.
-/

set_option autoImplicit false

namespace OpNet

variable {σ : Type}

/-! ## Building -/

/-- Once a dag net has its operators, all depends on its pool. -/
theorem Construction.dagNet_eq {built : Construction σ} {ops : List (Operator σ)}
    (h : built.outcome = .ok ops) (pools : WorkerPools) (d : NetDef) :
    ∃ graph, ChainGraph.ofNodes (dependencies d.ops) = .ok graph ∧
      built.dagNet pools d = (pools.startFor d).map fun _ =>
        ⟨d.name, ops, dependencies d.ops, graph, max 1 d.workers⟩ := by
  obtain ⟨graph, hgraph⟩ := exists_ofNodes_dependencies d.ops
  refine ⟨graph, hgraph, ?_⟩
  rw [dagNet, h]
  dsimp only [bind, Except.bind]
  rw [hgraph]
  cases pools.startFor d <;> rfl

theorem Construction.dagNet_eq_ok_iff {built : Construction σ} {pools : WorkerPools} {d : NetDef}
    {net : DagNet σ} : built.dagNet pools d = .ok net ↔ ∃ ops graph, built.outcome = .ok ops ∧
      ChainGraph.ofNodes (dependencies d.ops) = .ok graph ∧ pools.Starts d ∧
      net = ⟨d.name, ops, dependencies d.ops, graph, max 1 d.workers⟩ := by
  cases hbuilt : built.outcome with
  | error stop => simp [dagNet, hbuilt, bind, Except.bind]
  | ok ops =>
    obtain ⟨graph, hgraph, heq⟩ := dagNet_eq hbuilt pools d
    rw [heq, hgraph, ← WorkerPools.startFor_eq_ok_iff]
    cases pools.startFor d <;> simp [Except.map, eq_comm]

theorem Registry.createNetOf_dag_eq_ok_iff {r : Registry σ} {pools : WorkerPools} {s : Store}
    {ws : String} {d : NetDef} {net : DagNet σ} :
    (r.createNetOf pools .dag s ws d).outcome = .ok (.dag net) ↔
      ∃ ops graph, (r.instantiate s ws d).outcome = .ok ops ∧
        ChainGraph.ofNodes (dependencies d.ops) = .ok graph ∧ pools.Starts d ∧
        net = ⟨d.name, ops, dependencies d.ops, graph, max 1 d.workers⟩ := by
  rw [← Construction.dagNet_eq_ok_iff]
  change ((r.instantiate s ws d).dagNet pools d).map Net.dag = .ok (.dag net) ↔ _
  cases (r.instantiate s ws d).dagNet pools d <;> simp [Except.map]

/-- A net has an operator for each definition. -/
theorem Registry.length_of_instantiate {r : Registry σ} {s : Store} {ws : String} {d : NetDef}
    {ops : List (Operator σ)} (h : (r.instantiate s ws d).outcome = .ok ops) :
    ops.length = d.ops.length := by
  rw [← (bound_of_instantiate h).1, List.length_map]

/-! ## Running -/

/-- What becomes of a net by being run: any number of times, each in any mode, on any contents of
the blobs and on any schedule. -/
inductive DagNet.Later (net : DagNet σ) : DagNet σ → Prop
  | new : Later net net
  | run {net' : DagNet σ} {mode : Mode} {heap : Heap} {e : Run σ} (h : Later net net')
      (hsteps : Run.Steps net'.graph mode (net'.start heap) e) (hover : e.Over) :
      Later net { net' with ops := e.ops }

theorem DagNet.Later.graph_eq {net net' : DagNet σ} (h : net.Later net') :
    net'.graph = net.graph := by
  induction h with
  | new => rfl
  | run _ _ _ ih => exact ih

theorem DagNet.Later.length_ops {net net' : DagNet σ} (h : net.Later net') :
    net'.ops.length = net.ops.length := by
  induction h with
  | new => rfl
  | run _ hsteps _ ih => exact (Run.length_ops_of_steps hsteps).trans ih

/-- The graph of a net fits its operators, however often it has been run. -/
theorem DagNet.quotientOf_of_later {r : Registry σ} {pools : WorkerPools} {s : Store} {ws : String}
    {d : NetDef} {net net' : DagNet σ}
    (hnet : (r.createNetOf pools .dag s ws d).outcome = .ok (.dag net)) (hlater : net.Later net') :
    net'.graph.QuotientOf (dependencies d.ops) ∧
      net'.ops.length = (dependencies d.ops).length := by
  obtain ⟨ops, graph, hops, hgraph, -, rfl⟩ := Registry.createNetOf_dag_eq_ok_iff.1 hnet
  rw [hlater.graph_eq, hlater.length_ops, length_dependencies]
  exact ⟨quotientOf_dependencies hgraph, Registry.length_of_instantiate hops⟩

/-- **The runs of a net follow the schedules of its graph**, the later ones as well as the first. -/
theorem DagNet.reachable_of_steps {r : Registry σ} {pools : WorkerPools} {s : Store} {ws : String}
    {d : NetDef} {net net' : DagNet σ}
    (hnet : (r.createNetOf pools .dag s ws d).outcome = .ok (.dag net)) (hlater : net.Later net')
    {mode : Mode} {heap : Heap} {e : Run σ}
    (hsteps : Run.Steps net'.graph mode (net'.start heap) e) :
    e.Reachable (dependencies d.ops) net'.graph mode := by
  obtain ⟨hg, hops⟩ := quotientOf_of_later hnet hlater
  exact ⟨hg, net'.ops, heap, hops, hsteps⟩

/-! ## A small net -/

namespace Fork

/-- A registry that knows how to copy. -/
def registry : Registry Unit :=
  (({} : Registry Unit).registerKernel "Copy" none .host fun _ =>
    { verdict := .built ((), Builtin.copy) }).2

/-- A copy, and two copies of the copy. -/
def definition : NetDef where
  name := "fork"
  ops := [{ opType := "Copy", inputs := ["in"], outputs := ["x"] },
    { opType := "Copy", inputs := ["x"], outputs := ["y"] },
    { opType := "Copy", inputs := ["x"], outputs := ["z"] }]

/-- Each copy is a chain of its own. -/
def graph : ChainGraph := ⟨[[0], [1], [2]], [[1, 2], [], []], [0, 1, 1]⟩

example : graph.roots = [0] := by decide

theorem ofNodes_eq : ChainGraph.ofNodes (dependencies definition.ops) = .ok graph := by
  have hnodes : dependencies definition.ops = [⟨[], [1, 2]⟩, ⟨[0], []⟩, ⟨[0], []⟩] := by cbv
  have hchains : chains [⟨[], [1, 2]⟩, ⟨[0], []⟩, ⟨[0], []⟩] = .ok [[0], [1], [2]] :=
    chainsOf_cons (by cbv) (chainsOf_cons (by cbv) (chainsOf_cons (by cbv) (by cbv)))
  rw [hnodes, ChainGraph.ofNodes, hchains]
  decide

/-- The operators of the net. -/
def ops : List (Operator Unit) :=
  match (registry.instantiate {} "" definition).outcome with
  | .ok ops => ops
  | .error _ => []

/-- The net. -/
def net : DagNet Unit := ⟨"fork", ops, dependencies definition.ops, graph, 1⟩

theorem createNetOf_eq :
    (registry.createNetOf .plentiful .dag {} "" definition).outcome = .ok (.dag net) :=
  Registry.createNetOf_dag_eq_ok_iff.2 ⟨ops, graph, rfl, ofNodes_eq, by decide, rfl⟩

/-- The contents of the blobs when there is something to copy. -/
def fed : Heap := ({} : Heap).set 0 (.known (.byte 3))

end Fork

end OpNet
