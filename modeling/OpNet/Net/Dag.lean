import OpNet.Net.Pool
import OpNet.Net.Schedule
import OpNet.Net.Simple

/-!
# Nets run by their dependencies

A dag net runs its operators in any order that their dependencies allow. `Run` has all these orders;
`DagNet.run` follows one of them.

* `Construction.dagNet` — builds a dag net: the graph of its operators, that of its chains, and the
  pool of its workers, which comes last.
* `Net` — a net of either kind, with the operations that the kinds have in common.
-/

set_option autoImplicit false

namespace OpNet

variable {σ : Type}

/-- A net whose operators run by their dependencies. -/
structure DagNet (σ : Type) where
  name : String
  ops : List (Operator σ)
  nodes : List Node
  graph : ChainGraph
  workers : Nat

/-- Builds a dag net. It has at least one worker. -/
def Construction.dagNet (built : Construction σ) (pools : WorkerPools) (d : NetDef) :
    Outcome (DagNet σ) := do
  let ops ← built.outcome
  let nodes := dependencies d.ops
  let graph ← ChainGraph.ofNodes nodes
  pools.startFor d
  .ok { name := d.name, ops, nodes, graph, workers := max 1 d.workers }

namespace DagNet

/-- The start of a run of the net. -/
def start (net : DagNet σ) (heap : Heap) : Run σ := Run.init net.graph net.ops heap

/-- Runs the net once. -/
def run (mode : Mode) (net : DagNet σ) (heap : Heap) : NetRun σ :=
  let r := (net.start heap).drain net.graph mode
  { ops := r.ops, heap := r.heap, trace := r.trace, outcome := r.outcome }

end DagNet

/-! ## Nets of either kind -/

/-- A net of either kind. -/
inductive Net (σ : Type) where
  | simple (net : SimpleNet σ)
  | dag (net : DagNet σ)

namespace Net

/-- The name of a net. -/
def name : Net σ → String
  | simple net => net.name
  | dag net => net.name

/-- The operators of a net, in the order of its definition. -/
def ops : Net σ → List (Operator σ)
  | simple net => net.ops
  | dag net => net.ops

/-- The net with its operators in other states. -/
def withOps (net : Net σ) (ops : List (Operator σ)) : Net σ :=
  match net with
  | simple net => .simple { net with ops }
  | dag net => .dag { net with ops }

/-- Runs a net once. -/
def run (mode : Mode) (net : Net σ) (heap : Heap) : NetRun σ :=
  match net with
  | simple net => net.run mode heap
  | dag net => net.run mode heap

end Net

/-- Builds a net of a kind from its operators. -/
def Construction.net (built : Construction σ) (pools : WorkerPools) (kind : NetKind) (d : NetDef) :
    Outcome (Net σ) :=
  match kind with
  | .simple => (built.simpleNet d).map .simple
  | .dag => (built.dagNet pools d).map .dag

/-- What building a net leaves behind: the store, the lines reported, and the net or what went
wrong. -/
structure NetConstruction (σ : Type) where
  store : Store
  trace : List String := []
  outcome : Outcome (Net σ)

namespace Registry

/-- Builds a net of a given kind. -/
def createNetOf (r : Registry σ) (pools : WorkerPools) (kind : NetKind) (s : Store) (ws : String)
    (d : NetDef) : NetConstruction σ :=
  let built := r.instantiate s ws d
  { store := built.store, trace := built.trace, outcome := built.net pools kind d }

/-- Builds the net that a definition describes. -/
def createNet (r : Registry σ) (pools : WorkerPools) (s : Store) (ws : String) (d : NetDef) :
    NetConstruction σ :=
  match NetKind.parse d.netType with
  | .error cause => { store := s, outcome := .error (.fault cause) }
  | .ok kind => r.createNetOf pools kind s ws d

end Registry
end OpNet
