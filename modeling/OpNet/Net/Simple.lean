import OpNet.Net.Build

/-!
# Simple nets

The operators of a simple net run one after another in the order of the definition; the first one
that does not succeed ends the run.

* `runInOrder` — the run.
-/

set_option autoImplicit false

namespace OpNet

variable {σ : Type}

/-- What a run of a net leaves behind. -/
structure NetRun (σ : Type) where
  ops : List (Operator σ)
  heap : Heap
  trace : List String := []
  outcome : Outcome Unit := .ok ()

/-- Runs operators one after another, up to the first that does not succeed. -/
def runInOrder (mode : Mode) : List (Operator σ) → Heap → NetRun σ
  | [], heap => { ops := [], heap }
  | op :: ops, heap =>
    let first := op.execute mode heap
    match first.outcome with
    | .error stop =>
      { ops := first.op :: ops, heap := first.heap, trace := first.trace, outcome := .error stop }
    | .ok () =>
      let rest := runInOrder mode ops first.heap
      { rest with ops := first.op :: rest.ops, trace := first.trace ++ rest.trace }

/-- A net whose operators run in the order of its definition. -/
structure SimpleNet (σ : Type) where
  name : String
  ops : List (Operator σ)

/-- Builds a simple net. -/
def Construction.simpleNet (built : Construction σ) (d : NetDef) : Outcome (SimpleNet σ) :=
  built.outcome.map fun ops => { name := d.name, ops }

/-- Runs the net once. -/
def SimpleNet.run (mode : Mode) (net : SimpleNet σ) (heap : Heap) : NetRun σ :=
  runInOrder mode net.ops heap

end OpNet
