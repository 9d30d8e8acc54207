import OpNet.Definition
import OpNet.Store.Workspace

/-!
# Operators

An operator is a definition bound to the blobs of a workspace, together with a body that does the
work. The library knows nothing of a body but that it is a function: from the binding, a state of
its own and the contents of the blobs, to a new state, new contents and an outcome. The type `σ` of
the states is a parameter.

* `Binding` — the definition, the handles of its inputs and outputs, the engine that built the
  operator, and where it stands in its life.
* `Binding.bind` — resolves the inputs, which have to be there, then creates the outputs.
* `Body`, `Operator` — what an operator does, and the operator.
* `Operator.execute` — a run that keeps track of the operator's life and tells in every fault which
  operator failed. It is `Operator.start` followed by `Operator.finish`, so that a scheduler can
  tell an operator in flight from one that has finished.
-/

set_option autoImplicit false

namespace OpNet

/-! ## Bindings -/

/-- Where an operator stands in its life. -/
inductive Lifecycle where
  /-- The blobs are bound; dispatch has not finished with it. -/
  | constructed
  /-- Returned by dispatch. -/
  | ready
  /-- In flight, or left there by a panic. -/
  | running
  /-- The last run succeeded. -/
  | completed
  /-- The last run failed. -/
  | failed
deriving DecidableEq, Inhabited

/-- The name of a stage of life. -/
def Lifecycle.name : Lifecycle → String
  | constructed => "Constructed"
  | ready => "Ready"
  | running => "Running"
  | completed => "Completed"
  | failed => "Failed"

/-- A definition bound to blobs. -/
structure Binding where
  definition : OperatorDef
  inputs : List BlobId
  outputs : List BlobId
  /-- The engine that built the operator; empty for the default implementation. -/
  engine : String := ""
  state : Lifecycle := .constructed
deriving Inhabited

/-- The handles of names that have to be there; the first one missing is the fault. -/
def Store.resolve (s : Store) (ws : String) : List String → Except Fault (List BlobId)
  | [] => .ok []
  | name :: names => do
    let b ← s.getBlob ws name
    let bs ← s.resolve ws names
    .ok (b :: bs)

namespace Binding

/-- Binds a definition in a workspace. Its inputs have to be there; its outputs are created. -/
def bind (s : Store) (ws : String) (d : OperatorDef) : Except Fault (Binding × Store) := do
  let inputs ← s.resolve ws d.inputs
  let (outputs, s) := s.createAll ws d.outputs
  .ok ({ definition := d, inputs, outputs }, s)

/-- The blob of the input at a position. -/
def input (b : Binding) (i : Nat) : Outcome BlobId := nth b.inputs i

/-- The blob of the output at a position. -/
def output (b : Binding) (k : Nat) : Outcome BlobId := nth b.outputs k

/-- The arguments of the definition. -/
def args (b : Binding) : List Argument := b.definition.args

/-- A fault that says which operator failed. -/
def executionFault (b : Binding) (text : String) : Fault :=
  .execution b.definition.opType b.definition.name text

/-- A fault of a run, with the operator named in it. -/
def tagFault (b : Binding) : Fault → Fault
  | .execution opType name text => .execution opType name text
  | cause => b.executionFault cause.message

end Binding

/-! ## Bodies -/

/-- Whether a run waits for the device or leaves waiting to the device. -/
inductive Mode where
  | sync
  | async
deriving DecidableEq, Inhabited

/-- What a run of a body leaves behind: its state, the contents of the blobs, the lines it has
reported, and how it ended. A failed run keeps what it changed. -/
structure Report (σ : Type) where
  inner : σ
  heap : Heap
  trace : List String := []
  outcome : Outcome Unit := .ok ()

/-- A run of an operator, without the bookkeeping. -/
abbrev Action (σ : Type) := Binding → σ → Heap → Report σ

/-- What an operator does. Unless it says otherwise, it does the same in both modes. -/
structure Body (σ : Type) where
  run : Action σ
  runAsync : Action σ := run

/-- The action for a mode. -/
def Body.action {σ : Type} (body : Body σ) : Mode → Action σ
  | .sync => body.run
  | .async => body.runAsync

/-! ## Operators -/

/-- A bound definition with a body and the state of the body. -/
structure Operator (σ : Type) where
  binding : Binding
  inner : σ
  body : Body σ

/-- What a run of an operator leaves behind. -/
structure Execution (σ : Type) where
  op : Operator σ
  heap : Heap
  trace : List String := []
  outcome : Outcome Unit := .ok ()

namespace Operator

variable {σ : Type}

/-- Where the operator stands in its life. -/
def state (op : Operator σ) : Lifecycle := op.binding.state

/-- The operator at another stage of its life. -/
def withState (op : Operator σ) (state : Lifecycle) : Operator σ :=
  { op with binding := { op.binding with state } }

/-- Runs the body and nothing else. -/
def run (mode : Mode) (op : Operator σ) (heap : Heap) : Execution σ :=
  let report := op.body.action mode op.binding op.inner heap
  { op := { op with inner := report.inner }
    heap := report.heap
    trace := report.trace
    outcome := report.outcome }

/-- Puts an operator in flight. -/
def start (op : Operator σ) : Operator σ := op.withState .running

/-- Runs an operator in flight and records how the run ended. After a panic the operator stays where
it is. -/
def finish (mode : Mode) (op : Operator σ) (heap : Heap) : Execution σ :=
  let e := op.run mode heap
  match e.outcome with
  | .ok () => { e with op := e.op.withState .completed }
  | .error (.fault cause) =>
    { e with
      op := e.op.withState .failed
      outcome := .error (.fault (op.binding.tagFault cause)) }
  | .error (.panic _) => e

/-- Runs an operator, keeping track of its life. -/
def execute (mode : Mode) (op : Operator σ) (heap : Heap) : Execution σ :=
  op.start.finish mode heap

end Operator

/-! ## Operators on a device -/

/-- How runs are wrapped on a kind of device: what happens when an operator is built for it, before
each run, and after each run that waits for the device. -/
structure DeviceContext (σ : Type) where
  device : Device
  /-- The lines reported when an operator is built. -/
  onBuild : Placement → List String := fun _ => []
  /-- Makes the device current. -/
  switch : Placement → σ → σ × List String := fun _ inner => (inner, [])
  /-- Waits until the work on the device is done. -/
  wait : Placement → σ → σ × List String × Outcome Unit := fun _ inner => (inner, [], .ok ())

namespace DeviceContext

variable {σ : Type}

/-- The host: nothing to switch and nothing to wait for. -/
def host : DeviceContext σ := { device := .cpu }

/-- Runs a kernel on the device without waiting. -/
def launch (cx : DeviceContext σ) (kernel : Action σ) : Action σ := fun b inner heap =>
  let (inner, before) := cx.switch b.definition.placement inner
  let report := kernel b inner heap
  { report with trace := before ++ report.trace }

/-- Runs a kernel on the device and waits, if it has not failed. -/
def launchAndWait (cx : DeviceContext σ) (kernel : Action σ) : Action σ := fun b inner heap =>
  let report := cx.launch kernel b inner heap
  match report.outcome with
  | .error _ => report
  | .ok () =>
    let (inner, after, outcome) := cx.wait b.definition.placement report.inner
    { inner, heap := report.heap, trace := report.trace ++ after, outcome }

/-- The body of an operator made from a kernel. -/
def body (cx : DeviceContext σ) (kernel : Action σ) : Body σ where
  run := cx.launchAndWait kernel
  runAsync := cx.launch kernel

end DeviceContext
end OpNet
