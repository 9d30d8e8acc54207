import OpNet.Operator
import OpNet.Script.Query

/-!
# Scripted operators

A small language for what an operator does, so that operators can be written down as data and nets
of them can be tried out.

* `Behaviour` — what a run does; a sequence stops at the first step that does not succeed.
* `Memory` — the state of a scripted operator: how often it has run, and the fault that waiting for
  the device will report.
* `Behaviour.action` — the run; it reports a line that says which operator runs.
* `DeviceContext.traced` — a device that reports what it is asked to do.
-/

set_option autoImplicit false

namespace OpNet

/-! ## The language -/

/-- What a scripted operator does. -/
inductive Behaviour where
  /-- Stores a text in the first output, if there is one. -/
  | tag (text : String)
  /-- Stores in every output a text made of those of the inputs. -/
  | concat
  /-- Stores in every output a number made of those of the inputs. -/
  | mix
  /-- Stores the number of runs in the first output. -/
  | count
  /-- Empties every output. -/
  | reset
  /-- Makes an output share the payload of an input. -/
  | share (input output : Nat)
  /-- Fails if an input is empty. -/
  | need (input : Nat)
  | fail (cause : Fault)
  /-- Fails in the first runs. -/
  | failFirst (times : Nat) (cause : Fault)
  /-- Fails with a fault that names the operator. -/
  | ownError (text : String)
  /-- Stores the answer to a question about the arguments in the first output. -/
  | ask (query : Query)
  /-- Makes waiting for the device fail after this run. -/
  | arm (cause : Fault)
  | panic (text : String)
  | seq (steps : List Behaviour)
  | idle
deriving Inhabited

/-- The state of a scripted operator. -/
structure Memory where
  runs : Nat := 0
  armed : Option Fault := none
deriving Inhabited

/-! ## Runs -/

/-- What the steps of a run change. -/
structure Scene where
  memory : Memory
  heap : Heap

/-- A step of a run. A failed step keeps what was changed before it failed. -/
abbrev Step (α : Type) := ExceptT Stop (StateM Scene) α

namespace Step

/-- What a blob holds. -/
def value? (blob : BlobId) : Step (Option Datum) := do
  return (← get).heap.value? blob

/-- Changes the contents of the blobs. -/
def modifyHeap (f : Heap → Heap) : Step Unit :=
  modify fun scene => { scene with heap := f scene.heap }

/-- Stores a value in a blob. -/
def store (blob : BlobId) (v : Value) : Step Unit := modifyHeap (·.set blob v)

/-- Stores values in the outputs; each depends on the position of its output. -/
def storeAll (b : Binding) (f : Nat → Value) : Step Unit :=
  modifyHeap fun heap =>
    b.outputs.zipIdx.foldl (fun heap (blob, k) => heap.set blob (f k)) heap

end Step

/-- The text of what a blob holds. -/
def textOf : Option Datum → String
  | none => "~"
  | some (.known (.text s)) => s
  | some (.known (.int64 n)) => toString n.toInt
  | some v => "<" ++ v.type.tag ++ ">"

/-- The number of what a blob holds. -/
def numberOf : Option Datum → Int
  | none => 7
  | some (.known (.int64 n)) => n.toInt
  | some _ => 11

/-- The next number of a mixture. -/
def mixIn (acc n : Int) : Int := (acc * 31 + n).tmod 1000003

namespace Behaviour

mutual

/-- Does what a behaviour says. -/
def perform (b : Binding) : Behaviour → Step Unit
  | tag text =>
    match b.outputs.head? with
    | some blob => Step.store blob (.text text)
    | none => pure ()
  | concat => do
    let values ← b.inputs.mapM Step.value?
    let text := String.intercalate "," (values.map textOf)
    Step.storeAll b fun k => .text s!"{b.definition.name}({text})#{k}"
  | mix => do
    let seed ← liftM (Outcome.ofExcept (Arguments.trySingle b.args "seed" (1 : Int64)))
    let values ← b.inputs.mapM Step.value?
    let acc := (values.map numberOf).foldl mixIn seed.toInt
    Step.storeAll b fun k => .int64 (Int64.ofInt (acc + k))
  | count => do
    let blob ← liftM (b.output 0)
    Step.store blob (.int64 (Int64.ofNat (← get).memory.runs))
  | reset => Step.modifyHeap fun heap => b.outputs.foldl Heap.reset heap
  | share i k => do
    let target ← liftM (b.output k)
    let source ← liftM (b.input i)
    Step.modifyHeap (·.share target source)
  | need i => do
    let blob ← liftM (b.input i)
    match ← Step.value? blob with
    | some _ => pure ()
    | none => throw (.fault (b.executionFault s!"need {i}"))
  | fail cause => throw (.fault cause)
  | failFirst times cause => do
    if (← get).memory.runs ≤ times then throw (.fault cause)
  | ownError text => throw (.fault (b.executionFault text))
  | ask query => do
    let reading ← liftM (query.ask b.args)
    let blob ← liftM (b.output 0)
    Step.store blob (.text reading.literal)
  | arm cause =>
    modify fun scene => { scene with memory := { scene.memory with armed := some cause } }
  | panic text => throw (.panic text)
  | seq steps => performAll b steps
  | idle => pure ()

/-- Does what a list of behaviours says, in order. -/
def performAll (b : Binding) : List Behaviour → Step Unit
  | [] => pure ()
  | step :: steps => do
    perform b step
    performAll b steps

end

end Behaviour

/-- The line that says which operator runs, and where it stands in its life. -/
def Binding.runLine (b : Binding) (kind : String) : String :=
  s!"{kind} {b.definition.opType}:{b.definition.name} engine={b.engine} {b.state.name}"

/-- A run of a scripted operator. What waiting for the device reports is decided anew. -/
def Behaviour.action (kind : String) (behaviour : Behaviour) : Action Memory := fun b memory heap =>
  let memory := { runs := memory.runs + 1, armed := none }
  let (result, scene) := (behaviour.perform b).run ⟨memory, heap⟩
  { inner := scene.memory
    heap := scene.heap
    trace := [b.runLine kind]
    outcome := result }

/-! ## Devices that report what they do -/

/-- The name of the device that an operator is placed on. -/
def Placement.label (p : Placement) : String := s!"{p.device.name}:{p.number}"

/-- A device that reports what it is asked to do, and whose waiting fails when it was told to. -/
def DeviceContext.traced (device : Device) : DeviceContext Memory where
  device := device
  onBuild p := ["context " ++ p.label]
  switch p memory := (memory, ["switch " ++ p.label])
  wait p memory :=
    let line := "finish " ++ p.label
    match memory.armed with
    | some cause => ({ memory with armed := none }, [line], .error (.fault cause))
    | none => (memory, [line], .ok ())

end OpNet
