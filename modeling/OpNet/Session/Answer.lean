import OpNet.Net.Dag
import OpNet.Script.Maker
import OpNet.Script.Recipe

/-!
# Sessions and their answers

A session holds everything that a user of the library builds up: workspaces, the two registries,
operators and nets under names of their own, and lists of backward operators.

* `Session` — the state.
* `Answer` — what a command is answered with: a reply or what went wrong, the lines reported on the
  way, and for some commands a snapshot of the operator or net that has run.
* `OperatorInfo`, `NetInfo` — the snapshots.
-/

set_option autoImplicit false

namespace OpNet

/-! ## State -/

/-- A net that was built in a session, and whether its operators are shown after each run. -/
structure OpenNet where
  net : Net Memory
  shown : Bool

/-- The state of a session. -/
structure Session where
  store : Store := {}
  registry : Registry Memory := {}
  gradients : GradientRegistry := {}
  operators : Std.TreeMap String (Operator Memory) := {}
  nets : Std.TreeMap String OpenNet := {}
  saved : Std.TreeMap String (List OperatorDef) := {}

/-! ## Snapshots -/

/-- What can be shown of what a blob holds: a value with a notation. -/
def Heap.shown? (heap : Heap) (b : BlobId) : Option Value := (heap.value? b).bind Datum.known?

/-- An operator with what its blobs hold. -/
structure OperatorInfo where
  binding : Binding
  inputs : List (Option Value)
  outputs : List (Option Value)

/-- A snapshot of an operator. -/
def Operator.info {σ : Type} (op : Operator σ) (heap : Heap) : OperatorInfo where
  binding := op.binding
  inputs := op.binding.inputs.map heap.shown?
  outputs := op.binding.outputs.map heap.shown?

/-- How much of a net is shown. -/
inductive NetDetail where
  | none
  | operators (ops : List OperatorInfo)
  | graph (nodes : List Node) (chains : List (List Nat)) (workers : Nat)

/-- A net with its size. -/
structure NetInfo where
  name : String
  size : Nat
  detail : NetDetail

/-! ## Answers -/

/-- The replies to commands that succeed. -/
inductive Reply where
  | flag (b : Bool)
  | text (s : String)
  | optionalText (s? : Option String)
  | texts (ss : List String)
  | device (d : Device)
  | devices (number : Nat)
  | definition (d : OperatorDef)
  | netDefinition (d : NetDef)
  | readings (rs : List (Outcome Reading))
  | argument (arg : Argument)
  | refusal (r : Refusal)
  | schema (s : Schema) (checks : List (Except Fault Unit))
  | schemaBounds (s? : Option Schema)
  | graph (nodes : List Node) (chains : List (List Nat))
  | chains (cs : List (List Nat))
  | gradientSlot (g : GradientSlot)
  | gradient (g : Gradient)
  | value (v : Value)
  | optionalValue (v? : Option Value)
  | content (v? : Option Value)
  | contents (blobs : List (String × Option Value))
  | size (n : Nat)
  | same (blob payload : Bool)
  | bound (v? : Option Value) (isBound : Bool)
  | operator (info : OperatorInfo)
  | net (info : NetInfo)

/-- The reply with a value. One without a notation is not shown. -/
def Reply.ofDatum : Datum → Reply
  | .known v => .value v
  | .further _ _ => .optionalValue none

/-- How a command ends. -/
inductive Result where
  | reply (r : Reply)
  | fault (cause : Fault)
  | panic (text : String)
  /-- There is no operator or net of that name in the session. -/
  | unknownId
  /-- There is no kind of device with that code. -/
  | unknownDevice

/-- The answer to a command. -/
structure Answer where
  result : Result
  log : List String := []
  state : Option Reply := none

namespace Result

/-- The result of a computation that gives a reply. -/
def ofOutcome : Outcome Reply → Result
  | .ok r => .reply r
  | .error (.fault cause) => .fault cause
  | .error (.panic text) => .panic text

/-- The result of a computation that gives a reply and cannot panic. -/
def ofExcept (result : Except Fault Reply) : Result := ofOutcome (Outcome.ofExcept result)

end Result

namespace Answer

/-- An answer without a log. -/
def ofResult (result : Result) : Answer := { result }

/-- The answer to a command that succeeds. -/
def reply (r : Reply) : Answer := { result := .reply r }

end Answer
end OpNet
