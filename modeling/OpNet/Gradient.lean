import Std.Data.TreeMap
import OpNet.Definition

/-!
# Gradients

For every operator type a maker can be registered that writes the backward operators: those that
take the gradients of the outputs to the gradients of the inputs.

* `gradientName` — the canonical name of the gradient of a blob.
* `GradientSlot` — where the gradient of a blob is found: in one dense blob, in a pair of an index
  blob and a value blob, or nowhere.
* `Making` — what a maker does: it reads the definition and the gradients of the outputs by
  position, and marks the gradients of the inputs. A position that does not exist is a panic.
* `GradientRegistry.derive` — runs the maker for a definition and lets the backward operators
  inherit from it.
-/

set_option autoImplicit false

namespace OpNet

/-! ## Names -/

/-- What is appended to the name of a blob to name its gradient. -/
def gradientSuffix : String := "_grad"

/-- The canonical name of the dense gradient of a blob. -/
def gradientName (blob : String) : String := blob ++ gradientSuffix

/-- The canonical name of the index blob of the sparse gradient of a blob. -/
def gradientIndicesName (blob : String) : String := gradientName blob ++ "_indices"

/-- The canonical name of the value blob of the sparse gradient of a blob. -/
def gradientValuesName (blob : String) : String := gradientName blob ++ "_values"

/-- Where the gradient of a blob is found; an empty name names no blob. -/
structure GradientSlot where
  dense : String := ""
  indices : String := ""
  values : String := ""
deriving DecidableEq, Inhabited

namespace GradientSlot

/-- A gradient in one dense blob. -/
def ofDense (dense : String) : GradientSlot := { dense }

/-- A gradient in an index blob and a value blob. -/
def ofSparse (indices values : String) : GradientSlot := { indices, values }

/-- Whether there is a dense gradient. -/
def isDense (g : GradientSlot) : Bool := !g.dense.isEmpty

/-- Whether there is a sparse gradient. -/
def isSparse (g : GradientSlot) : Bool := !g.indices.isEmpty && !g.values.isEmpty

/-- Whether there is no gradient. -/
def isEmpty (g : GradientSlot) : Bool := !g.isDense && !g.isSparse

end GradientSlot

/-- The backward operators of a definition, and where the gradient of each of its inputs is
found. -/
structure Gradient where
  ops : List OperatorDef := []
  inputs : List GradientSlot := []

/-! ## Makers -/

/-- What a maker works with: the forward definition and the gradients of its outputs, which are only
read, and the gradients of its inputs, which are marked. -/
structure GradientContext where
  forward : OperatorDef
  outputs : List GradientSlot
  inputs : List GradientSlot
deriving Inhabited

/-- A computation of a maker. -/
abbrev Making (α : Type) := StateT GradientContext (Except Stop) α

namespace GradientContext

/-- The context that a maker starts from: no input has a gradient. -/
def init (d : OperatorDef) (outputs : List GradientSlot) : GradientContext :=
  { forward := d, outputs, inputs := d.inputs.map fun _ => {} }

/-- A fault about the gradients given for a definition. -/
def mismatch (cx : GradientContext) (text : String) : Fault :=
  .gradientMismatch cx.forward.opType text

end GradientContext

namespace Making

/-- The name of the forward input at a position. -/
def input (i : Nat) : Making String := do
  let cx ← get
  nth cx.forward.inputs i

/-- The name of the forward output at a position. -/
def output (k : Nat) : Making String := do
  let cx ← get
  nth cx.forward.outputs k

/-- Marks the gradient of an input. -/
def mark (i : Nat) (g : GradientSlot) : Making Unit := do
  let cx ← get
  let _ ← nth cx.inputs i
  set { cx with inputs := cx.inputs.set i g }

/-- Marks an input as having its canonical dense gradient, whose name is the answer. -/
def gradInput (i : Nat) : Making String := do
  let name ← input i
  mark i (.ofDense (gradientName name))
  return gradientName name

/-- Marks an input as having its canonical sparse gradient, whose names are the answer. -/
def gradInputSparse (i : Nat) : Making (String × String) := do
  let name ← input i
  let indices := gradientIndicesName name
  let values := gradientValuesName name
  mark i (.ofSparse indices values)
  return (indices, values)

/-- Marks an input as having a dense gradient in the given blob. -/
def setDense (i : Nat) (dense : String) : Making Unit := mark i (.ofDense dense)

/-- Marks an input as having a sparse gradient in the given blobs. -/
def setSparse (i : Nat) (indices values : String) : Making Unit :=
  mark i (.ofSparse indices values)

/-- The gradient of an output. -/
def slot (k : Nat) : Making GradientSlot := do
  let cx ← get
  nth cx.outputs k

/-- Whether there is a gradient of an output. -/
def hasGradOutput (k : Nat) : Making Bool := do
  let g ← slot k
  return !g.isEmpty

/-- Ends a maker with a fault about the gradients it was given. -/
def reject {α : Type} (text : String) : Making α := do
  let cx ← get
  throw (.fault (cx.mismatch text))

/-- The blob of the dense gradient of an output; another kind of gradient is a fault. -/
def gradOutput (k : Nat) : Making String := do
  let g ← slot k
  if g.isDense then return g.dense
  else reject s!"gradient of output {k} is not dense"

/-- The blobs of the sparse gradient of an output; another kind of gradient is a fault. -/
def sparseOutput (k : Nat) : Making GradientSlot := do
  let g ← slot k
  if g.isSparse then return g
  else reject s!"gradient of output {k} is not sparse"

/-- The index blob of the sparse gradient of an output. -/
def gradOutputIndices (k : Nat) : Making String := do
  let g ← sparseOutput k
  return g.indices

/-- The value blob of the sparse gradient of an output. -/
def gradOutputValues (k : Nat) : Making String := do
  let g ← sparseOutput k
  return g.values

end Making

/-- Writes the backward operators of one operator type, and says what they inherit from the forward
definition. -/
structure GradientMaker where
  generate : Making (List OperatorDef)
  copyPlacement : Bool := true
  copyEngine : Bool := true
  copyArgs : Bool := true

/-- A backward operator with what it inherits from the forward definition. The forward arguments
come after its own. -/
def GradientMaker.inherit (m : GradientMaker) (forward backward : OperatorDef) : OperatorDef :=
  { backward with
    placement := if m.copyPlacement then forward.placement else backward.placement
    engine := if m.copyEngine then forward.engine else backward.engine
    args := if m.copyArgs then backward.args ++ forward.args else backward.args }

/-! ## The registry -/

/-- What is known of the gradient of an operator type: how to make it, or that there is none. -/
inductive GradientEntry where
  | maker (m : GradientMaker)
  | noGradient

/-- What is known of the gradients of all operator types. -/
structure GradientRegistry where
  entries : Std.TreeMap String GradientEntry := {}

namespace GradientRegistry

/-- What is known of the gradient of an operator type. -/
def known? (r : GradientRegistry) (opType : String) : Option GradientEntry := r.entries[opType]?

/-- Whether anything is known of the gradient of an operator type. -/
def contains (r : GradientRegistry) (opType : String) : Bool := (r.known? opType).isSome

/-- Adds an entry and tells whether its type had none; the first entry of a type stays. -/
def add (r : GradientRegistry) (opType : String) (e : GradientEntry) : Bool × GradientRegistry :=
  match r.known? opType with
  | some _ => (false, r)
  | none => (true, ⟨r.entries.insert opType e⟩)

/-- Registers a maker. -/
def register (r : GradientRegistry) (opType : String) (m : GradientMaker) :
    Bool × GradientRegistry :=
  r.add opType (.maker m)

/-- Registers that an operator type has no gradient. -/
def registerNoGradient (r : GradientRegistry) (opType : String) : Bool × GradientRegistry :=
  r.add opType .noGradient

/-- The first entry of a type stays, and no other type is touched. -/
theorem known?_add (r : GradientRegistry) (opType t : String) (e : GradientEntry) :
    (r.add opType e).2.known? t =
      if t = opType then some ((r.known? opType).getD e) else r.known? t := by
  unfold add
  cases h : r.known? opType with
  | some e' => by_cases ht : t = opType <;> simp [ht, h]
  | none => simp [known?, Std.TreeMap.getElem?_insert, @eq_comm _ opType]

/-- Runs an entry for a definition. -/
def run (e : GradientEntry) (d : OperatorDef) (outputs : List GradientSlot) : Outcome Gradient :=
  match e with
  | .noGradient => .ok { inputs := (GradientContext.init d outputs).inputs }
  | .maker m =>
    match m.generate.run (.init d outputs) with
    | .error stop => .error stop
    | .ok (ops, cx) => .ok { ops := ops.map (m.inherit d), inputs := cx.inputs }

/-- The backward operators of a definition, given the gradient of each of its outputs. -/
def derive (r : GradientRegistry) (d : OperatorDef) (outputs : List GradientSlot) :
    Outcome Gradient :=
  match r.known? d.opType with
  | none => .error (.fault (.noGradient d.opType))
  | some e =>
    if outputs.length = d.outputs.length then run e d outputs
    else
      .error (.fault (.gradientMismatch d.opType
        s!"expected {d.outputs.length} output gradients, got {outputs.length}"))

end GradientRegistry
end OpNet
