import OpNet.Gradient
import OpNet.Registry

/-!
# Built-in operators

The operators that every net can use.

* `NoOp` — reads and writes any blobs and does nothing; it has no gradient.
* `Copy` — makes its output share the payload of its input (`Builtin.copy`). Its gradient is another
  `Copy`, from the gradient of the output to that of the input (`Builtin.copyGradient`).
* `Registry.addBuiltins`, `GradientRegistry.addBuiltins` — register them.
-/

set_option autoImplicit false

namespace OpNet
namespace Builtin

variable {σ : Type}

/-- The body that does nothing. -/
def noOp : Body σ where
  run _ inner heap := { inner, heap }

/-- The contents of the blobs after a copy: the output shares the payload of the input, which must
not be empty. -/
def copyHeap (b : Binding) (heap : Heap) : Outcome Heap := do
  let source ← b.input 0
  match heap.content source with
  | none =>
    let name ← nth b.definition.inputs 0
    throw (.fault (b.executionFault s!"input blob {name} is empty"))
  | some _ =>
    let target ← b.output 0
    return heap.share target source

/-- The kernel of a copy. -/
def copy : Action σ := fun b inner heap =>
  match copyHeap b heap with
  | .ok heap => { inner, heap }
  | .error stop => { inner, heap, outcome := .error stop }

/-- The schema of a copy: one input and one output, which may be the same blob. -/
def copySchema : Schema :=
  ({ opType := "Copy" } : Schema).numInputs 1 1 |>.numOutputs 1 1 |>.allowInPlace [(0, 0)]

/-- The maker of the gradient of a copy. -/
def copyGradient : Making (List OperatorDef) := do
  let gradOut ← Making.gradOutput 0
  let gradIn ← Making.gradInput 0
  return [{ opType := "Copy", inputs := [gradOut], outputs := [gradIn] }]

end Builtin

/-- Registers the built-in operators on the host. -/
def Registry.addBuiltins {σ : Type} [Inhabited σ] (r : Registry σ) : Except Fault (Registry σ) := do
  let (_, r) ← r.registerSchema Builtin.copySchema
  let (_, r) := r.register "NoOp" .cpu none fun _ => { verdict := .built (default, Builtin.noOp) }
  let (_, r) := r.registerKernel "Copy" none .host fun _ =>
    { verdict := .built (default, Builtin.copy) }
  return r

/-- Registers the gradients of the built-in operators. -/
def GradientRegistry.addBuiltins (r : GradientRegistry) : GradientRegistry :=
  let (_, r) := r.registerNoGradient "NoOp"
  let (_, r) := r.register "Copy" { generate := Builtin.copyGradient }
  r

end OpNet
