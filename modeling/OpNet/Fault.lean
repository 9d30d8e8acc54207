import OpNet.Device
import OpNet.Text.Quoted

/-!
# What can go wrong

Every fallible operation of the library reports a `Fault`: a cause with the data that is needed to
understand it. The wording is in one place, `Fault.message`.

* `Fault` — the causes. A failed construction carries the fault that made it fail.
* `Refusal` — why a factory did not build an operator: it does not support the definition, which
  only sends dispatch on to the next candidate, or it failed, which ends dispatch.
* `Stop` and `Outcome` — a computation ends with a value, with a fault, or with a panic: a use that
  is a mistake in the program, such as a position past the end of a list (`nth`).
-/

set_option autoImplicit false

namespace OpNet

/-! ## Faults -/

/-- The causes of failure. -/
inductive Fault where
  /-- The number of inputs or outputs lies outside the bounds of the schema. -/
  | arity (opType what : String) (got lo hi : Nat)
  /-- An input and an output break an in-place rule of the schema. -/
  | inPlace (opType : String) (input output : Nat) (blob reason : String)
  /-- No implementation could be found. -/
  | notRegistered (opType : String) (device : Device) (engines : String)
  /-- An argument holds another kind of value than the one asked for. -/
  | argumentKind (name expected found : String)
  /-- A blob was never created. -/
  | blobNotFound (name : String)
  /-- A blob is empty or holds a value of another type. -/
  | blobType (name expected : String)
  /-- A factory failed to build an operator. -/
  | construction (opType engine : String) (source : Fault)
  /-- An operator failed while it ran. -/
  | execution (opType name text : String)
  /-- No gradient is known for an operator type. -/
  | noGradient (opType : String)
  /-- The gradients given do not fit the operator. -/
  | gradientMismatch (opType text : String)
  /-- The scheduling model of a net is unknown. -/
  | unknownNetType (netType : String)
  /-- Any other cause, told in words. -/
  | other (text : String)
deriving DecidableEq, Inhabited

/-- The text of a fault. -/
def Fault.message : Fault → String
  | .arity opType what got lo hi =>
    s!"operator {opType}: {what} count {got} is outside the allowed range [{lo}, {hi}]"
  | .inPlace opType input output blob reason =>
    s!"operator {opType}: input {input} and output {output} ({blob}) {reason}"
  | .notRegistered opType device engines =>
    s!"no registered implementation for operator {opType} on {device.title} " ++
      s!"(engines tried: [{engines}])"
  | .argumentKind name expected found =>
    s!"argument {name} does not have the right field: expected {expected}, found {found}"
  | .blobNotFound name => s!"blob {name} has not been created in the workspace"
  | .blobType name expected => s!"blob {name} does not hold a value of type {expected}"
  | .construction opType engine source =>
    s!"failed to construct operator {opType} (engine {Text.quoted engine}): " ++ source.message
  | .execution opType name text => s!"operator {opType} ({name}) failed: {text}"
  | .noGradient opType => s!"no gradient generator registered for operator {opType}"
  | .gradientMismatch opType text => s!"gradient for operator {opType}: {text}"
  | .unknownNetType netType => s!"unknown net type {Text.quoted netType}"
  | .other text => text

/-! ## Refusals -/

/-- Why a factory did not build an operator. -/
inductive Refusal where
  /-- The factory does not support the definition; another one may. -/
  | unsupported (reason : String)
  /-- The factory should have built the operator and could not. -/
  | failed (cause : Fault)
deriving DecidableEq

namespace Refusal

/-- The text of a refusal. -/
def message : Refusal → String
  | unsupported reason => s!"unsupported operator feature: {reason}"
  | failed cause => cause.message

/-- Whether dispatch goes on after the refusal. -/
def isUnsupported : Refusal → Bool
  | unsupported _ => true
  | failed _ => false

end Refusal

/-! ## Outcomes -/

/-- How a computation ends without a value. -/
inductive Stop where
  | fault (cause : Fault)
  | panic (text : String)
deriving DecidableEq

/-- A value, a fault or a panic. -/
abbrev Outcome (α : Type) := Except Stop α

/-- A computation that cannot panic, as one that could. -/
def Outcome.ofExcept {α : Type} : Except Fault α → Outcome α
  | .ok a => .ok a
  | .error cause => .error (.fault cause)

/-- The text of a panic at a position past the end of a list. -/
def outOfBounds (length index : Nat) : String :=
  s!"index out of bounds: the len is {length} but the index is {index}"

/-- The element at a position; a position past the end is a panic. -/
def nth {α : Type} (xs : List α) (i : Nat) : Outcome α :=
  match xs[i]? with
  | some a => .ok a
  | none => .error (.panic (outOfBounds xs.length i))

theorem nth_eq_ok_iff {α : Type} {xs : List α} {i : Nat} {a : α} :
    nth xs i = .ok a ↔ xs[i]? = some a := by
  unfold nth
  cases xs[i]? <;> simp

theorem nth_eq_error_iff {α : Type} {xs : List α} {i : Nat} {stop : Stop} :
    nth xs i = .error stop ↔ xs.length ≤ i ∧ stop = .panic (outOfBounds xs.length i) := by
  unfold nth
  rw [← List.getElem?_eq_none_iff]
  cases xs[i]? <;> simp [eq_comm]

end OpNet
