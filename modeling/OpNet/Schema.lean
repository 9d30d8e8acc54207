import OpNet.Definition

/-!
# Schemas

A schema bounds the number of inputs and outputs of an operator type, and says which inputs and
outputs may or must be the same blob.

* `Schema.verify` — checks a definition and reports the first violation.
* `Schema.Accepts` — what the check means: both counts lie within their bounds, no pair shares a
  blob without permission, and no pair that has to share one does not.
* `Schema.isWellFormed` — whether a schema may be registered.
-/

set_option autoImplicit false

namespace OpNet

/-- The largest number that a bound can be, which stands for no limit. The lists of a definition may
have any length all the same, and a longer one is out of these bounds too. -/
def noLimit : Nat := UInt64.size - 1

/-- Inclusive bounds of a count. -/
structure Bounds where
  lo : Nat := 0
  hi : Nat := noLimit
deriving DecidableEq, Inhabited

/-- Whether a count lies within the bounds. -/
def Bounds.admits (b : Bounds) (n : Nat) : Bool := b.lo ≤ n && n ≤ b.hi

/-- The arity bounds and in-place rules of an operator type. An in-place pair is the position of an
input and that of an output. -/
structure Schema where
  opType : String
  inputs : Bounds := {}
  outputs : Bounds := {}
  allowed : List (Nat × Nat) := []
  enforced : List (Nat × Nat) := []
deriving DecidableEq, Inhabited

namespace Schema

/-! ## Building -/

/-- The schema with other bounds for the inputs. -/
def numInputs (s : Schema) (lo hi : Nat) : Schema := { s with inputs := ⟨lo, hi⟩ }

/-- The schema with other bounds for the outputs. -/
def numOutputs (s : Schema) (lo hi : Nat) : Schema := { s with outputs := ⟨lo, hi⟩ }

/-- The schema with more pairs that may share a blob. -/
def allowInPlace (s : Schema) (pairs : List (Nat × Nat)) : Schema :=
  { s with allowed := s.allowed ++ pairs }

/-- The schema with more pairs that must share a blob. -/
def enforceInPlace (s : Schema) (pairs : List (Nat × Nat)) : Schema :=
  { s with enforced := s.enforced ++ pairs }

/-- Whether both positions of a pair can occur. -/
def admitsPair (s : Schema) (p : Nat × Nat) : Bool := p.1 < s.inputs.hi && p.2 < s.outputs.hi

/-- Whether the schema may be registered: it has a type, its bounds are not inverted, and its
in-place pairs can occur. -/
def isWellFormed (s : Schema) : Bool :=
  !s.opType.isEmpty && s.inputs.lo ≤ s.inputs.hi && s.outputs.lo ≤ s.outputs.hi &&
    s.allowed.all s.admitsPair && s.enforced.all s.admitsPair

/-! ## Checking a definition -/

/-- Whether a pair may share a blob. -/
def permits (s : Schema) (i o : Nat) : Bool :=
  s.allowed.contains (i, o) || s.enforced.contains (i, o)

/-- What is wrong with a pair that shares a blob without permission. -/
def strayReason : String := "may not be computed in place"

/-- What is wrong with a pair that has to share a blob and does not. -/
def brokenReason : String := "must be computed in place"

/-- Checks a count against its bounds. -/
def checkCount (s : Schema) (what : String) (got : Nat) (b : Bounds) : Except Fault Unit :=
  if b.admits got then .ok () else .error (.arity s.opType what got b.lo b.hi)

/-- The first output, from position `o` on, that shares the blob of input `i` without permission. -/
def strayOutput? (s : Schema) (i : Nat) (input : String) (o : Nat) : List String → Option Nat
  | [] => none
  | output :: rest =>
    if input = output ∧ s.permits i o = false then some o
    else s.strayOutput? i input (o + 1) rest

/-- The first pair, from input position `i` on, that shares a blob without permission; the blob
comes with it. -/
def strayPair? (s : Schema) (outputs : List String) (i : Nat) :
    List String → Option (Nat × Nat × String)
  | [] => none
  | input :: rest =>
    match s.strayOutput? i input 0 outputs with
    | some o => some (i, o, input)
    | none => s.strayPair? outputs (i + 1) rest

/-- The output of an enforced pair that does not share its blob; a pair that the definition does not
reach is met. -/
def brokenOutput? (d : OperatorDef) (p : Nat × Nat) : Option String :=
  match d.inputs[p.1]?, d.outputs[p.2]? with
  | some input, some output => if input = output then none else some output
  | _, _ => none

/-- The first enforced pair that the definition breaks, with its output. -/
def brokenPair? (d : OperatorDef) : List (Nat × Nat) → Option (Nat × Nat × String)
  | [] => none
  | p :: rest =>
    match brokenOutput? d p with
    | some output => some (p.1, p.2, output)
    | none => brokenPair? d rest

/-- A fault, if there is a pair to blame. -/
def blame (s : Schema) (reason : String) : Option (Nat × Nat × String) → Except Fault Unit
  | none => .ok ()
  | some (i, o, blob) => .error (.inPlace s.opType i o blob reason)

/-- Checks a definition: the counts first, then the pairs that share a blob without permission, then
those that have to share one. -/
def verify (s : Schema) (d : OperatorDef) : Except Fault Unit := do
  s.checkCount "input" d.inputs.length s.inputs
  s.checkCount "output" d.outputs.length s.outputs
  s.blame strayReason (s.strayPair? d.outputs 0 d.inputs)
  s.blame brokenReason (brokenPair? d s.enforced)

/-- What it means for a schema to accept a definition. -/
structure Accepts (s : Schema) (d : OperatorDef) : Prop where
  /-- The number of inputs lies within its bounds. -/
  inputs : s.inputs.lo ≤ d.inputs.length ∧ d.inputs.length ≤ s.inputs.hi
  /-- The number of outputs lies within its bounds. -/
  outputs : s.outputs.lo ≤ d.outputs.length ∧ d.outputs.length ≤ s.outputs.hi
  /-- An input and an output that are the same blob are allowed, or required, to be. -/
  shared : ∀ (i o : Nat) (blob : String), d.inputs[i]? = some blob → d.outputs[o]? = some blob →
    (i, o) ∈ s.allowed ∨ (i, o) ∈ s.enforced
  /-- An input and an output that have to be the same blob are. -/
  enforced : ∀ (i o : Nat) (input output : String), (i, o) ∈ s.enforced →
    d.inputs[i]? = some input → d.outputs[o]? = some output → input = output

end Schema
end OpNet
