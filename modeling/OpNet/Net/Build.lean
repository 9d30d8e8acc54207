import OpNet.Dispatch

/-!
# Building nets

A net is built by creating the blobs that it reads, dispatching its operators in order, so that each
sees the outputs of those before it, and checking that the outputs it promises are there.

* `NetKind.parse` — the scheduling model that a definition names.
* `Registry.createOperators` — dispatches a list of definitions and stops at the first failure.
* `Registry.instantiate` — builds the operators of a net.
-/

set_option autoImplicit false

namespace OpNet

/-! ## Scheduling models -/

/-- How the operators of a net are scheduled. -/
inductive NetKind where
  /-- One after another, in the order of the definition. -/
  | simple
  /-- By their dependencies. -/
  | dag
deriving DecidableEq, Inhabited

namespace NetKind

/-- The name of a scheduling model. -/
def name : NetKind → String
  | simple => "Simple"
  | dag => "Dag"

/-- Reads a scheduling model; an empty text stands for the simple one. -/
def parse (netType : String) : Except Fault NetKind :=
  if netType = "" ∨ netType = "simple" then .ok simple
  else if netType = "dag" then .ok dag
  else .error (.unknownNetType netType)

end NetKind

/-! ## Operators -/

variable {σ : Type}

/-- What the construction of a net leaves behind: the store, an account of the factories called, and
the operators or what went wrong. -/
structure Construction (σ : Type) where
  store : Store
  calls : List (Call σ) := []
  outcome : Outcome (List (Operator σ))

/-- The lines that the factories reported. -/
def Construction.trace (result : Construction σ) : List String :=
  result.calls.flatMap (·.attempt.trace)

namespace Registry

/-- Dispatches definitions in order; the first failure is final. -/
def createOperators (r : Registry σ) (ws : String) (s : Store) :
    List OperatorDef → Construction σ
  | [] => { store := s, outcome := .ok [] }
  | d :: ds =>
    let first := r.createOperator s ws d
    match first.outcome with
    | .error stop => { store := first.store, calls := first.calls, outcome := .error stop }
    | .ok op =>
      let rest := r.createOperators ws first.store ds
      { store := rest.store
        calls := first.calls ++ rest.calls
        outcome := rest.outcome.map (op :: ·) }

/-- The first declared output of a net that is not in the workspace. -/
def missingOutput? (s : Store) (ws : String) (d : NetDef) : Option String :=
  d.externalOutputs.find? fun name => !s.has ws name

/-- Builds the operators of a net. -/
def instantiate (r : Registry σ) (s : Store) (ws : String) (d : NetDef) : Construction σ :=
  let prepared := (s.createAll ws (d.externalInputs ++ d.opInputs)).2
  let built := r.createOperators ws prepared d.ops
  match built.outcome, missingOutput? built.store ws d with
  | .ok _, some name => { built with outcome := .error (.fault (.blobNotFound name)) }
  | _, _ => built

end Registry
end OpNet
