import OpNet.Gradient

/-!
# Scripted gradient makers

A small language for the makers of backward operators.

* `NameToken` — a name, literal or by the position of what it belongs to.
* `MakerStep` — what a maker does.
* `MakerStep.performAll` — does it, and gives the backward operators that were emitted.
-/

set_option autoImplicit false

namespace OpNet

/-- A name, or two, in the definition of a backward operator. -/
inductive NameToken where
  | literal (name : String)
  | input (i : Nat)
  | output (k : Nat)
  | gradInput (i : Nat)
  | gradInputSparse (i : Nat)
  | gradOutput (k : Nat)
  | gradOutputIndices (k : Nat)
  | gradOutputValues (k : Nat)
deriving Inhabited

/-- The names that a token stands for. -/
def NameToken.names : NameToken → Making (List String)
  | literal name => pure [name]
  | input i => do return [← Making.input i]
  | output k => do return [← Making.output k]
  | gradInput i => do return [← Making.gradInput i]
  | gradInputSparse i => do
    let (indices, values) ← Making.gradInputSparse i
    return [indices, values]
  | gradOutput k => do return [← Making.gradOutput k]
  | gradOutputIndices k => do return [← Making.gradOutputIndices k]
  | gradOutputValues k => do return [← Making.gradOutputValues k]

/-- The names that a list of tokens stands for, one token after another. -/
def NameToken.allNames : List NameToken → Making (List String)
  | [] => pure []
  | token :: tokens => do
    let names ← token.names
    let rest ← allNames tokens
    return names ++ rest

/-- What a scripted maker does. -/
inductive MakerStep where
  /-- Emits a definition whose inputs and outputs are given by tokens. -/
  | emit (template : OperatorDef) (inputs outputs : List NameToken)
  /-- Emits the forward definition. -/
  | emitForward
  | setDense (i : Nat) (name : String)
  | setSparse (i : Nat) (indices values : String)
  /-- Goes on by whether there is a gradient of an output. -/
  | ifGrad (k : Nat) (yes no : List MakerStep)
  | fail (cause : Fault)
deriving Inhabited

namespace MakerStep

mutual

/-- Does what one step says; the answer is what it has emitted. -/
def perform : MakerStep → Making (List OperatorDef)
  | emit template inputs outputs => do
    let inputs ← NameToken.allNames inputs
    let outputs ← NameToken.allNames outputs
    return [{ template with inputs, outputs }]
  | emitForward => do return [(← get).forward]
  | setDense i name => do
    Making.setDense i name
    return []
  | setSparse i indices values => do
    Making.setSparse i indices values
    return []
  | ifGrad k yes no => do
    if ← Making.hasGradOutput k then performAll yes else performAll no
  | fail cause => throw (.fault cause)

/-- Does what a list of steps says, in order. -/
def performAll : List MakerStep → Making (List OperatorDef)
  | [] => pure []
  | step :: steps => do
    let emitted ← perform step
    let rest ← performAll steps
    return emitted ++ rest

end

end MakerStep
end OpNet
