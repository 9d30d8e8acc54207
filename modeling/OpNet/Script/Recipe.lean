import OpNet.Builtin
import OpNet.Script.Behaviour

/-!
# Scripted factories

A small language for what a factory says to a binding.

* `Recipe` — refuses, or looks at the definition to choose another recipe, or builds.
* `Recipe.follow` — follows a recipe to a product; a recipe with a label reports that it was
  followed.
* `Recipe.factory`, `Recipe.kernelMaker` — the factory and the kernel maker of a recipe.
-/

set_option autoImplicit false

namespace OpNet

/-- What a recipe looks at. -/
inductive Condition where
  | hasArg (name : String)
  /-- A truth value among the arguments; another kind of value is a failure. -/
  | argTrue (name : String)
  /-- A truth value among the arguments; another kind of value is a panic. -/
  | argMust (name : String)
  | inputsAbove (n : Nat)
  | never
deriving Inhabited

/-- Whether a condition holds. -/
def Condition.test (b : Binding) : Condition → Outcome Bool
  | hasArg name => .ok (Arguments.has b.args name)
  | argTrue name => Outcome.ofExcept (Arguments.trySingle b.args name false)
  | argMust name => Arguments.single b.args name false
  | inputsAbove n => .ok (n < b.inputs.length)
  | never => .ok false

/-- The kinds of operator that a recipe can build. -/
inductive ProductKind where
  | noOp
  | copy
  | kernel
  | plain
deriving DecidableEq, Inhabited

/-- What a recipe builds: a kind of operator, what a scripted one does, and what it does instead
when it does not wait for the device. -/
structure Product where
  kind : ProductKind
  run : Behaviour
  async? : Option Behaviour := none
deriving Inhabited

/-- What a factory says to a binding. -/
inductive Recipe where
  | decline (label? : Option String) (reason : String)
  | fail (label? : Option String) (cause : Fault)
  | choose (label? : Option String) (condition : Condition) (yes no : Recipe)
  | build (label? : Option String) (product : Product)
deriving Inhabited

namespace Recipe

/-- The line that says that a recipe was followed. -/
def labelLine (b : Binding) : Option String → List String
  | none => []
  | some label => [s!"build {label} engine={b.engine} {b.state.name}"]

/-- Follows a recipe to what it builds. -/
def follow (b : Binding) : Recipe → Attempt Product
  | decline label? reason =>
    { verdict := .refused (.unsupported reason), trace := labelLine b label? }
  | fail label? cause => { verdict := .refused (.failed cause), trace := labelLine b label? }
  | build label? product => { verdict := .built product, trace := labelLine b label? }
  | choose label? condition yes no =>
    let line := labelLine b label?
    match condition.test b with
    | .error (.fault cause) => { verdict := .refused (.failed cause), trace := line }
    | .error (.panic text) => { verdict := .panicked text, trace := line }
    | .ok holds =>
      let chosen := if holds then follow b yes else follow b no
      { chosen with trace := line ++ chosen.trace }

end Recipe

/-- Turns what an attempt has built into something else. -/
def Attempt.map {β γ : Type} (f : β → γ) (a : Attempt β) : Attempt γ :=
  match a.verdict with
  | .built product => { verdict := .built (f product), trace := a.trace }
  | .refused refusal => { verdict := .refused refusal, trace := a.trace }
  | .panicked text => { verdict := .panicked text, trace := a.trace }

namespace Product

/-- The kernel of a scripted operator. -/
def action (p : Product) : Action Memory := p.run.action "kernel"

/-- The body of what is built. -/
def body (p : Product) : Body Memory :=
  match p.kind with
  | .noOp => Builtin.noOp
  | .copy => DeviceContext.host.body Builtin.copy
  | .kernel => DeviceContext.host.body p.action
  | .plain =>
    let run := p.run.action "run"
    match p.async? with
    | some behaviour => { run, runAsync := behaviour.action "async" }
    | none => { run }

end Product

/-- The factory of a recipe. -/
def Recipe.factory (recipe : Recipe) : Factory Memory := fun b =>
  (recipe.follow b).map fun product => (default, product.body)

/-- The kernel maker of a recipe: whatever kind it builds, the kernel is that of a scripted
operator. -/
def Recipe.kernelMaker (recipe : Recipe) : KernelMaker Memory := fun b =>
  (recipe.follow b).map fun product => (default, product.action)

end OpNet
