import OpNet.Session.Registration

/-!
# Commands on operators

Commands that build operators in a session, run them and look at them.

* `OperatorCommand.run` — the answer and the session afterwards. A construction that fails leaves
  what the session had under the name.
-/

set_option autoImplicit false

namespace OpNet

/-- The ways to run an operator: with or without keeping track of its life, and in either mode. -/
structure RunStyle where
  mode : Mode
  tracked : Bool

/-- What is done with an operator of the session. -/
inductive OperatorUse where
  | run (style : RunStyle)
  | info
  | definition
  | ask (queries : List Query)
  | fault (text : String)
  /-- Looks at the blob at a position, and whether it is that of a name in a workspace. -/
  | blob (isInput : Bool) (index : Nat) (ws name : String)

/-- The commands on operators. -/
inductive OperatorCommand where
  | create (id ws : String) (d : OperatorDef)
  /-- Builds an operator without dispatch, from a behaviour known by a name. -/
  | assemble (id ws : String) (d : OperatorDef) (context : ContextChoice) (label : String)
      (behaviour : Behaviour)
  | use (id : String) (what : OperatorUse)

/-- Runs an operator in a style. -/
def Operator.runAs {σ : Type} (style : RunStyle) (op : Operator σ) (heap : Heap) : Execution σ :=
  if style.tracked then op.execute style.mode heap else op.run style.mode heap

/-- The answer to a run of an operator. A panic shows no snapshot. -/
def Execution.answer {σ : Type} (e : Execution σ) : Answer where
  result := .ofOutcome (e.outcome.map fun _ => .flag true)
  log := e.trace
  state :=
    match e.outcome with
    | .error (.panic _) => none
    | _ => some (.operator (e.op.info e.heap))

/-- The answer about the blob at a position of an operator. -/
def Binding.blobReply (b : Binding) (s : Store) (isInput : Bool) (index : Nat) (ws name : String) :
    Outcome Reply := do
  let blob ← if isInput then b.input index else b.output index
  return .bound (s.heap.shown? blob) (s.blob? ws name == some blob)

namespace Session

/-- Keeps an operator under a name. -/
def keepOperator (session : Session) (id : String) (op : Operator Memory) : Session :=
  { session with operators := session.operators.insert id op }

/-- Builds an operator and keeps it. -/
def createOperator (session : Session) (id ws : String) (d : OperatorDef) : Answer × Session :=
  let result := session.registry.createOperator session.store ws d
  let session := { session with store := result.store }
  match result.outcome with
  | .error stop => ({ result := .ofOutcome (.error stop), log := result.trace }, session)
  | .ok op =>
    ({ result := .reply (.operator (op.info session.store.heap)), log := result.trace },
      session.keepOperator id op)

/-- The lines reported when an operator is assembled for a device. -/
def assemblyLog (context : ContextChoice) (label : String) (p : Placement) : List String :=
  match context with
  | .host => []
  | .traced _ => context.context.onBuild p ++ ["raw " ++ p.label ++ " " ++ label]

/-- Binds a definition, gives it the body of a behaviour and keeps the operator. -/
def assembleOperator (session : Session) (id ws : String) (d : OperatorDef)
    (context : ContextChoice) (label : String) (behaviour : Behaviour) : Answer × Session :=
  match Binding.bind session.store ws d with
  | .error cause => (.ofResult (.fault cause), session)
  | .ok (binding, store) =>
    let op : Operator Memory :=
      { binding, inner := {}, body := context.context.body (behaviour.action "kernel") }
    let session := { session with store }
    ({ result := .reply (.operator (op.info store.heap))
       log := assemblyLog context label d.placement },
      session.keepOperator id op)

/-- Does something with an operator of the session. -/
def useOperator (session : Session) (id : String) (op : Operator Memory) :
    OperatorUse → Answer × Session
  | .run style =>
    let e := op.runAs style session.store.heap
    let session := { session with store := { session.store with heap := e.heap } }
    (e.answer, session.keepOperator id e.op)
  | .info => (.reply (.operator (op.info session.store.heap)), session)
  | .definition => (.reply (.definition op.binding.definition), session)
  | .ask queries => (.reply (.readings (queries.map (·.ask op.binding.args))), session)
  | .fault text => (.ofResult (.fault (op.binding.executionFault text)), session)
  | .blob isInput index ws name =>
    (.ofResult (.ofOutcome (op.binding.blobReply session.store isInput index ws name)), session)

end Session

/-- The answer to a command on operators, and the session afterwards. -/
def OperatorCommand.run (session : Session) : OperatorCommand → Answer × Session
  | create id ws d => session.createOperator id ws d
  | assemble id ws d context label behaviour =>
    session.assembleOperator id ws d context label behaviour
  | use id what =>
    match session.operators[id]? with
    | none => (.ofResult .unknownId, session)
    | some op => session.useOperator id op what

end OpNet
