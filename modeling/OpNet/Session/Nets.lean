import OpNet.Session.Answer

/-!
# Commands on nets

Commands that derive backward operators, build nets in a session and run them.

* `NetCommand.run` — the answer and the session afterwards.
* `netLog` — the lines shown for a run of a net: the operators of a dag net report in no particular
  order, so their lines are sorted, and shown only if all operators have run.
-/

set_option autoImplicit false

namespace OpNet

/-- The ways to build a net: of a given kind, which shows more of it, or of the kind that the
definition names. -/
inductive NetChoice where
  | ofKind (kind : NetKind)
  | asDefined

/-- The definition of a net whose operators are followed by those of some saved lists. -/
structure NetPlan where
  definition : NetDef
  append : List String := []

/-- The commands on nets. -/
inductive NetCommand where
  /-- Derives the gradient of a definition, and adds the backward operators to a saved list. -/
  | derive (d : OperatorDef) (outputs : List GradientSlot) (save? : Option String)
  | describe (plan : NetPlan)
  | create (id ws : String) (plan : NetPlan) (choice : NetChoice)
  | execute (id : String) (mode : Mode)

/-- How much of a net is shown when it was built in a certain way. -/
def NetChoice.detail (choice : NetChoice) (net : Net Memory) (heap : Heap) : NetDetail :=
  match choice, net with
  | .ofKind _, .simple net => .operators (net.ops.map (·.info heap))
  | .ofKind _, .dag net => .graph net.nodes net.graph.chains net.workers
  | .asDefined, _ => .none

/-- A snapshot of a net. -/
def NetChoice.info (choice : NetChoice) (net : Net Memory) (heap : Heap) : NetInfo where
  name := net.name
  size := net.ops.length
  detail := choice.detail net heap

/-- Whether the operators of the net are shown after each run. -/
def NetChoice.isShown : NetChoice → Bool
  | ofKind .simple => true
  | _ => false

/-- The lines of a run of a net, as they are shown. -/
def netLog (net : Net Memory) (r : NetRun Memory) : List String :=
  match net, r.outcome with
  | .dag _, .ok () => r.trace.mergeSort fun a b => compare a b != .gt
  | .dag _, .error (.fault _) => []
  | _, _ => r.trace

namespace Session

/-- The operators saved under a name. -/
def savedOps (session : Session) (key : String) : List OperatorDef := session.saved.getD key []

/-- Adds operators to those saved under a name. -/
def save (session : Session) (key : String) (ops : List OperatorDef) : Session :=
  { session with saved := session.saved.insert key (session.savedOps key ++ ops) }

/-- Derives the gradient of a definition and saves the backward operators. -/
def derive (session : Session) (d : OperatorDef) (outputs : List GradientSlot)
    (save? : Option String) : Answer × Session :=
  match session.gradients.derive d outputs with
  | .error stop => (.ofResult (.ofOutcome (.error stop)), session)
  | .ok g =>
    let session :=
      match save? with
      | some key => session.save key g.ops
      | none => session
    (.reply (.gradient g), session)

/-- The definition that a plan comes to. -/
def complete (session : Session) (plan : NetPlan) : NetDef :=
  { plan.definition with ops := plan.definition.ops ++ plan.append.flatMap session.savedOps }

/-- Builds a net in a workspace. A session has threads for all of its nets. -/
def buildNet (session : Session) (ws : String) (d : NetDef) (choice : NetChoice) :
    NetConstruction Memory :=
  match choice with
  | .ofKind kind => session.registry.createNetOf .plentiful kind session.store ws d
  | .asDefined => session.registry.createNet .plentiful session.store ws d

/-- Builds a net and keeps it. -/
def createNet (session : Session) (id ws : String) (plan : NetPlan) (choice : NetChoice) :
    Answer × Session :=
  let result := session.buildNet ws (session.complete plan) choice
  let session := { session with store := result.store }
  match result.outcome with
  | .error stop => ({ result := .ofOutcome (.error stop), log := result.trace }, session)
  | .ok net =>
    ({ result := .reply (.net (choice.info net session.store.heap)), log := result.trace },
      { session with nets := session.nets.insert id { net, shown := choice.isShown } })

/-- The snapshot shown after a run of a net. A panic shows none. -/
def runState (opened : OpenNet) (net : Net Memory) (r : NetRun Memory) : Option Reply :=
  match opened.shown, r.outcome with
  | true, .ok () | true, .error (.fault _) =>
    some (.net ((NetChoice.ofKind .simple).info net r.heap))
  | _, _ => none

/-- Runs a net of the session. -/
def runNet (session : Session) (id : String) (opened : OpenNet) (mode : Mode) : Answer × Session :=
  let r := opened.net.run mode session.store.heap
  let net := opened.net.withOps r.ops
  ({ result := .ofOutcome (r.outcome.map fun _ => .flag true)
     log := netLog net r
     state := runState opened net r },
    { session with
      store := { session.store with heap := r.heap }
      nets := session.nets.insert id { opened with net } })

end Session

/-- The answer to a command on nets, and the session afterwards. -/
def NetCommand.run (session : Session) : NetCommand → Answer × Session
  | derive d outputs save? => session.derive d outputs save?
  | describe plan => (.reply (.netDefinition (session.complete plan)), session)
  | create id ws plan choice => session.createNet id ws plan choice
  | execute id mode =>
    match session.nets[id]? with
    | none => (.ofResult .unknownId, session)
    | some opened => session.runNet id opened mode

end OpNet
