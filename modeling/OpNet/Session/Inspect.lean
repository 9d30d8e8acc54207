import OpNet.Session.Answer

/-!
# Commands on data

Commands that look at devices, definitions, arguments, faults, schemas and graphs, and that need no
session.

* `Inspection.answer` — their answers.
-/

set_option autoImplicit false

namespace OpNet

/-- The commands on data. -/
inductive Inspection where
  | deviceOfCode (code : Nat)
  | devices (number : Nat)
  | engines (text : String)
  | definition (d : OperatorDef)
  | sameDefinition (a b : OperatorDef)
  | ask (args : List Argument) (queries : List Query)
  | argument (name : String) (value : Scalar)
  | argumentList (name : String) (values : Scalars)
  | fault (cause : Fault)
  | refusal (r : Refusal)
  | schema (s : Schema) (definitions : List OperatorDef)
  | sameSchema (a b : Schema)
  | graph (ops : List OperatorDef)
  | chains (nodes : List Node)
  | netKind (netType : String)
  | gradientName (blob : String)
  | gradientSlot (g : GradientSlot)

/-- The dependency graph of operators with its chains. -/
def graphReply (ops : List OperatorDef) : Outcome Reply := do
  let nodes := dependencies ops
  let cs ← OpNet.chains nodes
  return .graph nodes cs

/-- The answer to a command on data. -/
def Inspection.answer : Inspection → Result
  | deviceOfCode code =>
    match Device.ofCode? code with
    | some d => .reply (.device d)
    | none => .unknownDevice
  | devices number => .reply (.devices number)
  | engines text => .reply (.texts (EngineList.parse text))
  | definition d => .reply (.definition d)
  | sameDefinition a b => .reply (.flag (a == b))
  | ask args queries => .reply (.readings (queries.map (·.ask args)))
  | argument name value => .reply (.argument (value.argument name))
  | argumentList name values => .reply (.argument (values.argument name))
  | fault cause => .fault cause
  | refusal r => .reply (.refusal r)
  | schema s definitions => .reply (.schema s (definitions.map s.verify))
  | sameSchema a b => .reply (.flag (decide (a = b)))
  | graph ops => .ofOutcome (graphReply ops)
  | chains nodes => .ofOutcome (Reply.chains <$> OpNet.chains nodes)
  | netKind netType => .ofExcept ((Reply.text ·.name) <$> NetKind.parse netType)
  | gradientName blob => .reply (.text (OpNet.gradientName blob))
  | gradientSlot g => .reply (.gradientSlot g)

end OpNet
