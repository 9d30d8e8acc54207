import OpNet.Argument
import OpNet.Text.Literal
import OpNet.Value

/-!
# Questions about arguments

A question names an argument, the type to read it at, and the way to ask: whether it is there, for
one value or for a list, with a wrong kind as a fault or as a panic.

* `Scalar` — a value of one of the types that arguments are read at; a question gives its type by
  the value that stands for an absent argument.
* `Query.ask` — the answer, a `Reading`.
* `Reading.literal` — its written form.
-/

set_option autoImplicit false

namespace OpNet

/-! ## Scalars -/

/-- A value of one of the types that arguments are read at. -/
inductive Scalar where
  | single (x : Float32)
  | double (x : Float)
  | int32 (n : Int32)
  | int64 (n : Int64)
  | size (n : UInt64)
  | bool (b : Bool)
  | text (s : String)
deriving Inhabited

namespace Scalar

/-- The written form of a scalar; whole numbers are quoted. -/
def literal : Scalar → String
  | single x => Text.stringLiteral (Text.singleLiteral x)
  | double x => Text.stringLiteral (Text.doubleLiteral x)
  | int32 n => Text.stringLiteral (toString n.toInt)
  | int64 n => Text.stringLiteral (toString n.toInt)
  | size n => Text.stringLiteral (toString n.toNat)
  | bool b => if b then "true" else "false"
  | text s => Text.stringLiteral s

/-- Reads one value at the type of a scalar, which stands for an absent argument. -/
def trySingle (args : List Argument) (name : String) : Scalar → Except Fault Scalar
  | single d => single <$> Arguments.trySingle args name d
  | double d => double <$> Arguments.trySingle args name d
  | int32 d => int32 <$> Arguments.trySingle args name d
  | int64 d => int64 <$> Arguments.trySingle args name d
  | size d => size <$> Arguments.trySingle args name d
  | bool d => bool <$> Arguments.trySingle args name d
  | text d => text <$> Arguments.trySingle args name d

/-- Reads a list of values at the type of a scalar. -/
def tryRepeated (args : List Argument) (name : String) : Scalar → Except Fault (List Scalar)
  | single _ => List.map single <$> Arguments.tryRepeated Float32 args name
  | double _ => List.map double <$> Arguments.tryRepeated Float args name
  | int32 _ => List.map int32 <$> Arguments.tryRepeated Int32 args name
  | int64 _ => List.map int64 <$> Arguments.tryRepeated Int64 args name
  | size _ => List.map size <$> Arguments.tryRepeated UInt64 args name
  | bool _ => List.map bool <$> Arguments.tryRepeated Bool args name
  | text _ => List.map text <$> Arguments.tryRepeated String args name

/-- An argument that holds a scalar. -/
def argument (name : String) : Scalar → Argument
  | single x => .ofValue name x
  | double x => .ofValue name x
  | int32 n => .ofValue name n
  | int64 n => .ofValue name n
  | size n => .ofValue name n
  | bool b => .ofValue name b
  | text s => .ofValue name s

end Scalar

/-- A list of values of one of the types that arguments are read at. -/
inductive Scalars where
  | singles (xs : List Float32)
  | doubles (xs : List Float)
  | int32s (ns : List Int32)
  | int64s (ns : List Int64)
  | sizes (ns : List UInt64)
  | bools (bs : List Bool)
  | texts (ss : List String)
deriving Inhabited

/-- An argument that holds a list of scalars. -/
def Scalars.argument (name : String) : Scalars → Argument
  | singles xs => .ofValues name xs
  | doubles xs => .ofValues name xs
  | int32s ns => .ofValues name ns
  | int64s ns => .ofValues name ns
  | sizes ns => .ofValues name ns
  | bools bs => .ofValues name bs
  | texts ss => .ofValues name ss

/-! ## Questions -/

/-- The ways to ask for an argument. -/
inductive QueryMode where
  | has
  | single
  | repeated
  | trySingle
  | tryRepeated
deriving DecidableEq, Inhabited

/-- A question about an argument. -/
structure Query where
  name : String
  mode : QueryMode
  default : Scalar
deriving Inhabited

/-- The answer to a question. -/
inductive Reading where
  | present (b : Bool)
  | one (s : Scalar)
  | many (ss : List Scalar)

/-- The written form of an answer. -/
def Reading.literal : Reading → String
  | present b => if b then "true" else "false"
  | one s => s.literal
  | many ss => Text.listLiteral (ss.map Scalar.literal)

/-- Asks a list of arguments. -/
def Query.ask (q : Query) (args : List Argument) : Outcome Reading :=
  match q.mode with
  | .has => .ok (.present (Arguments.has args q.name))
  | .single => .one <$> Arguments.insist (q.default.trySingle args q.name)
  | .repeated => .many <$> Arguments.insist (q.default.tryRepeated args q.name)
  | .trySingle => .one <$> Outcome.ofExcept (q.default.trySingle args q.name)
  | .tryRepeated => .many <$> Outcome.ofExcept (q.default.tryRepeated args q.name)

end OpNet
