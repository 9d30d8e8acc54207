import Std.Data.TreeMap
import OpNet.Definition
import OpNet.Graph.Ascending

/-!
# Dependencies between operators

The operators of a net name the blobs they read and write, and the order in which they may run
follows from the names. An operator waits for

* the last writer, before it, of every blob that it reads;
* the last writer, before it, of every blob that it writes;
* every operator that has read such a blob since it was last written.

`dependencies` finds these in one pass over the definitions, which keeps a `Frontier`; the lemmas
`Frontier.writer?_write`, `Frontier.readersOf_read` and `Frontier.readersOf_write` say how it moves.
`Conflicts` says when the order of two operators matters at all, and `Reaches` when the graph puts
one behind the other.
-/

set_option autoImplicit false

namespace OpNet

/-! ## Nodes -/

/-- What one operator waits for, and what waits for it. -/
structure Node where
  parents : List Nat := []
  children : List Nat := []
deriving DecidableEq, Inhabited

/-- There is an edge from node `i` to node `j`. -/
def Edge (nodes : List Node) (i j : Nat) : Prop :=
  ∃ node, nodes[i]? = some node ∧ j ∈ node.children

/-- There is a path of one or more edges from node `i` to node `j`. -/
def Reaches (nodes : List Node) : Nat → Nat → Prop := Relation.TransGen (Edge nodes)

/-- Operator `i` comes before operator `j` in the list, and one of the two writes a blob that the
other reads or writes. -/
def Conflicts (ops : List OperatorDef) (i j : Nat) : Prop :=
  i < j ∧ ∃ a b, ops[i]? = some a ∧ ops[j]? = some b ∧
    ((∃ blob ∈ a.outputs, blob ∈ b.inputs ∨ blob ∈ b.outputs) ∨
      ∃ blob ∈ a.inputs, blob ∈ b.outputs)

/-! ## One pass over the definitions -/

/-- What the operators so far have left for the next one: the last writer of every blob, and the
readers of every blob since it was last written. -/
structure Frontier where
  writers : Std.TreeMap String Nat := {}
  readers : Std.TreeMap String (List Nat) := {}

namespace Frontier

/-- The last writer of a blob. -/
def writer? (f : Frontier) (blob : String) : Option Nat := f.writers[blob]?

/-- The readers of a blob since it was last written, the first one first. -/
def readersOf (f : Frontier) (blob : String) : List Nat := f.readers.getD blob []

/-- The operators that the next one waits for. -/
def parents (f : Frontier) (op : OperatorDef) : List Nat :=
  Ascending.ofList (op.inputs.filterMap f.writer? ++
    op.outputs.flatMap fun blob => (f.writer? blob).toList ++ f.readersOf blob)

/-- Operator `idx` has read a blob. -/
def read (idx : Nat) (f : Frontier) (blob : String) : Frontier :=
  { f with readers := f.readers.insert blob (f.readersOf blob ++ [idx]) }

/-- Operator `idx` has written a blob. -/
def write (idx : Nat) (f : Frontier) (blob : String) : Frontier :=
  { writers := f.writers.insert blob idx, readers := f.readers.erase blob }

/-- Operator `idx` has run: it has read its inputs, then written its outputs. -/
def advance (f : Frontier) (idx : Nat) (op : OperatorDef) : Frontier :=
  op.outputs.foldl (write idx) (op.inputs.foldl (read idx) f)

/-! ### The frontier after a read and after a write -/

@[simp] theorem writer?_empty (blob : String) : ({} : Frontier).writer? blob = none := by
  simp [writer?]

@[simp] theorem readersOf_empty (blob : String) : ({} : Frontier).readersOf blob = [] := by
  simp [readersOf]

@[simp] theorem writer?_read (idx : Nat) (f : Frontier) (b blob : String) :
    (f.read idx b).writer? blob = f.writer? blob :=
  rfl

theorem readersOf_read (idx : Nat) (f : Frontier) (b blob : String) :
    (f.read idx b).readersOf blob =
      if blob = b then f.readersOf blob ++ [idx] else f.readersOf blob := by
  by_cases h : blob = b
  · simp [read, readersOf, h]
  · simp [read, readersOf, Std.TreeMap.getD_insert, h, Ne.symm h]

theorem writer?_write (idx : Nat) (f : Frontier) (b blob : String) :
    (f.write idx b).writer? blob = if blob = b then some idx else f.writer? blob := by
  simp [write, writer?, Std.TreeMap.getElem?_insert, @eq_comm _ b]

theorem readersOf_write (idx : Nat) (f : Frontier) (b blob : String) :
    (f.write idx b).readersOf blob = if blob = b then [] else f.readersOf blob := by
  simp [write, readersOf, Std.TreeMap.getD_erase, @eq_comm _ b]

end Frontier

/-- The nodes of the operators so far, and what those operators have left. -/
structure Inference where
  frontier : Frontier := {}
  nodes : List Node := []

namespace Inference

/-- Adds a child to the nodes of its parents. -/
def link (child : Nat) (parents : List Nat) (nodes : List Node) : List Node :=
  nodes.mapIdx fun i node =>
    if i ∈ parents then { node with children := node.children ++ [child] } else node

/-- Takes in the next operator. -/
def add (s : Inference) (op : OperatorDef) : Inference :=
  let parents := s.frontier.parents op
  let idx := s.nodes.length
  { frontier := s.frontier.advance idx op
    nodes := link idx parents s.nodes ++ [{ parents }] }

/-- Takes in operators one after another. -/
def ofOps (ops : List OperatorDef) : Inference := ops.foldl add {}

end Inference

/-- The dependency graph of a list of operators: one node for each, in their order. -/
def dependencies (ops : List OperatorDef) : List Node := (Inference.ofOps ops).nodes

end OpNet
