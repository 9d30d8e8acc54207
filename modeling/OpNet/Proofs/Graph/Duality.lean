import OpNet.Proofs.Graph.Parents

/-!
# Parents and children as two records of the same edges

The parents of an operator are written down once, when the pass comes to it. Its children come in one
by one, each when the pass comes to the child. So the pass changes the node of an operator long after
it has left it, and what it has at the end is right only because every state in between was.

* `Inference.map_parents_foldl_add`, `map_parents_take` — further operators leave alone what is
  written down of the parents.
* `Inference.pairwise_children_add` — a further operator is a child that comes after all others.
* `Numbered`, `numbered_dependencies` — parents and children are dual, listed in order, and numbered
  along the list of operators.
-/

set_option autoImplicit false

namespace OpNet

/-! ## Parents -/

namespace Inference

/-- Further operators leave alone what is written down of the parents. -/
theorem map_parents_foldl_add (s : Inference) (more : List OperatorDef) :
    s.nodes.map Node.parents <+: (more.foldl add s).nodes.map Node.parents := by
  induction more generalizing s with
  | nil => exact List.prefix_rfl
  | cons op more ih =>
    have hstep : s.nodes.map Node.parents <+: (s.add op).nodes.map Node.parents := by
      rw [parents_add]
      exact List.prefix_append _ _
    exact hstep.trans (ih (s.add op))

end Inference

/-- The parents of the first operators do not depend on the others. -/
theorem map_parents_take (ops : List OperatorDef) (k : Nat) :
    ((dependencies ops).take k).map Node.parents =
      (dependencies (ops.take k)).map Node.parents := by
  have hfirst : (dependencies (ops.take k)).map Node.parents <+:
      (dependencies ops).map Node.parents := by
    have h := (Inference.ofOps (ops.take k)).map_parents_foldl_add (ops.drop k)
    rwa [Inference.ofOps, ← List.foldl_append, List.take_append_drop] at h
  rw [List.map_take, List.prefix_iff_eq_take.1 hfirst, List.take_eq_take_iff]
  simp [length_dependencies]

/-! ## Children -/

namespace Inference

/-- Children stay in order: a further operator comes after all of them. -/
theorem pairwise_children_add {ops : List OperatorDef} {s : Inference} (ht : Tracks ops s)
    (h : ∀ node ∈ s.nodes, node.children.Pairwise (· < ·)) (op : OperatorDef) :
    ∀ node ∈ (s.add op).nodes, node.children.Pairwise (· < ·) := by
  intro node hnode
  rw [add, List.mem_append] at hnode
  rcases hnode with hlinked | hnew
  · obtain ⟨i, hi⟩ := List.mem_iff_getElem?.1 hlinked
    rw [getElem?_link] at hi
    obtain ⟨old, hold, rfl⟩ := Option.map_eq_some_iff.1 hi
    have hsorted := h old (List.mem_of_getElem? hold)
    split
    · -- the children so far are operators before this one
      refine List.pairwise_append.2 ⟨hsorted, List.pairwise_singleton _ _, fun c hc d hd => ?_⟩
      rw [List.mem_singleton.1 hd, ht.length_nodes]
      exact ((ht.mem_children hold c).1 hc).lt_length
    · exact hsorted
  · rw [List.mem_singleton.1 hnew]
    exact List.Pairwise.nil

end Inference

/-- The children of an operator are listed in order. -/
theorem pairwise_children {ops : List OperatorDef} :
    ∀ node ∈ dependencies ops, node.children.Pairwise (· < ·) := by
  induction ops using List.reverseRecOn with
  | nil => exact fun node h => absurd h List.not_mem_nil
  | append_singleton ops op ih =>
    rw [dependencies, Inference.ofOps_append]
    exact Inference.pairwise_children_add (Inference.tracks_ofOps ops) ih op

/-! ## The graph -/

/-- The nodes of a list of operators, numbered as the operators are. -/
structure Numbered (ops : List OperatorDef) (nodes : List Node) : Prop where
  length_eq : nodes.length = ops.length
  /-- One operator is a parent of another one exactly if that one is a child of it. -/
  dual : ∀ i j, (∃ node, nodes[j]? = some node ∧ i ∈ node.parents) ↔ Edge nodes i j
  /-- These are the edges that the rules give. -/
  edge_iff : ∀ i j, Edge nodes i j ↔ WaitsFor ops j i
  pairwise_parents : ∀ node ∈ nodes, node.parents.Pairwise (· < ·)
  pairwise_children : ∀ node ∈ nodes, node.children.Pairwise (· < ·)
  parents_lt : ∀ (j : Nat) (node : Node), nodes[j]? = some node → ∀ i ∈ node.parents, i < j
  lt_children : ∀ (i : Nat) (node : Node), nodes[i]? = some node →
    ∀ j ∈ node.children, i < j ∧ j < ops.length
  /-- The parents of the first operators do not depend on the others. -/
  take_parents : ∀ k, (nodes.take k).map Node.parents =
    (dependencies (ops.take k)).map Node.parents

/-- **Parents and children are two records of the same edges**, both in order, and every edge leads
from an operator to a later one. -/
theorem numbered_dependencies (ops : List OperatorDef) : Numbered ops (dependencies ops) where
  length_eq := length_dependencies ops
  dual i j := by
    constructor
    · rintro ⟨node, hnode, hi⟩
      exact (edge_iff_mem_parents hnode).2 hi
    · intro hedge
      have hlt := (edge_dependencies_iff.1 hedge).lt_length
      obtain ⟨node, hnode⟩ := exists_node_of_lt hlt
      exact ⟨node, hnode, (edge_iff_mem_parents hnode).1 hedge⟩
  edge_iff i j := edge_dependencies_iff
  pairwise_parents node hnode := pairwise_parents hnode
  pairwise_children := pairwise_children
  parents_lt j node hnode i hi := ((mem_parents_iff hnode i).1 hi).lt
  lt_children i node hnode j hj := by
    have hwaits := edge_dependencies_iff.1 ⟨node, hnode, hj⟩
    exact ⟨hwaits.lt, hwaits.lt_length⟩
  take_parents := map_parents_take ops

end OpNet
