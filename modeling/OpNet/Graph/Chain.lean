import OpNet.Fault
import OpNet.Graph.Dependency

/-!
# Chains

A chain is a run of operators of which each is the only child of the one before it and has no other
parent. The operators of a chain are run one after another as a single task.

* `chains` — cuts the nodes of a graph into chains, the chain of the smallest index first. It takes
  any list of nodes; a single child that is not a node of the list is a panic.
* `ChainGraph.ofNodes` — the graph between the chains.
-/

set_option autoImplicit false

namespace OpNet

/-- The nodes after `start` on its chain, and those of the free nodes that are still free. A chain
ends where a node has no child or several, or where its child has other parents or is taken. -/
def follow (nodes : List Node) (free : List Nat) (start : Nat) :
    Outcome (List Nat × List Nat) :=
  match nth nodes start with
  | .error stop => .error stop
  | .ok node =>
    match node.children with
    | [child] =>
      match nth nodes child with
      | .error stop => .error stop
      | .ok next =>
        if _ : next.parents.length = 1 ∧ child ∈ free then
          match follow nodes (free.erase child) child with
          | .error stop => .error stop
          | .ok (rest, free') => .ok (child :: rest, free')
        else .ok ([], free)
    | _ => .ok ([], free)
termination_by free.length
decreasing_by
  have hmem := (by assumption : next.parents.length = 1 ∧ child ∈ free).2
  rw [List.length_erase_of_mem hmem]
  have := List.length_pos_of_mem hmem
  omega

/-- Following a chain frees no node. -/
theorem length_of_follow {nodes : List Node} {free rest free' : List Nat} {start : Nat}
    (h : follow nodes free start = .ok (rest, free')) : free'.length ≤ free.length := by
  fun_induction follow nodes free start generalizing rest free' with
  | case1 | case2 | case3 => simp at h
  | case4 free start node hnode child hchild next hnext hcond after free₁ hfollow ih =>
    simp only [Except.ok.injEq, Prod.mk.injEq] at h
    obtain ⟨-, rfl⟩ := h
    exact Nat.le_trans (ih hfollow) (List.length_erase_le ..)
  | case5 | case6 =>
    simp only [Except.ok.injEq, Prod.mk.injEq] at h
    exact Nat.le_of_eq (congrArg _ h.2.symm)

/-- The chains of the free nodes, each begun at the first node that is still free. -/
def chainsOf (nodes : List Node) (free : List Nat) : Outcome (List (List Nat)) :=
  match free with
  | [] => .ok []
  | start :: free =>
    match _h : follow nodes free start with
    | .error stop => .error stop
    | .ok (rest, free') =>
      match chainsOf nodes free' with
      | .error stop => .error stop
      | .ok tail => .ok ((start :: rest) :: tail)
termination_by free.length
decreasing_by
  have := length_of_follow _h
  simp only [List.length_cons]
  omega

/-- The chains of a graph. -/
def chains (nodes : List Node) : Outcome (List (List Nat)) :=
  chainsOf nodes (List.range nodes.length)

/-! ## The graph of the chains -/

/-- The chains of a graph, what follows each of them, and how many chains each waits for. -/
structure ChainGraph where
  chains : List (List Nat)
  children : List (List Nat)
  parentCounts : List Nat
deriving DecidableEq

namespace ChainGraph

/-- The position of the chain that an operator is on. -/
def chainOf (chains : List (List Nat)) (op : Nat) : Nat :=
  chains.findIdx (·.contains op)

/-- The children of the last operator of a chain. -/
def tailChildren (nodes : List Node) (chain : List Nat) : List Nat :=
  match chain.getLast?.bind (nodes[·]?) with
  | some node => node.children
  | none => []

/-- The chains that the last operator of a chain leads to. -/
def successors (nodes : List Node) (chains : List (List Nat)) (chain : List Nat) : List Nat :=
  Ascending.ofList ((tailChildren nodes chain).map (chainOf chains))

/-- The number of chains that lead to a chain. -/
def countParents (children : List (List Nat)) (chain : Nat) : Nat :=
  children.countP (·.contains chain)

/-- The graph of the chains of a graph. -/
def ofNodes (nodes : List Node) : Outcome ChainGraph :=
  match OpNet.chains nodes with
  | .error stop => .error stop
  | .ok chains =>
    let children := chains.map (successors nodes chains)
    .ok ⟨chains, children, (List.range chains.length).map (countParents children)⟩

end ChainGraph
end OpNet
