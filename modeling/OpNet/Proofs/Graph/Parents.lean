import Mathlib.Data.List.Sort
import OpNet.Proofs.Graph.Inference

/-!
# The parents of an operator, as lists

The edges of an inferred graph are those of the three rules. Here the same is said of what the pass
really writes down: for every operator one list, in which nothing is there twice or out of order. The
rules only look at finitely many operators and blobs, so that they can be evaluated, and the lists
are what filtering the earlier operators with them gives.

* `WaitsFor` is decidable.
* `Inference.parents_add` — a further operator leaves the parents of the others as they are.
* `pairwise_parents` — the parents of an operator are listed in order.
* `map_parents_dependencies` — the lists of the whole graph.
-/

set_option autoImplicit false

namespace OpNet

/-! ## Deciding the rules -/

section

variable (ops : List OperatorDef) (blob : String) (i j : Nat)

instance : Decidable (Reads ops i blob) :=
  inferInstanceAs (Decidable (∃ op ∈ ops[i]?, blob ∈ op.inputs))

instance : Decidable (Writes ops i blob) :=
  inferInstanceAs (Decidable (∃ op ∈ ops[i]?, blob ∈ op.outputs))

instance : Decidable (LastWriter ops blob j i) :=
  decidable_of_iff (i < j ∧ Writes ops i blob ∧ ∀ k < j, i < k → ¬Writes ops k blob) <|
    and_congr_right' <| and_congr_right' <| forall_congr' fun _ => forall_comm

instance : Decidable (ReadSince ops blob j i) :=
  decidable_of_iff (i < j ∧ Reads ops i blob ∧ ∀ k < j, i ≤ k → ¬Writes ops k blob) <|
    and_congr_right' <| and_congr_right' <| forall_congr' fun _ => forall_comm

/-- Only the blobs that an operator names can make it wait. -/
theorem waitsFor_iff : WaitsFor ops j i ↔ ∃ op ∈ ops[j]?,
    (∃ blob ∈ op.inputs ++ op.outputs, LastWriter ops blob j i) ∨
      ∃ blob ∈ op.outputs, ReadSince ops blob j i := by
  constructor
  · rintro ⟨blob, ⟨⟨op, hop, hin⟩ | ⟨op, hop, hout⟩, hlast⟩ | ⟨⟨op, hop, hout⟩, hread⟩⟩
    · exact ⟨op, hop, .inl ⟨blob, List.mem_append_left _ hin, hlast⟩⟩
    · exact ⟨op, hop, .inl ⟨blob, List.mem_append_right _ hout, hlast⟩⟩
    · exact ⟨op, hop, .inr ⟨blob, hout, hread⟩⟩
  · rintro ⟨op, hop, ⟨blob, hmem, hlast⟩ | ⟨blob, hout, hread⟩⟩
    · refine ⟨blob, .inl ⟨?_, hlast⟩⟩
      exact (List.mem_append.1 hmem).imp (fun hin => ⟨op, hop, hin⟩) fun hout => ⟨op, hop, hout⟩
    · exact ⟨blob, .inr ⟨⟨op, hop, hout⟩, hread⟩⟩

instance : Decidable (WaitsFor ops j i) :=
  decidable_of_iff _ (waitsFor_iff ops i j).symm

end

/-! ## The lists -/

namespace Inference

theorem map_parents_link (child : Nat) (parents : List Nat) (nodes : List Node) :
    (link child parents nodes).map Node.parents = nodes.map Node.parents := by
  refine List.ext_getElem? fun i => ?_
  rw [List.getElem?_map, getElem?_link, List.getElem?_map, Option.map_map]
  refine congrArg (Option.map · nodes[i]?) (funext fun node => ?_)
  show Node.parents (if i ∈ parents then _ else _) = _
  split <;> rfl

/-- Another operator is a child of some of those that are there, but a parent of none. -/
theorem parents_add (s : Inference) (op : OperatorDef) :
    (s.add op).nodes.map Node.parents = s.nodes.map Node.parents ++ [s.frontier.parents op] := by
  simp only [add, List.map_append, map_parents_link, List.map_cons, List.map_nil]

end Inference

/-- The parents of an operator are listed in order. -/
theorem pairwise_parents {ops : List OperatorDef} {node : Node} (h : node ∈ dependencies ops) :
    node.parents.Pairwise (· < ·) := by
  suffices hall : ∀ parents ∈ (dependencies ops).map Node.parents, parents.Pairwise (· < ·) from
    hall _ (List.mem_map_of_mem h)
  clear h
  induction ops using List.reverseRecOn with
  | nil => simp [dependencies, Inference.ofOps]
  | append_singleton ops op ih =>
    intro parents hmem
    rw [dependencies, Inference.ofOps_append, Inference.parents_add, List.mem_append] at hmem
    rcases hmem with hold | hnew
    · exact ih parents hold
    · rw [List.mem_singleton.1 hnew]
      exact Ascending.pairwise_ofList _

/-- **The parents of an operator are those that the rules name, in order.** Neither an operator that
writes what it reads, nor a blob that it names twice, nor one that nobody has written makes a
difference to this. -/
theorem map_parents_dependencies (ops : List OperatorDef) :
    (dependencies ops).map Node.parents =
      (List.range ops.length).map fun j => (List.range j).filter fun i => WaitsFor ops j i := by
  refine List.ext_getElem (by simp [length_dependencies]) fun j hj _ => ?_
  rw [List.length_map] at hj
  have hnode := List.getElem?_eq_getElem hj
  rw [List.getElem_map, List.getElem_map, List.getElem_range]
  refine (pairwise_parents (List.getElem_mem hj)).eq_of_mem_iff
    (List.pairwise_lt_range.filter _) fun i => ?_
  rw [mem_parents_iff hnode, List.mem_filter, List.mem_range, decide_eq_true_eq]
  exact (and_iff_right_of_imp WaitsFor.lt).symm

/-- An operator that writes the blob it reads waits for the last writer and the readers of it, but
not for itself. -/
example : ∀ i < 4, (WaitsFor [{ opType := "A", outputs := ["x"] }, { opType := "B", inputs := ["x"] },
    { opType := "C", inputs := ["x", "x"], outputs := ["x"] }] 2 i ↔ i = 0 ∨ i = 1) := by decide

end OpNet
