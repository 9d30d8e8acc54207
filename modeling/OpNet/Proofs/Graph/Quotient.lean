import Mathlib.Data.List.Nodup
import OpNet.Net.Schedule
import OpNet.Proofs.Graph.Chains
import OpNet.Proofs.Graph.Inference

/-!
# The graph between the chains

`ChainGraph.ofNodes` looks only at the last operator of every chain to find out which chains follow
it. For the graphs that `dependencies` makes this loses no edge: an edge that does not lead to the
next operator of the same chain leads from the end of a chain to the start of another one.

* `ChainGraph.QuotientOf` — what a scheduler needs of a chain graph.
* `quotientOf_dependencies` — the chain graph of inferred dependencies is of this kind, and
  `exists_ofNodes_dependencies` — there always is one.
-/

set_option autoImplicit false

namespace OpNet

/-! ## Inferred graphs -/

theorem Edge.lt_of_dependencies {ops : List OperatorDef} {i j : Nat}
    (h : Edge (dependencies ops) i j) : i < j :=
  (edge_dependencies_iff.1 h).lt

theorem Edge.lt_length {nodes : List Node} {i j : Nat} (h : Edge nodes i j) :
    i < nodes.length := by
  obtain ⟨node, hnode, -⟩ := h
  exact (List.getElem?_eq_some_iff.1 hnode).1

theorem Reaches.lt_of_dependencies {ops : List OperatorDef} {i j : Nat}
    (h : Reaches (dependencies ops) i j) : i < j := by
  induction h with
  | single he => exact he.lt_of_dependencies
  | tail _ he ih => exact Nat.lt_trans ih he.lt_of_dependencies

/-- A path starts at a node. -/
theorem Reaches.lt_length {nodes : List Node} {i j : Nat} (h : Reaches nodes i j) :
    i < nodes.length := by
  induction h with
  | single he => exact he.lt_length
  | tail _ _ ih => exact ih

theorem childrenInRange_dependencies (ops : List OperatorDef) :
    ChildrenInRange (dependencies ops) := by
  intro node hnode child hchild
  obtain ⟨i, hi⟩ := List.getElem?_of_mem hnode
  rw [length_dependencies]
  exact (edge_dependencies_iff.1 ⟨node, hi, hchild⟩).lt_length

theorem Linked.edge {nodes : List Node} {a b : Nat} (h : Linked nodes a b) : Edge nodes a b := by
  obtain ⟨node, next, hnode, hchild, -⟩ := h
  exact ⟨node, hnode, by simp [hchild]⟩

/-- An operator that follows another one on a chain has no other parent. -/
theorem Linked.eq_of_edge {ops : List OperatorDef} {a b i : Nat}
    (h : Linked (dependencies ops) a b) (he : Edge (dependencies ops) i b) : i = a := by
  obtain ⟨node, next, -, -, hnext, hone⟩ := id h
  obtain ⟨p, hp⟩ := List.length_eq_one_iff.1 hone
  have ha := (edge_iff_mem_parents hnext).1 h.edge
  have hi := (edge_iff_mem_parents hnext).1 he
  rw [hp, List.mem_singleton] at ha hi
  rw [ha, hi]

/-- The only child of an operator is the one that follows it on its chain. -/
theorem Linked.eq_child {nodes : List Node} {a b j : Nat} (h : Linked nodes a b)
    (he : Edge nodes a j) : j = b := by
  obtain ⟨node, next, hnode, hchild, -⟩ := h
  obtain ⟨node', hnode', hj⟩ := he
  obtain rfl : node = node' := Option.some.inj (hnode.symm.trans hnode')
  simpa [hchild] using hj

/-! ## Chain graphs -/

/-- Of lists without repetitions, in themselves and between them, an element is in one only. -/
theorem eq_of_nodup_flatten {α : Type} {xss : List (List α)} (h : xss.flatten.Nodup) {c d : Nat}
    {C D : List α} {x : α} (hc : xss[c]? = some C) (hd : xss[d]? = some D) (hxC : x ∈ C)
    (hxD : x ∈ D) : c = d := by
  have hdisjoint := (List.nodup_flatten.1 h).2
  obtain ⟨hclt, rfl⟩ := List.getElem?_eq_some_iff.1 hc
  obtain ⟨hdlt, rfl⟩ := List.getElem?_eq_some_iff.1 hd
  rcases Nat.lt_trichotomy c d with hlt | heq | hlt
  · exact (List.pairwise_iff_getElem.1 hdisjoint c d hclt hdlt hlt hxC hxD).elim
  · exact heq
  · exact (List.pairwise_iff_getElem.1 hdisjoint d c hdlt hclt hlt hxD hxC).elim

namespace ChainGraph

/-- What makes a chain graph fit for scheduling the operators of a graph. -/
structure QuotientOf (nodes : List Node) (g : ChainGraph) : Prop where
  /-- Every operator is on one chain, and there only once. -/
  perm : g.chains.flatten.Perm (List.range nodes.length)
  length_children : g.children.length = g.chains.length
  parentCounts_eq :
    g.parentCounts = (List.range g.chains.length).map (countParents g.children)
  nodup_childrenOf : ∀ c, (g.childrenOf c).Nodup
  lt_of_mem_childrenOf : ∀ {c d}, d ∈ g.childrenOf c → c < d ∧ d < g.chains.length
  /-- An edge leads to the next operator of a chain or to the first one of a chain that waits. -/
  of_edge : ∀ {i j}, Edge nodes i j →
    (∃ c before after, g.opsOf c = before ++ i :: j :: after) ∨
      ∃ c d after, i ∈ g.opsOf c ∧ g.opsOf d = j :: after ∧ d ∈ g.childrenOf c

namespace QuotientOf

variable {nodes : List Node} {g : ChainGraph}

theorem getElem?_of_mem_opsOf {c i : Nat} (h : i ∈ g.opsOf c) :
    g.chains[c]? = some (g.opsOf c) := by
  rw [opsOf] at h ⊢
  cases hc : g.chains[c]? with
  | none => simp [hc] at h
  | some C => rfl

theorem lt_of_mem_opsOf {c i : Nat} (h : i ∈ g.opsOf c) : c < g.chains.length :=
  (List.getElem?_eq_some_iff.1 (getElem?_of_mem_opsOf h)).1

theorem mem_flatten_iff {i : Nat} : i ∈ g.chains.flatten ↔ ∃ c, i ∈ g.opsOf c := by
  constructor
  · intro h
    obtain ⟨C, hC, hi⟩ := List.mem_flatten.1 h
    obtain ⟨c, hc⟩ := List.getElem?_of_mem hC
    exact ⟨c, by simpa [opsOf, hc] using hi⟩
  · rintro ⟨c, hi⟩
    exact List.mem_flatten.2 ⟨_, List.mem_of_getElem? (getElem?_of_mem_opsOf hi), hi⟩

/-- The operators on chains are those of the graph. -/
theorem exists_mem_opsOf_iff (h : g.QuotientOf nodes) {i : Nat} :
    (∃ c, i ∈ g.opsOf c) ↔ i < nodes.length := by
  rw [← mem_flatten_iff, h.perm.mem_iff, List.mem_range]

theorem nodup_flatten (h : g.QuotientOf nodes) : g.chains.flatten.Nodup :=
  h.perm.nodup_iff.2 List.nodup_range

theorem nodup_opsOf (h : g.QuotientOf nodes) (c : Nat) : (g.opsOf c).Nodup := by
  rw [opsOf]
  cases hc : g.chains[c]? with
  | none => exact .nil
  | some C => exact (List.nodup_flatten.1 h.nodup_flatten).1 C (List.mem_of_getElem? hc)

/-- An operator is on one chain only. -/
theorem eq_of_mem_opsOf (h : g.QuotientOf nodes) {c d i : Nat} (hc : i ∈ g.opsOf c)
    (hd : i ∈ g.opsOf d) : c = d :=
  eq_of_nodup_flatten h.nodup_flatten (getElem?_of_mem_opsOf hc) (getElem?_of_mem_opsOf hd) hc hd

/-- A chain waits for as many chains as lead to it. -/
theorem getElem?_parentCounts (h : g.QuotientOf nodes) {d : Nat} (hd : d < g.chains.length) :
    g.parentCounts[d]? =
      some ((List.range g.chains.length).countP fun c => d ∈ g.childrenOf c) := by
  have hchildren : g.children = (List.range g.chains.length).map g.childrenOf := by
    refine List.ext_getElem (by simp [h.length_children]) fun c hc _ => ?_
    simp [childrenOf, List.getElem?_eq_getElem hc]
  rw [h.parentCounts_eq, List.getElem?_map, List.getElem?_range hd, Option.map_some, countParents]
  conv_lhs => rw [hchildren, List.countP_map]
  simp [Function.comp_def]

end QuotientOf
end ChainGraph

/-- Everything that is on a chain but not at its end is followed by something. -/
theorem getLast?_or_followed {C : List Nat} {i : Nat} (h : i ∈ C) :
    C.getLast? = some i ∨ ∃ before j after, C = before ++ i :: j :: after := by
  obtain ⟨before, after, rfl⟩ := List.append_of_mem h
  cases after with
  | nil => exact .inl (by simp)
  | cons j after => exact .inr ⟨before, j, after, rfl⟩

/-- Everything that is on a chain but not at its start follows something. -/
theorem head?_or_follows {C : List Nat} {j : Nat} (h : j ∈ C) :
    (∃ after, C = j :: after) ∨ ∃ before i after, C = before ++ i :: j :: after := by
  obtain ⟨before, after, rfl⟩ := List.append_of_mem h
  rcases List.eq_nil_or_concat before with rfl | ⟨before, i, rfl⟩
  · exact .inl ⟨after, rfl⟩
  · exact .inr ⟨before, i, after, by simp⟩

section

variable {ops : List OperatorDef} {cs : List (List Nat)}

/-- The operators of a chain rise. -/
theorem pairwise_lt_of_mem_chains (hcs : chains (dependencies ops) = .ok cs) {C : List Nat}
    (hC : C ∈ cs) : C.Pairwise (· < ·) := by
  have hlinked := ((cut_of_chains hcs).isChain C hC).2
  exact (hlinked.imp fun a b h => h.edge.lt_of_dependencies).pairwise

theorem exists_mem_chains (hcs : chains (dependencies ops) = .ok cs) {i : Nat}
    (hi : i < ops.length) : ∃ C ∈ cs, i ∈ C := by
  have hmem : i ∈ cs.flatten :=
    (perm_of_chains hcs).symm.subset (List.mem_range.2 (by rwa [length_dependencies]))
  simpa [List.mem_flatten] using hmem

/-- An operator is on one chain only. -/
theorem eq_of_mem_of_mem (hcs : chains (dependencies ops) = .ok cs) {c d i : Nat} {C D : List Nat}
    (hc : cs[c]? = some C) (hd : cs[d]? = some D) (hiC : i ∈ C) (hiD : i ∈ D) : c = d :=
  eq_of_nodup_flatten ((perm_of_chains hcs).nodup_iff.2 List.nodup_range) hc hd hiC hiD

theorem chainOf_eq (hcs : chains (dependencies ops) = .ok cs) {d i : Nat} {D : List Nat}
    (hd : cs[d]? = some D) (hi : i ∈ D) : ChainGraph.chainOf cs i = d := by
  have hlt : ChainGraph.chainOf cs i < cs.length :=
    List.findIdx_lt_length_of_exists ⟨D, List.mem_of_getElem? hd, by simpa using hi⟩
  have hmem : i ∈ cs[ChainGraph.chainOf cs i] := by
    have h : cs[ChainGraph.chainOf cs i].contains i = true := List.findIdx_getElem (w := hlt)
    rwa [List.contains_iff_mem] at h
  exact eq_of_mem_of_mem hcs (List.getElem?_eq_getElem hlt) hd hmem hi

theorem mem_tailChildren {nodes : List Node} {C : List Nat} {j : Nat} :
    j ∈ ChainGraph.tailChildren nodes C ↔ ∃ i, C.getLast? = some i ∧ Edge nodes i j := by
  rw [ChainGraph.tailChildren]
  cases hlast : C.getLast? with
  | none => simp
  | some i =>
    cases hnode : nodes[i]? with
    | none => simp [Edge, hnode]
    | some node => simp [Edge, hnode]

/-- A chain leads to a chain when an edge leads from its last operator to the first one there. -/
theorem mem_successors_iff (hcs : chains (dependencies ops) = .ok cs) {C : List Nat} {d : Nat} :
    d ∈ ChainGraph.successors (dependencies ops) cs C ↔
      ∃ i j D, C.getLast? = some i ∧ cs[d]? = some D ∧ j ∈ D ∧ Edge (dependencies ops) i j := by
  simp only [ChainGraph.successors, Ascending.mem_ofList, List.mem_map, mem_tailChildren]
  constructor
  · rintro ⟨j, ⟨i, hlast, he⟩, rfl⟩
    obtain ⟨D, hD, hj⟩ := exists_mem_chains hcs (edge_dependencies_iff.1 he).lt_length
    obtain ⟨d, hd⟩ := List.getElem?_of_mem hD
    rw [chainOf_eq hcs hd hj]
    exact ⟨i, j, D, hlast, hd, hj, he⟩
  · rintro ⟨i, j, D, hlast, hd, hj, he⟩
    exact ⟨j, ⟨i, hlast, he⟩, chainOf_eq hcs hd hj⟩

/-- The last operator of a chain is the greatest. -/
theorem le_of_getLast? (hcs : chains (dependencies ops) = .ok cs) {C : List Nat} (hC : C ∈ cs)
    {i j : Nat} (hlast : C.getLast? = some i) (hj : j ∈ C) : j ≤ i := by
  have hsorted := pairwise_lt_of_mem_chains hcs hC
  obtain ⟨before, rfl⟩ := List.getLast?_eq_some_iff.1 hlast
  rcases List.mem_append.1 hj with hj | hj
  · exact Nat.le_of_lt ((List.pairwise_append.1 hsorted).2.2 j hj i (List.mem_singleton_self i))
  · exact Nat.le_of_eq (List.mem_singleton.1 hj)

/-- An edge that leaves the end of a chain enters the start of another one. -/
theorem start_of_edge (hcs : chains (dependencies ops) = .ok cs) {C D : List Nat} (hC : C ∈ cs)
    (hD : D ∈ cs) {i j : Nat} (hlast : C.getLast? = some i) (hj : j ∈ D)
    (he : Edge (dependencies ops) i j) : ∃ after, D = j :: after := by
  rcases head?_or_follows hj with hstart | ⟨before, k, after, rfl⟩
  · exact hstart
  · have hlinked := ((cut_of_chains hcs).isChain _ hD).2
    obtain rfl := (List.isChain_append_cons_cons.1 hlinked).2.1.eq_of_edge he
    obtain ⟨c, hc⟩ := List.getElem?_of_mem hC
    obtain ⟨d, hd⟩ := List.getElem?_of_mem hD
    -- `i` is on both chains, so they are one, on which `j` comes after the last operator
    obtain rfl := eq_of_mem_of_mem hcs hc hd (List.mem_of_getLast? hlast) (by simp)
    obtain rfl := Option.some.inj (hc.symm.trans hd)
    exact absurd (le_of_getLast? hcs hC hlast hj) (Nat.not_le.2 he.lt_of_dependencies)

/-- **An edge stays on a chain or leads from the end of a chain to the start of another.** -/
theorem edge_cases (hcs : chains (dependencies ops) = .ok cs) {i j : Nat}
    (he : Edge (dependencies ops) i j) :
    (∃ C ∈ cs, ∃ before after, C = before ++ i :: j :: after) ∨
      ∃ C ∈ cs, ∃ D ∈ cs, C.getLast? = some i ∧ ∃ after, D = j :: after := by
  have hjlt := (edge_dependencies_iff.1 he).lt_length
  obtain ⟨C, hC, hi⟩ := exists_mem_chains hcs (Nat.lt_trans he.lt_of_dependencies hjlt)
  obtain ⟨D, hD, hj⟩ := exists_mem_chains hcs hjlt
  rcases getLast?_or_followed hi with hlast | ⟨before, k, after, rfl⟩
  · exact .inr ⟨C, hC, D, hD, hlast, start_of_edge hcs hC hD hlast hj he⟩
  · have hlinked := ((cut_of_chains hcs).isChain _ hC).2
    obtain rfl := (List.isChain_append_cons_cons.1 hlinked).2.1.eq_child he
    exact .inl ⟨_, hC, before, after, rfl⟩

/-- The chains that follow a chain come later. -/
theorem lt_of_mem_successors (hcs : chains (dependencies ops) = .ok cs) {c d : Nat} {C : List Nat}
    (hc : cs[c]? = some C) (h : d ∈ ChainGraph.successors (dependencies ops) cs C) :
    c < d ∧ d < cs.length := by
  obtain ⟨i, j, D, hlast, hd, hj, he⟩ := (mem_successors_iff hcs).1 h
  have hC := List.mem_of_getElem? hc
  have hij := he.lt_of_dependencies
  obtain ⟨after, rfl⟩ := start_of_edge hcs hC (List.mem_of_getElem? hd) hlast hj he
  obtain ⟨hclt, rfl⟩ := List.getElem?_eq_some_iff.1 hc
  obtain ⟨hdlt, hD⟩ := List.getElem?_eq_some_iff.1 hd
  refine ⟨?_, hdlt⟩
  rcases Nat.lt_trichotomy c d with hlt | rfl | hlt
  · exact hlt
  · rw [hD] at hlast hC
    exact absurd (le_of_getLast? hcs hC hlast hj) (Nat.not_le.2 hij)
  · have h := List.pairwise_iff_getElem.1 (pairwise_of_chains hcs) d c hdlt hclt hlt j
      (by simp [hD]) i (List.mem_of_getLast? hlast)
    omega

end

/-! ## The chain graph of inferred dependencies -/

theorem exists_ofNodes_dependencies (ops : List OperatorDef) :
    ∃ g, ChainGraph.ofNodes (dependencies ops) = .ok g := by
  obtain ⟨cs, hcs⟩ := exists_chains (childrenInRange_dependencies ops)
  exact ⟨_, by rw [ChainGraph.ofNodes, hcs]⟩

theorem mem_childrenOf_iff {nodes : List Node} {cs : List (List Nat)} {counts : List Nat}
    {c d : Nat} :
    d ∈ ChainGraph.childrenOf ⟨cs, cs.map (ChainGraph.successors nodes cs), counts⟩ c ↔
      ∃ C, cs[c]? = some C ∧ d ∈ ChainGraph.successors nodes cs C := by
  rw [ChainGraph.childrenOf, List.getElem?_map]
  cases cs[c]? <;> simp

/-- **The chain graph of inferred dependencies is fit for scheduling.** -/
theorem quotientOf_dependencies {ops : List OperatorDef} {g : ChainGraph}
    (h : ChainGraph.ofNodes (dependencies ops) = .ok g) : g.QuotientOf (dependencies ops) := by
  rw [ChainGraph.ofNodes] at h
  split at h
  · cases h
  · next cs hcs =>
    cases h
    refine ⟨perm_of_chains hcs, by simp, by simp, fun c => ?_, fun {c d} hd => ?_,
      fun {i j} he => ?_⟩
    · rw [ChainGraph.childrenOf, List.getElem?_map]
      cases cs[c]? with
      | none => exact .nil
      | some C => exact (Ascending.pairwise_ofList _).imp Nat.ne_of_lt
    · obtain ⟨C, hc, hd⟩ := mem_childrenOf_iff.1 hd
      exact lt_of_mem_successors hcs hc hd
    · rcases edge_cases hcs he with
        ⟨C, hC, before, after, hsplit⟩ | ⟨C, hC, D, hD, hlast, after, hs⟩
      · obtain ⟨c, hc⟩ := List.getElem?_of_mem hC
        exact .inl ⟨c, before, after, by simp [ChainGraph.opsOf, hc, hsplit]⟩
      · obtain ⟨c, hc⟩ := List.getElem?_of_mem hC
        obtain ⟨d, hd⟩ := List.getElem?_of_mem hD
        refine .inr ⟨c, d, after, ?_, ?_, ?_⟩
        · simpa [ChainGraph.opsOf, hc] using List.mem_of_getLast? hlast
        · simp [ChainGraph.opsOf, hd, hs]
        · exact mem_childrenOf_iff.2 ⟨C, hc, (mem_successors_iff hcs).2
            ⟨i, j, D, hlast, hd, by simp [hs], he⟩⟩

end OpNet
