import OpNet.Proofs.Graph.Quotient

/-!
# Chains are the maximal linear runs

A chain is begun at the smallest operator that is still free, whether or not something could come
before it there, and it ends where the next operator is taken. In an inferred graph neither cuts a
run of single links short: an operator comes after its parents, so that the first free operator of a
run is the first of all, and what it leads to is free.

* `MaximalRuns` — the chains are the runs of single links, and their order respects the edges.
* `follows_of_linked` — of two linked operators the second one directly follows the first one.
* `parents_before_of_chains` — chain after chain, an operator comes after its parents.
* `exists_maximalRuns` — so it is for the chains of every inferred graph.
-/

set_option autoImplicit false

namespace OpNet

/-- In some list, `b` directly follows `a`. -/
def Follows (cs : List (List Nat)) (a b : Nat) : Prop :=
  ∃ chain ∈ cs, ∃ before after, chain = before ++ a :: b :: after

/-- The only child of `a` is `b`, and the only parent of `b` is `a`. -/
def OnlyLink (nodes : List Node) (a b : Nat) : Prop :=
  ∃ node next, nodes[a]? = some node ∧ node.children = [b] ∧ nodes[b]? = some next ∧
    next.parents = [a]

/-- The lists are the maximal runs of a graph, and one after another they run it in order. -/
structure MaximalRuns (nodes : List Node) (cs : List (List Nat)) : Prop where
  follows_iff : ∀ a b, Follows cs a b ↔ OnlyLink nodes a b
  /-- Every operator is in one list, and there only once. -/
  perm : cs.flatten.Perm (List.range nodes.length)
  rise : ∀ chain ∈ cs, chain.Pairwise (· < ·)
  parents_before : ∀ before j after, cs.flatten = before ++ j :: after →
    ∀ node, nodes[j]? = some node → ∀ i ∈ node.parents, i ∈ before

section

variable {ops : List OperatorDef} {cs : List (List Nat)}

/-! ## Links -/

/-- In an inferred graph an operator with one parent that is the only child of another one has this
for its parent. -/
theorem onlyLink_iff_linked {a b : Nat} :
    OnlyLink (dependencies ops) a b ↔ Linked (dependencies ops) a b := by
  constructor
  · rintro ⟨node, next, hnode, hchild, hnext, hparent⟩
    exact ⟨node, next, hnode, hchild, hnext, by simp [hparent]⟩
  · intro h
    obtain ⟨node, next, hnode, hchild, hnext, hone⟩ := id h
    refine ⟨node, next, hnode, hchild, hnext, ?_⟩
    obtain ⟨p, hp⟩ := List.length_eq_one_iff.1 hone
    have ha := (edge_iff_mem_parents hnext).1 h.edge
    rw [hp, List.mem_singleton] at ha
    rw [hp, ha]

theorem Follows.linked (hcs : chains (dependencies ops) = .ok cs) {a b : Nat}
    (h : Follows cs a b) : Linked (dependencies ops) a b := by
  obtain ⟨chain, hchain, before, after, rfl⟩ := h
  exact (List.isChain_append_cons_cons.1 ((cut_of_chains hcs).isChain _ hchain).2).2.1

/-- **No run is cut short.** Of two linked operators the second one directly follows the first. -/
theorem follows_of_linked (hcs : chains (dependencies ops) = .ok cs) {a b : Nat}
    (h : Linked (dependencies ops) a b) : Follows cs a b := by
  rcases edge_cases hcs h.edge with ⟨chain, hchain, hsplit⟩ | ⟨C, hC, D, hD, hlast, after, rfl⟩
  · exact ⟨chain, hchain, hsplit⟩
  · -- otherwise the chain of `a` ends, and is not the later one, as `a` comes before `b`
    obtain ⟨c, hclt, rfl⟩ := List.getElem_of_mem hC
    obtain ⟨d, hdlt, hd⟩ := List.getElem_of_mem hD
    have ha := List.mem_of_getLast? hlast
    have hab := h.edge.lt_of_dependencies
    rcases Nat.lt_trichotomy c d with hlt | rfl | hlt
    · have hends := List.pairwise_iff_getElem.1 (cut_of_chains hcs).pairwise_not_linked
        c d hclt hdlt hlt
      exact absurd h (hends a hlast b (by simp [hd]))
    · have hle := le_of_getLast? hcs hC hlast (j := b) (by simp [hd])
      omega
    · have hba := List.pairwise_iff_getElem.1 (pairwise_of_chains hcs) d c hdlt hclt hlt b
        (by simp [hd]) a ha
      omega

/-! ## The order of the chains -/

/-- No operator of a chain leads to one of an earlier chain. -/
theorem not_edge_of_lt (hcs : chains (dependencies ops) = .ok cs) {c d x y : Nat}
    {C D : List Nat} (hc : cs[c]? = some C) (hd : cs[d]? = some D) (hlt : c < d) (hx : x ∈ C)
    (hy : y ∈ D) : ¬Edge (dependencies ops) y x := by
  intro he
  rcases edge_cases hcs he with ⟨_, hE, before, after, rfl⟩ | ⟨_, -, _, hE, -, after, rfl⟩
  · -- a chain on which they are both would be the earlier and the later one
    obtain ⟨e, he'⟩ := List.getElem?_of_mem hE
    have hce := eq_of_mem_of_mem hcs hc he' hx (by simp)
    have hde := eq_of_mem_of_mem hcs hd he' hy (by simp)
    omega
  · -- the earlier chain starts with `x`, and so before everything on the later one
    obtain ⟨e, he'⟩ := List.getElem?_of_mem hE
    obtain rfl := eq_of_mem_of_mem hcs hc he' hx (by simp)
    obtain rfl := Option.some.inj (hc.symm.trans he')
    obtain ⟨hclt, hC⟩ := List.getElem?_eq_some_iff.1 hc
    obtain ⟨hdlt, rfl⟩ := List.getElem?_eq_some_iff.1 hd
    have hxy := List.pairwise_iff_getElem.1 (pairwise_of_chains hcs) c d hclt hdlt hlt x
      (by simp [hC]) y hy
    exact Nat.lt_asymm hxy he.lt_of_dependencies

/-- Chain after chain, no operator leads to one that comes before it. -/
theorem pairwise_not_edge_of_chains (hcs : chains (dependencies ops) = .ok cs) :
    cs.flatten.Pairwise fun x y => ¬Edge (dependencies ops) y x := by
  refine List.pairwise_flatten.2 ⟨fun chain hchain => ?_, ?_⟩
  · refine (pairwise_lt_of_mem_chains hcs hchain).imp fun hlt he => ?_
    exact Nat.lt_asymm hlt he.lt_of_dependencies
  · refine List.pairwise_iff_getElem.2 fun c d hc hd hlt x hx y hy => ?_
    exact not_edge_of_lt hcs (List.getElem?_eq_getElem hc) (List.getElem?_eq_getElem hd) hlt hx hy

/-- **The chains one after another are an order in which operators come after their parents.** -/
theorem parents_before_of_chains (hcs : chains (dependencies ops) = .ok cs)
    {before after : List Nat} {j : Nat} (hsplit : cs.flatten = before ++ j :: after) {node : Node}
    (hnode : (dependencies ops)[j]? = some node) {i : Nat} (hi : i ∈ node.parents) :
    i ∈ before := by
  have he : Edge (dependencies ops) i j := (edge_iff_mem_parents hnode).2 hi
  have hmem : i ∈ cs.flatten := (perm_of_chains hcs).mem_iff.2 (List.mem_range.2 he.lt_length)
  have horder := pairwise_not_edge_of_chains hcs
  rw [hsplit] at hmem horder
  rcases List.mem_append.1 hmem with hbefore | hrest
  · exact hbefore
  · rcases List.mem_cons.1 hrest with rfl | hafter
    · exact absurd he.lt_of_dependencies (Nat.lt_irrefl i)
    · have hlater := (List.pairwise_append.1 horder).2.1
      exact absurd he ((List.pairwise_cons.1 hlater).1 i hafter)

end

/-- **Chains are the maximal linear runs.** An operator directly follows another one on a chain just
when they are each other's only child and only parent. -/
theorem exists_maximalRuns (ops : List OperatorDef) :
    ∃ cs, chains (dependencies ops) = .ok cs ∧ MaximalRuns (dependencies ops) cs := by
  obtain ⟨cs, hcs⟩ := exists_chains (childrenInRange_dependencies ops)
  refine ⟨cs, hcs, ⟨fun a b => ?_, perm_of_chains hcs, fun chain => pairwise_lt_of_mem_chains hcs,
    fun before j after hsplit node hnode i => parents_before_of_chains hcs hsplit hnode⟩⟩
  rw [onlyLink_iff_linked]
  exact ⟨Follows.linked hcs, follows_of_linked hcs⟩

end OpNet
