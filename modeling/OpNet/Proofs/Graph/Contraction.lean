import OpNet.Proofs.Graph.Quotient

/-!
# The graph between the chains says what the graph between the operators says

A chain graph is the graph of the operators with every chain drawn together to a point. Nothing is
lost by that, although only the ends of the chains are looked at, and each pair of them once: the
operators inside a chain have no edges but those of the chain.

* `ChainGraph.Leads` — one chain is listed as a child of another.
* `leads_iff` — that is so when an edge joins the two, and `ends_of_edge` says where the edge runs.
* `reaches_of_leads` — then everything on the first chain comes before everything on the second.
* `ChainGraph.Contracts`, `exists_contraction` — what a chain graph says about the operators, and
  that the one of inferred dependencies says it.
-/

set_option autoImplicit false

namespace OpNet

open Relation (TransGen)

/-! ## Edges between chains -/

namespace ChainGraph

/-- Chain `d` is listed as a child of chain `c`. -/
def Leads (g : ChainGraph) (c d : Nat) : Prop := d ∈ g.childrenOf c

/-- A chain graph that says of the operators what their own graph says. -/
structure Contracts (nodes : List Node) (g : ChainGraph) : Prop where
  chains_eq : OpNet.chains nodes = .ok g.chains
  /-- Every operator is on one chain, and there only once. -/
  perm : g.chains.flatten.Perm (List.range nodes.length)
  length_children : g.children.length = g.chains.length
  length_parentCounts : g.parentCounts.length = g.chains.length
  leads_iff : ∀ c d, g.Leads c d ↔ c ≠ d ∧ ∃ i ∈ g.opsOf c, ∃ j ∈ g.opsOf d, Edge nodes i j
  /-- An edge between two chains leaves the last operator of one and enters the first of the other.
  -/
  ends_of_edge : ∀ c d, c ≠ d → ∀ i ∈ g.opsOf c, ∀ j ∈ g.opsOf d, Edge nodes i j →
    (g.opsOf c).getLast? = some i ∧ (g.opsOf d).head? = some j
  lt_of_leads : ∀ c d, g.Leads c d → c < d
  pairwise_childrenOf : ∀ c, (g.childrenOf c).Pairwise (· < ·)
  getElem?_parentCounts : ∀ d < g.chains.length, g.parentCounts[d]? =
    some ((List.range g.chains.length).countP fun c => d ∈ g.childrenOf c)
  /-- Operator `j` is reached from `i` when it comes later on the same chain or when its chain is
  reached from that of `i`. -/
  reaches_iff : ∀ i j, Reaches nodes i j ↔ (∃ c, [i, j].Sublist (g.opsOf c)) ∨
    ∃ c d, i ∈ g.opsOf c ∧ j ∈ g.opsOf d ∧ TransGen g.Leads c d

end ChainGraph

/-- In a strictly increasing list the smaller element comes first. -/
theorem pair_sublist_iff {xs : List Nat} (h : xs.Pairwise (· < ·)) {i j : Nat} :
    [i, j].Sublist xs ↔ i ∈ xs ∧ j ∈ xs ∧ i < j := by
  constructor
  · intro hpair
    exact ⟨hpair.subset (by simp), hpair.subset (by simp),
      List.pairwise_iff_forall_sublist.1 h hpair⟩
  · rintro ⟨hi, hj, hij⟩
    induction xs with
    | nil => cases hi
    | cons x xs ih =>
      obtain ⟨hx, hxs⟩ := List.pairwise_cons.1 h
      have hjs : j ∈ xs := by
        refine (List.mem_cons.1 hj).resolve_left ?_
        rintro rfl
        rcases List.mem_cons.1 hi with rfl | hi
        · exact Nat.lt_irrefl _ hij
        · exact Nat.lt_asymm hij (hx i hi)
      rcases List.mem_cons.1 hi with rfl | hi
      · exact (List.singleton_sublist.2 hjs).cons_cons i
      · exact (ih hxs hi hjs).cons x

section

variable {ops : List OperatorDef} {g : ChainGraph} {c d i j : Nat}

theorem chains_of_ofNodes {nodes : List Node} (h : ChainGraph.ofNodes nodes = .ok g) :
    chains nodes = .ok g.chains ∧
      g.children = g.chains.map (ChainGraph.successors nodes g.chains) := by
  rw [ChainGraph.ofNodes] at h
  split at h
  · cases h
  · next cs hcs =>
    cases h
    exact ⟨hcs, rfl⟩

theorem childrenOf_eq {nodes : List Node} (h : ChainGraph.ofNodes nodes = .ok g) (c : Nat) :
    g.childrenOf c = (g.chains[c]?.map (ChainGraph.successors nodes g.chains)).getD [] := by
  rw [ChainGraph.childrenOf, (chains_of_ofNodes h).2, List.getElem?_map]

theorem leads_iff_mem_successors {nodes : List Node} (h : ChainGraph.ofNodes nodes = .ok g) :
    g.Leads c d ↔
      ∃ C, g.chains[c]? = some C ∧ d ∈ ChainGraph.successors nodes g.chains C := by
  rw [ChainGraph.Leads, childrenOf_eq h]
  cases g.chains[c]? <;> simp

/-- The children of a chain are listed in their order, and each only once. -/
theorem pairwise_childrenOf {nodes : List Node} (h : ChainGraph.ofNodes nodes = .ok g) (c : Nat) :
    (g.childrenOf c).Pairwise (· < ·) := by
  rw [childrenOf_eq h]
  cases g.chains[c]? with
  | none => exact .nil
  | some C => exact Ascending.pairwise_ofList _

theorem exists_opsOf_eq {C : List Nat} (hC : C ∈ g.chains) : ∃ c, g.opsOf c = C := by
  obtain ⟨c, hc⟩ := List.getElem?_of_mem hC
  exact ⟨c, by simp [ChainGraph.opsOf, hc]⟩

theorem opsOf_mem_chains (hi : i ∈ g.opsOf c) : g.opsOf c ∈ g.chains :=
  List.mem_of_getElem? (ChainGraph.QuotientOf.getElem?_of_mem_opsOf hi)

variable (h : ChainGraph.ofNodes (dependencies ops) = .ok g)
include h

/-- The operators of a chain rise. -/
theorem pairwise_opsOf (c : Nat) : (g.opsOf c).Pairwise (· < ·) := by
  cases hops : g.opsOf c with
  | nil => exact .nil
  | cons i rest =>
    rw [← hops]
    exact pairwise_lt_of_mem_chains (chains_of_ofNodes h).1
      (opsOf_mem_chains (show i ∈ g.opsOf c by simp [hops]))

/-- An edge between two chains leaves the end of the one and enters the start of the other. -/
theorem ends_of_edge (hcd : c ≠ d) (hi : i ∈ g.opsOf c) (hj : j ∈ g.opsOf d)
    (he : Edge (dependencies ops) i j) :
    (g.opsOf c).getLast? = some i ∧ (g.opsOf d).head? = some j := by
  have hg := quotientOf_dependencies h
  rcases edge_cases (chains_of_ofNodes h).1 he with
    ⟨C, hC, before, after, rfl⟩ | ⟨C, hC, D, hD, hlast, after, rfl⟩
  · obtain ⟨e, heq⟩ := exists_opsOf_eq hC
    obtain rfl := hg.eq_of_mem_opsOf hi (show i ∈ g.opsOf e by simp [heq])
    obtain rfl := hg.eq_of_mem_opsOf hj (show j ∈ g.opsOf c by simp [heq])
    exact absurd rfl hcd
  · obtain ⟨e, rfl⟩ := exists_opsOf_eq hC
    obtain ⟨f, hf⟩ := exists_opsOf_eq hD
    obtain rfl := hg.eq_of_mem_opsOf hi (List.mem_of_getLast? hlast)
    obtain rfl := hg.eq_of_mem_opsOf hj (show j ∈ g.opsOf f by simp [hf])
    exact ⟨hlast, by rw [hf]; rfl⟩

/-- One chain leads to another when an edge does. -/
theorem leads_iff : g.Leads c d ↔
    c ≠ d ∧ ∃ i ∈ g.opsOf c, ∃ j ∈ g.opsOf d, Edge (dependencies ops) i j := by
  have hcs := (chains_of_ofNodes h).1
  rw [leads_iff_mem_successors h]
  constructor
  · rintro ⟨C, hC, hd⟩
    obtain ⟨i, j, D, hlast, hD, hj, he⟩ := (mem_successors_iff hcs).1 hd
    refine ⟨Nat.ne_of_lt (lt_of_mem_successors hcs hC hd).1, i, ?_, j, ?_, he⟩
    · simpa [ChainGraph.opsOf, hC] using List.mem_of_getLast? hlast
    · simpa [ChainGraph.opsOf, hD] using hj
  · rintro ⟨hne, i, hi, j, hj, he⟩
    obtain ⟨hlast, -⟩ := ends_of_edge h hne hi hj he
    exact ⟨_, ChainGraph.QuotientOf.getElem?_of_mem_opsOf hi,
      (mem_successors_iff hcs).2 ⟨i, j, _, hlast,
        ChainGraph.QuotientOf.getElem?_of_mem_opsOf hj, hj, he⟩⟩

/-! ## Paths -/

/-- An operator reaches what comes after it on its chain. -/
theorem reaches_of_pair_sublist (hij : [i, j].Sublist (g.opsOf c)) :
    Reaches (dependencies ops) i j := by
  have hC := opsOf_mem_chains (hij.subset (List.mem_cons_self (a := i)))
  have hlinked := ((cut_of_chains (chains_of_ofNodes h).1).isChain _ hC).2
  have hpairs : (g.opsOf c).Pairwise (Reaches (dependencies ops)) :=
    (hlinked.imp fun _ _ hab => TransGen.single hab.edge).pairwise
  exact List.pairwise_iff_forall_sublist.1 hpairs hij

/-- Operators of one chain are equal or the smaller one reaches the other. -/
theorem reflTransGen_of_le (hi : i ∈ g.opsOf c) (hj : j ∈ g.opsOf c) (hij : i ≤ j) :
    Relation.ReflTransGen (Edge (dependencies ops)) i j := by
  rcases Nat.eq_or_lt_of_le hij with rfl | hlt
  · exact .refl
  · exact (reaches_of_pair_sublist h
      ((pair_sublist_iff (pairwise_opsOf h c)).2 ⟨hi, hj, hlt⟩)).to_reflTransGen

/-- Everything on a chain comes before everything on the chains that it leads to. -/
theorem reaches_of_leads (hcd : g.Leads c d) (hi : i ∈ g.opsOf c) (hj : j ∈ g.opsOf d) :
    Reaches (dependencies ops) i j := by
  obtain ⟨hne, a, ha, b, hb, he⟩ := (leads_iff h).1 hcd
  obtain ⟨hlast, hhead⟩ := ends_of_edge h hne ha hb he
  have hia : i ≤ a := le_of_getLast? (chains_of_ofNodes h).1 (opsOf_mem_chains ha) hlast hi
  have hbj : b ≤ j := by
    obtain ⟨rest, hrest⟩ := List.head?_eq_some_iff.1 hhead
    have hrise := pairwise_opsOf h d
    rw [hrest] at hj hrise
    rcases List.mem_cons.1 hj with rfl | hj
    · exact Nat.le_refl j
    · exact Nat.le_of_lt (List.pairwise_cons.1 hrise |>.1 j hj)
  exact (TransGen.tail' (reflTransGen_of_le h hi ha hia) he).trans_left
    (reflTransGen_of_le h hb hj hbj)

theorem reaches_of_transGen_leads (hcd : TransGen g.Leads c d) (hi : i ∈ g.opsOf c)
    (hj : j ∈ g.opsOf d) : Reaches (dependencies ops) i j := by
  induction hcd generalizing j with
  | single hcd => exact reaches_of_leads h hcd hi hj
  | tail _ hed ih =>
    obtain ⟨-, k, hk, -⟩ := (leads_iff h).1 hed
    exact (ih hk).trans (reaches_of_leads h hed hk hj)

/-- An edge stays on a chain or leads from one to another. -/
theorem exists_leads_of_edge (he : Edge (dependencies ops) i j) (hi : i ∈ g.opsOf c) :
    ∃ d, j ∈ g.opsOf d ∧ Relation.ReflTransGen g.Leads c d := by
  have hlt := (edge_dependencies_iff.1 he).lt_length
  rw [← length_dependencies] at hlt
  obtain ⟨d, hj⟩ := (quotientOf_dependencies h).exists_mem_opsOf_iff.2 hlt
  refine ⟨d, hj, ?_⟩
  by_cases hcd : c = d
  · exact hcd ▸ .refl
  · exact .single ((leads_iff h).2 ⟨hcd, i, hi, j, hj, he⟩)

/-- A path between operators is a path between their chains. -/
theorem exists_leads_of_reaches (hij : Reaches (dependencies ops) i j) (hi : i ∈ g.opsOf c) :
    ∃ d, j ∈ g.opsOf d ∧ Relation.ReflTransGen g.Leads c d := by
  induction hij with
  | single he => exact exists_leads_of_edge h he hi
  | tail _ he ih =>
    obtain ⟨e, hk, hce⟩ := ih
    obtain ⟨d, hj, hed⟩ := exists_leads_of_edge h he hk
    exact ⟨d, hj, hce.trans hed⟩

theorem reaches_iff : Reaches (dependencies ops) i j ↔ (∃ c, [i, j].Sublist (g.opsOf c)) ∨
    ∃ c d, i ∈ g.opsOf c ∧ j ∈ g.opsOf d ∧ TransGen g.Leads c d := by
  constructor
  · intro hij
    obtain ⟨c, hi⟩ := (quotientOf_dependencies h).exists_mem_opsOf_iff.2 hij.lt_length
    obtain ⟨d, hj, hcd⟩ := exists_leads_of_reaches h hij hi
    rcases Relation.reflTransGen_iff_eq_or_transGen.1 hcd with rfl | hcd
    · exact .inl ⟨d, (pair_sublist_iff (pairwise_opsOf h d)).2 ⟨hi, hj, hij.lt_of_dependencies⟩⟩
    · exact .inr ⟨c, d, hi, hj, hcd⟩
  · rintro (⟨c, hij⟩ | ⟨c, d, hi, hj, hcd⟩)
    · exact reaches_of_pair_sublist h hij
    · exact reaches_of_transGen_leads h hcd hi hj

end

/-! ## The chain graph of inferred dependencies -/

/-- **A faithful picture.** The chain graph of inferred dependencies always exists and says of the
operators what their own graph says. -/
theorem exists_contraction (ops : List OperatorDef) : ∃ g,
    ChainGraph.ofNodes (dependencies ops) = .ok g ∧ g.Contracts (dependencies ops) := by
  obtain ⟨g, h⟩ := exists_ofNodes_dependencies ops
  have hg := quotientOf_dependencies h
  refine ⟨g, h, (chains_of_ofNodes h).1, hg.perm, hg.length_children, by simp [hg.parentCounts_eq],
    fun c d => leads_iff h, fun c d hcd i hi j hj => ends_of_edge h hcd hi hj,
    fun c d hcd => (hg.lt_of_mem_childrenOf hcd).1, pairwise_childrenOf h,
    fun d => hg.getElem?_parentCounts, fun i j => reaches_iff h⟩

end OpNet
