import Mathlib.Data.List.Chain
import Mathlib.Data.List.Pairwise
import OpNet.Graph.Chain

/-!
# What the chains of a graph are

`chains` starts a chain at the first free operator, and `follow` extends it as long as the links are
single. Nothing in this file asks where the nodes come from: the links may be one-sided, they may
lead back, and they may lead out of the list. Only in the last case there are no chains.

* `Linked` — one operator may directly follow another on a chain.
* `Strays` — the only child of an operator is not in the list.
* `Walk`, `walk_of_follow` — all that `follow` does: it goes on along links, and it ends where nothing
  that is still free may follow.
* `Cut`, `cut_of_chainsOf` — so the free operators are cut into walks, one after another. The facts
  about chains are read off this by induction.
* `strays_of_chains` — a walk fails at an operator that strays.
* `chains_cases` — the two ends together, for any list of nodes.
-/

set_option autoImplicit false

namespace OpNet

/-- Operator `b` is the only child of `a` and has only one parent. -/
def Linked (nodes : List Node) (a b : Nat) : Prop :=
  ∃ node next, nodes[a]? = some node ∧ node.children = [b] ∧ nodes[b]? = some next ∧
    next.parents.length = 1

/-- The only child of operator `i` is `child`, and there is no such node. -/
def Strays (nodes : List Node) (i child : Nat) : Prop :=
  ∃ node, nodes[i]? = some node ∧ node.children = [child] ∧ nodes.length ≤ child

/-- No node has a child that is not in the list. -/
def ChildrenInRange (nodes : List Node) : Prop :=
  ∀ node ∈ nodes, ∀ child ∈ node.children, child < nodes.length

/-! ## One chain -/

/-- A walk over free operators from a first one: those that it takes after the first, and those that
are still free after it. It goes on along links and ends where nothing that is free may follow. -/
inductive Walk (nodes : List Node) : List Nat → Nat → List Nat → List Nat → Prop
  | step {free rest free' : List Nat} {start child : Nat} (hlinked : Linked nodes start child)
      (hfree : child ∈ free) (h : Walk nodes (free.erase child) child rest free') :
      Walk nodes free start (child :: rest) free'
  | stop {free : List Nat} {start : Nat} (hlinked : ∀ b ∈ free, ¬Linked nodes start b)
      (hstrays : ∀ child, ¬Strays nodes start child) : Walk nodes free start [] free

section Walk

variable {nodes : List Node} {free rest free' : List Nat} {start : Nat}

/-- An operator that is linked to another one does not stray. -/
theorem Linked.not_strays {a b : Nat} (h : Linked nodes a b) (c : Nat) : ¬Strays nodes a c := by
  obtain ⟨node, next, hnode, hchild, hnext, -⟩ := h
  rintro ⟨node', hnode', hc, hle⟩
  obtain rfl := Option.some.inj (hnode.symm.trans hnode')
  obtain rfl : b = c := by simpa [hchild] using hc
  exact absurd (List.getElem?_eq_some_iff.1 hnext).1 (Nat.not_lt.2 hle)

/-- **Following a chain is a walk.** -/
theorem walk_of_follow (h : follow nodes free start = .ok (rest, free')) :
    Walk nodes free start rest free' := by
  fun_induction follow nodes free start generalizing rest free' with
  | case1 | case2 | case3 => cases h
  | case4 free start node hnode child hchild next hnext hcond after free₁ hfollow ih =>
    obtain ⟨rfl, rfl⟩ := Prod.mk.inj (Except.ok.inj h)
    rw [nth_eq_ok_iff] at hnode hnext
    exact .step ⟨node, next, hnode, hchild, hnext, hcond.1⟩ hcond.2 (ih hfollow)
  | case5 free start node hnode child hchild next hnext hcond =>
    obtain ⟨rfl, rfl⟩ := Prod.mk.inj (Except.ok.inj h)
    rw [nth_eq_ok_iff] at hnode hnext
    refine .stop ?_ ?_
    · rintro b hb ⟨node', next', hnode', hchild', hnext', hone⟩
      obtain rfl := Option.some.inj (hnode.symm.trans hnode')
      obtain rfl : child = b := by simpa [hchild] using hchild'
      obtain rfl := Option.some.inj (hnext.symm.trans hnext')
      exact hcond ⟨hone, hb⟩
    · rintro c ⟨node', hnode', hc, hle⟩
      obtain rfl := Option.some.inj (hnode.symm.trans hnode')
      obtain rfl : child = c := by simpa [hchild] using hc
      exact absurd (List.getElem?_eq_some_iff.1 hnext).1 (Nat.not_lt.2 hle)
  | case6 free start node hnode hmany =>
    -- an operator with several children or none is neither linked nor does it stray
    obtain ⟨rfl, rfl⟩ := Prod.mk.inj (Except.ok.inj h)
    rw [nth_eq_ok_iff] at hnode
    refine .stop ?_ ?_
    · rintro b - ⟨node', next, hnode', hchild, -⟩
      obtain rfl := Option.some.inj (hnode.symm.trans hnode')
      exact hmany b hchild
    · rintro c ⟨node', hnode', hchild, -⟩
      obtain rfl := Option.some.inj (hnode.symm.trans hnode')
      exact hmany c hchild

/-- A walk that fails has come to an operator that strays, and the panic tells the index. -/
theorem strays_of_follow {stop : Stop} (hstart : start < nodes.length)
    (h : follow nodes free start = .error stop) :
    ∃ i child, Strays nodes i child ∧ stop = .panic (outOfBounds nodes.length child) := by
  fun_induction follow nodes free start with
  | case1 free start stop' hstop =>
    exact absurd hstart (Nat.not_lt.2 (nth_eq_error_iff.1 hstop).1)
  | case2 free start node hnode child hchild stop' hstop =>
    obtain rfl : stop' = stop := Except.error.inj h
    obtain ⟨hle, hpanic⟩ := nth_eq_error_iff.1 hstop
    exact ⟨start, child, ⟨node, nth_eq_ok_iff.1 hnode, hchild, hle⟩, hpanic⟩
  | case3 free start node hnode child hchild next hnext hcond stop' hstop ih =>
    obtain rfl : stop' = stop := Except.error.inj h
    exact ih (List.getElem?_eq_some_iff.1 (nth_eq_ok_iff.1 hnext)).1 hstop
  | case4 | case5 | case6 => cases h

namespace Walk

/-- What a walk takes is taken from the free operators, and the rest stays free. -/
theorem perm (h : Walk nodes free start rest free') : (rest ++ free').Perm free := by
  induction h with
  | step _ hfree _ ih => exact (ih.cons _).trans (List.perm_cons_erase hfree).symm
  | stop => exact .refl _

/-- What stays free stays in order. -/
theorem sublist (h : Walk nodes free start rest free') : free'.Sublist free := by
  induction h with
  | step _ _ _ ih => exact ih.trans List.erase_sublist
  | stop => exact .refl _

theorem isChain (h : Walk nodes free start rest free') :
    (start :: rest).IsChain (Linked nodes) := by
  induction h with
  | step hlinked _ _ ih => exact .cons_cons hlinked ih
  | stop => exact .singleton _

/-- A walk does not end before an operator that could go on it. -/
theorem not_linked (h : Walk nodes free start rest free') :
    ∀ a ∈ (start :: rest).getLast?, ∀ b ∈ free', ¬Linked nodes a b := by
  induction h with
  | step _ _ _ ih =>
    rw [List.getLast?_cons_cons]
    exact ih
  | stop hlinked =>
    rintro a ⟨⟩ b hb
    exact hlinked b hb

/-- A walk does not get past an operator that strays. -/
theorem not_strays (h : Walk nodes free start rest free') :
    ∀ i ∈ start :: rest, ∀ child, ¬Strays nodes i child := by
  induction h with
  | step hlinked _ _ ih => exact List.forall_mem_cons.2 ⟨hlinked.not_strays, ih⟩
  | stop _ hstrays => exact List.forall_mem_singleton.2 hstrays

end Walk
end Walk

/-! ## All chains -/

/-- Free operators are cut into walks, each from the first that is still free. -/
inductive Cut (nodes : List Node) : List Nat → List (List Nat) → Prop
  | nil : Cut nodes [] []
  | cons {start : Nat} {free rest free' : List Nat} {tail : List (List Nat)}
      (h : Walk nodes free start rest free') (htail : Cut nodes free' tail) :
      Cut nodes (start :: free) ((start :: rest) :: tail)

section Cut

variable {nodes : List Node} {free : List Nat} {cs : List (List Nat)}

theorem chainsOf_cons {rest free' : List Nat} {start : Nat} {tail : List (List Nat)}
    (h : follow nodes free start = .ok (rest, free')) (htail : chainsOf nodes free' = .ok tail) :
    chainsOf nodes (start :: free) = .ok ((start :: rest) :: tail) := by
  rw [chainsOf]
  split
  · next h' => rw [h] at h'; cases h'
  · next h' =>
    rw [h] at h'
    cases h'
    rw [htail]

/-- **The chains are a cut.** -/
theorem cut_of_chainsOf (h : chainsOf nodes free = .ok cs) : Cut nodes free cs := by
  fun_induction chainsOf nodes free generalizing cs with
  | case1 => cases h; exact .nil
  | case2 | case3 => cases h
  | case4 start free rest free' hfollow tail htail ih =>
    obtain rfl := Except.ok.inj h
    exact .cons (walk_of_follow hfollow) (ih htail)

/-- A cut that fails has come to an operator that strays. -/
theorem strays_of_chainsOf {stop : Stop} (hfree : ∀ i ∈ free, i < nodes.length)
    (h : chainsOf nodes free = .error stop) :
    ∃ i child, Strays nodes i child ∧ stop = .panic (outOfBounds nodes.length child) := by
  fun_induction chainsOf nodes free with
  | case1 | case4 => cases h
  | case2 start free stop' hstop =>
    obtain rfl : stop' = stop := Except.error.inj h
    exact strays_of_follow (hfree start List.mem_cons_self) hstop
  | case3 start free rest free' hfollow stop' hstop ih =>
    obtain rfl : stop' = stop := Except.error.inj h
    have hsub := (walk_of_follow hfollow).sublist.subset
    exact ih (fun i hi => hfree i (List.mem_cons_of_mem _ (hsub hi))) hstop

namespace Cut

/-- No operator is lost, and none is taken twice. -/
theorem perm (h : Cut nodes free cs) : cs.flatten.Perm free := by
  induction h with
  | nil => exact .refl _
  | @cons start _ rest _ _ h _ ih =>
    rw [List.flatten_cons, List.cons_append]
    exact ((ih.append_left rest).trans h.perm).cons start

/-- What is on a later chain is free when a walk has ended. -/
theorem mem_of_mem (h : Cut nodes free cs) {chain : List Nat} (hchain : chain ∈ cs) {b : Nat}
    (hb : b ∈ chain) : b ∈ free :=
  h.perm.subset (List.mem_flatten_of_mem hchain hb)

theorem isChain (h : Cut nodes free cs) :
    ∀ chain ∈ cs, chain ≠ [] ∧ chain.IsChain (Linked nodes) := by
  induction h with
  | nil => exact fun _ hchain => absurd hchain List.not_mem_nil
  | cons h _ ih => exact List.forall_mem_cons.2 ⟨⟨List.cons_ne_nil _ _, h.isChain⟩, ih⟩

/-- A chain starts before everything on the chains after it. -/
theorem pairwise_lt (h : Cut nodes free cs) (hfree : free.Pairwise (· < ·)) :
    cs.Pairwise fun chain later => ∀ a ∈ chain.head?, ∀ b ∈ later, a < b := by
  induction h with
  | nil => exact .nil
  | cons h htail ih =>
    obtain ⟨hstart, hfree⟩ := List.pairwise_cons.1 hfree
    refine .cons (fun later hlater a ha b hb => ?_) (ih (hfree.sublist h.sublist))
    obtain rfl := Option.some.inj ha
    exact hstart b (h.sublist.subset (htail.mem_of_mem hlater hb))

/-- A chain does not end before an operator of a later chain that could go on it. -/
theorem pairwise_not_linked (h : Cut nodes free cs) :
    cs.Pairwise fun chain later => ∀ a ∈ chain.getLast?, ∀ b ∈ later, ¬Linked nodes a b := by
  induction h with
  | nil => exact .nil
  | cons h htail ih =>
    refine .cons (fun later hlater a ha b hb => ?_) ih
    exact h.not_linked a ha b (htail.mem_of_mem hlater hb)

theorem not_strays (h : Cut nodes free cs) :
    ∀ i ∈ cs.flatten, ∀ child, ¬Strays nodes i child := by
  induction h with
  | nil => exact fun _ hi => absurd hi List.not_mem_nil
  | cons h _ ih => exact List.forall_mem_append.2 ⟨h.not_strays, ih⟩

end Cut

theorem cut_of_chains (h : chains nodes = .ok cs) : Cut nodes (List.range nodes.length) cs :=
  cut_of_chainsOf h

theorem perm_of_chains (h : chains nodes = .ok cs) : cs.flatten.Perm (List.range nodes.length) :=
  (cut_of_chains h).perm

theorem pairwise_of_chains (h : chains nodes = .ok cs) :
    cs.Pairwise fun chain later => ∀ a ∈ chain.head?, ∀ b ∈ later, a < b :=
  (cut_of_chains h).pairwise_lt List.pairwise_lt_range

/-- Where there are no chains an operator strays, and a panic tells the index it strays to. -/
theorem strays_of_chains {stop : Stop} (h : chains nodes = .error stop) :
    ∃ i child, Strays nodes i child ∧ stop = .panic (outOfBounds nodes.length child) :=
  strays_of_chainsOf (fun _ hi => List.mem_range.1 hi) h

/-- There are chains, if no walk can run into an index that is out of range. -/
theorem exists_chains (hnodes : ChildrenInRange nodes) : ∃ cs, chains nodes = .ok cs := by
  match h : chains nodes with
  | .ok cs => exact ⟨cs, rfl⟩
  | .error stop =>
    obtain ⟨i, child, ⟨node, hnode, hchild, hle⟩, -⟩ := strays_of_chains h
    have hlt := hnodes node (List.mem_of_getElem? hnode) child (by simp [hchild])
    exact absurd hlt (Nat.not_lt.2 hle)

end Cut

/-! ## Any list of nodes -/

/-- What chains are when nothing is known of the nodes. -/
structure Lossless (nodes : List Node) (cs : List (List Nat)) : Prop where
  ne_nil : ∀ chain ∈ cs, chain ≠ []
  /-- The chains come in the order of their first operators. -/
  pairwise_head : (cs.filterMap List.head?).Pairwise (· < ·)
  /-- Every operator is on one chain, and there only once. -/
  perm : cs.flatten.Perm (List.range nodes.length)
  /-- An operator is followed by its only child, which has only one parent. -/
  linked : ∀ chain ∈ cs, ∀ before a b after, chain = before ++ a :: b :: after → Linked nodes a b

theorem lossless_of_chains {nodes : List Node} {cs : List (List Nat)}
    (h : chains nodes = .ok cs) : Lossless nodes cs where
  ne_nil chain hchain := ((cut_of_chains h).isChain chain hchain).1
  pairwise_head := List.pairwise_filterMap.2 <| (pairwise_of_chains h).imp
    fun hlt a ha b hb => hlt a ha b (List.mem_of_head? hb)
  perm := perm_of_chains h
  linked := by
    rintro _ hchain before a b after rfl
    exact (List.isChain_append_cons_cons.1 ((cut_of_chains h).isChain _ hchain).2).2.1

/-- **Chains are total and lossless.** Either an operator strays, and the panic tells where to, or
none does, and every operator is on one chain. Neither a cycle nor a link with one side only keeps
the walks from ending. -/
theorem chains_cases (nodes : List Node) :
    (∃ i child, Strays nodes i child ∧
        chains nodes = .error (.panic (outOfBounds nodes.length child))) ∨
      (∀ i child, ¬Strays nodes i child) ∧ ∃ cs, chains nodes = .ok cs ∧ Lossless nodes cs := by
  match h : chains nodes with
  | .error stop =>
    obtain ⟨i, child, hstrays, rfl⟩ := strays_of_chains h
    exact .inl ⟨i, child, hstrays, rfl⟩
  | .ok cs =>
    refine .inr ⟨fun i child hstrays => ?_, cs, rfl, lossless_of_chains h⟩
    obtain ⟨node, hnode, -⟩ := id hstrays
    have hmem : i ∈ cs.flatten :=
      (perm_of_chains h).mem_iff.2 (List.mem_range.2 (List.getElem?_eq_some_iff.1 hnode).1)
    exact (cut_of_chains h).not_strays i hmem child hstrays

end OpNet
