import OpNet.Proofs.Net.Lifetime
import OpNet.Proofs.Net.Refinement

/-!
# Dag nets agree with simple nets

A simple net and a dag net of the same definition, on workspaces with the same contents, are run
side by side. If their operators are local, nobody can tell the dag net from the simple net by what
it leaves behind, whatever the schedules of its runs were.

* `Seated` — the operators of a net, as it was built or after any number of runs.
* `SideBySide` — a simple net and a dag net after the same runs.
* `SideBySide.agree` — they have the same operators and the same values.
* `DagNet.agrees_with_simple` — so the next run of the one succeeds when that of the other does, and
  leaves the same behind.
-/

set_option autoImplicit false

namespace OpNet

variable {σ : Type}

/-! ## The operators of a net -/

/-- Operators that are bound to the blobs of the definitions of a net, and local. -/
structure Seated (s : Store) (ws : String) (d : NetDef) (ops : List (Operator σ)) : Prop where
  map_definition : ops.map (·.binding.definition) = d.ops
  bound : ∀ op ∈ ops, op.binding.Bound s ws
  isLocal : ∀ op ∈ ops, op.Local

section Seated

variable {s : Store} {ws : String} {d : NetDef} {ops : List (Operator σ)} {i j : Nat} {b : BlobId}

theorem Seated.executeAt (h : Seated s ws d ops) (mode : Mode) (heap : Heap) (i : Nat) :
    Seated s ws d (executeAt mode (ops, heap) i).1 := by
  cases hop : ops[i]? with
  | none => rwa [OpNet.executeAt, hop]
  | some op =>
    have hmem := List.mem_of_getElem? hop
    rw [executeAt_eq mode (s := (ops, heap)) hop]
    refine ⟨?_, fun op' hop' => ?_, fun op' hop' => ?_⟩
    · rw [← h.map_definition]
      refine List.ext_getElem? fun k => ?_
      by_cases hik : i = k
      · subst hik
        rw [List.getElem?_map, List.getElem?_set_self (List.getElem?_eq_some_iff.1 hop).1,
          List.getElem?_map, hop, Option.map_some, Option.map_some, op.definition_execute]
      · simp [List.getElem?_set_ne hik]
    · rcases List.mem_or_eq_of_mem_set hop' with hop' | rfl
      · exact h.bound op' hop'
      · obtain ⟨hin, hout⟩ := h.bound op hmem
        exact ⟨by rw [op.definition_execute, op.inputs_execute, hin],
          by rw [op.definition_execute, op.outputs_execute, hout]⟩
    · rcases List.mem_or_eq_of_mem_set hop' with hop' | rfl
      · exact h.isLocal op' hop'
      · exact (h.isLocal op hmem).execute mode heap

/-- Runs leave the operators where they are. -/
theorem Seated.replay (h : Seated s ws d ops) (mode : Mode) (heap : Heap) (order : List Nat) :
    Seated s ws d (replay mode ops heap order).1 := by
  induction order using List.reverseRecOn with
  | nil => exact h
  | append_singleton order i ih =>
    rw [replay_concat]
    exact ih.executeAt mode _ i

theorem exists_name_of_mem {names : List String} {bs : List BlobId}
    (h : names.map (s.blob? ws) = bs.map some) (hb : b ∈ bs) :
    ∃ name ∈ names, s.blob? ws name = some b := by
  have hmem : some b ∈ names.map (s.blob? ws) := h ▸ List.mem_map_of_mem hb
  exact List.mem_map.1 hmem

theorem Seated.getElem?_ops (h : Seated s ws d ops) {op : Operator σ} (hop : ops[i]? = some op) :
    d.ops[i]? = some op.binding.definition := by
  rw [← h.map_definition, List.getElem?_map, hop]
  rfl

theorem Seated.exists_of_writesTo (h : Seated s ws d ops) (hw : WritesTo ops i b) :
    ∃ a, d.ops[i]? = some a ∧ ∃ name ∈ a.outputs, s.blob? ws name = some b := by
  obtain ⟨op, hop, hb⟩ := hw
  exact ⟨_, h.getElem?_ops hop,
    exists_name_of_mem (h.bound op (List.mem_of_getElem? hop)).outputs hb⟩

theorem Seated.exists_of_touches (h : Seated s ws d ops) (ht : Touches ops i b) :
    ∃ a, d.ops[i]? = some a ∧ ∃ name, (name ∈ a.inputs ∨ name ∈ a.outputs) ∧
      s.blob? ws name = some b := by
  obtain ⟨op, hop, hb⟩ := ht
  have hbound := h.bound op (List.mem_of_getElem? hop)
  refine ⟨_, h.getElem?_ops hop, ?_⟩
  rcases List.mem_append.1 hb with hb | hb
  · obtain ⟨name, hname, hblob⟩ := exists_name_of_mem hbound.inputs hb
    exact ⟨name, .inl hname, hblob⟩
  · obtain ⟨name, hname, hblob⟩ := exists_name_of_mem hbound.outputs hb
    exact ⟨name, .inr hname, hblob⟩

/-- Operators that clash are in conflict: a blob has one name only. -/
theorem Seated.conflicts_of_clash (h : Seated s ws d ops) (hij : i < j) (hclash : Clash ops i j) :
    Conflicts d.ops i j := by
  obtain ⟨blob, ⟨hi, hj⟩ | ⟨hi, hj⟩⟩ := hclash
  · obtain ⟨a, ha, name, hname, hblob⟩ := h.exists_of_writesTo hi
    obtain ⟨a', ha', name', hname', hblob'⟩ := h.exists_of_touches hj
    obtain rfl := Store.name_eq_of_blob?_eq hblob hblob'
    exact ⟨hij, a, a', ha, ha', .inl ⟨name, hname, hname'⟩⟩
  · obtain ⟨a, ha, name, hname, hblob⟩ := h.exists_of_touches hi
    obtain ⟨a', ha', name', hname', hblob'⟩ := h.exists_of_writesTo hj
    obtain rfl := Store.name_eq_of_blob?_eq hblob hblob'
    refine ⟨hij, a, a', ha, ha', ?_⟩
    rcases hname with hname | hname
    · exact .inr ⟨name, hname, hname'⟩
    · exact .inl ⟨name, hname, .inr hname'⟩

theorem Seated.reaches_of_clash (h : Seated s ws d ops) (hij : i < j) (hclash : Clash ops i j) :
    Reaches (dependencies d.ops) i j :=
  reaches_of_conflicts (h.conflicts_of_clash hij hclash)

theorem Seated.length_eq (h : Seated s ws d ops) : ops.length = (dependencies d.ops).length := by
  rw [length_dependencies, ← h.map_definition, List.length_map]

/-- However often a net is run, its operators stay where they are. -/
theorem Seated.of_later {net net' : DagNet σ} (h : Seated s ws d net.ops)
    (hg : net.graph.QuotientOf (dependencies d.ops)) (hlater : net.Later net') :
    Seated s ws d net'.ops := by
  induction hlater with
  | new => exact h
  | @run net' mode heap e hlater hsteps hover ih =>
    rw [show e.ops = _ from
      Run.ops_eq_replay_of_over (hlater.graph_eq ▸ hg) ih.length_eq hsteps hover]
    exact ih.replay mode heap _

end Seated

/-! ## Side by side -/

/-- Two contents with the same values. They may differ in which blobs share a payload. -/
def Heap.SameValues (heap heap' : Heap) : Prop := ∀ b, heap.value? b = heap'.value? b

/-- A simple net and a dag net, each with contents of its own, after the same runs: those of the
simple net have all succeeded, and those of the dag net have followed any schedules. Between the
runs the same may be done to both contents. -/
inductive SideBySide (simple : SimpleNet σ) (dag : DagNet σ) :
    SimpleNet σ → Heap → DagNet σ → Heap → Prop
  | new {hs hd : Heap} (hsame : hs.SameValues hd) : SideBySide simple dag simple hs dag hd
  | change {simple' : SimpleNet σ} {hs : Heap} {dag' : DagNet σ} {hd : Heap} (f : Heap → Heap)
      (hf : ∀ heap heap', heap.SameValues heap' → (f heap).SameValues (f heap'))
      (h : SideBySide simple dag simple' hs dag' hd) :
      SideBySide simple dag simple' (f hs) dag' (f hd)
  | run {simple' : SimpleNet σ} {hs : Heap} {dag' : DagNet σ} {hd : Heap} {mode : Mode} {e : Run σ}
      (h : SideBySide simple dag simple' hs dag' hd)
      (hok : (simple'.run mode hs).outcome = .ok ())
      (hsteps : Run.Steps dag'.graph mode (dag'.start hd) e) (hover : e.Over) :
      SideBySide simple dag { simple' with ops := (simple'.run mode hs).ops }
        (simple'.run mode hs).heap { dag' with ops := e.ops } e.heap

/-- What the two nets have in common. -/
structure Agree (s : Store) (ws : String) (d : NetDef) (simple : SimpleNet σ) (hs : Heap)
    (dag : DagNet σ) (hd : Heap) : Prop where
  seated : Seated s ws d dag.ops
  quotientOf : dag.graph.QuotientOf (dependencies d.ops)
  ops_eq : dag.ops = simple.ops
  sameValues : hd.SameValues hs

section Agree

variable {s : Store} {ws : String} {d : NetDef} {simple : SimpleNet σ} {hs : Heap} {dag : DagNet σ}
  {hd : Heap} {mode : Mode} {e : Run σ}

/-- The next run of the dag net succeeds when that of the simple net does. -/
theorem Agree.outcome_eq_ok_iff (h : Agree s ws d simple hs dag hd)
    (hsteps : Run.Steps dag.graph mode (dag.start hd) e) (hover : e.Over) :
    e.outcome = .ok () ↔ (simple.run mode hs).outcome = .ok () := by
  rw [Run.outcome_eq_ok_iff_of_steps h.quotientOf h.seated.length_eq h.seated.reaches_of_clash
    h.seated.isLocal h.sameValues hsteps hover, SimpleNet.run, runInOrder_outcome_eq_ok_iff,
    h.ops_eq]

/-- If it succeeds, both leave the same behind. -/
theorem Agree.eq_of_ok (h : Agree s ws d simple hs dag hd)
    (hsteps : Run.Steps dag.graph mode (dag.start hd) e) (hover : e.Over)
    (hok : (simple.run mode hs).outcome = .ok ()) :
    e.ops = (simple.run mode hs).ops ∧ e.heap.SameValues (simple.run mode hs).heap := by
  obtain ⟨hops, hvalues⟩ := Run.eq_replay_of_steps h.quotientOf h.seated.length_eq
    h.seated.reaches_of_clash h.seated.isLocal h.sameValues hsteps hover
    ((h.outcome_eq_ok_iff hsteps hover).2 hok)
  obtain ⟨hops', hheap'⟩ := runInOrder_eq_replay hok
  rw [h.ops_eq] at hops hvalues
  rw [SimpleNet.run, hops', hheap', hops]
  exact ⟨rfl, hvalues⟩

/-- **Agreement is kept by a run.** -/
theorem Agree.run (h : Agree s ws d simple hs dag hd)
    (hsteps : Run.Steps dag.graph mode (dag.start hd) e) (hover : e.Over)
    (hok : (simple.run mode hs).outcome = .ok ()) :
    Agree s ws d { simple with ops := (simple.run mode hs).ops } (simple.run mode hs).heap
      { dag with ops := e.ops } e.heap := by
  obtain ⟨hops, hvalues⟩ := h.eq_of_ok hsteps hover hok
  refine ⟨?_, h.quotientOf, hops, hvalues⟩
  have hreplay := (runInOrder_eq_replay hok).1
  change Seated s ws d e.ops
  rw [hops, SimpleNet.run, hreplay, ← h.ops_eq]
  exact h.seated.replay mode hs _

/-- **Nets side by side agree**, after any number of runs. -/
theorem SideBySide.agree {simple' : SimpleNet σ} {dag' : DagNet σ} {hs' hd' : Heap}
    (h : SideBySide simple dag simple' hs' dag' hd')
    (hseated : Seated s ws d dag.ops) (hg : dag.graph.QuotientOf (dependencies d.ops))
    (hops : dag.ops = simple.ops) : Agree s ws d simple' hs' dag' hd' := by
  induction h with
  | new hsame => exact ⟨hseated, hg, hops, fun b => (hsame b).symm⟩
  | change f hf _ ih =>
    refine ⟨ih.seated, ih.quotientOf, ih.ops_eq, fun b => (hf _ _ (fun b => ?_) b).symm⟩
    exact (ih.sameValues b).symm
  | run _ hok hsteps hover ih => exact ih.run hsteps hover hok

end Agree

theorem Registry.createNetOf_simple_eq_ok_iff {r : Registry σ} {pools : WorkerPools} {s : Store}
    {ws : String} {d : NetDef} {net : SimpleNet σ} :
    (r.createNetOf pools .simple s ws d).outcome = .ok (.simple net) ↔
      ∃ ops, (r.instantiate s ws d).outcome = .ok ops ∧ net = ⟨d.name, ops⟩ := by
  change (((r.instantiate s ws d).outcome.map fun ops => SimpleNet.mk d.name ops).map Net.simple) =
    .ok (.simple net) ↔ _
  cases (r.instantiate s ws d).outcome <;> simp [Except.map, eq_comm]

/-- **A dag net does what a simple net does.** The operators being local, a run of the dag net on
any schedule succeeds when the run of the simple net does, and then leaves the same operators and
the same values behind. So it is on every run up to the first one that fails for the simple net. -/
theorem DagNet.agrees_with_simple {r : Registry σ} {pools : WorkerPools} {s : Store} {ws : String}
    {d : NetDef} {simple : SimpleNet σ} {dag : DagNet σ}
    (hsimple : (r.createNetOf pools .simple s ws d).outcome = .ok (.simple simple))
    (hdag : (r.createNetOf pools .dag s ws d).outcome = .ok (.dag dag))
    (hlocal : ∀ op ∈ simple.ops, op.Local) {simple' : SimpleNet σ} {dag' : DagNet σ} {hs hd : Heap}
    (h : SideBySide simple dag simple' hs dag' hd) {mode : Mode} {e : Run σ}
    (hsteps : Run.Steps dag'.graph mode (dag'.start hd) e) (hover : e.Over) :
    (e.outcome = .ok () ↔ (simple'.run mode hs).outcome = .ok ()) ∧
      ((simple'.run mode hs).outcome = .ok () → e.ops = (simple'.run mode hs).ops ∧
        e.heap.SameValues (simple'.run mode hs).heap) := by
  obtain ⟨ops, hops, rfl⟩ := Registry.createNetOf_simple_eq_ok_iff.1 hsimple
  obtain ⟨ops', graph, hops', hgraph, -, rfl⟩ := Registry.createNetOf_dag_eq_ok_iff.1 hdag
  obtain rfl : ops = ops' := Except.ok.inj (hops.symm.trans hops')
  obtain ⟨hdefs, hbound⟩ := Registry.bound_of_instantiate hops
  have hagree := h.agree ⟨hdefs, hbound, hlocal⟩ (quotientOf_dependencies hgraph) rfl
  exact ⟨hagree.outcome_eq_ok_iff hsteps hover, hagree.eq_of_ok hsteps hover⟩

namespace Fork

/-- The operators of the small net, one after another. -/
def simple : SimpleNet Unit := ⟨"fork", ops⟩

theorem createNetOf_simple_eq :
    (registry.createNetOf .plentiful .simple {} "" definition).outcome = .ok (.simple simple) :=
  Registry.createNetOf_simple_eq_ok_iff.2 ⟨ops, rfl, rfl⟩

theorem local_of_mem_ops : ∀ op ∈ ops, op.Local :=
  Builtin.local_of_copies (n := 3) rfl (by decide)

/-- The small net after a run. -/
def simpleOnceRun : SimpleNet Unit := { simple with ops := (simple.run .sync fed).ops }

end Fork

/-- The second run of the small net succeeds on any schedule, after a first run of both nets. -/
theorem fork_agrees_with_simple : ∃ dag hd e,
    (Fork.registry.createNetOf .plentiful .simple {} "" Fork.definition).outcome =
        .ok (.simple Fork.simple) ∧
      (Fork.registry.createNetOf .plentiful .dag {} "" Fork.definition).outcome =
        .ok (.dag Fork.net) ∧
      (∀ op ∈ Fork.simple.ops, op.Local) ∧
      SideBySide Fork.simple Fork.net Fork.simpleOnceRun (Fork.simple.run .sync Fork.fed).heap
        dag hd ∧
      Run.Steps dag.graph .async (dag.start hd) e ∧ e.Over ∧ e.outcome = .ok () := by
  have hok : (Fork.simple.run .sync Fork.fed).outcome = .ok () := rfl
  have hok' : (Fork.simpleOnceRun.run .async (Fork.simple.run .sync Fork.fed).heap).outcome =
    .ok () := rfl
  have hnew : SideBySide Fork.simple Fork.net Fork.simple Fork.fed Fork.net Fork.fed :=
    .new fun _ => rfl
  have hfirst := hnew.run hok
    (Run.steps_drain Fork.net.graph .sync (Fork.net.start Fork.fed)) (Run.over_drain _ _ _)
  have hsteps := Run.steps_drain Fork.net.graph .async
    (DagNet.start
      { Fork.net with ops := (Run.drain Fork.net.graph .sync (Fork.net.start Fork.fed)).ops }
      (Run.drain Fork.net.graph .sync (Fork.net.start Fork.fed)).heap)
  exact ⟨_, _, _, Fork.createNetOf_simple_eq, Fork.createNetOf_eq, Fork.local_of_mem_ops, hfirst,
    hsteps, Run.over_drain _ _ _, (DagNet.agrees_with_simple Fork.createNetOf_simple_eq
      Fork.createNetOf_eq Fork.local_of_mem_ops hfirst hsteps (Run.over_drain _ _ _)).1.2 hok'⟩

end OpNet
