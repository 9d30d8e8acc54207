import OpNet.Proofs.Net.Agreement

/-!
# Where the fault of a run comes from

When a run of a dag net ends with a fault, some operators have run that others would not have run on
another schedule. None of that can be seen in the fault: it is that of an operator whose ancestors
have all succeeded, and the ancestors alone, one after another, lead to the same fault.

* `Ancestors` — the operators that an operator depends on, in the order of the definition.
* `Causal.runInOrder_eq` — operators executed in a causal order are a simple net of their own.
* `Run.Traced`, `Run.traced_of_failed` — the fault of an operator as that of the simple net of its
  ancestors, followed by the operator.
* `DagNet.fault_traced` — so it is for the fault that a run of a net ends with.
-/

set_option autoImplicit false

namespace OpNet

variable {σ : Type}

/-! ## Ancestors -/

/-- A list of the operators that an operator depends on, in the order of the definition. -/
structure Ancestors (nodes : List Node) (j : Nat) (before : List Nat) : Prop where
  rise : before.Pairwise (· < ·)
  mem_iff : ∀ i, i ∈ before ↔ Reaches nodes i j

theorem exists_ancestors (ops : List OperatorDef) (j : Nat) :
    ∃ before, Ancestors (dependencies ops) j before := by
  classical
  refine ⟨(List.range j).filter fun i => Reaches (dependencies ops) i j,
    List.pairwise_lt_range.filter _, fun i => ?_⟩
  rw [List.mem_filter, List.mem_range, decide_eq_true_eq]
  exact and_iff_right_of_imp Reaches.lt_of_dependencies

/-- The operators at the given positions. -/
def pick (ops : List (Operator σ)) (order : List Nat) : List (Operator σ) :=
  order.filterMap (ops[·]?)

theorem pick_concat {ops : List (Operator σ)} {order : List Nat} {i : Nat} {op : Operator σ}
    (hop : ops[i]? = some op) : pick ops (order ++ [i]) = pick ops order ++ [op] := by
  simp [pick, List.filterMap_append, hop]

section Causal

variable {mode : Mode} {ops : List (Operator σ)} {heap : Heap} {order : List Nat}

/-- **A causal order is a simple net.** If the operators of a causal order succeed in the order of
the list, they also succeed when they alone are run one after another. -/
theorem Causal.runInOrder_eq (hlocal : ∀ op ∈ ops, op.Local) (h : Causal ops order)
    (hok : ∀ i ∈ order, ∀ op, ops[i]? = some op →
      (op.execute mode (replay mode ops heap (List.range i)).2).outcome = .ok ()) :
    (runInOrder mode (pick ops order) heap).outcome = .ok () ∧
      (runInOrder mode (pick ops order) heap).heap = (replay mode ops heap order).2 := by
  induction h with
  | nil => exact ⟨rfl, rfl⟩
  | @snoc order i h hi hnew hearlier ih =>
    have hop : ops[i]? = some ops[i] := List.getElem?_eq_getElem hi
    obtain ⟨hfront, hheap⟩ := ih fun k hk => hok k (List.mem_append_left _ hk)
    obtain ⟨hout, hleft⟩ := runInOrder_concat ops[i] hfront
    rw [pick_concat hop, hout, hleft, hheap, replay_concat_of_not_mem hop hnew]
    refine ⟨?_, rfl⟩
    rw [(h.execute_congr mode hlocal (fun _ => rfl) hop hnew hearlier).2]
    exact hok i (by simp) _ hop

end Causal

/-! ## The fault of an operator -/

namespace Run

/-- Operator `j` has failed in a run that has begun with the given operators and contents, its
ancestors have completed, and a simple net of these alone leads `j` to the same fault. -/
structure Traced (d : NetDef) (mode : Mode) (ops : List (Operator σ)) (heap : Heap) (r : Run σ)
    (j : Nat) (cause : Fault) (before : List Nat) : Prop where
  failed : .failed j cause ∈ r.events
  ancestors : Ancestors (dependencies d.ops) j before
  completed : ∀ i ∈ before, .completed i ∈ r.events
  /-- The ancestors succeed when they alone are run, in the order of the definition. -/
  outcome_ancestors : (runInOrder mode (pick ops before) heap).outcome = .ok ()
  /-- After them the operator fails as it has failed in the run. -/
  outcome_eq : ∃ op, ops[j]? = some op ∧
    (op.execute mode (runInOrder mode (pick ops before) heap).heap).outcome = .error (.fault cause)

section Local

variable {s : Store} {ws : String} {d : NetDef} {g : ChainGraph} {mode : Mode}
  {ops : List (Operator σ)} {heap : Heap} {r : Run σ} {i j : Nat} {cause : Fault}
  {before : List Nat}

/-- What has completed in a run succeeds in the order of the list. -/
theorem outcome_eq_ok_of_completed (hseated : Seated s ws d ops)
    (hg : g.QuotientOf (dependencies d.ops)) (h : Steps g mode (init g ops heap) r)
    (hi : .completed i ∈ r.events) {op : Operator σ} (hop : ops[i]? = some op) :
    (op.execute mode (replay mode ops heap (List.range i)).2).outcome = .ok () := by
  obtain ⟨front, back, hevents⟩ := List.append_of_mem hi
  obtain ⟨op', hop', heq⟩ := exists_finishOf_of_steps hg hseated.length_eq
    hseated.reaches_of_clash hseated.isLocal (fun _ => rfl) h hevents rfl
  obtain rfl := Option.some.inj (hop.symm.trans hop')
  exact Event.outcome_eq_of_completed heq

/-- **A fault comes from the ancestors.** What has run beside them is not seen in it. -/
theorem traced_of_failed (hseated : Seated s ws d ops) (hg : g.QuotientOf (dependencies d.ops))
    (h : Steps g mode (init g ops heap) r) (hj : .failed j cause ∈ r.events)
    (hbefore : Ancestors (dependencies d.ops) j before) :
    r.Traced d mode ops heap j cause before := by
  have hr : r.Reachable (dependencies d.ops) g mode := ⟨hg, ops, heap, hseated.length_eq, h⟩
  have hcompleted : ∀ i ∈ before, .completed i ∈ r.events := fun i hi =>
    hr.completed_of_reaches ((hbefore.mem_iff i).1 hi) (hr.started_of_mem hj rfl)
  -- an operator that clashes with an ancestor, or with `j`, and comes before it is an ancestor
  have hclosed : ∀ i ∈ before, ∀ k < i, Clash ops k i → k ∈ before := fun i hi k hki hclash =>
    (hbefore.mem_iff k).2 ((hseated.reaches_of_clash hki hclash).trans ((hbefore.mem_iff i).1 hi))
  have hearlier : ∀ k < j, Clash ops k j → k ∈ before := fun k hkj hclash =>
    (hbefore.mem_iff k).2 (hseated.reaches_of_clash hkj hclash)
  have hnew : j ∉ before := fun hmem =>
    Nat.lt_irrefl j ((hbefore.mem_iff j).1 hmem).lt_of_dependencies
  have hcausal : Causal ops before := causal_of_pairwise hbefore.rise
    (fun i hi => hseated.length_eq ▸ ((hbefore.mem_iff i).1 hi).lt_length) hclosed
  obtain ⟨hok, hheap⟩ := hcausal.runInOrder_eq hseated.isLocal
    fun i hi op hop => outcome_eq_ok_of_completed hseated hg h (hcompleted i hi) hop
  obtain ⟨front, back, hevents⟩ := List.append_of_mem hj
  obtain ⟨op, hop, heq⟩ := exists_finishOf_of_steps hg hseated.length_eq
    hseated.reaches_of_clash hseated.isLocal (fun _ => rfl) h hevents rfl
  refine ⟨hj, hbefore, hcompleted, hok, op, hop, ?_⟩
  rw [hheap, (hcausal.execute_congr mode hseated.isLocal (fun _ => rfl) hop hnew hearlier).2]
  exact Event.outcome_eq_of_failed heq

end Local

end Run

/-! ## The fault of a net -/

/-- **The fault of a run depends on ancestors only.** The operators being local, a run of a dag net
that does not succeed ends, on any schedule, with the fault of an operator whose ancestors have all
completed; from where the run has begun, the ancestors alone, run one after another in the order of
the definition, lead that operator to the same fault. That holds for the runs of a net that has been
run before as well. -/
theorem DagNet.fault_traced {r : Registry σ} {pools : WorkerPools} {s : Store} {ws : String}
    {d : NetDef} {net net' : DagNet σ}
    (hnet : (r.createNetOf pools .dag s ws d).outcome = .ok (.dag net))
    (hlocal : ∀ op ∈ net.ops, op.Local) (hlater : net.Later net') {mode : Mode} {heap : Heap}
    {e : Run σ} (hsteps : Run.Steps net'.graph mode (net'.start heap) e) {stop : Stop}
    (hstop : e.outcome = .error stop) :
    ∃ j cause before, stop = .fault cause ∧ e.Traced d mode net'.ops heap j cause before := by
  obtain ⟨ops, graph, hops, hgraph, -, rfl⟩ := Registry.createNetOf_dag_eq_ok_iff.1 hnet
  obtain ⟨hdefs, hbound⟩ := Registry.bound_of_instantiate hops
  have hseated := Seated.of_later ⟨hdefs, hbound, hlocal⟩ (quotientOf_dependencies hgraph) hlater
  have hg := (quotientOf_of_later hnet hlater).1
  have hpanic := Run.not_panicked_of_steps hg hseated.length_eq hseated.reaches_of_clash
    hseated.isLocal (fun _ => rfl) hsteps
  obtain ⟨j, cause, hcause, hj⟩ :=
    (reachable_of_steps hnet hlater hsteps).exists_failed_of_outcome hpanic hstop
  obtain ⟨before, hbefore⟩ := exists_ancestors d.ops j
  exact ⟨j, cause, before, hcause, Run.traced_of_failed hseated hg hsteps hj hbefore⟩

/-! ## A net that gets stuck -/

namespace Blocked

/-- A copy, a copy of what is not there that waits for it, and a copy beside them. -/
def definition : NetDef where
  name := "blocked"
  ops := [{ opType := "Copy", inputs := ["in"], outputs := ["x"] },
    { opType := "Copy", inputs := ["gap", "x"], outputs := ["y"] },
    { opType := "Copy", inputs := ["in"], outputs := ["z"] }]

/-- The copies that wait for each other are on one chain. -/
def graph : ChainGraph := ⟨[[0, 1], [2]], [[], []], [0, 0]⟩

theorem ofNodes_eq : ChainGraph.ofNodes (dependencies definition.ops) = .ok graph := by
  have hnodes : dependencies definition.ops = [⟨[], [1]⟩, ⟨[0], []⟩, ⟨[], []⟩] := by cbv
  have hchains : chains [⟨[], [1]⟩, ⟨[0], []⟩, ⟨[], []⟩] = .ok [[0, 1], [2]] :=
    chainsOf_cons (by cbv) (chainsOf_cons (by cbv) (by cbv))
  rw [hnodes, ChainGraph.ofNodes, hchains]
  decide

/-- The operators of the net. -/
def ops : List (Operator Unit) :=
  match (Fork.registry.instantiate {} "" definition).outcome with
  | .ok ops => ops
  | .error _ => []

/-- The net. -/
def net : DagNet Unit := ⟨"blocked", ops, dependencies definition.ops, graph, 1⟩

theorem createNetOf_eq :
    (Fork.registry.createNetOf .plentiful .dag {} "" definition).outcome = .ok (.dag net) :=
  Registry.createNetOf_dag_eq_ok_iff.2 ⟨ops, graph, rfl, ofNodes_eq, by decide, rfl⟩

theorem local_of_mem_ops : ∀ op ∈ ops, op.Local :=
  Builtin.local_of_copies (n := 3) rfl (by decide)

/-- What the second copy fails with. -/
def cause : Fault := .execution "Copy" "" "input blob gap is empty"

end Blocked

/-- The first copy and the one beside it are made, the second one fails. -/
theorem blocked_fault_traced : ∃ e,
    (Fork.registry.createNetOf .plentiful .dag {} "" Blocked.definition).outcome =
        .ok (.dag Blocked.net) ∧
      (∀ op ∈ Blocked.net.ops, op.Local) ∧ Blocked.net.Later Blocked.net ∧
      Run.Steps Blocked.net.graph .sync (Blocked.net.start Fork.fed) e ∧
      e.outcome = .error (.fault Blocked.cause) ∧ ∃ j cause before,
        Stop.fault Blocked.cause = .fault cause ∧
          e.Traced Blocked.definition .sync Blocked.net.ops Fork.fed j cause before := by
  have hrun : ((Blocked.net.start Fork.fed).along Blocked.net.graph .sync
      [0, 0, 0, 1, 1, 1, 0, 0, 0, 1, 1, 0, 0]).map (·.outcome) =
        some (.error (.fault Blocked.cause)) := by decide
  obtain ⟨e, he, hstop⟩ := Option.map_eq_some_iff.1 hrun
  have hsteps := Run.steps_iff_exists_along.2 ⟨_, he⟩
  exact ⟨e, Blocked.createNetOf_eq, Blocked.local_of_mem_ops, .new, hsteps, hstop,
    DagNet.fault_traced Blocked.createNetOf_eq Blocked.local_of_mem_ops .new hsteps hstop⟩

end OpNet
