import OpNet.Proofs.Net.Lifetime
import OpNet.Proofs.Net.Record
import OpNet.Proofs.Net.Replay

/-!
# Runs without failures

A run in which nothing fails or panics comes to its end with everything done. That it comes to an
end at all is `Run.weight_advance_lt`; what is left to show is that it does not end too early, with
chains that nobody has started. What has been done by then is the work of the operators, each
executed once: `Run.Replays` gives the operators and the blobs along with the account of events.

* `Run.InRange` — the indices that a task will use are in range.
* `Run.Reachable.inRange`, `Run.Reachable.left_ne_zero_of_releasing` — no task uses an index out of
  range or lowers a counter that is zero.
* `Run.Reachable.done_of_over` — at the end of a run without failures every chain is done, and
  `Run.Reachable.finished_perm_of_over` — so every operator has finished, in whichever order.
* `DagNet.exactly_once` — the runs of a net, the later ones as well as the first.
-/

set_option autoImplicit false

namespace OpNet

/-! ## What a task will use -/

/-- The operators that a task has in hand or still has to do. -/
def Phase.ops : Phase → List Nat
  | .walking todo => todo
  | .admitted i todo | .inFlight i todo => i :: todo
  | .raising i _ | .recording i _ => [i]
  | .releasing _ => []

/-- The chains that a task has begun to tell and still has to. -/
def Phase.chains : Phase → List Nat
  | .releasing ds => ds
  | _ => []

variable {σ : Type}

namespace Run

/-- The indices that a task will use are in range. -/
structure InRange (g : ChainGraph) (r : Run σ) (t : Task) : Prop where
  chain_lt : t.chain < g.chains.length
  chain_lt_children : t.chain < g.children.length
  op_lt : ∀ i ∈ t.phase.ops, i < r.ops.length
  child_lt : ∀ d ∈ t.phase.chains, d < r.pending.length

/-- No operator has failed or panicked. -/
def Clean (r : Run σ) : Prop :=
  ∀ i, .panicked i ∉ r.events ∧ ∀ cause, .failed i cause ∉ r.events

theorem Split.subset {r : Run σ} {ops inHand todo : List Nat} (h : r.Split ops inHand todo) :
    inHand ++ todo ⊆ ops := by
  obtain ⟨before, rfl, -⟩ := h
  rw [List.append_assoc]
  exact List.subset_append_right _ _

theorem StandsAt.ops_subset {g : ChainGraph} {r : Run σ} {c : Nat} {phase : Phase}
    (h : r.StandsAt g c (.active phase)) : phase.ops ⊆ g.opsOf c := by
  cases phase with
  | walking | admitted => exact Split.subset h
  | inFlight => exact h.1.subset
  | raising | recording =>
    obtain ⟨todo, hsplit, -⟩ := h
    exact fun i hi => hsplit.subset (List.mem_append_left _ hi)
  | releasing => exact List.nil_subset _

theorem StandsAt.chains_subset {g : ChainGraph} {r : Run σ} {c : Nat} {phase : Phase}
    (h : r.StandsAt g c (.active phase)) : phase.chains ⊆ g.childrenOf c := by
  cases phase with
  | releasing => exact h.2.subset
  | _ => exact List.nil_subset _

theorem Stage.mem_childrenOf_of_mem_owed {g : ChainGraph} {r : Run σ} {c d : Nat} {stage : Stage}
    (h : r.StandsAt g c stage) (hd : d ∈ stage.owed g c) : d ∈ g.childrenOf c := by
  cases stage with
  | waiting | halted => exact hd
  | done => cases hd
  | active phase =>
    cases phase with
    | releasing => exact h.2.subset hd
    | _ => exact hd

section Reachable

variable {nodes : List Node} {g : ChainGraph} {mode : Mode} {r : Run σ}

/-- **Every index is in range.** -/
theorem Reachable.inRange (h : r.Reachable nodes g mode) {t : Task} (ht : t ∈ r.tasks) :
    r.InRange g t := by
  obtain ⟨stage, hplaced, hcounted⟩ := h.ledger
  have hstands := hplaced.standsAt_of_mem ht
  have hlt := hplaced.lt_of_mem ht
  refine ⟨hlt, h.1.length_children ▸ hlt, fun i hi => ?_, fun d hd => ?_⟩
  · rw [h.length_ops]
    exact h.1.exists_mem_opsOf_iff.1 ⟨t.chain, hstands.ops_subset hi⟩
  · rw [hcounted.length_pending]
    exact (h.1.lt_of_mem_childrenOf (hstands.chains_subset hd)).2

/-- **No counter is lowered below zero.** -/
theorem Reachable.left_ne_zero_of_releasing (h : r.Reachable nodes g mode) {t : Task}
    (ht : t ∈ r.tasks) {d : Nat} (hd : d ∈ t.phase.chains) : r.left d ≠ 0 := by
  have hrange := h.inRange ht
  obtain ⟨stage, hplaced, hcounted⟩ := h.ledger
  have hdlt := hrange.child_lt d hd
  rw [hcounted.length_pending] at hdlt
  refine hcounted.left_ne_zero hrange.chain_lt hdlt ?_
  rw [hplaced.stage_eq ht]
  obtain ⟨c, phase⟩ := t
  cases phase with
  | releasing => exact hd
  | _ => cases hd

theorem Ledger.exists_owing {stage : Nat → Stage} (h : r.Ledger g stage) (hg : g.QuotientOf nodes)
    {d : Nat} (hd : d < g.chains.length) (hwait : stage d = .waiting) :
    ∃ c < d, d ∈ (stage c).owed g c := by
  have hleft := (h.counted.waiting_iff d hd).1 hwait
  rw [h.counted.left_eq d hd, Nat.ne_zero_iff_zero_lt, List.countP_pos_iff] at hleft
  obtain ⟨c, -, howed⟩ := hleft
  rw [decide_eq_true_eq] at howed
  have hchild := Stage.mem_childrenOf_of_mem_owed (h.placed.standsAt c) howed
  exact ⟨c, (hg.lt_of_mem_childrenOf hchild).1, howed⟩

/-- A chain is not halted unless something has failed or panicked. -/
theorem Reachable.not_halted (h : r.Reachable nodes g mode) (hclean : r.Clean) {c : Nat} :
    ¬r.StandsAt g c .halted := by
  rintro ⟨inHand, todo, -, -, hbroke, hfailed⟩
  cases inHand with
  | nil =>
    obtain ⟨i, cause, hi⟩ := h.recorded.exists_failed (hfailed rfl)
    exact (hclean i).2 cause hi
  | cons i inHand =>
    rcases hbroke i List.mem_cons_self with hi | ⟨cause, hi⟩
    · exact (hclean i).1 (mem_events_of_history hi (by simp))
    · exact (hclean i).2 cause (mem_events_of_history hi (by simp))

/-- **A run without failures ends with every chain done.** By induction on the number of the chain:
a chain that waits is owed a word by one with a smaller number. -/
theorem Reachable.done_of_over (h : r.Reachable nodes g mode) (hclean : r.Clean) (hover : r.Over)
    {stage : Nat → Stage} (hledger : r.Ledger g stage) {d : Nat} (hd : d < g.chains.length) :
    stage d = .done := by
  induction d using Nat.strong_induction_on with
  | _ d ih =>
    cases hstage : stage d with
    | done => rfl
    | waiting =>
      obtain ⟨c, hcd, howed⟩ := hledger.exists_owing h.1 hd hstage
      rw [ih c hcd (Nat.lt_trans hcd hd)] at howed
      cases howed
    | halted =>
      have hstands := hledger.placed.standsAt d
      rw [hstage] at hstands
      exact absurd hstands (h.not_halted hclean)
    | active phase => exact absurd hstage (hledger.placed.ne_active_of_over hover d phase)

theorem Reachable.ran_of_over (h : r.Reachable nodes g mode) (hclean : r.Clean) (hover : r.Over)
    {i : Nat} (hi : i < nodes.length) : r.Ran i := by
  obtain ⟨stage, hledger⟩ := h.ledger
  obtain ⟨c, hc⟩ := h.1.exists_mem_opsOf_iff.2 hi
  have hstands := hledger.placed.standsAt c
  rw [h.done_of_over hclean hover hledger (ChainGraph.QuotientOf.lt_of_mem_opsOf hc)] at hstands
  exact hstands i hc

theorem Reachable.count_spawned_le_one (h : r.Reachable nodes g mode) (c : Nat) :
    r.events.count (.spawned c) ≤ 1 := by
  obtain ⟨stage, hledger⟩ := h.ledger
  rw [hledger.placed.count_spawned]
  split
  · exact Nat.zero_le 1
  · exact Nat.le_refl 1

theorem Reachable.count_spawned_of_over (h : r.Reachable nodes g mode) (hclean : r.Clean)
    (hover : r.Over) (c : Nat) :
    r.events.count (.spawned c) = if c < g.chains.length then 1 else 0 := by
  obtain ⟨stage, hledger⟩ := h.ledger
  rw [hledger.placed.count_spawned]
  by_cases hc : c < g.chains.length
  · simp [hc, h.done_of_over hclean hover hledger hc]
  · have hwait : stage c = .waiting := by
      by_contra hne
      exact hc (hledger.placed.lt_of_ne_waiting hne)
    simp [hc, hwait]

/-- At the end of a run without failures every operator was started and has completed, exactly
once. -/
theorem Reachable.count_of_over (h : r.Reachable nodes g mode) (hclean : r.Clean) (hover : r.Over)
    {e : Event} {i : Nat} (he : e = .started i ∨ e = .completed i) :
    r.events.count e = if i < nodes.length then 1 else 0 := by
  have hop : e.op? = some i := by rcases he with rfl | rfl <;> rfl
  split
  · next hi =>
    rw [← count_history hop, show r.history i = _ from h.ran_of_over hclean hover hi]
    rcases he with rfl | rfl <;> simp
  · next hi =>
    exact List.count_eq_zero.2 fun hmem => hi (h.lt_of_mem_events hmem hop)

/-- At the end of a run without failures the operators have finished, each of them once. -/
theorem Reachable.finished_perm_of_over (h : r.Reachable nodes g mode) (hclean : r.Clean)
    (hover : r.Over) : r.finished.Perm (List.range nodes.length) := by
  refine (List.perm_ext_iff_of_nodup h.nodup_finished List.nodup_range).2 fun i => ?_
  rw [List.mem_range]
  exact ⟨h.lt_of_mem_finished, fun hi => mem_finished_of_ran (h.ran_of_over hclean hover hi)⟩

end Reachable

/-! ## The runs of a net -/

/-- What a run of a net without failures is like, in any of its states. It has begun with the given
operators and contents. -/
structure Orderly (d : NetDef) (g : ChainGraph) (mode : Mode) (ops : List (Operator σ))
    (heap : Heap) (r : Run σ) : Prop where
  spawned_le_one : ∀ c, r.events.count (.spawned c) ≤ 1
  started_le_one : ∀ i, r.events.count (.started i) ≤ 1
  completed_le_one : ∀ i, r.events.count (.completed i) ≤ 1
  /-- When an operator started, its parents had completed. -/
  completed_before : ∀ j before after, r.events = before ++ .started j :: after →
    ∃ node, (dependencies d.ops)[j]? = some node ∧ ∀ i ∈ node.parents, .completed i ∈ before
  /-- A counter that a task will lower is not zero. -/
  left_ne_zero : ∀ t ∈ r.tasks, ∀ c ∈ t.phase.chains, r.left c ≠ 0
  inRange : ∀ t ∈ r.tasks, r.InRange g t
  /-- There is no endless schedule. -/
  length_le : ∀ ks s, r.along g mode ks = some s → ks.length ≤ weight g r
  /-- A schedule can go on as long as a chain is not finished. -/
  over_iff : r.Over ↔ ∀ k, r.advance g mode k = none
  spawned_of_over : r.Over → ∀ c, r.events.count (.spawned c) = if c < g.chains.length then 1 else 0
  started_of_over : r.Over → ∀ i, r.events.count (.started i) = if i < d.ops.length then 1 else 0
  completed_of_over :
    r.Over → ∀ i, r.events.count (.completed i) = if i < d.ops.length then 1 else 0
  /-- What has completed was executed, and its execution has succeeded. -/
  outcome_of_completed : ∀ before i after, r.events = before ++ .completed i :: after →
    ∃ op, ops[i]? = some op ∧
      (op.execute mode (replay mode ops heap (before.filterMap Event.finished?)).2).outcome = .ok ()
  /-- The blobs hold what executing the operators that have finished leaves there. -/
  heap_eq_replay : r.heap = (replay mode ops heap r.finished).2
  /-- At the end the operators are those that executing each of them has left. -/
  ops_eq_replay_of_over : r.Over → r.ops = (replay mode ops heap r.finished).1
  finished_perm_of_over : r.Over → r.finished.Perm (List.range d.ops.length)

theorem orderly_of_steps {d : NetDef} {g : ChainGraph} {mode : Mode} {ops : List (Operator σ)}
    {heap : Heap} {r : Run σ} (hg : g.QuotientOf (dependencies d.ops))
    (hops : ops.length = (dependencies d.ops).length) (hsteps : Steps g mode (init g ops heap) r)
    (hclean : r.Clean) : r.Orderly d g mode ops heap := by
  have h : r.Reachable (dependencies d.ops) g mode := ⟨hg, ops, heap, hops, hsteps⟩
  have hreplays := replays_of_steps hg hops hsteps
  have hlength := length_dependencies d.ops
  exact {
    spawned_le_one := h.count_spawned_le_one
    started_le_one := fun _ => h.count_le_one rfl
    completed_le_one := fun _ => h.count_le_one rfl
    completed_before := fun j before after hevents => by
      have hj : j < d.ops.length :=
        hlength ▸ h.lt_of_mem_events (e := .started j) (by simp [hevents]) rfl
      obtain ⟨node, hnode⟩ := exists_node_of_lt hj
      exact ⟨node, hnode, fun i hi =>
        h.completed_before hevents ((edge_iff_mem_parents hnode).2 hi)⟩
    left_ne_zero := fun _ ht _ hc => h.left_ne_zero_of_releasing ht hc
    inRange := fun _ ht => h.inRange ht
    length_le := fun ks s hs => Nat.le_trans (Nat.le_add_right _ _) (length_add_weight_le hs)
    over_iff := over_iff_advance_eq_none g mode
    spawned_of_over := h.count_spawned_of_over hclean
    started_of_over := fun hover i => by rw [h.count_of_over hclean hover (.inl rfl), hlength]
    completed_of_over := fun hover i => by rw [h.count_of_over hclean hover (.inr rfl), hlength]
    outcome_of_completed := fun before i after hevents => by
      obtain ⟨op, hop, heq⟩ := hreplays.finish_eq before after _ i hevents rfl
      exact ⟨op, hop, Event.outcome_eq_of_completed heq⟩
    heap_eq_replay := hreplays.heap_eq
    ops_eq_replay_of_over := ops_eq_replay_of_over hg hops hsteps
    finished_perm_of_over := fun hover => hlength ▸ h.finished_perm_of_over hclean hover }

end Run

/-- **Exactly once, in order, to the end.** As long as no operator fails or panics, a run of a dag
net starts every chain and executes every operator once, parents first, and ends with all of them
done: operators and blobs are then what these executions have made of them. That holds for the runs
of a net that has been run before as well, however those runs have ended. -/
theorem DagNet.exactly_once {r : Registry σ} {pools : WorkerPools} {s : Store} {ws : String}
    {d : NetDef} {net net' : DagNet σ}
    (hnet : (r.createNetOf pools .dag s ws d).outcome = .ok (.dag net)) (hlater : net.Later net')
    {mode : Mode} {heap : Heap} {e : Run σ}
    (hsteps : Run.Steps net'.graph mode (net'.start heap) e) (hclean : e.Clean) :
    e.Orderly d net'.graph mode net'.ops heap := by
  obtain ⟨hg, hops⟩ := quotientOf_of_later hnet hlater
  exact Run.orderly_of_steps hg hops hsteps hclean

/-- A copy and two copies of the copy, one action at a time. -/
theorem fork_exactly_once : ∃ e,
    (Fork.registry.createNetOf .plentiful .dag {} "" Fork.definition).outcome =
        .ok (.dag Fork.net) ∧
      Fork.net.Later Fork.net ∧ Run.Steps Fork.net.graph .sync (Fork.net.start Fork.fed) e ∧
      e.Clean ∧ e.Over ∧
        e.Orderly Fork.definition Fork.net.graph .sync Fork.net.ops Fork.fed := by
  have hrun : ((Fork.net.start Fork.fed).along Fork.net.graph .sync (List.replicate 17 0)).map
      (fun e => (e.tasks, e.events)) = some ([], [.spawned 0, .started 0, .completed 0, .spawned 1,
        .spawned 2, .started 1, .completed 1, .started 2, .completed 2]) := by decide
  obtain ⟨e, he, hrun⟩ := Option.map_eq_some_iff.1 hrun
  obtain ⟨hover, hevents⟩ := Prod.mk.inj hrun
  have hsteps := Run.steps_iff_exists_along.2 ⟨_, he⟩
  have hclean : e.Clean := fun i => by simp [hevents]
  exact ⟨e, Fork.createNetOf_eq, .new, hsteps, hclean, hover,
    DagNet.exactly_once Fork.createNetOf_eq .new hsteps hclean⟩

end OpNet
