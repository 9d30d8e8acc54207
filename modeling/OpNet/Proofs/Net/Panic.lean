import OpNet.Proofs.Graph.Contraction
import OpNet.Proofs.Net.Calls

/-!
# Runs with panics

A panic ends a task, and nobody is told: the flag stays down and no counter is lowered. So what
waits for the operator is never started, and everything else goes on as if nothing had happened.

* `Run.Stricken` — an operator has panicked, or it depends on one that has.
* `Run.Reachable.ran_or_stricken` — when a run without failures is over, all other operators have
  run.
* `Run.Reachable.outcome_panics_iff` — such a run does not end without telling of a panic.
* `DagNet.panic_confined` — the runs of a net in which operators panic, and those after them.
-/

set_option autoImplicit false

namespace OpNet

variable {σ : Type}

/-- What becomes of a net by runs that come after other runs. -/
theorem DagNet.Later.trans {net net' net'' : DagNet σ} (h : net.Later net')
    (h' : net'.Later net'') : net.Later net'' := by
  induction h' with
  | new => exact h
  | run _ hsteps hover ih => exact ih.run hsteps hover

namespace Run

/-- An operator has panicked, or it depends on one that has. -/
def Stricken (nodes : List Node) (r : Run σ) (i : Nat) : Prop :=
  .panicked i ∈ r.events ∨ ∃ k, .panicked k ∈ r.events ∧ Reaches nodes k i

section Reachable

variable {nodes : List Node} {g : ChainGraph} {mode : Mode} {r s : Run σ} {i j : Nat}

theorem Stricken.of_reaches (h : r.Stricken nodes i) (hij : Reaches nodes i j) :
    r.Stricken nodes j := by
  rcases h with hi | ⟨k, hk, hki⟩
  · exact .inr ⟨i, hi, hij⟩
  · exact .inr ⟨k, hk, hki.trans hij⟩

/-- **What depends on an operator that has panicked is not executed.** -/
theorem Reachable.not_started_of_panicked (h : r.Reachable nodes g mode)
    (hi : .panicked i ∈ r.events) (hij : Reaches nodes i j) : .started j ∉ r.events := by
  intro hj
  have hran := h.ran_of_completed (h.completed_of_reaches hij hj)
  simpa using mem_of_history hran hi rfl

/-! ## What has run all the same -/

/-- A chain on which nothing has failed was halted by a panic. -/
theorem Reachable.split_of_halted (h : r.Reachable nodes g mode)
    (hfail : ∀ i cause, .failed i cause ∉ r.events) {c : Nat} (hstands : r.StandsAt g c .halted) :
    ∃ i todo, r.Split (g.opsOf c) [i] todo ∧ .panicked i ∈ r.events := by
  obtain ⟨inHand, todo, hsplit, hone, hbroke, hraised⟩ := hstands
  cases inHand with
  | nil =>
    obtain ⟨i, cause, hi⟩ := h.recorded.exists_failed (hraised rfl)
    exact absurd hi (hfail i cause)
  | cons i rest =>
    obtain rfl : rest = [] := List.length_eq_zero_iff.1 (by simpa using hone)
    refine ⟨i, todo, hsplit, ?_⟩
    rcases hbroke i List.mem_cons_self with hhist | ⟨cause, hhist⟩
    · exact mem_events_of_history hhist (by simp)
    · exact absurd (mem_events_of_history hhist (by simp)) (hfail i cause)

/-- When the run is over, a chain that still owes a word has an operator that has not run. -/
theorem Reachable.exists_not_ran (h : r.Reachable nodes g mode)
    (hfail : ∀ i cause, .failed i cause ∉ r.events) (hover : r.Over) {stage : Nat → Stage}
    (hledger : r.Ledger g stage) {c d : Nat} (howed : d ∈ (stage c).owed g c)
    (hi : i ∈ g.opsOf c) : ∃ j ∈ g.opsOf c, ¬r.Ran j := by
  have hstands := hledger.placed.standsAt c
  cases hstage : stage c with
  | done =>
    rw [hstage] at howed
    cases howed
  | active phase => exact absurd hstage (hledger.placed.ne_active_of_over hover c phase)
  | waiting =>
    rw [hstage] at hstands
    refine ⟨i, hi, fun hran => ?_⟩
    cases (hstands i hi).symm.trans hran
  | halted =>
    rw [hstage] at hstands
    obtain ⟨j, todo, hsplit, hj⟩ := h.split_of_halted hfail hstands
    exact ⟨j, hsplit.mem, fun hran => by simpa using mem_of_history hran hj rfl⟩

/-- **A panic strikes only what depends on it.** When a run without failures is over, every operator
has run that has not panicked and depends on none that has. By induction on the number of the chain:
one that waits is owed a word by a chain before it, and that has an operator which has not run. -/
theorem Reachable.ran_or_stricken {ops : List OperatorDef}
    (h : r.Reachable (dependencies ops) g mode)
    (hgraph : ChainGraph.ofNodes (dependencies ops) = .ok g)
    (hfail : ∀ i cause, .failed i cause ∉ r.events) (hover : r.Over) {stage : Nat → Stage}
    (hledger : r.Ledger g stage) {d : Nat} (hj : j ∈ g.opsOf d) :
    r.Ran j ∨ r.Stricken (dependencies ops) j := by
  induction d using Nat.strong_induction_on generalizing j with
  | _ d ih =>
    have hstands := hledger.placed.standsAt d
    cases hstage : stage d with
    | active phase => exact absurd hstage (hledger.placed.ne_active_of_over hover d phase)
    | done =>
      rw [hstage] at hstands
      exact .inl (hstands j hj)
    | halted =>
      rw [hstage] at hstands
      obtain ⟨i, todo, ⟨before, hops, hran, -⟩, hi⟩ := h.split_of_halted hfail hstands
      rw [hops, List.append_assoc, List.mem_append] at hj
      rcases hj with hj | hj
      · exact .inl (hran j hj)
      · rcases List.mem_cons.1 hj with rfl | hj
        · exact .inr (.inl hi)
        · have hpair : [i, j].Sublist (g.opsOf d) := by
            rw [hops, List.append_assoc]
            exact ((List.singleton_sublist.2 hj).cons_cons i).trans (List.sublist_append_right _ _)
          exact .inr (.inr ⟨i, hi, reaches_of_pair_sublist hgraph hpair⟩)
    | waiting =>
      obtain ⟨c, hcd, howed⟩ :=
        hledger.exists_owing h.1 (ChainGraph.QuotientOf.lt_of_mem_opsOf hj) hstage
      have hleads : g.Leads c d :=
        Stage.mem_childrenOf_of_mem_owed (hledger.placed.standsAt c) howed
      obtain ⟨-, k, hk, -⟩ := (leads_iff hgraph).1 hleads
      obtain ⟨i, hi, hnot⟩ := h.exists_not_ran hfail hover hledger howed hk
      have hstricken := (ih c hcd hi).resolve_left hnot
      exact .inr (hstricken.of_reaches (reaches_of_leads hgraph hleads hi hj))

/-! ## How the run ends -/

/-- A panic that has happened is on record. -/
theorem firstPanic_of_advance (h : ∀ i, .panicked i ∈ r.events → r.firstPanic ≠ none) {k : Nat}
    (hs : r.advance g mode k = some s) : ∀ i, .panicked i ∈ s.events → s.firstPanic ≠ none := by
  obtain ⟨⟨c, phase⟩, r', phase?, -, hacts, rfl⟩ := exists_acts_of_advance hs
  change ∀ i, .panicked i ∈ r'.events → r'.firstPanic ≠ none
  cases hacts with
  | panic | astray => exact fun _ _ => by simp [notePanic, note]
  | start | complete | fail | record | launch =>
    intro i hi
    rcases List.mem_append.1 hi with hi | hi
    · exact h i hi
    · cases List.mem_singleton.1 hi
  | _ => exact h

theorem Reachable.firstPanic_ne_none (h : r.Reachable nodes g mode) :
    ∀ i, .panicked i ∈ r.events → r.firstPanic ≠ none := by
  obtain ⟨-, ops, heap, -, hsteps⟩ := h
  induction hsteps with
  | refl => simp [init]
  | step _ hk ih => exact firstPanic_of_advance ih hk

/-- **A run tells of a panic** exactly if an operator has panicked. -/
theorem Reachable.outcome_panics_iff (h : r.Reachable nodes g mode) :
    (∃ text, r.outcome = .error (.panic text)) ↔ ∃ i, .panicked i ∈ r.events := by
  have hiff : r.firstPanic ≠ none ↔ ∃ i, .panicked i ∈ r.events :=
    ⟨h.recorded.exists_panicked, fun ⟨i, hi⟩ => h.firstPanic_ne_none i hi⟩
  rw [← hiff, outcome]
  cases r.firstPanic with
  | some text => simp
  | none => cases r.firstFault <;> simp

end Reachable

/-! ## What the bodies have returned -/

section Replays

variable {nodes : List Node} {g : ChainGraph} {mode : Mode} {ops : List (Operator σ)} {heap : Heap}
  {r : Run σ} {i : Nat}

/-- What a body has returned in a run is told by the event that finishes its operator. -/
theorem Replays.finishOf_mem_of_returned (h : r.Replays mode ops heap) (hnodup : r.finished.Nodup)
    {outcome : Outcome Unit} (hret : Returned mode ops heap r.finished i outcome) :
    ∃ op, ops[i]? = some op ∧ .finishOf i (outcome.mapError op.binding.tagStop) ∈ r.events := by
  obtain ⟨e, he, hfin⟩ := List.mem_filterMap.1 hret.mem
  obtain ⟨op, outcome', hop, hout, heq⟩ := h.exists_returned he hfin
  obtain rfl := hret.unique hout hnodup
  exact ⟨op, hop, heq ▸ he⟩

theorem Replays.completed_iff (h : r.Replays mode ops heap) (hnodup : r.finished.Nodup) :
    .completed i ∈ r.events ↔ Returned mode ops heap r.finished i (.ok ()) := by
  constructor
  · intro hi
    obtain ⟨op, outcome, -, hout, heq⟩ := h.exists_returned hi rfl
    cases outcome with
    | ok => exact hout
    | error stop => cases Event.outcome_eq_of_completed heq
  · intro hret
    obtain ⟨op, -, hmem⟩ := h.finishOf_mem_of_returned hnodup hret
    exact hmem

theorem Replays.panicked_iff (h : r.Replays mode ops heap) (hnodup : r.finished.Nodup) :
    .panicked i ∈ r.events ↔
      ∃ text, Returned mode ops heap r.finished i (.error (.panic text)) := by
  constructor
  · intro hi
    obtain ⟨op, outcome, -, hout, heq⟩ := h.exists_returned hi rfl
    obtain ⟨text, htext⟩ := Event.outcome_eq_of_panicked heq
    obtain ⟨cause | text', rfl, htag⟩ := Binding.exists_of_mapError_tagStop htext
    · cases htag
    · exact ⟨text', hout⟩
  · rintro ⟨text, hret⟩
    obtain ⟨op, -, hmem⟩ := h.finishOf_mem_of_returned hnodup hret
    exact hmem

theorem Replays.failed_iff (h : r.Replays mode ops heap) (hnodup : r.finished.Nodup) :
    (∃ cause, .failed i cause ∈ r.events) ↔
      ∃ cause, Returned mode ops heap r.finished i (.error (.fault cause)) := by
  constructor
  · rintro ⟨cause, hi⟩
    obtain ⟨op, outcome, -, hout, heq⟩ := h.exists_returned hi rfl
    obtain ⟨cause' | text, rfl, htag⟩ :=
      Binding.exists_of_mapError_tagStop (Event.outcome_eq_of_failed heq)
    · exact ⟨cause', hout⟩
    · cases htag
  · rintro ⟨cause, hret⟩
    obtain ⟨op, -, hmem⟩ := h.finishOf_mem_of_returned hnodup hret
    exact ⟨_, hmem⟩

end Replays

/-! ## The runs of a net -/

/-- What a run of a net is like, in any of its states, when no body returns a fault, whichever
bodies panic. It has begun with the given operators and contents. -/
structure Confined (d : NetDef) (g : ChainGraph) (mode : Mode) (ops : List (Operator σ))
    (heap : Heap) (r : Run σ) : Prop where
  panicked_iff : ∀ i, .panicked i ∈ r.events ↔
    ∃ text, Returned mode ops heap r.finished i (.error (.panic text))
  completed_iff : ∀ i, .completed i ∈ r.events ↔ Returned mode ops heap r.finished i (.ok ())
  started_le_one : ∀ i, r.events.count (.started i) ≤ 1
  /-- What depends on an operator that has panicked is not executed. -/
  not_started_of_reaches : ∀ i j, .panicked i ∈ r.events → Reaches (dependencies d.ops) i j →
    .started j ∉ r.events
  /-- There is no endless schedule. -/
  length_le : ∀ ks s, r.along g mode ks = some s → ks.length ≤ weight g r
  /-- A schedule can go on as long as a chain is not finished. -/
  over_iff : r.Over ↔ ∀ k, r.advance g mode k = none
  /-- A run in which an operator has panicked does not end well. -/
  outcome_panics_iff :
    (∃ text, r.outcome = .error (.panic text)) ↔ ∃ i, .panicked i ∈ r.events
  outcome_eq_ok : (∀ i, .panicked i ∉ r.events) → r.outcome = .ok ()
  /-- Everything else has been executed once and has completed. -/
  completed_of_over : r.Over → ∀ i < d.ops.length, .panicked i ∉ r.events →
    (∀ k, .panicked k ∈ r.events → ¬Reaches (dependencies d.ops) k i) →
      r.events.count (.started i) = 1 ∧ r.events.count (.completed i) = 1 ∧
        r.ops[i]?.map Operator.state = some .completed
  /-- An operator that has panicked is left as it was in flight. -/
  running_of_over : r.Over → ∀ i, .panicked i ∈ r.events →
    r.events.count (.started i) = 1 ∧ r.ops[i]?.map Operator.state = some .running
  /-- An operator that was not executed is as it was. -/
  kept_of_over : r.Over → ∀ i, .started i ∉ r.events → r.ops[i]? = ops[i]?

theorem confined_of_steps {d : NetDef} {g : ChainGraph} {mode : Mode} {ops : List (Operator σ)}
    {heap : Heap} {r : Run σ} (hgraph : ChainGraph.ofNodes (dependencies d.ops) = .ok g)
    (hops : ops.length = (dependencies d.ops).length) (hsteps : Steps g mode (init g ops heap) r)
    (hfault : ∀ i cause, ¬Returned mode ops heap r.finished i (.error (.fault cause))) :
    r.Confined d g mode ops heap := by
  have hg := quotientOf_dependencies hgraph
  have h : r.Reachable (dependencies d.ops) g mode := ⟨hg, ops, heap, hops, hsteps⟩
  have hreplays := replays_of_steps hg hops hsteps
  have hfail (i : Nat) (cause : Fault) : .failed i cause ∉ r.events := fun hi => by
    obtain ⟨cause', hret⟩ := (hreplays.failed_iff h.nodup_finished).1 ⟨cause, hi⟩
    exact hfault i cause' hret
  have hcompleted (i : Nat) := hreplays.completed_iff (i := i) h.nodup_finished
  have hpanicked (i : Nat) := hreplays.panicked_iff (i := i) h.nodup_finished
  have hstate (hover : r.Over) (i : Nat) (outcome : Outcome Unit)
      (hret : Returned mode ops heap r.finished i outcome) :
      r.ops[i]?.map Operator.state = some (.after outcome) := by
    rw [ops_eq_replay_of_over hg hops hsteps hover]
    exact hret.state_eq h.nodup_finished
  have honce {e : Event} {i : Nat} (he : e ∈ r.events) (hop : e.op? = some i) :
      r.events.count e = 1 :=
    Nat.le_antisymm (h.count_le_one hop) (List.count_pos_iff.2 he)
  refine ⟨hpanicked, hcompleted, fun i => h.count_le_one rfl,
    fun i j hi hij => h.not_started_of_panicked hi hij,
    fun ks s hs => Nat.le_trans (Nat.le_add_right _ _) (length_add_weight_le hs),
    over_iff_advance_eq_none g mode, h.outcome_panics_iff, fun hnone => ?_,
    fun hover i hi hnot hfree => ?_, fun hover i hi => ?_, fun hover i hi => ?_⟩
  · rw [h.outcome_eq hnone]
    cases hhead : r.offers.head? with
    | none => rfl
    | some cause =>
      obtain ⟨before, i, after, hevents, -⟩ := exists_of_head?_offers hhead
      exact absurd (h.failed_of_recorded (by simp [hevents])) (hfail i cause)
  · obtain ⟨stage, hledger⟩ := h.ledger
    obtain ⟨c, hc⟩ := hg.exists_mem_opsOf_iff.2 (length_dependencies d.ops ▸ hi)
    have hran : r.Ran i := by
      refine (h.ran_or_stricken hgraph hfail hover hledger hc).resolve_right ?_
      rintro (hpanic | ⟨k, hk, hki⟩)
      · exact hnot hpanic
      · exact hfree k hk hki
    exact ⟨honce (mem_events_of_history hran List.mem_cons_self) rfl, honce hran.completed rfl,
      hstate hover i _ ((hcompleted i).1 hran.completed)⟩
  · obtain ⟨text, hret⟩ := (hpanicked i).1 hi
    exact ⟨honce (h.started_of_mem hi rfl) rfl, hstate hover i _ hret⟩
  · rw [ops_eq_replay_of_over hg hops hsteps hover]
    exact replay_of_not_mem fun hmem => hi ((h.started_iff_of_over hover).2 hmem)

end Run

theorem DagNet.ofNodes_of_later {r : Registry σ} {pools : WorkerPools} {s : Store} {ws : String}
    {d : NetDef} {net net' : DagNet σ}
    (hnet : (r.createNetOf pools .dag s ws d).outcome = .ok (.dag net))
    (hlater : net.Later net') : ChainGraph.ofNodes (dependencies d.ops) = .ok net'.graph := by
  obtain ⟨ops, graph, -, hgraph, -, rfl⟩ := Registry.createNetOf_dag_eq_ok_iff.1 hnet
  rwa [hlater.graph_eq]

section Later

variable {r : Registry σ} {pools : WorkerPools} {s : Store} {ws : String} {d : NetDef}
  {net net' : DagNet σ} (hnet : (r.createNetOf pools .dag s ws d).outcome = .ok (.dag net))
  (hlater : net.Later net')
  {mode : Mode} {heap : Heap} {e : Run σ}
  (hsteps : Run.Steps net'.graph mode (net'.start heap) e)
include hnet hlater hsteps

/-- The operators that have failed in a run of a net are those whose bodies have returned a fault.
-/
theorem DagNet.failed_iff (i : Nat) : (∃ cause, .failed i cause ∈ e.events) ↔
    ∃ cause, Returned mode net'.ops heap e.finished i (.error (.fault cause)) := by
  obtain ⟨hg, hops⟩ := quotientOf_of_later hnet hlater
  exact (Run.replays_of_steps hg hops hsteps).failed_iff
    (reachable_of_steps hnet hlater hsteps).nodup_finished

/-- Those that have panicked are those whose bodies have. -/
theorem DagNet.panicked_iff (i : Nat) : .panicked i ∈ e.events ↔
    ∃ text, Returned mode net'.ops heap e.finished i (.error (.panic text)) := by
  obtain ⟨hg, hops⟩ := quotientOf_of_later hnet hlater
  exact (Run.replays_of_steps hg hops hsteps).panicked_iff
    (reachable_of_steps hnet hlater hsteps).nodup_finished

end Later

/-- **A panic harms only what depends on it.** Whichever operators panic in a run of a dag net in
which none fails, and whenever: what depends on them is not executed, everything else is executed
once and has completed, and the run tells of a panic. A run of the same net in which all goes well,
however many runs lie between, executes every operator once. -/
theorem DagNet.panic_confined {r : Registry σ} {pools : WorkerPools} {s : Store} {ws : String}
    {d : NetDef} {net net' : DagNet σ}
    (hnet : (r.createNetOf pools .dag s ws d).outcome = .ok (.dag net)) (hlater : net.Later net')
    {mode : Mode} {heap : Heap} {e : Run σ}
    (hsteps : Run.Steps net'.graph mode (net'.start heap) e)
    (hfault : ∀ i cause, ¬Returned mode net'.ops heap e.finished i (.error (.fault cause))) :
    e.Confined d net'.graph mode net'.ops heap ∧
      (e.Over → ∀ (net'' : DagNet σ) (mode' : Mode) (heap' : Heap) (e' : Run σ),
        ({ net' with ops := e.ops } : DagNet σ).Later net'' →
        Run.Steps net''.graph mode' (net''.start heap') e' → e'.Over →
        (∀ i stop, ¬Returned mode' net''.ops heap' e'.finished i (.error stop)) →
          e'.outcome = .ok () ∧ ∀ i < d.ops.length, e'.events.count (.started i) = 1 ∧
            e'.events.count (.completed i) = 1 ∧
              e'.ops[i]?.map Operator.state = some .completed) := by
  refine ⟨Run.confined_of_steps (ofNodes_of_later hnet hlater) (quotientOf_of_later hnet hlater).2
    hsteps hfault, fun hover net'' mode' heap' e' hlater' hsteps' hover' hwell => ?_⟩
  have hlater'' : net.Later net'' := (hlater.run hsteps hover).trans hlater'
  have hconfined := Run.confined_of_steps (ofNodes_of_later hnet hlater'')
    (quotientOf_of_later hnet hlater'').2 hsteps' fun i cause => hwell i (.fault cause)
  have hnone (i : Nat) : .panicked i ∉ e'.events := fun hi => by
    obtain ⟨text, hret⟩ := (hconfined.panicked_iff i).1 hi
    exact hwell i _ hret
  exact ⟨hconfined.outcome_eq_ok hnone, fun i hi =>
    hconfined.completed_of_over hover' i hi (hnone i) fun k hk => absurd hk (hnone k)⟩

/-! ## A net with a fuse -/

namespace Fuse

/-- A kernel that panics when it is run for the first time, and copies from then on. -/
def kernel : Action Bool := fun b ready heap =>
  if ready then Builtin.copy b ready heap
  else { inner := true, heap, outcome := .error (.panic "blown") }

/-- A registry of copies and fuses. -/
def registry : Registry Bool :=
  let (_, r) := ({} : Registry Bool).registerKernel "Copy" none .host fun _ =>
    { verdict := .built (true, Builtin.copy) }
  (r.registerKernel "Fuse" none .host fun _ => { verdict := .built (false, kernel) }).2

/-- A copy, a fuse behind it, a copy of what comes through the fuse, and a copy beside them. -/
def definition : NetDef where
  name := "fuse"
  ops := [{ opType := "Copy", inputs := ["in"], outputs := ["x"] },
    { opType := "Fuse", inputs := ["x"], outputs := ["y"] },
    { opType := "Copy", inputs := ["y"], outputs := ["u"] },
    { opType := "Copy", inputs := ["x"], outputs := ["z"] }]

/-- The fuse and the copy behind it are on one chain. -/
def graph : ChainGraph := ⟨[[0], [1, 2], [3]], [[1, 2], [], []], [0, 1, 1]⟩

theorem ofNodes_eq : ChainGraph.ofNodes (dependencies definition.ops) = .ok graph := by
  have hnodes : dependencies definition.ops =
      [⟨[], [1, 3]⟩, ⟨[0], [2]⟩, ⟨[1], []⟩, ⟨[0], []⟩] := by cbv
  have hchains : chains [⟨[], [1, 3]⟩, ⟨[0], [2]⟩, ⟨[1], []⟩, ⟨[0], []⟩] =
      .ok [[0], [1, 2], [3]] :=
    chainsOf_cons (by cbv) (chainsOf_cons (by cbv) (chainsOf_cons (by cbv) (by cbv)))
  rw [hnodes, ChainGraph.ofNodes, hchains]
  decide

/-- The operators of the net. -/
def ops : List (Operator Bool) :=
  match (registry.instantiate {} "" definition).outcome with
  | .ok ops => ops
  | .error _ => []

/-- The net. -/
def net : DagNet Bool := ⟨"fuse", ops, dependencies definition.ops, graph, 1⟩

theorem createNetOf_eq :
    (registry.createNetOf .plentiful .dag {} "" definition).outcome = .ok (.dag net) :=
  Registry.createNetOf_dag_eq_ok_iff.2 ⟨ops, graph, rfl, ofNodes_eq, by decide, rfl⟩

end Fuse

open Fuse in
/-- The fuse blows, so nothing is copied behind it, but the copy beside it is made. The next run
goes through. -/
theorem fuse_panic_confined : ∃ e e' : Run Bool,
    (registry.createNetOf .plentiful .dag {} "" definition).outcome = .ok (.dag net) ∧
      net.Later net ∧ Run.Steps net.graph .sync (net.start Fork.fed) e ∧ e.Over ∧
      (∀ i cause, ¬Returned .sync net.ops Fork.fed e.finished i (.error (.fault cause))) ∧
      .panicked 1 ∈ e.events ∧ .started 2 ∉ e.events ∧
      e.ops.map Operator.state = [.completed, .running, .ready, .completed] ∧
      e.Confined definition net.graph .sync net.ops Fork.fed ∧
      Run.Steps net.graph .async (({ net with ops := e.ops } : DagNet Bool).start e.heap) e' ∧
      e'.Over ∧ e'.outcome = .ok () ∧ ∀ i < 4, e'.events.count (.started i) = 1 ∧
        e'.events.count (.completed i) = 1 ∧
          e'.ops[i]?.map Operator.state = some .completed := by
  have hrun : ((net.start Fork.fed).along net.graph .sync (List.replicate 15 0)).map
      (fun e => (e.tasks, e.events, e.ops.map Operator.state,
        (({ net with ops := e.ops } : DagNet Bool).start e.heap).along net.graph .async
          (List.replicate 20 0) |>.map fun e' => (e'.tasks, e'.events))) =
      some ([], [.spawned 0, .started 0, .completed 0, .spawned 1, .spawned 2, .started 1,
          .panicked 1, .started 3, .completed 3], [.completed, .running, .ready, .completed],
        some ([], [.spawned 0, .started 0, .completed 0, .spawned 1, .spawned 2, .started 1,
          .completed 1, .started 2, .completed 2, .started 3, .completed 3])) := rfl
  obtain ⟨e, he, hrun⟩ := Option.map_eq_some_iff.1 hrun
  obtain ⟨hover, hrun⟩ := Prod.mk.inj hrun
  obtain ⟨hevents, hrun⟩ := Prod.mk.inj hrun
  obtain ⟨hstates, hrun'⟩ := Prod.mk.inj hrun
  obtain ⟨e', he', hrun'⟩ := Option.map_eq_some_iff.1 hrun'
  obtain ⟨hover', hevents'⟩ := Prod.mk.inj hrun'
  have hsteps := Run.steps_iff_exists_along.2 ⟨_, he⟩
  have hsteps' := Run.steps_iff_exists_along.2 ⟨_, he'⟩
  have hlater : net.Later { net with ops := e.ops } := .run .new hsteps hover
  have hfault : ∀ i cause,
      ¬Returned .sync net.ops Fork.fed e.finished i (.error (.fault cause)) := by
    intro i cause hret
    obtain ⟨cause', hi⟩ := (DagNet.failed_iff createNetOf_eq .new hsteps i).2 ⟨cause, hret⟩
    simp [hevents] at hi
  have hwell : ∀ i stop, ¬Returned .async e.ops e.heap e'.finished i (.error stop) := by
    rintro i (cause | text) hret
    · obtain ⟨cause', hi⟩ := (DagNet.failed_iff createNetOf_eq hlater hsteps' i).2 ⟨cause, hret⟩
      simp [hevents'] at hi
    · have hi := (DagNet.panicked_iff createNetOf_eq hlater hsteps' i).2 ⟨text, hret⟩
      simp [hevents'] at hi
  obtain ⟨hconfined, hafter⟩ := DagNet.panic_confined createNetOf_eq .new hsteps hfault
  obtain ⟨hok, honce⟩ := hafter hover _ _ _ e' .new hsteps' hover' hwell
  exact ⟨e, e', createNetOf_eq, .new, hsteps, hover, hfault, by simp [hevents], by simp [hevents],
    hstates, hconfined, hsteps', hover', hok, honce⟩

end OpNet
