import OpNet.Proofs.Net.Agreement

/-!
# The calls of a net

A net is run again and again, in either mode, on whatever its blobs hold by then, and its operators
may succeed in one run and fail in the next. What a call makes of the operators and how it ends
depends on what the bodies have returned in this call, and on nothing before it.

* `Returned` — what the body of an operator has returned in a call.
* `Settled` — the operators that were executed stand where their bodies have put them, the others
  where they stood, and the call has ended accordingly.
* `StopsAtFailure` — the operators that were executed are those up to the first that has failed.
* `settled_runInOrder`, `Run.settled_of_steps` — the calls of nets of either kind.
* `Net.RunsTo`, `Net.Later` — a run of a net, and what any number of runs make of the net;
  `Net.settled` — every run is settled, the later ones as well as the first.
-/

set_option autoImplicit false

namespace OpNet

variable {σ : Type}

/-! ## What bodies return -/

/-- The operators at the given positions are executed one after another; when it is the turn of the
one at position `i`, its body ends with an outcome. -/
def Returned (mode : Mode) (ops : List (Operator σ)) (heap : Heap) (order : List Nat) (i : Nat)
    (outcome : Outcome Unit) : Prop :=
  ∃ before after op, order = before ++ i :: after ∧ ops[i]? = some op ∧
    (op.report mode op.inner (replay mode ops heap before).2).outcome = outcome

section Returned

variable {mode : Mode} {ops : List (Operator σ)} {heap : Heap} {order : List Nat} {i k : Nat}
  {outcome outcome' : Outcome Unit}

theorem Returned.mem (h : Returned mode ops heap order i outcome) : i ∈ order := by
  obtain ⟨before, after, -, rfl, -⟩ := h
  simp

theorem exists_returned (mode : Mode) (heap : Heap) (hi : i ∈ order) (hlt : i < ops.length) :
    ∃ outcome, Returned mode ops heap order i outcome := by
  obtain ⟨before, after, rfl⟩ := List.append_of_mem hi
  exact ⟨_, before, after, ops[i], rfl, List.getElem?_eq_getElem hlt, rfl⟩

/-- An operator that is executed once returns once. -/
theorem Returned.unique (h : Returned mode ops heap order i outcome)
    (h' : Returned mode ops heap order i outcome') (hnodup : order.Nodup) : outcome = outcome' := by
  obtain ⟨before, after, op, rfl, hop, rfl⟩ := h
  obtain ⟨before', after', op', heq, hop', rfl⟩ := h'
  obtain ⟨hi, -⟩ := List.nodup_cons.1 (List.nodup_middle.1 hnodup)
  rw [List.mem_append, not_or] at hi
  obtain ⟨rfl, -, -⟩ := (List.append_cons_inj_of_notMem hi.1 hi.2).1 heq
  rw [Option.some.inj (hop.symm.trans hop')]

/-- **An operator is left where its body has put it.** -/
theorem Returned.state_eq (h : Returned mode ops heap order i outcome) (hnodup : order.Nodup) :
    (replay mode ops heap order).1[i]?.map Operator.state = some (.after outcome) := by
  obtain ⟨before, after, op, rfl, hop, rfl⟩ := h
  rw [getElem?_replay_of_nodup hop hnodup, Option.map_some, Operator.state_execute]

/-- What was executed before an operator in the order of the list. -/
theorem eq_range_of_append_cons {before after : List Nat}
    (h : List.range k = before ++ i :: after) : before = List.range i ∧ i < k := by
  have hi : i < k := List.mem_range.1 (by simp [h])
  -- in a range a number stands at the position it counts
  have hat : (List.range k)[before.length]? = some i := by simp [h]
  obtain ⟨hlt, hget⟩ := List.getElem?_eq_some_iff.1 hat
  rw [List.getElem_range] at hget
  have htake : (List.range k).take i = before := by rw [h, ← hget, List.take_left]
  rw [← htake, List.take_range, Nat.min_eq_left (Nat.le_of_lt hi)]
  exact ⟨rfl, hi⟩

theorem returned_range_iff : Returned mode ops heap (List.range k) i outcome ↔
    i < k ∧ ∃ op, ops[i]? = some op ∧
      (op.report mode op.inner (replay mode ops heap (List.range i)).2).outcome = outcome := by
  constructor
  · rintro ⟨before, after, op, horder, hop, hout⟩
    obtain ⟨rfl, hi⟩ := eq_range_of_append_cons horder
    exact ⟨hi, op, hop, hout⟩
  · rintro ⟨hi, op, hop, hout⟩
    obtain ⟨before, after, horder⟩ := List.append_of_mem (List.mem_range.2 hi)
    obtain ⟨rfl, -⟩ := eq_range_of_append_cons horder
    exact ⟨_, after, op, horder, hop, hout⟩

theorem SucceedUpTo.returned (h : SucceedUpTo mode ops heap k) (hk : k ≤ ops.length) {m : Nat}
    (hm : k ≤ m) (hi : i < k) : Returned mode ops heap (List.range m) i (.ok ()) := by
  have hop : ops[i]? = some ops[i] := List.getElem?_eq_getElem (Nat.lt_of_lt_of_le hi hk)
  exact returned_range_iff.2 ⟨Nat.lt_of_lt_of_le hi hm, _, hop,
    (Operator.outcome_execute_eq_ok_iff _ mode _).1 (h i hi _ hop)⟩

theorem succeedUpTo_of_returned {m : Nat}
    (h : ∀ i < k, Returned mode ops heap (List.range m) i (.ok ())) :
    SucceedUpTo mode ops heap k := by
  intro i hi op hop
  obtain ⟨-, op', hop', hout⟩ := returned_range_iff.1 (h i hi)
  obtain rfl := Option.some.inj (hop.symm.trans hop')
  exact (Operator.outcome_execute_eq_ok_iff op mode _).2 hout

end Returned

/-! ## What a call leaves behind -/

/-- What is reported when the body of an operator returns a fault: the fault itself if it says which
operator has failed, and otherwise one that does. -/
inductive Binding.Reports (b : Binding) : Fault → Fault → Prop
  | own (opType name text : String) :
      Reports b (.execution opType name text) (.execution opType name text)
  | named {cause : Fault} (h : ∀ opType name text, cause ≠ .execution opType name text) :
      Reports b cause (.execution b.definition.opType b.definition.name cause.message)

theorem Binding.reports_tagFault (b : Binding) (cause : Fault) :
    b.Reports cause (b.tagFault cause) := by
  cases cause with
  | execution opType name text => exact .own opType name text
  | _ => exact .named fun _ _ _ h => by cases h

/-- What has become of a net in a call that no body has ended with a panic: which operators were
executed, in the order in which they have finished, where all of them stand now, and how the call
has ended. -/
structure Settled (mode : Mode) (ops : List (Operator σ)) (heap : Heap) (result : NetRun σ)
    (order : List Nat) : Prop where
  nodup : order.Nodup
  lt_length : ∀ i ∈ order, i < ops.length
  /-- Nothing has happened but these executions. -/
  replay_eq : replay mode ops heap order = (result.ops, result.heap)
  returned : ∀ i ∈ order, Returned mode ops heap order i (.ok ()) ∨
    ∃ cause, Returned mode ops heap order i (.error (.fault cause))
  completed : ∀ i, Returned mode ops heap order i (.ok ()) →
    result.ops[i]?.map Operator.state = some .completed
  failed : ∀ i cause, Returned mode ops heap order i (.error (.fault cause)) →
    result.ops[i]?.map Operator.state = some .failed
  /-- An operator that was not executed is as it was. -/
  kept : ∀ i ∉ order, result.ops[i]? = ops[i]?
  outcome_eq_ok_iff : result.outcome = .ok () ↔
    ∀ i < ops.length, i ∈ order ∧ result.ops[i]?.map Operator.state = some .completed
  /-- A call that does not succeed ends with the fault of an operator that has failed in it. -/
  outcome_eq_error : ∀ stop, result.outcome = .error stop → ∃ i op cause reported,
    ops[i]? = some op ∧ Returned mode ops heap order i (.error (.fault cause)) ∧
      result.ops[i]?.map Operator.state = some .failed ∧ stop = .fault reported ∧
      op.binding.Reports cause reported

/-- The operators that were executed are those up to the first that has failed. -/
structure StopsAtFailure (mode : Mode) (ops : List (Operator σ)) (heap : Heap) (order : List Nat) :
    Prop where
  order_eq : order = List.range order.length
  mem_iff : ∀ i < ops.length, i ∈ order ↔ ∀ j < i, Returned mode ops heap order j (.ok ())

section Settled

variable {mode : Mode} {ops : List (Operator σ)} {heap : Heap} {result : NetRun σ}
  {order : List Nat}

/-- A call is settled if it does what its executions do, and ends well or badly as they do. -/
theorem settled_of_replay (hnodup : order.Nodup) (hlt : ∀ i ∈ order, i < ops.length)
    (hreplay : replay mode ops heap order = (result.ops, result.heap))
    (hpanic : ∀ i text, ¬Returned mode ops heap order i (.error (.panic text)))
    (hok : result.outcome = .ok () ↔ ∀ i < ops.length, Returned mode ops heap order i (.ok ()))
    (herror : ∀ stop, result.outcome = .error stop → ∃ i op outcome, ops[i]? = some op ∧
      Returned mode ops heap order i outcome ∧
        outcome.mapError op.binding.tagStop = .error stop) :
    Settled mode ops heap result order := by
  have hops : result.ops = (replay mode ops heap order).1 := by rw [hreplay]
  have hreturned : ∀ i ∈ order, Returned mode ops heap order i (.ok ()) ∨
      ∃ cause, Returned mode ops heap order i (.error (.fault cause)) := by
    intro i hi
    obtain ⟨(cause | text) | _, h⟩ := exists_returned mode heap hi (hlt i hi)
    · exact .inr ⟨cause, h⟩
    · exact absurd h (hpanic i text)
    · exact .inl h
  have hstate : ∀ i outcome, Returned mode ops heap order i outcome →
      result.ops[i]?.map Operator.state = some (.after outcome) := fun i outcome h =>
    hops ▸ h.state_eq hnodup
  refine ⟨hnodup, hlt, hreplay, hreturned, fun i h => hstate i _ h, fun i cause h => hstate i _ h,
    fun i hi => hops ▸ replay_of_not_mem hi, hok.trans ⟨fun h i hi => ?_, fun h i hi => ?_⟩,
    fun stop hstop => ?_⟩
  · exact ⟨(h i hi).mem, hstate i _ (h i hi)⟩
  · -- a state from an earlier call proves nothing, so it is used that `i` was executed in this one
    obtain ⟨hmem, hcompleted⟩ := h i hi
    refine (hreturned i hmem).resolve_right fun ⟨cause, hcause⟩ => ?_
    rw [hstate i _ hcause] at hcompleted
    cases hcompleted
  · obtain ⟨i, op, outcome, hop, hout, htag⟩ := herror stop hstop
    obtain ⟨cause | text, rfl, rfl⟩ := Binding.exists_of_mapError_tagStop htag
    · exact ⟨i, op, cause, _, hop, hout, hstate i _ hout, rfl, op.binding.reports_tagFault cause⟩
    · exact absurd hout (hpanic i text)

/-! ## Nets run in order -/

/-- **A run in order is settled.** -/
theorem settled_runInOrder
    (hpanic : ∀ i text, ¬Returned mode ops heap
      (List.range (executedInOrder mode ops heap)) i (.error (.panic text))) :
    Settled mode ops heap (runInOrder mode ops heap)
      (List.range (executedInOrder mode ops heap)) := by
  have hle := executedInOrder_le mode ops heap
  refine settled_of_replay List.nodup_range
    (fun i hi => Nat.lt_of_lt_of_le (List.mem_range.1 hi) hle)
    (replay_range_executedInOrder mode ops heap) hpanic ?_ fun stop hstop => ?_
  · rw [runInOrder_outcome_eq_ok_iff]
    refine ⟨fun h i hi => ?_, succeedUpTo_of_returned⟩
    exact h.returned (Nat.le_refl _) (Nat.le_of_eq (executedInOrder_eq_length h).symm) hi
  · obtain ⟨i, op, hi, hop, hout⟩ := exists_of_runInOrder_eq_error hstop
    rw [Operator.outcome_execute] at hout
    exact ⟨i, op, _, hop, returned_range_iff.2 ⟨hi ▸ Nat.lt_succ_self i, op, hop, rfl⟩, hout⟩

/-- **The first failure ends a run in order.** -/
theorem stopsAtFailure_runInOrder (mode : Mode) (ops : List (Operator σ)) (heap : Heap) :
    StopsAtFailure mode ops heap (List.range (executedInOrder mode ops heap)) := by
  refine ⟨by rw [List.length_range], fun i hi => ?_⟩
  rw [List.mem_range, lt_executedInOrder_iff hi]
  refine ⟨fun h j hj => ?_, succeedUpTo_of_returned⟩
  exact h.returned (Nat.le_of_lt hi) (Nat.le_of_lt ((lt_executedInOrder_iff hi).2 h)) hj

end Settled

/-! ## Nets run by their dependencies -/

namespace Run

variable {nodes : List Node} {g : ChainGraph} {mode : Mode} {ops : List (Operator σ)} {heap : Heap}
  {r : Run σ} {e : Event} {i : Nat}

/-- What has finished has ended as its body has returned. -/
theorem Replays.exists_returned (h : r.Replays mode ops heap) (he : e ∈ r.events)
    (hfin : e.finished? = some i) : ∃ op outcome, ops[i]? = some op ∧
      Returned mode ops heap r.finished i outcome ∧
        e = .finishOf i (outcome.mapError op.binding.tagStop) := by
  obtain ⟨before, after, hevents⟩ := List.append_of_mem he
  obtain ⟨op, hop, heq⟩ := h.finish_eq before after e i hevents hfin
  rw [Operator.outcome_execute] at heq
  refine ⟨op, _, hop, ⟨_, after.filterMap Event.finished?, op, ?_, hop, rfl⟩, heq⟩
  rw [finished, hevents, List.filterMap_append, List.filterMap_cons_some hfin]

theorem Replays.not_panicked (h : r.Replays mode ops heap)
    (hpanic : ∀ i text, ¬Returned mode ops heap r.finished i (.error (.panic text))) (i : Nat) :
    .panicked i ∉ r.events := by
  intro hi
  obtain ⟨op, outcome, hop, hout, heq⟩ := h.exists_returned hi rfl
  obtain ⟨text, htext⟩ := Event.outcome_eq_of_panicked heq
  obtain ⟨cause | text', rfl, htag⟩ := Binding.exists_of_mapError_tagStop htext
  · cases htag
  · exact hpanic i text' hout

/-- Without panics, a run that is over has ended well exactly if all bodies have. -/
theorem Replays.outcome_eq_ok_iff (h : r.Replays mode ops heap) (hr : r.Reachable nodes g mode)
    (hops : ops.length = nodes.length) (hover : r.Over) (hnone : ∀ i, .panicked i ∉ r.events) :
    r.outcome = .ok () ↔ ∀ i < ops.length, Returned mode ops heap r.finished i (.ok ()) := by
  rw [hr.outcome_eq_ok_iff hover hnone]
  constructor
  · intro hfail i hi
    have hran := hr.ran_of_over (fun i => ⟨hnone i, hfail i⟩) hover (hops ▸ hi)
    obtain ⟨op, outcome, hop, hout, heq⟩ := h.exists_returned hran.completed rfl
    cases outcome with
    | ok => exact hout
    | error stop => cases Event.outcome_eq_of_completed heq
  · intro hall i cause hi
    obtain ⟨op, outcome, hop, hout, heq⟩ := h.exists_returned hi rfl
    obtain rfl := hout.unique (hall i (List.getElem?_eq_some_iff.1 hop).1) hr.nodup_finished
    cases heq

/-- **A run by dependencies is settled**, whatever its schedule was. -/
theorem settled_of_steps (hg : g.QuotientOf nodes) (hops : ops.length = nodes.length)
    (hsteps : Steps g mode (init g ops heap) r) (hover : r.Over)
    (hpanic : ∀ i text, ¬Returned mode ops heap r.finished i (.error (.panic text))) :
    Settled mode ops heap ⟨r.ops, r.heap, r.trace, r.outcome⟩ r.finished := by
  have hr : r.Reachable nodes g mode := ⟨hg, ops, heap, hops, hsteps⟩
  have hreplays := replays_of_steps hg hops hsteps
  have hnone := hreplays.not_panicked hpanic
  refine settled_of_replay hr.nodup_finished (fun i hi => hops ▸ hr.lt_of_mem_finished hi) ?_ hpanic
    (hreplays.outcome_eq_ok_iff hr hops hover hnone) fun stop hstop => ?_
  · rw [ops_eq_replay_of_over hg hops hsteps hover, hreplays.heap_eq]
  · obtain ⟨i, cause, rfl, hi⟩ := hr.exists_failed_of_outcome hnone hstop
    obtain ⟨op, outcome, hop, hout, heq⟩ := hreplays.exists_returned hi rfl
    exact ⟨i, op, outcome, hop, hout, Event.outcome_eq_of_failed heq⟩

end Run

/-! ## Nets of either kind -/

namespace Net

/-- A run of a net: what it leaves behind, and the operators that it has executed, in the order in
which they have finished. A dag net may follow any schedule; at its end all that was started has
finished (`Run.Reachable.started_iff_of_over`). -/
inductive RunsTo (mode : Mode) (heap : Heap) : Net σ → NetRun σ → List Nat → Prop
  | simple (net : SimpleNet σ) :
      RunsTo mode heap (.simple net) (net.run mode heap)
        (List.range (executedInOrder mode net.ops heap))
  | dag {net : DagNet σ} {e : Run σ} (hsteps : Run.Steps net.graph mode (net.start heap) e)
      (hover : e.Over) :
      RunsTo mode heap (.dag net) ⟨e.ops, e.heap, e.trace, e.outcome⟩ e.finished

/-- What is left behind by running a net is one of these. -/
theorem exists_runsTo_run (net : Net σ) (mode : Mode) (heap : Heap) :
    ∃ order, net.RunsTo mode heap (net.run mode heap) order := by
  cases net with
  | simple net => exact ⟨_, .simple net⟩
  | dag net => exact ⟨_, .dag (Run.steps_drain _ _ _) (Run.over_drain _ _ _)⟩

/-- What becomes of a net by being run: any number of times, each in any mode, on any contents of
the blobs and on any schedule. -/
inductive Later (net : Net σ) : Net σ → Prop
  | new : Later net net
  | run {net' : Net σ} {mode : Mode} {heap : Heap} {result : NetRun σ} {order : List Nat}
      (h : Later net net') (hrun : net'.RunsTo mode heap result order) :
      Later net (net'.withOps result.ops)

theorem Later.exists_simple {net : SimpleNet σ} {net' : Net σ} (h : Later (.simple net) net') :
    ∃ simple, net' = .simple simple := by
  induction h with
  | new => exact ⟨net, rfl⟩
  | run _ _ ih =>
    obtain ⟨simple, rfl⟩ := ih
    exact ⟨_, rfl⟩

theorem Later.exists_dag {net : DagNet σ} {net' : Net σ} (h : Later (.dag net) net') :
    ∃ dag, net' = .dag dag ∧ net.Later dag := by
  induction h with
  | new => exact ⟨net, rfl, .new⟩
  | run _ hrun ih =>
    obtain ⟨dag, rfl, hlater⟩ := ih
    cases hrun with
    | dag hsteps hover => exact ⟨_, rfl, hlater.run hsteps hover⟩

theorem exists_of_map_eq_ok {α : Type} {f : α → Net σ} {built : Outcome α} {net : Net σ}
    (h : built.map f = .ok net) : ∃ a, net = f a := by
  cases built with
  | error stop => cases h
  | ok a => exact ⟨a, (Except.ok.inj h).symm⟩

end Net

/-- **Every call is settled.** Whatever its runs before were, a run of a net in which no body panics
executes each operator at most once, leaves it completed or failed as its body has returned, and
leaves the other operators as they were. It succeeds exactly if all operators were executed and have
completed, and otherwise it ends with the fault of one that has failed. A simple net executes its
operators in order, up to the first that fails. -/
theorem Net.settled {r : Registry σ} {pools : WorkerPools} {kind : NetKind} {s : Store}
    {ws : String} {d : NetDef} {net net' : Net σ}
    (hnet : (r.createNetOf pools kind s ws d).outcome = .ok net) (hlater : net.Later net')
    {mode : Mode} {heap : Heap} {result : NetRun σ} {order : List Nat}
    (hrun : net'.RunsTo mode heap result order)
    (hpanic : ∀ i text, ¬Returned mode net'.ops heap order i (.error (.panic text))) :
    Settled mode net'.ops heap result order ∧
      (kind = .simple → StopsAtFailure mode net'.ops heap order) := by
  cases kind with
  | simple =>
    obtain ⟨simple, rfl⟩ := exists_of_map_eq_ok hnet
    obtain ⟨simple', rfl⟩ := hlater.exists_simple
    cases hrun with
    | simple => exact ⟨settled_runInOrder hpanic, fun _ => stopsAtFailure_runInOrder _ _ _⟩
  | dag =>
    obtain ⟨dag, rfl⟩ := exists_of_map_eq_ok hnet
    obtain ⟨dag', rfl, hlater'⟩ := hlater.exists_dag
    cases hrun with
    | dag hsteps hover =>
      obtain ⟨hg, hops⟩ := DagNet.quotientOf_of_later hnet hlater'
      exact ⟨Run.settled_of_steps hg hops hsteps hover hpanic, fun hkind => by cases hkind⟩

namespace Fork

/-- The small net after a run that has succeeded. -/
def netOnceRun : DagNet Unit := { net with ops := simpleOnceRun.ops }

theorem later_netOnceRun : (Net.dag net).Later (.dag netOnceRun) := by
  have hrun : ((net.start fed).along net.graph .sync (List.replicate 17 0)).map
      (fun e => (e.tasks, e.ops)) = some ([], simpleOnceRun.ops) := rfl
  obtain ⟨e, he, hrun⟩ := Option.map_eq_some_iff.1 hrun
  obtain ⟨hover, hops⟩ := Prod.mk.inj hrun
  have hlater : (Net.dag net).Later (.dag { net with ops := e.ops }) :=
    .run .new (.dag (Run.steps_iff_exists_along.2 ⟨_, he⟩) hover)
  rw [hops] at hlater
  exact hlater

end Fork

/-- After a run that has succeeded the small net is run with nothing to copy. Only the first copy is
tried again, so the others stay completed. -/
theorem fork_settled : ∃ result order,
    (Fork.registry.createNetOf .plentiful .dag {} "" Fork.definition).outcome =
        .ok (.dag Fork.net) ∧
      (Net.dag Fork.net).Later (.dag Fork.netOnceRun) ∧
      (Net.dag Fork.netOnceRun).RunsTo .async {} result order ∧
      (∀ i text, ¬Returned .async Fork.netOnceRun.ops {} order i (.error (.panic text))) ∧
      result.ops.map Operator.state = [.failed, .completed, .completed] ∧
      Settled .async Fork.netOnceRun.ops {} result order ∧
      (NetKind.dag = .simple → StopsAtFailure .async Fork.netOnceRun.ops {} order) := by
  have hrun : ((Fork.netOnceRun.start {}).along Fork.netOnceRun.graph .async [0, 0, 0, 0, 0]).map
      (fun e => (e.tasks, e.ops.map Operator.state)) =
        some ([], [.failed, .completed, .completed]) := by decide
  obtain ⟨e, he, hrun⟩ := Option.map_eq_some_iff.1 hrun
  obtain ⟨hover, hstates⟩ := Prod.mk.inj hrun
  have hrunsTo : (Net.dag Fork.netOnceRun).RunsTo .async {} _ _ :=
    .dag (Run.steps_iff_exists_along.2 ⟨_, he⟩) hover
  have hlocal : ∀ op ∈ Fork.netOnceRun.ops, op.Local :=
    Builtin.local_of_copies (n := 3) rfl (by decide)
  have hpanic : ∀ i text,
      ¬Returned .async Fork.netOnceRun.ops {} e.finished i (.error (.panic text)) := by
    rintro i text ⟨before, after, op, -, hop, hout⟩
    exact (hlocal op (List.mem_of_getElem? hop)).outcome_ne_panic _ _ _ text hout
  exact ⟨_, _, Fork.createNetOf_eq, Fork.later_netOnceRun, hrunsTo, hpanic, hstates,
    Net.settled Fork.createNetOf_eq Fork.later_netOnceRun hrunsTo hpanic⟩

end OpNet
