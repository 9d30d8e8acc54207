import OpNet.Proofs.Net.Lifetime
import OpNet.Proofs.Net.Record
import OpNet.Proofs.Net.Replay

/-!
# Runs with failures

What a failure keeps from happening, and how the run ends.

* `Run.Reachable.not_started_of_reaches` — what depends on an operator that has failed is not
  executed.
* `Run.not_started_after_failed` — after the failure is known, an operator starts only if its task
  had looked before.
* `Run.Reachable.outcome_eq` — a run that is over ends with the fault that was offered for the
  record first.
* `DagNet.failure_contained` — the runs of a net, the later ones as well as the first.
-/

set_option autoImplicit false

namespace OpNet

variable {σ : Type}

namespace Run

/-- The task of an operator has looked for a failure and found none, and the operator has not been
started yet. -/
def Admitted (r : Run σ) (i : Nat) : Prop := ∃ t ∈ r.tasks, ∃ todo, t.phase = .admitted i todo

section Steps

variable {g : ChainGraph} {mode : Mode} {r s : Run σ}

/-- The flag stays up. -/
theorem failed_of_advance (hf : r.failed = true) {k : Nat} (hs : r.advance g mode k = some s) :
    s.failed = true := by
  obtain ⟨⟨c, phase⟩, r', phase?, -, hacts, rfl⟩ := exists_acts_of_advance hs
  change r'.failed = true
  cases hacts with
  | raise => rfl
  | _ => exact hf

/-- While the flag is up no task is admitted. -/
theorem admitted_of_advance (hf : r.failed = true) {k : Nat} (hs : r.advance g mode k = some s)
    {i : Nat} (hi : s.Admitted i) : r.Admitted i := by
  obtain ⟨⟨c, phase⟩, r', phase?, -, hacts, rfl⟩ := exists_acts_of_advance hs
  obtain ⟨u, hu, todo, hup⟩ := hi
  rcases hacts.mem_tasks_settle hu with hu | hphase | ⟨d, rfl⟩
  · exact ⟨u, hu, todo, hup⟩
  · rw [hup] at hphase
    cases hacts with
    | pass hfalse =>
      rw [hf] at hfalse
      cases hfalse
    | _ => cases hphase
  · cases hup

/-- What starts was admitted. -/
theorem started_of_advance {k : Nat} (hs : r.advance g mode k = some s) {i : Nat}
    (hi : .started i ∈ s.events) : .started i ∈ r.events ∨ r.Admitted i := by
  obtain ⟨⟨c, phase⟩, r', phase?, ht, hacts, rfl⟩ := exists_acts_of_advance hs
  change .started i ∈ r'.events at hi
  cases hacts with
  | @start j todo =>
    rcases List.mem_append.1 hi with hi | hi
    · exact .inl hi
    · cases List.mem_singleton.1 hi
      exact .inr ⟨_, List.mem_of_getElem? ht, todo, rfl⟩
  | complete | fail | panic | record | launch =>
    rcases List.mem_append.1 hi with hi | hi
    · exact .inl hi
    · cases List.mem_singleton.1 hi
  | _ => exact .inl hi

/-- **After a failure is known**, an operator starts only if its task had looked before. -/
theorem not_started_after_failed (hf : r.failed = true) (h : Steps g mode r s) {i : Nat}
    (hi : .started i ∈ s.events) : .started i ∈ r.events ∨ r.Admitted i := by
  suffices hall : s.failed = true ∧ (∀ i, s.Admitted i → r.Admitted i) ∧
      ∀ i, .started i ∈ s.events → .started i ∈ r.events ∨ r.Admitted i from hall.2.2 i hi
  clear hi
  induction h with
  | refl => exact ⟨hf, fun _ h => h, fun _ h => .inl h⟩
  | step _ hk ih =>
    obtain ⟨hfailed, hadmitted, hstarted⟩ := ih
    refine ⟨failed_of_advance hfailed hk,
      fun i hi => hadmitted i (admitted_of_advance hfailed hk hi), fun i hi => ?_⟩
    rcases started_of_advance hk hi with hi | hi
    · exact hstarted i hi
    · exact .inr (hadmitted i hi)

end Steps

section Reachable

variable {nodes : List Node} {g : ChainGraph} {mode : Mode} {r s : Run σ} {i j : Nat}
  {cause : Fault}

/-- **What depends on an operator that has failed is not executed.** -/
theorem Reachable.not_started_of_reaches (h : r.Reachable nodes g mode)
    (hi : .failed i cause ∈ r.events) (hij : Reaches nodes i j) : .started j ∉ r.events := by
  intro hj
  have hran := h.ran_of_completed (h.completed_of_reaches hij hj)
  simpa using mem_of_history hran hi rfl

/-- The fault on record stays there. -/
theorem Reachable.firstFault_of_steps (hr : r.Reachable nodes g mode)
    (hs : s.Reachable nodes g mode) (h : Steps g mode r s) (hfault : r.firstFault = some cause) :
    s.firstFault = some cause := by
  obtain ⟨added, hadded⟩ := events_of_steps h
  rw [hr.recorded.firstFault_eq] at hfault
  rw [hs.recorded.firstFault_eq, offers, ← hadded, List.filterMap_append, List.head?_append,
    show (r.events.filterMap Event.offer?).head? = _ from hfault]
  rfl

/-- When the run is over, the fault of an operator that has failed was offered for the record. -/
theorem Reachable.recorded_of_over (h : r.Reachable nodes g mode) (hover : r.Over)
    (hi : .failed i cause ∈ r.events) : .recorded i cause ∈ r.events := by
  rcases h.account_of_over hover i with hhist | hhist | hhist | ⟨cause', hhist⟩
  · cases mem_of_history hhist hi rfl
  · simpa using mem_of_history hhist hi rfl
  · simpa using mem_of_history hhist hi rfl
  · obtain rfl : cause = cause' := by simpa using mem_of_history hhist hi rfl
    exact mem_events_of_history hhist (by simp)

/-- A fault that was offered for the record is that of an operator that has failed. -/
theorem Reachable.failed_of_recorded (h : r.Reachable nodes g mode)
    (hi : .recorded i cause ∈ r.events) : .failed i cause ∈ r.events := by
  rcases h.account i with hhist | hhist | hhist | ⟨cause', hhist⟩ | hhist | ⟨cause', hhist⟩
  · cases mem_of_history hhist hi rfl
  · simpa using mem_of_history hhist hi rfl
  · simpa using mem_of_history hhist hi rfl
  · simpa using mem_of_history hhist hi rfl
  · simpa using mem_of_history hhist hi rfl
  · obtain rfl : cause = cause' := by simpa using mem_of_history hhist hi rfl
    exact mem_events_of_history hhist (by simp)

/-! ## How a run ends -/

/-- Without panics, a run that is over ends with the fault that was offered first. -/
theorem Reachable.outcome_eq (h : r.Reachable nodes g mode) (hpanic : ∀ i, .panicked i ∉ r.events) :
    r.outcome = match r.offers.head? with
      | some cause => .error (.fault cause)
      | none => .ok () := by
  have hnone : r.firstPanic = none := by
    by_contra hne
    obtain ⟨i, hi⟩ := h.recorded.exists_panicked hne
    exact hpanic i hi
  rw [outcome, hnone, h.recorded.firstFault_eq]
  cases r.offers.head? <;> rfl

/-- The first fault that was offered, and its place in the account. -/
theorem exists_of_head?_offers (h : r.offers.head? = some cause) :
    ∃ before i after, r.events = before ++ .recorded i cause :: after ∧
      ∀ j cause', .recorded j cause' ∉ before := by
  obtain ⟨rest, hrest⟩ : ∃ rest, r.offers = cause :: rest := List.head?_eq_some_iff.1 h
  obtain ⟨before, e, after, hevents, hbefore, he, -⟩ := List.filterMap_eq_cons_iff.1 hrest
  cases e with
  | recorded i cause' =>
    obtain rfl := Option.some.inj he
    exact ⟨before, i, after, hevents, fun j cause'' hj => by cases hbefore _ hj⟩
  | _ => cases he

/-- A run that does not end well ends with the fault of an operator that has failed. -/
theorem Reachable.exists_failed_of_outcome (h : r.Reachable nodes g mode)
    (hpanic : ∀ i, .panicked i ∉ r.events) {stop : Stop} (hstop : r.outcome = .error stop) :
    ∃ i cause, stop = .fault cause ∧ .failed i cause ∈ r.events := by
  rw [h.outcome_eq hpanic] at hstop
  cases hhead : r.offers.head? with
  | none => simp [hhead] at hstop
  | some cause =>
    obtain ⟨before, i, after, hevents, -⟩ := exists_of_head?_offers hhead
    refine ⟨i, cause, ?_, h.failed_of_recorded (by simp [hevents])⟩
    simpa [hhead, eq_comm] using hstop

/-- A run that is over ends well exactly if nothing has failed. -/
theorem Reachable.outcome_eq_ok_iff (h : r.Reachable nodes g mode) (hover : r.Over)
    (hpanic : ∀ i, .panicked i ∉ r.events) :
    r.outcome = .ok () ↔ ∀ i cause, .failed i cause ∉ r.events := by
  rw [h.outcome_eq hpanic]
  constructor
  · intro hok i cause hi
    have hmem : cause ∈ r.offers :=
      List.mem_filterMap.2 ⟨.recorded i cause, h.recorded_of_over hover hi, rfl⟩
    cases hhead : r.offers.head? with
    | some cause' => simp [hhead] at hok
    | none =>
      rw [List.head?_eq_none_iff.1 hhead] at hmem
      cases hmem
  · intro hnone
    cases hhead : r.offers.head? with
    | none => rfl
    | some cause =>
      obtain ⟨before, i, after, hevents, -⟩ := exists_of_head?_offers hhead
      exact absurd (h.failed_of_recorded (by simp [hevents])) (hnone i cause)

end Reachable

/-! ## The runs of a net -/

/-- What a run of a net is like in any of its states when no operator panics, whichever operators
fail and whenever they do. It has begun with the given operators and contents. -/
structure Contained (d : NetDef) (g : ChainGraph) (mode : Mode) (ops : List (Operator σ))
    (heap : Heap) (r : Run σ) : Prop where
  /-- What depends on an operator that has failed is not executed. -/
  not_started_of_reaches : ∀ i j cause, .failed i cause ∈ r.events →
    Reaches (dependencies d.ops) i j → .started j ∉ r.events
  /-- What has started since a failure was raised or recorded was admitted before. -/
  started_or_admitted : ∀ s, Steps g mode (init g ops heap) s → Steps g mode s r →
    s.failed = true ∨ s.offers ≠ [] →
      ∀ i, .started i ∈ r.events → .started i ∈ s.events ∨ s.Admitted i
  started_le_one : ∀ i, r.events.count (.started i) ≤ 1
  /-- There is no endless schedule. -/
  length_le : ∀ ks s, r.along g mode ks = some s → ks.length ≤ weight g r
  /-- A schedule can go on as long as a chain is not finished. -/
  over_iff : r.Over ↔ ∀ k, r.advance g mode k = none
  outcome_eq_ok_iff : r.Over → (r.outcome = .ok () ↔ ∀ i cause, .failed i cause ∉ r.events)
  /-- The run ends with the fault of an operator that has failed, the one that was recorded first.
  -/
  outcome_eq_first : r.Over → (∃ i cause, .failed i cause ∈ r.events) →
    ∃ before i cause after, r.events = before ++ .recorded i cause :: after ∧
      (∀ j cause', .recorded j cause' ∉ before) ∧ .failed i cause ∈ r.events ∧
      r.outcome = .error (.fault cause)
  /-- The fault on record stays there. -/
  firstFault_of_steps : ∀ s, Steps g mode (init g ops heap) s → Steps g mode s r →
    ∀ cause, s.firstFault = some cause → r.firstFault = some cause
  /-- The fault of an operator is the one that its execution has ended with. -/
  outcome_of_failed : ∀ before i cause after, r.events = before ++ .failed i cause :: after →
    ∃ op, ops[i]? = some op ∧
      (op.execute mode (replay mode ops heap (before.filterMap Event.finished?)).2).outcome =
        .error (.fault cause)

theorem contained_of_steps {d : NetDef} {g : ChainGraph} {mode : Mode} {ops : List (Operator σ)}
    {heap : Heap} {r : Run σ} (hg : g.QuotientOf (dependencies d.ops))
    (hops : ops.length = (dependencies d.ops).length) (hsteps : Steps g mode (init g ops heap) r)
    (hpanic : ∀ i, .panicked i ∉ r.events) : r.Contained d g mode ops heap := by
  have hreach : ∀ {s}, Steps g mode (init g ops heap) s → s.Reachable (dependencies d.ops) g mode :=
    fun hs => ⟨hg, ops, heap, hops, hs⟩
  have h := hreach hsteps
  refine ⟨fun i j cause hi hij => h.not_started_of_reaches hi hij, fun s hs hsr hknown i hi => ?_,
    fun i => h.count_le_one rfl, fun ks s hs => ?_, over_iff_advance_eq_none g mode,
    fun hover => h.outcome_eq_ok_iff hover hpanic, fun hover hfail => ?_,
    fun s hs hsr cause => (hreach hs).firstFault_of_steps h hsr,
    fun before i cause after hevents => ?_⟩
  · exact not_started_after_failed (hknown.elim id (hreach hs).recorded.failed_of_offers) hsr hi
  · exact Nat.le_trans (Nat.le_add_right _ _) (length_add_weight_le hs)
  · obtain ⟨i, cause, hi⟩ := hfail
    have hoffered : cause ∈ r.offers :=
      List.mem_filterMap.2 ⟨.recorded i cause, h.recorded_of_over hover hi, rfl⟩
    have hhead : r.offers.head? = some (r.offers.head (List.ne_nil_of_mem hoffered)) :=
      List.head?_eq_some_head _
    obtain ⟨before, j, after, hevents, hfirst⟩ := exists_of_head?_offers hhead
    refine ⟨before, j, _, after, hevents, hfirst, h.failed_of_recorded (by simp [hevents]), ?_⟩
    rw [h.outcome_eq hpanic, hhead]
  · obtain ⟨op, hop, heq⟩ :=
      (replays_of_steps hg hops hsteps).finish_eq before after _ i hevents rfl
    exact ⟨op, hop, Event.outcome_eq_of_failed heq⟩

end Run

/-- **Failures are contained.** Whichever operators fail in a run of a dag net, and whenever: what
depends on them is not executed, nothing starts that had not looked before the failure was known,
and the run ends with the fault that was recorded first. That holds for the runs of a net that has
been run before as well. -/
theorem DagNet.failure_contained {r : Registry σ} {pools : WorkerPools} {s : Store} {ws : String}
    {d : NetDef} {net net' : DagNet σ}
    (hnet : (r.createNetOf pools .dag s ws d).outcome = .ok (.dag net)) (hlater : net.Later net')
    {mode : Mode} {heap : Heap} {e : Run σ}
    (hsteps : Run.Steps net'.graph mode (net'.start heap) e)
    (hpanic : ∀ i, .panicked i ∉ e.events) : e.Contained d net'.graph mode net'.ops heap := by
  obtain ⟨hg, hops⟩ := quotientOf_of_later hnet hlater
  exact Run.contained_of_steps hg hops hsteps hpanic

/-- There is nothing to copy, so the first copy fails and those of it are never made. -/
theorem fork_failure_contained : ∃ e,
    (Fork.registry.createNetOf .plentiful .dag {} "" Fork.definition).outcome =
        .ok (.dag Fork.net) ∧
      Fork.net.Later Fork.net ∧ Run.Steps Fork.net.graph .sync (Fork.net.start {}) e ∧
      (∀ i, .panicked i ∉ e.events) ∧ e.Over ∧ (∃ i cause, .failed i cause ∈ e.events) ∧
      e.Contained Fork.definition Fork.net.graph .sync Fork.net.ops {} := by
  have hrun : ((Fork.net.start {}).along Fork.net.graph .sync [0, 0, 0, 0, 0]).map
      (fun e => (e.tasks, e.events)) = some ([], [.spawned 0, .started 0,
        .failed 0 (.execution "Copy" "" "input blob in is empty"),
        .recorded 0 (.execution "Copy" "" "input blob in is empty")]) := by decide
  obtain ⟨e, he, hrun⟩ := Option.map_eq_some_iff.1 hrun
  obtain ⟨hover, hevents⟩ := Prod.mk.inj hrun
  have hsteps := Run.steps_iff_exists_along.2 ⟨_, he⟩
  have hpanic : ∀ i, .panicked i ∉ e.events := fun i => by simp [hevents]
  exact ⟨e, Fork.createNetOf_eq, .new, hsteps, hpanic, hover,
    ⟨0, .execution "Copy" "" "input blob in is empty", by simp [hevents]⟩,
    DagNet.failure_contained Fork.createNetOf_eq .new hsteps hpanic⟩

end OpNet
