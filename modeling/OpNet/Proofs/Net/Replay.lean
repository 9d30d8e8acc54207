import OpNet.Proofs.Net.Order

/-!
# A run as a sequence of executions

An operator in flight has done nothing yet: its work is done by the step that finishes it. So a run
has the same effect as executing its operators one after another, in the order in which they have
finished.

* `replay` — operators executed one after another, in a given order.
* `Run.finished` — the operators that have finished, in order, each of them once
  (`Run.Reachable.nodup_finished`).
* `Run.Replays` — contents and operators are those of the replay, and every operator has ended the
  way its execution ended; `Run.replays_of_steps` says so of every state of a run.
-/

set_option autoImplicit false

namespace OpNet

variable {σ : Type}

/-! ## Executions in a given order -/

/-- Executes the operator at a position, whatever comes of it. -/
def executeAt (mode : Mode) (s : List (Operator σ) × Heap) (i : Nat) : List (Operator σ) × Heap :=
  match s.1[i]? with
  | none => s
  | some op => (s.1.set i (op.execute mode s.2).op, (op.execute mode s.2).heap)

/-- Executes the operators at the given positions one after another. -/
def replay (mode : Mode) (ops : List (Operator σ)) (heap : Heap) (order : List Nat) :
    List (Operator σ) × Heap :=
  order.foldl (executeAt mode) (ops, heap)

section Replay

variable {mode : Mode} {ops : List (Operator σ)} {heap : Heap} {order : List Nat} {i j : Nat}

theorem executeAt_eq (mode : Mode) {s : List (Operator σ) × Heap} {op : Operator σ}
    (h : s.1[i]? = some op) :
    executeAt mode s i = (s.1.set i (op.execute mode s.2).op, (op.execute mode s.2).heap) := by
  rw [executeAt, h]

theorem executeAt_of_ne (mode : Mode) (s : List (Operator σ) × Heap) (h : j ≠ i) :
    (executeAt mode s i).1[j]? = s.1[j]? := by
  rw [executeAt]
  split
  · rfl
  · exact List.getElem?_set_ne h.symm

theorem replay_append (front back : List Nat) : replay mode ops heap (front ++ back) =
    replay mode (replay mode ops heap front).1 (replay mode ops heap front).2 back :=
  List.foldl_append

theorem replay_concat (mode : Mode) (ops : List (Operator σ)) (heap : Heap) (order : List Nat)
    (i : Nat) :
    replay mode ops heap (order ++ [i]) = executeAt mode (replay mode ops heap order) i :=
  List.foldl_append

/-- An operator that is not executed stays as it is. -/
theorem replay_of_not_mem (h : i ∉ order) : (replay mode ops heap order).1[i]? = ops[i]? := by
  induction order using List.reverseRecOn with
  | nil => rfl
  | append_singleton order j ih =>
    rw [List.mem_append, List.mem_singleton, not_or] at h
    rw [replay_concat, executeAt_of_ne _ _ h.2, ih h.1]

theorem length_replay : (replay mode ops heap order).1.length = ops.length := by
  induction order using List.reverseRecOn with
  | nil => rfl
  | append_singleton order i ih =>
    rw [replay_concat, executeAt]
    split
    · exact ih
    · rw [List.length_set, ih]

/-- An operator that is executed for the first time is as it was. -/
theorem replay_concat_of_not_mem {op : Operator σ} (hop : ops[i]? = some op) (hnew : i ∉ order) :
    replay mode ops heap (order ++ [i]) =
      ((replay mode ops heap order).1.set i (op.execute mode (replay mode ops heap order).2).op,
        (op.execute mode (replay mode ops heap order).2).heap) := by
  rw [replay_concat, executeAt_eq mode ((replay_of_not_mem hnew).trans hop)]

/-- An operator that is executed once is left as that execution leaves it. -/
theorem getElem?_replay_of_nodup {before after : List Nat} {op : Operator σ}
    (hop : ops[i]? = some op) (hnodup : (before ++ i :: after).Nodup) :
    (replay mode ops heap (before ++ i :: after)).1[i]? =
      some (op.execute mode (replay mode ops heap before).2).op := by
  obtain ⟨hi, -⟩ := List.nodup_cons.1 (List.nodup_middle.1 hnodup)
  rw [List.mem_append, not_or] at hi
  have hlt := (List.getElem?_eq_some_iff.1 hop).1
  rw [List.append_cons, replay_append, replay_of_not_mem hi.2, replay_concat_of_not_mem hop hi.1,
    List.getElem?_set_self (by rwa [length_replay])]

end Replay

/-! ## The operators that have finished -/

/-- The operator that an event finishes. -/
def Event.finished? : Event → Option Nat
  | .completed i | .failed i _ | .panicked i => some i
  | .spawned _ | .started _ | .recorded _ _ => none

/-- The event by which an operator finishes with an outcome. -/
def Event.finishOf (i : Nat) : Outcome Unit → Event
  | .ok () => .completed i
  | .error (.fault cause) => .failed i cause
  | .error (.panic _) => .panicked i

@[simp] theorem Event.finished?_finishOf (i : Nat) (outcome : Outcome Unit) :
    (Event.finishOf i outcome).finished? = some i := by
  rcases outcome with (_ | _) | _ <;> rfl

theorem Event.outcome_eq_of_completed {i j : Nat} {outcome : Outcome Unit}
    (h : .completed i = Event.finishOf j outcome) : outcome = .ok () := by
  rcases outcome with (_ | _) | _
  · cases h
  · cases h
  · rfl

theorem Event.outcome_eq_of_failed {i j : Nat} {cause : Fault} {outcome : Outcome Unit}
    (h : .failed i cause = Event.finishOf j outcome) : outcome = .error (.fault cause) := by
  rcases outcome with (_ | _) | _
  · cases h
    rfl
  · cases h
  · cases h

theorem Event.outcome_eq_of_panicked {i j : Nat} {outcome : Outcome Unit}
    (h : .panicked i = Event.finishOf j outcome) : ∃ text, outcome = .error (.panic text) := by
  rcases outcome with (_ | text) | _
  · cases h
  · exact ⟨text, rfl⟩
  · cases h

theorem Event.op?_of_finished? {e : Event} {i : Nat} (h : e.finished? = some i) :
    e.op? = some i := by
  cases e <;> simp_all [finished?, op?]

namespace Run

/-- The operators that have finished, in the order in which they did. -/
def finished (r : Run σ) : List Nat := r.events.filterMap Event.finished?

section Finished

variable {r r' : Run σ} {e : Event} {i : Nat}

theorem finished_append {added : List Event} (h : r'.events = r.events ++ added) :
    r'.finished = r.finished ++ added.filterMap Event.finished? := by
  rw [finished, finished, h, List.filterMap_append]

/-- What an operator has finished with is in its account. -/
theorem mem_finished : i ∈ r.finished ↔ ∃ e ∈ r.history i, e.finished? = some i := by
  rw [finished, List.mem_filterMap]
  constructor
  · rintro ⟨e, he, hfin⟩
    exact ⟨e, mem_history.2 ⟨he, Event.op?_of_finished? hfin⟩, hfin⟩
  · rintro ⟨e, he, hfin⟩
    exact ⟨e, (mem_history.1 he).1, hfin⟩

theorem not_mem_finished_of_history (h : r.history i = [.started i]) : i ∉ r.finished := by
  rw [mem_finished, h]
  simp [Event.finished?]

theorem mem_finished_of_ran (h : r.Ran i) : i ∈ r.finished :=
  mem_finished.2 ⟨.completed i, by rw [show r.history i = _ from h]; simp, rfl⟩

theorem finished_init (g : ChainGraph) (ops : List (Operator σ)) (heap : Heap) :
    (init g ops heap).finished = [] := by
  simp [finished, init, Event.finished?]

end Finished

section Reachable

variable {nodes : List Node} {g : ChainGraph} {mode : Mode} {r s : Run σ} {i : Nat}

/-- What has just finished was in flight. -/
theorem Reachable.history_of_finished (hs : s.Reachable nodes g mode) {e : Event} {i : Nat}
    (hevents : s.events = r.events ++ [e]) (hfin : e.finished? = some i) :
    r.history i = [.started i] := by
  have hhist := history_note_self hevents (Event.op?_of_finished? hfin)
  -- the account ends with `e`, and what comes before `e` is what there was
  have hlast : ∀ before {last}, s.history i = before ++ [last] →
      e = last ∧ r.history i = before := by
    intro before last h
    obtain ⟨hr, he⟩ := List.append_inj' (hhist.symm.trans h) rfl
    exact ⟨List.singleton_injective he, hr⟩
  rcases hs.account i with h | h | h | ⟨cause, h⟩ | h | ⟨cause, h⟩
  · rw [show s.history i = [] from h] at hhist
    simp at hhist
  · obtain ⟨rfl, -⟩ := hlast [] h
    cases hfin
  · exact (hlast [.started i] h).2
  · exact (hlast [.started i] h).2
  · exact (hlast [.started i] h).2
  · obtain ⟨rfl, -⟩ := hlast [.started i, .failed i cause] h
    cases hfin

/-- A step finishes at most one operator, and that was in flight. -/
theorem Reachable.finished_advance (hr : r.Reachable nodes g mode) {k : Nat}
    (hk : r.advance g mode k = some s) : s.finished = r.finished ∨
      ∃ i, s.finished = r.finished ++ [i] ∧ r.history i = [.started i] := by
  obtain ⟨added, hevents, hone⟩ := events_advance hk
  rw [finished_append hevents]
  cases added with
  | nil => exact .inl (List.append_nil _)
  | cons e rest =>
    obtain rfl : rest = [] := List.length_eq_zero_iff.1 (by simpa using hone)
    cases hfin : e.finished? with
    | none => exact .inl (by simp [hfin])
    | some i => exact .inr ⟨i, by simp [hfin], (hr.advance hk).history_of_finished hevents hfin⟩

theorem Reachable.lt_of_mem_finished (h : r.Reachable nodes g mode) (hi : i ∈ r.finished) :
    i < nodes.length := by
  obtain ⟨e, he, hfin⟩ := List.mem_filterMap.1 hi
  exact h.lt_of_mem_events he (Event.op?_of_finished? hfin)

/-- No operator finishes twice. -/
theorem Reachable.nodup_finished (h : r.Reachable nodes g mode) : r.finished.Nodup := by
  obtain ⟨hg, ops, heap, hops, hsteps⟩ := h
  induction hsteps with
  | refl => exact finished_init g ops heap ▸ List.nodup_nil
  | step hsteps hk ih =>
    have hr : Reachable nodes g mode _ := ⟨hg, ops, heap, hops, hsteps⟩
    rcases hr.finished_advance hk with hsame | ⟨i, hgrow, hhist⟩
    · rwa [hsame]
    · rw [hgrow, ← List.concat_eq_append]
      exact ih.concat (not_mem_finished_of_history hhist)

/-- When the run is over, the operators that were started have finished. -/
theorem Reachable.started_iff_of_over (h : r.Reachable nodes g mode) (hover : r.Over) :
    .started i ∈ r.events ↔ i ∈ r.finished := by
  constructor
  · intro hi
    rcases h.account_of_over hover i with hhist | hhist | hhist | ⟨cause, hhist⟩
    · exact absurd hhist (not_fresh_of_started hi)
    · exact mem_finished_of_ran hhist
    · exact mem_finished.2 ⟨.panicked i, by rw [hhist]; simp, rfl⟩
    · exact mem_finished.2 ⟨.failed i cause, by rw [hhist]; simp, rfl⟩
  · intro hi
    obtain ⟨e, he, hfin⟩ := List.mem_filterMap.1 hi
    exact h.started_of_mem he (Event.op?_of_finished? hfin)

end Reachable

/-! ## A run is a replay -/

/-- What a run has done to contents and operators is what their executions do, one after another in
the order in which they have finished, save that operators in flight are marked as such. -/
structure Replays (mode : Mode) (ops : List (Operator σ)) (heap : Heap) (r : Run σ) : Prop where
  heap_eq : r.heap = (replay mode ops heap r.finished).2
  ops_eq : ∀ i, r.ops[i]? =
    if r.history i = [.started i] then ((replay mode ops heap r.finished).1[i]?).map Operator.start
    else (replay mode ops heap r.finished).1[i]?
  /-- An operator has ended the way its execution ended. -/
  finish_eq : ∀ before after e i, r.events = before ++ e :: after → e.finished? = some i →
    ∃ op, ops[i]? = some op ∧ e = .finishOf i
      (op.execute mode (replay mode ops heap (before.filterMap Event.finished?)).2).outcome

section Replays

variable {nodes : List Node} {g : ChainGraph} {mode : Mode} {ops : List (Operator σ)} {heap : Heap}
  {r r' s : Run σ}

theorem replays_init (g : ChainGraph) (mode : Mode) (ops : List (Operator σ)) (heap : Heap) :
    (init g ops heap).Replays mode ops heap := by
  have hfinished := finished_init g ops heap
  refine ⟨by rw [hfinished]; rfl, fun i => ?_, fun before after e i hevents hfin => ?_⟩
  · rw [history_init, if_neg (by simp), hfinished]
    rfl
  · have hmem : e ∈ g.roots.map Event.spawned := by
      rw [show g.roots.map Event.spawned = before ++ e :: after from hevents]
      simp
    obtain ⟨c, -, rfl⟩ := List.mem_map.1 hmem
    cases hfin

/-- Events that finish nothing. -/
theorem Replays.note (h : r.Replays mode ops heap) (added : List Event) (hops : r'.ops = r.ops)
    (hheap : r'.heap = r.heap) (hevents : r'.events = r.events ++ added)
    (hone : added.length ≤ 1) (hadded : ∀ e ∈ added, e.finished? = none)
    (hstarted : ∀ i, r'.history i = [.started i] ↔ r.history i = [.started i]) :
    r'.Replays mode ops heap := by
  have hfinished : r'.finished = r.finished := by
    rw [finished_append hevents, List.filterMap_eq_nil_iff.2 hadded, List.append_nil]
  refine ⟨by rw [hheap, hfinished, h.heap_eq], fun i => ?_, fun before after e i heq hfin => ?_⟩
  · rw [hops, hfinished, h.ops_eq i]
    simp only [hstarted i]
  · rw [hevents] at heq
    rcases split_append_of_length_le_one heq hone with ⟨after', hr⟩ | ⟨-, rfl⟩
    · exact h.finish_eq before after' e i hr hfin
    · rw [hadded e (List.mem_singleton_self e)] at hfin
      cases hfin

/-- An operator is started. -/
theorem Replays.start (h : r.Replays mode ops heap) {i : Nat} (hi : r.Fresh i) :
    (r.startOp i).Replays mode ops heap := by
  have hevents : (r.startOp i).events = r.events ++ [.started i] := rfl
  have hfinished : (r.startOp i).finished = r.finished := by
    rw [finished_append hevents]
    exact List.append_nil _
  refine ⟨by rw [hfinished]; exact h.heap_eq, fun j => ?_, fun before after e j heq hfin => ?_⟩
  · change (r.ops.modify i Operator.start)[j]? = _
    rw [hfinished, List.getElem?_modify, h.ops_eq j]
    by_cases hij : i = j
    · subst hij
      rw [if_neg (by simp [show r.history i = [] from hi]),
        if_pos (by rw [history_note_self hevents rfl, show r.history i = [] from hi]; rfl)]
      simp
    · rw [history_note_of_ne hevents rfl (Ne.symm hij)]
      simp [hij]
  · rw [hevents] at heq
    rcases split_append_of_length_le_one heq (Nat.le_refl 1) with ⟨after', hr⟩ | ⟨-, he⟩
    · exact h.finish_eq before after' e j hr hfin
    · obtain rfl := List.singleton_injective he
      cases hfin

/-- An operator in flight finishes. -/
theorem Replays.finish (h : r.Replays mode ops heap) {i : Nat} {op : Operator σ}
    (hi : r.history i = [.started i]) (hop : r.ops[i]? = some op)
    (hops : r'.ops = r.ops.set i (op.finish mode r.heap).op)
    (hheap : r'.heap = (op.finish mode r.heap).heap)
    (hevents : r'.events = r.events ++ [.finishOf i (op.finish mode r.heap).outcome]) :
    r'.Replays mode ops heap := by
  have hfree := not_mem_finished_of_history hi
  have hop' := h.ops_eq i
  rw [if_pos hi, replay_of_not_mem hfree, hop, eq_comm, Option.map_eq_some_iff] at hop'
  obtain ⟨op₀, hop₀, rfl⟩ := hop'
  have hat : (replay mode ops heap r.finished).1[i]? = some op₀ :=
    (replay_of_not_mem hfree).trans hop₀
  have hexec : op₀.start.finish mode r.heap =
      op₀.execute mode (replay mode ops heap r.finished).2 := by
    rw [h.heap_eq, Operator.execute]
  rw [hexec] at hops hheap hevents
  have hfinished : r'.finished = r.finished ++ [i] := by
    rw [finished_append hevents]
    simp
  have hreplay := executeAt_eq mode hat
  have hhist := history_note_self (i := i) hevents (Event.op?_of_finished? (by simp))
  refine ⟨?_, fun j => ?_, fun before after e j heq hfin => ?_⟩
  · rw [hheap, hfinished, replay_concat, hreplay]
  · rw [hops, hfinished, replay_concat]
    by_cases hij : i = j
    · subst hij
      have hlt : i < r.ops.length := (List.getElem?_eq_some_iff.1 hop).1
      have hlt' : i < (replay mode ops heap r.finished).1.length :=
        (List.getElem?_eq_some_iff.1 hat).1
      rw [hhist, hi, hreplay]
      simp [hlt, hlt']
    · rw [List.getElem?_set_ne hij, executeAt_of_ne _ _ (Ne.symm hij), h.ops_eq j,
        history_note_of_ne hevents (Event.op?_of_finished? (by simp)) (Ne.symm hij)]
  · rw [hevents] at heq
    rcases split_append_of_length_le_one heq (Nat.le_refl 1) with ⟨after', hr⟩ | ⟨rfl, he⟩
    · exact h.finish_eq before after' e j hr hfin
    · obtain rfl := List.singleton_injective he
      obtain rfl : i = j := by simpa using hfin
      exact ⟨op₀, hop₀, rfl⟩

/-- **A step executes at most one operator.** -/
theorem replays_advance (h : r.Replays mode ops heap) (hr : r.Reachable nodes g mode) {k : Nat}
    (hs : r.advance g mode k = some s) : s.Replays mode ops heap := by
  obtain ⟨⟨c, phase⟩, r', phase?, ht, hacts, rfl⟩ := exists_acts_of_advance hs
  obtain ⟨stage, hledger⟩ := hr.ledger
  have hstands := hledger.placed.standsAt_of_mem (List.mem_of_getElem? ht)
  suffices hr' : r'.Replays mode ops heap from ⟨hr'.heap_eq, hr'.ops_eq, hr'.finish_eq⟩
  cases hacts with
  | rest | skip | pass | finish => exact h
  | astray | raise | tell => exact ⟨h.heap_eq, h.ops_eq, h.finish_eq⟩
  | start => exact h.start hstands.fresh
  | complete hop hout | fail hop hout | panic hop hout =>
    exact h.finish hstands.2 hop rfl rfl (by rw [hout]; rfl)
  | @record i cause =>
    obtain ⟨todo, -, hfail⟩ := hstands
    refine h.note [.recorded i cause] rfl rfl rfl (Nat.le_refl 1) (by simp [Event.finished?])
      fun j => ?_
    by_cases hij : j = i
    · subst hij
      rw [history_note_self (r := r) rfl rfl, show r.history j = _ from hfail]
      simp
    · rw [history_note_of_ne (r := r) rfl rfl hij]
  | @launch d ds =>
    have hevents : ((r.lower d).spawn g d).events = r.events ++ [.spawned d] := rfl
    refine h.note [.spawned d] rfl rfl hevents (Nat.le_refl 1) (by simp [Event.finished?])
      fun j => ?_
    rw [history_append hevents]
    simp [Event.op?]

/-- **A run is the replay of its executions**, in every state. -/
theorem replays_of_steps (hg : g.QuotientOf nodes) (hops : ops.length = nodes.length)
    (h : Steps g mode (init g ops heap) r) : r.Replays mode ops heap := by
  induction h with
  | refl => exact replays_init g mode ops heap
  | step hsteps hk ih => exact replays_advance ih ⟨hg, ops, heap, hops, hsteps⟩ hk

/-- When a run is over, no operator is marked as in flight. -/
theorem ops_eq_replay_of_over (hg : g.QuotientOf nodes) (hops : ops.length = nodes.length)
    (h : Steps g mode (init g ops heap) r) (hover : r.Over) :
    r.ops = (replay mode ops heap r.finished).1 := by
  have hr : r.Reachable nodes g mode := ⟨hg, ops, heap, hops, h⟩
  refine List.ext_getElem? fun i => ?_
  rw [(replays_of_steps hg hops h).ops_eq i, if_neg]
  intro hhist
  rcases hr.account_of_over hover i with h | h | h | ⟨cause, h⟩
  · simp [show r.history i = _ from h] at hhist
  · simp [show r.history i = _ from h] at hhist
  · simp [h] at hhist
  · simp [h] at hhist

end Replays

end Run
end OpNet
