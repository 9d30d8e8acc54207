import OpNet.Proofs.Net.Commutation
import OpNet.Proofs.Net.Completion
import OpNet.Proofs.Net.Failure

/-!
# Dag nets do what simple nets do

If its operators are local, a dag net cannot be told from a simple net by what it leaves behind. A
run of the simple net executes the operators in the order of the definition, a run of the dag net in
a causal order: the operators that clash are in conflict, so the graph orders them.

* `executedInOrder`, `replay_range_executedInOrder` — a run of a simple net as executions in the
  order of the list, up to the first failure; `runInOrder_outcome_eq_ok_iff` — when there is none.
* `Run.causal_of_steps` — the operators of a dag net finish in a causal order, and
  `Run.exists_finishOf_of_steps` — so each ends as it does in the order of the list.
* `Run.outcome_eq_ok_iff_of_steps`, `Run.eq_replay_of_steps` — so does the run, and it leaves the
  same behind.
-/

set_option autoImplicit false

namespace OpNet

variable {σ : Type}

/-! ## Runs in order -/

section InOrder

variable {mode : Mode}

theorem foldl_executeAt_map_succ (op : Operator σ) (ops : List (Operator σ)) (heap : Heap)
    (order : List Nat) :
    (order.map Nat.succ).foldl (executeAt mode) (op :: ops, heap) =
      (op :: (replay mode ops heap order).1, (replay mode ops heap order).2) := by
  induction order using List.reverseRecOn with
  | nil => rfl
  | append_singleton order i ih =>
    rw [List.map_append, List.foldl_append, ih, replay_concat]
    simp only [List.map_cons, List.map_nil, List.foldl_cons, List.foldl_nil, executeAt,
      Nat.succ_eq_add_one, List.getElem?_cons_succ]
    cases (replay mode ops heap order).1[i]? <;> rfl

/-- Executions in the order of a list: the first operator, then the others. -/
theorem replay_cons_range_succ (op : Operator σ) (ops : List (Operator σ)) (heap : Heap) (k : Nat) :
    replay mode (op :: ops) heap (List.range (k + 1)) =
      ((op.execute mode heap).op :: (replay mode ops (op.execute mode heap).heap (List.range k)).1,
        (replay mode ops (op.execute mode heap).heap (List.range k)).2) := by
  rw [List.range_succ_eq_map, replay, List.foldl_cons]
  exact foldl_executeAt_map_succ _ ops _ _

/-- The first operators, executed one after another, succeed. -/
def SucceedUpTo (mode : Mode) (ops : List (Operator σ)) (heap : Heap) (k : Nat) : Prop :=
  ∀ i < k, ∀ op, ops[i]? = some op →
    (op.execute mode (replay mode ops heap (List.range i)).2).outcome = .ok ()

theorem succeedUpTo_zero (mode : Mode) (ops : List (Operator σ)) (heap : Heap) :
    SucceedUpTo mode ops heap 0 := by
  intro i hi
  exact absurd hi (Nat.not_lt_zero i)

theorem succeedUpTo_cons_succ {op : Operator σ} {ops : List (Operator σ)} {heap : Heap} {k : Nat} :
    SucceedUpTo mode (op :: ops) heap (k + 1) ↔ (op.execute mode heap).outcome = .ok () ∧
      SucceedUpTo mode ops (op.execute mode heap).heap k := by
  constructor
  · intro h
    refine ⟨h 0 (Nat.succ_pos k) op rfl, fun i hi op' hop' => ?_⟩
    have hnext := h (i + 1) (Nat.succ_lt_succ hi) op' hop'
    rwa [replay_cons_range_succ] at hnext
  · rintro ⟨hfirst, hrest⟩ i hi op' hop'
    cases i with
    | zero =>
      obtain rfl := Option.some.inj hop'
      exact hfirst
    | succ i =>
      rw [replay_cons_range_succ]
      exact hrest i (Nat.lt_of_succ_lt_succ hi) op' hop'

/-- How many operators a run in order executes: those up to the first that does not succeed. -/
def executedInOrder (mode : Mode) : List (Operator σ) → Heap → Nat
  | [], _ => 0
  | op :: ops, heap =>
    match (op.execute mode heap).outcome with
    | .error _ => 1
    | .ok () => executedInOrder mode ops (op.execute mode heap).heap + 1

theorem executedInOrder_le (mode : Mode) (ops : List (Operator σ)) (heap : Heap) :
    executedInOrder mode ops heap ≤ ops.length := by
  induction ops generalizing heap with
  | nil => exact Nat.le_refl 0
  | cons op ops ih =>
    rw [executedInOrder]
    split
    · exact Nat.succ_le_succ (Nat.zero_le _)
    · exact Nat.succ_le_succ (ih _)

/-- **An operator is executed when those before it succeed.** -/
theorem lt_executedInOrder_iff {ops : List (Operator σ)} {heap : Heap} {i : Nat}
    (hi : i < ops.length) : i < executedInOrder mode ops heap ↔ SucceedUpTo mode ops heap i := by
  induction ops generalizing heap i with
  | nil => cases hi
  | cons op ops ih =>
    rw [executedInOrder]
    cases i with
    | zero =>
      -- the first operator is executed whatever comes of it
      refine iff_of_true ?_ (succeedUpTo_zero mode _ heap)
      split
      · exact Nat.zero_lt_one
      · exact Nat.succ_pos _
    | succ i =>
      rw [succeedUpTo_cons_succ]
      split
      · next hstop =>
        rw [hstop]
        refine iff_of_false (by omega) fun h => ?_
        cases h.1
      · next hok =>
        rw [Nat.succ_lt_succ_iff, ih (Nat.lt_of_succ_lt_succ hi), and_iff_right hok]

/-- **What a run in order leaves behind** is what the executions up to the first failure do. -/
theorem replay_range_executedInOrder (mode : Mode) (ops : List (Operator σ)) (heap : Heap) :
    replay mode ops heap (List.range (executedInOrder mode ops heap)) =
      ((runInOrder mode ops heap).ops, (runInOrder mode ops heap).heap) := by
  induction ops generalizing heap with
  | nil => rfl
  | cons op ops ih =>
    rw [executedInOrder, runInOrder]
    cases (op.execute mode heap).outcome with
    | error stop => exact replay_cons_range_succ op ops heap 0
    | ok => rw [replay_cons_range_succ, ih]

/-- A run in order succeeds when every execution does. -/
theorem runInOrder_outcome_eq_ok_iff {ops : List (Operator σ)} {heap : Heap} :
    (runInOrder mode ops heap).outcome = .ok () ↔ SucceedUpTo mode ops heap ops.length := by
  induction ops generalizing heap with
  | nil => exact iff_of_true rfl (succeedUpTo_zero mode [] heap)
  | cons op ops ih =>
    rw [runInOrder, List.length_cons, succeedUpTo_cons_succ]
    dsimp only
    split
    · next hstop =>
      rw [hstop]
      simp
    · next hok => rw [ih, and_iff_right hok]

theorem executedInOrder_eq_length {ops : List (Operator σ)} {heap : Heap}
    (h : SucceedUpTo mode ops heap ops.length) : executedInOrder mode ops heap = ops.length := by
  refine Nat.le_antisymm (executedInOrder_le mode ops heap) (Nat.not_lt.1 fun hlt => ?_)
  exact Nat.lt_irrefl _ ((lt_executedInOrder_iff hlt).2 fun i hi => h i (Nat.lt_trans hi hlt))

/-- If it does not succeed, it ends as the last execution has ended. -/
theorem exists_of_runInOrder_eq_error {ops : List (Operator σ)} {heap : Heap} {stop : Stop}
    (h : (runInOrder mode ops heap).outcome = .error stop) :
    ∃ i op, i + 1 = executedInOrder mode ops heap ∧ ops[i]? = some op ∧
      (op.execute mode (replay mode ops heap (List.range i)).2).outcome = .error stop := by
  induction ops generalizing heap with
  | nil => cases h
  | cons op ops ih =>
    revert h
    rw [runInOrder, executedInOrder]
    cases hout : (op.execute mode heap).outcome with
    | error stop' =>
      intro h
      exact ⟨0, op, rfl, rfl, hout.trans h⟩
    | ok =>
      intro h
      obtain ⟨i, op', hi, hop', hlast⟩ := ih h
      refine ⟨i + 1, op', congrArg Nat.succ hi, hop', ?_⟩
      rwa [replay_cons_range_succ]

/-- What a run in order leaves behind when it succeeds. -/
theorem runInOrder_eq_replay {ops : List (Operator σ)} {heap : Heap}
    (h : (runInOrder mode ops heap).outcome = .ok ()) :
    (runInOrder mode ops heap).ops = (replay mode ops heap (List.range ops.length)).1 ∧
      (runInOrder mode ops heap).heap = (replay mode ops heap (List.range ops.length)).2 := by
  rw [← executedInOrder_eq_length (runInOrder_outcome_eq_ok_iff.1 h), replay_range_executedInOrder]
  exact ⟨rfl, rfl⟩

/-- One more operator, after others that have all succeeded. -/
theorem runInOrder_concat {ops : List (Operator σ)} (op : Operator σ) {heap : Heap}
    (h : (runInOrder mode ops heap).outcome = .ok ()) :
    (runInOrder mode (ops ++ [op]) heap).outcome =
        (op.execute mode (runInOrder mode ops heap).heap).outcome ∧
      (runInOrder mode (ops ++ [op]) heap).heap =
        (op.execute mode (runInOrder mode ops heap).heap).heap := by
  induction ops generalizing heap with
  | nil =>
    simp only [List.nil_append, runInOrder]
    split
    · next hstop => exact ⟨hstop.symm, rfl⟩
    · next hok => exact ⟨hok.symm, rfl⟩
  | cons first ops ih =>
    rw [List.cons_append, runInOrder, runInOrder]
    rw [runInOrder] at h
    dsimp only at h ⊢
    split at h
    · cases h
    · exact ih h

end InOrder

/-! ## Runs by dependencies -/

/-- When an operator was executed, the earlier ones that it clashes with had been. -/
theorem Causal.of_append {ops : List (Operator σ)} {all order after : List Nat} {i : Nat}
    (h : Causal ops all) (hall : all = order ++ i :: after) :
    Causal ops order ∧ i ∉ order ∧ ∀ j < i, Clash ops j i → j ∈ order := by
  induction h generalizing after with
  | nil => simp at hall
  | snoc h hi hnew hearlier ih =>
    rcases Run.split_append_of_length_le_one hall (Nat.le_refl 1) with ⟨after', heq⟩ | ⟨rfl, heq⟩
    · exact ih heq
    · obtain rfl := List.singleton_injective heq
      exact ⟨h, hnew, hearlier⟩

namespace Run

section Causal

variable {nodes : List Node} {g : ChainGraph} {mode : Mode} {ops : List (Operator σ)} {heap : Heap}
  {r s : Run σ}

/-- **Operators finish in a causal order**, if those that clash are ordered by the graph. -/
theorem causal_of_steps (hg : g.QuotientOf nodes) (hops : ops.length = nodes.length)
    (hclash : ∀ {i j}, i < j → Clash ops i j → Reaches nodes i j)
    (h : Steps g mode (init g ops heap) r) : Causal ops r.finished := by
  induction h with
  | refl => exact finished_init g ops heap ▸ .nil
  | @step r s k hsteps hk ih =>
    have hr : r.Reachable nodes g mode := ⟨hg, ops, heap, hops, hsteps⟩
    rcases hr.finished_advance hk with hsame | ⟨i, hgrow, hhist⟩
    · rwa [hsame]
    · have hstarted : .started i ∈ r.events :=
        mem_events_of_history hhist (List.mem_singleton_self _)
      rw [hgrow]
      refine .snoc ih ?_ (not_mem_finished_of_history hhist) fun j hji hj => ?_
      · exact hops ▸ hr.lt_of_mem_events hstarted rfl
      · exact mem_finished_of_ran
          (hr.ran_of_completed (hr.completed_of_reaches (hclash hji hj) hstarted))

end Causal

section Local

variable {nodes : List Node} {g : ChainGraph} {mode : Mode} {ops : List (Operator σ)}
  {heap heap' : Heap} {r : Run σ}
variable (hg : g.QuotientOf nodes) (hops : ops.length = nodes.length)
  (hclash : ∀ {i j}, i < j → Clash ops i j → Reaches nodes i j) (hlocal : ∀ op ∈ ops, op.Local)
  (hsame : ∀ b, heap.value? b = heap'.value? b)
include hg hops hclash hlocal hsame

/-- **Every operator ends as it does in the order of the list.** -/
theorem exists_finishOf_of_steps (h : Steps g mode (init g ops heap) r)
    {before after : List Event} {e : Event} {i : Nat} (hevents : r.events = before ++ e :: after)
    (hfin : e.finished? = some i) :
    ∃ op, ops[i]? = some op ∧ e = .finishOf i
      (op.execute mode (replay mode ops heap' (List.range i)).2).outcome := by
  obtain ⟨op, hop, rfl⟩ := (replays_of_steps hg hops h).finish_eq before after e i hevents hfin
  have hall : r.finished =
      before.filterMap Event.finished? ++ i :: after.filterMap Event.finished? := by
    rw [finished, hevents, List.filterMap_append, List.filterMap_cons_some hfin]
  obtain ⟨hcausal, hnew, hearlier⟩ := (causal_of_steps hg hops hclash h).of_append hall
  exact ⟨op, hop, by rw [(hcausal.execute_congr mode hlocal hsame hop hnew hearlier).2]⟩

theorem not_panicked_of_steps (h : Steps g mode (init g ops heap) r) (i : Nat) :
    .panicked i ∉ r.events := by
  intro hi
  obtain ⟨before, after, hevents⟩ := List.append_of_mem hi
  obtain ⟨op, hop, heq⟩ :=
    exists_finishOf_of_steps hg hops hclash hlocal hsame h hevents rfl
  obtain ⟨text, hpanic⟩ := Event.outcome_eq_of_panicked heq
  exact (hlocal op (List.mem_of_getElem? hop)).outcome_execute_ne_panic mode _ text hpanic

/-- **A run succeeds when every execution in the order of the list does.** -/
theorem outcome_eq_ok_iff_of_steps (h : Steps g mode (init g ops heap) r) (hover : r.Over) :
    r.outcome = .ok () ↔ SucceedUpTo mode ops heap' ops.length := by
  have hr : r.Reachable nodes g mode := ⟨hg, ops, heap, hops, h⟩
  have hpanic := not_panicked_of_steps hg hops hclash hlocal hsame h
  rw [hr.outcome_eq_ok_iff hover hpanic]
  constructor
  · intro hfail i hi op hop
    have hran := hr.ran_of_over (fun i => ⟨hpanic i, hfail i⟩) hover (hops ▸ hi)
    obtain ⟨before, after, hevents⟩ := List.append_of_mem hran.completed
    obtain ⟨op', hop', heq⟩ :=
      exists_finishOf_of_steps hg hops hclash hlocal hsame h hevents rfl
    obtain rfl : op = op' := Option.some.inj (hop.symm.trans hop')
    exact Event.outcome_eq_of_completed heq
  · intro hok i cause hi
    obtain ⟨before, after, hevents⟩ := List.append_of_mem hi
    obtain ⟨op, hop, heq⟩ :=
      exists_finishOf_of_steps hg hops hclash hlocal hsame h hevents rfl
    rw [hok i (List.getElem?_eq_some_iff.1 hop).1 op hop] at heq
    cases heq

/-- What a run leaves behind when it succeeds. -/
theorem eq_replay_of_steps (h : Steps g mode (init g ops heap) r) (hover : r.Over)
    (hok : r.outcome = .ok ()) :
    r.ops = (replay mode ops heap' (List.range ops.length)).1 ∧
      ∀ b, r.heap.value? b = (replay mode ops heap' (List.range ops.length)).2.value? b := by
  have hr : r.Reachable nodes g mode := ⟨hg, ops, heap, hops, h⟩
  have hpanic := not_panicked_of_steps hg hops hclash hlocal hsame h
  have hclean : r.Clean := fun i => ⟨hpanic i, (hr.outcome_eq_ok_iff hover hpanic).1 hok i⟩
  obtain ⟨hopseq, hvalues⟩ := (causal_of_steps hg hops hclash h).replay_eq mode hlocal
    hsame fun i hi => mem_finished_of_ran (hr.ran_of_over hclean hover (hops ▸ hi))
  refine ⟨(ops_eq_replay_of_over hg hops h hover).trans hopseq, fun b => ?_⟩
  rw [(replays_of_steps hg hops h).heap_eq, hvalues b]

end Local

end Run

end OpNet
