import Mathlib.Logic.Relation
import OpNet.Proofs.Net.Ledger

/-!
# In which order operators run

What the stages of the chains say about single operators, in any state that a schedule can reach.

* `Run.Reachable` — some schedule of a graph leads to a state.
* `Run.Reachable.account` — an operator has one of six accounts, so it is executed at most once and
  ends in at most one way.
* `Run.Reachable.completed_of_edge` — an operator that was started has waited for its parents;
  `Run.Reachable.completed_of_reaches` — and so for all its ancestors.
* `Run.Reachable.completed_before` — they had completed when it started.
-/

set_option autoImplicit false

namespace OpNet
namespace Run

variable {σ : Type}

/-- Some schedule of the chains of a graph leads to a state. -/
def Reachable (nodes : List Node) (g : ChainGraph) (mode : Mode) (r : Run σ) : Prop :=
  g.QuotientOf nodes ∧ ∃ ops heap, ops.length = nodes.length ∧ Steps g mode (init g ops heap) r

theorem Reachable.advance {nodes : List Node} {g : ChainGraph} {mode : Mode} {r s : Run σ}
    (h : r.Reachable nodes g mode) {k : Nat} (hk : r.advance g mode k = some s) :
    s.Reachable nodes g mode := by
  obtain ⟨hg, ops, heap, hops, hsteps⟩ := h
  exact ⟨hg, ops, heap, hops, .step hsteps hk⟩

/-! ## One operator of a chain -/

section Split

variable {r : Run σ} {ops inHand todo : List Nat}

theorem Split.cases (h : r.Split ops inHand todo) {i : Nat} (hi : i ∈ ops) :
    r.Ran i ∨ i ∈ inHand ∨ r.Fresh i := by
  obtain ⟨before, rfl, hran, hfresh⟩ := h
  rcases List.mem_append.1 hi with hi | hi
  · exact (List.mem_append.1 hi).imp (hran i) .inl
  · exact .inr (.inr (hfresh i hi))

/-- What comes directly before an operator that is not fresh has run. -/
theorem Split.ran_of_not_fresh (h : r.Split ops inHand todo) (hone : inHand.length ≤ 1) {i j : Nat}
    {front back : List Nat} (hops : ops = front ++ i :: j :: back) (hj : ¬r.Fresh j) :
    r.Ran i := by
  obtain ⟨before, rfl, hran, hfresh⟩ := h
  have hsplit : before ++ (inHand ++ todo) = (front ++ [i]) ++ j :: back := by simpa using hops
  rcases List.append_eq_append_iff.1 hsplit with ⟨mid, hmid, hrest⟩ | ⟨mid, hmid, -⟩
  · -- `i` is not before the operators in hand, so `j` is among those left
    cases mid with
    | nil => exact hran i (by simp [show before = front ++ [i] by simpa using hmid.symm])
    | cons m ms =>
      refine absurd (hfresh j ?_) hj
      cases inHand with
      | nil => simp [show todo = m :: ms ++ j :: back by simpa using hrest]
      | cons a as =>
        obtain rfl : as = [] := List.length_eq_zero_iff.1 (by simpa using hone)
        have htodo : todo = ms ++ j :: back := by simpa using (List.cons.inj hrest).2
        simp [htodo]
  · exact hran i (by simp [hmid])

end Split

section StandsAt

variable {g : ChainGraph} {r : Run σ} {c : Nat} {stage : Stage}

/-- What the account of an operator can be. -/
theorem StandsAt.account (h : r.StandsAt g c stage) {i : Nat} (hi : i ∈ g.opsOf c) :
    r.Fresh i ∨ r.history i = [.started i] ∨ r.Ran i ∨ (∃ cause, r.Failed i cause) ∨
      r.Broke i := by
  have hsplit : ∀ {inHand todo}, r.Split (g.opsOf c) inHand todo →
      r.Fresh i ∨ r.Ran i ∨ i ∈ inHand := fun h => by
    rcases h.cases hi with h | h | h
    · exact .inr (.inl h)
    · exact .inr (.inr h)
    · exact .inl h
  cases stage with
  | waiting => exact .inl (h i hi)
  | done => exact .inr (.inr (.inl (h i hi)))
  | halted =>
    obtain ⟨inHand, todo, hs, -, hbroke, -⟩ := h
    rcases hsplit hs with h | h | h
    · exact .inl h
    · exact .inr (.inr (.inl h))
    · exact .inr (.inr (.inr (.inr (hbroke i h))))
  | active phase =>
    cases phase with
    | walking | admitted =>
      rcases hsplit h with h | h | h
      · exact .inl h
      · exact .inr (.inr (.inl h))
      · cases h
    | inFlight =>
      rcases hsplit h.1 with h' | h' | h'
      · exact .inl h'
      · exact .inr (.inr (.inl h'))
      · exact .inr (.inl (List.mem_singleton.1 h' ▸ h.2))
    | raising | recording =>
      obtain ⟨todo, hs, hfail⟩ := h
      rcases hsplit hs with h | h | h
      · exact .inl h
      · exact .inr (.inr (.inl h))
      · exact .inr (.inr (.inr (.inl ⟨_, List.mem_singleton.1 h ▸ hfail⟩)))
    | releasing => exact .inr (.inr (.inl (h.1 i hi)))

/-- The account of an operator on a chain that is not at work. -/
theorem StandsAt.account_of_ne_active (h : r.StandsAt g c stage)
    (hstage : ∀ phase, stage ≠ .active phase) {i : Nat} (hi : i ∈ g.opsOf c) :
    r.Fresh i ∨ r.Ran i ∨ r.Broke i := by
  cases stage with
  | waiting => exact .inl (h i hi)
  | active phase => exact absurd rfl (hstage phase)
  | done => exact .inr (.inl (h i hi))
  | halted =>
    obtain ⟨inHand, todo, hsplit, -, hbroke, -⟩ := h
    rcases hsplit.cases hi with hi | hi | hi
    · exact .inr (.inl hi)
    · exact .inr (.inr (hbroke i hi))
    · exact .inl hi

/-- On a chain, what comes directly before an operator that is not fresh has run. -/
theorem StandsAt.ran_of_not_fresh (h : r.StandsAt g c stage) {i j : Nat} {front back : List Nat}
    (hops : g.opsOf c = front ++ i :: j :: back) (hj : ¬r.Fresh j) : r.Ran i := by
  have hmem : i ∈ g.opsOf c ∧ j ∈ g.opsOf c := by simp [hops]
  cases stage with
  | waiting => exact absurd (h j hmem.2) hj
  | done => exact h i hmem.1
  | halted =>
    obtain ⟨inHand, todo, hs, hone, -⟩ := h
    exact hs.ran_of_not_fresh hone hops hj
  | active phase =>
    cases phase with
    | walking | admitted => exact Split.ran_of_not_fresh h (Nat.zero_le 1) hops hj
    | inFlight => exact h.1.ran_of_not_fresh (Nat.le_refl 1) hops hj
    | raising | recording =>
      obtain ⟨todo, hs, -⟩ := h
      exact hs.ran_of_not_fresh (Nat.le_refl 1) hops hj
    | releasing => exact h.1 i hmem.1

/-- A chain that does not owe a word to one of the chains that wait for it has run. -/
theorem StandsAt.ran_of_not_owed (h : r.StandsAt g c stage) {d : Nat} (hd : d ∈ g.childrenOf c)
    (howed : d ∉ stage.owed g c) : ∀ i ∈ g.opsOf c, r.Ran i := by
  cases stage with
  | waiting | halted => exact absurd hd howed
  | done => exact h
  | active phase =>
    cases phase with
    | releasing => exact h.1
    | _ => exact absurd hd howed

end StandsAt

/-! ## The order of a run -/

/-- An operator in flight is held by a task. -/
def InFlight (r : Run σ) (i : Nat) : Prop := ∃ t ∈ r.tasks, ∃ todo, t.phase = .inFlight i todo

section Reachable

variable {nodes : List Node} {g : ChainGraph} {mode : Mode} {r : Run σ} {i j : Nat}

theorem Reachable.ledger (h : r.Reachable nodes g mode) : ∃ stage, r.Ledger g stage := by
  obtain ⟨hg, ops, heap, hops, hsteps⟩ := h
  exact ledger_of_steps hg hops hsteps

theorem Reachable.length_ops (h : r.Reachable nodes g mode) : r.ops.length = nodes.length := by
  obtain ⟨-, ops, heap, hops, hsteps⟩ := h
  exact (length_ops_of_steps hsteps).trans hops

/-- **The six accounts.** Nothing has happened to an operator, or it is in flight, has completed,
has failed without or with its fault on record, or has panicked. -/
theorem Reachable.account (h : r.Reachable nodes g mode) (i : Nat) :
    r.Fresh i ∨ r.history i = [.started i] ∨ r.Ran i ∨ (∃ cause, r.Failed i cause) ∨
      r.Broke i := by
  obtain ⟨stage, hledger⟩ := h.ledger
  by_cases hi : ∃ c, i ∈ g.opsOf c
  · obtain ⟨c, hi⟩ := hi
    exact (hledger.placed.standsAt c).account hi
  · exact .inl (hledger.placed.fresh i fun c hc => hi ⟨c, hc⟩)

/-- When the run is over, no account is left open. -/
theorem Reachable.account_of_over (h : r.Reachable nodes g mode) (hover : r.Over) (i : Nat) :
    r.Fresh i ∨ r.Ran i ∨ r.Broke i := by
  obtain ⟨stage, hledger⟩ := h.ledger
  by_cases hi : ∃ c, i ∈ g.opsOf c
  · obtain ⟨c, hi⟩ := hi
    exact (hledger.placed.standsAt c).account_of_ne_active
      (hledger.placed.ne_active_of_over hover c) hi
  · exact .inl (hledger.placed.fresh i fun c hc => hi ⟨c, hc⟩)

theorem Reachable.lt_of_mem_events (h : r.Reachable nodes g mode) {e : Event} {i : Nat}
    (he : e ∈ r.events) (hop : e.op? = some i) : i < nodes.length := by
  obtain ⟨stage, hledger⟩ := h.ledger
  by_contra hi
  have hfresh := hledger.placed.fresh i fun c hc => hi (h.1.exists_mem_opsOf_iff.1 ⟨c, hc⟩)
  cases mem_of_history hfresh he hop

theorem Reachable.nodup_history (h : r.Reachable nodes g mode) (i : Nat) :
    (r.history i).Nodup := by
  rcases h.account i with h | h | h | ⟨cause, h⟩ | h | ⟨cause, h⟩ <;>
    simp [show r.history i = _ from h]

/-- No event of an operator happens twice. -/
theorem Reachable.count_le_one (h : r.Reachable nodes g mode) {e : Event} (he : e.op? = some i) :
    r.events.count e ≤ 1 := by
  rw [← count_history he]
  exact List.nodup_iff_count_le_one.1 (h.nodup_history i) e

/-- An operator that has completed did nothing else, such as failing. -/
theorem Reachable.ran_of_completed (h : r.Reachable nodes g mode)
    (hi : .completed i ∈ r.events) : r.Ran i := by
  rcases h.account i with h | h | h | ⟨cause, h⟩ | h | ⟨cause, h⟩
  · cases mem_of_history h hi rfl
  · simpa using mem_of_history h hi rfl
  · exact h
  · simpa using mem_of_history h hi rfl
  · simpa using mem_of_history h hi rfl
  · simpa using mem_of_history h hi rfl

/-- What has happened to an operator began with its start. -/
theorem Reachable.started_of_mem (h : r.Reachable nodes g mode) {e : Event} (he : e ∈ r.events)
    (hop : e.op? = some i) : .started i ∈ r.events := by
  rcases h.account i with h | h | h | ⟨cause, h⟩ | h | ⟨cause, h⟩
  · cases mem_of_history h he hop
  all_goals exact mem_events_of_history h List.mem_cons_self

theorem Ran.completed (h : r.Ran i) : .completed i ∈ r.events :=
  mem_events_of_history h (by simp)

theorem not_fresh_of_started (h : .started i ∈ r.events) : ¬r.Fresh i := by
  intro hfresh
  cases mem_of_history hfresh h rfl

/-- **An operator waits for its parents.** -/
theorem Reachable.completed_of_edge (h : r.Reachable nodes g mode) (he : Edge nodes i j)
    (hj : .started j ∈ r.events) : .completed i ∈ r.events := by
  obtain ⟨stage, hplaced, hcounted⟩ := h.ledger
  have hfresh := not_fresh_of_started hj
  rcases h.1.of_edge he with ⟨c, front, back, hops⟩ | ⟨c, d, back, hi, hops, hd⟩
  · exact ((hplaced.standsAt c).ran_of_not_fresh hops hfresh).completed
  · -- the chain of `j` has started, so its counter is zero and no chain owes it a word
    have hc := ChainGraph.QuotientOf.lt_of_mem_opsOf hi
    have hdlt := (h.1.lt_of_mem_childrenOf hd).2
    have hstarted : stage d ≠ .waiting := by
      intro hwait
      have hstands := hplaced.standsAt d
      rw [hwait] at hstands
      exact hfresh (hstands j (by simp [hops]))
    have howed : d ∉ (stage c).owed g c := fun howed =>
      hstarted ((hcounted.waiting_iff d hdlt).2 (hcounted.left_ne_zero hc hdlt howed))
    exact ((hplaced.standsAt c).ran_of_not_owed hd howed i hi).completed

/-- **An operator waits for its ancestors.** -/
theorem Reachable.completed_of_reaches (h : r.Reachable nodes g mode) (hij : Reaches nodes i j)
    (hj : .started j ∈ r.events) : .completed i ∈ r.events := by
  induction hij with
  | single he => exact h.completed_of_edge he hj
  | tail _ he ih => exact ih (h.started_of_mem (h.completed_of_edge he hj) rfl)

/-! ## What was, stays -/

/-- A step adds at most one event. -/
theorem events_advance {s : Run σ} {k : Nat} (hs : r.advance g mode k = some s) :
    ∃ added, s.events = r.events ++ added ∧ added.length ≤ 1 := by
  obtain ⟨⟨c, phase⟩, r', phase?, -, hacts, rfl⟩ := exists_acts_of_advance hs
  change ∃ added, r'.events = r.events ++ added ∧ added.length ≤ 1
  cases hacts with
  | rest | skip | pass | raise | finish => exact ⟨[], (List.append_nil _).symm, Nat.zero_le 1⟩
  | astray | tell => exact ⟨[], (List.append_nil _).symm, Nat.zero_le 1⟩
  | start | complete | fail | panic | record | launch => exact ⟨[_], rfl, Nat.le_refl 1⟩

theorem events_of_steps {s : Run σ} (h : Steps g mode r s) : r.events <+: s.events := by
  induction h with
  | refl => exact List.prefix_refl _
  | step _ hk ih =>
    obtain ⟨added, hadded, -⟩ := events_advance hk
    exact ih.trans (hadded ▸ List.prefix_append _ _)

/-- In a list with at most one new element at its end, every element is old or the new one. -/
theorem split_append_of_length_le_one {α : Type} {xs added before after : List α} {x : α}
    (h : xs ++ added = before ++ x :: after) (hone : added.length ≤ 1) :
    (∃ after', xs = before ++ x :: after') ∨ xs = before ∧ added = [x] := by
  rcases List.append_eq_append_iff.1 h with ⟨mid, rfl, hadded⟩ | ⟨mid, rfl, hafter⟩
  · cases mid with
    | nil =>
      rw [List.nil_append] at hadded
      subst hadded
      obtain rfl : after = [] := List.length_eq_zero_iff.1 (by simpa using hone)
      exact .inr ⟨(List.append_nil _).symm, rfl⟩
    | cons m ms =>
      subst hadded
      simp at hone
  · cases mid with
    | nil =>
      rw [List.nil_append] at hafter
      subst hafter
      obtain rfl : after = [] := List.length_eq_zero_iff.1 (by simpa using hone)
      exact .inr ⟨List.append_nil _, rfl⟩
    | cons m ms =>
      obtain ⟨rfl, -⟩ := List.cons.inj hafter
      exact .inl ⟨ms, rfl⟩

/-- **Parents complete before.** In the account of a run the start of an operator comes after the
completion of each of its parents. -/
theorem Reachable.completed_before (h : r.Reachable nodes g mode) {before after : List Event}
    (hevents : r.events = before ++ .started j :: after) (he : Edge nodes i j) :
    .completed i ∈ before := by
  obtain ⟨hg, ops, heap, hops, hsteps⟩ := h
  induction hsteps generalizing after with
  | refl =>
    have hmem : Event.started j ∈ g.roots.map Event.spawned := by
      rw [show g.roots.map Event.spawned = before ++ .started j :: after from hevents]
      simp
    simp at hmem
  | @step r s k hsteps hk ih =>
    obtain ⟨added, hadded, hone⟩ := events_advance hk
    rcases split_append_of_length_le_one (hadded ▸ hevents) hone with ⟨after', hr⟩ | ⟨rfl, rfl⟩
    · exact ih hr
    · have hs : s.Reachable nodes g mode := ⟨hg, ops, heap, hops, .step hsteps hk⟩
      have hmem := hs.completed_of_edge he (by simp [hadded])
      simpa [hadded] using hmem

end Reachable

end Run
end OpNet
