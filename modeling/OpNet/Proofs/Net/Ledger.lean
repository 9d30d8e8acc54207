import Mathlib.Data.List.Count
import Mathlib.Data.List.Nodup
import Mathlib.Logic.Function.Basic
import OpNet.Proofs.Graph.Quotient
import OpNet.Proofs.Net.Step

/-!
# Where the chains stand

A run keeps no record of where its chains stand: what it has are the tasks, the counters and the
account of events. The invariant of this file ties the three together by a *stage* for every chain.
A chain waits, or is active and then has one task, or is done, or was halted by a failure.

* `Run.StandsAt` — what the account says about the operators of a chain at a stage.
* `Run.Placed` — the tasks and the account fit the stages.
* `Run.Counted` — every counter counts the chains that still have to tell, and a chain waits just
  as long as its counter is not zero.
* `Run.ledger_of_steps` — both hold, for some stages, of every state that a schedule can reach.
-/

set_option autoImplicit false

namespace OpNet

/-- Where a chain stands. -/
inductive Stage where
  /-- Its counter is not zero. -/
  | waiting
  /-- It has a task. -/
  | active (phase : Phase)
  /-- All its operators have run and it has told all the chains that wait for it. -/
  | done
  /-- It has ended early. -/
  | halted
deriving DecidableEq

/-- The chains that chain `c` has still to tell. -/
def Stage.owed (g : ChainGraph) (c : Nat) : Stage → List Nat
  | .done => []
  | .active (.releasing ds) => ds
  | _ => g.childrenOf c

/-! ## Tasks -/

theorem moveTask_none (before after : List Task) (t : Task) :
    Run.moveTask (before ++ t :: after) before.length t none = before ++ after := by
  rw [Run.moveTask, List.eraseIdx_append_of_length_le (Nat.le_refl _), Nat.sub_self,
    List.eraseIdx_cons_zero]

theorem moveTask_some (before after : List Task) (t : Task) (phase : Phase) :
    Run.moveTask (before ++ t :: after) before.length t (some phase) =
      before ++ { t with phase } :: after := by
  rw [Run.moveTask, List.set_append_right _ _ (Nat.le_refl _), Nat.sub_self, List.set_cons_zero]

theorem exists_split_of_getElem? {α : Type} {xs : List α} {k : Nat} {x : α} (h : xs[k]? = some x) :
    ∃ before after, xs = before ++ x :: after ∧ k = before.length := by
  obtain ⟨hk, rfl⟩ := List.getElem?_eq_some_iff.1 h
  exact ⟨xs.take k, xs.drop (k + 1), by simp, by simp; omega⟩

/-- A task moves on or ends; the tasks of the other chains stay. -/
theorem mem_moveTask {tasks : List Task} {k : Nat} {t : Task} (ht : tasks[k]? = some t)
    (hnodup : (tasks.map (·.chain)).Nodup) (phase? : Option Phase) (u : Task) :
    u ∈ Run.moveTask tasks k t phase? ↔
      u ∈ tasks ∧ u.chain ≠ t.chain ∨ u.chain = t.chain ∧ phase? = some u.phase := by
  obtain ⟨before, after, rfl, rfl⟩ := exists_split_of_getElem? ht
  rw [List.map_append, List.map_cons, List.nodup_middle, List.nodup_cons, ← List.map_append]
    at hnodup
  have hne : u ∈ before ∨ u ∈ after → u.chain ≠ t.chain := fun hu heq =>
    hnodup.1 (heq ▸ List.mem_map_of_mem (List.mem_append.2 hu))
  cases phase? with
  | none =>
    rw [moveTask_none]
    simp only [List.mem_append, List.mem_cons, reduceCtorEq, and_false, or_false]
    constructor
    · exact fun hu => ⟨hu.imp_right .inr, hne hu⟩
    · rintro ⟨hu | rfl | hu, hchain⟩
      · exact .inl hu
      · exact absurd rfl hchain
      · exact .inr hu
  | some phase =>
    rw [moveTask_some]
    simp only [List.mem_append, List.mem_cons, Option.some.injEq]
    constructor
    · rintro (hu | rfl | hu)
      · exact .inl ⟨.inl hu, hne (.inl hu)⟩
      · exact .inr ⟨rfl, rfl⟩
      · exact .inl ⟨.inr (.inr hu), hne (.inr hu)⟩
    · rintro (⟨hu | rfl | hu, hchain⟩ | ⟨hchain, hphase⟩)
      · exact .inl hu
      · exact absurd rfl hchain
      · exact .inr (.inr hu)
      · exact .inr (.inl (by rw [← hchain, hphase]))

theorem nodup_moveTask {tasks : List Task} {k : Nat} {t : Task} (ht : tasks[k]? = some t)
    (hnodup : (tasks.map (·.chain)).Nodup) (phase? : Option Phase) :
    ((Run.moveTask tasks k t phase?).map (·.chain)).Nodup := by
  obtain ⟨before, after, rfl, rfl⟩ := exists_split_of_getElem? ht
  cases phase? with
  | none =>
    rw [moveTask_none]
    exact hnodup.sublist (((List.sublist_cons_self t after).append_left before).map _)
  | some phase =>
    rw [moveTask_some]
    simpa using hnodup

/-! ## The account of a chain -/

namespace Run

variable {σ : Type}

/-- Nothing has happened to an operator. -/
def Fresh (r : Run σ) (i : Nat) : Prop := r.history i = []

/-- An operator was executed and has succeeded. -/
def Ran (r : Run σ) (i : Nat) : Prop := r.history i = [.started i, .completed i]

/-- An operator was executed and has failed. -/
def Failed (r : Run σ) (i : Nat) (cause : Fault) : Prop :=
  r.history i = [.started i, .failed i cause]

/-- An operator was executed without success, and the fault is on record if it was no panic. -/
def Broke (r : Run σ) (i : Nat) : Prop :=
  r.history i = [.started i, .panicked i] ∨
    ∃ cause, r.history i = [.started i, .failed i cause, .recorded i cause]

/-- Operators of which some have run, some are in hand, and the others are still to do. -/
def Split (r : Run σ) (ops inHand todo : List Nat) : Prop :=
  ∃ before, ops = before ++ inHand ++ todo ∧ (∀ i ∈ before, r.Ran i) ∧ ∀ i ∈ todo, r.Fresh i

/-- What the account says about the operators of chain `c` when it stands at a stage. -/
def StandsAt (g : ChainGraph) (r : Run σ) (c : Nat) : Stage → Prop
  | .waiting => ∀ i ∈ g.opsOf c, r.Fresh i
  | .active (.walking todo) => r.Split (g.opsOf c) [] todo
  | .active (.admitted i todo) => r.Split (g.opsOf c) [] (i :: todo)
  | .active (.inFlight i todo) => r.Split (g.opsOf c) [i] todo ∧ r.history i = [.started i]
  | .active (.raising i cause) => ∃ todo, r.Split (g.opsOf c) [i] todo ∧ r.Failed i cause
  | .active (.recording i cause) => ∃ todo, r.Split (g.opsOf c) [i] todo ∧ r.Failed i cause
  | .active (.releasing ds) => (∀ i ∈ g.opsOf c, r.Ran i) ∧ ds <:+ g.childrenOf c
  | .done => ∀ i ∈ g.opsOf c, r.Ran i
  | .halted => ∃ inHand todo, r.Split (g.opsOf c) inHand todo ∧ inHand.length ≤ 1 ∧
      (∀ i ∈ inHand, r.Broke i) ∧ (inHand = [] → r.failed = true)

section Split

variable {r r' : Run σ} {ops inHand todo : List Nat} {i : Nat}

theorem Split.congr (h : r.Split ops inHand todo)
    (hsame : ∀ j ∈ ops, j ∉ inHand → r'.history j = r.history j) (hnodup : ops.Nodup) :
    r'.Split ops inHand todo := by
  obtain ⟨before, rfl, hran, hfresh⟩ := h
  obtain ⟨hfront, -, htodo⟩ := List.nodup_append.1 hnodup
  refine ⟨before, rfl, fun j hj => ?_, fun j hj => ?_⟩
  · refine (hsame j (by simp [hj]) fun hin => ?_).trans (hran j hj)
    exact (List.nodup_append.1 hfront).2.2 j hj j hin rfl
  · refine (hsame j (by simp [hj]) fun hin => ?_).trans (hfresh j hj)
    exact htodo j (by simp [hin]) j hj rfl

/-- The next operator is taken in hand. -/
theorem Split.take (h : r.Split ops [] (i :: todo)) : r.Split ops [i] todo := by
  obtain ⟨before, rfl, hran, hfresh⟩ := h
  exact ⟨before, by simp, hran, fun j hj => hfresh j (List.mem_cons_of_mem _ hj)⟩

theorem Split.fresh (h : r.Split ops inHand (i :: todo)) : r.Fresh i := by
  obtain ⟨before, -, -, hfresh⟩ := h
  exact hfresh i List.mem_cons_self

/-- The operator in hand has run. -/
theorem Split.drop (h : r.Split ops [i] todo) (hi : r.Ran i) : r.Split ops [] todo := by
  obtain ⟨before, rfl, hran, hfresh⟩ := h
  refine ⟨before ++ [i], by simp, fun j hj => ?_, hfresh⟩
  rcases List.mem_append.1 hj with hj | hj
  · exact hran j hj
  · exact List.mem_singleton.1 hj ▸ hi

/-- What happens to the operator in hand does not concern the others. -/
theorem Split.note (h : r.Split ops [i] todo) (hnodup : ops.Nodup) {e : Event}
    (hevents : r'.events = r.events ++ [e]) (he : e.op? = some i) : r'.Split ops [i] todo :=
  h.congr (fun _ _ hj => history_note_of_ne hevents he (by simpa using hj)) hnodup

theorem Split.mem (h : r.Split ops [i] todo) : i ∈ ops := by
  obtain ⟨before, rfl, -⟩ := h
  simp

theorem Split.ran (h : r.Split ops [] []) : ∀ j ∈ ops, r.Ran j := by
  obtain ⟨before, rfl, hran, -⟩ := h
  simpa using hran

end Split

/-- What the account says about a chain depends on the accounts of its operators only. -/
theorem StandsAt.congr {g : ChainGraph} {r r' : Run σ} {c : Nat} {stage : Stage}
    (h : r.StandsAt g c stage) (hnodup : (g.opsOf c).Nodup)
    (hsame : ∀ i ∈ g.opsOf c, r'.history i = r.history i)
    (hfailed : r.failed = true → r'.failed = true) : r'.StandsAt g c stage := by
  have hsplit : ∀ {inHand todo}, r.Split (g.opsOf c) inHand todo →
      r'.Split (g.opsOf c) inHand todo :=
    fun h => h.congr (fun j hj _ => hsame j hj) hnodup
  cases stage with
  | waiting => exact fun i hi => (hsame i hi).trans (h i hi)
  | done => exact fun i hi => (hsame i hi).trans (h i hi)
  | halted =>
    obtain ⟨inHand, todo, hs, hone, hbroke, hraised⟩ := h
    refine ⟨inHand, todo, hsplit hs, hone, fun i hi => ?_, fun hnil => hfailed (hraised hnil)⟩
    obtain ⟨before, hops, -⟩ := hs
    rw [Broke, hsame i (by simp [hops, hi])]
    exact hbroke i hi
  | active phase =>
    cases phase with
    | walking todo => exact hsplit h
    | admitted i todo => exact hsplit h
    | inFlight i todo => exact ⟨hsplit h.1, (hsame i h.1.mem).trans h.2⟩
    | raising i cause =>
      obtain ⟨todo, hs, hi⟩ := h
      exact ⟨todo, hsplit hs, (hsame i hs.mem).trans hi⟩
    | recording i cause =>
      obtain ⟨todo, hs, hi⟩ := h
      exact ⟨todo, hsplit hs, (hsame i hs.mem).trans hi⟩
    | releasing ds => exact ⟨fun i hi => (hsame i hi).trans (h.1 i hi), h.2⟩

/-! ## The tasks and the account fit the stages -/

/-- The tasks and the account of events fit the stages of the chains. -/
structure Placed (g : ChainGraph) (r : Run σ) (stage : Nat → Stage) : Prop where
  nodup_tasks : (r.tasks.map (·.chain)).Nodup
  mem_tasks_iff : ∀ t, t ∈ r.tasks ↔ stage t.chain = .active t.phase
  lt_of_ne_waiting : ∀ {c}, stage c ≠ .waiting → c < g.chains.length
  count_spawned : ∀ c, r.events.count (.spawned c) = if stage c = .waiting then 0 else 1
  standsAt : ∀ c, r.StandsAt g c (stage c)
  /-- Nothing happens to what is on no chain. -/
  fresh : ∀ i, (∀ c, i ∉ g.opsOf c) → r.Fresh i

section Placed

variable {g : ChainGraph} {nodes : List Node} {r r' : Run σ} {stage : Nat → Stage}

theorem Placed.stage_eq (h : r.Placed g stage) {t : Task} (ht : t ∈ r.tasks) :
    stage t.chain = .active t.phase :=
  (h.mem_tasks_iff t).1 ht

/-- What the account says about the chain of a task. -/
theorem Placed.standsAt_of_mem (h : r.Placed g stage) {t : Task} (ht : t ∈ r.tasks) :
    r.StandsAt g t.chain (.active t.phase) :=
  h.stage_eq ht ▸ h.standsAt t.chain

theorem Placed.lt_of_mem (h : r.Placed g stage) {t : Task} (ht : t ∈ r.tasks) :
    t.chain < g.chains.length :=
  h.lt_of_ne_waiting (by rw [h.stage_eq ht]; exact Stage.noConfusion)

/-- When the run is over, no chain is at work. -/
theorem Placed.ne_active_of_over (h : r.Placed g stage) (hover : r.Over) (c : Nat) (phase : Phase) :
    stage c ≠ .active phase := by
  intro hstage
  have ht : ⟨c, phase⟩ ∈ r.tasks := (h.mem_tasks_iff ⟨c, phase⟩).2 hstage
  rw [show r.tasks = [] from hover] at ht
  cases ht

/-- A task acts on its own chain: the stages of the others stay as they are. -/
theorem Placed.move (h : r.Placed g stage) (hg : g.QuotientOf nodes) {k : Nat} {t : Task}
    (ht : r.tasks[k]? = some t) {phase? : Option Phase} {next : Stage} {added : List Event}
    (htasks : r'.tasks = r.tasks) (hevents : r'.events = r.events ++ added)
    (hadded : ∀ e ∈ added, ∃ i ∈ g.opsOf t.chain, e.op? = some i)
    (hfailed : r.failed = true → r'.failed = true)
    (hnext : ∀ phase, phase? = some phase ↔ next = .active phase) (hne : next ≠ .waiting)
    (hstands : r'.StandsAt g t.chain next) :
    (r'.settle k t phase?).Placed g (Function.update stage t.chain next) := by
  have hmem := List.mem_of_getElem? ht
  have hstage := h.stage_eq hmem
  have hsame : ∀ i, i ∉ g.opsOf t.chain → r'.history i = r.history i := by
    intro i hi
    rw [history_append hevents, List.filter_eq_nil_iff.2, List.append_nil]
    intro e he
    obtain ⟨j, hj, hop⟩ := hadded e he
    simp only [hop, Option.some.injEq, decide_eq_true_eq]
    exact fun hji => hi (hji ▸ hj)
  refine ⟨?_, fun u => ?_, fun {c} hc => ?_, fun c => ?_, fun c => ?_, fun i hi => ?_⟩
  · rw [settle, htasks]
    exact nodup_moveTask ht h.nodup_tasks phase?
  · rw [settle, htasks, mem_moveTask ht h.nodup_tasks, h.mem_tasks_iff]
    by_cases hu : u.chain = t.chain
    · simp [hu, hnext]
    · simp [hu]
  · by_cases hct : c = t.chain
    · exact hct ▸ h.lt_of_mem hmem
    · rw [Function.update_of_ne hct] at hc
      exact h.lt_of_ne_waiting hc
  · have hcount : r'.events.count (.spawned c) = r.events.count (.spawned c) := by
      rw [hevents, List.count_append, Nat.add_eq_left, List.count_eq_zero]
      intro he
      obtain ⟨i, -, hop⟩ := hadded _ he
      simp [Event.op?] at hop
    rw [settle, hcount, h.count_spawned]
    by_cases hct : c = t.chain
    · subst hct
      simp [hstage, hne]
    · rw [Function.update_of_ne hct]
  · by_cases hct : c = t.chain
    · subst hct
      rw [Function.update_self]
      exact hstands
    · rw [Function.update_of_ne hct]
      refine (h.standsAt c).congr (hg.nodup_opsOf c) (fun i hi => hsame i fun hit => ?_) hfailed
      exact hct (hg.eq_of_mem_opsOf hi hit)
  · exact (hsame i (hi _)).trans (h.fresh i hi)

/-- Only the counters are lowered. -/
theorem Placed.lower (h : r.Placed g stage) (hg : g.QuotientOf nodes) (d : Nat) :
    (r.lower d).Placed g stage where
  nodup_tasks := h.nodup_tasks
  mem_tasks_iff := h.mem_tasks_iff
  lt_of_ne_waiting := h.lt_of_ne_waiting
  count_spawned := h.count_spawned
  standsAt c := (h.standsAt c).congr (hg.nodup_opsOf c) (fun _ _ => rfl) id
  fresh := h.fresh

/-- A chain that waits is started. -/
theorem Placed.spawn (h : r.Placed g stage) (hg : g.QuotientOf nodes) {d : Nat}
    (hd : d < g.chains.length) (hwait : stage d = .waiting) :
    (r.spawn g d).Placed g (Function.update stage d (.active (.walking (g.opsOf d)))) := by
  have hevents : (r.spawn g d).events = r.events ++ [.spawned d] := rfl
  have hsame : ∀ i, (r.spawn g d).history i = r.history i := by
    intro i
    rw [history_append hevents]
    simp [Event.op?]
  have hfree : ∀ t ∈ r.tasks, t.chain ≠ d := by
    intro t ht htd
    rw [h.mem_tasks_iff, htd, hwait] at ht
    cases ht
  refine ⟨?_, fun u => ?_, fun {c} hc => ?_, fun c => ?_, fun c => ?_, fun i hi => ?_⟩
  · change ((r.tasks ++ [g.task d]).map (·.chain)).Nodup
    rw [List.map_append, List.map_singleton, ← List.concat_eq_append, List.nodup_concat]
    refine ⟨fun hmem => ?_, h.nodup_tasks⟩
    obtain ⟨t, ht, htd⟩ := List.mem_map.1 hmem
    exact hfree t ht htd
  · change u ∈ r.tasks ++ [g.task d] ↔ _
    rw [List.mem_append, List.mem_singleton, h.mem_tasks_iff]
    obtain ⟨c, phase⟩ := u
    by_cases hcd : c = d
    · subst hcd
      simp [hwait, ChainGraph.task, eq_comm]
    · simp [hcd, ChainGraph.task]
  · by_cases hcd : c = d
    · exact hcd ▸ hd
    · rw [Function.update_of_ne hcd] at hc
      exact h.lt_of_ne_waiting hc
  · rw [hevents, List.count_append, h.count_spawned]
    by_cases hcd : c = d
    · subst hcd
      simp [hwait]
    · simp [hcd, Ne.symm hcd]
  · by_cases hcd : c = d
    · subst hcd
      rw [Function.update_self]
      have hfresh := h.standsAt c
      rw [hwait] at hfresh
      exact ⟨[], by simp, by simp, fun i hi => (hsame i).trans (hfresh i hi)⟩
    · rw [Function.update_of_ne hcd]
      exact (h.standsAt c).congr (hg.nodup_opsOf c) (fun i _ => hsame i) id
  · exact (hsame i).trans (h.fresh i hi)

end Placed

/-! ## The counters fit the stages -/

/-- The counters count the chains that have still to tell, and a chain waits just as long as its
counter is not zero. -/
structure Counted (g : ChainGraph) (r : Run σ) (stage : Nat → Stage) : Prop where
  length_pending : r.pending.length = g.chains.length
  left_eq : ∀ d < g.chains.length,
    r.left d = (List.range g.chains.length).countP fun c => d ∈ (stage c).owed g c
  waiting_iff : ∀ d < g.chains.length, stage d = .waiting ↔ r.left d ≠ 0

/-- Counting one index less. -/
theorem countP_range_eq_succ {n c : Nat} (hc : c < n) {p q : Nat → Bool} (hp : p c = true)
    (hq : q c = false) (hother : ∀ x, x ≠ c → p x = q x) :
    (List.range n).countP p = (List.range n).countP q + 1 := by
  induction n with
  | zero => omega
  | succ n ih =>
    rw [List.range_succ, List.countP_append, List.countP_append, List.countP_singleton,
      List.countP_singleton]
    rcases Nat.lt_succ_iff_lt_or_eq.1 hc with hlt | rfl
    · rw [ih hlt, hother n (by omega)]
      omega
    · have hcongr := List.countP_congr fun x hx =>
        show p x = true ↔ q x = true by rw [hother x (Nat.ne_of_lt (List.mem_range.1 hx))]
      rw [hcongr, hp, hq]
      simp

section Counted

variable {g : ChainGraph} {nodes : List Node} {r r' : Run σ} {stage : Nat → Stage}

/-- A step that owes nobody less leaves the counters as they are. -/
theorem Counted.move (h : r.Counted g stage) {c : Nat} {next : Stage}
    (hpending : r'.pending = r.pending) (howed : next.owed g c = (stage c).owed g c)
    (hactive : stage c ≠ .waiting) (hne : next ≠ .waiting) :
    r'.Counted g (Function.update stage c next) := by
  have hleft : ∀ d, r'.left d = r.left d := fun d => by rw [left, left, hpending]
  refine ⟨hpending ▸ h.length_pending, fun d hd => ?_, fun d hd => ?_⟩
  · rw [hleft, h.left_eq d hd]
    refine List.countP_congr fun x _ => ?_
    by_cases hx : x = c
    · subst hx
      rw [Function.update_self, howed]
    · rw [Function.update_of_ne hx]
  · rw [hleft, ← h.waiting_iff d hd]
    by_cases hdc : d = c
    · subst hdc
      simp [hactive, hne]
    · rw [Function.update_of_ne hdc]

theorem left_release (g : ChainGraph) {d : Nat} (hd : d < r.pending.length) (e : Nat) :
    (r.release g d).left e = if e = d then r.left d - 1 else r.left e := by
  have hpending : (r.release g d).pending = r.pending.set d (r.left d - 1) := by
    rw [Run.release]
    split <;> rfl
  rw [left, hpending]
  by_cases he : e = d
  · simp [he, hd]
  · rw [if_neg he, List.getElem?_set_ne (Ne.symm he), left]

/-- A chain that is owed a word waits. -/
theorem Counted.left_ne_zero (h : r.Counted g stage) {c d : Nat} (hc : c < g.chains.length)
    (hd : d < g.chains.length) (howed : d ∈ (stage c).owed g c) : r.left d ≠ 0 := by
  rw [h.left_eq d hd, Nat.ne_zero_iff_zero_lt, List.countP_pos_iff]
  exact ⟨c, List.mem_range.2 hc, by simpa using howed⟩

/-! ### Telling a chain -/

/-- The stages when chain `c` has told chain `d` and still has to tell others. Chain `d` is started
if nobody else owes it a word. -/
def toldStage (g : ChainGraph) (r : Run σ) (stage : Nat → Stage) (c d : Nat) (ds : List Nat) :
    Nat → Stage :=
  Function.update
    (if r.left d = 1 then Function.update stage d (.active (.walking (g.opsOf d))) else stage) c
    (.active (.releasing ds))

section Told

variable {c d x : Nat} {ds : List Nat}

theorem toldStage_self : toldStage g r stage c d ds c = .active (.releasing ds) :=
  Function.update_self ..

theorem toldStage_child (hdc : d ≠ c) (hwait : stage d = .waiting) :
    toldStage g r stage c d ds d =
      if r.left d = 1 then .active (.walking (g.opsOf d)) else .waiting := by
  rw [toldStage, Function.update_of_ne hdc]
  split
  · rw [Function.update_self]
  · exact hwait

theorem toldStage_of_ne (hxc : x ≠ c) (hxd : x ≠ d) :
    toldStage g r stage c d ds x = stage x := by
  rw [toldStage, Function.update_of_ne hxc]
  split
  · rw [Function.update_of_ne hxd]
  · rfl

/-- Only the chain that tells owes less. -/
theorem owed_toldStage_of_ne (hwait : stage d = .waiting) (hxc : x ≠ c) :
    (toldStage g r stage c d ds x).owed g x = (stage x).owed g x := by
  by_cases hxd : x = d
  · subst hxd
    rw [toldStage_child hxc hwait, hwait]
    split <;> rfl
  · rw [toldStage_of_ne hxc hxd]

end Told

/-- A chain tells one of the chains that wait for it. -/
theorem Counted.release (h : r.Counted g stage) {c d : Nat} {ds : List Nat}
    (hc : c < g.chains.length) (hd : d < g.chains.length)
    (hstage : stage c = .active (.releasing (d :: ds))) (hds : d ∉ ds) :
    (r.release g d).Counted g (toldStage g r stage c d ds) := by
  have howed : d ∈ (stage c).owed g c := by rw [hstage]; exact List.mem_cons_self
  have hleft := h.left_ne_zero hc hd howed
  have hwait := (h.waiting_iff d hd).2 hleft
  have hdc : d ≠ c := by rintro rfl; rw [hstage] at hwait; cases hwait
  have hlen : d < r.pending.length := by rw [h.length_pending]; exact hd
  refine ⟨?_, fun e he => ?_, fun e he => ?_⟩
  · rw [Run.release]
    split <;> simpa [lower, spawn, note] using h.length_pending
  · rw [left_release g hlen]
    split
    · next hed =>
      subst hed
      have hone := countP_range_eq_succ hc (p := fun x => e ∈ (stage x).owed g x)
        (q := fun x => e ∈ (toldStage g r stage c e ds x).owed g x) (by simpa using howed)
        (by simpa [toldStage_self, Stage.owed] using hds)
        (fun x hx => by rw [owed_toldStage_of_ne hwait hx])
      rw [h.left_eq e he, hone, Nat.add_sub_cancel]
    · next hed =>
      rw [h.left_eq e he]
      refine List.countP_congr fun x _ => ?_
      by_cases hx : x = c
      · subst hx
        simp [hstage, toldStage_self, Stage.owed, hed]
      · rw [owed_toldStage_of_ne hwait hx]
  · rw [left_release g hlen]
    by_cases hed : e = d
    · subst hed
      rw [toldStage_child hdc hwait, if_pos rfl]
      split
      · next h1 => simp [h1]
      · next h1 =>
        simp only [true_iff]
        omega
    · rw [if_neg hed, ← h.waiting_iff e he]
      by_cases hec : e = c
      · subst hec
        simp [hstage, toldStage_self]
      · rw [toldStage_of_ne hec hed]

end Counted

/-! ## The invariant of a run -/

/-- Tasks, account and counters fit the stages of the chains. -/
structure Ledger (g : ChainGraph) (r : Run σ) (stage : Nat → Stage) : Prop where
  placed : r.Placed g stage
  counted : r.Counted g stage

/-- The chains that wait for no other are active from the start. -/
def startStage (g : ChainGraph) (c : Nat) : Stage :=
  if c ∈ g.roots then .active (.walking (g.opsOf c)) else .waiting

section Ledger

variable {g : ChainGraph} {nodes : List Node} {mode : Mode} {r r' s : Run σ}
  {stage : Nat → Stage}

theorem mem_roots_iff {c : Nat} :
    c ∈ g.roots ↔ c < g.chains.length ∧ g.parentCounts[c]? = some 0 := by
  simp [ChainGraph.roots]

theorem nodup_roots : g.roots.Nodup := List.nodup_range.filter _

theorem history_init (g : ChainGraph) (ops : List (Operator σ)) (heap : Heap) (i : Nat) :
    (init g ops heap).history i = [] := by
  simp [history, init, Event.op?]

theorem placed_init (g : ChainGraph) (ops : List (Operator σ)) (heap : Heap) :
    (init g ops heap).Placed g (startStage g) := by
  refine ⟨?_, fun t => ?_, fun {c} hc => ?_, fun c => ?_, fun c => ?_, fun i _ => ?_⟩
  · have hchains : (g.roots.map g.task).map (·.chain) = g.roots := by
      rw [List.map_map]
      exact List.map_id _
    exact hchains ▸ nodup_roots
  · obtain ⟨c, phase⟩ := t
    simp only [init, List.mem_map, ChainGraph.task, Task.mk.injEq, startStage]
    constructor
    · rintro ⟨c, hc, rfl, rfl⟩
      rw [if_pos hc]
    · intro h
      split at h
      · next hc => exact ⟨c, hc, rfl, by simpa using h⟩
      · cases h
  · rw [startStage] at hc
    split at hc
    · next hroot => exact (mem_roots_iff.1 hroot).1
    · exact absurd rfl hc
  · have hcount : (g.roots.map Event.spawned).count (.spawned c) = g.roots.count c :=
      List.count_map_of_injective _ _ (fun _ _ h => Event.spawned.inj h) _
    rw [startStage, init, hcount, nodup_roots.count]
    split <;> simp
  · have hfresh : ∀ i, (init g ops heap).Fresh i := history_init g ops heap
    rw [startStage]
    split
    · exact ⟨[], by simp, by simp, fun i _ => hfresh i⟩
    · exact fun i _ => hfresh i
  · exact history_init g ops heap i

theorem counted_init (hg : g.QuotientOf nodes) (ops : List (Operator σ)) (heap : Heap) :
    (init g ops heap).Counted g (startStage g) := by
  have hleft : ∀ d < g.chains.length, (init g ops heap).left d =
      (List.range g.chains.length).countP fun c => d ∈ g.childrenOf c := by
    intro d hd
    rw [left, init, hg.getElem?_parentCounts hd, Option.getD_some]
  refine ⟨?_, fun d hd => ?_, fun d hd => ?_⟩
  · simp [init, hg.parentCounts_eq]
  · rw [hleft d hd]
    refine List.countP_congr fun c _ => ?_
    rw [startStage]
    split <;> rfl
  · have hroot : d ∈ g.roots ↔ (init g ops heap).left d = 0 := by
      rw [mem_roots_iff, left, init, hg.getElem?_parentCounts hd]
      simp [hd]
    rw [Ne, ← hroot, startStage]
    split
    · next hd => simp [hd]
    · next hd => simp [hd]

theorem ledger_init (hg : g.QuotientOf nodes) (ops : List (Operator σ)) (heap : Heap) :
    (init g ops heap).Ledger g (startStage g) :=
  ⟨placed_init g ops heap, counted_init hg ops heap⟩

theorem Ledger.move (h : r.Ledger g stage) (hg : g.QuotientOf nodes) {k : Nat} {t : Task}
    (ht : r.tasks[k]? = some t) {phase? : Option Phase} (next : Stage) {added : List Event}
    (htasks : r'.tasks = r.tasks) (hevents : r'.events = r.events ++ added)
    (hpending : r'.pending = r.pending)
    (hadded : ∀ e ∈ added, ∃ i ∈ g.opsOf t.chain, e.op? = some i)
    (hfailed : r.failed = true → r'.failed = true)
    (hnext : ∀ phase, phase? = some phase ↔ next = .active phase) (hne : next ≠ .waiting)
    (howed : next.owed g t.chain = (Stage.active t.phase).owed g t.chain)
    (hstands : r'.StandsAt g t.chain next) :
    (r'.settle k t phase?).Ledger g (Function.update stage t.chain next) where
  placed := h.placed.move hg ht htasks hevents hadded hfailed hnext hne hstands
  counted := by
    have hstage := h.placed.stage_eq (List.mem_of_getElem? ht)
    exact h.counted.move hpending (by rw [hstage, howed]) (by simp [hstage]) hne

/-- A task tells one of the chains that wait for its chain. -/
theorem Ledger.release (h : r.Ledger g stage) (hg : g.QuotientOf nodes) {k c d : Nat}
    {ds : List Nat} (ht : r.tasks[k]? = some ⟨c, .releasing (d :: ds)⟩) :
    ∃ stage', ((r.release g d).settle k ⟨c, .releasing (d :: ds)⟩
      (some (.releasing ds))).Ledger g stage' := by
  have hmem := List.mem_of_getElem? ht
  have hstage := h.placed.stage_eq hmem
  have hc := h.placed.lt_of_mem hmem
  obtain ⟨hran, hsuffix⟩ := h.placed.standsAt_of_mem hmem
  obtain ⟨-, hd⟩ := hg.lt_of_mem_childrenOf (hsuffix.subset List.mem_cons_self)
  have hds : d ∉ ds :=
    (List.nodup_cons.1 ((hg.nodup_childrenOf c).sublist hsuffix.sublist)).1
  have hwait := (h.counted.waiting_iff d hd).2
    (h.counted.left_ne_zero hc hd (by rw [hstage]; exact List.mem_cons_self))
  have hcd : c ≠ d := by rintro rfl; rw [hstage] at hwait; cases hwait
  have hcounted := h.counted.release hc hd hstage hds
  have hstands : ∀ r' : Run σ, (∀ i, r'.history i = r.history i) →
      r'.StandsAt g c (.active (.releasing ds)) := fun r' hsame =>
    ⟨fun i hi => (hsame i).trans (hran i hi), (List.suffix_cons d ds).trans hsuffix⟩
  refine ⟨toldStage g r stage c d ds, ?_,
    ⟨hcounted.length_pending, hcounted.left_eq, hcounted.waiting_iff⟩⟩
  rw [Run.release, toldStage]
  split
  · have hspawned := (h.placed.lower hg d).spawn hg hd hwait
    have ht' : ((r.lower d).spawn g d).tasks[k]? = some ⟨c, .releasing (d :: ds)⟩ := by
      have hk := (List.getElem?_eq_some_iff.1 ht).1
      exact (List.getElem?_append_left hk).trans ht
    refine hspawned.move hg ht' rfl (List.append_nil _).symm (by simp) id (by simp [eq_comm])
      (by simp) (hstands _ fun i => ?_)
    have hevents : ((r.lower d).spawn g d).events = r.events ++ [.spawned d] := rfl
    rw [history_append hevents]
    simp [Event.op?]
  · exact (h.placed.lower hg d).move hg ht rfl (List.append_nil _).symm (by simp) id
      (by simp [eq_comm]) (by simp) (hstands _ fun _ => rfl)

/-- **A step keeps the books in order.** -/
theorem ledger_advance (h : r.Ledger g stage) (hg : g.QuotientOf nodes)
    (hops : r.ops.length = nodes.length) {k : Nat} (hs : r.advance g mode k = some s) :
    ∃ stage', s.Ledger g stage' := by
  obtain ⟨⟨c, phase⟩, r', phase?, ht, hacts, rfl⟩ := exists_acts_of_advance hs
  have hstands := h.placed.standsAt_of_mem (List.mem_of_getElem? ht)
  have hnodup := hg.nodup_opsOf c
  cases hacts with
  | rest =>
    exact ⟨_, h.move hg ht (.active (.releasing (g.childrenOf c))) rfl
      (List.append_nil _).symm rfl (by simp) id (by simp [eq_comm]) (by simp) rfl
      ⟨Split.ran hstands, List.suffix_refl _⟩⟩
  | skip hfailed =>
    exact ⟨_, h.move hg ht .halted rfl (List.append_nil _).symm rfl (by simp) id
      (by simp) (by simp) rfl ⟨[], _, hstands, by simp, by simp, fun _ => hfailed⟩⟩
  | pass hfailed =>
    exact ⟨_, h.move hg ht (.active (.admitted _ _)) rfl (List.append_nil _).symm rfl
      (by simp) id (by simp [eq_comm]) (by simp) rfl hstands⟩
  | @start i todo =>
    have hi : i ∈ g.opsOf c := hstands.take.mem
    have hhist : (r.startOp i).history i = [.started i] := by
      rw [history_note_self (r := r) rfl rfl, hstands.fresh, List.nil_append]
    exact ⟨_, h.move hg ht (.active (.inFlight i todo)) rfl rfl rfl
      (by simpa [Event.op?] using hi) id (by simp [eq_comm]) (by simp) rfl
      ⟨hstands.take.note hnodup rfl rfl, hhist⟩⟩
  | @astray i todo hop =>
    have hi := hg.exists_mem_opsOf_iff.1 ⟨c, hstands.1.mem⟩
    rw [List.getElem?_eq_none_iff] at hop
    omega
  | @complete i todo op hop hout =>
    obtain ⟨hsplit, hhist⟩ := hstands
    have hran : ((r.takeIn i (op.finish mode r.heap)).note (.completed i)).Ran i := by
      rw [Ran, history_note_self (r := r) rfl rfl, hhist]
      rfl
    exact ⟨_, h.move hg ht (.active (.walking todo)) rfl rfl rfl
      (by simpa [Event.op?] using hsplit.mem) id (by simp [eq_comm]) (by simp) rfl
      ((hsplit.note hnodup rfl rfl).drop hran)⟩
  | @fail i todo op cause hop hout =>
    obtain ⟨hsplit, hhist⟩ := hstands
    have hfail : ((r.takeIn i (op.finish mode r.heap)).note (.failed i cause)).Failed i cause := by
      rw [Failed, history_note_self (r := r) rfl rfl, hhist]
      rfl
    exact ⟨_, h.move hg ht (.active (.raising i cause)) rfl rfl rfl
      (by simpa [Event.op?] using hsplit.mem) id (by simp [eq_comm]) (by simp) rfl
      ⟨todo, hsplit.note hnodup rfl rfl, hfail⟩⟩
  | @panic i todo op text hop hout =>
    obtain ⟨hsplit, hhist⟩ := hstands
    have hbroke : (((r.takeIn i (op.finish mode r.heap)).notePanic text).note
        (.panicked i)).Broke i := by
      rw [Broke, history_note_self (r := r) rfl rfl, hhist]
      exact .inl rfl
    exact ⟨_, h.move hg ht .halted rfl rfl rfl
      (by simpa [Event.op?] using hsplit.mem) id (by simp) (by simp) rfl
      ⟨[i], todo, hsplit.note hnodup rfl rfl, Nat.le_refl 1, by simpa using hbroke, by simp⟩⟩
  | raise =>
    exact ⟨_, h.move hg ht (.active (.recording _ _)) rfl (List.append_nil _).symm rfl
      (by simp) (fun _ => rfl) (by simp [eq_comm]) (by simp) rfl hstands⟩
  | @record i cause =>
    obtain ⟨todo, hsplit, hhist⟩ := hstands
    have hbroke : (r.noteFault i cause).Broke i := by
      rw [Broke, history_note_self (r := r) rfl rfl, hhist]
      exact .inr ⟨cause, rfl⟩
    exact ⟨_, h.move hg ht .halted rfl rfl rfl
      (by simpa [Event.op?] using hsplit.mem) id (by simp) (by simp) rfl
      ⟨[i], todo, hsplit.note hnodup rfl rfl, Nat.le_refl 1, by simpa using hbroke, by simp⟩⟩
  | finish =>
    exact ⟨_, h.move hg ht .done rfl (List.append_nil _).symm rfl (by simp) id
      (by simp) (by simp) rfl hstands.1⟩
  | tell hleft =>
    have hrelease := h.release hg ht
    rwa [Run.release, if_neg hleft] at hrelease
  | launch hleft =>
    have hrelease := h.release hg ht
    rwa [Run.release, if_pos hleft] at hrelease

theorem length_ops_advance {k : Nat} (hs : r.advance g mode k = some s) :
    s.ops.length = r.ops.length := by
  obtain ⟨⟨c, phase⟩, r', phase?, -, hacts, rfl⟩ := exists_acts_of_advance hs
  change r'.ops.length = r.ops.length
  cases hacts with
  | start => simp [startOp, note]
  | complete | fail => simp [takeIn, note]
  | panic => simp [takeIn, note, notePanic]
  | _ => rfl

theorem length_ops_of_steps (h : Steps g mode r s) : s.ops.length = r.ops.length := by
  induction h with
  | refl => rfl
  | step _ hk ih => rw [length_ops_advance hk, ih]

/-- **The books are in order in every state of a run.** -/
theorem ledger_of_steps (hg : g.QuotientOf nodes) {ops : List (Operator σ)} {heap : Heap}
    (hops : ops.length = nodes.length) (h : Steps g mode (init g ops heap) r) :
    ∃ stage, r.Ledger g stage := by
  induction h with
  | refl => exact ⟨_, ledger_init hg ops heap⟩
  | step hsteps hk ih =>
    obtain ⟨stage, hledger⟩ := ih
    exact ledger_advance hledger hg ((length_ops_of_steps hsteps).trans hops) hk

end Ledger

end Run
end OpNet
