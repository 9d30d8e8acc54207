import OpNet.Net.Schedule

/-!
# What one step of a run can do

A step takes one task one action further. `Run.Acts` lists the actions, one case for each, with what
the case knows about the state: facts about runs are proved by going through this list, and nobody
has to open `Run.act`.

* `Run.Acts`, `Run.exists_acts_of_advance` — the actions, and a step as an action of one task.
* `Run.along` — the same for a list of choices; `Run.steps_iff_exists_along` says that these lists
  are the schedules, and `Run.length_add_weight_le` that none is endless.
* `Run.history` — what has happened to an operator so far; `Run.history_note_self` and
  `Run.history_note_of_ne` say how it grows.
-/

set_option autoImplicit false

namespace OpNet

/-- The operator that an event is about. -/
def Event.op? : Event → Option Nat
  | .spawned _ => none
  | .started op | .completed op | .failed op _ | .recorded op _ | .panicked op => some op

namespace Run

variable {σ : Type}

/-- What can become of a run when a task of chain `c` acts, and where the task stands then. -/
inductive Acts (g : ChainGraph) (mode : Mode) (r : Run σ) (c : Nat) :
    Phase → Run σ → Option Phase → Prop
  | rest : Acts g mode r c (.walking []) r (some (.releasing (g.childrenOf c)))
  | skip {i : Nat} {todo : List Nat} (hfailed : r.failed = true) :
      Acts g mode r c (.walking (i :: todo)) r none
  | pass {i : Nat} {todo : List Nat} (hfailed : r.failed = false) :
      Acts g mode r c (.walking (i :: todo)) r (some (.admitted i todo))
  | start {i : Nat} {todo : List Nat} :
      Acts g mode r c (.admitted i todo) (r.startOp i) (some (.inFlight i todo))
  | astray {i : Nat} {todo : List Nat} (hop : r.ops[i]? = none) :
      Acts g mode r c (.inFlight i todo) (r.notePanic (outOfBounds r.ops.length i)) none
  | complete {i : Nat} {todo : List Nat} {op : Operator σ} (hop : r.ops[i]? = some op)
      (hout : (op.finish mode r.heap).outcome = .ok ()) :
      Acts g mode r c (.inFlight i todo)
        ((r.takeIn i (op.finish mode r.heap)).note (.completed i)) (some (.walking todo))
  | fail {i : Nat} {todo : List Nat} {op : Operator σ} {cause : Fault} (hop : r.ops[i]? = some op)
      (hout : (op.finish mode r.heap).outcome = .error (.fault cause)) :
      Acts g mode r c (.inFlight i todo)
        ((r.takeIn i (op.finish mode r.heap)).note (.failed i cause)) (some (.raising i cause))
  | panic {i : Nat} {todo : List Nat} {op : Operator σ} {text : String}
      (hop : r.ops[i]? = some op)
      (hout : (op.finish mode r.heap).outcome = .error (.panic text)) :
      Acts g mode r c (.inFlight i todo)
        (((r.takeIn i (op.finish mode r.heap)).notePanic text).note (.panicked i)) none
  | raise {i : Nat} {cause : Fault} :
      Acts g mode r c (.raising i cause) { r with failed := true } (some (.recording i cause))
  | record {i : Nat} {cause : Fault} :
      Acts g mode r c (.recording i cause) (r.noteFault i cause) none
  | finish : Acts g mode r c (.releasing []) r none
  | tell {d : Nat} {ds : List Nat} (hleft : r.left d ≠ 1) :
      Acts g mode r c (.releasing (d :: ds)) (r.lower d) (some (.releasing ds))
  | launch {d : Nat} {ds : List Nat} (hleft : r.left d = 1) :
      Acts g mode r c (.releasing (d :: ds)) ((r.lower d).spawn g d) (some (.releasing ds))

/-- The list of actions is complete. -/
theorem acts_act (g : ChainGraph) (mode : Mode) (r : Run σ) (t : Task) :
    Acts g mode r t.chain t.phase (r.act g mode t).1 (r.act g mode t).2 := by
  obtain ⟨c, phase⟩ := t
  cases phase with
  | walking todo =>
    cases todo with
    | nil => exact .rest
    | cons i todo =>
      simp only [act]
      split
      · next h => exact .skip h
      · next h => exact .pass (by simpa using h)
  | admitted i todo => exact .start
  | inFlight i todo =>
    simp only [act, finishOp]
    split
    · next h => exact .astray h
    · next op hop =>
      split
      · next hout => exact .complete hop hout
      · next cause hout => exact .fail hop hout
      · next text hout => exact .panic hop hout
  | raising i cause => exact .raise
  | recording i cause => exact .record
  | releasing ds =>
    cases ds with
    | nil => exact .finish
    | cons d ds =>
      simp only [act, release]
      split
      · next hleft => exact .launch hleft
      · next hleft => exact .tell hleft

/-- A step is an action of one task. -/
theorem exists_acts_of_advance {g : ChainGraph} {mode : Mode} {r s : Run σ} {k : Nat}
    (h : r.advance g mode k = some s) :
    ∃ t r' phase?, r.tasks[k]? = some t ∧ Acts g mode r t.chain t.phase r' phase? ∧
      s = r'.settle k t phase? := by
  rw [advance] at h
  split at h
  · cases h
  · next t ht => exact ⟨t, _, _, ht, acts_act g mode r t, (Option.some.inj h).symm⟩

/-- An action starts no task but that of a chain. -/
theorem Acts.mem_tasks {g : ChainGraph} {mode : Mode} {r r' : Run σ} {c : Nat} {phase : Phase}
    {phase? : Option Phase} (h : Acts g mode r c phase r' phase?) {u : Task} (hu : u ∈ r'.tasks) :
    u ∈ r.tasks ∨ ∃ d, u = g.task d := by
  cases h with
  | @launch d ds hleft =>
    rcases List.mem_append.1 hu with hu | hu
    · exact .inl hu
    · exact .inr ⟨d, List.mem_singleton.1 hu⟩
  | _ => exact .inl hu

/-- A task that is there after a step was there before, is the one that has moved, or has just been
started. -/
theorem Acts.mem_tasks_settle {g : ChainGraph} {mode : Mode} {r r' : Run σ} {c : Nat}
    {phase : Phase} {phase? : Option Phase} (h : Acts g mode r c phase r' phase?) {k : Nat}
    {t u : Task} (hu : u ∈ (r'.settle k t phase?).tasks) :
    u ∈ r.tasks ∨ phase? = some u.phase ∨ ∃ d, u = g.task d := by
  have hmove : u ∈ r'.tasks ∨ phase? = some u.phase := by
    cases phase? with
    | none => exact .inl (List.mem_of_mem_eraseIdx hu)
    | some phase =>
      rcases List.mem_or_eq_of_mem_set hu with hu | rfl
      · exact .inl hu
      · exact .inr rfl
  rcases hmove with hu | hphase
  · exact (h.mem_tasks hu).imp_right .inr
  · exact .inr (.inl hphase)

/-- A task that is there can always take a step. -/
theorem exists_advance {r : Run σ} {k : Nat} (h : k < r.tasks.length) (g : ChainGraph)
    (mode : Mode) : ∃ s, r.advance g mode k = some s := by
  rw [advance, List.getElem?_eq_getElem h]
  exact ⟨_, rfl⟩

/-- A run is over exactly when no step is left. -/
theorem over_iff_advance_eq_none {r : Run σ} (g : ChainGraph) (mode : Mode) :
    r.Over ↔ ∀ k, r.advance g mode k = none := by
  constructor
  · intro h k
    rw [advance, show r.tasks = [] from h, List.getElem?_nil]
  · intro h
    cases htasks : r.tasks with
    | nil => exact htasks
    | cons t ts =>
      obtain ⟨s, hs⟩ := exists_advance (r := r) (k := 0) (by simp [htasks]) g mode
      rw [h 0] at hs
      cases hs

/-! ## Schedules as lists -/

/-- What a schedule makes of a run: the tasks at the listed positions act one after another. -/
def along (g : ChainGraph) (mode : Mode) (r : Run σ) : List Nat → Option (Run σ)
  | [] => some r
  | k :: ks => (r.advance g mode k).bind fun s => s.along g mode ks

theorem along_append (g : ChainGraph) (mode : Mode) (r : Run σ) (ks ls : List Nat) :
    r.along g mode (ks ++ ls) = (r.along g mode ks).bind fun s => s.along g mode ls := by
  induction ks generalizing r with
  | nil => rfl
  | cons k ks ih =>
    rw [List.cons_append, along, along]
    cases r.advance g mode k with
    | none => rfl
    | some s => exact ih s

/-- A state is reached when some list of choices leads to it. -/
theorem steps_iff_exists_along {g : ChainGraph} {mode : Mode} {r s : Run σ} :
    Steps g mode r s ↔ ∃ ks, r.along g mode ks = some s := by
  constructor
  · intro h
    induction h with
    | refl => exact ⟨[], rfl⟩
    | @step s t k _ hk ih =>
      obtain ⟨ks, hks⟩ := ih
      refine ⟨ks ++ [k], ?_⟩
      rw [along_append, hks, Option.bind_some, along, hk, Option.bind_some, along]
  · rintro ⟨ks, hks⟩
    suffices h : ∀ t, Steps g mode r t → t.along g mode ks = some s → Steps g mode r s from
      h r .refl hks
    clear hks
    induction ks with
    | nil =>
      intro t ht hks
      obtain rfl := Option.some.inj hks
      exact ht
    | cons k ks ih =>
      intro t ht hks
      obtain ⟨u, hu, hks⟩ := Option.bind_eq_some_iff.1 hks
      exact ih u (.step ht hu) hks

/-- **A schedule is no longer than what it uses up.** -/
theorem length_add_weight_le {g : ChainGraph} {mode : Mode} {r s : Run σ} {ks : List Nat}
    (h : r.along g mode ks = some s) : ks.length + weight g s ≤ weight g r := by
  induction ks generalizing r with
  | nil =>
    obtain rfl := Option.some.inj h
    simp
  | cons k ks ih =>
    obtain ⟨t, ht, hks⟩ := Option.bind_eq_some_iff.1 h
    have hlt := weight_advance_lt ht
    have hle := ih hks
    rw [List.length_cons]
    omega

/-! ## The account of an operator -/

/-- What has happened to an operator so far, in order. -/
def history (r : Run σ) (i : Nat) : List Event := r.events.filter (·.op? = some i)

theorem history_append {r r' : Run σ} {added : List Event} (h : r'.events = r.events ++ added)
    (i : Nat) : r'.history i = r.history i ++ added.filter (·.op? = some i) := by
  rw [history, history, h, List.filter_append]

theorem history_note_self {r r' : Run σ} {e : Event} {i : Nat} (h : r'.events = r.events ++ [e])
    (he : e.op? = some i) : r'.history i = r.history i ++ [e] := by
  rw [history_append h]
  simp [he]

theorem history_note_of_ne {r r' : Run σ} {e : Event} {i j : Nat} (h : r'.events = r.events ++ [e])
    (he : e.op? = some i) (hne : j ≠ i) : r'.history j = r.history j := by
  rw [history_append h]
  simp [he, hne.symm]

theorem mem_history {r : Run σ} {i : Nat} {e : Event} :
    e ∈ r.history i ↔ e ∈ r.events ∧ e.op? = some i := by
  simp [history]

/-- What the account of an operator lists has happened. -/
theorem mem_events_of_history {r : Run σ} {i : Nat} {es : List Event} (h : r.history i = es)
    {e : Event} (he : e ∈ es) : e ∈ r.events :=
  (mem_history.1 (h ▸ he)).1

/-- What has happened to an operator is listed in its account. -/
theorem mem_of_history {r : Run σ} {i : Nat} {es : List Event} (h : r.history i = es) {e : Event}
    (he : e ∈ r.events) (hop : e.op? = some i) : e ∈ es :=
  h ▸ mem_history.2 ⟨he, hop⟩

/-- An event is counted in the account of its operator. -/
theorem count_history {r : Run σ} {i : Nat} {e : Event} (h : e.op? = some i) :
    (r.history i).count e = r.events.count e :=
  List.count_filter (by simpa using h)

end Run
end OpNet
