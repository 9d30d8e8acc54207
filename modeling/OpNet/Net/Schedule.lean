import OpNet.Graph.Chain
import OpNet.Operator

/-!
# Schedules of a dependency graph

The run of a net by its dependencies, as a machine whose steps are those of its workers. Every chain
of the graph becomes a task when the chains it waits for are done. A step takes one task one action
further, and any task may be the next to take a step: a schedule is a choice of tasks.

* `Phase`, `Task`, `Run` — where a task stands, and the state of a run. An operator in flight is a
  state of its own: it is started by one step and finished by another.
* `Run.advance` — one step of one task.
* `Run.Steps` — what some schedule makes of a run; everything that holds of it holds for every
  schedule.
* `Run.weight_advance_lt` — every step makes a run smaller, so every schedule ends, and
  `Run.drain` can follow one of them to its end.
-/

set_option autoImplicit false

namespace OpNet

/-! ## Tasks -/

/-- Where a task stands. -/
inductive Phase where
  /-- Between operators; those left to do are listed. -/
  | walking (todo : List Nat)
  /-- No failure was known when the task looked, so an operator is about to start; those left to do
  after it are listed. -/
  | admitted (op : Nat) (todo : List Nat)
  /-- An operator is in flight; those left to do after it are listed. -/
  | inFlight (op : Nat) (todo : List Nat)
  /-- An operator has failed, and the others have not been told yet. -/
  | raising (op : Nat) (cause : Fault)
  /-- The others have been told, and the fault is not on record yet. -/
  | recording (op : Nat) (cause : Fault)
  /-- The operators are done; the chains that still have to be told are listed. -/
  | releasing (children : List Nat)
deriving DecidableEq

/-- A chain that has been started and is not done. -/
structure Task where
  chain : Nat
  phase : Phase
deriving DecidableEq

/-- The things that happen in a run, for the account of it. -/
inductive Event where
  | spawned (chain : Nat)
  | started (op : Nat)
  | completed (op : Nat)
  | failed (op : Nat) (cause : Fault)
  /-- The fault of an operator was offered for the record; the first one is kept. -/
  | recorded (op : Nat) (cause : Fault)
  | panicked (op : Nat)
deriving DecidableEq

namespace ChainGraph

/-- The operators of a chain. -/
def opsOf (g : ChainGraph) (chain : Nat) : List Nat := g.chains[chain]?.getD []

/-- The chains that wait for a chain. -/
def childrenOf (g : ChainGraph) (chain : Nat) : List Nat := g.children[chain]?.getD []

/-- The task of a chain that has just been started. -/
def task (g : ChainGraph) (chain : Nat) : Task := ⟨chain, .walking (g.opsOf chain)⟩

/-- The chains that wait for no other. -/
def roots (g : ChainGraph) : List Nat :=
  (List.range g.chains.length).filter fun chain => g.parentCounts[chain]? = some 0

end ChainGraph

/-! ## Runs -/

/-- The state of a run. -/
structure Run (σ : Type) where
  ops : List (Operator σ)
  heap : Heap
  /-- For every chain, how many of the chains it waits for are not done. -/
  pending : List Nat
  /-- The chains that have been started and are not done. -/
  tasks : List Task
  /-- Whether the workers have been told of a failure. -/
  failed : Bool := false
  /-- The fault on record: the first one, if there are several. -/
  firstFault : Option Fault := none
  /-- The text of the first panic. -/
  firstPanic : Option String := none
  /-- What has happened so far. -/
  events : List Event := []
  /-- The lines that operators have reported so far. -/
  trace : List String := []

namespace Run

variable {σ : Type}

/-- The start of a run: the chains that wait for no other are started. One that takes no step yet
stands for one that is still to be started, so it makes no difference that all are there at once. -/
def init (g : ChainGraph) (ops : List (Operator σ)) (heap : Heap) : Run σ where
  ops := ops
  heap := heap
  pending := g.parentCounts
  tasks := g.roots.map g.task
  events := g.roots.map .spawned

/-- Adds an event to the account. -/
def note (r : Run σ) (e : Event) : Run σ := { r with events := r.events ++ [e] }

/-- Puts a panic on record; the first one stays. -/
def notePanic (r : Run σ) (text : String) : Run σ :=
  { r with firstPanic := r.firstPanic.or (some text) }

/-- Starts an operator. -/
def startOp (r : Run σ) (idx : Nat) : Run σ :=
  { r with ops := r.ops.modify idx Operator.start }.note (.started idx)

/-- Takes in what an operator has left behind. -/
def takeIn (r : Run σ) (idx : Nat) (e : Execution σ) : Run σ :=
  { r with ops := r.ops.set idx e.op, heap := e.heap, trace := r.trace ++ e.trace }

/-- Finishes an operator in flight; the answer is where its task stands then, if it goes on. -/
def finishOp (mode : Mode) (r : Run σ) (idx : Nat) (todo : List Nat) : Run σ × Option Phase :=
  match r.ops[idx]? with
  | none => (r.notePanic (outOfBounds r.ops.length idx), none)
  | some op =>
    let e := op.finish mode r.heap
    let r := r.takeIn idx e
    match e.outcome with
    | .ok () => (r.note (.completed idx), some (.walking todo))
    | .error (.fault cause) => (r.note (.failed idx cause), some (.raising idx cause))
    | .error (.panic text) => ((r.notePanic text).note (.panicked idx), none)

/-- Puts the fault of an operator on record; the first one stays. -/
def noteFault (r : Run σ) (idx : Nat) (cause : Fault) : Run σ :=
  { r with firstFault := r.firstFault.or (some cause) }.note (.recorded idx cause)

/-- How many of the chains that a chain waits for are not done. -/
def left (r : Run σ) (chain : Nat) : Nat := r.pending[chain]?.getD 0

/-- Counts one of the chains that a chain waits for as done. -/
def lower (r : Run σ) (chain : Nat) : Run σ :=
  { r with pending := r.pending.set chain (r.left chain - 1) }

/-- Starts a chain. -/
def spawn (g : ChainGraph) (r : Run σ) (chain : Nat) : Run σ :=
  { r with tasks := r.tasks ++ [g.task chain] }.note (.spawned chain)

/-- Tells a chain that one of the chains it waits for is done; if it was the last, the chain is
started. -/
def release (g : ChainGraph) (r : Run σ) (chain : Nat) : Run σ :=
  if r.left chain = 1 then (r.lower chain).spawn g chain else r.lower chain

/-- Takes a task one action further; the answer is where the task stands then, if it goes on. -/
def act (g : ChainGraph) (mode : Mode) (r : Run σ) (t : Task) : Run σ × Option Phase :=
  match t.phase with
  | .walking [] => (r, some (.releasing (g.childrenOf t.chain)))
  | .walking (idx :: todo) => (r, if r.failed then none else some (.admitted idx todo))
  | .admitted idx todo => (r.startOp idx, some (.inFlight idx todo))
  | .inFlight idx todo => r.finishOp mode idx todo
  | .raising idx cause => ({ r with failed := true }, some (.recording idx cause))
  | .recording idx cause => (r.noteFault idx cause, none)
  | .releasing [] => (r, none)
  | .releasing (chain :: chains) => (r.release g chain, some (.releasing chains))

/-- Where the tasks stand after one of them has moved on or ended. -/
def moveTask (tasks : List Task) (k : Nat) (t : Task) : Option Phase → List Task
  | some phase => tasks.set k { t with phase }
  | none => tasks.eraseIdx k

/-- Records where the task at position `k` stands after it has acted. -/
def settle (r : Run σ) (k : Nat) (t : Task) (phase? : Option Phase) : Run σ :=
  { r with tasks := moveTask r.tasks k t phase? }

/-- One step of a run: the task at position `k` goes one action further. There is no step if there
is no such task. -/
def advance (g : ChainGraph) (mode : Mode) (r : Run σ) (k : Nat) : Option (Run σ) :=
  match r.tasks[k]? with
  | none => none
  | some t =>
    let next := r.act g mode t
    some (next.1.settle k t next.2)

/-- Some schedule leads from one state of a run to another. -/
inductive Steps (g : ChainGraph) (mode : Mode) (r : Run σ) : Run σ → Prop
  | refl : Steps g mode r r
  | step {s t : Run σ} {k : Nat} (h : Steps g mode r s) (hk : s.advance g mode k = some t) :
      Steps g mode r t

/-- The run is over when no started chain is left. -/
def Over (r : Run σ) : Prop := r.tasks = []

/-- How a run that is over has ended: a panic comes before a fault. -/
def outcome (r : Run σ) : Outcome Unit :=
  match r.firstPanic, r.firstFault with
  | some text, _ => .error (.panic text)
  | none, some cause => .error (.fault cause)
  | none, none => .ok ()

/-! ## Every schedule ends -/

/-- A bound on the number of steps of a chain, apart from those of the chains that it starts. -/
def chainWeight (g : ChainGraph) (chain : Nat) : Nat :=
  5 * (g.opsOf chain).length + (g.childrenOf chain).length + 2

/-- A bound on the number of steps that a task has left. -/
def taskWeight (g : ChainGraph) (t : Task) : Nat :=
  match t.phase with
  | .walking todo => 5 * todo.length + (g.childrenOf t.chain).length + 2
  | .admitted _ todo => 5 * todo.length + (g.childrenOf t.chain).length + 6
  | .inFlight _ todo => 5 * todo.length + (g.childrenOf t.chain).length + 5
  | .raising .. => 2
  | .recording .. => 1
  | .releasing chains => chains.length + 1

/-- A bound on the number of steps of the tasks. -/
def tasksWeight (g : ChainGraph) : List Task → Nat
  | [] => 0
  | t :: ts => taskWeight g t + tasksWeight g ts

/-- A bound on the number of steps of the chains, from position `c` on, that still wait. -/
def waitingWeight (g : ChainGraph) (c : Nat) : List Nat → Nat
  | [] => 0
  | n :: ns => (if n = 0 then 0 else chainWeight g c) + waitingWeight g (c + 1) ns

/-- A bound on the number of steps that a run has left. -/
def weight (g : ChainGraph) (r : Run σ) : Nat :=
  tasksWeight g r.tasks + waitingWeight g 0 r.pending

theorem tasksWeight_append (g : ChainGraph) (ts us : List Task) :
    tasksWeight g (ts ++ us) = tasksWeight g ts + tasksWeight g us := by
  induction ts with
  | nil => simp [tasksWeight]
  | cons t ts ih => simp only [List.cons_append, tasksWeight, ih]; omega

theorem tasksWeight_set (g : ChainGraph) {ts : List Task} {k : Nat} {t u : Task}
    (h : ts[k]? = some t) :
    tasksWeight g (ts.set k u) + taskWeight g t = tasksWeight g ts + taskWeight g u := by
  induction ts generalizing k with
  | nil => simp at h
  | cons t' ts ih =>
    cases k with
    | zero =>
      obtain rfl : t' = t := by simpa using h
      simp only [List.set_cons_zero, tasksWeight]
      omega
    | succ k =>
      have := ih (k := k) (by simpa using h)
      simp only [List.set_cons_succ, tasksWeight]
      omega

theorem tasksWeight_eraseIdx (g : ChainGraph) {ts : List Task} {k : Nat} {t : Task}
    (h : ts[k]? = some t) :
    tasksWeight g (ts.eraseIdx k) + taskWeight g t = tasksWeight g ts := by
  induction ts generalizing k with
  | nil => simp at h
  | cons t' ts ih =>
    cases k with
    | zero =>
      obtain rfl : t' = t := by simpa using h
      simp only [List.eraseIdx_cons_zero, tasksWeight]
      omega
    | succ k =>
      have := ih (k := k) (by simpa using h)
      simp only [List.eraseIdx_cons_succ, tasksWeight]
      omega

/-- Lowering a counter takes the weight of its chain away when the counter reaches zero. -/
theorem waitingWeight_set_pred (g : ChainGraph) (c : Nat) (ns : List Nat) (i : Nat) :
    waitingWeight g c (ns.set i (ns[i]?.getD 0 - 1)) +
      (if ns[i]?.getD 0 = 1 then chainWeight g (c + i) else 0) = waitingWeight g c ns := by
  induction ns generalizing c i with
  | nil => simp [waitingWeight]
  | cons n ns ih =>
    cases i with
    | zero =>
      simp only [List.set_cons_zero, List.getElem?_cons_zero, Option.getD_some, waitingWeight,
        Nat.add_zero]
      by_cases h0 : n = 0
      · simp [h0]
      · by_cases h1 : n = 1
        · simp [h1]
          omega
        · have : n - 1 ≠ 0 := by omega
          simp [h0, h1, this]
    | succ i =>
      have := ih (c + 1) i
      rw [show c + 1 + i = c + (i + 1) by omega] at this
      simp only [List.set_cons_succ, List.getElem?_cons_succ, waitingWeight]
      omega

/-- Telling a chain leaves the bound as it is: what the tasks gain, the counters lose. -/
theorem weight_release (g : ChainGraph) (r : Run σ) (chain : Nat) :
    weight g (r.release g chain) = weight g r := by
  have h := waitingWeight_set_pred g 0 r.pending chain
  rw [Nat.zero_add, ← left] at h
  unfold release
  by_cases hleft : r.left chain = 1
  · rw [if_pos hleft] at h ⊢
    simp only [weight, spawn, lower, note, tasksWeight_append, tasksWeight, ChainGraph.task,
      taskWeight, Nat.add_zero]
    simp only [chainWeight] at h
    omega
  · rw [if_neg hleft] at h ⊢
    simp only [weight, lower]
    omega

/-- What an action does to the list of tasks: it may add tasks at the end, at the expense of the
counters. -/
theorem act_tasks (g : ChainGraph) (mode : Mode) (r : Run σ) (t : Task) :
    ∃ added, (r.act g mode t).1.tasks = r.tasks ++ added ∧
      tasksWeight g added + waitingWeight g 0 (r.act g mode t).1.pending =
        waitingWeight g 0 r.pending := by
  obtain ⟨chain, phase⟩ := t
  cases phase with
  | walking todo =>
    cases todo with
    | nil => exact ⟨[], by simp [act, tasksWeight]⟩
    | cons idx todo => exact ⟨[], by simp [act, tasksWeight]⟩
  | admitted idx todo => exact ⟨[], by simp [act, startOp, note, tasksWeight]⟩
  | inFlight idx todo =>
    refine ⟨[], ?_⟩
    simp only [act, finishOp]
    split
    · simp [notePanic, tasksWeight]
    · split <;> simp [takeIn, note, notePanic, tasksWeight]
  | raising idx cause => exact ⟨[], by simp [act, tasksWeight]⟩
  | recording idx cause => exact ⟨[], by simp [act, noteFault, note, tasksWeight]⟩
  | releasing chains =>
    cases chains with
    | nil => exact ⟨[], by simp [act, tasksWeight]⟩
    | cons d ds =>
      have h := weight_release g r d
      by_cases hleft : r.left d = 1
      · refine ⟨[g.task d], ?_⟩
        simp only [weight, release, hleft, if_true, spawn, lower, note, tasksWeight_append] at h
        simp only [act, release, hleft, if_true, spawn, lower, note, true_and]
        omega
      · refine ⟨[], ?_⟩
        simp only [weight, release, hleft, if_false, lower] at h
        simp only [act, release, hleft, if_false, lower, List.append_nil, tasksWeight, true_and]
        omega

/-- An action takes the task that acts closer to its end. -/
theorem taskWeight_act_lt (g : ChainGraph) (mode : Mode) (r : Run σ) (t : Task) {phase : Phase}
    (h : (r.act g mode t).2 = some phase) : taskWeight g { t with phase } < taskWeight g t := by
  obtain ⟨chain, phase₀⟩ := t
  cases phase₀ with
  | walking todo =>
    cases todo with
    | nil => cases h; simp [taskWeight]
    | cons idx todo =>
      simp only [act] at h
      split at h
      · simp at h
      · cases h
        simp [taskWeight]
        omega
  | admitted idx todo => cases h; simp [taskWeight]
  | inFlight idx todo =>
    simp only [act, finishOp] at h
    split at h
    · simp at h
    · split at h
      · cases h; simp [taskWeight]
      · cases h; simp [taskWeight]
      · simp at h
  | raising idx cause => cases h; simp [taskWeight]
  | recording idx cause => simp [act] at h
  | releasing chains =>
    cases chains with
    | nil => simp [act] at h
    | cons d ds => cases h; simp [taskWeight]

theorem taskWeight_pos (g : ChainGraph) (t : Task) : 0 < taskWeight g t := by
  obtain ⟨chain, phase⟩ := t
  cases phase <;> simp [taskWeight]

/-- **Every schedule ends.** A step makes a run smaller, whatever the graph and whichever task takes
the step. -/
theorem weight_advance_lt {g : ChainGraph} {mode : Mode} {r s : Run σ} {k : Nat}
    (h : r.advance g mode k = some s) : weight g s < weight g r := by
  unfold advance at h
  split at h
  · simp at h
  · next t ht =>
    obtain ⟨added, htasks, hsum⟩ := act_tasks g mode r t
    have hk : (r.act g mode t).1.tasks[k]? = some t := by
      rw [htasks, List.getElem?_append_left (List.getElem?_eq_some_iff.1 ht).1, ht]
    have hlen : tasksWeight g (r.act g mode t).1.tasks =
        tasksWeight g r.tasks + tasksWeight g added := by
      rw [htasks, tasksWeight_append]
    obtain rfl : (r.act g mode t).1.settle k t (r.act g mode t).2 = s := Option.some.inj h
    simp only [weight, settle]
    cases hphase : (r.act g mode t).2 with
    | none =>
      have := tasksWeight_eraseIdx g hk
      have := taskWeight_pos g t
      simp only [moveTask]
      omega
    | some phase =>
      have := tasksWeight_set g (u := { t with phase }) hk
      have := taskWeight_act_lt g mode r t hphase
      simp only [moveTask]
      omega

/-! ## One schedule -/

/-- Follows the schedule in which the oldest task always takes the next step, to its end. -/
def drain (g : ChainGraph) (mode : Mode) (r : Run σ) : Run σ :=
  match _h : r.advance g mode 0 with
  | none => r
  | some s => drain g mode s
termination_by weight g r
decreasing_by exact weight_advance_lt _h

/-- What is followed is a schedule. -/
theorem steps_drain (g : ChainGraph) (mode : Mode) (r : Run σ) :
    Steps g mode r (r.drain g mode) := by
  suffices h : ∀ s, Steps g mode r s → Steps g mode r (s.drain g mode) from h r .refl
  intro s
  induction s using drain.induct g mode with
  | case1 s hs =>
    intro h
    rw [drain]
    split
    · exact h
    · next hs' => rw [hs] at hs'; cases hs'
  | case2 s t hs ih =>
    intro h
    rw [drain]
    split
    · next hs' => rw [hs] at hs'; cases hs'
    · next t' hs' =>
      obtain rfl : t = t' := Option.some.inj (hs.symm.trans hs')
      exact ih (.step h hs)

/-- It is followed to its end. -/
theorem over_drain (g : ChainGraph) (mode : Mode) (r : Run σ) : (r.drain g mode).Over := by
  induction r using drain.induct g mode with
  | case1 r hr =>
    rw [drain]
    split
    · unfold advance at hr
      split at hr
      · next h => simpa [Over] using List.getElem?_eq_none_iff.1 h
      · cases hr
    · next hs => rw [hr] at hs; cases hs
  | case2 r s hs ih =>
    rw [drain]
    split
    · next h => rw [hs] at h; cases h
    · next s' hs' =>
      obtain rfl : s = s' := Option.some.inj (hs.symm.trans hs')
      exact ih

end Run
end OpNet
