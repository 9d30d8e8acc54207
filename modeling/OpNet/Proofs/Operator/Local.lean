import OpNet.Builtin

/-!
# Local operators

What an operator may do is not limited by anything: its body is any function. The nets rely on
operators that keep to the blobs they name.

* `Operator.Local` — an operator that does not panic, depends on the values of the blobs it names
  only, and changes those of its outputs only.
* `Operator.outcome_execute`, `Operator.state_execute` — how an execution ends, and where it leaves
  the operator, by what the body has returned.
* `Operator.Local.execute_congr`, `Operator.Local.value?_execute` — what that means for an
  execution, and `Operator.Local.execute` — an execution leaves it so.
* `Builtin.local_copy` — a copy is of this kind.
-/

set_option autoImplicit false

namespace OpNet

variable {σ : Type}

/-- Where an operator stands once its body has ended in a given way. -/
def Lifecycle.after : Outcome Unit → Lifecycle
  | .ok () => .completed
  | .error (.fault _) => .failed
  | .error (.panic _) => .running

/-- What is reported when a body stops; in a fault the operator is named. -/
def Binding.tagStop (b : Binding) : Stop → Stop
  | .fault cause => .fault (b.tagFault cause)
  | .panic text => .panic text

theorem Binding.exists_of_mapError_tagStop {b : Binding} {outcome : Outcome Unit} {stop : Stop}
    (h : outcome.mapError b.tagStop = .error stop) :
    ∃ stop', outcome = .error stop' ∧ b.tagStop stop' = stop := by
  cases outcome with
  | ok => cases h
  | error stop' => exact ⟨stop', rfl, Except.error.inj h⟩

namespace Operator

/-- The blobs that an operator names. -/
def blobs (op : Operator σ) : List BlobId := op.binding.inputs ++ op.binding.outputs

/-- What the body of an operator in flight reports, when the operator has a given state of its own.
-/
def report (op : Operator σ) (mode : Mode) (inner : σ) (heap : Heap) : Report σ :=
  op.body.action mode op.start.binding inner heap

/-- **Local operators.** An execution does not panic, is a function of the operator's own state and
of the values of the blobs that it names, and changes no value but those of its outputs. -/
structure Local (op : Operator σ) : Prop where
  outcome_ne_panic : ∀ mode inner heap text,
    (op.report mode inner heap).outcome ≠ .error (.panic text)
  value?_of_not_mem : ∀ mode inner heap, ∀ b ∉ op.binding.outputs,
    (op.report mode inner heap).heap.value? b = heap.value? b
  inner_congr : ∀ mode inner heap heap', (∀ b ∈ op.blobs, heap.value? b = heap'.value? b) →
    (op.report mode inner heap).inner = (op.report mode inner heap').inner
  outcome_congr : ∀ mode inner heap heap', (∀ b ∈ op.blobs, heap.value? b = heap'.value? b) →
    (op.report mode inner heap).outcome = (op.report mode inner heap').outcome
  value?_congr : ∀ mode inner heap heap', (∀ b ∈ op.blobs, heap.value? b = heap'.value? b) →
    ∀ b ∈ op.binding.outputs, (op.report mode inner heap).heap.value? b =
      (op.report mode inner heap').heap.value? b

/-! ## Executions -/

section Execute

variable (op : Operator σ) (mode : Mode) (heap : Heap)

theorem heap_execute : (op.execute mode heap).heap = (op.report mode op.inner heap).heap := by
  unfold execute finish
  dsimp only
  split <;> rfl

/-- An execution ends the way its body does. -/
theorem outcome_execute : (op.execute mode heap).outcome =
    (op.report mode op.inner heap).outcome.mapError op.binding.tagStop := by
  change _ = (op.start.run mode heap).outcome.mapError op.binding.tagStop
  unfold execute finish
  dsimp only
  split
  · next hout => rw [hout]; rfl
  · next hout => rw [hout]; rfl
  · next hout => rw [hout]; rfl

/-- **What an execution makes of an operator** depends on what the body has returned. -/
theorem state_execute :
    (op.execute mode heap).op.state = .after (op.report mode op.inner heap).outcome := by
  change _ = Lifecycle.after (op.start.run mode heap).outcome
  unfold execute finish
  dsimp only
  split
  · next hout => rw [hout]; rfl
  · next hout => rw [hout]; rfl
  · next hout => rw [hout]; rfl

theorem outcome_execute_eq_ok_iff : (op.execute mode heap).outcome = .ok () ↔
    (op.report mode op.inner heap).outcome = .ok () := by
  rw [outcome_execute]
  cases (op.report mode op.inner heap).outcome with
  | ok => exact Iff.rfl
  | error stop => exact iff_of_false nofun nofun

/-- The next execution starts from where this one has left the operator. -/
theorem start_execute : (op.execute mode heap).op.start =
    { op.start with inner := (op.report mode op.inner heap).inner } := by
  rw [execute, finish]
  dsimp only
  split <;> rfl

theorem binding_start_execute : (op.execute mode heap).op.start.binding = op.start.binding := by
  rw [start_execute]

theorem body_execute : (op.execute mode heap).op.body = op.body := by
  have h := congrArg Operator.body (op.start_execute mode heap)
  exact h

theorem inputs_execute : (op.execute mode heap).op.binding.inputs = op.binding.inputs := by
  have h := congrArg Binding.inputs (op.binding_start_execute mode heap)
  exact h

theorem outputs_execute : (op.execute mode heap).op.binding.outputs = op.binding.outputs := by
  have h := congrArg Binding.outputs (op.binding_start_execute mode heap)
  exact h

theorem definition_execute :
    (op.execute mode heap).op.binding.definition = op.binding.definition := by
  have h := congrArg Binding.definition (op.binding_start_execute mode heap)
  exact h

theorem report_execute (mode' : Mode) :
    (op.execute mode heap).op.report mode' = op.report mode' := by
  unfold report
  rw [body_execute, binding_start_execute]

end Execute

namespace Local

variable {op : Operator σ} {mode : Mode} {heap heap' : Heap}

theorem execute (h : op.Local) (mode : Mode) (heap : Heap) : (op.execute mode heap).op.Local := by
  have hreport := op.report_execute mode heap
  have hout := op.outputs_execute mode heap
  have hblobs : (op.execute mode heap).op.blobs = op.blobs := by
    rw [blobs, hout, op.inputs_execute mode heap, blobs]
  constructor
  · simpa only [hreport] using h.outcome_ne_panic
  · simpa only [hreport, hout] using h.value?_of_not_mem
  · simpa only [hreport, hblobs] using h.inner_congr
  · simpa only [hreport, hblobs] using h.outcome_congr
  · simpa only [hreport, hblobs, hout] using h.value?_congr

theorem outcome_execute_ne_panic (h : op.Local) (mode : Mode) (heap : Heap) (text : String) :
    (op.execute mode heap).outcome ≠ .error (.panic text) := by
  intro heq
  rw [outcome_execute] at heq
  obtain ⟨cause | text', hout, htag⟩ := Binding.exists_of_mapError_tagStop heq
  · cases htag
  · exact h.outcome_ne_panic mode op.inner heap text' hout

/-- An execution changes no value but those of the outputs. -/
theorem value?_execute (h : op.Local) (mode : Mode) (heap : Heap) {b : BlobId}
    (hb : b ∉ op.binding.outputs) : (op.execute mode heap).heap.value? b = heap.value? b := by
  rw [heap_execute]
  exact h.value?_of_not_mem mode op.inner heap b hb

/-- An execution depends on the values of the blobs that the operator names only. -/
theorem execute_congr (h : op.Local) (mode : Mode)
    (hagree : ∀ b ∈ op.blobs, heap.value? b = heap'.value? b) :
    (op.execute mode heap).op = (op.execute mode heap').op ∧
      (op.execute mode heap).outcome = (op.execute mode heap').outcome ∧
      ∀ b ∈ op.binding.outputs,
        (op.execute mode heap).heap.value? b = (op.execute mode heap').heap.value? b := by
  have hinner : (op.start.run mode heap).op = (op.start.run mode heap').op :=
    congrArg (fun inner => { op.start with inner }) (h.inner_congr mode op.inner heap heap' hagree)
  have hout : (op.start.run mode heap).outcome = (op.start.run mode heap').outcome :=
    h.outcome_congr mode op.inner heap heap' hagree
  refine ⟨?_, ?_, fun b hb => ?_⟩
  · unfold Operator.execute finish
    dsimp only
    rw [hout]
    split <;> simp only [hinner]
  · unfold Operator.execute finish
    dsimp only
    rw [hout]
    split
    · rfl
    · rfl
    · exact hout
  · rw [heap_execute, heap_execute]
    exact h.value?_congr mode op.inner heap heap' hagree b hb

end Local
end Operator

/-! ## Copies -/

theorem Heap.value?_share_self (h : Heap) (b source : BlobId) :
    (h.share b source).value? b = h.value? source := by
  rw [value?, content, cell_share_self, value?]

theorem Heap.value?_share_of_ne (h : Heap) {a b : BlobId} (source : BlobId) (hne : a ≠ b) :
    (h.share b source).value? a = h.value? a := by
  rw [value?, content, cell_share_of_ne h source hne, value?, content]

/-- On the host a kernel is all there is to a body. -/
theorem DeviceContext.action_host (kernel : Action σ) (mode : Mode) :
    (DeviceContext.host.body kernel).action mode = kernel := by
  have hlaunch : DeviceContext.host.launch kernel = kernel := rfl
  cases mode with
  | sync =>
    funext b inner heap
    change DeviceContext.host.launchAndWait kernel b inner heap = _
    rw [launchAndWait, hlaunch]
    dsimp only
    split
    · rfl
    · next hout =>
      change { kernel b inner heap with
        trace := (kernel b inner heap).trace ++ [], outcome := .ok () } = kernel b inner heap
      rw [← hout, List.append_nil]
  | async => exact hlaunch

namespace Builtin

variable {op : Operator σ} {source target : BlobId} {sources targets : List BlobId}
  {name : String} {names : List String}

/-- What a copy reports: a fault if there is nothing to copy. -/
def copied (cause : Fault) (source target : BlobId) (inner : σ) (heap : Heap) : Report σ :=
  match heap.value? source with
  | none => { inner, heap, outcome := .error (.fault cause) }
  | some _ => { inner, heap := heap.share target source }

theorem copy_eq {b : Binding} (hsource : b.inputs = source :: sources)
    (htarget : b.outputs = target :: targets) (hname : b.definition.inputs = name :: names)
    (inner : σ) (heap : Heap) : copy b inner heap =
      copied (b.executionFault s!"input blob {name} is empty") source target inner heap := by
  have hin : b.input 0 = .ok source := by rw [Binding.input, hsource]; rfl
  have hout : b.output 0 = .ok target := by rw [Binding.output, htarget]; rfl
  have hnth : nth b.definition.inputs 0 = .ok name := by rw [hname]; rfl
  rw [copy, copyHeap, copied, Heap.value?]
  simp only [hin, hout, hnth, bind, Except.bind]
  cases heap.content source <;> rfl

theorem report_copy (hbody : op.body = DeviceContext.host.body copy)
    (hsource : op.binding.inputs = source :: sources)
    (htarget : op.binding.outputs = target :: targets)
    (hname : op.binding.definition.inputs = name :: names) :
    ∃ cause, ∀ mode inner heap,
      op.report mode inner heap = copied cause source target inner heap := by
  refine ⟨op.start.binding.executionFault s!"input blob {name} is empty",
    fun mode inner heap => ?_⟩
  rw [Operator.report, hbody, DeviceContext.action_host]
  exact copy_eq (b := op.start.binding) hsource htarget hname inner heap

/-- A copy from one blob to another, or to itself, is local. -/
theorem local_copy (hbody : op.body = DeviceContext.host.body copy)
    (hsource : op.binding.inputs = source :: sources)
    (htarget : op.binding.outputs = target :: targets)
    (hname : op.binding.definition.inputs = name :: names) : op.Local := by
  obtain ⟨cause, hreport⟩ := report_copy hbody hsource htarget hname
  have hmem : source ∈ op.blobs := by simp [Operator.blobs, hsource]
  constructor
  · intro mode inner heap text
    rw [hreport, copied]
    cases heap.value? source <;> simp
  · intro mode inner heap b hb
    rw [hreport, copied]
    cases heap.value? source with
    | none => rfl
    | some v => exact Heap.value?_share_of_ne heap source fun h => hb (by simp [htarget, h])
  · intro mode inner heap heap' hagree
    rw [hreport, hreport, copied, copied, hagree source hmem]
    cases heap'.value? source <;> rfl
  · intro mode inner heap heap' hagree
    rw [hreport, hreport, copied, copied, hagree source hmem]
    cases heap'.value? source <;> rfl
  · intro mode inner heap heap' hagree b hb
    have hb' := hagree b (List.mem_append_right _ hb)
    have hs := hagree source hmem
    rw [hreport, hreport, copied, copied, hs]
    cases hv : heap'.value? source with
    | none => exact hb'
    | some v =>
      by_cases hbt : b = target
      · subst hbt
        change (heap.share b source).value? b = (heap'.share b source).value? b
        rw [Heap.value?_share_self, Heap.value?_share_self, hs]
      · change (heap.share target source).value? b = (heap'.share target source).value? b
        rw [Heap.value?_share_of_ne _ _ hbt, Heap.value?_share_of_ne _ _ hbt, hb']

theorem local_of_copies {ops : List (Operator σ)} {n : Nat}
    (hbodies : ops.map (·.body) = List.replicate n (DeviceContext.host.body copy))
    (hblobs : ∀ op ∈ ops, op.binding.inputs ≠ [] ∧ op.binding.outputs ≠ [] ∧
      op.binding.definition.inputs ≠ []) : ∀ op ∈ ops, op.Local := by
  intro op hop
  obtain ⟨hin, hout, hname⟩ := hblobs op hop
  obtain ⟨source, sources, hsource⟩ := List.exists_cons_of_ne_nil hin
  obtain ⟨target, targets, htarget⟩ := List.exists_cons_of_ne_nil hout
  obtain ⟨name, names, hnames⟩ := List.exists_cons_of_ne_nil hname
  have hbody : op.body ∈ ops.map (·.body) := List.mem_map_of_mem hop
  rw [hbodies] at hbody
  exact local_copy (List.eq_of_mem_replicate hbody) hsource htarget hnames

end Builtin

end OpNet
