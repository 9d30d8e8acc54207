import OpNet.Proofs.Net.Calls

/-!
# What runs leave alone

A run moves operators through the stages of their life and changes the states of their own. What an
operator is bound to and what it does stay as they were made, whatever becomes of the run and
whatever its schedule is.

* `Binding.base` — what remains of a binding when the stage of life is left out.
* `Operator.fixed` — what no run changes about an operator.
* `fixed_runInOrder`, `Run.fixed_of_steps` — a run of either kind changes nothing of it, and
  `Net.Later.map_fixed` — nor does any number of runs.
-/

set_option autoImplicit false

namespace OpNet

variable {σ : Type}

/-- A binding as it was when it was made. -/
def Binding.base (b : Binding) : Binding := { b with engine := "", state := .constructed }

/-- What no run changes about an operator: what it is bound to, and what it does. -/
def Operator.fixed (op : Operator σ) : Binding × Body σ := (op.binding.base, op.body)

theorem Operator.fixed_finish (op : Operator σ) (mode : Mode) (heap : Heap) :
    (op.finish mode heap).op.fixed = op.fixed := by
  rw [finish]
  split <;> rfl

theorem Operator.fixed_execute (op : Operator σ) (mode : Mode) (heap : Heap) :
    (op.execute mode heap).op.fixed = op.fixed :=
  op.start.fixed_finish mode heap

/-! ## Nets run in order -/

theorem fixed_runInOrder (mode : Mode) (ops : List (Operator σ)) (heap : Heap) :
    (runInOrder mode ops heap).ops.map Operator.fixed = ops.map Operator.fixed := by
  induction ops generalizing heap with
  | nil => rfl
  | cons op ops ih =>
    rw [runInOrder]
    dsimp only
    split
    · rw [List.map_cons, op.fixed_execute, List.map_cons]
    · rw [List.map_cons, op.fixed_execute, ih, List.map_cons]

/-! ## Nets run by their dependencies -/

namespace Run

variable {g : ChainGraph} {mode : Mode} {r r' : Run σ}

/-- An operator may be replaced by one that is bound alike and does the same. -/
theorem fixed_set {ops : List (Operator σ)} {i : Nat} {op op' : Operator σ}
    (hop : ops[i]? = some op) (hfixed : op'.fixed = op.fixed) :
    (ops.set i op').map Operator.fixed = ops.map Operator.fixed := by
  obtain ⟨hlt, -⟩ := List.getElem?_eq_some_iff.1 hop
  refine List.ext_getElem? fun j => ?_
  rw [List.getElem?_map, List.getElem?_map]
  by_cases hj : i = j
  · subst hj
    rw [List.getElem?_set_self hlt, hop]
    exact congrArg some hfixed
  · rw [List.getElem?_set_ne hj]

theorem fixed_startOp (r : Run σ) (i : Nat) :
    (r.startOp i).ops.map Operator.fixed = r.ops.map Operator.fixed := by
  change (r.ops.modify i Operator.start).map Operator.fixed = _
  rw [List.modify_eq_set_getElem?]
  cases hop : r.ops[i]? with
  | none => rfl
  | some op => exact fixed_set hop rfl

theorem fixed_advance {k : Nat} (h : r.advance g mode k = some r') :
    r'.ops.map Operator.fixed = r.ops.map Operator.fixed := by
  obtain ⟨⟨c, phase⟩, r', phase?, -, hacts, rfl⟩ := exists_acts_of_advance h
  change r'.ops.map _ = r.ops.map _
  cases hacts with
  | @start i => exact fixed_startOp r i
  | complete hop | fail hop | panic hop => exact fixed_set hop (Operator.fixed_finish _ mode r.heap)
  | _ => rfl

theorem fixed_of_steps (h : Steps g mode r r') :
    r'.ops.map Operator.fixed = r.ops.map Operator.fixed := by
  induction h with
  | refl => rfl
  | step _ hk ih => rw [fixed_advance hk, ih]

end Run

/-! ## Nets of either kind -/

namespace Net

theorem ops_withOps (net : Net σ) (ops : List (Operator σ)) : (net.withOps ops).ops = ops := by
  cases net <;> rfl

theorem RunsTo.map_fixed {mode : Mode} {heap : Heap} {net : Net σ} {result : NetRun σ}
    {order : List Nat} (h : net.RunsTo mode heap result order) :
    result.ops.map Operator.fixed = net.ops.map Operator.fixed := by
  cases h with
  | simple net => exact fixed_runInOrder mode net.ops heap
  | dag hsteps => exact Run.fixed_of_steps hsteps

/-- **However often a net is run, its operators are bound to the same blobs and do the same.** -/
theorem Later.map_fixed {net net' : Net σ} (h : net.Later net') :
    net'.ops.map Operator.fixed = net.ops.map Operator.fixed := by
  induction h with
  | new => rfl
  | run _ hrun ih => rw [ops_withOps, hrun.map_fixed, ih]

/-- A run of a net leaves the bindings of its operators as they were made. -/
theorem bases_of_runsTo {mode : Mode} {heap : Heap} {net : Net σ} {result : NetRun σ}
    {order : List Nat} (h : net.RunsTo mode heap result order) :
    result.ops.map (·.binding.base) = net.ops.map (·.binding.base) := by
  have hfixed := congrArg (List.map Prod.fst) h.map_fixed
  rw [List.map_map, List.map_map] at hfixed
  exact hfixed

end Net

end OpNet
