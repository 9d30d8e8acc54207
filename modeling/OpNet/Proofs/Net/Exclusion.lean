import OpNet.Proofs.Net.Lifetime

/-!
# Operators in flight do not disturb each other

Only one operator writes a given blob at a time, and nobody reads the blob while it does. No lock
sees to that: it follows from the order in which operators start.

* `Run.Reachable.not_conflicts` — operators in flight together are not in conflict.
* `DagNet.inFlight_apart` — what that means for the blobs that they name.
-/

set_option autoImplicit false

namespace OpNet

variable {σ : Type}

/-- Operators that are not in conflict write nothing that the other one names. -/
theorem apart_of_not_conflicts {ops : List OperatorDef} {i j : Nat} {a b : OperatorDef}
    (hij : i < j) (ha : ops[i]? = some a) (hb : ops[j]? = some b) (h : ¬Conflicts ops i j) :
    (∀ blob ∈ a.outputs, blob ∉ b.inputs ∧ blob ∉ b.outputs) ∧
      ∀ blob ∈ b.outputs, blob ∉ a.inputs ∧ blob ∉ a.outputs := by
  have hnone : ¬∃ blob, blob ∈ a.outputs ∧ (blob ∈ b.inputs ∨ blob ∈ b.outputs) ∨
      blob ∈ a.inputs ∧ blob ∈ b.outputs := by
    rintro ⟨blob, ⟨hout, huse⟩ | ⟨hin, hout⟩⟩
    · exact h ⟨hij, a, b, ha, hb, .inl ⟨blob, hout, huse⟩⟩
    · exact h ⟨hij, a, b, ha, hb, .inr ⟨blob, hin, hout⟩⟩
  refine ⟨fun blob hout => ⟨fun hin => ?_, fun hout' => ?_⟩,
    fun blob hout => ⟨fun hin => ?_, fun hout' => ?_⟩⟩
  · exact hnone ⟨blob, .inl ⟨hout, .inl hin⟩⟩
  · exact hnone ⟨blob, .inl ⟨hout, .inr hout'⟩⟩
  · exact hnone ⟨blob, .inr ⟨hin, hout⟩⟩
  · exact hnone ⟨blob, .inl ⟨hout', .inr hout⟩⟩

theorem Run.Reachable.history_of_inFlight {nodes : List Node} {g : ChainGraph} {mode : Mode}
    {r : Run σ} {i : Nat} (h : r.Reachable nodes g mode) (hi : r.InFlight i) :
    i < nodes.length ∧ r.history i = [.started i] := by
  obtain ⟨stage, hplaced, -⟩ := h.ledger
  obtain ⟨⟨c, phase⟩, ht, todo, rfl⟩ := hi
  have hstands := hplaced.standsAt_of_mem ht
  exact ⟨h.1.exists_mem_opsOf_iff.1 ⟨c, hstands.1.mem⟩, hstands.2⟩

/-- **Operators in flight together are not in conflict**: the later one would have waited for the
earlier one to complete. -/
theorem Run.Reachable.not_conflicts {ops : List OperatorDef} {g : ChainGraph} {mode : Mode}
    {r : Run σ} {i j : Nat} (h : r.Reachable (dependencies ops) g mode) (hi : r.InFlight i)
    (hj : r.InFlight j) : ¬Conflicts ops i j := by
  intro hconflict
  have hstarted : .started j ∈ r.events :=
    mem_events_of_history (h.history_of_inFlight hj).2 (List.mem_singleton_self _)
  have hran := h.ran_of_completed (h.completed_of_reaches (reaches_of_conflicts hconflict) hstarted)
  simp [Ran, (h.history_of_inFlight hi).2] at hran

/-- **Exclusion.** In every state of every run of a dag net, two operators that are in flight write
no blob that the other one reads or writes. -/
theorem DagNet.inFlight_apart {r : Registry σ} {pools : WorkerPools} {s : Store} {ws : String}
    {d : NetDef} {net net' : DagNet σ}
    (hnet : (r.createNetOf pools .dag s ws d).outcome = .ok (.dag net)) (hlater : net.Later net')
    {mode : Mode} {heap : Heap} {e : Run σ}
    (hsteps : Run.Steps net'.graph mode (net'.start heap) e) {i j : Nat} (hi : e.InFlight i)
    (hj : e.InFlight j) (hij : i ≠ j) :
    ∃ a b, d.ops[i]? = some a ∧ d.ops[j]? = some b ∧
      (∀ blob ∈ a.outputs, blob ∉ b.inputs ∧ blob ∉ b.outputs) ∧
      ∀ blob ∈ b.outputs, blob ∉ a.inputs ∧ blob ∉ a.outputs := by
  have hreach := reachable_of_steps hnet hlater hsteps
  have hilt := (hreach.history_of_inFlight hi).1
  have hjlt := (hreach.history_of_inFlight hj).1
  rw [length_dependencies] at hilt hjlt
  have ha : d.ops[i]? = some d.ops[i] := List.getElem?_eq_getElem hilt
  have hb : d.ops[j]? = some d.ops[j] := List.getElem?_eq_getElem hjlt
  refine ⟨d.ops[i], d.ops[j], ha, hb, ?_⟩
  rcases Nat.lt_or_gt_of_ne hij with hlt | hlt
  · exact apart_of_not_conflicts hlt ha hb (hreach.not_conflicts hi hj)
  · exact (apart_of_not_conflicts hlt hb ha (hreach.not_conflicts hj hi)).symm

/-- The two copies of a copy can be in flight together, and name no blob that the other one
writes. -/
theorem fork_inFlight_apart : ∃ e,
    (Fork.registry.createNetOf .plentiful .dag {} "" Fork.definition).outcome =
        .ok (.dag Fork.net) ∧
      Fork.net.Later Fork.net ∧ Run.Steps Fork.net.graph .sync (Fork.net.start Fork.fed) e ∧
      e.InFlight 1 ∧ e.InFlight 2 ∧ ∃ a b,
        Fork.definition.ops[1]? = some a ∧ Fork.definition.ops[2]? = some b ∧
          (∀ blob ∈ a.outputs, blob ∉ b.inputs ∧ blob ∉ b.outputs) ∧
          ∀ blob ∈ b.outputs, blob ∉ a.inputs ∧ blob ∉ a.outputs := by
  have htasks : ((Fork.net.start Fork.fed).along Fork.net.graph .sync
      [0, 0, 0, 0, 0, 0, 1, 1, 2, 2]).map (·.tasks) =
        some [⟨0, .releasing []⟩, ⟨1, .inFlight 1 []⟩, ⟨2, .inFlight 2 []⟩] := by decide
  obtain ⟨e, he, htasks⟩ := Option.map_eq_some_iff.1 htasks
  have hsteps := Run.steps_iff_exists_along.2 ⟨_, he⟩
  have h1 : e.InFlight 1 := ⟨⟨1, .inFlight 1 []⟩, by simp [htasks], [], rfl⟩
  have h2 : e.InFlight 2 := ⟨⟨2, .inFlight 2 []⟩, by simp [htasks], [], rfl⟩
  exact ⟨e, Fork.createNetOf_eq, .new, hsteps, h1, h2,
    DagNet.inFlight_apart Fork.createNetOf_eq .new hsteps h1 h2 (by decide)⟩

end OpNet
