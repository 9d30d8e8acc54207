import OpNet.Proofs.Net.Order

/-!
# What is on record

A run keeps a flag, a fault and a panic beside the account of its events. The account says what they
are.

* `Run.offers` — the faults that were offered for the record, in order.
* `Run.Recorded` — the flag stands for a failure, the fault on record is the first one offered, and
  the panic stands for a panic; `Run.Reachable.recorded` says so of every state of a run.
-/

set_option autoImplicit false

namespace OpNet

/-- The fault that an event offers for the record. -/
def Event.offer? : Event → Option Fault
  | .recorded _ cause => some cause
  | _ => none

namespace Run

variable {σ : Type}

/-- The faults offered for the record so far, the first one first. -/
def offers (r : Run σ) : List Fault := r.events.filterMap Event.offer?

/-- The flag, the fault on record and the panic on record fit the account of events. -/
structure Recorded (r : Run σ) : Prop where
  exists_failed : r.failed = true → ∃ i cause, .failed i cause ∈ r.events
  /-- The flag is up before a fault is offered for the record. -/
  failed_of_recording : ∀ t ∈ r.tasks, ∀ i cause, t.phase = .recording i cause → r.failed = true
  failed_of_offers : r.offers ≠ [] → r.failed = true
  firstFault_eq : r.firstFault = r.offers.head?
  exists_panicked : r.firstPanic ≠ none → ∃ i, .panicked i ∈ r.events

theorem offers_note {r r' : Run σ} {e : Event} (h : r'.events = r.events ++ [e]) :
    r'.offers = r.offers ++ e.offer?.toList := by
  rw [offers, offers, h, List.filterMap_append]
  cases he : e.offer? <;> simp [he]

theorem recorded_init (g : ChainGraph) (ops : List (Operator σ)) (heap : Heap) :
    (init g ops heap).Recorded := by
  have hoffers : (init g ops heap).offers = [] := by simp [offers, init, Event.offer?]
  refine ⟨by simp [init], fun t ht i cause hphase => ?_, fun h => absurd hoffers h, ?_,
    by simp [init]⟩
  · obtain ⟨c, -, rfl⟩ := List.mem_map.1 ht
    cases hphase
  · rw [hoffers]
    rfl

section Reachable

variable {nodes : List Node} {g : ChainGraph} {mode : Mode} {r s : Run σ}

/-- A step that offers nothing. -/
theorem Recorded.note (h : r.Recorded) {r' : Run σ} {k : Nat} {t : Task} {phase? : Option Phase}
    {added : List Event} (hevents : r'.events = r.events ++ added)
    (hadded : ∀ e ∈ added, e.offer? = none) (hfailed : r'.failed = r.failed)
    (hfault : r'.firstFault = r.firstFault)
    (hpanic : r'.firstPanic = r.firstPanic ∨ ∃ i, .panicked i ∈ added)
    (hrecording : ∀ u ∈ (r'.settle k t phase?).tasks, ∀ i cause, u.phase = .recording i cause →
      u ∈ r.tasks) :
    (r'.settle k t phase?).Recorded := by
  have hoffers : (r'.settle k t phase?).offers = r.offers := by
    change r'.events.filterMap Event.offer? = r.offers
    rw [hevents, List.filterMap_append, List.filterMap_eq_nil_iff.2 hadded, List.append_nil]
    rfl
  have hmem : ∀ e, e ∈ (r'.settle k t phase?).events ↔ e ∈ r.events ∨ e ∈ added := fun e => by
    change e ∈ r'.events ↔ _
    rw [hevents, List.mem_append]
  refine ⟨fun hf => ?_, fun u hu i cause hup => ?_, fun hne => ?_, ?_, fun hne => ?_⟩
  · obtain ⟨i, cause, hi⟩ := h.exists_failed (hfailed ▸ hf)
    exact ⟨i, cause, (hmem _).2 (.inl hi)⟩
  · exact hfailed.trans (h.failed_of_recording u (hrecording u hu i cause hup) i cause hup)
  · rw [hoffers] at hne
    exact hfailed.trans (h.failed_of_offers hne)
  · rw [hoffers]
    exact hfault.trans h.firstFault_eq
  · rcases hpanic with hsame | ⟨i, hi⟩
    · obtain ⟨i, hi⟩ := h.exists_panicked (hsame ▸ hne)
      exact ⟨i, (hmem _).2 (.inl hi)⟩
    · exact ⟨i, (hmem _).2 (.inr hi)⟩

/-- **A step keeps the record in order.** -/
theorem recorded_advance (h : r.Recorded) (hr : r.Reachable nodes g mode) {k : Nat}
    (hs : r.advance g mode k = some s) : s.Recorded := by
  obtain ⟨⟨c, phase⟩, r', phase?, ht, hacts, rfl⟩ := exists_acts_of_advance hs
  have hmem := List.mem_of_getElem? ht
  obtain ⟨stage, hledger⟩ := hr.ledger
  have hstands := hledger.placed.standsAt_of_mem hmem
  have hrecording (hphase : ∀ i cause, phase? ≠ some (.recording i cause)) :
      ∀ u ∈ (r'.settle k ⟨c, phase⟩ phase?).tasks, ∀ i cause, u.phase = .recording i cause →
        u ∈ r.tasks := by
    intro u hu i cause hup
    rcases hacts.mem_tasks_settle hu with hu | hu | ⟨d, rfl⟩
    · exact hu
    · exact absurd (hup ▸ hu) (hphase i cause)
    · cases hup
  cases hacts with
  | rest | skip | pass | tell | finish =>
    exact h.note (List.append_nil _).symm (by simp) rfl rfl (.inl rfl) (hrecording (by simp))
  | start | complete | fail | launch =>
    exact h.note rfl (by simp [Event.offer?]) rfl rfl (.inl rfl) (hrecording (by simp))
  | panic =>
    exact h.note rfl (by simp [Event.offer?]) rfl rfl (.inr ⟨_, List.mem_singleton_self _⟩)
      (hrecording (by simp))
  | @astray i todo hop =>
    have hi := hr.1.exists_mem_opsOf_iff.1 ⟨c, hstands.1.mem⟩
    rw [List.getElem?_eq_none_iff, hr.length_ops] at hop
    exact absurd hi (Nat.not_lt.2 hop)
  | @raise i cause =>
    obtain ⟨todo, hsplit, hfail⟩ := hstands
    exact ⟨fun _ => ⟨i, cause, mem_events_of_history hfail (by simp)⟩, fun _ _ _ _ _ => rfl,
      fun _ => rfl, h.firstFault_eq, h.exists_panicked⟩
  | @record i cause =>
    have hfailed := h.failed_of_recording _ hmem i cause rfl
    have hoffers : (r.noteFault i cause).offers = r.offers ++ [cause] :=
      offers_note (e := .recorded i cause) rfl
    refine ⟨fun _ => ?_, fun _ _ _ _ _ => hfailed, fun _ => hfailed, ?_, fun hne => ?_⟩
    · obtain ⟨j, cause', hj⟩ := h.exists_failed hfailed
      exact ⟨j, cause', List.mem_append_left _ hj⟩
    · change r.firstFault.or (some cause) = (r.noteFault i cause).offers.head?
      rw [hoffers, List.head?_append, h.firstFault_eq]
      rfl
    · obtain ⟨j, hj⟩ := h.exists_panicked hne
      exact ⟨j, List.mem_append_left _ hj⟩

/-- **The record is in order in every state of a run.** -/
theorem Reachable.recorded (h : r.Reachable nodes g mode) : r.Recorded := by
  obtain ⟨hg, ops, heap, hops, hsteps⟩ := h
  induction hsteps with
  | refl => exact recorded_init g ops heap
  | step hsteps hk ih => exact recorded_advance ih ⟨hg, ops, heap, hops, hsteps⟩ hk

end Reachable

end Run
end OpNet
