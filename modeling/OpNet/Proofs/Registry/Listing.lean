import OpNet.Proofs.Registry.Account

/-!
# What a registry lists

A registry lists its operator types by their entries and does not look into them. A type without any
implementation would be listed as well, if it had an entry. It never has one: an entry is made
together with a factory in it, and nothing is ever taken out of an entry.

* `Registry.Stocked` — the invariant: there is a factory in each entry.
* `Registry.implementations?_register`, `Registry.Stocked.comply` — what one request does to the
  entries, and `Registry.stocked_ofHistory` — so every history keeps them stocked.
* `Registry.Lists`, `Registry.lists_ofHistory` — the lists of a registry agree with its lookups and
  with the requests that were made.
-/

set_option autoImplicit false

namespace OpNet
namespace Registry

variable {σ : Type} {r r' : Registry σ} {history : List (Request σ)} {opType : String}
  {device : Device}

/-! ## Entries -/

theorem pairwise_keys {α : Type} (t : Std.TreeMap String α) : t.keys.Pairwise (· < ·) :=
  t.ordered_keys.imp compareOfLessAndEq_eq_lt.1

theorem mem_opTypes_iff_implementations? :
    opType ∈ r.opTypes device ↔ ∃ e, r.implementations? opType device = some e := by
  rw [opTypes, Std.TreeMap.mem_keys, Std.TreeMap.mem_iff_isSome_getElem?,
    Option.isSome_iff_exists]
  rfl

theorem pairwise_engines (r : Registry σ) (opType : String) (device : Device) :
    (r.engines opType device).Pairwise (· < ·) := by
  rw [engines]
  cases r.implementations? opType device with
  | none => exact List.Pairwise.nil
  | some e => exact pairwise_keys e.engines

/-- An engine is listed if it has a factory. -/
theorem mem_engines_iff {engine : String} :
    engine ∈ r.engines opType device ↔ ∃ f, r.lookup opType device engine = some f := by
  rw [engines, lookup, slot?]
  cases r.implementations? opType device with
  | none => simp
  | some e =>
    rw [Std.TreeMap.mem_keys, Std.TreeMap.mem_iff_isSome_getElem?, Option.isSome_iff_exists]
    rfl

/-! ## The invariant -/

/-- There is a factory in each entry. -/
def Stocked (r : Registry σ) : Prop :=
  ∀ opType device e, r.implementations? opType device = some e →
    ∃ engine? f, e.slot? engine? = some f

theorem stocked_empty : ({} : Registry σ).Stocked := by
  intro opType device e he
  simp [implementations?] at he

/-- An entry was there before a registration, or has its factory. -/
theorem implementations?_register {engine? : Option String} {f : Factory σ} {opType' : String}
    {device' : Device} {e : Entry σ}
    (h : (r.register opType' device' engine? f).2.implementations? opType device = some e) :
    r.implementations? opType device = some e ∨ e.slot? engine? = some f := by
  rw [register] at h
  dsimp only at h
  split at h
  · exact .inl h
  · by_cases hd : device = device'
    · subst hd
      rw [implementations?, ByDevice.get_modify_self, Std.TreeMap.getElem?_insert] at h
      split at h
      · obtain rfl := Option.some.inj h
        exact .inr (by rw [slot?_fill, if_pos rfl])
      · exact .inl h
    · rw [implementations?, ByDevice.get_modify_of_ne _ _ hd] at h
      exact .inl h

theorem Stocked.register (h : r.Stocked) (opType : String) (device : Device)
    (engine? : Option String) (f : Factory σ) : (r.register opType device engine? f).2.Stocked := by
  intro opType' device' e he
  rcases implementations?_register he with hold | hnew
  · exact h opType' device' e hold
  · exact ⟨engine?, f, hnew⟩

theorem Stocked.congr (h : r.Stocked) (hentries : r'.entries = r.entries) : r'.Stocked := by
  unfold Stocked implementations? at *
  rwa [hentries]

/-- No request leaves an entry without a factory, whether it is accepted or refused. -/
theorem Stocked.comply (h : r.Stocked) (q : Request σ) : (r.comply q).Stocked := by
  cases q with
  | register opType device engine? f => exact h.register opType device engine? f
  | registerKernel opType engine? cx make =>
    exact h.register opType cx.device engine? (cx.factory make)
  | registerSchema s => exact h.congr (r.entries_comply_registerSchema s)
  | preferGlobally device engines => exact h.congr rfl
  | preferFor opType device engines =>
    exact h.congr (r.entries_comply_preferFor opType device engines)

theorem stocked_ofHistory (history : List (Request σ)) : (ofHistory history).Stocked :=
  List.foldlRecOn history comply stocked_empty fun _ h q _ => h.comply q

/-- Where the entries are stocked, a type is listed if it has an implementation. -/
theorem Stocked.mem_opTypes_iff (h : r.Stocked) :
    opType ∈ r.opTypes device ↔ r.contains opType device := by
  rw [mem_opTypes_iff_implementations?, contains_iff]
  constructor
  · rintro ⟨e, he⟩
    obtain ⟨engine?, f, hf⟩ := h opType device e he
    exact ⟨engine?, f, by rw [slot?, he, Option.bind_some, hf]⟩
  · rintro ⟨engine?, f, hf⟩
    obtain ⟨e, he, -⟩ := Option.bind_eq_some_iff.1 hf
    exact ⟨e, he⟩

/-! ## The lists -/

theorem contains_iff_lookup : r.contains opType device ↔
    (∃ f, r.lookupDefault opType device = some f) ∨
      ∃ engine f, r.lookup opType device engine = some f := by
  rw [contains_iff]
  constructor
  · rintro ⟨_ | engine, f, hf⟩
    · exact .inl ⟨f, hf⟩
    · exact .inr ⟨engine, f, hf⟩
  · rintro (⟨f, hf⟩ | ⟨engine, f, hf⟩)
    · exact ⟨none, f, hf⟩
    · exact ⟨some engine, f, hf⟩

/-- What a registry lists, looks up and was asked to register is the same. -/
structure Lists (history : List (Request σ)) (r : Registry σ) : Prop where
  pairwise_opTypes : ∀ device, (r.opTypes device).Pairwise (· < ·)
  mem_opTypes_iff : ∀ opType device, opType ∈ r.opTypes device ↔ r.contains opType device
  contains_iff : ∀ opType device, r.contains opType device ↔
    (∃ f, r.lookupDefault opType device = some f) ∨
      ∃ engine f, r.lookup opType device engine = some f
  /-- A type has an implementation if one was registered. -/
  registered_iff : ∀ opType device,
    r.contains opType device ↔ ∃ q ∈ history, q.Implements opType device
  pairwise_engines : ∀ opType device, (r.engines opType device).Pairwise (· < ·)
  mem_engines_iff : ∀ opType device engine,
    engine ∈ r.engines opType device ↔ ∃ f, r.lookup opType device engine = some f

/-- **A registry lists what it finds.** After any requests, accepted or refused, the operator types
that are listed are those with a default factory or the factory of an engine, and the engines that
are listed are those with a factory, all in order. -/
theorem lists_ofHistory (history : List (Request σ)) : Lists history (ofHistory history) where
  pairwise_opTypes _ := pairwise_keys _
  mem_opTypes_iff _ _ := (stocked_ofHistory history).mem_opTypes_iff
  contains_iff _ _ := contains_iff_lookup
  registered_iff _ _ := contains_ofHistory_iff
  pairwise_engines opType device := pairwise_engines _ opType device
  mem_engines_iff _ _ _ := mem_engines_iff

end Registry
end OpNet
