import OpNet.Proofs.History
import OpNet.Proofs.Registry.History

/-!
# What a registry tells after its history

Implementations and schemas stay as they were registered first, and preferences are as they were set
last. What one key has is not affected by requests for another, nor by requests that are refused.

* `Registry.Complies`, `Registry.complies` — what each request does, and when.
* `Registry.firstSchema?` — the well-formed schema that was registered first for an operator type.
* `Registry.Request.Implements`, `Registry.contains_ofHistory_iff` — an operator type has an
  implementation once one was registered.
* `Registry.Prefers`, `Registry.PrefersGlobally` — the requests that decide the preferences.
* `Registry.Account`, `Registry.account_ofHistory` — all that a registry tells after any history.
-/

set_option autoImplicit false

namespace OpNet
namespace Registry

variable {σ : Type} {r : Registry σ} {history : List (Request σ)}

@[simp] theorem ofHistory_concat (history : List (Request σ)) (q : Request σ) :
    ofHistory (history ++ [q]) = (ofHistory history).comply q := by
  rw [ofHistory, List.foldl_append]
  rfl

/-! ## What requests do -/

theorem exists_register_eq (r : Registry σ) (opType : String) (device : Device)
    (engine? : Option String) (f : Factory σ) :
    ∃ entries, (r.register opType device engine? f).2 = { r with entries } := by
  rw [register]
  dsimp only
  split
  · exact ⟨r.entries, rfl⟩
  · exact ⟨_, rfl⟩

theorem registerSchema_of_malformed {s : Schema} (h : s.isWellFormed = false) :
    r.registerSchema s =
      .error (.other s!"malformed schema for operator {Text.quoted s.opType}") := by
  rw [registerSchema, h]
  rfl

theorem registerSchema_of_some {s s' : Schema} (h : s.isWellFormed)
    (hs : r.schema? s.opType = some s') : r.registerSchema s = .ok (false, r) := by
  rw [registerSchema, if_pos h, hs]

theorem registerSchema_of_none {s : Schema} (h : s.isWellFormed)
    (hs : r.schema? s.opType = none) :
    r.registerSchema s = .ok (true, { r with schemas := r.schemas.insert s.opType s }) := by
  rw [registerSchema, if_pos h, hs]

theorem preferFor_of_contains {opType : String} {device : Device} (h : r.contains opType device)
    (engines : List String) : r.preferFor opType device engines =
      .ok { r with opPreference := r.opPreference.modify device (·.insert opType engines) } := by
  rw [preferFor, if_pos h]

theorem preferFor_of_not_contains {opType : String} {device : Device}
    (h : ¬r.contains opType device) (engines : List String) :
    r.preferFor opType device engines = .error (.notRegistered opType device "") := by
  rw [preferFor, if_neg h]

/-- What a request does to a registry, and when. -/
inductive Complies (r : Registry σ) : Request σ → Registry σ → Prop
  | registered {opType : String} {device : Device} {engine? : Option String} {f : Factory σ}
      (entries) : Complies r (.register opType device engine? f) { r with entries }
  | kernel {opType : String} {engine? : Option String} {cx : DeviceContext σ} {make : KernelMaker σ}
      (entries) : Complies r (.registerKernel opType engine? cx make) { r with entries }
  | malformed {s : Schema} (hwf : s.isWellFormed = false) : Complies r (.registerSchema s) r
  | taken {s s' : Schema} (hwf : s.isWellFormed) (hs : r.schema? s.opType = some s') :
      Complies r (.registerSchema s) r
  | added {s : Schema} (hwf : s.isWellFormed) (hs : r.schema? s.opType = none) :
      Complies r (.registerSchema s) { r with schemas := r.schemas.insert s.opType s }
  | preferred {device : Device} {engines : List String} :
      Complies r (.preferGlobally device engines) (r.preferGlobally device engines)
  | granted {opType : String} {device : Device} {engines : List String}
      (hc : r.contains opType device) : Complies r (.preferFor opType device engines)
        { r with opPreference := r.opPreference.modify device (·.insert opType engines) }
  | refused {opType : String} {device : Device} {engines : List String}
      (hc : ¬r.contains opType device) : Complies r (.preferFor opType device engines) r

theorem complies (r : Registry σ) (q : Request σ) : r.Complies q (r.comply q) := by
  cases q with
  | register opType device engine? f =>
    obtain ⟨entries, heq⟩ := r.exists_register_eq opType device engine? f
    rw [comply, heq]
    exact .registered entries
  | registerKernel opType engine? cx make =>
    obtain ⟨entries, heq⟩ := r.exists_register_eq opType cx.device engine? (cx.factory make)
    rw [comply, registerKernel, heq]
    exact .kernel entries
  | registerSchema s =>
    rw [comply]
    cases hwf : s.isWellFormed with
    | false =>
      rw [registerSchema_of_malformed hwf]
      exact .malformed hwf
    | true =>
      cases hs : r.schema? s.opType with
      | some s' =>
        rw [registerSchema_of_some hwf hs]
        exact .taken hwf hs
      | none =>
        rw [registerSchema_of_none hwf hs]
        exact .added hwf hs
  | preferGlobally device engines => exact .preferred
  | preferFor opType device engines =>
    rw [comply]
    by_cases hc : r.contains opType device
    · rw [preferFor_of_contains hc]
      exact .granted hc
    · rw [preferFor_of_not_contains hc]
      exact .refused hc

/-! ## Schemas -/

/-- The schema that a request has for an operator type, if it is well formed. -/
def Request.schema? (opType : String) : Request σ → Option Schema
  | .registerSchema s => if s.isWellFormed ∧ opType = s.opType then some s else none
  | .register .. | .registerKernel .. | .preferGlobally .. | .preferFor .. => none

/-- The schema of the first registration for an operator type that was not refused. -/
def firstSchema? (history : List (Request σ)) (opType : String) : Option Schema :=
  history.findSome? (Request.schema? opType)

/-- A request leaves the schema of a type that has one. -/
theorem schema?_comply (r : Registry σ) (q : Request σ) (opType : String) :
    (r.comply q).schema? opType = (r.schema? opType).or (q.schema? opType) := by
  have hcomplies := r.complies q
  generalize r.comply q = r' at *
  cases hcomplies with
  | registered | kernel | preferred | granted | refused => exact (Option.or_none).symm
  | malformed hwf => rw [Request.schema?, if_neg (by simp [hwf]), Option.or_none]
  | @taken s s' hwf hs =>
    rw [Request.schema?]
    by_cases h : opType = s.opType
    · rw [h, hs]
      rfl
    · rw [if_neg (fun hand => h hand.2), Option.or_none]
  | @added s hwf hs =>
    rw [Request.schema?, schema?, Std.TreeMap.getElem?_insert]
    by_cases h : opType = s.opType
    · subst h
      simp [hs, hwf]
    · simp [h, Ne.symm h, schema?]

theorem schema?_ofHistory (history : List (Request σ)) (opType : String) :
    (ofHistory history).schema? opType = firstSchema? history opType := by
  have hfold := History.foldl_eq_or (·.schema? opType) (Request.schema? opType)
    (fun r q => schema?_comply r q opType) {} history
  have hempty : ({} : Registry σ).schema? opType = none := Std.TreeMap.getElem?_emptyc
  rwa [hempty, Option.none_or] at hfold

/-! ## Implementations -/

/-- The request registers an implementation of an operator type on a kind of device, be it that of
an engine or the default one. -/
def Request.Implements (opType : String) (device : Device) (q : Request σ) : Prop :=
  ∃ engine? f, q.factory? opType device engine? = some f

theorem Entry.exists_slot?_iff {e : Entry σ} :
    (e.default?.isSome || !e.engines.isEmpty) ↔ ∃ engine? f, e.slot? engine? = some f := by
  rw [Bool.or_eq_true, Bool.not_eq_true', Option.isSome_iff_exists,
    Std.TreeMap.isEmpty_eq_false_iff_exists_contains_eq_true]
  simp only [Std.TreeMap.contains_eq_isSome_getElem?, Option.isSome_iff_exists]
  constructor
  · rintro (⟨f, hf⟩ | ⟨engine, f, hf⟩)
    · exact ⟨none, f, hf⟩
    · exact ⟨some engine, f, hf⟩
  · rintro ⟨_ | engine, f, hf⟩
    · exact .inl ⟨f, hf⟩
    · exact .inr ⟨engine, f, hf⟩

theorem contains_iff {opType : String} {device : Device} :
    r.contains opType device ↔ ∃ engine? f, r.slot? opType device engine? = some f := by
  unfold contains slot?
  cases r.implementations? opType device with
  | none => simp
  | some e => exact Entry.exists_slot?_iff

/-- An operator type has an implementation once one was registered. -/
theorem contains_ofHistory_iff {opType : String} {device : Device} :
    (ofHistory history).contains opType device ↔ ∃ q ∈ history, q.Implements opType device := by
  simp only [contains_iff, slot?_ofHistory, ← Option.isSome_iff_exists, firstFactory?,
    List.findSome?_isSome_iff, Request.Implements]
  exact ⟨fun ⟨engine?, q, hq, hf⟩ => ⟨q, hq, engine?, hf⟩,
    fun ⟨q, hq, engine?, hf⟩ => ⟨engine?, q, hq, hf⟩⟩

/-! ## Preferences -/

/-- A request sets the engines preferred for an operator type and is granted: an implementation was
registered before. -/
def Prefers (opType : String) (device : Device) (before : List (Request σ)) (q : Request σ) : Prop :=
  (∃ engines, q = .preferFor opType device engines) ∧ ∃ q' ∈ before, q'.Implements opType device

/-- A request sets the engines preferred for every operator on a kind of device. -/
def PrefersGlobally (device : Device) (_before : List (Request σ)) (q : Request σ) : Prop :=
  ∃ engines, q = .preferGlobally device engines

/-- The engines preferred for one operator type. -/
def ownPreference (r : Registry σ) (opType : String) (device : Device) : List String :=
  (r.opPreference.get device).getD opType []

theorem ownPreference_of_prefers {opType : String} {device : Device} {engines : List String}
    (h : Prefers opType device history (.preferFor opType device engines)) :
    (ofHistory (history ++ [.preferFor opType device engines])).ownPreference opType device =
      engines := by
  rw [ofHistory_concat, comply, preferFor_of_contains (contains_ofHistory_iff.2 h.2)]
  simp [ownPreference]

theorem ownPreference_of_not_prefers {opType : String} {device : Device} {q : Request σ}
    (h : ¬Prefers opType device history q) :
    (ofHistory (history ++ [q])).ownPreference opType device =
      (ofHistory history).ownPreference opType device := by
  rw [ofHistory_concat]
  have hcomplies := (ofHistory history).complies q
  generalize (ofHistory history).comply q = r' at *
  cases hcomplies with
  | @granted opType' device' engines hc =>
    rw [ownPreference, ownPreference]
    by_cases hd : device = device'
    · subst hd
      have ht : opType' ≠ opType := by
        rintro rfl
        exact h ⟨⟨engines, rfl⟩, contains_ofHistory_iff.1 hc⟩
      simp [Std.TreeMap.getD_insert, ht]
    · simp [ByDevice.get_modify_of_ne, hd]
  | _ => rfl

theorem globalPreference_of_not_prefers {device : Device} {q : Request σ}
    (h : ¬PrefersGlobally device history q) :
    (ofHistory (history ++ [q])).globalPreference.get device =
      (ofHistory history).globalPreference.get device := by
  rw [ofHistory_concat]
  have hcomplies := (ofHistory history).complies q
  generalize (ofHistory history).comply q = r' at *
  cases hcomplies with
  | @preferred device' engines =>
    have hd : device ≠ device' := by
      rintro rfl
      exact h ⟨engines, rfl⟩
    exact ByDevice.get_modify_of_ne _ _ hd
  | _ => rfl

/-! ## The account -/

open History in
/-- All that a registry tells, by the requests that were made of it. -/
structure Account (history : List (Request σ)) (r : Registry σ) : Prop where
  lookup_eq : ∀ opType device engine,
    r.lookup opType device engine = firstFactory? history opType device (some engine)
  lookupDefault_eq : ∀ opType device,
    r.lookupDefault opType device = firstFactory? history opType device none
  /-- A registration is answered with whether it is the first one for its key. -/
  register_iff : ∀ opType device engine? f, (r.register opType device engine? f).1 ↔
    firstFactory? history opType device engine? = none
  registerKernel_iff : ∀ opType engine? cx make, (r.registerKernel opType engine? cx make).1 ↔
    firstFactory? history opType cx.device engine? = none
  schema?_eq : ∀ opType, r.schema? opType = firstSchema? history opType
  /-- A well-formed schema is answered with whether it is the first one for its type. -/
  wellFormed : ∀ s : Schema, s.isWellFormed → ∃ isNew, (r.registerSchema s).map Prod.fst = .ok isNew ∧
    (isNew ↔ firstSchema? history s.opType = none)
  /-- A malformed schema is refused and changes nothing. -/
  malformed : ∀ s : Schema, s.isWellFormed = false →
    r.registerSchema s =
      .error (.other s!"malformed schema for operator {Text.quoted s.opType}") ∧
    ofHistory (history ++ [.registerSchema s]) = r
  /-- The engines preferred for a type are those of the last request for it that was granted. After
  them come those of the last request for all types on the device. -/
  preference : ∀ opType device, ∃ own common, r.enginePreference opType device = own ++ common ∧
    ((Never (Prefers opType device) history ∧ own = []) ∨
      ∃ before, Last (Prefers opType device) history before (.preferFor opType device own)) ∧
    ((Never (PrefersGlobally device) history ∧ common = []) ∨
      ∃ before, Last (PrefersGlobally device) history before (.preferGlobally device common))
  /-- Engines can be preferred for a type that has an implementation. -/
  granted : ∀ opType device engines, (∃ q ∈ history, q.Implements opType device) →
    ∃ r', r.preferFor opType device engines = .ok r'
  /-- For another they cannot, and nothing changes. -/
  refused : ∀ opType device engines, (¬∃ q ∈ history, q.Implements opType device) →
    r.preferFor opType device engines = .error (.notRegistered opType device "") ∧
    ofHistory (history ++ [.preferFor opType device engines]) = r

/-- **The account of a registry.** After any history the registry has the factories and the schemas
that were registered first and the preferences that were set last, each for the very key that it was
registered or set for. -/
theorem account_ofHistory (history : List (Request σ)) : Account history (ofHistory history) where
  lookup_eq opType device engine := slot?_ofHistory ..
  lookupDefault_eq opType device := slot?_ofHistory ..
  register_iff opType device engine? f := by
    rw [register_fst, slot?_ofHistory, Option.isNone_iff_eq_none]
  registerKernel_iff opType engine? cx make := by
    rw [registerKernel, register_fst, slot?_ofHistory, Option.isNone_iff_eq_none]
  schema?_eq opType := schema?_ofHistory ..
  wellFormed s hs := by
    rw [← schema?_ofHistory]
    cases h : (ofHistory history).schema? s.opType with
    | none => exact ⟨true, by rw [registerSchema_of_none hs h]; rfl, by simp⟩
    | some s' => exact ⟨false, by rw [registerSchema_of_some hs h]; rfl, by simp⟩
  malformed s hs := by
    refine ⟨registerSchema_of_malformed hs, ?_⟩
    rw [ofHistory_concat, comply, registerSchema_of_malformed hs]
  preference opType device := by
    refine ⟨(ofHistory history).ownPreference opType device,
      (ofHistory history).globalPreference.get device, rfl, ?_, ?_⟩
    · rcases History.decided (fun history => (ofHistory history).ownPreference opType device)
        (fun _ _ => ownPreference_of_not_prefers) history with ⟨hnever, heq⟩ | ⟨before, q, hlast, heq⟩
      · refine .inl ⟨hnever, heq.trans ?_⟩
        simp [ofHistory, ownPreference]
      · obtain ⟨engines, rfl⟩ := hlast.holds.1.1
        rw [heq, ownPreference_of_prefers hlast.holds.1]
        exact .inr ⟨before, hlast⟩
    · rcases History.decided (fun history => (ofHistory history).globalPreference.get device)
        (fun _ _ => globalPreference_of_not_prefers) history with
        ⟨hnever, heq⟩ | ⟨before, q, hlast, heq⟩
      · refine .inl ⟨hnever, heq.trans ?_⟩
        exact ByDevice.get_uniform [] device
      · obtain ⟨engines, rfl⟩ := hlast.holds.1
        rw [heq, ofHistory_concat, comply, preferGlobally, ByDevice.get_modify_self]
        exact .inr ⟨before, hlast⟩
  granted opType device engines h :=
    ⟨_, preferFor_of_contains (contains_ofHistory_iff.2 h) engines⟩
  refused opType device engines h := by
    have hc : ¬(ofHistory history).contains opType device := fun hc =>
      h (contains_ofHistory_iff.1 hc)
    refine ⟨preferFor_of_not_contains hc engines, ?_⟩
    rw [ofHistory_concat, comply, preferFor_of_not_contains hc]

end Registry
end OpNet
