import OpNet.Proofs.History
import OpNet.Registry

/-!
# Registries and their histories

A registry starts out empty, and nothing changes it but requests to register an implementation or a
schema or to prefer some engines. So a registry is what a list of requests has made of it.

* `Registry.Request`, `Registry.ofHistory` — the requests, and the registry after a list of them. A
  request that is refused changes nothing.
* `Registry.firstFactory?` — the factory that was registered first for a slot.
* `Registry.slot?_ofHistory` — it is the one that is found there, whatever else was asked for.
-/

set_option autoImplicit false

namespace OpNet
namespace Registry

variable {σ : Type}

/-! ## Requests -/

/-- The requests that change a registry. An implementation without an engine is the default one of
its kind of device. -/
inductive Request (σ : Type) where
  | register (opType : String) (device : Device) (engine? : Option String) (f : Factory σ)
  | registerKernel (opType : String) (engine? : Option String) (cx : DeviceContext σ)
      (make : KernelMaker σ)
  | registerSchema (s : Schema)
  | preferGlobally (device : Device) (engines : List String)
  | preferFor (opType : String) (device : Device) (engines : List String)

/-- The registry after a request. -/
def comply (r : Registry σ) : Request σ → Registry σ
  | .register opType device engine? f => (r.register opType device engine? f).2
  | .registerKernel opType engine? cx make => (r.registerKernel opType engine? cx make).2
  | .registerSchema s =>
    match r.registerSchema s with
    | .ok (_, r) => r
    | .error _ => r
  | .preferGlobally device engines => r.preferGlobally device engines
  | .preferFor opType device engines =>
    match r.preferFor opType device engines with
    | .ok r => r
    | .error _ => r

/-- The registry after a list of requests, the first one made of the empty registry. -/
def ofHistory (history : List (Request σ)) : Registry σ := history.foldl comply {}

/-! ## First registrations -/

/-- The factory that a request has for a slot. -/
def Request.factory? (opType : String) (device : Device) (engine? : Option String) :
    Request σ → Option (Factory σ)
  | .register opType' device' engine?' f =>
    if opType = opType' ∧ device = device' ∧ engine? = engine?' then some f else none
  | .registerKernel opType' engine?' cx make =>
    if opType = opType' ∧ device = cx.device ∧ engine? = engine?' then some (cx.factory make)
    else none
  | .registerSchema _ | .preferGlobally .. | .preferFor .. => none

/-- The factory of the first registration for a slot. -/
def firstFactory? (history : List (Request σ)) (opType : String) (device : Device)
    (engine? : Option String) : Option (Factory σ) :=
  history.findSome? (Request.factory? opType device engine?)

@[simp] theorem slot?_empty (opType : String) (device : Device) (engine? : Option String) :
    ({} : Registry σ).slot? opType device engine? = none := by
  simp [slot?, implementations?]

/-- What is found in the slots is in the entries. -/
theorem slot?_congr {r r' : Registry σ} (h : r'.entries = r.entries) : r'.slot? = r.slot? := by
  unfold slot? implementations?
  rw [h]

theorem entries_comply_registerSchema (r : Registry σ) (s : Schema) :
    (r.comply (.registerSchema s)).entries = r.entries := by
  rw [comply, registerSchema]
  by_cases hs : s.isWellFormed
  · rw [if_pos hs]
    cases r.schema? s.opType <;> rfl
  · rw [if_neg hs]

theorem entries_comply_preferFor (r : Registry σ) (opType : String) (device : Device)
    (engines : List String) : (r.comply (.preferFor opType device engines)).entries = r.entries := by
  rw [comply, preferFor]
  by_cases hc : r.contains opType device
  · rw [if_pos hc]
  · rw [if_neg hc]

/-- A request leaves a slot that is taken as it is. -/
theorem slot?_comply (r : Registry σ) (q : Request σ) (opType : String) (device : Device)
    (engine? : Option String) : (r.comply q).slot? opType device engine? =
      (r.slot? opType device engine?).or (q.factory? opType device engine?) := by
  have hregister (opType' : String) (device' : Device) (engine?' : Option String) (f : Factory σ) :
      (r.register opType' device' engine?' f).2.slot? opType device engine? =
        (r.slot? opType device engine?).or
          (if opType = opType' ∧ device = device' ∧ engine? = engine?' then some f else none) := by
    rw [slot?_register]
    split
    · next h =>
      obtain ⟨rfl, rfl, rfl⟩ := h
      cases r.slot? opType device engine? <;> rfl
    · rw [Option.or_none]
  have hother {r' : Registry σ} (h : r'.entries = r.entries) :
      r'.slot? opType device engine? = (r.slot? opType device engine?).or none := by
    rw [slot?_congr h, Option.or_none]
  cases q with
  | register opType' device' engine?' f => exact hregister opType' device' engine?' f
  | registerKernel opType' engine?' cx make =>
    exact hregister opType' cx.device engine?' (cx.factory make)
  | registerSchema s => exact hother (r.entries_comply_registerSchema s)
  | preferGlobally device' engines => exact hother rfl
  | preferFor opType' device' engines =>
    exact hother (r.entries_comply_preferFor opType' device' engines)

/-- **The first registration for a slot is the one that counts.** -/
theorem slot?_ofHistory (history : List (Request σ)) (opType : String) (device : Device)
    (engine? : Option String) : (ofHistory history).slot? opType device engine? =
      firstFactory? history opType device engine? := by
  have hfold := History.foldl_eq_or (·.slot? opType device engine?)
    (Request.factory? opType device engine?)
    (fun r q => slot?_comply r q opType device engine?) {} history
  rwa [slot?_empty, Option.none_or] at hfold

end Registry
end OpNet
