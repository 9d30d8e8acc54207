import OpNet.Operator
import OpNet.Schema

/-!
# The registry of implementations

The registry knows, for every operator type and kind of device, a default factory and any number of
factories that go by the name of an engine; and it keeps the schemas and the engine preferences.

* `Registry.lookup`, `Registry.lookupDefault` — the views: the factory of an engine, and the one
  without an engine.
* `Registry.register` — adds a factory. A slot that is taken keeps its factory, and the answer says
  whether the slot was free. `Registry.slot?_register` is the law of both views.
* `Registry.registerSchema` — adds a schema, if it is well formed and its type has none yet.
* `Registry.enginePreference` — the engines to try besides those that a definition asks for.
-/

set_option autoImplicit false

namespace OpNet

/-! ## Factories -/

/-- What a factory says to a binding: it has built something, refuses, or panics. -/
inductive Verdict (β : Type) where
  | built (product : β)
  | refused (refusal : Refusal)
  | panicked (text : String)

/-- A verdict with the lines that were reported on the way to it. -/
structure Attempt (β : Type) where
  verdict : Verdict β
  trace : List String := []

/-- Builds operators: from a binding, the first state and the body of an operator. -/
abbrev Factory (σ : Type) := Binding → Attempt (σ × Body σ)

/-- Makes kernels: from a binding, the first state and the kernel of an operator. -/
abbrev KernelMaker (σ : Type) := Binding → Attempt (σ × Action σ)

/-- The factory of operators that run a kernel on a kind of device. -/
def DeviceContext.factory {σ : Type} (cx : DeviceContext σ) (make : KernelMaker σ) : Factory σ :=
  fun b =>
    let attempt := make b
    match attempt.verdict with
    | .built (inner, kernel) =>
      { verdict := .built (inner, cx.body kernel)
        trace := attempt.trace ++ cx.onBuild b.definition.placement }
    | .refused refusal => { verdict := .refused refusal, trace := attempt.trace }
    | .panicked text => { verdict := .panicked text, trace := attempt.trace }

/-! ## The registry -/

/-- The factories of one operator type on one kind of device. -/
structure Entry (σ : Type) where
  default? : Option (Factory σ) := none
  engines : Std.TreeMap String (Factory σ) := {}

/-- The factory in a slot of an entry: that of an engine, or the default one. -/
def Entry.slot? {σ : Type} (e : Entry σ) : Option String → Option (Factory σ)
  | none => e.default?
  | some engine => e.engines[engine]?

/-- Puts a factory into a slot of an entry. -/
def Entry.fill {σ : Type} (e : Entry σ) (engine? : Option String) (f : Factory σ) : Entry σ :=
  match engine? with
  | none => { e with default? := some f }
  | some engine => { e with engines := e.engines.insert engine f }

/-- Factories, schemas and engine preferences. -/
structure Registry (σ : Type) where
  entries : ByDevice (Std.TreeMap String (Entry σ)) := .uniform {}
  schemas : Std.TreeMap String Schema := {}
  /-- The engines preferred for every operator of a kind of device. -/
  globalPreference : ByDevice (List String) := .uniform []
  /-- The engines preferred for one operator type on a kind of device. -/
  opPreference : ByDevice (Std.TreeMap String (List String)) := .uniform {}

namespace Registry

variable {σ : Type}

/-! ### Factories -/

/-- The entry of an operator type on a kind of device. -/
def implementations? (r : Registry σ) (opType : String) (device : Device) : Option (Entry σ) :=
  (r.entries.get device)[opType]?

/-- The factory in a slot. -/
def slot? (r : Registry σ) (opType : String) (device : Device) (engine? : Option String) :
    Option (Factory σ) :=
  (r.implementations? opType device).bind (·.slot? engine?)

/-- The factory of an engine. -/
def lookup (r : Registry σ) (opType : String) (device : Device) (engine : String) :
    Option (Factory σ) :=
  r.slot? opType device (some engine)

/-- The factory without an engine. -/
def lookupDefault (r : Registry σ) (opType : String) (device : Device) : Option (Factory σ) :=
  r.slot? opType device none

/-- Whether there is any implementation. -/
def contains (r : Registry σ) (opType : String) (device : Device) : Bool :=
  match r.implementations? opType device with
  | some e => e.default?.isSome || !e.engines.isEmpty
  | none => false

/-- Puts a factory into a slot, and tells whether the slot was free; a slot that is taken keeps its
factory. -/
def register (r : Registry σ) (opType : String) (device : Device) (engine? : Option String)
    (f : Factory σ) : Bool × Registry σ :=
  let e := (r.implementations? opType device).getD {}
  match e.slot? engine? with
  | some _ => (false, r)
  | none =>
    let filled := e.fill engine? f
    (true, { r with entries := r.entries.modify device (·.insert opType filled) })

/-- Registers a kernel on the kind of device that its context drives. -/
def registerKernel (r : Registry σ) (opType : String) (engine? : Option String)
    (cx : DeviceContext σ) (make : KernelMaker σ) : Bool × Registry σ :=
  r.register opType cx.device engine? (cx.factory make)

/-- The operator types with an implementation on a kind of device, in order. -/
def opTypes (r : Registry σ) (device : Device) : List String := (r.entries.get device).keys

/-- The engines of an operator type on a kind of device, in order. -/
def engines (r : Registry σ) (opType : String) (device : Device) : List String :=
  match r.implementations? opType device with
  | some e => e.engines.keys
  | none => []

/-! ### Schemas -/

/-- The schema of an operator type. -/
def schema? (r : Registry σ) (opType : String) : Option Schema := r.schemas[opType]?

/-- Adds a schema and tells whether its type had none; the first schema of a type stays. -/
def registerSchema (r : Registry σ) (s : Schema) : Except Fault (Bool × Registry σ) :=
  if s.isWellFormed then
    match r.schema? s.opType with
    | some _ => .ok (false, r)
    | none => .ok (true, { r with schemas := r.schemas.insert s.opType s })
  else .error (.other s!"malformed schema for operator {Text.quoted s.opType}")

/-! ### Preferences -/

/-- Sets the engines preferred for every operator of a kind of device. -/
def preferGlobally (r : Registry σ) (device : Device) (engines : List String) : Registry σ :=
  { r with globalPreference := r.globalPreference.modify device fun _ => engines }

/-- Sets the engines preferred for one operator type, which must have an implementation. -/
def preferFor (r : Registry σ) (opType : String) (device : Device) (engines : List String) :
    Except Fault (Registry σ) :=
  if r.contains opType device then
    .ok { r with opPreference := r.opPreference.modify device (·.insert opType engines) }
  else .error (.notRegistered opType device "")

/-- The engines preferred for an operator type, before those preferred for every operator. -/
def enginePreference (r : Registry σ) (opType : String) (device : Device) : List String :=
  (r.opPreference.get device).getD opType [] ++ r.globalPreference.get device

/-! ### The law of registration -/

theorem slot?_fill (e : Entry σ) (engine? engine?' : Option String) (f : Factory σ) :
    (e.fill engine? f).slot? engine?' =
      if engine?' = engine? then some f else e.slot? engine?' := by
  cases engine? with
  | none => cases engine?' <;> simp [Entry.fill, Entry.slot?]
  | some engine =>
    cases engine?' with
    | none => simp [Entry.fill, Entry.slot?]
    | some engine' =>
      simp [Entry.fill, Entry.slot?, Std.TreeMap.getElem?_insert, @eq_comm _ engine]

/-- Registration tells whether the slot was free. -/
theorem register_fst (r : Registry σ) (opType : String) (device : Device)
    (engine? : Option String) (f : Factory σ) :
    (r.register opType device engine? f).1 = (r.slot? opType device engine?).isNone := by
  unfold register slot?
  cases r.implementations? opType device with
  | none => cases engine? <;> simp [Entry.slot?]
  | some e =>
    simp only [Option.getD_some, Option.bind_some]
    cases e.slot? engine? <;> rfl

/-- Registration fills the slot if it is free, and changes no other. -/
theorem slot?_register (r : Registry σ) (opType : String) (device : Device)
    (engine? : Option String) (f : Factory σ) (t : String) (d : Device) (e? : Option String) :
    (r.register opType device engine? f).2.slot? t d e? =
      if t = opType ∧ d = device ∧ e? = engine? then
        some ((r.slot? opType device engine?).getD f)
      else r.slot? t d e? := by
  have hslot : ((r.implementations? opType device).getD {}).slot? engine? =
      r.slot? opType device engine? := by
    unfold slot?
    cases r.implementations? opType device with
    | none => cases engine? <;> simp [Entry.slot?]
    | some e => rfl
  unfold register
  simp only [hslot]
  split
  · next g hg =>
    split
    · next h => obtain ⟨rfl, rfl, rfl⟩ := h; simp [hg]
    · rfl
  · next hg =>
    by_cases hd : d = device
    · subst hd
      by_cases ht : t = opType
      · subst ht
        rw [hg, slot?, implementations?, ByDevice.get_modify_self, Std.TreeMap.getElem?_insert_self,
          Option.bind_some, slot?_fill]
        by_cases he : e? = engine?
        · simp [he]
        · rw [if_neg he, if_neg (by simp [he]), slot?]
          cases r.implementations? t d with
          | none => cases e? <;> simp [Entry.slot?]
          | some e => rfl
      · simp [slot?, implementations?, Std.TreeMap.getElem?_insert, ht, Ne.symm ht]
    · simp [slot?, implementations?, ByDevice.get_modify_of_ne, hd]

end Registry
end OpNet
