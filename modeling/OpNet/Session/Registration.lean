import OpNet.Session.Answer

/-!
# Commands on the registry

Commands that register implementations, schemas and preferences, and look them up.

* `RegistryCommand.run` — the answer and the registry afterwards.
-/

set_option autoImplicit false

namespace OpNet

/-- The devices that a kernel can be registered for. -/
inductive ContextChoice where
  | host
  | traced (device : Device)

/-- The device context of a choice. -/
def ContextChoice.context : ContextChoice → DeviceContext Memory
  | host => .host
  | traced device => .traced device

/-- The commands on the registry. -/
inductive RegistryCommand where
  | register (opType : String) (device : Device) (engine? : Option String) (recipe : Recipe)
  | registerKernel (opType : String) (engine? : Option String) (context : ContextChoice)
      (recipe : Recipe)
  | addBuiltins
  | registerSchema (s : Schema)
  | schemaOf (opType : String)
  | preferGlobally (device : Device) (engines : List String)
  | preferFor (opType : String) (device : Device) (engines : List String)
  | preference (opType : String) (device : Device)
  | opTypes (device : Device)
  | engines (opType : String) (device : Device)
  | contains (opType : String) (device : Device)
  | lookup (opType : String) (device : Device) (engine? : Option String)

/-- The answer to a command on the registry, and the registry afterwards. -/
def RegistryCommand.run (r : Registry Memory) : RegistryCommand → Result × Registry Memory
  | register opType device engine? recipe =>
    let (isNew, r) := r.register opType device engine? recipe.factory
    (.reply (.flag isNew), r)
  | registerKernel opType engine? context recipe =>
    let (isNew, r) := r.registerKernel opType engine? context.context recipe.kernelMaker
    (.reply (.flag isNew), r)
  | addBuiltins =>
    match r.addBuiltins with
    | .ok r => (.reply (.flag true), r)
    | .error cause => (.fault cause, r)
  | registerSchema s =>
    match r.registerSchema s with
    | .ok (isNew, r) => (.reply (.flag isNew), r)
    | .error cause => (.fault cause, r)
  | schemaOf opType => (.reply (.schemaBounds (r.schema? opType)), r)
  | preferGlobally device names => (.reply (.flag true), r.preferGlobally device names)
  | preferFor opType device names =>
    match r.preferFor opType device names with
    | .ok r => (.reply (.flag true), r)
    | .error cause => (.fault cause, r)
  | preference opType device => (.reply (.texts (r.enginePreference opType device)), r)
  | opTypes device => (.reply (.texts (r.opTypes device)), r)
  | engines opType device => (.reply (.texts (r.engines opType device)), r)
  | contains opType device => (.reply (.flag (r.contains opType device)), r)
  | lookup opType device engine? =>
    (.reply (.flag (r.slot? opType device engine?).isSome), r)

/-- The commands on the gradients of operator types. -/
inductive GradientCommand where
  | register (opType : String) (maker : GradientMaker)
  | registerNone (opType : String)
  | addBuiltins
  | contains (opType : String)

/-- The answer to a command on the gradients of operator types, and their registry afterwards. -/
def GradientCommand.run (r : GradientRegistry) : GradientCommand → Result × GradientRegistry
  | register opType maker =>
    let (isNew, r) := r.register opType maker
    (.reply (.flag isNew), r)
  | registerNone opType =>
    let (isNew, r) := r.registerNoGradient opType
    (.reply (.flag isNew), r)
  | addBuiltins => (.reply (.flag true), r.addBuiltins)
  | contains opType => (.reply (.flag (r.contains opType)), r)

end OpNet
