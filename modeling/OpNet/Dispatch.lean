import OpNet.Registry

/-!
# Dispatch

Dispatch turns a definition into an operator. It tries one factory after another: those of the
engines that the definition asks for, then those of the engines that the registry prefers, and last
the default factory.

* `Registry.candidates` — the engines to try, each at its first mention.
* `Registry.routes` — the factories to try: those of the candidates that are registered, then the
  default one.
* `Registry.walk` — tries the routes in order. A factory that does not support the definition is
  passed over; the first other answer is final.
* `Registry.createOperator` — checks the schema, then walks. The result keeps an account of every
  factory that was called (`Call`).
-/

set_option autoImplicit false

namespace OpNet

variable {σ : Type}

/-! ## Routes -/

/-- A factory that dispatch may try, under the name of its engine; the default factory has none. -/
structure Route (σ : Type) where
  engine? : Option String
  factory : Factory σ

/-- The engine that an operator built on the route records. -/
def Route.engine (route : Route σ) : String := route.engine?.getD ""

/-- The operator that the factory of the route has built. -/
def Route.operator (route : Route σ) (b : Binding) (product : σ × Body σ) : Operator σ :=
  { binding := { b with engine := route.engine, state := .ready }
    inner := product.1
    body := product.2 }

namespace Registry

/-- The engines that dispatch tries, in order; one that is named again is not tried again. -/
def candidates (r : Registry σ) (d : OperatorDef) : List String :=
  (d.engines ++ r.enginePreference d.opType d.device).eraseDups

/-- The factories that dispatch tries, in order. -/
def routes (r : Registry σ) (d : OperatorDef) : List (Route σ) :=
  ((r.candidates d).filterMap fun engine =>
    (r.lookup d.opType d.device engine).map (⟨some engine, ·⟩)) ++
  ((r.lookupDefault d.opType d.device).map (⟨none, ·⟩)).toList

end Registry

/-! ## Walking the routes -/

/-- A factory that was called: on which route, with which binding, and what it answered. -/
structure Call (σ : Type) where
  route : Route σ
  binding : Binding
  attempt : Attempt (σ × Body σ)

/-- What dispatch leaves behind: the store, an account of the factories called, and the operator or
what went wrong. -/
structure Dispatch (σ : Type) where
  store : Store
  calls : List (Call σ) := []
  outcome : Outcome (Operator σ)

/-- The lines that the factories reported. -/
def Dispatch.trace (result : Dispatch σ) : List String :=
  result.calls.flatMap (·.attempt.trace)

/-- The same result after one more call in front. -/
def Dispatch.after (call : Call σ) (result : Dispatch σ) : Dispatch σ :=
  { result with calls := call :: result.calls }

namespace Registry

/-- What dispatch reports when no route is left. -/
def exhausted (r : Registry σ) (d : OperatorDef) : Fault :=
  .notRegistered d.opType d.device (EngineList.join (r.candidates d))

/-- What dispatch reports when the default factory does not support the definition. -/
def defaultDeclined (d : OperatorDef) : Fault :=
  .construction d.opType "" (.other "default implementation declined the configuration")

/-- Tries the routes in order, each with a fresh binding. -/
def walk (r : Registry σ) (ws : String) (d : OperatorDef) (s : Store) :
    List (Route σ) → Dispatch σ
  | [] => { store := s, outcome := .error (.fault (r.exhausted d)) }
  | route :: rest =>
    match Binding.bind s ws d with
    | .error cause => { store := s, outcome := .error (.fault cause) }
    | .ok (b, s) =>
      let attempt := route.factory b
      Dispatch.after ⟨route, b, attempt⟩ <|
        match attempt.verdict with
        | .built product =>
          { store := (s.createAll ws d.outputs).2
            outcome := .ok (route.operator b product) }
        | .refused (.unsupported _) =>
          match route.engine? with
          | some _ => r.walk ws d s rest
          | none => { store := s, outcome := .error (.fault (defaultDeclined d)) }
        | .refused (.failed source) =>
          { store := s
            outcome := .error (.fault (.construction d.opType route.engine source)) }
        | .panicked text => { store := s, outcome := .error (.panic text) }

/-- Checks a definition against the schema of its type, if it has one. -/
def verify (r : Registry σ) (d : OperatorDef) : Except Fault Unit :=
  match r.schema? d.opType with
  | some schema => schema.verify d
  | none => .ok ()

/-- Builds the operator of a definition in a workspace. -/
def createOperator (r : Registry σ) (s : Store) (ws : String) (d : OperatorDef) : Dispatch σ :=
  match r.verify d with
  | .error cause => { store := s, outcome := .error (.fault cause) }
  | .ok () => r.walk ws d s (r.routes d)

end Registry
end OpNet
