import Mathlib.Data.List.Forall2
import OpNet.Gradient
import OpNet.Proofs.History

/-!
# What a derivation gives

The gradient of an operator is made by the entry that was registered first for its type, be it a
maker or the mark that there is none. The operators that a maker writes come out in their order and
for the most part as they are. What the maker lets them inherit is the forward definition's: its
placement and its engines instead of their own, and its arguments behind their own, so that these
come first where both have a name.

* `Arguments.ReadAlike` — a name gives the same in two lists of arguments, however it is read.
* `GradientMaker.Inherits` — what a backward operator has from the maker, and what from the forward
  definition.
* `GradientRegistry.Request`, `GradientRegistry.ofHistory` — the registrations, and the registry
  after a list of them; `GradientRegistry.firstEntry?` — the first one for a type.
* `GradientRegistry.Derivation`, `GradientRegistry.derivation_ofHistory` — the gradient of a
  definition after any history.
-/

set_option autoImplicit false

namespace OpNet

/-! ## Arguments behind others -/

namespace Arguments

variable {xs ys : List Argument} {name : String}

/-- A name gives the same in two lists of arguments, however it is read. -/
structure ReadAlike (xs ys : List Argument) (name : String) : Prop where
  has_eq : has xs name = has ys name
  trySingle_eq : ∀ (α : Type) [ArgType α] (default : α),
    trySingle xs name default = trySingle ys name default
  tryRepeated_eq : ∀ (α : Type) [ArgType α], tryRepeated α xs name = tryRepeated α ys name
  single_eq : ∀ (α : Type) [ArgType α] (default : α),
    single xs name default = single ys name default
  repeated_eq : ∀ (α : Type) [ArgType α], repeated α xs name = repeated α ys name

/-- However a name is read, it stands for the first argument that has it. -/
theorem ReadAlike.of_first?_eq (h : first? xs name = first? ys name) : ReadAlike xs ys name where
  has_eq := by rw [has, has, h]
  trySingle_eq α _ default := by rw [trySingle, trySingle, h]
  tryRepeated_eq α _ := by rw [tryRepeated, tryRepeated, h]
  single_eq α _ default := by rw [single, single, trySingle, trySingle, h]
  repeated_eq α _ := by rw [repeated, repeated, tryRepeated, tryRepeated, h]

/-- Arguments in front are read, if they have the name. -/
theorem readAlike_append_left (h : ∃ arg ∈ xs, arg.name = name) :
    ReadAlike (xs ++ ys) xs name := by
  obtain ⟨arg, harg⟩ := Option.isSome_iff_exists.1 (has_iff.2 h)
  refine .of_first?_eq ?_
  rw [first?_append, harg, Option.some_or]

/-- Arguments behind are read, if those in front do not have the name. -/
theorem readAlike_append_right (h : ∀ arg ∈ xs, arg.name ≠ name) :
    ReadAlike (xs ++ ys) ys name := by
  refine .of_first?_eq ?_
  rw [first?_append, first?_eq_none_iff.2 h, Option.none_or]

end Arguments

/-! ## Inheritance -/

open Arguments in
/-- What a backward operator has from the one that a maker wrote, and what from the forward
definition. -/
structure GradientMaker.Inherits (m : GradientMaker) (forward made op : OperatorDef) : Prop where
  opType : op.opType = made.opType
  name : op.name = made.name
  inputs : op.inputs = made.inputs
  outputs : op.outputs = made.outputs
  placement : op.placement = if m.copyPlacement then forward.placement else made.placement
  engine : op.engine = if m.copyEngine then forward.engine else made.engine
  args : op.args = if m.copyArgs then made.args ++ forward.args else made.args
  /-- The operator's own arguments are read as the maker wrote them. -/
  own : m.copyArgs → ∀ name, (∃ arg ∈ made.args, arg.name = name) →
    ReadAlike op.args made.args name
  /-- Those that it does not have are read as those of the forward definition. -/
  inherited : m.copyArgs → ∀ name, (∀ arg ∈ made.args, arg.name ≠ name) →
    ReadAlike op.args forward.args name

theorem GradientMaker.inherits_inherit (m : GradientMaker) (forward made : OperatorDef) :
    m.Inherits forward made (m.inherit forward made) := by
  have hargs (h : m.copyArgs) : (m.inherit forward made).args = made.args ++ forward.args :=
    if_pos h
  refine ⟨rfl, rfl, rfl, rfl, rfl, rfl, rfl, fun hcopy name hname => ?_, fun hcopy name hname => ?_⟩
  · rw [hargs hcopy]
    exact Arguments.readAlike_append_left hname
  · rw [hargs hcopy]
    exact Arguments.readAlike_append_right hname

namespace GradientRegistry

/-! ## Registrations -/

/-- The requests that change what is known of gradients. -/
inductive Request where
  | register (opType : String) (m : GradientMaker)
  | registerNoGradient (opType : String)

/-- The registry after a request. -/
def comply (r : GradientRegistry) : Request → GradientRegistry
  | .register opType m => (r.register opType m).2
  | .registerNoGradient opType => (r.registerNoGradient opType).2

/-- The registry after a list of requests, the first one made of the empty registry. -/
def ofHistory (history : List Request) : GradientRegistry := history.foldl comply {}

/-- What a request tells of the gradient of an operator type. -/
def Request.entry? (opType : String) : Request → Option GradientEntry
  | .register opType' m => if opType = opType' then some (.maker m) else none
  | .registerNoGradient opType' => if opType = opType' then some .noGradient else none

/-- What the first request for an operator type tells. -/
def firstEntry? (history : List Request) (opType : String) : Option GradientEntry :=
  history.findSome? (Request.entry? opType)

/-- A request changes nothing for a type that has an entry. -/
theorem known?_comply (r : GradientRegistry) (q : Request) (opType : String) :
    (r.comply q).known? opType = (r.known? opType).or (q.entry? opType) := by
  -- both kinds of requests add an entry
  have hadd (opType' : String) (e : GradientEntry) : (r.add opType' e).2.known? opType =
      (r.known? opType).or (if opType = opType' then some e else none) := by
    rw [known?_add]
    by_cases h : opType = opType'
    · subst h
      cases r.known? opType <;> simp
    · simp [h]
  cases q with
  | register opType' m => exact hadd opType' (.maker m)
  | registerNoGradient opType' => exact hadd opType' .noGradient

/-- The first registration for a type is the one that counts. -/
theorem known?_ofHistory (history : List Request) (opType : String) :
    (ofHistory history).known? opType = firstEntry? history opType := by
  have hfold := History.foldl_eq_or (·.known? opType) (Request.entry? opType)
    (fun r q => known?_comply r q opType) {} history
  have hempty : ({} : GradientRegistry).known? opType = none := Std.TreeMap.getElem?_emptyc
  rwa [hempty, Option.none_or] at hfold

/-! ## Derivations -/

/-- The gradient of a definition, by the registrations for its type. -/
structure Derivation (history : List Request) (d : OperatorDef) (outputs : List GradientSlot)
    (answer : Outcome Gradient) : Prop where
  unknown : firstEntry? history d.opType = none →
    answer = .error (.fault (.noGradient d.opType))
  /-- A type without a gradient has no backward operators, and its inputs have no gradients. -/
  unneeded : firstEntry? history d.opType = some .noGradient →
    answer = .ok { ops := [], inputs := d.inputs.map fun _ => {} }
  stopped : ∀ m stop, firstEntry? history d.opType = some (.maker m) →
    m.generate.run (.init d outputs) = .error stop → answer = .error stop
  /-- Each operator that the maker wrote inherits from the definition, and they keep their order. -/
  made : ∀ m made cx, firstEntry? history d.opType = some (.maker m) →
    m.generate.run (.init d outputs) = .ok (made, cx) →
    ∃ ops, answer = .ok { ops, inputs := cx.inputs } ∧ List.Forall₂ (m.Inherits d) made ops

theorem run_maker (m : GradientMaker) (d : OperatorDef) (outputs : List GradientSlot) :
    run (.maker m) d outputs = (m.generate.run (.init d outputs)).map fun (made, cx) =>
      { ops := made.map (m.inherit d), inputs := cx.inputs } := by
  rw [run]
  cases m.generate.run (.init d outputs) <;> rfl

/-- A gradient that is derived by a maker is what a run of it has left. -/
theorem exists_run_of_derive {r : GradientRegistry} {d : OperatorDef}
    {outputs : List GradientSlot} {m : GradientMaker} {g : Gradient}
    (hm : r.known? d.opType = some (.maker m)) (hg : r.derive d outputs = .ok g) :
    ∃ ops cx, m.generate (.init d outputs) = .ok (ops, cx) ∧ g.inputs = cx.inputs := by
  rw [derive, hm] at hg
  dsimp only at hg
  split at hg
  · rw [run_maker] at hg
    cases hrun : m.generate.run (.init d outputs) with
    | ok made =>
      rw [hrun] at hg
      cases hg
      exact ⟨made.1, made.2, hrun, rfl⟩
    | error stop =>
      rw [hrun] at hg
      cases hg
  · cases hg

/-- **The gradient of a definition.** After any registrations it is made by the one that came first
for the type, given a gradient for each output. What the maker wrote comes out operator by operator,
with the placement, the engines and the arguments of the definition where the maker copies them.
Where both have an argument of a name, the maker's is the one that is read. -/
theorem derivation_ofHistory (history : List Request) {d : OperatorDef}
    {outputs : List GradientSlot} (h : outputs.length = d.outputs.length) :
    Derivation history d outputs ((ofHistory history).derive d outputs) := by
  have hknown (e : GradientEntry) (he : firstEntry? history d.opType = some e) :
      (ofHistory history).derive d outputs = run e d outputs := by
    rw [derive, known?_ofHistory, he]
    exact if_pos h
  refine ⟨fun hnone => ?_, fun hmark => hknown _ hmark, fun m stop hm hstop => ?_,
    fun m made cx hm hmade => ⟨made.map (m.inherit d), ?_, ?_⟩⟩
  · rw [derive, known?_ofHistory, hnone]
  · rw [hknown _ hm, run_maker, hstop]
    rfl
  · rw [hknown _ hm, run_maker, hmade]
    rfl
  · rw [List.forall₂_map_right_iff, List.forall₂_same]
    exact fun op _ => m.inherits_inherit d op

end GradientRegistry

namespace Scale

/-- Scales the gradient of the output into that of the input, along the first axis and with an
engine of its own. -/
def maker : GradientMaker where
  generate := do
    let g ← Making.gradOutput 0
    let target ← Making.gradInput 0
    return [{ opType := "Scale", inputs := [g], outputs := [target], engine := "FAST",
              args := [⟨"axis", .int 0⟩] }]
  copyEngine := false

/-- The maker is registered before the mark that there is no gradient. -/
def history : List GradientRegistry.Request :=
  [.register "Scale" maker, .registerNoGradient "Scale"]

/-- Scales along another axis, on another device and with another engine. -/
def forward : OperatorDef where
  opType := "Scale"
  inputs := ["x"]
  outputs := ["y"]
  placement := .cuda 1
  engine := "BLAS"
  args := [⟨"axis", .int 3⟩, ⟨"factor", .int 2⟩]

/-- The gradient of its output. -/
def gradients : List GradientSlot := [.ofDense (gradientName "y")]

end Scale

open Scale Arguments in
/-- The backward operator keeps its engine and its axis, and has the device and the factor of the
forward definition. -/
theorem scale_derivation : gradients.length = forward.outputs.length ∧ ∃ op : OperatorDef,
    (GradientRegistry.ofHistory history).derive forward gradients =
      .ok { ops := [op], inputs := [.ofDense (gradientName "x")] } ∧
    op.engine = "FAST" ∧ op.placement = .cuda 1 ∧
    trySingle op.args "axis" (9 : Int32) = .ok 0 ∧
    trySingle op.args "factor" (9 : Int32) = .ok 2 := by
  have hlength : gradients.length = forward.outputs.length := rfl
  have hderivation := GradientRegistry.derivation_ofHistory history hlength
  obtain ⟨ops, hanswer, hops⟩ := hderivation.made maker _ _ rfl rfl
  obtain ⟨op, _, hop, hnil, rfl⟩ := List.forall₂_cons_left_iff.1 hops
  obtain rfl := List.forall₂_nil_left_iff.1 hnil
  refine ⟨hlength, op, hanswer, hop.engine, hop.placement, ?_, ?_⟩
  · exact ((hop.own rfl "axis" (by decide)).trySingle_eq Int32 9).trans rfl
  · exact ((hop.inherited rfl "factor" (by decide)).trySingle_eq Int32 9).trans rfl

end OpNet
