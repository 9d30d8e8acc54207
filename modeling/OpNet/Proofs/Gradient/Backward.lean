import OpNet.Proofs.Gradient.Marking
import OpNet.Proofs.Net.Delivery

/-!
# Backward nets of copies

The gradient of a copy is a copy the other way round, between the gradients of its blobs. So the
backward operators of copies that are defined one behind the other, from the last to the first, are a
path again, from the gradient of the last blob to that of the first one. It may come to the same
gradient more than once, as the forward definitions may come to the same blob.

* `Making.gradOutput_of_isDense`, `Making.gradInput_of_lt` — what a maker reads and marks.
* `GradientRegistry.derive_of_copies` — the gradient of a copy.
* `CopyPath.exists_gradients` — the gradients of a path are a path, and
  `CopyPath.backward_delivers` — the net of them delivers the gradient.
-/

set_option autoImplicit false

namespace OpNet

variable {σ : Type}

/-! ## Makers -/

theorem isDense_gradientName (blob : String) :
    (GradientSlot.ofDense (gradientName blob)).isDense := by
  simp [GradientSlot.isDense, GradientSlot.ofDense, gradientName, gradientSuffix]

namespace Making

variable {cx : GradientContext}

/-- A maker reads the name of a dense gradient and changes nothing. -/
theorem gradOutput_of_isDense {k : Nat} {g : GradientSlot} (hg : nth cx.outputs k = .ok g)
    (hdense : g.isDense) : gradOutput k cx = .ok (g.dense, cx) := by
  have hslot : slot k cx = .ok (g, cx) := by
    change (nth cx.outputs k).bind (fun g => .ok (g, cx)) = _
    rw [hg]
    rfl
  change (slot k cx).bind _ = _
  rw [hslot]
  change (if g.isDense then _ else _ : Making String) cx = _
  rw [if_pos hdense]
  rfl

/-- A maker marks an input that exists with its canonical gradient. -/
theorem gradInput_of_lt {i : Nat} {name : String} (hname : nth cx.forward.inputs i = .ok name)
    (hi : i < cx.inputs.length) : gradInput i cx = .ok (gradientName name,
      { cx with inputs := cx.inputs.set i (.ofDense (gradientName name)) }) :=
  markNamed_eq_ok_iff.2 ⟨hi, name, nth_eq_ok_iff.1 hname, rfl, rfl⟩

end Making

/-! ## The gradient of a copy -/

/-- The canonical dense gradients of blobs. -/
def denseSlots (blobs : List String) : List GradientSlot :=
  blobs.map fun blob => .ofDense (gradientName blob)

/-- The same operation the other way round, between the gradients of the blobs. -/
def OperatorDef.reversed (d : OperatorDef) : OperatorDef :=
  { d with name := "", inputs := d.outputs.map gradientName, outputs := d.inputs.map gradientName }

section

variable {d : OperatorDef} {source target : String}

theorem OperatorDef.Copies.reversed (h : d.Copies source target) :
    d.reversed.Copies (gradientName target) (gradientName source) where
  opType := h.opType
  inputs := by rw [OperatorDef.reversed, h.outputs, List.map_singleton]
  outputs := by rw [OperatorDef.reversed, h.inputs, List.map_singleton]
  device := h.device

/-- The maker of the gradient of a copy marks its only input. -/
theorem Builtin.run_copyGradient (h : d.Copies source target) :
    copyGradient.run (.init d (denseSlots d.outputs)) = .ok
      ([{ opType := "Copy", inputs := [gradientName target], outputs := [gradientName source] }],
        ⟨d, denseSlots d.outputs, denseSlots d.inputs⟩) := by
  have hout : Making.gradOutput 0 (.init d (denseSlots d.outputs)) =
      .ok (gradientName target, .init d (denseSlots d.outputs)) := by
    refine Making.gradOutput_of_isDense (g := .ofDense (gradientName target)) ?_
      (isDense_gradientName target)
    rw [GradientContext.init, h.outputs]
    rfl
  have hin : Making.gradInput 0 (.init d (denseSlots d.outputs)) =
      .ok (gradientName source, ⟨d, denseSlots d.outputs, denseSlots d.inputs⟩) := by
    have hset : ((GradientContext.init d (denseSlots d.outputs)).inputs.set 0
        (.ofDense (gradientName source))) = denseSlots d.inputs := by
      rw [GradientContext.init, h.inputs]
      rfl
    rw [← hset]
    refine Making.gradInput_of_lt ?_ ?_
    · rw [GradientContext.init, h.inputs]
      rfl
    · rw [GradientContext.init, h.inputs]
      exact Nat.one_pos
  change (Making.gradOutput 0 _).bind _ = _
  rw [hout]
  change (Making.gradInput 0 _).bind _ = _
  rw [hin]
  rfl

theorem GradientRegistry.known?_copy : ({} : GradientRegistry).addBuiltins.known? "Copy" =
    some (.maker { generate := Builtin.copyGradient }) := rfl

/-- **The gradient of a copy.** Given the dense gradient of its output, it is a copy to the dense
gradient of its input, with the placement, the engines and the arguments of the copy. -/
theorem GradientRegistry.derive_of_copies (h : d.Copies source target) :
    ({} : GradientRegistry).addBuiltins.derive d (denseSlots d.outputs) =
      .ok { ops := [d.reversed], inputs := denseSlots d.inputs } := by
  have hlength : (denseSlots d.outputs).length = d.outputs.length := List.length_map ..
  have hreversed : GradientMaker.inherit { generate := Builtin.copyGradient } d
      { opType := "Copy", inputs := [gradientName target], outputs := [gradientName source] } =
        d.reversed := by
    rw [OperatorDef.reversed, h.opType, h.inputs, h.outputs]
    rfl
  rw [derive, h.opType, known?_copy]
  dsimp only
  rw [if_pos hlength, run]
  dsimp only
  rw [Builtin.run_copyGradient h, ← hreversed]
  rfl

end

/-! ## Backward nets -/

/-- The net of backward operators, those of the last definition first. It is fed the gradient of the
last blob, and promises that of the first one. The rest of its definition may be any. -/
def backwardNet (d : NetDef) (source target : String) (gradients : List Gradient) : NetDef :=
  { d with
    ops := gradients.reverse.flatMap (·.ops)
    externalInputs := [gradientName target]
    externalOutputs := [gradientName source] }

namespace CopyPath

variable {source target : String} {forward : List OperatorDef}

/-- **The gradients of a path are a path backward.** By induction along the path: what comes first
forward comes last backward. -/
theorem exists_gradients (h : CopyPath source forward target) : ∃ gradients : List Gradient,
    List.Forall₂ (fun d g =>
      ({} : GradientRegistry).addBuiltins.derive d (denseSlots d.outputs) = .ok g ∧
        g.inputs = denseSlots d.inputs) forward gradients ∧
      CopyPath (gradientName target) (gradients.reverse.flatMap (·.ops)) (gradientName source) := by
  induction h with
  | nil blob => exact ⟨[], .nil, .nil _⟩
  | @cons source middle target d ds h _ ih =>
    obtain ⟨gradients, hgradients, hpath⟩ := ih
    refine ⟨⟨[d.reversed], denseSlots d.inputs⟩ :: gradients,
      .cons ⟨GradientRegistry.derive_of_copies h, rfl⟩ hgradients, ?_⟩
    rw [List.reverse_cons, List.flatMap_append]
    exact hpath.concat h.reversed

/-- **Backward nets of copies deliver the gradient.** With the built-in operators and their gradients
only, every copy of a path has a gradient, and the net of all of them, the last one first, is built
if its pool starts, and takes whatever is the gradient of the last blob to where the gradient of the
first one belongs. -/
theorem backward_delivers [Inhabited σ] (h : CopyPath source forward target) :
    ∃ (r : Registry σ) (gradients : List Gradient), ({} : Registry σ).addBuiltins = .ok r ∧
      List.Forall₂ (fun d g =>
        ({} : GradientRegistry).addBuiltins.derive d (denseSlots d.outputs) = .ok g ∧
          g.inputs = denseSlots d.inputs) forward gradients ∧
      ∀ (d : NetDef) (pools : WorkerPools), d.netType ∈ ["", "simple", "dag"] → pools.Serves d →
        r.Delivers pools (backwardNet d source target gradients) (gradientName target)
          (gradientName source) := by
  obtain ⟨gradients, hgradients, hpath⟩ := h.exists_gradients
  exact ⟨Registry.builtin, gradients, Registry.addBuiltins_empty, hgradients,
    fun d pools htype hserves => Registry.delivers_of_copyPath hpath htype hserves rfl rfl⟩

end CopyPath

namespace Detour

/-- Copies from a blob to itself, to another one and back, and on, with an engine that nobody has. -/
def forward : List OperatorDef :=
  [{ opType := "Copy", inputs := ["x"], outputs := ["x"], engine := "BLAS" },
    { opType := "Copy", inputs := ["x"], outputs := ["y"] },
    { opType := "Copy", inputs := ["y"], outputs := ["x"] },
    { opType := "Copy", inputs := ["x"], outputs := ["z"] }]

theorem copyPath_forward : CopyPath "x" forward "z" :=
  .cons ⟨rfl, rfl, rfl, rfl⟩ <| .cons ⟨rfl, rfl, rfl, rfl⟩ <| .cons ⟨rfl, rfl, rfl, rfl⟩ <|
    .cons ⟨rfl, rfl, rfl, rfl⟩ (.nil "z")

end Detour

/-- On the way back a gradient is visited three times, and the byte that was fed gets through. -/
theorem detour_backward_delivers : CopyPath "x" Detour.forward "z" ∧
    ∃ (r : Registry Unit) (gradients : List Gradient) (net : Net Unit) (s : Store) (p : Payload)
        (result : NetRun Unit) (order : List Nat),
      ({} : Registry Unit).addBuiltins = .ok r ∧ gradients.length = 4 ∧
      WorkerPools.plentiful.Serves { netType := "dag" } ∧
      (r.createNet .plentiful {} "" (backwardNet { netType := "dag" } "x" "z" gradients)).outcome =
        .ok net ∧
      s.fetch "" (gradientName "z") (.known .byte) = .ok p ∧ p.value = .known (.byte 3) ∧
      net.RunsTo .async s.heap result order ∧ result.outcome = .ok () ∧
      ({ s with heap := result.heap } : Store).fetch "" (gradientName "x") (.known .byte) =
        .ok p := by
  obtain ⟨r, gradients, hr, hgradients, hdelivers⟩ :=
    CopyPath.backward_delivers (σ := Unit) Detour.copyPath_forward
  obtain ⟨net, hnet, hruns⟩ :=
    hdelivers { netType := "dag" } .plentiful (by decide) (by decide) {} ""
  generalize (r.createNet .plentiful {} "" _).store = built at hruns
  -- the gradient is fed when the net was built
  let fed := (built.feed "" (gradientName "z") (.known (.byte 3))).2
  have hblob : fed.blob? "" (gradientName "z") = some (built.create "" (gradientName "z")).1 :=
    built.blob?_create_self "" (gradientName "z")
  have hfed := (Store.fetch_eq_ok_iff hblob).2
    (congrArg Cell.content (Heap.cell_set_self _ _ (.known (.byte 3))))
  obtain ⟨⟨result, order, hrun⟩, hall⟩ :=
    hruns net .new fed (built.extends_create "" _) _ hfed .async
  obtain ⟨hok, hdelivered⟩ := hall result order hrun
  exact ⟨Detour.copyPath_forward, r, gradients, net, _, _, result, order, hr,
    hgradients.length_eq.symm, by decide, hnet, hfed, rfl, hrun, hok, hdelivered⟩

end OpNet
