import OpNet.Proofs.Gradient.Derivation
import OpNet.Proofs.Gradient.Marking

/-!
# The canonical names of gradients

A gradient is named by a suffix to the name of its blob, and a blob may be called like the gradient
of another one. Two names still differ wherever their blobs differ: of the three suffixes none ends in
another one, so a name has only one of them, and what is in front of it is the name of the blob.

* `GradientPart`, `GradientPart.nameOf` — the blobs of a gradient and their canonical names.
* `GradientPart.eq_of_suffix_isSuffix`, `GradientPart.nameOf_eq_iff` — the suffixes exclude each
  other, so the names tell the part and the blob.
* `Making.Gets` — the ways in which an input comes to a blob of its gradient by the two calls for
  canonical names; `Making.gets_iff` — these are the blobs with the canonical names.
* `gradientNames_apart` — so the inputs of any definitions come to different blobs.
-/

set_option autoImplicit false

namespace OpNet

/-! ## Names -/

/-- The blobs that hold a gradient: a dense one, or the indices and the values of a sparse one. -/
inductive GradientPart where
  | dense
  | indices
  | values
deriving DecidableEq

namespace GradientPart

/-- The canonical name of a part of the gradient of a blob. -/
def nameOf : GradientPart → String → String
  | dense => gradientName
  | indices => gradientIndicesName
  | values => gradientValuesName

/-- What the canonical name of a part has after the name of the blob. -/
def suffix : GradientPart → String
  | dense => gradientSuffix
  | indices => gradientSuffix ++ "_indices"
  | values => gradientSuffix ++ "_values"

theorem nameOf_eq (k : GradientPart) (blob : String) : k.nameOf blob = blob ++ k.suffix := by
  cases k with
  | dense => rfl
  | indices => exact String.append_assoc
  | values => exact String.append_assoc

/-- None of the suffixes ends in another one. -/
theorem eq_of_suffix_isSuffix {k k' : GradientPart} (h : k.suffix.toList <:+ k'.suffix.toList) :
    k = k' := by
  revert h
  cases k <;> cases k' <;> decide

/-- **A canonical name tells the part and the blob**, whatever the blob is called. -/
theorem nameOf_eq_iff {k k' : GradientPart} {x y : String} :
    k.nameOf x = k'.nameOf y ↔ k = k' ∧ x = y := by
  constructor
  · intro h
    rw [nameOf_eq, nameOf_eq] at h
    have hchars : x.toList ++ k.suffix.toList = y.toList ++ k'.suffix.toList := by
      rw [← String.toList_append, ← String.toList_append, h]
    -- both suffixes end the same text, so one of them ends in the other
    have hk : k = k' := by
      rcases List.suffix_or_suffix_of_suffix ⟨x.toList, hchars⟩ (List.suffix_append _ _) with h | h
      · exact eq_of_suffix_isSuffix h
      · exact (eq_of_suffix_isSuffix h).symm
    subst hk
    exact ⟨rfl, (String.append_left_inj _).1 h⟩
  · rintro ⟨rfl, rfl⟩
    rfl

end GradientPart

/-- The name that a gradient has for one of its parts. -/
def GradientSlot.part (g : GradientSlot) : GradientPart → String
  | .dense => g.dense
  | .indices => g.indices
  | .values => g.values

/-! ## Calls -/

namespace Making

/-- A call for the canonical gradient of an input, as a dense or as a sparse one. -/
def Call.IsCanonical (i : Nat) (c : Call) : Prop := c = .gradInput i ∨ c = .gradInputSparse i

/-- What a canonical call leaves has canonical names. -/
theorem Call.IsCanonical.exists_name {i : Nat} {c : Call} (h : c.IsCanonical i) {d : OperatorDef}
    {g : GradientSlot} (hg : c.slot? d = some g) :
    ∃ x, d.inputs[i]? = some x ∧ ∀ k, g.part k ≠ "" → g.part k = k.nameOf x := by
  rcases h with rfl | rfl
  · obtain ⟨x, hx, rfl⟩ := Option.map_eq_some_iff.1 hg
    refine ⟨x, hx, fun k hk => ?_⟩
    cases k with
    | dense => rfl
    | indices | values => exact absurd rfl hk
  · obtain ⟨x, hx, rfl⟩ := Option.map_eq_some_iff.1 hg
    refine ⟨x, hx, fun k hk => ?_⟩
    cases k with
    | dense => exact absurd rfl hk
    | indices | values => rfl

theorem Call.IsCanonical.target?_eq {i : Nat} {c : Call} (h : c.IsCanonical i) :
    c.target? = some i := by
  rcases h with rfl | rfl <;> rfl

/-- An input of a definition gets a blob as a part of its gradient by the calls for canonical names:
a call answers with its name, in whatever context for the definition, or the blob is in the gradient
that was derived, where the last call that marked the input was such a call. -/
inductive Gets (d : OperatorDef) (i : Nat) : GradientPart → String → Prop
  | dense {cx cx' : GradientContext} {name : String} (hd : cx.forward = d)
      (h : gradInput i cx = .ok (name, cx')) : Gets d i .dense name
  | indices {cx cx' : GradientContext} {indices values : String} (hd : cx.forward = d)
      (h : gradInputSparse i cx = .ok ((indices, values), cx')) : Gets d i .indices indices
  | values {cx cx' : GradientContext} {indices values : String} (hd : cx.forward = d)
      (h : gradInputSparse i cx = .ok ((indices, values), cx')) : Gets d i .values values
  | derived {r : GradientRegistry} {m : GradientMaker} {p : Program (List OperatorDef)}
      {outputs : List GradientSlot} {g : Gradient} {before after : List Call} {c : Call}
      {slot : GradientSlot} {k : GradientPart} (hm : r.known? d.opType = some (.maker m))
      (hp : p.perform = m.generate) (hg : r.derive d outputs = .ok g)
      (hcalls : p.calls (.init d outputs) = before ++ c :: after) (hc : c.IsCanonical i)
      (hafter : ∀ c' ∈ after, c'.target? ≠ some i) (hslot : g.inputs[i]? = some slot)
      (hk : slot.part k ≠ "") : Gets d i k (slot.part k)

section

variable {d : OperatorDef} {i : Nat} {k : GradientPart} {blob x : String}

/-- Whatever an input gets has its canonical name. -/
theorem Gets.exists_name (h : Gets d i k blob) :
    ∃ x, d.inputs[i]? = some x ∧ blob = k.nameOf x := by
  cases h with
  | dense hd h =>
    subst hd
    obtain ⟨-, x, hx, rfl, -⟩ := markNamed_eq_ok_iff.1 h
    exact ⟨x, hx, rfl⟩
  | indices hd h | values hd h =>
    subst hd
    obtain ⟨-, x, hx, hnames, -⟩ := markNamed_eq_ok_iff.1 h
    cases hnames
    exact ⟨x, hx, rfl⟩
  | derived hm hp hg hcalls hc hafter hslot hk =>
    -- the last call that marks the input decides what is left there
    obtain ⟨ops, cx, hrun, hinputs⟩ := GradientRegistry.exists_run_of_derive hm hg
    rw [← hp] at hrun
    have hreflects := (Program.leads_of_perform hrun).reflects ops
    have hlast := hreflects.last _ _ _ i hcalls hc.target?_eq hafter
    rw [hinputs] at hslot
    obtain ⟨x, hx, hname⟩ := hc.exists_name (hlast.symm.trans hslot)
    exact ⟨x, hx, hname _ hk⟩

/-- An input that exists gets all the blobs with its canonical names. -/
theorem gets_nameOf (hx : d.inputs[i]? = some x) (k : GradientPart) : Gets d i k (k.nameOf x) := by
  have hi : i < (GradientContext.init d []).inputs.length := by
    rw [GradientContext.init, List.length_map]
    exact (List.getElem?_eq_some_iff.1 hx).1
  have hdense : ∃ cx, gradInput i (.init d []) = .ok (gradientName x, cx) :=
    ⟨_, markNamed_eq_ok_iff.2 ⟨hi, x, hx, rfl, rfl⟩⟩
  have hsparse : ∃ cx, gradInputSparse i (.init d []) =
      .ok ((gradientIndicesName x, gradientValuesName x), cx) :=
    ⟨_, markNamed_eq_ok_iff.2 ⟨hi, x, hx, rfl, rfl⟩⟩
  cases k with
  | dense => exact .dense rfl hdense.choose_spec
  | indices => exact .indices rfl hsparse.choose_spec
  | values => exact .values rfl hsparse.choose_spec

/-- An input gets the blobs with its canonical names, and no others. -/
theorem gets_iff : Gets d i k blob ↔ ∃ x, d.inputs[i]? = some x ∧ blob = k.nameOf x := by
  constructor
  · exact Gets.exists_name
  · rintro ⟨x, hx, rfl⟩
    exact gets_nameOf hx k

end

end Making

/-- **Canonical names never collide.** Two of them are equal only if they name the same part of the
gradient of the same blob, and an input gets the blobs with its canonical names. So two inputs that
are called differently, of one definition or of two, never get a common blob for their gradients,
whatever they are called. -/
theorem gradientNames_apart :
    (∀ (k k' : GradientPart) (x y : String), k.nameOf x = k'.nameOf y ↔ k = k' ∧ x = y) ∧
    (∀ (d : OperatorDef) (i : Nat) (k : GradientPart) (blob : String),
      Making.Gets d i k blob ↔ ∃ x, d.inputs[i]? = some x ∧ blob = k.nameOf x) ∧
    ∀ (d d' : OperatorDef) (i j : Nat) (x y : String) (k k' : GradientPart) (blob : String),
      d.inputs[i]? = some x → d'.inputs[j]? = some y →
      Making.Gets d i k blob → Making.Gets d' j k' blob → k = k' ∧ x = y := by
  refine ⟨fun k k' x y => GradientPart.nameOf_eq_iff, fun d i k blob => Making.gets_iff,
    fun d d' i j x y k k' blob hx hy hi hj => ?_⟩
  obtain ⟨x', hx', hblob⟩ := hi.exists_name
  obtain ⟨y', hy', hblob'⟩ := hj.exists_name
  obtain rfl := Option.some.inj (hx.symm.trans hx')
  obtain rfl := Option.some.inj (hy.symm.trans hy')
  exact GradientPart.nameOf_eq_iff.1 (hblob.symm.trans hblob')

namespace Nested

/-- An operator whose second and third input are called like gradients of the first one. -/
def forward : OperatorDef where
  opType := "Nest"
  inputs := ["x", "x_grad", "x_grad_indices"]
  outputs := ["y"]

/-- Marks the first gradient as a sparse one and the others as dense ones, the second one after a
mark with another name. -/
def program : Making.Program (List OperatorDef) :=
  .call (.gradInputSparse 0) fun _ => .call (.setDense 1 "x_grad_indices") fun _ =>
    .call (.gradInput 1) fun _ => .call (.gradInput 2) fun _ => .done []

/-- The registry that knows the maker. -/
def registry : GradientRegistry :=
  (({} : GradientRegistry).register "Nest" { generate := program.perform }).2

/-- The gradients that the maker leaves. -/
def gradient : Gradient where
  inputs := [.ofSparse "x_grad_indices" "x_grad_values", .ofDense "x_grad_grad",
    .ofDense "x_grad_indices_grad"]

end Nested

open Nested in
/-- The indices of the first gradient are in a blob that is called like the third input, and in none
of the blobs that the others get. -/
theorem nested_names_apart : registry.derive forward [{}] = .ok gradient ∧
    Making.Gets forward 0 .indices "x_grad_indices" ∧ Making.Gets forward 1 .dense "x_grad_grad" ∧
    (∀ k, ¬Making.Gets forward 1 k "x_grad_indices") ∧
      ∀ k, ¬Making.Gets forward 2 k "x_grad_indices" := by
  have hderive : registry.derive forward [{}] = .ok gradient := rfl
  -- the two calls, with those that come before and after them
  have hsparse : program.calls (.init forward [{}]) =
      [] ++ .gradInputSparse 0 :: [.setDense 1 "x_grad_indices", .gradInput 1, .gradInput 2] := rfl
  have hdense : program.calls (.init forward [{}]) =
      [.gradInputSparse 0, .setDense 1 "x_grad_indices"] ++ .gradInput 1 :: [.gradInput 2] := rfl
  have hfirst : Making.Gets forward 0 .indices "x_grad_indices" :=
    .derived rfl rfl hderive hsparse (.inr rfl) (by decide) rfl
      (show (GradientSlot.ofSparse "x_grad_indices" "x_grad_values").part .indices ≠ "" by decide)
  have hsecond : Making.Gets forward 1 .dense "x_grad_grad" :=
    .derived rfl rfl hderive hdense (.inl rfl) (by decide) rfl
      (show (GradientSlot.ofDense "x_grad_grad").part .dense ≠ "" by decide)
  refine ⟨hderive, hfirst, hsecond, fun k h => ?_, fun k h => ?_⟩
  · have hnames := (gradientNames_apart.2.2 forward forward 0 1 _ _ _ _ _ rfl rfl hfirst h).2
    exact absurd hnames (by decide)
  · have hnames := (gradientNames_apart.2.2 forward forward 0 2 _ _ _ _ _ rfl rfl hfirst h).2
    exact absurd hnames (by decide)

end OpNet
