import Mathlib.Data.List.Induction
import Mathlib.Logic.Relation
import Std.Data.String.ToNat
import OpNet.Proofs.Schema.Verdict

/-!
# Schemas that can be used

A schema may be registered if each of its rules can be kept. That does not mean that they can be
kept together: two enforced pairs with a common input tie their outputs to each other, and in this
way an input can be tied to an output that it has no permission to share a blob with. Nothing but
that stands in the way.

* `Schema.Ties`, `Schema.Tied` — the places of a definition that have to be the same blob, by one
  enforced pair and by a chain of them. Only places that every definition has are tied.
* `Schema.Accepts.blob?_eq` — in a definition that is accepted tied places are the same blob.
* `Schema.freest` — the definition in which no more places are the same blob than have to be. It is
  made by joining the pairs one by one; `Schema.Draft` is what each step keeps.
* `Schema.usable_iff` — when there is a definition that a schema accepts;
  `Schema.usable_iff_verify_freest` decides it.
-/

set_option autoImplicit false

namespace OpNet

/-! ## Places -/

/-- A place in a definition. -/
inductive Place where
  | input (i : Nat)
  | output (o : Nat)

/-- The blob at a place, if the definition has the place. -/
def Place.blob? (d : OperatorDef) : Place → Option String
  | input i => d.inputs[i]?
  | output o => d.outputs[o]?

/-- A number for each place: inputs have even ones, outputs have odd ones. -/
def Place.number : Place → Nat
  | input i => 2 * i
  | output o => 2 * o + 1

theorem Place.eq_of_number_eq {x y : Place} (h : x.number = y.number) : x = y := by
  cases x with
  | input i =>
    cases y with
    | input j => exact congrArg input (Nat.mul_left_cancel Nat.zero_lt_two h)
    | output o => simp only [number] at h; omega
  | output o =>
    cases y with
    | input i => simp only [number] at h; omega
    | output o' => exact congrArg output (Nat.mul_left_cancel Nat.zero_lt_two (Nat.succ.inj h))

/-- Replaces a blob by another one, wherever it is. -/
def OperatorDef.rename (d : OperatorDef) (old new : String) : OperatorDef :=
  { d with
    inputs := d.inputs.map fun blob => if blob = old then new else blob
    outputs := d.outputs.map fun blob => if blob = old then new else blob }

theorem Place.blob?_rename (d : OperatorDef) (old new : String) (x : Place) :
    x.blob? (d.rename old new) = (x.blob? d).map fun blob => if blob = old then new else blob := by
  cases x <;> exact List.getElem?_map

/-- Makes the output of a pair the same blob as the input, if the definition has both. -/
def OperatorDef.join (d : OperatorDef) (p : Nat × Nat) : OperatorDef :=
  match d.inputs[p.1]?, d.outputs[p.2]? with
  | some input, some output => d.rename output input
  | _, _ => d

namespace Schema

variable {s : Schema} {d : OperatorDef} {p : Nat × Nat} {x y : Place}

/-! ## Ties -/

/-- An enforced pair whose places are there in all definitions of the type. -/
inductive Ties (s : Schema) : Place → Place → Prop
  | pair {i o : Nat} (h : (i, o) ∈ s.enforced) (hi : i < s.inputs.lo) (ho : o < s.outputs.lo) :
      Ties s (.input i) (.output o)

/-- A chain of enforced pairs leads from one place to the other. -/
def Tied (s : Schema) : Place → Place → Prop := Relation.EqvGen s.Ties

theorem verify_eq_ok_iff : s.verify d = .ok () ↔ s.Accepts d := by
  refine ⟨fun hok => ?_, verify_of_accepts⟩
  rcases s.accepts_or_exists_firstViolation d with haccepts | ⟨cause, hviolation⟩
  · exact haccepts
  · exact nomatch hok.symm.trans (verify_of_firstViolation hviolation)

/-- Tied places are the same blob. -/
theorem Accepts.blob?_eq (h : s.Accepts d) (htied : s.Tied x y) : x.blob? d = y.blob? d := by
  induction htied with
  | rel x y hties =>
    cases hties with
    | @pair i o hmem hi ho =>
      have hinput := List.getElem?_eq_getElem (Nat.lt_of_lt_of_le hi h.inputs.1)
      have houtput := List.getElem?_eq_getElem (Nat.lt_of_lt_of_le ho h.outputs.1)
      rw [Place.blob?, Place.blob?, hinput, houtput, h.enforced i o _ _ hmem hinput houtput]
  | refl => rfl
  | symm _ _ _ ih => exact ih.symm
  | trans _ _ _ _ _ ih ih' => exact ih.trans ih'

/-- So a tied pair has to be one that may share a blob. -/
theorem Accepts.permits_of_tied (h : s.Accepts d) {i o : Nat} (hi : i < s.inputs.lo)
    (htied : s.Tied (.input i) (.output o)) : (i, o) ∈ s.allowed ∨ (i, o) ∈ s.enforced := by
  have hinput := List.getElem?_eq_getElem (Nat.lt_of_lt_of_le hi h.inputs.1)
  exact h.shared i o _ hinput ((h.blob?_eq htied).symm.trans hinput)

/-! ## The freest definition -/

/-- The shortest definition of the type without any blob in two places. -/
def apart (s : Schema) : OperatorDef where
  opType := s.opType
  inputs := (List.range s.inputs.lo).map fun i => Nat.repr (Place.input i).number
  outputs := (List.range s.outputs.lo).map fun o => Nat.repr (Place.output o).number

/-- The shortest definition of the type in which just the enforced pairs are joined. -/
def freest (s : Schema) : OperatorDef := s.enforced.foldl OperatorDef.join s.apart

/-- A definition of the smallest size in which places are the same blob only if they are tied. -/
structure Draft (s : Schema) (d : OperatorDef) : Prop where
  opType : d.opType = s.opType
  inputs : d.inputs.length = s.inputs.lo
  outputs : d.outputs.length = s.outputs.lo
  tied : ∀ x y blob, x.blob? d = some blob → y.blob? d = some blob → s.Tied x y

theorem eq_repr_of_blob?_apart {blob : String} (h : x.blob? s.apart = some blob) :
    blob = Nat.repr x.number := by
  cases x with
  | input i | output i =>
    rw [Place.blob?, apart, List.getElem?_map] at h
    obtain ⟨n, hn, rfl⟩ := Option.map_eq_some_iff.1 h
    obtain ⟨hlt, rfl⟩ := List.getElem?_eq_some_iff.1 hn
    rw [List.getElem_range]

theorem draft_apart (s : Schema) : s.Draft s.apart where
  opType := rfl
  inputs := (List.length_map _).trans List.length_range
  outputs := (List.length_map _).trans List.length_range
  tied x y blob hx hy := by
    obtain rfl := eq_repr_of_blob?_apart hx
    obtain rfl := Place.eq_of_number_eq (Nat.repr_injective (eq_repr_of_blob?_apart hy))
    exact .refl x

/-- What is at a place after tied blobs were joined was at a place tied to it before. -/
theorem Draft.exists_tied (h : s.Draft d) {old new blob : String} {xOld xNew : Place}
    (hold : xOld.blob? d = some old) (hnew : xNew.blob? d = some new) (htied : s.Tied xOld xNew)
    (hx : x.blob? (d.rename old new) = some blob) : ∃ z, s.Tied x z ∧ z.blob? d = some blob := by
  rw [Place.blob?_rename] at hx
  obtain ⟨before, hbefore, hafter⟩ := Option.map_eq_some_iff.1 hx
  split at hafter
  · next heq =>
    subst heq hafter
    exact ⟨xNew, (h.tied x xOld before hbefore hold).trans _ _ _ htied, hnew⟩
  · subst hafter
    exact ⟨x, .refl x, hbefore⟩

theorem Draft.rename (h : s.Draft d) {old new : String} {xOld xNew : Place}
    (hold : xOld.blob? d = some old) (hnew : xNew.blob? d = some new)
    (htied : s.Tied xOld xNew) : s.Draft (d.rename old new) where
  opType := h.opType
  inputs := (List.length_map _).trans h.inputs
  outputs := (List.length_map _).trans h.outputs
  tied x y blob hx hy := by
    obtain ⟨x', hxx', hx'⟩ := h.exists_tied hold hnew htied hx
    obtain ⟨y', hyy', hy'⟩ := h.exists_tied hold hnew htied hy
    exact hxx'.trans _ _ _ ((h.tied x' y' blob hx' hy').trans _ _ _ (hyy'.symm _ _))

theorem Draft.join (h : s.Draft d) (hp : p ∈ s.enforced) : s.Draft (d.join p) := by
  rw [OperatorDef.join]
  split
  · next input output hinput houtput =>
    obtain ⟨hi, -⟩ := List.getElem?_eq_some_iff.1 hinput
    obtain ⟨ho, -⟩ := List.getElem?_eq_some_iff.1 houtput
    rw [h.inputs] at hi
    rw [h.outputs] at ho
    have hold : (Place.output p.2).blob? d = some output := houtput
    have hnew : (Place.input p.1).blob? d = some input := hinput
    exact h.rename hold hnew (.symm _ _ (.rel _ _ (.pair hp hi ho)))
  · exact h

theorem Draft.foldl_join {pairs : List (Nat × Nat)} (h : s.Draft d)
    (hpairs : ∀ p ∈ pairs, p ∈ s.enforced) : s.Draft (pairs.foldl OperatorDef.join d) := by
  induction pairs generalizing d with
  | nil => exact h
  | cons p pairs ih =>
    obtain ⟨hp, hpairs⟩ := List.forall_mem_cons.1 hpairs
    exact ih (h.join hp) hpairs

/-- The freest definition joins no more than it has to. -/
theorem draft_freest (s : Schema) : s.Draft s.freest := s.draft_apart.foldl_join fun _ hp => hp

/-- The input and the output of a pair are the same blob, if the definition has both. -/
def Joined (d : OperatorDef) (p : Nat × Nat) : Prop :=
  ∀ input output, d.inputs[p.1]? = some input → d.outputs[p.2]? = some output → input = output

/-- A renaming leaves what is joined joined. -/
theorem Joined.rename (h : Joined d p) (old new : String) : Joined (d.rename old new) p := by
  intro input output hinput houtput
  obtain ⟨a, ha, rfl⟩ := Option.map_eq_some_iff.1 (List.getElem?_map.symm.trans hinput)
  obtain ⟨b, hb, rfl⟩ := Option.map_eq_some_iff.1 (List.getElem?_map.symm.trans houtput)
  rw [h a b ha hb]

theorem Joined.join (h : Joined d p) (q : Nat × Nat) : Joined (d.join q) p := by
  rw [OperatorDef.join]
  split
  · exact h.rename _ _
  · exact h

theorem joined_join (d : OperatorDef) (p : Nat × Nat) : Joined (d.join p) p := by
  rw [OperatorDef.join]
  split
  · next a b ha hb =>
    intro input output hinput houtput
    rw [OperatorDef.rename, List.getElem?_map, ha, Option.map_some, ite_self] at hinput
    rw [OperatorDef.rename, List.getElem?_map, hb, Option.map_some, if_pos rfl] at houtput
    exact Option.some.inj (hinput.symm.trans houtput)
  · next hnone =>
    intro input output hinput houtput
    exact absurd houtput (hnone input output hinput)

theorem joined_foldl_join (d : OperatorDef) (pairs : List (Nat × Nat)) :
    ∀ p ∈ pairs, Joined (pairs.foldl OperatorDef.join d) p := by
  induction pairs using List.reverseRecOn with
  | nil => exact fun _ hp => absurd hp List.not_mem_nil
  | append_singleton pairs q ih =>
    intro p hp
    rw [List.foldl_append]
    rcases List.mem_append.1 hp with hp | hp
    · exact (ih p hp).join q
    · obtain rfl := List.mem_singleton.1 hp
      exact joined_join _ p

/-! ## Usable schemas -/

/-- There is a definition of the type that the schema accepts. It may name any number of blobs, as
many as the lower bounds ask for. -/
def Usable (s : Schema) : Prop := ∃ d : OperatorDef, d.opType = s.opType ∧ s.verify d = .ok ()

/-- An input and an output that every definition has, and that have to be the same blob, may be. -/
def TiesPermitted (s : Schema) : Prop :=
  ∀ i o, i < s.inputs.lo → o < s.outputs.lo → s.Tied (.input i) (.output o) →
    (i, o) ∈ s.allowed ∨ (i, o) ∈ s.enforced

theorem isWellFormed_iff : s.isWellFormed ↔ s.opType ≠ "" ∧ s.inputs.lo ≤ s.inputs.hi ∧
    s.outputs.lo ≤ s.outputs.hi ∧ (∀ p ∈ s.allowed, s.admitsPair p) ∧
    ∀ p ∈ s.enforced, s.admitsPair p := by
  simp [isWellFormed, and_assoc]

theorem tiesPermitted_of_usable (h : s.Usable) : s.TiesPermitted := by
  obtain ⟨d, -, hok⟩ := h
  exact fun i o hi _ htied => (verify_eq_ok_iff.1 hok).permits_of_tied hi htied

theorem accepts_freest (h : s.isWellFormed) (hties : s.TiesPermitted) : s.Accepts s.freest := by
  obtain ⟨-, hinputs, houtputs, -⟩ := isWellFormed_iff.1 h
  have hdraft := s.draft_freest
  refine ⟨⟨hdraft.inputs.ge, hdraft.inputs.trans_le hinputs⟩,
    ⟨hdraft.outputs.ge, hdraft.outputs.trans_le houtputs⟩, fun i o blob hi ho => ?_,
    fun i o input output hmem => joined_foldl_join s.apart s.enforced (i, o) hmem input output⟩
  obtain ⟨hlti, -⟩ := List.getElem?_eq_some_iff.1 hi
  obtain ⟨hlto, -⟩ := List.getElem?_eq_some_iff.1 ho
  rw [hdraft.inputs] at hlti
  rw [hdraft.outputs] at hlto
  exact hties i o hlti hlto (hdraft.tied (.input i) (.output o) blob hi ho)

/-- If any definition is accepted, then the freest one is. -/
theorem usable_iff_verify_freest (h : s.isWellFormed) : s.Usable ↔ s.verify s.freest = .ok () :=
  ⟨fun husable => verify_of_accepts (accepts_freest h (tiesPermitted_of_usable husable)),
    fun hok => ⟨s.freest, s.draft_freest.opType, hok⟩⟩

/-- **A schema that may be registered can be used unless its enforced pairs tie an input to an
output that has no permission to share its blob.** Only the inputs and outputs that every definition
has matter: the ones beyond can be left out. -/
theorem usable_iff (h : s.isWellFormed) : s.Usable ↔ s.TiesPermitted :=
  ⟨tiesPermitted_of_usable, fun hties =>
    ⟨s.freest, s.draft_freest.opType, verify_of_accepts (accepts_freest h hties)⟩⟩

/-- Both outputs are tied to the first input, and both inputs to the first output. -/
def crossed (allowed : List (Nat × Nat)) : Schema where
  opType := "Blend"
  inputs := ⟨2, 2⟩
  outputs := ⟨2, 2⟩
  allowed := allowed
  enforced := [(0, 0), (1, 0), (0, 1)]

/-- The second input is tied to the second output as well, and if that pair is allowed then the type
can be used. -/
theorem crossed_usable : (crossed [(1, 1)]).isWellFormed = true ∧
    ((crossed [(1, 1)]).Usable ↔ (crossed [(1, 1)]).TiesPermitted) ∧
    (crossed [(1, 1)]).Usable := by
  have hpairs : ∀ i < 2, ∀ o < 2,
      (i, o) ∈ (crossed [(1, 1)]).allowed ∨ (i, o) ∈ (crossed [(1, 1)]).enforced := by decide
  have hiff := usable_iff (s := crossed [(1, 1)]) (by decide)
  exact ⟨by decide, hiff, hiff.2 fun i o hi ho _ => hpairs i hi o ho⟩

/-- If it is not allowed then there is no definition of the type. -/
theorem not_usable_crossed : (crossed []).isWellFormed = true ∧
    ¬∃ d : OperatorDef, d.opType = (crossed []).opType ∧ (crossed []).verify d = .ok () := by
  refine ⟨by decide, fun husable => ?_⟩
  have htied : (crossed []).Tied (.input 1) (.output 1) :=
    .trans _ _ _ (.rel _ _ (.pair (o := 0) (by decide) (by decide) (by decide)))
      (.trans _ _ _ (.symm _ _ (.rel _ _ (.pair (i := 0) (by decide) (by decide) (by decide))))
        (.rel _ _ (.pair (by decide) (by decide) (by decide))))
  have hpermits := tiesPermitted_of_usable husable 1 1 (by decide) (by decide) htied
  revert hpermits
  decide

end Schema
end OpNet
