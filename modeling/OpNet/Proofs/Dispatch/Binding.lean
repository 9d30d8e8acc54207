import OpNet.Net.Build
import OpNet.Proofs.Store.Additions

/-!
# What operators are bound to

Dispatch may try several factories, each with a binding of its own. Whichever builds the operator,
the operator is bound to the blobs that the names of its definition stand for.

* `Binding.Bound` — the handles of a binding are those of the names of its definition.
* `Binding.Fresh` — a binding that nothing has happened to; `Binding.bind_of_bound` says that there
  is one only, so that binding once more gives the same again.
* `Registry.bound_of_walk`, `Registry.bound_of_createOperator` — so it is after dispatch;
  `Registry.bound_of_instantiate` — and after all the operators of a net were dispatched.
-/

set_option autoImplicit false

namespace OpNet

/-- What is resolved are the handles of the names. -/
theorem Store.map_blob?_of_resolve {s : Store} {ws : String} {names : List String}
    {bs : List BlobId} (h : s.resolve ws names = .ok bs) :
    names.map (s.blob? ws) = bs.map some := by
  induction names generalizing bs with
  | nil =>
    obtain rfl : [] = bs := Except.ok.inj h
    rfl
  | cons name names ih =>
    rw [resolve, getBlob] at h
    cases hb : s.blob? ws name with
    | none =>
      rw [hb] at h
      cases h
    | some b =>
      rw [hb] at h
      cases hbs : s.resolve ws names with
      | error cause =>
        rw [hbs] at h
        cases h
      | ok rest =>
        rw [hbs] at h
        obtain rfl : b :: rest = bs := Except.ok.inj h
        rw [List.map_cons, List.map_cons, hb, ih hbs]

/-- Names that are there are resolved to their handles. -/
theorem Store.resolve_of_map_blob? {s : Store} {ws : String} {names : List String}
    {bs : List BlobId} (h : names.map (s.blob? ws) = bs.map some) : s.resolve ws names = .ok bs := by
  induction names generalizing bs with
  | nil =>
    obtain rfl : bs = [] := List.map_eq_nil_iff.1 h.symm
    rfl
  | cons name names ih =>
    cases bs with
    | nil => cases h
    | cons b bs =>
      obtain ⟨hb, hbs⟩ := List.cons.inj h
      rw [resolve, getBlob, hb, ih hbs]
      rfl

/-- The first name that is missing is reported. -/
theorem Store.resolve_of_missing {s : Store} {ws name : String} {names : List String}
    (h : names.find? (fun name => !s.has ws name) = some name) :
    s.resolve ws names = .error (.blobNotFound name) := by
  induction names with
  | nil => cases h
  | cons name' names ih =>
    rw [resolve, getBlob]
    cases hb : s.blob? ws name' with
    | none =>
      rw [List.find?_cons_of_pos (by rw [has_eq_false_iff.2 hb]; rfl)] at h
      obtain rfl := Option.some.inj h
      rfl
    | some b =>
      rw [List.find?_cons_of_neg (by rw [has_iff_exists.2 ⟨b, hb⟩]; exact Bool.false_ne_true)] at h
      rw [ih h]
      rfl

/-- The handles of a binding are those that the names of its definition have. -/
structure Binding.Bound (s : Store) (ws : String) (b : Binding) : Prop where
  inputs : b.definition.inputs.map (s.blob? ws) = b.inputs.map some
  outputs : b.definition.outputs.map (s.blob? ws) = b.outputs.map some

theorem Binding.Bound.mono {s s' : Store} {ws : String} {b : Binding} (h : b.Bound s ws)
    (hs : s.Extends s') : b.Bound s' ws :=
  ⟨hs.map_blob? h.inputs, hs.map_blob? h.outputs⟩

/-- Binding gives the handles of the names. -/
theorem Binding.bound_of_bind {s s' : Store} {ws : String} {d : OperatorDef} {b : Binding}
    (h : Binding.bind s ws d = .ok (b, s')) :
    b.definition = d ∧ b.Bound s' ws ∧ s.Extends s' := by
  rw [Binding.bind] at h
  cases hin : s.resolve ws d.inputs with
  | error cause =>
    rw [hin] at h
    cases h
  | ok inputs =>
    rw [hin] at h
    obtain ⟨rfl, rfl⟩ := Prod.mk.inj (Except.ok.inj h)
    have hext := s.extends_createAll ws d.outputs
    exact ⟨rfl, ⟨hext.map_blob? (Store.map_blob?_of_resolve hin),
      s.map_blob?_createAll ws d.outputs⟩, hext⟩

/-- A binding of a definition as it is handed to a factory: dispatch has not finished with it, and no
engine is on record. -/
structure Binding.Fresh (b : Binding) (d : OperatorDef) : Prop where
  definition : b.definition = d
  engine : b.engine = ""
  state : b.state = .constructed

/-- Binding gives a fresh binding and creates the outputs, or it reports the first input that is
missing. -/
theorem Binding.bind_cases (s : Store) (ws : String) (d : OperatorDef) :
    (∃ b, Binding.bind s ws d = .ok (b, (s.createAll ws d.outputs).2) ∧ b.Fresh d ∧
      ∀ name ∈ d.inputs, s.has ws name) ∨
    ∃ name, Binding.bind s ws d = .error (.blobNotFound name) ∧
      d.inputs.find? (fun name => !s.has ws name) = some name := by
  cases hfind : d.inputs.find? (fun name => !s.has ws name) with
  | none =>
    have hall := Store.find?_missing_eq_none_iff.1 hfind
    obtain ⟨bs, hbs⟩ := Store.exists_map_blob? hall
    refine .inl ⟨{ definition := d, inputs := bs, outputs := (s.createAll ws d.outputs).1 }, ?_,
      ⟨rfl, rfl, rfl⟩, hall⟩
    rw [Binding.bind, Store.resolve_of_map_blob? hbs]
    rfl
  | some name =>
    refine .inr ⟨name, ?_, rfl⟩
    rw [Binding.bind, Store.resolve_of_missing hfind]
    rfl

theorem Binding.fresh_of_bind {s s' : Store} {ws : String} {d : OperatorDef} {b : Binding}
    (h : Binding.bind s ws d = .ok (b, s')) : b.Fresh d := by
  rcases Binding.bind_cases s ws d with ⟨b', hbind, hfresh, -⟩ | ⟨name, hbind, -⟩
  · rw [hbind] at h
    obtain ⟨rfl, -⟩ := Prod.mk.inj (Except.ok.inj h)
    exact hfresh
  · rw [hbind] at h
    cases h

/-- **Binding again gives the same again**: where the blobs of a definition are, nothing is created.
-/
theorem Binding.bind_of_bound {s : Store} {ws : String} {d : OperatorDef} {b : Binding}
    (hfresh : b.Fresh d) (hbound : b.Bound s ws) : Binding.bind s ws d = .ok (b, s) := by
  obtain ⟨definition, inputs, outputs, engine, state⟩ := b
  obtain ⟨rfl, rfl, rfl⟩ := hfresh
  rw [Binding.bind, Store.resolve_of_map_blob? hbound.inputs]
  change Except.ok ((⟨definition, inputs, (s.createAll ws definition.outputs).1, "",
    .constructed⟩ : Binding), (s.createAll ws definition.outputs).2) = _
  rw [Store.createAll_eq_of_map_blob? hbound.outputs]

namespace Registry

variable {σ : Type} {r : Registry σ} {ws : String}

theorem extends_walk (d : OperatorDef) (s : Store) (routes : List (Route σ)) :
    s.Extends (r.walk ws d s routes).store := by
  induction routes generalizing s with
  | nil => exact .refl s
  | cons route rest ih =>
    rw [walk]
    split
    · exact .refl s
    · next b s' hbind =>
      have hext := (Binding.bound_of_bind hbind).2.2
      simp only [Dispatch.after]
      split
      · exact hext.trans (s'.extends_createAll ws d.outputs)
      · split
        · exact hext.trans (ih s')
        · exact hext
      · exact hext
      · exact hext

/-- The operator that a walk gives is bound to the blobs of its definition. -/
theorem bound_of_walk {d : OperatorDef} {s : Store} {routes : List (Route σ)} {op : Operator σ}
    (h : (r.walk ws d s routes).outcome = .ok op) :
    op.binding.definition = d ∧ op.binding.Bound (r.walk ws d s routes).store ws := by
  induction routes generalizing s with
  | nil => cases h
  | cons route rest ih =>
    rw [walk] at h ⊢
    split at h
    · cases h
    · next b s' hbind =>
      obtain ⟨hdef, hbound, -⟩ := Binding.bound_of_bind hbind
      simp only [Dispatch.after] at h ⊢
      cases hverdict : (route.factory b).verdict with
      | built product =>
        simp only [hverdict] at h ⊢
        obtain rfl := Except.ok.inj h
        have hlater := hbound.mono (s'.extends_createAll ws d.outputs)
        exact ⟨hdef, hlater.inputs, hlater.outputs⟩
      | refused refusal =>
        cases refusal with
        | unsupported reason =>
          cases hengine : route.engine? with
          | some engine =>
            simp only [hverdict, hengine] at h ⊢
            exact ih h
          | none =>
            simp only [hverdict, hengine] at h
            cases h
        | failed source =>
          simp only [hverdict] at h
          cases h
      | panicked text =>
        simp only [hverdict] at h
        cases h

theorem extends_createOperator (s : Store) (d : OperatorDef) :
    s.Extends (r.createOperator s ws d).store := by
  rw [createOperator]
  split
  · exact .refl s
  · exact extends_walk d s _

theorem bound_of_createOperator {s : Store} {d : OperatorDef} {op : Operator σ}
    (h : (r.createOperator s ws d).outcome = .ok op) :
    op.binding.definition = d ∧ op.binding.Bound (r.createOperator s ws d).store ws := by
  rw [createOperator] at h ⊢
  split at h
  · cases h
  · exact bound_of_walk h

theorem extends_createOperators (s : Store) (ds : List OperatorDef) :
    s.Extends (r.createOperators ws s ds).store := by
  induction ds generalizing s with
  | nil => exact .refl s
  | cons d ds ih =>
    rw [createOperators]
    dsimp only
    split
    · exact extends_createOperator s d
    · exact (extends_createOperator s d).trans (ih _)

/-- The operators of a list of definitions are bound to the blobs of these definitions. -/
theorem bound_of_createOperators {s : Store} {ds : List OperatorDef} {ops : List (Operator σ)}
    (h : (r.createOperators ws s ds).outcome = .ok ops) :
    ops.map (·.binding.definition) = ds ∧
      ∀ op ∈ ops, op.binding.Bound (r.createOperators ws s ds).store ws := by
  induction ds generalizing s ops with
  | nil =>
    obtain rfl := Except.ok.inj h
    simp
  | cons d ds ih =>
    rw [createOperators] at h ⊢
    dsimp only at h ⊢
    split at h
    · cases h
    · next op hop =>
      obtain ⟨hdef, hbound⟩ := bound_of_createOperator hop
      cases hrest : (r.createOperators ws (r.createOperator s ws d).store ds).outcome with
      | error stop =>
        rw [hrest] at h
        cases h
      | ok rest =>
        rw [hrest] at h
        obtain rfl := Except.ok.inj h
        obtain ⟨hdefs, hbounds⟩ := ih hrest
        refine ⟨by rw [List.map_cons, hdef, hdefs], fun op' hop' => ?_⟩
        rcases List.mem_cons.1 hop' with rfl | hop'
        · exact hbound.mono (extends_createOperators _ ds)
        · exact hbounds op' hop'

/-- **The operators of a net are bound to the blobs of their definitions.** -/
theorem bound_of_instantiate {s : Store} {d : NetDef} {ops : List (Operator σ)}
    (h : (r.instantiate s ws d).outcome = .ok ops) :
    ops.map (·.binding.definition) = d.ops ∧
      ∀ op ∈ ops, op.binding.Bound (r.instantiate s ws d).store ws := by
  unfold instantiate at h ⊢
  dsimp only at h ⊢
  split at h
  · cases h
  · exact bound_of_createOperators h

end Registry
end OpNet
