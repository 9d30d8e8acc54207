import OpNet.Proofs.Store.Extension

/-!
# What creation adds

Creating blobs adds names to a workspace and does nothing else: what was there stays, with what it
holds, and what is new is empty.

* `Store.Keeps` — a later store, in which every blob is still there and holds the same.
* `Store.Adds` — a later store of this kind, with the names of a list added to a workspace.
* `Store.adds_createAll` — creation gives such a store, and `Store.createAll_eq_of_map_blob?` says
  that it changes nothing if the names are there already.
-/

set_option autoImplicit false

namespace OpNet
namespace Store

/-- Every blob of the first store has the same names in the second, and holds the same payload. -/
structure Keeps (s s' : Store) : Prop where
  names : s.Extends s'
  content_eq : ∀ ws name b, s.blob? ws name = some b → s'.heap.content b = s.heap.content b

/-- The second store is the first one with the names of a list added to a workspace, those that were
missing as the names of empty blobs. -/
structure Adds (s s' : Store) (ws : String) (names : List String) : Prop where
  keeps : s.Keeps s'
  has_iff : ∀ ws' name, s'.has ws' name ↔ s.has ws' name ∨ (ws' = ws ∧ name ∈ names)
  content_eq_none : ∀ ws' name b, s.blob? ws' name = none → s'.blob? ws' name = some b →
    s'.heap.content b = none

section Adds

variable {s s' s'' : Store} {ws name : String} {names names' : List String}

theorem has_iff_exists : s.has ws name ↔ ∃ b, s.blob? ws name = some b :=
  Option.isSome_iff_exists

theorem has_eq_false_iff : s.has ws name = false ↔ s.blob? ws name = none :=
  Option.isSome_eq_false_iff.trans Option.isNone_iff_eq_none

theorem find?_missing_eq_none_iff : names.find? (fun name => !s.has ws name) = none ↔
    ∀ name ∈ names, s.has ws name := by
  simp [List.find?_eq_none]

theorem Extends.has (h : s.Extends s') (hname : s.has ws name) : s'.has ws name := by
  obtain ⟨b, hb⟩ := has_iff_exists.1 hname
  exact has_iff_exists.2 ⟨b, h _ _ _ hb⟩

theorem Keeps.refl (s : Store) : s.Keeps s := ⟨.refl s, fun _ _ _ _ => rfl⟩

theorem Keeps.trans (h : s.Keeps s') (h' : s'.Keeps s'') : s.Keeps s'' :=
  ⟨h.names.trans h'.names, fun ws name b hb =>
    (h'.content_eq ws name b (h.names ws name b hb)).trans (h.content_eq ws name b hb)⟩

/-- Nothing has to be done to add names that are there. -/
theorem adds_self (h : ∀ name ∈ names, s.has ws name) : s.Adds s ws names := by
  refine ⟨.refl s, fun ws' name => ⟨.inl, ?_⟩, fun ws' name b hnone hsome => ?_⟩
  · rintro (hname | ⟨rfl, hname⟩)
    · exact hname
    · exact h name hname
  · rw [hnone] at hsome
    cases hsome

theorem Adds.trans (h : s.Adds s' ws names) (h' : s'.Adds s'' ws names') :
    s.Adds s'' ws (names ++ names') := by
  refine ⟨h.keeps.trans h'.keeps, fun ws' name => ?_, fun ws' name b hnone hsome => ?_⟩
  · rw [h'.has_iff, h.has_iff, List.mem_append, or_assoc, ← and_or_left]
  · cases hmid : s'.blob? ws' name with
    | none => exact h'.content_eq_none ws' name b hmid hsome
    | some b' =>
      obtain rfl : b' = b := Option.some.inj ((h'.keeps.names _ _ _ hmid).symm.trans hsome)
      rw [h'.keeps.content_eq _ _ _ hmid, h.content_eq_none _ _ _ hnone hmid]

theorem Adds.has (h : s.Adds s' ws names) (hname : name ∈ names) : s'.has ws name :=
  (h.has_iff ws name).2 (.inr ⟨rfl, hname⟩)

/-! ## Creation -/

theorem adds_allocate (h : s.blob? ws name = none) : s.Adds (s.allocate ws name) ws [name] := by
  refine ⟨⟨fun ws' name' b hb => ?_, fun ws' name' b hb => ?_⟩, fun ws' name' => ?_,
    fun ws' name' b hnone hsome => ?_⟩
  · rw [blob?_allocate, if_neg, hb]
    rintro ⟨rfl, rfl⟩
    rw [h] at hb
    cases hb
  · have hne : b ≠ s.names.fresh := Nat.ne_of_lt (s.names.lt_fresh hb)
    exact congrArg Cell.content (s.heap.cell_put_of_ne {} hne)
  · unfold has
    rw [blob?_allocate, List.mem_singleton]
    by_cases hname : ws' = ws ∧ name' = name
    · simp [hname]
    · simp [hname]
  · rw [blob?_allocate] at hsome
    split at hsome
    · obtain rfl := Option.some.inj hsome
      exact congrArg Cell.content (s.heap.cell_put_self s.names.fresh {})
    · rw [hnone] at hsome
      cases hsome

theorem adds_create (s : Store) (ws name : String) : s.Adds (s.create ws name).2 ws [name] := by
  rw [create]
  cases h : s.blob? ws name with
  | none => exact adds_allocate h
  | some b =>
    refine adds_self fun name' hname' => ?_
    obtain rfl := List.mem_singleton.1 hname'
    exact has_iff_exists.2 ⟨b, h⟩

/-- **Creation adds names and does nothing else.** -/
theorem adds_createAll (s : Store) (ws : String) (names : List String) :
    s.Adds (s.createAll ws names).2 ws names := by
  induction names generalizing s with
  | nil => exact adds_self fun _ hname => absurd hname List.not_mem_nil
  | cons name names ih => exact (adds_create s ws name).trans (ih (s.create ws name).2)

/-- Creation finds the blobs that are there. -/
theorem createAll_eq_of_map_blob? {bs : List BlobId}
    (h : names.map (s.blob? ws) = bs.map some) : s.createAll ws names = (bs, s) := by
  induction names generalizing bs with
  | nil =>
    obtain rfl : bs = [] := List.map_eq_nil_iff.1 h.symm
    rfl
  | cons name names ih =>
    cases bs with
    | nil => cases h
    | cons b bs =>
      obtain ⟨hb, hbs⟩ := List.cons.inj h
      rw [createAll, create, hb]
      dsimp only
      rw [ih hbs]

theorem exists_map_blob? (h : ∀ name ∈ names, s.has ws name) :
    ∃ bs : List BlobId, names.map (s.blob? ws) = bs.map some := by
  induction names with
  | nil => exact ⟨[], rfl⟩
  | cons name names ih =>
    obtain ⟨hname, hnames⟩ := List.forall_mem_cons.1 h
    obtain ⟨b, hb⟩ := has_iff_exists.1 hname
    obtain ⟨bs, hbs⟩ := ih hnames
    exact ⟨b :: bs, by rw [List.map_cons, List.map_cons, hb, hbs]⟩

theorem createAll_eq_self (h : ∀ name ∈ names, s.has ws name) : (s.createAll ws names).2 = s := by
  obtain ⟨bs, hbs⟩ := exists_map_blob? h
  rw [createAll_eq_of_map_blob? hbs]

end Adds

end Store
end OpNet
