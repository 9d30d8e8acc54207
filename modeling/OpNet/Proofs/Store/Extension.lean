import OpNet.Store.Workspace

/-!
# Names are never taken back

Whatever is created in a workspace, the names that were there keep their blobs.

* `Store.Extends` — a later store, in which every name has the blob that it had.
* `Store.extends_createAll` — creation gives such a store, and `Store.map_blob?_createAll` says that
  every name that was asked for has the blob that was answered.
* `Store.fetch_eq_ok_iff` — what is fetched by a name is what its blob holds.
-/

set_option autoImplicit false

namespace OpNet
namespace Store

/-- Every name of the first store has the same blob in the second. -/
def Extends (s s' : Store) : Prop :=
  ∀ ws name b, s.blob? ws name = some b → s'.blob? ws name = some b

theorem Extends.refl (s : Store) : s.Extends s := fun _ _ _ h => h

theorem Extends.trans {s s' s'' : Store} (h : s.Extends s') (h' : s'.Extends s'') :
    s.Extends s'' :=
  fun ws name b hb => h' ws name b (h ws name b hb)

theorem extends_create (s : Store) (ws name : String) : s.Extends (s.create ws name).2 :=
  fun _ _ _ => blob?_create_of_some

theorem extends_createAll (s : Store) (ws : String) (names : List String) :
    s.Extends (s.createAll ws names).2 := by
  induction names generalizing s with
  | nil => exact .refl s
  | cons name names ih => exact (extends_create s ws name).trans (ih _)

/-- Names that have blobs keep them, as a list. -/
theorem Extends.map_blob? {s s' : Store} (h : s.Extends s') {ws : String} {names : List String}
    {bs : List BlobId} (hs : names.map (s.blob? ws) = bs.map some) :
    names.map (s'.blob? ws) = bs.map some := by
  induction names generalizing bs with
  | nil => simpa using hs
  | cons name names ih =>
    cases bs with
    | nil => simp at hs
    | cons b bs =>
      obtain ⟨hb, hs⟩ := List.cons.inj hs
      rw [List.map_cons, List.map_cons, h _ _ _ hb, ih hs]

theorem map_blob?_createAll (s : Store) (ws : String) (names : List String) :
    names.map ((s.createAll ws names).2.blob? ws) = (s.createAll ws names).1.map some := by
  induction names generalizing s with
  | nil => rfl
  | cons name names ih =>
    have hname := extends_createAll (s.create ws name).2 ws names _ _ _
      (blob?_create_self s ws name)
    rw [List.map_cons]
    exact List.cons_eq_cons.2 ⟨hname, ih (s.create ws name).2⟩

/-- No two names have one blob. -/
theorem name_eq_of_blob?_eq {s : Store} {ws name name' : String} {b : BlobId}
    (h : s.blob? ws name = some b) (h' : s.blob? ws name' = some b) : name = name' :=
  (s.names.injective h h').2

/-- Fetching by a name gives what is at its handle. -/
theorem fetch_eq_ok_iff {s : Store} {ws name : String} {id : BlobId}
    (h : s.blob? ws name = some id) {p : Payload} :
    s.fetch ws name p.value.type = .ok p ↔ s.heap.content id = some p := by
  rw [fetch, getBlob, h]
  dsimp only
  constructor
  · intro hfetch
    cases hcontent : s.heap.content id with
    | none =>
      rw [hcontent] at hfetch
      cases hfetch
    | some q =>
      rw [hcontent] at hfetch
      dsimp only at hfetch
      split at hfetch
      · rw [Except.ok.inj hfetch]
      · cases hfetch
  · intro hcontent
    rw [hcontent]
    exact if_pos rfl

end Store
end OpNet
