import OpNet.Proofs.History
import OpNet.Proofs.Store.Additions

/-!
# Stores and their histories

A store starts out empty. Names are created, values are stored in blobs, blobs share what others
hold, and blobs are emptied. So a store is what a list of such edits has made of it, and what a blob
holds goes back to the last edit of that blob.

* `Store.Edit`, `Store.ofHistory` — the edits, and the store after a list of them.
* `Store.Tidy` — what keeps payloads apart: a blob that was not given out is blank, and a payload is
  older than the next one of the blob it was first stored in.
* `Store.Edit.cell`, `Store.Tidy.cell_edit_self`, `Store.Tidy.cell_edit_of_not_changes` — all that
  an edit does to the contents.
* `Store.Stored` — the value that a payload was made of, by the edit that made it.
* `Store.Contents`, `Store.contents_ofHistory` — what names and blobs are after any history, and
  that all readers agree with it.
-/

set_option autoImplicit false

namespace OpNet
namespace Store

/-! ## Edits -/

/-- The edits of a store. A blob is meant by its handle, be it a blob of this workspace or of that.
-/
inductive Edit where
  | create (ws name : String)
  | feed (ws name : String) (v : Datum)
  | set (b : BlobId) (v : Datum)
  | share (b source : BlobId)
  | reset (b : BlobId)

namespace Edit

/-- Whether the handles that an edit needs were given out; nobody has another one. -/
def Possible (s : Store) : Edit → Prop
  | create .. | feed .. => True
  | set b _ | reset b => b < s.names.fresh
  | share b source => b < s.names.fresh ∧ source < s.names.fresh

instance (s : Store) : (e : Edit) → Decidable (e.Possible s)
  | create .. | feed .. => .isTrue trivial
  | set b _ | reset b => Nat.decLt b s.names.fresh
  | share b source => inferInstanceAs (Decidable (b < s.names.fresh ∧ source < s.names.fresh))

/-- The name that is there after the edit. -/
def name? : Edit → Option (String × String)
  | create ws name | feed ws name _ => some (ws, name)
  | set .. | share .. | reset .. => none

/-- The value that the edit stores. -/
def value? : Edit → Option Datum
  | feed _ _ v | set _ v => some v
  | create .. | share .. | reset .. => none

/-- The blob whose content is decided by the edit. -/
def target? (s : Store) : Edit → Option BlobId
  | create .. => none
  | feed ws name _ => some (s.create ws name).1
  | set b _ | share b _ | reset b => some b

/-- The store after an edit. -/
def run (s : Store) : Edit → Store
  | create ws name => (s.create ws name).2
  | feed ws name v => (s.feed ws name v).2
  | set b v => { s with heap := s.heap.set b v }
  | share b source => { s with heap := s.heap.share b source }
  | reset b => { s with heap := s.heap.reset b }

/-- The edit decides what a blob holds. -/
def Changes (s : Store) (e : Edit) (b : BlobId) : Prop := e.Possible s ∧ e.target? s = some b

/-- The state of the blob that an edit changes, after the edit. -/
def cell (s : Store) (b : BlobId) : Edit → Cell
  | create .. => s.heap.cell b
  | feed _ _ v | set _ v =>
    let c := s.heap.cell b
    ⟨c.stores + 1, some ⟨⟨b, c.stores⟩, v, v.type.name⟩⟩
  | share _ source => { s.heap.cell b with content := s.heap.content source }
  | reset _ => { s.heap.cell b with content := none }

end Edit

/-- The store after an edit, if the edit is possible. -/
def edit (s : Store) (e : Edit) : Store := if e.Possible s then e.run s else s

/-- The store after a list of edits, the first one made of the empty store. -/
def ofHistory (history : List Edit) : Store := history.foldl edit {}

@[simp] theorem ofHistory_concat (history : List Edit) (e : Edit) :
    ofHistory (history ++ [e]) = (ofHistory history).edit e := by
  rw [ofHistory, List.foldl_append]
  rfl

/-! ## What an edit does to the contents -/

/-- Blobs that were not given out are blank, and no payload is as new as the next one of the blob
that it was first stored in. -/
structure Tidy (s : Store) : Prop where
  blank : ∀ b, s.names.fresh ≤ b → s.heap.cell b = {}
  older : ∀ b p, s.heap.content b = some p → p.id.serial < (s.heap.cell p.id.origin).stores

section Tidy

variable {s : Store} {e : Edit} {b : BlobId}

theorem tidy_empty : ({} : Store).Tidy :=
  ⟨fun b _ => Heap.cell_empty b, fun b p h => by rw [Heap.content, Heap.cell_empty] at h; cases h⟩

theorem fresh_le_create (s : Store) (ws name : String) :
    s.names.fresh ≤ (s.create ws name).2.names.fresh := by
  rw [create]
  split
  · exact Nat.le_refl _
  · exact Nat.le_succ _

theorem lt_fresh_create (s : Store) (ws name : String) :
    (s.create ws name).1 < (s.create ws name).2.names.fresh :=
  (s.create ws name).2.names.lt_fresh (blob?_create_self s ws name)

/-- A blob that is given out is blank, as it was before. -/
theorem Tidy.cell_create (h : s.Tidy) (ws name : String) (b : BlobId) :
    (s.create ws name).2.heap.cell b = s.heap.cell b := by
  rw [create]
  split
  · rfl
  · by_cases hb : b = s.names.fresh
    · subst hb
      exact (s.heap.cell_put_self _ {}).trans (h.blank _ (Nat.le_refl _)).symm
    · exact s.heap.cell_put_of_ne {} hb

/-- To feed is to create and then to set. -/
theorem heap_feed (s : Store) (ws name : String) (v : Datum) :
    (s.feed ws name v).2.heap = (s.create ws name).2.heap.set (s.create ws name).1 v :=
  rfl

theorem Tidy.cell_edit_self (h : s.Tidy) (hchanges : e.Changes s b) :
    (s.edit e).heap.cell b = e.cell s b := by
  obtain ⟨hpossible, htarget⟩ := hchanges
  rw [edit, if_pos hpossible]
  cases e with
  | create => cases htarget
  | feed ws name v =>
    obtain rfl := Option.some.inj htarget
    rw [Edit.run, heap_feed, Heap.cell_set_self, h.cell_create]
    rfl
  | set b' v =>
    obtain rfl := Option.some.inj htarget
    exact Heap.cell_set_self ..
  | share b' source =>
    obtain rfl := Option.some.inj htarget
    exact Heap.cell_share_self ..
  | reset b' =>
    obtain rfl := Option.some.inj htarget
    exact Heap.cell_reset_self ..

/-- **An edit changes one blob at most.** -/
theorem Tidy.cell_edit_of_not_changes (h : s.Tidy) (hchanges : ¬e.Changes s b) :
    (s.edit e).heap.cell b = s.heap.cell b := by
  rw [edit]
  split
  · next hpossible =>
    have hne {b' : BlobId} (htarget : e.target? s = some b') : b ≠ b' := by
      rintro rfl
      exact hchanges ⟨hpossible, htarget⟩
    cases e with
    | create ws name => exact h.cell_create ws name b
    | feed ws name v =>
      rw [Edit.run, heap_feed, Heap.cell_set_of_ne _ v (hne rfl), h.cell_create]
    | set b' v => exact Heap.cell_set_of_ne _ v (hne rfl)
    | share b' source => exact Heap.cell_share_of_ne _ source (hne rfl)
    | reset b' => exact Heap.cell_reset_of_ne _ (hne rfl)
  · rfl

theorem fresh_le_edit (s : Store) (e : Edit) : s.names.fresh ≤ (s.edit e).names.fresh := by
  rw [edit]
  split
  · cases e with
    | create ws name | feed ws name v => exact s.fresh_le_create ws name
    | _ => exact Nat.le_refl _
  · exact Nat.le_refl _

/-- What is changed was given out. -/
theorem Edit.Changes.lt_fresh (h : e.Changes s b) : b < (s.edit e).names.fresh := by
  obtain ⟨hpossible, htarget⟩ := h
  rw [edit, if_pos hpossible]
  cases e with
  | create => cases htarget
  | feed ws name v =>
    obtain rfl := Option.some.inj htarget
    exact s.lt_fresh_create ws name
  | set b' v | reset b' =>
    obtain rfl := Option.some.inj htarget
    exact hpossible
  | share b' source =>
    obtain rfl := Option.some.inj htarget
    exact hpossible.1

/-- No edit takes back that a value was stored. -/
theorem Tidy.stores_le_edit (h : s.Tidy) (e : Edit) (b : BlobId) :
    (s.heap.cell b).stores ≤ ((s.edit e).heap.cell b).stores := by
  by_cases hchanges : e.Changes s b
  · rw [h.cell_edit_self hchanges]
    cases e with
    | feed | set => exact Nat.le_succ _
    | _ => exact Nat.le_refl _
  · exact Nat.le_of_eq (congrArg Cell.stores (h.cell_edit_of_not_changes hchanges).symm)

theorem Tidy.edit (h : s.Tidy) (e : Edit) : (s.edit e).Tidy where
  blank b hb := by
    have hchanges : ¬e.Changes s b := fun hchanges => Nat.not_lt.2 hb hchanges.lt_fresh
    rw [h.cell_edit_of_not_changes hchanges]
    exact h.blank b (Nat.le_trans (s.fresh_le_edit e) hb)
  older b p hcontent := by
    have hold {b' : BlobId} (hb' : s.heap.content b' = some p) :
        p.id.serial < ((s.edit e).heap.cell p.id.origin).stores :=
      Nat.lt_of_lt_of_le (h.older b' p hb') (h.stores_le_edit e _)
    by_cases hchanges : e.Changes s b
    · rw [Heap.content, h.cell_edit_self hchanges] at hcontent
      cases e with
      | create => exact hold hcontent
      | feed | set =>
        obtain rfl := Option.some.inj hcontent
        rw [h.cell_edit_self hchanges]
        exact Nat.lt_succ_self _
      | share b' source => exact hold hcontent
      | reset => cases hcontent
    · rw [Heap.content, h.cell_edit_of_not_changes hchanges] at hcontent
      exact hold hcontent

end Tidy

/-! ## Names -/

section Names

variable {s : Store} {e : Edit} {ws name : String}

theorem blob?_edit_of_name? (h : e.name? = some (ws, name)) :
    (s.edit e).blob? = (s.create ws name).2.blob? := by
  cases e with
  | create | feed => obtain ⟨rfl, rfl⟩ := Prod.mk.inj (Option.some.inj h); rfl
  | _ => cases h

theorem blob?_edit_of_name?_eq_none (h : e.name? = none) : (s.edit e).blob? = s.blob? := by
  rw [edit]
  split
  · cases e with
    | create | feed => cases h
    | _ => rfl
  · rfl

theorem extends_edit (s : Store) (e : Edit) : s.Extends (s.edit e) := by
  intro ws name b hb
  cases h : e.name? with
  | none => rwa [blob?_edit_of_name?_eq_none h]
  | some key =>
    rw [blob?_edit_of_name? h]
    exact blob?_create_of_some hb

theorem has_edit_iff : (s.edit e).has ws name ↔ s.has ws name ∨ e.name? = some (ws, name) := by
  cases h : e.name? with
  | none => simp [has, blob?_edit_of_name?_eq_none h]
  | some key =>
    obtain ⟨ws', name'⟩ := key
    have hadds := (s.adds_create ws' name').has_iff ws name
    rw [has, blob?_edit_of_name? h, ← has, hadds, List.mem_singleton, Option.some.injEq,
      Prod.mk.injEq, @eq_comm _ ws, @eq_comm _ name]

end Names

/-! ## Histories -/

section History

variable {history before : List Edit} {e : Edit} {b : BlobId} {p : Payload}

theorem tidy_ofHistory (history : List Edit) : (ofHistory history).Tidy := by
  induction history using List.reverseRecOn with
  | nil => exact tidy_empty
  | append_singleton history e ih =>
    rw [ofHistory_concat]
    exact ih.edit e

/-- What no edit takes back is not taken back by a history. -/
theorem ofHistory_of_prefix {R : Store → Store → Prop} (hrefl : ∀ s, R s s)
    (htrans : ∀ {s s' s''}, R s s' → R s' s'' → R s s'')
    (hedit : ∀ s e, s.Tidy → R s (s.edit e)) (h : before <+: history) :
    R (ofHistory before) (ofHistory history) := by
  induction history using List.reverseRecOn with
  | nil =>
    obtain rfl := List.prefix_nil.1 h
    exact hrefl _
  | append_singleton history e ih =>
    rcases List.prefix_concat_iff.1 h with rfl | h
    · exact hrefl _
    · rw [ofHistory_concat]
      exact htrans (ih h) (hedit _ e (tidy_ofHistory history))

theorem extends_of_prefix (h : before <+: history) :
    (ofHistory before).Extends (ofHistory history) :=
  ofHistory_of_prefix .refl .trans (fun s e _ => s.extends_edit e) h

theorem stores_le_of_prefix (h : before <+: history) (b : BlobId) :
    ((ofHistory before).heap.cell b).stores ≤ ((ofHistory history).heap.cell b).stores :=
  ofHistory_of_prefix (R := fun s s' => (s.heap.cell b).stores ≤ (s'.heap.cell b).stores)
    (fun _ => Nat.le_refl _) Nat.le_trans (fun _ e hs => hs.stores_le_edit e b) h

theorem has_ofHistory_iff {ws name : String} :
    (ofHistory history).has ws name ↔ ∃ e ∈ history, e.name? = some (ws, name) := by
  induction history using List.reverseRecOn with
  | nil =>
    refine iff_of_false ?_ (fun ⟨e, he, _⟩ => absurd he List.not_mem_nil)
    rw [has, ofHistory, List.foldl_nil, blob?_empty]
    exact Bool.false_ne_true
  | append_singleton history e ih =>
    rw [ofHistory_concat, has_edit_iff, ih]
    simp [or_and_right, exists_or]

/-! ## Where payloads come from -/

/-- An edit of the history has stored the value, and this has made the payload. -/
def Stored (history : List Edit) (p : Payload) (v : Datum) : Prop :=
  ∃ before e b, before ++ [e] <+: history ∧ e.Changes (ofHistory before) b ∧ e.value? = some v ∧
    (ofHistory (before ++ [e])).heap.content b = some p

/-- The payload was made of a value of the type. -/
def StoredAs (history : List Edit) (p : Payload) (t : DataType) : Prop :=
  ∃ v, Stored history p v ∧ v.type = t

theorem Stored.mono {v : Datum} (h : Stored before p v) (hbefore : before <+: history) :
    Stored history p v := by
  obtain ⟨earlier, e, b, hearlier, h⟩ := h
  exact ⟨earlier, e, b, hearlier.trans hbefore, h⟩

/-- The state of a blob after the storing of a value. -/
theorem Edit.cell_of_value? {s : Store} {v : Datum} (h : e.value? = some v) (b : BlobId) :
    e.cell s b = ⟨(s.heap.cell b).stores + 1,
      some ⟨⟨b, (s.heap.cell b).stores⟩, v, v.type.name⟩⟩ := by
  cases e with
  | feed | set => obtain rfl := Option.some.inj h; rfl
  | _ => cases h

/-- What a blob holds after the storing of a value is a payload of its own. -/
theorem content_of_value? {v : Datum} (hchanges : e.Changes (ofHistory before) b)
    (hv : e.value? = some v) : (ofHistory (before ++ [e])).heap.content b =
      some ⟨⟨b, ((ofHistory before).heap.cell b).stores⟩, v, v.type.name⟩ := by
  rw [ofHistory_concat, Heap.content, (tidy_ofHistory before).cell_edit_self hchanges,
    Edit.cell_of_value? hv]

theorem Stored.eq {v : Datum} (h : Stored history p v) :
    p.value = v ∧ p.typeName = v.type.name := by
  obtain ⟨before, e, b, -, hchanges, hv, hcontent⟩ := h
  rw [content_of_value? hchanges hv] at hcontent
  obtain rfl := Option.some.inj hcontent
  exact ⟨rfl, rfl⟩

/-- **What a blob holds was stored**, in this blob or in another. -/
theorem stored_of_content (h : (ofHistory history).heap.content b = some p) :
    Stored history p p.value := by
  induction history using List.reverseRecOn generalizing b with
  | nil =>
    rw [ofHistory, List.foldl_nil, Heap.content, Heap.cell_empty] at h
    cases h
  | append_singleton history e ih =>
    have hold {b' : BlobId} (hb' : (ofHistory history).heap.content b' = some p) :
        Stored (history ++ [e]) p p.value :=
      (ih hb').mono (List.prefix_append _ _)
    by_cases hchanges : e.Changes (ofHistory history) b
    · have hcell := (tidy_ofHistory history).cell_edit_self hchanges
      cases hv : e.value? with
      | some v =>
        have hstored : Stored (history ++ [e]) p v :=
          ⟨history, e, b, List.prefix_rfl, hchanges, hv, h⟩
        rwa [hstored.eq.1]
      | none =>
        rw [ofHistory_concat, Heap.content, hcell] at h
        cases e with
        | feed | set => cases hv
        | create => exact hold h
        | share b' source => exact hold h
        | reset => cases h
    · rw [ofHistory_concat, Heap.content,
        (tidy_ofHistory history).cell_edit_of_not_changes hchanges] at h
      exact hold h

/-- What a blob holds was stored as a value of its type, and as no other. -/
theorem storedAs_iff (h : (ofHistory history).heap.content b = some p) {t : DataType} :
    StoredAs history p t ↔ p.value.type = t := by
  constructor
  · rintro ⟨v, hstored, rfl⟩
    rw [hstored.eq.1]
  · rintro rfl
    exact ⟨p.value, stored_of_content h, rfl⟩

end History

/-! ## Contents after a history -/

/-- What an edit leaves in the blob that it changes, after the edits before it. -/
inductive Edit.Leaves (before : List Edit) (b : BlobId) : Edit → Option Payload → Prop
  /-- A payload of the value and the name of its type, which no blob has held at any earlier time. -/
  | value {e : Edit} {v : Datum} {p : Payload} (hv : e.value? = some v) (hvalue : p.value = v)
      (hname : p.typeName = v.type.name)
      (hnew : ∀ earlier, earlier <+: before → ∀ b' q,
        (ofHistory earlier).heap.content b' = some q → q.id ≠ p.id) :
      Leaves before b e (some p)
  /-- What the other blob held at that moment, which may be nothing. -/
  | shared {source : BlobId} :
      Leaves before b (.share b source) ((ofHistory before).heap.content source)
  | nothing : Leaves before b (.reset b) none

/-- What the readers of a blob tell. -/
structure Tells (history : List Edit) (s : Store) (b : BlobId) : Prop where
  /-- What a blob holds was stored as a value of one type. -/
  exists_storedAs : ∀ p, s.heap.content b = some p → ∃! t, StoredAs history p t
  payloadAt?_iff : ∀ t p, s.heap.payloadAt? b t = some p ↔
    s.heap.content b = some p ∧ StoredAs history p t
  holds_iff : ∀ t, s.heap.holds b t ↔ ∃ p, s.heap.payloadAt? b t = some p
  typeName?_iff : ∀ text, s.heap.typeName? b = some text ↔
    ∃ p t, s.heap.content b = some p ∧ StoredAs history p t ∧ text = t.name

open History in
/-- What names and blobs are after a history. -/
structure Contents (history : List Edit) (s : Store) : Prop where
  /-- A name is never taken back nor given to another blob. -/
  kept : ∀ before, before <+: history → (ofHistory before).Extends s
  /-- A name has the blob that was answered when it was created, be it once or again. -/
  answered : ∀ before e ws name, before ++ [e] <+: history → e.name? = some (ws, name) →
    s.blob? ws name = some ((ofHistory before).create ws name).1
  /-- What a blob holds was left by the last edit of it. -/
  decided : ∀ b, (Never (fun before e => e.Changes (ofHistory before) b) history ∧
      s.heap.content b = none) ∨
    ∃ before e, Last (fun before e => e.Changes (ofHistory before) b) history before e ∧
      e.Leaves before b (s.heap.content b)
  /-- An edit of one blob leaves what all the others hold, be it shared or not. -/
  apart : ∀ before e b, before ++ [e] <+: history → ¬e.Changes (ofHistory before) b →
    (ofHistory (before ++ [e])).heap.content b = (ofHistory before).heap.content b
  /-- A name that was never created is not found. -/
  missing : ∀ ws name, (∀ e ∈ history, e.name? ≠ some (ws, name)) →
    s.getBlob ws name = .error (.blobNotFound name) ∧
      ∀ t, s.fetch ws name t = .error (.blobNotFound name)
  /-- A name that was created is found, and what is fetched is what its blob holds. -/
  found : ∀ ws name, (∃ e ∈ history, e.name? = some (ws, name)) →
    ∃ b, s.blob? ws name = some b ∧ s.getBlob ws name = .ok b ∧
      ∀ t, s.fetch ws name t =
        (s.heap.payloadAt? b t).elim (.error (.blobType name t.name)) .ok
  tells : ∀ b, Tells history s b

section Contents

variable {history before : List Edit} {e : Edit} {b : BlobId}

/-- A payload that was just made is new. -/
theorem id_ne_of_prefix {earlier : List Edit} (h : earlier <+: before) {b' : BlobId} {q : Payload}
    (hq : (ofHistory earlier).heap.content b' = some q) :
    q.id ≠ ⟨b, ((ofHistory before).heap.cell b).stores⟩ := by
  intro heq
  have holder := (tidy_ofHistory earlier).older b' q hq
  have hle := stores_le_of_prefix h b
  rw [heq] at holder
  exact absurd holder (Nat.not_lt.2 hle)

theorem leaves_of_changes (h : e.Changes (ofHistory before) b) :
    e.Leaves before b ((ofHistory (before ++ [e])).heap.content b) := by
  have hcell := (tidy_ofHistory before).cell_edit_self h
  cases hv : e.value? with
  | some v =>
    rw [content_of_value? h hv]
    exact .value hv rfl rfl fun earlier hearlier b' q hq => id_ne_of_prefix hearlier hq
  | none =>
    rw [ofHistory_concat, Heap.content, hcell]
    cases e with
    | create => cases h.2
    | feed | set => cases hv
    | share b' source =>
      obtain rfl := Option.some.inj h.2
      exact .shared
    | reset b' =>
      obtain rfl := Option.some.inj h.2
      exact .nothing

theorem content_of_not_changes (h : ¬e.Changes (ofHistory before) b) :
    (ofHistory (before ++ [e])).heap.content b = (ofHistory before).heap.content b := by
  rw [ofHistory_concat, Heap.content, (tidy_ofHistory before).cell_edit_of_not_changes h,
    Heap.content]

/-- **The readers of a blob agree** with the history. -/
theorem tells_ofHistory (history : List Edit) (b : BlobId) :
    Tells history (ofHistory history) b where
  exists_storedAs p hp :=
    ⟨p.value.type, (storedAs_iff hp).2 rfl, fun _ ht => ((storedAs_iff hp).1 ht).symm⟩
  payloadAt?_iff t p := by
    rw [Heap.payloadAt?, Option.filter_eq_some_iff]
    refine and_congr_right fun hp => ?_
    rw [storedAs_iff hp, decide_eq_true_iff]
  holds_iff t := by
    rw [Heap.holds, Heap.payloadAt?]
    cases (ofHistory history).heap.content b with
    | none => simp
    | some p => simp
  typeName?_iff text := by
    rw [Heap.typeName?, Option.map_eq_some_iff]
    constructor
    · rintro ⟨p, hp, rfl⟩
      exact ⟨p, p.value.type, hp, (storedAs_iff hp).2 rfl, (stored_of_content hp).eq.2⟩
    · rintro ⟨p, t, hp, ⟨v, hstored, rfl⟩, rfl⟩
      exact ⟨p, hp, hstored.eq.2⟩

theorem fetch_of_blob? {s : Store} {ws name : String} (h : s.blob? ws name = some b)
    (t : DataType) : s.fetch ws name t =
      (s.heap.payloadAt? b t).elim (.error (.blobType name t.name)) .ok := by
  rw [fetch, getBlob, h, Heap.payloadAt?]
  dsimp only
  cases s.heap.content b with
  | none => rfl
  | some p => by_cases hp : p.value.type = t <;> simp [Option.filter, hp]

/-- **The contents of a store after any history.** A name keeps its blob. What a blob holds was left
by the last edit of it, whatever was done to the blobs that it had shared with. And the readers tell
what was stored, at the type at which it was stored. -/
theorem contents_ofHistory (history : List Edit) : Contents history (ofHistory history) where
  kept before h := extends_of_prefix h
  answered before e ws name h hname := by
    refine extends_of_prefix h ws name _ ?_
    rw [ofHistory_concat, blob?_edit_of_name? hname]
    exact blob?_create_self ..
  decided b := by
    rcases History.decided (fun history => (ofHistory history).heap.content b)
      (fun _ _ => content_of_not_changes) history with ⟨hnever, heq⟩ | ⟨before, e, hlast, heq⟩
    · exact .inl ⟨hnever, heq.trans (congrArg Cell.content (Heap.cell_empty b))⟩
    · refine .inr ⟨before, e, hlast, ?_⟩
      rw [heq]
      exact leaves_of_changes hlast.holds.1
  apart before e b _ h := content_of_not_changes h
  missing ws name h := by
    have hnone : (ofHistory history).blob? ws name = none := by
      refine has_eq_false_iff.1 (Bool.eq_false_iff.2 fun hhas => ?_)
      obtain ⟨e, he, hname⟩ := has_ofHistory_iff.1 hhas
      exact h e he hname
    have hget : (ofHistory history).getBlob ws name = .error (.blobNotFound name) := by
      rw [getBlob, hnone]
    exact ⟨hget, fun t => by rw [fetch, hget]⟩
  found ws name h := by
    obtain ⟨b, hb⟩ := has_iff_exists.1 (has_ofHistory_iff.2 h)
    exact ⟨b, hb, by rw [getBlob, hb], fetch_of_blob? hb⟩
  tells := tells_ofHistory history

-- A blob of another workspace goes on holding what it has shared, whatever becomes of its source.
example :
    let s := ofHistory [.feed "" "src" (.known (.text "payload")), .create "other" "dst",
      .share 1 0, .reset 0, .share 0 0, .feed "" "src" (.known (.byte 7))]
    s.heap.typeName? 1 = some "alloc::string::String" ∧ s.heap.holds 0 (.known .byte) ∧
      s.heap.samePayload 0 1 = false ∧ s.blob? "" "src" = some 0 := by
  decide

end Contents

end Store
end OpNet
