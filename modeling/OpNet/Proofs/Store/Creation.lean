import OpNet.Proofs.Store.Additions
import OpNet.Store.Creation

/-!
# One blob for each name, whoever creates it

Two clients can find the same name missing, and then both come back to create it. The second one to
come finds the blob of the first, so that a name gets one blob, whatever the clients do and in
whatever order their steps are taken.

* `Creation.Happens`, `Creation.Account` — what an event says about the store, and a list of events
  that leads from a store to another one. `Creation.Account.split` looks at one event of an account.
* `Creation.Records`, `Creation.records_of_act` — all that a step does: it continues the account,
  and clients have the handles of named blobs only.
* `Creation.Serves` — a client can always take its next step, and is answered.
* `Creation.OneBlobEach`, `Creation.oneBlobEach_of_steps` — what clients can rely on, after any
  interleaving of any number of steps.
-/

set_option autoImplicit false

namespace OpNet
namespace Creation

/-! ## Events -/

namespace Event

/-- The name and the blob that an event tells of. -/
def told? : Event → Option (String × BlobId)
  | inserted _ name b | created _ name b | found _ name b => some (name, b)
  | missed .. | stored .. => none

/-- The name that an event puts into the workspace. -/
def inserts? : Event → Option String
  | inserted _ name _ => some name
  | created .. | found .. | missed .. | stored .. => none

/-- The blob that an event stores a value in. -/
def target? : Event → Option BlobId
  | stored _ b _ => some b
  | inserted .. | created .. | found .. | missed .. => none

end Event

/-- What an event says about the store before it and after it. -/
inductive Happens (ws : String) : Store → Event → Store → Prop
  | inserted {s : Store} {k : Nat} {name : String} (h : s.blob? ws name = none) :
      Happens ws s (.inserted k name s.names.fresh) (s.allocate ws name)
  | created {s : Store} {k : Nat} {name : String} {b : BlobId} (h : s.blob? ws name = some b) :
      Happens ws s (.created k name b) s
  | found {s : Store} {k : Nat} {name : String} {b : BlobId} (h : s.blob? ws name = some b) :
      Happens ws s (.found k name b) s
  | missed {s : Store} {k : Nat} {name : String} (h : s.blob? ws name = none) :
      Happens ws s (.missed k name (.blobNotFound name)) s
  | stored {s : Store} {k : Nat} {name : String} {b : BlobId} {v : Datum}
      (h : s.blob? ws name = some b) :
      Happens ws s (.stored k b v) { s with heap := s.heap.set b v }

namespace Happens

variable {ws : String} {s s' : Store} {e : Event}

theorem extends_store (h : Happens ws s e s') : s.Extends s' := by
  cases h with
  | inserted hnone => exact (Store.adds_allocate hnone).keeps.names
  | _ => exact .refl s

theorem has_iff (h : Happens ws s e s') {name : String} :
    s'.has ws name ↔ s.has ws name ∨ e.inserts? = some name := by
  cases h with
  | inserted hnone =>
    rw [(Store.adds_allocate hnone).has_iff, List.mem_singleton, Event.inserts?, Option.some.injEq,
      @eq_comm _ name]
    simp
  | _ => exact (or_iff_left (by rintro ⟨⟩)).symm

theorem blob?_of_told (h : Happens ws s e s') {name : String} {b : BlobId}
    (htold : e.told? = some (name, b)) : s'.blob? ws name = some b := by
  cases h with
  | inserted =>
    obtain ⟨rfl, rfl⟩ := Prod.mk.inj (Option.some.inj htold)
    rw [Store.blob?_allocate, if_pos ⟨rfl, rfl⟩]
  | created hb | found hb =>
    obtain ⟨rfl, rfl⟩ := Prod.mk.inj (Option.some.inj htold)
    exact hb
  | missed | stored => cases htold

/-- Only what is stored in a blob changes what it holds. -/
theorem content_eq (h : Happens ws s e s') {ws' name : String} {b : BlobId}
    (hb : s.blob? ws' name = some b) (htarget : e.target? ≠ some b) :
    s'.heap.content b = s.heap.content b := by
  cases h with
  | inserted hnone => exact (Store.adds_allocate hnone).keeps.content_eq ws' name b hb
  | stored =>
    refine congrArg Cell.content (s.heap.cell_set_of_ne _ ?_)
    rintro rfl
    exact htarget rfl
  | _ => rfl

end Happens

/-! ## Accounts -/

/-- The events lead from the first store to the second. -/
inductive Account (ws : String) : Store → List Event → Store → Prop
  | nil (s : Store) : Account ws s [] s
  | cons {s s' s'' : Store} {e : Event} {events : List Event} (he : Happens ws s e s')
      (h : Account ws s' events s'') : Account ws s (e :: events) s''

namespace Account

variable {ws : String} {s s' s'' : Store} {e : Event} {events events' before after : List Event}

theorem single (h : Happens ws s e s') : Account ws s [e] s' := .cons h (.nil s')

theorem append (h : Account ws s events s') (h' : Account ws s' events' s'') :
    Account ws s (events ++ events') s'' := by
  induction h with
  | nil => exact h'
  | cons he _ ih => exact .cons he (ih h')

/-- Each event of an account was right when it happened. -/
theorem split (h : Account ws s (before ++ e :: after) s') : ∃ s₁ s₂,
    Account ws s before s₁ ∧ Happens ws s₁ e s₂ ∧ Account ws s₂ after s' := by
  induction before generalizing s with
  | nil =>
    cases h with
    | cons he h => exact ⟨_, _, .nil _, he, h⟩
  | cons a before ih =>
    cases h with
    | cons ha h =>
      obtain ⟨s₁, s₂, hbefore, he, hafter⟩ := ih h
      exact ⟨s₁, s₂, .cons ha hbefore, he, hafter⟩

theorem extends_store (h : Account ws s events s') : s.Extends s' := by
  induction h with
  | nil => exact .refl _
  | cons he _ ih => exact he.extends_store.trans ih

/-- **Names come from insertions only.** -/
theorem has_iff (h : Account ws s events s') {name : String} :
    s'.has ws name ↔ s.has ws name ∨ ∃ e ∈ events, e.inserts? = some name := by
  induction h with
  | nil => simp
  | cons he _ ih => simp [ih, he.has_iff, or_assoc]

theorem blob?_eq_none_iff (h : Account ws s events s') {name : String} :
    s'.blob? ws name = none ↔
      s.blob? ws name = none ∧ ∀ e ∈ events, e.inserts? ≠ some name := by
  rw [← Store.has_eq_false_iff, ← Store.has_eq_false_iff, Bool.eq_false_iff, Bool.eq_false_iff,
    ne_eq, h.has_iff, not_or]
  simp

/-- What an event has told stays right. -/
theorem blob?_of_told (h : Account ws s events s') {name : String} {b : BlobId} (he : e ∈ events)
    (htold : e.told? = some (name, b)) : s'.blob? ws name = some b := by
  obtain ⟨before, after, rfl⟩ := List.append_of_mem he
  obtain ⟨s₁, s₂, -, hhappens, hafter⟩ := h.split
  exact hafter.extends_store ws name b (hhappens.blob?_of_told htold)

/-- A blob holds what it held, until a value is stored in it. -/
theorem content_eq (h : Account ws s events s') {ws' name : String} {b : BlobId}
    (hb : s.blob? ws' name = some b) (htarget : ∀ e ∈ events, e.target? ≠ some b) :
    s'.heap.content b = s.heap.content b := by
  induction h with
  | nil => rfl
  | cons he _ ih =>
    obtain ⟨hhead, htail⟩ := List.forall_mem_cons.1 htarget
    rw [ih (he.extends_store _ _ _ hb) htail, he.content_eq hb hhead]

/-- A name is put in once, and only if it was not there. -/
theorem once {k : Nat} {name : String} {b : BlobId}
    (h : Account ws s (before ++ .inserted k name b :: after) s') :
    s.blob? ws name = none ∧ ∀ e ∈ before ++ after, e.inserts? ≠ some name := by
  obtain ⟨s₁, s₂, hbefore, hhappens, hafter⟩ := h.split
  have hnone : s₁.blob? ws name = none := by
    cases hhappens with
    | inserted hnone => exact hnone
  obtain ⟨hs, hnever⟩ := hbefore.blob?_eq_none_iff.1 hnone
  refine ⟨hs, fun e he hinserts => ?_⟩
  rcases List.mem_append.1 he with he | he
  · exact hnever e he hinserts
  · -- a second insertion would have found the name missing, after the first one has put it in
    obtain ⟨mid, rest, rfl⟩ := List.append_of_mem he
    obtain ⟨s₃, s₄, hmid, hsecond, -⟩ := hafter.split
    have hb := hmid.extends_store ws name b (hhappens.blob?_of_told rfl)
    cases hsecond with
    | inserted hmissing =>
      obtain rfl := Option.some.inj hinserts
      rw [hb] at hmissing
      cases hmissing
    | _ => cases hinserts

/-- A look-up that fails does so because the name has not been put in yet. -/
theorem missed {k : Nat} {name : String} {cause : Fault}
    (h : Account ws s (before ++ .missed k name cause :: after) s') :
    cause = .blobNotFound name ∧ s.blob? ws name = none ∧
      ∀ e ∈ before, e.inserts? ≠ some name := by
  obtain ⟨s₁, s₂, hbefore, hhappens, -⟩ := h.split
  cases hhappens with
  | missed hnone => exact ⟨rfl, hbefore.blob?_eq_none_iff.1 hnone⟩

/-- A look-up that succeeds finds what was there or has been put in. -/
theorem found {k : Nat} {name : String} {b : BlobId}
    (h : Account ws s (before ++ .found k name b :: after) s') :
    s.blob? ws name = some b ∨ ∃ k', .inserted k' name b ∈ before := by
  obtain ⟨s₁, s₂, hbefore, hhappens, -⟩ := h.split
  have hb : s₁.blob? ws name = some b := by
    cases hhappens with
    | found hb => exact hb
  rcases hbefore.has_iff.1 (Store.has_iff_exists.2 ⟨b, hb⟩) with hs | ⟨e, he, hinserts⟩
  · obtain ⟨b', hb'⟩ := Store.has_iff_exists.1 hs
    obtain rfl := Option.some.inj ((hbefore.extends_store _ _ _ hb').symm.trans hb)
    exact .inl hb'
  · cases e with
    | inserted k' name' b' =>
      obtain rfl := Option.some.inj hinserts
      obtain rfl := Option.some.inj ((hbefore.blob?_of_told he rfl).symm.trans hb)
      exact .inr ⟨k', he⟩
    | _ => cases hinserts

/-- A blob holds what was last stored in it. -/
theorem stored {k : Nat} {b : BlobId} {v : Datum}
    (h : Account ws s (before ++ .stored k b v :: after) s')
    (hlast : ∀ e ∈ after, e.target? ≠ some b) : s'.heap.value? b = some v := by
  obtain ⟨s₁, s₂, -, hhappens, hafter⟩ := h.split
  cases hhappens with
  | stored hb =>
    rw [Heap.value?, hafter.content_eq hb hlast, Heap.content, Heap.cell_set_self]
    rfl

/-- A blob is empty until a value is stored in it. -/
theorem blank {k : Nat} {name : String} {b : BlobId}
    (h : Account ws s (before ++ .inserted k name b :: after) s')
    (hnever : ∀ e ∈ after, e.target? ≠ some b) : s'.heap.content b = none := by
  obtain ⟨s₁, s₂, -, hhappens, hafter⟩ := h.split
  have hb := hhappens.blob?_of_told rfl
  cases hhappens with
  | inserted hnone =>
    rw [hafter.content_eq hb hnever]
    exact (Store.adds_allocate hnone).content_eq_none ws name _ hnone hb

end Account

/-! ## Steps -/

section Steps

variable {ws name : String} {st st' : State} {k : Nat} {c : Client} {b : BlobId} {a : Action}

/-- The client has the handles of blobs that have names in the workspace. -/
def Client.Named (ws : String) (s : Store) (c : Client) : Prop :=
  ∀ b ∈ c.handles, ∃ name, s.blob? ws name = some b

/-- All clients have such handles only. -/
def Owned (ws : String) (st : State) : Prop := ∀ c ∈ st.clients, c.Named ws st.store

/-- The second state continues the account of the first. -/
def Records (ws : String) (st st' : State) : Prop :=
  ∃ events, st'.events = st.events ++ events ∧ Account ws st.store events st'.store ∧ Owned ws st'

theorem Client.Named.mono {s s' : Store} (h : c.Named ws s) (hs : s.Extends s') :
    c.Named ws s' := by
  intro b hb
  obtain ⟨name, hname⟩ := h b hb
  exact ⟨name, hs ws name b hname⟩

/-- One more handle is one of a named blob. -/
theorem Client.Named.cons {s : Store} {pending : Option String} (h : c.Named ws s)
    (hb : s.blob? ws name = some b) : Client.Named ws s ⟨pending, b :: c.handles⟩ :=
  List.forall_mem_cons.2 ⟨⟨name, hb⟩, h⟩

theorem Owned.named (h : Owned ws st) (hc : st.clients[k]? = some c) : c.Named ws st.store :=
  h c (List.mem_of_getElem? hc)

theorem Owned.mono (h : Owned ws st) (hclients : st'.clients = st.clients)
    (hs : st.store.Extends st'.store) : Owned ws st' := by
  intro c hc
  rw [hclients] at hc
  exact (h c hc).mono hs

theorem Owned.setClient (h : Owned ws st) (hc : c.Named ws st.store) :
    Owned ws (st.setClient k c) := by
  intro c' hc'
  rcases List.mem_or_eq_of_mem_set hc' with hc' | rfl
  · exact h c' hc'
  · exact hc

theorem records_answer (h : Owned ws st) (hc : c.Named ws st.store)
    (hb : st.store.blob? ws name = some b) : Records ws st (st.answer k c name b) :=
  ⟨_, rfl, .single (.created hb), h.setClient (hc.cons hb)⟩

theorem Records.trans {st'' : State} (h : Records ws st st') (h' : Records ws st' st'') :
    Records ws st st'' := by
  obtain ⟨events, hevents, haccount, -⟩ := h
  obtain ⟨events', hevents', haccount', howned⟩ := h'
  exact ⟨events ++ events', by rw [hevents', hevents, List.append_assoc],
    haccount.append haccount', howned⟩

theorem records_check (h : Owned ws st) (hc : c.Named ws st.store) :
    Records ws st (check ws st k c name) := by
  rw [check]
  cases hb : st.store.blob? ws name with
  | some b => exact records_answer h hc hb
  | none => exact ⟨[], (List.append_nil _).symm, .nil _, h.setClient hc⟩

/-- A creation that comes too late answers with the blob that is there. -/
theorem insert_of_some (hb : st.store.blob? ws name = some b) :
    insert ws st k c name = st.answer k c name b := by
  simp [insert, Store.create, Store.has, hb, State.note]

/-- The state after a new blob was put in, which is still to be answered. -/
def inserted (ws : String) (st : State) (k : Nat) (name : String) : State :=
  { st with store := st.store.allocate ws name }.note [.inserted k name st.store.names.fresh]

theorem insert_of_none (hnone : st.store.blob? ws name = none) :
    insert ws st k c name = (inserted ws st k name).answer k c name st.store.names.fresh := by
  simp [insert, inserted, Store.create, Store.has, hnone]

theorem records_insert (h : Owned ws st) (hc : c.Named ws st.store) :
    Records ws st (insert ws st k c name) := by
  cases hb : st.store.blob? ws name with
  | some b =>
    rw [insert_of_some hb]
    exact records_answer h hc hb
  | none =>
    have hhappens : Happens ws st.store (.inserted k name st.store.names.fresh)
      (inserted ws st k name).store := .inserted hb
    have howned : Owned ws (inserted ws st k name) := h.mono rfl hhappens.extends_store
    have hrecords : Records ws st (inserted ws st k name) := ⟨_, rfl, .single hhappens, howned⟩
    rw [insert_of_none hb]
    exact hrecords.trans
      (records_answer howned (hc.mono hhappens.extends_store) (hhappens.blob?_of_told rfl))

theorem records_find (h : Owned ws st) (hc : c.Named ws st.store) :
    Records ws st (find ws st k c name) := by
  rw [find, Store.getBlob]
  cases hb : st.store.blob? ws name with
  | some b => exact ⟨_, rfl, .single (.found hb), h.setClient (hc.cons hb)⟩
  | none => exact ⟨_, rfl, .single (.missed hb), h⟩

/-- **A step continues the account**, whichever client takes it. -/
theorem records_of_act (h : Owned ws st) (ha : act ws st a = some st') : Records ws st st' := by
  cases a with
  | check k name =>
    simp only [act] at ha
    split at ha
    · next c hc =>
      obtain ⟨-, hst⟩ := Option.ite_none_right_eq_some.1 ha
      obtain rfl := Option.some.inj hst
      exact records_check h (h.named hc)
    · cases ha
  | insert k =>
    simp only [act] at ha
    split at ha
    · next c hc =>
      obtain ⟨name, -, rfl⟩ := Option.map_eq_some_iff.1 ha
      exact records_insert h (h.named hc)
    · cases ha
  | find k name =>
    simp only [act] at ha
    split at ha
    · next c hc =>
      obtain ⟨-, hst⟩ := Option.ite_none_right_eq_some.1 ha
      obtain rfl := Option.some.inj hst
      exact records_find h (h.named hc)
    · cases ha
  | store k b v =>
    simp only [act] at ha
    split at ha
    · next c hc =>
      obtain ⟨⟨-, hb⟩, hst⟩ := Option.ite_none_right_eq_some.1 ha
      obtain rfl := Option.some.inj hst
      obtain ⟨name, hname⟩ := h.named hc b hb
      exact ⟨_, rfl, .single (.stored hname), h.mono rfl fun _ _ _ hb' => hb'⟩
    · cases ha

/-- What a list of steps makes of a state is reached by steps. -/
theorem Steps.of_foldlM {start : State} {actions : List Action} (h : Steps ws start st)
    (hrun : actions.foldlM (act ws) st = some st') : Steps ws start st' := by
  induction actions generalizing st with
  | nil =>
    obtain rfl := Option.some.inj hrun
    exact h
  | cons a actions ih =>
    rw [List.foldlM_cons] at hrun
    obtain ⟨mid, hact, hrest⟩ := Option.bind_eq_some_iff.1 hrun
    exact ih (h.step hact) hrest

theorem owned_initial (ws : String) (s : Store) (n : Nat) : Owned ws (initial s n) := by
  intro c hc b hb
  rw [(List.mem_replicate.1 hc).2] at hb
  cases hb

/-- Any number of steps, taken by any of the clients, is accounted for. -/
theorem records_of_steps {start : State} (hstart : Owned ws start) (h : Steps ws start st) :
    Records ws start st := by
  induction h with
  | refl => exact ⟨[], (List.append_nil _).symm, .nil _, hstart⟩
  | step _ ha ih =>
    have ⟨_, _, _, howned⟩ := ih
    exact ih.trans (records_of_act howned ha)

/-! ## Progress -/

/-- Nobody waits for anybody: whatever a client wants to do next, it can do, and it is answered. -/
structure Serves (ws : String) (st : State) (k : Nat) (c : Client) : Prop where
  /-- A creation begins, and either is answered or has found its name missing. -/
  check : c.pending = none → ∀ name, ∃ st', act ws st (.check k name) = some st' ∧
    ((∃ b, st'.events = st.events ++ [.created k name b]) ∨
      st'.clients[k]? = some { c with pending := some name })
  /-- A creation that has found its name missing is answered. -/
  insert : ∀ name, c.pending = some name → ∃ st' b, act ws st (.insert k) = some st' ∧
    st'.events.getLast? = some (.created k name b)
  /-- A look-up is answered. -/
  find : c.pending = none → ∀ name, ∃ st', act ws st (.find k name) = some st' ∧
    ((∃ b, st'.events = st.events ++ [.found k name b]) ∨
      ∃ cause, st'.events = st.events ++ [.missed k name cause])

theorem serves (ws : String) (hc : st.clients[k]? = some c) : Serves ws st k c where
  check hidle name := by
    refine ⟨Creation.check ws st k c name, by simp [act, hc, hidle], ?_⟩
    rw [Creation.check]
    cases st.store.blob? ws name with
    | some b => exact .inl ⟨b, rfl⟩
    | none =>
      obtain ⟨hlt, -⟩ := List.getElem?_eq_some_iff.1 hc
      exact .inr (List.getElem?_set_self hlt)
  insert name hpending := by
    refine ⟨Creation.insert ws st k c name, (st.store.create ws name).1,
      by simp [act, hc, hpending], ?_⟩
    simp [Creation.insert, State.answer, State.note]
  find hidle name := by
    refine ⟨Creation.find ws st k c name, by simp [act, hc, hidle], ?_⟩
    rw [Creation.find]
    cases st.store.getBlob ws name with
    | ok b => exact .inl ⟨b, rfl⟩
    | error cause => exact .inr ⟨cause, rfl⟩

end Steps

/-! ## What clients can rely on -/

/-- What clients that use a workspace at the same time can rely on. The store was `s` when they
came, and what has happened since then is in the account. -/
structure OneBlobEach (ws : String) (s : Store) (st : State) : Prop where
  /-- Every name that was there has the blob that it had. -/
  kept : s.Extends st.store
  /-- Every blob that a client was given for a name is the blob of that name, and stays so. -/
  told : ∀ e ∈ st.events, ∀ name b, e.told? = some (name, b) → st.store.blob? ws name = some b
  /-- So two clients have the same blob just if they have asked for the same name. -/
  same_iff : ∀ e ∈ st.events, ∀ e' ∈ st.events, ∀ name b name' b', e.told? = some (name, b) →
    e'.told? = some (name', b') → (b = b' ↔ name = name')
  /-- A name is there if it was there before or was put in. -/
  has_iff : ∀ name, st.store.has ws name ↔ s.has ws name ∨ ∃ e ∈ st.events, e.inserts? = some name
  /-- A name is put in once, and only if it was not there before. -/
  once : ∀ before k name b after, st.events = before ++ .inserted k name b :: after →
    s.blob? ws name = none ∧ ∀ e ∈ before ++ after, e.inserts? ≠ some name
  /-- A look-up succeeds with the blob that was there before, or that has been put in. -/
  found : ∀ before k name b after, st.events = before ++ .found k name b :: after →
    s.blob? ws name = some b ∨ ∃ k', .inserted k' name b ∈ before
  /-- A look-up fails if the name was not there before and has not been put in. -/
  missed : ∀ before k name cause after, st.events = before ++ .missed k name cause :: after →
    cause = .blobNotFound name ∧ s.blob? ws name = none ∧ ∀ e ∈ before, e.inserts? ≠ some name
  /-- A blob holds the value that was stored in it last, whatever is created afterwards. -/
  stored : ∀ before k b v after, st.events = before ++ .stored k b v :: after →
    (∀ e ∈ after, e.target? ≠ some b) → st.store.heap.value? b = some v
  /-- A new blob is empty as long as nothing is stored in it. -/
  blank : ∀ before k name b after, st.events = before ++ .inserted k name b :: after →
    (∀ e ∈ after, e.target? ≠ some b) → st.store.heap.content b = none
  /-- A blob that was there before holds what it held as long as nothing is stored in it. -/
  untouched : ∀ ws' name b, s.blob? ws' name = some b → (∀ e ∈ st.events, e.target? ≠ some b) →
    st.store.heap.content b = s.heap.content b
  /-- Every client can go on, and is answered. -/
  serves : ∀ k c, st.clients[k]? = some c → Serves ws st k c

/-- **Every name gets one blob**, whatever clients do at the same time and in whatever order their
steps are taken. All creations of a name answer with its blob, also those that have found the name
missing while another client was about to create it, and so do all look-ups that come after the
first insertion; those that come before it fail. No creation takes back what was stored. -/
theorem oneBlobEach_of_steps (ws : String) (s : Store) (n : Nat) {st : State}
    (h : Steps ws (initial s n) st) : OneBlobEach ws s st := by
  obtain ⟨events, hevents, haccount, -⟩ := records_of_steps (owned_initial ws s n) h
  obtain rfl : st.events = events := hevents
  have htold : ∀ e ∈ st.events, ∀ name b, e.told? = some (name, b) →
      st.store.blob? ws name = some b :=
    fun e he name b => haccount.blob?_of_told he
  have hat {before : List Event} {e : Event} {after : List Event}
      (hsplit : st.events = before ++ e :: after) :
      Account ws s (before ++ e :: after) st.store := hsplit ▸ haccount
  exact
    { kept := haccount.extends_store
      told := htold
      same_iff := fun e he e' he' name b name' b' hb hb' => by
        have hname := htold e he name b hb
        have hname' := htold e' he' name' b' hb'
        refine ⟨?_, ?_⟩
        · rintro rfl
          exact Store.name_eq_of_blob?_eq hname hname'
        · rintro rfl
          exact Option.some.inj (hname.symm.trans hname')
      has_iff := fun name => haccount.has_iff
      once := fun _ _ _ _ _ hsplit => (hat hsplit).once
      found := fun _ _ _ _ _ hsplit => (hat hsplit).found
      missed := fun _ _ _ _ _ hsplit => (hat hsplit).missed
      stored := fun _ _ _ _ _ hsplit => (hat hsplit).stored
      blank := fun _ _ _ _ _ hsplit => (hat hsplit).blank
      untouched := fun ws' name b => haccount.content_eq
      serves := fun k c => Creation.serves ws }

/-- Two clients find the same name missing, and the one that comes first stores a value in its blob
before the other one creates it. -/
def rivals : List Action :=
  [.find 0 "loss", .check 0 "loss", .check 1 "loss", .insert 1, .store 1 0 (.known (.byte 7)),
    .insert 0, .find 0 "loss"]

/-- Both have the blob of the one that came first, and the value is still there. -/
theorem rivals_oneBlobEach : ∃ st, Steps "" (initial {} 2) st ∧ OneBlobEach "" {} st ∧
    st.events = [.missed 0 "loss" (.blobNotFound "loss"), .inserted 1 "loss" 0,
      .created 1 "loss" 0, .stored 1 0 (.known (.byte 7)), .created 0 "loss" 0, .found 0 "loss" 0] ∧
    st.store.heap.value? 0 = some (.known (.byte 7)) := by
  have hsome : (rivals.foldlM (act "") (initial {} 2)).isSome := by decide
  have hsteps := Steps.of_foldlM .refl (Option.some_get hsome).symm
  exact ⟨_, hsteps, oneBlobEach_of_steps "" {} 2 hsteps, rfl, rfl⟩

end Creation
end OpNet
