import OpNet.Store.Workspace

/-!
# Creation by several clients at once

Several clients use one workspace at the same time. A client that wants a blob first looks whether
the name is there, and only if it is not does it come back, as a second step, to create it; other
clients may act in between. The second step therefore looks again.

* `Creation.Action`, `Creation.act` — the steps that clients can take, each of them undivided.
* `Creation.initial` — a store to which a number of clients come.
* `Creation.Steps` — what some interleaving of steps makes of a state; what holds of it holds for
  every interleaving.
* `Creation.create_of_undisturbed` — the two steps without another between them are `Store.create`.
-/

set_option autoImplicit false

namespace OpNet
namespace Creation

/-- A client: the name that it has found missing and is about to create, if there is one, and the
handles that it has been given. -/
structure Client where
  pending : Option String := none
  handles : List BlobId := []

/-- The steps of clients. -/
inductive Action where
  /-- Looks whether a name is there, in order to create it if it is not. -/
  | check (client : Nat) (name : String)
  /-- Creates the name that was found missing, if it is missing still. -/
  | insert (client : Nat)
  /-- Looks a name up. -/
  | find (client : Nat) (name : String)
  /-- Stores a value through a handle. -/
  | store (client : Nat) (b : BlobId) (v : Datum)

/-- The things that happen, for the account of them. -/
inductive Event where
  /-- A creation has put a new blob into the workspace. -/
  | inserted (client : Nat) (name : String) (b : BlobId)
  /-- A creation has answered with a blob. -/
  | created (client : Nat) (name : String) (b : BlobId)
  /-- A look-up has answered with a blob. -/
  | found (client : Nat) (name : String) (b : BlobId)
  /-- A look-up has failed. -/
  | missed (client : Nat) (name : String) (cause : Fault)
  /-- A value was stored through a handle. -/
  | stored (client : Nat) (b : BlobId) (v : Datum)

/-- The store, the clients, and what has happened so far. -/
structure State where
  store : Store := {}
  clients : List Client
  events : List Event := []

namespace State

/-- Adds events to the account. -/
def note (st : State) (events : List Event) : State := { st with events := st.events ++ events }

/-- Replaces a client. -/
def setClient (st : State) (k : Nat) (c : Client) : State :=
  { st with clients := st.clients.set k c }

/-- Answers a creation with a blob. -/
def answer (st : State) (k : Nat) (c : Client) (name : String) (b : BlobId) : State :=
  (st.setClient k { pending := none, handles := b :: c.handles }).note [.created k name b]

end State

/-- What becomes of a state when client `k` looks whether a name is there. -/
def check (ws : String) (st : State) (k : Nat) (c : Client) (name : String) : State :=
  match st.store.blob? ws name with
  | some b => st.answer k c name b
  | none => st.setClient k { c with pending := some name }

/-- What becomes of a state when client `k` creates the name that it has found missing. -/
def insert (ws : String) (st : State) (k : Nat) (c : Client) (name : String) : State :=
  let (b, store) := st.store.create ws name
  let events := if st.store.has ws name then [] else [Event.inserted k name b]
  ({ st with store }.note events).answer k c name b

/-- What becomes of a state when client `k` looks a name up. -/
def find (ws : String) (st : State) (k : Nat) (c : Client) (name : String) : State :=
  match st.store.getBlob ws name with
  | .ok b => (st.setClient k { c with handles := b :: c.handles }).note [.found k name b]
  | .error cause => st.note [.missed k name cause]

/-- One step of a client. A client that is about to create a blob does nothing else before, and a
value is stored only through a handle that the client was given. -/
def act (ws : String) (st : State) : Action → Option State
  | .check k name =>
    match st.clients[k]? with
    | some c => if c.pending.isNone then some (check ws st k c name) else none
    | none => none
  | .insert k =>
    match st.clients[k]? with
    | some c => c.pending.map (insert ws st k c)
    | none => none
  | .find k name =>
    match st.clients[k]? with
    | some c => if c.pending.isNone then some (find ws st k c name) else none
    | none => none
  | .store k b v =>
    match st.clients[k]? with
    | some c =>
      if c.pending.isNone ∧ b ∈ c.handles then
        let store := { st.store with heap := st.store.heap.set b v }
        some ({ st with store }.note [.stored k b v])
      else none
    | none => none

/-- A number of clients, none of which has a handle, come to a store. -/
def initial (s : Store) (clients : Nat) : State where
  store := s
  clients := List.replicate clients {}

/-- Some interleaving of steps leads from one state to another. -/
inductive Steps (ws : String) (start : State) : State → Prop
  | refl : Steps ws start start
  | step {st st' : State} {a : Action} (h : Steps ws start st) (ha : act ws st a = some st') :
      Steps ws start st'

/-- A creation that no other client disturbs is `Store.create`. -/
theorem create_of_undisturbed (ws : String) (st : State) (k : Nat) (c : Client) (name : String) :
    (match st.store.blob? ws name with
      | some _ => check ws st k c name
      | none => insert ws (check ws st k c name) k { c with pending := some name } name).store =
      (st.store.create ws name).2 := by
  cases h : st.store.blob? ws name with
  | some b => simp [check, h, State.answer, State.setClient, State.note, Store.create]
  | none => simp [check, insert, h, State.answer, State.setClient, State.note, Store.create]

end Creation
end OpNet
