import OpNet.Fault
import OpNet.Store.Directory

/-!
# Workspaces

The store has the names of all workspaces and the contents of their blobs. A blob is created when
its name is first mentioned and keeps its handle from then on; blobs are never removed. A blob of
one workspace can share the payload of a blob of another.

* `Store.blob?` — the handle of a name, if the name was ever created.
* `Store.create` — creates a blob, or finds the one that is there; `Store.createAll` does so for a
  list of names. `Store.blob?_create_self`, `Store.blob?_create_of_ne` and
  `Store.blob?_create_of_some` say what becomes of the names.
* `Store.getBlob`, `Store.fetch` — find a blob, and what it holds at a wanted type.
-/

set_option autoImplicit false

namespace OpNet

/-- All workspaces, with the contents of their blobs. -/
structure Store where
  names : Directory := {}
  heap : Heap := {}

namespace Store

/-! ## Names -/

/-- The handle of a name. -/
def blob? (s : Store) (ws name : String) : Option BlobId := s.names.blob? ws name

/-- Whether a name was created. -/
def has (s : Store) (ws name : String) : Bool := (s.blob? ws name).isSome

/-- The handle of a name that has to be there. -/
def getBlob (s : Store) (ws name : String) : Except Fault BlobId :=
  match s.blob? ws name with
  | some b => .ok b
  | none => .error (.blobNotFound name)

/-- Gives a name a new blob, which is empty. -/
def allocate (s : Store) (ws name : String) : Store where
  names := s.names.allocate ws name
  heap := s.heap.put s.names.fresh {}

/-- The blob of a name, created if it is not there. -/
def create (s : Store) (ws name : String) : BlobId × Store :=
  match s.blob? ws name with
  | some b => (b, s)
  | none => (s.names.fresh, s.allocate ws name)

/-- The blobs of a list of names, each created if it is not there. -/
def createAll (s : Store) (ws : String) : List String → List BlobId × Store
  | [] => ([], s)
  | name :: names =>
    let (b, s) := s.create ws name
    let (bs, s) := s.createAll ws names
    (b :: bs, s)

/-- The names of a workspace in order. -/
def blobNames (s : Store) (ws : String) : List String := (s.names.space ws).keys

/-- The number of blobs of a workspace. -/
def size (s : Store) (ws : String) : Nat := (s.names.space ws).size

/-! ## Contents -/

/-- Stores a value in the blob of a name, which is created if it is not there. -/
def feed (s : Store) (ws name : String) (v : Datum) : BlobId × Store :=
  let (b, s) := s.create ws name
  (b, { s with heap := s.heap.set b v })

/-- What the blob of a name holds, if it is of the wanted type. -/
def fetch (s : Store) (ws name : String) (t : DataType) : Except Fault Payload :=
  match s.getBlob ws name with
  | .error cause => .error cause
  | .ok b =>
    match s.heap.content b with
    | some p => if p.value.type = t then .ok p else .error (.blobType name t.name)
    | none => .error (.blobType name t.name)

/-! ## What creation does to the names -/

@[simp] theorem blob?_empty (ws name : String) : ({} : Store).blob? ws name = none :=
  Directory.blob?_empty ws name

theorem blob?_allocate (s : Store) (ws name ws' name' : String) :
    (s.allocate ws name).blob? ws' name' =
      if ws' = ws ∧ name' = name then some s.names.fresh else s.blob? ws' name' :=
  Directory.blob?_allocate ..

/-- Creation gives the name a blob. -/
theorem blob?_create_self (s : Store) (ws name : String) :
    (s.create ws name).2.blob? ws name = some (s.create ws name).1 := by
  unfold create
  split
  · next h => exact h
  · simp [blob?_allocate]

/-- Creation leaves the other names as they were. -/
theorem blob?_create_of_ne (s : Store) {ws name ws' name' : String}
    (h : ¬(ws' = ws ∧ name' = name)) :
    (s.create ws name).2.blob? ws' name' = s.blob? ws' name' := by
  unfold create
  split
  · rfl
  · rw [blob?_allocate, if_neg h]

/-- A name keeps the blob it has. -/
theorem blob?_create_of_some {s : Store} {ws name ws' name' : String} {b : BlobId}
    (h : s.blob? ws' name' = some b) : (s.create ws name).2.blob? ws' name' = some b := by
  by_cases hn : ws' = ws ∧ name' = name
  · obtain ⟨rfl, rfl⟩ := hn
    unfold create
    rw [h]
    exact h
  · rw [blob?_create_of_ne s hn, h]

end Store
end OpNet
