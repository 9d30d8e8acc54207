import Std.Data.TreeMap
import OpNet.Value

/-!
# The contents of blobs

A blob is a cell that holds at most one value. Storing a value makes a new payload, and a payload
can be shared: the same payload is then the content of several blobs.

* `PayloadId` — a payload is known by the blob it was first stored in and by how many values had
  been stored in that blob before; so two stores never make the same payload.
* `Heap.set`, `Heap.share`, `Heap.reset` — the three ways to change the content of a blob. Each
  changes the blob it is given and no other: `Heap.cell_set_self`, `Heap.cell_set_of_ne` and so on.
-/

set_option autoImplicit false

namespace OpNet

/-- A handle of a blob. -/
abbrev BlobId := Nat

/-- The identity of a payload: where it was first stored, and after how many earlier stores. -/
structure PayloadId where
  origin : BlobId
  serial : Nat
deriving DecidableEq, Inhabited

/-- A stored value with its identity. The name of its type was written down when it was stored. -/
structure Payload where
  id : PayloadId
  value : Datum
  typeName : String

/-- The state of a blob: how many values have been stored in it, and what it holds now. -/
structure Cell where
  stores : Nat := 0
  content : Option Payload := none

/-- The states of all blobs. A blob that was never changed is empty. -/
structure Heap where
  cells : Std.TreeMap BlobId Cell := {}

namespace Heap

/-- The state of a blob. -/
def cell (h : Heap) (b : BlobId) : Cell := h.cells.getD b {}

/-- Replaces the state of a blob. -/
def put (h : Heap) (b : BlobId) (c : Cell) : Heap := ⟨h.cells.insert b c⟩

/-- What a blob holds. -/
def content (h : Heap) (b : BlobId) : Option Payload := (h.cell b).content

/-- The value that a blob holds. -/
def value? (h : Heap) (b : BlobId) : Option Datum := (h.content b).map (·.value)

/-- Stores a value in a blob, as a new payload. -/
def set (h : Heap) (b : BlobId) (v : Datum) : Heap :=
  let c := h.cell b
  h.put b ⟨c.stores + 1, some ⟨⟨b, c.stores⟩, v, v.type.name⟩⟩

/-- Makes a blob hold the payload that another one holds, or empties it if the other is empty. -/
def share (h : Heap) (b source : BlobId) : Heap :=
  h.put b { h.cell b with content := h.content source }

/-- Empties a blob. -/
def reset (h : Heap) (b : BlobId) : Heap :=
  h.put b { h.cell b with content := none }

/-- The payload that a blob holds, if it is of a type. -/
def payloadAt? (h : Heap) (b : BlobId) (t : DataType) : Option Payload :=
  (h.content b).filter (·.value.type = t)

/-- The value that a blob holds, if it is of a type. -/
def valueAt? (h : Heap) (b : BlobId) (t : DataType) : Option Datum :=
  (h.payloadAt? b t).map (·.value)

/-- Whether a blob holds a value of a type. -/
def holds (h : Heap) (b : BlobId) (t : DataType) : Bool :=
  (h.content b).any (·.value.type = t)

/-- The name that was written down for the type of the value that a blob holds. -/
def typeName? (h : Heap) (b : BlobId) : Option String := (h.content b).map (·.typeName)

/-- Whether two blobs hold the very same payload. -/
def samePayload (h : Heap) (a b : BlobId) : Bool :=
  match h.content a, h.content b with
  | some p, some q => p.id = q.id
  | _, _ => false

/-! ## One blob at a time -/

@[simp] theorem cell_empty (b : BlobId) : ({} : Heap).cell b = {} := by
  simp [cell]

@[simp] theorem cell_put_self (h : Heap) (b : BlobId) (c : Cell) : (h.put b c).cell b = c := by
  simp [cell, put]

theorem cell_put_of_ne (h : Heap) {a b : BlobId} (c : Cell) (hne : a ≠ b) :
    (h.put b c).cell a = h.cell a := by
  simp [cell, put, Std.TreeMap.getD_insert, hne.symm]

theorem cell_set_self (h : Heap) (b : BlobId) (v : Datum) :
    (h.set b v).cell b =
      ⟨(h.cell b).stores + 1, some ⟨⟨b, (h.cell b).stores⟩, v, v.type.name⟩⟩ :=
  cell_put_self ..

theorem cell_set_of_ne (h : Heap) {a b : BlobId} (v : Datum) (hne : a ≠ b) :
    (h.set b v).cell a = h.cell a :=
  cell_put_of_ne h _ hne

theorem cell_share_self (h : Heap) (b source : BlobId) :
    (h.share b source).cell b = { h.cell b with content := h.content source } :=
  cell_put_self ..

theorem cell_share_of_ne (h : Heap) {a b : BlobId} (source : BlobId) (hne : a ≠ b) :
    (h.share b source).cell a = h.cell a :=
  cell_put_of_ne h _ hne

theorem cell_reset_self (h : Heap) (b : BlobId) :
    (h.reset b).cell b = { h.cell b with content := none } :=
  cell_put_self ..

theorem cell_reset_of_ne (h : Heap) {a b : BlobId} (hne : a ≠ b) :
    (h.reset b).cell a = h.cell a :=
  cell_put_of_ne h _ hne

end Heap
end OpNet
