import Std.Data.TreeMap
import OpNet.Store.Heap

/-!
# Names of blobs

A workspace gives names to blobs. Several workspaces, told apart by names of their own, take their
handles from one supply, so that no two names of any workspaces stand for the same blob.

* `Directory` — the names of all workspaces. That handles are in range and never shared is part of
  the type.
* `Directory.blob?` — the view: the handle of a name, if the name has one.
* `Directory.allocate` — gives a new name the next handle; `Directory.blob?_allocate` is its law.
-/

set_option autoImplicit false

namespace OpNet

/-- The names of one workspace. -/
abbrev Workspace := Std.TreeMap String BlobId

/-- The handle of a name among the names of several workspaces. -/
def handleIn? (spaces : Std.TreeMap String Workspace) (ws name : String) : Option BlobId :=
  (spaces.getD ws {})[name]?

theorem handleIn?_empty (ws name : String) : handleIn? {} ws name = none := by
  simp [handleIn?]

theorem lt_of_handleIn?_empty {ws name : String} {b : BlobId}
    (h : handleIn? {} ws name = some b) : b < 0 := by
  rw [handleIn?_empty] at h
  cases h

theorem eq_of_handleIn?_empty {ws name ws' name' : String} {b : BlobId}
    (h : handleIn? {} ws name = some b) (_ : handleIn? {} ws' name' = some b) :
    ws = ws' ∧ name = name' :=
  absurd (lt_of_handleIn?_empty h) (Nat.not_lt_zero b)

/-- The names after one of them was given a handle. -/
def withHandle (spaces : Std.TreeMap String Workspace) (ws name : String) (b : BlobId) :
    Std.TreeMap String Workspace :=
  spaces.insert ws ((spaces.getD ws {}).insert name b)

theorem handleIn?_withHandle (spaces : Std.TreeMap String Workspace)
    (ws name ws' name' : String) (b : BlobId) :
    handleIn? (withHandle spaces ws name b) ws' name' =
      if ws' = ws ∧ name' = name then some b else handleIn? spaces ws' name' := by
  unfold handleIn? withHandle
  by_cases hws : ws' = ws
  · subst hws
    simp [Std.TreeMap.getElem?_insert, @eq_comm _ name]
  · simp [Std.TreeMap.getD_insert, hws, Ne.symm hws]

/-- The names of all workspaces, and the handle that the next new name will get. -/
structure Directory where
  spaces : Std.TreeMap String Workspace := {}
  fresh : BlobId := 0
  /-- Every handle in use was given out. -/
  lt_fresh : ∀ {ws name : String} {b : BlobId},
    handleIn? spaces ws name = some b → b < fresh := by exact @lt_of_handleIn?_empty
  /-- No handle is given to two names. -/
  injective : ∀ {ws name ws' name' : String} {b : BlobId}, handleIn? spaces ws name = some b →
    handleIn? spaces ws' name' = some b → ws = ws' ∧ name = name' := by
      exact @eq_of_handleIn?_empty

namespace Directory

/-- The names of a workspace; one that was never mentioned has none. -/
def space (d : Directory) (ws : String) : Workspace := d.spaces.getD ws {}

/-- The handle of a name. -/
def blob? (d : Directory) (ws name : String) : Option BlobId := handleIn? d.spaces ws name

/-- Gives a name the next handle. -/
def allocate (d : Directory) (ws name : String) : Directory where
  spaces := withHandle d.spaces ws name d.fresh
  fresh := d.fresh + 1
  lt_fresh {ws' name' b} h := by
    rw [handleIn?_withHandle] at h
    split at h
    · cases h; exact Nat.lt_succ_self _
    · exact Nat.lt_succ_of_lt (d.lt_fresh h)
  injective {ws₁ name₁ ws₂ name₂ b} h₁ h₂ := by
    rw [handleIn?_withHandle] at h₁ h₂
    split at h₁ <;> split at h₂
    · next h h' => exact ⟨h.1.trans h'.1.symm, h.2.trans h'.2.symm⟩
    · cases h₁; exact absurd (d.lt_fresh h₂) (Nat.lt_irrefl _)
    · cases h₂; exact absurd (d.lt_fresh h₁) (Nat.lt_irrefl _)
    · exact d.injective h₁ h₂

@[simp] theorem blob?_empty (ws name : String) : ({} : Directory).blob? ws name = none :=
  handleIn?_empty ws name

/-- The new name gets the next handle, and the other names keep theirs. -/
theorem blob?_allocate (d : Directory) (ws name ws' name' : String) :
    (d.allocate ws name).blob? ws' name' =
      if ws' = ws ∧ name' = name then some d.fresh else d.blob? ws' name' :=
  handleIn?_withHandle ..

end Directory
end OpNet
