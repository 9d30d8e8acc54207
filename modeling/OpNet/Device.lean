/-!
# Devices

An operator is placed on a device: a kind of hardware and a number that tells devices of one kind
apart.

* `Device.ofCode?` — reads a kind from its numeric code; `Device.ofCode?_eq_some_iff` says that it
  accepts exactly the codes that `Device.code` writes.
* `ByDevice` — one value for each kind of device, with the two facts `ByDevice.get_modify_self` and
  `ByDevice.get_modify_of_ne` that the registry's tables are reasoned about with.
-/

set_option autoImplicit false

namespace OpNet

/-! ## Kinds of device -/

/-- The kinds of device an operator can be placed on. -/
inductive Device where
  | cpu
  | cuda
deriving DecidableEq, Inhabited

namespace Device

/-- Every kind of device, in the order of their codes. -/
def all : List Device := [cpu, cuda]

/-- The numeric code of a kind. -/
def code : Device → Nat
  | cpu => 0
  | cuda => 1

/-- The kind with the given code. -/
def ofCode? : Nat → Option Device
  | 0 => some cpu
  | 1 => some cuda
  | _ => none

/-- The name of a kind in definitions and reports. -/
def name : Device → String
  | cpu => "cpu"
  | cuda => "cuda"

/-- The name of a kind in error messages. -/
def title : Device → String
  | cpu => "Cpu"
  | cuda => "Cuda"

/-- A code is read as the kind that has it, and only as that one. -/
theorem ofCode?_eq_some_iff {n : Nat} {d : Device} : ofCode? n = some d ↔ n = d.code := by
  constructor
  · intro h
    match n, h with
    | 0, h => cases h; rfl
    | 1, h => cases h; rfl
  · rintro rfl
    cases d <;> rfl

end Device

/-! ## Placements -/

/-- Where an operator runs: a kind of device and the number of the device among its kind. -/
structure Placement where
  device : Device := .cpu
  number : Nat := 0
deriving DecidableEq, Inhabited

namespace Placement

/-- The host processor. -/
def cpu : Placement := ⟨.cpu, 0⟩

/-- The accelerator with the given number. -/
def cuda (number : Nat) : Placement := ⟨.cuda, number⟩

/-- The first device of a kind. -/
def ofDevice (d : Device) : Placement := ⟨d, 0⟩

end Placement

/-! ## One value for each kind -/

/-- One value for each kind of device. -/
structure ByDevice (α : Type) where
  cpu : α
  cuda : α

namespace ByDevice

variable {α : Type}

/-- The same value for every kind. -/
def uniform (a : α) : ByDevice α := ⟨a, a⟩

/-- The value for one kind. -/
def get (t : ByDevice α) : Device → α
  | .cpu => t.cpu
  | .cuda => t.cuda

/-- Changes the value for one kind. -/
def modify (t : ByDevice α) (d : Device) (f : α → α) : ByDevice α :=
  match d with
  | .cpu => { t with cpu := f t.cpu }
  | .cuda => { t with cuda := f t.cuda }

@[simp] theorem get_uniform (a : α) (d : Device) : (uniform a).get d = a := by
  cases d <;> rfl

@[simp] theorem get_modify_self (t : ByDevice α) (d : Device) (f : α → α) :
    (t.modify d f).get d = f (t.get d) := by
  cases d <;> rfl

theorem get_modify_of_ne (t : ByDevice α) {d e : Device} (f : α → α) (h : e ≠ d) :
    (t.modify d f).get e = t.get e := by
  cases d <;> cases e <;> simp_all [get, modify]

end ByDevice

end OpNet
