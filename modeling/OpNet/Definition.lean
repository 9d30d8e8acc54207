import OpNet.Argument
import OpNet.EngineList

/-!
# Definitions

The descriptions that operators and nets are built from.

* `OperatorDef` — an operator: its type, a name of its own, the blobs it reads and writes, where it
  runs, the engines it would like to be built by, and its arguments.
* `NetDef` — a net: operators in order, and the blobs it shares with its surroundings.
-/

set_option autoImplicit false

namespace OpNet

/-- The definition of an operator. -/
structure OperatorDef where
  opType : String
  name : String := ""
  inputs : List String := []
  outputs : List String := []
  placement : Placement := {}
  engine : String := ""
  args : List Argument := []
deriving BEq, Inhabited

/-- The engines that the definition asks for, in order. -/
def OperatorDef.engines (d : OperatorDef) : List String := EngineList.parse d.engine

/-- The kind of device that the definition asks for. -/
def OperatorDef.device (d : OperatorDef) : Device := d.placement.device

/-- The definition of a net. -/
structure NetDef where
  name : String := ""
  netType : String := ""
  workers : Nat := 0
  ops : List OperatorDef := []
  externalInputs : List String := []
  externalOutputs : List String := []
deriving Inhabited

/-- The blobs that the operators of a net read, in order, with repetitions. -/
def NetDef.opInputs (d : NetDef) : List String := d.ops.flatMap (·.inputs)

/-- The blobs that the operators of a net write, in order, with repetitions. -/
def NetDef.opOutputs (d : NetDef) : List String := d.ops.flatMap (·.outputs)

end OpNet
