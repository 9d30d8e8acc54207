/-!
# Values

A blob can hold a value of any type. The values of some types have a notation, so that commands and
reports can write them down. Of the values of further types only that is known which blobs need:
their type, and the full name of it.

* `ValueType`, `Value` — the types with a notation, and their values.
* `DataType`, `Datum` — all types, and their values.
* `DataType.name` — the full name of a type, as reports and error messages give it.
* `Datum.type` — the type of a value.
-/

set_option autoImplicit false

namespace OpNet

/-! ## Values with a notation -/

/-- The types whose values have a notation. -/
inductive ValueType where
  | single
  | double
  | int32
  | int64
  | size
  | byte
  | bool
  | text
  | singles
  | int64s
  | texts
deriving DecidableEq, Inhabited

/-- The full name of a type. -/
def ValueType.name : ValueType → String
  | single => "f32"
  | double => "f64"
  | int32 => "i32"
  | int64 => "i64"
  | size => "usize"
  | byte => "u8"
  | bool => "bool"
  | text => "alloc::string::String"
  | singles => "alloc::vec::Vec<f32>"
  | int64s => "alloc::vec::Vec<i64>"
  | texts => "alloc::vec::Vec<alloc::string::String>"

/-- The short name of a type: a list type is named after the type of its elements. -/
def ValueType.tag : ValueType → String
  | text => "string"
  | singles => "f32s"
  | int64s => "i64s"
  | texts => "strings"
  | t => t.name

/-- A value of a type with a notation. -/
inductive Value where
  | single (x : Float32)
  | double (x : Float)
  | int32 (n : Int32)
  | int64 (n : Int64)
  | size (n : UInt64)
  | byte (n : UInt8)
  | bool (b : Bool)
  | text (s : String)
  | singles (xs : List Float32)
  | int64s (ns : List Int64)
  | texts (ss : List String)

/-- The type of a value. -/
def Value.type : Value → ValueType
  | single _ => .single
  | double _ => .double
  | int32 _ => .int32
  | int64 _ => .int64
  | size _ => .size
  | byte _ => .byte
  | bool _ => .bool
  | text _ => .text
  | singles _ => .singles
  | int64s _ => .int64s
  | texts _ => .texts

/-! ## All values -/

/-- A type without a notation. Types of the same full name are told apart by a number. -/
structure FurtherType where
  name : String
  number : Nat := 0
deriving DecidableEq, Inhabited

/-- The types of the values that blobs hold. -/
inductive DataType where
  | known (t : ValueType)
  | further (t : FurtherType)
deriving DecidableEq, Inhabited

instance : Coe ValueType DataType := ⟨.known⟩

/-- The full name of a type. -/
def DataType.name : DataType → String
  | known t => t.name
  | further t => t.name

/-- The short name of a type, if it has one, or else the full name. -/
def DataType.tag : DataType → String
  | known t => t.tag
  | further t => t.name

/-- A value that a blob can hold. The values of a further type are told apart by a number. -/
inductive Datum where
  | known (v : Value)
  | further (t : FurtherType) (number : Nat)

instance : Coe Value Datum := ⟨.known⟩

/-- The type of a value. -/
def Datum.type : Datum → DataType
  | known v => v.type
  | further t _ => .further t

/-- The value in the form that has a notation, if it has one. -/
def Datum.known? : Datum → Option Value
  | known v => some v
  | further _ _ => none

end OpNet
