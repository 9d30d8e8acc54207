import OpNet.Fault

/-!
# Arguments

An operator definition carries a list of named arguments, each with a value of one of six kinds.
This file holds the values and the reading of them at a wanted type.

* `ArgType` — the types an argument can be stored from and read at. A whole number is stored as a
  64-bit one, and read at any of the integer types whose range holds it.
* `Arguments.first?` — a name stands for the first argument that has it.
* `Arguments.trySingle`, `Arguments.tryRepeated` — read one value, or a list. An absent argument
  gives the default, or no values; an argument of another kind is a fault.
* `Arguments.single`, `Arguments.repeated` — the same for callers to whom a wrong kind is a mistake
  of their own: it is a panic with the text of the fault.
-/

set_option autoImplicit false

namespace OpNet

/-! ## Stored values -/

/-- The value of an argument. -/
inductive ArgValue where
  | single (x : Float32)
  | int (n : Int64)
  | text (s : String)
  | singles (xs : List Float32)
  | ints (ns : List Int64)
  | texts (ss : List String)
deriving BEq, Inhabited

/-- The name of the field that holds the value. -/
def ArgValue.field : ArgValue → String
  | single _ => "f"
  | int _ => "i"
  | text _ => "s"
  | singles _ => "floats"
  | ints _ => "ints"
  | texts _ => "strings"

/-- A named argument. -/
structure Argument where
  name : String
  value : ArgValue
deriving BEq, Inhabited

/-! ## Types to read at -/

/-- A type that arguments are stored from and read at. -/
class ArgType (α : Type) where
  /-- The field that one value is stored in. -/
  field : String
  /-- The field that a list of values is stored in. -/
  listField : String
  /-- Reads one value, unless it is of another kind or does not fit. -/
  read? : ArgValue → Option α
  /-- Reads a list of values, unless it is of another kind or one of them does not fit. -/
  readList? : ArgValue → Option (List α)
  /-- Stores one value. -/
  store : α → ArgValue
  /-- Stores a list of values. -/
  storeList : List α → ArgValue

/-- A type of whole numbers between two bounds. -/
structure IntegerRange (α : Type) where
  lo : Int
  hi : Int
  ofInt : Int → α
  toInt : α → Int

namespace IntegerRange

variable {α : Type}

/-- The number as a value of the type, if it lies between the bounds. -/
def ofInt? (r : IntegerRange α) (n : Int) : Option α :=
  if r.lo ≤ n ∧ n ≤ r.hi then some (r.ofInt n) else none

/-- The stored form of a number: one above the 64-bit range is stored as the largest of it. -/
def saturate (n : Int) : Int64 := Int64.ofInt (min n Int64.maxValue.toInt)

/-- Reading and storing for a type of whole numbers. -/
@[reducible] def argType (r : IntegerRange α) : ArgType α where
  field := "i"
  listField := "ints"
  read?
    | .int n => r.ofInt? n.toInt
    | _ => none
  readList?
    | .ints ns => ns.mapM fun n => r.ofInt? n.toInt
    | _ => none
  store a := .int (saturate (r.toInt a))
  storeList as := .ints (as.map fun a => saturate (r.toInt a))

end IntegerRange

/-- The range of 32-bit signed numbers. -/
def int32Range : IntegerRange Int32 :=
  ⟨Int32.minValue.toInt, Int32.maxValue.toInt, Int32.ofInt, Int32.toInt⟩

/-- The range of 64-bit signed numbers. -/
def int64Range : IntegerRange Int64 :=
  ⟨Int64.minValue.toInt, Int64.maxValue.toInt, Int64.ofInt, Int64.toInt⟩

/-- The range of sizes: 64-bit numbers without a sign. -/
def sizeRange : IntegerRange UInt64 :=
  ⟨0, UInt64.size - 1, fun n => UInt64.ofNat n.toNat, fun n => (n.toNat : Int)⟩

instance : ArgType Int32 := int32Range.argType
instance : ArgType Int64 := int64Range.argType
instance : ArgType UInt64 := sizeRange.argType

instance : ArgType Float32 where
  field := "f"
  listField := "floats"
  read?
    | .single x => some x
    | _ => none
  readList?
    | .singles xs => some xs
    | _ => none
  store := .single
  storeList := .singles

/-- A double is stored rounded to a single. -/
instance : ArgType Float where
  field := "f"
  listField := "floats"
  read?
    | .single x => some x.toFloat
    | _ => none
  readList?
    | .singles xs => some (xs.map Float32.toFloat)
    | _ => none
  store x := .single x.toFloat32
  storeList xs := .singles (xs.map Float.toFloat32)

/-- A truth value is stored as 0 or 1, and every number but 0 reads as true. -/
instance : ArgType Bool where
  field := "i"
  listField := "ints"
  read?
    | .int n => some (n != 0)
    | _ => none
  readList?
    | .ints ns => some (ns.map (· != 0))
    | _ => none
  store b := .int (if b then 1 else 0)
  storeList bs := .ints (bs.map fun b => if b then 1 else 0)

instance : ArgType String where
  field := "s"
  listField := "strings"
  read?
    | .text s => some s
    | _ => none
  readList?
    | .texts ss => some ss
    | _ => none
  store := .text
  storeList := .texts

/-- An argument that holds one value. -/
def Argument.ofValue {α : Type} [ArgType α] (name : String) (a : α) : Argument :=
  ⟨name, ArgType.store a⟩

/-- An argument that holds a list of values. -/
def Argument.ofValues {α : Type} [ArgType α] (name : String) (as : List α) : Argument :=
  ⟨name, ArgType.storeList as⟩

/-! ## Reading a list of arguments -/

namespace Arguments

/-- The argument that a name stands for: the first that has it. -/
def first? (args : List Argument) (name : String) : Option Argument :=
  args.find? (·.name == name)

/-- Whether some argument has the name. -/
def has (args : List Argument) (name : String) : Bool := (first? args name).isSome

variable {α : Type} [ArgType α]

/-- Reads one value at the type of the default, which stands for an absent argument. -/
def trySingle (args : List Argument) (name : String) (default : α) : Except Fault α :=
  match first? args name with
  | none => .ok default
  | some arg =>
    match ArgType.read? arg.value with
    | some a => .ok a
    | none => .error (.argumentKind name (ArgType.field α) arg.value.field)

variable (α) in
/-- Reads a list of values; an absent argument has none. -/
def tryRepeated (args : List Argument) (name : String) : Except Fault (List α) :=
  match first? args name with
  | none => .ok []
  | some arg =>
    match ArgType.readList? arg.value with
    | some as => .ok as
    | none => .error (.argumentKind name (ArgType.listField α) arg.value.field)

/-- A fault of a caller that should have known better: it panics with the text of the fault. -/
def insist {β : Type} : Except Fault β → Outcome β
  | .ok b => .ok b
  | .error cause => .error (.panic cause.message)

/-- Reads one value; a wrong kind is a panic. -/
def single (args : List Argument) (name : String) (default : α) : Outcome α :=
  insist (trySingle args name default)

variable (α) in
/-- Reads a list of values; a wrong kind is a panic. -/
def repeated (args : List Argument) (name : String) : Outcome (List α) :=
  insist (tryRepeated α args name)

/-! ### First occurrence -/

/-- Arguments placed in front decide, if they have the name. -/
theorem first?_append (xs ys : List Argument) (name : String) :
    first? (xs ++ ys) name = (first? xs name).or (first? ys name) := by
  simp [first?, List.find?_append]

theorem first?_cons_self (value : ArgValue) (args : List Argument) (name : String) :
    first? (⟨name, value⟩ :: args) name = some ⟨name, value⟩ := by
  simp [first?]

theorem has_iff {args : List Argument} {name : String} :
    has args name = true ↔ ∃ arg ∈ args, arg.name = name := by
  simp [has, first?]

theorem first?_eq_none_iff {args : List Argument} {name : String} :
    first? args name = none ↔ ∀ arg ∈ args, arg.name ≠ name := by
  simp [first?]

end Arguments
end OpNet
