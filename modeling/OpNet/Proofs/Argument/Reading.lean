import Mathlib.Algebra.Group.Int.Defs
import Mathlib.Data.List.Forall2
import Mathlib.Data.UInt
import OpNet.Argument

/-!
# Reading arguments back

An argument keeps a value in one of three kinds of fields: for whole numbers, for floating-point
numbers and for texts. What is in the field of one kind can be read at every type of that kind, also
at another one than it was stored from, as long as the type has a value for it. A list is kept in a
field of its own, and is read as a whole or not at all.

* `IntegerRange.Lawful` — the values of a type of whole numbers are the numbers between two bounds.
* `ScalarType`, `ScalarType.Carrier` — the types, and the values of each. Double-precision numbers
  are left out, as they are rounded when they are stored.
* `ScalarType.content` — what is stored of a value. `ScalarType.Admits` and `ScalarType.Means` —
  whether a type has a value for a content, and which one.
* `ScalarType.read?_store_eq_some_iff` — one value, and `ScalarType.readList?_storeList` — a list,
  by its elements.
* `Arguments.ReadsOne`, `Arguments.ReadsMany` — what an argument gives at every type, and
  `Arguments.reads_back` — the arguments that were stored give this.
-/

set_option autoImplicit false

namespace OpNet

/-! ## Ranges of whole numbers -/

namespace IntegerRange

variable {α : Type} {r : IntegerRange α} {n : Int} {a : α}

/-- The values of the type are the numbers between the bounds. -/
structure Lawful (r : IntegerRange α) : Prop where
  lo_le : ∀ a, r.lo ≤ r.toInt a
  le_hi : ∀ a, r.toInt a ≤ r.hi
  ofInt_toInt : ∀ a, r.ofInt (r.toInt a) = a
  toInt_ofInt : ∀ n, r.lo ≤ n → n ≤ r.hi → r.toInt (r.ofInt n) = n

theorem Lawful.ofInt?_eq_some_iff (h : r.Lawful) : r.ofInt? n = some a ↔ r.toInt a = n := by
  rw [ofInt?]
  constructor
  · intro heq
    obtain ⟨⟨hlo, hhi⟩, hval⟩ := Option.ite_none_right_eq_some.1 heq
    rw [← Option.some.inj hval, h.toInt_ofInt n hlo hhi]
  · rintro rfl
    rw [if_pos ⟨h.lo_le a, h.le_hi a⟩, h.ofInt_toInt]

theorem Lawful.exists_toInt_eq_iff (h : r.Lawful) :
    (∃ a, r.toInt a = n) ↔ r.lo ≤ n ∧ n ≤ r.hi := by
  constructor
  · rintro ⟨a, rfl⟩
    exact ⟨h.lo_le a, h.le_hi a⟩
  · rintro ⟨hlo, hhi⟩
    exact ⟨r.ofInt n, h.toInt_ofInt n hlo hhi⟩

theorem lawful_int32Range : int32Range.Lawful where
  lo_le := Int32.minValue_le_toInt
  le_hi := Int32.toInt_le
  ofInt_toInt := Int32.ofInt_toInt
  toInt_ofInt n hlo hhi := by
    have hhi' : n ≤ 2 ^ 31 - 1 := Int32.toInt_maxValue ▸ hhi
    exact Int32.toInt_ofInt_of_le (Int32.toInt_minValue ▸ hlo) (by omega)

theorem lawful_int64Range : int64Range.Lawful where
  lo_le := Int64.minValue_le_toInt
  le_hi := Int64.toInt_le
  ofInt_toInt := Int64.ofInt_toInt
  toInt_ofInt n hlo hhi := by
    have hhi' : n ≤ 2 ^ 63 - 1 := Int64.toInt_maxValue ▸ hhi
    exact Int64.toInt_ofInt_of_le (Int64.toInt_minValue ▸ hlo) (by omega)

theorem lawful_sizeRange : sizeRange.Lawful where
  lo_le a := Int.natCast_nonneg a.toNat
  le_hi a := Int.le_sub_one_of_lt (Int.ofNat_lt.2 a.toNat_lt_size)
  ofInt_toInt a := by
    show UInt64.ofNat (a.toNat : Int).toNat = a
    rw [Int.toNat_natCast, UInt64.ofNat_toNat]
  toInt_ofInt n hlo hhi := by
    show ((UInt64.ofNat n.toNat).toNat : Int) = n
    have hlt : n.toNat < UInt64.size := by
      have hhi' : n ≤ 2 ^ 64 - 1 := hhi
      show n.toNat < 2 ^ 64
      omega
    rw [UInt64.toNat_ofNat_of_lt' hlt, Int.toNat_of_nonneg hlo]

/-- Only what is above the largest number of 64 bits is stored as another number. -/
theorem toInt_saturate (h : -2 ^ 63 ≤ n) : (saturate n).toInt = min n (2 ^ 63 - 1) := by
  rw [saturate, Int64.toInt_maxValue]
  exact Int64.toInt_ofInt_of_le (by omega) (by omega)

end IntegerRange

/-! ## Types and contents -/

/-- The kinds of fields that an argument keeps its values in. -/
inductive FieldKind where
  | whole
  | single
  | text
deriving DecidableEq

/-- The name of the field for one value. -/
def FieldKind.one : FieldKind → String
  | whole => "i"
  | single => "f"
  | text => "s"

/-- The name of the field for a list of values. -/
def FieldKind.many : FieldKind → String
  | whole => "ints"
  | single => "floats"
  | text => "strings"

/-- What the fields of an argument tell: a number or a text, without the type that it was stored
from. -/
inductive Content where
  | whole (n : Int)
  | single (x : Float32)
  | text (s : String)

/-- The kind of field that a content is kept in. -/
def Content.kind : Content → FieldKind
  | whole _ => .whole
  | single _ => .single
  | text _ => .text

/-- The types that arguments are stored from and read at. -/
inductive ScalarType where
  | int32
  | int64
  | size
  | bool
  | single
  | text
deriving DecidableEq

namespace ScalarType

/-- The values of a type. -/
@[reducible] def Carrier : ScalarType → Type
  | int32 => Int32
  | int64 => Int64
  | size => UInt64
  | bool => Bool
  | single => Float32
  | text => String

instance : (t : ScalarType) → ArgType t.Carrier
  | int32 => inferInstanceAs (ArgType Int32)
  | int64 => inferInstanceAs (ArgType Int64)
  | size => inferInstanceAs (ArgType UInt64)
  | bool => inferInstanceAs (ArgType Bool)
  | single => inferInstanceAs (ArgType Float32)
  | text => inferInstanceAs (ArgType String)

/-- The kind of field that the values of a type are kept in. -/
def kind : ScalarType → FieldKind
  | int32 | int64 | size | bool => .whole
  | single => .single
  | text => .text

/-- What is stored of a value. A size can be too large for the field: the largest number that fits
stands for it. -/
def content : (t : ScalarType) → t.Carrier → Content
  | int32, v => .whole v.toInt
  | int64, v => .whole v.toInt
  | size, v => .whole (min v.toNat (2 ^ 63 - 1))
  | bool, b => .whole (if b then 1 else 0)
  | single, x => .single x
  | text, s => .text s

/-- Whether a type has a value for a content. -/
def Admits : ScalarType → Content → Prop
  | int32, .whole n => -2 ^ 31 ≤ n ∧ n < 2 ^ 31
  | int64, .whole n => -2 ^ 63 ≤ n ∧ n < 2 ^ 63
  | size, .whole n => 0 ≤ n ∧ n < 2 ^ 64
  | bool, .whole _ => True
  | single, .single _ => True
  | text, .text _ => True
  | _, _ => False

/-- Whether a content is read as a value. -/
def Means : (t : ScalarType) → Content → t.Carrier → Prop
  | int32, .whole n, v => v.toInt = n
  | int64, .whole n, v => v.toInt = n
  | size, .whole n, v => (v.toNat : Int) = n
  | bool, .whole n, b => b = true ↔ n ≠ 0
  | single, .single x, y => y = x
  | text, .text s, s' => s' = s
  | _, _, _ => False

/-- Whether a value is too large to be stored as it is. -/
def Saturates : (t : ScalarType) → t.Carrier → Prop
  | size, v => 2 ^ 63 ≤ v.toNat
  | _, _ => False

variable {t : ScalarType} {c : Content}

/-- A type has a value for the contents that it admits. -/
theorem exists_means_iff : (∃ u, t.Means c u) ↔ t.Admits c := by
  cases t <;> cases c
  case int32.whole n =>
    refine IntegerRange.lawful_int32Range.exists_toInt_eq_iff.trans ?_
    show Int32.minValue.toInt ≤ n ∧ n ≤ Int32.maxValue.toInt ↔ -2 ^ 31 ≤ n ∧ n < 2 ^ 31
    rw [Int32.toInt_minValue, Int32.toInt_maxValue, Int.le_sub_one_iff]
  case int64.whole n =>
    refine IntegerRange.lawful_int64Range.exists_toInt_eq_iff.trans ?_
    show Int64.minValue.toInt ≤ n ∧ n ≤ Int64.maxValue.toInt ↔ -2 ^ 63 ≤ n ∧ n < 2 ^ 63
    rw [Int64.toInt_minValue, Int64.toInt_maxValue, Int.le_sub_one_iff]
  case size.whole n =>
    refine IntegerRange.lawful_sizeRange.exists_toInt_eq_iff.trans ?_
    show 0 ≤ n ∧ n ≤ 2 ^ 64 - 1 ↔ 0 ≤ n ∧ n < 2 ^ 64
    rw [Int.le_sub_one_iff]
  case bool.whole n => exact ⟨fun _ => trivial, fun _ => ⟨decide (n ≠ 0), decide_eq_true_iff⟩⟩
  case single.single x => exact ⟨fun _ => trivial, fun _ => ⟨x, rfl⟩⟩
  case text.text s => exact ⟨fun _ => trivial, fun _ => ⟨s, rfl⟩⟩
  all_goals exact ⟨fun ⟨_, h⟩ => h, False.elim⟩

/-- A type has values for a list of contents that it admits. -/
theorem exists_forall₂_means_iff {cs : List Content} :
    (∃ us, List.Forall₂ t.Means cs us) ↔ ∀ c ∈ cs, t.Admits c := by
  induction cs with
  | nil => exact iff_of_true ⟨[], .nil⟩ (List.forall_mem_nil _)
  | cons c cs ih =>
    rw [List.forall_mem_cons, ← exists_means_iff, ← ih]
    constructor
    · rintro ⟨_, _ | ⟨hu, hus⟩⟩
      exact ⟨⟨_, hu⟩, ⟨_, hus⟩⟩
    · rintro ⟨⟨u, hu⟩, us, hus⟩
      exact ⟨u :: us, .cons hu hus⟩

/-- What is stored of a value is read as this very value, unless it was too large. -/
theorem means_content_iff {v : t.Carrier} : t.Means (t.content v) v ↔ ¬t.Saturates v := by
  cases t with
  | size =>
    show (v.toNat : Int) = min (v.toNat : Int) (2 ^ 63 - 1) ↔ ¬2 ^ 63 ≤ v.toNat
    omega
  | bool => cases v <;> simp [Means, content, Saturates]
  | int32 | int64 | single | text => exact iff_of_true rfl not_false

/-- Every type admits what it stores. -/
theorem admits_content (v : t.Carrier) : t.Admits (t.content v) := by
  cases t with
  | int32 => exact ⟨v.le_toInt, v.toInt_lt⟩
  | int64 => exact ⟨v.le_toInt, v.toInt_lt⟩
  | size =>
    show 0 ≤ min (v.toNat : Int) (2 ^ 63 - 1) ∧ min (v.toNat : Int) (2 ^ 63 - 1) < 2 ^ 64
    omega
  | bool | single | text => trivial

end ScalarType

/-! ## What a field holds -/

namespace ArgValue

/-- The content of a field for one value. -/
def content? : ArgValue → Option Content
  | int n => some (.whole n.toInt)
  | single x => some (.single x)
  | text s => some (.text s)
  | ints _ | singles _ | texts _ => none

/-- The elements of a field for a list of values, each as a field of its own, and their kind. -/
def elements? : ArgValue → Option (FieldKind × List ArgValue)
  | ints ns => some (.whole, ns.map int)
  | singles xs => some (.single, xs.map single)
  | texts ss => some (.text, ss.map text)
  | int _ | single _ | text _ => none

variable {value : ArgValue} {c : Content} {k : FieldKind} {es : List ArgValue}

theorem field_of_content? (h : value.content? = some c) : value.field = c.kind.one := by
  cases value <;> cases h <;> rfl

theorem field_of_elements? (h : value.elements? = some (k, es)) : value.field = k.many := by
  cases value <;> cases h <;> rfl

end ArgValue

namespace ScalarType

open ArgType

variable {t : ScalarType} {value : ArgValue} {c : Content} {k : FieldKind} {es : List ArgValue}

theorem field_eq (t : ScalarType) : field t.Carrier = t.kind.one := by
  cases t <;> rfl

theorem listField_eq (t : ScalarType) : listField t.Carrier = t.kind.many := by
  cases t <;> rfl

/-! ## Storing -/

theorem content?_store (v : t.Carrier) : (store v).content? = some (t.content v) := by
  have hstore {n : Int} (h : -2 ^ 63 ≤ n) (h' : n < 2 ^ 63) :
      (ArgValue.int (IntegerRange.saturate n)).content? = some (.whole n) := by
    rw [ArgValue.content?, IntegerRange.toInt_saturate h, Int.min_eq_left (by omega)]
  cases t with
  | int32 =>
    -- what 32 bits hold fits into the 64 bits of the field
    have hlo : -2 ^ 63 ≤ v.toInt := by
      have := v.le_toInt
      omega
    have hhi : v.toInt < 2 ^ 63 := by
      have := v.toInt_lt
      omega
    exact hstore hlo hhi
  | int64 => exact hstore v.le_toInt v.toInt_lt
  | size =>
    show some (Content.whole (IntegerRange.saturate (v.toNat : Int)).toInt) = _
    rw [IntegerRange.toInt_saturate (by omega)]
    rfl
  | bool => cases v <;> rfl
  | single | text => rfl

/-- A list is stored element by element. -/
theorem elements?_storeList (vs : List t.Carrier) :
    (storeList vs).elements? = some (t.kind, vs.map store) := by
  cases t with
  | int32 | int64 | size | bool => exact congrArg (fun es => some (_, es)) List.map_map
  | single | text => rfl

/-! ## Reading -/

/-- One value is read as what its content means. -/
theorem read?_eq_some_iff {u : t.Carrier} (h : value.content? = some c) :
    read? value = some u ↔ t.Means c u := by
  cases value with
  | int n =>
    obtain rfl := Option.some.inj h
    cases t with
    | int32 => exact IntegerRange.lawful_int32Range.ofInt?_eq_some_iff
    | int64 => exact IntegerRange.lawful_int64Range.ofInt?_eq_some_iff
    | size => exact IntegerRange.lawful_sizeRange.ofInt?_eq_some_iff
    | bool =>
      have hne : n.toInt ≠ 0 ↔ (n != 0) = true := by
        rw [bne_iff_ne, ← Int64.toInt_zero, ne_eq, Int64.toInt_inj]
      show some (n != 0) = some u ↔ (u = true ↔ n.toInt ≠ 0)
      rw [hne, Option.some_inj, Bool.eq_iff_iff]
      exact Iff.comm
    | single | text => exact ⟨nofun, False.elim⟩
  | single x =>
    obtain rfl := Option.some.inj h
    cases t with
    | single => exact Option.some_inj.trans eq_comm
    | int32 | int64 | size | bool | text => exact ⟨nofun, False.elim⟩
  | text s =>
    obtain rfl := Option.some.inj h
    cases t with
    | text => exact Option.some_inj.trans eq_comm
    | int32 | int64 | size | bool | single => exact ⟨nofun, False.elim⟩
  | ints | singles | texts => cases h

/-- A field for a list is not read as one value. -/
theorem read?_of_elements? (h : value.elements? = some (k, es)) :
    (read? value : Option t.Carrier) = none := by
  cases value <;> cases h <;> cases t <;> rfl

/-- A field for one value is not read as a list. -/
theorem readList?_of_content? (h : value.content? = some c) :
    (readList? value : Option (List t.Carrier)) = none := by
  cases value <;> cases h <;> cases t <;> rfl

/-- Where every element can be read, so can the list. -/
theorem mapM_read?_map {β : Type} {f : β → ArgValue} {g : β → t.Carrier}
    (h : ∀ b, read? (f b) = some (g b)) (bs : List β) :
    (bs.map f).mapM read? = some (bs.map g) := by
  rw [List.mapM_map]
  exact (congrArg (bs.mapM ·) (funext h)).trans List.mapM_pure

theorem mapM_read?_map_self {f : t.Carrier → ArgValue} (h : ∀ a, read? (f a) = some a)
    (as : List t.Carrier) : (as.map f).mapM read? = some as := by
  rw [mapM_read?_map h, List.map_id']

/-- A list is read element by element, at the types of its kind. -/
theorem readList?_eq (h : value.elements? = some (k, es)) :
    (readList? value : Option (List t.Carrier)) =
      if t.kind = k then es.mapM read? else none := by
  cases value with
  | ints ns =>
    cases h
    -- a type with a range tries each number on its own, and a bool takes any
    have hrange {α : Type} (r : IntegerRange α) : (ns.mapM fun n => r.ofInt? n.toInt) =
        (ns.map ArgValue.int).mapM r.argType.read? := by
      rw [List.mapM_map]
      rfl
    cases t with
    | int32 => exact hrange int32Range
    | int64 => exact hrange int64Range
    | size => exact hrange sizeRange
    | bool => exact (mapM_read?_map (t := bool) (fun _ => rfl) ns).symm
    | single | text => rfl
  | singles xs =>
    cases h
    cases t with
    | single => exact (mapM_read?_map_self (t := single) (fun _ => rfl) xs).symm
    | _ => rfl
  | texts ss =>
    cases h
    cases t with
    | text => exact (mapM_read?_map_self (t := text) (fun _ => rfl) ss).symm
    | _ => rfl
  | int | single | text => cases h

theorem mapM_read?_eq_some_iff {cs : List Content} {us : List t.Carrier}
    (hcs : List.Forall₂ (fun e c => e.content? = some c) es cs) :
    es.mapM read? = some us ↔ List.Forall₂ t.Means cs us := by
  induction hcs generalizing us with
  | nil => cases us <;> simp
  | cons hc _ ih =>
    rw [List.mapM_cons, Option.bind_eq_bind, Option.bind_eq_some_iff, List.forall₂_cons_left_iff]
    simp only [read?_eq_some_iff hc, Option.bind_eq_bind, Option.bind_eq_some_iff, ih,
      Option.pure_def, Option.some_inj]
    constructor
    · rintro ⟨u, hu, us, hus, rfl⟩
      exact ⟨u, us, hu, hus, rfl⟩
    · rintro ⟨u, us, hu, hus, rfl⟩
      exact ⟨u, hu, us, hus, rfl⟩

/-- A list is read as the values that its elements mean, one for each. -/
theorem readList?_eq_some_iff {cs : List Content} {us : List t.Carrier}
    (h : value.elements? = some (k, es))
    (hcs : List.Forall₂ (fun e c => e.content? = some c) es cs) :
    readList? value = some us ↔ t.kind = k ∧ List.Forall₂ t.Means cs us := by
  rw [readList?_eq h, ← mapM_read?_eq_some_iff hcs]
  exact Option.ite_none_right_eq_some

end ScalarType

/-! ## Arguments -/

namespace Arguments

variable {args before : List Argument} {name : String} {arg : Argument}

/-- What a name gives at every type, if one value with the content was stored under it. -/
structure ReadsOne (args : List Argument) (name : String) (c : Content) : Prop where
  /-- A type that has a value for the content gives this value, whatever the default. -/
  admitted : ∀ t : ScalarType, t.Admits c →
    ∃ u, t.Means c u ∧ ∀ default, trySingle args name default = .ok u
  /-- Any other type gives a fault, and not the default. -/
  refused : ∀ t : ScalarType, ¬t.Admits c → ∀ default : t.Carrier,
    trySingle args name default = .error (.argumentKind name t.kind.one c.kind.one)
  /-- One value is not read as a list. -/
  mixed : ∀ t : ScalarType,
    tryRepeated t.Carrier args name = .error (.argumentKind name t.kind.many c.kind.one)

/-- What a name gives at every type, if a list of values of one kind was stored under it. -/
structure ReadsMany (args : List Argument) (name : String) (k : FieldKind) (cs : List Content) :
    Prop where
  /-- A type of this kind that has a value for every element gives these values. -/
  admitted : ∀ t : ScalarType, t.kind = k → (∀ c ∈ cs, t.Admits c) →
    ∃ us, List.Forall₂ t.Means cs us ∧ tryRepeated t.Carrier args name = .ok us
  /-- A type of another kind gives a fault, also where the list is empty. -/
  otherKind : ∀ t : ScalarType, t.kind ≠ k →
    tryRepeated t.Carrier args name = .error (.argumentKind name t.kind.many k.many)
  /-- A type that has no value for one of the elements gives no list at all. -/
  refused : ∀ (t : ScalarType), ∀ c ∈ cs, ¬t.Admits c →
    tryRepeated t.Carrier args name = .error (.argumentKind name t.kind.many k.many)
  /-- A list is not read as one value. -/
  mixed : ∀ (t : ScalarType) (default : t.Carrier),
    trySingle args name default = .error (.argumentKind name t.kind.one k.many)

/-! ### Reading -/

/-- The first argument with a name is the one that is read. -/
theorem first?_of_forall_ne (hbefore : ∀ arg ∈ before, arg.name ≠ name) (value : ArgValue)
    (after : List Argument) :
    first? (before ++ ⟨name, value⟩ :: after) name = some ⟨name, value⟩ := by
  rw [first?_append, first?_eq_none_iff.2 hbefore, first?_cons_self, Option.none_or]

theorem trySingle_eq_ok_iff {α : Type} [ArgType α] (hfirst : first? args name = some arg)
    {default a : α} : trySingle args name default = .ok a ↔ ArgType.read? arg.value = some a := by
  rw [trySingle, hfirst]
  cases h : (ArgType.read? arg.value : Option α) <;> simp [h]

theorem trySingle_of_none {α : Type} [ArgType α] (hfirst : first? args name = some arg)
    (h : (ArgType.read? arg.value : Option α) = none) (default : α) :
    trySingle args name default =
      .error (.argumentKind name (ArgType.field α) arg.value.field) := by
  rw [trySingle, hfirst]
  simp only [h]

theorem tryRepeated_eq_ok_iff {α : Type} [ArgType α] (hfirst : first? args name = some arg)
    {as : List α} : tryRepeated α args name = .ok as ↔ ArgType.readList? arg.value = some as := by
  rw [tryRepeated, hfirst]
  cases h : (ArgType.readList? arg.value : Option (List α)) <;> simp [h]

theorem tryRepeated_of_none {α : Type} [ArgType α] (hfirst : first? args name = some arg)
    (h : (ArgType.readList? arg.value : Option (List α)) = none) : tryRepeated α args name =
      .error (.argumentKind name (ArgType.listField α) arg.value.field) := by
  rw [tryRepeated, hfirst]
  simp only [h]

open ScalarType in
theorem readsOne_of_first? {c : Content} (hfirst : first? args name = some arg)
    (hc : arg.value.content? = some c) : ReadsOne args name c where
  admitted t hadmits := by
    obtain ⟨u, hu⟩ := exists_means_iff.2 hadmits
    exact ⟨u, hu, fun default => (trySingle_eq_ok_iff hfirst).2 ((read?_eq_some_iff hc).2 hu)⟩
  refused t hadmits default := by
    have hnone : (ArgType.read? arg.value : Option t.Carrier) = none :=
      Option.eq_none_iff_forall_ne_some.2 fun u hu =>
        hadmits (exists_means_iff.1 ⟨u, (read?_eq_some_iff hc).1 hu⟩)
    rw [trySingle_of_none hfirst hnone, field_eq, ArgValue.field_of_content? hc]
  mixed t := by
    rw [tryRepeated_of_none hfirst (readList?_of_content? hc), listField_eq,
      ArgValue.field_of_content? hc]

open ScalarType in
theorem readsMany_of_first? {k : FieldKind} {es : List ArgValue} {cs : List Content}
    (hfirst : first? args name = some arg) (hes : arg.value.elements? = some (k, es))
    (hcs : List.Forall₂ (fun e c => e.content? = some c) es cs) : ReadsMany args name k cs := by
  have hfault (t : ScalarType)
      (h : ∀ us, ¬(t.kind = k ∧ List.Forall₂ t.Means cs us)) :
      tryRepeated t.Carrier args name = .error (.argumentKind name t.kind.many k.many) := by
    have hnone : (ArgType.readList? arg.value : Option (List t.Carrier)) = none :=
      Option.eq_none_iff_forall_ne_some.2 fun us hus =>
        h us ((readList?_eq_some_iff hes hcs).1 hus)
    rw [tryRepeated_of_none hfirst hnone, listField_eq, ArgValue.field_of_elements? hes]
  refine ⟨fun t hkind hall => ?_, fun t hkind => hfault t fun us h => hkind h.1,
    fun t c hmem hadmits => hfault t fun us h => ?_, fun t default => ?_⟩
  · obtain ⟨us, hus⟩ := exists_forall₂_means_iff.2 hall
    exact ⟨us, hus, (tryRepeated_eq_ok_iff hfirst).2
      ((readList?_eq_some_iff hes hcs).2 ⟨hkind, hus⟩)⟩
  · exact hadmits (exists_forall₂_means_iff.1 ⟨us, h.2⟩ c hmem)
  · rw [trySingle_of_none hfirst (read?_of_elements? hes), field_eq,
      ArgValue.field_of_elements? hes]

open ScalarType in
/-- **Arguments are read back.** An argument that was stored from a value gives what its content
means, at every type that has a value for it, and a fault at every other. The arguments that come
later make no difference to this, even if they have the same name. At the type that it was stored
from a value comes back as it was, unless it was too large. Of lists the same holds element by
element, but they are read as a whole. -/
theorem reads_back (hbefore : ∀ arg ∈ before, arg.name ≠ name) (after : List Argument)
    (t : ScalarType) :
    (∀ v : t.Carrier,
      ReadsOne (before ++ Argument.ofValue name v :: after) name (t.content v) ∧
      ∀ default, trySingle (before ++ Argument.ofValue name v :: after) name default = .ok v ↔
        ¬t.Saturates v) ∧
    ∀ vs : List t.Carrier,
      ReadsMany (before ++ Argument.ofValues name vs :: after) name t.kind (vs.map t.content) ∧
      (tryRepeated t.Carrier (before ++ Argument.ofValues name vs :: after) name = .ok vs ↔
        ∀ v ∈ vs, ¬t.Saturates v) := by
  constructor
  · intro v
    have hfirst := first?_of_forall_ne hbefore (ArgType.store v) after
    have hcontent := content?_store v
    refine ⟨readsOne_of_first? hfirst hcontent, fun default => ?_⟩
    exact (trySingle_eq_ok_iff hfirst).trans ((read?_eq_some_iff hcontent).trans means_content_iff)
  · intro vs
    have hfirst := first?_of_forall_ne hbefore (ArgType.storeList vs) after
    have helements := elements?_storeList vs
    have hcontents : List.Forall₂ (fun e c => e.content? = some c) (vs.map ArgType.store)
        (vs.map t.content) := by
      rw [List.forall₂_map_left_iff, List.forall₂_map_right_iff, List.forall₂_same]
      exact fun v _ => content?_store v
    refine ⟨readsMany_of_first? hfirst helements hcontents, (tryRepeated_eq_ok_iff hfirst).trans ?_⟩
    rw [readList?_eq_some_iff helements hcontents, List.forall₂_map_left_iff, List.forall₂_same]
    simp only [true_and, means_content_iff]

end Arguments

namespace Stride

/-- A size that 32 bits cannot hold, between an argument of another name and one of its own. -/
def args : List Argument :=
  [⟨"axis", .int 1⟩] ++ .ofValue "stride" (2 ^ 32 : UInt64) :: [⟨"stride", .text "auto"⟩]

/-- Sizes the last of which is too large for the field. -/
def listArgs : List Argument :=
  [⟨"axis", .int 1⟩] ++ .ofValues "stride" ([2, 2 ^ 63] : List UInt64) :: [⟨"stride", .text "auto"⟩]

end Stride

open Arguments in
/-- The size comes back as a size, and is a fault where 32 bits are asked for. The list does not
come back, and where 32 bits are asked for it is a fault, although its first element would fit. -/
theorem stride_reads_back :
    (∀ arg ∈ [Argument.mk "axis" (.int 1)], arg.name ≠ "stride") ∧
    ReadsOne Stride.args "stride" (.whole (2 ^ 32)) ∧
    (∀ default, trySingle Stride.args "stride" default = .ok (2 ^ 32 : UInt64)) ∧
    (∀ default : Int32, trySingle Stride.args "stride" default =
      .error (.argumentKind "stride" "i" "i")) ∧
    tryRepeated UInt64 Stride.listArgs "stride" ≠ .ok [2, 2 ^ 63] ∧
    tryRepeated Int32 Stride.listArgs "stride" = .error (.argumentKind "stride" "ints" "ints") := by
  have hbefore : ∀ arg ∈ [Argument.mk "axis" (.int 1)], arg.name ≠ "stride" := by decide
  obtain ⟨hone, hmany⟩ := reads_back hbefore [⟨"stride", .text "auto"⟩] .size
  obtain ⟨hreads, hback⟩ := hone (2 ^ 32 : UInt64)
  obtain ⟨hlist, hlistBack⟩ := hmany ([2, 2 ^ 63] : List UInt64)
  have hfits : ¬2 ^ 63 ≤ (2 ^ 32 : UInt64).toNat := by decide
  have hlarge : 2 ^ 63 ≤ (2 ^ 63 : UInt64).toNat := by decide
  have hcontent : min ((2 ^ 63 : UInt64).toNat : Int) (2 ^ 63 - 1) = 2 ^ 63 - 1 :=
    Int.min_eq_right (by omega)
  have hwide {n : Int} (h : 2 ^ 31 ≤ n) : ¬ScalarType.int32.Admits (.whole n) := fun hadmits =>
    absurd hadmits.2 (Int.not_lt.2 h)
  refine ⟨hbefore, hreads, fun default => (hback default).2 hfits,
    hreads.refused .int32 (hwide (by decide)), fun h => ?_, ?_⟩
  · exact hlistBack.1 h (2 ^ 63 : UInt64) (by simp) hlarge
  · exact hlist.refused .int32 (.whole (2 ^ 63 - 1))
      (List.mem_map.2 ⟨(2 ^ 63 : UInt64), by simp, congrArg Content.whole hcontent⟩)
      (hwide (by decide))

end OpNet
