import OpNet.Text.Blank

/-!
# Lists of engine names

A definition names the engines it would like to be built by in one text, separated by commas.

* `EngineList.fields` — cuts a text at every comma; `EngineList.fields_append` says how it treats
  two texts with a comma between them.
* `EngineList.parse` — the names: the fields without the white space at their ends, the empty ones
  left out.
* `EngineList.join` — writes names with commas between them.
-/

set_option autoImplicit false

namespace OpNet
namespace EngineList

/-- The texts between the commas; there is one more of them than there are commas. -/
def fields : List Char → List (List Char)
  | [] => [[]]
  | c :: cs =>
    match fields cs with
    | [] => [[c]]
    | f :: fs => if c = ',' then [] :: f :: fs else (c :: f) :: fs

/-- The names in a text, as lists of characters. -/
def names (s : List Char) : List (List Char) :=
  ((fields s).map Text.trim).filter (!·.isEmpty)

/-- The names in a text. -/
def parse (s : String) : List String := (names s.toList).map String.ofList

/-- The names with commas between them. -/
def join (engines : List String) : String := String.intercalate "," engines

/-! ## Cutting at commas -/

theorem fields_ne_nil (s : List Char) : fields s ≠ [] := by
  cases s with
  | nil => simp [fields]
  | cons c cs =>
    rw [fields]
    split
    · simp
    · split <;> simp

theorem fields_comma (s : List Char) : fields (',' :: s) = [] :: fields s := by
  rw [fields]
  split
  · exact absurd (by assumption) (fields_ne_nil s)
  · simp_all

/-- A comma between two texts keeps their fields apart. -/
theorem fields_append (s t : List Char) : fields (s ++ ',' :: t) = fields s ++ fields t := by
  induction s with
  | nil => simp [fields_comma, fields]
  | cons c cs ih =>
    rw [List.cons_append, fields, fields, ih]
    cases h : fields cs with
    | nil => exact absurd h (fields_ne_nil cs)
    | cons f fs =>
      by_cases hc : c = ',' <;> simp [hc]

end EngineList
end OpNet
