import OpNet.Text.Hex

/-!
# Literals

The written form of single values in reports.

* `singleLiteral`, `doubleLiteral` — a floating-point number by its bits, in hexadecimal digits; all
  that are not a number are written alike.
* `stringLiteral` — a text between double quotes, in the notation of JSON.
* `listLiteral` — a list of written values, without blanks.
-/

set_option autoImplicit false

namespace OpNet
namespace Text

/-- The written form of every floating-point value that is not a number. -/
def notANumber : String := "nan"

/-- The bits of a single, in eight digits. -/
def singleLiteral (x : Float32) : String :=
  if x.isNaN then notANumber else hexPadded 8 x.toBits.toNat

/-- The bits of a double, in sixteen digits. -/
def doubleLiteral (x : Float) : String :=
  if x.isNaN then notANumber else hexPadded 16 x.toBits.toNat

/-- The written form of one character of a string literal. -/
def literalChar (c : Char) : String :=
  match c with
  | '"' => "\\\""
  | '\\' => "\\\\"
  | '\n' => "\\n"
  | '\r' => "\\r"
  | '\t' => "\\t"
  | '\x08' => "\\b"
  | '\x0c' => "\\f"
  | c => if c.toNat < 0x20 then "\\u" ++ hexPadded 4 c.toNat else c.toString

/-- A text between double quotes. -/
def stringLiteral (s : String) : String :=
  "\"" ++ String.join (s.toList.map literalChar) ++ "\""

/-- A list of written values. -/
def listLiteral (items : List String) : String :=
  "[" ++ String.intercalate "," items ++ "]"

end Text
end OpNet
