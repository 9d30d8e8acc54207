import OpNet.Text.Hex
import OpNet.Text.Hidden

/-!
# Quoted text

How an error message shows a text between quotes, so that every character of it can be seen.

* `escape` — one character: a quote and a backslash are preceded by a backslash, line feed, carriage
  return, tab and nul have a letter or a digit, and a character without a visible form is written by
  its number.
* `quoted` — the whole text between double quotes.
-/

set_option autoImplicit false

namespace OpNet
namespace Text

/-- The number of a character between braces, as an escape. -/
def numericEscape (c : Char) : String := "\\u\x7b" ++ hex c.toNat ++ "\x7d"

/-- The written form of one character of a quoted text. -/
def escape (c : Char) : String :=
  match c with
  | '"' => "\\\""
  | '\\' => "\\\\"
  | '\n' => "\\n"
  | '\r' => "\\r"
  | '\t' => "\\t"
  | '\x00' => "\\0"
  | c => if isHidden c then numericEscape c else c.toString

/-- A text between double quotes, with every character shown. -/
def quoted (s : String) : String := "\"" ++ String.join (s.toList.map escape) ++ "\""

end Text
end OpNet
