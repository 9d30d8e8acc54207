/-!
# Hexadecimal text

Numbers written in base sixteen with lower-case digits.

* `hex` — without leading zeros.
* `hexPadded` — filled up with zeros to a fixed width.
-/

set_option autoImplicit false

namespace OpNet
namespace Text

/-- The hexadecimal text of a number, without leading zeros. -/
def hex (n : Nat) : String := String.ofList (Nat.toDigits 16 n)

/-- The hexadecimal text of a number, filled up with zeros to the given width. -/
def hexPadded (width n : Nat) : String :=
  let digits := Nat.toDigits 16 n
  String.ofList (List.replicate (width - digits.length) '0' ++ digits)

end Text
end OpNet
