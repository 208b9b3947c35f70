/-!
# Hexadecimal numerals

Lower-case base-sixteen numerals, plain or filled up with zeros to a least
width.
-/

namespace SgxActivation.Text

/-- Numeral of `n` in base sixteen, with no leading zero. -/
def hexadecimal (n : Nat) : String := String.ofList (Nat.toDigits 16 n)

/-- Numeral of `n` in base sixteen with at least `width` digits. -/
def hexadecimalPadded (width n : Nat) : String :=
  let digits := Nat.toDigits 16 n
  String.ofList (List.replicate (width - digits.length) '0' ++ digits)

end SgxActivation.Text
