/-!
# Numbers as text

Addresses and raw encodings are written in lower-case hexadecimal with a least number of digits,
everything else in decimal.
-/

namespace ZMachine.Text

/-- A list of digits with zeros in front, up to a least length. -/
def padded (width : Nat) (digits : List Char) : String :=
  String.ofList (List.replicate (width - digits.length) '0' ++ digits)

/-- The hexadecimal digits of a number, at least `width` of them. -/
def hex (width number : Nat) : String :=
  padded width (Nat.toDigits 16 number)

/-- The decimal digits of a number, with a minus sign if it is negative. -/
def decimal (number : Int) : String :=
  if number < 0 then "-" ++ padded 0 (Nat.toDigits 10 number.natAbs)
  else padded 0 (Nat.toDigits 10 number.natAbs)

/-- The decimal form of a number in at least two places, the sign included. -/
def twoPlaces (number : Int) : String :=
  if number < 0 then decimal number else padded 2 (Nat.toDigits 10 number.natAbs)

end ZMachine.Text
