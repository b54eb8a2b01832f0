/-!
Decimal numbers as they are typed: digits, perhaps behind a plus sign.
-/

namespace Chip8.Text

/-- The value of decimal digits. -/
def valueOfDigits (digits : List Char) : Nat :=
  digits.foldl (fun value digit => value * 10 + (digit.toNat - '0'.toNat)) 0

/-- The number that a text stands for, unless it is larger than the largest one allowed. -/
def decimal? (largest : Nat) (text : List Char) : Option Nat :=
  let digits :=
    match text with
    | '+' :: digits => digits
    | digits => digits
  if digits.isEmpty || !digits.all Char.isDigit then none
  else
    let value := valueOfDigits digits
    if value ≤ largest then some value else none

end Chip8.Text
