/-!
Hexadecimal numerals.

A numeral has upper-case digits. It is padded with zeros to a least number of places and never
cut, so different numbers have different numerals.
-/

namespace Chip8.Hex

/-- The digit of a number below sixteen. -/
def digit (d : Nat) : Char :=
  if d < 10 then Char.ofNat (48 + d) else Char.ofNat (55 + d)

/-- The lowest `count` digits of a number, the highest of them first. -/
def places : (count : Nat) → (n : Nat) → List Char
  | 0, _ => []
  | count + 1, n => places count (n / 16) ++ [digit (n % 16)]

/-- How many digits a number needs; zero needs one. -/
def width (n : Nat) : Nat :=
  n.log2 / 4 + 1

/-- All digits of a number, padded with zeros to at least `least` places. -/
def digits (least n : Nat) : List Char :=
  places (max least (width n)) n

/-- The numeral with its `0x` mark. -/
def numeral (least n : Nat) : String :=
  "0x" ++ String.ofList (digits least n)

theorem length_places (count n : Nat) : (places count n).length = count := by
  induction count generalizing n with
  | zero => rfl
  | succ count ih => simp [places, ih]

end Chip8.Hex
