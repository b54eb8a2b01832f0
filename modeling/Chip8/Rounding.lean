/-!
Numbers with 53 binary digits.

A result that needs more digits is rounded to the nearest number that has no more, and halfway
between two such numbers to the one whose last digit is zero. All numbers are positive.
-/

namespace Chip8.Rounding

/-- The power of two that the leading digit of a number stands for, as its exponent. -/
def exponent (q : Rat) : Int :=
  let guess : Int := (Nat.log2 q.num.toNat : Int) - Nat.log2 q.den
  if (2 : Rat) ^ guess ≤ q then guess else guess - 1

/-- What the last digit stands for, where the leading one stands for the power of an exponent. -/
def lastPlace (exponent : Int) : Rat := 2 ^ (exponent - 52)

/-- The nearest integer; halfway between two integers it is the even one. -/
def nearest (q : Rat) : Int :=
  let rest := q - q.floor
  if rest < 1 / 2 ∨ rest = 1 / 2 ∧ q.floor % 2 = 0 then q.floor else q.floor + 1

def round (q : Rat) : Rat :=
  nearest (q / lastPlace (exponent q)) * lastPlace (exponent q)

/-- The integer part of a square root with so many binary digits, the last digit found last. -/
def wholeRoot : (digits : Nat) → (n : Nat) → Nat
  | 0, _ => 0
  | digits + 1, n =>
    let found := 2 * wholeRoot digits (n / 4)
    if (found + 1) * (found + 1) ≤ n then found + 1 else found

/-- The square root, rounded. The root of a number with no more than 53 digits is never halfway
between two of them. -/
def root (q : Rat) : Rat :=
  let place := lastPlace (exponent q / 2)
  let square := q / (place * place)
  let below : Rat := wholeRoot 53 square.floor.toNat
  (if square < below * below + below + 1 / 4 then below else below + 1) * place

end Chip8.Rounding
