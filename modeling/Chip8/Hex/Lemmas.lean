import Chip8.Hex
import Mathlib.Algebra.Ring.Nat

/-!
Hexadecimal numerals can be read.

Main statements: `Hex.valueOfDigits_digits`, for every least number of places, and what follows from
it, that numerals determine their numbers: `Hex.numeral_inj`. They rest on the count of digits that a
number needs. The rest says how long a numeral is and which characters it has.
-/

namespace Chip8.Hex

/-- The value of a digit. -/
def valueOfDigit (c : Char) : Nat :=
  if c.toNat < 58 then c.toNat - 48 else c.toNat - 55

/-- The value of digits, the highest of them first. -/
def valueOfDigits (digits : List Char) : Nat :=
  digits.foldl (fun value c => 16 * value + valueOfDigit c) 0

theorem valueOfDigit_digit {d : Nat} (h : d < 16) : valueOfDigit (digit d) = d := by
  have all : ∀ d : Fin 16, valueOfDigit (digit d.val) = d.val := by decide
  exact all ⟨d, h⟩

theorem valueOfDigits_places {count n : Nat} (h : n < 16 ^ count) :
    valueOfDigits (places count n) = n := by
  induction count generalizing n with
  | zero =>
    rw [Nat.pow_zero] at h
    exact (Nat.lt_one_iff.mp h).symm
  | succ count ih =>
    rw [Nat.pow_succ] at h
    have hhigh : valueOfDigits (places count (n / 16)) = n / 16 := ih (by omega)
    have hlow : valueOfDigit (digit (n % 16)) = n % 16 :=
      valueOfDigit_digit (Nat.mod_lt n (by decide))
    calc valueOfDigits (places (count + 1) n)
        = 16 * valueOfDigits (places count (n / 16)) + valueOfDigit (digit (n % 16)) :=
          List.foldl_append
      _ = 16 * (n / 16) + n % 16 := by rw [hhigh, hlow]
      _ = n := Nat.div_add_mod n 16

theorem lt_pow_width (n : Nat) : n < 16 ^ width n := by
  have h1 : n < 2 ^ (n.log2 + 1) := Nat.lt_log2_self
  have h2 : (16 : Nat) ^ width n = 2 ^ (4 * width n) := by
    rw [Nat.pow_mul]
  have h3 : 2 ^ (n.log2 + 1) ≤ 2 ^ (4 * width n) :=
    Nat.pow_le_pow_right (by decide) (by unfold width; omega)
  omega

theorem lt_pow_places (least n : Nat) : n < 16 ^ max least (width n) :=
  Nat.lt_of_lt_of_le (lt_pow_width n) (Nat.pow_le_pow_right (by decide) (by omega))

theorem valueOfDigits_digits (least n : Nat) : valueOfDigits (digits least n) = n :=
  valueOfDigits_places (lt_pow_places least n)

theorem digits_inj {least a b : Nat} (h : digits least a = digits least b) : a = b := by
  rw [← valueOfDigits_digits least a, h, valueOfDigits_digits]

theorem numeral_inj {least a b : Nat} (h : numeral least a = numeral least b) : a = b := by
  have hl := congrArg String.toList h
  simp only [numeral, String.toList_append, String.toList_ofList] at hl
  exact digits_inj (List.append_cancel_left hl)

/-- A number that fits into the least number of places takes no more. -/
theorem length_digits {least n : Nat} (hleast : 0 < least) (h : n < 16 ^ least) :
    (digits least n).length = least := by
  have hwidth : width n ≤ least := by
    rw [width]
    by_cases hzero : n = 0
    · rw [hzero]
      exact hleast
    · rw [show (16 : Nat) = 2 ^ 4 by decide, ← Nat.pow_mul] at h
      have hlog := (Nat.log2_lt hzero).mpr h
      omega
  rw [digits, length_places, Nat.max_eq_left hwidth]

theorem isAlphanum_of_mem_digits {least n : Nat} {c : Char} (h : c ∈ digits least n) :
    c.isAlphanum = true := by
  have hdigit : ∀ d : Fin 16, (digit d.val).isAlphanum = true := by decide
  have hplaces : ∀ count n, ∀ c ∈ places count n, c.isAlphanum = true := by
    intro count
    induction count with
    | zero => exact fun n c hc => nomatch hc
    | succ count ih =>
        intro n c hc
        rcases List.mem_append.mp hc with hhigh | hlow
        · exact ih _ c hhigh
        · rw [List.mem_singleton.mp hlow]
          exact hdigit ⟨n % 16, Nat.mod_lt n (by decide)⟩
  exact hplaces _ n c h

/-- Numerals consist of letters and digits. -/
theorem isAlphanum_of_mem_numeral {least n : Nat} {c : Char}
    (h : c ∈ (numeral least n).toList) : c.isAlphanum = true := by
  rw [numeral, String.toList_append, String.toList_ofList, String.toList_ofList] at h
  rcases List.mem_append.mp h with hmark | hdigits
  · have hall : ∀ c ∈ ['0', 'x'], c.isAlphanum = true :=
      List.forall_mem_cons.mpr ⟨rfl, List.forall_mem_singleton.mpr rfl⟩
    exact hall c hmark
  · exact isAlphanum_of_mem_digits hdigits

end Chip8.Hex
