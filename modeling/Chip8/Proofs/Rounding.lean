import Chip8.Rounding
import Mathlib.Algebra.Order.Field.Power
import Mathlib.Data.Rat.Floor
import Mathlib.Tactic.FieldSimp
import Mathlib.Tactic.Linarith
import Mathlib.Tactic.Positivity
import Mathlib.Tactic.Ring

/-!
How far rounding is off.

The exponent of a number is that of the power of two next below it, so its last place is a
`2 ^ 52`-th of that power. A rounded number is off by no more than half a last place, which is a
`2 ^ 53`-th of the number, and so is a rounded root. The root is found digit by digit: without
its last digit it is the root of a quarter.
-/

namespace Chip8.Rounding

/-- A bound on what rounding changes, in relation to the number. -/
def error : ℚ := 1 / 2 ^ 53

theorem error_nonneg : 0 ≤ error := by
  unfold error
  positivity

/-- What is left of a number that is rounded down. -/
theorem one_sub_error_pos : 0 < 1 - error := by
  norm_num [error]

section Exponent

variable {q : ℚ}

theorem div_two_zpow (a b : Nat) : (2 : ℚ) ^ ((a : Int) - b) = 2 ^ a / 2 ^ b := by
  rw [zpow_sub₀ (by norm_num), zpow_natCast, zpow_natCast]

/-- A number is less than a factor of two off the quotient of the powers of two that lie next below
its numerator and its denominator. -/
theorem guess_bounds (hq : 0 < q) :
    (2 : ℚ) ^ ((Nat.log2 q.num.toNat : Int) - Nat.log2 q.den - 1) ≤ q ∧
      q < 2 ^ ((Nat.log2 q.num.toNat : Int) - Nat.log2 q.den + 1) := by
  have hnum : 0 < q.num := Rat.num_pos.mpr hq
  obtain ⟨num, hcast⟩ := Int.eq_ofNat_of_zero_le hnum.le
  have hquotient : q = num / q.den := by
    conv_lhs => rw [← Rat.num_div_den q, hcast]
    rfl
  have hnumber : q.num.toNat = num := by rw [hcast]; rfl
  have hlowNum : (2 : ℚ) ^ Nat.log2 num ≤ num := by
    exact_mod_cast Nat.log2_self_le (n := num) (by omega)
  have hhighNum : (num : ℚ) < 2 ^ (Nat.log2 num + 1) := by
    exact_mod_cast Nat.lt_log2_self (n := num)
  have hlowDen : (2 : ℚ) ^ Nat.log2 q.den ≤ q.den := by
    exact_mod_cast Nat.log2_self_le q.den_ne_zero
  have hhighDen : (q.den : ℚ) < 2 ^ (Nat.log2 q.den + 1) := by
    exact_mod_cast Nat.lt_log2_self (n := q.den)
  have hden : (0 : ℚ) < q.den := by exact_mod_cast q.den_pos
  have hbelow : (Nat.log2 num : Int) - Nat.log2 q.den - 1 =
      (Nat.log2 num : Int) - (Nat.log2 q.den + 1 : Nat) := by omega
  have habove : (Nat.log2 num : Int) - Nat.log2 q.den + 1 =
      (Nat.log2 num + 1 : Nat) - (Nat.log2 q.den : Int) := by omega
  rw [hnumber, hbelow, habove, div_two_zpow, div_two_zpow]
  constructor
  · calc (2 : ℚ) ^ Nat.log2 num / 2 ^ (Nat.log2 q.den + 1) ≤ num / q.den := by gcongr
      _ = q := hquotient.symm
  · calc q = num / q.den := hquotient
      _ < 2 ^ (Nat.log2 num + 1) / 2 ^ Nat.log2 q.den := by gcongr

theorem two_zpow_exponent_le (hq : 0 < q) : (2 : ℚ) ^ exponent q ≤ q := by
  unfold exponent
  dsimp only
  split
  · assumption
  · exact (guess_bounds hq).1

theorem lt_two_zpow_exponent (hq : 0 < q) : q < (2 : ℚ) ^ (exponent q + 1) := by
  unfold exponent
  dsimp only
  split
  · exact (guess_bounds hq).2
  · rename_i habove
    rw [Int.sub_add_cancel]
    exact lt_of_not_ge habove

end Exponent

theorem lastPlace_pos (e : Int) : 0 < lastPlace e := by
  unfold lastPlace
  positivity

theorem lastPlace_mul (e : Int) : lastPlace e * 2 ^ 52 = 2 ^ e := by
  rw [lastPlace, ← zpow_natCast, ← zpow_add₀ (by norm_num)]
  congr 1
  omega

theorem abs_nearest_sub_le (q : ℚ) : |(nearest q : ℚ) - q| ≤ 1 / 2 := by
  have hfloor := Rat.floor_le q
  have hnext := Rat.lt_floor (x := q)
  unfold nearest
  dsimp only
  rw [abs_le]
  split
  · rename_i hbelow
    have hrest : q - q.floor ≤ 1 / 2 := by
      rcases hbelow with hlt | ⟨heq, -⟩
      · exact hlt.le
      · exact heq.le
    constructor <;> linarith
  · rename_i habove
    have hrest : 1 / 2 ≤ q - q.floor := by
      by_contra hlt
      exact habove (.inl (lt_of_not_ge hlt))
    push_cast
    constructor <;> linarith

/-- One number is another, changed by no more than rounding changes it. -/
structure Rounded (q rounded : ℚ) : Prop where
  low : q * (1 - error) ≤ rounded
  high : rounded ≤ q * (1 + error)

/-- Half a last place is the most that rounding changes. -/
theorem rounded_round {q : ℚ} (hq : 0 < q) : Rounded q (round q) := by
  have hplace := lastPlace_pos (exponent q)
  have hhalf := abs_nearest_sub_le (q / lastPlace (exponent q))
  have hdiff : round q - q =
      (nearest (q / lastPlace (exponent q)) - q / lastPlace (exponent q)) *
        lastPlace (exponent q) := by
    rw [round, sub_mul, div_mul_cancel₀ _ hplace.ne']
  have hpower := two_zpow_exponent_le hq
  rw [← lastPlace_mul] at hpower
  have hchange : |round q - q| ≤ q * error :=
    calc |round q - q|
        = |(nearest (q / lastPlace (exponent q)) : ℚ) - q / lastPlace (exponent q)| *
            lastPlace (exponent q) := by rw [hdiff, abs_mul, abs_of_pos hplace]
      _ ≤ 1 / 2 * lastPlace (exponent q) := by gcongr
      _ = lastPlace (exponent q) * 2 ^ 52 * error := by rw [error]; ring
      _ ≤ q * error := by
          have herror := error_nonneg
          gcongr
  obtain ⟨hlow, hhigh⟩ := abs_le.mp hchange
  constructor <;> linarith

theorem Rounded.pos {q rounded : ℚ} (h : Rounded q rounded) (hq : 0 < q) : 0 < rounded :=
  (mul_pos hq one_sub_error_pos).trans_le h.low

/-- What is found is the integer part of the root, if that has no more digits than are found. -/
theorem wholeRoot_spec {digits n : Nat} (h : n < 4 ^ digits) :
    wholeRoot digits n * wholeRoot digits n ≤ n ∧
      n < (wholeRoot digits n + 1) * (wholeRoot digits n + 1) := by
  induction digits generalizing n with
  | zero =>
    have hzero : n = 0 := Nat.lt_one_iff.mp h
    subst hzero
    exact ⟨Nat.le_refl 0, Nat.zero_lt_one⟩
  | succ digits ih =>
    have hquarter : n / 4 < 4 ^ digits := by
      rw [Nat.pow_succ] at h
      omega
    obtain ⟨hbelow, habove⟩ := ih hquarter
    unfold wholeRoot
    dsimp only
    generalize wholeRoot digits (n / 4) = half at hbelow habove ⊢
    have hdouble : 2 * half * (2 * half) = 4 * (half * half) := by ring
    have hnext : (2 * half + 1 + 1) * (2 * half + 1 + 1) = 4 * ((half + 1) * (half + 1)) := by ring
    split
    · rename_i hfits
      exact ⟨hfits, by omega⟩
    · rename_i hlarge
      exact ⟨by omega, Nat.lt_of_not_le hlarge⟩

section Root

variable {q : ℚ}

/-- The square whose root is to be found, in units of the square of the last place. -/
theorem square_bounds (hq : 0 < q) :
    (2 : ℚ) ^ 104 ≤ q / (lastPlace (exponent q / 2) * lastPlace (exponent q / 2)) ∧
      q / (lastPlace (exponent q / 2) * lastPlace (exponent q / 2)) < 2 ^ 106 := by
  have hplace := lastPlace_pos (exponent q / 2)
  have hsquare : (2 : ℚ) ^ 104 * (lastPlace (exponent q / 2) * lastPlace (exponent q / 2)) =
      2 ^ (exponent q / 2 + exponent q / 2) := by
    rw [zpow_add₀ (by norm_num), ← lastPlace_mul]
    ring
  rw [le_div_iff₀ (by positivity), div_lt_iff₀ (by positivity)]
  constructor
  · rw [hsquare]
    apply le_trans _ (two_zpow_exponent_le hq)
    exact zpow_le_zpow_right₀ (by norm_num) (by omega)
  · have hdouble : (2 : ℚ) ^ 106 * (lastPlace (exponent q / 2) * lastPlace (exponent q / 2)) =
        2 ^ (exponent q / 2 + exponent q / 2 + 2) := by
      rw [zpow_add₀ (by norm_num), ← hsquare]
      ring
    rw [hdouble]
    apply lt_of_lt_of_le (lt_two_zpow_exponent hq)
    exact zpow_le_zpow_right₀ (by norm_num) (by omega)

/-- The digits that are found, of a square with so many digits. -/
theorem wholeRoot_bounds {square : ℚ} (hlow : 2 ^ 104 ≤ square) (hhigh : square < 2 ^ 106) :
    let below : ℚ := wholeRoot 53 square.floor.toNat
    2 ^ 52 ≤ below ∧ below * below ≤ square := by
  intro below
  have hfloor : (2 ^ 104 : Int) ≤ square.floor := Rat.le_floor_iff.mpr (by exact_mod_cast hlow)
  have hfloor' : square.floor < (2 ^ 106 : Int) := Rat.floor_lt_iff.mpr (by exact_mod_cast hhigh)
  obtain ⟨n, hn⟩ := Int.eq_ofNat_of_zero_le (a := square.floor) (by omega)
  have hnumber : square.floor.toNat = n := by rw [hn]; rfl
  have hcast : ((square.floor : Int) : ℚ) = n := by rw [hn]; rfl
  obtain ⟨hbelow, habove⟩ := wholeRoot_spec (show n < 4 ^ 53 by omega)
  have hlarge : 2 ^ 52 ≤ wholeRoot 53 n := by
    by_contra hsmall
    have hsquare : (wholeRoot 53 n + 1) * (wholeRoot 53 n + 1) ≤ 2 ^ 52 * 2 ^ 52 :=
      Nat.mul_le_mul (by omega) (by omega)
    omega
  constructor
  · show (2 : ℚ) ^ 52 ≤ wholeRoot 53 square.floor.toNat
    rw [hnumber]
    exact_mod_cast hlarge
  · calc below * below = ((wholeRoot 53 n * wholeRoot 53 n : Nat) : ℚ) := by
          rw [Nat.cast_mul, ← hnumber]
      _ ≤ n := by exact_mod_cast hbelow
      _ = (square.floor : ℚ) := hcast.symm
      _ ≤ square := Rat.floor_le square

/-- Half a last place is the most that a rounded root is above the root. -/
theorem root_bounds (hq : 0 < q) : 0 < root q ∧ (root q * (1 - error)) ^ 2 ≤ q := by
  obtain ⟨hlow, hhigh⟩ := square_bounds hq
  have hplace := lastPlace_pos (exponent q / 2)
  unfold root
  dsimp only
  generalize lastPlace (exponent q / 2) = place at hlow hhigh hplace ⊢
  obtain ⟨hlarge, hbelow⟩ := wholeRoot_bounds hlow hhigh
  generalize (wholeRoot 53 (q / (place * place)).floor.toNat : ℚ) = below at hlarge hbelow ⊢
  have hscale : q / (place * place) * (place * place) = q := by
    field_simp
  -- what the root is rounded to, and half a place less
  obtain ⟨rounded, hrounded, hbelow', hhalf⟩ : ∃ rounded : ℚ,
      (if q / (place * place) < below * below + below + 1 / 4 then below else below + 1) =
        rounded ∧ 2 ^ 52 ≤ rounded ∧ (rounded - 1 / 2) ^ 2 ≤ q / (place * place) := by
    split
    · exact ⟨below, rfl, hlarge, by nlinarith⟩
    · rename_i habove
      exact ⟨below + 1, rfl, by linarith, by nlinarith⟩
  rw [hrounded]
  have hshare : rounded * (1 - error) ≤ rounded - 1 / 2 := by
    unfold error
    linarith
  refine ⟨mul_pos (by linarith) hplace, ?_⟩
  calc (rounded * place * (1 - error)) ^ 2
      = (rounded * (1 - error)) ^ 2 * (place * place) := by ring
    _ ≤ (rounded - 1 / 2) ^ 2 * (place * place) := by
        have hshare' : 0 ≤ rounded * (1 - error) :=
          mul_nonneg (by linarith) one_sub_error_pos.le
        gcongr
    _ ≤ q / (place * place) * (place * place) := by gcongr
    _ = q := hscale

end Root

end Chip8.Rounding
