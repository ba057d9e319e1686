/-
# Binary floating point

An operation on `double`s computes the exact result and rounds it to the nearest number of 53 binary
digits, to the even one when two are equally near.  `roundTo p` does this for `p` digits, on the
rationals:

* it is off by a half of the last digit at most (`roundTo_le`, `le_roundTo`);
* it leaves a number of `p` digits alone (`roundTo_digits`).

The exponents have no bounds here, so there is no infinity and no subnormal number.  Only numbers
from 0 on are treated.
-/
import Mathlib.Data.Int.Log
import Mathlib.Data.Rat.Floor
import Mathlib.Tactic.Positivity

namespace Trex.Lib

/-! ## 1. The nearest integer -/

/-- The integer nearest to `x`, the even one when two are equally near. -/
def roundEven (x : ℚ) : ℤ :=
  if x - ⌊x⌋ < 1 / 2 then ⌊x⌋
  else if 1 / 2 < x - ⌊x⌋ then ⌊x⌋ + 1
  else if ⌊x⌋ % 2 = 0 then ⌊x⌋ else ⌊x⌋ + 1

theorem roundEven_floor (x : ℚ) : ⌊x⌋ ≤ roundEven x ∧ roundEven x ≤ ⌊x⌋ + 1 := by
  unfold roundEven
  split_ifs <;> omega

@[simp] theorem roundEven_intCast (n : ℤ) : roundEven n = n := by simp [roundEven]

@[simp] theorem roundEven_zero : roundEven 0 = 0 := by simp [roundEven]

theorem abs_roundEven_sub_le (x : ℚ) : |(roundEven x : ℚ) - x| ≤ 1 / 2 := by
  have hlo := Int.floor_le x
  have hhi := Int.lt_floor_add_one x
  rw [abs_le]
  unfold roundEven
  split_ifs <;> push_cast <;> constructor <;> linarith

theorem roundEven_mono {x y : ℚ} (hxy : x ≤ y) : roundEven x ≤ roundEven y := by
  rcases (Int.floor_mono hxy).lt_or_eq with hlt | heq
  · have hx := (roundEven_floor x).2
    have hy := (roundEven_floor y).1
    omega
  · -- between the same two integers
    unfold roundEven
    rw [heq]
    split_ifs <;> first | omega | linarith

/-! ## 2. The nearest number of `p` digits -/

/-- The place of the last digit of a number of `p` digits that is near `x`. -/
def ulp (p : ℕ) (x : ℚ) : ℚ := 2 ^ (Int.log 2 x + 1 - p)

/-- `x` rounded to `p` digits. -/
def roundTo (p : ℕ) (x : ℚ) : ℚ := roundEven (x / ulp p x) * ulp p x

theorem ulp_pos (p : ℕ) (x : ℚ) : 0 < ulp p x := zpow_pos (by norm_num) _

@[simp] theorem roundTo_zero (p : ℕ) : roundTo p 0 = 0 := by simp [roundTo]

variable {p : ℕ} {x y : ℚ}

theorem two_zpow_add (a b : ℤ) : (2 : ℚ) ^ (a + b) = 2 ^ a * 2 ^ b := zpow_add₀ two_ne_zero a b

/-- All `p` digits are used. -/
theorem digits_bounds (hx : 0 < x) : 2 ^ p ≤ 2 * (x / ulp p x) ∧ x / ulp p x < 2 ^ p := by
  have hlo := Int.zpow_log_le_self (b := 2) one_lt_two hx
  have hhi := Int.lt_zpow_succ_log_self (b := 2) one_lt_two x
  have hulp := ulp_pos p x
  have htop : (2 : ℚ) ^ (Int.log 2 x + 1) = 2 ^ p * ulp p x := by
    rw [ulp, ← zpow_natCast, ← two_zpow_add]
    congr 1
    ring
  push_cast at hlo hhi
  rw [htop] at hhi
  rw [two_zpow_add, zpow_one] at htop
  constructor
  · rw [← mul_div_assoc, le_div_iff₀ hulp]
    linarith
  · rwa [div_lt_iff₀ hulp]

/-- **The error** is a half of the last digit at most. -/
theorem abs_roundTo_sub_le (hx : 0 ≤ x) : |roundTo p x - x| ≤ x / 2 ^ p := by
  rcases hx.eq_or_lt with rfl | hx
  · simp
  · have hulp := ulp_pos p x
    have hround := abs_roundEven_sub_le (x / ulp p x)
    have hdigits := (digits_bounds (p := p) hx).1
    have hsplit : roundTo p x - x = (roundEven (x / ulp p x) - x / ulp p x) * ulp p x := by
      rw [roundTo, sub_mul, div_mul_cancel₀ _ hulp.ne']
    rw [← mul_div_assoc, le_div_iff₀ hulp] at hdigits
    rw [hsplit, abs_mul, abs_of_pos hulp, le_div_iff₀ (by positivity)]
    calc |(roundEven (x / ulp p x) : ℚ) - x / ulp p x| * ulp p x * 2 ^ p
        ≤ 1 / 2 * ulp p x * 2 ^ p := by gcongr
      _ ≤ x := by linarith

theorem roundTo_le (hx : 0 ≤ x) : roundTo p x ≤ x * (1 + 1 / 2 ^ p) := by
  have herr := (abs_le.mp (abs_roundTo_sub_le (p := p) hx)).2
  rw [mul_add, mul_one, mul_one_div]
  linarith

theorem le_roundTo (hx : 0 ≤ x) : x * (1 - 1 / 2 ^ p) ≤ roundTo p x := by
  have herr := (abs_le.mp (abs_roundTo_sub_le (p := p) hx)).1
  rw [mul_sub, mul_one, mul_one_div]
  linarith

theorem roundTo_nonneg (hx : 0 ≤ x) : 0 ≤ roundTo p x := by
  have hdiv : 0 ≤ x / ulp p x := div_nonneg hx (ulp_pos p x).le
  have hround : 0 ≤ roundEven (x / ulp p x) := by simpa using roundEven_mono hdiv
  exact mul_nonneg (by exact_mod_cast hround) (ulp_pos p x).le

/-- **A number of `p` digits stays as it is.** -/
theorem roundTo_digits {n : ℕ} (hn : n < 2 ^ p) (e : ℤ) : roundTo p (n * 2 ^ e) = n * 2 ^ e := by
  rcases Nat.eq_zero_or_pos n with rfl | hpos
  · simp
  · have hscale : (0 : ℚ) < 2 ^ e := zpow_pos two_pos e
    have hx : (0 : ℚ) < n * 2 ^ e := mul_pos (by exact_mod_cast hpos) hscale
    have hlog : Int.log 2 ((n : ℚ) * 2 ^ e) < p + e := by
      have hlo := Int.zpow_log_le_self (b := 2) one_lt_two hx
      have hlt : (n : ℚ) * 2 ^ e < 2 ^ ((p : ℤ) + e) := by
        rw [two_zpow_add, zpow_natCast]
        exact mul_lt_mul_of_pos_right (by exact_mod_cast hn) hscale
      exact (zpow_lt_zpow_iff_right₀ (by norm_num : (1 : ℚ) < 2)).mp
        (lt_of_le_of_lt (by exact_mod_cast hlo) hlt)
    -- the last digit is no lower than the exponent
    obtain ⟨k, hk⟩ := Int.eq_ofNat_of_zero_le
      (show 0 ≤ e - (Int.log 2 ((n : ℚ) * 2 ^ e) + 1 - p) by omega)
    have hint : (n : ℚ) * 2 ^ e / ulp p (n * 2 ^ e) = ((n * 2 ^ k : ℤ) : ℚ) := by
      rw [ulp, mul_div_assoc, ← zpow_sub₀ two_ne_zero, hk]
      push_cast
      rfl
    rw [roundTo, hint, roundEven_intCast, ← hint, div_mul_cancel₀ _ (ulp_pos _ _).ne']

end Trex.Lib
