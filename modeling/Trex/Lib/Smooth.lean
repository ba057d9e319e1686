/-
# Smoothing with a scaled state

A mean is kept `n` times too large, as an integer, and each new value `d` replaces one `n`-th of it:
the state goes from `m` to `m + (d - (m + r) / n)`, where `r` says how the quotient is rounded.

The bound of the values is one of the mean as well, however many there were: what the rounding
leaves behind never adds up (`Smoothed.smooth`, `Smoothed.mean_le`).
-/
import Mathlib.Tactic.Linarith

namespace Trex.Lib

/-- The next state. -/
def smooth (n r m d : Int) : Int := m + (d - (m + r) / n)

/-- **The states of a mean of at most `D`.** -/
structure Smoothed (n r D m : Int) : Prop where
  nonneg : 0 ≤ m
  lt : m + r < n * (D + 1)

namespace Smoothed

variable {n r D m d : Int}

theorem zero (hn : 0 < n) (hr : r < n) (hD : 0 ≤ D) : Smoothed n r D 0 where
  nonneg := le_refl 0
  lt := by
    rw [zero_add]
    nlinarith

/-- What is taken from a mean is not more than its bound. -/
theorem ediv_le (h : Smoothed n r D m) (hn : 0 < n) : (m + r) / n ≤ D := by
  have hlt : (m + r) / n < D + 1 := Int.ediv_lt_of_lt_mul hn (by rw [mul_comm]; exact h.lt)
  exact Int.lt_add_one_iff.mp hlt

/-- **One value more.** -/
theorem smooth (h : Smoothed n r D m) (hn : 0 < n) (hrn : r < n) (hd : 0 ≤ d)
    (hD : d ≤ D) :
    Smoothed n r D (Lib.smooth n r m d) := by
  have hq := h.ediv_le hn
  have hrem := Int.emod_lt_of_pos (m + r) hn
  have hsplit := Int.mul_ediv_add_emod (m + r) n
  have hm := h.nonneg
  refine ⟨?_, ?_⟩
  · -- the quotient is at most `m`: one of `m = 0` and `n ≤ m * n` holds
    have hle : (m + r) / n ≤ m := by
      refine Int.lt_add_one_iff.mp (Int.ediv_lt_of_lt_mul hn ?_)
      nlinarith
    rw [Lib.smooth]
    linarith
  · -- with `m + r = n * q + t` the next state is at most `(n - 1) * q + t - r + D`, and `q ≤ D`
    rw [Lib.smooth]
    nlinarith

/-- **The mean is bounded by the values' bound.** -/
theorem mean_le (h : Smoothed n r D m) (hn : 0 < n) (hr : 0 ≤ r) : m / n ≤ D :=
  le_trans (Int.ediv_le_ediv hn (le_add_of_nonneg_right hr)) (h.ediv_le hn)

theorem mean_nonneg (h : Smoothed n r D m) (hn : 0 < n) : 0 ≤ m / n :=
  Int.ediv_nonneg h.nonneg hn.le

end Smoothed

end Trex.Lib
