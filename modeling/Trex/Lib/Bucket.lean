/-
# Buckets of tokens

A bucket of at most `cap` tokens is filled with `rate` tokens a second, and tokens are paid from it
at times that do not go back.  What is paid in a window of time is at most what the bucket holds and
what flows in meanwhile (`Paid.window`), however the payments before the window were.
-/
import Mathlib.Algebra.Order.BigOperators.Group.List
import Mathlib.Tactic.Linarith
import Mathlib.Tactic.Ring

namespace Trex.Lib

variable {K : Type*} [CommRing K] [LinearOrder K] [IsStrictOrderedRing K]

/-- **The payments of a bucket** that had `level` tokens at `last`: each with its time, and what was
left then is not more than what came in. -/
inductive Paid (rate cap : K) : K → K → List (K × K) → Prop
  | nil {last level : K} : Paid rate cap last level []
  | cons {last level t paid level' : K} {rest : List (K × K)} (hle : last ≤ t) (hpaid : 0 ≤ paid)
      (hnonneg : 0 ≤ level') (hcap : level' + paid ≤ cap) (hfill : level' + paid ≤ level + rate *
        (t - last))
      (h : Paid rate cap t level' rest) : Paid rate cap last level ((t, paid) :: rest)

/-- What is paid from `x` to `y`. -/
def paidWithin (x y : K) (payments : List (K × K)) : K :=
  ((payments.filter fun p => decide (x ≤ p.1 ∧ p.1 ≤ y)).map Prod.snd).sum

omit [IsStrictOrderedRing K] in
theorem paidWithin_cons_of_mem {x y t paid : K} {rest : List (K × K)} (h : x ≤ t ∧ t ≤ y) :
    paidWithin x y ((t, paid) :: rest) = paid + paidWithin x y rest := by
  simp [paidWithin, h]

omit [IsStrictOrderedRing K] in
theorem paidWithin_cons_of_not {x y t paid : K} {rest : List (K × K)} (h : ¬ (x ≤ t ∧ t ≤ y)) :
    paidWithin x y ((t, paid) :: rest) = paidWithin x y rest := by
  rw [paidWithin, List.filter_cons_of_neg (by simpa using h), paidWithin]

namespace Paid

variable {rate cap last level x y : K} {payments : List (K × K)}

omit [IsStrictOrderedRing K] in
/-- Nothing is paid before the bucket's time. -/
theorem eq_zero (h : Paid rate cap last level payments) (hy : y < last) :
    paidWithin x y payments = 0 := by
  induction h with
  | nil => rfl
  | @cons last level t paid level' rest hle _ _ _ _ _ ih =>
    have hlt : y < t := lt_of_lt_of_le hy hle
    rw [paidWithin_cons_of_not fun hin => absurd hin.2 (not_le.mpr hlt)]
    exact ih hlt

/-- What is paid until `y` was there or came in. -/
theorem le_fill (h : Paid rate cap last level payments) (hrate : 0 ≤ rate) (hlevel : 0 ≤ level)
    (hy : last ≤ y) :
    paidWithin x y payments ≤ level + rate * (y - last) := by
  induction h with
  | @nil last level =>
    have hfill := mul_nonneg hrate (sub_nonneg.mpr hy)
    rw [show paidWithin x y [] = 0 from rfl]
    linarith
  | @cons last level t paid level' rest hle hpaid hnonneg hcap hfill hrest ih =>
    rcases le_or_gt t y with hty | hty
    · have hlater := ih hnonneg hty
      have hsplit : rate * (y - last) = rate * (t - last) + rate * (y - t) := by ring
      by_cases hin : x ≤ t ∧ t ≤ y
      · rw [paidWithin_cons_of_mem hin]
        linarith
      · rw [paidWithin_cons_of_not hin]
        linarith
    · have hgain := mul_nonneg hrate (sub_nonneg.mpr hy)
      rw [paidWithin_cons_of_not fun hin => absurd hin.2 (not_le.mpr hty), hrest.eq_zero hty]
      linarith

/-- **What is paid in a window.** -/
theorem window (h : Paid rate cap last level payments) (hrate : 0 ≤ rate) (hcap : 0 ≤ cap)
    (hxy : x ≤ y) :
    paidWithin x y payments ≤ cap + rate * (y - x) := by
  have hgain := mul_nonneg hrate (sub_nonneg.mpr hxy)
  induction h with
  | nil =>
    rw [show paidWithin x y [] = 0 from rfl]
    linarith
  | @cons last level t paid level' rest hle hpaid hnonneg hfull hfill hrest ih =>
    by_cases hin : x ≤ t ∧ t ≤ y
    · -- the first payment of the window: the bucket is not more than full
      have hlater := hrest.le_fill (x := x) hrate hnonneg hin.2
      have hlate : rate * (y - t) ≤ rate * (y - x) :=
        mul_le_mul_of_nonneg_left (by linarith [hin.1]) hrate
      rw [paidWithin_cons_of_mem hin]
      linarith
    · rw [paidWithin_cons_of_not hin]
      exact ih

end Paid

end Trex.Lib
