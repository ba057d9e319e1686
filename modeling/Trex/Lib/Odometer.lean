/-
# An odometer with two digits

Two counters, of which the second goes on by one whenever the first has run through all its values:
the digits of a number in a mixed base.  The pairs come one after the other, each once, and after `r
* p` steps they come again (`odometer_eq_iff`).
-/
import Mathlib.Data.Set.Card

namespace Trex.Lib

/-- The digits of `j`: a low one of `r` values, and a high one of `p`. -/
def odometer (r p j : Nat) : Nat × Nat := (j % r, j / r % p)

/-- A quotient and a rest go on by one. -/
theorem succ_div_mod {r : Nat} (hr : 0 < r) (j : Nat) :
    ((j + 1) % r, (j + 1) / r) = if j % r + 1 = r then (0, j / r + 1) else (j % r + 1, j / r) := by
  have hj := Nat.div_add_mod j r
  split
  · rename_i hlast
    have hnext : j + 1 = r * (j / r + 1) := by
      rw [Nat.mul_add, Nat.mul_one]
      omega
    rw [hnext, Nat.mul_mod_right, Nat.mul_div_cancel_left _ hr]
  · rename_i hnot
    have hlt : j % r + 1 < r := Nat.lt_of_le_of_ne (Nat.mod_lt j hr) hnot
    have hnext : j + 1 = r * (j / r) + (j % r + 1) := by omega
    have hdiv : (j + 1) / r = j / r := by
      conv_lhs => rw [hnext]
      rw [Nat.mul_add_div hr, Nat.div_eq_of_lt hlt, Nat.add_zero]
    have hmod : (j + 1) % r = j % r + 1 := by
      conv_lhs => rw [hnext]
      rw [Nat.mul_add_mod, Nat.mod_eq_of_lt hlt]
    rw [hdiv, hmod]

theorem odometer_fst_lt {r : Nat} (hr : 0 < r) (p j : Nat) :
    (odometer r p j).1 < r := Nat.mod_lt _ hr

theorem odometer_snd_lt {p : Nat} (hp : 0 < p) (r j : Nat) :
    (odometer r p j).2 < p := Nat.mod_lt _ hp

/-- **Two numbers have the same digits exactly if they differ by a multiple of `r * p`.** -/
theorem odometer_eq_iff {r : Nat} (hr : 0 < r) (p i j : Nat) :
    odometer r p i = odometer r p j ↔ i % (r * p) = j % (r * p) := by
  rw [odometer, odometer, Prod.mk.injEq, Nat.mod_mul, Nat.mod_mul]
  constructor
  · rintro ⟨hlow, hhigh⟩
    rw [hlow, hhigh]
  · intro h
    -- the low digit is the rest modulo `r`, the high one the quotient
    have hlow : i % r = j % r := by
      have hmod := congrArg (· % r) h
      simpa [Nat.add_mul_mod_self_left, Nat.mod_mod] using hmod
    rw [hlow] at h
    exact ⟨hlow, Nat.eq_of_mul_eq_mul_left hr (Nat.add_left_cancel h)⟩

/-- The first `r * p` readings are all different. -/
theorem odometer_injOn {r p n : Nat} (hr : 0 < r) (hn : n ≤ r * p) :
    Set.InjOn (odometer r p) {j | j < n} := by
  intro i hi j hj h
  have hi' : i < r * p := Nat.lt_of_lt_of_le hi hn
  have hj' : j < r * p := Nat.lt_of_lt_of_le hj hn
  rwa [odometer_eq_iff hr, Nat.mod_eq_of_lt hi', Nat.mod_eq_of_lt hj'] at h

section Odometer

variable {r p : Nat} (hr : 0 < r) (hp : 0 < p)

include hr hp

/-- **One step of the odometer**: the low digit goes on, and behind its last value the high one
does. -/
theorem odometer_succ (j : Nat) : odometer r p (j + 1) =
    if (odometer r p j).1 + 1 = r
      then (0, if (odometer r p j).2 + 1 = p then 0 else (odometer r p j).2 + 1)
    else ((odometer r p j).1 + 1, (odometer r p j).2) := by
  have hlow := succ_div_mod hr j
  have hhigh := succ_div_mod hp (j / r)
  by_cases hlast : (odometer r p j).1 + 1 = r
  · rw [if_pos hlast]
    rw [if_pos (show j % r + 1 = r from hlast)] at hlow
    obtain ⟨hmod, hdiv⟩ := Prod.mk.inj hlow
    by_cases hturn : (odometer r p j).2 + 1 = p
    · rw [if_pos hturn]
      rw [if_pos (show j / r % p + 1 = p from hturn)] at hhigh
      rw [odometer, hmod, hdiv, (Prod.mk.inj hhigh).1]
    · rw [if_neg hturn]
      rw [if_neg (show ¬ j / r % p + 1 = p from hturn)] at hhigh
      rw [odometer, hmod, hdiv, (Prod.mk.inj hhigh).1]
      rfl
  · rw [if_neg hlast]
    rw [if_neg (show ¬ j % r + 1 = r from hlast)] at hlow
    obtain ⟨hmod, hdiv⟩ := Prod.mk.inj hlow
    rw [odometer, hmod, hdiv]
    rfl

/-- **The number of different readings among the first `n`.** -/
theorem ncard_odometer_lt (n : Nat) : (odometer r p '' {j | j < n}).ncard = min n (r * p) := by
  have himage : odometer r p '' {j | j < n} = odometer r p '' {j | j < min n (r * p)} := by
    refine Set.Subset.antisymm ?_ (Set.image_mono fun j hj =>
      Nat.lt_of_lt_of_le hj (Nat.min_le_left ..))
    rintro _ ⟨j, hj, rfl⟩
    have hpos : 0 < r * p := Nat.mul_pos hr hp
    refine ⟨j % (r * p), ?_, (odometer_eq_iff hr _ _ _).mpr (Nat.mod_mod _ _)⟩
    exact Nat.lt_min.mpr ⟨Nat.lt_of_le_of_lt (Nat.mod_le ..) hj, Nat.mod_lt _ hpos⟩
  have hrange : {j | j < min n (r * p)} = (Finset.range (min n (r * p)) : Set Nat) := by
    ext j
    simp
  rw [himage, (odometer_injOn hr (Nat.min_le_right ..)).ncard_image, hrange, Set.ncard_coe_finset,
    Finset.card_range]

end Odometer

end Trex.Lib
