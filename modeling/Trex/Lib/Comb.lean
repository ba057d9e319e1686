/-
# The remainders of a comb

The numbers below `h * (2 * h)` that are in the lower half of their block of `2 * h` are a comb:
blocks of `h` numbers with gaps of `h` between them.  Which moduli `n` have all their remainders on
the comb?

A remainder `d` is the remainder of `d`, `d + n`, `d + 2 * n` and so on.  With `n = q * (2 * h) +
m`, a step of `n` moves on by `q` blocks and by `m` inside of the block:

* with `0 < m ≤ h` the place moves up, and from the gap it comes to the start of the next block,
  after `⌈h / m⌉` steps at most;
* with `h < m` it moves down by `2 * h - m`, and from the gap it comes to the end of the same block,
  after `⌈h / (2 * h - m)⌉` steps at most;
* with `m = 0` it stays in the gap.

Whether there are enough blocks for these steps is the condition (`covers_iff`), and the remainders
that need the most steps show that it is exact.
-/
import Mathlib.Tactic.Ring
import Mathlib.Tactic.Linarith

namespace Trex.Lib

namespace Comb

/-! ## 1. The comb and the condition -/

/-- The numbers of the comb: below `h * (2 * h)`, and in the lower half of a block. -/
def On (h x : Nat) : Prop := x < h * (2 * h) ∧ x % (2 * h) < h

/-- Every remainder modulo `n` is one of a number of the comb. -/
def Covers (h n : Nat) : Prop := ∀ d < n, ∃ x, On h x ∧ x % n = d

/-- The steps that are needed at most to go through a gap of `h` by `m` at a time. -/
def steps (h m : Nat) : Nat := (h + m - 1) / m

/-- **The condition**: there are enough blocks for the steps that lead out of a gap. -/
def HasRoom (h n : Nat) : Prop :=
  n % (2 * h) ≠ 0 ∧
    (n % (2 * h) ≤ h → n / (2 * h) * (steps h (n % (2 * h)) + 1) < h) ∧
    (h < n % (2 * h) →
      steps h (2 * h - n % (2 * h)) * (n / (2 * h) + 1) + n / (2 * h) ≤ h)

instance (h n : Nat) : Decidable (HasRoom h n) :=
  inferInstanceAs (Decidable (_ ∧ (_ → _) ∧ (_ → _)))

variable {h n q m d : Nat}

/-- So many steps are enough, and one fewer are not. -/
theorem steps_spec (hm : 0 < m) (hh : 0 < h) :
    h ≤ steps h m * m ∧ (steps h m - 1) * m < h ∧ 0 < steps h m := by
  unfold steps
  have hdiv := Nat.div_add_mod (h + m - 1) m
  have hlt := Nat.mod_lt (h + m - 1) hm
  have hpos : 0 < (h + m - 1) / m := Nat.div_pos (by omega) hm
  obtain ⟨j, hj⟩ : ∃ j, (h + m - 1) / m = j + 1 := ⟨_, (Nat.succ_pred_eq_of_pos hpos).symm⟩
  rw [hj] at hdiv ⊢
  rw [Nat.add_sub_cancel]
  rw [Nat.mul_comm] at hdiv
  rw [Nat.succ_mul] at hdiv ⊢
  exact ⟨by omega, by omega, Nat.succ_pos j⟩

/-- A number with this block and this place is on the comb. -/
theorem on_of_block {p r x : Nat} (hx : x = p * (2 * h) + r) (hp : p < h) (hr : r < h) :
    On h x := by
  subst hx
  refine ⟨?_, ?_⟩
  · calc p * (2 * h) + r < (p + 1) * (2 * h) := by rw [Nat.succ_mul p (2 * h)]; omega
      _ ≤ h * (2 * h) := Nat.mul_le_mul_right _ hp
  · rw [Nat.mul_comm, Nat.mul_add_mod, Nat.mod_eq_of_lt (by omega)]
    exact hr

/-- The numbers with a remainder are those that a walk from it meets. -/
theorem covers_iff_walk : Covers h n ↔ ∀ d < n, ∃ k, On h (d + k * n) := by
  constructor
  · intro hc d hd
    obtain ⟨x, hx, rfl⟩ := hc d hd
    refine ⟨x / n, ?_⟩
    rwa [Nat.mul_comm, Nat.mod_add_div]
  · intro hw d hd
    obtain ⟨k, hk⟩ := hw d hd
    exact ⟨_, hk, by rw [Nat.add_mul_mod_self_right, Nat.mod_eq_of_lt hd]⟩

/-! ## 2. Out of a gap -/

/-- Upwards: the first step that passes the end of the gap stays in the next block. -/
theorem exists_step_up {r : Nat} (hm : 0 < m) (hmh : m ≤ h) (hlo : h ≤ r) (hhi : r < 2 * h) :
    ∃ k ≤ steps h m, 2 * h ≤ r + k * m ∧ r + k * m < 3 * h := by
  have hstep : ∃ k, 2 * h ≤ r + k * m :=
    ⟨steps h m, by have := (steps_spec hm (by omega : 0 < h)).1; omega⟩
  classical
  refine ⟨Nat.find hstep, Nat.find_min' hstep ?_, Nat.find_spec hstep, ?_⟩
  · have := (steps_spec hm (by omega : 0 < h)).1
    omega
  · have hspec := Nat.find_spec hstep
    cases hk : Nat.find hstep with
    | zero =>
      rw [hk] at hspec
      omega
    | succ k =>
      have hbefore : ¬ 2 * h ≤ r + k * m := Nat.find_min hstep (by omega)
      rw [Nat.succ_mul]
      omega

/-- Downwards: the first step that comes to the block stays in it. -/
theorem exists_step_down {r g : Nat} (hgh : g < h) (hlo : h ≤ r) {k0 : Nat}
    (hk0 : r < h + k0 * g) : ∃ k ≤ k0, k * g ≤ r ∧ r - k * g < h := by
  have hstep : ∃ k, r < h + k * g := ⟨k0, hk0⟩
  classical
  have hspec := Nat.find_spec hstep
  refine ⟨Nat.find hstep, Nat.find_min' hstep hk0, ?_⟩
  cases hk : Nat.find hstep with
  | zero =>
    rw [hk] at hspec
    omega
  | succ k =>
    have hbefore : ¬ r < h + k * g := Nat.find_min hstep (by omega)
    rw [hk] at hspec
    rw [Nat.succ_mul] at hspec ⊢
    omega

/-! ## 3. The three cases

`q` is the number of whole blocks of a step, and `m` what is left of it. -/

/-- A step of whole blocks stays in the gap. -/
theorem not_covers_whole (hh : 0 < h) (hq : 0 < q) : ¬ Covers h (q * (2 * h)) := by
  intro hc
  have hlt : h < q * (2 * h) := by nlinarith
  obtain ⟨k, -, hplace⟩ := covers_iff_walk.mp hc h hlt
  rw [← Nat.mul_assoc, Nat.add_mul_mod_self_right, Nat.mod_eq_of_lt (by omega)] at hplace
  exact Nat.lt_irrefl h hplace

theorem covers_up (hm : 0 < m) (hmh : m ≤ h) (hroom : q * (steps h m + 1) < h) :
    Covers h (q * (2 * h) + m) := by
  refine covers_iff_walk.mpr fun d hd => ?_
  have hh : 0 < h := by omega
  have hsplit := Nat.div_add_mod d (2 * h)
  have hplace := Nat.mod_lt d (show 0 < 2 * h by omega)
  have hqh : q < h := by nlinarith
  have hblock : d / (2 * h) ≤ q := by
    refine Nat.le_of_lt_succ (Nat.div_lt_of_lt_mul ?_)
    rw [Nat.mul_comm, Nat.succ_mul q (2 * h)]
    omega
  by_cases hlow : d % (2 * h) < h
  · refine ⟨0, on_of_block (p := d / (2 * h)) (r := d % (2 * h)) ?_ (by omega) hlow⟩
    rw [Nat.zero_mul, Nat.add_zero, Nat.mul_comm, hsplit]
  · -- the block of the gap is not the last one, which ends at `m`
    have hbefore : d / (2 * h) < q := by
      refine Nat.lt_of_le_of_ne hblock fun heq => ?_
      rw [heq, Nat.mul_comm] at hsplit
      omega
    obtain ⟨k, hk, hend, hnext⟩ := exists_step_up (r := d % (2 * h)) hm hmh (by omega) hplace
    refine ⟨k, on_of_block (p := d / (2 * h) + k * q + 1) (r := d % (2 * h) + k * m - 2 * h) ?_ ?_
      (by omega)⟩
    · have hwalk : d + k * (q * (2 * h) + m) =
          (d / (2 * h) + k * q) * (2 * h) + (d % (2 * h) + k * m) := by
        conv_lhs => rw [← hsplit]
        ring
      rw [hwalk, Nat.succ_mul _ (2 * h)]
      omega
    · have hsteps : k * q ≤ steps h m * q := Nat.mul_le_mul_right q hk
      have hexpand : q * (steps h m + 1) = steps h m * q + q := by ring
      omega

theorem not_covers_up (hm : 0 < m) (hmh : m ≤ h) (hroom : h ≤ q * (steps h m + 1)) :
    ¬ Covers h (q * (2 * h) + m) := by
  intro hc
  obtain ⟨hreach, hshort, hpos⟩ := steps_spec (h := h) hm (by omega)
  obtain ⟨j, hj⟩ : ∃ j, steps h m = j + 1 := ⟨_, (Nat.succ_pred_eq_of_pos hpos).symm⟩
  rw [hj] at hreach hroom
  rw [hj, Nat.add_sub_cancel] at hshort
  have hq : 0 < q := by
    by_contra hzero
    rw [Nat.eq_zero_of_not_pos hzero, Nat.zero_mul] at hroom
    omega
  obtain ⟨p, rfl⟩ : ∃ p, q = p + 1 := ⟨_, (Nat.succ_pred_eq_of_pos hq).symm⟩
  -- the place in the last gap from which `j` steps lead to its end
  obtain ⟨k, hlt, hplace⟩ := covers_iff_walk.mp hc (p * (2 * h) + (2 * h - 1 - j * m)) (by
    rw [Nat.succ_mul p (2 * h)]
    omega)
  have hwalk : p * (2 * h) + (2 * h - 1 - j * m) + k * ((p + 1) * (2 * h) + m) =
      (p + k * (p + 1)) * (2 * h) + (2 * h - 1 - j * m + k * m) := by ring
  rw [hwalk] at hlt hplace
  rcases Nat.lt_or_ge j k with hjk | hkj
  · -- there is no block left
    have hblocks : h * (2 * h) ≤ (p + k * (p + 1)) * (2 * h) + (2 * h - 1 - j * m + k * m) := by
      have hkm : (j + 1) * m ≤ k * m := Nat.mul_le_mul_right m hjk
      have hkp : (j + 1) * (p + 1) ≤ k * (p + 1) := Nat.mul_le_mul_right _ hjk
      have hlast : h ≤ p + k * (p + 1) + 1 := by
        have hexpand : (p + 1) * (j + 1 + 1) = (j + 1) * (p + 1) + p + 1 := by ring
        omega
      calc h * (2 * h) ≤ (p + k * (p + 1) + 1) * (2 * h) := Nat.mul_le_mul_right _ hlast
        _ = (p + k * (p + 1)) * (2 * h) + 2 * h := by ring
        _ ≤ _ := by
          rw [Nat.succ_mul j m] at hkm
          omega
    omega
  · -- it is still in the gap
    have hkm : k * m ≤ j * m := Nat.mul_le_mul_right m hkj
    rw [Nat.mul_comm, Nat.mul_add_mod, Nat.mod_eq_of_lt (by omega)] at hplace
    omega

theorem covers_down (hm : h < m) (hm' : m < 2 * h)
    (hroom : steps h (2 * h - m) * (q + 1) + q ≤ h) : Covers h (q * (2 * h) + m) := by
  refine covers_iff_walk.mpr fun d hd => ?_
  obtain ⟨g, hg, rfl⟩ : ∃ g, 0 < g ∧ m = 2 * h - g := ⟨2 * h - m, by omega, by omega⟩
  have hgap : 2 * h - (2 * h - g) = g := by omega
  rw [hgap] at hroom
  obtain ⟨hreach, -, hpos⟩ := steps_spec (h := h) hg (by omega)
  have hsplit := Nat.div_add_mod d (2 * h)
  have hplace := Nat.mod_lt d (show 0 < 2 * h by omega)
  have hqh : q < h := by nlinarith
  have hblock : d / (2 * h) ≤ q := by
    refine Nat.le_of_lt_succ (Nat.div_lt_of_lt_mul ?_)
    rw [Nat.mul_comm, Nat.succ_mul q (2 * h)]
    omega
  have hwalk : ∀ k, k * g ≤ d % (2 * h) → d + k * (q * (2 * h) + (2 * h - g)) =
      (d / (2 * h) + k * (q + 1)) * (2 * h) + (d % (2 * h) - k * g) := by
    intro k hk
    have hdown : k * (2 * h - g) + k * g = k * (2 * h) := by
      rw [← Nat.mul_add, Nat.sub_add_cancel (by omega)]
    have hleft : d + k * (q * (2 * h) + (2 * h - g)) =
        d / (2 * h) * (2 * h) + d % (2 * h) + k * q * (2 * h) + k * (2 * h - g) := by
      conv_lhs => rw [← hsplit]
      ring
    have hright : (d / (2 * h) + k * (q + 1)) * (2 * h) =
        d / (2 * h) * (2 * h) + k * q * (2 * h) + k * (2 * h) := by ring
    omega
  by_cases hlow : d % (2 * h) < h
  · refine ⟨0, on_of_block (p := d / (2 * h)) (r := d % (2 * h)) ?_ (by omega) hlow⟩
    rw [Nat.zero_mul, Nat.add_zero, Nat.mul_comm, hsplit]
  · rcases Nat.lt_or_ge (d / (2 * h)) q with hbefore | hlast
    · obtain ⟨k, hk, hkg, hin⟩ := exists_step_down (r := d % (2 * h)) (by omega) (by omega)
        (show d % (2 * h) < h + steps h g * g by omega)
      refine ⟨k, on_of_block (hwalk k hkg) ?_ hin⟩
      have hsteps : k * (q + 1) ≤ steps h g * (q + 1) := Nat.mul_le_mul_right _ hk
      omega
    · -- in the last block the gap ends at `2 * h - g`, and one step fewer is enough
      obtain ⟨j, hj⟩ : ∃ j, steps h g = j + 1 := ⟨_, (Nat.succ_pred_eq_of_pos hpos).symm⟩
      rw [hj, Nat.succ_mul] at hreach
      rw [hj] at hroom
      have hend : d % (2 * h) < 2 * h - g := by
        have heq : d / (2 * h) = q := Nat.le_antisymm hblock hlast
        rw [heq, Nat.mul_comm] at hsplit
        omega
      obtain ⟨k, hk, hkg, hin⟩ := exists_step_down (r := d % (2 * h)) (by omega) (by omega)
        (show d % (2 * h) < h + j * g by omega)
      refine ⟨k, on_of_block (hwalk k hkg) ?_ hin⟩
      have hsteps : k * (q + 1) ≤ j * (q + 1) := Nat.mul_le_mul_right _ hk
      rw [Nat.succ_mul j (q + 1)] at hroom
      omega

theorem not_covers_down (hm : h < m) (hm' : m < 2 * h)
    (hroom : h < steps h (2 * h - m) * (q + 1) + q) : ¬ Covers h (q * (2 * h) + m) := by
  intro hc
  obtain ⟨g, hg, rfl⟩ : ∃ g, 0 < g ∧ m = 2 * h - g := ⟨2 * h - m, by omega, by omega⟩
  have hgap : 2 * h - (2 * h - g) = g := by omega
  rw [hgap] at hroom
  obtain ⟨-, hshort, hpos⟩ := steps_spec (h := h) hg (by omega)
  obtain ⟨j, hj⟩ : ∃ j, steps h g = j + 1 := ⟨_, (Nat.succ_pred_eq_of_pos hpos).symm⟩
  rw [hj] at hroom
  rw [hj, Nat.add_sub_cancel] at hshort
  have hq : 0 < q := by
    by_contra hzero
    have hjg : j * 1 ≤ j * g := Nat.mul_le_mul_left j hg
    rw [Nat.eq_zero_of_not_pos hzero] at hroom
    omega
  obtain ⟨p, rfl⟩ : ∃ p, q = p + 1 := ⟨_, (Nat.succ_pred_eq_of_pos hq).symm⟩
  -- the end of the last gap
  obtain ⟨k, hlt, hplace⟩ := covers_iff_walk.mp hc (p * (2 * h) + (2 * h - 1)) (by
    rw [Nat.succ_mul p (2 * h)]
    omega)
  have hdown : k * (2 * h - g) + k * g = k * (2 * h) := by
    rw [← Nat.mul_add, Nat.sub_add_cancel (by omega)]
  have hwalk : p * (2 * h) + (2 * h - 1) + k * ((p + 1) * (2 * h) + (2 * h - g)) + k * g =
      (p + k * (p + 2)) * (2 * h) + (2 * h - 1) := by
    have hexpand : (p + k * (p + 2)) * (2 * h) = p * (2 * h) + k * ((p + 1) * (2 * h)) + k *
      (2 * h) := by ring
    rw [hexpand, Nat.mul_add]
    omega
  rcases Nat.lt_or_ge j k with hjk | hkj
  · -- there is no block left
    have hone : p * (2 * h) + (2 * h - 1) + (j + 1) * ((p + 1) * (2 * h) + (2 * h - g)) ≤
        p * (2 * h) + (2 * h - 1) + k * ((p + 1) * (2 * h) + (2 * h - g)) :=
      Nat.add_le_add_left (Nat.mul_le_mul_right _ hjk) _
    have hblocks : h * (2 * h) ≤ (p + (j + 1) * (p + 2)) * (2 * h) := by
      refine Nat.mul_le_mul_right _ ?_
      have hexpand : (j + 1) * (p + 1 + 1) + (p + 1) = (p + (j + 1) * (p + 2)) + 1 := by ring
      omega
    have hexpand : p * (2 * h) + (2 * h - 1) + (j + 1) * ((p + 1) * (2 * h) + (2 * h - g)) +
        (j + 1) * g = (p + (j + 1) * (p + 2)) * (2 * h) + (2 * h - 1) := by
      have hdown : (j + 1) * (2 * h - g) + (j + 1) * g = (j + 1) * (2 * h) := by
        rw [← Nat.mul_add, Nat.sub_add_cancel (by omega)]
      have hexpand : (p + (j + 1) * (p + 2)) * (2 * h) =
          p * (2 * h) + (j + 1) * ((p + 1) * (2 * h)) + (j + 1) * (2 * h) := by ring
      rw [hexpand, Nat.mul_add]
      omega
    rw [Nat.succ_mul j g] at hexpand
    omega
  · -- it is still in the gap
    have hkg : k * g ≤ j * g := Nat.mul_le_mul_right g hkj
    have hvalue : p * (2 * h) + (2 * h - 1) + k * ((p + 1) * (2 * h) + (2 * h - g)) =
        (p + k * (p + 2)) * (2 * h) + (2 * h - 1 - k * g) := by omega
    rw [hvalue, Nat.mul_comm, Nat.mul_add_mod, Nat.mod_eq_of_lt (by omega)] at hplace
    omega

/-! ## 4. The moduli -/

/-- **All remainders are on the comb exactly if there are enough blocks.** -/
theorem covers_iff (hh : 0 < h) (hn : 0 < n) : Covers h n ↔ HasRoom h n := by
  have hsplit : n = n / (2 * h) * (2 * h) + n % (2 * h) := by rw [Nat.mul_comm, Nat.div_add_mod]
  have hlt := Nat.mod_lt n (show 0 < 2 * h by omega)
  unfold HasRoom
  generalize n / (2 * h) = q at hsplit ⊢
  generalize n % (2 * h) = m at hsplit hlt ⊢
  subst hsplit
  rcases Nat.eq_zero_or_pos m with rfl | hm
  · have hq : 0 < q := by
      by_contra hzero
      rw [Nat.eq_zero_of_not_pos hzero] at hn
      omega
    exact iff_of_false (not_covers_whole hh hq) fun hroom => hroom.1 rfl
  · have hne : m ≠ 0 := Nat.pos_iff_ne_zero.mp hm
    rcases Nat.lt_or_ge h m with hdown | hup
    · simp only [ne_eq, hne, not_false_eq_true, true_and, hdown, forall_const, Nat.not_le.mpr hdown,
        IsEmpty.forall_iff]
      by_cases hroom : steps h (2 * h - m) * (q + 1) + q ≤ h
      · exact iff_of_true (covers_down hdown hlt hroom) hroom
      · exact iff_of_false (not_covers_down hdown hlt (Nat.lt_of_not_le hroom)) hroom
    · simp only [ne_eq, hne, not_false_eq_true, true_and, hup, forall_const, Nat.not_lt.mpr hup,
        IsEmpty.forall_iff, and_true]
      by_cases hroom : q * (steps h m + 1) < h
      · exact iff_of_true (covers_up hm hup hroom) hroom
      · exact iff_of_false (not_covers_up hm hup (Nat.le_of_not_lt hroom)) hroom

end Comb

end Trex.Lib
