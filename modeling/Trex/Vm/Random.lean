/-
# What the random op-codes draw

`run_rand` writes `min + r % span`, where `r` comes from a generator of 15 bits (`fastrand`): one
draw for a variable of one or two bytes, two for four, four for eight, each draw 16 bits above the
next one.  `span` is `max - min + 1` after a cast to `int`.

* One draw attains every number of 15 bits (`fastrand_attains`), two draws every pair of them
  (`vmRand32_attains`): the bits 15 and 31 of `vm_rand32` are never set, and the others are free.
  The largest number of `vm_rand64` is `vmRand64Max`.

`random_in_range_iff` says for which bounds the variable stays in its range, whatever the seed;
which values of the range are written is in `Vm.Cover`.
-/
import Mathlib.Tactic.IntervalCases
import Trex.Vm.Prefix

namespace Trex.Vm

open Trex.Lib Trex.Net

/-! ## 1. The generator -/

/-- The seed whose successor is `s`: `3115528533` is the inverse of the multiplier. -/
def seedBefore (s : Nat) : Nat := 3115528533 * (s + 2 ^ 32 - 2531011) % 2 ^ 32

theorem fastrand_seedBefore {s : Nat} (h : s < 2 ^ 32) : (fastrand (seedBefore s)).2 = s := by
  simp only [fastrand, seedBefore]
  omega

theorem seedBefore_lt (s : Nat) : seedBefore s < 2 ^ 32 := Nat.mod_lt _ (by decide)

/-- The number that is drawn is the upper half of the new seed, without its highest bit. -/
theorem fastrand_fst (seed : Nat) : (fastrand seed).1 = (fastrand seed).2 / 2 ^ 16 % 2 ^ 15 := rfl

theorem fastrand_lt (seed : Nat) : (fastrand seed).1 < 2 ^ 15 := Nat.mod_lt _ (by decide)

/-- The bits 16 to 30 of a number do not depend on the higher ones. -/
theorem bits_add_high (m n : Nat) :
    (2 ^ 31 * m + n) % 2 ^ 32 / 2 ^ 16 % 2 ^ 15 = n / 2 ^ 16 % 2 ^ 15 := by
  have hmod : (2 ^ 31 * m + n) % 2 ^ 32 / 2 ^ 16 = (2 ^ 31 * m + n) / 2 ^ 16 % 2 ^ 16 :=
    Nat.mod_mul_right_div_self _ (2 ^ 16) (2 ^ 16)
  have hdiv : (2 ^ 31 * m + n) / 2 ^ 16 = 2 ^ 15 * m + n / 2 ^ 16 := by omega
  rw [hmod, hdiv, Nat.mod_mod_of_dvd _ (by decide), Nat.mul_add_mod]

/-- The highest bit of a seed does not count. -/
theorem fastrand_low (s : Nat) :
    (fastrand s).1 = (214013 * (s % 2 ^ 31) + 2531011) / 2 ^ 16 % 2 ^ 15 := by
  have hsplit : 214013 * s + 2531011 = 2 ^ 31 * (214013 * (s / 2 ^ 31)) +
      (214013 * (s % 2 ^ 31) + 2531011) := by
    omega
  change (214013 * s + 2531011) % 2 ^ 32 / 2 ^ 16 % 2 ^ 15 = _
  rw [hsplit, bits_add_high]

/-- **One draw attains every number of 15 bits.** -/
theorem fastrand_attains {b : Nat} (h : b < 2 ^ 15) : ∃ seed < 2 ^ 32, (fastrand seed).1 = b := by
  refine ⟨seedBefore (b * 2 ^ 16), seedBefore_lt _, ?_⟩
  rw [fastrand_fst, fastrand_seedBefore (by omega)]
  omega

/-- The low half of a seed decides the number that is drawn next; all are possible.  `2 ^ 31` is
`214013 * 10034 + 77206`, and one of five multiples of `77206` comes near enough to each
remainder. -/
theorem lowHalf_attains {y : Nat} (h : y < 2 ^ 15) :
    ∃ x < 2 ^ 16, (214013 * x + 2531011) / 2 ^ 16 % 2 ^ 15 = y := by
  obtain ⟨q, hq⟩ : ∃ q, q = (2 ^ 16 * (y + 2 ^ 15) - 2531011 + 214012) / 214013 := ⟨_, rfl⟩
  obtain ⟨r, hr⟩ : ∃ r, r = (2 ^ 16 * (y + 2 ^ 15) - 2531011 + 214012) % 214013 := ⟨_, rfl⟩
  have hhit : ∀ x j, x < 2 ^ 16 → 2 ^ 16 * (y + 2 ^ 15 * j) ≤ 214013 * x + 2531011 →
      214013 * x + 2531011 < 2 ^ 16 * (y + 2 ^ 15 * j) + 2 ^ 16 →
        ∃ x < 2 ^ 16, (214013 * x + 2531011) / 2 ^ 16 % 2 ^ 15 = y := by
    intro x j hx hlo hhi
    have hdiv : (214013 * x + 2531011) / 2 ^ 16 = y + 2 ^ 15 * j := by omega
    exact ⟨x, hx, by omega⟩
  have hcases : r < 59601 ∨ 53666 ≤ r ∧ r < 119202 ∨ 71271 ≤ r ∧ r < 136807 ∨
      130872 ≤ r ∧ r < 196408 ∨ 148477 ≤ r := by omega
  rcases hcases with h | h | h | h | h
  · exact hhit (q + 2 * 10034) 3 (by omega) (by omega) (by omega)
  · exact hhit (q + 4 * 10034 + 1) 5 (by omega) (by omega) (by omega)
  · exact hhit (q + 10034) 2 (by omega) (by omega) (by omega)
  · exact hhit (q + 3 * 10034 + 1) 4 (by omega) (by omega) (by omega)
  · exact hhit q 1 (by omega) (by omega) (by omega)

/-- The numbers of two draws: two numbers of 15 bits, 16 bits apart. -/
def pairOf (a b : Nat) : Nat := a * 2 ^ 16 + b

/-- **Two draws attain every pair of numbers of 15 bits.** -/
theorem vmRand32_attains {a b : Nat} (ha : a < 2 ^ 15) (hb : b < 2 ^ 15) :
    ∃ seed < 2 ^ 32, (vmRand32 seed).1 = pairOf a b := by
  obtain ⟨x, hx, hlow⟩ := lowHalf_attains (y := (b + 2 ^ 15 * 214013 - 214013 * a) % 2 ^ 15)
    (Nat.mod_lt _ (by decide))
  have hseed : a * 2 ^ 16 + x < 2 ^ 32 := by omega
  refine ⟨seedBefore (a * 2 ^ 16 + x), seedBefore_lt _, ?_⟩
  have hfirst : (a * 2 ^ 16 + x) / 2 ^ 16 % 2 ^ 15 = a := by omega
  have hsecond : (fastrand (a * 2 ^ 16 + x)).1 = b := by
    have hlow31 : (a * 2 ^ 16 + x) % 2 ^ 31 = a * 2 ^ 16 + x := by omega
    have hcarry : (214013 * (a * 2 ^ 16 + x) + 2531011) / 2 ^ 16 =
        214013 * a + (214013 * x + 2531011) / 2 ^ 16 := by omega
    rw [fastrand_low, hlow31, hcarry]
    generalize (214013 * x + 2531011) / 2 ^ 16 = y at hlow
    omega
  simp only [vmRand32, vmRand16]
  rw [fastrand_seedBefore hseed, fastrand_fst, fastrand_seedBefore hseed, hfirst, hsecond]
  simp only [pairOf]
  omega

theorem vmRand32_pair (seed : Nat) :
    ∃ a < 2 ^ 15, ∃ b < 2 ^ 15, (vmRand32 seed).1 = pairOf a b := by
  have ha := fastrand_lt seed
  have hb := fastrand_lt (fastrand seed).2
  refine ⟨_, ha, _, hb, ?_⟩
  simp only [vmRand32, vmRand16, pairOf]
  omega

/-- The largest number that `vm_rand64` returns. -/
def vmRand64Max : Nat := 0x7FFF7FFF67774351

theorem vmRand64_attains_max : (vmRand64 2425274879).1 = vmRand64Max := by decide

/-- The seeds before which two draws are both the largest: three, with either highest bit. -/
theorem seeds_of_largest {s : Nat} (ha : s / 2 ^ 16 % 2 ^ 15 = 2 ^ 15 - 1)
    (hb : (fastrand s).1 = 2 ^ 15 - 1) :
    s % 2 ^ 31 = 2147423430 ∨ s % 2 ^ 31 = 2147453533 ∨ s % 2 ^ 31 = 2147483636 := by
  rw [fastrand_low] at hb
  obtain ⟨q, hq⟩ : ∃ q, q = (214013 * (s % 2 ^ 31) + 2531011) / 2 ^ 16 / 2 ^ 15 := ⟨_, rfl⟩
  have hnext : (214013 * (s % 2 ^ 31) + 2531011) / 2 ^ 16 = 2 ^ 15 * q + (2 ^ 15 - 1) := by omega
  have hw : s % 2 ^ 31 / 2 ^ 16 = 2 ^ 15 - 1 :=
    (Nat.mod_mul_right_div_self s (2 ^ 16) (2 ^ 15)).trans ha
  clear hb ha hq
  generalize s % 2 ^ 31 = w at hnext hw
  have hlo : 214006 ≤ q := by omega
  have hhi : q ≤ 214014 := by omega
  interval_cases q <;> omega

theorem vmRand64_le (seed : Nat) : (vmRand64 seed).1 ≤ vmRand64Max := by
  have ha := fastrand_lt seed
  have hb := fastrand_lt (fastrand seed).2
  have hc := fastrand_lt (fastrand (fastrand seed).2).2
  have hd := fastrand_lt (fastrand (fastrand (fastrand seed).2).2).2
  by_cases hmax : (fastrand seed).1 = 2 ^ 15 - 1 ∧ (fastrand (fastrand seed).2).1 = 2 ^ 15 - 1
  · obtain ⟨ha', hb'⟩ := hmax
    have hs : (fastrand seed).2 < 2 ^ 32 := Nat.mod_lt _ (by decide)
    have hlast : (fastrand (fastrand (fastrand seed).2).2).1 ≤ 0x6777 ∧
        ((fastrand (fastrand (fastrand seed).2).2).1 = 0x6777 →
          (fastrand (fastrand (fastrand (fastrand seed).2).2).2).1 ≤ 0x4351) := by
      rw [fastrand_fst] at ha'
      generalize (fastrand seed).2 = s at hs ha' hb'
      simp only [fastrand]
      rcases seeds_of_largest ha' hb' with h | h | h <;> omega
    simp only [vmRand64, vmRand32, vmRand16, vmRand64Max]
    omega
  · simp only [vmRand64, vmRand32, vmRand16, vmRand64Max]
    omega

/-! ## 2. The value that a random op-code writes -/

/-- The value, for the bounds that are in the op-code. -/
def randValue (w : Width) (lo hi seed : Nat) : Nat :=
  (lo + (vmRand w seed).1 % randSpan w lo hi) % 256 ^ w.bytes

/-- A random op-code ends when its span is not empty, and then its variable has the value that its
seed decides. -/
theorem run_random_iff {w : Width} {off lo hi : Nat} {s : DpState} {P : Nat → Prop} :
    (∃ s', (DpOp.flowVar .RANDOM w off lo hi).run s = .ok s' ∧ P (s'.flowVar.load off w.bytes)) ↔
      randSpan w lo hi ≠ 0 ∧ P (randValue w lo hi (s.flowVar.load 0 4)) := by
  simp only [DpOp.run, DpOp.runRand]
  by_cases hspan : randSpan w lo hi = 0
  · simp [hspan, Except.map]
  · simp only [Except.map, randValue, ne_eq, hspan, not_false_eq_true, true_and]
    constructor
    · rintro ⟨s', hs', hP⟩
      cases hs'
      rwa [Mem.load_store] at hP
    · intro hP
      refine ⟨_, rfl, ?_⟩
      rwa [Mem.load_store]

/-- The state with another seed. -/
def DpState.withSeed (s : DpState) (seed : Nat) :
    DpState := { s with flowVar := s.flowVar.store 0 4 seed }

theorem DpState.load_withSeed (s : DpState) {seed : Nat} (h : seed < 2 ^ 32) :
    (s.withSeed seed).flowVar.load 0 4 = seed := by
  rw [DpState.withSeed, Mem.load_store]
  exact Nat.mod_eq_of_lt h

/-- Every seed that can be stored, or every state: the same. -/
theorem forall_seed_iff {P : Nat → Prop} :
    (∀ s : DpState, P (s.flowVar.load 0 4)) ↔ ∀ seed < 2 ^ 32, P seed := by
  constructor
  · intro h seed hseed
    have hs := h (DpState.withSeed ⟨fun _ => 0, fun _ => 0⟩ seed)
    rwa [DpState.load_withSeed _ hseed] at hs
  · exact fun h s => h _ (s.flowVar.load_lt 0 4)

/-! ## 3. Staying in range -/

/-- The bounds with which a random op-code stays in its range for every seed.  A bound that is too
large for the variable is cut in the op-code; the two 32-bit draws are the pairs of numbers of 15
bits. -/
def RandomInRange : Width → Nat → Nat → Prop
  | .w8, min, max => min ≤ max % 2 ^ 8
  | .w16, min, max => min ≤ max % 2 ^ 16 ∨ max % 2 ^ 16 + 1 < min ∧ min ≤ 2 ^ 15
  | .w32, min, max =>
    min ≤ max % 2 ^ 32 ∧ max % 2 ^ 32 + 1 ≠ min + 2 ^ 32 ∨
      max % 2 ^ 32 + 1 < min ∧ min < 2 ^ 32 ∧
        ∀ a < 2 ^ 15, ∀ b < 2 ^ 15, pairOf a b % (max % 2 ^ 32 + 2 ^ 32 + 1 - min) < 2 ^ 32 - min
  | .w64, min, max =>
    (max - min + 1) % 2 ^ 32 ≠ 0 ∧ ((max - min + 1) % 2 ^ 32 < 2 ^ 31 ∨ vmRand64Max ≤ max - min)

/-- Up to 32 bits: the bounds are in order in the op-code, or the draws never pass the end of the
type. -/
theorem narrow_in_range {W min max : Nat} (hW : 0 < W) (hW' : W ≤ 2 ^ 32) (hle : min ≤ max)
    (r : Nat → Nat) :
    (∀ seed < 2 ^ 32, (max % W + 2 ^ 32 - min % W + 1) % 2 ^ 32 ≠ 0 ∧
        min ≤ (min % W + r seed % ((max % W + 2 ^ 32 - min % W + 1) % 2 ^ 32)) % W ∧
        (min % W + r seed % ((max % W + 2 ^ 32 - min % W + 1) % 2 ^ 32)) % W ≤ max) ↔
      min ≤ max % W ∧ max % W + 1 ≠ min + 2 ^ 32 ∨
        max % W + 1 < min ∧ min < W ∧
          ∀ seed < 2 ^ 32, min ≤ (min + r seed % (max % W + 2 ^ 32 + 1 - min)) % W := by
  have hhi := Nat.mod_lt max hW
  have hhi' := Nat.mod_le max W
  by_cases hmin : min < W
  · rw [Nat.mod_eq_of_lt hmin]
    by_cases horder : min ≤ max % W
    · have hspan : (max % W + 2 ^ 32 - min + 1) % 2 ^ 32 = (max % W - min + 1) % 2 ^ 32 := by omega
      rw [hspan]
      constructor
      · intro h
        exact Or.inl ⟨horder, fun heq => (h 0 (by decide)).1 (by omega)⟩
      · rintro (⟨-, hne⟩ | ⟨hlt, -⟩) seed -
        · have hmod : (max % W - min + 1) % 2 ^ 32 = max % W - min + 1 :=
            Nat.mod_eq_of_lt (by omega)
          have hdraw := Nat.mod_lt (r seed) (show 0 < max % W - min + 1 by omega)
          rw [hmod]
          generalize r seed % (max % W - min + 1) = d at hdraw
          rw [Nat.mod_eq_of_lt (show min + d < W by omega)]
          omega
        · omega
    · have hspan : (max % W + 2 ^ 32 - min + 1) % 2 ^ 32 = if max % W + 1 = min then 0
          else max % W + 2 ^ 32 + 1 - min := by
        split <;> omega
      rw [hspan]
      constructor
      · intro h
        have hne : ¬ max % W + 1 = min := fun heq => (h 0 (by decide)).1 (if_pos heq)
        rw [if_neg hne] at h
        exact Or.inr ⟨by omega, hmin, fun seed hseed => (h seed hseed).2.1⟩
      · rintro (⟨hle', -⟩ | ⟨hlt, -, h⟩) seed hseed
        · omega
        · rw [if_neg (by omega)]
          have hv := Nat.mod_lt (min + r seed % (max % W + 2 ^ 32 + 1 - min)) hW
          have hbig : W ≤ max := by
            by_contra hsmall
            rw [Nat.mod_eq_of_lt (Nat.lt_of_not_le hsmall)] at hlt
            omega
          exact ⟨by omega, h seed hseed, by omega⟩
  · constructor
    · intro h
      have hv := Nat.mod_lt (min % W + r 0 % ((max % W + 2 ^ 32 - min % W + 1) % 2 ^ 32)) hW
      have := (h 0 (by decide)).2.1
      omega
    · rintro (⟨hle', -⟩ | ⟨-, hlt, -⟩) seed -
      · omega
      · omega

/-- **A random op-code stays in range, and does not divide by zero, exactly for these bounds.** -/
theorem randValue_in_range_iff (w : Width) {min max : Nat} (hle : min ≤ max) (hmax : max < 2 ^ 64) :
    (∀ seed < 2 ^ 32, randSpan w (min % 256 ^ w.bytes) (max % 256 ^ w.bytes) ≠ 0 ∧
        min ≤ randValue w (min % 256 ^ w.bytes) (max % 256 ^ w.bytes) seed ∧
        randValue w (min % 256 ^ w.bytes) (max % 256 ^ w.bytes) seed ≤ max) ↔
      RandomInRange w min max := by
  cases w with
  | w8 =>
    refine (narrow_in_range (W := 2 ^ 8) (by decide) (by decide) hle fun seed =>
      (vmRand .w8 seed).1).trans ?_
    simp only [RandomInRange]
    constructor
    · rintro (⟨h, -⟩ | ⟨hlt, hmin, h⟩)
      · exact h
      · -- the draw that takes the variable past the end of the type
        obtain ⟨seed, hseed, hdraw⟩ := fastrand_attains (b := 2 ^ 8 - min) (by omega)
        have hs := h seed hseed
        have hr : (vmRand .w8 seed).1 = 2 ^ 8 - min := hdraw
        rw [hr, Nat.mod_eq_of_lt (show 2 ^ 8 - min < max % 2 ^ 8 + 2 ^ 32 + 1 - min by omega)] at hs
        omega
    · intro h
      exact Or.inl ⟨h, by omega⟩
  | w16 =>
    refine (narrow_in_range (W := 2 ^ 16) (by decide) (by decide) hle fun seed =>
      (vmRand .w16 seed).1).trans ?_
    simp only [RandomInRange]
    constructor
    · rintro (⟨h, -⟩ | ⟨hlt, hmin, h⟩)
      · exact Or.inl h
      · refine Or.inr ⟨hlt, ?_⟩
        by_contra hbig
        obtain ⟨seed, hseed, hdraw⟩ := fastrand_attains (b := 2 ^ 16 - min) (by omega)
        have hs := h seed hseed
        have hr : (vmRand .w16 seed).1 = 2 ^ 16 - min := hdraw
        rw [hr, Nat.mod_eq_of_lt (show 2 ^ 16 - min < max % 2 ^ 16 + 2 ^ 32 + 1 - min by omega)]
          at hs
        omega
    · rintro (h | ⟨hlt, hmin⟩)
      · exact Or.inl ⟨h, by omega⟩
      · refine Or.inr ⟨hlt, by omega, fun seed _ => ?_⟩
        have hr : (vmRand .w16 seed).1 < 2 ^ 15 := fastrand_lt seed
        rw [Nat.mod_eq_of_lt (show (vmRand .w16 seed).1 < _ by omega), Nat.mod_eq_of_lt (by omega)]
        omega
  | w32 =>
    refine (narrow_in_range (W := 2 ^ 32) (by decide) (by decide) hle fun seed =>
      (vmRand .w32 seed).1).trans ?_
    simp only [RandomInRange]
    refine or_congr Iff.rfl (and_congr_right fun hlt => and_congr_right fun hmin => ?_)
    have hspan : 0 < max % 2 ^ 32 + 2 ^ 32 + 1 - min := by omega
    constructor
    · intro h a ha b hb
      obtain ⟨seed, hseed, hdraw⟩ := vmRand32_attains ha hb
      have hs := h seed hseed
      have hr : (vmRand .w32 seed).1 = pairOf a b := hdraw
      rw [hr] at hs
      have hlt' := Nat.mod_lt (pairOf a b) hspan
      generalize pairOf a b % (max % 2 ^ 32 + 2 ^ 32 + 1 - min) = d at hs hlt'
      omega
    · intro h seed _
      obtain ⟨a, ha, b, hb, hdraw⟩ := vmRand32_pair seed
      have hr : (vmRand .w32 seed).1 = pairOf a b := hdraw
      have hs := h a ha b hb
      rw [hr, Nat.mod_eq_of_lt (by omega)]
      omega
  | w64 =>
    have hlo : min % 2 ^ 64 = min := Nat.mod_eq_of_lt (by omega)
    have hhi : max % 2 ^ 64 = max := Nat.mod_eq_of_lt hmax
    have hlow : (max + 2 ^ 64 - min + 1) % 2 ^ 32 = (max - min + 1) % 2 ^ 32 := by omega
    have hsize : (256 : Nat) ^ Width.w64.bytes = 2 ^ 64 := by decide
    simp only [hsize, hlo, hhi, RandomInRange, randValue, randSpan, hlow]
    by_cases hsmall : (max - min + 1) % 2 ^ 32 < 2 ^ 31
    · simp only [hsmall, if_true, true_or, and_true]
      constructor
      · exact fun h => (h 0 (by decide)).1
      · intro hne seed _
        have hd := Nat.mod_lt (vmRand .w64 seed).1 (Nat.pos_of_ne_zero hne)
        have hle' := Nat.mod_le (max - min + 1) (2 ^ 32)
        generalize (vmRand .w64 seed).1 % ((max - min + 1) % 2 ^ 32) = d at hd
        rw [Nat.mod_eq_of_lt (show min + d < 2 ^ 64 by omega)]
        omega
    · -- the modulus is larger than every number that is drawn
      have hdraw : ∀ seed, (vmRand .w64 seed).1 % ((max - min + 1) % 2 ^ 32 + (2 ^ 64 - 2 ^ 32)) =
          (vmRand .w64 seed).1 := by
        intro seed
        have hle' : (vmRand .w64 seed).1 ≤ vmRand64Max := vmRand64_le seed
        simp only [vmRand64Max] at hle'
        exact Nat.mod_eq_of_lt (by omega)
      simp only [hsmall, if_false, hdraw, false_or]
      constructor
      · intro h
        have hs := h 2425274879 (by decide)
        have hr : (vmRand .w64 2425274879).1 = vmRand64Max := vmRand64_attains_max
        rw [hr] at hs
        simp only [vmRand64Max] at hs ⊢
        omega
      · rintro ⟨hne, hbig⟩ seed _
        have hle' : (vmRand .w64 seed).1 ≤ vmRand64Max := vmRand64_le seed
        generalize (vmRand .w64 seed).1 = d at hle'
        rw [Nat.mod_eq_of_lt (show min + d < 2 ^ 64 by omega)]
        omega

/-! ## 4. Compiled programs -/

/-- The op-code that a program has for a flow variable instruction, and the place of its
variable. -/
structure FlowMan.IsOp (i : FlowMan) (c : CompiledVm) (w : Width) (off : Nat) : Prop where
  width : Width.ofSize i.sizeBytes.toNat = some w
  lookup : c.table.varLookup i.varName = some ⟨off, i.sizeBytes.toNat⟩
  mem : DpOp.flowVar i.op w off i.lo i.hi ∈ commandsOf c.program

theorem mem_buildCommands {t : VarTable} {pktSize : Nat} {inst : Instr} : ∀ {insts : List Instr}
    {insId cnt : Nat} {ops : List DpOp}, buildCommands t pktSize insId insts = .ok (cnt, ops) →
      inst ∈ insts →
      ∃ insId' cnt' ops', buildCommand t pktSize insId' inst = .ok (cnt', ops') ∧
        ∀ o ∈ ops', o ∈ ops
  | [], _, _, _, _, hi => absurd hi (List.not_mem_nil)
  | inst' :: rest, insId, cnt, ops, hb, hi => by
    obtain ⟨⟨c1, ops1⟩, hb1, hb⟩ := bind_eq_ok hb
    obtain ⟨⟨c2, ops2⟩, hb2, hb⟩ := bind_eq_ok hb
    cases hb
    rcases List.mem_cons.mp hi with rfl | hi
    · exact ⟨insId, c1, ops1, hb1, fun o ho => List.mem_append_left _ ho⟩
    · obtain ⟨insId', cnt', ops', hb', hsub⟩ := mem_buildCommands hb2 hi
      exact ⟨insId', cnt', ops', hb', fun o ho => List.mem_append_right _ (hsub o ho)⟩

theorem isOp_of_compile {rand : Nat} {insts : List Instr} {pktLen : UInt16} {c : CompiledVm}
    (hc : compile rand insts pktLen = .ok (some c)) {i : FlowMan} (hi : Instr.flowMan i ∈ insts) :
    ∃ w off, i.IsOp c w off := by
  obtain ⟨ops, hp⟩ := passed_of_compile hc
  obtain ⟨off, w, hr, hoff, hw⟩ := lookup_flowMan hp.table hi
  obtain ⟨insId, cnt, ops', hb, hsub⟩ := mem_buildCommands hp.commands hi
  have hops := buildCommand_flowMan hr hoff hw hb
  refine ⟨w, off, hw, hr, ?_⟩
  rw [hp.program, commandsOf_bytes (fits_buildCommands hp.commands)]
  exact hsub _ (by rw [hops]; exact List.mem_singleton.mpr rfl)

theorem FlowMan.IsOp.lo_hi {i : FlowMan} {c : CompiledVm} {w : Width} {off : Nat}
    (h : i.IsOp c w off) :
    i.lo = i.minValue.toNat % 256 ^ w.bytes ∧ i.hi = i.maxValue.toNat % 256 ^ w.bytes := by
  rw [ofSize_bytes h.width]
  exact ⟨rfl, rfl⟩

/-- **The op-code of an accepted random instruction stays in the instruction's range, whatever the
seed, and never divides by zero, exactly for the bounds of `RandomInRange`.**  The seed of a state
is any number (`forall_seed_iff`), so it is the span that decides. -/
theorem random_in_range_iff (rand : Nat) (insts : List Instr) (pktLen : UInt16) (c : CompiledVm)
    (hc : compile rand insts pktLen = .ok (some c)) (i : FlowMan) (hi : Instr.flowMan i ∈ insts)
    (hop : i.op = .RANDOM) (hle : i.minValue ≤ i.maxValue) :
    ∃ w off, i.IsOp c w off ∧
      ((∀ s, ∃ s', (DpOp.flowVar i.op w off i.lo i.hi).run s = .ok s' ∧
          i.minValue.toNat ≤ s'.flowVar.load off w.bytes ∧
            s'.flowVar.load off w.bytes ≤ i.maxValue.toNat) ↔
        RandomInRange w i.minValue.toNat i.maxValue.toNat) := by
  obtain ⟨w, off, hisOp⟩ := isOp_of_compile hc hi
  refine ⟨w, off, hisOp, ?_⟩
  obtain ⟨hlo, hhi⟩ := hisOp.lo_hi
  rw [← randValue_in_range_iff w (UInt64.le_iff_toNat_le.mp hle) i.maxValue.toNat_lt, ← hlo, ← hhi,
    hop]
  simp only [run_random_iff (P := fun v => i.minValue.toNat ≤ v ∧ v ≤ i.maxValue.toNat)]
  exact forall_seed_iff (P := fun seed => randSpan w i.lo i.hi ≠ 0 ∧
    i.minValue.toNat ≤ randValue w i.lo i.hi seed ∧ randValue w i.lo i.hi seed ≤ i.maxValue.toNat)

/-- A random byte between 10 and 20. -/
def randomByte : List Instr := [.flowMan ⟨"var1", 1, .RANDOM, 10, 10, 20⟩]

theorem random_in_range_byte : ∃ c, compile 1 randomByte 64 = .ok (some c) ∧
    ∃ w off, FlowMan.IsOp ⟨"var1", 1, .RANDOM, 10, 10, 20⟩ c w off ∧
      ∀ s, ∃ s', (DpOp.flowVar .RANDOM w off 10 20).run s = .ok s' ∧
        10 ≤ s'.flowVar.load off w.bytes ∧ s'.flowVar.load off w.bytes ≤ 20 := by
  refine ⟨_, rfl, ?_⟩
  obtain ⟨w, off, hisOp, hiff⟩ :=
    random_in_range_iff 1 randomByte 64 _ rfl ⟨"var1", 1, .RANDOM, 10, 10, 20⟩
    (List.mem_singleton.mpr rfl) rfl (by decide)
  obtain rfl : Width.w8 = w := Option.some.inj hisOp.width
  exact ⟨_, off, hisOp, hiff.mpr (show 10 ≤ 20 % 2 ^ 8 by decide)⟩

/-- A random variable over all numbers of 32 bits divides by zero. -/
theorem random_whole_range : ∃ c, compile 1 wholeRange 64 = .ok (some c) ∧
    DpOp.flowVar .RANDOM .w32 4 0 0xFFFFFFFF ∈ commandsOf c.program ∧
      ∀ s, (DpOp.flowVar .RANDOM .w32 4 0 0xFFFFFFFF).run s = .error .divByZero := by
  refine ⟨_, rfl, by decide +kernel, fun s => ?_⟩
  have hzero : randSpan .w32 0 0xFFFFFFFF = 0 := by decide
  simp only [DpOp.run, DpOp.runRand, hzero, if_true]
  rfl

end Trex.Vm
