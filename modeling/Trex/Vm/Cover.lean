/-
# Which values the random op-codes write

The value that `run_rand` writes is a remainder modulo the size of the range, so every value is
written if the draws have every remainder (`random_covers`).

* One draw has 15 bits, which is enough for one byte, and for half of two.
* The numbers of `vm_rand32` are those below `2 ^ 31` whose bit 15 is not set, a comb (`Lib.Comb`):
  for which sizes they have every remainder is a matter of its gaps.
* The four draws of `vm_rand64` come from one seed of 32 bits.  The last one has every remainder
  modulo a power of two; for the small sizes the successive numbers of the generator are gone
  through (`drawsCover`).  No number has the bit 15, which is all that is known against larger
  sizes.
-/
import Mathlib.Data.Nat.Bitwise
import Trex.Lib.Comb
import Trex.Vm.Random

namespace Trex.Vm

open Trex.Lib Trex.Net

/-! ## 1. The bounds -/

/-- The number of values of a range. -/
def rangeSize (min max : Nat) : Nat := max - min + 1

/-- Bounds with which every value of the range is written from some seed. -/
def RandomCovers : Width → Nat → Nat → Prop
  | .w8, _, max => max < 2 ^ 8
  | .w16, min, max => max < 2 ^ 16 ∧ rangeSize min max ≤ 2 ^ 15
  | .w32, min, max => max < 2 ^ 32 ∧ Comb.HasRoom (2 ^ 15) (rangeSize min max)
  | .w64, min, max => rangeSize min max ∣ 2 ^ 15 ∨ rangeSize min max ≤ 128

/-- Bounds without which some value is never written.  Up to four bytes they are the same. -/
def RandomMayCover : Width → Nat → Nat → Prop
  | .w64, min, max => rangeSize min max < 2 ^ 31 ∧ ¬ 2 ^ 16 ∣ rangeSize min max
  | w, min, max => RandomCovers w min max

instance (w : Width) (min max : Nat) : Decidable (RandomCovers w min max) :=
  match w with
  | .w8 => inferInstanceAs (Decidable (max < 2 ^ 8))
  | .w16 => inferInstanceAs (Decidable (max < 2 ^ 16 ∧ rangeSize min max ≤ 2 ^ 15))
  | .w32 => inferInstanceAs (Decidable (max < 2 ^ 32 ∧ Comb.HasRoom (2 ^ 15) (rangeSize min max)))
  | .w64 => inferInstanceAs (Decidable (rangeSize min max ∣ 2 ^ 15 ∨ rangeSize min max ≤ 128))

/-- The draws have every remainder. -/
def Attains (r : Nat → Nat) (n : Nat) : Prop := ∀ d < n, ∃ seed < 2 ^ 32, r seed % n = d

variable {n : Nat} {w : Width}

/-- Draws that attain all numbers below `n` attain the remainders. -/
theorem attains_of_draws {r : Nat → Nat} (h : ∀ d < n, ∃ seed < 2 ^ 32, r seed = d) :
    Attains r n := by
  intro d hd
  obtain ⟨seed, hseed, hdraw⟩ := h d hd
  exact ⟨seed, hseed, by rw [hdraw, Nat.mod_eq_of_lt hd]⟩

/-! ## 2. Two draws -/

/-- The numbers of two draws are the comb with teeth of 15 bits. -/
theorem on_comb_iff {x : Nat} :
    Comb.On (2 ^ 15) x ↔ ∃ a < 2 ^ 15, ∃ b < 2 ^ 15, x = pairOf a b := by
  unfold Comb.On pairOf
  constructor
  · rintro ⟨hlt, hplace⟩
    exact ⟨x / 2 ^ 16, by omega, x % 2 ^ 16, by omega, by omega⟩
  · rintro ⟨a, ha, b, hb, rfl⟩
    omega

/-- **Two draws have every remainder exactly if the comb has.** -/
theorem attains_vmRand32_iff (hn : 0 < n) :
    Attains (fun seed => (vmRand32 seed).1) n ↔ Comb.HasRoom (2 ^ 15) n := by
  rw [← Comb.covers_iff (by decide) hn]
  constructor
  · intro h d hd
    obtain ⟨seed, -, hdraw⟩ := h d hd
    obtain ⟨a, ha, b, hb, hpair⟩ := vmRand32_pair seed
    exact ⟨_, on_comb_iff.mpr ⟨a, ha, b, hb, hpair⟩, hdraw⟩
  · intro h d hd
    obtain ⟨x, hon, hmod⟩ := h d hd
    obtain ⟨a, ha, b, hb, rfl⟩ := on_comb_iff.mp hon
    obtain ⟨seed, hseed, hdraw⟩ := vmRand32_attains ha hb
    refine ⟨seed, hseed, ?_⟩
    dsimp only
    rw [hdraw, hmod]

/-! ## 3. Four draws -/

/-- The number that is drawn from the next seed: the first draw is gone, and there is a new last
one. -/
theorem vmRand64_next (seed : Nat) :
    vmRand64 (fastrand seed).2 =
      ((vmRand64 seed).1 % 2 ^ 48 * 2 ^ 16 + (fastrand (vmRand64 seed).2).1,
      (fastrand (vmRand64 seed).2).2) := by
  have ha := fastrand_lt seed
  have hb := fastrand_lt (fastrand seed).2
  have hc := fastrand_lt (fastrand (fastrand seed).2).2
  have hd := fastrand_lt (fastrand (fastrand (fastrand seed).2).2).2
  have he := fastrand_lt (fastrand (fastrand (fastrand (fastrand seed).2).2).2).2
  simp only [vmRand64, vmRand32, vmRand16, Prod.mk.injEq, and_true]
  omega

/-- The last draw is what a number is modulo a power of two, and it can be any number of 15 bits. -/
theorem attains_of_dvd (hn : n ∣ 2 ^ 15) : Attains (fun seed => (vmRand64 seed).1) n := by
  intro d hd
  have hle : n ≤ 2 ^ 15 := Nat.le_of_dvd (by decide) hn
  -- four steps before the seed after which `d` is drawn
  obtain ⟨last, hlast, hdraw⟩ := fastrand_attains (b := d) (by omega)
  refine ⟨seedBefore (seedBefore (seedBefore last)), seedBefore_lt _, ?_⟩
  have hlow : (vmRand64 (seedBefore (seedBefore (seedBefore last)))).1 % 2 ^ 15 = d := by
    simp only [vmRand64, vmRand32, vmRand16, fastrand_seedBefore (seedBefore_lt _),
      fastrand_seedBefore hlast, hdraw]
    omega
  dsimp only
  rw [← Nat.mod_mod_of_dvd _ hn, hlow, Nat.mod_eq_of_lt hd]

/-- `f x`, where `x` is evaluated first. -/
def evaluated {α : Type} (x : Nat) (f : Nat → α) : α :=
  match x with
  | 0 => f 0
  | k + 1 => f (k + 1)

theorem evaluated_eq {α : Type} (x : Nat) (f : Nat → α) : evaluated x f = f x := by
  cases x <;> rfl

/-- `fuel` successive numbers have every remainder modulo `n`: `r` was drawn last and left `seed`,
and the bits of `mask` are the remainders that were met. -/
def drawsCover (n : Nat) : Nat → Nat → Nat → Nat → Bool
  | 0, _, _, _ => false
  | fuel + 1, seed, r, mask =>
    Nat.beq mask (2 ^ n - 1) ||
      evaluated (fastrand seed).2 fun seed =>
        evaluated (r % 2 ^ 48 * 2 ^ 16 + seed / 2 ^ 16 % 2 ^ 15) fun r =>
          evaluated (mask ||| 2 ^ (r % n)) fun mask => drawsCover n fuel seed r mask

/-- What was met can be drawn. -/
theorem attains_of_drawsCover {fuel : Nat} : ∀ {start seed r mask : Nat}, start < 2 ^ 32 →
    vmRand64 start = (r, seed) →
    (∀ d, mask.testBit d = true → ∃ s < 2 ^ 32, (vmRand64 s).1 % n = d) →
    drawsCover n fuel seed r mask = true → Attains (fun seed => (vmRand64 seed).1) n := by
  induction fuel with
  | zero => intro start seed r mask _ _ _ h; cases h
  | succ fuel ih =>
    intro start seed r mask hstart hdrawn hmask h
    rw [drawsCover, Bool.or_eq_true, Nat.beq_eq] at h
    rcases h with hfull | h
    · intro d hd
      refine hmask d ?_
      rw [hfull, Nat.testBit_two_pow_sub_one]
      exact decide_eq_true hd
    · simp only [evaluated_eq] at h
      have hnext := vmRand64_next start
      rw [hdrawn] at hnext
      refine ih (Nat.mod_lt _ (by decide)) hnext (fun d hd => ?_) h
      rw [Nat.testBit_or, Nat.testBit_two_pow, Bool.or_eq_true, decide_eq_true_eq] at hd
      rcases hd with hd | hd
      · exact hmask d hd
      · refine ⟨(fastrand start).2, Nat.mod_lt _ (by decide), ?_⟩
        rw [hnext]
        exact hd

/-- All moduli up to `bound` are covered by the numbers after the seed 0. -/
def allCover : Nat → Bool
  | 0 => true
  | n + 1 => drawsCover (n + 1) 1000 (vmRand64 0).2 (vmRand64 0).1 0 && allCover n

theorem attains_of_allCover {bound : Nat} (h : allCover bound = true) :
    ∀ n, 0 < n → n ≤ bound → Attains (fun seed => (vmRand64 seed).1) n := by
  induction bound with
  | zero => intro n hpos hle; omega
  | succ bound ih =>
    intro n hpos hle
    rw [allCover, Bool.and_eq_true] at h
    rcases Nat.lt_or_ge bound n with hlt | hle'
    · obtain rfl : n = bound + 1 := by omega
      refine attains_of_drawsCover (Nat.two_pow_pos 32) rfl (fun d hd => ?_) h.1
      rw [Nat.zero_testBit] at hd
      cases hd
    · exact ih h.2 n hpos hle'

/-- **Four draws have every remainder modulo a small number.** -/
theorem attains_of_le (hpos : 0 < n) (hle : n ≤ 128) :
    Attains (fun seed => (vmRand64 seed).1) n :=
  attains_of_allCover (by decide +kernel) n hpos hle

/-- No number has the bit 15, so a modulus that keeps this bit is not covered. -/
theorem not_attains_of_dvd (hpos : 0 < n) (hdvd : 2 ^ 16 ∣ n) :
    ¬ Attains (fun seed => (vmRand64 seed).1) n := by
  intro h
  have hle : 2 ^ 16 ≤ n := Nat.le_of_dvd hpos hdvd
  obtain ⟨seed, -, hmod⟩ := h (2 ^ 15) (by omega)
  have hlow : (vmRand64 seed).1 % 2 ^ 16 < 2 ^ 15 := by
    have hd := fastrand_lt (fastrand (fastrand (fastrand seed).2).2).2
    simp only [vmRand64, vmRand32, vmRand16]
    omega
  have hbit : (vmRand64 seed).1 % 2 ^ 16 = 2 ^ 15 := by
    rw [← Nat.mod_mod_of_dvd _ hdvd]
    exact congrArg (· % 2 ^ 16) hmod
  omega

/-! ## 4. The value that a random op-code writes -/

/-- Up to 32 bits: the draws have every remainder. -/
theorem narrow_covers {W min max : Nat} (hW : 0 < W) (hW' : W ≤ 2 ^ 32) (hle : min ≤ max)
    (r : Nat → Nat) :
    (∀ v, min ≤ v → v ≤ max → ∃ seed < 2 ^ 32, (max % W + 2 ^ 32 - min % W + 1) % 2 ^ 32 ≠ 0 ∧
        (min % W + r seed % ((max % W + 2 ^ 32 - min % W + 1) % 2 ^ 32)) % W = v) ↔
      max < W ∧ max - min + 1 ≠ 2 ^ 32 ∧ Attains r (max - min + 1) := by
  by_cases hfits : max < W
  · rw [Nat.mod_eq_of_lt hfits, Nat.mod_eq_of_lt (show min < W by omega)]
    have hspan : (max + 2 ^ 32 - min + 1) % 2 ^ 32 = if max - min + 1 = 2 ^ 32 then 0
        else max - min + 1 := by
      split <;> omega
    rw [hspan]
    by_cases hwhole : max - min + 1 = 2 ^ 32
    · simp only [hwhole, if_true, ne_eq, not_true_eq_false, false_and, and_false, exists_false,
        iff_false]
      exact fun h => h min (le_refl _) hle
    · simp only [hfits, hwhole, if_false, ne_eq, not_false_eq_true, true_and]
      -- the value is the draw's remainder, above the lower bound
      have hvalue : ∀ seed, (min + r seed % (max - min + 1)) % W = min +
          r seed % (max - min + 1) := by
        intro seed
        have hd := Nat.mod_lt (r seed) (show 0 < max - min + 1 by omega)
        exact Nat.mod_eq_of_lt (by omega)
      simp only [hvalue]
      constructor
      · intro h d hd
        obtain ⟨seed, hseed, -, hv⟩ := h (min + d) (by omega) (by omega)
        exact ⟨seed, hseed, by omega⟩
      · intro h v hlo hhi
        obtain ⟨seed, hseed, hd⟩ := h (v - min) (by omega)
        exact ⟨seed, hseed, by omega, by omega⟩
  · simp only [hfits, false_and, iff_false]
    intro h
    obtain ⟨seed, -, -, hv⟩ := h max hle (le_refl _)
    have := Nat.mod_lt (min % W + r seed % ((max % W + 2 ^ 32 - min % W + 1) % 2 ^ 32)) hW
    omega

/-- The bit 15 of a number of 64 bits is never set. -/
theorem vmRand64_ne (seed : Nat) : (vmRand64 seed).1 ≠ 2 ^ 15 := by
  obtain ⟨a, ha, b, hb, hhi⟩ := vmRand32_pair seed
  obtain ⟨c, hc, d, hd, hlo⟩ := vmRand32_pair (vmRand32 seed).2
  simp only [vmRand64, hhi, hlo, pairOf]
  omega

/-- Every value of a range is written from some seed, by the op-code with these bounds. -/
def RandWrites (w : Width) (min max : Nat) : Prop :=
  ∀ v, min ≤ v → v ≤ max → ∃ seed < 2 ^ 32,
    randSpan w (min % 256 ^ w.bytes) (max % 256 ^ w.bytes) ≠ 0 ∧
      randValue w (min % 256 ^ w.bytes) (max % 256 ^ w.bytes) seed = v

theorem randWrites_w8_iff {min max : Nat} (hle : min ≤ max) :
    RandWrites .w8 min max ↔ RandomCovers .w8 min max := by
  refine (narrow_covers (W := 2 ^ 8) (by decide) (by decide) hle fun seed =>
    (vmRand .w8 seed).1).trans ?_
  constructor
  · exact fun h => h.1
  · intro (h : max < 2 ^ 8)
    refine ⟨h, by omega, attains_of_draws fun d hd => ?_⟩
    exact fastrand_attains (by omega)

theorem randWrites_w16_iff {min max : Nat} (hle : min ≤ max) :
    RandWrites .w16 min max ↔ RandomCovers .w16 min max := by
  refine (narrow_covers (W := 2 ^ 16) (by decide) (by decide) hle fun seed =>
    (vmRand .w16 seed).1).trans ?_
  simp only [RandomCovers, rangeSize]
  constructor
  · rintro ⟨hfits, -, h⟩
    refine ⟨hfits, ?_⟩
    by_contra hbig
    obtain ⟨seed, -, hd⟩ := h (2 ^ 15) (by omega)
    have hd : (vmRand .w16 seed).1 % (max - min + 1) = 2 ^ 15 := hd
    have hr : (vmRand .w16 seed).1 < 2 ^ 15 := fastrand_lt seed
    have := Nat.mod_le (vmRand .w16 seed).1 (max - min + 1)
    omega
  · rintro ⟨hfits, hsmall⟩
    refine ⟨hfits, by omega, attains_of_draws fun d hd => ?_⟩
    exact fastrand_attains (by omega)

theorem randWrites_w32_iff {min max : Nat} (hle : min ≤ max) :
    RandWrites .w32 min max ↔ RandomCovers .w32 min max := by
  refine (narrow_covers (W := 2 ^ 32) (by decide) (by decide) hle fun seed =>
    (vmRand .w32 seed).1).trans ?_
  have hattains := attains_vmRand32_iff (n := max - min + 1) (Nat.succ_pos _)
  refine and_congr_right fun hfits =>
    Iff.trans ⟨fun h => hattains.mp h.2, fun h => ⟨?_, hattains.mpr h⟩⟩ Iff.rfl
  -- of all numbers the one with the bit 15 alone is missing
  intro hwhole
  rw [hwhole] at h
  exact absurd h (by decide)

/-- For eight bytes the size of the range is cut to 32 bits, and the values to what the draws
have. -/
theorem randWrites_w64_iff {min max : Nat} (hle : min ≤ max) (hmax : max < 2 ^ 64) :
    RandWrites .w64 min max ↔
      rangeSize min max < 2 ^ 31 ∧ Attains (fun seed => (vmRand64 seed).1) (rangeSize min max) := by
  have hlo : min % 2 ^ 64 = min := Nat.mod_eq_of_lt (by omega)
  have hhi : max % 2 ^ 64 = max := Nat.mod_eq_of_lt hmax
  have hlow : (max + 2 ^ 64 - min + 1) % 2 ^ 32 = (max - min + 1) % 2 ^ 32 := by omega
  have hsize : (256 : Nat) ^ Width.w64.bytes = 2 ^ 64 := by decide
  simp only [hsize, hlo, hhi, RandWrites, rangeSize, Attains, randValue, randSpan, hlow]
  by_cases hsmall : max - min + 1 < 2 ^ 31
  · have hmod : (max - min + 1) % 2 ^ 32 = max - min + 1 := Nat.mod_eq_of_lt (by omega)
    have hvalue : ∀ seed, (min + (vmRand .w64 seed).1 % (max - min + 1)) % 2 ^ 64 =
        min + (vmRand .w64 seed).1 % (max - min + 1) := by
      intro seed
      have hd := Nat.mod_lt (vmRand .w64 seed).1 (show 0 < max - min + 1 by omega)
      exact Nat.mod_eq_of_lt (by omega)
    simp only [hmod, hsmall, if_true, hvalue, true_and]
    constructor
    · intro h d hd
      obtain ⟨seed, hseed, -, hv⟩ := h (min + d) (by omega) (by omega)
      have hr : (vmRand64 seed).1 % (max - min + 1) = d := by
        change (vmRand .w64 seed).1 % (max - min + 1) = d
        omega
      exact ⟨seed, hseed, hr⟩
    · intro h v hv hv'
      obtain ⟨seed, hseed, hd⟩ := h (v - min) (by omega)
      have hr : (vmRand .w64 seed).1 % (max - min + 1) = v - min := hd
      exact ⟨seed, hseed, by omega, by omega⟩
  · simp only [hsmall, false_and, iff_false]
    intro h
    by_cases hcut : (max - min + 1) % 2 ^ 32 < 2 ^ 31
    · -- the remainders stop below the cut size
      simp only [if_pos hcut] at h
      obtain ⟨seed, -, hne, hv⟩ := h (min + (max - min + 1) % 2 ^ 32) (by omega) (by omega)
      have hd := Nat.mod_lt (vmRand .w64 seed).1 (Nat.pos_of_ne_zero hne)
      generalize (vmRand .w64 seed).1 % ((max - min + 1) % 2 ^ 32) = d at hd hv
      rw [Nat.mod_eq_of_lt (show min + d < 2 ^ 64 by omega)] at hv
      omega
    · simp only [if_neg hcut] at h
      obtain ⟨seed, -, -, hv⟩ := h (min + 2 ^ 15) (by omega) (by omega)
      have hle' : (vmRand .w64 seed).1 ≤ vmRand64Max := vmRand64_le seed
      have hne : (vmRand .w64 seed).1 ≠ 2 ^ 15 := vmRand64_ne seed
      simp only [vmRand64Max] at hle'
      generalize (vmRand .w64 seed).1 = r at hle' hne hv
      rw [Nat.mod_eq_of_lt (show r < (max - min + 1) % 2 ^ 32 + (2 ^ 64 - 2 ^ 32) by omega)] at hv
      omega

/-- **Which ranges a random op-code writes in full.** -/
theorem randWrites_of_covers {min max : Nat} (hle : min ≤ max) (hmax : max < 2 ^ 64)
    (h : RandomCovers w min max) : RandWrites w min max := by
  cases w with
  | w8 => exact (randWrites_w8_iff hle).mpr h
  | w16 => exact (randWrites_w16_iff hle).mpr h
  | w32 => exact (randWrites_w32_iff hle).mpr h
  | w64 =>
    refine (randWrites_w64_iff hle hmax).mpr ?_
    rcases h with hdvd | hsmall
    · have hsize : rangeSize min max ≤ 2 ^ 15 := Nat.le_of_dvd (by decide) hdvd
      exact ⟨by omega, attains_of_dvd hdvd⟩
    · exact ⟨by omega, attains_of_le (Nat.succ_pos _) hsmall⟩

/-- **What a range must be like to be written in full.** -/
theorem RandWrites.mayCover {min max : Nat} (hle : min ≤ max) (hmax : max < 2 ^ 64)
    (h : RandWrites w min max) : RandomMayCover w min max := by
  cases w with
  | w8 => exact (randWrites_w8_iff hle).mp h
  | w16 => exact (randWrites_w16_iff hle).mp h
  | w32 => exact (randWrites_w32_iff hle).mp h
  | w64 =>
    obtain ⟨hlt, hattains⟩ := (randWrites_w64_iff hle hmax).mp h
    exact ⟨hlt, fun hdvd => not_attains_of_dvd (Nat.succ_pos _) hdvd hattains⟩

/-! ## 5. Compiled programs -/

/-- Each value of the range of an instruction is written by the next execution of its op-code from
some seed. -/
def FlowMan.WritesAll (i : FlowMan) (w : Width) (off : Nat) : Prop :=
  ∀ (s : DpState) (v : Nat), i.minValue.toNat ≤ v → v ≤ i.maxValue.toNat → ∃ seed < 2 ^ 32, ∃ s',
    (DpOp.flowVar i.op w off i.lo i.hi).run (s.withSeed seed) = .ok s' ∧
      s'.flowVar.load off w.bytes = v

/-- What an op-code writes is decided by the seed and the bounds that are in it. -/
theorem FlowMan.IsOp.writesAll_iff {i : FlowMan} {c : CompiledVm} {off : Nat} (h : i.IsOp c w off)
    (hop : i.op = .RANDOM) :
    i.WritesAll w off ↔ RandWrites w i.minValue.toNat i.maxValue.toNat := by
  obtain ⟨hlo, hhi⟩ := h.lo_hi
  unfold FlowMan.WritesAll RandWrites
  rw [← hlo, ← hhi, hop]
  constructor
  · intro h v hv hv'
    obtain ⟨seed, hseed, hrun⟩ := h ⟨fun _ => 0, fun _ => 0⟩ v hv hv'
    have hval := (run_random_iff (P := fun x => x = v)).mp hrun
    rw [DpState.load_withSeed _ hseed] at hval
    exact ⟨seed, hseed, hval⟩
  · intro h s v hv hv'
    obtain ⟨seed, hseed, hval⟩ := h v hv hv'
    rw [← DpState.load_withSeed s hseed] at hval
    exact ⟨seed, hseed, (run_random_iff (P := fun x => x = v)).mpr hval⟩

/-- **Which random variables cover their range.**  Every value of the range of an accepted random
instruction is written by the next execution of its op-code from some seed, if its bounds are those
of `RandomCovers`, and only if they are those of `RandomMayCover`.  Up to four bytes the two are the
same. -/
theorem random_covers (rand : Nat) (insts : List Instr) (pktLen : UInt16) (c : CompiledVm)
    (hc : compile rand insts pktLen = .ok (some c)) (i : FlowMan) (hi : Instr.flowMan i ∈ insts)
    (hop : i.op = .RANDOM) (hle : i.minValue ≤ i.maxValue) :
    ∃ w off, i.IsOp c w off ∧
      (RandomCovers w i.minValue.toNat i.maxValue.toNat → i.WritesAll w off) ∧
      (i.WritesAll w off → RandomMayCover w i.minValue.toNat i.maxValue.toNat) := by
  obtain ⟨w, off, hisOp⟩ := isOp_of_compile hc hi
  have hle' := UInt64.le_iff_toNat_le.mp hle
  refine ⟨w, off, hisOp, fun h => ?_, fun h => ?_⟩
  · exact (hisOp.writesAll_iff hop).mpr (randWrites_of_covers hle' i.maxValue.toNat_lt h)
  · exact ((hisOp.writesAll_iff hop).mp h).mayCover hle' i.maxValue.toNat_lt

/-- A random variable of four bytes over 100000 values. -/
def randomFour : List Instr := [.flowMan ⟨"addr", 4, .RANDOM, 1, 1, 100000⟩]

theorem random_covers_four : ∃ c, compile 1 randomFour 64 = .ok (some c) ∧
    ∃ w off, FlowMan.IsOp ⟨"addr", 4, .RANDOM, 1, 1, 100000⟩ c w off ∧
      FlowMan.WritesAll ⟨"addr", 4, .RANDOM, 1, 1, 100000⟩ w off := by
  refine ⟨_, rfl, ?_⟩
  obtain ⟨w, off, hisOp, hcovers, -⟩ :=
    random_covers 1 randomFour 64 _ rfl ⟨"addr", 4, .RANDOM, 1, 1, 100000⟩
    (List.mem_singleton.mpr rfl) rfl (by decide)
  obtain rfl : Width.w32 = w := Option.some.inj hisOp.width
  exact ⟨_, off, hisOp, hcovers (by decide)⟩

/-- A random variable over the numbers of 16 bits. -/
def randomShort : List Instr := [.flowMan ⟨"port", 2, .RANDOM, 0, 0, 65535⟩]

/-- A random variable over all numbers of 16 bits never has the value `40000`. -/
theorem random_short_misses : ∃ c, compile 1 randomShort 64 = .ok (some c) ∧
    DpOp.flowVar .RANDOM .w16 4 0 65535 ∈ commandsOf c.program ∧
      ∀ (s s' : DpState), (DpOp.flowVar .RANDOM .w16 4 0 65535).run s = .ok s' →
        s'.flowVar.load 4 2 ≠ 40000 := by
  refine ⟨_, rfl, by decide +kernel, fun s s' hrun hv => ?_⟩
  obtain ⟨-, hval⟩ := (run_random_iff (P := fun x => x = 40000)).mp ⟨s', hrun, hv⟩
  have hr : (vmRand .w16 (s.flowVar.load 0 4)).1 < 2 ^ 15 := fastrand_lt _
  have hspan : randSpan .w16 0 65535 = 65536 := by decide
  have hsize : (256 : Nat) ^ Width.w16.bytes = 65536 := by decide
  simp only [randValue, hspan, hsize] at hval
  omega

end Trex.Vm
