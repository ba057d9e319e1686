/-
# What a policer lets through in a window of time

`CPolicer::update(1, t)` (bp_sim.cpp) lets a call through when the bucket has more than one token,
which it then takes out.  From the second call on the policer is a bucket of tokens
(`Lib/Bucket.lean`); the first call only takes note of the time, and is let through without a token.

In every window of length `w` at most `b + cir * w` calls are let through, and one more when the
first call of all is in it (`window_bound`).
-/
import Trex.Gen.Policer
import Trex.Lib.Bucket

namespace Trex.Gen

open Trex.Lib List

namespace CPolicer

/-- A new policer: `ClearMeter`, `set_cir`, `set_bucket_size` and `set_level`. -/
def configured (cir bucketSize level : Rat) : CPolicer :=
  { clearMeter with cir := cir, bucketSize := bucketSize, level := level }

/-- The calls `update(1, t)`, one after the other: the policer behind them. -/
def afterCalls (p : CPolicer) (times : List Rat) :
    CPolicer := times.foldl (fun p t => (p.update 1 t).1) p

/-- The times of the calls that are let through. -/
def admitted (p : CPolicer) : List Rat → List Rat
  | [] => []
  | t :: times => (if (p.update 1 t).2 then [t] else []) ++ admitted (p.update 1 t).1 times

/-- How many calls are let through from `x` to `y`. -/
def admittedWithin (p : CPolicer) (times : List Rat) (x y : Rat) : Nat :=
  ((p.admitted times).filter fun t => decide (x ≤ t ∧ t ≤ y)).length

/-! ## 1. One call -/

/-- A policer with the rate `cir` and a bucket of `b`. -/
structure Sound (cir b : Rat) (p : CPolicer) : Prop where
  cir_eq : p.cir = cir
  bucket_eq : p.bucketSize = b
  nonneg : 0 ≤ p.level
  le : p.level ≤ b

variable {cir b : Rat} {p : CPolicer}

/-- What the call takes out of the bucket. -/
def price (p : CPolicer) (t : Rat) : Rat := if (p.update 1 t).2 then 1 else 0

/-- **The first call.** -/
theorem Sound.first (h : Sound cir b p) (hfirst : p.lastTime = 0) (t : Rat) :
    Sound cir b (p.update 1 t).1 ∧ (p.update 1 t).1.lastTime = t ∧ (p.update 1 t).2 = true := by
  rw [update_first hfirst]
  exact ⟨⟨h.cir_eq, h.bucket_eq, h.nonneg, h.le⟩, rfl, rfl⟩

/-- The bucket is filled for the time that has passed. -/
def refill (p : CPolicer) (t : Rat) : CPolicer :=
  if t > p.lastTime then
    { p with
      level := if p.level + (t - p.lastTime) * p.cir > p.bucketSize then p.bucketSize
        else p.level + (t - p.lastTime) * p.cir
      lastTime := t }
  else p

/-- A call that is not the first one, of a policer with a rate. -/
theorem update_later (hlast : p.lastTime ≠ 0) (hcir : p.cir ≠ 0) (t : Rat) :
    p.update 1 t = if (p.refill t).level > 1
      then ({ p.refill t with level := (p.refill t).level - 1 }, true)
      else (p.refill t, false) := by
  rw [update, if_neg hlast, if_neg hcir]
  rfl

theorem Sound.refill (h : Sound cir b p) (hcir : 0 ≤ cir) {t : Rat} (hle : p.lastTime ≤ t) :
    Sound cir b (p.refill t) ∧ (p.refill t).lastTime = t ∧
      (p.refill t).level ≤ p.level + cir * (t - p.lastTime) := by
  obtain ⟨hc, hb, hnonneg, hfull⟩ := h
  have hgain : 0 ≤ (t - p.lastTime) * p.cir := mul_nonneg (sub_nonneg.mpr hle) (hc ▸ hcir)
  rw [CPolicer.refill]
  split
  · refine ⟨⟨hc, hb, ?_, ?_⟩, rfl, ?_⟩
    · dsimp only
      split
      · linarith
      · linarith
    · dsimp only
      split
      · exact hb.le
      · rename_i hroom
        exact hb ▸ not_lt.mp hroom
    · rw [← hc, mul_comm]
      dsimp only
      split
      · rename_i hover
        exact hover.le
      · exact le_refl _
  · rename_i hsame
    have hnow : t = p.lastTime := le_antisymm (not_lt.mp hsame) hle
    refine ⟨⟨hc, hb, hnonneg, hfull⟩, hnow.symm, ?_⟩
    rw [hnow, sub_self, mul_zero, add_zero]

/-- **A later call**: what it takes out was there or came in since `last`, the time the bucket was
filled for. -/
theorem Sound.later (h : Sound cir b p) (hcir : 0 ≤ cir) (hnew : p.lastTime ≠ 0) {last t : Rat}
    (hlast : p.lastTime = last ∨ cir = 0) (hle : last ≤ t) (hpos : 0 < t) :
    Sound cir b (p.update 1 t).1 ∧ (p.update 1 t).1.lastTime ≠ 0 ∧
      ((p.update 1 t).1.lastTime = t ∨ cir = 0) ∧ (p.update 1 t).1.level + p.price t ≤ b ∧
      (p.update 1 t).1.level + p.price t ≤ p.level + cir * (t - last) := by
  by_cases hzero : cir = 0
  · have hstays : p.update 1 t = (p, false) := by
      rw [update, if_neg hnew, if_pos (h.cir_eq.trans hzero)]
    rw [price, hstays]
    refine ⟨h, hnew, .inr hzero, ?_, ?_⟩
    · rw [if_neg Bool.false_ne_true, add_zero]
      exact h.le
    · rw [if_neg Bool.false_ne_true, hzero, zero_mul]
  · have hlast' : p.lastTime = last := hlast.resolve_right hzero
    subst hlast'
    obtain ⟨hsound, htime, hlevel⟩ := h.refill hcir hle
    rw [price, update_later hnew (h.cir_eq.trans_ne hzero)]
    split
    · rename_i hmore
      rw [if_pos rfl]
      dsimp only
      refine ⟨⟨hsound.cir_eq, hsound.bucket_eq, sub_nonneg.mpr hmore.le, ?_⟩, ?_, .inl htime, ?_,
        ?_⟩
      · exact le_trans (sub_le_self _ zero_le_one) hsound.le
      · exact htime.trans_ne hpos.ne'
      · rw [sub_add_cancel]
        exact hsound.le
      · rw [sub_add_cancel]
        exact hlevel
    · rw [if_neg Bool.false_ne_true, add_zero]
      exact ⟨hsound, htime.trans_ne hpos.ne', .inl htime, hsound.le, hlevel⟩

/-! ## 2. All calls -/

/-- The calls with what each of them takes out. -/
def payments (p : CPolicer) : List Rat → List (Rat × Rat)
  | [] => []
  | t :: times => (t, p.price t) :: payments (p.update 1 t).1 times

theorem admittedWithin_cons (p : CPolicer) (t : Rat) (times : List Rat) (x y : Rat) :
    (p.admittedWithin (t :: times) x y : Rat)
      = (if x ≤ t ∧ t ≤ y then p.price t else 0) + (p.update 1 t).1.admittedWithin times x y := by
  rw [admittedWithin, admitted, filter_append, length_append, Nat.cast_add, price]
  congr 1
  by_cases hin : x ≤ t ∧ t ≤ y
  · rw [if_pos hin]
    cases (p.update 1 t).2 with
    | true => simp [hin]
    | false => simp
  · rw [if_neg hin]
    cases (p.update 1 t).2 with
    | true => simpa using hin
    | false => simp

theorem admittedWithin_eq (p : CPolicer) (times : List Rat) (x y : Rat) :
    (p.admittedWithin times x y : Rat) = paidWithin x y (p.payments times) := by
  induction times generalizing p with
  | nil => rfl
  | cons t times ih =>
    rw [admittedWithin_cons, payments, ih]
    by_cases hin : x ≤ t ∧ t ≤ y
    · rw [if_pos hin, paidWithin_cons_of_mem hin]
    · rw [if_neg hin, paidWithin_cons_of_not hin, zero_add]

theorem price_nonneg (p : CPolicer) (t : Rat) : 0 ≤ p.price t := by
  rw [price]
  split
  · exact zero_le_one
  · exact le_refl 0

/-- **From the second call on, a policer is a bucket of tokens.** -/
theorem Sound.paid {times : List Rat} (h : Sound cir b p) (hcir : 0 ≤ cir) (hnew : p.lastTime ≠ 0)
    {last : Rat} (hlast : p.lastTime = last ∨ cir = 0)
    (hsorted : List.IsChain (· ≤ ·) (last :: times)) (hpos : ∀ t ∈ times, 0 < t) :
    Paid cir b last p.level (p.payments times) ∧ Sound cir b (p.afterCalls times) := by
  induction times generalizing p last with
  | nil => exact ⟨.nil, h⟩
  | cons t times ih =>
    obtain ⟨hle, hrest⟩ := isChain_cons_cons.mp hsorted
    obtain ⟨hsound, hnew', hlast', hcap, hfill⟩ :=
      h.later hcir hnew hlast hle (hpos t mem_cons_self)
    obtain ⟨hpaid, hafter⟩ := ih hsound hnew' hlast' hrest fun u hu => hpos u (mem_cons_of_mem _ hu)
    exact ⟨.cons hle (p.price_nonneg t) hsound.nonneg hcap hfill hpaid, hafter⟩

theorem sound_configured {level : Rat} (hlevel : 0 ≤ level) (hb : level ≤ b) :
    Sound cir b (configured cir b level) := ⟨rfl, rfl, hlevel, hb⟩

/-- The policer stays sound, whatever calls come. -/
theorem sound_afterCalls {level : Rat} {times : List Rat} (hcir : 0 ≤ cir) (hlevel : 0 ≤ level)
    (hb : level ≤ b) (hpos : ∀ t ∈ times, 0 < t) (hsorted : List.IsChain (· ≤ ·) times) :
    Sound cir b ((configured cir b level).afterCalls times) := by
  cases times with
  | nil => exact sound_configured hlevel hb
  | cons t times =>
    have ht : 0 < t := hpos t mem_cons_self
    obtain ⟨hsound, htime, -⟩ := (sound_configured hlevel hb : Sound cir b _).first rfl t
    exact (hsound.paid hcir (htime.trans_ne ht.ne') (.inl htime) hsorted
      fun u hu => hpos u (mem_cons_of_mem _ hu)).2

/-- **The bound of a policer.**  In a window of length `w` at most `b + cir * w` calls are let
through, and one more when the very first call is in it; and the level stays within the bucket.
Every call keeps `Sound`, and what is let through is paid for with the level and what came in since
(`paid`). -/
theorem window_bound (cir b level : Rat) (hcir : 0 ≤ cir) (hlevel : 0 ≤ level) (hb : level ≤ b)
    (times : List Rat) (hpos : ∀ t ∈ times, 0 < t) (hsorted : times.Pairwise (· ≤ ·)) :
    (∀ x w, 0 ≤ w → ((configured cir b level).admittedWithin times x (x + w) : Rat) ≤
      b + cir * w + if ∃ t ∈ times.head?, x ≤ t ∧ t ≤ x + w then 1 else 0) ∧
    (∀ calls, calls <+: times → 0 ≤ ((configured cir b level).afterCalls calls).level ∧
      ((configured cir b level).afterCalls calls).level ≤ b) := by
  have hchain : List.IsChain (· ≤ ·) times := isChain_iff_pairwise.mpr hsorted
  refine ⟨fun x w hw => ?_, fun calls hcalls => ?_⟩
  · cases times with
    | nil =>
      have hgain := mul_nonneg hcir hw
      simp only [admittedWithin, admitted, filter_nil, length_nil, Nat.cast_zero]
      split <;> linarith
    | cons t times =>
      have ht : 0 < t := hpos t mem_cons_self
      obtain ⟨hsound, htime, hfirst⟩ := (sound_configured hlevel hb : Sound cir b _).first rfl t
      obtain ⟨hpaid, -⟩ := hsound.paid hcir (htime.trans_ne ht.ne') (.inl htime) hchain
        fun u hu => hpos u (mem_cons_of_mem _ hu)
      have hwindow := hpaid.window hcir (hlevel.trans hb) (le_add_of_nonneg_right (a := x) hw)
      rw [add_sub_cancel_left] at hwindow
      have hone : (configured cir b level).price t = 1 := if_pos hfirst
      have hhead : (∃ u ∈ (t :: times).head?, x ≤ u ∧ u ≤ x + w) ↔ (x ≤ t ∧ t ≤ x + w) := by simp
      rw [admittedWithin_cons, hone, admittedWithin_eq]
      simp only [hhead]
      linarith
  · have hsound := sound_afterCalls hcir hlevel hb (fun t ht => hpos t (hcalls.subset ht))
      (isChain_iff_pairwise.mpr (hsorted.sublist hcalls.sublist))
    exact ⟨hsound.nonneg, hsound.le⟩

/-- Four calls at once of a policer that starts with two tokens: the first one is free, and one is
paid for. -/
theorem window_bound_once : (configured 5 2 2).admittedWithin [1, 1, 1, 1] 1 (1 + 0) = 2 ∧
    ((configured 5 2 2).admittedWithin [1, 1, 1, 1] 1 (1 + 0) : Rat) ≤ 2 + 5 * 0 +
      if ∃ t ∈ [(1 : Rat), 1, 1, 1].head?, 1 ≤ t ∧ t ≤ 1 + 0 then 1 else 0 :=
  ⟨by decide +kernel, (window_bound 5 2 2 (by decide) (by decide) (by decide) [1, 1, 1, 1]
    (fun t ht => by simp at ht; subst ht; decide) (by simp)).1 1 0 (by decide)⟩

end CPolicer

end Trex.Gen
