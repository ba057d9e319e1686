/-
# Sweeping over changes

A quantity that changes at certain times is given by a list of changes, each with its time and its
difference.  `rateAt` is the quantity at a time, when all the changes up to that time have been
made.

A sweep sorts the changes by their times, keeps the changes of one time in the order in which they
are stored, and holds the greatest of the running sums (`peak`).  The running sums are those of
`momentary`: all changes before a time, and some of the changes at that time (`prefix_momentary`,
`momentary_prefix`).  So the sweep finds the greatest value of the quantity exactly when no running
sum in the middle of a time is greater than every value (`isGreatest_peak_iff`).
-/
import Mathlib.Algebra.Order.BigOperators.Group.List
import Mathlib.Algebra.Order.Group.MinMax
import Mathlib.Data.List.Sort
import Mathlib.Order.Bounds.Basic

namespace Trex.Lib

open List

/-! ## 1. Running sums -/

section Peak

variable {K : Type*} [AddCommGroup K] [LinearOrder K]

/-- The greatest of the running sums, with the sum so far and the greatest so far. -/
def peakFrom : List K → (cur best : K) → K
  | [], _, best => best
  | d :: rest, cur, best => peakFrom rest (cur + d) (max best (cur + d))

/-- The greatest of the running sums, and of 0. -/
def peak (diffs : List K) : K := peakFrom diffs 0 0

theorem peakFrom_le_iff [IsOrderedAddMonoid K] {m : K} :
    ∀ {diffs : List K} {cur best : K}, cur ≤ best →
    (peakFrom diffs cur best ≤ m ↔ best ≤ m ∧ ∀ p, p <+: diffs → cur + p.sum ≤ m) := by
  intro diffs
  induction diffs with
  | nil =>
    intro cur best hcur
    constructor
    · intro h
      refine ⟨h, fun p hp => ?_⟩
      obtain rfl := prefix_nil.mp hp
      rw [sum_nil, add_zero]
      exact hcur.trans h
    · exact fun h => h.1
  | cons d rest ih =>
    intro cur best hcur
    rw [peakFrom, ih (le_max_right _ _), max_le_iff]
    constructor
    · rintro ⟨⟨hbest, hd⟩, hrest⟩
      refine ⟨hbest, fun p hp => ?_⟩
      rcases prefix_cons_iff.mp hp with rfl | ⟨q, rfl, hq⟩
      · rw [sum_nil, add_zero]
        exact hcur.trans hbest
      · rw [sum_cons, ← add_assoc]
        exact hrest q hq
    · rintro ⟨hbest, hall⟩
      refine ⟨⟨hbest, ?_⟩, fun p hp => ?_⟩
      · have hone := hall [d] (prefix_cons_iff.mpr (Or.inr ⟨[], rfl, nil_prefix⟩))
        rwa [sum_singleton] at hone
      · have hcons := hall (d :: p) (prefix_cons_iff.mpr (Or.inr ⟨p, rfl, hp⟩))
        rwa [sum_cons, ← add_assoc] at hcons

/-- **The peak is the least bound of the running sums.** -/
theorem peak_le_iff [IsOrderedAddMonoid K] {diffs : List K} {m : K} :
    peak diffs ≤ m ↔ ∀ p, p <+: diffs → p.sum ≤ m := by
  rw [peak, peakFrom_le_iff le_rfl]
  constructor
  · rintro ⟨-, hall⟩ p hp
    simpa using hall p hp
  · intro hall
    refine ⟨by simpa using hall [] nil_prefix, fun p hp => ?_⟩
    simpa using hall p hp

theorem peakFrom_attained : ∀ (diffs : List K) (cur best : K),
    peakFrom diffs cur best = best ∨ ∃ p, p <+: diffs ∧ peakFrom diffs cur best = cur + p.sum := by
  intro diffs
  induction diffs with
  | nil => exact fun _ _ => Or.inl rfl
  | cons d rest ih =>
    intro cur best
    rw [peakFrom]
    rcases ih (cur + d) (max best (cur + d)) with hbest | ⟨p, hp, hsum⟩
    · rw [hbest]
      rcases max_choice best (cur + d) with hmax | hmax
      · exact Or.inl hmax
      · refine Or.inr ⟨[d], prefix_cons_iff.mpr (Or.inr ⟨[], rfl, nil_prefix⟩), ?_⟩
        rw [sum_singleton]
        exact hmax
    · refine Or.inr ⟨d :: p, prefix_cons_iff.mpr (Or.inr ⟨p, rfl, hp⟩), ?_⟩
      rw [sum_cons, ← add_assoc]
      exact hsum

/-- **The peak is one of the running sums.** -/
theorem peak_attained (diffs : List K) : ∃ p, p <+: diffs ∧ peak diffs = p.sum := by
  rcases peakFrom_attained diffs 0 0 with hzero | ⟨p, hp, hsum⟩
  · exact ⟨[], nil_prefix, hzero⟩
  · exact ⟨p, hp, by rw [peak, hsum, zero_add]⟩

end Peak

/-! ## 2. Changes in time -/

section Sweep

variable {α T K : Type*} [LinearOrder T] [AddCommGroup K] (time : α → T) (diff : α → K)

/-- The changes in the order of their times; those of one time stay in their order. -/
def inTime (changes : List α) : List α := changes.insertionSort fun a b => time a ≤ time b

/-- The quantity at a time. -/
def rateAt (changes : List α) (t : T) : K := ((changes.filter fun a => time a ≤ t).map diff).sum

/-- A running sum in the middle of a time: all changes before it, and the first `j` changes at
it. -/
def momentary (changes : List α) (t : T) (j : Nat) : K :=
  ((changes.filter fun a => time a < t).map diff).sum
    + (((changes.filter fun a => time a = t).take j).map diff).sum

variable {time diff} {changes : List α}

theorem inTime_perm (time : α → T) (changes : List α) :
    (inTime time changes).Perm changes := perm_insertionSort _ _

theorem inTime_sorted (time : α → T) (changes : List α) :
    (inTime time changes).Pairwise fun a b => time a ≤ time b := by
  have : Std.Total fun a b : α => time a ≤ time b := ⟨fun a b => le_total (time a) (time b)⟩
  have : IsTrans α fun a b : α => time a ≤ time b := ⟨fun _ _ _ => le_trans⟩
  exact pairwise_insertionSort _ _

theorem filter_orderedInsert (a : α) (t : T) : ∀ changes : List α,
    ((changes.orderedInsert (fun a b => time a ≤ time b) a).filter fun b => time b = t)
      = (a :: changes).filter fun b => time b = t := by
  intro changes
  induction changes with
  | nil => rfl
  | cons b rest ih =>
    rw [orderedInsert_cons]
    split
    · rfl
    · rename_i hlt
      -- `a` goes behind `b`, so the two have different times
      rw [filter_cons, ih]
      by_cases hb : time b = t
      · have ha : time a ≠ t := fun ha => hlt (ha.trans hb.symm).le
        simp [ha, hb]
      · simp [filter_cons, hb]

/-- **The changes of one time stay in their order.** -/
theorem filter_inTime (t : T) : ∀ changes : List α,
    ((inTime time changes).filter fun b => time b = t) = changes.filter fun b => time b = t := by
  intro changes
  induction changes with
  | nil => rfl
  | cons a rest ih =>
    rw [inTime, insertionSort_cons, filter_orderedInsert, filter_cons, filter_cons]
    rw [inTime] at ih
    rw [ih]

/-- What comes before a time, what comes at it and what comes after it. -/
theorem filter_split {sorted : List α} (h : sorted.Pairwise fun a b => time a ≤ time b) (t : T) :
    sorted = (sorted.filter fun a => time a < t) ++ (sorted.filter fun a => time a = t)
      ++ sorted.filter fun a => t < time a := by
  induction sorted with
  | nil => rfl
  | cons a rest ih =>
    have hrest := ih (pairwise_cons.mp h).2
    have hle := (pairwise_cons.mp h).1
    rcases lt_trichotomy (time a) t with hlt | heq | hgt
    · simp only [filter_cons, hlt, hlt.ne, hlt.not_gt, decide_true, decide_false, if_true,
        Bool.false_eq_true, if_false, cons_append]
      exact congrArg (a :: ·) hrest
    · have hbefore : (rest.filter fun b => time b < t) = [] := by
        rw [filter_eq_nil_iff]
        intro b hb
        simpa [← heq] using hle b hb
      rw [hbefore, nil_append] at hrest
      simp only [filter_cons, heq, lt_irrefl, decide_true, decide_false, if_true,
        Bool.false_eq_true, if_false, hbefore, nil_append, cons_append]
      exact congrArg (a :: ·) hrest
    · have hnone : ∀ b ∈ rest, t < time b := fun b hb => hgt.trans_le (hle b hb)
      have hbefore : (rest.filter fun b => time b < t) = [] := by
        rw [filter_eq_nil_iff]
        intro b hb
        simpa using (hnone b hb).le
      have hat : (rest.filter fun b => time b = t) = [] := by
        rw [filter_eq_nil_iff]
        intro b hb
        simpa using (hnone b hb).ne'
      rw [hbefore, hat, nil_append, nil_append] at hrest
      simp only [filter_cons, hgt, hgt.not_gt, hgt.ne', decide_true, decide_false, if_true,
        Bool.false_eq_true, if_false, hbefore, hat, nil_append]
      exact congrArg (a :: ·) hrest

/-- The changes up to a time, in time, begin the list. -/
theorem inTime_split (time : α → T) (changes : List α) (t : T) :
    inTime time changes = ((inTime time changes).filter fun a => time a < t)
      ++ (changes.filter fun a => time a = t) ++ (inTime time changes).filter fun a =>
          t < time a := by
  have hsplit := filter_split (inTime_sorted time changes) t
  rwa [filter_inTime] at hsplit

/-! ## 3. The running sums of a sweep -/

/-- The changes up to a time, all of them, give the quantity at the time. -/
theorem rateAt_eq_momentary (changes : List α) (t : T) :
    rateAt time diff changes t = momentary time diff changes t changes.length := by
  rw [momentary, take_of_length_le (length_filter_le _ _)]
  induction changes with
  | nil => simp [rateAt]
  | cons a rest ih =>
    unfold rateAt at ih ⊢
    rcases lt_trichotomy (time a) t with hlt | heq | hgt
    · simp [hlt, hlt.le, hlt.ne, ih, add_assoc]
    · simp [heq, ih, add_left_comm]
    · simp [hgt.not_ge, hgt.not_gt, hgt.ne', ih]

/-- **Every sum in the middle of a time is a running sum.** -/
theorem momentary_prefix (time : α → T) (diff : α → K) (changes : List α) (t : T) (j : Nat) :
    ∃ p, p <+: (inTime time changes).map diff ∧ p.sum = momentary time diff changes t j := by
  refine ⟨(((inTime time changes).filter fun a => time a < t)
    ++ (changes.filter fun a => time a = t).take j).map diff, ?_, ?_⟩
  · refine List.IsPrefix.map diff ?_
    have hsplit := inTime_split time changes t
    have hprefix : ((inTime time changes).filter fun a => time a < t)
        ++ (changes.filter fun a => time a = t).take j
        <+: ((inTime time changes).filter fun a => time a < t)
          ++ (changes.filter fun a => time a = t) ++ (inTime time changes).filter fun a =>
              t < time a := by
      rw [append_assoc]
      refine (prefix_append_right_inj _).mpr ?_
      exact (List.take_prefix _ _).trans (prefix_append _ _)
    rwa [← hsplit] at hprefix
  · rw [map_append, sum_append, momentary]
    have hperm := ((inTime_perm time changes).filter fun a => time a < t).map diff
    rw [hperm.sum_eq]

/-- **Every running sum is a sum in the middle of a time**, that of its last change. -/
theorem prefix_momentary (diff : α → K) {p : List α} (hp : p <+: inTime time changes)
    (hne : p ≠ []) :
    ∃ t j, (p.map diff).sum = momentary time diff changes t j := by
  obtain ⟨q, a, rfl⟩ := (eq_nil_or_concat' p).resolve_left hne
  obtain ⟨r, hr⟩ := hp
  have hsorted := inTime_sorted time changes
  rw [← hr] at hsorted
  obtain ⟨hbegin, -, hcross⟩ := pairwise_append.mp hsorted
  have hlast : ∀ b ∈ q ++ [a], time b ≤ time a := by
    intro b hb
    rcases mem_append.mp hb with hq | ha
    · exact (pairwise_append.mp hbegin).2.2 b hq a (mem_singleton.mpr rfl)
    · rw [mem_singleton.mp ha]
  have hlater : ∀ b ∈ r, time a ≤ time b := fun b hb => hcross a (by simp) b hb
  -- nothing is left before the time of the last change
  have hbefore : (r.filter fun b => time b < time a) = [] := by
    rw [filter_eq_nil_iff]
    intro b hb
    simpa using hlater b hb
  have hafter : ((q ++ [a]).filter fun b => time a < time b) = [] := by
    rw [filter_eq_nil_iff]
    intro b hb
    simpa using hlast b hb
  refine ⟨time a, ((q ++ [a]).filter fun b => time b = time a).length, ?_⟩
  have hat : (changes.filter fun b => time b = time a)
      = ((q ++ [a]).filter fun b => time b = time a) ++ r.filter fun b => time b = time a := by
    rw [← filter_inTime, ← hr, filter_append]
  have hsum : ((changes.filter fun b => time b < time a).map diff).sum
      = (((q ++ [a]).filter fun b => time b < time a).map diff).sum := by
    have hperm := ((inTime_perm time changes).filter
      fun b => time b < time a).map diff
    rw [← hperm.sum_eq, ← hr, filter_append, hbefore, append_nil]
  have hsplit := filter_split hbegin (time a)
  rw [hafter, append_nil] at hsplit
  rw [momentary, hat, take_left, hsum, ← sum_append, ← map_append, ← hsplit]

/-- There is a time before all changes. -/
theorem exists_before [NoMinOrder T] [Nonempty T] (time : α → T) (changes : List α) :
    ∃ t, ∀ a ∈ changes, t < time a := by
  induction changes with
  | nil => exact ⟨Classical.arbitrary T, fun a ha => nomatch ha⟩
  | cons a rest ih =>
    obtain ⟨t, ht⟩ := ih
    obtain ⟨t', ht'⟩ := exists_lt (min t (time a))
    refine ⟨t', fun b hb => ?_⟩
    rcases mem_cons.mp hb with rfl | hrest
    · exact ht'.trans_le (min_le_right _ _)
    · exact (ht'.trans_le (min_le_left _ _)).trans (ht b hrest)

variable [LinearOrder K] [IsOrderedAddMonoid K]

/-- The quantity never exceeds the peak. -/
theorem rateAt_le_peak (changes : List α) (t : T) :
    rateAt time diff changes t ≤ peak ((inTime time changes).map diff) := by
  obtain ⟨p, hp, hsum⟩ := momentary_prefix time diff changes t changes.length
  rw [rateAt_eq_momentary, ← hsum]
  exact peak_le_iff.mp le_rfl p hp

/-- No sum in the middle of a time is greater than all values of the quantity. -/
def NoOvershoot (time : α → T) (diff : α → K) (changes : List α) : Prop :=
  ∀ t j, ∃ t', momentary time diff changes t j ≤ rateAt time diff changes t'

/-- **A sweep finds the greatest value exactly when no sum in the middle of a time exceeds it.** -/
theorem isGreatest_peak_iff [NoMinOrder T] [Nonempty T] (changes : List α) :
    IsGreatest (Set.range (rateAt time diff changes)) (peak ((inTime time changes).map diff))
      ↔ NoOvershoot time diff changes := by
  constructor
  · rintro ⟨⟨t', ht'⟩, -⟩ t j
    obtain ⟨p, hp, hsum⟩ := momentary_prefix time diff changes t j
    refine ⟨t', ?_⟩
    rw [ht', ← hsum]
    exact peak_le_iff.mp le_rfl p hp
  · intro hno
    refine ⟨?_, ?_⟩
    · obtain ⟨p, hp, hpeak⟩ := peak_attained ((inTime time changes).map diff)
      obtain ⟨k, hk⟩ : ∃ k, p = ((inTime time changes).take k).map diff :=
        ⟨p.length, by rw [map_take]; exact prefix_iff_eq_take.mp hp⟩
      by_cases hnil : (inTime time changes).take k = []
      · -- the peak is 0, as is the quantity before all changes
        obtain ⟨t, ht⟩ := exists_before time changes
        refine ⟨t, ?_⟩
        have hnone : (changes.filter fun a => time a ≤ t) = [] := by
          rw [filter_eq_nil_iff]
          intro a ha
          simpa using ht a ha
        rw [hpeak, hk, hnil, rateAt, hnone]
      · obtain ⟨t, j, hsum⟩ := prefix_momentary diff (List.take_prefix k _) hnil
        obtain ⟨t', ht'⟩ := hno t j
        refine ⟨t', le_antisymm (rateAt_le_peak changes t') ?_⟩
        rw [hpeak, hk, hsum]
        exact ht'
    · rintro _ ⟨t, rfl⟩
      exact rateAt_le_peak changes t

end Sweep

end Trex.Lib
