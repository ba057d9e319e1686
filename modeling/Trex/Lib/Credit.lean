/-
# Fair sharing by credits

A server gives one unit of service a tick, and `n` customers have shares `w k` that sum up to one.
An account of a customer gets its share every tick; a customer whose credit is more than one may be
served, and pays one. Accounts are opened one by one, with a service that is free.

No credit gets lost, so a customer is served as often as its share says, up to its credit
(`Fair.served`).  And the credits stay small: they only grow together when no customer is served,
and then none has more than one (`Tick.fair`).
-/
import Mathlib.Algebra.BigOperators.Group.Finset.Piecewise
import Mathlib.Algebra.Order.BigOperators.Group.Finset
import Mathlib.Tactic.Linarith
import Mathlib.Tactic.Positivity
import Mathlib.Tactic.Ring

namespace Trex.Lib

open Function (update update_of_ne update_self)

variable {ι K : Type*} [Field K] [LinearOrder K]

/-- The accounts, what is on them, and how often their owners were served. -/
structure Accounts (ι K : Type*) where
  opened : Finset ι
  credit : ι → K
  served : ι → Nat

/-- One tick: a new account is opened, a customer pays for its service, or no one can. -/
inductive Accounts.Tick [DecidableEq ι] (w : ι → K) (a : Accounts ι K) : Accounts ι K → Prop
  | «open» (k : ι) (hk : k ∉ a.opened) : Tick w a
      { opened := insert k a.opened
        credit := fun i => if i ∈ a.opened then a.credit i + w i else 0
        served := update a.served k (a.served k + 1) }
  | pay (k : ι) (hall : ∀ i, i ∈ a.opened) (hpay : 1 < a.credit k + w k) : Tick w a
      { opened := a.opened
        credit := fun i => if i = k then a.credit i + w i - 1 else a.credit i + w i
        served := update a.served k (a.served k + 1) }
  | rest (hall : ∀ i, i ∈ a.opened) (hnone : ∀ i, a.credit i + w i ≤ 1) : Tick w a
      { a with credit := fun i => a.credit i + w i }

namespace Accounts

/-- **What holds after `j` ticks.** -/
structure Fair [Fintype ι] (w : ι → K) (j : Nat) (a : Accounts ι K) : Prop where
  nonneg : ∀ i, 0 ≤ a.credit i
  total : ∑ i, a.credit i ≤ a.opened.card
  opening : (∀ i, i ∈ a.opened) ∨ a.opened.card = j
  closed : ∀ i, i ∉ a.opened → a.credit i = 0 ∧ a.served i = 0
  lower : ∀ i ∈ a.opened, 1 - (Fintype.card ι : K) ≤ a.served i + a.credit i - w i * j
  upper : ∀ i ∈ a.opened, a.served i + a.credit i - w i * j ≤ 1

variable [Fintype ι] {w : ι → K} {a a' : Accounts ι K} {j : Nat}

/-- Before the first tick. -/
theorem fair_start (h : a.opened = ∅) (hcredit : ∀ i, a.credit i = 0)
    (hserved : ∀ i, a.served i = 0) :
    Fair w 0 a where
  nonneg i := (hcredit i).ge
  total := by simp [hcredit, h]
  opening := .inr (by rw [h, Finset.card_empty])
  closed i _ := ⟨hcredit i, hserved i⟩
  lower i hi := by
    rw [h] at hi
    cases hi
  upper i hi := by
    rw [h] at hi
    cases hi

variable [IsStrictOrderedRing K]

/-- A share is at most the whole. -/
theorem share_le_one (hw : ∀ i, 0 ≤ w i) (hsum : ∑ i, w i = 1) (k : ι) : w k ≤ 1 :=
  hsum ▸ Finset.single_le_sum (fun i _ => hw i) (Finset.mem_univ k)

/-- The credit that is on one account is at most all of it. -/
theorem Fair.credit_le (h : Fair w j a) (k : ι) : a.credit k ≤ Fintype.card ι := by
  have hone : a.credit k ≤ ∑ i, a.credit i :=
    Finset.single_le_sum (fun i _ => h.nonneg i) (Finset.mem_univ k)
  have hcard : (a.opened.card : K) ≤ Fintype.card ι := Nat.cast_le.mpr (Finset.card_le_univ _)
  exact hone.trans (h.total.trans hcard)

section Ticks

variable [DecidableEq ι]

/-- **An account is opened.**  There is less credit than accounts, as every one starts with none. -/
theorem Fair.open (h : Fair w j a) (hw : ∀ i, 0 ≤ w i) (hsum : ∑ i, w i = 1) {k : ι}
    (hk : k ∉ a.opened) :
    Fair w (j + 1)
      { opened := insert k a.opened
        credit := fun i => if i ∈ a.opened then a.credit i + w i else 0
        served := update a.served k (a.served k + 1) } := by
  have hj : a.opened.card = j := h.opening.resolve_left fun hall => hk (hall k)
  have hcard : (insert k a.opened).card = a.opened.card + 1 := Finset.card_insert_of_notMem hk
  have hlt : j + 1 ≤ Fintype.card ι := by
    rw [← hj, ← hcard]
    exact Finset.card_le_univ _
  have hltK : ((j : K) + 1) ≤ Fintype.card ι := by exact_mod_cast hlt
  constructor
  · intro i
    by_cases hi : i ∈ a.opened
    · simp only [if_pos hi]
      exact add_nonneg (h.nonneg i) (hw i)
    · simp only [if_neg hi, le_refl]
  · have hle : ∀ i, (if i ∈ a.opened then a.credit i + w i else 0) ≤ a.credit i + w i := by
      intro i
      by_cases hi : i ∈ a.opened
      · rw [if_pos hi]
      · rw [if_neg hi]
        exact add_nonneg (h.nonneg i) (hw i)
    calc ∑ i, (if i ∈ a.opened then a.credit i + w i else 0)
        ≤ ∑ i, (a.credit i + w i) := Finset.sum_le_sum fun i _ => hle i
      _ = ∑ i, a.credit i + 1 := by rw [Finset.sum_add_distrib, hsum]
      _ ≤ a.opened.card + 1 := by linarith [h.total]
      _ = ((insert k a.opened).card : K) := by rw [hcard, Nat.cast_succ]
  · exact .inr (by rw [hcard, hj])
  · intro i hi
    rw [Finset.mem_insert, not_or] at hi
    exact ⟨if_neg hi.2, (update_of_ne hi.1 ..).trans (h.closed i hi.2).2⟩
  · intro i hi
    by_cases hik : i = k
    · subst hik
      have hshare := share_le_one hw hsum i
      have hprod : w i * (j + 1) ≤ Fintype.card ι := by
        calc w i * ((j : K) + 1) ≤ 1 * ((j : K) + 1) := by gcongr
          _ ≤ Fintype.card ι := by linarith
      simp only [if_neg hk, update_self, (h.closed i hk).2]
      push_cast
      linarith
    · have hmem : i ∈ a.opened := (Finset.mem_insert.mp hi).resolve_left hik
      have hlower := h.lower i hmem
      simp only [if_pos hmem, update_of_ne hik]
      push_cast
      linarith
  · intro i hi
    by_cases hik : i = k
    · subst hik
      have hprod : 0 ≤ w i * ((j : K) + 1) := mul_nonneg (hw i) (by positivity)
      simp only [if_neg hk, update_self, (h.closed i hk).2]
      push_cast
      linarith
    · have hmem : i ∈ a.opened := (Finset.mem_insert.mp hi).resolve_left hik
      have hupper := h.upper i hmem
      simp only [if_pos hmem, update_of_ne hik]
      push_cast
      linarith

/-- **A customer pays.**  All credits together are as much as before. -/
theorem Fair.pay (h : Fair w j a) (hw : ∀ i, 0 ≤ w i) (hsum : ∑ i, w i = 1) {k : ι}
    (hall : ∀ i, i ∈ a.opened) (hpay : 1 < a.credit k + w k) :
    Fair w (j + 1)
      { opened := a.opened
        credit := fun i => if i = k then a.credit i + w i - 1 else a.credit i + w i
        served := update a.served k (a.served k + 1) } := by
  have hsame : ∀ i, (update a.served k (a.served k + 1) i : K) +
      (if i = k then a.credit i + w i - 1 else a.credit i + w i) = a.served i +
          (a.credit i + w i) := by
    intro i
    by_cases hik : i = k
    · subst hik
      rw [update_self, if_pos rfl]
      push_cast
      ring
    · rw [update_of_ne hik, if_neg hik]
  constructor
  · intro i
    by_cases hik : i = k
    · subst hik
      simp only [if_true]
      linarith
    · simp only [if_neg hik]
      exact add_nonneg (h.nonneg i) (hw i)
  · have hterm : ∀ i, (if i = k then a.credit i + w i - 1 else a.credit i + w i) =
        (a.credit i + w i) - if i = k then 1 else 0 := by
      intro i
      by_cases hik : i = k
      · rw [if_pos hik, if_pos hik]
      · rw [if_neg hik, if_neg hik, sub_zero]
    calc ∑ i, (if i = k then a.credit i + w i - 1 else a.credit i + w i)
        = ∑ i, (a.credit i + w i) - ∑ i, (if i = k then (1 : K) else 0) := by
          rw [← Finset.sum_sub_distrib]
          exact Finset.sum_congr rfl fun i _ => hterm i
      _ = ∑ i, a.credit i := by
          rw [Finset.sum_ite_eq' Finset.univ k, if_pos (Finset.mem_univ k), Finset.sum_add_distrib,
            hsum]
          ring
      _ ≤ a.opened.card := h.total
  · exact .inl hall
  · exact fun i hi => absurd (hall i) hi
  · intro i hi
    have hlower := h.lower i hi
    simp only [hsame i]
    push_cast
    linarith
  · intro i hi
    have hupper := h.upper i hi
    simp only [hsame i]
    push_cast
    linarith

omit [DecidableEq ι] in
/-- **No one can pay.**  Then no account has more than one on it. -/
theorem Fair.rest (h : Fair w j a) (hw : ∀ i, 0 ≤ w i) (hall : ∀ i, i ∈ a.opened)
    (hnone : ∀ i, a.credit i + w i ≤ 1) :
    Fair w (j + 1) { a with credit := fun i => a.credit i + w i } := by
  constructor
  · exact fun i => add_nonneg (h.nonneg i) (hw i)
  · have huniv : a.opened = Finset.univ := Finset.eq_univ_iff_forall.mpr hall
    calc ∑ i, (a.credit i + w i) ≤ ∑ _i : ι, (1 : K) := Finset.sum_le_sum fun i _ => hnone i
      _ = a.opened.card := by rw [Finset.sum_const, huniv, nsmul_eq_mul, mul_one]
  · exact .inl hall
  · exact fun i hi => absurd (hall i) hi
  · intro i hi
    have hlower := h.lower i hi
    push_cast
    linarith
  · intro i hi
    have hupper := h.upper i hi
    push_cast
    linarith

/-- **A tick is fair.** -/
theorem Tick.fair (htick : Tick w a a') (hw : ∀ i, 0 ≤ w i) (hsum : ∑ i, w i = 1) (h : Fair w j a) :
    Fair w (j + 1) a' := by
  cases htick with
  | «open» k hk => exact h.open hw hsum hk
  | pay k hall hpay => exact h.pay hw hsum hall hpay
  | rest hall hnone => exact h.rest hw hall hnone

end Ticks

/-- **The service of a customer**: after `j` ticks it is its share of them, up to the number of
customers. -/
theorem Fair.served (h : Fair w j a) (hw : ∀ i, 0 ≤ w i) (hsum : ∑ i, w i = 1) (k : ι) :
    |(a.served k : K) - w k * j| ≤ 2 * Fintype.card ι := by
  have hcard : (0 : K) ≤ Fintype.card ι := Nat.cast_nonneg _
  rw [abs_le]
  by_cases hk : k ∈ a.opened
  · have hlower := h.lower k hk
    have hupper := h.upper k hk
    have hcredit := h.credit_le k
    have hnonneg := h.nonneg k
    have hone : (1 : K) ≤ Fintype.card ι := by
      exact_mod_cast Fintype.card_pos_iff.mpr ⟨k⟩
    constructor <;> linarith
  · have hj : a.opened.card = j := h.opening.resolve_left fun hall => hk (hall k)
    have hle : (j : K) ≤ Fintype.card ι := by
      rw [← hj]
      exact Nat.cast_le.mpr (Finset.card_le_univ _)
    have hshare := share_le_one hw hsum k
    have hprod : w k * j ≤ 1 * j := by gcongr
    have hpos : 0 ≤ w k * j := mul_nonneg (hw k) (Nat.cast_nonneg _)
    rw [(h.closed k hk).2, Nat.cast_zero]
    constructor <;> linarith

end Accounts

end Trex.Lib
