/-
# Interleavings of independent processes

Processes that share nothing run in any order: a schedule is a list of process numbers, and each
entry lets that process take one step.  A process may also yield a result at every step, of an input
that comes with the entry (`outputs`): what has come after a schedule is what the processes yield
one by one, each as far as it was scheduled (`mem_outputs_iff`), so there is a bound for all
schedules exactly if it is one for all that they yield together (`outputs_card_le_iff`).
-/
import Mathlib.Algebra.Order.BigOperators.Group.List
import Mathlib.Data.Set.Card
import Mathlib.Data.Set.Finite.Lattice
import Trex.Lib.Refine

namespace Trex.Lib

open List
open Function (update update_of_ne update_self)

variable {α β : Type}

/-- The processes after a schedule. -/
def interleave (f : α → α) : List α → List Nat → List α
  | xs, [] => xs
  | xs, i :: sched => interleave f (xs.modify i f) sched

variable {f : α → α}

/-- **What every step preserves is preserved for every process, whatever the schedule.** -/
theorem map_interleave {φ : α → β} (h : ∀ x, φ (f x) = φ x) :
    ∀ (xs : List α) (sched : List Nat), (interleave f xs sched).map φ = xs.map φ
  | xs, [] => rfl
  | xs, i :: sched => by
    rw [interleave, map_interleave h]
    refine ext_getElem? fun k => ?_
    rw [List.getElem?_map, List.getElem?_map, List.getElem?_modify]
    cases xs[k]? with
    | none => rfl
    | some x =>
      by_cases hik : i = k
      · simp [hik, h]
      · simp [hik]

/-- **A process after a schedule** took as many steps as it was scheduled. -/
theorem getElem?_interleave (f : α → α) (xs : List α) (sched : List Nat) (i : Nat) :
    (interleave f xs sched)[i]? = xs[i]?.map f^[sched.count i] := by
  induction sched generalizing xs with
  | nil =>
    simp [interleave, id]
  | cons j sched ih =>
    rw [interleave, ih, List.getElem?_modify, count_cons]
    by_cases hji : j = i
    · subst hji
      cases xs[j]? with
      | none => rfl
      | some x => simp
    · cases xs[i]? with
      | none => rfl
      | some x => simp [hji]

/-- One step of a process lowers the total. -/
theorem sum_modify_lt {μ : α → Nat} : ∀ {xs : List α} {i : Nat} {x : α},
    xs[i]? = some x → μ (f x) < μ x → ((xs.modify i f).map μ).sum < (xs.map μ).sum
  | [], i, x, hx, _ => by simp at hx
  | y :: xs, 0, x, hx, hlt => by
    obtain rfl : y = x := by simpa using hx
    simpa using hlt
  | y :: xs, i + 1, x, hx, hlt => by
    have hx' : xs[i]? = some x := by simpa using hx
    simpa using sum_modify_lt hx' hlt

/-- **When every unfinished process makes progress, some schedule finishes them all.** -/
theorem exists_interleave_done {done : α → Prop} (μ : α → Nat) (h : ∀ x, ¬ done x → μ (f x) < μ x)
    (xs : List α) :
    ∃ sched, ∀ x ∈ interleave f xs sched, done x := by
  induction hk : (xs.map μ).sum using Nat.strong_induction_on generalizing xs with
  | _ k ih =>
    by_cases hall : ∀ x ∈ xs, done x
    · exact ⟨[], hall⟩
    · push Not at hall
      obtain ⟨x, hx, hnot⟩ := hall
      obtain ⟨i, hi⟩ := List.getElem?_of_mem hx
      have hlt := sum_modify_lt hi (h x hnot)
      obtain ⟨sched, hs⟩ := ih _ (hk ▸ hlt) (xs.modify i f) rfl
      exact ⟨i :: sched, hs⟩

/-! ## Results -/

section Outputs

variable {ι ε : Type} (step : ι → α → Except ε α) (out : α → β)

/-- What the processes yield over a schedule. -/
def outputs : List α → List (Nat × ι) → Except ε (List β)
  | _, [] => .ok []
  | xs, (j, a) :: sched =>
    match xs[j]? with
    | none => outputs xs sched
    | some x => do
      let x' ← step a x
      let ys ← outputs (xs.set j x') sched
      .ok (out x' :: ys)

/-- Process `j` yields `F j`: `Q j e x` says that `x` is this process after `e` steps. -/
structure Yields (Q : Nat → Nat → α → Prop) (F : Nat → Nat → β) : Prop where
  step : ∀ j e x a x', Q j e x → step a x = .ok x' → Q j (e + 1) x' ∧ out x' = F j e

variable {step out} {Q : Nat → Nat → α → Prop} {F : Nat → Nat → β}

/-- The processes are where they are after `e j` steps. -/
def Standing (Q : Nat → Nat → α → Prop) (xs : List α) (e : Nat → Nat) : Prop :=
  ∀ j x, xs[j]? = some x → Q j (e j) x

variable {xs : List α}

theorem Standing.set {e : Nat → Nat} (h : Standing Q xs e) {j : Nat} {x' : α}
    (hx' : Q j (e j + 1) x') : Standing Q (xs.set j x') (update e j (e j + 1)) := by
  intro k x hk
  rw [List.getElem?_set] at hk
  by_cases hjk : j = k
  · subst hjk
    rw [if_pos rfl] at hk
    split at hk
    · cases hk
      rw [update_self]
      exact hx'
    · cases hk
  · rw [if_neg hjk] at hk
    rw [update_of_ne (Ne.symm hjk)]
    exact h k x hk

/-- **What has come after a schedule**: of every process the results of the steps that it was
scheduled for. -/
theorem mem_outputs_iff (hy : Yields step out Q F) :
    ∀ {sched : List (Nat × ι)} {xs : List α} {e : Nat → Nat}
    {ys : List β}, Standing Q xs e → outputs step out xs sched = .ok ys → ∀ y,
      (y ∈ ys ↔ ∃ j < xs.length, ∃ t, e j ≤ t ∧ t < e j + (sched.map Prod.fst).count j ∧ y = F j t)
  | [], xs, e, ys, _, h, y => by
    cases h
    constructor
    · intro hmem
      cases hmem
    · rintro ⟨j, -, t, h1, h2, -⟩
      simp at h2
      omega
  | (j, a) :: sched, xs, e, ys, hst, h, y => by
    rw [outputs] at h
    rw [map_cons]
    cases hx : xs[j]? with
    | none =>
      rw [hx] at h
      have hge : xs.length ≤ j := List.getElem?_eq_none_iff.mp hx
      rw [mem_outputs_iff hy hst h y]
      refine exists_congr fun k => and_congr_right fun hk => ?_
      rw [count_cons_of_ne (by omega)]
    | some x =>
      rw [hx] at h
      dsimp only at h
      obtain ⟨x', hstep, h⟩ := bind_eq_ok h
      obtain ⟨ys', hrest, h⟩ := bind_eq_ok h
      cases h
      have hj : j < xs.length := (List.getElem?_eq_some_iff.mp hx).1
      obtain ⟨hQ, hout⟩ := hy.step j (e j) x a x' (hst j x hx) hstep
      rw [mem_cons, mem_outputs_iff hy (hst.set hQ) hrest y, hout, length_set]
      constructor
      · rintro (rfl | ⟨k, hk, t, h1, h2, rfl⟩)
        · exact ⟨j, hj, e j, le_rfl, by rw [count_cons_self]; omega, rfl⟩
        · refine ⟨k, hk, t, ?_, ?_, rfl⟩
          · by_cases hjk : k = j
            · subst hjk
              rw [update_self] at h1
              omega
            · rwa [update_of_ne hjk] at h1
          · by_cases hjk : k = j
            · subst hjk
              rw [update_self] at h2
              rw [count_cons_self]
              omega
            · rw [update_of_ne hjk] at h2
              rwa [count_cons_of_ne (Ne.symm hjk)]
      · rintro ⟨k, hk, t, h1, h2, rfl⟩
        by_cases hjk : k = j
        · subst hjk
          rw [count_cons_self] at h2
          by_cases hfirst : t = e k
          · exact Or.inl (by rw [hfirst])
          · exact Or.inr ⟨k, hk, t, by rw [update_self]; omega, by rw [update_self]; omega, rfl⟩
        · rw [count_cons_of_ne (Ne.symm hjk)] at h2
          exact Or.inr ⟨k, hk, t, by rwa [update_of_ne hjk], by rwa [update_of_ne hjk], rfl⟩

/-- Processes that cannot step yield nothing. -/
theorem outputs_stuck : ∀ {sched : List (Nat × ι)} {xs : List α} {ys : List β},
    (∀ x ∈ xs, ∀ a x', step a x ≠ .ok x') → outputs step out xs sched = .ok ys → ys = []
  | [], xs, ys, _, h => by
    cases h
    rfl
  | (j, a) :: sched, xs, ys, hstuck, h => by
    rw [outputs] at h
    cases hx : xs[j]? with
    | none =>
      rw [hx] at h
      exact outputs_stuck hstuck h
    | some x =>
      rw [hx] at h
      obtain ⟨x', hstep, -⟩ := bind_eq_ok h
      exact absurd hstep (hstuck x (mem_of_getElem? hx) a x')

/-- When every process can go on, every schedule runs to its end. -/
theorem outputs_ok (hy : Yields step out Q F) (hgo : ∀ j e x a, Q j e x → ∃ x', step a x = .ok x') :
    ∀ (sched : List (Nat × ι)) {xs : List α} {e : Nat → Nat}, Standing Q xs e →
      ∃ ys, outputs step out xs sched = .ok ys
  | [], xs, e, _ => ⟨[], rfl⟩
  | (j, a) :: sched, xs, e, hst => by
    rw [outputs]
    cases hx : xs[j]? with
    | none => exact outputs_ok hy hgo sched hst
    | some x =>
      obtain ⟨x', hstep⟩ := hgo j (e j) x a (hst j x hx)
      obtain ⟨hQ, -⟩ := hy.step j (e j) x a x' (hst j x hx) hstep
      obtain ⟨ys, hrest⟩ := outputs_ok hy hgo sched (hst.set hQ)
      refine ⟨out x' :: ys, ?_⟩
      dsimp only
      rw [hstep, ok_bind, hrest, ok_bind]

/-- What the processes yield together bounds what comes after any schedule. -/
theorem outputs_card_le [DecidableEq β] (hy : Yields step out Q F)
    (hst : Standing Q xs fun _ => 0) (hfin : ∀ j < xs.length, (Set.range (F j)).Finite) {n : Nat}
    (hle : (⋃ j ∈ {j | j < xs.length}, Set.range (F j)).ncard ≤ n) {sched : List (Nat × ι)}
    {ys : List β} (hrun : outputs step out xs sched = .ok ys) : ys.toFinset.card ≤ n := by
  refine le_trans ?_ hle
  rw [← Set.ncard_coe_finset]
  refine Set.ncard_le_ncard ?_ (Set.Finite.biUnion (Set.finite_lt_nat xs.length) hfin)
  intro y hy'
  rw [coe_toFinset] at hy'
  obtain ⟨j, hj, t, -, -, rfl⟩ := (mem_outputs_iff hy hst hrun y).mp hy'
  exact Set.mem_biUnion hj ⟨t, rfl⟩

/-- **A bound for every schedule is one for all that the processes yield together**, if every
process can go on. -/
theorem outputs_card_le_iff [DecidableEq β] (hy : Yields step out Q F)
    (hgo : ∀ j e x a, Q j e x → ∃ x', step a x = .ok x') (hst : Standing Q xs fun _ => 0) (a : ι)
    (hfin : ∀ j < xs.length, (Set.range (F j)).Finite) (n : Nat) :
    (∀ sched ys, outputs step out xs sched = .ok ys → ys.toFinset.card ≤ n) ↔
      (⋃ j ∈ {j | j < xs.length}, Set.range (F j)).ncard ≤ n := by
  have hunion : (⋃ j ∈ {j | j < xs.length}, Set.range (F j)).Finite :=
    Set.Finite.biUnion (Set.finite_lt_nat xs.length) hfin
  refine ⟨fun hall => ?_, fun hle sched ys hrun => outputs_card_le hy hst hfin hle hrun⟩
  -- every result comes within a number of steps, and one number is enough for all
  have hwithin : ∃ K, ∀ y ∈ ⋃ j ∈ {j | j < xs.length}, Set.range (F j), ∃ j < xs.length, ∃ t < K,
      y = F j t := by
    refine Set.Finite.induction_on_subset _ hunion ⟨0, fun y hy => by cases hy⟩ ?_
    rintro y s hy - - ⟨K, hK⟩
    obtain ⟨j, hj, t, rfl⟩ : ∃ j < xs.length, ∃ t, F j t = y := by simpa using hy
    refine ⟨max K (t + 1), ?_⟩
    rintro z (rfl | hz)
    · exact ⟨j, hj, t, by omega, rfl⟩
    · obtain ⟨j', hj', t', ht', rfl⟩ := hK z hz
      exact ⟨j', hj', t', by omega, rfl⟩
  obtain ⟨K, hK⟩ := hwithin
  let sched : List (Nat × ι) :=
    ((List.range xs.length).map fun j => List.replicate K (j, a)).flatten
  obtain ⟨ys, hrun⟩ := outputs_ok hy hgo sched hst
  have hcount : ∀ j < xs.length, K ≤ (sched.map Prod.fst).count j := by
    intro j hj
    have hmem : (List.replicate K (j, a)).Sublist sched :=
      sublist_flatten_of_mem (mem_map_of_mem (mem_range.mpr hj))
    have hle := (hmem.map Prod.fst).count_le j
    simpa using hle
  have hsub : (⋃ j ∈ {j | j < xs.length}, Set.range (F j)) ⊆ (ys.toFinset : Set β) := by
    intro y hy'
    obtain ⟨j, hj, t, ht, rfl⟩ := hK y hy'
    have hle := hcount j hj
    rw [coe_toFinset]
    exact (mem_outputs_iff hy hst hrun _).mpr ⟨j, hj, t, Nat.zero_le _, by omega, rfl⟩
  calc (⋃ j ∈ {j | j < xs.length}, Set.range (F j)).ncard
      ≤ (ys.toFinset : Set β).ncard := Set.ncard_le_ncard hsub (Finset.finite_toSet _)
    _ = ys.toFinset.card := Set.ncard_coe_finset _
    _ ≤ n := hall sched ys hrun

end Outputs

end Trex.Lib
