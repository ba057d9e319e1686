/-
# Pools of scheduled objects

Objects that belong to owners, run from one queue, and are counted while they run.  An object is
idle or running for its owner; when an owner gives its objects up, an idle one is gone at once, and
a running one stays in the queue until it is reached (`leaving`).  `Pool.Ok` ties the three records
that such a system keeps to the states of the objects: the list of every owner, the counter of every
owner, and the queue.  The operations below are the ways a single object can change, and each keeps
`Ok`.
-/
import Mathlib.Data.List.Perm.Basic

namespace Trex.Lib

open List
open Function (update)

/-! ## 1. Counting with one entry changed -/

section Count

variable {α : Type} [DecidableEq α]

/-- What a list counts is what it counts apart from one value, and that value. -/
theorem countP_split (f : α → Bool) (p : α) : ∀ l : List α,
    l.countP f = (l.filter (· ≠ p)).countP f + l.count p * (f p).toNat
  | [] => by simp
  | x :: l => by
    have ih := countP_split f p l
    by_cases hx : x = p
    · subst hx
      rw [countP_cons, count_cons_self, filter_cons_of_neg (by simp), ih, Nat.succ_mul]
      cases f x <;> simp [Nat.add_assoc]
    · rw [countP_cons, count_cons_of_ne hx, filter_cons_of_pos (by simpa using hx),
        countP_cons, ih]
      omega

/-- **Two lists and two tests that differ at one value only.** -/
theorem countP_update {f g : α → Bool} {p : α} {l l' : List α}
    (hl : ∀ q ≠ p, l'.count q = l.count q) (hfg : ∀ q ≠ p, g q = f q) :
    l'.countP g + l.count p * (f p).toNat = l.countP f + l'.count p * (g p).toNat := by
  have hperm : (l'.filter (· ≠ p)).Perm (l.filter (· ≠ p)) := by
    refine perm_iff_count.mpr fun q => ?_
    by_cases hq : q = p
    · subst hq
      have hzero : ∀ m : List α, (m.filter (· ≠ q)).count q = 0 := by
        intro m
        exact count_eq_zero.mpr fun hmem => by simpa using (mem_filter.mp hmem).2
      rw [hzero, hzero]
    · rw [count_filter (by simpa using hq), count_filter (by simpa using hq), hl q hq]
  have hcongr : (l'.filter (· ≠ p)).countP g = (l.filter (· ≠ p)).countP f := by
    rw [hperm.countP_eq]
    refine countP_congr fun q hq => ?_
    have hq' : q ≠ p := by simpa using (mem_filter.mp hq).2
    rw [hfg q hq']
  rw [countP_split g p l', countP_split f p l, hcongr]
  omega

end Count

/-! ## 2. Pools -/

/-- What an object is doing. -/
inductive Status (ι : Type)
  | absent
  | idle (i : ι)
  | running (i : ι)
  | leaving
deriving DecidableEq

/-- The states of the objects, and what is recorded of them. -/
structure Pool (ι κ : Type) where
  status : κ → Status ι
  nodes : ι → List κ
  count : ι → Nat
  queued : List κ

namespace Pool

variable {ι κ : Type} [DecidableEq ι] [DecidableEq κ]

/-- An object belongs to an owner. -/
def Owned (P : Pool ι κ) (i : ι) (p : κ) : Prop := P.status p = .idle i ∨ P.status p = .running i

instance  (P : Pool ι κ) (i : ι) (p : κ) :
    Decidable (P.Owned i p) := inferInstanceAs (Decidable (_ ∨ _))

/-- An object runs or is waiting to be removed. -/
def Scheduled : Status ι → Bool
  | .absent => false
  | .idle _ => false
  | .running _ => true
  | .leaving => true

/-- **The records agree with the states**: an owner lists its objects once each and counts the
running ones, and the queue holds every scheduled object once. -/
structure Ok (P : Pool ι κ) : Prop where
  nodes : ∀ i p, (P.nodes i).count p = if P.Owned i p then 1 else 0
  queued : ∀ p, P.queued.count p = (Scheduled (P.status p)).toNat
  count : ∀ i, P.count i = (P.nodes i).countP fun p => decide (P.status p = .running i)

variable {P P' : Pool ι κ}

namespace Ok

theorem mem_nodes (h : P.Ok) {i : ι} {p : κ} : p ∈ P.nodes i ↔ P.Owned i p := by
  rw [← count_pos_iff, h.nodes i p]
  split <;> simp_all

theorem nodup (h : P.Ok) (i : ι) : (P.nodes i).Nodup := by
  refine nodup_iff_count.mpr fun p => ?_
  rw [h.nodes i p]
  split <;> simp

theorem mem_queued (h : P.Ok) {p : κ} : p ∈ P.queued ↔ Scheduled (P.status p) = true := by
  rw [← count_pos_iff, h.queued p]
  cases Scheduled (P.status p) <;> simp

theorem count_pos (h : P.Ok) {i : ι} {p : κ} (hp : P.status p = .running i) : 0 < P.count i := by
  rw [h.count i, countP_pos_iff]
  exact ⟨p, h.mem_nodes.mpr (Or.inr hp), by simpa using hp⟩

/-- **One object changes**: the other objects keep their state and their place in the records, and
the records follow the one that changes. -/
theorem change (h : P.Ok) (p : κ) (hs : ∀ q ≠ p, P'.status q = P.status q)
    (hn : ∀ i, ∀ q ≠ p, (P'.nodes i).count q = (P.nodes i).count q)
    (hnp : ∀ i, (P'.nodes i).count p = if P'.Owned i p then 1 else 0)
    (hq : ∀ q ≠ p, P'.queued.count q = P.queued.count q)
    (hqp : P'.queued.count p = (Scheduled (P'.status p)).toNat)
    (hc : ∀ i, P'.count i + (if P.status p = .running i then 1 else 0)
      = P.count i + (if P'.status p = .running i then 1 else 0)) : P'.Ok := by
  have howned : ∀ i, ∀ q ≠ p, (P'.Owned i q ↔ P.Owned i q) := by
    intro i q hq
    rw [Owned, Owned, hs q hq]
  refine ⟨fun i q => ?_, fun q => ?_, fun i => ?_⟩
  · by_cases hqp' : q = p
    · rw [hqp']
      exact hnp i
    · rw [hn i q hqp', h.nodes i q]
      simp only [howned i q hqp']
  · by_cases hqp' : q = p
    · rw [hqp']
      exact hqp
    · rw [hq q hqp', h.queued q, hs q hqp']
  · have hcount := countP_update (f := fun q => decide (P.status q = .running i))
      (g := fun q => decide (P'.status q = .running i)) (hn i) fun q hq' => by simp only [hs q hq']
    have hterm : ∀ (Q : Pool ι κ), ((Q.nodes i).count p = if Q.Owned i p then 1 else 0) →
        (Q.nodes i).count p * (decide (Q.status p = .running i)).toNat
          = if Q.status p = .running i then 1 else 0 := by
      intro Q hQ
      by_cases hrun : Q.status p = .running i
      · have hown : Q.Owned i p := Or.inr hrun
        simp [hQ, hown, hrun]
      · simp [hrun]
    rw [hterm P (h.nodes i p), hterm P' (hnp i), ← h.count i] at hcount
    have := hc i
    omega

/-! ## 3. The operations -/

variable {i : ι} {p : κ}

/-- The queue holds the same objects in another order. -/
theorem requeue (h : P.Ok) {queued : List κ} (hperm : P.queued.Perm queued) :
    Ok { P with queued := queued } :=
  ⟨h.nodes, fun q => (hperm.count_eq q).symm.trans (h.queued q), h.count⟩

/-- A new object. -/
theorem add (h : P.Ok) (hp : P.status p = .absent) (active : Bool) :
    Ok { P with
      status := update P.status p (if active then .running i else .idle i)
      nodes := update P.nodes i (P.nodes i ++ [p])
      count := update P.count i (P.count i + active.toNat)
      queued := if active then p :: P.queued else P.queued } := by
  have hzero : ∀ j, (P.nodes j).count p = 0 := fun j => by simp [h.nodes j p, Owned, hp]
  have hqueued : P.queued.count p = 0 := by simp [h.queued p, hp, Scheduled]
  refine h.change p (fun q hq => by simp [hq]) (fun j q hq => ?_) (fun j => ?_) (fun q hq => ?_) ?_
    fun j => ?_
  · by_cases hj : j = i
    · subst hj
      simp [hq.symm]
    · simp [hj]
  · by_cases hj : j = i
    · subst hj
      cases active <;> simp [Owned, hzero]
    · cases active <;> simp [Owned, hzero, hj, Ne.symm hj]
  · cases active <;> simp [hq.symm]
  · cases active <;> simp [Scheduled, hqueued]
  · by_cases hj : j = i
    · subst hj
      cases active <;> simp [hp]
    · cases active <;> simp [hp, hj, Ne.symm hj]

/-- An idle object starts to run. -/
theorem wake (h : P.Ok) (hp : P.status p = .idle i) :
    Ok { P with
      status := update P.status p (.running i)
      count := update P.count i (P.count i + 1)
      queued := p :: P.queued } := by
  refine h.change p (fun q hq => by simp [hq]) (fun j q _ => rfl) (fun j => ?_) (fun q hq => ?_) ?_
    fun j => ?_
  · simp [h.nodes j p, Owned, hp]
  · simp [hq.symm]
  · simp [h.queued p, hp, Scheduled]
  · by_cases hj : j = i
    · subst hj
      simp [hp]
    · simp [hp, hj, Ne.symm hj]

variable {rest : List κ}

/-- A running object is reached by the scheduler and becomes idle. -/
theorem finish (h : P.Ok) (hp : P.status p = .running i) (hperm : P.queued.Perm (p :: rest)) :
    Ok { P with
      status := update P.status p (.idle i)
      count := update P.count i (P.count i - 1)
      queued := rest } := by
  have hpos := h.count_pos hp
  have hqueued : ∀ q, P.queued.count q = (p :: rest).count q := hperm.count_eq
  refine h.change p (fun q hq => by simp [hq]) (fun j q _ => rfl) (fun j => ?_) (fun q hq => ?_) ?_
    fun j => ?_
  · simp [h.nodes j p, Owned, hp]
  · simp [hqueued q, hq.symm]
  · have hone := h.queued p
    rw [hqueued p, count_cons_self, hp] at hone
    simpa [Scheduled] using hone
  · by_cases hj : j = i
    · subst hj
      simp [hp]
      omega
    · simp [hp, hj, Ne.symm hj]

/-- An object that is leaving is reached by the scheduler and is gone. -/
theorem release (h : P.Ok) (hp : P.status p = .leaving) (hperm : P.queued.Perm (p :: rest)) :
    Ok { P with status := update P.status p .absent, queued := rest } := by
  have hqueued : ∀ q, P.queued.count q = (p :: rest).count q := hperm.count_eq
  refine h.change p (fun q hq => by simp [hq]) (fun j q _ => rfl) (fun j => ?_) (fun q hq => ?_) ?_
    fun j => by simp [hp]
  · simp [h.nodes j p, Owned, hp]
  · simp [hqueued q, hq.symm]
  · have hone := h.queued p
    rw [hqueued p, count_cons_self, hp] at hone
    simpa [Scheduled] using hone

/-- An owner gives up a running object. -/
theorem leave (h : P.Ok) (hp : P.status p = .running i) (hnodes : P.nodes i = p :: rest) :
    Ok { P with
      status := update P.status p .leaving
      nodes := update P.nodes i rest
      count := update P.count i (P.count i - 1) } := by
  have hpos := h.count_pos hp
  refine h.change p (fun q hq => by simp [hq]) (fun j q hq => ?_) (fun j => ?_) (fun q _ => rfl) ?_
    fun j => ?_
  · by_cases hj : j = i
    · subst hj
      simp [hnodes, hq.symm]
    · simp [hj]
  · by_cases hj : j = i
    · subst hj
      have hone := h.nodes j p
      rw [hnodes, count_cons_self] at hone
      simpa [Owned, hp] using hone
    · simp [h.nodes j p, Owned, hp, hj, Ne.symm hj]
  · simp [h.queued p, hp, Scheduled]
  · by_cases hj : j = i
    · subst hj
      simp [hp]
      omega
    · simp [hp, hj, Ne.symm hj]

/-- An owner gives up an idle object. -/
theorem drop (h : P.Ok) (hp : P.status p = .idle i) (hnodes : P.nodes i = p :: rest) :
    Ok { P with
      status := update P.status p .absent
      nodes := update P.nodes i rest } := by
  refine h.change p (fun q hq => by simp [hq]) (fun j q hq => ?_) (fun j => ?_) (fun q _ => rfl) ?_
    fun j => by simp [hp]
  · by_cases hj : j = i
    · subst hj
      simp [hnodes, hq.symm]
    · simp [hj]
  · by_cases hj : j = i
    · subst hj
      have hone := h.nodes j p
      rw [hnodes, count_cons_self] at hone
      simpa [Owned, hp] using hone
    · simp [h.nodes j p, Owned, hp, hj, Ne.symm hj]
  · simp [h.queued p, hp, Scheduled]

end Ok

end Pool

end Trex.Lib
