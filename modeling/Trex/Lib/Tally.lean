/-
# Tallies

A list is counted by classes; an entry may belong to no class at all.  The numbers of all classes
add up to the number of entries that have one (`sum_tally`), and so does anything that each entry
adds by its class (`sum_mul_tally`).
-/
import Mathlib.Algebra.BigOperators.Ring.Finset

namespace Trex.Lib

open List

variable {α β : Type*} [DecidableEq β] {g : α → Option β}

/-- How many entries are of the class `b`. -/
def tally (g : α → Option β) (w : List α) (b : β) : Nat := w.countP fun x => decide (g x = some b)

@[simp] theorem tally_nil (b : β) : tally g [] b = 0 := rfl

@[simp] theorem tally_cons (x : α) (w : List α) (b : β) :
    tally g (x :: w) b = tally g w b + if g x = some b then 1 else 0 := by
  simp [tally, countP_cons]

@[simp] theorem tally_append (v w : List α) (b : β) :
    tally g (v ++ w) b = tally g v b + tally g w b :=
  countP_append

/-- One entry more, of the class `b`. -/
theorem tally_concat_some {x : α} {b : β} (h : g x = some b) (w : List α) :
    tally g (w ++ [x]) = Function.update (tally g w) b (tally g w b + 1) := by
  funext c
  rw [tally_append, tally_cons, tally_nil, h, Nat.zero_add]
  by_cases hc : c = b
  · subst hc
    rw [if_pos rfl, Function.update_self]
  · rw [if_neg (fun heq => hc (Option.some_inj.mp heq).symm), Function.update_of_ne hc,
      Nat.add_zero]

/-- One entry more, of no class. -/
theorem tally_concat_none {x : α} (h : g x = none) (w : List α) :
    tally g (w ++ [x]) = tally g w := by
  funext c
  rw [tally_append, tally_cons, tally_nil, h]
  simp

/-- Two conditions, the stronger one is met as often as the weaker one: then they agree on all
entries. -/
theorem countP_eq_countP_iff {p q : α → Bool} (himp : ∀ x, q x = true → p x = true) (w : List α) :
    w.countP q = w.countP p ↔ ∀ x ∈ w, p x = true → q x = true := by
  induction w with
  | nil => simp
  | cons x w ih =>
    have hle : w.countP q ≤ w.countP p := countP_mono_left fun x _ => himp x
    rw [countP_cons, countP_cons, forall_mem_cons, ← ih]
    cases hp : p x with
    | false =>
      have hq : q x = false := Bool.eq_false_iff.mpr fun hq => by rw [himp x hq] at hp; cases hp
      simp [hq]
    | true =>
      cases hq : q x with
      | true => simp
      | false => simpa using Nat.ne_of_lt (Nat.lt_succ_of_le hle)

variable [Fintype β]

/-- **What the entries add up to**, when each adds what its class says. -/
theorem sum_mul_tally {K : Type*} [CommSemiring K] (f : β → K) (w : List α) :
    ∑ b, tally g w b * f b = (w.map fun x => (g x).elim 0 f).sum := by
  induction w with
  | nil => simp
  | cons x w ih =>
    have hhead : ∑ b, (if g x = some b then f b else 0) = (g x).elim 0 f := by
      cases hx : g x with
      | none => simp
      | some b => simp
    simp only [tally_cons, Nat.cast_add, Nat.cast_ite, Nat.cast_one, Nat.cast_zero, add_mul,
      ite_mul, one_mul, zero_mul, Finset.sum_add_distrib, hhead, ih, map_cons, sum_cons]
    rw [add_comm]

/-- **The classes add up to the entries that have one.** -/
theorem sum_tally (w : List α) : ∑ b, tally g w b = w.countP fun x => (g x).isSome := by
  have hones : (w.map fun x => (g x).elim 0 fun _ => 1).sum = w.countP fun x => (g x).isSome := by
    induction w with
    | nil => rfl
    | cons x w ih =>
      rw [map_cons, sum_cons, countP_cons, ih]
      cases g x with
      | none => simp
      | some b => simp [Nat.add_comm]
  have hsum := sum_mul_tally (g := g) (fun _ => 1) w
  rw [hones] at hsum
  simpa using hsum

end Trex.Lib
