/-
# Serial numbers

A receiver that expects the next serial number counts an error where it gets another one, and goes
on behind the number that it got (`Checker`).  The numbers come from a type in which they may wrap
around: `serial n` is the number of the `n`-th item.

The receiver has no error if and only if it got the first items, all of them, once and in order
(`Tracks.errors`), as long as it cannot take the number of an item for the one that it expects
(`Tracks.check`).
-/
import Mathlib.Data.List.Infix
import Mathlib.Data.List.Range

namespace Trex.Lib

open List

variable {α : Type*} [DecidableEq α] [Add α] [One α] {serial : Nat → α} {l : List Nat} {n m : Nat}

/-! ## 1. Items in order -/

/-- The item behind the last one. -/
def expected (l : List Nat) : Nat :=
  match l.getLast? with
  | none => 0
  | some n => n + 1

theorem expected_snoc (l : List Nat) (n : Nat) : expected (l ++ [n]) = n + 1 := by
  simp only [expected, List.getLast?_concat]

theorem expected_range (k : Nat) : expected (List.range k) = k := by
  cases k with
  | zero => rfl
  | succ k => rw [range_succ, expected_snoc]

/-- One more item in order. -/
theorem inOrder_snoc (l : List Nat) (n : Nat) :
    l ++ [n] = List.range (l ++ [n]).length ↔ l = List.range l.length ∧ n = expected l := by
  rw [length_append, length_singleton, range_succ]
  constructor
  · intro h
    obtain ⟨hl, hn⟩ := append_inj' h rfl
    have hlast : n = l.length := singleton_injective hn
    refine ⟨hl, ?_⟩
    rw [hl, expected_range, hlast]
  · rintro ⟨hl, hn⟩
    have hlast : n = l.length := by rw [hn, hl, expected_range, length_range]
    rw [hlast, ← hl]

/-- Items out of the first `m`, in order from the first one. -/
theorem prefix_range_iff (h : ∀ n ∈ l, n < m) : l <+: List.range m ↔ l = List.range l.length := by
  constructor
  · intro hpre
    have htake := prefix_iff_eq_take.mp hpre
    have hle : l.length ≤ m := by simpa using hpre.length_le
    rwa [take_range, Nat.min_eq_left hle] at htake
  · intro heq
    have hle : l.length ≤ m := by
      by_contra hlt
      have hmem : m ∈ l := by
        rw [heq]
        exact mem_range.mpr (Nat.lt_of_not_le hlt)
      exact absurd (h m hmem) (lt_irrefl m)
    rw [heq]
    exact prefix_iff_eq_take.mpr (by rw [length_range, take_range, Nat.min_eq_left hle])

/-! ## 2. The receiver -/

structure Checker (α : Type*) where
  expect : α
  errors : Nat

/-- The receiver gets `a`. -/
def Checker.check (c : Checker α) (a : α) : Checker α where
  expect := a + 1
  errors := if a = c.expect then c.errors else c.errors + 1

/-- A receiver that got the items `l`, from its first state on. -/
structure Tracks (serial : Nat → α) (l : List Nat) (c : Checker α) : Prop where
  expect : c.expect = serial (expected l)
  errors : c.errors = 0 ↔ l = List.range l.length

omit [DecidableEq α] [Add α] [One α] in
/-- The receiver at its first state. -/
theorem Tracks.start {c : Checker α} (hexpect : c.expect = serial 0) (herrors : c.errors = 0) :
    Tracks serial [] c where
  expect := hexpect
  errors := iff_of_true herrors rfl

/-- **The receiver gets item `n`**, whose number is that of the expected item only if it is that
item. -/
theorem Tracks.check {c : Checker α} (h : Tracks serial l c) (hsucc : serial (n + 1) = serial n + 1)
    (hfar : serial n = serial (expected l) → n = expected l) :
    Tracks serial (l ++ [n]) (c.check (serial n)) where
  expect := by rw [expected_snoc, hsucc]; rfl
  errors := by
    rw [inOrder_snoc]
    by_cases hn : serial n = c.expect
    · have hexp : n = expected l := hfar (hn.trans h.expect)
      rw [Checker.check, if_pos hn, h.errors]
      exact ⟨fun hl => ⟨hl, hexp⟩, fun hl => hl.1⟩
    · rw [Checker.check, if_neg hn]
      refine iff_of_false (Nat.succ_ne_zero _) ?_
      rintro ⟨-, hexp⟩
      exact hn (by rw [hexp, h.expect])

end Trex.Lib
