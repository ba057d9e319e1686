/-
# Ranges that tile a range

`Tiles a b l` says that the ranges of the list `l`, in order, tile the range from `a` to `b`: the
first one begins at `a`, each of them ends right before the next one begins, and the last one ends
at `b`.  So every number of the range lies in exactly one of them (`Tiles.existsUnique`), and the
numbers of all of them, one range after the other, are the numbers of the range
(`Tiles.flatMap_range'`).
-/
import Mathlib.Data.List.Basic

namespace Trex.Lib

/-- The ranges, as pairs of the first and the last number, tile a range. -/
inductive Tiles : Nat → Nat → List (Nat × Nat) → Prop
  | one {a b : Nat} (h : a ≤ b) : Tiles a b [(a, b)]
  | cons {a m b : Nat} {l : List (Nat × Nat)} (h : a ≤ m) (t : Tiles (m + 1) b l) :
      Tiles a b ((a, m) :: l)

namespace Tiles

variable {a b : Nat} {l : List (Nat × Nat)}

theorem le (h : Tiles a b l) : a ≤ b := by
  induction h with
  | one h => exact h
  | cons h _ ih => omega

/-- A range ends right before the next one begins. -/
theorem adjacent {r r' : Nat × Nat} (h : Tiles a b (r :: r' :: l)) : r'.1 = r.2 + 1 := by
  cases h with
  | cons _ t => cases t <;> rfl

/-- The ranges lie inside. -/
theorem inside (h : Tiles a b l) : ∀ r ∈ l, a ≤ r.1 ∧ r.1 ≤ r.2 ∧ r.2 ≤ b := by
  induction h with
  | one h =>
    intro r hr
    obtain rfl := List.mem_singleton.mp hr
    exact ⟨Nat.le_refl _, h, Nat.le_refl _⟩
  | cons h t ih =>
    intro r hr
    have hb := t.le
    rcases List.mem_cons.mp hr with rfl | hr
    · exact ⟨Nat.le_refl _, h, by dsimp only; omega⟩
    · obtain ⟨h1, h2, h3⟩ := ih r hr
      exact ⟨by omega, h2, h3⟩

/-- **Every number lies in exactly one range.** -/
theorem existsUnique (h : Tiles a b l) {v : Nat} (ha : a ≤ v) (hb : v ≤ b) :
    ∃! j : Nat, ∃ r, l[j]? = some r ∧ r.1 ≤ v ∧ v ≤ r.2 := by
  induction h with
  | @one a b h =>
    refine ⟨0, ⟨(a, b), rfl, ha, hb⟩, ?_⟩
    rintro (_ | j) ⟨r, hr, -⟩
    · rfl
    · exact absurd hr (by simp)
  | @cons a m b l h t ih =>
    by_cases hv : v ≤ m
    · refine ⟨0, ⟨(a, m), rfl, ha, hv⟩, ?_⟩
      rintro (_ | j) ⟨r, hr, h1, -⟩
      · rfl
      · have := (t.inside r (List.mem_of_getElem? (by simpa using hr))).1
        omega
    · obtain ⟨j, ⟨r, hr, h1, h2⟩, huniq⟩ := ih (by omega) hb
      refine ⟨j + 1, ⟨r, by simpa using hr, h1, h2⟩, ?_⟩
      rintro (_ | j') ⟨r', hr', h1', h2'⟩
      · obtain rfl : (a, m) = r' := by simpa using hr'
        exact absurd h2' hv
      · exact congrArg (· + 1) (huniq j' ⟨r', by simpa using hr', h1', h2'⟩)

/-- Two ranges have no number in common. -/
theorem disjoint (h : Tiles a b l) {j j' : Nat} {r r' : Nat × Nat} (hr : l[j]? = some r)
    (hr' : l[j']? = some r') (hne : j ≠ j') {v : Nat} (hlo : r.1 ≤ v) (hhi : v ≤ r.2) :
    ¬ (r'.1 ≤ v ∧ v ≤ r'.2) := by
  rintro ⟨hlo', hhi'⟩
  obtain ⟨ha, -, hb⟩ := h.inside r (List.mem_of_getElem? hr)
  obtain ⟨m, -, huniq⟩ := h.existsUnique (Nat.le_trans ha hlo) (Nat.le_trans hhi hb)
  exact hne ((huniq j ⟨r, hr, hlo, hhi⟩).trans (huniq j' ⟨r', hr', hlo', hhi'⟩).symm)

/-- **The numbers of the ranges, one range after the other, are the numbers of the whole.** -/
theorem flatMap_range' (h : Tiles a b l) :
    (l.flatMap fun r => List.range' r.1 (r.2 - r.1 + 1)) = List.range' a (b - a + 1) := by
  induction h with
  | one h => simp
  | @cons a m b l h t ih =>
    have hb := t.le
    have hlen : b - a + 1 = (m - a + 1) + (b - (m + 1) + 1) := by omega
    have hmid : a + (m - a + 1) = m + 1 := by omega
    have happ := List.range'_append_1 (s := a) (m := m - a + 1) (n := b - (m + 1) + 1)
    rw [hmid, ← hlen] at happ
    rw [List.flatMap_cons, ih]
    exact happ

end Tiles

end Trex.Lib
