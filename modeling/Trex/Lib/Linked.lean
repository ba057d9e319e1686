/-
# Singly linked cells

A heap of cells, each with a link to the next one: `next a` is `none` where there is no cell, and
`some n` where the cell links to `n` (`none` at the end of a list).  `Linked next a l` says that the
cells from `a` on are those of `l`, in this order, and that they come to an end.

The list is a function of its start (`Linked.unique`), so no cell comes twice (`Linked.nodup`); it
depends on its own cells only (`Linked.mono`); a walk finds it when it is given enough fuel
(`Linked.walk`).
-/
import Mathlib.Data.List.Perm.Subperm

namespace Trex.Lib

open List

variable {α : Type} {next next' : α → Option (Option α)}

/-! ## 1. The cells from a link on -/

/-- The cells from a link on, to the end. -/
def Linked (next : α → Option (Option α)) : Option α → List α → Prop
  | none, [] => True
  | some a, b :: l => a = b ∧ ∃ n, next a = some n ∧ Linked next n l
  | none, _ :: _ => False
  | some _, [] => False

variable {l : List α} {a : α} {n : Option α}

@[simp] theorem linked_none : Linked next none l ↔ l = [] := by
  cases l <;> simp [Linked]

@[simp] theorem linked_some_nil : ¬ Linked next (some a) [] := id

theorem linked_cons {b : α} :
    Linked next (some a) (b :: l) ↔ a = b ∧ ∃ n, next a = some n ∧ Linked next n l := Iff.rfl

/-- A list that starts with a link starts with that cell. -/
theorem Linked.eq_cons (h : Linked next (some a) l) :
    ∃ n l', l = a :: l' ∧ next a = some n ∧ Linked next n l' := by
  cases l with
  | nil => exact absurd h linked_some_nil
  | cons b l =>
    obtain ⟨rfl, n, hn, hl⟩ := linked_cons.mp h
    exact ⟨n, l, rfl, hn, hl⟩

theorem Linked.unique {l' : List α} (h : Linked next n l) (h' : Linked next n l') :
    l = l' := by
  induction l generalizing n l' with
  | nil =>
    cases n with
    | none => exact (linked_none.mp h').symm
    | some a => exact absurd h linked_some_nil
  | cons b l ih =>
    cases n with
    | none => exact absurd (linked_none.mp h) (cons_ne_nil b l)
    | some a =>
      obtain ⟨rfl, n, hn, hl⟩ := linked_cons.mp h
      obtain ⟨n', l'', rfl, hn', hl'⟩ := h'.eq_cons
      rw [hn] at hn'
      cases hn'
      rw [ih hl hl']

/-- From a cell of the list on, it is the rest of the list. -/
theorem Linked.suffix {l1 l2 : List α} {b : α} (h : Linked next n (l1 ++ b :: l2)) :
    Linked next (some b) (b :: l2) := by
  induction l1 generalizing n with
  | nil =>
    cases n with
    | none => exact absurd (linked_none.mp h) (by simp)
    | some a =>
      obtain ⟨rfl, -⟩ := linked_cons.mp h
      exact h
  | cons c l1 ih =>
    cases n with
    | none => exact absurd (linked_none.mp h) (by simp)
    | some a =>
      obtain ⟨-, n, -, hl⟩ := linked_cons.mp h
      exact ih hl

/-- **No cell comes twice**, since the list comes to an end. -/
theorem Linked.nodup (h : Linked next n l) : l.Nodup := by
  induction l generalizing n with
  | nil => exact nodup_nil
  | cons b l ih =>
    cases n with
    | none => exact absurd (linked_none.mp h) (cons_ne_nil b l)
    | some a =>
      obtain ⟨rfl, n, hn, hl⟩ := linked_cons.mp h
      refine nodup_cons.mpr ⟨fun hmem => ?_, ih hl⟩
      obtain ⟨l1, l2, rfl⟩ := append_of_mem hmem
      -- the list from `a` on would be its own proper suffix
      have hsame : a :: (l1 ++ a :: l2) = a :: l2 := h.unique hl.suffix
      have hlen := congrArg List.length hsame
      simp only [length_cons, length_append] at hlen
      omega

theorem Linked.live (h : Linked next n l) (ha : a ∈ l) :
    ∃ n', next a = some n' := by
  obtain ⟨l1, l2, rfl⟩ := append_of_mem ha
  obtain ⟨-, n', hn, -⟩ := linked_cons.mp h.suffix
  exact ⟨n', hn⟩

/-- **The list depends on its own cells only.** -/
theorem Linked.mono (h : Linked next n l)
    (hsame : ∀ a ∈ l, ∀ n', next a = some n' → next' a = some n') : Linked next' n l := by
  induction l generalizing n with
  | nil =>
    cases n with
    | none => trivial
    | some a => exact absurd h linked_some_nil
  | cons b l ih =>
    cases n with
    | none => exact absurd (linked_none.mp h) (cons_ne_nil b l)
    | some a =>
      obtain ⟨rfl, n, hn, hl⟩ := linked_cons.mp h
      have hn' : next' a = some n := hsame a (mem_cons_self ..) n hn
      exact linked_cons.mpr ⟨rfl, n, hn', ih hl fun c hc => hsame c (mem_cons_of_mem _ hc)⟩

/-- **Two lists are joined** by a link from the last cell of the one to the first cell of the
other. -/
theorem Linked.join {l2 : List α} {last b : α} (h : Linked next n (l ++ [last]))
    (hsame : ∀ a ∈ l, ∀ n', next a = some n' → next' a = some n')
    (hlast : next' last = some (some b)) (h2 : Linked next' (some b) l2) :
    Linked next' n (l ++ last :: l2) := by
  induction l generalizing n with
  | nil =>
    cases n with
    | none => exact absurd (linked_none.mp h) (by simp)
    | some a =>
      obtain ⟨rfl, -⟩ := linked_cons.mp h
      exact linked_cons.mpr ⟨rfl, _, hlast, h2⟩
  | cons c l ih =>
    cases n with
    | none => exact absurd (linked_none.mp h) (by simp)
    | some a =>
      obtain ⟨rfl, n, hn, hl⟩ := linked_cons.mp h
      have hn' : next' a = some n := hsame a mem_cons_self n hn
      exact linked_cons.mpr ⟨rfl, n, hn', ih hl fun c hc => hsame c (mem_cons_of_mem _ hc)⟩

/-- A list is not longer than the heap it is in. -/
theorem Linked.length_le (h : Linked next n l) {cells : List α}
    (hcells : ∀ a n', next a = some n' → a ∈ cells) : l.length ≤ cells.length := by
  refine (h.nodup.subperm fun a ha => ?_).length_le
  obtain ⟨n', hn'⟩ := h.live ha
  exact hcells a n' hn'

/-! ## 2. Walking along the links -/

/-- The cells from `a` on, at most `fuel` of them; `none` when there is no cell, or no end. -/
def walk (next : α → Option (Option α)) : Nat → α → Option (List α)
  | 0, _ => none
  | fuel + 1, a =>
    match next a with
    | none => none
    | some none => some [a]
    | some (some b) => (walk next fuel b).map (a :: ·)

theorem linked_of_walk {fuel : Nat} (h : walk next fuel a = some l) :
    Linked next (some a) l ∧ l.length ≤ fuel := by
  induction fuel generalizing a l with
  | zero => cases h
  | succ fuel ih =>
    simp only [walk] at h
    cases hn : next a with
    | none => rw [hn] at h; cases h
    | some n =>
      rw [hn] at h
      cases n with
      | none =>
        cases h
        exact ⟨linked_cons.mpr ⟨rfl, none, hn, trivial⟩, by simp⟩
      | some b =>
        obtain ⟨l', hl', rfl⟩ := Option.map_eq_some_iff.mp h
        obtain ⟨hlink, hlen⟩ := ih hl'
        exact ⟨linked_cons.mpr ⟨rfl, some b, hn, hlink⟩, by simpa using hlen⟩

/-- **With enough fuel the walk finds the list.** -/
theorem Linked.walk {fuel : Nat} (h : Linked next (some a) l) (hfuel : l.length ≤ fuel) :
    Lib.walk next fuel a = some l := by
  induction fuel generalizing a l with
  | zero =>
    obtain ⟨n, l', rfl, -⟩ := h.eq_cons
    simp at hfuel
  | succ fuel ih =>
    obtain ⟨n, l', rfl, hn, hl⟩ := h.eq_cons
    simp only [Lib.walk, hn]
    cases n with
    | none => rw [linked_none.mp hl]
    | some b =>
      have hrest : Lib.walk next fuel b = some l' := ih hl (by simpa using hfuel)
      simp [hrest]

end Trex.Lib
