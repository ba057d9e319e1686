/-
# Numbering the entries of a list within classes

Every entry of a list belongs to a class, and the entries of one class are numbered from 0 in the
order in which they come (`Numbered`).  The order of entries of different classes does not matter to
it: a list that has the same entries of every class in the same order is numbered the same.
-/
import Mathlib.Data.List.Range

namespace Trex.Lib

open List

variable {α β γ : Type} [DecidableEq γ]

/-- The entries of one class, in order. -/
def ofClass (g : α → γ) (c : γ) (xs : List α) : List α := xs.filter fun x => decide (g x = c)

theorem ofClass_concat (g : α → γ) (c : γ) (xs : List α) (x : α) :
    ofClass g c (xs ++ [x]) = ofClass g c xs ++ if g x = c then [x] else [] := by
  unfold ofClass
  by_cases h : g x = c <;> simp [h]

variable {xs : List α}

theorem mem_ofClass {g : α → γ} {c : γ} {x : α} :
    x ∈ ofClass g c xs ↔ x ∈ xs ∧ g x = c := by
  simp [ofClass]

/-- Entries that are changed without changing their classes. -/
theorem ofClass_map (g : β → γ) (f : α → β) (c : γ) (xs : List α) :
    ofClass g c (xs.map f) = (ofClass (fun x => g (f x)) c xs).map f := by
  simp [ofClass, filter_map, Function.comp_def]

/-- Within every class the entries are numbered 0, 1, 2 and so on. -/
def Numbered (g : α → γ) (num : α → Nat) (xs : List α) : Prop :=
  ∀ c, (ofClass g c xs).map num = List.range (ofClass g c xs).length

namespace Numbered

variable {g : α → γ} {num : α → Nat} {xs : List α} {x : α}

theorem nil : Numbered g num [] := fun _ => rfl

/-- **One entry more**: its number is how many of its class come before it. -/
theorem concat (h : Numbered g num xs) (hx : num x = (ofClass g (g x) xs).length) :
    Numbered g num (xs ++ [x]) := by
  intro c
  rw [ofClass_concat]
  by_cases hc : g x = c
  · subst hc
    simp [h (g x), hx, range_succ]
  · simpa [hc] using h c

theorem lt (h : Numbered g num xs) (hx : x ∈ xs) : num x < (ofClass g (g x) xs).length := by
  have hmem : num x ∈ (ofClass g (g x) xs).map num := mem_map_of_mem (mem_ofClass.mpr ⟨hx, rfl⟩)
  rw [h] at hmem
  exact mem_range.mp hmem

/-- Only the classes and the numbers matter. -/
theorem iff_pairs : Numbered g num xs ↔
    Numbered Prod.fst Prod.snd (xs.map fun x => (g x, num x)) := by
  refine forall_congr' fun c => ?_
  rw [ofClass_map, map_map, length_map]
  rfl

/-- Two lists with the same classes and numbers. -/
theorem of_pairs {g' : β → γ} {num' : β → Nat} {ys : List β} (h : Numbered g num xs)
    (heq : (ys.map fun y => (g' y, num' y)) = xs.map fun x => (g x, num x)) :
    Numbered g' num' ys := by
  rw [iff_pairs, heq, ← iff_pairs]
  exact h

end Numbered

/-- Two lists with the same classes have as many entries of each. -/
theorem length_ofClass_congr {g : α → γ} {g' : β → γ} {ys : List β} (heq : ys.map g' = xs.map g)
    (c : γ) : (ofClass g' c ys).length = (ofClass g c xs).length := by
  have hx : (ofClass id c (xs.map g)).length = (ofClass g c xs).length := by
    rw [ofClass_map, length_map]
    rfl
  have hy : (ofClass id c (ys.map g')).length = (ofClass g' c ys).length := by
    rw [ofClass_map, length_map]
    rfl
  rw [← hx, ← hy, heq]

section Reclass

variable {δ : Type} [DecidableEq δ] {g : α → γ} {g' : α → δ}

/-- Two ways to name the same classes. -/
def SameClasses (g : α → γ) (g' : α → δ) (xs : List α) :
    Prop := ∀ x ∈ xs, ∀ y ∈ xs, g' y = g' x ↔ g y = g x

theorem SameClasses.ofClass_eq (h : SameClasses g g' xs) {x : α} (hx : x ∈ xs) :
    ofClass g' (g' x) xs = ofClass g (g x) xs :=
  filter_congr fun y hy => by simp [h x hx y hy]

/-- A class by its other name, or no entry. -/
theorem SameClasses.ofClass_cases (h : SameClasses g g' xs) (c : δ) :
    (∃ x ∈ xs, g' x = c ∧ ofClass g' c xs = ofClass g (g x) xs) ∨ ofClass g' c xs = [] := by
  rcases (ofClass g' c xs).eq_nil_or_concat with hnil | ⟨l, x, hl⟩
  · exact Or.inr hnil
  · have hx : x ∈ ofClass g' c xs := by rw [hl]; simp
    obtain ⟨hmem, rfl⟩ := mem_ofClass.mp hx
    exact Or.inl ⟨x, hmem, rfl, h.ofClass_eq hmem⟩

theorem Numbered.reclass {num : α → Nat} (hn : Numbered g num xs) (h : SameClasses g g' xs) :
    Numbered g' num xs := by
  intro c
  rcases h.ofClass_cases c with ⟨x, -, -, hx⟩ | hnil
  · rw [hx]
    exact hn (g x)
  · rw [hnil]
    rfl

/-- **Lists with the same entries of every class, in the same order**, whatever the classes are
called. -/
theorem ofClass_eq_reclass {ys : List α} (heq : ∀ c, ofClass g c ys = ofClass g c xs)
    (h : SameClasses g g' xs) (c : δ) : ofClass g' c ys = ofClass g' c xs := by
  have hmem : ∀ y, y ∈ ys ↔ y ∈ xs := by
    intro y
    have := congrArg (y ∈ ·) (heq (g y))
    simpa [mem_ofClass] using this
  have hys : SameClasses g g' ys := fun x hx y hy => h x ((hmem x).mp hx) y ((hmem y).mp hy)
  rcases h.ofClass_cases c with ⟨x, hx, rfl, hcx⟩ | hnil
  · rw [hcx, hys.ofClass_eq ((hmem x).mpr hx), heq]
  · rw [hnil, eq_nil_iff_forall_not_mem]
    intro y hy
    obtain ⟨hy', rfl⟩ := mem_ofClass.mp hy
    have hx : y ∈ ofClass g' (g' y) xs := mem_ofClass.mpr ⟨(hmem y).mp hy', rfl⟩
    rw [hnil] at hx
    cases hx

end Reclass

end Trex.Lib
