/-
# Ledgers of objects

Objects are made, are kept by owners, and are given back.  A `Ledger` says that nothing is lost and
nothing is given back twice: an object that is in use is kept exactly once, and one that is not was
given back exactly once.  `owners` lists all that is kept, one owner after the other, so that to
hand an object from one owner to another is a permutation of the list.
-/
import Mathlib.Data.List.Perm.Basic

namespace Trex.Lib

open List
open Function (update update_of_ne update_self)

variable {α : Type} [DecidableEq α]

/-- **Every object that was made is kept once, or was given back once.** -/
structure Ledger (made live : α → Bool) (owners returned : List α) : Prop where
  owner : ∀ a, owners.count a = (live a).toNat
  back : ∀ a, returned.count a = (made a && !live a).toNat
  made : ∀ a, live a = true → made a = true

namespace Ledger

variable {made live : α → Bool} {owners owners' returned : List α} {a b : α}

theorem nil : Ledger (fun _ => false) (fun _ => false) ([] : List α) [] :=
  ⟨fun _ => rfl, fun _ => rfl, fun _ h => h⟩

theorem mem_iff (h : Ledger made live owners returned) : a ∈ owners ↔ live a = true := by
  rw [← count_pos_iff, h.owner a]
  cases live a <;> simp

/-- Objects change owners. -/
theorem perm (h : Ledger made live owners returned) (hperm : owners.Perm owners') :
    Ledger made live owners' returned :=
  ⟨fun a => (hperm.count_eq a).symm.trans (h.owner a), h.back, h.made⟩

/-- An owner keeps an object, and no other owner does. -/
theorem not_mem (h : Ledger made live (a :: owners) returned) : a ∉ owners := by
  intro hmem
  have hone := h.owner a
  have hpos := count_pos_iff.mpr hmem
  have hle := Bool.toNat_le (live a)
  rw [count_cons_self] at hone
  omega

theorem ne_of_mem (h : Ledger made live (a :: owners) returned) (hb : b ∈ owners) : b ≠ a := by
  rintro rfl
  exact h.not_mem hb

/-- **An object is made.** -/
theorem make (h : Ledger made live owners returned) (ha : made a = false) :
    Ledger (update made a true) (update live a true) (a :: owners) returned := by
  have hlive : live a = false := by
    cases hl : live a with
    | false => rfl
    | true =>
      rw [h.made a hl] at ha
      cases ha
  refine ⟨?_, ?_, ?_⟩
  · intro b
    by_cases hb : b = a
    · subst hb
      rw [count_cons_self, h.owner, update_self, hlive]
      rfl
    · rw [count_cons_of_ne (Ne.symm hb), h.owner, update_of_ne hb]
  · intro b
    by_cases hb : b = a
    · subst hb
      rw [h.back, update_self, update_self, ha]
      rfl
    · rw [h.back, update_of_ne hb, update_of_ne hb]
  · intro b hb
    by_cases hba : b = a
    · rw [hba, update_self]
    · rw [update_of_ne hba] at hb ⊢
      exact h.made b hb

/-- **An object is given back.** -/
theorem giveBack (h : Ledger made live (a :: owners) returned) :
    Ledger made (update live a false) owners (returned ++ [a]) := by
  have hlive : live a = true := h.mem_iff.mp mem_cons_self
  refine ⟨?_, ?_, ?_⟩
  · intro b
    by_cases hb : b = a
    · subst hb
      rw [update_self, count_eq_zero.mpr h.not_mem]
      rfl
    · have hone := h.owner b
      rw [count_cons_of_ne (Ne.symm hb)] at hone
      rw [hone, update_of_ne hb]
  · intro b
    rw [count_append, h.back]
    by_cases hb : b = a
    · subst hb
      rw [update_self, hlive, h.made b hlive]
      simp
    · rw [update_of_ne hb, count_cons_of_ne (Ne.symm hb)]
      rfl
  · intro b hb
    by_cases hba : b = a
    · subst hba
      rw [update_self] at hb
      cases hb
    · rw [update_of_ne hba] at hb
      exact h.made b hb

/-- Nothing is kept any more: every object that was made was given back once. -/
theorem settled (h : Ledger made live [] returned) (a : α) :
    live a = false ∧ (made a = true → returned.count a = 1) := by
  have hlive : live a = false := by
    cases hl : live a with
    | false => rfl
    | true => cases h.mem_iff.mpr hl
  refine ⟨hlive, ?_⟩
  intro ha
  rw [h.back, ha, hlive]
  rfl

end Ledger

end Trex.Lib
