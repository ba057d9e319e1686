/-
# Shared objects that count their references

An object is made with one reference, `retain` adds one, `release` takes one away, and with the last
one the object is gone.  Whoever may release an object is a holder of it.  `Counted` says that the
counts are the holders: an object is there exactly while somebody holds it, and its count is how
often it is held.  The holders are one list, whoever they are, so that to hand a reference on is a
permutation.
-/
import Mathlib.Data.List.Perm.Basic

namespace Trex.Lib

open List

/-- An object, and the number of its references. -/
structure Shared (β : Type) where
  val : β
  refcnt : Nat
deriving DecidableEq, Repr

variable {α β : Type} [DecidableEq α]

/-- One more reference. -/
def retain (t : α → Option (Shared β)) (a : α) : Option (α → Option (Shared β)) :=
  (t a).map fun x => Function.update t a (some { x with refcnt := x.refcnt + 1 })

/-- One reference less; it was the last one when the count was one. -/
def release (t : α → Option (Shared β)) (a : α) : Option (α → Option (Shared β)) :=
  (t a).map fun x =>
    Function.update t a (if x.refcnt = 1 then none else some { x with refcnt := x.refcnt - 1 })

/-- A reference of each object of a list less. -/
def releaseAll (t : α → Option (Shared β)) (as : List α) :
    Option (α → Option (Shared β)) := as.foldlM release t

variable {t : α → Option (Shared β)}

theorem retain_eq {a : α} {v : β} {n : Nat} (h : t a = some ⟨v, n⟩) :
    retain t a = some (Function.update t a (some ⟨v, n + 1⟩)) := by
  rw [retain, h]
  rfl

theorem release_eq {a : α} {v : β} {n : Nat} (h : t a = some ⟨v, n + 1⟩) :
    release t a = some (Function.update t a (if n = 0 then none else some ⟨v, n⟩)) := by
  rw [release, h]
  cases n <;> rfl

/-- What an object holds. -/
def valOf (t : α → Option (Shared β)) (a : α) : Option β := (t a).map Shared.val

/-- **The counts are the holders.** -/
structure Counted (t : α → Option (Shared β)) (holders : List α) : Prop where
  count : ∀ a x, t a = some x → x.refcnt = holders.count a
  held : ∀ a, a ∈ holders ↔ (t a).isSome

namespace Counted

variable {t : α → Option (Shared β)} {holders holders' : List α} {a : α}

theorem nil : Counted (fun _ => none : α → Option (Shared β)) [] where
  count := fun a x h => by cases h
  held := fun a => by simp

/-- Counts that are the holders, of objects that are there. -/
theorem of_count (hcount : ∀ a x, t a = some x → x.refcnt = holders.count a ∧ 0 < x.refcnt)
    (hlive : ∀ a ∈ holders, (t a).isSome = true) : Counted t holders where
  count := fun a x hx => (hcount a x hx).1
  held := fun a => by
    refine ⟨hlive a, fun hsome => ?_⟩
    obtain ⟨x, hx⟩ := Option.isSome_iff_exists.mp hsome
    obtain ⟨heq, hpos⟩ := hcount a x hx
    rw [heq] at hpos
    exact count_pos_iff.mp hpos

/-- References are handed on. -/
theorem perm (h : Counted t holders) (hperm : holders.Perm holders') : Counted t holders' where
  count := fun a x hx => (h.count a x hx).trans (hperm.count_eq a)
  held := fun a => hperm.mem_iff.symm.trans (h.held a)

theorem exists_of_mem (h : Counted t holders) (ha : a ∈ holders) :
    ∃ v, t a = some ⟨v, holders.count a⟩ := by
  obtain ⟨x, hx⟩ := Option.isSome_iff_exists.mp ((h.held a).mp ha)
  exact ⟨x.val, by rw [hx, ← h.count a x hx]⟩

theorem pos (h : Counted t holders) {x : Shared β} (hx : t a = some x) : 0 < x.refcnt := by
  rw [h.count a x hx, count_pos_iff, h.held a, hx]
  rfl

/-- A count is set to what it has to be. -/
theorem update (h : Counted t holders) {k : Nat} (hpos : 0 < k) (hcount : holders'.count a = k)
    (hother : ∀ b ≠ a, holders'.count b = holders.count b) (v : β) :
    Counted (Function.update t a (some ⟨v, k⟩)) holders' := by
  refine of_count (fun b x hx => ?_) fun b hb => ?_
  · by_cases hba : b = a
    · subst hba
      rw [Function.update_self] at hx
      cases hx
      exact ⟨hcount.symm, hpos⟩
    · rw [Function.update_of_ne hba] at hx
      rw [hother b hba]
      exact ⟨h.count b x hx, h.pos hx⟩
  · by_cases hba : b = a
    · subst hba
      rw [Function.update_self]
      rfl
    · rw [Function.update_of_ne hba, ← h.held b, ← count_pos_iff, ← hother b hba, count_pos_iff]
      exact hb

/-- **An object is made**, at an address that nobody holds. -/
theorem make (h : Counted t holders) (ha : a ∉ holders) (v : β) :
    Counted (Function.update t a (some ⟨v, 1⟩)) (a :: holders) where
  count := by
    intro b x hx
    by_cases hb : b = a
    · subst hb
      rw [Function.update_self] at hx
      cases hx
      rw [count_cons_self, count_eq_zero.mpr ha]
    · rw [Function.update_of_ne hb] at hx
      rw [count_cons_of_ne (Ne.symm hb)]
      exact h.count b x hx
  held := by
    intro b
    by_cases hb : b = a
    · subst hb
      simp
    · rw [Function.update_of_ne hb, mem_cons, or_iff_right hb]
      exact h.held b

/-- **`retain`**: there is one more holder, and nothing else changes. -/
theorem retain (h : Counted t holders) (ha : a ∈ holders) :
    ∃ t', Lib.retain t a = some t' ∧ Counted t' (a :: holders) ∧ ∀ b, valOf t' b = valOf t b := by
  obtain ⟨v, hv⟩ := h.exists_of_mem ha
  refine ⟨_, retain_eq hv, ⟨?_, ?_⟩, ?_⟩
  · intro b x hx
    by_cases hb : b = a
    · subst hb
      rw [Function.update_self] at hx
      cases hx
      rw [count_cons_self]
    · rw [Function.update_of_ne hb] at hx
      rw [count_cons_of_ne (Ne.symm hb)]
      exact h.count b x hx
  · intro b
    by_cases hb : b = a
    · subst hb
      simp
    · rw [Function.update_of_ne hb, mem_cons, or_iff_right hb]
      exact h.held b
  · intro b
    by_cases hb : b = a
    · subst hb
      simp [valOf, hv]
    · simp [valOf, Function.update_of_ne hb]

/-- **`release`**: a holder gives its reference back, and what the others hold stays. -/
theorem release (h : Counted t (a :: holders)) :
    ∃ t', Lib.release t a = some t' ∧ Counted t' holders ∧
        ∀ b ∈ holders, valOf t' b = valOf t b := by
  obtain ⟨v, hv⟩ := h.exists_of_mem mem_cons_self
  rw [count_cons_self] at hv
  refine ⟨_, release_eq hv, ⟨?_, ?_⟩, ?_⟩
  · intro b x hx
    by_cases hb : b = a
    · subst hb
      rw [Function.update_self] at hx
      split at hx
      · cases hx
      · cases hx
        rfl
    · rw [Function.update_of_ne hb] at hx
      rw [h.count b x hx, count_cons_of_ne (Ne.symm hb)]
  · intro b
    by_cases hb : b = a
    · subst hb
      rw [Function.update_self, ← count_pos_iff]
      split
      · simp only [Option.isSome_none, Bool.false_eq_true, iff_false]
        omega
      · simp only [Option.isSome_some, iff_true]
        omega
    · rw [Function.update_of_ne hb, ← h.held b, mem_cons, or_iff_right hb]
  · intro b hmem
    by_cases hb : b = a
    · subst hb
      have hpos := count_pos_iff.mpr hmem
      rw [valOf, valOf, Function.update_self, hv, if_neg (by omega)]
      rfl
    · rw [valOf, valOf, Function.update_of_ne hb]

/-- **`releaseAll`**: a list of references is given back. -/
theorem releaseAll {as : List α} (h : Counted t (as ++ holders)) :
    ∃ t', Lib.releaseAll t as = some t' ∧ Counted t' holders ∧
        ∀ b ∈ holders, valOf t' b = valOf t b := by
  induction as generalizing t with
  | nil => exact ⟨t, rfl, h, fun _ _ => rfl⟩
  | cons a as ih =>
    obtain ⟨t1, h1, hc1, hv1⟩ := release h
    obtain ⟨t', h', hc', hv'⟩ := ih hc1
    refine ⟨t', ?_, hc', ?_⟩
    · rw [Lib.releaseAll, foldlM_cons, h1]
      exact h'
    · intro b hb
      rw [hv' b hb, hv1 b (mem_append_right as hb)]

/-- Everything that is held can be read. -/
theorem valOf_isSome (h : Counted t holders) (ha : a ∈ holders) : ∃ v, valOf t a = some v := by
  obtain ⟨v, hv⟩ := h.exists_of_mem ha
  exact ⟨v, by rw [valOf, hv]; rfl⟩

end Counted

end Trex.Lib
