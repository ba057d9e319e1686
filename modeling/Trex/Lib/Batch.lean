/-
# Batches

Values are collected in a batch that is sent when it is full, or when it is asked for and is old.  A
batch is as old as its first value.

Nothing is lost and nothing comes twice: what was sent, batch by batch, followed by what is
collected, is what was pushed, in this order (`Batch.run_of`), and a batch that is still there after
it was asked for is not old (`Batch.age_fresh`).
-/
import Mathlib.Data.List.Induction
import Mathlib.Order.Nat

namespace Trex.Lib

open List

variable {K α : Type*}

/-- The batches that were sent, the values that are collected, and since when. -/
structure Batch (K α : Type*) where
  sent : List (List α)
  cur : List α
  since : K

/-- A value comes, or the age of the batch is asked for. -/
inductive BatchEvent (K α : Type*)
  | push (now : K) (a : α)
  | age (now : K)

/-- The values that come, with their times. -/
def pushed (evs : List (BatchEvent K α)) : List (K × α) :=
  evs.filterMap fun
    | .push now a => some (now, a)
    | .age _ => none

theorem pushed_append (evs evs' : List (BatchEvent K α)) :
    pushed (evs ++ evs') = pushed evs ++ pushed evs' :=
  filterMap_append

namespace Batch

/-- The batch is sent. -/
def flush (b : Batch K α) : Batch K α := { b with sent := b.sent ++ [b.cur], cur := [] }

/-- A value is collected; a batch of `max` values is full. -/
def push (max : Nat) (now : K) (a : α) (b : Batch K α) : Batch K α :=
  let b := { b with cur := b.cur ++ [a], since := if b.cur.isEmpty then now else b.since }
  if b.cur.length = max then b.flush else b

variable [Sub K] [LT K] [DecidableLT K]

/-- A batch that is older than `limit` is sent. -/
def age (limit now : K) (b : Batch K α) : Batch K α :=
  if b.cur.isEmpty then b else if limit < now - b.since then b.flush else b

def step (max : Nat) (limit : K) (b : Batch K α) : BatchEvent K α → Batch K α
  | .push now a => b.push max now a
  | .age now => b.age limit now

def run (max : Nat) (limit : K) (b : Batch K α) (evs : List (BatchEvent K α)) : Batch K α :=
  evs.foldl (step max limit) b

/-- **What holds when `input` was pushed.** -/
structure Of (max : Nat) (input : List (K × α)) (b : Batch K α) : Prop where
  split : ∃ old pend, input = old ++ pend ∧ b.sent.flatten = old.map Prod.snd ∧
    b.cur = pend.map Prod.snd ∧ ∀ x ∈ pend.head?, x.1 = b.since
  lt : b.cur.length < max
  sizes : ∀ m ∈ b.sent, m ≠ [] ∧ m.length ≤ max

variable {max : Nat} {limit now : K} {input : List (K × α)} {b : Batch K α}

omit [Sub K] [LT K] [DecidableLT K] in
/-- Before anything comes. -/
theorem of_nil (hmax : 0 < max) (hsent : b.sent = []) (hcur : b.cur = []) : Of max [] b where
  split := ⟨[], [], rfl, by rw [hsent]; rfl, hcur, fun x hx => by cases hx⟩
  lt := by rw [hcur]; exact hmax
  sizes m hm := by
    rw [hsent] at hm
    cases hm

omit [Sub K] [LT K] [DecidableLT K] in
/-- A batch that is not empty and not too large is sent. -/
theorem of_flush {old pend : List (K × α)} (hmax : 0 < max)
    (hsizes : ∀ m ∈ b.sent, m ≠ [] ∧ m.length ≤ max) (hsent : b.sent.flatten = old.map Prod.snd)
    (hcur : b.cur = pend.map Prod.snd) (hne : b.cur ≠ []) (hle : b.cur.length ≤ max) :
    Of max (old ++ pend) b.flush where
  split := by
    refine ⟨old ++ pend, [], (append_nil _).symm, ?_, rfl, fun x hx => by cases hx⟩
    rw [flush, flatten_append, flatten_singleton, map_append, hsent, hcur]
  lt := hmax
  sizes m hm := by
    rcases mem_append.mp hm with hold | hnew
    · exact hsizes m hold
    · rw [mem_singleton.mp hnew]
      exact ⟨hne, hle⟩

omit [Sub K] [LT K] [DecidableLT K] in
/-- **A value is collected.** -/
theorem Of.push (h : Of max input b) (now : K) (a : α) :
    Of max (input ++ [(now, a)]) (b.push max now a) := by
  obtain ⟨old, pend, rfl, hsent, hcur, hsince⟩ := h.split
  have hlt := h.lt
  have hcur' : b.cur ++ [a] = (pend ++ [(now, a)]).map Prod.snd := by rw [hcur, map_append]; rfl
  rw [append_assoc, Batch.push]
  dsimp only
  split
  · rename_i hfull
    exact of_flush (Nat.zero_lt_of_lt hlt) h.sizes hsent hcur'
      (append_ne_nil_of_right_ne_nil _ (by simp)) hfull.le
  · rename_i hfull
    refine ⟨⟨old, pend ++ [(now, a)], rfl, hsent, hcur', ?_⟩, ?_, h.sizes⟩
    · intro x hx
      dsimp only
      cases pend with
      | nil =>
        cases hx
        rw [hcur]
        rfl
      | cons y rest =>
        rw [hcur]
        exact hsince x hx
    · rw [length_append] at hfull ⊢
      exact lt_of_le_of_ne hlt hfull

/-- **The age of the batch is asked for.** -/
theorem Of.age (h : Of max input b) (limit now : K) : Of max input (b.age limit now) := by
  rw [Batch.age]
  split
  · exact h
  · rename_i hne
    split
    · obtain ⟨old, pend, rfl, hsent, hcur, -⟩ := h.split
      refine of_flush (Nat.zero_lt_of_lt h.lt) h.sizes hsent hcur ?_ h.lt.le
      exact fun hnil => hne (isEmpty_iff.mpr hnil)
    · exact h

theorem run_append (b : Batch K α) (evs evs' : List (BatchEvent K α)) :
    b.run max limit (evs ++ evs') = (b.run max limit evs).run max limit evs' := foldl_append

/-- **A run loses nothing**, and sends nothing twice. -/
theorem run_of (limit : K) (hmax : 0 < max) (hsent : b.sent = []) (hcur : b.cur = [])
    (evs : List (BatchEvent K α)) : Of max (pushed evs) (b.run max limit evs) := by
  induction evs using List.reverseRecOn with
  | nil => exact of_nil hmax hsent hcur
  | append_singleton evs e ih =>
    rw [run_append, pushed_append]
    cases e with
    | push now a => exact ih.push now a
    | age now =>
      rw [show pushed [BatchEvent.age (α := α) now] = [] from rfl, append_nil]
      exact ih.age limit now

/-- **What is still collected is not old**, when the age was asked for. -/
theorem age_fresh (h : (b.age limit now).cur ≠ []) :
    (b.age limit now).since = b.since ∧ ¬ limit < now - (b.age limit now).since := by
  rw [age] at h ⊢
  split at h
  · rename_i hempty
    exact absurd (isEmpty_iff.mp hempty) h
  · rename_i hne
    rw [if_neg hne]
    split at h
    · exact absurd rfl h
    · rename_i hfresh
      rw [if_neg hfresh]
      exact ⟨rfl, hfresh⟩

end Batch

end Trex.Lib
