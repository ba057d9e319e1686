/-
# Running two fallible computations side by side

`ExceptRel R x y` says that two computations agree: both return and the results are related by
`R`, or both stop with the same error.  It composes along `>>=` (`ExceptRel.bind`), which is
how a simulation between two interpreters is proved one step at a time.
-/
import Mathlib.Logic.Basic

namespace Trex.Lib

open List

variable {ε α β γ δ : Type}

/-- Both return related results, or both stop with the same error. -/
def ExceptRel (R : α → β → Prop) : Except ε α → Except ε β → Prop
  | .ok a, .ok b => R a b
  | .error e, .error e' => e = e'
  | _, _ => False

variable {R : α → β → Prop} {S : γ → δ → Prop} {x : Except ε α} {y : Except ε β}
  {f : α → Except ε β}

variable {a : α} {g : β → Except ε δ} {P : Nat → β → Prop}

@[simp] theorem exceptRel_ok {b : β} :
    ExceptRel (ε := ε) R (.ok a) (.ok b) ↔ R a b := Iff.rfl

@[simp] theorem exceptRel_error {e e' : ε} :
    ExceptRel (α := α) (β := β) R (.error e) (.error e') ↔ e = e' := Iff.rfl

/-- A step on each side, then the rest on each side. -/
theorem ExceptRel.bind {f : α → Except ε γ} (h : ExceptRel R x y)
    (hfg : ∀ a b, R a b → ExceptRel S (f a) (g b)) : ExceptRel S (x >>= f) (y >>= g) := by
  cases x with
  | error e =>
    cases y with
    | error e' => exact h
    | ok b => exact absurd h id
  | ok a =>
    cases y with
    | error e' => exact absurd h id
    | ok b => exact hfg a b h

theorem ExceptRel.ok_left (h : ExceptRel R x y) (hx : x = .ok a) :
    ∃ b, y = .ok b ∧ R a b := by
  subst hx
  cases y with
  | error e => exact absurd h id
  | ok b => exact ⟨b, rfl, h⟩

theorem ExceptRel.ok_right {b : β} (h : ExceptRel R x y) (hy : y = .ok b) :
    ∃ a, x = .ok a ∧ R a b := by
  subst hy
  cases x with
  | error e => exact absurd h id
  | ok a => exact ⟨a, rfl, h⟩

/-- The results are changed on each side. -/
theorem ExceptRel.map {f : α → γ} {g : β → δ} (h : ExceptRel R x y)
    (hfg : ∀ a b, R a b → S (f a) (g b)) :
    ExceptRel S (x.map f) (y.map g) := by
  cases x with
  | error e =>
    cases y with
    | error e' => exact h
    | ok b => exact absurd h id
  | ok a =>
    cases y with
    | error e' => exact absurd h id
    | ok b => exact hfg a b h

/-- Both return related results, or both stop, each with an error of its own. -/
def SameOutcome (R : α → β → Prop) : Except ε α → Except ε β → Prop
  | .ok a, .ok b => R a b
  | .error _, .error _ => True
  | _, _ => False

theorem ExceptRel.sameOutcome (h : ExceptRel R x y) : SameOutcome R x y := by
  cases x with
  | error e =>
    cases y with
    | error e' => trivial
    | ok b => exact absurd h id
  | ok a =>
    cases y with
    | error e' => exact absurd h id
    | ok b => exact h

theorem SameOutcome.map {f : α → γ} {g : β → δ} (h : SameOutcome R x y)
    (hfg : ∀ a b, R a b → S (f a) (g b)) :
    SameOutcome S (x.map f) (y.map g) := by
  cases x with
  | error e =>
    cases y with
    | error e' => trivial
    | ok b => exact absurd h id
  | ok a =>
    cases y with
    | error e' => exact absurd h id
    | ok b => exact hfg a b h

theorem SameOutcome.bind {f : α → Except ε γ} (h : SameOutcome R x y)
    (hfg : ∀ a b, x = .ok a → R a b → SameOutcome S (f a) (g b)) :
    SameOutcome S (x >>= f) (y >>= g) := by
  cases x with
  | error e =>
    cases y with
    | error e' => trivial
    | ok b => exact absurd h id
  | ok a =>
    cases y with
    | error e' => exact absurd h id
    | ok b => exact hfg a b rfl h

/-- A sequence whose first computation returns. -/
theorem ok_bind : (Except.ok a >>= f) = f a := rfl

/-- A sequence whose first computation fails. -/
theorem error_bind {e : ε} : (Except.error e >>= f) = .error e := rfl

/-- What the first computation of a sequence returned, when the sequence returned. -/
theorem bind_eq_ok {b : β} (h : (x >>= f) = .ok b) :
    ∃ a, x = .ok a ∧ f a = .ok b := by
  cases x with
  | error e => exact absurd h (by simp [Bind.bind, Except.bind])
  | ok a => exact ⟨a, rfl, h⟩

/-- A counted loop: what turn `k` makes of what held before it. -/
theorem foldlM_range {f : β → Nat → Except ε β} (n : Nat)
    (hstep : ∀ k s s', k < n → P k s → f s k = .ok s' → P (k + 1) s') :
    ∀ {s s' : β}, P 0 s → (List.range n).foldlM f s = .ok s' → P n s' := by
  induction n with
  | zero =>
    intro s s' hs h
    cases h
    exact hs
  | succ n ih =>
    intro s s' hs h
    rw [range_succ, foldlM_append] at h
    obtain ⟨s1, h1, h2⟩ := bind_eq_ok h
    have hs1 := ih (fun k s s' hk => hstep k s s' (Nat.lt_succ_of_lt hk)) hs h1
    rw [foldlM_cons] at h2
    obtain ⟨s2, h2, h3⟩ := bind_eq_ok h2
    cases h3
    exact hstep n s1 _ (Nat.lt_succ_self n) hs1 h2

/-- A counted loop that returns, since each of its turns does. -/
theorem foldlM_range_returns {f : β → Nat → Except ε β} (n : Nat)
    (hstep : ∀ k s, k < n → P k s → ∃ s', f s k = .ok s' ∧ P (k + 1) s') {s : β} (hs : P 0 s) :
    ∃ s', (List.range n).foldlM f s = .ok s' ∧ P n s' := by
  induction n with
  | zero => exact ⟨s, rfl, hs⟩
  | succ n ih =>
    obtain ⟨s1, h1, hs1⟩ := ih fun k s hk => hstep k s (Nat.lt_succ_of_lt hk)
    obtain ⟨s2, h2, hs2⟩ := hstep n s1 (Nat.lt_succ_self n) hs1
    refine ⟨s2, ?_, hs2⟩
    rw [range_succ, foldlM_append, h1, ok_bind, foldlM_cons, h2, ok_bind]
    rfl

/-- A sequence does not stop with an error that neither of its two parts stops with. -/
theorem bind_ne_error {e : ε} (hx : x ≠ .error e) (hf : ∀ a, x = .ok a → f a ≠ .error e) :
    (x >>= f) ≠ .error e := by
  cases x with
  | error e' =>
    intro h
    cases h
    exact hx rfl
  | ok a => exact hf a rfl

/-- A counted loop does not stop with an error that none of its turns stops with. -/
theorem foldlM_range_ne_error {f : β → Nat → Except ε β} {P : β → Prop} {e : ε} (n : Nat)
    (hkeep : ∀ k s s', k < n → P s → f s k = .ok s' → P s')
    (hne : ∀ k s, k < n → P s → f s k ≠ .error e) {s : β} (hs : P s) :
    (List.range n).foldlM f s ≠ .error e := by
  induction n with
  | zero =>
    intro h
    cases h
  | succ n ih =>
    rw [range_succ, foldlM_append]
    refine bind_ne_error (ih (fun k s s' hk => hkeep k s s' (Nat.lt_succ_of_lt hk))
      fun k s hk => hne k s (Nat.lt_succ_of_lt hk)) ?_
    intro s1 h1
    have hs1 : P s1 := foldlM_range (P := fun _ s => P s) n
      (fun k s s' hk => hkeep k s s' (Nat.lt_succ_of_lt hk)) hs h1
    rw [foldlM_cons]
    refine bind_ne_error (hne n s1 (Nat.lt_succ_self n) hs1) ?_
    intro s2 _ h
    cases h

/-- A loop that returns what each of its turns returned. -/
theorem mapM_eq_ok {g : α → β} (l : List α) (hf : ∀ a ∈ l, f a = .ok (g a)) :
    l.mapM f = .ok (l.map g) := by
  induction l with
  | nil => rfl
  | cons a l ih =>
    rw [mapM_cons, hf a mem_cons_self, ok_bind, ih fun b hb => hf b (mem_cons_of_mem a hb)]
    rfl

/-- A computation that returns, when its error is dropped. -/
theorem toOption_eq_some (h : x.toOption = some a) : x = .ok a := by
  cases x with
  | error e => cases h
  | ok b => exact congrArg Except.ok (Option.some.inj h)

end Trex.Lib
