/-
# Programs that throw

A program that changes a state and may throw is an `EStateM`: what it changed before it threw stays
changed.  The rules here say what such a program leaves behind.  `Always R x`: whatever `x` does,
the states before and after are related by `R`.  `OnThrow p R x`: they are when `x` throws one of
the exceptions of `p`. A program that checks first and changes later is proved so one call at a time
(`OnThrow.bind`, `OnThrow.bind_noThrow`).
-/
import Mathlib.Logic.Basic

namespace Trex.Lib

variable {ε σ α β : Type}

/-- Throw, or go on. -/
def throwIf (c : Prop) [Decidable c] (e : ε) : EStateM ε σ Unit := if c then throw e else pure ()

/-- Run a program, or go on without it. -/
def doIf (c : Prop) [Decidable c] (x : EStateM ε σ Unit) : EStateM ε σ Unit :=
  if c then x else pure ()

/-- A computation that does not look at the state. -/
def fromExcept (x : Except ε α) : EStateM ε σ α :=
  match x with
  | .ok a => pure a
  | .error e => throw e

/-! ## 1. What a sequence does -/

variable {x : EStateM ε σ α} {f : α → EStateM ε σ β} {c : Prop}

/-- What the first program of a sequence did, when the sequence returned. -/
theorem bind_eq_okState {s s' : σ} {b : β} (h : (x >>= f) s = .ok b s') :
    ∃ a s1, x s = .ok a s1 ∧ f a s1 = .ok b s' := by
  change EStateM.bind x f s = _ at h
  unfold EStateM.bind at h
  split at h
  · rename_i a s1 hx
    exact ⟨a, s1, hx, h⟩
  · cases h

theorem bind_of_ok {s s1 : σ} {a : α} (h : x s = .ok a s1) : (x >>= f) s = f a s1 := by
  change EStateM.bind x f s = _
  unfold EStateM.bind
  rw [h]

theorem bind_of_error {s s1 : σ} {e : ε} (h : x s = .error e s1) : (x >>= f) s = .error e s1 := by
  change EStateM.bind x f s = _
  unfold EStateM.bind
  rw [h]

theorem get_bind (f : σ → EStateM ε σ α) (s : σ) : ((get : EStateM ε σ σ) >>= f) s = f s s := rfl

theorem modify_bind (g : σ → σ) (f : PUnit → EStateM ε σ α) (s : σ) :
    ((modify g : EStateM ε σ PUnit) >>= f) s = f ⟨⟩ (g s) := rfl

theorem fromExcept_bind (a : α) (f : α → EStateM ε σ β) (s : σ) :
    ((fromExcept (.ok a) : EStateM ε σ α) >>= f) s = f a s := rfl

theorem throwIf_bind_of_not [Decidable c] (hc : ¬ c) (e : ε) (f : Unit → EStateM ε σ α) (s : σ) :
    (throwIf c e >>= f) s = f () s := by
  rw [throwIf, if_neg hc]
  rfl

theorem throwIf_bind_of [Decidable c] (hc : c) (e : ε) (f : Unit → EStateM ε σ α) (s : σ) :
    (throwIf c e >>= f) s = .error e s := by
  rw [throwIf, if_pos hc]
  rfl

theorem throwIf_eq_ok [Decidable c] {e : ε} {s s' : σ} {u : Unit}
    (h : (throwIf c e : EStateM ε σ Unit) s = .ok u s') : ¬ c ∧ s' = s := by
  unfold throwIf at h
  split at h
  · cases h
  · rename_i hc
    cases h
    exact ⟨hc, rfl⟩

theorem fromExcept_eq_ok {x : Except ε α} {s s' : σ} {a : α}
    (h : (fromExcept x : EStateM ε σ α) s = .ok a s') : x = .ok a ∧ s' = s := by
  cases x with
  | ok b =>
    cases h
    exact ⟨rfl, rfl⟩
  | error e => cases h

/-- A sequence that throws: its first program throws, or it returns and the rest throws. -/
theorem bind_eq_errorState {s s' : σ} {e : ε} (h : (x >>= f) s = .error e s') :
    x s = .error e s' ∨ ∃ a s1, x s = .ok a s1 ∧ f a s1 = .error e s' := by
  change EStateM.bind x f s = _ at h
  unfold EStateM.bind at h
  split at h
  · rename_i a s1 hx
    exact Or.inr ⟨a, s1, hx, h⟩
  · rename_i e' s1 hx
    cases h
    exact Or.inl hx

/-! ## 2. What is left behind -/

/-- The state that a program ends in, returning or throwing. -/
def stateOf : EStateM.Result ε σ α → σ
  | .ok _ s => s
  | .error _ s => s

/-- The state before and the state after are related. -/
def Always (R : σ → σ → Prop) (x : EStateM ε σ α) : Prop := ∀ s, R s (stateOf (x s))

/-- They are related when one of the exceptions of `p` is thrown. -/
def OnThrow (p : ε → Prop) (R : σ → σ → Prop) (x : EStateM ε σ α) : Prop :=
  ∀ s e s', x s = .error e s' → p e → R s s'

/-- None of the exceptions of `p` is thrown. -/
def NoThrow (p : ε → Prop) (x : EStateM ε σ α) : Prop := ∀ s e s', x s = .error e s' → ¬ p e

section Rules

variable {p : ε → Prop} {R : σ → σ → Prop} {x : EStateM ε σ α} {f : α → EStateM ε σ β}

theorem Always.ok (h : Always R x) {s s' : σ} {a : α} (hx : x s = .ok a s') : R s s' := by
  have hs := h s
  rw [hx] at hs
  exact hs

theorem Always.mono {R' : σ → σ → Prop} (h : Always R x) (hR : ∀ s s', R s s' → R' s s') :
    Always R' x := fun s => hR _ _ (h s)

theorem Always.onThrow (h : Always R x) : OnThrow p R x := by
  intro s e s' hx _
  have hs := h s
  rw [hx] at hs
  exact hs

theorem NoThrow.onThrow (h : NoThrow p x) : OnThrow p R x :=
  fun s e s' hx hp => absurd hp (h s e s' hx)

theorem Always.bind (htrans : ∀ {a b c}, R a b → R b c → R a c) (hx : Always R x)
    (hf : ∀ a, Always R (f a)) : Always R (x >>= f) := by
  intro s
  cases hres : (x >>= f) s with
  | ok b s' =>
    obtain ⟨a, s1, hx1, hf1⟩ := bind_eq_okState hres
    exact htrans (hx.ok hx1) ((hf a).ok hf1)
  | error e s' =>
    rcases bind_eq_errorState hres with hx1 | ⟨a, s1, hx1, hf1⟩
    · exact hx.onThrow (p := fun _ => True) s e s' hx1 trivial
    · exact htrans (hx.ok hx1) ((hf a).onThrow (p := fun _ => True) s1 e s' hf1 trivial)

/-- A program that changes nothing, and then the rest. -/
theorem Always.after (hrefl : ∀ s, R s s) (hx : Always (fun s s' => s' = s) x)
    (hf : ∀ a s, x s = .ok a s → R s (stateOf (f a s))) : Always R (x >>= f) := by
  intro s
  cases hres : (x >>= f) s with
  | ok b s' =>
    obtain ⟨a, s1, hx1, hf1⟩ := bind_eq_okState hres
    obtain rfl := hx.ok hx1
    have hs := hf a s1 hx1
    rw [hf1] at hs
    exact hs
  | error e s' =>
    rcases bind_eq_errorState hres with hx1 | ⟨a, s1, hx1, hf1⟩
    · obtain rfl := hx.onThrow (p := fun _ => True) s e s' hx1 trivial
      exact hrefl s'
    · obtain rfl := hx.ok hx1
      have hs := hf a s1 hx1
      rw [hf1] at hs
      exact hs

/-- A program, and then one that changes nothing. -/
theorem Always.before (hx : Always R x) (hf : ∀ a, Always (fun s s' => s' = s) (f a)) :
    Always R (x >>= f) := by
  intro s
  cases hres : (x >>= f) s with
  | ok b s' =>
    obtain ⟨a, s1, hx1, hf1⟩ := bind_eq_okState hres
    obtain rfl := (hf a).ok hf1
    exact hx.ok hx1
  | error e s' =>
    rcases bind_eq_errorState hres with hx1 | ⟨a, s1, hx1, hf1⟩
    · exact hx.onThrow (p := fun _ => True) s e s' hx1 trivial
    · obtain rfl := (hf a).onThrow (p := fun _ => True) s1 e s' hf1 trivial
      exact hx.ok hx1

/-- Nothing that matters is changed, and then the rest runs. -/
theorem OnThrow.bind (htrans : ∀ {a b c}, R a b → R b c → R a c) (hx : Always R x)
    (hf : ∀ a, OnThrow p R (f a)) : OnThrow p R (x >>= f) := by
  intro s e s' h hp
  rcases bind_eq_errorState h with hx1 | ⟨a, s1, hx1, hf1⟩
  · exact hx.onThrow s e s' hx1 hp
  · exact htrans (hx.ok hx1) (hf a s1 e s' hf1 hp)

/-- A program, and then one that does not throw. -/
theorem OnThrow.bind_noThrow (hx : OnThrow p R x) (hf : ∀ a, NoThrow p (f a)) :
    OnThrow p R (x >>= f) := by
  intro s e s' h hp
  rcases bind_eq_errorState h with hx1 | ⟨a, s1, hx1, hf1⟩
  · exact hx s e s' hx1 hp
  · exact absurd hp (hf a s1 e s' hf1)

theorem NoThrow.bind (hx : NoThrow p x) (hf : ∀ a, NoThrow p (f a)) : NoThrow p (x >>= f) := by
  intro s e s' h
  rcases bind_eq_errorState h with hx1 | ⟨a, s1, hx1, hf1⟩
  · exact hx s e s' hx1
  · exact hf a s1 e s' hf1

theorem noThrow_pure (a : α) : NoThrow p (pure a : EStateM ε σ α) := fun _ _ _ h => nomatch h

theorem noThrow_modify (g : σ → σ) : NoThrow p (modify g : EStateM ε σ PUnit) :=
  fun _ _ _ h => nomatch h

theorem noThrow_get : NoThrow p (get : EStateM ε σ σ) := fun _ _ _ h => nomatch h

theorem always_pure (hrefl : ∀ s, R s s) (a : α) : Always R (pure a : EStateM ε σ α) := hrefl

theorem always_get (hrefl : ∀ s, R s s) : Always R (get : EStateM ε σ σ) := hrefl

theorem always_throw (hrefl : ∀ s, R s s) (e : ε) : Always R (throw e : EStateM ε σ α) := hrefl

theorem always_fromExcept (hrefl : ∀ s, R s s) (y : Except ε α) :
    Always R (fromExcept y : EStateM ε σ α) := by
  cases y with
  | ok a => exact hrefl
  | error e => exact hrefl

theorem always_throwIf (hrefl : ∀ s, R s s) (c : Prop) [Decidable c] (e : ε) :
    Always R (throwIf c e : EStateM ε σ Unit) := by
  unfold throwIf
  split
  · exact hrefl
  · exact hrefl

variable {y : EStateM ε σ Unit}

theorem always_doIf (hrefl : ∀ s, R s s) [Decidable c] (hy : Always R y) :
    Always R (doIf c y) := by
  unfold doIf
  split
  · exact hy
  · exact hrefl

theorem noThrow_doIf [Decidable c] (hy : NoThrow p y) :
    NoThrow p (doIf c y) := by
  unfold doIf
  split
  · exact hy
  · exact noThrow_pure ()

theorem always_modify {g : σ → σ} (h : ∀ s, R s (g s)) :
    Always R (modify g : EStateM ε σ PUnit) := h

end Rules

/-! ## 3. Following a pure computation -/

/-- A program does what a computation says that does not change anything: it returns when the
computation does, and `R` holds of both results and the state reached; it throws what the
computation stops with. -/
def Follows (R : β → α → σ → Prop) (y : Except ε β) (r : EStateM.Result ε σ α) : Prop :=
  match y, r with
  | .ok b, .ok a s => R b a s
  | .error e, .error e' _ => e = e'
  | _, _ => False

section Follows

variable {γ δ : Type} {R : β → α → σ → Prop} {S : δ → γ → σ → Prop} {y : Except ε β} {s : σ}

theorem follows_fromExcept {R : β → β → σ → Prop} (h : ∀ b, y = .ok b → R b b s) :
    Follows R y ((fromExcept y : EStateM ε σ β) s) := by
  cases y with
  | ok b => exact h b rfl
  | error e => rfl

/-- Two sequences, step by step. -/
theorem Follows.bind {f : α → EStateM ε σ γ} {g : β → Except ε δ} (hx : Follows R y (x s))
    (hf : ∀ b a s', R b a s' → Follows S (g b) (f a s')) :
    Follows S (y >>= g) ((x >>= f) s) := by
  cases hy : y with
  | ok b =>
    cases hres : x s with
    | ok a s' =>
      rw [hy, hres] at hx
      rw [bind_of_ok hres]
      exact hf b a s' hx
    | error e s' =>
      rw [hy, hres] at hx
      exact absurd hx id
  | error e =>
    cases hres : x s with
    | ok a s' =>
      rw [hy, hres] at hx
      exact absurd hx id
    | error e' s' =>
      rw [hy, hres] at hx
      rw [bind_of_error hres]
      exact hx

variable {r : EStateM.Result ε σ α}

/-- The computation goes on with its result, and the program is done. -/
theorem Follows.map {S : δ → α → σ → Prop} {g : β → δ} (h : Follows R y r)
    (hg : ∀ b a s, R b a s → S (g b) a s) :
    Follows S (y >>= fun b => .ok (g b)) r := by
  cases y with
  | ok b =>
    cases r with
    | ok a s => exact hg b a s h
    | error e s => exact absurd h id
  | error e =>
    cases r with
    | ok a s => exact absurd h id
    | error e' s => exact h

/-- The program throws what the computation stops with, and nothing else. -/
theorem Follows.error_iff (h : Follows R y r) (e : ε) :
    (∃ s, r = .error e s) ↔ y = .error e := by
  cases y with
  | ok b =>
    cases r with
    | ok a s => exact iff_of_false (fun ⟨_, h⟩ => nomatch h) (fun h => nomatch h)
    | error e' s => exact absurd h id
  | error e' =>
    cases r with
    | ok a s => exact absurd h id
    | error e'' s =>
      have heq : e' = e'' := h
      constructor
      · rintro ⟨s', hs'⟩
        cases hs'
        rw [heq]
      · intro he
        cases he
        exact ⟨s, by rw [heq]⟩

end Follows

end Trex.Lib
