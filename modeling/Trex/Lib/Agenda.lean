/-
# Agendas

An agenda says for each key when it is due, if it is armed at all.  It is what a timer service is
for: a key is armed (again) with a time, stopped, or fired, and it fires when no armed key is due
before it.

* a history is the list of what happened to an agenda, and `Allowed` says of a history that it fires
  nothing but the key that is due first;
* then a key fires with the time it was last armed with, once, and not when it was stopped
  (`Allowed.lastArmed`);
* and keys fire in the order of their times, but for those that are armed on the way
  (`Allowed.inOrder`).
-/
import Mathlib.Order.Basic

namespace Trex.Lib

open List

/-- The keys that are armed, with the time each of them is due. -/
abbrev Agenda (κ τ : Type) := κ → Option τ

/-- What happens to an agenda. -/
inductive AgendaEvent (κ τ : Type)
  | armed (k : κ) (t : τ)
  | stopped (k : κ)
  | fired (k : κ) (t : τ)

variable {κ τ : Type}

/-- The key that an event is about. -/
def AgendaEvent.key : AgendaEvent κ τ → κ
  | .armed k _ => k
  | .stopped k => k
  | .fired k _ => k

namespace Agenda

/-! ## 1. The agenda after a history -/

variable [DecidableEq κ]

/-- The agenda after an event. -/
def apply (A : Agenda κ τ) : AgendaEvent κ τ → Agenda κ τ
  | .armed k t => Function.update A k (some t)
  | .stopped k => Function.update A k none
  | .fired k _ => Function.update A k none

/-- The agenda after a history. -/
def after (A : Agenda κ τ) (es : List (AgendaEvent κ τ)) : Agenda κ τ := es.foldl apply A

variable {A : Agenda κ τ} {es es' : List (AgendaEvent κ τ)} {k : κ} {t : τ}

@[simp] theorem after_nil : A.after [] = A := rfl

@[simp] theorem after_cons (e : AgendaEvent κ τ) : A.after (e :: es) = (A.apply e).after es := rfl

theorem after_append : A.after (es ++ es') = (A.after es).after es' := foldl_append

variable {e : AgendaEvent κ τ}

/-- An event is about its key alone. -/
theorem apply_of_ne (h : e.key ≠ k) : A.apply e k = A k := by
  cases e <;> exact Function.update_of_ne (Ne.symm h) _ _

/-- A key that is armed after a history was armed by it, and nothing happened to it since; or it was
armed before, and nothing happened to it at all. -/
theorem after_eq_some (es : List (AgendaEvent κ τ)) : ∀ A : Agenda κ τ, A.after es k = some t →
    (A k = some t ∧ ∀ e ∈ es, e.key ≠ k) ∨
      ∃ before since, es = before ++ .armed k t :: since ∧ ∀ e ∈ since, e.key ≠ k := by
  induction es with
  | nil => exact fun A h => .inl ⟨h, by simp⟩
  | cons e es ih =>
    intro A h
    rcases ih (A.apply e) h with ⟨hat, hrest⟩ | ⟨before, since, rfl, hsince⟩
    · by_cases hk : e.key = k
      · subst hk
        cases e with
        | armed k u =>
          have hu : u = t := by simpa [apply, AgendaEvent.key] using hat
          exact .inr ⟨[], es, by rw [hu]; rfl, hrest⟩
        | stopped k => simp [apply, AgendaEvent.key] at hat
        | fired k u => simp [apply, AgendaEvent.key] at hat
      · refine .inl ⟨by rwa [apply_of_ne hk] at hat, ?_⟩
        intro e' he'
        rcases mem_cons.mp he' with rfl | he'
        · exact hk
        · exact hrest e' he'
    · exact .inr ⟨e :: before, since, rfl, hsince⟩

/-- What a history does not arm and leaves armed was armed before it. -/
theorem before_of_not_armed (h : A.after es k = some t) (hno : ∀ u, .armed k u ∉ es) :
    A k = some t := by
  rcases after_eq_some es A h with ⟨hat, -⟩ | ⟨before, since, rfl, -⟩
  · exact hat
  · exact absurd (mem_append_right _ mem_cons_self) (hno t)

/-! ## 2. Histories that fire in order -/

variable [Preorder τ]

/-- A firing is that of an armed key, and no armed key is due before it. -/
def Due (A : Agenda κ τ) : AgendaEvent κ τ → Prop
  | .fired k t => A k = some t ∧ ∀ k' t', A k' = some t' → t ≤ t'
  | _ => True

/-- Every firing of a history is due when it happens. -/
def Allowed (A : Agenda κ τ) : List (AgendaEvent κ τ) → Prop
  | [] => True
  | e :: es => A.Due e ∧ (A.apply e).Allowed es

theorem allowed_append (es : List (AgendaEvent κ τ)) : ∀ A : Agenda κ τ,
    A.Allowed (es ++ es') ↔ A.Allowed es ∧ (A.after es).Allowed es' := by
  induction es with
  | nil => exact fun A => by simp [Allowed]
  | cons e es ih =>
    intro A
    rw [cons_append, Allowed, ih (A.apply e), Allowed, after_cons, and_assoc]

/-- A history without firings. -/
theorem allowed_of_not_fired (es : List (AgendaEvent κ τ)) : ∀ A : Agenda κ τ,
    (∀ k t, .fired k t ∉ es) → A.Allowed es := by
  induction es with
  | nil => exact fun A _ => trivial
  | cons e es ih =>
    intro A hno
    refine ⟨?_, ih _ fun k t hmem => hno k t (mem_cons_of_mem _ hmem)⟩
    cases e with
    | armed k t => exact trivial
    | stopped k => exact trivial
    | fired k t => exact absurd mem_cons_self (hno k t)

/-- The firing in the middle of a history. -/
theorem Allowed.due {past future : List (AgendaEvent κ τ)} (h : A.Allowed (past ++ e :: future)) :
    (A.after past).Due e :=
  ((allowed_append past A).mp h).2.1

/-- A key fires with the time it was last armed with, and nothing happened to it since: it fires
once for an arming, and not when it was stopped. -/
def FiresLastArmed (es : List (AgendaEvent κ τ)) : Prop :=
  ∀ past k t future, es = past ++ .fired k t :: future →
    ∃ before since, past = before ++ .armed k t :: since ∧ ∀ e ∈ since, e.key ≠ k

/-- Two firings are in the order of their times, unless the second key was armed between them. -/
def FiresInOrder (es : List (AgendaEvent κ τ)) : Prop :=
  ∀ past k t between k' t' future, es = past ++ .fired k t :: (between ++ .fired k' t' :: future) →
    (∀ u, .armed k' u ∉ between) → t ≤ t'

/-- **What is fired when it is due is fired with the last time, once.** -/
theorem Allowed.lastArmed (h : Allowed (fun _ => none) es) : FiresLastArmed es := by
  rintro past k t future rfl
  rcases after_eq_some past _ h.due.1 with ⟨hat, -⟩ | hlast
  · cases hat
  · exact hlast

/-- **What is fired when it is due is fired in order.** -/
theorem Allowed.inOrder (h : A.Allowed es) : FiresInOrder es := by
  rintro past k t between k' t' future rfl hno
  have hfirst := h.due
  have hsplit : A.Allowed ((past ++ .fired k t :: between) ++ .fired k' t' :: future) := by
    simpa only [append_assoc, cons_append] using h
  have hsecond := hsplit.due
  have hat : (A.after past).after (.fired k t :: between) k' = some t' := by
    rw [← after_append]
    exact hsecond.1
  refine hfirst.2 k' t' (before_of_not_armed hat ?_)
  intro u hu
  rcases mem_cons.mp hu with hu | hu
  · cases hu
  · exact hno u hu

end Agenda

end Trex.Lib
