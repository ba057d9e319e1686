/-
# Postconditions of fallible computations

`Post x ok err` says what a computation may do: return a value with `ok`, or stop with an error with
`err`.  It composes along `>>=` (`Post.bind`), so that a function is proved one call at a time.
-/
import Mathlib.Logic.Basic

namespace Trex.Lib

variable {ε α β : Type}

/-- What a computation returns satisfies `ok`, and what it stops with satisfies `err`. -/
def Post (x : Except ε α) (ok : α → Prop) (err : ε → Prop) : Prop :=
  match x with
  | .ok a => ok a
  | .error e => err e

@[simp] theorem post_ok {a : α} {ok : α → Prop} {err : ε → Prop} :
    Post (.ok a) ok err ↔ ok a := Iff.rfl

@[simp] theorem post_error {e : ε} {ok : α → Prop} {err : ε → Prop} :
    Post (.error e) ok err ↔ err e := Iff.rfl

namespace Post

variable {x : Except ε α} {ok ok' : α → Prop} {err err' : ε → Prop}

theorem result (h : Post x ok err) {a : α} (hx : x = .ok a) : ok a := by
  subst hx
  exact h

theorem fault (h : Post x ok err) {e : ε} (hx : x = .error e) : err e := by
  subst hx
  exact h

theorem of_forall (hok : ∀ a, x = .ok a → ok a) (herr : ∀ e, x = .error e → err e) :
    Post x ok err := by
  cases x with
  | ok a => exact hok a rfl
  | error e => exact herr e rfl

theorem mono (h : Post x ok err) (hok : ∀ a, ok a → ok' a) (herr : ∀ e, err e → err' e) :
    Post x ok' err' :=
  of_forall (fun a ha => hok a (h.result ha)) fun e he => herr e (h.fault he)

/-- One call, then the rest. -/
theorem bind {f : α → Except ε β} {okβ : β → Prop} (h : Post x ok err)
    (hf : ∀ a, ok a → Post (f a) okβ err) : Post (x >>= f) okβ err := by
  cases x with
  | ok a => exact hf a h
  | error e => exact h

/-- A call that cannot stop. -/
theorem total (h : Post x ok fun _ => False) : ∃ a, x = .ok a ∧ ok a := by
  cases x with
  | ok a => exact ⟨a, rfl, h⟩
  | error e => exact absurd h id

end Post

end Trex.Lib
