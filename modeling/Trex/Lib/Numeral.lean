/-
# Numerals between separators

A text of numerals with a separator between each two of them is a grammar (`Numerals`), and a
scanner reads it in one pass (`scanNumerals`): it keeps the value of the digits seen so far of the
numeral it is in.  The scanner reads exactly the texts of the grammar, with their values
(`scanNumerals_iff`).
-/
import Mathlib.Algebra.Ring.Nat
import Mathlib.Data.List.Basic

namespace Trex.Lib

open List

variable {α : Type*}

section Grammar

variable (digit : α → Option Nat) (base max : Nat)

/-- The value of the digits `s` behind digits of the value `v`. -/
def numeralValue (v : Nat) (s : List α) : Nat := s.foldl (fun v c => v * base + (digit c).getD 0) v

/-- A numeral: at least one digit, only digits, and not too large. -/
structure IsNumeral (s : List α) (v : Nat) : Prop where
  ne_nil : s ≠ []
  digits : ∀ c ∈ s, (digit c).isSome
  value : numeralValue digit base 0 s = v
  le : v ≤ max

/-- **The texts of numerals with the values `vs`.** -/
inductive Numerals (sep : α) : List α → List Nat → Prop
  | last {s : List α} {v : Nat} (h : IsNumeral digit base max s v) : Numerals sep s [v]
  | cons {p s : List α} {v : Nat} {vs : List Nat} (h : IsNumeral digit base max p v)
      (hs : Numerals sep s vs) :
      Numerals sep (p ++ sep :: s) (v :: vs)

/-- The scanner, behind the digits of `cur`, if there are any. -/
def scanNumerals [DecidableEq α] (sep : α) : Option Nat → List α → Option (List Nat)
  | none, [] => none
  | some v, [] => some [v]
  | cur, c :: s =>
    match digit c with
    | some d =>
      if cur.getD 0 * base + d ≤ max then scanNumerals sep (some (cur.getD 0 * base + d)) s
        else none
    | none =>
      if c = sep then cur.bind fun v => (scanNumerals sep none s).map (v :: ·) else none

end Grammar

variable {digit : α → Option Nat} {base max v : Nat} {sep c : α} {s p : List α} {vs : List Nat}
    {cur : Option Nat}

theorem numeralValue_cons (v : Nat) (c : α) (s : List α) :
    numeralValue digit base v (c :: s) = numeralValue digit base (v * base + (digit c).getD 0) s :=
      rfl

theorem numeralValue_concat (v : Nat) (s : List α) (c : α) :
    numeralValue digit base v (s ++ [c]) = numeralValue digit base v s * base +
        (digit c).getD 0 := by
  simp [numeralValue, foldl_append]

/-- More digits do not make a numeral smaller. -/
theorem le_numeralValue (hbase : 0 < base) (v : Nat) (s : List α) :
    v ≤ numeralValue digit base v s := by
  induction s generalizing v with
  | nil => exact le_refl v
  | cons c s ih =>
    rw [numeralValue_cons]
    have hmul : v ≤ v * base := Nat.le_mul_of_pos_right v hbase
    exact le_trans (le_trans hmul (Nat.le_add_right _ _)) (ih _)

section Scan

variable [DecidableEq α]

theorem scanNumerals_digit {d : Nat} (h : digit c = some d) (hle : cur.getD 0 * base + d ≤ max) :
    scanNumerals digit base max sep cur (c :: s)
      = scanNumerals digit base max sep (some (cur.getD 0 * base + d)) s := by
  simp only [scanNumerals, h, if_pos hle]

theorem scanNumerals_digit_gt {d : Nat} (h : digit c = some d)
    (hgt : ¬ cur.getD 0 * base + d ≤ max) :
    scanNumerals digit base max sep cur (c :: s) = none := by
  simp only [scanNumerals, h, if_neg hgt]

theorem scanNumerals_sep (hsep : digit sep = none) :
    scanNumerals digit base max sep (some v) (sep :: s)
      = (scanNumerals digit base max sep none s).map (v :: ·) := by
  simp [scanNumerals, hsep]

theorem scanNumerals_none_sep (h : digit c = none) :
    scanNumerals digit base max sep none (c :: s) = none := by
  simp [scanNumerals, h]

theorem scanNumerals_other (h : digit c = none) (hne : c ≠ sep) :
    scanNumerals digit base max sep cur (c :: s) = none := by
  simp [scanNumerals, h, hne]

/-- What is read has at least one numeral. -/
theorem scanNumerals_ne_nil (h : scanNumerals digit base max sep cur s = some vs) : vs ≠ [] := by
  induction s generalizing cur vs with
  | nil =>
    cases cur with
    | none => cases h
    | some v =>
      cases h
      exact cons_ne_nil v []
  | cons c s ih =>
    cases hd : digit c with
    | some d =>
      by_cases hle : cur.getD 0 * base + d ≤ max
      · rw [scanNumerals_digit hd hle] at h
        exact ih h
      · rw [scanNumerals_digit_gt hd hle] at h
        cases h
    | none =>
      by_cases hc : c = sep
      · subst hc
        cases cur with
        | none =>
          rw [scanNumerals_none_sep hd] at h
          cases h
        | some v =>
          rw [scanNumerals_sep hd] at h
          obtain ⟨rest, -, rfl⟩ := Option.map_eq_some_iff.mp h
          exact cons_ne_nil v rest
      · rw [scanNumerals_other hd hc] at h
        cases h

/-- The digits of a numeral are read to its end. -/
theorem scanNumerals_digits (hbase : 0 < base) (hdigits : ∀ c ∈ p, (digit c).isSome)
    (hle : numeralValue digit base v p ≤ max) :
    scanNumerals digit base max sep (some v) (p ++ s)
      = scanNumerals digit base max sep (some (numeralValue digit base v p)) s := by
  induction p generalizing v with
  | nil => rfl
  | cons c p ih =>
    obtain ⟨d, hd⟩ := Option.isSome_iff_exists.mp (hdigits c mem_cons_self)
    rw [numeralValue_cons, hd] at hle ⊢
    have hfirst : v * base + d ≤ max := le_trans (le_numeralValue hbase _ p) hle
    rw [cons_append, scanNumerals_digit hd hfirst]
    exact ih (fun c hc => hdigits c (mem_cons_of_mem _ hc)) hle

theorem IsNumeral.scan (h : IsNumeral digit base max p v) (hbase : 0 < base) :
    scanNumerals digit base max sep none (p ++ s) = scanNumerals digit base max sep (some v) s := by
  obtain ⟨hne, hdigits, rfl, hle⟩ := h
  obtain ⟨c, p, rfl⟩ := exists_cons_of_ne_nil hne
  obtain ⟨d, hd⟩ := Option.isSome_iff_exists.mp (hdigits c mem_cons_self)
  rw [numeralValue_cons, hd] at hle ⊢
  have hfirst : (none : Option Nat).getD 0 * base + d ≤ max :=
    le_trans (le_numeralValue hbase _ p) hle
  rw [cons_append, scanNumerals_digit hd hfirst]
  exact scanNumerals_digits hbase (fun c hc => hdigits c (mem_cons_of_mem _ hc)) hle

/-- A text of the grammar is read. -/
theorem Numerals.scan (h : Numerals digit base max sep s vs) (hbase : 0 < base)
    (hsep : digit sep = none) :
    scanNumerals digit base max sep none s = some vs := by
  induction h with
  | @last p v h =>
    rw [← append_nil p, h.scan hbase, scanNumerals]
  | cons h hs ih => rw [h.scan hbase, scanNumerals_sep hsep, ih, Option.map_some]

/-- What is read is a text of the grammar: `p` are the digits of the numeral the scanner is in. -/
theorem numerals_of_scan (hp : ∀ c ∈ p, (digit c).isSome) (hle : numeralValue digit base 0 p ≤ max)
    (h : scanNumerals digit base max sep (if p = [] then none
      else some (numeralValue digit base 0 p)) s = some vs) :
    Numerals digit base max sep (p ++ s) vs := by
  induction s generalizing p vs with
  | nil =>
    by_cases hnil : p = []
    · rw [if_pos hnil] at h
      cases h
    · rw [if_neg hnil] at h
      cases h
      rw [append_nil]
      exact .last ⟨hnil, hp, rfl, hle⟩
  | cons c s ih =>
    have hcur : (if p = [] then none else some (numeralValue digit base 0 p)).getD 0
        = numeralValue digit base 0 p := by
      split
      · rename_i hnil
        rw [hnil]
        rfl
      · rfl
    cases hd : digit c with
    | some d =>
      have hvalue : numeralValue digit base 0 (p ++ [c]) = numeralValue digit base 0 p * base +
          d := by
        rw [numeralValue_concat, hd, Option.getD_some]
      by_cases hfit : numeralValue digit base 0 p * base + d ≤ max
      · rw [scanNumerals_digit hd (by rw [hcur]; exact hfit), hcur, ← hvalue] at h
        rw [append_cons]
        refine ih ?_ (by rw [hvalue]; exact hfit) ?_
        · intro x hx
          rcases mem_append.mp hx with hold | hnew
          · exact hp x hold
          · rw [mem_singleton.mp hnew, hd]
            rfl
        · rw [if_neg (append_ne_nil_of_right_ne_nil _ (cons_ne_nil _ _))]
          exact h
      · rw [scanNumerals_digit_gt hd (by rw [hcur]; exact hfit)] at h
        cases h
    | none =>
      by_cases hc : c = sep
      · subst hc
        by_cases hnil : p = []
        · rw [if_pos hnil, scanNumerals_none_sep hd] at h
          cases h
        · rw [if_neg hnil, scanNumerals_sep hd] at h
          obtain ⟨rest, hrest, rfl⟩ := Option.map_eq_some_iff.mp h
          refine .cons ⟨hnil, hp, rfl, hle⟩ ?_
          have htail := ih (p := []) (fun x hx => by cases hx) (Nat.zero_le max) hrest
          exact htail
      · rw [scanNumerals_other hd hc] at h
        cases h

/-- **The scanner reads exactly the texts of the grammar.** -/
theorem scanNumerals_iff (hbase : 0 < base) (hsep : digit sep = none) :
    scanNumerals digit base max sep none s = some vs ↔ Numerals digit base max sep s vs := by
  refine ⟨fun h => ?_, fun h => h.scan hbase hsep⟩
  exact numerals_of_scan (p := []) (fun x hx => by cases hx) (Nat.zero_le max) h

end Scan

end Trex.Lib
