/-
# The addresses of the configuration file

`my_inet_pton4` (utl_yaml.cpp) reads an IPv4 address in one pass over the characters: it keeps
whether the component it is in has a digit, how many components have begun, and their bytes in an
array of four.  The pass is written here over the memory behind `src`, with every access to the
array checked.

The pass refines the scanner of numerals of `Lib/Numeral.lean` (`scanChars_eq`), so that exactly the
texts of four components of at most 255 are accepted (`pton_grammar`), and no access is outside of
the text or of the array.
-/
import Trex.Lib.Numeral
import Mathlib.Data.UInt

namespace Trex.Cfg

open Trex.Lib

/-! ## 1. The reader -/

/-- `digits`: the characters "0123456789". -/
def digits : List UInt8 := [48, 49, 50, 51, 52, 53, 54, 55, 56, 57]

/-- `strchr(digits, ch) - digits`. -/
def strchrDigits (ch : UInt8) : Option Nat := digits.idxOf? ch

/-- The character `'.'`. -/
def dot : UInt8 := 46

/-- The loop of `my_inet_pton4`, over the memory at `src`, and the check at its end: `some none`
where the function returns 0, and `none` where it reads behind the memory or writes outside of
`tmp`. -/
def scanChars : List UInt8 → Vector UInt8 4 → Nat → Bool → Nat → Option (Option (Vector UInt8 4))
  | [], _, _, _, _ => none
  | ch :: src, tmp, tp, sawDigit, octets =>
    if ch = 0 then some (if octets < 4 then none else some tmp)
    else
      match strchrDigits ch with
      | some pch =>
        if h : tp < 4 then
          let new := tmp[tp].toNat * 10 + pch
          if 255 < new then some none
          else if sawDigit then scanChars src (tmp.set tp (UInt8.ofNat new)) tp true octets
          else if 4 < octets + 1 then some none
          else scanChars src (tmp.set tp (UInt8.ofNat new)) tp true (octets + 1)
        else none
      | none =>
        if ch = dot ∧ sawDigit then
          if octets = 4 then some none
          else if h : tp + 1 < 4 then scanChars src (tmp.set (tp + 1) 0) (tp + 1) false octets
          else none
        else some none

/-- `my_inet_pton4`: what is returned, and what is in `dst` then. `tmp` is what happens to be in the
local array. -/
def myInetPton4 (tmp : Vector UInt8 4) (src : List UInt8) (dst : Vector UInt8 4) :
    Option (Int × Vector UInt8 4) :=
  (scanChars src (tmp.set 0 0) 0 false 0).map fun
    | some tmp => (1, tmp)
    | none => (0, dst)

/-! ## 2. The pass and the scanner of numerals -/

/-- The grammar of the addresses: numerals of at most 255, with a dot between each two of them. -/
abbrev Components (s : List UInt8) (vs : List Nat) : Prop := Numerals strchrDigits 10 255 dot s vs

/-- The components that are complete are in the first bytes of `tmp`, and the digits of the current
one in the next, if there are any. -/
structure Scanned (done : List Nat) (cur : Option Nat) (tmp : Vector UInt8 4) (tp octets : Nat) :
    Prop where
  tp_eq : tp = done.length
  lt : done.length < 4
  bytes : ∀ i (hi : i < done.length), tmp[i].toNat = done[i]
  value : tmp[done.length].toNat = cur.getD 0
  octets_eq : octets = done.length + if cur.isSome then 1 else 0

/-- What the pass has to return when the scanner reads `want`. -/
def Reads (want : Option (List Nat)) : Option (Vector UInt8 4) → Prop
  | some out => want = some (out.toList.map UInt8.toNat)
  | none => ∀ vs, want = some vs → vs.length ≠ 4

theorem strchrDigits_dot : strchrDigits dot = none := by decide

variable {done : List Nat} {cur : Option Nat} {tmp : Vector UInt8 4} {tp octets v : Nat}
    {s : List UInt8}

/-- One digit more. -/
theorem Scanned.digit (h : Scanned done cur tmp tp octets) (hlt : tp < 4) (hv : v ≤ 255) :
    Scanned done (some v) (tmp.set tp (UInt8.ofNat v)) tp (done.length + 1) where
  tp_eq := h.tp_eq
  lt := h.lt
  bytes i hi := by
    have hne : tp ≠ i := by
      rw [h.tp_eq]
      omega
    have hi4 : i < 4 := Nat.lt_trans hi h.lt
    rw [Vector.getElem_set_ne hlt hi4 hne]
    exact h.bytes i hi
  value := by
    have htp := h.tp_eq
    subst htp
    rw [Vector.getElem_set_self, UInt8.toNat_ofNat']
    exact Nat.mod_eq_of_lt (by omega)
  octets_eq := rfl

/-- One component more. -/
theorem Scanned.dot (h : Scanned done (some v) tmp tp octets) (hlt : tp + 1 < 4) :
    Scanned (done ++ [v]) none (tmp.set (tp + 1) 0) (tp + 1) octets := by
  obtain ⟨rfl, _, hbytes, hcur, hoctets⟩ := h
  refine ⟨by rw [List.length_append]; rfl, by rw [List.length_append]; exact hlt, ?_, ?_, ?_⟩
  · intro i hi
    rw [List.length_append, List.length_singleton] at hi
    have hi4 : i < 4 := Nat.lt_trans hi hlt
    rw [Vector.getElem_set_ne hlt hi4 (by omega)]
    rcases Nat.lt_succ_iff_lt_or_eq.mp hi with hold | rfl
    · rw [List.getElem_append_left hold]
      exact hbytes i hold
    · rw [List.getElem_concat_length rfl]
      exact hcur
  · simp
  · rw [hoctets, List.length_append]
    rfl

/-- The four bytes that are there at the end. -/
theorem Scanned.toList (h : Scanned done (some v) tmp tp octets) (h3 : done.length = 3) :
    tmp.toList.map UInt8.toNat = done ++ [v] := by
  have hlen : (tmp.toList.map UInt8.toNat).length = (done ++ [v]).length := by simp [h3]
  refine List.ext_getElem hlen ?_
  intro i hi hi'
  rw [List.getElem_map, Vector.getElem_toList]
  rw [List.length_append, List.length_singleton] at hi'
  rcases Nat.lt_succ_iff_lt_or_eq.mp hi' with hold | rfl
  · rw [List.getElem_append_left hold]
    exact h.bytes i hold
  · rw [List.getElem_concat_length rfl]
    exact h.value

/-- **The pass returns what the scanner reads**, when that is four components. -/
theorem scanChars_eq (hs : ∀ ch ∈ s, ch ≠ 0) (rest : List UInt8)
    (h : Scanned done cur tmp tp octets) :
    ∃ r, scanChars (s ++ 0 :: rest) tmp tp cur.isSome octets = some r ∧
      Reads ((scanNumerals strchrDigits 10 255 dot cur s).map (done ++ ·)) r := by
  induction s generalizing done cur tmp tp octets with
  | nil =>
    have hoctets := h.octets_eq
    refine ⟨if octets < 4 then none else some tmp, by rw [List.nil_append, scanChars, if_pos rfl],
      ?_⟩
    cases cur with
    | none =>
      rw [if_pos (by rw [hoctets]; exact h.lt)]
      intro vs hvs
      cases hvs
    | some v =>
      rw [Option.isSome_some, if_pos rfl] at hoctets
      split
      · intro vs hvs
        cases hvs
        simp
        omega
      · have hlt := h.lt
        rw [Reads, h.toList (by omega)]
        rfl
  | cons ch s ih =>
    have hch : ch ≠ 0 := hs ch List.mem_cons_self
    have hrest : ∀ ch ∈ s, ch ≠ 0 := fun ch hmem => hs ch (List.mem_cons_of_mem _ hmem)
    have hlt := h.lt
    have hoctets := h.octets_eq
    have htp : tp < 4 := by rw [h.tp_eq]; exact hlt
    have hcur : tmp[tp].toNat = cur.getD 0 := by
      have hcur := h.value
      have htp' := h.tp_eq
      subst htp'
      exact hcur
    rw [List.cons_append, scanChars, if_neg hch]
    cases hd : strchrDigits ch with
    | some pch =>
      simp only [dif_pos htp, hcur]
      by_cases hgt : 255 < cur.getD 0 * 10 + pch
      · rw [if_pos hgt, scanNumerals_digit_gt hd (by omega)]
        exact ⟨none, rfl, fun vs hvs => by cases hvs⟩
      · rw [if_neg hgt, scanNumerals_digit hd (by omega)]
        have hnext := h.digit htp (v := cur.getD 0 * 10 + pch) (by omega)
        cases cur with
        | none =>
          rw [Option.isSome_none, if_neg Bool.false_ne_true] at hoctets
          rw [Option.isSome_none, if_neg Bool.false_ne_true, if_neg (by omega), hoctets]
          exact ih hrest hnext
        | some v =>
          rw [Option.isSome_some, if_pos rfl] at hoctets
          rw [Option.isSome_some, if_pos rfl, hoctets]
          exact ih hrest hnext
    | none =>
      dsimp only
      by_cases hdot : ch = Cfg.dot
      · subst hdot
        cases cur with
        | none =>
          rw [if_neg (by simp), scanNumerals_none_sep hd]
          exact ⟨none, rfl, fun vs hvs => by cases hvs⟩
        | some v =>
          rw [Option.isSome_some, if_pos rfl] at hoctets
          rw [if_pos ⟨rfl, rfl⟩, scanNumerals_sep hd]
          by_cases hfull : octets = 4
          · rw [if_pos hfull]
            refine ⟨none, rfl, fun vs hvs => ?_⟩
            -- a dot behind the fourth component: another one would have to follow
            obtain ⟨ws, hws, rfl⟩ := Option.map_eq_some_iff.mp hvs
            obtain ⟨us, hus, rfl⟩ := Option.map_eq_some_iff.mp hws
            have hpos := List.length_pos_of_ne_nil (scanNumerals_ne_nil hus)
            rw [List.length_append, List.length_cons]
            omega
          · have htp1 : tp + 1 < 4 := by
              have htp' := h.tp_eq
              omega
            rw [if_neg hfull, dif_pos htp1]
            obtain ⟨r, hr, hreads⟩ := ih hrest (h.dot htp1)
            refine ⟨r, hr, ?_⟩
            rw [Option.map_map]
            have happend : ((done ++ ·) ∘ (v :: ·) : List Nat → List Nat) = (done ++ [v] ++ ·) := by
              funext ws
              simp
            rw [happend]
            exact hreads
      · rw [if_neg (fun hboth => hdot hboth.1), scanNumerals_other hd hdot]
        exact ⟨none, rfl, fun vs hvs => by cases hvs⟩

/-! ## 3. The addresses that are accepted -/

/-- **Exactly the texts of four components of at most 255 are accepted**, with their bytes; nothing
is written on failure, and nothing outside of the text and of the array is read or written.  The
loop keeps `Scanned`. -/
theorem pton_grammar (tmp dst : Vector UInt8 4) (s rest : List UInt8) (hs : ∀ ch ∈ s, ch ≠ 0) :
    (∀ out, myInetPton4 tmp (s ++ 0 :: rest) dst = some (1, out) ↔
      Components s (out.toList.map UInt8.toNat)) ∧
    ((¬ ∃ out : Vector UInt8 4, Components s (out.toList.map UInt8.toNat)) →
      myInetPton4 tmp (s ++ 0 :: rest) dst = some (0, dst)) := by
  have hstart : Scanned [] none (tmp.set 0 0) 0 0 := by
    refine ⟨rfl, by decide, fun i hi => absurd hi (Nat.not_lt_zero i), ?_, rfl⟩
    simp
  obtain ⟨r, hr, hreads⟩ := scanChars_eq hs rest hstart
  have hgrammar : ∀ vs, scanNumerals strchrDigits 10 255 dot none s = some vs ↔ Components s vs :=
    fun vs => scanNumerals_iff (by decide) strchrDigits_dot
  have hnil : ((fun vs => [] ++ vs) : List Nat → List Nat) = id := rfl
  rw [hnil, Option.map_id] at hreads
  rw [Option.isSome_none] at hr
  rw [myInetPton4, hr]
  cases r with
  | none =>
    have hrefused : ¬ ∃ out : Vector UInt8 4, Components s (out.toList.map UInt8.toNat) := by
      rintro ⟨out, hout⟩
      exact hreads _ ((hgrammar _).mpr hout) (by simp)
    exact ⟨fun out => ⟨fun h => (by cases h), fun h => absurd ⟨out, h⟩ hrefused⟩, fun _ => rfl⟩
  | some out' =>
    have hout' := (hgrammar _).mp hreads
    refine ⟨fun out => ⟨fun h => ?_, fun h => ?_⟩, fun h => absurd ⟨out', hout'⟩ h⟩
    · cases h
      exact hout'
    · have hsame : out'.toList.map UInt8.toNat = out.toList.map UInt8.toNat :=
        Option.some_inj.mp (hreads.symm.trans ((hgrammar _).mpr h))
      have hlist := List.map_injective_iff.mpr (fun _ _ => UInt8.toNat_inj.mp) hsame
      rw [Vector.toList_inj.mp hlist]
      rfl

/-- "10.0.0.1" is accepted, and "10.0.0." is not. -/
theorem pton_grammar_ten :
    myInetPton4 #v[1, 2, 3, 4] ([49, 48, 46, 48, 46, 48, 46, 49] ++ 0 :: [7]) #v[9, 9, 9, 9]
      = some (1, #v[10, 0, 0, 1]) ∧
    myInetPton4 #v[1, 2, 3, 4] ([49, 48, 46, 48, 46, 48, 46] ++ 0 :: []) #v[9, 9, 9, 9]
      = some (0, #v[9, 9, 9, 9]) := by
  refine ⟨((pton_grammar _ _ _ _ (by simp)).1 _).mpr ?_, (pton_grammar _ _ _ _ (by simp)).2 ?_⟩
  · exact (scanNumerals_iff (by decide) strchrDigits_dot).mp (by decide)
  · rintro ⟨out, hout⟩
    have hread := hout.scan (by decide) strchrDigits_dot
    rw [show scanNumerals strchrDigits 10 255 dot none _ = none from by decide] at hread
    cases hread

end Trex.Cfg
