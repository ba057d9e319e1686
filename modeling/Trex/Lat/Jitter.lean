/-
# The integer jitter estimator

`CJitterUint` (utl_jitter.h) estimates the jitter of a stream of packets from their transit times:
the absolute value of each change of the transit time is smoothed into a mean that is kept 16 times
too large, in an `int32_t`.  The arithmetic on `int32_t` is written here with its range: an
operation whose exact result does not fit has no result.

For changes of at most `D < 2 ^ 27` no operation leaves the range, and the jitter that is read is at
most `D`, after any number of packets (`run_bounded`).
-/
import Trex.Lib.Smooth
import Mathlib.Data.List.Chain
import Mathlib.Data.UInt

namespace Trex.Lat

open Trex.Lib

/-! ## 1. The estimator -/

/-- `CJitterUint`; both fields are `int32_t`. -/
structure CJitterUint where
  oldTransit : Int
  jitter : Int
  deriving Repr, DecidableEq

/-- The result of an operation on `int32_t`. -/
def int32 (x : Int) : Option Int := if -2 ^ 31 ≤ x ∧ x < 2 ^ 31 then some x else none

/-- The conversion of a `uint32_t` to an `int32_t`. -/
def toInt32 (x : UInt32) : Int := if x.toNat < 2 ^ 31 then x.toNat else x.toNat - 2 ^ 32

/-- The conversion of an `int32_t` to a `uint32_t`. -/
def toUInt32 (x : Int) : UInt32 := UInt32.ofNat (x % 2 ^ 32).toNat

/-- `if ( d < 0) d = -d;` -/
def absInt32 (d : Int) : Option Int := if d < 0 then int32 (-d) else some d

namespace CJitterUint

def reset : CJitterUint := { oldTransit := 0, jitter := 0 }

/-- `calc`, with a new transit time: the subtraction is one of `uint32_t`, since `transit` is. -/
def calcTransit (j : CJitterUint) (transit : UInt32) : Option CJitterUint := do
  let d ← absInt32 (toInt32 (transit - toUInt32 j.oldTransit))
  let rounded ← int32 (j.jitter + 8)
  let change ← int32 (d - rounded >>> (4 : Nat))
  let jitter ← int32 (j.jitter + change)
  return { oldTransit := toInt32 transit, jitter := jitter }

def getJitter (j : CJitterUint) : UInt32 := toUInt32 (j.jitter >>> (4 : Nat))

/-- Packet after packet. -/
def run (j : CJitterUint) (transits : List UInt32) :
    Option CJitterUint := transits.foldlM calcTransit j

end CJitterUint

/-! ## 2. The conversions -/

theorem int32_eq {x : Int} (hlo : -2 ^ 31 ≤ x) (hhi : x < 2 ^ 31) :
    int32 x = some x := if_pos ⟨hlo, hhi⟩

theorem toNat_toUInt32 {x : Int} : ((toUInt32 x).toNat : Int) = x % 2 ^ 32 := by
  have hlo : 0 ≤ x % 2 ^ 32 := Int.emod_nonneg _ (by omega)
  have hhi : x % 2 ^ 32 < 2 ^ 32 := Int.emod_lt_of_pos _ (by omega)
  rw [toUInt32, UInt32.toNat_ofNat']
  omega

theorem toUInt32_toInt32 (x : UInt32) : toUInt32 (toInt32 x) = x := by
  have hx := x.toNat_lt
  have hnat : ((toUInt32 (toInt32 x)).toNat : Int) = x.toNat := by
    rw [toNat_toUInt32, toInt32]
    split <;> omega
  exact UInt32.toNat_inj.mp (by omega)

theorem absInt32_eq {d : Int} (hlo : -2 ^ 31 < d) : absInt32 d = some (d.natAbs : Int) := by
  rw [absInt32]
  split
  · rw [int32_eq (by omega) (by omega), Option.some_inj]
    omega
  · rw [Option.some_inj]
    omega

/-- **The difference of two transit times is exact** when it fits. -/
theorem toInt32_sub {x y : UInt32} (hlo : -2 ^ 31 ≤ (x.toNat : Int) - y.toNat)
    (hhi : (x.toNat : Int) - y.toNat < 2 ^ 31) : toInt32 (x - y) = x.toNat - y.toNat := by
  have hx := x.toNat_lt
  have hy := y.toNat_lt
  rw [toInt32, UInt32.toNat_sub]
  split <;> omega

/-! ## 3. One packet, and a run -/

namespace CJitterUint

/-- What holds after a packet with transit time `t`. -/
structure Inv (D : Nat) (t : UInt32) (j : CJitterUint) : Prop where
  old : toUInt32 j.oldTransit = t
  smoothed : Smoothed 16 8 D j.jitter

theorem inv_reset (D : Nat) : Inv D 0 reset where
  old := by decide
  smoothed := .zero (by decide) (by decide) (Int.natCast_nonneg D)

/-- The change of the transit time from one packet to the next is at most `D`. -/
def Near (D : Nat) (x y : UInt32) : Prop := ((y.toNat : Int) - x.toNat).natAbs ≤ D

instance (D : Nat) (x y : UInt32) : Decidable (Near D x y) := inferInstanceAs (Decidable (_ ≤ _))

variable {D : Nat} {t : UInt32} {j : CJitterUint}

/-- **One packet**: nothing overflows, and the mean takes up the absolute value of the change. -/
theorem Inv.calcTransit (h : Inv D t j) (hD : D < 2 ^ 27) {transit : UInt32}
    (hnear : Near D t transit) :
    ∃ j', j.calcTransit transit = some j' ∧ Inv D transit j' := by
  have hle : ((transit.toNat : Int) - t.toNat).natAbs ≤ D := hnear
  have hd : toInt32 (transit - t) = (transit.toNat : Int) - t.toNat :=
    toInt32_sub (by omega) (by omega)
  have hlt := h.smoothed.lt
  have hnonneg := h.smoothed.nonneg
  have hnext := h.smoothed.smooth (d := ((transit.toNat : Int) - t.toNat).natAbs) (by decide)
    (by decide) (Int.natCast_nonneg _) (Int.ofNat_le.mpr hle)
  have hlt' := hnext.lt
  have hnonneg' := hnext.nonneg
  rw [Lib.smooth] at hlt' hnonneg'
  have hshift : (j.jitter + 8) >>> (4 : Nat) = (j.jitter + 8) / 16 := Int.shiftRight_eq_div_pow _ _
  refine ⟨{ oldTransit := toInt32 transit, jitter := _ }, ?_,
    { old := toUInt32_toInt32 transit, smoothed := hnext }⟩
  rw [CJitterUint.calcTransit, h.old, hd, absInt32_eq (by omega)]
  simp only [Option.bind_eq_bind, Option.bind_some, Option.pure_def]
  rw [int32_eq (by omega) (by omega), Option.bind_some, hshift, int32_eq (by omega) (by omega),
    Option.bind_some, int32_eq (by omega) (by omega), Option.bind_some]

/-- **Any number of packets.** -/
theorem Inv.run {transits : List UInt32} (h : Inv D t j) (hD : D < 2 ^ 27)
    (hnear : List.IsChain (Near D) (t :: transits)) :
    ∃ j', j.run transits = some j' ∧ Smoothed 16 8 D j'.jitter := by
  induction transits generalizing t j with
  | nil => exact ⟨j, rfl, h.smoothed⟩
  | cons transit transits ih =>
    obtain ⟨hfirst, hrest⟩ := List.isChain_cons_cons.mp hnear
    obtain ⟨j', hfst, h'⟩ := h.calcTransit hD hfirst
    obtain ⟨j'', hrun, hsmooth⟩ := ih h' hrest
    refine ⟨j'', ?_, hsmooth⟩
    rw [CJitterUint.run, List.foldlM_cons, hfst]
    exact hrun

/-- **The jitter stays within the changes of the transit time**, and no operation on `int32_t`
overflows.  Every packet keeps `Inv`: the jitter is `Smoothed`. -/
theorem run_bounded (D : Nat) (hD : D < 2 ^ 27) (transits : List UInt32)
    (hnear : List.IsChain (Near D) (0 :: transits)) :
    ∃ j, reset.run transits = some j ∧ 0 ≤ j.jitter >>> (4 : Nat) ∧
      j.getJitter.toNat = j.jitter >>> (4 : Nat) ∧
      j.getJitter.toNat ≤ D := by
  obtain ⟨j, hrun, hsmooth⟩ := (inv_reset D).run hD hnear
  have hshift : j.jitter >>> (4 : Nat) = j.jitter / 16 := Int.shiftRight_eq_div_pow _ _
  have hlo := hsmooth.mean_nonneg (by decide)
  have hhi := hsmooth.mean_le (by decide) (by decide)
  have hget : (j.getJitter.toNat : Int) = j.jitter >>> (4 : Nat) := by
    rw [getJitter, toNat_toUInt32, hshift]
    omega
  refine ⟨j, hrun, ?_, hget, ?_⟩
  · rw [hshift]
    exact hlo
  · rw [hshift] at hget
    omega

theorem run_bounded_five : List.IsChain (Near 20) (0 :: [10, 30, 10, 30, 10]) ∧
    ∃ j, reset.run [10, 30, 10, 30, 10] = some j ∧ 0 ≤ j.jitter >>> (4 : Nat) ∧
      j.getJitter.toNat = j.jitter >>> (4 : Nat) ∧
      j.getJitter.toNat ≤ 20 :=
  ⟨by decide, run_bounded 20 (by decide) _ (by decide)⟩

/-- The run of the unit test: from 30 us on, up and down by 20 us. -/
example : (reset.run ((List.range 100).map fun i => if i % 2 = 0 then 10 else 30)).map getJitter =
    some 19 := by
  decide +kernel

end CJitterUint

end Trex.Lat
