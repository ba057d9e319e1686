/-
# Fields of a word

`bitMan.h` reads and writes a range of bits of an 8-, 16- or 32-bit word: `btGetMaskBit(a, hi, lo)`
and `btSetMaskBit(a, hi, lo, v)`.  Both count the bits from the other end to build a mask, with
shifts of an `int`, and treat the range that is the whole word apart.

* A word is a `BitVec n`; where the code computes with an `int` (or, for 32-bit words, an
  `unsigned`), the word is promoted to 32 bits here as well, and the arithmetic wraps around.
* What matters about the functions is which bits they read and write (`getLsbD_btGetMaskBit`,
  `getLsbD_btSetMaskBit`); the laws of a field follow from that (`field_laws`).
-/
import Mathlib.Data.BitVec
import Mathlib.Data.List.Pairwise

namespace Trex.Net

/-! ## 1. The functions -/

variable {n : Nat}

/-- `btGetShift` -/
def btGetShift (n stopbit : Nat) : BitVec n := BitVec.ofNat n (n - stopbit - 1)

/-- `btGetMask`: ones from `startbit` to `stopbit`, bit 0 is the most significant one. -/
def btGetMask (n startbit stopbit : Nat) : BitVec n :=
  let shft := btGetShift n stopbit
  (((1#32 <<< (stopbit - startbit + 1)) - 1#32) <<< shft.toNat).setWidth n

/-- `btGetMaskBitBigE` -/
def btGetMaskBitBigE (a : BitVec n) (startbit stopbit : Nat) : BitVec n :=
  if n = stopbit - startbit + 1 then a
  else
    let mask := (btGetMask n startbit stopbit).setWidth 32
    let shift := btGetShift n stopbit
    ((a.setWidth 32 &&& mask) >>> shift.toNat).setWidth n

/-- `btSetMaskBitBigE`, with the new value of `a` as its result. -/
def btSetMaskBitBigE (a : BitVec n) (startbit stopbit : Nat) (newval : BitVec n) : BitVec n :=
  if n = stopbit - startbit + 1 then newval
  else
    let mask := (btGetMask n startbit stopbit).setWidth 32
    let shift := btGetShift n stopbit
    ((a.setWidth 32 &&& ~~~mask) ||| ((newval.setWidth 32 <<< shift.toNat) &&& mask)).setWidth n

/-- `btGetMaskBit`: the bits from `startbit` down to `stopbit`, bit 0 is the least significant
one. -/
def btGetMaskBit (a : BitVec n) (startbit stopbit : Nat) : BitVec n :=
  btGetMaskBitBigE a (n - 1 - startbit) (n - 1 - stopbit)

/-- `btSetMaskBit` -/
def btSetMaskBit (a : BitVec n) (startbit stopbit : Nat) (newval : BitVec n) : BitVec n :=
  btSetMaskBitBigE a (n - 1 - startbit) (n - 1 - stopbit) newval

/-! ## 2. The bits that are read and written -/

theorem getLsbD_ones {w : Nat} (hw : w < 32) (i : Nat) :
    ((1#32 <<< w) - 1#32).getLsbD i = decide (i < w) := by
  have hpow : 2 ^ w < 2 ^ 32 := Nat.pow_lt_pow_right (by decide) hw
  have hpos : 0 < 2 ^ w := Nat.two_pow_pos w
  have hones : ((1#32 <<< w) - 1#32).toNat = 2 ^ w - 1 := by
    rw [BitVec.toNat_sub, BitVec.toNat_shiftLeft, Nat.shiftLeft_eq]
    simp only [BitVec.toNat_ofNat, Nat.reduceMod, Nat.reducePow, one_mul]
    omega
  rw [← BitVec.testBit_toNat, hones, Nat.testBit_two_pow_sub_one]

theorem toNat_btGetShift {stopbit : Nat} (h : stopbit < n) :
    (btGetShift n stopbit).toNat = n - stopbit - 1 := by
  have hn := Nat.lt_two_pow_self (n := n)
  rw [btGetShift, BitVec.toNat_ofNat]
  exact Nat.mod_eq_of_lt (by omega)

/-- The mask of a range that is not the whole word. -/
theorem getLsbD_btGetMask {hi lo : Nat} (hn : n ≤ 32) (hle : lo ≤ hi) (hlt : hi < n)
    (hpart : n ≠ hi - lo + 1) (i : Nat) :
    (btGetMask n (n - 1 - hi) (n - 1 - lo)).getLsbD i = decide (lo ≤ i ∧ i ≤ hi) := by
  have hw : n - 1 - lo - (n - 1 - hi) + 1 = hi - lo + 1 := by omega
  have hshift : n - (n - 1 - lo) - 1 = lo := by omega
  rw [btGetMask, hw, toNat_btGetShift (by omega), hshift, BitVec.getLsbD_setWidth,
    BitVec.getLsbD_shiftLeft, getLsbD_ones (by omega)]
  rw [Bool.eq_iff_iff]
  simp only [Bool.and_eq_true, Bool.not_eq_true', decide_eq_true_eq, decide_eq_false_iff_not]
  omega

/-- **The bits that are read.** -/
theorem getLsbD_btGetMaskBit {hi lo : Nat} (hn : n ≤ 32) (hle : lo ≤ hi) (hlt : hi < n)
    (a : BitVec n) (i : Nat) :
    (btGetMaskBit a hi lo).getLsbD i = (decide (i ≤ hi - lo) && a.getLsbD (lo + i)) := by
  have hw : n - 1 - lo - (n - 1 - hi) + 1 = hi - lo + 1 := by omega
  have hshift : n - (n - 1 - lo) - 1 = lo := by omega
  rw [btGetMaskBit, btGetMaskBitBigE, hw]
  split
  · rename_i hwhole
    have hlo : lo = 0 := by omega
    subst hlo
    rw [Nat.zero_add]
    by_cases hin : i ≤ hi - 0
    · rw [decide_eq_true hin, Bool.true_and]
    · have hout : a.getLsbD i = false := BitVec.getLsbD_of_ge a i (by omega)
      simp [hout]
  · rename_i hpart
    dsimp only
    rw [toNat_btGetShift (by omega), hshift, BitVec.getLsbD_setWidth, BitVec.getLsbD_ushiftRight,
      BitVec.getLsbD_and, BitVec.getLsbD_setWidth, BitVec.getLsbD_setWidth,
        getLsbD_btGetMask hn hle hlt hpart]
    rw [Bool.eq_iff_iff]
    simp only [Bool.and_eq_true, decide_eq_true_eq]
    refine ⟨fun h => ⟨by omega, h.2.1.2⟩, fun h =>
      ⟨by omega, ⟨by omega, h.2⟩, by omega, by omega, by omega⟩⟩

/-- **The bits that are written.** -/
theorem getLsbD_btSetMaskBit {hi lo : Nat} (hn : n ≤ 32) (hle : lo ≤ hi) (hlt : hi < n)
    (a v : BitVec n) (i : Nat) :
    (btSetMaskBit a hi lo v).getLsbD i = if lo ≤ i ∧
        i ≤ hi then v.getLsbD (i - lo) else a.getLsbD i := by
  have hw : n - 1 - lo - (n - 1 - hi) + 1 = hi - lo + 1 := by omega
  have hshift : n - (n - 1 - lo) - 1 = lo := by omega
  rw [btSetMaskBit, btSetMaskBitBigE, hw]
  split
  · rename_i hwhole
    have hlo : lo = 0 := by omega
    subst hlo
    split
    · rw [Nat.sub_zero]
    · rw [BitVec.getLsbD_of_ge a i (by omega), BitVec.getLsbD_of_ge v i (by omega)]
  · rename_i hpart
    dsimp only
    rw [toNat_btGetShift (by omega), hshift, BitVec.getLsbD_setWidth, BitVec.getLsbD_or,
      BitVec.getLsbD_and,
      BitVec.getLsbD_and, BitVec.getLsbD_not, BitVec.getLsbD_shiftLeft, BitVec.getLsbD_setWidth,
      BitVec.getLsbD_setWidth, BitVec.getLsbD_setWidth, getLsbD_btGetMask hn hle hlt hpart]
    split
    · rename_i hin
      rw [Bool.eq_iff_iff]
      simp only [hin, Bool.and_eq_true, Bool.or_eq_true, Bool.not_eq_true', decide_eq_true_eq,
        decide_eq_false_iff_not]
      grind
    · rename_i hout
      by_cases hin : i < n
      · have hin' : i < 32 := by omega
        simp [hout, hin, hin']
      · rw [BitVec.getLsbD_of_ge a i (by omega)]
        simp [hin]

/-! ## 3. The laws of a field -/

section Laws

variable {hi lo hi' lo' : Nat}

theorem get_set (hn : n ≤ 32) (hle : lo ≤ hi) (hlt : hi < n) (a v : BitVec n) :
    (btGetMaskBit (btSetMaskBit a hi lo v) hi lo).toNat = v.toNat % 2 ^ (hi - lo + 1) := by
  refine Nat.eq_of_testBit_eq fun i => ?_
  rw [Nat.testBit_mod_two_pow, BitVec.testBit_toNat, BitVec.testBit_toNat,
    getLsbD_btGetMaskBit hn hle hlt, getLsbD_btSetMaskBit hn hle hlt]
  by_cases hin : i ≤ hi - lo
  · have hrange : lo ≤ lo + i ∧ lo + i ≤ hi := by omega
    have hwidth : i < hi - lo + 1 := by omega
    rw [if_pos hrange, Nat.add_sub_cancel_left, decide_eq_true hin, decide_eq_true hwidth]
  · have hwidth : ¬ i < hi - lo + 1 := by omega
    rw [decide_eq_false hin, decide_eq_false hwidth, Bool.false_and, Bool.false_and]

theorem set_get (hn : n ≤ 32) (hle : lo ≤ hi) (hlt : hi < n) (a : BitVec n) :
    btSetMaskBit a hi lo (btGetMaskBit a hi lo) = a := by
  refine BitVec.eq_of_getLsbD_eq fun i _ => ?_
  rw [getLsbD_btSetMaskBit hn hle hlt]
  split
  · rename_i hin
    have hwidth : i - lo ≤ hi - lo := by omega
    have hbit : lo + (i - lo) = i := by omega
    rw [getLsbD_btGetMaskBit hn hle hlt, decide_eq_true hwidth, hbit, Bool.true_and]
  · rfl

theorem set_set (hn : n ≤ 32) (hle : lo ≤ hi) (hlt : hi < n) (a v v' : BitVec n) :
    btSetMaskBit (btSetMaskBit a hi lo v) hi lo v' = btSetMaskBit a hi lo v' := by
  refine BitVec.eq_of_getLsbD_eq fun i _ => ?_
  rw [getLsbD_btSetMaskBit hn hle hlt (btSetMaskBit a hi lo v) v',
    getLsbD_btSetMaskBit hn hle hlt a v']
  split
  · rfl
  · rename_i hout
    rw [getLsbD_btSetMaskBit hn hle hlt, if_neg hout]

/-- A field does not see what is written to bits outside of it. -/
theorem get_set_disjoint (hn : n ≤ 32) (hle : lo ≤ hi) (hlt : hi < n) (hle' : lo' ≤ hi')
    (hlt' : hi' < n) (hdisjoint : hi < lo' ∨ hi' < lo) (a v : BitVec n) :
    btGetMaskBit (btSetMaskBit a hi lo v) hi' lo' = btGetMaskBit a hi' lo' := by
  refine BitVec.eq_of_getLsbD_eq fun i _ => ?_
  rw [getLsbD_btGetMaskBit hn hle' hlt', getLsbD_btGetMaskBit hn hle' hlt',
    getLsbD_btSetMaskBit hn hle hlt]
  by_cases hin : i ≤ hi' - lo'
  · have hout : ¬ (lo ≤ lo' + i ∧ lo' + i ≤ hi) := by omega
    rw [if_neg hout]
  · rw [decide_eq_false hin, Bool.false_and, Bool.false_and]

/-- **The laws of the bit fields**, for words that are not longer than an `int` and ranges inside
the word: what is written is read back, as much of it as fits; the bits outside of the range stay,
and so does every field that is disjoint with it; writing what was read changes nothing; of two
values that are written the last one counts. -/
theorem field_laws (hn : n = 8 ∨ n = 16 ∨ n = 32) (hle : lo ≤ hi) (hlt : hi < n)
    (a v v' : BitVec n) :
    (btGetMaskBit (btSetMaskBit a hi lo v) hi lo).toNat = v.toNat % 2 ^ (hi - lo + 1) ∧
    (∀ i, ¬ (lo ≤ i ∧ i ≤ hi) → (btSetMaskBit a hi lo v).getLsbD i = a.getLsbD i) ∧
    (∀ hi' lo', lo' ≤ hi' → hi' < n → hi < lo' ∨ hi' < lo →
      btGetMaskBit (btSetMaskBit a hi lo v) hi' lo' = btGetMaskBit a hi' lo') ∧
    btSetMaskBit a hi lo (btGetMaskBit a hi lo) = a ∧
    btSetMaskBit (btSetMaskBit a hi lo v) hi lo v' = btSetMaskBit a hi lo v' := by
  have hword : n ≤ 32 := by omega
  refine ⟨get_set hword hle hlt a v, fun i hout => ?_, fun hi' lo' hle' hlt' hdisjoint => ?_,
    set_get hword hle hlt a, set_set hword hle hlt a v v'⟩
  · rw [getLsbD_btSetMaskBit hword hle hlt, if_neg hout]
  · exact get_set_disjoint hword hle hlt hle' hlt' hdisjoint a v

/-- The flow id of a packet descriptor. -/
theorem field_laws_flowId :
    (btGetMaskBit (btSetMaskBit (0xffffffff#32) 12 8 (0x47#32)) 12 8).toNat = 7 ∧
    btGetMaskBit (btSetMaskBit (0x8000#32) 12 8 (0x47#32)) 15 15 = 1#32 :=
  ⟨(field_laws (n := 32) (by decide) (by decide) (by decide) _ _ 0#32).1,
    (field_laws (n := 32) (by decide) (by decide) (by decide) _ _ 0#32).2.2.1 15 15 (by decide)
      (by decide) (by decide)⟩

end Laws

/-! ## 4. The flag words -/

/-- The ranges of a word, each with its higher bit first: no two of them have a bit in common. -/
def DisjointFields (n : Nat) (fields : List (Nat × Nat)) : Prop :=
  (∀ f ∈ fields, f.2 ≤ f.1 ∧ f.1 < n) ∧ fields.Pairwise fun f g => f.1 < g.2 ∨ g.1 < f.2

instance (n : Nat) (fields : List (Nat × Nat)) : Decidable (DisjointFields n fields) :=
  inferInstanceAs (Decidable (_ ∧ _))

/-- `CPreviewMode::m_flags` -/
def previewFlags : List (Nat × Nat) :=
  [(0, 0), (2, 2), (4, 4), (5, 5), (6, 6), (7, 7), (10, 8), (11, 11), (12, 12), (13, 13), (14, 14),
    (15, 15), (24, 16), (25, 25), (26, 26), (27, 27), (28, 28), (29, 29), (30, 30), (31, 31)]

/-- `CPreviewMode::m_flags1` -/
def previewFlags1 : List (Nat × Nat) := [(0, 0), (1, 1), (2, 2), (3, 3), (4, 4), (5, 5), (6, 6)]

/-- `CGenNode::m_flags`, with the NAT state in the bits 4 and 3. -/
def nodeFlags : List (Nat × Nat) := [(0, 0), (1, 1), (2, 2), (4, 3), (5, 5), (6, 6), (7, 7), (8, 8)]

/-- `CPacketDescriptor::m_flags` -/
def descriptorFlags : List (Nat × Nat) :=
  [(0, 0), (1, 1), (3, 2), (4, 4), (5, 5), (6, 6), (7, 7), (12, 8), (13, 13), (14, 14), (15, 15),
    (31, 16)]

theorem flags_disjoint : DisjointFields 32 previewFlags ∧ DisjointFields 32 previewFlags1 ∧
    DisjointFields 16 nodeFlags ∧ DisjointFields 32 descriptorFlags := by decide

/-- **A field of a flag word stays** when another one is written. -/
theorem DisjointFields.get_set {fields : List (Nat × Nat)} (h : DisjointFields n fields)
    (hn : n ≤ 32) {f g : Nat × Nat} (hf : f ∈ fields) (hg : g ∈ fields) (hne : f ≠ g)
    (a v : BitVec n) :
    btGetMaskBit (btSetMaskBit a f.1 f.2 v) g.1 g.2 = btGetMaskBit a g.1 g.2 := by
  obtain ⟨hle, hlt⟩ := h.1 f hf
  obtain ⟨hle', hlt'⟩ := h.1 g hg
  have hsymm : Std.Symm fun f g : Nat × Nat => f.1 < g.2 ∨ g.1 < f.2 := ⟨fun _ _ hfg => Or.symm hfg⟩
  have hdisjoint : f.1 < g.2 ∨ g.1 < f.2 := h.2.forall hf hg hne
  exact get_set_disjoint hn hle hlt hle' hlt' hdisjoint a v

end Trex.Net
