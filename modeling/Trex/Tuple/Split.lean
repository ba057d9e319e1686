/-
# The clients of a thread

`split_ips` (`tuple_gen.cpp`) gives every thread its part of a pool of addresses: the pool is cut
into as many parts as there are threads, and the part of a thread is shifted by a mask for every
dual port before its own (`getDualPortId`).  `CTupleGenPoolYaml::is_valid` checks the size of the
pool and does not look at the mask.

So the parts of two threads overlap when the mask brings the part of a thread back onto the part of
a later one.  `splitIps_iff` says for which pools, masks and numbers of threads they do not.
-/
import Mathlib.Algebra.Ring.Nat

namespace Trex.Tuple

/-! ## 1. The parts -/

/-- `CTupleGenPoolYaml`, as far as the addresses go. -/
structure CTupleGenPoolYaml where
  ipStart : UInt32
  ipEnd : UInt32
  dualInterfaceMask : UInt32
deriving DecidableEq, Repr

/-- `CIpPortion` -/
structure CIpPortion where
  ipStart : UInt32
  ipEnd : UInt32
deriving DecidableEq, Repr

/-- `getTotalIps` -/
def CTupleGenPoolYaml.getTotalIps (pool : CTupleGenPoolYaml) :
    UInt32 := pool.ipEnd - pool.ipStart + 1

/-- `CTupleGenPoolYaml::is_valid` -/
def CTupleGenPoolYaml.isValid (pool : CTupleGenPoolYaml) (numThreads : UInt32) : Bool :=
  if pool.ipStart > pool.ipEnd then false
  else if pool.getTotalIps < numThreads then false
  else if pool.getTotalIps > 1000000 then false
  else true

/-- `getDualPortId` -/
def getDualPortId (expectedDualPorts threadId : UInt32) : UInt32 := threadId % expectedDualPorts

/-- The size of every part. -/
def chunksOf (totalThreads : UInt32) (pool : CTupleGenPoolYaml) :
    UInt32 := pool.getTotalIps / totalThreads

/-- `split_ips`, or its assertion fails. -/
def splitIps (threadId totalThreads dualPortId : UInt32) (pool : CTupleGenPoolYaml) :
    Option CIpPortion :=
  let chunks := chunksOf totalThreads pool
  if chunks > 0 then
    let ipStart := pool.ipStart + threadId * chunks + dualPortId * pool.dualInterfaceMask
    some { ipStart, ipEnd := ipStart + chunks - 1 }
  else none

/-! ## 2. What they should be -/

section Parts

variable (pool : CTupleGenPoolYaml) (totalThreads expectedDualPorts : UInt32)

/-- A part is not empty, has the size of all parts, and is inside the copy of the pool for its dual
port; the copy is taken without a wrap. -/
structure PortionOk (threadId : UInt32) (portion : CIpPortion) : Prop where
  nonempty : portion.ipStart.toNat ≤ portion.ipEnd.toNat
  size : portion.ipEnd.toNat - portion.ipStart.toNat + 1 = (chunksOf totalThreads pool).toNat
  start : pool.ipStart.toNat + (getDualPortId expectedDualPorts threadId).toNat *
    pool.dualInterfaceMask.toNat ≤ portion.ipStart.toNat
  stop : portion.ipEnd.toNat ≤
    pool.ipEnd.toNat + (getDualPortId expectedDualPorts threadId).toNat *
      pool.dualInterfaceMask.toNat

/-- No address is in both parts. -/
def CIpPortion.Disjoint (p q : CIpPortion) : Prop :=
  p.ipEnd.toNat < q.ipStart.toNat ∨ q.ipEnd.toNat < p.ipStart.toNat

/-- The part of a thread. -/
def portionOf (threadId : UInt32) : Option CIpPortion :=
  splitIps threadId totalThreads (getDualPortId expectedDualPorts threadId) pool

/-- **The clients are split**: every thread has a part, and no two threads share an address. -/
structure SplitOk : Prop where
  portion : ∀ t < totalThreads, ∃ p, portionOf pool totalThreads expectedDualPorts t = some p ∧
    PortionOk pool totalThreads expectedDualPorts t p
  disjoint : ∀ t < totalThreads, ∀ u < totalThreads, t ≠ u → ∀ p q,
    portionOf pool totalThreads expectedDualPorts t = some p →
    portionOf pool totalThreads expectedDualPorts u = some q → p.Disjoint q

/-- The shift of a thread. -/
def shiftOf (threadId : UInt32) : Nat :=
  (getDualPortId expectedDualPorts threadId).toNat * pool.dualInterfaceMask.toNat

/-- Where the part of a thread starts, without a wrap. -/
def startOf (threadId : UInt32) : Nat :=
  pool.ipStart.toNat + threadId.toNat * (chunksOf totalThreads pool).toNat +
    shiftOf pool expectedDualPorts threadId

/-- **The condition on the mask**: no part goes past the last address, and the shift of a thread
does not bring its part to less than a part from the part of a later thread. -/
structure MaskOk : Prop where
  fits : ∀ t < totalThreads, startOf pool totalThreads expectedDualPorts t +
    (chunksOf totalThreads pool).toNat ≤ 2 ^ 32
  apart : ∀ t < totalThreads, ∀ u < totalThreads, t < u →
    shiftOf pool expectedDualPorts u < shiftOf pool expectedDualPorts t →
    shiftOf pool expectedDualPorts t - shiftOf pool expectedDualPorts u +
        (chunksOf totalThreads pool).toNat ≤
        (u.toNat - t.toNat) * (chunksOf totalThreads pool).toNat ∨
      (u.toNat - t.toNat + 1) * (chunksOf totalThreads pool).toNat ≤
        shiftOf pool expectedDualPorts t - shiftOf pool expectedDualPorts u

end Parts

/-! ## 3. The parts as numbers -/

section Numbers

variable {pool : CTupleGenPoolYaml} {totalThreads expectedDualPorts : UInt32}

/-- A pool that is accepted has at least one address for every thread. -/
theorem isValid_total (h : pool.isValid totalThreads = true) :
    pool.ipStart.toNat ≤ pool.ipEnd.toNat ∧ totalThreads.toNat ≤ pool.getTotalIps.toNat ∧
      pool.getTotalIps.toNat ≤ 1000000 ∧
      (0 < pool.getTotalIps.toNat →
          pool.getTotalIps.toNat = pool.ipEnd.toNat - pool.ipStart.toNat + 1) := by
  unfold CTupleGenPoolYaml.isValid at h
  split at h
  · cases h
  rename_i hle
  split at h
  · cases h
  rename_i hthreads
  split at h
  · cases h
  rename_i hmax
  rw [gt_iff_lt, UInt32.lt_iff_toNat_lt] at hle hmax
  rw [UInt32.lt_iff_toNat_lt] at hthreads
  refine ⟨by omega, by omega, Nat.le_of_not_lt hmax, ?_⟩
  intro hpos
  have hend := pool.ipEnd.toNat_lt
  rw [CTupleGenPoolYaml.getTotalIps, UInt32.toNat_add, UInt32.toNat_sub] at hpos ⊢
  have hone : (1 : UInt32).toNat = 1 := rfl
  omega

variable {t : UInt32}

/-- All parts together are no more than the pool. -/
theorem chunks_bounds (h : pool.isValid totalThreads = true) (ht : t < totalThreads) :
    0 < (chunksOf totalThreads pool).toNat ∧
      (t.toNat + 1) * (chunksOf totalThreads pool).toNat ≤ pool.getTotalIps.toNat := by
  obtain ⟨-, hthreads, -, -⟩ := isValid_total h
  rw [UInt32.lt_iff_toNat_lt] at ht
  have hchunks : (chunksOf totalThreads pool).toNat = pool.getTotalIps.toNat / totalThreads.toNat :=
    UInt32.toNat_div _ _
  rw [hchunks]
  refine ⟨Nat.div_pos hthreads (by omega), ?_⟩
  calc (t.toNat + 1) * (pool.getTotalIps.toNat / totalThreads.toNat)
      ≤ totalThreads.toNat * (pool.getTotalIps.toNat / totalThreads.toNat) :=
        Nat.mul_le_mul_right _ ht
    _ ≤ pool.getTotalIps.toNat := Nat.mul_div_le _ _

/-- A part starts where it should, modulo the size of the address space. -/
theorem portionOf_eq (expectedDualPorts : UInt32) (h : pool.isValid totalThreads = true)
    (ht : t < totalThreads) :
    ∃ p, portionOf pool totalThreads expectedDualPorts t = some p ∧
      p.ipStart.toNat = startOf pool totalThreads expectedDualPorts t % 2 ^ 32 ∧
      p.ipEnd.toNat =
        (startOf pool totalThreads expectedDualPorts t + (chunksOf totalThreads pool).toNat - 1) %
            2 ^ 32 := by
  obtain ⟨hpos, -⟩ := chunks_bounds h ht
  have hgt : chunksOf totalThreads pool > 0 := UInt32.lt_iff_toNat_lt.mpr hpos
  have hone : (1 : UInt32).toNat = 1 := rfl
  have hclt := (chunksOf totalThreads pool).toNat_lt
  have hstart : (pool.ipStart + t * chunksOf totalThreads pool +
      getDualPortId expectedDualPorts t * pool.dualInterfaceMask).toNat =
        startOf pool totalThreads expectedDualPorts t % 2 ^ 32 := by
    simp only [startOf, shiftOf, UInt32.toNat_add, UInt32.toNat_mul]
    omega
  refine ⟨_, by rw [portionOf, splitIps, if_pos hgt], hstart, ?_⟩
  rw [UInt32.toNat_sub, UInt32.toNat_add, hstart, hone]
  omega

/-- A part that does not wrap. -/
theorem portionOf_fits (h : pool.isValid totalThreads = true) (ht : t < totalThreads)
    (hfits : startOf pool totalThreads expectedDualPorts t + (chunksOf totalThreads pool).toNat ≤
      2 ^ 32) :
    ∃ p, portionOf pool totalThreads expectedDualPorts t = some p ∧
      p.ipStart.toNat = startOf pool totalThreads expectedDualPorts t ∧
      p.ipEnd.toNat + 1 = startOf pool totalThreads expectedDualPorts t +
          (chunksOf totalThreads pool).toNat := by
  obtain ⟨hpos, -⟩ := chunks_bounds h ht
  obtain ⟨p, hp, hstart, hend⟩ := portionOf_eq expectedDualPorts h ht
  refine ⟨p, hp, ?_, ?_⟩
  · rw [hstart]
    exact Nat.mod_eq_of_lt (by omega)
  · rw [hend, Nat.mod_eq_of_lt (by omega)]
    omega

/-- A part that is inside the copy of its pool does not wrap. -/
theorem fits_of_portionOk (h : pool.isValid totalThreads = true) (ht : t < totalThreads)
    {p : CIpPortion} (hp : portionOf pool totalThreads expectedDualPorts t = some p)
    (hok : PortionOk pool totalThreads expectedDualPorts t p) :
    startOf pool totalThreads expectedDualPorts t + (chunksOf totalThreads pool).toNat ≤
        2 ^ 32 := by
  obtain ⟨hpos, hle⟩ := chunks_bounds h ht
  obtain ⟨-, -, hmax, -⟩ := isValid_total h
  obtain ⟨p', hp', hstart, hend⟩ := portionOf_eq expectedDualPorts h ht
  rw [hp] at hp'
  cases hp'
  obtain ⟨hnonempty, hsize, hin, -⟩ := hok
  have hshift : shiftOf pool expectedDualPorts t =
      (getDualPortId expectedDualPorts t).toNat * pool.dualInterfaceMask.toNat := rfl
  have hs : startOf pool totalThreads expectedDualPorts t = pool.ipStart.toNat +
      t.toNat * (chunksOf totalThreads pool).toNat + shiftOf pool expectedDualPorts t := rfl
  have hend32 := p.ipEnd.toNat_lt
  rw [Nat.add_mul, Nat.one_mul] at hle
  rw [← hshift] at hin
  omega

end Numbers

/-! ## 4. When the parts are disjoint -/

/-- Two parts that do not wrap are disjoint when one starts behind the other. -/
theorem disjoint_iff {pool : CTupleGenPoolYaml} {totalThreads expectedDualPorts : UInt32}
    {t u : UInt32} {p q : CIpPortion} (htu : t < u)
    (hp : p.ipStart.toNat = startOf pool totalThreads expectedDualPorts t ∧
      p.ipEnd.toNat + 1 = startOf pool totalThreads expectedDualPorts t +
        (chunksOf totalThreads pool).toNat)
    (hq : q.ipStart.toNat = startOf pool totalThreads expectedDualPorts u ∧
      q.ipEnd.toNat + 1 = startOf pool totalThreads expectedDualPorts u +
        (chunksOf totalThreads pool).toNat) :
    p.Disjoint q ↔ (shiftOf pool expectedDualPorts u < shiftOf pool expectedDualPorts t →
      shiftOf pool expectedDualPorts t - shiftOf pool expectedDualPorts u +
          (chunksOf totalThreads pool).toNat ≤
          (u.toNat - t.toNat) * (chunksOf totalThreads pool).toNat ∨
        (u.toNat - t.toNat + 1) * (chunksOf totalThreads pool).toNat ≤
          shiftOf pool expectedDualPorts t - shiftOf pool expectedDualPorts u) := by
  rw [UInt32.lt_iff_toNat_lt] at htu
  unfold startOf at hp hq
  -- the two parts are `k` parts from each other before they are shifted
  obtain ⟨k, hk⟩ := Nat.exists_eq_add_of_lt htu
  have hku : u.toNat - t.toNat = k + 1 := by omega
  have hmul : u.toNat * (chunksOf totalThreads pool).toNat = t.toNat *
      (chunksOf totalThreads pool).toNat + (k + 1) * (chunksOf totalThreads pool).toNat := by
    rw [← Nat.add_mul, hk]
    rfl
  have hone : (k + 1) * (chunksOf totalThreads pool).toNat =
      k * (chunksOf totalThreads pool).toNat + (chunksOf totalThreads pool).toNat := by
    rw [Nat.add_mul, Nat.one_mul]
  have htwo : (k + 1 + 1) * (chunksOf totalThreads pool).toNat =
      (k + 1) * (chunksOf totalThreads pool).toNat + (chunksOf totalThreads pool).toNat := by
    rw [Nat.add_mul, Nat.one_mul]
  rw [hmul] at hq
  rw [hku, htwo, CIpPortion.Disjoint]
  constructor
  · intro hdis hlt
    omega
  · intro h
    omega

/-- **The clients are split over the threads exactly when the mask keeps the parts apart.**  Without
the shifts the parts lie one behind the other, so that only the mask can push one onto another. -/
theorem splitIps_iff {pool : CTupleGenPoolYaml} {totalThreads expectedDualPorts : UInt32}
    (h : pool.isValid totalThreads = true) :
    SplitOk pool totalThreads expectedDualPorts ↔ MaskOk pool totalThreads expectedDualPorts := by
  obtain ⟨hle, -, hmax, htotal⟩ := isValid_total h
  constructor
  · rintro ⟨hportion, hdisjoint⟩
    have hfits : ∀ t < totalThreads, startOf pool totalThreads expectedDualPorts t +
        (chunksOf totalThreads pool).toNat ≤ 2 ^ 32 := by
      intro t ht
      obtain ⟨p, hp, hok⟩ := hportion t ht
      exact fits_of_portionOk h ht hp hok
    refine ⟨hfits, ?_⟩
    intro t ht u hu htu
    obtain ⟨p, hp, hpnum⟩ := portionOf_fits h ht (hfits t ht)
    obtain ⟨q, hq, hqnum⟩ := portionOf_fits h hu (hfits u hu)
    exact (disjoint_iff htu hpnum hqnum).mp
      (hdisjoint t ht u hu (UInt32.ne_of_lt htu) p q hp hq)
  · rintro ⟨hfits, hapart⟩
    constructor
    · intro t ht
      obtain ⟨p, hp, hstart, hend⟩ := portionOf_fits h ht (hfits t ht)
      obtain ⟨hpos, hlast⟩ := chunks_bounds h ht
      have htpos := Nat.lt_of_lt_of_le (Nat.mul_pos (Nat.succ_pos t.toNat) hpos) hlast
      rw [htotal htpos, Nat.add_mul, Nat.one_mul] at hlast
      unfold startOf shiftOf at hstart hend
      exact ⟨p, hp, ⟨by omega, by omega, by omega, by omega⟩⟩
    · intro t ht u hu hne p q hp hq
      obtain ⟨p', hp', hpnum⟩ := portionOf_fits h ht (hfits t ht)
      obtain ⟨q', hq', hqnum⟩ := portionOf_fits h hu (hfits u hu)
      rw [hp] at hp'
      rw [hq] at hq'
      cases hp'
      cases hq'
      rcases Nat.lt_or_gt_of_ne (mt UInt32.toNat_inj.mp hne) with htu | hut
      · exact (disjoint_iff (UInt32.lt_iff_toNat_lt.mpr htu) hpnum hqnum).mpr
          (hapart t ht u hu (UInt32.lt_iff_toNat_lt.mpr htu))
      · exact ((disjoint_iff (UInt32.lt_iff_toNat_lt.mpr hut) hqnum hpnum).mpr
          (hapart u hu t ht (UInt32.lt_iff_toNat_lt.mpr hut))).symm

/-- The pool of the test `split2`, for the threads of two dual ports. -/
theorem splitIps_iff_test :
    (CTupleGenPoolYaml.mk 0x20000000 0x200001ff 0x01000000).isValid 2 = true ∧
      SplitOk (CTupleGenPoolYaml.mk 0x20000000 0x200001ff 0x01000000) 2 2 := by
  have htwo : ∀ t : UInt32, t < 2 → t = 0 ∨ t = 1 := by
    intro t ht
    rw [UInt32.lt_iff_toNat_lt, show (2 : UInt32).toNat = 2 from rfl] at ht
    rcases Nat.le_one_iff_eq_zero_or_eq_one.mp (Nat.le_of_lt_succ ht) with h0 | h1
    · exact Or.inl (UInt32.toNat_inj.mp h0)
    · exact Or.inr (UInt32.toNat_inj.mp h1)
  refine ⟨by decide, (splitIps_iff (by decide)).mpr ⟨?_, ?_⟩⟩
  · intro t ht
    rcases htwo t ht with rfl | rfl <;> decide
  · intro t ht u hu
    rcases htwo t ht with rfl | rfl <;> rcases htwo u hu with rfl | rfl <;> decide

/-- **Two threads share all their clients**: with four threads, two dual ports and a mask of one
part, the part of thread 1 is shifted onto the part of thread 2. -/
theorem splitIps_overlap :
    (CTupleGenPoolYaml.mk 0x10000000 0x100000ff 0x40).isValid 4 = true ∧
      portionOf (CTupleGenPoolYaml.mk 0x10000000 0x100000ff 0x40) 4 2 1 =
        some ⟨0x10000080, 0x100000bf⟩ ∧
      portionOf (CTupleGenPoolYaml.mk 0x10000000 0x100000ff 0x40) 4 2 2 =
        some ⟨0x10000080, 0x100000bf⟩ ∧
      ¬ SplitOk (CTupleGenPoolYaml.mk 0x10000000 0x100000ff 0x40) 4 2 := by
  refine ⟨by decide, by decide, by decide, ?_⟩
  intro h
  have hdis := h.disjoint 1 (by decide) 2 (by decide) (by decide) _ _
    (show portionOf _ 4 2 1 = some ⟨0x10000080, 0x100000bf⟩ by decide)
    (show portionOf _ 4 2 2 = some ⟨0x10000080, 0x100000bf⟩ by decide)
  rcases hdis with hlt | hlt
  · exact absurd hlt (by decide)
  · exact absurd hlt (by decide)

end Trex.Tuple
