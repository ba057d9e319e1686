/-
# The buffers of a stream

`validate_stream` admits packets of 1 to 9000 bytes, `add_stream` and `alloc_node_with_vm` copy the
packet to mbufs of the pools, and `mbuf_to_odp_packet` copies the chain to an ODP packet of a pool
of its own.  The sizes come from four tables; this file compares them.

A stream is `Transmittable` when no allocation fails for its size: each size selects a pool,
`append` returns a pointer, the header is not empty, and the packet fits the first segment of the
ODP packet, which is what the copy writes to.  How long that segment is, is decided by libodp; it is
at least `SHM_PKT_POOL_BUF_SIZE`.

A packet that is cut has two mbufs, one for each side of the cut, and otherwise one.  So whether the
pools are large enough follows from the length of the packet and the end of the last field that the
program writes (`FitsPools`).
-/
import Trex.Pal.Pools
import Trex.Stream.Stream
import Trex.Vm.Prefix

namespace Trex.Dp

open Trex.Lib Trex.Vm Trex.Stream Trex.Pal

/-! ## 1. The sizes -/

/-- `TrexStream::MIN_PKT_SIZE_BYTES` -/
def minPktSizeBytes : Nat := 1

/-- `TrexStream::MAX_PKT_SIZE_BYTES` -/
def maxPktSizeBytes : Nat := 9000

/-- The packet size check of `validate_stream`. -/
def validateStream (s : TrexStream) : Bool :=
  !(decide (s.pkt.len.toNat < minPktSizeBytes) || decide (s.pkt.len.toNat > maxPktSizeBytes))

/-- Why a packet has no buffer. -/
inductive SizeFault
  /-- `assert(size<MAX_BUF_SIZE)` -/
  | noPool
  /-- `rte_pktmbuf_append` returned null. -/
  | noTailroom
  /-- `assert(header_size)` -/
  | noHeader
  /-- The packet is longer than the first segment of its ODP packet. -/
  | odpSegment
deriving DecidableEq, Repr

/-- `pktmbuf_alloc` and `rte_pktmbuf_append` of the same size; the length of the segment. -/
def allocSegment (abi : Abi) (size : Nat) : Except SizeFault Nat :=
  match pktmbufAlloc size with
  | none => .error .noPool
  | some n =>
    match (rtePktmbufAlloc abi (mempoolCreate abi n)).bind fun m => rtePktmbufAppend m size with
    | none => .error .noTailroom
    | some m => .ok m.dataLen

/-- The constant mbuf of `add_stream`, when the packet is longer than the prefix. -/
def constSegment (abi : Abi) (pktSize prefixSize : Nat) : Except SizeFault (List Nat) :=
  if pktSize > prefixSize then (allocSegment abi (pktSize - prefixSize)).map fun len => [len]
  else .ok []

/-- The header of `add_stream`: the prefix, but no more than the packet. -/
def headerSizeOf (pktSize prefixSize : Nat) : Nat :=
  if prefixSize > pktSize then pktSize else prefixSize

/-- The mbufs that `add_stream` and `alloc_node_with_vm` make for a packet: the lengths of its
segments. -/
def segmentsOf (abi : Abi) (s : TrexStream) : Except SizeFault (List Nat) :=
  let pktSize := s.pkt.len.toNat
  match s.vmDp with
  | none => (allocSegment abi pktSize).map fun len => [len]
  | some dp => do
    let constPkt ← constSegment abi pktSize dp.prefixSize
    let headerSize := headerSizeOf pktSize dp.prefixSize
    if headerSize = 0 then .error .noHeader
    else do
      let len ← allocSegment abi headerSize
      .ok (len :: constPkt)

/-- The packet as it is given to ODP: `pkt_len` of the chain. -/
def odpPacketOf (odp : OdpPool) (abi : Abi) (s : TrexStream) : Except SizeFault Nat := do
  let segs ← segmentsOf abi s
  if segs.sum > odp.firstSegLen then .error .odpSegment else .ok segs.sum

/-- **No buffer of the stream fails for its size.** -/
def Transmittable (odp : OdpPool) (abi : Abi) (s : TrexStream) : Prop :=
  ∃ len, odpPacketOf odp abi s = .ok len

/-- The mbuf pools have room for a packet whose last field ends at `last`: for both parts of a
packet that is cut before the last byte of the field, and for the whole packet otherwise. -/
def FitsPools (len last : Nat) : Prop :=
  if 128 < len ∧ 0 < last ∧ last + 63 ≤ len then 1 < last ∧ last ≤ maxBufSize ∧
    len + 1 < last + maxBufSize
  else len < maxBufSize

/-! ## 2. One segment -/

/-- A segment is allocated exactly below `MAX_BUF_SIZE`, and holds all that is put into it. -/
theorem allocSegment_eq (abi : Abi) (size : Nat) :
    allocSegment abi size = if size < maxBufSize then .ok size else .error .noPool := by
  unfold allocSegment
  rcases pktmbufAlloc_spec size with ⟨⟨n, hn, hle, hmax⟩, hlt⟩ | ⟨hnone, hge⟩
  · have hn16 : n < 2 ^ 16 := Nat.lt_of_le_of_lt hmax (by decide)
    have hroom : ¬ size > n - 0 - 0 := by omega
    simp only [hn, rtePktmbufAlloc_mempoolCreate abi hn16, Option.bind_some, rtePktmbufAppend,
      rtePktmbufTailroom, if_neg hroom, if_pos hlt, Nat.zero_add]
  · rw [hnone, if_neg (by omega)]

/-! ## 3. The prefix -/

variable {s : TrexStream}

/-- The prefix of a stream whose VM was compiled. -/
theorem prefixSize_of_vmCompile {rand : Nat} {s' : TrexStream} {dp : StreamVmDp}
    (hnone : s.vmDp = none) (hc : s.vmCompile rand = .ok s') (hdp : s'.vmDp = some dp) :
    dp.prefixSize = calcWritableMbufSize (lastField s.vm.instList s.vm.instList) s.pkt.len.toNat ∧
      lastField s.vm.instList s.vm.instList ≤ s.pkt.len.toNat := by
  unfold TrexStream.vmCompile at hc
  obtain ⟨c, hcomp, hc⟩ := bind_eq_ok hc
  cases c with
  | none =>
    cases hc
    rw [hnone] at hdp
    cases hdp
  | some c =>
    obtain ⟨dp', hgen, hc⟩ := bind_eq_ok hc
    cases hc
    cases hdp
    obtain ⟨ops, hpassed⟩ := passed_of_compile hcomp
    obtain ⟨hlast, hle, -, -⟩ :=
      buildCommands_fields hpassed.table s.pkt.len.toNat_lt hpassed.commands
    have hpre : dp.prefixSize = c.prefixSize := by
      simp only [generateDpObject] at hgen
      split at hgen
      · cases hgen
      · split at hgen
        · cases hgen
        · cases hgen
          rfl
    rw [← hlast, hpre, hpassed.writable]
    exact ⟨rfl, hle⟩

/-- A stream is left without a program only when it has no instructions. -/
theorem instList_of_vmCompile {rand : Nat} {s' : TrexStream} (hc : s.vmCompile rand = .ok s')
    (hdp : s'.vmDp = none) : s.vm.instList = [] := by
  unfold TrexStream.vmCompile at hc
  obtain ⟨c, hcomp, hc⟩ := bind_eq_ok hc
  cases c with
  | none =>
    unfold compile at hcomp
    split at hcomp
    · rename_i hempty
      exact List.isEmpty_iff.mp hempty
    · obtain ⟨t, -, hcomp⟩ := bind_eq_ok hcomp
      obtain ⟨bss, -, hcomp⟩ := bind_eq_ok hcomp
      obtain ⟨⟨maxFieldUpdate, program⟩, -, hcomp⟩ := bind_eq_ok hcomp
      dsimp only at hcomp
      split at hcomp <;> cases hcomp
  | some c =>
    obtain ⟨dp, -, hc⟩ := bind_eq_ok hc
    cases hc
    cases hdp

/-! ## 4. When a stream is transmittable -/

/-- What is left of the sizes when the segments are known. -/
theorem transmittable_iff_segments {odp : OdpPool} {abi : Abi} :
    Transmittable odp abi s ↔ ∃ segs, segmentsOf abi s = .ok segs ∧ segs.sum ≤ odp.firstSegLen := by
  constructor
  · rintro ⟨len, hlen⟩
    obtain ⟨segs, hsegs, hlen⟩ := bind_eq_ok hlen
    split at hlen
    · cases hlen
    · rename_i hle
      exact ⟨segs, hsegs, not_lt.mp hle⟩
  · rintro ⟨segs, hsegs, hle⟩
    refine ⟨segs.sum, ?_⟩
    rw [odpPacketOf, hsegs, ok_bind, if_neg (not_lt.mpr hle)]

/-- A stream without a VM: the packet is one segment. -/
theorem segmentsOf_noVm (abi : Abi) (hvm : s.vmDp = none) :
    segmentsOf abi s = if s.pkt.len.toNat < maxBufSize then .ok [s.pkt.len.toNat]
        else .error .noPool := by
  simp only [segmentsOf, hvm, allocSegment_eq]
  split_ifs <;> rfl

/-- A stream with a VM: the header, and the rest when there is one. -/
theorem segmentsOf_vm (abi : Abi) {dp : StreamVmDp} (hvm : s.vmDp = some dp) :
    (∃ segs, segmentsOf abi s = .ok segs) ↔
      (dp.prefixSize < s.pkt.len.toNat → s.pkt.len.toNat - dp.prefixSize < maxBufSize)
        ∧ 0 < min dp.prefixSize s.pkt.len.toNat ∧
            min dp.prefixSize s.pkt.len.toNat < maxBufSize := by
  have hhead : headerSizeOf s.pkt.len.toNat dp.prefixSize = min dp.prefixSize s.pkt.len.toNat := by
    unfold headerSizeOf
    split <;> omega
  simp only [segmentsOf, hvm, constSegment, allocSegment_eq, hhead]
  generalize min dp.prefixSize s.pkt.len.toNat = head
  by_cases hcut : s.pkt.len.toNat > dp.prefixSize
  · by_cases hrest : s.pkt.len.toNat - dp.prefixSize < maxBufSize
    · simp only [if_pos hcut, if_pos hrest, Except.map, ok_bind]
      by_cases hzero : head = 0
      · simp [hzero]
      · by_cases hlt : head < maxBufSize
        · simp [hzero, hlt, hrest, Nat.pos_of_ne_zero hzero, ok_bind]
        · simp [hzero, hlt, error_bind]
    · simp only [if_pos hcut, if_neg hrest, Except.map, error_bind]
      simp [hcut, hrest]
  · simp only [if_neg hcut, ok_bind]
    by_cases hzero : head = 0
    · simp [hzero]
    · by_cases hlt : head < maxBufSize
      · simp [hzero, hlt, hcut, Nat.pos_of_ne_zero hzero, ok_bind]
      · simp [hzero, hlt, error_bind]

/-- The constant segment is what the prefix leaves. -/
theorem sum_constSegment (abi : Abi) {pktSize prefixSize : Nat} {segs : List Nat}
    (h : constSegment abi pktSize prefixSize = .ok segs) : segs.sum = pktSize - prefixSize := by
  simp only [constSegment, allocSegment_eq] at h
  split at h
  · split at h
    · cases h
      rw [List.sum_singleton]
    · cases h
  · cases h
    rw [List.sum_nil]
    omega

/-- The segments make up the packet. -/
theorem sum_segmentsOf (abi : Abi) {segs : List Nat} (h : segmentsOf abi s = .ok segs) :
    segs.sum = s.pkt.len.toNat := by
  cases hvm : s.vmDp with
  | none =>
    rw [segmentsOf_noVm abi hvm] at h
    split at h
    · cases h
      exact List.sum_singleton
    · cases h
  | some dp =>
    simp only [segmentsOf, hvm] at h
    obtain ⟨constPkt, hconst, h⟩ := bind_eq_ok h
    split at h
    · cases h
    · obtain ⟨len, hlen, h⟩ := bind_eq_ok h
      cases h
      rw [allocSegment_eq] at hlen
      split at hlen
      · cases hlen
        rw [List.sum_cons, sum_constSegment abi hconst]
        unfold headerSizeOf
        split <;> omega
      · cases hlen

/-- **The parts of a packet whose prefix was chosen by the compiler.** -/
theorem fitsPools_iff {len last : Nat} (hpos : 0 < len) (hle : last ≤ len) (hlen : len < 2 ^ 16) :
    FitsPools len last ↔
      (calcWritableMbufSize last len < len → len - calcWritableMbufSize last len < maxBufSize)
        ∧ 0 < min (calcWritableMbufSize last len) len ∧
            min (calcWritableMbufSize last len) len < maxBufSize := by
  rw [calcWritableMbufSize_eq hle hlen, FitsPools]
  have hmax : maxBufSize = 2048 := rfl
  split_ifs <;> omega

/-- **When an accepted stream is transmittable.**  A stream that `add_stream` accepts and that
compiles has buffers for its packet exactly when the packet fits the first segment of an ODP packet,
and each of its parts fits the mbuf pools and has a byte. -/
theorem transmittable_iff (odp : OdpPool) (abi : Abi) (rand : Nat) (s s' : TrexStream)
    (haccepted : validateStream s = true) (hnew : s.vmDp = none)
    (hcompiled : s.vmCompile rand = .ok s') :
    Transmittable odp abi s' ↔
      s.pkt.len.toNat ≤ odp.firstSegLen ∧
          FitsPools s.pkt.len.toNat (lastField s.vm.instList s.vm.instList) := by
  have hpos : 0 < s.pkt.len.toNat := by
    by_contra hzero
    have hlt : s.pkt.len.toNat < minPktSizeBytes := by
      simp only [minPktSizeBytes]
      omega
    simp [validateStream, hlt] at haccepted
  have hpkt : s'.pkt = s.pkt := by
    unfold TrexStream.vmCompile at hcompiled
    obtain ⟨c, -, hc⟩ := bind_eq_ok hcompiled
    cases c with
    | none =>
      cases hc
      rfl
    | some c =>
      obtain ⟨dp, -, hc⟩ := bind_eq_ok hc
      cases hc
      rfl
  have hsegs : (∃ segs, segmentsOf abi s' = .ok segs) ↔
      FitsPools s.pkt.len.toNat (lastField s.vm.instList s.vm.instList) := by
    cases hvm : s'.vmDp with
    | none =>
      have hlast : lastField s.vm.instList s.vm.instList = 0 := by
        rw [instList_of_vmCompile hcompiled hvm]
        rfl
      have hwhole : ¬ (128 < s.pkt.len.toNat ∧ 0 < 0 ∧ 0 + 63 ≤ s.pkt.len.toNat) :=
        fun h => Nat.lt_irrefl 0 h.2.1
      rw [segmentsOf_noVm abi hvm, hlast, FitsPools, if_neg hwhole, hpkt]
      split <;> simp_all
    | some dp =>
      obtain ⟨hpre, hle⟩ := prefixSize_of_vmCompile hnew hcompiled hvm
      rw [segmentsOf_vm abi hvm, hpkt, hpre, fitsPools_iff hpos hle s.pkt.len.toNat_lt]
  rw [transmittable_iff_segments, ← hsegs]
  constructor
  · rintro ⟨segs, h, hle⟩
    rw [sum_segmentsOf abi h, hpkt] at hle
    exact ⟨hle, segs, h⟩
  · rintro ⟨hle, segs, h⟩
    refine ⟨segs, h, ?_⟩
    rw [sum_segmentsOf abi h, hpkt]
    exact hle

/-- What libodp promises is enough for packets of `SHM_PKT_POOL_BUF_SIZE` bytes, whatever the
program writes but the first byte alone. -/
theorem fitsPools_of_le (odp : OdpPool) {len last : Nat} (hle : len ≤ shmPktPoolBufSize)
    (hfirst : ¬ (128 < len ∧ last = 1)) : len ≤ odp.firstSegLen ∧ FitsPools len last := by
  have hseg := odp.le_firstSegLen
  have hshm : shmPktPoolBufSize = 1856 := rfl
  have hmax : maxBufSize = 2048 := rfl
  refine ⟨hle.trans hseg, ?_⟩
  unfold FitsPools
  split <;> omega

/-- A continuous stream without a VM, of a packet with `len` bytes. -/
def plainStream (len : UInt16) : TrexStream where
  type := .stCONTINUOUS
  portId := 0
  streamId := 1
  isgUsec := 0
  nextStreamId := -1
  enabled := true
  selfStart := true
  vm := {}
  vmDp := none
  pkt := ⟨List.replicate len.toNat 0, len⟩
  pps := 1
  burstTotalPkts := 0
  numBursts := 0
  ibgUsec := 0

theorem transmittable_fullFrame : validateStream (plainStream 1514) = true ∧
    (plainStream 1514).vmCompile 1 = .ok (plainStream 1514) ∧
    Transmittable .exact ⟨8, 64⟩ (plainStream 1514) := by
  have haccepted : validateStream (plainStream 1514) = true := by decide
  have hcompiled : (plainStream 1514).vmCompile 1 = .ok (plainStream 1514) := rfl
  refine ⟨haccepted, hcompiled, ?_⟩
  rw [transmittable_iff .exact ⟨8, 64⟩ 1 _ _ haccepted rfl hcompiled]
  exact fitsPools_of_le .exact (by decide) (by decide)

/-- A stream of 200 bytes whose program writes the first byte. -/
def firstByteStream : TrexStream :=
  { plainStream 200 with
    vm := { instList := [.flowMan ⟨"x", 1, .INC, 0, 0, 255⟩, .pktWr ⟨"x", 0, 0, true⟩] } }

theorem not_transmittable_of_error {odp : OdpPool} {abi : Abi} {e : SizeFault}
    (h : segmentsOf abi s = .error e) : ¬ Transmittable odp abi s := by
  intro ht
  obtain ⟨segs, hsegs, -⟩ := transmittable_iff_segments.mp ht
  rw [h] at hsegs
  cases hsegs

/-- A stream of 9000 bytes has no pool, and one whose program writes the first byte only has an
empty header; both are accepted, whatever libodp makes of its pools. -/
theorem accepted_not_transmittable :
    (validateStream (plainStream 9000) = true ∧
      (plainStream 9000).vmCompile 1 = .ok (plainStream 9000) ∧
      ∀ odp, ¬ Transmittable odp ⟨8, 64⟩ (plainStream 9000)) ∧
    validateStream firstByteStream = true ∧
      ∃ s', firstByteStream.vmCompile 1 = .ok s' ∧ ∀ odp, ¬ Transmittable odp ⟨8, 64⟩ s' := by
  refine ⟨⟨by decide, rfl, fun odp => ?_⟩, by decide, ?_⟩
  · have hpool : segmentsOf ⟨8, 64⟩ (plainStream 9000) = .error .noPool := by decide +kernel
    exact not_transmittable_of_error hpool
  · have hheader : (firstByteStream.vmCompile 1).map (segmentsOf ⟨8, 64⟩) =
        .ok (.error .noHeader) := by
      decide +kernel
    cases hcompiled : firstByteStream.vmCompile 1 with
    | error e =>
      rw [hcompiled] at hheader
      cases hheader
    | ok s' =>
      rw [hcompiled] at hheader
      exact ⟨s', rfl, fun odp => not_transmittable_of_error (Except.ok.inj hheader)⟩

end Trex.Dp
