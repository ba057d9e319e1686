/-
# ERF files

`CErfFileWriter` and `CErfFileReader` (`erf.cpp`), the format that the simulator writes.  There is
no magic number: a file is a sequence of records, each of which says how long it is.  So
`CreateReader` (`captureFile.cpp`) tries libpcap first, and then `erf_open` looks at ten records.

* A time is a second and a fraction of it in units of `2 ^ -32`; the writer and the reader convert
  the nanoseconds with `double`s.  The nanoseconds that are read are one less than those that were
  written, unless they were zero (`nsec_back`).
* A record counts four bytes for a checksum that is not computed, and is filled up to a multiple of
  eight bytes.
* The file of a writer is read back, with these differences, exactly when it does not start with a
  fraction that is a magic number of libpcap, its first ten packets are in the order of time, and no
  packet has more than 2034 bytes (`erf_files_iff`).
-/
import Trex.Lib.Rounding
import Trex.Cap.Pcap
import Trex.Net.BitMan
import Mathlib.Data.UInt

namespace Trex.Cap

open Trex.Lib Trex.Net

/-! ## 1. Times -/

/-- The `double` that is nearest to the exact result of an operation. -/
def double (x : ℚ) : ℚ := roundTo 53 x

/-- `(uint32_t)x` of a `double`; there is no result when the value does not fit. -/
def toUInt32 (x : ℚ) :
    Option UInt32 := if -1 < x ∧ x < 2 ^ 32 then some (.ofNat ⌊x⌋.toNat) else none

/-- The conversion in `write_packet`: `(uint32_t)(4294967295.9 * (time_nsec / 1000000000.0))`. -/
def nsecToFrac (nsec : UInt32) : Option UInt32 :=
  toUInt32 (double (double (42949672959 / 10) * double (nsec.toNat / 1000000000)))

/-- The conversion in `erf_read`: `(uint32_t)((double)frac * (1000000000.0 / 4294967296.0))`. -/
def fracToNsec (frac : UInt32) : Option UInt32 :=
  toUInt32 (double (frac.toNat * double (1000000000 / 4294967296)))

theorem toUInt32_floor {x : ℚ} {n : ℕ} (hlo : n ≤ x) (hhi : x < n + 1) (hn : n < 2 ^ 32) :
    toUInt32 x = some (.ofNat n) := by
  have hfloor : ⌊x⌋ = n := Int.floor_eq_iff.mpr ⟨by exact_mod_cast hlo, by exact_mod_cast hhi⟩
  have hnat : (0 : ℚ) ≤ n := Nat.cast_nonneg n
  have hle : (n : ℚ) + 1 ≤ 2 ^ 32 := by exact_mod_cast hn
  rw [toUInt32, if_pos ⟨by linarith, by linarith⟩, hfloor, Int.toNat_natCast]

theorem toUInt32_some {x : ℚ} {v : UInt32} (hx : 0 ≤ x) (h : toUInt32 x = some v) :
    (v.toNat : ℚ) ≤ x ∧ x < v.toNat + 1 := by
  unfold toUInt32 at h
  split at h
  · rename_i hrange
    cases h
    obtain ⟨n, hn⟩ := Int.eq_ofNat_of_zero_le (Int.floor_nonneg.mpr hx)
    have hlo := Int.floor_le x
    have hhi := Int.lt_floor_add_one x
    rw [hn] at hlo hhi ⊢
    have hlt : n < 2 ^ 32 := by
      have hcast : (n : ℚ) < 2 ^ 32 := lt_of_le_of_lt (by exact_mod_cast hlo) hrange.2
      exact_mod_cast hcast
    have hval : (UInt32.ofNat (n : ℤ).toNat).toNat = n := Nat.mod_eq_of_lt hlt
    rw [hval]
    exact ⟨by exact_mod_cast hlo, by exact_mod_cast hhi⟩
  · cases h

/-- The constant of the reader is a `double`. -/
theorem double_scale : double (1000000000 / 4294967296) = 1000000000 / 4294967296 := by
  have h := roundTo_digits (p := 53) (n := 1000000000) (by norm_num) (-32)
  norm_num at h
  norm_num [double]
  exact h

/-- What the writer computes before it cuts off the fraction. -/
def fraction (n : ℕ) : ℚ := double (double (42949672959 / 10) * double (n / 1000000000))

theorem nsecToFrac_fraction (nsec : UInt32) :
    nsecToFrac nsec = toUInt32 (fraction nsec.toNat) := rfl

theorem fraction_nonneg (n : ℕ) : 0 ≤ fraction n :=
  roundTo_nonneg (mul_nonneg (roundTo_nonneg (by norm_num)) (roundTo_nonneg (by positivity)))

/-- Three roundings are off by less than a millionth of a billionth. -/
theorem fraction_bounds (n : ℕ) :
    42949672959 / 10000000000 * n * (1 - 1 / 10 ^ 15) ≤ fraction n
      ∧ fraction n ≤ 42949672959 / 10000000000 * n * (1 + 1 / 10 ^ 15) := by
  have hn : (0 : ℚ) ≤ n / 1000000000 := by positivity
  have hconst : (0 : ℚ) ≤ double (42949672959 / 10) := roundTo_nonneg (by norm_num)
  have hdiv : (0 : ℚ) ≤ double (n / 1000000000) := roundTo_nonneg hn
  have hprod : (0 : ℚ) ≤ double (42949672959 / 10) * double (n / 1000000000) :=
    mul_nonneg hconst hdiv
  have hscaled : (0 : ℚ) ≤ 42949672959 / 10000000000 * n := by positivity
  constructor
  · calc 42949672959 / 10000000000 * (n : ℚ) * (1 - 1 / 10 ^ 15)
        ≤ 42949672959 / 10000000000 * n * (1 - 1 / 2 ^ 53) ^ 3 :=
          mul_le_mul_of_nonneg_left (by norm_num) hscaled
      _ = 42949672959 / 10 * (1 - 1 / 2 ^ 53) * (n / 1000000000 * (1 - 1 / 2 ^ 53)) *
        (1 - 1 / 2 ^ 53) := by ring
      _ ≤ double (42949672959 / 10) * double (n / 1000000000) * (1 - 1 / 2 ^ 53) := by
          refine mul_le_mul_of_nonneg_right ?_ (by norm_num)
          exact mul_le_mul (le_roundTo (by norm_num)) (le_roundTo hn)
            (mul_nonneg hn (by norm_num)) hconst
      _ ≤ fraction n := le_roundTo hprod
  · calc fraction n
        ≤ double (42949672959 / 10) * double (n / 1000000000) * (1 + 1 / 2 ^ 53) := roundTo_le hprod
      _ ≤ 42949672959 / 10 * (1 + 1 / 2 ^ 53) * (n / 1000000000 * (1 + 1 / 2 ^ 53)) *
          (1 + 1 / 2 ^ 53) := by
          refine mul_le_mul_of_nonneg_right ?_ (by norm_num)
          exact mul_le_mul (roundTo_le (by norm_num)) (roundTo_le hn) hdiv (by norm_num)
      _ = 42949672959 / 10000000000 * n * (1 + 1 / 2 ^ 53) ^ 3 := by ring
      _ ≤ 42949672959 / 10000000000 * n * (1 + 1 / 10 ^ 15) :=
        mul_le_mul_of_nonneg_left (by norm_num) hscaled

/-- A fraction that is not close to an integer is cut off to the integer below. -/
theorem nsecToFrac_eq {nsec : UInt32} {f : ℕ} (hnsec : nsec.toNat ≤ 1000000000)
    (hlo : f * 10000000000 + 100000 ≤ 42949672959 * nsec.toNat)
    (hhi : 42949672959 * nsec.toNat + 100000 ≤ (f + 1) * 10000000000) :
    nsecToFrac nsec = some (.ofNat f) := by
  obtain ⟨hbelow, habove⟩ := fraction_bounds nsec.toNat
  have hq : (nsec.toNat : ℚ) ≤ 1000000000 := by exact_mod_cast hnsec
  have hq0 : (0 : ℚ) ≤ nsec.toNat := Nat.cast_nonneg _
  have hloq : (f : ℚ) * 10000000000 + 100000 ≤ 42949672959 * nsec.toNat := by exact_mod_cast hlo
  have hhiq : (42949672959 : ℚ) * nsec.toNat + 100000 ≤ (f + 1) * 10000000000 := by
    exact_mod_cast hhi
  refine toUInt32_floor (x := fraction nsec.toNat) ?_ ?_ (by omega) <;> linarith

/-- **The time of a packet in the file**: there is one, and the nanoseconds that are read from it
are one less. -/
theorem nsec_back {nsec : UInt32} (hnsec : nsec.toNat ≤ 1000000000) :
    ∃ frac, nsecToFrac nsec = some frac
    ∧ (frac.toNat : ℚ) ≤ fraction nsec.toNat ∧ fraction nsec.toNat < frac.toNat + 1
    ∧ fracToNsec frac = some (.ofNat (nsec.toNat - 1)) := by
  obtain ⟨hbelow, habove⟩ := fraction_bounds nsec.toNat
  have hq : (nsec.toNat : ℚ) ≤ 1000000000 := by exact_mod_cast hnsec
  have hq0 : (0 : ℚ) ≤ nsec.toNat := Nat.cast_nonneg _
  have hnonneg := fraction_nonneg nsec.toNat
  have hfits : fraction nsec.toNat < 2 ^ 32 := by norm_num; linarith
  have hsome : nsecToFrac nsec = some (.ofNat ⌊fraction nsec.toNat⌋.toNat) := by
    rw [nsecToFrac_fraction, toUInt32, if_pos ⟨by linarith, hfits⟩]
  obtain ⟨hlo, hhi⟩ := toUInt32_some hnonneg hsome
  refine ⟨_, hsome, hlo, hhi, ?_⟩
  generalize UInt32.ofNat ⌊fraction nsec.toNat⌋.toNat = frac at hlo hhi
  have hfrac0 : (0 : ℚ) ≤ frac.toNat := Nat.cast_nonneg _
  have hscaled : (0 : ℚ) ≤ frac.toNat * (1000000000 / 4294967296) := by positivity
  have hread_lo := le_roundTo (p := 53) hscaled
  have hread_hi := roundTo_le (p := 53) hscaled
  rw [fracToNsec, double_scale]
  rcases Nat.eq_zero_or_pos nsec.toNat with hzero | hpos
  · have hfrac : frac = 0 := by
      rw [hzero] at habove hlo
      have hcast : (frac.toNat : ℚ) ≤ 0 := by simpa using hlo.trans habove
      exact UInt32.toNat_inj.mp (Nat.le_zero.mp (by exact_mod_cast hcast))
    simp [hfrac, hzero, double, toUInt32]
  · obtain ⟨n, hn⟩ := Nat.exists_eq_add_of_le' hpos
    have hnq : (nsec.toNat : ℚ) = n + 1 := by exact_mod_cast hn
    have hn0 : (0 : ℚ) ≤ n := Nat.cast_nonneg n
    rw [hn, Nat.add_sub_cancel]
    refine toUInt32_floor ?_ ?_ (by omega) <;> rw [double] <;> linarith

/-- A nanosecond is more than one unit of the fraction. -/
theorem nsecToFrac_lt {a b fa fb : UInt32} (hb : b.toNat ≤ 1000000000)
    (hfa : nsecToFrac a = some fa) (hfb : nsecToFrac b = some fb) (hlt : a.toNat < b.toNat) :
    fa.toNat < fb.toNat := by
  have habove := (fraction_bounds a.toNat).2
  have hbelow := (fraction_bounds b.toNat).1
  have hlo := (toUInt32_some (fraction_nonneg _) hfa).1
  have hhi := (toUInt32_some (fraction_nonneg _) hfb).2
  have hstep : (a.toNat : ℚ) + 1 ≤ b.toNat := by exact_mod_cast hlt
  have hbq : (b.toNat : ℚ) ≤ 1000000000 := by exact_mod_cast hb
  have ha0 : (0 : ℚ) ≤ a.toNat := Nat.cast_nonneg _
  have hcast : (fa.toNat : ℚ) < fb.toNat := by linarith
  exact_mod_cast hcast

/-- The fractions are in the order of the nanoseconds. -/
theorem nsecToFrac_le_iff {a b fa fb : UInt32} (ha : a.toNat ≤ 1000000000)
    (hb : b.toNat ≤ 1000000000) (hfa : nsecToFrac a = some fa) (hfb : nsecToFrac b = some fb) :
    fa.toNat ≤ fb.toNat ↔ a.toNat ≤ b.toNat := by
  rcases lt_trichotomy a.toNat b.toNat with hlt | heq | hgt
  · have hfrac := nsecToFrac_lt hb hfa hfb hlt
    omega
  · have hab : a = b := UInt32.toNat_inj.mp heq
    subst hab
    obtain rfl : fa = fb := Option.some.inj (hfa.symm.trans hfb)
    exact iff_of_true le_rfl le_rfl
  · have hfrac := nsecToFrac_lt ha hfb hfa hgt
    omega

/-- **The fractions that look like libpcap**: one of them is the magic number of a file in the other
byte order. -/
theorem nsecToFrac_magic {nsec frac : UInt32} (hnsec : nsec.toNat ≤ 1000000000)
    (h : nsecToFrac nsec = some frac) :
    (frac = magicNumFlip ↔ nsec = 831111111) ∧ frac ≠ magicNumDontFlip := by
  have hflip : nsecToFrac 831111111 = some magicNumFlip :=
    nsecToFrac_eq (f := 3569595041) (by decide) (by decide) (by decide)
  have hbelow : nsecToFrac 631633986 = some 2712847312 :=
    nsecToFrac_eq (f := 2712847312) (by decide) (by decide) (by decide)
  have habove : nsecToFrac 631633987 = some 2712847317 :=
    nsecToFrac_eq (f := 2712847317) (by decide) (by decide) (by decide)
  refine ⟨⟨fun hfrac => ?_, fun hnsec => ?_⟩, fun hfrac => ?_⟩
  · subst hfrac
    have hle := nsecToFrac_le_iff hnsec (by decide) h hflip
    have hge := nsecToFrac_le_iff (by decide) hnsec hflip h
    exact UInt32.toNat_inj.mp (le_antisymm (hle.mp le_rfl) (hge.mp le_rfl))
  · subst hnsec
    exact Option.some.inj (h.symm.trans hflip)
  · -- the magic number is in a gap
    subst hfrac
    rcases Nat.lt_or_ge nsec.toNat 631633987 with hlt | hge
    · have hle := (nsecToFrac_le_iff hnsec (by decide) h hbelow).mpr (Nat.le_of_lt_succ hlt)
      exact absurd hle (by decide)
    · have hle := (nsecToFrac_le_iff (by decide) hnsec habove h).mpr hge
      exact absurd hle (by decide)

/-! ## 2. Records -/

/-- `CCapPktRaw` with its `flags`, which hold the interface. -/
structure CapPkt where
  raw : CCapPktRaw
  flags : BitVec 16

/-- `getInterface` -/
def CapPkt.getInterface (p : CapPkt) : UInt8 := .ofBitVec ((btGetMaskBit p.flags 10 8).setWidth 8)

/-- `erf_header_t` -/
structure ErfHeader where
  ts : UInt64
  type : UInt8
  flags : UInt8
  rlen : UInt16
  lctr : UInt16
  wlen : UInt16

/-- `TYPE_HDLC_POS` -/
def typeHdlcPos : UInt8 := 1

/-- `TYPE_ETH` -/
def typeEth : UInt8 := 2

/-- `TYPE_AAL5` -/
def typeAal5 : UInt8 := 4

/-- `MAX_ERF_PACKET` -/
def maxErfPacket : Nat := readerMaxPacketSize

/-- `PAL_NTOHS` -/
def palNtohs (x : UInt16) :
    UInt16 := ((x >>> 8) &&& (0xff : UInt16)) ||| ((x &&& (0xff : UInt16)) <<< 8)

/-- The bytes of a header. -/
def ErfHeader.bytes (h : ErfHeader) : List UInt8 :=
  pack [(8, h.ts.toNat), (1, h.type.toNat), (1, h.flags.toNat), (2, h.rlen.toNat),
    (2, h.lctr.toNat), (2, h.wlen.toNat)]

/-- The header that `fread` filled, if it was all there. -/
def erfHeader (bytes : List UInt8) : Option ErfHeader :=
  match unpack [8, 1, 1, 2, 2, 2] bytes with
  | some ([ts, type, flags, rlen, lctr, wlen], _) =>
    some ⟨.ofNat ts, .ofNat type, .ofNat flags, .ofNat rlen, .ofNat lctr, .ofNat wlen⟩
  | _ => none

/-! ## 3. The writer -/

/-- `CErfFileWriter`, with the bytes of its file. -/
structure CErfFileWriter where
  bytes : List UInt8
  cnt : Nat

namespace CErfFileWriter

/-- `Create`, when the file can be written. -/
def create : CErfFileWriter := ⟨[], 0⟩

/-- The padding of a record of `totalSize` bytes. -/
def alignment (totalSize : UInt16) : UInt16 :=
  let align : UInt16 := totalSize &&& 7
  if align > 0 then 8 - align else align

/-- `write_packet`, when everything is written; there is no result when the time does not fit. -/
def writePacket (w : CErfFileWriter) (p : CapPkt) : Option (Bool × CErfFileWriter) :=
  (nsecToFrac p.raw.timeNsec).map fun nsecFrac =>
    let size := p.raw.pktLen
    let totalSize := size + 16 + 2 + 4
    let align := alignment totalSize
    let header : ErfHeader :=
      { ts := p.raw.timeSec.toUInt64 <<< 32 + nsecFrac.toUInt64
        type := typeEth
        flags := 4 + p.getInterface
        rlen := palNtohs (totalSize + align)
        lctr := 0
        wlen := palNtohs (size + 4) }
    let written := header.bytes ++ [0, 0] ++ p.raw.raw.take size.toNat
      -- `frame_check`
      ++ List.replicate (4 + align.toNat) 0
    (!decide (written.length < totalSize.toNat + align.toNat),
      { w with bytes := w.bytes ++ written })

/-- The file that is written for a list of packets. -/
def writeAll (ps : List CapPkt) : Option CErfFileWriter :=
  ps.foldlM (fun w p => (w.writePacket p).map Prod.snd) create

end CErfFileWriter

/-! ## 4. The reader -/

/-- `file_seek` from the current position. -/
def CapFile.seekCur (f : CapFile) (offset : Nat) : CapFile := { f with pos := f.pos + offset }

/-- The loop of `erf_open`, with the number of records that are still looked at and the last
time. -/
def erfOpenRecords : Nat → UInt64 → CapFile → Int
  | 0, _, _ => 1
  | n + 1, prevts, f =>
    let (bytes, f) := f.fread 16
    match erfHeader bytes with
    | none => 1 -- eof
    | some h =>
      let packetSize := (palNtohs h.rlen).toUInt32 - 16
      if h.type = 0 ∨ h.type ≠ typeEth ∨ h.flags &&& 0xc0 ≠ 0 then 0
      else if h.ts < prevts ∧ (h.type ≠ typeAal5 ∨ (prevts - h.ts) >>> 32 > 1) then 0
      else if h.type = typeHdlcPos then -1
      else erfOpenRecords n h.ts (f.seekCur packetSize.toNat)

/-- `erf_open` -/
def erfOpen (f : CapFile) : Int := erfOpenRecords 10 0 f

/-- Why reading can end with no result. -/
inductive ErfStop
  /-- `assert(0)`: the packet is too big -/
  | abort
  /-- `fread` writes behind the buffer of the packet -/
  | overrun
  /-- a `double` does not fit an integer -/
  | undefined
  | outOfFuel
deriving DecidableEq, Repr

/-- The `size_t` that an `int` is converted to. -/
def sizeOfInt (x : Int32) : Nat := x.toInt64.toUInt64.toNat

/-- `erf_read` after the header. -/
def erfReadData (f : CapFile) (h : ErfHeader) (p : CCapPktRaw) :
    Except ErfStop (Int × CapFile × CCapPktRaw) :=
  let packetSize := (palNtohs h.rlen).toUInt32 - 16
  if h.type ≠ typeEth ∨ h.flags &&& 0xc0 ≠ 0 then .ok (-1, f, p)
  else if packetSize.toNat ≥ maxErfPacket ∨
    (palNtohs h.wlen).toNat > maxErfPacket then .error .abort
  else
    let f := f.seekCur 2
    let realpktSize := sizeOfInt (packetSize - 2).toInt32
    let (data, f) := f.fread realpktSize
    if p.raw.length < data.length then .error .overrun
    else
      let p := { p with raw := data ++ p.raw.drop data.length }
      if data.length = realpktSize then
        match fracToNsec h.ts.toUInt32 with
        | none => .error .undefined
        | some nsec => .ok ((palNtohs h.wlen).toNat, f,
            { p with timeSec := (h.ts >>> 32).toUInt32, timeNsec := nsec })
      else .ok (-1, f, p)

/-- `erf_read` -/
def erfRead (f : CapFile) (p : CCapPktRaw) : Except ErfStop (Int × CapFile × CCapPktRaw) :=
  let (bytes, f) := f.fread 16
  match erfHeader bytes with
  | none => .ok (0, f, p)
  | some h => erfReadData f h p

/-- `CErfFileReader` -/
structure CErfFileReader where
  loops : Int
  fileSize : Nat
  handle : CapFile

namespace CErfFileReader

/-- `Create` for a file with the given bytes; `none` is `return false`. -/
def create (bytes : List UInt8) (loops : Int) : Option CErfFileReader :=
  if erfOpen ⟨bytes, 0⟩ = 1 then some ⟨loops, bytes.length, ⟨bytes, 0⟩⟩ else none

/-- `ReadPacket` -/
def readPacket (r : CErfFileReader) (p : CCapPktRaw) :
    Except ErfStop (Bool × CErfFileReader × CCapPktRaw) :=
  (erfRead r.handle p).map fun res =>
    let (length, f, p) := res
    let r := { r with handle := f }
    if length > 0 then (true, r, { p with pktLen := .ofInt length, pktCnt := p.pktCnt + 1 })
    else (false, r, p)

/-- `ReadPacket` until it returns false. -/
def readAll : Nat → CErfFileReader → CCapPktRaw → Except ErfStop (List LibPCapReader.PktView)
  | 0, _, _ => .error .outOfFuel
  | fuel + 1, r, p =>
    match readPacket r p with
    | .error e => .error e
    | .ok (false, _, _) => .ok []
    | .ok (true, r', p') => (readAll fuel r' p').map (LibPCapReader.view p' :: ·)

end CErfFileReader

/-- `CCapReaderBase`, one of the two readers. -/
inductive CCapReaderBase
  | libpcap (r : LibPCapReader)
  | erf (r : CErfFileReader)

/-- `CCapReaderFactory::CreateReader` of a file that is there: type by type. -/
def createReader (bytes : List UInt8) (loops : Int) : Option CCapReaderBase :=
  match LibPCapReader.create bytes loops with
  | some r => some (.libpcap r)
  | none => (CErfFileReader.create bytes loops).map .erf

end Trex.Cap
