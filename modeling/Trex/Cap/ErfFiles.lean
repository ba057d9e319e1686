/-
# Writing ERF files and reading them back

What `CErfFileWriter` writes for a list of packets, and what the readers make of it.

* A record is a header, two bytes, the packet, four bytes for a checksum and the padding
  (`writeAll_bytes`).
* `CreateReader` takes the file for libpcap when its first fraction is a magic number; otherwise
  `erf_open` accepts it when ten records are in order (`createReader_written`).
* What is in the file are the packets, each with the four bytes, up to the first one that is too big
  (`holds_records`).
-/
import Trex.Cap.ErfParse

namespace Trex.Cap

open Trex.Lib Trex.Net List

/-! ## 1. The fields of a header -/

/-- The interface leaves the pad bits alone. -/
theorem flags_pad (p : CapPkt) : (4 + p.getInterface) &&& 0xc0 = 0 := by
  have hbits : (btGetMaskBit p.flags 10 8).toNat < 8 := by
    have hget : (btGetMaskBit (btSetMaskBit p.flags 10 8 (btGetMaskBit p.flags 10 8)) 10 8).toNat
        = (btGetMaskBit p.flags 10 8).toNat % 2 ^ (10 - 8 + 1) :=
      get_set (by decide) (by decide) (by decide) p.flags (btGetMaskBit p.flags 10 8)
    rw [set_get (by decide) (by decide) (by decide)] at hget
    omega
  have hiface : p.getInterface.toNat < 8 := by
    rw [CapPkt.getInterface, UInt8.toNat_ofBitVec, BitVec.toNat_setWidth]
    omega
  have hsmall : ∀ n < 8, (4 + n) % 2 ^ 8 &&& 192 = 0 := by decide
  apply UInt8.toNat_inj.mp
  rw [UInt8.toNat_and, UInt8.toNat_add]
  exact hsmall _ hiface

/-- The padding fills up to eight bytes. -/
theorem toNat_alignment (total : UInt16) :
    total.toNat + (CErfFileWriter.alignment total).toNat = (total.toNat + 7) / 8 * 8 := by
  have hand : (total &&& 7).toNat = total.toNat % 8 := by
    rw [UInt16.toNat_and]
    exact Nat.and_two_pow_sub_one_eq_mod _ 3
  unfold CErfFileWriter.alignment
  simp only
  split
  · rename_i hpos
    have hlt : 0 < (total &&& 7).toNat := UInt16.lt_iff_toNat_lt.mp hpos
    have hle : total &&& 7 ≤ 8 := UInt16.le_iff_toNat_le.mpr (by rw [hand]; simp; omega)
    rw [UInt16.toNat_sub_of_le _ _ hle, hand]
    simp only [UInt16.reduceToNat]
    omega
  · rename_i hzero
    have hle : (total &&& 7).toNat ≤ 0 :=
      not_lt.mp fun hlt => hzero (UInt16.lt_iff_toNat_lt.mpr hlt)
    omega

/-- The fraction and the second of a time. -/
theorem ts_fields (sec frac : UInt32) :
    (sec.toUInt64 <<< 32 + frac.toUInt64).toNat = sec.toNat * 2 ^ 32 + frac.toNat
    ∧ ((sec.toUInt64 <<< 32 + frac.toUInt64) >>> 32).toUInt32 = sec
    ∧ (sec.toUInt64 <<< 32 + frac.toUInt64).toUInt32 = frac := by
  have hsec := sec.toNat_lt
  have hfrac := frac.toNat_lt
  have hts : (sec.toUInt64 <<< 32 + frac.toUInt64).toNat = sec.toNat * 2 ^ 32 + frac.toNat := by
    rw [UInt64.toNat_add, UInt64.toNat_shiftLeft, UInt32.toNat_toUInt64, UInt32.toNat_toUInt64,
      Nat.shiftLeft_eq]
    simp only [UInt64.reduceToNat, Nat.reduceMod]
    omega
  refine ⟨hts, UInt32.toNat_inj.mp ?_, UInt32.toNat_inj.mp ?_⟩
  · rw [UInt64.toNat_toUInt32, UInt64.toNat_shiftRight, hts, Nat.shiftRight_eq_div_pow]
    simp only [UInt64.reduceToNat, Nat.reduceMod]
    omega
  · rw [UInt64.toNat_toUInt32, hts]
    omega

/-! ## 2. What is written -/

/-- A packet that fits a record: the nanoseconds are at most a second, the bytes are in the buffer,
and the length of the record fits its field. -/
structure Writable (p : CapPkt) : Prop where
  time : p.raw.timeNsec.toNat ≤ 1000000000
  buffer : p.raw.pktLen.toNat ≤ p.raw.raw.length
  length : p.raw.pktLen.toNat ≤ 65506

namespace CapPkt

/-- The fraction of a second in the record. -/
def frac (p : CapPkt) : UInt32 := (nsecToFrac p.raw.timeNsec).getD 0

/-- `total_size` -/
def totalSize (p : CapPkt) : UInt16 := p.raw.pktLen + 16 + 2 + 4

/-- The header of the record. -/
def header (p : CapPkt) : ErfHeader where
  ts := p.raw.timeSec.toUInt64 <<< 32 + p.frac.toUInt64
  type := typeEth
  flags := 4 + p.getInterface
  rlen := palNtohs (p.totalSize + CErfFileWriter.alignment p.totalSize)
  lctr := 0
  wlen := palNtohs (p.raw.pktLen + 4)

/-- The bytes of the packet. -/
def data (p : CapPkt) : List UInt8 := p.raw.raw.take p.raw.pktLen.toNat

/-- What follows the packet. -/
def trailer (p : CapPkt) :
    List UInt8 := List.replicate (4 + (CErfFileWriter.alignment p.totalSize).toNat) 0

/-- The record. -/
def record (p : CapPkt) : List UInt8 := p.header.bytes ++ [0, 0] ++ p.data ++ p.trailer

/-- The length of the record. -/
def recordLen (p : CapPkt) : Nat := (p.raw.pktLen.toNat + 29) / 8 * 8

variable {p : CapPkt}

theorem valid (p : CapPkt) : p.header.Valid := ⟨rfl, flags_pad p⟩

theorem nsecToFrac_frac (h : Writable p) : nsecToFrac p.raw.timeNsec = some p.frac := by
  obtain ⟨frac, hfrac, -⟩ := nsec_back h.time
  rw [CapPkt.frac, hfrac, Option.getD_some]

theorem toNat_totalSize (h : Writable p) : p.totalSize.toNat = p.raw.pktLen.toNat + 22 := by
  have hlen := h.length
  simp only [totalSize, UInt16.toNat_add, UInt16.reduceToNat]
  omega

theorem recordLen_eq (h : Writable p) :
    p.totalSize.toNat + (CErfFileWriter.alignment p.totalSize).toNat = p.recordLen := by
  rw [toNat_alignment, toNat_totalSize h, recordLen]

theorem recordLen_le (h : Writable p) : 24 ≤ p.recordLen ∧ p.recordLen ≤ 65528
    ∧ p.raw.pktLen.toNat + 22 ≤ p.recordLen := by
  have hlen := h.length
  unfold recordLen
  omega

theorem header_recordLen (h : Writable p) : p.header.recordLen = p.recordLen := by
  have hle := recordLen_le h
  rw [ErfHeader.recordLen, header, palNtohs_palNtohs, UInt16.toNat_add, recordLen_eq h]
  omega

theorem header_wireLen (h : Writable p) : p.header.wireLen = p.raw.pktLen.toNat + 4 := by
  have hlen := h.length
  rw [ErfHeader.wireLen, header, palNtohs_palNtohs, UInt16.toNat_add]
  simp only [UInt16.reduceToNat]
  omega

@[simp] theorem length_data (h : Writable p) : p.data.length = p.raw.pktLen.toNat := by
  rw [data, length_take, min_eq_left h.buffer]

theorem length_record (h : Writable p) : p.record.length = p.recordLen := by
  have hlen := recordLen_eq h
  have htotal := toNat_totalSize h
  simp only [record, trailer, length_append, ErfHeader.length_bytes, length_data h,
    length_replicate, length_cons, length_nil]
  omega

end CapPkt

namespace CErfFileWriter

variable {p : CapPkt}

/-- A packet is written whole. -/
theorem writePacket_record (w : CErfFileWriter) (h : Writable p) :
    w.writePacket p = some (true, { w with bytes := w.bytes ++ p.record }) := by
  have hlen := CapPkt.length_record h
  rw [← CapPkt.recordLen_eq h] at hlen
  have hall : ¬ p.record.length < p.totalSize.toNat + (alignment p.totalSize).toNat := by omega
  have hfull : (!decide (p.record.length < p.totalSize.toNat + (alignment p.totalSize).toNat)) =
      true := by
    rw [decide_eq_false hall, Bool.not_false]
  rw [writePacket, CapPkt.nsecToFrac_frac h, Option.map_some]
  exact congrArg some (Prod.ext hfull rfl)

/-- **The records come one after the other.** -/
theorem foldlM_writePacket : ∀ (ps : List CapPkt) (w : CErfFileWriter), (∀ p ∈ ps, Writable p) →
    ps.foldlM (fun w p => (writePacket w p).map Prod.snd) w
      = some { w with bytes := w.bytes ++ ps.flatMap CapPkt.record }
  | [], w, _ => by simp
  | p :: ps, w, h => by
    have hp := writePacket_record w (h p (by simp))
    have hps := foldlM_writePacket ps { w with bytes := w.bytes ++ p.record } fun q hq =>
      h q (by simp [hq])
    rw [foldlM_cons, hp, Option.map_some]
    simpa using hps

theorem writeAll_bytes {ps : List CapPkt} (h : ∀ p ∈ ps, Writable p) :
    writeAll ps = some ⟨ps.flatMap CapPkt.record, 0⟩ := by
  have hall := foldlM_writePacket ps create h
  rwa [create, nil_append] at hall

end CErfFileWriter

/-! ## 3. What is opened -/

/-- The packets are in the order of time. -/
def TimeLe (a b : CapPkt) : Prop :=
  a.raw.timeSec.toNat < b.raw.timeSec.toNat
    ∨ a.raw.timeSec.toNat = b.raw.timeSec.toNat ∧ a.raw.timeNsec.toNat ≤ b.raw.timeNsec.toNat

theorem ts_le_iff {a b : CapPkt} (ha : Writable a) (hb : Writable b) :
    a.header.ts ≤ b.header.ts ↔ TimeLe a b := by
  have hfrac := nsecToFrac_le_iff ha.time hb.time (CapPkt.nsecToFrac_frac ha)
    (CapPkt.nsecToFrac_frac hb)
  have hfa := a.frac.toNat_lt
  have hfb := b.frac.toNat_lt
  rw [UInt64.le_iff_toNat_le, CapPkt.header, CapPkt.header, (ts_fields _ _).1, (ts_fields _ _).1,
    TimeLe, ← hfrac]
  omega

variable {p : CapPkt} {ps : List CapPkt}

/-- What `erf_open` does at a record: it compares the times, and goes to the next record. -/
theorem erfOpenRecords_record (h : Writable p) {rest : List UInt8} {f : CapFile}
    (hf : f.rest = p.record ++ rest) (n : Nat) (prevts : UInt64) : ∃ f', f'.rest = rest
      ∧ erfOpenRecords (n + 1) prevts f = if p.header.ts < prevts then 0
          else erfOpenRecords n p.header.ts f' := by
  have hhead : (f.fread 16).1 = p.header.bytes := by
    rw [CapFile.fst_fread, hf, CapPkt.record]
    simp only [append_assoc]
    exact take_left' p.header.length_bytes
  have hvalid := p.valid
  have hlen := CapPkt.length_record h
  have hle := CapPkt.recordLen_le h
  have hsize := toNat_packetSize p.header
  rw [CapPkt.header_recordLen h, if_neg (by omega)] at hsize
  refine ⟨(f.fread 16).2.seekCur (p.recordLen - 16), ?_, ?_⟩
  · have hskip : 16 + (p.recordLen - 16) = p.recordLen := by omega
    rw [CapFile.rest_seekCur, CapFile.rest_fread, drop_drop, hskip, hf]
    exact drop_left' hlen
  · have heth : typeEth ≠ 0 ∧ typeEth ≠ typeAal5 ∧ typeEth ≠ typeHdlcPos := by decide
    rw [erfOpenRecords]
    simp [hhead, hvalid.1, hvalid.2, hsize, heth.1, heth.2.1, heth.2.2]

/-- **What `erf_open` accepts**: files with ten records in the order of time. -/
theorem erfOpenRecords_iff : ∀ (n : Nat) (ps : List CapPkt) (prevts : UInt64) (f : CapFile),
    (∀ p ∈ ps, Writable p) →
    f.rest = ps.flatMap CapPkt.record →
    (erfOpenRecords n prevts f = 1 ↔
        List.IsChain (· ≤ ·) (prevts :: (ps.take n).map fun p => p.header.ts)) := by
  intro n
  induction n with
  | zero => intro ps prevts f h hf; simp [erfOpenRecords]
  | succ n ih =>
    intro ps prevts f h hf
    cases ps with
    | nil =>
      have hend : erfHeader (f.fread 16).1 = none := by
        rw [CapFile.fst_fread, hf]
        rfl
      rw [erfOpenRecords]
      simp [hend]
    | cons p ps =>
      rw [flatMap_cons] at hf
      obtain ⟨f', hf', hstep⟩ := erfOpenRecords_record (h p (by simp)) hf n prevts
      have hrest := ih ps p.header.ts f' (fun q hq => h q (by simp [hq])) hf'
      rw [hstep, take_succ_cons, map_cons, isChain_cons_cons, ← hrest]
      by_cases hlt : p.header.ts < prevts
      · simp [hlt]
      · simp [hlt, UInt64.not_lt.mp hlt]

theorem erfOpen_iff (h : ∀ p ∈ ps, Writable p) :
    erfOpen ⟨ps.flatMap CapPkt.record, 0⟩ = 1 ↔ (ps.take 10).Pairwise TimeLe := by
  have htake : ∀ p ∈ ps.take 10, Writable p := fun p hp => h p (mem_of_mem_take hp)
  rw [erfOpen, erfOpenRecords_iff 10 ps 0 ⟨ps.flatMap CapPkt.record, 0⟩ h rfl, isChain_iff_pairwise,
    pairwise_cons, pairwise_map]
  rw [and_iff_right (by simp)]
  exact Pairwise.iff_of_mem fun ha hb => ts_le_iff (htake _ ha) (htake _ hb)

/-- What is libpcap to the reader: a file header that starts with a magic number. -/
theorem libpcap_create_isSome_iff (bytes : List UInt8) (loops : Int) :
    (LibPCapReader.create bytes loops).isSome
    ↔ 24 ≤ bytes.length ∧ (UInt32.ofNat (ofBytes (bytes.take 4)) = magicNumFlip
      ∨ UInt32.ofNat (ofBytes (bytes.take 4)) = magicNumDontFlip) := by
  have hread : ((CapFile.mk bytes 0).fread 24).1 = bytes.take 24 := by
    rw [(CapFile.fread_rest _ _).1, drop_zero]
  have hcreate : (LibPCapReader.create bytes loops).isSome
      = (LibPCapReader.init ⟨false, false, false, ⟨bytes, 0⟩, bytes.length, loops⟩).1 := by
    rw [LibPCapReader.create]
    split
    rename_i ok r hinit
    rw [hinit]
    cases ok <;> rfl
  rw [hcreate, LibPCapReader.init]
  simp only [hread]
  split
  · rename_i magic fields rest hunpack
    have hlen := unpack_length hunpack
    have hmagic : magic = ofBytes (bytes.take 4) := by
      obtain ⟨vs, hhead⟩ := unpack_head hunpack
      rw [head_eq_of_cons_eq hhead, take_take]
      rfl
    have hall : 24 ≤ bytes.length := by
      rw [length_take] at hlen
      exact le_trans (show 24 ≤ min 24 bytes.length from hlen) (min_le_right _ _)
    rw [hmagic, and_iff_right hall]
    split
    · rename_i hflip
      simp [hflip]
    · rename_i hflip
      split <;> simp_all
  · rename_i hnone
    refine iff_of_false Bool.false_ne_true fun hall => ?_
    have hlen : [4, 2, 2, 4, 4, 4, 4].sum ≤ (bytes.take 24).length := by
      rw [length_take, min_eq_left hall.1]
      rfl
    obtain ⟨⟨fields, rest⟩, hunpack⟩ := Option.isSome_iff_exists.mp (unpack_isSome hlen)
    obtain ⟨vs, rfl⟩ := unpack_head hunpack
    exact hnone _ _ _ hunpack

/-- The first field of a record is the fraction. -/
theorem record_magic (p : CapPkt) (rest : List UInt8) :
    UInt32.ofNat (ofBytes ((p.record ++ rest).take 4)) = p.frac := by
  have hts : toBytes 8 p.header.ts.toNat = toBytes 4 p.frac.toNat ++
      toBytes 4 p.raw.timeSec.toNat := by
    have hfrac := p.frac.toNat_lt
    have hlow : toBytes 4 p.header.ts.toNat = toBytes 4 p.frac.toNat := by
      rw [← toBytes_mod, CapPkt.header, (ts_fields _ _).1]
      congr 1
      omega
    have hhigh : p.header.ts.toNat / 256 ^ 4 = p.raw.timeSec.toNat := by
      rw [CapPkt.header, (ts_fields _ _).1]
      omega
    rw [toBytes_add 4 4, hlow, hhigh]
  have hfirst : (p.record ++ rest).take 4 = toBytes 4 p.frac.toNat := by
    simp only [CapPkt.record, ErfHeader.bytes, pack, flatMap_cons, hts, append_assoc]
    exact take_left' (length_toBytes 4 _)
  rw [hfirst, ofBytes_toBytes, Nat.mod_eq_of_lt (show p.frac.toNat < 256 ^ 4 from p.frac.toNat_lt),
    UInt32.ofNat_toNat]

/-- **The reader of a file that was written.** -/
theorem createReader_written (h : ∀ p ∈ ps, Writable p) :
    ((∃ r, createReader (ps.flatMap CapPkt.record) 0 = some (.libpcap r))
      ↔ ∃ p ∈ ps.head?, p.raw.timeNsec = 831111111) ∧
    (∀ r, createReader (ps.flatMap CapPkt.record) 0 = some (.erf r)
      ↔ (∀ p ∈ ps.head?, p.raw.timeNsec ≠ 831111111) ∧ (ps.take 10).Pairwise TimeLe
        ∧ r = ⟨0, (ps.flatMap CapPkt.record).length, ⟨ps.flatMap CapPkt.record, 0⟩⟩) := by
  have hpcap : (LibPCapReader.create (ps.flatMap CapPkt.record) 0).isSome
      ↔ ∃ p ∈ ps.head?, p.raw.timeNsec = 831111111 := by
    rw [libpcap_create_isSome_iff]
    cases ps with
    | nil => simp
    | cons p ps =>
      have hp := h p (by simp)
      have hlen := CapPkt.length_record hp
      have hmagic := nsecToFrac_magic hp.time (CapPkt.nsecToFrac_frac hp)
      rw [flatMap_cons, record_magic, hmagic.1, or_iff_left hmagic.2, length_append, hlen]
      simp [(CapPkt.recordLen_le hp).1, Nat.le_add_right_of_le]
  constructor
  · rw [← hpcap, createReader]
    cases LibPCapReader.create (ps.flatMap CapPkt.record) 0 with
    | none => simp
    | some r => simp
  · intro r
    have hnot : (∀ p ∈ ps.head?, p.raw.timeNsec ≠ 831111111)
        ↔ ¬ (LibPCapReader.create (ps.flatMap CapPkt.record) 0).isSome := by
      rw [hpcap]
      simp
    rw [hnot, ← erfOpen_iff h, createReader]
    cases LibPCapReader.create (ps.flatMap CapPkt.record) 0 with
    | none =>
      by_cases hopen : erfOpen ⟨ps.flatMap CapPkt.record, 0⟩ = 1
      · simp only [CErfFileReader.create, hopen, if_true, Option.map_some, Option.some.injEq,
          CCapReaderBase.erf.injEq,
          Option.isSome_none, Bool.false_eq_true, not_false_eq_true, true_and]
        exact eq_comm
      · simp [CErfFileReader.create, hopen]
    | some r => simp

/-! ## 4. What is read -/

namespace CapPkt

/-- What is to be seen of a packet that was written: four more bytes, and a nanosecond less. -/
def readBack (p : CapPkt) : LibPCapReader.PktView :=
  ⟨p.data ++ [0, 0, 0, 0], p.raw.pktLen.toNat + 4, p.raw.timeSec.toNat, p.raw.timeNsec.toNat - 1⟩

end CapPkt

/-- A packet is followed by four bytes that are zero. -/
theorem CapPkt.take_body (h : Writable p) (tail : List UInt8) :
    (p.data ++ p.trailer ++ tail).take (p.raw.pktLen.toNat + 4) = p.data ++ [0, 0, 0, 0] := by
  have htrailer : p.trailer = [0, 0, 0, 0] ++
      List.replicate (CErfFileWriter.alignment p.totalSize).toNat 0 := by
    rw [CapPkt.trailer, replicate_add]
    rfl
  rw [htrailer, ← append_assoc, append_assoc _ _ tail]
  refine take_left' ?_
  rw [length_append, CapPkt.length_data h]
  rfl

/-- The record of a packet of at most 2034 bytes. -/
def CapPkt.toErf (p : CapPkt) (h : Writable p) (hsmall : p.raw.pktLen.toNat ≤ 2034) :
    ErfRecord where
  header := p.header
  pad := [0, 0]
  data := p.data ++ p.trailer
  valid := p.valid
  length_data := by
    have hlen := CapPkt.length_record h
    rw [CapPkt.header_recordLen h, ← hlen]
    simp only [CapPkt.record, length_append, ErfHeader.length_bytes, length_cons, length_nil]
    omega
  fits := by
    have hlen := CapPkt.recordLen_le h
    rw [ErfHeader.TooBig, CapPkt.header_recordLen h, CapPkt.header_wireLen h, maxErfPacket,
      readerMaxPacketSize, maxPktSize]
    rw [CapPkt.recordLen] at hlen ⊢
    omega
  wire := by
    rw [CapPkt.header_wireLen h]
    omega

theorem CapPkt.encode_toErf (h : Writable p) (hsmall : p.raw.pktLen.toNat ≤ 2034) :
    (p.toErf h hsmall).encode = p.record := by
  simp [ErfRecord.encode, toErf, record]

/-- The nanosecond that is lost. -/
theorem CapPkt.header_nsec (h : Writable p) : p.header.nsec.toNat = p.raw.timeNsec.toNat - 1 := by
  obtain ⟨frac, hfrac, -, -, hnsec⟩ := nsec_back h.time
  obtain rfl : p.frac = frac := Option.some.inj ((CapPkt.nsecToFrac_frac h).symm.trans hfrac)
  have hread := p.header.fracToNsec_nsec
  rw [CapPkt.header, (ts_fields _ _).2.2, hnsec] at hread
  rw [CapPkt.header, ← Option.some.inj hread]
  exact Nat.mod_eq_of_lt (lt_of_le_of_lt (Nat.sub_le _ _) p.raw.timeNsec.toNat_lt)

/-- **The packet that is read**: nothing of the buffer is in it. -/
theorem CapPkt.view_toErf (h : Writable p) (hsmall : p.raw.pktLen.toNat ≤ 2034) (buf : List UInt8) :
    (p.toErf h hsmall).view buf = p.readBack := by
  have hsec : (p.header.ts >>> 32).toUInt32 = p.raw.timeSec := (ts_fields _ _).2.1
  simp only [ErfRecord.view, ErfRecord.load, toErf, readBack, header_wireLen h, take_body h,
    header_nsec h, hsec]

/-- **A packet of more than 2034 bytes** is where reading stops. -/
theorem stops_big (h : Writable p) (hbig : 2034 < p.raw.pktLen.toNat) (rest : List UInt8) :
    Stops (p.record ++ rest) (some .abort) := by
  have htoo : p.header.TooBig := by
    rw [ErfHeader.TooBig, CapPkt.header_recordLen h, CapPkt.recordLen, maxErfPacket,
      readerMaxPacketSize, maxPktSize]
    omega
  have hstop : Stops (p.header.bytes ++ ([0, 0] ++ p.data ++ p.trailer ++ rest)) (some .abort) :=
    .tooBig p.valid htoo
  simpa only [CapPkt.record, append_assoc] using hstop

/-- What is in a file that was written. -/
theorem holds_records (h : ∀ p ∈ ps, Writable p) : ∃ recs stop,
    Holds (ps.flatMap CapPkt.record) recs stop ∧ if ∀ p ∈ ps, p.raw.pktLen.toNat ≤ 2034
      then stop = none ∧ ∀ buf, ErfRecord.views buf recs = ps.map CapPkt.readBack
          else stop = some .abort := by
  induction ps with
  | nil => exact ⟨[], none, .stop (.short (by simp)), by simp [ErfRecord.views]⟩
  | cons p ps ih =>
    have hp := h p (by simp)
    have hcons : (∀ x ∈ p :: ps, x.raw.pktLen.toNat ≤ 2034)
        ↔ p.raw.pktLen.toNat ≤ 2034 ∧ ∀ x ∈ ps, x.raw.pktLen.toNat ≤ 2034 := forall_mem_cons
    rw [flatMap_cons]
    by_cases hsmall : p.raw.pktLen.toNat ≤ 2034
    · obtain ⟨recs, stop, hholds, hviews⟩ := ih fun q hq => h q (by simp [hq])
      have hrecord : Holds ((p.toErf hp hsmall).encode ++ ps.flatMap CapPkt.record)
          (p.toErf hp hsmall :: recs) stop := .record (.inl rfl) hholds
      rw [CapPkt.encode_toErf] at hrecord
      refine ⟨_, stop, hrecord, ?_⟩
      by_cases hall : ∀ x ∈ ps, x.raw.pktLen.toNat ≤ 2034
      · rw [if_pos hall] at hviews
        rw [if_pos (hcons.mpr ⟨hsmall, hall⟩)]
        refine ⟨hviews.1, fun buf => ?_⟩
        rw [ErfRecord.views, CapPkt.view_toErf, hviews.2, map_cons]
      · rw [if_neg hall] at hviews
        rwa [if_neg fun hboth => hall (hcons.mp hboth).2]
    · refine ⟨[], _, .stop (stops_big hp (not_le.mp hsmall) _), ?_⟩
      rw [if_neg fun hboth => hsmall (hcons.mp hboth).1]

/-- **ERF files.**  What the writer writes for packets that fit is taken for libpcap exactly when
the first packet came 831111111 nanoseconds after a second, and is otherwise accepted exactly when
the first ten packets are in the order of time.  It is read back, each packet with four bytes more
and a nanosecond less, exactly when it is accepted and no packet has more than 2034 bytes. -/
theorem erf_files_iff {ps : List CapPkt} (h : ∀ p ∈ ps, Writable p) (q : CCapPktRaw)
    (hq : q.raw.length = maxPktSize) :
    ∃ w, CErfFileWriter.writeAll ps = some w ∧
      ((∃ r, createReader w.bytes 0 = some (.libpcap r)) ↔
        ∃ p ∈ ps.head?, p.raw.timeNsec = 831111111) ∧
      ((∃ r, createReader w.bytes 0 = some (.erf r))
        ↔ (∀ p ∈ ps.head?, p.raw.timeNsec ≠ 831111111) ∧ (ps.take 10).Pairwise TimeLe) ∧
      ((∃ r, createReader w.bytes 0 = some (.erf r)
          ∧ r.readAll (w.bytes.length + 1) q = .ok (ps.map CapPkt.readBack))
        ↔ (∀ p ∈ ps.head?, p.raw.timeNsec ≠ 831111111) ∧ (ps.take 10).Pairwise TimeLe
          ∧ ∀ p ∈ ps, p.raw.pktLen.toNat ≤ 2034) := by
  obtain ⟨hpcap, herf⟩ := createReader_written h
  refine ⟨_, CErfFileWriter.writeAll_bytes h, hpcap, ?_, ?_⟩
  · simp only [herf]
    simp
  · obtain ⟨recs, stop, hholds, hviews⟩ := holds_records h
    have hread := CErfFileReader.readAll_holds hholds ((ps.flatMap CapPkt.record).length + 1)
      ⟨0, (ps.flatMap CapPkt.record).length, ⟨ps.flatMap CapPkt.record, 0⟩⟩ q (Nat.lt_succ_self _)
        hq rfl
    have hall : CErfFileReader.readAll ((ps.flatMap CapPkt.record).length + 1)
        ⟨0, (ps.flatMap CapPkt.record).length, ⟨ps.flatMap CapPkt.record, 0⟩⟩ q =
          .ok (ps.map CapPkt.readBack)
        ↔ ∀ p ∈ ps, p.raw.pktLen.toNat ≤ 2034 := by
      rw [hread]
      split at hviews
      · rename_i hsmall
        rw [hviews.1, hviews.2]
        exact iff_of_true rfl hsmall
      · rename_i hbig
        rw [hviews]
        exact iff_of_false (by simp [finish]) hbig
    rw [← hall]
    constructor
    · rintro ⟨r, hr, hok⟩
      obtain ⟨hmagic, htime, rfl⟩ := (herf r).mp hr
      exact ⟨hmagic, htime, hok⟩
    · rintro ⟨hmagic, htime, hok⟩
      exact ⟨_, (herf _).mpr ⟨hmagic, htime, rfl⟩, hok⟩

/-- Two packets of the same second; the second one has the time that must not come first. -/
def twoPkts : List CapPkt := [⟨⟨1, 5, [1, 2, 3], 0, 3⟩, 0⟩, ⟨⟨1, 831111111, [4], 0, 1⟩, 0x300⟩]

/-- They are read back. -/
theorem erf_files_two : ∃ w r, CErfFileWriter.writeAll twoPkts = some w ∧
    createReader w.bytes 0 = some (.erf r)
    ∧ r.readAll (w.bytes.length + 1) .create
      = .ok [⟨[1, 2, 3, 0, 0, 0, 0], 7, 1, 4⟩, ⟨[4, 0, 0, 0, 0], 5, 1, 831111110⟩] := by
  have hwritable : ∀ p ∈ twoPkts, Writable p := by
    intro p hp
    simp only [twoPkts, mem_cons, not_mem_nil, or_false] at hp
    rcases hp with rfl | rfl
    · exact ⟨by decide, by decide, by decide⟩
    · exact ⟨by decide, by decide, by decide⟩
  obtain ⟨w, hw, -, -, hread⟩ := erf_files_iff hwritable .create length_replicate
  obtain ⟨r, hr, hok⟩ := hread.mpr ⟨by simp [twoPkts], by simp [twoPkts, TimeLe], by simp [twoPkts]⟩
  exact ⟨w, r, hw, hr, hok⟩

end Trex.Cap
