/-
# What the ERF reader accepts

`CErfFileReader` on any file.  The packets that it returns are those of a sequence of complete
records from the start of the file, and what comes after them decides how the reading ends
(`readAll_iff`):

* it just ends where there is no further record of that kind;
* it ends the program at a record that is too big;
* at a record that has a length of 16 or 17 the size of the packet is a negative number, which
  `fread` takes for a very large one, and the rest of the file is written to the buffer of the
  packet.

The length of a packet is that on the wire.  When fewer bytes were captured, the bytes behind them
are those that were in the buffer before (`ErfRecord.load`).
-/
import Trex.Cap.Erf

namespace Trex.Cap

open Trex.Lib List

/-! ## 1. Headers -/

theorem palNtohs_eq (x : UInt16) : palNtohs x = UInt16.ofNat (bswap 2 x.toNat) := by
  have hmask : ∀ n : Nat, n &&& 255 = n % 256 := fun n => Nat.and_two_pow_sub_one_eq_mod n 8
  have hbswap : bswap 2 x.toNat = x.toNat / 256 % 256 + 256 * (x.toNat % 256) := by
    simp only [bswap, toBytes, ofBytes, reverse_cons, reverse_nil, nil_append, cons_append,
      UInt8.toNat_ofNat']
    omega
  apply UInt16.toNat_inj.mp
  rw [hbswap]
  simp only [palNtohs, UInt16.toNat_or, UInt16.toNat_shiftLeft, UInt16.toNat_and,
    UInt16.toNat_shiftRight, UInt16.toNat_ofNat']
  simp only [UInt16.reduceToNat, Nat.reduceMod, hmask, Nat.shiftRight_eq_div_pow, Nat.shiftLeft_eq,
    Nat.reducePow]
  have hhigh : x.toNat % 256 * 256 < 65536 := by omega
  rw [Nat.or_comm, Nat.mod_eq_of_lt hhigh, mul_or (m := 256) _ 8 rfl (Nat.mod_lt _ (by decide))]
  omega

/-- **Both ends swap the bytes.** -/
@[simp] theorem palNtohs_palNtohs (x : UInt16) : palNtohs (palNtohs x) = x := by
  have hx := x.toNat_lt
  have hb : bswap 2 x.toNat < 2 ^ 16 := by
    have h := ofBytes_lt (toBytes 2 x.toNat).reverse
    rwa [length_reverse, length_toBytes] at h
  rw [palNtohs_eq, palNtohs_eq, UInt16.toNat_ofNat', Nat.mod_eq_of_lt hb, bswap_bswap,
    Nat.mod_eq_of_lt (show x.toNat < 256 ^ 2 from hx), UInt16.ofNat_toNat]

@[simp] theorem ErfHeader.length_bytes (h : ErfHeader) : h.bytes.length = 16 := by
  rw [ErfHeader.bytes, length_pack]
  rfl

/-- A header is read as it was written. -/
@[simp] theorem erfHeader_bytes (h : ErfHeader) : erfHeader h.bytes = some h := by
  have hread := unpack_pack [(8, h.ts.toNat), (1, h.type.toNat), (1, h.flags.toNat),
    (2, h.rlen.toNat), (2, h.lctr.toNat), (2, h.wlen.toNat)] []
  simp only [map_cons, map_nil, append_nil] at hread
  have hts : h.ts.toNat % 256 ^ 8 = h.ts.toNat := Nat.mod_eq_of_lt h.ts.toNat_lt
  have htype : h.type.toNat % 256 ^ 1 = h.type.toNat := Nat.mod_eq_of_lt h.type.toNat_lt
  have hflags : h.flags.toNat % 256 ^ 1 = h.flags.toNat := Nat.mod_eq_of_lt h.flags.toNat_lt
  have hrlen : h.rlen.toNat % 256 ^ 2 = h.rlen.toNat := Nat.mod_eq_of_lt h.rlen.toNat_lt
  have hlctr : h.lctr.toNat % 256 ^ 2 = h.lctr.toNat := Nat.mod_eq_of_lt h.lctr.toNat_lt
  have hwlen : h.wlen.toNat % 256 ^ 2 = h.wlen.toNat := Nat.mod_eq_of_lt h.wlen.toNat_lt
  rw [hts, htype, hflags, hrlen, hlctr, hwlen] at hread
  rw [erfHeader, ErfHeader.bytes, hread]
  simp

variable {bytes : List UInt8}

/-- Any 16 bytes are a header. -/
theorem erfHeader_eq_some (h : 16 ≤ bytes.length) :
    ∃ hdr : ErfHeader, bytes.take 16 = hdr.bytes := by
  have hlen : [8, 1, 1, 2, 2, 2].sum ≤ (bytes.take 16).length := by
    rw [length_take, min_eq_left h]
    rfl
  obtain ⟨⟨fields, rest⟩, hunpack⟩ := Option.isSome_iff_exists.mp (unpack_isSome hlen)
  obtain ⟨hfields, hpack⟩ := pack_unpack hunpack
  obtain ⟨ts, type, flags, rlen, lctr, wlen, rfl⟩ : ∃ ts type flags rlen lctr wlen,
      fields = [ts, type, flags, rlen, lctr, wlen] := by
    rcases fields with _ | ⟨ts,
      _ | ⟨type, _ | ⟨flags, _ | ⟨rlen, _ | ⟨lctr, _ | ⟨wlen, _ | ⟨_, _⟩⟩⟩⟩⟩⟩⟩ <;> simp at hfields
    exact ⟨ts, type, flags, rlen, lctr, wlen, rfl⟩
  have hrest : rest = [] := by
    have hall := congrArg List.length hpack
    rw [length_append, length_pack, length_take, min_eq_left h] at hall
    exact length_eq_zero_iff.mp (Nat.add_left_cancel hall)
  refine ⟨⟨.ofNat ts, .ofNat type, .ofNat flags, .ofNat rlen, .ofNat lctr, .ofNat wlen⟩, ?_⟩
  have hts : toBytes 8 (UInt64.ofNat ts).toNat = toBytes 8 ts := toBytes_mod 8 ts
  have hbyte : ∀ n, toBytes 1 (UInt8.ofNat n).toNat = toBytes 1 n := toBytes_mod 1
  have hshort : ∀ n, toBytes 2 (UInt16.ofNat n).toNat = toBytes 2 n := toBytes_mod 2
  rw [← hpack, hrest, append_nil]
  simp only [ErfHeader.bytes, pack, zip_cons_cons, flatMap_cons, hts, hbyte, hshort]
  rfl

theorem erfHeader_eq_none (h : bytes.length < 16) :
    erfHeader bytes = none := by
  rw [erfHeader]
  split
  · rename_i hunpack
    exact absurd (unpack_length hunpack) (not_le.mpr h)
  · rfl

/-- An `int` from 0 on is the same `size_t`. -/
theorem sizeOfInt_toInt32 {x : UInt32} (hx : x.toNat < 2 ^ 31) : sizeOfInt x.toInt32 = x.toNat := by
  have hmsb : x.toBitVec.msb = false := BitVec.msb_eq_false_iff_two_mul_lt.mpr (by
    rw [UInt32.toNat_toBitVec]
    omega)
  change (x.toBitVec.signExtend 64).toNat = x.toNat
  rw [BitVec.signExtend_eq_setWidth_of_msb_false hmsb, BitVec.toNat_setWidth, UInt32.toNat_toBitVec]
  omega

/-- Every fraction is a number of nanoseconds. -/
theorem fracToNsec_isSome (frac : UInt32) : ∃ nsec, fracToNsec frac = some nsec := by
  have hscaled : (0 : ℚ) ≤ frac.toNat * (1000000000 / 4294967296) := by positivity
  have hnonneg : 0 ≤ double (frac.toNat * (1000000000 / 4294967296)) := roundTo_nonneg hscaled
  have hround : double (frac.toNat * (1000000000 / 4294967296)) ≤ _ := roundTo_le hscaled
  have hfrac : (frac.toNat : ℚ) < 4294967296 := by exact_mod_cast frac.toNat_lt
  rw [fracToNsec, double_scale, toUInt32]
  exact ⟨_, if_pos ⟨by linarith, by norm_num at hround ⊢; linarith⟩⟩

/-! ## 2. Records -/

/-- What is left of a file. -/
def CapFile.rest (f : CapFile) : List UInt8 := f.bytes.drop f.pos

theorem CapFile.fst_fread (f : CapFile) (n : Nat) : (f.fread n).1 = f.rest.take n := rfl

@[simp] theorem CapFile.rest_fread (f : CapFile) (n : Nat) :
    (f.fread n).2.rest = f.rest.drop n := (f.fread_rest n).2

@[simp] theorem CapFile.rest_seekCur (f : CapFile) (n : Nat) :
    (f.seekCur n).rest = f.rest.drop n := by
  rw [rest, rest, drop_drop]
  rfl

namespace ErfHeader

/-- The length of the record. -/
def recordLen (h : ErfHeader) : Nat := (palNtohs h.rlen).toNat

/-- The length of the packet. -/
def wireLen (h : ErfHeader) : Nat := (palNtohs h.wlen).toNat

/-- An Ethernet packet, and no pad bits. -/
def Valid (h : ErfHeader) : Prop := h.type = typeEth ∧ h.flags &&& 0xc0 = 0

/-- The record, or the packet, is too big; a record that is shorter than its header is. -/
def TooBig (h : ErfHeader) : Prop :=
  h.recordLen < 16 ∨ maxErfPacket + 16 ≤ h.recordLen ∨ maxErfPacket < h.wireLen

instance (h : ErfHeader) : Decidable h.Valid := inferInstanceAs (Decidable (_ ∧ _))

instance (h : ErfHeader) : Decidable h.TooBig := inferInstanceAs (Decidable (_ ∨ _ ∨ _))

/-- A record that is not too big fits the buffer. -/
theorem recordLen_range {h : ErfHeader} (hbig : ¬ h.TooBig) :
    16 ≤ h.recordLen ∧ h.recordLen < maxPktSize + 16 := by
  have hmax : maxErfPacket = maxPktSize := rfl
  unfold TooBig at hbig
  omega

/-- The nanoseconds of the time. -/
def nsec (h : ErfHeader) : UInt32 := (fracToNsec h.ts.toUInt32).getD 0

theorem fracToNsec_nsec (h : ErfHeader) : fracToNsec h.ts.toUInt32 = some h.nsec := by
  obtain ⟨nsec, hnsec⟩ := fracToNsec_isSome h.ts.toUInt32
  rw [ErfHeader.nsec, hnsec, Option.getD_some]

end ErfHeader

/-- A complete record of which the reader returns the packet. -/
structure ErfRecord where
  header : ErfHeader
  pad : List UInt8
  data : List UInt8
  valid : header.Valid
  length_data : header.recordLen = data.length + 18
  fits : ¬ header.TooBig
  wire : 0 < header.wireLen

namespace ErfRecord

/-- The bytes of the record. -/
def encode (rec : ErfRecord) : List UInt8 := rec.header.bytes ++ rec.pad ++ rec.data

/-- Two bytes are skipped, also when the file ends there. -/
def Delimited (rec : ErfRecord) (rest : List UInt8) : Prop :=
  rec.pad.length = 2 ∨ rec.pad.length < 2 ∧ rec.data = [] ∧ rest = []

theorem Delimited.drop {rec : ErfRecord} {rest : List UInt8} (h : rec.Delimited rest) :
    (rec.pad ++ (rec.data ++ rest)).drop 2 = rec.data ++ rest := by
  rcases h with hlen | ⟨hlen, hdata, hrest⟩
  · exact drop_left' hlen
  · rw [hdata, hrest]
    exact drop_eq_nil_of_le (by simpa using hlen.le)

/-- The buffer of the packet afterwards. -/
def load (rec : ErfRecord) (buf : List UInt8) : List UInt8 := rec.data ++ buf.drop rec.data.length

/-- What is seen of the packet. -/
def view (rec : ErfRecord) (buf : List UInt8) : LibPCapReader.PktView where
  bytes := (rec.load buf).take rec.header.wireLen
  len := rec.header.wireLen
  sec := (rec.header.ts >>> 32).toUInt32.toNat
  nsec := rec.header.nsec.toNat

/-- What is seen of the packets of a sequence of records that are read to the same buffer. -/
def views : List UInt8 → List ErfRecord → List LibPCapReader.PktView
  | _, [] => []
  | buf, rec :: recs => rec.view buf :: views (rec.load buf) recs

end ErfRecord

/-- Where the reading of a file stops, and why it does not return if it does not. -/
inductive Stops : List UInt8 → Option ErfStop → Prop
  | short {rest} : rest.length < 16 → Stops rest none
  | invalid {h : ErfHeader} {body} : ¬ h.Valid → Stops (h.bytes ++ body) none
  | tooBig {h : ErfHeader} {body} : h.Valid → h.TooBig → Stops (h.bytes ++ body) (some .abort)
  | negative {h : ErfHeader} {body} : h.Valid → ¬ h.TooBig → h.recordLen < 18 →
      body.length ≤ maxPktSize + 2 →
      Stops (h.bytes ++ body) none
  | overrun {h : ErfHeader} {body} : h.Valid → ¬ h.TooBig → h.recordLen < 18 →
      maxPktSize + 2 < body.length →
      Stops (h.bytes ++ body) (some .overrun)
  | cut {h : ErfHeader} {body} : h.Valid → ¬ h.TooBig → 18 ≤ h.recordLen →
      body.length - 2 < h.recordLen - 18 →
      Stops (h.bytes ++ body) none
  | empty {h : ErfHeader} {body} : h.Valid → ¬ h.TooBig → 18 ≤ h.recordLen →
      h.recordLen - 18 ≤ body.length - 2 →
      h.wireLen = 0 → Stops (h.bytes ++ body) none

/-- What is in a file: records, up to where reading stops. -/
inductive Holds : List UInt8 → List ErfRecord → Option ErfStop → Prop
  | stop {rest stop} : Stops rest stop → Holds rest [] stop
  | record {rec : ErfRecord} {rest recs stop} : rec.Delimited rest → Holds rest recs stop →
      Holds (rec.encode ++ rest) (rec :: recs) stop

/-- What reading returns. -/
def finish (views : List LibPCapReader.PktView) :
    Option ErfStop → Except ErfStop (List LibPCapReader.PktView)
  | none => .ok views
  | some e => .error e

/-- **There is a record, or reading stops.** -/
theorem record_or_stops (rest : List UInt8) :
    (∃ (rec : ErfRecord) (rest' : List UInt8), rest = rec.encode ++ rest' ∧ rec.Delimited rest')
      ∨ ∃ stop, Stops rest stop := by
  rcases Nat.lt_or_ge rest.length 16 with hshort | hlong
  · exact .inr ⟨_, .short hshort⟩
  · obtain ⟨h, hhead⟩ := erfHeader_eq_some hlong
    obtain ⟨body, hbody⟩ : ∃ body, body = rest.drop 16 := ⟨_, rfl⟩
    obtain rfl : rest = h.bytes ++ body := by rw [← hhead, hbody, take_append_drop]
    by_cases hvalid : h.Valid
    · by_cases hbig : h.TooBig
      · exact .inr ⟨_, .tooBig hvalid hbig⟩
      · rcases Nat.lt_or_ge h.recordLen 18 with hneg | hpos
        · rcases Nat.lt_or_ge (maxPktSize + 2) body.length with hmany | hfew
          · exact .inr ⟨_, .overrun hvalid hbig hneg hmany⟩
          · exact .inr ⟨_, .negative hvalid hbig hneg hfew⟩
        · rcases Nat.lt_or_ge (body.length - 2) (h.recordLen - 18) with hcut | hall
          · exact .inr ⟨_, .cut hvalid hbig hpos hcut⟩
          · rcases Nat.eq_zero_or_pos h.wireLen with hempty | hwire
            · exact .inr ⟨_, .empty hvalid hbig hpos hall hempty⟩
            · have hdata : h.recordLen = ((body.drop 2).take (h.recordLen - 18)).length + 18 := by
                rw [length_take, length_drop]
                omega
              refine .inl ⟨⟨h, body.take 2, (body.drop 2).take (h.recordLen - 18), hvalid, hdata,
                hbig, hwire⟩, (body.drop 2).drop (h.recordLen - 18), ?_, ?_⟩
              · simp [ErfRecord.encode]
              · rcases Nat.lt_or_ge body.length 2 with hlast | hmore
                · have hnil : body.drop 2 = [] := drop_eq_nil_of_le hlast.le
                  exact .inr ⟨by simpa using hlast, by simp [hnil], by simp [hnil]⟩
                · exact .inl (by simpa using hmore)
    · exact .inr ⟨_, .invalid hvalid⟩

/-- **There is something in every file.** -/
theorem exists_holds (rest : List UInt8) : ∃ recs stop, Holds rest recs stop := by
  induction hn : rest.length using Nat.strong_induction_on generalizing rest with
  | _ n ih =>
    rcases record_or_stops rest with ⟨rec, rest', rfl, hdelim⟩ | ⟨stop, hstop⟩
    · have hless : rest'.length < n := by
        rw [← hn]
        simp only [ErfRecord.encode, length_append, ErfHeader.length_bytes]
        omega
      obtain ⟨recs, stop, hholds⟩ := ih _ hless rest' rfl
      exact ⟨_, _, .record hdelim hholds⟩
    · exact ⟨_, _, .stop hstop⟩

/-! ## 3. One packet -/

section Header

variable {h : ErfHeader} {body : List UInt8} {f : CapFile} {q : CCapPktRaw}

/-- `packet_size`, which wraps around when the record is shorter than its header. -/
theorem toNat_packetSize (h : ErfHeader) : ((palNtohs h.rlen).toUInt32 - 16).toNat
    = if h.recordLen < 16 then 2 ^ 32 - 16 + h.recordLen else h.recordLen - 16 := by
  have hlt := (palNtohs h.rlen).toNat_lt
  have h16 : UInt32.toNat 16 = 16 := rfl
  rw [UInt32.toNat_sub, UInt16.toNat_toUInt32, ErfHeader.recordLen, h16]
  generalize (palNtohs h.rlen).toNat = len at hlt
  split <;> omega

theorem tooBig_iff (h : ErfHeader) : ((palNtohs h.rlen).toUInt32 - 16).toNat ≥ maxErfPacket
    ∨ (palNtohs h.wlen).toNat > maxErfPacket ↔ h.TooBig := by
  have hlt : h.recordLen < 2 ^ 16 := (palNtohs h.rlen).toNat_lt
  have hmax : maxErfPacket = 2048 := rfl
  rw [toNat_packetSize, ErfHeader.TooBig, ErfHeader.wireLen, hmax]
  by_cases hshort : h.recordLen < 16
  · rw [if_pos hshort]
    exact iff_of_true (.inl (by omega)) (.inl hshort)
  · rw [if_neg hshort]
    omega

/-- `realpkt_size` of a record that is not too big: without the two bytes that were skipped. -/
theorem realpktSize (hbig : ¬ h.TooBig) : sizeOfInt ((palNtohs h.rlen).toUInt32 - 16 - 2).toInt32
    = if h.recordLen < 18 then 2 ^ 64 - 18 + h.recordLen else h.recordLen - 18 := by
  have hsize := toNat_packetSize h
  have hrange := ErfHeader.recordLen_range hbig
  have hmax : maxPktSize = 2048 := rfl
  rw [if_neg (not_lt.mpr hrange.1)] at hsize
  generalize (palNtohs h.rlen).toUInt32 - 16 = packetSize at hsize
  split
  · rename_i hneg
    -- the size is -2 or -1
    rcases (show h.recordLen = 16 ∨ h.recordLen = 17 by omega) with h16 | h17
    · obtain rfl : packetSize = 0 := UInt32.toNat_inj.mp (by rw [hsize, h16]; rfl)
      rw [h16]
      rfl
    · obtain rfl : packetSize = 1 := UInt32.toNat_inj.mp (by rw [hsize, h17]; rfl)
      rw [h17]
      rfl
  · rename_i hpos
    have h2 : (2 : UInt32) ≤ packetSize := by
      rw [UInt32.le_iff_toNat_le, hsize]
      exact (show 2 ≤ h.recordLen - 16 by omega)
    have hreal : (packetSize - 2).toNat = h.recordLen - 18 := by
      rw [UInt32.toNat_sub_of_le _ _ h2, hsize, Nat.sub_sub]
      rfl
    rw [sizeOfInt_toInt32 (by omega), hreal]

/-- `erf_read` reads the header first. -/
theorem erfRead_header (hf : f.rest = h.bytes ++ body) :
    erfRead f q = erfReadData (f.fread 16).2 h q ∧ (f.fread 16).2.rest = body := by
  have hhead : (f.fread 16).1 = h.bytes := by
    rw [CapFile.fst_fread, hf]
    exact take_left' h.length_bytes
  refine ⟨?_, ?_⟩
  · simp [erfRead, hhead]
  · rw [CapFile.rest_fread, hf]
    exact drop_left' h.length_bytes

theorem erfReadData_invalid (hvalid : ¬ h.Valid) : erfReadData f h q = .ok (-1, f, q) := by
  have hcheck : h.type ≠ typeEth ∨ h.flags &&& 0xc0 ≠ 0 := not_and_or.mp hvalid
  unfold erfReadData
  exact if_pos hcheck

theorem erfReadData_tooBig (hvalid : h.Valid) (hbig : h.TooBig) :
    erfReadData f h q = .error .abort := by
  have hcheck : ¬ (h.type ≠ typeEth ∨ h.flags &&& 0xc0 ≠ 0) :=
    not_or.mpr ⟨not_not.mpr hvalid.1, not_not.mpr hvalid.2⟩
  have hsize := (tooBig_iff h).mpr hbig
  unfold erfReadData
  exact (if_neg hcheck).trans (if_pos hsize)

/-- What `erf_read` does with a record that is not too big, of which it takes `n` bytes. -/
theorem erfRead_valid (hf : f.rest = h.bytes ++ body) (hvalid : h.Valid) (hbig : ¬ h.TooBig)
    {n : Nat} (hn : sizeOfInt ((palNtohs h.rlen).toUInt32 - 16 - 2).toInt32 = n) :
    ∃ f', f'.rest = (body.drop 2).drop n ∧
    erfRead f q = if q.raw.length < ((body.drop 2).take n).length then .error .overrun
      else if ((body.drop 2).take n).length = n then
        .ok (h.wireLen, f', { q with
          raw := (body.drop 2).take n ++ q.raw.drop ((body.drop 2).take n).length
          timeSec := (h.ts >>> 32).toUInt32
          timeNsec := h.nsec })
      else .ok (-1, f', { q with
          raw := (body.drop 2).take n ++ q.raw.drop ((body.drop 2).take n).length }) := by
  obtain ⟨hread, hbody⟩ := erfRead_header (q := q) hf
  have hsize := (tooBig_iff h).not.mpr hbig
  refine ⟨(((f.fread 16).2.seekCur 2).fread
    n).2, by simp [← hbody], ?_⟩
  rw [hread]
  simp only [erfReadData, hvalid.1, hvalid.2, hsize, hn, h.fracToNsec_nsec, CapFile.fst_fread,
    CapFile.rest_seekCur, hbody, ErfHeader.wireLen, ne_eq, not_true_eq_false, or_self, if_false]

/-- When the bytes are not all there, it fails. -/
theorem erfRead_partial (hf : f.rest = h.bytes ++ body) (hvalid : h.Valid) (hbig : ¬ h.TooBig)
    {n : Nat} (hn : sizeOfInt ((palNtohs h.rlen).toUInt32 - 16 - 2).toInt32 = n)
    (hspace : body.length - 2 ≤ q.raw.length) (hcut : body.length - 2 < n) :
    ∃ f' q', erfRead f q = .ok (-1, f', q') := by
  obtain ⟨f', -, hread⟩ := erfRead_valid (q := q) hf hvalid hbig hn
  have hlen : ((body.drop 2).take n).length = body.length - 2 := by
    rw [length_take, length_drop]
    omega
  rw [hlen, if_neg (not_lt.mpr hspace), if_neg hcut.ne] at hread
  exact ⟨_, _, hread⟩

end Header

/-- The buffer keeps its size. -/
theorem ErfRecord.length_load (rec : ErfRecord) {buf : List UInt8}
    (hbuf : buf.length = maxPktSize) :
    (rec.load buf).length = maxPktSize := by
  have hdata := rec.length_data
  have hfits := ErfHeader.recordLen_range rec.fits
  rw [ErfRecord.load, length_append, length_drop]
  omega

namespace CErfFileReader

variable {r : CErfFileReader} {q : CCapPktRaw} {rest : List UInt8}

/-- **The packet of a record is returned.** -/
theorem readPacket_record {rec : ErfRecord} (hdelim : rec.Delimited rest)
    (hq : q.raw.length = maxPktSize) (hr : r.handle.rest = rec.encode ++ rest) :
    ∃ r' q', readPacket r q = .ok (true, r', q')
      ∧ r'.handle.rest = rest ∧ q'.raw = rec.load q.raw ∧
          LibPCapReader.view q' = rec.view q.raw := by
  have hlen := rec.length_data
  have hload := rec.length_load hq
  rw [ErfRecord.load, length_append, length_drop] at hload
  have hn := realpktSize rec.fits
  rw [if_neg (by omega), hlen, Nat.add_sub_cancel] at hn
  rw [ErfRecord.encode, append_assoc, append_assoc] at hr
  obtain ⟨f', hf', hread⟩ := erfRead_valid (q := q) hr rec.valid rec.fits hn
  rw [hdelim.drop, drop_left' rfl] at hf'
  rw [hdelim.drop, take_left' rfl, if_neg (by omega), if_pos rfl] at hread
  have hwire : (0 : ℤ) < (rec.header.wireLen : ℤ) := by exact_mod_cast rec.wire
  have hlt : rec.header.wireLen < 2 ^ 16 := (palNtohs rec.header.wlen).toNat_lt
  have hpktLen : (UInt16.ofInt (rec.header.wireLen : ℤ)).toNat = rec.header.wireLen := by
    rw [UInt16.ofInt]
    simp only [UInt16.toNat_ofNat']
    omega
  rw [readPacket, hread]
  simp only [Except.map, gt_iff_lt, hwire, if_true]
  refine ⟨_, _, rfl, hf', rfl, ?_⟩
  simp only [LibPCapReader.view, ErfRecord.view, ErfRecord.load, hpktLen]

/-- **Where reading stops**, it ends or does not return. -/
theorem readPacket_stops {stop : Option ErfStop} (hq : q.raw.length = maxPktSize)
    (hstop : Stops rest stop) (hr : r.handle.rest = rest) :
    (stop = none ∧ ∃ r' q', readPacket r q = .ok (false, r', q'))
      ∨ ∃ e, stop = some e ∧ readPacket r q = .error e := by
  cases hstop with
  | short hshort =>
    have hnone : erfHeader (r.handle.fread 16).1 = none := by
      refine erfHeader_eq_none ?_
      rw [CapFile.fst_fread, hr, length_take]
      omega
    refine .inl ⟨rfl, ?_⟩
    simp [readPacket, erfRead, hnone, Except.map]
  | invalid hvalid =>
    refine .inl ⟨rfl, ?_⟩
    rw [readPacket, (erfRead_header hr).1, erfReadData_invalid hvalid]
    exact ⟨_, _, rfl⟩
  | tooBig hvalid hbig =>
    refine .inr ⟨_, rfl, ?_⟩
    rw [readPacket, (erfRead_header hr).1, erfReadData_tooBig hvalid hbig]
    rfl
  | negative hvalid hbig hneg hfew =>
    have hn := realpktSize hbig
    rw [if_pos hneg] at hn
    have hmax : maxPktSize = 2048 := rfl
    obtain ⟨f', q', hread⟩ := erfRead_partial (q := q) hr hvalid hbig hn (by omega) (by omega)
    refine .inl ⟨rfl, ?_⟩
    rw [readPacket, hread]
    exact ⟨_, _, rfl⟩
  | overrun hvalid hbig hneg hmany =>
    have hn := realpktSize hbig
    rw [if_pos hneg] at hn
    have hmax : maxPktSize = 2048 := rfl
    obtain ⟨f', -, hread⟩ := erfRead_valid (q := q) hr hvalid hbig hn
    refine .inr ⟨_, rfl, ?_⟩
    rw [readPacket, hread, if_pos]
    · rfl
    · rw [length_take, length_drop]
      omega
  | @cut h body hvalid hbig hpos hcut =>
    have hn := realpktSize hbig
    rw [if_neg (by omega)] at hn
    have hfits := ErfHeader.recordLen_range hbig
    obtain ⟨f', q', hread⟩ := erfRead_partial (q := q) hr hvalid hbig hn (by omega) hcut
    refine .inl ⟨rfl, ?_⟩
    rw [readPacket, hread]
    exact ⟨_, _, rfl⟩
  | @empty h body hvalid hbig hpos hall hempty =>
    have hn := realpktSize hbig
    rw [if_neg (by omega)] at hn
    obtain ⟨f', -, hread⟩ := erfRead_valid (q := q) hr hvalid hbig hn
    refine .inl ⟨rfl, ?_⟩
    have hfits := ErfHeader.recordLen_range hbig
    have hlen : ((body.drop 2).take (h.recordLen - 18)).length = h.recordLen - 18 := by
      rw [length_take, length_drop]
      omega
    rw [hlen, if_neg (by omega), if_pos rfl, hempty] at hread
    rw [readPacket, hread]
    exact ⟨_, _, rfl⟩

end CErfFileReader

/-! ## 4. A whole file -/

namespace CErfFileReader

/-- What reading returns is what is in the file. -/
theorem readAll_holds {recs : List ErfRecord} {stop : Option ErfStop} (h : Holds bytes recs stop) :
    ∀ (fuel : Nat) (r : CErfFileReader) (q : CCapPktRaw), bytes.length < fuel →
    q.raw.length = maxPktSize → r.handle.rest = bytes →
    readAll fuel r q = finish (ErfRecord.views q.raw recs) stop := by
  induction h with
  | stop hstop =>
    intro fuel r q hfuel hq hr
    obtain ⟨fuel, rfl⟩ := Nat.exists_eq_add_one.mpr (Nat.zero_lt_of_lt hfuel)
    rw [readAll]
    rcases readPacket_stops hq hstop hr with ⟨rfl, r', q', hread⟩ | ⟨e, rfl, hread⟩
    · rw [hread]
      rfl
    · rw [hread]
      rfl
  | @record rec rest recs stop hdelim _ ih =>
    intro fuel r q hfuel hq hr
    obtain ⟨fuel, rfl⟩ := Nat.exists_eq_add_one.mpr (Nat.zero_lt_of_lt hfuel)
    obtain ⟨r', q', hread, hr', hraw, hview⟩ := readPacket_record hdelim hq hr
    have hless : rest.length < fuel := by
      simp only [ErfRecord.encode, length_append, ErfHeader.length_bytes] at hfuel
      omega
    have hrest := ih fuel r' q' hless (by rw [hraw, rec.length_load hq]) hr'
    rw [readAll, hread]
    simp only
    rw [hrest, hview, hraw]
    cases stop <;> rfl

end CErfFileReader

/-- **What the ERF reader accepts.**  Reading ends on every file.  It returns the packets of the
records that are in the file up to where it stops, and there it ends, or the program ends, or the
buffer of the packet is overrun. -/
theorem erf_readAll_iff (bytes : List UInt8) (loops : Int) (q : CCapPktRaw)
    (hq : q.raw.length = maxPktSize) (res : Except ErfStop (List LibPCapReader.PktView)) :
    CErfFileReader.readAll (bytes.length + 1) ⟨loops, bytes.length, ⟨bytes, 0⟩⟩ q = res
      ↔ ∃ recs stop, Holds bytes recs stop ∧ res = finish (ErfRecord.views q.raw recs) stop := by
  have hread : ∀ {recs stop}, Holds bytes recs stop → CErfFileReader.readAll (bytes.length + 1)
      ⟨loops, bytes.length, ⟨bytes, 0⟩⟩ q = finish (ErfRecord.views q.raw recs) stop := fun h =>
    CErfFileReader.readAll_holds h _ _ q (Nat.lt_succ_self _) hq drop_zero
  constructor
  · rintro rfl
    obtain ⟨recs, stop, hholds⟩ := exists_holds bytes
    exact ⟨recs, stop, hholds, hread hholds⟩
  · rintro ⟨recs, stop, hholds, rfl⟩
    exact hread hholds

/-- The header of a record that is as long as the header. -/
def bareHeader : ErfHeader := ⟨0, typeEth, 4, palNtohs 16, 0, palNtohs 60⟩

/-- **The rest of the file behind it overruns the buffer**, when it is longer than the buffer. -/
theorem erf_readAll_overrun :
    CErfFileReader.readAll ((bareHeader.bytes ++ List.replicate 2051 0).length + 1)
      ⟨0, (bareHeader.bytes ++ List.replicate 2051 0).length,
        ⟨bareHeader.bytes ++ List.replicate 2051 0, 0⟩⟩
      .create = .error .overrun :=
  (erf_readAll_iff (bareHeader.bytes ++ List.replicate 2051 0) 0 .create length_replicate
    (.error .overrun)).mpr
    ⟨[], some .overrun, .stop
      (.overrun (by decide) (by decide) (by decide) (by rw [length_replicate]; decide)), rfl⟩

end Trex.Cap
