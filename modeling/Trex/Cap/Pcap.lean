/-
# Capture files

`LibPCapReader` and `LibPCapWriter` (`pcap.cpp`).  A libpcap file is a file header and a sequence of
records, each with a header of its own: the time, the number of bytes that were captured, the number
of bytes of the packet, and then the captured bytes.  The numbers are in the byte order of the
machine that wrote the file, which the reader tells from the magic number.

The reader takes as many bytes as the packet had.  So it returns the records of a file exactly when
every packet was captured whole (`capture_files_iff`); what the writer writes is so.
-/
import Trex.Lib.Bytes

namespace Trex.Cap

open Trex.Lib List

/-! ## 1. Packets and files -/

/-- `MAX_PKT_SIZE`. -/
def maxPktSize : Nat := 2048

/-- `READER_MAX_PACKET_SIZE`. -/
def readerMaxPacketSize : Nat := maxPktSize

/-- `CCapPktRaw`. -/
structure CCapPktRaw where
  timeSec : UInt32
  timeNsec : UInt32
  raw : List UInt8
  pktCnt : UInt64
  pktLen : UInt16

/-- The constructor without a size. -/
def CCapPktRaw.create : CCapPktRaw := ⟨0, 0, List.replicate maxPktSize 0xee, 0, 0⟩

/-- A `FILE` that is read. -/
structure CapFile where
  bytes : List UInt8
  pos : Nat
deriving DecidableEq

/-- `fread`: the bytes that are there, at most `n` of them. -/
def CapFile.fread (f : CapFile) (n : Nat) : List UInt8 × CapFile :=
  let data := (f.bytes.drop f.pos).take n
  (data, { f with pos := f.pos + data.length })

/-- `packet_file_header_t`. -/
structure PacketFileHeader where
  magic : UInt32
  versionMajor : UInt16
  versionMinor : UInt16
  thiszone : UInt32
  sigfigs : UInt32
  snaplen : UInt32
  linktype : UInt32

/-- `sf_pkthdr_t`, with its `pcaptime_t`: the field `msec` counts microseconds. -/
structure SfPkthdr where
  sec : UInt32
  msec : UInt32
  caplen : UInt32
  len : UInt32

/-- `MAGIC_NUM_FLIP`. -/
def magicNumFlip : UInt32 := 0xd4c3b2a1

/-- `MAGIC_NUM_DONT_FLIP`. -/
def magicNumDontFlip : UInt32 := 0xa1b2c3d4

/-- `PAL_NTOHL`. -/
def palNtohl (x : UInt32) : UInt32 :=
  (x &&& 0xff) <<< 24 ||| ((x >>> 8) &&& 0xff) <<< 16 ||| ((x >>> 16) &&& 0xff) <<< 8 |||
    ((x >>> 24) &&& 0xff)

/-! ## 2. The reader -/

/-- `LibPCapReader`. -/
structure LibPCapReader where
  isOpen : Bool
  isValid : Bool
  isFlip : Bool
  file : CapFile
  fileSize : Nat
  loops : Int

namespace LibPCapReader

/-- `init`: reads the file header. -/
def init (r : LibPCapReader) : Bool × LibPCapReader :=
  let (bytes, file) := r.file.fread 24
  match unpack [4, 2, 2, 4, 4, 4, 4] bytes with
  | some (magic :: _, _) =>
    if UInt32.ofNat magic = magicNumFlip
      then (true, { r with file := file, isFlip := true, isValid := true })
    else if UInt32.ofNat magic = magicNumDontFlip then
      (true, { r with file := file, isFlip := false, isValid := true })
    else (false, { r with file := file, isValid := false })
  | _ => (false, { r with file := file })

/-- `Create` for a file with the given bytes; `none` is `return false`. -/
def create (bytes : List UInt8) (loops : Int) : Option LibPCapReader :=
  let (ok, r) := init ⟨false, false, false, ⟨bytes, 0⟩, bytes.length, loops⟩
  if ok then some { r with isOpen := true } else none

/-- `flip`. -/
def flip (h : SfPkthdr) :
    SfPkthdr := ⟨palNtohl h.sec, palNtohl h.msec, palNtohl h.caplen, palNtohl h.len⟩

/-- Why reading all packets can end with no result. -/
inductive ReadStop
  /-- `exit(-1)`: the packet is too big -/
  | exit
  | outOfFuel
deriving DecidableEq, Repr

/-- The record header that `fread` filled, if it was all there. -/
def recordHeader (bytes : List UInt8) : Option SfPkthdr :=
  match unpack [4, 4, 4, 4] bytes with
  | some ([sec, msec, caplen, len], _) => some ⟨.ofNat sec, .ofNat msec, .ofNat caplen, .ofNat len⟩
  | _ => none

/-- The start of `ReadPacket` at the end of the file: another loop. -/
def rewindAtEnd (r : LibPCapReader) : LibPCapReader :=
  if r.file.pos = r.fileSize ∧ r.loops > 0 then (init { r with file := ⟨r.file.bytes, 0⟩ }).2 else r

/-- `ReadPacket`, after the record header. -/
def readData (r : LibPCapReader) (h : SfPkthdr) (p : CCapPktRaw) :
    Except ReadStop (Bool × LibPCapReader × CCapPktRaw) :=
  if h.len.toNat > readerMaxPacketSize then .error .exit
  else
    let (data, file) := r.file.fread h.len.toNat
    let p := { p with
      raw := data ++ p.raw.drop data.length
      pktLen := .ofNat data.length
      timeSec := h.sec
      timeNsec := h.msec * 1000 }
    if p.pktLen.toNat < h.len.toNat
      then .ok (false, { r with file := file }, { p with pktLen := 0 })
    else
      -- decrease packet limit count
      .ok (true, { r with file := file, loops := if r.loops > 0 then r.loops - 1 else r.loops },
        { p with pktCnt := p.pktCnt + 1 })

/-- `ReadPacket`. -/
def readPacket (r : LibPCapReader) (p : CCapPktRaw) :
    Except ReadStop (Bool × LibPCapReader × CCapPktRaw) :=
  if !r.isValid || !r.isOpen then .ok (false, r, p)
  else
    let r := rewindAtEnd r
    let (bytes, file) := r.file.fread 16
    match recordHeader bytes with
    | none => .ok (false, { r with file := file }, p)
    | some h => readData { r with file := file } (if r.isFlip then flip h else h) p

/-- What is seen of a packet: the captured bytes, how many there are, and the time. -/
structure PktView where
  bytes : List UInt8
  len : Nat
  sec : Nat
  nsec : Nat
deriving DecidableEq, Repr

/-- What is seen of a packet that was read, or that is to be written. -/
def view (p : CCapPktRaw) :
    PktView := ⟨p.raw.take p.pktLen.toNat, p.pktLen.toNat, p.timeSec.toNat, p.timeNsec.toNat⟩

/-- `ReadPacket` until it returns false. -/
def readAll : Nat → LibPCapReader → CCapPktRaw → Except ReadStop (List PktView)
  | 0, _, _ => .error .outOfFuel
  | fuel + 1, r, p =>
    match readPacket r p with
    | .error e => .error e
    | .ok (false, _, _) => .ok []
    | .ok (true, r', p') => (readAll fuel r' p').map (view p' :: ·)

/-- All packets of a file, read once; `none` when the file cannot be opened. -/
def readFile (bytes : List UInt8) (p : CCapPktRaw) : Option (Except ReadStop (List PktView)) :=
  (create bytes 0).map fun r => readAll (bytes.length + 1) r p

end LibPCapReader

/-! ## 3. The writer -/

/-- `LibPCapWriter`, with the bytes of its file. -/
structure LibPCapWriter where
  isOpen : Bool
  bytes : List UInt8
  timestamp : UInt64
  pktCount : UInt32

namespace LibPCapWriter

/-- The bytes of a file header. -/
def headerBytes (h : PacketFileHeader) : List UInt8 :=
  pack [(4, h.magic.toNat), (2, h.versionMajor.toNat), (2, h.versionMinor.toNat),
    (4, h.thiszone.toNat), (4, h.sigfigs.toNat), (4, h.snaplen.toNat), (4, h.linktype.toNat)]

/-- The bytes of a record header. -/
def recordBytes (h : SfPkthdr) : List UInt8 :=
  pack [(4, h.sec.toNat), (4, h.msec.toNat), (4, h.caplen.toNat), (4, h.len.toNat)]

/-- The header that `init` writes. -/
def fileHeader : PacketFileHeader := ⟨magicNumDontFlip, 2, 4, 0, 0, 2000, 1⟩

/-- `Create`, with `init`, when the file can be written. -/
def create : LibPCapWriter := ⟨true, headerBytes fileHeader, 0, 0⟩

/-- `write_packet`, when everything is written. -/
def writePacket (w : LibPCapWriter) (p : CCapPktRaw) : Bool × LibPCapWriter :=
  if !w.isOpen then (false, w)
  else
    let h : SfPkthdr := ⟨p.timeSec, p.timeNsec / 1000, p.pktLen.toUInt32, p.pktLen.toUInt32⟩
    (true, { w with
      bytes := w.bytes ++ (recordBytes h ++ p.raw.take p.pktLen.toNat)
      timestamp := w.timestamp + 1
      pktCount := w.pktCount + 1 })

/-- The file that is written for a list of packets. -/
def writeAll (pkts : List CCapPktRaw) :
    LibPCapWriter := pkts.foldl (fun w p => (w.writePacket p).2) create

end LibPCapWriter

/-! ## 4. Well-formed files -/

/-- The byte order of the machine that wrote a file. -/
inductive ByteOrder
  | little
  | big
deriving DecidableEq, Repr

/-- The number that a little-endian machine reads where `n` was written. -/
def ByteOrder.field (o : ByteOrder) (w n : Nat) : Nat × Nat :=
  match o with
  | .little => (w, n)
  | .big => (w, bswap w n)

/-- A record whose captured bytes fit the raw packet buffer. -/
structure PcapRecord where
  sec : UInt32
  usec : UInt32
  data : List UInt8
  /-- the length of the packet on the wire -/
  len : UInt32
  /-- the time fits 32 bits in nanoseconds, as every time below a second does -/
  usec_fits : usec.toNat * 1000 < 2 ^ 32
  captured : data.length ≤ len.toNat
  fits : data.length ≤ readerMaxPacketSize

/-- The bytes of a record. -/
def PcapRecord.encode (o : ByteOrder) (rec : PcapRecord) : List UInt8 :=
  pack [o.field 4 rec.sec.toNat, o.field 4 rec.usec.toNat, o.field 4 rec.data.length,
    o.field 4 rec.len.toNat] ++ rec.data

/-- What is to be seen of a record. -/
def PcapRecord.view (rec : PcapRecord) : LibPCapReader.PktView :=
  ⟨rec.data, rec.data.length, rec.sec.toNat, rec.usec.toNat * 1000⟩

/-- The packet was captured whole. -/
def PcapRecord.Whole (rec : PcapRecord) : Prop := rec.data.length = rec.len.toNat

/-- A libpcap file. -/
structure PcapFile where
  order : ByteOrder
  versionMajor : UInt16
  versionMinor : UInt16
  thiszone : UInt32
  sigfigs : UInt32
  snaplen : UInt32
  linktype : UInt32
  records : List PcapRecord

/-- The bytes of a file header. -/
def PcapFile.header (f : PcapFile) : List UInt8 :=
  pack [f.order.field 4 magicNumDontFlip.toNat, f.order.field 2 f.versionMajor.toNat,
    f.order.field 2 f.versionMinor.toNat, f.order.field 4 f.thiszone.toNat,
      f.order.field 4 f.sigfigs.toNat,
    f.order.field 4 f.snaplen.toNat, f.order.field 4 f.linktype.toNat]

/-- The bytes of a file. -/
def PcapFile.encode (f : PcapFile) :
    List UInt8 := f.header ++ f.records.flatMap (PcapRecord.encode f.order)

/-! ## 5. The byte order -/

theorem mul_or {b m : Nat} (a k : Nat) (hm : m = 2 ^ k) (hb : b < m) : a * m ||| b = a * m + b := by
  subst hm
  rw [← Nat.shiftLeft_eq, Nat.shiftLeft_add_eq_or_of_lt hb]

/-- **`PAL_NTOHL` swaps the bytes.** -/
theorem palNtohl_eq (x : UInt32) : palNtohl x = UInt32.ofNat (bswap 4 x.toNat) := by
  have hmask : ∀ n : Nat, n &&& 255 = n % 256 := fun n => Nat.and_two_pow_sub_one_eq_mod n 8
  have hbyte : ∀ n : Nat, n % 256 < 256 := fun n => Nat.mod_lt n (by decide)
  apply UInt32.toNat_inj.mp
  simp only [palNtohl, UInt32.toNat_or, UInt32.toNat_shiftLeft, UInt32.toNat_and,
    UInt32.toNat_shiftRight, UInt32.toNat_ofNat', bswap_four]
  simp only [UInt32.reduceToNat, Nat.reduceMod, hmask, Nat.shiftRight_eq_div_pow, Nat.shiftLeft_eq,
    Nat.reducePow]
  -- the four bytes
  generalize x.toNat % 256 = a, hbyte x.toNat = ha
  generalize x.toNat / 256 % 256 = b, hbyte (x.toNat / 256) = hb
  generalize x.toNat / 65536 % 256 = c, hbyte (x.toNat / 65536) = hc
  generalize x.toNat / 16777216 % 256 = d, hbyte (x.toNat / 16777216) = hd
  have h1 : a * 16777216 % 4294967296 ||| b * 65536 % 4294967296 = (a * 256 + b) * 65536 := by
    rw [Nat.mod_eq_of_lt (show a * 16777216 < 4294967296 by omega),
      Nat.mod_eq_of_lt (show b * 65536 < 4294967296 by omega),
      mul_or a 24 (show 16777216 = 2 ^ 24 from rfl) (show b * 65536 < 16777216 by omega)]
    omega
  have h2 : (a * 256 + b) * 65536 ||| c * 256 % 4294967296 = ((a * 256 + b) * 256 + c) * 256 := by
    rw [Nat.mod_eq_of_lt (show c * 256 < 4294967296 by omega),
      mul_or _ 16 (show 65536 = 2 ^ 16 from rfl) (show c * 256 < 65536 by omega)]
    omega
  rw [h1, h2, mul_or _ 8 (show 256 = 2 ^ 8 from rfl) (show d < 256 by omega),
    Nat.mod_eq_of_lt (by omega)]
  omega

/-- A 32-bit field as it is read, swapped if the file says so, is what was written. -/
theorem ByteOrder.read_field (o : ByteOrder) (v : UInt32) :
    (if o = .big then palNtohl (.ofNat ((o.field 4 v.toNat).2 % 256 ^ 4))
      else .ofNat ((o.field 4 v.toNat).2 % 256 ^ 4)) = v := by
  have hv : v.toNat % 256 ^ 4 = v.toNat := Nat.mod_eq_of_lt v.toNat_lt
  cases o with
  | little => simp [field]
  | big =>
    simp only [field, if_true]
    rw [palNtohl_eq, UInt32.toNat_ofNat', show 2 ^ 32 = 256 ^ 4 from rfl, bswap_mod, bswap_mod,
      bswap_bswap, hv, UInt32.ofNat_toNat]

/-! ## 6. One record -/

/-- What is left of a file after `fread`. -/
theorem CapFile.fread_rest (f : CapFile) (n : Nat) : (f.fread n).1 = (f.bytes.drop f.pos).take n
    ∧ (f.fread n).2.bytes.drop (f.fread n).2.pos = (f.bytes.drop f.pos).drop n := by
  refine ⟨rfl, ?_⟩
  change f.bytes.drop (f.pos + ((f.bytes.drop f.pos).take n).length) = _
  rw [← drop_drop, length_take, drop_eq_drop_min, min_eq_left (min_le_right _ _),
    ← drop_eq_drop_min]

namespace LibPCapReader

/-- A reader of a file in a byte order that is not rewound, in front of some bytes. -/
structure At (o : ByteOrder) (rest : List UInt8) (r : LibPCapReader) : Prop where
  isOpen : r.isOpen = true
  isValid : r.isValid = true
  isFlip : r.isFlip = decide (o = .big)
  loops : r.loops ≤ 0
  rest : r.file.bytes.drop r.file.pos = rest

variable {o : ByteOrder} {rest : List UInt8} {r : LibPCapReader}

theorem At.rewindAtEnd (h : At o rest r) : rewindAtEnd r = r :=
  if_neg fun hloop => absurd hloop.2 (not_lt.mpr h.loops)

/-- The header of a record, swapped if the file says so. -/
theorem recordHeader_encode (rec : PcapRecord) (rest : List UInt8) : ∃ h,
    recordHeader ((rec.encode o ++ rest).take 16) = some h
      ∧ (if o = .big then flip h else h) = ⟨rec.sec, rec.usec, .ofNat rec.data.length,
          rec.len⟩ := by
  have hfields : (rec.encode o ++ rest).take 16 = pack [o.field 4 rec.sec.toNat,
      o.field 4 rec.usec.toNat, o.field 4 rec.data.length, o.field 4 rec.len.toNat] := by
    rw [PcapRecord.encode, append_assoc]
    refine take_left' ?_
    rw [length_pack]
    cases o <;> rfl
  have hdata : (UInt32.ofNat rec.data.length).toNat = rec.data.length :=
    Nat.mod_eq_of_lt (lt_of_le_of_lt rec.fits (by decide))
  have hwidths : [o.field 4 rec.sec.toNat, o.field 4 rec.usec.toNat, o.field 4 rec.data.length,
      o.field 4 rec.len.toNat].map Prod.fst = [4, 4, 4, 4] := by
    cases o <;> rfl
  have hread := unpack_pack [o.field 4 rec.sec.toNat, o.field 4 rec.usec.toNat,
    o.field 4 rec.data.length, o.field 4 rec.len.toNat] []
  have hfst : ∀ n, (o.field 4 n).1 = 4 := fun n => by cases o <;> rfl
  rw [hwidths, append_nil] at hread
  simp only [map_cons, map_nil, hfst] at hread
  rw [hfields, recordHeader, hread]
  refine ⟨_, rfl, ?_⟩
  have hsec := o.read_field rec.sec
  have husec := o.read_field rec.usec
  have hcap := o.read_field (UInt32.ofNat rec.data.length)
  have hlen := o.read_field rec.len
  rw [hdata] at hcap
  cases o with
  | little =>
    simp only [reduceCtorEq, if_false] at hsec husec hcap hlen ⊢
    rw [hsec, husec, hcap, hlen]
  | big =>
    simp only [if_true] at hsec husec hcap hlen ⊢
    rw [flip, hsec, husec, hcap, hlen]

variable {rec : PcapRecord} {h : SfPkthdr}

/-- The header of a record is read, and what comes next is the data. -/
theorem readPacket_record (h : At o (rec.encode o ++ rest) r) (p : CCapPktRaw) : ∃ r',
    At o (rec.data ++ rest) r' ∧ readPacket r p
      = readData r' ⟨rec.sec, rec.usec, .ofNat rec.data.length, rec.len⟩ p := by
  obtain ⟨hfile, hleft⟩ := r.file.fread_rest 16
  obtain ⟨hdr, hread, hflip⟩ := recordHeader_encode (o := o) rec rest
  rw [h.rest] at hfile hleft
  have hdrop : (rec.encode o ++ rest).drop 16 = rec.data ++ rest := by
    rw [PcapRecord.encode, append_assoc]
    refine drop_left' ?_
    rw [length_pack]
    cases o <;> rfl
  refine ⟨{ r with file := (r.file.fread 16).2 }, ⟨h.isOpen, h.isValid, h.isFlip, h.loops, ?_⟩, ?_⟩
  · exact hleft.trans hdrop
  · unfold readPacket
    simp [h.isValid, h.isOpen, h.rewindAtEnd, hfile, hread, h.isFlip, hflip]

/-- At the end of the file `ReadPacket` returns false. -/
theorem readPacket_end (h : At o [] r) (p : CCapPktRaw) :
    ∃ r' p', readPacket r p = .ok (false, r', p') := by
  obtain ⟨hfile, -⟩ := r.file.fread_rest 16
  rw [h.rest] at hfile
  refine ⟨{ r with file := (r.file.fread 16).2 }, p, ?_⟩
  unfold readPacket
  simp only [h.isValid, h.isOpen, Bool.not_true, Bool.or_self, Bool.false_eq_true, if_false,
    h.rewindAtEnd, hfile, take_nil]
  rfl

/-- **A record whose packet was captured whole is read.** -/
theorem readPacket_whole (hwhole : rec.Whole) (h : At o (rec.encode o ++ rest) r) (p : CCapPktRaw) :
    ∃ r' p', readPacket r p = .ok (true, r', p') ∧ At o rest r' ∧ view p' = rec.view := by
  obtain ⟨r1, h₁, heq⟩ := readPacket_record h p
  have hlen : rec.len.toNat = rec.data.length := hwhole.symm
  obtain ⟨hdata, hleft⟩ := r1.file.fread_rest rec.data.length
  rw [h₁.rest] at hdata hleft
  rw [take_left' rfl] at hdata
  rw [drop_left' rfl] at hleft
  have hsmall : ¬ rec.data.length > readerMaxPacketSize := not_lt.mpr rec.fits
  have hlen16 : (UInt16.ofNat rec.data.length).toNat = rec.data.length :=
    Nat.mod_eq_of_lt (lt_of_le_of_lt rec.fits (by decide))
  have hloops : ¬ r1.loops > 0 := not_lt.mpr h₁.loops
  have hnsec : (rec.usec * 1000).toNat = rec.usec.toNat * 1000 := by
    rw [UInt32.toNat_mul]
    exact Nat.mod_eq_of_lt rec.usec_fits
  rw [heq]
  unfold readData
  simp only [hlen, hsmall, if_false, hdata, hlen16, lt_irrefl, hloops]
  refine ⟨_, _, rfl, ⟨h₁.isOpen, h₁.isValid, h₁.isFlip, h₁.loops, hleft⟩, ?_⟩
  simp only [view, PcapRecord.view, hlen16, take_left' rfl, hnsec]

/-- **A record whose packet was cut is not**: what `ReadPacket` returns, if it returns a packet, has
the length of the packet on the wire. -/
theorem readPacket_cut (hcut : ¬ rec.Whole) (h : At o (rec.encode o ++ rest) r) (p : CCapPktRaw)
    {r' : LibPCapReader} {p' : CCapPktRaw} (hread : readPacket r p = .ok (true, r', p')) :
    view p' ≠ rec.view := by
  obtain ⟨r1, h₁, heq⟩ := readPacket_record h p
  rw [heq] at hread
  unfold readData at hread
  split at hread
  · cases hread
  · simp only at hread
    split at hread
    · cases hread
    · rename_i hall
      cases hread
      intro hview
      have hlen := congrArg PktView.len hview
      simp only [view, PcapRecord.view] at hlen
      rw [hlen] at hall
      exact hcut (le_antisymm rec.captured (not_lt.mp hall))

/-! ## 7. A whole file -/

/-- **The records are returned exactly when all of them were captured whole.** -/
theorem readAll_records :
    ∀ (recs : List PcapRecord) (fuel : Nat) (r : LibPCapReader) (p : CCapPktRaw),
    recs.length < fuel → At o (recs.flatMap (PcapRecord.encode o)) r →
    (readAll fuel r p = .ok (recs.map PcapRecord.view) ↔ ∀ rec ∈ recs, rec.Whole) := by
  intro recs
  induction recs with
  | nil =>
    intro fuel r p hfuel h
    obtain ⟨fuel, rfl⟩ := Nat.exists_eq_succ_of_ne_zero (Nat.ne_of_gt hfuel)
    obtain ⟨r', p', hread⟩ := readPacket_end h p
    rw [readAll, hread]
    exact iff_of_true rfl fun rec hrec => absurd hrec not_mem_nil
  | cons rec recs ih =>
    intro fuel r p hfuel h
    obtain ⟨fuel, rfl⟩ := Nat.exists_eq_succ_of_ne_zero (Nat.ne_of_gt (Nat.zero_lt_of_lt hfuel))
    rw [length_cons] at hfuel
    rw [flatMap_cons] at h
    rw [forall_mem_cons, map_cons, readAll]
    by_cases hwhole : rec.Whole
    · obtain ⟨r', p', hread, h', hview⟩ := readPacket_whole hwhole h p
      have hrest := ih fuel r' p' (by omega) h'
      rw [hread, and_iff_right hwhole, ← hrest]
      simp only [hview]
      cases readAll fuel r' p' with
      | error e => exact iff_of_false (fun hm => nomatch hm) (fun hm => nomatch hm)
      | ok views =>
        constructor
        · intro hm
          rw [tail_eq_of_cons_eq (Except.ok.inj hm)]
        · intro hm
          rw [Except.ok.inj hm]
          rfl
    · refine iff_of_false (fun hall => ?_) fun hall => hwhole hall.1
      split at hall
      · cases hall
      · cases hall
      · rename_i r' p' hread
        cases hrest : readAll fuel r' p' with
        | error e =>
          rw [hrest] at hall
          cases hall
        | ok views =>
          rw [hrest] at hall
          exact readPacket_cut hwhole h p hread (head_eq_of_cons_eq (Except.ok.inj hall))

/-- The file is opened, and its byte order told. -/
theorem create_encode (f : PcapFile) : ∃ r, create f.encode 0 = some r
    ∧ At f.order (f.records.flatMap (PcapRecord.encode f.order)) r := by
  have hfst : ∀ w n, (f.order.field w n).1 = w := fun w n => by cases f.order <;> rfl
  have hlen : f.header.length = 24 := by
    rw [PcapFile.header, length_pack]
    simp only [map_cons, map_nil, hfst]
    rfl
  obtain ⟨hfile, hleft⟩ := (CapFile.mk f.encode 0).fread_rest 24
  have hhead : ((CapFile.mk f.encode 0).fread 24).1 = f.header := by
    rw [hfile, drop_zero, PcapFile.encode]
    exact take_left' hlen
  have hrest : ((CapFile.mk f.encode 0).fread 24).2.bytes.drop
      ((CapFile.mk f.encode 0).fread 24).2.pos = f.records.flatMap (PcapRecord.encode f.order) := by
    rw [hleft, drop_zero, PcapFile.encode]
    exact drop_left' hlen
  have hread := unpack_pack [f.order.field 4 magicNumDontFlip.toNat,
    f.order.field 2 f.versionMajor.toNat,
    f.order.field 2 f.versionMinor.toNat, f.order.field 4 f.thiszone.toNat,
      f.order.field 4 f.sigfigs.toNat,
    f.order.field 4 f.snaplen.toNat, f.order.field 4 f.linktype.toNat] []
  simp only [map_cons, map_nil, hfst, append_nil] at hread
  have hmagic : UInt32.ofNat ((f.order.field 4 magicNumDontFlip.toNat).2 % 256 ^ 4)
      = if f.order = .big then magicNumFlip else magicNumDontFlip := by
    cases f.order <;> decide
  have hne : magicNumDontFlip ≠ magicNumFlip := by decide
  have hinit : init ⟨false, false, false, ⟨f.encode, 0⟩, f.encode.length, 0⟩
      = (true, ⟨false, true, decide (f.order = .big), ((CapFile.mk f.encode 0).fread 24).2,
          f.encode.length, 0⟩) := by
    unfold init
    simp only [hhead]
    rw [PcapFile.header, hread]
    simp only [hmagic]
    by_cases ho : f.order = .big
    · simp [ho]
    · simp [ho, hne]
  refine ⟨⟨true, true, decide (f.order = .big), ((CapFile.mk f.encode 0).fread 24).2,
    f.encode.length, 0⟩, ?_, ⟨rfl, rfl, rfl, le_rfl, hrest⟩⟩
  rw [create, hinit]
  rfl

theorem length_encode (o : ByteOrder) (rec : PcapRecord) : 16 ≤ (rec.encode o).length := by
  have hfst : ∀ w n, (o.field w n).1 = w := fun w n => by cases o <;> rfl
  rw [PcapRecord.encode, length_append, length_pack]
  simp only [map_cons, map_nil, hfst, sum_cons, sum_nil]
  omega

/-- There are no more records than bytes. -/
theorem length_records_le (o : ByteOrder) : ∀ recs : List PcapRecord,
    recs.length ≤ (recs.flatMap (PcapRecord.encode o)).length
  | [] => le_rfl
  | rec :: recs => by
    rw [flatMap_cons, length_append, length_cons]
    have hrec := length_encode o rec
    have hrecs := length_records_le o recs
    omega

/-- **Reading a well-formed file.** -/
theorem readFile_iff (f : PcapFile) (p : CCapPktRaw) :
    readFile f.encode p = some (.ok (f.records.map PcapRecord.view)) ↔
        ∀ rec ∈ f.records, rec.Whole := by
  obtain ⟨r, hr, h⟩ := create_encode f
  have hfuel : f.records.length < f.encode.length + 1 := by
    have hle := length_records_le f.order f.records
    rw [PcapFile.encode, length_append]
    omega
  rw [readFile, hr, Option.map_some, Option.some.injEq]
  exact readAll_records f.records _ r p hfuel h

/-- A record header that was read was all there. -/
theorem recordHeader_length {bytes : List UInt8} (hread : recordHeader bytes = some h) :
    16 ≤ bytes.length := by
  unfold recordHeader at hread
  split at hread
  · rename_i hunpack
    have hle := unpack_length hunpack
    simpa using hle
  · cases hread

theorem readData_true {r r' : LibPCapReader} {p p' : CCapPktRaw} (hloops : r.loops ≤ 0)
    (hread : readData r h p = .ok (true, r', p')) : r'.loops ≤ 0
      ∧ r'.file.bytes.drop r'.file.pos = (r.file.bytes.drop r.file.pos).drop h.len.toNat := by
  unfold readData at hread
  split at hread
  · cases hread
  · simp only at hread
    split at hread
    · cases hread
    · cases hread
      refine ⟨?_, (r.file.fread_rest h.len.toNat).2⟩
      simp only [not_lt.mpr hloops, if_false]
      exact hloops

theorem readData_error {r : LibPCapReader} {p : CCapPktRaw} {e : ReadStop}
    (hread : readData r h p = .error e) : e = .exit := by
  unfold readData at hread
  split at hread
  · cases hread
    rfl
  · simp only at hread
    split at hread
    · cases hread
    · cases hread

/-- A packet that was read took its header from the file. -/
theorem readPacket_advances {r r' : LibPCapReader} {p p' : CCapPktRaw} (hloops : r.loops ≤ 0)
    (hread : readPacket r p = .ok (true, r', p')) : r'.loops ≤ 0
      ∧ (r'.file.bytes.drop r'.file.pos).length < (r.file.bytes.drop r.file.pos).length := by
  have hkeep : rewindAtEnd r = r := if_neg fun hloop => absurd hloop.2 (not_lt.mpr hloops)
  unfold readPacket at hread
  split at hread
  · cases hread
  · simp only [hkeep] at hread
    split at hread
    · cases hread
    · rename_i h hheader
      have h16 := recordHeader_length hheader
      obtain ⟨hfile, hleft⟩ := r.file.fread_rest 16
      rw [hfile, length_take] at h16
      obtain ⟨hloops', hdata⟩ :=
        readData_true (r := { r with file := (r.file.fread 16).2 }) hloops hread
      refine ⟨hloops', ?_⟩
      rw [hdata, hleft, length_drop, length_drop]
      omega

/-- **Reading ends**, on every file. -/
theorem readAll_ends : ∀ (fuel : Nat) (r : LibPCapReader) (p : CCapPktRaw), r.loops ≤ 0 →
    (r.file.bytes.drop r.file.pos).length < fuel → readAll fuel r p ≠ .error .outOfFuel := by
  intro fuel
  induction fuel with
  | zero => exact fun _ _ _ hlt => absurd hlt (Nat.not_lt_zero _)
  | succ fuel ih =>
    intro r p hloops hlt hrun
    rw [readAll] at hrun
    split at hrun
    · rename_i e hread
      obtain rfl := Except.error.inj hrun
      unfold readPacket at hread
      split at hread
      · cases hread
      · simp only at hread
        split at hread
        · cases hread
        · exact nomatch readData_error hread
    · cases hrun
    · rename_i r' p' hread
      obtain ⟨hloops', hless⟩ := readPacket_advances hloops hread
      refine ih r' p' hloops' (by omega) ?_
      cases hrest : readAll fuel r' p' with
      | ok views =>
        rw [hrest] at hrun
        cases hrun
      | error e =>
        rw [hrest] at hrun
        exact hrun

end LibPCapReader

/-! ## 8. What the writer writes -/

/-- A packet that can be written and read back: its bytes are in its buffer and fit the buffer of
the reader, and its time is in microseconds. -/
structure MicroPkt where
  pkt : CCapPktRaw
  buffer : pkt.pktLen.toNat ≤ pkt.raw.length
  fits : pkt.pktLen.toNat ≤ readerMaxPacketSize
  micro : pkt.timeNsec.toNat % 1000 = 0

namespace MicroPkt

/-- The record of a packet. -/
def record (m : MicroPkt) : PcapRecord where
  sec := m.pkt.timeSec
  usec := m.pkt.timeNsec / 1000
  data := m.pkt.raw.take m.pkt.pktLen.toNat
  len := m.pkt.pktLen.toUInt32
  usec_fits := by
    rw [UInt32.toNat_div]
    exact lt_of_le_of_lt (Nat.div_mul_le_self _ _) m.pkt.timeNsec.toNat_lt
  captured := by
    rw [length_take, UInt16.toNat_toUInt32]
    exact min_le_left _ _
  fits := by
    rw [length_take]
    exact le_trans (min_le_left _ _) m.fits

theorem length_data (m : MicroPkt) : m.record.data.length = m.pkt.pktLen.toNat := by
  rw [record, length_take, min_eq_left m.buffer]

theorem whole (m : MicroPkt) : m.record.Whole := by
  rw [PcapRecord.Whole, length_data, record, UInt16.toNat_toUInt32]

/-- What is to be seen of the record is what is seen of the packet. -/
theorem view_record (m : MicroPkt) : m.record.view = LibPCapReader.view m.pkt := by
  have hnsec : (m.pkt.timeNsec / 1000).toNat * 1000 = m.pkt.timeNsec.toNat := by
    rw [UInt32.toNat_div]
    exact Nat.div_mul_cancel (Nat.dvd_of_mod_eq_zero m.micro)
  rw [PcapRecord.view, length_data, LibPCapReader.view]
  simp only [record, hnsec]

end MicroPkt

namespace LibPCapWriter

/-- The bytes of the packets come one after the other. -/
theorem writeAll_bytes : ∀ (ms : List MicroPkt) (w : LibPCapWriter), w.isOpen = true →
    ((ms.map MicroPkt.pkt).foldl (fun w p => (w.writePacket p).2) w).bytes
      = w.bytes ++ (ms.map MicroPkt.record).flatMap (PcapRecord.encode .little)
  | [], w, _ => by simp
  | m :: ms, w, hopen => by
    have hrec : recordBytes ⟨m.pkt.timeSec, m.pkt.timeNsec / 1000, m.pkt.pktLen.toUInt32,
        m.pkt.pktLen.toUInt32⟩ ++ m.pkt.raw.take m.pkt.pktLen.toNat = m.record.encode .little := by
      rw [PcapRecord.encode, m.length_data]
      simp [recordBytes, ByteOrder.field, MicroPkt.record]
    rw [map_cons, foldl_cons, writeAll_bytes ms _ (by simp [writePacket, hopen])]
    simp [writePacket, hopen, hrec]

/-- **The writer writes a well-formed file.** -/
theorem writeAll_encode (ms : List MicroPkt) : (writeAll (ms.map MicroPkt.pkt)).bytes
    = PcapFile.encode ⟨.little, 2, 4, 0, 0, 2000, 1, ms.map MicroPkt.record⟩ := by
  rw [writeAll, writeAll_bytes ms create rfl]
  rfl

end LibPCapWriter

/-- **Capture files.**  Of every well-formed file of either byte order the reader returns exactly
the records, and then the end, if and only if every packet was captured whole; and of every file
that the writer wrote, for packets with times in microseconds, it returns the packets. -/
theorem capture_files_iff (p : CCapPktRaw) :
    (∀ f : PcapFile, LibPCapReader.readFile f.encode p = some (.ok (f.records.map PcapRecord.view))
      ↔ ∀ rec ∈ f.records, rec.data.length = rec.len.toNat)
    ∧ ∀ ms : List MicroPkt, LibPCapReader.readFile
      (LibPCapWriter.writeAll (ms.map MicroPkt.pkt)).bytes p
      = some (.ok (ms.map fun m => LibPCapReader.view m.pkt)) := by
  refine ⟨fun f => LibPCapReader.readFile_iff f p, fun ms => ?_⟩
  rw [LibPCapWriter.writeAll_encode]
  have hwhole : ∀ rec ∈ ms.map MicroPkt.record, rec.Whole := by
    intro rec hrec
    obtain ⟨m, -, rfl⟩ := mem_map.mp hrec
    exact m.whole
  have hviews : (ms.map MicroPkt.record).map PcapRecord.view = ms.map fun m =>
      LibPCapReader.view m.pkt := by
    rw [map_map]
    exact map_congr_left fun m _ => m.view_record
  rw [← hviews]
  exact (LibPCapReader.readFile_iff ⟨.little, 2, 4, 0, 0, 2000, 1, ms.map MicroPkt.record⟩ p).mpr
    hwhole

/-- A packet of three bytes at the start of a buffer, and one of a byte, a second later. -/
def twoPackets : List MicroPkt :=
  [⟨⟨1, 5000, [0xA, 0xB, 0xC, 0xEE], 0, 3⟩, by decide, by decide, by decide⟩,
    ⟨⟨2, 5000, [0xD], 1, 1⟩, by decide, by decide, by decide⟩]

theorem capture_files_iff_twoPackets :
    LibPCapReader.readFile (LibPCapWriter.writeAll (twoPackets.map MicroPkt.pkt)).bytes .create
      = some (.ok [⟨[0xA, 0xB, 0xC], 3, 1, 5000⟩, ⟨[0xD], 1, 2, 5000⟩]) :=
  (capture_files_iff .create).2 twoPackets

/-- A packet of 60 bytes, of which 4 were captured. -/
def cutRecord : PcapRecord := ⟨1, 5, [1, 2, 3, 4], 60, by decide, by decide, by decide⟩

/-- **A cut packet is lost**, and with it the end of the file. -/
theorem cut_packet_is_lost :
    LibPCapReader.readFile (PcapFile.encode ⟨.little, 2, 4, 0, 0, 65535, 1, [cutRecord]⟩) .create =
      some (.ok []) ∧ [cutRecord].map PcapRecord.view = [⟨[1, 2, 3, 4], 4, 1, 5000⟩] := by
  refine ⟨by decide +kernel, rfl⟩

end Trex.Cap
