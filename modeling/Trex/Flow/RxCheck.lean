/-
# Inserting the RX-check header

`CFlowPktInfo::do_generate_new_mbuf_rxcheck` (`bp_sim.cpp`) puts the header of `Flow.Stamp` behind
the base IP header of a packet: what is behind the base header moves to a new mbuf that is linked
behind the first one, with the RX-check header in front of it.  So the options that an IPv4 header
already had are behind the new one.

* The first mbuf keeps its bytes when it is trimmed.  The checksum is summed over the whole old
  header, options included, where it was, and over the new option (`updateCheckSum2`).
* The IP header is expected at 14; the offset at which the packet is cut is the one that was parsed.
* The TTL, or the hop limit, becomes `TTL_RESERVE_DUPLICATE`.
* `insertRxCheck_carries` says what the frame is; the generated packets of a template are such
  packets (`generated_insertable`).
-/
import Mathlib.Data.List.GetD
import Trex.Flow.Stamp
import Trex.Flow.TcpSeq
import Trex.Net.Checksum

namespace Trex.Rx

open Trex.Lib

/-! ## 1. The bytes of the header -/

/-- The fields of `CRx_check_header`, with their sizes. -/
def CRxCheckHeader.fields (rxh : CRxCheckHeader) : List (Nat × Nat) :=
  [(1, rxh.optionType.toNat), (1, rxh.optionLen.toNat), (2, rxh.magic.toNat),
    (4, rxh.timeStamp.toNat),
    (8, rxh.flowId.toNat), (2, rxh.pktId.toNat), (2, rxh.flowSize.toNat), (1, rxh.flags.toNat),
    (1, rxh.templateId.toNat), (2, rxh.agingSec.toNat)]

/-- The header in memory. -/
def CRxCheckHeader.bytes (rxh : CRxCheckHeader) : List UInt8 := pack rxh.fields

/-- The header that is read through a `CRx_check_header *`. -/
def CRxCheckHeader.ofBytes (p : List UInt8) : Option CRxCheckHeader :=
  (unpack [1, 1, 2, 4, 8, 2, 2, 1, 1, 2] p).bind fun
    | ([optionType, optionLen, magic, timeStamp, flowId, pktId, flowSize, flags, templateId,
        agingSec], _) =>
      some {
        optionType := .ofNat optionType, optionLen := .ofNat optionLen, magic := .ofNat magic
        timeStamp := .ofNat timeStamp, flowId := .ofNat flowId, pktId := .ofNat pktId, flowSize :=
          .ofNat flowSize
        flags := .ofNat flags, templateId := .ofNat templateId, agingSec := .ofNat agingSec }
    | _ => none

@[simp] theorem CRxCheckHeader.length_bytes (rxh : CRxCheckHeader) :
    rxh.bytes.length = rxCheckLen := length_pack _

/-- The first byte is the type of the option. -/
theorem CRxCheckHeader.first_bytes (rxh : CRxCheckHeader) :
    rxh.bytes.getD 0 0 = rxh.optionType := by
  show UInt8.ofNat rxh.optionType.toNat = rxh.optionType
  exact UInt8.ofNat_toNat

/-- **What was written is read back.** -/
theorem CRxCheckHeader.ofBytes_bytes (rxh : CRxCheckHeader) (rest : List UInt8) :
    CRxCheckHeader.ofBytes (rxh.bytes ++ rest) = some rxh := by
  have hread := unpack_pack rxh.fields rest
  have hsizes : rxh.fields.map Prod.fst = [1, 1, 2, 4, 8, 2, 2, 1, 1, 2] := rfl
  rw [hsizes] at hread
  unfold CRxCheckHeader.ofBytes CRxCheckHeader.bytes
  rw [hread]
  have h8 : ∀ x : UInt8, UInt8.ofNat (x.toNat % 256 ^ 1) = x := fun x => by
    have hlt : x.toNat < 256 ^ 1 := x.toNat_lt
    rw [Nat.mod_eq_of_lt hlt, UInt8.ofNat_toNat]
  have h16 : ∀ x : UInt16, UInt16.ofNat (x.toNat % 256 ^ 2) = x := fun x => by
    have hlt : x.toNat < 256 ^ 2 := x.toNat_lt
    rw [Nat.mod_eq_of_lt hlt, UInt16.ofNat_toNat]
  have h32 : ∀ x : UInt32, UInt32.ofNat (x.toNat % 256 ^ 4) = x := fun x => by
    have hlt : x.toNat < 256 ^ 4 := x.toNat_lt
    rw [Nat.mod_eq_of_lt hlt, UInt32.ofNat_toNat]
  have h64 : ∀ x : UInt64, UInt64.ofNat (x.toNat % 256 ^ 8) = x := fun x => by
    have hlt : x.toNat < 256 ^ 8 := x.toNat_lt
    rw [Nat.mod_eq_of_lt hlt, UInt64.ofNat_toNat]
  simp only [CRxCheckHeader.fields, List.map_cons, List.map_nil, Option.bind_some, h8, h16, h32,
    h64]

end Trex.Rx

namespace Trex.Flow

open Trex.Lib Trex.Net Trex.Pal
open Trex.Rx (CRxCheckHeader rxCheckLen)

/-! ## 2. The mbufs of a packet -/

/-- The mbufs of a packet: the data of the first one, with what is behind it in its buffer, and the
data of those that are linked behind it. -/
structure MbufChain where
  data : Mem
  dataLen : Nat
  next : List (List UInt8)
  pktLen : Nat
  nbSegs : Nat

/-- The packet as it is sent. -/
def MbufChain.frame (m : MbufChain) : List UInt8 := m.data.read 0 m.dataLen ++ m.next.flatten

/-- What the code reads of the node and of its `m_pkt_info`. -/
structure RxCheckNode where
  flow : FlowInstance
  lp : CFlowPktInfo
  singlePort : Bool
  /-- `is_rxcheck_const_ts` -/
  constTs : Bool
  /-- `os_get_hr_tick_32` -/
  tick : UInt32

/-- The header that is written.  `nextHdr` is the next header of an IPv6 packet. -/
def RxCheckNode.header (node : RxCheckNode) (nextHdr : Option UInt8) : CRxCheckHeader :=
  rxCheckHeader node.flow node.singlePort nextHdr (if node.constTs then 0xB3B2B1B0 else node.tick)
    node.lp

/-- Without a next header it is an IPv4 option. -/
theorem RxCheckNode.optionType_header (node : RxCheckNode) :
    (node.header none).optionType = 0x57 := by
  unfold RxCheckNode.header rxCheckHeader stampNumbers
  split <;> rfl

/-- `updateCheckSum2`, of a header and of what is in another buffer. -/
def updateCheckSum2 (m : Mem) (ipv4 len1 : Nat) (m2 : Mem) (data2 len2 : Nat) : Option Mem :=
  let m0 := m.store (ipv4 + 10) 2 0
  ((sumWords m0 ipv4 len1 0).bind fun sum => sumBytes m2 data2 len2 sum).map fun sum =>
    m0.store (ipv4 + 10) 2 (foldedChecksum sum)

/-- The IPv4 header, but for the checksum. -/
def announceIpv4 (m : Mem) (ipv4 : Nat) : Mem :=
  let m := setHeaderLength m ipv4 (getHeaderLength m ipv4 + rxCheckLen)
  let m := setField16 m (ipv4 + 2) (getTotalLength m ipv4 + rxCheckLen)
  setField8 m (ipv4 + 8) ttlReserveDuplicate

/-- The IPv6 header; the type is `RX_CHECK_V6_OPT_TYPE`. -/
def announceIpv6 (m : Mem) (ipv6 : Nat) : Mem :=
  let m := setField8 m (ipv6 + 6) 0x3C
  let m := setField8 m (ipv6 + 7) ttlReserveDuplicate
  setField16 m (ipv6 + 4) (getPayloadLen m ipv6 + rxCheckLen)

/-- `do_generate_new_mbuf_rxcheck`.  `mp2` is what the new mbuf held before. -/
def doGenerateNewMbufRxcheck (abi : Abi) (ind : CPacketIndication) (node : RxCheckNode) (mp2 : Mem)
    (m : MbufChain) :
    Option MbufChain :=
  let mp1Offset := ind.ipOffset + if ind.isIpv6 then ipv6DefaultSize else ipv4DefaultSize
  let moveLen := (m.dataLen + 2 ^ 16 - mp1Offset) % 2 ^ 16
  let newMbufSize := (moveLen + rxCheckLen) % 2 ^ 16
  (pktmbufAlloc newMbufSize).bind fun size => (appendTo abi size newMbufSize).bind fun _ =>
    let rxhdr := node.header (if ind.isIpv6 then some (m.data (14 + 6)) else none)
    let mp2 := (mp2.putBytes rxCheckLen (m.data.read mp1Offset moveLen)).putBytes 0 rxhdr.bytes
    let data := if ind.isIpv6 then some (announceIpv6 m.data 14)
      else updateCheckSum2 (announceIpv4 m.data 14) 14 (getHeaderLength m.data 14) mp2 0 rxCheckLen
    data.map fun data =>
      { data
        dataLen := (m.dataLen + 2 ^ 16 - moveLen) % 2 ^ 16
        next := mp2.read 0 newMbufSize :: m.next
        pktLen := (m.pktLen + rxCheckLen) % 2 ^ 32
        nbSegs := (m.nbSegs + 1) % 2 ^ 8 }

/-! ## 3. What the frame is to be -/

/-- The lengths in an IP header agree with the frame. -/
structure WellFormed (isIpv6 : Bool) (frame : List UInt8) : Prop where
  ipv4 : isIpv6 = false → getVersion (memOf frame) 14 = 4 ∧ 20 ≤ getHeaderLength (memOf frame) 14 ∧
    getHeaderLength (memOf frame) 14 ≤ getTotalLength (memOf frame) 14 ∧
    14 + getTotalLength (memOf frame) 14 ≤ frame.length
  ipv6 : isIpv6 = true → getVersion (memOf frame) 14 = 6 ∧
    54 + getPayloadLen (memOf frame) 14 ≤ frame.length

/-- What an IP header says that is followed by the RX-check header. -/
structure AnnouncesRxCheck (isIpv6 : Bool) (frame frame' : List UInt8) : Prop where
  wellFormed : WellFormed isIpv6 frame'
  ipv4 : isIpv6 = false →
    getHeaderLength (memOf frame') 14 = getHeaderLength (memOf frame) 14 + rxCheckLen ∧
    getTotalLength (memOf frame') 14 = getTotalLength (memOf frame) 14 + rxCheckLen ∧
    isChecksumOK (memOf frame') 14 = true
  ipv6 : isIpv6 = true →
    getPayloadLen (memOf frame') 14 = getPayloadLen (memOf frame) 14 + rxCheckLen ∧
      memOf frame' 20 = 0x3C

/-- **The frame is the frame before with the header in it.**  `field` are the bytes of the IP header
that may differ. -/
structure CarriesRxCheck (ind : CPacketIndication) (field : Nat → Bool) (rxh : CRxCheckHeader)
    (frame frame' : List UInt8) : Prop where
  length : frame'.length = frame.length + rxCheckLen
  announces : AnnouncesRxCheck ind.isIpv6 frame frame'
  before : ∀ x < ind.optionOffset, field x = false → memOf frame' x = memOf frame x
  header : frame'.drop ind.optionOffset = rxh.bytes ++ frame.drop ind.optionOffset

/-- Where the TTL or the hop limit is. -/
def CPacketIndication.ttlOffset (ind : CPacketIndication) :
    Nat := ind.ipOffset + if ind.isIpv6 then 7 else 8

/-- The bytes of the IP header that change: those that any option changes, and the TTL. -/
def CPacketIndication.rxCheckField (ind : CPacketIndication) (x : Nat) : Bool :=
  ind.optionField x || x == ind.ttlOffset

/-- **A packet that the header can be inserted into**: a well-formed one, with its IP header at 14
and in the first mbuf.  An IPv4 header is at most 60 bytes long with the option. -/
structure Insertable (ind : CPacketIndication) (m : MbufChain) : Prop where
  ip : ind.ipOffset = 14
  wellFormed : WellFormed ind.isIpv6 m.frame
  ipv4 : ind.isIpv6 = false →
    getHeaderLength (memOf m.frame) 14 + rxCheckLen ≤ 60 ∧
      14 + getHeaderLength (memOf m.frame) 14 ≤ m.dataLen
  ipv6 : ind.isIpv6 = true → 54 ≤ m.dataLen
  room : m.dataLen - ind.optionOffset + rxCheckLen < maxBufSize
  size : m.frame.length + rxCheckLen < 2 ^ 16

/-! ## 4. The frame that is made -/

section Frame

variable {m : MbufChain}

theorem memOf_append_left {l l' : List UInt8} {x : Nat} (h : x < l.length) :
    memOf (l ++ l') x = memOf l x :=
  List.getD_append _ _ _ _ h

theorem memOf_append_right (l l' : List UInt8) (i : Nat) :
    memOf (l ++ l') (l.length + i) = memOf l' i := by
  rw [memOf, List.getD_append_right _ _ _ _ (Nat.le_add_right _ _), Nat.add_sub_cancel_left, memOf]

theorem memOf_read (data : Mem) {n x : Nat} (h : x < n) (l : List UInt8) :
    memOf (data.read 0 n ++ l) x = data x := by
  rw [memOf_append_left (by rwa [Mem.length_read]), memOf, Mem.getD_read _ h]

theorem memOf_drop (l : List UInt8) (n i : Nat) : memOf (l.drop n) i = memOf l (n + i) := by
  rw [memOf, memOf, List.getD_eq_getElem?_getD, List.getD_eq_getElem?_getD, List.getElem?_drop]

theorem memOf_frame {x : Nat} (h : x < m.dataLen) :
    memOf m.frame x = m.data x := memOf_read m.data h _

theorem dataLen_le (m : MbufChain) : m.dataLen ≤ m.frame.length := by
  rw [MbufChain.frame, List.length_append, Mem.length_read]
  exact Nat.le_add_right _ _

/-- What is behind an offset of the first mbuf. -/
theorem drop_frame {n : Nat} (h : n ≤ m.dataLen) :
    m.frame.drop n = m.data.read n (m.dataLen - n) ++ m.next.flatten := by
  rw [MbufChain.frame, List.drop_append_of_le_length (by rwa [Mem.length_read]), Mem.drop_read,
    Nat.zero_add]

/-- The new mbuf: the header, and what was moved. -/
theorem read_newMbuf (mp2 : Mem) (rxh : CRxCheckHeader) (moved : List UInt8) :
    ((mp2.putBytes rxCheckLen moved).putBytes 0 rxh.bytes).read 0 (moved.length + rxCheckLen) =
        rxh.bytes ++ moved := by
  have hlen := rxh.length_bytes
  have hfront := Mem.read_putBytes (mp2.putBytes rxCheckLen moved) 0 rxh.bytes
  rw [hlen] at hfront
  rw [Nat.add_comm, Mem.read_append, hfront, Nat.zero_add,
    Mem.read_putBytes_of_disjoint _ _ (Or.inr (by omega)), Mem.read_putBytes]

end Frame

section Header

/-- **The checksum of a header that is in two parts**: with the field, the words of both sum up to a
multiple of
65535. -/
theorem updateCheckSum2_spec (m m2 : Mem) (ipv4 data2 : Nat) {len1 len2 : Nat}
    (heven : len1 % 2 = 0) (hfield : 12 ≤ len1) (hlen : len1 + len2 ≤ 65535) :
    ∃ cs, updateCheckSum2 m ipv4 len1 m2 data2 len2 = some (m.store (ipv4 + 10) 2 cs) ∧
      (inetSum (m.store (ipv4 + 10) 2 cs) ipv4 len1 + inetSum m2 data2 len2) % 65535 = 0 := by
  have h1 := inetSum_le (m.store (ipv4 + 10) 2 0) len1 ipv4
  have h2 := inetSum_le m2 len2 data2
  have hwords := sumWords_eq (m.store (ipv4 + 10) 2 0) len1 ipv4 0 heven (by omega)
  rw [Nat.zero_add] at hwords
  have hbytes := sumBytes_eq m2 len2 data2 (inetSum (m.store (ipv4 + 10) 2 0) ipv4 len1) (by omega)
  have hover : ∀ v, (m.store (ipv4 + 10) 2 0).store (ipv4 + 10) 2 v = m.store (ipv4 + 10) 2 v := by
    intro v
    funext x
    exact Mem.store_congr fun hx => Mem.store_outside _ _ (by omega)
  refine ⟨foldedChecksum (inetSum (m.store (ipv4 + 10) 2 0) ipv4 len1 + inetSum m2 data2 len2), ?_,
    ?_⟩
  · simp [updateCheckSum2, hwords, hbytes, hover]
  · -- the checksum complements the folded sum
    have hstore := inetSum_store m (ipv4 + 10)
      (foldedChecksum (inetSum (m.store (ipv4 + 10) 2 0) ipv4 len1 + inetSum m2 data2 len2)) len1
        ipv4
      (Nat.le_add_right _ _) (by omega) (by omega)
    obtain ⟨hlt, hmod, -⟩ := foldCarry_spec _
      (inetSum (m.store (ipv4 + 10) 2 0) ipv4 len1 + inetSum m2 data2 len2) le_rfl
    rw [foldedChecksum, bswap_bswap] at hstore
    rw [foldedChecksum, hstore]
    omega

variable (m : Mem)

theorem announceIpv4_outside {x : Nat} (h : x < 14 ∨ x = 15 ∨ (18 ≤ x ∧ x < 22) ∨ 23 ≤ x) :
    announceIpv4 m 14 x = m x := by
  simp only [announceIpv4, setField8, setField16]
  rw [Mem.store_outside _ _ (by omega), Mem.store_outside _ _ (by omega), setHeaderLength,
    setField8, Mem.store_outside _ _ (by omega)]

theorem announceIpv6_outside {x : Nat} (h : x < 18 ∨ 22 ≤ x) : announceIpv6 m 14 x = m x := by
  simp only [announceIpv6, setField8, setField16]
  rw [Mem.store_outside _ _ (by omega), Mem.store_outside _ _ (by omega),
    Mem.store_outside _ _ (by omega)]

/-- The first byte is that of the header length that was set. -/
theorem announceIpv4_first : announceIpv4 m 14 14 =
    setHeaderLength m 14 (getHeaderLength m 14 + rxCheckLen) 14 := by
  simp only [announceIpv4, setField8, setField16]
  rw [Mem.store_outside _ _ (by omega), Mem.store_outside _ _ (by omega)]

theorem announceIpv4_ttl : announceIpv4 m 14 22 = 255 := by
  simp only [announceIpv4, setField8]
  exact Mem.store_inside (a := 22) (i := 0) (w := 1) _ rfl

theorem getTotalLength_announceIpv4 :
    getTotalLength (announceIpv4 m 14) 14 = (getTotalLength m 14 + rxCheckLen) % 2 ^ 16 := by
  have hkeep : getTotalLength (setHeaderLength m 14 (getHeaderLength m 14 + rxCheckLen)) 14 =
      getTotalLength m 14 :=
    getField16_congr fun x hx _ => by
      rw [setHeaderLength, setField8, Mem.store_outside _ _ (by omega)]
  have hset : getTotalLength (announceIpv4 m 14) 14 = getField16 (setField16 (setHeaderLength m 14
      (getHeaderLength m 14 + rxCheckLen)) 16 (getTotalLength (setHeaderLength m 14
        (getHeaderLength m 14 + rxCheckLen)) 14 + rxCheckLen)) 16 :=
    getField16_congr fun x _ hx => by
      simp only [announceIpv4, setField8]
      exact Mem.store_outside _ _ (by omega)
  rw [hset, getField16_setField16, hkeep]

theorem announceIpv6_type : announceIpv6 m 14 20 = 0x3C := by
  simp only [announceIpv6, setField8, setField16]
  rw [Mem.store_outside _ _ (by omega), Mem.store_outside _ _ (by omega)]
  exact Mem.store_inside (a := 20) (i := 0) (w := 1) _ rfl

theorem announceIpv6_ttl : announceIpv6 m 14 21 = 255 := by
  simp only [announceIpv6, setField16]
  rw [Mem.store_outside _ _ (by omega)]
  exact Mem.store_inside (a := 21) (i := 0) (w := 1) _ rfl

theorem getPayloadLen_announceIpv6 :
    getPayloadLen (announceIpv6 m 14) 14 = (getPayloadLen m 14 + rxCheckLen) % 2 ^ 16 := by
  have hkeep : getPayloadLen (setField8 (setField8 m 20 0x3C) 21 ttlReserveDuplicate) 14 =
      getPayloadLen m 14 :=
    getField16_congr fun x _ hx => by
      rw [setField8, Mem.store_outside _ _ (by omega), setField8, Mem.store_outside _ _ (by omega)]
  have hset : getPayloadLen (announceIpv6 m 14) 14 =
      getField16 (setField16 (setField8 (setField8 m 20 0x3C) 21
      ttlReserveDuplicate) 18 (getPayloadLen
        (setField8 (setField8 m 20 0x3C) 21 ttlReserveDuplicate) 14 + rxCheckLen)) 18 := rfl
  rw [hset, getField16_setField16, hkeep]

end Header

variable {rxh : CRxCheckHeader} {pkt : CCapPktRaw} {o : ParserOption} {b : PktBytes}

/-- The sum of a header that is cut behind its 20 base bytes, with the option in between. -/
theorem inetSum_split {data : Mem} {rest : List UInt8} {h : Nat} (hbase : 20 ≤ h)
    (hrest : ∀ i < h - 20, memOf rest i = data (34 + i)) :
    inetSum (memOf (data.read 0 34 ++ (rxh.bytes ++ rest))) 14 (h + rxCheckLen) =
      inetSum data 14 h + inetSum (memOf rxh.bytes) 0 rxCheckLen := by
  have hlen := rxh.length_bytes
  have hsize : rxCheckLen = 24 := rfl
  have hread : (data.read 0 34).length = 34 := Mem.length_read _ _ _
  have hbehind : ∀ x, memOf (data.read 0 34 ++ (rxh.bytes ++ rest)) (34 + x) =
      memOf (rxh.bytes ++ rest) x := by
    intro x
    have := memOf_append_right (data.read 0 34) (rxh.bytes ++ rest) x
    rwa [hread] at this
  have hfront : inetSum (memOf (data.read 0 34 ++ (rxh.bytes ++ rest))) 14 20 =
      inetSum data 14 20 :=
    inetSum_bytes 20 14 14 fun i hi => memOf_read data (by omega) _
  have hoption : inetSum (memOf (data.read 0 34 ++ (rxh.bytes ++ rest))) 34 rxCheckLen =
      inetSum (memOf rxh.bytes) 0 rxCheckLen := by
    refine inetSum_bytes rxCheckLen 34 0 fun i hi => ?_
    rw [hbehind, memOf_append_left (by omega), Nat.zero_add]
  have hold : inetSum (memOf (data.read 0 34 ++ (rxh.bytes ++ rest))) (34 + rxCheckLen) (h - 20) =
      inetSum data (14 + 20) (h - 20) := by
    refine inetSum_bytes (h - 20) (34 + rxCheckLen) (14 + 20) fun i hi => ?_
    have hright := memOf_append_right rxh.bytes rest i
    rw [hlen] at hright
    rw [← hrest i hi, ← hright, show 34 + rxCheckLen + i = 34 + (rxCheckLen + i) by omega, hbehind]
  have hall := inetSum_append (memOf (data.read 0 34 ++ (rxh.bytes ++ rest))) (rxCheckLen +
    (h - 20)) 20 14 rfl
  have htail := inetSum_append (memOf (data.read 0 34 ++ (rxh.bytes ++ rest))) (h - 20) rxCheckLen
    34 rfl
  have hdata := inetSum_append data (h - 20) 20 14 rfl
  rw [show 20 + (h - 20) = h by omega] at hdata
  rw [show h + rxCheckLen = 20 + (rxCheckLen + (h - 20)) by omega, hall, htail, hdata, hfront,
    hoption, hold]
  omega

section Insert

variable {ind : CPacketIndication} {m : MbufChain} (hm : Insertable ind m)

include hm

theorem Insertable.optionOffset_eq : ind.optionOffset = if ind.isIpv6 then 54 else 34 := by
  rw [CPacketIndication.optionOffset, hm.ip]
  cases ind.isIpv6 with
  | true => rfl
  | false => rfl

/-- The base header is in the first mbuf. -/
theorem Insertable.optionOffset_le : ind.optionOffset ≤ m.dataLen := by
  rw [hm.optionOffset_eq]
  cases hv : ind.isIpv6 with
  | true => exact hm.ipv6 hv
  | false =>
    have hheader := (hm.wellFormed.ipv4 hv).2.1
    have hin := (hm.ipv4 hv).2
    rw [if_neg Bool.false_ne_true]
    omega

theorem Insertable.le_optionOffset : 34 ≤ ind.optionOffset := by
  rw [hm.optionOffset_eq]
  split
  · decide
  · exact le_rfl

/-- **The mbufs that are made**: the base header with the new lengths, and the new mbuf behind
it. -/
theorem doGenerateNewMbufRxcheck_eq (abi : Abi) (node : RxCheckNode) (mp2 : Mem)
    (hrxh : rxh = node.header (if ind.isIpv6 then some (memOf m.frame 20) else none)) :
    ∃ m', doGenerateNewMbufRxcheck abi ind node mp2 m = some m' ∧
      m'.frame = m'.data.read 0 ind.optionOffset ++ (rxh.bytes ++ m.frame.drop ind.optionOffset) ∧
      m'.pktLen = (m.pktLen + rxCheckLen) % 2 ^ 32 ∧ m'.nbSegs = (m.nbSegs + 1) % 2 ^ 8 ∧
      m'.next.length = m.next.length + 1 ∧
      (ind.isIpv6 = true → m'.data = announceIpv6 m.data 14) ∧
      (ind.isIpv6 = false → ∃ cs, m'.data = (announceIpv4 m.data 14).store 24 2 cs ∧
        (inetSum m'.data 14 (getHeaderLength m.data 14) + inetSum (memOf rxh.bytes) 0 rxCheckLen) %
            65535 = 0) := by
  have hlen : rxCheckLen = 24 := rfl
  have hmax : maxBufSize = 2048 := rfl
  have hoff := hm.optionOffset_le
  have hlo := hm.le_optionOffset
  have hsize := hm.size
  have hroom := hm.room
  have hdata := dataLen_le m
  have hnext : memOf m.frame 20 = m.data (14 + 6) := memOf_frame (by omega)
  have hbytes := rxh.length_bytes
  -- the arithmetic of 16 bits
  have hmove : (m.dataLen + 2 ^ 16 - ind.optionOffset) % 2 ^ 16 = m.dataLen - ind.optionOffset := by
    omega
  have hnew : (m.dataLen - ind.optionOffset + rxCheckLen) % 2 ^ 16 = m.dataLen - ind.optionOffset +
      rxCheckLen := by
    omega
  have hkeep : (m.dataLen + 2 ^ 16 - (m.dataLen - ind.optionOffset)) % 2 ^ 16 =
    ind.optionOffset := by omega
  -- there is a buffer
  obtain ⟨size, hpool, hfits, hpoolmax⟩ : ∃ size,
      pktmbufAlloc (m.dataLen - ind.optionOffset + rxCheckLen) = some size ∧
      m.dataLen - ind.optionOffset + rxCheckLen ≤ size ∧ size ≤ maxBufSize := by
    rcases pktmbufAlloc_spec (m.dataLen - ind.optionOffset + rxCheckLen) with ⟨h, -⟩ | ⟨-, hge⟩
    · exact h
    · omega
  obtain ⟨buffer, hbuffer⟩ := Option.isSome_iff_exists.mp
    (appendTo_eq abi (Nat.lt_of_le_of_lt hpoolmax (by decide)) hfits)
  have hread := read_newMbuf mp2 rxh (m.data.read ind.optionOffset (m.dataLen - ind.optionOffset))
  rw [Mem.length_read] at hread
  have hframe : ∀ data : Mem, data.read 0 ind.optionOffset ++
      ((rxh.bytes ++ m.data.read ind.optionOffset (m.dataLen - ind.optionOffset)) ::
        m.next).flatten =
      data.read 0 ind.optionOffset ++ (rxh.bytes ++ m.frame.drop ind.optionOffset) := by
    intro data
    rw [drop_frame hoff, List.flatten_cons, List.append_assoc]
  have hcut : ind.ipOffset + (if ind.isIpv6 then ipv6DefaultSize else ipv4DefaultSize) =
    ind.optionOffset := rfl
  simp only [doGenerateNewMbufRxcheck, hcut, hmove, hnew, hkeep, hpool, hbuffer, Option.bind_some,
    ← hnext, ← hrxh, hread]
  cases hv : ind.isIpv6 with
  | true =>
    rw [if_pos rfl]
    exact ⟨_, rfl, hframe _, rfl, rfl, rfl, fun _ => rfl, fun h => by cases h⟩
  | false =>
    rw [if_neg Bool.false_ne_true]
    obtain ⟨hsmall, hin⟩ := hm.ipv4 hv
    have hheader := (hm.wellFormed.ipv4 hv).2.1
    have hfirst : getHeaderLength (memOf m.frame) 14 = getHeaderLength m.data 14 :=
      getHeaderLength_congr (memOf_frame (by omega))
    rw [hfirst] at hsmall hin hheader
    obtain ⟨cs, hsum, hmod⟩ := updateCheckSum2_spec (announceIpv4 m.data 14)
      ((mp2.putBytes rxCheckLen
        (m.data.read ind.optionOffset (m.dataLen - ind.optionOffset))).putBytes 0 rxh.bytes)
      14 0 (getHeaderLength_even m.data 14) (by omega) (show _ + rxCheckLen ≤ 65535 by omega)
    have hbuf := inetSum_bytes rxCheckLen 0 0 fun i hi =>
      show ((mp2.putBytes rxCheckLen
          (m.data.read ind.optionOffset (m.dataLen - ind.optionOffset))).putBytes 0
          rxh.bytes) (0 + i) = memOf rxh.bytes (0 + i) from by
        rw [Nat.zero_add, memOf, List.getD_eq_getElem _ _ (by omega)]
        have hinside := Mem.putBytes_inside
          (mp2.putBytes rxCheckLen (m.data.read ind.optionOffset (m.dataLen - ind.optionOffset)))
            (a := 0)
          (List.getElem?_eq_getElem (l := rxh.bytes) (i := i) (by omega))
        rwa [Nat.zero_add] at hinside
    rw [hsum, Option.map_some]
    rw [hbuf] at hmod
    exact ⟨_, rfl, hframe _, rfl, rfl, rfl, fun h => (by cases h), fun _ => ⟨cs, rfl, hmod⟩⟩

theorem announces_ipv4 (hv : ind.isIpv6 = false) {data : Mem} {cs : Nat}
    (hdata : data = (announceIpv4 m.data 14).store 24 2 cs)
    (hsum : (inetSum data 14 (getHeaderLength m.data 14) + inetSum (memOf rxh.bytes) 0 rxCheckLen) %
      65535 = 0) :
    AnnouncesRxCheck false m.frame (data.read 0 34 ++ (rxh.bytes ++ m.frame.drop 34)) := by
  have hsize : rxCheckLen = 24 := rfl
  have hlen := rxh.length_bytes
  obtain ⟨hsmall, hin⟩ := hm.ipv4 hv
  obtain ⟨hversion, hheader, htotal, hend⟩ := hm.wellFormed.ipv4 hv
  have hbound := hm.size
  have hdataLen := dataLen_le m
  have hframe : ∀ x < 34, memOf m.frame x = m.data x := fun x hx => memOf_frame (by omega)
  have hnew : ∀ x < 34, memOf (data.read 0 34 ++ (rxh.bytes ++ m.frame.drop 34)) x = data x :=
    fun x hx => memOf_read data hx _
  have hfirst : memOf (data.read 0 34 ++ (rxh.bytes ++ m.frame.drop 34)) 14 =
      setHeaderLength m.data 14 (getHeaderLength m.data 14 + rxCheckLen) 14 := by
    rw [hnew 14 (by decide), hdata, Mem.store_of_lt _ _ (by decide), announceIpv4_first]
  have hold : getHeaderLength (memOf m.frame) 14 = getHeaderLength m.data 14 :=
    getHeaderLength_congr (hframe 14 (by decide))
  rw [hold] at hsmall hin hheader htotal
  have hmod : (getHeaderLength m.data 14 + rxCheckLen) % 4 = 0 := by
    rw [getHeaderLength]
    omega
  have hhead : getHeaderLength (memOf (data.read 0 34 ++ (rxh.bytes ++ m.frame.drop 34))) 14 =
      getHeaderLength m.data 14 + rxCheckLen :=
    (getHeaderLength_congr hfirst).trans (getHeaderLength_setHeaderLength _ _ hmod hsmall)
  have htotalOld : getTotalLength (memOf m.frame) 14 = getTotalLength m.data 14 :=
    getField16_congr fun x _ hx => hframe x (by omega)
  have htotalNew : getTotalLength (memOf (data.read 0 34 ++ (rxh.bytes ++ m.frame.drop 34))) 14 =
      getTotalLength (memOf m.frame) 14 + rxCheckLen := by
    have hset : getTotalLength (memOf (data.read 0 34 ++ (rxh.bytes ++ m.frame.drop 34))) 14 =
        getTotalLength (announceIpv4 m.data 14) 14 :=
      getField16_congr fun x _ hx => by
        rw [hnew x (by omega), hdata, Mem.store_of_lt _ _ (by omega)]
    rw [hset, getTotalLength_announceIpv4, ← htotalOld]
    exact Nat.mod_eq_of_lt (by omega)
  have hframeLen : (data.read 0 34 ++ (rxh.bytes ++ m.frame.drop 34)).length = m.frame.length +
      rxCheckLen := by
    rw [List.length_append, List.length_append, List.length_drop, Mem.length_read, hlen]
    omega
  refine ⟨⟨fun _ => ⟨?_, by omega, by omega, by omega⟩, fun h => (by cases h)⟩, fun _ =>
    ⟨by omega, htotalNew, ?_⟩, fun h => (by cases h)⟩
  · rw [getVersion_congr hfirst, getVersion_setHeaderLength,
      ← getVersion_congr (hframe 14 (by decide)), hversion]
  · have hpos : 0 < inetSum (memOf (data.read 0 34 ++ (rxh.bytes ++ m.frame.drop 34))) 14
        (getHeaderLength (memOf (data.read 0 34 ++ (rxh.bytes ++ m.frame.drop 34))) 14) :=
          inetSum_pos (by omega)
    rw [isChecksumOK_iff]
    refine ⟨by omega, ?_⟩
    rw [hhead, inetSum_split hheader fun i hi => ?_, hsum]
    -- what is behind the base header was not written
    rw [memOf_drop, memOf_frame (by omega), hdata, Mem.store_of_ge _ _ (by omega),
      announceIpv4_outside _ (by omega)]

theorem announces_ipv6 (hv : ind.isIpv6 = true) (rxh : CRxCheckHeader) :
    AnnouncesRxCheck true m.frame
      ((announceIpv6 m.data 14).read 0 54 ++ (rxh.bytes ++ m.frame.drop 54)) := by
  have hsize : rxCheckLen = 24 := rfl
  have hlen := rxh.length_bytes
  have hin := hm.ipv6 hv
  obtain ⟨hversion, hend⟩ := hm.wellFormed.ipv6 hv
  have hbound := hm.size
  have hdataLen := dataLen_le m
  have hframe : ∀ x < 54, memOf m.frame x = m.data x := fun x hx => memOf_frame (by omega)
  have hnew : ∀ x < 54, memOf ((announceIpv6 m.data 14).read 0 54 ++ (rxh.bytes ++ m.frame.drop 54))
      x = announceIpv6 m.data 14 x := fun x hx => memOf_read _ hx _
  have hold : getPayloadLen (memOf m.frame) 14 = getPayloadLen m.data 14 :=
    getField16_congr fun x _ hx => hframe x (by omega)
  have hpayload : getPayloadLen
      (memOf ((announceIpv6 m.data 14).read 0 54 ++ (rxh.bytes ++ m.frame.drop 54))) 14 =
      getPayloadLen (memOf m.frame) 14 + rxCheckLen := by
    have hset : getPayloadLen
        (memOf ((announceIpv6 m.data 14).read 0 54 ++ (rxh.bytes ++ m.frame.drop 54))) 14 =
        getPayloadLen (announceIpv6 m.data 14) 14 :=
      getField16_congr fun x _ hx => hnew x (by omega)
    rw [hset, getPayloadLen_announceIpv6, ← hold]
    exact Nat.mod_eq_of_lt (by omega)
  have hframeLen : ((announceIpv6 m.data 14).read 0 54 ++ (rxh.bytes ++ m.frame.drop 54)).length =
      m.frame.length + rxCheckLen := by
    rw [List.length_append, List.length_append, List.length_drop, Mem.length_read, hlen]
    omega
  have hfirst : memOf ((announceIpv6 m.data 14).read 0 54 ++ (rxh.bytes ++ m.frame.drop 54)) 14 =
      memOf m.frame 14 := by
    rw [hnew 14 (by decide), announceIpv6_outside _ (by omega), hframe 14 (by decide)]
  refine ⟨⟨fun h => (by cases h), fun _ => ⟨?_, by omega⟩⟩, fun h => (by cases h), fun _ =>
    ⟨hpayload, ?_⟩⟩
  · rw [getVersion_congr hfirst, hversion]
  · rw [hnew 20 (by decide), announceIpv6_type]

/-- **The header is inserted**, into every packet that it can be inserted into, and the mbufs are
one more. -/
theorem insertRxCheck_carries (abi : Abi) (node : RxCheckNode) (mp2 : Mem)
    (hrxh : rxh = node.header (if ind.isIpv6 then some (memOf m.frame 20) else none)) :
    ∃ m', doGenerateNewMbufRxcheck abi ind node mp2 m = some m' ∧
      CarriesRxCheck ind ind.rxCheckField rxh m.frame m'.frame ∧
        memOf m'.frame ind.ttlOffset = 255 ∧
      m'.pktLen = (m.pktLen + rxCheckLen) % 2 ^ 32 ∧ m'.nbSegs = (m.nbSegs + 1) % 2 ^ 8 ∧
      m'.next.length = m.next.length + 1 := by
  obtain ⟨m', hmake, hframe, hpktLen, hsegs, hnext, hipv6, hipv4⟩ :=
    doGenerateNewMbufRxcheck_eq hm abi node mp2 hrxh
  have hoff := hm.optionOffset_le
  have hdataLen := dataLen_le m
  have hbytes := rxh.length_bytes
  have hold : ∀ x < ind.optionOffset, memOf m.frame x = m.data x :=
    fun x hx => memOf_frame (by omega)
  have hnew : ∀ x < ind.optionOffset, memOf m'.frame x = m'.data x := fun x hx => by
    rw [hframe, memOf_read _ hx]
  have hlength : m'.frame.length = m.frame.length + rxCheckLen := by
    rw [hframe, List.length_append, List.length_append, List.length_drop, Mem.length_read, hbytes]
    omega
  have hheader : m'.frame.drop ind.optionOffset = rxh.bytes ++ m.frame.drop ind.optionOffset := by
    rw [hframe]
    exact List.drop_left' (Mem.length_read _ _ _)
  refine ⟨m', hmake, ?_, ?_, hpktLen, hsegs, hnext⟩
  · cases hv : ind.isIpv6 with
    | true =>
      have hdata := hipv6 hv
      have hcut : ind.optionOffset = 54 := by rw [hm.optionOffset_eq, hv, if_pos rfl]
      refine ⟨hlength, ?_, fun x hx hfield => ?_, hheader⟩
      · rw [hv, hframe, hcut, hdata]
        exact announces_ipv6 hm hv rxh
      · simp only [CPacketIndication.rxCheckField, CPacketIndication.optionField,
          CPacketIndication.ttlOffset, hv, hm.ip,
          ↓reduceIte, Bool.or_eq_false_iff, beq_eq_false_iff_ne] at hfield
        rw [hnew x hx, hold x hx, hdata, announceIpv6_outside _ (by omega)]
    | false =>
      obtain ⟨cs, hdata, hsum⟩ := hipv4 hv
      have hcut : ind.optionOffset = 34 := by rw [hm.optionOffset_eq, hv, if_neg Bool.false_ne_true]
      refine ⟨hlength, ?_, fun x hx hfield => ?_, hheader⟩
      · rw [hv, hframe, hcut]
        exact announces_ipv4 hm hv hdata hsum
      · simp only [CPacketIndication.rxCheckField, CPacketIndication.optionField,
          CPacketIndication.ttlOffset, hv, hm.ip,
          Bool.false_eq_true, ↓reduceIte, Bool.or_eq_false_iff, beq_eq_false_iff_ne] at hfield
        rw [hnew x hx, hold x hx, hdata, Mem.store_outside _ _ (by omega),
          announceIpv4_outside _ (by omega)]
  · cases hv : ind.isIpv6 with
    | true =>
      have httl : ind.ttlOffset = 21 := by rw [CPacketIndication.ttlOffset, hm.ip, hv, if_pos rfl]
      have hcut : ind.optionOffset = 54 := by rw [hm.optionOffset_eq, hv, if_pos rfl]
      rw [httl, hnew 21 (by omega), hipv6 hv, announceIpv6_ttl]
    | false =>
      obtain ⟨cs, hdata, -⟩ := hipv4 hv
      have httl : ind.ttlOffset =
        22 := by rw [CPacketIndication.ttlOffset, hm.ip, hv, if_neg Bool.false_ne_true]
      have hcut : ind.optionOffset = 34 := by rw [hm.optionOffset_eq, hv, if_neg Bool.false_ne_true]
      rw [httl, hnew 22 (by omega), hdata, Mem.store_of_lt _ _ (by decide), announceIpv4_ttl]

end Insert

/-! ## 5. The packets of a template -/

/-- What the front of a packet says, with the packet of `len` bytes. -/
structure Framed (isIpv6 : Bool) (m : Mem) (len : Nat) : Prop where
  ether : getField16 m 12 = if isIpv6 then 0x86DD else 0x0800
  ipv4 : isIpv6 = false → getVersion m 14 = 4 ∧ 20 ≤ getHeaderLength m 14 ∧
    getHeaderLength m 14 ≤ getTotalLength m 14 ∧ 14 + getTotalLength m 14 ≤ len ∧
      (m 23 = 6 ∨ m 23 = 17)
  ipv6 : isIpv6 = true → getVersion m 14 = 6 ∧ 54 + getPayloadLen m 14 ≤ len

/-- It is in a few bytes. -/
theorem Framed.congr {isIpv6 : Bool} {m m' : Mem} {len : Nat} (h : Framed isIpv6 m len)
    (hfront : ∀ x, 12 ≤ x → x < 20 → m' x = m x) (hproto : isIpv6 = false → m' 23 = m 23) :
    Framed isIpv6 m' len where
  ether := (getField16_congr fun x hx hx' => hfront x hx (by omega)).trans h.ether
  ipv4 hv := by
    obtain ⟨hversion, hheader, htotal, hlen, hprotocol⟩ := h.ipv4 hv
    have hfirst := hfront 14 (by decide) (by decide)
    have htotal' : getTotalLength m' 14 = getTotalLength m 14 :=
      getField16_congr fun x hx hx' => hfront x (by omega) (by omega)
    rw [getVersion_congr hfirst, getHeaderLength_congr hfirst, htotal', hproto hv]
    exact ⟨hversion, hheader, htotal, hlen, hprotocol⟩
  ipv6 hv := by
    have hpayload : getPayloadLen m' 14 = getPayloadLen m 14 :=
      getField16_congr fun x hx hx' => hfront x (by omega) (by omega)
    rw [getVersion_congr (hfront 14 (by decide) (by decide)), hpayload]
    exact h.ipv6 hv

/-- The types that are followed by an IP header at 14. -/
theorem findL3_eq_some {m : Mem} {isIpv6 : Bool} (h : findL3 m = some (14, isIpv6)) :
    getField16 m 12 = if isIpv6 then 0x86DD else 0x0800 := by
  unfold findL3 l3Of at h
  split at h
  · split at h
    · cases h
    · split at h
      · cases h
      · cases h
  · split at h
    · rename_i htype
      cases h
      exact htype
    · split at h
      · rename_i htype
        cases h
        exact htype
      · cases h

/-- A packet that is read for IPv6 is one of IPv6. -/
theorem asIpv6_ether {pkt' : CCapPktRaw} {v6 : Bool} (hl3 : findL3 pkt.raw = some (14, v6))
    (h : asIpv6 pkt = some pkt') : getField16 pkt'.raw 12 = 0x86DD := by
  unfold asIpv6 at h
  rw [hl3] at h
  cases v6 with
  | true =>
    cases h
    exact findL3_eq_some hl3
  | false =>
    dsimp only at h
    split at h
    · cases h
    · simp only [convertPacketToIpv6InPlace] at h
      split at h
      · cases h
      split at h
      · cases h
      · cases h
        have hset : getField16 (pkt.raw.putBytes 12 [0x86, 0xDD]) 12 = 0x86DD := by
          rw [getField16]
          exact congrArg (bswap 2) (Mem.load_putBytes pkt.raw 12 [0x86, 0xDD])
        rw [← hset]
        refine getField16_congr fun x _ hx => ?_
        dsimp only
        rw [Mem.putBytes_of_lt _ _ (by omega), Mem.putBytes_of_lt _ _ (by omega)]

variable {ind : CPacketIndication}

/-- A packet that is accepted. -/
theorem accepted_framed (h : accepted o pkt = some ind) :
    Framed ind.isIpv6 ind.packet.raw ind.packet.pktLen := by
  cases ho : o.ipv6Enable with
  | false =>
    obtain ⟨hl3, -, hheader, proto, payload, hchecks, rfl⟩ := (accepted_ipv4 ho).mp h
    refine ⟨findL3_eq_some hl3, fun _ => ⟨hchecks.version, hheader.ge, ?_, ?_, ?_⟩, fun hv =>
      (by cases hv)⟩
    · have hinside := hchecks.inside
      have hpayload := (processIpPacketProtocol_payload hchecks.l4).1.1
      show getHeaderLength pkt.raw 14 ≤ getTotalLength pkt.raw 14
      omega
    · have hpad := self_le_paddedLen (getTotalLength pkt.raw 14 + 14)
      show 14 + getTotalLength pkt.raw 14 ≤ paddedLen (getTotalLength pkt.raw 14 + 14)
      omega
    · show pkt.raw 23 = 6 ∨ pkt.raw 23 = 17
      rcases (processIpPacketProtocol_eq_some.mp hchecks.l4).1 with ⟨hproto, -⟩ | ⟨hproto, -⟩
      · exact Or.inl (UInt8.toNat_inj.mp hproto)
      · exact Or.inr (UInt8.toNat_inj.mp hproto)
  | true =>
    obtain ⟨⟨v6, hl3⟩, pkt', has, proto, payload, hchecks, rfl⟩ := (accepted_ipv6 ho).mp h
    have hfront : ∀ x < 22, msbUpdated o pkt'.raw 14 x = pkt'.raw x := by
      intro x hx
      rw [msbUpdated_eq, Mem.putBytes_of_lt _ _ (by omega), Mem.putBytes_of_lt _ _ (by omega)]
    refine ⟨?_, fun hv => (by cases hv), fun _ => ⟨?_, ?_⟩⟩
    · exact (getField16_congr fun x _ hx => hfront x (by omega)).trans (asIpv6_ether hl3 has)
    · exact (getVersion_congr (hfront 14 (by decide))).trans hchecks.version
    · have hpad := self_le_paddedLen (getPayloadLen (msbUpdated o pkt'.raw 14) 14 + 14 +
        ipv6DefaultSize)
      have hsize : ipv6DefaultSize = 40 := rfl
      show 54 + getPayloadLen (msbUpdated o pkt'.raw 14) 14 ≤
        paddedLen (getPayloadLen (msbUpdated o pkt'.raw 14) 14 + 14 + ipv6DefaultSize)
      omega

/-- Moving the TTL out of the way does not change what the front of the packet says. -/
theorem freeReservedTTL_framed (hip : ind.ipOffset = 14)
    (h : Framed ind.isIpv6 ind.packet.raw ind.packet.pktLen) :
    Framed (freeReservedTTL ind).isIpv6 (freeReservedTTL ind).packet.raw
        (freeReservedTTL ind).packet.pktLen := by
  obtain ⟨m, hfree, hm⟩ := freeReservedTTL_raw ind
  have hproto : ind.isIpv6 = false → (freeReservedTTL ind).packet.raw 23 = ind.packet.raw 23 := by
    intro hv
    unfold freeReservedTTL
    split
    · simp only [setTTL, hv, hip, Bool.false_eq_true, ↓reduceIte, setField8]
      rw [updateCheckSum_of_ne _ (by omega), Mem.store_outside _ _ (by omega)]
    · rfl
  rw [hfree] at hproto ⊢
  exact h.congr (fun x _ hx => hm x (by omega)) hproto

/-- A packet of a template before the option. -/
theorem acceptPacket_framed {abi : Abi} {side : Bool} (h : acceptPacket abi o side pkt = some b) :
    Framed b.ind.isIpv6 b.ind.packet.raw b.ind.packet.pktLen ∧ b.bigMbuf = tailOf b.ind.packet := by
  unfold acceptPacket at h
  obtain ⟨ind, hind, h⟩ := Option.bind_eq_some_iff.mp h
  obtain ⟨b', hcreate, h⟩ := Option.bind_eq_some_iff.mp h
  split at h
  · rename_i hvalid
    cases h
    unfold PktBytes.create at hcreate
    split at hcreate
    · obtain ⟨bigMbuf, hbig, rfl⟩ := Option.map_eq_some_iff.mp hcreate
      refine ⟨?_, allocConstMbuf_some hbig⟩
      obtain ⟨m, hfree, -⟩ := freeReservedTTL_raw ind
      have hvalid' : isValidTemplateLoadTime ind = true := by
        rw [hfree] at hvalid
        exact hvalid
      have hip : ind.ipOffset = 14 := by
        simp only [isValidTemplateLoadTime, Bool.and_eq_true, beq_iff_eq] at hvalid'
        exact hvalid'.1.2
      exact freeReservedTTL_framed hip (accepted_framed (accepted_eq_some.mpr ⟨hind, hvalid'⟩))
    · cases hcreate
  · cases h

/-- **A packet of a template**, with the option or without it. -/
structure TemplatePkt (b : PktBytes) : Prop where
  placed : Placed b
  framed : Framed b.ind.isIpv6 b.ind.packet.raw b.ind.packet.pktLen
  header : b.ind.isIpv6 = false → getHeaderLength b.ind.packet.raw 14 ≤ 28 ∧
    getHeaderLength b.ind.packet.raw 14 + 34 ≤ b.ind.packet.pktLen
  min : 60 ≤ b.ind.packet.pktLen
  tail : b.bigMbuf = tailOf b.ind.packet

/-- The option, in a packet of a template. -/
theorem Inserted.framed {b' : PktBytes} (h : Inserted b b') (hip : b.ind.ipOffset = 14)
    (hb : Framed b.ind.isIpv6 b.ind.packet.raw b.ind.packet.pktLen)
    (hheader : b.ind.isIpv6 = false → getHeaderLength b.ind.packet.raw 14 = 20) :
    Framed b'.ind.isIpv6 b'.ind.packet.raw b'.ind.packet.pktLen := by
  have hopt : noOptionLen = 8 := rfl
  have hsize : ipv6DefaultSize = 40 := rfl
  have hlen := h.len
  have hsame := h.same
  simp only [Prod.mk.injEq] at hsame
  obtain ⟨hv6, -, -, hip', -⟩ := hsame
  have hend := h.header.ipEnd
  have hoff : b.ind.optionOffset = if b.ind.isIpv6 then 54 else 34 := by
    rw [CPacketIndication.optionOffset, hip]
    cases b.ind.isIpv6 with
    | true => rfl
    | false => rfl
  have hkept : ∀ x < 34, b.ind.optionField x = false → b'.ind.packet.raw x = b.ind.packet.raw x :=
    fun x hx hfield => h.before x (by rw [hoff]; split <;> omega) hfield
  have hether : getField16 b'.ind.packet.raw 12 = getField16 b.ind.packet.raw 12 := by
    refine getField16_congr fun x hx hx' => hkept x (by omega) ?_
    simp only [CPacketIndication.optionField, hip]
    split
    · simp only [Bool.or_eq_false_iff, beq_eq_false_iff_ne]
      omega
    · simp only [Bool.or_eq_false_iff, beq_eq_false_iff_ne]
      omega
  refine ⟨?_, fun hv => ?_, fun hv => ?_⟩
  · rw [hether, hb.ether, hv6]
  · rw [hv6] at hv
    obtain ⟨-, -, htotal, hle, hproto⟩ := hb.ipv4 hv
    obtain ⟨hversion, hhead, -⟩ := h.header.ipv4 hv
    rw [hip] at hversion hhead
    simp only [CPacketIndication.ipEnd, hv6, hv, hip', hip, Bool.false_eq_true, ↓reduceIte] at hend
    have hbase : ipv4DefaultSize = 20 := rfl
    have h20 := hheader hv
    have h23 : b'.ind.packet.raw 23 = b.ind.packet.raw 23 := by
      refine hkept 23 (by decide) ?_
      simp only [CPacketIndication.optionField, hv, hip]
      decide
    rw [h23]
    exact ⟨hversion, by omega, by omega, by omega, hproto⟩
  · rw [hv6] at hv
    obtain ⟨hversion, hle⟩ := hb.ipv6 hv
    simp only [CPacketIndication.ipEnd, hv6, hv, hip', hip, ↓reduceIte] at hend
    have h14 : b'.ind.packet.raw 14 = b.ind.packet.raw 14 := by
      refine hkept 14 (by decide) ?_
      simp only [CPacketIndication.optionField, hv, hip]
      decide
    exact ⟨(getVersion_congr h14).trans hversion, by omega⟩

/-- **Every packet of a template is one.** -/
theorem loadPacket_templatePkt {abi : Abi} {i : Nat} {desc : CPacketDescriptor}
    (h : loadPacket abi o i desc pkt = some b) : TemplatePkt b := by
  have hplaced := (loadPacket_placed h).1
  rw [loadPacket_eq] at h
  obtain ⟨b1, haccept, h⟩ := Option.bind_eq_some_iff.mp h
  have hacc := acceptPacket_acceptable haccept
  obtain ⟨hframed, htail⟩ := acceptPacket_framed haccept
  have hmin := hacc.min
  split at h
  · obtain ⟨m, hmask, hm⟩ := maskAsLearn_eq abi hacc
    rw [hmask] at h
    cases h
    have hins := masked_inserted hacc hm
    have hopt : noOptionLen = 8 := rfl
    have hbase : ipv4DefaultSize = 20 := rfl
    have hlen := hins.len
    refine ⟨hplaced, hins.framed hacc.ip hframed fun hv => (hacc.ipv4 hv).2.1, fun hv =>
      ?_, by omega, hins.tail⟩
    obtain ⟨-, hhead, -⟩ := hins.header.ipv4 hv
    rw [hacc.ip] at hhead
    omega
  · cases h
    refine ⟨hplaced, hframed, fun hv => ?_, hmin, htail⟩
    have hhead := (hacc.ipv4 hv).2.1
    omega

/-! ## 6. The packets that are sent -/

/-- The mbufs of `do_generate_new_mbuf`, with the addresses that `send_node` copies to the front. -/
def generateNewMbuf (o : ParserOption) (b : PktBytes) (node : FlowNode) (mac : List UInt8)
    (p : Mem) : MbufChain :=
  let len := firstLen b.ind.packet.pktLen
  { data := (updatePktInfo o b node (p.putBytes 0 (b.ind.packet.raw.read 0 len))).putBytes 0 mac
    dataLen := len
    next := b.bigMbuf.toList
    pktLen := len + (b.bigMbuf.getD []).length
    nbSegs := 1 + b.bigMbuf.toList.length }

/-- The mbuf of `do_generate_new_mbuf_big`, with these addresses. -/
def generateNewMbufBig (o : ParserOption) (b : PktBytes) (node : FlowNode) (mac : List UInt8)
    (p : Mem) : MbufChain :=
  let len := b.ind.packet.pktLen
  { data := (updatePktInfo o b node (p.putBytes 0 (b.ind.packet.raw.read 0 len))).putBytes 0 mac
    dataLen := len
    next := []
    pktLen := len
    nbSegs := 1 }

/-- A packet of a template, made in one of the two ways. -/
inductive Generated (o : ParserOption) (b : PktBytes) (node : FlowNode) : MbufChain → Prop
  | small (mac : List UInt8) (p : Mem) (hmac : mac.length = 12) :
      Generated o b node (generateNewMbuf o b node mac p)
  | big (mac : List UInt8) (p : Mem) (hmac : mac.length = 12) :
      Generated o b node (generateNewMbufBig o b node mac p)

/-- Without addresses it is the packet of `do_generate_new_mbuf`. -/
theorem frame_generateNewMbuf (abi : Abi) (o : ParserOption) (b : PktBytes) (node : FlowNode)
    (p : Mem) :
    doGenerateNewMbuf abi o b node p = some (generateNewMbuf o b node [] p).frame := by
  have hle : firstLen b.ind.packet.pktLen ≤ firstPktSize := by
    unfold firstLen
    split
    · exact le_rfl
    · omega
  obtain ⟨buffer, hbuffer⟩ :=
    Option.isSome_iff_exists.mp (appendTo_eq abi (by decide : firstPktSize < 2 ^ 16) hle)
  simp only [doGenerateNewMbuf, hbuffer, Option.map_some, rewriteCopy, generateNewMbuf,
    MbufChain.frame, Mem.putBytes_nil]
  cases b.bigMbuf with
  | none => rfl
  | some tail =>
    simp

/-- What is rewritten is behind the front of the packet. -/
theorem updatePktInfo_front (hb : Placed b) (node : FlowNode) (m : Mem) {x : Nat}
    (hx : x < 22 ∨ (b.ind.isIpv6 = false ∧ x = 23)) : updatePktInfo o b node m x = m x := by
  have hl4 := hb.le_l4
  have hport : ∀ m : Mem, updatePort b (clientPort o b node) m x = m x := by
    intro m
    unfold updatePort
    simp only [setField16]
    cases b.ind.proto with
    | tcp =>
      dsimp only
      split
      · exact Mem.store_outside _ _ (by omega)
      · exact Mem.store_outside _ _ (by omega)
    | udp =>
      dsimp only
      split
      · rw [Mem.store_outside _ _ (by omega), Mem.store_outside _ _ (by omega)]
      · rw [Mem.store_outside _ _ (by omega), Mem.store_outside _ _ (by omega)]
  unfold updatePktInfo
  rw [hport, hb.ip]
  cases hv : b.ind.isIpv6 with
  | true =>
    rw [if_pos rfl]
    rw [hv] at hx
    have hlt : x < 22 := hx.resolve_right fun h => (by cases h.1)
    unfold updateIpv6Addr
    simp only [hb.ip, updateLSBIpv6Dst, updateLSBIpv6Src]
    split
    · rw [Mem.store_outside _ _ (by omega), Mem.store_outside _ _ (by omega)]
    · rw [Mem.store_outside _ _ (by omega), Mem.store_outside _ _ (by omega)]
  | false =>
    have hx' : x < 22 ∨ x = 23 := hx.imp_right And.right
    have hout : (x < 24 ∧ x ≠ 22) ∨ b.ind.udpTcpOffset ≤ x := Or.inl (by omega)
    rw [if_neg Bool.false_ne_true, updateCheckSum_of_ne _ (by omega),
      updateIpv4Addr_outside hb node m hv hout]

section Generated

variable {o : ParserOption} {b : PktBytes} (hb : TemplatePkt b) {node : FlowNode}

include hb

theorem TemplatePkt.le_firstLen : 60 ≤ firstLen b.ind.packet.pktLen ∧
    firstLen b.ind.packet.pktLen ≤ 64 ∧
    firstLen b.ind.packet.pktLen ≤ b.ind.packet.pktLen := by
  have hmin := hb.min
  unfold firstLen firstPktSize
  split <;> omega

/-- What a packet that is made looks like. -/
structure FrontKept (b : PktBytes) (m : MbufChain) : Prop where
  front : ∀ x, 12 ≤ x → (x < 22 ∨ (b.ind.isIpv6 = false ∧ x = 23)) →
    memOf m.frame x = b.ind.packet.raw x
  length : m.frame.length = b.ind.packet.pktLen
  first : 60 ≤ m.dataLen
  pktLen : m.pktLen = m.frame.length
  nbSegs : m.nbSegs = 1 + m.next.length

/-- The data of the first mbuf. -/
theorem TemplatePkt.front {len : Nat} (hlen : 60 ≤ len) {mac : List UInt8} (hmac : mac.length = 12)
    (p : Mem) {x : Nat} (hx : 12 ≤ x) (hfront : x < 22 ∨ (b.ind.isIpv6 = false ∧ x = 23)) :
    (updatePktInfo o b node (p.putBytes 0 (b.ind.packet.raw.read 0 len))).putBytes 0 mac x =
        b.ind.packet.raw x := by
  have hlt : x < len := by
    have hx' : x < 22 ∨ x = 23 := hfront.imp_right And.right
    omega
  have hbyte : (b.ind.packet.raw.read 0 len)[x]? = some (b.ind.packet.raw x) := by
    rw [Mem.read, List.getElem?_map, List.getElem?_range hlt, Option.map_some, Nat.zero_add]
  have hcopy := Mem.putBytes_inside p (a := 0) hbyte
  rw [Nat.zero_add] at hcopy
  rw [Mem.putBytes_of_ge _ _ (by omega), updatePktInfo_front hb.placed node _ hfront, hcopy]

variable {m : MbufChain}

theorem TemplatePkt.frontKept (hm : Generated o b node m) : FrontKept b m := by
  obtain ⟨hlo, hhi, hle⟩ := hb.le_firstLen
  have hmin := hb.min
  cases hm with
  | small mac p hmac =>
    have htail : firstLen b.ind.packet.pktLen + (b.bigMbuf.getD []).length =
        b.ind.packet.pktLen := by
      rw [hb.tail, tailOf, firstLen]
      split
      · rw [Option.getD_some, Mem.length_read]
        omega
      · rfl
    have hnext : b.bigMbuf.toList.flatten.length = (b.bigMbuf.getD []).length := by
      cases b.bigMbuf with
      | none => rfl
      | some tail => simp
    have hlength : (generateNewMbuf o b node mac p).frame.length = b.ind.packet.pktLen := by
      rw [MbufChain.frame, List.length_append, Mem.length_read]
      exact (congrArg (firstLen b.ind.packet.pktLen + ·) hnext).trans htail
    refine ⟨fun x hx hfront => ?_, hlength, hlo, htail.trans hlength.symm, rfl⟩
    rw [memOf_frame (show x < firstLen b.ind.packet.pktLen by omega)]
    exact hb.front hlo hmac p hx hfront
  | big mac p hmac =>
    have hlength : (generateNewMbufBig o b node mac p).frame.length = b.ind.packet.pktLen := by
      rw [MbufChain.frame, List.length_append, Mem.length_read]
      rfl
    refine ⟨fun x hx hfront => ?_, hlength, hmin, hlength.symm, rfl⟩
    rw [memOf_frame (show x < b.ind.packet.pktLen by omega)]
    exact hb.front hmin hmac p hx hfront

/-- The front of a packet that is made is that of the template. -/
theorem TemplatePkt.framed_frame (hm : Generated o b node m) :
    Framed b.ind.isIpv6 (memOf m.frame) m.frame.length := by
  have hsent := hb.frontKept hm
  rw [hsent.length]
  exact hb.framed.congr (fun x hx hx' => hsent.front x hx (by omega))
    fun hv => hsent.front 23 (by decide) (Or.inr ⟨hv, rfl⟩)

/-- **The header can be inserted into every packet that is made.** -/
theorem generated_insertable (hm : Generated o b node m) : Insertable b.ind m := by
  have hsent := hb.frontKept hm
  have hframed := hb.framed_frame hm
  have hfirst := hsent.first
  have hdataLen := dataLen_le m
  have hlen := hsent.length
  have hsize := hb.placed.size
  have hsmall := hb.placed.small
  have hrx : rxCheckLen = 24 := rfl
  have hmax : maxBufSize = 2048 := rfl
  have hcut : firstPktSize = 64 := rfl
  have hopt : noOptionLen = 8 := rfl
  have hoff : b.ind.optionOffset = if b.ind.isIpv6 then 54 else 34 := by
    rw [CPacketIndication.optionOffset, hb.placed.ip]
    cases b.ind.isIpv6 with
    | true => rfl
    | false => rfl
  refine ⟨hb.placed.ip, ⟨fun hv => ?_, hframed.ipv6⟩, fun hv => ?_, fun _ => by omega, ?_, by omega⟩
  · obtain ⟨hversion, hheader, htotal, hend, -⟩ := hframed.ipv4 hv
    exact ⟨hversion, hheader, htotal, hend⟩
  · have hheader := (hb.header hv).1
    rw [getHeaderLength_congr (hsent.front 14 (by decide) (Or.inl (by decide)))]
    omega
  · rw [hoff]
    cases hv : b.ind.isIpv6 with
    | true =>
      rw [if_pos rfl]
      omega
    | false =>
      have hle := hsmall hv
      rw [if_neg Bool.false_ne_true]
      omega

end Generated

end Trex.Flow
