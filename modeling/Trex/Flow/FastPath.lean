/-
# The two ways to make a packet

`do_generate_new_mbuf` rewrites the first `FIRST_PKT_SIZE` bytes of a packet and chains the rest
unchanged, so it makes the packet of `do_generate_new_mbuf_big` as long as `update_pkt_info` writes
below the cut.  The offsets it writes at are fixed by what the loader accepts (`Loaded`): an IP
header at 14, a transport header behind 20 or 40 bytes, and 8 bytes more for a learn packet.

An IPv6 packet with the option has its UDP checksum at 68, behind the cut, and the paths part
(`pathsAgree_iff`). The options `--learn` and `--ipv6` exclude each other on the command line, and a
packet is IPv6 only with `--ipv6`, so no run of the program has such a packet and the paths always
agree (`fastPath_agrees`).
-/
import Trex.Flow.Packet
import Trex.Lib.Local

namespace Trex.Flow

open Trex.Lib Trex.Net Trex.Pal

/-! ## 1. Parsing -/

/-- What the parser says of a packet that it accepts. -/
structure Parsed (o : ParserOption) (ind : CPacketIndication) : Prop where
  ipv6 : ind.isIpv6 = o.ipv6Enable
  min : 60 ≤ ind.packet.pktLen
  l4 : ind.udpTcpOffset = ind.ipOffset +
    (if ind.isIpv6 then ipv6DefaultSize else getHeaderLength ind.packet.raw ind.ipOffset)
  max : ind.isIpv6 = false → ind.packet.pktLen ≤ maxBufSize - firstPktSize

theorem le_paddedLen (n : Nat) : 60 ≤ paddedLen n := by
  unfold paddedLen
  split
  · exact le_rfl
  · omega

variable {o : ParserOption} {pkt : CCapPktRaw} {ind : CPacketIndication} {abi : Abi} {b : PktBytes}
  {isIpv6 : Bool}

theorem processIpPacket_parsed (ho : o.ipv6Enable = false) {offset : Nat}
    (h : processIpPacket pkt offset = some ind) : Parsed o ind := by
  simp only [processIpPacket] at h
  split at h
  · cases h
  split at h
  · cases h
  rename_i htotal
  split at h
  · cases h
  split at h
  · cases h
  split at h
  · cases h
  split at h
  · cases h
  split at h
  · cases h
  split at h
  · cases h
  rename_i hmax
  cases h
  refine ⟨ho.symm, le_paddedLen _, rfl, fun _ => ?_⟩
  have hcut : maxBufSize - firstPktSize = 1984 := rfl
  dsimp only [paddedLen]
  split <;> omega

theorem processIpv6Packet_parsed (ho : o.ipv6Enable = true) {offset : Nat}
    (h : processIpv6Packet o pkt offset = some ind) : Parsed o ind := by
  simp only [processIpv6Packet] at h
  split at h
  · cases h
  split at h
  · cases h
  split at h
  · cases h
  cases h
  exact ⟨ho.symm, le_paddedLen _, rfl, fun h => by cases h⟩

theorem processPacket_parsed (h : processPacket o pkt = some ind) : Parsed o ind := by
  unfold processPacket at h
  split at h
  · cases h
  · split at h
    · rename_i ho
      exact processIpv6Packet_parsed ho h
    · cases h
  · split at h
    · cases h
    split at h
    · rename_i ho
      obtain ⟨pkt', -, h⟩ := Option.bind_eq_some_iff.mp h
      exact processIpv6Packet_parsed ho h
    · rename_i ho
      exact processIpPacket_parsed (Bool.eq_false_iff.mpr ho) h

/-- The header length is the header length of any memory with the same first byte of the header. -/
theorem getHeaderLength_congr {m m' : Mem} {ip : Nat} (h : m ip = m' ip) :
    getHeaderLength m ip = getHeaderLength m' ip := by
  rw [getHeaderLength, getHeaderLength, h]

/-- Moving the TTL out of the way changes neither the length nor the header length. -/
theorem freeReservedTTL_parsed (h : Parsed o ind) :
    Parsed o (freeReservedTTL ind) := by
  unfold freeReservedTTL
  split
  · obtain ⟨hv6, hmin, hl4, hmax⟩ := h
    refine ⟨hv6, hmin, ?_, hmax⟩
    have hfirst : (setTTL ind (ttlReserveDuplicate - 4)).packet.raw ind.ipOffset =
        ind.packet.raw ind.ipOffset := by
      simp only [setTTL, setField8]
      split
      · exact Mem.store_of_lt _ _ (by omega)
      · rw [updateCheckSum_of_ne _ (Or.inl (by omega))]
        exact Mem.store_of_lt _ _ (by omega)
    exact hl4.trans (congrArg _ (congrArg _ (getHeaderLength_congr hfirst).symm))
  · exact h

/-! ## 2. The constant mbuf -/

/-- A buffer of a pool holds what the pool is for. -/
theorem appendTo_eq (abi : Abi) {size len : Nat} (hsize : size < 2 ^ 16) (hlen : len ≤ size) :
    (appendTo abi size len).isSome = true := by
  have hroom : ¬ len > rtePktmbufTailroom { bufLen := size, dataOff := 0, dataLen := 0 } :=
    Nat.not_lt.mpr hlen
  rw [appendTo, rtePktmbufAlloc_mempoolCreate abi hsize, Option.bind_some, rtePktmbufAppend,
    if_neg hroom]
  rfl

/-- The constant mbuf is what is behind the first bytes. -/
def tailOf (pkt : CCapPktRaw) : Option (List UInt8) :=
  if pkt.pktLen > firstPktSize then some (pkt.raw.read firstPktSize (pkt.pktLen - firstPktSize))
    else none

theorem allocConstMbuf_some {bigMbuf : Option (List UInt8)}
    (h : allocConstMbuf abi pkt = some bigMbuf) : bigMbuf = tailOf pkt := by
  unfold allocConstMbuf at h
  unfold tailOf
  split at h
  · rename_i hgt
    obtain ⟨size, -, h⟩ := Option.bind_eq_some_iff.mp h
    obtain ⟨m, -, h⟩ := Option.map_eq_some_iff.mp h
    rw [if_pos hgt, ← h]
  · rename_i hle
    cases h
    rw [if_neg hle]

/-- The constant mbuf does not depend on the first bytes. -/
theorem tailOf_congr {pkt' : CCapPktRaw} (hlen : pkt'.pktLen = pkt.pktLen)
    (h : ∀ x, firstPktSize ≤ x → pkt'.raw x = pkt.raw x) : tailOf pkt' = tailOf pkt := by
  unfold tailOf
  rw [hlen, Mem.read_congr fun x hx _ => h x hx]

/-! ## 3. What is loaded -/

/-- **The shape of a packet of a template.** -/
structure LoadedPkt (o : ParserOption) (b : PktBytes) : Prop where
  ipv6 : b.ind.isIpv6 = o.ipv6Enable
  learn : b.isLearn = true → o.learnMode = true ∧ b.isInitSide = true
  ip : b.ind.ipOffset = 14
  l4 : b.ind.udpTcpOffset = (if b.ind.isIpv6 then 54 else 34) +
    (if b.isLearn then noOptionLen else 0)
  header : b.ind.isIpv6 = false → getHeaderLength b.ind.packet.raw 14 ≤ 28
  min : 60 ≤ b.ind.packet.pktLen
  max : ¬ (b.ind.isIpv6 = true ∧ b.isLearn = true) → b.ind.packet.pktLen < maxBufSize
  tail : b.bigMbuf = tailOf b.ind.packet

/-- A packet without the option; an IPv4 packet is shorter, and its header has no options. -/
theorem loadedPkt_of_create (hind : Parsed o ind) (hvalid : isValidTemplateLoadTime ind = true)
    {side : Bool} (h : PktBytes.create abi ind side = some b) :
    LoadedPkt o b ∧ b.ind = ind ∧ b.isInitSide = side ∧ b.isLearn = false ∧
      (ind.isIpv6 = false → getHeaderLength ind.packet.raw 14 = 20) := by
  unfold PktBytes.create at h
  split at h
  · rename_i hlen
    obtain ⟨bigMbuf, hbig, rfl⟩ := Option.map_eq_some_iff.mp h
    simp only [isValidTemplateLoadTime, Bool.and_eq_true, beq_iff_eq] at hvalid
    obtain ⟨⟨-, hip⟩, hl4⟩ := hvalid
    have hheader : ind.isIpv6 = false → getHeaderLength ind.packet.raw 14 = 20 := by
      intro hv4
      have h1 := hind.l4
      simp only [hv4, hip, Bool.false_eq_true, ↓reduceIte, beq_iff_eq] at h1 hl4
      omega
    refine ⟨⟨hind.ipv6, ?_, hip, ?_, ?_, hind.min, fun _ => hlen.2, allocConstMbuf_some hbig⟩, rfl,
      rfl, rfl, hheader⟩
    · intro hl
      cases hl
    · cases hv6 : ind.isIpv6 <;> simpa [hv6] using hl4
    · intro hv4
      rw [hheader hv4]
      decide
  · cases h

/-- The option is written below the cut, and not on the first byte of the header. -/
theorem initOption_of_ge (hip : b.ind.ipOffset = 14) {x : Nat} (hx : x = 14 ∨ firstPktSize ≤ x) :
    initOption b x = b.ind.packet.raw x := by
  have hcut : firstPktSize = 64 := rfl
  simp only [initOption, hip, ipv6DefaultSize, ipv4DefaultSize, setField8]
  rcases hx with rfl | hx
  · split
    · simp (disch := omega) only [Mem.store_of_lt]
    · rw [updateCheckSum_of_ne _ (Or.inl (by omega))]
      simp (disch := omega) only [Mem.store_of_lt]
  · split
    · simp (disch := omega) only [Mem.store_of_ge]
    · rw [updateCheckSum_of_ne _ (Or.inr (by omega))]
      simp (disch := omega) only [Mem.store_of_ge]

/-- Inserting bytes does not move what is before them. -/
theorem insertBytes_of_lt (pkt : CCapPktRaw) {pos bytes x : Nat} (h : x < pos) :
    (insertBytes pkt pos bytes).raw x = pkt.raw x :=
  Mem.putBytes_of_lt _ _ (by omega)

/-- The header is longer by the option. -/
theorem getHeaderLength_setHeaderLength (m : Mem) (ip : Nat) {len : Nat} (hmod : len % 4 = 0)
    (hle : len ≤ 60) :
    getHeaderLength (setHeaderLength m ip len) ip = len := by
  have hbyte : (setHeaderLength m ip len) ip =
      UInt8.ofNat ((m ip).toNat / 16 * 16 + len / 4 % 16) := by
    have h0 := Mem.putBytes_inside (i := 0) (a := ip) m
      (l := toBytes 1 ((m ip).toNat / 16 * 16 + len / 4 % 16)) rfl
    exact h0
  have hm := (m ip).toNat_lt
  rw [getHeaderLength, hbyte, UInt8.toNat_ofNat']
  omega

/-- What a push of the option does to a packet. -/
structure Pushed (b b' : PktBytes) : Prop where
  ipv6 : b'.ind.isIpv6 = b.ind.isIpv6
  side : b'.isInitSide = b.isInitSide
  ip : b'.ind.ipOffset = b.ind.ipOffset
  l4 : b'.ind.udpTcpOffset = b.ind.udpTcpOffset + noOptionLen
  len : b'.ind.packet.pktLen = b.ind.packet.pktLen + noOptionLen
  tail : b'.bigMbuf = tailOf b'.ind.packet

variable {b' : PktBytes} {a : Nat}

theorem refresh_pushed (hlen : pkt.pktLen = b.ind.packet.pktLen + noOptionLen)
    (h : b.refresh abi pkt noOptionLen = some b') :
    Pushed b b' ∧ b'.ind.packet = pkt := by
  unfold PktBytes.refresh at h
  obtain ⟨bigMbuf, hbig, rfl⟩ := Option.map_eq_some_iff.mp h
  exact ⟨⟨rfl, rfl, rfl, rfl, hlen, allocConstMbuf_some hbig⟩, rfl⟩

theorem pushIpv6OptionOffline_pushed (h : pushIpv6OptionOffline abi b noOptionLen = some b') :
    Pushed b b' :=
  (refresh_pushed rfl h).1

/-- The IPv4 header is as long as it says, with the option. -/
theorem pushIpv4OptionOffline_pushed (hip : b.ind.ipOffset = 14)
    (hheader : getHeaderLength b.ind.packet.raw 14 = 20)
    (h : pushIpv4OptionOffline abi b noOptionLen = some b') :
    Pushed b b' ∧ getHeaderLength b'.ind.packet.raw 14 = 28 := by
  simp only [pushIpv4OptionOffline, hip] at h
  split at h
  · cases h
  · obtain ⟨hpushed, hpkt⟩ := refresh_pushed rfl h
    refine ⟨hpushed, ?_⟩
    have hlen : getHeaderLength
        (setField16 (insertBytes b.ind.packet (14 + ipv4DefaultSize) noOptionLen).raw
        (14 + 2) (getTotalLength (insertBytes b.ind.packet (14 + ipv4DefaultSize) noOptionLen).raw
          14 + noOptionLen)) 14 = 20 := by
      rw [← hheader]
      refine getHeaderLength_congr ?_
      rw [setField16, Mem.store_of_lt _ _ (by omega)]
      exact insertBytes_of_lt _ (by decide)
    rw [hpkt, hlen]
    exact getHeaderLength_setHeaderLength _ _ (by decide) (by decide)

/-- The first packet in learn mode. -/
theorem maskAsLearn_loaded (hind : Parsed o b.ind) (hb : LoadedPkt o b) (hnot : b.isLearn = false)
    (hmode : o.learnMode = true) (hside : b.isInitSide = true)
    (hheader : b.ind.isIpv6 = false → getHeaderLength b.ind.packet.raw 14 = 20)
    (h : maskAsLearn abi b = some b') : LoadedPkt o b' := by
  unfold maskAsLearn at h
  obtain ⟨b1, hpush, rfl⟩ := Option.map_eq_some_iff.mp h
  have hpushed : Pushed b b1 ∧
      (b.ind.isIpv6 = false → getHeaderLength b1.ind.packet.raw 14 = 28) := by
    cases hv6 : b.ind.isIpv6 with
    | true =>
      rw [hv6, if_pos rfl] at hpush
      exact ⟨pushIpv6OptionOffline_pushed hpush, fun h => by cases h⟩
    | false =>
      rw [hv6, if_neg Bool.false_ne_true] at hpush
      obtain ⟨h1, h2⟩ := pushIpv4OptionOffline_pushed hb.ip (hheader hv6) hpush
      exact ⟨h1, fun _ => h2⟩
  obtain ⟨hp, hlen⟩ := hpushed
  have hip : b1.ind.ipOffset = 14 := hp.ip.trans hb.ip
  have hl4 := hb.l4
  rw [hnot, if_neg Bool.false_ne_true, Nat.add_zero] at hl4
  constructor
  · exact hp.ipv6.trans hb.ipv6
  · intro _
    exact ⟨hmode, hp.side.trans hside⟩
  · exact hip
  · dsimp only
    rw [hp.l4, hl4, hp.ipv6, if_pos rfl]
  · intro hv4
    dsimp only
    rw [getHeaderLength_congr (initOption_of_ge hip (Or.inl rfl)), hlen (hp.ipv6.symm.trans hv4)]
  · exact hp.len.symm ▸ Nat.le_add_right_of_le hb.min
  · intro hn
    have hv4 : b.ind.isIpv6 = false := by
      cases hv6 : b.ind.isIpv6 with
      | true => exact absurd ⟨hp.ipv6.trans hv6, rfl⟩ hn
      | false => rfl
    calc b1.ind.packet.pktLen = b.ind.packet.pktLen + noOptionLen := hp.len
      _ ≤ (maxBufSize - firstPktSize) + noOptionLen := Nat.add_le_add_right (hind.max hv4) _
      _ < maxBufSize := by decide
  · refine hp.tail.trans (Eq.symm (tailOf_congr ?_ ?_))
    · rfl
    · intro x hx
      exact initOption_of_ge hip (Or.inr hx)

/-- **Every packet of a template has this shape.**  The first packet of a template is the
initiator's. -/
theorem loadPacket_loaded {i : Nat} {desc : CPacketDescriptor}
    (hfirst : i = 0 → desc.isInitSide = true) (h : loadPacket abi o i desc pkt = some b) :
    LoadedPkt o b := by
  unfold loadPacket at h
  obtain ⟨ind, hind, h⟩ := Option.bind_eq_some_iff.mp h
  obtain ⟨b1, hcreate, h⟩ := Option.bind_eq_some_iff.mp h
  have hparsed := freeReservedTTL_parsed (processPacket_parsed hind)
  have hb1 : b1.ind = freeReservedTTL ind := by
    unfold PktBytes.create at hcreate
    split at hcreate
    · obtain ⟨bigMbuf, -, rfl⟩ := Option.map_eq_some_iff.mp hcreate
      rfl
    · cases hcreate
  split at h
  · rename_i hvalid
    rw [hb1] at hvalid
    obtain ⟨hloaded, -, hside, hnot, hheader⟩ := loadedPkt_of_create hparsed hvalid hcreate
    split at h
    · rename_i hmark
      simp only [isMarked, Bool.and_eq_true, beq_iff_eq] at hmark
      obtain ⟨⟨hmode, hi⟩, -⟩ := hmark
      rw [← hb1] at hparsed hheader
      exact maskAsLearn_loaded hparsed hloaded hnot hmode (hside.trans (hfirst hi)) hheader h
    · cases h
      exact hloaded
  · cases h

/-! ## 4. What `update_pkt_info` reads and writes -/

/-- An IPv4 header of at most 28 bytes. -/
def HeaderOk (isIpv6 : Bool) (m : Mem) : Prop := isIpv6 = false → getHeaderLength m 14 ≤ 28

/-- A function that rewrites a packet: it reads below 60 and writes below the cut. -/
def Rewrites (isIpv6 : Bool) (f : Mem → Mem) : Prop := Local (HeaderOk isIpv6) 60 firstPktSize f

/-- The first byte of the header is not written. -/
theorem HeaderOk.store {m : Mem} (h : HeaderOk isIpv6 m) (n v : Nat) (ha : 14 < a) :
    HeaderOk isIpv6 (m.store a n v) := by
  intro hv4
  rw [getHeaderLength_congr (Mem.store_of_lt m v ha)]
  exact h hv4

theorem rewrites_store {n : Nat} {v : Mem → Nat} (ha : 14 < a) (hw : a + n ≤ 64)
    (hv : ReadsBelow (HeaderOk isIpv6) 60 v) : Rewrites isIpv6 fun m => m.store a n (v m) :=
  Local.store hw hv fun h => h.store _ _ ha

theorem rewrites_field8 (n : Nat) (ha : 14 < a) (hw : a + 1 ≤ 64) :
    Rewrites isIpv6 fun m => setField8 m a n :=
  rewrites_store ha hw (ReadsBelow.const _)

theorem rewrites_field16 (n : Nat) (ha : 14 < a) (hw : a + 2 ≤ 64) :
    Rewrites isIpv6 fun m => setField16 m a n :=
  rewrites_store ha hw (ReadsBelow.const _)

/-- The checksum of the header is below the cut, and so is all that it is computed from. -/
theorem rewrites_updateCheckSum : Rewrites false fun m => updateCheckSum m 14 := by
  constructor
  · intro m hm hv4
    rw [getHeaderLength_congr (updateCheckSum_of_ne m (Or.inl (by omega)))]
    exact hm hv4
  · intro m m' hm _ hr x hx
    have hlen := hm rfl
    exact updateCheckSum_congr (hr 14 (by omega)) (fun y _ hy => hr y (by omega)) hx
  · intro m _ x hx
    have hcut : firstPktSize = 64 := rfl
    exact updateCheckSum_of_ne m (Or.inr (by omega))

/-- An address and the checksum: three stores of what is read below 60. -/
theorem rewrites_updateIpField {field : Nat} (hfield : 12 ≤ field) (hle : field ≤ 16) (ip : Nat) :
    Rewrites isIpv6 fun m => updateIpField field m 14 ip := by
  constructor
  · intro m hm
    exact ((hm.store _ _ (by omega)).store _ _ (by omega)).store _ _ (by omega)
  · intro m m' _ _ hr x hx
    have hold : m.load (14 + field) 4 = m'.load (14 + field) 4 :=
      Mem.load_congr fun y _ hy => hr y (by omega)
    have hcs : m.load (14 + 10) 2 = m'.load (14 + 10) 2 :=
      Mem.load_congr fun y _ hy => hr y (by omega)
    simp only [updateIpField, hold, hcs, Mem.load_store]
    exact Mem.store_congr fun _ => Mem.store_congr fun _ => Mem.store_congr fun _ => hx
  · intro m _ x hx
    have hcut : firstPktSize = 64 := rfl
    simp only [updateIpField]
    rw [Mem.store_of_ge _ _ (by omega), Mem.store_of_ge _ _ (by omega),
      Mem.store_of_ge _ _ (by omega)]

/-- Both addresses of an IPv4 packet. -/
theorem rewrites_updateIp (src dst : Nat) :
    Rewrites isIpv6 fun m => updateIpDst (updateIpSrc m 14 src) 14 dst :=
  Local.comp (rewrites_updateIpField (by decide) (by decide) dst)
    (rewrites_updateIpField (by decide) (by decide) src)

/-- Both addresses of an IPv6 packet: the last four bytes of each. -/
theorem rewrites_updateLSB (src dst : Nat) :
    Rewrites isIpv6 fun m => updateLSBIpv6Dst (updateLSBIpv6Src m 14 src) 14 dst :=
  Local.comp (rewrites_store (by decide) (by decide) (ReadsBelow.const _))
    (rewrites_store (by decide) (by decide) (ReadsBelow.const _))

section Update

variable {o : ParserOption} {b : PktBytes} (hb : LoadedPkt o b) (node : FlowNode)

include hb

theorem rewrites_updateIpv6Addr : Rewrites isIpv6 (updateIpv6Addr b node) := by
  unfold updateIpv6Addr
  rw [hb.ip]
  exact Local.ite _ (fun _ => rewrites_updateLSB _ _) fun _ => rewrites_updateLSB _ _

/-- The option of a learn packet is in the 28 bytes of the header. -/
theorem rewrites_updateNatOption : Rewrites isIpv6 (updateNatOption b node) := by
  unfold updateNatOption
  rw [hb.ip]
  refine Local.ite _ (fun _ => ?_) fun _ => Local.id
  exact Local.comp (rewrites_field8 _ (by decide) (by decide))
    (Local.comp (rewrites_field8 _ (by decide) (by decide))
      (Local.comp (rewrites_store (by decide) (by decide) (ReadsBelow.const _))
        (rewrites_field8 _ (by decide) (by decide))))

theorem rewrites_updateIpv4Addr : Rewrites isIpv6 (updateIpv4Addr o b node) := by
  have hopt : Rewrites isIpv6 (updateNatOption b node) := rewrites_updateNatOption hb node
  unfold updateIpv4Addr
  rw [hb.ip]
  refine Local.ite _ (fun _ => ?_) fun _ => ?_
  · exact Local.ite _ (fun _ => Local.comp (rewrites_updateIp _ _) hopt)
      fun _ => Local.comp (rewrites_updateIp _ _) hopt
  · exact Local.ite _ (fun _ => rewrites_updateIp _ _) fun _ => rewrites_updateIp _ _

/-- Where the transport header of a packet is. -/
theorem LoadedPkt.l4_cases : 34 ≤ b.ind.udpTcpOffset ∧
    (b.ind.udpTcpOffset ≤ 54 ∨ b.ind.udpTcpOffset = 62 ∧ b.ind.isIpv6 = true ∧
        b.isLearn = true) := by
  have hl4 := hb.l4
  have hopt : noOptionLen = 8 := rfl
  cases hv6 : b.ind.isIpv6 <;> cases hl : b.isLearn <;> simp [hv6, hl, hopt] at hl4 ⊢ <;> omega

/-- The ports are below the cut, and so is the checksum of a UDP packet unless the option has moved
it. -/
theorem rewrites_updatePort (port : UInt16)
    (hnot : ¬ (b.ind.isIpv6 = true ∧ b.isLearn = true ∧ b.ind.proto = .udp)) :
    Rewrites isIpv6 (updatePort b port) := by
  obtain ⟨hge, hle⟩ := hb.l4_cases
  have hport : Rewrites isIpv6 fun m =>
      if b.isInitSide then setField16 m b.ind.udpTcpOffset port.toNat
      else setField16 m (b.ind.udpTcpOffset + 2) port.toNat := by
    refine Local.ite _ (fun _ => ?_) fun hside => ?_
    · exact rewrites_field16 _ (by omega) (by omega)
    · -- the option is on the first packet, which is the initiator's
      have hlearn : b.isLearn ≠ true := fun hl => hside (hb.learn hl).2
      refine rewrites_field16 _ (by omega) ?_
      rcases hle with hle | ⟨-, -, hl⟩
      · omega
      · exact absurd hl hlearn
  unfold updatePort
  cases hproto : b.ind.proto with
  | tcp => exact hport
  | udp =>
    have hle54 : b.ind.udpTcpOffset ≤ 54 := by
      rcases hle with hle | ⟨-, hv6, hl⟩
      · exact hle
      · exact absurd ⟨hv6, hl, hproto⟩ hnot
    exact Local.comp hport (rewrites_field16 _ (by omega) (by omega))

/-- **What is rewritten of a packet is below the cut.** -/
theorem rewrites_updatePktInfo
    (hnot : ¬ (b.ind.isIpv6 = true ∧ b.isLearn = true ∧ b.ind.proto = .udp)) :
    Rewrites b.ind.isIpv6 (updatePktInfo o b node) := by
  unfold updatePktInfo
  cases hv6 : b.ind.isIpv6 with
  | true =>
    exact Local.comp (rewrites_updatePort hb _ hnot) (rewrites_updateIpv6Addr hb node)
  | false =>
    rw [hb.ip]
    exact Local.comp (rewrites_updatePort hb _ hnot)
      (Local.comp rewrites_updateCheckSum (rewrites_updateIpv4Addr hb node))

/-- A memory that starts with the header of the packet. -/
theorem LoadedPkt.headerOk {m : Mem} (h : m 14 = b.ind.packet.raw 14) :
    HeaderOk b.ind.isIpv6 m := by
  intro hv4
  rw [getHeaderLength_congr h]
  exact hb.header hv4

end Update

/-! ## 5. The two packets -/

/-- **The fast path is the slow path**: the packets are the same whatever the buffers held before,
nothing behind the first segment is written, and the constant mbuf is the rest of the template. -/
structure PathsAgree (abi : Abi) (o : ParserOption) (b : PktBytes) (node : FlowNode) : Prop where
  same : ∀ p p', ∃ bytes, doGenerateNewMbuf abi o b node p = some bytes ∧
    doGenerateNewMbufBig abi o b node p' = some bytes
  confined : ∀ m : Mem, (∀ x < firstLen b.ind.packet.pktLen, m x = b.ind.packet.raw x) →
    ∀ x, firstPktSize ≤ x → updatePktInfo o b node m x = m x
  tail : b.bigMbuf.getD [] = b.ind.packet.raw.read (firstLen b.ind.packet.pktLen)
    (b.ind.packet.pktLen - firstLen b.ind.packet.pktLen)

theorem tailOf_getD (pkt : CCapPktRaw) :
    (tailOf pkt).getD [] = pkt.raw.read (firstLen pkt.pktLen) (pkt.pktLen -
        firstLen pkt.pktLen) := by
  unfold tailOf firstLen
  split
  · rfl
  · rw [Nat.sub_self]
    rfl

/-- There always is a buffer for a first segment. -/
theorem firstSegment_map {β : Type} (abi : Abi) (pktLen : Nat) (x : β) :
    (appendTo abi firstPktSize (firstLen pktLen)).map (fun _ => x) = some x := by
  have hlen : firstLen pktLen ≤ firstPktSize := by
    unfold firstLen
    split <;> omega
  obtain ⟨m, hm⟩ := Option.isSome_iff_exists.mp (appendTo_eq abi (by decide) hlen)
  rw [hm]
  rfl

/-- There is a buffer for a packet exactly below `MAX_BUF_SIZE`. -/
theorem wholePacket_map {β : Type} (abi : Abi) (len : Nat) (x : β) :
    ((pktmbufAlloc len).bind fun size => (appendTo abi size len).map fun _ => x) =
      if len < maxBufSize then some x else none := by
  rcases pktmbufAlloc_spec len with ⟨⟨n, hn, hle, hmax⟩, hlt⟩ | ⟨hnone, hge⟩
  · obtain ⟨m, hm⟩ := Option.isSome_iff_exists.mp
      (appendTo_eq abi (Nat.lt_of_le_of_lt hmax (by decide)) hle)
    rw [if_pos hlt, hn, Option.bind_some, hm]
    rfl
  · rw [hnone, if_neg (by omega)]
    rfl

/-- The fast path always has a buffer. -/
theorem doGenerateNewMbuf_eq (abi : Abi) (o : ParserOption) (b : PktBytes) (node : FlowNode)
    (p : Mem) :
    doGenerateNewMbuf abi o b node p =
      some (rewriteCopy o b node p (firstLen b.ind.packet.pktLen) ++ b.bigMbuf.getD []) :=
  firstSegment_map abi _ _

/-- The slow path has a buffer exactly below `MAX_BUF_SIZE`. -/
theorem doGenerateNewMbufBig_eq (abi : Abi) (o : ParserOption) (b : PktBytes) (node : FlowNode)
    (p : Mem) :
    doGenerateNewMbufBig abi o b node p =
      if b.ind.packet.pktLen < maxBufSize then some (rewriteCopy o b node p b.ind.packet.pktLen)
          else none :=
  wholePacket_map abi _ _

section Agree

variable {abi : Abi} {o : ParserOption} {b : PktBytes} (hb : LoadedPkt o b) (node : FlowNode)

include hb

theorem pathsAgree_of_not (hlen : b.ind.packet.pktLen < maxBufSize)
    (hnot : ¬ (b.ind.isIpv6 = true ∧ b.isLearn = true ∧ b.ind.proto = .udp)) :
    PathsAgree abi o b node := by
  have hrewrites := rewrites_updatePktInfo hb node hnot
  have hmin := hb.min
  have hcut : firstPktSize = 64 := rfl
  have hfirst : 60 ≤ firstLen b.ind.packet.pktLen := by
    unfold firstLen
    split <;> omega
  have htail : b.bigMbuf.getD [] = b.ind.packet.raw.read (firstLen b.ind.packet.pktLen)
      (b.ind.packet.pktLen - firstLen b.ind.packet.pktLen) := by
    rw [hb.tail, tailOf_getD]
  refine ⟨?_, ?_, htail⟩
  · intro p p'
    refine ⟨_, doGenerateNewMbuf_eq abi o b node p, ?_⟩
    rw [doGenerateNewMbufBig_eq, if_pos hlen, htail]
    refine congrArg some (Eq.symm (Local.read_append hrewrites hfirst ?_ ?_ ?_ p p'))
    · unfold firstLen
      split <;> omega
    · unfold firstLen
      intro hlt
      split at hlt <;> split <;> omega
    · intro m' hm'
      exact hb.headerOk (hm' 14 (by omega))
  · intro m hm x hx
    exact hrewrites.writes (hb.headerOk (hm 14 (by omega))) hx

/-- With the option in an IPv6 packet, the checksum of UDP is written behind the cut. -/
theorem not_pathsAgree_of_udp (hv6 : b.ind.isIpv6 = true) (hlearn : b.isLearn = true)
    (hudp : b.ind.proto = .udp) : ¬ PathsAgree abi o b node := by
  intro h
  have hl4 : b.ind.udpTcpOffset = 62 := by
    rw [hb.l4, hv6, hlearn]
    rfl
  have hside := (hb.learn hlearn).2
  have hfirst : firstLen b.ind.packet.pktLen ≤ 64 := by
    unfold firstLen
    have hcut : firstPktSize = 64 := rfl
    split <;> omega
  -- a buffer with something behind the cut
  let m : Mem := b.ind.packet.raw.store 68 1 1
  have hm68 : m 68 = 1 := Mem.putBytes_inside (i := 0) (a := 68) _ rfl
  have hwritten : updatePktInfo o b node m 68 = 0 := by
    simp only [updatePktInfo, updatePort, hl4, hudp, hside, hv6, ↓reduceIte, setField16]
    rw [Mem.store_of_ge _ _ (by omega)]
    exact Mem.putBytes_inside (i := 0) (a := 68) _ rfl
  have hsame := h.confined m (fun x hx => Mem.store_of_lt _ _ (by omega)) 68 (by decide)
  rw [hwritten, hm68] at hsame
  exact absurd hsame (by decide)

end Agree

/-- A packet that the option has made too long for a buffer. -/
theorem not_pathsAgree_of_le (node : FlowNode) (hlen : maxBufSize ≤ b.ind.packet.pktLen) :
    ¬ PathsAgree abi o b node := by
  intro h
  obtain ⟨bytes, -, hbig⟩ := h.same (fun _ => 0) (fun _ => 0)
  rw [doGenerateNewMbufBig_eq, if_neg (by omega)] at hbig
  cases hbig

/-! ### The packets of a template

What is loaded has its headers where the rewriting writes (`LoadedPkt`), which decides where the
paths part under any options.  With options that the command line admits the combination does not
arise. -/

section Template

variable {κ : Type} [DecidableEq κ] {multiFlow : Bool} {ipg : Option (Rat × Rat)} {id : UInt16}
  {raws : List (RawPacket κ)} {info : CCapFileFlowInfo} {abi : Abi} {o : ParserOption} {i : Nat}
  {lp : CFlowPktInfo} {pkt : CCapPktRaw} {b : PktBytes}

/-- A packet of a template is loaded as the first one of its side only if it is. -/
theorem loadedPkt_of_template (hload : loadTemplate multiFlow o.learnMode ipg id raws = .ok info)
    (hi : info.pkts[i]? = some lp) (hpkt : loadPacket abi o i lp.desc pkt = some b) :
    LoadedPkt o b := by
  have hfirst : i = 0 → lp.desc.isInitSide = true := by
    rintro rfl
    exact (loadTemplate_ordered hload).first lp (by rw [List.head?_eq_getElem?]; exact hi)
  exact loadPacket_loaded hfirst hpkt

/-- **Where the paths part**, whatever the options are: at an IPv6 packet with the option of the
learn mode that is UDP, or that the option has made too long for a buffer. -/
theorem pathsAgree_iff (hload : loadTemplate multiFlow o.learnMode ipg id raws = .ok info)
    (hi : info.pkts[i]? = some lp) (hpkt : loadPacket abi o i lp.desc pkt = some b)
    (node : FlowNode) :
    PathsAgree abi o b node ↔ ¬ (b.ind.isIpv6 = true ∧ b.isLearn = true ∧
      (b.ind.proto = .udp ∨ maxBufSize ≤ b.ind.packet.pktLen)) := by
  have hb := loadedPkt_of_template hload hi hpkt
  constructor
  · rintro h ⟨hv6, hlearn, hudp | hlen⟩
    · exact not_pathsAgree_of_udp hb node hv6 hlearn hudp h
    · exact not_pathsAgree_of_le node hlen h
  · intro hnot
    refine pathsAgree_of_not hb node ?_ fun ⟨hv6, hlearn, hudp⟩ => hnot ⟨hv6, hlearn, Or.inl hudp⟩
    by_cases hboth : b.ind.isIpv6 = true ∧ b.isLearn = true
    · exact Nat.lt_of_not_le fun hlen => hnot ⟨hboth.1, hboth.2, Or.inr hlen⟩
    · exact hb.max hboth

/-- **Both ways make the same packet**, for every packet of every template and every node.  A learn
packet needs `--learn` and an IPv6 packet `--ipv6`; `parse_options` refuses the two together, so
that no packet is both. -/
theorem fastPath_agrees (hadm : o.isAdmitted = true)
    (hload : loadTemplate multiFlow o.learnMode ipg id raws = .ok info)
    (hi : info.pkts[i]? = some lp) (hpkt : loadPacket abi o i lp.desc pkt = some b)
    (node : FlowNode) :
    PathsAgree abi o b node := by
  have hb := loadedPkt_of_template hload hi hpkt
  refine (pathsAgree_iff hload hi hpkt node).mpr ?_
  rintro ⟨hv6, hlearn, -⟩
  have hmode : o.learnMode = true := (hb.learn hlearn).1
  have hipv6 : o.ipv6Enable = true := hb.ipv6.symm.trans hv6
  rw [ParserOption.isAdmitted, hmode, hipv6] at hadm
  cases hadm

end Template

/-- A flow of two packets, one of each side. -/
def exampleRaws : List (RawPacket Nat) := [⟨7, false, 0⟩, ⟨7, true, 1⟩]

/-- An IPv4 packet with UDP and 40 bytes of payload. -/
def exampleIpv4 : List UInt8 :=
  [0, 0, 0, 1, 0, 0, 0, 0, 0, 2, 0, 0, 0x08, 0x00,
    0x45, 0, 0, 68, 0, 0, 0, 0, 64, 17, 0, 0, 16, 0, 0, 1, 48, 0, 0, 1,
    4, 1, 0, 53, 0, 48, 0xAB, 0xCD] ++ List.replicate 40 0x55

def examplePkt : CCapPktRaw :=
    { raw := fun a => exampleIpv4.getD a 0, pktLen := exampleIpv4.length }

def exampleOption (ipv6Enable learnMode : Bool) : ParserOption where
  ipv6Enable := ipv6Enable
  learnMode := learnMode
  srcIpv6 := fun _ => 0
  dstIpv6 := fun _ => 0

def exampleNode : FlowNode where
  srcIp := 0x10000005
  destIp := 0x30000005
  srcPort := 1029
  natIpv4Addr := 0
  natIpv4AddrServer := 0
  natIpv4Port := 0
  shortFid := 3
  threadId := 1
  isRxCheckEnabled := false
  initFromServer := false

/-- The first packet of the example, loaded with the given options, passes `test`. -/
def exampleTest (o : ParserOption) (test : PktBytes → Bool) : Bool :=
  match loadTemplate false o.learnMode none 0 exampleRaws with
  | .error _ => false
  | .ok info => info.pkts[0]?.any fun lp => (loadPacket ⟨16, 64⟩ o 0 lp.desc examplePkt).any test

theorem exampleTest_loaded (o : ParserOption) (test : PktBytes → Bool)
    (h : exampleTest o test = true) :
    ∃ info lp b, loadTemplate false o.learnMode none 0 exampleRaws = .ok info ∧
      info.pkts[0]? = some lp ∧
      loadPacket ⟨16, 64⟩ o 0 lp.desc examplePkt = some b ∧ test b = true := by
  unfold exampleTest at h
  cases hload : loadTemplate false o.learnMode none 0 exampleRaws with
  | error e =>
    rw [hload] at h
    cases h
  | ok info =>
    rw [hload] at h
    obtain ⟨lp, hlp, h⟩ := (Option.any_eq_true _ _).mp h
    obtain ⟨b, hb, h⟩ := (Option.any_eq_true _ _).mp h
    exact ⟨info, lp, b, rfl, hlp, hb, h⟩

/-- In learn mode the option is in the packet, and it is below the cut. -/
theorem fastPath_agrees_learn : ∃ info lp b,
    loadTemplate false (exampleOption false true).learnMode none 0 exampleRaws = .ok info ∧
    info.pkts[0]? = some lp ∧
      loadPacket ⟨16, 64⟩ (exampleOption false true) 0 lp.desc examplePkt = some b ∧
    b.isLearn = true ∧ PathsAgree ⟨16, 64⟩ (exampleOption false true) b exampleNode := by
  obtain ⟨info, lp, b, hload, hlp, hpkt, hlearn⟩ :=
    exampleTest_loaded (exampleOption false true) PktBytes.isLearn (by decide +kernel)
  exact ⟨info, lp, b, hload, hlp, hpkt, hlearn,
    fastPath_agrees (by decide) hload hlp hpkt exampleNode⟩

/-- The gate is needed: with `--learn` and `--ipv6` together the packets would differ, for the
checksum of UDP is in the constant mbuf. -/
theorem doGenerateNewMbuf_ne_ipv6Learn : ∃ info lp b,
    loadTemplate false (exampleOption true true).learnMode none 0 exampleRaws = .ok info ∧
    info.pkts[0]? = some lp ∧
      loadPacket ⟨16, 64⟩ (exampleOption true true) 0 lp.desc examplePkt = some b ∧
    doGenerateNewMbuf ⟨16, 64⟩ (exampleOption true true) b exampleNode (fun _ => 0) ≠
      doGenerateNewMbufBig ⟨16, 64⟩ (exampleOption true true) b exampleNode (fun _ => 0) := by
  obtain ⟨info, lp, b, hload, hlp, hpkt, hne⟩ := exampleTest_loaded (exampleOption true true)
    (fun b => decide (doGenerateNewMbuf ⟨16, 64⟩ (exampleOption true true) b exampleNode (fun _ =>
      0) ≠
      doGenerateNewMbufBig ⟨16, 64⟩ (exampleOption true true) b exampleNode (fun _ => 0)))
        (by decide +kernel)
  exact ⟨info, lp, b, hload, hlp, hpkt, of_decide_eq_true hne⟩

end Trex.Flow
