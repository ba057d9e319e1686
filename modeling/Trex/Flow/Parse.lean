/-
# What the parser accepts

`ProcessIpPacket` and `ProcessIpv6Packet` each check lengths of their own, and
`is_valid_template_load_time` checks the offsets.  Here is what they say together of a packet that
is accepted (`accepted`), first for each of the two as one conjunction of its checks (`Ipv4Checks`,
`Ipv6Checks`).

* The length that a TCP header announces is not compared with the 20 bytes that it has at least.
* `m_payload_len` of an IPv6 packet is the length behind the IPv6 header, with the L4 header in it,
  and the L4 header is compared with the length of the capture only.

So the parser is right about IPv4 packets whose TCP header says at least 20 bytes, and about no
other packet (`parse_sound_iff`).
-/
import Trex.Flow.Packet

namespace Trex.Flow

open Trex.Lib Trex.Net Trex.Pal List

/-! ## 1. The checks of the parser -/

/-- `TCPHeader::getHeaderLength` -/
def tcpHeaderLength (m : Mem) (l4 : Nat) : Nat := (m (l4 + 12)).toNat / 16 * 4

variable {pkt : CCapPktRaw} {offset payload : Nat} {proto : L4} {ind : CPacketIndication}
  {o : ParserOption}

theorem processIpPacketProtocol_eq_some {protocol : Nat} :
    processIpPacketProtocol pkt protocol offset = some (proto, payload) ↔
      ((protocol = 6 ∧ proto = .tcp ∧ payload = offset + tcpHeaderLength pkt.raw offset) ∨
        (protocol = 17 ∧ proto = .udp ∧ payload = offset + 8)) ∧ payload ≤ pkt.pktLen := by
  unfold processIpPacketProtocol tcpHeaderLength
  constructor
  · intro h
    split at h
    · rename_i hproto
      dsimp only at h
      split at h
      · cases h
      · cases h
        exact ⟨Or.inl ⟨hproto, rfl, rfl⟩, by omega⟩
    · split at h
      · rename_i hproto
        split at h
        · cases h
        · cases h
          exact ⟨Or.inr ⟨hproto, rfl, rfl⟩, by omega⟩
      · cases h
  · rintro ⟨⟨rfl, rfl, rfl⟩ | ⟨rfl, rfl, rfl⟩, hle⟩
    · rw [if_pos rfl]
      dsimp only
      rw [if_neg (by omega)]
    · rw [if_neg (by decide), if_pos rfl, if_neg (by omega)]

/-- The checks of `ProcessIpPacket`, for a packet whose payload is at `payload`. -/
structure Ipv4Checks (pkt : CCapPktRaw) (offset : Nat) (proto : L4) (payload : Nat) : Prop where
  version : getVersion pkt.raw offset = 4
  total : getTotalLength pkt.raw offset + offset ≤ pkt.pktLen
  header : getHeaderLength pkt.raw offset + offset ≤ pkt.pktLen
  ttl : pkt.raw (offset + 8) ≠ 0
  first : isNotFirstFragment pkt.raw offset = false
  l4 : processIpPacketProtocol pkt (pkt.raw (offset + 9)).toNat (offset +
    getHeaderLength pkt.raw offset) = some (proto, payload)
  inside : payload - offset ≤ getTotalLength pkt.raw offset
  size : pkt.pktLen ≤ maxBufSize - firstPktSize

/-- What `ProcessIpPacket` records. -/
def ipv4Indication (pkt : CCapPktRaw) (offset : Nat) (proto : L4) (payload : Nat) :
    CPacketIndication :=
  let m := pkt.raw
  let header := getHeaderLength m offset
  let pktLen := paddedLen (getTotalLength m offset + offset)
  { packet := { raw := m, pktLen }
    isIpv6 := false, proto, etherOffset := 0, ipOffset := offset, udpTcpOffset := offset + header
    payloadOffset := payload
    payloadLen := getTotalLength m offset - (payload - offset)
    packetPadding := updatePacketPadding m pktLen offset
    flowKey := (setKey m false offset (offset + header)).1
    isSwapTuple := (setKey m false offset (offset + header)).2 }

theorem processIpPacket_eq_some :
    processIpPacket pkt offset = some ind ↔
      ∃ proto payload, Ipv4Checks pkt offset proto payload ∧
          ind = ipv4Indication pkt offset proto payload := by
  constructor
  · intro h
    simp only [processIpPacket] at h
    split at h
    · cases h
    split at h
    · cases h
    split at h
    · cases h
    split at h
    · cases h
    split at h
    · cases h
    split at h
    · cases h
    split at h
    · cases h
    split at h
    · cases h
    rename_i hversion htotal hheader httl hfirst _ proto payload hl4 hinside hsize
    cases h
    exact ⟨proto, payload, ⟨by omega, by omega, by omega, httl, Bool.eq_false_iff.mpr hfirst,
      hl4, by omega, by omega⟩, rfl⟩
  · rintro ⟨proto, payload, ⟨hversion, htotal, hheader, httl, hfirst, hl4, hinside, hsize⟩, rfl⟩
    simp only [processIpPacket]
    rw [if_neg (not_not_intro hversion), if_neg (by omega), if_neg (by omega), if_neg httl,
      if_neg (by rw [hfirst]; exact Bool.false_ne_true), hl4]
    dsimp only
    rw [if_neg (by omega), if_neg (by omega)]
    rfl

/-- The six groups that `updateMSBIpv6` writes. -/
def msbBytes (groups : Nat → UInt16) (n : Nat) : List UInt8 :=
  (List.range n).flatMap fun i => (toBytes 2 (groups i).toNat).reverse

theorem length_msbBytes (groups : Nat → UInt16) (n : Nat) : (msbBytes groups n).length = 2 * n := by
  induction n with
  | zero => rfl
  | succ n ih =>
    rw [msbBytes, range_succ, flatMap_append, length_append, ← msbBytes, ih]
    simp
    omega

theorem updateMSBIpv6_eq (m : Mem) (a : Nat) (groups : Nat → UInt16) :
    updateMSBIpv6 m a groups = m.putBytes a (msbBytes groups 6) := by
  have hrun : ∀ n, (List.range n).foldl (fun m i => setField16 m (a + 2 * i) (groups i).toNat) m =
      m.putBytes a (msbBytes groups n) := by
    intro n
    induction n with
    | zero => exact (Mem.putBytes_nil m a).symm
    | succ n ih =>
      rw [range_succ, foldl_append, ih, foldl_cons, foldl_nil, setField16, Mem.store_bswap,
        ← length_msbBytes groups n, Mem.putBytes_append, msbBytes, msbBytes, range_succ,
          flatMap_append]
      rfl
  exact hrun 6

/-- The bytes of a packet behind `updateMSBIpv6Src` and `updateMSBIpv6Dst`. -/
def msbUpdated (o : ParserOption) (m : Mem) (offset : Nat) : Mem :=
  updateMSBIpv6 (updateMSBIpv6 m (offset + 8) o.srcIpv6) (offset + 24) o.dstIpv6

theorem msbUpdated_eq (o : ParserOption) (m : Mem) (offset : Nat) : msbUpdated o m offset =
    (m.putBytes (offset + 8) (msbBytes o.srcIpv6 6)).putBytes (offset + 24)
        (msbBytes o.dstIpv6 6) := by
  rw [msbUpdated, updateMSBIpv6_eq, updateMSBIpv6_eq]

variable {a : Nat}

/-- What is read next to the groups that are written. -/
theorem read_msbUpdated (o : ParserOption) (m : Mem) {n : Nat}
    (h : a + n ≤ offset + 8 ∨ (offset + 20 ≤ a ∧ a + n ≤ offset + 24) ∨ offset + 36 ≤ a) :
    (msbUpdated o m offset).read a n = m.read a n := by
  have hsrc : (msbBytes o.srcIpv6 6).length = 12 := length_msbBytes _ _
  have hdst : (msbBytes o.dstIpv6 6).length = 12 := length_msbBytes _ _
  rw [msbUpdated_eq, Mem.read_putBytes_of_disjoint _ _ (by omega),
    Mem.read_putBytes_of_disjoint _ _ (by omega)]

/-- The checks of `ProcessIpv6Packet`. -/
structure Ipv6Checks (o : ParserOption) (pkt : CCapPktRaw) (offset : Nat) (proto : L4)
    (payload : Nat) : Prop where
  version : getVersion pkt.raw offset = 6
  total : getPayloadLen pkt.raw offset + offset + ipv6DefaultSize ≤ pkt.pktLen
  l4 : processIpPacketProtocol { pkt with raw := msbUpdated o pkt.raw offset }
    (msbUpdated o pkt.raw offset (offset + 6)).toNat (offset + ipv6DefaultSize) =
      some (proto, payload)

/-- What `ProcessIpv6Packet` records; `m` is `msbUpdated`. -/
def ipv6Indication (m : Mem) (offset : Nat) (proto : L4) (payload : Nat) : CPacketIndication :=
  let realPktSize := getPayloadLen m offset + offset + ipv6DefaultSize
  { packet := { raw := m, pktLen := paddedLen realPktSize }
    isIpv6 := true, proto, etherOffset := 0, ipOffset := offset
    udpTcpOffset := offset + ipv6DefaultSize
    payloadOffset := payload
    payloadLen := getPayloadLen m offset
    packetPadding := paddedLen realPktSize - realPktSize
    flowKey := (setKey m true offset (offset + ipv6DefaultSize)).1
    isSwapTuple := (setKey m true offset (offset + ipv6DefaultSize)).2 }

theorem processIpv6Packet_eq_some :
    processIpv6Packet o pkt offset = some ind ↔
      ∃ proto payload, Ipv6Checks o pkt offset proto payload ∧
        ind = ipv6Indication (msbUpdated o pkt.raw offset) offset proto payload := by
  have hm : updateMSBIpv6 (updateMSBIpv6 pkt.raw (offset + 8) o.srcIpv6) (offset + 24) o.dstIpv6 =
      msbUpdated o pkt.raw offset := rfl
  constructor
  · intro h
    simp only [processIpv6Packet, hm] at h
    split at h
    · cases h
    split at h
    · cases h
    split at h
    · cases h
    rename_i hversion htotal _ proto payload hl4
    refine ⟨proto, payload, ⟨by omega, by omega, hl4⟩, ?_⟩
    exact (Option.some.inj h).symm
  · rintro ⟨proto, payload, ⟨hversion, htotal, hl4⟩, rfl⟩
    simp only [processIpv6Packet, hm]
    rw [if_neg (not_not_intro hversion), if_neg (by omega), hl4]
    rfl

/-! ## 2. A packet that is accepted -/

/-- The packet as it is accepted for a template, by the parser and by
`is_valid_template_load_time`. -/
def accepted (o : ParserOption) (pkt : CCapPktRaw) : Option CPacketIndication :=
  (processPacket o pkt).filter isValidTemplateLoadTime

theorem accepted_eq_some :
    accepted o pkt = some ind ↔ processPacket o pkt = some ind ∧
        isValidTemplateLoadTime ind = true := by
  rw [accepted, Option.filter_eq_some_iff]

/-- `ConvertPacketToIpv6InPlace`, or an IPv6 packet as it is. -/
def asIpv6 (pkt : CCapPktRaw) : Option CCapPktRaw :=
  match findL3 pkt.raw with
  | none => none
  | some (_, true) => some pkt
  | some (offset, false) =>
      if 14 + 20 > pkt.pktLen then none else convertPacketToIpv6InPlace pkt offset

/-- **An IPv4 packet that is accepted**: an IP header of 20 bytes at 14. -/
theorem accepted_ipv4 (ho : o.ipv6Enable = false) :
    accepted o pkt = some ind ↔ findL3 pkt.raw = some (14, false) ∧ 34 ≤ pkt.pktLen ∧
      getHeaderLength pkt.raw 14 = 20 ∧
      ∃ proto payload, Ipv4Checks pkt 14 proto payload ∧
          ind = ipv4Indication pkt 14 proto payload := by
  rw [accepted_eq_some]
  unfold processPacket
  constructor
  · rintro ⟨h, hvalid⟩
    split at h
    · cases h
    · rw [if_neg (by rw [ho]; exact Bool.false_ne_true)] at h
      cases h
    · rename_i offset hl3
      split at h
      · cases h
      rename_i hmin
      rw [if_neg (by rw [ho]; exact Bool.false_ne_true)] at h
      obtain ⟨proto, payload, hchecks, rfl⟩ := processIpPacket_eq_some.mp h
      simp only [isValidTemplateLoadTime, ipv4Indication, Bool.and_eq_true, beq_iff_eq,
        Bool.false_eq_true, ↓reduceIte] at hvalid
      obtain ⟨⟨-, rfl⟩, hl4⟩ := hvalid
      exact ⟨hl3, by omega, by omega, proto, payload, hchecks, rfl⟩
  · rintro ⟨hl3, hmin, hheader, proto, payload, hchecks, rfl⟩
    rw [hl3]
    dsimp only
    rw [if_neg (by omega), if_neg (by rw [ho]; exact Bool.false_ne_true)]
    refine ⟨processIpPacket_eq_some.mpr ⟨proto, payload, hchecks, rfl⟩, ?_⟩
    simp [isValidTemplateLoadTime, ipv4Indication, hheader]

/-- An IPv6 packet that is accepted has its L4 header at 54. -/
theorem accepted_ipv6 (ho : o.ipv6Enable = true) :
    accepted o pkt = some ind ↔ (∃ v6, findL3 pkt.raw = some (14, v6)) ∧
      ∃ pkt', asIpv6 pkt = some pkt' ∧
      ∃ proto payload, Ipv6Checks o pkt' 14 proto payload ∧
        ind = ipv6Indication (msbUpdated o pkt'.raw 14) 14 proto payload := by
  rw [accepted_eq_some]
  unfold processPacket asIpv6
  constructor
  · rintro ⟨h, hvalid⟩
    have hip : ∀ {p : CCapPktRaw} {offset : Nat}, processIpv6Packet o p offset = some ind →
        offset = 14 ∧ ∃ proto payload, Ipv6Checks o p 14 proto payload ∧
          ind = ipv6Indication (msbUpdated o p.raw 14) 14 proto payload := by
      intro p offset h
      obtain ⟨proto, payload, hchecks, rfl⟩ := processIpv6Packet_eq_some.mp h
      simp only [isValidTemplateLoadTime, ipv6Indication, Bool.and_eq_true, beq_iff_eq] at hvalid
      obtain ⟨⟨-, rfl⟩, -⟩ := hvalid
      exact ⟨rfl, proto, payload, hchecks, rfl⟩
    split at h
    · cases h
    · rename_i offset hl3
      rw [if_pos ho] at h
      obtain ⟨rfl, hind⟩ := hip h
      rw [hl3]
      exact ⟨⟨true, rfl⟩, pkt, rfl, hind⟩
    · rename_i offset hl3
      split at h
      · cases h
      rename_i hmin
      obtain ⟨pkt', hconv, h⟩ := Option.bind_eq_some_iff.mp h
      obtain ⟨rfl, hind⟩ := hip h
      rw [hl3]
      exact ⟨⟨false, rfl⟩, pkt', (if_neg hmin).trans hconv, hind⟩
  · rintro ⟨⟨v6, hl3⟩, pkt', has, proto, payload, hchecks, rfl⟩
    have hsome : processIpv6Packet o pkt' 14 =
        some (ipv6Indication (msbUpdated o pkt'.raw 14) 14 proto payload) :=
      processIpv6Packet_eq_some.mpr ⟨proto, payload, hchecks, rfl⟩
    refine ⟨?_, rfl⟩
    rw [hl3] at has ⊢
    cases v6 with
    | true =>
      cases has
      dsimp only
      rw [if_pos ho]
      exact hsome
    | false =>
      dsimp only at has ⊢
      split at has
      · cases has
      rename_i hmin
      rw [if_neg hmin, if_pos ho, has]
      exact hsome

/-! ## 3. Soundness -/

/-- Where the IP packet ends, as its header announces it. -/
def CPacketIndication.ipEnd (ind : CPacketIndication) : Nat :=
  if ind.isIpv6 then ind.ipOffset + ipv6DefaultSize + getPayloadLen ind.packet.raw ind.ipOffset
  else ind.ipOffset + getTotalLength ind.packet.raw ind.ipOffset

/-- The least length of an L4 header. -/
def L4.minLength : L4 → Nat
  | .tcp => 20
  | .udp => 8

/-- Where the L4 header is in the packet that was captured, before it was converted. -/
def capturedL4 (pkt : CCapPktRaw) : Nat :=
  match findL3 pkt.raw with
  | none => 0
  | some (ip, true) => ip + ipv6DefaultSize
  | some (ip, false) => ip + getHeaderLength pkt.raw ip

/-- What is recorded of a packet, next to its bytes. -/
def CPacketIndication.record (ind : CPacketIndication) :=
  (ind.packet.pktLen, ind.isIpv6, ind.proto, ind.etherOffset, ind.ipOffset, ind.udpTcpOffset,
    ind.payloadOffset, ind.payloadLen, ind.packetPadding, ind.flowKey, ind.isSwapTuple)

/-- **The record is right**: the headers are in the packet, by its capture and by its IP header, the
payload is what is behind them, and only bytes that were captured decided. -/
structure ParseSound (o : ParserOption) (pkt : CCapPktRaw) (ind : CPacketIndication) : Prop where
  l3 : 14 ≤ ind.ipOffset ∧
    ind.ipOffset + (if ind.isIpv6 then ipv6DefaultSize else ipv4DefaultSize) ≤ ind.udpTcpOffset
  l4 : ind.udpTcpOffset + ind.proto.minLength ≤ ind.payloadOffset
  captured : capturedL4 pkt + (ind.payloadOffset - ind.udpTcpOffset) ≤ pkt.pktLen
  announced : ind.payloadOffset ≤ ind.ipEnd
  payload : ind.payloadLen = ind.ipEnd - ind.payloadOffset
  reads : ∀ m : Mem, (∀ x < pkt.pktLen, m x = pkt.raw x) →
    ∃ ind', accepted o { pkt with raw := m } = some ind' ∧ ind'.record = ind.record

theorem getField16_lt (m : Mem) (a : Nat) : getField16 m a < 2 ^ 16 := by
  have h := ofBytes_lt (toBytes 2 (m.load a 2)).reverse
  rw [length_reverse, length_toBytes] at h
  exact h

theorem getTotalLength_lt (m : Mem) (ip : Nat) : getTotalLength m ip < 2 ^ 16 := getField16_lt m _

theorem getField16_congr {m m' : Mem} (h : ∀ x, a ≤ x → x < a + 2 → m x = m' x) :
    getField16 m a = getField16 m' a :=
  congrArg (bswap 2) (Mem.load_congr h)

theorem getField32_congr {m m' : Mem} (h : ∀ x, a ≤ x → x < a + 4 → m x = m' x) :
    getField32 m a = getField32 m' a :=
  congrArg (bswap 4) (Mem.load_congr h)

/-- A field of four bytes and its bytes. -/
theorem getField32_eq_iff {m m' : Mem} {a' : Nat} :
    getField32 m a = getField32 m' a' ↔ m.read a 4 = m'.read a' 4 := by
  rw [getField32, getField32]
  constructor
  · intro h
    have hload : m.load a 4 = m'.load a' 4 := by
      have hswap := congrArg (bswap 4) h
      rwa [bswap_bswap, bswap_bswap, Mem.load_mod, Mem.load_mod] at hswap
    have h1 := toBytes_ofBytes (m.read a 4)
    have h2 := toBytes_ofBytes (m'.read a' 4)
    rw [Mem.length_read, Mem.ofBytes_read] at h1 h2
    rw [← h1, ← h2, hload]
  · intro h
    rw [← Mem.ofBytes_read, ← Mem.ofBytes_read, h]

/-- The L4 protocol and where the payload is, from the bytes of an IPv4 packet. -/
theorem Ipv4Checks.l4_cases (h : Ipv4Checks pkt 14 proto payload)
    (hheader : getHeaderLength pkt.raw 14 = 20) :
    (pkt.raw 23 = 6 ∧ proto = .tcp ∧ payload = 34 + (pkt.raw 46).toNat / 16 * 4 ∨
      pkt.raw 23 = 17 ∧ proto = .udp ∧ payload = 42) ∧ payload ≤ pkt.pktLen := by
  have hl4 := h.l4
  rw [hheader, processIpPacketProtocol_eq_some] at hl4
  obtain ⟨⟨hp, hproto, hpay⟩ | ⟨hp, hproto, hpay⟩, hle⟩ := hl4
  · exact ⟨Or.inl ⟨UInt8.toNat_inj.mp hp, hproto, hpay⟩, hle⟩
  · exact ⟨Or.inr ⟨UInt8.toNat_inj.mp hp, hproto, hpay⟩, hle⟩

section Reads

variable {pkt : CCapPktRaw} {m : Mem} (hr : ∀ x < pkt.pktLen, m x = pkt.raw x)

include hr

theorem field16_reads (ha : a + 2 ≤ pkt.pktLen) : getField16 m a = getField16 pkt.raw a :=
  getField16_congr fun x _ hx => hr x (by omega)

/-- The IPv4 checks read the headers only. -/
theorem Ipv4Checks.reads (h : Ipv4Checks pkt 14 proto payload)
    (hheader : getHeaderLength pkt.raw 14 = 20) (hmin : 34 ≤ pkt.pktLen)
    (htcp : proto = .tcp → 54 ≤ payload) :
    Ipv4Checks { pkt with raw := m } 14 proto payload := by
  obtain ⟨hl4, hle⟩ := h.l4_cases hheader
  have hlen : getHeaderLength m 14 = 20 := by rw [getHeaderLength, hr 14 (by omega)]; exact hheader
  have htotal : getTotalLength m 14 = getTotalLength pkt.raw 14 := field16_reads hr (by omega)
  constructor
  · show getVersion m 14 = 4
    rw [getVersion, hr 14 (by omega)]
    exact h.version
  · show getTotalLength m 14 + 14 ≤ pkt.pktLen
    rw [htotal]
    exact h.total
  · show getHeaderLength m 14 + 14 ≤ pkt.pktLen
    omega
  · show m (14 + 8) ≠ 0
    rw [hr _ (by omega)]
    exact h.ttl
  · show isNotFirstFragment m 14 = false
    rw [isNotFirstFragment, getFragmentOffset, isMoreFragments, field16_reads hr (by omega)]
    exact h.first
  · show processIpPacketProtocol { pkt with raw := m } (m (14 + 9)).toNat
      (14 + getHeaderLength m 14) = _
    rw [hlen, processIpPacketProtocol_eq_some, hr _ (by omega)]
    refine ⟨?_, hle⟩
    rcases hl4 with ⟨hp, rfl, hpay⟩ | ⟨hp, rfl, hpay⟩
    · have h54 := htcp rfl
      refine Or.inl ⟨by rw [hp]; rfl, rfl, ?_⟩
      show payload = 34 + tcpHeaderLength m 34
      rw [tcpHeaderLength, hr _ (by omega)]
      exact hpay
    · exact Or.inr ⟨by rw [hp]; rfl, rfl, hpay⟩
  · show payload - 14 ≤ getTotalLength m 14
    rw [htotal]
    exact h.inside
  · exact h.size

/-- What is recorded is read from the headers too. -/
theorem ipv4Indication_reads (hheader : getHeaderLength pkt.raw 14 = 20) (hmin : 38 ≤ pkt.pktLen) :
    (ipv4Indication { pkt with raw := m } 14 proto payload).record =
        (ipv4Indication pkt 14 proto payload).record := by
  have hlen : getHeaderLength m 14 = 20 := by rw [getHeaderLength, hr 14 (by omega)]; exact hheader
  have htotal : getTotalLength m 14 = getTotalLength pkt.raw 14 := field16_reads hr (by omega)
  have hsrc : getSourceIp m false 14 = getSourceIp pkt.raw false 14 :=
    getField32_congr fun x _ hx => hr x (by simp only [Bool.false_eq_true, ↓reduceIte] at hx; omega)
  have hdst : getDestIp m false 14 = getDestIp pkt.raw false 14 :=
    getField32_congr fun x _ hx => hr x (by simp only [Bool.false_eq_true, ↓reduceIte] at hx; omega)
  have hproto : getIpProto m false 14 = getIpProto pkt.raw false 14 := hr 23 (by omega)
  have hkey : setKey m false 14 34 = setKey pkt.raw false 14 34 := by
    rw [setKey, setKey, hsrc, hdst, hproto, field16_reads hr (by omega),
      field16_reads hr (by omega)]
  simp only [CPacketIndication.record, ipv4Indication, updatePacketPadding, hlen, hheader, htotal,
    hkey]

end Reads

/-- **The parser is right about an IPv4 packet whose TCP header announces at least 20 bytes**, and
about no other packet that it accepts.  As IPv6 no packet is recorded rightly: the length of the
payload is taken for that of the datagram. -/
theorem parse_sound_iff {o : ParserOption} {pkt : CCapPktRaw} {ind : CPacketIndication}
    (h : accepted o pkt = some ind) :
    ParseSound o pkt ind ↔ o.ipv6Enable = false ∧
        (pkt.raw 23 = 6 → 5 ≤ (pkt.raw 46).toNat / 16) := by
  cases ho : o.ipv6Enable with
  | true =>
    obtain ⟨-, pkt', -, proto, payload, -, rfl⟩ := (accepted_ipv6 ho).mp h
    simp only [Bool.true_eq_false, false_and, iff_false]
    rintro ⟨-, hl4, -, hannounced, hpayload, -⟩
    -- the recorded length is the one of the L4 header with the payload
    have hmin : 8 ≤ proto.minLength := by cases proto <;> decide
    simp only [CPacketIndication.ipEnd, ipv6Indication, ↓reduceIte, ipv6DefaultSize]
      at hl4 hannounced hpayload
    omega
  | false =>
    obtain ⟨hl3, hmin, hheader, proto, payload, hchecks, rfl⟩ := (accepted_ipv4 ho).mp h
    obtain ⟨hl4, hle⟩ := hchecks.l4_cases hheader
    have hinside := hchecks.inside
    simp only [true_and]
    constructor
    · rintro ⟨-, hl4len, -⟩ htcp
      rcases hl4 with ⟨-, rfl, hpay⟩ | ⟨hudp, -⟩
      · simp only [ipv4Indication, hheader, L4.minLength] at hl4len
        omega
      · rw [htcp] at hudp
        exact absurd hudp (by decide)
    · intro hoff
      have h20 : proto = .tcp → 54 ≤ payload := by
        rintro rfl
        rcases hl4 with ⟨hp, -, hpay⟩ | ⟨-, hne, -⟩
        · have := hoff hp
          omega
        · cases hne
      have hlen : 34 + proto.minLength ≤ payload := by
        rcases hl4 with ⟨-, rfl, -⟩ | ⟨-, rfl, hpay⟩
        · exact h20 rfl
        · exact le_of_eq hpay.symm
      have hmin8 : 8 ≤ proto.minLength := by cases proto <;> decide
      constructor
      · simp [ipv4Indication, hheader, ipv4DefaultSize]
      · simp only [ipv4Indication, hheader]
        exact hlen
      · simp only [capturedL4, hl3, ipv4Indication, hheader]
        omega
      · simp only [CPacketIndication.ipEnd, ipv4Indication, Bool.false_eq_true, ↓reduceIte]
        omega
      · simp only [CPacketIndication.ipEnd, ipv4Indication, Bool.false_eq_true, ↓reduceIte]
        omega
      · intro m hr
        refine ⟨ipv4Indication { pkt with raw := m } 14 proto payload,
          (accepted_ipv4 ho).mpr ⟨?_, hmin, ?_, proto,
          payload, hchecks.reads hr hheader hmin h20, rfl⟩,
            ipv4Indication_reads hr hheader (by omega)⟩
        · have h12 : getField16 m 12 = getField16 pkt.raw 12 := field16_reads hr (by omega)
          have h16 : getField16 m 16 = getField16 pkt.raw 16 := field16_reads hr (by omega)
          rw [findL3, h12, h16]
          exact hl3
        · show getHeaderLength m 14 = 20
          rw [getHeaderLength, hr 14 (by omega)]
          exact hheader

/-- A TCP segment without payload, from `src` to `dst`, each the last byte of an address and of a
port. -/
def exampleSegment (src dst : UInt8 × UInt8) : CCapPktRaw where
  raw := fun a => ([0, 0, 0, 1, 0, 0, 0, 0, 0, 2, 0, 0, 0x08, 0x00,
    0x45, 0, 0, 40, 0, 0, 0, 0, 64, 6, 0, 0, 127, 0, 0, src.1, 127, 0, 0, dst.1,
    4, src.2, 4, dst.2, 0, 0, 0, 1, 0, 0, 0, 0, 0x50, 2, 0, 0, 0, 0, 0, 0] : List UInt8).getD a 0
  pktLen := 54

def exampleParser (ipv6Enable : Bool) : ParserOption where
  ipv6Enable := ipv6Enable
  learnMode := false
  srcIpv6 := fun _ => 0
  dstIpv6 := fun _ => 0

/-- An IPv4 segment. -/
theorem parse_sound_segment : ∃ ind,
    accepted (exampleParser false) (exampleSegment (1, 5) (2, 80)) = some ind ∧
    ParseSound (exampleParser false) (exampleSegment (1, 5) (2, 80)) ind := by
  have h : (accepted (exampleParser false) (exampleSegment (1, 5) (2, 80))).isSome = true := by
    decide +kernel
  obtain ⟨ind, hind⟩ := Option.isSome_iff_exists.mp h
  exact ⟨ind, hind, (parse_sound_iff hind).mpr ⟨rfl, fun _ => by decide⟩⟩

/-- **A segment without payload in IPv6 mode**: 20 bytes of payload are recorded. -/
theorem parse_ipv6_payload : ∃ ind, accepted (exampleParser true) (exampleSegment (1, 5) (2, 80)) =
    some ind ∧
    ind.payloadOffset = 74 ∧ ind.ipEnd = 74 ∧ ind.payloadLen = 20 ∧
    ¬ ParseSound (exampleParser true) (exampleSegment (1, 5) (2, 80)) ind := by
  have h : (accepted (exampleParser true) (exampleSegment (1, 5) (2, 80))).any (fun ind =>
      decide (ind.payloadOffset = 74 ∧ ind.ipEnd = 74 ∧ ind.payloadLen = 20)) = true := by
        decide +kernel
  obtain ⟨ind, hind, h⟩ := (Option.any_eq_true _ _).mp h
  obtain ⟨hoff, hend, hlen⟩ := of_decide_eq_true h
  refine ⟨ind, hind, hoff, hend, hlen, fun hsound => ?_⟩
  have hpay := hsound.payload
  rw [hoff, hend, hlen] at hpay
  exact absurd hpay (by decide)

end Trex.Flow
