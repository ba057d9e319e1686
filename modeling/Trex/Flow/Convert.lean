/-
# An IPv4 packet in the two modes

With `--ipv6` a captured IPv4 packet is converted before it is parsed
(`ConvertPacketToIpv6InPlace`).  Which packets the two modes accept is a condition on the captured
header each: `AcceptsIpv4` has the checks of `ProcessIpPacket`, `AcceptsIpv6` those that are left
behind the conversion.  The converted packet has no TTL, no fragments and no options of its own, and
its length is the one the header announced.

A packet that both accept has the same flow in both (`converted_same`), with another payload length:
behind the conversion the L4 header counts as payload.  So the modes agree on a packet only when
both refuse it, or when its L4 header has no length at all (`convert_agrees_iff`).
-/
import Trex.Flow.Parse

namespace Trex.Flow

open Trex.Lib Trex.Net Trex.Pal

/-! ## 1. The converted packet -/

/-- What the IP header says is behind it, `p_len`. -/
def announcedLen (m : Mem) : Nat := getTotalLength m 14 - getHeaderLength m 14

theorem length_ipv6HeaderOf (m : Mem) (ipv4 pLen : Nat) :
    (ipv6HeaderOf m ipv4 pLen).length = 40 := by
  simp [ipv6HeaderOf]

/-- **What is read of a converted packet.** -/
structure Converted (m m' : Mem) (pLen : Nat) : Prop where
  first : m' 14 = 0x60
  payloadLen : m'.read 18 2 = (toBytes 2 pLen).reverse
  nextHdr : m' 20 = m 23
  src : m'.read 34 4 = m.read 26 4
  dst : m'.read 50 4 = m.read 30 4
  l4 : m'.read 54 pLen = m.read (14 + getHeaderLength m 14) pLen
  rest : ∀ x, 54 + pLen ≤ x → m' x = m x

theorem Converted.of_convert {pkt pkt' : CCapPktRaw}
    (h : convertPacketToIpv6InPlace pkt 14 = some pkt') :
    getHeaderLength pkt.raw 14 ≤ getTotalLength pkt.raw 14 ∧
      54 + announcedLen pkt.raw ≤ maxPktSize ∧
      pkt'.pktLen = 54 + announcedLen pkt.raw ∧
          Converted pkt.raw pkt'.raw (announcedLen pkt.raw) := by
  simp only [convertPacketToIpv6InPlace, ipv6DefaultSize, ← announcedLen.eq_def] at h
  split at h
  · cases h
  split at h
  · cases h
  rename_i hlen hroom
  cases h
  refine ⟨by omega, by omega, rfl, ?_⟩
  have h40 := length_ipv6HeaderOf pkt.raw 14 (announcedLen pkt.raw)
  have hl4 : (pkt.raw.read (14 + getHeaderLength pkt.raw 14) (announcedLen pkt.raw)).length =
      announcedLen pkt.raw :=
    Mem.length_read _ _ _
  -- a part of the new header, which the L4 bytes are put behind
  have hpart : ∀ i n, i + n ≤ 40 → ∀ m : Mem,
      ((m.putBytes 14 (ipv6HeaderOf pkt.raw 14 (announcedLen pkt.raw))).putBytes (14 + 40)
        (pkt.raw.read (14 + getHeaderLength pkt.raw 14) (announcedLen pkt.raw))).read (14 + i) n =
      ((ipv6HeaderOf pkt.raw 14 (announcedLen pkt.raw)).drop i).take n := by
    intro i n hin m
    rw [Mem.read_putBytes_of_disjoint _ _ (by omega)]
    exact Mem.read_putBytes_slice _ _ (by omega)
  constructor
  · exact List.singleton_inj.mp (hpart 0 1 (by decide) (pkt.raw.putBytes 12 [0x86, 0xDD]))
  · exact hpart 4 2 (by decide) (pkt.raw.putBytes 12 [0x86, 0xDD])
  · exact List.singleton_inj.mp (hpart 6 1 (by decide) (pkt.raw.putBytes 12 [0x86, 0xDD]))
  · exact hpart 20 4 (by decide) (pkt.raw.putBytes 12 [0x86, 0xDD])
  · exact hpart 36 4 (by decide) (pkt.raw.putBytes 12 [0x86, 0xDD])
  · have hback := Mem.read_putBytes ((pkt.raw.putBytes 12 [0x86, 0xDD]).putBytes 14
      (ipv6HeaderOf pkt.raw 14 (announcedLen pkt.raw))) (14 + 40)
      (pkt.raw.read (14 + getHeaderLength pkt.raw 14) (announcedLen pkt.raw))
    rw [hl4] at hback
    exact hback
  · intro x hx
    dsimp only
    rw [Mem.putBytes_of_ge _ _ (by omega), Mem.putBytes_of_ge _ _ (by omega),
      Mem.putBytes_of_ge _ _ (by simp; omega)]

/-- The groups of the addresses that are options of the program are not among them. -/
theorem Converted.msbUpdated {m m' : Mem} {pLen : Nat} (h : Converted m m' pLen)
    (o : ParserOption) :
    Converted m (msbUpdated o m' 14) pLen := by
  have hbyte : ∀ x, x + 1 ≤ 22 ∨ 50 ≤ x → Flow.msbUpdated o m' 14 x = m' x := fun x hx =>
    List.singleton_inj.mp (read_msbUpdated o m' (n := 1) (by omega))
  obtain ⟨hfirst, hlen, hnext, hsrc, hdst, hl4, hrest⟩ := h
  constructor
  · rw [hbyte 14 (by omega)]
    exact hfirst
  · rw [read_msbUpdated o m' (by omega)]
    exact hlen
  · rw [hbyte 20 (by omega)]
    exact hnext
  · rw [read_msbUpdated o m' (by omega)]
    exact hsrc
  · rw [read_msbUpdated o m' (by omega)]
    exact hdst
  · rw [read_msbUpdated o m' (by omega)]
    exact hl4
  · intro x hx
    rw [hbyte x (by omega)]
    exact hrest x hx

/-- The payload length of the new header. -/
theorem Converted.getPayloadLen {m m' : Mem} {pLen : Nat} (h : Converted m m' pLen)
    (hlt : pLen < 2 ^ 16) :
    getPayloadLen m' 14 = pLen := by
  rw [Flow.getPayloadLen, getField16, ← Mem.ofBytes_read, h.payloadLen]
  show bswap 2 (bswap 2 pLen) = pLen
  rw [bswap_bswap]
  exact Nat.mod_eq_of_lt hlt

/-- A byte behind the new header: behind a short packet it is what the buffer held. -/
def convertedByte (m : Mem) (i : Nat) : UInt8 :=
  if i < announcedLen m then m (14 + getHeaderLength m 14 + i) else m (54 + i)

theorem Converted.byte {m m' : Mem} (h : Converted m m' (announcedLen m)) (i : Nat) :
    m' (54 + i) = convertedByte m i := by
  unfold convertedByte
  split
  · rename_i hlt
    have hl4 := congrArg (·[i]?) h.l4
    simp only [Mem.read, List.getElem?_map, List.getElem?_range hlt, Option.map_some,
      Option.some.injEq] at hl4
    exact hl4
  · exact h.rest (54 + i) (by omega)

/-! ## 2. What the two modes accept -/

/-- The captured header of a packet that is accepted in IPv4 mode. -/
structure AcceptsIpv4 (pkt : CCapPktRaw) : Prop where
  min : 34 ≤ pkt.pktLen
  version : getVersion pkt.raw 14 = 4
  header : getHeaderLength pkt.raw 14 = 20
  total : getTotalLength pkt.raw 14 + 14 ≤ pkt.pktLen
  ttl : pkt.raw 22 ≠ 0
  first : isNotFirstFragment pkt.raw 14 = false
  size : pkt.pktLen ≤ maxBufSize - firstPktSize
  l4 : pkt.raw 23 = 6 ∧ 20 + (pkt.raw 46).toNat / 16 * 4 ≤ getTotalLength pkt.raw 14 ∨
    pkt.raw 23 = 17 ∧ 28 ≤ getTotalLength pkt.raw 14

/-- The captured header of an IPv4 packet that is accepted in IPv6 mode. -/
structure AcceptsIpv6 (pkt : CCapPktRaw) : Prop where
  min : 34 ≤ pkt.pktLen
  header : getHeaderLength pkt.raw 14 ≤ getTotalLength pkt.raw 14
  room : 54 + announcedLen pkt.raw ≤ maxPktSize
  l4 : pkt.raw 23 = 6 ∧ (convertedByte pkt.raw 12).toNat / 16 * 4 ≤ announcedLen pkt.raw ∨
    pkt.raw 23 = 17 ∧ 8 ≤ announcedLen pkt.raw

/-- The options of a run without and with `--ipv6`. -/
def ParserOption.withIpv6 (o : ParserOption) (ipv6Enable : Bool) :
    ParserOption := { o with ipv6Enable }

variable {o : ParserOption} {pkt : CCapPktRaw}

variable {ind : CPacketIndication}

theorem accepted_withIpv6_false (hl3 : findL3 pkt.raw = some (14, false)) :
    accepted (o.withIpv6 false) pkt = some ind ↔ AcceptsIpv4 pkt ∧ ∃ proto payload,
      (pkt.raw 23 = 6 ∧ proto = .tcp ∧ payload = 34 + (pkt.raw 46).toNat / 16 * 4 ∨
        pkt.raw 23 = 17 ∧ proto = .udp ∧ payload = 42) ∧
            ind = ipv4Indication pkt 14 proto payload := by
  rw [accepted_ipv4 rfl]
  constructor
  · rintro ⟨-, hmin, hheader, proto, payload, hchecks, rfl⟩
    obtain ⟨hl4, hle⟩ := hchecks.l4_cases hheader
    obtain ⟨hversion, htotal, -, httl, hfirst, -, hinside, hsize⟩ := hchecks
    refine ⟨⟨hmin, hversion, hheader, htotal, httl, hfirst, hsize, ?_⟩, proto, payload, hl4, rfl⟩
    rcases hl4 with ⟨hp, -, hpay⟩ | ⟨hp, -, hpay⟩
    · exact Or.inl ⟨hp, by omega⟩
    · exact Or.inr ⟨hp, by omega⟩
  · rintro ⟨⟨hmin, hversion, hheader, htotal, httl, hfirst, hsize, hfits⟩, proto, payload, hl4, rfl⟩
    have hpay : payload - 14 ≤ getTotalLength pkt.raw 14 := by
      rcases hl4 with ⟨hp, -, hpay⟩ | ⟨hp, -, hpay⟩
      · rcases hfits with ⟨-, hfits⟩ | ⟨hp', -⟩
        · omega
        · rw [hp] at hp'
          exact absurd hp' (by decide)
      · rcases hfits with ⟨hp', -⟩ | ⟨-, hfits⟩
        · rw [hp] at hp'
          exact absurd hp' (by decide)
        · omega
    refine ⟨hl3, hmin, hheader, proto, payload,
      ⟨hversion, htotal, by omega, httl, hfirst, ?_, hpay, hsize⟩, rfl⟩
    rw [hheader, processIpPacketProtocol_eq_some]
    refine ⟨?_, by omega⟩
    rcases hl4 with ⟨hp, hproto, hpay⟩ | ⟨hp, hproto, hpay⟩
    · exact Or.inl ⟨congrArg UInt8.toNat hp, hproto, hpay⟩
    · exact Or.inr ⟨congrArg UInt8.toNat hp, hproto, hpay⟩

theorem accepted_withIpv6_true (hl3 : findL3 pkt.raw = some (14, false)) :
    accepted (o.withIpv6 true) pkt = some ind ↔ AcceptsIpv6 pkt ∧
      ∃ m', Converted pkt.raw m' (announcedLen pkt.raw) ∧
      (∃ pkt', convertPacketToIpv6InPlace pkt 14 = some pkt' ∧
        m' = msbUpdated (o.withIpv6 true) pkt'.raw 14) ∧
      ∃ proto payload, (pkt.raw 23 = 6 ∧ proto = .tcp ∧
        payload = 54 + (convertedByte pkt.raw 12).toNat / 16 * 4 ∨
        pkt.raw 23 = 17 ∧ proto = .udp ∧ payload = 62) ∧
            ind = ipv6Indication m' 14 proto payload := by
  have hsome : (∃ v6, findL3 pkt.raw = some (14, v6)) := ⟨false, hl3⟩
  rw [accepted_ipv6 rfl, and_iff_right hsome]
  have has : ∀ pkt', asIpv6 pkt = some pkt' ↔ 34 ≤ pkt.pktLen ∧
      convertPacketToIpv6InPlace pkt 14 = some pkt' := by
    intro pkt'
    simp only [asIpv6, hl3]
    split
    · rename_i hlt
      exact ⟨fun h => (by cases h), fun h => absurd h.1 (by omega)⟩
    · rename_i hge
      exact ⟨fun h => ⟨by omega, h⟩, fun h => h.2⟩
  constructor
  · rintro ⟨pkt', hpkt', proto, payload, hchecks, rfl⟩
    obtain ⟨hmin, hconv⟩ := (has pkt').mp hpkt'
    obtain ⟨hheader, hroom, hlen, hc⟩ := Converted.of_convert hconv
    have hc' := hc.msbUpdated (o.withIpv6 true)
    have hbyte : msbUpdated (o.withIpv6 true) pkt'.raw 14 (14 + ipv6DefaultSize + 12) =
        convertedByte pkt.raw 12 :=
      hc'.byte 12
    obtain ⟨hproto, hle⟩ := processIpPacketProtocol_eq_some.mp hchecks.l4
    dsimp only at hproto hle
    rw [hc'.nextHdr, tcpHeaderLength, hbyte] at hproto
    have hl4 : pkt.raw 23 = 6 ∧ proto = .tcp ∧
        payload = 54 + (convertedByte pkt.raw 12).toNat / 16 * 4 ∨
        pkt.raw 23 = 17 ∧ proto = .udp ∧ payload = 62 := by
      rcases hproto with ⟨hp, hproto, hpay⟩ | ⟨hp, hproto, hpay⟩
      · exact Or.inl ⟨UInt8.toNat_inj.mp hp, hproto, hpay⟩
      · exact Or.inr ⟨UInt8.toNat_inj.mp hp, hproto, hpay⟩
    refine ⟨⟨hmin, hheader, hroom, ?_⟩, _, hc', ⟨pkt', hconv, rfl⟩, proto, payload, hl4, rfl⟩
    rcases hl4 with ⟨hp, -, hpay⟩ | ⟨hp, -, hpay⟩
    · exact Or.inl ⟨hp, by omega⟩
    · exact Or.inr ⟨hp, by omega⟩
  · rintro ⟨⟨hmin, hheader, hroom, hfits⟩, m', -, ⟨pkt', hconv, rfl⟩, proto, payload, hl4, rfl⟩
    obtain ⟨-, -, hlen, hc⟩ := Converted.of_convert hconv
    have hc' := hc.msbUpdated (o.withIpv6 true)
    have hlt : announcedLen pkt.raw < 2 ^ 16 :=
      lt_of_le_of_lt (Nat.sub_le _ _) (getTotalLength_lt _ _)
    refine ⟨pkt', (has pkt').mpr ⟨hmin, hconv⟩, proto, payload, ⟨?_, ?_, ?_⟩, rfl⟩
    · rw [getVersion, hc.first]
      rfl
    · rw [hc.getPayloadLen hlt, hlen, ipv6DefaultSize]
      omega
    · have hbyte : msbUpdated (o.withIpv6 true) pkt'.raw 14 (14 + ipv6DefaultSize + 12) =
          convertedByte pkt.raw 12 := hc'.byte 12
      rw [processIpPacketProtocol_eq_some]
      dsimp only
      rw [hc'.nextHdr, tcpHeaderLength, hbyte, hlen]
      rcases hl4 with ⟨hp, hproto, hpay⟩ | ⟨hp, hproto, hpay⟩
      · refine ⟨Or.inl ⟨congrArg UInt8.toNat hp, hproto, hpay⟩, ?_⟩
        rcases hfits with ⟨-, hfits⟩ | ⟨hp', -⟩
        · omega
        · rw [hp] at hp'
          exact absurd hp' (by decide)
      · refine ⟨Or.inr ⟨congrArg UInt8.toNat hp, hproto, hpay⟩, ?_⟩
        rcases hfits with ⟨hp', -⟩ | ⟨-, hfits⟩
        · rw [hp] at hp'
          exact absurd hp' (by decide)
        · omega

theorem accepted_isSome_ipv4 (hl3 : findL3 pkt.raw = some (14, false)) :
    (accepted (o.withIpv6 false) pkt).isSome = true ↔ AcceptsIpv4 pkt := by
  rw [Option.isSome_iff_exists]
  constructor
  · rintro ⟨ind, hind⟩
    exact ((accepted_withIpv6_false hl3).mp hind).1
  · intro h
    rcases h.l4 with ⟨hp, -⟩ | ⟨hp, -⟩
    · exact ⟨_, (accepted_withIpv6_false hl3).mpr ⟨h, .tcp, _, Or.inl ⟨hp, rfl, rfl⟩, rfl⟩⟩
    · exact ⟨_, (accepted_withIpv6_false hl3).mpr ⟨h, .udp, _, Or.inr ⟨hp, rfl, rfl⟩, rfl⟩⟩

theorem accepted_isSome_ipv6 (hl3 : findL3 pkt.raw = some (14, false)) :
    (accepted (o.withIpv6 true) pkt).isSome = true ↔ AcceptsIpv6 pkt := by
  rw [Option.isSome_iff_exists]
  constructor
  · rintro ⟨ind, hind⟩
    exact ((accepted_withIpv6_true hl3).mp hind).1
  · intro h
    have hconv : ∃ pkt', convertPacketToIpv6InPlace pkt 14 = some pkt' := by
      have hroom : ¬ 14 + ipv6DefaultSize + announcedLen pkt.raw > maxPktSize :=
        Nat.not_lt.mpr h.room
      rw [announcedLen] at hroom
      unfold convertPacketToIpv6InPlace
      dsimp only
      rw [if_neg (Nat.not_lt.mpr h.header), if_neg hroom]
      exact ⟨_, rfl⟩
    obtain ⟨pkt', hconv⟩ := hconv
    obtain ⟨-, -, -, hc⟩ := Converted.of_convert hconv
    have hc' := hc.msbUpdated (o.withIpv6 true)
    rcases h.l4 with ⟨hp, -⟩ | ⟨hp, -⟩
    · exact ⟨_, (accepted_withIpv6_true hl3).mpr ⟨h, _, hc', ⟨pkt', hconv, rfl⟩, .tcp, _,
        Or.inl ⟨hp, rfl, rfl⟩, rfl⟩⟩
    · exact ⟨_, (accepted_withIpv6_true hl3).mpr ⟨h, _, hc', ⟨pkt', hconv, rfl⟩, .udp, _,
        Or.inr ⟨hp, rfl, rfl⟩, rfl⟩⟩

/-! ## 3. Agreement -/

/-- **Two records of one flow.** -/
structure SameFlow (ind ind' : CPacketIndication) : Prop where
  proto : ind'.proto = ind.proto
  l4 : ind'.packet.raw.read ind'.udpTcpOffset (ind'.ipEnd - ind'.udpTcpOffset) =
    ind.packet.raw.read ind.udpTcpOffset (ind.ipEnd - ind.udpTcpOffset)
  payloadLen : ind'.payloadLen = ind.payloadLen
  source : getSourceIp ind'.packet.raw ind'.isIpv6 ind'.ipOffset =
    getSourceIp ind.packet.raw ind.isIpv6 ind.ipOffset
  dest : getDestIp ind'.packet.raw ind'.isIpv6 ind'.ipOffset =
    getDestIp ind.packet.raw ind.isIpv6 ind.ipOffset
  key : ind'.flowKey = ind.flowKey
  direction : ind'.isSwapTuple = ind.isSwapTuple

/-- **The two modes agree on a packet**: it is converted within the buffer, it is accepted by both
or by none, and what they record of it is one flow. -/
structure ModesAgree (o : ParserOption) (pkt : CCapPktRaw) : Prop where
  room : getHeaderLength pkt.raw 14 ≤ getTotalLength pkt.raw 14 →
    54 + announcedLen pkt.raw ≤ maxPktSize
  both : (accepted (o.withIpv6 true) pkt).isSome = (accepted (o.withIpv6 false) pkt).isSome
  same : ∀ ind ind', accepted (o.withIpv6 false) pkt = some ind →
    accepted (o.withIpv6 true) pkt = some ind' → SameFlow ind ind'

theorem getField16_eq_iff {m m' : Mem} {a a' : Nat} :
    getField16 m a = getField16 m' a' ↔ m a = m' a' ∧ m (a + 1) = m' (a' + 1) := by
  have hread : getField16 m a = getField16 m' a' ↔ m.read a 2 = m'.read a' 2 := by
    rw [getField16, getField16]
    constructor
    · intro h
      have hload : m.load a 2 = m'.load a' 2 := by
        have hswap := congrArg (bswap 2) h
        rwa [bswap_bswap, bswap_bswap, Mem.load_mod, Mem.load_mod] at hswap
      have h1 := toBytes_ofBytes (m.read a 2)
      have h2 := toBytes_ofBytes (m'.read a' 2)
      rw [Mem.length_read, Mem.ofBytes_read] at h1 h2
      rw [← h1, ← h2, hload]
    · intro h
      rw [← Mem.ofBytes_read, ← Mem.ofBytes_read, h]
  rw [hread]
  simp [Mem.read, List.range_succ]

/-- Keys of one pair of addresses are equal when the ports are. -/
theorem setKey_eq_iff {m m' : Mem} {v v' : Bool} {ip ip' l4 l4' : Nat}
    (hsrc : getSourceIp m' v' ip' = getSourceIp m v ip)
    (hdst : getDestIp m' v' ip' = getDestIp m v ip)
    (hproto : getIpProto m' v' ip' = getIpProto m v ip) :
    ((setKey m' v' ip' l4').1 = (setKey m v ip l4).1 ∧
      (setKey m' v' ip' l4').2 = (setKey m v ip l4).2) ↔
      getField16 m' l4' = getField16 m l4 ∧ getField16 m' (l4' + 2) = getField16 m (l4 + 2) := by
  simp only [setKey, hsrc, hdst, hproto]
  split_ifs
  · simp only [CFlowKey.mk.injEq, true_and, and_true]
    exact and_comm
  · simp

/-- **Only the payload length and, behind a header that is cut, the ports are not the same.** -/
theorem sameFlow_iff {m' : Mem} {proto : L4} {payload payload' : Nat} (h4 : AcceptsIpv4 pkt)
    (hc : Converted pkt.raw m' (announcedLen pkt.raw))
    (hpay : payload - 14 ≤ getTotalLength pkt.raw 14) (hge : 34 ≤ payload) :
    SameFlow (ipv4Indication pkt 14 proto payload) (ipv6Indication m' 14 proto payload') ↔
      payload = 34 ∧ ∀ i < 4, convertedByte pkt.raw i = pkt.raw (34 + i) := by
  have hlt : announcedLen pkt.raw < 2 ^ 16 :=
    lt_of_le_of_lt (Nat.sub_le _ _) (getTotalLength_lt _ _)
  have hlen : getPayloadLen m' 14 = announcedLen pkt.raw := hc.getPayloadLen hlt
  have hannounced : announcedLen pkt.raw = getTotalLength pkt.raw 14 -
    20 := by rw [announcedLen, h4.header]
  have hsrc : getSourceIp m' true 14 = getSourceIp pkt.raw false 14 := getField32_eq_iff.mpr hc.src
  have hdst : getDestIp m' true 14 = getDestIp pkt.raw false 14 := getField32_eq_iff.mpr hc.dst
  have hproto : getIpProto m' true 14 = getIpProto pkt.raw false 14 := hc.nextHdr
  have hports : ((setKey m' true 14 54).1 = (setKey pkt.raw false 14 34).1 ∧
      (setKey m' true 14 54).2 = (setKey pkt.raw false 14 34).2) ↔
        ∀ i < 4, convertedByte pkt.raw i = pkt.raw (34 + i) := by
    rw [setKey_eq_iff hsrc hdst hproto, getField16_eq_iff, getField16_eq_iff]
    rw [show m' 54 = convertedByte pkt.raw 0 from hc.byte 0,
      show m' (54 + 1) = convertedByte pkt.raw 1 from hc.byte 1,
      show m' (54 + 2) = convertedByte pkt.raw 2 from hc.byte 2,
      show m' (54 + 2 + 1) = convertedByte pkt.raw 3 from hc.byte 3]
    constructor
    · rintro ⟨⟨h0, h1⟩, h2, h3⟩ i hi
      obtain rfl | rfl | rfl | rfl : i = 0 ∨ i = 1 ∨ i = 2 ∨ i = 3 := by omega
      · exact h0
      · exact h1
      · exact h2
      · exact h3
    · intro h
      exact ⟨⟨h 0 (by decide), h 1 (by decide)⟩, h 2 (by decide), h 3 (by decide)⟩
  constructor
  · rintro ⟨-, -, hpl, -, -, hkey, hdir⟩
    simp only [ipv4Indication, ipv6Indication, h4.header, ipv6DefaultSize, hlen] at hpl hkey hdir
    exact ⟨by omega, hports.mp ⟨hkey, hdir⟩⟩
  · rintro ⟨rfl, hbytes⟩
    obtain ⟨hkey, hdir⟩ := hports.mpr hbytes
    have hl4 := hc.l4
    rw [h4.header] at hl4
    constructor
    · rfl
    · simp only [CPacketIndication.ipEnd, ipv4Indication, ipv6Indication, h4.header,
        ipv6DefaultSize, hlen, ↓reduceIte, Bool.false_eq_true]
      rw [show 14 + 40 + announcedLen pkt.raw - (14 + 40) = announcedLen pkt.raw by omega,
        show 14 + getTotalLength pkt.raw 14 - (14 + 20) = announcedLen pkt.raw by omega]
      exact hl4
    · simp only [ipv4Indication, ipv6Indication, hlen]
      omega
    · exact hsrc
    · exact hdst
    · simp only [ipv4Indication, ipv6Indication, h4.header, ipv6DefaultSize]
      exact hkey
    · simp only [ipv4Indication, ipv6Indication, h4.header, ipv6DefaultSize]
      exact hdir

/-- A packet that both modes accept is recorded as one flow only when its TCP header has no
length. -/
theorem same_iff (hl3 : findL3 pkt.raw = some (14, false)) (h4 : AcceptsIpv4 pkt)
    {ind' : CPacketIndication} (hind : accepted (o.withIpv6 false) pkt = some ind)
    (hind' : accepted (o.withIpv6 true) pkt = some ind') :
    SameFlow ind ind' ↔ pkt.raw 23 = 6 ∧ (pkt.raw 46).toNat / 16 = 0 ∧
      ∀ i < 4, convertedByte pkt.raw i = pkt.raw (34 + i) := by
  obtain ⟨-, proto, payload, hl4, rfl⟩ := (accepted_withIpv6_false hl3).mp hind
  obtain ⟨-, m', hc, -, proto', payload', hl4', rfl⟩ := (accepted_withIpv6_true hl3).mp hind'
  have hfits := h4.l4
  rcases hl4 with ⟨hp, rfl, rfl⟩ | ⟨hp, rfl, rfl⟩ <;>
    rcases hl4' with ⟨hp', rfl, rfl⟩ | ⟨hp', rfl, rfl⟩
  · have hfits' : 20 + (pkt.raw 46).toNat / 16 * 4 ≤ getTotalLength pkt.raw 14 := by
      rcases hfits with ⟨-, hfits⟩ | ⟨hu, -⟩
      · exact hfits
      · rw [hp] at hu
        exact absurd hu (by decide)
    rw [sameFlow_iff h4 hc (by omega) (by omega)]
    constructor
    · rintro ⟨hpay, hbytes⟩
      exact ⟨hp, by omega, hbytes⟩
    · rintro ⟨-, hoff, hbytes⟩
      exact ⟨by omega, hbytes⟩
  · rw [hp] at hp'
    exact absurd hp' (by decide)
  · rw [hp] at hp'
    exact absurd hp' (by decide)
  · have hfits' : 28 ≤ getTotalLength pkt.raw 14 := by
      rcases hfits with ⟨ht, -⟩ | ⟨-, hfits⟩
      · rw [hp] at ht
        exact absurd ht (by decide)
      · exact hfits
    rw [sameFlow_iff h4 hc (by omega) (by omega)]
    constructor
    · rintro ⟨hpay, -⟩
      exact absurd hpay (by decide)
    · rintro ⟨ht, -⟩
      rw [hp] at ht
      exact absurd ht (by decide)

/-- **The modes agree on a packet when both refuse it, or when it is TCP with a header of no
length** that both accept.  The packet is IPv4 without VLAN.  `AcceptsIpv4` and `AcceptsIpv6` spell
out what the modes check; the records are compared on the packets that pass both. -/
theorem convert_agrees_iff (hl3 : findL3 pkt.raw = some (14, false)) :
    ModesAgree o pkt ↔
      (getHeaderLength pkt.raw 14 ≤ getTotalLength pkt.raw 14 →
        54 + announcedLen pkt.raw ≤ maxPktSize) ∧
      (¬ AcceptsIpv4 pkt ∧ ¬ AcceptsIpv6 pkt ∨
        AcceptsIpv4 pkt ∧ AcceptsIpv6 pkt ∧ pkt.raw 23 = 6 ∧ (pkt.raw 46).toNat / 16 = 0 ∧
          ∀ i < 4, convertedByte pkt.raw i = pkt.raw (34 + i)) := by
  have hboth_iff : (accepted (o.withIpv6 true) pkt).isSome =
      (accepted (o.withIpv6 false) pkt).isSome ↔ (AcceptsIpv6 pkt ↔ AcceptsIpv4 pkt) := by
    rw [← accepted_isSome_ipv4 hl3, ← accepted_isSome_ipv6 hl3, Bool.eq_iff_iff]
  constructor
  · rintro ⟨hfits, hboth, hsame⟩
    have hiff := hboth_iff.mp hboth
    refine ⟨hfits, ?_⟩
    by_cases h4 : AcceptsIpv4 pkt
    · have h6 := hiff.mpr h4
      obtain ⟨ind, hind⟩ := Option.isSome_iff_exists.mp ((accepted_isSome_ipv4 hl3).mpr h4)
      obtain ⟨ind', hind'⟩ := Option.isSome_iff_exists.mp ((accepted_isSome_ipv6 hl3).mpr h6)
      exact Or.inr ⟨h4, h6, (same_iff hl3 h4 hind hind').mp (hsame ind ind' hind hind')⟩
    · exact Or.inl ⟨h4, fun h6 => h4 (hiff.mp h6)⟩
  · rintro ⟨hfits, ⟨h4, h6⟩ | ⟨h4, h6, hsame⟩⟩
    · refine ⟨hfits, hboth_iff.mpr ⟨fun h => absurd h h6, fun h => absurd h h4⟩, ?_⟩
      intro ind ind' hind
      exact absurd ((accepted_withIpv6_false hl3).mp hind).1 h4
    · refine ⟨hfits, hboth_iff.mpr ⟨fun _ => h4, fun _ => h6⟩, ?_⟩
      intro ind ind' hind hind'
      exact (same_iff hl3 h4 hind hind').mpr hsame

/-- A segment whose TCP header announces no length. -/
theorem convert_agrees_noHeader : ModesAgree (exampleParser false)
    { exampleSegment (1, 5) (2, 80) with raw := (exampleSegment (1, 5) (2, 80)).raw.store 46 1 0
        } :=
  (convert_agrees_iff (by decide)).mpr ⟨fun _ => by decide, Or.inr
    ⟨⟨by decide, by decide, by decide, by decide, by decide, by decide, by decide,
      Or.inl (by decide)⟩,
      ⟨by decide, by decide, by decide, Or.inl (by decide)⟩, by decide, by decide, by decide⟩⟩

/-- **The TTL is not looked at behind the conversion**: a packet with TTL 0 is accepted in one
mode. -/
theorem convert_ttl_zero : ¬ ModesAgree (exampleParser false)
    { exampleSegment (1, 5) (2, 80) with raw := (exampleSegment (1, 5) (2, 80)).raw.store 22 1 0
        } := by
  intro h
  have hboth := h.both
  have h4 : (accepted ((exampleParser false).withIpv6 false)
      { exampleSegment (1, 5) (2, 80) with raw := (exampleSegment (1, 5) (2, 80)).raw.store 22 1 0
          }).isSome = false := by
    decide +kernel
  have h6 : (accepted ((exampleParser false).withIpv6 true)
      { exampleSegment (1, 5) (2, 80) with raw := (exampleSegment (1, 5) (2, 80)).raw.store 22 1 0
          }).isSome = true := by
    decide +kernel
  rw [h4, h6] at hboth
  cases hboth

end Trex.Flow
