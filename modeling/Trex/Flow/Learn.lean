/-
# The option of a learn packet

In learn mode the first packet of a template gets room for an option (`mask_as_learn`): the bytes
behind the base IP header move, and the lengths, the offsets, the padding, the checksum and the
constant mbuf are made to fit.  Here is what becomes of a packet that was accepted
(`PureInsertion`).

`UpdatePacketPadding`, which both ways of pushing the option end with, reads the total length of an
IPv4 header. `push_ipv6_option_offline` calls it on an IPv6 header, where those bytes are the end of
the flow label.  So the padding of an IPv6 packet would be right only if its flow label happened to
be that number (`pureInsertion_iff`), and of a packet that `ConvertPacketToIpv6InPlace` made it
would not be, since its flow label is 0.  No packet gets there: `parse_options` does not admit learn
mode with `--ipv6`, and a packet is IPv6 only with `--ipv6`.

* the packet before the option is the one that `acceptPacket` gives: the TTL is already moved out of
  the way;
* `pureInsertion_iff` holds of every option, and `optionPush_pure` of those that the command line
  admits.
-/
import Trex.Flow.FastPath
import Trex.Flow.Parse

namespace Trex.Flow

open Trex.Lib Trex.Net Trex.Pal

/-! ## 1. A packet that is accepted -/

/-- `load_cap_file` up to `is_valid_template_load_time`. -/
def acceptPacket (abi : Abi) (o : ParserOption) (isInitSide : Bool) (pkt : CCapPktRaw) :
    Option PktBytes :=
  (processPacket o pkt).bind fun ind =>
    (PktBytes.create abi (freeReservedTTL ind) isInitSide).bind fun b =>
      if isValidTemplateLoadTime b.ind then some b else none

theorem loadPacket_eq (abi : Abi) (o : ParserOption) (i : Nat) (desc : CPacketDescriptor)
    (pkt : CCapPktRaw) :
    loadPacket abi o i desc pkt = (acceptPacket abi o desc.isInitSide pkt).bind fun b =>
      if isMarked o i desc then maskAsLearn abi b else some b := by
  rw [loadPacket, acceptPacket, Option.bind_assoc]
  congr 1
  funext ind
  rw [Option.bind_assoc]
  congr 1
  funext b
  split
  · rfl
  · rfl

/-- The lengths of a packet that is accepted. -/
structure Acceptable (ind : CPacketIndication) : Prop where
  ip : ind.ipOffset = 14
  ipv4 : ind.isIpv6 = false → getVersion ind.packet.raw 14 = 4 ∧
    getHeaderLength ind.packet.raw 14 = 20 ∧
    14 + getTotalLength ind.packet.raw 14 ≤ ind.packet.pktLen
  ipv6 : ind.isIpv6 = true → 54 + getPayloadLen ind.packet.raw 14 ≤ ind.packet.pktLen
  min : 60 ≤ ind.packet.pktLen
  max : ind.packet.pktLen < maxBufSize

theorem self_le_paddedLen (n : Nat) : n ≤ paddedLen n := by
  unfold paddedLen
  split <;> omega

variable {pkt : CCapPktRaw} {abi : Abi} {o : ParserOption} {side : Bool} {b : PktBytes}

theorem Ipv4Checks.acceptable {proto : L4} {payload : Nat} (h : Ipv4Checks pkt 14 proto payload)
    (hheader : getHeaderLength pkt.raw 14 = 20)
    (hmax : (ipv4Indication pkt 14 proto payload).packet.pktLen < maxBufSize) :
    Acceptable (ipv4Indication pkt 14 proto payload) where
  ip := rfl
  ipv4 _ := ⟨h.version, hheader, by
    rw [Nat.add_comm]
    exact self_le_paddedLen _⟩
  ipv6 h := by cases h
  min := le_paddedLen _
  max := hmax

theorem ipv6Indication_acceptable (m : Mem) (proto : L4) (payload : Nat)
    (hmax : (ipv6Indication m 14 proto payload).packet.pktLen < maxBufSize) :
    Acceptable (ipv6Indication m 14 proto payload) where
  ip := rfl
  ipv4 h := by cases h
  ipv6 _ := by
    have hle := self_le_paddedLen (getPayloadLen m 14 + 14 + ipv6DefaultSize)
    have hsize : 54 + getPayloadLen m 14 = getPayloadLen m 14 + 14 + ipv6DefaultSize :=
      Nat.add_comm _ _
    exact hsize ▸ hle
  min := le_paddedLen _
  max := hmax

/-- Moving the TTL out of the way changes the TTL and the checksum. -/
theorem freeReservedTTL_raw (ind : CPacketIndication) :
    ∃ m, freeReservedTTL ind = { ind with packet.raw := m } ∧
    ∀ x, x < ind.ipOffset + 7 ∨ ind.ipOffset + 12 ≤ x → m x = ind.packet.raw x := by
  unfold freeReservedTTL
  split
  · refine ⟨_, rfl, fun x hx => ?_⟩
    split
    · exact Mem.store_outside _ _ (by omega)
    · rw [updateCheckSum_of_ne _ (by omega)]
      exact Mem.store_outside _ _ (by omega)
  · exact ⟨_, rfl, fun _ _ => rfl⟩

theorem getVersion_congr {m m' : Mem} {ip : Nat} (h : m ip = m' ip) :
    getVersion m ip = getVersion m' ip := by
  rw [getVersion, getVersion, h]

/-- What is read of the header is before the TTL. -/
theorem Acceptable.withRaw {ind : CPacketIndication} {m : Mem} (h : Acceptable ind)
    (hm : ∀ x, x < 14 + 7 ∨ 14 + 12 ≤ x → m x = ind.packet.raw x) :
    Acceptable { ind with packet.raw := m } where
  ip := h.ip
  ipv4 hv := by
    obtain ⟨h1, h2, h3⟩ := h.ipv4 hv
    have htotal : getTotalLength m 14 = getTotalLength ind.packet.raw 14 :=
      getField16_congr fun x _ _ => hm x (by omega)
    have hfirst : m 14 = ind.packet.raw 14 := hm 14 (by omega)
    exact ⟨(getVersion_congr hfirst).trans h1, (getHeaderLength_congr hfirst).trans h2,
      htotal.symm ▸ h3⟩
  ipv6 hv := by
    have hpayload : getPayloadLen m 14 = getPayloadLen ind.packet.raw 14 :=
      getField16_congr fun x _ _ => hm x (by omega)
    exact hpayload.symm ▸ h.ipv6 hv
  min := h.min
  max := h.max

/-- **A packet that is accepted** has these lengths, and it is not yet a learn packet. -/
theorem acceptPacket_acceptable (h : acceptPacket abi o side pkt = some b) : Acceptable b.ind := by
  unfold acceptPacket at h
  obtain ⟨ind, hind, h⟩ := Option.bind_eq_some_iff.mp h
  obtain ⟨b', hcreate, h⟩ := Option.bind_eq_some_iff.mp h
  split at h
  · rename_i hvalid
    cases h
    unfold PktBytes.create at hcreate
    split at hcreate
    · rename_i hlen
      obtain ⟨bigMbuf, -, rfl⟩ := Option.map_eq_some_iff.mp hcreate
      obtain ⟨m, hfree, hm⟩ := freeReservedTTL_raw ind
      dsimp only at hvalid ⊢
      rw [hfree] at hvalid hlen ⊢
      have hind' : accepted o pkt = some ind := accepted_eq_some.mpr ⟨hind, hvalid⟩
      have hacc : Acceptable ind := by
        cases ho : o.ipv6Enable with
        | false =>
          obtain ⟨-, -, hheader, proto, payload, hchecks, rfl⟩ := (accepted_ipv4 ho).mp hind'
          exact hchecks.acceptable hheader hlen.2
        | true =>
          obtain ⟨-, pkt', -, proto, payload, -, rfl⟩ := (accepted_ipv6 ho).mp hind'
          exact ipv6Indication_acceptable _ _ _ hlen.2
      rw [hacc.ip] at hm
      exact hacc.withRaw hm
    · cases hcreate
  · cases h

/-! ## 2. What the option does to a packet -/

/-- Where the option is: behind the base IP header. -/
def CPacketIndication.optionOffset (ind : CPacketIndication) : Nat :=
  ind.ipOffset + if ind.isIpv6 then ipv6DefaultSize else ipv4DefaultSize

/-- The option of a packet without a flow: its type or the next header, its length, the magic, and
zeroes. -/
def CPacketIndication.learnOption (ind : CPacketIndication) : List UInt8 :=
  (if ind.isIpv6 then [ind.packet.raw (ind.ipOffset + 6), 0] else [0x10, 8]) ++
    [0xEE, 0, 0, 0, 0, 0]

/-- The bytes of the IP header that an option changes: the payload length and the next header, or
the header length, the total length and the checksum. -/
def CPacketIndication.optionField (ind : CPacketIndication) (x : Nat) : Bool :=
  if ind.isIpv6 then x == ind.ipOffset + 4 || x == ind.ipOffset + 5 || x == ind.ipOffset + 6
  else x == ind.ipOffset || x == ind.ipOffset + 2 || x == ind.ipOffset + 3 || x == ind.ipOffset +
    10 || x == ind.ipOffset + 11

/-- What an IP header says that is followed by an option. -/
structure AnnouncesOption (ind ind' : CPacketIndication) : Prop where
  ipEnd : ind'.ipEnd = ind.ipEnd + noOptionLen
  ipv4 : ind.isIpv6 = false → getVersion ind'.packet.raw ind.ipOffset = 4 ∧
    getHeaderLength ind'.packet.raw ind.ipOffset = ipv4DefaultSize + noOptionLen ∧
    isChecksumOK ind'.packet.raw ind.ipOffset = true
  ipv6 : ind.isIpv6 = true → ind'.packet.raw (ind.ipOffset + 6) = 0x3C

/-- **The packet is the packet before with an option in it**, and what is recorded of it has
moved. -/
structure Inserted (b b' : PktBytes) : Prop where
  learn : b'.isLearn = true
  side : b'.isInitSide = b.isInitSide
  same : (b'.ind.isIpv6, b'.ind.proto, b'.ind.etherOffset, b'.ind.ipOffset, b'.ind.payloadLen,
      b'.ind.flowKey, b'.ind.isSwapTuple) =
    (b.ind.isIpv6, b.ind.proto, b.ind.etherOffset, b.ind.ipOffset, b.ind.payloadLen, b.ind.flowKey,
      b.ind.isSwapTuple)
  len : b'.ind.packet.pktLen = b.ind.packet.pktLen + noOptionLen
  l4 : b'.ind.udpTcpOffset = b.ind.udpTcpOffset + noOptionLen
  payload : b'.ind.payloadOffset = b.ind.payloadOffset + noOptionLen
  before : ∀ x < b.ind.optionOffset, b.ind.optionField x = false →
    b'.ind.packet.raw x = b.ind.packet.raw x
  option : b'.ind.packet.raw.read b.ind.optionOffset noOptionLen = b.ind.learnOption
  behind : b'.ind.packet.raw.read (b.ind.optionOffset + noOptionLen) (b.ind.packet.pktLen -
    b.ind.optionOffset) =
    b.ind.packet.raw.read b.ind.optionOffset (b.ind.packet.pktLen - b.ind.optionOffset)
  header : AnnouncesOption b.ind b'.ind
  tail : b'.bigMbuf = tailOf b'.ind.packet

/-- The option is inserted, and the padding is what is behind the IP packet. -/
structure PureInsertion (b b' : PktBytes) : Prop extends Inserted b b' where
  padding : b'.ind.ipEnd + b'.ind.packetPadding = b'.ind.packet.pktLen

/-! ## 3. The push -/

theorem getField16_setField16 (m : Mem) (a n : Nat) :
    getField16 (setField16 m a n) a = n % 2 ^ 16 := by
  rw [getField16, setField16, Mem.load_store, bswap_mod, bswap_bswap]
  rfl

theorem getVersion_setHeaderLength (m : Mem) (ip len : Nat) :
    getVersion (setHeaderLength m ip len) ip = getVersion m ip := by
  have hbyte : (setHeaderLength m ip len) ip =
      UInt8.ofNat ((m ip).toNat / 16 * 16 + len / 4 % 16) :=
    Mem.store_inside (i := 0) m rfl
  have hm := (m ip).toNat_lt
  rw [getVersion, getVersion, hbyte, UInt8.toNat_ofNat']
  omega

/-- The bytes of a packet behind `push_ipv4_option_offline` or `push_ipv6_option_offline`. -/
structure HeaderPushed (ind : CPacketIndication) (m : Mem) : Prop where
  before : ∀ x < ind.optionOffset, ind.optionField x = false → m x = ind.packet.raw x
  behind : m.read (ind.optionOffset + noOptionLen) (ind.packet.pktLen - ind.optionOffset) =
    ind.packet.raw.read ind.optionOffset (ind.packet.pktLen - ind.optionOffset)
  ipEnd : { ind with packet.raw := m }.ipEnd = ind.ipEnd + noOptionLen
  ipv4 : ind.isIpv6 = false → getVersion m 14 = 4 ∧
    getHeaderLength m 14 = ipv4DefaultSize + noOptionLen
  ipv6 : ind.isIpv6 = true → m 54 = ind.packet.raw 20 ∧ m 20 = 0x3C

/-- What `insertBytes` leaves behind the place of the insertion. -/
theorem read_insertBytes (pkt : CCapPktRaw) (pos bytes : Nat) :
    (insertBytes pkt pos bytes).raw.read (pos + bytes) (pkt.pktLen - pos) =
        pkt.raw.read pos (pkt.pktLen - pos) := by
  have hlen : pkt.pktLen + bytes - pos - bytes = pkt.pktLen - pos := by omega
  have hread := Mem.read_putBytes pkt.raw (pos + bytes) (pkt.raw.read pos (pkt.pktLen - pos))
  rw [Mem.length_read] at hread
  rw [insertBytes, hlen]
  exact hread

theorem pushIpv4OptionOffline_eq (abi : Abi) (h : Acceptable b.ind) (hv : b.ind.isIpv6 = false) :
    ∃ m, pushIpv4OptionOffline abi b noOptionLen =
        b.refresh abi { raw := m, pktLen := b.ind.packet.pktLen + noOptionLen } noOptionLen ∧
      HeaderPushed b.ind m := by
  obtain ⟨hversion, hheader, htotal⟩ := h.ipv4 hv
  have hmax : b.ind.packet.pktLen < 2048 := h.max
  have hopt : noOptionLen = 8 := rfl
  have hoff : b.ind.optionOffset = 34 := by
    rw [CPacketIndication.optionOffset, h.ip, hv]
    rfl
  simp only [pushIpv4OptionOffline, h.ip]
  rw [if_neg (by omega)]
  refine ⟨_, rfl, ?_⟩
  have hlt : ∀ x < 34, (insertBytes b.ind.packet (14 + ipv4DefaultSize) noOptionLen).raw x =
      b.ind.packet.raw x :=
    fun x hx => insertBytes_of_lt _ hx
  have hbehind := read_insertBytes b.ind.packet (14 + ipv4DefaultSize) noOptionLen
  generalize (insertBytes b.ind.packet (14 + ipv4DefaultSize) noOptionLen).raw = m1 at hlt hbehind ⊢
  have htotal1 : getTotalLength m1 14 = getTotalLength b.ind.packet.raw 14 :=
    getField16_congr fun x _ hx => hlt x (by omega)
  -- the header length is not in the total length
  have hfirst : setField16 m1 (14 + 2) (getTotalLength m1 14 + noOptionLen) 14 =
      b.ind.packet.raw 14 := by
    rw [setField16, Mem.store_of_lt _ _ (by omega), hlt 14 (by omega)]
  have hheader1 := (getHeaderLength_congr hfirst).trans hheader
  rw [hheader1]
  refine ⟨fun x hx hfield => ?_, ?_, ?_, fun _ => ⟨?_, ?_⟩, fun hv6 => ?_⟩
  · rw [hoff] at hx
    simp only [CPacketIndication.optionField, hv, h.ip, Bool.false_eq_true, ↓reduceIte,
      Bool.or_eq_false_iff, beq_eq_false_iff_ne] at hfield
    rw [setHeaderLength, setField8, Mem.store_outside _ _ (by omega), setField16,
      Mem.store_outside _ _ (by omega)]
    exact hlt x hx
  · rw [hoff]
    refine Eq.trans (Mem.read_congr fun x hx _ => ?_) hbehind
    rw [setHeaderLength, setField8, Mem.store_of_ge _ _ (by omega), setField16,
      Mem.store_of_ge _ _ (by omega)]
  · have hafter : getTotalLength
        (setHeaderLength (setField16 m1 (14 + 2) (getTotalLength m1 14 + noOptionLen)) 14
        (20 + noOptionLen)) 14 = getTotalLength m1 14 + noOptionLen := by
      have hkeep : getTotalLength
          (setHeaderLength (setField16 m1 (14 + 2) (getTotalLength m1 14 + noOptionLen)) 14
          (20 + noOptionLen)) 14 =
          getField16 (setField16 m1 (14 + 2) (getTotalLength m1 14 + noOptionLen)) (14 + 2) :=
        getField16_congr fun x hx _ => by
          rw [setHeaderLength, setField8, Mem.store_of_ge _ _ (by omega)]
      rw [hkeep, getField16_setField16]
      omega
    rw [htotal1] at hafter ⊢
    simp [CPacketIndication.ipEnd, hv, h.ip, hafter, Nat.add_assoc]
  · rw [getVersion_setHeaderLength, getVersion_congr hfirst, hversion]
  · exact getHeaderLength_setHeaderLength _ _ (by decide) (by decide)
  · rw [hv] at hv6
    cases hv6

theorem pushIpv6OptionOffline_eq (abi : Abi) (h : Acceptable b.ind) (hv : b.ind.isIpv6 = true) :
    ∃ m, pushIpv6OptionOffline abi b noOptionLen =
        b.refresh abi { raw := m, pktLen := b.ind.packet.pktLen + noOptionLen } noOptionLen ∧
      HeaderPushed b.ind m := by
  have hlen := h.ipv6 hv
  have hmax : b.ind.packet.pktLen < 2048 := h.max
  have hopt : noOptionLen = 8 := rfl
  have hsize : ipv6DefaultSize = 40 := rfl
  have hoff : b.ind.optionOffset = 54 := by
    rw [CPacketIndication.optionOffset, h.ip, hv]
    rfl
  simp only [pushIpv6OptionOffline, h.ip]
  refine ⟨_, rfl, ?_⟩
  have hlt : ∀ x < 54, (insertBytes b.ind.packet (14 + ipv6DefaultSize) noOptionLen).raw x =
      b.ind.packet.raw x :=
    fun x hx => insertBytes_of_lt _ hx
  have hbehind := read_insertBytes b.ind.packet (14 + ipv6DefaultSize) noOptionLen
  generalize (insertBytes b.ind.packet (14 + ipv6DefaultSize) noOptionLen).raw = m1 at hlt hbehind ⊢
  have hpayload1 : getPayloadLen m1 14 = getPayloadLen b.ind.packet.raw 14 :=
    getField16_congr fun x _ hx => hlt x (by omega)
  -- the next header is read before it is overwritten
  have hnext : setField16 m1 (14 + 4) (getPayloadLen m1 14 + noOptionLen) (14 + 6) =
      b.ind.packet.raw 20 := by
    rw [setField16, Mem.store_of_ge _ _ (by omega), hlt _ (by omega)]
  rw [hnext]
  refine ⟨fun x hx hfield => ?_, ?_, ?_, fun hv4 => ?_, fun _ => ⟨?_, ?_⟩⟩
  · rw [hoff] at hx
    simp only [CPacketIndication.optionField, hv, h.ip, ↓reduceIte, Bool.or_eq_false_iff,
      beq_eq_false_iff_ne] at hfield
    rw [setField8, Mem.store_outside _ _ (by omega), setField8, Mem.store_outside _ _ (by omega),
      setField16, Mem.store_outside _ _ (by omega)]
    exact hlt x hx
  · rw [hoff]
    refine Eq.trans (Mem.read_congr fun x hx _ => ?_) hbehind
    rw [setField8, Mem.store_outside _ _ (by omega), setField8, Mem.store_outside _ _ (by omega),
      setField16, Mem.store_outside _ _ (by omega)]
  · have hafter : getPayloadLen
        (setField8 (setField8 (setField16 m1 (14 + 4) (getPayloadLen m1 14 + noOptionLen))
        (14 + ipv6DefaultSize) (b.ind.packet.raw 20).toNat) (14 + 6) 0x3C) 14 =
            getPayloadLen m1 14 + noOptionLen := by
      have hkeep : getPayloadLen
          (setField8 (setField8 (setField16 m1 (14 + 4) (getPayloadLen m1 14 + noOptionLen))
          (14 + ipv6DefaultSize) (b.ind.packet.raw 20).toNat) (14 + 6) 0x3C) 14 =
          getField16 (setField16 m1 (14 + 4) (getPayloadLen m1 14 + noOptionLen)) (14 + 4) :=
        getField16_congr fun x hx _ => by
          rw [setField8, Mem.store_outside _ _ (by omega), setField8,
            Mem.store_outside _ _ (by omega)]
      rw [hkeep, getField16_setField16]
      omega
    rw [hpayload1] at hafter ⊢
    simp [CPacketIndication.ipEnd, hv, h.ip, hafter, Nat.add_assoc]
  · rw [hv] at hv4
    cases hv4
  · rw [setField8, Mem.store_outside _ _ (by omega)]
    refine (Mem.store_inside (a := 14 + ipv6DefaultSize) (i := 0) (w := 1) _ rfl).trans ?_
    exact UInt8.ofNat_toNat
  · exact Mem.store_inside (a := 14 + 6) (i := 0) (w := 1) _ rfl

theorem push_eq (abi : Abi) (h : Acceptable b.ind) :
    ∃ m, (if b.ind.isIpv6 then pushIpv6OptionOffline abi b noOptionLen
        else pushIpv4OptionOffline abi b noOptionLen) =
        b.refresh abi { raw := m, pktLen := b.ind.packet.pktLen + noOptionLen } noOptionLen ∧
      HeaderPushed b.ind m := by
  cases hv : b.ind.isIpv6 with
  | true => exact pushIpv6OptionOffline_eq abi h hv
  | false => exact pushIpv4OptionOffline_eq abi h hv

/-- There is a buffer for what is behind the first bytes. -/
theorem allocConstMbuf_eq (abi : Abi) (h : pkt.pktLen < maxBufSize + firstPktSize) :
    allocConstMbuf abi pkt = some (tailOf pkt) := by
  unfold allocConstMbuf tailOf
  split
  · rename_i hgt
    rcases pktmbufAlloc_spec (pkt.pktLen - firstPktSize) with ⟨⟨n, hn, hle, hmax⟩, -⟩ | ⟨-, hge⟩
    · obtain ⟨room, hroom⟩ := Option.isSome_iff_exists.mp
        (appendTo_eq abi (Nat.lt_of_le_of_lt hmax (by decide)) hle)
      dsimp only
      rw [hn, Option.bind_some, hroom, Option.map_some]
    · omega
  · rfl

/-! ## 4. The option -/

/-- What both kinds of option have: the magic, and the number of the flow and of the thread. -/
def natFields (m : Mem) (opt : Nat) : Mem :=
  setField8 ((setField8 m (opt + 2) (noIpv4Magic false)).store (opt + 4) 4 0) (opt + 3) 0

theorem read_natFields (m : Mem) (opt : Nat) :
    (natFields m opt).read opt 8 = [m opt, m (opt + 1), 0xEE, 0, 0, 0, 0, 0] := by
  have hkeep : (natFields m opt).read opt 2 = m.read opt 2 :=
    Mem.read_congr fun x _ hx => by
      simp (disch := omega) only [natFields, setField8, Mem.store_outside]
  have hmagic : (natFields m opt).read (opt + 2) 1 = [0xEE] := by
    refine Eq.trans (Mem.read_congr fun x _ hx =>
      ?_) (Mem.read_putBytes m (opt + 2) (toBytes 1 (noIpv4Magic false)))
    simp (disch := omega) only [natFields, setField8, Mem.store_outside]
    rfl
  have hthread : (natFields m opt).read (opt + 3) 1 = [0] :=
    Mem.read_putBytes _ (opt + 3) (toBytes 1 0)
  have hflow : (natFields m opt).read (opt + 4) 4 = [0, 0, 0, 0] := by
    refine Eq.trans (Mem.read_congr fun x hx _ => ?_) (Mem.read_putBytes
      (setField8 m (opt + 2) (noIpv4Magic false)) (opt + 4) (toBytes 4 0))
    exact Mem.store_outside _ _ (by omega)
  calc (natFields m opt).read opt 8
      = (natFields m opt).read opt 2 ++ ((natFields m opt).read (opt + 2) 1 ++
          ((natFields m opt).read (opt + 3) 1 ++ (natFields m opt).read (opt + 4) 4)) := by
        rw [← Mem.read_append, ← Mem.read_append _ (opt + 2), ← Mem.read_append]
    _ = m.read opt 2 ++ ([0xEE] ++ ([0] ++ [0, 0, 0, 0])) := by rw [hkeep, hmagic, hthread, hflow]
    _ = _ := rfl

section InitOption

variable {b : PktBytes} (hip : b.ind.ipOffset = 14)

include hip

/-- The option of a packet without a flow is written at its place, and the checksum is made. -/
theorem initOption_outside {x : Nat}
    (hx : x < b.ind.optionOffset ∨ b.ind.optionOffset + noOptionLen ≤ x)
    (hsum : b.ind.isIpv6 = false → x ≠ 24 ∧ x ≠ 25) : initOption b x = b.ind.packet.raw x := by
  have hopt : noOptionLen = 8 := rfl
  cases hv : b.ind.isIpv6 with
  | true =>
    simp only [CPacketIndication.optionOffset, initOption, hip, hv, ↓reduceIte, setField8,
      ipv6DefaultSize] at hx ⊢
    simp (disch := omega) only [Mem.store_outside]
  | false =>
    have hne := hsum hv
    simp only [CPacketIndication.optionOffset, initOption, hip, hv, Bool.false_eq_true, ↓reduceIte,
      setField8, ipv4DefaultSize] at hx ⊢
    rw [updateCheckSum_of_ne _ (by omega)]
    simp (disch := omega) only [Mem.store_outside]

theorem read_initOption : (initOption b).read b.ind.optionOffset noOptionLen =
    (if b.ind.isIpv6 then [b.ind.packet.raw 54, 0] else [0x10, 8]) ++ [0xEE, 0, 0, 0, 0, 0] := by
  cases hv : b.ind.isIpv6 with
  | true =>
    have hoff : b.ind.optionOffset = 54 := by
      rw [CPacketIndication.optionOffset, hip, hv]
      rfl
    have hinit : initOption b = natFields (setField8 b.ind.packet.raw 55 0) 54 := by
      rw [initOption, hip, hv]
      rfl
    have htype : setField8 b.ind.packet.raw 55 0 54 = b.ind.packet.raw 54 :=
      Mem.store_of_lt _ _ (by decide)
    have hlength : setField8 b.ind.packet.raw 55 0 55 = 0 := Mem.store_inside (i := 0) _ rfl
    rw [hoff, hinit, noOptionLen, read_natFields, htype, hlength]
    rfl
  | false =>
    have hoff : b.ind.optionOffset = 34 := by
      rw [CPacketIndication.optionOffset, hip, hv]
      rfl
    have hinit : initOption b =
        updateCheckSum (natFields (setField8 (setField8 b.ind.packet.raw 34 0x10) 35 8) 34) 14 := by
      rw [initOption, hip, hv]
      rfl
    have hsum : (initOption b).read 34 8 =
        (natFields (setField8 (setField8 b.ind.packet.raw 34 0x10) 35 8) 34).read 34 8 := by
      rw [hinit]
      exact Mem.read_congr fun x hx _ => updateCheckSum_of_ne _ (by omega)
    have htype : setField8 (setField8 b.ind.packet.raw 34 0x10) 35 8 34 = 0x10 :=
      (Mem.store_of_lt _ _ (by decide)).trans (Mem.store_inside (i := 0) _ rfl)
    have hlength : setField8 (setField8 b.ind.packet.raw 34 0x10) 35 8 35 = 8 :=
      Mem.store_inside (i := 0) _ rfl
    rw [hoff, noOptionLen, hsum, read_natFields, htype, hlength]
    rfl

/-- The checksum is made of the header with the option. -/
theorem isChecksumOK_initOption (hv : b.ind.isIpv6 = false)
    (hheader : getHeaderLength b.ind.packet.raw 14 = 28) :
    isChecksumOK (initOption b) 14 = true := by
  have hinit : initOption b =
      updateCheckSum (natFields (setField8 (setField8 b.ind.packet.raw 34 0x10) 35 8) 34) 14 := by
    rw [initOption, hip, hv]
    rfl
  have hfirst : natFields (setField8 (setField8 b.ind.packet.raw 34 0x10) 35 8) 34 14 =
      b.ind.packet.raw 14 := by
    simp (disch := omega) only [natFields, setField8, Mem.store_outside]
  rw [hinit]
  refine isChecksumOK_updateCheckSum _ ?_
  rw [getHeaderLength_congr hfirst, hheader]
  decide

end InitOption

/-- A packet behind the push, with the bytes `m`. -/
def PktBytes.pushed (b : PktBytes) (m : Mem) : PktBytes where
  ind := { b.ind with
    packet := { raw := m, pktLen := b.ind.packet.pktLen + noOptionLen }
    udpTcpOffset := b.ind.udpTcpOffset + noOptionLen
    payloadOffset := b.ind.payloadOffset + noOptionLen
    packetPadding := updatePacketPadding m (b.ind.packet.pktLen + noOptionLen) b.ind.ipOffset }
  isInitSide := b.isInitSide
  isLearn := b.isLearn
  bigMbuf := tailOf { raw := m, pktLen := b.ind.packet.pktLen + noOptionLen }

/-- The packet behind `mask_as_learn`. -/
def PktBytes.masked (b : PktBytes) (m : Mem) : PktBytes :=
  { b.pushed m with ind := { (b.pushed m).ind with packet.raw := initOption (b.pushed m) },
                    isLearn := true }

theorem maskAsLearn_eq (abi : Abi) (h : Acceptable b.ind) :
    ∃ m, maskAsLearn abi b = some (b.masked m) ∧ HeaderPushed b.ind m := by
  obtain ⟨m, hpush, hm⟩ := push_eq abi h
  have hroom : b.ind.packet.pktLen + noOptionLen < maxBufSize + firstPktSize :=
    Nat.add_lt_add h.max (by decide)
  have hbig : allocConstMbuf abi { raw := m, pktLen := b.ind.packet.pktLen + noOptionLen } =
      some _ :=
    allocConstMbuf_eq abi hroom
  refine ⟨m, ?_, hm⟩
  rw [maskAsLearn, hpush, PktBytes.refresh, hbig]
  rfl

/-- **The option is inserted**, into every packet that is accepted. -/
theorem masked_inserted (h : Acceptable b.ind) {m : Mem} (hm : HeaderPushed b.ind m) :
    Inserted b (b.masked m) := by
  have hopt : noOptionLen = 8 := rfl
  have hip : (b.pushed m).ind.ipOffset = 14 := h.ip
  have hoff : b.ind.optionOffset = if b.ind.isIpv6 then 54 else 34 := by
    rw [CPacketIndication.optionOffset, h.ip]
    cases b.ind.isIpv6 <;> rfl
  have hout : ∀ x, x < b.ind.optionOffset ∨ b.ind.optionOffset + noOptionLen ≤ x →
      (b.ind.isIpv6 = false → x ≠ 24 ∧ x ≠ 25) → initOption (b.pushed m) x = m x :=
    fun x hx hsum => initOption_outside hip hx hsum
  have hfield : ∀ a < 20, getField16 (initOption (b.pushed m)) a = getField16 m a := fun a ha =>
    getField16_congr fun x _ hx => hout x (by rw [hoff]; split <;> omega) fun hv => by omega
  constructor
  · rfl
  · rfl
  · rfl
  · rfl
  · rfl
  · rfl
  · intro x hx hchanged
    refine (hout x (Or.inl hx) fun hv => ?_).trans (hm.before x hx hchanged)
    simp only [CPacketIndication.optionField, hv, h.ip, Bool.false_eq_true, ↓reduceIte,
      Bool.or_eq_false_iff, beq_eq_false_iff_ne] at hchanged
    omega
  · have hread : (initOption (b.pushed m)).read b.ind.optionOffset noOptionLen =
        (if b.ind.isIpv6 then [m 54, 0] else [0x10, 8]) ++ [0xEE, 0, 0, 0, 0, 0] :=
          read_initOption hip
    refine hread.trans ?_
    rw [CPacketIndication.learnOption, h.ip]
    cases hv : b.ind.isIpv6 with
    | true => rw [(hm.ipv6 hv).1]
    | false => rfl
  · refine Eq.trans (Mem.read_congr fun x hx _ => hout x (Or.inr hx) fun hv => ?_) hm.behind
    rw [hoff, hv, if_neg Bool.false_ne_true] at hx
    omega
  · refine ⟨Eq.trans ?_ hm.ipEnd, fun hv => ?_, fun hv => ?_⟩
    · have htotal : getTotalLength (initOption (b.pushed m)) 14 = getTotalLength m 14 :=
        hfield 16 (by decide)
      have hpayload : getPayloadLen (initOption (b.pushed m)) 14 = getPayloadLen m 14 :=
        hfield 18 (by decide)
      have hv : (b.pushed m).ind.isIpv6 = b.ind.isIpv6 := rfl
      simp only [CPacketIndication.ipEnd, PktBytes.masked, hip, hv, h.ip, htotal, hpayload]
    · rw [h.ip]
      obtain ⟨h1, h2⟩ := hm.ipv4 hv
      have hfirst : initOption (b.pushed m) 14 = m 14 :=
        hout 14 (by rw [hoff]; split <;> omega) fun hv => by omega
      exact ⟨(getVersion_congr hfirst).trans h1, (getHeaderLength_congr hfirst).trans h2,
        isChecksumOK_initOption hip hv h2⟩
    · rw [h.ip]
      exact (hout 20 (by rw [hoff, hv, if_pos rfl]; omega) fun hv4 => by omega).trans (hm.ipv6 hv).2
  · exact Eq.symm (tailOf_congr rfl fun x hx => initOption_of_ge hip (Or.inr hx))

/-- The padding is computed of the total length that an IPv4 header would have. -/
theorem masked_padding (h : Acceptable b.ind) {m : Mem} (hm : HeaderPushed b.ind m) :
    (b.masked m).ind.ipEnd + (b.masked m).ind.packetPadding = (b.masked m).ind.packet.pktLen ↔
      (b.ind.isIpv6 = true →
        getTotalLength b.ind.packet.raw 14 = ipv6DefaultSize + getPayloadLen b.ind.packet.raw 14 +
            noOptionLen) := by
  have hopt : noOptionLen = 8 := rfl
  have hsize : ipv6DefaultSize = 40 := rfl
  have hmax : b.ind.packet.pktLen < 2048 := h.max
  have hend : (b.masked m).ind.ipEnd = b.ind.ipEnd + noOptionLen :=
    (masked_inserted h hm).header.ipEnd
  have hpadding : (b.masked m).ind.packetPadding =
      (b.ind.packet.pktLen + noOptionLen + 2 ^ 17 - (getTotalLength m 14 + 14)) % 2 ^ 16 := by
    have hpush : (b.masked m).ind.packetPadding =
        updatePacketPadding m (b.ind.packet.pktLen + noOptionLen) b.ind.ipOffset := rfl
    rw [hpush, h.ip, updatePacketPadding]
  have hlen : (b.masked m).ind.packet.pktLen = b.ind.packet.pktLen + noOptionLen := rfl
  rw [hend, hpadding, hlen]
  cases hv : b.ind.isIpv6 with
  | false =>
    obtain ⟨-, -, hle⟩ := h.ipv4 hv
    have htotal : 14 + getTotalLength m 14 = b.ind.ipEnd + noOptionLen := by
      have hm := hm.ipEnd
      simpa only [CPacketIndication.ipEnd, hv, h.ip, Bool.false_eq_true, ↓reduceIte] using hm
    have hipEnd : b.ind.ipEnd = 14 + getTotalLength b.ind.packet.raw 14 := by
      simp [CPacketIndication.ipEnd, hv, h.ip]
    exact ⟨fun _ hv => (by cases hv), fun _ => by omega⟩
  | true =>
    have hle := h.ipv6 hv
    have htotal : getTotalLength m 14 = getTotalLength b.ind.packet.raw 14 := by
      refine getField16_congr fun x hx hx' => hm.before x ?_ ?_
      · rw [CPacketIndication.optionOffset, h.ip, hv]
        exact Nat.lt_of_lt_of_le hx' (by decide)
      · simp only [CPacketIndication.optionField, hv, h.ip, ↓reduceIte, Bool.or_eq_false_iff,
          beq_eq_false_iff_ne]
        omega
    have hlt := getTotalLength_lt b.ind.packet.raw 14
    have hipEnd : b.ind.ipEnd = 14 + ipv6DefaultSize + getPayloadLen b.ind.packet.raw 14 := by
      simp [CPacketIndication.ipEnd, hv, h.ip]
    rw [hipEnd, htotal]
    constructor
    · intro heq _
      omega
    · intro heq
      have := heq rfl
      omega

/-- **When the push is a pure insertion**, whatever the options are: for every IPv4 packet that is
accepted, and for the IPv6 packets with one flow label. -/
theorem pureInsertion_iff {i : Nat} {desc : CPacketDescriptor} (hmark : isMarked o i desc = true)
    (hb : acceptPacket abi o desc.isInitSide pkt = some b) :
    (∃ b', maskAsLearn abi b = some b' ∧ loadPacket abi o i desc pkt = some b' ∧
      PureInsertion b b') ↔ (b.ind.isIpv6 = true →
        getTotalLength b.ind.packet.raw 14 = ipv6DefaultSize + getPayloadLen b.ind.packet.raw 14 +
            noOptionLen) := by
  have hacc := acceptPacket_acceptable hb
  obtain ⟨m, hmask, hm⟩ := maskAsLearn_eq abi hacc
  have hload : loadPacket abi o i desc pkt = some (b.masked m) := by
    rw [loadPacket_eq, hb, Option.bind_some, if_pos hmark, hmask]
  rw [← masked_padding hacc hm]
  constructor
  · rintro ⟨b', hb', -, hpure⟩
    obtain rfl : b.masked m = b' := Option.some.inj (hmask.symm.trans hb')
    exact hpure.padding
  · intro hpadding
    exact ⟨_, hmask, hload, { masked_inserted hacc hm with padding := hpadding }⟩

/-- What is inserted is right but for the padding, for IPv6 as well. -/
theorem maskAsLearn_inserted (hb : acceptPacket abi o side pkt = some b) :
    ∃ b', maskAsLearn abi b = some b' ∧ Inserted b b' := by
  have hacc := acceptPacket_acceptable hb
  obtain ⟨m, hmask, hm⟩ := maskAsLearn_eq abi hacc
  exact ⟨_, hmask, masked_inserted hacc hm⟩

/-- A packet is IPv6 exactly with `--ipv6`. -/
theorem acceptPacket_ipv6 (h : acceptPacket abi o side pkt = some b) :
    b.ind.isIpv6 = o.ipv6Enable := by
  unfold acceptPacket at h
  obtain ⟨ind, hind, h⟩ := Option.bind_eq_some_iff.mp h
  obtain ⟨b', hcreate, h⟩ := Option.bind_eq_some_iff.mp h
  split at h
  · cases h
    unfold PktBytes.create at hcreate
    split at hcreate
    · obtain ⟨bigMbuf, -, rfl⟩ := Option.map_eq_some_iff.mp hcreate
      exact (freeReservedTTL_parsed (processPacket_parsed hind)).ipv6
    · cases hcreate
  · cases h

/-- **The option push is a pure insertion** into every packet that is accepted and marked.  A packet
is marked in learn mode, which `parse_options` does not admit together with `--ipv6`: so the packet
is IPv4, and the length that `UpdatePacketPadding` reads is the one that was just written. -/
theorem optionPush_pure {abi : Abi} {o : ParserOption} {i : Nat} {desc : CPacketDescriptor}
    {pkt : CCapPktRaw} {b : PktBytes} (hadm : o.isAdmitted = true)
    (hmark : isMarked o i desc = true) (hb : acceptPacket abi o desc.isInitSide pkt = some b) :
    ∃ b', maskAsLearn abi b = some b' ∧ loadPacket abi o i desc pkt = some b' ∧
        PureInsertion b b' := by
  refine (pureInsertion_iff hmark hb).mpr fun hv6 => ?_
  have hlearn : o.learnMode = true := by
    simp only [isMarked, Bool.and_eq_true] at hmark
    exact hmark.1.1
  have hipv6 : o.ipv6Enable = true := (acceptPacket_ipv6 hb).symm.trans hv6
  rw [ParserOption.isAdmitted, hlearn, hipv6] at hadm
  cases hadm

/-- The first packet of a flow with both directions. -/
def exampleMarked : CPacketDescriptor where
  flowId := 0
  flowPktNum := 0
  id := 0
  isInitSide := true
  isBiDirectionalFlow := true

theorem optionPush_pure_ipv4 : ∃ b,
    acceptPacket ⟨16, 64⟩ (exampleOption false true) true examplePkt = some b ∧
    ∃ b', maskAsLearn ⟨16, 64⟩ b = some b' ∧
      loadPacket ⟨16, 64⟩ (exampleOption false true) 0 exampleMarked examplePkt = some b' ∧
          PureInsertion b b' := by
  have hrun : (acceptPacket ⟨16, 64⟩ (exampleOption false true) true examplePkt).isSome = true := by
    decide +kernel
  obtain ⟨b, hb⟩ := Option.isSome_iff_exists.mp hrun
  exact ⟨b, hb, optionPush_pure (by decide) (by decide) hb⟩

/-- The padding of an IPv6 packet would be wrong: it would be 96, and nothing is behind the IP
packet of the 110 bytes. -/
theorem not_pureInsertion_ipv6 : ∃ b,
    acceptPacket ⟨16, 64⟩ (exampleOption true true) true examplePkt = some b ∧
    ¬ ∃ b', maskAsLearn ⟨16, 64⟩ b = some b' ∧ PureInsertion b b' := by
  have hrun : (acceptPacket ⟨16, 64⟩ (exampleOption true true) true examplePkt).any (fun b =>
      b.ind.isIpv6 && getTotalLength b.ind.packet.raw 14 != ipv6DefaultSize +
        getPayloadLen b.ind.packet.raw 14 + noOptionLen) = true := by
    decide +kernel
  obtain ⟨b, hb, htest⟩ := (Option.any_eq_true _ _).mp hrun
  rw [Bool.and_eq_true, bne_iff_ne] at htest
  refine ⟨b, hb, ?_⟩
  rintro ⟨b', hb', hpure⟩
  obtain ⟨m, hmask, hm⟩ := maskAsLearn_eq ⟨16, 64⟩ (acceptPacket_acceptable hb)
  obtain rfl : b.masked m = b' := Option.some.inj (hmask.symm.trans hb')
  exact htest.2 ((masked_padding (acceptPacket_acceptable hb) hm).mp hpure.padding htest.1)

end Trex.Flow
