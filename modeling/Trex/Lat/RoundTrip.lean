/-
# The RX-check header, from the sender to the receiver

`do_generate_new_mbuf_rxcheck` (`bp_sim.cpp`) writes the header into a packet, and `check_packet`
(`latency.cpp`) finds it in the frame: `rx_p` is where it was written, and what is read there is
what was written.

* The receiver skips the base header.  The header that was written is the first option, since those
  that were there before are behind it.
* The options behind it are the packet's own.  They end the walk early when they are not known,
  which counts an error, but not before `rx_p` is set; `handle_rx_pkt` (`bp_sim.cpp`) does not look
  at what `check_packet` returns.
* A packet is not taken for a latency packet, since it is UDP, TCP or IPv6.
-/
import Trex.Flow.RxCheck
import Trex.Lat.Receive

namespace Trex.Lat.Receive

open Trex.Lib Trex.Pal Trex.Flow List
open Trex.Rx (CRxCheckHeader rxCheckLen)
open CCPortLatency (rxCheckV4OptType rxCheckV6OptType natOptionType isValidIpv4Magic)

/-! ## 1. The fields of a frame -/

section Fields

variable {frame : List UInt8}

theorem getElem?_frame {a : Nat} (h : a < frame.length) : frame[a]? = some (memOf frame a) := by
  rw [memOf, getD_eq_getElem _ _ h, List.getElem?_eq_getElem h]

/-- A field of two bytes. -/
theorem be_field {a : Nat} (h : a + 2 ≤ frame.length) :
    be (field frame a 2) = getField16 (memOf frame) a := by
  have hfield : field frame a 2 = [memOf frame a, memOf frame (a + 1)] := by
    refine ext_getElem? fun i => ?_
    rw [field, List.getElem?_take]
    rcases i with _ | _ | i
    · rw [if_pos (by decide), List.getElem?_drop]
      exact getElem?_frame (by omega)
    · rw [if_pos (by decide), List.getElem?_drop]
      exact getElem?_frame (by omega)
    · rw [if_neg (by omega)]
      rfl
  have hread : toBytes 2 ((memOf frame).load a 2) = [memOf frame a, memOf frame (a + 1)] :=
    toBytes_ofBytes [memOf frame a, memOf frame (a + 1)]
  rw [hfield, getField16, bswap, hread]
  simp only [be, ofBytes, foldl_cons, foldl_nil, reverse_cons, reverse_nil, nil_append,
    cons_append]
  omega

theorem ipLen_eq (ip : Nat) : ipLen frame ip = Net.getHeaderLength (memOf frame) ip := rfl

end Fields

/-! ## 2. The walk behind the header -/

section Walk

variable {o : LatencyOptions} {maxThreads : UInt8} {m : List UInt8} {ip : Nat}

/-- Where less than an RX-check header is left, `rx_p` stays what it is. -/
theorem checkOptions_rxp {optLen : Nat} : ∀ {optPtr : Nat} {c d : Received}, optLen < rxCheckLen →
    checkOptions o maxThreads m ip c optPtr optLen = .ok d → d.rxp = c.rxp := by
  induction optLen using Nat.strong_induction_on with
  | h optLen ih =>
    intro optPtr c d hshort h
    rw [checkOptions] at h
    split at h
    · cases h
      rfl
    · rename_i hleft
      obtain ⟨type, -, h⟩ := bind_eq_ok h
      split at h
      · rw [if_pos (Or.inr hshort)] at h
        cases h
        rfl
      · split at h
        · split at h
          · cases h
            rfl
          · obtain ⟨magic, -, h⟩ := bind_eq_ok h
            split at h
            · cases h
              rfl
            · obtain ⟨given, -, h⟩ := bind_eq_ok h
              have hless : optLen - noOptionLen < optLen :=
                Nat.sub_lt (Nat.pos_of_ne_zero hleft) (by decide)
              exact ih _ hless (c := { c with nat := c.nat ++ [given] }) (Nat.lt_trans hless hshort)
                h
        · cases h
          rfl

/-- **The header is found**, as the first one of options that have no room for another. -/
theorem checkOptions_found (ho : o.rxCheckMode = true) {optPtr optLen : Nat} {c d : Received}
    (htype : byteOf m optPtr = rxCheckV4OptType) (hroom : rxCheckLen ≤ optLen)
    (hshort : optLen < 2 * rxCheckLen)
    (h : checkOptions o maxThreads m ip c optPtr optLen = .ok d) : d.rxp = some optPtr := by
  have hlen : rxCheckLen = 24 := rfl
  rw [checkOptions, if_neg (by omega)] at h
  obtain ⟨type, hread, h⟩ := bind_eq_ok h
  obtain ⟨-, rfl⟩ := readByte_eq_ok hread
  have hgo : ¬ ((!o.rxCheckMode) = true ∨ optLen < rxCheckLen) := by
    rw [ho]
    simp only [Bool.not_true, Bool.false_eq_true, false_or]
    omega
  rw [if_pos htype, if_neg hgo] at h
  exact checkOptions_rxp (by omega) h

end Walk

/-! ## 3. The receiver -/

section Receiver

variable {o : LatencyOptions} {mode : CLatencyPktMode} {maxThreads : UInt8} {frame : List UInt8}
    {p : CCPortLatency}

/-- **An IPv4 frame with the header as its first option.** -/
theorem checkPacket_ipv4 (ho : o.rxCheckMode = true) (hlen : 60 ≤ frame.length)
    (hether : getField16 (memOf frame) 12 = 0x0800)
    (hproto : memOf frame 23 = 6 ∨ memOf frame 23 = 17)
    (hheader : 20 + rxCheckLen ≤ Net.getHeaderLength (memOf frame) 14)
    (hl4 : 14 + Net.getHeaderLength (memOf frame) 14 + 20 ≤ frame.length)
    (htype : memOf frame 34 = rxCheckV4OptType) :
    ∃ c, checkPacket o mode maxThreads frame p = .ok c ∧ c.rxp = some 34 := by
  have hrx : rxCheckLen = 24 := rfl
  have hat : ipv4At frame = some 14 := by
    rw [ipv4At, be_field (by omega), hether]
    rfl
  obtain ⟨hhi, hlo, hparse⟩ := parse_ipv4 hlen hat
  have hproto' : (ipv4Parser frame 14).protocol ≠ 0 := by
    show memOf frame 23 ≠ 0
    rcases hproto with h | h <;> rw [h] <;> decide
  obtain ⟨size, hsize⟩ := getPktSize_ipv4 hlen ⟨hlo, hhi⟩
  rw [← ipLen_eq] at hl4 hheader
  -- it is UDP or TCP
  have hother : ¬ LatencyAt mode frame 14 := by
    rintro ⟨hmode, -⟩
    have hmode' : memOf frame 23 = mode.getProtocol := hmode
    cases mode with
    | icmp _ => rcases hproto with h | h <;> rw [h] at hmode' <;> cases hmode'
    | sctp _ => rcases hproto with h | h <;> rw [h] at hmode' <;> cases hmode'
  have hlatency : isLatencyPkt mode frame (ipv4Parser frame 14) = .ok false :=
    (isLatencyPkt_ipv4 hlen ⟨hlo, hhi⟩).mpr ⟨hl4, iff_of_false Bool.false_ne_true hother⟩
  obtain ⟨c, hc, -⟩ : ∃ c, checkOther o maxThreads frame (ipv4Parser frame 14) p = .ok c ∧
      HandsInside frame c :=
    (checkOther_ipv4 hlen ⟨hlo, hhi⟩ hl4).mpr fun hshort => absurd hshort (by omega)
  refine ⟨c, ?_, ?_⟩
  · unfold checkPacket
    rw [hparse, ok_bind, if_neg hproto']
    dsimp only
    rw [hsize, ok_bind, hlatency, ok_bind]
    exact hc
  · have hwalk : checkOptions o maxThreads frame 14 ⟨p, true, none, []⟩ 34
        ((getHeaderLength (byteOf frame 14) + 256 - 20) % 256) = .ok c := by
      rw [← hc]
      unfold checkOther ipv4Parser header
      dsimp only
      rw [ok_bind, readByte_eq (by omega), ok_bind]
    have hle : getHeaderLength (byteOf frame 14) ≤ 60 := getHeaderLength_le _
    have hge : 44 ≤ getHeaderLength (byteOf frame 14) := hheader
    exact checkOptions_found ho htype (by omega) (by omega) hwalk

/-- **An IPv6 frame with the header behind its base header.** -/
theorem checkPacket_ipv6 (ho : o.rxCheckMode = true) (hlen : 74 ≤ frame.length)
    (hether : getField16 (memOf frame) 12 = 0x86DD) (hnext : memOf frame 20 = rxCheckV6OptType) :
    ∃ c, checkPacket o mode maxThreads frame p = .ok c ∧ c.rxp = some 54 := by
  have hat : ipv6At frame = some 14 := by
    rw [ipv6At, be_field (by omega), hether]
    rfl
  obtain ⟨hhi, hlo, hparse⟩ := parse_ipv6 (by omega) hat
  have hproto : (ipv6Parser frame 14).protocol = rxCheckV6OptType := hnext
  have hproto' : (ipv6Parser frame 14).protocol ≠ 0 := by
    rw [hproto]
    decide
  obtain ⟨size, hsize⟩ := getPktSize_ipv6 (by omega : 60 ≤ frame.length) ⟨hlo, hhi⟩
  have hlatency : isLatencyPkt mode frame (ipv6Parser frame 14) = .ok false :=
    isLatencyPkt_ipv6.mpr ⟨hlen, rfl⟩
  refine ⟨⟨{ p with rxCheck := p.rxCheck + 1 }, true, some 54, []⟩, ?_, rfl⟩
  unfold checkPacket
  rw [hparse, ok_bind, if_neg hproto']
  dsimp only
  rw [hsize, ok_bind, hlatency, ok_bind]
  simp only [Bool.not_false, ↓reduceIte, checkOther, hproto, ho, and_self]
  rfl

end Receiver

/-! ## 4. The round trip -/

/-- **A packet that the header can be sent in**: the ether type says which IP header there is, an
IPv4 packet is UDP or TCP with 20 bytes behind its header. -/
structure Sendable (ind : CPacketIndication) (m : MbufChain) : Prop where
  insertable : Insertable ind m
  ether : getField16 (memOf m.frame) 12 = if ind.isIpv6 then 0x86DD else 0x0800
  ipv4 : ind.isIpv6 = false → (memOf m.frame 23 = 6 ∨ memOf m.frame 23 = 17) ∧
    14 + Net.getHeaderLength (memOf m.frame) 14 + 20 ≤ m.frame.length
  min : 60 ≤ m.frame.length

/-- Every packet that is made from a template. -/
theorem generated_sendable {o : ParserOption} {b : PktBytes} (hb : TemplatePkt b) {node : FlowNode}
    {m : MbufChain} (hm : Generated o b node m) : Sendable b.ind m := by
  have hkept := hb.frontKept hm
  have hframed := hb.framed_frame hm
  refine ⟨generated_insertable hb hm, hframed.ether, fun hv => ⟨(hframed.ipv4 hv).2.2.2.2, ?_⟩, ?_⟩
  · have hheader := (hb.header hv).2
    rw [getHeaderLength_congr (hkept.front 14 (by decide) (Or.inl (by decide))), hkept.length]
    omega
  · rw [hkept.length]
    exact hb.min

/-- **The receiver finds the header** in a frame that carries it. -/
theorem Sendable.received {ind : CPacketIndication} {m : MbufChain} (hm : Sendable ind m)
    {rxh : CRxCheckHeader} (htype : ind.isIpv6 = false → rxh.optionType = rxCheckV4OptType)
    {frame : List UInt8} (hframe : CarriesRxCheck ind ind.rxCheckField rxh m.frame frame)
    {o : LatencyOptions} (ho : o.rxCheckMode = true) (mode : CLatencyPktMode) (maxThreads : UInt8)
    (p : CCPortLatency) :
    ∃ c, checkPacket o mode maxThreads frame p = .ok c ∧ c.rxp = some ind.optionOffset := by
  have hlength := hframe.length
  have hrx : rxCheckLen = 24 := rfl
  have hip := hm.insertable.ip
  have hmin := hm.min
  have hoff := hm.insertable.optionOffset_eq
  have hether : getField16 (memOf frame) 12 = getField16 (memOf m.frame) 12 := by
    refine getField16_congr fun x hx hx' => hframe.before x (by rw [hoff]; split <;> omega) ?_
    simp only [CPacketIndication.rxCheckField, CPacketIndication.optionField,
      CPacketIndication.ttlOffset, hip]
    split
    · simp only [Bool.or_eq_false_iff, beq_eq_false_iff_ne]
      omega
    · simp only [Bool.or_eq_false_iff, beq_eq_false_iff_ne]
      omega
  rw [hm.ether] at hether
  cases hv : ind.isIpv6 with
  | true =>
    rw [hv, if_pos rfl] at hether hoff
    rw [hoff]
    have hin := hm.insertable.ipv6 hv
    have hdata := dataLen_le m
    exact checkPacket_ipv6 ho (by omega) hether (hframe.announces.ipv6 hv).2
  | false =>
    rw [hv, if_neg Bool.false_ne_true] at hether hoff
    rw [hoff]
    obtain ⟨hproto, hl4⟩ := hm.ipv4 hv
    obtain ⟨hheader, -, -⟩ := hframe.announces.ipv4 hv
    have hbase := (hm.insertable.wellFormed.ipv4 hv).2.1
    have h23 : memOf frame 23 = memOf m.frame 23 := by
      refine hframe.before 23 (by omega) ?_
      simp only [CPacketIndication.rxCheckField, CPacketIndication.optionField,
        CPacketIndication.ttlOffset, hv, hip]
      decide
    have h34 : memOf frame 34 = rxCheckV4OptType := by
      have hdrop := memOf_drop frame 34 0
      rw [← hoff, hframe.header, memOf_append_left (by rw [CRxCheckHeader.length_bytes]; decide),
        hoff] at hdrop
      rw [← hdrop]
      exact rxh.first_bytes.trans (htype hv)
    rw [← h23] at hproto
    exact checkPacket_ipv4 ho (by omega) hether hproto (by omega) (by omega) h34

/-- **The RX-check header comes back**: every packet that is made from a template is one that it can
be sent in, and it can be written into every such packet; the packet that is made is the one before
with the header in it, and `check_packet` hands over the header that was written. -/
theorem rxCheck_roundTrip (abi : Abi) :
    (∀ po i desc pkt b, loadPacket abi po i desc pkt = some b → ∀ node m, Generated po b node m →
      Sendable b.ind m) ∧ ∀ ind m, Sendable ind m → ∀ (node : RxCheckNode) (mp2 : Mem), ∃ m' rxh,
        doGenerateNewMbufRxcheck abi ind node mp2 m = some m' ∧
        rxh = node.header (if ind.isIpv6 then some (memOf m.frame 20) else none) ∧
        CarriesRxCheck ind ind.rxCheckField rxh m.frame m'.frame ∧
          memOf m'.frame ind.ttlOffset = 255 ∧
        m'.pktLen = (m.pktLen + rxCheckLen) % 2 ^ 32 ∧ m'.nbSegs = (m.nbSegs + 1) % 2 ^ 8 ∧
        ∀ (o : LatencyOptions) (mode : CLatencyPktMode) (maxThreads : UInt8) (p : CCPortLatency),
          o.rxCheckMode = true → ∃ c a, checkPacket o mode maxThreads m'.frame p = .ok c ∧
            c.rxp = some a ∧ CRxCheckHeader.ofBytes (m'.frame.drop a) = some rxh := by
  refine ⟨fun po i desc pkt b hload node m hm =>
    generated_sendable (loadPacket_templatePkt hload) hm, fun ind m hm node mp2 => ?_⟩
  obtain ⟨m', hmake, hcarries, httl, hpktLen, hsegs, -⟩ :=
    insertRxCheck_carries hm.insertable abi node mp2 rfl
  refine ⟨m', _, hmake, rfl, hcarries, httl, hpktLen, hsegs, fun o mode maxThreads p ho => ?_⟩
  have htype : ind.isIpv6 = false →
      (node.header (if ind.isIpv6 then some (memOf m.frame 20) else none)).optionType =
      rxCheckV4OptType := by
    intro hv
    rw [hv, if_neg Bool.false_ne_true]
    exact node.optionType_header
  obtain ⟨c, hc, hrxp⟩ := hm.received htype hcarries ho mode maxThreads p
  refine ⟨c, _, hc, hrxp, ?_⟩
  rw [hcarries.header]
  exact CRxCheckHeader.ofBytes_bytes _ _

/-- The node of the first packet of a flow. -/
def exampleRxNode (lp : CFlowPktInfo) : RxCheckNode :=
  { flow := ⟨1, 7⟩, lp, singlePort := false, constTs := false, tick := 0x01020304 }

/-- A packet in learn mode: the header is in front of the NAT option, and is received. -/
theorem rxCheck_roundTrip_learn : ∃ lp b,
    loadPacket ⟨16, 64⟩ (exampleOption false true) 0 lp.desc examplePkt = some b ∧
    b.isLearn = true ∧ ∃ m' rxh,
      doGenerateNewMbufRxcheck ⟨16, 64⟩ b.ind (exampleRxNode lp) (fun _ => 0)
        (generateNewMbuf (exampleOption false true) b exampleNode (List.replicate 12 0) (fun _ =>
          0)) = some m' ∧
      ∃ c a, checkPacket ⟨2, true, true⟩ (.icmp 2) 4 m'.frame (CCPortLatency.create 0 62) = .ok c ∧
        c.rxp = some a ∧ CRxCheckHeader.ofBytes (m'.frame.drop a) = some rxh := by
  obtain ⟨info, lp, b, -, -, hpkt, hlearn⟩ :=
    exampleTest_loaded (exampleOption false true) PktBytes.isLearn (by decide +kernel)
  have hsendable := (rxCheck_roundTrip ⟨16, 64⟩).1 _ _ _ _ b hpkt exampleNode _
    (.small (List.replicate 12 0) (fun _ => 0) rfl)
  obtain ⟨m', rxh, hmake, -, -, -, -, -, hreceived⟩ :=
    (rxCheck_roundTrip ⟨16, 64⟩).2 b.ind _ hsendable (exampleRxNode lp) (fun _ => 0)
  exact ⟨lp, b, hpkt, hlearn, m', rxh, hmake,
    hreceived ⟨2, true, true⟩ (.icmp 2) 4 (CCPortLatency.create 0 62) rfl⟩

end Trex.Lat.Receive
