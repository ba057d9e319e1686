/-
# The flow key and the direction of a packet

`SetKey` makes the key of a packet from its two ends, the end with the smaller address first, and
says in a flag of the descriptor whether the source is that end.  `load_cap_file` finds the flow of
a packet by the key and its side by comparing the flag with the one of the first packet.

Only the addresses are compared.  Where they are equal the source comes first whatever the ports
are, so the two directions get two keys and one flag (`flowKey_symmetric_iff`).  A capture with such
packets is refused as two flows, so in a capture of one flow the sides are right in any case.
-/
import Trex.Flow.Parse

namespace Trex.Flow

open Trex.Lib Trex.Net List

/-! ## 1. Two ends -/

/-- The address that `SetKey` reads of the source, 32 bits also of an IPv6 address, and its port. -/
def CPacketIndication.source (ind : CPacketIndication) : Nat × Nat :=
  (getSourceIp ind.packet.raw ind.isIpv6 ind.ipOffset, getField16 ind.packet.raw ind.udpTcpOffset)

/-- The address that `SetKey` reads of the destination, and its port. -/
def CPacketIndication.dest (ind : CPacketIndication) : Nat × Nat :=
  (getDestIp ind.packet.raw ind.isIpv6 ind.ipOffset,
    getField16 ind.packet.raw (ind.udpTcpOffset + 2))

/-- `SetKey`, from the two ends. -/
def keyOf (source dest : Nat × Nat) (ipProto : UInt8) : CFlowKey × Bool :=
  if source.1 > dest.1 then
    ({ ipaddr1 := dest.1, ipaddr2 := source.1, port1 := dest.2, port2 := source.2, ipProto }, false)
  else ({ ipaddr1 := source.1, ipaddr2 := dest.1, port1 := source.2, port2 := dest.2, ipProto },
    true)

/-- The two directions: the key is kept and the flag is not, exactly when the addresses differ. -/
theorem keyOf_exchange_iff (a b : Nat × Nat) (ipProto : UInt8) :
    ((keyOf b a ipProto).1 = (keyOf a b ipProto).1 ∧
      (keyOf b a ipProto).2 = !(keyOf a b ipProto).2) ↔ a.1 ≠ b.1 := by
  unfold keyOf
  rcases Nat.lt_trichotomy a.1 b.1 with hlt | heq | hgt
  · rw [if_pos hlt, if_neg (by omega)]
    simp only [Bool.not_true, and_self, true_iff]
    omega
  · rw [if_neg (by omega), if_neg (by omega)]
    simp [heq]
  · rw [if_neg (by omega), if_pos hgt]
    simp only [Bool.not_false, and_self, true_iff]
    omega

/-- Packets of one key have one source exactly when they have one flag. -/
theorem keyOf_flag_iff {a b a' b' : Nat × Nat} {ipProto ipProto' : UInt8}
    (h : (keyOf a b ipProto).1 = (keyOf a' b' ipProto').1) :
    (keyOf a b ipProto).2 = (keyOf a' b' ipProto').2 ↔ a = a' := by
  unfold keyOf at h ⊢
  split_ifs at h ⊢ with h1 h2 h2
  · simp only [CFlowKey.mk.injEq] at h
    simp [Prod.ext_iff, h.2.1, h.2.2.2.1]
  · simp only [CFlowKey.mk.injEq] at h
    simp only [false_iff]
    rintro rfl
    omega
  · simp only [CFlowKey.mk.injEq] at h
    simp only [false_iff]
    rintro rfl
    omega
  · simp only [CFlowKey.mk.injEq] at h
    simp [Prod.ext_iff, h.1, h.2.2.1]

/-! ## 2. Addresses of a packet that is loaded -/

/-- The groups of the source, behind which those of the destination are written. -/
theorem read_updateMSBIpv6 (m : Mem) (ip : Nat) (src dst : Nat → UInt16) :
    (updateMSBIpv6 (updateMSBIpv6 m (ip + 8) src) (ip + 24) dst).read (ip + 8) 12 =
        msbBytes src 6 := by
  have hlen : (msbBytes src 6).length = 12 := length_msbBytes src 6
  rw [updateMSBIpv6_eq, updateMSBIpv6_eq]
  calc (((m.putBytes (ip + 8) (msbBytes src 6)).putBytes (ip + 24)
        (msbBytes dst 6)).read (ip + 8) 12)
      = (m.putBytes (ip + 8) (msbBytes src 6)).read (ip + 8) 12 :=
        Mem.read_congr fun x _ hx => Mem.putBytes_of_lt _ _ (by omega)
    _ = (m.putBytes (ip + 8) (msbBytes src 6)).read (ip + 8) (msbBytes src 6).length := by rw [hlen]
    _ = msbBytes src 6 := Mem.read_putBytes _ _ _

/-- The source address of a packet of a template, 4 or 16 bytes.  It is read behind
`updateMSBIpv6Src`: of an IPv6 packet of the file only the low 32 bits are left, and two ends of the
file that differ above them alone are one sender here. -/
def CPacketIndication.sourceAddr (ind : CPacketIndication) : List UInt8 :=
  if ind.isIpv6 then ind.packet.raw.read (ind.ipOffset + 8) 16
    else ind.packet.raw.read (ind.ipOffset + 12) 4

/-- What `SetKey` and `updateMSBIpv6Src` make of a packet. -/
structure Keyed (o : ParserOption) (ind : CPacketIndication) : Prop where
  ipv6 : ind.isIpv6 = o.ipv6Enable
  key : ind.flowKey = (setKey ind.packet.raw ind.isIpv6 ind.ipOffset ind.udpTcpOffset).1
  flag : ind.isSwapTuple = (setKey ind.packet.raw ind.isIpv6 ind.ipOffset ind.udpTcpOffset).2
  msb : ind.isIpv6 = true → ind.packet.raw.read (ind.ipOffset + 8) 12 = msbBytes o.srcIpv6 6

theorem setKey_eq (ind : CPacketIndication) :
    setKey ind.packet.raw ind.isIpv6 ind.ipOffset ind.udpTcpOffset =
      keyOf ind.source ind.dest (getIpProto ind.packet.raw ind.isIpv6 ind.ipOffset) := rfl

variable {o : ParserOption} {pkt : CCapPktRaw} {ind : CPacketIndication}

theorem processIpPacket_keyed (ho : o.ipv6Enable = false) {offset : Nat}
    (h : processIpPacket pkt offset = some ind) : Keyed o ind := by
  obtain ⟨proto, payload, -, rfl⟩ := processIpPacket_eq_some.mp h
  exact ⟨ho.symm, by dsimp only [ipv4Indication], by dsimp only [ipv4Indication],
    fun h => by cases h⟩

theorem processIpv6Packet_keyed (ho : o.ipv6Enable = true) {offset : Nat}
    (h : processIpv6Packet o pkt offset = some ind) : Keyed o ind := by
  obtain ⟨proto, payload, -, rfl⟩ := processIpv6Packet_eq_some.mp h
  exact ⟨ho.symm, by dsimp only [ipv6Indication], by dsimp only [ipv6Indication], fun _ =>
    read_updateMSBIpv6 _ _ _ _⟩

theorem processPacket_keyed (h : processPacket o pkt = some ind) : Keyed o ind := by
  unfold processPacket at h
  split at h
  · cases h
  · split at h
    · rename_i ho
      exact processIpv6Packet_keyed ho h
    · cases h
  · split at h
    · cases h
    split at h
    · rename_i ho
      obtain ⟨pkt', -, h⟩ := Option.bind_eq_some_iff.mp h
      exact processIpv6Packet_keyed ho h
    · rename_i ho
      exact processIpPacket_keyed (Bool.eq_false_iff.mpr ho) h

variable {ind' : CPacketIndication}

/-- Two packets of a template have one source address exactly when `SetKey` reads the same of it:
the rest of an IPv6 address is an option of the program. -/
theorem sourceAddr_eq_iff (h : Keyed o ind) (h' : Keyed o ind') :
    ind.sourceAddr = ind'.sourceAddr ↔ ind.source.1 = ind'.source.1 := by
  have hv6 : ind.isIpv6 = ind'.isIpv6 := h.ipv6.trans h'.ipv6.symm
  unfold CPacketIndication.sourceAddr CPacketIndication.source getSourceIp
  cases hc : ind.isIpv6 with
  | false =>
    rw [← hv6, hc]
    exact getField32_eq_iff.symm
  | true =>
    have hc' : ind'.isIpv6 = true := hv6.symm.trans hc
    rw [hc']
    simp only [if_true]
    rw [getField32_eq_iff, Mem.read_append _ _ 12 4, Mem.read_append _ _ 12 4, h.msb hc, h'.msb hc',
      append_cancel_left_eq]

/-! ## 3. A capture of one flow -/

section Load

variable {κ : Type} [DecidableEq κ] {multiFlow : Bool} {id : UInt16}

theorem totalFlows_loadStep (st : Loading κ) (raw : RawPacket κ) :
    st.totalFlows ≤ (loadStep multiFlow id st raw).totalFlows := by
  unfold loadStep
  cases st.flow raw.flowKey with
  | none =>
    dsimp only
    split
    · omega
    · split
      · exact Nat.le_succ _
      · exact le_rfl
  | some lpflow =>
    dsimp only
    split
    · exact le_rfl
    · split
      · exact le_rfl
      · exact le_rfl

/-- **All packets are of the flow of the first one**, and their sides are what their flags say. -/
structure OneFlow (first : RawPacket κ) (raws : List (RawPacket κ)) (st : Loading κ) : Prop where
  key : ∀ raw ∈ raws, raw.flowKey = first.flowKey
  sides : st.pkts.map (fun p => p.desc.isInitSide) = raws.map fun raw =>
    raw.isSwapTuple == first.isSwapTuple
  flow : ∃ f, st.flow first.flowKey = some f ∧ f.isFifSwap = first.isSwapTuple
  other : ∀ k, k ≠ first.flowKey → st.flow k = none
  firstFlow : st.firstFlow = some first.flowKey
  firstSwap : st.firstFlowFifIsSwap = first.isSwapTuple
  total : st.totalFlows = 1

theorem OneFlow.init (first : RawPacket κ) :
    OneFlow first [first] (loadStep multiFlow id {} first) := by
  simp only [loadStep, ↓reduceIte]
  refine ⟨?_, ?_, ?_, ?_, rfl, rfl, rfl⟩
  · intro raw hraw
    rw [mem_singleton.mp hraw]
  · simp [Loading.append, Loading.setFlow]
  · exact ⟨_, Function.update_self _ _ _, rfl⟩
  · intro k hk
    simp [Loading.append, Loading.setFlow, Function.update_of_ne hk]

theorem OneFlow.step {first raw : RawPacket κ} {raws : List (RawPacket κ)} {st : Loading κ}
    (h : OneFlow first raws st) (herr : (loadStep multiFlow id st raw).totalErrors = 0)
    (htotal : (loadStep multiFlow id st raw).totalFlows ≤ 1) :
    OneFlow first (raws ++ [raw]) (loadStep multiFlow id st raw) := by
  obtain ⟨hkey, hsides, ⟨f, hf, hswap⟩, hother, hfirst, hfswap, hone⟩ := h
  by_cases hraw : raw.flowKey = first.flowKey
  · -- the packet is appended, with the flow table of the one flow
    have happend : ∀ side, side = (raw.isSwapTuple == first.isSwapTuple) →
        OneFlow first (raws ++ [raw]) ((st.setFlow raw.flowKey f).append id raw f side) := by
      rintro side rfl
      refine ⟨?_, ?_, ?_, ?_, hfirst, hfswap, hone⟩
      · intro r hr
        rcases mem_append.mp hr with hr | hr
        · exact hkey r hr
        · rw [mem_singleton.mp hr]
          exact hraw
      · simp only [Loading.append, Loading.setFlow, map_append, hsides]
        rfl
      · refine ⟨{ f with pktId := f.pktId + 1 }, ?_, hswap⟩
        simp [Loading.append, Loading.setFlow, hraw]
      · intro k hk
        simp only [Loading.append, Loading.setFlow]
        rw [Function.update_of_ne (by rw [hraw]; exact hk)]
        exact hother k hk
    have hsome : st.flow raw.flowKey = some f := by rw [hraw]; exact hf
    simp only [loadStep, hsome] at herr ⊢
    split
    · exact happend _ (by simp only [Loading.setFlow]; rw [hfswap]; exact Bool.beq_comm)
    · rw [if_pos (by simp only [Loading.setFlow]; rw [hfirst, hraw])]
      exact happend _ (by rw [hswap]; exact Bool.beq_comm)
  · -- another flow is a second flow or an error
    exfalso
    have hnone : st.flow raw.flowKey = none := hother _ hraw
    simp only [loadStep, hnone] at herr htotal
    rw [if_neg (by omega)] at herr htotal
    split at herr
    · rename_i hm
      rw [if_pos hm] at htotal
      dsimp only at htotal
      omega
    · dsimp only at herr
      omega

theorem OneFlow.run (first : RawPacket κ) (rest : List (RawPacket κ))
    (herr : ((first :: rest).foldl (loadStep multiFlow id) {}).totalErrors = 0)
    (htotal : ((first :: rest).foldl (loadStep multiFlow id) {}).totalFlows ≤ 1) :
    OneFlow first (first :: rest) ((first :: rest).foldl (loadStep multiFlow id) {}) := by
  induction rest using List.reverseRecOn with
  | nil => exact @OneFlow.init κ _ multiFlow id first
  | append_singleton rest raw ih =>
    rw [← cons_append, foldl_append, foldl_cons, foldl_nil] at herr htotal ⊢
    have herr' := Nat.le_zero.mp (totalErrors_loadStep.trans (le_of_eq herr))
    exact (ih herr' ((totalFlows_loadStep _ _).trans htotal)).step herr htotal

/-- **The sides of a capture of one flow.** -/
theorem loadCapFile_sides {first : RawPacket κ} {rest : List (RawPacket κ)}
    {info : CCapFileFlowInfo} (h : loadCapFile multiFlow id (first :: rest) = .ok info)
    (hone : info.totalFlows = 1) :
    (∀ raw ∈ first :: rest, raw.flowKey = first.flowKey) ∧
      info.pkts.map (fun p => p.desc.isInitSide) =
        (first :: rest).map fun raw => raw.isSwapTuple == first.isSwapTuple := by
  simp only [loadCapFile] at h
  split at h
  · cases h
  split at h
  · cases h
  split at h
  · cases h
  rename_i herr
  cases h
  have hrun := OneFlow.run first rest (by omega) (le_of_eq hone)
  refine ⟨hrun.key, ?_⟩
  rw [← hrun.sides]
  exact setGaps_map _ (fun _ _ _ => rfl) _

end Load

/-! ## 4. The two directions -/

/-- Two packets with their ends exchanged. -/
structure Exchanged (ind ind' : CPacketIndication) : Prop where
  source : ind'.source = ind.dest
  dest : ind'.dest = ind.source
  proto : getIpProto ind'.packet.raw ind'.isIpv6 ind'.ipOffset =
    getIpProto ind.packet.raw ind.isIpv6 ind.ipOffset

/-- The end that sends a packet: its address, of 4 or 16 bytes, and its port. -/
def CPacketIndication.sender (ind : CPacketIndication) :
    List UInt8 × Nat := (ind.sourceAddr, ind.source.2)

theorem Keyed.exchange_iff (h : Keyed o ind) (h' : Keyed o ind') (hex : Exchanged ind ind') :
    (ind'.flowKey = ind.flowKey ∧ ind'.isSwapTuple = !ind.isSwapTuple) ↔
        ind.source.1 ≠ ind.dest.1 := by
  rw [h.key, h.flag, h'.key, h'.flag, setKey_eq, setKey_eq, hex.source, hex.dest, hex.proto]
  exact keyOf_exchange_iff _ _ _

/-- Packets of one flow have one sender exactly when they have one flag. -/
theorem Keyed.flag_iff (h : Keyed o ind) (h' : Keyed o ind') (hkey : ind.flowKey = ind'.flowKey) :
    ind.isSwapTuple = ind'.isSwapTuple ↔ ind.sender = ind'.sender := by
  rw [h.key, h'.key, setKey_eq, setKey_eq] at hkey
  rw [h.flag, h'.flag, setKey_eq, setKey_eq, keyOf_flag_iff hkey, Prod.ext_iff,
    ← sourceAddr_eq_iff h h']
  exact Prod.mk.injEq _ _ _ _ ▸ Iff.rfl

/-- The packets of a capture, as the parser sees them.  A packet that is not valid ends the
program. -/
def parseCapture (o : ParserOption) (pkts : List (CCapPktRaw × Rat)) :
    Option (List (CPacketIndication × Rat)) :=
  pkts.mapM fun pkt => (processPacket o pkt.1).map fun ind => (ind, pkt.2)

/-- What `load_cap_file` reads of a packet. -/
def rawPacketOf (p : CPacketIndication × Rat) : RawPacket CFlowKey where
  flowKey := p.1.flowKey
  isSwapTuple := p.1.isSwapTuple
  time := p.2

theorem parseCapture_keyed {pkts : List (CCapPktRaw × Rat)} {ps : List (CPacketIndication × Rat)}
    (h : parseCapture o pkts = some ps) : ∀ p ∈ ps, Keyed o p.1 := by
  induction pkts generalizing ps with
  | nil =>
    cases h
    intro p hp
    cases hp
  | cons pkt pkts ih =>
    rw [parseCapture, mapM_cons] at h
    obtain ⟨q, hq, h⟩ := Option.bind_eq_some_iff.mp h
    obtain ⟨qs, hqs, h⟩ := Option.bind_eq_some_iff.mp h
    cases h
    obtain ⟨ind, hind, rfl⟩ := Option.map_eq_some_iff.mp hq
    intro p hp
    rcases mem_cons.mp hp with rfl | hp
    · exact processPacket_keyed hind
    · exact ih hqs p hp

/-- **The key and the direction.**  A packet and the one with the ends exchanged get the same key
and opposite flags exactly when the two addresses differ.  In a capture of one flow that is
accepted, a packet is of the initiator's side exactly when it has the sender of the first packet. -/
theorem flowKey_symmetric_iff (o : ParserOption) :
    (∀ pkt pkt' ind ind', processPacket o pkt = some ind → processPacket o pkt' = some ind' →
      Exchanged ind ind' →
      ((ind'.flowKey = ind.flowKey ∧ ind'.isSwapTuple = !ind.isSwapTuple) ↔
        ind.source.1 ≠ ind.dest.1)) ∧
    (∀ multiFlow id pkts ps info, parseCapture o pkts = some ps →
      loadCapFile multiFlow id (ps.map rawPacketOf) = .ok info → info.totalFlows = 1 →
      ∀ first ∈ ps.head?, ∀ (i : Nat) (lp : CFlowPktInfo) (p : CPacketIndication × Rat),
        info.pkts[i]? = some lp → ps[i]? = some p →
          (lp.desc.isInitSide = true ↔ p.1.sender = first.1.sender)) := by
  constructor
  · intro pkt pkt' ind ind' h h' hex
    exact (processPacket_keyed h).exchange_iff (processPacket_keyed h') hex
  · intro multiFlow id pkts ps info hparse hload hone first hfirst i lp p hlp hp
    obtain ⟨rest, rfl⟩ : ∃ rest, ps = first :: rest := List.head?_eq_some_iff.mp hfirst
    have hkeyed := parseCapture_keyed hparse
    obtain ⟨hkey, hsides⟩ := loadCapFile_sides hload hone
    have hmem : p ∈ first :: rest := mem_of_getElem? hp
    have hside : lp.desc.isInitSide = (p.1.isSwapTuple == first.1.isSwapTuple) := by
      have hi := congrArg (·[i]?) hsides
      rw [List.getElem?_map, hlp, ← map_cons, map_map, List.getElem?_map, hp] at hi
      exact Option.some.inj hi
    have hsame : p.1.flowKey = first.1.flowKey := hkey (rawPacketOf p) (mem_map_of_mem hmem)
    rw [hside, beq_iff_eq]
    exact (hkeyed p hmem).flag_iff (hkeyed first (mem_cons_self)) hsame

/-- **A flow from an address to itself**: the answer gets another key. -/
theorem flowKey_loopback : ∃ ind ind',
    processPacket (exampleParser false) (exampleSegment (1, 5) (1, 80)) = some ind ∧
    processPacket (exampleParser false) (exampleSegment (1, 80) (1, 5)) = some ind' ∧
    Exchanged ind ind' ∧ ¬ (ind'.flowKey = ind.flowKey ∧ ind'.isSwapTuple = !ind.isSwapTuple) := by
  have h : (processPacket (exampleParser false) (exampleSegment (1, 5) (1, 80))).any (fun ind =>
      (processPacket (exampleParser false) (exampleSegment (1, 80) (1, 5))).any fun ind' =>
        decide (ind'.source = ind.dest ∧ ind'.dest = ind.source ∧
          getIpProto ind'.packet.raw ind'.isIpv6 ind'.ipOffset =
            getIpProto ind.packet.raw ind.isIpv6 ind.ipOffset ∧
          ind'.flowKey.port1 ≠ ind.flowKey.port1)) = true := by decide +kernel
  obtain ⟨ind, hind, h⟩ := (Option.any_eq_true _ _).mp h
  obtain ⟨ind', hind', h⟩ := (Option.any_eq_true _ _).mp h
  obtain ⟨hsource, hdest, hproto, hne⟩ := of_decide_eq_true h
  refine ⟨ind, ind', hind, hind', ⟨hsource, hdest, hproto⟩, ?_⟩
  rintro ⟨hkey, -⟩
  exact hne (congrArg CFlowKey.port1 hkey)

/-- A request and its answer are a capture of one flow. -/
theorem flowKey_symmetric_answer : ∃ ps info,
    parseCapture (exampleParser false) [(exampleSegment (1, 5) (2, 80), 0),
      (exampleSegment (2, 80) (1, 5), 1)] = some ps ∧
    loadCapFile false 0 (ps.map rawPacketOf) = .ok info ∧ info.totalFlows = 1 ∧
    ∀ first ∈ ps.head?, ∀ (i : Nat) (lp : CFlowPktInfo) (p : CPacketIndication × Rat),
      info.pkts[i]? = some lp → ps[i]? = some p →
          (lp.desc.isInitSide = true ↔ p.1.sender = first.1.sender) := by
  -- the fields of the keys first: the loader compares keys
  let fields (p : CPacketIndication × Rat) : (Nat × Nat × Nat × Nat × UInt8) × Bool × Rat :=
    ((p.1.flowKey.ipaddr1, p.1.flowKey.ipaddr2, p.1.flowKey.port1, p.1.flowKey.port2,
      p.1.flowKey.ipProto), p.1.isSwapTuple, p.2)
  let build (f : (Nat × Nat × Nat × Nat × UInt8) × Bool × Rat) : RawPacket CFlowKey :=
    ⟨⟨f.1.1, f.1.2.1, f.1.2.2.1, f.1.2.2.2.1, f.1.2.2.2.2⟩, f.2.1, f.2.2⟩
  have h : (parseCapture (exampleParser false)
      [(exampleSegment (1, 5) (2, 80), 0), (exampleSegment (2, 80) (1, 5), 1)]).any (fun ps =>
        decide (ps.map fields = [((0x7F000001, 0x7F000002, 1029, 1104, 6), true, 0),
          ((0x7F000001, 0x7F000002, 1029, 1104, 6), false, 1)])) = true := by decide +kernel
  obtain ⟨ps, hps, h⟩ := (Option.any_eq_true _ _).mp h
  have hraws : ps.map rawPacketOf = [⟨⟨0x7F000001, 0x7F000002, 1029, 1104, 6⟩, true, 0⟩,
      ⟨⟨0x7F000001, 0x7F000002, 1029, 1104, 6⟩, false, 1⟩] :=
    calc ps.map rawPacketOf = (ps.map fields).map build := by rw [map_map]; rfl
      _ = _ := by rw [of_decide_eq_true h]; rfl
  have hload : ∃ info, loadCapFile false 0 (ps.map rawPacketOf) = .ok info ∧
      info.totalFlows = 1 := by
    rw [hraws]
    exact ⟨_, rfl, rfl⟩
  obtain ⟨info, hload, hone⟩ := hload
  exact ⟨ps, info, hps, hload, hone,
    (flowKey_symmetric_iff (exampleParser false)).2 false 0 _ ps info hps hload hone⟩

end Trex.Flow
