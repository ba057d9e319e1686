/-
# Order in a rewritten trace

Within each side of a flow of TCP, a number is the one before plus what was sent with it
(`Lib.Stretch`), and an acknowledgement names the end of a prefix of what the other side sends.
`CTcpSeq` moves all numbers by what was sent so far.

* The packets of a side stay in order, whatever sizes change (`Stretched.inOrder`);
* an acknowledgement moves by what the packets of the peer in front of it have grown, while the end
  of the prefix that it acknowledges moves by what this prefix has grown.  It still acknowledges the
  same prefix exactly if these are the same (`continuity_iff`): a packet that acknowledges less than
  what the peer has sent by then, and is sent behind a packet of another size, acknowledges
  something else (`continuity_lagging`).
-/
import Trex.Flow.TcpSeq
import Trex.Lib.Stretch

namespace Trex.Flow

open Trex.Lib Trex.Net Trex.Pal List

/-! ## 1. Traces -/

/-- The flags of a TCP header. -/
def getFlags (m : Mem) (l4 : Nat) : Nat := (m (l4 + 13)).toNat

/-- What a segment adds to the sequence number: its payload, and one for SYN and for FIN. -/
def seqLen (ind : CPacketIndication) : Int :=
  let flags := getFlags ind.packet.raw ind.udpTcpOffset
  ind.ipEnd - (ind.udpTcpOffset + tcpHeaderLength ind.packet.raw ind.udpTcpOffset) +
    (flags.testBit 1).toNat + (flags.testBit 0).toNat

namespace TracePkt

variable (t : TracePkt)

/-- A packet, as it is sent. -/
def sent (bytes : List UInt8) :
    TracePkt := { t with bytes.ind.packet := ⟨memOf bytes, bytes.length⟩ }

/-- The flow, and the side that sends. -/
def stream : Nat × Bool := (t.desc.flowId, t.bytes.isInitSide)

/-- The other side. -/
def peer : Nat × Bool := (t.desc.flowId, !t.bytes.isInitSide)

/-- The sequence number; a packet of UDP has none. -/
def seqNum : BitVec 32 :=
  if t.bytes.ind.proto = .tcp then getSeqNumber t.bytes.ind.packet.raw t.bytes.ind.udpTcpOffset
    else 0

def ackNum : BitVec 32 :=
  if t.bytes.ind.proto = .tcp then getAckNumber t.bytes.ind.packet.raw t.bytes.ind.udpTcpOffset
    else 0

def size : BitVec 32 := if t.bytes.ind.proto = .tcp then (seqLen t.bytes.ind : BitVec 32) else 0

/-- The packet acknowledges something. -/
def isAck : Bool :=
  t.bytes.ind.proto == .tcp && (getFlags t.bytes.ind.packet.raw t.bytes.ind.udpTcpOffset).testBit 4

end TracePkt

/-- What is sent for a packet: its size has grown, and its numbers have moved. -/
structure SentAs (t : TracePkt) (grow : Int) (move ackMove : BitVec 32) (s : TracePkt) : Prop where
  stream : s.stream = t.stream
  seqNum : s.seqNum = t.seqNum + move
  ackNum : s.ackNum = t.ackNum + ackMove
  size : s.size = t.size + (grow : BitVec 32)

variable {t : TracePkt} {grow : Int} {pkts : List TracePkt}

theorem SentAs.peer {s : TracePkt} {move ackMove : BitVec 32} (h : SentAs t grow move ackMove s) :
    s.peer = t.peer := by
  have hstream := Prod.ext_iff.mp h.stream
  exact Prod.ext hstream.1 (congrArg Bool.not hstream.2)

theorem sentAs_udp (h : t.bytes.ind.proto ≠ .tcp) (bytes : List UInt8) :
    SentAs t 0 0 0 (t.sent bytes) := by
  refine ⟨rfl, ?_, ?_, ?_⟩
  · simp [TracePkt.seqNum, TracePkt.sent, h]
  · simp [TracePkt.ackNum, TracePkt.sent, h]
  · simp [TracePkt.size, TracePkt.sent, h]

/-- The size, by what decides it. -/
theorem seqLen_eq {ind ind' : CPacketIndication} (hend : (ind'.ipEnd : Int) = ind.ipEnd + grow)
    (hl4 : ind'.udpTcpOffset = ind.udpTcpOffset)
    (hsame : ∀ x, ind.udpTcpOffset + 12 ≤ x → x < ind.udpTcpOffset + 14 →
      ind'.packet.raw x = ind.packet.raw x) :
    seqLen ind' = seqLen ind + grow := by
  unfold seqLen getFlags tcpHeaderLength
  rw [hl4, hend, hsame _ (by omega) (by omega), hsame _ (by omega) (by omega)]
  ring

/-- The size of a packet, by its length. -/
theorem TracePkt.size_sent (hproto : t.bytes.ind.proto = .tcp) {bytes : List UInt8}
    (hlen : (getIpLen t.bytes.ind (memOf bytes) : Int) =
      getIpLen t.bytes.ind t.bytes.ind.packet.raw + grow)
    (hsame : ∀ x, t.bytes.ind.udpTcpOffset + 12 ≤ x → x < t.bytes.ind.udpTcpOffset + 14 →
      memOf bytes x = t.bytes.ind.packet.raw x) :
    (t.sent bytes).size = t.size + (grow : BitVec 32) := by
  have hend : ((t.sent bytes).bytes.ind.ipEnd : Int) = t.bytes.ind.ipEnd + grow := by
    have hsent : (t.sent bytes).bytes.ind.ipEnd = t.bytes.ind.ipOffset
        + (if t.bytes.ind.isIpv6 then ipv6DefaultSize else 0) +
          getIpLen t.bytes.ind (memOf bytes) := ipEnd_eq _
    rw [hsent, ipEnd_eq]
    omega
  have hseqLen : seqLen (t.sent bytes).bytes.ind = seqLen t.bytes.ind + grow :=
    seqLen_eq hend rfl hsame
  have hproto' : (t.sent bytes).bytes.ind.proto = .tcp := hproto
  rw [TracePkt.size, TracePkt.size, if_pos hproto, if_pos hproto', hseqLen, Int.cast_add]

/-- A packet that keeps the header keeps the numbers. -/
theorem Kept.sentAs (hproto : t.bytes.ind.proto = .tcp) {bytes : List UInt8}
    (h : Kept t.bytes.ind grow bytes) : SentAs t grow 0 0 (t.sent bytes) := by
  refine ⟨rfl, ?_, ?_, TracePkt.size_sent hproto h.ipLen fun x hx hx' => h.header x (by omega) hx'⟩
  · simp only [TracePkt.seqNum, TracePkt.sent, hproto, if_true, add_zero]
    exact getSeqNumber_congr fun x hx hx' => h.header x hx (by omega)
  · simp only [TracePkt.ackNum, TracePkt.sent, hproto, if_true, add_zero]
    exact getAckNumber_congr fun x hx hx' => h.header x (by omega) (by omega)

/-- **`update` moves the numbers by the deltas of both sides.** -/
theorem fixUp_of_made (hb : Placed t.bytes) (hproto : t.bytes.ind.proto = .tcp) (seq : CTcpSeq)
    {m : GenMbuf} (h : Made t.bytes.ind grow m) :
    ∃ bytes seq', fixUp seq t m = some (bytes, seq') ∧
      SentAs t grow (seq.delta t.bytes.isInitSide) (seq.delta !t.bytes.isInitSide) (t.sent bytes) ∧
      ∀ side, seq'.delta side = seq.delta side + if t.bytes.isInitSide = side
          then (grow : BitVec 32) else 0 := by
  have hlong := h.kept.long
  have hoff := hb.ipLenOffset_le
  have hl4 := hb.le_l4
  refine ⟨_, _, if_pos h.firstSeg, ?_, fun side => ?_⟩
  · -- what is read back is what was written
    obtain ⟨r, hr⟩ : ∃ r, r =
        (seq.update t.bytes.ind.udpTcpOffset t.bytes.isInitSide m.sSize (memOf m.bytes)).1 :=
      ⟨_, rfl⟩
    have hread : ∀ x < m.bytes.length, memOf (r.read 0 m.bytes.length) x = r x :=
      fun x hx => Mem.getD_read r hx
    have houtside : ∀ x, x < t.bytes.ind.udpTcpOffset + 4 ∨ t.bytes.ind.udpTcpOffset + 12 ≤ x →
        r x = memOf m.bytes x := by
      intro x hx
      rw [hr]
      exact CTcpSeq.update_outside seq _ _ _ _ hx
    show SentAs t grow _ _ (t.sent ((seq.update t.bytes.ind.udpTcpOffset t.bytes.isInitSide m.sSize
      (memOf m.bytes)).1.read 0 m.bytes.length))
    rw [← hr]
    refine ⟨rfl, ?_, ?_, TracePkt.size_sent hproto ?_ fun x hx hx' => ?_⟩
    · simp only [TracePkt.seqNum, TracePkt.sent, hproto, if_true]
      rw [getSeqNumber_congr fun x _ hx => hread x (by omega), hr, CTcpSeq.getSeqNumber_update,
        getSeqNumber_congr fun x hx hx' => h.kept.header x hx (by omega)]
    · simp only [TracePkt.ackNum, TracePkt.sent, hproto, if_true]
      rw [getAckNumber_congr fun x _ hx => hread x (by omega), hr, CTcpSeq.getAckNumber_update,
        getAckNumber_congr fun x hx hx' => h.kept.header x (by omega) (by omega)]
    · have hsame : getIpLen t.bytes.ind (memOf (r.read 0 m.bytes.length)) =
          getIpLen t.bytes.ind (memOf m.bytes) :=
        getField16_congr fun x _ hx => (hread x (by omega)).trans (houtside x (by omega))
      rw [hsame]
      exact h.kept.ipLen
    · rw [hread x (by omega), houtside x (by omega)]
      exact h.kept.header x (by omega) hx'
  · rw [CTcpSeq.delta_update, h.sSize]
    rfl

/-! ## 2. What a flow sends -/

section Flow

variable (abi : Abi) (ntop : InetNtop) (rand : Nat →
    UInt32) (o : ParserOption) (node : FlowNode) (plugin : TcpPlugin)

/-- The packets of a template one after the other, as a flow sends them.  `mems` are what the mbufs
held before. -/
def sendFlow (mems : Nat → Mem) (pkts : List TracePkt) : Option (List TracePkt × CTcpSeq) :=
  pkts.foldlM (fun s t => (plugin.onNodeGenerateMbuf abi ntop rand o node s.2 t
      (mems s.1.length)).map fun r =>
    (s.1 ++ [t.sent r.1], r.2)) ([], {})

/-- How much longer a packet gets, as a difference of sequence numbers. -/
def TcpPlugin.growth (t : TracePkt) : BitVec 32 := (plugin.grow ntop rand o node t : BitVec 32)

/-- What the packets of a stream in a trace have grown. -/
def TcpPlugin.grown (c : Nat × Bool) (pkts : List TracePkt) : BitVec 32 :=
  total TracePkt.stream (plugin.growth ntop rand o node) c pkts

theorem onNodeGenerateMbuf_eq (seq : CTcpSeq) (t : TracePkt) (p : Mem) :
    plugin.onNodeGenerateMbuf abi ntop rand o node seq t p =
        (plugin.mbuf abi ntop rand o node t p).bind fun m =>
      if t.desc.flowId = 0 then fixUp seq t m else some (m.bytes, seq) := by
  cases plugin with
  | rtsp rtp => rfl
  | http =>
    by_cases hflow : t.desc.flowId = 0
    · simp only [hflow, if_true]
      rfl
    · have hnone : httpMbuf abi ntop rand o node t p = none := if_pos hflow
      simp [TcpPlugin.onNodeGenerateMbuf, TcpPlugin.mbuf, httpPlugin, hnone]

/-- Only the control flow has packets that grow. -/
theorem grow_of_ne (h : t.desc.flowId ≠ 0) : plugin.grow ntop rand o node t = 0 := by
  unfold TcpPlugin.grow
  split
  · rename_i cmd hprogram
    exact absurd (TcpPlugin.program?_cmd hprogram).1 h
  · rfl

theorem grown_of_ne {c : Nat × Bool} (h : c.1 ≠ 0) (pkts : List TracePkt) :
    plugin.grown ntop rand o node c pkts = 0 := by
  refine total_eq_zero_of_forall fun t _ ht => ?_
  have hflow : t.desc.flowId ≠ 0 := fun hzero => h ((congrArg Prod.fst ht).symm.trans hzero)
  rw [TcpPlugin.growth, grow_of_ne ntop rand o node plugin hflow, Int.cast_zero]

theorem grown_concat (c : Nat × Bool) (pkts : List TracePkt) (t : TracePkt) :
    plugin.grown ntop rand o node c (pkts ++ [t]) = plugin.grown ntop rand o node c pkts
      + if t.stream = c then plugin.growth ntop rand o node t else 0 :=
  total_concat _ _ _ _ _

variable {abi ntop rand o node plugin}

/-- The deltas of a flow, by what it has sent. -/
def Deltas (ntop : InetNtop) (rand : Nat → UInt32) (o : ParserOption) (node : FlowNode)
    (plugin : TcpPlugin) (pkts : List TracePkt) (seq : CTcpSeq) : Prop :=
  ∀ side, seq.delta side = plugin.grown ntop rand o node (0, side) pkts

/-- **A packet moves by what its side has sent so far**, and so does what it acknowledges by what
its peer has. -/
theorem generate_of_fits (abi : Abi) (ht : TcpPkt o t) (hfits : plugin.Fits ntop rand o node t)
    {seq : CTcpSeq} {before : List TracePkt} (hseq : Deltas ntop rand o node plugin before seq)
    (p : Mem) :
    ∃ bytes seq', plugin.onNodeGenerateMbuf abi ntop rand o node seq t p = some (bytes, seq') ∧
      SentAs t (plugin.grow ntop rand o node t) (plugin.grown ntop rand o node t.stream before)
        (plugin.grown ntop rand o node t.peer before) (t.sent bytes) ∧
      Deltas ntop rand o node plugin (before ++ [t]) seq' := by
  obtain ⟨m, hm, hmade⟩ := mbuf_of_fits abi ht hfits p
  rw [onNodeGenerateMbuf_eq, hm, Option.bind_some]
  by_cases hflow : t.desc.flowId = 0
  · have hproto := ht.control hflow
    obtain ⟨bytes, seq', hfix, hsent, hdelta⟩ := fixUp_of_made ht.placed hproto seq (hmade hproto)
    rw [if_pos hflow]
    have hstream : t.stream = (0, t.bytes.isInitSide) := Prod.ext hflow rfl
    have hpeer : t.peer = (0, !t.bytes.isInitSide) := Prod.ext hflow rfl
    refine ⟨bytes, seq', hfix, ?_, fun side => ?_⟩
    · rw [hstream, hpeer, ← hseq, ← hseq]
      exact hsent
    · rw [hdelta, hseq, grown_concat, hstream]
      congr 1
      simp only [Prod.mk.injEq, true_and]
      rfl
  · rw [if_neg hflow]
    have hgrow := grow_of_ne ntop rand o node plugin hflow
    refine ⟨m.bytes, seq, rfl, ?_, fun side => ?_⟩
    · rw [grown_of_ne ntop rand o node plugin hflow, grown_of_ne ntop rand o node plugin hflow,
        hgrow]
      by_cases hproto : t.bytes.ind.proto = .tcp
      · exact (hgrow ▸ (hmade hproto).kept).sentAs hproto
      · exact sentAs_udp hproto m.bytes
    · have hne : t.stream ≠ (0, side) := fun h => hflow (congrArg Prod.fst h)
      rw [hseq, grown_concat, if_neg hne, add_zero]

theorem fits_of_generate (ht : TcpPkt o t) {seq : CTcpSeq} {p : Mem} {r : List UInt8 × CTcpSeq}
    (h : plugin.onNodeGenerateMbuf abi ntop rand o node seq t p = some r) :
    plugin.Fits ntop rand o node t := by
  rw [onNodeGenerateMbuf_eq] at h
  obtain ⟨m, hm, h⟩ := Option.bind_eq_some_iff.mp h
  refine fits_of_mbuf ht hm fun hflow => ?_
  rw [if_pos hflow, fixUp] at h
  split at h
  · assumption
  · cases h

/-- The acknowledgements of a trace have moved by what the peer has sent so far. -/
def AcksMoved (ntop : InetNtop) (rand : Nat → UInt32) (o : ParserOption) (node : FlowNode)
    (plugin : TcpPlugin) (pkts out : List TracePkt) : Prop :=
  ∀ (k : Nat) (t s : TracePkt), pkts[k]? = some t → out[k]? = some s →
    s.peer = t.peer ∧ s.ackNum = t.ackNum + plugin.grown ntop rand o node t.peer (pkts.take k)

/-- What is sent, by the template. -/
structure SentTrace (ntop : InetNtop) (rand : Nat → UInt32) (o : ParserOption) (node : FlowNode)
    (plugin : TcpPlugin) (pkts out : List TracePkt) : Prop where
  stretched : Stretched TracePkt.stream TracePkt.seqNum TracePkt.size
    (plugin.growth ntop rand o node) TracePkt.stream TracePkt.seqNum TracePkt.size pkts out
  acks : AcksMoved ntop rand o node plugin pkts out

theorem sendFlow_concat (mems : Nat → Mem) (pkts : List TracePkt) (t : TracePkt) :
    sendFlow abi ntop rand o node plugin mems (pkts ++ [t]) =
      (sendFlow abi ntop rand o node plugin mems pkts).bind fun s =>
        (plugin.onNodeGenerateMbuf abi ntop rand o node s.2 t (mems s.1.length)).map fun r =>
          (s.1 ++ [t.sent r.1], r.2) := by
  simp [sendFlow]

/-- **A flow of packets that fit** is sent, with its numbers moved. -/
theorem sendFlow_of_fits (abi : Abi) (mems : Nat → Mem) {pkts : List TracePkt}
    (hpkts : ∀ t ∈ pkts, TcpPkt o t) (hfits : ∀ t ∈ pkts, plugin.Fits ntop rand o node t) :
    ∃ out seq, sendFlow abi ntop rand o node plugin mems pkts = some (out, seq) ∧
      SentTrace ntop rand o node plugin pkts out ∧ Deltas ntop rand o node plugin pkts seq := by
  induction pkts using List.reverseRecOn with
  | nil => exact ⟨[], {}, rfl, ⟨.nil, fun k t s ht => nomatch ht⟩,
      fun side => by cases side <;> rfl⟩
  | append_singleton pkts t ih =>
    obtain ⟨out, seq, hrun, hmoved, hseq⟩ := ih (fun t' ht' => hpkts t' (mem_append_left _ ht'))
      fun t' ht' => hfits t' (mem_append_left _ ht')
    have hmem : t ∈ pkts ++ [t] := mem_append_right _ (mem_singleton_self t)
    obtain ⟨bytes, seq', hgen, hsent, hseq'⟩ :=
      generate_of_fits abi (hpkts t hmem) (hfits t hmem) hseq (mems out.length)
    refine ⟨out ++ [t.sent bytes], seq', ?_, ⟨?_, fun k t' s' ht' hs' => ?_⟩, hseq'⟩
    · rw [sendFlow_concat, hrun, Option.bind_some, hgen, Option.map_some]
    · exact .concat hmoved.stretched hsent.stream hsent.seqNum hsent.size
    · have hlen := hmoved.stretched.length_eq
      rcases Nat.lt_or_ge k pkts.length with hk | hk
      · rw [List.getElem?_append_left hk] at ht'
        rw [List.getElem?_append_left (hlen ▸ hk)] at hs'
        rw [take_append_of_le_length hk.le]
        exact hmoved.acks k t' s' ht' hs'
      · have hk' : k = pkts.length := by
          have hlt := (List.getElem?_eq_some_iff.mp ht').1
          rw [length_append, length_singleton] at hlt
          omega
        subst hk'
        rw [List.getElem?_concat_length] at ht'
        rw [← hlen, List.getElem?_concat_length] at hs'
        cases ht'
        cases hs'
        rw [take_left]
        exact ⟨hsent.peer, hsent.ackNum⟩

/-- **A flow that is sent has packets that fit.** -/
theorem fits_of_sendFlow {mems : Nat → Mem} {pkts : List TracePkt} (hpkts : ∀ t ∈ pkts, TcpPkt o t)
    {r : List TracePkt × CTcpSeq} (h : sendFlow abi ntop rand o node plugin mems pkts = some r) :
    ∀ t ∈ pkts, plugin.Fits ntop rand o node t := by
  induction pkts using List.reverseRecOn generalizing r with
  | nil => exact fun t ht => nomatch ht
  | append_singleton pkts t ih =>
    rw [sendFlow_concat] at h
    obtain ⟨s, hrun, h⟩ := Option.bind_eq_some_iff.mp h
    obtain ⟨r', hgen, -⟩ := Option.map_eq_some_iff.mp h
    intro t' ht'
    rcases mem_append.mp ht' with ht' | ht'
    · exact ih (fun t hmem => hpkts t (mem_append_left _ hmem)) hrun t' ht'
    · rw [mem_singleton] at ht'
      subst ht'
      exact fits_of_generate (hpkts t' (mem_append_right _ (mem_singleton_self t'))) hgen

end Flow

/-! ## 3. Continuity -/

/-- **A template of TCP that is in order**: its packets are loaded, the flow that a plug-in changes
is TCP, the packets of TCP are whole, and in each side every number is the one before plus what was
sent with it. -/
structure TcpTemplate (abi : Abi) (o : ParserOption) (pkts : List TracePkt) : Prop where
  loaded : ∀ (i : Nat) (t : TracePkt), pkts[i]? = some t →
    ∃ pkt, loadPacket abi o i t.desc pkt = some t.bytes
  control : ∀ t ∈ pkts, t.desc.flowId = 0 → t.bytes.ind.proto = .tcp
  segment : ∀ t ∈ pkts, t.bytes.ind.proto = .tcp → Segment t.bytes.ind
  inOrder : InOrder TracePkt.stream TracePkt.seqNum TracePkt.size pkts

theorem TcpTemplate.tcpPkt {abi : Abi} {o : ParserOption} (h : TcpTemplate abi o pkts) :
    ∀ t ∈ pkts, TcpPkt o t := by
  intro t ht
  obtain ⟨i, hi⟩ := List.getElem?_of_mem ht
  obtain ⟨pkt, hload⟩ := h.loaded i t hi
  obtain ⟨hplaced, hipv6⟩ := loadPacket_placed hload
  exact ⟨hplaced, hipv6, h.control t ht, h.segment t ht⟩

/-- Where the first `m` packets of a stream end. -/
def endOf (c : Nat × Bool) (m : Nat) (pkts : List TracePkt) : Option (BitVec 32) :=
  boundary TracePkt.stream TracePkt.seqNum TracePkt.size c m pkts

/-- **What is sent is in order too**, and an acknowledgement of a prefix of what the peer sends
still is one. -/
structure KeepsContinuity (pkts out : List TracePkt) : Prop where
  inOrder : InOrder TracePkt.stream TracePkt.seqNum TracePkt.size out
  acks : ∀ (k m : Nat) (t s : TracePkt), pkts[k]? = some t → out[k]? = some s → t.isAck = true →
    endOf t.peer m pkts = some t.ackNum → endOf s.peer m out = some s.ackNum

section Continuity

variable (abi : Abi) (ntop : InetNtop) (rand : Nat →
    UInt32) (o : ParserOption) (node : FlowNode) (plugin : TcpPlugin)

/-- What the packets of the peer in front of an acknowledgement grow is what the prefix grows that
it acknowledges. -/
def AcksCurrent (pkts : List TracePkt) : Prop :=
  ∀ (k m : Nat) (t : TracePkt), pkts[k]? = some t → t.isAck = true →
    endOf t.peer m pkts = some t.ackNum → plugin.grown ntop rand o node t.peer (pkts.take k) =
      (((ofClass TracePkt.stream t.peer pkts).take m).map (plugin.growth ntop rand o node)).sum

variable {ntop rand o node plugin}

/-- The acknowledgements of a trace that was sent. -/
theorem SentTrace.acks_iff {out : List TracePkt} (h : SentTrace ntop rand o node plugin pkts out) :
    (∀ (k m : Nat) (t s : TracePkt), pkts[k]? = some t → out[k]? = some s → t.isAck = true →
      endOf t.peer m pkts = some t.ackNum → endOf s.peer m out = some s.ackNum) ↔
      AcksCurrent ntop rand o node plugin pkts := by
  have hend : ∀ c m, endOf c m out = (endOf c m pkts).map fun n =>
      n + (((ofClass TracePkt.stream c pkts).take m).map (plugin.growth ntop rand o node)).sum :=
    fun c m => h.stretched.boundary_eq c m
  constructor
  · intro hacks k m t ht hack hprefix
    have hk := (List.getElem?_eq_some_iff.mp ht).1
    obtain ⟨s, hs⟩ : ∃ s, out[k]? = some s :=
      ⟨_, List.getElem?_eq_getElem (h.stretched.length_eq ▸ hk)⟩
    obtain ⟨hpeer, hmoved⟩ := h.acks k t s ht hs
    have hout := hacks k m t s ht hs hack hprefix
    rw [hpeer, hend, hprefix, Option.map_some, hmoved, Option.some.injEq] at hout
    exact (add_left_cancel hout).symm
  · intro hcurrent k m t s ht hs hack hprefix
    obtain ⟨hpeer, hmoved⟩ := h.acks k t s ht hs
    rw [hpeer, hend, hprefix, Option.map_some, hmoved, hcurrent k m t ht hack hprefix]

/-- **Continuity**, for every template that is in order, every plug-in and all addresses and
ports. -/
theorem keepsContinuity_iff {mems : Nat → Mem} (h : TcpTemplate abi o pkts) :
    (∃ out seq, sendFlow abi ntop rand o node plugin mems pkts = some (out, seq) ∧
      KeepsContinuity pkts out) ↔
      (∀ t ∈ pkts, plugin.Fits ntop rand o node t) ∧ AcksCurrent ntop rand o node plugin pkts := by
  constructor
  · rintro ⟨out, seq, hrun, hkeeps⟩
    have hfits := fits_of_sendFlow h.tcpPkt hrun
    obtain ⟨out', seq', hrun', hsent, -⟩ := sendFlow_of_fits abi mems h.tcpPkt hfits
    rw [hrun] at hrun'
    cases hrun'
    exact ⟨hfits, hsent.acks_iff.mp hkeeps.acks⟩
  · rintro ⟨hfits, hcurrent⟩
    obtain ⟨out, seq, hrun, hsent, -⟩ := sendFlow_of_fits abi mems h.tcpPkt hfits
    exact ⟨out, seq, hrun, hsent.stretched.inOrder h.inOrder, hsent.acks_iff.mpr hcurrent⟩

end Continuity

/-! ## 4. Acknowledgements that lag -/

/-- **Continuity**: for every template of TCP that is in order, HTTP or RTSP, and all addresses and
ports, the flow is sent, is in order, and its acknowledgements acknowledge what they did, exactly if
every packet fits, and the packets of the peer in front of an acknowledgement grow by as much as the
prefix that it acknowledges. -/
theorem continuity_iff (abi : Abi) (ntop : InetNtop) (rand : Nat → UInt32) (o : ParserOption)
    (node : FlowNode) (plugin : TcpPlugin) (mems : Nat → Mem) (pkts : List TracePkt)
    (h : TcpTemplate abi o pkts) :
    (∃ out seq, sendFlow abi ntop rand o node plugin mems pkts = some (out, seq) ∧
      KeepsContinuity pkts out) ↔
      (∀ t ∈ pkts, plugin.Fits ntop rand o node t) ∧ AcksCurrent ntop rand o node plugin pkts :=
  keepsContinuity_iff abi h

/-- Packets that are loaded one after the other, from position `i` on. -/
def loadFrom (abi : Abi) (o : ParserOption) (i : Nat) :
    List (CPacketDescriptor × CCapPktRaw) → Option (List TracePkt)
  | [] => some []
  | (desc, pkt) :: raws =>
    (loadPacket abi o i desc pkt).bind fun b => (loadFrom abi o (i + 1) raws).map fun pkts =>
      ⟨desc, b⟩ :: pkts

theorem loadFrom_loaded {abi : Abi} {o : ParserOption} :
    ∀ {raws : List (CPacketDescriptor × CCapPktRaw)} {i : Nat}
    {pkts : List TracePkt}, loadFrom abi o i raws = some pkts →
      ∀ (j : Nat) (t : TracePkt), pkts[j]? = some t →
      ∃ pkt, loadPacket abi o (i + j) t.desc pkt = some t.bytes
  | [], i, pkts, h, j, t, ht => by
    cases h
    cases ht
  | (desc, pkt) :: raws, i, pkts, h, j, t, ht => by
    obtain ⟨b, hb, h⟩ := Option.bind_eq_some_iff.mp h
    obtain ⟨rest, hrest, rfl⟩ := Option.map_eq_some_iff.mp h
    cases j with
    | zero =>
      cases ht
      exact ⟨pkt, hb⟩
    | succ j =>
      have hloaded := loadFrom_loaded hrest j t ht
      rwa [Nat.add_assoc, Nat.add_comm 1] at hloaded

/-- A packet of a flow of TCP, with `size` bytes of payload. -/
def exampleTcp (num : Nat) (isInit : Bool) (seq ack flags : UInt8) (size : Nat) :
    CPacketDescriptor × CCapPktRaw :=
  ({ flowId := 0, flowPktNum := num, id := 0, isInitSide := isInit },
    { raw := fun a => if 54 ≤ a then 0x2E else ([0, 0, 0, 1, 0, 0, 0, 0, 0, 2, 0, 0, 0x08, 0x00,
        0x45, 0, 0, UInt8.ofNat (size + 40), 0, 0, 0, 0, 64, 6, 0, 0, 16, 0, 0, 1, 48, 0, 0, 1,
        4, 1, 0, 80, 0, 0, 0, seq, 0, 0, 0, ack, 0x50, flags, 0, 0, 0, 0, 0, 0] : List UInt8).getD a
          0
      pktLen := size + 54 })

/-- A request, and a packet of the server that does not acknowledge it yet. -/
def exampleRequest (ack : UInt8) : List (CPacketDescriptor × CCapPktRaw) :=
  [exampleTcp 0 true 0 0 2 0, exampleTcp 1 false 0 1 0x12 0, exampleTcp 2 true 1 1 0x10 0,
    exampleTcp 3 true 1 1 0x10 40, exampleTcp 4 false 1 ack 0x10 0]

/-- A server with a long address. -/
def exampleServer : FlowNode := { exampleNode with destIp := 0x30303030 }

instance (ind : CPacketIndication) : Decidable (Segment ind) :=
  decidable_of_iff (ind.proto = .tcp ∧ ind.udpTcpOffset + 20 ≤ ind.payloadOffset ∧
      ind.payloadOffset ≤ ind.ipEnd ∧ ind.ipEnd ≤ ind.packet.pktLen)
    ⟨fun h => ⟨h.1, h.2.1, h.2.2.1, h.2.2.2⟩, fun h => ⟨h.tcp, h.header, h.inside, h.complete⟩⟩

/-- What is checked of the example by running it. -/
def exampleChecks (ack : UInt8) (test : List TracePkt → Bool) : Bool :=
  (loadFrom ⟨16, 64⟩ (exampleParser false) 0 (exampleRequest ack)).any fun pkts =>
    decide (∀ t ∈ pkts, t.desc.flowId = 0 ∧ Segment t.bytes.ind) &&
    decide (∀ t ∈ pkts, (ofClass TracePkt.stream t.stream pkts).IsChain fun a b =>
      b.seqNum = a.seqNum + a.size) &&
    test pkts

theorem exampleChecks_template {ack : UInt8} {test : List TracePkt → Bool}
    (h : exampleChecks ack test = true) :
    ∃ pkts, TcpTemplate ⟨16, 64⟩ (exampleParser false) pkts ∧ test pkts = true := by
  obtain ⟨pkts, hload, h⟩ := (Option.any_eq_true _ _).mp h
  simp only [Bool.and_eq_true, decide_eq_true_eq] at h
  obtain ⟨⟨hsegs, hchains⟩, htest⟩ := h
  refine ⟨pkts, ⟨fun i t ht => ?_, fun t ht _ => (hsegs t ht).2.tcp, fun t ht _ => (hsegs t ht).2,
    inOrder_of_mem hchains⟩, htest⟩
  have hloaded := loadFrom_loaded hload i t ht
  rwa [Nat.zero_add] at hloaded

/-- A request that is acknowledged. -/
theorem continuity_request : ∃ pkts, TcpTemplate ⟨16, 64⟩ (exampleParser false) pkts ∧
    pkts.length = 5 ∧
    ((∃ out seq, sendFlow ⟨16, 64⟩ exampleNtop (fun _ =>
        0) (exampleParser false) exampleServer .http
        (fun _ _ => 0) pkts = some (out, seq) ∧ KeepsContinuity pkts out) ↔
      (∀ t ∈ pkts, TcpPlugin.http.Fits exampleNtop (fun _ =>
        0) (exampleParser false) exampleServer t) ∧
        AcksCurrent exampleNtop (fun _ => 0) (exampleParser false) exampleServer .http pkts) := by
  have hrun : exampleChecks 41 (fun pkts => pkts.length == 5) = true := by decide +kernel
  obtain ⟨pkts, htemplate, hlen⟩ := exampleChecks_template hrun
  exact ⟨pkts, htemplate, eq_of_beq hlen, continuity_iff _ _ _ _ _ _ _ pkts htemplate⟩

/-- **An acknowledgement that lags** acknowledges three bytes of a request that its sender has not
received. -/
theorem continuity_lagging : ¬ ∀ (abi : Abi) (ntop : InetNtop) (rand : Nat →
    UInt32) (o : ParserOption) (node : FlowNode)
    (plugin : TcpPlugin) (mems : Nat → Mem) (pkts out : List TracePkt) (seq : CTcpSeq),
      TcpTemplate abi o pkts →
    sendFlow abi ntop rand o node plugin mems pkts = some (out, seq) →
        KeepsContinuity pkts out := by
  intro hcontinuous
  -- the packet at position 4 acknowledges the first packet of the client, and the fourth is longer
  have hchecks : exampleChecks 1 (fun pkts =>
      (sendFlow ⟨16, 64⟩ exampleNtop (fun _ => 0) (exampleParser false) exampleServer .http
        (fun _ _ => 0) pkts).isSome &&
      (pkts[4]?).any fun t => t.isAck && decide (endOf t.peer 1 pkts = some t.ackNum) &&
        decide (TcpPlugin.http.grown exampleNtop (fun _ =>
          0) (exampleParser false) exampleServer t.peer (pkts.take 4) ≠
          (((ofClass TracePkt.stream t.peer pkts).take 1).map
            (TcpPlugin.http.growth exampleNtop (fun _ =>
                0) (exampleParser false) exampleServer)).sum)) = true := by
    decide +kernel
  obtain ⟨pkts, htemplate, hsome⟩ := exampleChecks_template hchecks
  rw [Bool.and_eq_true] at hsome
  obtain ⟨⟨out, seq⟩, hrun⟩ := Option.isSome_iff_exists.mp hsome.1
  obtain ⟨t, ht, htest⟩ := (Option.any_eq_true _ _).mp hsome.2
  simp only [Bool.and_eq_true, decide_eq_true_eq] at htest
  obtain ⟨⟨hack, hend⟩, hne⟩ := htest
  have hkeeps := hcontinuous _ _ _ _ _ _ _ pkts out seq htemplate hrun
  exact hne (((keepsContinuity_iff _ htemplate).mp ⟨out, seq, hrun, hkeeps⟩).2 4 1 t ht hack hend)

end Trex.Flow
