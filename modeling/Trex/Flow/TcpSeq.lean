/-
# Sequence numbers behind a rewritten payload

`http_plugin` and `rtsp_plugin` (`bp_sim.cpp`) change the sizes of some packets of a TCP flow, and
`CTcpSeq::update` moves the sequence and acknowledgement numbers of all of them: by what the packets
of each side that were sent so far have grown.

* A packet that a plug-in makes is a first segment with the bytes behind it (`GenMbuf`); `update`
  writes in the first segment, and behind its end there is no result;
* what the plug-ins keep of a TCP header, and by how much they move the length of the packet, is
  `Kept`;
* a packet can be made exactly if it `Fits` (`packet_of_fits`, `fits_of_packet`).
-/
import Mathlib.Data.BitVec
import Trex.Flow.Rewrite

namespace Trex.Flow

open Trex.Lib Trex.Net Trex.Pal

/-! ## 1. The numbers -/

/-- A 32-bit field in network order. -/
def setField32 (m : Mem) (a n : Nat) : Mem := m.store a 4 (bswap 4 n)

theorem getField32_setField32 (m : Mem) (a n : Nat) :
    getField32 (setField32 m a n) a = n % 2 ^ 32 := by
  rw [getField32, setField32, Mem.load_store, bswap_mod]
  exact bswap_bswap 4 n

/-- `TCPHeader::getSeqNumber` -/
def getSeqNumber (m : Mem) (l4 : Nat) : BitVec 32 := BitVec.ofNat 32 (getField32 m (l4 + 4))

/-- `TCPHeader::getAckNumber` -/
def getAckNumber (m : Mem) (l4 : Nat) : BitVec 32 := BitVec.ofNat 32 (getField32 m (l4 + 8))

/-- `TCPHeader::setSeqNumber` -/
def setSeqNumber (m : Mem) (l4 : Nat) (n : BitVec 32) : Mem := setField32 m (l4 + 4) n.toNat

/-- `TCPHeader::setAckNumber` -/
def setAckNumber (m : Mem) (l4 : Nat) (n : BitVec 32) : Mem := setField32 m (l4 + 8) n.toNat

/-- `CTcpSeq` -/
structure CTcpSeq where
  clientSeqDelta : BitVec 32 := 0
  serverSeqDelta : BitVec 32 := 0

/-- `CTcpSeq::update`.  `s_size` is sign-extended when it is added. -/
def CTcpSeq.update (seq : CTcpSeq) (l4 : Nat) (isInit : Bool) (sSize : Int16) (p : Mem) :
    Mem × CTcpSeq :=
  let seqnum := getSeqNumber p l4
  let acknum := getAckNumber p l4
  if isInit then
    -- "Packet is from client"
    (setAckNumber (setSeqNumber p l4 (seqnum + seq.clientSeqDelta)) l4 (acknum +
      seq.serverSeqDelta),
      { seq with clientSeqDelta := seq.clientSeqDelta + BitVec.ofInt 32 sSize.toInt })
  else
    (setAckNumber (setSeqNumber p l4 (seqnum + seq.serverSeqDelta)) l4 (acknum +
      seq.clientSeqDelta),
      { seq with serverSeqDelta := seq.serverSeqDelta + BitVec.ofInt 32 sSize.toInt })

/-- The delta of a side. -/
def CTcpSeq.delta (seq : CTcpSeq) (isInit : Bool) : BitVec 32 :=
  if isInit then seq.clientSeqDelta else seq.serverSeqDelta

theorem getSeqNumber_congr {m m' : Mem} {l4 : Nat} (h : ∀ x, l4 + 4 ≤ x → x < l4 + 8 → m x = m' x) :
    getSeqNumber m l4 = getSeqNumber m' l4 :=
  congrArg (BitVec.ofNat 32) (getField32_congr fun x hx hx' => h x hx (by omega))

theorem getAckNumber_congr {m m' : Mem} {l4 : Nat}
    (h : ∀ x, l4 + 8 ≤ x → x < l4 + 12 → m x = m' x) :
    getAckNumber m l4 = getAckNumber m' l4 :=
  congrArg (BitVec.ofNat 32) (getField32_congr fun x hx hx' => h x hx (by omega))

variable {x : Nat} {f : Mem → Mem} {b : PktBytes}

theorem setField32_outside (m : Mem) {a : Nat} (n : Nat) (h : x < a ∨ a + 4 ≤ x) :
    setField32 m a n x = m x :=
  Mem.store_outside m _ h

theorem getSeqNumber_setAckNumber (m : Mem) (l4 : Nat) (n : BitVec 32) :
    getSeqNumber (setAckNumber m l4 n) l4 = getSeqNumber m l4 :=
  getSeqNumber_congr fun _ _ hx => setField32_outside _ _ (Or.inl hx)

theorem ofNat_setField32 (m : Mem) (a : Nat) (n : BitVec 32) :
    BitVec.ofNat 32 (getField32 (setField32 m a n.toNat) a) = n := by
  rw [getField32_setField32, Nat.mod_eq_of_lt n.isLt, BitVec.ofNat_toNat, BitVec.setWidth_eq]

section Update

variable (seq : CTcpSeq) (l4 : Nat) (isInit : Bool) (sSize : Int16) (p : Mem)

theorem CTcpSeq.update_mem : (seq.update l4 isInit sSize p).1 =
    setAckNumber (setSeqNumber p l4 (getSeqNumber p l4 + seq.delta isInit)) l4
      (getAckNumber p l4 + seq.delta !isInit) := by
  cases isInit <;> rfl

/-- The delta of the side that sends moves. -/
theorem CTcpSeq.delta_update (side : Bool) : (seq.update l4 isInit sSize p).2.delta side =
    seq.delta side + if isInit = side then BitVec.ofInt 32 sSize.toInt else 0 := by
  cases isInit <;> cases side <;> simp [CTcpSeq.update, CTcpSeq.delta]

/-- Only the two numbers are written. -/
theorem CTcpSeq.update_outside (h : x < l4 + 4 ∨ l4 + 12 ≤ x) :
    (seq.update l4 isInit sSize p).1 x = p x := by
  rw [CTcpSeq.update_mem, setAckNumber, setField32_outside _ _ (by omega), setSeqNumber,
    setField32_outside _ _ (by omega)]

theorem CTcpSeq.getSeqNumber_update :
    getSeqNumber (seq.update l4 isInit sSize p).1 l4 = getSeqNumber p l4 + seq.delta isInit := by
  rw [CTcpSeq.update_mem, getSeqNumber_setAckNumber]
  exact ofNat_setField32 _ _ _

theorem CTcpSeq.getAckNumber_update :
    getAckNumber (seq.update l4 isInit sSize p).1 l4 = getAckNumber p l4 + seq.delta !isInit := by
  rw [CTcpSeq.update_mem]
  exact ofNat_setField32 _ _ _

end Update

/-! ## 2. The plug-ins -/

/-- A packet of a trace: of a template as it is loaded, or as it is sent. -/
structure TracePkt where
  desc : CPacketDescriptor
  bytes : PktBytes

/-- A packet that was made: its bytes, how many of them are in the first segment, and `s_size`. -/
structure GenMbuf where
  bytes : List UInt8
  firstSeg : Nat
  sSize : Int16

section Plugins

variable (abi : Abi) (ntop : InetNtop) (rand : Nat → UInt32) (o : ParserOption) (node : FlowNode)

/-- A packet that is in one segment. -/
def wholeMbuf (bytes : List UInt8) : GenMbuf := ⟨bytes, bytes.length, 0⟩

/-- A packet with the constant mbuf behind its first segment. -/
def firstMbuf (b : PktBytes) (bytes : List UInt8) :
    GenMbuf := ⟨bytes, firstLen b.ind.packet.pktLen, 0⟩

/-- `do_generate_new_mbuf_ex_vm`: without a payload it is `do_generate_new_mbuf_ex`. -/
def vmMbuf (b : PktBytes) (info : CFlowInfo) (cmds : List CMiniVMCmd) (p : Mem) : Option GenMbuf :=
  (doGenerateNewMbufExVm abi ntop rand b info cmds p).map fun m =>
    ⟨m.1, if b.ind.payloadLen = 0 then firstLen b.ind.packet.pktLen else m.1.length, m.2⟩

/-- What `http_plugin` makes of a packet. -/
def httpMbuf (t : TracePkt) (p : Mem) : Option GenMbuf :=
  let b := t.bytes
  -- "only one flow"
  if t.desc.flowId ≠ 0 then none
  else if t.desc.flowPktNum ≠ 3 then
    if o.ipv6Enable then (doGenerateNewMbufBig abi o b node p).map wholeMbuf
    else (doGenerateNewMbuf abi o b node p).map (firstMbuf b)
  else
    let cmd := httpProgram o node
    vmMbuf abi ntop rand b (controlInfo b node (some cmd)) [cmd] p

/-- The end of what `rtsp_plugin` makes. -/
def exMbuf (b : PktBytes) (info : CFlowInfo) (p : Mem) : Option GenMbuf :=
  match info.vmProgram with
  | some cmds => vmMbuf abi ntop rand b info cmds p
  | none =>
    if o.ipv6Enable then (doGenerateNewMbufExBig abi b info p).map wholeMbuf
    else (doGenerateNewMbufEx abi b info p).map (firstMbuf b)

/-- What `rtsp_plugin` makes of a packet. -/
def rtspMbuf (rtp : CPluginRtsp) (t : TracePkt) (p : Mem) : Option GenMbuf :=
  let b := t.bytes
  match t.desc.flowId with
  | 0 => exMbuf abi ntop rand o b (controlInfo b node (rtspProgram o node rtp t.desc.flowPktNum)) p
  | 1 => exMbuf abi ntop rand o b (mediaInfo b node rtp.rtpClient0) p
  | 2 => exMbuf abi ntop rand o b (mediaInfo b node rtp.rtpClient1) p
  | _ => none

/-- `update` on the first segment of a packet. -/
def fixUp (seq : CTcpSeq) (t : TracePkt) (m : GenMbuf) : Option (List UInt8 × CTcpSeq) :=
  let l4 := t.bytes.ind.udpTcpOffset
  if l4 + 12 ≤ m.firstSeg then
    let r := seq.update l4 t.bytes.isInitSide m.sSize fun a => m.bytes.getD a 0
    some (r.1.read 0 m.bytes.length, r.2)
  else none

/-- `http_plugin` -/
def httpPlugin (seq : CTcpSeq) (t : TracePkt) (p : Mem) : Option (List UInt8 × CTcpSeq) :=
  (httpMbuf abi ntop rand o node t p).bind (fixUp seq t)

/-- `rtsp_plugin`: the numbers of the control flow. -/
def rtspPlugin (rtp : CPluginRtsp) (seq : CTcpSeq) (t : TracePkt) (p : Mem) :
    Option (List UInt8 × CTcpSeq) :=
  (rtspMbuf abi ntop rand o node rtp t p).bind fun m =>
    if t.desc.flowId = 0 then fixUp seq t m else some (m.bytes, seq)

/-- The plug-ins that change TCP flows. -/
inductive TcpPlugin
  | http
  | rtsp (rtp : CPluginRtsp)

namespace TcpPlugin

/-- `m_plugin_id` -/
def plugin : TcpPlugin → Plugin
  | http => .http
  | rtsp rtp => .rtsp rtp

/-- What a plug-in makes of a packet. -/
def mbuf : TcpPlugin → TracePkt → Mem → Option GenMbuf
  | http => httpMbuf abi ntop rand o node
  | rtsp rtp => rtspMbuf abi ntop rand o node rtp

/-- `on_node_generate_mbuf` -/
def onNodeGenerateMbuf : TcpPlugin → CTcpSeq → TracePkt → Mem → Option (List UInt8 × CTcpSeq)
  | http => httpPlugin abi ntop rand o node
  | rtsp rtp => rtspPlugin abi ntop rand o node rtp

/-- The program of a packet. -/
def program? (plugin : TcpPlugin) (t : TracePkt) : Option CMiniVMCmd :=
  plugin.plugin.program? o node t.desc.flowId t.desc.flowPktNum

/-- How many flows a template may have. -/
def flows : TcpPlugin → Nat
  | http => 1
  | rtsp _ => 3

end TcpPlugin

end Plugins

/-! ## 3. What is kept of the headers -/

/-- The bytes that only the length of a packet moves, and those behind the ports. -/
def IsKept (ind : CPacketIndication) (x : Nat) : Prop :=
  (ipLenOffset ind ≤ x ∧ x < ipLenOffset ind + 2) ∨ ind.udpTcpOffset + 4 ≤ x

theorem updateIpField_outside (m : Mem) {field ip n : Nat} (hfield : 12 ≤ field)
    (h : x < ip + 10 ∨ ip + field + 4 ≤ x) :
    updateIpField field m ip n x = m x := by
  simp only [updateIpField]
  rw [Mem.store_outside _ _ (by omega), Mem.store_outside _ _ (by omega),
    Mem.store_outside _ _ (by omega)]

section Frames

variable {o : ParserOption} {b : PktBytes} (hb : Placed b) (hproto : b.ind.proto = .tcp)
    (node : FlowNode) (m : Mem)

include hb

theorem updateNatOption_outside (hv6 : b.ind.isIpv6 = false)
    (h : (x < 24 ∧ x ≠ 22) ∨ b.ind.udpTcpOffset ≤ x) :
    updateNatOption b node m x = m x := by
  unfold updateNatOption
  split
  · rename_i hlearn
    have hl4 := hb.option hlearn
    have hopt : noOptionLen = 8 := rfl
    have hsize : ipv4DefaultSize = 20 := rfl
    rw [hv6, if_neg Bool.false_ne_true] at hl4
    simp only [hb.ip, setField8]
    rw [Mem.store_outside _ _ (by omega), Mem.store_outside _ _ (by omega),
      Mem.store_outside _ _ (by omega), Mem.store_outside _ _ (by omega)]
  · rfl

theorem updateIpv4Addr_outside (hv6 : b.ind.isIpv6 = false)
    (h : (x < 24 ∧ x ≠ 22) ∨ b.ind.udpTcpOffset ≤ x) :
    updateIpv4Addr o b node m x = m x := by
  have hl4 := hb.le_l4
  unfold updateIpv4Addr
  simp only [hb.ip, updateIpDst, updateIpSrc]
  split
  · split
    · rw [updateIpField_outside _ (by decide) (by omega),
        updateIpField_outside _ (by decide) (by omega)]
      exact updateNatOption_outside hb node m hv6 h
    · rw [updateIpField_outside _ (by decide) (by omega),
        updateIpField_outside _ (by decide) (by omega)]
      exact updateNatOption_outside hb node m hv6 h
  · split
    · rw [updateIpField_outside _ (by decide) (by omega),
        updateIpField_outside _ (by decide) (by omega)]
    · rw [updateIpField_outside _ (by decide) (by omega),
        updateIpField_outside _ (by decide) (by omega)]

include hproto

theorem updatePktInfo_kept (hx : IsKept b.ind x) : updatePktInfo o b node m x = m x := by
  have hl4 := hb.l4
  have hlen : x < 20 ∨ b.ind.udpTcpOffset + 4 ≤ x :=
    hx.imp_left fun h => h.2.trans_le hb.ipLenOffset_le
  have hport : ∀ m : Mem, updatePort b (clientPort o b node) m x = m x := by
    intro m
    have hl4 := hb.le_l4
    unfold updatePort
    simp only [hproto, setField16]
    split
    · exact Mem.store_outside _ _ (by omega)
    · exact Mem.store_outside _ _ (by omega)
  unfold updatePktInfo
  rw [hport, hb.ip]
  split
  · rename_i hv6
    rw [hv6, if_pos rfl] at hl4
    unfold updateIpv6Addr
    simp only [hb.ip, updateLSBIpv6Dst, updateLSBIpv6Src]
    split
    · rw [Mem.store_outside _ _ (by omega), Mem.store_outside _ _ (by omega)]
    · rw [Mem.store_outside _ _ (by omega), Mem.store_outside _ _ (by omega)]
  · rename_i hv6
    rw [if_neg hv6] at hl4
    rw [updateCheckSum_of_ne _ (by omega),
      updateIpv4Addr_outside hb node m (Bool.not_eq_true _ ▸ hv6) (by omega)]

theorem updatePktInfo2_kept (info : CFlowInfo) (hx : IsKept b.ind x) :
    updatePktInfo2 b info 0 m x = m x := by
  rcases hx with hx | hx
  · have hlen := hb.ipLenOffset_le
    have hl4 := hb.le_l4
    unfold updatePktInfo2
    simp only [hproto]
    rw [updatePorts2_outside _ _ _ (by omega), updateIpInfo2_outside hb _ _ _ (by omega)]
    rfl
  · exact updatePktInfo2_outside hb _ _ _ (by rwa [hproto])

end Frames

/-! ## 4. A packet that was made -/

/-- The bytes of a packet. -/
def memOf (bytes : List UInt8) : Mem := fun a => bytes.getD a 0

/-- **What a packet keeps of a TCP header**, with its length moved by `grow`. -/
structure Kept (ind : CPacketIndication) (grow : Int) (bytes : List UInt8) : Prop where
  header : ∀ x, ind.udpTcpOffset + 4 ≤ x → x < ind.udpTcpOffset + 14 →
    memOf bytes x = ind.packet.raw x
  ipLen : (getIpLen ind (memOf bytes) : Int) = getIpLen ind ind.packet.raw + grow
  long : ind.udpTcpOffset + 14 ≤ bytes.length

/-- A copy of the template that is rewritten in the buffer `p`. -/
def copyOf (f : Mem → Mem) (raw p : Mem) (len : Nat) :
    List UInt8 := (f (p.putBytes 0 (raw.read 0 len))).read 0 len

theorem length_copyOf (f : Mem → Mem) (raw p : Mem) (len : Nat) :
    (copyOf f raw p len).length = len :=
  Mem.length_read _ _ _

variable {len : Nat}

/-- What is not rewritten is as it is in the template. -/
theorem memOf_copyOf {raw : Mem} (hf : ∀ m : Mem, f m x = m x) (hx : x < len) (p : Mem)
    (tail : List UInt8) : memOf (copyOf f raw p len ++ tail) x = raw x := by
  have hcopied : (raw.read 0 len)[x]? = some (raw x) := by
    simp [Mem.read, hx]
  rw [memOf, List.getD_eq_getElem?_getD, List.getElem?_append_left (by rwa [length_copyOf]),
    ← List.getD_eq_getElem?_getD, copyOf, Mem.getD_read _ hx, hf,
      ← Mem.putBytes_inside p (a := 0) hcopied,
    Nat.zero_add]

theorem kept_copyOf (hb : Placed b) (hf : ∀ m x, IsKept b.ind x → f m x = m x)
    (hlen : b.ind.udpTcpOffset + 14 ≤ len) (p : Mem) (tail : List UInt8) :
    Kept b.ind 0 (copyOf f b.ind.packet.raw p len ++ tail) := by
  have hoff := hb.ipLenOffset_le
  have hl4 := hb.le_l4
  refine ⟨fun x hx hx' => memOf_copyOf (fun m => hf m x (Or.inr hx)) (by omega) p tail, ?_, ?_⟩
  · rw [Int.add_zero]
    exact congrArg Nat.cast (getField16_congr fun x hx hx' =>
      memOf_copyOf (fun m => hf m x (Or.inl ⟨hx, hx'⟩)) (by omega) p tail)
  · rw [List.length_append, length_copyOf]
    omega

/-- **A segment of TCP** that is in the packet. -/
structure Segment (ind : CPacketIndication) : Prop where
  tcp : ind.proto = .tcp
  header : ind.udpTcpOffset + 20 ≤ ind.payloadOffset
  inside : ind.payloadOffset ≤ ind.ipEnd
  complete : ind.ipEnd ≤ ind.packet.pktLen

theorem ipEnd_eq (ind : CPacketIndication) :
    ind.ipEnd = ind.ipOffset + (if ind.isIpv6 then ipv6DefaultSize else 0) +
        getIpLen ind ind.packet.raw := by
  unfold CPacketIndication.ipEnd getIpLen ipLenOffset
  cases ind.isIpv6 <;> rfl

/-- A packet that was rewritten. -/
theorem Rewritten.kept (hb : Placed b) (hseg : Segment b.ind) {edits : List (Edit UInt8)}
    {room : Nat} {bytes : List UInt8} {sSize : Int16} (h : Rewritten b.ind edits room bytes sSize)
    (hlow : -20 ≤ sSize.toInt) :
    Kept b.ind sSize.toInt bytes := by
  have hsize := h.size
  have hheader := hseg.header
  have hinside := hseg.inside
  have hcomplete := hseg.complete
  have hmax := hb.size
  have hv6 : ipv6DefaultSize = 40 := rfl
  have hbuf : maxBufSize = 2048 := rfl
  have hopt : noOptionLen = 8 := rfl
  have hl4 := hb.l4
  have hhigh : sSize.toInt < 2 ^ 15 := Int16.toInt_lt sSize
  rw [ipEnd_eq, hb.ip] at hinside hcomplete
  refine ⟨fun x hx hx' => h.tcpHeader hseg.tcp x hx (by omega), ?_, by omega⟩
  refine h.ipLen.trans (Int.emod_eq_of_lt ?_ ?_)
  · generalize b.ind.isIpv6 = version at hl4 hinside
    cases version <;> simp only [if_true, if_false, Bool.false_eq_true] at hl4 hinside <;> omega
  · omega

/-! ## 5. The commands -/

/-- The commands of the plug-ins that change TCP flows. -/
inductive TcpCmd (o : ParserOption) (node : FlowNode) : CMiniVMCmd → Prop
  | http : TcpCmd o node (httpProgram o node)
  | rtspIp (start : Nat) : TcpCmd o node (rtspReplaceIp o node start)
  | rtspPortIp (port : UInt16) : TcpCmd o node (rtspReplacePortIp o node port)
  | rtspPorts (port : UInt16) : TcpCmd o node (rtspReplacePorts o node port)

section Commands

variable {abi : Abi} {ntop : InetNtop} {rand : Nat →
    UInt32} {o : ParserOption} {node : FlowNode} {cmd : CMiniVMCmd}

theorem TcpCmd.pluginCmd (h : TcpCmd o node cmd) : PluginCmd o node cmd := by
  cases h with
  | http => exact .http
  | rtspIp start => exact .rtspIp start
  | rtspPortIp port => exact .rtspPortIp port
  | rtspPorts port => exact .rtspPorts port

/-- Only the control flow has programs. -/
theorem TcpPlugin.program?_cmd {plugin : TcpPlugin} {t : TracePkt}
    (h : plugin.program? o node t = some cmd) :
    t.desc.flowId = 0 ∧ TcpCmd o node cmd := by
  unfold TcpPlugin.program? Plugin.program? at h
  split at h
  · cases h
  · rename_i hflow
    refine ⟨not_not.mp hflow, ?_⟩
    cases plugin with
    | http =>
      simp only [TcpPlugin.plugin] at h
      split at h
      · cases h
        exact .http
      · cases h
    | rtsp rtp =>
      simp only [TcpPlugin.plugin, rtspProgram] at h
      split at h <;> cases h <;> constructor

/-- What is replaced has at most 31 bytes, of which 13 are written again. -/
theorem TcpCmd.growth_ge (h : TcpCmd o node cmd) (ntop : InetNtop) (rand : Nat → UInt32)
    (len : Nat) :
    -20 ≤ growth (cmd.edits ntop rand true len) := by
  cases h with
  | http =>
    simp only [httpProgram, CMiniVMCmd.edits, growth_cons, growth_nil, Edit.growth]
    omega
  | rtspIp start =>
    simp only [rtspReplaceIp, CMiniVMCmd.edits, growth_cons, growth_nil, Edit.growth]
    omega
  | rtspPortIp port =>
    simp only [rtspReplacePortIp, CMiniVMCmd.edits, growth_cons, growth_nil, Edit.growth]
    omega
  | rtspPorts port =>
    have hserver : (ascii ";server_port=").length = 13 := by decide
    simp only [rtspReplacePorts, CMiniVMCmd.edits, growth_cons, growth_nil, Edit.growth,
      List.length_append]
    omega

/-- A command that can run has its ranges in the payload. -/
theorem TcpCmd.editsIn (h : TcpCmd o node cmd)
    (hcopy : ∀ start stop, .copy start stop ∈ cmd.steps ntop rand len → start ≤ stop) :
    EditsIn len 0 (cmd.edits ntop rand false len) := by
  cases h with
  | http =>
    have hend := hcopy 34 len (by simp [httpProgram, CMiniVMCmd.steps, miniVmReplaceIp])
    simp only [httpProgram, CMiniVMCmd.edits, EditsIn]
    omega
  | rtspIp start =>
    have hend := hcopy (start + 9) len (by simp [rtspReplaceIp, CMiniVMCmd.steps, miniVmReplaceIp])
    simp only [rtspReplaceIp, CMiniVMCmd.edits, EditsIn]
    omega
  | rtspPortIp port =>
    have hend := hcopy 173 len (by simp [rtspReplacePortIp, CMiniVMCmd.steps, miniVmReplacePortIp])
    simp only [rtspReplacePortIp, CMiniVMCmd.edits, EditsIn]
    omega
  | rtspPorts port =>
    have hend := hcopy 278 len (by simp [rtspReplacePorts, CMiniVMCmd.steps, miniVmReplacePorts])
    simp only [rtspReplacePorts, CMiniVMCmd.edits, EditsIn]
    omega

/-- **A program that runs has its ranges in the payload**, and its packet is below
`MAX_BUF_SIZE`. -/
theorem inPayload_of_vm (hcmd : TcpCmd o node cmd) (hb : Placed b) (hpayload : b.ind.payloadLen ≠ 0)
    (hheaders : b.ind.payloadOffset ≤ b.ind.packet.pktLen) {info : CFlowInfo} {p : Mem}
    {r : List UInt8 × Int16} (h : doGenerateNewMbufExVm abi ntop rand b info [cmd] p = some r) :
    InPayload ntop rand b.ind cmd ∧ b.ind.packet.pktLen + cmd.addPktLen < maxBufSize := by
  have hadd := hcmd.pluginCmd.addPktLen_le
  have hsize := hb.size
  have hmax : maxBufSize = 2048 := rfl
  have hopt : noOptionLen = 8 := rfl
  have hlen : b.ind.packet.pktLen + cmd.addPktLen < 2 ^ 16 := by
    split at hadd <;> omega
  have hsmall : b.ind.packet.pktLen + cmd.addPktLen < maxBufSize := by
    by_contra hlarge
    rw [doGenerateNewMbufExVm_none abi ntop rand hpayload (Nat.not_lt.mp hlarge) hlen] at h
    cases h
  refine ⟨⟨hpayload, hheaders, hcmd.editsIn fun start stop hmem => ?_⟩, hsmall⟩
  rw [doGenerateNewMbufExVm, if_neg hpayload] at h
  obtain ⟨cmd', hhead, h⟩ := Option.bind_eq_some_iff.mp h
  obtain ⟨size, -, h⟩ := Option.bind_eq_some_iff.mp h
  obtain ⟨m, -, h⟩ := Option.bind_eq_some_iff.mp h
  obtain ⟨r', hrun, -⟩ := Option.bind_eq_some_iff.mp h
  rw [miniVmRun, List.foldlM_cons] at hrun
  obtain ⟨s, hstep, -⟩ := Option.bind_eq_some_iff.mp hrun
  obtain ⟨w, hsteps, -⟩ := Option.map_eq_some_iff.mp hstep
  rw [vmPayloadLen_eq hheaders (by omega)] at hsteps
  exact copy_le_of_runSteps hsteps hmem

end Commands

/-! ## 6. What can be made -/

/-- What a plug-in relies on: the control flow is TCP, and the packets of TCP are whole. -/
structure TcpPkt (o : ParserOption) (t : TracePkt) : Prop where
  placed : Placed t.bytes
  ipv6 : t.bytes.ind.isIpv6 = o.ipv6Enable
  control : t.desc.flowId = 0 → t.bytes.ind.proto = .tcp
  segment : t.bytes.ind.proto = .tcp → Segment t.bytes.ind

section Fits

variable (abi : Abi) (ntop : InetNtop) (rand : Nat →
    UInt32) (o : ParserOption) (node : FlowNode) (plugin : TcpPlugin)

/-- How much longer a packet gets. -/
def TcpPlugin.grow (t : TracePkt) : Int :=
  match plugin.program? o node t with
  | some cmd =>
    if t.bytes.ind.payloadLen = 0 then 0
      else growth (cmd.edits ntop rand true (payloadOf t.bytes.ind).length)
  | none => 0

/-- **A packet can be made**: its flow is one of those that the plug-in knows, the ranges of its
program are in its payload, and there is a buffer for it. -/
def TcpPlugin.Fits (t : TracePkt) : Prop :=
  t.desc.flowId < plugin.flows ∧
    match plugin.program? o node t with
    | some cmd =>
      if t.bytes.ind.payloadLen = 0 then t.bytes.ind.udpTcpOffset + 12 ≤
        firstLen t.bytes.ind.packet.pktLen
      else InPayload ntop rand t.bytes.ind cmd ∧
        t.bytes.ind.packet.pktLen + cmd.addPktLen < maxBufSize
    | none => o.ipv6Enable = true → t.bytes.ind.packet.pktLen < maxBufSize

/-- A packet without a program, that `f` rewrites. -/
def plainMbuf (b : PktBytes) (f : Mem → Mem) (p : Mem) : Option GenMbuf :=
  if o.ipv6Enable then
    if b.ind.packet.pktLen < maxBufSize
      then some (wholeMbuf (copyOf f b.ind.packet.raw p b.ind.packet.pktLen)) else none
  else some (firstMbuf b (copyOf f b.ind.packet.raw p (firstLen b.ind.packet.pktLen) ++
    b.bigMbuf.getD []))

theorem exMbuf_none (b : PktBytes) {info : CFlowInfo} (h : info.vmProgram = none) (p : Mem) :
    exMbuf abi ntop rand o b info p = plainMbuf o b (updatePktInfo2 b info 0) p := by
  simp only [exMbuf, h]
  unfold plainMbuf
  split
  · rw [doGenerateNewMbufExBig, wholePacket_map]
    split <;> rfl
  · rw [doGenerateNewMbufEx, firstSegment_map]
    rfl

variable {t : TracePkt}

theorem mbuf_of_le (h : plugin.flows ≤ t.desc.flowId) (p : Mem) :
    plugin.mbuf abi ntop rand o node t p = none := by
  cases plugin with
  | http => exact if_pos (Nat.pos_iff_ne_zero.mp h)
  | rtsp rtp =>
    simp only [TcpPlugin.mbuf, rtspMbuf]
    simp only [TcpPlugin.flows] at h
    split <;> first | omega | rfl

theorem mbuf_program {cmd : CMiniVMCmd} (h : plugin.program? o node t = some cmd) :
    ∃ info, ∀ p, plugin.mbuf abi ntop rand o node t p =
        vmMbuf abi ntop rand t.bytes info [cmd] p := by
  have hflow := (TcpPlugin.program?_cmd h).1
  unfold TcpPlugin.program? Plugin.program? at h
  rw [if_neg (not_not.mpr hflow)] at h
  cases plugin with
  | http =>
    simp only [TcpPlugin.plugin] at h
    split at h
    · rename_i hnum
      cases h
      refine ⟨controlInfo t.bytes node (some (httpProgram o node)), fun p => ?_⟩
      simp [TcpPlugin.mbuf, httpMbuf, hflow, hnum]
    · cases h
  | rtsp rtp =>
    simp only [TcpPlugin.plugin] at h
    refine ⟨controlInfo t.bytes node (some cmd), fun p => ?_⟩
    simp only [TcpPlugin.mbuf, rtspMbuf, hflow, h]
    rfl

theorem mbuf_plain (ht : TcpPkt o t) (hflow : t.desc.flowId < plugin.flows)
    (h : plugin.program? o node t = none) :
    ∃ f : Mem → Mem, (t.bytes.ind.proto = .tcp → ∀ m x, IsKept t.bytes.ind x → f m x = m x) ∧
      ∀ p, plugin.mbuf abi ntop rand o node t p = plainMbuf o t.bytes f p := by
  have hkept2 : ∀ info, t.bytes.ind.proto = .tcp → ∀ m x, IsKept t.bytes.ind x →
      updatePktInfo2 t.bytes info 0 m x = m x :=
    fun info hproto m x hx => updatePktInfo2_kept ht.placed hproto m info hx
  cases plugin with
  | http =>
    refine ⟨updatePktInfo o t.bytes node, fun hproto m x hx =>
      updatePktInfo_kept ht.placed hproto node m hx, fun p => ?_⟩
    have hflow : t.desc.flowId = 0 := Nat.lt_one_iff.mp hflow
    have hnum : t.desc.flowPktNum ≠ 3 := by
      intro hnum
      simp [TcpPlugin.program?, Plugin.program?, TcpPlugin.plugin, hflow, hnum] at h
    simp only [TcpPlugin.mbuf, httpMbuf, hflow, hnum, ne_eq, not_true_eq_false, not_false_eq_true,
      if_false, if_true]
    unfold plainMbuf
    split
    · rw [doGenerateNewMbufBig_eq]
      split <;> rfl
    · rw [doGenerateNewMbuf_eq]
      rfl
  | rtsp rtp =>
    simp only [TcpPlugin.flows] at hflow
    simp only [TcpPlugin.mbuf, rtspMbuf]
    split
    · rename_i hzero
      have hprogram : rtspProgram o node rtp t.desc.flowPktNum = none := by
        simpa [TcpPlugin.program?, Plugin.program?, TcpPlugin.plugin, hzero] using h
      exact ⟨_, hkept2 _, fun p => exMbuf_none abi ntop rand o t.bytes (by rw [hprogram]; rfl) p⟩
    · exact ⟨_, hkept2 _, fun p => exMbuf_none abi ntop rand o t.bytes rfl p⟩
    · exact ⟨_, hkept2 _, fun p => exMbuf_none abi ntop rand o t.bytes rfl p⟩
    · rename_i h0 h1 h2
      have h0 : t.desc.flowId ≠ 0 := h0
      have h1 : t.desc.flowId ≠ 1 := h1
      have h2 : t.desc.flowId ≠ 2 := h2
      omega

end Fits

section Spec

variable {abi : Abi} {ntop : InetNtop} {rand : Nat →
    UInt32} {o : ParserOption} {node : FlowNode} {plugin : TcpPlugin}
  {t : TracePkt}

/-- A packet that was made of a segment of TCP. -/
structure Made (ind : CPacketIndication) (grow : Int) (m : GenMbuf) : Prop where
  firstSeg : ind.udpTcpOffset + 12 ≤ m.firstSeg
  sSize : m.sSize.toInt = grow
  kept : Kept ind grow m.bytes

/-- In IPv4 the numbers are in the first segment. -/
theorem TcpPkt.le_firstLen (ht : TcpPkt o t) (hv4 : o.ipv6Enable = false)
    (hproto : t.bytes.ind.proto = .tcp) :
    t.bytes.ind.udpTcpOffset + 14 ≤ firstLen t.bytes.ind.packet.pktLen := by
  have hseg := ht.segment hproto
  have hheader := hseg.header
  have hinside := hseg.inside
  have hcomplete := hseg.complete
  have hl4 := ht.placed.l4_le
  have hopt : noOptionLen = 8 := rfl
  have hfirst : firstPktSize = 64 := rfl
  rw [ht.ipv6, hv4, if_neg Bool.false_ne_true] at hl4
  unfold firstLen
  split <;> omega

/-- In IPv6 they are not. -/
theorem TcpPkt.firstLen_lt (ht : TcpPkt o t) (hv6 : o.ipv6Enable = true) :
    firstLen t.bytes.ind.packet.pktLen < t.bytes.ind.udpTcpOffset + 12 := by
  have hl4 := ht.placed.l4
  have hfirst : firstPktSize = 64 := rfl
  rw [ht.ipv6, hv6, if_pos rfl] at hl4
  unfold firstLen
  split <;> omega

/-- A packet without a program. -/
theorem plainMbuf_made (ht : TcpPkt o t)
    (hf : t.bytes.ind.proto = .tcp → ∀ m x, IsKept t.bytes.ind x → f m x = m x)
    (hfits : o.ipv6Enable = true → t.bytes.ind.packet.pktLen < maxBufSize) (p : Mem) :
    ∃ m, plainMbuf o t.bytes f p = some m ∧ (t.bytes.ind.proto = .tcp → Made t.bytes.ind 0 m) := by
  unfold plainMbuf
  split
  · rename_i hv6
    refine ⟨_, if_pos (hfits hv6), fun hproto => ?_⟩
    have hseg := ht.segment hproto
    have hheader := hseg.header
    have hinside := hseg.inside
    have hcomplete := hseg.complete
    refine ⟨?_, rfl, ?_⟩
    · show _ ≤ (copyOf f t.bytes.ind.packet.raw p t.bytes.ind.packet.pktLen).length
      rw [length_copyOf]
      omega
    · have hle : t.bytes.ind.udpTcpOffset + 14 ≤ t.bytes.ind.packet.pktLen := by omega
      have hkept := kept_copyOf ht.placed (hf hproto) hle p []
      rwa [List.append_nil] at hkept
  · rename_i hv4
    refine ⟨_, rfl, fun hproto => ?_⟩
    have hle := ht.le_firstLen (Bool.not_eq_true _ ▸ hv4) hproto
    exact ⟨(Nat.add_le_add_left (by decide) _).trans hle, rfl,
      kept_copyOf ht.placed (hf hproto) hle p _⟩

/-- **A packet that fits is made**, with its header kept and its length moved. -/
theorem mbuf_of_fits (abi : Abi) (ht : TcpPkt o t) (hfits : plugin.Fits ntop rand o node t)
    (p : Mem) :
    ∃ m, plugin.mbuf abi ntop rand o node t p = some m ∧
      (t.bytes.ind.proto = .tcp → Made t.bytes.ind (plugin.grow ntop rand o node t) m) := by
  obtain ⟨hflow, hfits⟩ := hfits
  unfold TcpPlugin.grow
  cases hprogram : plugin.program? o node t with
  | none =>
    rw [hprogram] at hfits
    obtain ⟨f, hf, hmbuf⟩ := mbuf_plain abi ntop rand o node plugin ht hflow hprogram
    rw [hmbuf]
    exact plainMbuf_made ht hf hfits p
  | some cmd =>
    rw [hprogram] at hfits
    obtain ⟨hzero, hcmd⟩ := TcpPlugin.program?_cmd hprogram
    obtain ⟨info, hmbuf⟩ := mbuf_program abi ntop rand o node plugin hprogram
    have hproto := ht.control hzero
    rw [hmbuf, vmMbuf]
    by_cases hpayload : t.bytes.ind.payloadLen = 0
    · -- nothing to rewrite
      simp only [hpayload, if_true] at hfits ⊢
      have hv4 : o.ipv6Enable = false := by
        rw [← Bool.not_eq_true]
        exact fun hv6 => absurd (ht.firstLen_lt hv6) (Nat.not_lt.mpr hfits)
      rw [doGenerateNewMbufExVm, if_pos hpayload, doGenerateNewMbufEx, firstSegment_map]
      refine ⟨_, rfl, fun _ => ⟨hfits, rfl, ?_⟩⟩
      exact kept_copyOf ht.placed (fun m x hx => updatePktInfo2_kept ht.placed hproto m info hx)
        (ht.le_firstLen hv4 hproto) p _
    · simp only [hpayload, if_false] at hfits ⊢
      obtain ⟨hin, hsmall⟩ := hfits
      obtain ⟨bytes, sSize, hrun, hrew⟩ :=
        doGenerateNewMbufExVm_rewritten abi ht.placed hin hcmd.pluginCmd.spaced
        (hcmd.pluginCmd.growth_le_room ntop rand true _) hsmall info p
      rw [hrun]
      have hsize : sSize.toInt =
          growth (cmd.edits ntop rand true (payloadOf t.bytes.ind).length) := by
        have hlength := length_rewrittenPayload hin hcmd.pluginCmd.spaced
        have hpayloadLen := length_payloadOf t.bytes.ind
        have hheaders := hin.headers
        have hnew : bytes.length = t.bytes.ind.payloadOffset +
            (rewrittenPayload ntop rand t.bytes.ind cmd).length :=
          hrew.size
        rw [hrew.difference]
        omega
      refine ⟨_, rfl, fun _ => ⟨?_, hsize, ?_⟩⟩
      · have hkept := hrew.kept ht.placed (ht.segment hproto) (hsize ▸ hcmd.growth_ge ntop rand _)
        have hlong := hkept.long
        show _ ≤ bytes.length
        omega
      · rw [← hsize]
        exact hrew.kept ht.placed (ht.segment hproto) (hsize ▸ hcmd.growth_ge ntop rand _)

/-- **A packet that is made fits.** -/
theorem fits_of_mbuf (ht : TcpPkt o t) {p : Mem} {m : GenMbuf}
    (h : plugin.mbuf abi ntop rand o node t p = some m)
    (hfirst : t.desc.flowId = 0 → t.bytes.ind.udpTcpOffset + 12 ≤ m.firstSeg) :
    plugin.Fits ntop rand o node t := by
  have hflow : t.desc.flowId < plugin.flows := by
    by_contra hge
    rw [mbuf_of_le abi ntop rand o node plugin (Nat.not_lt.mp hge)] at h
    cases h
  refine ⟨hflow, ?_⟩
  cases hprogram : plugin.program? o node t with
  | none =>
    obtain ⟨f, hf, hmbuf⟩ := mbuf_plain abi ntop rand o node plugin ht hflow hprogram
    intro hv6
    rw [hmbuf, plainMbuf, if_pos hv6] at h
    split at h
    · assumption
    · cases h
  | some cmd =>
    obtain ⟨hzero, hcmd⟩ := TcpPlugin.program?_cmd hprogram
    obtain ⟨info, hmbuf⟩ := mbuf_program abi ntop rand o node plugin hprogram
    rw [hmbuf] at h
    obtain ⟨r, hrun, rfl⟩ := Option.map_eq_some_iff.mp h
    have hseg := ht.segment (ht.control hzero)
    by_cases hpayload : t.bytes.ind.payloadLen = 0
    · simp only [hpayload, if_true] at hfirst ⊢
      exact hfirst hzero
    · simp only [hpayload, if_false]
      exact inPayload_of_vm hcmd ht.placed hpayload (hseg.inside.trans hseg.complete) hrun

end Spec

end Trex.Flow
