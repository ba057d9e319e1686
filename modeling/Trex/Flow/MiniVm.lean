/-
# Rewriting payloads

The plug-ins replace addresses and ports in the payload of some packets of a template
(`bp_sim.cpp`): each has a program of one command, which `CMiniVM` runs while
`do_generate_new_mbuf_ex_vm` (`bp_sim.h`) makes the packet.

* A command is the list of what it writes behind `m_pyload_mbuf_ptr` (`Lib.Splice`): copies of
  stretches of the template, and texts.  A `memcpy` of a negative size and a write behind the buffer
  have no result;
* `inet_ntop` is a parameter, with the lengths that are documented for it (`InetNtop`);
* a program is the list of its commands up to `VM_EOP`, of which every plug-in has one;
* the packet of the template, `do_generate_new_mbuf` and the offsets are in `Flow.Packet`.
-/
import Trex.Flow.FastPath
import Trex.Lib.Splice

namespace Trex.Flow

open Trex.Lib Trex.Net Trex.Pal

/-! ## 1. Texts -/

/-- `INET_ADDRSTRLEN` -/
def inetAddrStrLen : Nat := 16

/-- `INET6_ADDRSTRLEN` -/
def inet6AddrStrLen : Nat := 46

/-- `INET_PORTSTRLEN` -/
def inetPortStrLen : Nat := 5

/-- `inet_ntop`, of an IPv4 address in host order and of the groups of an IPv6 address.  The lengths
that are documented count the zero behind the text. -/
structure InetNtop where
  v4 : UInt32 → List UInt8
  v6 : (Fin 8 → UInt16) → List UInt8
  v4_lt : ∀ ip, (v4 ip).length < inetAddrStrLen
  v6_lt : ∀ groups, (v6 groups).length < inet6AddrStrLen

/-- `ipaddr_t`: the first six groups of an IPv6 address, and an IPv4 address or the other two. -/
structure IpAddr where
  v6 : Nat → UInt16
  v4 : UInt32

/-- The characters of a text. -/
def ascii (s : String) : List UInt8 := s.toList.map fun c => UInt8.ofNat c.toNat

/-- `%u` -/
def decimal (n : Nat) : List UInt8 := (Nat.toDigits 10 n).map fun c => UInt8.ofNat c.toNat

/-- `ip_to_str` -/
def ipToStr (ntop : InetNtop) (ip : UInt32) : List UInt8 := ntop.v4 ip

/-- The groups that `ipv6_to_str` prints. -/
def IpAddr.groups (ip : IpAddr) (i : Fin 8) : UInt16 :=
  if i.val < 6 then ip.v6 i else if i.val = 6 then (ip.v4 >>> 16).toUInt16 else ip.v4.toUInt16

/-- `ipv6_to_str` -/
def ipv6ToStr (ntop : InetNtop) (ip : IpAddr) :
    List UInt8 := ascii "[" ++ ntop.v6 ip.groups ++ ascii "]"

/-- The address that a command prints, by its flag `MIN_VM_V6`. -/
def addrToStr (ntop : InetNtop) (isV6 : Bool) (ip : IpAddr) : List UInt8 :=
  if isV6 then ipv6ToStr ntop ip else ipToStr ntop ip.v4

/-! ## 2. Commands -/

/-- `CMiniVMCmdBase`; of its flags there is one. -/
structure CMiniVMCmdBase where
  isV6 : Bool
  start0 : Nat
  stop1 : Nat
  addPktLen : Nat

/-- `CMiniVMReplaceIP` -/
structure CMiniVMReplaceIP extends CMiniVMCmdBase where
  serverIp : IpAddr

/-- `CMiniVMReplaceIPWithPort` -/
structure CMiniVMReplaceIPWithPort extends CMiniVMReplaceIP where
  startPort : Nat
  stopPort : Nat
  clientPort : UInt16
  serverPort : UInt16

/-- `CMiniVMReplaceIP_IP_Port` -/
structure CMiniVMReplaceIPIPPort extends CMiniVMCmdBase where
  ip : IpAddr
  ip0Start : Nat
  ip0Stop : Nat
  ip1Start : Nat
  ip1Stop : Nat
  port : UInt16
  portStart : Nat
  portStop : Nat

/-- `CMiniVMReplaceIP_PORT_IP_IP_Port` -/
structure CMiniVMReplaceIPPortIPIPPort extends CMiniVMReplaceIPIPPort where
  ipVia : IpAddr
  portVia : UInt16
  ipViaStart : Nat
  ipViaStop : Nat

/-- `CFlowYamlDpPkt` -/
structure CFlowYamlDpPkt where
  pktId : UInt8
  pyldOffset : UInt8
  type : UInt8
  len : UInt8
  pktMask : UInt32
deriving DecidableEq, Repr

/-- `CMiniVMDynPyload` -/
structure CMiniVMDynPyload extends CMiniVMCmdBase where
  dyn : CFlowYamlDpPkt
  ip : UInt32

/-- A command of a program. -/
inductive CMiniVMCmd
  | replaceIp (cmd : CMiniVMReplaceIP)
  | replaceIpPort (cmd : CMiniVMReplaceIPWithPort)
  | replaceIpPortResponse (cmd : CMiniVMReplaceIPWithPort)
  | replaceIpIpPort (cmd : CMiniVMReplaceIPIPPort)
  | replaceIpViaIpIpPort (cmd : CMiniVMReplaceIPPortIPIPPort)
  | dynPyload (cmd : CMiniVMDynPyload)

/-- `m_add_pkt_len` -/
def CMiniVMCmd.addPktLen : CMiniVMCmd → Nat
  | .replaceIp cmd => cmd.addPktLen
  | .replaceIpPort cmd => cmd.addPktLen
  | .replaceIpPortResponse cmd => cmd.addPktLen
  | .replaceIpIpPort cmd => cmd.addPktLen
  | .replaceIpViaIpIpPort cmd => cmd.addPktLen
  | .dynPyload cmd => cmd.addPktLen

/-- `mini_vm_replace_ip`; `len` is the length of the payload. -/
def miniVmReplaceIp (ntop : InetNtop) (cmd : CMiniVMReplaceIP) (len : Nat) : List WriteStep :=
  [.copy 0 cmd.start0, .print (addrToStr ntop cmd.isV6 cmd.serverIp), .copy cmd.stop1 len]

/-- `"%u-%u"`, of a port and the next number. -/
def portRange (port : UInt16) :
    List UInt8 := decimal port.toNat ++ ascii "-" ++ decimal (port.toNat + 1)

/-- `mini_vm_replace_port_ip` -/
def miniVmReplacePortIp (ntop : InetNtop) (cmd : CMiniVMReplaceIPWithPort) (len : Nat) :
    List WriteStep :=
  [.copy 0 cmd.start0, .print (addrToStr ntop cmd.isV6 cmd.serverIp),
    -- up to the port
    .copy cmd.stop1 cmd.startPort, .print (portRange cmd.clientPort), .copy cmd.stopPort len]

/-- `mini_vm_replace_ports` -/
def miniVmReplacePorts (cmd : CMiniVMReplaceIPWithPort) (len : Nat) : List WriteStep :=
  [.copy 0 cmd.startPort, .print (portRange cmd.clientPort ++ ascii ";server_port=" ++
    portRange cmd.serverPort), .copy cmd.stopPort len]

/-- `mini_vm_replace_ip_ip_ports` -/
def miniVmReplaceIpIpPorts (ntop : InetNtop) (cmd : CMiniVMReplaceIPIPPort) (len : Nat) :
    List WriteStep :=
  [.copy 0 cmd.ip0Start, .print (addrToStr ntop cmd.isV6 cmd.ip), .copy cmd.ip0Stop cmd.ip1Start,
    .print (addrToStr ntop cmd.isV6 cmd.ip), .copy cmd.ip1Stop cmd.portStart,
      .print (decimal cmd.port.toNat),
    .copy cmd.portStop len]

/-- `p[-2] = '6'`, in front of an IPv6 address. -/
def markV6 (isV6 : Bool) : List WriteStep := if isV6 then [.patch 2 54] else []

/-- `mini_vm_replace_ip_via_ip_ip_ports` -/
def miniVmReplaceIpViaIpIpPorts (ntop : InetNtop) (cmd : CMiniVMReplaceIPPortIPIPPort) (len : Nat) :
    List WriteStep :=
  [.copy 0 cmd.ipViaStart, .print (addrToStr ntop cmd.isV6 cmd.ipVia),
    .print (ascii ":" ++ decimal cmd.portVia.toNat), .copy cmd.ipViaStop cmd.ip0Start]
    ++ markV6 cmd.isV6
    ++ [.print (addrToStr ntop cmd.isV6 cmd.ip), .copy cmd.ip0Stop cmd.ip1Start]
    ++ markV6 cmd.isV6
    ++ [.print (addrToStr ntop cmd.isV6 cmd.ip), .copy cmd.ip1Stop cmd.portStart,
      .print (decimal cmd.port.toNat), .copy cmd.portStop len]

/-- The word that is written at position `i`; `rand` are the numbers that `rand` returns.  Another
type writes nothing. -/
def dynWord (rand : Nat → UInt32) (cmd : CMiniVMDynPyload) (i : Nat) : Option Nat :=
  if cmd.dyn.type = 0 then some (rand i &&& cmd.dyn.pktMask).toNat
  else if cmd.dyn.type = 1 then some (bswap 4 cmd.ip.toNat &&& cmd.dyn.pktMask.toNat)
  else none

/-- The packet can be changed: the words end more than four bytes in front of the end of the
payload. -/
def dynFits (dyn : CFlowYamlDpPkt) (len : Nat) :
    Prop := dyn.pyldOffset.toNat + dyn.len.toNat * 4 + 4 < len

instance (dyn : CFlowYamlDpPkt) (len : Nat) : Decidable (dynFits dyn len) :=
  inferInstanceAs (Decidable (_ < _))

/-- `mini_vm_dyn_payload` -/
def miniVmDynPayload (rand : Nat → UInt32) (cmd : CMiniVMDynPyload) (len : Nat) : List WriteStep :=
  .copy 0 len ::
    if dynFits cmd.dyn len then
      (List.range cmd.dyn.len.toNat).filterMap fun i =>
        (dynWord rand cmd i).map fun word =>
          .poke (cmd.dyn.pyldOffset.toNat + 4 * i) (toBytes 4 word)
    else []

/-- What a command writes. -/
def CMiniVMCmd.steps (ntop : InetNtop) (rand : Nat → UInt32) (cmd : CMiniVMCmd) (len : Nat) :
    List WriteStep :=
  match cmd with
  | .replaceIp cmd => miniVmReplaceIp ntop cmd len
  | .replaceIpPort cmd => miniVmReplacePortIp ntop cmd len
  | .replaceIpPortResponse cmd => miniVmReplacePorts cmd len
  | .replaceIpIpPort cmd => miniVmReplaceIpIpPorts ntop cmd len
  | .replaceIpViaIpIpPort cmd => miniVmReplaceIpViaIpIpPorts ntop cmd len
  | .dynPyload cmd => miniVmDynPayload rand cmd len

/-- `pkt_len` less the offset of the payload. -/
def vmPayloadLen (ind : CPacketIndication) :
    Nat := (ind.packet.pktLen + 2 ^ 16 - ind.payloadOffset) % 2 ^ 16

/-- `m_new_pkt_size` behind a command: from where the pointer is, or the size of the template. -/
def newPktSize (ind : CPacketIndication) (w : Writer) : CMiniVMCmd → UInt16
  | .dynPyload _ => UInt16.ofNat ind.packet.pktLen
  | _ => UInt16.ofNat (w.pos + ind.payloadOffset - ind.payloadOffset)

/-- One turn of the loop of `mini_vm_run`: the buffer and `m_new_pkt_size`.  The buffer ends at
`limit`. -/
def miniVmStep (ntop : InetNtop) (rand : Nat → UInt32) (ind : CPacketIndication) (limit : Nat)
    (s : Mem × UInt16) (cmd : CMiniVMCmd) : Option (Mem × UInt16) :=
  let l7 := ind.payloadOffset
  (runSteps ind.packet.raw l7 l7 limit (cmd.steps ntop rand (vmPayloadLen ind)) ⟨s.1, l7⟩).map
      fun w =>
    (w.mem, newPktSize ind w cmd)

/-- `mini_vm_run` -/
def miniVmRun (ntop : InetNtop) (rand : Nat → UInt32) (ind : CPacketIndication) (limit : Nat)
    (cmds : List CMiniVMCmd) (m : Mem) : Option (Mem × UInt16) :=
  cmds.foldlM (miniVmStep ntop rand ind limit) (m, 0)

/-! ## 3. Packets -/

/-- `CFlowInfo`.  No program is the null pointer. -/
structure CFlowInfo where
  clientIp : UInt32
  serverIp : UInt32
  clientPort : UInt16
  serverPort : UInt16
  isInitIpDir : Bool
  isInitPortDir : Bool
  replaceServerPort : Bool
  vmProgram : Option (List CMiniVMCmd)

/-- The addresses of an IPv4 header. -/
def setIpv4Addr (m : Mem) (ip src dst : Nat) :
    Mem := (m.store (ip + 12) 4 (bswap 4 src)).store (ip + 16) 4 (bswap 4 dst)

/-- `update_pkt_info2`, in front of the ports. -/
def updateIpInfo2 (b : PktBytes) (info : CFlowInfo) (updateLen : UInt16) (m : Mem) : Mem :=
  let ip := b.ind.ipOffset
  let src := if info.isInitIpDir then info.clientIp.toNat else info.serverIp.toNat
  let dst := if info.isInitIpDir then info.serverIp.toNat else info.clientIp.toNat
  if b.ind.isIpv6 then
    let m := if updateLen = 0 then m
      else setField16 m (ip + 4) (getPayloadLen m ip + updateLen.toNat)
    updateLSBIpv6Dst (updateLSBIpv6Src m ip src) ip dst
  else
    let m := if updateLen = 0 then m
      else setField16 m (ip + 2) (getTotalLength m ip + updateLen.toNat)
    updateCheckSum (setIpv4Addr m ip src dst) ip

/-- The ports. -/
def updatePorts2 (l4 : Nat) (info : CFlowInfo) (m : Mem) : Mem :=
  if info.isInitPortDir then
    let m := setField16 m l4 info.clientPort.toNat
    if info.replaceServerPort then setField16 m (l4 + 2) info.serverPort.toNat else m
  else
    let m := setField16 m (l4 + 2) info.clientPort.toNat
    if info.replaceServerPort then setField16 m l4 info.serverPort.toNat else m

/-- `UDPHeader::getLength` -/
def getUdpLength (m : Mem) (l4 : Nat) : Nat := getField16 m (l4 + 4)

/-- `update_pkt_info2` -/
def updatePktInfo2 (b : PktBytes) (info : CFlowInfo) (updateLen : UInt16) (m : Mem) : Mem :=
  let l4 := b.ind.udpTcpOffset
  let m := updateIpInfo2 b info updateLen m
  match b.ind.proto with
  | .tcp => updatePorts2 l4 info m
  | .udp =>
    let m := setField16 m (l4 + 4) (getUdpLength m l4 + updateLen.toNat)
    updatePorts2 l4 info (setField16 m (l4 + 6) 0)

/-- A packet that is copied to the buffer `p` and rewritten there. -/
def rewriteCopy2 (b : PktBytes) (info : CFlowInfo) (p : Mem) (len : Nat) : List UInt8 :=
  (updatePktInfo2 b info 0 (p.putBytes 0 (b.ind.packet.raw.read 0 len))).read 0 len

/-- `do_generate_new_mbuf_ex` -/
def doGenerateNewMbufEx (abi : Abi) (b : PktBytes) (info : CFlowInfo) (p : Mem) :
    Option (List UInt8) :=
  let len := firstLen b.ind.packet.pktLen
  (appendTo abi firstPktSize len).map fun _ => rewriteCopy2 b info p len ++ b.bigMbuf.getD []

/-- `do_generate_new_mbuf_ex_big` -/
def doGenerateNewMbufExBig (abi : Abi) (b : PktBytes) (info : CFlowInfo) (p : Mem) :
    Option (List UInt8) :=
  let len := b.ind.packet.pktLen
  (pktmbufAlloc len).bind fun size => (appendTo abi size len).map fun _ => rewriteCopy2 b info p len

/-- `rte_pktmbuf_trim`, whose result is not looked at. -/
def trimTo (m : DataRoom) (len : Nat) : DataRoom :=
  if len > m.dataLen then m else { m with dataLen := m.dataLen - len }

/-- `do_generate_new_mbuf_ex_vm`: the packet, and `s_size`. -/
def doGenerateNewMbufExVm (abi : Abi) (ntop : InetNtop) (rand : Nat → UInt32) (b : PktBytes)
    (info : CFlowInfo) (cmds : List CMiniVMCmd) (p : Mem) : Option (List UInt8 × Int16) :=
  -- "sanity check we need to have payload"
  if b.ind.payloadLen = 0 then (doGenerateNewMbufEx abi b info p).map fun bytes => (bytes, 0)
  else do
    let cmd ← cmds.head?
    let pktLen := UInt16.ofNat b.ind.packet.pktLen
    let len := pktLen + UInt16.ofNat cmd.addPktLen
    let size ← pktmbufAlloc len.toNat
    let m ← appendTo abi size len.toNat
    let l7 := b.ind.payloadOffset
    let (p, newPktSize) ← miniVmRun ntop rand b.ind m.bufLen cmds
      (p.putBytes 0 (b.ind.packet.raw.read 0 l7))
    let m := trimTo m (len - newPktSize).toNat
    let pktAdjust := newPktSize - pktLen
    some ((updatePktInfo2 b info pktAdjust p).read 0 m.dataLen, pktAdjust.toInt16)

/-! ## 4. Plug-ins -/

/-- `CPlugin_rtsp`: the ports of the media streams. -/
structure CPluginRtsp where
  rtpClient0 : UInt16
  rtpClient1 : UInt16
deriving DecidableEq, Repr

/-- What the plug-ins fill in for a packet of the control flow. -/
def controlInfo (b : PktBytes) (node : FlowNode) (program : Option CMiniVMCmd) : CFlowInfo where
  clientIp := node.srcIp
  serverIp := node.destIp
  clientPort := node.srcPort
  serverPort := 0
  isInitIpDir := curPktIpAddrDir b node
  isInitPortDir := b.isInitSide
  replaceServerPort := false
  vmProgram := program.map fun cmd => [cmd]

/-- What they fill in for a packet of a media stream: "this is tricky". -/
def mediaInfo (b : PktBytes) (node : FlowNode) (port : UInt16) : CFlowInfo :=
  { controlInfo b node none with clientPort := port, serverPort := port, replaceServerPort := true }

/-- How much longer a packet may get by one address in the place of `size` bytes. -/
def addrRoom (isV6 : Bool) (size : Nat) :
    Nat := (if isV6 then inet6AddrStrLen + 2 else inetAddrStrLen) - size

/-- `http_plugin`: the program of packet 3. -/
def httpProgram (o : ParserOption) (node : FlowNode) : CMiniVMCmd :=
  .replaceIp {
    isV6 := o.ipv6Enable
    start0 := 26
    stop1 := 26 + 8
    addPktLen := addrRoom o.ipv6Enable 8
    serverIp := ⟨o.dstIpv6, node.destIp⟩ }

/-- A command of `rtsp_plugin` that replaces the address at `start`. -/
def rtspReplaceIp (o : ParserOption) (node : FlowNode) (start : Nat) : CMiniVMCmd :=
  .replaceIp {
    isV6 := o.ipv6Enable
    start0 := start
    stop1 := start + 9
    addPktLen := addrRoom o.ipv6Enable 9
    serverIp := ⟨o.dstIpv6, node.destIp⟩ }

/-- A command of `rtsp_plugin` that replaces an address and the ports of a request. -/
def rtspReplacePortIp (o : ParserOption) (node : FlowNode) (port : UInt16) : CMiniVMCmd :=
  .replaceIpPort {
    isV6 := o.ipv6Enable
    start0 := 13
    stop1 := 13 + 9
    addPktLen := addrRoom o.ipv6Enable 9 + (inetPortStrLen * 2 - 8)
    serverIp := ⟨o.dstIpv6, node.destIp⟩
    startPort := 164
    stopPort := 164 + 4 * 2 + 1
    clientPort := port
    serverPort := 0 }

/-- A command of `rtsp_plugin` that replaces the ports of a response. -/
def rtspReplacePorts (o : ParserOption) (node : FlowNode) (port : UInt16) : CMiniVMCmd :=
  .replaceIpPortResponse {
    isV6 := false
    start0 := 0
    stop1 := 0
    addPktLen := inetPortStrLen * 4 - 16
    serverIp := ⟨o.dstIpv6, node.destIp⟩
    startPort := 247
    stopPort := 247 + 4 * 4 + 2 + 13
    clientPort := port
    serverPort := port }

/-- `rtsp_plugin`: the program of a packet of the control flow. -/
def rtspProgram (o : ParserOption) (node : FlowNode) (rtp : CPluginRtsp) : Nat → Option CMiniVMCmd
  | 3 => some (rtspReplaceIp o node 16)
  | 4 => some (rtspReplaceIp o node 46)
  | 5 => some (rtspReplacePortIp o node rtp.rtpClient0)
  | 6 => some (rtspReplacePorts o node rtp.rtpClient0)
  | 7 => some (rtspReplacePortIp o node rtp.rtpClient1)
  | 8 => some (rtspReplacePorts o node rtp.rtpClient1)
  | 9 => some (rtspReplaceIp o node 12)
  | 12 => some (rtspReplaceIp o node 15)
  | 15 => some (rtspReplaceIp o node 15)
  | 18 => some (rtspReplaceIp o node 16)
  | _ => none

/-- A command of `sip_voice_plugin`, by the address that it prints twice and where. -/
def sipReplace (o : ParserOption) (node : FlowNode) (rtp : CPluginRtsp) (ip : IpAddr)
    (via ip0Start ip1Start size portStart : Nat) : CMiniVMCmd :=
  .replaceIpViaIpIpPort {
    isV6 := o.ipv6Enable
    start0 := 0
    stop1 := 0
    addPktLen := addrRoom o.ipv6Enable 9 * 3 + (inetPortStrLen * 2 - 9)
    ip := ip
    ip0Start := ip0Start
    ip0Stop := ip0Start + size
    ip1Start := ip1Start
    ip1Stop := ip1Start + size
    port := rtp.rtpClient0
    portStart := portStart
    portStop := portStart + 5
    ipVia := ⟨o.srcIpv6, node.srcIp⟩
    portVia := node.srcPort
    ipViaStart := via
    ipViaStop := via + 9 + 5 }

/-- `sip_voice_plugin`: the program of a packet of the control flow. -/
def sipProgram (o : ParserOption) (node : FlowNode) (rtp : CPluginRtsp) : Nat → Option CMiniVMCmd
  | 0 => some (sipReplace o node rtp ⟨o.srcIpv6, node.srcIp⟩ 208 377 409 9 435)
  | 1 => some (sipReplace o node rtp ⟨o.dstIpv6, node.destIp⟩ 207 370 401 8 426)
  | _ => none

/-- `dyn_pyload_plugin`: the last program of the template for the packet. -/
def dynProgram (programs : List CFlowYamlDpPkt) (node : FlowNode) (pktNum : Nat) :
    Option CMiniVMCmd :=
  if pktNum < 253 then
    (programs.reverse.find? fun dyn => dyn.pktId.toNat == pktNum).map fun dyn =>
      .dynPyload { isV6 := false, start0 := 0, stop1 := 0, addPktLen := inetAddrStrLen - 8, dyn,
                   ip := node.srcIp }
  else none

/-- `m_plugin_id`, with what the plug-in keeps for the flow or the template. -/
inductive Plugin
  | http
  | rtsp (rtp : CPluginRtsp)
  | sipVoice (rtp : CPluginRtsp)
  | dynPyload (programs : List CFlowYamlDpPkt)

/-- The program that a plug-in has for a packet of a flow.  IPv6 with `dyn_pyload` ends the program,
and so does a second flow with `http` or `dyn_pyload`. -/
def Plugin.program? (plugin : Plugin) (o : ParserOption) (node : FlowNode) (flowId pktNum : Nat) :
    Option CMiniVMCmd :=
  if flowId ≠ 0 then none
  else
    match plugin with
    | .http => if pktNum = 3 then some (httpProgram o node) else none
    | .rtsp rtp => rtspProgram o node rtp pktNum
    | .sipVoice rtp => sipProgram o node rtp pktNum
    | .dynPyload programs => if o.ipv6Enable then none else dynProgram programs node pktNum

end Trex.Flow
