/-
# The bytes of a template packet

A packet of a capture file is parsed (`CPacketIndication::ProcessPacket`), copied to a
`CFlowPktInfo`, and, as the first packet of a template in learn mode, gets room for an option
(`mask_as_learn`, `bp_sim.cpp`).  What is behind the first `FIRST_PKT_SIZE` bytes is kept in a
constant mbuf that the packets of all flows share.

A packet is then made in one of two ways (`bp_sim.h`): `do_generate_new_mbuf` copies and rewrites
the first bytes and chains the constant mbuf, `do_generate_new_mbuf_big` copies and rewrites all of
them.

* a packet is a `Mem` and a length; what is behind the length is what the buffer held before;
* `none` is a packet that is not loaded: the program skips it, exits, fails an assertion, or (in
  `ConvertPacketToIpv6InPlace`) writes behind its buffer;
* the flow table and the numbers of a packet are in `Flow.Template`; the checksum of the header is
  in `Net.IpHeader`, the sizes of the mbufs are in `Pal.Pools`;
* `m_payload` is `payloadOffset`.  Every socket that is in use holds an equal constant mbuf, so
  there is one.
-/
import Trex.Flow.Template
import Trex.Net.IpHeader
import Trex.Pal.Pools

namespace Trex.Flow

open Trex.Lib Trex.Net Trex.Pal

/-! ## 1. Headers -/

/-- `CCapPktRaw` -/
structure CCapPktRaw where
  raw : Mem
  pktLen : Nat

/-- `MAX_PKT_SIZE` -/
def maxPktSize : Nat := 2048

/-- A 16-bit field in network order. -/
def getField16 (m : Mem) (a : Nat) : Nat := bswap 2 (m.load a 2)

def setField16 (m : Mem) (a n : Nat) : Mem := m.store a 2 (bswap 2 n)

def setField8 (m : Mem) (a n : Nat) : Mem := m.store a 1 n

/-- `IPHeader::DefaultSize` -/
def ipv4DefaultSize : Nat := 20

/-- `IPv6Header::DefaultSize`, which is what its `getHeaderLength` returns. -/
def ipv6DefaultSize : Nat := 40

/-- `getVersion` of both headers. -/
def getVersion (m : Mem) (ip : Nat) : Nat := (m ip).toNat / 16

/-- `IPHeader::getTotalLength` -/
def getTotalLength (m : Mem) (ipv4 : Nat) : Nat := getField16 m (ipv4 + 2)

/-- `IPHeader::setHeaderLength` -/
def setHeaderLength (m : Mem) (ipv4 len : Nat) : Mem :=
  setField8 m ipv4 ((m ipv4).toNat / 16 * 16 + len / 4 % 16)

/-- `IPHeader::getFragmentOffset` -/
def getFragmentOffset (m : Mem) (ipv4 : Nat) : Nat := getField16 m (ipv4 + 6) % 0x2000 * 8

/-- `IPHeader::isMoreFragments` -/
def isMoreFragments (m : Mem) (ipv4 : Nat) : Bool := (getField16 m (ipv4 + 6)).testBit 13

/-- `IPHeader::isNotFirstFragment`: it is fragmented and not the first fragment. -/
def isNotFirstFragment (m : Mem) (ipv4 : Nat) : Bool :=
  (getFragmentOffset m ipv4 != 0 || isMoreFragments m ipv4) &&
    !(getFragmentOffset m ipv4 == 0 && isMoreFragments m ipv4)

/-- `IPv6Header::getPayloadLen` -/
def getPayloadLen (m : Mem) (ipv6 : Nat) : Nat := getField16 m (ipv6 + 4)

/-- `updateLSBIpv6Src` -/
def updateLSBIpv6Src (m : Mem) (ipv6 ip : Nat) : Mem := m.store (ipv6 + 20) 4 (bswap 4 ip)

/-- `updateLSBIpv6Dst` -/
def updateLSBIpv6Dst (m : Mem) (ipv6 ip : Nat) : Mem := m.store (ipv6 + 36) 4 (bswap 4 ip)

/-- `updateMSBIpv6Src` and `updateMSBIpv6Dst`: six groups of the address at `a`. -/
def updateMSBIpv6 (m : Mem) (a : Nat) (groups : Nat → UInt16) : Mem :=
  (List.range 6).foldl (fun m i => setField16 m (a + 2 * i) (groups i).toNat) m

/-! ## 2. The parser -/

/-- The options that the parser and the rewriter read. -/
structure ParserOption where
  ipv6Enable : Bool
  learnMode : Bool
  srcIpv6 : Nat → UInt16
  dstIpv6 : Nat → UInt16

/-- `parse_options` (`main_dpdk.cpp`): "--learn mode is not supported with --ipv6". -/
def ParserOption.isAdmitted (o : ParserOption) : Bool := !(o.learnMode && o.ipv6Enable)

inductive L4
  | tcp
  | udp
deriving DecidableEq, Repr

/-- `CFlowKey`.  `m_l2_proto` and `m_vrfid` are always 0. -/
structure CFlowKey where
  ipaddr1 : Nat
  ipaddr2 : Nat
  port1 : Nat
  port2 : Nat
  ipProto : UInt8
deriving DecidableEq, Repr

/-- `CPacketIndication`.  `isSwapTuple` is the flag of its descriptor. -/
structure CPacketIndication where
  packet : CCapPktRaw
  isIpv6 : Bool
  proto : L4
  etherOffset : Nat
  ipOffset : Nat
  udpTcpOffset : Nat
  payloadOffset : Nat
  payloadLen : Nat
  packetPadding : Nat
  flowKey : CFlowKey
  isSwapTuple : Bool

/-- A 32-bit field in network order. -/
def getField32 (m : Mem) (a : Nat) : Nat := bswap 4 (m.load a 4)

/-- `getSourceIp`, or the last two groups of `getSourceIpv6`. -/
def getSourceIp (m : Mem) (isIpv6 : Bool) (ip : Nat) :
    Nat := getField32 m (ip + if isIpv6 then 20 else 12)

/-- `getDestIp`, or the last two groups of `getDestIpv6`. -/
def getDestIp (m : Mem) (isIpv6 : Bool) (ip : Nat) :
    Nat := getField32 m (ip + if isIpv6 then 36 else 16)

/-- `getProtocol`, or `getNextHdr`. -/
def getIpProto (m : Mem) (isIpv6 : Bool) (ip : Nat) : UInt8 := m (ip + if isIpv6 then 6 else 9)

/-- `SetKey`: the key, and whether `SetSwapTuple` is called.  Both kinds of L4 header start with the
ports. -/
def setKey (m : Mem) (isIpv6 : Bool) (ip l4 : Nat) : CFlowKey × Bool :=
  let ipSrc := getSourceIp m isIpv6 ip
  let ipDst := getDestIp m isIpv6 ip
  let srcPort := getField16 m l4
  let dstPort := getField16 m (l4 + 2)
  let ipProto := getIpProto m isIpv6 ip
  if ipSrc > ipDst then ({ ipaddr1 := ipDst, ipaddr2 := ipSrc, port1 := dstPort, port2 := srcPort,
                           ipProto }, false)
  else ({ ipaddr1 := ipSrc, ipaddr2 := ipDst, port1 := srcPort, port2 := dstPort, ipProto }, true)

/-- `UpdatePacketPadding`, for a packet of `pktLen` bytes: it reads the total length of an IPv4
header. -/
def updatePacketPadding (m : Mem) (pktLen ip : Nat) : Nat :=
  (pktLen + 2 ^ 17 - (getTotalLength m ip + ip)) % 2 ^ 16

/-- The `switch` on the protocol of a header: IP or IPv6 behind it, anything else is not
supported. -/
def l3Of (protocol offset : Nat) : Option (Nat × Bool) :=
  if protocol = 0x0800 then some (offset, false)
  else if protocol = 0x86DD then some (offset, true)
  else none

/-- Where the IP header is, and whether it is IPv6. -/
def findL3 (m : Mem) : Option (Nat × Bool) :=
  if getField16 m 12 = 0x8100 then l3Of (getField16 m 16) 18 else l3Of (getField16 m 12) 14

/-- The header that `ConvertPacketToIpv6InPlace` makes from the IPv4 header. -/
def ipv6HeaderOf (m : Mem) (ipv4 pLen : Nat) : List UInt8 :=
  [0x60, 0, 0, 0] ++ (toBytes 2 pLen).reverse ++ [m (ipv4 + 9), 64] ++
    List.replicate 12 0 ++ m.read (ipv4 + 12) 4 ++ List.replicate 12 0 ++ m.read (ipv4 + 16) 4

/-- `ConvertPacketToIpv6InPlace` -/
def convertPacketToIpv6InPlace (pkt : CCapPktRaw) (offset : Nat) : Option CCapPktRaw :=
  let total := getTotalLength pkt.raw offset
  let header := getHeaderLength pkt.raw offset
  if total < header then none
  else
    let pLen := total - header
    if offset + ipv6DefaultSize + pLen > maxPktSize then none
    else some {
      raw := ((pkt.raw.putBytes 12 [0x86, 0xDD]).putBytes offset
        (ipv6HeaderOf pkt.raw offset pLen)).putBytes
        (offset + ipv6DefaultSize) (pkt.raw.read (offset + header) pLen)
      pktLen := offset + ipv6DefaultSize + pLen }

/-- `ProcessIpPacketProtocol`: the transport protocol, and where its payload is. -/
def processIpPacketProtocol (pkt : CCapPktRaw) (protocol offset : Nat) : Option (L4 × Nat) :=
  if protocol = 6 then
    let payload := offset + (pkt.raw (offset + 12)).toNat / 16 * 4
    if payload > pkt.pktLen then none else some (.tcp, payload)
  else if protocol = 17 then
    if offset + 8 > pkt.pktLen then none else some (.udp, offset + 8)
  else none

/-- The length of a packet without what is behind the IP packet, but not below 60. -/
def paddedLen (len : Nat) : Nat := if len < 60 then 60 else len

/-- `ProcessIpPacket` -/
def processIpPacket (pkt : CCapPktRaw) (offset : Nat) : Option CPacketIndication :=
  let m := pkt.raw
  let header := getHeaderLength m offset
  if getVersion m offset ≠ 4 then none
  else if getTotalLength m offset + offset > pkt.pktLen then none
  else if header + offset > pkt.pktLen then none
  else if m (offset + 8) = 0 then none
  else if isNotFirstFragment m offset then none
  else
    match processIpPacketProtocol pkt (m (offset + 9)).toNat (offset + header) with
    | none => none
    | some (proto, payload) =>
      if payload - offset > getTotalLength m offset then none
      else if pkt.pktLen > maxBufSize - firstPktSize then none
      else
        let pktLen := paddedLen (getTotalLength m offset + offset)
        let key := setKey m false offset (offset + header)
        some {
          packet := { raw := m, pktLen }
          isIpv6 := false, proto, etherOffset := 0, ipOffset := offset, udpTcpOffset :=
            offset + header
          payloadOffset := payload
          payloadLen := getTotalLength m offset - (payload - offset)
          packetPadding := updatePacketPadding m pktLen offset
          flowKey := key.1
          isSwapTuple := key.2 }

/-- `ProcessIpv6Packet` -/
def processIpv6Packet (o : ParserOption) (pkt : CCapPktRaw) (offset : Nat) :
    Option CPacketIndication :=
  if getVersion pkt.raw offset ≠ 6 then none
  else if getPayloadLen pkt.raw offset + offset + ipv6DefaultSize > pkt.pktLen then none
  else
    let m := updateMSBIpv6 (updateMSBIpv6 pkt.raw (offset + 8) o.srcIpv6) (offset + 24) o.dstIpv6
    match processIpPacketProtocol { pkt with raw := m } (m (offset + 6)).toNat
        (offset + ipv6DefaultSize) with
    | none => none
    | some (proto, payload) =>
      let realPktSize := getPayloadLen m offset + offset + ipv6DefaultSize
      let key := setKey m true offset (offset + ipv6DefaultSize)
      some {
        packet := { raw := m, pktLen := paddedLen realPktSize }
        isIpv6 := true, proto, etherOffset := 0, ipOffset := offset
        udpTcpOffset := offset + ipv6DefaultSize
        payloadOffset := payload
        payloadLen := getPayloadLen m offset
        packetPadding := paddedLen realPktSize - realPktSize
        flowKey := key.1
        isSwapTuple := key.2 }

/-- `CPacketIndication::ProcessPacket`.  An IPv6 packet without `--ipv6` ends the program. -/
def processPacket (o : ParserOption) (pkt : CCapPktRaw) : Option CPacketIndication :=
  match findL3 pkt.raw with
  | none => none
  | some (offset, true) => if o.ipv6Enable then processIpv6Packet o pkt offset else none
  | some (offset, false) =>
    if 14 + 20 > pkt.pktLen then none
    else if o.ipv6Enable then
      (convertPacketToIpv6InPlace pkt offset).bind fun pkt' => processIpv6Packet o pkt' offset
    else processIpPacket pkt offset

/-- `TTL_RESERVE_DUPLICATE` -/
def ttlReserveDuplicate : Nat := 0xff

/-- `getTTL` -/
def getTTL (ind : CPacketIndication) : Nat :=
  if ind.isIpv6 then (ind.packet.raw (ind.ipOffset + 7)).toNat
    else (ind.packet.raw (ind.ipOffset + 8)).toNat

/-- `setTTL` -/
def setTTL (ind : CPacketIndication) (ttl : Nat) : CPacketIndication :=
  let m := ind.packet.raw
  { ind with packet.raw :=
      if ind.isIpv6 then setField8 m (ind.ipOffset + 7) ttl
      else updateCheckSum (setField8 m (ind.ipOffset + 8) ttl) ind.ipOffset }

/-- `load_cap_file`: "check that we don't have reserve TTL for duplication". -/
def freeReservedTTL (ind : CPacketIndication) : CPacketIndication :=
  if getTTL ind = ttlReserveDuplicate ∨ getTTL ind = ttlReserveDuplicate - 1 then
    setTTL ind (ttlReserveDuplicate - 4)
  else ind

/-! ## 3. The packet of the template -/

/-- What `CFlowPktInfo` holds of a packet: its bytes with their offsets, and the constant mbuf. -/
structure PktBytes where
  ind : CPacketIndication
  isInitSide : Bool
  isLearn : Bool := false
  bigMbuf : Option (List UInt8)

/-- An mbuf of a pool of `size` bytes, with `len` bytes appended. -/
def appendTo (abi : Abi) (size len : Nat) : Option DataRoom :=
  (rtePktmbufAlloc abi (mempoolCreate abi size)).bind fun m => rtePktmbufAppend m len

/-- `alloc_const_mbuf` -/
def allocConstMbuf (abi : Abi) (pkt : CCapPktRaw) : Option (Option (List UInt8)) :=
  if pkt.pktLen > firstPktSize then
    let pktS := pkt.pktLen - firstPktSize
    (pktmbufAlloc pktS).bind fun size =>
      (appendTo abi size pktS).map fun _ => some (pkt.raw.read firstPktSize pktS)
  else some none

/-- `CFlowPktInfo::Create`, with the assertion of the copy of `CCapPktRaw`. -/
def PktBytes.create (abi : Abi) (ind : CPacketIndication) (isInitSide : Bool) : Option PktBytes :=
  if 0 < ind.packet.pktLen ∧ ind.packet.pktLen < maxPktSize then
    (allocConstMbuf abi ind.packet).map fun bigMbuf => { ind, isInitSide, bigMbuf }
  else none

/-- `is_valid_template_load_time`, for one packet. -/
def isValidTemplateLoadTime (ind : CPacketIndication) : Bool :=
  ind.etherOffset == 0 && ind.ipOffset == 14 &&
    (if ind.isIpv6 then ind.udpTcpOffset == 14 + 40 else ind.udpTcpOffset == 14 + 20)

/-- `CCapPktRaw::append` and the `memmove`: `bytes` bytes are inserted at `pos`. -/
def insertBytes (pkt : CCapPktRaw) (pos bytes : Nat) : CCapPktRaw :=
  let pktLen := pkt.pktLen + bytes
  { raw := pkt.raw.putBytes (pos + bytes) (pkt.raw.read pos (pktLen - pos - bytes)), pktLen }

/-- The end of both `push_…_option_offline`: the offsets move, the padding is computed and the
constant mbuf is made again. -/
def PktBytes.refresh (abi : Abi) (b : PktBytes) (packet : CCapPktRaw) (bytes : Nat) :
    Option PktBytes :=
  (allocConstMbuf abi packet).map fun bigMbuf =>
    { b with
      ind := { b.ind with
        packet
        udpTcpOffset := b.ind.udpTcpOffset + bytes
        payloadOffset := b.ind.payloadOffset + bytes
        packetPadding := updatePacketPadding packet.raw packet.pktLen b.ind.ipOffset }
      bigMbuf }

/-- `push_ipv4_option_offline` -/
def pushIpv4OptionOffline (abi : Abi) (b : PktBytes) (bytes : Nat) : Option PktBytes :=
  let ip := b.ind.ipOffset
  if getHeaderLength b.ind.packet.raw ip + bytes > 60 then none
  else
    let pkt := insertBytes b.ind.packet (ip + ipv4DefaultSize) bytes
    let m := setField16 pkt.raw (ip + 2) (getTotalLength pkt.raw ip + bytes)
    let m := setHeaderLength m ip (getHeaderLength m ip + bytes)
    b.refresh abi { pkt with raw := m } bytes

/-- `push_ipv6_option_offline` -/
def pushIpv6OptionOffline (abi : Abi) (b : PktBytes) (bytes : Nat) : Option PktBytes :=
  let ip := b.ind.ipOffset
  let pkt := insertBytes b.ind.packet (ip + ipv6DefaultSize) bytes
  let m := setField16 pkt.raw (ip + 4) (getPayloadLen pkt.raw ip + bytes)
  let m := setField8 m (ip + ipv6DefaultSize) (m (ip + 6)).toNat
  let m := setField8 m (ip + 6) 0x3C
  b.refresh abi { pkt with raw := m } bytes

/-- `CNatOption::noOPTION_LEN` -/
def noOptionLen : Nat := 8

/-- `CNatOption::noIPV4_MAGIC` and `noIPV4_MAGIC_RX`. -/
def noIpv4Magic (rxCheck : Bool) : Nat := if rxCheck then 0xED else 0xEE

/-- `mask_as_learn`, from the push of the option on: the option of a packet without a flow. -/
def initOption (b : PktBytes) : Mem :=
  let ip := b.ind.ipOffset
  let m := b.ind.packet.raw
  if b.ind.isIpv6 then
    let opt := ip + ipv6DefaultSize
    let m := setField8 (setField8 m (opt + 1) (noOptionLen / 8 - 1)) (opt + 2) (noIpv4Magic false)
    setField8 (m.store (opt + 4) 4 0) (opt + 3) 0
  else
    let opt := ip + ipv4DefaultSize
    let m := setField8 (setField8 (setField8 m opt 0x10) (opt + 1) noOptionLen) (opt + 2)
      (noIpv4Magic false)
    updateCheckSum (setField8 (m.store (opt + 4) 4 0) (opt + 3) 0) ip

/-- `mask_as_learn` -/
def maskAsLearn (abi : Abi) (b : PktBytes) : Option PktBytes :=
  (if b.ind.isIpv6 then pushIpv6OptionOffline abi b noOptionLen
    else pushIpv4OptionOffline abi b noOptionLen).map fun b' =>
    { b' with ind := { b'.ind with packet.raw := initOption b' }, isLearn := true }

/-- `update_info`: the first packet is marked, in learn mode and when its flow has both
directions. -/
def isMarked (o : ParserOption) (i : Nat) (desc : CPacketDescriptor) : Bool :=
  o.learnMode && i == 0 && desc.isBiDirectionalFlow

/-- The packet at position `i` of a template, from `load_cap_file` to `update_info`. -/
def loadPacket (abi : Abi) (o : ParserOption) (i : Nat) (desc : CPacketDescriptor)
    (pkt : CCapPktRaw) :
    Option PktBytes :=
  (processPacket o pkt).bind fun ind =>
    (PktBytes.create abi (freeReservedTTL ind) desc.isInitSide).bind fun b =>
      if isValidTemplateLoadTime b.ind then
        if isMarked o i desc then maskAsLearn abi b else some b
      else none

/-! ## 4. The packet of a flow -/

/-- What `update_pkt_info` reads of a `CGenNode`. -/
structure FlowNode where
  srcIp : UInt32
  destIp : UInt32
  srcPort : UInt16
  natIpv4Addr : UInt32
  natIpv4AddrServer : UInt32
  natIpv4Port : UInt16
  shortFid : UInt32
  threadId : UInt8
  isRxCheckEnabled : Bool
  /-- `get_is_initiator_start_from_server_with_server_addr` -/
  initFromServer : Bool

/-- `cur_pkt_ip_addr_dir() == CLIENT_SIDE` -/
def curPktIpAddrDir (b : PktBytes) (node : FlowNode) : Bool := b.isInitSide ^^ node.initFromServer

/-- The addresses of an IPv6 packet. -/
def updateIpv6Addr (b : PktBytes) (node : FlowNode) (m : Mem) : Mem :=
  let ip := b.ind.ipOffset
  if curPktIpAddrDir b node then
    updateLSBIpv6Dst (updateLSBIpv6Src m ip node.srcIp.toNat) ip node.destIp.toNat
  else updateLSBIpv6Dst (updateLSBIpv6Src m ip node.destIp.toNat) ip node.srcIp.toNat

/-- The option of a learn packet. -/
def updateNatOption (b : PktBytes) (node : FlowNode) (m : Mem) : Mem :=
  let ip := b.ind.ipOffset
  if b.isLearn then
    let opt := ip + ipv4DefaultSize
    let m := setField8 m (ip + 8) ttlReserveDuplicate
    let m := setField8 (m.store (opt + 4) 4 node.shortFid.toNat) (opt + 3) node.threadId.toNat
    setField8 m (opt + 2) (noIpv4Magic node.isRxCheckEnabled)
  else m

/-- The addresses of an IPv4 packet: in learn mode a packet of the server has those that were
learned. -/
def updateIpv4Addr (o : ParserOption) (b : PktBytes) (node : FlowNode) (m : Mem) : Mem :=
  let ip := b.ind.ipOffset
  if o.learnMode then
    let m := updateNatOption b node m
    if b.isInitSide then updateIpDst (updateIpSrc m ip node.srcIp.toNat) ip node.destIp.toNat
    else updateIpDst (updateIpSrc m ip node.natIpv4AddrServer.toNat) ip node.natIpv4Addr.toNat
  else if curPktIpAddrDir b node then
    updateIpDst (updateIpSrc m ip node.srcIp.toNat) ip node.destIp.toNat
  else updateIpDst (updateIpSrc m ip node.destIp.toNat) ip node.srcIp.toNat

/-- The port of the client. -/
def clientPort (o : ParserOption) (b : PktBytes) (node : FlowNode) : UInt16 :=
  if !b.ind.isIpv6 && o.learnMode && !b.isInitSide then node.natIpv4Port else node.srcPort

/-- The port, and the checksum of a UDP packet. -/
def updatePort (b : PktBytes) (port : UInt16) (m : Mem) : Mem :=
  let l4 := b.ind.udpTcpOffset
  let m := match b.ind.proto with
    | .tcp => m
    | .udp => setField16 m (l4 + 6) 0
  if b.isInitSide then setField16 m l4 port.toNat else setField16 m (l4 + 2) port.toNat

/-- `update_pkt_info` -/
def updatePktInfo (o : ParserOption) (b : PktBytes) (node : FlowNode) (m : Mem) : Mem :=
  let m := if b.ind.isIpv6 then updateIpv6Addr b node m
    else updateCheckSum (updateIpv4Addr o b node m) b.ind.ipOffset
  updatePort b (clientPort o b node) m

/-- A packet that is copied to the buffer `p` and rewritten there. -/
def rewriteCopy (o : ParserOption) (b : PktBytes) (node : FlowNode) (p : Mem) (len : Nat) :
    List UInt8 :=
  (updatePktInfo o b node (p.putBytes 0 (b.ind.packet.raw.read 0 len))).read 0 len

/-- The length of the first segment. -/
def firstLen (pktLen : Nat) : Nat := if pktLen > firstPktSize then firstPktSize else pktLen

/-- `do_generate_new_mbuf`: the bytes of the packet.  `p` is what the mbuf held before. -/
def doGenerateNewMbuf (abi : Abi) (o : ParserOption) (b : PktBytes) (node : FlowNode) (p : Mem) :
    Option (List UInt8) :=
  let len := firstLen b.ind.packet.pktLen
  (appendTo abi firstPktSize len).map fun _ => rewriteCopy o b node p len ++ b.bigMbuf.getD []

/-- `do_generate_new_mbuf_big` -/
def doGenerateNewMbufBig (abi : Abi) (o : ParserOption) (b : PktBytes) (node : FlowNode) (p : Mem) :
    Option (List UInt8) :=
  let len := b.ind.packet.pktLen
  (pktmbufAlloc len).bind fun size => (appendTo abi size len).map fun _ =>
    rewriteCopy o b node p len

end Trex.Flow
