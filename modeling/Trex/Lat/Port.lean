/-
# The latency ports

`CLatencyManager` (`latency.cpp`, `latency.h`): every port sends a latency packet a round, to the
other port of its pair, and checks those it gets.

* a packet carries two numbers: `seq` in the latency header, which every mode counts, and the
  sequence number of the ICMP header, which the ICMP modes count (`CLatencyPktModeICMP`);
* `RxPacket` is what `check_packet` reads of a packet: what `CSimplePacketParser` finds in it, and
  the fields at the offsets of the ICMP header and of the latency header;
* the histogram, the jitter and the reports are not modelled, and the checksum of the ICMP header is
  left out: nothing here reads them.  The counters are natural numbers.
-/
import Trex.Flow.Packet
import Trex.Rx.Check

namespace Trex.Lat

open Trex.Rx (rxCheckLen)
open Trex.Flow (noOptionLen)

/-! ## 1. Modes -/

/-- `L_PKT_SUBMODE_REPLY` -/
def lPktSubmodeReply : UInt8 := 2

/-- `L_PKT_SUBMODE_0_SEQ` -/
def lPktSubmode0Seq : UInt8 := 3

/-- The options that the latency code reads: `m_l_pkt_mode`, `is_learn_mode`,
`get_is_rx_check_mode`. -/
structure LatencyOptions where
  lPktMode : UInt8
  learnMode : Bool
  rxCheckMode : Bool
deriving DecidableEq, Repr

/-- The fields of an `ICMPHeader` that the latency code reads and writes. -/
structure ICMPHeader where
  type : UInt8
  seqNum : UInt16
deriving DecidableEq, Repr

/-- `CLatencyPktMode`: its two classes, with `m_submode`. -/
inductive CLatencyPktMode
  | sctp (submode : UInt8)
  | icmp (submode : UInt8)
deriving DecidableEq, Repr

namespace CLatencyPktMode

/-- The `switch` of `CLatencyManager::Create`. -/
def ofOptions (o : LatencyOptions) : CLatencyPktMode :=
  if o.lPktMode = 1 ∨ o.lPktMode = 2 ∨ o.lPktMode = 3 then .icmp o.lPktMode else .sctp o.lPktMode

def getProtocol : CLatencyPktMode → UInt8
  | sctp _ => 0x84
  | icmp _ => 0x1

/-- `getPacketLen`: `sizeof(sctp_pkt)`, `sizeof(icmp_pkt)`. -/
def getPacketLen : CLatencyPktMode → Nat
  | sctp _ => 62
  | icmp _ => 62

/-- The bytes of `getPacketData` that an `ICMPHeader` covers. -/
def getPacketData : CLatencyPktMode → ICMPHeader
  | sctp _ => ⟨0x80, 0⟩
  | icmp _ => ⟨0x08, 0⟩

/-- `update_pkt`: the header, and `*tx_seq` behind it. -/
def updatePkt (isClientToServer : Bool) (txSeq : UInt16) :
    CLatencyPktMode → ICMPHeader → ICMPHeader × UInt16
  | sctp _, pkt => (pkt, txSeq)
  | icmp submode, _ =>
    let type := if !isClientToServer && submode == lPktSubmodeReply then 0 else 8
    if submode = lPktSubmode0Seq then (⟨type, 0⟩, txSeq) else (⟨type, txSeq⟩, txSeq + 1)

/-- `update_recv`: `*r_seq` and `*t_seq` behind it.  A zero is the number of a request that wrapped
around. -/
def updateRecv (pkt : ICMPHeader) (rSeq tSeq : UInt16) : CLatencyPktMode → UInt16 × UInt16
  | sctp _ => (rSeq, tSeq)
  | icmp _ => (pkt.seqNum, if pkt.seqNum = 0 then 0 else tSeq)

end CLatencyPktMode

/-! ## 2. Packets -/

/-- `LATENCY_MAGIC` -/
def latencyMagic : UInt32 := 0x12345600

/-- `latency_header` -/
structure LatencyHeader where
  timeStamp : UInt64
  magic : UInt32
  seq : UInt32
deriving DecidableEq, Repr

/-- A latency packet as it is sent. -/
structure LatencyPkt where
  srcIp : UInt32
  dstIp : UInt32
  icmp : ICMPHeader
  header : LatencyHeader
deriving DecidableEq, Repr

/-- `CLatencyPktInfo` -/
structure CLatencyPktInfo where
  clientIp : UInt32
  serverIp : UInt32
  dualPortMask : UInt32
deriving DecidableEq, Repr

/-- `CLatencyPktInfo::generate_pkt`: the template with the addresses of the port.  The latency
header is what `update_packet` overwrites. -/
def CLatencyPktInfo.generatePkt (info : CLatencyPktInfo) (mode : CLatencyPktMode) (portId : Nat)
    (externIp : UInt32) : LatencyPkt :=
  let isClientToServer := portId % 2 == 0
  let mask := UInt32.ofNat (portId / 2) * info.dualPortMask
  let client := if externIp ≠ 0 then externIp else info.clientIp
  let (c, s) := if isClientToServer then (client, info.serverIp) else (info.serverIp, client)
  { srcIp := if externIp = 0 then c + mask else c
    dstIp := s + mask
    icmp := mode.getPacketData
    header := ⟨0, 0, 0⟩ }

/-- What `check_packet` reads of an IPv4 header. -/
structure IPv4View where
  protocol : UInt8
  totalLength : Nat
  sourceIp : UInt32
  option : List UInt8
deriving DecidableEq, Repr

/-- What `check_packet` reads of an IPv6 header: the next header, `getSize() + getPayloadLen()`, and
what is behind the header. -/
structure IPv6View where
  nextHdr : UInt8
  size : Nat
  behind : List UInt8
deriving DecidableEq, Repr

/-- `m_ipv4` and `m_ipv6` of `CSimplePacketParser`. -/
inductive L3
  | other
  | ipv4 (h : IPv4View)
  | ipv6 (h : IPv6View)
deriving DecidableEq, Repr

/-- What `check_packet` reads of a packet.  `l4Magic` is the magic number of the latency header that
is behind the L4 header that the parser finds, `icmp` and `header` are at `m_l4_offset` and
`m_payload_offset`. -/
structure RxPacket where
  pktLen : Nat
  vlanOffset : Nat
  l3 : L3
  l4Magic : UInt32
  icmp : ICMPHeader
  header : LatencyHeader
deriving DecidableEq, Repr

namespace RxPacket

/-- `m_protocol` -/
def protocol (m : RxPacket) : UInt8 :=
  match m.l3 with
  | .other => 0
  | .ipv4 h => h.protocol
  | .ipv6 h => h.nextHdr

/-- `getPktSize` -/
def getPktSize (m : RxPacket) : Nat :=
  let ipLen := match m.l3 with
    | .other => 0
    | .ipv4 h => h.totalLength
    | .ipv6 h => h.size
  ipLen + m.vlanOffset + 14

/-- `c_l_pkt_mode->IsLatencyPkt(parser.m_ipv4) & parser.IsLatencyPkt(..)` -/
def isLatencyPkt (mode : CLatencyPktMode) (m : RxPacket) : Bool :=
  match m.l3 with
  | .ipv4 h => h.protocol == mode.getProtocol && m.l4Magic &&& 0xffffff00 == latencyMagic
  | _ => false

end RxPacket

/-- A latency packet as it arrives, without options, with a VLAN tag or not, from the address that a
NAT on the way left. -/
def LatencyPkt.arrive (mode : CLatencyPktMode) (vlan : Bool) (sourceIp : UInt32)
    (pkt : LatencyPkt) : RxPacket :=
  let vlanOffset := if vlan then 4 else 0
  { pktLen := mode.getPacketLen + vlanOffset
    vlanOffset := vlanOffset
    l3 := .ipv4 ⟨mode.getProtocol, mode.getPacketLen - 14, sourceIp, []⟩
    l4Magic := pkt.header.magic
    icmp := pkt.icmp
    header := pkt.header }

/-! ## 3. A port -/

/-- `CCPortLatency` -/
structure CCPortLatency where
  id : UInt8
  natLearn : Bool
  natCanSend : Bool
  natExternalIp : UInt32
  txSeq : UInt32
  rxSeq : UInt32
  pktSize : Nat
  icmpTxSeq : UInt16
  icmpRxSeq : UInt16
  txPktOk : Nat
  txPktErr : Nat
  pktOk : Nat
  unsupProt : Nat
  noMagic : Nat
  noId : Nat
  seqError : Nat
  rxCheck : Nat
  noIpv4Option : Nat
  lengthError : Nat
deriving DecidableEq, Repr

namespace CCPortLatency

/-- `reset` -/
def reset (p : CCPortLatency) : CCPortLatency :=
  { p with
    rxSeq := p.txSeq
    txPktErr := 0
    txPktOk := 0
    pktOk := 0
    rxCheck := 0
    noMagic := 0
    unsupProt := 0
    noId := 0
    seqError := 0
    lengthError := 0
    noIpv4Option := 0 }

/-- `Create`.  Its `reset` is what sets the counters. -/
def create (id : UInt8) (pktSize : Nat) : CCPortLatency :=
  reset
    { id := id
      txSeq := 0x12345678
      rxSeq := 0
      icmpTxSeq := 1
      icmpRxSeq := 0
      pktSize := pktSize
      natCanSend := id % 2 == 0
      natLearn := id % 2 == 0
      natExternalIp := 0
      txPktOk := 0, txPktErr := 0, pktOk := 0, unsupProt := 0, noMagic := 0, noId := 0, seqError :=
        0
      rxCheck := 0, noIpv4Option := 0, lengthError := 0 }

/-- `can_send_packet` -/
def canSendPacket (o : LatencyOptions) (direction : Nat) (p : CCPortLatency) : Bool :=
  if o.lPktMode = lPktSubmodeReply ∧ direction = 1 then decide (p.icmpTxSeq ≤ p.icmpRxSeq)
  else if !o.learnMode then true
  else p.natCanSend

/-- `update_packet` -/
def updatePacket (mode : CLatencyPktMode) (portId : Nat) (now : UInt64) (p : CCPortLatency)
    (m : LatencyPkt) :
    CCPortLatency × LatencyPkt :=
  let header : LatencyHeader := ⟨now, latencyMagic ||| p.id.toUInt32, p.txSeq⟩
  let (icmp, icmpTxSeq) := mode.updatePkt (portId % 2 == 0) p.icmpTxSeq m.icmp
  ({ p with txSeq := p.txSeq + 1, icmpTxSeq := icmpTxSeq },
    { m with header := header, icmp := icmp })

/-- `do_learn` -/
def doLearn (externalIp : UInt32) (p : CCPortLatency) : CCPortLatency :=
  { p with natLearn := true, natCanSend := true, natExternalIp := externalIp }

/-- `RX_CHECK_V4_OPT_TYPE` -/
def rxCheckV4OptType : UInt8 := 0x57

/-- `RX_CHECK_V6_OPT_TYPE` -/
def rxCheckV6OptType : UInt8 := 0x3c

/-- `CNatOption::noIPV4_OPTION` -/
def natOptionType : UInt8 := 0x10

/-- `CNatOption::is_valid_ipv4_magic`: type, length and one of two magic numbers. -/
def isValidIpv4Magic (option : List UInt8) : Bool :=
  option.take 3 == [0x10, 0x8, 0xEE] || option.take 3 == [0x10, 0x8, 0xED]

/-- What `check_packet` does: the port behind it, what it returns, `rx_p`, and the options that it
gives to the NAT manager. -/
structure Checked where
  port : CCPortLatency
  result : Bool
  rxp : Option (List UInt8)
  natOptions : List (List UInt8)

/-- The loop of `check_packet` over the options of an IPv4 header. -/
def checkOptions (o : LatencyOptions) (c : Checked) : List UInt8 → Checked
  | [] => { c with result := true }
  | t :: rest =>
    if t = rxCheckV4OptType then
      if !o.rxCheckMode ∨ (t :: rest).length < rxCheckLen then
        { c with port := { c.port with seqError := c.port.seqError + 1 }, result := false }
      else
        checkOptions o { c with port := { c.port with rxCheck := c.port.rxCheck + 1 },
                                rxp := some (t :: rest) }
          ((t :: rest).drop rxCheckLen)
    else if t = natOptionType then
      if !o.learnMode ∨ (t :: rest).length < noOptionLen then
        { c with port := { c.port with seqError := c.port.seqError + 1 }, result := false }
      else if !isValidIpv4Magic (t :: rest) then
        { c with port := { c.port with noIpv4Option := c.port.noIpv4Option + 1 }, result := false }
      else
        checkOptions o { c with natOptions := c.natOptions ++ [(t :: rest).take noOptionLen] }
          ((t :: rest).drop noOptionLen)
    else
      { c with port := { c.port with seqError := c.port.seqError + 1 }, result := false }
termination_by option => option.length
decreasing_by
  all_goals simp only [List.length_drop, List.length_cons, rxCheckLen, noOptionLen]; omega

/-- The end of `check_packet`: the number in the latency header against the one that is expected. -/
def checkSeq (seq : UInt32) (p : CCPortLatency) : CCPortLatency × Bool :=
  if seq ≠ p.rxSeq then ({ p with seqError := p.seqError + 1, rxSeq := seq + 1 }, false)
  else ({ p with rxSeq := p.rxSeq + 1, pktOk := p.pktOk + 1 }, true)

/-- `check_packet` on a latency packet from `sourceIp`. -/
def checkLatencyPkt (o : LatencyOptions) (mode : CLatencyPktMode) (sourceIp : UInt32)
    (pktSize : Nat) (m : RxPacket) (p : CCPortLatency) : CCPortLatency × Bool :=
  let p := if o.learnMode && !p.natLearn then p.doLearn sourceIp else p
  if pktSize ≠ p.pktSize + m.vlanOffset then ({ p with lengthError := p.lengthError + 1 }, false)
  else
    let (icmpRxSeq, icmpTxSeq) := mode.updateRecv m.icmp p.icmpRxSeq p.icmpTxSeq
    checkSeq m.header.seq { p with icmpRxSeq := icmpRxSeq, icmpTxSeq := icmpTxSeq }

/-- `check_packet` -/
def checkPacket (o : LatencyOptions) (mode : CLatencyPktMode) (m : RxPacket) (p : CCPortLatency) :
    Checked :=
  if m.protocol = 0 then ⟨{ p with unsupProt := p.unsupProt + 1 }, false, none, []⟩
  else
    -- the CRC is there when the driver did not take it away
    let pktSize := if m.getPktSize + 4 = m.pktLen then m.pktLen - 4 else m.pktLen
    match m.l3 with
    | .other => ⟨p, false, none, []⟩
    | .ipv6 h =>
      if h.nextHdr = rxCheckV6OptType ∧ o.rxCheckMode then
        ⟨{ p with rxCheck := p.rxCheck + 1 }, true, some h.behind, []⟩
      else ⟨{ p with seqError := p.seqError + 1 }, false, none, []⟩
    | .ipv4 h =>
      if !m.isLatencyPkt mode then checkOptions o ⟨p, true, none, []⟩ h.option
      else
        let (port, result) := checkLatencyPkt o mode h.sourceIp pktSize m p
        ⟨port, result, none, []⟩

end CCPortLatency

/-! ## 4. The manager -/

/-- `MAX_LATENCY_PORTS` -/
def maxLatencyPorts : Nat := 12

/-- `swap_port` -/
def swapPort (portId : Nat) : Nat := portId / 2 * 2 + (1 - portId % 2)

/-- `CLatencyManager`: the ports are `m_ports[0 .. m_max_ports - 1]`. -/
structure CLatencyManager where
  mode : CLatencyPktMode
  maxPorts : Nat
  portMask : UInt32
  pktGen : CLatencyPktInfo
  ports : Nat → CCPortLatency

/-- `CLatencyManagerCfg` -/
structure CLatencyManagerCfg where
  maxPorts : Nat
  clientIp : UInt32
  serverIp : UInt32
  dualPortMask : UInt32

/-- Two ports, with the addresses that `CLatencyManagerCfg` sets. -/
def pairCfg : CLatencyManagerCfg := ⟨2, 0x10000000, 0x20000000, 0x01000000⟩

namespace CLatencyManager

/-- `Create`; `none` is an assert that fails. -/
def create (o : LatencyOptions) (cfg : CLatencyManagerCfg) : Option CLatencyManager :=
  let mode := CLatencyPktMode.ofOptions o
  if cfg.maxPorts ≤ maxLatencyPorts ∧ cfg.maxPorts % 2 = 0 then
    some
      { mode := mode
        maxPorts := cfg.maxPorts
        portMask := 0xffffffff
        pktGen := ⟨cfg.clientIp, cfg.serverIp, cfg.dualPortMask⟩
        ports := fun i => CCPortLatency.create (UInt8.ofNat i) mode.getPacketLen }
  else none

def setPort (mgr : CLatencyManager) (i : Nat) (p : CCPortLatency) : CLatencyManager :=
  { mgr with ports := Function.update mgr.ports i p }

@[simp] theorem setPort_self (mgr : CLatencyManager) (i : Nat) (p : CCPortLatency) :
    (mgr.setPort i p).ports i = p := Function.update_self ..

theorem setPort_of_ne (mgr : CLatencyManager) {i k : Nat} (p : CCPortLatency) (h : k ≠ i) :
    (mgr.setPort i p).ports k = mgr.ports k := Function.update_of_ne h ..

/-- The body of the loop of `send_pkt_all_ports`: port `i` sends if it may, and `io` says whether
the driver takes the packet. -/
def sendPkt (o : LatencyOptions) (io : Bool) (now : UInt64) (i : Nat) (mgr : CLatencyManager) :
    CLatencyManager × Option LatencyPkt :=
  let p := mgr.ports i
  if mgr.portMask &&& (1 <<< UInt32.ofNat i) ≠ 0 ∧ p.canSendPacket o (i % 2) then
    let m := mgr.pktGen.generatePkt mgr.mode i p.natExternalIp
    let (p, m) := p.updatePacket mgr.mode i now m
    let p := if io then { p with txPktOk := p.txPktOk + 1 }
      else { p with txPktErr := p.txPktErr + 1 }
    (mgr.setPort i p, some m)
  else (mgr, none)

/-- `handle_rx_pkt`, of a packet without a header of the RX check. -/
def handleRxPkt (o : LatencyOptions) (i : Nat) (m : RxPacket) (mgr : CLatencyManager) :
    CLatencyManager :=
  mgr.setPort i ((mgr.ports i).checkPacket o mgr.mode m).port

@[simp] theorem handleRxPkt_self (o : LatencyOptions) (i : Nat) (m : RxPacket)
    (mgr : CLatencyManager) :
    (mgr.handleRxPkt o i m).ports i = ((mgr.ports i).checkPacket o mgr.mode m).port :=
      setPort_self ..

theorem handleRxPkt_of_ne (o : LatencyOptions) {i k : Nat} (m : RxPacket) (mgr : CLatencyManager)
    (h : k ≠ i) :
    (mgr.handleRxPkt o i m).ports k = mgr.ports k := setPort_of_ne _ _ h

/-- `CLatencyManager::reset` -/
def reset (mgr : CLatencyManager) : CLatencyManager :=
  { mgr with ports := fun i => if i < mgr.maxPorts then (mgr.ports i).reset else mgr.ports i }

/-- `set_mask` -/
def setMask (mask : UInt32) (mgr : CLatencyManager) :
    CLatencyManager := { mgr with portMask := mask }

end CLatencyManager

end Trex.Lat
