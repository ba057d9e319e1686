/-
# Learning the translation of a NAT

In learn mode (`--learn`) a thread does not know under which address and port a flow leaves the
device under test.  The first packet of a flow with both directions carries an IP option with the
number of the flow; the RX core reads the option where the packet comes out and sends the
translation back to the thread (`CNatRxManager`, `nat_check.cpp`), which finds the node of the flow
in a map (`handel_nat_msg`, `bp_sim.cpp`).

* the nodes are in a memory of which only the live ones are defined: to use another one is a fault;
* `create_node` may give any address that is not live, also one that was freed;
* the scheduler may handle any node of the queue, so every order of the times is covered;
* a packet that was sent may be lost or be received any number of times, at any later time; what the
  NAT wrote to it is arbitrary, but for the option.
-/
import Mathlib.Data.List.AList
import Trex.Flow.Template

namespace Trex.Flow

open Trex.Lib

/-! ## 1. Nodes -/

/-- A template of a thread in learn mode, as it was loaded.  `limitWasSet` is what makes a flow
repeat. -/
structure LearnTemplate (κ : Type) [DecidableEq κ] where
  ipg : Option (Rat × Rat)
  id : UInt16
  raws : List (RawPacket κ)
  info : CCapFileFlowInfo
  loaded : loadTemplate false true ipg id raws = .ok info
  isIpv6 : Bool := false
  limitWasSet : Bool := false

/-- `m_type`, for the nodes of flows. -/
inductive NodeType
  | flowPkt
  | flowPktNat
deriving DecidableEq, Repr

/-- Bits 3 and 4 of `m_flags`. -/
inductive NatState
  | off
  | first
  | wait
deriving DecidableEq, Repr

/-- `CTupleBase`. -/
structure CTupleBase where
  client : UInt32
  server : UInt32
  clientPort : UInt16
deriving DecidableEq, Repr

/-- `CGenNode`.  `pktInfo` is the index of the packet that is next. -/
structure CGenNode (κ : Type) [DecidableEq κ] where
  type : NodeType
  threadId : UInt8
  flowId : UInt64
  template : LearnTemplate κ
  pktInfo : Nat
  natState : NatState
  srcIp : UInt32
  destIp : UInt32
  srcPort : UInt16
  natExternalIpv4 : UInt32 := 0
  natExternalIpv4Server : UInt32 := 0
  natExternalPort : UInt16 := 0

section Node

variable {κ : Type} [DecidableEq κ]

/-- `get_short_fid`. -/
def CGenNode.getShortFid (node : CGenNode κ) : UInt32 := node.flowId.toUInt32

/-- `is_external_is_eq_to_internal_ip`. -/
def CGenNode.isExternalEqInternal (node : CGenNode κ) : Bool :=
  node.natExternalIpv4 == node.srcIp && node.natExternalPort == node.srcPort &&
    node.natExternalIpv4Server == node.destIp

/-- `m_flow_id` of a flow of a thread. -/
def nodeFlowId (flowId : UInt64) (threadId : UInt8) : UInt64 :=
  (flowId &&& (0x000fffffffffffff : UInt64)) ||| (threadId.toUInt64 <<< 56)

/-- The node that `generate_flow` writes. -/
def newNode (tmpl : LearnTemplate κ) (threadId : UInt8) (flowId : UInt64) (tuple : CTupleBase) :
    CGenNode κ where
  type := .flowPkt
  threadId := threadId
  flowId := nodeFlowId flowId threadId
  template := tmpl
  pktInfo := 0
  natState := .off
  srcIp := tuple.client
  destIp := tuple.server
  srcPort := tuple.clientPort

/-- `set_nat_first_state`. -/
def CGenNode.setNatFirstState (node : CGenNode κ) : CGenNode κ :=
  { node with natState := .first, type := .flowPktNat }

/-- `set_nat_wait_state`. -/
def CGenNode.setNatWaitState (node : CGenNode κ) : CGenNode κ := { node with natState := .wait }

/-- `set_nat_learn_state`: the bits stay as they are. -/
def CGenNode.setNatLearnState (node : CGenNode κ) : CGenNode κ := { node with type := .flowPkt }

/-- `update_next_pkt_in_flow`. -/
def CGenNode.updateNextPktInFlow (node : CGenNode κ) : CGenNode κ :=
  { node with pktInfo := node.pktInfo + 1 }

/-- `reset_pkt_in_flow`. -/
def CGenNode.resetPktInFlow (node : CGenNode κ) : CGenNode κ := { node with pktInfo := 0 }

end Node

/-! ## 2. The thread, the RX core and the network -/

/-- `CNatOption`. -/
structure CNatOption where
  threadId : UInt8
  fid : UInt32
deriving DecidableEq, Repr

/-- `CNatFlowInfo`. -/
structure CNatFlowInfo where
  externalIp : UInt32
  externalIpServer : UInt32
  fid : UInt32
  externalPort : UInt16
deriving DecidableEq, Repr

/-- The counters of `CFlowGenListPerThread::m_stats` that are used here. -/
structure NatStats where
  natLookupAddFlowId : Nat := 0
  natLookupRemoveFlowId : Nat := 0
  natLookupNoFlowId : Nat := 0
  natFlowTimeout : Nat := 0
  natFlowLearnError : Nat := 0
  totalCloseFlows : Nat := 0
deriving DecidableEq, Repr

/-- `flow_id_node_t`, a `std::map`. -/
abbrev FlowIdNode := AList (fun _ : UInt32 => Nat)

/-- `CFlowGenListPerThread` (`curFlowId`, `lookup`, `stats`), its node generator (`queue`), the live
nodes of its memory (`node`), the slot of the thread in `CNatRxManager` (`curNatMsg`, `ring`) and
the packets with an option that are or were in the network, of any thread (`wire`). -/
structure LearnThread (κ : Type) [DecidableEq κ] where
  threadId : UInt8
  learnVerifyMode : Bool := false
  curFlowId : UInt64 := 1
  node : Nat → Option (CGenNode κ) := fun _ => none
  queue : List Nat := []
  lookup : FlowIdNode := ∅
  stats : NatStats := {}
  curNatMsg : Option (List CNatFlowInfo) := none
  ring : List (List CNatFlowInfo) := []
  wire : List CNatOption := []

/-- The assertions, and what the code must not do. -/
inductive NatFault
  /-- `assert(m_flow_id_to_node_lookup.lookup(fid)==0)` -/
  | associated
  /-- `assert(0)` of `handle_slow_messages`: neither the first state nor the wait state. -/
  | noNatState
  /-- `assert(node->is_nat_wait_state())` -/
  | notWaiting
  /-- A node that is not live is used. -/
  | freed
  /-- `GetPacket` past the last packet. -/
  | noPacket
deriving DecidableEq, Repr

section Thread

variable {κ : Type} [DecidableEq κ]

/-- Use the node at an address. -/
def deref (s : LearnThread κ) (p : Nat) : Except NatFault (CGenNode κ) :=
  match s.node p with
  | some node => .ok node
  | none => .error .freed

/-- `m_pkt_info` of a node. -/
def pktOf (node : CGenNode κ) : Except NatFault CFlowPktInfo :=
  match node.template.info.pkts[node.pktInfo]? with
  | some lp => .ok lp
  | none => .error .noPacket

/-- Write a node that is live. -/
def LearnThread.setNode (s : LearnThread κ) (p : Nat) (node : CGenNode κ) : LearnThread κ :=
  { s with node := Function.update s.node p (some node) }

/-- `free_node`. -/
def LearnThread.freeNode (s : LearnThread κ) (p : Nat) : LearnThread κ :=
  { s with node := Function.update s.node p none }

/-- `free_last_flow_node`. -/
def LearnThread.freeLastFlowNode (s : LearnThread κ) (p : Nat) (node : CGenNode κ) :
    LearnThread κ :=
  { s.freeNode p with
    stats := { s.stats with
      totalCloseFlows := s.stats.totalCloseFlows + node.template.info.totalFlows } }

/-! ## 3. The thread -/

/-- `CFlowGenListPerThread::associate`. -/
def associate (s : LearnThread κ) (fid : UInt32) (p : Nat) : Except NatFault (LearnThread κ) :=
  if (s.lookup.lookup fid).isSome then .error .associated
  else .ok { s with
    stats := { s.stats with natLookupAddFlowId := s.stats.natLookupAddFlowId + 1 }
    lookup := s.lookup.insert fid p }

/-- `generate_flows_roundrobin` found a template: `create_node` and `generate_flow`. -/
def generateFlow (s : LearnThread κ) (tmpl : LearnTemplate κ) (tuple : CTupleBase) (p : Nat) :
    Except NatFault (LearnThread κ) := do
  let node := newNode tmpl s.threadId s.curFlowId tuple
  let lp ← pktOf node
  let s ←
    if lp.desc.isBiDirectionalFlow then do
      let s ← associate s s.curFlowId.toUInt32 p
      .ok (s.setNode p node.setNatFirstState)
    else .ok (s.setNode p node)
  .ok { s with queue := p :: s.queue, curFlowId := s.curFlowId + 1 }

/-- `flush_one_node_to_file`: the packet is sent.  The option is written to an IPv4 packet that is
marked. -/
def flushOneNode (s : LearnThread κ) (node : CGenNode κ) (lp : CFlowPktInfo) : LearnThread κ :=
  if lp.desc.isLearn && !node.template.isIpv6 then
    { s with wire := s.wire ++ [⟨node.threadId, node.getShortFid⟩] }
  else s

/-- `CFlowGenListPerThread::terminate_nat_flows`. -/
def terminateNatFlows (s : LearnThread κ) (p : Nat) (node : CGenNode κ) : LearnThread κ :=
  LearnThread.freeLastFlowNode
    { s with
      stats := { s.stats with
        natFlowTimeout := s.stats.natFlowTimeout + 1
        natLookupRemoveFlowId := s.stats.natLookupRemoveFlowId + 1 }
      lookup := s.lookup.erase node.getShortFid } p node

/-- The `FLOW_PKT` case of `flush_file`, for the node at index `i` of the queue. -/
def handlePkt (s : LearnThread κ) (i p : Nat) (node : CGenNode κ) (always : Bool) :
    Except NatFault (LearnThread κ) := do
  let lp ← pktOf node
  let isRepeat := node.template.limitWasSet
  let s := if !isRepeat || !always then flushOneNode s node lp else s
  let s := { s with queue := s.queue.eraseIdx i }
  if lp.desc.isLastPkt then
    if isRepeat && !always then
      -- `reschedule_flow`
      .ok { s.setNode p node.resetPktInFlow with queue := p :: s.queue }
    else .ok (s.freeLastFlowNode p node)
  else .ok { s.setNode p node.updateNextPktInFlow with queue := p :: s.queue }

/-- The end of the `FLOW_PKT_NAT` case: the packet was sent. -/
def nextNatPkt (s : LearnThread κ) (i p : Nat) (node : CGenNode κ) (lp : CFlowPktInfo) :
    LearnThread κ :=
  let s := flushOneNode s node lp
  let s := { s with queue := s.queue.eraseIdx i }
  if lp.desc.isLastPkt then s.freeLastFlowNode p node
  else { s.setNode p node.updateNextPktInFlow with queue := p :: s.queue }

/-- The `FLOW_PKT_NAT` case of `handle_slow_messages`. -/
def handleNatPkt (s : LearnThread κ) (i p : Nat) (node : CGenNode κ) :
    Except NatFault (LearnThread κ) := do
  let lp ← pktOf node
  match node.natState with
  | .first => .ok (nextNatPkt s i p node.setNatWaitState lp)
  | .wait =>
    if lp.desc.isInitSide then .ok (nextNatPkt s i p node lp)
    else
      -- time out: the responder has to answer, and the translation is not known
      .ok (terminateNatFlows { s with queue := s.queue.eraseIdx i } p node)
  | .off => .error .noNatState

/-- The scheduler handles the node at index `i` of the queue. -/
def handleNode (s : LearnThread κ) (i : Nat) (always : Bool) : Except NatFault (LearnThread κ) :=
  match s.queue[i]? with
  | none => .ok s
  | some p => do
    let node ← deref s p
    match node.type with
    | .flowPkt => handlePkt s i p node always
    | .flowPktNat => handleNatPkt s i p node

/-- One entry of `handel_nat_msg`. -/
def handelNatInfo (s : LearnThread κ) (msg : CNatFlowInfo) : Except NatFault (LearnThread κ) :=
  match s.lookup.lookup msg.fid with
  | none => .ok { s with
      stats := { s.stats with natLookupNoFlowId := s.stats.natLookupNoFlowId + 1 } }
  | some p => do
    let node ← deref s p
    let node := { node with
      natExternalIpv4 := msg.externalIp
      natExternalPort := msg.externalPort
      natExternalIpv4Server := msg.externalIpServer }
    if node.natState ≠ .wait then .error .notWaiting
    else
      let learnError := if s.learnVerifyMode && !node.isExternalEqInternal then 1 else 0
      .ok { s.setNode p node.setNatLearnState with
        lookup := s.lookup.erase msg.fid
        stats := { s.stats with
          natFlowLearnError := s.stats.natFlowLearnError + learnError
          natLookupRemoveFlowId := s.stats.natLookupRemoveFlowId + 1 } }

/-- `handel_nat_msg`. -/
def handelNatMsg (s : LearnThread κ) (msg : List CNatFlowInfo) : Except NatFault (LearnThread κ) :=
  msg.foldlM handelNatInfo s

/-- `check_msgs`, for the messages of the RX core: the ring is emptied. -/
def checkMsgs (s : LearnThread κ) : Except NatFault (LearnThread κ) :=
  s.ring.foldlM handelNatMsg { s with ring := [] }

/-! ## 4. The RX core -/

/-- `MAX_NAT_FLOW_INFO`, on `x86_64`. -/
def maxNatFlowInfo : Nat := 7

/-- `CNatRxManager::flush_node`. -/
def flushNode (s : LearnThread κ) : LearnThread κ :=
  match s.curNatMsg with
  | none => s
  | some msg => { s with ring := s.ring ++ [msg], curNatMsg := none }

/-- What the RX core reads from the IP header and the one after it. -/
structure RxPacket where
  sourceIp : UInt32
  destIp : UInt32
  protocol : UInt8
  sourcePort : UInt16
deriving DecidableEq, Repr

/-- `CNatRxManager::handle_packet_ipv4`, as far as the slot of this thread is concerned. -/
def handlePacketIpv4 (s : LearnThread κ) (option : CNatOption) (ipv4 : RxPacket) : LearnThread κ :=
  if option.threadId ≠ s.threadId then s
  else if ipv4.protocol ≠ 6 ∧ ipv4.protocol ≠ 17 then s
  else
    let msg := s.curNatMsg.getD [] ++
      [{ externalIp := ipv4.sourceIp, externalIpServer := ipv4.destIp,
         fid := option.fid, externalPort := ipv4.sourcePort }]
    let s := { s with curNatMsg := some msg }
    if msg.length = maxNatFlowInfo then flushNode s else s

/-! ## 5. Runs -/

/-- What can happen next. -/
inductive LearnEvent (κ : Type) [DecidableEq κ]
  /-- A flow is generated; `p` is the address of the new node. -/
  | generate (tmpl : LearnTemplate κ) (tuple : CTupleBase) (p : Nat)
  /-- The scheduler handles a node of the queue. -/
  | packet (i : Nat) (always : Bool)
  /-- Another thread sends a packet with an option. -/
  | otherThread (option : CNatOption)
  /-- A copy of the packet at index `i` of the wire comes to the RX core. -/
  | receive (i : Nat) (ipv4 : RxPacket)
  /-- `handle_aging`: the message was not full for some time. -/
  | aging
  /-- `check_msgs`, at a `FLOW_SYNC` node. -/
  | checkMsgs

/-- One event.  The allocator does not give an address that is in use, and another thread has
another number. -/
def learnStep (s : LearnThread κ) : LearnEvent κ → Except NatFault (LearnThread κ)
  | .generate tmpl tuple p => if (s.node p).isSome then .ok s else generateFlow s tmpl tuple p
  | .packet i always => handleNode s i always
  | .otherThread option =>
    .ok (if option.threadId = s.threadId then s else { s with wire := s.wire ++ [option] })
  | .receive i ipv4 =>
    match s.wire[i]? with
    | none => .ok s
    | some option => .ok (handlePacketIpv4 s option ipv4)
  | .aging => .ok (flushNode s)
  | .checkMsgs => checkMsgs s

/-- A run. -/
def learnRun (s : LearnThread κ) (evs : List (LearnEvent κ)) : Except NatFault (LearnThread κ) :=
  evs.foldlM learnStep s

/-- How many flows a run generates. -/
def LearnEvent.flows : List (LearnEvent κ) → Nat
  | [] => 0
  | .generate _ _ _ :: evs => LearnEvent.flows evs + 1
  | _ :: evs => LearnEvent.flows evs

end Thread

end Trex.Flow
