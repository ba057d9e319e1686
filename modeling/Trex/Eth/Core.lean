/-
# A core that sends packets

`CCoreEthIF::send_node`, `send_pkt` and `send_burst` (`main_dpdk.cpp`) under the scheduler of a core
(`bp_sim.cpp`).  A node of a flow of one packet that is repeated keeps the mbuf of its first packet,
with one more reference, and sends it again and again.

* the head of an mbuf is modelled, with its count (`Lib.Shared`); the constant mbuf behind it has
  the reference of its template too, and is shared by the cores;
* addresses of nodes, of mbufs and of the data of plug-ins are not used again; to take an mbuf for
  the data of a plug-in, or the other way round, is a fault;
* the interface takes what it is given in the end (`Pal.Tx` has the burst itself); `sent` is what
  was given to it, `cached` which mbuf a node ever cached, and `released` which one it freed.
-/
import Trex.Eth.Node
import Trex.Lib.Shared

namespace Trex.Eth

open Trex.Lib Trex.Flow
open Trex.Pal (PktDir maxPktBurst)

/-! ## 1. The core -/

/-- `MAX_MBUF_CACHE` -/
def maxMbufCache : UInt16 := 100

/-- A packet that was given to the interface: of a node, with all that it depends on, or one that
another core asked for. -/
inductive Sent (π : Type)
  | flow (node : CGenNode) (info : Option π) (draw : Draw)
  | msg (bytes : List UInt8)

/-- A core: its nodes, the memory of mbufs and of the data of plug-ins, `m_mbuf_cache`, and the
table of each side. -/
structure Core (π : Type) where
  node : Nat → Option CGenNode := fun _ => none
  nextNode : Nat := 0
  mbuf : Ptr → Option (Shared (List UInt8)) := fun _ => none
  plugin : Ptr → Option π := fun _ => none
  nextPtr : Ptr := 0
  mbufCache : UInt16 := 0
  table : PktDir → List Ptr := fun _ => []
  wire : PktDir → List (List UInt8) := fun _ => []
  sent : PktDir → List (Sent π) := fun _ => []
  cached : List (Nat × Ptr) := []
  released : List (Nat × Ptr) := []

/-- How a step ends early: there is no such node, an address is not one of an mbuf or of the data of
a plug-in, or the program ends. -/
inductive CoreFault
  | noNode
  | badMbuf
  | badPlugin
  | exit
deriving DecidableEq, Repr

variable {π : Type}

namespace Core

def getNode (s : Core π) (p : Nat) : Except CoreFault CGenNode :=
  match s.node p with
  | some node => .ok node
  | none => .error .noNode

def setNode (s : Core π) (p : Nat) (node : CGenNode) : Core π :=
  { s with node := Function.update s.node p (some node) }

/-- An mbuf with one reference, at the address `nextPtr`. -/
def alloc (s : Core π) (bytes : List UInt8) : Core π :=
  { s with mbuf := Function.update s.mbuf s.nextPtr (some ⟨bytes, 1⟩), nextPtr := s.nextPtr + 1 }

/-- `rte_pktmbuf_refcnt_update(m, 1)` -/
def refcntUpdate (s : Core π) (m : Ptr) : Except CoreFault (Core π) :=
  match retain s.mbuf m with
  | some mbuf => .ok { s with mbuf }
  | none => .error .badMbuf

/-- `rte_pktmbuf_free` -/
def pktmbufFree (s : Core π) (m : Ptr) : Except CoreFault (Core π) :=
  match release s.mbuf m with
  | some mbuf => .ok { s with mbuf }
  | none => .error .badMbuf

/-- `send_burst`, for the whole table: `tx_burst` is called until everything is taken, and then each
mbuf is freed. -/
def sendBurst (s : Core π) (dir : PktDir) : Except CoreFault (Core π) :=
  match (s.table dir).mapM (valOf s.mbuf), releaseAll s.mbuf (s.table dir) with
  | some packets, some mbuf =>
    .ok { s with
      mbuf
      wire := Function.update s.wire dir (s.wire dir ++ packets)
      table := Function.update s.table dir [] }
  | _, _ => .error .badMbuf

/-- `send_pkt` -/
def sendPkt (s : Core π) (dir : PktDir) (m : Ptr) (x : Sent π) : Except CoreFault (Core π) :=
  let s := { s with
    table := Function.update s.table dir (s.table dir ++ [m])
    sent := Function.update s.sent dir (s.sent dir ++ [x]) }
  if (s.table dir).length = maxPktBurst then s.sendBurst dir else .ok s

/-- The part of `flush_tx_queue` for one side. -/
def flushPort (s : Core π) (dir : PktDir) : Except CoreFault (Core π) :=
  if 0 < (s.table dir).length then s.sendBurst dir else .ok s

/-- `flush_tx_queue` -/
def flushTxQueue (s : Core π) : Except CoreFault (Core π) := do
  let s ← s.flushPort .client
  s.flushPort .server

/-- `send_one_pkt`, with an mbuf that another core made. -/
def sendOnePkt (s : Core π) (dir : PktDir) (bytes : List UInt8) : Except CoreFault (Core π) := do
  let s ← (s.alloc bytes).sendPkt dir s.nextPtr (.msg bytes)
  s.sendBurst dir

/-- `handel_nat_msg`: the translation of a flow that waits for it. -/
def handelNatInfo (s : Core π) (p : Nat) (addr serverAddr : UInt32) (port : UInt16) :
    Except CoreFault (Core π) := do
  let node ← s.getNode p
  if node.type = .flowPktNat then
    if node.isNatWaitState then
      .ok (s.setNode p
        { node with type := .flowPkt, natIpv4Addr := addr, natIpv4AddrServer := serverAddr,
                    natIpv4Port := port })
    else .error .exit
  else .error .noNode

/-- What a plug-in changed of its data. -/
def storePlugin (s : Core π) (node : CGenNode) (info : Option π) : Core π :=
  match node.pluginInfo, info with
  | some a, some data => { s with plugin := Function.update s.plugin a (some data) }
  | _, _ => s

/-- `free_gen_node` -/
def freeGenNode (s : Core π) (p : Nat) (node : CGenNode) : Except CoreFault (Core π) :=
  match node.getCacheMbuf with
  | some m => do
    let s ← s.pktmbufFree m
    .ok { s with released := s.released ++ [(p, m)] }
  | none => .ok s

/-- `free_node`: `free_base` looks at the type of the node. -/
def freeNode (s : Core π) (p : Nat) (node : CGenNode) : Except CoreFault (Core π) := do
  let s ← match node.type with
    | .flowPkt => s.freeGenNode p node
    | .flowPktNat => .ok s
  .ok { s with node := Function.update s.node p none }

end Core

/-! ## 2. What a core is asked -/

/-- What a new flow is made of: the tuple that was generated, what the memory of the node held, the
template, whether `rte_rand` chose it for the rx check, and what a plug-in keeps of it. -/
structure Born (π : Type) where
  threadId : UInt8
  srcIp : UInt32
  destIp : UInt32
  srcPort : UInt16
  flowId : UInt64
  srcMac : Option (List UInt8)
  natIpv4Addr : UInt32
  natIpv4AddrServer : UInt32
  natIpv4Port : UInt16
  template : Nat
  rxSample : Bool
  data : π

/-- `generate_flow`, up to the flags. -/
def newNode (b : Born π) : CGenNode where
  type := .flowPkt
  flags := 0
  threadId := b.threadId
  srcIp := b.srcIp
  destIp := b.destIp
  srcPort := b.srcPort
  flowId := b.flowId
  srcMac := b.srcMac
  natIpv4Addr := b.natIpv4Addr
  natIpv4AddrServer := b.natIpv4AddrServer
  natIpv4Port := b.natIpv4Port
  template := b.template
  pktInfo := 0
  pluginInfo := none

/-- What a core can do next.  `freeNode` is `remove_all`, for one node. -/
inductive Event (π : Type)
  | generateFlow (b : Born π)
  | popNode (always : Bool) (p : Nat) (draw : Draw)
  | handelNatInfo (p : Nat) (addr serverAddr : UInt32) (port : UInt16)
  | sendOnePkt (dir : PktDir) (bytes : List UInt8)
  | flushTxQueue
  | freeNode (p : Nat)

/-! ## 3. The data of plug-ins -/

namespace Options

variable (o : Options π)

/-- What a plug-in reads by `m_plugin_info`. -/
def pluginData (s : Core π) (node : CGenNode) : Except CoreFault (Option π) :=
  if hasFlowData (o.template node.template).pluginId then
    match node.pluginInfo.bind s.plugin with
    | some data => .ok (some data)
    | none => .error .badPlugin
  else .ok none

/-- `on_node_first` -/
def onNodeFirst (s : Core π) (node : CGenNode) (data : π) : Except CoreFault (Core π × CGenNode) :=
  let pluginId := (o.template node.template).pluginId
  if hasFlowData pluginId then
    .ok ({ s with plugin := Function.update s.plugin s.nextPtr (some data),
                  nextPtr := s.nextPtr + 1 },
      { node with pluginInfo := some s.nextPtr })
  else if pluginId = mpDynPyload then .ok (s, node)
  else .error .exit

/-- `on_node_last` -/
def onNodeLast (s : Core π) (node : CGenNode) : Except CoreFault (Core π × CGenNode) :=
  let pluginId := (o.template node.template).pluginId
  if hasFlowData pluginId then
    match node.pluginInfo with
    | some a =>
      if (s.plugin a).isSome then
        .ok ({ s with plugin := Function.update s.plugin a none }, { node with pluginInfo := none })
      else .error .badPlugin
    | none => .error .badPlugin
  else if pluginId = mpDynPyload then .ok (s, node)
  else .error .exit

/-! ## 4. Sending -/

/-- `send_node` counts the packet in `m_mbuf_cache`. -/
def countsMbuf (node : CGenNode) :
    Bool := !node.isRxCheckEnabled && o.canCacheMbuf node && !o.mbufCacheDisabled

/-- The part of `send_node` that caches the mbuf: "limit the number of object to cache". -/
def cacheMbuf (s : Core π) (p : Nat) (node : CGenNode) (dir : PktDir) (m : Ptr) :
    Except CoreFault (Core π) :=
  if o.countsMbuf node then
    let s := { s with mbufCache := s.mbufCache + 1 }
    if s.mbufCache < maxMbufCache then
      ({ s with cached := s.cached ++ [(p, m)] }.setNode p (node.withCache dir m)).refcntUpdate m
    else .ok s
  else .ok s

/-- `CCoreEthIF::send_node` -/
def sendNode (s : Core π) (p : Nat) (node : CGenNode) (draw : Draw) : Except CoreFault (Core π) :=
  match node.getCacheMbuf with
  | some m => do
    let s ← s.refcntUpdate m
    s.sendPkt node.getMbufCacheDir m (.flow node none draw)
  | none => do
    let info ← o.pluginData s node
    match o.newPacket node info draw with
    | none => .error .exit
    | some (dir, bytes, info') => do
      let m := s.nextPtr
      let s ← o.cacheMbuf ((s.storePlugin node info').alloc bytes) p node dir m
      s.sendPkt dir m (.flow node info draw)

/-! ## 5. The scheduler -/

/-- `m_pkt_info = GetPacket(index)` -/
def goTo (node : CGenNode) (index : UInt32) : Except CoreFault CGenNode :=
  match (o.template node.template).gen.getPacket index with
  | some i => .ok { node with pktInfo := i }
  | none => .error .exit

/-- `update_next_pkt_in_flow` -/
def updateNextPktInFlow (node : CGenNode) (lp : Gen.ReplayPkt) : Except CoreFault CGenNode :=
  let pktIndex : UInt32 := UInt32.ofNat lp.pktCnt
  let pktIndex := pktIndex + 1
  o.goTo node (pktIndex - 1)

/-- `m_pkt_info` -/
def getPkt (node : CGenNode) : Except CoreFault Gen.ReplayPkt :=
  match o.pkt node with
  | some lp => .ok lp
  | none => .error .exit

/-- `free_last_flow_node` -/
def freeLastFlowNode (s : Core π) (p : Nat) (node : CGenNode) : Except CoreFault (Core π) := do
  let (s, node) ← if (o.template node.template).pluginId ≠ 0 then o.onNodeLast s node
    else .ok (s, node)
  s.freeNode p node

/-- The packet of a node was sent: the node goes on to the next one, begins again or is freed. -/
def nextPkt (s : Core π) (p : Nat) (lp : Gen.ReplayPkt) (again : Bool) :
    Except CoreFault (Core π) := do
  let node ← s.getNode p
  if lp.info.desc.isLastPkt then
    if again then do
      -- `reschedule_flow`
      let node ← o.goTo node 0
      .ok (s.setNode p node)
    else o.freeLastFlowNode s p node
  else do
    let node ← o.updateNextPktInFlow node lp
    .ok (s.setNode p node)

/-- The `FLOW_PKT` case of `flush_file`. -/
def handlePkt (always : Bool) (s : Core π) (p : Nat) (node : CGenNode) (draw : Draw) :
    Except CoreFault (Core π) := do
  let lp ← o.getPkt node
  let s ← if !o.isRepeatFlow node || !always then o.sendNode s p node draw else .ok s
  o.nextPkt s p lp (o.isRepeatFlow node && !always)

/-- The `FLOW_PKT_NAT` case of `handle_slow_messages`: "repeat and NAT is not supported". -/
def handleNatPkt (s : Core π) (p : Nat) (node : CGenNode) (draw : Draw) :
    Except CoreFault (Core π) := do
  let lp ← o.getPkt node
  if node.isNatFirstState then do
    let s ← o.sendNode (s.setNode p node.setNatWaitState) p node.setNatWaitState draw
    o.nextPkt s p lp false
  else if node.isNatWaitState then
    if lp.info.desc.isInitSide then do
      let s ← o.sendNode s p node draw
      o.nextPkt s p lp false
    else o.freeLastFlowNode s p node
  else .error .exit

/-- A node is taken from the queue. -/
def popNode (always : Bool) (s : Core π) (p : Nat) (draw : Draw) : Except CoreFault (Core π) := do
  let node ← s.getNode p
  match node.type with
  | .flowPkt => o.handlePkt always s p node draw
  | .flowPktNat => o.handleNatPkt s p node draw

/-- The flags of a new flow. -/
def newFlags (node : CGenNode) (rxSample : Bool) : UInt16 :=
  let server := node.isEligibleFromServerSide
  let flags := if o.rxCheckMode && rxSample && !o.isRepeatFlow node then
      setFlag node.flags nodeFlagsSampleRxCheck true
    else node.flags
  if o.clientServerFlowFlipAddr then setFlag flags nodeFlagsInitStartFromServerSideServerAddr server
  else if o.clientServerFlowFlip then
    -- `-p`
    setFlag (setFlag flags nodeFlagsInitStartFromServerSide server) nodeFlagsAllFlowSamePortSide
      true
  else if o.clientServerFlip then setFlag flags nodeFlagsInitStartFromServerSide server
  else flags

/-- `generate_flow` -/
def generateFlow (s : Core π) (b : Born π) : Except CoreFault (Core π) := do
  let node := newNode b
  let lp ← o.getPkt node
  let node := if o.parser.learnMode && lp.info.desc.isBiDirectionalFlow then node.setNatFirstState
    else node
  let node := { node with flags := o.newFlags node b.rxSample }
  let (s, node) ← if (o.template b.template).pluginId ≠ 0 then o.onNodeFirst s node b.data
    else .ok (s, node)
  .ok { s.setNode s.nextNode node with nextNode := s.nextNode + 1 }

/-! ## 6. Steps -/

/-- One step. -/
def step (s : Core π) : Event π → Except CoreFault (Core π)
  | .generateFlow b => o.generateFlow s b
  | .popNode always p draw => o.popNode always s p draw
  | .handelNatInfo p addr serverAddr port => s.handelNatInfo p addr serverAddr port
  | .sendOnePkt dir bytes => s.sendOnePkt dir bytes
  | .flushTxQueue => s.flushTxQueue
  | .freeNode p => do
    let node ← s.getNode p
    s.freeNode p node

/-- A run. -/
def run : Core π → List (Event π) → Except CoreFault (Core π)
  | s, [] => .ok s
  | s, ev :: evs => do
    let s ← o.step s ev
    run s evs

end Options

end Trex.Eth
