/-
# A generator thread

`CFlowGenListPerThread` with its `CNodeGenerator` (`bp_sim.cpp`, `bp_sim.h`) in stateful mode: the
thread opens flows of its templates, and the scheduler replays their packets.
`start_generate_stateful` calls `flush_file` once until the time is over and once more (`always`) to
end the open flows, then `close_file`; `Delete` is called when the program ends.

* the nodes are in a memory of which only the live ones are defined; a freed address is not used
  again, so an address is also the name of a flow;
* the scheduler takes a node with the least time, any of them where times are equal; times are exact
  rationals, and the wait for the clock is left out;
* what the policers, the tuple generator and the clock give to a step is arbitrary (`Env`);
* `sent`, `born`, `returned`, `returnedGlobal` and `released` are histories, which nothing reads.
-/
import Trex.Flow.NatLearn
import Trex.Gen.Replay

namespace Trex.Gen

open Trex.Flow (NodeType NatState FlowIdNode nodeFlowId)

/-! ## 1. Nodes -/

/-- The address of a node. -/
abbrev Ptr := Nat

/-- A client port that is to be released: the pool, the client and the port. -/
structure ClientPort where
  poolIdx : UInt8
  client : UInt32
  port : UInt16
deriving DecidableEq, Repr

section Nodes

variable (κ : Type) [DecidableEq κ] (learnMode : Bool)

/-- `CGenNode` of a flow.  `pktInfo` is the index of the packet that is next, and `rtpClients` are
the ports that a plugin took for the flow. -/
structure FlowNode where
  type : NodeType
  time : Rat
  flowId : UInt64
  template : Template κ learnMode
  pktInfo : Nat
  natState : NatState
  srcIdx : UInt32
  srcPort : UInt16
  rtpClients : List UInt16

/-- `CGenNode`, by its type. -/
inductive CGenNode
  | flow (f : FlowNode κ learnMode)
  | flowFif (time : Rat)
  | deferPort (time : Rat) (clients : List ClientPort)
  | flowSync (time : Rat)
  | exitSched (time : Rat)

/-- A flow when it is opened. -/
structure Born where
  template : Template κ learnMode
  time : Rat

end Nodes

/-- `m_time`. -/
def CGenNode.time {κ : Type} [DecidableEq κ] {learnMode : Bool} : CGenNode κ learnMode → Rat
  | .flow f => f.time
  | .flowFif time => time
  | .deferPort time _ => time
  | .flowSync time => time
  | .exitSched time => time

/-! ## 2. The thread -/

/-- What a thread is started with. -/
structure Config (κ : Type) [DecidableEq κ] where
  learnMode : Bool
  noCleanFlowClose : Bool
  threadId : UInt8
  capGen : List (Template κ learnMode)
  nonempty : capGen ≠ []
  startTime : Rat
  durationSec : Rat
  /-- `d_time_flow` -/
  dTime : Rat
  tcpAging : UInt8 → Nat
  udpAging : UInt8 → Nat

/-- What a step reads from outside. -/
structure Env where
  now : Rat := 0
  /-- Which templates may open a flow. -/
  policer : Nat → Bool := fun _ => false
  srcIdx : UInt32 := 0
  srcPort : UInt16 := 0
  rtpClients : List UInt16 := []

/-- Where the thread is: in the loop of `flush_file`, in the middle of a `FLOW_SYNC` node, before
`close_file`, before `Delete`, or at the end. -/
inductive Phase
  | flush (always : Bool)
  | sync (always : Bool) (node : Ptr)
  | close
  | closed
  | deleted
deriving DecidableEq, Repr

/-- A packet that was sent: the flow, the index of the packet, and the time of the node. -/
structure Sent where
  flow : Ptr
  pkt : Nat
  time : Rat
deriving DecidableEq, Repr

/-- A port that was given back to the tuple generator. -/
structure Release where
  now : Rat
  client : ClientPort
deriving DecidableEq, Repr

/-- `CFlowGenListPerThread`. -/
structure GenThread (κ : Type) [DecidableEq κ] (learnMode : Bool) where
  node : Ptr → Option (CGenNode κ learnMode)
  fresh : Ptr
  queue : List Ptr
  lookup : FlowIdNode := ∅
  tcpDpc : Option Ptr := none
  udpDpc : Option Ptr := none
  curTemplate : Nat
  flowcnt : Nat → Nat := fun _ => 0
  curFlowId : UInt64 := 1
  curTimeSec : Rat
  terminatedByMaster : Bool := false
  phase : Phase := .flush false
  sent : List Sent := []
  born : Ptr → Option (Born κ learnMode) := fun _ => none
  returned : List Ptr := []
  returnedGlobal : List Ptr := []
  released : List Release := []

/-- The assertions, and what the code must not do. -/
inductive GenFault
  /-- `assert(m_flow_id_to_node_lookup.lookup(fid)==0)` -/
  | associated
  /-- `assert(0)` of `handle_slow_messages`: neither the first state nor the wait state. -/
  | noNatState
  /-- `assert(node->is_nat_wait_state())` -/
  | notWaiting
  /-- A node that is not live is used. -/
  | freed
  /-- `GetPacket` past the last packet. -/
  | noPacket
  /-- `top` of an empty queue. -/
  | emptyQueue
deriving DecidableEq, Repr

variable {κ : Type} [DecidableEq κ] {learnMode : Bool}

namespace GenThread

/-- Use the node at an address. -/
def deref (s : GenThread κ learnMode) (p : Ptr) : Except GenFault (CGenNode κ learnMode) :=
  match s.node p with
  | some node => .ok node
  | none => .error .freed

/-- Write a node. -/
def setNode (s : GenThread κ learnMode) (p : Ptr) (node : CGenNode κ learnMode) :
    GenThread κ learnMode :=
  { s with node := Function.update s.node p (some node) }

/-- `create_node`, with what is written to it. -/
def createNode (s : GenThread κ learnMode) (node : CGenNode κ learnMode) : GenThread κ learnMode :=
  { s.setNode s.fresh node with fresh := s.fresh + 1 }

/-- `free_node`: the type of the node is read, and it goes back to the pool of the thread. -/
def freeNode (s : GenThread κ learnMode) (p : Ptr) : Except GenFault (GenThread κ learnMode) := do
  let _ ← s.deref p
  .ok { s with node := Function.update s.node p none, returned := s.returned ++ [p] }

/-- `add_node`. -/
def addNode (s : GenThread κ learnMode) (p : Ptr) : GenThread κ learnMode :=
  { s with queue := p :: s.queue }

/-- `flush_one_node_to_file`. -/
def flushOneNode (s : GenThread κ learnMode) (p : Ptr) (f : FlowNode κ learnMode) :
    GenThread κ learnMode :=
  { s with sent := s.sent ++ [⟨p, f.pktInfo, f.time⟩] }

end GenThread

/-! ## 3. The packets of a flow -/

namespace FlowNode

/-- `m_pkt_info`. -/
def pkt (f : FlowNode κ learnMode) : Except GenFault ReplayPkt :=
  match f.template.pkts[f.pktInfo]? with
  | some lp => .ok lp
  | none => .error .noPacket

/-- `m_pkt_info = GetPacket(index)`. -/
def goTo (f : FlowNode κ learnMode) (index : UInt32) : Except GenFault (FlowNode κ learnMode) :=
  match f.template.getPacket index with
  | some i => .ok { f with pktInfo := i }
  | none => .error .noPacket

/-- `update_next_pkt_in_flow`. -/
def updateNextPktInFlow (f : FlowNode κ learnMode) (lp : ReplayPkt) :
    Except GenFault (FlowNode κ learnMode) :=
  let pktIndex : UInt32 := UInt32.ofNat lp.pktCnt
  let pktIndex := pktIndex + 1
  { f with time := f.time + f.template.gap lp }.goTo (pktIndex - 1)

/-- `reset_pkt_in_flow`. -/
def resetPktInFlow (f : FlowNode κ learnMode) : Except GenFault (FlowNode κ learnMode) := f.goTo 0

/-- `get_short_fid`. -/
def getShortFid (f : FlowNode κ learnMode) : UInt32 := f.flowId.toUInt32

end FlowNode

/-! ## 4. The release of ports -/

/-- `DEFER_CLIENTS_NUM`. -/
def deferClientsNum : Nat := 16

namespace GenThread

/-- `FreePort`. -/
def freePorts (s : GenThread κ learnMode) (now : Rat) (clients : List ClientPort) :
    GenThread κ learnMode :=
  { s with released := s.released ++ clients.map fun client => ⟨now, client⟩ }

/-- `m_tcp_dpc` or `m_udp_dpc`. -/
def dpc (s : GenThread κ learnMode) (isTcp : Bool) :
    Option Ptr := if isTcp then s.tcpDpc else s.udpDpc

/-- Write `m_tcp_dpc` or `m_udp_dpc`. -/
def setDpc (s : GenThread κ learnMode) (isTcp : Bool) (d : Option Ptr) : GenThread κ learnMode :=
  if isTcp then { s with tcpDpc := d } else { s with udpDpc := d }

/-- `get_tcp_defer` and `get_udp_defer`. -/
def getDefer (s : GenThread κ learnMode) (isTcp : Bool) : GenThread κ learnMode × Ptr :=
  match s.dpc isTcp with
  | some d => (s, d)
  | none => ((s.createNode (.deferPort 0 [])).setDpc isTcp (some s.fresh), s.fresh)

/-- `defer_client_port_free`: the port waits in a node, and the node is scheduled when it is
full. -/
def deferClientPortFree (s : GenThread κ learnMode) (isTcp : Bool) (aging : Nat) (now : Rat)
    (client : ClientPort) : Except GenFault (GenThread κ learnMode) :=
  if aging = 0 then .ok (s.freePorts now [client])
  else
    let (s, d) := s.getDefer isTcp
    match s.node d with
    | some (.deferPort time clients) =>
      let clients := clients ++ [client]
      if clients.length = deferClientsNum then
        -- `schedule_node`
        .ok (((s.setNode d (.deferPort (now + aging) clients)).addNode d).setDpc isTcp none)
      else .ok (s.setNode d (.deferPort time clients))
    | _ => .error .freed

/-- `handler_defer_job`. -/
def handlerDeferJob (s : GenThread κ learnMode) (now : Rat) (d : Ptr) :
    Except GenFault (GenThread κ learnMode) :=
  match s.node d with
  | some (.deferPort _ clients) => .ok (s.freePorts now clients)
  | _ => .error .freed

/-- One job of `handler_defer_job_flush`. -/
def flushDpc (s : GenThread κ learnMode) (now : Rat) (isTcp : Bool) :
    Except GenFault (GenThread κ learnMode) :=
  match s.dpc isTcp with
  | none => .ok s
  | some d => do
    let s ← s.handlerDeferJob now d
    let s ← s.freeNode d
    .ok (s.setDpc isTcp none)

/-- `handler_defer_job_flush`. -/
def handlerDeferJobFlush (s : GenThread κ learnMode) (now : Rat) :
    Except GenFault (GenThread κ learnMode) := do
  let s ← s.flushDpc now true
  s.flushDpc now false

end GenThread

section Steps

variable (cfg : Config κ)

/-- A thread with a configuration. -/
abbrev Config.Thread : Type := GenThread κ cfg.learnMode

variable {cfg}

/-- The ports that a flow has to release: those of its plugin, and its own. -/
def FlowNode.clientPorts (f : FlowNode κ learnMode) : List ClientPort :=
  (f.rtpClients ++ [f.srcPort]).map fun port => ⟨f.template.clientPoolIdx, f.srcIdx, port⟩

/-- `get_tcp_aging` or `get_udp_aging`. -/
def Config.aging (cfg : Config κ) (isTcp : Bool) (poolIdx : UInt8) : Nat :=
  if isTcp then cfg.tcpAging poolIdx else cfg.udpAging poolIdx

/-- `free_last_flow_node`. -/
def freeLastFlowNode (env : Env) (p : Ptr) (f : FlowNode κ cfg.learnMode) (s : cfg.Thread) :
    Except GenFault cfg.Thread := do
  let isTcp := f.template.isTcp f.pktInfo
  let s ← f.clientPorts.foldlM
    (fun s client => s.deferClientPortFree isTcp (cfg.aging isTcp client.poolIdx) env.now client) s
  s.freeNode p

/-! ## 5. The scheduler -/

/-- The `FLOW_PKT` case of `flush_file`, for a node that was taken from the queue. -/
def handlePkt (always : Bool) (env : Env) (p : Ptr) (f : FlowNode κ cfg.learnMode)
    (s : cfg.Thread) :
    Except GenFault cfg.Thread := do
  let lp ← f.pkt
  let s := if !f.template.limitWasSet || !always then s.flushOneNode p f else s
  if lp.info.desc.isLastPkt then
    if f.template.limitWasSet && !always then do
      -- `reschedule_flow`
      let f ← f.resetPktInFlow
      .ok ((s.setNode p (.flow { f with time := f.time + f.template.restartTime })).addNode p)
    else freeLastFlowNode env p f s
  else do
    let f ← f.updateNextPktInFlow lp
    .ok ((s.setNode p (.flow f)).addNode p)

/-- The end of the `FLOW_PKT_NAT` case: the packet is sent. -/
def nextNatPkt (env : Env) (p : Ptr) (f : FlowNode κ cfg.learnMode) (lp : ReplayPkt)
    (s : cfg.Thread) :
    Except GenFault cfg.Thread := do
  let s := s.flushOneNode p f
  if lp.info.desc.isLastPkt then freeLastFlowNode env p f s
  else do
    let f ← f.updateNextPktInFlow lp
    .ok ((s.setNode p (.flow f)).addNode p)

/-- `terminate_nat_flows`. -/
def terminateNatFlows (env : Env) (p : Ptr) (f : FlowNode κ cfg.learnMode) (s : cfg.Thread) :
    Except GenFault cfg.Thread :=
  freeLastFlowNode env p f { s with lookup := s.lookup.erase f.getShortFid }

/-- The `FLOW_PKT_NAT` case of `handle_slow_messages`: repeat and NAT is not supported. -/
def handleNatPkt (env : Env) (p : Ptr) (f : FlowNode κ cfg.learnMode) (s : cfg.Thread) :
    Except GenFault cfg.Thread := do
  let lp ← f.pkt
  match f.natState with
  | .first => nextNatPkt env p { f with natState := .wait } lp s
  | .wait =>
    if lp.info.desc.isInitSide then nextNatPkt env p f lp s
    else
      -- time out: the responder has to answer, and the translation is not known
      terminateNatFlows env p f s
  | .off => .error .noNatState

/-- `inc_current_template`. -/
def incCurrentTemplate (cfg : Config κ) (cur : Nat) :
    Nat := if cur + 1 = cfg.capGen.length then 0 else cur + 1

/-- The loop of `generate_flows_roundrobin`: whether all limits were reached, the current template,
and the template of the flow that is opened. -/
def findTemplate (cfg : Config κ) (flowcnt : Nat → Nat) (policer : Nat → Bool) :
    Nat → Nat → Bool → Bool × Nat × Option (Template κ cfg.learnMode)
  | 0, cur, done => (done, cur, none)
  | i + 1, cur, done =>
    match cfg.capGen[cur]? with
    | none => (done, cur, none)
    | some t =>
      if !t.limitWasSet || flowcnt cur < t.limit then
        if policer cur then (false, cur, some t)
        else findTemplate cfg flowcnt policer i (incCurrentTemplate cfg cur) false
      else findTemplate cfg flowcnt policer i (incCurrentTemplate cfg cur) done

/-- `associate`. -/
def associate (s : cfg.Thread) (fid : UInt32) (p : Ptr) : Except GenFault cfg.Thread :=
  if (s.lookup.lookup fid).isSome then .error .associated
  else .ok { s with lookup := s.lookup.insert fid p }

/-- `generate_flow`, up to the learn mode. -/
def newFlow (env : Env) (t : Template κ cfg.learnMode) (s : cfg.Thread) :
    FlowNode κ cfg.learnMode where
  type := .flowPkt
  time := s.curTimeSec
  flowId := nodeFlowId s.curFlowId cfg.threadId
  template := t
  pktInfo := 0
  natState := .off
  srcIdx := env.srcIdx
  srcPort := env.srcPort
  rtpClients := env.rtpClients

/-- `generate_flow`: the node is `create_node`'s. -/
def generateFlow (env : Env) (t : Template κ cfg.learnMode) (s : cfg.Thread) :
    Except GenFault cfg.Thread := do
  let p := s.fresh
  let f := newFlow env t s
  let lp ← f.pkt
  let s := { s with born := Function.update s.born p (some ⟨t, s.curTimeSec⟩) }
  if cfg.learnMode && lp.info.desc.isBiDirectionalFlow then do
    let s ← associate s s.curFlowId.toUInt32 p
    let s := (s.createNode (.flow { f with type := .flowPktNat, natState := .first })).addNode p
    .ok { s with curFlowId := s.curFlowId + 1 }
  else
    let s := (s.createNode (.flow f)).addNode p
    .ok { s with curFlowId := s.curFlowId + 1 }

/-- `generate_flows_roundrobin`: whether all limits were reached. -/
def generateFlowsRoundrobin (env : Env) (s : cfg.Thread) : Except GenFault (cfg.Thread × Bool) := do
  let (done, cur, found) :=
    findTemplate cfg s.flowcnt env.policer cfg.capGen.length s.curTemplate true
  match found with
  | none => .ok ({ s with curTemplate := cur }, done)
  | some t => do
    let s ← generateFlow env t
      { s with flowcnt := Function.update s.flowcnt cur (s.flowcnt cur + 1)
               curTemplate := incCurrentTemplate cfg cur }
    .ok (s, done)

/-- The `FLOW_FIF` case of `flush_file`, for a node that was taken from the queue. -/
def handleFif (always : Bool) (env : Env) (p : Ptr) (time : Rat) (s : cfg.Thread) :
    Except GenFault cfg.Thread := do
  if always then s.freeNode p
  else do
    let (s, done) ← generateFlowsRoundrobin env { s with curTimeSec := time }
    if done then s.freeNode p
    else .ok ((s.setNode p (.flowFif (time + cfg.dTime))).addNode p)

/-- The end of `flush_file`, and what `start_generate_stateful` does next. -/
def endFlush (always : Bool) (now : Rat) (s : cfg.Thread) : Except GenFault cfg.Thread :=
  if s.terminatedByMaster then .ok { s with phase := .close }
  else if always then do
    let s ← s.handlerDeferJobFlush now
    .ok { s with phase := .close }
  else if cfg.noCleanFlowClose then .ok { s with phase := .close }
  else .ok { s with phase := .flush true }

/-- What `flush_file` does with a node that it took from the queue. -/
def popNode (always : Bool) (env : Env) (p : Ptr) (s : cfg.Thread) :
    CGenNode κ cfg.learnMode → Except GenFault cfg.Thread
  | .flow f =>
    match f.type with
    | .flowPkt => handlePkt always env p f s
    | .flowPktNat => handleNatPkt env p f s
  | .flowFif time => handleFif always env p time s
  | .deferPort _ _ => do
    let s ← s.handlerDeferJob env.now p
    s.freeNode p
  -- the messages are handled before the node is scheduled again
  | .flowSync time => .ok { s with curTimeSec := time, phase := .sync always p }
  | .exitSched _ => do
    let s ← s.freeNode p
    endFlush always env.now s

/-- `SYNC_TIME_OUT`. -/
def syncTimeOut : Rat := 1 / 1000

/-- The rest of a `FLOW_SYNC` node, after the messages: `flush_file` ends when no other node is
left. -/
def endSync (always : Bool) (p : Ptr) (now : Rat) (s : cfg.Thread) : Except GenFault cfg.Thread :=
  match s.node p with
  | some (.flowSync time) =>
    if s.queue = [] then do
      let s ← s.freeNode p
      endFlush always now s
    else .ok { (s.setNode p (.flowSync (time + syncTimeOut))).addNode p with
        phase := .flush always }
  | _ => .error .freed

/-- One entry of `handel_nat_msg`; the translation itself is left out. -/
def handelNatInfo (s : cfg.Thread) (fid : UInt32) : Except GenFault cfg.Thread :=
  match s.lookup.lookup fid with
  | none => .ok s
  | some p =>
    match s.node p with
    | some (.flow f) =>
      if f.natState ≠ .wait then .error .notWaiting
      else .ok { s.setNode p (.flow { f with type := .flowPkt }) with lookup := s.lookup.erase fid }
    | _ => .error .freed

/-- `quit_main_loop`: the message of the master. -/
def quitMainLoop (s : cfg.Thread) : cfg.Thread :=
  let p := s.fresh
  { (s.createNode (.exitSched (s.curTimeSec + 1 / 10000))).addNode p with terminatedByMaster :=
    true }

/-- `close_file`: `remove_all`. -/
def closeFile (s : cfg.Thread) : Except GenFault cfg.Thread := do
  let s ← s.queue.foldlM GenThread.freeNode { s with queue := [] }
  .ok { s with phase := .closed }

/-- `CFlowGenListPerThread::Delete`: `free_map_flow_id_to_node` puts every node of the map into the
pool of the messages (`CGlobalInfo::free_node`). -/
def deleteThread (s : cfg.Thread) : cfg.Thread :=
  { s with
    returnedGlobal := s.returnedGlobal ++ s.lookup.entries.map Sigma.snd
    lookup := ∅
    phase := .deleted }

/-! ## 6. Steps -/

/-- What a thread can do next. -/
inductive Act
  | pop (i : Nat) (env : Env)
  | nat (fid : UInt32)
  | quit
  | endSync (now : Rat)
  | closeFile
  | delete

/-- One step.  Only a node with the least time is taken from the queue. -/
def step (s : cfg.Thread) : Act → Except GenFault cfg.Thread
  | .pop i env =>
    match s.phase with
    | .flush always =>
      match s.queue[i]? with
      | none => .error .emptyQueue
      | some p => do
        let node ← s.deref p
        popNode always env p { s with queue := s.queue.eraseIdx i } node
    | _ => .ok s
  | .nat fid =>
    match s.phase with
    | .sync _ _ => handelNatInfo s fid
    | _ => .ok s
  | .quit =>
    match s.phase with
    | .sync _ _ => .ok (quitMainLoop s)
    | _ => .ok s
  | .endSync now =>
    match s.phase with
    | .sync always p => endSync always p now s
    | _ => .ok s
  | .closeFile =>
    match s.phase with
    | .close => closeFile s
    | _ => .ok s
  | .delete =>
    match s.phase with
    | .closed => .ok (deleteThread s)
    | _ => .ok s

/-- The time of the node at an address. -/
def GenThread.nodeTime (s : GenThread κ learnMode) (p : Ptr) :
    Rat := ((s.node p).map CGenNode.time).getD 0

/-- When a step is possible: a node that is taken has the least time. -/
def Enabled (s : cfg.Thread) : Act → Prop
  | .pop i _ => ∀ p ∈ s.queue[i]?, ∀ q ∈ s.queue, s.nodeTime p ≤ s.nodeTime q
  | _ => True

instance (s : cfg.Thread) (a : Act) : Decidable (Enabled s a) :=
  match a with
  | .pop i _ =>
    match h : s.queue[i]? with
    | none => .isTrue (by simp [Enabled, h])
    | some p => decidable_of_iff (∀ q ∈ s.queue, s.nodeTime p ≤ s.nodeTime q) (by simp [Enabled, h])
  | .nat _ => .isTrue trivial
  | .quit => .isTrue trivial
  | .endSync _ => .isTrue trivial
  | .closeFile => .isTrue trivial
  | .delete => .isTrue trivial

/-- The start of `start_generate_stateful`: the nodes that open flows, that handle messages and, in
`flush_file`, that end the run. -/
def startGenerate (cfg : Config κ) : cfg.Thread :=
  let s : cfg.Thread :=
    { node := fun _ => none
      fresh := 0
      queue := []
      curTemplate := cfg.threadId.toNat % cfg.capGen.length
      curTimeSec := cfg.startTime }
  let s := (s.createNode (.flowFif cfg.startTime)).addNode 0
  let s := (s.createNode (.flowSync (cfg.startTime + syncTimeOut))).addNode 1
  let cStopSec := cfg.startTime + cfg.durationSec
  if 0 < cStopSec then (s.createNode (.exitSched cStopSec)).addNode 2 else s

/-- The states that a thread can reach, by steps of which each is allowed. -/
inductive ReachableBy (allowed : cfg.Thread → Act → Prop) : cfg.Thread → Prop
  | init : ReachableBy allowed (startGenerate cfg)
  | step {s s' : cfg.Thread} {a : Act} : ReachableBy allowed s → Enabled s a → allowed s a →
      step s a = .ok s' → ReachableBy allowed s'

variable (cfg) in
/-- The states that a thread can reach. -/
def Reachable (s : cfg.Thread) : Prop := ReachableBy (fun _ _ => True) s

/-- A run, if all its steps are possible. -/
def run (s : cfg.Thread) : List Act → Option cfg.Thread
  | [] => some s
  | a :: acts =>
    if Enabled s a then
      match step s a with
      | .ok s' => run s' acts
      | .error _ => none
    else none

end Steps

end Trex.Gen
