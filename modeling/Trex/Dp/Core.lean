/-
# A data-plane core

`TrexStatelessDpCore` and `TrexStatelessDpPerPort` (`trex_stateless_dp_core.cpp`), with the
scheduler that runs them (`CNodeGenerator::flush_file`, `handle_slow_messages` and `remove_all` of
`bp_sim.cpp`). A core takes one step at a time: it handles a message of the control plane, or it
takes a node from the top of the priority queue.  A failed assertion, and everything that is
undefined in the source, is a fault.
-/
import Trex.Dp.Node
import Trex.Stream.Compiler

namespace Trex.Dp

open Trex.Stream

/-! ## 1. State -/

/-- `TrexStatelessDpPerPort::state_e`. -/
inductive PortState
  | ppSTATE_IDLE
  | ppSTATE_TRANSMITTING
  | ppSTATE_PAUSE
deriving DecidableEq, Repr

/-- `TrexStatelessDpPerPort`. -/
structure TrexStatelessDpPerPort where
  state : PortState
  activeStreams : Nat
  activeNodes : List Ptr
  eventId : Int
deriving DecidableEq

/-- `TrexStatelessDpStop`: the message, and the command that `add_port_duration` schedules. -/
structure TrexStatelessDpStop where
  portId : UInt8
  stopOnlyForEventId : Bool := false
  eventId : Int := 0
deriving DecidableEq

/-- What is in the priority queue. -/
inductive QueueNode
  | stateless (node : Ptr)
  | command (time : Rat) (cmd : TrexStatelessDpStop)
  | flowSync (time : Rat)
  | exitSched (time : Rat)
deriving DecidableEq

/-- `TrexStatelessDpCore::state_e`. -/
inductive CoreState
  | STATE_IDLE
  | STATE_TRANSMITTING
  | STATE_TERMINATE
deriving DecidableEq, Repr

/-- Where the thread of the core is: in `idle_state_loop`, in the loop of `flush_file`, in the
middle of a `FLOW_SYNC` node (which it took from the queue), or at its end. -/
inductive Phase
  | idleLoop
  | scheduler
  | sync (time : Rat)
  | ended
deriving DecidableEq

/-- `TrexDpPortEventMsg` of type `EVENT_STOP`, in the ring of its thread. -/
structure TrexDpPortEventMsg where
  portId : UInt8
  eventId : Int
deriving DecidableEq

/-- `TrexStatelessDpCore`, with the parts of `CFlowGenListPerThread` that it uses.  The ports are
numbered as they are in messages. -/
structure TrexStatelessDpCore where
  localPortOffset : UInt8
  ports : UInt8 → TrexStatelessDpPerPort
  heap : Ptr → Option CGenNodeStateless
  fresh : Ptr
  queue : List QueueNode
  nonActiveNodes : Nat
  curTimeSec : Rat
  state : CoreState
  terminated : Bool
  phase : Phase
  ringToCp : List TrexDpPortEventMsg

/-- The asserts of the source, by the function they are in, and what has no meaning in it. -/
inductive Fault
  | getPortDb
  | startNodes
  | startPortId
  | startSize
  | startNext
  | pauseState
  | pauseNode
  | resumeState
  | resumeNode
  | updateState
  | nodePortId
  | stopIdle
  | stopActive
  | deleteState
  | nextFree
  | streamType
  | maskForFree
  | nonActiveNodes
  /-- A pointer that is null, or to a node that was freed. -/
  | badPointer
  /-- `m_active_streams` goes below 0. -/
  | underflow
deriving DecidableEq

/-- `assert`. -/
def check (b : Prop) [Decidable b] (fault : Fault) : Except Fault Unit :=
  if b then .ok () else .error fault

namespace TrexStatelessDpCore

/-! ## 2. Memory, ports and the queue -/

/-- Follow a pointer. -/
def getNode (c : TrexStatelessDpCore) (p : Ptr) : Except Fault CGenNodeStateless :=
  match c.heap p with
  | some node => .ok node
  | none => .error .badPointer

/-- Change a node in place. -/
def setNode (c : TrexStatelessDpCore) (p : Ptr) (node : CGenNodeStateless) : TrexStatelessDpCore :=
  { c with heap := Function.update c.heap p (some node) }

/-- `free_node` of a stateless node. -/
def freeNode (c : TrexStatelessDpCore) (p : Ptr) : TrexStatelessDpCore :=
  { c with heap := Function.update c.heap p none }

/-- `m_p_queue.push`. -/
def push (c : TrexStatelessDpCore) (node : QueueNode) : TrexStatelessDpCore :=
  { c with queue := node :: c.queue }

/-- Change a port in place. -/
def setPort (c : TrexStatelessDpCore) (portId : UInt8) (port : TrexStatelessDpPerPort) :
    TrexStatelessDpCore :=
  { c with ports := Function.update c.ports portId port }

/-- The ports of a core, by its offset. -/
def HasPort (localPortOffset portId : UInt8) : Prop :=
  localPortOffset.toNat = portId.toNat ∨ localPortOffset.toNat + 1 = portId.toNat

instance (localPortOffset portId : UInt8) : Decidable (HasPort localPortOffset portId) :=
  inferInstanceAs (Decidable (_ ∨ _))

/-- `get_port_db`: the assertion. -/
def getPortDb (c : TrexStatelessDpCore) (portId : UInt8) : Except Fault TrexStatelessDpPerPort := do
  check (HasPort c.localPortOffset portId) .getPortDb
  .ok (c.ports portId)

/-! ## 3. Stop -/

/-- The loop of `TrexStatelessDpPerPort::stop_traffic`. -/
def stopNodes (portId : UInt8) : List Ptr → TrexStatelessDpCore → Except Fault TrexStatelessDpCore
  | [], c => .ok c
  | p :: rest, c => do
    let node ← c.getNode p
    check (node.portId = portId) .nodePortId
    if node.state = .ssACTIVE then do
      let port := c.ports portId
      check (0 < port.activeStreams) .underflow
      stopNodes portId rest ((c.setNode p node.markForFree).setPort portId
        { port with activeStreams := port.activeStreams - 1 })
    else do
      -- `CDpOneStream::Delete`
      check (node.state = .ssINACTIVE) .deleteState
      stopNodes portId rest (c.freeNode p)

/-- `TrexStatelessDpPerPort::stop_traffic`: whether it stopped the port. -/
def portStopTraffic (portId : UInt8) (stopOnId : Bool) (eventId : Int) (c : TrexStatelessDpCore) :
    Except Fault (TrexStatelessDpCore × Bool) := do
  let port := c.ports portId
  if port.state = .ppSTATE_IDLE then do
    check (port.activeStreams = 0) .stopIdle
    .ok (c, false)
  -- there could be a race of stop after stop
  else if stopOnId ∧ eventId ≠ port.eventId then .ok (c, false)
  else do
    let c ← stopNodes portId port.activeNodes c
    check ((c.ports portId).activeStreams = 0) .stopActive
    .ok (c.setPort portId { c.ports portId with activeNodes := [], state := .ppSTATE_IDLE }, true)

/-- `TrexStatelessDpCore::stop_traffic`: the control plane is told that the port stopped. -/
def stopTraffic (portId : UInt8) (stopOnId : Bool) (eventId : Int) (c : TrexStatelessDpCore) :
    Except Fault TrexStatelessDpCore := do
  let _ ← c.getPortDb portId
  let (c, stopped) ← portStopTraffic portId stopOnId eventId c
  if stopped then
    .ok { c with ringToCp := c.ringToCp ++ [⟨portId, (c.ports portId).eventId⟩] }
  else .ok c

/-! ## 4. Start -/

/-- `add_stream`: the node is made, listed, and scheduled if it is active. -/
def addStream (portId : UInt8) (stream : TrexStream) (c : TrexStatelessDpCore) :
    TrexStatelessDpCore :=
  let p := c.fresh
  let node := newNode c.curTimeSec stream
  let port := c.ports portId
  let c := { c.setNode p node with fresh := p + 1 }
  let c := c.setPort portId
    { port with
      activeStreams := if stream.selfStart then port.activeStreams + 1 else port.activeStreams
      activeNodes := port.activeNodes ++ [p] }
  if node.state = .ssACTIVE then c.push (.stateless p) else c

/-- The first loop of `start_traffic`. -/
def addStreams (portId : UInt8) : List TrexStream → TrexStatelessDpCore →
    Except Fault TrexStatelessDpCore
  | [], c => .ok c
  | stream :: rest, c => do
    check (portId = stream.portId) .startPortId
    addStreams portId rest (addStream portId stream c)

/-- The second loop of `start_traffic`: the links between the nodes; `cnt` counts the streams. -/
def linkStreams (portId : UInt8) : Nat → List TrexStream → TrexStatelessDpCore →
    Except Fault TrexStatelessDpCore
  | _, [], c => .ok c
  | cnt, stream :: rest, c =>
    if stream.isDpNextStream then do
      let nodes := (c.ports portId).activeNodes
      match nodes[stream.nextStreamId.toInt.toNat]? with
      | none => .error .startNext
      | some next =>
        match nodes[cnt]? with
        | none => .error .badPointer
        | some p => do
          let node ← c.getNode p
          linkStreams portId (cnt + 1) rest (c.setNode p { node with nextStream := some next })
    else linkStreams portId (cnt + 1) rest c

/-- `add_port_duration`. -/
def addPortDuration (duration : Rat) (portId : UInt8) (eventId : Int) (c : TrexStatelessDpCore) :
    TrexStatelessDpCore :=
  if duration > 0 then
    { c with nonActiveNodes := c.nonActiveNodes + 1 }.push
      (.command (c.curTimeSec + duration) ⟨portId, true, eventId⟩)
  else c

/-- `TrexStatelessDpCore::start_traffic`. -/
def startTraffic (obj : TrexStreamsCompiledObj) (duration : Rat) (eventId : Int)
    (c : TrexStatelessDpCore) : Except Fault TrexStatelessDpCore := do
  let portId := obj.portId
  let port ← c.getPortDb portId
  let c := c.setPort portId { port with activeStreams := 0, eventId := eventId }
  check (port.activeNodes = []) .startNodes
  let c ← addStreams portId obj.objs c
  check ((c.ports portId).activeNodes.length = obj.objs.length) .startSize
  let c ← linkStreams portId 0 obj.objs c
  let c := { c.setPort portId { c.ports portId with state := .ppSTATE_TRANSMITTING } with
    state := .STATE_TRANSMITTING }
  .ok (addPortDuration duration portId eventId c)

/-! ## 5. Pause, resume and update -/

/-- The loops of `pause_traffic` and `resume_traffic`. -/
def setPauseNodes (portId : UInt8) (enable : Bool) (fault : Fault) : List Ptr →
    TrexStatelessDpCore → Except Fault TrexStatelessDpCore
  | [], c => .ok c
  | p :: rest, c => do
    let node ← c.getNode p
    check (node.portId = portId) .nodePortId
    check (node.pause = !enable) fault
    setPauseNodes portId enable fault rest (c.setNode p (node.setPause enable))

/-- `pause_traffic`. -/
def pauseTraffic (portId : UInt8) (c : TrexStatelessDpCore) : Except Fault TrexStatelessDpCore := do
  let port ← c.getPortDb portId
  check (port.state = .ppSTATE_TRANSMITTING) .pauseState
  let c ← setPauseNodes portId true .pauseNode port.activeNodes c
  .ok (c.setPort portId { c.ports portId with state := .ppSTATE_PAUSE })

/-- `resume_traffic`. -/
def resumeTraffic (portId : UInt8) (c : TrexStatelessDpCore) :
    Except Fault TrexStatelessDpCore := do
  let port ← c.getPortDb portId
  check (port.state = .ppSTATE_PAUSE) .resumeState
  let c ← setPauseNodes portId false .resumeNode port.activeNodes c
  .ok (c.setPort portId { c.ports portId with state := .ppSTATE_TRANSMITTING })

/-- The loop of `update_traffic`. -/
def updateNodes (portId : UInt8) (factor : Rat) : List Ptr → TrexStatelessDpCore →
    Except Fault TrexStatelessDpCore
  | [], c => .ok c
  | p :: rest, c => do
    let node ← c.getNode p
    check (node.portId = portId) .nodePortId
    updateNodes portId factor rest (c.setNode p (node.updateRate factor))

/-- `update_traffic`. -/
def updateTraffic (portId : UInt8) (factor : Rat) (c : TrexStatelessDpCore) :
    Except Fault TrexStatelessDpCore := do
  let port ← c.getPortDb portId
  check (port.state = .ppSTATE_TRANSMITTING ∨ port.state = .ppSTATE_PAUSE) .updateState
  updateNodes portId factor port.activeNodes c

/-- `quit_main_loop`. -/
def quitMainLoop (c : TrexStatelessDpCore) : TrexStatelessDpCore :=
  { c with terminated := true, state := .STATE_TERMINATE }.push
    (.exitSched (c.curTimeSec + 1 / 10000))

/-! ## 6. The nodes -/

/-- `update_number_of_active_streams(1)`, and the stop of the port when none is left. -/
def reduceActiveStreams (portId : UInt8) (c : TrexStatelessDpCore) :
    Except Fault TrexStatelessDpCore := do
  let port := c.ports portId
  check (0 < port.activeStreams) .underflow
  let c := c.setPort portId { port with activeStreams := port.activeStreams - 1 }
  if port.activeStreams - 1 = 0 then stopTraffic portId false 0 c else .ok c

/-- `set_stateless_next_node`: whether the next node is to be scheduled. -/
def setStatelessNextNode (portId : UInt8) (nextNode : Option Ptr) (c : TrexStatelessDpCore) :
    Except Fault (TrexStatelessDpCore × Bool) := do
  let _ ← c.getPortDb portId
  match nextNode with
  | none => do
    let c ← reduceActiveStreams portId c
    .ok (c, false)
  | some q => do
    let next ← c.getNode q
    match next.state with
    | .ssFREE_RESUSE => .error .nextFree
    | .ssINACTIVE =>
      match next.refStreamInfo with
      | none => .error .badPointer
      | some info => .ok (c.setNode q (next.refresh info), true)
    | .ssACTIVE => do
      let c ← reduceActiveStreams portId c
      .ok (c, false)

/-- The last packet of a burst node: the next stream, if it starts, is scheduled from the time of
this one. -/
def finishNode (p : Ptr) (node : CGenNodeStateless) (c : TrexStatelessDpCore) :
    Except Fault TrexStatelessDpCore := do
  let (c, schedule) ← setStatelessNextNode node.portId node.nextStream
    (c.setNode p node.handleMultiBurst)
  if schedule then
    match node.nextStream with
    | none => .error .badPointer
    | some q => do
      let next ← c.getNode q
      match next.refStreamInfo with
      | none => .error .badPointer
      | some info =>
        .ok ((c.setNode q (next.updateRefreshTime info node.handleMultiBurst.time)).push
          (.stateless q))
  else .ok c

/-- `handle`: a node that was taken from the queue sends its packet. -/
def handleNode (p : Ptr) (node : CGenNodeStateless) (c : TrexStatelessDpCore) :
    Except Fault TrexStatelessDpCore :=
  match node.streamType with
  | .stCONTINUOUS => .ok ((c.setNode p node.handleContinues).push (.stateless p))
  | .stMULTI_BURST =>
    if node.isLastPacket then finishNode p node c
    else .ok ((c.setNode p node.handleMultiBurst).push (.stateless p))
  | .stSINGLE_BURST => .error .streamType

/-- A stateless node that was taken from the queue. -/
def popStateless (p : Ptr) (c : TrexStatelessDpCore) : Except Fault TrexStatelessDpCore := do
  let node ← c.getNode p
  if node.state = .ssFREE_RESUSE then .ok (c.freeNode p) else handleNode p node c

/-! ## 7. The scheduler -/

/-- `SYNC_TIME_OUT`. -/
def syncTimeOut : Rat := 1 / 1000

/-- `on_node_remove`. -/
def onNodeRemove (c : TrexStatelessDpCore) : Except Fault TrexStatelessDpCore := do
  check (0 < c.nonActiveNodes) .nonActiveNodes
  .ok { c with nonActiveNodes := c.nonActiveNodes - 1 }

/-- `remove_all`. -/
def removeAll : List QueueNode → TrexStatelessDpCore → Except Fault TrexStatelessDpCore
  | [], c => .ok c
  | .stateless p :: rest, c => do
    let node ← c.getNode p
    check (node.state = .ssFREE_RESUSE) .maskForFree
    removeAll rest (c.freeNode p)
  | .command _ _ :: rest, c => do
    let c ← c.onNodeRemove
    removeAll rest c
  | .flowSync _ :: rest, c => removeAll rest c
  | .exitSched _ :: rest, c => removeAll rest c

/-- The end of `start_scheduler`, after `flush_file`: back to the idle loop, unless the master
terminated the core. -/
def closeScheduler (c : TrexStatelessDpCore) : Except Fault TrexStatelessDpCore :=
  if c.state = .STATE_TERMINATE then .ok { c with phase := .ended }
  else do
    let c ← removeAll c.queue { c with queue := [] }
    .ok { c with state := .STATE_IDLE, phase := if c.terminated then .ended else .idleLoop }

/-- The time of a node in the queue. -/
def nodeTime (c : TrexStatelessDpCore) : QueueNode → Rat
  | .stateless p => ((c.heap p).map CGenNodeStateless.time).getD 0
  | .command time _ => time
  | .flowSync time => time
  | .exitSched time => time

/-- What `flush_file` does with a node that it took from the queue. -/
def popNode (c : TrexStatelessDpCore) : QueueNode → Except Fault TrexStatelessDpCore
  | .stateless p => popStateless p c
  | .command _ cmd => do
    let c ← stopTraffic cmd.portId cmd.stopOnlyForEventId cmd.eventId c
    c.onNodeRemove
  -- the messages of the control plane are handled before the node is scheduled again
  | .flowSync time => .ok { c with curTimeSec := time, phase := .sync time }
  | .exitSched _ => closeScheduler c

/-- The rest of a `FLOW_SYNC` node, after the messages: the scheduler ends when only stop commands
are left. -/
def endSync (time : Rat) (c : TrexStatelessDpCore) : Except Fault TrexStatelessDpCore :=
  if c.queue.length = c.nonActiveNodes then closeScheduler c
  else .ok { c.push (.flowSync (time + syncTimeOut)) with phase := .scheduler }

/-! ## 8. Steps -/

/-- The messages of the control plane. -/
inductive CpToDpMsg
  | start (obj : TrexStreamsCompiledObj) (duration : Rat) (eventId : Int)
  | stop (cmd : TrexStatelessDpStop)
  | pause (portId : UInt8)
  | resume (portId : UInt8)
  | update (portId : UInt8) (factor : Rat)
  | quit
deriving DecidableEq

/-- `handle_cp_msg`. -/
def handleCpMsg (c : TrexStatelessDpCore) : CpToDpMsg → Except Fault TrexStatelessDpCore
  | .start obj duration eventId => startTraffic obj duration eventId c
  | .stop cmd => stopTraffic cmd.portId cmd.stopOnlyForEventId cmd.eventId c
  | .pause portId => pauseTraffic portId c
  | .resume portId => resumeTraffic portId c
  | .update portId factor => updateTraffic portId factor c
  | .quit => .ok c.quitMainLoop

/-- What a core can do next. -/
inductive Act
  | msg (m : CpToDpMsg)
  | leaveIdle
  | pop (k : Nat)
  | endSync
deriving DecidableEq

/-- When it can: messages are read in the idle loop and at a `FLOW_SYNC` node, and a node that is
taken from the queue has the least time; among equal times, any is taken. -/
def Enabled (c : TrexStatelessDpCore) : Act → Prop
  | .msg _ => c.phase ≠ .scheduler ∧ c.phase ≠ .ended
  | .leaveIdle => c.phase = .idleLoop ∧ c.state ≠ .STATE_IDLE
  | .pop k => c.phase = .scheduler ∧ ∃ node, c.queue[k]? = some node
      ∧ ∀ other ∈ c.queue, c.nodeTime node ≤ c.nodeTime other
  | .endSync => ∃ time, c.phase = .sync time

instance (c : TrexStatelessDpCore) (a : Act) : Decidable (c.Enabled a) :=
  match a with
  | .msg _ => inferInstanceAs (Decidable (_ ∧ _))
  | .leaveIdle => inferInstanceAs (Decidable (_ ∧ _))
  | .pop k =>
    match hk : c.queue[k]? with
    | none => .isFalse fun h => by
        obtain ⟨-, node, hnode, -⟩ := h
        rw [hk] at hnode
        cases hnode
    | some node =>
      decidable_of_iff (c.phase = .scheduler ∧
        ∀ other ∈ c.queue, c.nodeTime node ≤ c.nodeTime other)
        ⟨fun h => ⟨h.1, node, hk, h.2⟩, fun h => by
          obtain ⟨hphase, node', hnode, hle⟩ := h
          rw [hk] at hnode
          cases hnode
          exact ⟨hphase, hle⟩⟩
  | .endSync =>
    match hphase : c.phase with
    | .sync time => .isTrue ⟨time, hphase⟩
    | .idleLoop => .isFalse fun h => by
        obtain ⟨time, htime⟩ := h
        rw [hphase] at htime
        cases htime
    | .scheduler => .isFalse fun h => by
        obtain ⟨time, htime⟩ := h
        rw [hphase] at htime
        cases htime
    | .ended => .isFalse fun h => by
        obtain ⟨time, htime⟩ := h
        rw [hphase] at htime
        cases htime

/-- One step. -/
def step (c : TrexStatelessDpCore) : Act → Except Fault TrexStatelessDpCore
  | .msg m => c.handleCpMsg m
  | .leaveIdle =>
    if c.state = .STATE_TERMINATE then .ok { c with phase := .ended }
    else .ok { c.push (.flowSync (c.curTimeSec + syncTimeOut)) with phase := .scheduler }
  | .pop k =>
    match c.queue[k]? with
    | none => .error .badPointer
    | some node => popNode { c with queue := c.queue.eraseIdx k } node
  | .endSync =>
    match c.phase with
    | .sync time => endSync time c
    | _ => .ok c

/-- `create`: all ports are idle.  The event ids and the time are whatever they are. -/
structure Initial (c : TrexStatelessDpCore) : Prop where
  ports : ∀ i, (c.ports i).state = .ppSTATE_IDLE ∧ (c.ports i).activeStreams = 0
    ∧ (c.ports i).activeNodes = []
  heap : ∀ p, c.heap p = none
  queue : c.queue = []
  nonActiveNodes : c.nonActiveNodes = 0
  state : c.state = .STATE_IDLE
  terminated : c.terminated = false
  phase : c.phase = .idleLoop
  ringToCp : c.ringToCp = []

/-- The states that a core can reach. -/
inductive Reachable : TrexStatelessDpCore → Prop
  | init {c : TrexStatelessDpCore} : c.Initial → Reachable c
  | step {c c' : TrexStatelessDpCore} {a : Act} : Reachable c → c.Enabled a → c.step a = .ok c' →
      Reachable c'

end TrexStatelessDpCore

end Trex.Dp
