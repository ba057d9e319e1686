/-
# A port of the control plane

`TrexStatelessPort` (`trex_stateless_port.cpp`) and its stop event, `TrexDpPortEvent`
(`trex_dp_port_events.cpp`).  A request changes the port and sends messages to the data-plane cores
of the port, or it is refused and changes nothing.  The effective factor of a multiplier, which the
graph of the streams gives, is part of the request.
-/
import Mathlib.Data.List.FinRange
import Trex.Dp.Core
import Trex.Lib.Channel
import Trex.Stream.Mirror

namespace Trex.Cp

open Trex.Lib Trex.Stream Trex.Dp

/-! ## 1. The stop event -/

/-- `EVENT_ID_INVALID`. -/
def eventIdInvalid : Int := -1

/-- `TrexDpPortEvent` of type `EVENT_STOP`, for `n` cores.  It is never given a timeout. -/
structure TrexDpPortEvent (n : Nat) where
  signal : Fin n → Bool
  pendingCnt : Int
  eventId : Int

namespace TrexDpPortEvent

variable {n : Nat}

/-- `wait_for_event`. -/
def waitForEvent (eventId : Int) : TrexDpPortEvent n := ⟨fun _ => false, n, eventId⟩

/-- `disable`. -/
def disable (ev : TrexDpPortEvent n) : TrexDpPortEvent n := { ev with eventId := eventIdInvalid }

/-- `is_active`: without a timeout, the status is `EVENT_DISABLE` exactly when the id is invalid. -/
def isActive (ev : TrexDpPortEvent n) : Bool := ev.eventId != eventIdInvalid

/-- `m_signal.at(thread_id) = true` and `m_pending_cnt--`, unless the thread signalled before. -/
def mark (threadId : Fin n) (ev : TrexDpPortEvent n) : TrexDpPortEvent n :=
  if ev.signal threadId then ev
  else { ev with
    signal := Function.update ev.signal threadId true
    pendingCnt := ev.pendingCnt - 1 }

/-- `handle_event`: the event, and whether it occurred. -/
def handleEvent (threadId : Fin n) (eventId : Int) (ev : TrexDpPortEvent n) :
    TrexDpPortEvent n × Bool :=
  if !ev.isActive then (ev, false)
  else if eventId ≠ ev.eventId then (ev, false)
  else if (ev.mark threadId).pendingCnt = 0 then ((ev.mark threadId).disable, true)
  else (ev.mark threadId, false)

end TrexDpPortEvent

/-! ## 2. Ports -/

/-- `TrexStatelessPort::port_state_e`. -/
inductive TrexStatelessPort.PortState
  | PORT_STATE_DOWN
  | PORT_STATE_IDLE
  | PORT_STATE_STREAMS
  | PORT_STATE_TX
  | PORT_STATE_PAUSE
deriving DecidableEq, Repr

open TrexStatelessPort.PortState

/-- `TrexStatelessPort`, with `m_event_id_counter` and the stop event of its `TrexDpPortEvents`. -/
structure TrexStatelessPort (n : UInt8) where
  portId : UInt8
  portState : TrexStatelessPort.PortState
  streamTable : List TrexStream
  lastAllStreamsContinues : Bool
  lastDuration : Rat
  factor : Rat
  eventIdCounter : Int
  stopEvent : TrexDpPortEvent n.toNat

/-- How a request can fail. -/
inductive PortErr
  /-- A `TrexRpcException`, with its text. -/
  | exception (what : String)
  /-- An assertion of the compiler that fails or a loop of it that does not end, a port without
  cores, or an event id that does not fit into an `int`. -/
  | undefined
deriving DecidableEq, Repr

/-- `compile` returns false with a text, or it does not return. -/
def PortErr.ofCompile : CompileErr → PortErr
  | .exception what => .exception what
  | .assertFail => .undefined
  | .diverges => .undefined

/-- `TrexPortMultiplier::mul_op_e`. -/
inductive MulOp
  | OP_ABS
  | OP_ADD
  | OP_SUB
deriving DecidableEq, Repr

/-- The port after a request, and the messages for every core. -/
structure Reply (n : UInt8) where
  port : TrexStatelessPort n
  toDp : Fin n.toNat → List TrexStatelessDpCore.CpToDpMsg

namespace TrexStatelessPort

variable {n : UInt8}

/-- `get_state_as_string`. -/
def PortState.getStateAsString : PortState → String
  | PORT_STATE_DOWN => "DOWN"
  | PORT_STATE_IDLE => "IDLE"
  | PORT_STATE_STREAMS => "STREAMS"
  | PORT_STATE_TX => "TX"
  | PORT_STATE_PAUSE => "PAUSE"

/-- `verify_state`. -/
def verifyState (states : List PortState) (port : TrexStatelessPort n) : Except PortErr Unit :=
  if port.portState ∈ states then .ok ()
  else .error (.exception ("command cannot be executed on current state: '"
    ++ port.portState.getStateAsString ++ "'"))

/-- A request that sends nothing. -/
def silent (port : TrexStatelessPort n) : Reply n := ⟨port, fun _ => []⟩

/-- `send_message_to_all_dp`. -/
def sendMessageToAllDp (msg : TrexStatelessDpCore.CpToDpMsg) (port : TrexStatelessPort n) :
    Reply n :=
  ⟨port, fun _ => [msg]⟩

/-- `add_stream`: a stream with the same id is replaced. -/
def addStream (stream : TrexStream) (port : TrexStatelessPort n) : Except PortErr (Reply n) := do
  port.verifyState [PORT_STATE_IDLE, PORT_STATE_STREAMS]
  let others := port.streamTable.filter fun s => s.streamId != stream.streamId
  .ok { port with streamTable := others ++ [stream], portState := PORT_STATE_STREAMS }.silent

/-- `remove_stream`. -/
def removeStream (streamId : UInt32) (port : TrexStatelessPort n) : Except PortErr (Reply n) := do
  port.verifyState [PORT_STATE_STREAMS]
  let others := port.streamTable.filter fun s => s.streamId != streamId
  .ok { port with
    streamTable := others
    portState := if others.isEmpty then PORT_STATE_IDLE else port.portState }.silent

/-- `remove_and_delete_all_streams`. -/
def removeAndDeleteAllStreams (port : TrexStatelessPort n) : Except PortErr (Reply n) := do
  port.verifyState [PORT_STATE_IDLE, PORT_STATE_STREAMS]
  .ok { port with streamTable := [], portState := PORT_STATE_IDLE }.silent

/-- `generate_event_id`: the counter is an `int`. -/
def generateEventId (port : TrexStatelessPort n) : Except PortErr Int :=
  if port.eventIdCounter + 1 < 2 ^ 31 then .ok (port.eventIdCounter + 1) else .error .undefined

/-- `start_traffic`.  `streams` is what `get_object_list` returns, and `rand` is the random numbers
that the compiler draws. -/
def startTraffic (rand : Nat → Nat → Nat) (streams : List TrexStream) (factor duration : Rat)
    (port : TrexStatelessPort n) : Except PortErr (Reply n) := do
  port.verifyState [PORT_STATE_STREAMS]
  let objs ← (compileAll rand port.portId streams n factor).mapError PortErr.ofCompile
  let eventId ← port.generateEventId
  match objs[0]? with
  | none => .error .undefined
  | some first =>
    .ok ⟨{ port with
        eventIdCounter := eventId
        stopEvent := .waitForEvent eventId
        factor := factor
        lastAllStreamsContinues := first.allContinues
        lastDuration := duration
        portState := PORT_STATE_TX },
      fun core => objs[core.val]?.toList.map fun obj => .start obj duration eventId⟩

/-- `stop_traffic`. -/
def stopTraffic (port : TrexStatelessPort n) : Except PortErr (Reply n) :=
  if port.portState ∉ [PORT_STATE_TX, PORT_STATE_PAUSE] then .ok port.silent
  else .ok ({ port with
      stopEvent := port.stopEvent.disable
      portState := PORT_STATE_STREAMS }.sendMessageToAllDp (.stop ⟨port.portId, false, 0⟩))

/-- `pause_traffic`. -/
def pauseTraffic (port : TrexStatelessPort n) : Except PortErr (Reply n) := do
  port.verifyState [PORT_STATE_TX]
  if port.lastAllStreamsContinues = false then
    .error (.exception " pause is supported when all streams are in continues mode ")
  else if port.lastDuration > 0 then
    .error (.exception " pause is supported when duration is not enable is start command ")
  else .ok ({ port with portState := PORT_STATE_PAUSE }.sendMessageToAllDp (.pause port.portId))

/-- `resume_traffic`. -/
def resumeTraffic (port : TrexStatelessPort n) : Except PortErr (Reply n) := do
  port.verifyState [PORT_STATE_PAUSE]
  .ok ({ port with portState := PORT_STATE_TX }.sendMessageToAllDp (.resume port.portId))

/-- The factor that `update_traffic` sends. -/
def updateFactor (op : MulOp) (newFactor : Rat) (port : TrexStatelessPort n) : Rat :=
  match op with
  | .OP_ABS => newFactor / port.factor
  | .OP_ADD => (port.factor + newFactor) / port.factor
  | .OP_SUB => (port.factor - newFactor) / port.factor

/-- `update_traffic`. -/
def updateTraffic (op : MulOp) (newFactor : Rat) (port : TrexStatelessPort n) :
    Except PortErr (Reply n) := do
  port.verifyState [PORT_STATE_TX, PORT_STATE_PAUSE]
  let factor := port.updateFactor op newFactor
  if op = .OP_SUB ∧ factor ≤ 0 then
    .error (.exception "Update request will lower traffic to less than zero")
  else .ok ({ port with factor := port.factor * factor }.sendMessageToAllDp
    (.update port.portId factor))

/-- `TrexDpPortEventMsg::handle`, with `on_dp_event_occured`. -/
def handleEvent (threadId : Fin n.toNat) (eventId : Int) (port : TrexStatelessPort n) :
    TrexStatelessPort n :=
  let r := port.stopEvent.handleEvent threadId eventId
  if r.2 then { port with stopEvent := r.1, portState := PORT_STATE_STREAMS }
  else { port with stopEvent := r.1 }

/-- What a user can ask of a port. -/
inductive Request
  | addStream (stream : TrexStream)
  | removeStream (streamId : UInt32)
  | removeAllStreams
  | start (rand : Nat → Nat → Nat) (streams : List TrexStream) (factor duration : Rat)
  | stop
  | pause
  | resume
  | update (op : MulOp) (newFactor : Rat)

/-- A request. -/
def handle (port : TrexStatelessPort n) : Request → Except PortErr (Reply n)
  | .addStream stream => port.addStream stream
  | .removeStream streamId => port.removeStream streamId
  | .removeAllStreams => port.removeAndDeleteAllStreams
  | .start rand streams factor duration => port.startTraffic rand streams factor duration
  | .stop => port.stopTraffic
  | .pause => port.pauseTraffic
  | .resume => port.resumeTraffic
  | .update op newFactor => port.updateTraffic op newFactor

/-- What the RPC server makes of a request: a stream is made for the port it is added to, and the
table of the streams is unordered. -/
def Admissible (port : TrexStatelessPort n) : Request → Prop
  | .addStream stream => stream.portId = port.portId
  | .removeStream _ => True
  | .removeAllStreams => True
  | .start _ streams _ _ => streams.Perm port.streamTable
  | .stop => True
  | .pause => True
  | .resume => True
  | .update _ _ => True

/-- The constructor.  The other fields are not set before the first start. -/
structure Created (portId : UInt8) (port : TrexStatelessPort n) : Prop where
  portId : port.portId = portId
  portState : port.portState = PORT_STATE_IDLE
  streamTable : port.streamTable = []
  eventIdCounter : port.eventIdCounter = eventIdInvalid
  stopEvent : port.stopEvent.eventId = eventIdInvalid

/-! ## 3. The invariant of a port -/

/-- The run does not end by itself: `pause_traffic` is allowed. -/
def endless (port : TrexStatelessPort n) : Bool :=
  port.lastAllStreamsContinues && decide (¬ port.lastDuration > 0)

/-- What the port believes about its cores. -/
def belief (port : TrexStatelessPort n) : Belief :=
  match port.portState with
  | PORT_STATE_DOWN => .off
  | PORT_STATE_IDLE => .off
  | PORT_STATE_STREAMS => .off
  | PORT_STATE_TX => .on port.endless
  | PORT_STATE_PAUSE => .paused

/-- The number of cores that have not signalled. -/
def unsignalled {n : Nat} (signal : Fin n → Bool) : Nat :=
  (List.finRange n).countP fun core => !signal core

/-- **The invariant of a port**: while it transmits or is paused it waits for the stop of its last
run, from every core that has not signalled. -/
structure Ok (port : TrexStatelessPort n) : Prop where
  streams : ∀ s ∈ port.streamTable, s.portId = port.portId
  counter : eventIdInvalid ≤ port.eventIdCounter
  paused : port.portState = PORT_STATE_PAUSE → port.endless = true
  active : port.belief ≠ .off → port.stopEvent.eventId = port.eventIdCounter
    ∧ eventIdInvalid < port.eventIdCounter
    ∧ port.stopEvent.pendingCnt = unsignalled port.stopEvent.signal
    ∧ 0 < unsignalled port.stopEvent.signal
  inactive : port.belief = .off → port.stopEvent.eventId = eventIdInvalid

theorem Created.ok {portId : UInt8} {port : TrexStatelessPort n} (h : Created portId port) :
    port.Ok := by
  have hoff : port.belief = .off := by rw [belief, h.portState]
  refine ⟨?_, le_of_eq h.eventIdCounter.symm, ?_, fun hon => absurd hoff hon, fun _ => h.stopEvent⟩
  · intro s hs
    rw [h.streamTable] at hs
    cases hs
  · intro hp
    rw [h.portState] at hp
    cases hp

end TrexStatelessPort

end Trex.Cp
