/-
# All of a port

`TrexStatelessPort` with what `Port.lean` leaves out: the graph of its streams (`m_graph_obj`), the
multipliers of the requests, `validate`, and the owner.  An operation is a program that changes the
port as it goes and may throw on the way; what it changed before it threw stays changed.

An operation that returns does what the request of `Port.lean` does (`perform_handle`), so the
results about requests hold for operations.
-/
import Trex.Cp.Reply
import Trex.Lib.Throw
import Trex.Stream.Graph

namespace Trex.Cp

open Trex.Lib Trex.Stream Trex.Dp TrexStatelessPort.PortState

/-! ## 1. Owners and multipliers -/

/-- `TrexPortOwner`. -/
structure TrexPortOwner where
  isFree : Bool := true
  ownerName : String := ""
  handler : String := ""
deriving DecidableEq, Repr

namespace TrexPortOwner

/-- `release`. -/
def release : TrexPortOwner := {}

/-- `own`; `handler` is what `generate_handler` makes. -/
def own (ownerName handler : String) : TrexPortOwner := ⟨false, ownerName, handler⟩

/-- `verify`. -/
def verify (owner : TrexPortOwner) (handler : String) : Bool :=
  !owner.isFree && owner.handler == handler

/-- `get_name`. -/
def getName (owner : TrexPortOwner) : String := if !owner.isFree then owner.ownerName else "<FREE>"

/-- `get_handler`. -/
def getHandler (owner : TrexPortOwner) : String := if !owner.isFree then owner.handler else ""

end TrexPortOwner

/-- `TrexPortMultiplier::mul_type_e`. -/
inductive MulType
  | MUL_FACTOR
  | MUL_BPS
  | MUL_PPS
  | MUL_PERCENTAGE
deriving DecidableEq, Repr

/-- `TrexPortMultiplier`. -/
structure TrexPortMultiplier where
  type : MulType
  op : MulOp
  value : Rat
deriving DecidableEq

/-- `TrexPlatformApi::driver_speed_e`. -/
inductive DriverSpeed
  | SPEED_INVALID
  | SPEED_1G
  | SPEED_10G
  | SPEED_40G
deriving DecidableEq, Repr

/-- `get_port_speed_bps`. -/
def DriverSpeed.bps : DriverSpeed → Rat
  | SPEED_INVALID => 0
  | SPEED_1G => 1000 * 1000 * 1000
  | SPEED_10G => 10 * 1000 * 1000 * 1000
  | SPEED_40G => 40 * 1000 * 1000 * 1000

/-! ## 2. The port and its operations -/

/-- `TrexStatelessPort`, with the messages that it sent to every core. -/
structure ControlPort (n : UInt8) extends TrexStatelessPort n where
  /-- Nothing sets it. -/
  speed : DriverSpeed
  graphObj : Option TrexStreamsGraphObj
  owner : TrexPortOwner
  toDp : Fin n.toNat → List TrexStatelessDpCore.CpToDpMsg

/-- What an operation can throw. -/
inductive Throw
  | rpcException (what : String)
  | trexException (what : String)
  /-- No exception: an assertion fails, or what the source does has no meaning. -/
  | undefined
deriving DecidableEq, Repr

/-- An exception, and not the end of the program. -/
def Throw.IsException (e : Throw) : Prop := e ≠ .undefined

/-- An operation of a port. -/
abbrev PortProg (n : UInt8) (α : Type) := EStateM Throw (ControlPort n) α

namespace ControlPort

variable {n : UInt8}

/-- `verify_state`. -/
def verifyState (states : List TrexStatelessPort.PortState) : PortProg n Unit := do
  let port ← get
  if port.portState ∈ states then pure ()
  else throw (.rpcException ("command cannot be executed on current state: '"
    ++ port.portState.getStateAsString ++ "'"))

/-- `change_state`. -/
def changeState (state : TrexStatelessPort.PortState) : PortProg n Unit :=
  modify fun port => { port with portState := state }

/-- `send_message_to_dp`, for every core. -/
def sendMessagesToDp (msgs : Fin n.toNat → List TrexStatelessDpCore.CpToDpMsg) : PortProg n Unit :=
  modify fun port => { port with toDp := fun core => port.toDp core ++ msgs core }

/-- `send_message_to_all_dp`. -/
def sendMessageToAllDp (msg : TrexStatelessDpCore.CpToDpMsg) : PortProg n Unit :=
  sendMessagesToDp fun _ => [msg]

/-- `delete_streams_graph`. -/
def deleteStreamsGraph : PortProg n Unit := modify fun port => { port with graphObj := none }

/-- `generate_streams_graph`; `streams` is what `get_object_list` returns. -/
def generateStreamsGraph (streams : List TrexStream) : PortProg n Unit := do
  deleteStreamsGraph
  match TrexStreamsGraph.generate streams with
  | .ok graph => modify fun port => { port with graphObj := some graph }
  | .error (.exception what) => throw (.trexException what)
  | .error .undefined => throw .undefined
  | .error .diverges => throw .undefined

/-- The graph, generated if there is none. -/
def getGraph (streams : List TrexStream) : PortProg n TrexStreamsGraphObj := do
  let port ← get
  doIf port.graphObj.isNone (generateStreamsGraph streams)
  let port ← get
  match port.graphObj with
  | some graph => pure graph
  | none => throw .undefined

/-- `calculate_effective_factor`.  Where the source divides by a rate of 0 it gets an infinity, and
0 is got here. -/
def calculateEffectiveFactor (streams : List TrexStream) (mul : TrexPortMultiplier) :
    PortProg n Rat :=
  match mul.type with
  | .MUL_FACTOR => pure mul.value
  | .MUL_BPS => do
    let graph ← getGraph streams
    pure (mul.value / graph.maxBps)
  | .MUL_PPS => do
    let graph ← getGraph streams
    pure (mul.value / graph.maxPps)
  | .MUL_PERCENTAGE => do
    let graph ← getGraph streams
    let port ← get
    if mul.op = .OP_ABS then pure (mul.value / 100 * port.speed.bps / graph.maxBps)
    else pure (port.factor * (mul.value / 100))

/-- `TrexStreamsCompiler::compile` for the cores of the port; it fails with `wrap` of its text. -/
def compileStreams (rand : Nat → Nat → Nat) (streams : List TrexStream) (factor : Rat)
    (wrap : String → Throw) : PortProg n (List TrexStreamsCompiledObj) := do
  let port ← get
  match compileAll rand port.portId streams n factor with
  | .ok objs => pure objs
  | .error (.exception what) => throw (wrap what)
  | .error .assertFail => throw .undefined
  | .error .diverges => throw .undefined

/-- `generate_event_id`: the counter is an `int`. -/
def generateEventId : PortProg n Int := do
  let port ← get
  if port.eventIdCounter + 1 < 2 ^ 31 then do
    modify fun port => { port with eventIdCounter := port.eventIdCounter + 1 }
    pure (port.eventIdCounter + 1)
  else throw .undefined

/-- `add_stream`. -/
def addStream (stream : TrexStream) : PortProg n Unit := do
  verifyState [PORT_STATE_IDLE, PORT_STATE_STREAMS]
  modify fun port =>
    { port with
      streamTable := (port.streamTable.filter fun s => s.streamId != stream.streamId) ++ [stream] }
  deleteStreamsGraph
  changeState PORT_STATE_STREAMS

/-- `remove_stream`. -/
def removeStream (streamId : UInt32) : PortProg n Unit := do
  verifyState [PORT_STATE_STREAMS]
  modify fun port =>
    { port with streamTable := port.streamTable.filter fun s => s.streamId != streamId }
  deleteStreamsGraph
  let port ← get
  doIf port.streamTable.isEmpty (changeState PORT_STATE_IDLE)

/-- `remove_and_delete_all_streams`. -/
def removeAndDeleteAllStreams : PortProg n Unit := do
  verifyState [PORT_STATE_IDLE, PORT_STATE_STREAMS]
  modify fun port => { port with streamTable := [] }
  deleteStreamsGraph
  changeState PORT_STATE_IDLE

/-- `validate`. -/
def validate (rand : Nat → Nat → Nat) (streams : List TrexStream) :
    PortProg n TrexStreamsGraphObj := do
  throwIf (streams.length = 0) (.trexException "no streams attached to port")
  let _ ← compileStreams rand streams 1 .trexException
  getGraph streams

/-- `start_traffic`. -/
def startTraffic (rand : Nat → Nat → Nat) (streams : List TrexStream) (mul : TrexPortMultiplier)
    (duration : Rat) : PortProg n Unit := do
  verifyState [PORT_STATE_STREAMS]
  deleteStreamsGraph
  throwIf (mul.op ≠ .OP_ABS) .undefined
  let factor ← calculateEffectiveFactor streams mul
  let objs ← compileStreams rand streams factor .rpcException
  let eventId ← generateEventId
  modify fun port => { port with stopEvent := .waitForEvent eventId }
  modify fun port => { port with factor := factor }
  match objs[0]? with
  | none => throw .undefined
  | some first => do
    modify fun port => { port with lastAllStreamsContinues := first.allContinues }
    modify fun port => { port with lastDuration := duration }
    changeState PORT_STATE_TX
    sendMessagesToDp fun core => objs[core.val]?.toList.map fun obj => .start obj duration eventId

/-- `stop_traffic`. -/
def stopTraffic : PortProg n Unit := do
  let port ← get
  if port.portState ∉ [PORT_STATE_TX, PORT_STATE_PAUSE] then pure ()
  else do
    deleteStreamsGraph
    modify fun port => { port with stopEvent := port.stopEvent.disable }
    sendMessageToAllDp (.stop ⟨port.portId, false, 0⟩)
    changeState PORT_STATE_STREAMS

/-- `pause_traffic`. -/
def pauseTraffic : PortProg n Unit := do
  verifyState [PORT_STATE_TX]
  let port ← get
  throwIf (port.lastAllStreamsContinues = false)
    (.rpcException " pause is supported when all streams are in continues mode ")
  throwIf (port.lastDuration > 0)
    (.rpcException " pause is supported when duration is not enable is start command ")
  sendMessageToAllDp (.pause port.portId)
  changeState PORT_STATE_PAUSE

/-- `resume_traffic`. -/
def resumeTraffic : PortProg n Unit := do
  verifyState [PORT_STATE_PAUSE]
  let port ← get
  sendMessageToAllDp (.resume port.portId)
  changeState PORT_STATE_TX

/-- `update_traffic`. -/
def updateTraffic (streams : List TrexStream) (mul : TrexPortMultiplier) : PortProg n Unit := do
  verifyState [PORT_STATE_TX, PORT_STATE_PAUSE]
  let newFactor ← calculateEffectiveFactor streams mul
  let port ← get
  let factor := port.updateFactor mul.op newFactor
  throwIf (mul.op = .OP_SUB ∧ factor ≤ 0)
    (.rpcException "Update request will lower traffic to less than zero")
  sendMessageToAllDp (.update port.portId factor)
  modify fun port => { port with factor := port.factor * factor }

/-- `acquire`; `handler` is what `generate_handler` makes. -/
def acquire (user : String) (force : Bool) (handler : String) : PortProg n Unit := do
  let port ← get
  if port.owner.isFree || force then modify fun port => { port with owner := .own user handler }
  else if port.owner.getName = user then
    throw (.rpcException ("port is already owned by another session of '" ++ user ++ "'"))
  else throw (.rpcException ("port is already taken by '" ++ port.owner.getName ++ "'"))

/-- `release`. -/
def release : PortProg n Unit := modify fun port => { port with owner := .release }

/-- `TrexDpPortEventMsg::handle`, with `on_dp_event_occured`. -/
def handleEvent (threadId : Fin n.toNat) (eventId : Int) : PortProg n Unit := do
  let port ← get
  doIf (port.stopEvent.handleEvent threadId eventId).2 (changeState PORT_STATE_STREAMS)
  modify fun port => { port with stopEvent := (port.stopEvent.handleEvent threadId eventId).1 }

/-- The operations. -/
inductive Op (n : UInt8)
  | addStream (stream : TrexStream)
  | removeStream (streamId : UInt32)
  | removeAllStreams
  | validate (rand : Nat → Nat → Nat) (streams : List TrexStream)
  | start (rand : Nat → Nat → Nat) (streams : List TrexStream) (mul : TrexPortMultiplier)
      (duration : Rat)
  | stop
  | pause
  | resume
  | update (streams : List TrexStream) (mul : TrexPortMultiplier)
  | acquire (user : String) (force : Bool) (handler : String)
  | release
  | event (threadId : Fin n.toNat) (eventId : Int)

/-- An operation. -/
def perform : Op n → PortProg n Unit
  | .addStream stream => addStream stream
  | .removeStream streamId => removeStream streamId
  | .removeAllStreams => removeAndDeleteAllStreams
  | .validate rand streams => do
    let _ ← validate rand streams
    pure ()
  | .start rand streams mul duration => startTraffic rand streams mul duration
  | .stop => stopTraffic
  | .pause => pauseTraffic
  | .resume => resumeTraffic
  | .update streams mul => updateTraffic streams mul
  | .acquire user force handler => acquire user force handler
  | .release => release
  | .event threadId eventId => handleEvent threadId eventId

/-- A stream is made for the port it is added to, and `get_object_list` returns the streams of the
table in some order. -/
def Admissible (port : ControlPort n) : Op n → Prop
  | .addStream stream => stream.portId = port.portId
  | .validate _ streams => streams.Perm port.streamTable
  | .start _ streams _ _ => streams.Perm port.streamTable
  | .update streams _ => streams.Perm port.streamTable
  | _ => True

/-- The streams that an operation reads. -/
def Op.streams : Op n → List TrexStream
  | .validate _ streams => streams
  | .start _ streams _ _ => streams
  | .update streams _ => streams
  | _ => []

/-! ## 3. What is left behind -/

/-- Only the graph may differ: it is gone, as it was, or the graph of `streams`. -/
structure Regraphed (streams : List TrexStream) (port port' : ControlPort n) : Prop where
  base : port'.toTrexStatelessPort = port.toTrexStatelessPort
  owner : port'.owner = port.owner
  toDp : port'.toDp = port.toDp
  graph : port'.graphObj = none ∨ port'.graphObj = port.graphObj
    ∨ ∃ graph, TrexStreamsGraph.generate streams = .ok graph ∧ port'.graphObj = some graph

variable {streams : List TrexStream} {port port' port'' : ControlPort n} {α : Type}

theorem noThrow_undefined : NoThrow Throw.IsException (throw .undefined : PortProg n α) := by
  intro s e s' h
  cases h
  exact fun hne => hne rfl

theorem Regraphed.refl (port : ControlPort n) : Regraphed streams port port :=
  ⟨rfl, rfl, rfl, Or.inr (Or.inl rfl)⟩

theorem Regraphed.trans (h : Regraphed streams port port') (h' : Regraphed streams port' port'') :
    Regraphed streams port port'' := by
  refine ⟨h'.base.trans h.base, h'.owner.trans h.owner, h'.toDp.trans h.toDp, ?_⟩
  rcases h'.graph with hnone | hsame | hnew
  · exact Or.inl hnone
  · rw [hsame]
    exact h.graph
  · exact Or.inr (Or.inr hnew)

theorem verifyState_always (streams : List TrexStream) (states : List TrexStatelessPort.PortState) :
    Always (Regraphed streams) (verifyState states : PortProg n Unit) := by
  refine Always.bind Regraphed.trans (always_get Regraphed.refl) fun port => ?_
  split
  · exact always_pure Regraphed.refl ()
  · exact always_throw Regraphed.refl _

theorem deleteStreamsGraph_always :
    Always (Regraphed streams) (deleteStreamsGraph : PortProg n Unit) :=
  always_modify fun _ => ⟨rfl, rfl, rfl, Or.inl rfl⟩

theorem generateStreamsGraph_always :
    Always (Regraphed streams) (generateStreamsGraph streams : PortProg n Unit) := by
  refine Always.bind Regraphed.trans deleteStreamsGraph_always fun _ => ?_
  split
  · rename_i graph hgraph
    exact always_modify fun _ => ⟨rfl, rfl, rfl, Or.inr (Or.inr ⟨graph, hgraph, rfl⟩)⟩
  · exact always_throw Regraphed.refl _
  · exact always_throw Regraphed.refl _
  · exact always_throw Regraphed.refl _

theorem getGraph_always :
    Always (Regraphed streams) (getGraph streams : PortProg n TrexStreamsGraphObj) := by
  refine Always.bind Regraphed.trans (always_get Regraphed.refl) fun port => ?_
  refine Always.bind Regraphed.trans
    (always_doIf Regraphed.refl generateStreamsGraph_always) fun _ => ?_
  refine Always.bind Regraphed.trans (always_get Regraphed.refl) fun port => ?_
  split
  · exact always_pure Regraphed.refl _
  · exact always_throw Regraphed.refl _

theorem calculateEffectiveFactor_always (mul : TrexPortMultiplier) :
    Always (Regraphed streams) (calculateEffectiveFactor streams mul : PortProg n Rat) := by
  unfold calculateEffectiveFactor
  split
  · exact always_pure Regraphed.refl _
  · exact Always.bind Regraphed.trans getGraph_always fun _ => always_pure Regraphed.refl _
  · exact Always.bind Regraphed.trans getGraph_always fun _ => always_pure Regraphed.refl _
  · refine Always.bind Regraphed.trans getGraph_always fun _ => ?_
    refine Always.bind Regraphed.trans (always_get Regraphed.refl) fun port => ?_
    split <;> exact always_pure Regraphed.refl _

theorem compileStreams_always (streams : List TrexStream) (rand : Nat → Nat → Nat)
    (all : List TrexStream) (factor : Rat) (wrap : String → Throw) : Always (Regraphed streams)
      (compileStreams rand all factor wrap : PortProg n (List TrexStreamsCompiledObj)) := by
  refine Always.bind Regraphed.trans (always_get Regraphed.refl) fun port => ?_
  split
  · exact always_pure Regraphed.refl _
  · exact always_throw Regraphed.refl _
  · exact always_throw Regraphed.refl _
  · exact always_throw Regraphed.refl _

theorem validate_always (streams : List TrexStream) (rand : Nat → Nat → Nat) :
    Always (Regraphed streams) (validate rand streams : PortProg n TrexStreamsGraphObj) := by
  refine Always.bind Regraphed.trans (always_throwIf Regraphed.refl _ _) fun _ => ?_
  exact Always.bind Regraphed.trans (compileStreams_always _ _ _ _ _) fun _ => getGraph_always

/-- **An operation that throws leaves everything but the graph as it was.** -/
theorem perform_onThrow (op : Op n) :
    OnThrow Throw.IsException (Regraphed op.streams) (perform op) := by
  cases op with
  | addStream stream =>
    refine OnThrow.bind Regraphed.trans (verifyState_always _ _) fun _ => NoThrow.onThrow ?_
    exact (noThrow_modify _).bind fun _ => (noThrow_modify _).bind fun _ => noThrow_modify _
  | removeStream streamId =>
    refine OnThrow.bind Regraphed.trans (verifyState_always _ _) fun _ => NoThrow.onThrow ?_
    refine (noThrow_modify _).bind fun _ => (noThrow_modify _).bind fun _ => ?_
    exact noThrow_get.bind fun port => noThrow_doIf (noThrow_modify _)
  | removeAllStreams =>
    refine OnThrow.bind Regraphed.trans (verifyState_always _ _) fun _ => NoThrow.onThrow ?_
    exact (noThrow_modify _).bind fun _ => (noThrow_modify _).bind fun _ => noThrow_modify _
  | validate rand streams =>
    exact OnThrow.bind Regraphed.trans (validate_always _ rand) fun _ => (noThrow_pure _).onThrow
  | start rand streams mul duration =>
    refine OnThrow.bind Regraphed.trans (verifyState_always _ _) fun _ => ?_
    refine OnThrow.bind Regraphed.trans deleteStreamsGraph_always fun _ => ?_
    refine OnThrow.bind Regraphed.trans (always_throwIf Regraphed.refl _ _) fun _ => ?_
    refine OnThrow.bind Regraphed.trans (calculateEffectiveFactor_always mul) fun factor => ?_
    refine OnThrow.bind Regraphed.trans (compileStreams_always _ _ _ _ _) fun objs => ?_
    -- nothing is thrown once the compiler has returned
    refine NoThrow.onThrow (NoThrow.bind ?_ fun eventId => ?_)
    · refine noThrow_get.bind fun port => ?_
      split
      · exact (noThrow_modify _).bind fun _ => noThrow_pure _
      · exact noThrow_undefined
    refine (noThrow_modify _).bind fun _ => (noThrow_modify _).bind fun _ => ?_
    split
    · exact noThrow_undefined
    · exact (noThrow_modify _).bind fun _ => (noThrow_modify _).bind fun _ =>
        (noThrow_modify _).bind fun _ => noThrow_modify _
  | stop =>
    refine NoThrow.onThrow (noThrow_get.bind fun port => ?_)
    split
    · exact noThrow_pure _
    · exact (noThrow_modify _).bind fun _ => (noThrow_modify _).bind fun _ =>
        (noThrow_modify _).bind fun _ => noThrow_modify _
  | pause =>
    refine OnThrow.bind Regraphed.trans (verifyState_always _ _) fun _ => ?_
    refine OnThrow.bind Regraphed.trans (always_get Regraphed.refl) fun port => ?_
    refine OnThrow.bind Regraphed.trans (always_throwIf Regraphed.refl _ _) fun _ => ?_
    refine OnThrow.bind Regraphed.trans (always_throwIf Regraphed.refl _ _) fun _ => ?_
    exact ((noThrow_modify _).bind fun _ => noThrow_modify _).onThrow
  | resume =>
    refine OnThrow.bind Regraphed.trans (verifyState_always _ _) fun _ => ?_
    refine OnThrow.bind Regraphed.trans (always_get Regraphed.refl) fun port => ?_
    exact ((noThrow_modify _).bind fun _ => noThrow_modify _).onThrow
  | update streams mul =>
    refine OnThrow.bind Regraphed.trans (verifyState_always _ _) fun _ => ?_
    refine OnThrow.bind Regraphed.trans (calculateEffectiveFactor_always mul) fun factor => ?_
    refine OnThrow.bind Regraphed.trans (always_get Regraphed.refl) fun port => ?_
    refine OnThrow.bind Regraphed.trans (always_throwIf Regraphed.refl _ _) fun _ => ?_
    exact ((noThrow_modify _).bind fun _ => noThrow_modify _).onThrow
  | acquire user force handler =>
    refine OnThrow.bind Regraphed.trans (always_get Regraphed.refl) fun port => ?_
    split
    · exact (noThrow_modify _).onThrow
    · split <;> exact (always_throw Regraphed.refl _).onThrow
  | release => exact (noThrow_modify _).onThrow
  | event threadId eventId =>
    refine NoThrow.onThrow (noThrow_get.bind fun port => ?_)
    exact (noThrow_doIf (noThrow_modify _)).bind fun _ => noThrow_modify _

/-- The owner is as it was. -/
def SameOwner (port port' : ControlPort n) : Prop := port'.owner = port.owner

theorem SameOwner.refl (port : ControlPort n) : SameOwner port port := rfl

theorem SameOwner.trans (h : SameOwner port port') (h' : SameOwner port' port'') :
    SameOwner port port'' := Eq.trans h' h

theorem Regraphed.sameOwner (port port' : ControlPort n) (h : Regraphed streams port port') :
    SameOwner port port' := h.owner

/-- A change that leaves the owner alone, and then the rest. -/
theorem sameOwner_modify {g : ControlPort n → ControlPort n} {f : PUnit → PortProg n α}
    (hg : ∀ port, (g port).owner = port.owner) (hf : ∀ u, Always SameOwner (f u)) :
    Always SameOwner ((modify g : PortProg n PUnit) >>= f) :=
  Always.bind SameOwner.trans (always_modify hg) hf

/-- **Only `acquire` and `release` change the owner**, whatever else happens. -/
theorem perform_owner (op : Op n)
    (hacquire : ∀ user force handler, op ≠ .acquire user force handler) (hrelease : op ≠ .release) :
    Always SameOwner (perform op) := by
  have hverify : ∀ states, Always SameOwner (verifyState states : PortProg n Unit) :=
    fun states => (verifyState_always [] states).mono Regraphed.sameOwner
  have hfactor : ∀ streams mul,
      Always SameOwner (calculateEffectiveFactor streams mul : PortProg n Rat) :=
    fun streams mul => (calculateEffectiveFactor_always mul).mono Regraphed.sameOwner
  cases op with
  | addStream stream =>
    refine Always.bind SameOwner.trans (hverify _) fun _ => ?_
    exact sameOwner_modify (fun _ => rfl) fun _ => sameOwner_modify (fun _ => rfl) fun _ =>
      always_modify fun _ => rfl
  | removeStream streamId =>
    refine Always.bind SameOwner.trans (hverify _) fun _ => ?_
    refine sameOwner_modify (fun _ => rfl) fun _ => sameOwner_modify (fun _ => rfl) fun _ => ?_
    refine Always.bind SameOwner.trans (always_get SameOwner.refl) fun port => ?_
    exact always_doIf SameOwner.refl (always_modify fun _ => rfl)
  | removeAllStreams =>
    refine Always.bind SameOwner.trans (hverify _) fun _ => ?_
    exact sameOwner_modify (fun _ => rfl) fun _ => sameOwner_modify (fun _ => rfl) fun _ =>
      always_modify fun _ => rfl
  | validate rand streams =>
    refine Always.bind SameOwner.trans ?_ fun _ => always_pure SameOwner.refl ()
    exact (validate_always _ rand).mono Regraphed.sameOwner
  | start rand streams mul duration =>
    refine Always.bind SameOwner.trans (hverify _) fun _ => ?_
    refine sameOwner_modify (fun _ => rfl) fun _ => ?_
    refine Always.bind SameOwner.trans (always_throwIf SameOwner.refl _ _) fun _ => ?_
    refine Always.bind SameOwner.trans (hfactor streams mul) fun factor => ?_
    refine Always.bind SameOwner.trans ?_ fun objs => ?_
    · exact (compileStreams_always [] _ _ _ _).mono Regraphed.sameOwner
    refine Always.bind SameOwner.trans ?_ fun eventId => ?_
    · refine Always.bind SameOwner.trans (always_get SameOwner.refl) fun port => ?_
      split
      · exact sameOwner_modify (fun _ => rfl) fun _ => always_pure SameOwner.refl _
      · exact always_throw SameOwner.refl _
    refine sameOwner_modify (fun _ => rfl) fun _ => sameOwner_modify (fun _ => rfl) fun _ => ?_
    split
    · exact always_throw SameOwner.refl _
    · exact sameOwner_modify (fun _ => rfl) fun _ => sameOwner_modify (fun _ => rfl) fun _ =>
        sameOwner_modify (fun _ => rfl) fun _ => always_modify fun _ => rfl
  | stop =>
    refine Always.bind SameOwner.trans (always_get SameOwner.refl) fun port => ?_
    split
    · exact always_pure SameOwner.refl _
    · exact sameOwner_modify (fun _ => rfl) fun _ => sameOwner_modify (fun _ => rfl) fun _ =>
        sameOwner_modify (fun _ => rfl) fun _ => always_modify fun _ => rfl
  | pause =>
    refine Always.bind SameOwner.trans (hverify _) fun _ => ?_
    refine Always.bind SameOwner.trans (always_get SameOwner.refl) fun port => ?_
    refine Always.bind SameOwner.trans (always_throwIf SameOwner.refl _ _) fun _ => ?_
    refine Always.bind SameOwner.trans (always_throwIf SameOwner.refl _ _) fun _ => ?_
    exact sameOwner_modify (fun _ => rfl) fun _ => always_modify fun _ => rfl
  | resume =>
    refine Always.bind SameOwner.trans (hverify _) fun _ => ?_
    refine Always.bind SameOwner.trans (always_get SameOwner.refl) fun port => ?_
    exact sameOwner_modify (fun _ => rfl) fun _ => always_modify fun _ => rfl
  | update streams mul =>
    refine Always.bind SameOwner.trans (hverify _) fun _ => ?_
    refine Always.bind SameOwner.trans (hfactor streams mul) fun factor => ?_
    refine Always.bind SameOwner.trans (always_get SameOwner.refl) fun port => ?_
    refine Always.bind SameOwner.trans (always_throwIf SameOwner.refl _ _) fun _ => ?_
    exact sameOwner_modify (fun _ => rfl) fun _ => always_modify fun _ => rfl
  | acquire user force handler => exact absurd rfl (hacquire user force handler)
  | release => exact absurd rfl hrelease
  | event threadId eventId =>
    refine Always.bind SameOwner.trans (always_get SameOwner.refl) fun port => ?_
    refine Always.bind SameOwner.trans (always_doIf SameOwner.refl (always_modify fun _ => rfl)) ?_
    exact fun _ => always_modify fun _ => rfl

/-! ## 4. What an operation does -/

variable {u : Unit} {rand : Nat → Nat → Nat}

variable {states : List TrexStatelessPort.PortState} {objs : List TrexStreamsCompiledObj}
  {base : TrexStatelessPort n} {mul : TrexPortMultiplier}

theorem verifyState_eq_okState (h : verifyState states port = .ok u port') :
    port' = port ∧ port.portState ∈ states := by
  obtain ⟨_, _, hget, h⟩ := bind_eq_okState h
  cases hget
  split at h
  · rename_i hmem
    cases h
    exact ⟨rfl, hmem⟩
  · cases h

theorem compileStreams_eq_ok {factor : Rat} {wrap : String → Throw}
    (h : compileStreams rand streams factor wrap port = .ok objs port') :
    port' = port ∧ compileAll rand port.portId streams n factor = .ok objs := by
  obtain ⟨_, _, hget, h⟩ := bind_eq_okState h
  cases hget
  cases hobjs : compileAll rand port.portId streams n factor with
  | ok objs' =>
    simp only [hobjs] at h
    cases h
    exact ⟨rfl, rfl⟩
  | error err =>
    simp only [hobjs] at h
    cases err <;> cases h

theorem generateEventId_eq_ok {eventId : Int} (h : generateEventId port = .ok eventId port') :
    port.eventIdCounter + 1 < 2 ^ 31 ∧ eventId = port.eventIdCounter + 1
      ∧ port' = { port with eventIdCounter := port.eventIdCounter + 1 } := by
  obtain ⟨_, _, hget, h⟩ := bind_eq_okState h
  cases hget
  split at h
  · rename_i hsmall
    cases h
    exact ⟨hsmall, rfl, rfl⟩
  · cases h

/-- The check of the state of a request, when it passes. -/
theorem verifyState_bind (h : base.portState ∈ states) (f : Unit → Except PortErr (Reply n)) :
    (base.verifyState states >>= f) = f () := by
  rw [TrexStatelessPort.verifyState, if_pos h]
  rfl

theorem startTraffic_eq_ok {factor : Rat} (duration : Rat) {first : TrexStreamsCompiledObj}
    (hstate : base.portState ∈ [PORT_STATE_STREAMS])
    (hobjs : compileAll rand base.portId streams n factor = .ok objs)
    (hsmall : base.eventIdCounter + 1 < 2 ^ 31) (hfirst : objs[0]? = some first) :
    base.handle (.start rand streams factor duration) = .ok
      ⟨{ base with
          eventIdCounter := base.eventIdCounter + 1
          stopEvent := .waitForEvent (base.eventIdCounter + 1)
          factor := factor
          lastAllStreamsContinues := first.allContinues
          lastDuration := duration
          portState := PORT_STATE_TX },
        fun core => objs[core.val]?.toList.map fun obj =>
          .start obj duration (base.eventIdCounter + 1)⟩ := by
  refine (verifyState_bind hstate _).trans ?_
  simp only [hobjs, Except.mapError, TrexStatelessPort.generateEventId, if_pos hsmall, bind,
    Except.bind, hfirst]

/-- The request of an operation, with the factor that its multiplier stands for. -/
def Op.request? (factor : Rat) : Op n → Option TrexStatelessPort.Request
  | .addStream stream => some (.addStream stream)
  | .removeStream streamId => some (.removeStream streamId)
  | .removeAllStreams => some .removeAllStreams
  | .validate _ _ => none
  | .start rand streams _ duration => some (.start rand streams factor duration)
  | .stop => some .stop
  | .pause => some .pause
  | .resume => some .resume
  | .update _ mul => some (.update mul.op factor)
  | .acquire _ _ _ => none
  | .release => none
  | .event _ _ => none

/-- What an operation that returns did to the port of `Port.lean`. -/
inductive Performed (port port' : ControlPort n) : Op n → Prop
  | request {op : Op n} {request : TrexStatelessPort.Request} {reply : Reply n} (factor : Rat) :
      op.request? factor = some request → port.toTrexStatelessPort.handle request = .ok reply →
      port'.toTrexStatelessPort = reply.port →
      port'.toDp = (fun core => port.toDp core ++ reply.toDp core) → port'.owner = port.owner →
      Performed port port' op
  | event {threadId : Fin n.toNat} {eventId : Int} :
      port'.toTrexStatelessPort = port.toTrexStatelessPort.handleEvent threadId eventId →
      port'.toDp = port.toDp → port'.owner = port.owner →
      Performed port port' (.event threadId eventId)
  | validate {rand : Nat → Nat → Nat} {streams : List TrexStream} :
      port'.toTrexStatelessPort = port.toTrexStatelessPort → port'.toDp = port.toDp →
      port'.owner = port.owner → Performed port port' (.validate rand streams)
  | acquire {user : String} {force : Bool} {handler : String} :
      port'.toTrexStatelessPort = port.toTrexStatelessPort → port'.toDp = port.toDp →
      (port.owner.isFree = true ∨ force = true) → port'.owner = .own user handler →
      Performed port port' (.acquire user force handler)
  | release : port'.toTrexStatelessPort = port.toTrexStatelessPort → port'.toDp = port.toDp →
      port'.owner = .release → Performed port port' .release

/-- What becomes of the graph: it is dropped, or the table stays and the graph stays or is made of
the streams that the operation read. -/
def GraphKept (op : Op n) (port port' : ControlPort n) : Prop :=
  port'.graphObj = none ∨ (port'.streamTable = port.streamTable
    ∧ (port'.graphObj = port.graphObj
      ∨ ∃ graph, TrexStreamsGraph.generate op.streams = .ok graph ∧ port'.graphObj = some graph))

theorem Regraphed.kept (op : Op n) (h : Regraphed op.streams port port') :
    GraphKept op port port' := by
  rcases h.graph with hnone | hrest
  · exact Or.inl hnone
  · exact Or.inr ⟨congrArg TrexStatelessPort.streamTable h.base, hrest⟩

/-- A request that sends nothing. -/
theorem toDp_silent (port : ControlPort n) : port.toDp = fun core => port.toDp core ++ [] := by
  simp

theorem addStream_performed {stream : TrexStream}
    (h : perform (.addStream stream) port = .ok u port') :
    Performed port port' (.addStream stream) ∧ GraphKept (.addStream stream) port port' := by
  obtain ⟨_, _, hverify, h1⟩ := bind_eq_okState h
  obtain ⟨rfl, hstate⟩ := verifyState_eq_okState hverify
  cases h1
  exact ⟨.request 0 rfl (verifyState_bind hstate _) rfl (toDp_silent _) rfl, Or.inl rfl⟩

theorem removeStream_performed {streamId : UInt32}
    (h : perform (.removeStream streamId) port = .ok u port') :
    Performed port port' (.removeStream streamId)
      ∧ GraphKept (.removeStream streamId) port port' := by
  obtain ⟨_, _, hverify, h1⟩ := bind_eq_okState h
  obtain ⟨rfl, hstate⟩ := verifyState_eq_okState hverify
  obtain ⟨_, _, hset, h2⟩ := bind_eq_okState h1
  cases hset
  obtain ⟨_, _, hdelete, h3⟩ := bind_eq_okState h2
  cases hdelete
  obtain ⟨_, _, hget, h4⟩ := bind_eq_okState h3
  cases hget
  unfold doIf at h4
  split at h4
  · rename_i hempty
    cases h4
    refine ⟨.request 0 rfl (verifyState_bind hstate _) ?_ (toDp_silent _) rfl, Or.inl rfl⟩
    simp only [TrexStatelessPort.silent, if_pos hempty]
  · rename_i hempty
    cases h4
    refine ⟨.request 0 rfl (verifyState_bind hstate _) ?_ (toDp_silent _) rfl, Or.inl rfl⟩
    simp only [TrexStatelessPort.silent, if_neg hempty]

theorem removeAllStreams_performed (h : perform .removeAllStreams port = .ok u port') :
    Performed port port' .removeAllStreams ∧ GraphKept .removeAllStreams port port' := by
  obtain ⟨_, _, hverify, h1⟩ := bind_eq_okState h
  obtain ⟨rfl, hstate⟩ := verifyState_eq_okState hverify
  cases h1
  exact ⟨.request 0 rfl (verifyState_bind hstate _) rfl (toDp_silent _) rfl, Or.inl rfl⟩

theorem start_performed {duration : Rat}
    (h : perform (.start rand streams mul duration) port = .ok u port') :
    Performed port port' (.start rand streams mul duration)
      ∧ GraphKept (.start rand streams mul duration) port port' := by
  obtain ⟨_, port1, hverify, h1⟩ := bind_eq_okState h
  obtain ⟨rfl, hstate⟩ := verifyState_eq_okState hverify
  obtain ⟨_, port2, hdelete, h2⟩ := bind_eq_okState h1
  obtain ⟨_, _, hop, h3⟩ := bind_eq_okState h2
  obtain ⟨-, rfl⟩ := throwIf_eq_ok hop
  obtain ⟨factor, port3, hfactor, h4⟩ := bind_eq_okState h3
  -- up to here only the graph has changed
  have hregraphed := (deleteStreamsGraph_always.ok hdelete).trans
    ((calculateEffectiveFactor_always mul).ok hfactor)
  obtain ⟨objs, port4, hcompile, h5⟩ := bind_eq_okState h4
  obtain ⟨rfl, hobjs⟩ := compileStreams_eq_ok hcompile
  obtain ⟨eventId, _, hid, h6⟩ := bind_eq_okState h5
  obtain ⟨hsmall, rfl, rfl⟩ := generateEventId_eq_ok hid
  obtain ⟨_, _, hwait, h7⟩ := bind_eq_okState h6
  cases hwait
  obtain ⟨_, _, hset, h8⟩ := bind_eq_okState h7
  cases hset
  cases hfirst : objs[0]? with
  | none =>
    simp only [hfirst] at h8
    cases h8
  | some first =>
    simp only [hfirst] at h8
    cases h8
    have hstate4 : port4.portState ∈ [PORT_STATE_STREAMS] := by
      rw [hregraphed.base]
      exact hstate
    have hhandle := startTraffic_eq_ok duration hstate4 hobjs hsmall hfirst
    rw [hregraphed.base] at hhandle
    refine ⟨.request factor rfl hhandle ?_ ?_ hregraphed.owner, ?_⟩
    · exact congrArg (fun base : TrexStatelessPort n => { base with
        eventIdCounter := base.eventIdCounter + 1
        stopEvent := .waitForEvent (base.eventIdCounter + 1)
        factor := factor
        lastAllStreamsContinues := first.allContinues
        lastDuration := duration
        portState := PORT_STATE_TX }) hregraphed.base
    · funext core
      simp only [hregraphed.toDp, hregraphed.base]
    · have hkept : GraphKept _ port1 port4 :=
        Regraphed.kept (.start rand streams mul duration) hregraphed
      exact hkept

theorem stop_performed (h : perform .stop port = .ok u port') :
    Performed port port' .stop ∧ GraphKept .stop port port' := by
  obtain ⟨_, _, hget, h1⟩ := bind_eq_okState h
  cases hget
  split at h1
  · rename_i hstate
    cases h1
    exact ⟨.request 0 rfl (if_pos hstate) rfl (toDp_silent _) rfl, Or.inr ⟨rfl, Or.inl rfl⟩⟩
  · rename_i hstate
    cases h1
    exact ⟨.request 0 rfl (if_neg hstate) rfl rfl rfl, Or.inl rfl⟩

theorem pause_performed (h : perform .pause port = .ok u port') :
    Performed port port' .pause ∧ GraphKept .pause port port' := by
  obtain ⟨_, _, hverify, h1⟩ := bind_eq_okState h
  obtain ⟨rfl, hstate⟩ := verifyState_eq_okState hverify
  obtain ⟨_, _, hget, h2⟩ := bind_eq_okState h1
  cases hget
  obtain ⟨_, _, hcont, h3⟩ := bind_eq_okState h2
  obtain ⟨hcont, rfl⟩ := throwIf_eq_ok hcont
  obtain ⟨_, port1, hduration, h4⟩ := bind_eq_okState h3
  obtain ⟨hduration, rfl⟩ := throwIf_eq_ok hduration
  cases h4
  have hhandle : port1.toTrexStatelessPort.handle .pause = .ok
      ({ port1.toTrexStatelessPort with
        portState := PORT_STATE_PAUSE }.sendMessageToAllDp (.pause port1.portId)) :=
    (verifyState_bind hstate _).trans ((if_neg hcont).trans (if_neg hduration))
  exact ⟨.request 0 rfl hhandle rfl rfl rfl, Or.inr ⟨rfl, Or.inl rfl⟩⟩

theorem resume_performed (h : perform .resume port = .ok u port') :
    Performed port port' .resume ∧ GraphKept .resume port port' := by
  obtain ⟨_, _, hverify, h1⟩ := bind_eq_okState h
  obtain ⟨rfl, hstate⟩ := verifyState_eq_okState hverify
  cases h1
  exact ⟨.request 0 rfl (verifyState_bind hstate _) rfl rfl rfl, Or.inr ⟨rfl, Or.inl rfl⟩⟩

theorem update_performed (h : perform (.update streams mul) port = .ok u port') :
    Performed port port' (.update streams mul) ∧ GraphKept (.update streams mul) port port' := by
  obtain ⟨_, port1, hverify, h1⟩ := bind_eq_okState h
  obtain ⟨rfl, hstate⟩ := verifyState_eq_okState hverify
  obtain ⟨newFactor, port2, hfactor, h2⟩ := bind_eq_okState h1
  have hregraphed := (calculateEffectiveFactor_always mul).ok hfactor
  obtain ⟨_, _, hget, h3⟩ := bind_eq_okState h2
  cases hget
  obtain ⟨_, port3, hpos, h4⟩ := bind_eq_okState h3
  obtain ⟨hpos, rfl⟩ := throwIf_eq_ok hpos
  cases h4
  have hstate3 : port3.portState ∈ [PORT_STATE_TX, PORT_STATE_PAUSE] := by
    rw [hregraphed.base]
    exact hstate
  have hhandle : port3.toTrexStatelessPort.handle (.update mul.op newFactor) = .ok
      ({ port3.toTrexStatelessPort with
        factor := port3.factor * port3.updateFactor mul.op newFactor }.sendMessageToAllDp
          (.update port3.portId (port3.updateFactor mul.op newFactor))) :=
    (verifyState_bind hstate3 _).trans (if_neg hpos)
  rw [hregraphed.base] at hhandle
  have hkept : GraphKept _ port1 port3 := Regraphed.kept (.update streams mul) hregraphed
  refine ⟨.request newFactor rfl hhandle ?_ ?_ hregraphed.owner, hkept⟩
  · exact congrArg (fun base : TrexStatelessPort n => { base with
      factor := base.factor * base.updateFactor mul.op newFactor }) hregraphed.base
  · funext core
    simp only [hregraphed.toDp, hregraphed.base, TrexStatelessPort.sendMessageToAllDp]

theorem validate_performed (h : perform (.validate rand streams) port = .ok u port') :
    Performed port port' (.validate rand streams)
      ∧ GraphKept (.validate rand streams) port port' := by
  obtain ⟨graph, port1, hvalidate, h1⟩ := bind_eq_okState h
  cases h1
  have hregraphed := (validate_always _ rand).ok hvalidate
  exact ⟨.validate hregraphed.base hregraphed.toDp hregraphed.owner,
    Regraphed.kept (.validate rand streams) hregraphed⟩

theorem acquire_performed {user handler : String} {force : Bool}
    (h : perform (.acquire user force handler) port = .ok u port') :
    Performed port port' (.acquire user force handler)
      ∧ GraphKept (.acquire user force handler) port port' := by
  obtain ⟨_, _, hget, h1⟩ := bind_eq_okState h
  cases hget
  split at h1
  · rename_i hfree
    cases h1
    exact ⟨.acquire rfl rfl (by simpa using hfree) rfl, Or.inr ⟨rfl, Or.inl rfl⟩⟩
  · split at h1 <;> cases h1

theorem event_performed {threadId : Fin n.toNat} {eventId : Int}
    (h : perform (.event threadId eventId) port = .ok u port') :
    Performed port port' (.event threadId eventId)
      ∧ GraphKept (.event threadId eventId) port port' := by
  obtain ⟨_, _, hget, h1⟩ := bind_eq_okState h
  cases hget
  obtain ⟨_, _, hchange, h2⟩ := bind_eq_okState h1
  unfold doIf at hchange
  split at hchange
  · rename_i hoccurred
    cases hchange
    cases h2
    refine ⟨.event ?_ rfl rfl, Or.inr ⟨rfl, Or.inl rfl⟩⟩
    simp only [TrexStatelessPort.handleEvent, if_pos hoccurred]
  · rename_i hoccurred
    cases hchange
    cases h2
    refine ⟨.event ?_ rfl rfl, Or.inr ⟨rfl, Or.inl rfl⟩⟩
    simp only [TrexStatelessPort.handleEvent, if_neg hoccurred]

/-- **An operation that returns does what the request of it does**, and the graph stays that of the
table or is dropped. -/
theorem perform_handle {op : Op n} (h : perform op port = .ok u port') :
    Performed port port' op ∧ GraphKept op port port' := by
  cases op with
  | addStream stream => exact addStream_performed h
  | removeStream streamId => exact removeStream_performed h
  | removeAllStreams => exact removeAllStreams_performed h
  | validate rand streams => exact validate_performed h
  | start rand streams mul duration => exact start_performed h
  | stop => exact stop_performed h
  | pause => exact pause_performed h
  | resume => exact resume_performed h
  | update streams mul => exact update_performed h
  | acquire user force handler => exact acquire_performed h
  | release =>
    cases h
    exact ⟨.release rfl rfl rfl, Or.inr ⟨rfl, Or.inl rfl⟩⟩
  | event threadId eventId => exact event_performed h

end ControlPort

end Trex.Cp
