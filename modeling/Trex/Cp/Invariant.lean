/-
# The invariant of a port

Over any operations of `Control.lean`, with exceptions on the way: a port is idle exactly when it
has no streams, its stop event is armed exactly while it transmits or is paused, and the graph it
keeps is the graph of the streams in its table (`port_invariant`).
-/
import Trex.Cp.Control

namespace Trex.Cp

open Trex.Lib Trex.Stream Trex.Dp TrexStatelessPort.PortState

variable {n : UInt8}

/-! ## 1. The table and the state -/

namespace TrexStatelessPort

variable {port : TrexStatelessPort n} {request : Request} {reply : Reply n}

/-- A port is idle exactly when it has no streams. -/
def TableOk (port : TrexStatelessPort n) : Prop :=
  port.portState = PORT_STATE_IDLE ↔ port.streamTable = []

/-- A port that goes from one state with streams to another. -/
theorem TableOk.of_eq {port' : TrexStatelessPort n} (h : port.TableOk)
    (htable : port'.streamTable = port.streamTable) (hstate : port.portState ≠ PORT_STATE_IDLE)
    (hstate' : port'.portState ≠ PORT_STATE_IDLE) : port'.TableOk := by
  rw [TableOk, htable]
  exact iff_of_false hstate' fun hnil => hstate (h.mpr hnil)

theorem ne_idle_of_busy (h : port.portState ∈ [PORT_STATE_TX, PORT_STATE_PAUSE]) :
    port.portState ≠ PORT_STATE_IDLE := by
  intro hidle
  rw [hidle] at h
  simp at h

/-- **A request keeps the state and the table in step.** -/
theorem handle_tableOk (h : port.handle request = .ok reply) (ht : port.TableOk) :
    reply.port.TableOk := by
  cases request with
  | addStream stream =>
    obtain ⟨_, -, h⟩ := bind_eq_ok h
    cases h
    simp [TableOk, silent]
  | removeStream streamId =>
    obtain ⟨_, hstate, h⟩ := bind_eq_ok h
    have hstreams := List.mem_singleton.mp (verifyState_eq_ok hstate)
    cases h
    simp only [TableOk, silent, hstreams, List.isEmpty_iff]
    split
    · rename_i hnil
      exact iff_of_true rfl hnil
    · rename_i hnil
      exact iff_of_false (fun hidle => by cases hidle) hnil
  | removeAllStreams =>
    obtain ⟨_, -, h⟩ := bind_eq_ok h
    cases h
    exact iff_of_true rfl rfl
  | start rand streams factor duration =>
    obtain ⟨_, hstate, h⟩ := bind_eq_ok h
    have hstreams := List.mem_singleton.mp (verifyState_eq_ok hstate)
    obtain ⟨objs, -, h⟩ := bind_eq_ok h
    obtain ⟨eventId, -, h⟩ := bind_eq_ok h
    split at h
    · cases h
    · cases h
      refine ht.of_eq rfl ?_ fun hidle => by cases hidle
      rw [hstreams]
      exact fun hidle => by cases hidle
  | stop =>
    unfold handle stopTraffic at h
    simp only at h
    split at h
    · cases h
      exact ht
    · rename_i hstate
      cases h
      exact ht.of_eq rfl (ne_idle_of_busy (not_not.mp hstate)) fun hidle => by cases hidle
  | pause =>
    obtain ⟨_, hstate, h⟩ := bind_eq_ok h
    have htx := List.mem_singleton.mp (verifyState_eq_ok hstate)
    have hbusy := ne_idle_of_busy (List.mem_cons.mpr (Or.inl htx))
    split at h
    · cases h
    split at h
    · cases h
    · cases h
      exact ht.of_eq rfl hbusy fun hidle => by cases hidle
  | resume =>
    obtain ⟨_, hstate, h⟩ := bind_eq_ok h
    have hbusy := ne_idle_of_busy (List.mem_cons_of_mem _ (verifyState_eq_ok hstate))
    cases h
    exact ht.of_eq rfl hbusy fun hidle => by cases hidle
  | update op newFactor =>
    obtain ⟨_, -, h⟩ := bind_eq_ok h
    simp only at h
    split at h
    · cases h
    · cases h
      exact ht

/-- **An event keeps them in step**: only a port that waits for it changes its state. -/
theorem handleEvent_tableOk (hok : port.Ok) (ht : port.TableOk) (core : Fin n.toNat)
    (eventId : Int) :
    (port.handleEvent core eventId).TableOk := by
  have hnoticed := handleEvent_noticed hok core eventId
  generalize port.handleEvent core eventId = port' at hnoticed
  cases hnoticed with
  | ignored _ => exact ht
  | marked _ _ _ _ => exact ht
  | occurred hon _ _ _ _ _ =>
    exact ht.of_eq rfl (ne_idle_of_busy (belief_ne_off_iff.mp hon)) fun hidle => nomatch hidle

/-- The stop event is armed exactly while the port transmits or is paused. -/
theorem Ok.armed_iff (h : port.Ok) :
    port.stopEvent.isActive = true ↔ port.portState ∈ [PORT_STATE_TX, PORT_STATE_PAUSE] := by
  rw [← belief_ne_off_iff, TrexDpPortEvent.isActive, bne_iff_ne]
  constructor
  · exact fun hactive hoff => hactive (h.inactive hoff)
  · intro hon
    obtain ⟨hid, hvalid, -, -⟩ := h.active hon
    rw [hid]
    exact ne_of_gt hvalid

end TrexStatelessPort

/-! ## 2. Runs -/

namespace ControlPort

variable {port port' : ControlPort n}

/-- The constructor. -/
structure Created (portId : UInt8) (port : ControlPort n) : Prop where
  base : port.toTrexStatelessPort.Created portId
  graphObj : port.graphObj = none
  owner : port.owner = {}

/-- **The states that a port can reach**, by operations that return and operations that throw. -/
inductive Reachable : ControlPort n → Prop
  | init {portId : UInt8} {port : ControlPort n} : port.Created portId → Reachable port
  | returns {port port' : ControlPort n} {op : Op n} {u : Unit} : Reachable port →
      port.Admissible op → perform op port = .ok u port' → Reachable port'
  | throws {port port' : ControlPort n} {op : Op n} {e : Throw} : Reachable port →
      port.Admissible op → perform op port = .error e port' → e.IsException → Reachable port'

/-- The graph is the graph of the streams in the table. -/
def GraphOk (port : ControlPort n) : Prop :=
  ∀ graph, port.graphObj = some graph →
    ∃ streams, streams.Perm port.streamTable ∧ TrexStreamsGraph.generate streams = .ok graph

/-- The invariant. -/
structure Inv (port : ControlPort n) : Prop where
  ok : port.toTrexStatelessPort.Ok
  table : port.toTrexStatelessPort.TableOk
  graph : port.GraphOk

theorem Created.inv {portId : UInt8} (h : port.Created portId) : port.Inv := by
  refine ⟨h.base.ok, iff_of_true h.base.portState h.base.streamTable, fun graph hgraph => ?_⟩
  rw [h.graphObj] at hgraph
  cases hgraph

variable {op : Op n}

theorem Admissible.request {factor : Rat} {request : TrexStatelessPort.Request}
    (h : port.Admissible op) (hreq : op.request? factor = some request) :
    port.toTrexStatelessPort.Admissible request := by
  cases op with
  | addStream stream =>
    cases hreq
    exact h
  | start rand streams mul duration =>
    cases hreq
    exact h
  | removeStream _ => cases hreq; trivial
  | removeAllStreams => cases hreq; trivial
  | stop => cases hreq; trivial
  | pause => cases hreq; trivial
  | resume => cases hreq; trivial
  | update _ _ => cases hreq; trivial
  | validate _ _ => cases hreq
  | acquire _ _ _ => cases hreq
  | release => cases hreq
  | event _ _ => cases hreq

/-- There is no graph without streams: the last event of an empty list is read. -/
theorem generate_nil : TrexStreamsGraph.generate [] = .error .undefined := rfl

/-- An operation that makes a graph reads the streams of the table. -/
theorem GraphOk.kept (h : port.GraphOk) (hadm : port.Admissible op)
    (hkept : GraphKept op port port') : port'.GraphOk := by
  intro graph hgraph
  rcases hkept with hnone | ⟨htable, hsame | ⟨new, hnew, hset⟩⟩
  · rw [hnone] at hgraph
    cases hgraph
  · rw [htable]
    exact h graph (hsame ▸ hgraph)
  · rw [hset] at hgraph
    obtain rfl := Option.some.inj hgraph
    rw [htable]
    refine ⟨op.streams, ?_, hnew⟩
    cases op with
    | validate rand streams => exact hadm
    | start rand streams mul duration => exact hadm
    | update streams mul => exact hadm
    | _ => exact absurd hnew (fun h => nomatch generate_nil.symm.trans h)

/-- **An operation that returns keeps the invariant.** -/
theorem Inv.returns {u : Unit} (h : port.Inv) (hadm : port.Admissible op)
    (hop : perform op port = .ok u port') : port'.Inv := by
  obtain ⟨hperformed, hkept⟩ := perform_handle hop
  have hgraph := h.graph.kept hadm hkept
  cases hperformed with
  | request factor hreq hhandle hbase _ _ =>
    refine ⟨?_, ?_, hgraph⟩
    · rw [hbase]
      exact (TrexStatelessPort.handle_replied h.ok (hadm.request hreq) hhandle).ok h.ok
    · rw [hbase]
      exact TrexStatelessPort.handle_tableOk hhandle h.table
  | event hbase _ _ =>
    refine ⟨?_, ?_, hgraph⟩
    · rw [hbase]
      exact (TrexStatelessPort.handleEvent_noticed h.ok _ _).ok h.ok
    · rw [hbase]
      exact TrexStatelessPort.handleEvent_tableOk h.ok h.table _ _
  | validate hbase _ _ => exact ⟨hbase ▸ h.ok, hbase ▸ h.table, hgraph⟩
  | acquire hbase _ _ _ => exact ⟨hbase ▸ h.ok, hbase ▸ h.table, hgraph⟩
  | release hbase _ _ => exact ⟨hbase ▸ h.ok, hbase ▸ h.table, hgraph⟩

/-- **An operation that throws keeps the invariant.** -/
theorem Inv.throws {e : Throw} (h : port.Inv) (hadm : port.Admissible op)
    (hop : perform op port = .error e port') (he : e.IsException) : port'.Inv := by
  have hregraphed := perform_onThrow op port e port' hop he
  refine ⟨hregraphed.base ▸ h.ok, hregraphed.base ▸ h.table, ?_⟩
  exact h.graph.kept hadm (hregraphed.kept op)

/-- **Every state that a port reaches has the invariant.** -/
theorem Reachable.inv (h : Reachable port) : port.Inv := by
  induction h with
  | init hcreated => exact hcreated.inv
  | returns _ hadm hop ih => exact ih.returns hadm hop
  | throws _ hadm hop he ih => exact ih.throws hadm hop he

/-- **The invariant of a port**, after any operations that return or throw.  While it does not
transmit it is idle exactly when its table is empty; its stop event is armed exactly in `TX` and
`PAUSE`; a graph that it keeps is the graph of the streams in its table; and an operation that
throws leaves its state, its table, its factor and its events as they were, and has sent nothing. -/
theorem port_invariant (n : UInt8) (port : ControlPort n) (h : Reachable port) :
    (port.portState ∉ [PORT_STATE_TX, PORT_STATE_PAUSE] →
      (port.portState = PORT_STATE_IDLE ↔ port.streamTable = []))
    ∧ (port.stopEvent.isActive = true ↔ port.portState ∈ [PORT_STATE_TX, PORT_STATE_PAUSE])
    ∧ (∀ graph, port.graphObj = some graph → ∃ streams, streams.Perm port.streamTable
      ∧ TrexStreamsGraph.generate streams = .ok graph)
    ∧ ∀ op e port', perform op port = .error e port' → e.IsException →
      port'.toTrexStatelessPort = port.toTrexStatelessPort ∧ port'.toDp = port.toDp := by
  have hinv := h.inv
  refine ⟨fun _ => hinv.table, hinv.ok.armed_iff, hinv.graph, ?_⟩
  intro op e port' hop he
  have hregraphed := perform_onThrow op port e port' hop he
  exact ⟨hregraphed.base, hregraphed.toDp⟩

/-- A port as it is created, with one core. -/
def freshPort : ControlPort 1 :=
  { portId := 0, portState := .PORT_STATE_IDLE, streamTable := [], lastAllStreamsContinues := false
    lastDuration := 0, factor := 0, eventIdCounter := -1, stopEvent := ⟨fun _ => false, 0, -1⟩
    speed := .SPEED_INVALID, graphObj := none, owner := {}, toDp := fun _ => [] }

/-- A stream of one packet per second. -/
def onePps : TrexStream := ⟨.stCONTINUOUS, 0, 0, 0, -1, true, true, {}, none, ⟨[], 60⟩, 1, 0, 1, 0⟩

/-- The port, with the stream in its table. -/
def loadedPort : ControlPort 1 :=
  { freshPort with streamTable := [onePps], portState := PORT_STATE_STREAMS }

/-- What is looked at after an operation that returned. -/
def returned? : EStateM.Result Throw (ControlPort 1) Unit → Option (Bool × List TrexStream)
  | .ok _ port => some (port.graphObj.isSome, port.streamTable)
  | .error _ _ => none

/-- A stream is added, and the port is validated. -/
theorem port_invariant_validate : ∃ port : ControlPort 1, Reachable port ∧
    port.graphObj.isSome = true
    ∧ port.streamTable = [onePps]
    ∧ (port.stopEvent.isActive = true ↔ port.portState ∈ [PORT_STATE_TX, PORT_STATE_PAUSE]) := by
  have hcreated : freshPort.Created 0 := ⟨⟨rfl, rfl, rfl, rfl, rfl⟩, rfl, rfl⟩
  have hadd : perform (.addStream onePps) freshPort = .ok () loadedPort := rfl
  have hloaded : Reachable loadedPort := .returns (.init hcreated) (by rfl) hadd
  have hview : returned? (perform (.validate (fun _ _ => 0) [onePps]) loadedPort)
      = some (true, [onePps]) := by
    decide +kernel
  cases hvalidate : perform (.validate (fun _ _ => 0) [onePps]) loadedPort with
  | error e port =>
    rw [hvalidate] at hview
    cases hview
  | ok u port =>
    rw [hvalidate] at hview
    obtain ⟨hgraph, htable⟩ := Prod.mk.inj (Option.some.inj hview)
    have hreach : Reachable port := .returns hloaded (by exact List.Perm.refl _) hvalidate
    exact ⟨port, hreach, hgraph, htable, (port_invariant 1 port hreach).2.1⟩

end ControlPort

end Trex.Cp
