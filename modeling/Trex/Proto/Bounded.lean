/-
# The rings are bounded

`send_message_to_dp` and `stop_traffic` of the data plane do not look at what `Enqueue` returns, and
a ring of `n` entries has room for `n - 1` messages.  This module is `System.lean` with such rings:
a message that finds its ring full is lost, and everything else happens as if it was sent.

Nothing is lost in runs whose requests and stops always find an entry free (`rings_lose_nothing`).
A control plane that is faster than its cores loses messages, and it does not notice
(`stop_is_lost`).
-/
import Trex.Proto.Update

namespace Trex.Cp.TrexStatelessPort

open Trex.Lib Trex.Stream PortState

variable {n : UInt8} {port : TrexStatelessPort n} {request : Request} {reply : Reply n}

/-! ## 1. What sends a message -/

/-- A request that is accepted and sends a message to the cores of the port. -/
def Sends (port : TrexStatelessPort n) : Request → Prop
  | .addStream _ => False
  | .removeStream _ => False
  | .removeAllStreams => False
  | .start rand streams factor _ => port.portState = PORT_STATE_STREAMS
      ∧ (∃ objs, compileAll rand port.portId streams n factor = .ok objs)
      ∧ port.eventIdCounter + 1 < 2 ^ 31
  | .stop => port.portState ∈ [PORT_STATE_TX, PORT_STATE_PAUSE]
  | .pause => port.portState = PORT_STATE_TX ∧ port.endless = true
  | .resume => port.portState = PORT_STATE_PAUSE
  | .update op newFactor => port.portState ∈ [PORT_STATE_TX, PORT_STATE_PAUSE]
      ∧ ¬ (op = .OP_SUB ∧ port.updateFactor op newFactor ≤ 0)

/-- **Every core gets at most one message of a request**, and none of a request that does not
send. -/
theorem handle_toDp (h : port.handle request = .ok reply) (k : Fin n.toNat) :
    (reply.toDp k).length ≤ 1 ∧ (reply.toDp k ≠ [] → port.Sends request)
      ∧ ∀ m ∈ reply.toDp k, m ≠ .quit := by
  cases request with
  | addStream stream =>
    obtain ⟨_, -, h⟩ := bind_eq_ok h
    cases h
    simp [silent]
  | removeStream streamId =>
    obtain ⟨_, -, h⟩ := bind_eq_ok h
    cases h
    simp [silent]
  | removeAllStreams =>
    obtain ⟨_, -, h⟩ := bind_eq_ok h
    cases h
    simp [silent]
  | start rand streams factor duration =>
    obtain ⟨_, hstate, h⟩ := bind_eq_ok h
    obtain ⟨objs, hobjs, h⟩ := bind_eq_ok h
    obtain ⟨eventId, hid, h⟩ := bind_eq_ok h
    have hcounter : port.eventIdCounter + 1 < 2 ^ 31 := by
      unfold generateEventId at hid
      split at hid
      · assumption
      · cases hid
    split at h
    · cases h
    · cases h
      refine ⟨?_, fun _ => ?_, ?_⟩
      · cases objs[k.val]? <;> simp
      · exact ⟨List.mem_singleton.mp (verifyState_eq_ok hstate), ⟨objs, mapError_eq_ok hobjs⟩,
          hcounter⟩
      · intro m hm
        obtain ⟨obj, -, rfl⟩ := List.mem_map.mp hm
        exact fun heq => by cases heq
  | stop =>
    unfold handle stopTraffic at h
    simp only at h
    split at h
    · cases h
      simp [silent]
    · rename_i hstate
      cases h
      exact ⟨le_refl 1, fun _ => not_not.mp hstate, by simp [sendMessageToAllDp]⟩
  | pause =>
    obtain ⟨_, hstate, h⟩ := bind_eq_ok h
    split at h
    · cases h
    rename_i hcont
    split at h
    · cases h
    rename_i hduration
    cases h
    refine ⟨le_refl 1, fun _ => ⟨List.mem_singleton.mp (verifyState_eq_ok hstate), ?_⟩,
      by simp [sendMessageToAllDp]⟩
    simp only [endless, Bool.eq_true_of_not_eq_false hcont, hduration]
    rfl
  | resume =>
    obtain ⟨_, hstate, h⟩ := bind_eq_ok h
    cases h
    exact ⟨le_refl 1, fun _ => List.mem_singleton.mp (verifyState_eq_ok hstate),
      by simp [sendMessageToAllDp]⟩
  | update op newFactor =>
    obtain ⟨_, hstate, h⟩ := bind_eq_ok h
    simp only at h
    split at h
    · cases h
    rename_i hpos
    cases h
    exact ⟨le_refl 1, fun _ => ⟨verifyState_eq_ok hstate, hpos⟩, by simp [sendMessageToAllDp]⟩

end Trex.Cp.TrexStatelessPort

namespace Trex.Dp.TrexStatelessDpCore

variable {c c' : TrexStatelessDpCore}

/-- A step that stops a port: a stop for its run is taken from the ring, or a node is taken that
ends the run. -/
def Stops (c : TrexStatelessDpCore) : Act → Prop
  | .msg (.stop cmd) => (c.ports cmd.portId).state ≠ .ppSTATE_IDLE
      ∧ (cmd.stopOnlyForEventId = true → cmd.eventId = (c.ports cmd.portId).eventId)
  | .msg _ => False
  | .leaveIdle => False
  | .pop j => ∃ node i, c.queue[j]? = some node ∧ c.EndsPort i node
  | .endSync => False

/-- **A step adds at most one event**, and none if it does not stop a port. -/
theorem step_ring {a : Act} (h : c.step a = .ok c') : ∃ events, c'.ringToCp = c.ringToCp ++ events
    ∧ events.length ≤ 1 ∧ (events ≠ [] → c.Stops a) := by
  have hnone : c'.ringToCp = c.ringToCp → ∃ events, c'.ringToCp = c.ringToCp ++ events
      ∧ events.length ≤ 1 ∧ (events ≠ [] → c.Stops a) :=
    fun hring => ⟨[], by rw [hring, List.append_nil], Nat.zero_le 1, fun hne => absurd rfl hne⟩
  obtain ⟨heffect, -⟩ := step_effect h
  cases heffect with
  | start hstart => exact hnone hstart.ring
  | pause hswitch => exact hnone hswitch.ring
  | resume hswitch => exact hnone hswitch.ring
  | update hquiet => exact hnone hquiet.ring
  | quit hquiet => exact hnone hquiet.ring
  | noStop heq =>
    subst heq
    exact hnone rfl
  | stop hhalt hid =>
    exact ⟨_, hhalt.ring, le_refl 1, fun _ => ⟨hhalt.before, hid⟩⟩
  | internal _ hquiet => exact hnone hquiet.ring
  | streams _ _ _ hhalt =>
    obtain ⟨j, node, hj, hnode, hends⟩ := step_ends (a := .pop _) trivial h hhalt.before hhalt.after
    cases hj
    exact ⟨_, hhalt.ring, le_refl 1, fun _ => ⟨node, _, hnode, hends⟩⟩
  | duration _ _ hhalt =>
    obtain ⟨j, node, hj, hnode, hends⟩ := step_ends (a := .pop _) trivial h hhalt.before hhalt.after
    cases hj
    exact ⟨_, hhalt.ring, le_refl 1, fun _ => ⟨node, _, hnode, hends⟩⟩

end Trex.Dp.TrexStatelessDpCore

namespace Trex.Proto

open Trex.Lib Trex.Stream Trex.Cp Trex.Dp TrexStatelessDpCore TrexStatelessPort.PortState

/-! ## 2. Rings -/

/-- `CRingSp::Enqueue`, of a ring that was created with `count` entries. -/
def enqueue {α : Type} (count : Nat) (ring : List α) (m : α) : List α :=
  if ring.length + 1 < count then ring ++ [m] else ring

/-- One message after the other, whatever `Enqueue` returns. -/
def enqueueAll {α : Type} (count : Nat) (ring ms : List α) : List α := ms.foldl (enqueue count) ring

theorem enqueueAll_of_room {α : Type} {count : Nat} {ring ms : List α} (hone : ms.length ≤ 1)
    (hroom : ms ≠ [] → ring.length + 1 < count) : enqueueAll count ring ms = ring ++ ms := by
  match ms, hone with
  | [], _ => simp [enqueueAll]
  | [m], _ => simp [enqueueAll, enqueue, hroom]

/-- The entries of the rings that `CMessagingManager::Create` makes. -/
def ringCount : Nat := 1024

/-! ## 3. States and moves -/

/-- The two planes, with what went into the rings and what came out of those to the cores.  The
source does not keep any of it. -/
structure RingSystem (n : UInt8) where
  sys : TrexSystem n
  /-- What the ports sent to a core. -/
  sent : Fin n.toNat → List CpToDpMsg
  /-- What a core took of it. -/
  taken : Fin n.toNat → List CpToDpMsg
  /-- The stop events of a core. -/
  reported : Fin n.toNat → List TrexDpPortEventMsg

/-- `TrexStatelessPort` sends every message but the quit. -/
def ofPort (m : CpToDpMsg) : Bool := m ≠ .quit

/-- The events that a step of a core adds. -/
def newEvents (c c' : TrexStatelessDpCore) : List TrexDpPortEventMsg :=
  c'.ringToCp.drop c.ringToCp.length

/-- A core after a step, with a bounded ring. -/
def bounded (count : Nat) (c c' : TrexStatelessDpCore) : TrexStatelessDpCore :=
  { c' with ringToCp := enqueueAll count c.ringToCp (newEvents c c') }

namespace RingSystem

variable {n : UInt8} {count : Nat}

/-- A request that was accepted. -/
def replied (count : Nat) (s : RingSystem n) (portId : UInt8) (reply : Reply n) : RingSystem n :=
  { s with
    sys := { s.sys with
      cp := Function.update s.sys.cp portId reply.port
      toDp := fun k => enqueueAll count (s.sys.toDp k) (reply.toDp k) }
    sent := fun k => s.sent k ++ reply.toDp k }

/-- `try_stop_all_dp`. -/
def tryStopAllDp (count : Nat) (s : RingSystem n) : RingSystem n :=
  { s with sys := { s.sys with toDp := fun k => enqueueAll count (s.sys.toDp k) [.quit] } }

/-- A core took a message. -/
def delivered (count : Nat) (s : RingSystem n) (k : Fin n.toNat) (m : CpToDpMsg)
    (rest : List CpToDpMsg) (c : TrexStatelessDpCore) : RingSystem n :=
  { s with
    sys := s.sys.delivered k (bounded count (s.sys.cores k) c) rest
    taken := Function.update s.taken k (s.taken k ++ [m].filter ofPort)
    reported := Function.update s.reported k (s.reported k ++ newEvents (s.sys.cores k) c) }

/-- A core took a step by itself. -/
def advanced (count : Nat) (s : RingSystem n) (k : Fin n.toNat) (c : TrexStatelessDpCore) :
    RingSystem n :=
  { s with
    sys := { s.sys with
      cores := Function.update s.sys.cores k (bounded count (s.sys.cores k) c) }
    reported := Function.update s.reported k (s.reported k ++ newEvents (s.sys.cores k) c) }

/-- **A move.**  A request that is refused changes nothing. -/
inductive Step (count : Nat) (s : RingSystem n) : Move n → RingSystem n → Prop
  | request {portId : UInt8} {request : TrexStatelessPort.Request} {reply : Reply n} :
      HasPort s.sys.localPortOffset portId → (s.sys.cp portId).Admissible request →
      (s.sys.cp portId).handle request = .ok reply →
      Step count s (.request portId request) (s.replied count portId reply)
  | refused {portId : UInt8} {request : TrexStatelessPort.Request} {err : PortErr} :
      HasPort s.sys.localPortOffset portId → (s.sys.cp portId).Admissible request →
      (s.sys.cp portId).handle request = .error err → Step count s (.request portId request) s
  | quit : Step count s .quit (s.tryStopAllDp count)
  | deliver {k : Fin n.toNat} {m : CpToDpMsg} {rest : List CpToDpMsg} {c : TrexStatelessDpCore} :
      s.sys.toDp k = m :: rest → (s.sys.cores k).Enabled (.msg m) →
      (s.sys.cores k).step (.msg m) = .ok c →
        Step count s (.deliver k) (s.delivered count k m rest c)
  | core {k : Fin n.toNat} {a : Act} {c : TrexStatelessDpCore} : a.internal →
      (s.sys.cores k).Enabled a → (s.sys.cores k).step a = .ok c →
      Step count s (.core k a) (s.advanced count k c)
  | event {k : Fin n.toNat} {ev : TrexDpPortEventMsg} {rest : List TrexDpPortEventMsg} :
      (s.sys.cores k).ringToCp = ev :: rest →
      Step count s (.event k) { s with sys := s.sys.handleEvent k ev rest }

/-- Everything was just created. -/
structure Initial (s : RingSystem n) : Prop where
  sys : s.sys.Initial
  sent : ∀ k, s.sent k = []
  taken : ∀ k, s.taken k = []
  reported : ∀ k, s.reported k = []

/-- The states that can be reached, by moves that all meet a condition on the state before. -/
inductive ReachableBy (count : Nat) (allowed : RingSystem n → Move n → Prop) : RingSystem n → Prop
  | init {s : RingSystem n} : s.Initial → ReachableBy count allowed s
  | step {s s' : RingSystem n} {move : Move n} : ReachableBy count allowed s → allowed s move →
      Step count s move s' → ReachableBy count allowed s'

theorem ReachableBy.mono {allowed allowed' : RingSystem n → Move n → Prop} {s : RingSystem n}
    (h : ReachableBy count allowed s) (hall : ∀ s move, allowed s move → allowed' s move) :
    ReachableBy count allowed' s := by
  induction h with
  | init hinit => exact .init hinit
  | step _ hmove hstep ih => exact .step ih (hall _ _ hmove) hstep

/-- **Nothing is lost**: what the ports sent to a core was taken by it or waits in its ring, once
and in order, and so do the stop events of the core. -/
def NoLoss (s : RingSystem n) : Prop :=
  ∀ k, s.sent k = s.taken k ++ (s.sys.toDp k).filter ofPort
    ∧ s.reported k = s.sys.handled k ++ (s.sys.cores k).ringToCp

/-! ## 4. Runs that find room -/

/-- **The moves that find room**: a request that sends messages finds a free entry in the ring of
every core, and a step of a core that stops a port finds one in the ring to the control plane. -/
def RoomFor (count : Nat) (s : RingSystem n) : Move n → Prop
  | .request portId request => (s.sys.cp portId).Sends request →
      ∀ k, (s.sys.toDp k).length + 1 < count
  | .quit => True
  | .deliver k => ∀ m rest, s.sys.toDp k = m :: rest → (s.sys.cores k).Stops (.msg m) →
      (s.sys.cores k).ringToCp.length + 1 < count
  | .core k a => (s.sys.cores k).Stops a → (s.sys.cores k).ringToCp.length + 1 < count
  | .event _ => True

variable {s s' : RingSystem n} {move : Move n}

/-- A step of a core that finds room adds its events to the ring. -/
theorem bounded_ring {c c' : TrexStatelessDpCore} {a : Act} (h : c.step a = .ok c')
    (hroom : c.Stops a → c.ringToCp.length + 1 < count) :
    (bounded count c c').ringToCp = c.ringToCp ++ newEvents c c' := by
  obtain ⟨events, hring, hone, hstops⟩ := step_ring h
  have hnew : newEvents c c' = events := by
    rw [newEvents, hring, List.drop_left]
  rw [bounded, hnew]
  exact enqueueAll_of_room hone fun hne => hroom (hstops hne)

/-- The quit is not a message of a port. -/
theorem filter_enqueueAll_quit (ring : List CpToDpMsg) :
    (enqueueAll count ring [.quit]).filter ofPort = ring.filter ofPort := by
  unfold enqueueAll List.foldl enqueue
  split
  · simp [ofPort]
  · rfl

/-- **A move that finds room loses nothing.** -/
theorem Step.noLoss (hstep : Step count s move s') (hroom : s.RoomFor count move) (h : s.NoLoss) :
    s'.NoLoss := by
  cases hstep with
  | request hport hadm hreply =>
    rename_i portId request reply
    intro k
    obtain ⟨hsent, hreported⟩ := h k
    obtain ⟨hone, hsends, hquit⟩ := TrexStatelessPort.handle_toDp hreply k
    have hring : enqueueAll count (s.sys.toDp k) (reply.toDp k) = s.sys.toDp k ++ reply.toDp k :=
      enqueueAll_of_room hone fun hne => hroom (hsends hne) k
    refine ⟨?_, hreported⟩
    have hall : (reply.toDp k).filter ofPort = reply.toDp k :=
      List.filter_eq_self.mpr fun m hm => by simpa [ofPort] using hquit m hm
    change s.sent k ++ reply.toDp k = s.taken k ++ (enqueueAll count _ _).filter ofPort
    rw [hring, List.filter_append, hall, hsent, List.append_assoc]
  | refused => exact h
  | quit =>
    intro k
    refine ⟨?_, (h k).2⟩
    change s.sent k = s.taken k ++ (enqueueAll count _ _).filter ofPort
    rw [filter_enqueueAll_quit]
    exact (h k).1
  | deliver hring hen hc =>
    rename_i k m rest c
    intro j
    obtain ⟨hsent, hreported⟩ := h j
    by_cases hj : j = k
    · subst hj
      have hevents := bounded_ring hc (hroom m rest hring)
      refine ⟨?_, ?_⟩
      · simp only [delivered, TrexSystem.delivered, Function.update_self]
        rw [hsent, hring, List.append_assoc, ← List.filter_append, List.singleton_append]
      · simp only [delivered, TrexSystem.delivered, Function.update_self]
        rw [hevents, hreported, List.append_assoc]
    · simp only [delivered, TrexSystem.delivered, Function.update_of_ne hj]
      exact ⟨hsent, hreported⟩
  | core ha hen hc =>
    rename_i k a c
    intro j
    obtain ⟨hsent, hreported⟩ := h j
    by_cases hj : j = k
    · subst hj
      have hevents := bounded_ring hc hroom
      refine ⟨hsent, ?_⟩
      simp only [advanced, Function.update_self]
      rw [hevents, hreported, List.append_assoc]
    · simp only [advanced, Function.update_of_ne hj]
      exact ⟨hsent, hreported⟩
  | event hring =>
    rename_i k ev rest
    intro j
    obtain ⟨hsent, hreported⟩ := h j
    refine ⟨hsent, ?_⟩
    by_cases hj : j = k
    · subst hj
      simp only [TrexSystem.handleEvent, Function.update_self]
      rw [hreported, hring, List.append_assoc, List.singleton_append]
    · simp only [TrexSystem.handleEvent, Function.update_of_ne hj]
      exact hreported

/-- **No message is lost**, in every run whose requests and stops find room: every message of a port
is taken by its core or waits for it, once and in order, and so does every stop event; a request
that is refused sends nothing. -/
theorem rings_lose_nothing (n : UInt8) (count : Nat) (s : RingSystem n)
    (h : ReachableBy count (RoomFor count) s) : s.NoLoss := by
  induction h with
  | init hinit =>
    intro k
    rw [hinit.sent, hinit.taken, hinit.reported, hinit.sys.toDp, hinit.sys.handled,
      (hinit.sys.cores k).1.ringToCp]
    exact ⟨rfl, rfl⟩
  | step _ hroom hstep ih => exact hstep.noLoss hroom ih

/-! ## 5. A stop that is lost -/

open TrexSystem (freshSystem freshSystem_initial onlyCore continuousStream)

/-- The port transmits, no core has read its messages, and the ring holds the start and some
updates. -/
structure Filled (updates : Nat) (s : RingSystem 1) : Prop where
  reach : ReachableBy ringCount (RoomFor ringCount) s
  offset : HasPort s.sys.localPortOffset 0
  portId : (s.sys.cp 0).portId = 0
  portState : (s.sys.cp 0).portState = PORT_STATE_TX
  length : (s.sys.toDp onlyCore).length = updates + 1
  noStop : ∀ m ∈ s.sys.toDp onlyCore, ∀ cmd, m ≠ .stop cmd
  sent : s.sent onlyCore = s.sys.toDp onlyCore
  taken : s.taken onlyCore = []

theorem eq_onlyCore (k : Fin (1 : UInt8).toNat) : k = onlyCore := Fin.ext (Nat.lt_one_iff.mp k.isLt)

/-- The port, with a stream in its table. -/
def loadedPort : TrexStatelessPort 1 :=
  { freshSystem.cp 0 with streamTable := [continuousStream], portState := PORT_STATE_STREAMS }

/-- What is looked at in the reply to the start. -/
def startView (reply : Reply 1) : UInt8 × TrexStatelessPort.PortState × List Bool :=
  (reply.port.portId, reply.port.portState, (reply.toDp onlyCore).map fun m =>
    match m with
    | .start _ _ _ => true
    | _ => false)

/-- A continuous stream is started. -/
theorem filled_zero : ∃ s, Filled 0 s := by
  have hadd : (freshSystem.cp 0).handle (.addStream continuousStream) = .ok loadedPort.silent := rfl
  have hstart : (loadedPort.handle (.start (fun _ _ => 0) [continuousStream] 1 0)).toOption.map
      startView = some (0, PORT_STATE_TX, [true]) := by
    decide +kernel
  obtain ⟨reply, hreply, hview⟩ := Option.map_eq_some_iff.mp hstart
  obtain ⟨hid, hview⟩ := Prod.mk.inj hview
  obtain ⟨hstate, hmsgs⟩ := Prod.mk.inj hview
  let fresh : RingSystem 1 := ⟨freshSystem, fun _ => [], fun _ => [], fun _ => []⟩
  have hfresh : ReachableBy ringCount (RoomFor ringCount) fresh :=
    .init ⟨freshSystem_initial, fun _ => rfl, fun _ => rfl, fun _ => rfl⟩
  have hport : HasPort fresh.sys.localPortOffset 0 := by decide
  have hadded : Step ringCount fresh (.request 0 (.addStream continuousStream)) _ :=
    .request hport rfl hadd
  have hloaded := hfresh.step (by exact fun h => h.elim) hadded
  have hperm : [continuousStream].Perm loadedPort.streamTable := List.Perm.refl _
  have hstep : Step ringCount (fresh.replied ringCount 0 loadedPort.silent)
      (.request 0 (.start (fun _ _ => 0) [continuousStream] 1 0)) _ :=
    .request hport hperm (toOption_eq_some hreply)
  have hstarted := hloaded.step (by exact fun _ _ => show 0 + 1 < ringCount by decide) hstep
  have hlength : (reply.toDp onlyCore).length = 1 := by
    simpa using congrArg List.length hmsgs
  have hring : enqueueAll ringCount [] (reply.toDp onlyCore) = reply.toDp onlyCore :=
    enqueueAll_of_room (le_of_eq hlength) fun _ => by decide
  refine ⟨_, hstarted, hport, hid, hstate, ?_, ?_, ?_, rfl⟩
  · change (enqueueAll ringCount [] (reply.toDp onlyCore)).length = _
    rw [hring, hlength]
  · change ∀ m ∈ enqueueAll ringCount [] (reply.toDp onlyCore), _
    rw [hring]
    rintro m hm cmd rfl
    have hfalse : false ∈ [true] := hmsgs ▸ List.mem_map_of_mem hm
    simp at hfalse
  · exact hring.symm

/-- One more update is accepted while the ring has room. -/
theorem Filled.update {updates : Nat} {s : RingSystem 1} (h : Filled updates s)
    (hroom : updates + 2 < ringCount) : ∃ s', Filled (updates + 1) s' := by
  have hhandle : (s.sys.cp 0).handle (.update .OP_ABS 1) = .ok
      ({ s.sys.cp 0 with
          factor := (s.sys.cp 0).factor * (s.sys.cp 0).updateFactor .OP_ABS 1 }.sendMessageToAllDp
        (.update 0 ((s.sys.cp 0).updateFactor .OP_ABS 1))) := by
    simp [TrexStatelessPort.handle, TrexStatelessPort.updateTraffic, TrexStatelessPort.verifyState,
      h.portState, h.portId, bind, Except.bind]
  have hfree : ∀ k, (s.sys.toDp k).length + 1 < ringCount := by
    intro k
    rw [eq_onlyCore k, h.length]
    exact hroom
  have hstep : Step ringCount s (.request 0 (.update .OP_ABS 1)) _ :=
    .request h.offset trivial hhandle
  have hreach := h.reach.step (by exact fun _ => hfree) hstep
  have hring : enqueueAll ringCount (s.sys.toDp onlyCore)
      [.update 0 ((s.sys.cp 0).updateFactor .OP_ABS 1)]
      = s.sys.toDp onlyCore ++ [.update 0 ((s.sys.cp 0).updateFactor .OP_ABS 1)] :=
    enqueueAll_of_room (le_refl 1) fun _ => hfree onlyCore
  refine ⟨_, hreach, h.offset, ?_, ?_, ?_, ?_, ?_, h.taken⟩
  · simpa [replied, TrexStatelessPort.sendMessageToAllDp] using h.portId
  · simpa [replied, TrexStatelessPort.sendMessageToAllDp] using h.portState
  · change (enqueueAll ringCount _ [_]).length = _
    rw [hring, List.length_append, h.length]
    rfl
  · change ∀ m ∈ enqueueAll ringCount _ [_], _
    rw [hring]
    intro m hm cmd
    rcases List.mem_append.mp hm with hold | hnew
    · exact h.noStop m hold cmd
    · rw [List.mem_singleton.mp hnew]
      exact fun heq => by cases heq
  · change s.sent onlyCore ++ [_] = enqueueAll ringCount _ [_]
    rw [hring, h.sent]

/-- The ring can be filled. -/
theorem filled (updates : Nat) (hroom : updates + 1 < ringCount) : ∃ s, Filled updates s := by
  induction updates with
  | zero => exact filled_zero
  | succ updates ih =>
    obtain ⟨s, h⟩ := ih (Nat.lt_of_succ_lt hroom)
    exact h.update hroom

/-- Right after the start of a stream. -/
theorem rings_lose_nothing_start : ∃ s : RingSystem 1, ReachableBy ringCount (RoomFor ringCount) s
    ∧ s.sent onlyCore ≠ [] ∧ s.NoLoss := by
  obtain ⟨s, h⟩ := filled_zero
  refine ⟨s, h.reach, ?_, rings_lose_nothing 1 ringCount s h.reach⟩
  rw [h.sent]
  exact List.ne_nil_of_length_eq_add_one h.length

/-- **A stop is lost**: the ring is full of updates when a port is stopped.  The request is
accepted, and the port believes that its cores are stopped, but the stop is on its way to no
core. -/
theorem stop_is_lost : ∃ s : RingSystem 1, ReachableBy ringCount (fun _ _ => True) s
    ∧ (s.sys.cp 0).portState = PORT_STATE_STREAMS
    ∧ .stop ⟨0, false, 0⟩ ∈ s.sent onlyCore
    ∧ .stop ⟨0, false, 0⟩ ∉ s.taken onlyCore ++ s.sys.toDp onlyCore
    ∧ ¬ s.NoLoss := by
  obtain ⟨s, h⟩ := filled 1022 (by decide)
  have hhandle : (s.sys.cp 0).handle .stop = .ok
      ({ s.sys.cp 0 with
          stopEvent := (s.sys.cp 0).stopEvent.disable
          portState := PORT_STATE_STREAMS }.sendMessageToAllDp (.stop ⟨0, false, 0⟩)) := by
    simp [TrexStatelessPort.handle, TrexStatelessPort.stopTraffic, h.portState, h.portId]
  have hring : enqueueAll ringCount (s.sys.toDp onlyCore) [.stop ⟨0, false, 0⟩]
      = s.sys.toDp onlyCore := by
    simp only [enqueueAll, List.foldl, enqueue]
    rw [if_neg (by rw [h.length]; decide)]
  have hreach : ReachableBy ringCount (fun _ _ => True) s := h.reach.mono fun _ _ _ => trivial
  have hlost : CpToDpMsg.stop ⟨0, false, 0⟩ ∉ s.sys.toDp onlyCore :=
    fun hmem => h.noStop _ hmem _ rfl
  have hstep : Step ringCount s (.request 0 .stop) _ := .request h.offset trivial hhandle
  refine ⟨_, hreach.step trivial hstep, ?_, ?_, ?_, ?_⟩
  · simp [replied, TrexStatelessPort.sendMessageToAllDp]
  · exact List.mem_append_right _ List.mem_cons_self
  · change _ ∉ s.taken onlyCore ++ enqueueAll ringCount _ [_]
    rw [hring, h.taken]
    exact hlost
  · intro hno
    have hsent : s.sent onlyCore ++ [.stop ⟨0, false, 0⟩]
        = s.taken onlyCore ++ (enqueueAll ringCount _ [.stop ⟨0, false, 0⟩]).filter ofPort :=
      (hno onlyCore).1
    have hlength := congrArg List.length hsent
    have hle := List.length_filter_le ofPort (s.sys.toDp onlyCore)
    rw [hring, h.taken, h.sent, List.length_append, List.nil_append, List.length_singleton]
      at hlength
    omega

end RingSystem

end Trex.Proto
