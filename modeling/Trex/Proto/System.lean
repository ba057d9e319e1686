/-
# The control plane and the data plane together

The control-plane ports of a pair of interfaces, the data-plane cores that serve them, and the rings
between them (`CMsgIns`): every core has one ring from the control plane and one to it.  A move is a
request of the user, a message that a core takes from its ring, a step of a core by itself, or an
event that the control plane takes from the ring of a core.  They come in any order.

The rings are FIFO and have room for every message.  An event is checked and applied in one step,
although the master handles it in a thread of its own while the requests are served in another
(`Trex.Proto.Master` takes the handling apart, and says in which runs this makes no difference).
-/
import Trex.Cp.Port
import Trex.Dp.Account

namespace Trex.Proto

open Trex.Lib Trex.Stream Trex.Cp Trex.Dp TrexStatelessDpCore
open Function (update)

/-! ## 1. States and moves -/

/-- The two planes, for the ports that `n` cores serve. -/
structure TrexSystem (n : UInt8) where
  localPortOffset : UInt8
  cp : UInt8 → TrexStatelessPort n
  cores : Fin n.toNat → TrexStatelessDpCore
  /-- `getRingCpToDp`. -/
  toDp : Fin n.toNat → List CpToDpMsg
  /-- The events that the control plane has handled, for every core.  The source does not keep
  them. -/
  handled : Fin n.toNat → List TrexDpPortEventMsg

/-- What can happen next. -/
inductive Move (n : UInt8)
  | request (portId : UInt8) (request : TrexStatelessPort.Request)
  | quit
  | deliver (core : Fin n.toNat)
  | core (core : Fin n.toNat) (act : Act)
  | event (core : Fin n.toNat)

namespace TrexSystem

variable {n : UInt8}

/-- A request, with its reply: the port changes, and every core gets its messages. -/
def replied (s : TrexSystem n) (portId : UInt8) (reply : Reply n) : TrexSystem n :=
  { s with
    cp := update s.cp portId reply.port
    toDp := fun k => s.toDp k ++ reply.toDp k }

/-- `try_stop_all_dp`. -/
def tryStopAllDp (s : TrexSystem n) : TrexSystem n :=
  { s with toDp := fun k => s.toDp k ++ [.quit] }

/-- A core, changed, with what is left in its ring. -/
def delivered (s : TrexSystem n) (k : Fin n.toNat) (c : TrexStatelessDpCore)
    (rest : List CpToDpMsg) : TrexSystem n :=
  { s with
    cores := update s.cores k c
    toDp := update s.toDp k rest }

/-- `check_for_dp_message_from_core`: the port of the event handles it. -/
def handleEvent (s : TrexSystem n) (k : Fin n.toNat) (ev : TrexDpPortEventMsg)
    (rest : List TrexDpPortEventMsg) : TrexSystem n :=
  { s with
    cp := update s.cp ev.portId ((s.cp ev.portId).handleEvent k ev.eventId)
    cores := update s.cores k { s.cores k with ringToCp := rest }
    handled := update s.handled k (s.handled k ++ [ev]) }

/-- **A move.**  A request that is refused is no move, and neither is a step of a core that does not
return. -/
inductive Step (s : TrexSystem n) : Move n → TrexSystem n → Prop
  | request {portId : UInt8} {request : TrexStatelessPort.Request} {reply : Reply n} :
      HasPort s.localPortOffset portId → (s.cp portId).Admissible request →
      (s.cp portId).handle request = .ok reply →
      Step s (.request portId request) (s.replied portId reply)
  | quit : Step s .quit s.tryStopAllDp
  | deliver {k : Fin n.toNat} {m : CpToDpMsg} {rest : List CpToDpMsg} {c : TrexStatelessDpCore} :
      s.toDp k = m :: rest → (s.cores k).Enabled (.msg m) → (s.cores k).step (.msg m) = .ok c →
      Step s (.deliver k) (s.delivered k c rest)
  | core {k : Fin n.toNat} {a : Act} {c : TrexStatelessDpCore} : a.internal →
      (s.cores k).Enabled a →
      (s.cores k).step a = .ok c →
      Step s (.core k a) { s with cores := update s.cores k c }
  | event {k : Fin n.toNat} {ev : TrexDpPortEventMsg} {rest : List TrexDpPortEventMsg} :
      (s.cores k).ringToCp = ev :: rest → Step s (.event k) (s.handleEvent k ev rest)

/-- A core that does not return from a move. -/
inductive Fails (s : TrexSystem n) : Move n → Fault → Prop
  | deliver {k : Fin n.toNat} {m : CpToDpMsg} {rest : List CpToDpMsg} {fault : Fault} :
      s.toDp k = m :: rest → (s.cores k).Enabled (.msg m) →
      (s.cores k).step (.msg m) = .error fault → Fails s (.deliver k) fault
  | core {k : Fin n.toNat} {a : Act} {fault : Fault} : a.internal → (s.cores k).Enabled a →
      (s.cores k).step a = .error fault → Fails s (.core k a) fault

/-- Everything was just created. -/
structure Initial (s : TrexSystem n) : Prop where
  cp : ∀ portId, (s.cp portId).Created portId
  cores : ∀ k, (s.cores k).Initial ∧ (s.cores k).localPortOffset = s.localPortOffset
  toDp : ∀ k, s.toDp k = []
  handled : ∀ k, s.handled k = []

/-- **The states that can be reached**, by moves that all meet a condition on the state before. -/
inductive ReachableBy (allowed : TrexSystem n → Move n → Prop) : TrexSystem n → Prop
  | init {s : TrexSystem n} : s.Initial → ReachableBy allowed s
  | step {s s' : TrexSystem n} {move : Move n} : ReachableBy allowed s → allowed s move →
      Step s move s' → ReachableBy allowed s'

/-- The states that can be reached. -/
abbrev Reachable (s : TrexSystem n) : Prop := ReachableBy (fun _ _ => True) s

/-! ## 2. Runs -/

instance (port : TrexStatelessPort n) (request : TrexStatelessPort.Request) :
    Decidable (port.Admissible request) :=
  match request with
  | .addStream stream => inferInstanceAs (Decidable (stream.portId = port.portId))
  | .removeStream _ => .isTrue trivial
  | .removeAllStreams => .isTrue trivial
  | .start _ streams _ _ => inferInstanceAs (Decidable (streams.Perm port.streamTable))
  | .stop => .isTrue trivial
  | .pause => .isTrue trivial
  | .resume => .isTrue trivial
  | .update _ _ => .isTrue trivial

instance (a : Act) : Decidable a.internal :=
  match a with
  | .msg _ => .isFalse id
  | .leaveIdle => .isTrue trivial
  | .pop _ => .isTrue trivial
  | .endSync => .isTrue trivial

/-- A move, if it can be made. -/
def exec (s : TrexSystem n) : Move n → Option (TrexSystem n)
  | .request portId request =>
    if HasPort s.localPortOffset portId ∧ (s.cp portId).Admissible request then
      ((s.cp portId).handle request).toOption.map (s.replied portId)
    else none
  | .quit => some s.tryStopAllDp
  | .deliver k =>
    match s.toDp k with
    | [] => none
    | m :: rest =>
      if (s.cores k).Enabled (.msg m) then
        ((s.cores k).step (.msg m)).toOption.map fun c => s.delivered k c rest
      else none
  | .core k a =>
    if a.internal ∧ (s.cores k).Enabled a then
      ((s.cores k).step a).toOption.map fun c => { s with cores := update s.cores k c }
    else none
  | .event k =>
    match (s.cores k).ringToCp with
    | [] => none
    | ev :: rest => some (s.handleEvent k ev rest)

/-- Moves, one after the other, as long as they can be made and meet a condition. -/
def run (allowed : TrexSystem n → Move n → Prop) [∀ s move, Decidable (allowed s move)]
    (s : TrexSystem n) : List (Move n) → Option (TrexSystem n)
  | [] => some s
  | move :: rest => if allowed s move then (s.exec move).bind fun s' =>
      run allowed s' rest else none

/-- **What is executed is a move.** -/
theorem step_of_exec {s s' : TrexSystem n} {move : Move n} (h : s.exec move = some s') :
    Step s move s' := by
  cases move with
  | request portId request =>
    simp only [exec] at h
    split at h
    · rename_i hcond
      obtain ⟨reply, hreply, rfl⟩ := Option.map_eq_some_iff.mp h
      exact .request hcond.1 hcond.2 (toOption_eq_some hreply)
    · cases h
  | quit =>
    cases h
    exact .quit
  | deliver k =>
    simp only [exec] at h
    split at h
    · cases h
    · rename_i m rest hring
      split at h
      · rename_i hen
        obtain ⟨c, hc, rfl⟩ := Option.map_eq_some_iff.mp h
        exact .deliver hring hen (toOption_eq_some hc)
      · cases h
  | core k a =>
    simp only [exec] at h
    split at h
    · rename_i hcond
      obtain ⟨c, hc, rfl⟩ := Option.map_eq_some_iff.mp h
      exact .core hcond.1 hcond.2 (toOption_eq_some hc)
    · cases h
  | event k =>
    simp only [exec] at h
    split at h
    · cases h
    · rename_i ev rest hring
      cases h
      exact .event hring

/-- **A run reaches its last state.** -/
theorem ReachableBy.run {allowed : TrexSystem n → Move n → Prop}
    [∀ s move, Decidable (allowed s move)] : ∀ {moves : List (Move n)} {s s' : TrexSystem n},
      ReachableBy allowed s → s.run allowed moves = some s' → ReachableBy allowed s'
  | [], s, s', hs, h => by
    cases h
    exact hs
  | move :: rest, s, s', hs, h => by
    unfold TrexSystem.run at h
    split at h
    · rename_i hallowed
      obtain ⟨s1, hexec, h⟩ := Option.bind_eq_some_iff.mp h
      exact (hs.step hallowed (step_of_exec hexec)).run h
    · cases h

theorem ReachableBy.mono {allowed allowed' : TrexSystem n → Move n → Prop} {s : TrexSystem n}
    (hall : ∀ s move, allowed s move → allowed' s move) (h : ReachableBy allowed s) :
    ReachableBy allowed' s := by
  induction h with
  | init hinit => exact .init hinit
  | step _ hmove hstep ih => exact .step ih (hall _ _ hmove) hstep

/-! ## 3. The channel between a port and a core -/

/-- What a message asks of a port. -/
def command? (portId : UInt8) : CpToDpMsg → Option (Command Int)
  | .start obj duration eventId =>
    if obj.portId = portId then
      some (.start eventId (obj.allContinues && decide (¬ duration > 0)))
    else none
  | .stop cmd => if cmd.portId = portId then some .stop else none
  | .pause i => if i = portId then some .pause else none
  | .resume i => if i = portId then some .resume else none
  | .update i _ => if i = portId then some .update else none
  | .quit => none

/-- What the state of a data-plane port says about it. -/
def activity : PortState → Activity
  | .ppSTATE_IDLE => .idle
  | .ppSTATE_TRANSMITTING => .running
  | .ppSTATE_PAUSE => .paused

theorem activity_idle {state : PortState} : activity state = .idle ↔ state = .ppSTATE_IDLE := by
  cases state <;> simp [activity]

/-- The port has a node of a burst. -/
def HasBurst (portId : UInt8) (c : TrexStatelessDpCore) : Prop :=
  ∃ p node, c.heap p = some node ∧ node.portId = portId ∧ node.state ≠ .ssFREE_RESUSE
    ∧ node.streamType ≠ .stCONTINUOUS

/-- The runs that a stop of the port is scheduled for. -/
def delayedIds (portId : UInt8) (c : TrexStatelessDpCore) : List Int :=
  (c.commands.filter fun cmd => cmd.portId = portId).map TrexStatelessDpStop.eventId

/-- The runs of a port that events are about. -/
def eventIds (portId : UInt8) (events : List TrexDpPortEventMsg) : List Int :=
  (events.filter fun ev => ev.portId = portId).map TrexDpPortEventMsg.eventId

/-- A port of the control plane, and the same port on one of its cores. -/
def channelOf (portId : UInt8) (port : TrexStatelessPort n) (k : Fin n.toNat)
    (c : TrexStatelessDpCore) (toDp : List CpToDpMsg) (handled : List TrexDpPortEventMsg) :
    Channel Int where
  ring := toDp.filterMap (command? portId)
  worker := activity (c.ports portId).state
  run := (c.ports portId).eventId
  finite := HasBurst portId c
  delayed := delayedIds portId c
  reports := eventIds portId c.ringToCp
  handled := eventIds portId handled
  belief := port.belief
  counter := port.eventIdCounter
  signal := port.stopEvent.signal k

/-- The channel between a port and a core. -/
def channel (s : TrexSystem n) (portId : UInt8) (k : Fin n.toNat) : Channel Int :=
  channelOf portId (s.cp portId) k (s.cores k) (s.toDp k) (s.handled k)

end TrexSystem

end Trex.Proto
