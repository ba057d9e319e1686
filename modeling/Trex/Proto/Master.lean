/-
# The master thread

The events of the data plane are handled by the master thread of the program, which takes them from
the rings of the cores (`check_for_dp_messages`) and holds no lock.  The requests of the users are
served in another thread, under a lock of their own (`m_global_cp_lock`).  So a request can be
served while the master is inside `TrexDpPortEvent::handle_event`, of which `TrexSystem` makes one
step.

Here the master goes through the function statement by statement, and everything else that can
happen, happens in between.  What is left of a handling (`Handling.finish`) does not change while no
request of its port is served.  So a run in which none is, is a run of `TrexSystem` in which the
event was handled in one step when it was taken (`Step.settled`), and what holds there holds here:

* `protocol_safe`: the assertions of the data plane do not fail;
* `stop_event_agreement`: the two planes agree on the ends of runs.

In general neither holds (`stale_event_fails`, `stale_event_ends_run`): an event that passes the
check of its id, and is applied after the port was stopped and started again, ends the new run in
the control plane.
-/
import Trex.Proto.Safety

namespace Trex.Proto

open Trex.Lib Trex.Stream Trex.Cp Trex.Dp TrexStatelessDpCore
open Function (update update_comm update_eq_self update_idem update_of_ne update_self)

/-! ## 1. The function, statement by statement -/

/-- Where the master is in `TrexDpPortEvent::handle_event`. -/
inductive MasterPc
  /-- Before the checks: the event may be disabled, or of another run. -/
  | called
  /-- The checks are passed, and `m_signal` is read next. -/
  | checked
  /-- The thread is marked, or it was before (`double`), and `m_pending_cnt` is read next. -/
  | marked (double : Bool)
  /-- `on_dp_event_occured` has returned, and the event is disabled next. -/
  | occurred
deriving DecidableEq, Repr

/-- An event that is being handled. -/
structure Handling (n : UInt8) where
  threadId : Fin n.toNat
  event : TrexDpPortEventMsg
  pc : MasterPc

namespace Handling

variable {n : UInt8}

/-- The next statement: what becomes of the port, and where the master is then. -/
def next (h : Handling n) (port : TrexStatelessPort n) :
    TrexStatelessPort n × Option (Handling n) :=
  match h.pc with
  | .called =>
    if !port.stopEvent.isActive then (port, none)
    else if h.event.eventId ≠ port.stopEvent.eventId then (port, none)
    else (port, some { h with pc := .checked })
  | .checked =>
    ({ port with stopEvent := port.stopEvent.mark h.threadId },
      some { h with pc := .marked (port.stopEvent.signal h.threadId) })
  | .marked _ =>
    if port.stopEvent.pendingCnt = 0 then
      ({ port with portState := .PORT_STATE_STREAMS }, some { h with pc := .occurred })
    else (port, none)
  | .occurred => ({ port with stopEvent := port.stopEvent.disable }, none)

/-- The end of the function, from `m_pending_cnt` on. -/
def occur (port : TrexStatelessPort n) : TrexStatelessPort n :=
  if port.stopEvent.pendingCnt = 0 then
    { port with stopEvent := port.stopEvent.disable, portState := .PORT_STATE_STREAMS }
  else port

/-- What is left of the function. -/
def finish (h : Handling n) (port : TrexStatelessPort n) : TrexStatelessPort n :=
  match h.pc with
  | .called => port.handleEvent h.threadId h.event.eventId
  | .checked => occur { port with stopEvent := port.stopEvent.mark h.threadId }
  | .marked _ => occur port
  | .occurred => { port with stopEvent := port.stopEvent.disable }

/-- `handle_event` in one step ends as its last statements do. -/
theorem handleEvent_eq (port : TrexStatelessPort n) (threadId : Fin n.toNat) (eventId : Int) :
    port.handleEvent threadId eventId =
      if !port.stopEvent.isActive then port
      else if eventId ≠ port.stopEvent.eventId then port
      else occur { port with stopEvent := port.stopEvent.mark threadId } := by
  simp only [TrexStatelessPort.handleEvent, TrexDpPortEvent.handleEvent, occur]
  by_cases hactive : (!port.stopEvent.isActive) = true
  · simp [hactive]
  · by_cases hid : eventId ≠ port.stopEvent.eventId
    · simp [hactive, hid]
    · by_cases hcnt : (port.stopEvent.mark threadId).pendingCnt = 0
      · simp [hactive, hid, hcnt]
      · simp [hactive, hid, hcnt]

/-- **A statement takes nothing away from what is left.** -/
theorem finish_next (h : Handling n) (port : TrexStatelessPort n) :
    match (h.next port).2 with
    | none => (h.next port).1 = h.finish port
    | some h' => h'.finish (h.next port).1 = h.finish port ∧ h'.event = h.event := by
  obtain ⟨threadId, event, pc⟩ := h
  cases pc with
  | called =>
    simp only [next, finish, handleEvent_eq]
    split_ifs <;> simp
  | checked => simp [next, finish]
  | marked double =>
    simp only [next, finish, occur]
    split_ifs <;> simp
  | occurred => simp [next, finish]

/-- What holds of the port of the event while no request of the port is served: the event that
passed the checks is of the run that the port counts. -/
def At (h : Handling n) (port : TrexStatelessPort n) : Prop :=
  match h.pc with
  | .called => port.Ok
  | .checked => port.Ok ∧ port.belief ≠ .off ∧ h.event.eventId = port.eventIdCounter
  | .marked double =>
    h.event.eventId = port.eventIdCounter ∧ (double = true → port.Ok ∧ port.belief ≠ .off)
  | .occurred => h.event.eventId = port.eventIdCounter

variable {port : TrexStatelessPort n}

/-- **Every statement keeps it.** -/
theorem At.next {h h' : Handling n} (hat : h.At port) (hnext : (h.next port).2 = some h') :
    h'.At (h.next port).1 := by
  obtain ⟨threadId, event, pc⟩ := h
  cases pc with
  | called =>
    have hok : port.Ok := hat
    by_cases hactive : (!port.stopEvent.isActive) = true
    · simp [Handling.next, hactive] at hnext
    · by_cases hid : event.eventId ≠ port.stopEvent.eventId
      · simp [Handling.next, hactive, hid] at hnext
      · simp only [Handling.next, if_neg hactive, if_neg hid, Option.some.injEq] at hnext ⊢
        subst hnext
        have hon : port.belief ≠ .off := by
          intro hoff
          simp [TrexDpPortEvent.isActive, hok.inactive hoff] at hactive
        exact ⟨hok, hon, (not_not.mp hid).trans (hok.active hon).1⟩
  | checked =>
    obtain ⟨hok, hon, hid⟩ := hat
    cases hnext
    refine ⟨hid, fun hdouble => ?_⟩
    -- a double signal changes nothing
    have hsame : port.stopEvent.mark threadId = port.stopEvent := if_pos hdouble
    simp only [Handling.next, hsame]
    exact ⟨hok, hon⟩
  | marked double =>
    obtain ⟨hid, -⟩ := hat
    by_cases hcnt : port.stopEvent.pendingCnt = 0
    · simp only [Handling.next, if_pos hcnt, Option.some.injEq] at hnext ⊢
      subst hnext
      exact hid
    · simp [Handling.next, hcnt] at hnext
  | occurred => cases hnext

/-- The state of the port changes last, and as the whole function changes it. -/
theorem portState_next {h h' : Handling n} (hnext : (h.next port).2 = some h')
    (hleft : (h'.finish (h.next port).1).portState ≠ (h.next port).1.portState) :
    (h.next port).1.portState = port.portState := by
  obtain ⟨threadId, event, pc⟩ := h
  cases pc with
  | called =>
    simp only [next]
    split_ifs <;> rfl
  | checked => rfl
  | marked double =>
    by_cases hcnt : port.stopEvent.pendingCnt = 0
    · simp only [next, if_pos hcnt, Option.some.injEq] at hnext hleft
      subst hnext
      exact absurd rfl hleft
    · simp [next, hcnt]
  | occurred => rfl

theorem portId_finish (h : Handling n) (port : TrexStatelessPort n) :
    (h.finish port).portId = port.portId ∧
        (h.finish port).eventIdCounter = port.eventIdCounter := by
  obtain ⟨threadId, event, pc⟩ := h
  cases pc with
  | called =>
    simp only [finish, handleEvent_eq, occur]
    split_ifs <;> exact ⟨rfl, rfl⟩
  | checked =>
    simp only [finish, occur]
    split_ifs <;> exact ⟨rfl, rfl⟩
  | marked double =>
    simp only [finish, occur]
    split_ifs <;> exact ⟨rfl, rfl⟩
  | occurred => exact ⟨rfl, rfl⟩

end Handling

/-! ## 2. The two planes and the master -/

/-- The two planes, with the event that the master is handling. -/
structure TrexThreads (n : UInt8) where
  system : TrexSystem n
  master : Option (Handling n) := none

/-- What can happen next: the master takes an event from a ring, or goes on with the one that it
has, or something else happens. -/
inductive ThreadMove (n : UInt8)
  | take (core : Fin n.toNat)
  | master
  | other (move : Move n)

namespace TrexThreads

variable {n : UInt8}

/-- `Dequeue`, and `handle_event` is called. -/
def taken (t : TrexThreads n) (k : Fin n.toNat) (ev : TrexDpPortEventMsg)
    (rest : List TrexDpPortEventMsg) : TrexThreads n where
  system := { t.system with
    cores := update t.system.cores k { t.system.cores k with ringToCp := rest }
    handled := update t.system.handled k (t.system.handled k ++ [ev]) }
  master := some ⟨k, ev, .called⟩

/-- The next statement of the master. -/
def advanced (t : TrexThreads n) (h : Handling n) : TrexThreads n where
  system := { t.system with
    cp := update t.system.cp h.event.portId (h.next (t.system.cp h.event.portId)).1 }
  master := (h.next (t.system.cp h.event.portId)).2

/-- The two planes change, and the master is where it is. -/
def moved (t : TrexThreads n) (system : TrexSystem n) : TrexThreads n := { t with system := system }

/-- The moves of `TrexSystem` that can be made now.  `try_stop_all_dp` is called by the master, and
the events are moves of their own. -/
def Free (t : TrexThreads n) : Move n → Prop
  | .request _ _ => True
  | .quit => t.master = none
  | .deliver _ => True
  | .core _ _ => True
  | .event _ => False

/-- **A move.** -/
inductive Step (t : TrexThreads n) : ThreadMove n → TrexThreads n → Prop
  | take {k : Fin n.toNat} {ev : TrexDpPortEventMsg} {rest : List TrexDpPortEventMsg} :
      t.master = none → (t.system.cores k).ringToCp = ev :: rest →
        Step t (.take k) (t.taken k ev rest)
  | master {h : Handling n} : t.master = some h → Step t .master (t.advanced h)
  | other {move : Move n} {system : TrexSystem n} : t.Free move →
      TrexSystem.Step t.system move system →
      Step t (.other move) (t.moved system)

/-- Everything was just created. -/
def Initial (t : TrexThreads n) : Prop := t.system.Initial ∧ t.master = none

/-- **The states that can be reached**, by moves that all meet a condition on the state before. -/
inductive ReachableBy (allowed : TrexThreads n → ThreadMove n → Prop) : TrexThreads n → Prop
  | init {t : TrexThreads n} : t.Initial → ReachableBy allowed t
  | step {t t' : TrexThreads n} {move : ThreadMove n} : ReachableBy allowed t → allowed t move →
      Step t move t' → ReachableBy allowed t'

/-- The states that can be reached. -/
abbrev Reachable (t : TrexThreads n) : Prop := ReachableBy (fun _ _ => True) t

/-- **No request of the port is served while the master is inside `handle_event`.** -/
def RequestsWait (t : TrexThreads n) : ThreadMove n → Prop
  | .other (.request i _) => ∀ h, t.master = some h → h.event.portId ≠ i
  | _ => True

/-! ## 3. Runs -/

instance (t : TrexThreads n) (move : Move n) : Decidable (t.Free move) :=
  match move with
  | .request _ _ => .isTrue trivial
  | .quit => decidable_of_iff (t.master.isNone = true) Option.isNone_iff_eq_none
  | .deliver _ => .isTrue trivial
  | .core _ _ => .isTrue trivial
  | .event _ => .isFalse id

instance (t : TrexThreads n) (move : ThreadMove n) : Decidable (t.RequestsWait move) :=
  match move with
  | .other (.request i _) =>
    decidable_of_iff (t.master.all fun h => h.event.portId != i) (by
      rw [Option.all_eq_true]
      simp only [bne_iff_ne]
      rfl)
  | .other .quit => .isTrue trivial
  | .other (.deliver _) => .isTrue trivial
  | .other (.core _ _) => .isTrue trivial
  | .other (.event _) => .isTrue trivial
  | .take _ => .isTrue trivial
  | .master => .isTrue trivial

/-- A move, if it can be made. -/
def exec (t : TrexThreads n) : ThreadMove n → Option (TrexThreads n)
  | .take k =>
    match t.master, (t.system.cores k).ringToCp with
    | none, ev :: rest => some (t.taken k ev rest)
    | _, _ => none
  | .master => t.master.map t.advanced
  | .other move =>
    if t.Free move then (t.system.exec move).map t.moved else none

/-- Moves, one after the other, as long as they can be made and meet a condition. -/
def run (allowed : TrexThreads n → ThreadMove n → Prop) [∀ t move, Decidable (allowed t move)]
    (t : TrexThreads n) : List (ThreadMove n) → Option (TrexThreads n)
  | [] => some t
  | move :: rest => if allowed t move then (t.exec move).bind fun t' =>
      run allowed t' rest else none

/-- What is executed is a move. -/
theorem step_of_exec {t t' : TrexThreads n} {move : ThreadMove n} (h : t.exec move = some t') :
    Step t move t' := by
  cases move with
  | take k =>
    simp only [exec] at h
    split at h
    · rename_i hnone hring
      cases h
      exact .take hnone hring
    · cases h
  | master =>
    obtain ⟨handling, hsome, rfl⟩ := Option.map_eq_some_iff.mp h
    exact .master hsome
  | other move =>
    simp only [exec] at h
    split at h
    · rename_i hfree
      obtain ⟨system, hexec, rfl⟩ := Option.map_eq_some_iff.mp h
      exact .other hfree (TrexSystem.step_of_exec hexec)
    · cases h

/-- A run reaches its last state. -/
theorem ReachableBy.run {allowed : TrexThreads n → ThreadMove n → Prop}
    [∀ t move, Decidable (allowed t move)] : ∀ {moves : List (ThreadMove n)} {t t' : TrexThreads n},
      ReachableBy allowed t → t.run allowed moves = some t' → ReachableBy allowed t'
  | [], t, t', ht, h => by
    cases h
    exact ht
  | move :: rest, t, t', ht, h => by
    unfold TrexThreads.run at h
    split at h
    · rename_i hallowed
      obtain ⟨t1, hexec, h⟩ := Option.bind_eq_some_iff.mp h
      exact (ht.step hallowed (step_of_exec hexec)).run h
    · cases h

/-! ## 4. The event is handled at once -/

variable {t t' : TrexThreads n} {move : ThreadMove n} {h : Handling n}

/-- The ports, when the master is done with its event. -/
def settledCp (t : TrexThreads n) : UInt8 → TrexStatelessPort n :=
  match t.master with
  | none => t.system.cp
  | some h => update t.system.cp h.event.portId (h.finish (t.system.cp h.event.portId))

/-- The two planes, as if the event had been handled in one step when it was taken. -/
def settled (t : TrexThreads n) : TrexSystem n := { t.system with cp := t.settledCp }

theorem settledCp_none (hm : t.master = none) : t.settledCp = t.system.cp := by
  rw [settledCp, hm]

theorem settledCp_some (hm : t.master = some h) : t.settledCp =
    update t.system.cp h.event.portId (h.finish (t.system.cp h.event.portId)) := by
  rw [settledCp, hm]

theorem settled_none (hm : t.master = none) : t.settled = t.system := by
  rw [settled, settledCp_none hm]

variable {i : UInt8} {system : TrexSystem n} {port : TrexStatelessPort n}

/-- The ports that the master is not at are as they are. -/
theorem settledCp_of_ne (hi : ∀ h, t.master = some h → h.event.portId ≠ i) :
    t.settledCp i = t.system.cp i := by
  cases hm : t.master with
  | none => rw [settledCp_none hm]
  | some h => rw [settledCp_some hm, update_of_ne (hi h hm).symm]

/-- What is left of the event does not change the counter of its port. -/
theorem settledCp_counter (t : TrexThreads n) (i : UInt8) :
    (t.settledCp i).eventIdCounter = (t.system.cp i).eventIdCounter := by
  cases hm : t.master with
  | none => rw [settledCp_none hm]
  | some h =>
    rw [settledCp_some hm]
    by_cases hi : i = h.event.portId
    · subst hi
      rw [update_self]
      exact (h.portId_finish _).2
    · rw [update_of_ne hi]

/-- Another port changes. -/
theorem settled_replied {reply : Reply n} (hi : ∀ h, t.master = some h → h.event.portId ≠ i) :
    (t.moved (t.system.replied i reply)).settled = t.settled.replied i reply := by
  obtain ⟨system, master⟩ := t
  cases master with
  | none => rfl
  | some h =>
    have hne : i ≠ h.event.portId := (hi h rfl).symm
    have hport : (system.replied i reply).cp h.event.portId = system.cp h.event.portId :=
      update_of_ne hne.symm _ _
    simp only [settled, settledCp, moved, hport]
    simp only [TrexSystem.replied, update_comm hne]

/-- The event is handled when it is taken. -/
theorem settled_taken (k : Fin n.toNat) (ev : TrexDpPortEventMsg) (rest : List TrexDpPortEventMsg) :
    (t.taken k ev rest).settled = t.system.handleEvent k ev rest := by
  rw [settled, settledCp_some rfl]
  rfl

/-- The statements of the master change nothing. -/
theorem settled_advanced (hm : t.master = some h) : (t.advanced h).settled = t.settled := by
  have hnext := h.finish_next (t.system.cp h.event.portId)
  have hcp : (t.advanced h).settledCp = t.settledCp := by
    rw [settledCp_some hm]
    cases hpc : (h.next (t.system.cp h.event.portId)).2 with
    | none =>
      rw [settledCp_none hpc]
      rw [hpc] at hnext
      exact congrArg (update t.system.cp h.event.portId) hnext
    | some h' =>
      rw [settledCp_some hpc]
      rw [hpc] at hnext
      obtain ⟨hfinish, hevent⟩ := hnext
      rw [hevent]
      simp only [advanced, update_self, update_idem]
      rw [hfinish]
  simp only [settled, hcp]
  rfl

/-- What else happens is a move of the two planes. -/
theorem other_settled {move : Move n} (hfree : t.Free move)
    (hsys : TrexSystem.Step t.system move system) (hwait : t.RequestsWait (.other move)) :
    ∃ move', TrexSystem.Step t.settled move' (t.moved system).settled := by
  cases hsys with
  | request hport hadm hreply =>
    rename_i i request reply
    have hi : ∀ h, t.master = some h → h.event.portId ≠ i := hwait
    have hcp : t.settled.cp i = t.system.cp i := settledCp_of_ne hi
    refine ⟨.request i request, ?_⟩
    rw [settled_replied hi]
    exact .request hport (hcp.symm ▸ hadm) (hcp.symm ▸ hreply)
  | quit =>
    have hquit : (t.moved t.system.tryStopAllDp).settled = t.system.tryStopAllDp :=
      settled_none hfree
    refine ⟨.quit, ?_⟩
    rw [settled_none hfree, hquit]
    exact .quit
  | deliver hring hen hc => exact ⟨_, .deliver hring hen hc⟩
  | core ha hen hc => exact ⟨_, .core ha hen hc⟩
  | event hring => exact hfree.elim

/-- **A move is a move of the two planes**, when the events are handled in one step, or it is
none. -/
theorem Step.settled (hstep : Step t move t') (hwait : t.RequestsWait move) :
    t'.settled = t.settled ∨ ∃ move', TrexSystem.Step t.settled move' t'.settled := by
  cases hstep with
  | take hnone hring =>
    rename_i k ev rest
    refine .inr ⟨.event k, ?_⟩
    rw [settled_taken, settled_none hnone]
    exact .event hring
  | master hm => exact .inl (settled_advanced hm)
  | other hfree hsys => exact .inr (other_settled hfree hsys hwait)

/-! ## 5. The invariant -/

/-- **The invariant.**  The two planes are as they should be when the master is done, the master has
passed the checks only with an event of the run that its port counts, and it takes the port out of
the run only if the run is over. -/
structure Ok (t : TrexThreads n) : Prop where
  settled : t.settled.Ok
  handling : ∀ h, t.master = some h → h.At (t.system.cp h.event.portId)
  ends : ∀ h, t.master = some h →
    (h.finish (t.system.cp h.event.portId)).portState ≠ (t.system.cp h.event.portId).portState →
      (h.finish (t.system.cp h.event.portId)).portState = .PORT_STATE_STREAMS
        ∧ t.settled.Over h.event.portId

/-- What is not a request of a port, nor an event, leaves the port and the events that were
handled. -/
theorem step_frame {s s' : TrexSystem n} {move : Move n} (hstep : TrexSystem.Step s move s')
    (hevent : ∀ k, move ≠ .event k) (hi : ∀ request, move ≠ .request i request) :
    s'.cp i = s.cp i ∧ s'.handled = s.handled := by
  cases hstep with
  | request =>
    rename_i portId request reply _ _ _
    have hne : i ≠ portId := fun heq => hi request (by rw [heq])
    exact ⟨update_of_ne hne _ _, rfl⟩
  | quit => exact ⟨rfl, rfl⟩
  | deliver => exact ⟨rfl, rfl⟩
  | core => exact ⟨rfl, rfl⟩
  | event => exact absurd rfl (hevent _)

/-- The master takes an event. -/
theorem Ok.taken (hok : t.Ok) (hnone : t.master = none) {k : Fin n.toNat} {ev : TrexDpPortEventMsg}
    {rest : List TrexDpPortEventMsg} (hring : (t.system.cores k).ringToCp = ev :: rest)
    (hsettled : (t.taken k ev rest).settled.Ok) : (t.taken k ev rest).Ok := by
  have hsys : t.system.Ok := settled_none hnone ▸ hok.settled
  refine ⟨hsettled, ?_, ?_⟩
  · rintro h ⟨⟩
    exact hsys.port ev.portId
  · rintro h ⟨⟩ hchange
    have hport : (t.system.handleEvent k ev rest).cp ev.portId
        = (t.system.cp ev.portId).handleEvent k ev.eventId := update_self _ _ _
    obtain ⟨hstate, -, hover⟩ := hsys.finished hring (by rw [hport]; exact hchange)
    rw [hport] at hstate
    exact ⟨hstate, hover⟩

/-- The master goes on. -/
theorem Ok.advanced (hok : t.Ok) (hm : t.master = some h) (hsettled : (t.advanced h).settled.Ok)
    (hsame : (t.advanced h).settled = t.settled) : (t.advanced h).Ok := by
  have hnext := h.finish_next (t.system.cp h.event.portId)
  have hport : (t.advanced h).system.cp h.event.portId = (h.next (t.system.cp h.event.portId)).1 :=
    update_self _ _ _
  refine ⟨hsettled, fun h' hm' => ?_, fun h' hm' hchange => ?_⟩
  · have hpc : (h.next (t.system.cp h.event.portId)).2 = some h' := hm'
    rw [hpc] at hnext
    rw [hnext.2, hport]
    exact (hok.handling h hm).next hpc
  · have hpc : (h.next (t.system.cp h.event.portId)).2 = some h' := hm'
    rw [hpc] at hnext
    obtain ⟨hfinish, hevent⟩ := hnext
    rw [hevent, hport] at hchange ⊢
    have hstate := Handling.portState_next hpc hchange
    rw [hfinish, hsame]
    rw [hfinish, hstate] at hchange
    exact hok.ends h hm hchange

/-- Something else happens. -/
theorem Ok.other (hok : t.Ok) {move : Move n} (hfree : t.Free move)
    (hsys : TrexSystem.Step t.system move system) (hwait : t.RequestsWait (.other move))
    (hmove : ∃ move', TrexSystem.Step t.settled move' (t.moved system).settled)
    (hsettled : (t.moved system).settled.Ok) : (t.moved system).Ok := by
  have hframe : ∀ h, t.master = some h → system.cp h.event.portId = t.system.cp h.event.portId
      ∧ system.handled = t.system.handled := by
    intro h hm
    refine step_frame hsys (fun k hk => ?_) fun request hr => ?_
    · rw [hk] at hfree
      exact hfree
    · rw [hr] at hwait
      exact hwait h hm rfl
  refine ⟨hsettled, fun h hm => ?_, fun h hm hchange => ?_⟩
  · exact (hframe h hm).1 ▸ hok.handling h hm
  · obtain ⟨hcp, hhandled⟩ := hframe h hm
    have hport : (t.moved system).system.cp h.event.portId = t.system.cp h.event.portId := hcp
    rw [hport] at hchange ⊢
    obtain ⟨hstate, hover⟩ := hok.ends h hm hchange
    obtain ⟨move', hstep'⟩ := hmove
    refine ⟨hstate, hover.step hok.settled hstep' ?_ fun core => ?_⟩
    · exact ((t.moved system).settledCp_counter h.event.portId).trans
        ((congrArg _ hcp).trans (t.settledCp_counter h.event.portId).symm)
    · exact (congrFun hhandled core).symm ▸ List.Subset.refl _

/-- **Every move keeps the invariant**, if the requests of the port wait. -/
theorem Step.ok (hstep : Step t move t') (hwait : t.RequestsWait move) (hok : t.Ok) : t'.Ok := by
  have hmove := hstep.settled hwait
  have hsettled : t'.settled.Ok := by
    rcases hmove with heq | ⟨move', hstep'⟩
    · exact heq ▸ hok.settled
    · exact hstep'.ok hok.settled
  cases hstep with
  | take hnone hring => exact hok.taken hnone hring hsettled
  | master hm => exact hok.advanced hm hsettled (settled_advanced hm)
  | other hfree hsys => exact hok.other hfree hsys hwait (other_settled hfree hsys hwait) hsettled

theorem Initial.ok (hinit : t.Initial) : t.Ok := by
  obtain ⟨hsys, hnone⟩ := hinit
  refine ⟨settled_none hnone ▸ hsys.ok, fun h hm => ?_, fun h hm => ?_⟩
  · rw [hnone] at hm
    cases hm
  · rw [hnone] at hm
    cases hm

/-- **The invariant holds in every state that is reached**, if the requests of the port wait. -/
theorem ReachableBy.ok (hreach : t.ReachableBy RequestsWait) : t.Ok := by
  induction hreach with
  | init hinit => exact hinit.ok
  | step _ hwait hstep ih => exact hstep.ok hwait ih

/-! ## 6. What holds between the planes -/

/-- **The protocol is safe** while the requests of a port wait for the master.  For any number of
cores, in every state that is reached by requests that were accepted, messages in the order in which
they were sent, steps of the cores and statements of the master, in any order: the next message of
every core finds its port as the assertions expect it, and no assertion of `start_traffic`,
`pause_traffic` and `resume_traffic` fails in any move. -/
theorem protocol_safe (n : UInt8) (t : TrexThreads n) (hreach : t.ReachableBy RequestsWait) :
    (∀ k m rest, t.system.toDp k = m :: rest → TrexSystem.Ready (t.system.cores k) m)
      ∧ ∀ move fault, TrexSystem.Fails t.system move fault → fault ∉ TrexSystem.protocolFaults := by
  have hok := hreach.ok.settled
  refine ⟨fun k m rest hring => hok.ready hring, fun move fault hfail => ?_⟩
  -- the planes differ from those of `settled` in the ports of the control plane only
  have hfail' : TrexSystem.Fails t.settled move fault := by
    cases hfail with
    | deliver hring hen herr => exact .deliver hring hen herr
    | core ha hen herr => exact .core ha hen herr
  exact hok.not_protocol hfail'

/-- A pair of ports with one core and the master, as they are created. -/
def freshThreads : TrexThreads 1 := { system := TrexSystem.freshSystem }

theorem freshThreads_initial : freshThreads.Initial := ⟨TrexSystem.freshSystem_initial, rfl⟩

open TrexSystem (onlyCore burstStream)

/-- A burst is started and ends, and the core has reported the end. -/
def burstMoves : List (ThreadMove 1) :=
  [.other (.request 0 (.addStream burstStream)),
    .other (.request 0 (.start (fun _ _ => 0) [burstStream] 1 0)), .other (.deliver onlyCore),
    .other (.core onlyCore .leaveIdle), .other (.core onlyCore (.pop 1))]

/-- The master handles the report, and the burst is started again. -/
def handledMoves : List (ThreadMove 1) :=
  burstMoves ++ [.take onlyCore, .master, .master, .master, .master,
    .other (.request 0 (.start (fun _ _ => 0) [burstStream] 1 0))]

/-- The id of the run that a message starts. -/
def startedId : CpToDpMsg → Option Int
  | .start _ _ eventId => some eventId
  | _ => none

theorem protocol_safe_again : ∃ t, freshThreads.run RequestsWait handledMoves = some t
    ∧ ∃ m, t.system.toDp onlyCore = [m] ∧ startedId m = some 1
      ∧ TrexSystem.Ready (t.system.cores onlyCore) m := by
  have hrun : (freshThreads.run RequestsWait handledMoves).map
      (fun t => (t.system.toDp onlyCore).map startedId) = some [some 1] := by decide +kernel
  obtain ⟨t, ht, hring⟩ := Option.map_eq_some_iff.mp hrun
  obtain ⟨m, hm, hid⟩ := List.map_eq_singleton_iff.mp hring
  have hreach : t.ReachableBy RequestsWait := (ReachableBy.init freshThreads_initial).run ht
  exact ⟨t, ht, m, hm, hid, (protocol_safe 1 t hreach).1 onlyCore m [] hm⟩

/-- The event is taken, and passes the checks; then the port is stopped and started again, and the
master goes on: the new run is over for the control plane, and the burst is started a third time.
The core takes the stop and the second start. -/
def staleMoves : List (ThreadMove 1) :=
  burstMoves ++ [.take onlyCore, .master, .other (.request 0 .stop),
    .other (.request 0 (.start (fun _ _ => 0) [burstStream] 1 0)), .master, .master, .master,
    .other (.request 0 (.start (fun _ _ => 0) [burstStream] 1 0)), .other (.core onlyCore (.pop 0)),
    .other (.deliver onlyCore), .other (.deliver onlyCore)]

/-- What the core makes of the next message. -/
def nextFault (c : TrexStatelessDpCore) : List CpToDpMsg → Option Fault
  | [] => none
  | m :: _ =>
    if c.Enabled (.msg m) then
      match c.step (.msg m) with
      | .ok _ => none
      | .error fault => some fault
    else none

theorem fails_of_nextFault {s : TrexSystem n} {k : Fin n.toNat} {fault : Fault}
    (hfault : nextFault (s.cores k) (s.toDp k) = some fault) :
    TrexSystem.Fails s (.deliver k) fault := by
  cases hring : s.toDp k with
  | nil =>
    rw [hring] at hfault
    cases hfault
  | cons m rest =>
    rw [hring] at hfault
    simp only [nextFault] at hfault
    split at hfault
    · rename_i hen
      split at hfault
      · cases hfault
      · rename_i fault' herr
        cases hfault
        exact .deliver hring hen herr
    · cases hfault

/-- **A stale event makes an assertion fail**: the third start finds the port in the second run. -/
theorem stale_event_fails : ¬ ∀ (n : UInt8) (t : TrexThreads n), t.Reachable →
    (∀ k m rest, t.system.toDp k = m :: rest → TrexSystem.Ready (t.system.cores k) m)
      ∧ ∀ move fault, TrexSystem.Fails t.system move fault → fault ∉ TrexSystem.protocolFaults := by
  intro hsafe
  have hrun : (freshThreads.run (fun _ _ => True) staleMoves).bind
      (fun t => nextFault (t.system.cores onlyCore) (t.system.toDp onlyCore)) =
          some .startNodes := by
    decide +kernel
  obtain ⟨t, ht, hfault⟩ := Option.bind_eq_some_iff.mp hrun
  have hreach : t.Reachable := (ReachableBy.init freshThreads_initial).run ht
  exact (hsafe 1 t hreach).2 _ _ (fails_of_nextFault hfault) (by decide)

/-! ## 7. The stop events -/

/-- The event is of an earlier run, or its thread has signalled before. -/
def Handling.Old (h : Handling n) (port : TrexStatelessPort n) : Prop :=
  h.event.eventId ≠ port.eventIdCounter ∨ h.pc = .marked true
    ∨ h.pc = .checked ∧ port.stopEvent.signal h.threadId = true

/-- **What the two planes agree on about the ends of runs.** -/
structure Agreed (t : TrexThreads n) : Prop where
  /-- The master takes a port out of its run only when every core has ended this run, has no other
  start on its way, and has reported the end with the id of the run. -/
  finished : ∀ h t', t.master = some h → Step t .master t' →
    (t'.system.cp h.event.portId).portState ≠ (t.system.cp h.event.portId).portState →
    (t'.system.cp h.event.portId).portState = .PORT_STATE_STREAMS
      ∧ h.event.eventId = (t.system.cp h.event.portId).eventIdCounter
      ∧ ∀ core, ((t.system.cores core).ports h.event.portId).state = .ppSTATE_IDLE
        ∧ ((t.system.cores core).ports h.event.portId).eventId
          = (t.system.cp h.event.portId).eventIdCounter
        ∧ (∀ m ∈ t.system.toDp core, ¬ TrexSystem.StartsPort h.event.portId m)
        ∧ ⟨h.event.portId, (t.system.cp h.event.portId).eventIdCounter⟩ ∈ t.system.handled core
  /-- An event of an earlier run, and one of a core that has reported the end before, change
  nothing. -/
  ignored : ∀ h t', t.master = some h → Step t .master t' →
    Handling.Old h (t.system.cp h.event.portId) → t'.system.cp = t.system.cp
  /-- A delayed stop of another run than the one that the port has changes no port. -/
  delayed : ∀ k j time cmd c, (t.system.cores k).queue[j]? = some (.command time cmd) →
    cmd.eventId ≠ ((t.system.cores k).ports cmd.portId).eventId →
    (t.system.cores k).step (.pop j) = .ok c → c.ports = (t.system.cores k).ports
  /-- When a core starts a run, its delayed stops and its events of the port are all of earlier
  runs. -/
  fresh : ∀ k obj duration eventId rest, t.system.toDp k = .start obj duration eventId :: rest →
    (∀ cmd ∈ (t.system.cores k).commands, cmd.portId = obj.portId → cmd.eventId < eventId)
      ∧ ∀ ev ∈ (t.system.cores k).ringToCp, ev.portId = obj.portId → ev.eventId < eventId
  /-- The control plane gives no id twice: those that are about are not larger than its counter. -/
  bounded : ∀ k,
    (∀ ev ∈ (t.system.cores k).ringToCp, ev.eventId ≤ (t.system.cp ev.portId).eventIdCounter)
      ∧ ∀ cmd ∈ (t.system.cores k).commands, cmd.eventId ≤ (t.system.cp cmd.portId).eventIdCounter

/-- The port, when the master has made a statement. -/
theorem advanced_cp (t : TrexThreads n) (h : Handling n) :
    (t.advanced h).system.cp h.event.portId = (h.next (t.system.cp h.event.portId)).1 :=
  update_self _ _ _

/-- A statement that changes the state of the port is the one at which the run is over. -/
theorem Handling.finish_of_change (hchange : (h.next port).1.portState ≠ port.portState) :
    ∃ double, h.pc = .marked double ∧ (h.next port).1.portState = .PORT_STATE_STREAMS
      ∧ (h.finish port).portState = (h.next port).1.portState := by
  obtain ⟨threadId, event, pc⟩ := h
  cases pc with
  | called =>
    refine absurd ?_ hchange
    simp only [Handling.next]
    split_ifs <;> rfl
  | checked => exact absurd rfl hchange
  | marked double =>
    refine ⟨double, rfl, ?_⟩
    by_cases hcnt : port.stopEvent.pendingCnt = 0
    · simp [Handling.next, Handling.finish, Handling.occur, hcnt]
    · simp [Handling.next, hcnt] at hchange
  | occurred => exact absurd rfl hchange

/-- An old event changes nothing. -/
theorem Handling.next_of_old (hat : h.At port) (hold : Handling.Old h port) :
    (h.next port).1 = port := by
  obtain ⟨threadId, event, pc⟩ := h
  cases pc with
  | called =>
    simp only [Handling.next]
    split_ifs <;> rfl
  | checked =>
    obtain ⟨-, -, hid⟩ := hat
    rcases hold with hne | hpc | ⟨-, hsignal⟩
    · exact absurd hid hne
    · cases hpc
    · have hsame : port.stopEvent.mark threadId = port.stopEvent := if_pos hsignal
      simp only [Handling.next, hsame]
  | marked double =>
    obtain ⟨hid, hdouble⟩ := hat
    rcases hold with hne | hpc | ⟨hpc, -⟩
    · exact absurd hid hne
    · -- the port still waits for some core
      obtain ⟨hok, hon⟩ := hdouble (by simpa using hpc)
      obtain ⟨-, -, hpending, hpos⟩ := hok.active hon
      have hcnt : port.stopEvent.pendingCnt ≠ 0 := by omega
      simp [Handling.next, hcnt]
    · cases hpc
  | occurred =>
    rcases hold with hne | hpc | ⟨hpc, -⟩
    · exact absurd hat hne
    · cases hpc
    · cases hpc

theorem Ok.finished (hok : t.Ok) (hm : t.master = some h)
    (hchange : ((t.advanced h).system.cp h.event.portId).portState
      ≠ (t.system.cp h.event.portId).portState) :
    ((t.advanced h).system.cp h.event.portId).portState = .PORT_STATE_STREAMS
      ∧ h.event.eventId = (t.system.cp h.event.portId).eventIdCounter
      ∧ t.settled.Over h.event.portId := by
  rw [advanced_cp] at hchange ⊢
  obtain ⟨double, hpc, hstreams, hfinish⟩ := Handling.finish_of_change hchange
  have hat := hok.handling h hm
  rw [Handling.At, hpc] at hat
  exact ⟨hstreams, hat.1, (hok.ends h hm (hfinish ▸ hchange)).2⟩

/-- **The two planes agree on the ends of runs** while the requests of a port wait for the master,
in every state that is reached.  Every move that waits keeps `Ok`, and the clauses are read off from
it. -/
theorem stop_event_agreement (n : UInt8) (t : TrexThreads n) (hreach : t.ReachableBy RequestsWait) :
    t.Agreed := by
  have hok := hreach.ok
  have hsame : ∀ i, (t.settled.cp i).eventIdCounter = (t.system.cp i).eventIdCounter :=
    t.settledCp_counter
  refine ⟨fun h t' hm hstep hchange => ?_, fun h t' hm hstep hold =>
    ?_, fun k j time cmd c hj hother hstep => ?_,
    fun k obj duration eventId rest hring => ?_, fun k => ?_⟩
  · obtain rfl : t' = t.advanced h := by
      cases hstep with
      | master hm' => rw [Option.some.inj (hm.symm.trans hm')]
    obtain ⟨hstreams, hid, hover⟩ := hok.finished hm hchange
    refine ⟨hstreams, hid, fun core => ?_⟩
    obtain ⟨hidle, hrun, hno⟩ := hover.core core
    have hreport := (hover core).2
    rw [hsame] at hrun hreport
    exact ⟨hidle, hrun, hno, hreport⟩
  · obtain rfl : t' = t.advanced h := by
      cases hstep with
      | master hm' => rw [Option.some.inj (hm.symm.trans hm')]
    change update t.system.cp h.event.portId _ = t.system.cp
    rw [Handling.next_of_old (hok.handling h hm) hold, update_eq_self]
  · exact TrexSystem.popCommand_ports (hok.settled.core k).conditional hj hother hstep
  · exact hok.settled.fresh hring
  · have hbounded := hok.settled.bounded (k := k)
    simp only [hsame] at hbounded
    exact hbounded

/-- The master has taken the report of the first run, which the port was stopped and started
after. -/
def restartMoves : List (ThreadMove 1) :=
  burstMoves ++ [.other (.request 0 .stop),
    .other (.request 0 (.start (fun _ _ => 0) [burstStream] 1 0)), .take onlyCore]

theorem stop_event_agreement_restart : ∃ t, freshThreads.run RequestsWait restartMoves = some t
    ∧ t.master = some ⟨onlyCore, ⟨0, 0⟩, .called⟩ ∧ (t.system.cp 0).eventIdCounter = 1
    ∧ (t.advanced ⟨onlyCore, ⟨0, 0⟩, .called⟩).system.cp = t.system.cp := by
  have hrun : (freshThreads.run RequestsWait restartMoves).map (fun t =>
      (t.master.map fun h => (h.threadId, h.event, h.pc), (t.system.cp 0).eventIdCounter))
      = some (some (onlyCore, ⟨0, 0⟩, .called), 1) := by decide +kernel
  obtain ⟨t, ht, heq⟩ := Option.map_eq_some_iff.mp hrun
  obtain ⟨hmaster, hcounter⟩ := Prod.mk.inj heq
  have hm : t.master = some ⟨onlyCore, ⟨0, 0⟩, .called⟩ := by
    obtain ⟨⟨threadId, event, pc⟩, hm, heq⟩ := Option.map_eq_some_iff.mp hmaster
    obtain ⟨rfl, heq⟩ := Prod.mk.inj heq
    obtain ⟨rfl, rfl⟩ := Prod.mk.inj heq
    exact hm
  have hreach : t.ReachableBy RequestsWait := (ReachableBy.init freshThreads_initial).run ht
  refine ⟨t, ht, hm, hcounter, ?_⟩
  refine (stop_event_agreement 1 t hreach).ignored _ _ hm (.master hm) (.inl ?_)
  rw [hcounter]
  decide

/-- The run of `stale_event_fails`, up to where the master has marked the thread. -/
def markedMoves : List (ThreadMove 1) :=
  burstMoves ++ [.take onlyCore, .master, .other (.request 0 .stop),
    .other (.request 0 (.start (fun _ _ => 0) [burstStream] 1 0)), .master]

/-- **A stale event ends a later run** in the control plane, before the core has started it. -/
theorem stale_event_ends_run :
    ¬ ∀ (n : UInt8) (t : TrexThreads n), t.Reachable → t.Agreed := by
  intro hagreed
  have hrun : (freshThreads.run (fun _ _ => True) markedMoves).map (fun t =>
      ((t.master.map fun h => (h.threadId, h.event, h.pc)),
        (t.system.cp 0).portState, (t.system.cp 0).eventIdCounter,
          (t.system.cp 0).stopEvent.pendingCnt))
      = some (some (onlyCore, ⟨0, 0⟩, .marked false), .PORT_STATE_TX, 1, 0) := by decide +kernel
  obtain ⟨t, ht, heq⟩ := Option.map_eq_some_iff.mp hrun
  obtain ⟨hmaster, heq⟩ := Prod.mk.inj heq
  obtain ⟨hstate, heq⟩ := Prod.mk.inj heq
  obtain ⟨hcounter, hpending⟩ := Prod.mk.inj heq
  obtain ⟨⟨threadId, event, pc⟩, hm, heq⟩ := Option.map_eq_some_iff.mp hmaster
  obtain ⟨-, heq⟩ := Prod.mk.inj heq
  obtain ⟨rfl, rfl⟩ := Prod.mk.inj heq
  have hreach : t.Reachable := (ReachableBy.init freshThreads_initial).run ht
  have hfinished := (hagreed 1 t hreach).finished _ _ hm (.master hm) (by
    rw [advanced_cp, hstate]
    simp [Handling.next, hpending])
  have hid := hfinished.2.1
  rw [hcounter] at hid
  cases hid

end TrexThreads

end Trex.Proto
