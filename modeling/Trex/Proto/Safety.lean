/-
# What holds between the two planes

What the invariant of the two planes (`Ok`) says about the next move, when an event is handled in
one step:

* a start, a pause and a resume find the data-plane port as their assertions expect it (`Ok.ready`,
  `Ok.not_protocol`);
* the control plane takes a run for ended only when every core has ended it (`Ok.finished`), the run
  stays over until the next request (`Over.step`), and nothing that is left of an earlier run ends a
  later one (`popCommand_ports`, `Ok.fresh`, `Ok.bounded`).

`Trex.Proto.Master` carries this over to the program, where an event is handled in several steps.
-/
import Trex.Proto.Simulate

namespace Trex.Proto

open Trex.Lib Trex.Stream Trex.Cp Trex.Dp TrexStatelessDpCore List

namespace TrexSystem

variable {n : UInt8} {s : TrexSystem n} {k : Fin n.toNat}

/-! ## 1. What a message finds -/

/-- The data-plane port of a message is as the assertions of its handler expect it. -/
def Ready (c : TrexStatelessDpCore) : CpToDpMsg → Prop
  | .start obj _ _ => (c.ports obj.portId).state = .ppSTATE_IDLE
      ∧ (c.ports obj.portId).activeNodes = []
  | .pause i => (c.ports i).state = .ppSTATE_TRANSMITTING
      ∧ ∀ p ∈ (c.ports i).activeNodes, ∃ node, c.heap p = some node ∧ node.pause = false
  | .resume i => (c.ports i).state = .ppSTATE_PAUSE
      ∧ ∀ p ∈ (c.ports i).activeNodes, ∃ node, c.heap p = some node ∧ node.pause = true
  | .stop _ => True
  | .update _ _ => True
  | .quit => True

/-- The assertions of `start_traffic`, `pause_traffic` and `resume_traffic`, and of the functions
that they call. -/
def protocolFaults : List Fault :=
  [.getPortDb, .startNodes, .startPortId, .startSize, .startNext, .nodePortId, .pauseState,
    .pauseNode, .resumeState, .resumeNode]

variable {m : CpToDpMsg} {rest : List CpToDpMsg} {i : UInt8} {c : TrexStatelessDpCore}
  {fault : Fault}

/-- The first message in a ring is the first command of the channel of its port. -/
theorem ring_of_toDp {cmd : Command Int} (hring : s.toDp k = m :: rest)
    (hcmd : command? i m = some cmd) :
    (s.channel i k).ring = cmd :: rest.filterMap (command? i) := by
  unfold channel
  rw [hring]
  exact ring_cons hcmd

/-- The pause flags of the nodes of a port follow its state. -/
theorem pause_of_mode {pause : Bool} (hinv : c.Inv)
    (hmode : ∀ b, modeOk (c.ports i).state b → b = pause) :
    ∀ p ∈ (c.ports i).activeNodes, ∃ node, c.heap p = some node ∧ node.pause = pause := by
  intro p hp
  obtain ⟨node, hheap, rfl, hfree⟩ := hinv.of_mem_nodes hp
  exact ⟨node, hheap, hmode _ (hinv.mode p node hheap hfree)⟩

theorem Ok.ready (h : s.Ok) (hring : s.toDp k = m :: rest) :
    Ready (s.cores k) m := by
  have hinv := (h.core k).inv
  cases m with
  | start obj duration eventId =>
    have hcmd := ring_of_toDp hring (if_pos (rfl : obj.portId = obj.portId))
    have hidle := activity_idle.mp ((h.channel obj.portId k).idle_of_start hcmd).1
    exact ⟨hidle, hinv.idle_nodes hidle⟩
  | pause i =>
    have hcmd := ring_of_toDp hring (if_pos (rfl : i = i))
    have hrun : activity ((s.cores k).ports i).state = .running :=
      ((h.channel i k).running_of_pause hcmd).1
    have hstate : ((s.cores k).ports i).state = .ppSTATE_TRANSMITTING := by
      revert hrun
      cases ((s.cores k).ports i).state <;> simp [activity]
    refine ⟨hstate, pause_of_mode hinv fun b hb => ?_⟩
    rw [hstate] at hb
    exact hb
  | resume i =>
    have hcmd := ring_of_toDp hring (if_pos (rfl : i = i))
    have hpaused : activity ((s.cores k).ports i).state = .paused :=
      ((h.channel i k).paused_of_resume hcmd).1
    have hstate : ((s.cores k).ports i).state = .ppSTATE_PAUSE := by
      revert hpaused
      cases ((s.cores k).ports i).state <;> simp [activity]
    refine ⟨hstate, pause_of_mode hinv fun b hb => ?_⟩
    rw [hstate] at hb
    exact hb
  | stop cmd => trivial
  | update i factor => trivial
  | quit => trivial

theorem StepFault.not_protocol {a : Act} (h : c.StepFault a fault) (ha : a.internal) :
    fault ∉ protocolFaults := by
  cases a with
  | msg m => exact ha.elim
  | leaveIdle => exact h.elim
  | pop j =>
    obtain rfl := h
    decide
  | endSync => exact h.elim

/-- **A message that the control plane sent fails none of the assertions**, if the port is as they
expect it. -/
theorem not_protocol_of_ready {localPortOffset : UInt8} (hoff : c.localPortOffset = localPortOffset)
    (hm : MsgOk localPortOffset m) (hready : Ready c m) (h : c.StepFault (.msg m) fault) :
    fault ∉ protocolFaults := by
  subst hoff
  cases m with
  | start obj duration eventId =>
    obtain ⟨hobj, hport⟩ := hm
    rcases h with ⟨-, hno⟩ | ⟨-, hnodes⟩ | ⟨-, stream, hs, hne⟩ | ⟨-, stream, hs, hdp, hlen⟩
    · exact absurd hport hno
    · exact absurd hready.2 hnodes
    · exact absurd (hobj.streams stream hs) hne
    · have hlt := hobj.links stream hs hdp
      have hpos := (isDpNextStream_iff stream).mp hdp
      omega
  | stop cmd => exact absurd hm.2 h.2
  | pause i =>
    rcases h with ⟨-, hno⟩ | ⟨-, hstate⟩
    · exact absurd hm hno
    · exact absurd hready.1 hstate
  | resume i =>
    rcases h with ⟨-, hno⟩ | ⟨-, hstate⟩
    · exact absurd hm hno
    · exact absurd hready.1 hstate
  | update i factor =>
    rcases h with ⟨-, hno⟩ | ⟨rfl, -⟩
    · exact absurd hm hno
    · decide
  | quit => exact h.elim

/-- **No assertion of the protocol fails**, in any move of a state with the invariant. -/
theorem Ok.not_protocol (h : s.Ok) {move : Move n} (hfail : Fails s move fault) :
    fault ∉ protocolFaults := by
  cases hfail with
  | deliver hring hen herr =>
    rename_i k m rest
    have hcore := h.core k
    have hfault := (step_post hcore.inv hcore.count hen).fault herr
    exact not_protocol_of_ready hcore.offset (h.message k m (hring ▸ mem_cons_self))
      (h.ready hring) hfault
  | core ha hen herr =>
    rename_i k a
    have hcore := h.core k
    exact StepFault.not_protocol ((step_post hcore.inv hcore.count hen).fault herr) ha

/-! ## 2. A run -/

/-- A pair of ports with one core, as they are created. -/
def freshSystem : TrexSystem 1 :=
  { localPortOffset := 0
    cp := fun i => ⟨i, .PORT_STATE_IDLE, [], false, 0, 0, -1, ⟨fun _ => false, 0, -1⟩⟩
    cores := fun _ => freshCore
    toDp := fun _ => []
    handled := fun _ => [] }

theorem freshSystem_initial : freshSystem.Initial :=
  ⟨fun _ => ⟨rfl, rfl, rfl, rfl, rfl⟩, fun _ => ⟨freshCore_initial, rfl⟩, fun _ => rfl, fun _ =>
    rfl⟩

/-- The only core. -/
def onlyCore : Fin (1 : UInt8).toNat := ⟨0, by decide⟩

/-- A stream that is sent as long as the port transmits. -/
def continuousStream : TrexStream :=
  ⟨.stCONTINUOUS, 0, 0, 0, -1, true, true, {}, none, ⟨[], 0⟩, 1, 0, 1, 0⟩

/-- A continuous stream is started, and paused before the core has seen the start. -/
def pauseMoves : List (Move 1) :=
  [.request 0 (.addStream continuousStream),
    .request 0 (.start (fun _ _ => 0) [continuousStream] 1 0),
    .request 0 .pause, .deliver onlyCore]

/-! ## 3. The stop events -/

/-- A message that starts a run of a port. -/
def StartsPort (i : UInt8) : CpToDpMsg → Prop
  | .start obj _ _ => obj.portId = i
  | .stop _ => False
  | .pause _ => False
  | .resume _ => False
  | .update _ _ => False
  | .quit => False

theorem mem_eventIds {id : Int} {events : List TrexDpPortEventMsg} :
    id ∈ eventIds i events ↔ ⟨i, id⟩ ∈ events := by
  simp only [eventIds, mem_map, mem_filter, decide_eq_true_eq]
  constructor
  · rintro ⟨⟨j, id'⟩, ⟨hmem, rfl⟩, rfl⟩
    exact hmem
  · exact fun hmem => ⟨_, ⟨hmem, rfl⟩, rfl⟩

/-- No start is on its way. -/
theorem not_startsPort (h : starts (s.channel i k).ring = []) :
    ∀ m ∈ s.toDp k, ¬ StartsPort i m := by
  intro m hm hstart
  cases m with
  | start obj duration eventId =>
    have hcmd : command? i (.start obj duration eventId)
        = some (.start eventId (obj.allContinues && decide (¬ duration > 0))) := if_pos hstart
    have hmem : eventId ∈ starts (s.channel i k).ring :=
      mem_filterMap.mpr ⟨_, mem_filterMap.mpr ⟨_, hm, hcmd⟩, rfl⟩
    rw [h] at hmem
    cases hmem
  | stop cmd => exact hstart
  | pause j => exact hstart
  | resume j => exact hstart
  | update j factor => exact hstart
  | quit => exact hstart

/-- Every core has ended the run that the port counts, has no other start on its way, and the
control plane has taken its report of the end. -/
def Over (s : TrexSystem n) (i : UInt8) : Prop :=
  ∀ core, (s.channel i core).Ended ∧ ⟨i, (s.cp i).eventIdCounter⟩ ∈ s.handled core

theorem Over.core (h : s.Over i) (core : Fin n.toNat) :
    ((s.cores core).ports i).state = .ppSTATE_IDLE
      ∧ ((s.cores core).ports i).eventId = (s.cp i).eventIdCounter
      ∧ (∀ m ∈ s.toDp core, ¬ StartsPort i m) := by
  obtain ⟨hidle, hno, hrun⟩ := (h core).1
  exact ⟨activity_idle.mp hidle, hrun, not_startsPort hno⟩

/-- **A run stays over** while its port serves no request. -/
theorem Over.step {s' : TrexSystem n} {move : Move n} (h : s.Over i) (hok : s.Ok)
    (hstep : Step s move s') (hcp : (s'.cp i).eventIdCounter = (s.cp i).eventIdCounter)
    (hhandled : ∀ core, s.handled core ⊆ s'.handled core) : s'.Over i := by
  intro core
  obtain ⟨hended, hreport⟩ := h core
  have hsteps : Steps noGuard (s.channel i core) (s'.channel i core) :=
    step_channels hok hstep (fun _ _ _ _ _ => trivial) (fun _ _ _ _ _ _ => trivial) i core
  rw [hcp]
  exact ⟨hended.steps hsteps hcp, hhandled core hreport⟩

/-- **An event takes a port out of its run** only when every core has ended this run, and has
reported the end with the id of the run. -/
theorem Ok.finished (h : s.Ok) {ev : TrexDpPortEventMsg} {rest : List TrexDpPortEventMsg}
    (hring : (s.cores k).ringToCp = ev :: rest)
    (hchange : ((s.handleEvent k ev rest).cp ev.portId).portState ≠ (s.cp ev.portId).portState) :
    ((s.handleEvent k ev rest).cp ev.portId).portState = .PORT_STATE_STREAMS
      ∧ ev.eventId = (s.cp ev.portId).eventIdCounter
      ∧ (s.handleEvent k ev rest).Over ev.portId := by
  have hnoticed := TrexStatelessPort.handleEvent_noticed (h.port ev.portId) k ev.eventId
  have hport : (s.handleEvent k ev rest).cp ev.portId = (s.cp ev.portId).handleEvent k ev.eventId :=
    Function.update_self _ _ _
  simp only [Over, TrexSystem.channel, hport] at hchange ⊢
  generalize (s.cp ev.portId).handleEvent k ev.eventId = port' at hnoticed hchange ⊢
  cases hnoticed with
  | ignored _ => exact absurd rfl hchange
  | marked _ _ _ _ => exact absurd rfl hchange
  | occurred hon hid hnew hall hsignal _ =>
    refine ⟨rfl, hid, fun core => ?_⟩
    -- what is asked of the run does not depend on the event that is taken
    have hended : (s.channel ev.portId core).ids = [] → (s.channel ev.portId core).Ended :=
      fun hids => (h.channel ev.portId core).over hon hids
    by_cases hk : core = k
    · -- the report that is handled now is the last one of its core
      subst hk
      have hev : ⟨ev.portId, (s.cp ev.portId).eventIdCounter⟩ = ev := by rw [← hid]
      have hmem : (s.channel ev.portId core).counter ∈ (s.channel ev.portId core).reports := by
        refine mem_eventIds.mpr ?_
        rw [hring]
        exact mem_cons.mpr (Or.inl hev)
      have hover := hended ((h.channel ev.portId core).ids_nil hmem)
      simp only [handleEvent, Function.update_self]
      exact ⟨hover, mem_append_right _ (mem_singleton.mpr hev)⟩
    · have hone : (s.channel ev.portId core).signal = true := by
        have hcore := hall core
        rw [Function.update_of_ne hk] at hcore
        exact hcore
      obtain ⟨hids, hmem⟩ := (h.channel ev.portId core).signal hon hone
      simp only [handleEvent, Function.update_of_ne hk]
      exact ⟨hended hids, mem_eventIds.mp hmem⟩

/-- **A stop that is for another run changes no port.** -/
theorem popCommand_ports {c' : TrexStatelessDpCore} {j : Nat} {time : Rat}
    {cmd : TrexStatelessDpStop} (hcond : ∀ cmd ∈ c.commands, cmd.stopOnlyForEventId = true)
    (hj : c.queue[j]? = some (.command time cmd))
    (hother : cmd.eventId ≠ (c.ports cmd.portId).eventId) (hstep : c.step (.pop j) = .ok c') :
    c'.ports = c.ports := by
  have hmem : cmd ∈ c.commands := mem_filterMap.mpr ⟨_, mem_of_getElem? hj, rfl⟩
  unfold step at hstep
  simp only [hj] at hstep
  obtain ⟨c1, hstop, hstep⟩ := bind_eq_ok hstep
  obtain ⟨_, _, hstep⟩ := bind_eq_ok hstep
  cases hstep
  rcases stopTraffic_effect hstop with ⟨rfl, -⟩ | ⟨-, hid, -, -⟩
  · rfl
  · exact absurd (hid (hcond cmd hmem)) hother

/-- When a core starts a run, its delayed stops and its events of the port are all of earlier
runs. -/
theorem Ok.fresh (h : s.Ok) {obj : TrexStreamsCompiledObj} {duration : Rat} {eventId : Int}
    (hring : s.toDp k = .start obj duration eventId :: rest) :
    (∀ cmd ∈ (s.cores k).commands, cmd.portId = obj.portId → cmd.eventId < eventId)
      ∧ ∀ ev ∈ (s.cores k).ringToCp, ev.portId = obj.portId → ev.eventId < eventId := by
  have hchan := h.channel obj.portId k
  have hcmd := ring_of_toDp hring (if_pos (rfl : obj.portId = obj.portId))
  have hstarts : eventId ∈ starts (s.channel obj.portId k).ring := by
    rw [hcmd]
    exact mem_cons_self
  have hids : eventId ∈ (s.channel obj.portId k).ids := mem_append_right _ hstarts
  refine ⟨fun cmd hmem hport => ?_, fun ev hev hport => ?_⟩
  · exact (hchan.delayed cmd.eventId (mem_delayedIds.mpr ⟨cmd, hmem, hport, rfl⟩)).2.1 eventId
      hstarts
  · rw [← hport] at hchan hids
    exact (hchan.reports ev.eventId (mem_eventIds.mpr hev)).2 eventId hids

/-- The control plane gives no id twice: those that are about are not larger than its counter. -/
theorem Ok.bounded (h : s.Ok) :
    (∀ ev ∈ (s.cores k).ringToCp, ev.eventId ≤ (s.cp ev.portId).eventIdCounter)
      ∧ ∀ cmd ∈ (s.cores k).commands, cmd.eventId ≤ (s.cp cmd.portId).eventIdCounter := by
  refine ⟨fun ev hev => ?_, fun cmd hcmd => ?_⟩
  · exact ((h.channel ev.portId k).reports ev.eventId (mem_eventIds.mpr hev)).1
  · exact ((h.channel cmd.portId k).delayed cmd.eventId
      (mem_delayedIds.mpr ⟨cmd, hcmd, rfl, rfl⟩)).1

/-- A burst of one packet. -/
def burstStream : TrexStream :=
  ⟨.stSINGLE_BURST, 0, 0, 0, -1, true, true, {}, none, ⟨[], 0⟩, 1, 1, 1, 0⟩

end TrexSystem

end Trex.Proto
