/-
# Every move is a step of every channel

The channel between a port and a core (`TrexSystem.channel`) only sees what concerns the two.
Whatever move the system makes, the channel makes some of the steps of `Trex.Lib.Channel`, or none
(`step_channels`), so what these steps keep holds of every port and every core in every state that
the system reaches.
-/
import Trex.Cp.Reply
import Trex.Proto.System

namespace Trex.Proto

open Trex.Lib Trex.Stream Trex.Cp Trex.Dp TrexStatelessDpCore List
open Function (update update_of_ne update_self)

namespace TrexSystem

variable {n : UInt8} {guard : Guard Int} {portId : UInt8} {port port' : TrexStatelessPort n}
  {j k : Fin n.toNat} {c c' : TrexStatelessDpCore} {toDp rest : List CpToDpMsg}
  {handled : List TrexDpPortEventMsg}

/-- Steps of a channel, one after the other. -/
abbrev Steps (guard : Guard Int) : Channel Int → Channel Int → Prop :=
  Relation.ReflTransGen (Channel.Step guard)

/-! ## 1. What a channel sees of a core -/

theorem mem_delayedIds {id : Int} : id ∈ delayedIds portId c
    ↔ ∃ cmd ∈ c.commands, cmd.portId = portId ∧ cmd.eventId = id := by
  simp [delayedIds, and_assoc]

theorem delayedIds_subset (h : c'.commands ⊆ c.commands) :
    delayedIds portId c' ⊆ delayedIds portId c := by
  intro id hid
  obtain ⟨cmd, hcmd, hport, heq⟩ := mem_delayedIds.mp hid
  exact mem_delayedIds.mpr ⟨cmd, h hcmd, hport, heq⟩

theorem HasBurst.of_kept (h : HasBurst portId c') (hkept : Kept c.heap c'.heap) :
    HasBurst portId c := by
  obtain ⟨p, node', hp, hport, hfree, htype⟩ := h
  obtain ⟨node, hp0, hport0, htype0, hfree0⟩ := hkept p node' hp
  exact ⟨p, node, hp0, hport0.symm.trans hport, hfree0 hfree, htype0 ▸ htype⟩

variable {ev : TrexDpPortEventMsg} {obj : TrexStreamsCompiledObj}

theorem eventIds_append_of_ne (h : ev.portId ≠ portId) (events : List TrexDpPortEventMsg) :
    eventIds portId (events ++ [ev]) = eventIds portId events := by
  simp [eventIds, h]

theorem eventIds_append (events : List TrexDpPortEventMsg) (id : Int) :
    eventIds portId (events ++ [⟨portId, id⟩]) = eventIds portId events ++ [id] := by
  simp [eventIds]

/-- A step of a core that changes nothing of a port, except that work of it may end. -/
structure Untouched (portId : UInt8) (c c' : TrexStatelessDpCore) : Prop where
  state : (c'.ports portId).state = (c.ports portId).state
  eventId : (c'.ports portId).eventId = (c.ports portId).eventId
  burst : HasBurst portId c' → HasBurst portId c
  delayed : delayedIds portId c' ⊆ delayedIds portId c
  reports : eventIds portId c'.ringToCp = eventIds portId c.ringToCp

theorem Untouched.step (h : Untouched portId c c') :
    Channel.Step guard (channelOf portId port k c toDp handled)
      (channelOf portId port k c' toDp handled) := by
  have heq : channelOf portId port k c' toDp handled
      = { channelOf portId port k c toDp handled with
          finite := HasBurst portId c'
          delayed := delayedIds portId c' } := by
    simp only [channelOf, h.state, h.eventId, h.reports]
  rw [heq]
  exact .stay h.burst h.delayed

theorem untouched_of_quiet (h : Quiet c c') (hsub : c'.commands ⊆ c.commands) :
    Untouched portId c c' :=
  ⟨h.state portId, h.eventId portId, fun hb => hb.of_kept h.kept, delayedIds_subset hsub,
    congrArg (eventIds portId) h.ring⟩

theorem untouched_of_halted {i : UInt8} (h : Halted i c c') (hi : portId ≠ i)
    (hsub : c'.commands ⊆ c.commands) : Untouched portId c c' := by
  have hport := h.others portId hi
  refine ⟨by rw [hport], by rw [hport], fun hb => hb.of_kept h.kept, delayedIds_subset hsub, ?_⟩
  rw [h.ring]
  exact eventIds_append_of_ne (fun heq => hi heq.symm) _

theorem untouched_of_switched {i : UInt8} {before after : PortState}
    (h : Switched i before after c c') (hi : portId ≠ i) : Untouched portId c c' := by
  have hport := h.others portId hi
  have hcommands : c'.commands = c.commands := congrArg (List.filterMap QueueNode.cmd?) h.queue
  exact ⟨by rw [hport], by rw [hport], fun hb => hb.of_kept h.kept,
    delayedIds_subset (hcommands ▸ List.Subset.refl _), congrArg (eventIds portId) h.ring⟩

variable {eventId : Int} {m : CpToDpMsg} {localPortOffset : UInt8}
  {request : TrexStatelessPort.Request} {reply : Reply n}

/-- What is new after a start belongs to its port. -/
theorem untouched_of_started {duration : Rat} (h : Started obj duration eventId c c')
    (hobj : ObjOk obj.portId obj) (hi : portId ≠ obj.portId) :
    Untouched portId c c' := by
  have hport := h.others portId hi
  refine ⟨by rw [hport], by rw [hport], ?_, ?_, congrArg (eventIds portId) h.ring⟩
  · rintro ⟨p, node', hp, hnode, hfree, htype⟩
    rcases h.grown p node' hp with ⟨node, hp0, hport0, htype0, hfree0⟩ | ⟨s, hs, hs', -⟩
    · exact ⟨p, node, hp0, hport0.symm.trans hnode, hfree0 hfree, htype0 ▸ htype⟩
    · exact absurd ((hnode.symm.trans hs').trans (hobj.streams s hs)) hi
  · intro id hid
    obtain ⟨cmd, hcmd, hcport, heq⟩ := mem_delayedIds.mp hid
    rw [h.commands] at hcmd
    rcases mem_append.mp hcmd with hnew | hold
    · split at hnew
      · rw [mem_singleton.mp hnew] at hcport
        exact absurd hcport.symm hi
      · cases hnew
    · exact mem_delayedIds.mpr ⟨cmd, hold, hcport, heq⟩

/-- A port that stops, as the channel sees it. -/
theorem halted_channel (h : Halted portId c c') : channelOf portId port k c' toDp handled
    = { channelOf portId port k c toDp handled with
        worker := .idle
        reports := eventIds portId c.ringToCp ++ [(c.ports portId).eventId]
        finite := HasBurst portId c'
        delayed := delayedIds portId c' } := by
  simp only [channelOf, h.after, h.eventId, h.ring, eventIds_append, activity]

theorem busy_of_halted (h : Halted portId c c') :
    (channelOf portId port k c toDp handled).worker ≠ .idle :=
  fun hidle => h.before (activity_idle.mp hidle)

/-! ## 2. The messages -/

/-- A message that `start_traffic` and the others of the control plane send. -/
def MsgOk (localPortOffset : UInt8) : CpToDpMsg → Prop
  | .start obj _ _ => ObjOk obj.portId obj ∧ HasPort localPortOffset obj.portId
  | .stop cmd => cmd.stopOnlyForEventId = false ∧ HasPort localPortOffset cmd.portId
  | .pause i => HasPort localPortOffset i
  | .resume i => HasPort localPortOffset i
  | .update i _ => HasPort localPortOffset i
  | .quit => True

/-- A message for another port. -/
theorem channelOf_skip (h : command? portId m = none) :
    channelOf portId port k c (m :: rest) handled = channelOf portId port k c rest handled := by
  simp only [channelOf, filterMap_cons_none h]

theorem ring_cons {cmd : Command Int} (h : command? portId m = some cmd) :
    (channelOf portId port k c (m :: rest) handled).ring = cmd ::
        rest.filterMap (command? portId) :=
  filterMap_cons_some h

/-- A start that the core takes. -/
theorem start_step {duration : Rat} (hinv : c.Inv) (h : Started obj duration eventId c c')
    (hobj : ObjOk obj.portId obj) :
    Channel.Step guard (channelOf obj.portId port k c (.start obj duration eventId :: rest) handled)
      (channelOf obj.portId port k c' rest handled) := by
  have hcmd : command? obj.portId (.start obj duration eventId)
      = some (.start eventId (obj.allContinues && decide (¬ duration > 0))) := if_pos rfl
  have heq : channelOf obj.portId port k c' rest handled
      = { channelOf obj.portId port k c (.start obj duration eventId :: rest) handled with
          ring := rest.filterMap (command? obj.portId)
          worker := .running
          run := eventId
          finite := HasBurst obj.portId c'
          delayed := delayedIds obj.portId c' } := by
    simp only [channelOf, h.after, h.id, h.ring, activity]
  rw [heq]
  refine .takeStart (ring_cons hcmd) ?_ ?_ ?_
  · rintro hendless hidle ⟨p, node', hp, hport, hfree, htype⟩
    have hstate : (c.ports obj.portId).state = .ppSTATE_IDLE := activity_idle.mp hidle
    rcases h.grown p node' hp with ⟨node, hp0, hport0, -, hfree0⟩ | ⟨s, hs, -, hcont⟩
    · -- an idle port has no node from before
      have hmode := hinv.mode p node hp0 (hfree0 hfree)
      rw [← hport0, hport, hstate] at hmode
      exact hmode
    · rw [Bool.and_eq_true] at hendless
      exact htype (hcont (hobj.continuous hendless.1 s hs))
  · intro id hid
    obtain ⟨cmd, hmem, hport, rfl⟩ := mem_delayedIds.mp hid
    rw [h.commands] at hmem
    rcases mem_append.mp hmem with hnew | hold
    · split at hnew
      · rw [mem_singleton.mp hnew]
        exact mem_cons_self
      · cases hnew
    · exact mem_cons_of_mem _ (mem_delayedIds.mpr ⟨cmd, hold, hport, rfl⟩)
  · intro hendless
    rw [Bool.and_eq_true] at hendless
    have hcommands := h.commands
    rw [if_neg (of_decide_eq_true hendless.2), nil_append] at hcommands
    exact delayedIds_subset (hcommands ▸ List.Subset.refl _)

/-- A pause or a resume that the core takes. -/
theorem switched_channel {before after : PortState} (h : Switched portId before after c c') :
    channelOf portId port k c' toDp handled
      = { channelOf portId port k c toDp handled with
          worker := activity after
          finite := HasBurst portId c'
          delayed := delayedIds portId c' } := by
  simp only [channelOf, h.after, h.ring]

/-- **A message that a core takes.** -/
theorem deliver_steps (hinv : c.Inv) (hm : MsgOk localPortOffset m) (heff : Effect c c' (.msg m)) :
    Steps guard (channelOf portId port k c (m :: rest) handled)
      (channelOf portId port k c' rest handled) := by
  cases heff with
  | start h =>
    rename_i obj duration eventId
    by_cases hi : portId = obj.portId
    · subst hi
      exact .single (start_step hinv h hm.1)
    · rw [channelOf_skip]
      · exact .single (untouched_of_started h hm.1 hi).step
      · exact if_neg fun heq => hi heq.symm
  | pause h =>
    rename_i i
    by_cases hi : portId = i
    · subst hi
      have hcommands : c'.commands = c.commands := congrArg (List.filterMap QueueNode.cmd?) h.queue
      rw [switched_channel h]
      refine .tail (.single (.takePause (ring_cons (if_pos rfl)) ?_)) ?_
      · exact congrArg activity h.before
      · exact .stay (fun hb => hb.of_kept h.kept)
          (delayedIds_subset (hcommands ▸ List.Subset.refl _))
    · rw [channelOf_skip]
      · exact .single (untouched_of_switched h hi).step
      · exact if_neg fun heq => hi heq.symm
  | resume h =>
    rename_i i
    by_cases hi : portId = i
    · subst hi
      have hcommands : c'.commands = c.commands := congrArg (List.filterMap QueueNode.cmd?) h.queue
      rw [switched_channel h]
      refine .tail (.single (.takeResume (ring_cons (if_pos rfl)) ?_)) ?_
      · exact congrArg activity h.before
      · exact .stay (fun hb => hb.of_kept h.kept)
          (delayedIds_subset (hcommands ▸ List.Subset.refl _))
    · rw [channelOf_skip]
      · exact .single (untouched_of_switched h hi).step
      · exact if_neg fun heq => hi heq.symm
  | update h hsub =>
    rename_i i factor
    have hstay : Channel.Step guard (channelOf portId port k c rest handled)
        (channelOf portId port k c' rest handled) := (untouched_of_quiet h hsub).step
    by_cases hi : portId = i
    · subst hi
      refine .tail (.single ?_) hstay
      exact .takeUpdate (ring_cons (if_pos rfl))
    · rw [channelOf_skip]
      · exact .single hstay
      · exact if_neg fun heq => hi heq.symm
  | quit h hsub =>
    rw [channelOf_skip rfl]
    exact .single (untouched_of_quiet h hsub).step
  | noStop heq hwhy =>
    rename_i cmd
    subst heq
    by_cases hi : portId = cmd.portId
    · subst hi
      refine .single (.takeStopIdle (ring_cons (if_pos rfl)) ?_)
      rcases hwhy with hidle | ⟨hcond, -⟩
      · exact activity_idle.mpr hidle
      · rw [hm.1] at hcond
        cases hcond
    · rw [channelOf_skip]
      exact if_neg fun heq => hi heq.symm
  | stop h hid hsub =>
    rename_i cmd
    by_cases hi : portId = cmd.portId
    · subst hi
      rw [halted_channel h]
      refine .tail (.single (.takeStop (ring_cons (if_pos rfl)) (busy_of_halted h))) ?_
      exact .stay (fun hb => hb.of_kept h.kept) (delayedIds_subset hsub)
    · rw [channelOf_skip]
      · exact .single (untouched_of_halted h hi hsub).step
      · exact if_neg fun heq => hi heq.symm
  | internal ha _ _ => exact ha.elim

/-- **A step that a core makes by itself.** -/
theorem internal_steps {a : Act} (ha : a.internal)
    (hcond : ∀ cmd ∈ c.commands, cmd.stopOnlyForEventId = true) (heff : Effect c c' a)
    (hguard : (c.ports portId).state ≠ .ppSTATE_IDLE → (c'.ports portId).state = .ppSTATE_IDLE →
      guard.halt (channelOf portId port k c toDp handled)) :
    Steps guard (channelOf portId port k c toDp handled)
      (channelOf portId port k c' toDp handled) := by
  -- a port that stops, whatever the reason
  have hhalt : ∀ i, Halted i c c' → c'.commands ⊆ c.commands →
      (i = portId → HasBurst portId c ∨ (c.ports portId).eventId ∈ delayedIds portId c) →
      Steps guard (channelOf portId port k c toDp handled)
        (channelOf portId port k c' toDp handled) := by
    intro i h hsub hends
    by_cases hi : portId = i
    · subst hi
      rw [halted_channel h]
      refine .tail (.single (.halt (busy_of_halted h) (hends rfl) (hguard h.before h.after))) ?_
      exact .stay (fun hb => hb.of_kept h.kept) (delayedIds_subset hsub)
    · exact .single (untouched_of_halted h hi hsub).step
  cases heff with
  | internal _ h hsub => exact .single (untouched_of_quiet h hsub).step
  | streams hp htype hfree h hsub =>
    refine hhalt _ h hsub fun hi => Or.inl ?_
    exact ⟨_, _, hp, hi, hfree, by rw [htype]; decide⟩
  | duration hmem hid h hsub =>
    refine hhalt _ h hsub fun hi => Or.inr ?_
    subst hi
    exact mem_delayedIds.mpr ⟨_, hmem, rfl, hid (hcond _ hmem)⟩
  | start => exact ha.elim
  | pause => exact ha.elim
  | resume => exact ha.elim
  | update => exact ha.elim
  | quit => exact ha.elim
  | noStop => exact ha.elim
  | stop => exact ha.elim

/-! ## 3. The requests and the events -/

theorem ring_append (msgs : List CpToDpMsg) :
    (toDp ++ msgs).filterMap (command? portId)
      = toDp.filterMap (command? portId) ++ msgs.filterMap (command? portId) :=
  filterMap_append

/-- **A request of the port of the channel.** -/
theorem request_steps (hok : port.Ok) (h : TrexStatelessPort.Replied port request reply)
    (hguard : ∀ op newFactor, request = .update op newFactor →
      guard.update (channelOf port.portId port k c toDp handled)) :
    Steps guard (channelOf port.portId port k c toDp handled)
      (channelOf port.portId reply.port k c (toDp ++ reply.toDp k) handled) := by
  cases h with
  | table hoff hoff' hport hstreams hcounter hevent =>
    rename_i port'
    have heq : channelOf port.portId port' k c (toDp ++ []) handled
        = channelOf port.portId port k c toDp handled := by
      simp [channelOf, hoff, hoff', hcounter, hevent]
    exact heq ▸ .refl
  | start hoff hn hmsg =>
    rename_i rand streams factor duration allContinues msgs
    obtain ⟨obj, hobj, hobjOk, hall⟩ := hmsg k
    have hcmd : command? port.portId (.start obj duration (port.eventIdCounter + 1))
        = some (.start (port.eventIdCounter + 1) (obj.allContinues && decide (¬ duration > 0))) :=
      if_pos hobjOk.port
    refine .single ?_
    simp only [channelOf, hobj, ring_append, filterMap_cons_some hcmd, filterMap_nil, hall]
    exact .askStart (v := channelOf port.portId port k c toDp handled) hoff (Int.lt_succ _)
  | stop hon =>
    refine .single ?_
    have hcmd : command? port.portId (.stop ⟨port.portId, false, 0⟩) = some .stop := if_pos rfl
    simp only [channelOf, TrexStatelessPort.sendMessageToAllDp, ring_append,
      filterMap_cons_some hcmd, filterMap_nil]
    exact .askStop (v := channelOf port.portId port k c toDp handled) hon
  | noStop =>
    simp only [TrexStatelessPort.silent, append_nil]
    exact .refl
  | pause htx hendless =>
    refine .single ?_
    have hcmd : command? port.portId (.pause port.portId) = some .pause := if_pos rfl
    have hon : port.belief = .on true := by rw [TrexStatelessPort.belief, htx, hendless]
    simp only [channelOf, TrexStatelessPort.sendMessageToAllDp, ring_append,
      filterMap_cons_some hcmd, filterMap_nil]
    exact .askPause (v := channelOf port.portId port k c toDp handled) hon
  | resume hpause =>
    refine .single ?_
    have hcmd : command? port.portId (.resume port.portId) = some .resume := if_pos rfl
    have hon : port.belief = .paused := by rw [TrexStatelessPort.belief, hpause]
    have hon' : TrexStatelessPort.belief { port with portState := .PORT_STATE_TX } = .on true :=
      congrArg Belief.on (hok.paused hpause)
    simp only [channelOf, TrexStatelessPort.sendMessageToAllDp, ring_append,
      filterMap_cons_some hcmd, filterMap_nil, hon']
    exact .askResume (v := channelOf port.portId port k c toDp handled) hon
  | update hon =>
    refine .single ?_
    rename_i op newFactor factor
    have hcmd : command? port.portId (.update port.portId factor) = some .update := if_pos rfl
    simp only [channelOf, TrexStatelessPort.sendMessageToAllDp, ring_append,
      filterMap_cons_some hcmd, filterMap_nil]
    exact .askUpdate (v := channelOf port.portId port k c toDp handled) hon
      (hguard op newFactor rfl)

/-- The messages of a request are for its port. -/
theorem request_other (h : TrexStatelessPort.Replied port request reply)
    (hi : portId ≠ port.portId) :
    (reply.toDp k).filterMap (command? portId) = [] := by
  have hne : port.portId ≠ portId := fun heq => hi heq.symm
  cases h with
  | table => rfl
  | start _ _ hmsg =>
    obtain ⟨obj, hobj, hobjOk, -⟩ := hmsg k
    simp [hobj, command?, hobjOk.port, hne]
  | stop => simp [TrexStatelessPort.sendMessageToAllDp, command?, hne]
  | noStop => rfl
  | pause => simp [TrexStatelessPort.sendMessageToAllDp, command?, hne]
  | resume => simp [TrexStatelessPort.sendMessageToAllDp, command?, hne]
  | update => simp [TrexStatelessPort.sendMessageToAllDp, command?, hne]

/-- The messages of a request are as they should be. -/
theorem request_msgOk (h : TrexStatelessPort.Replied port request reply)
    (hport : HasPort localPortOffset port.portId) :
    ∀ m ∈ reply.toDp k, MsgOk localPortOffset m := by
  intro m hm
  cases h with
  | table => cases hm
  | start _ _ hmsg =>
    obtain ⟨obj, hobj, hobjOk, -⟩ := hmsg k
    simp only [hobj, mem_singleton] at hm
    rw [hm]
    have heq := hobjOk.port
    exact ⟨heq.symm ▸ hobjOk, heq.symm ▸ hport⟩
  | stop =>
    rw [mem_singleton.mp hm]
    exact ⟨rfl, hport⟩
  | noStop => cases hm
  | pause =>
    rw [mem_singleton.mp hm]
    exact hport
  | resume =>
    rw [mem_singleton.mp hm]
    exact hport
  | update =>
    rw [mem_singleton.mp hm]
    exact hport

/-- **An event of the core and the port of the channel.** -/
theorem event_steps {events : List TrexDpPortEventMsg} (hring : c.ringToCp = ev :: events)
    (h : TrexStatelessPort.Noticed port k ev.eventId port') :
    Steps guard (channelOf ev.portId port k c toDp handled)
      (channelOf ev.portId port' k { c with ringToCp := events } toDp (handled ++ [ev])) := by
  have hreports : (channelOf ev.portId port k c toDp handled).reports
      = ev.eventId :: eventIds ev.portId events := by
    simp [channelOf, eventIds, hring]
  have hhandled : eventIds ev.portId (handled ++ [ev]) = eventIds ev.portId handled ++
      [ev.eventId] :=
    eventIds_append handled ev.eventId
  cases h with
  | ignored _ =>
    refine .single ?_
    have heq : channelOf ev.portId port k { c with ringToCp := events } toDp (handled ++ [ev])
        = { channelOf ev.portId port k c toDp handled with
            reports := eventIds ev.portId events
            handled := eventIds ev.portId handled ++ [ev.eventId] } := by
      rw [← hhandled]
      rfl
    rw [heq]
    exact .ignore hreports
  | marked hon hid _ _ =>
    refine .single ?_
    rw [hid] at hreports hhandled
    simp only [channelOf, hhandled, update_self]
    exact .signal (v := channelOf ev.portId port k c toDp handled) hon hreports
  | occurred hon hid _ hall hsignal _ =>
    rw [hid] at hreports hhandled
    refine .tail (.single (.signal hon hreports)) ?_
    simp only [channelOf, hhandled, hsignal, update_self]
    exact .finish hon rfl

/-- An event of another core of the port. -/
theorem event_steps_core (hjk : k ≠ j) (h : TrexStatelessPort.Noticed port j eventId port') :
    Steps guard (channelOf portId port k c toDp handled)
      (channelOf portId port' k c toDp handled) := by
  cases h with
  | ignored _ => exact .refl
  | marked _ _ _ _ =>
    have heq : update port.stopEvent.signal j true k = port.stopEvent.signal k :=
      update_of_ne hjk _ _
    simp only [channelOf, heq]
    exact .refl
  | occurred hon _ _ hall hsignal _ =>
    have heq : update port.stopEvent.signal j true k = port.stopEvent.signal k :=
      update_of_ne hjk _ _
    refine .single ?_
    simp only [channelOf, hsignal, heq]
    exact .finish (v := channelOf portId port k c toDp handled) hon (heq.symm.trans (hall k))

/-! ## 4. The invariant of the system -/

/-- A core by itself. -/
structure CoreOk (localPortOffset : UInt8) (c : TrexStatelessDpCore) : Prop where
  offset : c.localPortOffset = localPortOffset
  inv : c.Inv
  count : CommandsOk c
  conditional : ∀ cmd ∈ c.commands, cmd.stopOnlyForEventId = true

theorem CoreOk.step {a : Act} (h : CoreOk localPortOffset c) (hen : c.Enabled a)
    (hstep : c.step a = .ok c') : CoreOk localPortOffset c' := by
  obtain ⟨heff, hcount⟩ := step_effect hstep
  exact ⟨heff.offset.trans h.offset, (step_post h.inv h.count hen).result hstep, hcount h.count,
    heff.stopOnlyForEventId h.conditional⟩

/-- **The invariant of the two planes.** -/
structure Ok (s : TrexSystem n) : Prop where
  core : ∀ k, CoreOk s.localPortOffset (s.cores k)
  message : ∀ k, ∀ m ∈ s.toDp k, MsgOk s.localPortOffset m
  portId : ∀ i, (s.cp i).portId = i
  port : ∀ i, (s.cp i).Ok
  channel : ∀ i k, (s.channel i k).Ok

variable {s s' : TrexSystem n} {move : Move n}

/-- **Every move is a step of every channel**, or some of them, or none. -/
theorem step_channels (h : s.Ok) (hstep : Step s move s')
    (hupdate : ∀ i op newFactor k, move = .request i (.update op newFactor) →
      guard.update (s.channel i k))
    (hhalt : ∀ k a i, move = .core k a → ((s.cores k).ports i).state ≠ .ppSTATE_IDLE →
      ((s'.cores k).ports i).state = .ppSTATE_IDLE → guard.halt (s.channel i k))
    (i : UInt8) (k : Fin n.toNat) : Steps guard (s.channel i k) (s'.channel i k) := by
  cases hstep with
  | request hport hadm hreply =>
    rename_i portId request reply
    have hrep := TrexStatelessPort.handle_replied (h.port portId) hadm hreply
    have hid := h.portId portId
    by_cases hi : i = portId
    · subst hi
      have hsteps : Steps guard
          (channelOf (s.cp i).portId (s.cp i) k (s.cores k) (s.toDp k) (s.handled k))
          (channelOf (s.cp i).portId reply.port k (s.cores k) (s.toDp k ++ reply.toDp k)
            (s.handled k)) := by
        refine request_steps (h.port i) hrep fun op newFactor hreq => ?_
        rw [hid]
        exact hupdate i op newFactor k (by rw [hreq])
      rw [hid] at hsteps
      simpa only [channel, replied, update_self] using hsteps
    · have heq : (s.replied portId reply).channel i k = s.channel i k := by
        simp only [channel, replied, update_of_ne hi, channelOf, ring_append,
          request_other hrep (hid.symm ▸ hi), append_nil]
      rw [heq]
  | quit =>
    have heq : s.tryStopAllDp.channel i k = s.channel i k := by
      simp only [channel, tryStopAllDp, channelOf, ring_append]
      exact congrArg (fun ring => { s.channel i k with ring := ring }) (append_nil _)
    rw [heq]
  | deliver hring hen hc =>
    rename_i j m rest c
    by_cases hk : k = j
    · subst hk
      have hm := h.message k m (hring ▸ mem_cons_self)
      simp only [channel, delivered, update_self]
      rw [hring]
      exact deliver_steps (h.core k).inv hm (step_effect hc).1
    · have heq : (s.delivered j c rest).channel i k = s.channel i k := by
        simp only [channel, delivered, update_of_ne hk]
      rw [heq]
  | core ha hen hc =>
    rename_i j a c
    by_cases hk : k = j
    · subst hk
      simp only [channel, update_self]
      refine internal_steps ha (h.core k).conditional (step_effect hc).1 fun hbusy hidle => ?_
      refine hhalt k a i rfl hbusy ?_
      simpa only [update_self] using hidle
    · have heq : channel { s with cores := update s.cores j c } i k = s.channel i k := by
        simp only [channel, update_of_ne hk]
      rw [heq]
  | event hring =>
    rename_i j ev rest
    have hnoticed := TrexStatelessPort.handleEvent_noticed (h.port ev.portId) j ev.eventId
    by_cases hi : i = ev.portId
    · subst hi
      by_cases hk : k = j
      · subst hk
        simp only [channel, handleEvent, update_self]
        exact event_steps hring hnoticed
      · simp only [channel, handleEvent, update_self, update_of_ne hk]
        exact event_steps_core hk hnoticed
    · have hne : ev.portId ≠ i := fun heq => hi heq.symm
      have heq : (s.handleEvent j ev rest).channel i k = s.channel i k := by
        by_cases hk : k = j
        · subst hk
          have hreports : eventIds i (s.cores k).ringToCp = eventIds i rest := by
            simp [eventIds, hring, hne]
          simp only [channel, handleEvent, update_self, update_of_ne hi, channelOf,
            eventIds_append_of_ne hne, hreports]
          rfl
        · simp only [channel, handleEvent, update_of_ne hi, update_of_ne hk]
      rw [heq]

theorem channel_ok {v v' : Channel Int} (h : Steps guard v v') (hv : v.Ok) : v'.Ok := by
  induction h with
  | refl => exact hv
  | tail _ hstep ih => exact hstep.ok ih

/-- Nothing is asked of the moves. -/
def noGuard : Guard Int := ⟨fun _ => True, fun _ => True⟩

/-- **Every move keeps the invariant.** -/
theorem Step.ok (hstep : Step s move s') (h : s.Ok) : s'.Ok := by
  have hchannel : ∀ i k, (s'.channel i k).Ok := by
    intro i k
    have hsteps : Steps noGuard (s.channel i k) (s'.channel i k) :=
      step_channels h hstep (fun _ _ _ _ _ => trivial) (fun _ _ _ _ _ _ => trivial) i k
    exact channel_ok hsteps (h.channel i k)
  cases hstep with
  | request hport hadm hreply =>
    rename_i portId request reply
    have hrep := TrexStatelessPort.handle_replied (h.port portId) hadm hreply
    refine ⟨h.core, fun k m hm => ?_, ?_, ?_, hchannel⟩
    · rcases mem_append.mp hm with hold | hnew
      · exact h.message k m hold
      · exact request_msgOk hrep ((h.portId portId).symm ▸ hport) m hnew
    · refine (Function.forall_update_iff s.cp fun i port => port.portId = i).mpr
        ⟨?_, fun i _ => h.portId i⟩
      exact hrep.portId.trans (h.portId portId)
    · exact (Function.forall_update_iff s.cp _).mpr ⟨hrep.ok (h.port portId), fun i _ => h.port i⟩
  | quit =>
    refine ⟨h.core, fun k m hm => ?_, h.portId, h.port, hchannel⟩
    rcases mem_append.mp hm with hold | hnew
    · exact h.message k m hold
    · rw [mem_singleton.mp hnew]
      trivial
  | deliver hring hen hc =>
    rename_i j m rest c
    refine ⟨?_, ?_, h.portId, h.port, hchannel⟩
    · exact (Function.forall_update_iff s.cores _).mpr ⟨(h.core j).step hen hc, fun k _ => h.core k⟩
    · refine (Function.forall_update_iff s.toDp fun _ msgs =>
        ∀ x ∈ msgs, MsgOk s.localPortOffset x).mpr ⟨fun x hx => ?_, fun k _ => h.message k⟩
      exact h.message j x (hring ▸ mem_cons_of_mem _ hx)
  | core ha hen hc =>
    refine ⟨?_, h.message, h.portId, h.port, hchannel⟩
    exact (Function.forall_update_iff s.cores _).mpr ⟨(h.core _).step hen hc, fun k _ => h.core k⟩
  | event hring =>
    rename_i j ev rest
    have hnoticed := TrexStatelessPort.handleEvent_noticed (h.port ev.portId) j ev.eventId
    have hinv := (h.core j).inv
    refine ⟨?_, h.message, ?_, ?_, hchannel⟩
    · refine (Function.forall_update_iff s.cores _).mpr ⟨?_, fun k _ => h.core k⟩
      exact ⟨(h.core j).offset,
        ⟨hinv.pool, hinv.fresh, hinv.node, hinv.next, hinv.mode, hinv.commandPort⟩,
        (h.core j).count, (h.core j).conditional⟩
    · refine (Function.forall_update_iff s.cp fun i port => port.portId = i).mpr
        ⟨?_, fun i _ => h.portId i⟩
      exact hnoticed.portId.trans (h.portId ev.portId)
    · exact (Function.forall_update_iff s.cp _).mpr ⟨hnoticed.ok (h.port ev.portId), fun i _ =>
        h.port i⟩

theorem Initial.ok (h : s.Initial) : s.Ok := by
  refine ⟨fun k => ?_, fun k m hm => ?_, fun i => (h.cp i).portId, fun i => (h.cp i).ok, fun i k =>
    ?_⟩
  · obtain ⟨hinit, hoff⟩ := h.cores k
    refine ⟨hoff, hinit.inv, ?_, fun cmd hcmd => ?_⟩
    · rw [CommandsOk, commands, hinit.queue, hinit.nonActiveNodes]
      rfl
    · rw [commands, hinit.queue] at hcmd
      cases hcmd
  · rw [h.toDp k] at hm
    cases hm
  · obtain ⟨hinit, -⟩ := h.cores k
    have hidle : (s.channel i k).worker = .idle := activity_idle.mpr (hinit.ports i).1
    have hring : (s.channel i k).ring = [] := by
      simp [channel, channelOf, h.toDp]
    have hids : (s.channel i k).ids = [] := by
      rw [Channel.ids_idle hidle, hring]
      rfl
    have hreports : (s.channel i k).reports = [] := by
      simp [channel, channelOf, eventIds, hinit.ringToCp]
    have hdelayed : (s.channel i k).delayed = [] := by
      simp [channel, channelOf, delayedIds, commands, hinit.queue]
    have hoff : (s.channel i k).belief = .off := by
      simp [channel, channelOf, TrexStatelessPort.belief, (h.cp i).portState]
    refine ⟨⟨.off, ?_, hidle⟩, ?_, ?_, ?_, ?_, fun hon => absurd hoff hon, fun hon =>
      absurd hoff hon⟩
    · rw [hring, hoff]
      exact .nil
    · rw [hids]
      exact List.Pairwise.nil
    · simp [hids]
    · simp [hreports]
    · simp [hdelayed]

/-- **The invariant holds in every state that is reached.** -/
theorem ReachableBy.ok {allowed : TrexSystem n → Move n → Prop} (h : ReachableBy allowed s) :
    s.Ok := by
  induction h with
  | init hinit => exact hinit.ok
  | step _ _ hstep ih => exact hstep.ok ih

end TrexSystem

end Trex.Proto
