/-
# What the requests and the events do to a port

One inversion lemma for the requests (`handle_replied`) and one for the stop events
(`handleEvent_noticed`): every way in which a port can change, with the messages that go to the
cores. Both keep the invariant of `Port.lean`.
-/
import Trex.Cp.Port
import Trex.Lib.Pool

namespace Trex.Cp

open Trex.Lib Trex.Stream Trex.Dp TrexStatelessPort.PortState List
open Function (update update_of_ne update_self)

/-! ## 1. What a core is started with -/

/-- A compiled object, as `start_traffic` of the data plane expects it. -/
structure ObjOk (portId : UInt8) (obj : TrexStreamsCompiledObj) : Prop where
  port : obj.portId = portId
  streams : ∀ s ∈ obj.objs, s.portId = portId
  links : LinksOk obj.objs
  continuous : obj.allContinues = true → ∀ s ∈ obj.objs, s.type = .stCONTINUOUS

variable {rand : Nat → Nat → Nat} {streams : List TrexStream}

/-- **The compiler makes such objects.** -/
theorem compileAll_objOk {portId : UInt8} {n : UInt8} {factor : Rat}
    {objs : List TrexStreamsCompiledObj} (h : compileAll rand portId streams n factor = .ok objs)
    (hport : ∀ s ∈ streams, s.portId = portId) {core : Nat} {obj : TrexStreamsCompiledObj}
    (hobj : objs[core]? = some obj) :
    ObjOk portId obj := by
  obtain ⟨-, -, hentries⟩ := compileAll_entries h
  obtain ⟨hlen, hnext⟩ := hentries obj (mem_of_getElem? hobj)
  obtain ⟨hid, hall, -, hcore⟩ := compileAll_core h hobj
  -- every entry comes from an enabled stream
  have hsource : ∀ (k : Nat) (e : TrexStream), obj.objs[k]? = some e →
      ∃ s, (enabledOf streams)[k]? = some s ∧ s ∈ streams := by
    intro k e he
    have hk : k < (enabledOf streams).length := hlen ▸ (List.getElem?_eq_some_iff.mp he).1
    have hs := List.getElem?_eq_getElem hk
    exact ⟨_, hs, (mem_filter.mp (mem_of_getElem? hs)).1⟩
  refine ⟨hid, ?_, ?_, ?_⟩
  · intro e he
    obtain ⟨k, hk⟩ := List.getElem?_of_mem he
    obtain ⟨s, hs, hmem⟩ := hsource k e hk
    obtain ⟨id, next, hsans⟩ := hcore k s e hs hk
    exact (congrArg TrexStream.portId hsans).trans (hport s hmem)
  · intro e he hdp
    obtain ⟨k, hk⟩ := List.getElem?_of_mem he
    obtain ⟨s, hs, -⟩ := hsource k e hk
    have hpos := (isDpNextStream_iff e).mp hdp
    rcases (hnext k s e hs hk).next with ⟨-, hv⟩ | ⟨-, j, s', hj, -, hv⟩
    · rw [hv] at hpos
      exact absurd hpos (by decide)
    · have hlt : j < obj.objs.length := hlen ▸ (List.getElem?_eq_some_iff.mp hj).1
      have hsmall : j < 2 ^ 31 := by
        have hje := List.getElem?_eq_getElem hlt
        exact (hnext j s' _ hj hje).small
      rw [hv, Int32.toInt_ofNat_of_lt hsmall]
      exact_mod_cast hlt
  · intro hcont e he
    obtain ⟨k, hk⟩ := List.getElem?_of_mem he
    obtain ⟨s, hs, hmem⟩ := hsource k e hk
    obtain ⟨id, next, hsans⟩ := hcore k s e hs hk
    rw [hall] at hcont
    have htype : s.type = .stCONTINUOUS := by simpa using all_eq_true.mp hcont s hmem
    exact (congrArg TrexStream.type hsans).trans htype

namespace TrexStatelessPort

variable {n : UInt8} {port : TrexStatelessPort n} {request : Request} {reply : Reply n}

/-! ## 2. The requests -/

/-- **What a request that is accepted does.** -/
inductive Replied (port : TrexStatelessPort n) : Request → Reply n → Prop
  /-- The table of the streams changes. -/
  | table {request : Request} {port' : TrexStatelessPort n} : port.belief = .off →
      port'.belief = .off → port'.portId = port.portId →
      (∀ s ∈ port'.streamTable, s.portId = port.portId) →
      port'.eventIdCounter = port.eventIdCounter → port'.stopEvent = port.stopEvent →
      Replied port request port'.silent
  | start {rand : Nat → Nat → Nat} {streams : List TrexStream} {factor duration : Rat}
      {allContinues : Bool} {toDp : Fin n.toNat → List TrexStatelessDpCore.CpToDpMsg} :
      port.belief = .off → 0 < n.toNat →
      (∀ core, ∃ obj, toDp core = [.start obj duration (port.eventIdCounter + 1)]
        ∧ ObjOk port.portId obj ∧ obj.allContinues = allContinues) →
      Replied port (.start rand streams factor duration)
        ⟨{ port with
            eventIdCounter := port.eventIdCounter + 1
            stopEvent := .waitForEvent (port.eventIdCounter + 1)
            factor := factor
            lastAllStreamsContinues := allContinues
            lastDuration := duration
            portState := PORT_STATE_TX }, toDp⟩
  | stop : port.belief ≠ .off → Replied port .stop
      ({ port with
        stopEvent := port.stopEvent.disable
        portState := PORT_STATE_STREAMS }.sendMessageToAllDp (.stop ⟨port.portId, false, 0⟩))
  /-- There is nothing to stop. -/
  | noStop : port.belief = .off → Replied port .stop port.silent
  | pause : port.portState = PORT_STATE_TX → port.endless = true → Replied port .pause
      ({ port with portState := PORT_STATE_PAUSE }.sendMessageToAllDp (.pause port.portId))
  | resume : port.portState = PORT_STATE_PAUSE → Replied port .resume
      ({ port with portState := PORT_STATE_TX }.sendMessageToAllDp (.resume port.portId))
  | update {op : MulOp} {newFactor factor : Rat} : port.belief ≠ .off →
      Replied port (.update op newFactor)
        ({ port with factor := port.factor * factor }.sendMessageToAllDp
          (.update port.portId factor))

theorem verifyState_eq_ok {states : List PortState} {u : Unit}
    (h : port.verifyState states = .ok u) : port.portState ∈ states := by
  unfold verifyState at h
  split at h
  · assumption
  · cases h

/-- A port that may change its table believes that its cores are off. -/
theorem belief_off_of_mem (h : port.portState ∈ [PORT_STATE_IDLE, PORT_STATE_STREAMS]) :
    port.belief = .off := by
  rcases mem_cons.mp h with hidle | hstreams
  · rw [belief, hidle]
  · rw [belief, mem_singleton.mp hstreams]

theorem belief_ne_off_iff :
    port.belief ≠ .off ↔ port.portState ∈ [PORT_STATE_TX, PORT_STATE_PAUSE] := by
  unfold belief
  cases port.portState <;> simp

theorem startTraffic_replied {factor duration : Rat} (hok : port.Ok)
    (hperm : streams.Perm port.streamTable)
    (h : port.startTraffic rand streams factor duration = .ok reply) :
    Replied port (.start rand streams factor duration) reply := by
  obtain ⟨_, hstate, h⟩ := bind_eq_ok h
  obtain ⟨objs, hobjs, h⟩ := bind_eq_ok h
  obtain ⟨eventId, hid, h⟩ := bind_eq_ok h
  have hcompile := mapError_eq_ok hobjs
  have hlength := (compileAll_entries hcompile).2.1
  have hoff : port.belief = .off :=
    belief_off_of_mem (mem_cons_of_mem _ (verifyState_eq_ok hstate))
  obtain rfl : port.eventIdCounter + 1 = eventId := by
    unfold generateEventId at hid
    split at hid
    · exact Except.ok.inj hid
    · cases hid
  split at h
  · cases h
  · rename_i first hfirst
    cases h
    have hpos : 0 < n.toNat := hlength ▸ (List.getElem?_eq_some_iff.mp hfirst).1
    refine .start hoff hpos fun core => ?_
    have hcore : core.val < objs.length := lt_of_lt_of_eq core.isLt hlength.symm
    have hobj := List.getElem?_eq_getElem hcore
    refine ⟨objs[core.val], ?_, ?_, ?_⟩
    · rw [hobj]
      rfl
    · exact compileAll_objOk hcompile (fun s hs => hok.streams s (hperm.mem_iff.mp hs)) hobj
    · exact (compileAll_core hcompile hobj).2.1.trans (compileAll_core hcompile hfirst).2.1.symm

/-- **Every request that is accepted does one of these.** -/
theorem handle_replied (hok : port.Ok) (hadm : port.Admissible request)
    (h : port.handle request = .ok reply) : Replied port request reply := by
  cases request with
  | addStream stream =>
    obtain ⟨_, hstate, h⟩ := bind_eq_ok h
    cases h
    refine .table (belief_off_of_mem (verifyState_eq_ok hstate)) rfl rfl ?_ rfl rfl
    intro s hs
    rcases mem_append.mp hs with hold | hnew
    · exact hok.streams s (mem_filter.mp hold).1
    · rw [mem_singleton.mp hnew]
      exact hadm
  | removeStream streamId =>
    obtain ⟨_, hstate, h⟩ := bind_eq_ok h
    cases h
    have hmem := mem_cons_of_mem PORT_STATE_IDLE (verifyState_eq_ok hstate)
    have hstreams : port.portState = PORT_STATE_STREAMS :=
      mem_singleton.mp (verifyState_eq_ok hstate)
    refine .table (belief_off_of_mem hmem) (belief_off_of_mem ?_) rfl ?_ rfl rfl
    · simp only [hstreams]
      split <;> simp
    · exact fun s hs => hok.streams s (mem_filter.mp hs).1
  | removeAllStreams =>
    obtain ⟨_, hstate, h⟩ := bind_eq_ok h
    cases h
    refine .table (belief_off_of_mem (verifyState_eq_ok hstate)) rfl rfl ?_ rfl rfl
    exact fun s hs => nomatch hs
  | start rand streams factor duration => exact startTraffic_replied hok hadm h
  | stop =>
    unfold handle stopTraffic at h
    simp only at h
    split at h
    · rename_i hstate
      cases h
      exact .noStop (not_not.mp fun hon => hstate (belief_ne_off_iff.mp hon))
    · rename_i hstate
      cases h
      exact .stop (belief_ne_off_iff.mpr (not_not.mp hstate))
  | pause =>
    obtain ⟨_, hstate, h⟩ := bind_eq_ok h
    split at h
    · cases h
    rename_i hall
    split at h
    · cases h
    · rename_i hduration
      cases h
      refine .pause (mem_singleton.mp (verifyState_eq_ok hstate)) ?_
      rw [endless, Bool.and_eq_true]
      exact ⟨by simpa using hall, decide_eq_true hduration⟩
  | resume =>
    obtain ⟨_, hstate, h⟩ := bind_eq_ok h
    cases h
    exact .resume (mem_singleton.mp (verifyState_eq_ok hstate))
  | update op newFactor =>
    obtain ⟨_, hstate, h⟩ := bind_eq_ok h
    simp only at h
    split at h
    · cases h
    · cases h
      exact .update (belief_ne_off_iff.mpr (verifyState_eq_ok hstate))

theorem unsignalled_none (n : Nat) : unsignalled (fun _ : Fin n => false) = n := by
  unfold unsignalled
  simp

/-- A request leaves the id of the port alone. -/
theorem Replied.portId (h : Replied port request reply) : reply.port.portId = port.portId := by
  cases h <;> first | assumption | rfl

/-- **A request keeps the invariant of its port.** -/
theorem Replied.ok (h : Replied port request reply) (hok : port.Ok) : reply.port.Ok := by
  cases h with
  | table hoff hoff' hport hstreams hcounter hevent =>
    refine ⟨fun s hs => (hstreams s hs).trans hport.symm, le_of_le_of_eq hok.counter hcounter.symm,
      fun hp => ?_, fun hon => absurd hoff' hon,
      fun _ => (congrArg TrexDpPortEvent.eventId hevent).trans (hok.inactive hoff)⟩
    rename_i port'
    have hp' : port'.portState = PORT_STATE_PAUSE := hp
    rw [belief, hp'] at hoff'
    cases hoff'
  | start hoff hn _ =>
    have hcounter : eventIdInvalid < port.eventIdCounter + 1 := Int.lt_add_one_of_le hok.counter
    refine ⟨hok.streams, le_of_lt hcounter, fun hp => (by cases hp), fun _ =>
      ?_, fun hoff => by cases hoff⟩
    refine ⟨rfl, hcounter, ?_, ?_⟩
    · exact congrArg Nat.cast (unsignalled_none n.toNat).symm
    · exact lt_of_lt_of_eq hn (unsignalled_none n.toNat).symm
  | stop _ =>
    exact ⟨hok.streams, hok.counter, fun hp => (by cases hp), fun hon => absurd rfl hon, fun _ =>
      rfl⟩
  | noStop _ => exact hok
  | pause htx hendless =>
    have hon : port.belief ≠ .off := belief_ne_off_iff.mpr (by simp [htx])
    exact ⟨hok.streams, hok.counter, fun _ => hendless, fun _ => hok.active hon,
      fun hoff => by cases hoff⟩
  | resume hpause =>
    have hon : port.belief ≠ .off := belief_ne_off_iff.mpr (by simp [hpause])
    exact ⟨hok.streams, hok.counter, fun hp => (by cases hp), fun _ => hok.active hon,
      fun hoff => by cases hoff⟩
  | update hon => exact ⟨hok.streams, hok.counter, hok.paused, hok.active, hok.inactive⟩

/-! ## 3. The stop events -/

/-- **What an event does.** -/
inductive Noticed (port : TrexStatelessPort n) (core : Fin n.toNat) (eventId : Int) :
    TrexStatelessPort n → Prop
  /-- No run is on, the event is of another run, or the core signalled before. -/
  | ignored : port.belief = .off ∨ eventId ≠ port.eventIdCounter ∨
      port.stopEvent.signal core = true →
      Noticed port core eventId port
  /-- Other cores have not signalled yet. -/
  | marked : port.belief ≠ .off → eventId = port.eventIdCounter →
      port.stopEvent.signal core = false →
      0 < unsignalled (update port.stopEvent.signal core true) →
      Noticed port core eventId { port with
        stopEvent := { port.stopEvent with
          signal := update port.stopEvent.signal core true
          pendingCnt := unsignalled (update port.stopEvent.signal core true) } }
  /-- All cores have signalled. -/
  | occurred {stopEvent : TrexDpPortEvent n.toNat} : port.belief ≠ .off →
      eventId = port.eventIdCounter → port.stopEvent.signal core = false →
      (∀ other, update port.stopEvent.signal core true other = true) →
      stopEvent.signal = update port.stopEvent.signal core true →
      stopEvent.eventId = eventIdInvalid →
      Noticed port core eventId
        { port with stopEvent := stopEvent, portState := PORT_STATE_STREAMS }

/-- A core that signals is not counted any more. -/
theorem unsignalled_update {n : Nat} {signal : Fin n → Bool} {core : Fin n}
    (h : signal core = false) :
    unsignalled (update signal core true) + 1 = unsignalled signal := by
  have hone : (List.finRange n).count core = 1 :=
    count_eq_one_of_mem (nodup_finRange n) (mem_finRange core)
  have hcount := countP_update (f := fun c => !signal c)
    (g := fun c => !update signal core true c) (p := core) (l := List.finRange n)
    (fun _ _ => rfl) fun q hq => by rw [update_of_ne hq]
  rw [hone, h, update_self] at hcount
  simpa [unsignalled] using hcount

/-- **Every event does one of these.** -/
theorem handleEvent_noticed (hok : port.Ok) (core : Fin n.toNat) (eventId : Int) :
    Noticed port core eventId (port.handleEvent core eventId) := by
  by_cases hoff : port.belief = .off
  · have heq : port.handleEvent core eventId = port := by
      have hid := hok.inactive hoff
      simp [handleEvent, TrexDpPortEvent.handleEvent, TrexDpPortEvent.isActive, hid]
    rw [heq]
    exact .ignored (Or.inl hoff)
  obtain ⟨hid, hvalid, hpending, hpos⟩ := hok.active hoff
  have hactive : port.stopEvent.isActive = true := by
    rw [TrexDpPortEvent.isActive, hid]
    exact bne_iff_ne.mpr (ne_of_gt hvalid)
  by_cases hother : eventId ≠ port.eventIdCounter
  · have heq : port.handleEvent core eventId = port := by
      simp [handleEvent, TrexDpPortEvent.handleEvent, hactive, hid, hother]
    rw [heq]
    exact .ignored (Or.inr (Or.inl hother))
  obtain rfl : port.eventIdCounter = eventId := (not_not.mp hother).symm
  have hhandle : port.stopEvent.handleEvent core port.eventIdCounter
      = if (port.stopEvent.mark core).pendingCnt = 0 then ((port.stopEvent.mark core).disable, true)
        else (port.stopEvent.mark core, false) := by
    simp [TrexDpPortEvent.handleEvent, hactive, hid]
  cases hsignal : port.stopEvent.signal core with
  | true =>
    -- the core signalled before, and others have not
    have hmark : port.stopEvent.mark core = port.stopEvent := by
      rw [TrexDpPortEvent.mark, if_pos hsignal]
    have hne : port.stopEvent.pendingCnt ≠ 0 := by omega
    have heq : port.handleEvent core port.eventIdCounter = port := by
      simp [handleEvent, hhandle, hmark, hne]
    rw [heq]
    exact .ignored (Or.inr (Or.inr hsignal))
  | false =>
    have hcount := unsignalled_update hsignal
    have hmark : port.stopEvent.mark core = { port.stopEvent with
        signal := update port.stopEvent.signal core true
        pendingCnt := unsignalled (update port.stopEvent.signal core true) } := by
      have hminus : port.stopEvent.pendingCnt - 1
          = unsignalled (update port.stopEvent.signal core true) := by omega
      rw [TrexDpPortEvent.mark, if_neg (by simp [hsignal]), hminus]
    by_cases hzero : unsignalled (update port.stopEvent.signal core true) = 0
    · have heq : port.handleEvent core port.eventIdCounter = { port with
          stopEvent := (port.stopEvent.mark core).disable
          portState := PORT_STATE_STREAMS } := by
        simp [handleEvent, hhandle, hmark, hzero]
      rw [heq]
      refine .occurred hoff rfl hsignal (fun other => ?_) ?_ rfl
      · simpa using countP_eq_zero.mp hzero other (mem_finRange other)
      · rw [hmark]
        rfl
    · have heq : port.handleEvent core port.eventIdCounter
          = { port with stopEvent := port.stopEvent.mark core } := by
        simp [handleEvent, hhandle, hmark, hzero]
      rw [heq, hmark]
      exact .marked hoff rfl hsignal (Nat.pos_of_ne_zero hzero)

variable {port' : TrexStatelessPort n} {core : Fin n.toNat}

theorem Noticed.portId {eventId : Int} (h : Noticed port core eventId port') :
    port'.portId = port.portId := by
  cases h <;> rfl

/-- **An event keeps the invariant of its port.** -/
theorem Noticed.ok {eventId : Int} (h : Noticed port core eventId port') (hok : port.Ok) :
    port'.Ok := by
  cases h with
  | ignored _ => exact hok
  | marked hon _ _ hpos =>
    obtain ⟨hid, hvalid, -, -⟩ := hok.active hon
    exact ⟨hok.streams, hok.counter, hok.paused, fun _ => ⟨hid, hvalid, rfl, hpos⟩,
      fun hoff => absurd hoff hon⟩
  | occurred _ _ _ _ _ hinvalid =>
    exact ⟨hok.streams, hok.counter, fun hp => (nomatch hp), fun hon => absurd rfl hon,
      fun _ => hinvalid⟩

end TrexStatelessPort

end Trex.Cp
