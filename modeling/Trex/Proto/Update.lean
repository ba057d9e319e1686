/-
# Updates that come too late

`update_traffic` of the control plane accepts an update while its port transmits or is paused, and
its port does so until every core has reported the end of the run.  A core that has ended the run by
itself is idle when the update reaches it, and the assertion of the data plane fails
(`update_fails_idle`).

This happens only when an update is asked for while a core has ended the run already, or when a core
ends its run by itself while an update is on its way to it.  In runs without such moves every update
finds its port busy (`update_never_idle`).
-/
import Trex.Proto.Safety

namespace Trex.Dp.TrexStatelessDpCore

open Trex.Lib

variable {c c' : TrexStatelessDpCore} {i : UInt8}

/-! ## 1. When a core ends a run by itself -/

/-- The next stream of a node that sent its last packet does not start: there is none, or it is
active already. -/
def NoNextStream (c : TrexStatelessDpCore) (p : Ptr) (node : CGenNodeStateless) : Prop :=
  ∀ q, node.nextStream = some q →
    ∃ next, (c.setNode p node.handleMultiBurst).heap q = some next ∧ next.state = .ssACTIVE

/-- A node of the queue that, when it is taken, ends the run of a port: the last active stream of
the port is about to send its last packet, or a stop for the run is due. -/
def EndsPort (c : TrexStatelessDpCore) (i : UInt8) : QueueNode → Prop
  | .stateless p => ∃ node, c.heap p = some node ∧ node.portId = i ∧ node.state ≠ .ssFREE_RESUSE
      ∧ node.streamType = .stMULTI_BURST ∧ node.isLastPacket = true ∧ (c.ports i).activeStreams = 1
      ∧ c.NoNextStream p node
  | .command _ cmd => cmd.portId = i ∧ (c.ports i).state ≠ .ppSTATE_IDLE
      ∧ (cmd.stopOnlyForEventId = true → cmd.eventId = (c.ports i).eventId)
  | .flowSync _ => False
  | .exitSched _ => False

/-- One stream less ends the run only of its port, and only if it was the last stream. -/
theorem reduceActiveStreams_ends {j : UInt8} (h : reduceActiveStreams j c = .ok c')
    (hbusy : (c.ports i).state ≠ .ppSTATE_IDLE) (hidle : (c'.ports i).state = .ppSTATE_IDLE) :
    i = j ∧ (c.ports j).activeStreams = 1 := by
  obtain ⟨heff, -⟩ := reduceActiveStreams_effect h
  rcases heff with hquiet | hhalt
  · rw [hquiet.state i] at hidle
    exact absurd hidle hbusy
  have hij : i = j := by
    by_contra hne
    rw [hhalt.others i hne] at hidle
    exact hbusy hidle
  refine ⟨hij, ?_⟩
  subst hij
  obtain ⟨_, hpos, h⟩ := bind_eq_ok h
  have hpos' := check_eq_ok hpos
  split at h
  · omega
  · -- the counter goes down and nothing else happens
    cases h
    simp [setPort] at hidle
    exact absurd hidle hbusy

/-- The last packet of a node ends the run only of its port, and only if nothing follows. -/
theorem setStatelessNextNode_ends {j : UInt8} {next : Option Ptr} {schedule : Bool}
    (h : setStatelessNextNode j next c = .ok (c', schedule))
    (hbusy : (c.ports i).state ≠ .ppSTATE_IDLE) (hidle : (c'.ports i).state = .ppSTATE_IDLE) :
    i = j ∧ (c.ports j).activeStreams = 1
      ∧ ∀ q, next = some q → ∃ node, c.heap q = some node ∧ node.state = .ssACTIVE := by
  obtain ⟨_, -, h⟩ := bind_eq_ok h
  cases next with
  | none =>
    obtain ⟨c1, hreduce, h⟩ := bind_eq_ok h
    cases h
    obtain ⟨hij, hone⟩ := reduceActiveStreams_ends hreduce hbusy hidle
    exact ⟨hij, hone, fun q hq => nomatch hq⟩
  | some q =>
    obtain ⟨node, hnode, h⟩ := bind_eq_ok h
    cases hstate : node.state with
    | ssFREE_RESUSE =>
      simp only [hstate] at h
      cases h
    | ssINACTIVE =>
      simp only [hstate] at h
      split at h
      · cases h
      · cases h
        exact absurd hidle hbusy
    | ssACTIVE =>
      simp only [hstate] at h
      obtain ⟨c1, hreduce, h⟩ := bind_eq_ok h
      cases h
      obtain ⟨hij, hone⟩ := reduceActiveStreams_ends hreduce hbusy hidle
      refine ⟨hij, hone, fun r hr => ?_⟩
      obtain rfl := Option.some.inj hr
      exact ⟨node, getNode_eq_ok hnode, hstate⟩

theorem popStateless_ends {p : Ptr} (h : popStateless p c = .ok c')
    (hbusy : (c.ports i).state ≠ .ppSTATE_IDLE) (hidle : (c'.ports i).state = .ppSTATE_IDLE) :
    c.EndsPort i (.stateless p) := by
  obtain ⟨node, hnode, h⟩ := bind_eq_ok h
  split at h
  · cases h
    exact absurd hidle hbusy
  rename_i hfree
  unfold handleNode at h
  cases htype : node.streamType with
  | stCONTINUOUS =>
    simp only [htype] at h
    cases h
    exact absurd hidle hbusy
  | stSINGLE_BURST =>
    simp only [htype] at h
    cases h
  | stMULTI_BURST =>
    simp only [htype] at h
    split at h
    swap
    · cases h
      exact absurd hidle hbusy
    rename_i hlast
    obtain ⟨⟨c1, schedule⟩, hnext, h⟩ := bind_eq_ok h
    -- scheduling the next node leaves the ports alone
    have hports : c'.ports = c1.ports := by
      cases schedule with
      | false =>
        cases h
        rfl
      | true =>
        simp only [if_true] at h
        split at h
        · cases h
        obtain ⟨next, -, h⟩ := bind_eq_ok h
        split at h
        · cases h
        · cases h
          rfl
    rw [hports] at hidle
    obtain ⟨rfl, hone, hnone⟩ := setStatelessNextNode_ends hnext hbusy hidle
    exact ⟨node, getNode_eq_ok hnode, rfl, hfree, htype, hlast, hone, hnone⟩

/-- **A core ends a run by itself only when it takes such a node.** -/
theorem step_ends {a : Act} (ha : a.internal) (h : c.step a = .ok c')
    (hbusy : (c.ports i).state ≠ .ppSTATE_IDLE) (hidle : (c'.ports i).state = .ppSTATE_IDLE) :
    ∃ j node, a = .pop j ∧ c.queue[j]? = some node ∧ c.EndsPort i node := by
  have hquiet : ∀ {c1 : TrexStatelessDpCore}, Quiet c1 c' → c1.ports = c.ports → False := by
    intro c1 hq hports
    rw [hq.state i, hports] at hidle
    exact hbusy hidle
  cases a with
  | msg m => exact ha.elim
  | leaveIdle =>
    simp only [step] at h
    split at h <;> · cases h; exact absurd hidle hbusy
  | pop j =>
    simp only [step] at h
    split at h
    · cases h
    rename_i node hj
    refine ⟨j, node, rfl, hj, ?_⟩
    cases node with
    | stateless p =>
    exact popStateless_ends (c := { c with queue := c.queue.eraseIdx j }) h hbusy hidle
    | command time cmd =>
      obtain ⟨c1, hstop, h⟩ := bind_eq_ok h
      obtain ⟨_, _, h⟩ := bind_eq_ok h
      cases h
      rcases stopTraffic_effect hstop with ⟨rfl, -⟩ | ⟨hhalt, hid, -, -⟩
      · exact absurd hidle hbusy
      · have hport : cmd.portId = i := by
          by_contra hne
          have hothers := hhalt.others i fun heq => hne heq.symm
          have hidle' : (c1.ports i).state = .ppSTATE_IDLE := hidle
          rw [hothers] at hidle'
          exact hbusy hidle'
        subst hport
        exact ⟨rfl, hbusy, hid⟩
    | flowSync time =>
      cases h
      exact absurd hidle hbusy
    | exitSched time => exact (hquiet (closeScheduler_effect h).1 rfl).elim
  | endSync =>
    simp only [step] at h
    split at h
    · unfold endSync at h
      split at h
      · exact (hquiet (closeScheduler_effect h).1 rfl).elim
      · cases h
        exact absurd hidle hbusy
    · cases h
      exact absurd hidle hbusy

end Trex.Dp.TrexStatelessDpCore

namespace Trex.Proto

open Trex.Lib Trex.Stream Trex.Cp Trex.Dp TrexStatelessDpCore

namespace TrexSystem

variable {n : UInt8} {s s' : TrexSystem n} {move : Move n}

/-! ## 2. Updates in time -/

/-- No update of a port comes before the next start of the port. -/
def NoUpdateBeforeStart (i : UInt8) : List CpToDpMsg → Prop
  | [] => True
  | .start obj _ _ :: rest => obj.portId = i ∨ NoUpdateBeforeStart i rest
  | .stop _ :: rest => NoUpdateBeforeStart i rest
  | .pause _ :: rest => NoUpdateBeforeStart i rest
  | .resume _ :: rest => NoUpdateBeforeStart i rest
  | .update j _ :: rest => j ≠ i ∧ NoUpdateBeforeStart i rest
  | .quit :: rest => NoUpdateBeforeStart i rest

/-- **The moves that keep updates in time.**  An update is asked for only while every core has the
run or the start of it is on its way, and no core takes a node that ends the run of a port while an
update of the run is on its way. -/
def UpdateInTime (s : TrexSystem n) : Move n → Prop
  | .request i (.update _ _) => ∀ k, ((s.cores k).ports i).state ≠ .ppSTATE_IDLE
      ∨ ∃ m ∈ s.toDp k, StartsPort i m
  | .core k (.pop j) => ∀ node i, (s.cores k).queue[j]? = some node → (s.cores k).EndsPort i node →
      NoUpdateBeforeStart i (s.toDp k)
  | _ => True

theorem clear_of_noUpdate (i : UInt8) : ∀ {toDp : List CpToDpMsg}, NoUpdateBeforeStart i toDp →
    Channel.Clear (toDp.filterMap (command? i)) := by
  intro toDp
  induction toDp with
  | nil => exact fun _ => trivial
  | cons m rest ih =>
    intro h
    cases m with
    | start obj duration eventId =>
      by_cases hi : obj.portId = i
      · simp [command?, hi, Channel.Clear]
      · simpa [command?, hi] using ih (h.resolve_left hi)
    | stop cmd =>
      have hrest := ih h
      by_cases hi : cmd.portId = i
      · simpa [command?, hi, Channel.Clear] using hrest
      · simpa [command?, hi] using hrest
    | pause j =>
      have hrest := ih h
      by_cases hi : j = i
      · simpa [command?, hi, Channel.Clear] using hrest
      · simpa [command?, hi] using hrest
    | resume j =>
      have hrest := ih h
      by_cases hi : j = i
      · simpa [command?, hi, Channel.Clear] using hrest
      · simpa [command?, hi] using hrest
    | update j factor => simpa [command?, h.1] using ih h.2
    | quit => exact ih h

theorem starts_of_startsPort {i : UInt8} {k : Fin n.toNat} {m : CpToDpMsg} (hm : m ∈ s.toDp k)
    (hstart : StartsPort i m) : starts (s.channel i k).ring ≠ [] :=
  fun hnil => not_startsPort hnil m hm hstart

theorem steps_updatesServed {v v' : Channel Int} (hsteps : Steps Channel.updating v v') (h : v.Ok)
    (hserved : v.UpdatesServed) : v'.Ok ∧ v'.UpdatesServed := by
  induction hsteps with
  | refl => exact ⟨h, hserved⟩
  | tail _ hone ih => exact ⟨hone.ok ih.1, hone.updatesServed ih.1 ih.2⟩

/-- Every update on its way finds its port busy. -/
theorem Step.updatesServed (hstep : Step s move s') (h : s.Ok) (hallowed : s.UpdateInTime move)
    (hserved : ∀ i k, (s.channel i k).UpdatesServed) (i : UInt8) (k : Fin n.toNat) :
    (s'.channel i k).UpdatesServed := by
  have hsteps : Steps Channel.updating (s.channel i k) (s'.channel i k) := by
    refine step_channels h hstep ?_ ?_ i k
    · rintro j op newFactor core rfl
      rcases hallowed core with hbusy | ⟨m, hm, hstart⟩
      · exact Or.inl fun hidle => hbusy (activity_idle.mp hidle)
      · exact Or.inr (starts_of_startsPort hm hstart)
    · rintro core a j rfl hbusy hidle
      cases hstep with
      | core ha hen hc =>
        simp only [Function.update_self] at hidle
        obtain ⟨l, node, rfl, hl, hends⟩ := step_ends ha hc hbusy hidle
        exact clear_of_noUpdate j (hallowed node j hl hends)
  exact (steps_updatesServed hsteps (h.channel i k) (hserved i k)).2

theorem ReachableBy.updatesServed (h : ReachableBy UpdateInTime s) :
    ∀ i k, (s.channel i k).UpdatesServed := by
  induction h with
  | init hinit =>
    intro i k
    simp [Channel.UpdatesServed, channel, channelOf, hinit.toDp, Channel.Served]
  | step hreach hallowed hstep ih => exact hstep.updatesServed hreach.ok hallowed ih

/-- **An update never reaches an idle port**, in every run whose moves keep the updates in time: the
port transmits or is paused when a core takes an update, and the assertion of `update_traffic` does
not fail.  Such moves keep `UpdatesServed` of every port: no update is in the ring of a core that
will be idle when it takes it. -/
theorem update_never_idle (n : UInt8) (s : TrexSystem n) (h : ReachableBy UpdateInTime s) :
    (∀ k i factor rest, s.toDp k = .update i factor :: rest →
      ((s.cores k).ports i).state = .ppSTATE_TRANSMITTING
        ∨ ((s.cores k).ports i).state = .ppSTATE_PAUSE)
      ∧ ∀ move, ¬ Fails s move .updateState := by
  have hbusy : ∀ k i factor rest, s.toDp k = .update i factor :: rest →
      ((s.cores k).ports i).state ≠ .ppSTATE_IDLE := by
    intro k i factor rest hring hidle
    have hcmd := ring_of_toDp hring (if_pos (rfl : i = i))
    exact (h.updatesServed i k).busy hcmd (activity_idle.mpr hidle)
  refine ⟨fun k i factor rest hring => ?_, fun move hfail => ?_⟩
  · have hne := hbusy k i factor rest hring
    cases hstate : ((s.cores k).ports i).state with
    | ppSTATE_IDLE => exact absurd hstate hne
    | ppSTATE_TRANSMITTING => exact Or.inl rfl
    | ppSTATE_PAUSE => exact Or.inr rfl
  · cases hfail with
    | deliver hring hen herr =>
      rename_i k m rest
      have hcore := h.ok.core k
      have hfault := (step_post hcore.inv hcore.count hen).fault herr
      cases m with
      | start obj duration eventId =>
        rcases hfault with ⟨hf, -⟩ | ⟨hf, -⟩ | ⟨hf, -⟩ | ⟨hf, -⟩ <;> cases hf
      | stop cmd => cases hfault.1
      | pause i => rcases hfault with ⟨hf, -⟩ | ⟨hf, -⟩ <;> cases hf
      | resume i => rcases hfault with ⟨hf, -⟩ | ⟨hf, -⟩ <;> cases hf
      | update i factor =>
        rcases hfault with ⟨hf, -⟩ | ⟨-, hidle⟩
        · cases hf
        · exact hbusy k i factor rest hring hidle
      | quit => exact hfault
    | core ha hen herr =>
      rename_i k a
      have hcore := h.ok.core k
      have hfault := (step_post hcore.inv hcore.count hen).fault herr
      cases a with
      | msg m => exact ha
      | leaveIdle => exact hfault
      | pop j => cases hfault
      | endSync => exact hfault

/-- A move that cannot make an update late. -/
def Harmless : Move 1 → Prop
  | .request _ (.update _ _) => False
  | .request _ _ => True
  | .quit => True
  | .deliver _ => True
  | .core _ _ => False
  | .event _ => True

instance (move : Move 1) : Decidable (Harmless move) :=
  match move with
  | .request _ (.update _ _) => .isFalse id
  | .request _ (.addStream _) => .isTrue trivial
  | .request _ (.removeStream _) => .isTrue trivial
  | .request _ .removeAllStreams => .isTrue trivial
  | .request _ (.start _ _ _ _) => .isTrue trivial
  | .request _ .stop => .isTrue trivial
  | .request _ .pause => .isTrue trivial
  | .request _ .resume => .isTrue trivial
  | .quit => .isTrue trivial
  | .deliver _ => .isTrue trivial
  | .core _ _ => .isFalse id
  | .event _ => .isTrue trivial

theorem Harmless.updateInTime {s : TrexSystem 1} {move : Move 1} (h : Harmless move) :
    s.UpdateInTime move := by
  cases move with
  | request i request => cases request <;> first | exact h.elim | trivial
  | quit => trivial
  | deliver k => trivial
  | core k a => exact h.elim
  | event k => trivial

/-- A continuous stream is started, and the core has seen the start. -/
def startMoves : List (Move 1) :=
  [.request 0 (.addStream continuousStream),
    .request 0 (.start (fun _ _ => 0) [continuousStream] 1 0), .deliver onlyCore]

/-- The rate is doubled then. -/
theorem update_never_idle_continuous : ∃ s : TrexSystem 1, ReachableBy UpdateInTime s
    ∧ s.toDp onlyCore = [.update 0 2]
    ∧ (((s.cores onlyCore).ports 0).state = .ppSTATE_TRANSMITTING
      ∨ ((s.cores onlyCore).ports 0).state = .ppSTATE_PAUSE) := by
  have hrun : ((freshSystem.run (fun _ => Harmless) startMoves).bind fun s =>
      (s.exec (.request 0 (.update .OP_ABS 2))).map fun s' =>
        (((s.cores onlyCore).ports 0).state, s'.toDp onlyCore))
      = some (.ppSTATE_TRANSMITTING, [.update 0 2]) := by decide +kernel
  obtain ⟨s, hs, hrest⟩ := Option.bind_eq_some_iff.mp hrun
  obtain ⟨s', hmove, heq⟩ := Option.map_eq_some_iff.mp hrest
  obtain ⟨hstate, hring⟩ := Prod.mk.inj heq
  have hreach : ReachableBy UpdateInTime s :=
    ReachableBy.mono (fun _ _ =>
      Harmless.updateInTime) ((ReachableBy.init freshSystem_initial).run hs)
  have hallowed : s.UpdateInTime (.request 0 (.update .OP_ABS 2)) := by
    intro k
    obtain rfl : k = onlyCore := Fin.ext (Nat.lt_one_iff.mp k.isLt)
    rw [hstate]
    exact Or.inl (by decide)
  have hreach' : ReachableBy UpdateInTime s' := .step hreach hallowed (step_of_exec hmove)
  exact ⟨s', hreach', hring, (update_never_idle 1 s' hreach').1 onlyCore 0 2 [] hring⟩

/-! ## 3. An update that comes too late -/

/-- A burst of one packet is started and ends; its rate is updated before the control plane has seen
the event, and the core reads its messages. -/
def lateMoves : List (Move 1) :=
  [.request 0 (.addStream burstStream), .request 0 (.start (fun _ _ => 0) [burstStream] 1 0),
    .deliver onlyCore, .core onlyCore .leaveIdle, .core onlyCore (.pop 1),
    .request 0 (.update .OP_ABS 2), .core onlyCore (.pop 0)]

/-- **The assertion of `update_traffic` fails**: the update was accepted, and finds the port
idle. -/
theorem update_fails_idle : ∃ s, freshSystem.run (fun _ _ => True) lateMoves = some s ∧ s.Reachable
    ∧ (∃ rest, s.toDp onlyCore = .update 0 2 :: rest)
    ∧ ((s.cores onlyCore).ports 0).state = .ppSTATE_IDLE
    ∧ Fails s (.deliver onlyCore) .updateState := by
  have hrun : (freshSystem.run (fun _ _ => True) lateMoves).map (fun s =>
      (s.toDp onlyCore, ((s.cores onlyCore).ports 0).state, (s.cores onlyCore).phase,
        (s.cores onlyCore).localPortOffset))
      = some ([.update 0 2], .ppSTATE_IDLE, .sync (1 / 1000), 0) := by decide +kernel
  obtain ⟨s, hs, heq⟩ := Option.map_eq_some_iff.mp hrun
  simp only [Prod.mk.injEq] at heq
  obtain ⟨hring, hidle, hphase, hoff⟩ := heq
  have hreach : s.Reachable := (ReachableBy.init freshSystem_initial).run hs
  have hen : (s.cores onlyCore).Enabled (.msg (.update 0 2)) := by
    change _ ≠ _ ∧ _ ≠ _
    rw [hphase]
    decide
  have herr : (s.cores onlyCore).step (.msg (.update 0 2)) = .error .updateState := by
    change updateTraffic 0 2 (s.cores onlyCore) = _
    unfold updateTraffic getPortDb
    rw [hoff]
    simp [check, HasPort, hidle, bind, Except.bind]
  exact ⟨s, hs, hreach, ⟨[], hring⟩, hidle, .deliver hring hen herr⟩

end TrexSystem

end Trex.Proto
