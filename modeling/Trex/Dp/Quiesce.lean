/-
# The end of the scheduler

`flush_file` runs until a `FLOW_SYNC` node finds only delayed stops in the queue
(`m_non_active_nodes` counts them), or until an `EXIT_SCHED` node is reached, which the message to
quit has put there.

A delayed stop may well be left when the scheduler ends: it is one of a run that was stopped by a
message or by its own streams, and `remove_all` drops it.  What is certain is that no stateless node
is left, so no port has an active stream (`scheduler_quiescence`).  A port that is not idle and has
no active stream is one that was started with no stream that starts by itself.
-/
import Trex.Dp.Account

namespace Trex.Dp

open Trex.Lib Trex.Stream List

/-- A `FLOW_SYNC` or an `EXIT_SCHED` node. -/
def QueueNode.isMark : QueueNode → Bool
  | .stateless _ => false
  | .command _ _ => false
  | .flowSync _ => true
  | .exitSched _ => true

namespace TrexStatelessDpCore

variable {c c' : TrexStatelessDpCore} {p : Ptr} {i : UInt8}

/-! ## 1. What steers the scheduler -/

/-- The nodes of the queue that steer the scheduler. -/
def marks (c : TrexStatelessDpCore) : List QueueNode := c.queue.filter QueueNode.isMark

/-- Nothing that steers the scheduler has changed. -/
structure SameControl (c c' : TrexStatelessDpCore) : Prop where
  phase : c'.phase = c.phase
  state : c'.state = c.state
  terminated : c'.terminated = c.terminated
  curTimeSec : c'.curTimeSec = c.curTimeSec
  marks : c'.marks = c.marks

theorem SameControl.refl (c : TrexStatelessDpCore) : SameControl c c := ⟨rfl, rfl, rfl, rfl, rfl⟩

theorem SameControl.trans {c1 c2 : TrexStatelessDpCore} (h : SameControl c c1)
    (h' : SameControl c1 c2) :
    SameControl c c2 :=
  ⟨h'.phase.trans h.phase, h'.state.trans h.state, h'.terminated.trans h.terminated,
    h'.curTimeSec.trans h.curTimeSec, h'.marks.trans h.marks⟩

theorem stopTraffic_control {stopOnId : Bool} {eventId : Int}
    (h : stopTraffic i stopOnId eventId c = .ok c') :
    SameControl c c' := by
  obtain ⟨_, -, h⟩ := bind_eq_ok h
  obtain ⟨⟨c1, stopped⟩, hport, h⟩ := bind_eq_ok h
  have hsame : SameControl c c1 := by
    unfold portStopTraffic at hport
    simp only at hport
    split at hport
    · obtain ⟨_, -, hport⟩ := bind_eq_ok hport
      cases hport
      exact SameControl.refl c
    · split at hport
      · cases hport
        exact SameControl.refl c
      · obtain ⟨c2, hstop, hport⟩ := bind_eq_ok hport
        obtain ⟨_, -, hport⟩ := bind_eq_ok hport
        cases hport
        obtain ⟨heap, n, -, rfl⟩ := stopNodes_effect i hstop
        exact ⟨rfl, rfl, rfl, rfl, rfl⟩
  cases stopped with
  | false =>
    cases h
    exact hsame
  | true =>
    cases h
    exact hsame.trans ⟨rfl, rfl, rfl, rfl, rfl⟩

theorem reduceActiveStreams_control (h : reduceActiveStreams i c = .ok c') : SameControl c c' := by
  obtain ⟨_, -, h⟩ := bind_eq_ok h
  have hset : SameControl c
      (c.setPort i { c.ports i with activeStreams := (c.ports i).activeStreams - 1 }) :=
    ⟨rfl, rfl, rfl, rfl, rfl⟩
  split at h
  · exact hset.trans (stopTraffic_control h)
  · cases h
    exact hset

theorem setStatelessNextNode_control {next : Option Ptr} {schedule : Bool}
    (h : setStatelessNextNode i next c = .ok (c', schedule)) : SameControl c c' := by
  obtain ⟨_, -, h⟩ := bind_eq_ok h
  cases next with
  | none =>
    obtain ⟨c1, hc1, hok⟩ := bind_eq_ok h
    cases hok
    exact reduceActiveStreams_control hc1
  | some q =>
    obtain ⟨node, -, h⟩ := bind_eq_ok h
    cases hstate : node.state with
    | ssFREE_RESUSE =>
      simp only [hstate] at h
      cases h
    | ssINACTIVE =>
      simp only [hstate] at h
      split at h
      · cases h
      · cases h
        exact ⟨rfl, rfl, rfl, rfl, rfl⟩
    | ssACTIVE =>
      simp only [hstate] at h
      obtain ⟨c1, hc1, hok⟩ := bind_eq_ok h
      cases hok
      exact reduceActiveStreams_control hc1

/-- A stateless node does not steer the scheduler. -/
theorem popStateless_control (h : popStateless p c = .ok c') : SameControl c c' := by
  obtain ⟨node, -, h⟩ := bind_eq_ok h
  split at h
  · cases h
    exact ⟨rfl, rfl, rfl, rfl, rfl⟩
  unfold handleNode at h
  split at h
  · cases h
    exact ⟨rfl, rfl, rfl, rfl, rfl⟩
  · split at h
    · obtain ⟨⟨c1, schedule⟩, hnext, h⟩ := bind_eq_ok h
      have hset : SameControl c (c.setNode p node.handleMultiBurst) := ⟨rfl, rfl, rfl, rfl, rfl⟩
      have hsame := hset.trans (setStatelessNextNode_control hnext)
      cases schedule with
      | false =>
        cases h
        exact hsame
      | true =>
        simp only [if_true] at h
        split at h
        · cases h
        obtain ⟨next, -, h⟩ := bind_eq_ok h
        split at h
        · cases h
        · cases h
          exact hsame.trans ⟨rfl, rfl, rfl, rfl, rfl⟩
    · cases h
      exact ⟨rfl, rfl, rfl, rfl, rfl⟩
  · cases h

theorem addStreams_marks : ∀ {ss : List TrexStream} {c c' : TrexStatelessDpCore},
    addStreams i ss c = .ok c' →
    SameControl c c' ∧ (c'.ports i).activeStreams =
      (c.ports i).activeStreams + (ss.filter TrexStream.selfStart).length
  | [], c, c', h => by
    cases h
    exact ⟨SameControl.refl c, rfl⟩
  | s :: ss, c, c', h => by
    rw [addStreams] at h
    obtain ⟨_, -, h⟩ := bind_eq_ok h
    rw [addStream_eq] at h
    obtain ⟨hsame, hcount⟩ := addStreams_marks h
    refine ⟨⟨hsame.phase, hsame.state, hsame.terminated, hsame.curTimeSec, hsame.marks.trans ?_⟩,
      ?_⟩
    · unfold marks
      dsimp only
      split <;> rfl
    · rw [hcount]
      dsimp only
      rw [Function.update_self, filter_cons]
      cases s.selfStart
      · rfl
      · dsimp only [Bool.toNat_true, if_true, length_cons]
        rw [if_pos rfl, length_cons]
        omega

/-- A start lets the core transmit. -/
theorem startTraffic_control {obj : TrexStreamsCompiledObj} {duration : Rat} {eventId : Int}
    (h : startTraffic obj duration eventId c = .ok c') :
    c'.phase = c.phase ∧ c'.state = .STATE_TRANSMITTING ∧ c'.terminated = c.terminated
      ∧ c'.curTimeSec = c.curTimeSec ∧ c'.marks = c.marks
      ∧ (c'.ports obj.portId).activeStreams = (obj.objs.filter TrexStream.selfStart).length := by
  obtain ⟨port, hport, h⟩ := bind_eq_ok h
  obtain ⟨_, -, h⟩ := bind_eq_ok h
  obtain ⟨c1, hadd, h⟩ := bind_eq_ok h
  obtain ⟨_, -, h⟩ := bind_eq_ok h
  obtain ⟨c2, hlink, h⟩ := bind_eq_ok h
  cases h
  obtain ⟨hsame, hcount⟩ := addStreams_marks hadd
  obtain ⟨heap, -, rfl⟩ := linkStreams_effect _ hlink
  have hcount' : (c1.ports obj.portId).activeStreams =
      (obj.objs.filter TrexStream.selfStart).length := by
    rw [hcount]
    simp [setPort]
  unfold addPortDuration
  split
  · refine ⟨hsame.phase, rfl, hsame.terminated, hsame.curTimeSec, hsame.marks, ?_⟩
    simpa [setPort, push] using hcount'
  · refine ⟨hsame.phase, rfl, hsame.terminated, hsame.curTimeSec, hsame.marks, ?_⟩
    simpa [setPort] using hcount'

theorem pauseTraffic_control (h : pauseTraffic i c = .ok c') : SameControl c c' := by
  obtain ⟨port, -, h⟩ := bind_eq_ok h
  obtain ⟨_, -, h⟩ := bind_eq_ok h
  obtain ⟨c1, hnodes, h⟩ := bind_eq_ok h
  cases h
  obtain ⟨heap, -, rfl⟩ := setPauseNodes_effect _ _ _ hnodes
  exact ⟨rfl, rfl, rfl, rfl, rfl⟩

theorem resumeTraffic_control (h : resumeTraffic i c = .ok c') : SameControl c c' := by
  obtain ⟨port, -, h⟩ := bind_eq_ok h
  obtain ⟨_, -, h⟩ := bind_eq_ok h
  obtain ⟨c1, hnodes, h⟩ := bind_eq_ok h
  cases h
  obtain ⟨heap, -, rfl⟩ := setPauseNodes_effect _ _ _ hnodes
  exact ⟨rfl, rfl, rfl, rfl, rfl⟩

theorem updateTraffic_control {factor : Rat} (h : updateTraffic i factor c = .ok c') :
    SameControl c c' := by
  obtain ⟨port, -, h⟩ := bind_eq_ok h
  obtain ⟨_, -, h⟩ := bind_eq_ok h
  obtain ⟨heap, -, rfl⟩ := updateNodes_effect _ _ h
  exact ⟨rfl, rfl, rfl, rfl, rfl⟩

/-! ## 2. The marks of the queue -/

/-- While the scheduler runs there is a `FLOW_SYNC` node, and after a message to quit there is an
`EXIT_SCHED` node until the thread ends. -/
structure Steered (c : TrexStatelessDpCore) : Prop where
  sync : c.phase = .scheduler → ∃ time, .flowSync time ∈ c.marks
  exit : c.terminated = true → c.phase ≠ .ended → ∃ time, .exitSched time ∈ c.marks
  quit : ∀ time, .exitSched time ∈ c.marks → c.terminated = true
  state : c.state = .STATE_TERMINATE → c.terminated = true

theorem Steered.same (h : c.Steered) (hphase : c'.phase = c.phase)
    (hterm : c'.terminated = c.terminated) (hmarks : c'.marks = c.marks)
    (hstate : c'.state = .STATE_TERMINATE → c.state = .STATE_TERMINATE) :
    c'.Steered := by
  constructor
  · rw [hphase, hmarks]
    exact h.sync
  · rw [hphase, hmarks, hterm]
    exact h.exit
  · rw [hmarks, hterm]
    exact h.quit
  · intro hs
    rw [hterm]
    exact h.state (hstate hs)

theorem Steered.control (h : c.Steered) (hsame : SameControl c c') : c'.Steered :=
  h.same hsame.phase hsame.terminated hsame.marks (by rw [hsame.state]; exact id)

theorem Steered.msg (h : c.Steered) {m : CpToDpMsg} (hphase : c.phase ≠ .scheduler)
    (hstep : c.handleCpMsg m = .ok c') : c'.Steered := by
  cases m with
  | start obj duration eventId =>
    obtain ⟨hphase', hstate, hterm, -, hmarks, -⟩ := startTraffic_control hstep
    refine h.same hphase' hterm hmarks ?_
    rw [hstate]
    intro hs
    cases hs
  | stop cmd => exact h.control (stopTraffic_control hstep)
  | pause i => exact h.control (pauseTraffic_control hstep)
  | resume i => exact h.control (resumeTraffic_control hstep)
  | update i factor => exact h.control (updateTraffic_control hstep)
  | quit =>
    cases hstep
    refine ⟨fun hs => absurd hs hphase, fun _ _ => ⟨_, mem_cons_self⟩, fun _ _ => rfl, fun _ => rfl⟩

theorem Steered.leaveIdle (h : c.Steered) (hidle : c.phase = .idleLoop)
    (hstep : c.step .leaveIdle = .ok c') :
    c'.Steered := by
  unfold step at hstep
  dsimp only at hstep
  split at hstep
  · rename_i hs
    cases hstep
    refine ⟨?_, fun _ hne => absurd rfl hne, h.quit, h.state⟩
    intro hp
    cases hp
  · cases hstep
    refine ⟨fun _ => ⟨_, mem_cons_self⟩, ?_, ?_, h.state⟩
    · intro hterm _
      obtain ⟨time, hmem⟩ := h.exit hterm (by rw [hidle]; decide)
      exact ⟨time, mem_cons_of_mem _ hmem⟩
    · intro time hmem
      rcases mem_cons.mp hmem with hc | hmem
      · cases hc
      · exact h.quit time hmem

/-- The scheduler ends, and the thread with it when the master has terminated it. -/
theorem closeScheduler_control (h : closeScheduler c = .ok c') :
    (c.state = .STATE_TERMINATE ∧ c' = { c with phase := .ended }) ∨
      (c.state ≠ .STATE_TERMINATE ∧ c'.terminated = c.terminated ∧ c'.state = .STATE_IDLE ∧
        c'.queue = [] ∧ c'.phase = if c.terminated then .ended else .idleLoop) := by
  unfold closeScheduler at h
  split at h
  · rename_i hs
    cases h
    exact Or.inl ⟨hs, rfl⟩
  · rename_i hs
    obtain ⟨c1, hremove, h⟩ := bind_eq_ok h
    obtain ⟨heap, n, -, -, rfl⟩ := removeAll_effect hremove
    cases h
    exact Or.inr ⟨hs, rfl, rfl, rfl, rfl⟩

theorem steered_close (hquit : ∀ time, .exitSched time ∈ c.marks → c.terminated = true)
    (hstate : c.state = .STATE_TERMINATE → c.terminated = true)
    (hstep : closeScheduler c = .ok c') :
    c'.Steered := by
  rcases closeScheduler_control hstep with ⟨-, rfl⟩ | ⟨-, hterm, hidle, hqueue, hphase⟩
  · refine ⟨?_, fun _ hne => absurd rfl hne, hquit, hstate⟩
    intro hp
    cases hp
  · have hmarks : c'.marks = [] := by
      unfold marks
      rw [hqueue]
      rfl
    constructor
    · rw [hphase]
      intro hp
      split at hp <;> cases hp
    · intro ht hne
      rw [hphase, ← hterm, if_pos ht] at hne
      exact absurd rfl hne
    · rw [hmarks]
      intro time hmem
      cases hmem
    · rw [hidle]
      intro hs
      cases hs

variable {qnode : QueueNode} {a : Act}

/-- The marks without the node that is taken. -/
theorem mem_marks_erase {k : Nat} (hk : c.queue[k]? = some qnode) {x : QueueNode}
    (hx : x.isMark = true) :
    x ∈ c.marks ↔ x = qnode ∨
        x ∈ ({ c with queue := c.queue.eraseIdx k } : TrexStatelessDpCore).marks := by
  unfold marks
  rw [mem_filter, (perm_eraseIdx hk).mem_iff, mem_cons, mem_filter]
  simp [hx]

theorem Steered.pop (h : c.Steered) {k : Nat} (hk : c.queue[k]? = some qnode)
    (hphase : c.phase = .scheduler)
    (hstep : popNode { c with queue := c.queue.eraseIdx k } qnode = .ok c') : c'.Steered := by
  have hquit : ∀ time, .exitSched time ∈
      ({ c with queue := c.queue.eraseIdx k } : TrexStatelessDpCore).marks →
      c.terminated = true := by
    intro time hmem
    exact h.quit time ((mem_marks_erase hk rfl).mpr (Or.inr hmem))
  -- a node that is no mark leaves the marks as they are
  have hrest : qnode.isMark = false →
      ({ c with queue := c.queue.eraseIdx k } : TrexStatelessDpCore).Steered := by
    intro hnot
    have hne : ∀ x : QueueNode, x.isMark = true → x ≠ qnode := by
      rintro x hx rfl
      rw [hx] at hnot
      cases hnot
    constructor
    · intro _
      obtain ⟨time, hmem⟩ := h.sync hphase
      exact ⟨time, ((mem_marks_erase hk rfl).mp hmem).resolve_left (hne _ rfl)⟩
    · intro hterm hp
      obtain ⟨time, hmem⟩ := h.exit hterm hp
      exact ⟨time, ((mem_marks_erase hk rfl).mp hmem).resolve_left (hne _ rfl)⟩
    · exact hquit
    · exact h.state
  cases qnode with
  | stateless p => exact (hrest rfl).control (popStateless_control hstep)
  | command time cmd =>
    obtain ⟨c1, hstop, hstep⟩ := bind_eq_ok hstep
    obtain ⟨_, -, hstep⟩ := bind_eq_ok hstep
    cases hstep
    exact ((hrest rfl).control (stopTraffic_control hstop)).control ⟨rfl, rfl, rfl, rfl, rfl⟩
  | flowSync time =>
    cases hstep
    refine ⟨?_, ?_, hquit, h.state⟩
    · intro hp
      cases hp
    · intro hterm _
      obtain ⟨time', hmem⟩ := h.exit hterm (by rw [hphase]; decide)
      rcases (mem_marks_erase hk rfl).mp hmem with hc | hmem
      · cases hc
      · exact ⟨time', hmem⟩
  | exitSched time => exact steered_close hquit h.state hstep

theorem Steered.endSync {time : Rat} (h : c.Steered) (hphase : c.phase = .sync time)
    (hstep : TrexStatelessDpCore.endSync time c = .ok c') : c'.Steered := by
  unfold TrexStatelessDpCore.endSync at hstep
  split at hstep
  · exact steered_close h.quit h.state hstep
  · cases hstep
    refine ⟨fun _ => ⟨_, mem_cons_self⟩, ?_, ?_, h.state⟩
    · intro hterm _
      obtain ⟨time', hmem⟩ := h.exit hterm (by rw [hphase]; exact Phase.noConfusion)
      exact ⟨time', mem_cons_of_mem _ hmem⟩
    · intro time' hmem
      rcases mem_cons.mp hmem with hc | hmem
      · cases hc
      · exact h.quit time' hmem

/-- **Every step keeps the marks right.** -/
theorem Steered.step (h : c.Steered) (hen : c.Enabled a) (hstep : c.step a = .ok c') :
    c'.Steered := by
  cases a with
  | msg m => exact h.msg hen.1 hstep
  | leaveIdle => exact h.leaveIdle hen.1 hstep
  | pop k =>
    obtain ⟨hphase, qnode, hk, -⟩ := hen
    unfold TrexStatelessDpCore.step at hstep
    simp only [hk] at hstep
    exact h.pop hk hphase hstep
  | endSync =>
    obtain ⟨time, hphase⟩ := hen
    unfold TrexStatelessDpCore.step at hstep
    simp only [hphase] at hstep
    exact h.endSync hphase hstep

/-! ## 3. The ports that run -/

/-- Every port that is not idle has an active stream. -/
def Running (c : TrexStatelessDpCore) : Prop :=
  ∀ i, (c.ports i).state ≠ .ppSTATE_IDLE → 0 < (c.ports i).activeStreams

/-- A start brings a stream that starts by itself. -/
def Act.StartsStream : Act → Prop
  | .msg (.start obj _ _) => ∃ s ∈ obj.objs, s.selfStart = true
  | _ => True

theorem Running.quiet (h : c.Running) (hq : Quiet c c') : c'.Running := by
  intro i hi
  rw [hq.state] at hi
  rcases hq.count i (h i hi) with hpos | hidle
  · exact hpos
  · rw [hq.state] at hidle
    exact absurd hidle hi

theorem Running.halted {j : UInt8} (h : c.Running) (hh : Halted j c c') : c'.Running := by
  intro i hi
  by_cases hij : i = j
  · subst hij
    exact absurd hh.after hi
  · rw [hh.others i hij] at hi ⊢
    exact h i hi

theorem Running.switched {j : UInt8} {before after : PortState} (h : c.Running)
    (hbefore : before ≠ .ppSTATE_IDLE) (hs : Switched j before after c c') : c'.Running := by
  intro i hi
  by_cases hij : i = j
  · subst hij
    rw [hs.after]
    exact h i (by rw [hs.before]; exact hbefore)
  · rw [hs.others i hij] at hi ⊢
    exact h i hi

theorem Running.step (h : c.Running) (ha : a.StartsStream) (hstep : c.step a = .ok c') :
    c'.Running := by
  cases (step_effect hstep).1 with
  | start hs =>
    rename_i obj duration eventId
    intro i hi
    by_cases hij : i = obj.portId
    · subst hij
      obtain ⟨-, -, -, -, -, hcount⟩ := startTraffic_control hstep
      obtain ⟨s, hs, hself⟩ := ha
      rw [hcount]
      exact length_pos_of_mem (mem_filter.mpr ⟨hs, hself⟩)
    · rw [hs.others i hij] at hi ⊢
      exact h i hi
  | pause hs => exact h.switched (by decide) hs
  | resume hs => exact h.switched (by decide) hs
  | update hq _ => exact h.quiet hq
  | quit hq _ => exact h.quiet hq
  | noStop heq _ =>
    rw [heq]
    exact h
  | stop hh _ _ => exact h.halted hh
  | internal _ hq _ => exact h.quiet hq
  | streams _ _ _ hh _ => exact h.halted hh
  | duration _ _ hh _ => exact h.halted hh

/-- No start comes after the message to quit. -/
def Act.BeforeQuit (c : TrexStatelessDpCore) : Act → Prop
  | .msg (.start _ _ _) => c.terminated = false
  | _ => True

/-- A core that is to quit does not start again. -/
def Quitting (c : TrexStatelessDpCore) :
    Prop := c.terminated = true → c.phase ≠ .ended → c.state = .STATE_TERMINATE

theorem Quitting.same (h : c.Quitting) (hphase : c.phase ≠ .ended)
    (hterm : c'.terminated = c.terminated) (hstate : c'.state = c.state) : c'.Quitting := by
  intro ht _
  rw [hstate]
  exact h (hterm ▸ ht) hphase

theorem Quitting.control (h : c.Quitting) (hphase : c.phase ≠ .ended) (hsame : SameControl c c') :
    c'.Quitting :=
  h.same hphase hsame.terminated hsame.state

theorem quitting_close (hstep : closeScheduler c = .ok c') : c'.Quitting := by
  intro ht hne
  rcases closeScheduler_control hstep with ⟨-, rfl⟩ | ⟨-, hterm, -, -, hphase⟩
  · exact absurd rfl hne
  · rw [hphase, ← hterm, if_pos ht] at hne
    exact absurd rfl hne

theorem Quitting.step (h : c.Quitting) (ha : a.BeforeQuit c) (hen : c.Enabled a)
    (hstep : c.step a = .ok c') : c'.Quitting := by
  cases a with
  | msg m =>
    have hphase : c.phase ≠ .ended := hen.2
    cases m with
    | start obj duration eventId =>
      obtain ⟨-, -, hterm, -, -, -⟩ := startTraffic_control hstep
      intro ht
      rw [hterm, show c.terminated = false from ha] at ht
      cases ht
    | stop cmd => exact h.control hphase (stopTraffic_control hstep)
    | pause i => exact h.control hphase (pauseTraffic_control hstep)
    | resume i => exact h.control hphase (resumeTraffic_control hstep)
    | update i factor => exact h.control hphase (updateTraffic_control hstep)
    | quit =>
      cases hstep
      exact fun _ _ => rfl
  | leaveIdle =>
    have hphase : c.phase ≠ .ended := by
      rw [hen.1]
      decide
    unfold TrexStatelessDpCore.step at hstep
    dsimp only at hstep
    split at hstep
    · cases hstep
      exact h.same hphase rfl rfl
    · cases hstep
      exact h.same hphase rfl rfl
  | pop k =>
    obtain ⟨hsched, qnode, hk, -⟩ := hen
    have hphase : c.phase ≠ .ended := by
      rw [hsched]
      decide
    have hrest : ({ c with queue := c.queue.eraseIdx k } : TrexStatelessDpCore).Quitting :=
      h.same hphase rfl rfl
    unfold TrexStatelessDpCore.step at hstep
    simp only [hk] at hstep
    cases qnode with
    | stateless p => exact hrest.control hphase (popStateless_control hstep)
    | command time cmd =>
      obtain ⟨c1, hstop, hstep⟩ := bind_eq_ok hstep
      obtain ⟨_, -, hstep⟩ := bind_eq_ok hstep
      cases hstep
      have hsame := stopTraffic_control hstop
      exact hrest.same hphase hsame.terminated hsame.state
    | flowSync time =>
      cases hstep
      exact h.same hphase rfl rfl
    | exitSched time => exact quitting_close hstep
  | endSync =>
    obtain ⟨time, hsync⟩ := hen
    unfold TrexStatelessDpCore.step at hstep
    simp only [hsync] at hstep
    unfold TrexStatelessDpCore.endSync at hstep
    split at hstep
    · exact quitting_close hstep
    · cases hstep
      refine h.same ?_ rfl rfl
      rw [hsync]
      exact Phase.noConfusion

/-! ## 4. Runs -/

/-- The states that a core reaches by steps that are allowed. -/
inductive ReachableBy (allowed : TrexStatelessDpCore → Act → Prop) : TrexStatelessDpCore → Prop
  | init {c : TrexStatelessDpCore} : c.Initial → ReachableBy allowed c
  | step {c c' : TrexStatelessDpCore} {a : Act} : ReachableBy allowed c → allowed c a →
      c.Enabled a →
      c.step a = .ok c' → ReachableBy allowed c'

variable {allowed : TrexStatelessDpCore → Act → Prop}

theorem ReachableBy.reachable (h : ReachableBy allowed c) : c.Reachable := by
  induction h with
  | init hinit => exact .init hinit
  | step _ _ hen hstep ih => exact .step ih hen hstep

theorem Initial.steered (h : c.Initial) : c.Steered := by
  have hmarks : c.marks = [] := by
    rw [marks, h.queue]
    rfl
  constructor
  · rw [h.phase]
    intro hp
    cases hp
  · rw [h.terminated]
    intro ht
    cases ht
  · rw [hmarks]
    intro time hmem
    cases hmem
  · rw [h.state]
    intro hs
    cases hs

theorem ReachableBy.steered (h : ReachableBy allowed c) : c.Steered := by
  induction h with
  | init hinit => exact hinit.steered
  | step _ _ hen hstep ih => exact ih.step hen hstep

theorem ReachableBy.running (h : ReachableBy allowed c)
    (hall : ∀ c a, allowed c a → a.StartsStream) :
    c.Running := by
  induction h with
  | init hinit => exact fun i hi => absurd (hinit.ports i).1 hi
  | step _ ha _ hstep ih => exact ih.step (hall _ _ ha) hstep

theorem ReachableBy.quitting (h : ReachableBy allowed c)
    (hall : ∀ c a, allowed c a → a.BeforeQuit c) :
    c.Quitting := by
  induction h with
  | init hinit =>
    intro ht
    rw [hinit.terminated] at ht
    cases ht
  | step _ ha hen hstep ih => exact ih.step (hall _ _ ha) hen hstep

/-- Steps, one after the other, as long as they can be made. -/
def run (c : TrexStatelessDpCore) : List Act → Option TrexStatelessDpCore
  | [] => some c
  | a :: rest => if c.Enabled a then (c.step a).toOption.bind fun c' => run c' rest else none

theorem ReachableBy.run (hall : ∀ c a, allowed c a) :
    ∀ {acts : List Act} {c c' : TrexStatelessDpCore},
    ReachableBy allowed c → c.run acts = some c' → ReachableBy allowed c'
  | [], c, c', hc, h => by
    cases h
    exact hc
  | a :: rest, c, c', hc, h => by
    unfold TrexStatelessDpCore.run at h
    split at h
    · rename_i hen
      obtain ⟨c1, hstep, h⟩ := Option.bind_eq_some_iff.mp h
      exact (hc.step (hall c a) hen (toOption_eq_some hstep)).run hall h
    · cases h

/-- Only delayed stops are in the queue. -/
def OnlyCommands (c : TrexStatelessDpCore) :
    Prop := ∀ x ∈ c.queue, ∃ time cmd, x = .command time cmd

theorem onlyCommands_iff (hcount : CommandsOk c) :
    c.queue.length = c.nonActiveNodes ↔ c.OnlyCommands := by
  have hsome : ∀ x : QueueNode, x.cmd?.isSome = true ↔ ∃ time cmd, x = .command time cmd := by
    intro x
    cases x <;> simp [QueueNode.cmd?]
  rw [hcount, commands, eq_comm, filterMap_length_eq_length]
  exact forall_congr' fun x => forall_congr' fun _ => hsome x

/-- No port has an active stream when only delayed stops are left. -/
theorem Accounted.noActive (h : c.Accounted) (honly : c.OnlyCommands) (i : UInt8) :
    (c.ports i).activeStreams = 0 := by
  rw [h.count, countP_eq_zero]
  intro p hp hactive
  rw [Option.any_eq_true] at hactive
  obtain ⟨node, hnode, hstate⟩ := hactive
  have hone := h.active p node hnode (of_decide_eq_true hstate)
  have hmem : .stateless p ∈ c.queue := by
    rw [← count_pos_iff, hone]
    exact Nat.one_pos
  obtain ⟨time, cmd, hc⟩ := honly _ hmem
  cases hc

/-- What the end of a `FLOW_SYNC` node does. -/
structure SyncEnds (c c' : TrexStatelessDpCore) : Prop where
  /-- The scheduler ends when only delayed stops are left. -/
  ends : c'.phase = .idleLoop ↔ c.OnlyCommands
  goesOn : ¬ c.OnlyCommands → c'.phase = .scheduler
  /-- Then the core is idle, nothing is left in the queue, and no port has an active stream. -/
  idle : c.OnlyCommands → c'.state = .STATE_IDLE ∧ c'.queue = [] ∧ c'.nonActiveNodes = 0 ∧
    ∀ i, (c.ports i).activeStreams = 0

theorem endSync_ends (hsteered : c.Steered) (hinv : c.Inv) (hcount : CommandsOk c) {time : Rat}
    (hphase : c.phase = .sync time) : ∃ c', c.step .endSync = .ok c' ∧ SyncEnds c c' := by
  have hpost := step_post hinv hcount (a := .endSync) ⟨time, hphase⟩
  obtain ⟨c', hstep⟩ : ∃ c', c.step .endSync = .ok c' := by
    cases hres : c.step .endSync with
    | error fault => exact (hpost.fault hres).elim
    | ok c' => exact ⟨c', rfl⟩
  refine ⟨c', hstep, ?_⟩
  have hcount' := (step_effect hstep).2 hcount
  unfold step at hstep
  simp only [hphase] at hstep
  unfold TrexStatelessDpCore.endSync at hstep
  split at hstep
  · rename_i hlen
    have honly := (onlyCommands_iff hcount).mp hlen
    -- an `EXIT_SCHED` node would be in the queue
    have hterm : c.terminated = false := by
      cases ht : c.terminated with
      | false => rfl
      | true =>
        obtain ⟨time', hmem⟩ := hsteered.exit ht (by rw [hphase]; exact Phase.noConfusion)
        obtain ⟨_, _, hc⟩ := honly _ (mem_of_mem_filter hmem)
        cases hc
    rcases closeScheduler_control hstep with ⟨hs, -⟩ | ⟨-, -, hidle, hqueue, hphase'⟩
    · rw [hsteered.state hs] at hterm
      cases hterm
    · rw [hterm] at hphase'
      refine ⟨⟨fun _ => honly, fun _ => hphase'⟩, fun hnot => absurd honly hnot, fun _ =>
        ⟨hidle, hqueue, ?_, ?_⟩⟩
      · rw [hcount', commands, hqueue]
        rfl
      · exact hinv.accounted.noActive honly
  · rename_i hlen
    have hnot := mt (onlyCommands_iff hcount).mpr hlen
    cases hstep
    refine ⟨⟨?_, fun honly => absurd honly hnot⟩, fun _ => rfl, fun honly => absurd honly hnot⟩
    intro hp
    cases hp

/-- The assertion of `remove_all` can fail at an `EXIT_SCHED` node only, in a core that has started
again. -/
theorem maskForFree_exit (hinv : c.Inv) (hcount : CommandsOk c) (hen : c.Enabled a)
    (hfault : c.step a = .error .maskForFree) :
    ∃ time, .exitSched time ∈ c.marks ∧ c.state ≠ .STATE_TERMINATE := by
  have hstepFault := (step_post hinv hcount hen).fault hfault
  cases a with
  | msg m =>
    cases m with
    | start obj duration eventId =>
        rcases hstepFault with ⟨hf, -⟩ | ⟨hf, -⟩ | ⟨hf, -⟩ | ⟨hf, -⟩ <;> cases hf
    | stop cmd => cases hstepFault.1
    | pause j => rcases hstepFault with ⟨hf, -⟩ | ⟨hf, -⟩ <;> cases hf
    | resume j => rcases hstepFault with ⟨hf, -⟩ | ⟨hf, -⟩ <;> cases hf
    | update j factor => rcases hstepFault with ⟨hf, -⟩ | ⟨hf, -⟩ <;> cases hf
    | quit => exact hstepFault.elim
  | leaveIdle => exact hstepFault.elim
  | endSync => exact hstepFault.elim
  | pop k =>
    obtain ⟨-, qnode, hk, -⟩ := hen
    have hperm := perm_eraseIdx hk
    unfold step at hfault
    simp only [hk] at hfault
    cases qnode with
    | stateless p => exact ((popStateless_post hinv hperm).fault hfault).elim
    | command time cmd =>
      have hport := hinv.commandPort time cmd (hperm.mem_iff.mpr mem_cons_self)
      have hpos : 0 < c.nonActiveNodes := by
        rw [hcount, commands, (hperm.filterMap QueueNode.cmd?).length_eq]
        exact Nat.succ_pos _
      exact ((popCommand_post (hinv.erase hk rfl) hport hpos).fault hfault).elim
    | flowSync time => cases hfault
    | exitSched time =>
      refine ⟨time, (mem_marks_erase hk rfl).mpr (Or.inl rfl), ?_⟩
      intro hs
      unfold popNode closeScheduler at hfault
      rw [if_pos hs] at hfault
      cases hfault

/-- **The scheduler ends when it has nothing to do**, in every run of a core, whatever messages it
gets: there is a node when the scheduler takes one, the counter of the delayed stops is right and
does not go below 0, and a `FLOW_SYNC` node ends the scheduler when only delayed stops are left,
which leaves no port with an active stream.  If every start brings a stream that starts by itself,
every port is idle then; and if no start comes after the message to quit, the assertion of
`remove_all` holds. -/
theorem scheduler_quiescence (c : TrexStatelessDpCore) (h : ReachableBy allowed c) :
    (c.phase = .scheduler → c.queue ≠ []) ∧
    c.nonActiveNodes = c.commands.length ∧
    (∀ a, c.Enabled a → c.step a ≠ .error .nonActiveNodes) ∧
    (∀ time, c.phase = .sync time → ∃ c', c.step .endSync = .ok c' ∧ SyncEnds c c' ∧
      ((∀ c a, allowed c a → a.StartsStream) → c.OnlyCommands →
        ∀ i, (c.ports i).state = .ppSTATE_IDLE)) ∧
    ((∀ c a, allowed c a → a.BeforeQuit c) → ∀ a, c.Enabled a →
        c.step a ≠ .error .maskForFree) := by
  obtain ⟨hinv, hcount⟩ := h.reachable.inv
  have hsteered := h.steered
  refine ⟨?_, hcount, ?_, ?_, ?_⟩
  · intro hphase hnil
    obtain ⟨time, hmem⟩ := hsteered.sync hphase
    rw [marks, hnil] at hmem
    cases hmem
  · intro a hen hfault
    exact ((step_post hinv hcount hen).fault hfault).not_accounting (by decide)
  · intro time hphase
    obtain ⟨c', hstep, hends⟩ := endSync_ends hsteered hinv hcount hphase
    refine ⟨c', hstep, hends, ?_⟩
    intro hall honly i
    by_contra hne
    have hpos := h.running hall i hne
    have hzero := hinv.accounted.noActive honly i
    omega
  · intro hall a hen hfault
    obtain ⟨time, hexit, hstate⟩ := maskForFree_exit hinv hcount hen hfault
    refine hstate (h.quitting hall (hsteered.quit time hexit) ?_)
    intro hended
    cases a with
    | msg m => exact hen.2 hended
    | leaveIdle =>
      rw [hen.1] at hended
      cases hended
    | pop k =>
      rw [hen.1] at hended
      cases hended
    | endSync =>
      obtain ⟨time', hphase⟩ := hen
      rw [hphase] at hended
      cases hended

/-- A burst of one packet, for ten seconds. -/
def burstOfOne : CpToDpMsg :=
  .start ⟨0, [⟨.stSINGLE_BURST, 0, 0, 0, -1, true, true, {}, none, ⟨[], 0⟩, 1, 1, 1, 0⟩],
    false⟩ 10 0

/-- The packet is sent, and the `FLOW_SYNC` node is reached. -/
def burstOfOneActs : List Act := [.msg burstOfOne, .leaveIdle, .pop 2, .pop 0]

theorem scheduler_quiescence_burst : ∃ c c', ReachableBy (fun _ _ => True) c ∧
    c.commands = [⟨0, true, 0⟩] ∧
    c.step .endSync = .ok c' ∧ c'.phase = .idleLoop ∧ c'.nonActiveNodes = 0 := by
  have hrun : (freshCore.run burstOfOneActs).map (fun c => (c.phase, c.queue)) =
      some (.sync (1 / 1000), [.command 10 ⟨0, true, 0⟩]) := by decide +kernel
  obtain ⟨c, hc, heq⟩ := Option.map_eq_some_iff.mp hrun
  obtain ⟨hphase, hqueue⟩ := Prod.mk.inj heq
  have hreach : ReachableBy (fun _ _ => True) c :=
    (ReachableBy.init freshCore_initial).run (fun _ _ => trivial) hc
  obtain ⟨-, -, -, hsync, -⟩ := scheduler_quiescence c hreach
  obtain ⟨c', hstep, hends, -⟩ := hsync _ hphase
  have honly : c.OnlyCommands := by
    intro x hx
    rw [hqueue, mem_singleton] at hx
    exact ⟨_, _, hx⟩
  refine ⟨c, c', hreach, ?_, hstep, hends.ends.mpr honly, (hends.idle honly).2.2.1⟩
  rw [commands, hqueue]
  rfl

/-- The scheduler ends although the delayed stop of the burst is pending. -/
theorem scheduler_ends_pending : ∃ c c' : TrexStatelessDpCore, c.Reachable ∧ c.Enabled .endSync ∧
    c.step .endSync = .ok c' ∧
    c'.phase = .idleLoop ∧ c'.state = .STATE_IDLE ∧ ∃ cmd, cmd ∈ c.commands := by
  have hrun : ((freshCore.run burstOfOneActs).bind fun c => (c.step .endSync).toOption.map fun c' =>
      (c.phase, c.commands, c'.phase, c'.state)) =
      some (.sync (1 / 1000), [⟨0, true, 0⟩], .idleLoop, .STATE_IDLE) := by decide +kernel
  obtain ⟨c, hc, hend⟩ := Option.bind_eq_some_iff.mp hrun
  obtain ⟨c', hstep, heq⟩ := Option.map_eq_some_iff.mp hend
  obtain ⟨hphase, heq⟩ := Prod.mk.inj heq
  obtain ⟨hcommands, heq⟩ := Prod.mk.inj heq
  obtain ⟨hphase', hstate⟩ := Prod.mk.inj heq
  have hreach : ReachableBy (fun _ _ => True) c :=
    (ReachableBy.init freshCore_initial).run (fun _ _ => trivial) hc
  refine ⟨c, c', hreach.reachable, ⟨_, hphase⟩, toOption_eq_some hstep, hphase', hstate,
    ⟨0, true, 0⟩, ?_⟩
  rw [hcommands]
  exact mem_singleton_self _

/-- A start whose only stream waits for another one to start it. -/
def notSelfStarted : CpToDpMsg :=
  .start ⟨0, [⟨.stSINGLE_BURST, 0, 0, 0, -1, true, false, {}, none, ⟨[], 0⟩, 1, 1, 1, 0⟩],
    false⟩ 10 0

/-- **A start without a stream that starts by itself** leaves its port behind: the scheduler ends
while the port is still transmitting. -/
theorem ends_transmitting :
    (freshCore.run [.msg notSelfStarted, .leaveIdle, .pop 0, .endSync]).map
      (fun c => (c.phase, c.state, (c.ports 0).state)) =
        some (.idleLoop, .STATE_IDLE, .ppSTATE_TRANSMITTING) := by
  decide +kernel

/-- A burst of two packets, a second apart. -/
def burstOfTwo : CpToDpMsg :=
  .start ⟨0, [⟨.stSINGLE_BURST, 0, 0, 0, -1, true, true, {}, none, ⟨[], 0⟩, 1, 2, 1, 0⟩],
    false⟩ 10 0

/-- **A start after the message to quit**: the `EXIT_SCHED` node finds a core that transmits again,
and frees a stream that is active. -/
theorem start_after_quit_asserts :
    ((freshCore.run [.msg .quit, .msg burstOfTwo, .leaveIdle, .pop 2]).filter
      fun c => c.Enabled (.pop 3)).map (fun c => (c.step (.pop 3)).map fun _ => ()) =
        some (.error .maskForFree) := by
  decide +kernel

end TrexStatelessDpCore

end Trex.Dp
