/-
# The nodes of a data-plane core go back

The nodes of a core are in its queue, in the lists of its ports, or in both: an active node is freed
when the scheduler reaches it, an inactive one when its port stops.  `NodesKept` says that this
frees every node once, for as long as the master does not end the thread.  When it does,
`start_scheduler` bails out without `close_file`, and what is in the queue is lost.
-/
import Trex.Dp.Quiesce

namespace Trex.Dp

open Trex.Lib Trex.Stream

namespace TrexStatelessDpCore

variable {c c' : TrexStatelessDpCore} {p : Ptr}

/-! ## 1. A node that was returned -/

/-- A start makes nodes at addresses that were not used before. -/
theorem addStreams_made (i : UInt8) (ss : List TrexStream) {c c' : TrexStatelessDpCore}
    (h : addStreams i ss c = .ok c') {p : Ptr} (hp : p < c.fresh) (hnone : c.heap p = none) :
    c'.heap p = none := by
  induction ss generalizing c with
  | nil =>
    cases h
    exact hnone
  | cons s ss ih =>
    rw [addStreams] at h
    obtain ⟨u, -, h⟩ := bind_eq_ok h
    rw [addStream_eq] at h
    refine ih h (Nat.lt_succ_of_lt hp) ?_
    have hne : p ≠ c.fresh := Nat.ne_of_lt hp
    simpa [Function.update_of_ne hne] using hnone

theorem Kept.none {heap heap' : Ptr → Option CGenNodeStateless} (h : Kept heap heap')
    (hp : heap p = none) :
    heap' p = none := by
  cases hp' : heap' p with
  | none => rfl
  | some node' =>
    obtain ⟨node, hnode, -⟩ := h p node' hp'
    rw [hp] at hnode
    cases hnode

/-- **A node that was returned stays returned.** -/
theorem step_returned {a : Act} (hstep : c.step a = .ok c') (hp : p < c.fresh)
    (hnone : c.heap p = none) :
    c'.heap p = none := by
  cases (step_effect hstep).1 with
  | start hstart =>
    obtain ⟨port, hport, h⟩ := bind_eq_ok hstep
    obtain ⟨_, -, h⟩ := bind_eq_ok h
    obtain ⟨c1, hadd, h⟩ := bind_eq_ok h
    obtain ⟨_, -, h⟩ := bind_eq_ok h
    obtain ⟨c2, hlink, h⟩ := bind_eq_ok h
    cases h
    have h1 : c1.heap p = none := addStreams_made _ _ hadd hp hnone
    obtain ⟨heap2, hkept, rfl⟩ := linkStreams_effect _ hlink
    have h2 := hkept.none h1
    unfold addPortDuration
    split
    · exact h2
    · exact h2
  | pause hs => exact hs.kept.none hnone
  | resume hs => exact hs.kept.none hnone
  | update hq _ => exact hq.kept.none hnone
  | quit hq _ => exact hq.kept.none hnone
  | noStop heq _ =>
    rw [heq]
    exact hnone
  | stop hh _ _ => exact hh.kept.none hnone
  | internal _ hq _ => exact hq.kept.none hnone
  | streams _ _ _ hh _ => exact hh.kept.none hnone
  | duration _ _ hh _ => exact hh.kept.none hnone

/-! ## 2. A thread that is not ended -/

/-- The master does not end the thread. -/
def Act.NoQuit : Act → Prop
  | .msg .quit => False
  | _ => True

instance (a : Act) : Decidable a.NoQuit :=
  match a with
  | .msg .quit => .isFalse id
  | .msg (.start _ _ _) => .isTrue trivial
  | .msg (.stop _) => .isTrue trivial
  | .msg (.pause _) => .isTrue trivial
  | .msg (.resume _) => .isTrue trivial
  | .msg (.update _ _) => .isTrue trivial
  | .leaveIdle => .isTrue trivial
  | .pop _ => .isTrue trivial
  | .endSync => .isTrue trivial

/-- The thread goes on. -/
structure GoesOn (c : TrexStatelessDpCore) : Prop where
  terminated : c.terminated = false
  phase : c.phase ≠ .ended

theorem GoesOn.control (h : c.GoesOn) (hsame : SameControl c c') : c'.GoesOn :=
  ⟨hsame.terminated.trans h.terminated, fun hp => h.phase (hsame.phase ▸ hp)⟩

/-- The scheduler ends: the queue is empty, and the core is idle. -/
theorem GoesOn.close (h : c.GoesOn) (hsteered : c.state = .STATE_TERMINATE → c.terminated = true)
    (hstep : closeScheduler c = .ok c') : c'.GoesOn ∧ c'.queue = [] := by
  rcases closeScheduler_control hstep with ⟨hs, -⟩ | ⟨-, hterm, -, hqueue, hphase⟩
  · have hquit := hsteered hs
    rw [h.terminated] at hquit
    cases hquit
  · refine ⟨⟨hterm.trans h.terminated, ?_⟩, hqueue⟩
    rw [hphase, h.terminated]
    exact Phase.noConfusion

/-- **Every step but the message to quit lets the thread go on**, and when the scheduler ends
nothing is left in the queue. -/
theorem GoesOn.step (h : c.GoesOn) (hsteered : c.Steered) {a : Act} (ha : a.NoQuit)
    (hen : c.Enabled a) (hstep : c.step a = .ok c') :
    c'.GoesOn ∧ (c.phase ≠ .idleLoop → c'.phase = .idleLoop → c'.queue = []) := by
  have hsame : SameControl c c' → c'.GoesOn ∧
      (c.phase ≠ .idleLoop → c'.phase = .idleLoop → c'.queue = []) := by
    intro hs
    refine ⟨h.control hs, ?_⟩
    intro hne hidle
    exact absurd (hs.phase.symm.trans hidle) hne
  cases a with
  | msg m =>
    cases m with
    | start obj duration eventId =>
      obtain ⟨hphase, -, hterm, -⟩ := startTraffic_control hstep
      refine ⟨⟨hterm.trans h.terminated, fun hp => h.phase (hphase ▸ hp)⟩, ?_⟩
      intro hne hidle
      exact absurd (hphase.symm.trans hidle) hne
    | stop cmd => exact hsame (stopTraffic_control hstep)
    | pause i => exact hsame (pauseTraffic_control hstep)
    | resume i => exact hsame (resumeTraffic_control hstep)
    | update i factor => exact hsame (updateTraffic_control hstep)
    | quit => exact ha.elim
  | leaveIdle =>
    unfold TrexStatelessDpCore.step at hstep
    dsimp only at hstep
    split at hstep
    · rename_i hs
      have := hsteered.state hs
      rw [h.terminated] at this
      cases this
    · cases hstep
      exact ⟨⟨h.terminated, Phase.noConfusion⟩, fun hne => absurd hen.1 hne⟩
  | pop k =>
    obtain ⟨hphase, qnode, hk, -⟩ := hen
    unfold TrexStatelessDpCore.step at hstep
    simp only [hk] at hstep
    have hsched : ∀ {c1 : TrexStatelessDpCore},
        SameControl ({ c with queue := c.queue.eraseIdx k } : TrexStatelessDpCore) c1 →
        c1.GoesOn ∧ (c.phase ≠ .idleLoop → c1.phase = .idleLoop → c1.queue = []) := by
      intro c1 hs
      refine ⟨⟨hs.terminated.trans h.terminated, fun hp => h.phase (hs.phase ▸ hp)⟩, ?_⟩
      intro hne hidle
      exact absurd (hs.phase.symm.trans hidle) hne
    cases qnode with
    | stateless p => exact hsched (popStateless_control hstep)
    | command time cmd =>
      obtain ⟨c1, hstop, hstep⟩ := bind_eq_ok hstep
      obtain ⟨_, -, hstep⟩ := bind_eq_ok hstep
      cases hstep
      exact hsched ((stopTraffic_control hstop).trans ⟨rfl, rfl, rfl, rfl, rfl⟩)
    | flowSync time =>
      cases hstep
      exact ⟨⟨h.terminated, Phase.noConfusion⟩, nofun⟩
    | exitSched time =>
      have hmark : .exitSched time ∈ c.marks := (mem_marks_erase hk rfl).mpr (Or.inl rfl)
      have := hsteered.quit time hmark
      rw [h.terminated] at this
      cases this
  | endSync =>
    obtain ⟨time, hphase⟩ := hen
    unfold TrexStatelessDpCore.step at hstep
    simp only [hphase] at hstep
    unfold TrexStatelessDpCore.endSync at hstep
    split at hstep
    · obtain ⟨hgo, hqueue⟩ := h.close hsteered.state hstep
      exact ⟨hgo, fun _ _ => hqueue⟩
    · cases hstep
      exact ⟨⟨h.terminated, Phase.noConfusion⟩, nofun⟩

theorem ReachableBy.goesOn (h : ReachableBy (fun _ a => a.NoQuit) c) : c.GoesOn := by
  induction h with
  | init hinit =>
    refine ⟨hinit.terminated, ?_⟩
    rw [hinit.phase]
    exact Phase.noConfusion
  | step hc ha hen hstep ih => exact (ih.step hc.steered ha hen hstep).1

/-! ## 3. The nodes -/

/-- **The nodes of a core are freed once each.**  A node that is in use is freed by the scheduler,
which finds it in the queue once, or by its port, which lists it once, and never by both; nothing
refers to a node that was freed; and the scheduler leaves nothing behind when it ends. -/
structure NodesKept (c : TrexStatelessDpCore) : Prop where
  kept : ∀ p node, c.heap p = some node → c.queue.count (.stateless p) +
    (if node.state = .ssINACTIVE then (c.ports node.portId).activeNodes.count p else 0) = 1
  queued : ∀ p, .stateless p ∈ c.queue → ∃ node, c.heap p = some node
  listed : ∀ i p, p ∈ (c.ports i).activeNodes → ∃ node, c.heap p = some node
  noUse : ∀ a, c.Enabled a → c.step a ≠ .error .badPointer
  once : ∀ a c', c.step a = .ok c' → ∀ p < c.fresh, c.heap p = none → c'.heap p = none
  goesOn : c.phase ≠ .ended
  closed : ∀ a c', a.NoQuit → c.Enabled a → c.step a = .ok c' → c.phase ≠ .idleLoop →
    c'.phase = .idleLoop → c'.queue = []

theorem ReachableBy.nodesKept (h : ReachableBy (fun _ a => a.NoQuit) c) : c.NodesKept := by
  obtain ⟨hinv, hcount⟩ := h.reachable.inv
  have hgo := h.goesOn
  refine ⟨?_, ?_, ?_, ?_, ?_, hgo.phase, ?_⟩
  · intro p node hp
    have hqueue : c.queue.count (.stateless p) = (Pool.Scheduled (c.pool.status p)).toNat := by
      rw [count_stateless]
      exact hinv.pool.queued p
    have hnodes : (c.ports node.portId).activeNodes.count p = if c.pool.Owned node.portId p then 1
        else 0 :=
      hinv.pool.nodes node.portId p
    cases hs : node.state with
    | ssACTIVE =>
      rw [hqueue, status_running hp hs]
      rfl
    | ssFREE_RESUSE =>
      rw [hqueue, status_leaving hp hs]
      rfl
    | ssINACTIVE =>
      have howned : c.pool.Owned node.portId p := Or.inl (status_idle hp hs)
      rw [hqueue, hnodes, status_idle hp hs, if_pos rfl, if_pos howned]
      rfl
  · intro p hp
    obtain ⟨node, hnode, -⟩ := hinv.of_mem_queue hp
    exact ⟨node, hnode⟩
  · intro i p hp
    obtain ⟨node, hnode, -⟩ := hinv.of_mem_nodes hp
    exact ⟨node, hnode⟩
  · intro a hen hfault
    exact ((step_post hinv hcount hen).fault hfault).not_accounting (by decide)
  · intro a c' hstep p hp hnone
    exact step_returned hstep hp hnone
  · intro a c' ha hen hstep
    exact (hgo.step h.steered ha hen hstep).2

end TrexStatelessDpCore

end Trex.Dp
