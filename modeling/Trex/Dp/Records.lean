/-
# The records of a data-plane core

A core keeps three records of its nodes: the list and the counter of every port, and the priority
queue.  `pool` reads them, with the states of the nodes, as a `Trex.Lib.Pool`, and `Inv` says that
they agree and that the links between the nodes and the pause flags are as the code expects.  The
lemmas of this module say how a change of one node, with the records that follow it, keeps the
invariant.
-/
import Trex.Dp.Effect
import Trex.Lib.Pool

namespace Trex.Dp

open Trex.Lib Trex.Stream
open Function (update update_eq_self)

/-! ## 1. The records of a core -/

/-- What a node does, for its port. -/
def statusOf : Option CGenNodeStateless → Status UInt8
  | none => .absent
  | some node =>
    match node.state with
    | .ssFREE_RESUSE => .leaving
    | .ssINACTIVE => .idle node.portId
    | .ssACTIVE => .running node.portId

/-- The stateless nodes of a queue. -/
def QueueNode.ptr? : QueueNode → Option Ptr
  | .stateless p => some p
  | .command _ _ => none
  | .flowSync _ => none
  | .exitSched _ => none

namespace TrexStatelessDpCore

/-- The records of a core. -/
def pool (c : TrexStatelessDpCore) : Pool UInt8 Ptr :=
  { status := fun p => statusOf (c.heap p)
    nodes := fun i => (c.ports i).activeNodes
    count := fun i => (c.ports i).activeStreams
    queued := c.queue.filterMap QueueNode.ptr? }

/-- What the state of a port says about the pause flags of its nodes. -/
def modeOk : PortState → Bool → Prop
  | .ppSTATE_IDLE, _ => False
  | .ppSTATE_TRANSMITTING, pause => pause = false
  | .ppSTATE_PAUSE, pause => pause = true

/-- A node by itself. -/
structure NodeOk (localPortOffset : UInt8) (node : CGenNodeStateless) : Prop where
  type : node.streamType ≠ .stSINGLE_BURST
  port : HasPort localPortOffset node.portId
  free : node.state = .ssFREE_RESUSE → node.nextStream = none
  info : node.state ≠ .ssFREE_RESUSE → ∃ info, node.refStreamInfo = some info

/-- The records of a core, its links and the stop commands in its queue are as they should be, and
so are the pause flags of the nodes of every port. -/
structure InvFor (mode : UInt8 → Bool → Prop) (c : TrexStatelessDpCore) : Prop where
  pool : c.pool.Ok
  fresh : ∀ p, c.fresh ≤ p → c.heap p = none
  node : ∀ p node, c.heap p = some node → NodeOk c.localPortOffset node
  next : ∀ p node q, c.heap p = some node → node.nextStream = some q → c.pool.Owned node.portId q
  mode : ∀ p node, c.heap p = some node → node.state ≠ .ssFREE_RESUSE → mode node.portId node.pause
  commandPort : ∀ time cmd, .command time cmd ∈ c.queue → HasPort c.localPortOffset cmd.portId

/-- **The invariant of a core**: the pause flags are what the states of the ports say. -/
abbrev Inv (c : TrexStatelessDpCore) :
    Prop := c.InvFor fun i pause => modeOk (c.ports i).state pause

variable {c : TrexStatelessDpCore} {p : Ptr} {node : CGenNodeStateless} {i : UInt8}
  {mode : UInt8 → Bool → Prop}

theorem status_some (h : c.heap p = some node) : c.pool.status p = statusOf (some node) :=
  congrArg statusOf h

theorem status_running (h : c.heap p = some node) (ha : node.state = .ssACTIVE) :
    c.pool.status p = .running node.portId := by
  rw [status_some h, statusOf, ha]

theorem status_idle (h : c.heap p = some node) (ha : node.state = .ssINACTIVE) :
    c.pool.status p = .idle node.portId := by
  rw [status_some h, statusOf, ha]

theorem status_leaving (h : c.heap p = some node) (ha : node.state = .ssFREE_RESUSE) :
    c.pool.status p = .leaving := by
  rw [status_some h, statusOf, ha]

/-- An object of a port is a node of the port that is not to be freed. -/
theorem owned_iff : c.pool.Owned i p
    ↔ ∃ node, c.heap p = some node ∧ node.portId = i ∧ node.state ≠ .ssFREE_RESUSE := by
  cases hp : c.heap p with
  | none => simp [Pool.Owned, pool, hp, statusOf]
  | some node => cases hs : node.state <;> simp [Pool.Owned, pool, hp, statusOf, hs]

theorem InvFor.of_mem_nodes (h : c.InvFor mode) (hp : p ∈ (c.ports i).activeNodes) :
    ∃ node, c.heap p = some node ∧ node.portId = i ∧ node.state ≠ .ssFREE_RESUSE :=
  owned_iff.mp (h.pool.mem_nodes.mp hp)

/-- A node that is scheduled is active, or is to be freed. -/
theorem InvFor.of_mem_queue (h : c.InvFor mode) (hp : .stateless p ∈ c.queue) :
    ∃ node, c.heap p = some node ∧ node.state ≠ .ssINACTIVE := by
  have hmem : p ∈ c.pool.queued := List.mem_filterMap.mpr ⟨_, hp, rfl⟩
  have hs := h.pool.mem_queued.mp hmem
  cases hheap : c.heap p with
  | none =>
    have hst : c.pool.status p = .absent := congrArg statusOf hheap
    rw [hst] at hs
    cases hs
  | some node =>
    refine ⟨node, rfl, fun hin => ?_⟩
    rw [status_idle hheap hin] at hs
    cases hs

/-- An idle port has no nodes. -/
theorem Inv.idle_nodes (h : c.Inv) (hidle : (c.ports i).state = .ppSTATE_IDLE) :
    (c.ports i).activeNodes = [] := by
  refine List.eq_nil_iff_forall_not_mem.mpr fun p hp => ?_
  obtain ⟨node, hheap, rfl, hs⟩ := h.of_mem_nodes hp
  have hmode := h.mode p node hheap hs
  rw [hidle] at hmode
  exact hmode

/-- A port without nodes counts none. -/
theorem InvFor.count_nil (h : c.InvFor mode) (hnil : (c.ports i).activeNodes = []) :
    (c.ports i).activeStreams = 0 := by
  have hcount := h.pool.count i
  change (c.ports i).activeStreams = ((c.ports i).activeNodes).countP _ at hcount
  rw [hcount, hnil]
  rfl

/-! ## 2. Changing one node -/

theorem pool_setNode (c : TrexStatelessDpCore) (p : Ptr) (node : CGenNodeStateless) :
    (c.setNode p node).pool
      = { c.pool with status := update c.pool.status p (statusOf (some node)) } := by
  have hstatus : (c.setNode p node).pool.status
      = update c.pool.status p (statusOf (some node)) := by
    funext q
    by_cases hq : q = p
    · subst hq
      simp [pool, setNode]
    · simp [pool, setNode, hq]
  rw [← hstatus]
  rfl

theorem pool_freeNode (c : TrexStatelessDpCore) (p : Ptr) :
    (c.freeNode p).pool = { c.pool with status := update c.pool.status p .absent } := by
  have hstatus : (c.freeNode p).pool.status = update c.pool.status p .absent := by
    funext q
    by_cases hq : q = p
    · subst hq
      simp [pool, freeNode, statusOf]
    · simp [pool, freeNode, hq]
  rw [← hstatus]
  rfl

theorem pool_setPort (c : TrexStatelessDpCore) (i : UInt8) (port : TrexStatelessDpPerPort) :
    (c.setPort i port).pool
      = { c.pool with
          nodes := update c.pool.nodes i port.activeNodes
          count := update c.pool.count i port.activeStreams } := by
  have hnodes : (c.setPort i port).pool.nodes
      = update c.pool.nodes i port.activeNodes := by
    funext j
    by_cases hj : j = i
    · subst hj
      simp [pool, setPort]
    · simp [pool, setPort, hj]
  have hcount : (c.setPort i port).pool.count
      = update c.pool.count i port.activeStreams := by
    funext j
    by_cases hj : j = i
    · subst hj
      simp [pool, setPort]
    · simp [pool, setPort, hj]
  rw [← hnodes, ← hcount]
  rfl

/-- **One node changes**, with the records of its port and the queue. -/
theorem InvFor.change {c' : TrexStatelessDpCore} (h : c.InvFor mode) (p : Ptr) (hpool : c'.pool.Ok)
    (hoff : c'.localPortOffset = c.localPortOffset) (hfresh : ∀ q, c'.fresh ≤ q → c'.heap q = none)
    (hheap : ∀ q ≠ p, c'.heap q = c.heap q) (howned : ∀ i q, c.pool.Owned i q → c'.pool.Owned i q)
    (hnode : ∀ node, c'.heap p = some node → NodeOk c.localPortOffset node)
    (hnext : ∀ node q, c'.heap p = some node → node.nextStream = some q →
      c'.pool.Owned node.portId q)
    (hmode : ∀ node, c'.heap p = some node → node.state ≠ .ssFREE_RESUSE →
      mode node.portId node.pause)
    (hport : ∀ time cmd, .command time cmd ∈ c'.queue → HasPort c.localPortOffset cmd.portId) :
    c'.InvFor mode := by
  refine ⟨hpool, hfresh, ?_, ?_, ?_, hoff ▸ hport⟩
  · intro q node hq
    rw [hoff]
    by_cases hqp : q = p
    · subst hqp
      exact hnode node hq
    · rw [hheap q hqp] at hq
      exact h.node q node hq
  · intro q node r hq hr
    by_cases hqp : q = p
    · subst hqp
      exact hnext node r hq hr
    · rw [hheap q hqp] at hq
      exact howned _ _ (h.next q node r hq hr)
  · intro q node hq hs
    by_cases hqp : q = p
    · subst hqp
      exact hmode node hq hs
    · rw [hheap q hqp] at hq
      exact h.mode q node hq hs

/-- A node with another state, time or counters. -/
structure Alike (node node' : CGenNodeStateless) : Prop where
  port : node'.portId = node.portId
  type : node'.streamType = node.streamType
  pause : node'.pause = node.pause
  info : node'.refStreamInfo = node.refStreamInfo
  next : node'.nextStream = node.nextStream

theorem InvFor.lt_fresh (h : c.InvFor mode) (hp : c.heap p = some node) : p < c.fresh := by
  by_contra hge
  rw [h.fresh p (Nat.le_of_not_lt hge)] at hp
  cases hp

theorem setNode_heap_ne {q : Ptr} (hq : q ≠ p) : (c.setNode p node).heap q = c.heap q := by
  simp [setNode, hq]

theorem setNode_heap_eq : (c.setNode p node).heap p = some node := by
  simp [setNode]

theorem InvFor.setNode_fresh (h : c.InvFor mode) {old : CGenNodeStateless}
    (hp : c.heap p = some old) :
    ∀ q, c.fresh ≤ q → (c.setNode p node).heap q = none := by
  intro q hq
  have hne : q ≠ p := by
    rintro rfl
    exact Nat.not_le_of_lt (h.lt_fresh hp) hq
  rw [setNode_heap_ne hne]
  exact h.fresh q hq

section Alike

variable {node' : CGenNodeStateless} (halike : Alike node node')

include halike

/-- A node that is listed and stays listed. -/
theorem setNode_owned (hp : c.heap p = some node) (hs : node.state ≠ .ssFREE_RESUSE)
    (hs' : node'.state ≠ .ssFREE_RESUSE) (j : UInt8) (q : Ptr) :
    (c.setNode p node').pool.Owned j q ↔ c.pool.Owned j q := by
  rw [owned_iff, owned_iff]
  by_cases hq : q = p
  · subst hq
    rw [setNode_heap_eq, hp]
    simp [hs, hs', halike.port]
  · rw [setNode_heap_ne hq]

variable {queue : List QueueNode}

/-- **One listed node changes its state**, with the counter of its port and the queue. -/
theorem InvFor.setAlike (h : c.InvFor mode) (hp : c.heap p = some node)
    (hs : node.state ≠ .ssFREE_RESUSE) (hs' : node'.state ≠ .ssFREE_RESUSE) {n : Nat}
    (hpool : ((({ c with queue := queue } : TrexStatelessDpCore).setNode p node').setPort
      node.portId { c.ports node.portId with activeStreams := n }).pool.Ok)
    (hmem : ∀ time cmd, .command time cmd ∈ queue → .command time cmd ∈ c.queue) :
    ((({ c with queue := queue } : TrexStatelessDpCore).setNode p node').setPort node.portId
      { c.ports node.portId with activeStreams := n }).InvFor mode := by
  have hok := h.node p node hp
  have howned := setNode_owned halike hp hs hs'
  have hheap : ∀ x, ((({ c with queue := queue } : TrexStatelessDpCore).setNode p node').setPort
      node.portId { c.ports node.portId with activeStreams := n }).heap p = some x → x = node' := by
    intro x hx
    exact Option.some.inj (hx.symm.trans setNode_heap_eq)
  refine h.change p hpool rfl (h.setNode_fresh hp) (fun q hq => setNode_heap_ne hq)
    (fun j q hj => (howned j q).mpr hj) (fun x hx => ?_) (fun x q hx hq => ?_)
    (fun x hx hfree => ?_) fun time cmd hc => h.commandPort time cmd (hmem time cmd hc)
  · rw [hheap x hx]
    refine ⟨halike.type ▸ hok.type, halike.port ▸ hok.port, fun hf => absurd hf hs', fun _ => ?_⟩
    rw [halike.info]
    exact hok.info hs
  · rw [hheap x hx, halike.next] at hq
    rw [hheap x hx, halike.port]
    exact (howned _ _).mpr (h.next p node q hp hq)
  · rw [hheap x hx, halike.port, halike.pause]
    exact h.mode p node hp hs

/-- A node that keeps its state, with the queue in another order. -/
theorem InvFor.touch (h : c.InvFor mode) (hp : c.heap p = some node)
    (hs : node.state ≠ .ssFREE_RESUSE) (hsame : node'.state = node.state)
    (hperm : c.queue.Perm queue) :
    (({ c with queue := queue } : TrexStatelessDpCore).setNode p node').InvFor mode := by
  have hself : (({ c with queue := queue } : TrexStatelessDpCore).setNode p node').setPort
      node.portId { c.ports node.portId with activeStreams := (c.ports node.portId).activeStreams }
      = ({ c with queue := queue } : TrexStatelessDpCore).setNode p node' := by
    simp [setPort, setNode]
  have hpool : (({ c with queue := queue } : TrexStatelessDpCore).setNode p node').pool.Ok := by
    have hstatus : statusOf (some node') = c.pool.status p := by
      rw [status_some hp]
      simp only [statusOf, hsame, halike.port]
    have heq : (({ c with queue := queue } : TrexStatelessDpCore).setNode p node').pool
        = { c.pool with queued := queue.filterMap QueueNode.ptr? } := by
      rw [pool_setNode]
      change { c.pool with
        status := update c.pool.status p (statusOf (some node'))
        queued := queue.filterMap QueueNode.ptr? } = _
      rw [hstatus, update_eq_self]
    rw [heq]
    exact h.pool.requeue (hperm.filterMap _)
  rw [← hself]
  refine h.setAlike halike hp hs (hsame ▸ hs) (hself.symm ▸ hpool)
    fun time cmd hmem => hperm.mem_iff.mpr hmem

/-- **A node finishes**: it is taken from the queue, and its port counts one less. -/
theorem InvFor.finish (h : c.InvFor mode) (hp : c.heap p = some node)
    (hs : node.state = .ssACTIVE) (hs' : node'.state = .ssINACTIVE)
    (hperm : c.queue.Perm (.stateless p :: queue)) :
    ((({ c with queue := queue } : TrexStatelessDpCore).setNode p node').setPort node.portId
      { c.ports node.portId with activeStreams := (c.ports node.portId).activeStreams - 1 }).InvFor
          mode := by
  have hstatus : statusOf (some node') = .idle node.portId := by
    simp only [statusOf, hs', halike.port]
  have hpool := h.pool.finish (status_running hp hs) (hperm.filterMap QueueNode.ptr?)
  refine h.setAlike halike hp (by simp [hs]) (by simp [hs']) ?_ fun time cmd hmem => ?_
  · rw [pool_setPort, pool_setNode, hstatus]
    change Pool.Ok { c.pool with
      status := update c.pool.status p (.idle node.portId)
      nodes := update c.pool.nodes node.portId (c.pool.nodes node.portId)
      count := update c.pool.count node.portId (c.pool.count node.portId - 1)
      queued := queue.filterMap QueueNode.ptr? }
    rw [update_eq_self]
    exact hpool
  · exact hperm.mem_iff.mpr (List.mem_cons_of_mem _ hmem)

/-- **A node is scheduled**, and its port counts one more. -/
theorem InvFor.wake (h : c.InvFor mode) (hp : c.heap p = some node) (hs : node.state = .ssINACTIVE)
    (hs' : node'.state = .ssACTIVE) :
    ((({ c with queue := .stateless p :: c.queue } : TrexStatelessDpCore).setNode p node').setPort
      node.portId
      { c.ports node.portId with activeStreams := (c.ports node.portId).activeStreams + 1 }).InvFor
          mode := by
  have hstatus : statusOf (some node') = .running node.portId := by
    simp only [statusOf, hs', halike.port]
  have hpool := h.pool.wake (status_idle hp hs)
  refine h.setAlike halike hp (by simp [hs]) (by simp [hs']) ?_ fun time cmd hmem => ?_
  · rw [pool_setPort, pool_setNode, hstatus]
    change Pool.Ok { c.pool with
      status := update c.pool.status p (.running node.portId)
      nodes := update c.pool.nodes node.portId (c.pool.nodes node.portId)
      count := update c.pool.count node.portId (c.pool.count node.portId + 1)
      queued := p :: c.pool.queued }
    rw [update_eq_self]
    exact hpool
  · simpa using hmem

end Alike

/-- **A node that is to be freed is reached by the scheduler.** -/
theorem InvFor.release (h : c.InvFor mode) (hp : c.heap p = some node)
    (hs : node.state = .ssFREE_RESUSE) {queue : List QueueNode}
    (hperm : c.queue.Perm (.stateless p :: queue)) :
    (({ c with queue := queue } : TrexStatelessDpCore).freeNode p).InvFor mode := by
  have hne : ∀ q ≠ p, (({ c with queue := queue } : TrexStatelessDpCore).freeNode p).heap q
      = c.heap q := fun q hq => by simp [freeNode, hq]
  have hnone : (({ c with queue := queue } : TrexStatelessDpCore).freeNode p).heap p = none := by
    simp [freeNode]
  have hvac : ∀ x, (({ c with queue := queue } : TrexStatelessDpCore).freeNode p).heap p = some x →
      False := by
    intro x hx
    rw [hnone] at hx
    cases hx
  refine h.change p ?_ rfl (fun q hq => ?_) hne (fun j q hj => ?_)
    (fun x hx => (hvac x hx).elim) (fun x _ hx => (hvac x hx).elim) (fun x hx => (hvac x hx).elim)
    fun time cmd hmem => ?_
  · rw [pool_freeNode]
    exact h.pool.release (status_leaving hp hs) (hperm.filterMap QueueNode.ptr?)
  · by_cases hqp : q = p
    · rw [hqp, hnone]
    · rw [hne q hqp]
      exact h.fresh q hq
  · obtain ⟨x, hx, hport, hfree⟩ := owned_iff.mp hj
    have hqp : q ≠ p := by
      rintro rfl
      rw [hp] at hx
      cases hx
      exact hfree hs
    exact owned_iff.mpr ⟨x, (hne q hqp).trans hx, hport, hfree⟩
  · exact h.commandPort time cmd (hperm.mem_iff.mpr (List.mem_cons_of_mem _ hmem))

theorem InvFor.mono {mode' : UInt8 → Bool → Prop} (h : c.InvFor mode)
    (hmode : ∀ i pause, mode i pause → mode' i pause) : c.InvFor mode' :=
  ⟨h.pool, h.fresh, h.node, h.next, fun p node hp hs => hmode _ _ (h.mode p node hp hs),
    h.commandPort⟩

/-- A port changes its state; what that says of the pause flags is left to `mode`. -/
theorem InvFor.setState (h : c.InvFor mode) (i : UInt8) (state : PortState) :
    (c.setPort i { c.ports i with state := state }).InvFor mode := by
  have hpool : (c.setPort i { c.ports i with state := state }).pool = c.pool := by
    rw [pool_setPort]
    change { c.pool with
      nodes := update c.pool.nodes i (c.pool.nodes i)
      count := update c.pool.count i (c.pool.count i) } = c.pool
    rw [update_eq_self, update_eq_self]
  refine ⟨hpool ▸ h.pool, h.fresh, h.node, ?_, h.mode, h.commandPort⟩
  intro p node q hp hq
  rw [hpool]
  exact h.next p node q hp hq

end TrexStatelessDpCore

end Trex.Dp
