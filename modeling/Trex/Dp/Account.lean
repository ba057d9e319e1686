/-
# The accounting of a data-plane core

The scheduler keeps the invariant of `Records.lean` as well, so it holds in every state that a core
reaches (`Reachable.inv`), and the assertions about the nodes never fail.
-/
import Trex.Dp.Messages

namespace Trex.Dp

open Trex.Lib Trex.Stream List

namespace TrexStatelessDpCore

variable {c : TrexStatelessDpCore} {p : Ptr} {node : CGenNodeStateless} {i : UInt8}
  {mode : UInt8 → Bool → Prop}

/-! ## 1. The nodes -/

theorem alike_handleMultiBurst (node : CGenNodeStateless) : Alike node node.handleMultiBurst := by
  unfold CGenNodeStateless.handleMultiBurst
  simp only
  split
  · exact ⟨rfl, rfl, rfl, rfl, rfl⟩
  · split <;> exact ⟨rfl, rfl, rfl, rfl, rfl⟩

/-- A core in the middle of `handle_multi_burst`: a node was taken from the queue and is inactive
now, and its port still counts it. -/
def finishing (c : TrexStatelessDpCore) (p : Ptr) (node : CGenNodeStateless)
    (queue : List QueueNode) :
    TrexStatelessDpCore :=
  ({ c with queue := queue } : TrexStatelessDpCore).setNode p node.handleMultiBurst

/-- The same core once the port does not count the node any more. -/
def finished (c : TrexStatelessDpCore) (p : Ptr) (node : CGenNodeStateless)
    (queue : List QueueNode) :
    TrexStatelessDpCore :=
  (c.finishing p node queue).setPort node.portId
    { c.ports node.portId with activeStreams := (c.ports node.portId).activeStreams - 1 }

section Finish

variable {queue : List QueueNode} (h : c.Inv) (hp : c.heap p = some node)
  (hs : node.state = .ssACTIVE) (hlast : node.isLastPacket = true)
  (hperm : c.queue.Perm (.stateless p :: queue))

include h hp hs hlast hperm

theorem finished_inv : (c.finished p node queue).Inv := by
  have hs' : node.handleMultiBurst.state = .ssINACTIVE := by
    rw [CGenNodeStateless.handleMultiBurst_state, hlast, if_pos rfl]
  refine (h.finish (alike_handleMultiBurst node) hp hs hs' hperm).mono ?_
  intro j pause hj
  by_cases hport : j = node.portId
  · subst hport
    simpa [finished, setPort] using hj
  · simpa [finished, finishing, setPort, setNode, hport] using hj

/-- **One stream less**: the port is stopped when it was the last one. -/
theorem reduceActiveStreams_post :
    Post (reduceActiveStreams node.portId (c.finishing p node queue)) Inv fun _ => False := by
  have hpos : 0 < (c.ports node.portId).activeStreams := h.pool.count_pos (status_running hp hs)
  have hinv := finished_inv h hp hs hlast hperm
  have hport : HasPort (c.finished p node queue).localPortOffset node.portId :=
    (h.node p node hp).port
  unfold reduceActiveStreams
  simp only
  rw [check_true (b := 0 < ((c.finishing p node queue).ports node.portId).activeStreams) hpos]
  simp only [bind, Except.bind]
  split
  · refine (stopTraffic_post hinv node.portId false 0).mono (fun _ hc => hc) ?_
    rintro fault ⟨-, hnot⟩
    exact hnot hport
  · exact hinv

omit hperm in
/-- The next node of the one that finishes is listed by the same port. -/
theorem finishing_next (queue : List QueueNode) {q : Ptr} (hq : node.nextStream = some q) :
    ∃ next, (c.finishing p node queue).heap q = some next ∧ next.portId = node.portId
      ∧ next.state ≠ .ssFREE_RESUSE := by
  have hs' : node.handleMultiBurst.state = .ssINACTIVE := by
    rw [CGenNodeStateless.handleMultiBurst_state, hlast, if_pos rfl]
  have howned := (setNode_owned (alike_handleMultiBurst node) hp (by simp [hs]) (by simp [hs'])
    node.portId q).mpr (h.next p node q hp hq)
  exact owned_iff.mp howned

/-- **The next stream starts in the place of the one that finished.** -/
theorem scheduled_inv {q : Ptr} {next : CGenNodeStateless} {info : TrexStream} (time : Rat)
    (hnext : (c.finishing p node queue).heap q = some next) (hport : next.portId = node.portId)
    (hin : next.state = .ssINACTIVE) :
    ((((c.finishing p node queue).setNode q (next.refresh info)).setNode q
      ((next.refresh info).updateRefreshTime info time)).push (.stateless q)).Inv := by
  have hpos : 0 < (c.ports node.portId).activeStreams := h.pool.count_pos (status_running hp hs)
  have halike : Alike next ((next.refresh info).updateRefreshTime info time) :=
    ⟨rfl, rfl, rfl, rfl, rfl⟩
  have hwake := (finished_inv h hp hs hlast hperm).wake halike hnext hin rfl
  -- the counter is back where it was
  have hports : Function.update (c.finished p node queue).ports next.portId
      { (c.finished p node queue).ports next.portId with
        activeStreams := ((c.finished p node queue).ports next.portId).activeStreams + 1 }
      = c.ports := by
    have hcount : (c.ports node.portId).activeStreams - 1 + 1 =
        (c.ports node.portId).activeStreams :=
      Nat.sub_add_cancel hpos
    funext j
    by_cases hj : j = node.portId
    · subst hj
      simp [hport, finished, setPort, hcount]
    · simp [hport, finished, finishing, setPort, setNode, hj]
  have heq : (({ c.finished p node queue with
        queue := .stateless q :: (c.finished p node queue).queue } : TrexStatelessDpCore).setNode q
          ((next.refresh info).updateRefreshTime info time)).setPort next.portId
            { (c.finished p node queue).ports next.portId with
              activeStreams := ((c.finished p node queue).ports next.portId).activeStreams + 1 }
      = (((c.finishing p node queue).setNode q (next.refresh info)).setNode q
          ((next.refresh info).updateRefreshTime info time)).push (.stateless q) := by
    have hset := congrArg (fun ports => { ((((c.finishing p node queue).setNode q
      (next.refresh info)).setNode q ((next.refresh info).updateRefreshTime info time)).push
        (.stateless q)) with ports := ports }) hports
    refine Eq.trans ?_ hset
    simp [setPort, setNode, push, finished, finishing]
  rw [heq] at hwake
  refine hwake.mono ?_
  intro j pause hj
  change modeOk (c.ports j).state pause
  by_cases hjp : j = node.portId
  · subst hjp
    simpa [finished, setPort] using hj
  · simpa [finished, finishing, setPort, setNode, hjp] using hj

/-- **`set_stateless_next_node`**: the port goes on without the stream, or the next stream is ready
to be scheduled. -/
theorem setStatelessNextNode_post :
    Post (setStatelessNextNode node.portId node.nextStream (c.finishing p node queue))
      (fun r => (r.2 = false ∧ r.1.Inv) ∨ (r.2 = true ∧ ∃ q next info, node.nextStream = some q
        ∧ (c.finishing p node queue).heap q = some next ∧ next.portId = node.portId
        ∧ next.state = .ssINACTIVE ∧ next.refStreamInfo = some info
        ∧ r.1 = (c.finishing p node queue).setNode q (next.refresh info)))
      fun _ => False := by
  have hport : HasPort (c.finishing p node queue).localPortOffset node.portId :=
    (h.node p node hp).port
  have hreduce := reduceActiveStreams_post h hp hs hlast hperm
  have hinv := finished_inv h hp hs hlast hperm
  unfold setStatelessNextNode getPortDb
  rw [check_true hport]
  simp only [bind, Except.bind]
  cases hnext : node.nextStream with
  | none => exact hreduce.bind fun c' hc' => Or.inl ⟨rfl, hc'⟩
  | some q =>
    obtain ⟨next, hq, hqport, hfree⟩ := finishing_next h hp hs hlast queue hnext
    simp only [getNode_eq hq]
    cases hstate : next.state with
    | ssFREE_RESUSE => exact absurd hstate hfree
    | ssINACTIVE =>
      obtain ⟨info, hinfo⟩ := (hinv.node q next hq).info hfree
      simp only [hinfo]
      exact Or.inr ⟨rfl, q, next, info, rfl, hq, hqport, hstate, hinfo, rfl⟩
    | ssACTIVE => exact hreduce.bind fun c' hc' => Or.inl ⟨rfl, hc'⟩

/-- **The last packet of a burst node.** -/
theorem finishNode_post :
    Post (finishNode p node { c with queue := queue }) Inv fun _ => False := by
  refine (setStatelessNextNode_post h hp hs hlast hperm).bind ?_
  rintro ⟨c', schedule⟩ (⟨rfl, hc'⟩ | ⟨rfl, q, next, info, hnext, hq, hport, hin, hinfo, rfl⟩)
  · exact hc'
  · have hinfo' : (next.refresh info).refStreamInfo = some info := hinfo
    simp only [if_true, hnext, getNode_eq setNode_heap_eq, bind, Except.bind, hinfo']
    exact scheduled_inv h hp hs hlast hperm _ hq hport hin

end Finish

variable {queue : List QueueNode} {a : Act}

/-- **A stateless node that the scheduler reaches.** -/
theorem popStateless_post (h : c.Inv) (hperm : c.queue.Perm (.stateless p :: queue)) :
    Post (popStateless p { c with queue := queue }) Inv fun _ => False := by
  obtain ⟨node, hp, hin⟩ := h.of_mem_queue (hperm.mem_iff.mpr mem_cons_self)
  have hget : ({ c with queue := queue } : TrexStatelessDpCore).getNode p = .ok node :=
    getNode_eq hp
  unfold popStateless
  rw [hget]
  simp only [bind, Except.bind]
  by_cases hfree : node.state = .ssFREE_RESUSE
  · rw [if_pos hfree]
    exact h.release hp hfree hperm
  · have hs : node.state = .ssACTIVE := by
      cases hstate : node.state <;> simp_all
    rw [if_neg hfree]
    unfold handleNode
    cases htype : node.streamType with
    | stCONTINUOUS =>
      have halike : Alike node node.handleContinues := ⟨rfl, rfl, rfl, rfl, rfl⟩
      exact h.touch halike hp hfree rfl hperm
    | stSINGLE_BURST => exact absurd htype (h.node p node hp).type
    | stMULTI_BURST =>
      simp only
      by_cases hlast : node.isLastPacket = true
      · rw [if_pos hlast]
        exact finishNode_post h hp hs hlast hperm
      · have hsame : node.handleMultiBurst.state = node.state := by
          rw [CGenNodeStateless.handleMultiBurst_state, if_neg hlast]
        rw [if_neg hlast]
        exact h.touch (alike_handleMultiBurst node) hp hfree hsame hperm

/-! ## 2. The scheduler -/

/-- The queue changes, and the stateless nodes in it do not. -/
theorem InvFor.requeue (h : c.InvFor mode)
    (hperm : (c.queue.filterMap QueueNode.ptr?).Perm (queue.filterMap QueueNode.ptr?))
    (hport : ∀ time cmd, .command time cmd ∈ queue → HasPort c.localPortOffset cmd.portId) :
    ({ c with queue := queue } : TrexStatelessDpCore).InvFor mode :=
  ⟨h.pool.requeue hperm, h.fresh, h.node, h.next, h.mode, hport⟩

/-- A queue node that is neither a stateless node nor a stop command is pushed. -/
theorem InvFor.pushOther (h : c.InvFor mode) {x : QueueNode} (hx : x.ptr? = none)
    (hcmd : x.cmd? = none) : (c.push x).InvFor mode := by
  refine h.requeue ?_ fun time cmd hmem => h.commandPort time cmd ?_
  · rw [filterMap_cons_none hx]
  · rcases mem_cons.mp hmem with rfl | hold
    · cases hcmd
    · exact hold

/-- A queue node that is not a stateless one is dropped. -/
theorem InvFor.tail {x : QueueNode}
    (h : ({ c with queue := x :: queue } : TrexStatelessDpCore).InvFor mode) (hx : x.ptr? = none) :
    ({ c with queue := queue } : TrexStatelessDpCore).InvFor mode := by
  refine h.requeue ?_ fun time cmd hmem => h.commandPort time cmd (mem_cons_of_mem _ hmem)
  change ((x :: queue).filterMap QueueNode.ptr?).Perm _
  rw [filterMap_cons_none hx]

/-- **`remove_all`** keeps the invariant, and its assertion fails only when a node is active. -/
theorem removeAll_post : ∀ (queue : List QueueNode) (c : TrexStatelessDpCore), c.queue = [] →
    c.nonActiveNodes = (queue.filterMap QueueNode.cmd?).length →
    ({ c with queue := queue } : TrexStatelessDpCore).Inv →
      Post (removeAll queue c) Inv fun fault => fault = .maskForFree ∧ ∃ p, .stateless p ∈ queue
  | [], c, hempty, _, h => by
    have heq : c = { c with queue := [] } := by rw [← hempty]
    change Inv c
    rw [heq]
    exact h
  | .stateless p :: queue, c, hempty, hcount, h => by
    obtain ⟨node, hp, -⟩ := h.of_mem_queue mem_cons_self
    have hp' : c.heap p = some node := hp
    rw [removeAll, getNode_eq hp']
    simp only [bind, Except.bind]
    by_cases hfree : node.state = .ssFREE_RESUSE
    · rw [check_true hfree]
      refine (removeAll_post queue (c.freeNode p) hempty hcount ?_).mono (fun _ hc => hc) ?_
      · exact h.release hp hfree (List.Perm.refl _)
      · rintro fault ⟨hf, q, hq⟩
        exact ⟨hf, q, mem_cons_of_mem _ hq⟩
    · rw [check_false hfree]
      exact ⟨rfl, p, mem_cons_self⟩
  | .command time cmd :: queue, c, hempty, hcount, h => by
    have hcount' : c.nonActiveNodes = (queue.filterMap QueueNode.cmd?).length + 1 := hcount
    have hpos : 0 < c.nonActiveNodes := by omega
    rw [removeAll, onNodeRemove, check_true hpos]
    simp only [bind, Except.bind]
    refine (removeAll_post queue { c with nonActiveNodes := c.nonActiveNodes - 1 } hempty
      (by rw [hcount']; rfl) ?_).mono (fun _ hc => hc) ?_
    · have htail := h.tail rfl
      exact ⟨htail.pool, htail.fresh, htail.node, htail.next, htail.mode, htail.commandPort⟩
    · rintro fault ⟨hf, q, hq⟩
      exact ⟨hf, q, mem_cons_of_mem _ hq⟩
  | .flowSync time :: queue, c, hempty, hcount, h => by
    rw [removeAll]
    refine (removeAll_post queue c hempty hcount (h.tail rfl)).mono (fun _ hc => hc) ?_
    rintro fault ⟨hf, q, hq⟩
    exact ⟨hf, q, mem_cons_of_mem _ hq⟩
  | .exitSched time :: queue, c, hempty, hcount, h => by
    rw [removeAll]
    refine (removeAll_post queue c hempty hcount (h.tail rfl)).mono (fun _ hc => hc) ?_
    rintro fault ⟨hf, q, hq⟩
    exact ⟨hf, q, mem_cons_of_mem _ hq⟩

theorem closeScheduler_post (h : c.Inv) (hcount : CommandsOk c) :
    Post (closeScheduler c) Inv fun fault =>
        fault = .maskForFree ∧ ∃ p, .stateless p ∈ c.queue := by
  unfold closeScheduler
  split
  · exact ⟨h.pool, h.fresh, h.node, h.next, h.mode, h.commandPort⟩
  · refine (removeAll_post c.queue { c with queue := [] } rfl hcount h).bind ?_
    intro c' hc'
    exact ⟨hc'.pool, hc'.fresh, hc'.node, hc'.next, hc'.mode, hc'.commandPort⟩

/-- A stop command that the scheduler reaches. -/
theorem popCommand_post (h : c.Inv) {cmd : TrexStatelessDpStop}
    (hport : HasPort c.localPortOffset cmd.portId) (hpos : 0 < c.nonActiveNodes) :
    Post (do
      let c ← stopTraffic cmd.portId cmd.stopOnlyForEventId cmd.eventId c
      c.onNodeRemove) Inv fun _ => False := by
  have hstop := stopTraffic_post h cmd.portId cmd.stopOnlyForEventId cmd.eventId
  have hpost : Post (stopTraffic cmd.portId cmd.stopOnlyForEventId cmd.eventId c)
      (fun c1 => c1.Inv ∧ 0 < c1.nonActiveNodes) fun _ => False := by
    refine Post.of_forall (fun c1 hc1 => ⟨hstop.result hc1, ?_⟩) fun fault hf =>
      (hstop.fault hf).2 hport
    rcases stopTraffic_effect hc1 with ⟨rfl, -⟩ | ⟨-, -, -, hn⟩
    · exact hpos
    · exact hn ▸ hpos
  refine hpost.bind ?_
  rintro c1 ⟨hinv, hpos1⟩
  rw [onNodeRemove, check_true hpos1]
  exact ⟨hinv.pool, hinv.fresh, hinv.node, hinv.next, hinv.mode, hinv.commandPort⟩

/-- The assertions that a step can make fail. -/
def StepFault (c : TrexStatelessDpCore) : Act → Fault → Prop
  | .msg (.start obj _ _), fault => c.StartFault obj fault
  | .msg (.stop cmd), fault => fault = .getPortDb ∧ ¬ HasPort c.localPortOffset cmd.portId
  | .msg (.pause i), fault => (fault = .getPortDb ∧ ¬ HasPort c.localPortOffset i)
      ∨ (fault = .pauseState ∧ (c.ports i).state ≠ .ppSTATE_TRANSMITTING)
  | .msg (.resume i), fault => (fault = .getPortDb ∧ ¬ HasPort c.localPortOffset i)
      ∨ (fault = .resumeState ∧ (c.ports i).state ≠ .ppSTATE_PAUSE)
  | .msg (.update i _), fault => (fault = .getPortDb ∧ ¬ HasPort c.localPortOffset i)
      ∨ (fault = .updateState ∧ (c.ports i).state = .ppSTATE_IDLE)
  | .msg .quit, _ => False
  | .leaveIdle, _ => False
  -- the scheduler is left by `quit` while streams are active
  | .pop _, fault => fault = .maskForFree
  | .endSync, _ => False

/-- When only stop commands are left, no stateless node is. -/
theorem stateless_not_mem (hcount : CommandsOk c) (hlen : c.queue.length = c.nonActiveNodes)
    (p : Ptr) :
    .stateless p ∉ c.queue := by
  intro hmem
  have hall := filterMap_length_eq_length.mp (hlen.trans hcount).symm
  have hsome := hall _ hmem
  cases hsome

/-- Without a node of the queue that is not a stateless one, the invariant holds. -/
theorem Inv.erase (h : c.Inv) {k : Nat} {qnode : QueueNode} (hk : c.queue[k]? = some qnode)
    (hnone : qnode.ptr? = none) :
    ({ c with queue := c.queue.eraseIdx k } : TrexStatelessDpCore).Inv := by
  have hperm := perm_eraseIdx hk
  refine h.requeue ?_ fun time cmd hmem =>
    h.commandPort time cmd (hperm.mem_iff.mpr (mem_cons_of_mem _ hmem))
  have hmap := hperm.filterMap QueueNode.ptr?
  rw [filterMap_cons_none hnone] at hmap
  exact hmap

/-- **Every step keeps the invariant, and only the assertions of `StepFault` can fail.** -/
theorem step_post (h : c.Inv) (hcount : CommandsOk c) (hen : c.Enabled a) :
    Post (c.step a) Inv (c.StepFault a) := by
  cases a with
  | msg m =>
    cases m with
    | start obj duration eventId => exact startTraffic_post h obj duration eventId
    | stop cmd => exact stopTraffic_post h cmd.portId cmd.stopOnlyForEventId cmd.eventId
    | pause i => exact pauseTraffic_post h i
    | resume i => exact resumeTraffic_post h i
    | update i factor => exact updateTraffic_post h i factor
    | quit =>
      have hq := h.pushOther (x := .exitSched (c.curTimeSec + 1 / 10000)) rfl rfl
      exact ⟨hq.pool, hq.fresh, hq.node, hq.next, hq.mode, hq.commandPort⟩
  | leaveIdle =>
    unfold step
    simp only
    split
    · exact ⟨h.pool, h.fresh, h.node, h.next, h.mode, h.commandPort⟩
    · have hq := h.pushOther (x := .flowSync (c.curTimeSec + syncTimeOut)) rfl rfl
      exact ⟨hq.pool, hq.fresh, hq.node, hq.next, hq.mode, hq.commandPort⟩
  | pop k =>
    obtain ⟨-, qnode, hk, -⟩ := hen
    have hperm := perm_eraseIdx hk
    unfold step
    simp only [hk]
    have hrest := h.erase hk
    cases qnode with
    | stateless p => exact (popStateless_post h hperm).mono (fun _ hc => hc) fun _ hf => hf.elim
    | command time cmd =>
      have hport : HasPort c.localPortOffset cmd.portId :=
        h.commandPort time cmd (hperm.mem_iff.mpr mem_cons_self)
      have hpos : 0 < c.nonActiveNodes := by
        have hlen := (hperm.filterMap QueueNode.cmd?).length_eq
        rw [hcount, commands, hlen]
        exact Nat.succ_pos _
      exact (popCommand_post (hrest rfl) hport hpos).mono (fun _ hc => hc) fun _ hf => hf.elim
    | flowSync time =>
      have hq := hrest rfl
      exact ⟨hq.pool, hq.fresh, hq.node, hq.next, hq.mode, hq.commandPort⟩
    | exitSched time =>
      refine (closeScheduler_post (hrest rfl) ?_).mono (fun _ hc => hc) fun _ hf => hf.1
      exact Eq.trans hcount (hperm.filterMap QueueNode.cmd?).length_eq
  | endSync =>
    obtain ⟨time, hphase⟩ := hen
    unfold step
    simp only [hphase]
    unfold endSync
    split
    · rename_i hlen
      refine (closeScheduler_post h hcount).mono (fun _ hc => hc) ?_
      rintro fault ⟨-, p, hp⟩
      exact stateless_not_mem hcount hlen p hp
    · have hq := h.pushOther (x := .flowSync (time + syncTimeOut)) rfl rfl
      exact ⟨hq.pool, hq.fresh, hq.node, hq.next, hq.mode, hq.commandPort⟩

/-! ## 3. Runs -/

theorem Initial.inv (h : c.Initial) : c.Inv := by
  have hheap : ∀ p node, c.heap p ≠ some node := by
    intro p node hp
    rw [h.heap p] at hp
    cases hp
  have hstatus : ∀ p, c.pool.status p = .absent := fun p => congrArg statusOf (h.heap p)
  have hnodes : ∀ i, c.pool.nodes i = [] := fun i => (h.ports i).2.2
  have hqueued : c.pool.queued = [] := by
    change c.queue.filterMap QueueNode.ptr? = []
    rw [h.queue]
    rfl
  refine ⟨⟨?_, ?_, ?_⟩, fun p _ => h.heap p, ?_, ?_, ?_, ?_⟩
  · intro i p
    simp [hnodes, Pool.Owned, hstatus]
  · intro p
    simp [hqueued, hstatus, Pool.Scheduled]
  · intro i
    have hcount : c.pool.count i = 0 := (h.ports i).2.1
    simp [hnodes, hcount]
  · intro p node hp
    exact absurd hp (hheap p node)
  · intro p node q hp
    exact absurd hp (hheap p node)
  · intro p node hp
    exact absurd hp (hheap p node)
  · intro time cmd hmem
    rw [h.queue] at hmem
    cases hmem

/-- **The invariant holds in every state that a core reaches.** -/
theorem Reachable.inv (h : c.Reachable) : c.Inv ∧ CommandsOk c := by
  induction h with
  | init hinit =>
    refine ⟨hinit.inv, ?_⟩
    rw [CommandsOk, commands, hinit.queue, hinit.nonActiveNodes]
    rfl
  | step _ hen hstep ih =>
    exact ⟨(step_post ih.1 ih.2 hen).result hstep, (step_effect hstep).2 ih.2⟩

/-- A counter that goes down to 0 stops its port. -/
theorem step_drop {c' : TrexStatelessDpCore} (h : c.Inv) (hstep : c.step a = .ok c')
    (hpos : 0 < (c.ports i).activeStreams) (hzero : (c'.ports i).activeStreams = 0) :
    (c'.ports i).state = .ppSTATE_IDLE := by
  have hquiet : Quiet c c' → (c'.ports i).state = .ppSTATE_IDLE := by
    intro hq
    rcases hq.count i hpos with hpos' | hidle
    · omega
    · exact hidle
  have hhalt : ∀ j, Halted j c c' → (c'.ports i).state = .ppSTATE_IDLE := by
    intro j hj
    by_cases hij : i = j
    · rw [hij]
      exact hj.after
    · rw [hj.others i hij] at hzero
      omega
  have hswitch : ∀ j before after, Switched j before after c c' →
      (c'.ports i).state = .ppSTATE_IDLE := by
    intro j before after hj
    by_cases hij : i = j
    · subst hij
      rw [hj.after] at hzero
      change (c.ports i).activeStreams = 0 at hzero
      omega
    · rw [hj.others i hij] at hzero
      omega
  cases (step_effect hstep).1 with
  | start hstart =>
    rename_i obj duration eventId
    by_cases hij : i = obj.portId
    · subst hij
      have := h.count_nil hstart.before
      omega
    · rw [hstart.others i hij] at hzero
      omega
  | pause hs => exact hswitch _ _ _ hs
  | resume hs => exact hswitch _ _ _ hs
  | update hq _ => exact hquiet hq
  | quit hq _ => exact hquiet hq
  | noStop heq _ =>
    rw [heq] at hzero
    omega
  | stop hh _ _ => exact hhalt _ hh
  | internal _ hq _ => exact hquiet hq
  | streams _ _ _ hh _ => exact hhalt _ hh
  | duration _ _ hh _ => exact hhalt _ hh

/-- The assertions and the undefined steps that the accounting rules out. -/
def accountingFaults : List Fault :=
  [.underflow, .stopActive, .stopIdle, .deleteState, .nodePortId, .nextFree, .badPointer,
    .streamType, .startSize, .pauseNode, .resumeNode, .nonActiveNodes]

theorem StepFault.not_accounting {fault : Fault} (h : c.StepFault a fault) :
    fault ∉ accountingFaults := by
  cases a with
  | msg m =>
    cases m with
    | start obj duration eventId =>
      rcases h with ⟨rfl, -⟩ | ⟨rfl, -⟩ | ⟨rfl, -⟩ | ⟨rfl, -⟩ <;> decide
    | stop cmd =>
      obtain ⟨rfl, -⟩ := h
      decide
    | pause j => rcases h with ⟨rfl, -⟩ | ⟨rfl, -⟩ <;> decide
    | resume j => rcases h with ⟨rfl, -⟩ | ⟨rfl, -⟩ <;> decide
    | update j factor => rcases h with ⟨rfl, -⟩ | ⟨rfl, -⟩ <;> decide
    | quit => exact h.elim
  | leaveIdle => exact h.elim
  | pop k =>
    obtain rfl := h
    decide
  | endSync => exact h.elim

/-- What a core knows of its nodes: every counter is the number of active nodes of its port, an
active node is in the queue once and an inactive one is not. -/
structure Accounted (c : TrexStatelessDpCore) : Prop where
  count : ∀ i, (c.ports i).activeStreams = (c.ports i).activeNodes.countP fun p =>
    (c.heap p).any fun node => node.state = .ssACTIVE
  nodes : ∀ i p, p ∈ (c.ports i).activeNodes ↔ ∃ node, c.heap p = some node ∧ node.portId = i
    ∧ node.state ≠ .ssFREE_RESUSE
  nodup : ∀ i, (c.ports i).activeNodes.Nodup
  active : ∀ p node, c.heap p = some node → node.state = .ssACTIVE →
    c.queue.count (.stateless p) = 1
  inactive : ∀ p node, c.heap p = some node → node.state = .ssINACTIVE →
    .stateless p ∉ c.queue

theorem count_stateless (queue : List QueueNode) (p : Ptr) :
    queue.count (.stateless p) = (queue.filterMap QueueNode.ptr?).count p := by
  induction queue with
  | nil => rfl
  | cons x queue ih =>
    cases x with
    | stateless q =>
      change _ = (q :: queue.filterMap QueueNode.ptr?).count p
      rw [count_cons, count_cons, ih]
      simp
    | command time cmd => exact (count_cons_of_ne (by simp)).trans ih
    | flowSync time => exact (count_cons_of_ne (by simp)).trans ih
    | exitSched time => exact (count_cons_of_ne (by simp)).trans ih

theorem Inv.accounted (h : c.Inv) : c.Accounted := by
  refine ⟨?_, ?_, h.pool.nodup, ?_, ?_⟩
  · intro i
    refine (h.pool.count i).trans (countP_congr fun p hp => ?_)
    obtain ⟨node, hheap, hport, -⟩ := h.of_mem_nodes hp
    rw [status_some hheap, hheap]
    cases hs : node.state <;> simp [statusOf, hs, hport]
  · intro i p
    exact h.pool.mem_nodes.trans owned_iff
  · intro p node hp hs
    rw [count_stateless]
    refine (h.pool.queued p).trans ?_
    rw [status_running hp hs]
    rfl
  · intro p node hp hs hmem
    obtain ⟨node', hp', hs'⟩ := h.of_mem_queue hmem
    rw [hp] at hp'
    cases hp'
    exact hs' hs

/-- **The active streams of a port are accounted for in every state that a core reaches**, whatever
messages it gets, whatever the links of its streams are, and in whatever order it takes the nodes:
the counters and the queue are right, none of the assertions about them fails and no counter goes
below 0, and a port whose counter drops to 0 is idle. -/
theorem active_streams_accounted (c : TrexStatelessDpCore) (h : c.Reachable) :
    c.Accounted ∧ ∀ a, c.Enabled a →
      (∀ fault ∈ accountingFaults, c.step a ≠ .error fault)
      ∧ ∀ c', c.step a = .ok c' → ∀ i, 0 < (c.ports i).activeStreams →
        (c'.ports i).activeStreams = 0 → (c'.ports i).state = .ppSTATE_IDLE := by
  obtain ⟨hinv, hcommands⟩ := h.inv
  refine ⟨hinv.accounted, fun a hen => ⟨fun fault hfault herr => ?_, fun c' hstep i => ?_⟩⟩
  · exact ((step_post hinv hcommands hen).fault herr).not_accounting hfault
  · exact step_drop hinv hstep

/-- A core as `create` makes it. -/
def freshCore : TrexStatelessDpCore :=
  { localPortOffset := 0
    ports := fun _ => ⟨.ppSTATE_IDLE, 0, [], 0⟩
    heap := fun _ => none
    fresh := 0
    queue := []
    nonActiveNodes := 0
    curTimeSec := 0
    state := .STATE_IDLE
    terminated := false
    phase := .idleLoop
    ringToCp := [] }

theorem freshCore_initial : freshCore.Initial :=
  ⟨fun _ => ⟨rfl, rfl, rfl⟩, fun _ => rfl, rfl, rfl, rfl, rfl, rfl, rfl⟩

/-- A stream that starts by itself and one that it leads to, which leads back to it, for ten
seconds. -/
def twoStreams : CpToDpMsg :=
  .start ⟨0, [⟨.stSINGLE_BURST, 0, 0, 0, 1, true, true, {}, none, ⟨[], 0⟩, 1, 2, 1, 0⟩,
    ⟨.stMULTI_BURST, 0, 1, 0, 0, true, false, {}, none, ⟨[], 0⟩, 1, 2, 3, 0⟩], false⟩ 10 0

theorem active_streams_accounted_twoStreams : ∃ c, freshCore.step (.msg twoStreams) = .ok c
    ∧ (c.ports 0).activeStreams = 1 ∧ c.Reachable ∧ c.Accounted := by
  obtain ⟨c, hstep, hone⟩ : ∃ c, freshCore.step (.msg twoStreams) = .ok c
      ∧ (c.ports 0).activeStreams = 1 := ⟨_, rfl, rfl⟩
  have hen : freshCore.Enabled (.msg twoStreams) := ⟨by decide, by decide⟩
  have hreach : c.Reachable := .step (.init freshCore_initial) hen hstep
  exact ⟨c, hstep, hone, hreach, (active_streams_accounted c hreach).1⟩

end TrexStatelessDpCore

end Trex.Dp
