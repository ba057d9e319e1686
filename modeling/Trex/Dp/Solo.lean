/-
# Streams that run alone

One stream of a port starts by itself, nothing else is scheduled on its core, and no message comes
(`Undisturbed`).  Then one node at a time is active: it sends its packets, ends, and wakes the node
of its next stream.  Which node sends the packet after which is a function of the nodes only
(`nextSend`): the `FLOW_SYNC` nodes in between do not matter.

`Solo` is the state of a core whose turn it is to send one packet.  A step keeps the turn or sends
the packet (`Solo.step`), so what a run sends is a prefix of one sequence (`Undisturbed.sends`); and
from every state the packet is sent after finitely many steps (`Solo.exists_send`).
-/
import Trex.Dp.Pause

namespace Trex.Dp

open Trex.Lib Trex.Stream List
open Function (update update_idem update_of_ne update_self)

/-! ## 1. Nodes of linked streams -/

/-- The node that a start makes of a stream; the first stream has the address `base`. -/
def linkedNode (base : Ptr) (curTimeSec : Rat) (s : TrexStream) : CGenNodeStateless :=
  { newNode curTimeSec s with
    nextStream := if s.isDpNextStream then some (base + s.nextStreamId.toInt.toNat) else none }

/-- The node of a stream that another one wakes when it ends. -/
def wokenNode (base : Ptr) (s : TrexStream) (curTime : Rat) : CGenNodeStateless :=
  ((linkedNode base 0 s).refresh s.clone).updateRefreshTime s.clone curTime

/-- A node of a stream, with any time, counters and state. -/
def NodeFor (base : Ptr) (s : TrexStream) (node : CGenNodeStateless) : Prop :=
  ∃ time single multi state, node = { linkedNode base 0 s with
    time := time, singleBurst := single, multiBursts := multi, state := state }

section NodeFor

variable {base : Ptr} {s : TrexStream} {node : CGenNodeStateless}

theorem nodeFor_linkedNode (base : Ptr) (curTimeSec : Rat) (s : TrexStream) :
    NodeFor base s (linkedNode base curTimeSec s) := by
  let node := linkedNode base curTimeSec s
  refine ⟨node.time, node.singleBurst, node.multiBursts, node.state, ?_⟩
  cases htype : s.type <;> simp only [node, linkedNode, newNode, htype]

theorem nodeFor_wokenNode (base : Ptr) (s : TrexStream) (curTime : Rat) :
    NodeFor base s (wokenNode base s curTime) := ⟨_, _, _, _, rfl⟩

theorem NodeFor.handleContinues (h : NodeFor base s node) :
    NodeFor base s node.handleContinues := by
  obtain ⟨time, single, multi, state, rfl⟩ := h
  exact ⟨_, single, multi, state, rfl⟩

theorem NodeFor.handleMultiBurst (h : NodeFor base s node) :
    NodeFor base s node.handleMultiBurst := by
  obtain ⟨time, single, multi, state, rfl⟩ := h
  unfold CGenNodeStateless.handleMultiBurst
  simp only
  split
  · exact ⟨_, _, multi, state, rfl⟩
  · split
    · exact ⟨time, _, _, _, rfl⟩
    · exact ⟨_, _, _, state, rfl⟩

/-- Whatever a node was before it is woken, afterwards it is the same. -/
theorem NodeFor.woken (h : NodeFor base s node) (curTime : Rat) :
    (node.refresh s.clone).updateRefreshTime s.clone curTime = wokenNode base s curTime := by
  obtain ⟨time, single, multi, state, rfl⟩ := h
  rfl

theorem NodeFor.info (h : NodeFor base s node) : node.refStreamInfo = some s.clone := by
  obtain ⟨time, single, multi, state, rfl⟩ := h
  exact newNode_refStreamInfo 0 s

theorem NodeFor.nextStream (h : NodeFor base s node) : node.nextStream
    = if s.isDpNextStream then some (base + s.nextStreamId.toInt.toNat) else none := by
  obtain ⟨time, single, multi, state, rfl⟩ := h
  rfl

theorem NodeFor.streamType (h : NodeFor base s node) :
    node.streamType = if s.type = .stCONTINUOUS then .stCONTINUOUS else .stMULTI_BURST := by
  obtain ⟨time, single, multi, state, rfl⟩ := h
  exact newNode_streamType 0 s

/-- Its packet is sent, as it is not paused. -/
theorem NodeFor.sends (h : NodeFor base s node) : node.sends = true := by
  have htype := h.streamType
  have hpause : node.pause = false := by
    obtain ⟨time, single, multi, state, rfl⟩ := h
    exact newNode_pause 0 s
  unfold CGenNodeStateless.sends
  rw [htype]
  split
  · rw [hpause]
    rfl
  · rfl
  · rename_i hsingle
    split at hsingle <;> cases hsingle

end NodeFor

/-! ## 2. The order of the packets -/

/-- The place of the stream that sends the packet after this one, and its node then. -/
def nextSend (objs : List TrexStream) (base : Ptr) (k : Nat) (node : CGenNodeStateless) :
    Option (Nat × CGenNodeStateless) :=
  if node.streamType = .stCONTINUOUS then some (k, node.handleContinues)
  else if node.isLastPacket then
    match objs[k]? with
    | none => none
    | some s =>
      if s.isDpNextStream then
        (objs[s.nextStreamId.toInt.toNat]?).map fun next =>
          (s.nextStreamId.toInt.toNat, wokenNode base next node.time)
      else none
  else some (k, node.handleMultiBurst)

/-- The sequence of all packets, from the first on: the places of their streams, and their nodes. -/
def sends (objs : List TrexStream) (base : Ptr) (first : Nat × CGenNodeStateless) :
    Nat → Option (Nat × CGenNodeStateless)
  | 0 => some first
  | n + 1 => (sends objs base first n).bind fun x => nextSend objs base x.1 x.2

namespace TrexStatelessDpCore

variable {obj : TrexStreamsCompiledObj} {base : Ptr} {c c' c'' : TrexStatelessDpCore} {k : Nat}
    {p : Ptr}
  {node : CGenNodeStateless} {i : UInt8}

/-- A run without messages, with the nodes that send packets in it, in order. -/
inductive Undisturbed (c : TrexStatelessDpCore) :
    List CGenNodeStateless → TrexStatelessDpCore → Prop
  | refl : Undisturbed c [] c
  | step {log : List CGenNodeStateless} {c' c'' : TrexStatelessDpCore} {a : Act} :
      Undisturbed c log c' →
      a.internal → c'.Enabled a → c'.step a = .ok c'' →
      Undisturbed c (log ++ (c'.sender? a).toList) c''

theorem Undisturbed.trans {log log' : List CGenNodeStateless} (h : Undisturbed c log c')
    (h' : Undisturbed c' log' c'') : Undisturbed c (log ++ log') c'' := by
  induction h' with
  | refl =>
    rw [append_nil]
    exact h
  | step _ ha hen hstep ih =>
    rw [← append_assoc]
    exact .step ih ha hen hstep

/-! ## 3. A core whose turn it is to send one packet -/

/-- What is scheduled besides the stream: a `FLOW_SYNC` node while the scheduler runs. -/
def PhaseMarks : Phase → List QueueNode → Prop
  | .idleLoop, marks => marks = []
  | .scheduler, marks => ∃ time, marks = [.flowSync time]
  | .sync _, marks => marks = []
  | .ended, _ => False

theorem PhaseMarks.flowSync {phase : Phase} {marks : List QueueNode} (h : PhaseMarks phase marks) :
    ∀ x ∈ marks, ∃ time, x = .flowSync time := by
  intro x hx
  cases phase with
  | idleLoop =>
    rw [show marks = [] from h] at hx
    cases hx
  | scheduler =>
    obtain ⟨time, rfl⟩ := h
    exact ⟨time, mem_singleton.mp hx⟩
  | sync time =>
    rw [show marks = [] from h] at hx
    cases hx
  | ended => exact h.elim

/-- Every stream has its node in the heap. -/
def HeapFor (objs : List TrexStream) (base : Ptr) (heap : Ptr → Option CGenNodeStateless) : Prop :=
  ∀ (j : Nat) (s : TrexStream), objs[j]? = some s → ∃ node, heap (base + j) = some node ∧
    NodeFor base s node

/-- **The node of the stream at place `k` sends the next packet**, and nothing else is scheduled. -/
structure Solo (obj : TrexStreamsCompiledObj) (base : Ptr) (c : TrexStatelessDpCore) (k : Nat)
    (node : CGenNodeStateless) : Prop where
  inv : c.Inv
  listed : (c.ports obj.portId).activeNodes = (List.range obj.objs.length).map (base + ·)
  nodes : HeapFor obj.objs base c.heap
  place : k < obj.objs.length
  current : c.heap (base + k) = some node
  active : node.state = .ssACTIVE
  state : c.state = .STATE_TRANSMITTING
  nonActiveNodes : c.nonActiveNodes = 0
  queue : ∃ marks, c.queue.Perm (.stateless (base + k) :: marks) ∧ PhaseMarks c.phase marks

/-- All streams have ended. -/
def Silent (c : TrexStatelessDpCore) : Prop := ∀ x ∈ c.queue, ∃ time, x = .flowSync time

/-- The next packet, if there is one, is that of a node. -/
def Turn (obj : TrexStreamsCompiledObj) (base : Ptr) (c : TrexStatelessDpCore) :
    Option (Nat × CGenNodeStateless) → Prop
  | some x => Solo obj base c x.1 x.2
  | none => Silent c

/-- The node that sends is one of its stream. -/
theorem Solo.nodeFor (h : Solo obj base c k node) :
    ∃ s, obj.objs[k]? = some s ∧ NodeFor base s node := by
  have hs := List.getElem?_eq_getElem h.place
  obtain ⟨node', hp, hfor⟩ := h.nodes k _ hs
  rw [h.current] at hp
  obtain rfl := Option.some.inj hp
  exact ⟨_, hs, hfor⟩

/-- No stop command is scheduled. -/
theorem Solo.commandsOk (h : Solo obj base c k node) : CommandsOk c := by
  obtain ⟨marks, hperm, hmarks⟩ := h.queue
  have hnil : marks.filterMap QueueNode.cmd? = [] := by
    refine filterMap_eq_nil_iff.mpr fun x hx => ?_
    obtain ⟨time, rfl⟩ := hmarks.flowSync x hx
    rfl
  have hlen := (hperm.filterMap QueueNode.cmd?).length_eq
  rw [CommandsOk, h.nonActiveNodes, commands, hlen, filterMap_cons_none rfl, hnil]
  rfl

variable {node' : CGenNodeStateless} {heap : Ptr → Option CGenNodeStateless} {a : Act}
  {first : Nat × CGenNodeStateless} {time : Rat}

/-- **The other nodes are inactive**: an active one would be scheduled. -/
theorem Solo.inactive (h : Solo obj base c k node) {j : Nat} (hj : j < obj.objs.length)
    (hne : j ≠ k) (hp : c.heap (base + j) = some node') :
    node'.state = .ssINACTIVE := by
  have hmem : base + j ∈ (c.ports obj.portId).activeNodes := by
    rw [h.listed]
    exact mem_map.mpr ⟨j, mem_range.mpr hj, rfl⟩
  obtain ⟨x, hx, -, hfree⟩ := h.inv.of_mem_nodes hmem
  rw [hp] at hx
  obtain rfl := Option.some.inj hx
  cases hstate : node'.state with
  | ssFREE_RESUSE => exact absurd hstate hfree
  | ssINACTIVE => rfl
  | ssACTIVE =>
    have hqueued : base + j ∈ c.pool.queued := by
      refine h.inv.pool.mem_queued.mpr ?_
      rw [status_running hp hstate]
      rfl
    obtain ⟨marks, hperm, hmarks⟩ := h.queue
    obtain ⟨x, hx, hptr⟩ := mem_filterMap.mp hqueued
    rcases mem_cons.mp (hperm.mem_iff.mp hx) with rfl | hin
    · exact absurd (Nat.add_left_cancel (Option.some.inj hptr)).symm hne
    · obtain ⟨time, rfl⟩ := hmarks.flowSync x hin
      cases hptr

/-! ## 4. A packet is sent -/

theorem HeapFor.update {objs : List TrexStream} {s : TrexStream} (h : HeapFor objs base heap)
    (hk : objs[k]? = some s) (hnode : NodeFor base s node) :
    HeapFor objs base (update heap (base + k) (some node)) := by
  intro j s' hj
  by_cases hjk : j = k
  · subst hjk
    rw [hk] at hj
    obtain rfl := Option.some.inj hj
    exact ⟨node, update_self _ _ _, hnode⟩
  · rw [update_of_ne (fun heq => hjk (Nat.add_left_cancel heq))]
    exact h j s' hj

/-- The node that sent is taken from the queue, and the node at place `j` is scheduled. -/
theorem Solo.next (h : Solo obj base c k node) {m : Nat}
    (hm : c.queue[m]? = some (.stateless (base + k))) {j : Nat}
    (hnodes : HeapFor obj.objs base heap) (hplace : j < obj.objs.length)
    (hcurrent : heap (base + j) = some node') (hactive : node'.state = .ssACTIVE)
    (hinv : ({ c with heap := heap, queue := .stateless (base + j) :: c.queue.eraseIdx m } :
      TrexStatelessDpCore).Inv) :
    Solo obj base { c with heap := heap, queue := .stateless (base + j) :: c.queue.eraseIdx m } j
        node' := by
  obtain ⟨marks, hperm, hmarks⟩ := h.queue
  have herase : (c.queue.eraseIdx m).Perm marks := ((perm_eraseIdx hm).symm.trans hperm).cons_inv
  exact ⟨hinv, h.listed, hnodes, hplace, hcurrent, hactive, h.state, h.nonActiveNodes, marks,
    herase.cons _, hmarks⟩

/-- The last packet of a stream whose next one is inactive: the next one is woken. -/
theorem finishNode_wakes {q : Ptr} {next : CGenNodeStateless} {info : TrexStream}
    (hport : HasPort c.localPortOffset node.portId) (hnext : node.nextStream = some q)
    (hq : (c.setNode p node.handleMultiBurst).heap q = some next)
    (hstate : next.state = .ssINACTIVE) (hinfo : next.refStreamInfo = some info) :
    finishNode p node c
      = .ok (((c.setNode p node.handleMultiBurst).setNode q
          ((next.refresh info).updateRefreshTime info node.handleMultiBurst.time)).push
              (.stateless q)) := by
  have hset : setStatelessNextNode node.portId node.nextStream (c.setNode p node.handleMultiBurst)
      = .ok ((c.setNode p node.handleMultiBurst).setNode q (next.refresh info), true) := by
    unfold setStatelessNextNode getPortDb
    rw [check_true (show HasPort (c.setNode p node.handleMultiBurst).localPortOffset node.portId
      from hport), hnext]
    dsimp only [bind, Except.bind]
    rw [getNode_eq hq]
    dsimp only
    rw [hstate]
    dsimp only
    rw [hinfo]
  have hnode : ((c.setNode p node.handleMultiBurst).setNode q (next.refresh info)).getNode q
      = .ok (next.refresh info) := getNode_eq setNode_heap_eq
  unfold finishNode
  rw [hset]
  dsimp only [bind, Except.bind]
  rw [if_pos rfl, hnext]
  dsimp only
  rw [hnode]
  dsimp only
  rw [show (next.refresh info).refStreamInfo = some info from hinfo]
  simp [setNode, push]

theorem state_of_last (hlast : node.isLastPacket = true) :
    node.handleMultiBurst.state = .ssINACTIVE := by
  rw [CGenNodeStateless.handleMultiBurst_state, if_pos hlast]

/-- **The node sends its packet**, and then it is the turn of the next one. -/
theorem Solo.send (h : Solo obj base c k node) (hlinks : LinksOk obj.objs) {m : Nat}
    (hm : c.queue[m]? = some (.stateless (base + k))) (hstep : c.step (.pop m) = .ok c')
    (hinv : c'.Inv) :
    Turn obj base c' (nextSend obj.objs base k node) := by
  obtain ⟨s, hk, hfor⟩ := h.nodeFor
  have htype := hfor.streamType
  have hok := h.inv.node _ node h.current
  unfold step at hstep
  simp only [hm] at hstep
  change popStateless (base + k) { c with queue := c.queue.eraseIdx m } = _ at hstep
  rw [popStateless, getNode_eq
    (show ({ c with queue := c.queue.eraseIdx m } : TrexStatelessDpCore).heap (base + k)
    = some node from h.current)] at hstep
  simp only [bind, Except.bind, h.active, reduceCtorEq, if_false] at hstep
  unfold handleNode at hstep
  unfold nextSend
  by_cases hcont : s.type = .stCONTINUOUS
  · rw [if_pos hcont] at htype
    rw [htype] at hstep
    cases hstep
    rw [if_pos htype]
    exact h.next hm (HeapFor.update h.nodes hk hfor.handleContinues) h.place (update_self _ _ _)
      h.active hinv
  · rw [if_neg hcont] at htype
    rw [htype] at hstep
    simp only at hstep
    rw [if_neg (by rw [htype]; decide)]
    have hheap := HeapFor.update h.nodes hk hfor.handleMultiBurst
    by_cases hlast : node.isLastPacket = true
    · rw [if_pos hlast] at hstep ⊢
      have hnext := hfor.nextStream
      rw [hk]
      dsimp only
      by_cases hdp : s.isDpNextStream = true
      · rw [if_pos hdp] at hnext ⊢
        have hlt : s.nextStreamId.toInt.toNat < obj.objs.length := by
          have hle := hlinks s (mem_of_getElem? hk) hdp
          have hnonneg := (isDpNextStream_iff s).mp hdp
          omega
        have hj := List.getElem?_eq_getElem hlt
        obtain ⟨x, hx, hforx⟩ := hheap _ _ hj
        have hstate : x.state = .ssINACTIVE := by
          by_cases hjk : s.nextStreamId.toInt.toNat = k
          · rw [hjk, update_self] at hx
            obtain rfl := Option.some.inj hx
            exact state_of_last hlast
          · rw [update_of_ne (fun heq => hjk (Nat.add_left_cancel heq))] at hx
            exact h.inactive hlt hjk hx
        rw [finishNode_wakes (c := { c with queue := c.queue.eraseIdx m }) hok.port hnext hx hstate
          hforx.info, hforx.woken, CGenNodeStateless.time_of_last hlast] at hstep
        cases hstep
        rw [hj]
        exact h.next hm (HeapFor.update hheap hj (nodeFor_wokenNode base _ _)) hlt
          (update_self _ _ _) rfl hinv
      · rw [if_neg hdp] at hnext ⊢
        rcases finishNode_cases hstep with ⟨q, next, info, hsome, -⟩ | hreduce
        · rw [hnext] at hsome
          cases hsome
        · -- what is left in the queue
          obtain ⟨-, hqueue⟩ := reduceActiveStreams_steady hreduce
          obtain ⟨marks, hperm, hmarks⟩ := h.queue
          have herase : (c.queue.eraseIdx m).Perm marks :=
            ((perm_eraseIdx hm).symm.trans hperm).cons_inv
          intro x hx
          rw [hqueue] at hx
          exact hmarks.flowSync x (herase.mem_iff.mp hx)
    · rw [if_neg hlast] at hstep ⊢
      cases hstep
      refine h.next hm hheap h.place (update_self _ _ _) ?_ hinv
      rw [CGenNodeStateless.handleMultiBurst_state, if_neg hlast]
      exact h.active

/-! ## 5. Runs -/

/-- **A step keeps the turn, or sends the packet.** -/
theorem Solo.step (h : Solo obj base c k node) (hlinks : LinksOk obj.objs) (hen : c.Enabled a)
    (ha : a.internal) (hstep : c.step a = .ok c') :
    (c.sender? a = none ∧ Solo obj base c' k node)
      ∨ (c.sender? a = some node ∧ Turn obj base c' (nextSend obj.objs base k node)) := by
  have hinv := (step_post h.inv h.commandsOk hen).result hstep
  obtain ⟨marks, hperm, hmarks⟩ := h.queue
  cases a with
  | msg m => exact ha.elim
  | leaveIdle =>
    have hphase : c.phase = .idleLoop := hen.1
    rw [hphase] at hmarks
    obtain rfl : marks = [] := hmarks
    unfold TrexStatelessDpCore.step at hstep
    simp only [h.state, reduceCtorEq, if_false] at hstep
    cases hstep
    exact Or.inl ⟨rfl, hinv, h.listed, h.nodes, h.place, h.current, h.active, h.state,
      h.nonActiveNodes,
      [.flowSync (c.curTimeSec + syncTimeOut)], (hperm.cons _).trans (List.Perm.swap _ _ _), _, rfl⟩
  | pop m =>
    obtain ⟨hphase, qnode, hm, -⟩ := hen
    have hmem := hperm.mem_iff.mp (mem_of_getElem? hm)
    rcases mem_cons.mp hmem with rfl | hin
    · refine Or.inr ⟨?_, h.send hlinks hm hstep hinv⟩
      obtain ⟨s, -, hfor⟩ := h.nodeFor
      simp [sender?, hm, h.current, h.active, hfor.sends]
    · obtain ⟨time, rfl⟩ := hmarks.flowSync qnode hin
      refine Or.inl ⟨by simp [sender?, hm], ?_⟩
      have herase := (perm_eraseIdx hm).symm.trans hperm
      rw [hphase] at hmarks
      obtain ⟨time', rfl⟩ := hmarks
      cases mem_singleton.mp hin
      unfold TrexStatelessDpCore.step at hstep
      simp only [hm] at hstep
      cases hstep
      exact ⟨hinv, h.listed, h.nodes, h.place, h.current, h.active, h.state, h.nonActiveNodes, [],
        (herase.trans (List.Perm.swap _ _ _)).cons_inv, rfl⟩
  | endSync =>
    obtain ⟨time, hphase⟩ := hen
    rw [hphase] at hmarks
    obtain rfl : marks = [] := hmarks
    have hlen : ¬ c.queue.length = c.nonActiveNodes := by
      rw [hperm.length_eq, h.nonActiveNodes]
      exact Nat.succ_ne_zero _
    unfold TrexStatelessDpCore.step at hstep
    simp only [hphase] at hstep
    rw [TrexStatelessDpCore.endSync, if_neg hlen] at hstep
    cases hstep
    exact Or.inl ⟨rfl, hinv, h.listed, h.nodes, h.place, h.current, h.active, h.state,
      h.nonActiveNodes,
      [.flowSync (time + syncTimeOut)], (hperm.cons _).trans (List.Perm.swap _ _ _), _, rfl⟩

theorem Silent.step (h : Silent c) (ha : a.internal) (hstep : c.step a = .ok c') :
    c.sender? a = none ∧ Silent c' := by
  cases a with
  | msg m => exact ha.elim
  | leaveIdle =>
    refine ⟨rfl, ?_⟩
    unfold TrexStatelessDpCore.step at hstep
    simp only at hstep
    split at hstep
    · cases hstep
      exact h
    · cases hstep
      intro x hx
      rcases mem_cons.mp hx with rfl | hx
      · exact ⟨_, rfl⟩
      · exact h x hx
  | pop m =>
    unfold TrexStatelessDpCore.step at hstep
    simp only at hstep
    cases hm : c.queue[m]? with
    | none =>
      rw [hm] at hstep
      cases hstep
    | some qnode =>
      obtain ⟨time, rfl⟩ := h qnode (mem_of_getElem? hm)
      rw [hm] at hstep
      cases hstep
      exact ⟨by simp [sender?, hm], fun x hx => h x (mem_of_mem_eraseIdx hx)⟩
  | endSync =>
    refine ⟨rfl, ?_⟩
    unfold TrexStatelessDpCore.step at hstep
    simp only at hstep
    split at hstep
    · unfold TrexStatelessDpCore.endSync at hstep
      split at hstep
      · rcases closeScheduler_control hstep with ⟨-, rfl⟩ | ⟨-, -, -, hqueue, -⟩
        · exact h
        · intro x hx
          rw [hqueue] at hx
          cases hx
      · cases hstep
        intro x hx
        rcases mem_cons.mp hx with rfl | hx
        · exact ⟨_, rfl⟩
        · exact h x hx
    · cases hstep
      exact h

/-- **What a run sends is a prefix of the sequence of all packets**, and then it is the turn of the
next one. -/
theorem Undisturbed.sends (hlinks : LinksOk obj.objs) (hfirst : Solo obj base c first.1 first.2)
    {log : List CGenNodeStateless} (h : Undisturbed c log c') :
    Turn obj base c' (sends obj.objs base first log.length)
      ∧ ∀ n node, log[n]? = some node →
          ∃ k, Trex.Dp.sends obj.objs base first n = some (k, node) := by
  induction h with
  | refl => exact ⟨hfirst, fun n node hn => by simp at hn⟩
  | step hrun ha hen hstep ih =>
    rename_i log c1 c2 a
    obtain ⟨hturn, hlog⟩ := ih
    cases hnext : Trex.Dp.sends obj.objs base first log.length with
    | none =>
      rw [hnext] at hturn
      obtain ⟨hnone, hsilent⟩ := Silent.step hturn ha hstep
      rw [hnone, Option.toList_none, append_nil, hnext]
      exact ⟨hsilent, hlog⟩
    | some x =>
      rw [hnext] at hturn
      rcases Solo.step hturn hlinks hen ha hstep with ⟨hnone, hsolo⟩ | ⟨hsome, hturn'⟩
      · rw [hnone, Option.toList_none, append_nil, hnext]
        exact ⟨hsolo, hlog⟩
      · rw [hsome, Option.toList_some, length_append, length_singleton]
        refine ⟨?_, fun n node hn => ?_⟩
        · rw [Trex.Dp.sends, hnext]
          exact hturn'
        · rcases lt_or_ge n log.length with hlt | hge
          · rw [List.getElem?_append_left hlt] at hn
            exact hlog n node hn
          · rw [List.getElem?_append_right hge, List.getElem?_singleton] at hn
            split at hn
            · obtain rfl := Option.some.inj hn
              obtain rfl : n = log.length := by omega
              exact ⟨x.1, hnext⟩
            · cases hn

/-! ## 6. Every packet is sent -/

/-- No step of the run can fail. -/
theorem Solo.exists_step (h : Solo obj base c k node) (hen : c.Enabled a) (ha : a.internal) :
    ∃ c', c.step a = .ok c' := by
  have hpost := step_post h.inv h.commandsOk hen
  cases hstep : c.step a with
  | ok c' => exact ⟨c', rfl⟩
  | error fault =>
    rw [hstep] at hpost
    cases a with
    | msg m => exact ha.elim
    | leaveIdle => exact absurd hpost id
    | endSync => exact absurd hpost id
    | pop m =>
      -- only an `EXIT_SCHED` node can fail
      obtain rfl : fault = .maskForFree := hpost
      obtain ⟨time, hmark, -⟩ := maskForFree_exit h.inv h.commandsOk hen hstep
      obtain ⟨marks, hperm, hmarks⟩ := h.queue
      rcases mem_cons.mp (hperm.mem_iff.mp (mem_of_mem_filter hmark)) with heq | hin
      · cases heq
      · obtain ⟨time', heq⟩ := hmarks.flowSync _ hin
        cases heq

/-- One step of a run that sends nothing. -/
theorem Undisturbed.one (hen : c.Enabled a) (ha : a.internal) (hstep : c.step a = .ok c') :
    Undisturbed c (c.sender? a).toList c' := by
  have hrun := Undisturbed.step (.refl (c := c)) ha hen hstep
  rw [nil_append] at hrun
  exact hrun

/-- The node is due: it is taken from the queue. -/
theorem Solo.exists_send_due (h : Solo obj base c k node) (hphase : c.phase = .scheduler)
    (hperm : c.queue.Perm [.stateless (base + k), .flowSync time]) (hdue : node.time ≤ time) :
    ∃ c', Undisturbed c [node] c' := by
  have hnode : c.nodeTime (.stateless (base + k)) = node.time := by
    rw [nodeTime, h.current]
    rfl
  obtain ⟨m, hm⟩ := List.getElem?_of_mem (hperm.mem_iff.mpr mem_cons_self)
  have hen : c.Enabled (.pop m) := by
    refine ⟨hphase, _, hm, fun other hother => ?_⟩
    rw [hnode]
    rcases mem_cons.mp (hperm.mem_iff.mp hother) with rfl | hin
    · exact hnode.ge
    · rw [mem_singleton.mp hin]
      exact hdue
  obtain ⟨c', hstep⟩ := h.exists_step hen trivial
  have hrun := Undisturbed.one hen trivial hstep
  obtain ⟨s, -, hfor⟩ := h.nodeFor
  have hsender : c.sender? (.pop m) = some node := by
    simp [sender?, hm, h.current, h.active, hfor.sends]
  rw [hsender] at hrun
  exact ⟨c', hrun⟩

/-- The end of a `FLOW_SYNC` node, which is scheduled again. -/
theorem Solo.exists_endSync (h : Solo obj base c k node) (hlinks : LinksOk obj.objs)
    (hphase : c.phase = .sync time) : ∃ c', Undisturbed c [] c' ∧ Solo obj base c' k node
      ∧ c'.phase = .scheduler ∧
          c'.queue.Perm [.stateless (base + k), .flowSync (time + syncTimeOut)] := by
  have hen : c.Enabled .endSync := ⟨time, hphase⟩
  obtain ⟨marks, hperm, hmarks⟩ := h.queue
  rw [hphase] at hmarks
  obtain rfl : marks = [] := hmarks
  have hlen : ¬ c.queue.length = c.nonActiveNodes := by
    rw [hperm.length_eq, h.nonActiveNodes]
    exact Nat.succ_ne_zero _
  have hstep : c.step .endSync
      = .ok { c.push (.flowSync (time + syncTimeOut)) with phase := .scheduler } := by
    unfold TrexStatelessDpCore.step
    simp only [hphase]
    rw [endSync, if_neg hlen]
  refine ⟨_, Undisturbed.one hen trivial hstep, ?_, rfl,
    (hperm.cons _).trans (List.Perm.swap _ _ _)⟩
  rcases h.step hlinks hen trivial hstep with ⟨-, hsolo⟩ | ⟨hsome, -⟩
  · exact hsolo
  · cases hsome

/-- The node is not due: the `FLOW_SYNC` node is taken from the queue. -/
theorem Solo.exists_sync (h : Solo obj base c k node) (hlinks : LinksOk obj.objs)
    (hphase : c.phase = .scheduler) (hperm : c.queue.Perm [.stateless (base + k), .flowSync time])
    (hlate : time ≤ node.time) :
    ∃ c', Undisturbed c [] c' ∧ Solo obj base c' k node ∧ c'.phase = .sync time := by
  obtain ⟨m, hm⟩ := List.getElem?_of_mem (hperm.mem_iff.mpr (mem_cons_of_mem _ mem_cons_self))
  have hen : c.Enabled (.pop m) := by
    refine ⟨hphase, _, hm, fun other hother => ?_⟩
    rcases mem_cons.mp (hperm.mem_iff.mp hother) with rfl | hin
    · rw [nodeTime, nodeTime, h.current]
      exact hlate
    · rw [mem_singleton.mp hin]
  have hstep : c.step (.pop m)
      = .ok { c with queue := c.queue.eraseIdx m, curTimeSec := time, phase := .sync time } := by
    unfold TrexStatelessDpCore.step
    simp only [hm]
    rfl
  have hsender : c.sender? (.pop m) = none := by
    simp [sender?, hm]
  have hrun := Undisturbed.one hen trivial hstep
  rw [hsender] at hrun
  refine ⟨_, hrun, ?_, rfl⟩
  rcases h.step hlinks hen trivial hstep with ⟨-, hsolo⟩ | ⟨hsome, -⟩
  · exact hsolo
  · rw [hsender] at hsome
    cases hsome

/-- From the scheduler: every turn of the `FLOW_SYNC` node comes a time-out nearer to the time of
the node. -/
theorem exists_send_from (hlinks : LinksOk obj.objs) :
    ∀ (n : Nat) {c : TrexStatelessDpCore} {time : Rat},
    Solo obj base c k node → c.phase = .scheduler →
    c.queue.Perm [.stateless (base + k), .flowSync time] → node.time ≤ time + n * syncTimeOut →
    ∃ c', Undisturbed c [node] c' := by
  intro n
  induction n with
  | zero =>
    intro c time h hphase hperm hle
    refine h.exists_send_due hphase hperm ?_
    simpa using hle
  | succ n ih =>
    intro c time h hphase hperm hle
    rcases le_or_gt node.time time with hdue | hlate
    · exact h.exists_send_due hphase hperm hdue
    · obtain ⟨c1, hrun1, hsolo1, hphase1⟩ := h.exists_sync hlinks hphase hperm hlate.le
      obtain ⟨c2, hrun2, hsolo2, hphase2, hperm2⟩ := hsolo1.exists_endSync hlinks hphase1
      have hle2 : node.time ≤ time + syncTimeOut + n * syncTimeOut := by
        push_cast at hle
        linarith
      obtain ⟨c3, hrun3⟩ := ih hsolo2 hphase2 hperm2 hle2
      exact ⟨c3, (hrun1.trans hrun2).trans hrun3⟩

/-- **A core sends the packet whose turn it is.** -/
theorem Solo.exists_send (h : Solo obj base c k node) (hlinks : LinksOk obj.objs) :
    ∃ c', Undisturbed c [node] c' := by
  have hturns : ∀ time : Rat, ∃ n : Nat, node.time ≤ time + n * syncTimeOut := by
    intro time
    obtain ⟨n, hn⟩ := exists_nat_ge ((node.time - time) / syncTimeOut)
    refine ⟨n, ?_⟩
    have := (div_le_iff₀ syncTimeOut_pos).mp hn
    linarith
  -- from the scheduler on
  have hscheduler : ∀ {c1 : TrexStatelessDpCore}, Solo obj base c1 k node → c1.phase = .scheduler →
      ∃ c', Undisturbed c1 [node] c' := by
    intro c1 h1 hphase
    obtain ⟨marks, hperm, hmarks⟩ := h1.queue
    rw [hphase] at hmarks
    obtain ⟨time, rfl⟩ := hmarks
    obtain ⟨n, hn⟩ := hturns time
    exact exists_send_from hlinks n h1 hphase hperm hn
  cases hphase : c.phase with
  | scheduler => exact hscheduler h hphase
  | sync time =>
    obtain ⟨c1, hrun, hsolo, hphase1, -⟩ := h.exists_endSync hlinks hphase
    obtain ⟨c', hrun'⟩ := hscheduler hsolo hphase1
    exact ⟨c', hrun.trans hrun'⟩
  | idleLoop =>
    have hen : c.Enabled .leaveIdle := ⟨hphase, by rw [h.state]; decide⟩
    obtain ⟨c1, hstep⟩ := h.exists_step hen trivial
    have hrun := Undisturbed.one hen trivial hstep
    have hphase1 : c1.phase = .scheduler := by
      unfold TrexStatelessDpCore.step at hstep
      simp only [h.state, reduceCtorEq, if_false] at hstep
      cases hstep
      rfl
    rcases h.step hlinks hen trivial hstep with ⟨-, hsolo⟩ | ⟨hsome, -⟩
    · obtain ⟨c', hrun'⟩ := hscheduler hsolo hphase1
      exact ⟨c', hrun.trans hrun'⟩
    · cases hsome
  | ended =>
    obtain ⟨marks, -, hmarks⟩ := h.queue
    rw [hphase] at hmarks
    exact hmarks.elim

/-- **Every packet of the sequence is sent**, by some run. -/
theorem Solo.exists_sends (hlinks : LinksOk obj.objs) (hfirst : Solo obj base c first.1 first.2) :
    ∀ {n : Nat} {x : Nat × CGenNodeStateless},
    Trex.Dp.sends obj.objs base first n = some x →
    ∃ log c', Undisturbed c log c' ∧ log.length = n + 1 := by
  intro n
  induction n with
  | zero =>
    intro x hx
    obtain ⟨c', hrun⟩ := hfirst.exists_send hlinks
    exact ⟨_, c', hrun, rfl⟩
  | succ n ih =>
    intro x hx
    obtain ⟨y, hy, -⟩ := Option.bind_eq_some_iff.mp hx
    obtain ⟨log, c1, hrun, hlen⟩ := ih hy
    have hturn := (Undisturbed.sends hlinks hfirst hrun).1
    rw [hlen, hx] at hturn
    obtain ⟨c2, hrun'⟩ := Solo.exists_send hturn hlinks
    exact ⟨_, c2, hrun.trans hrun', by rw [length_append, hlen]; rfl⟩

/-! ## 7. The start -/

/-- The second loop of `start_traffic` links a stream whose next one is given, and there is such a
node. -/
theorem linkStreams_next : ∀ {ss : List TrexStream} {cnt : Nat} {c c' : TrexStatelessDpCore},
    linkStreams i cnt ss c = .ok c' → (c.ports i).activeNodes.Nodup → ∀ {j : Nat} {s : TrexStream},
    ss[j]? = some s → s.isDpNextStream = true →
      ∃ q, (c.ports i).activeNodes[s.nextStreamId.toInt.toNat]? = some q
      ∧ ∀ p node, (c.ports i).activeNodes[cnt + j]? = some p → c'.heap p = some node →
          node.nextStream = some q := by
  intro ss
  induction ss with
  | nil => exact fun _ _ _ _ hj => by simp at hj
  | cons s0 ss ih =>
    intro cnt c c' h hnodup j s hj hdp
    rw [linkStreams] at h
    cases j with
    | zero =>
      obtain rfl : s0 = s := by simpa using hj
      rw [if_pos hdp] at h
      simp only at h
      split at h
      · cases h
      rename_i q hq
      split at h
      · cases h
      rename_i p0 hp0
      obtain ⟨node0, -, h⟩ := bind_eq_ok h
      refine ⟨q, hq, fun p node hp hnode => ?_⟩
      obtain rfl : p0 = p := Option.some.inj (hp0.symm.trans hp)
      obtain ⟨node1, hnode1, -, hlink⟩ := linkStreams_nodes i h p0 node hnode
      rcases hlink with hkept | ⟨j', s', -, hplace, -⟩
      · rw [setNode_heap_eq] at hnode1
        obtain rfl := Option.some.inj hnode1
        exact hkept
      · -- another stream has another node
        have hsame := (List.getElem?_inj (List.getElem?_eq_some_iff.mp hp0).1 hnodup).mp
          (hp0.trans hplace.symm)
        omega
    | succ j =>
      have hj' : ss[j]? = some s := by simpa using hj
      have hplace : cnt + (j + 1) = cnt + 1 + j := by omega
      split at h
      · simp only at h
        split at h
        · cases h
        split at h
        · cases h
        obtain ⟨node0, -, h⟩ := bind_eq_ok h
        rw [hplace]
        exact ih h hnodup hj' hdp
      · rw [hplace]
        exact ih h hnodup hj' hdp

/-- Streams that do not start by themselves are not scheduled. -/
theorem addStreams_queue : ∀ {ss : List TrexStream} {c c' : TrexStatelessDpCore},
    addStreams i ss c = .ok c' →
    (∀ s ∈ ss, s.selfStart = false) → c'.queue = c.queue := by
  intro ss
  induction ss with
  | nil =>
    intro c c' h _
    cases h
    rfl
  | cons s ss ih =>
    intro c c' h hself
    rw [addStreams] at h
    obtain ⟨_, -, h⟩ := bind_eq_ok h
    rw [addStream_eq] at h
    rw [ih h fun s' hs' => hself s' (mem_cons_of_mem _ hs')]
    simp [hself s mem_cons_self]

/-- **A start of streams of which only the first starts by itself**, on a core where nothing is
scheduled: it is the turn of the first one. -/
theorem startTraffic_solo {duration : Rat} {eventId : Int} {root : TrexStream}
    {rest : List TrexStream} (hobj : obj.objs = root :: rest) (hroot : root.selfStart = true)
    (hrest : ∀ s ∈ rest, s.selfStart = false) (hinv : c.Inv) (hcommands : CommandsOk c)
    (hphase : c.phase = .idleLoop) (hqueue : c.queue = []) (hduration : duration ≤ 0)
    (h : startTraffic obj duration eventId c = .ok c') :
    LinksOk obj.objs ∧ Solo obj c.fresh c' 0 (linkedNode c.fresh c.curTimeSec root) := by
  have hinv' : c'.Inv := (startTraffic_post hinv obj duration eventId).result h
  obtain ⟨hlisted, hmade⟩ := startTraffic_made hinv' h hinv.fresh
  have heffect := startTraffic_effect h
  obtain ⟨hphase', hstate', -⟩ := startTraffic_control h
  have hnonActive : c'.nonActiveNodes = 0 := by
    rw [heffect.nonActiveNodes, if_neg (not_lt.mpr hduration), hcommands, commands, hqueue]
    rfl
  obtain ⟨hnil, c1, c2, hadd, hlink, h⟩ := startTraffic_eq_ok h
  have hqueue1 : c1.queue = [.stateless c.fresh] := by
    rw [hobj, addStreams] at hadd
    obtain ⟨_, -, hadd⟩ := bind_eq_ok hadd
    rw [addStreams_queue hadd hrest, addStream_eq]
    simp [hroot, setPort, hqueue]
  obtain ⟨heap, -, hc2⟩ := linkStreams_effect _ hlink
  have hsame : c'.queue = [.stateless c.fresh] ∧ c'.heap = c2.heap
      ∧ (c1.ports obj.portId).activeNodes = (c'.ports obj.portId).activeNodes := by
    cases h
    unfold addPortDuration
    rw [if_neg (not_lt.mpr hduration), hc2]
    exact ⟨hqueue1, rfl, by simp [setPort]⟩
  obtain ⟨hqueue', hheap', hlisted1⟩ := hsame
  rw [hlisted] at hlisted1
  have hnodup : (c1.ports obj.portId).activeNodes.Nodup := by
    rw [hlisted1]
    exact nodup_range.map (add_right_injective _)
  -- what the places of the list are
  have hplace : ∀ {j p : Nat}, (c1.ports obj.portId).activeNodes[j]? = some p →
      j < obj.objs.length ∧ p = c.fresh + j := by
    intro j p hj
    rw [hlisted1, List.getElem?_map, Option.map_eq_some_iff] at hj
    obtain ⟨j', hj', rfl⟩ := hj
    obtain ⟨hlt, rfl⟩ := List.getElem?_eq_some_iff.mp hj'
    rw [length_range] at hlt
    exact ⟨hlt, by rw [getElem_range]⟩
  have hat : ∀ {j : Nat}, j < obj.objs.length →
      (c1.ports obj.portId).activeNodes[0 + j]? = some (c.fresh + j) := by
    intro j hj
    rw [hlisted1, Nat.zero_add, List.getElem?_map, List.getElem?_range hj, Option.map_some]
  -- every node is linked as its stream is
  have hnode : ∀ (j : Nat) (s : TrexStream), obj.objs[j]? = some s →
      c'.heap (c.fresh + j) = some (linkedNode c.fresh c.curTimeSec s) := by
    intro j s hj
    have hlt : j < obj.objs.length := (List.getElem?_eq_some_iff.mp hj).1
    obtain ⟨node, hp, -, hmake⟩ := hmade j s hj
    rw [hp, hmake, linkedNode]
    rw [hheap'] at hp
    by_cases hdp : s.isDpNextStream = true
    · obtain ⟨q, hq, hlinked⟩ := linkStreams_next hlink hnodup hj hdp
      rw [if_pos hdp, hlinked _ node (hat hlt) hp, (hplace hq).2]
    · rw [if_neg hdp]
      obtain ⟨node1, hp1, -, hnext⟩ := linkStreams_nodes _ hlink _ node hp
      rcases hnext with hkept | ⟨j', s', hj', hpj', hdp', -⟩
      · rw [hkept]
        obtain ⟨-, hold, -⟩ := addStreams_nodes _ hadd
        rcases hold _ node1 hp1 with hold | ⟨k', s', -, -, rfl⟩
        · have hnone := hinv.fresh (c.fresh + j) (Nat.le_add_right _ _)
          exact absurd (hnone.symm.trans hold) fun heq => by cases heq
        · rw [newNode_nextStream]
      · rw [Nat.zero_add] at hpj'
        obtain rfl : j = j' := Nat.add_left_cancel (hplace hpj').2
        rw [hj] at hj'
        obtain rfl := Option.some.inj hj'
        exact absurd hdp' hdp
  have hfirst : obj.objs[0]? = some root := by
    rw [hobj]
    rfl
  refine ⟨fun s hs hdp => ?_, hinv', hlisted, ?_, ?_, hnode 0 root hfirst, ?_, hstate', hnonActive,
    [], ?_, ?_⟩
  · obtain ⟨j, hj⟩ := List.getElem?_of_mem hs
    obtain ⟨q, hq, -⟩ := linkStreams_next hlink hnodup hj hdp
    have hlt := (hplace hq).1
    have hnonneg := (isDpNextStream_iff s).mp hdp
    omega
  · exact fun j s hj => ⟨_, hnode j s hj, nodeFor_linkedNode _ _ s⟩
  · exact (List.getElem?_eq_some_iff.mp hfirst).1
  · change (newNode c.curTimeSec root).state = _
    rw [newNode_state, if_pos hroot]
  · rw [hqueue']
    rfl
  · rw [hphase', hphase]
    rfl

end TrexStatelessDpCore

end Trex.Dp
