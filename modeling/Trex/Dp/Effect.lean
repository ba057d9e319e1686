/-
# What the operations of a core can change

One lemma for every operation of `Core.lean` that returns: the parts of the core that it changes,
and what becomes of the nodes (`Kept`).  The proofs about whole steps use these lemmas and do not
unfold the operations again.
-/
import Mathlib.Data.List.Perm.Basic
import Trex.Dp.Core

namespace Trex.Dp

open Trex.Lib Trex.Stream List
open Function (update update_of_ne)

/-- The stop command of a queue node. -/
def QueueNode.cmd? : QueueNode → Option TrexStatelessDpStop
  | .stateless _ => none
  | .command _ cmd => some cmd
  | .flowSync _ => none
  | .exitSched _ => none

namespace TrexStatelessDpCore

/-! ## 1. Checks and pointers -/

variable {fault : Fault} {rest : List Ptr}

variable {b : Prop} {queue : List QueueNode} {eventId : Int} {obj : TrexStreamsCompiledObj}
  {qnode : QueueNode} {a : Act}

theorem check_true [Decidable b] (h : b) : check b fault = .ok () := if_pos h

theorem check_false [Decidable b] (h : ¬ b) :
    check b fault = .error fault := if_neg h

theorem check_eq_ok [Decidable b] {u : Unit} (h : check b fault = .ok u) :
    b := by
  by_contra hb
  rw [check_false hb] at h
  cases h

variable {c c' : TrexStatelessDpCore} {p : Ptr} {node : CGenNodeStateless} {i : UInt8}

theorem getNode_eq (h : c.heap p = some node) : c.getNode p = .ok node := by
  rw [getNode, h]

theorem getNode_eq_ok (h : c.getNode p = .ok node) : c.heap p = some node := by
  unfold getNode at h
  split at h
  · rename_i node' hp
    cases h
    exact hp
  · cases h

theorem getPortDb_eq_ok {port : TrexStatelessDpPerPort} (h : c.getPortDb i = .ok port) :
    port = c.ports i := by
  obtain ⟨u, -, h⟩ := bind_eq_ok h
  cases h
  rfl

/-! ## 2. The loops over the nodes of a port

What a loop does to the core is what it does to one node, time after time: a relation that is
reflexive and transitive holds over the loop when it holds over one turn of it. -/

section Loops

variable {R : TrexStatelessDpCore → TrexStatelessDpCore → Prop}

theorem setPauseNodes_rel (hrefl : ∀ c, R c c) (htrans : ∀ {a b c}, R a b → R b c → R a c)
    {enable : Bool} (hset : ∀ {c p node}, c.heap p = some node → node.portId = i →
      R c (c.setNode p (node.setPause enable))) : ∀ {rest : List Ptr} {c c' : TrexStatelessDpCore},
    setPauseNodes i enable fault rest c = .ok c' → R c c' := by
  intro rest
  induction rest with
  | nil =>
    intro c c' h
    cases h
    exact hrefl c
  | cons p rest ih =>
    intro c c' h
    rw [setPauseNodes] at h
    obtain ⟨node, hnode, h⟩ := bind_eq_ok h
    obtain ⟨_, hport, h⟩ := bind_eq_ok h
    obtain ⟨_, -, h⟩ := bind_eq_ok h
    exact htrans (hset (getNode_eq_ok hnode) (check_eq_ok hport)) (ih h)

theorem updateNodes_rel (hrefl : ∀ c, R c c) (htrans : ∀ {a b c}, R a b → R b c → R a c)
    {factor : Rat} (hset : ∀ {c p node}, c.heap p = some node → node.portId = i →
      R c (c.setNode p (node.updateRate factor))) :
    ∀ {rest : List Ptr} {c c' : TrexStatelessDpCore},
    updateNodes i factor rest c = .ok c' → R c c' := by
  intro rest
  induction rest with
  | nil =>
    intro c c' h
    cases h
    exact hrefl c
  | cons p rest ih =>
    intro c c' h
    rw [updateNodes] at h
    obtain ⟨node, hnode, h⟩ := bind_eq_ok h
    obtain ⟨_, hport, h⟩ := bind_eq_ok h
    exact htrans (hset (getNode_eq_ok hnode) (check_eq_ok hport)) (ih h)

/-- An active node is marked and counted off, another one is freed. -/
theorem stopNodes_rel (hrefl : ∀ c, R c c) (htrans : ∀ {a b c}, R a b → R b c → R a c)
    (hmark : ∀ {c p node}, c.heap p = some node → node.portId = i →
      R c ((c.setNode p node.markForFree).setPort i
        { c.ports i with activeStreams := (c.ports i).activeStreams - 1 }))
    (hfree : ∀ {c p node}, c.heap p = some node → node.portId = i → R c (c.freeNode p)) :
    ∀ {rest : List Ptr} {c c' : TrexStatelessDpCore}, stopNodes i rest c = .ok c' → R c c' := by
  intro rest
  induction rest with
  | nil =>
    intro c c' h
    cases h
    exact hrefl c
  | cons p rest ih =>
    intro c c' h
    rw [stopNodes] at h
    obtain ⟨node, hnode, h⟩ := bind_eq_ok h
    have hp := getNode_eq_ok hnode
    obtain ⟨_, hport, h⟩ := bind_eq_ok h
    split at h
    · obtain ⟨_, -, h⟩ := bind_eq_ok h
      exact htrans (hmark hp (check_eq_ok hport)) (ih h)
    · obtain ⟨_, -, h⟩ := bind_eq_ok h
      exact htrans (hfree hp (check_eq_ok hport)) (ih h)

end Loops

/-! ## 3. Nodes that stay -/

/-- Every node was there before, with its port and its type, and no node that is to be freed comes
back. -/
def Kept (heap heap' : Ptr → Option CGenNodeStateless) : Prop :=
  ∀ p node', heap' p = some node' → ∃ node, heap p = some node ∧ node'.portId = node.portId
    ∧ node'.streamType = node.streamType
    ∧ (node'.state ≠ .ssFREE_RESUSE → node.state ≠ .ssFREE_RESUSE)

theorem Kept.refl (heap : Ptr → Option CGenNodeStateless) : Kept heap heap :=
  fun _ node' h => ⟨node', h, rfl, rfl, id⟩

theorem Kept.trans {heap1 heap2 heap3 : Ptr → Option CGenNodeStateless} (h : Kept heap1 heap2)
    (h' : Kept heap2 heap3) : Kept heap1 heap3 := by
  intro p node hp
  obtain ⟨node2, hp2, hport2, htype2, hfree2⟩ := h' p node hp
  obtain ⟨node1, hp1, hport1, htype1, hfree1⟩ := h p node2 hp2
  exact ⟨node1, hp1, hport2.trans hport1, htype2.trans htype1, fun hs => hfree1 (hfree2 hs)⟩

theorem Kept.set {node' : CGenNodeStateless} (hp : c.heap p = some node)
    (hport : node'.portId = node.portId) (htype : node'.streamType = node.streamType)
    (hfree : node'.state ≠ .ssFREE_RESUSE → node.state ≠ .ssFREE_RESUSE) :
    Kept c.heap (update c.heap p (some node')) := by
  intro q x hq
  by_cases hqp : q = p
  · subst hqp
    obtain rfl : node' = x := by simpa using hq
    exact ⟨node, hp, hport, htype, hfree⟩
  · rw [update_of_ne hqp] at hq
    exact ⟨x, hq, rfl, rfl, id⟩

theorem Kept.free (heap : Ptr → Option CGenNodeStateless) (p : Ptr) :
    Kept heap (update heap p none) := by
  intro q x hq
  by_cases hqp : q = p
  · subst hqp
    simp at hq
  · rw [update_of_ne hqp] at hq
    exact ⟨x, hq, rfl, rfl, id⟩

/-! ## 4. Quiet steps and stops -/

/-- The stop commands that are scheduled. -/
def commands (c : TrexStatelessDpCore) :
    List TrexStatelessDpStop := c.queue.filterMap QueueNode.cmd?

/-- No port changes its state, and no counter of a running port goes down to 0. -/
structure Quiet (c c' : TrexStatelessDpCore) : Prop where
  offset : c'.localPortOffset = c.localPortOffset
  kept : Kept c.heap c'.heap
  state : ∀ j, (c'.ports j).state = (c.ports j).state
  eventId : ∀ j, (c'.ports j).eventId = (c.ports j).eventId
  count : ∀ j, 0 < (c.ports j).activeStreams →
    0 < (c'.ports j).activeStreams ∨ (c'.ports j).state = .ppSTATE_IDLE
  ring : c'.ringToCp = c.ringToCp

/-- A port stops, and the control plane is told. -/
structure Halted (i : UInt8) (c c' : TrexStatelessDpCore) : Prop where
  offset : c'.localPortOffset = c.localPortOffset
  kept : Kept c.heap c'.heap
  others : ∀ j ≠ i, c'.ports j = c.ports j
  before : (c.ports i).state ≠ .ppSTATE_IDLE
  after : (c'.ports i).state = .ppSTATE_IDLE
  eventId : (c'.ports i).eventId = (c.ports i).eventId
  ring : c'.ringToCp = c.ringToCp ++ [⟨i, (c.ports i).eventId⟩]

/-- A step that leaves the ports alone. -/
theorem Quiet.of_ports (hoff : c'.localPortOffset = c.localPortOffset) (hkept : Kept c.heap c'.heap)
    (hports : c'.ports = c.ports) (hring : c'.ringToCp = c.ringToCp) : Quiet c c' :=
  ⟨hoff, hkept, fun j => by rw [hports], fun j => by rw [hports],
    fun j hj => Or.inl (by rw [hports]; exact hj), hring⟩

theorem Quiet.trans {c1 c2 : TrexStatelessDpCore} (h : Quiet c c1) (h' : Quiet c1 c2) :
    Quiet c c2 := by
  refine ⟨h'.offset.trans h.offset, h.kept.trans h'.kept, fun j => (h'.state j).trans (h.state j),
    fun j => (h'.eventId j).trans (h.eventId j), fun j hj => ?_, h'.ring.trans h.ring⟩
  rcases h.count j hj with hpos | hidle
  · exact h'.count j hpos
  · exact Or.inr ((h'.state j).trans hidle)

theorem Halted.of_heap {heap : Ptr → Option CGenNodeStateless} (h : Kept c.heap heap)
    (h' : Halted i { c with heap := heap, queue := queue } c') :
    Halted i c c' :=
  ⟨h'.offset, h.trans h'.kept, h'.others, h'.before, h'.after, h'.eventId, h'.ring⟩

theorem stopNodes_effect (i : UInt8) {c c' : TrexStatelessDpCore}
    (h : stopNodes i rest c = .ok c') : ∃ heap n, Kept c.heap heap
      ∧ c' = { c with
          heap := heap
          ports := update c.ports i { c.ports i with activeStreams := n } } := by
  refine stopNodes_rel (R := fun c c' => ∃ heap n, Kept c.heap heap ∧ c' = { c with
    heap := heap
    ports := update c.ports i { c.ports i with activeStreams := n } }) ?_ ?_ ?_ ?_ h
  · exact fun c => ⟨c.heap, (c.ports i).activeStreams, Kept.refl _, by simp⟩
  · rintro a _ _ ⟨heap, n, hkept, rfl⟩ ⟨heap', n', hkept', rfl⟩
    exact ⟨heap', n', hkept.trans hkept', by simp⟩
  · intro c p node hp _
    have hkept : Kept c.heap (c.setNode p node.markForFree).heap :=
      Kept.set hp rfl rfl fun hs => absurd rfl hs
    exact ⟨_, (c.ports i).activeStreams - 1, hkept, rfl⟩
  · intro c p node _ _
    exact ⟨_, (c.ports i).activeStreams, Kept.free c.heap p, by simp [freeNode]⟩

/-- **A stop does nothing, or it ends the port and tells the control plane.** -/
theorem stopTraffic_effect {stopOnId : Bool} (h : stopTraffic i stopOnId eventId c = .ok c') :
    (c' = c ∧ ((c.ports i).state = .ppSTATE_IDLE
        ∨ (stopOnId = true ∧ eventId ≠ (c.ports i).eventId)))
      ∨ (Halted i c c' ∧ (stopOnId = true → eventId = (c.ports i).eventId)
        ∧ c'.queue = c.queue ∧ c'.nonActiveNodes = c.nonActiveNodes) := by
  obtain ⟨_, -, h⟩ := bind_eq_ok h
  obtain ⟨⟨c1, stopped⟩, hport, h⟩ := bind_eq_ok h
  unfold portStopTraffic at hport
  simp only at hport
  split at hport
  · rename_i hidle
    obtain ⟨_, -, hport⟩ := bind_eq_ok hport
    cases hport
    cases h
    exact Or.inl ⟨rfl, Or.inl hidle⟩
  rename_i hidle
  split at hport
  · rename_i hid
    cases hport
    cases h
    exact Or.inl ⟨rfl, Or.inr hid⟩
  · rename_i hid
    obtain ⟨c2, hstop, hport⟩ := bind_eq_ok hport
    obtain ⟨_, -, hport⟩ := bind_eq_ok hport
    cases hport
    cases h
    obtain ⟨heap, n, hkept, rfl⟩ := stopNodes_effect i hstop
    refine Or.inr ⟨⟨rfl, hkept, ?_, hidle, ?_, ?_, ?_⟩, ?_, rfl, rfl⟩
    · intro j hj
      simp [setPort, hj]
    · simp [setPort]
    · simp [setPort]
    · simp [setPort]
    · intro hon
      by_contra hne
      exact hid ⟨hon, hne⟩

/-! ## 5. Start -/

/-- Every node was there before, or was made of one of the streams. -/
def Grown (ss : List TrexStream) (heap heap' : Ptr → Option CGenNodeStateless) : Prop :=
  ∀ p node', heap' p = some node' →
    (∃ node, heap p = some node ∧ node'.portId = node.portId ∧ node'.streamType = node.streamType
      ∧ (node'.state ≠ .ssFREE_RESUSE → node.state ≠ .ssFREE_RESUSE))
    ∨ ∃ s ∈ ss, node'.portId = s.portId ∧
      (s.type = .stCONTINUOUS → node'.streamType = .stCONTINUOUS)

theorem Grown.kept {ss : List TrexStream} {heap1 heap2 heap3 : Ptr → Option CGenNodeStateless}
    (h : Grown ss heap1 heap2) (h' : Kept heap2 heap3) : Grown ss heap1 heap3 := by
  intro p node hp
  obtain ⟨node2, hp2, hport2, htype2, hfree2⟩ := h' p node hp
  rcases h p node2 hp2 with ⟨node1, hp1, hport1, htype1, hfree1⟩ | ⟨s, hs, hport, htype⟩
  · exact Or.inl ⟨node1, hp1, hport2.trans hport1, htype2.trans htype1, fun hs =>
      hfree1 (hfree2 hs)⟩
  · exact Or.inr ⟨s, hs, hport2.trans hport, fun hc => htype2.trans (htype hc)⟩

/-- `add_stream`, part by part. -/
theorem addStream_eq (stream : TrexStream) : addStream i stream c
    = { c with
        heap := update c.heap c.fresh (some (newNode c.curTimeSec stream))
        fresh := c.fresh + 1
        ports := update c.ports i
          { c.ports i with
            activeStreams := (c.ports i).activeStreams + stream.selfStart.toNat
            activeNodes := (c.ports i).activeNodes ++ [c.fresh] }
        queue := if stream.selfStart then .stateless c.fresh :: c.queue else c.queue } := by
  unfold addStream
  simp only [newNode_state]
  cases stream.selfStart <;> rfl

theorem addStreams_effect (i : UInt8) : ∀ {ss : List TrexStream} {c c' : TrexStatelessDpCore},
    addStreams i ss c = .ok c' → ∃ heap fresh n nodes queue, Grown ss c.heap heap
      ∧ queue.filterMap QueueNode.cmd? = c.commands
      ∧ c' = { c with
          heap := heap
          fresh := fresh
          queue := queue
          ports := update c.ports i
            { c.ports i with activeStreams := n, activeNodes := nodes } }
  | [], c, c', h => by
    cases h
    refine ⟨c.heap, c.fresh, (c.ports i).activeStreams, (c.ports i).activeNodes, c.queue, ?_, rfl,
      by simp⟩
    intro p node hp
    exact Or.inl ⟨node, hp, rfl, rfl, id⟩
  | s :: ss, c, c', h => by
    rw [addStreams] at h
    obtain ⟨u, hport, h⟩ := bind_eq_ok h
    obtain rfl := check_eq_ok hport
    rw [addStream_eq] at h
    obtain ⟨heap, fresh, n, nodes, queue, hgrown, hqueue, rfl⟩ := addStreams_effect s.portId h
    refine ⟨heap, fresh, n, nodes, queue, ?_, ?_, by simp⟩
    · intro p node hp
      rcases hgrown p node hp with ⟨node1, hp1, hport1, htype1, hfree1⟩ | ⟨x, hx, hrest⟩
      · by_cases hpf : p = c.fresh
        · subst hpf
          obtain rfl : newNode c.curTimeSec s = node1 := by simpa using hp1
          refine Or.inr ⟨s, mem_cons_self, ?_, fun hcont => ?_⟩
          · rw [hport1, newNode_portId]
          · rw [htype1, newNode_streamType, if_pos hcont]
        · refine Or.inl ⟨node1, ?_, hport1, htype1, hfree1⟩
          simpa [hpf] using hp1
      · exact Or.inr ⟨x, mem_cons_of_mem _ hx, hrest⟩
    · rw [hqueue]
      unfold commands
      cases s.selfStart <;> rfl

theorem linkStreams_effect (i : UInt8) : ∀ {ss : List TrexStream} {cnt : Nat}
    {c c' : TrexStatelessDpCore}, linkStreams i cnt ss c = .ok c' →
      ∃ heap, Kept c.heap heap ∧ c' = { c with heap := heap }
  | [], cnt, c, c', h => by
    cases h
    exact ⟨c.heap, Kept.refl _, rfl⟩
  | s :: ss, cnt, c, c', h => by
    rw [linkStreams] at h
    split at h
    · simp only at h
      split at h
      · cases h
      split at h
      · cases h
      · obtain ⟨node, hnode, h⟩ := bind_eq_ok h
        obtain ⟨heap, hkept, rfl⟩ := linkStreams_effect i h
        refine ⟨heap, Kept.trans ?_ hkept, rfl⟩
        exact Kept.set (getNode_eq_ok hnode) rfl rfl id
    · exact linkStreams_effect i h

/-- A port starts. -/
structure Started (obj : TrexStreamsCompiledObj) (duration : Rat) (eventId : Int)
    (c c' : TrexStatelessDpCore) : Prop where
  offset : c'.localPortOffset = c.localPortOffset
  grown : Grown obj.objs c.heap c'.heap
  others : ∀ j ≠ obj.portId, c'.ports j = c.ports j
  before : (c.ports obj.portId).activeNodes = []
  after : (c'.ports obj.portId).state = .ppSTATE_TRANSMITTING
  id : (c'.ports obj.portId).eventId = eventId
  ring : c'.ringToCp = c.ringToCp
  commands : c'.commands = (if duration > 0 then [⟨obj.portId, true, eventId⟩] else []) ++
    c.commands
  nonActiveNodes : c'.nonActiveNodes = c.nonActiveNodes + (if duration > 0 then 1 else 0)

/-- What a start runs through: the port has no nodes, the streams are added and linked, and the port
transmits. -/
theorem startTraffic_eq_ok {duration : Rat} (h : startTraffic obj duration eventId c = .ok c') :
    (c.ports obj.portId).activeNodes = [] ∧
        ∃ c1 c2, addStreams obj.portId obj.objs (c.setPort obj.portId
        { c.ports obj.portId with activeStreams := 0, eventId := eventId }) = .ok c1 ∧
      linkStreams obj.portId 0 obj.objs c1 = .ok c2 ∧
      addPortDuration duration obj.portId eventId { c2.setPort obj.portId
        { c2.ports obj.portId with state := .ppSTATE_TRANSMITTING } with state :=
            .STATE_TRANSMITTING } = c' := by
  obtain ⟨port, hport, h⟩ := bind_eq_ok h
  obtain rfl := getPortDb_eq_ok hport
  obtain ⟨_, hnil, h⟩ := bind_eq_ok h
  obtain ⟨c1, hadd, h⟩ := bind_eq_ok h
  obtain ⟨_, -, h⟩ := bind_eq_ok h
  obtain ⟨c2, hlink, h⟩ := bind_eq_ok h
  exact ⟨check_eq_ok hnil, c1, c2, hadd, hlink, Except.ok.inj h⟩

/-- **A start.** -/
theorem startTraffic_effect {duration : Rat} (h : startTraffic obj duration eventId c = .ok c') :
    Started obj duration eventId c c' := by
  obtain ⟨hnil, c1, c2, hadd, hlink, rfl⟩ := startTraffic_eq_ok h
  obtain ⟨heap1, fresh, n, nodes, queue, hgrown, hqueue, rfl⟩ := addStreams_effect _ hadd
  obtain ⟨heap2, hkept, rfl⟩ := linkStreams_effect _ hlink
  have hall := hgrown.kept hkept
  unfold addPortDuration
  split
  · rename_i hpos
    refine ⟨rfl, hall, fun j hj => ?_, hnil, ?_, ?_, rfl, ?_, ?_⟩
    · simp [setPort, push, hj]
    · simp [setPort, push]
    · simp [setPort, push]
    · rw [if_pos hpos]
      exact congrArg (_ :: ·) hqueue
    · rw [if_pos hpos]
      rfl
  · rename_i hpos
    refine ⟨rfl, hall, fun j hj => ?_, hnil, ?_, ?_, rfl, ?_, ?_⟩
    · simp [setPort, hj]
    · simp [setPort]
    · simp [setPort]
    · rw [if_neg hpos]
      exact hqueue
    · rw [if_neg hpos]
      rfl

/-! ## 6. Pause, resume and update -/

/-- Two steps of which only the heap shows. -/
theorem kept_rel_trans {a b d : TrexStatelessDpCore}
    (h : ∃ heap, Kept a.heap heap ∧ b = { a with heap := heap })
    (h' : ∃ heap, Kept b.heap heap ∧ d = { b with heap := heap }) :
    ∃ heap, Kept a.heap heap ∧ d = { a with heap := heap } := by
  obtain ⟨heap, hkept, rfl⟩ := h
  obtain ⟨heap', hkept', rfl⟩ := h'
  exact ⟨heap', hkept.trans hkept', rfl⟩

theorem setPauseNodes_effect (i : UInt8) (enable : Bool) (fault : Fault)
    {c c' : TrexStatelessDpCore} (h : setPauseNodes i enable fault rest c = .ok c') :
    ∃ heap, Kept c.heap heap ∧ c' = { c with heap := heap } := by
  refine setPauseNodes_rel (R := fun c c' => ∃ heap, Kept c.heap heap ∧
    c' = { c with heap := heap }) (fun c => ⟨c.heap, Kept.refl _, rfl⟩) kept_rel_trans ?_ h
  intro c p node hp _
  have hkept : Kept c.heap (c.setNode p (node.setPause enable)).heap := Kept.set hp rfl rfl id
  exact ⟨_, hkept, rfl⟩

theorem updateNodes_effect (i : UInt8) (factor : Rat) {c c' : TrexStatelessDpCore}
    (h : updateNodes i factor rest c = .ok c') :
    ∃ heap, Kept c.heap heap ∧ c' = { c with heap := heap } := by
  refine updateNodes_rel (R := fun c c' => ∃ heap, Kept c.heap heap ∧ c' = { c with heap := heap })
    (fun c => ⟨c.heap, Kept.refl _, rfl⟩) kept_rel_trans ?_ h
  intro c p node hp _
  have hkept : Kept c.heap (c.setNode p (node.updateRate factor)).heap := Kept.set hp rfl rfl id
  exact ⟨_, hkept, rfl⟩

/-- A port goes from one state to another, and nothing else happens. -/
structure Switched (i : UInt8) (before after : PortState) (c c' : TrexStatelessDpCore) : Prop where
  offset : c'.localPortOffset = c.localPortOffset
  kept : Kept c.heap c'.heap
  others : ∀ j ≠ i, c'.ports j = c.ports j
  before : (c.ports i).state = before
  after : c'.ports i = { c.ports i with state := after }
  ring : c'.ringToCp = c.ringToCp
  queue : c'.queue = c.queue
  nonActiveNodes : c'.nonActiveNodes = c.nonActiveNodes

theorem pauseTraffic_effect (h : pauseTraffic i c = .ok c') :
    Switched i .ppSTATE_TRANSMITTING .ppSTATE_PAUSE c c' := by
  obtain ⟨port, hport, h⟩ := bind_eq_ok h
  obtain rfl := getPortDb_eq_ok hport
  obtain ⟨_, hstate, h⟩ := bind_eq_ok h
  obtain ⟨c1, hnodes, h⟩ := bind_eq_ok h
  cases h
  obtain ⟨heap, hkept, rfl⟩ := setPauseNodes_effect _ _ _ hnodes
  refine ⟨rfl, hkept, fun j hj => ?_, check_eq_ok hstate, ?_, rfl, rfl, rfl⟩
  · simp [setPort, hj]
  · simp [setPort]

theorem resumeTraffic_effect (h : resumeTraffic i c = .ok c') :
    Switched i .ppSTATE_PAUSE .ppSTATE_TRANSMITTING c c' := by
  obtain ⟨port, hport, h⟩ := bind_eq_ok h
  obtain rfl := getPortDb_eq_ok hport
  obtain ⟨_, hstate, h⟩ := bind_eq_ok h
  obtain ⟨c1, hnodes, h⟩ := bind_eq_ok h
  cases h
  obtain ⟨heap, hkept, rfl⟩ := setPauseNodes_effect _ _ _ hnodes
  refine ⟨rfl, hkept, fun j hj => ?_, check_eq_ok hstate, ?_, rfl, rfl, rfl⟩
  · simp [setPort, hj]
  · simp [setPort]

theorem updateTraffic_effect {factor : Rat} (h : updateTraffic i factor c = .ok c') :
    Quiet c c' ∧ c'.queue = c.queue ∧ c'.nonActiveNodes = c.nonActiveNodes := by
  obtain ⟨port, hport, h⟩ := bind_eq_ok h
  obtain ⟨_, -, h⟩ := bind_eq_ok h
  obtain ⟨heap, hkept, rfl⟩ := updateNodes_effect _ _ h
  exact ⟨Quiet.of_ports rfl hkept rfl rfl, rfl, rfl⟩

/-! ## 7. The nodes -/

/-- The queue and the counter of the stop commands are not touched. -/
def SameQueue (c c' : TrexStatelessDpCore) : Prop :=
  c'.queue = c.queue ∧ c'.nonActiveNodes = c.nonActiveNodes

theorem reduceActiveStreams_effect (h : reduceActiveStreams i c = .ok c') :
    (Quiet c c' ∨ Halted i c c') ∧ SameQueue c c' := by
  obtain ⟨_, -, h⟩ := bind_eq_ok h
  have hport : ∀ j, ((c.setPort i { c.ports i with
      activeStreams := (c.ports i).activeStreams - 1 }).ports j).state = (c.ports j).state
      ∧ ((c.setPort i { c.ports i with
        activeStreams := (c.ports i).activeStreams - 1 }).ports j).eventId =
            (c.ports j).eventId := by
    intro j
    by_cases hj : j = i
    · subst hj
      simp [setPort]
    · simp [setPort, hj]
  split at h
  · rcases stopTraffic_effect h with ⟨rfl, hidle⟩ | ⟨hhalt, -, hqueue, hcount⟩
    · refine ⟨Or.inl ⟨rfl, Kept.refl _, fun j => (hport j).1, fun j => (hport j).2, fun j hj =>
        ?_, rfl⟩, rfl, rfl⟩
      by_cases hji : j = i
      · subst hji
        rcases hidle with hidle | ⟨hfalse, -⟩
        · exact Or.inr hidle
        · cases hfalse
      · exact Or.inl (by simpa [setPort, hji] using hj)
    · refine ⟨Or.inr ⟨hhalt.offset, hhalt.kept, fun j hj => ?_, ?_, hhalt.after, ?_, ?_⟩, hqueue,
        hcount⟩
      · rw [hhalt.others j hj]
        simp [setPort, hj]
      · rw [← (hport i).1]
        exact hhalt.before
      · rw [← (hport i).2]
        exact hhalt.eventId
      · rw [← (hport i).2]
        exact hhalt.ring
  · rename_i hpos
    cases h
    refine ⟨Or.inl ⟨rfl, Kept.refl _, fun j => (hport j).1, fun j => (hport j).2, fun j hj =>
      ?_, rfl⟩, rfl, rfl⟩
    by_cases hji : j = i
    · subst hji
      exact Or.inl (by simpa [setPort] using Nat.pos_of_ne_zero hpos)
    · exact Or.inl (by simpa [setPort, hji] using hj)

theorem setStatelessNextNode_effect {next : Option Ptr} {schedule : Bool}
    (h : setStatelessNextNode i next c = .ok (c', schedule)) :
    (Quiet c c' ∨ (Halted i c c' ∧ schedule = false)) ∧ SameQueue c c' := by
  obtain ⟨_, -, h⟩ := bind_eq_ok h
  have hreduce : (do
      let c ← reduceActiveStreams i c
      (.ok (c, false) : Except Fault (TrexStatelessDpCore × Bool))) = .ok (c', schedule) →
      (Quiet c c' ∨ (Halted i c c' ∧ schedule = false)) ∧ SameQueue c c' := by
    intro hred
    obtain ⟨c1, hc1, hok⟩ := bind_eq_ok hred
    cases hok
    obtain ⟨hquiet | hhalt, hqueue⟩ := reduceActiveStreams_effect hc1
    · exact ⟨Or.inl hquiet, hqueue⟩
    · exact ⟨Or.inr ⟨hhalt, rfl⟩, hqueue⟩
  cases next with
  | none => exact hreduce h
  | some q =>
    obtain ⟨node, hnode, h⟩ := bind_eq_ok h
    cases hstate : node.state with
    | ssFREE_RESUSE =>
      simp only [hstate] at h
      cases h
    | ssINACTIVE =>
      simp only [hstate] at h
      split at h
      · cases h
      · cases h
        refine ⟨Or.inl (Quiet.of_ports rfl ?_ rfl rfl), rfl, rfl⟩
        refine Kept.set (getNode_eq_ok hnode) rfl rfl fun _ => ?_
        rw [hstate]
        decide
    | ssACTIVE =>
      simp only [hstate] at h
      exact hreduce h

theorem handleMultiBurst_portId (node : CGenNodeStateless) :
    node.handleMultiBurst.portId = node.portId ∧
        node.handleMultiBurst.streamType = node.streamType := by
  unfold CGenNodeStateless.handleMultiBurst
  simp only
  split
  · exact ⟨rfl, rfl⟩
  · split <;> exact ⟨rfl, rfl⟩

/-- **What the scheduler does with a stateless node**: no port is stopped, or the last stream of a
port with bursts ended. -/
theorem popStateless_effect (h : popStateless p c = .ok c') :
    c'.commands = c.commands ∧ c'.nonActiveNodes = c.nonActiveNodes
      ∧ (Quiet c c' ∨ ∃ node, c.heap p = some node ∧ node.streamType = .stMULTI_BURST
        ∧ node.state ≠ .ssFREE_RESUSE ∧ Halted node.portId c c') := by
  obtain ⟨node, hnode, h⟩ := bind_eq_ok h
  have hp := getNode_eq_ok hnode
  split at h
  · cases h
    exact ⟨rfl, rfl, Or.inl (Quiet.of_ports rfl (Kept.free _ _) rfl rfl)⟩
  rename_i hfree
  -- a node that is pushed again
  have hagain : ∀ node' : CGenNodeStateless, node'.portId = node.portId →
      node'.streamType = node.streamType →
      Quiet c ((c.setNode p node').push (.stateless p)) := by
    intro node' hport htype
    have hkept := Kept.set hp hport htype fun _ => hfree
    exact Quiet.of_ports rfl hkept rfl rfl
  unfold handleNode at h
  cases htype : node.streamType with
  | stCONTINUOUS =>
    simp only [htype] at h
    cases h
    exact ⟨rfl, rfl, Or.inl (hagain node.handleContinues rfl rfl)⟩
  | stSINGLE_BURST =>
    simp only [htype] at h
    cases h
  | stMULTI_BURST =>
    simp only [htype] at h
    obtain ⟨hport, htype'⟩ := handleMultiBurst_portId node
    split at h
    · obtain ⟨⟨c1, schedule⟩, hnext, h⟩ := bind_eq_ok h
      have hkept := Kept.set hp hport htype' fun _ => hfree
      obtain ⟨heffect, hqueue, hcount⟩ := setStatelessNextNode_effect hnext
      have hcommands : c1.commands = c.commands := congrArg (List.filterMap QueueNode.cmd?) hqueue
      rcases heffect with hquiet | ⟨hhalt, rfl⟩
      · have hset : Quiet c (c.setNode p node.handleMultiBurst) := Quiet.of_ports rfl hkept rfl rfl
        have hquiet' := hset.trans hquiet
        cases schedule with
        | false =>
          cases h
          exact ⟨hcommands, hcount, Or.inl hquiet'⟩
        | true =>
          simp only [if_true] at h
          split at h
          · cases h
          obtain ⟨next, hq, h⟩ := bind_eq_ok h
          split at h
          · cases h
          · cases h
            refine ⟨hcommands, hcount, Or.inl (hquiet'.trans ?_)⟩
            exact Quiet.of_ports rfl (Kept.set (getNode_eq_ok hq) rfl rfl id) rfl rfl
      · cases h
        exact ⟨hcommands, hcount, Or.inr ⟨node, hp, htype, hfree,
          Halted.of_heap hkept hhalt⟩⟩
    · cases h
      exact ⟨rfl, rfl, Or.inl (hagain node.handleMultiBurst hport htype')⟩

/-! ## 8. The scheduler -/

theorem removeAll_effect : ∀ {queue : List QueueNode} {c c' : TrexStatelessDpCore},
    removeAll queue c = .ok c' → ∃ heap n, Kept c.heap heap
      ∧ n + (queue.filterMap QueueNode.cmd?).length = c.nonActiveNodes
      ∧ c' = { c with heap := heap, nonActiveNodes := n }
  | [], c, c', h => by
    cases h
    exact ⟨c.heap, c.nonActiveNodes, Kept.refl _, rfl, rfl⟩
  | .stateless p :: queue, c, c', h => by
    rw [removeAll] at h
    obtain ⟨node, -, h⟩ := bind_eq_ok h
    obtain ⟨_, -, h⟩ := bind_eq_ok h
    obtain ⟨heap, n, hkept, hn, rfl⟩ := removeAll_effect h
    exact ⟨heap, n, (Kept.free c.heap p).trans hkept, hn, rfl⟩
  | .command time cmd :: queue, c, c', h => by
    rw [removeAll] at h
    obtain ⟨c1, hremove, h⟩ := bind_eq_ok h
    obtain ⟨_, hpos, hremove⟩ := bind_eq_ok hremove
    cases hremove
    obtain ⟨heap, n, hkept, hn, rfl⟩ := removeAll_effect h
    have hpos' := check_eq_ok hpos
    refine ⟨heap, n, hkept, ?_, rfl⟩
    change n + ((queue.filterMap QueueNode.cmd?).length + 1) = c.nonActiveNodes
    have hn' : n + (queue.filterMap QueueNode.cmd?).length = c.nonActiveNodes - 1 := hn
    omega
  | .flowSync _ :: queue, c, c', h => @removeAll_effect queue c c' h
  | .exitSched _ :: queue, c, c', h => @removeAll_effect queue c c' h

/-- The counter of the stop commands is right. -/
def CommandsOk (c : TrexStatelessDpCore) : Prop := c.nonActiveNodes = c.commands.length

theorem closeScheduler_effect (h : closeScheduler c = .ok c') :
    Quiet c c' ∧ c'.commands ⊆ c.commands ∧ (CommandsOk c → CommandsOk c') := by
  unfold closeScheduler at h
  split at h
  · cases h
    exact ⟨Quiet.of_ports rfl (Kept.refl _) rfl rfl, List.Subset.refl _, id⟩
  · obtain ⟨c1, hremove, h⟩ := bind_eq_ok h
    cases h
    obtain ⟨heap, n, hkept, hn, rfl⟩ := removeAll_effect hremove
    refine ⟨Quiet.of_ports rfl hkept rfl rfl, nil_subset _, ?_⟩
    intro hc
    have hn' : n + c.commands.length = c.nonActiveNodes := hn
    change n = 0
    rw [CommandsOk] at hc
    omega

/-- A step that is not a message. -/
def Act.internal : Act → Prop
  | .msg _ => False
  | .leaveIdle => True
  | .pop _ => True
  | .endSync => True

/-- **What a step can do to the ports of a core.** -/
inductive Effect (c c' : TrexStatelessDpCore) : Act → Prop
  | start {obj : TrexStreamsCompiledObj} {duration : Rat} {eventId : Int} :
      Started obj duration eventId c c' → Effect c c' (.msg (.start obj duration eventId))
  | pause {i : UInt8} : Switched i .ppSTATE_TRANSMITTING .ppSTATE_PAUSE c c' →
      Effect c c' (.msg (.pause i))
  | resume {i : UInt8} : Switched i .ppSTATE_PAUSE .ppSTATE_TRANSMITTING c c' →
      Effect c c' (.msg (.resume i))
  | update {i : UInt8} {factor : Rat} : Quiet c c' → c'.commands ⊆ c.commands →
      Effect c c' (.msg (.update i factor))
  | quit : Quiet c c' → c'.commands ⊆ c.commands → Effect c c' (.msg .quit)
  /-- The port is stopped already, or the stop is for another run. -/
  | noStop {cmd : TrexStatelessDpStop} : c' = c → ((c.ports cmd.portId).state = .ppSTATE_IDLE
        ∨ (cmd.stopOnlyForEventId = true ∧ cmd.eventId ≠ (c.ports cmd.portId).eventId)) →
      Effect c c' (.msg (.stop cmd))
  | stop {cmd : TrexStatelessDpStop} : Halted cmd.portId c c' →
      (cmd.stopOnlyForEventId = true → cmd.eventId = (c.ports cmd.portId).eventId) →
      c'.commands ⊆ c.commands → Effect c c' (.msg (.stop cmd))
  | internal {a : Act} : a.internal → Quiet c c' → c'.commands ⊆ c.commands → Effect c c' a
  /-- The last stream of a port ended. -/
  | streams {k : Nat} {p : Ptr} {node : CGenNodeStateless} : c.heap p = some node →
      node.streamType = .stMULTI_BURST → node.state ≠ .ssFREE_RESUSE → Halted node.portId c c' →
      c'.commands ⊆ c.commands → Effect c c' (.pop k)
  /-- The time of a run is over. -/
  | duration {k : Nat} {cmd : TrexStatelessDpStop} : cmd ∈ c.commands →
      (cmd.stopOnlyForEventId = true → cmd.eventId = (c.ports cmd.portId).eventId) →
      Halted cmd.portId c c' → c'.commands ⊆ c.commands → Effect c c' (.pop k)

/-- A node is taken from the queue. -/
theorem perm_eraseIdx {k : Nat} (h : queue[k]? = some qnode) :
    queue.Perm (qnode :: queue.eraseIdx k) := by
  obtain ⟨hk, rfl⟩ := List.getElem?_eq_some_iff.mp h
  exact (getElem_cons_eraseIdx_perm hk).symm

theorem popNode_effect {k : Nat} (hk : c.queue[k]? = some qnode)
    (h : popNode { c with queue := c.queue.eraseIdx k } qnode = .ok c') :
    Effect c c' (.pop k) ∧ (CommandsOk c → CommandsOk c') := by
  have hperm := perm_eraseIdx hk
  have hcommands := hperm.filterMap QueueNode.cmd?
  have hsub : (c.queue.eraseIdx k).filterMap QueueNode.cmd? ⊆ c.commands := by
    intro cmd hcmd
    rw [commands, hcommands.mem_iff]
    obtain ⟨x, hx, hxc⟩ := mem_filterMap.mp hcmd
    exact mem_filterMap.mpr ⟨x, mem_cons_of_mem _ hx, hxc⟩
  have hqueue : Quiet c { c with queue := c.queue.eraseIdx k } :=
    Quiet.of_ports rfl (Kept.refl _) rfl rfl
  cases qnode with
  | stateless p =>
    obtain ⟨hc, hn, heffect⟩ := popStateless_effect h
    have hc' : c'.commands = (c.queue.eraseIdx k).filterMap QueueNode.cmd? := hc
    have hsame : c.commands.length = c'.commands.length := by
      rw [hc']
      exact hcommands.length_eq
    refine ⟨?_, fun hok => (hn.trans hok).trans hsame⟩
    rcases heffect with hquiet | ⟨node, hp, htype, hfree, hhalt⟩
    · exact .internal trivial (hqueue.trans hquiet) (hc' ▸ hsub)
    · exact .streams hp htype hfree (Halted.of_heap (Kept.refl _) hhalt) (hc' ▸ hsub)
  | command time cmd =>
    obtain ⟨c1, hstop, h⟩ := bind_eq_ok h
    obtain ⟨_, hpos, h⟩ := bind_eq_ok h
    cases h
    have hlen : c.commands.length = ((c.queue.eraseIdx k).filterMap QueueNode.cmd?).length + 1 :=
      hcommands.length_eq
    have hmem : cmd ∈ c.commands := by
      rw [commands, hcommands.mem_iff]
      exact mem_cons_self
    rcases stopTraffic_effect hstop with ⟨rfl, -⟩ | ⟨hhalt, hid, hq, hn⟩
    · refine ⟨.internal trivial (Quiet.of_ports rfl (Kept.refl _) rfl rfl) hsub, fun hok => ?_⟩
      change c.nonActiveNodes - 1 = ((c.queue.eraseIdx k).filterMap QueueNode.cmd?).length
      rw [CommandsOk] at hok
      omega
    · have hc1 : c1.commands = (c.queue.eraseIdx k).filterMap QueueNode.cmd? := congrArg _ hq
      refine ⟨.duration hmem hid ?_ (hc1 ▸ hsub), fun hok => ?_⟩
      · exact ⟨hhalt.offset, hhalt.kept, hhalt.others, hhalt.before, hhalt.after, hhalt.eventId,
          hhalt.ring⟩
      · change c1.nonActiveNodes - 1 = c1.commands.length
        have hn' : c1.nonActiveNodes = c.nonActiveNodes := hn
        rw [CommandsOk] at hok
        rw [hc1, hn']
        omega
  | flowSync time =>
    cases h
    exact ⟨.internal trivial (Quiet.of_ports rfl (Kept.refl _) rfl rfl) hsub,
      fun hok => Eq.trans hok hcommands.length_eq⟩
  | exitSched time =>
    obtain ⟨hquiet, hsub', hok'⟩ := closeScheduler_effect h
    exact ⟨.internal trivial (hqueue.trans hquiet) (List.Subset.trans hsub' hsub),
      fun hok => hok' (Eq.trans hok hcommands.length_eq)⟩

/-- **Every step has one of the effects, and keeps the counter of the stop commands right.** -/
theorem step_effect (h : c.step a = .ok c') :
    Effect c c' a ∧ (CommandsOk c → CommandsOk c') := by
  have hpush : ∀ (time : Rat) (phase : Phase),
      Quiet c { c.push (.flowSync time) with phase := phase }
        ∧ ({ c.push (.flowSync time) with phase := phase } : TrexStatelessDpCore).commands =
            c.commands :=
    fun time phase => ⟨Quiet.of_ports rfl (Kept.refl _) rfl rfl, rfl⟩
  cases a with
  | msg m =>
    cases m with
    | start obj duration eventId =>
      have hstart := startTraffic_effect h
      refine ⟨.start hstart, fun hok => ?_⟩
      rw [CommandsOk, hstart.nonActiveNodes, hstart.commands, hok]
      by_cases hpos : duration > 0
      · simp [hpos, Nat.add_comm]
      · simp [hpos]
    | stop cmd =>
      rcases stopTraffic_effect h with ⟨rfl, hwhy⟩ | ⟨hhalt, hid, hq, hn⟩
      · exact ⟨.noStop rfl hwhy, id⟩
      · have hc : c'.commands = c.commands := congrArg (List.filterMap QueueNode.cmd?) hq
        refine ⟨.stop hhalt hid (hc ▸ List.Subset.refl _), fun hok => ?_⟩
        rw [CommandsOk, hn, hc]
        exact hok
    | pause i =>
      have hswitch := pauseTraffic_effect h
      refine ⟨.pause hswitch, fun hok => ?_⟩
      rw [CommandsOk, commands, hswitch.nonActiveNodes, hswitch.queue]
      exact hok
    | resume i =>
      have hswitch := resumeTraffic_effect h
      refine ⟨.resume hswitch, fun hok => ?_⟩
      rw [CommandsOk, commands, hswitch.nonActiveNodes, hswitch.queue]
      exact hok
    | update i factor =>
      obtain ⟨hquiet, hq, hn⟩ := updateTraffic_effect h
      have hc : c'.commands = c.commands := congrArg (List.filterMap QueueNode.cmd?) hq
      refine ⟨.update hquiet (hc ▸ List.Subset.refl _), fun hok => ?_⟩
      rw [CommandsOk, hn, hc]
      exact hok
    | quit =>
      cases h
      exact ⟨.quit (Quiet.of_ports rfl (Kept.refl _) rfl rfl) (List.Subset.refl _), id⟩
  | leaveIdle =>
    unfold step at h
    simp only at h
    split at h
    · cases h
      exact ⟨.internal trivial (Quiet.of_ports rfl (Kept.refl _) rfl rfl) (List.Subset.refl _), id⟩
    · cases h
      obtain ⟨hquiet, hc⟩ := hpush (c.curTimeSec + syncTimeOut) .scheduler
      exact ⟨.internal trivial hquiet (hc ▸ List.Subset.refl _), id⟩
  | pop k =>
    unfold step at h
    simp only at h
    split at h
    · cases h
    · rename_i qnode hk
      exact popNode_effect hk h
  | endSync =>
    unfold step at h
    simp only at h
    split at h
    · rename_i time hphase
      unfold endSync at h
      split at h
      · obtain ⟨hquiet, hsub, hok⟩ := closeScheduler_effect h
        exact ⟨.internal trivial hquiet hsub, hok⟩
      · cases h
        obtain ⟨hquiet, hc⟩ := hpush (time + syncTimeOut) .scheduler
        exact ⟨.internal trivial hquiet (hc ▸ List.Subset.refl _), id⟩
    · cases h
      exact ⟨.internal trivial (Quiet.of_ports rfl (Kept.refl _) rfl rfl) (List.Subset.refl _), id⟩

theorem Effect.offset (h : Effect c c' a) : c'.localPortOffset = c.localPortOffset := by
  cases h with
  | start hs => exact hs.offset
  | pause hs => exact hs.offset
  | resume hs => exact hs.offset
  | update hq => exact hq.offset
  | quit hq => exact hq.offset
  | noStop heq => rw [heq]
  | stop hh => exact hh.offset
  | internal _ hq => exact hq.offset
  | streams _ _ _ hh => exact hh.offset
  | duration _ _ hh => exact hh.offset

/-- A stop command that is scheduled is for one run only. -/
theorem Effect.stopOnlyForEventId (h : Effect c c' a)
    (hc : ∀ cmd ∈ c.commands, cmd.stopOnlyForEventId = true) :
    ∀ cmd ∈ c'.commands, cmd.stopOnlyForEventId = true := by
  intro cmd hcmd
  have hsame : c'.queue = c.queue → cmd.stopOnlyForEventId = true := by
    intro hqueue
    rw [commands, hqueue] at hcmd
    exact hc cmd hcmd
  cases h with
  | start hs =>
    rw [hs.commands] at hcmd
    rcases mem_append.mp hcmd with hnew | hold
    · split at hnew
      · rw [mem_singleton.mp hnew]
      · cases hnew
    · exact hc cmd hold
  | pause hs => exact hsame hs.queue
  | resume hs => exact hsame hs.queue
  | update _ hsub => exact hc cmd (hsub hcmd)
  | quit _ hsub => exact hc cmd (hsub hcmd)
  | noStop heq => exact hsame (by rw [heq])
  | stop _ _ hsub => exact hc cmd (hsub hcmd)
  | internal _ _ hsub => exact hc cmd (hsub hcmd)
  | streams _ _ _ _ hsub => exact hc cmd (hsub hcmd)
  | duration _ _ _ hsub => exact hc cmd (hsub hcmd)

end TrexStatelessDpCore

end Trex.Dp
