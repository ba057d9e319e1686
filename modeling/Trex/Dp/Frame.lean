/-
# A step is about one port

The ports of a core share its heap and its queue, and their streams are stepped one after the other
by one scheduler.  Every step still is about one port at most: a message names its port, and a node
or a command that is taken from the queue has one.  `step_untouched` says that all the other ports
stay exactly as they are, with their nodes.
-/
import Trex.Dp.Timing

namespace Trex.Dp

open Trex.Lib Trex.Stream List

namespace TrexStatelessDpCore

variable {c c' c'' : TrexStatelessDpCore} {p : Ptr} {node node' : CGenNodeStateless} {i j : UInt8}

/-! ## 1. Ports that are left alone -/

/-- A node that a port lists. -/
def NodeAt (i : UInt8) (node : CGenNodeStateless) : Prop :=
  node.portId = i ∧ node.state ≠ .ssFREE_RESUSE

/-- A port and its nodes stay as they are. -/
structure Untouched (i : UInt8) (c c' : TrexStatelessDpCore) : Prop where
  port : c'.ports i = c.ports i
  node : ∀ p node, NodeAt i node → (c'.heap p = some node ↔ c.heap p = some node)

theorem Untouched.refl (i : UInt8) (c : TrexStatelessDpCore) : Untouched i c c :=
  ⟨rfl, fun _ _ _ => Iff.rfl⟩

theorem Untouched.trans (h : Untouched i c c') (h' : Untouched i c' c'') : Untouched i c c'' :=
  ⟨h'.port.trans h.port, fun p node hnode => (h'.node p node hnode).trans (h.node p node hnode)⟩

/-- A step that leaves the ports and the heap alone. -/
theorem Untouched.of_eq (hports : c'.ports = c.ports) (hheap : c'.heap = c.heap) :
    Untouched i c c' :=
  ⟨by rw [hports], fun p node _ => by rw [hheap]⟩

/-- A node of another port is changed, or a new one is made for another port. -/
theorem untouched_setNode (hold : ∀ x, c.heap p = some x → ¬ NodeAt i x) (hnew : ¬ NodeAt i node') :
    Untouched i c (c.setNode p node') := by
  refine ⟨rfl, fun q x hx => ?_⟩
  by_cases hq : q = p
  · subst hq
    constructor
    · intro h
      rw [setNode_heap_eq] at h
      obtain rfl := Option.some.inj h
      exact absurd hx hnew
    · exact fun h => absurd hx (hold x h)
  · rw [setNode_heap_ne hq]

theorem untouched_freeNode (hold : ∀ x, c.heap p = some x → ¬ NodeAt i x) :
    Untouched i c (c.freeNode p) := by
  refine ⟨rfl, fun q x hx => ?_⟩
  by_cases hq : q = p
  · subst hq
    constructor
    · intro h
      simp [freeNode] at h
    · exact fun h => absurd hx (hold x h)
  · simp [freeNode, Function.update_of_ne hq]

theorem untouched_setPort (hji : j ≠ i) (port : TrexStatelessDpPerPort) :
    Untouched i c (c.setPort j port) :=
  ⟨Function.update_of_ne hji.symm _ _, fun _ _ _ => Iff.rfl⟩

/-- A node of another port. -/
theorem not_nodeAt (hp : c.heap p = some node) (hport : node.portId = j) (hji : j ≠ i) :
    ∀ x, c.heap p = some x → ¬ NodeAt i x := by
  intro x hx hat
  rw [hp] at hx
  obtain rfl := Option.some.inj hx
  exact hji (hport.symm.trans hat.1)

/-! ## 2. Messages to other ports -/

variable {rest : List Ptr} {eventId : Int}

theorem stopNodes_untouched (hji : j ≠ i) {c c' : TrexStatelessDpCore}
    (h : stopNodes j rest c = .ok c') : Untouched i c c' := by
  refine stopNodes_rel (Untouched.refl i) Untouched.trans ?_ ?_ h
  · intro c p node hp hport
    exact (untouched_setNode (not_nodeAt hp hport hji) fun hat =>
      hat.2 rfl).trans (untouched_setPort hji _)
  · intro c p node hp hport
    exact untouched_freeNode (not_nodeAt hp hport hji)

theorem stopTraffic_untouched (hji : j ≠ i) {stopOnId : Bool}
    (h : stopTraffic j stopOnId eventId c = .ok c') : Untouched i c c' := by
  obtain ⟨_, -, h⟩ := bind_eq_ok h
  obtain ⟨⟨c1, stopped⟩, hport, h⟩ := bind_eq_ok h
  have hstopped : Untouched i c c1 := by
    unfold portStopTraffic at hport
    simp only at hport
    split at hport
    · obtain ⟨_, -, hport⟩ := bind_eq_ok hport
      cases hport
      exact Untouched.refl _ _
    split at hport
    · cases hport
      exact Untouched.refl _ _
    · obtain ⟨c2, hstop, hport⟩ := bind_eq_ok hport
      obtain ⟨_, -, hport⟩ := bind_eq_ok hport
      cases hport
      exact (stopNodes_untouched hji hstop).trans (untouched_setPort hji _)
  cases stopped with
  | false =>
    cases h
    exact hstopped
  | true =>
    cases h
    exact hstopped.trans (Untouched.of_eq rfl rfl)

theorem setPauseNodes_untouched (hji : j ≠ i) (enable : Bool) (fault : Fault)
    {c c' : TrexStatelessDpCore} (h : setPauseNodes j enable fault rest c = .ok c') :
    Untouched i c c' := by
  refine setPauseNodes_rel (Untouched.refl i) Untouched.trans ?_ h
  intro c p node hp hport
  exact untouched_setNode (not_nodeAt hp hport hji) fun hat => hji (hport.symm.trans hat.1)

theorem updateNodes_untouched (hji : j ≠ i) (factor : Rat) {c c' : TrexStatelessDpCore}
    (h : updateNodes j factor rest c = .ok c') : Untouched i c c' := by
  refine updateNodes_rel (Untouched.refl i) Untouched.trans ?_ h
  intro c p node hp hport
  exact untouched_setNode (not_nodeAt hp hport hji) fun hat => hji (hport.symm.trans hat.1)

theorem pauseTraffic_untouched (hji : j ≠ i) (h : pauseTraffic j c = .ok c') :
    Untouched i c c' := by
  obtain ⟨_, -, h⟩ := bind_eq_ok h
  obtain ⟨_, -, h⟩ := bind_eq_ok h
  obtain ⟨c1, hnodes, h⟩ := bind_eq_ok h
  cases h
  exact (setPauseNodes_untouched hji _ _ hnodes).trans (untouched_setPort hji _)

theorem resumeTraffic_untouched (hji : j ≠ i) (h : resumeTraffic j c = .ok c') :
    Untouched i c c' := by
  obtain ⟨_, -, h⟩ := bind_eq_ok h
  obtain ⟨_, -, h⟩ := bind_eq_ok h
  obtain ⟨c1, hnodes, h⟩ := bind_eq_ok h
  cases h
  exact (setPauseNodes_untouched hji _ _ hnodes).trans (untouched_setPort hji _)

theorem updateTraffic_untouched (hji : j ≠ i) {factor : Rat}
    (h : updateTraffic j factor c = .ok c') :
    Untouched i c c' := by
  obtain ⟨_, -, h⟩ := bind_eq_ok h
  obtain ⟨_, -, h⟩ := bind_eq_ok h
  exact updateNodes_untouched hji factor h

/-- `add_stream` asserts that a stream is for the port. -/
theorem addStreams_portId : ∀ {ss : List TrexStream} {c c' : TrexStatelessDpCore},
    addStreams j ss c = .ok c' → ∀ s ∈ ss, s.portId = j := by
  intro ss
  induction ss with
  | nil => exact fun _ s hs => nomatch hs
  | cons s ss ih =>
    intro c c' h x hx
    rw [addStreams] at h
    obtain ⟨_, hport, h⟩ := bind_eq_ok h
    rcases mem_cons.mp hx with rfl | hx
    · exact (check_eq_ok hport).symm
    · exact ih h x hx

theorem addStreams_untouched (hji : j ≠ i) : ∀ {ss : List TrexStream} {c c' : TrexStatelessDpCore},
    (∀ p, c.fresh ≤ p → c.heap p = none) → addStreams j ss c = .ok c' → Untouched i c c' := by
  intro ss
  induction ss with
  | nil =>
    intro c c' _ h
    cases h
    exact Untouched.refl _ _
  | cons s ss ih =>
    intro c c' hfresh h
    rw [addStreams] at h
    obtain ⟨_, hport, h⟩ := bind_eq_ok h
    have hport' : s.portId = j := (check_eq_ok hport).symm
    have hnone := hfresh c.fresh le_rfl
    rw [addStream_eq] at h
    refine Untouched.trans ?_ (ih ?_ h)
    · have hset : Untouched i c (c.setNode c.fresh (newNode c.curTimeSec s)) := by
        refine untouched_setNode (fun x hx => ?_) fun hat => ?_
        · rw [hnone] at hx
          cases hx
        · rw [NodeAt, newNode_portId] at hat
          exact hji (hport'.symm.trans hat.1)
      refine hset.trans ⟨?_, fun _ _ _ => Iff.rfl⟩
      exact Function.update_of_ne hji.symm _ _
    · intro p hp
      have hlt : c.fresh < p := hp
      simpa [Function.update_of_ne hlt.ne'] using hfresh p hlt.le

theorem linkStreams_untouched (hji : j ≠ i) : ∀ {ss : List TrexStream} {cnt : Nat}
    {c c' : TrexStatelessDpCore},
    (∀ p ∈ (c.ports j).activeNodes, ∀ x, c.heap p = some x → x.portId = j) →
    linkStreams j cnt ss c = .ok c' → Untouched i c c' := by
  intro ss
  induction ss with
  | nil =>
    intro cnt c c' _ h
    cases h
    exact Untouched.refl _ _
  | cons s ss ih =>
    intro cnt c c' hnodes h
    rw [linkStreams] at h
    split at h
    · simp only at h
      split at h
      · cases h
      split at h
      · cases h
      · rename_i q hq
        obtain ⟨node, hnode, h⟩ := bind_eq_ok h
        have hp := getNode_eq_ok hnode
        have hport := hnodes q (mem_of_getElem? hq) node hp
        refine Untouched.trans ?_ (ih ?_ h)
        · exact untouched_setNode (not_nodeAt hp hport hji) fun hat => hji (hport.symm.trans hat.1)
        · intro r hr x hx
          by_cases hrq : r = q
          · subst hrq
            rw [setNode_heap_eq] at hx
            obtain rfl := Option.some.inj hx
            exact hport
          · rw [setNode_heap_ne hrq] at hx
            exact hnodes r hr x hx
    · exact ih hnodes h

variable {obj : TrexStreamsCompiledObj}

theorem startTraffic_untouched {duration : Rat} (hji : obj.portId ≠ i)
    (hfresh : ∀ p, c.fresh ≤ p → c.heap p = none)
    (h : startTraffic obj duration eventId c = .ok c') : Untouched i c c' := by
  obtain ⟨hnil, c1, c2, hadd, hlink, rfl⟩ := startTraffic_eq_ok h
  have hset : Untouched i c (c.setPort obj.portId
      { c.ports obj.portId with activeStreams := 0, eventId := eventId }) := untouched_setPort hji _
  have hadded := addStreams_untouched hji (by exact hfresh) hadd
  have hlinked : Untouched i c1 c2 := by
    refine linkStreams_untouched hji (fun p hp x hx => ?_) hlink
    -- the nodes of the port are the new ones
    obtain ⟨hnodes, hheap, -⟩ := addStreams_nodes _ hadd
    rw [hnodes] at hp
    simp only [setPort, Function.update_self, hnil, nil_append] at hp
    obtain ⟨k, -, rfl⟩ := mem_map.mp hp
    rcases hheap _ x hx with hold | ⟨k', s, hk, -, rfl⟩
    · have hnone := hfresh (c.fresh + k) (Nat.le_add_right _ _)
      exact absurd (hnone.symm.trans hold) (fun heq => by cases heq)
    · rw [newNode_portId]
      exact addStreams_portId hadd s (mem_of_getElem? hk)
  have htransmit : Untouched i c2 (c2.setPort obj.portId
      { c2.ports obj.portId with state := .ppSTATE_TRANSMITTING }) := untouched_setPort hji _
  refine (((hset.trans hadded).trans hlinked).trans htransmit).trans ?_
  unfold addPortDuration
  split
  · exact Untouched.of_eq rfl rfl
  · exact Untouched.of_eq rfl rfl

/-! ## 3. Nodes of other ports -/

theorem reduceActiveStreams_untouched (hji : j ≠ i) (h : reduceActiveStreams j c = .ok c') :
    Untouched i c c' := by
  obtain ⟨_, -, h⟩ := bind_eq_ok h
  have hcount : Untouched i c (c.setPort j
      { c.ports j with activeStreams := (c.ports j).activeStreams - 1 }) := untouched_setPort hji _
  split at h
  · exact hcount.trans (stopTraffic_untouched hji h)
  · cases h
    exact hcount

theorem setStatelessNextNode_untouched (hji : j ≠ i) {next : Option Ptr} {schedule : Bool}
    (hnext : ∀ q, next = some q → ∀ x, c.heap q = some x → x.portId = j)
    (h : setStatelessNextNode j next c = .ok (c', schedule)) : Untouched i c c' := by
  obtain ⟨_, -, h⟩ := bind_eq_ok h
  cases next with
  | none =>
    obtain ⟨c1, hreduce, h⟩ := bind_eq_ok h
    cases h
    exact reduceActiveStreams_untouched hji hreduce
  | some q =>
    obtain ⟨node, hnode, h⟩ := bind_eq_ok h
    have hq := getNode_eq_ok hnode
    have hport := hnext q rfl node hq
    cases hstate : node.state with
    | ssFREE_RESUSE =>
      simp only [hstate] at h
      cases h
    | ssINACTIVE =>
      simp only [hstate] at h
      split at h
      · cases h
      · cases h
        exact untouched_setNode (not_nodeAt hq hport hji) fun hat => hji (hport.symm.trans hat.1)
    | ssACTIVE =>
      simp only [hstate] at h
      obtain ⟨c1, hreduce, h⟩ := bind_eq_ok h
      cases h
      exact reduceActiveStreams_untouched hji hreduce

/-- The last packet of a stream of another port. -/
theorem finishNode_untouched (hp : c.heap p = some node) (hother : node.portId ≠ i)
    (hnext : ∀ q, node.nextStream = some q → ∀ x, c.heap q = some x → x.portId = node.portId)
    (h : finishNode p node c = .ok c') : Untouched i c c' := by
  obtain ⟨⟨c1, schedule⟩, hset, h⟩ := bind_eq_ok h
  have hburst := (handleMultiBurst_portId node).1
  have hnode : Untouched i c (c.setNode p node.handleMultiBurst) :=
    untouched_setNode (not_nodeAt hp rfl hother) fun hat => hother (hburst.symm.trans hat.1)
  have hnext' : ∀ q, node.nextStream = some q → ∀ x,
      (c.setNode p node.handleMultiBurst).heap q = some x → x.portId = node.portId := by
    intro q hq x hx
    by_cases hqp : q = p
    · subst hqp
      rw [setNode_heap_eq] at hx
      obtain rfl := Option.some.inj hx
      exact hburst
    · rw [setNode_heap_ne hqp] at hx
      exact hnext q hq x hx
  have hc1 := hnode.trans (setStatelessNextNode_untouched hother hnext' hset)
  cases schedule with
  | false =>
    cases h
    exact hc1
  | true =>
    simp only [if_true] at h
    split at h
    · cases h
    rename_i q hq
    obtain ⟨next, hgot, h⟩ := bind_eq_ok h
    split at h
    · cases h
    cases h
    -- the next node was there before, with its port
    have hkept : Kept (c.setNode p node.handleMultiBurst).heap c1.heap := by
      rcases (setStatelessNextNode_effect hset).1 with hquiet | ⟨hhalt, -⟩
      · exact hquiet.kept
      · exact hhalt.kept
    have hgot' := getNode_eq_ok hgot
    obtain ⟨x, hx, hsame, -, -⟩ := hkept q next hgot'
    have hport : next.portId = node.portId := hsame.trans (hnext' q hq x hx)
    refine hc1.trans ((untouched_setNode (not_nodeAt hgot' hport hother) ?_).trans
      (Untouched.of_eq rfl rfl))
    exact fun hat => hother (hport.symm.trans hat.1)

/-- A node that is not of the port. -/
theorem popStateless_untouched (hp : c.heap p = some node) (hnot : ¬ NodeAt i node)
    (hnext : ∀ q, node.nextStream = some q → ∀ x, c.heap q = some x → x.portId = node.portId)
    (h : popStateless p c = .ok c') : Untouched i c c' := by
  have hold : ∀ x, c.heap p = some x → ¬ NodeAt i x := by
    intro x hx
    rw [hp] at hx
    obtain rfl := Option.some.inj hx
    exact hnot
  rw [popStateless, getNode_eq hp] at h
  simp only [bind, Except.bind] at h
  split at h
  · cases h
    exact untouched_freeNode hold
  · rename_i hfree
    have hother : node.portId ≠ i := fun hport => hnot ⟨hport, hfree⟩
    unfold handleNode at h
    split at h
    · cases h
      have hset : Untouched i c (c.setNode p node.handleContinues) :=
        untouched_setNode hold fun hat => hother hat.1
      exact hset.trans (Untouched.of_eq rfl rfl)
    · split at h
      · exact finishNode_untouched hp hother hnext h
      · cases h
        have hburst := (handleMultiBurst_portId node).1
        exact (untouched_setNode hold fun hat => hother (hburst.symm.trans hat.1)).trans
          (Untouched.of_eq rfl rfl)
    · cases h

/-! ## 4. Steps -/

theorem removeAll_untouched : ∀ {queue : List QueueNode} {c c' : TrexStatelessDpCore},
    removeAll queue c = .ok c' → Untouched i c c' := by
  intro queue
  induction queue with
  | nil =>
    intro c c' h
    cases h
    exact Untouched.refl _ _
  | cons qnode rest ih =>
    intro c c' h
    cases qnode with
    | stateless p =>
      rw [removeAll] at h
      obtain ⟨node, hnode, h⟩ := bind_eq_ok h
      obtain ⟨_, hfree, h⟩ := bind_eq_ok h
      refine Untouched.trans (untouched_freeNode fun x hx hat => ?_) (ih h)
      rw [getNode_eq_ok hnode] at hx
      obtain rfl := Option.some.inj hx
      exact hat.2 (check_eq_ok hfree)
    | command time cmd =>
      rw [removeAll] at h
      obtain ⟨c1, hremove, h⟩ := bind_eq_ok h
      obtain ⟨_, -, hremove⟩ := bind_eq_ok hremove
      cases hremove
      have hrest := ih h
      exact ⟨hrest.port, hrest.node⟩
    | flowSync time => exact ih h
    | exitSched time => exact ih h

theorem closeScheduler_untouched (h : closeScheduler c = .ok c') : Untouched i c c' := by
  unfold closeScheduler at h
  split at h
  · cases h
    exact Untouched.of_eq rfl rfl
  · obtain ⟨c1, hremove, h⟩ := bind_eq_ok h
    cases h
    have hall : Untouched i { c with queue := [] } c1 := removeAll_untouched hremove
    exact ⟨hall.port, hall.node⟩

/-- What a message is about. -/
def CpToDpMsg.portId? : CpToDpMsg → Option UInt8
  | .start obj _ _ => some obj.portId
  | .stop cmd => some cmd.portId
  | .pause portId => some portId
  | .resume portId => some portId
  | .update portId _ => some portId
  | .quit => none

/-- A node of the queue that is about a port. -/
def QueueConcerns (c : TrexStatelessDpCore) (i : UInt8) : QueueNode → Prop
  | .stateless p => ∃ node, c.heap p = some node ∧ NodeAt i node
  | .command _ cmd => cmd.portId = i
  | .flowSync _ => False
  | .exitSched _ => False

/-- A step that is about a port. -/
def Concerns (c : TrexStatelessDpCore) (i : UInt8) : Act → Prop
  | .msg m => m.portId? = some i
  | .leaveIdle => False
  | .pop k => ∃ qnode, c.queue[k]? = some qnode ∧ c.QueueConcerns i qnode
  | .endSync => False

/-- The next node of a node is one of the same port. -/
theorem InvFor.next_portId {mode : UInt8 → Bool → Prop} (h : c.InvFor mode)
    (hp : c.heap p = some node) :
    ∀ q, node.nextStream = some q → ∀ x, c.heap q = some x → x.portId = node.portId := by
  intro q hq x hx
  obtain ⟨y, hy, hport, -⟩ := owned_iff.mp (h.next p node q hp hq)
  rw [hx] at hy
  obtain rfl := Option.some.inj hy
  exact hport

/-- **A step leaves every port alone that it is not about.** -/
theorem step_untouched (hinv : c.Inv) {a : Act} (hnot : ¬ c.Concerns i a) (h : c.step a = .ok c') :
    Untouched i c c' := by
  cases a with
  | msg m =>
    have hport : ∀ j, m.portId? = some j → j ≠ i := by
      rintro j hj rfl
      exact hnot hj
    cases m with
    | start obj duration eventId => exact startTraffic_untouched (hport _ rfl) hinv.fresh h
    | stop cmd => exact stopTraffic_untouched (hport _ rfl) h
    | pause j => exact pauseTraffic_untouched (hport _ rfl) h
    | resume j => exact resumeTraffic_untouched (hport _ rfl) h
    | update j factor => exact updateTraffic_untouched (hport _ rfl) h
    | quit =>
      cases h
      exact Untouched.of_eq rfl rfl
  | leaveIdle =>
    unfold step at h
    simp only at h
    split at h
    · cases h
      exact Untouched.of_eq rfl rfl
    · cases h
      exact Untouched.of_eq rfl rfl
  | pop k =>
    unfold step at h
    simp only at h
    split at h
    · cases h
    rename_i qnode hk
    have hqnode : ¬ c.QueueConcerns i qnode := fun hc => hnot ⟨qnode, hk, hc⟩
    cases qnode with
    | stateless p =>
      obtain ⟨node, hp, -⟩ := hinv.of_mem_queue (mem_of_getElem? hk)
      have hat : ¬ NodeAt i node := fun hat => hqnode ⟨node, hp, hat⟩
      have hpop := popStateless_untouched (c := { c with queue := c.queue.eraseIdx k }) hp hat
        (hinv.next_portId hp) h
      exact ⟨hpop.port, hpop.node⟩
    | command time cmd =>
      obtain ⟨c1, hstop, h⟩ := bind_eq_ok h
      obtain ⟨_, -, h⟩ := bind_eq_ok h
      cases h
      have hstopped : Untouched i { c with queue := c.queue.eraseIdx k } c1 :=
        stopTraffic_untouched hqnode hstop
      exact ⟨hstopped.port, hstopped.node⟩
    | flowSync time =>
      cases h
      exact Untouched.of_eq rfl rfl
    | exitSched time =>
      have hclosed : Untouched i { c with queue := c.queue.eraseIdx k } c' :=
        closeScheduler_untouched h
      exact ⟨hclosed.port, hclosed.node⟩
  | endSync =>
    unfold step at h
    simp only at h
    split at h
    · unfold endSync at h
      split at h
      · exact closeScheduler_untouched h
      · cases h
        exact Untouched.of_eq rfl rfl
    · cases h
      exact Untouched.refl _ _

/-! ## 5. The nodes of a start -/

/-- **A start makes one node of each of its streams**, in their order, and links them. -/
theorem startTraffic_made {duration : Rat} (hinv' : c'.Inv)
    (h : startTraffic obj duration eventId c = .ok c')
    (hfresh : ∀ p, c.fresh ≤ p → c.heap p = none) :
    (c'.ports obj.portId).activeNodes = (List.range obj.objs.length).map (c.fresh + ·)
      ∧ ∀ (k : Nat) (s : TrexStream), obj.objs[k]? = some s →
        ∃ node, c'.heap (c.fresh + k) = some node ∧ NodeAt obj.portId node
        ∧ node = { newNode c.curTimeSec s with nextStream := node.nextStream } := by
  obtain ⟨hnil, c1, c2, hadd, hlink, h⟩ := startTraffic_eq_ok h
  obtain ⟨hnodes, hheap, -⟩ := addStreams_nodes _ hadd
  have hnodes1 : (c1.ports obj.portId).activeNodes =
      (List.range obj.objs.length).map (c.fresh + ·) := by
    rw [hnodes]
    simp [setPort, hnil]
  have hports2 : c2.ports = c1.ports := by
    obtain ⟨heap, -, rfl⟩ := linkStreams_effect _ hlink
    rfl
  have hheap' : c'.heap = c2.heap ∧ (c'.ports obj.portId).activeNodes
      = (List.range obj.objs.length).map (c.fresh + ·) := by
    cases h
    unfold addPortDuration
    split
    · exact ⟨rfl, by simp [push, setPort, hports2, hnodes1]⟩
    · exact ⟨rfl, by simp [setPort, hports2, hnodes1]⟩
  obtain ⟨hheap', hnodes'⟩ := hheap'
  refine ⟨hnodes', fun k s hs => ?_⟩
  have hlt : k < obj.objs.length := (List.getElem?_eq_some_iff.mp hs).1
  have hmem : c.fresh + k ∈ (c'.ports obj.portId).activeNodes := by
    rw [hnodes']
    exact mem_map.mpr ⟨k, mem_range.mpr hlt, rfl⟩
  obtain ⟨node, hnode, hat⟩ := hinv'.of_mem_nodes hmem
  obtain ⟨node1, hnode1, hsame, -⟩ := linkStreams_nodes _ hlink _ node (hheap' ▸ hnode)
  refine ⟨node, hnode, hat, ?_⟩
  rcases hheap _ node1 hnode1 with hold | ⟨k', s', hs', hplace, rfl⟩
  · have hnone := hfresh (c.fresh + k) (Nat.le_add_right _ _)
    exact absurd (hnone.symm.trans hold) fun heq => by cases heq
  · obtain rfl : k = k' := Nat.add_left_cancel hplace
    rw [hs] at hs'
    obtain rfl := Option.some.inj hs'
    exact hsame

end TrexStatelessDpCore

end Trex.Dp
