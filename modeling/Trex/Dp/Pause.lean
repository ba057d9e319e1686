/-
# Packets, and nodes that are paused

Only `handle_continues` looks at the pause flag of a node.  A node of a burst sends its packet
whether it is paused or not, counts it, and ends (`CGenNodeStateless.sends`).

A port that is busy keeps its nodes: a step leaves them where they are, and a continuous node only
moves in time, gets another gap or another pause flag (`step_carries`).  A start makes active nodes
of the streams that start by themselves, and only a burst ends, so a port without bursts whose
streams all start by themselves has active nodes only (`Awake`).
-/
import Trex.Dp.Frame

namespace Trex.Dp

open Trex.Lib Trex.Stream

/-- Whether a node that is taken from the queue sends a packet: `handle_continues` asks for the
pause flag, `handle_multi_burst` does not. -/
def CGenNodeStateless.sends (node : CGenNodeStateless) : Bool :=
  match node.streamType with
  | .stCONTINUOUS => !node.pause
  | .stMULTI_BURST => true
  | .stSINGLE_BURST => false

namespace TrexStatelessDpCore

variable {c c' c'' : TrexStatelessDpCore} {p : Ptr} {node node' node'' : CGenNodeStateless}
    {i j : UInt8}

/-- **The node that sends a packet in a step**, if there is one. -/
def sender? (c : TrexStatelessDpCore) : Act → Option CGenNodeStateless
  | .pop k =>
    match c.queue[k]? with
    | some (.stateless p) =>
      (c.heap p).filter fun node => decide (node.state ≠ .ssFREE_RESUSE) && node.sends
    | _ => none
  | _ => none

theorem sender?_eq_some {a : Act} (h : c.sender? a = some node) :
    ∃ k p, a = .pop k ∧ c.queue[k]? = some (.stateless p) ∧ c.heap p = some node
      ∧ node.state ≠ .ssFREE_RESUSE ∧ node.sends = true := by
  cases a with
  | pop k =>
    unfold sender? at h
    simp only at h
    split at h
    · rename_i p hk
      obtain ⟨hp, hsends⟩ := Option.filter_eq_some_iff.mp h
      rw [Bool.and_eq_true, decide_eq_true_eq] at hsends
      exact ⟨k, p, rfl, hk, hp, hsends.1, hsends.2⟩
    · cases h
  | msg m => cases h
  | leaveIdle => cases h
  | endSync => cases h

/-! ## 1. Nodes that are carried on -/

/-- A node moved in time, and got another gap or another pause flag. -/
def Moved (node node' : CGenNodeStateless) : Prop :=
  ∃ time gap pause, node' = { node with time := time, nextTimeOffset := gap, pause := pause }

theorem Moved.refl (node : CGenNodeStateless) : Moved node node :=
  ⟨node.time, node.nextTimeOffset, node.pause, rfl⟩

theorem Moved.trans (h : Moved node node') (h' : Moved node' node'') : Moved node node'' := by
  obtain ⟨_, _, _, rfl⟩ := h
  obtain ⟨time, gap, pause, rfl⟩ := h'
  exact ⟨time, gap, pause, rfl⟩

/-- The same node, a step later: a continuous one that is active only moved. -/
structure Carried (node node' : CGenNodeStateless) : Prop where
  port : node'.portId = node.portId
  type : node'.streamType = node.streamType
  kept : node.state ≠ .ssFREE_RESUSE → node'.state ≠ .ssFREE_RESUSE
  continuous : node.streamType = .stCONTINUOUS → node.state = .ssACTIVE → Moved node node'

theorem Carried.of_moved (h : Moved node node') : Carried node node' := by
  obtain ⟨time, gap, pause, rfl⟩ := h
  exact ⟨rfl, rfl, id, fun _ _ => ⟨time, gap, pause, rfl⟩⟩

theorem Carried.refl (node : CGenNodeStateless) : Carried node node := .of_moved (.refl node)

theorem Carried.trans (h : Carried node node') (h' : Carried node' node'') :
    Carried node node'' := by
  refine ⟨h'.port.trans h.port, h'.type.trans h.type, fun hfree => h'.kept (h.kept hfree), ?_⟩
  intro htype hstate
  have hmoved := h.continuous htype hstate
  refine hmoved.trans (h'.continuous (h.type.trans htype) ?_)
  obtain ⟨_, _, _, rfl⟩ := hmoved
  exact hstate

/-- A node of a burst. -/
theorem Carried.of_burst (halike : Alike node node') (htype : node.streamType ≠ .stCONTINUOUS)
    (hfree : node'.state ≠ .ssFREE_RESUSE) : Carried node node' :=
  ⟨halike.port, halike.type, fun _ => hfree, fun h => absurd h htype⟩

/-- A node that was not active. -/
theorem Carried.of_inactive (halike : Alike node node') (hstate : node.state ≠ .ssACTIVE)
    (hfree : node'.state ≠ .ssFREE_RESUSE) : Carried node node' :=
  ⟨halike.port, halike.type, fun _ => hfree, fun _ h => absurd h hstate⟩

/-- **A port keeps its nodes.** -/
structure Carries (i : UInt8) (c c' : TrexStatelessDpCore) : Prop where
  nodes : (c'.ports i).activeNodes = (c.ports i).activeNodes
  node : ∀ p node, c.heap p = some node → NodeAt i node →
    ∃ node', c'.heap p = some node' ∧ Carried node node'

theorem Carried.nodeAt (h : Carried node node') (hat : NodeAt i node) : NodeAt i node' :=
  ⟨h.port.trans hat.1, h.kept hat.2⟩

theorem Carries.refl (i : UInt8) (c : TrexStatelessDpCore) : Carries i c c :=
  ⟨rfl, fun _ node hp _ => ⟨node, hp, .refl node⟩⟩

theorem Carries.trans (h : Carries i c c') (h' : Carries i c' c'') : Carries i c c'' := by
  refine ⟨h'.nodes.trans h.nodes, fun p node hp hat => ?_⟩
  obtain ⟨node', hp', hcarried⟩ := h.node p node hp hat
  obtain ⟨node'', hp'', hcarried'⟩ := h'.node p node' hp' (hcarried.nodeAt hat)
  exact ⟨node'', hp'', hcarried.trans hcarried'⟩

/-- A node of the port after the step was one before it. -/
theorem Carries.back (h : Carries i c c') (hinv : c.Inv) (hinv' : c'.Inv)
    (hp : c'.heap p = some node') (hat : NodeAt i node') :
    ∃ node, c.heap p = some node ∧ NodeAt i node ∧ Carried node node' := by
  have hmem : p ∈ (c'.ports i).activeNodes :=
    hinv'.pool.mem_nodes.mpr (owned_iff.mpr ⟨node', hp, hat⟩)
  rw [h.nodes] at hmem
  obtain ⟨node, hnode, hport, hfree⟩ := hinv.of_mem_nodes hmem
  obtain ⟨x, hx, hcarried⟩ := h.node p node hnode ⟨hport, hfree⟩
  rw [hp] at hx
  obtain rfl := Option.some.inj hx
  exact ⟨node, hnode, ⟨hport, hfree⟩, hcarried⟩

theorem Untouched.carries (h : Untouched i c c') : Carries i c c' := by
  refine ⟨by rw [h.port], fun p node hp hat => ?_⟩
  exact ⟨node, (h.node p node hat).mpr hp, .refl node⟩

/-- A node is replaced by itself, a step later. -/
theorem carries_setNode (hp : c.heap p = some node) (hcarried : Carried node node') :
    Carries i c (c.setNode p node') := by
  refine ⟨rfl, fun q x hx _ => ?_⟩
  by_cases hq : q = p
  · subst hq
    rw [hp] at hx
    obtain rfl := Option.some.inj hx
    exact ⟨node', setNode_heap_eq, hcarried⟩
  · exact ⟨x, (setNode_heap_ne hq).trans hx, .refl x⟩

/-- The ports and the heap are left alone. -/
theorem Carries.of_eq (hports : c'.ports = c.ports) (hheap : c'.heap = c.heap) : Carries i c c' :=
  (Untouched.of_eq hports hheap).carries

/-! ## 2. Steps -/

theorem setPauseNodes_carries (enable : Bool) (fault : Fault) {rest : List Ptr}
    {c c' : TrexStatelessDpCore} (h : setPauseNodes j enable fault rest c = .ok c') :
    Carries i c c' := by
  refine setPauseNodes_rel (Carries.refl i) Carries.trans ?_ h
  intro c p node hp _
  have hmoved : Moved node (node.setPause enable) := ⟨node.time, node.nextTimeOffset, enable, rfl⟩
  exact carries_setNode hp (.of_moved hmoved)

theorem updateNodes_carries (factor : Rat) {rest : List Ptr} {c c' : TrexStatelessDpCore}
    (h : updateNodes j factor rest c = .ok c') : Carries i c c' := by
  refine updateNodes_rel (Carries.refl i) Carries.trans ?_ h
  intro c p node hp _
  have hmoved : Moved node (node.updateRate factor) :=
    ⟨node.time, node.nextTimeOffset / factor, node.pause, rfl⟩
  exact carries_setNode hp (.of_moved hmoved)

/-- The state of a port changes, and its nodes stay. -/
theorem carries_setPort (port : TrexStatelessDpPerPort)
    (hnodes : port.activeNodes = (c.ports j).activeNodes) :
    Carries i c (c.setPort j port) := by
  refine ⟨?_, fun p node hp _ => ⟨node, hp, .refl node⟩⟩
  by_cases hij : i = j
  · subst hij
    simp [setPort, hnodes]
  · simp [setPort, hij]

theorem pauseTraffic_carries (h : pauseTraffic j c = .ok c') : Carries i c c' := by
  obtain ⟨_, -, h⟩ := bind_eq_ok h
  obtain ⟨_, -, h⟩ := bind_eq_ok h
  obtain ⟨c1, hnodes, h⟩ := bind_eq_ok h
  cases h
  exact (setPauseNodes_carries _ _ hnodes).trans (carries_setPort _ rfl)

theorem resumeTraffic_carries (h : resumeTraffic j c = .ok c') : Carries i c c' := by
  obtain ⟨_, -, h⟩ := bind_eq_ok h
  obtain ⟨_, -, h⟩ := bind_eq_ok h
  obtain ⟨c1, hnodes, h⟩ := bind_eq_ok h
  cases h
  exact (setPauseNodes_carries _ _ hnodes).trans (carries_setPort _ rfl)

theorem stopTraffic_carries {stopOnId : Bool} {eventId : Int}
    (h : stopTraffic i stopOnId eventId c = .ok c') :
    Carries i c c' ∨ (c'.ports i).state = .ppSTATE_IDLE := by
  rcases stopTraffic_effect h with ⟨rfl, -⟩ | ⟨hhalt, -⟩
  · exact Or.inl (.refl i _)
  · exact Or.inr hhalt.after

theorem reduceActiveStreams_carries (h : reduceActiveStreams i c = .ok c') :
    Carries i c c' ∨ (c'.ports i).state = .ppSTATE_IDLE := by
  obtain ⟨_, -, h⟩ := bind_eq_ok h
  have hcount : Carries i c (c.setPort i { c.ports i with
      activeStreams := (c.ports i).activeStreams - 1 }) := carries_setPort _ rfl
  split at h
  · exact (stopTraffic_carries h).imp_left hcount.trans
  · cases h
    exact Or.inl hcount

/-- A node of the port is taken from the queue. -/
theorem popStateless_carries (hp : c.heap p = some node) (hat : NodeAt i node)
    (h : popStateless p c = .ok c') : Carries i c c' ∨ (c'.ports i).state = .ppSTATE_IDLE := by
  obtain ⟨rfl, hfree⟩ := hat
  have hburst : node.streamType = .stMULTI_BURST → Carried node node.handleMultiBurst := by
    intro htype
    refine .of_burst (alike_handleMultiBurst node) (by rw [htype]; decide) ?_
    rw [CGenNodeStateless.handleMultiBurst_state]
    split
    · decide
    · exact hfree
  rw [popStateless, getNode_eq hp] at h
  simp only [bind, Except.bind, if_neg hfree] at h
  unfold handleNode at h
  split at h
  · cases h
    have hmoved : Moved node node.handleContinues :=
      ⟨node.time + node.nextTimeOffset, node.nextTimeOffset, node.pause, rfl⟩
    exact Or.inl ((carries_setNode hp (.of_moved hmoved)).trans (.of_eq rfl rfl))
  · rename_i htype
    have hset := carries_setNode (i := node.portId) hp (hburst htype)
    split at h
    · rcases finishNode_cases h with ⟨q, next, info, hnext, hq, hstate, -, rfl⟩ | hreduce
      · have halike : Alike next
            ((next.refresh info).updateRefreshTime info node.handleMultiBurst.time) :=
          ⟨rfl, rfl, rfl, rfl, rfl⟩
        have hwake := Carried.of_inactive halike (by rw [hstate]; decide) fun hcase => by
          cases hcase
        exact Or.inl (hset.trans ((carries_setNode hq hwake).trans (.of_eq rfl rfl)))
      · exact (reduceActiveStreams_carries hreduce).imp_left hset.trans
    · cases h
      exact Or.inl (hset.trans (.of_eq rfl rfl))
  · cases h

/-- **A port that is not started keeps its nodes, or is left idle.** -/
theorem step_carries (hinv : c.Inv) {a : Act} (h : c.step a = .ok c')
    (hstart : ∀ obj duration eventId, a = .msg (.start obj duration eventId) → obj.portId ≠ i) :
    Carries i c c' ∨ (c'.ports i).state = .ppSTATE_IDLE := by
  by_cases hconcerns : c.Concerns i a
  · cases a with
    | msg m =>
      cases m with
      | start obj duration eventId =>
          exact absurd (Option.some.inj hconcerns) (hstart obj duration eventId rfl)
      | stop cmd =>
        obtain rfl : cmd.portId = i := Option.some.inj hconcerns
        exact stopTraffic_carries h
      | pause j => exact Or.inl (pauseTraffic_carries h)
      | resume j => exact Or.inl (resumeTraffic_carries h)
      | update j factor =>
        obtain ⟨_, -, h⟩ := bind_eq_ok h
        obtain ⟨_, -, h⟩ := bind_eq_ok h
        exact Or.inl (updateNodes_carries factor h)
      | quit => cases hconcerns
    | leaveIdle => exact hconcerns.elim
    | pop k =>
      obtain ⟨qnode, hk, hqnode⟩ := hconcerns
      unfold step at h
      simp only [hk] at h
      cases qnode with
      | stateless p =>
        obtain ⟨node, hp, hat⟩ := hqnode
        have hpop := popStateless_carries (c := { c with queue := c.queue.eraseIdx k }) hp hat h
        exact hpop.imp_left fun hkept => ⟨hkept.nodes, hkept.node⟩
      | command time cmd =>
        obtain rfl : cmd.portId = i := hqnode
        obtain ⟨c1, hstop, h⟩ := bind_eq_ok h
        obtain ⟨_, -, h⟩ := bind_eq_ok h
        cases h
        exact (stopTraffic_carries hstop).imp_left fun hkept => ⟨hkept.nodes, hkept.node⟩
      | flowSync time => exact hqnode.elim
      | exitSched time => exact hqnode.elim
    | endSync => exact hconcerns.elim
  · exact Or.inl (step_untouched hinv hconcerns h).carries

/-! ## 3. Active nodes -/

/-- A port has a node of a burst, or all its nodes are active. -/
def Awake (i : UInt8) (c : TrexStatelessDpCore) : Prop :=
  (∃ p node, c.heap p = some node ∧ NodeAt i node ∧ node.streamType ≠ .stCONTINUOUS)
    ∨ ∀ p node, c.heap p = some node → NodeAt i node → node.state = .ssACTIVE

theorem Carries.awake (h : Carries i c c') (hinv : c.Inv) (hinv' : c'.Inv) (hawake : Awake i c) :
    Awake i c' := by
  rcases hawake with ⟨p, node, hp, hat, htype⟩ | hall
  · obtain ⟨node', hp', hcarried⟩ := h.node p node hp hat
    exact Or.inl ⟨p, node', hp', hcarried.nodeAt hat, hcarried.type ▸ htype⟩
  · by_cases hburst : ∃ p node, c'.heap p = some node ∧ NodeAt i node ∧
      node.streamType ≠ .stCONTINUOUS
    · exact Or.inl hburst
    · refine Or.inr fun p node' hp' hat' => ?_
      obtain ⟨node, hp, hat, hcarried⟩ := h.back hinv hinv' hp' hat'
      have htype : node'.streamType = .stCONTINUOUS := by
        by_contra hne
        exact hburst ⟨p, node', hp', hat', hne⟩
      have hstate := hall p node hp hat
      obtain ⟨_, _, _, rfl⟩ := hcarried.continuous (hcarried.type.symm.trans htype) hstate
      exact hstate

/-- A port that is idle has no nodes. -/
theorem awake_of_idle (hinv : c.Inv) (hidle : (c.ports i).state = .ppSTATE_IDLE) : Awake i c := by
  refine Or.inr fun p node hp hat => ?_
  have hmem : p ∈ (c.ports i).activeNodes := hinv.pool.mem_nodes.mpr (owned_iff.mpr ⟨node, hp, hat⟩)
  rw [hinv.idle_nodes hidle] at hmem
  cases hmem

/-- Continuous streams that start by themselves. -/
def SelfStarting (obj : TrexStreamsCompiledObj) : Prop :=
  (∀ s ∈ obj.objs, s.type = .stCONTINUOUS) → ∀ s ∈ obj.objs, s.selfStart = true

/-- **A start of such streams makes active nodes.** -/
theorem startTraffic_awake {obj : TrexStreamsCompiledObj} {duration : Rat} {eventId : Int}
    (hinv : c.Inv) (hinv' : c'.Inv) (hobj : SelfStarting obj)
    (h : startTraffic obj duration eventId c = .ok c') :
    Awake obj.portId c' := by
  obtain ⟨hnodes, hmade⟩ := startTraffic_made hinv' h hinv.fresh
  by_cases hcont : ∀ s ∈ obj.objs, s.type = .stCONTINUOUS
  · refine Or.inr fun p node hp hat => ?_
    have hmem : p ∈ (c'.ports obj.portId).activeNodes :=
      hinv'.pool.mem_nodes.mpr (owned_iff.mpr ⟨node, hp, hat⟩)
    rw [hnodes] at hmem
    obtain ⟨k, hk, rfl⟩ := List.mem_map.mp hmem
    have hlt := List.mem_range.mp hk
    obtain ⟨x, hx, -, hsame⟩ := hmade k _ (List.getElem?_eq_getElem hlt)
    rw [hp] at hx
    obtain rfl := Option.some.inj hx
    rw [hsame]
    have hself := hobj hcont _ (List.getElem_mem hlt)
    exact (newNode_state _ _).trans (if_pos hself)
  · push Not at hcont
    obtain ⟨s, hs, htype⟩ := hcont
    obtain ⟨k, hk⟩ := List.getElem?_of_mem hs
    obtain ⟨node, hp, hat, hsame⟩ := hmade k s hk
    refine Or.inl ⟨_, node, hp, hat, ?_⟩
    rw [hsame]
    have hburst := newNode_streamType c.curTimeSec s
    rw [if_neg htype] at hburst
    rw [hburst]
    decide

/-- **Every step keeps the ports awake.** -/
theorem step_awake (hinv : c.Inv) (hinv' : c'.Inv) {a : Act} (h : c.step a = .ok c')
    (hobj : ∀ obj duration eventId, a = .msg (.start obj duration eventId) → SelfStarting obj)
    (hawake : Awake i c) : Awake i c' := by
  by_cases hstart : ∃ obj duration eventId, a = .msg (.start obj duration eventId) ∧ obj.portId = i
  · obtain ⟨obj, duration, eventId, rfl, rfl⟩ := hstart
    exact startTraffic_awake hinv hinv' (hobj obj duration eventId rfl) h
  · have hno : ∀ obj duration eventId, a = .msg (.start obj duration eventId) → obj.portId ≠ i :=
      fun obj duration eventId ha hi => hstart ⟨obj, duration, eventId, ha, hi⟩
    rcases step_carries hinv h hno with hkept | hidle
    · exact hkept.awake hinv hinv' hawake
    · exact awake_of_idle hinv' hidle

end TrexStatelessDpCore

end Trex.Dp
