/-
# The gaps between the packets of a port

`m_next_time_offset` of the nodes of a port, in the order of its streams.  A start sets them from
the rates of its streams, an update divides all of them by its factor, whether the streams are
active, inactive or paused, and nothing else changes them: what the scheduler does moves nodes in
time, and a stop drops them (`msg_gaps`, `internal_gaps`).
-/
import Trex.Dp.Frame

namespace Trex.Dp

open Trex.Lib Trex.Stream List

namespace TrexStatelessDpCore

variable {c c' c'' : TrexStatelessDpCore} {p : Ptr} {node node' : CGenNodeStateless} {i j : UInt8}

/-! ## 1. The gaps -/

/-- The gap of the node at an address. -/
def gapAt (c : TrexStatelessDpCore) (p : Ptr) : Rat :=
  ((c.heap p).map CGenNodeStateless.nextTimeOffset).getD 0

/-- **The gaps of the nodes of a port**, in the order of its streams. -/
def gaps (c : TrexStatelessDpCore) (i : UInt8) : List Rat := (c.ports i).activeNodes.map c.gapAt

theorem gapAt_eq (hp : c.heap p = some node) : c.gapAt p = node.nextTimeOffset := by
  rw [gapAt, hp]
  rfl

theorem gaps_congr (hnodes : (c'.ports i).activeNodes = (c.ports i).activeNodes)
    (hgaps : ∀ p ∈ (c.ports i).activeNodes, c'.gapAt p = c.gapAt p) : c'.gaps i = c.gaps i := by
  rw [gaps, hnodes]
  exact map_congr_left hgaps

/-- A port that is left alone keeps its gaps. -/
theorem Untouched.gaps (h : Untouched i c c') (hinv : c.Inv) : c'.gaps i = c.gaps i := by
  refine gaps_congr (by rw [h.port]) fun p hp => ?_
  obtain ⟨node, hheap, hnode⟩ := hinv.of_mem_nodes hp
  rw [gapAt_eq hheap, gapAt_eq ((h.node p node hnode).mpr hheap)]

/-- A node is changed, but not its gap. -/
theorem gapAt_setNode (node' : CGenNodeStateless) (hp : c.heap p = some node)
    (hgap : node'.nextTimeOffset = node.nextTimeOffset) (q : Ptr) :
    (c.setNode p node').gapAt q = c.gapAt q := by
  by_cases hq : q = p
  · subst hq
    rw [gapAt_eq hp, gapAt_eq (setNode_heap_eq), hgap]
  · rw [gapAt, setNode_heap_ne hq, gapAt]

theorem nextTimeOffset_handleMultiBurst (node : CGenNodeStateless) :
    node.handleMultiBurst.nextTimeOffset = node.nextTimeOffset := by
  unfold CGenNodeStateless.handleMultiBurst
  simp only
  split
  · rfl
  · split <;> rfl

theorem newNode_nextTimeOffset (curTimeSec : Rat) (stream : TrexStream) :
    (newNode curTimeSec stream).nextTimeOffset = 1 / stream.pps := by
  cases htype : stream.type <;> simp [newNode, htype]

/-! ## 2. Messages -/

theorem setPauseNodes_gapAt (enable : Bool) (fault : Fault) {rest : List Ptr}
    {c c' : TrexStatelessDpCore} (h : setPauseNodes j enable fault rest c = .ok c') :
    c'.ports = c.ports ∧ ∀ q, c'.gapAt q = c.gapAt q := by
  refine setPauseNodes_rel (R := fun c c' => c'.ports = c.ports ∧ ∀ q, c'.gapAt q = c.gapAt q)
    (fun _ => ⟨rfl, fun _ => rfl⟩) ?_ ?_ h
  · rintro a b c ⟨hports, hgaps⟩ ⟨hports', hgaps'⟩
    exact ⟨hports'.trans hports, fun q => (hgaps' q).trans (hgaps q)⟩
  · intro c p node hp _
    exact ⟨rfl, gapAt_setNode (node.setPause enable) hp rfl⟩

/-- The loop over the nodes and the new state of the port, of a pause and of a resume. -/
theorem setPauseNodes_gaps {enable : Bool} {fault : Fault} {rest : List Ptr}
    {c c1 : TrexStatelessDpCore} (h : setPauseNodes j enable fault rest c = .ok c1)
    (state : PortState) (i : UInt8) :
    (c1.setPort j { c1.ports j with state := state }).gaps i = c.gaps i := by
  obtain ⟨hports, hgaps⟩ := setPauseNodes_gapAt _ _ h
  refine gaps_congr ?_ fun p _ => hgaps p
  by_cases hij : i = j
  · subst hij
    simp [setPort, hports]
  · simp [setPort, hports, hij]

theorem pauseTraffic_gaps (h : pauseTraffic j c = .ok c') (i : UInt8) : c'.gaps i = c.gaps i := by
  obtain ⟨port, hport, h⟩ := bind_eq_ok h
  obtain ⟨_, -, h⟩ := bind_eq_ok h
  obtain ⟨c1, hnodes, h⟩ := bind_eq_ok h
  cases h
  exact setPauseNodes_gaps hnodes _ i

theorem resumeTraffic_gaps (h : resumeTraffic j c = .ok c') (i : UInt8) : c'.gaps i = c.gaps i := by
  obtain ⟨port, hport, h⟩ := bind_eq_ok h
  obtain ⟨_, -, h⟩ := bind_eq_ok h
  obtain ⟨c1, hnodes, h⟩ := bind_eq_ok h
  cases h
  exact setPauseNodes_gaps hnodes _ i

/-- The loop of `update_traffic`: every node of the list is divided once. -/
theorem updateNodes_gapAt (factor : Rat) :
    ∀ {rest : List Ptr} {c c' : TrexStatelessDpCore}, rest.Nodup →
    updateNodes j factor rest c = .ok c' → c'.ports = c.ports
      ∧ (∀ q ∈ rest, c'.gapAt q = c.gapAt q / factor) ∧ ∀ q ∉ rest, c'.gapAt q = c.gapAt q := by
  intro rest
  induction rest with
  | nil =>
    intro c c' _ h
    cases h
    exact ⟨rfl, fun q hq => (nomatch hq), fun _ _ => rfl⟩
  | cons p rest ih =>
    intro c c' hnodup h
    rw [updateNodes] at h
    obtain ⟨node, hnode, h⟩ := bind_eq_ok h
    obtain ⟨_, -, h⟩ := bind_eq_ok h
    have hp := getNode_eq_ok hnode
    obtain ⟨hnot, hrest⟩ := nodup_cons.mp hnodup
    obtain ⟨hports, hin, hout⟩ := ih hrest h
    have hself : (c.setNode p (node.updateRate factor)).gapAt p = c.gapAt p / factor := by
      rw [gapAt_eq hp, gapAt_eq setNode_heap_eq]
      rfl
    have hne : ∀ q, q ≠ p → (c.setNode p (node.updateRate factor)).gapAt q = c.gapAt q := by
      intro q hq
      rw [gapAt, setNode_heap_ne hq, gapAt]
    refine ⟨hports, fun q hq => ?_, fun q hq => ?_⟩
    · rcases mem_cons.mp hq with rfl | hq
      · rw [hout _ hnot, hself]
      · rw [hin q hq, hne q fun heq => hnot (heq ▸ hq)]
    · rw [hout q fun hmem => hq (mem_cons_of_mem _ hmem),
        hne q fun heq => hq (heq ▸ mem_cons_self)]

/-- **An update divides all gaps of its port.** -/
theorem updateTraffic_gaps {factor : Rat} (hinv : c.Inv) (h : updateTraffic i factor c = .ok c') :
    c'.gaps i = (c.gaps i).map (· / factor) := by
  obtain ⟨port, hport, h⟩ := bind_eq_ok h
  obtain rfl := getPortDb_eq_ok hport
  obtain ⟨_, -, h⟩ := bind_eq_ok h
  obtain ⟨hports, hin, -⟩ := updateNodes_gapAt factor (hinv.pool.nodup i) h
  rw [gaps, hports, gaps, map_map]
  exact map_congr_left hin

/-- **A start sets the gaps from the rates of its streams.** -/
theorem startTraffic_gaps {obj : TrexStreamsCompiledObj} {duration : Rat} {eventId : Int}
    (hinv : c.Inv) (hinv' : c'.Inv) (h : startTraffic obj duration eventId c = .ok c') :
    c'.gaps obj.portId = obj.objs.map fun s => 1 / s.pps := by
  obtain ⟨hnodes, hnode⟩ := startTraffic_made hinv' h hinv.fresh
  rw [gaps, hnodes, map_map]
  refine ext_getElem (by simp) fun k hk hk' => ?_
  have hlt : k < obj.objs.length := by simpa using hk
  simp only [getElem_map, getElem_range, Function.comp_apply]
  obtain ⟨node, hp, -, hsame⟩ := hnode k _ (List.getElem?_eq_getElem hlt)
  rw [gapAt_eq hp, hsame]
  exact newNode_nextTimeOffset _ _

/-- A stop leaves its port idle, or does nothing. -/
theorem stopTraffic_gaps {stopOnId : Bool} {eventId : Int}
    (h : stopTraffic i stopOnId eventId c = .ok c') :
    c'.gaps i = c.gaps i ∨ (c'.ports i).state = .ppSTATE_IDLE := by
  rcases stopTraffic_effect h with ⟨rfl, -⟩ | ⟨hhalt, -⟩
  · exact Or.inl rfl
  · exact Or.inr hhalt.after

/-! ## 3. The scheduler -/

theorem reduceActiveStreams_gaps (h : reduceActiveStreams i c = .ok c') :
    c'.gaps i = c.gaps i ∨ (c'.ports i).state = .ppSTATE_IDLE := by
  obtain ⟨_, -, h⟩ := bind_eq_ok h
  have hcount : (c.setPort i { c.ports i with
      activeStreams := (c.ports i).activeStreams - 1 }).gaps i = c.gaps i := by
    refine gaps_congr ?_ fun _ _ => rfl
    simp [setPort]
  split at h
  · rw [← hcount]
    exact stopTraffic_gaps h
  · cases h
    exact Or.inl hcount

/-- A node of the port is taken from the queue. -/
theorem popStateless_gaps (hp : c.heap p = some node) (hat : NodeAt i node)
    (h : popStateless p c = .ok c') :
    c'.gaps i = c.gaps i ∨ (c'.ports i).state = .ppSTATE_IDLE := by
  obtain ⟨rfl, hfree⟩ := hat
  have hburst := nextTimeOffset_handleMultiBurst node
  rw [popStateless, getNode_eq hp] at h
  simp only [bind, Except.bind, if_neg hfree] at h
  unfold handleNode at h
  split at h
  · cases h
    refine Or.inl (gaps_congr rfl fun q _ => ?_)
    exact gapAt_setNode node.handleContinues hp rfl q
  · split at h
    · rcases finishNode_cases h with ⟨q, next, info, -, hq, -, -, rfl⟩ | hreduce
      · refine Or.inl (gaps_congr rfl fun r _ => ?_)
        exact (gapAt_setNode ((next.refresh info).updateRefreshTime info _) hq rfl r).trans
          (gapAt_setNode _ hp hburst r)
      · have hset : (c.setNode p node.handleMultiBurst).gaps node.portId = c.gaps node.portId :=
          gaps_congr rfl fun r _ => gapAt_setNode _ hp hburst r
        rw [← hset]
        exact reduceActiveStreams_gaps hreduce
    · cases h
      refine Or.inl (gaps_congr rfl fun q _ => ?_)
      exact gapAt_setNode _ hp hburst q
  · cases h

/-! ## 4. Steps -/

/-- What a message does to the gaps of a port. -/
def CpToDpMsg.gaps (i : UInt8) (old : List Rat) : CpToDpMsg → List Rat
  | .start obj _ _ => if obj.portId = i then obj.objs.map fun s => 1 / s.pps else old
  | .update j factor => if j = i then old.map (· / factor) else old
  | _ => old

/-- **What a message does**: a start and an update of the port change the gaps, and a stop may leave
the port idle, without nodes. -/
theorem msg_gaps (hinv : c.Inv) (hinv' : c'.Inv) {m : CpToDpMsg} (h : c.step (.msg m) = .ok c')
    (i : UInt8) : c'.gaps i = m.gaps i (c.gaps i) ∨ (c'.ports i).state = .ppSTATE_IDLE := by
  by_cases hport : m.portId? = some i
  · cases m with
    | start obj duration eventId =>
      obtain rfl : obj.portId = i := Option.some.inj hport
      simp only [CpToDpMsg.gaps, if_true]
      exact Or.inl (startTraffic_gaps hinv hinv' h)
    | stop cmd =>
      obtain rfl : cmd.portId = i := Option.some.inj hport
      exact stopTraffic_gaps h
    | pause j => exact Or.inl (pauseTraffic_gaps h i)
    | resume j => exact Or.inl (resumeTraffic_gaps h i)
    | update j factor =>
      obtain rfl : j = i := Option.some.inj hport
      simp only [CpToDpMsg.gaps, if_true]
      exact Or.inl (updateTraffic_gaps hinv h)
    | quit => cases hport
  · have hconcerns : ¬c.Concerns i (.msg m) := hport
    rw [(step_untouched hinv hconcerns h).gaps hinv]
    refine Or.inl ?_
    cases m with
    | start obj duration eventId =>
      exact (if_neg fun heq : obj.portId = i => hport (congrArg some heq)).symm
    | update j factor => exact (if_neg fun heq : j = i => hport (congrArg some heq)).symm
    | _ => rfl

/-- **Nothing else changes the gaps**: they stay, or the port is left idle. -/
theorem internal_gaps (hinv : c.Inv) {a : Act} (ha : a.internal) (h : c.step a = .ok c')
    (i : UInt8) :
    c'.gaps i = c.gaps i ∨ (c'.ports i).state = .ppSTATE_IDLE := by
  by_cases hconcerns : c.Concerns i a
  · cases a with
    | msg m => exact ha.elim
    | leaveIdle => exact hconcerns.elim
    | pop k =>
      obtain ⟨qnode, hk, hqnode⟩ := hconcerns
      unfold step at h
      simp only [hk] at h
      cases qnode with
      | stateless p =>
        obtain ⟨node, hp, hat⟩ := hqnode
        exact popStateless_gaps (c := { c with queue := c.queue.eraseIdx k }) hp hat h
      | command time cmd =>
        obtain rfl : cmd.portId = i := hqnode
        obtain ⟨c1, hstop, h⟩ := bind_eq_ok h
        obtain ⟨_, -, h⟩ := bind_eq_ok h
        cases h
        rcases stopTraffic_effect hstop with ⟨rfl, -⟩ | ⟨hhalt, -⟩
        · exact Or.inl rfl
        · exact Or.inr hhalt.after
      | flowSync time => exact hqnode.elim
      | exitSched time => exact hqnode.elim
    | endSync => exact hconcerns.elim
  · exact Or.inl ((step_untouched hinv hconcerns h).gaps hinv)

end TrexStatelessDpCore

end Trex.Dp
