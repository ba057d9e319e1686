/-
# The messages keep the records

`start_traffic`, `stop_traffic`, `pause_traffic`, `resume_traffic` and `update_traffic` keep the
invariant of `Records.lean`, and of their assertions only those on the message itself and on the
state of the port can fail.
-/
import Trex.Dp.Records
import Trex.Lib.Post

namespace Trex.Dp

open Trex.Lib Trex.Stream List
open Function (update update_eq_self update_of_ne)

namespace TrexStatelessDpCore

variable {c : TrexStatelessDpCore} {p : Ptr} {node : CGenNodeStateless} {i : UInt8}
  {mode : UInt8 → Bool → Prop}

/-! ## 1. Stop -/

/-- The records with another list of nodes for one port. -/
def poolWith (c : TrexStatelessDpCore) (i : UInt8) (nodes : List Ptr) : Pool UInt8 Ptr :=
  { c.pool with nodes := update c.pool.nodes i nodes }

/-- The invariant inside the loop of `stop_traffic`, which is about to visit the nodes of a list:
the nodes that it visited are not in the records any more, and links of the port may lead to
them. -/
structure Stopping (i : UInt8) (rest : List Ptr) (c : TrexStatelessDpCore) : Prop where
  pool : (c.poolWith i rest).Ok
  fresh : ∀ p, c.fresh ≤ p → c.heap p = none
  node : ∀ p node, c.heap p = some node → NodeOk c.localPortOffset node
  next : ∀ p node q, c.heap p = some node → node.portId ≠ i → node.nextStream = some q →
    c.pool.Owned node.portId q
  mode : ∀ p node, c.heap p = some node → node.state ≠ .ssFREE_RESUSE →
    modeOk (c.ports node.portId).state node.pause
  commandPort : ∀ time cmd, .command time cmd ∈ c.queue → HasPort c.localPortOffset cmd.portId

theorem Inv.stopping (h : c.Inv) (i : UInt8) : Stopping i (c.ports i).activeNodes c := by
  refine ⟨?_, h.fresh, h.node, fun p node q hp _ hq => h.next p node q hp hq, h.mode,
    h.commandPort⟩
  have hself : c.poolWith i (c.ports i).activeNodes = c.pool := by
    change { c.pool with nodes := update c.pool.nodes i (c.pool.nodes i) } = c.pool
    rw [update_eq_self]
  rw [hself]
  exact h.pool

/-- **A visited node leaves the records.**  `node'` is what is left of it. -/
theorem Stopping.visit {rest : List Ptr} {c' : TrexStatelessDpCore} (h : Stopping i (p :: rest) c)
    (hp : c.heap p = some node) (hport : node.portId = i)
    (hoff : c'.localPortOffset = c.localPortOffset) (hpool : (c'.poolWith i rest).Ok)
    (hfresh : c'.fresh = c.fresh) (hheap : ∀ q ≠ p, c'.heap q = c.heap q)
    (hleft : ∀ node', c'.heap p = some node' → node' = node.markForFree)
    (hstate : ∀ j, (c'.ports j).state = (c.ports j).state) (hqueue : c'.queue = c.queue) :
    Stopping i rest c' := by
  refine ⟨hpool, fun q hq => ?_, fun q x hq => ?_, fun q x r hq hx hr => ?_, fun q x hq hs => ?_,
    fun time cmd hmem => ?_⟩
  · rw [hfresh] at hq
    have hne : q ≠ p := by
      rintro rfl
      rw [h.fresh q hq] at hp
      cases hp
    rw [hheap q hne]
    exact h.fresh q hq
  · rw [hoff]
    by_cases hqp : q = p
    · subst hqp
      rw [hleft x hq]
      have hok := h.node q node hp
      exact ⟨hok.type, hok.port, fun _ => rfl, fun hf => absurd rfl hf⟩
    · rw [hheap q hqp] at hq
      exact h.node q x hq
  · have hqp : q ≠ p := by
      rintro rfl
      rw [hleft x hq] at hx
      exact hx hport
    rw [hheap q hqp] at hq
    obtain ⟨y, hy, hyport, hyfree⟩ := owned_iff.mp (h.next q x r hq hx hr)
    have hrp : r ≠ p := by
      rintro rfl
      rw [hp] at hy
      cases hy
      exact hx (hyport.symm.trans hport)
    exact owned_iff.mpr ⟨y, (hheap r hrp).trans hy, hyport, hyfree⟩
  · have hqp : q ≠ p := by
      rintro rfl
      rw [hleft x hq] at hs
      exact hs rfl
    rw [hheap q hqp] at hq
    rw [hstate]
    exact h.mode q x hq hs
  · rw [hqueue] at hmem
    rw [hoff]
    exact h.commandPort time cmd hmem

/-- **The loop of `stop_traffic` visits every node of the port, and no assertion fails.** -/
theorem stopNodes_post (i : UInt8) :
    ∀ (rest : List Ptr) (c : TrexStatelessDpCore), Stopping i rest c →
    Post (stopNodes i rest c) (Stopping i []) fun _ => False
  | [], c, h => h
  | p :: rest, c, h => by
    have hmem : p ∈ (c.poolWith i (p :: rest)).nodes i := by simp [poolWith]
    obtain ⟨node, hp, hport, hs⟩ := (owned_iff (c := c)).mp (h.pool.mem_nodes.mp hmem)
    have hnodes : (c.poolWith i (p :: rest)).nodes i = p :: rest := by simp [poolWith]
    rw [stopNodes, getNode_eq hp]
    simp only [bind, Except.bind, check_true hport]
    by_cases hact : node.state = .ssACTIVE
    · -- the node stays in the queue, to be freed when it is reached
      have hrun : (c.poolWith i (p :: rest)).status p = .running i := by
        rw [← hport]
        exact status_running hp hact
      have hpos : 0 < (c.ports i).activeStreams := h.pool.count_pos hrun
      simp only [hact, if_true, check_true hpos]
      refine stopNodes_post i rest _ (h.visit hp hport rfl ?_ rfl
        (fun q hq => setNode_heap_ne hq) (fun x hx =>
          Option.some.inj (hx.symm.trans setNode_heap_eq))
        (fun j => ?_) rfl)
      · have hleave := h.pool.leave hrun hnodes
        rw [poolWith, pool_setPort, pool_setNode]
        have hcount : c.pool.count i = (c.ports i).activeStreams := rfl
        simpa [poolWith, statusOf, CGenNodeStateless.markForFree, hcount] using hleave
      · by_cases hj : j = i
        · subst hj
          simp [setPort]
        · simp [setPort, setNode, hj]
    · have hin : node.state = .ssINACTIVE := by
        cases hstate : node.state <;> simp_all
      have hidle : (c.poolWith i (p :: rest)).status p = .idle i := by
        rw [← hport]
        exact status_idle hp hin
      simp only [hact, if_false, check_true hin]
      refine stopNodes_post i rest _
        (h.visit hp hport rfl ?_ rfl (fun q hq => by simp [freeNode, hq])
        (fun x hx => ?_) (fun j => rfl) rfl)
      · have hdrop := h.pool.drop hidle hnodes
        rw [poolWith, pool_freeNode]
        simpa [poolWith] using hdrop
      · simp [freeNode] at hx

/-- The loop leaves no active node. -/
theorem Stopping.count_eq_zero (h : Stopping i [] c) : (c.ports i).activeStreams = 0 := by
  have hcount : (c.ports i).activeStreams = ((c.poolWith i []).nodes i).countP _ := h.pool.count i
  simpa [poolWith] using hcount

/-- Nor any other node of the port that is not to be freed. -/
theorem Stopping.not_owned (h : Stopping i [] c) (hp : c.heap p = some node)
    (hs : node.state ≠ .ssFREE_RESUSE) : node.portId ≠ i := by
  intro hport
  have hmem : p ∈ (c.poolWith i []).nodes i :=
    h.pool.mem_nodes.mpr (owned_iff (c := c).mpr ⟨node, hp, hport, hs⟩)
  simp [poolWith] at hmem

theorem Stopping.done (h : Stopping i [] c) :
    (c.setPort i { c.ports i with activeNodes := [], state := .ppSTATE_IDLE }).Inv := by
  refine ⟨?_, h.fresh, h.node, fun p node q hp hq => ?_, fun p node hp hs => ?_, h.commandPort⟩
  · have heq : (c.setPort i { c.ports i with activeNodes := [], state := .ppSTATE_IDLE }).pool
        = c.poolWith i [] := by
      rw [pool_setPort, poolWith]
      change { c.pool with
        nodes := update c.pool.nodes i []
        count := update c.pool.count i (c.pool.count i) } = _
      rw [update_eq_self]
    rw [heq]
    exact h.pool
  · have hs : node.state ≠ .ssFREE_RESUSE := by
      intro hfree
      have hnone := (h.node p node hp).free hfree
      rw [hnone] at hq
      cases hq
    exact h.next p node q hp (h.not_owned hp hs) hq
  · have hmode := h.mode p node hp hs
    have hne := h.not_owned hp hs
    simpa [setPort, hne] using hmode

theorem portStopTraffic_post (h : c.Inv) (portId : UInt8) (stopOnId : Bool) (eventId : Int) :
    Post (portStopTraffic portId stopOnId eventId c) (fun r => r.1.Inv) fun _ => False := by
  unfold portStopTraffic
  simp only
  split
  · -- already stopped
    rename_i hidle
    rw [check_true (h.count_nil (h.idle_nodes hidle))]
    exact h
  · split
    · exact h
    · refine (stopNodes_post portId _ c (h.stopping portId)).bind fun c' hc' => ?_
      rw [check_true hc'.count_eq_zero]
      exact hc'.done

/-- **`stop_traffic` keeps the invariant, and none of its assertions fails.** -/
theorem stopTraffic_post (h : c.Inv) (portId : UInt8) (stopOnId : Bool) (eventId : Int) :
    Post (stopTraffic portId stopOnId eventId c) Inv
      fun fault => fault = .getPortDb ∧ ¬ HasPort c.localPortOffset portId := by
  have hstop := (portStopTraffic_post h portId stopOnId eventId).mono (fun _ hr => hr)
    (fun fault hf => (hf.elim : fault = .getPortDb ∧ ¬ HasPort c.localPortOffset portId))
  unfold stopTraffic getPortDb
  by_cases hport : HasPort c.localPortOffset portId
  · simp only [check_true hport, bind, Except.bind]
    refine hstop.bind ?_
    rintro ⟨c', stopped⟩ hr
    cases stopped with
    | false => exact hr
    | true => exact ⟨hr.pool, hr.fresh, hr.node, hr.next, hr.mode, hr.commandPort⟩
  · simp only [check_false hport, bind, Except.bind]
    exact ⟨rfl, hport⟩

/-! ## 2. Start -/

theorem pool_addStream (stream : TrexStream) : (addStream stream.portId stream c).pool
    = { c.pool with
        status := update c.pool.status c.fresh
          (if stream.selfStart then .running stream.portId else .idle stream.portId)
        nodes := update c.pool.nodes stream.portId (c.pool.nodes stream.portId ++ [c.fresh])
        count := update c.pool.count stream.portId
          (c.pool.count stream.portId + stream.selfStart.toNat)
        queued := if stream.selfStart then c.fresh :: c.pool.queued else c.pool.queued } := by
  have hnode : statusOf (some (newNode c.curTimeSec stream))
      = if stream.selfStart then .running stream.portId else .idle stream.portId := by
    rw [statusOf, newNode_state, newNode_portId]
    cases stream.selfStart <;> rfl
  have hqueued : (if stream.selfStart then QueueNode.stateless c.fresh :: c.queue
      else c.queue).filterMap QueueNode.ptr?
      = if stream.selfStart then c.fresh :: c.pool.queued else c.pool.queued := by
    cases stream.selfStart <;> rfl
  have hset := pool_setPort (c.setNode c.fresh (newNode c.curTimeSec stream)) stream.portId
    { c.ports stream.portId with
      activeStreams := (c.ports stream.portId).activeStreams + stream.selfStart.toNat
      activeNodes := (c.ports stream.portId).activeNodes ++ [c.fresh] }
  rw [pool_setNode, hnode] at hset
  rw [addStream_eq, ← hqueued]
  exact congrArg (fun P : Pool UInt8 Ptr => { P with
    queued := (if stream.selfStart then QueueNode.stateless c.fresh :: c.queue
      else c.queue).filterMap QueueNode.ptr? }) hset

/-- **`add_stream` keeps the records.** -/
theorem InvFor.add (h : c.InvFor mode) {stream : TrexStream}
    (hport : HasPort c.localPortOffset stream.portId) (hmode : mode stream.portId false) :
    (addStream stream.portId stream c).InvFor mode := by
  have habsent : c.pool.status c.fresh = .absent := congrArg statusOf (h.fresh _ (le_refl _))
  have hne : ∀ q ≠ c.fresh, (addStream stream.portId stream c).heap q = c.heap q := by
    intro q hq
    rw [addStream_eq]
    exact update_of_ne hq _ _
  have hnew : ∀ x, (addStream stream.portId stream c).heap c.fresh = some x →
      x = newNode c.curTimeSec stream := by
    intro x hx
    rw [addStream_eq] at hx
    simpa using hx.symm
  refine h.change c.fresh ?_ (by rw [addStream_eq]) ?_ hne ?_ ?_ ?_ ?_ ?_
  · rw [pool_addStream]
    exact h.pool.add habsent stream.selfStart
  · intro q hq
    have hq' : c.fresh < q := by
      rw [addStream_eq] at hq
      exact hq
    rw [hne q hq'.ne']
    exact h.fresh q hq'.le
  · intro j q hj
    obtain ⟨x, hx, hxport, hfree⟩ := owned_iff.mp hj
    have hq : q ≠ c.fresh := (h.lt_fresh hx).ne
    exact owned_iff.mpr ⟨x, (hne q hq).trans hx, hxport, hfree⟩
  · intro x hx
    rw [hnew x hx]
    refine ⟨?_, ?_, fun _ => newNode_nextStream _ _, fun _ => ⟨_, newNode_refStreamInfo _ _⟩⟩
    · rw [newNode_streamType]
      split <;> decide
    · rw [newNode_portId]
      exact hport
  · intro x q hx hq
    rw [hnew x hx, newNode_nextStream] at hq
    cases hq
  · intro x hx _
    rw [hnew x hx, newNode_portId, newNode_pause]
    exact hmode
  · intro time cmd hmem
    rw [addStream_eq] at hmem
    refine h.commandPort time cmd ?_
    cases hself : stream.selfStart <;> simpa [hself] using hmem

theorem addStreams_post (i : UInt8) (hmode : mode i false) : ∀ (ss : List TrexStream)
    (c : TrexStatelessDpCore), c.InvFor mode → HasPort c.localPortOffset i →
      Post (addStreams i ss c)
        (fun c' => c'.InvFor mode ∧ c'.localPortOffset = c.localPortOffset
          ∧ (∀ j, (c'.ports j).state = (c.ports j).state)
          ∧ (c'.ports i).activeNodes.length = (c.ports i).activeNodes.length + ss.length)
        fun fault => fault = .startPortId ∧ ∃ s ∈ ss, s.portId ≠ i
  | [], c, h, _ => ⟨h, rfl, fun _ => rfl, rfl⟩
  | s :: ss, c, h, hport => by
    by_cases hs : i = s.portId
    · subst hs
      have ih := addStreams_post s.portId hmode ss (addStream s.portId s c) (h.add hport hmode)
        (by rw [addStream_eq]; exact hport)
      rw [addStreams, check_true rfl]
      refine ih.mono ?_ ?_
      · rintro c' ⟨hinv, hoff, hstate, hlen⟩
        rw [addStream_eq] at hoff hstate hlen
        refine ⟨hinv, hoff, fun j => ?_, ?_⟩
        · rw [hstate j]
          by_cases hj : j = s.portId
          · subst hj
            simp
          · simp [hj]
        · rw [hlen]
          simp
          omega
      · rintro fault ⟨rfl, x, hx, hne⟩
        exact ⟨rfl, x, mem_cons_of_mem _ hx, hne⟩
    · rw [addStreams, check, if_neg hs]
      exact ⟨rfl, s, mem_cons_self, fun hi => hs hi.symm⟩

/-- **A link to a node of the same port.** -/
theorem InvFor.link (h : c.InvFor mode) {q : Ptr} (hp : c.heap p = some node)
    (hmem : p ∈ (c.ports i).activeNodes) (hq : q ∈ (c.ports i).activeNodes) :
    (c.setNode p { node with nextStream := some q }).InvFor mode := by
  obtain ⟨x, hx, hport, hs⟩ := h.of_mem_nodes hmem
  obtain rfl : x = node := Option.some.inj (hx.symm.trans hp)
  have hpool : (c.setNode p { x with nextStream := some q }).pool = c.pool := by
    have hstatus : statusOf (some { x with nextStream := some q }) = c.pool.status p :=
      (status_some hp).symm
    rw [pool_setNode, hstatus, update_eq_self]
  have hnew : ∀ y, (c.setNode p { x with nextStream := some q }).heap p = some y →
      y = { x with nextStream := some q } := by
    intro y hy
    exact Option.some.inj (hy.symm.trans setNode_heap_eq)
  have hok := h.node p x hp
  refine h.change p (hpool ▸ h.pool) rfl (h.setNode_fresh hp) (fun r hr =>
    setNode_heap_ne hr) ?_ ?_ ?_ ?_ h.commandPort
  · intro j r hj
    rw [hpool]
    exact hj
  · intro y hy
    rw [hnew y hy]
    exact ⟨hok.type, hok.port, fun hf => absurd hf hs, hok.info⟩
  · intro y r hy hr
    rw [hnew y hy] at hr
    obtain rfl : q = r := Option.some.inj hr
    rw [hnew y hy, hpool, hport]
    exact h.pool.mem_nodes.mp hq
  · intro y hy _
    rw [hnew y hy]
    exact h.mode p x hp hs

theorem linkStreams_post (i : UInt8) :
    ∀ (ss : List TrexStream) (cnt : Nat) (c : TrexStatelessDpCore),
    c.InvFor mode → cnt + ss.length = (c.ports i).activeNodes.length →
      Post (linkStreams i cnt ss c)
        (fun c' => c'.InvFor mode ∧ c'.localPortOffset = c.localPortOffset ∧ c'.ports = c.ports)
        fun fault => fault = .startNext ∧ ∃ s ∈ ss, s.isDpNextStream = true
          ∧ (c.ports i).activeNodes.length ≤ s.nextStreamId.toInt.toNat
  | [], cnt, c, h, _ => ⟨h, rfl, rfl⟩
  | s :: ss, cnt, c, h, hlen => by
    have hlen' : cnt + 1 + ss.length = (c.ports i).activeNodes.length := by
      rw [← hlen, length_cons]
      omega
    have hweak : ∀ fault, (fault = .startNext ∧ ∃ x ∈ ss, x.isDpNextStream = true
        ∧ (c.ports i).activeNodes.length ≤ x.nextStreamId.toInt.toNat) →
        fault = Fault.startNext ∧ ∃ x ∈ s :: ss, x.isDpNextStream = true
          ∧ (c.ports i).activeNodes.length ≤ x.nextStreamId.toInt.toNat := by
      rintro fault ⟨hf, x, hx, hrest⟩
      exact ⟨hf, x, mem_cons_of_mem _ hx, hrest⟩
    rw [linkStreams]
    by_cases hnext : s.isDpNextStream = true
    · simp only [hnext, if_true]
      cases htarget : (c.ports i).activeNodes[s.nextStreamId.toInt.toNat]? with
      | none => exact ⟨rfl, s, mem_cons_self, hnext, List.getElem?_eq_none_iff.mp htarget⟩
      | some q =>
        have hcnt : cnt < (c.ports i).activeNodes.length := by
          rw [← hlen, length_cons]
          omega
        have hget := List.getElem?_eq_getElem hcnt
        have hmem := mem_of_getElem? hget
        obtain ⟨node, hp, -, -⟩ := h.of_mem_nodes hmem
        simp only [hget, getNode_eq hp]
        have hinv := h.link hp hmem (mem_of_getElem? htarget)
        exact (linkStreams_post i ss (cnt + 1) _ hinv hlen').mono (fun _ hc => hc) hweak
    · rw [if_neg hnext]
      exact (linkStreams_post i ss (cnt + 1) c h hlen').mono (fun _ hc => hc) hweak

/-- The assertions of `start_traffic` that a message can make fail. -/
def StartFault (c : TrexStatelessDpCore) (obj : TrexStreamsCompiledObj) (fault : Fault) : Prop :=
  (fault = .getPortDb ∧ ¬ HasPort c.localPortOffset obj.portId)
    ∨ (fault = .startNodes ∧ (c.ports obj.portId).activeNodes ≠ [])
    ∨ (fault = .startPortId ∧ ∃ s ∈ obj.objs, s.portId ≠ obj.portId)
    ∨ (fault = .startNext ∧ ∃ s ∈ obj.objs, s.isDpNextStream = true
      ∧ obj.objs.length ≤ s.nextStreamId.toInt.toNat)

theorem InvFor.addPortDuration (h : c.InvFor mode) (duration : Rat) (eventId : Int)
    (hport : HasPort c.localPortOffset i) :
    (addPortDuration duration i eventId c).InvFor mode := by
  unfold TrexStatelessDpCore.addPortDuration
  split
  · refine ⟨h.pool, h.fresh, h.node, h.next, h.mode, ?_⟩
    intro time cmd hmem
    rcases mem_cons.mp hmem with heq | hold
    · cases heq
      exact hport
    · exact h.commandPort time cmd hold
  · exact h

theorem addPortDuration_ports (duration : Rat) (eventId : Int) :
    (addPortDuration duration i eventId c).ports = c.ports := by
  unfold addPortDuration
  split <;> rfl

/-- The start of a port without nodes. -/
theorem Inv.starting (h : c.Inv) (hnil : (c.ports i).activeNodes = []) (eventId : Int) :
    (c.setPort i { c.ports i with activeStreams := 0, eventId := eventId }).InvFor fun j pause =>
      if j = i then pause = false else modeOk (c.ports j).state pause := by
  have hpool : (c.setPort i { c.ports i with activeStreams := 0, eventId := eventId }).pool
      = c.pool := by
    rw [pool_setPort]
    change { c.pool with
      nodes := update c.pool.nodes i (c.pool.nodes i)
      count := update c.pool.count i 0 } = c.pool
    have hcount : c.pool.count i = 0 := h.count_nil hnil
    rw [update_eq_self, ← hcount, update_eq_self]
  refine ⟨hpool ▸ h.pool, h.fresh, h.node, ?_, ?_, h.commandPort⟩
  · intro p node q hp hq
    rw [hpool]
    exact h.next p node q hp hq
  · intro p node hp hs
    have hne : node.portId ≠ i := by
      intro hport
      have hmem : p ∈ c.pool.nodes i := h.pool.mem_nodes.mpr (owned_iff.mpr ⟨node, hp, hport, hs⟩)
      change p ∈ (c.ports i).activeNodes at hmem
      rw [hnil] at hmem
      cases hmem
    rw [if_neg hne]
    exact h.mode p node hp hs

/-- **`start_traffic` keeps the invariant.** -/
theorem startTraffic_post (h : c.Inv) (obj : TrexStreamsCompiledObj) (duration : Rat)
    (eventId : Int) : Post (startTraffic obj duration eventId c) Inv (c.StartFault obj) := by
  unfold startTraffic getPortDb
  by_cases hport : HasPort c.localPortOffset obj.portId
  swap
  · simp only [bind, Except.bind, check_false hport]
    exact Or.inl ⟨rfl, hport⟩
  by_cases hnil : (c.ports obj.portId).activeNodes = []
  swap
  · simp only [bind, Except.bind, check_true hport, check_false hnil]
    exact Or.inr (Or.inl ⟨rfl, hnil⟩)
  simp only [bind, Except.bind, check_true hport, check_true hnil]
  have hadd := (addStreams_post obj.portId (by simp) obj.objs _ (h.starting hnil eventId)
    hport).mono
    (fun _ hc => hc) (fun fault hf => (Or.inr (Or.inr (Or.inl hf)) : c.StartFault obj fault))
  refine hadd.bind ?_
  rintro c1 ⟨hinv1, hoff1, hstate1, hlen1⟩
  have hlen : (c1.ports obj.portId).activeNodes.length = obj.objs.length := by
    simpa [setPort, hnil] using hlen1
  rw [check_true hlen]
  have hlink := (linkStreams_post obj.portId obj.objs 0 c1 hinv1 (by rw [hlen, Nat.zero_add])).mono
    (fun _ hc => hc) fun fault hf => (Or.inr (Or.inr (Or.inr (hlen ▸ hf))) : c.StartFault obj fault)
  refine hlink.bind ?_
  rintro c2 ⟨hinv2, hoff2, hports2⟩
  have hport2 : HasPort c2.localPortOffset obj.portId := by
    rw [hoff2, hoff1]
    exact hport
  -- the port transmits, and its nodes are new
  have hinv : ({ c2.setPort obj.portId { c2.ports obj.portId with state :=
      .ppSTATE_TRANSMITTING } with
      state := .STATE_TRANSMITTING } : TrexStatelessDpCore).Inv := by
    have hpool : (c2.setPort obj.portId
        { c2.ports obj.portId with state := .ppSTATE_TRANSMITTING }).pool = c2.pool := by
      rw [pool_setPort]
      change { c2.pool with
        nodes := update c2.pool.nodes obj.portId (c2.pool.nodes obj.portId)
        count := update c2.pool.count obj.portId (c2.pool.count obj.portId) } = c2.pool
      rw [update_eq_self, update_eq_self]
    refine ⟨hpool ▸ hinv2.pool, hinv2.fresh, hinv2.node, ?_, ?_, hinv2.commandPort⟩
    · intro p node q hp hq
      have howned := hinv2.next p node q hp hq
      rw [← hpool] at howned
      exact howned
    · intro p node hp hs
      have hmode := hinv2.mode p node hp hs
      by_cases hnode : node.portId = obj.portId
      · simpa [hnode, setPort, modeOk] using hmode
      · have hstate := hstate1 node.portId
        rw [if_neg hnode] at hmode
        simpa [hnode, setPort, hports2, hstate] using hmode
  refine (hinv.addPortDuration duration eventId hport2).mono ?_
  intro j pause hpause
  rw [addPortDuration_ports]
  exact hpause

/-! ## 3. Pause, resume and update -/

/-- A change of the pause flag of a listed node, where the flags of its port are free. -/
theorem InvFor.setPause (h : c.InvFor mode) (hp : c.heap p = some node) (enable : Bool)
    (hmode : mode node.portId enable) :
    (c.setNode p (node.setPause enable)).InvFor mode := by
  have hpool : (c.setNode p (node.setPause enable)).pool = c.pool := by
    have hstatus : statusOf (some (node.setPause enable)) = c.pool.status p := (status_some hp).symm
    rw [pool_setNode, hstatus, update_eq_self]
  have hnew : ∀ y, (c.setNode p (node.setPause enable)).heap p = some y →
      y = node.setPause enable := by
    intro y hy
    exact Option.some.inj (hy.symm.trans setNode_heap_eq)
  have hok := h.node p node hp
  refine h.change p (hpool ▸ h.pool) rfl (h.setNode_fresh hp) (fun r hr =>
    setNode_heap_ne hr) ?_ ?_ ?_ ?_ h.commandPort
  · intro j r hj
    rw [hpool]
    exact hj
  · intro y hy
    rw [hnew y hy]
    exact ⟨hok.type, hok.port, hok.free, hok.info⟩
  · intro y r hy hr
    rw [hnew y hy] at hr
    rw [hnew y hy, hpool]
    exact h.next p node r hp hr
  · intro y hy _
    rw [hnew y hy]
    exact hmode

/-- **The loop of `pause_traffic` and `resume_traffic`** sets the flag of every node that it visits;
the ones that it did not visit have the other value. -/
theorem setPauseNodes_post (i : UInt8) (enable : Bool) (fault : Fault)
    (hmode : ∀ pause, mode i pause) : ∀ (rest : List Ptr) (c : TrexStatelessDpCore), c.InvFor mode →
      rest.Nodup → (∀ p ∈ rest, p ∈ (c.ports i).activeNodes) →
      (∀ p node, c.heap p = some node → node.portId = i → node.state ≠ .ssFREE_RESUSE →
        node.pause = if p ∈ rest then !enable else enable) →
      Post (setPauseNodes i enable fault rest c)
        (fun c' => c'.InvFor mode ∧ c'.ports = c.ports
          ∧ ∀ p node, c'.heap p = some node → node.portId = i → node.state ≠ .ssFREE_RESUSE →
            node.pause = enable)
        fun _ => False
  | [], c, h, _, _, hflag =>
      ⟨h, rfl, fun p node hp hport hs => by simpa using hflag p node hp hport hs⟩
  | p :: rest, c, h, hnodup, hlisted, hflag => by
    obtain ⟨hnotin, hnodup'⟩ := nodup_cons.mp hnodup
    obtain ⟨node, hp, hport, hs⟩ := h.of_mem_nodes (hlisted p mem_cons_self)
    have hpause : node.pause = !enable := by simpa using hflag p node hp hport hs
    rw [setPauseNodes, getNode_eq hp]
    simp only [bind, Except.bind, check_true hport, check_true hpause]
    refine setPauseNodes_post i enable fault hmode rest _ (h.setPause hp enable (hport ▸ hmode _))
      hnodup' (fun q hq => hlisted q (mem_cons_of_mem _ hq)) ?_
    intro q x hq hxport hxs
    by_cases hqp : q = p
    · subst hqp
      obtain rfl : node.setPause enable = x := Option.some.inj (setNode_heap_eq.symm.trans hq)
      simp [CGenNodeStateless.setPause, hnotin]
    · rw [setNode_heap_ne hqp] at hq
      have hx := hflag q x hq hxport hxs
      simpa [hqp] using hx

/-- The two sides of pause and resume: a port whose nodes have the flag of its state gets the other
flag and the other state. -/
theorem pausing_post (h : c.Inv) (i : UInt8) (enable : Bool) (fault : Fault) (state : PortState)
    (hbefore : ∀ pause, modeOk (c.ports i).state pause → pause = !enable)
    (hafter : modeOk state enable) :
    Post (do
      let c ← setPauseNodes i enable fault (c.ports i).activeNodes c
      .ok (c.setPort i { c.ports i with state := state })) Inv fun _ => False := by
  have hfree : c.InvFor fun j pause => j = i ∨ modeOk (c.ports j).state pause :=
    h.mono fun j pause hj => Or.inr hj
  refine (setPauseNodes_post i enable fault (fun _ => Or.inl rfl) (c.ports i).activeNodes c hfree
    (h.pool.nodup i) (fun p hp => hp) ?_).bind ?_
  · intro p node hp hport hs
    have hmem : p ∈ (c.ports i).activeNodes :=
      h.pool.mem_nodes.mpr (owned_iff.mpr ⟨node, hp, hport, hs⟩)
    rw [if_pos hmem]
    exact hbefore _ (hport ▸ h.mode p node hp hs)
  · rintro c' ⟨hinv, hports, hflag⟩
    have hset := hinv.setState i state
    refine ⟨hset.pool, hset.fresh, hset.node, hset.next, ?_, hset.commandPort⟩
    intro p node hp hs
    by_cases hport : node.portId = i
    · rw [hflag p node hp hport hs]
      simpa [setPort, hport] using hafter
    · rcases hinv.mode p node hp hs with heq | hmode
      · exact absurd heq hport
      · simpa [setPort, hport, hports] using hmode

/-- **`pause_traffic` keeps the invariant**, and only its assertion on the state can fail. -/
theorem pauseTraffic_post (h : c.Inv) (portId : UInt8) :
    Post (pauseTraffic portId c) Inv fun fault =>
    (fault = .getPortDb ∧ ¬ HasPort c.localPortOffset portId)
      ∨ (fault = .pauseState ∧ (c.ports portId).state ≠ .ppSTATE_TRANSMITTING) := by
  unfold pauseTraffic getPortDb
  by_cases hport : HasPort c.localPortOffset portId
  swap
  · simp only [bind, Except.bind, check_false hport]
    exact Or.inl ⟨rfl, hport⟩
  by_cases hstate : (c.ports portId).state = .ppSTATE_TRANSMITTING
  swap
  · simp only [bind, Except.bind, check_true hport, check_false hstate]
    exact Or.inr ⟨rfl, hstate⟩
  simp only [bind, Except.bind, check_true hport, check_true hstate]
  have hpost := pausing_post h portId true .pauseNode .ppSTATE_PAUSE (fun pause hp => ?_) rfl
  · exact hpost.mono (fun _ hc => hc) fun _ hf => hf.elim
  · rw [hstate] at hp
    exact hp

/-- **`resume_traffic` keeps the invariant**, and only its assertion on the state can fail. -/
theorem resumeTraffic_post (h : c.Inv) (portId : UInt8) :
    Post (resumeTraffic portId c) Inv fun fault =>
      (fault = .getPortDb ∧ ¬ HasPort c.localPortOffset portId)
        ∨ (fault = .resumeState ∧ (c.ports portId).state ≠ .ppSTATE_PAUSE) := by
  unfold resumeTraffic getPortDb
  by_cases hport : HasPort c.localPortOffset portId
  swap
  · simp only [bind, Except.bind, check_false hport]
    exact Or.inl ⟨rfl, hport⟩
  by_cases hstate : (c.ports portId).state = .ppSTATE_PAUSE
  swap
  · simp only [bind, Except.bind, check_true hport, check_false hstate]
    exact Or.inr ⟨rfl, hstate⟩
  simp only [bind, Except.bind, check_true hport, check_true hstate]
  have hpost := pausing_post h portId false .resumeNode .ppSTATE_TRANSMITTING (fun pause hp =>
    ?_) rfl
  · exact hpost.mono (fun _ hc => hc) fun _ hf => hf.elim
  · rw [hstate] at hp
    exact hp

/-- The loop of `update_traffic`. -/
theorem updateNodes_post (i : UInt8) (factor : Rat) : ∀ (rest : List Ptr) (c : TrexStatelessDpCore),
    c.InvFor mode → (∀ p ∈ rest, p ∈ (c.ports i).activeNodes) →
      Post (updateNodes i factor rest c) (fun c' => c'.InvFor mode ∧ c'.ports = c.ports) fun _ =>
        False
  | [], c, h, _ => ⟨h, rfl⟩
  | p :: rest, c, h, hlisted => by
    obtain ⟨node, hp, hport, hs⟩ := h.of_mem_nodes (hlisted p mem_cons_self)
    have halike : Alike node (node.updateRate factor) := ⟨rfl, rfl, rfl, rfl, rfl⟩
    have hinv := h.touch halike hp hs rfl (List.Perm.refl c.queue)
    rw [updateNodes, getNode_eq hp]
    simp only [bind, Except.bind, check_true hport]
    exact updateNodes_post i factor rest _ hinv fun q hq => hlisted q (mem_cons_of_mem _ hq)

/-- **`update_traffic` keeps the invariant**, and only its assertion on the state can fail. -/
theorem updateTraffic_post (h : c.Inv) (portId : UInt8) (factor : Rat) :
    Post (updateTraffic portId factor c) Inv fun fault =>
      (fault = .getPortDb ∧ ¬ HasPort c.localPortOffset portId)
        ∨ (fault = .updateState ∧ (c.ports portId).state = .ppSTATE_IDLE) := by
  unfold updateTraffic getPortDb
  by_cases hport : HasPort c.localPortOffset portId
  swap
  · simp only [bind, Except.bind, check_false hport]
    exact Or.inl ⟨rfl, hport⟩
  by_cases hstate : (c.ports portId).state = .ppSTATE_TRANSMITTING
      ∨ (c.ports portId).state = .ppSTATE_PAUSE
  swap
  · simp only [bind, Except.bind, check_true hport, check_false hstate]
    refine Or.inr ⟨rfl, ?_⟩
    cases hs : (c.ports portId).state <;> simp_all
  simp only [bind, Except.bind, check_true hport, check_true hstate]
  refine (updateNodes_post portId factor _ c h fun p hp => hp).mono ?_ fun _ hf => hf.elim
  rintro c' ⟨hinv, hports⟩
  refine hinv.mono fun j pause hj => ?_
  rw [hports]
  exact hj

end TrexStatelessDpCore

end Trex.Dp
