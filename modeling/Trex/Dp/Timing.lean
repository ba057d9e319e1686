/-
# The time of the scheduler

A core pops the node with the least time, and what it pushes in return is not earlier when the rates
of its nodes are positive and its gaps are not negative (`Timed`).  The messages that it handles at
a `FLOW_SYNC` node push from the time of that node on.  So the times that it pops do not decrease
(`Timed.pop`).

`Steady` is the frame of the operations that move no node.
-/
import Trex.Dp.Hold
import Trex.Dp.Quiesce

namespace Trex.Dp

open Trex.Lib Trex.Stream CGenNodeStateless List
open Function (update update_idem update_of_ne update_self)

namespace TrexStatelessDpCore

variable {c c' : TrexStatelessDpCore} {p : Ptr} {node : CGenNodeStateless} {i : UInt8}

/-! ## 1. Operations that move no node -/

/-- Every node was there before, with its time and its rates. -/
def Steady (heap heap' : Ptr → Option CGenNodeStateless) : Prop :=
  ∀ p node', heap' p = some node' → ∃ node, heap p = some node ∧ node'.time = node.time ∧
    RatedAs node node'

theorem Steady.refl (heap : Ptr → Option CGenNodeStateless) : Steady heap heap :=
  fun _ node hp => ⟨node, hp, rfl, RatedAs.refl node⟩

theorem Steady.trans {heap1 heap2 heap3 : Ptr → Option CGenNodeStateless} (h : Steady heap1 heap2)
    (h' : Steady heap2 heap3) : Steady heap1 heap3 := by
  intro p node3 hp
  obtain ⟨node2, hp2, htime2, has2⟩ := h' p node3 hp
  obtain ⟨node1, hp1, htime1, has1⟩ := h p node2 hp2
  exact ⟨node1, hp1, htime2.trans htime1, has1.trans has2⟩

variable {node' new : CGenNodeStateless} {obj : TrexStreamsCompiledObj}

theorem Steady.set {heap : Ptr → Option CGenNodeStateless} (hp : heap p = some node)
    (has : RatedAs node node') (htime : node'.time = node.time) :
    Steady heap (update heap p (some node')) := by
  intro q x hq
  by_cases hqp : q = p
  · subst hqp
    rw [update_self] at hq
    cases hq
    exact ⟨node, hp, htime, has⟩
  · rw [update_of_ne hqp] at hq
    exact ⟨x, hq, rfl, RatedAs.refl x⟩

theorem Steady.free (heap : Ptr → Option CGenNodeStateless) (p : Ptr) :
    Steady heap (update heap p none) := by
  intro q x hq
  by_cases hqp : q = p
  · subst hqp
    rw [update_self] at hq
    cases hq
  · rw [update_of_ne hqp] at hq
    exact ⟨x, hq, rfl, RatedAs.refl x⟩

theorem ratedAs_markForFree (node : CGenNodeStateless) :
    RatedAs node node.markForFree := ⟨id, rfl, rfl, Or.inl rfl⟩

theorem ratedAs_setPause (node : CGenNodeStateless) (enable : Bool) :
    RatedAs node (node.setPause enable) :=
  ⟨id, rfl, rfl, Or.inr ⟨rfl, rfl⟩⟩

theorem ratedAs_updateRate (node : CGenNodeStateless) {factor : Rat} (h : 0 < factor) :
    RatedAs node (node.updateRate factor) :=
  ⟨fun hpos => div_pos hpos h, rfl, rfl, Or.inr ⟨rfl, rfl⟩⟩

variable {rest : List Ptr} {eventId : Int} {k : Nat} {x : QueueNode}

theorem stopNodes_steady (i : UInt8) {c c' : TrexStatelessDpCore}
    (h : stopNodes i rest c = .ok c') : Steady c.heap c'.heap := by
  refine stopNodes_rel (R := fun c c' => Steady c.heap c'.heap) (fun c =>
    Steady.refl _) Steady.trans ?_ ?_ h
  · intro c p node hp _
    exact Steady.set hp (ratedAs_markForFree node) rfl
  · intro c p node _ _
    exact Steady.free c.heap p

theorem stopTraffic_steady {stopOnId : Bool} (h : stopTraffic i stopOnId eventId c = .ok c') :
    Steady c.heap c'.heap ∧ c'.queue = c.queue := by
  have hqueue : c'.queue = c.queue := by
    rcases stopTraffic_effect h with ⟨rfl, -⟩ | ⟨-, -, hq, -⟩
    · rfl
    · exact hq
  refine ⟨?_, hqueue⟩
  obtain ⟨_, -, h⟩ := bind_eq_ok h
  obtain ⟨⟨c1, stopped⟩, hport, h⟩ := bind_eq_ok h
  have hsteady : Steady c.heap c1.heap := by
    unfold portStopTraffic at hport
    simp only at hport
    split at hport
    · obtain ⟨_, -, hport⟩ := bind_eq_ok hport
      cases hport
      exact Steady.refl _
    · split at hport
      · cases hport
        exact Steady.refl _
      · obtain ⟨c2, hstop, hport⟩ := bind_eq_ok hport
        obtain ⟨_, -, hport⟩ := bind_eq_ok hport
        cases hport
        have hnodes := stopNodes_steady i hstop
        exact hnodes
  cases stopped with
  | false =>
    cases h
    exact hsteady
  | true =>
    cases h
    exact hsteady

theorem reduceActiveStreams_steady (h : reduceActiveStreams i c = .ok c') :
    Steady c.heap c'.heap ∧ c'.queue = c.queue := by
  obtain ⟨_, -, h⟩ := bind_eq_ok h
  split at h
  · have hstop := stopTraffic_steady h
    exact hstop
  · cases h
    exact ⟨Steady.refl _, rfl⟩

theorem setPauseNodes_steady (i : UInt8) (enable : Bool) (fault : Fault)
    {c c' : TrexStatelessDpCore} (h : setPauseNodes i enable fault rest c = .ok c') :
    Steady c.heap c'.heap := by
  refine setPauseNodes_rel (R := fun c c' => Steady c.heap c'.heap) (fun c =>
    Steady.refl _) Steady.trans ?_ h
  intro c p node hp _
  exact Steady.set hp (ratedAs_setPause node enable) rfl

theorem updateNodes_steady (i : UInt8) {factor : Rat} (hfactor : 0 < factor)
    {c c' : TrexStatelessDpCore} (h : updateNodes i factor rest c = .ok c') :
    Steady c.heap c'.heap := by
  refine updateNodes_rel (R := fun c c' => Steady c.heap c'.heap) (fun c =>
    Steady.refl _) Steady.trans ?_ h
  intro c p node hp _
  exact Steady.set hp (ratedAs_updateRate node hfactor) rfl

theorem removeAll_steady : ∀ {queue : List QueueNode} {c c' : TrexStatelessDpCore},
    removeAll queue c = .ok c' → Steady c.heap c'.heap
  | [], c, c', h => by
    cases h
    exact Steady.refl _
  | .stateless p :: queue, c, c', h => by
    rw [removeAll] at h
    obtain ⟨node, -, h⟩ := bind_eq_ok h
    obtain ⟨_, -, h⟩ := bind_eq_ok h
    exact (Steady.free c.heap p).trans (removeAll_steady h)
  | .command time cmd :: queue, c, c', h => by
    rw [removeAll] at h
    obtain ⟨c1, hremove, h⟩ := bind_eq_ok h
    obtain ⟨_, -, hremove⟩ := bind_eq_ok hremove
    cases hremove
    have hrest := removeAll_steady h
    exact hrest
  | .flowSync _ :: queue, c, c', h => @removeAll_steady queue c c' h
  | .exitSched _ :: queue, c, c', h => @removeAll_steady queue c c' h

theorem closeScheduler_steady (h : closeScheduler c = .ok c') : Steady c.heap c'.heap := by
  unfold closeScheduler at h
  split at h
  · cases h
    exact Steady.refl _
  · obtain ⟨c1, hremove, h⟩ := bind_eq_ok h
    cases h
    have hremoved := removeAll_steady hremove
    exact hremoved

/-! ## 2. A node that is popped

`Handled` has a case for each thing that can come of the node.  Only in `ended` are other nodes
written, and there they are `Steady`.
-/

/-- **What `flush_file` does with a stateless node**: it is freed, or scheduled again, or its next
stream is, or nothing is. -/
inductive Handled (p : Ptr) (node : CGenNodeStateless) (c c' : TrexStatelessDpCore) : Prop
  | freed : node.state = .ssFREE_RESUSE → c' = c.freeNode p → Handled p node c c'
  | continues : node.state ≠ .ssFREE_RESUSE → node.streamType = .stCONTINUOUS →
      c' = (c.setNode p node.handleContinues).push (.stateless p) → Handled p node c c'
  | burst : node.state ≠ .ssFREE_RESUSE → node.streamType = .stMULTI_BURST →
      node.isLastPacket = false →
      c' = (c.setNode p node.handleMultiBurst).push (.stateless p) → Handled p node c c'
  | next {q : Ptr} {next : CGenNodeStateless} {info : TrexStream} : node.state ≠ .ssFREE_RESUSE →
      node.streamType = .stMULTI_BURST → node.isLastPacket = true → node.nextStream = some q →
      (c.setNode p node.handleMultiBurst).heap q = some next → next.state = .ssINACTIVE →
      next.refStreamInfo = some info →
      c' = ((c.setNode p node.handleMultiBurst).setNode q
        ((next.refresh info).updateRefreshTime info node.handleMultiBurst.time)).push
          (.stateless q) →
      Handled p node c c'
  | ended : node.state ≠ .ssFREE_RESUSE → node.streamType = .stMULTI_BURST →
      node.isLastPacket = true →
      Steady (c.setNode p node.handleMultiBurst).heap c'.heap → c'.queue = c.queue →
        Handled p node c c'

/-- **The last packet of a burst node**: its next stream starts, or its port has one stream less. -/
theorem finishNode_cases (h : finishNode p node c = .ok c') :
    (∃ q next info, node.nextStream = some q ∧
      (c.setNode p node.handleMultiBurst).heap q = some next
      ∧ next.state = .ssINACTIVE ∧ next.refStreamInfo = some info
      ∧ c' = ((c.setNode p node.handleMultiBurst).setNode q
        ((next.refresh info).updateRefreshTime info node.handleMultiBurst.time)).push
          (.stateless q))
    ∨ reduceActiveStreams node.portId (c.setNode p node.handleMultiBurst) = .ok c' := by
  obtain ⟨⟨c1, schedule⟩, hset, h⟩ := bind_eq_ok h
  obtain ⟨_, -, hset⟩ := bind_eq_ok hset
  -- the streams of the port are one less, and nothing is scheduled
  have hreduce : (do
      let c ← reduceActiveStreams node.portId (c.setNode p node.handleMultiBurst)
      (.ok (c, false) : Except Fault (TrexStatelessDpCore × Bool))) = .ok (c1, schedule) →
      reduceActiveStreams node.portId (c.setNode p node.handleMultiBurst) = .ok c' := by
    intro hred
    obtain ⟨c2, hc2, hok⟩ := bind_eq_ok hred
    cases hok
    cases h
    exact hc2
  cases hnext : node.nextStream with
  | none =>
    rw [hnext] at hset
    exact Or.inr (hreduce hset)
  | some q =>
    rw [hnext] at hset h
    obtain ⟨next, hq, hset⟩ := bind_eq_ok hset
    cases hstate : next.state with
    | ssFREE_RESUSE =>
      simp only [hstate] at hset
      cases hset
    | ssACTIVE =>
      simp only [hstate] at hset
      exact Or.inr (hreduce hset)
    | ssINACTIVE =>
      simp only [hstate] at hset
      split at hset
      · cases hset
      · rename_i info hinfo
        cases hset
        have hheap := getNode_eq_ok hq
        simp only [if_true] at h
        rw [getNode, show ((c.setNode p node.handleMultiBurst).setNode q (next.refresh info)).heap
          q = some (next.refresh info) from update_self _ _ _] at h
        dsimp only [bind, Except.bind] at h
        rw [show (next.refresh info).refStreamInfo = some info from hinfo] at h
        cases h
        refine Or.inl ⟨q, next, info, rfl, hheap, hstate, hinfo, ?_⟩
        simp [setNode, push]

theorem finishNode_handled (hfree : node.state ≠ .ssFREE_RESUSE)
    (htype : node.streamType = .stMULTI_BURST) (hlast : node.isLastPacket = true)
    (h : finishNode p node c = .ok c') : Handled p node c c' := by
  rcases finishNode_cases h with ⟨q, next, info, hnext, hheap, hstate, hinfo, rfl⟩ | hreduce
  · exact .next hfree htype hlast hnext hheap hstate hinfo rfl
  · obtain ⟨hsteady, hqueue⟩ := reduceActiveStreams_steady hreduce
    exact .ended hfree htype hlast hsteady hqueue

theorem popStateless_handled (hp : c.heap p = some node) (h : popStateless p c = .ok c') :
    Handled p node c c' := by
  rw [popStateless, getNode_eq hp] at h
  dsimp only [bind, Except.bind] at h
  split at h
  · rename_i hfree
    cases h
    exact .freed hfree rfl
  rename_i hfree
  unfold handleNode at h
  split at h
  · rename_i htype
    cases h
    exact .continues hfree htype rfl
  · rename_i htype
    split at h
    · rename_i hlast
      exact finishNode_handled hfree htype hlast h
    · rename_i hlast
      cases h
      exact .burst hfree htype (Bool.eq_false_iff.mpr hlast) rfl
  · cases h

/-! ## 3. The nodes of a start -/

/-- A stream at the place `k` of the object of a core: its rate is positive, its gaps are not
negative, and if it leads to itself it moves on. -/
structure StreamTimed (k : Nat) (s : TrexStream) : Prop where
  pps : 0 < s.pps
  isg : 0 ≤ s.isgUsec
  ibg : s.type = .stMULTI_BURST → 0 ≤ s.ibgUsec
  loop : s.isDpNextStream = true → s.nextStreamId.toInt.toNat = k →
    0 < s.isgUsec ∨ (s.type = .stMULTI_BURST ∧ s.numBursts ≠ 1 ∧ 0 < s.ibgUsec) ∨
      s.burstTotalPkts ≠ 1

/-- The node of such a stream, wherever its link leads. -/
theorem StreamTimed.rated {s : TrexStream} (h : StreamTimed k s) (curTimeSec : Rat) {p : Ptr}
    {next : Option Ptr}
    (hself : next = some p → s.isDpNextStream = true ∧ s.nextStreamId.toInt.toNat = k) :
    Rated p { newNode curTimeSec s with nextStream := next } := by
  have hpps : 0 < 1 / s.pps := one_div_pos.mpr h.pps
  have hisg : ∀ info, some s.clone = some info → 0 ≤ info.isgUsec := by
    intro info hinfo
    cases hinfo
    exact h.isg
  cases htype : s.type with
  | stCONTINUOUS =>
    simp only [newNode, htype]
    refine ⟨hpps, le_rfl, hisg, fun _ _ _ => Or.inr (Or.inr ?_)⟩
    exact show (0 : UInt32) ≠ 1 by decide
  | stSINGLE_BURST =>
    simp only [newNode, htype]
    refine ⟨hpps, le_rfl, hisg, ?_⟩
    intro hnext info hinfo
    cases hinfo
    obtain ⟨hdp, hk⟩ := hself hnext
    rcases h.loop hdp hk with hpos | ⟨hmulti, -, -⟩ | hpkts
    · exact Or.inl hpos
    · rw [htype] at hmulti
      cases hmulti
    · exact Or.inr (Or.inr hpkts)
  | stMULTI_BURST =>
    simp only [newNode, htype]
    refine ⟨hpps, usecToSec_nonneg (h.ibg htype), hisg, ?_⟩
    intro hnext info hinfo
    cases hinfo
    obtain ⟨hdp, hk⟩ := hself hnext
    rcases h.loop hdp hk with hpos | ⟨-, hnum, hpos⟩ | hpkts
    · exact Or.inl hpos
    · exact Or.inr (Or.inl ⟨hnum, usecToSec_pos hpos⟩)
    · exact Or.inr (Or.inr hpkts)

theorem newNode_time (curTimeSec : Rat) (s : TrexStream) :
    (newNode curTimeSec s).time = curTimeSec + usecToSec s.isgUsec := by
  cases htype : s.type <;> simp [newNode, htype]

/-- `add_stream` for every stream: the nodes are the next addresses, in order. -/
theorem addStreams_nodes (i : UInt8) : ∀ {ss : List TrexStream} {c c' : TrexStatelessDpCore},
    addStreams i ss c = .ok c' →
      (c'.ports i).activeNodes = (c.ports i).activeNodes ++
        (List.range ss.length).map (c.fresh + ·) ∧
      (∀ p node, c'.heap p = some node → c.heap p = some node ∨
        ∃ k s, ss[k]? = some s ∧ p = c.fresh + k ∧ node = newNode c.curTimeSec s) ∧
      (∀ x ∈ c'.queue, x ∈ c.queue ∨ ∃ k, k < ss.length ∧ x = .stateless (c.fresh + k))
  | [], c, c', h => by
    cases h
    refine ⟨?_, fun p node hp => Or.inl hp, fun x hx => Or.inl hx⟩
    rw [length_nil, range_zero, map_nil, append_nil]
  | s :: ss, c, c', h => by
    rw [addStreams] at h
    obtain ⟨_, -, h⟩ := bind_eq_ok h
    rw [addStream_eq] at h
    obtain ⟨hnodes, hheap, hqueue⟩ := addStreams_nodes i h
    dsimp only at hnodes hheap hqueue
    refine ⟨?_, ?_, ?_⟩
    · rw [hnodes, update_self, append_assoc, length_cons, range_succ_eq_map, map_cons,
        map_map, singleton_append, Nat.add_zero]
      congr 2
      refine map_congr_left fun k _ => ?_
      change c.fresh + 1 + k = c.fresh + (k + 1)
      rw [Nat.add_assoc, Nat.add_comm 1 k]
    · intro p node hp
      rcases hheap p node hp with hold | ⟨k, s', hk, rfl, rfl⟩
      · by_cases hpf : p = c.fresh
        · subst hpf
          rw [update_self] at hold
          cases hold
          exact Or.inr ⟨0, s, rfl, rfl, rfl⟩
        · rw [update_of_ne hpf] at hold
          exact Or.inl hold
      · exact Or.inr ⟨k + 1, s', hk, by rw [Nat.add_assoc, Nat.add_comm 1 k], rfl⟩
    · intro x hx
      rcases hqueue x hx with hold | ⟨k, hk, rfl⟩
      · split at hold
        · rcases mem_cons.mp hold with rfl | hold
          · exact Or.inr ⟨0, by simp, rfl⟩
          · exact Or.inl hold
        · exact Or.inl hold
      · refine Or.inr ⟨k + 1, by simpa using hk, ?_⟩
        rw [Nat.add_assoc, Nat.add_comm 1 k]

/-- The second loop of `start_traffic`: only links change, and every new link is the one of its
stream. -/
theorem linkStreams_nodes (i : UInt8) :
    ∀ {ss : List TrexStream} {cnt : Nat} {c c' : TrexStatelessDpCore},
    linkStreams i cnt ss c = .ok c' → ∀ p node', c'.heap p = some node' →
      ∃ node, c.heap p = some node ∧
      node' = { node with nextStream := node'.nextStream } ∧ (node'.nextStream = node.nextStream ∨
        ∃ j s, ss[j]? = some s ∧ (c.ports i).activeNodes[cnt + j]? = some p ∧
          s.isDpNextStream = true ∧
          node'.nextStream = (c.ports i).activeNodes[s.nextStreamId.toInt.toNat]?)
  | [], cnt, c, c', h => by
    cases h
    exact fun p node' hp => ⟨node', hp, rfl, Or.inl rfl⟩
  | s :: ss, cnt, c, c', h => by
    rw [linkStreams] at h
    intro p node' hp
    split at h
    · rename_i hdp
      simp only at h
      split at h
      · cases h
      rename_i next hnext
      split at h
      · cases h
      rename_i p0 hp0
      obtain ⟨node0, hnode0, h⟩ := bind_eq_ok h
      obtain ⟨node, hheap, hsame, hlink⟩ := linkStreams_nodes i h p node' hp
      by_cases hpp : p = p0
      · subst hpp
        rw [show (c.setNode p { node0 with nextStream := some next }).heap p =
          some { node0 with nextStream := some next } from update_self _ _ _] at hheap
        cases hheap
        refine ⟨node0, getNode_eq_ok hnode0, hsame, Or.inr ?_⟩
        rcases hlink with hlink | ⟨j, s', hj, hpj, hdp', hlink⟩
        · exact ⟨0, s, rfl, hp0, hdp, hlink.trans hnext.symm⟩
        · refine ⟨j + 1, s', hj, ?_, hdp', hlink⟩
          rw [show cnt + (j + 1) = cnt + 1 + j by omega]
          exact hpj
      · rw [show (c.setNode p0 { node0 with nextStream := some next }).heap p = c.heap p from
          update_of_ne hpp _ _] at hheap
        refine ⟨node, hheap, hsame, ?_⟩
        rcases hlink with hlink | ⟨j, s', hj, hpj, hdp', hlink⟩
        · exact Or.inl hlink
        · refine Or.inr ⟨j + 1, s', hj, ?_, hdp', hlink⟩
          rw [show cnt + (j + 1) = cnt + 1 + j by omega]
          exact hpj
    · obtain ⟨node, hheap, hsame, hlink⟩ := linkStreams_nodes i h p node' hp
      refine ⟨node, hheap, hsame, ?_⟩
      rcases hlink with hlink | ⟨j, s', hj, hpj, hdp', hlink⟩
      · exact Or.inl hlink
      · refine Or.inr ⟨j + 1, s', hj, ?_, hdp', hlink⟩
        rw [show cnt + (j + 1) = cnt + 1 + j by omega]
        exact hpj

/-- The streams of a start. -/
def ObjTimed (obj : TrexStreamsCompiledObj) : Prop := ∀ k s, obj.objs[k]? = some s → StreamTimed k s

/-- **The nodes after a start** are the old ones and the ones of the streams, which are scheduled
from the current time on. -/
theorem startTraffic_nodes {duration : Rat} (hobj : ObjTimed obj)
    (hfresh : ∀ p, c.fresh ≤ p → c.heap p = none)
    (h : startTraffic obj duration eventId c = .ok c') :
    (∀ p node, c'.heap p = some node → c.heap p = some node ∨
      (c.fresh ≤ p ∧ Rated p node ∧ c.curTimeSec ≤ node.time)) ∧
    ∀ x ∈ c'.queue, x ∈ c.queue ∨ (∃ p, c.fresh ≤ p ∧ x = .stateless p) ∨
      ∃ time cmd, c.curTimeSec ≤ time ∧ x = .command time cmd := by
  obtain ⟨hnil, c1, c2, hadd, hlink, rfl⟩ := startTraffic_eq_ok h
  obtain ⟨hnodes, hheap, hqueue⟩ := addStreams_nodes _ hadd
  have hempty := hnil
  have hnodes' : (c1.ports obj.portId).activeNodes =
      (List.range obj.objs.length).map (c.fresh + ·) := by
    rw [hnodes]
    simp [setPort, hempty]
  -- the place of an address in the list
  have hplace : ∀ {j p : Nat}, (c1.ports obj.portId).activeNodes[j]? = some p →
      p = c.fresh + j := by
    intro j p hj
    rw [hnodes', List.getElem?_map, Option.map_eq_some_iff] at hj
    obtain ⟨j', hj', rfl⟩ := hj
    obtain ⟨hlt, rfl⟩ := List.getElem?_eq_some_iff.mp hj'
    rw [getElem_range]
  have hqueue2 : c2.queue = c1.queue := by
    obtain ⟨heap, -, rfl⟩ := linkStreams_effect _ hlink
    rfl
  have hmain : ∀ p node, c2.heap p = some node → c.heap p = some node ∨
      (c.fresh ≤ p ∧ Rated p node ∧ c.curTimeSec ≤ node.time) := by
    intro p node' hp
    obtain ⟨node, hp1, hsame, hnext⟩ := linkStreams_nodes _ hlink p node' hp
    rcases hheap p node hp1 with hold | ⟨k, s, hk, rfl, rfl⟩
    · left
      rcases hnext with hnext | ⟨j, s, -, hj, -, -⟩
      · rw [hsame, hnext]
        exact hold
      · rw [Nat.zero_add] at hj
        have hnone := hfresh p (hplace hj ▸ Nat.le_add_right _ _)
        have hsome : c.heap p = some node := hold
        rw [hnone] at hsome
        cases hsome
    · right
      have hs := hobj k s hk
      refine ⟨Nat.le_add_right _ _, ?_, ?_⟩
      · rw [hsame]
        refine hs.rated _ fun hself => ?_
        rcases hnext with hnext | ⟨j, s', hj, hpj, hdp, hlinked⟩
        · rw [hnext, newNode_nextStream] at hself
          cases hself
        · rw [Nat.zero_add] at hpj
          obtain rfl : k = j := Nat.add_left_cancel (hplace hpj)
          rw [hk] at hj
          cases hj
          rw [hself] at hlinked
          exact ⟨hdp, (Nat.add_left_cancel (hplace hlinked.symm)).symm⟩
      · rw [hsame]
        change c.curTimeSec ≤ (newNode c.curTimeSec s).time
        rw [newNode_time]
        have := usecToSec_nonneg hs.isg
        linarith
  have hmainq : ∀ x ∈ c2.queue, x ∈ c.queue ∨ ∃ p, c.fresh ≤ p ∧ x = .stateless p := by
    intro x hx
    rw [hqueue2] at hx
    rcases hqueue x hx with hold | ⟨k, -, rfl⟩
    · exact Or.inl hold
    · exact Or.inr ⟨_, Nat.le_add_right _ _, rfl⟩
  have hcur : c2.curTimeSec = c.curTimeSec := by
    obtain ⟨heap, -, rfl⟩ := linkStreams_effect _ hlink
    exact (addStreams_marks hadd).1.curTimeSec
  unfold addPortDuration
  split
  · rename_i hpos
    refine ⟨hmain, ?_⟩
    intro x hx
    rcases mem_cons.mp hx with rfl | hx
    · refine Or.inr (Or.inr ⟨_, _, ?_, rfl⟩)
      change c.curTimeSec ≤ c2.curTimeSec + duration
      rw [hcur]
      linarith
    · rcases hmainq x hx with hold | hnew
      · exact Or.inl hold
      · exact Or.inr (Or.inl hnew)
  · refine ⟨hmain, ?_⟩
    intro x hx
    rcases hmainq x hx with hold | hnew
    · exact Or.inl hold
    · exact Or.inr (Or.inl hnew)

/-! ## 4. The times do not decrease

`Timed` is kept by every message and by every pop; a pop replaces `last` by the time of the node.
-/

/-- **The invariant**: the rates of all nodes move them forward, and nothing that is scheduled, or
that can be scheduled by a message, is before `last`. -/
structure Timed (last : Rat) (c : TrexStatelessDpCore) : Prop where
  rated : ∀ p node, c.heap p = some node → Rated p node
  times : ∀ x ∈ c.queue, last ≤ c.nodeTime x
  cur : c.phase ≠ .scheduler → c.phase ≠ .ended → last ≤ c.curTimeSec
  sync : ∀ time, c.phase = .sync time → time = c.curTimeSec

variable {last : Rat}

theorem nodeTime_stateless (hp : c.heap p = some node) : c.nodeTime (.stateless p) = node.time := by
  rw [nodeTime, hp]
  rfl

/-- The times of a queue, one kind of nodes at a time. -/
theorem times_of
    (hstateless : ∀ p node, .stateless p ∈ c.queue → c.heap p = some node → last ≤ node.time)
    (hother : ∀ x ∈ c.queue, x.ptr? = none → last ≤ c.nodeTime x) (hinv : c.Inv) :
    ∀ x ∈ c.queue, last ≤ c.nodeTime x := by
  intro x hx
  cases x with
  | stateless p =>
    obtain ⟨node, hp, -⟩ := hinv.of_mem_queue hx
    rw [nodeTime_stateless hp]
    exact hstateless p node hx hp
  | command time cmd => exact hother _ hx rfl
  | flowSync time => exact hother _ hx rfl
  | exitSched time => exact hother _ hx rfl

theorem Steady.rated {heap heap' : Ptr → Option CGenNodeStateless} (h : Steady heap heap')
    (hrated : ∀ p node, heap p = some node → Rated p node) :
    ∀ p node, heap' p = some node → Rated p node := by
  intro p node' hp
  obtain ⟨node, hp', -, has⟩ := h p node' hp
  exact (hrated p node hp').as has

/-- An operation that moves no node and schedules none. -/
theorem Steady.times (h : Steady c.heap c'.heap) (hqueue : ∀ x ∈ c'.queue, x ∈ c.queue)
    (hinv : c'.Inv) (htimes : ∀ x ∈ c.queue, last ≤ c.nodeTime x) :
    ∀ x ∈ c'.queue, last ≤ c'.nodeTime x := by
  refine times_of ?_ ?_ hinv
  · intro p node' hmem hp
    obtain ⟨node, hp', htime, -⟩ := h p node' hp
    have hlast := htimes _ (hqueue _ hmem)
    rw [nodeTime_stateless hp'] at hlast
    rw [htime]
    exact hlast
  · intro x hx hnone
    have hlast := htimes x (hqueue x hx)
    cases x with
    | stateless p => cases hnone
    | command time cmd => exact hlast
    | flowSync time => exact hlast
    | exitSched time => exact hlast

theorem Timed.steady (h : c.Timed last) (hinv : c'.Inv) (hsteady : Steady c.heap c'.heap)
    (hqueue : c'.queue = c.queue) (hsame : SameControl c c') : c'.Timed last := by
  refine ⟨hsteady.rated h.rated, hsteady.times (fun x hx => hqueue ▸ hx) hinv h.times, ?_, ?_⟩
  · rw [hsame.phase, hsame.curTimeSec]
    exact h.cur
  · rw [hsame.phase, hsame.curTimeSec]
    exact h.sync

/-- What a message must not do to the rates. -/
def CpToDpMsg.Timed : CpToDpMsg → Prop
  | .start obj _ _ => ObjTimed obj
  | .update _ factor => 0 < factor
  | _ => True

theorem Timed.start (h : c.Timed last) (hinv : c.Inv) (hinv' : c'.Inv) {duration : Rat}
    (hobj : ObjTimed obj) (hcur : last ≤ c.curTimeSec)
    (hstep : startTraffic obj duration eventId c = .ok c') :
    c'.Timed last := by
  obtain ⟨hphase, -, -, hcur', -, -⟩ := startTraffic_control hstep
  obtain ⟨hheap, hqueue⟩ := startTraffic_nodes hobj hinv.fresh hstep
  refine ⟨?_, times_of ?_ ?_ hinv', ?_, ?_⟩
  · intro p node hp
    rcases hheap p node hp with hold | ⟨-, hrated, -⟩
    · exact h.rated p node hold
    · exact hrated
  · intro p node hmem hp
    rcases hheap p node hp with hold | ⟨-, -, htime⟩
    · -- an old node is in the old queue
      rcases hqueue _ hmem with hmem | ⟨q, hq, heq⟩ | ⟨time, cmd, -, heq⟩
      · have hlast := h.times _ hmem
        rw [nodeTime_stateless hold] at hlast
        exact hlast
      · cases heq
        rw [hinv.fresh p hq] at hold
        cases hold
      · cases heq
    · exact hcur.trans htime
  · intro x hx hnone
    rcases hqueue x hx with hold | ⟨q, -, rfl⟩ | ⟨time, cmd, htime, rfl⟩
    · have hlast := h.times x hold
      cases x with
      | stateless p => cases hnone
      | command time cmd => exact hlast
      | flowSync time => exact hlast
      | exitSched time => exact hlast
    · cases hnone
    · exact hcur.trans htime
  · rw [hphase, hcur']
    exact h.cur
  · rw [hphase, hcur']
    exact h.sync

/-- A node that is not a stateless one is scheduled. -/
theorem Timed.pushOther (h : c.Timed last) (hx : last ≤ c.nodeTime x) :
    ∀ y ∈ (c.push x).queue, last ≤ c.nodeTime y := by
  intro y hy
  rcases mem_cons.mp hy with rfl | hy
  · exact hx
  · exact h.times y hy

theorem Timed.msg (h : c.Timed last) (hinv : c.Inv) (hinv' : c'.Inv) {m : CpToDpMsg} (hm : m.Timed)
    (hen : c.Enabled (.msg m)) (hstep : c.handleCpMsg m = .ok c') : c'.Timed last := by
  have hcur := h.cur hen.1 hen.2
  cases m with
  | start obj duration eventId => exact h.start hinv hinv' hm hcur hstep
  | stop cmd =>
    obtain ⟨hsteady, hqueue⟩ := stopTraffic_steady hstep
    exact h.steady hinv' hsteady hqueue (stopTraffic_control hstep)
  | pause i =>
    have hsame := pauseTraffic_control hstep
    have hqueue := (pauseTraffic_effect hstep).queue
    obtain ⟨port, -, hstep⟩ := bind_eq_ok hstep
    obtain ⟨_, -, hstep⟩ := bind_eq_ok hstep
    obtain ⟨c1, hnodes, hstep⟩ := bind_eq_ok hstep
    cases hstep
    have hsteady := setPauseNodes_steady _ _ _ hnodes
    exact h.steady hinv' hsteady hqueue hsame
  | resume i =>
    have hsame := resumeTraffic_control hstep
    have hqueue := (resumeTraffic_effect hstep).queue
    obtain ⟨port, -, hstep⟩ := bind_eq_ok hstep
    obtain ⟨_, -, hstep⟩ := bind_eq_ok hstep
    obtain ⟨c1, hnodes, hstep⟩ := bind_eq_ok hstep
    cases hstep
    have hsteady := setPauseNodes_steady _ _ _ hnodes
    exact h.steady hinv' hsteady hqueue hsame
  | update i factor =>
    have hsame := updateTraffic_control hstep
    have hqueue := (updateTraffic_effect hstep).2.1
    obtain ⟨port, -, hstep⟩ := bind_eq_ok hstep
    obtain ⟨_, -, hstep⟩ := bind_eq_ok hstep
    exact h.steady hinv' (updateNodes_steady _ hm hstep) hqueue hsame
  | quit =>
    cases hstep
    refine ⟨h.rated, h.pushOther ?_, h.cur, h.sync⟩
    change last ≤ c.curTimeSec + 1 / 10000
    linarith

theorem syncTimeOut_pos : 0 < syncTimeOut := by
  unfold syncTimeOut
  norm_num

theorem Timed.leaveIdle (h : c.Timed last) (hen : c.Enabled .leaveIdle)
    (hstep : c.step .leaveIdle = .ok c') :
    c'.Timed last := by
  have hcur : last ≤ c.curTimeSec := by
    refine h.cur ?_ ?_ <;> rw [hen.1] <;> exact Phase.noConfusion
  have hpos := syncTimeOut_pos
  unfold step at hstep
  dsimp only at hstep
  split at hstep
  · cases hstep
    refine ⟨h.rated, h.times, fun _ hne => absurd rfl hne, ?_⟩
    intro time hp
    cases hp
  · cases hstep
    refine ⟨h.rated, h.pushOther ?_, fun hne => absurd rfl hne, ?_⟩
    · change last ≤ c.curTimeSec + syncTimeOut
      linarith
    · intro time hp
      cases hp

theorem timed_close (hrated : ∀ p node, c.heap p = some node → Rated p node)
    (htimes : ∀ x ∈ c.queue, last ≤ c.nodeTime x)
    (hcur : c.terminated = false → last ≤ c.curTimeSec) (hstep : closeScheduler c = .ok c') :
    c'.Timed last := by
  have hsteady := closeScheduler_steady hstep
  have hcur' : c'.curTimeSec = c.curTimeSec := by
    unfold closeScheduler at hstep
    split at hstep
    · cases hstep
      rfl
    · obtain ⟨c1, hremove, hstep⟩ := bind_eq_ok hstep
      obtain ⟨heap, n, -, -, rfl⟩ := removeAll_effect hremove
      cases hstep
      rfl
  rcases closeScheduler_control hstep with ⟨-, rfl⟩ | ⟨-, hterm, -, hqueue, hphase⟩
  · refine ⟨hrated, htimes, fun _ hne => absurd rfl hne, ?_⟩
    intro time hp
    cases hp
  · refine ⟨hsteady.rated hrated, ?_, ?_, ?_⟩
    · rw [hqueue]
      intro x hx
      cases hx
    · intro _ hne
      rw [hcur']
      refine hcur ?_
      cases ht : c.terminated with
      | false => rfl
      | true =>
        rw [hphase, ht] at hne
        exact absurd rfl hne
    · intro time hp
      rw [hphase] at hp
      split at hp <;> cases hp

theorem Timed.endSync (h : c.Timed last) {time : Rat} (hphase : c.phase = .sync time)
    (hstep : TrexStatelessDpCore.endSync time c = .ok c') : c'.Timed last := by
  have hcur : last ≤ c.curTimeSec := by
    refine h.cur ?_ ?_ <;> rw [hphase] <;> exact Phase.noConfusion
  have htime := h.sync time hphase
  have hpos := syncTimeOut_pos
  unfold TrexStatelessDpCore.endSync at hstep
  split at hstep
  · exact timed_close h.rated h.times (fun _ => hcur) hstep
  · cases hstep
    refine ⟨h.rated, h.pushOther ?_, fun hne => absurd rfl hne, ?_⟩
    · change last ≤ time + syncTimeOut
      linarith
    · intro time' hp
      cases hp

/-- The queue without the node that is popped: nothing is earlier, and a stateless node is there
once. -/
theorem erase_times (hen : c.Enabled (.pop k)) (hk : c.queue[k]? = some x) :
    ∀ y ∈ c.queue.eraseIdx k, c.nodeTime x ≤ c.nodeTime y := by
  obtain ⟨-, x', hx', hleast⟩ := hen
  rw [hk] at hx'
  cases hx'
  exact fun y hy => hleast y (mem_of_mem_eraseIdx hy)

theorem not_mem_erase (hinv : c.Inv) (hk : c.queue[k]? = some (.stateless p)) :
    .stateless p ∉ c.queue.eraseIdx k := by
  intro hmem
  have hcount := hinv.pool.queued p
  have hperm := (perm_eraseIdx hk).filterMap QueueNode.ptr?
  have htwo : 2 ≤ (c.queue.filterMap QueueNode.ptr?).count p := by
    rw [hperm.count_eq]
    change 2 ≤ (p :: (c.queue.eraseIdx k).filterMap QueueNode.ptr?).count p
    rw [count_cons_self]
    have hpos : 0 < ((c.queue.eraseIdx k).filterMap QueueNode.ptr?).count p :=
      count_pos_iff.mpr (mem_filterMap.mpr ⟨_, hmem, rfl⟩)
    omega
  have hone : (c.queue.filterMap QueueNode.ptr?).count p ≤ 1 := by
    exact le_of_eq_of_le hcount (Bool.toNat_le _)
  omega

/-- The node at `q` is changed and scheduled, and no other node is moved. -/
structure Scheduled (q : Ptr) (new : CGenNodeStateless) (c c' : TrexStatelessDpCore) : Prop where
  heap : c'.heap q = some new
  others : ∀ r, r ≠ q → ∀ node', c'.heap r = some node' →
    ∃ node, c.heap r = some node ∧ node'.time = node.time ∧ RatedAs node node'
  queue : c'.queue = .stateless q :: c.queue
  fresh : .stateless q ∉ c.queue

theorem Scheduled.rated {q : Ptr} (h : Scheduled q new c c') (hnew : Rated q new)
    (hrated : ∀ p node, c.heap p = some node → Rated p node) :
    ∀ p node, c'.heap p = some node → Rated p node := by
  intro r node' hr
  by_cases hrq : r = q
  · subst hrq
    rw [h.heap] at hr
    cases hr
    exact hnew
  · obtain ⟨node, hr', -, has⟩ := h.others r hrq node' hr
    exact (hrated r node hr').as has

theorem Scheduled.times {q : Ptr} (h : Scheduled q new c c') (hnew : last ≤ new.time)
    (hinv : c'.Inv) (htimes : ∀ x ∈ c.queue, last ≤ c.nodeTime x) :
    ∀ x ∈ c'.queue, last ≤ c'.nodeTime x := by
  refine times_of ?_ ?_ hinv
  · intro r node' hmem hr
    by_cases hrq : r = q
    · subst hrq
      rw [h.heap] at hr
      cases hr
      exact hnew
    · obtain ⟨node, hr', htime, -⟩ := h.others r hrq node' hr
      rw [h.queue] at hmem
      rcases mem_cons.mp hmem with heq | hmem
      · cases heq
        exact absurd rfl hrq
      · have hlast := htimes _ hmem
        rw [nodeTime_stateless hr'] at hlast
        rw [htime]
        exact hlast
  · intro x hx hnone
    rw [h.queue] at hx
    rcases mem_cons.mp hx with rfl | hx
    · cases hnone
    · have hlast := htimes x hx
      cases x with
      | stateless p => cases hnone
      | command time cmd => exact hlast
      | flowSync time => exact hlast
      | exitSched time => exact hlast

/-- A node that is scheduled again. -/
theorem scheduled_again (hnot : .stateless p ∉ c.queue) :
    Scheduled p node' c ((c.setNode p node').push (.stateless p)) := by
  refine ⟨update_self _ _ _, ?_, rfl, hnot⟩
  intro r hrp x hr
  rw [show ((c.setNode p node').push (.stateless p)).heap r = c.heap r from update_of_ne hrp _ _]
    at hr
  exact ⟨x, hr, rfl, RatedAs.refl x⟩

/-- A node after its last packet, and its next stream. -/
theorem scheduled_next (q : Ptr) (new : CGenNodeStateless) (hp : c.heap p = some node)
    (hlast : node.isLastPacket = true) (hnot : .stateless q ∉ c.queue) :
    Scheduled q new c (((c.setNode p node.handleMultiBurst).setNode q new).push
        (.stateless q)) := by
  refine ⟨update_self _ _ _, ?_, rfl, hnot⟩
  intro r hrq x hr
  rw [show (((c.setNode p node.handleMultiBurst).setNode q new).push (.stateless q)).heap r =
    (c.setNode p node.handleMultiBurst).heap r from update_of_ne hrq _ _] at hr
  exact Steady.set hp (ratedAs_handleMultiBurst node) (time_of_last hlast) r x hr

/-- **Handling a node schedules nothing before its time**, if the rest of the queue is not before
it. -/
theorem Handled.timed (h : Handled p node c c') (hp : c.heap p = some node) (hinv : c'.Inv)
    (hrated : ∀ p node, c.heap p = some node → Rated p node)
    (hrest : ∀ x ∈ c.queue, node.time ≤ c.nodeTime x) (hnot : .stateless p ∉ c.queue)
    (hinactive : ∀ q next, c.heap q = some next → next.state = .ssINACTIVE →
      .stateless q ∉ c.queue) :
    (∀ p node, c'.heap p = some node → Rated p node) ∧
        ∀ x ∈ c'.queue, node.time ≤ c'.nodeTime x := by
  have hnode := hrated p node hp
  cases h with
  | freed hfree heq =>
    subst heq
    have hsteady := Steady.free c.heap p
    exact ⟨hsteady.rated hrated, Steady.times hsteady (fun x hx => hx) hinv hrest⟩
  | continues hfree htype heq =>
    subst heq
    have hsched : Scheduled p node.handleContinues c _ := scheduled_again hnot
    have hpos := hnode.offset
    refine ⟨hsched.rated (hnode.as ⟨id, rfl, rfl, Or.inr ⟨rfl, rfl⟩⟩) hrated,
      hsched.times ?_ hinv hrest⟩
    change node.time ≤ node.time + node.nextTimeOffset
    linarith
  | burst hfree htype hlast heq =>
    subst heq
    have hsched : Scheduled p node.handleMultiBurst c _ := scheduled_again hnot
    exact ⟨hsched.rated (hnode.as (ratedAs_handleMultiBurst node)) hrated,
      hsched.times hnode.le_handleMultiBurst hinv hrest⟩
  | next hfree htype hlast hnext hq hstate hinfo heq =>
    rename_i q next info
    subst heq
    have hset := Steady.set hp (ratedAs_handleMultiBurst node) (time_of_last hlast)
    have hnext' : Rated q next := hset.rated hrated q next hq
    -- the next stream is the node itself, or it is inactive
    have hnotq : .stateless q ∉ c.queue := by
      by_cases hqp : q = p
      · rw [hqp]
        exact hnot
      · rw [show (c.setNode p node.handleMultiBurst).heap q = c.heap q from update_of_ne hqp _ _]
          at hq
        exact hinactive q next hq hstate
    have hsched := scheduled_next q
      ((next.refresh info).updateRefreshTime info node.handleMultiBurst.time) hp hlast hnotq
    have hisg := usecToSec_nonneg (hnext'.isg info hinfo)
    refine ⟨hsched.rated (hnext'.as ⟨id, rfl, rfl, Or.inr ⟨rfl, rfl⟩⟩) hrated,
      hsched.times ?_ hinv hrest⟩
    change node.time ≤ node.handleMultiBurst.time + usecToSec info.isgUsec
    rw [time_of_last hlast]
    linarith
  | ended hfree htype hlast hsteady hqueue =>
    have hset := Steady.set hp (ratedAs_handleMultiBurst node) (time_of_last hlast)
    have hall : Steady c.heap c'.heap := hset.trans hsteady
    exact ⟨hall.rated hrated, hall.times (fun x hx => hqueue ▸ hx) hinv hrest⟩

/-- **A node that is popped is not before the last one, and nothing that is left or scheduled is
before it.** -/
theorem Timed.pop (h : c.Timed last) (hinv : c.Inv) (hinv' : c'.Inv) (hsteered : c.Steered)
    (hen : c.Enabled (.pop k)) (hk : c.queue[k]? = some x) (hstep : c.step (.pop k) = .ok c') :
    last ≤ c.nodeTime x ∧ c'.Timed (c.nodeTime x) := by
  have hmem := mem_of_getElem? hk
  refine ⟨h.times x hmem, ?_⟩
  have hrest := erase_times hen hk
  unfold step at hstep
  simp only [hk] at hstep
  have hsync : ∀ {c1 : TrexStatelessDpCore}, c1.phase = .scheduler →
      (c1.phase ≠ .scheduler → c1.phase ≠ .ended → c.nodeTime x ≤ c1.curTimeSec) ∧
      ∀ time, c1.phase = .sync time → time = c1.curTimeSec := by
    intro c1 hphase
    refine ⟨fun hne => absurd hphase hne, fun time hp => ?_⟩
    rw [hphase] at hp
    cases hp
  cases x with
  | stateless p =>
    obtain ⟨node, hp, -⟩ := hinv.of_mem_queue hmem
    rw [nodeTime_stateless hp] at hrest hsync ⊢
    have hp0 : ({ c with queue := c.queue.eraseIdx k } : TrexStatelessDpCore).heap p = some node :=
      hp
    have hhandled := popStateless_handled hp0 hstep
    have hinactive : ∀ q next, c.heap q = some next → next.state = .ssINACTIVE →
        .stateless q ∉ c.queue.eraseIdx k := by
      intro q next hq hstate hmem'
      obtain ⟨next', hq', hne⟩ := hinv.of_mem_queue (mem_of_mem_eraseIdx hmem')
      rw [hq] at hq'
      cases hq'
      exact hne hstate
    obtain ⟨hrated, htimes⟩ :=
      hhandled.timed hp0 hinv' h.rated hrest (not_mem_erase hinv hk) hinactive
    obtain ⟨hcur, hsync'⟩ := hsync ((popStateless_control hstep).phase.trans hen.1)
    exact ⟨hrated, htimes, hcur, hsync'⟩
  | command time cmd =>
    obtain ⟨c1, hstop, hstep⟩ := bind_eq_ok hstep
    obtain ⟨_, -, hstep⟩ := bind_eq_ok hstep
    cases hstep
    obtain ⟨hsteady, hqueue⟩ := stopTraffic_steady hstop
    obtain ⟨hcur, hsync'⟩ := hsync ((stopTraffic_control hstop).phase.trans hen.1)
    have hinv1 : c1.Inv :=
      ⟨hinv'.pool, hinv'.fresh, hinv'.node, hinv'.next, hinv'.mode, hinv'.commandPort⟩
    have htimes := hsteady.times (fun y hy => hqueue ▸ hy) hinv1 hrest
    exact ⟨hsteady.rated h.rated, htimes, hcur, hsync'⟩
  | flowSync time =>
    cases hstep
    refine ⟨h.rated, hrest, fun _ _ => le_rfl, ?_⟩
    intro time' hp
    cases hp
    rfl
  | exitSched time =>
    refine timed_close (c := { c with queue := c.queue.eraseIdx k }) h.rated hrest ?_ hstep
    intro hterm
    -- the core is to quit, so it ends
    have hexit : .exitSched time ∈ c.marks := mem_filter.mpr ⟨hmem, rfl⟩
    have hterm' : c.terminated = false := hterm
    rw [hsteered.quit time hexit] at hterm'
    cases hterm'

/-- A step that pops nothing. -/
theorem Timed.other (h : c.Timed last) (hinv : c.Inv) (hinv' : c'.Inv) {a : Act} (hen : c.Enabled a)
    (hmsg : ∀ m, a = .msg m → m.Timed) (hpop : ∀ k, a ≠ .pop k) (hstep : c.step a = .ok c') :
    c'.Timed last := by
  cases a with
  | msg m => exact h.msg hinv hinv' (hmsg m rfl) hen hstep
  | leaveIdle => exact h.leaveIdle hen hstep
  | pop k => exact absurd rfl (hpop k)
  | endSync =>
    obtain ⟨time, hphase⟩ := hen
    unfold step at hstep
    simp only [hphase] at hstep
    exact h.endSync hphase hstep

/-! ## 5. The packets of a stream -/

/-- The node is in the middle of its packets: it is a continuous stream, or the packet is not the
last one of its burst. -/
def MidPacket (node : CGenNodeStateless) : Prop :=
  node.streamType = .stCONTINUOUS ∨ (node.streamType = .stMULTI_BURST ∧ node.singleBurst - 1 ≠ 0)

theorem step_popStateless (hk : c.queue[k]? = some (.stateless p)) (hp : c.heap p = some node)
    (hstep : c.step (.pop k) = .ok c') :
    Handled p node { c with queue := c.queue.eraseIdx k } c' := by
  unfold step at hstep
  simp only [hk] at hstep
  exact popStateless_handled (c := { c with queue := c.queue.eraseIdx k }) hp hstep

/-- **Between two packets of a stream there is a positive gap.** -/
theorem Timed.gap (h : c.Timed last) (hk : c.queue[k]? = some (.stateless p))
    (hp : c.heap p = some node) (hstate : node.state ≠ .ssFREE_RESUSE) (hmid : MidPacket node)
    (hstep : c.step (.pop k) = .ok c') :
    ∃ node', c'.heap p = some node' ∧ .stateless p ∈ c'.queue ∧ node.time < node'.time := by
  have hpos := (h.rated p node hp).offset
  -- a node in the middle of its burst is not at its last packet
  have hnotLast : node.streamType = .stMULTI_BURST → node.singleBurst - 1 ≠ 0 := by
    intro htype
    rcases hmid with hcont | ⟨-, hne⟩
    · rw [htype] at hcont
      cases hcont
    · exact hne
  have hlastAbsurd : node.streamType = .stMULTI_BURST → node.isLastPacket = true → False := by
    intro htype hlast
    unfold isLastPacket at hlast
    rw [Bool.and_eq_true, decide_eq_true_iff] at hlast
    exact hnotLast htype hlast.1
  cases step_popStateless hk hp hstep with
  | freed hfree _ => exact absurd hfree hstate
  | continues _ _ heq =>
    subst heq
    refine ⟨node.handleContinues, update_self _ _ _, mem_cons_self, ?_⟩
    change node.time < node.time + node.nextTimeOffset
    linarith
  | burst _ htype _ heq =>
    subst heq
    refine ⟨node.handleMultiBurst, update_self _ _ _, mem_cons_self, ?_⟩
    rw [time_handleMultiBurst, if_pos (UInt32.pos_iff_ne_zero.mpr (hnotLast htype))]
    linarith
  | next _ htype hlast => exact (hlastAbsurd htype hlast).elim
  | ended _ htype hlast => exact (hlastAbsurd htype hlast).elim

/-- The node at `p` is popped `n` times in a row, not later than `T`. -/
def Held (p : Ptr) (T : Rat) : Nat → TrexStatelessDpCore → Prop
  | 0, _ => True
  | n + 1, c => ∃ k c', c.Enabled (.pop k) ∧ c.queue[k]? = some (.stateless p) ∧
      c.nodeTime (.stateless p) ≤ T ∧
      c.step (.pop k) = .ok c' ∧ Held p T n c'

theorem Held.mem {T : Rat} {n : Nat} (h : Held p T (n + 1) c) : .stateless p ∈ c.queue := by
  obtain ⟨k, c', -, hk, -⟩ := h
  exact mem_of_getElem? hk

/-- A node that is scheduled again is what `selfNext` says. -/
theorem selfNext_of_pop (hinv : c.Inv) (hk : c.queue[k]? = some (.stateless p))
    (hp : c.heap p = some node) (hstate : node.state = .ssACTIVE)
    (hstep : c.step (.pop k) = .ok c') (hmem : .stateless p ∈ c'.queue) :
    ∃ node', selfNext p node = some node' ∧ c'.heap p = some node' ∧ node'.state = .ssACTIVE := by
  have hnot := not_mem_erase hinv hk
  cases step_popStateless hk hp hstep with
  | freed hfree _ =>
    rw [hstate] at hfree
    cases hfree
  | continues _ htype heq =>
    subst heq
    refine ⟨node.handleContinues, ?_, update_self _ _ _, hstate⟩
    rw [selfNext, htype]
  | burst _ htype hlast heq =>
    subst heq
    refine ⟨node.handleMultiBurst, ?_, update_self _ _ _, ?_⟩
    · rw [selfNext, htype]
      exact if_neg (by rw [hlast]; exact Bool.false_ne_true)
    · rw [handleMultiBurst_state, hlast]
      exact hstate
  | next hfree htype hlast hnext hq hinactive hinfo heq =>
    rename_i q next info
    subst heq
    have hqp : q = p := by
      rcases mem_cons.mp hmem with heq | hmem
      · cases heq
        rfl
      · exact absurd hmem hnot
    subst hqp
    rw [show (setNode { c with queue := c.queue.eraseIdx k } q node.handleMultiBurst).heap q =
      some node.handleMultiBurst from update_self _ _ _] at hq
    cases hq
    refine ⟨node.restarted info, ?_, update_self _ _ _, rfl⟩
    have hinfo' : node.refStreamInfo = some info := by
      rw [← hinfo]
      unfold handleMultiBurst
      dsimp only
      split
      · rfl
      · split <;> rfl
    rw [selfNext, htype]
    dsimp only
    rw [if_pos hlast, if_pos hnext, hinfo', Option.map_some]
  | ended _ _ _ _ hqueue =>
    rw [hqueue] at hmem
    exact absurd hmem hnot

theorem heldFor_of_held {T : Rat} {n : Nat} :
    ∀ {c : TrexStatelessDpCore} {node : CGenNodeStateless}, c.Inv →
    CommandsOk c → c.heap p = some node → node.state = .ssACTIVE → Held p T n c →
        HeldFor p T n node := by
  induction n with
  | zero => exact fun _ _ _ _ _ => trivial
  | succ n ih =>
    intro c node hinv hcount hp hstate hheld
    obtain ⟨k, c', hen, hk, htime, hstep, hrest⟩ := hheld
    rw [nodeTime_stateless hp] at htime
    refine ⟨htime, ?_⟩
    cases n with
    | zero => exact Or.inl rfl
    | succ n =>
      obtain ⟨node', hnext, hp', hstate'⟩ := selfNext_of_pop hinv hk hp hstate hstep hrest.mem
      have hinv' : c'.Inv := (step_post hinv hcount hen).result hstep
      exact Or.inr ⟨node', hnext, ih hinv' ((step_effect hstep).2 hcount) hp' hstate' hrest⟩

/-- **No stream holds the scheduler**: it is popped a bounded number of times in a row before any
time. -/
theorem Timed.exists_not_held (h : c.Timed last) (hinv : c.Inv) (hcount : CommandsOk c) (p : Ptr)
    (T : Rat) :
    ∃ n, ¬ Held p T n c := by
  by_cases hmem : .stateless p ∈ c.queue
  · obtain ⟨node, hp, hne⟩ := hinv.of_mem_queue hmem
    have hrated := h.rated p node hp
    cases hstate : node.state with
    | ssINACTIVE => exact absurd hstate hne
    | ssFREE_RESUSE =>
      -- it is freed
      refine ⟨2, fun hheld => ?_⟩
      obtain ⟨k, c', hen, hk, -, hstep, hrest⟩ := hheld
      have hinv' : c'.Inv := (step_post hinv hcount hen).result hstep
      obtain ⟨node', hp', -⟩ := hinv'.of_mem_queue hrest.mem
      cases step_popStateless hk hp hstep with
      | freed _ heq =>
        rw [heq] at hp'
        have hnone : (freeNode { c with queue := c.queue.eraseIdx k } p).heap p = none :=
          update_self _ _ _
        rw [hnone] at hp'
        cases hp'
      | continues hfree => exact hfree hstate
      | burst hfree => exact hfree hstate
      | next hfree => exact hfree hstate
      | ended hfree => exact hfree hstate
    | ssACTIVE =>
      have hexists : ∃ n, ¬ HeldFor p T n node := by
        cases htype : node.streamType with
        | stCONTINUOUS => exact exists_not_heldFor_continuous hrated htype
        | stSINGLE_BURST => exact absurd htype (hinv.node p node hp).type
        | stMULTI_BURST =>
          obtain ⟨info, hinfo⟩ := (hinv.node p node hp).info (by rw [hstate]; decide)
          exact Sending.exists_not_heldFor ⟨hrated, htype, hstate, hinfo⟩
      obtain ⟨n, hn⟩ := hexists
      exact ⟨n, fun hheld => hn (heldFor_of_held hinv hcount hp hstate hheld)⟩
  · exact ⟨1, fun hheld => hmem hheld.mem⟩

end TrexStatelessDpCore

end Trex.Dp
