/-
# The map of the flows that wait for their translation

A node is in the map of its thread from the time it is generated until its translation is known or
the responder has to send (`LearnInv.exact`).  The invariant is kept by every event:

* a node that waits has a packet of the responder ahead (`NodeOk.ahead`), so it never comes to the
  end of its flow while it is in the map;
* the option of a flow is sent after its node left the first state (`LearnInv.sent`), so a message,
  also a late one, finds a node that waits or none;
* the flow numbers do not come again, as long as there are fewer than `2 ^ 32` of them.
-/
import Trex.Flow.NatLearn

namespace Trex.Flow

open Trex.Lib List
open Function (update update_of_ne update_self)

/-! ## 1. Flow numbers -/

/-- The number of the thread is above the bits of the short number. -/
theorem nodeFlowId_toUInt32 (flowId : UInt64) (threadId : UInt8) :
    (nodeFlowId flowId threadId).toUInt32 = flowId.toUInt32 := by
  apply UInt32.toBitVec_inj.mp
  apply BitVec.eq_of_getLsbD_eq
  intro i hi
  -- the mask keeps the low half
  have hmask : ∀ j (hj : j < 32), (4294967295#32)[j] = true := by decide
  simpa [nodeFlowId, hi] using fun _ => hmask i hi

theorem toUInt32_toNat_of_lt {flowId : UInt64} (h : flowId.toNat < 2 ^ 32) :
    flowId.toUInt32.toNat = flowId.toNat := by
  rw [UInt64.toNat_toUInt32]
  exact Nat.mod_eq_of_lt h

theorem succ_toNat_of_lt {flowId : UInt64} (h : flowId.toNat < 2 ^ 32) :
    (flowId + 1).toNat = flowId.toNat + 1 := by
  rw [UInt64.toNat_add, UInt64.toNat_one]
  omega

/-! ## 2. The packets of a template -/

variable {info : CCapFileFlowInfo} {lp : CFlowPktInfo}

variable {i : Nat}

theorem Ordered.isLastPkt_iff (h : Ordered info) (hlp : info.pkts[i]? = some lp) :
    lp.desc.isLastPkt = true ↔ i + 1 = info.pkts.length := by
  have hi : i < info.pkts.length := (List.getElem?_eq_some_iff.mp hlp).1
  have hmap := congrArg (fun l => l[i]?) h.last
  simp only [List.getElem?_map, hlp, Option.map_some, List.getElem?_range hi, Option.some.injEq]
    at hmap
  rw [hmap, decide_eq_true_iff]

theorem Ordered.isInitSide_zero (h : Ordered info) (hlp : info.pkts[0]? = some lp) :
    lp.desc.isInitSide = true := by
  refine h.first lp ?_
  rw [List.head?_eq_getElem?]
  exact hlp

/-- A sub-flow with both directions has a packet of the responder. -/
theorem WellNumbered.responder (h : WellNumbered info) (hlp : lp ∈ info.pkts)
    (hbi : lp.desc.isBiDirectionalFlow = true) :
    ∃ (j : Nat) (lq : CFlowPktInfo), info.pkts[j]? = some lq ∧ lq.desc.isInitSide = false := by
  rw [h.biDir lp hlp, Bool.and_eq_true, decide_eq_true_iff] at hbi
  obtain ⟨lq, hlq⟩ := exists_mem_of_length_pos hbi.1
  obtain ⟨hmem, hside⟩ := mem_ofClass.mp hlq
  obtain ⟨j, hj⟩ := List.getElem?_of_mem hmem
  exact ⟨j, lq, hj, congrArg Prod.snd hside⟩

section Learn

variable {κ : Type} [DecidableEq κ]

theorem LearnTemplate.ordered (tmpl : LearnTemplate κ) :
    Ordered tmpl.info := loadTemplate_ordered tmpl.loaded

theorem LearnTemplate.wellNumbered (tmpl : LearnTemplate κ) : WellNumbered tmpl.info :=
  loadTemplate_wellNumbered tmpl.loaded

/-! ## 3. The invariant -/

/-- **A node waits for its translation**: it was associated, and no message came yet. -/
def CGenNode.Waiting (node : CGenNode κ) : Prop := node.type = .flowPktNat

instance (node : CGenNode κ) : Decidable node.Waiting := inferInstanceAs (Decidable (_ = _))

/-- What holds of a live node by itself. -/
structure NodeOk (node : CGenNode κ) : Prop where
  bound : node.pktInfo < node.template.info.pkts.length
  state : node.Waiting → (node.natState = .first ∧ node.pktInfo = 0) ∨ node.natState = .wait
  ahead : node.Waiting → ∃ (j : Nat) (lq : CFlowPktInfo), node.pktInfo ≤ j ∧
    node.template.info.pkts[j]? = some lq ∧ lq.desc.isInitSide = false

/-- **The map holds exactly the live nodes that wait.** -/
def LookupExact (s : LearnThread κ) : Prop :=
  ∀ (fid : UInt32) (p : Nat), s.lookup.lookup fid = some p ↔
    ∃ node, s.node p = some node ∧ node.Waiting ∧ node.getShortFid = fid

/-- **What holds of a thread in learn mode.** -/
structure LearnInv (s : LearnThread κ) : Prop where
  exact : LookupExact s
  count : s.stats.natLookupAddFlowId = s.stats.natLookupRemoveFlowId + s.lookup.keys.length
  live : ∀ p, p ∈ s.queue ↔ (s.node p).isSome
  nodup : s.queue.Nodup
  ok : ∀ {p node}, s.node p = some node → NodeOk node
  thread : ∀ {p node}, s.node p = some node → node.threadId = s.threadId
  fid_lt : ∀ {p node}, s.node p = some node → node.getShortFid.toNat < s.curFlowId.toNat
  inj : ∀ {p q node node'}, s.node p = some node → s.node q = some node' →
    node.getShortFid = node'.getShortFid → p = q
  sent_lt : ∀ {fid}, CNatOption.mk s.threadId fid ∈ s.wire → fid.toNat < s.curFlowId.toNat
  sent : ∀ {fid p node}, CNatOption.mk s.threadId fid ∈ s.wire → s.node p = some node →
    node.Waiting → node.getShortFid = fid → node.natState = .wait
  msgs : ∀ m ∈ s.ring.flatten ++ s.curNatMsg.getD [], CNatOption.mk s.threadId m.fid ∈ s.wire

theorem LearnInv.init (threadId : UInt8) (learnVerifyMode : Bool) :
    LearnInv ({ threadId, learnVerifyMode } : LearnThread κ) where
  exact fid p := by
    constructor
    · intro h
      cases h
    · rintro ⟨node, h, -⟩
      cases h
  count := rfl
  live p := by simp
  nodup := nodup_nil
  ok h := by cases h
  thread h := by cases h
  fid_lt h := by cases h
  inj h := by cases h
  sent_lt h := by cases h
  sent h := by cases h
  msgs m h := by cases h

/-! ## 4. One node changes -/

/-- What a step may make of a live node. -/
structure Follows (node node' : CGenNode κ) : Prop where
  ok : NodeOk node'
  thread : node'.threadId = node.threadId
  fid : node'.getShortFid = node.getShortFid
  waiting : node'.Waiting → node.Waiting
  state : node'.Waiting → node.natState = .wait → node'.natState = .wait

/-- The node at `p` leaves the map. -/
def Leaves (node : CGenNode κ) (new : Option (CGenNode κ)) : Prop :=
  node.Waiting ∧ ∀ node' ∈ new, ¬ node'.Waiting

/-- What a step leaves as it is. -/
structure SameRest (s s' : LearnThread κ) : Prop where
  threadId : s'.threadId = s.threadId
  curFlowId : s'.curFlowId = s.curFlowId
  add : s'.stats.natLookupAddFlowId = s.stats.natLookupAddFlowId
  wire : s'.wire = s.wire
  ring : s'.ring = s.ring
  curNatMsg : s'.curNatMsg = s.curNatMsg

variable {s : LearnThread κ} {p : Nat} {node : CGenNode κ}

variable {s' : LearnThread κ} {option : CNatOption}

/-- The map after the node at `p` changed: its entry goes when the node does not wait any more. -/
theorem lookupExact_change (h : LearnInv s) (hp : s.node p = some node)
    {new : Option (CGenNode κ)} (hnew : ∀ node' ∈ new, Follows node node')
    (hnode : s'.node = update s.node p new)
    (hleaves : Leaves node new → s'.lookup = s.lookup.erase node.getShortFid)
    (hstays : ¬ Leaves node new → s'.lookup = s.lookup) : LookupExact s' := by
  intro fid q
  rw [hnode]
  by_cases hq : q = p
  · subst hq
    rw [update_self]
    by_cases hl : Leaves node new
    · rw [hleaves hl]
      constructor
      · intro hlook
        by_cases hfid : fid = node.getShortFid
        · rw [hfid, AList.lookup_erase] at hlook
          cases hlook
        · rw [AList.lookup_erase_ne hfid] at hlook
          obtain ⟨node1, hnode1, -, hfid1⟩ := (h.exact fid q).mp hlook
          rw [hp] at hnode1
          cases hnode1
          exact absurd hfid1.symm hfid
      · rintro ⟨node', hmem, hw, -⟩
        exact absurd hw (hl.2 node' hmem)
    · rw [hstays hl, h.exact]
      constructor
      · rintro ⟨node1, hnode1, hw, hfid⟩
        rw [hp] at hnode1
        cases hnode1
        -- the node waits and does not leave, so the new one waits
        have hex : ∃ node' ∈ new, node'.Waiting := by
          by_contra hno
          exact hl ⟨hw, fun node' hmem hw' => hno ⟨node', hmem, hw'⟩⟩
        obtain ⟨node', hmem, hw'⟩ := hex
        exact ⟨node', hmem, hw', (hnew node' hmem).fid.trans hfid⟩
      · rintro ⟨node', hmem, hw, hfid⟩
        exact ⟨node, hp, (hnew node' hmem).waiting hw, (hnew node' hmem).fid ▸ hfid⟩
  · rw [update_of_ne hq]
    rw [← h.exact]
    by_cases hl : Leaves node new
    · rw [hleaves hl]
      by_cases hfid : fid = node.getShortFid
      · subst hfid
        rw [AList.lookup_erase]
        constructor
        · intro hnone
          cases hnone
        · intro hlook
          obtain ⟨node1, hnode1, -, hfid1⟩ := (h.exact _ q).mp hlook
          exact absurd (h.inj hnode1 hp hfid1) hq
      · rw [AList.lookup_erase_ne hfid]
    · rw [hstays hl]

/-- The entry of a node that waits is one of the map. -/
theorem length_keys_erase (h : LearnInv s) (hp : s.node p = some node) (hw : node.Waiting) :
    (s.lookup.erase node.getShortFid).keys.length + 1 = s.lookup.keys.length := by
  have hlook : s.lookup.lookup node.getShortFid = some p := (h.exact _ p).mpr ⟨node, hp, hw, rfl⟩
  have hmem : node.getShortFid ∈ s.lookup.keys := by
    rw [← AList.mem_keys, ← AList.lookup_isSome, hlook]
    rfl
  rw [AList.keys_erase, length_erase_of_mem hmem]
  have := length_pos_of_mem hmem
  omega

/-- The queue after the node at `p` was handled: the node is in it again, or not. -/
def QueueAfter (s : LearnThread κ) (p : Nat) (again : Bool) (queue : List Nat) : Prop :=
  queue.Nodup ∧ ∀ q, q ∈ queue ↔ (q = p ∧ again = true) ∨ (q ≠ p ∧ q ∈ s.queue)

/-- **A node is written or freed**, and leaves the map when it does not wait any more. -/
theorem LearnInv.change (h : LearnInv s) (hp : s.node p = some node) (new : Option (CGenNode κ))
    (hnew : ∀ node' ∈ new, Follows node node') (hrest : SameRest s s')
    (hnode : s'.node = update s.node p new) (hqueue : QueueAfter s p new.isSome s'.queue)
    (hleaves : Leaves node new → s'.lookup = s.lookup.erase node.getShortFid ∧
      s'.stats.natLookupRemoveFlowId = s.stats.natLookupRemoveFlowId + 1)
    (hstays : ¬ Leaves node new → s'.lookup = s.lookup ∧
      s'.stats.natLookupRemoveFlowId = s.stats.natLookupRemoveFlowId) : LearnInv s' := by
  have hcases : ∀ {q node'}, s'.node q = some node' →
      (q = p ∧ node' ∈ new) ∨ (q ≠ p ∧ s.node q = some node') := by
    intro q node' hq
    rw [hnode] at hq
    by_cases hqp : q = p
    · subst hqp
      rw [update_self] at hq
      exact Or.inl ⟨rfl, hq⟩
    · rw [update_of_ne hqp] at hq
      exact Or.inr ⟨hqp, hq⟩
  -- the short number of the node at an address is the one it had before
  have hold : ∀ {q node'}, s'.node q = some node' → ∃ node0, s.node q = some node0 ∧
      node'.getShortFid = node0.getShortFid ∧ node'.threadId = node0.threadId := by
    intro q node' hq
    rcases hcases hq with ⟨rfl, hmem⟩ | ⟨-, hq'⟩
    · exact ⟨node, hp, (hnew node' hmem).fid, (hnew node' hmem).thread⟩
    · exact ⟨node', hq', rfl, rfl⟩
  refine ⟨lookupExact_change h hp hnew hnode (fun hl => (hleaves hl).1) (fun hl => (hstays hl).1),
    ?_, ?_, hqueue.1, ?_, ?_, ?_, ?_, ?_, ?_, ?_⟩
  · have hcount := h.count
    rw [hrest.add]
    by_cases hl : Leaves node new
    · rw [(hleaves hl).1, (hleaves hl).2]
      have := length_keys_erase h hp hl.1
      omega
    · rw [(hstays hl).1, (hstays hl).2]
      exact hcount
  · intro q
    rw [hqueue.2, hnode]
    by_cases hq : q = p
    · subst hq
      rw [update_self]
      exact ⟨fun h' => h'.elim And.right fun h'' => absurd rfl h''.1, fun h' => Or.inl ⟨rfl, h'⟩⟩
    · rw [update_of_ne hq, ← h.live q]
      exact ⟨fun h' => h'.elim (fun h'' => absurd h''.1 hq) And.right, fun h' => Or.inr ⟨hq, h'⟩⟩
  · intro q node' hq
    rcases hcases hq with ⟨-, hmem⟩ | ⟨-, hq'⟩
    · exact (hnew node' hmem).ok
    · exact h.ok hq'
  · intro q node' hq
    obtain ⟨node0, hq0, -, hthread⟩ := hold hq
    rw [hthread, hrest.threadId]
    exact h.thread hq0
  · intro q node' hq
    obtain ⟨node0, hq0, hfid, -⟩ := hold hq
    rw [hfid, hrest.curFlowId]
    exact h.fid_lt hq0
  · intro q q' node1 node2 hq hq' heq
    obtain ⟨node1', h1, hfid1, -⟩ := hold hq
    obtain ⟨node2', h2, hfid2, -⟩ := hold hq'
    exact h.inj h1 h2 (hfid1 ▸ hfid2 ▸ heq)
  · intro fid hmem
    rw [hrest.wire, hrest.threadId] at hmem
    rw [hrest.curFlowId]
    exact h.sent_lt hmem
  · intro fid q node' hmem hq hw hfid
    rw [hrest.wire, hrest.threadId] at hmem
    rcases hcases hq with ⟨rfl, hin⟩ | ⟨-, hq'⟩
    · have hf := hnew node' hin
      exact hf.state hw (h.sent hmem hp (hf.waiting hw) (hf.fid ▸ hfid))
    · exact h.sent hmem hq' hw hfid
  · rw [hrest.ring, hrest.curNatMsg, hrest.threadId, hrest.wire]
    exact h.msgs

/-- The queue after a node was popped. -/
theorem queueAfter_pop (h : LearnInv s) (hi : s.queue[i]? = some p) :
    QueueAfter s p false (s.queue.eraseIdx i) := by
  obtain ⟨hlt, rfl⟩ := List.getElem?_eq_some_iff.mp hi
  rw [← h.nodup.erase_getElem i hlt]
  constructor
  · exact h.nodup.erase _
  · intro q
    rw [h.nodup.mem_erase_iff]
    simp

/-- The queue after a node was popped, and pushed again. -/
theorem queueAfter_push (h : LearnInv s) (hi : s.queue[i]? = some p) :
    QueueAfter s p true (p :: s.queue.eraseIdx i) := by
  obtain ⟨hnodup, hmem⟩ := queueAfter_pop h hi
  constructor
  · refine nodup_cons.mpr ⟨fun hin => ?_, hnodup⟩
    simp [hmem] at hin
  · intro q
    rw [mem_cons, hmem]
    simp

/-- **A packet with an option is sent**, by this thread or another. -/
theorem LearnInv.send (h : LearnInv s)
    (hlt : option.threadId = s.threadId → option.fid.toNat < s.curFlowId.toNat)
    (hwait : ∀ {p node}, option.threadId = s.threadId → s.node p = some node → node.Waiting →
      node.getShortFid = option.fid → node.natState = .wait) :
    LearnInv { s with wire := s.wire ++ [option] } where
  exact := h.exact
  count := h.count
  live := h.live
  nodup := h.nodup
  ok := h.ok
  thread := h.thread
  fid_lt := h.fid_lt
  inj := h.inj
  sent_lt hmem := by
    rcases mem_append.mp hmem with hmem | hmem
    · exact h.sent_lt hmem
    · have heq := mem_singleton.mp hmem
      rw [← heq] at hlt
      exact hlt rfl
  sent hmem hp hw hfid := by
    rcases mem_append.mp hmem with hmem | hmem
    · exact h.sent hmem hp hw hfid
    · have heq := mem_singleton.mp hmem
      rw [← heq] at hwait
      exact hwait rfl hp hw hfid
  msgs m hm := mem_append_left _ (h.msgs m hm)

/-! ## 5. The packets of a flow -/

@[simp] theorem flushOneNode_node (s : LearnThread κ) (node : CGenNode κ) (lp : CFlowPktInfo) :
    (flushOneNode s node lp).node = s.node := by
  unfold flushOneNode
  split <;> rfl

@[simp] theorem flushOneNode_queue (s : LearnThread κ) (node : CGenNode κ) (lp : CFlowPktInfo) :
    (flushOneNode s node lp).queue = s.queue := by
  unfold flushOneNode
  split <;> rfl

/-- A packet is sent, and no node of its flow is in the first state. -/
theorem LearnInv.flush (h : LearnInv s) (lp : CFlowPktInfo)
    (hlt : node.getShortFid.toNat < s.curFlowId.toNat)
    (hwait : ∀ {p node'}, s.node p = some node' → node'.Waiting →
      node'.getShortFid = node.getShortFid → node'.natState = .wait) :
    LearnInv (flushOneNode s node lp) := by
  unfold flushOneNode
  split
  · exact h.send (fun _ => hlt) fun _ => hwait
  · exact h

/-- The packet of a live node. -/
theorem pktOf_ok (h : NodeOk node) :
    ∃ lp, pktOf node = .ok lp ∧ node.template.info.pkts[node.pktInfo]? = some lp := by
  have hget := List.getElem?_eq_getElem h.bound
  refine ⟨_, ?_, hget⟩
  rw [pktOf, hget]

theorem pktOf_eq (h : node.template.info.pkts[node.pktInfo]? = some lp) : pktOf node = .ok lp := by
  rw [pktOf, h]

/-- There is a packet after one that is not the last. -/
theorem succ_lt_of_not_last (h : NodeOk node)
    (hlp : node.template.info.pkts[node.pktInfo]? = some lp) (hlast : lp.desc.isLastPkt = false) :
    node.pktInfo + 1 < node.template.info.pkts.length := by
  have hne : ¬ node.pktInfo + 1 = node.template.info.pkts.length := by
    rw [← node.template.ordered.isLastPkt_iff hlp, hlast]
    exact Bool.false_ne_true
  have := h.bound
  omega

/-- A node that does not wait stays so. -/
theorem Follows.of_flowPkt {node' : CGenNode κ} (htype : ¬ node'.Waiting)
    (hbound : node'.pktInfo < node'.template.info.pkts.length)
    (hthread : node'.threadId = node.threadId) (hflow : node'.flowId = node.flowId) :
    Follows node node' where
  ok := ⟨hbound, fun hw => absurd hw htype, fun hw => absurd hw htype⟩
  thread := hthread
  fid := congrArg UInt64.toUInt32 hflow
  waiting hw := absurd hw htype
  state hw := absurd hw htype

/-- **A node that does not wait sends a packet.** -/
theorem handlePkt_ok (h : LearnInv s) (always : Bool) (hi : s.queue[i]? = some p)
    (hp : s.node p = some node) (htype : ¬ node.Waiting) :
    ∃ s', handlePkt s i p node always = .ok s' ∧ LearnInv s' ∧ s'.curFlowId = s.curFlowId := by
  obtain ⟨lp, hpkt, hlp⟩ := pktOf_ok (h.ok hp)
  simp only [handlePkt, hpkt, ok_bind]
  -- a node that waits has another number
  have hflush : LearnInv (flushOneNode s node lp) := by
    refine h.flush lp (h.fid_lt hp) ?_
    intro q node' hq hw hfid
    have hqp := h.inj hq hp hfid
    subst hqp
    rw [hp] at hq
    cases hq
    exact absurd hw htype
  obtain ⟨s1, hs1, hinv, hnode, hqueue, hcur⟩ : ∃ s1 : LearnThread κ,
      (if (!node.template.limitWasSet || !always) = true then flushOneNode s node lp else s) = s1 ∧
        LearnInv s1 ∧ s1.node = s.node ∧ s1.queue = s.queue ∧ s1.curFlowId = s.curFlowId := by
    split
    · refine ⟨_, rfl, hflush, flushOneNode_node s node lp, flushOneNode_queue s node lp, ?_⟩
      unfold flushOneNode
      split <;> rfl
    · exact ⟨s, rfl, h, rfl, rfl, rfl⟩
  rw [hs1]
  rw [← hqueue] at hi
  rw [← hnode] at hp
  have hstays : ∀ new, ¬ Leaves node new := fun new hl => htype hl.1
  split
  · split
    · refine ⟨_, rfl, hinv.change hp (some node.resetPktInFlow) ?_ ⟨rfl, rfl, rfl, rfl, rfl,
        rfl⟩ rfl
        (queueAfter_push hinv hi) (fun hl => absurd hl (hstays _)) (fun _ => ⟨rfl, rfl⟩), hcur⟩
      rintro node' ⟨⟩
      have hbound := (hinv.ok hp).bound
      exact Follows.of_flowPkt htype (Nat.zero_lt_of_lt hbound) rfl rfl
    · exact ⟨_, rfl, hinv.change hp none (fun _ hn => by cases hn)
        ⟨rfl, rfl, rfl, rfl, rfl, rfl⟩ rfl
        (queueAfter_pop hinv hi) (fun hl => absurd hl (hstays _)) (fun _ => ⟨rfl, rfl⟩), hcur⟩
  · rename_i hlast
    refine ⟨_, rfl, hinv.change hp (some node.updateNextPktInFlow) ?_ ⟨rfl, rfl, rfl, rfl, rfl,
      rfl⟩ rfl
      (queueAfter_push hinv hi) (fun hl => absurd hl (hstays _)) (fun _ => ⟨rfl, rfl⟩), hcur⟩
    rintro node' ⟨⟩
    refine Follows.of_flowPkt htype ?_ rfl rfl
    exact succ_lt_of_not_last (hinv.ok hp) hlp (Bool.eq_false_iff.mpr hlast)

/-- The responder's packet that is ahead is not this one, so this one is not the last. -/
theorem ahead_of_initSide (h : NodeOk node) (hw : node.Waiting)
    (hlp : node.template.info.pkts[node.pktInfo]? = some lp) (hinit : lp.desc.isInitSide = true) :
    ∃ (j : Nat) (lq : CFlowPktInfo), node.pktInfo + 1 ≤ j ∧
      node.template.info.pkts[j]? = some lq ∧ lq.desc.isInitSide = false := by
  obtain ⟨j, lq, hj, hlq, hresp⟩ := h.ahead hw
  refine ⟨j, lq, ?_, hlq, hresp⟩
  have hne : node.pktInfo ≠ j := by
    rintro rfl
    rw [hlp] at hlq
    cases hlq
    rw [hinit] at hresp
    cases hresp
  omega

/-- **A node that waits sends a packet of the initiator.** -/
theorem nextNatPkt_inv (h : LearnInv s) (hi : s.queue[i]? = some p) (hp : s.node p = some node)
    (hw : node.Waiting) (hlp : node.template.info.pkts[node.pktInfo]? = some lp)
    (hinit : lp.desc.isInitSide = true) :
    LearnInv (nextNatPkt s i p node.setNatWaitState lp) ∧
      (nextNatPkt s i p node.setNatWaitState lp).curFlowId = s.curFlowId := by
  obtain ⟨j, lq, hj, hlq, hresp⟩ := ahead_of_initSide (h.ok hp) hw hlp hinit
  have hjlt : j < node.template.info.pkts.length := (List.getElem?_eq_some_iff.mp hlq).1
  have hlast : ¬ lp.desc.isLastPkt = true := by
    rw [node.template.ordered.isLastPkt_iff hlp]
    omega
  -- the node is in the wait state before the packet is sent
  let s1 : LearnThread κ :=
    { s.setNode p node.setNatWaitState.updateNextPktInFlow with queue := p :: s.queue.eraseIdx i }
  have hfollows : Follows node node.setNatWaitState.updateNextPktInFlow :=
    ⟨⟨by dsimp only [CGenNode.updateNextPktInFlow, CGenNode.setNatWaitState]; omega, fun _ =>
      Or.inr rfl, fun _ => ⟨j, lq, hj, hlq, hresp⟩⟩, rfl, rfl, fun _ => hw, fun _ _ => rfl⟩
  have h1 : LearnInv s1 := by
    refine h.change hp (some node.setNatWaitState.updateNextPktInFlow) ?_
      ⟨rfl, rfl, rfl, rfl, rfl, rfl⟩ rfl (queueAfter_push h hi) ?_ (fun _ => ⟨rfl, rfl⟩)
    · rintro node' ⟨⟩
      exact hfollows
    · intro hl
      exact absurd hw (hl.2 node.setNatWaitState.updateNextPktInFlow rfl)
  have hnext : nextNatPkt s i p node.setNatWaitState lp =
      flushOneNode s1 node.setNatWaitState lp := by
    simp only [nextNatPkt, if_neg hlast]
    unfold flushOneNode
    split <;> rfl
  rw [hnext]
  constructor
  · have hlt := h.fid_lt hp
    refine h1.flush lp hlt ?_
    intro q node' hq hw' hfid
    have hself : s1.node p = some node.setNatWaitState.updateNextPktInFlow := update_self ..
    have hqp := h1.inj hq hself hfid
    subst hqp
    rw [hself] at hq
    cases hq
    rfl
  · unfold flushOneNode
    split <;> rfl

/-- **A node that waits is handled**: it sends a packet of the initiator, or its time is out. -/
theorem handleNatPkt_ok (h : LearnInv s) (hi : s.queue[i]? = some p) (hp : s.node p = some node)
    (hw : node.Waiting) :
    ∃ s', handleNatPkt s i p node = .ok s' ∧ LearnInv s' ∧ s'.curFlowId = s.curFlowId := by
  obtain ⟨lp, hpkt, hlp⟩ := pktOf_ok (h.ok hp)
  simp only [handleNatPkt, hpkt, ok_bind]
  rcases (h.ok hp).state hw with ⟨hstate, hzero⟩ | hstate
  · have hinit : lp.desc.isInitSide = true := by
      rw [hzero] at hlp
      exact node.template.ordered.isInitSide_zero hlp
    rw [hstate]
    exact ⟨_, rfl, nextNatPkt_inv h hi hp hw hlp hinit⟩
  · rw [hstate]
    dsimp only
    split
    · rename_i hinit
      have hself : node = node.setNatWaitState := by
        cases node
        cases hstate
        rfl
      have hnext := nextNatPkt_inv h hi hp hw hlp hinit
      rw [← hself] at hnext
      exact ⟨_, rfl, hnext⟩
    · refine ⟨_, rfl, ?_, rfl⟩
      refine h.change hp none (fun _ hn => by cases hn) ⟨rfl, rfl, rfl, rfl, rfl, rfl⟩ rfl
        (queueAfter_pop h hi) (fun _ => ⟨rfl, rfl⟩) ?_
      intro hl
      exact absurd ⟨hw, fun _ hn => by cases hn⟩ hl

/-- **The scheduler handles a node.** -/
theorem handleNode_ok (h : LearnInv s) (i : Nat) (always : Bool) :
    ∃ s', handleNode s i always = .ok s' ∧ LearnInv s' ∧ s'.curFlowId = s.curFlowId := by
  unfold handleNode
  cases hi : s.queue[i]? with
  | none => exact ⟨s, rfl, h, rfl⟩
  | some p =>
    have hlive : (s.node p).isSome := (h.live p).mp (mem_of_getElem? hi)
    obtain ⟨node, hp⟩ := Option.isSome_iff_exists.mp hlive
    have hderef : deref s p = .ok node := by rw [deref, hp]
    simp only [hderef, ok_bind]
    cases htype : node.type with
    | flowPkt =>
      have hw : ¬ node.Waiting := by
        intro hw
        rw [CGenNode.Waiting, htype] at hw
        cases hw
      exact handlePkt_ok h always hi hp hw
    | flowPktNat => exact handleNatPkt_ok h hi hp htype

/-! ## 6. Messages -/

/-- **One translation**: the node that it finds is live and waits, and it leaves the map. -/
theorem handelNatInfo_ok (h : LearnInv s) (msg : CNatFlowInfo)
    (hsent : CNatOption.mk s.threadId msg.fid ∈ s.wire) :
    ∃ s', handelNatInfo s msg = .ok s' ∧ LearnInv s' ∧ s'.curFlowId = s.curFlowId ∧
      s'.wire = s.wire ∧ s'.threadId = s.threadId := by
  unfold handelNatInfo
  cases hlook : s.lookup.lookup msg.fid with
  | none =>
    exact ⟨_, rfl, ⟨h.exact, h.count, h.live, h.nodup, h.ok, h.thread, h.fid_lt, h.inj, h.sent_lt,
      h.sent, h.msgs⟩, rfl, rfl, rfl⟩
  | some p =>
    obtain ⟨node, hp, hw, hfid⟩ := (h.exact msg.fid p).mp hlook
    have hwait : node.natState = .wait := h.sent hsent hp hw hfid
    have hderef : deref s p = .ok node := by rw [deref, hp]
    simp only [hderef, ok_bind, hwait, ne_eq, not_true_eq_false, ↓reduceIte]
    refine ⟨_, rfl, ?_, rfl, rfl, rfl⟩
    have hnot : ∀ node' : CGenNode κ, ¬ node'.setNatLearnState.Waiting := by
      intro node' hw'
      cases hw'
    refine h.change hp (some (CGenNode.setNatLearnState _)) ?_ ⟨rfl, rfl, rfl, rfl, rfl,
      rfl⟩ rfl ?_ ?_ ?_
    · rintro node' ⟨⟩
      exact Follows.of_flowPkt (hnot _) (h.ok hp).bound rfl rfl
    · have hmem : p ∈ s.queue := (h.live p).mpr (by rw [hp]; rfl)
      refine ⟨h.nodup, fun q => ?_⟩
      by_cases hq : q = p
      · simp [hq, LearnThread.setNode, hmem]
      · simp [hq, LearnThread.setNode]
    · intro _
      rw [hfid]
      exact ⟨rfl, rfl⟩
    · intro hl
      refine absurd ⟨hw, ?_⟩ hl
      rintro node' ⟨⟩
      exact hnot _

/-- **One message.** -/
theorem handelNatMsg_ok (msg : List CNatFlowInfo) (h : LearnInv s)
    (hsent : ∀ m ∈ msg, CNatOption.mk s.threadId m.fid ∈ s.wire) :
    ∃ s', handelNatMsg s msg = .ok s' ∧ LearnInv s' ∧ s'.curFlowId = s.curFlowId ∧
      s'.wire = s.wire ∧ s'.threadId = s.threadId := by
  induction msg generalizing s with
  | nil => exact ⟨s, rfl, h, rfl, rfl, rfl⟩
  | cons m rest ih =>
    obtain ⟨s1, hrun, h1, hcur, hwire, hthread⟩ := handelNatInfo_ok h m (hsent m mem_cons_self)
    have hrest : ∀ m' ∈ rest, CNatOption.mk s1.threadId m'.fid ∈ s1.wire := by
      rw [hwire, hthread]
      exact fun m' hm' => hsent m' (mem_cons_of_mem _ hm')
    obtain ⟨s2, hrun2, h2, hcur2, hwire2, hthread2⟩ := ih h1 hrest
    refine ⟨s2, ?_, h2, hcur2.trans hcur, hwire2.trans hwire, hthread2.trans hthread⟩
    simp only [handelNatMsg, foldlM_cons, hrun, ok_bind]
    exact hrun2

/-- **The messages of the ring.** -/
theorem handelNatMsgs_ok (msgs : List (List CNatFlowInfo)) (h : LearnInv s)
    (hsent : ∀ msg ∈ msgs, ∀ m ∈ msg, CNatOption.mk s.threadId m.fid ∈ s.wire) :
    ∃ s', msgs.foldlM handelNatMsg s = .ok s' ∧ LearnInv s' ∧ s'.curFlowId = s.curFlowId := by
  induction msgs generalizing s with
  | nil => exact ⟨s, rfl, h, rfl⟩
  | cons msg rest ih =>
    obtain ⟨s1, hrun, h1, hcur, hwire, hthread⟩ := handelNatMsg_ok msg h (hsent msg mem_cons_self)
    have hrest : ∀ msg' ∈ rest, ∀ m ∈ msg', CNatOption.mk s1.threadId m.fid ∈ s1.wire := by
      rw [hwire, hthread]
      exact fun msg' hmsg' => hsent msg' (mem_cons_of_mem _ hmsg')
    obtain ⟨s2, hrun2, h2, hcur2⟩ := ih h1 hrest
    refine ⟨s2, ?_, h2, hcur2.trans hcur⟩
    rw [foldlM_cons, hrun, ok_bind]
    exact hrun2

theorem checkMsgs_ok (h : LearnInv s) :
    ∃ s', checkMsgs s = .ok s' ∧ LearnInv s' ∧ s'.curFlowId = s.curFlowId := by
  have hempty : LearnInv { s with ring := [] } :=
    ⟨h.exact, h.count, h.live, h.nodup, h.ok, h.thread, h.fid_lt, h.inj, h.sent_lt, h.sent,
      fun m hm => h.msgs m (mem_append_right _ hm)⟩
  refine handelNatMsgs_ok s.ring hempty ?_
  intro msg hmsg m hm
  exact h.msgs m (mem_append_left _ (mem_flatten.mpr ⟨msg, hmsg, hm⟩))

/-- The messages may be moved, and new ones may be about packets that were sent. -/
theorem LearnInv.withMsgs (h : LearnInv s) (curNatMsg : Option (List CNatFlowInfo))
    (ring : List (List CNatFlowInfo))
    (hmsgs : ∀ m ∈ ring.flatten ++ curNatMsg.getD [], CNatOption.mk s.threadId m.fid ∈ s.wire) :
    LearnInv { s with curNatMsg, ring } :=
  ⟨h.exact, h.count, h.live, h.nodup, h.ok, h.thread, h.fid_lt, h.inj, h.sent_lt, h.sent, hmsgs⟩

theorem flushNode_inv (h : LearnInv s) : LearnInv (flushNode s) := by
  unfold flushNode
  cases hcur : s.curNatMsg with
  | none => exact h
  | some msg =>
    refine h.withMsgs none (s.ring ++ [msg]) ?_
    have hmsgs := h.msgs
    rw [hcur] at hmsgs
    simpa using hmsgs

/-- **The RX core receives a packet that was sent.** -/
theorem handlePacketIpv4_inv (h : LearnInv s) (ipv4 : RxPacket) (hsent : option ∈ s.wire) :
    LearnInv (handlePacketIpv4 s option ipv4) := by
  unfold handlePacketIpv4
  split
  · exact h
  · rename_i hthread
    split
    · exact h
    · have hself : CNatOption.mk s.threadId option.fid ∈ s.wire := by
        rw [← not_not.mp hthread]
        exact hsent
      have hmsg : ∀ m ∈ s.ring.flatten ++ (s.curNatMsg.getD [] ++
          [CNatFlowInfo.mk ipv4.sourceIp ipv4.destIp option.fid ipv4.sourcePort]),
          CNatOption.mk s.threadId m.fid ∈ s.wire := by
        intro m hm
        rw [← append_assoc] at hm
        rcases mem_append.mp hm with hm | hm
        · exact h.msgs m hm
        · cases mem_singleton.mp hm
          exact hself
      dsimp only
      split
      · exact flushNode_inv (h.withMsgs (some _) s.ring hmsg)
      · exact h.withMsgs (some _) s.ring hmsg

/-! ## 7. A new flow -/

/-- No node has the number of the next flow. -/
theorem LearnInv.fresh (h : LearnInv s) {fid : UInt32} (hfid : fid.toNat = s.curFlowId.toNat)
    {q : Nat} (hq : s.node q = some node) :
    node.getShortFid ≠ fid := by
  intro heq
  have := h.fid_lt hq
  rw [heq] at this
  omega

/-- The number of the next flow is not in the map. -/
theorem LearnInv.lookup_fresh (h : LearnInv s) {fid : UInt32}
    (hfid : fid.toNat = s.curFlowId.toNat) : s.lookup.lookup fid = none := by
  cases hlook : s.lookup.lookup fid with
  | none => rfl
  | some q =>
    obtain ⟨node, hq, -, heq⟩ := (h.exact fid q).mp hlook
    exact absurd heq (h.fresh hfid hq)

/-- **A node is added**, to the map too when it waits. -/
theorem LearnInv.add (h : LearnInv s) (node : CGenNode κ) (hfree : s.node p = none)
    (hok : NodeOk node) (hthread : node.threadId = s.threadId)
    (hfid : node.getShortFid.toNat = s.curFlowId.toNat)
    (hnext : s'.curFlowId.toNat = s.curFlowId.toNat + 1)
    (hnode : s'.node = update s.node p (some node)) (hqueue : s'.queue = p :: s.queue)
    (hsame : s'.threadId = s.threadId ∧ s'.wire = s.wire ∧ s'.ring = s.ring ∧
      s'.curNatMsg = s.curNatMsg ∧ s'.stats.natLookupRemoveFlowId = s.stats.natLookupRemoveFlowId)
    (hwaits : node.Waiting → s'.lookup = s.lookup.insert node.getShortFid p ∧
      s'.stats.natLookupAddFlowId = s.stats.natLookupAddFlowId + 1)
    (hnot : ¬ node.Waiting → s'.lookup = s.lookup ∧
      s'.stats.natLookupAddFlowId = s.stats.natLookupAddFlowId) : LearnInv s' := by
  obtain ⟨hthread', hwire, hring, hcur, hremove⟩ := hsame
  have hlook := h.lookup_fresh hfid
  have hcases : ∀ {q node'}, s'.node q = some node' →
      (q = p ∧ node' = node) ∨ (q ≠ p ∧ s.node q = some node') := by
    intro q node' hq
    rw [hnode] at hq
    by_cases hqp : q = p
    · subst hqp
      rw [update_self] at hq
      exact Or.inl ⟨rfl, (Option.some.inj hq).symm⟩
    · rw [update_of_ne hqp] at hq
      exact Or.inr ⟨hqp, hq⟩
  have hself : s'.node p = some node := by rw [hnode, update_self]
  have hother : ∀ {q node'}, s.node q = some node' → s'.node q = some node' := by
    intro q node' hq
    have hqp : q ≠ p := by
      rintro rfl
      rw [hfree] at hq
      cases hq
    rw [hnode, update_of_ne hqp]
    exact hq
  refine ⟨?_, ?_, ?_, ?_, ?_, ?_, ?_, ?_, ?_, ?_, ?_⟩
  · intro fid q
    constructor
    · intro hl
      by_cases hw : node.Waiting
      · rw [(hwaits hw).1] at hl
        by_cases hf : fid = node.getShortFid
        · subst hf
          rw [AList.lookup_insert] at hl
          cases hl
          exact ⟨node, hself, hw, rfl⟩
        · rw [AList.lookup_insert_ne hf] at hl
          obtain ⟨node', hq, hrest⟩ := (h.exact fid q).mp hl
          exact ⟨node', hother hq, hrest⟩
      · rw [(hnot hw).1] at hl
        obtain ⟨node', hq, hrest⟩ := (h.exact fid q).mp hl
        exact ⟨node', hother hq, hrest⟩
    · rintro ⟨node', hq, hw', hf⟩
      rcases hcases hq with ⟨rfl, rfl⟩ | ⟨-, hq'⟩
      · rw [(hwaits hw').1, ← hf, AList.lookup_insert]
      · have hne : fid ≠ node.getShortFid := fun heq => h.fresh hfid hq' (hf.trans heq)
        have hl := (h.exact fid q).mpr ⟨node', hq', hw', hf⟩
        by_cases hw : node.Waiting
        · rw [(hwaits hw).1, AList.lookup_insert_ne hne]
          exact hl
        · rw [(hnot hw).1]
          exact hl
  · have hcount := h.count
    rw [hremove]
    by_cases hw : node.Waiting
    · have hnotMem : node.getShortFid ∉ s.lookup := AList.lookup_eq_none.mp hlook
      rw [(hwaits hw).1, (hwaits hw).2, AList.keys_insert, length_cons,
        erase_of_not_mem (fun hm => hnotMem (AList.mem_keys.mpr hm))]
      omega
    · rw [(hnot hw).1, (hnot hw).2]
      exact hcount
  · intro q
    rw [hqueue, mem_cons, h.live q, hnode]
    by_cases hq : q = p
    · simp [hq]
    · simp [hq]
  · rw [hqueue]
    refine nodup_cons.mpr ⟨fun hin => ?_, h.nodup⟩
    rw [h.live, hfree] at hin
    cases hin
  · intro q node' hq
    rcases hcases hq with ⟨-, rfl⟩ | ⟨-, hq'⟩
    · exact hok
    · exact h.ok hq'
  · intro q node' hq
    rw [hthread']
    rcases hcases hq with ⟨-, rfl⟩ | ⟨-, hq'⟩
    · exact hthread
    · exact h.thread hq'
  · intro q node' hq
    rw [hnext]
    rcases hcases hq with ⟨-, rfl⟩ | ⟨-, hq'⟩
    · omega
    · exact Nat.lt_succ_of_lt (h.fid_lt hq')
  · intro q q' node1 node2 hq hq' heq
    rcases hcases hq with ⟨rfl, rfl⟩ | ⟨-, h1⟩ <;> rcases hcases hq' with ⟨rfl, rfl⟩ | ⟨-, h2⟩
    · rfl
    · exact absurd heq.symm (h.fresh hfid h2)
    · exact absurd heq (h.fresh hfid h1)
    · exact h.inj h1 h2 heq
  · intro fid hmem
    rw [hwire, hthread'] at hmem
    rw [hnext]
    exact Nat.lt_succ_of_lt (h.sent_lt hmem)
  · intro fid q node' hmem hq hw hf
    rw [hwire, hthread'] at hmem
    rcases hcases hq with ⟨-, rfl⟩ | ⟨-, hq'⟩
    · -- a packet of the new flow was not sent yet
      have := h.sent_lt hmem
      rw [← hf] at this
      omega
    · exact h.sent hmem hq' hw hf
  · rw [hring, hcur, hthread', hwire]
    exact h.msgs

/-- **A flow is generated**: its number is new. -/
theorem generateFlow_ok (h : LearnInv s) (tmpl : LearnTemplate κ) (tuple : CTupleBase)
    (hfree : s.node p = none) (hlt : s.curFlowId.toNat < 2 ^ 32) :
    ∃ s', generateFlow s tmpl tuple p = .ok s' ∧ LearnInv s' ∧ s'.curFlowId = s.curFlowId + 1 := by
  obtain ⟨lp, rest, hpkts⟩ := exists_cons_of_ne_nil tmpl.wellNumbered.nonempty
  have hlp : tmpl.info.pkts[0]? = some lp := by rw [hpkts]; rfl
  have hbound : 0 < tmpl.info.pkts.length := by rw [hpkts]; exact Nat.succ_pos _
  have hshort : (newNode tmpl s.threadId s.curFlowId tuple).getShortFid = s.curFlowId.toUInt32 :=
    nodeFlowId_toUInt32 _ _
  have hfid : s.curFlowId.toUInt32.toNat = s.curFlowId.toNat := toUInt32_toNat_of_lt hlt
  have hnext := succ_toNat_of_lt hlt
  have hpkt : pktOf (newNode tmpl s.threadId s.curFlowId tuple) = .ok lp := pktOf_eq hlp
  simp only [generateFlow, hpkt, ok_bind]
  split
  · rename_i hbi
    have hassoc : (s.lookup.lookup s.curFlowId.toUInt32).isSome = false := by
      rw [h.lookup_fresh hfid]
      rfl
    simp only [associate, hassoc, Bool.false_eq_true, ↓reduceIte, ok_bind]
    refine ⟨_, rfl, h.add (newNode tmpl s.threadId s.curFlowId tuple).setNatFirstState hfree ?_ rfl
      (hshort ▸ hfid) hnext rfl rfl ⟨rfl, rfl, rfl, rfl, rfl⟩ ?_ ?_, rfl⟩
    · refine ⟨hbound, fun _ => Or.inl ⟨rfl, rfl⟩, fun _ => ?_⟩
      obtain ⟨j, lq, hlq, hresp⟩ :=
        tmpl.wellNumbered.responder (mem_of_getElem? hlp) hbi
      exact ⟨j, lq, Nat.zero_le j, hlq, hresp⟩
    · intro _
      refine ⟨?_, rfl⟩
      rw [← hshort]
      rfl
    · intro hw
      exact absurd rfl hw
  · have hnotWaiting : ¬ (newNode tmpl s.threadId s.curFlowId tuple).Waiting := by
      intro hw
      cases hw
    refine ⟨_, rfl, h.add (newNode tmpl s.threadId s.curFlowId tuple) hfree ?_ rfl
      (hshort ▸ hfid) hnext rfl rfl ⟨rfl, rfl, rfl, rfl, rfl⟩ ?_ ?_, rfl⟩
    · exact ⟨hbound, fun hw => absurd hw hnotWaiting, fun hw => absurd hw hnotWaiting⟩
    · intro hw
      exact absurd hw hnotWaiting
    · intro _
      exact ⟨rfl, rfl⟩

/-! ## 8. Runs -/

/-- **One event.** -/
theorem learnStep_ok (h : LearnInv s) (ev : LearnEvent κ)
    (hlt : s.curFlowId.toNat + LearnEvent.flows [ev] ≤ 2 ^ 32) :
    ∃ s', learnStep s ev = .ok s' ∧ LearnInv s' ∧
      s'.curFlowId.toNat ≤ s.curFlowId.toNat + LearnEvent.flows [ev] := by
  cases ev with
  | generate tmpl tuple p =>
    have hlt' : s.curFlowId.toNat < 2 ^ 32 := hlt
    simp only [learnStep]
    split
    · exact ⟨s, rfl, h, Nat.le_add_right _ _⟩
    · rename_i hsome
      obtain ⟨s', hrun, h', hcur⟩ :=
        generateFlow_ok h tmpl tuple (Option.not_isSome_iff_eq_none.mp hsome) hlt'
      refine ⟨s', hrun, h', ?_⟩
      rw [hcur, succ_toNat_of_lt hlt']
      rfl
  | packet i always =>
    obtain ⟨s', hrun, h', hcur⟩ := handleNode_ok h i always
    exact ⟨s', hrun, h', hcur ▸ Nat.le_refl _⟩
  | otherThread option =>
    refine ⟨_, rfl, ?_⟩
    split
    · exact ⟨h, Nat.le_refl _⟩
    · rename_i hother
      exact ⟨h.send (fun heq => absurd heq hother) fun heq => absurd heq hother, Nat.le_refl _⟩
  | receive i ipv4 =>
    simp only [learnStep]
    cases hi : s.wire[i]? with
    | none => exact ⟨s, rfl, h, Nat.le_refl _⟩
    | some option =>
      refine ⟨_, rfl, handlePacketIpv4_inv h ipv4 (mem_of_getElem? hi), ?_⟩
      have hcur : (handlePacketIpv4 s option ipv4).curFlowId = s.curFlowId := by
        simp only [handlePacketIpv4, flushNode]
        split <;> [rfl; split <;> [rfl; split <;> rfl]]
      exact hcur ▸ Nat.le_refl _
  | aging =>
    refine ⟨_, rfl, flushNode_inv h, ?_⟩
    have hcur : (flushNode s).curFlowId = s.curFlowId := by
      unfold flushNode
      split <;> rfl
    exact hcur ▸ Nat.le_refl _
  | checkMsgs =>
    obtain ⟨s', hrun, h', hcur⟩ := checkMsgs_ok h
    exact ⟨s', hrun, h', hcur ▸ Nat.le_refl _⟩

theorem flows_cons (ev : LearnEvent κ) (evs : List (LearnEvent κ)) :
    LearnEvent.flows (ev :: evs) = LearnEvent.flows [ev] + LearnEvent.flows evs := by
  cases ev with
  | generate => exact Nat.add_comm ..
  | packet | otherThread | receive | aging | checkMsgs => exact (Nat.zero_add _).symm

/-- **A run keeps the invariant and meets no fault.** -/
theorem learnRun_inv (evs : List (LearnEvent κ)) (h : LearnInv s)
    (hlt : s.curFlowId.toNat + LearnEvent.flows evs ≤ 2 ^ 32) :
    ∃ s', learnRun s evs = .ok s' ∧ LearnInv s' := by
  induction evs generalizing s with
  | nil => exact ⟨s, rfl, h⟩
  | cons ev evs ih =>
    rw [flows_cons] at hlt
    obtain ⟨s1, hrun, h1, hcur⟩ := learnStep_ok h ev (by omega)
    obtain ⟨s2, hrun2, h2⟩ := ih h1 (by omega)
    refine ⟨s2, ?_, h2⟩
    rw [learnRun, foldlM_cons, hrun, ok_bind]
    exact hrun2

/-- **NAT learning is safe.**  In every run of a thread in learn mode with fewer than `2 ^ 32` flows
no assertion fails and no node is used after it was freed; at its end, and so after every prefix of
it, the map holds exactly the live nodes that wait for their translation, and the counters agree
with its size. -/
theorem learnRun_safe (threadId : UInt8) (learnVerifyMode : Bool) (evs : List (LearnEvent κ))
    (hflows : LearnEvent.flows evs < 2 ^ 32) :
    ∃ s, learnRun ({ threadId, learnVerifyMode } : LearnThread κ) evs = .ok s ∧ LookupExact s ∧
      s.stats.natLookupAddFlowId = s.stats.natLookupRemoveFlowId + s.lookup.keys.length := by
  have hinit : LearnInv ({ threadId, learnVerifyMode } : LearnThread κ) := LearnInv.init _ _
  have hcur : ({ threadId, learnVerifyMode } : LearnThread κ).curFlowId.toNat = 1 := rfl
  obtain ⟨s, hrun, h⟩ := learnRun_inv evs hinit (by omega)
  exact ⟨s, hrun, h.exact, h.count⟩

end Learn

/-- A request, its answer and one more packet of the initiator. -/
def requestAnswer : LearnTemplate Nat where
  ipg := none
  id := 1
  raws := [⟨0, false, 0⟩, ⟨0, true, 1⟩, ⟨0, false, 2⟩]
  info := (loadTemplate false true none 1
    [⟨(0 : Nat), false, 0⟩, ⟨0, true, 1⟩, ⟨0, false, 2⟩]).toOption.getD ⟨[], 0⟩
  loaded := by decide +kernel

/-- Two flows at the same address: the translation of the first comes twice, the one of the second
comes after its time is out. -/
def learnAndTimeOut : List (LearnEvent Nat) :=
  [.generate requestAnswer ⟨10, 20, 1000⟩ 7, .packet 0 false, .receive 0 ⟨30, 20, 6, 2000⟩,
    .receive 0 ⟨30, 20, 6, 2000⟩, .aging, .checkMsgs, .packet 0 false, .packet 0 false,
    .generate requestAnswer ⟨11, 20, 1001⟩ 7, .packet 0 false, .packet 0 false,
    .receive 1 ⟨31, 20, 6, 2001⟩, .aging, .checkMsgs]

theorem learnRun_safe_learnAndTimeOut : LearnEvent.flows learnAndTimeOut < 2 ^ 32 ∧
    (learnRun ({ threadId := 1 } : LearnThread Nat) learnAndTimeOut).map (fun s => s.stats) =
      .ok { natLookupAddFlowId := 2, natLookupRemoveFlowId := 2, natLookupNoFlowId := 2,
            natFlowTimeout := 1, totalCloseFlows := 2 } ∧
    ∃ s, learnRun ({ threadId := 1 } : LearnThread Nat) learnAndTimeOut = .ok s ∧ LookupExact s ∧
      s.stats.natLookupAddFlowId = s.stats.natLookupRemoveFlowId + s.lookup.keys.length :=
  ⟨by decide, by decide +kernel, learnRun_safe 1 false learnAndTimeOut (by decide)⟩

end Trex.Flow
