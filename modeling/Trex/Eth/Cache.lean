/-
# Packets that are sent from a cached mbuf

To send the mbuf that a node keeps is to generate the packet again: `Options.cached_regenerated`,
for every run of a core in which nothing of the packet is drawn and `m_mbuf_cache` does not wrap.

* a template with a limit may have a `dyn_pyload` that draws its words: the packet that was cached
  then differs from the next one (`cached_not_regenerated`);
* `m_mbuf_cache` has 16 bits and counts every packet that could be cached: behind 65535 of them
  nodes cache again (`Inv.cacheMbuf_wrap`).
-/
import Trex.Eth.Holder

namespace Trex.Eth

open Trex.Lib Trex.Flow List
open Trex.Pal (PktDir)
open Function (update update_of_ne update_self)

variable {π : Type}

section Inv

variable {o : Options π} {ok : Prop} {s : Core π} {held : List (Nat × Ptr)} {hand : List Ptr}

/-! ## 1. A node goes on, or ends -/

/-- A node that goes on: one that keeps an mbuf is as it was. -/
structure Moved (o : Options π) (plugin : Ptr → Option π) (node node' : CGenNode) : Prop where
  ok : NodeOk o plugin node'
  cache : node'.getCacheMbuf = node.getCacheMbuf
  info : node'.getPluginInfo = node.getPluginInfo
  same : ∀ m, node.getCacheMbuf = some m → node' = node

variable {plugin : Ptr → Option π} {node : CGenNode}

/-- **`GetPacket`**: the only packet of a node that keeps an mbuf is its first one. -/
theorem NodeOk.goTo (h : NodeOk o plugin node) (index : UInt32) :
    Post (o.goTo node index) (Moved o plugin node) Benign := by
  unfold Options.goTo
  cases hget : (o.template node.template).gen.getPacket index with
  | none => exact Or.inr rfl
  | some i =>
    have hlt : i < (o.template node.template).gen.pkts.length := by
      unfold Gen.Template.getPacket at hget
      split at hget
      · rename_i hlt
        cases hget
        exact hlt
      · cases hget
    refine ⟨⟨hlt, h.nat, h.cache, h.plain⟩, rfl, rfl, ?_⟩
    intro m hm
    have hcan := (h.cache (getCacheMbuf_eq_some.mp hm).1).1
    rw [Options.canCacheMbuf, Bool.and_eq_true, beq_iff_eq] at hcan
    have hcur := h.pktInfo
    obtain rfl : i = node.pktInfo := by omega
    rfl

namespace Inv

variable {p : Nat}

/-- **A node goes on.** -/
theorem setNode (h : Inv o ok s held hand) {node' : CGenNode} (hp : s.node p = some node)
    (hmoved : Moved o s.plugin node node') : Inv o ok (s.setNode p node') held hand :=
  { h with
    nodes := by
      refine h.nodes.update p (some node') ?_ ?_ (Nat.le_refl _) (fun _ =>
        h.nodes.lt p node hp) ?_ ?_ ?_
      · intro q m
        rw [Option.bind_some, hmoved.cache]
        split
        · rename_i hq
          rw [hq, h.nodes.held_iff, hp]
          simp
        · rfl
      · intro y hy
        refine Or.inl ⟨hy, fun hyp => ?_⟩
        have hdead := h.nodes.dead y hy
        rw [hyp, hp] at hdead
        cases hdead
      · rintro n ⟨⟩
        exact hmoved.ok
      · rintro n q n' a ⟨⟩ hq ha ha'
        rw [hmoved.info] at ha
        exact h.nodes.owner q p n' node a hq hp ha' ha
      · rintro n m ⟨⟩ hm
        rw [hmoved.cache] at hm
        rw [hmoved.same m hm]
        exact h.nodes.same p node m hp hm
    packets := h.packets }

/-- **`free_node`**: the mbuf of the node is let go, and the node is gone. -/
theorem freeNode (h : Inv o ok s held []) (hp : s.node p = some node) :
    ∃ mbuf released held',
      (∀ plugin node', node'.type = node.type → node'.getCacheMbuf = node.getCacheMbuf →
        Core.freeNode { s with plugin } p node' =
          .ok { s with plugin, mbuf, released, node := update s.node p none }) ∧
      Inv o ok { s with mbuf, released, node := update s.node p none } held' [] := by
  have hok := h.nodes.ok p node hp
  cases hcache : node.getCacheMbuf with
  | none =>
    refine ⟨s.mbuf, s.released, held, ?_, { h with
      nodes := by
        refine h.nodes.erase p ?_ fun y hy => Or.inl hy
        intro q m
        refine ⟨fun hmem => ⟨?_, hmem⟩, And.right⟩
        rintro rfl
        obtain ⟨n, hn, hm⟩ := (h.nodes.held_iff q m).mp hmem
        rw [hp] at hn
        cases hn
        rw [hcache] at hm
        cases hm
      packets := h.packets }⟩
    intro plugin node' _ hnone
    unfold Core.freeNode Core.freeGenNode
    rw [hnone]
    cases node'.type <;> rfl
  | some m =>
    have htype := (hok.cache (getCacheMbuf_eq_some.mp hcache).1).2.1
    have hmem : (p, m) ∈ held := (h.nodes.held_iff p m).mpr ⟨node, hp, hcache⟩
    have herase := perm_cons_erase hmem
    have hnodup : held.Nodup := by
      have hcached := Nodup.of_map _ h.onceNode
      exact (nodup_append.mp (h.perm.nodup_iff.mp hcached)).2.1
    have hcounted : Counted s.mbuf (m :: (s.queued ++ (held.erase (p, m)).map Prod.snd)) :=
      h.counted.perm ((Perm.append_left _ (herase.map Prod.snd)).trans perm_middle)
    obtain ⟨mbuf, hrelease, hcounted', hval⟩ := hcounted.release
    have hlive : ∀ a, (mbuf a).isSome = true → (s.mbuf a).isSome = true := fun a ha =>
      (hcounted.held a).mp (mem_cons_of_mem m ((hcounted'.held a).mpr ha))
    refine ⟨mbuf, s.released ++ [(p, m)], held.erase (p, m), ?_, { h with
      counted := hcounted'
      perm := by
        refine h.perm.trans ?_
        rw [append_assoc]
        exact Perm.append_left _ herase
      mbufLt := fun a ha => h.mbufLt a (hlive a ha)
      apart := by
        intro a ha
        have hnone := h.apart a ha
        cases hmbuf : mbuf a with
        | none => exact hmbuf
        | some x =>
          have hsome := hlive a (by rw [hmbuf]; rfl)
          rw [hnone] at hsome
          cases hsome
      nodes := by
        have hgone : ∀ q m', (q, m') ∈ held.erase (p, m) ↔ q ≠ p ∧ (q, m') ∈ held := by
          intro q m'
          rw [hnodup.mem_erase_iff]
          refine and_congr_left fun hheld => not_congr ⟨fun heq => congrArg Prod.fst heq, ?_⟩
          rintro rfl
          obtain ⟨n, hn, hm⟩ := (h.nodes.held_iff q m').mp hheld
          rw [hp] at hn
          cases hn
          rw [hcache] at hm
          cases hm
          rfl
        have hdead : ∀ y ∈ s.released ++ [(p, m)], y ∈ s.released ∨ y.1 = p := by
          intro y hy
          rcases mem_append.mp hy with hy | hy
          · exact Or.inl hy
          · exact Or.inr (congrArg Prod.fst (mem_singleton.mp hy))
        have hupdate := h.nodes.erase p hgone hdead
        exact hupdate.setMbuf fun a ha => hval a (mem_append_right _ ha)
      packets := by
        intro hok' dir
        refine Eq.trans ?_ (h.packets hok' dir)
        exact given_congr rfl rfl fun a ha => hval a (mem_append_left _ (mem_queued ha)) }⟩
    intro plugin node' htype' hcache'
    unfold Core.freeNode Core.freeGenNode Core.pktmbufFree
    rw [htype', htype, hcache']
    simp only [hrelease, ok_bind]

/-- **`free_last_flow_node`**: the data of the plug-in is deleted with the node. -/
theorem freeLastFlowNode (h : Inv o ok s held []) (hp : s.node p = some node) :
    Post (o.freeLastFlowNode s p node) (fun s' => ∃ held', Inv o ok s' held' []) Benign := by
  have hok := h.nodes.ok p node hp
  obtain ⟨mbuf, released, held', hrun, hinv⟩ := h.freeNode hp
  unfold Options.freeLastFlowNode
  split
  · unfold Options.onNodeLast
    dsimp only
    split
    · rename_i hflow
      have hclear : testFlag node.flags nodeFlagsMbufCache = false := by
        cases hflag : testFlag node.flags nodeFlagsMbufCache with
        | false => rfl
        | true =>
          rw [not_hasFlowData_of_canCache (hok.cache hflag).1] at hflow
          cases hflow
      obtain ⟨hsome, hdata⟩ := hok.plain hclear
      rw [hflow] at hsome
      obtain ⟨a, ha⟩ := Option.isSome_iff_exists.mp hsome
      have hown : node.getPluginInfo = some a := getPluginInfo_eq_some.mpr ⟨hclear, ha⟩
      simp only [ha, hdata a ha, ↓reduceIte, ok_bind]
      rw [hrun _ { node with pluginInfo := none } rfl (by
        unfold CGenNode.getCacheMbuf
        rw [hclear]
        rfl)]
      have hother : ∀ b, (update s.plugin a none b).isSome = true → (s.plugin b).isSome = true := by
        intro b hb
        by_cases hba : b = a
        · rw [hba, update_self] at hb
          cases hb
        · rwa [update_of_ne hba] at hb
      exact ⟨held', { hinv with
        pluginLt := fun b hb => h.pluginLt b (hother b hb)
        apart := fun b hb => hinv.apart b (hother b hb)
        nodes := by
          refine hinv.nodes.setPlugin ?_
          intro q n b hgone hb hsome
          have hqp : q ≠ p := by
            rintro rfl
            cases (update_self q none s.node).symm.trans hgone
          have hq : s.node q = some n := (update_of_ne hqp none s.node).symm.trans hgone
          have hba : b ≠ a := by
            rintro rfl
            exact hqp (h.nodes.owner q p n node b hq hp hb hown)
          exact (congrArg Option.isSome (update_of_ne hba none s.plugin)).trans hsome
        packets := hinv.packets }⟩
    · split
      · simp only [ok_bind]
        rw [hrun s.plugin node rfl rfl]
        exact ⟨held', hinv⟩
      · exact Or.inr rfl
  · simp only [ok_bind]
    rw [hrun s.plugin node rfl rfl]
    exact ⟨held', hinv⟩

/-- **A packet was sent**: the node goes on, begins again or ends. -/
theorem nextPkt (h : Inv o ok s held []) (hp : s.node p = some node) (lp : Gen.ReplayPkt)
    (again : Bool) :
    Post (o.nextPkt s p lp again) (fun s' => ∃ held', Inv o ok s' held' []) Benign := by
  have hok := h.nodes.ok p node hp
  have hmove : ∀ index, Post (o.goTo node index >>= fun node' => .ok (s.setNode p node'))
      (fun s' => ∃ held', Inv o ok s' held' []) Benign := fun index =>
    (hok.goTo index).bind fun node' hmoved => ⟨held, h.setNode hp hmoved⟩
  unfold Options.nextPkt Core.getNode
  simp only [hp, ok_bind]
  split
  · split
    · exact hmove 0
    · exact h.freeLastFlowNode hp
  · exact hmove _

end Inv

/-- The number of a packet is that of a packet. -/
theorem getPkt_post (o : Options π) (node : CGenNode) :
    Post (o.getPkt node) (fun lp => o.pkt node = some lp) Benign := by
  unfold Options.getPkt
  cases hlp : o.pkt node with
  | none => exact Or.inr rfl
  | some lp => rfl

/-- A node that cannot be cached asks for nothing. -/
theorem SendMeets.of_not (hok : NodeOk o plugin node) (hcan : o.canCacheMbuf node = false) :
    SendMeets o s node where
  drawn := by
    intro hsome
    obtain ⟨m, hm⟩ := Option.isSome_iff_exists.mp hsome
    rw [(hok.cache (getCacheMbuf_eq_some.mp hm).1).1] at hcan
    cases hcan
  wrap := by
    intro _ hcounts
    rw [Options.countsMbuf, hcan, Bool.and_false, Bool.false_and] at hcounts
    cases hcounts

theorem NodeOk.not_canCache (h : NodeOk o plugin node) (htype : node.type = .flowPktNat) :
    o.canCacheMbuf node = false := by
  cases hcan : o.canCacheMbuf node with
  | false => rfl
  | true =>
    rw [h.flowPkt hcan] at htype
    cases htype

theorem testFlag_setLearnState (node : CGenNode) {state : UInt16}
    (hstate : (state <<< 3) &&& nodeFlagsMbufCache = 0) :
    testFlag (node.setLearnState state).flags nodeFlagsMbufCache =
        testFlag node.flags nodeFlagsMbufCache := by
  unfold CGenNode.setLearnState
  rw [testFlag_setFlag_of_disjoint hstate, testFlag_setFlag_of_disjoint rfl]

/-- A node that waits for its translation keeps no mbuf, and goes on as it likes. -/
theorem NodeOk.moved_nat {node' : CGenNode} (h : NodeOk o plugin node)
    (htype : node.type = .flowPktNat)
    (hflags : testFlag node'.flags nodeFlagsMbufCache = testFlag node.flags nodeFlagsMbufCache)
    (htemplate : node'.template = node.template) (hpkt : node'.pktInfo = node.pktInfo)
    (hinfo : node'.pluginInfo = node.pluginInfo) : Moved o plugin node node' := by
  have hclear : testFlag node.flags nodeFlagsMbufCache = false := by
    cases hflag : testFlag node.flags nodeFlagsMbufCache with
    | false => rfl
    | true =>
      have hcan := (h.cache hflag).1
      rw [h.not_canCache htype] at hcan
      cases hcan
  refine ⟨⟨?_, ?_, ?_, ?_⟩, ?_, ?_, ?_⟩
  · rw [htemplate, hpkt]
    exact h.pktInfo
  · intro _
    rw [htemplate]
    exact h.nat htype
  · intro hflag
    rw [hflags, hclear] at hflag
    cases hflag
  · intro _
    rw [htemplate, hinfo]
    exact h.plain hclear
  · unfold CGenNode.getCacheMbuf
    rw [hflags, hinfo]
  · unfold CGenNode.getPluginInfo
    rw [hflags, hinfo]
  · intro m hm
    rw [getCacheMbuf_eq_some, hclear] at hm
    cases hm.1

namespace Inv

theorem getNode (h : Inv o ok s held []) (p : Nat) :
    Post (s.getNode p) (fun node => s.node p = some node ∧ NodeOk o s.plugin node) Benign := by
  unfold Core.getNode
  cases hp : s.node p with
  | none => exact Or.inl rfl
  | some node => exact ⟨rfl, h.nodes.ok p node hp⟩

/-- **The `FLOW_PKT` case.** -/
theorem handlePkt (h : Inv o ok s held []) {p : Nat} (hp : s.node p = some node) (always : Bool)
    (draw : Draw) (hmeets : ok → always = false → SendMeets o s node) :
    Post (o.handlePkt always s p node draw) (fun s' => ∃ held', Inv o ok s' held' []) Benign := by
  have hok := h.nodes.ok p node hp
  unfold Options.handlePkt
  refine (getPkt_post o node).bind fun lp _ => ?_
  split
  · rename_i hsend
    refine (h.sendNode hp draw ?_).bind ?_
    · intro hok'
      cases hrepeat : o.isRepeatFlow node with
      | true =>
        rw [hrepeat] at hsend
        exact hmeets hok' (by simpa using hsend)
      | false =>
        refine SendMeets.of_not hok ?_
        rw [Options.canCacheMbuf, hrepeat, Bool.false_and]
    · rintro s' ⟨held', node', hinv, hp', -⟩
      exact hinv.nextPkt hp' lp _
  · exact h.nextPkt hp lp _

/-- **The `FLOW_PKT_NAT` case.** -/
theorem handleNatPkt (h : Inv o ok s held []) {p : Nat} (hp : s.node p = some node)
    (htype : node.type = .flowPktNat) (draw : Draw) :
    Post (o.handleNatPkt s p node draw) (fun s' => ∃ held', Inv o ok s' held' []) Benign := by
  have hok := h.nodes.ok p node hp
  unfold Options.handleNatPkt
  refine (getPkt_post o node).bind fun lp _ => ?_
  split
  · have hmoved : Moved o s.plugin node node.setNatWaitState :=
      hok.moved_nat htype (testFlag_setLearnState node (by decide)) rfl rfl rfl
    have hset := h.setNode hp hmoved
    have hp' : (s.setNode p node.setNatWaitState).node p = some node.setNatWaitState :=
      update_self _ _ _
    refine (hset.sendNode hp' draw fun _ =>
      SendMeets.of_not hmoved.ok (hmoved.ok.not_canCache htype)).bind ?_
    rintro s' ⟨held', node', hinv, hp'', -⟩
    exact hinv.nextPkt hp'' lp _
  · split
    · split
      · refine (h.sendNode hp draw fun _ => SendMeets.of_not hok (hok.not_canCache htype)).bind ?_
        rintro s' ⟨held', node', hinv, hp', -⟩
        exact hinv.nextPkt hp' lp _
      · exact h.freeLastFlowNode hp
    · exact Or.inr rfl

/-- **A node is taken from the queue.** -/
theorem popNode (h : Inv o ok s held []) (always : Bool) (p : Nat) (draw : Draw)
    (hmeets : ok → ∀ node, s.node p = some node → always = false → SendMeets o s node) :
    Post (o.popNode always s p draw) (fun s' => ∃ held', Inv o ok s' held' []) Benign := by
  unfold Options.popNode
  refine (h.getNode p).bind ?_
  rintro node ⟨hp, -⟩
  cases htype : node.type with
  | flowPkt => exact h.handlePkt hp always draw fun hok => hmeets hok node hp
  | flowPktNat => exact h.handleNatPkt hp htype draw

/-- **A translation.** -/
theorem handelNatInfo (h : Inv o ok s held []) (p : Nat) (addr serverAddr : UInt32)
    (port : UInt16) :
    Post (s.handelNatInfo p addr serverAddr port) (fun s' =>
        ∃ held', Inv o ok s' held' []) Benign := by
  unfold Core.handelNatInfo
  refine (h.getNode p).bind ?_
  rintro node ⟨hp, hok⟩
  split
  · rename_i htype
    split
    · have hmoved : Moved o s.plugin node { node with
          type := .flowPkt, natIpv4Addr := addr, natIpv4AddrServer := serverAddr, natIpv4Port :=
              port } :=
        hok.moved_nat htype rfl rfl rfl rfl
      exact ⟨held, h.setNode hp hmoved⟩
    · exact Or.inr rfl
  · exact Or.inl rfl

/-- **`flush_tx_queue`** -/
theorem flushPort (h : Inv o ok s held hand) (dir : PktDir) :
    ∃ s', s.flushPort dir = .ok s' ∧ Inv o ok s' held hand := by
  unfold Core.flushPort
  split
  · obtain ⟨s', hrun, hinv, -⟩ := h.sendBurst dir
    exact ⟨s', hrun, hinv⟩
  · exact ⟨s, rfl, h⟩

theorem flushTxQueue (h : Inv o ok s held hand) :
    ∃ s', s.flushTxQueue = .ok s' ∧ Inv o ok s' held hand := by
  obtain ⟨s1, hrun, hinv⟩ := h.flushPort .client
  obtain ⟨s2, hrun', hinv'⟩ := hinv.flushPort .server
  refine ⟨s2, ?_, hinv'⟩
  unfold Core.flushTxQueue
  rw [hrun, ok_bind, hrun']

/-- **`send_one_pkt`** -/
theorem sendOnePkt (h : Inv o ok s held []) (dir : PktDir) (bytes : List UInt8) :
    ∃ s', s.sendOnePkt dir bytes = .ok s' ∧ Inv o ok s' held [] := by
  obtain ⟨s1, hrun, hinv, -⟩ := (h.alloc bytes).sendPkt dir (.msg bytes) fun _ => by
    simp [valOf, Core.alloc, Sent.packet]
  obtain ⟨s2, hrun', hinv', -⟩ := hinv.sendBurst dir
  refine ⟨s2, ?_, hinv'⟩
  unfold Core.sendOnePkt
  rw [hrun, ok_bind, hrun']

end Inv

/-! ## 2. A flow begins -/

theorem testFlag_newFlags (node : CGenNode) (rxSample : Bool) :
    testFlag (o.newFlags node rxSample) nodeFlagsMbufCache =
        testFlag node.flags nodeFlagsMbufCache := by
  unfold Options.newFlags
  dsimp only
  have hrx : testFlag (if (o.rxCheckMode && rxSample && !o.isRepeatFlow node) = true then
      setFlag node.flags nodeFlagsSampleRxCheck true else node.flags) nodeFlagsMbufCache =
        testFlag node.flags nodeFlagsMbufCache := by
    split
    · exact testFlag_setFlag_of_disjoint rfl true
    · rfl
  split
  · rw [testFlag_setFlag_of_disjoint rfl, hrx]
  · split
    · rw [testFlag_setFlag_of_disjoint rfl, testFlag_setFlag_of_disjoint rfl, hrx]
    · split
      · rw [testFlag_setFlag_of_disjoint rfl, hrx]
      · exact hrx

/-- The node of a new flow, in front of its plug-in. -/
def Options.bornNode (o : Options π) (b : Born π) (lp : Gen.ReplayPkt) : CGenNode :=
  let node := newNode b
  let node := if o.parser.learnMode && lp.info.desc.isBiDirectionalFlow then node.setNatFirstState
    else node
  { node with flags := o.newFlags node b.rxSample }

theorem bornNode_spec (b : Born π) {lp : Gen.ReplayPkt} (hlp : o.pkt (newNode b) = some lp) :
    let node := o.bornNode b lp
    testFlag node.flags nodeFlagsMbufCache = false ∧ node.template = b.template ∧ node.pktInfo = 0 ∧
      node.pluginInfo = none ∧ (node.type = .flowPktNat →
        ∃ lp, (o.template node.template).gen.pkts[0]? = some lp ∧
            lp.info.desc.isBiDirectionalFlow = true) := by
  have hzero : testFlag (newNode b).flags nodeFlagsMbufCache = false := by
    show testFlag 0 nodeFlagsMbufCache = false
    decide
  unfold Options.bornNode
  dsimp only
  rw [testFlag_newFlags]
  split
  · rename_i hlearn
    rw [Bool.and_eq_true] at hlearn
    refine ⟨?_, rfl, rfl, rfl, fun _ => ⟨lp, hlp, hlearn.2⟩⟩
    exact (testFlag_setLearnState _ (by decide)).trans hzero
  · exact ⟨hzero, rfl, rfl, rfl, fun htype => by cases htype⟩

namespace Inv

/-- **A node is added.** -/
theorem addNode (h : Inv o ok s held hand) (hok : NodeOk o s.plugin node)
    (hclear : testFlag node.flags nodeFlagsMbufCache = false)
    (hown : ∀ q n a, s.node q = some n → n.getPluginInfo = some a → node.getPluginInfo ≠ some a) :
    Inv o ok { s.setNode s.nextNode node with nextNode := s.nextNode + 1 } held hand := by
  have hfresh : s.node s.nextNode = none := by
    cases hp : s.node s.nextNode with
    | none => rfl
    | some n => exact absurd (h.nodes.lt s.nextNode n hp) (Nat.lt_irrefl _)
  have hnone : node.getCacheMbuf = none := by
    unfold CGenNode.getCacheMbuf
    rw [hclear]
    rfl
  exact { h with
    cachedLt := fun x hx => ⟨Nat.lt_succ_of_lt (h.cachedLt x hx).1, (h.cachedLt x hx).2⟩
    nodes := by
      refine h.nodes.update s.nextNode (some node) ?_ ?_ (Nat.le_succ _) (fun _ =>
        Nat.lt_succ_self _) ?_ ?_ ?_
      · intro q m
        split
        · rename_i hq
          rw [hq, h.nodes.held_iff, hfresh]
          simp [hnone]
        · rfl
      · intro y hy
        refine Or.inl ⟨hy, fun hyq => ?_⟩
        have hlt := (h.cachedLt y (h.perm.mem_iff.mpr (mem_append_left _ hy))).1
        omega
      · rintro n ⟨⟩
        exact hok
      · rintro n q n' a ⟨⟩ hq ha ha'
        exact absurd ha (hown q n' a hq ha')
      · rintro n m ⟨⟩ hm
        rw [hnone] at hm
        cases hm
    packets := h.packets }

/-- **`generate_flow`** -/
theorem generateFlow (h : Inv o ok s held []) (b : Born π) :
    Post (o.generateFlow s b) (fun s' => ∃ held', Inv o ok s' held' []) Benign := by
  unfold Options.generateFlow
  refine (getPkt_post o (newNode b)).bind fun lp hlp => ?_
  obtain ⟨hclear, htemplate, hpkt, hinfo, hnat⟩ := bornNode_spec b hlp
  have hlt : (o.bornNode b lp).pktInfo <
      (o.template (o.bornNode b lp).template).gen.pkts.length := by
    rw [hpkt, htemplate]
    exact (List.getElem?_eq_some_iff.mp hlp).1
  have hflag : ¬ testFlag (o.bornNode b lp).flags nodeFlagsMbufCache = true := by
    rw [hclear]
    exact Bool.false_ne_true
  have hplain : hasFlowData (o.template (o.bornNode b lp).template).pluginId = false →
      ∃ held', Inv o ok { s.setNode s.nextNode (o.bornNode b lp) with nextNode := s.nextNode + 1 }
          held' [] := by
    intro hflow
    refine ⟨held, h.addNode ⟨hlt, hnat, fun hset => absurd hset hflag, fun _ =>
      ⟨?_, fun a ha => ?_⟩⟩ hclear ?_⟩
    · rw [hinfo, hflow]
      rfl
    · rw [hinfo] at ha
      cases ha
    · intro q n a _ _ ha
      rw [getPluginInfo_eq_some, hinfo] at ha
      cases ha.2
  dsimp only
  split
  · have hnode : Post (o.onNodeFirst s (o.bornNode b lp) b.data)
        (fun r => ∃ held', Inv o ok { r.1.setNode r.1.nextNode r.2 with nextNode := r.1.nextNode +
          1 } held' [])
        Benign := ?_
    · refine hnode.bind ?_
      exact fun r hr => hr
    unfold Options.onNodeFirst
    dsimp only
    split
    · rename_i hflow
      -- the data of the plug-in is new memory
      have hdata : Inv o ok { s with
          plugin := update s.plugin s.nextPtr (some b.data), nextPtr := s.nextPtr + 1 } held [] :=
        { h with
          cachedLt := fun x hx => ⟨(h.cachedLt x hx).1, Nat.lt_succ_of_lt (h.cachedLt x hx).2⟩
          mbufLt := fun a ha => Nat.lt_succ_of_lt (h.mbufLt a ha)
          pluginLt := by
            intro a ha
            by_cases hnew : a = s.nextPtr
            · rw [hnew]
              exact Nat.lt_succ_self _
            · exact Nat.lt_succ_of_lt (h.pluginLt a
                ((congrArg Option.isSome (update_of_ne hnew _ _)).symm.trans ha))
          apart := by
            intro a ha
            by_cases hnew : a = s.nextPtr
            · cases hmbuf : s.mbuf a with
              | none => rfl
              | some x =>
                have hlt := h.mbufLt a (by rw [hmbuf]; rfl)
                rw [hnew] at hlt
                exact absurd hlt (Nat.lt_irrefl _)
            · exact h.apart a ((congrArg Option.isSome (update_of_ne hnew _ _)).symm.trans ha)
          nodes := h.nodes.setPlugin fun q n a hq ha hsome => by
            have hne : a ≠ s.nextPtr := Nat.ne_of_lt (h.pluginLt a hsome)
            exact (congrArg Option.isSome (update_of_ne hne _ _)).trans hsome
          packets := h.packets }
      refine ⟨held, hdata.addNode ⟨hlt, hnat, fun hset => absurd hset hflag, fun _ =>
        ⟨?_, fun a ha => ?_⟩⟩ hclear ?_⟩
      · exact hflow.symm
      · cases ha
        exact congrArg Option.isSome (update_self s.nextPtr (some b.data) s.plugin)
      · intro q n a hq ha hnew
        rw [getPluginInfo_eq_some] at hnew
        obtain ⟨-, hnew⟩ := hnew
        cases hnew
        obtain ⟨hclear', hptr⟩ := getPluginInfo_eq_some.mp ha
        have hlive := ((h.nodes.ok q n hq).plain hclear').2 _ hptr
        exact absurd (h.pluginLt _ hlive) (Nat.lt_irrefl _)
    · rename_i hflow
      split
      · exact hplain (Bool.eq_false_iff.mpr hflow)
      · exact Or.inr rfl
  · rename_i hzero
    refine hplain ?_
    rw [htemplate, not_not.mp hzero]
    rfl

end Inv

end Inv

/-! ## 3. Runs -/

/-- **What a step is asked for**: an mbuf that is sent again holds a packet that is not drawn, and
`m_mbuf_cache` does not wrap. -/
def Options.Meets (o : Options π) (s : Core π) : Event π → Prop
  | .popNode always p _ => always = false → ∀ node, s.node p = some node → SendMeets o s node
  | _ => True

/-- The same of each step of a run. -/
def Options.MeetsAll (o : Options π) : Core π → List (Event π) → Prop
  | _, [] => True
  | s, ev :: evs =>
    o.Meets s ev ∧
      match o.step s ev with
      | .ok s' => o.MeetsAll s' evs
      | .error _ => True

instance (o : Options π) (s : Core π) (node : CGenNode) : Decidable (SendMeets o s node) :=
  decidable_of_iff ((node.getCacheMbuf.isSome = true → o.isDrawn node = false) ∧
      (node.getCacheMbuf = none → o.countsMbuf node = true → s.mbufCache.toNat + 1 < 2 ^ 16))
    ⟨fun h => ⟨h.1, h.2⟩, fun h => ⟨h.drawn, h.wrap⟩⟩

instance (o : Options π) (s : Core π) (ev : Event π) : Decidable (o.Meets s ev) :=
  match ev with
  | .popNode always p _ =>
    match hp : s.node p with
    | none => isTrue fun _ node hnode => by
        rw [hp] at hnode
        cases hnode
    | some node => decidable_of_iff (always = false → SendMeets o s node)
        ⟨fun h halways node' hnode => by
          rw [hp] at hnode
          cases hnode
          exact h halways, fun h halways => h halways node hp⟩
  | .generateFlow _ => isTrue trivial
  | .handelNatInfo _ _ _ _ => isTrue trivial
  | .sendOnePkt _ _ => isTrue trivial
  | .flushTxQueue => isTrue trivial
  | .freeNode _ => isTrue trivial

instance decidableMeetsAll (o : Options π) :
    (s : Core π) → (evs : List (Event π)) → Decidable (o.MeetsAll s evs)
  | _, [] => isTrue trivial
  | s, ev :: evs =>
    match hstep : o.step s ev with
    | .error e => decidable_of_iff (o.Meets s ev) (by simp [Options.MeetsAll, hstep])
    | .ok s' =>
      haveI := decidableMeetsAll o s' evs
      decidable_of_iff (o.Meets s ev ∧ o.MeetsAll s' evs) (by simp [Options.MeetsAll, hstep])

/-- `m_plugin_info` is what `m_flags` says: the mbuf of a node without data of a plug-in, or this
data. -/
structure Unconfused (o : Options π) (s : Core π) (node : CGenNode) : Prop where
  cache : testFlag node.flags nodeFlagsMbufCache = true →
    hasFlowData (o.template node.template).pluginId = false ∧
      ∃ m, node.pluginInfo = some m ∧ (s.mbuf m).isSome = true ∧ s.plugin m = none
  plain : testFlag node.flags nodeFlagsMbufCache = false →
    node.pluginInfo.isSome = hasFlowData (o.template node.template).pluginId ∧
      ∀ a, node.pluginInfo = some a → (s.plugin a).isSome = true ∧ s.mbuf a = none

/-- **To send a cached mbuf is to generate the packet again.** -/
structure CacheSound (o : Options π) (s : Core π) : Prop where
  /-- What left by a side, and what waits there, is what would have been generated, in order. -/
  regenerated : ∀ dir, s.given dir = (s.sent dir).map (Sent.packet o dir)
  /-- One reference for the node, and one for each copy in a table. -/
  refcnt : ∀ p node m, s.node p = some node → node.getCacheMbuf = some m →
    ∃ bytes, s.mbuf m = some ⟨bytes, 1 + s.queued.count m⟩
  /-- An mbuf that nobody waits for is gone. -/
  freed : ∀ m, (s.mbuf m).isSome = true →
    m ∈ s.queued ∨ ∃ p node, s.node p = some node ∧ node.getCacheMbuf = some m
  /-- A node keeps what it cached, or is gone and has freed it once. -/
  released : ∀ p m, (p, m) ∈ s.cached →
    (∃ node, s.node p = some node ∧ node.getCacheMbuf = some m ∧ (p, m) ∉ s.released) ∨
      s.node p = none ∧ s.released.count (p, m) = 1
  unconfused : ∀ p node, s.node p = some node → Unconfused o s node
  logged : ∀ p node m, s.node p = some node → node.getCacheMbuf = some m → (p, m) ∈ s.cached
  /-- At most `MAX_MBUF_CACHE - 1` nodes ever cached an mbuf. -/
  few : (s.cached.map Prod.fst).Nodup ∧ s.cached.length < maxMbufCache.toNat
  /-- No step takes an address for something else. -/
  safe : ∀ ev e, o.step s ev = .error e → Benign e

section Runs

variable {o : Options π} {ok : Prop} {s : Core π} {held : List (Nat × Ptr)}

namespace Inv

theorem mono {ok' : Prop} {hand : List Ptr} (h : Inv o ok s held hand) (hok : ok' → ok) :
    Inv o ok' s held hand :=
  { h with
    few := fun hok' => h.few (hok hok')
    packets := fun hok' => h.packets (hok hok') }

theorem start (o : Options π) : Inv o True ({} : Core π) [] [] where
  counted := Counted.nil
  perm := List.Perm.refl _
  onceNode := nodup_nil
  onceMbuf := nodup_nil
  cachedLt := fun x hx => by cases hx
  mbufLt := fun m hm => by cases hm
  pluginLt := fun a ha => by cases ha
  apart := fun a ha => by cases ha
  nodes :=
    { held_iff := fun p m => by simp
      dead := fun x hx => by cases hx
      lt := fun p n hp => by cases hp
      ok := fun p n hp => by cases hp
      owner := fun p q n n' a hp => by cases hp
      same := fun p n m hp => by cases hp }
  few := fun _ => rfl
  packets := fun _ dir => rfl

/-- **One step.** -/
theorem step (h : Inv o ok s held []) (ev : Event π) :
    Post (o.step s ev) (fun s' => ∃ held', Inv o (ok ∧ o.Meets s ev) s' held' []) Benign := by
  have hboth : Inv o (ok ∧ o.Meets s ev) s held [] := h.mono And.left
  cases ev with
  | generateFlow b => exact hboth.generateFlow b
  | popNode always p draw =>
    exact hboth.popNode always p draw fun hok node hp halways => hok.2 halways node hp
  | handelNatInfo p addr serverAddr port => exact hboth.handelNatInfo p addr serverAddr port
  | sendOnePkt dir bytes =>
    obtain ⟨s', hrun, hinv⟩ := hboth.sendOnePkt dir bytes
    show Post (s.sendOnePkt dir bytes) _ _
    rw [hrun]
    exact ⟨held, hinv⟩
  | flushTxQueue =>
    obtain ⟨s', hrun, hinv⟩ := hboth.flushTxQueue
    show Post s.flushTxQueue _ _
    rw [hrun]
    exact ⟨held, hinv⟩
  | freeNode p =>
    refine (hboth.getNode p).bind ?_
    rintro node ⟨hp, -⟩
    obtain ⟨mbuf, released, held', hrun, hinv⟩ := hboth.freeNode hp
    rw [hrun s.plugin node rfl rfl]
    exact ⟨held', hinv⟩

/-- **Every run.** -/
theorem run (h : Inv o ok s held []) {evs : List (Event π)} {s' : Core π}
    (hrun : o.run s evs = .ok s') :
    ∃ held', Inv o (ok ∧ o.MeetsAll s evs) s' held' [] := by
  induction evs generalizing ok s held with
  | nil =>
    cases hrun
    exact ⟨held, h.mono And.left⟩
  | cons ev evs ih =>
    obtain ⟨s1, hstep, hrest⟩ := bind_eq_ok hrun
    obtain ⟨held1, hinv⟩ := (h.step ev).result hstep
    obtain ⟨held', hinv'⟩ := ih hinv hrest
    refine ⟨held', hinv'.mono ?_⟩
    rintro ⟨hok, hmeets⟩
    rw [Options.MeetsAll, hstep] at hmeets
    exact ⟨⟨hok, hmeets.1⟩, hmeets.2⟩

theorem unconfused (h : Inv o ok s held []) {p : Nat} {node : CGenNode}
    (hp : s.node p = some node) :
    Unconfused o s node := by
  have hok := h.nodes.ok p node hp
  refine ⟨fun hflag => ?_, fun hclear => ⟨(hok.plain hclear).1, fun a ha => ?_⟩⟩
  · obtain ⟨hcan, -, -, hsome⟩ := hok.cache hflag
    obtain ⟨m, hm⟩ := Option.isSome_iff_exists.mp hsome
    have hmem := (h.nodes.held_iff p m).mpr ⟨node, hp, getCacheMbuf_eq_some.mpr ⟨hflag, hm⟩⟩
    have hlive := h.holder (mem_append_right _ (mem_append_right _ (mem_map_of_mem hmem)))
    refine ⟨not_hasFlowData_of_canCache hcan, m, hm, hlive, ?_⟩
    cases hplugin : s.plugin m with
    | none => rfl
    | some data =>
      rw [h.apart m (by rw [hplugin]; rfl)] at hlive
      cases hlive
  · have hlive := (hok.plain hclear).2 a ha
    exact ⟨hlive, h.apart a hlive⟩

/-- **The counter wraps**: behind 65535 packets that were counted, the mbuf of the next one is
cached by a hundredth node. -/
theorem cacheMbuf_wrap {hand : List Ptr} {m : Ptr} (h : Inv o ok s held (m :: hand)) (hok : ok)
    (hmax : s.mbufCache = 65535) {node : CGenNode} (hcounts : o.countsMbuf node = true) (p : Nat)
    (dir : PktDir) :
    ∃ s', o.cacheMbuf s p node dir m = .ok s' ∧ s'.cached.length = maxMbufCache.toNat := by
  have hfew := h.few hok
  rw [hmax] at hfew
  obtain ⟨mbuf, hmbuf, -, -⟩ := h.counted.retain (mem_append_left _ mem_cons_self)
  unfold Options.cacheMbuf Core.refcntUpdate Core.setNode
  rw [if_pos hcounts, hmax]
  dsimp only
  rw [if_pos (by decide), hmbuf]
  refine ⟨_, rfl, ?_⟩
  dsimp only
  rw [length_append, hfew]
  rfl

/-- What is left when everything was met. -/
theorem cacheSound (h : Inv o ok s held []) (hok : ok) : CacheSound o s where
  regenerated := h.packets hok
  refcnt := by
    intro p node m hp hm
    have hmem := (h.nodes.held_iff p m).mpr ⟨node, hp, hm⟩
    have hmem' : m ∈ held.map Prod.snd := mem_map_of_mem hmem
    have hnodup : (held.map Prod.snd).Nodup := by
      have hall := (h.perm.map Prod.snd).nodup_iff.mp h.onceMbuf
      rw [map_append] at hall
      exact (nodup_append.mp hall).2.1
    obtain ⟨bytes, hbytes⟩ :=
      h.counted.exists_of_mem (mem_append_right _ (mem_append_right _ hmem'))
    refine ⟨bytes, ?_⟩
    rw [hbytes, nil_append, count_append, count_eq_one_of_mem hnodup hmem', Nat.add_comm]
  freed := by
    intro m hm
    have hholder := (h.counted.held m).mpr hm
    rw [nil_append] at hholder
    rcases mem_append.mp hholder with hqueued | hheld
    · exact Or.inl hqueued
    · obtain ⟨⟨p, m'⟩, hmem, rfl⟩ := mem_map.mp hheld
      obtain ⟨node, hp, hcache⟩ := (h.nodes.held_iff p m').mp hmem
      exact Or.inr ⟨p, node, hp, hcache⟩
  released := by
    intro p m hmem
    have hnodup := h.perm.nodup_iff.mp (Nodup.of_map _ h.onceNode)
    rcases mem_append.mp (h.perm.mem_iff.mp hmem) with hreleased | hheld
    · refine Or.inr ⟨h.nodes.dead _ hreleased, ?_⟩
      exact count_eq_one_of_mem (nodup_append.mp hnodup).1 hreleased
    · obtain ⟨node, hp, hcache⟩ := (h.nodes.held_iff p m).mp hheld
      refine Or.inl ⟨node, hp, hcache, fun hreleased => ?_⟩
      exact (nodup_append.mp hnodup).2.2 _ hreleased _ hheld rfl
  unconfused := fun p node hp => h.unconfused hp
  logged := by
    intro p node m hp hm
    exact h.perm.mem_iff.mpr (mem_append_right _ ((h.nodes.held_iff p m).mpr ⟨node, hp, hm⟩))
  few := by
    have hfew := h.few hok
    refine ⟨h.onceNode, ?_⟩
    show s.cached.length < 100
    omega
  safe := fun ev e he => (h.step ev).fault he

end Inv

/-- **In every run whose steps are as asked, a packet that is sent from the mbuf of its node is the
one that would be generated, and leaves by the same side**; the mbuf has a reference for the node
and one for each copy that waits, is freed once with the node and with the last copy, and is never
taken for the data of a plug-in; at most `MAX_MBUF_CACHE - 1` nodes cache one. -/
theorem Options.cached_regenerated (o : Options π) {evs : List (Event π)} {s : Core π}
    (hrun : o.run {} evs = .ok s) (hmeets : o.MeetsAll {} evs) : CacheSound o s := by
  obtain ⟨held, hinv⟩ := (Inv.start o).run hrun
  exact hinv.cacheSound ⟨trivial, hmeets⟩

end Runs

/-- A template of one packet that is repeated. -/
def onePacket (multiFlow : Bool) : Gen.Template CFlowKey false where
  multiFlow := multiFlow
  capMode := false
  ipg := none
  id := 0
  raws := [⟨⟨0, 0, 0, 0, 17⟩, false, 0⟩]
  info := ((Gen.loadReplay multiFlow false false none 0 [⟨(⟨0, 0, 0, 0, 17⟩ : CFlowKey), false,
    0⟩]).toOption.getD ⟨⟨[], 0⟩, []⟩).1
  pkts := ((Gen.loadReplay multiFlow false false none 0 [⟨(⟨0, 0, 0, 0, 17⟩ : CFlowKey), false,
    0⟩]).toOption.getD ⟨⟨[], 0⟩, []⟩).2
  loaded := by cases multiFlow <;> decide +kernel
  ipgSec := 0
  rttSec := 0
  limitWasSet := true
  limit := 2
  restartTime := 1
  clientPoolIdx := 0
  isTcp := fun _ => false

/-- The options of a core with one template. -/
def oneTemplate (t : Template false) : Options Unit where
  abi := ⟨16, 64⟩
  parser := exampleOption false false
  ntop := ⟨fun _ => [], fun _ => [], fun _ => by decide, fun _ => by decide⟩
  template := fun _ => t
  flowPlugin := fun _ _ _ _ _ => none
  rxCheck := fun _ _ _ p => p
  dstSrcMacAddr := fun _ => List.replicate 12 0
  destMacSplit := false
  macSplitter := 1
  macIpFeatures := false
  macIpMapping := false
  macIpOveride := false
  mbufCacheDisabled := false
  rxCheckMode := false
  clientServerFlowFlipAddr := false
  clientServerFlowFlip := false
  clientServerFlip := false

/-- A packet of UDP, as it was loaded. -/
def oneBytes : PktBytes :=
  (loadPacket ⟨16, 64⟩ (exampleOption false false) 0 { flowId := 0, flowPktNum := 0, id := 0,
                                                       isInitSide := true }
    examplePkt).get (by decide +kernel)

/-- No plug-in, and a `dyn_pyload` that writes a word that is drawn. -/
def plainTemplate : Template false where
  gen := onePacket false
  pluginId := 0
  dpPkt := none
  read := ⟨none, [], rfl⟩
  multi := rfl
  bytes := fun _ => oneBytes

def drawnTemplate : Template false where
  gen := onePacket true
  pluginId := mpDynPyload
  dpPkt := some [⟨0, 0, 0, 1, 0xffffffff⟩]
  read := ⟨none, [⟨0, 0, 0, 1, 0xffffffff⟩], rfl⟩
  multi := rfl
  bytes := fun _ => oneBytes

def oneBorn : Born Unit := ⟨0, 0x10000001, 0x30000001, 1025, 1, none, 0, 0, 0, 0, false, ()⟩

/-- Each send draws another number. -/
def drawOf (n : UInt32) : Draw := ⟨fun _ => n, 0⟩

/-- A flow begins, is sent twice, the table leaves, and the flow is sent once more and ends. -/
def twiceRun : List (Event Unit) :=
  [.generateFlow oneBorn, .popNode false 0 (drawOf 0), .popNode false 0 (drawOf 1), .flushTxQueue,
    .popNode false 0 (drawOf 2), .popNode true 0 (drawOf 3)]

theorem cached_regenerated_twice : ∃ s, (oneTemplate plainTemplate).run {} twiceRun = .ok s ∧
    s.cached = [(0, 0)] ∧ s.released = [(0, 0)] ∧ CacheSound (oneTemplate plainTemplate) s := by
  have htest : ((oneTemplate plainTemplate).run {} twiceRun).toOption.any (fun s =>
      s.cached == [(0, 0)] && s.released == [(0, 0)]) = true := by decide +kernel
  have hmeets : (oneTemplate plainTemplate).MeetsAll {} twiceRun := by decide +kernel
  cases hrun : (oneTemplate plainTemplate).run {} twiceRun with
  | error e =>
    rw [hrun] at htest
    cases htest
  | ok s =>
    rw [hrun] at htest
    have hlogs : (s.cached == [(0, 0)] && s.released == [(0, 0)]) = true := htest
    rw [Bool.and_eq_true, beq_iff_eq, beq_iff_eq] at hlogs
    exact ⟨s, rfl, hlogs.1, hlogs.2, Options.cached_regenerated _ hrun hmeets⟩

/-- **A packet that is drawn is cached all the same**: with a limit and a `dyn_pyload` the packet
that is sent again is not the one that would be generated. -/
theorem cached_not_regenerated : ∃ s, (oneTemplate drawnTemplate).run {} twiceRun = .ok s ∧
    ¬ CacheSound (oneTemplate drawnTemplate) s := by
  have htest : ((oneTemplate drawnTemplate).run {} twiceRun).toOption.any (fun s => decide
      (s.given .client ≠ (s.sent .client).map (Sent.packet (oneTemplate drawnTemplate) .client))) =
          true := by
    decide +kernel
  cases hrun : (oneTemplate drawnTemplate).run {} twiceRun with
  | error e =>
    rw [hrun] at htest
    cases htest
  | ok s =>
    rw [hrun] at htest
    exact ⟨s, rfl, fun hsound => of_decide_eq_true htest (hsound.regenerated .client)⟩

end Trex.Eth
