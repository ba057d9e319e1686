/-
# Who holds an mbuf

The invariant of a core: the count of an mbuf is the number of its holders, which are the nodes that
keep it, the entries of the tables and the step that is running; `m_plugin_info` is what `m_flags`
says; and what waits in a table is what the sends asked for.  This file has the invariant, and keeps
it up to `send_node`.
-/
import Trex.Eth.Core
import Trex.Lib.Post

namespace Trex.Eth

open Trex.Lib Trex.Flow List
open Trex.Pal (PktDir)

variable {π : Type}

/-! ## 1. What is kept -/

/-- The packet that a send asks for, with the side that it leaves by. -/
def Sent.packet (o : Options π) (dir : PktDir) : Sent π → Option (PktDir × List UInt8)
  | .flow node info draw => (o.newPacket node info draw).map fun (dir, bytes, _) => (dir, bytes)
  | .msg bytes => some (dir, bytes)

namespace Core

variable (s : Core π)

/-- The mbufs that wait in the tables. -/
def queued : List Ptr := s.table .client ++ s.table .server

/-- What left by a side, and what waits in its table. -/
def given (dir : PktDir) : List (Option (PktDir × List UInt8)) :=
  (s.wire dir).map (fun bytes => some (dir, bytes)) ++
    (s.table dir).map fun m => (valOf s.mbuf m).map fun bytes => (dir, bytes)

end Core

/-- `m_plugin_info` when it is not an mbuf. -/
def CGenNode.getPluginInfo (node : CGenNode) : Option Ptr :=
  if testFlag node.flags nodeFlagsMbufCache then none else node.pluginInfo

/-- What is known of a node of a core. -/
structure NodeOk (o : Options π) (plugin : Ptr → Option π) (node : CGenNode) : Prop where
  pktInfo : node.pktInfo < (o.template node.template).gen.pkts.length
  nat : node.type = .flowPktNat →
    ∃ lp, (o.template node.template).gen.pkts[0]? = some lp ∧
      lp.info.desc.isBiDirectionalFlow = true
  cache : testFlag node.flags nodeFlagsMbufCache = true →
    o.canCacheMbuf node = true ∧ node.type = .flowPkt ∧ node.isRxCheckEnabled = false ∧
      node.pluginInfo.isSome = true
  plain : testFlag node.flags nodeFlagsMbufCache = false →
    node.pluginInfo.isSome = hasFlowData (o.template node.template).pluginId ∧
      ∀ a, node.pluginInfo = some a → (plugin a).isSome = true

/-- The nodes of a core.  `held` are those that keep an mbuf, with the mbuf. -/
structure Nodes (o : Options π) (node : Nat → Option CGenNode) (nextNode : Nat)
    (plugin : Ptr → Option π) (mbuf : Ptr → Option (Shared (List UInt8)))
    (held released : List (Nat × Ptr)) : Prop where
  held_iff : ∀ p m, (p, m) ∈ held ↔ ∃ n, node p = some n ∧ n.getCacheMbuf = some m
  dead : ∀ x ∈ released, node x.1 = none
  lt : ∀ p n, node p = some n → p < nextNode
  ok : ∀ p n, node p = some n → NodeOk o plugin n
  owner : ∀ p q n n' a, node p = some n → node q = some n' → n.getPluginInfo = some a →
    n'.getPluginInfo = some a → p = q
  same : ∀ p n m, node p = some n → n.getCacheMbuf = some m →
    ∃ bytes draw, valOf mbuf m = some bytes ∧
      o.newPacket n none draw = some (n.getMbufCacheDir, bytes, none)

/-- **The invariant of a core.**  `hand` are the references that a step has not handed on yet; the
last two parts are kept while every step is as `ok` asks. -/
structure Inv (o : Options π) (ok : Prop) (s : Core π) (held : List (Nat × Ptr)) (hand : List Ptr) :
    Prop where
  counted : Counted s.mbuf (hand ++ (s.queued ++ held.map Prod.snd))
  perm : s.cached.Perm (s.released ++ held)
  onceNode : (s.cached.map Prod.fst).Nodup
  onceMbuf : (s.cached.map Prod.snd).Nodup
  cachedLt : ∀ x ∈ s.cached, x.1 < s.nextNode ∧ x.2 < s.nextPtr
  mbufLt : ∀ m, (s.mbuf m).isSome = true → m < s.nextPtr
  pluginLt : ∀ a, (s.plugin a).isSome = true → a < s.nextPtr
  apart : ∀ a, (s.plugin a).isSome = true → s.mbuf a = none
  nodes : Nodes o s.node s.nextNode s.plugin s.mbuf held s.released
  few : ok → s.cached.length = min s.mbufCache.toNat 99
  packets : ok → ∀ dir, s.given dir = (s.sent dir).map (Sent.packet o dir)

/-! ## 2. References -/

/-- A fault that is not one of memory. -/
def Benign (e : CoreFault) : Prop := e = .noNode ∨ e = .exit

variable {node : CGenNode} {dir : PktDir} {plugin : Ptr → Option π}

theorem getCacheMbuf_eq_some {m : Ptr} :
    node.getCacheMbuf = some m ↔ testFlag node.flags nodeFlagsMbufCache = true ∧
        node.pluginInfo = some m := by
  unfold CGenNode.getCacheMbuf
  split <;> simp_all

theorem getPluginInfo_eq_some {a : Ptr} :
    node.getPluginInfo = some a ↔ testFlag node.flags nodeFlagsMbufCache = false ∧
        node.pluginInfo = some a := by
  unfold CGenNode.getPluginInfo
  split <;> simp_all

theorem given_congr {s s' : Core π} (hwire : s'.wire dir = s.wire dir)
    (htable : s'.table dir = s.table dir)
    (hval : ∀ m ∈ s.table dir, valOf s'.mbuf m = valOf s.mbuf m) :
    s'.given dir = s.given dir := by
  unfold Core.given
  rw [hwire, htable]
  refine congrArg _ (map_congr_left ?_)
  intro m hm
  rw [hval m hm]

theorem mem_queued {s : Core π} {m : Ptr} (h : m ∈ s.table dir) : m ∈ s.queued := by
  unfold Core.queued
  cases dir with
  | client => exact mem_append_left _ h
  | server => exact mem_append_right _ h

theorem NodeOk.mono {o : Options π} {plugin' : Ptr → Option π} (h : NodeOk o plugin node)
    (hplugin : ∀ a, node.getPluginInfo = some a → (plugin a).isSome = true →
      (plugin' a).isSome = true) : NodeOk o plugin' node :=
  { h with
    plain := fun hclear => ⟨(h.plain hclear).1, fun a ha =>
      hplugin a (getPluginInfo_eq_some.mpr ⟨hclear, ha⟩) ((h.plain hclear).2 a ha)⟩ }

namespace Nodes

variable {o : Options π} {node : Nat → Option CGenNode} {nextNode nextNode' : Nat}
  {plugin plugin' : Ptr → Option π} {mbuf mbuf' : Ptr →
    Option (Shared (List UInt8))} {held held' released released' : List (Nat × Ptr)}

theorem setMbuf (h : Nodes o node nextNode plugin mbuf held released)
    (hval : ∀ a ∈ held.map Prod.snd, valOf mbuf' a = valOf mbuf a) :
    Nodes o node nextNode plugin mbuf' held released :=
  { h with
    same := by
      intro p n m hp hm
      obtain ⟨bytes, draw, hbytes, hnew⟩ := h.same p n m hp hm
      have hmem : (p, m) ∈ held := (h.held_iff p m).mpr ⟨n, hp, hm⟩
      refine ⟨bytes, draw, ?_, hnew⟩
      rw [← hbytes]
      exact hval m (mem_map_of_mem hmem) }

theorem setPlugin (h : Nodes o node nextNode plugin mbuf held released)
    (hplugin : ∀ p n a, node p = some n → n.getPluginInfo = some a → (plugin a).isSome = true →
      (plugin' a).isSome = true) : Nodes o node nextNode plugin' mbuf held released :=
  { h with ok := fun p n hp => (h.ok p n hp).mono fun a => hplugin p n a hp }

/-- **One node changes**: it begins, goes on or ends. -/
theorem update (h : Nodes o node nextNode plugin mbuf held released) (p : Nat) (x : Option CGenNode)
    (hheld : ∀ q m, (q, m) ∈ held' ↔
      if q = p then x.bind CGenNode.getCacheMbuf = some m else (q, m) ∈ held)
    (hdead : ∀ y ∈ released', y ∈ released ∧ (y.1 = p → x = none) ∨ y.1 = p ∧ x = none)
    (hle : nextNode ≤ nextNode') (hlt : x.isSome = true → p < nextNode')
    (hok : ∀ n, x = some n → NodeOk o plugin n)
    (howner : ∀ n q n' a, x = some n → node q = some n' → n.getPluginInfo = some a →
      n'.getPluginInfo = some a → q = p) (hsame : ∀ n m, x = some n → n.getCacheMbuf = some m →
      ∃ bytes draw, valOf mbuf m = some bytes ∧
        o.newPacket n none draw = some (n.getMbufCacheDir, bytes, none)) :
    Nodes o (Function.update node p x) nextNode' plugin mbuf held' released' where
  held_iff := by
    intro q m
    rw [hheld]
    by_cases hq : q = p
    · rw [if_pos hq, hq, Function.update_self]
      exact Option.bind_eq_some_iff
    · rw [if_neg hq, Function.update_of_ne hq]
      exact h.held_iff q m
  dead := by
    intro y hy
    by_cases hq : y.1 = p
    · rw [hq, Function.update_self]
      rcases hdead y hy with ⟨-, hx⟩ | ⟨-, hx⟩
      · exact hx hq
      · exact hx
    · rw [Function.update_of_ne hq]
      rcases hdead y hy with ⟨hmem, -⟩ | ⟨heq, -⟩
      · exact h.dead y hmem
      · exact absurd heq hq
  lt := by
    intro q n hn
    by_cases hq : q = p
    · rw [hq, Function.update_self] at hn
      rw [hq]
      exact hlt (by rw [hn]; rfl)
    · rw [Function.update_of_ne hq] at hn
      exact Nat.lt_of_lt_of_le (h.lt q n hn) hle
  ok := by
    intro q n hn
    by_cases hq : q = p
    · rw [hq, Function.update_self] at hn
      exact hok n hn
    · rw [Function.update_of_ne hq] at hn
      exact h.ok q n hn
  owner := by
    intro q r n n' a hn hn' ha ha'
    by_cases hq : q = p <;> by_cases hr : r = p
    · rw [hq, hr]
    · rw [hq, Function.update_self] at hn
      rw [Function.update_of_ne hr] at hn'
      exact hq.trans (howner n r n' a hn hn' ha ha').symm
    · rw [Function.update_of_ne hq] at hn
      rw [hr, Function.update_self] at hn'
      exact (howner n' q n a hn' hn ha' ha).trans hr.symm
    · rw [Function.update_of_ne hq] at hn
      rw [Function.update_of_ne hr] at hn'
      exact h.owner q r n n' a hn hn' ha ha'
  same := by
    intro q n m hn hm
    by_cases hq : q = p
    · rw [hq, Function.update_self] at hn
      exact hsame n m hn hm
    · rw [Function.update_of_ne hq] at hn
      exact h.same q n m hn hm

/-- **A node ends.** -/
theorem erase (h : Nodes o node nextNode plugin mbuf held released) (p : Nat)
    (hheld : ∀ q m, (q, m) ∈ held' ↔ q ≠ p ∧ (q, m) ∈ held)
    (hdead : ∀ y ∈ released', y ∈ released ∨ y.1 = p) :
    Nodes o (Function.update node p none) nextNode plugin mbuf held' released' := by
  refine h.update p none ?_ ?_ (Nat.le_refl _) (fun hsome => by cases hsome)
    (fun _ hn => by cases hn) (fun _ _ _ _ hn => by cases hn) (fun _ _ hn => by cases hn)
  · intro q m
    rw [hheld]
    split <;> simp_all
  · intro y hy
    rcases hdead y hy with hy | hyp
    · exact Or.inl ⟨hy, fun _ => rfl⟩
    · exact Or.inr ⟨hyp, rfl⟩

end Nodes

/-- The tables are that of a side and the rest. -/
theorem queued_perm (table : PktDir → List Ptr) (dir : PktDir) :
    ∃ rest : List Ptr, (table .client ++ table .server).Perm (table dir ++ rest) ∧ ∀ l : List Ptr,
      ((Function.update table dir l) .client ++ (Function.update table dir l) .server).Perm
          (l ++ rest) := by
  cases dir with
  | client => exact ⟨table .server, List.Perm.refl _, fun l => List.Perm.refl _⟩
  | server => exact ⟨table .client, perm_append_comm, fun l => perm_append_comm⟩

theorem mapM_of_isSome {α β : Type} {f : α → Option β} {l : List α}
    (h : ∀ a ∈ l, (f a).isSome = true) :
    ∃ r, l.mapM f = some r ∧ r.map some = l.map f := by
  induction l with
  | nil => exact ⟨[], rfl, rfl⟩
  | cons a l ih =>
    obtain ⟨r, hr, hmap⟩ := ih fun b hb => h b (mem_cons_of_mem a hb)
    obtain ⟨b, hb⟩ := Option.isSome_iff_exists.mp (h a mem_cons_self)
    refine ⟨b :: r, ?_, ?_⟩
    · rw [mapM_cons, hb, hr]
      rfl
    · rw [map_cons, map_cons, hb, hmap]

section Inv

variable {o : Options π} {ok : Prop} {s : Core π} {held : List (Nat × Ptr)} {hand hand' : List Ptr}
    {m : Ptr}

namespace Inv

theorem holder (h : Inv o ok s held hand) (hm : m ∈ hand ++ (s.queued ++ held.map Prod.snd)) :
    (s.mbuf m).isSome = true := (h.counted.held m).mp hm

/-- **References change hands**: what is queued or held is there as before. -/
theorem setMbuf (h : Inv o ok s held hand) {mbuf : Ptr → Option (Shared (List UInt8))}
    (hcounted : Counted mbuf (hand' ++ (s.queued ++ held.map Prod.snd)))
    (hval : ∀ a ∈ s.queued ++ held.map Prod.snd, valOf mbuf a = valOf s.mbuf a)
    (hlive : ∀ a, (mbuf a).isSome = true → (s.mbuf a).isSome = true) :
    Inv o ok { s with mbuf } held hand' :=
  { h with
    counted := hcounted
    mbufLt := fun a ha => h.mbufLt a (hlive a ha)
    apart := by
      intro a ha
      have hnone := h.apart a ha
      cases hmbuf : mbuf a with
      | none => exact hmbuf
      | some x =>
        have hsome := hlive a (by rw [hmbuf]; rfl)
        rw [hnone] at hsome
        cases hsome
    nodes := h.nodes.setMbuf fun a ha => hval a (mem_append_right _ ha)
    packets := by
      intro hok dir
      refine Eq.trans ?_ (h.packets hok dir)
      exact given_congr rfl rfl fun a ha => hval a (mem_append_left _ (mem_queued ha)) }

/-- **`rte_pktmbuf_refcnt_update`** of an mbuf that somebody holds. -/
theorem refcntUpdate (h : Inv o ok s held hand) (hm : m ∈ hand ++ (s.queued ++ held.map Prod.snd)) :
    ∃ mbuf, s.refcntUpdate m = .ok { s with mbuf } ∧ Inv o ok { s with mbuf } held (m :: hand) ∧
      ∀ a, valOf mbuf a = valOf s.mbuf a := by
  obtain ⟨mbuf, hmbuf, hcounted, hval⟩ := h.counted.retain hm
  refine ⟨mbuf, by rw [Core.refcntUpdate, hmbuf], h.setMbuf hcounted (fun a _ => hval a) ?_, hval⟩
  intro a ha
  have hv := hval a
  unfold valOf at hv
  cases hs : s.mbuf a with
  | some x => rfl
  | none =>
    rw [hs, Option.map_none, Option.map_eq_none_iff] at hv
    rw [hv] at ha
    cases ha

/-- **A new mbuf**, with its reference in hand. -/
theorem alloc (h : Inv o ok s held hand) (bytes : List UInt8) :
    Inv o ok (s.alloc bytes) held (s.nextPtr :: hand) := by
  have hfresh : s.mbuf s.nextPtr = none := by
    cases hs : s.mbuf s.nextPtr with
    | none => rfl
    | some x => exact absurd (h.mbufLt s.nextPtr (by rw [hs]; rfl)) (Nat.lt_irrefl _)
  have hne : ∀ a, (s.mbuf a).isSome = true → a ≠ s.nextPtr := by
    rintro a ha rfl
    rw [hfresh] at ha
    cases ha
  have hholder : ∀ a ∈ hand ++ (s.queued ++ held.map Prod.snd), a ≠ s.nextPtr :=
    fun a ha => hne a (h.holder ha)
  have hval : ∀ a ∈ s.queued ++ held.map Prod.snd, valOf (s.alloc bytes).mbuf a =
      valOf s.mbuf a := by
    intro a ha
    unfold valOf Core.alloc
    dsimp only
    rw [Function.update_of_ne (hholder a (mem_append_right _ ha))]
  exact { h with
    counted := h.counted.make (fun hmem => hholder _ hmem rfl) bytes
    cachedLt := fun x hx => ⟨(h.cachedLt x hx).1, Nat.lt_succ_of_lt (h.cachedLt x hx).2⟩
    mbufLt := by
      intro a ha
      by_cases hnew : a = s.nextPtr
      · rw [hnew]
        exact Nat.lt_succ_self _
      · refine Nat.lt_succ_of_lt (h.mbufLt a ?_)
        unfold Core.alloc at ha
        dsimp only at ha
        rwa [Function.update_of_ne hnew] at ha
    pluginLt := fun a ha => Nat.lt_succ_of_lt (h.pluginLt a ha)
    apart := by
      intro a ha
      have hlt := h.pluginLt a ha
      unfold Core.alloc
      dsimp only
      rw [Function.update_of_ne (Nat.ne_of_lt hlt)]
      exact h.apart a ha
    nodes := h.nodes.setMbuf fun a ha => hval a (mem_append_right _ ha)
    packets := by
      intro hok dir
      refine Eq.trans ?_ (h.packets hok dir)
      exact given_congr rfl rfl fun a ha => hval a (mem_append_left _ (mem_queued ha)) }

/-- **`send_burst`**: the table leaves, and its references are given back. -/
theorem sendBurst (h : Inv o ok s held hand) (dir : PktDir) :
    ∃ s', s.sendBurst dir = .ok s' ∧ Inv o ok s' held hand ∧ s'.node = s.node := by
  obtain ⟨rest, hall, hupdate⟩ := queued_perm s.table dir
  have hcounted : Counted s.mbuf (s.table dir ++ (hand ++ (rest ++ held.map Prod.snd))) := by
    refine h.counted.perm ((Perm.append_left _ (hall.append_right _)).trans ?_)
    rw [append_assoc]
    exact perm_append_comm_assoc _ _ _
  obtain ⟨packets, hpackets, hmap⟩ :=
      mapM_of_isSome (f := valOf s.mbuf) (l := s.table dir) fun a ha => by
    obtain ⟨v, hv⟩ := hcounted.valOf_isSome (mem_append_left _ ha)
    rw [hv]
    rfl
  obtain ⟨mbuf, hmbuf, hcounted', hval⟩ := hcounted.releaseAll
  have hqueued : (Function.update s.table dir [] .client ++
      Function.update s.table dir [] .server).Perm rest :=
    hupdate []
  have hlive : ∀ a, (mbuf a).isSome = true → (s.mbuf a).isSome = true := fun a ha =>
    (hcounted.held a).mp (mem_append_right _ ((hcounted'.held a).mpr ha))
  have hval' : ∀ a ∈ rest ++ held.map Prod.snd, valOf mbuf a = valOf s.mbuf a := fun a ha =>
    hval a (mem_append_right _ ha)
  refine ⟨{ s with
    mbuf
    wire := Function.update s.wire dir (s.wire dir ++ packets)
    table := Function.update s.table dir [] }, by rw [Core.sendBurst, hpackets, hmbuf], ?_, rfl⟩
  -- the table is taken away first, and then the references that were in it
  have hemptied : Inv o False { s with table := Function.update s.table dir [] } held
      (s.table dir ++ hand) :=
    { h with
      counted := by
        refine hcounted.perm ?_
        rw [append_assoc]
        exact Perm.append_left _ (Perm.append_left _ (hqueued.symm.append_right _))
      few := fun hok => hok.elim
      packets := fun hok => hok.elim }
  have hgiven := hemptied.setMbuf
    (hcounted'.perm (Perm.append_left _ (hqueued.symm.append_right _)))
    (fun a ha => hval' a ((hqueued.append_right _).mem_iff.mp ha)) hlive
  exact { hgiven with
    few := h.few
    packets := by
      intro hok dir'
      refine Eq.trans ?_ (h.packets hok dir')
      by_cases hdir : dir' = dir
      · subst hdir
        simp only [Core.given, Function.update_self, map_append, map_nil, append_nil]
        refine congrArg _ ?_
        have hpair : packets.map (fun bytes => some (dir', bytes)) =
            (packets.map some).map fun x => x.map fun bytes => (dir', bytes) := by
          rw [map_map]
          rfl
        rw [hpair, hmap, map_map]
        rfl
      · refine given_congr ?_ ?_ ?_
        · exact Function.update_of_ne hdir _ _
        · exact Function.update_of_ne hdir _ _
        · intro a ha
          refine hval' a (mem_append_left _ (hqueued.mem_iff.mp ?_))
          have hmem : a ∈ Core.table { s with table := Function.update s.table dir [] } dir' := by
            dsimp only
            rwa [Function.update_of_ne hdir]
          exact mem_queued hmem }

/-- **`send_pkt`**: the reference in hand goes into the table. -/
theorem sendPkt (h : Inv o ok s held (m :: hand)) (dir : PktDir) (x : Sent π)
    (hx : ok → (valOf s.mbuf m).map (fun bytes => (dir, bytes)) = x.packet o dir) :
    ∃ s', s.sendPkt dir m x = .ok s' ∧ Inv o ok s' held hand ∧ s'.node = s.node := by
  obtain ⟨rest, hall, hupdate⟩ := queued_perm s.table dir
  have hpushed : Inv o ok { s with
      table := Function.update s.table dir (s.table dir ++ [m])
      sent := Function.update s.sent dir (s.sent dir ++ [x]) } held hand :=
    { h with
      counted := by
        refine h.counted.perm ?_
        have hnew : (m :: s.queued).Perm
            (Function.update s.table dir (s.table dir ++ [m]) .client ++
              Function.update s.table dir (s.table dir ++ [m]) .server) := by
          refine List.Perm.trans ?_ (hupdate (s.table dir ++ [m])).symm
          rw [append_assoc]
          exact (hall.cons m).trans perm_middle.symm
        refine List.Perm.trans ?_ (Perm.append_left _ (hnew.append_right _))
        exact perm_middle.symm
      packets := by
        intro hok dir'
        by_cases hdir : dir' = dir
        · subst hdir
          have hgiven := h.packets hok dir'
          simp only [Core.given, Function.update_self, map_append, map_cons, map_nil] at hgiven ⊢
          rw [← append_assoc, hgiven, hx hok]
        · have hgiven := h.packets hok dir'
          simp only [Core.given, Function.update_of_ne hdir] at hgiven ⊢
          exact hgiven }
  unfold Core.sendPkt
  dsimp only
  split
  · exact hpushed.sendBurst dir
  · exact ⟨_, rfl, hpushed, rfl⟩

end Inv

/-! ## 3. The cache of a node -/

/-- A node without an mbuf has its own `m_plugin_info`. -/
theorem NodeOk.clear (h : NodeOk o plugin node) (hnone : node.getCacheMbuf = none) :
    testFlag node.flags nodeFlagsMbufCache = false := by
  cases hflag : testFlag node.flags nodeFlagsMbufCache with
  | false => rfl
  | true =>
    have hsome := (h.cache hflag).2.2.2
    unfold CGenNode.getCacheMbuf at hnone
    rw [hflag, if_pos rfl] at hnone
    rw [hnone] at hsome
    cases hsome

/-- **A node of one packet is not one that waits for a translation.** -/
theorem NodeOk.flowPkt (h : NodeOk o plugin node) (hcan : o.canCacheMbuf node = true) :
    node.type = .flowPkt := by
  cases htype : node.type with
  | flowPkt => rfl
  | flowPktNat =>
    obtain ⟨lp, hlp, hbi⟩ := h.nat htype
    rw [Options.canCacheMbuf, Bool.and_eq_true, beq_iff_eq] at hcan
    rw [(o.template node.template).not_bidirectional hcan.2 hlp] at hbi
    cases hbi

/-- **Nor one of a plug-in that keeps data.** -/
theorem not_hasFlowData_of_canCache (hcan : o.canCacheMbuf node = true) :
    hasFlowData (o.template node.template).pluginId = false := by
  rw [Options.canCacheMbuf, Bool.and_eq_true] at hcan
  rcases (o.template node.template).plugin_of_limit hcan.1 with hid | hid <;> rw [hid] <;> rfl

namespace Inv

variable {p : Nat}

/-- **What a plug-in reads is its own.** -/
theorem pluginData (h : Inv o ok s held hand) (hp : s.node p = some node)
    (hnone : node.getCacheMbuf = none) : ∃ info, o.pluginData s node = .ok info ∧
      (hasFlowData (o.template node.template).pluginId = false → info = none) := by
  have hok := h.nodes.ok p node hp
  obtain ⟨hinfo, hdata⟩ := hok.plain (hok.clear hnone)
  unfold Options.pluginData
  split
  · rename_i hflow
    rw [hflow] at hinfo
    obtain ⟨a, ha⟩ := Option.isSome_iff_exists.mp hinfo
    obtain ⟨data, hd⟩ := Option.isSome_iff_exists.mp (hdata a ha)
    refine ⟨some data, ?_, fun hflow' => ?_⟩
    · rw [ha, Option.bind_some, hd]
    · rw [hflow] at hflow'
      cases hflow'
  · exact ⟨none, rfl, fun _ => rfl⟩

/-- What a plug-in writes is its own. -/
theorem storePlugin (h : Inv o ok s held hand) (hp : s.node p = some node)
    (hnone : node.getCacheMbuf = none) (info : Option π) :
    ∃ plugin, s.storePlugin node info = { s with plugin } ∧
        Inv o ok { s with plugin } held hand := by
  have hok := h.nodes.ok p node hp
  obtain ⟨-, hdata⟩ := hok.plain (hok.clear hnone)
  unfold Core.storePlugin
  cases ha : node.pluginInfo with
  | none => exact ⟨s.plugin, rfl, h⟩
  | some a =>
    cases info with
    | none => exact ⟨s.plugin, rfl, h⟩
    | some data =>
      have hlive : ∀ b, (Function.update s.plugin a (some data) b).isSome =
          (s.plugin b).isSome := by
        intro b
        by_cases hb : b = a
        · rw [hb, Function.update_self, hdata a ha]
          rfl
        · rw [Function.update_of_ne hb]
      exact ⟨_, rfl, { h with
        pluginLt := fun b hb => h.pluginLt b ((hlive b).symm.trans hb)
        apart := fun b hb => h.apart b ((hlive b).symm.trans hb)
        nodes := h.nodes.setPlugin fun q n b hq hb hsome => (hlive b).trans hsome }⟩

/-- A node that keeps no mbuf never kept one. -/
theorem not_mem_cached (h : Inv o ok s held hand) (hp : s.node p = some node)
    (hnone : node.getCacheMbuf = none) : p ∉ s.cached.map Prod.fst := by
  intro hmem
  obtain ⟨⟨q, m'⟩, hx, rfl⟩ := mem_map.mp hmem
  rcases mem_append.mp (h.perm.mem_iff.mp hx) with hreleased | hheld
  · have hdead := h.nodes.dead _ hreleased
    rw [hp] at hdead
    cases hdead
  · obtain ⟨node', hp', hcache⟩ := (h.nodes.held_iff q m').mp hheld
    rw [hp] at hp'
    cases hp'
    rw [hnone] at hcache
    cases hcache

/-- **The mbuf is cached**, with one more reference. -/
theorem setCache (h : Inv o ok s held (m :: hand)) {bytes : List UInt8}
    (hp : s.node p = some node) (hnone : node.getCacheMbuf = none)
    (hcan : o.canCacheMbuf node = true) (hrx : node.isRxCheckEnabled = false)
    (hfresh : ∀ x ∈ s.cached, x.2 ≠ m) (hbytes : valOf s.mbuf m = some bytes)
    (hnew : ∃ draw, o.newPacket node none draw = some (dir, bytes, none)) (mbufCache : UInt16)
    (hfew : ok → s.cached.length + 1 = min mbufCache.toNat 99) :
    ∃ mbuf, ({ s with
        mbufCache
        cached := s.cached ++ [(p, m)] }.setNode p (node.withCache dir m)).refcntUpdate m =
          .ok { s with
            mbufCache
            cached := s.cached ++ [(p, m)]
            node := Function.update s.node p (some (node.withCache dir m))
            mbuf } ∧
      Inv o ok { s with
        mbufCache
        cached := s.cached ++ [(p, m)]
        node := Function.update s.node p (some (node.withCache dir m))
        mbuf } ((p, m) :: held) (m :: hand) ∧ valOf mbuf m = some bytes := by
  have hok := h.nodes.ok p node hp
  have hmem := h.not_mem_cached hp hnone
  obtain ⟨mbuf, hmbuf, hinv, hval⟩ := h.refcntUpdate (m := m) (mem_append_left _ mem_cons_self)
  have hretain : retain s.mbuf m = some mbuf := by
    unfold Core.refcntUpdate at hmbuf
    split at hmbuf
    · rename_i mbuf' hretain
      cases hmbuf
      exact hretain
    · cases hmbuf
  refine ⟨mbuf, ?_, ?_, (hval m).trans hbytes⟩
  · unfold Core.refcntUpdate Core.setNode
    rw [hretain]
  have hcached : (node.withCache dir m).getCacheMbuf = some m := getCacheMbuf_withCache node dir m
  have hflag := (getCacheMbuf_eq_some.mp hcached).1
  exact { hinv with
    counted := by
      refine hinv.counted.perm ?_
      have hmove : (m :: (s.queued ++ held.map Prod.snd)).Perm (s.queued ++ m ::
          held.map Prod.snd) :=
        perm_middle.symm
      have hfront : (m :: m :: hand ++ (s.queued ++ held.map Prod.snd)).Perm
          (m :: hand ++ m :: (s.queued ++ held.map Prod.snd)) := perm_middle.symm
      exact hfront.trans (Perm.append_left _ hmove)
    perm := by
      refine (h.perm.append_right [(p, m)]).trans ?_
      rw [append_assoc]
      exact Perm.append_left _ perm_append_comm
    onceNode := by
      rw [map_append, map_cons, map_nil]
      exact nodup_append_comm.mp (nodup_cons.mpr ⟨hmem, h.onceNode⟩)
    onceMbuf := by
      rw [map_append, map_cons, map_nil]
      refine nodup_append_comm.mp (nodup_cons.mpr ⟨?_, h.onceMbuf⟩)
      intro hm
      obtain ⟨x, hx, hxm⟩ := mem_map.mp hm
      exact hfresh x hx hxm
    cachedLt := by
      intro x hx
      rcases mem_append.mp hx with hx | hx
      · exact h.cachedLt x hx
      · cases mem_singleton.mp hx
        exact ⟨h.nodes.lt p node hp, h.mbufLt m (h.holder (mem_append_left _ mem_cons_self))⟩
    nodes := by
      refine hinv.nodes.update p (some (node.withCache dir m)) ?_ ?_ (Nat.le_refl _)
        (fun _ => h.nodes.lt p node hp) ?_ ?_ ?_
      · intro q m'
        rw [mem_cons, Option.bind_some, hcached, Prod.mk.injEq]
        split
        · rename_i hq
          rw [hq, h.nodes.held_iff, hp]
          simp [hnone, eq_comm]
        · rename_i hq
          simp [hq]
      · intro y hy
        refine Or.inl ⟨hy, fun hyp => ?_⟩
        have hdead := h.nodes.dead y hy
        rw [hyp, hp] at hdead
        cases hdead
      · rintro n ⟨⟩
        refine ⟨hok.pktInfo, hok.nat, fun _ => ⟨hcan, hok.flowPkt hcan, ?_, rfl⟩, fun hclear => ?_⟩
        · rw [isRxCheckEnabled_withCache]
          exact hrx
        · rw [hflag] at hclear
          cases hclear
      · rintro n q n' a ⟨⟩ - ha -
        rw [getPluginInfo_eq_some, hflag] at ha
        cases ha.1
      · rintro n m' ⟨⟩ hm'
        rw [hcached] at hm'
        cases hm'
        obtain ⟨draw, hdraw⟩ := hnew
        refine ⟨bytes, draw, (hval m).trans hbytes, ?_⟩
        rw [o.newPacket_withCache hrx, getMbufCacheDir_withCache]
        exact hdraw
    few := by
      intro hok
      rw [length_append]
      exact hfew hok
    packets := hinv.packets }

/-- **The part of `send_node` that caches.** -/
theorem cacheMbuf (h : Inv o ok s held (m :: hand)) (dir : PktDir) {bytes : List UInt8}
    (hp : s.node p = some node) (hnone : node.getCacheMbuf = none)
    (hfresh : ∀ x ∈ s.cached, x.2 ≠ m) (hbytes : valOf s.mbuf m = some bytes)
    (hnew : o.countsMbuf node = true → ∃ draw, o.newPacket node none draw = some (dir, bytes, none))
    (hwrap : ok → o.countsMbuf node = true → s.mbufCache.toNat + 1 < 2 ^ 16) :
    ∃ s' held', o.cacheMbuf s p node dir m = .ok s' ∧ Inv o ok s' held' (m :: hand) ∧
      valOf s'.mbuf m = some bytes ∧
      (s'.node p = some node ∨ o.canCacheMbuf node = true ∧
          s'.node p = some (node.withCache dir m)) := by
  unfold Options.cacheMbuf
  split
  · rename_i hcounts
    have hparts := hcounts
    rw [Options.countsMbuf, Bool.and_eq_true, Bool.and_eq_true, Bool.not_eq_true'] at hparts
    obtain ⟨⟨hrx, hcan⟩, -⟩ := hparts
    have hnext : ok → (s.mbufCache + 1).toNat = s.mbufCache.toNat + 1 := by
      intro hok
      have hlt := hwrap hok hcounts
      rw [UInt16.toNat_add]
      exact Nat.mod_eq_of_lt hlt
    dsimp only
    split
    · rename_i hlt
      obtain ⟨mbuf, hrun, hinv, hval⟩ := h.setCache hp hnone hcan hrx hfresh hbytes (hnew hcounts)
        (s.mbufCache + 1) fun hok => by
          have hfew := h.few hok
          have hlt' : (s.mbufCache + 1).toNat < 100 := hlt
          rw [hnext hok] at hlt' ⊢
          omega
      exact ⟨_, _, hrun, hinv, hval, Or.inr ⟨hcan, Function.update_self _ _ _⟩⟩
    · rename_i hge
      refine ⟨_, held, rfl, ?_, hbytes, Or.inl hp⟩
      exact { h with
        few := by
          intro hok
          have hfew := h.few hok
          have hge' : ¬ (s.mbufCache + 1).toNat < 100 := hge
          show s.cached.length = min (s.mbufCache + 1).toNat 99
          rw [hnext hok] at hge' ⊢
          omega
        packets := h.packets }
  · exact ⟨s, held, rfl, h, hbytes, Or.inl hp⟩

end Inv

/-- What a send of a node asks for: an mbuf that is sent again holds a packet that is not drawn, and
`m_mbuf_cache` does not wrap. -/
structure SendMeets (o : Options π) (s : Core π) (node : CGenNode) : Prop where
  drawn : node.getCacheMbuf.isSome = true → o.isDrawn node = false
  wrap : node.getCacheMbuf = none → o.countsMbuf node = true → s.mbufCache.toNat + 1 < 2 ^ 16

/-- A node behind `send_node`. -/
def AfterSend (o : Options π) (node node' : CGenNode) : Prop :=
  node' = node ∨ o.canCacheMbuf node = true ∧ ∃ dir m, node' = node.withCache dir m

namespace Inv

/-- **`send_node`.** -/
theorem sendNode (h : Inv o ok s held []) {p : Nat} (hp : s.node p = some node) (draw : Draw)
    (hmeets : ok → SendMeets o s node) :
    Post (o.sendNode s p node draw)
      (fun s' => ∃ held' node', Inv o ok s' held' [] ∧ s'.node p = some node' ∧
          AfterSend o node node') Benign := by
  have hok := h.nodes.ok p node hp
  unfold Options.sendNode
  cases hcache : node.getCacheMbuf with
  | some m =>
    have hmem : (p, m) ∈ held := (h.nodes.held_iff p m).mpr ⟨node, hp, hcache⟩
    obtain ⟨hcan, -, hrx, -⟩ := hok.cache (getCacheMbuf_eq_some.mp hcache).1
    obtain ⟨bytes, draw0, hbytes, hnew⟩ := h.nodes.same p node m hp hcache
    obtain ⟨mbuf, hretain, hinv, hval⟩ := h.refcntUpdate (m := m)
      (mem_append_right _ (mem_append_right _ (mem_map_of_mem hmem)))
    obtain ⟨s', hsend, hinv', hnode⟩ :=
        hinv.sendPkt node.getMbufCacheDir (.flow node none draw) fun hok' => by
      -- the packet of now is the one of then
      have hsame := o.newPacket_congr hcan hrx ((hmeets hok').drawn (by rw [hcache]; rfl)) draw
        draw0
      show (valOf mbuf m).map _ = (o.newPacket node none draw).map _
      rw [hsame, hnew, hval, hbytes]
      rfl
    simp only [hretain, ok_bind, hsend, post_ok]
    exact ⟨held, node, hinv', hnode ▸ hp, Or.inl rfl⟩
  | none =>
    obtain ⟨info, hinfo, hnoInfo⟩ := h.pluginData hp hcache
    simp only [hinfo, ok_bind]
    cases hnew : o.newPacket node info draw with
    | none => exact Or.inr rfl
    | some r =>
      obtain ⟨dir, bytes, info'⟩ := r
      obtain ⟨plugin, hplugin, hinv⟩ := h.storePlugin hp hcache info'
      have halloc := hinv.alloc bytes
      have hfresh : ∀ x ∈ s.cached, x.2 ≠ s.nextPtr := fun x hx => Nat.ne_of_lt (h.cachedLt x hx).2
      have hbytes : valOf (({ s with plugin } : Core π).alloc bytes).mbuf s.nextPtr =
          some bytes := by
        simp [valOf, Core.alloc]
      obtain ⟨s1, held1, hrun, hinv1, hbytes1, hnode1⟩ :=
        halloc.cacheMbuf dir hp hcache hfresh hbytes (fun hcounts => by
          rw [Options.countsMbuf, Bool.and_eq_true, Bool.and_eq_true] at hcounts
          have hflow := not_hasFlowData_of_canCache hcounts.1.2
          obtain rfl := hnoInfo hflow
          obtain rfl := o.newPacket_info hflow hnew
          exact ⟨draw, hnew⟩)
        (fun hok' hcounts => (hmeets hok').wrap hcache hcounts)
      obtain ⟨s', hsend, hinv', hnode⟩ := hinv1.sendPkt dir (.flow node info draw) fun _ => by
        show (valOf s1.mbuf s.nextPtr).map _ = (o.newPacket node info draw).map _
        rw [hbytes1, hnew]
        rfl
      simp only [hplugin, hrun, ok_bind, hsend, post_ok]
      rcases hnode1 with hnode1 | ⟨hcan, hnode1⟩
      · exact ⟨held1, node, hinv', hnode ▸ hnode1, Or.inl rfl⟩
      · exact ⟨held1, _, hinv', hnode ▸ hnode1, Or.inr ⟨hcan, dir, s.nextPtr, rfl⟩⟩

end Inv

end Inv

end Trex.Eth
