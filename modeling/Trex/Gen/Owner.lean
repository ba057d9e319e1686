/-
# Who keeps the nodes of a thread

A node of a generator thread is in the queue of the scheduler, in one of the two jobs that release
ports, or in the hand of the scheduler while it handles messages; `Owned` says that every live node
is in exactly one of these places, and that every other node was returned to the pool of the thread
exactly once.

The lookup map of the learn mode does not keep its nodes: they are in the queue as well.  `Delete`
frees them all the same.  After a run that was not closed cleanly the map may not be empty, and its
nodes, which `close_file` has freed, are freed again, into another pool; and the jobs that were not
full are lost.
-/
import Trex.Dp.Return
import Trex.Flow.NatSafe
import Trex.Gen.Play
import Trex.Lib.Ledger

namespace Trex.Gen

open Trex.Lib List
open Trex.Flow (nodeFlowId_toUInt32)

variable {κ : Type} [DecidableEq κ] {learnMode : Bool}

/-! ## 1. Owners -/

/-- The node that the scheduler has in its hand between two steps. -/
def Phase.held : Phase → List Ptr
  | .sync _ p => [p]
  | _ => []

namespace GenThread

/-- The nodes that the thread keeps. -/
def owners (s : GenThread κ learnMode) : List Ptr := s.queue ++ (s.tcpDpc.toList ++ s.udpDpc.toList)

/-- The addresses that `create_node` has given. -/
def made (s : GenThread κ learnMode) (p : Ptr) : Bool := decide (p < s.fresh)

/-- The nodes that are in use. -/
def live (s : GenThread κ learnMode) (p : Ptr) : Bool := (s.node p).isSome

/-- **Every node is kept once or was returned once**, a job is a job, and the nodes of the map are
flows that wait for their translation. -/
structure Owned (held : List Ptr) (s : GenThread κ learnMode) : Prop where
  ledger : Ledger s.made s.live (held ++ s.owners) s.returned
  dpc : ∀ isTcp d, s.dpc isTcp = some d → ∃ time clients, s.node d = some (.deferPort time clients)
  lookup : ∀ fid p, s.lookup.lookup fid = some p →
    ∃ f, s.node p = some (.flow f) ∧ f.type = .flowPktNat ∧ f.getShortFid = fid
  noGlobal : s.returnedGlobal = []

variable {s s' : GenThread κ learnMode} {held held' : List Ptr} {p d : Ptr} {isTcp : Bool}

theorem mem_owners_of_dpc (h : s.dpc isTcp = some d) : d ∈ s.owners := by
  cases isTcp with
  | true => simp [owners, show s.tcpDpc = some d from h]
  | false => simp [owners, show s.udpDpc = some d from h]

/-- A node is handed on; the memory is as it was. -/
theorem Owned.hand (h : Owned held s) (hnode : s'.node = s.node) (hfresh : s'.fresh = s.fresh)
    (hreturned : s'.returned = s.returned) (hglobal : s'.returnedGlobal = s.returnedGlobal)
    (hlookup : s'.lookup = s.lookup) (hperm : (held ++ s.owners).Perm (held' ++ s'.owners))
    (hdpc : ∀ isTcp d, s'.dpc isTcp = some d →
      ∃ time clients, s.node d = some (.deferPort time clients)) :
    Owned held' s' := by
  refine ⟨?_, ?_, ?_, hglobal.trans h.noGlobal⟩
  · have hledger := h.ledger.perm hperm
    have hmade : s'.made = s.made := by
      funext q
      simp only [made, hfresh]
    have hlive : s'.live = s.live := by
      funext q
      simp only [live, hnode]
    rw [hmade, hlive, hreturned]
    exact hledger
  · intro isTcp d hd
    rw [hnode]
    exact hdpc isTcp d hd
  · intro fid q hq
    rw [hnode]
    exact h.lookup fid q (hlookup ▸ hq)

/-- A node is added to the queue. -/
theorem Owned.addNode (h : Owned (p :: held) s) : Owned held (s.addNode p) :=
  h.hand rfl rfl rfl rfl rfl (by simpa [owners, GenThread.addNode] using perm_middle.symm) h.dpc

/-- A node is taken from the queue. -/
theorem Owned.take (h : Owned held s) {i : Nat} (hi : s.queue[i]? = some p) :
    Owned (p :: held) ({ s with queue := s.queue.eraseIdx i } : GenThread κ learnMode) := by
  refine h.hand rfl rfl rfl rfl rfl ?_ h.dpc
  obtain ⟨hlt, hget⟩ := List.getElem?_eq_some_iff.mp hi
  have herase : s.queue.Perm (p :: s.queue.eraseIdx i) := by
    have := getElem_cons_eraseIdx_perm hlt
    rw [hget] at this
    exact this.symm
  have hcons : (held ++ s.owners).Perm (held ++ p :: (s.queue.eraseIdx i ++
      (s.tcpDpc.toList ++ s.udpDpc.toList))) := by
    refine Perm.append_left held ?_
    exact herase.append_right _
  exact hcons.trans perm_middle

/-- A job is taken out. -/
theorem Owned.takeDpc (h : Owned held s) (hd : s.dpc isTcp = some d) :
    Owned (d :: held) (s.setDpc isTcp none) := by
  cases isTcp with
  | true =>
    have htcp : s.tcpDpc = some d := hd
    refine h.hand rfl rfl rfl rfl rfl ?_ ?_
    · have hperm : s.owners.Perm (d :: (s.setDpc true none).owners) := by
        simp only [owners, setDpc, htcp, Option.toList_some, Option.toList_none, nil_append,
          singleton_append, if_true]
        exact perm_middle
      exact (hperm.append_left held).trans perm_middle
    · intro isTcp' d' hd'
      cases isTcp' with
      | true => cases hd'
      | false => exact h.dpc false d' hd'
  | false =>
    have hudp : s.udpDpc = some d := hd
    refine h.hand rfl rfl rfl rfl rfl ?_ ?_
    · have hperm : s.owners.Perm (d :: (s.setDpc false none).owners) := by
        simp only [owners, setDpc, hudp, Option.toList_some, Option.toList_none, append_nil,
          Bool.false_eq_true, if_false]
        rw [← append_assoc]
        exact perm_append_singleton _ _
      exact (hperm.append_left held).trans perm_middle
    · intro isTcp' d' hd'
      cases isTcp' with
      | true => exact h.dpc true d' hd'
      | false => cases hd'

/-- A node becomes the job that waits. -/
theorem Owned.giveDpc (h : Owned (d :: held) s) (hnone : s.dpc isTcp = none)
    (hd : ∃ time clients, s.node d = some (.deferPort time clients)) :
    Owned held (s.setDpc isTcp (some d)) := by
  cases isTcp with
  | true =>
    have htcp : s.tcpDpc = none := hnone
    refine h.hand rfl rfl rfl rfl rfl ?_ ?_
    · have hperm : (d :: s.owners).Perm (s.setDpc true (some d)).owners := by
        simp only [owners, setDpc, htcp, Option.toList_some, Option.toList_none, nil_append,
          singleton_append, if_true]
        exact perm_middle.symm
      exact perm_middle.symm.trans (hperm.append_left held)
    · intro isTcp' d' hd'
      cases isTcp' with
      | true =>
        cases hd'
        exact hd
      | false => exact h.dpc false d' hd'
  | false =>
    have hudp : s.udpDpc = none := hnone
    refine h.hand rfl rfl rfl rfl rfl ?_ ?_
    · have hperm : (d :: s.owners).Perm (s.setDpc false (some d)).owners := by
        simp only [owners, setDpc, hudp, Option.toList_some, Option.toList_none, append_nil,
          Bool.false_eq_true, if_false]
        rw [← append_assoc]
        exact (perm_append_singleton _ _).symm
      exact perm_middle.symm.trans (hperm.append_left held)
    · intro isTcp' d' hd'
      cases isTcp' with
      | true => exact h.dpc true d' hd'
      | false =>
        cases hd'
        exact hd

/-! ## 2. Memory -/

/-- A live node is written. -/
theorem Owned.setNode (h : Owned held s) {old : CGenNode κ learnMode} (hp : s.node p = some old)
    (node : CGenNode κ learnMode)
    (hdpc : ∀ isTcp, s.dpc isTcp = some p → ∃ time clients, node = .deferPort time clients)
    (hlookup : ∀ fid, s.lookup.lookup fid = some p →
      ∃ f, node = .flow f ∧ f.type = .flowPktNat ∧ f.getShortFid = fid) :
    Owned held (s.setNode p node) := by
  refine ⟨?_, ?_, ?_, h.noGlobal⟩
  · have hlive : (s.setNode p node).live = s.live := by
      funext q
      by_cases hq : q = p
      · subst hq
        simp [live, GenThread.setNode, hp]
      · simp [live, GenThread.setNode, Function.update_of_ne hq]
    rw [hlive]
    exact h.ledger
  · intro isTcp d hd
    by_cases hdp : d = p
    · subst hdp
      obtain ⟨time, clients, rfl⟩ := hdpc isTcp hd
      exact ⟨time, clients, by simp [GenThread.setNode]⟩
    · simpa [GenThread.setNode, Function.update_of_ne hdp] using h.dpc isTcp d hd
  · intro fid q hq
    by_cases hqp : q = p
    · subst hqp
      obtain ⟨f, rfl, hf⟩ := hlookup fid hq
      exact ⟨f, by simp [GenThread.setNode], hf⟩
    · simpa [GenThread.setNode, Function.update_of_ne hqp] using h.lookup fid q hq

/-- The node in the hand is not a job. -/
theorem Owned.dpc_ne (h : Owned (p :: held) s) (isTcp : Bool) : s.dpc isTcp ≠ some p := by
  intro hd
  exact h.ledger.not_mem (mem_append_right held (mem_owners_of_dpc hd))

theorem Owned.exists_node (h : Owned held s) (hp : p ∈ held ++ s.owners) :
    ∃ node, s.node p = some node :=
  Option.isSome_iff_exists.mp (h.ledger.mem_iff.mp hp)

/-- **The node in the hand is written and goes to the queue.** -/
theorem Owned.push (h : Owned (p :: held) s) (node : CGenNode κ learnMode)
    (hlookup : ∀ fid, s.lookup.lookup fid = some p →
      ∃ f, node = .flow f ∧ f.type = .flowPktNat ∧ f.getShortFid = fid) :
    Owned held ((s.setNode p node).addNode p) := by
  obtain ⟨old, hold⟩ := h.exists_node (mem_append_left _ mem_cons_self)
  exact (h.setNode hold node (fun isTcp hd => absurd hd (h.dpc_ne isTcp)) hlookup).addNode

/-- **`create_node`.** -/
theorem Owned.create (h : Owned held s) (node : CGenNode κ learnMode) :
    Owned (s.fresh :: held) (s.createNode node) := by
  have hmade : s.made s.fresh = false := by simp [made]
  have hne : ∀ {q n}, s.node q = some n → q ≠ s.fresh := by
    rintro q n hq rfl
    have hlive : s.live s.fresh = true := by simp [live, hq]
    rw [h.ledger.made _ hlive] at hmade
    cases hmade
  refine ⟨?_, ?_, ?_, h.noGlobal⟩
  · have hnew := h.ledger.make hmade
    have hmade' : (s.createNode node).made = Function.update s.made s.fresh true := by
      funext q
      by_cases hq : q = s.fresh
      · subst hq
        simp [made, createNode, GenThread.setNode]
      · rw [Function.update_of_ne hq]
        have hlt : q < s.fresh + 1 ↔ q < s.fresh :=
          ⟨fun h => (Nat.lt_succ_iff_lt_or_eq.mp h).resolve_right hq, Nat.lt_succ_of_lt⟩
        simp [made, createNode, GenThread.setNode, hlt]
    have hlive : (s.createNode node).live = Function.update s.live s.fresh true := by
      funext q
      by_cases hq : q = s.fresh
      · subst hq
        simp [live, createNode, GenThread.setNode]
      · simp [live, createNode, GenThread.setNode, Function.update_of_ne hq]
    rw [hmade', hlive]
    exact hnew
  · intro isTcp d hd
    obtain ⟨time, clients, hnode⟩ := h.dpc isTcp d hd
    refine ⟨time, clients, ?_⟩
    simpa [createNode, GenThread.setNode, Function.update_of_ne (hne hnode)] using hnode
  · intro fid q hq
    obtain ⟨f, hnode, hf⟩ := h.lookup fid q hq
    refine ⟨f, ?_, hf⟩
    simpa [createNode, GenThread.setNode, Function.update_of_ne (hne hnode)] using hnode

/-- The thread after `free_node`. -/
def freed (s : GenThread κ learnMode) (p : Ptr) : GenThread κ learnMode :=
  { s with node := Function.update s.node p none, returned := s.returned ++ [p] }

theorem freeNode_eq {node : CGenNode κ learnMode} (hp : s.node p = some node) :
    s.freeNode p = .ok (s.freed p) := by
  simp only [freeNode, deref, hp]
  rfl

/-- **The node in the hand goes back to the pool.** -/
theorem Owned.freeNode (h : Owned (p :: held) s) (hlookup : ∀ fid, s.lookup.lookup fid ≠ some p) :
    s.freeNode p = .ok (s.freed p) ∧ Owned held (s.freed p) := by
  obtain ⟨old, hold⟩ := h.exists_node (mem_append_left _ mem_cons_self)
  refine ⟨freeNode_eq hold, ?_, ?_, ?_, h.noGlobal⟩
  · have hlive : (s.freed p).live = Function.update s.live p false := by
      funext q
      by_cases hq : q = p
      · subst hq
        simp [live, freed]
      · simp [live, freed, Function.update_of_ne hq]
    rw [hlive]
    exact h.ledger.giveBack
  · intro isTcp d hd
    have hne : d ≠ p := h.ledger.ne_of_mem (mem_append_right held (mem_owners_of_dpc hd))
    simpa [freed, Function.update_of_ne hne] using h.dpc isTcp d hd
  · intro fid q hq
    have hne : q ≠ p := by
      rintro rfl
      exact hlookup fid hq
    simpa [freed, Function.update_of_ne hne] using h.lookup fid q hq

/-- A node that is not a flow is not in the map. -/
theorem Owned.not_lookup (h : Owned held s) (hp : s.flowAt p = none) (fid : UInt32) :
    s.lookup.lookup fid ≠ some p := by
  intro hfid
  obtain ⟨f, hf, -⟩ := h.lookup fid p hfid
  rw [flowAt_flow hf] at hp
  cases hp

/-- A flow that has its translation, or needs none, is not in the map. -/
theorem Owned.not_lookup_flow (h : Owned held s) {f : FlowNode κ learnMode}
    (hp : s.node p = some (.flow f)) (htype : f.type = .flowPkt) (fid : UInt32) :
    s.lookup.lookup fid ≠ some p := by
  intro hfid
  obtain ⟨f', hf', hnat, -⟩ := h.lookup fid p hfid
  rw [hp] at hf'
  cases hf'
  rw [htype] at hnat
  cases hnat

/-! ## 3. The release of ports -/

/-- The ownership after a step that leaves the map and the phase as they are. -/
structure Keeps (held : List Ptr) (s s' : GenThread κ learnMode) : Prop where
  owned : Owned held s'
  lookup : s'.lookup = s.lookup
  phase : s'.phase = s.phase

theorem Keeps.trans {s1 s2 : GenThread κ learnMode} (h : Keeps held' s s1) (h' : Keeps held s1 s2) :
    Keeps held s s2 := ⟨h'.owned, h'.lookup.trans h.lookup, h'.phase.trans h.phase⟩

theorem setDpc_lookup (s : GenThread κ learnMode) (isTcp : Bool) (d : Option Ptr) :
    (s.setDpc isTcp d).lookup = s.lookup ∧ (s.setDpc isTcp d).phase = s.phase := by
  cases isTcp <;> exact ⟨rfl, rfl⟩

theorem setDpc_dpc (s : GenThread κ learnMode) (isTcp : Bool) (d : Option Ptr) :
    (s.setDpc isTcp d).dpc isTcp = d := by
  cases isTcp <;> rfl

theorem createNode_node (s : GenThread κ learnMode) (node : CGenNode κ learnMode) :
    (s.createNode node).node s.fresh = some node := by
  simp [createNode, GenThread.setNode]

theorem Owned.getDefer (h : Owned held s) (isTcp : Bool) :
    Keeps held s (s.getDefer isTcp).1 ∧
        (s.getDefer isTcp).1.dpc isTcp = some (s.getDefer isTcp).2 := by
  unfold GenThread.getDefer
  cases hd : s.dpc isTcp with
  | some d => exact ⟨⟨h, rfl, rfl⟩, hd⟩
  | none =>
    have hnew := h.create (.deferPort 0 [])
    have hnone : (s.createNode (.deferPort 0 [])).dpc isTcp = none := hd
    obtain ⟨hlookup, hphase⟩ := setDpc_lookup (s.createNode (.deferPort 0 [])) isTcp (some s.fresh)
    refine ⟨⟨hnew.giveDpc hnone ⟨0, [], createNode_node s _⟩, hlookup, hphase⟩, ?_⟩
    exact setDpc_dpc _ _ _

/-- **`defer_client_port_free` keeps every node**, and uses a job that is live. -/
theorem Owned.deferClientPortFree (h : Owned held s) (isTcp : Bool) (aging : Nat) (now : Rat)
    (client : ClientPort) :
    Post (s.deferClientPortFree isTcp aging now client) (Keeps held s) (· ≠ .freed) := by
  unfold GenThread.deferClientPortFree
  split
  · exact ⟨h.hand rfl rfl rfl rfl rfl (List.Perm.refl _) h.dpc, rfl, rfl⟩
  · obtain ⟨hget, hd⟩ := h.getDefer isTcp
    obtain ⟨time, clients, hnode⟩ := hget.owned.dpc isTcp _ hd
    have hflow : (s.getDefer isTcp).1.flowAt (s.getDefer isTcp).2 = none := by simp [flowAt, hnode]
    have hset : ∀ time clients, Owned held ((s.getDefer isTcp).1.setNode (s.getDefer isTcp).2
        (.deferPort time clients)) := by
      intro time clients
      refine hget.owned.setNode hnode _ (fun _ _ => ⟨time, clients, rfl⟩) fun fid hfid => ?_
      exact absurd hfid (hget.owned.not_lookup hflow fid)
    dsimp only
    rw [hnode]
    dsimp only
    split
    · -- the job is full, and goes to the queue
      have htake := ((hset (now + aging) (clients ++ [client])).takeDpc hd).addNode
      refine ⟨?_, ?_, ?_⟩
      · cases isTcp <;> exact htake
      · exact (setDpc_lookup _ isTcp none).1.trans hget.lookup
      · exact (setDpc_lookup _ isTcp none).2.trans hget.phase
    · exact ⟨hset time (clients ++ [client]), hget.lookup, hget.phase⟩

theorem handlerDeferJob_eq (now : Rat) {time : Rat} {clients : List ClientPort}
    (hd : s.node d = some (.deferPort time clients)) :
    s.handlerDeferJob now d = .ok (s.freePorts now clients) := by
  simp only [handlerDeferJob, hd]

/-- **A job that waits is returned.** -/
theorem Owned.flushDpc (h : Owned held s) (now : Rat) (isTcp : Bool) :
    Post (s.flushDpc now isTcp) (fun s' => Keeps held s s' ∧ s'.dpc isTcp = none ∧
      ∀ b, s.dpc b = none → s'.dpc b = none) (· ≠ .freed) := by
  unfold GenThread.flushDpc
  cases hd : s.dpc isTcp with
  | none => exact ⟨⟨h, rfl, rfl⟩, hd, fun _ hb => hb⟩
  | some d =>
    obtain ⟨time, clients, hnode⟩ := h.dpc isTcp d hd
    have hflow : s.flowAt d = none := by simp [flowAt, hnode]
    dsimp only
    rw [handlerDeferJob_eq now hnode, ok_bind, freeNode_eq (s := s.freePorts now clients) hnode,
      ok_bind]
    have htake := h.takeDpc hd
    have hlookup := setDpc_lookup s isTcp none
    obtain ⟨-, hfree⟩ := htake.freeNode fun fid => by
      rw [hlookup.1]
      exact h.not_lookup hflow fid
    refine ⟨⟨?_, ?_, ?_⟩, setDpc_dpc _ _ _, ?_⟩
    · refine hfree.hand ?_ ?_ ?_ ?_ ?_ ?_ ?_ <;> cases isTcp <;>
        first | rfl | exact List.Perm.refl _ | exact hfree.dpc
    · exact (setDpc_lookup _ isTcp none).1
    · exact (setDpc_lookup _ isTcp none).2
    · intro b hb
      cases isTcp <;> cases b <;> first | rfl | exact hb

theorem Owned.handlerDeferJobFlush (h : Owned held s) (now : Rat) :
    Post (s.handlerDeferJobFlush now) (fun s' => Keeps held s s' ∧ s'.tcpDpc = none ∧
      s'.udpDpc = none) (· ≠ .freed) := by
  refine (h.flushDpc now true).bind fun s1 hs1 => ?_
  refine (hs1.1.owned.flushDpc now false).mono (fun s2 hs2 =>
    ⟨hs1.1.trans hs2.1, ?_, hs2.2.1⟩) fun _ he => he
  exact hs2.2.2 true hs1.2.1

end GenThread

open GenThread

variable {cfg : Config κ} {p : Ptr} {f : FlowNode κ cfg.learnMode} {s : cfg.Thread} {always : Bool}
  {held : List Ptr}

/-- **The node of a flow that is over goes back to the pool.** -/
theorem freeLastFlowNode_owned (h : Owned (p :: held) s)
    (hlookup : ∀ fid, s.lookup.lookup fid ≠ some p) (env : Env) :
    Post (freeLastFlowNode env p f s) (Keeps held s) (· ≠ .freed) := by
  have hports : ∀ (clients : List ClientPort) (s : cfg.Thread), Owned (p :: held) s →
      Post (clients.foldlM (fun (s : cfg.Thread) client => s.deferClientPortFree
        (f.template.isTcp f.pktInfo) (cfg.aging (f.template.isTcp f.pktInfo) client.poolIdx) env.now
        client) s) (Keeps (p :: held) s) (· ≠ .freed) := by
    intro clients
    induction clients with
    | nil =>
      intro s hs
      exact ⟨hs, rfl, rfl⟩
    | cons client rest ih =>
      intro s hs
      rw [foldlM_cons]
      refine (hs.deferClientPortFree _ _ _ _).bind fun s1 hs1 => ?_
      exact (ih s1 hs1.owned).mono (fun s2 hs2 => hs1.trans hs2) fun _ he => he
  refine (hports f.clientPorts s h).bind fun s1 hs1 => ?_
  obtain ⟨heq, hfree⟩ := hs1.owned.freeNode fun fid => by
    rw [hs1.lookup]
    exact hlookup fid
  rw [heq]
  exact ⟨hfree, hs1.lookup, hs1.phase⟩

/-! ## 4. One step -/

/-- A packet is sent: no node changes hands. -/
theorem flushOneNode_owned (h : Owned held s) (q : Ptr) (f : FlowNode κ cfg.learnMode) :
    Keeps held s (s.flushOneNode q f) :=
  ⟨h.hand rfl rfl rfl rfl rfl (List.Perm.refl _) h.dpc, rfl, rfl⟩

/-- **A `FLOW_PKT` node.** -/
theorem handlePkt_owned (h : Owned [p] s) (hplayed : Played s) (hp : s.node p = some (.flow f))
    (htype : f.type = .flowPkt) (env : Env) :
    Post (handlePkt always env p f s) (Keeps [] s) (· ≠ .freed) := by
  obtain ⟨b, m, j, -, -, hplay⟩ := (hplayed.play p).playing (flowAt_flow hp)
  obtain ⟨lp, hpkt, hlp⟩ := hplay.pkt_mem
  have hlookup := h.not_lookup_flow hp htype
  simp only [handlePkt, hpkt, ok_bind]
  set s1 : cfg.Thread := if !f.template.limitWasSet || !always then s.flushOneNode p f
    else s with hs1
  have hkeep : Keeps [p] s s1 := by
    rw [hs1]
    split
    · exact flushOneNode_owned h p f
    · exact ⟨h, rfl, rfl⟩
  have hlookup1 : ∀ fid, s1.lookup.lookup fid ≠ some p := by
    rw [hkeep.lookup]
    exact hlookup
  have hpush : ∀ node, Keeps [] s ((s1.setNode p node).addNode p) := fun node =>
    ⟨hkeep.owned.push node fun fid hfid => absurd hfid (hlookup1 fid), hkeep.lookup, hkeep.phase⟩
  cases hlast : lp.info.desc.isLastPkt with
  | false =>
    simp only [Bool.false_eq_true, if_false]
    rw [hplay.update hlp hlast, ok_bind]
    exact hpush _
  | true =>
    simp only [if_true]
    split
    · obtain ⟨f', hreset, -⟩ := hplay.reset hlp hlast
      rw [hreset, ok_bind]
      exact hpush _
    · exact (freeLastFlowNode_owned hkeep.owned hlookup1 env).mono (fun s2 hs2 => hkeep.trans hs2)
        fun _ he => he

/-- A packet of the initiator, in the `FLOW_PKT_NAT` case: the node stays in the map and in the
queue. -/
theorem nextNatPkt_owned (h : Owned [p] s) (hplayed : Played s) (hp : s.node p = some (.flow f))
    (htype : f.type = .flowPktNat) {lp : ReplayPkt} (hpkt : f.pkt = .ok lp)
    (hinit : lp.info.desc.isInitSide = true) (env : Env) :
    Post (nextNatPkt env p { f with natState := .wait } lp s) (Keeps [] s) (· ≠ .freed) := by
  obtain ⟨b, m, j, -, -, hplay⟩ := (hplayed.play p).playing (flowAt_flow hp)
  obtain ⟨lp', hpkt', hlp⟩ := hplay.pkt_mem
  rw [hpkt] at hpkt'
  cases hpkt'
  have hlast := hplay.not_last htype hlp hinit
  obtain ⟨hask, -, hresp⟩ := hplay.asking htype
  have hplay' : Playing s.phase.cleaning b { f with natState := .wait } m j := by
    refine ⟨hplay.template, hplay.pktInfo, hplay.time, hplay.once, hplay.sent, ?_⟩
    intro _
    exact ⟨hask, nofun, hresp⟩
  have hkeep := flushOneNode_owned h p { f with natState := .wait }
  unfold nextNatPkt
  simp only [hlast, Bool.false_eq_true, if_false]
  rw [hplay'.update hlp hlast, ok_bind]
  refine ⟨hkeep.owned.push _ fun fid hfid => ?_, hkeep.lookup, hkeep.phase⟩
  obtain ⟨f', hf', -, hfid'⟩ := h.lookup fid p hfid
  rw [hp] at hf'
  cases hf'
  exact ⟨_, rfl, htype, hfid'⟩

/-- **A `FLOW_PKT_NAT` node.** -/
theorem handleNatPkt_owned (h : Owned [p] s) (hplayed : Played s) (hp : s.node p = some (.flow f))
    (htype : f.type = .flowPktNat) (env : Env) :
    Post (handleNatPkt env p f s) (fun s' => Owned [] s' ∧ s'.phase = s.phase) (· ≠ .freed) := by
  obtain ⟨b, m, j, -, -, hplay⟩ := (hplayed.play p).playing (flowAt_flow hp)
  obtain ⟨lp, hpkt, hlp⟩ := hplay.pkt_mem
  simp only [handleNatPkt, hpkt, ok_bind]
  have hmono : ∀ {s'}, Keeps [] s s' → Owned [] s' ∧ s'.phase = s.phase :=
    fun hs' => ⟨hs'.owned, hs'.phase⟩
  cases hnat : f.natState with
  | first =>
    have hinit : lp.info.desc.isInitSide = true := by
      rw [(hplay.asking htype).2.1 hnat, Nat.zero_mod] at hlp
      exact Template.isInitSide_zero hlp
    exact (nextNatPkt_owned h hplayed hp htype hpkt hinit env).mono (fun _ => hmono) fun _ he => he
  | wait =>
    have hwait : f = { f with natState := .wait } := by rw [← hnat]
    cases hinit : lp.info.desc.isInitSide with
    | true =>
      simp only [if_true]
      rw [hwait]
      exact (nextNatPkt_owned h hplayed hp htype hpkt hinit env).mono (fun _ => hmono) fun _ he =>
        he
    | false =>
      simp only [Bool.false_eq_true, if_false, terminateNatFlows]
      -- the map forgets the node before it is freed
      have herase : ∀ fid q, (s.lookup.erase f.getShortFid).lookup fid = some q →
          s.lookup.lookup fid = some q ∧ fid ≠ f.getShortFid := by
        intro fid q hq
        by_cases hfid : fid = f.getShortFid
        · subst hfid
          rw [AList.lookup_erase] at hq
          cases hq
        · rw [AList.lookup_erase_ne hfid] at hq
          exact ⟨hq, hfid⟩
      have howned : Owned [p] ({ s with lookup := s.lookup.erase f.getShortFid } : cfg.Thread) :=
        ⟨h.ledger, h.dpc, fun fid q hq => h.lookup fid q (herase fid q hq).1, h.noGlobal⟩
      refine (freeLastFlowNode_owned howned ?_ env).mono (fun s2 hs2 =>
        ⟨hs2.owned, hs2.phase⟩) fun _ he => he
      intro fid hfid
      obtain ⟨hold, hne⟩ := herase fid p hfid
      obtain ⟨f', hf', -, hfid'⟩ := h.lookup fid p hold
      rw [hp] at hf'
      cases hf'
      exact hne hfid'.symm
  | off => exact GenFault.noConfusion

/-- **A flow is opened.** -/
theorem generateFlow_owned (h : Owned held s) (env : Env) (t : Template κ cfg.learnMode) :
    Post (generateFlow env t s) (fun s' => Owned held s' ∧ s'.phase = s.phase ∧
      ∀ q node, s.node q = some node → s'.node q = some node) (· ≠ .freed) := by
  have hfresh : ∀ q node, s.node q = some node → q ≠ s.fresh := by
    rintro q node hq rfl
    have hlive : s.live s.fresh = true := by simp [live, hq]
    have := h.ledger.made _ hlive
    simp [made] at this
  have hkept : ∀ (node : CGenNode κ cfg.learnMode) q old, s.node q = some old →
      Function.update s.node s.fresh (some node) q = some old := by
    intro node q old hq
    rw [Function.update_of_ne (hfresh q old hq)]
    exact hq
  simp only [generateFlow]
  cases hpkt : (newFlow env t s).pkt with
  | error fault =>
    have hfault : fault = .noPacket := by
      unfold FlowNode.pkt at hpkt
      split at hpkt
      · cases hpkt
      · cases hpkt
        rfl
    rw [hfault]
    exact GenFault.noConfusion
  | ok lp =>
    rw [ok_bind]
    split
    · simp only [associate]
      split
      · exact GenFault.noConfusion
      · rename_i hnone
        rw [ok_bind]
        have hcreate := (h.create (.flow { newFlow env t s with type := .flowPktNat,
                                                                natState := .first })).addNode
        refine ⟨⟨hcreate.ledger, hcreate.dpc, ?_, hcreate.noGlobal⟩, rfl, hkept _⟩
        intro fid q hq
        by_cases hfid : fid = s.curFlowId.toUInt32
        · subst hfid
          have hnew : some s.fresh = some q := by
            rw [← hq]
            exact (AList.lookup_insert s.lookup).symm
          cases hnew
          refine ⟨{ newFlow env t s with type := .flowPktNat, natState := .first }, ?_, rfl, ?_⟩
          · exact createNode_node s _
          · exact nodeFlowId_toUInt32 _ _
        · have hold : s.lookup.lookup fid = some q := by
            rw [← hq]
            exact (AList.lookup_insert_ne hfid).symm
          exact hcreate.lookup fid q hold
    · have hcreate := (h.create (.flow (newFlow env t s))).addNode
      exact ⟨⟨hcreate.ledger, hcreate.dpc, hcreate.lookup, hcreate.noGlobal⟩, rfl, hkept _⟩

/-- **A `FLOW_FIF` node.** -/
theorem handleFif_owned (h : Owned [p] s) {time : Rat} (hp : s.node p = some (.flowFif time))
    (env : Env) :
    Post (handleFif always env p time s) (fun s' => Owned [] s' ∧
        s'.phase = s.phase) (· ≠ .freed) := by
  have hdone : ∀ s1 : cfg.Thread, Owned [p] s1 → s1.node p = some (.flowFif time) →
      s1.phase = s.phase →
      Post (s1.freeNode p) (fun s' => Owned [] s' ∧ s'.phase = s.phase) (· ≠ .freed) := by
    intro s1 h1 hp1 hphase
    have hflow : s1.flowAt p = none := by simp [flowAt, hp1]
    obtain ⟨heq, hfree⟩ := h1.freeNode (h1.not_lookup hflow)
    rw [heq]
    exact ⟨hfree, hphase⟩
  unfold handleFif
  cases always with
  | true => exact hdone s h hp rfl
  | false =>
    simp only [Bool.false_eq_true, if_false]
    have hround : Post (generateFlowsRoundrobin env { s with curTimeSec := time }) (fun r =>
        Owned [p] r.1 ∧ r.1.phase = s.phase ∧ ∀ q node, s.node q = some node →
          r.1.node q = some node)
        (· ≠ .freed) := by
      unfold generateFlowsRoundrobin
      obtain ⟨done, cur, found⟩ :=
        findTemplate cfg s.flowcnt env.policer cfg.capGen.length s.curTemplate true
      cases found with
      | none => exact ⟨⟨h.ledger, h.dpc, h.lookup, h.noGlobal⟩, rfl, fun _ _ hq => hq⟩
      | some t =>
        dsimp only
        have hs : Owned [p] ({ s with
            curTimeSec := time
            flowcnt := Function.update s.flowcnt cur (s.flowcnt cur + 1)
            curTemplate := incCurrentTemplate cfg cur } : cfg.Thread) :=
          ⟨h.ledger, h.dpc, h.lookup, h.noGlobal⟩
        refine (generateFlow_owned hs env t).bind fun s1 hs1 => ?_
        exact ⟨hs1.1, hs1.2.1, hs1.2.2⟩
    refine hround.bind fun r hr => ?_
    obtain ⟨s1, done⟩ := r
    obtain ⟨h1, hphase, hkept⟩ := hr
    have hp1 : s1.node p = some (.flowFif time) := hkept p _ hp
    dsimp only
    split
    · exact hdone s1 h1 hp1 hphase
    · have hflow : s1.flowAt p = none := by simp [flowAt, hp1]
      exact ⟨h1.push _ fun fid hfid => absurd hfid (h1.not_lookup hflow fid), hphase⟩

/-- **The owners of a thread between two steps.** -/
structure OwnedInv (s : cfg.Thread) : Prop where
  owned : Owned s.phase.held s
  sync : ∀ always p, s.phase = .sync always p → ∃ time, s.node p = some (.flowSync time)
  closed : s.phase.isClosed = true → s.owners = [] ∧ s.lookup = ∅

/-- The file is closed when no flow waits for its translation and no job waits for more ports. -/
def Uncut (s : cfg.Thread) : Act → Prop
  | .closeFile => s.phase = .close → s.lookup = ∅ ∧ s.tcpDpc = none ∧ s.udpDpc = none
  | _ => True

theorem OwnedInv.of_flush (always : Bool) (h : Owned [] s) (hphase : s.phase = .flush always) :
    OwnedInv s := by
  refine ⟨?_, ?_, ?_⟩
  · rw [hphase]
    exact h
  · intro _ _ hsync
    rw [hphase] at hsync
    cases hsync
  · intro hclosed
    rw [hphase] at hclosed
    cases hclosed

/-- The end of `flush_file`. -/
theorem endFlush_owned (h : Owned [] s) (now : Rat) :
    Post (endFlush always now s) OwnedInv (· ≠ .freed) := by
  have hclose : ∀ s1 : cfg.Thread, Owned [] s1 →
      OwnedInv ({ s1 with phase := .close } : cfg.Thread) := by
    intro s1 h1
    exact ⟨⟨h1.ledger, h1.dpc, h1.lookup, h1.noGlobal⟩, nofun, nofun⟩
  unfold endFlush
  split
  · exact hclose s h
  · split
    · refine (h.handlerDeferJobFlush now).bind fun s1 hs1 => ?_
      exact hclose s1 hs1.1.owned
    · split
      · exact hclose s h
      · exact OwnedInv.of_flush true ⟨h.ledger, h.dpc, h.lookup, h.noGlobal⟩ rfl

/-- **A node that was taken from the queue.** -/
theorem popNode_owned (h : Owned [p] s) (hplayed : Played s) {node : CGenNode κ cfg.learnMode}
    (hp : s.node p = some node) (hphase : s.phase = .flush always) (env : Env) :
    Post (popNode always env p s node) OwnedInv (· ≠ .freed) := by
  have hmono : ∀ {s' : cfg.Thread}, Owned [] s' ∧ s'.phase = s.phase → OwnedInv s' := fun hs' =>
    OwnedInv.of_flush always hs'.1 (hs'.2.trans hphase)
  cases node with
  | flow f =>
    simp only [popNode]
    cases htype : f.type with
    | flowPkt =>
      exact (handlePkt_owned h hplayed hp htype env).mono (fun _ hs' =>
        hmono ⟨hs'.owned, hs'.phase⟩) fun _ he => he
    | flowPktNat =>
    exact (handleNatPkt_owned h hplayed hp htype env).mono (fun _ => hmono) fun _ he => he
  | flowFif time => exact (handleFif_owned h hp env).mono (fun _ => hmono) fun _ he => he
  | deferPort time clients =>
    simp only [popNode]
    rw [handlerDeferJob_eq env.now hp, ok_bind]
    have howned : Owned [p] (s.freePorts env.now clients) := ⟨h.ledger, h.dpc, h.lookup, h.noGlobal⟩
    have hflow : (s.freePorts env.now clients).flowAt p = none := by simp [flowAt, freePorts, hp]
    obtain ⟨heq, hfree⟩ := howned.freeNode (howned.not_lookup hflow)
    rw [heq]
    exact hmono ⟨hfree, rfl⟩
  | flowSync time =>
    refine ⟨⟨h.ledger, h.dpc, h.lookup, h.noGlobal⟩, ?_, fun hcase => by cases hcase⟩
    intro _ _ hsync
    cases hsync
    exact ⟨time, hp⟩
  | exitSched time =>
    have hflow : s.flowAt p = none := by simp [flowAt, hp]
    obtain ⟨heq, hfree⟩ := h.freeNode (h.not_lookup hflow)
    simp only [popNode]
    rw [heq, ok_bind]
    exact endFlush_owned hfree env.now

/-- The translation of a flow comes: the node leaves the map. -/
theorem handelNatInfo_owned (h : OwnedInv s) (fid : UInt32) (hphase : s.phase = .sync always p) :
    Post (handelNatInfo s fid) OwnedInv (· ≠ .freed) := by
  unfold handelNatInfo
  cases hlook : s.lookup.lookup fid with
  | none => exact h
  | some q =>
    obtain ⟨f, hq, htype, hfid⟩ := h.owned.lookup fid q hlook
    dsimp only
    rw [hq]
    dsimp only
    split
    · exact GenFault.noConfusion
    · have herase : ∀ fid' q', (s.lookup.erase fid).lookup fid' = some q' →
          s.lookup.lookup fid' = some q' ∧ q' ≠ q := by
        intro fid' q' hq'
        by_cases hf : fid' = fid
        · subst hf
          rw [AList.lookup_erase] at hq'
          cases hq'
        · rw [AList.lookup_erase_ne hf] at hq'
          refine ⟨hq', ?_⟩
          rintro rfl
          obtain ⟨f', hf', -, hfid'⟩ := h.owned.lookup fid' q' hq'
          rw [hq] at hf'
          cases hf'
          exact hf (hfid'.symm.trans hfid)
      have howned : Owned s.phase.held ({ s with lookup := s.lookup.erase fid } : cfg.Thread) :=
        ⟨h.owned.ledger, h.owned.dpc, fun fid' q' hq' =>
          h.owned.lookup fid' q' (herase fid' q' hq').1, h.owned.noGlobal⟩
      have hset := howned.setNode hq (.flow { f with type := .flowPkt })
        (fun isTcp hd => by
          obtain ⟨time, clients, hjob⟩ := h.owned.dpc isTcp q hd
          rw [hq] at hjob
          cases hjob)
        (fun fid' hfid' => absurd rfl (herase fid' q hfid').2)
      refine ⟨⟨hset.ledger, hset.dpc, hset.lookup, hset.noGlobal⟩, ?_, ?_⟩
      · intro always' p' hsync
        obtain ⟨time, hp'⟩ := h.sync always' p' hsync
        have hne : p' ≠ q := by
          rintro rfl
          rw [hq] at hp'
          cases hp'
        exact ⟨time, by simpa [GenThread.setNode, Function.update_of_ne hne] using hp'⟩
      · intro hclosed
        have : s.phase.isClosed = true := hclosed
        rw [hphase] at this
        cases this

/-- The master ends the run: one node more. -/
theorem quitMainLoop_owned (h : OwnedInv s) (hphase : s.phase = .sync always p) :
    OwnedInv (quitMainLoop s) := by
  have hcreate := (h.owned.create (.exitSched (s.curTimeSec + 1 / 10000))).addNode
  refine ⟨⟨hcreate.ledger, hcreate.dpc, hcreate.lookup, hcreate.noGlobal⟩, ?_, ?_⟩
  · intro always' p' hsync
    obtain ⟨time, hp'⟩ := h.sync always' p' hsync
    have hne : p' ≠ s.fresh := by
      rintro rfl
      have hlive : s.live s.fresh = true := by simp [live, hp']
      have := h.owned.ledger.made _ hlive
      simp [made] at this
    exact ⟨time, by simpa [quitMainLoop, createNode, GenThread.setNode, GenThread.addNode,
      Function.update_of_ne hne] using hp'⟩
  · intro hclosed
    have : s.phase.isClosed = true := hclosed
    rw [hphase] at this
    cases this

/-- The rest of a `FLOW_SYNC` node. -/
theorem endSync_owned (h : OwnedInv s) (hphase : s.phase = .sync always p) (now : Rat) :
    Post (endSync always p now s) OwnedInv (· ≠ .freed) := by
  obtain ⟨time, hp⟩ := h.sync always p hphase
  have howned : Owned [p] s := by
    have := h.owned
    rw [hphase] at this
    exact this
  have hflow : s.flowAt p = none := by simp [flowAt, hp]
  have hlookup := howned.not_lookup hflow
  unfold endSync
  rw [hp]
  dsimp only
  split
  · obtain ⟨heq, hfree⟩ := howned.freeNode hlookup
    rw [heq, ok_bind]
    exact endFlush_owned hfree now
  · have hpush := howned.push (.flowSync (time + syncTimeOut)) fun fid hfid =>
      absurd hfid (hlookup fid)
    exact OwnedInv.of_flush always ⟨hpush.ledger, hpush.dpc, hpush.lookup, hpush.noGlobal⟩ rfl

/-- **`remove_all` returns every node of the queue.** -/
theorem removeAll_owned (queue : List Ptr) (s : cfg.Thread) (h : Owned queue s)
    (hlookup : s.lookup = ∅) :
    ∃ s', queue.foldlM GenThread.freeNode s = .ok s' ∧ Owned [] s' ∧ s'.lookup = ∅ ∧
        s'.owners = s.owners := by
  induction queue generalizing s with
  | nil => exact ⟨s, rfl, h, hlookup, rfl⟩
  | cons p rest ih =>
    obtain ⟨heq, hfree⟩ := h.freeNode fun fid => by
      rw [hlookup, AList.lookup_empty]
      exact nofun
    rw [foldlM_cons, heq]
    obtain ⟨s', hs', howned, hlook, howners⟩ := ih (s.freed p) hfree hlookup
    exact ⟨s', hs', howned, hlook, howners⟩

theorem closeFile_owned (h : OwnedInv s) (hphase : s.phase = .close) (hlookup : s.lookup = ∅)
    (htcp : s.tcpDpc = none) (hudp : s.udpDpc = none) :
    Post (closeFile s) OwnedInv (· ≠ .freed) := by
  have howned : Owned s.queue ({ s with queue := [] } : cfg.Thread) := by
    have := h.owned
    rw [hphase] at this
    exact this.hand rfl rfl rfl rfl rfl (List.Perm.refl _) this.dpc
  obtain ⟨s', hs', howned', hlook', howners⟩ := removeAll_owned s.queue _ howned hlookup
  unfold closeFile
  rw [hs', ok_bind]
  have hnil : s'.owners = [] := by
    rw [howners]
    simp [owners, htcp, hudp]
  exact ⟨⟨howned'.ledger, howned'.dpc, howned'.lookup, howned'.noGlobal⟩, nofun, fun _ =>
    ⟨hnil, hlook'⟩⟩

/-- **Every step keeps the owners right**, and uses no node that was returned. -/
theorem step_owned (h : OwnedInv s) (hplayed : Played s) (a : Act) (ha : Uncut s a) :
    Post (step s a) OwnedInv (· ≠ .freed) := by
  cases a with
  | pop i env =>
    simp only [step]
    cases hphase : s.phase with
    | flush always =>
      dsimp only
      cases hi : s.queue[i]? with
      | none => exact GenFault.noConfusion
      | some p =>
        have howned : Owned [] s := by
          have := h.owned
          rw [hphase] at this
          exact this
        have htake := howned.take hi
        obtain ⟨node, hp⟩ := htake.exists_node (mem_append_left _ mem_cons_self)
        have hplayed' : Played ({ s with queue := s.queue.eraseIdx i } : cfg.Thread) :=
          hplayed.quiet ((Quiet.refl hplayed.fresh).of_eq rfl rfl rfl rfl rfl)
        have hderef : s.deref p = .ok node := by
          unfold deref
          rw [show s.node p = some node from hp]
        dsimp only
        rw [hderef, ok_bind, ← hphase]
        exact popNode_owned htake hplayed' hp hphase env
    | sync always p => exact h
    | close => exact h
    | closed => exact h
    | deleted => exact h
  | nat fid =>
    simp only [step]
    cases hphase : s.phase with
    | sync always p => exact handelNatInfo_owned h fid hphase
    | flush always => exact h
    | close => exact h
    | closed => exact h
    | deleted => exact h
  | quit =>
    simp only [step]
    cases hphase : s.phase with
    | sync always p => exact quitMainLoop_owned h hphase
    | flush always => exact h
    | close => exact h
    | closed => exact h
    | deleted => exact h
  | endSync now =>
    simp only [step]
    cases hphase : s.phase with
    | sync always p => exact endSync_owned h hphase now
    | flush always => exact h
    | close => exact h
    | closed => exact h
    | deleted => exact h
  | closeFile =>
    simp only [step]
    cases hphase : s.phase with
    | close =>
      obtain ⟨hlookup, htcp, hudp⟩ := ha hphase
      exact closeFile_owned h hphase hlookup htcp hudp
    | flush always => exact h
    | sync always p => exact h
    | closed => exact h
    | deleted => exact h
  | delete =>
    simp only [step]
    cases hphase : s.phase with
    | closed =>
      obtain ⟨howners, hlookup⟩ := h.closed (by rw [hphase]; rfl)
      have howned := h.owned
      rw [hphase] at howned
      refine ⟨⟨howned.ledger, howned.dpc, ?_, ?_⟩, fun _ _ hsync => (by cases hsync), fun _ =>
        ⟨howners, rfl⟩⟩
      · intro fid q hq
        have hnone : (none : Option Ptr) = some q := hq
        cases hnone
      · simp only [deleteThread, hlookup]
        rw [howned.noGlobal]
        rfl
    | flush always => exact h
    | sync always p => exact h
    | close => exact h
    | deleted => exact h

theorem ownedInv_start (cfg : Config κ) : OwnedInv (startGenerate cfg) := by
  let s0 : cfg.Thread :=
    { node := fun _ => none, fresh := 0, queue := [],
      curTemplate := cfg.threadId.toNat % cfg.capGen.length
      curTimeSec := cfg.startTime }
  have h0 : Owned [] s0 := by
    refine ⟨?_, ?_, ?_, rfl⟩
    · have hmade : s0.made = fun _ => false := by
        funext p
        exact decide_eq_false (Nat.not_lt_zero p)
      rw [hmade]
      exact Ledger.nil
    · intro isTcp d hd
      cases isTcp <;> cases hd
    · intro fid q hq
      cases hq
  have h1 := (h0.create (.flowFif cfg.startTime)).addNode
  have h2 := (h1.create (.flowSync (cfg.startTime + syncTimeOut))).addNode
  unfold startGenerate
  dsimp only
  split
  · exact OwnedInv.of_flush false (h2.create (.exitSched (cfg.startTime + cfg.durationSec))).addNode
      rfl
  · exact OwnedInv.of_flush false h2 rfl

theorem ReachableBy.ownedInv (h : ReachableBy Uncut s) : OwnedInv s := by
  induction h with
  | init => exact ownedInv_start cfg
  | step hs _ ha hstep ih => exact (step_owned ih hs.played _ ha).result hstep

/-! ## 5. Every node is returned once -/

/-- **The nodes of a thread are returned once each**: a live node is kept in one place and was not
returned; any other node was returned once, and to the pool it came from; no node that was returned
is used; and when the file is closed no node is left. -/
structure ReturnedOnce (s : cfg.Thread) : Prop where
  kept : ∀ p, s.live p = true → (s.phase.held ++ s.owners).count p = 1 ∧ s.returned.count p = 0
  back : ∀ p < s.fresh, s.live p = false → s.returned.count p = 1
  noGlobal : s.returnedGlobal = []
  noUse : ∀ a, Uncut s a → step s a ≠ .error .freed
  ended : s.phase.isClosed = true → ∀ p < s.fresh, s.live p = false ∧ s.returned.count p = 1

theorem OwnedInv.returnedOnce (h : OwnedInv s) (hplayed : Played s) : ReturnedOnce s := by
  have hledger := h.owned.ledger
  have hback : ∀ p < s.fresh, s.live p = false → s.returned.count p = 1 := by
    intro p hp hlive
    have hmade : s.made p = true := decide_eq_true hp
    rw [hledger.back p, hmade, hlive]
    rfl
  refine ⟨?_, hback, h.owned.noGlobal, ?_, ?_⟩
  · intro p hp
    constructor
    · rw [hledger.owner p, hp]
      rfl
    · rw [hledger.back p, hp]
      cases s.made p <;> rfl
  · intro a ha hfault
    exact (step_owned h hplayed a ha).fault hfault rfl
  · intro hclosed p hp
    have hheld : s.phase.held = [] := by
      cases hphase : s.phase with
      | sync always q =>
        rw [hphase] at hclosed
        cases hclosed
      | flush always => rfl
      | close => rfl
      | closed => rfl
      | deleted => rfl
    rw [hheld, (h.closed hclosed).1] at hledger
    have hlive := (hledger.settled p).1
    exact ⟨hlive, hback p hp hlive⟩

/-- **In every run of a generator thread every node is returned once**, in stateful mode when the
file is closed while no flow waits for its translation and no job waits for more ports, and in
stateless mode when the master does not end the thread. -/
theorem nodes_returned_once {κ : Type} [DecidableEq κ] {cfg : Config κ} {s : cfg.Thread}
    (h : ReachableBy Uncut s) {c : Dp.TrexStatelessDpCore}
    (hc : Dp.TrexStatelessDpCore.ReachableBy (fun _ a => a.NoQuit) c) :
    ReturnedOnce s ∧ c.NodesKept := by
  constructor
  · exact h.ownedInv.returnedOnce h.played
  · exact hc.nodesKept

/-- The run of `shortActs` goes on: the queue is emptied. -/
def shortRest : List Act := shortActs ++ [.pop 0 {}, .pop 0 {}, .endSync 0]

/-- The state before the file is closed. -/
def shortClose : shortRun.Thread :=
    (run (startGenerate shortRun) shortRest).getD (startGenerate shortRun)

/-- The state after the file is closed. -/
def shortClosed : shortRun.Thread := (step shortClose .closeFile).toOption.getD shortClose

/-- The theorem at the end of that run, and in a core that has just started two streams: four nodes
were made, and all of them were returned. -/
theorem nodes_returned_once_short : shortClosed.phase = .closed ∧ shortClosed.fresh = 4 ∧
    shortClosed.returned = [2, 3, 0, 1] ∧ ReturnedOnce shortClosed ∧
    ∃ c, Dp.TrexStatelessDpCore.freshCore.step (.msg Dp.TrexStatelessDpCore.twoStreams) = .ok c ∧
      c.NodesKept := by
  have hrun : run (startGenerate shortRun) shortRest = some shortClose := by
    have hsome : (run (startGenerate shortRun) shortRest).isSome = true := by decide +kernel
    obtain ⟨s, hs⟩ := Option.isSome_iff_exists.mp hsome
    rw [shortClose, hs]
    rfl
  have hstep : step shortClose .closeFile = .ok shortClosed := by
    have hsome : (step shortClose .closeFile).toOption.isSome = true := by decide +kernel
    obtain ⟨s, hs⟩ := Option.isSome_iff_exists.mp hsome
    have hok := toOption_eq_some hs
    rw [shortClosed, hok]
    rfl
  have hall : ∀ a ∈ shortRest, ∀ s : shortRun.Thread, Uncut s a := by
    intro a ha s
    simp only [shortRest, shortActs, cons_append, nil_append, mem_cons, not_mem_nil,
      or_false] at ha
    rcases ha with rfl | rfl | rfl | rfl | rfl | rfl | rfl <;> exact trivial
  have hclose : ReachableBy Uncut shortClose := reachable_run shortRest hall .init hrun
  have hentries : shortClose.lookup.entries = [] := by decide +kernel
  have huncut : Uncut shortClose .closeFile := fun _ =>
    ⟨AList.ext hentries, by decide +kernel, by decide +kernel⟩
  have hen : Enabled shortClose .closeFile := trivial
  have hclosed : ReachableBy Uncut shortClosed := hclose.step hen huncut hstep
  obtain ⟨c, hc⟩ : ∃ c, Dp.TrexStatelessDpCore.freshCore.step
      (.msg Dp.TrexStatelessDpCore.twoStreams) = .ok c := ⟨_, rfl⟩
  have hen : Dp.TrexStatelessDpCore.freshCore.Enabled (.msg Dp.TrexStatelessDpCore.twoStreams) :=
    ⟨by decide, by decide⟩
  have hno : (Dp.TrexStatelessDpCore.Act.msg Dp.TrexStatelessDpCore.twoStreams).NoQuit := trivial
  obtain ⟨honce, hkept⟩ := nodes_returned_once hclosed
    (.step (.init Dp.TrexStatelessDpCore.freshCore_initial) hno hen hc)
  exact ⟨by decide +kernel, by decide +kernel, by decide +kernel, honce, c, hc, hkept⟩

/-- A request and its answer, in learn mode. -/
def requestAnswer : Template Nat true where
  multiFlow := false
  capMode := true
  ipg := none
  id := 0
  raws := [⟨0, false, 0⟩, ⟨0, true, 1 / 1000⟩]
  info := ((loadReplay false true true none 0
    [⟨(0 : Nat), false, 0⟩, ⟨0, true, 1 / 1000⟩]).toOption.getD ⟨⟨[], 0⟩, []⟩).1
  pkts := ((loadReplay false true true none 0
    [⟨(0 : Nat), false, 0⟩, ⟨0, true, 1 / 1000⟩]).toOption.getD ⟨⟨[], 0⟩, []⟩).2
  loaded := by decide +kernel
  ipgSec := 0
  rttSec := 0
  limitWasSet := false
  limit := 0
  restartTime := 0
  clientPoolIdx := 0
  isTcp := fun _ => true

/-- A run of half a millisecond in learn mode, without a clean close (`--nc`). -/
def learnRun : Config Nat where
  learnMode := true
  noCleanFlowClose := true
  threadId := 0
  capGen := [requestAnswer]
  nonempty := cons_ne_nil _ _
  startTime := 1 / 100
  durationSec := 1 / 2000
  dTime := 1 / 1000
  tcpAging := fun _ => 0
  udpAging := fun _ => 0

/-- A flow sends its request, the time is over, the file is closed and the thread is deleted. -/
def learnActs : List Act :=
  [.pop 2 { policer := fun _ => true }, .pop 1 {}, .pop 2 {}, .closeFile, .delete]

/-- The state at the end of the run. -/
def learnEnd : learnRun.Thread :=
    (run (startGenerate learnRun) learnActs).getD (startGenerate learnRun)

/-- **A node is freed twice**: the node of a flow that waits for its translation is returned by
`close_file`, and `Delete`, which finds it in the map, puts it into the pool of the messages as
well. -/
theorem waiting_node_freed_twice : ∃ s, run (startGenerate learnRun) learnActs = some s ∧
    s.phase = .deleted ∧
    s.returned.count 3 = 1 ∧ s.returnedGlobal.count 3 = 1 := by
  have hsome : (run (startGenerate learnRun) learnActs).isSome = true := by decide +kernel
  have hrun : run (startGenerate learnRun) learnActs = some learnEnd := by
    obtain ⟨s, hs⟩ := Option.isSome_iff_exists.mp hsome
    rw [learnEnd, hs]
    rfl
  refine ⟨learnEnd, hrun, ?_, ?_, ?_⟩
  · decide +kernel
  · decide +kernel
  · decide +kernel

end Trex.Gen
