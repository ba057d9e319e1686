/-
# What a flow has sent

A flow of a template sends packet after packet, repetition after repetition: the packet that it
sends as number `k` is the packet `k` modulo the length of the template, and it is due at
`packetTime` of `k`. `PlayOk` says how far a flow is; every step of the thread keeps it, whichever
node the step is about.

A flow is not always replayed to its end.  While the open flows are ended (`cleaning`) a repeat flow
sends nothing more; in learn mode a flow is given up when the responder is to answer and the
translation is not known; and `close_file` frees what is left.
-/
import Trex.Gen.Thread
import Trex.Lib.Post

namespace Trex.Gen

open Trex.Lib List
open Trex.Flow (NodeType NatState)
open Function (update update_of_ne update_self)

variable {κ : Type} [DecidableEq κ] {learnMode : Bool}

/-! ## 1. What is seen of a flow -/

/-- The node at an address, if it is the one of a flow. -/
def GenThread.flowAt (s : GenThread κ learnMode) (q : Ptr) : Option (FlowNode κ learnMode) :=
  match s.node q with
  | some (.flow f) => some f
  | _ => none

/-- A flow as the replay sees it: when it was opened, its node, and what it has sent. -/
@[ext] structure View (κ : Type) [DecidableEq κ] (learnMode : Bool) where
  born : Option (Born κ learnMode)
  node : Option (FlowNode κ learnMode)
  sent : List Sent

namespace GenThread

/-- The flow at an address. -/
def view (s : GenThread κ learnMode) (q : Ptr) : View κ learnMode :=
  ⟨s.born q, s.flowAt q, ofClass Sent.flow q s.sent⟩

/-- Nothing is known of an address that was not used. -/
def Fresh (s : GenThread κ learnMode) : Prop := ∀ q, s.fresh ≤ q → s.node q = none ∧ s.born q = none

/-- Only the flow at one address changes. -/
structure Changed (p : Ptr) (s s' : GenThread κ learnMode) (v : View κ learnMode) : Prop where
  others : ∀ q, q ≠ p → s'.view q = s.view q
  self : s'.view p = v
  phase : s'.phase = s.phase
  fresh : s'.Fresh

/-- No flow changes. -/
structure Quiet (s s' : GenThread κ learnMode) : Prop where
  view : ∀ q, s'.view q = s.view q
  phase : s'.phase = s.phase
  fresh : s'.Fresh

variable {s s1 s2 : GenThread κ learnMode} {p : Ptr} {v v' : View κ learnMode}

theorem flowAt_flow {f : FlowNode κ learnMode} (h : s.node p = some (.flow f)) :
    s.flowAt p = some f := by
  simp [flowAt, h]

theorem Quiet.refl (h : s.Fresh) : Quiet s s := ⟨fun _ => rfl, rfl, h⟩

theorem Quiet.trans (h : Quiet s s1) (h' : Quiet s1 s2) : Quiet s s2 :=
  ⟨fun q => (h'.view q).trans (h.view q), h'.phase.trans h.phase, h'.fresh⟩

theorem Changed.trans (h : Changed p s s1 v) (h' : Changed p s1 s2 v') : Changed p s s2 v' :=
  ⟨fun q hq => (h'.others q hq).trans (h.others q hq), h'.self, h'.phase.trans h.phase, h'.fresh⟩

theorem Quiet.changed (h : Quiet s s1) (hv : s.view p = v) : Changed p s s1 v :=
  ⟨fun q _ => h.view q, (h.view p).trans hv, h.phase, h.fresh⟩

/-! ## 2. The operations -/

/-- Memory is written at an address that was used. -/
theorem Fresh.update (h : s.Fresh) (hp : p < s.fresh) (node : Option (CGenNode κ learnMode))
    {q : Ptr} (hq : s.fresh ≤ q) : update s.node p node q = none ∧ s.born q = none := by
  have hne : q ≠ p := by
    rintro rfl
    exact Nat.not_le.mpr hp hq
  rw [update_of_ne hne]
  exact h q hq

variable {node : CGenNode κ learnMode}

theorem Fresh.lt (h : s.Fresh) (hp : s.node p = some node) : p < s.fresh := by
  by_contra hle
  have := (h p (Nat.le_of_not_lt hle)).1
  rw [hp] at this
  cases this

theorem flowAt_update_ne {q : Ptr} (hq : q ≠ p) (node : Option (CGenNode κ learnMode)) :
    GenThread.flowAt { s with node := update s.node p node } q = s.flowAt q := by
  simp [flowAt, update_of_ne hq]

theorem flowAt_update_self (node : Option (CGenNode κ learnMode)) :
    GenThread.flowAt { s with node := update s.node p node } p =
      match node with
      | some (.flow f) => some f
      | _ => none := by
  simp [flowAt]

/-- The node of a flow is written and scheduled. -/
theorem changed_setFlow (h : s.Fresh) (hp : s.node p = some node) (f : FlowNode κ learnMode) :
    Changed p s ((s.setNode p (.flow f)).addNode p) { s.view p with node := some f } := by
  refine ⟨?_, ?_, rfl, ?_⟩
  · intro q hq
    exact View.ext rfl (flowAt_update_ne hq _) rfl
  · exact View.ext rfl (flowAt_update_self _) rfl
  · intro q hq
    exact h.update (h.lt hp) _ hq

/-- A packet of a flow is sent. -/
theorem changed_flushOneNode (h : s.Fresh) (f : FlowNode κ learnMode) :
    Changed p s (s.flushOneNode p f)
      { s.view p with sent := (s.view p).sent ++ [⟨p, f.pktInfo, f.time⟩] } := by
  refine ⟨?_, ?_, rfl, h⟩
  · intro q hq
    refine View.ext rfl rfl ?_
    simp [view, flushOneNode, ofClass_concat, Ne.symm hq]
  · refine View.ext rfl rfl ?_
    simp [view, flushOneNode, ofClass_concat]

/-- A node goes back to the pool. -/
theorem freeNode_post (h : s.Fresh) (p : Ptr) : Post (s.freeNode p)
    (fun s' => Changed p s s' { s.view p with node := none }) (· ≠ .noPacket) := by
  unfold freeNode deref
  cases hp : s.node p with
  | none => exact GenFault.noConfusion
  | some node =>
    refine ⟨?_, ?_, rfl, ?_⟩
    · intro q hq
      exact View.ext rfl (flowAt_update_ne hq _) rfl
    · exact View.ext rfl (flowAt_update_self _) rfl
    · intro q hq
      exact h.update (h.lt hp) _ hq

/-- A node that is not the one of a flow is written. -/
theorem quiet_update (h : s.Fresh) (hp : s.flowAt p = none) (hlt : p < s.fresh)
    {node : Option (CGenNode κ learnMode)} (hnode : ∀ f, node ≠ some (.flow f))
    {s' : GenThread κ learnMode} (hs : s'.node = update s.node p node) (hborn : s'.born = s.born)
    (hsent : s'.sent = s.sent) (hphase : s'.phase = s.phase) (hfresh : s'.fresh = s.fresh) :
    Quiet s s' := by
  refine ⟨?_, hphase, ?_⟩
  · intro q
    refine View.ext (congrFun hborn q) ?_ (by simp only [view, hsent])
    simp only [view, flowAt, hs]
    by_cases hq : q = p
    · subst hq
      rw [update_self]
      cases node with
      | none => exact hp.symm
      | some node =>
        cases node with
        | flow f => exact absurd rfl (hnode f)
        | flowFif time => exact hp.symm
        | deferPort time clients => exact hp.symm
        | flowSync time => exact hp.symm
        | exitSched time => exact hp.symm
    · rw [update_of_ne hq]
  · intro q hq
    rw [hs, hborn]
    rw [hfresh] at hq
    exact h.update hlt node hq

/-- A node that is not the one of a flow is made. -/
theorem quiet_createNode (h : s.Fresh) (hnode : ∀ f, node ≠ .flow f) :
    Quiet s (s.createNode node) := by
  have hnone : s.node s.fresh = none := (h s.fresh (Nat.le_refl _)).1
  refine ⟨?_, rfl, ?_⟩
  · intro q
    refine View.ext rfl ?_ rfl
    by_cases hq : q = s.fresh
    · subst hq
      have hold : s.flowAt s.fresh = none := by simp [flowAt, hnone]
      refine Eq.trans (flowAt_update_self (some node)) (Eq.trans ?_ hold.symm)
      cases node with
      | flow f => exact absurd rfl (hnode f)
      | flowFif time => rfl
      | deferPort time clients => rfl
      | flowSync time => rfl
      | exitSched time => rfl
    · exact flowAt_update_ne hq _
  · intro q hq
    have hlt : s.fresh < q := hq
    have hold := h q hlt.le
    refine ⟨?_, hold.2⟩
    simp only [createNode, setNode, update_of_ne (Nat.ne_of_gt hlt)]
    exact hold.1

/-- Fields that no flow is in. -/
theorem Quiet.of_eq (h : Quiet s s1) (hnode : s2.node = s1.node) (hborn : s2.born = s1.born)
    (hsent : s2.sent = s1.sent) (hphase : s2.phase = s1.phase) (hfresh : s2.fresh = s1.fresh) :
    Quiet s s2 := by
  refine h.trans ⟨?_, hphase, ?_⟩
  · intro q
    simp only [GenThread.view, flowAt, hnode, hborn, hsent]
  · intro q hq
    rw [hfresh] at hq
    rw [hnode, hborn]
    exact h.fresh q hq

theorem quiet_setDpc (h : s.Fresh) (isTcp : Bool) (d : Option Ptr) :
    Quiet s (s.setDpc isTcp d) := by
  cases isTcp with
  | true => exact (Quiet.refl h).of_eq rfl rfl rfl rfl rfl
  | false => exact (Quiet.refl h).of_eq rfl rfl rfl rfl rfl

theorem quiet_getDefer (h : s.Fresh) (isTcp : Bool) : Quiet s (s.getDefer isTcp).1 := by
  unfold getDefer
  cases s.dpc isTcp with
  | some d => exact Quiet.refl h
  | none =>
    have hnew : Quiet s (s.createNode (.deferPort 0 [])) :=
      quiet_createNode h fun f hf => by cases hf
    exact hnew.trans (quiet_setDpc hnew.fresh isTcp _)

/-- Ports are released without a flow being changed. -/
theorem deferClientPortFree_post (h : s.Fresh) (isTcp : Bool) (aging : Nat) (now : Rat)
    (client : ClientPort) :
    Post (s.deferClientPortFree isTcp aging now client) (Quiet s) (· ≠ .noPacket) := by
  unfold deferClientPortFree
  split
  · exact (Quiet.refl h).of_eq rfl rfl rfl rfl rfl
  · have hget := quiet_getDefer h isTcp
    dsimp only
    cases hd : (s.getDefer isTcp).1.node (s.getDefer isTcp).2 with
    | none => exact GenFault.noConfusion
    | some node =>
      cases node with
      | deferPort time clients =>
        have hflow : (s.getDefer isTcp).1.flowAt (s.getDefer isTcp).2 = none := by simp [flowAt, hd]
        have hlt := hget.fresh.lt hd
        dsimp only
        split
        · have hset : Quiet (s.getDefer isTcp).1
              ((((s.getDefer isTcp).1.setNode (s.getDefer isTcp).2
              (.deferPort (now + aging) (clients ++ [client]))).addNode (s.getDefer isTcp).2)) :=
            quiet_update hget.fresh hflow hlt (fun f hf => by cases hf) rfl rfl rfl rfl rfl
          exact (hget.trans hset).trans (quiet_setDpc hset.fresh isTcp none)
        · exact hget.trans (quiet_update hget.fresh hflow hlt (fun f hf => by cases hf) rfl rfl rfl
            rfl rfl)
      | flow f => exact GenFault.noConfusion
      | flowFif time => exact GenFault.noConfusion
      | flowSync time => exact GenFault.noConfusion
      | exitSched time => exact GenFault.noConfusion

theorem handlerDeferJob_post (h : s.Fresh) (now : Rat) (d : Ptr) : Post (s.handlerDeferJob now d)
    (fun s' => Quiet s s' ∧ s'.flowAt d = none) (· ≠ .noPacket) := by
  unfold handlerDeferJob
  cases hd : s.node d with
  | none => exact GenFault.noConfusion
  | some node =>
    cases node with
    | deferPort time clients =>
      refine ⟨(Quiet.refl h).of_eq rfl rfl rfl rfl rfl, ?_⟩
      simp [flowAt, freePorts, hd]
    | flow f => exact GenFault.noConfusion
    | flowFif time => exact GenFault.noConfusion
    | flowSync time => exact GenFault.noConfusion
    | exitSched time => exact GenFault.noConfusion

/-- A node that is not the one of a flow goes back to the pool. -/
theorem freeOther_post (h : s.Fresh) (hp : s.flowAt p = none) :
    Post (s.freeNode p) (Quiet s) (· ≠ .noPacket) := by
  refine (freeNode_post h p).mono (fun s' hs => ⟨?_, hs.phase, hs.fresh⟩) fun _ he => he
  intro q
  by_cases hq : q = p
  · subst hq
    rw [hs.self]
    exact View.ext rfl hp.symm rfl
  · exact hs.others q hq

theorem flushDpc_post (h : s.Fresh) (now : Rat) (isTcp : Bool) :
    Post (s.flushDpc now isTcp) (Quiet s) (· ≠ .noPacket) := by
  unfold flushDpc
  cases s.dpc isTcp with
  | none => exact Quiet.refl h
  | some d =>
    refine (handlerDeferJob_post h now d).bind fun s1 hs1 => ?_
    refine (freeOther_post hs1.1.fresh hs1.2).bind fun s2 hs2 => ?_
    exact (hs1.1.trans hs2).trans (quiet_setDpc hs2.fresh isTcp none)

theorem handlerDeferJobFlush_post (h : s.Fresh) (now : Rat) :
    Post (s.handlerDeferJobFlush now) (Quiet s) (· ≠ .noPacket) := by
  refine (flushDpc_post h now true).bind fun s1 hs1 => ?_
  exact (flushDpc_post hs1.fresh now false).mono (fun s2 hs2 => hs1.trans hs2) fun _ he => he

end GenThread

open GenThread

variable {cfg : Config κ} {p : Ptr} {f : FlowNode κ cfg.learnMode} {s : cfg.Thread}

/-- The ports of a flow are released, and its node goes back to the pool. -/
theorem freeLastFlowNode_post (h : s.Fresh) (env : Env) :
    Post (freeLastFlowNode env p f s) (fun s' => Changed p s s' { s.view p with node := none })
      (· ≠ .noPacket) := by
  have hports : ∀ (clients : List ClientPort) (s : cfg.Thread), s.Fresh →
      Post (clients.foldlM (fun (s : cfg.Thread) client => s.deferClientPortFree
        (f.template.isTcp f.pktInfo) (cfg.aging (f.template.isTcp f.pktInfo) client.poolIdx) env.now
        client) s) (Quiet s) (· ≠ .noPacket) := by
    intro clients
    induction clients with
    | nil =>
      intro s hs
      exact Quiet.refl hs
    | cons client rest ih =>
      intro s hs
      rw [foldlM_cons]
      refine (deferClientPortFree_post hs _ _ _ _).bind fun s1 hs1 => ?_
      exact (ih s1 hs1.fresh).mono (fun s2 hs2 => hs1.trans hs2) fun _ he => he
  refine (hports f.clientPorts s h).bind fun s1 hs1 => ?_
  refine (freeNode_post hs1.fresh p).mono (fun s2 hs2 => ?_) fun _ he => he
  rw [hs1.view p] at hs2
  exact (hs1.changed rfl).trans hs2

/-! ## 3. How far a flow is -/

/-- The open flows are ended, or the scheduler has ended. -/
def Phase.cleaning : Phase → Bool
  | .flush always => always
  | .sync always _ => always
  | .close => true
  | .closed => true
  | .deleted => true

/-- `close_file` was called. -/
def Phase.isClosed : Phase → Bool
  | .closed => true
  | .deleted => true
  | _ => false

/-- The first `m` packets of a flow. -/
def Born.packets (b : Born κ learnMode) (q : Ptr) (m : Nat) : List Sent :=
  (List.range m).map fun k => ⟨q, k % b.template.pkts.length, b.template.packetTime b.time k⟩

/-- In learn mode, up to the answer of the responder: all packets are of the initiator. -/
structure Asking (t : Template κ learnMode) (j : Nat) : Prop where
  learn : learnMode = true
  lt : j < t.pkts.length
  initiator : ∀ i < j, ∀ lp ∈ t.pkts[i]?, lp.info.desc.isInitSide = true

/-- **A flow that is open**: it goes on with packet `j`, and has sent `m` packets.  These are the
same, but for a repeat flow once the open flows are ended. -/
structure Playing (cleaning : Bool) (b : Born κ learnMode) (f : FlowNode κ learnMode) (m j : Nat) :
    Prop where
  template : f.template = b.template
  pktInfo : f.pktInfo = j % b.template.pkts.length
  time : f.time = b.template.packetTime b.time j
  once : b.template.limitWasSet = false → j < b.template.pkts.length
  sent : m = j ∨ (b.template.limitWasSet = true ∧ cleaning = true ∧ f.type = .flowPkt ∧ m ≤ j)
  asking : f.type = .flowPktNat → Asking b.template j ∧ (f.natState = .first → j = 0) ∧
    ∃ (r : Nat) (lp : ReplayPkt), b.template.pkts[r]? = some lp ∧ lp.info.desc.isInitSide = false

/-- **A flow that is over**, and has sent `m` packets. -/
inductive Over (cleaning closed : Bool) (b : Born κ learnMode) (m : Nat) : Prop
  /-- It has sent all packets. -/
  | finished (honce : b.template.limitWasSet = false) (hall : m = b.template.pkts.length)
  /-- A repeat flow was ended. -/
  | stopped (hrepeat : b.template.limitWasSet = true) (hclean : cleaning = true)
  /-- The next packet is an answer, and the translation is not known. -/
  | timedOut (hask : Asking b.template m) (lp : ReplayPkt) (hpkt : b.template.pkts[m]? = some lp)
      (hresponder : lp.info.desc.isInitSide = false)
  /-- It was freed by `close_file`. -/
  | closed (hclosed : closed = true)

/-- A flow that was opened and has sent `m` packets is open, or over. -/
def Stage (cleaning closed : Bool) (b : Born κ learnMode) (m : Nat) :
    Option (FlowNode κ learnMode) → Prop
  | some f => ∃ j, Playing cleaning b f m j
  | none => Over cleaning closed b m

/-- How far the flow at an address is. -/
def PlayOk (cleaning closed : Bool) (q : Ptr) (v : View κ learnMode) : Prop :=
  match v.born with
  | none => v.node = none ∧ v.sent = []
  | some b => ∃ m, v.sent = b.packets q m ∧ Stage cleaning closed b m v.node

theorem Born.packets_succ (b : Born κ learnMode) (q : Ptr) (m : Nat) :
    b.packets q (m + 1) =
      b.packets q m ++ [⟨q, m % b.template.pkts.length, b.template.packetTime b.time m⟩] := by
  simp [Born.packets, range_succ]

section PlayOk

variable {cleaning closed : Bool} {q : Ptr} {v : View κ learnMode} {b : Born κ learnMode}
  {f : FlowNode κ learnMode} {lp : ReplayPkt} {m j : Nat}

/-- An open flow was opened. -/
theorem PlayOk.playing (h : PlayOk cleaning closed q v) (hf : v.node = some f) :
    ∃ b m j, v.born = some b ∧ v.sent = b.packets q m ∧ Playing cleaning b f m j := by
  unfold PlayOk at h
  cases hb : v.born with
  | none =>
    rw [hb] at h
    dsimp only at h
    rw [hf] at h
    cases h.1
  | some b =>
    rw [hb] at h
    dsimp only at h
    rw [hf] at h
    obtain ⟨m, hsent, j, hplay⟩ := h
    exact ⟨b, m, j, rfl, hsent, hplay⟩

theorem PlayOk.of_playing (hb : v.born = some b) (hf : v.node = some f)
    (hsent : v.sent = b.packets q m) (h : Playing cleaning b f m j) :
    PlayOk cleaning closed q v := by
  unfold PlayOk
  rw [hb, hf]
  exact ⟨m, hsent, j, h⟩

theorem PlayOk.of_over (hb : v.born = some b) (hf : v.node = none) (hsent : v.sent = b.packets q m)
    (h : Over cleaning closed b m) : PlayOk cleaning closed q v := by
  unfold PlayOk
  rw [hb, hf]
  exact ⟨m, hsent, h⟩

variable {cleaning' : Bool}

theorem Playing.mono (h : Playing cleaning b f m j) (hle : cleaning = true → cleaning' = true) :
    Playing cleaning' b f m j := by
  refine ⟨h.template, h.pktInfo, h.time, h.once, ?_, h.asking⟩
  rcases h.sent with heq | ⟨hrep, hclean, htype, hlt⟩
  · exact Or.inl heq
  · exact Or.inr ⟨hrep, hle hclean, htype, hlt⟩

theorem Over.mono (h : Over cleaning closed b m) {closed' : Bool}
    (hle : cleaning = true → cleaning' = true) (hle' : closed = true → closed' = true) :
    Over cleaning' closed' b m := by
  cases h with
  | finished honce hall => exact .finished honce hall
  | stopped hrep hclean => exact .stopped hrep (hle hclean)
  | timedOut hask lp hpkt hresp => exact .timedOut hask lp hpkt hresp
  | closed hclosed => exact .closed (hle' hclosed)

/-- The thread goes on to its next phase. -/
theorem PlayOk.mono (h : PlayOk cleaning closed q v) {closed' : Bool}
    (hle : cleaning = true → cleaning' = true) (hle' : closed = true → closed' = true) :
    PlayOk cleaning' closed' q v := by
  unfold PlayOk at h ⊢
  cases hb : v.born with
  | none =>
    rw [hb] at h
    exact h
  | some b =>
    rw [hb] at h
    obtain ⟨m, hsent, h⟩ := h
    refine ⟨m, hsent, ?_⟩
    cases hf : v.node with
    | none =>
      rw [hf] at h
      exact Over.mono h hle hle'
    | some f =>
      rw [hf] at h
      obtain ⟨j, h⟩ := h
      exact ⟨j, h.mono hle⟩

/-- `close_file` may free the node of a flow. -/
theorem PlayOk.close (h : PlayOk cleaning closed q v) {v' : View κ learnMode}
    (hb : v'.born = v.born) (hsent : v'.sent = v.sent) (hf : v'.node = v.node ∨ v'.node = none) :
    PlayOk true true q v' := by
  have hmono : PlayOk true true q v := h.mono (fun _ => rfl) fun _ => rfl
  rcases hf with hf | hf
  · have hv : v' = v := View.ext hb hf hsent
    rw [hv]
    exact hmono
  · unfold PlayOk at hmono ⊢
    rw [hb, hf, hsent]
    cases hvb : v.born with
    | none =>
      rw [hvb] at hmono
      exact ⟨rfl, hmono.2⟩
    | some b =>
      rw [hvb] at hmono
      obtain ⟨m, hm, -⟩ := hmono
      exact ⟨m, hm, .closed rfl⟩

/-! ## 4. One packet -/

theorem Playing.pkt_mem (h : Playing cleaning b f m j) : ∃ lp, f.pkt = .ok lp ∧
    b.template.pkts[j % b.template.pkts.length]? = some lp := by
  have hlt := Nat.mod_lt j b.template.length_pos
  refine ⟨b.template.pkts[j % b.template.pkts.length], ?_, List.getElem?_eq_getElem hlt⟩
  unfold FlowNode.pkt
  rw [h.template, h.pktInfo, List.getElem?_eq_getElem hlt]

/-- The packet that is sent is the next one. -/
theorem Playing.emit (h : Playing cleaning b f m j) (hm : m = j) :
    b.packets q m ++ [⟨q, f.pktInfo, f.time⟩] = b.packets q (m + 1) := by
  rw [Born.packets_succ, h.pktInfo, h.time, hm]

/-- The node after `update_next_pkt_in_flow`. -/
theorem Playing.update (h : Playing cleaning b f m j)
    (hpkt : b.template.pkts[j % b.template.pkts.length]? = some lp)
    (hlast : lp.info.desc.isLastPkt = false) :
    f.updateNextPktInFlow lp = .ok { f with
      time := b.template.packetTime b.time (j + 1)
      pktInfo := (j + 1) % b.template.pkts.length } := by
  have hne := Nat.ne_of_lt (Template.succ_lt_length hpkt hlast)
  have hget := Template.getPacket_pktCnt hpkt hlast
  obtain ⟨hmod, htime⟩ := Template.packetTime_next b.time hpkt hne
  have hgo : f.updateNextPktInFlow lp = .ok { f with
      time := f.time + f.template.gap lp, pktInfo := j % b.template.pkts.length + 1 } := by
    simp only [FlowNode.updateNextPktInFlow, FlowNode.goTo, h.template, hget]
  rw [hgo, hmod, htime, h.template, h.time]

/-- The node after `reset_pkt_in_flow` and with the time of `reschedule_flow`. -/
theorem Playing.reset (h : Playing cleaning b f m j)
    (hpkt : b.template.pkts[j % b.template.pkts.length]? = some lp)
    (hlast : lp.info.desc.isLastPkt = true) :
    ∃ f', f.resetPktInFlow = .ok f' ∧ { f' with time := f'.time + f'.template.restartTime } =
      { f with
        time := b.template.packetTime b.time (j + 1)
        pktInfo := (j + 1) % b.template.pkts.length } := by
  obtain ⟨hmod, htime⟩ := Template.packetTime_restart b.time
    ((Template.isLastPkt_iff hpkt).mp hlast)
  refine ⟨{ f with pktInfo := 0 }, ?_, ?_⟩
  · have hget : b.template.getPacket 0 = some 0 := if_pos b.template.length_pos
    simp only [FlowNode.resetPktInFlow, FlowNode.goTo, h.template, hget]
  · rw [hmod, htime, h.template, h.time]

/-- **The node goes on to the next packet**, of this repetition or of the next one; `m'` packets are
sent now. -/
theorem Playing.next (h : Playing cleaning b f m j) (m' : Nat)
    (honce : b.template.limitWasSet = false → j + 1 < b.template.pkts.length)
    (hsent : m' = j + 1 ∨ (b.template.limitWasSet = true ∧ cleaning = true ∧ f.type = .flowPkt ∧
      m' ≤ j + 1))
    (natState : NatState)
    (hnat : f.type = .flowPktNat → natState = .wait ∧ Asking b.template (j + 1)) :
    Playing cleaning b { f with
      time := b.template.packetTime b.time (j + 1)
      pktInfo := (j + 1) % b.template.pkts.length
      natState } m' (j + 1) := by
  refine ⟨h.template, rfl, rfl, honce, hsent, ?_⟩
  intro htype
  obtain ⟨hwait, hask⟩ := hnat htype
  refine ⟨hask, ?_, (h.asking htype).2.2⟩
  intro hfirst
  rw [hwait] at hfirst
  cases hfirst

/-- While a flow waits for its translation, all packets up to the next one are of the initiator. -/
theorem Asking.succ (h : Asking b.template j) (hlp : b.template.pkts[j]? = some lp)
    (hinit : lp.info.desc.isInitSide = true) :
    ∀ i < j + 1, ∀ lp ∈ b.template.pkts[i]?, lp.info.desc.isInitSide = true := by
  intro i hi lp' hlp'
  rcases Nat.lt_succ_iff_lt_or_eq.mp hi with hlt | rfl
  · exact h.initiator i hlt lp' hlp'
  · rw [Option.mem_def, hlp] at hlp'
    cases hlp'
    exact hinit

/-- **A packet of the initiator is not the last one while the flow waits for its translation**: the
responder has not answered. -/
theorem Playing.not_last (h : Playing cleaning b f m j) (htype : f.type = .flowPktNat)
    (hlp : b.template.pkts[j % b.template.pkts.length]? = some lp)
    (hinit : lp.info.desc.isInitSide = true) : lp.info.desc.isLastPkt = false := by
  obtain ⟨hask, -, r, lpr, hr, hresp⟩ := h.asking htype
  rw [Nat.mod_eq_of_lt hask.lt] at hlp
  cases hlast : lp.info.desc.isLastPkt with
  | false => rfl
  | true =>
    have hend := (Template.isLastPkt_iff hlp).mp hlast
    obtain ⟨hrlt, -⟩ := List.getElem?_eq_some_iff.mp hr
    have := hask.succ hlp hinit r (by omega) lpr hr
    rw [hresp] at this
    cases this

end PlayOk

/-! ## 5. One step

Before the file is closed a node that is handled changes one flow at most (`Changed`), so `Played`
is kept when that flow is still at a stage of its template.
-/

/-- **Every flow is on its way.** -/
structure Played (s : cfg.Thread) : Prop where
  fresh : s.Fresh
  play : ∀ q, PlayOk s.phase.cleaning s.phase.isClosed q (s.view q)

variable {s' : cfg.Thread} {allowed : cfg.Thread → Act → Prop}

/-- A step that changes one flow. -/
theorem Played.changed {v : View κ cfg.learnMode} (h : Played s) (hc : Changed p s s' v)
    (hv : PlayOk s.phase.cleaning s.phase.isClosed p v) : Played s' := by
  refine ⟨hc.fresh, ?_⟩
  intro q
  rw [hc.phase]
  by_cases hq : q = p
  · subst hq
    rw [hc.self]
    exact hv
  · rw [hc.others q hq]
    exact h.play q

/-- A step that changes no flow. -/
theorem Played.quiet (h : Played s) (hq : Quiet s s') : Played s' := by
  refine ⟨hq.fresh, ?_⟩
  intro q
  rw [hq.phase, hq.view q]
  exact h.play q

/-- The thread goes on to its next phase. -/
theorem Played.setPhase (h : Played s) (phase : Phase)
    (hclean : s.phase.cleaning = true → phase.cleaning = true)
    (hclosed : s.phase.isClosed = true → phase.isClosed = true) : Played { s with phase } := by
  refine ⟨h.fresh, ?_⟩
  intro q
  exact (h.play q).mono hclean hclosed

variable {always : Bool}

/-- **A `FLOW_PKT` node.** -/
theorem handlePkt_post (h : Played s) (hp : s.node p = some (.flow f)) (htype : f.type = .flowPkt)
    (hphase : s.phase.cleaning = always) (env : Env) :
    Post (handlePkt always env p f s) Played (· ≠ .noPacket) := by
  have hview := flowAt_flow hp
  obtain ⟨b, m, j, hborn, hsent, hplay⟩ := (h.play p).playing hview
  obtain ⟨lp, hpkt, hlp⟩ := hplay.pkt_mem
  simp only [handlePkt, hpkt, ok_bind]
  rw [hplay.template]
  -- what is sent: nothing, for a repeat flow while the open flows are ended
  set s1 : cfg.Thread := if !b.template.limitWasSet || !always then s.flushOneNode p f
    else s with hs1
  have hsend : ∃ m', Changed p s s1 ⟨some b, some f, b.packets p m'⟩ ∧
      (m' = j + 1 ∨ (b.template.limitWasSet = true ∧ always = true ∧ m' ≤ j)) := by
    by_cases hsilent : b.template.limitWasSet = true ∧ always = true
    · refine ⟨m, ?_, Or.inr ⟨hsilent.1, hsilent.2, ?_⟩⟩
      · rw [hs1, hsilent.1, hsilent.2]
        refine (Quiet.refl h.fresh).changed (View.ext hborn hview hsent)
      · rcases hplay.sent with heq | ⟨-, -, -, hle⟩
        · exact heq.le
        · exact hle
    · have hm : m = j := by
        rcases hplay.sent with heq | ⟨hrep, hclean, -⟩
        · exact heq
        · exact absurd ⟨hrep, hphase ▸ hclean⟩ hsilent
      refine ⟨m + 1, ?_, Or.inl (by rw [hm])⟩
      have hcond : (!b.template.limitWasSet || !always) = true := by
        cases hl : b.template.limitWasSet with
        | false => rfl
        | true =>
          cases ha : always with
          | false => rfl
          | true => exact absurd ⟨hl, ha⟩ hsilent
      rw [hs1, hcond, if_pos rfl]
      have hv : { s.view p with sent := (s.view p).sent ++ [⟨p, f.pktInfo, f.time⟩] } =
          (⟨some b, some f, b.packets p (m + 1)⟩ : View κ cfg.learnMode) := by
        refine View.ext hborn hview ?_
        rw [← hplay.emit hm, ← hsent]
      rw [← hv]
      exact changed_flushOneNode h.fresh f
  obtain ⟨m', hc, hm'⟩ := hsend
  have hp1 : s1.node p = some (.flow f) := by
    rw [hs1]
    split <;> exact hp
  -- the node goes on with the next packet
  have hnext : ∀ f', f' = { f with
        time := b.template.packetTime b.time (j + 1)
        pktInfo := (j + 1) % b.template.pkts.length } →
      (b.template.limitWasSet = false → j + 1 < b.template.pkts.length) →
      Played ((s1.setNode p (.flow f')).addNode p) := by
    intro f' hf' honce
    have hset := changed_setFlow hc.fresh hp1 f'
    rw [hc.self] at hset
    refine h.changed (hc.trans hset) (PlayOk.of_playing rfl rfl rfl (m := m') (j := j + 1) ?_)
    rw [hf']
    refine hplay.next m' honce ?_ f.natState ?_
    · rcases hm' with heq | ⟨hrep, halways, hle⟩
      · exact Or.inl heq
      · exact Or.inr ⟨hrep, hphase.trans halways, htype, by omega⟩
    · intro hnat
      rw [htype] at hnat
      cases hnat
  cases hlast : lp.info.desc.isLastPkt with
  | false =>
    simp only [Bool.false_eq_true, if_false]
    rw [hplay.update hlp hlast, ok_bind]
    refine hnext _ rfl fun honce => ?_
    have hlt := hplay.once honce
    rw [Nat.mod_eq_of_lt hlt] at hlp
    exact Template.succ_lt_length hlp hlast
  | true =>
    simp only [if_true]
    cases hagain : b.template.limitWasSet && !always with
    | true =>
      obtain ⟨hrep, -⟩ := Bool.and_eq_true_iff.mp hagain
      obtain ⟨f', hreset, hf'⟩ := hplay.reset hlp hlast
      rw [if_pos rfl, hreset, ok_bind]
      refine hnext _ hf' fun honce => ?_
      rw [hrep] at honce
      cases honce
    | false =>
      simp only [Bool.false_eq_true, if_false]
      refine (freeLastFlowNode_post hc.fresh env).mono (fun s2 hs2 => ?_) fun _ he => he
      rw [hc.self] at hs2
      refine h.changed (hc.trans hs2) (PlayOk.of_over rfl rfl rfl (m := m') ?_)
      cases hrep : b.template.limitWasSet with
      | true =>
        have halways : always = true := by simpa [hrep] using hagain
        exact .stopped hrep (hphase.trans halways)
      | false =>
        rcases hm' with heq | ⟨hrep', -, -⟩
        · have hlt := hplay.once hrep
          rw [Nat.mod_eq_of_lt hlt] at hlp
          exact .finished hrep (heq.trans ((Template.isLastPkt_iff hlp).mp hlast))
        · rw [hrep] at hrep'
          cases hrep'

/-- A packet of the initiator, in the `FLOW_PKT_NAT` case.  It is not the last one, since the
responder has not answered. -/
theorem nextNatPkt_post (h : Played s) (hp : s.node p = some (.flow f))
    (htype : f.type = .flowPktNat) {b : Born κ cfg.learnMode} {m j : Nat}
    (hborn : s.born p = some b) (hsent : (s.view p).sent = b.packets p m)
    (hplay : Playing s.phase.cleaning b f m j) {lp : ReplayPkt}
    (hlp : b.template.pkts[j % b.template.pkts.length]? = some lp)
    (hinit : lp.info.desc.isInitSide = true) (env : Env) :
    Post (nextNatPkt env p { f with natState := .wait } lp s) Played (· ≠ .noPacket) := by
  obtain ⟨hask, -, hresp⟩ := hplay.asking htype
  have hlast := hplay.not_last htype hlp hinit
  have hm : m = j := by
    rcases hplay.sent with heq | ⟨-, -, hpkt, -⟩
    · exact heq
    · rw [htype] at hpkt
      cases hpkt
  have hplay' : Playing s.phase.cleaning b { f with natState := .wait } m j := by
    refine ⟨hplay.template, hplay.pktInfo, hplay.time, hplay.once, hplay.sent, ?_⟩
    intro hnat
    refine ⟨hask, ?_, hresp⟩
    intro hfirst
    cases hfirst
  unfold nextNatPkt
  simp only [hlast, Bool.false_eq_true, if_false]
  rw [hplay'.update hlp hlast, ok_bind]
  have hc : Changed p s (s.flushOneNode p { f with natState := .wait })
      ⟨some b, some f, b.packets p (m + 1)⟩ := by
    have hv : { s.view p with sent := (s.view p).sent ++ [⟨p, f.pktInfo, f.time⟩] } =
        (⟨some b, some f, b.packets p (m + 1)⟩ : View κ cfg.learnMode) := by
      refine View.ext hborn (flowAt_flow hp) ?_
      rw [← hplay.emit hm, ← hsent]
    rw [← hv]
    exact changed_flushOneNode h.fresh _
  have hp1 : (s.flushOneNode p { f with natState := .wait }).node p = some (.flow f) := hp
  have hset := changed_setFlow hc.fresh hp1 { f with
    time := b.template.packetTime b.time (j + 1)
    pktInfo := (j + 1) % b.template.pkts.length
    natState := .wait }
  rw [hc.self] at hset
  rw [Nat.mod_eq_of_lt hask.lt] at hlp
  have hlt := Template.succ_lt_length hlp hlast
  refine h.changed (hc.trans hset) (PlayOk.of_playing rfl rfl rfl (m := m + 1) (j := j + 1) ?_)
  refine hplay.next (m + 1) (fun _ => hlt) (Or.inl (by rw [hm])) .wait ?_
  intro _
  exact ⟨rfl, hask.learn, hlt, hask.succ hlp hinit⟩

/-- **A `FLOW_PKT_NAT` node.** -/
theorem handleNatPkt_post (h : Played s) (hp : s.node p = some (.flow f))
    (htype : f.type = .flowPktNat) (env : Env) :
    Post (handleNatPkt env p f s) Played (· ≠ .noPacket) := by
  have hview := flowAt_flow hp
  obtain ⟨b, m, j, hborn, hsent, hplay⟩ := (h.play p).playing hview
  obtain ⟨lp, hpkt, hlp⟩ := hplay.pkt_mem
  obtain ⟨hask, hfirst, -⟩ := hplay.asking htype
  simp only [handleNatPkt, hpkt, ok_bind]
  cases hnat : f.natState with
  | first =>
    have hinit : lp.info.desc.isInitSide = true := by
      rw [hfirst hnat, Nat.zero_mod] at hlp
      exact Template.isInitSide_zero hlp
    exact nextNatPkt_post h hp htype hborn hsent hplay hlp hinit env
  | wait =>
    have hwait : f = { f with natState := .wait } := by rw [← hnat]
    cases hinit : lp.info.desc.isInitSide with
    | true =>
      simp only [if_true]
      rw [hwait]
      exact nextNatPkt_post h hp htype hborn hsent hplay hlp hinit env
    | false =>
      simp only [Bool.false_eq_true, if_false, terminateNatFlows]
      have hquiet : Quiet s ({ s with lookup := s.lookup.erase f.getShortFid } : cfg.Thread) :=
        (Quiet.refl h.fresh).of_eq rfl rfl rfl rfl rfl
      refine (freeLastFlowNode_post hquiet.fresh env).mono (fun s2 hs2 => ?_) fun _ he => he
      have hm : m = j := by
        rcases hplay.sent with heq | ⟨-, -, hpkt, -⟩
        · exact heq
        · rw [htype] at hpkt
          cases hpkt
      refine h.changed ((hquiet.changed (v := s.view p) rfl).trans hs2)
        (PlayOk.of_over hborn rfl hsent (m := m) ?_)
      rw [Nat.mod_eq_of_lt hask.lt, ← hm] at hlp
      exact .timedOut (hm ▸ hask) lp hlp hinit
  | off => exact GenFault.noConfusion

/-- **A flow is opened.** -/
theorem generateFlow_post (h : Played s) (env : Env) (t : Template κ cfg.learnMode) :
    Post (generateFlow env t s) (fun s' => Played s' ∧ s.fresh ≤ s'.fresh ∧
      ∀ q, q ≠ s.fresh → s'.view q = s.view q) (· ≠ .noPacket) := by
  have hnone := h.fresh s.fresh (Nat.le_refl _)
  have hold := h.play s.fresh
  simp only [PlayOk, GenThread.view, hnone.2] at hold
  obtain ⟨lp, hlp⟩ : ∃ lp, t.pkts[0]? = some lp := ⟨_, List.getElem?_eq_getElem t.length_pos⟩
  have hpkt : (newFlow env t s).pkt = .ok lp := by
    simp only [newFlow, FlowNode.pkt, hlp]
  -- the new node, whatever its type is, and whatever else changes
  have hnew : ∀ (f : FlowNode κ cfg.learnMode) (s' : cfg.Thread), f.template = t →
      f.time = s.curTimeSec → f.pktInfo = 0 → (f.type = .flowPktNat → cfg.learnMode = true ∧
        lp.info.desc.isBiDirectionalFlow = true) →
      s'.node = update s.node s.fresh (some (.flow f)) →
      s'.born = update s.born s.fresh (some ⟨t, s.curTimeSec⟩) → s'.sent = s.sent →
      s'.phase = s.phase → s'.fresh = s.fresh + 1 →
      Played s' ∧ s.fresh ≤ s'.fresh ∧ ∀ q, q ≠ s.fresh → s'.view q = s.view q := by
    intro f s' ht htime hzero hnat hnode hborn hsent hphase hfresh
    have hothers : ∀ q, q ≠ s.fresh → s'.view q = s.view q := by
      intro q hq
      simp only [GenThread.view, flowAt, hnode, hborn, hsent, update_of_ne hq]
    refine ⟨⟨?_, ?_⟩, hfresh ▸ Nat.le_succ _, hothers⟩
    · intro q hq
      rw [hfresh] at hq
      have hne : q ≠ s.fresh := Nat.ne_of_gt hq
      rw [hnode, hborn, update_of_ne hne, update_of_ne hne]
      exact h.fresh q (Nat.le_of_succ_le hq)
    · intro q
      rw [hphase]
      by_cases hq : q = s.fresh
      · subst hq
        refine PlayOk.of_playing (b := ⟨t, s.curTimeSec⟩) (f := f) (m := 0) (j := 0) ?_ ?_ ?_ ?_
        · simp [GenThread.view, hborn]
        · simp [GenThread.view, flowAt, hnode]
        · simp only [GenThread.view, hsent]
          exact hold.2
        · refine ⟨ht, ?_, ?_, fun _ => t.length_pos, Or.inl rfl, ?_⟩
          · rw [hzero, Nat.zero_mod]
          · rw [htime, Template.packetTime_zero]
          · intro hf
            obtain ⟨hlearn, hbi⟩ := hnat hf
            exact ⟨⟨hlearn, t.length_pos, fun i hi => absurd hi (Nat.not_lt_zero i)⟩, fun _ => rfl,
              Template.exists_responder hlp hbi⟩
      · rw [hothers q hq]
        exact h.play q
  simp only [generateFlow, hpkt, ok_bind]
  cases hlearn : cfg.learnMode && lp.info.desc.isBiDirectionalFlow with
  | true =>
    obtain ⟨hmode, hbi⟩ := Bool.and_eq_true_iff.mp hlearn
    simp only [if_true, associate]
    split
    · exact GenFault.noConfusion
    · exact hnew _ _ rfl rfl rfl (fun _ => ⟨hmode, hbi⟩) rfl rfl rfl rfl rfl
  | false =>
    simp only [Bool.false_eq_true, if_false]
    refine hnew _ _ rfl rfl rfl ?_ rfl rfl rfl rfl rfl
    intro hnat
    cases hnat

theorem generateFlowsRoundrobin_post (h : Played s) (env : Env) :
    Post (generateFlowsRoundrobin env s) (fun r => Played r.1 ∧ s.fresh ≤ r.1.fresh ∧
      ∀ q, q ≠ s.fresh → r.1.view q = s.view q) (· ≠ .noPacket) := by
  unfold generateFlowsRoundrobin
  obtain ⟨done, cur, found⟩ :=
    findTemplate cfg s.flowcnt env.policer cfg.capGen.length s.curTemplate true
  have hquiet : ∀ (flowcnt : Nat → Nat) (cur : Nat),
      Quiet s ({ s with flowcnt, curTemplate := cur } : cfg.Thread) := fun _ _ =>
    (Quiet.refl h.fresh).of_eq rfl rfl rfl rfl rfl
  cases found with
  | none => exact ⟨h.quiet (hquiet s.flowcnt cur), Nat.le_refl _, fun q _ => rfl⟩
  | some t =>
    dsimp only
    refine (generateFlow_post (h.quiet (hquiet _ _)) env t).bind fun s' hs' => ?_
    exact ⟨hs'.1, hs'.2.1, hs'.2.2⟩

/-- **A `FLOW_FIF` node.** -/
theorem handleFif_post (h : Played s) {time : Rat} (hp : s.node p = some (.flowFif time))
    (env : Env) :
    Post (handleFif always env p time s) Played (· ≠ .noPacket) := by
  have hflow : s.flowAt p = none := by simp [flowAt, hp]
  unfold handleFif
  cases always with
  | true => exact (freeOther_post h.fresh hflow).mono (fun s' hs' => h.quiet hs') fun _ he => he
  | false =>
    have hquiet : Quiet s ({ s with curTimeSec := time } : cfg.Thread) :=
      (Quiet.refl h.fresh).of_eq rfl rfl rfl rfl rfl
    simp only [Bool.false_eq_true, if_false]
    refine (generateFlowsRoundrobin_post (h.quiet hquiet) env).bind fun r hr => ?_
    obtain ⟨s1, done⟩ := r
    obtain ⟨hs1, hle, hothers⟩ := hr
    have hlt := h.fresh.lt hp
    have hne : p ≠ s.fresh := Nat.ne_of_lt hlt
    have hflow1 : s1.flowAt p = none := by
      have := congrArg View.node (hothers p hne)
      exact this.trans hflow
    dsimp only
    cases done with
    | true => exact (freeOther_post hs1.fresh hflow1).mono (fun s' hs' => hs1.quiet hs') fun _ he =>
        he
    | false =>
      simp only [Bool.false_eq_true, if_false]
      exact hs1.quiet (quiet_update hs1.fresh hflow1 (Nat.lt_of_lt_of_le hlt hle)
        (fun f hf => by cases hf) rfl rfl rfl rfl rfl)

/-- The end of `flush_file`. -/
theorem endFlush_post (h : Played s) (hphase : s.phase.isClosed = false)
    (halways : s.phase.cleaning = always) (now : Rat) :
    Post (endFlush always now s) Played (· ≠ .noPacket) := by
  have hclosed : ∀ {phase : Phase}, s.phase.isClosed = true → phase.isClosed = true := by
    intro phase hc
    rw [hphase] at hc
    cases hc
  unfold endFlush
  split
  · exact h.setPhase .close (fun _ => rfl) hclosed
  · cases always with
    | true =>
      refine (handlerDeferJobFlush_post h.fresh now).bind fun s1 hs1 => ?_
      have h1 := h.quiet hs1
      exact h1.setPhase .close (fun _ => rfl) (hs1.phase ▸ hclosed)
    | false =>
      simp only [Bool.false_eq_true, if_false]
      split
      · exact h.setPhase .close (fun _ => rfl) hclosed
      · exact h.setPhase (.flush true) (fun _ => rfl) hclosed

/-- **A node that was taken from the queue.** -/
theorem popNode_post (h : Played s) {node : CGenNode κ cfg.learnMode} (hp : s.node p = some node)
    (hphase : s.phase = .flush always) (env : Env) :
    Post (popNode always env p s node) Played (· ≠ .noPacket) := by
  have halways : s.phase.cleaning = always := by rw [hphase]; rfl
  cases node with
  | flow f =>
    simp only [popNode]
    cases htype : f.type with
    | flowPkt => exact handlePkt_post h hp htype halways env
    | flowPktNat => exact handleNatPkt_post h hp htype env
  | flowFif time => exact handleFif_post h hp env
  | deferPort time clients =>
    refine (handlerDeferJob_post h.fresh env.now p).bind fun s1 hs1 => ?_
    refine (freeOther_post hs1.1.fresh hs1.2).mono (fun s2 hs2 => ?_) fun _ he => he
    exact (h.quiet hs1.1).quiet hs2
  | flowSync time =>
    have hquiet : Quiet s ({ s with curTimeSec := time } : cfg.Thread) :=
      (Quiet.refl h.fresh).of_eq rfl rfl rfl rfl rfl
    refine (h.quiet hquiet).setPhase (.sync always p) ?_ ?_
    · intro hc
      exact halways ▸ hc
    · intro hc
      rw [hquiet.phase, hphase] at hc
      cases hc
  | exitSched time =>
    have hflow : s.flowAt p = none := by simp [flowAt, hp]
    refine (freeOther_post h.fresh hflow).bind fun s1 hs1 => ?_
    refine endFlush_post (h.quiet hs1) ?_ ?_ env.now
    · rw [hs1.phase, hphase]
      rfl
    · rw [hs1.phase]
      exact halways

/-- The rest of a `FLOW_SYNC` node. -/
theorem endSync_post (h : Played s) (hphase : s.phase = .sync always p) (now : Rat) :
    Post (endSync always p now s) Played (· ≠ .noPacket) := by
  unfold endSync
  cases hp : s.node p with
  | none => exact GenFault.noConfusion
  | some node =>
    have hlt := h.fresh.lt hp
    cases node with
    | flowSync time =>
      have hflow : s.flowAt p = none := by simp [flowAt, hp]
      dsimp only
      split
      · refine (freeOther_post h.fresh hflow).bind fun s1 hs1 => ?_
        refine endFlush_post (h.quiet hs1) ?_ ?_ now
        · rw [hs1.phase, hphase]
          rfl
        · rw [hs1.phase, hphase]
          rfl
      · have hquiet : Quiet s ((s.setNode p (.flowSync (time + syncTimeOut))).addNode p) :=
          quiet_update h.fresh hflow hlt (fun f hf => by cases hf) rfl rfl rfl rfl rfl
        refine (h.quiet hquiet).setPhase (.flush always) ?_ ?_
        · intro hc
          rw [hquiet.phase, hphase] at hc
          exact hc
        · intro hc
          rw [hquiet.phase, hphase] at hc
          cases hc
    | flow f => exact GenFault.noConfusion
    | flowFif time => exact GenFault.noConfusion
    | deferPort time clients => exact GenFault.noConfusion
    | exitSched time => exact GenFault.noConfusion

/-- The translation of a flow comes. -/
theorem handelNatInfo_post (h : Played s) (fid : UInt32) :
    Post (handelNatInfo s fid) Played (· ≠ .noPacket) := by
  unfold handelNatInfo
  cases s.lookup.lookup fid with
  | none => exact h
  | some p =>
    dsimp only
    cases hp : s.node p with
    | none => exact GenFault.noConfusion
    | some node =>
      cases node with
      | flow f =>
        dsimp only
        split
        · exact GenFault.noConfusion
        · obtain ⟨b, m, j, hborn, hsent, hplay⟩ := (h.play p).playing (flowAt_flow hp)
          have hset := changed_setFlow h.fresh hp { f with type := .flowPkt }
          have hc : Changed p s ({ s.setNode p (.flow { f with type := .flowPkt }) with
              lookup := s.lookup.erase fid } : cfg.Thread)
              { s.view p with node := some { f with type := .flowPkt } } :=
            ⟨hset.others, hset.self, hset.phase, hset.fresh⟩
          refine h.changed hc (PlayOk.of_playing hborn rfl hsent (m := m) (j := j) ?_)
          refine ⟨hplay.template, hplay.pktInfo, hplay.time, hplay.once, ?_, ?_⟩
          · rcases hplay.sent with heq | ⟨hrep, hclean, -, hle⟩
            · exact Or.inl heq
            · exact Or.inr ⟨hrep, hclean, rfl, hle⟩
          · intro hnat
            cases hnat
      | flowFif time => exact GenFault.noConfusion
      | deferPort time clients => exact GenFault.noConfusion
      | flowSync time => exact GenFault.noConfusion
      | exitSched time => exact GenFault.noConfusion

/-- `close_file` frees nodes, and does nothing else. -/
theorem removeAll_post (queue : List Ptr) (s : cfg.Thread) (h : s.Fresh) :
    Post (queue.foldlM GenThread.freeNode s) (fun s' => s'.Fresh ∧
      ∀ q, (s'.view q).born = (s.view q).born ∧
      (s'.view q).sent = (s.view q).sent ∧
        ((s'.view q).node = (s.view q).node ∨ (s'.view q).node = none))
      (· ≠ .noPacket) := by
  induction queue generalizing s with
  | nil => exact ⟨h, fun q => ⟨rfl, rfl, Or.inl rfl⟩⟩
  | cons p rest ih =>
    rw [foldlM_cons]
    refine (freeNode_post h p).bind fun s1 hs1 => ?_
    refine (ih s1 hs1.fresh).mono (fun s2 hs2 => ⟨hs2.1, fun q => ?_⟩) fun _ he => he
    obtain ⟨hborn, hsent, hnode⟩ := hs2.2 q
    by_cases hq : q = p
    · subst hq
      rw [hs1.self] at hborn hsent hnode
      refine ⟨hborn, hsent, Or.inr ?_⟩
      rcases hnode with hnode | hnode <;> exact hnode
    · rw [hs1.others q hq] at hborn hsent hnode
      exact ⟨hborn, hsent, hnode⟩

theorem closeFile_post (h : Played s) : Post (closeFile s) Played (· ≠ .noPacket) := by
  have hquiet : Quiet s ({ s with queue := [] } : cfg.Thread) :=
    (Quiet.refl h.fresh).of_eq rfl rfl rfl rfl rfl
  refine (removeAll_post s.queue _ hquiet.fresh).bind fun s1 hs1 => ?_
  refine ⟨hs1.1, fun q => ?_⟩
  obtain ⟨hborn, hsent, hnode⟩ := hs1.2 q
  exact (h.play q).close hborn hsent hnode

/-- **Every step keeps every flow on its way**, and no packet outside a template is asked for. -/
theorem step_post (h : Played s) (a : Act) : Post (step s a) Played (· ≠ .noPacket) := by
  cases a with
  | pop i env =>
    simp only [step]
    cases hphase : s.phase with
    | flush always =>
      dsimp only
      cases hi : s.queue[i]? with
      | none => exact GenFault.noConfusion
      | some p =>
        dsimp only
        unfold deref
        cases hp : s.node p with
        | none => exact GenFault.noConfusion
        | some node =>
          have hquiet : Quiet s ({ s with queue := s.queue.eraseIdx i } : cfg.Thread) :=
            (Quiet.refl h.fresh).of_eq rfl rfl rfl rfl rfl
          rw [← hphase]
          exact popNode_post (h.quiet hquiet) hp hphase env
    | sync always p => exact h
    | close => exact h
    | closed => exact h
    | deleted => exact h
  | nat fid =>
    simp only [step]
    cases hphase : s.phase with
    | sync always p => exact handelNatInfo_post h fid
    | flush always => exact h
    | close => exact h
    | closed => exact h
    | deleted => exact h
  | quit =>
    simp only [step]
    cases hphase : s.phase with
    | sync always p =>
      have hnew : Quiet s (s.createNode (.exitSched (s.curTimeSec + 1 / 10000))) :=
        quiet_createNode h.fresh fun f hf => by cases hf
      exact h.quiet (hnew.of_eq rfl rfl rfl rfl rfl)
    | flush always => exact h
    | close => exact h
    | closed => exact h
    | deleted => exact h
  | endSync now =>
    simp only [step]
    cases hphase : s.phase with
    | sync always p => exact endSync_post h hphase now
    | flush always => exact h
    | close => exact h
    | closed => exact h
    | deleted => exact h
  | closeFile =>
    simp only [step]
    cases hphase : s.phase with
    | close => exact closeFile_post h
    | flush always => exact h
    | sync always p => exact h
    | closed => exact h
    | deleted => exact h
  | delete =>
    simp only [step]
    cases hphase : s.phase with
    | closed =>
      have hquiet : Quiet s ({ s with
          returnedGlobal := s.returnedGlobal ++ s.lookup.entries.map Sigma.snd
          lookup := ∅ } : cfg.Thread) := (Quiet.refl h.fresh).of_eq rfl rfl rfl rfl rfl
      exact (h.quiet hquiet).setPhase .deleted (fun _ => rfl) fun _ => rfl
    | flush always => exact h
    | sync always p => exact h
    | close => exact h
    | deleted => exact h

theorem played_start (cfg : Config κ) : Played (startGenerate cfg) := by
  have hempty : ∀ (s : cfg.Thread), (∀ q, s.flowAt q = none) → (∀ q, s.born q = none) →
      s.sent = [] → s.Fresh → Played s := by
    intro s hflow hborn hsent hfresh
    refine ⟨hfresh, fun q => ?_⟩
    simp only [PlayOk, GenThread.view, hborn q, hsent]
    exact ⟨hflow q, rfl⟩
  let s0 : cfg.Thread :=
    { node := fun _ => none, fresh := 0, queue := [],
      curTemplate := cfg.threadId.toNat % cfg.capGen.length
      curTimeSec := cfg.startTime }
  have h0 : Played s0 := hempty s0 (fun _ => rfl) (fun _ => rfl) rfl fun _ _ => ⟨rfl, rfl⟩
  have hadd : ∀ (s : cfg.Thread) (node : CGenNode κ cfg.learnMode) (p : Ptr), Played s →
      (∀ f, node ≠ .flow f) → Played ((s.createNode node).addNode p) := by
    intro s node p hs hnode
    exact hs.quiet ((quiet_createNode hs.fresh hnode).of_eq rfl rfl rfl rfl rfl)
  have h1 := hadd _ (.flowFif cfg.startTime) 0 h0 fun f hf => by cases hf
  have h2 := hadd _ (.flowSync (cfg.startTime + syncTimeOut)) 1 h1 fun f hf => by cases hf
  unfold startGenerate
  dsimp only
  split
  · exact hadd _ _ 2 h2 fun f hf => by cases hf
  · exact h2

theorem ReachableBy.played (h : ReachableBy allowed s) :
    Played s := by
  induction h with
  | init => exact played_start cfg
  | step _ _ _ hstep ih => exact (step_post ih _).result hstep

theorem reachable_run (acts : List Act) (hall : ∀ a ∈ acts, ∀ s, allowed s a) {s : cfg.Thread}
    (h : ReachableBy allowed s) (hrun : run s acts = some s') : ReachableBy allowed s' := by
  induction acts generalizing s with
  | nil =>
    cases hrun
    exact h
  | cons a acts ih =>
    simp only [run] at hrun
    split at hrun
    · rename_i hen
      cases hstep : step s a with
      | error fault =>
        rw [hstep] at hrun
        cases hrun
      | ok s1 =>
        rw [hstep] at hrun
        exact ih (fun a ha => hall a (mem_cons_of_mem _ ha))
          (h.step hen (hall a mem_cons_self s) hstep) hrun
    · cases hrun

/-! ## 6. Replay -/

/-- What a thread has sent, and what it may ask for. -/
structure Replayed (s : cfg.Thread) : Prop where
  /-- A flow has sent its packets in order, each once and when it was due.  If it is open it goes on
  with the packet that is due next; if it is over it has sent all of them, or it was ended
  before. -/
  flows : ∀ q b, s.born q = some b → ∃ m, ofClass Sent.flow q s.sent = b.packets q m ∧
    Stage s.phase.cleaning s.phase.isClosed b m (s.flowAt q)
  /-- Only flows that were opened send packets. -/
  sent : ∀ e ∈ s.sent, ∃ b, s.born e.flow = some b
  /-- The next step does not ask for a packet outside the template. -/
  inside : ∀ a, step s a ≠ .error .noPacket

/-- **In every run every flow is replayed**: packet after packet of the template, repetition after
repetition, at the start time plus the gaps, whatever else the scheduler does in between.  The
invariant is `Played`: what was sent at an address is `packets` of the flow that was born there, up
to the `Stage` it is at. -/
theorem flow_replayed (cfg : Config κ) (s : cfg.Thread) (h : Reachable cfg s) : Replayed s := by
  have hplayed : Played s := ReachableBy.played h
  refine ⟨?_, ?_, ?_⟩
  · intro q b hb
    have hq := hplayed.play q
    unfold PlayOk at hq
    simp only [GenThread.view, hb] at hq
    exact hq
  · intro e he
    have hq := hplayed.play e.flow
    unfold PlayOk at hq
    cases hb : s.born e.flow with
    | some b => exact ⟨b, rfl⟩
    | none =>
      simp only [GenThread.view, hb] at hq
      have hmem : e ∈ ofClass Sent.flow e.flow s.sent := mem_ofClass.mpr ⟨he, rfl⟩
      rw [hq.2] at hmem
      cases hmem
  · intro a hfault
    exact (step_post hplayed a).fault hfault rfl

/-- Two packets, one millisecond apart, again and again. -/
def twoPackets : Template Nat false where
  multiFlow := false
  capMode := true
  ipg := none
  id := 0
  raws := [⟨0, false, 0⟩, ⟨0, false, 1 / 1000⟩]
  info := ((loadReplay false false true none 0
    [⟨(0 : Nat), false, 0⟩, ⟨0, false, 1 / 1000⟩]).toOption.getD ⟨⟨[], 0⟩, []⟩).1
  pkts := ((loadReplay false false true none 0
    [⟨(0 : Nat), false, 0⟩, ⟨0, false, 1 / 1000⟩]).toOption.getD ⟨⟨[], 0⟩, []⟩).2
  loaded := by decide +kernel
  ipgSec := 0
  rttSec := 0
  limitWasSet := true
  limit := 1
  restartTime := 1
  clientPoolIdx := 0
  isTcp := fun _ => true

/-- A run of half a millisecond with the template. -/
def shortRun : Config Nat where
  learnMode := false
  noCleanFlowClose := false
  threadId := 0
  capGen := [twoPackets]
  nonempty := cons_ne_nil _ _
  startTime := 1 / 100
  durationSec := 1 / 2000
  dTime := 1 / 1000
  tcpAging := fun _ => 0
  udpAging := fun _ => 0

/-- A flow is opened, sends its first packet, the time is over, and the flow is ended. -/
def shortActs : List Act :=
  [.pop 2 { policer := fun _ => true }, .pop 1 {}, .pop 2 {}, .pop 0 {}]

/-- The state at the end of the run. -/
def shortEnd : shortRun.Thread :=
    (run (startGenerate shortRun) shortActs).getD (startGenerate shortRun)

theorem run_shortActs : run (startGenerate shortRun) shortActs = some shortEnd := by
  have hsome : (run (startGenerate shortRun) shortActs).isSome = true := by decide +kernel
  obtain ⟨s, hs⟩ := Option.isSome_iff_exists.mp hsome
  rw [shortEnd, hs]
  rfl

/-- The theorem at the end of that run: one packet was sent. -/
theorem flow_replayed_shortEnd : Reachable shortRun shortEnd ∧ shortEnd.sent = [⟨3, 0, 1 / 100⟩] ∧
    Replayed shortEnd := by
  have hreach : Reachable shortRun shortEnd :=
    reachable_run _ (fun _ _ _ => trivial) .init run_shortActs
  refine ⟨hreach, ?_, flow_replayed shortRun shortEnd hreach⟩
  decide +kernel

/-- A flow has sent whole repetitions when it is over. -/
def SentWhole (s : cfg.Thread) (q : Ptr) (b : Born κ cfg.learnMode) : Prop :=
  s.flowAt q = none → ∃ m, ofClass Sent.flow q s.sent = b.packets q m ∧ b.template.pkts.length ∣ m

/-- **A repeat flow is cut**: while the open flows are ended it is freed, and its last repetition
was not sent to the end. -/
theorem repeat_flow_cut : ∃ s, run (startGenerate shortRun) shortActs = some s ∧
    s.phase = .flush true ∧
    ∃ b, s.born 3 = some b ∧ s.flowAt 3 = none ∧ ¬ SentWhole s 3 b := by
  refine ⟨shortEnd, run_shortActs, by decide +kernel, ?_⟩
  have hborn : (shortEnd.born 3).map (fun b => b.template.pkts.length) = some 2 := by decide +kernel
  have hflow : (shortEnd.flowAt 3).isNone = true := by decide +kernel
  have hsent : (ofClass Sent.flow 3 shortEnd.sent).length = 1 := by decide +kernel
  obtain ⟨b, hb, hlen⟩ := Option.map_eq_some_iff.mp hborn
  have hnone := Option.isNone_iff_eq_none.mp hflow
  refine ⟨b, hb, hnone, ?_⟩
  intro hwhole
  obtain ⟨m, hm, hdvd⟩ := hwhole hnone
  rw [hm, Born.packets, length_map, length_range] at hsent
  rw [hsent, hlen] at hdvd
  revert hdvd
  decide

end Trex.Gen
