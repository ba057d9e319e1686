/-
# The packets of one activation

A burst stream is split over the cores when it is compiled, and each core's node counts its share
down by itself (`handle_multi_burst`).  `handleMultiBurst` decrements an unsigned counter before it
looks at it, so a counter of 0 stands for `2 ^ 32` packets: the cores together send what the stream
asks for exactly when every core gets a packet and there is at least one burst.
-/
import Mathlib.Algebra.BigOperators.Ring.List
import Trex.Dp.Node
import Trex.Lib.Interleave
import Trex.Stream.Mirror

namespace Trex.Dp

open Trex.Lib Trex.Stream List

/-! ## 1. How long a node counts down -/

/-- How often an unsigned counter is decremented before it is 0. -/
def countdown (x : UInt32) : Nat := if x = 0 then 2 ^ 32 else x.toNat

theorem countdown_pos (x : UInt32) : 0 < countdown x := by
  unfold countdown
  split
  · decide
  · rename_i hx
    exact Nat.pos_of_ne_zero fun h0 => hx (UInt32.toNat_inj.mp h0)

theorem countdown_one : countdown 1 = 1 := rfl

/-- A decrement that does not end the countdown. -/
theorem countdown_sub_one {x : UInt32} (h : x - 1 ≠ 0) : countdown (x - 1) + 1 = countdown x := by
  by_cases hx : x = 0
  · subst hx
    rfl
  · have hpos := countdown_pos x
    have hle : (1 : UInt32) ≤ x := by
      simp only [countdown, hx, if_false] at hpos
      exact UInt32.le_iff_toNat_le.mpr hpos
    have hsub : (x - 1).toNat = x.toNat - 1 := UInt32.toNat_sub_of_le x 1 hle
    simp only [countdown, hx, h, if_false] at hpos ⊢
    omega

theorem countdown_last {x : UInt32} (h : x - 1 = 0) : x = 1 := by
  have hx := congrArg (· + 1) h
  simpa using hx

namespace CGenNodeStateless

/-- The packets that a node still sends before it is inactive. -/
def remaining (node : CGenNodeStateless) : Nat :=
  if node.state = .ssACTIVE then
    countdown node.singleBurst + (countdown node.multiBursts - 1) * countdown node.singleBurstRefill
  else 0

/-- **One call of `handle_multi_burst` is one packet less.** -/
theorem remaining_handleMultiBurst {node : CGenNodeStateless} (h : node.state = .ssACTIVE) :
    node.handleMultiBurst.remaining + 1 = node.remaining := by
  have hgt : ∀ x : UInt32, x > 0 ↔ x ≠ 0 := fun x => UInt32.pos_iff_ne_zero
  by_cases hs : node.singleBurst - 1 = 0
  · have hone := countdown_last hs
    by_cases hm : node.multiBursts - 1 = 0
    · -- the last packet of the last burst
      have hone' := countdown_last hm
      simp [handleMultiBurst, remaining, h, hone, hone', countdown_one]
    · -- the last packet of a burst: the counter is refilled
      have hstep := countdown_sub_one hm
      have hpos := countdown_pos (node.multiBursts - 1)
      obtain ⟨m, hm'⟩ := Nat.exists_eq_succ_of_ne_zero hpos.ne'
      have hlhs : node.handleMultiBurst.remaining
          = countdown node.singleBurstRefill
            + (countdown (node.multiBursts - 1) - 1) * countdown node.singleBurstRefill := by
        simp [handleMultiBurst, remaining, h, hgt, hs, hm]
      have hrhs : node.remaining
          = 1 + (countdown node.multiBursts - 1) * countdown node.singleBurstRefill := by
        simp [remaining, h, hone, countdown_one]
      rw [hlhs, hrhs, ← hstep, hm', Nat.succ_sub_one, Nat.add_sub_cancel, Nat.succ_mul]
      omega
  · -- inside a burst
    have hstep := countdown_sub_one hs
    have hlhs : node.handleMultiBurst.remaining
        = countdown (node.singleBurst - 1)
          + (countdown node.multiBursts - 1) * countdown node.singleBurstRefill := by
      simp [handleMultiBurst, remaining, h, hgt, hs]
    rw [hlhs, remaining, if_pos h, ← hstep]
    omega

end CGenNodeStateless

/-! ## 2. The nodes of a stream -/

/-- The nodes that a core can have of a stream: as `add_stream` makes it, and after any of its
operations. -/
inductive NodeOf (e : TrexStream) : CGenNodeStateless → Prop
  | new (curTimeSec : Rat) : NodeOf e (newNode curTimeSec e)
  | nextStream {node : CGenNodeStateless} (next : Option Ptr) :
      NodeOf e node → NodeOf e { node with nextStream := next }
  | handleMultiBurst {node : CGenNodeStateless} : NodeOf e node → NodeOf e node.handleMultiBurst
  | refresh {node : CGenNodeStateless} {info : TrexStream} : NodeOf e node →
      node.refStreamInfo = some info → NodeOf e (node.refresh info)
  | updateRefreshTime {node : CGenNodeStateless} {info : TrexStream} (curTime : Rat) :
      NodeOf e node → node.refStreamInfo = some info →
        NodeOf e (node.updateRefreshTime info curTime)
  | updateRate {node : CGenNodeStateless} (factor : Rat) :
      NodeOf e node → NodeOf e (node.updateRate factor)
  | setPause {node : CGenNodeStateless} (enable : Bool) :
      NodeOf e node → NodeOf e (node.setPause enable)

/-- A node when its stream becomes active: at the start, or when another stream ends. -/
inductive Activated (e : TrexStream) : CGenNodeStateless → Prop
  | start (curTimeSec : Rat) : e.selfStart = true → Activated e (newNode curTimeSec e)
  | next {node : CGenNodeStateless} {info : TrexStream} : NodeOf e node →
      node.state = .ssINACTIVE → node.refStreamInfo = some info → Activated e (node.refresh info)

variable {node : CGenNodeStateless}

/-- The refill and the stream of a node do not change. -/
theorem NodeOf.fixed {e : TrexStream} (h : NodeOf e node) (hburst : e.type ≠ .stCONTINUOUS) :
    node.singleBurstRefill = e.burstTotalPkts ∧ node.refStreamInfo = some e.clone := by
  induction h with
  | new curTimeSec => cases htype : e.type <;> simp_all [newNode]
  | handleMultiBurst _ ih =>
    unfold CGenNodeStateless.handleMultiBurst
    simp only
    split
    · exact ih
    · split <;> exact ih
  | nextStream _ _ ih => exact ih
  | refresh _ _ ih => exact ih
  | updateRefreshTime _ _ _ ih => exact ih
  | updateRate _ _ ih => exact ih
  | setPause _ _ ih => exact ih

/-- **A node that becomes active has all its bursts before it.** -/
theorem Activated.remaining {e : TrexStream} (h : Activated e node)
    (hburst : e.type ≠ .stCONTINUOUS) (hsingle : e.type = .stSINGLE_BURST → e.numBursts = 1) :
    node.remaining = countdown e.burstTotalPkts * countdown e.numBursts := by
  have hmul : ∀ b m : Nat, 0 < m → b + (m - 1) * b = b * m := by
    intro b m hm
    obtain ⟨k, rfl⟩ := Nat.exists_eq_succ_of_ne_zero hm.ne'
    rw [Nat.succ_sub_one, Nat.mul_succ, Nat.mul_comm, Nat.add_comm]
  rw [← hmul _ _ (countdown_pos e.numBursts)]
  cases h with
  | start curTimeSec hself =>
    cases htype : e.type with
    | stCONTINUOUS => exact absurd htype hburst
    | stSINGLE_BURST =>
      simp [newNode, htype, hself, CGenNodeStateless.remaining, hsingle htype]
    | stMULTI_BURST => simp [newNode, htype, hself, CGenNodeStateless.remaining]
  | next hnode _ hinfo =>
    obtain ⟨hrefill, href⟩ := hnode.fixed hburst
    obtain rfl := Option.some.inj (href.symm.trans hinfo)
    simp [CGenNodeStateless.refresh, CGenNodeStateless.remaining, hrefill, TrexStream.clone]

/-! ## 3. All cores together -/

/-- The node of a stream on one core, and how many packets it sent. -/
structure Sender where
  node : CGenNodeStateless
  sent : Nat := 0

/-- The scheduler of a core reaches the node: an active one sends a packet. -/
def Sender.step (s : Sender) : Sender :=
  if s.node.state = .ssACTIVE then ⟨s.node.handleMultiBurst, s.sent + 1⟩ else s

/-- What was sent and what remains, together. -/
def Sender.total (s : Sender) : Nat := s.sent + s.node.remaining

theorem Sender.total_step (s : Sender) : s.step.total = s.total := by
  unfold Sender.step
  split
  · rename_i h
    have hone := CGenNodeStateless.remaining_handleMultiBurst h
    simp only [Sender.total]
    omega
  · rfl

/-- The activation ended on every core. -/
def Ended (cores : List Sender) : Prop := ∀ s ∈ cores, s.node.state ≠ .ssACTIVE

/-- The packets that all cores sent. -/
def sentBy (cores : List Sender) : Nat := (cores.map Sender.sent).sum

/-- **Every schedule that ends the activation sends the same packets.** -/
theorem sentBy_ended {cores : List Sender} {sched : List Nat}
    (h : Ended (interleave Sender.step cores sched)) :
    sentBy (interleave Sender.step cores sched) = (cores.map Sender.total).sum := by
  rw [← map_interleave Sender.total_step cores sched, sentBy]
  refine congrArg List.sum (map_congr_left fun s hs => ?_)
  simp [Sender.total, CGenNodeStateless.remaining, h s hs]

theorem exists_ended (cores : List Sender) :
    ∃ sched, Ended (interleave Sender.step cores sched) := by
  refine exists_interleave_done (fun s : Sender => s.node.remaining) (fun s hs => ?_) cores
  have hact : s.node.state = .ssACTIVE := not_not.mp hs
  have hone := CGenNodeStateless.remaining_handleMultiBurst hact
  simp only [Sender.step, hact, if_true]
  omega

/-! ## 4. The shares of the cores -/

section Shares

variable (total : UInt32) {n : Nat} (hn : 0 < n) (hsmall : n < 256)

include hsmall

theorem burstShare_rest {core : Nat} (hcore : core ≠ 0) :
    (burstShare total n core).toNat = total.toNat / n := by
  have hn' : (UInt32.ofNat n).toNat = n := UInt32.toNat_ofNat_of_lt' (lt_trans hsmall (by decide))
  rw [burstShare, if_neg hcore, UInt32.toNat_div, hn']

include hn

theorem burstShare_first : (burstShare total n 0).toNat = total.toNat / n + total.toNat % n := by
  have hn' : (UInt32.ofNat n).toNat = n := UInt32.toNat_ofNat_of_lt' (lt_trans hsmall (by decide))
  have hlt : total.toNat < 2 ^ 32 := total.toNat_lt
  have hdm := Nat.div_add_mod' total.toNat n
  have hself : total.toNat / n ≤ total.toNat / n * n := Nat.le_mul_of_pos_right _ hn
  rw [burstShare, if_pos rfl]
  have hdiv : (total / UInt32.ofNat n).toNat = total.toNat / n := by rw [UInt32.toNat_div, hn']
  have hmul : (total / UInt32.ofNat n * UInt32.ofNat n).toNat = total.toNat / n * n := by
    rw [UInt32.toNat_mul, hdiv, hn', Nat.mod_eq_of_lt (by omega)]
  have hsub : (total - total / UInt32.ofNat n * UInt32.ofNat n).toNat = total.toNat % n := by
    rw [UInt32.toNat_sub_of_le _ _ (UInt32.le_iff_toNat_le.mpr (by omega)), hmul]
    omega
  rw [UInt32.toNat_add, hdiv, hsub, Nat.mod_eq_of_lt (by omega)]

/-- The packets that the cores send for one burst. -/
def burstSent (total : UInt32) (n : Nat) : Nat :=
  ((List.range n).map fun core => countdown (burstShare total n core)).sum

theorem burstSent_eq : burstSent total n
    = countdown (burstShare total n 0) + (n - 1) * countdown (burstShare total n 1) := by
  obtain ⟨m, rfl⟩ := Nat.exists_eq_succ_of_ne_zero hn.ne'
  have hrest : ∀ core, burstShare total (m + 1) (core + 1) = burstShare total (m + 1) 1 := by
    intro core
    simp [burstShare]
  simp [burstSent, range_succ_eq_map, Function.comp_def, hrest]

/-- **The shares add up exactly when every core has one packet at least.** -/
theorem burstSent_of_le (h : n ≤ total.toNat) : burstSent total n = total.toNat := by
  have hdiv : 0 < total.toNat / n := Nat.div_pos h hn
  have hcount : ∀ x : UInt32, 0 < x.toNat → countdown x = x.toNat := by
    intro x hx
    refine if_neg fun h0 => ?_
    rw [h0] at hx
    exact absurd hx (by decide)
  have h0 := burstShare_first total hn hsmall
  have h1 := burstShare_rest total hsmall one_ne_zero
  rw [burstSent_eq total hn hsmall, hcount _ (by omega), hcount _ (by omega), h0, h1]
  have hdm := Nat.div_add_mod total.toNat n
  obtain ⟨m, rfl⟩ := Nat.exists_eq_succ_of_ne_zero hn.ne'
  rw [Nat.succ_sub_one]
  rw [Nat.succ_mul] at hdm
  omega

/-- A core with no packet sends `2 ^ 32` of them. -/
theorem lt_burstSent (h : total.toNat < n) : total.toNat < burstSent total n := by
  have h0 := burstShare_first total hn hsmall
  have h1 := burstShare_rest total hsmall one_ne_zero
  have hdiv : total.toNat / n = 0 := Nat.div_eq_of_lt h
  have hmod : total.toNat % n = total.toNat := Nat.mod_eq_of_lt h
  have hle : ∀ x : UInt32, x.toNat ≤ countdown x := by
    intro x
    unfold countdown
    split
    · exact x.toNat_lt.le
    · exact le_refl _
  have hzero : countdown (burstShare total n 1) = 2 ^ 32 := by
    refine if_pos (UInt32.toNat_inj.mp ?_)
    rw [h1, hdiv]
    rfl
  have hfirst := hle (burstShare total n 0)
  rw [burstSent_eq total hn hsmall, hzero]
  by_cases hone : n = 1
  · -- one core, and an empty burst
    have hpos := countdown_pos (burstShare total n 0)
    have ht : total.toNat = 0 := by omega
    rw [ht]
    omega
  · have hcores : 1 ≤ n - 1 := by omega
    omega

end Shares

/-! ## 5. What the cores send for a stream -/

/-- The nodes of the `k`-th compiled stream, one for each core, when the stream becomes active. -/
def ActivatedOn (objs : List TrexStreamsCompiledObj) (k : Nat) (nodes : List CGenNodeStateless) :
    Prop :=
  List.Forall₂ (fun obj node => ∃ e, obj.objs[k]? = some e ∧ Activated e node) objs nodes

/-- All cores together send a number of packets for one activation, in whatever order they run: some
schedule ends it, and every schedule that does sends that number. -/
def Conserves (nodes : List CGenNodeStateless) (packets : Nat) : Prop :=
  (∃ sched, Ended (interleave Sender.step (nodes.map (⟨·, 0⟩)) sched))
    ∧ ∀ sched, Ended (interleave Sender.step (nodes.map (⟨·, 0⟩)) sched) →
      sentBy (interleave Sender.step (nodes.map (⟨·, 0⟩)) sched) = packets

/-- The packets that a stream asks for. -/
def askedPackets (s : TrexStream) : Nat :=
  match s.type with
  | .stCONTINUOUS => 0
  | .stSINGLE_BURST => s.burstTotalPkts.toNat
  | .stMULTI_BURST => s.burstTotalPkts.toNat * s.numBursts.toNat

theorem conserves_iff (nodes : List CGenNodeStateless) (packets : Nat) :
    Conserves nodes packets ↔ (nodes.map CGenNodeStateless.remaining).sum = packets := by
  have htotal : ((nodes.map fun node => (⟨node, 0⟩ : Sender)).map Sender.total).sum
      = (nodes.map CGenNodeStateless.remaining).sum := by
    simp [Sender.total, Function.comp_def]
  constructor
  · rintro ⟨⟨sched, hs⟩, hall⟩
    rw [← hall sched hs, sentBy_ended hs, htotal]
  · intro h
    refine ⟨exists_ended _, fun sched hs => ?_⟩
    rw [sentBy_ended hs, htotal, h]

/-- The nodes of a stream have the shares of the cores before them. -/
theorem ActivatedOn.remaining {rand : Nat → Nat → Nat} {portId : UInt8} {streams : List TrexStream}
    {n : UInt8} {factor : Rat} {objs : List TrexStreamsCompiledObj}
    (h : compileAll rand portId streams n factor = .ok objs) {k : Nat} {s : TrexStream}
    (hs : (enabledOf streams)[k]? = some s) (hburst : s.type ≠ .stCONTINUOUS) (hadm : Admitted s)
    {nodes : List CGenNodeStateless} (hact : ActivatedOn objs k nodes) :
    (nodes.map CGenNodeStateless.remaining).sum
      = burstSent s.burstTotalPkts n.toNat * countdown s.numBursts := by
  have hlen : nodes.length = n.toNat := by
    rw [← hact.length_eq]
    exact (compileAll_entries h).2.1
  have hmap : nodes.map CGenNodeStateless.remaining = (List.range n.toNat).map fun core =>
      countdown (burstShare s.burstTotalPkts n.toNat core) * countdown s.numBursts := by
    refine ext_getElem (by simp [hlen]) fun core h1 h2 => ?_
    rw [getElem_map, getElem_map, getElem_range]
    rw [length_map] at h1
    have hobj : core < objs.length := by
      rw [hact.length_eq]
      exact h1
    obtain ⟨e, he, hnode⟩ := hact.get hobj h1
    obtain ⟨-, -, -, hentry⟩ := compileAll_core h (List.getElem?_eq_getElem hobj)
    obtain ⟨id, next, heq⟩ := hentry k s e hs he
    have htype := congrArg TrexStream.type heq
    have hshare := congrArg TrexStream.burstTotalPkts heq
    have hnum := congrArg TrexStream.numBursts heq
    change e.type = s.type at htype
    change e.burstTotalPkts = burstShare s.burstTotalPkts n.toNat core at hshare
    change e.numBursts = s.numBursts at hnum
    have hrem := hnode.remaining (htype ▸ hburst) fun hsingle => hnum.trans
      (hadm.numBursts_eq (htype ▸ hsingle))
    rw [hshare, hnum] at hrem
    exact hrem
  rw [hmap, burstSent, sum_map_mul_right]

/-- **The cores together send the packets that a burst stream asks for, exactly when every core has
a packet in its share and there is a burst to send.**  A core whose share is empty, and a stream
with no burst, count down from 0 and send `2 ^ 32`. -/
theorem burst_conserved_iff (rand : Nat → Nat → Nat) (portId : UInt8) (streams : List TrexStream)
    (n : UInt8) (factor : Rat) (objs : List TrexStreamsCompiledObj) (hn : 0 < n.toNat)
    (h : compileAll rand portId streams n factor = .ok objs) (k : Nat) (s : TrexStream)
    (hs : (enabledOf streams)[k]? = some s) (hburst : s.type ≠ .stCONTINUOUS) (hadm : Admitted s)
    (nodes : List CGenNodeStateless) (hact : ActivatedOn objs k nodes) :
    Conserves nodes (askedPackets s)
      ↔ n.toNat ≤ s.burstTotalPkts.toNat ∧ 1 ≤ s.numBursts.toNat := by
  have hasked : askedPackets s = s.burstTotalPkts.toNat * s.numBursts.toNat := by
    cases htype : s.type with
    | stCONTINUOUS => exact absurd htype hburst
    | stSINGLE_BURST => simp [askedPackets, htype, hadm.numBursts_eq htype]
    | stMULTI_BURST => simp [askedPackets, htype]
  rw [conserves_iff, hact.remaining h hs hburst hadm, hasked]
  have hsmall : n.toNat < 256 := n.toNat_lt
  by_cases hcores : n.toNat ≤ s.burstTotalPkts.toNat
  · rw [burstSent_of_le _ hn hsmall hcores]
    have hpos : 0 < s.burstTotalPkts.toNat := lt_of_lt_of_le hn hcores
    rw [Nat.mul_right_inj hpos.ne']
    unfold countdown
    split
    · rename_i h0
      simp [h0]
    · rename_i h0
      have : s.numBursts.toNat ≠ 0 := fun h1 => h0 (UInt32.toNat_inj.mp h1)
      simp [hcores]
      omega
  · refine iff_of_false (ne_of_gt ?_) fun hc => hcores hc.1
    have hlt := lt_burstSent _ hn hsmall (Nat.not_le.mp hcores)
    have hnum : s.numBursts.toNat ≤ countdown s.numBursts := by
      unfold countdown
      split
      · exact s.numBursts.toNat_lt.le
      · exact le_refl _
    calc s.burstTotalPkts.toNat * s.numBursts.toNat
        ≤ s.burstTotalPkts.toNat * countdown s.numBursts := Nat.mul_le_mul_left _ hnum
      _ < burstSent s.burstTotalPkts n.toNat * countdown s.numBursts :=
        Nat.mul_lt_mul_of_pos_right hlt (countdown_pos _)

/-- A single burst of ten packets on three cores. -/
theorem burst_conserved_iff_tenPackets : ∃ objs nodes, compileAll (fun _ _ => 1) 0
      [plainStream 7 (-1) true true] 3 1 = .ok objs ∧ ActivatedOn objs 0 nodes ∧
          Conserves nodes 10 := by
  obtain ⟨objs, nodes, hobjs, hact⟩ : ∃ objs nodes, compileAll (fun _ _ => 1) 0
      [plainStream 7 (-1) true true] 3 1 = .ok objs ∧ ActivatedOn objs 0 nodes :=
    ⟨_, _, rfl, .cons ⟨_, rfl, .start 0 rfl⟩
      (.cons ⟨_, rfl, .start 0 rfl⟩ (.cons ⟨_, rfl, .start 0 rfl⟩ .nil))⟩
  have hadm : Admitted (plainStream 7 (-1) true true) :=
    ⟨.singleBurst 10 1, rfl, rfl, rfl, rfl, rfl⟩
  refine ⟨objs, nodes, hobjs, hact, ?_⟩
  exact (burst_conserved_iff _ 0 [plainStream 7 (-1) true true] 3 1 objs (by decide) hobjs 0 _ rfl
    (by decide) hadm nodes hact).mpr (by decide)

def onePacket : TrexStream := { plainStream 7 (-1) true true with burstTotalPkts := 1 }

/-- **A single burst of one packet on two cores is not conserved**: the share of the second core is
empty. -/
theorem onePacket_not_conserved : ∃ objs nodes, compileAll (fun _ _ => 1) 0 [onePacket] 2 1 =
    .ok objs
    ∧ Admitted onePacket ∧ ActivatedOn objs 0 nodes ∧
        ¬ Conserves nodes (askedPackets onePacket) := by
  refine ⟨_, _, rfl, ⟨.singleBurst 1 1, rfl, rfl, rfl, rfl, rfl⟩,
    .cons ⟨_, rfl, .start 0 rfl⟩ (.cons ⟨_, rfl, .start 0 rfl⟩ .nil), ?_⟩
  rw [conserves_iff]
  decide

end Trex.Dp
