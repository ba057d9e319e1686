/-
# Stamping the RX-check header

`CFlowPktInfo::do_generate_new_mbuf_rxcheck` (`bp_sim.cpp`) stamps every packet of a sampled flow
with the header that `RxCheckManager` reads.  The flow id of the header packs three numbers in 64
bits: the thread in bits 56 to 63, the sub-flow in bits 52 to 55, and the instance of the flow in
bits 0 to 51.

* `stampFlowId_eq_iff`: two packets get the same flow id exactly when the three numbers agree in the
  bits that are kept of them;
* `stamping_iff`: what the receiver needs (`StampingAgrees`) holds of a template if and only if its
  sub-flows fit in the four bits, and the instances in theirs.

The receiver ages a flow by the number that the header carries.  What is said of a delivery is said
of one in time (`InTime`): then no timer fires, whatever the wheel is called for in between.
-/
import Trex.Flow.Template
import Trex.Rx.InTime

namespace Trex.Flow

open Trex.Lib Trex.Rx Trex.Rx.RxCheckManager List

/-! ## 1. The header -/

/-- An instance of a flow: the thread that generates it (`GetThreadId`), and the number that the
thread gives it (`m_cur_flow_id`). -/
structure FlowInstance where
  threadId : UInt32
  flowId : UInt64
deriving DecidableEq, Repr

/-- `node->m_flow_id`, as `generate_flow` sets it. -/
def FlowInstance.nodeFlowId (i : FlowInstance) : UInt64 :=
  (i.flowId &&& (0x000fffffffffffff : UInt64)) |||
    ((i.threadId &&& (0xff : UInt32)).toUInt64 <<< (56 : UInt64))

/-- `rxhdr->m_flow_id`. -/
def stampFlowId (i : FlowInstance) (lp : CFlowPktInfo) : UInt64 :=
  i.nodeFlowId ||| ((UInt64.ofNat lp.desc.flowId &&& (0xf : UInt64)) <<< (52 : UInt64))

/-- The part of the header that depends on whether all packets of the flow leave from one port. -/
def stampNumbers (lp : CFlowPktInfo) (singlePort : Bool) (rxhdr : CRxCheckHeader) :
    CRxCheckHeader :=
  if singlePort then
    { rxhdr with
      pktId := .ofNat lp.desc.flowPktNum
      flowSize := .ofNat lp.desc.maxPktsPerFlow }
  else
    ({ rxhdr with
        pktId := .ofNat lp.desc.dirPktNum
        flowSize := .ofNat lp.desc.dirMaxPkts }.setDir lp.desc.isInitSide).setBothDir
      lp.desc.isBiDirectionalFlow

/-- The header of `do_generate_new_mbuf_rxcheck`.  `nextHdr` is what the IPv6 header named before
(IPv4: `none`). -/
def rxCheckHeader (i : FlowInstance) (singlePort : Bool) (nextHdr : Option UInt8)
    (timeStamp : UInt32) (lp : CFlowPktInfo) : CRxCheckHeader :=
  stampNumbers lp singlePort
    { optionType := match nextHdr with | some saved => saved | none => 0x57
      optionLen := match nextHdr with | some _ => 2 | none => 24
      magic := rxCheckMagic
      timeStamp
      flowId := stampFlowId i lp
      pktId := 0
      flowSize := 0
      flags := 0
      templateId := lp.desc.id.toUInt8
      agingSec := lp.desc.maxFlowTimeout }

/-! ## 2. The flow id -/

/-- The three numbers, each in its own bits. -/
theorem stampFlowId_toNat (i : FlowInstance) (lp : CFlowPktInfo) :
    (stampFlowId i lp).toNat = 2 ^ 56 * (i.threadId.toNat % 256) +
      (2 ^ 52 * (lp.desc.flowId % 16) + i.flowId.toNat % 2 ^ 52) := by
  have hflow : (i.flowId &&& (0x000fffffffffffff : UInt64)).toNat = i.flowId.toNat % 2 ^ 52 := by
    rw [UInt64.toNat_and]
    exact Nat.and_two_pow_sub_one_eq_mod _ 52
  have hthread : ((i.threadId &&& (0xff : UInt32)).toUInt64 <<< (56 : UInt64)).toNat = 2 ^ 56 *
      (i.threadId.toNat % 256) := by
    have hand : (i.threadId &&& (0xff : UInt32)).toNat = i.threadId.toNat % 256 := by
      rw [UInt32.toNat_and]
      exact Nat.and_two_pow_sub_one_eq_mod _ 8
    rw [UInt64.toNat_shiftLeft, UInt32.toNat_toUInt64, hand, Nat.shiftLeft_eq]
    simp only [UInt64.reduceToNat, Nat.reduceMod]
    omega
  have hsub : ((UInt64.ofNat lp.desc.flowId &&& (0xf : UInt64)) <<< (52 : UInt64)).toNat = 2 ^ 52 *
      (lp.desc.flowId % 16) := by
    have hand : (UInt64.ofNat lp.desc.flowId &&& (0xf : UInt64)).toNat = lp.desc.flowId % 16 := by
      rw [UInt64.toNat_and, UInt64.toNat_ofNat']
      refine (Nat.and_two_pow_sub_one_eq_mod _ 4).trans ?_
      omega
    rw [UInt64.toNat_shiftLeft, hand, Nat.shiftLeft_eq]
    simp only [UInt64.reduceToNat, Nat.reduceMod]
    omega
  have hlow : 2 ^ 52 * (lp.desc.flowId % 16) + i.flowId.toNat % 2 ^ 52 < 2 ^ 56 := by omega
  rw [stampFlowId, FlowInstance.nodeFlowId, UInt64.toNat_or, UInt64.toNat_or, hflow, hthread, hsub,
    Nat.or_comm (i.flowId.toNat % 2 ^ 52), Nat.or_assoc, Nat.or_comm (i.flowId.toNat % 2 ^ 52),
    ← Nat.two_pow_add_eq_or_of_lt (Nat.mod_lt _ (by decide)), ← Nat.two_pow_add_eq_or_of_lt hlow]

/-- **When two packets get the same flow id.** -/
theorem stampFlowId_eq_iff (i j : FlowInstance) (p q : CFlowPktInfo) :
    stampFlowId i p = stampFlowId j q ↔ i.threadId.toNat % 256 = j.threadId.toNat % 256 ∧
      i.flowId.toNat % 2 ^ 52 = j.flowId.toNat % 2 ^ 52 ∧
          p.desc.flowId % 16 = q.desc.flowId % 16 := by
  rw [← UInt64.toNat_inj, stampFlowId_toNat, stampFlowId_toNat]
  omega

/-! ## 3. What is on the wire -/

/-- The direction that the header carries: one when all packets leave from one port. -/
def wireDir (singlePort : Bool) (lp : CFlowPktInfo) :
    Bool := if singlePort then false else lp.desc.isInitSide

/-- The number that the header carries. -/
def wireNum (singlePort : Bool) (lp : CFlowPktInfo) : Nat :=
  if singlePort then lp.desc.flowPktNum else lp.desc.dirPktNum

/-- The size that the header carries. -/
def wireMax (singlePort : Bool) (lp : CFlowPktInfo) : Nat :=
  if singlePort then lp.desc.maxPktsPerFlow else lp.desc.dirMaxPkts

/-- A direction of a sub-flow. -/
def wireSide (singlePort : Bool) (lp : CFlowPktInfo) :
    Nat × Bool := (lp.subFlow, wireDir singlePort lp)

/-- What the receiver reads from a stamped header. -/
theorem rxCheckHeader_spec (i : FlowInstance) (singlePort : Bool) (nextHdr : Option UInt8)
    (timeStamp : UInt32) (lp : CFlowPktInfo) :
    (rxCheckHeader i singlePort nextHdr timeStamp lp).magic = rxCheckMagic ∧
      (rxCheckHeader i singlePort nextHdr timeStamp lp).flowId = stampFlowId i lp ∧
      (rxCheckHeader i singlePort nextHdr timeStamp lp).pktId = .ofNat (wireNum singlePort lp) ∧
      (rxCheckHeader i singlePort nextHdr timeStamp lp).flowSize = .ofNat (wireMax singlePort lp) ∧
      (rxCheckHeader i singlePort nextHdr timeStamp lp).getDir = wireDir singlePort lp ∧
      (rxCheckHeader i singlePort nextHdr timeStamp lp).getBothDir =
        (!singlePort && lp.desc.isBiDirectionalFlow) := by
  cases singlePort with
  | true =>
    refine ⟨rfl, rfl, rfl, rfl, ?_, ?_⟩
    all_goals
      simp [rxCheckHeader, stampNumbers, CRxCheckHeader.getDir, CRxCheckHeader.getBothDir, wireDir]
  | false =>
    refine ⟨rfl, rfl, rfl, rfl, ?_, ?_⟩
    all_goals
      simp only [rxCheckHeader, stampNumbers, CRxCheckHeader.getDir, CRxCheckHeader.getBothDir,
        CRxCheckHeader.setDir, CRxCheckHeader.setBothDir, wireDir, Bool.false_eq_true, ↓reduceIte]
      cases lp.desc.isInitSide <;> cases lp.desc.isBiDirectionalFlow <;> rfl

/-- **Delivery of one instance of a flow**: the headers are those of its packets, none is lost, and
they are in order within each direction of each sub-flow. -/
def Delivered (info : CCapFileFlowInfo) (i : FlowInstance) (singlePort : Bool)
    (hs : List CRxCheckHeader) : Prop :=
  ∃ ds : List (CFlowPktInfo × Option UInt8 × UInt32),
    hs = ds.map (fun x => rxCheckHeader i singlePort x.2.1 x.2.2 x.1) ∧
      ∀ c, ofClass (wireSide singlePort) c (ds.map Prod.fst) =
        ofClass (wireSide singlePort) c info.pkts

/-- **What the RX check needs of the stamping**, for a set of instances of a template: different
instances and sub-flows have different flow ids, and the packets of an instance, delivered in time,
are no error and leave no flow. -/
def StampingAgrees (info : CCapFileFlowInfo) (I : Set FlowInstance) : Prop :=
  (∀ i ∈ I, ∀ j ∈ I, ∀ p ∈ info.pkts, ∀ q ∈ info.pkts, stampFlowId i p = stampFlowId j q →
    i = j ∧ p.subFlow = q.subFlow) ∧
  ∀ i ∈ I, ∀ (singlePort : Bool) (ties : Nat → Nat) (events : List RxEvent),
    Delivered info i singlePort (headers events) → InTime events →
    ∃ m, create.run ties events = .ok m ∧
      m.stats.getTotalErr = 0 ∧ m.NoTemplateErr ∧ m.count = 0

section Fits

variable {info : CCapFileFlowInfo} (hw : WellNumbered info) (hfit : info.totalFlows ≤ 16)

include hw hfit

/-- The descriptor has the number of the sub-flow, when there are few. -/
theorem WellNumbered.flowId_eq {p : CFlowPktInfo} (hp : p ∈ info.pkts) :
    p.desc.flowId = p.subFlow ∧ p.subFlow < 16 := by
  have hlt := hw.lt p hp
  refine ⟨?_, by omega⟩
  rw [hw.flowId p hp]
  exact Nat.mod_eq_of_lt (by omega)

/-- A flow id stands for a sub-flow. -/
theorem WellNumbered.stampFlowId_inj (i : FlowInstance) {p q : CFlowPktInfo} (hp : p ∈ info.pkts)
    (hq : q ∈ info.pkts) : stampFlowId i q = stampFlowId i p ↔ q.subFlow = p.subFlow := by
  obtain ⟨hp1, hp2⟩ := hw.flowId_eq hfit hp
  obtain ⟨hq1, hq2⟩ := hw.flowId_eq hfit hq
  rw [stampFlowId_eq_iff, hp1, hq1]
  omega

/-- The receiver's flows and directions are the sub-flows and directions of the template. -/
theorem WellNumbered.sameClasses (i : FlowInstance) (singlePort : Bool) :
    SameClasses (wireSide singlePort) (fun p => (stampFlowId i p, wireDir singlePort p))
        info.pkts := by
  intro p hp q hq
  simp [wireSide, hw.stampFlowId_inj hfit i hp hq]

/-- The headers are numbered in each direction of each sub-flow, and carry the size of it. -/
theorem WellNumbered.wire (singlePort : Bool) :
    Numbered (wireSide singlePort) (wireNum singlePort) info.pkts ∧
      ∀ p ∈ info.pkts, wireMax singlePort p < 65000 ∧
        wireMax singlePort p = (ofClass (wireSide singlePort) (wireSide singlePort p)
            info.pkts).length := by
  have hsub : SameClasses CFlowPktInfo.subFlow (wireSide true) info.pkts := by
    intro p _ q _
    simp [wireSide, wireDir]
  have hflow : SameClasses (fun p => p.desc.flowId) (wireSide true) info.pkts := by
    intro p hp q hq
    simp [wireSide, wireDir, (hw.flowId_eq hfit hp).1, (hw.flowId_eq hfit hq).1]
  have hside : SameClasses CFlowPktInfo.side (wireSide false) info.pkts := by
    intro p hp q hq
    simp [wireSide, wireDir, CFlowPktInfo.side, (hw.flowId_eq hfit hp).1, (hw.flowId_eq hfit hq).1]
  cases singlePort with
  | true =>
    refine ⟨hw.num.reclass hsub, fun p hp => ?_⟩
    obtain ⟨hmax, hlt⟩ := hw.max p hp
    exact ⟨hlt, by rw [hflow.ofClass_eq hp]; exact hmax⟩
  | false =>
    refine ⟨hw.dirNum.reclass hside, fun p hp => ?_⟩
    obtain ⟨hmax, hlt⟩ := hw.dirMax p hp
    exact ⟨hlt, by rw [hside.ofClass_eq hp]; exact hmax⟩

/-- A packet knows whether its sub-flow has both directions on the wire. -/
theorem WellNumbered.wireBoth (singlePort : Bool) {p : CFlowPktInfo} (hp : p ∈ info.pkts) :
    (!singlePort && p.desc.isBiDirectionalFlow) =
      (decide (0 < (ofClass (wireSide singlePort) (p.subFlow, false) info.pkts).length) &&
        decide (0 < (ofClass (wireSide singlePort) (p.subFlow, true) info.pkts).length)) := by
  cases singlePort with
  | true =>
    have hnil : ofClass (wireSide true) (p.subFlow, true) info.pkts = [] := by
      refine eq_nil_iff_forall_not_mem.mpr fun q hq => ?_
      have := (mem_ofClass.mp hq).2
      simp [wireSide, wireDir] at this
    simp [hnil]
  | false =>
    have hclass : ∀ d, ofClass (wireSide false) (p.subFlow, d) info.pkts =
        ofClass CFlowPktInfo.side (p.desc.flowId, d) info.pkts := by
      intro d
      refine filter_congr fun q hq => ?_
      simp [wireSide, wireDir, CFlowPktInfo.side, (hw.flowId_eq hfit hp).1,
        (hw.flowId_eq hfit hq).1]
    rw [hclass, hclass, ← hw.biDir p hp]
    rfl

end Fits

/-- The sizes that the receiver sees. -/
def wireSizes (info : CCapFileFlowInfo) (i : FlowInstance) (singlePort : Bool) : Sizes := fun k d =>
  .ofNat (ofClass (fun p => (stampFlowId i p, wireDir singlePort p)) (k, d) info.pkts).length

/-- **Stamped headers that are delivered** are in order, as the receiver counts them. -/
theorem Delivered.in_order {info : CCapFileFlowInfo} (hw : WellNumbered info)
    (hfit : info.totalFlows ≤ 16) {i : FlowInstance} {singlePort : Bool} {hs : List CRxCheckHeader}
    (h : Delivered info i singlePort hs) :
    (∀ rxh ∈ hs, Stamped rxh.flowId (wireSizes info i singlePort rxh.flowId) rxh) ∧
      ∀ k d, ids d (hs.filter (·.flowId == k)) =
          List.range (wireSizes info i singlePort k d).toNat := by
  obtain ⟨ds, rfl, hds⟩ := h
  obtain ⟨hnum, hmax⟩ := hw.wire hfit singlePort
  have hsame := hw.sameClasses hfit i singlePort
  have hds' := ofClass_eq_reclass hds hsame
  have hnum' := hnum.reclass hsame
  have hmem : ∀ x ∈ ds, x.1 ∈ info.pkts := by
    intro x hx
    have hx' : x.1 ∈ ofClass (wireSide singlePort) (wireSide singlePort x.1) (ds.map Prod.fst) :=
      mem_ofClass.mpr ⟨mem_map_of_mem hx, rfl⟩
    rw [hds] at hx'
    exact (mem_ofClass.mp hx').1
  -- the size of a direction of a sub-flow
  have hsize : ∀ p ∈ info.pkts, ∀ d,
      (ofClass (fun p => (stampFlowId i p, wireDir singlePort p)) (stampFlowId i p,
        d) info.pkts).length = (ofClass (wireSide singlePort) (p.subFlow, d) info.pkts).length := by
    intro p hp d
    refine congrArg List.length (filter_congr fun q hq => ?_)
    simp [wireSide, hw.stampFlowId_inj hfit i hp hq]
  have hlt : ∀ k d, (ofClass (fun p => (stampFlowId i p, wireDir singlePort p)) (k,
      d) info.pkts).length < 65000 := by
    intro k d
    rcases hsame.ofClass_cases (k, d) with ⟨p, hp, -, hcp⟩ | hnil
    · rw [hcp, ← (hmax p hp).2]
      exact (hmax p hp).1
    · rw [hnil]
      decide
  have hsizes : ∀ k d, (wireSizes info i singlePort k d).toNat =
      (ofClass (fun p => (stampFlowId i p, wireDir singlePort p)) (k, d) info.pkts).length := by
    intro k d
    exact UInt16.toNat_ofNat_of_lt' (lt_trans (hlt k d) (by decide))
  have h16 : UInt16.size = 65536 := rfl
  have hwnum : ∀ p ∈ info.pkts, wireNum singlePort p < wireMax singlePort p := by
    intro p hp
    rw [(hmax p hp).2]
    exact hnum.lt hp
  constructor
  · intro rxh hr
    obtain ⟨⟨p, nextHdr, ts⟩, hx, rfl⟩ := mem_map.mp hr
    have hp : p ∈ info.pkts := hmem _ hx
    obtain ⟨hmagic, hid, hpkt, hfs, hdir, hboth⟩ := rxCheckHeader_spec i singlePort nextHdr ts p
    have hmaxlt := (hmax p hp).1
    have hnumlt := hwnum p hp
    refine ⟨hmagic, rfl, ?_, ?_, ?_⟩
    · dsimp only
      rw [hfs, hid, hdir, wireSizes, (hmax p hp).2, wireSide, hsize p hp]
    · dsimp only
      rw [hpkt, hfs, UInt16.lt_iff_toNat_lt, UInt16.toNat_ofNat_of_lt' (by omega),
        UInt16.toNat_ofNat_of_lt' (by omega)]
      exact hnumlt
    · dsimp only
      rw [hboth, hid, hw.wireBoth hfit singlePort hp, bothUsed]
      simp [UInt16.lt_iff_toNat_lt, hsizes, hsize p hp]
  · intro k d
    have hids : ids d ((ds.map fun x => rxCheckHeader i singlePort x.2.1 x.2.2 x.1).filter
        (·.flowId == k)) = (ofClass (fun p => (stampFlowId i p, wireDir singlePort p)) (k, d)
          (ds.map Prod.fst)).map (wireNum singlePort) := by
      simp only [ids, ofClass, filter_map, filter_filter, map_map]
      have hfilter : ∀ x ∈ ds, (((fun r : CRxCheckHeader => r.getDir == d) ∘
            fun x : CFlowPktInfo × Option UInt8 × UInt32 =>
              rxCheckHeader i singlePort x.2.1 x.2.2 x.1) x &&
          ((fun r : CRxCheckHeader => r.flowId == k) ∘
            fun x : CFlowPktInfo × Option UInt8 × UInt32 =>
              rxCheckHeader i singlePort x.2.1 x.2.2 x.1) x) =
          ((fun p => decide ((stampFlowId i p, wireDir singlePort p) = (k, d))) ∘ Prod.fst) x := by
        intro x _
        obtain ⟨-, hid, -, -, hdir, -⟩ := rxCheckHeader_spec i singlePort x.2.1 x.2.2 x.1
        simp only [Function.comp_apply, hid, hdir, Prod.mk.injEq]
        rw [Bool.and_comm]
        by_cases h1 : stampFlowId i x.1 = k <;> by_cases h2 : wireDir singlePort x.1 = d <;>
          simp [h1, h2]
      rw [filter_congr hfilter]
      refine map_congr_left fun x hx => ?_
      have hp : x.1 ∈ info.pkts := hmem x (mem_filter.mp hx).1
      obtain ⟨-, -, hpkt, -, -, -⟩ := rxCheckHeader_spec i singlePort x.2.1 x.2.2 x.1
      have hmaxlt := (hmax x.1 hp).1
      have hnumlt := hwnum x.1 hp
      simp only [Function.comp_apply]
      rw [hpkt, UInt16.toNat_ofNat_of_lt' (by omega)]
    rw [hids, hds', hnum', hsizes]

/-- **Stamping agrees with the RX check** for a set of instances of a loaded template if and only if
the template has at most 16 sub-flows, and different instances differ in the low 8 bits of the
thread or in the low 52 bits of the number.

The numbers that `update_info` gives the packets (`WellNumbered`) are what the receiver counts
(`Delivered.in_order`); each flow of the table has a packet to come, so that a delivery in time
restarts every timer before it is due (`sound_inTime`). -/
theorem stamping_iff {κ : Type} [DecidableEq κ] {multiFlow learnMode : Bool}
    {ipg : Option (Rat × Rat)} {id : UInt16} {raws : List (RawPacket κ)} {info : CCapFileFlowInfo}
    (h : loadTemplate multiFlow learnMode ipg id raws = .ok info) (I : Set FlowInstance)
    (hI : I.Nonempty) :
    StampingAgrees info I ↔ info.totalFlows ≤ 16 ∧
      Set.InjOn (fun i : FlowInstance => (i.threadId.toNat % 256, i.flowId.toNat % 2 ^ 52)) I := by
  have hw := loadTemplate_wellNumbered h
  constructor
  · rintro ⟨hinj, -⟩
    obtain ⟨i0, hi0⟩ := hI
    have hfit : info.totalFlows ≤ 16 := by
      -- sub-flows 0 and 16 have the same id
      by_contra hlt
      obtain ⟨p, hp, hp0⟩ := hw.all 0 (by omega)
      obtain ⟨q, hq, hq16⟩ := hw.all 16 (by omega)
      have heq : stampFlowId i0 p = stampFlowId i0 q := by
        rw [stampFlowId_eq_iff, hw.flowId p hp, hw.flowId q hq, hp0, hq16]
        exact ⟨rfl, rfl, rfl⟩
      have := (hinj i0 hi0 i0 hi0 p hp q hq heq).2
      omega
    refine ⟨hfit, fun i hi j hj heq => ?_⟩
    obtain ⟨p, hp⟩ := exists_mem_of_ne_nil _ hw.nonempty
    simp only [Prod.mk.injEq] at heq
    exact (hinj i hi j hj p hp p hp ((stampFlowId_eq_iff i j p p).mpr ⟨heq.1, heq.2, rfl⟩)).1
  · rintro ⟨hfit, hinj⟩
    constructor
    · intro i hi j hj p hp q hq heq
      obtain ⟨hp1, hp2⟩ := hw.flowId_eq hfit hp
      obtain ⟨hq1, hq2⟩ := hw.flowId_eq hfit hq
      obtain ⟨ht, hf, hs⟩ := (stampFlowId_eq_iff i j p q).mp heq
      rw [hp1, hq1] at hs
      exact ⟨hinj hi hj (Prod.ext ht hf), by omega⟩
    · intro i _ singlePort ties events hdel hin
      obtain ⟨hst, hids⟩ := hdel.in_order hw hfit
      exact sound_inTime ties _ events hst hids hin

/-- A file with a control flow in both directions, and two data flows from the other side. -/
def threeFlows : List (RawPacket Nat) :=
  [⟨0, false, 0⟩, ⟨0, true, 1⟩, ⟨1, true, 2⟩, ⟨2, true, 3⟩, ⟨1, true, 4⟩, ⟨0, false, 5⟩]

theorem stamping_threeFlows : ∃ info, loadTemplate true false none 1 threeFlows = .ok info ∧
    info.totalFlows = 3 ∧ StampingAgrees info {⟨0, 1⟩, ⟨0, 2⟩, ⟨1, 1⟩} := by
  have heval : (loadTemplate true false none 1 threeFlows).map CCapFileFlowInfo.totalFlows =
      .ok 3 := by
    decide +kernel
  cases hload : loadTemplate true false none 1 threeFlows with
  | error e =>
    rw [hload] at heval
    cases heval
  | ok info =>
    rw [hload] at heval
    have htotal : info.totalFlows = 3 := Except.ok.inj heval
    refine ⟨info, rfl, htotal, (stamping_iff hload _ ⟨⟨0, 1⟩, by simp⟩).mpr ⟨by omega, ?_⟩⟩
    rintro i (rfl | rfl | rfl) j (rfl | rfl | rfl) heq <;>
      first | rfl | exact absurd heq (by decide)

/-- A file with 17 flows of one packet. -/
def seventeenFlows : List (RawPacket Nat) := (List.range 17).map fun key => ⟨key, false, 0⟩

/-- **Two sub-flows with one id**: the file is loaded, and the stamping of a single instance of it
does not agree with the RX check, as the sub-flows 0 and 16 have the same flow id. -/
theorem stamping_seventeenFlows : ∃ info, loadTemplate true false none 1 seventeenFlows = .ok info ∧
    info.totalFlows = 17 ∧ ¬ StampingAgrees info {⟨0, 1⟩} := by
  have heval : (loadTemplate true false none 1 seventeenFlows).map CCapFileFlowInfo.totalFlows =
      .ok 17 := by
    decide +kernel
  cases hload : loadTemplate true false none 1 seventeenFlows with
  | error e =>
    rw [hload] at heval
    cases heval
  | ok info =>
    rw [hload] at heval
    have htotal : info.totalFlows = 17 := Except.ok.inj heval
    refine ⟨info, rfl, htotal, fun hagree => ?_⟩
    have hw := loadTemplate_wellNumbered hload
    obtain ⟨p, hp, hp0⟩ := hw.all 0 (by omega)
    obtain ⟨q, hq, hq16⟩ := hw.all 16 (by omega)
    have heq : stampFlowId ⟨0, 1⟩ p = stampFlowId ⟨0, 1⟩ q := by
      rw [stampFlowId_eq_iff, hw.flowId p hp, hw.flowId q hq, hp0, hq16]
      exact ⟨rfl, rfl, rfl⟩
    have := (hagree.1 ⟨0, 1⟩ rfl ⟨0, 1⟩ rfl p hp q hq heq).2
    omega

end Trex.Flow
