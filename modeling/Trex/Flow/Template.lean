/-
# Loading a template

`CCapFileFlowInfo::load_cap_file` and `update_info` (`bp_sim.cpp`): the packets of a capture file
become the template of a flow.  A file may hold several flows when the template has a plugin
(`multiFlow`); they are the sub-flows of the template, numbered in the order of their first packets.

* what the parser gives for a packet is the key of its flow, whether it swapped the tuple to get the
  key, and its time;
* `flowId` of a descriptor is a field of 5 bits of `m_flags`, so it holds the number of the sub-flow
  modulo 32; `subFlow` is the number itself (`m_flow->flow_id`).
-/
import Mathlib.Data.Rat.Floor
import Trex.Lib.Number
import Trex.Lib.Refine

namespace Trex.Flow

open Trex.Lib List
open Function (comp_def update update_of_ne update_self)

/-! ## 1. Packets -/

/-- `CPacketDescriptor`.  `dirPktNum` and `dirMaxPkts` are the `CPacketDescriptorPerDir` of the
packet's own direction. -/
structure CPacketDescriptor where
  flowId : Nat
  flowPktNum : Nat
  id : UInt16
  isInitSide : Bool
  isLastPkt : Bool := false
  isBiDirectionalFlow : Bool := false
  isLearn : Bool := false
  dirPktNum : Nat := 0
  dirMaxPkts : Nat := 0
  maxPktsPerFlow : Nat := 0
  maxFlowTimeout : UInt16 := 0
deriving DecidableEq, Repr

/-- `CFlowPktInfo`. -/
structure CFlowPktInfo where
  desc : CPacketDescriptor
  capIpg : Rat
  subFlow : Nat
deriving DecidableEq, Repr

/-- `SetFlowId` and `getFlowId`: bits 8 to 12 of `m_flags`. -/
def flowIdField (flowId : Nat) : Nat := flowId % 32

/-- What the reader and the parser give for a packet. -/
structure RawPacket (κ : Type) where
  flowKey : κ
  isSwapTuple : Bool
  time : Rat

/-- `CFlow`. -/
structure CFlow where
  isFifSwap : Bool := false
  pktId : Nat := 0
  flowId : Nat := 0
deriving DecidableEq, Repr

/-- Why a file is refused, and the assertions of `update_info`. -/
inductive LoadFault
  /-- The time of a packet is before the one of the packet before it. -/
  | timestamp
  /-- More than one flow, and no plugin. -/
  | totalErrors
  /-- No packet: the last packet is read from an empty vector. -/
  | empty
  /-- `plugins are not supported with --learn mode`. -/
  | learnPlugin
  /-- The assertions of `SetPktNum`, `SetMaxPkts` and `SetMaxPktsPerFlow`. -/
  | tooManyPkts
deriving DecidableEq, Repr

/-! ## 2. `load_cap_file` -/

section Load

variable {κ : Type} [DecidableEq κ]

/-- The variables of `load_cap_file`.  `flow` is the flow table, and `firstFlow` the key of its
first flow. -/
structure Loading (κ : Type) where
  flow : κ → Option CFlow := fun _ => none
  firstFlow : Option κ := none
  firstFlowFifIsSwap : Bool := false
  totalFlows : Nat := 0
  totalErrors : Nat := 0
  pkts : List CFlowPktInfo := []

/-- `Append`, with the descriptor of a packet of a flow. -/
def Loading.append (st : Loading κ) (id : UInt16) (raw : RawPacket κ) (lpflow : CFlow)
    (initSide : Bool) :
    Loading κ :=
  { st with
    pkts := st.pkts ++
      [{ desc := { flowId := flowIdField lpflow.flowId, flowPktNum := lpflow.pktId, id,
                   isInitSide := initSide }
         capIpg := raw.time
         subFlow := lpflow.flowId }] }

/-- Write the flow of a key, with the packet counted. -/
def Loading.setFlow (st : Loading κ) (key : κ) (lpflow : CFlow) : Loading κ :=
  { st with flow := update st.flow key (some { lpflow with pktId := lpflow.pktId + 1 }) }

/-- The body of the loop of `load_cap_file`. -/
def loadStep (multiFlow : Bool) (id : UInt16) (st : Loading κ) (raw : RawPacket κ) : Loading κ :=
  match st.flow raw.flowKey with
  | none =>
    -- the first packet of a flow
    let lpflow : CFlow := { flowId := st.totalFlows, isFifSwap := raw.isSwapTuple }
    if st.totalFlows = 0 then
      { (st.setFlow raw.flowKey lpflow).append id raw lpflow true with
        firstFlow := some raw.flowKey, firstFlowFifIsSwap := raw.isSwapTuple, totalFlows := 1 }
    else if multiFlow then
      { (st.setFlow raw.flowKey lpflow).append id raw lpflow
          (st.firstFlowFifIsSwap == raw.isSwapTuple) with
        totalFlows := st.totalFlows + 1 }
    else
      { st.setFlow raw.flowKey { lpflow with isFifSwap := false } with totalErrors :=
        st.totalErrors + 1 }
  | some lpflow =>
    let st := st.setFlow raw.flowKey lpflow
    if multiFlow then
      st.append id raw lpflow (st.firstFlowFifIsSwap == raw.isSwapTuple)
    else if st.firstFlow = some raw.flowKey then
      st.append id raw lpflow (lpflow.isFifSwap == raw.isSwapTuple)
    else
      { st with totalErrors := st.totalErrors + 1 }

/-- The times of the packets do not go back. -/
def timesInOrder : List (RawPacket κ) → Bool
  | [] => true
  | [_] => true
  | a :: b :: rest => a.time ≤ b.time && timesInOrder (b :: rest)

end Load

/-- The gaps between the packets; the last packet has none, and is marked. -/
def setGaps : List CFlowPktInfo → List CFlowPktInfo
  | [] => []
  | [last] => [{ last with capIpg := 0, desc := { last.desc with isLastPkt := true } }]
  | a :: b :: rest => { a with capIpg := b.capIpg - a.capIpg } :: setGaps (b :: rest)

/-- `CCapFileFlowInfo`. -/
structure CCapFileFlowInfo where
  pkts : List CFlowPktInfo
  totalFlows : Nat
deriving DecidableEq, Repr

/-- `CCapFileFlowInfo::load_cap_file`, for packets that the parser accepts. -/
def loadCapFile {κ : Type} [DecidableEq κ] (multiFlow : Bool) (id : UInt16)
    (raws : List (RawPacket κ)) :
    Except LoadFault CCapFileFlowInfo :=
  let st := raws.foldl (loadStep multiFlow id) {}
  if ¬ timesInOrder raws then .error .timestamp
  else if st.pkts = [] then .error .empty
  else if st.totalErrors > 0 then .error .totalErrors
  else .ok { pkts := setGaps st.pkts, totalFlows := st.totalFlows }

/-! ## 3. `update_info` -/

/-- `CTmpFlowInfo`. -/
structure CTmpFlowInfo where
  maxPkts : Nat := 0
  maxAgingSec : Rat := 0
  lastPkt : Rat := 0
  perDir : Bool → Nat := fun _ => 0

/-- `SetMaxFlowTimeout`. -/
def maxFlowTimeoutOf (sec : Rat) : UInt16 :=
  let sec := sec * 2 + 5
  if sec > 65000 then 65000 else UInt16.ofNat ⌊sec⌋₊

/-- One packet of the first loop of `update_info`. -/
def learnFlow (ft : Nat → CTmpFlowInfo) (ctime : Rat) (lp : CFlowPktInfo) : Nat → CTmpFlowInfo :=
  let lpFlow := ft lp.desc.flowId
  let dir := lp.desc.isInitSide
  let delta := ctime - lpFlow.lastPkt
  update ft lp.desc.flowId
    { maxPkts := lpFlow.maxPkts + 1
      perDir := update lpFlow.perDir dir (lpFlow.perDir dir + 1)
      lastPkt := ctime
      maxAgingSec := if delta > lpFlow.maxAgingSec then delta else lpFlow.maxAgingSec }

/-- The first loop of `update_info`: the packets with their numbers, and the table of the
sub-flows. -/
def learnInfo : (Nat → CTmpFlowInfo) → Rat → List CFlowPktInfo →
    Except LoadFault (List CFlowPktInfo × (Nat → CTmpFlowInfo))
  | ft, _, [] => .ok ([], ft)
  | ft, ctime, lp :: rest => do
    let num := (ft lp.desc.flowId).perDir lp.desc.isInitSide
    if ¬ num < 65000 then .error .tooManyPkts
    else do
      let (rest, ft) ← learnInfo (learnFlow ft ctime lp) (ctime + lp.capIpg) rest
      .ok ({ lp with desc := { lp.desc with dirPktNum := num } } :: rest, ft)

/-- One packet of the second loop of `update_info`. -/
def fillInfo (ft : Nat → CTmpFlowInfo) (lp : CFlowPktInfo) : Except LoadFault CFlowPktInfo :=
  let lpFlow := ft lp.desc.flowId
  let dirMax := lpFlow.perDir lp.desc.isInitSide
  if dirMax < 65000 ∧ lpFlow.maxPkts < 65000 then
    .ok { lp with desc :=
      { lp.desc with
        isBiDirectionalFlow := decide (0 < lpFlow.perDir false) && decide (0 < lpFlow.perDir true)
        dirMaxPkts := dirMax
        maxPktsPerFlow := lpFlow.maxPkts
        maxFlowTimeout := maxFlowTimeoutOf lpFlow.maxAgingSec } }
  else .error .tooManyPkts

/-- In learn mode the first packet is marked when its sub-flow has both directions. -/
def markLearn (learnMode : Bool) : List CFlowPktInfo → List CFlowPktInfo
  | [] => []
  | lp :: rest =>
    { lp with desc := { lp.desc with isLearn := learnMode && lp.desc.isBiDirectionalFlow } } :: rest

/-- `CCapFileFlowInfo::update_info`. -/
def updateInfo (learnMode : Bool) (info : CCapFileFlowInfo) :
    Except LoadFault CCapFileFlowInfo := do
  let (pkts, ft) ← learnInfo (fun _ => {}) 0 info.pkts
  let pkts ← pkts.mapM (fillInfo ft)
  .ok { info with pkts := markLearn learnMode pkts }

/-- `update_min_ipg`, which `fixup_ipg_if_needed` calls when the file asks for it. -/
def updateMinIpg (ipg : Option (Rat × Rat)) (info : CCapFileFlowInfo) : CCapFileFlowInfo :=
  match ipg with
  | none => info
  | some (minIpg, overrideIpg) =>
    { info with pkts := info.pkts.map fun lp =>
        let cap := if lp.capIpg < minIpg then overrideIpg else lp.capIpg
        { lp with capIpg := if cap < overrideIpg then overrideIpg else cap } }

/-- `CFlowGeneratorRec::Create`: a template is loaded, checked and numbered. -/
def loadTemplate {κ : Type} [DecidableEq κ] (multiFlow learnMode : Bool) (ipg : Option (Rat × Rat))
    (id : UInt16) (raws : List (RawPacket κ)) : Except LoadFault CCapFileFlowInfo := do
  let info ← loadCapFile multiFlow id raws
  if learnMode && multiFlow then .error .learnPlugin
  else updateInfo learnMode (updateMinIpg ipg info)

/-! ## 4. What a template looks like -/

/-- The sub-flow as the descriptor knows it, and the side: `update_info` counts packets by these. -/
def CFlowPktInfo.side (lp : CFlowPktInfo) : Nat × Bool := (lp.desc.flowId, lp.desc.isInitSide)

/-- What `update_info` does not change. -/
def CFlowPktInfo.core (lp : CFlowPktInfo) : Nat × Nat × Nat × Bool × Bool :=
  (lp.subFlow, lp.desc.flowId, lp.desc.flowPktNum, lp.desc.isInitSide, lp.desc.isLastPkt)

section LoadInv

variable {κ : Type}

/-- **The flow table and the packets agree**, while no packet was refused. -/
structure LoadInv (st : Loading κ) : Prop where
  flow : ∀ {k f}, st.flow k = some f → f.flowId < st.totalFlows ∧
    f.pktId = (ofClass CFlowPktInfo.subFlow f.flowId st.pkts).length
  inj : ∀ {k k' f f'}, st.flow k = some f → st.flow k' = some f' → f.flowId = f'.flowId → k = k'
  flowId : ∀ p ∈ st.pkts, p.desc.flowId = flowIdField p.subFlow
  lt : ∀ p ∈ st.pkts, p.subFlow < st.totalFlows
  all : ∀ s < st.totalFlows, ∃ p ∈ st.pkts, p.subFlow = s
  num : Numbered CFlowPktInfo.subFlow (fun p => p.desc.flowPktNum) st.pkts

theorem LoadInv.init : LoadInv ({} : Loading κ) where
  flow h := by cases h
  inj h := by cases h
  flowId p hp := by cases hp
  lt p hp := by cases hp
  all s hs := by cases hs
  num := Numbered.nil

variable [DecidableEq κ] {st : Loading κ} {raw : RawPacket κ} {id : UInt16} {multiFlow : Bool}

/-- A packet of a flow is appended: `lpflow` is the flow before it. -/
theorem LoadInv.append (h : LoadInv st) (id : UInt16) (initSide : Bool) (total : Nat)
    {lpflow : CFlow}
    (hpkt : lpflow.pktId = (ofClass CFlowPktInfo.subFlow lpflow.flowId st.pkts).length)
    (hlt : lpflow.flowId < total) (hle : st.totalFlows ≤ total)
    (hnew : ∀ s < total, s < st.totalFlows ∨ s = lpflow.flowId)
    (hkey : ∀ {k f}, st.flow k = some f → (f.flowId = lpflow.flowId ↔ k = raw.flowKey))
    {st' : Loading κ} (hflow : st'.flow = (st.setFlow raw.flowKey lpflow).flow)
    (hpkts : st'.pkts = (st.append id raw lpflow initSide).pkts) (htotal : st'.totalFlows = total) :
    LoadInv st' := by
  have hclass : ∀ s, (ofClass CFlowPktInfo.subFlow s st'.pkts).length =
      (ofClass CFlowPktInfo.subFlow s st.pkts).length + if lpflow.flowId = s then 1 else 0 := by
    intro s
    rw [hpkts, Loading.append, ofClass_concat, length_append]
    congr 1
    by_cases hs : lpflow.flowId = s <;> simp [hs]
  have hcases : ∀ {k f}, st'.flow k = some f →
      (k = raw.flowKey ∧ f = { lpflow with pktId := lpflow.pktId + 1 }) ∨
        (k ≠ raw.flowKey ∧ st.flow k = some f) := by
    intro k f hk
    rw [hflow] at hk
    by_cases hkr : k = raw.flowKey
    · subst hkr
      simp only [Loading.setFlow, update_self, Option.some.injEq] at hk
      exact Or.inl ⟨rfl, hk.symm⟩
    · simp only [Loading.setFlow, ne_eq, hkr, not_false_eq_true, update_of_ne] at hk
      exact Or.inr ⟨hkr, hk⟩
  refine ⟨?_, ?_, ?_, ?_, ?_, ?_⟩
  · intro k f hk
    rcases hcases hk with ⟨-, rfl⟩ | ⟨hkr, hk'⟩
    · refine ⟨htotal ▸ hlt, ?_⟩
      rw [hclass, if_pos rfl]
      exact congrArg (· + 1) hpkt
    · obtain ⟨hf, hp⟩ := h.flow hk'
      refine ⟨by omega, ?_⟩
      rw [hclass, if_neg fun e => hkr ((hkey hk').mp e.symm)]
      exact hp
  · intro k k' f f' hk hk' heq
    rcases hcases hk with ⟨rfl, rfl⟩ | ⟨hkr, hk⟩ <;> rcases hcases hk' with ⟨rfl, rfl⟩ | ⟨hkr', hk'⟩
    · rfl
    · exact ((hkey hk').mp heq.symm).symm
    · exact (hkey hk).mp heq
    · exact h.inj hk hk' heq
  · intro p hp
    rw [hpkts, Loading.append] at hp
    rcases mem_append.mp hp with hp | hp
    · exact h.flowId p hp
    · cases mem_singleton.mp hp
      rfl
  · intro p hp
    rw [hpkts, Loading.append] at hp
    rcases mem_append.mp hp with hp | hp
    · have := h.lt p hp
      omega
    · cases mem_singleton.mp hp
      exact htotal ▸ hlt
  · intro s hs
    rw [htotal] at hs
    rw [hpkts, Loading.append]
    rcases hnew s hs with hs' | rfl
    · obtain ⟨p, hp, hps⟩ := h.all s hs'
      exact ⟨p, mem_append_left _ hp, hps⟩
    · exact ⟨_, mem_append_right _ (mem_singleton_self _), rfl⟩
  · rw [hpkts, Loading.append]
    exact h.num.concat hpkt

/-- **One packet.** -/
theorem LoadInv.step (h : LoadInv st) (herr : (loadStep multiFlow id st raw).totalErrors = 0) :
    LoadInv (loadStep multiFlow id st raw) := by
  unfold loadStep at herr ⊢
  cases hkey : st.flow raw.flowKey with
  | none =>
    simp only [hkey] at herr ⊢
    have hother : ∀ {k f}, st.flow k = some f → (f.flowId = st.totalFlows ↔ k = raw.flowKey) := by
      intro k f hk
      refine ⟨fun e => absurd (h.flow hk).1 (by omega), ?_⟩
      rintro rfl
      rw [hkey] at hk
      cases hk
    have hzero : 0 = (ofClass CFlowPktInfo.subFlow st.totalFlows st.pkts).length := by
      refine (length_eq_zero_iff.mpr (eq_nil_iff_forall_not_mem.mpr fun p hp => ?_)).symm
      obtain ⟨hmem, hs⟩ := mem_ofClass.mp hp
      exact absurd (h.lt p hmem) (by omega)
    split at herr
    · rename_i h0
      rw [if_pos h0]
      exact h.append id true 1 hzero (by dsimp only; omega) (by omega)
        (fun s hs => by dsimp only; omega) hother rfl rfl rfl
    · rename_i h0
      rw [if_neg h0]
      split at herr
      · rename_i hm
        rw [if_pos hm]
        exact h.append id _ (st.totalFlows + 1) hzero (Nat.lt_succ_self _)
          (Nat.le_succ _) (fun s hs => by dsimp only; omega) hother rfl rfl rfl
      · exact absurd herr (by simp)
  | some lpflow =>
    simp only [hkey] at herr ⊢
    obtain ⟨hlt, hpkt⟩ := h.flow hkey
    have hother : ∀ {k f}, st.flow k = some f → (f.flowId = lpflow.flowId ↔ k = raw.flowKey) := by
      intro k f hk
      refine ⟨fun e => h.inj hk hkey e, ?_⟩
      rintro rfl
      rw [hkey] at hk
      cases hk
      rfl
    split at herr
    · rename_i hm
      rw [if_pos hm]
      exact h.append id _ st.totalFlows hpkt hlt le_rfl (fun s hs => Or.inl hs) hother rfl rfl rfl
    · rename_i hm
      rw [if_neg hm]
      split at herr
      · rename_i hf
        rw [if_pos hf]
        exact h.append id _ st.totalFlows hpkt hlt le_rfl (fun s hs => Or.inl hs) hother rfl rfl rfl
      · exact absurd herr (by simp)

/-- An error is never taken back. -/
theorem totalErrors_loadStep : st.totalErrors ≤ (loadStep multiFlow id st raw).totalErrors := by
  unfold loadStep
  cases st.flow raw.flowKey with
  | none =>
    dsimp only
    split
    · exact le_rfl
    · split
      · exact le_rfl
      · exact Nat.le_succ _
  | some lpflow =>
    dsimp only
    split
    · exact le_rfl
    · split
      · exact le_rfl
      · exact Nat.le_succ _

/-- **Every packet of a file.** -/
theorem LoadInv.run (raws : List (RawPacket κ))
    (herr : (raws.foldl (loadStep multiFlow id) {}).totalErrors = 0) :
    LoadInv (raws.foldl (loadStep multiFlow id) {}) := by
  induction raws using List.reverseRecOn with
  | nil => exact LoadInv.init
  | append_singleton raws raw ih =>
    rw [foldl_append] at herr ⊢
    have hle : (raws.foldl (loadStep multiFlow id) {}).totalErrors ≤ 0 :=
      totalErrors_loadStep.trans (le_of_eq herr)
    exact (ih (Nat.le_zero.mp hle)).step herr

end LoadInv

/-- The gaps do not touch what the packets are, but for the mark of the last one. -/
theorem setGaps_map {δ : Type} (φ : CFlowPktInfo → δ)
    (hφ : ∀ (lp : CFlowPktInfo) (g : Rat) (b : Bool),
      φ { lp with capIpg := g, desc := { lp.desc with isLastPkt := b } } = φ lp)
    (l : List CFlowPktInfo) :
    (setGaps l).map φ = l.map φ := by
  induction l with
  | nil => rfl
  | cons a l ih =>
    cases l with
    | nil => simp [setGaps, hφ]
    | cons b rest =>
      have hself : φ { a with capIpg := b.capIpg - a.capIpg } = φ a := hφ a _ a.desc.isLastPkt
      rw [setGaps, map_cons, map_cons, ih, hself]

/-- The table of `update_info` counts the packets of a list. -/
def Counts (ft : Nat → CTmpFlowInfo) (l : List CFlowPktInfo) : Prop :=
  ∀ i, (ft i).maxPkts = (ofClass (fun p => p.desc.flowId) i l).length ∧
    ∀ d, (ft i).perDir d = (ofClass CFlowPktInfo.side (i, d) l).length

variable {ft : Nat → CTmpFlowInfo} {info : CCapFileFlowInfo} {id : UInt16} {learnMode : Bool}

variable {l : List CFlowPktInfo} {info' : CCapFileFlowInfo} {κ : Type} {multiFlow : Bool}
  {raws : List (RawPacket κ)} {ipg : Option (Rat × Rat)}

theorem Counts.learnFlow (h : Counts ft l) (ctime : Rat) (lp lp' : CFlowPktInfo)
    (hside : lp'.side = lp.side) :
    Counts (learnFlow ft ctime lp) (l ++ [lp']) := by
  have hid : lp'.desc.flowId = lp.desc.flowId := congrArg Prod.fst hside
  intro i
  simp only [ofClass_concat, hid, hside]
  by_cases hi : i = lp.desc.flowId
  · subst hi
    simp only [Trex.Flow.learnFlow, update_self, ↓reduceIte, length_append,
      length_singleton, (h lp.desc.flowId).1, true_and]
    intro d
    by_cases hd : d = lp.desc.isInitSide
    · subst hd
      simp [CFlowPktInfo.side, (h lp.desc.flowId).2]
    · simp [CFlowPktInfo.side, hd, Ne.symm hd, (h lp.desc.flowId).2]
  · simp only [Trex.Flow.learnFlow, ne_eq, hi, not_false_eq_true, update_of_ne, Ne.symm hi,
      ↓reduceIte, append_nil, (h i).1, true_and]
    intro d
    simp [CFlowPktInfo.side, Ne.symm hi, (h i).2]

/-- **The first loop of `update_info`** numbers the packets of each side, and counts them. -/
theorem learnInfo_spec (l : List CFlowPktInfo) :
    ∀ (pre : List CFlowPktInfo) (ft : Nat → CTmpFlowInfo)
    (ctime : Rat) (l' : List CFlowPktInfo) (ft' : Nat → CTmpFlowInfo), Counts ft pre →
    Numbered CFlowPktInfo.side (fun p => p.desc.dirPktNum) pre →
      learnInfo ft ctime l = .ok (l', ft') →
    Counts ft' (pre ++ l') ∧ Numbered CFlowPktInfo.side (fun p => p.desc.dirPktNum) (pre ++ l') ∧
      l'.map CFlowPktInfo.core = l.map CFlowPktInfo.core := by
  induction l with
  | nil =>
    intro pre ft ctime l' ft' hc hn hrun
    cases hrun
    exact ⟨by simpa using hc, by simpa using hn, rfl⟩
  | cons lp l ih =>
    intro pre ft ctime l' ft' hc hn hrun
    simp only [learnInfo] at hrun
    split at hrun
    · cases hrun
    · obtain ⟨⟨rest, ft1⟩, hrest, hret⟩ := bind_eq_ok hrun
      cases hret
      let lp' : CFlowPktInfo :=
        { lp with desc := { lp.desc with dirPktNum := (ft lp.desc.flowId).perDir lp.desc.isInitSide
          } }
      have hc1 : Counts (learnFlow ft ctime lp) (pre ++ [lp']) := hc.learnFlow ctime lp lp' rfl
      have hn1 : Numbered CFlowPktInfo.side (fun p => p.desc.dirPktNum) (pre ++ [lp']) :=
        hn.concat ((hc lp.desc.flowId).2 lp.desc.isInitSide)
      obtain ⟨hc2, hn2, hcore⟩ := ih _ _ _ _ _ hc1 hn1 hrest
      rw [append_assoc] at hc2 hn2
      exact ⟨hc2, hn2, by rw [map_cons, map_cons, hcore]; rfl⟩

/-- What the second loop of `update_info` writes to a packet. -/
structure Filled (ft : Nat → CTmpFlowInfo) (lp : CFlowPktInfo) : Prop where
  dirMax : lp.desc.dirMaxPkts = (ft lp.desc.flowId).perDir lp.desc.isInitSide
  dirMax_lt : lp.desc.dirMaxPkts < 65000
  max : lp.desc.maxPktsPerFlow = (ft lp.desc.flowId).maxPkts
  max_lt : lp.desc.maxPktsPerFlow < 65000
  biDir : lp.desc.isBiDirectionalFlow =
    (decide (0 < (ft lp.desc.flowId).perDir false) && decide (0 < (ft lp.desc.flowId).perDir true))

/-- What the second loop and the mark of learn mode leave as it is. -/
def CFlowPktInfo.numbers (lp : CFlowPktInfo) : (Nat × Nat × Nat × Bool × Bool) × Nat :=
  (lp.core, lp.desc.dirPktNum)

theorem fillInfo_spec {lp lp' : CFlowPktInfo} (h : fillInfo ft lp = .ok lp') :
    lp'.numbers = lp.numbers ∧ Filled ft lp' := by
  simp only [fillInfo] at h
  split at h
  · rename_i hlt
    cases h
    exact ⟨rfl, rfl, hlt.1, rfl, hlt.2, rfl⟩
  · cases h

/-- **The second loop of `update_info`.** -/
theorem fillAll_spec (l : List CFlowPktInfo) : ∀ l' : List CFlowPktInfo,
    l.mapM (fillInfo ft) = .ok l' →
    l'.map CFlowPktInfo.numbers = l.map CFlowPktInfo.numbers ∧ ∀ lp ∈ l', Filled ft lp := by
  induction l with
  | nil =>
    intro l' h
    cases h
    exact ⟨rfl, fun lp hlp => by cases hlp⟩
  | cons lp l ih =>
    intro l' h
    rw [mapM_cons] at h
    obtain ⟨lp1, hfill, h⟩ := bind_eq_ok h
    obtain ⟨rest, hrest, h⟩ := bind_eq_ok h
    cases h
    obtain ⟨hnum, hfilled⟩ := fillInfo_spec hfill
    obtain ⟨hnums, hall⟩ := ih rest hrest
    refine ⟨by rw [map_cons, map_cons, hnum, hnums], ?_⟩
    intro q hq
    rcases mem_cons.mp hq with rfl | hq
    · exact hfilled
    · exact hall q hq

theorem markLearn_spec (learnMode : Bool) (l : List CFlowPktInfo) (h : ∀ lp ∈ l, Filled ft lp) :
    (markLearn learnMode l).map CFlowPktInfo.numbers = l.map CFlowPktInfo.numbers ∧
      ∀ lp ∈ markLearn learnMode l, Filled ft lp := by
  cases l with
  | nil => exact ⟨rfl, h⟩
  | cons lp l =>
    refine ⟨rfl, ?_⟩
    intro q hq
    rcases mem_cons.mp hq with rfl | hq
    · have := h lp mem_cons_self
      exact ⟨this.dirMax, this.dirMax_lt, this.max, this.max_lt, this.biDir⟩
    · exact h q (mem_cons_of_mem _ hq)

/-- **A template is well numbered**: the sub-flows are numbered without gaps, their packets are
numbered in the sub-flow and in each side of it, and every packet knows how many there are. -/
structure WellNumbered (info : CCapFileFlowInfo) : Prop where
  nonempty : info.pkts ≠ []
  flowId : ∀ p ∈ info.pkts, p.desc.flowId = flowIdField p.subFlow
  lt : ∀ p ∈ info.pkts, p.subFlow < info.totalFlows
  all : ∀ s < info.totalFlows, ∃ p ∈ info.pkts, p.subFlow = s
  num : Numbered CFlowPktInfo.subFlow (fun p => p.desc.flowPktNum) info.pkts
  dirNum : Numbered CFlowPktInfo.side (fun p => p.desc.dirPktNum) info.pkts
  dirMax : ∀ p ∈ info.pkts,
    p.desc.dirMaxPkts = (ofClass CFlowPktInfo.side p.side info.pkts).length ∧
    p.desc.dirMaxPkts < 65000
  max : ∀ p ∈ info.pkts,
    p.desc.maxPktsPerFlow = (ofClass (fun q => q.desc.flowId) p.desc.flowId info.pkts).length ∧
      p.desc.maxPktsPerFlow < 65000
  biDir : ∀ p ∈ info.pkts, p.desc.isBiDirectionalFlow =
    (decide (0 < (ofClass CFlowPktInfo.side (p.desc.flowId, false) info.pkts).length) &&
      decide (0 < (ofClass CFlowPktInfo.side (p.desc.flowId, true) info.pkts).length))

/-- What `load_cap_file` gives to `update_info`. -/
structure Loaded (info : CCapFileFlowInfo) : Prop where
  nonempty : info.pkts ≠ []
  flowId : ∀ p ∈ info.pkts, p.desc.flowId = flowIdField p.subFlow
  lt : ∀ p ∈ info.pkts, p.subFlow < info.totalFlows
  all : ∀ s < info.totalFlows, ∃ p ∈ info.pkts, p.subFlow = s
  num : Numbered CFlowPktInfo.subFlow (fun p => p.desc.flowPktNum) info.pkts

/-- `Loaded` speaks of the numbers of the packets only. -/
theorem Loaded.of_map (h : Loaded info) (htotal : info'.totalFlows = info.totalFlows)
    (hmap : (info'.pkts.map fun p => (p.subFlow, p.desc.flowId, p.desc.flowPktNum)) =
      info.pkts.map fun p => (p.subFlow, p.desc.flowId, p.desc.flowPktNum)) : Loaded info' := by
  have hmem : ∀ p ∈ info'.pkts, ∃ q ∈ info.pkts, q.subFlow = p.subFlow ∧
      q.desc.flowId = p.desc.flowId := by
    intro p hp
    have hp' := mem_map_of_mem (f := fun p : CFlowPktInfo => (p.subFlow, p.desc.flowId,
      p.desc.flowPktNum)) hp
    rw [hmap] at hp'
    obtain ⟨q, hq, heq⟩ := mem_map.mp hp'
    simp only [Prod.mk.injEq] at heq
    exact ⟨q, hq, heq.1, heq.2.1⟩
  refine ⟨?_, ?_, ?_, ?_, ?_⟩
  · have hlen := congrArg List.length hmap
    simp only [length_map] at hlen
    rw [← length_pos_iff, hlen, length_pos_iff]
    exact h.nonempty
  · intro p hp
    obtain ⟨q, hq, hs, hf⟩ := hmem p hp
    rw [← hs, ← hf]
    exact h.flowId q hq
  · intro p hp
    obtain ⟨q, hq, hs, -⟩ := hmem p hp
    rw [← hs, htotal]
    exact h.lt q hq
  · intro s hs
    obtain ⟨q, hq, rfl⟩ := h.all s (htotal ▸ hs)
    have hq' := mem_map_of_mem (f := fun p : CFlowPktInfo => (p.subFlow, p.desc.flowId,
      p.desc.flowPktNum)) hq
    rw [← hmap] at hq'
    obtain ⟨p, hp, heq⟩ := mem_map.mp hq'
    simp only [Prod.mk.injEq] at heq
    exact ⟨p, hp, heq.1⟩
  · refine h.num.of_pairs ?_
    have := congrArg (List.map fun t : Nat × Nat × Nat => (t.1, t.2.2)) hmap
    simpa [map_map, comp_def] using this

theorem loadCapFile_loaded [DecidableEq κ] (h : loadCapFile multiFlow id raws = .ok info) :
    Loaded info := by
  simp only [loadCapFile] at h
  split at h
  · cases h
  · split at h
    · cases h
    · rename_i hne
      split at h
      · cases h
      · rename_i herr
        cases h
        have hinv : LoadInv (raws.foldl (loadStep multiFlow id) {}) := LoadInv.run raws (by omega)
        have hst : Loaded ⟨(raws.foldl (loadStep multiFlow id) {}).pkts,
            (raws.foldl (loadStep multiFlow id) {}).totalFlows⟩ :=
          ⟨hne, hinv.flowId, hinv.lt, hinv.all, hinv.num⟩
        exact hst.of_map rfl (setGaps_map _ (fun _ _ _ => rfl) _)

/-- **`update_info` numbers a loaded template well.** -/
theorem updateInfo_wellNumbered (hl : Loaded info) (h : updateInfo learnMode info = .ok info') :
    WellNumbered info' := by
  simp only [updateInfo] at h
  obtain ⟨⟨l1, ft⟩, hlearn, h⟩ := bind_eq_ok h
  obtain ⟨l2, hfill, h⟩ := bind_eq_ok h
  cases h
  obtain ⟨hcounts, hnum, hcore⟩ := learnInfo_spec info.pkts [] (fun _ => {}) 0 l1 ft
    (fun i => ⟨rfl, fun d => rfl⟩) Numbered.nil hlearn
  rw [nil_append] at hcounts hnum
  obtain ⟨hnums2, hfilled2⟩ := fillAll_spec l1 l2 hfill
  obtain ⟨hnums, hfilled⟩ := markLearn_spec learnMode l2 hfilled2
  rw [hnums2] at hnums
  have hside : (markLearn learnMode l2).map CFlowPktInfo.side = l1.map CFlowPktInfo.side := by
    have h1 := congrArg (List.map fun t : (Nat × Nat × Nat × Bool × Bool) × Nat =>
      (t.1.2.1, t.1.2.2.2.1)) hnums
    simp only [map_map] at h1
    exact h1
  have hflow : ((markLearn learnMode l2).map fun p => p.desc.flowId) = l1.map fun p =>
      p.desc.flowId := by
    have := congrArg (List.map fun t : (Nat × Nat × Nat × Bool × Bool) × Nat => t.1.2.1) hnums
    simpa [map_map, comp_def, CFlowPktInfo.numbers, CFlowPktInfo.core] using this
  have hl' : Loaded { info with pkts := markLearn learnMode l2 } := by
    refine hl.of_map rfl ?_
    have h1 := congrArg (List.map fun t : (Nat × Nat × Nat × Bool × Bool) × Nat =>
      (t.1.1, t.1.2.1, t.1.2.2.1)) hnums
    have h2 := congrArg (List.map fun t : Nat × Nat × Nat × Bool × Bool =>
      (t.1, t.2.1, t.2.2.1)) hcore
    simp only [map_map, comp_def, CFlowPktInfo.numbers, CFlowPktInfo.core] at h1 h2
    exact h1.trans h2
  refine ⟨hl'.nonempty, hl'.flowId, hl'.lt, hl'.all, hl'.num, ?_, ?_, ?_, ?_⟩
  · refine hnum.of_pairs ?_
    have := congrArg (List.map fun t : (Nat × Nat × Nat × Bool × Bool) × Nat =>
      ((t.1.2.1, t.1.2.2.2.1), t.2)) hnums
    simpa [map_map, comp_def, CFlowPktInfo.numbers, CFlowPktInfo.core,
      CFlowPktInfo.side] using this
  · intro p hp
    obtain hf := hfilled p hp
    refine ⟨?_, hf.dirMax_lt⟩
    rw [hf.dirMax, (hcounts p.desc.flowId).2, length_ofClass_congr hside]
    rfl
  · intro p hp
    obtain hf := hfilled p hp
    refine ⟨?_, hf.max_lt⟩
    rw [hf.max, (hcounts p.desc.flowId).1]
    exact (length_ofClass_congr hflow _).symm
  · intro p hp
    rw [(hfilled p hp).biDir, (hcounts p.desc.flowId).2, (hcounts p.desc.flowId).2,
      length_ofClass_congr hside, length_ofClass_congr hside]

/-- **Every template that is loaded is well numbered.** -/
theorem loadTemplate_wellNumbered [DecidableEq κ]
    (h : loadTemplate multiFlow learnMode ipg id raws = .ok info) : WellNumbered info := by
  simp only [loadTemplate] at h
  obtain ⟨info1, hload, h⟩ := bind_eq_ok h
  split at h
  · cases h
  · refine updateInfo_wellNumbered ((loadCapFile_loaded hload).of_map ?_ ?_) h
    · cases ipg <;> rfl
    · cases ipg with
      | none => rfl
      | some ipg => simp [updateMinIpg, map_map, comp_def]

/-! ## 5. The first packet and the last -/

/-- **The order of a template**: it starts with a packet of the initiator, and the last packet is
the only one that is marked. -/
structure Ordered (info : CCapFileFlowInfo) : Prop where
  first : ∀ p ∈ info.pkts.head?, p.desc.isInitSide = true
  last : info.pkts.map (fun p => p.desc.isLastPkt) = (List.range info.pkts.length).map
    fun i => decide (i + 1 = info.pkts.length)

/-- `Ordered` speaks of the sides and the marks only. -/
theorem Ordered.of_map (h : Ordered info)
    (hmap : info'.pkts.map (fun p => (p.desc.isInitSide, p.desc.isLastPkt)) =
      info.pkts.map fun p => (p.desc.isInitSide, p.desc.isLastPkt)) : Ordered info' := by
  have hlen : info'.pkts.length = info.pkts.length := by
    have := congrArg List.length hmap
    simpa using this
  constructor
  · intro p hp
    have hhead := congrArg List.head? hmap
    rw [List.head?_map, List.head?_map, Option.mem_def.mp hp] at hhead
    cases hq : info.pkts.head? with
    | none => rw [hq] at hhead; cases hhead
    | some q =>
      rw [hq] at hhead
      simp only [Option.map_some, Option.some.injEq, Prod.mk.injEq] at hhead
      rw [hhead.1]
      exact h.first q hq
  · have hlast := congrArg (List.map Prod.snd) hmap
    simp only [map_map, comp_def] at hlast
    rw [hlast, hlen]
    exact h.last

/-- What the packets look like while a file is read: the first is the initiator's, and none is
marked. -/
structure LoadOrder {κ : Type} (st : Loading κ) : Prop where
  first : ∀ p ∈ st.pkts.head?, p.desc.isInitSide = true
  unmarked : ∀ p ∈ st.pkts, p.desc.isLastPkt = false

section LoadOrder

variable {κ : Type} {st : Loading κ} {raw : RawPacket κ} {id : UInt16} {multiFlow : Bool}

/-- A packet is appended; it is the first one only when the initiator sent it. -/
theorem LoadOrder.append (h : LoadOrder st) (id : UInt16) (lpflow : CFlow) (initSide : Bool)
    (hinit : st.pkts = [] → initSide = true) {st' : Loading κ}
    (hpkts : st'.pkts = (st.append id raw lpflow initSide).pkts) : LoadOrder st' := by
  constructor
  · intro p hp
    rw [hpkts, Loading.append] at hp
    cases hnil : st.pkts with
    | nil =>
      rw [hnil] at hp
      cases hp
      exact hinit hnil
    | cons q rest =>
      rw [hnil, cons_append, List.head?_cons] at hp
      cases hp
      exact h.first p (by rw [hnil]; rfl)
  · intro p hp
    rw [hpkts, Loading.append] at hp
    rcases mem_append.mp hp with hp | hp
    · exact h.unmarked p hp
    · cases mem_singleton.mp hp
      rfl

variable [DecidableEq κ]

/-- **One packet.** -/
theorem LoadOrder.step (h : LoadOrder st) (hinv : LoadInv st) :
    LoadOrder (loadStep multiFlow id st raw) := by
  unfold loadStep
  cases hkey : st.flow raw.flowKey with
  | none =>
    dsimp only
    split
    · exact h.append id _ true (fun _ => rfl) rfl
    · rename_i h0
      -- a flow is open, so there is a packet before this one
      have hne : st.pkts ≠ [] := by
        obtain ⟨p, hp, -⟩ := hinv.all 0 (by omega)
        exact ne_nil_of_mem hp
      split
      · exact h.append id _ _ (fun hnil => absurd hnil hne) rfl
      · exact ⟨h.first, h.unmarked⟩
  | some lpflow =>
    have hne : st.pkts ≠ [] := by
      obtain ⟨p, hp, -⟩ := hinv.all _ (hinv.flow hkey).1
      exact ne_nil_of_mem hp
    have hset : LoadOrder (st.setFlow raw.flowKey lpflow) := ⟨h.first, h.unmarked⟩
    dsimp only
    split
    · exact hset.append id lpflow _ (fun hnil => absurd hnil hne) rfl
    · split
      · exact hset.append id lpflow _ (fun hnil => absurd hnil hne) rfl
      · exact ⟨h.first, h.unmarked⟩

/-- **Every packet of a file.** -/
theorem LoadOrder.run (multiFlow : Bool) (id : UInt16) (raws : List (RawPacket κ))
    (herr : (raws.foldl (loadStep multiFlow id) {}).totalErrors = 0) :
    LoadOrder (raws.foldl (loadStep multiFlow id) {}) := by
  induction raws using List.reverseRecOn with
  | nil =>
    constructor
    · intro p hp
      cases hp
    · intro p hp
      cases hp
  | append_singleton raws raw ih =>
    rw [foldl_append] at herr ⊢
    have hle : (raws.foldl (loadStep multiFlow id) {}).totalErrors ≤ 0 :=
      totalErrors_loadStep.trans (le_of_eq herr)
    have hzero := Nat.le_zero.mp hle
    exact (ih hzero).step (LoadInv.run raws hzero)

end LoadOrder

/-- `setGaps` marks the last packet and no other. -/
theorem setGaps_last (l : List CFlowPktInfo) (h : ∀ p ∈ l, p.desc.isLastPkt = false) :
    (setGaps l).map (fun p => p.desc.isLastPkt) =
      (List.range l.length).map fun i => decide (i + 1 = l.length) := by
  induction l with
  | nil => rfl
  | cons a l ih =>
    cases l with
    | nil => rfl
    | cons b rest =>
      have hrest := ih fun p hp => h p (mem_cons_of_mem _ hp)
      have hrange : List.range (a :: b :: rest).length = 0 ::
          (List.range (b :: rest).length).map Nat.succ :=
        range_succ_eq_map
      rw [setGaps, map_cons, hrest, hrange, map_cons, map_map]
      refine congrArg₂ List.cons ?_ (map_congr_left fun i _ => ?_)
      · simpa using h a mem_cons_self
      · simp

theorem setGaps_ordered (hfirst : ∀ p ∈ l.head?, p.desc.isInitSide = true)
    (h : ∀ p ∈ l, p.desc.isLastPkt = false) (totalFlows : Nat) :
    Ordered ⟨setGaps l, totalFlows⟩ := by
  have hlen : (setGaps l).length = l.length := by
    have := congrArg List.length (setGaps_map (fun p => p.desc.isInitSide) (fun _ _ _ => rfl) l)
    simpa using this
  constructor
  · intro p hp
    have hhead := congrArg List.head? (setGaps_map (fun p => p.desc.isInitSide) (fun _ _ _ =>
      rfl) l)
    rw [List.head?_map, List.head?_map, Option.mem_def.mp hp] at hhead
    cases hq : l.head? with
    | none => rw [hq] at hhead; cases hhead
    | some q =>
      rw [hq] at hhead
      simp only [Option.map_some, Option.some.injEq] at hhead
      rw [hhead]
      exact hfirst q hq
  · dsimp only
    rw [hlen]
    exact setGaps_last l h

/-- `update_info` does not change the sides and the marks. -/
theorem updateInfo_core (h : updateInfo learnMode info = .ok info') :
    info'.pkts.map CFlowPktInfo.core = info.pkts.map CFlowPktInfo.core := by
  simp only [updateInfo] at h
  obtain ⟨⟨l1, ft⟩, hlearn, h⟩ := bind_eq_ok h
  obtain ⟨l2, hfill, h⟩ := bind_eq_ok h
  cases h
  obtain ⟨-, -, hcore⟩ := learnInfo_spec info.pkts [] (fun _ => {}) 0 l1 ft
    (fun i => ⟨rfl, fun d => rfl⟩) Numbered.nil hlearn
  obtain ⟨hnums2, hfilled2⟩ := fillAll_spec l1 l2 hfill
  obtain ⟨hnums, -⟩ := markLearn_spec learnMode l2 hfilled2
  have hfst := congrArg (List.map Prod.fst) (hnums.trans hnums2)
  simp only [map_map] at hfst
  exact hfst.trans hcore

/-- **Every template that is loaded is ordered.** -/
theorem loadTemplate_ordered [DecidableEq κ]
    (h : loadTemplate multiFlow learnMode ipg id raws = .ok info) : Ordered info := by
  simp only [loadTemplate] at h
  obtain ⟨info1, hload, h⟩ := bind_eq_ok h
  have hinfo1 : Ordered info1 := by
    simp only [loadCapFile] at hload
    split at hload
    · cases hload
    · split at hload
      · cases hload
      · split at hload
        · cases hload
        · rename_i herr
          cases hload
          obtain ⟨hfirst, hun⟩ := LoadOrder.run multiFlow id raws (by omega)
          exact setGaps_ordered hfirst hun _
  split at h
  · cases h
  · have hmin : Ordered (updateMinIpg ipg info1) := by
      refine hinfo1.of_map ?_
      cases ipg with
      | none => rfl
      | some ipg => simp [updateMinIpg, map_map, comp_def]
    refine hmin.of_map ?_
    have := congrArg (List.map fun t : Nat × Nat × Nat × Bool × Bool => t.2.2.2) (updateInfo_core h)
    simpa [map_map, comp_def, CFlowPktInfo.core] using this

end Trex.Flow
