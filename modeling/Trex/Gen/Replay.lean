/-
# The timing of a template

What `update_next_pkt_in_flow` (`bp_sim.h`) reads of a packet of a template, and when the packets of
a flow are due.

* the packet that is next is found by `pkt_cnt` of the packet itself: the number the reader gave it
  when the file was read, counted from 1, also for packets that were not appended;
* the gap after a packet is the one of the capture file (`cap_ipg` mode), or else the round trip
  time when the next packet comes from the other side, and the gap of the template when it does not.
-/
import Mathlib.Algebra.BigOperators.Group.Finset.Piecewise
import Mathlib.Algebra.Order.BigOperators.Group.Finset
import Trex.Flow.Template

namespace Trex.Gen

open Trex.Flow Trex.Lib List

/-! ## 1. Loading -/

/-- A packet of a template: `CFlowPktInfo`, with `m_packet->pkt_cnt` and the bits `IsRtt` and
`IsPcapTiming` of its descriptor. -/
structure ReplayPkt where
  info : CFlowPktInfo
  pktCnt : Nat
  isRtt : Bool
  isPcapTiming : Bool
deriving DecidableEq, Repr

section Load

variable {κ : Type} [DecidableEq κ]

/-- The numbers of the packets that `load_cap_file` appends; `cnt` packets were read before. -/
def appendedCnts (multiFlow : Bool) (id : UInt16) : Loading κ → Nat → List (RawPacket κ) → List Nat
  | _, _, [] => []
  | st, cnt, raw :: rest =>
    let st' := loadStep multiFlow id st raw
    let later := appendedCnts multiFlow id st' (cnt + 1) rest
    if st'.pkts.length = st.pkts.length then later else (cnt + 1) :: later

/-- The packets with their numbers.  `SetRtt` is called for a packet when the next one is of the
other side, and `update_pcap_mode` for all of them. -/
def withTiming (capMode : Bool) : List CFlowPktInfo → List Nat → List ReplayPkt
  | lp :: rest, cnt :: cnts =>
    { info := lp
      pktCnt := cnt
      isRtt := rest.head?.any fun next => next.desc.isInitSide != lp.desc.isInitSide
      isPcapTiming := capMode } :: withTiming capMode rest cnts
  | _, _ => []

/-- `CFlowGeneratorRec::Create`, with what is read when the template is replayed. -/
def loadReplay (multiFlow learnMode capMode : Bool) (ipg : Option (Rat × Rat)) (id : UInt16)
    (raws : List (RawPacket κ)) : Except LoadFault (CCapFileFlowInfo × List ReplayPkt) := do
  -- `update_min_ipg` is called in this mode only
  let info ← loadTemplate multiFlow learnMode (if capMode then ipg else none) id raws
  .ok (info, withTiming capMode info.pkts (appendedCnts multiFlow id {} 0 raws))

/-! ## 2. Every packet of an accepted file is appended -/

variable {multiFlow learnMode capMode : Bool} {ipg : Option (Rat × Rat)} {id : UInt16}
  {raws : List (RawPacket κ)}

/-- A packet is appended, or it is an error. -/
theorem loadStep_appends (multiFlow : Bool) (id : UInt16) (st : Loading κ) (raw : RawPacket κ) :
    (loadStep multiFlow id st raw).pkts.length = st.pkts.length + 1 ∨
      (loadStep multiFlow id st raw).totalErrors = st.totalErrors + 1 := by
  unfold loadStep
  cases st.flow raw.flowKey with
  | none =>
    dsimp only
    split
    · left
      simp [Loading.append, Loading.setFlow]
    · split
      · left
        simp [Loading.append, Loading.setFlow]
      · right
        rfl
  | some lpflow =>
    dsimp only
    split
    · left
      simp [Loading.append, Loading.setFlow]
    · split
      · left
        simp [Loading.append, Loading.setFlow]
      · right
        rfl

theorem totalErrors_le_foldl (multiFlow : Bool) (id : UInt16) (raws : List (RawPacket κ))
    (st : Loading κ) :
    st.totalErrors ≤ (raws.foldl (loadStep multiFlow id) st).totalErrors := by
  induction raws generalizing st with
  | nil => exact le_refl _
  | cons raw rest ih => exact totalErrors_loadStep.trans (ih _)

/-- **The packets of a file without errors are numbered as they were read.** -/
theorem appendedCnts_eq (raws : List (RawPacket κ)) (st : Loading κ) (cnt : Nat)
    (herr : (raws.foldl (loadStep multiFlow id) st).totalErrors = 0) :
    appendedCnts multiFlow id st cnt raws = List.range' (cnt + 1) raws.length ∧
      (raws.foldl (loadStep multiFlow id) st).pkts.length = st.pkts.length + raws.length := by
  induction raws generalizing st cnt with
  | nil => exact ⟨rfl, rfl⟩
  | cons raw rest ih =>
    rw [foldl_cons] at herr ⊢
    have hzero := totalErrors_le_foldl multiFlow id rest (loadStep multiFlow id st raw)
    obtain ⟨hcnts, hlen⟩ := ih (loadStep multiFlow id st raw) (cnt + 1) herr
    rcases loadStep_appends multiFlow id st raw with happ | hbad
    · constructor
      · simp only [appendedCnts]
        rw [if_neg (by omega), hcnts, length_cons, range'_succ]
      · rw [hlen, happ, length_cons]
        omega
    · omega

theorem withTiming_info (capMode : Bool) (lps : List CFlowPktInfo) (cnts : List Nat)
    (hlen : cnts.length = lps.length) : (withTiming capMode lps cnts).map ReplayPkt.info = lps := by
  induction lps generalizing cnts with
  | nil => rfl
  | cons lp rest ih =>
    cases cnts with
    | nil => cases hlen
    | cons cnt cnts =>
      rw [withTiming, map_cons, ih cnts (Nat.succ.inj hlen)]

theorem withTiming_pktCnt (capMode : Bool) (lps : List CFlowPktInfo) (cnts : List Nat)
    (hlen : cnts.length = lps.length) :
    (withTiming capMode lps cnts).map ReplayPkt.pktCnt = cnts := by
  induction lps generalizing cnts with
  | nil =>
    cases cnts with
    | nil => rfl
    | cons cnt cnts => cases hlen
  | cons lp rest ih =>
    cases cnts with
    | nil => cases hlen
    | cons cnt cnts =>
      rw [withTiming, map_cons, ih cnts (Nat.succ.inj hlen)]

theorem length_setGaps (lps : List CFlowPktInfo) : (setGaps lps).length = lps.length := by
  have := congrArg List.length (setGaps_map (fun p => p.subFlow) (fun _ _ _ => rfl) lps)
  simpa using this

/-- A file that is accepted has no errors, and as many packets as were read. -/
theorem loadTemplate_length {info : CCapFileFlowInfo}
    (h : loadTemplate multiFlow learnMode ipg id raws = .ok info) :
    (raws.foldl (loadStep multiFlow id) {}).totalErrors = 0 ∧ info.pkts.length = raws.length := by
  simp only [loadTemplate] at h
  obtain ⟨info1, hload, h⟩ := bind_eq_ok h
  have hcap : (raws.foldl (loadStep multiFlow id) {}).totalErrors = 0 ∧
      info1.pkts.length = raws.length := by
    simp only [loadCapFile] at hload
    split at hload
    · cases hload
    · split at hload
      · cases hload
      · split at hload
        · cases hload
        · rename_i herr
          cases hload
          have hzero := Nat.eq_zero_of_not_pos herr
          refine ⟨hzero, ?_⟩
          have hlen := (appendedCnts_eq raws {} 0 hzero).2
          rw [length_setGaps, hlen]
          exact Nat.zero_add _
  refine ⟨hcap.1, ?_⟩
  split at h
  · cases h
  · have hcore := congrArg List.length (updateInfo_core h)
    rw [length_map, length_map] at hcore
    rw [hcore, ← hcap.2]
    cases ipg with
    | none => rfl
    | some ipg => simp [updateMinIpg]

end Load

/-! ## 3. How many packets there are -/

/-- A list has no more entries than its classes have together. -/
theorem length_le_sum_ofClass {α : Type} (g : α → Nat) (n : Nat) (xs : List α)
    (h : ∀ x ∈ xs, g x < n) :
    xs.length ≤ ∑ c ∈ Finset.range n, (ofClass g c xs).length := by
  induction xs with
  | nil => exact Nat.zero_le _
  | cons x xs ih =>
    have hle := ih fun y hy => h y (mem_cons_of_mem _ hy)
    have hsum : ∑ c ∈ Finset.range n, (ofClass g c (x :: xs)).length =
        ∑ c ∈ Finset.range n, ((ofClass g c xs).length + if c = g x then 1 else 0) := by
      refine Finset.sum_congr rfl fun c _ => ?_
      by_cases hc : g x = c
      · simp [ofClass, hc]
      · simp [ofClass, hc, Ne.symm hc]
    have hone : ∑ c ∈ Finset.range n, (if c = g x then 1 else 0) = 1 := by
      rw [Finset.sum_ite_eq', if_pos (Finset.mem_range.mpr (h x mem_cons_self))]
    rw [hsum, Finset.sum_add_distrib, hone, length_cons]
    omega

/-- **A packet index fits in 32 bits**: there are 32 sub-flows at most, and 64,999 packets in
each. -/
theorem wellNumbered_length {info : CCapFileFlowInfo} (h : WellNumbered info) :
    info.pkts.length < 2 ^ 32 := by
  have hlt : ∀ p ∈ info.pkts, p.desc.flowId < 32 := by
    intro p hp
    rw [h.flowId p hp]
    exact Nat.mod_lt _ (by omega)
  have hle := length_le_sum_ofClass (fun p : CFlowPktInfo => p.desc.flowId) 32 info.pkts hlt
  have hclass : ∀ c ∈ Finset.range 32, (ofClass (fun p : CFlowPktInfo => p.desc.flowId) c
      info.pkts).length ≤ 65000 := by
    intro c _
    rcases (ofClass (fun p : CFlowPktInfo => p.desc.flowId) c info.pkts).eq_nil_or_concat with
      hnil | ⟨l, p, hl⟩
    · rw [hnil]
      exact Nat.zero_le _
    · have hp : p ∈ ofClass (fun p : CFlowPktInfo => p.desc.flowId) c info.pkts := by
        rw [hl]
        simp
      obtain ⟨hmem, rfl⟩ := mem_ofClass.mp hp
      obtain ⟨hmax, hlt⟩ := h.max p hmem
      rw [← hmax]
      exact hlt.le
  have hsum := Finset.sum_le_sum hclass
  rw [Finset.sum_const, Finset.card_range] at hsum
  simp only [nsmul_eq_mul, Nat.cast_id] at hsum
  omega

/-! ## 4. Templates -/

/-- A template of a thread: the packets as they were loaded, and what is used of its
`CFlowYamlInfo`. `isTcp` is the bit of the descriptor of each packet. -/
structure Template (κ : Type) [DecidableEq κ] (learnMode : Bool) where
  multiFlow : Bool
  capMode : Bool
  ipg : Option (Rat × Rat)
  id : UInt16
  raws : List (RawPacket κ)
  info : CCapFileFlowInfo
  pkts : List ReplayPkt
  loaded : loadReplay multiFlow learnMode capMode ipg id raws = .ok (info, pkts)
  ipgSec : Rat
  rttSec : Rat
  limitWasSet : Bool
  limit : Nat
  restartTime : Rat
  clientPoolIdx : UInt8
  isTcp : Nat → Bool

namespace Template

variable {κ : Type} [DecidableEq κ] {learnMode : Bool} (t : Template κ learnMode)

/-- `GetPacket`: the assertion. -/
def getPacket (index : UInt32) :
    Option Nat := if index.toNat < t.pkts.length then some index.toNat else none

/-- What `update_next_pkt_in_flow` adds to the time of a node. -/
def gap (lp : ReplayPkt) : Rat :=
  if lp.isPcapTiming then lp.info.capIpg else if lp.isRtt then t.rttSec else t.ipgSec

/-- The gaps up to a packet. -/
def pktOffset (j : Nat) : Rat := ((t.pkts.take j).map t.gap).sum

/-- From the first packet of a repetition to the first packet of the next one. -/
def period : Rat := t.pktOffset (t.pkts.length - 1) + t.restartTime

/-- When the packet `k` of a flow is due, with all repetitions counted. -/
def packetTime (start : Rat) (k : Nat) : Rat :=
  start + ((k / t.pkts.length : Nat) : Rat) * t.period + t.pktOffset (k % t.pkts.length)

/-! ### What was loaded -/

theorem loaded_spec : loadTemplate t.multiFlow learnMode (if t.capMode then t.ipg else none) t.id
    t.raws =
      .ok t.info ∧
    t.pkts = withTiming t.capMode t.info.pkts (appendedCnts t.multiFlow t.id {} 0 t.raws) := by
  have h := t.loaded
  simp only [loadReplay] at h
  obtain ⟨info, hload, h⟩ := bind_eq_ok h
  simp only [Except.ok.injEq, Prod.mk.injEq] at h
  obtain ⟨rfl, h⟩ := h
  exact ⟨hload, h.symm⟩

theorem cnts_spec : appendedCnts t.multiFlow t.id {} 0 t.raws =
    List.range' 1 t.info.pkts.length := by
  obtain ⟨herr, hlen⟩ := loadTemplate_length t.loaded_spec.1
  rw [(appendedCnts_eq t.raws {} 0 herr).1, hlen]

theorem map_info : t.pkts.map ReplayPkt.info = t.info.pkts := by
  rw [t.loaded_spec.2, t.cnts_spec]
  exact withTiming_info _ _ _ length_range'

theorem map_pktCnt : t.pkts.map ReplayPkt.pktCnt = List.range' 1 t.pkts.length := by
  have hlen : t.info.pkts.length = t.pkts.length := by rw [← t.map_info, length_map]
  rw [← hlen]
  rw [t.loaded_spec.2, t.cnts_spec]
  exact withTiming_pktCnt _ _ _ length_range'

theorem length_pos : 0 < t.pkts.length := by
  rw [← length_map (f := ReplayPkt.info), t.map_info, length_pos_iff]
  exact (loadTemplate_wellNumbered t.loaded_spec.1).nonempty

theorem length_lt : t.pkts.length < 2 ^ 32 := by
  rw [← length_map (f := ReplayPkt.info), t.map_info]
  exact wellNumbered_length (loadTemplate_wellNumbered t.loaded_spec.1)

variable {t} {lp : ReplayPkt} {j : Nat}

/-- The packet at an index was read as the next one of the file. -/
theorem pktCnt_eq (h : t.pkts[j]? = some lp) : lp.pktCnt = j + 1 := by
  have hj := congrArg (·[j]?) t.map_pktCnt
  simp only [List.getElem?_map, h, Option.map_some] at hj
  obtain ⟨hlt, -⟩ := List.getElem?_eq_some_iff.mp h
  rw [List.getElem?_range' hlt] at hj
  simp only [Option.some.injEq] at hj
  omega

/-- The last packet is marked, and no other. -/
theorem isLastPkt_iff (h : t.pkts[j]? = some lp) :
    lp.info.desc.isLastPkt = true ↔ j + 1 = t.pkts.length := by
  have hlast := (loadTemplate_ordered t.loaded_spec.1).last
  rw [← t.map_info, map_map, length_map] at hlast
  have hj := congrArg (·[j]?) hlast
  obtain ⟨hlt, -⟩ := List.getElem?_eq_some_iff.mp h
  simp only [List.getElem?_map, h, Option.map_some, Function.comp_apply,
    List.getElem?_range hlt, Option.some.injEq] at hj
  rw [hj, decide_eq_true_eq]

/-- The first packet is of the initiator. -/
theorem isInitSide_zero (h : t.pkts[0]? = some lp) : lp.info.desc.isInitSide = true := by
  refine (loadTemplate_ordered t.loaded_spec.1).first lp.info ?_
  rw [← t.map_info, List.head?_eq_getElem?, List.getElem?_map, h]
  rfl

/-- A template with both directions has a packet of the responder. -/
theorem exists_responder (h : t.pkts[j]? = some lp)
    (hbi : lp.info.desc.isBiDirectionalFlow = true) :
    ∃ (r : Nat) (lp' : ReplayPkt), t.pkts[r]? = some lp' ∧ lp'.info.desc.isInitSide = false := by
  have hmem : lp.info ∈ t.info.pkts := by
    rw [← t.map_info]
    exact mem_map_of_mem (mem_of_getElem? h)
  have hboth := (loadTemplate_wellNumbered t.loaded_spec.1).biDir lp.info hmem
  rw [hbi] at hboth
  simp only [Bool.true_eq, Bool.and_eq_true, decide_eq_true_eq] at hboth
  obtain ⟨lp1, hlp1⟩ := exists_mem_of_length_pos hboth.1
  obtain ⟨hmem1, hside⟩ := mem_ofClass.mp hlp1
  rw [← t.map_info] at hmem1
  obtain ⟨lp', hlp', rfl⟩ := mem_map.mp hmem1
  obtain ⟨r, hr⟩ := mem_iff_getElem?.mp hlp'
  exact ⟨r, lp', hr, congrArg Prod.snd hside⟩

/-- There is a packet after one that is not marked. -/
theorem succ_lt_length (h : t.pkts[j]? = some lp) (hlast : lp.info.desc.isLastPkt = false) :
    j + 1 < t.pkts.length := by
  obtain ⟨hlt, -⟩ := List.getElem?_eq_some_iff.mp h
  have hne : j + 1 ≠ t.pkts.length := by
    intro heq
    have := (isLastPkt_iff h).mpr heq
    rw [hlast] at this
    cases this
  omega

/-- **`update_next_pkt_in_flow` goes to the next packet**: `pkt_cnt` of a packet is the index of the
one after it. -/
theorem getPacket_pktCnt (h : t.pkts[j]? = some lp) (hlast : lp.info.desc.isLastPkt = false) :
    t.getPacket (UInt32.ofNat lp.pktCnt + 1 - 1) = some (j + 1) := by
  have hlt := succ_lt_length h hlast
  have hlen := t.length_lt
  have hcnt : (UInt32.ofNat lp.pktCnt + 1 - 1).toNat = j + 1 := by
    rw [UInt32.add_sub_cancel, UInt32.toNat_ofNat', pktCnt_eq h]
    exact Nat.mod_eq_of_lt (by omega)
  rw [getPacket, hcnt, if_pos hlt]

/-! ### Times -/

theorem pktOffset_zero : t.pktOffset 0 = 0 := rfl

theorem packetTime_zero (start : Rat) : t.packetTime start 0 = start := by
  simp [packetTime, pktOffset_zero]

theorem pktOffset_succ (h : t.pkts[j]? = some lp) :
    t.pktOffset (j + 1) = t.pktOffset j + t.gap lp := by
  rw [pktOffset, take_add_one, h, Option.toList_some, map_append, sum_append]
  simp [pktOffset]

variable {k : Nat}

/-- The next packet of the repetition. -/
theorem packetTime_next (start : Rat) (h : t.pkts[k % t.pkts.length]? = some lp)
    (hlast : k % t.pkts.length + 1 ≠ t.pkts.length) :
    (k + 1) % t.pkts.length = k % t.pkts.length + 1 ∧
      t.packetTime start (k + 1) = t.packetTime start k + t.gap lp := by
  have hpos := t.length_pos
  have hmod := Nat.mod_lt k hpos
  have hdiv := Nat.div_add_mod k t.pkts.length
  have hsucc : k + 1 = t.pkts.length * (k / t.pkts.length) + (k % t.pkts.length + 1) := by omega
  have hmod' : (k + 1) % t.pkts.length = k % t.pkts.length + 1 := by
    rw [hsucc, Nat.mul_add_mod, Nat.mod_eq_of_lt (by omega)]
  have hdiv' : (k + 1) / t.pkts.length = k / t.pkts.length := by
    rw [hsucc, Nat.mul_add_div hpos,
      Nat.div_eq_of_lt (by omega : k % t.pkts.length + 1 < t.pkts.length)]
    omega
  refine ⟨hmod', ?_⟩
  rw [packetTime, hmod', hdiv', pktOffset_succ h, packetTime]
  ring

/-- The first packet of the next repetition. -/
theorem packetTime_restart (start : Rat) (hlast : k % t.pkts.length + 1 = t.pkts.length) :
    (k + 1) % t.pkts.length = 0 ∧
      t.packetTime start (k + 1) = t.packetTime start k + t.restartTime := by
  have hpos := t.length_pos
  have hdiv := Nat.div_add_mod k t.pkts.length
  have hsucc : k + 1 = t.pkts.length * (k / t.pkts.length + 1) := by
    rw [Nat.mul_add]
    omega
  have hmod' : (k + 1) % t.pkts.length = 0 := by rw [hsucc, Nat.mul_mod_right]
  have hdiv' : (k + 1) / t.pkts.length = k / t.pkts.length + 1 := by
    rw [hsucc, Nat.mul_div_cancel_left _ hpos]
  refine ⟨hmod', ?_⟩
  have hend : k % t.pkts.length = t.pkts.length - 1 := by omega
  rw [packetTime, hmod', hdiv', packetTime, hend, period, pktOffset_zero]
  push_cast
  ring

end Template

end Trex.Gen
