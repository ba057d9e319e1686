/-
# The flow limit of a split client variable

`split_by_flow_client_var` divides the addresses of a client instruction among the cores and leaves
all else as it is, so every core has the whole limit (`m_limit_num_flows`, "number of flows").

* The flows of the parts are different, each part has its own addresses (`PartsOf`).
* Together they are all flows of the instruction if every part comes to its end; a part that starts
  again before that has as many flows as the limit says by itself, and any other core comes with one
  more (`PartsOf.ncard_le_iff`).
* What is not split runs as it is on every core, so the cores all have the same flows
  (`ncard_flows_le_iff`).

The cores are processes that share nothing (`Lib.Interleave`): what comes after all of them have
been scheduled often enough are the flows of all of them.
-/
import Mathlib.Order.Interval.Finset.Nat
import Trex.Lib.Interleave
import Trex.Stream.Split
import Trex.Vm.Client

namespace Trex.Stream

open Trex.Lib Trex.Net Trex.Vm List

/-! ## 1. The flows of the parts -/

/-- The flows of several client variables. -/
def flowsOf (ps : List FlowClient) : Set (Nat × Nat) := {f | ∃ p ∈ ps, f ∈ p.flows}

/-- **The parts of a client instruction**: their addresses tile its own, and all else is the
same. -/
structure PartsOf (i : FlowClient) (ps : List FlowClient) : Prop where
  same : ∀ p ∈ ps, p = { i with clientMin := p.clientMin, clientMax := p.clientMax }
  tiles : Tiles i.clientMin.toNat i.clientMax.toNat (ps.map fun p =>
    (p.clientMin.toNat, p.clientMax.toNat))

/-- All flows of an instruction that does not reach the last address. -/
def flowBox (i : FlowClient) : Set (Nat × Nat) :=
  (fun d : Nat × Nat => (d.1, (i.bssPort + d.2) % 2 ^ 16)) ''
    (Finset.Icc i.clientMin.toNat i.clientMax.toNat ×ˢ Finset.range i.portCount : Finset
      (Nat × Nat))

theorem flowsOf_finite (ps : List FlowClient) : (flowsOf ps).Finite := by
  have hunion : flowsOf ps = ⋃ p ∈ {p | p ∈ ps}, p.flows := by
    ext f
    simp [flowsOf]
  rw [hunion]
  exact (finite_toSet ps).biUnion fun p _ => p.flows_finite

variable {n : Nat}

theorem flowsOf_replicate (i : FlowClient) (hn : 0 < n) :
    flowsOf (List.replicate n i) = i.flows := by
  ext f
  simp [flowsOf, mem_replicate, Nat.pos_iff_ne_zero.mp hn]

variable {i p : FlowClient} {ps : List FlowClient}

/-- The number of flows in the box. -/
theorem ncard_flowBox (hle : i.clientMin.toNat ≤ i.clientMax.toNat) :
    (flowBox i).ncard = i.ipRange * i.portCount := by
  have hports := i.portCount_le
  have hinj : Set.InjOn (fun d : Nat × Nat => (d.1, (i.bssPort + d.2) % 2 ^ 16))
      (Finset.Icc i.clientMin.toNat i.clientMax.toNat ×ˢ Finset.range i.portCount : Finset
          (Nat × Nat)) := by
    rintro ⟨a, b⟩ hd ⟨a', b'⟩ hd' heq
    obtain ⟨h1, h2⟩ := Prod.mk.inj heq
    rw [Finset.mem_coe, Finset.mem_product, Finset.mem_range] at hd hd'
    have hb := hd.2
    have hb' := hd'.2
    dsimp only at hb hb'
    exact Prod.ext h1 (by omega)
  rw [flowBox, hinj.ncard_image, Set.ncard_coe_finset, Finset.card_product, Nat.card_Icc,
    Finset.card_range]
  congr 1
  unfold FlowClient.ipRange
  omega

/-- What one variable has by itself, and one flow that it has not. -/
theorem lt_ncard_of_new (hp : p ∈ ps) {f : Nat × Nat} (hf : f ∈ flowsOf ps) (hnew : f ∉ p.flows) :
    p.flows.ncard < (flowsOf ps).ncard := by
  have hsub : insert f p.flows ⊆ flowsOf ps := by
    rintro g (rfl | hg)
    · exact hf
    · exact ⟨p, hp, hg⟩
  have hle := Set.ncard_le_ncard hsub (flowsOf_finite ps)
  rw [Set.ncard_insert_of_notMem hnew p.flows_finite] at hle
  exact hle

/-- Every variable comes with its first flow. -/
theorem first_mem (hp : p ∈ ps) : (p.clientMin.toNat, p.bssPort) ∈ flowsOf ps := by
  refine ⟨p, hp, ?_⟩
  rw [p.flows_eq]
  refine ⟨0, ?_, p.flowAt_zero⟩
  have hpos := p.flowCount_pos
  change 0 < p.flowEnd
  unfold FlowClient.flowEnd
  split
  · rename_i hre
    have := hre.2.1
    omega
  · exact hpos

section Box

variable {i : FlowClient} (hle : i.clientMin.toNat ≤ i.clientMax.toNat) (hlast : i.clientMax.toNat ≠
    2 ^ 32 - 1)

include hle hlast

theorem flowAt_mem_flowBox (j : Nat) : i.flowAt j ∈ flowBox i := by
  have hmax := i.clientMax.toNat_lt
  have hcount : i.ipCount = i.clientMax.toNat - i.clientMin.toNat + 1 := if_neg hlast
  have hlow := odometer_fst_lt i.ipCount_pos i.portCount j
  have hhigh := odometer_snd_lt i.portCount_pos i.ipCount j
  refine ⟨(i.clientMin.toNat + (odometer i.ipCount i.portCount j).1,
    (odometer i.ipCount i.portCount j).2), ?_, ?_⟩
  · rw [Finset.mem_coe, Finset.mem_product, Finset.mem_Icc, Finset.mem_range]
    exact ⟨⟨Nat.le_add_right _ _, by dsimp only; omega⟩, hhigh⟩
  · refine Prod.ext ?_ rfl
    dsimp only [FlowClient.flowAt]
    omega

theorem flows_subset_flowBox : i.flows ⊆ flowBox i := by
  rintro _ ⟨k, rfl⟩
  exact flowAt_mem_flowBox hle hlast _

/-- **A variable that comes to its end has all flows.** -/
theorem flows_eq_flowBox (hfull : i.flowCount ≤ i.flowEnd) : i.flows = flowBox i := by
  have hcount : i.flowCount = i.ipRange * i.portCount := by
    rw [FlowClient.flowCount, FlowClient.ipCount, if_neg hlast, FlowClient.ipRange]
  have hfinite : (flowBox i).Finite := Set.Finite.image _ (Finset.finite_toSet _)
  refine Set.eq_of_subset_of_ncard_le (flows_subset_flowBox hle hlast) ?_ hfinite
  rw [ncard_flowBox hle, i.ncard_flows, Nat.min_eq_right hfull, hcount]

end Box

namespace PartsOf

variable {i : FlowClient} {ps : List FlowClient} (h : PartsOf i ps)

include h

theorem le : i.clientMin.toNat ≤ i.clientMax.toNat := h.tiles.le

section Member

variable {p : FlowClient} (hp : p ∈ ps)

include hp

theorem inside : i.clientMin.toNat ≤ p.clientMin.toNat ∧ p.clientMin.toNat ≤ p.clientMax.toNat ∧
    p.clientMax.toNat ≤ i.clientMax.toNat :=
  h.tiles.inside _ (mem_map_of_mem hp)

theorem varName : p.varName = i.varName := by rw [h.same p hp]

theorem limit : p.limitNumFlows = i.limitNumFlows := by rw [h.same p hp]

theorem bssPort : p.bssPort = i.bssPort := by
  rw [h.same p hp]
  rfl

theorem ordered (hport : i.portMin.toNat ≤ i.portMax.toNat) : p.Ordered := by
  refine ⟨(h.inside hp).2.1, ?_⟩
  rw [h.same p hp]
  exact hport

theorem portCount (hlast : i.clientMax.toNat ≠ 2 ^ 32 - 1) : p.portCount = i.portCount := by
  obtain ⟨-, -, hle⟩ := h.inside hp
  have hmax := i.clientMax.toNat_lt
  have hsame := h.same p hp
  have hplast : p.clientMax.toNat ≠ 2 ^ 32 - 1 := by omega
  rw [FlowClient.portCount, FlowClient.portCount, if_neg hlast, if_neg hplast, hsame]
  rfl

theorem last_ne (hlast : i.clientMax.toNat ≠ 2 ^ 32 - 1) : p.clientMax.toNat ≠ 2 ^ 32 - 1 := by
  obtain ⟨-, -, hle⟩ := h.inside hp
  have hmax := i.clientMax.toNat_lt
  omega

theorem flowBox_subset (hlast : i.clientMax.toNat ≠ 2 ^ 32 - 1) : flowBox p ⊆ flowBox i := by
  obtain ⟨hlo, -, hhi⟩ := h.inside hp
  unfold flowBox
  rw [h.bssPort hp, h.portCount hp hlast]
  refine Set.image_mono fun d hd => ?_
  rw [Finset.mem_coe, Finset.mem_product, Finset.mem_Icc] at hd ⊢
  exact ⟨⟨le_trans hlo hd.1.1, le_trans hd.1.2 hhi⟩, hd.2⟩

end Member

/-- **All flows of the parts are flows of the instruction.** -/
theorem flowsOf_subset (hlast : i.clientMax.toNat ≠ 2 ^ 32 - 1) : flowsOf ps ⊆ flowBox i := by
  rintro f ⟨p, hp, hf⟩
  exact h.flowBox_subset hp hlast (flows_subset_flowBox (h.inside hp).2.1 (h.last_ne hp hlast) hf)

/-- **Parts that all come to their end have all flows of the instruction.** -/
theorem flowsOf_eq (hlast : i.clientMax.toNat ≠ 2 ^ 32 - 1)
    (hfull : ∀ p ∈ ps, p.flowCount ≤ p.flowEnd) :
    flowsOf ps = flowBox i := by
  refine Set.Subset.antisymm (h.flowsOf_subset hlast) ?_
  rintro _ ⟨d, hd, rfl⟩
  rw [Finset.mem_coe, Finset.mem_product, Finset.mem_Icc, Finset.mem_range] at hd
  obtain ⟨⟨hlo, hhi⟩, hport⟩ := hd
  obtain ⟨j, ⟨r, hr, hrlo, hrhi⟩, -⟩ := h.tiles.existsUnique hlo hhi
  rw [List.getElem?_map, Option.map_eq_some_iff] at hr
  obtain ⟨p, hj, rfl⟩ := hr
  have hp : p ∈ ps := mem_of_getElem? hj
  refine ⟨p, hp, ?_⟩
  rw [flows_eq_flowBox (h.inside hp).2.1 (h.last_ne hp hlast) (hfull p hp)]
  refine ⟨d, ?_, ?_⟩
  · rw [Finset.mem_coe, Finset.mem_product, Finset.mem_Icc, Finset.mem_range, h.portCount hp hlast]
    exact ⟨⟨hrlo, hrhi⟩, hport⟩
  · dsimp only
    rw [h.bssPort hp]

/-! ## 2. One more than the limit -/

/-- Two parts have no address in common. -/
theorem disjoint {j j' : Nat} {p' : FlowClient} (hj : ps[j]? = some p) (hj' : ps[j']? = some p')
    (hne : j ≠ j') {ip : Nat} (hlo : p.clientMin.toNat ≤ ip) (hhi : ip ≤ p.clientMax.toNat) :
    ¬ (p'.clientMin.toNat ≤ ip ∧ ip ≤ p'.clientMax.toNat) := by
  have hr : (ps.map fun p => (p.clientMin.toNat, p.clientMax.toNat))[j]? =
      some (p.clientMin.toNat, p.clientMax.toNat) := by
    rw [List.getElem?_map, hj]
    rfl
  have hr' : (ps.map fun p => (p.clientMin.toNat, p.clientMax.toNat))[j']? =
      some (p'.clientMin.toNat, p'.clientMax.toNat) := by
    rw [List.getElem?_map, hj']
    rfl
  exact h.tiles.disjoint hr hr' hne hlo hhi

/-- **A part that starts again before its end has as many flows as the limit says**, and another
part one more. -/
theorem limit_lt_of_short (hlast : i.clientMax.toNat ≠ 2 ^ 32 - 1) (hlen : 2 ≤ ps.length)
    (hp : p ∈ ps) (hshort : p.flowEnd < p.flowCount) :
    i.limitNumFlows.toNat < (flowsOf ps).ncard := by
  have hown : i.limitNumFlows.toNat ≤ p.flows.ncard := by
    have hre : p.restarts := by
      by_contra hnot
      rw [FlowClient.flowEnd, if_neg hnot] at hshort
      exact Nat.lt_irrefl _ hshort
    rw [p.ncard_flows, Nat.min_eq_left hshort.le, FlowClient.flowEnd, if_pos hre, h.limit hp]
    exact Nat.le_add_right _ _
  obtain ⟨j, hj⟩ := List.getElem?_of_mem hp
  obtain ⟨j', hj', hne⟩ : ∃ j' < ps.length, j ≠ j' := by
    by_cases hzero : j = 0
    · exact ⟨1, hlen, by omega⟩
    · exact ⟨0, by omega, hzero⟩
  have hp' := getElem_mem hj'
  refine lt_of_le_of_lt hown (lt_ncard_of_new hp (first_mem hp') fun hmem => ?_)
  obtain ⟨d, hd, heq⟩ := flows_subset_flowBox (h.inside hp).2.1 (h.last_ne hp hlast) hmem
  rw [Finset.mem_coe, Finset.mem_product, Finset.mem_Icc] at hd
  have hip : d.1 = ps[j'].clientMin.toNat := congrArg Prod.fst heq
  exact h.disjoint (List.getElem?_eq_getElem hj') hj (Ne.symm hne) (Nat.le_refl _)
    (h.inside hp').2.1 (hip ▸ hd.1)

/-- **A part that reaches the last address goes on with address 0**, and with the limit comes before
it has gone all around to the addresses of the part before it. -/
theorem limit_lt_of_last (hlast : i.clientMax.toNat = 2 ^ 32 - 1) (hlen : 2 ≤ ps.length) :
    i.limitNumFlows.toNat < (flowsOf ps).ncard := by
  have hlim := i.limitNumFlows.toNat_lt
  obtain ⟨j, ⟨r, hr, hrlo, hrhi⟩, -⟩ :=
    h.tiles.existsUnique (v := 2 ^ 32 - 1) (hlast ▸ h.le) (by omega)
  rw [List.getElem?_map, Option.map_eq_some_iff] at hr
  obtain ⟨p, hj, rfl⟩ := hr
  have hp : p ∈ ps := mem_of_getElem? hj
  obtain ⟨hmin, hple, hmax⟩ := h.inside hp
  have hplast : p.clientMax.toNat = 2 ^ 32 - 1 := by
    dsimp only at hrhi
    omega
  have hips : p.ipCount = 2 ^ 32 := if_pos hplast
  have hports : p.portCount = 1 := if_pos hplast
  have hcount : p.flowCount = 2 ^ 32 := by rw [FlowClient.flowCount, hips, hports, Nat.mul_one]
  by_cases hre : p.restarts
  · -- the part that ends where this one begins
    obtain ⟨j', hj', hne⟩ : ∃ j' < ps.length, j ≠ j' := by
      by_cases hzero : j = 0
      · exact ⟨1, hlen, by omega⟩
      · exact ⟨0, by omega, hzero⟩
    have hbelow : i.clientMin.toNat < p.clientMin.toNat := by
      obtain ⟨hlo, hle, -⟩ := h.inside (getElem_mem hj')
      have hdis := h.disjoint (List.getElem?_eq_getElem hj') hj (Ne.symm hne) (Nat.le_refl _) hle
      have hother := ps[j'].clientMin.toNat_lt
      omega
    obtain ⟨k, ⟨r', hr', hlo', hhi'⟩, -⟩ :=
      h.tiles.existsUnique (v := p.clientMin.toNat - 1) (by omega) (by omega)
    rw [List.getElem?_map, Option.map_eq_some_iff] at hr'
    obtain ⟨q, hk, rfl⟩ := hr'
    have hq : q ∈ ps := mem_of_getElem? hk
    dsimp only at hlo' hhi'
    have hkj : j ≠ k := by
      rintro rfl
      rw [hj] at hk
      cases hk
      omega
    have hqmax : q.clientMax.toNat = p.clientMin.toNat - 1 := by
      obtain ⟨-, hqle, -⟩ := h.inside hq
      have hdis := h.disjoint hk hj (Ne.symm hkj) hqle (Nat.le_refl _)
      have hother := q.clientMax.toNat_lt
      omega
    have hend : p.flowEnd = i.limitNumFlows.toNat := by
      rw [FlowClient.flowEnd, if_pos hre, h.limit hp, FlowClient.firstFlow, if_neg (by omega)]
      rfl
    have hown : p.flows.ncard = i.limitNumFlows.toNat := by
      rw [p.ncard_flows, hend, hcount]
      omega
    -- the last one of its flows that comes for sure
    have hqips : q.ipCount = q.clientMax.toNat - q.clientMin.toNat + 1 := if_neg (by omega)
    obtain ⟨-, hpos, -⟩ := hre
    rw [h.limit hp] at hpos
    obtain ⟨t, ht, htlim, htlast⟩ : ∃ t < q.ipCount, t < i.limitNumFlows.toNat ∧
        (t + 1 = i.limitNumFlows.toNat ∨ t + 1 = q.ipCount) := by
      by_cases hlt : i.limitNumFlows.toNat ≤ q.ipCount
      · exact ⟨i.limitNumFlows.toNat - 1, by omega, by omega, Or.inl (by omega)⟩
      · exact ⟨q.ipCount - 1, by omega, by omega, Or.inr (by omega)⟩
    have hqend : t < q.flowEnd := by
      unfold FlowClient.flowEnd
      split
      · rw [h.limit hq]
        omega
      · exact lt_of_lt_of_le ht (Nat.le_mul_of_pos_right _ q.portCount_pos)
    have hqflow : ((q.clientMin.toNat + t) % 2 ^ 32, q.bssPort) ∈ flowsOf ps := by
      refine ⟨q, hq, ?_⟩
      rw [q.flows_eq]
      exact ⟨t, hqend, FlowClient.flowAt_of_lt ht⟩
    rw [← hown]
    refine lt_ncard_of_new hp hqflow fun hmem => ?_
    rw [p.flows_eq, hend] at hmem
    obtain ⟨d, hd, heq⟩ := hmem
    have hd' : d < i.limitNumFlows.toNat := hd
    rw [FlowClient.flowAt_of_lt (by omega), Prod.mk.injEq] at heq
    omega
  · have hown : p.flows.ncard = 2 ^ 32 := by
      rw [p.ncard_flows, FlowClient.flowEnd, if_neg hre, hcount, Nat.min_self]
    have hsub : p.flows ⊆ flowsOf ps := fun f hf => ⟨p, hp, hf⟩
    have hle := Set.ncard_le_ncard hsub (flowsOf_finite ps)
    omega

/-- **The parts keep the limit exactly if all their flows are not more.** -/
theorem ncard_le_iff (hlen : 2 ≤ ps.length) : (flowsOf ps).ncard ≤ i.limitNumFlows.toNat ↔
    i.clientMax.toNat ≠ 2 ^ 32 - 1 ∧ i.ipRange * i.portCount ≤ i.limitNumFlows.toNat := by
  constructor
  · intro hle
    have hlast : i.clientMax.toNat ≠ 2 ^ 32 - 1 :=
      fun hlast => absurd (h.limit_lt_of_last hlast hlen) (by omega)
    refine ⟨hlast, ?_⟩
    have hfull : ∀ p ∈ ps, p.flowCount ≤ p.flowEnd := by
      intro p hp
      by_contra hshort
      exact absurd (h.limit_lt_of_short hlast hlen hp (by omega)) (by omega)
    rwa [h.flowsOf_eq hlast hfull, ncard_flowBox h.le] at hle
  · rintro ⟨hlast, hle⟩
    refine le_trans (Set.ncard_le_ncard (h.flowsOf_subset hlast) ?_) ?_
    · exact Set.Finite.image _ (Finset.finite_toSet _)
    · rwa [ncard_flowBox h.le]

end PartsOf

/-! ## 3. The VMs of the cores -/

/-- Every core runs the whole instruction: there is only one core, or the splitter leaves the range
as it is. -/
def FlowClient.RunsWhole (i : FlowClient) (n : Nat) :
    Prop := n = 1 ∨ i.ipRange < n ∨ i.ipRange = 2 ^ 32

/-- The instruction of every core is the whole one or a part. -/
structure CoreClients (i : FlowClient) (n : Nat) (ps : List FlowClient) : Prop where
  length : ps.length = n
  whole : FlowClient.RunsWhole i n → ps = List.replicate n i
  parts : ¬ FlowClient.RunsWhole i n → PartsOf i ps

theorem ipRange_eq_iff (i : FlowClient) :
    i.ipRange = 2 ^ 32 ↔ i.clientMin = 0 ∧ i.clientMax = 0xFFFFFFFF := by
  have hmax := i.clientMax.toNat_lt
  rw [← UInt32.toNat_inj, ← UInt32.toNat_inj]
  have hzero : (0 : UInt32).toNat = 0 := rfl
  have hfull : (0xFFFFFFFF : UInt32).toNat = 2 ^ 32 - 1 := rfl
  rw [hzero, hfull, FlowClient.ipRange]
  omega

/-- One core gets the range as it is, also when it is the wrong way round and its size wraps. -/
theorem clientParts_one (i : FlowClient) :
    (clientParts i 1).map (fun r => perCoreFlowClient i r.1 r.2) = [i] := by
  have hmin : i.clientMin.toUInt64.toUInt32 = i.clientMin := UInt32.toUInt32_toUInt64 _
  have hmax : (i.clientMin.toUInt64 + (getIpRange i).toUInt64 / UInt64.ofNat 1 +
      (getIpRange i).toUInt64 % UInt64.ofNat 1 - 1).toUInt32 = i.clientMax := by
    have h1 := i.clientMin.toNat_lt
    have h2 := i.clientMax.toNat_lt
    rw [← UInt32.toNat_inj]
    simp only [getIpRange, UInt64.toNat_toUInt32, UInt64.toNat_sub, UInt64.toNat_add,
      UInt64.toNat_div, UInt64.toNat_mod, UInt64.ofNat_one, UInt64.toNat_one, Nat.div_one,
      Nat.mod_one, UInt32.toNat_toUInt64, UInt32.toNat_add, UInt32.toNat_sub, UInt32.toNat_one]
    omega
  rw [clientParts, partsOf, splitRanges, splitRanges, map_cons, map_nil,
    perCoreFlowClient, hmin, hmax]

/-- **The VMs of the cores are that of the stream with another client instruction**, for a range in
order, and for one core. -/
theorem coreVms_of_split {rand : Nat → Nat} {s : TrexStream} {cores cores' : List TrexStream}
    (hfresh : ∀ c ∈ cores, c.vm = {} ∧ c.pkt.len = s.pkt.len) (hn : 0 < cores.length)
    (h : split rand s cores = .ok cores') {k : Nat}
    (hget : s.vm.getSplitInstruction = some (k, .flowClient i))
    (hle : i.clientMin.toNat ≤ i.clientMax.toNat ∨ cores.length = 1) :
    ∃ ps, CoreClients i cores.length ps ∧
      cores'.map (coreVm s) = ps.map fun p => s.vm.setInstr k (.flowClient p) := by
  have hk : s.vm.instList[k]? = some (.flowClient i) := getSplitInstruction_get hget
  have hne := isVmEmpty_of_get hk
  have hmap : ∀ vms : List StreamVm, cores'.map TrexStream.vm = vms →
      cores'.map (coreVm s) = vms.map fun vm => if vm.isVmEmpty then s.vm else vm := by
    rintro _ rfl
    rw [map_map]
    rfl
  by_cases hlt : (getIpRange i).toNat < cores.length
  · obtain ⟨hvms, -⟩ := split_cloned hfresh hne (splitInternal_client_none rand hget hlt) h
    have hwhole : FlowClient.RunsWhole i cores.length := by
      rcases hle with hle | hone
      · by_cases hfull : i.ipRange = 2 ^ 32
        · exact Or.inr (Or.inr hfull)
        · rw [getIpRange_toNat hle fun hall => hfull ((ipRange_eq_iff i).mpr hall)] at hlt
          exact Or.inr (Or.inl hlt)
      · exact Or.inl hone
    have hself : s.vm.setInstr k (.flowClient i) = s.vm := by
      obtain ⟨hlt, hval⟩ := List.getElem?_eq_some_iff.mp hk
      rw [StreamVm.setInstr, ← hval, set_getElem_self]
    refine ⟨List.replicate cores.length i,
      ⟨length_replicate, fun _ => rfl, fun hnot => absurd hwhole hnot⟩, ?_⟩
    rw [hmap _ hvms, map_map, map_replicate, hself, ← map_const']
    rfl
  · have hge := Nat.not_lt.mp hlt
    obtain ⟨hvms, -⟩ := split_parts hfresh hk (splitInternal_client_parts rand hget hge) h
    have hlen : ((clientParts i cores.length).map fun r =>
        perCoreFlowClient i r.1 r.2).length = cores.length := by
      rw [length_map, clientParts, partsOf, length_splitRanges]
    refine ⟨_, ⟨hlen, fun hwhole => ?_, fun hnot => ?_⟩, ?_⟩
    · -- only one core runs a whole range that is split
      have hone : cores.length = 1 := by
        rcases hwhole with hone | hsmall
        · exact hone
        · refine hle.resolve_left fun hle => ?_
          rcases hsmall with hsmall | hall
          · have hlt := (getIpRange i).toNat_lt
            have hfull : i.ipRange ≠ 2 ^ 32 := by omega
            rw [getIpRange_toNat hle fun hall => hfull ((ipRange_eq_iff i).mpr hall)] at hge
            exact absurd hge (Nat.not_le.mpr hsmall)
          · obtain ⟨hmin, hmax⟩ := (ipRange_eq_iff i).mp hall
            rw [getIpRange_full hmin hmax] at hge
            omega
      rw [hone, clientParts_one]
      rfl
    · have hle' : i.clientMin.toNat ≤ i.clientMax.toNat :=
        hle.resolve_right fun hone => hnot (Or.inl hone)
      have hfull : ¬ (i.clientMin = 0 ∧ i.clientMax = 0xFFFFFFFF) := fun hall =>
        hnot (Or.inr (Or.inr ((ipRange_eq_iff i).mpr hall)))
      rw [getIpRange_toNat hle' hfull] at hge
      have htiles := clientParts_tiles hn hle' hge hfull
      refine ⟨?_, ?_⟩
      · intro p hp
        obtain ⟨r, -, rfl⟩ := mem_map.mp hp
        rfl
      · rw [perCoreFlowClient_ranges htiles]
        exact htiles
    · rw [hmap _ hvms, map_map, map_map]
      refine map_congr_left fun r _ => ?_
      exact if_neg (by simp [isVmEmpty_of_get (setInstr_get hk _)])

/-! ## 4. The cores run -/

/-- A core that runs a VM: the program, the flow variables, and where the client variable is in
them. -/
structure RunningCore where
  program : List UInt8
  flowVar : Mem
  off : Nat

/-- The core generates a packet. -/
def RunningCore.step (pkt : Mem) (x : RunningCore) : Except Fault RunningCore := do
  let s ← runnerRun x.program ⟨x.flowVar, pkt⟩
  .ok { x with flowVar := s.flowVar }

/-- The address and the port that the client variable has. -/
def RunningCore.flow (x : RunningCore) :
    Nat × Nat := (x.flowVar.load x.off 4, x.flowVar.load (x.off + 4) 2)

/-- **A core starts with the compiled VM of its stream.** -/
def Started (s : TrexStream) (name : String) (core : TrexStream) (x : RunningCore) : Prop :=
  ∃ rand c, compile rand (coreVm s core).instList s.pkt.len = .ok (some c) ∧ x.program = c.program ∧
    x.flowVar.read 0 c.bss.length = c.bss ∧ c.table.varLookup (name ++ ".ip") = some ⟨x.off, 4⟩

/-- The core has made `e` steps with client instruction `p`. -/
def Stepped (s : TrexStream) (k : Nat) (p : FlowClient) (e : Nat) (x : RunningCore) : Prop :=
  ∃ rand c env, compile rand (s.vm.setInstr k (.flowClient p)).instList s.pkt.len = .ok (some c) ∧
    x.program = c.program ∧ c.table.varLookup (p.varName ++ ".ip") = some ⟨x.off, 4⟩ ∧
      Rep c.table x.flowVar env ∧
    p.get env = p.next^[e] p.start

section Running

variable {s : TrexStream} {k : Nat} {i : FlowClient} (hk : s.vm.instList[k]? = some (.flowClient i))

include hk

theorem mem_setInstr (p : FlowClient) :
    Instr.flowClient p ∈ (s.vm.setInstr k (.flowClient p)).instList :=
  mem_of_getElem? (setInstr_get hk _)

/-- The random instructions of a core are those of the stream. -/
theorem noWholeRange_setInstr (p : FlowClient) :
    NoWholeRange (s.vm.setInstr k (.flowClient p)).instList ↔ NoWholeRange s.vm.instList := by
  have hmem : ∀ m, Instr.flowMan m ∈ (s.vm.setInstr k (.flowClient p)).instList ↔
      Instr.flowMan m ∈ s.vm.instList := by
    intro m
    simp only [mem_iff_getElem?, StreamVm.setInstr, List.getElem?_set]
    refine exists_congr fun j => ?_
    by_cases hjk : k = j
    · subst hjk
      rw [if_pos rfl, hk]
      split <;> simp
    · rw [if_neg hjk]
  exact forall_congr' fun m => by rw [hmem m]

variable {x : RunningCore} {e : Nat}

/-- A core that has started has made no step. -/
theorem stepped_of_started {core : TrexStream} (hname : p.varName = i.varName)
    (hvm : coreVm s core = s.vm.setInstr k (.flowClient p)) (h : Started s i.varName core x) :
    Stepped s k p 0 x := by
  obtain ⟨rand, c, hc, hprogram, hbss, hoff⟩ := h
  rw [hvm] at hc
  obtain ⟨ops, hp⟩ := passed_of_compile hc
  rw [← hname] at hoff
  exact ⟨rand, c, _, hc, hprogram, hoff, rep_bss hc hbss, get_initVars hp.table (mem_setInstr hk p)⟩

/-- **A step takes the next flow.** -/
theorem stepped_step (hp : p.Regular) {x' : RunningCore} {pkt : Mem} (h : Stepped s k p e x)
    (hstep : x.step pkt = .ok x') :
    Stepped s k p (e + 1) x' ∧ x'.flow = p.flowAt (p.flowIndex e) := by
  obtain ⟨rand, c, env, hc, hprogram, hoff, hrep, hget⟩ := h
  obtain ⟨r, hr, hstep⟩ := bind_eq_ok hstep
  cases hstep
  obtain ⟨ops, hpass⟩ := passed_of_compile hc
  rw [hprogram] at hr
  have hsim := sim_compile hc (s := ⟨x.flowVar, pkt⟩) (n := ⟨env, pkt⟩) ⟨hrep, rfl⟩
  obtain ⟨n, hn, hsim⟩ := hsim.ok_left hr
  have hnext : p.get n.vars = p.next^[e + 1] p.start := by
    rw [execAll_client hpass.table (mem_setInstr hk p) hn, hget, Function.iterate_succ_apply']
  refine ⟨⟨rand, c, n.vars, hc, hprogram, hoff, hsim.vars, hnext⟩, ?_⟩
  obtain ⟨off, hip, hport, hlim, -⟩ := lookup_flowClient hpass.table (mem_setInstr hk p)
  obtain rfl : x.off = off := congrArg VmFlowVarRec.offset (Option.some.inj (hoff.symm.trans hip))
  have hload : loadClient r.flowVar x.off = p.next^[e + 1] p.start := by
    rw [loadClient_eq hsim.vars hip hport hlim, hnext]
  rw [← (FlowClient.iterate_next hp e).1, ← hload]
  rfl

/-- A program that divides by zero makes no step. -/
theorem noWholeRange_of_step {x' : RunningCore} {pkt : Mem} (h : Stepped s k p e x)
    (hstep : x.step pkt = .ok x') : NoWholeRange s.vm.instList := by
  obtain ⟨rand, c, env, hc, hprogram, -, hrep, -⟩ := h
  obtain ⟨r, hr, -⟩ := bind_eq_ok hstep
  obtain ⟨ops, hpass⟩ := passed_of_compile hc
  rw [hprogram] at hr
  have hsim := sim_compile hc (s := ⟨x.flowVar, pkt⟩) (n := ⟨env, pkt⟩) ⟨hrep, rfl⟩
  obtain ⟨n, hn, -⟩ := hsim.ok_left hr
  exact (noWholeRange_setInstr hk p).mp
    ((spansNonzero_iff hpass.table).mp ((execFrom_ok_iff _ _ _).mp ⟨n, hn⟩))

/-- Without a division by zero there is always a next step. -/
theorem stepped_ok (hspan : NoWholeRange s.vm.instList) (h : Stepped s k p e x) (pkt : Mem) :
    ∃ x', x.step pkt = .ok x' := by
  obtain ⟨rand, c, env, hc, hprogram, -, hrep, -⟩ := h
  obtain ⟨ops, hpass⟩ := passed_of_compile hc
  have hspan' := (noWholeRange_setInstr hk p).mpr hspan
  obtain ⟨n, hn⟩ := (execFrom_ok_iff _ _ ⟨env, pkt⟩).mpr ((spansNonzero_iff hpass.table).mpr hspan')
  have hsim := sim_compile hc (s := ⟨x.flowVar, pkt⟩) (n := ⟨env, pkt⟩) ⟨hrep, rfl⟩
  obtain ⟨r, hr, -⟩ := hsim.ok_right hn
  refine ⟨{ x with flowVar := r.flowVar }, ?_⟩
  rw [RunningCore.step, hprogram, hr]
  rfl

end Running

/-- **No schedule of the cores brings more flows than the limit.**  A schedule has the number of a
core and a packet for every step. -/
def LimitKept (limit : Nat) (xs : List RunningCore) : Prop :=
  ∀ sched ys, outputs RunningCore.step RunningCore.flow xs sched = .ok ys → ys.toFinset.card ≤ limit

/-- The ranges are in order, or one core runs them the wrong way round. -/
def FlowClient.Usual (i : FlowClient) (n : Nat) : Prop := i.Ordered ∨ n = 1 ∧ i.Regular

theorem FlowClient.Usual.regular (h : FlowClient.Usual i n) : i.Regular := by
  rcases h with hordered | ⟨-, hregular⟩
  · exact hordered.regular
  · exact hregular

/-- **When the cores keep the limit**: on every core runs the whole instruction, which does; or the
parts have not more flows in all. -/
structure FlowClient.KeepsLimit (i : FlowClient) (n : Nat) : Prop where
  usual : FlowClient.Usual i n
  whole : FlowClient.RunsWhole i n →
    (i.restarts ∧ i.firstFlow = 0) ∨ i.flowCount ≤ i.limitNumFlows.toNat
  parts : ¬ FlowClient.RunsWhole i n →
    i.clientMax.toNat ≠ 2 ^ 32 - 1 ∧ i.ipRange * i.portCount ≤ i.limitNumFlows.toNat

section Cores

variable {rand : Nat → Nat} {s : TrexStream} {cores cores' : List TrexStream}
  (hfresh : ∀ c ∈ cores, c.vm = {} ∧ c.pkt.len = s.pkt.len) (hn : 0 < cores.length)
  (h : split rand s cores = .ok cores') {k : Nat} {i : FlowClient}
  (hget : s.vm.getSplitInstruction = some (k, .flowClient i))

/-- The flows of the whole instruction or the parts are within the limit. -/
theorem CoreClients.ncard_le_iff (hps : CoreClients i n ps) (hn : 0 < n)
    (hi : FlowClient.Usual i n) :
    (flowsOf ps).ncard ≤ i.limitNumFlows.toNat ↔ FlowClient.KeepsLimit i n := by
  by_cases hwhole : FlowClient.RunsWhole i n
  · rw [hps.whole hwhole, flowsOf_replicate i hn, FlowClient.ncard_flows_le_iff]
    exact ⟨fun hle => ⟨hi, fun _ => hle, fun hnot => absurd hwhole hnot⟩, fun hkeeps =>
      hkeeps.whole hwhole⟩
  · have hlen : 2 ≤ ps.length := by
      have hone : n ≠ 1 := fun hone => hwhole (Or.inl hone)
      have := hps.length
      omega
    rw [(hps.parts hwhole).ncard_le_iff hlen]
    exact ⟨fun hle => ⟨hi, fun hyes => absurd hyes hwhole, fun _ => hle⟩, fun hkeeps =>
      hkeeps.parts hwhole⟩

include hfresh hn h hget

/-- **The cores keep the limit exactly if what they generate together does.** -/
theorem limitKept_iff (hi : FlowClient.Usual i cores.length) {xs : List RunningCore}
    (hxs : List.Forall₂ (Started s i.varName) cores' xs) :
    LimitKept i.limitNumFlows.toNat xs ↔
        (NoWholeRange s.vm.instList → FlowClient.KeepsLimit i cores.length) := by
  have hk : s.vm.instList[k]? = some (.flowClient i) := getSplitInstruction_get hget
  obtain ⟨ps, hps, hvms⟩ :=
    coreVms_of_split hfresh hn h hget (hi.imp FlowClient.Ordered.ip And.left)
  have hmem : ∀ p ∈ ps, p.Regular ∧ p.varName = i.varName := by
    intro p hp
    by_cases hwhole : FlowClient.RunsWhole i cores.length
    · rw [hps.whole hwhole] at hp
      rw [eq_of_mem_replicate hp]
      exact ⟨hi.regular, rfl⟩
    · have hordered : i.Ordered := hi.resolve_right fun hone => hwhole (Or.inl hone.1)
      exact ⟨((hps.parts hwhole).ordered hp hordered.port).regular, (hps.parts hwhole).varName hp⟩
  have hlen : xs.length = ps.length := by
    rw [← hxs.length_eq]
    simpa using congrArg List.length hvms
  let Q : Nat → Nat → RunningCore → Prop := fun j e x => ∃ p, ps[j]? = some p ∧ Stepped s k p e x
  let F : Nat → Nat → Nat × Nat := fun j t => (ps.getD j i).flowAt ((ps.getD j i).flowIndex t)
  have hy : Yields RunningCore.step RunningCore.flow Q F := by
    refine ⟨fun j e x pkt x' hQ hstep => ?_⟩
    obtain ⟨p, hp, hQ⟩ := hQ
    obtain ⟨hQ', hflow⟩ := stepped_step hk (hmem p (mem_of_getElem? hp)).1 hQ hstep
    refine ⟨⟨p, hp, hQ'⟩, ?_⟩
    have hgetD : ps.getD j i = p := by rw [getD_eq_getElem?_getD, hp, Option.getD_some]
    dsimp only [F]
    rw [hflow, hgetD]
  have hst : Standing Q xs fun _ => 0 := by
    intro j x hx
    obtain ⟨hj, rfl⟩ := List.getElem?_eq_some_iff.mp hx
    have hj' : j < cores'.length := hxs.length_eq ▸ hj
    have hjp : j < ps.length := hlen ▸ hj
    refine ⟨ps[j], List.getElem?_eq_getElem hjp, ?_⟩
    have hvm := congrArg (fun l => l[j]?) hvms
    simp only [List.getElem?_map, List.getElem?_eq_getElem hj', List.getElem?_eq_getElem hjp,
      Option.map_some, Option.some.injEq] at hvm
    have hstarted := hxs.get hj' hj
    exact stepped_of_started hk (hmem _ (getElem_mem hjp)).2 hvm hstarted
  have hunion : (⋃ j ∈ {j | j < xs.length}, Set.range (F j)) = flowsOf ps := by
    ext f
    rw [hlen]
    simp only [Set.mem_iUnion, flowsOf]
    constructor
    · rintro ⟨j, hj, hf⟩
      have hgetD : ps.getD j i = ps[j] := by
        rw [getD_eq_getElem?_getD, List.getElem?_eq_getElem hj, Option.getD_some]
      refine ⟨ps[j], getElem_mem hj, ?_⟩
      rw [← hgetD]
      exact hf
    · rintro ⟨p, hp, hf⟩
      obtain ⟨j, hj, rfl⟩ := getElem_of_mem hp
      have hgetD : ps.getD j i = ps[j] := by
        rw [getD_eq_getElem?_getD, List.getElem?_eq_getElem hj, Option.getD_some]
      refine ⟨j, hj, ?_⟩
      dsimp only [F]
      rw [hgetD]
      exact hf
  have hfin : ∀ j < xs.length, (Set.range (F j)).Finite := fun j _ => (ps.getD j i).flows_finite
  rw [← hps.ncard_le_iff hn hi, ← hunion]
  by_cases hspan : NoWholeRange s.vm.instList
  · have hgo : ∀ j e x pkt, Q j e x → ∃ x', RunningCore.step pkt x = .ok x' := by
      rintro j e x pkt ⟨p, -, hQ⟩
      exact stepped_ok hk hspan hQ pkt
    rw [LimitKept, outputs_card_le_iff hy hgo hst (fun _ => 0) hfin]
    exact ⟨fun hle _ => hle, fun hle => hle hspan⟩
  · refine iff_of_true (fun sched ys hrun => ?_) fun hspan' => absurd hspan' hspan
    have hnone : ys = [] := by
      refine outputs_stuck ?_ hrun
      intro x hx pkt x' hstep
      obtain ⟨j, hj⟩ := List.getElem?_of_mem hx
      obtain ⟨p, -, hQ⟩ := hst j x hj
      exact hspan (noWholeRange_of_step hk hQ hstep)
    rw [hnone]
    exact Nat.zero_le _

/-- The cores can start. -/
theorem exists_started (hle : i.clientMin.toNat ≤ i.clientMax.toNat ∨ cores.length = 1) :
    ∃ xs, List.Forall₂ (Started s i.varName) cores' xs := by
  have hk : s.vm.instList[k]? = some (.flowClient i) := getSplitInstruction_get hget
  obtain ⟨ps, hps, hvms⟩ := coreVms_of_split hfresh hn h hget hle
  have hone : ∀ c ∈ cores', ∃ x, Started s i.varName c x := by
    intro c hc
    obtain ⟨r, cv, -, hcv, -, -⟩ := split_objects hfresh (isVmEmpty_of_get hk) h c hc
    have hvm := mem_map_of_mem (f := coreVm s) hc
    rw [hvms] at hvm
    obtain ⟨p, hp, hvm⟩ := mem_map.mp hvm
    have hname : p.varName = i.varName := by
      by_cases hwhole : FlowClient.RunsWhole i cores.length
      · rw [hps.whole hwhole] at hp
        rw [eq_of_mem_replicate hp]
      · exact (hps.parts hwhole).varName hp
    obtain ⟨ops, hpass⟩ := passed_of_compile hcv
    have hmem := mem_setInstr hk p
    rw [hvm] at hmem
    obtain ⟨off, hoff, -⟩ := lookup_flowClient hpass.table hmem
    rw [hname] at hoff
    exact ⟨⟨cv.program, fun a => cv.bss.getD a 0, off⟩, r, cv, hcv, rfl, Mem.read_getD _, hoff⟩
  clear hvms h
  induction cores' with
  | nil => exact ⟨[], .nil⟩
  | cons c cores' ih =>
    obtain ⟨x, hx⟩ := hone c (mem_cons_self ..)
    obtain ⟨xs, hxs⟩ := ih fun c hc => hone c (mem_cons_of_mem _ hc)
    exact ⟨x :: xs, .cons hx hxs⟩

end Cores

/-- **The flow limit of a split client variable.**  The cores that `split` made keep it if the
condition holds, however they interleave; and no others do, for ranges that are in order and for
those that are the wrong way round and that one core runs, but programs that divide by zero in their
first execution and generate nothing.

The flows of a core are those of an odometer (`stepped_step`), whichever way round its ranges are;
those of all cores together are the flows of the parts, which tile the range
(`coreVms_of_split`). -/
theorem client_limit_kept (rand : Nat → Nat) (s : TrexStream) (factor : Rat) (n : Nat)
    (newId newNextId : Int32) (cores' : List TrexStream) (hn : 0 < n)
    (h : split rand s (coreStreams s factor n newId newNextId) = .ok cores') (k : Nat)
    (i : FlowClient) (hget : s.vm.getSplitInstruction = some (k, .flowClient i))
    (xs : List RunningCore) (hxs : List.Forall₂ (Started s i.varName) cores' xs) :
    (FlowClient.KeepsLimit i n → LimitKept i.limitNumFlows.toNat xs) ∧
      (FlowClient.Usual i n → NoWholeRange s.vm.instList → LimitKept i.limitNumFlows.toNat xs →
        FlowClient.KeepsLimit i n) := by
  obtain ⟨hlen, hfresh⟩ := coreStreams_fresh s factor n newId newNextId
  generalize coreStreams s factor n newId newNextId = cores at hlen hfresh h
  subst hlen
  refine ⟨fun hkeeps => ?_, fun husual hspan hkept => ?_⟩
  · exact (limitKept_iff hfresh hn h hget hkeeps.usual hxs).mpr fun _ => hkeeps
  · exact (limitKept_iff hfresh hn h hget husual hxs).mp hkept hspan

-- the addresses the wrong way round: one core has three flows
example : FlowClient.KeepsLimit ⟨"cl1", 0x10000006, 0x10000001, 1025, 1027, 4, 0⟩ 1 :=
  ⟨Or.inr ⟨rfl, Or.inr (by decide), Or.inl (by decide)⟩, fun _ => Or.inr (by decide),
    fun hnot => absurd (Or.inl rfl) hnot⟩

/-- A stream of two cores: six addresses, three ports and as many flows. -/
def eighteenFlows : TrexStream := counterStream (.flowClient { vm8Client with limitNumFlows := 18 })

theorem client_limit_kept_eighteen : ∃ cores' xs,
    split (fun _ => 0) eighteenFlows (coreStreams eighteenFlows 1 2 0 (-1)) = .ok cores' ∧
      List.Forall₂ (Started eighteenFlows "cl1") cores' xs ∧ LimitKept 18 xs := by
  obtain ⟨cores', h⟩ : ∃ cores',
      split (fun _ => 0) eighteenFlows (coreStreams eighteenFlows 1 2 0 (-1)) = .ok cores' :=
    ⟨_, rfl⟩
  obtain ⟨hlen, hfresh⟩ := coreStreams_fresh eighteenFlows 1 2 0 (-1)
  obtain ⟨xs, hxs⟩ := exists_started hfresh (by decide) h (k := 0)
    (i := { vm8Client with limitNumFlows := 18 }) rfl (Or.inl (by decide))
  refine ⟨cores', xs, h, hxs, ?_⟩
  refine (client_limit_kept (fun _ => 0) eighteenFlows 1 2 0 (-1) cores' (by decide) h 0 _ rfl xs
    hxs).1 ?_
  have hnot : ¬ FlowClient.RunsWhole { vm8Client with limitNumFlows := 18 } 2 := by
    unfold FlowClient.RunsWhole
    decide
  exact ⟨Or.inl ⟨by decide, by decide⟩, fun hwhole => absurd hwhole hnot,
    fun _ => ⟨by decide, by decide⟩⟩

/-- The stream of a test of the repository, with its limit of four flows. -/
def fourFlows : TrexStream := counterStream (.flowClient vm8Client)

/-- **Two cores go beyond the limit**: both generate as many flows as it says. -/
theorem fourFlows_not_kept : ∃ cores' xs,
    split (fun _ => 0) fourFlows (coreStreams fourFlows 1 2 0 (-1)) = .ok cores' ∧
      List.Forall₂ (Started fourFlows "cl1") cores' xs ∧ ¬ LimitKept 4 xs := by
  obtain ⟨cores', h⟩ : ∃ cores', split (fun _ => 0) fourFlows (coreStreams fourFlows 1 2 0 (-1)) =
      .ok cores' :=
    ⟨_, rfl⟩
  obtain ⟨hlen, hfresh⟩ := coreStreams_fresh fourFlows 1 2 0 (-1)
  obtain ⟨xs, hxs⟩ := exists_started hfresh (by decide) h (k := 0) (i := vm8Client) rfl
    (Or.inl (by decide))
  refine ⟨cores', xs, h, hxs, fun hkept => ?_⟩
  have hspan : NoWholeRange fourFlows.vm.instList := by
    intro m hm
    simp [fourFlows, counterStream] at hm
  have hkeeps := (limitKept_iff hfresh (by decide) h (k := 0) (i := vm8Client) rfl
    (Or.inl ⟨by decide, by decide⟩) hxs).mp hkept
    hspan
  have hnot : ¬ FlowClient.RunsWhole vm8Client 2 := by
    unfold FlowClient.RunsWhole
    decide
  exact absurd (hkeeps.parts hnot).2 (by decide)

end Trex.Stream
