/-
# The flow table and its timers

`Ok` ties the records that a manager keeps to each other: the table, the memory of the flows, the
timer handles, the wheel and the counters.  One lemma for every change that `handle_packet` and the
wheel can make, then the loop of the wheel, then a packet, then a run.

* between the calls that open or end a flow there is one flow whose timer is not running: `off`;
* `flowOf` is the table as its user sees it, from flow ids to flows.  What aging does to it, and to
  the counters, is `Aged`; what a packet does to it is `Tracked`.
-/
import Trex.Rx.Check

namespace Trex.Rx

open Trex.Lib
open Function (update update_idem update_of_ne update_self)

namespace RxCheckManager

/-! ## 1. The invariant -/

/-- The flow that the table has for an id. -/
def flowOf (m : RxCheckManager) (k : UInt64) : Option CRxCheckFlow := (m.ft.lookup k).bind m.flows

/-- **The records of a manager agree**, but the flow `off` need not have a timer. -/
structure Ok (m : RxCheckManager) (off : Option Ptr) : Prop where
  wheel : m.tw.Ok
  find : ∀ {k p}, m.ft.lookup k = some p → ∃ lf, m.flows p = some lf ∧ lf.flowId = k
  live : ∀ {p lf}, m.flows p = some lf → m.ft.lookup lf.flowId = some p
  handle : ∀ {p lf}, m.flows p = some lf → ∃ hd, m.tw.handles p = some hd ∧ hd.object = some p ∧
    hd.object1 = true ∧ hd.id = 0x1234 ∧ (off ≠ some p → hd.timer.isSome)
  owned : ∀ {p hd}, m.tw.handles p = some hd → ∃ lf, m.flows p = some lf
  fresh : ∀ p, m.fresh ≤ p → m.flows p = none
  aged : ∀ {p lf}, m.flows p = some lf → off ≠ some p → lf.agedCorrectly = false
  size : m.stats.active = m.count
  balance : m.stats.add = m.stats.remove + m.stats.active

variable {m m' m'' : RxCheckManager} {off : Option Ptr} {p : Ptr} {lf : CRxCheckFlow} {k : UInt64}

theorem create_ok : create.Ok none where
  wheel := CTimerWheel.Ok.empty
  find h := by simp [create] at h
  live h := by simp [create] at h
  handle h := by simp [create] at h
  owned h := by simp [create] at h
  fresh _ _ := rfl
  aged h := by simp [create] at h
  size := rfl
  balance := rfl

theorem getFlow_eq (h : m.flows p = some lf) : m.getFlow p = .ok lf := by
  rw [getFlow, h]

theorem Ok.flowOf_flowId (ok : m.Ok off) (h : m.flowOf k = some lf) : lf.flowId = k := by
  obtain ⟨p, hp, hlf⟩ := Option.bind_eq_some_iff.mp h
  obtain ⟨lf', hlf', hk⟩ := ok.find hp
  rw [hlf] at hlf'
  cases hlf'
  exact hk

/-- Fields that the invariant does not speak of. -/
theorem Ok.of_eq (ok : m.Ok off) (ht : m'.tw = m.tw) (hf : m'.ft = m.ft) (hl : m'.flows = m.flows)
    (hfr : m'.fresh = m.fresh) (ha : m'.stats.active = m.stats.active)
    (hb : m'.stats.add = m'.stats.remove + m'.stats.active) : m'.Ok off where
  wheel := ht ▸ ok.wheel
  find h := by rw [hl]; exact ok.find (hf ▸ h)
  live h := by rw [hf]; exact ok.live (hl ▸ h)
  handle h := by rw [ht]; exact ok.handle (hl ▸ h)
  owned h := by rw [hl]; exact ok.owned (ht ▸ h)
  fresh q hq := by rw [hl]; exact ok.fresh q (hfr ▸ hq)
  aged h := ok.aged (hl ▸ h)
  size := by rw [ha, ok.size, count, count, hf]
  balance := hb

/-! ## 2. The changes -/

variable {tw : CTimerWheel} {stats : CRxCheckFlowTableStats}

/-- The wheel, with the handles as they are. -/
theorem Ok.setWheel (ok : m.Ok off) (hw : tw.Ok) (hh : tw.handles = m.tw.handles) :
    { m with tw }.Ok off where
  wheel := hw
  find := ok.find
  live := ok.live
  handle h := by
    show ∃ hd, tw.handles _ = some hd ∧ _
    rw [hh]
    exact ok.handle h
  owned h := by
    rw [hh] at h
    exact ok.owned h
  fresh := ok.fresh
  aged := ok.aged
  size := ok.size
  balance := ok.balance

variable {hd : CFlowTimerHandle} {lf' flow : CRxCheckFlow}

/-- **The wheel starts or stops the timer of one flow.** -/
theorem Ok.retime (ok : m.Ok off) (hw : tw.Ok) {timer : Option Ptr} {off' : Option Ptr}
    (hhd : m.tw.handles p = some hd)
    (hh : tw.handles = update m.tw.handles p (some { hd with timer }))
    (hself : off' ≠ some p → timer.isSome) (hother : ∀ q ≠ p, off' ≠ some q → off ≠ some q)
    (haged : ∀ lf, m.flows p = some lf → off' ≠ some p → lf.agedCorrectly = false) :
    { m with tw }.Ok off' where
  wheel := hw
  find := ok.find
  live := ok.live
  handle {q lf} h := by
    obtain ⟨hd', hq, hobj, hobj1, hid, htm⟩ := ok.handle h
    by_cases hqp : q = p
    · subst hqp
      rw [hhd] at hq
      cases hq
      exact ⟨{ hd with timer }, by simp [hh], hobj, hobj1, hid, hself⟩
    · exact ⟨hd', by simpa [hh, hqp] using hq, hobj, hobj1, hid, fun hoff =>
        htm (hother q hqp hoff)⟩
  owned {q hd'} h := by
    by_cases hqp : q = p
    · subst hqp
      exact ok.owned hhd
    · have h' : m.tw.handles q = some hd' := by simpa [hh, hqp] using h
      exact ok.owned h'
  fresh := ok.fresh
  aged {q lf} h hoff := by
    by_cases hqp : q = p
    · subst hqp
      exact haged lf h hoff
    · exact ok.aged h (hother q hqp hoff)
  size := ok.size
  balance := ok.balance

/-- A flow is written in place. -/
theorem Ok.setFlow (ok : m.Ok off) (h : m.flows p = some lf) (hid : lf'.flowId = lf.flowId)
    (haged : off ≠ some p → lf'.agedCorrectly = false) :
    (m.setFlow p lf').Ok off where
  wheel := ok.wheel
  find {k q} hk := by
    obtain ⟨lf'', hq, hk'⟩ := ok.find hk
    by_cases hqp : q = p
    · subst hqp
      rw [h] at hq
      cases hq
      exact ⟨lf', by simp [RxCheckManager.setFlow], hid.trans hk'⟩
    · exact ⟨lf'', by simpa [RxCheckManager.setFlow, hqp] using hq, hk'⟩
  live {q lf''} hq := by
    by_cases hqp : q = p
    · subst hqp
      simp only [RxCheckManager.setFlow, update_self, Option.some.injEq] at hq
      rw [← hq, hid]
      exact ok.live h
    · exact ok.live (by simpa [RxCheckManager.setFlow, hqp] using hq)
  handle {q lf''} hq := by
    by_cases hqp : q = p
    · subst hqp
      exact ok.handle h
    · exact ok.handle (by simpa [RxCheckManager.setFlow, hqp] using hq)
  owned {q hd} hq := by
    obtain ⟨lf'', hlf⟩ := ok.owned hq
    by_cases hqp : q = p
    · subst hqp
      exact ⟨lf', by simp [RxCheckManager.setFlow]⟩
    · exact ⟨lf'', by simpa [RxCheckManager.setFlow, hqp] using hlf⟩
  fresh q hq := by
    have hqp : q ≠ p := by
      rintro rfl
      rw [ok.fresh q hq] at h
      cases h
    simpa [RxCheckManager.setFlow, hqp] using ok.fresh q hq
  aged {q lf''} hq hoff := by
    by_cases hqp : q = p
    · subst hqp
      simp only [RxCheckManager.setFlow, update_self, Option.some.injEq] at hq
      rw [← hq]
      exact haged hoff
    · exact ok.aged (by simpa [RxCheckManager.setFlow, hqp] using hq) hoff
  size := ok.size
  balance := ok.balance

/-- What the table shows when a flow is written in place. -/
theorem Ok.flowOf_setFlow (ok : m.Ok off) (h : m.flows p = some lf) :
    (m.setFlow p lf').flowOf = update m.flowOf lf.flowId (some lf') := by
  funext k
  by_cases hk : k = lf.flowId
  · subst hk
    simp [flowOf, RxCheckManager.setFlow, ok.live h]
  · rw [update_of_ne hk]
    cases hq : m.ft.lookup k with
    | none => simp [flowOf, RxCheckManager.setFlow, hq]
    | some q =>
      have hqp : q ≠ p := by
        rintro rfl
        obtain ⟨lf'', hlf, hk'⟩ := ok.find hq
        rw [h] at hlf
        cases hlf
        exact hk hk'.symm
      simp [flowOf, RxCheckManager.setFlow, hq, hqp]

/-- A manager after a new flow was put in the table. -/
def opening (m : RxCheckManager) (flow : CRxCheckFlow) (stats : CRxCheckFlowTableStats) :
    RxCheckManager :=
  { m with
    ft := m.ft.insert flow.flowId m.fresh
    fresh := m.fresh + 1
    flows := update m.flows m.fresh (some flow)
    tw := m.tw.setHandle m.fresh { object := some m.fresh, object1 := true, id := 0x1234 }
    stats }

/-- **A new flow**, with no timer yet. -/
theorem Ok.opening (ok : m.Ok none) (hk : m.ft.lookup flow.flowId = none)
    (hactive : stats.active = m.stats.active + 1) (hadd : stats.add = m.stats.add + 1)
    (hremove : stats.remove = m.stats.remove) : (m.opening flow stats).Ok (some m.fresh) := by
  have hflow : m.flows m.fresh = none := ok.fresh _ le_rfl
  have hhandle : m.tw.handles m.fresh = none := by
    rw [Option.eq_none_iff_forall_ne_some]
    intro hd hhd
    obtain ⟨lf, hlf⟩ := ok.owned hhd
    rw [hflow] at hlf
    cases hlf
  have hne : ∀ {q lf}, m.flows q = some lf → q ≠ m.fresh := by
    rintro q lf hq rfl
    rw [hflow] at hq
    cases hq
  refine ⟨ok.wheel.addHandle hhandle rfl, ?_, ?_, ?_, ?_, ?_, ?_, ?_, ?_⟩
  · intro k q hq
    by_cases hkf : k = flow.flowId
    · subst hkf
      simp only [RxCheckManager.opening, AList.lookup_insert, Option.some.injEq] at hq
      subst hq
      exact ⟨flow, by simp [RxCheckManager.opening], rfl⟩
    · simp only [RxCheckManager.opening, ne_eq, hkf, not_false_eq_true, AList.lookup_insert_ne]
        at hq
      obtain ⟨lf, hlf, hk'⟩ := ok.find hq
      exact ⟨lf, by simpa [RxCheckManager.opening, hne hlf] using hlf, hk'⟩
  · intro q lf hq
    by_cases hqf : q = m.fresh
    · subst hqf
      simp only [RxCheckManager.opening, update_self, Option.some.injEq] at hq
      subst hq
      simp [RxCheckManager.opening]
    · simp only [RxCheckManager.opening, ne_eq, hqf, not_false_eq_true, update_of_ne] at hq
      have hkf : lf.flowId ≠ flow.flowId := by
        intro e
        have := ok.live hq
        rw [e, hk] at this
        cases this
      simpa [RxCheckManager.opening, hkf] using ok.live hq
  · intro q lf hq
    by_cases hqf : q = m.fresh
    · subst hqf
      exact ⟨{ object := some m.fresh, object1 := true, id := 0x1234 },
        by simp [RxCheckManager.opening, CTimerWheel.setHandle], rfl, rfl, rfl,
        fun h => absurd rfl h⟩
    · simp only [RxCheckManager.opening, ne_eq, hqf, not_false_eq_true, update_of_ne] at hq
      obtain ⟨hd, hhd, hobj, hobj1, hid, htm⟩ := ok.handle hq
      exact ⟨hd, by simpa [RxCheckManager.opening, CTimerWheel.setHandle, hqf] using hhd, hobj,
        hobj1, hid, fun _ => htm (by simp)⟩
  · intro q hd hq
    by_cases hqf : q = m.fresh
    · exact ⟨flow, by simp [RxCheckManager.opening, hqf]⟩
    · have hq' : m.tw.handles q = some hd := by
        simpa [RxCheckManager.opening, CTimerWheel.setHandle, hqf] using hq
      obtain ⟨lf, hlf⟩ := ok.owned hq'
      exact ⟨lf, by simpa [RxCheckManager.opening, hqf] using hlf⟩
  · intro q hq
    have hle : m.fresh + 1 ≤ q := hq
    have hqf : q ≠ m.fresh := (Nat.lt_of_succ_le hle).ne'
    simpa [RxCheckManager.opening, hqf] using ok.fresh q (Nat.le_of_succ_le hle)
  · intro q lf hq hoff
    have hqf : q ≠ m.fresh := fun e => hoff (by rw [e])
    simp only [RxCheckManager.opening, ne_eq, hqf, not_false_eq_true, update_of_ne] at hq
    exact ok.aged hq (by simp)
  · have hmem : flow.flowId ∉ m.ft.keys := by
      rw [← AList.mem_keys]
      exact AList.lookup_eq_none.mp hk
    simp [RxCheckManager.opening, count, hactive, ok.size, List.erase_of_not_mem hmem]
  · have := ok.balance
    simp only [RxCheckManager.opening, hactive, hadd, hremove]
    omega

/-- What the table shows when a flow is opened. -/
theorem Ok.flowOf_opening (ok : m.Ok none) :
    (m.opening flow stats).flowOf = update m.flowOf flow.flowId (some flow) := by
  funext k
  by_cases hk : k = flow.flowId
  · subst hk
    simp [flowOf, RxCheckManager.opening]
  · rw [update_of_ne hk]
    cases hq : m.ft.lookup k with
    | none => simp [flowOf, RxCheckManager.opening, hk, hq]
    | some q =>
      obtain ⟨lf, hlf, -⟩ := ok.find hq
      have hqf : q ≠ m.fresh := by
        rintro rfl
        rw [ok.fresh _ le_rfl] at hlf
        cases hlf
      simp [flowOf, RxCheckManager.opening, hk, hq, hqf]

/-- A manager after a flow was taken from the table and deleted. -/
def ending (m : RxCheckManager) (p : Ptr) (lf : CRxCheckFlow) : RxCheckManager :=
  { m with
    stats := flowEndStats m.stats m.onDrain lf
    flows := update m.flows p none
    tw := m.tw.dropHandle p
    ft := m.ft.erase lf.flowId }

/-- `on_flow_end` returns, for a flow that is in the table under its id. -/
theorem onFlowEnd_eq (h : m.flows p = some lf) (hk : m.ft.lookup lf.flowId = some p) :
    m.onFlowEnd p = .ok (m.ending p lf) := by
  unfold RxCheckManager.onFlowEnd
  simp only [getFlow_eq h, ok_bind, ftRemove, hk]
  rfl

theorem flowEndStats_active (stats : CRxCheckFlowTableStats) (onDrain : Bool) (lf : CRxCheckFlow) :
    (flowEndStats stats onDrain lf).active = stats.active - 1 ∧
      (flowEndStats stats onDrain lf).add = stats.add ∧
      (flowEndStats stats onDrain lf).remove = stats.remove + 1 := by
  unfold flowEndStats
  cases onDrain <;> exact ⟨rfl, rfl, rfl⟩

/-- **A flow ends when its timer is stopped.** -/
theorem Ok.ending (ok : m.Ok (some p)) (h : m.flows p = some lf) (hhd : m.tw.handles p = some hd)
    (htm : hd.timer = none) : (m.ending p lf).Ok none := by
  have hkey := ok.live h
  have hne : ∀ {q lf'}, m.flows q = some lf' → q ≠ p → lf'.flowId ≠ lf.flowId := by
    intro q lf' hq hqp e
    have := ok.live hq
    rw [e, hkey] at this
    exact hqp (Option.some.inj this).symm
  have hmem : lf.flowId ∈ m.ft.keys := by
    rw [← AList.mem_keys, ← AList.lookup_isSome, hkey]
    rfl
  have hpos := List.length_pos_of_mem hmem
  obtain ⟨hact, hadd, hrem⟩ := flowEndStats_active m.stats m.onDrain lf
  refine ⟨ok.wheel.dropHandle hhd htm, ?_, ?_, ?_, ?_, ?_, ?_, ?_, ?_⟩
  · intro k q hq
    have hk : k ≠ lf.flowId := by
      rintro rfl
      simp [RxCheckManager.ending] at hq
    simp only [RxCheckManager.ending, ne_eq, hk, not_false_eq_true, AList.lookup_erase_ne] at hq
    obtain ⟨lf', hlf', hk'⟩ := ok.find hq
    have hqp : q ≠ p := by
      rintro rfl
      rw [h] at hlf'
      cases hlf'
      exact hk hk'.symm
    exact ⟨lf', by simpa [RxCheckManager.ending, hqp] using hlf', hk'⟩
  · intro q lf' hq
    have hqp : q ≠ p := by
      rintro rfl
      simp [RxCheckManager.ending] at hq
    simp only [RxCheckManager.ending, ne_eq, hqp, not_false_eq_true, update_of_ne] at hq
    simpa [RxCheckManager.ending, hne hq hqp] using ok.live hq
  · intro q lf' hq
    have hqp : q ≠ p := by
      rintro rfl
      simp [RxCheckManager.ending] at hq
    simp only [RxCheckManager.ending, ne_eq, hqp, not_false_eq_true, update_of_ne] at hq
    obtain ⟨hd', hhd', hobj, hobj1, hid, htm'⟩ := ok.handle hq
    exact ⟨hd', by simpa [RxCheckManager.ending, CTimerWheel.dropHandle, hqp] using hhd', hobj,
      hobj1, hid, fun _ => htm' (by simpa using Ne.symm hqp)⟩
  · intro q hd' hq
    have hqp : q ≠ p := by
      rintro rfl
      simp [RxCheckManager.ending, CTimerWheel.dropHandle] at hq
    have hq' : m.tw.handles q = some hd' := by
      simpa [RxCheckManager.ending, CTimerWheel.dropHandle, hqp] using hq
    obtain ⟨lf', hlf'⟩ := ok.owned hq'
    exact ⟨lf', by simpa [RxCheckManager.ending, hqp] using hlf'⟩
  · intro q hq
    by_cases hqp : q = p
    · simp [RxCheckManager.ending, hqp]
    · simpa [RxCheckManager.ending, hqp] using ok.fresh q hq
  · intro q lf' hq _
    have hqp : q ≠ p := by
      rintro rfl
      simp [RxCheckManager.ending] at hq
    simp only [RxCheckManager.ending, ne_eq, hqp, not_false_eq_true, update_of_ne] at hq
    exact ok.aged hq (by simpa using Ne.symm hqp)
  · have hsize := ok.size
    simp only [RxCheckManager.ending, count, AList.keys_erase, hact,
      List.length_erase_of_mem hmem] at hsize ⊢
    omega
  · have hsize := ok.size
    have hbal := ok.balance
    simp only [RxCheckManager.ending, hact, hadd, hrem, count] at hsize ⊢
    omega

/-- What the table shows when a flow ends. -/
theorem Ok.flowOf_ending (ok : m.Ok off) (h : m.flows p = some lf) :
    (m.ending p lf).flowOf = update m.flowOf lf.flowId none := by
  funext k
  by_cases hk : k = lf.flowId
  · subst hk
    simp [flowOf, RxCheckManager.ending]
  · rw [update_of_ne hk]
    cases hq : m.ft.lookup k with
    | none => simp [flowOf, RxCheckManager.ending, hk, hq]
    | some q =>
      have hqp : q ≠ p := by
        rintro rfl
        obtain ⟨lf', hlf', hk'⟩ := ok.find hq
        rw [h] at hlf'
        cases hlf'
        exact hk hk'.symm
      simp [flowOf, RxCheckManager.ending, hk, hq, hqp]

/-! ## 3. Aging -/

/-- **What aging can do.**  A timer that fires is counted, and ends its flow; when none fires the
table stays as it is. -/
structure Aged (m m' : RxCheckManager) : Prop where
  ok : m'.Ok none
  onDrain : m'.onDrain = m.onDrain
  fired : m.tw.stHandle ≤ m'.tw.stHandle
  quiet : m'.tw.stHandle = m.tw.stHandle →
    m'.flowOf = m.flowOf ∧ m'.stats = m.stats ∧ m'.templateInfo = m.templateInfo
  errors : m.stats.getTotalErr ≤ m'.stats.getTotalErr
  counted : m.onDrain = false → m.tw.stHandle < m'.tw.stHandle → 0 < m'.stats.getTotalErr

theorem Aged.refl (ok : m.Ok none) : Aged m m where
  ok := ok
  onDrain := rfl
  fired := le_rfl
  quiet _ := ⟨rfl, rfl, rfl⟩
  errors := le_rfl
  counted _ h := absurd h (lt_irrefl _)

theorem Aged.trans (h : Aged m m') (h' : Aged m' m'') : Aged m m'' where
  ok := h'.ok
  onDrain := h'.onDrain.trans h.onDrain
  fired := h.fired.trans h'.fired
  quiet hq := by
    have h1 := h.fired
    have h2 := h'.fired
    obtain ⟨hf, hs, ht⟩ := h.quiet (by omega)
    obtain ⟨hf', hs', ht'⟩ := h'.quiet (by omega)
    exact ⟨hf'.trans hf, hs'.trans hs, ht'.trans ht⟩
  errors := h.errors.trans h'.errors
  counted hd hlt := by
    by_cases hlt' : m.tw.stHandle < m'.tw.stHandle
    · exact (h.counted hd hlt').trans_le h'.errors
    · exact h'.counted (h.onDrain.trans hd) (by omega)

/-- The wheel tidies its queue. -/
theorem Ok.agedWheel (ok : m.Ok none) (hw : tw.Ok) (hh : tw.handles = m.tw.handles)
    (hst : tw.stHandle = m.tw.stHandle) : Aged m { m with tw } where
  ok := ok.setWheel hw hh
  onDrain := rfl
  fired := hst.ge
  quiet _ := ⟨rfl, rfl, rfl⟩
  errors := le_rfl
  counted _ h := absurd h (by simp [hst])

/-- A flow that ends without being complete is an error, but for a drain. -/
theorem flowEndStats_getTotalErr (stats : CRxCheckFlowTableStats) (onDrain : Bool)
    (lf : CRxCheckFlow) :
    stats.getTotalErr ≤ (flowEndStats stats onDrain lf).getTotalErr ∧
      (onDrain = false → lf.agedCorrectly = false →
        0 < (flowEndStats stats onDrain lf).getTotalErr) := by
  unfold flowEndStats CRxCheckFlowTableStats.getTotalErr
  cases onDrain with
  | false =>
    simp only [Bool.false_eq_true, ↓reduceIte]
    exact ⟨by omega, fun _ h => by simp only [h, Bool.false_eq_true, ↓reduceIte]; omega⟩
  | true => exact ⟨by simp only [↓reduceIte]; omega, fun h => by cases h⟩

/-- `handle` ends one flow and frees its timer, or finds an empty queue. -/
theorem Ok.handle' (ok : m.Ok none) (ties : Nat → Nat) :
    ∃ m' b, m.handle ties = .ok (m', b) ∧ Aged m m' ∧
        (m.tw.pq ≠ [] → m'.tw.pq.length < m.tw.pq.length) := by
  obtain ⟨tw, top, hrun, hw, hh, hst, hlen, hnone, hsome⟩ :=
    CTimerWheel.Ok.settle ties m.tw.settleFuel m.tw ok.wheel CTimerWheel.settleFuel_lt
  unfold RxCheckManager.handle
  simp only [hrun, ok_bind]
  cases top with
  | none =>
    refine ⟨_, _, rfl, ok.agedWheel hw hh hst, fun hq => ?_⟩
    simpa [hnone rfl] using List.length_pos_of_ne_nil hq
  | some t =>
    obtain ⟨timer, p, ht, hf⟩ := hsome t rfl
    obtain ⟨tw', hd, hfire, hw', hst', hpq, ht', hhd, -, hh'⟩ := hw.fire ht hf
    have ok1 := ok.setWheel hw hh
    obtain ⟨lf, hlf⟩ := ok1.owned hhd
    obtain ⟨hd', hhd', hobj, hobj1, hid, -⟩ := ok1.handle hlf
    have hhd'' : tw.handles p = some hd' := hhd'
    rw [hhd] at hhd''
    cases hhd''
    have ok2 : { m with tw := tw' }.Ok (some p) :=
      ok1.retime hw' hhd hh' (fun h => absurd rfl h) (fun q _ _ => by simp) fun _ _ h =>
        absurd rfl h
    have hself : tw'.handles p = some { hd with timer := none } := by simp [hh']
    have hcb : { m with tw := tw' }.flowAgingCallback p =
        .ok ({ m with tw := tw' }.ending p lf) := by
      unfold flowAgingCallback
      simp only [CTimerWheel.getHandle_eq hself, ok_bind, hobj, hobj1, hid, and_self, ↓reduceIte]
      exact onFlowEnd_eq hlf (ok2.live hlf)
    have ok3 := ok2.ending hlf hself rfl
    have ht3 : ({ m with tw := tw' }.ending p lf).tw.timers t = some { timer with flow := none } :=
      ht'
    have hfree := ok3.wheel.freeTimer ht3 rfl
    simp only [hfire, ok_bind, hcb]
    refine ⟨_, _, rfl, ⟨ok3.setWheel hfree rfl, rfl, ?_, ?_, ?_, ?_⟩, ?_⟩
    · show m.tw.stHandle ≤ tw'.stHandle
      omega
    · intro hq
      have hq' : tw'.stHandle = m.tw.stHandle := hq
      omega
    · exact (flowEndStats_getTotalErr m.stats m.onDrain lf).1
    · intro hd _
      exact (flowEndStats_getTotalErr m.stats m.onDrain lf).2 hd (ok.aged hlf (by simp))
    · intro _
      have hmem : t ∈ tw'.pq := (hw'.mem t).mpr (by simp [ht'])
      show (tw'.pq.erase t).length < m.tw.pq.length
      rw [List.length_erase_of_mem hmem, hpq]
      have := List.length_pos_of_mem hmem
      rw [hpq] at this
      omega

/-- **The loop of the wheel ends**, whatever is due. -/
theorem Ok.handleWhile (ties : Nat → Nat) (due : Rat → Bool) (fuel : Nat) : ∀ m : RxCheckManager,
    m.Ok none → m.tw.pq.length < fuel →
    ∃ m', RxCheckManager.handleWhile ties due fuel m = .ok m' ∧ Aged m m' := by
  induction fuel with
  | zero => exact fun m _ hfuel => absurd hfuel (Nat.not_lt_zero _)
  | succ fuel ih =>
    intro m ok hfuel
    obtain ⟨tw, time, hrun, hw, hh, hst, hlen, hnonempty⟩ := ok.wheel.peekTopTime ties
    have haged := ok.agedWheel hw hh hst
    unfold RxCheckManager.handleWhile
    simp only [hrun, ok_bind]
    cases time with
    | none => exact ⟨_, rfl, haged⟩
    | some time =>
      dsimp only
      split
      · obtain ⟨m1, b, hhandle, haged1, hlt⟩ := haged.ok.handle' ties
        simp only [hhandle, ok_bind]
        have hlt' : m1.tw.pq.length < tw.pq.length := hlt (hnonempty rfl)
        obtain ⟨m', hrun', haged'⟩ := ih m1 haged1.ok (by omega)
        exact ⟨m', hrun', haged.trans (haged1.trans haged')⟩
      · exact ⟨_, rfl, haged⟩

theorem Ok.tryHandleEvents (ok : m.Ok none) (ties : Nat → Nat) (now : Rat) :
    ∃ m', m.tryHandleEvents ties now = .ok m' ∧ Aged m m' :=
  Ok.handleWhile ties _ _ m ok (Nat.lt_succ_self _)

theorem Ok.drainAll (ok : m.Ok none) (ties : Nat → Nat) :
    ∃ m', m.drainAll ties = .ok m' ∧ Aged m m' :=
  Ok.handleWhile ties _ _ m ok (Nat.lt_succ_self _)

/-! ## 4. A packet -/

/-- `track` on a flow that is not in the table counts it. -/
theorem track_none (stats : CRxCheckFlowTableStats) (rxh : CRxCheckHeader) :
    (track stats none rxh).2.1.active = stats.active + 1 ∧
      (track stats none rxh).2.1.add = stats.add + 1 ∧
      (track stats none rxh).2.1.remove = stats.remove ∧
      (track stats none rxh).1.flowId = rxh.flowId ∧
          (track stats none rxh).1.agedCorrectly = false := by
  simp only [track]
  cases rxh.isFifDir <;> exact ⟨rfl, rfl, rfl, rfl, rfl⟩

/-- `track` on a flow of the table keeps its id. -/
theorem track_some (stats : CRxCheckFlowTableStats) (lf : CRxCheckFlow) (rxh : CRxCheckHeader) :
    (track stats (some lf) rxh).2.1.active = stats.active ∧
      (track stats (some lf) rxh).2.1.add = stats.add ∧
      (track stats (some lf) rxh).2.1.remove = stats.remove ∧
      (track stats (some lf) rxh).1.flowId = lf.flowId ∧
      (track stats (some lf) rxh).1.agedCorrectly = lf.agedCorrectly := by
  simp only [track, trackFif, trackNext]
  split_ifs <;> exact ⟨rfl, rfl, rfl, rfl, rfl⟩

/-- What becomes of the flow of a header: it ends when it is complete. -/
def nextFlow (lf : Option CRxCheckFlow) (rxh : CRxCheckHeader) : Option CRxCheckFlow :=
  let flow := (track {} lf rxh).1
  if flow.isAllPktsSeen then none else some flow

/-- The errors that a header adds. -/
def errorsOf (lf : Option CRxCheckFlow) (rxh : CRxCheckHeader) :
    Nat := (track {} lf rxh).2.1.getTotalErr

/-- The flow does not depend on the counters, and the errors are added to them. -/
theorem track_add (stats : CRxCheckFlowTableStats) (lf : Option CRxCheckFlow)
    (rxh : CRxCheckHeader) :
    (track stats lf rxh).1 = (track {} lf rxh).1 ∧
      (track stats lf rxh).2.1.getTotalErr = stats.getTotalErr + errorsOf lf rxh ∧
      (track stats lf rxh).2.2 = (track {} lf rxh).2.2 := by
  cases lf with
  | none =>
    simp only [errorsOf, track, CRxCheckFlowTableStats.getTotalErr]
    cases rxh.isFifDir
    · exact ⟨rfl, by simp only [Bool.false_eq_true, ↓reduceIte]; omega, rfl⟩
    · exact ⟨rfl, by simp only [↓reduceIte]; omega, rfl⟩
  | some lf =>
    simp only [errorsOf, track, trackFif, trackNext, CRxCheckFlowTableStats.getTotalErr]
    split_ifs <;> exact ⟨rfl, by dsimp only; omega, rfl⟩

/-- Every error that is reported for a template is counted. -/
theorem track_anyErr (lf : Option CRxCheckFlow) (rxh : CRxCheckHeader) (h : errorsOf lf rxh = 0) :
    (track {} lf rxh).2.2 = false := by
  cases lf with
  | none =>
    simp only [errorsOf, track, CRxCheckFlowTableStats.getTotalErr] at h ⊢
    cases hfif : rxh.isFifDir
    · simp [hfif] at h
    · rfl
  | some lf =>
    simp only [errorsOf, track, trackFif, trackNext, CRxCheckFlowTableStats.getTotalErr] at h ⊢
    split_ifs at h ⊢ <;> simp_all

/-- No template has an error. -/
def NoTemplateErr (m : RxCheckManager) : Prop := ∀ i, (m.templateInfo i).errors = 0

theorem NoTemplateErr.incRxCounter (h : m.NoTemplateErr) (i : UInt8) :
    (m.incRxCounter i).NoTemplateErr := by
  intro j
  by_cases hj : j = templateIndex i
  · simpa [RxCheckManager.incRxCounter, hj] using h (templateIndex i)
  · simpa [RxCheckManager.incRxCounter, hj] using h j

/-- The flow of a header is in the table, and its timer need not run yet. -/
structure Tracked (m : RxCheckManager) (rxh : CRxCheckHeader) (m' : RxCheckManager) (p : Ptr) :
    Prop where
  ok : m'.Ok (some p)
  flow : m'.flows p = some (track {} (m.flowOf rxh.flowId) rxh).1
  table : m'.flowOf = update m.flowOf rxh.flowId (some (track {} (m.flowOf rxh.flowId) rxh).1)
  errors : m'.stats.getTotalErr = m.stats.getTotalErr + errorsOf (m.flowOf rxh.flowId) rxh
  fired : m'.tw.stHandle = m.tw.stHandle
  onDrain : m'.onDrain = m.onDrain
  template : errorsOf (m.flowOf rxh.flowId) rxh = 0 → m.NoTemplateErr → m'.NoTemplateErr

theorem Ok.weaken (ok : m.Ok none) (p : Ptr) : m.Ok (some p) where
  wheel := ok.wheel
  find := ok.find
  live := ok.live
  handle h := by
    obtain ⟨hd, hhd, hobj, hobj1, hid, htm⟩ := ok.handle h
    exact ⟨hd, hhd, hobj, hobj1, hid, fun _ => htm (by simp)⟩
  owned := ok.owned
  fresh := ok.fresh
  aged h _ := ok.aged h (by simp)
  size := ok.size
  balance := ok.balance

/-- A reported error changes the counters of the templates only. -/
theorem Ok.store (ok : m.Ok off) (h : m.flows p = some lf) {i : UInt8}
    {tracked : CRxCheckFlow × CRxCheckFlowTableStats × Bool} (hid : tracked.1.flowId = lf.flowId)
    (haged : off ≠ some p → tracked.1.agedCorrectly = false)
    (hactive : tracked.2.1.active = m.stats.active) (hadd : tracked.2.1.add = m.stats.add)
    (hremove : tracked.2.1.remove = m.stats.remove) : (m.store p i tracked).Ok off := by
  have okS : { m with stats := tracked.2.1 }.Ok off :=
    ok.of_eq rfl rfl rfl rfl hactive (by rw [hactive, hadd, hremove]; exact ok.balance)
  have okF := okS.setFlow h hid haged
  unfold RxCheckManager.store
  dsimp only
  split
  · exact okF.of_eq rfl rfl rfl rfl rfl okF.balance
  · exact okF

/-- What does not depend on whether an error is reported. -/
theorem store_eq (m : RxCheckManager) (p : Ptr) (i : UInt8)
    (tracked : CRxCheckFlow × CRxCheckFlowTableStats × Bool) :
    (m.store p i tracked).flows = update m.flows p (some tracked.1) ∧
      (m.store p i tracked).stats = tracked.2.1 ∧ (m.store p i tracked).tw = m.tw ∧
      (m.store p i tracked).onDrain = m.onDrain ∧
      (m.store p i tracked).flowOf = (m.setFlow p tracked.1).flowOf ∧
      (tracked.2.2 = false → (m.store p i tracked).templateInfo = m.templateInfo) := by
  unfold RxCheckManager.store
  cases htr : tracked.2.2 with
  | false => exact ⟨rfl, rfl, rfl, rfl, rfl, fun _ => rfl⟩
  | true => exact ⟨rfl, rfl, rfl, rfl, rfl, fun h => by cases h⟩

theorem Ok.looking (ok : m.Ok off) (rxh : CRxCheckHeader) : (m.looking rxh).Ok off :=
  ok.of_eq rfl rfl rfl rfl rfl ok.balance

theorem findOrAdd_some (h : m.ft.lookup k = some p) (hlf : m.flows p = some lf) :
    m.findOrAdd k = .ok (m, p, some lf) := by
  simp only [findOrAdd, h, getFlow_eq hlf, ok_bind]

/-- A flow that is added is written by the header that it was added for. -/
theorem findOrAdd_none (h : m.ft.lookup k = none) (templateId : UInt8)
    (tracked : CRxCheckFlow × CRxCheckFlowTableStats × Bool) (hk : tracked.1.flowId = k) :
    ∃ m', m.findOrAdd k = .ok (m', m.fresh, none) ∧ m'.stats = m.stats ∧
      m'.store m.fresh templateId tracked =
        (if tracked.2.2 then (m.opening tracked.1 tracked.2.1).updateTemplateErr templateId
          else m.opening tracked.1 tracked.2.1) := by
  have hget : (m.ftAdd k).1.tw.getHandle m.fresh = .ok { object := some m.fresh, id := 0x1234 } :=
    CTimerWheel.getHandle_eq (by simp [ftAdd, CTimerWheel.setHandle])
  refine ⟨{ (m.ftAdd k).1 with
    tw := (m.ftAdd k).1.tw.setHandle m.fresh { object := some m.fresh, object1 := true,
                                               id := 0x1234 } },
    ?_, rfl, ?_⟩
  · rw [findOrAdd, h]
    exact congrArg (· >>= _) hget
  · subst hk
    simp [RxCheckManager.store, RxCheckManager.opening, RxCheckManager.setFlow, ftAdd, h,
      CTimerWheel.setHandle]

theorem NoTemplateErr.congr (h : m.NoTemplateErr) (ht : m'.templateInfo = m.templateInfo) :
    m'.NoTemplateErr := by
  intro i
  rw [ht]
  exact h i

/-- **`trackPacket` puts the flow that `track` gives in the table.** -/
theorem Ok.trackPacket (ok : m.Ok none) (rxh : CRxCheckHeader) :
    ∃ m' p, m.trackPacket rxh = .ok (m', p) ∧ Tracked m rxh m' p := by
  have okL := ok.looking rxh
  have hlook : (m.looking rxh).flowOf = m.flowOf := rfl
  cases hft : m.ft.lookup rxh.flowId with
  | none =>
    have hnone : m.flowOf rxh.flowId = none := by simp [flowOf, hft]
    obtain ⟨hflow, herr, hany⟩ := track_add (m.looking rxh).stats none rxh
    obtain ⟨hact, hadd, hrem, hid, -⟩ := track_none (m.looking rxh).stats rxh
    obtain ⟨m1, hfind, hstats, hstore⟩ := findOrAdd_none (m := m.looking rxh) hft rxh.templateId
      (track (m.looking rxh).stats none rxh) hid
    have okO := okL.opening (by rw [hid]; exact hft) hact hadd hrem
    refine ⟨m1.store m.fresh rxh.templateId (track m1.stats none rxh), m.fresh, ?_, ?_⟩
    · unfold RxCheckManager.trackPacket
      rw [hfind, ok_bind]
      rfl
    · rw [hstats, show m.fresh = (m.looking rxh).fresh from rfl, hstore]
      have hopened : Tracked m rxh ((m.looking rxh).opening (track (m.looking rxh).stats none rxh).1
          (track (m.looking rxh).stats none rxh).2.1) (m.looking rxh).fresh := by
        refine ⟨okO, ?_, ?_, ?_, rfl, rfl, fun _ h => h.incRxCounter _⟩
        · rw [hnone, ← hflow]
          simp [RxCheckManager.opening]
        · rw [okL.flowOf_opening, hid, hflow, hnone, hlook]
        · rw [hnone]
          exact herr
      cases hb : (track (m.looking rxh).stats none rxh).2.2 with
      | false => exact hopened
      | true =>
        refine { hopened with ok := okO.of_eq rfl rfl rfl rfl rfl okO.balance, template := fun hz =>
          ?_ }
        rw [hnone] at hz
        rw [hany, track_anyErr none rxh hz] at hb
        cases hb
  | some p =>
    obtain ⟨lf, hlf, hk⟩ := ok.find hft
    have hsome : m.flowOf rxh.flowId = some lf := by simp [flowOf, hft, hlf]
    obtain ⟨hflow, herr, hany⟩ := track_add (m.looking rxh).stats (some lf) rxh
    obtain ⟨hact, hadd, hrem, hid, haged⟩ := track_some (m.looking rxh).stats lf rxh
    have okS : ((m.looking rxh).store p rxh.templateId
        (track (m.looking rxh).stats (some lf) rxh)).Ok none :=
      okL.store hlf hid (fun h => haged.trans (ok.aged hlf h)) hact hadd hrem
    obtain ⟨hflows, hstats, htw, hdrain, htable, htemplate⟩ := store_eq (m.looking rxh) p
      rxh.templateId (track (m.looking rxh).stats (some lf) rxh)
    refine ⟨_, p, ?_, okS.weaken p, ?_, ?_, ?_, ?_, hdrain, ?_⟩
    · unfold RxCheckManager.trackPacket
      rw [findOrAdd_some (m := m.looking rxh) hft hlf, ok_bind]
    · rw [hsome, hflows, hflow, update_self]
    · rw [htable, okL.flowOf_setFlow hlf, hk, hsome, hflow, hlook]
    · rw [hstats, hsome]
      exact herr
    · rw [htw]
      rfl
    · intro hz h
      rw [hsome] at hz
      exact (h.incRxCounter rxh.templateId).congr (htemplate (hany.trans (track_anyErr _ rxh hz)))

/-- A flow that is complete ends without an error. -/
theorem flowEndStats_complete (stats : CRxCheckFlowTableStats) (onDrain : Bool)
    (h : lf.isAllPktsSeen) :
    (flowEndStats stats onDrain { lf with agedCorrectly := true }).getTotalErr =
        stats.getTotalErr := by
  have hpkts : lf.getTotalPktExpected = lf.getTotalPktSeen := by
    simp only [CRxCheckFlow.isAllPktsSeen, Bool.and_eq_true, beq_iff_eq] at h
    simp only [CRxCheckFlow.getTotalPktExpected, CRxCheckFlow.getTotalPktSeen, h.1.1.1, h.1.1.2]
  have hpkts' : { lf with agedCorrectly := true }.getTotalPktExpected =
      { lf with agedCorrectly := true }.getTotalPktSeen := hpkts
  unfold flowEndStats CRxCheckFlowTableStats.getTotalErr
  rw [hpkts']
  cases onDrain <;> simp

/-- `rearm` starts the timer of the flow, and ends the flow when it is complete. -/
theorem Ok.rearm (ok : m.Ok (some p)) (h : m.flows p = some lf) (haged : lf.agedCorrectly = false)
    (agingSec : UInt16) :
    ∃ m', m.rearm p agingSec = .ok m' ∧ m'.Ok none ∧ m'.tw.stHandle = m.tw.stHandle ∧
      m'.onDrain = m.onDrain ∧ m'.templateInfo = m.templateInfo ∧
      m'.stats.getTotalErr = m.stats.getTotalErr ∧
      m'.flowOf = if lf.isAllPktsSeen then update m.flowOf lf.flowId none else m.flowOf := by
  obtain ⟨hd, hhd, -, -, -, -⟩ := ok.handle h
  obtain ⟨tw, t, hrestart, hw, hst, hh⟩ := ok.wheel.restartTimer hhd
    (m.curTime + (max agingSec 5).toNat)
  have ok1 : { m with tw }.Ok none := by
    refine ok.retime hw hhd hh (fun _ => rfl) (fun q hq _ => by simpa using hq.symm) ?_
    intro lf' hlf' _
    rw [h] at hlf'
    cases hlf'
    exact haged
  unfold RxCheckManager.rearm
  simp only [hrestart, ok_bind, getFlow_eq (m := { m with tw }) h]
  split
  · rename_i hall
    have hhd1 : tw.handles p = some { hd with timer := some t } := by simp [hh]
    obtain ⟨tw', hstop, hw', hst', hh'⟩ := hw.stopTimer hhd1
    have ok2 : { m with tw := tw' }.Ok (some p) :=
      ok1.retime hw' hhd1 hh' (fun h => absurd rfl h) (fun q _ _ => by simp) fun _ _ h =>
        absurd rfl h
    have ok3 : ({ m with tw := tw' }.setFlow p { lf with agedCorrectly := true }).Ok (some p) :=
      ok2.setFlow h rfl fun h => absurd rfl h
    have h3 : ({ m with tw := tw' }.setFlow p { lf with agedCorrectly := true }).flows p =
        some { lf with agedCorrectly := true } := by simp [RxCheckManager.setFlow]
    have hself : tw'.handles p = some { hd with timer := none } := by simp [hh']
    simp only [hstop, ok_bind, onFlowEnd_eq h3 (ok3.live h3)]
    refine ⟨_, rfl, ok3.ending h3 hself rfl, ?_, rfl, rfl, flowEndStats_complete _ _ hall, ?_⟩
    · show tw'.stHandle = m.tw.stHandle
      rw [hst', hst]
    · rw [ok3.flowOf_ending h3, ok2.flowOf_setFlow h]
      exact update_idem _ _ _
  · exact ⟨_, rfl, ok1, hst, rfl, rfl, rfl, rfl⟩

/-- The header passes the two checks of `handle_packet`. -/
def Accepted (rxh : CRxCheckHeader) : Prop :=
  rxh.magic = rxCheckMagic ∧ rxh.pktId.toNat + 1 ≤ rxh.flowSize.toNat

/-- **What a packet can do.**  When no timer fires it changes its own flow only. -/
structure Received (m : RxCheckManager) (rxh : CRxCheckHeader) (m' : RxCheckManager) : Prop where
  ok : m'.Ok none
  onDrain : m'.onDrain = m.onDrain
  fired : m.tw.stHandle ≤ m'.tw.stHandle
  errors : m.stats.getTotalErr ≤ m'.stats.getTotalErr
  counted : m.onDrain = false → m.tw.stHandle < m'.tw.stHandle → 0 < m'.stats.getTotalErr
  quiet : Accepted rxh → m'.tw.stHandle = m.tw.stHandle →
    m'.flowOf = update m.flowOf rxh.flowId (nextFlow (m.flowOf rxh.flowId) rxh) ∧
      m'.stats.getTotalErr = m.stats.getTotalErr + errorsOf (m.flowOf rxh.flowId) rxh ∧
      (errorsOf (m.flowOf rxh.flowId) rxh = 0 → m.NoTemplateErr → m'.NoTemplateErr)

/-- A header that is not accepted is an error, and nothing else. -/
theorem Ok.refused (ok : m.Ok none) {rxh : CRxCheckHeader} (hacc : ¬ Accepted rxh)
    (hactive : stats.active = m.stats.active) (hadd : stats.add = m.stats.add)
    (hremove : stats.remove = m.stats.remove) (herr : m.stats.getTotalErr ≤ stats.getTotalErr)
    (i : UInt8) :
    Received m rxh ({ m with stats }.updateTemplateErr i) where
  ok := ok.of_eq rfl rfl rfl rfl hactive (by
    show stats.add = stats.remove + stats.active
    rw [hactive, hadd, hremove]
    exact ok.balance)
  onDrain := rfl
  fired := le_rfl
  errors := herr
  counted _ h := absurd h (lt_irrefl _)
  quiet h := absurd h hacc

/-- The flow of a header has its id, and has not ended. -/
theorem Ok.track_flowId (ok : m.Ok none) (rxh : CRxCheckHeader) :
    (track {} (m.flowOf rxh.flowId) rxh).1.flowId = rxh.flowId ∧
      (track {} (m.flowOf rxh.flowId) rxh).1.agedCorrectly = false := by
  cases hlf : m.flowOf rxh.flowId with
  | none => exact (track_none {} rxh).2.2.2
  | some lf =>
    obtain ⟨q, -, hq⟩ := Option.bind_eq_some_iff.mp hlf
    obtain ⟨-, -, -, hid, ha⟩ := track_some {} lf rxh
    exact ⟨hid.trans (ok.flowOf_flowId hlf), ha.trans (ok.aged hq (by simp))⟩

/-- `handle_packet` after the two checks. -/
theorem Ok.receive (ok : m.Ok none) (ties : Nat → Nat) (rxh : CRxCheckHeader) :
    ∃ m', m.receive ties rxh = .ok m' ∧ Received m rxh m' := by
  obtain ⟨m1, p, hrun1, htr⟩ := ok.trackPacket rxh
  obtain ⟨hflowId, haged⟩ := ok.track_flowId rxh
  obtain ⟨m2, hrun2, ok2, hst2, hdrain2, htemp2, herr2, hflow2⟩ :=
    htr.ok.rearm htr.flow haged rxh.agingSec
  have hst : m2.tw.stHandle = m.tw.stHandle := hst2.trans htr.fired
  have herr : m2.stats.getTotalErr = m.stats.getTotalErr + errorsOf (m.flowOf rxh.flowId) rxh :=
    herr2.trans htr.errors
  have hdrain : m2.onDrain = m.onDrain := hdrain2.trans htr.onDrain
  have htable : m2.flowOf =
      update m.flowOf rxh.flowId (nextFlow (m.flowOf rxh.flowId) rxh) := by
    rw [hflow2, htr.table, hflowId]
    unfold nextFlow
    dsimp only
    split
    · exact update_idem _ _ _
    · rfl
  have htemplate : errorsOf (m.flowOf rxh.flowId) rxh = 0 → m.NoTemplateErr → m2.NoTemplateErr :=
    fun hz h => (htr.template hz h).congr htemp2
  obtain ⟨m3, hrun3, haged3⟩ : ∃ m3,
      (if m2.stats.lookup % 256 = 0 then m2.twHandle ties else .ok m2) = .ok m3 ∧ Aged m2 m3 := by
    split
    · exact ok2.tryHandleEvents ties m2.curTime
    · exact ⟨m2, rfl, Aged.refl ok2⟩
  refine ⟨m3, ?_, haged3.ok, haged3.onDrain.trans hdrain, ?_, ?_, ?_, ?_⟩
  · unfold RxCheckManager.receive
    simp only [hrun1, ok_bind, hrun2]
    exact hrun3
  · rw [← hst]
    exact haged3.fired
  · have := haged3.errors
    omega
  · intro hd hlt
    exact haged3.counted (hdrain.trans hd) (by omega)
  · intro _ hq
    obtain ⟨hf, hs, ht⟩ := haged3.quiet (by omega)
    exact ⟨hf.trans htable, by rw [hs, herr], fun hz h => (htemplate hz h).congr ht⟩

/-- **`handle_packet` returns, and keeps the records of the manager.** -/
theorem Ok.handlePacket (ok : m.Ok none) (ties : Nat → Nat) (rxh : CRxCheckHeader) (now : Rat) :
    ∃ m', m.handlePacket ties rxh now = .ok m' ∧ Received m rxh m' := by
  unfold RxCheckManager.handlePacket
  dsimp only
  split
  · rename_i hmagic
    have hacc : ¬ Accepted rxh := fun h => hmagic h.1
    refine ⟨_, rfl, Ok.refused ok hacc ?_ ?_ ?_ ?_ _⟩
    · rfl
    · rfl
    · rfl
    · simp only [CRxCheckFlowTableStats.getTotalErr]
      omega
  · split
    · rename_i hid
      have hacc : ¬ Accepted rxh := fun h => absurd h.2 (by omega)
      refine ⟨_, rfl, Ok.refused ok hacc ?_ ?_ ?_ ?_ _⟩
      · rfl
      · rfl
      · rfl
      · simp only [CRxCheckFlowTableStats.getTotalErr]
        omega
    · have ok0 : { m with stats := { m.stats with totalRx := m.stats.totalRx + 1 },
                          curTime := now }.Ok none := ok.of_eq rfl rfl rfl rfl rfl ok.balance
      obtain ⟨m', hrun, hrec⟩ := ok0.receive ties rxh
      exact ⟨m', hrun, hrec.ok, hrec.onDrain, hrec.fired, hrec.errors, hrec.counted, hrec.quiet⟩

/-! ## 5. A run -/

/-- **Every call returns, and keeps the records of the manager.** -/
theorem Ok.step (ok : m.Ok none) (ties : Nat → Nat) (e : RxEvent) :
    ∃ m', RxCheckManager.step ties m e = .ok m' ∧ m'.Ok none := by
  cases e with
  | packet rxh now =>
    obtain ⟨m', hrun, hrec⟩ := ok.handlePacket ties rxh now
    exact ⟨m', hrun, hrec.ok⟩
  | twHandle now =>
    have ok0 : { m with curTime := now }.Ok none := ok.of_eq rfl rfl rfl rfl rfl ok.balance
    obtain ⟨m', hrun, haged⟩ := ok0.tryHandleEvents ties now
    exact ⟨m', hrun, haged.ok⟩
  | twDrain =>
    have ok0 : { m with onDrain := true }.Ok none := ok.of_eq rfl rfl rfl rfl rfl ok.balance
    obtain ⟨m', hrun, haged⟩ := ok0.drainAll ties
    refine ⟨{ m' with onDrain := false }, ?_, haged.ok.of_eq rfl rfl rfl rfl rfl haged.ok.balance⟩
    simp only [RxCheckManager.step, twDrain, hrun, ok_bind]

theorem Ok.run (ties : Nat → Nat) (events : List RxEvent) : ∀ m : RxCheckManager, m.Ok none →
    ∃ m', m.run ties events = .ok m' ∧ m'.Ok none := by
  induction events with
  | nil => exact fun m ok => ⟨m, rfl, ok⟩
  | cons e events ih =>
    intro m ok
    obtain ⟨m1, hstep, ok1⟩ := ok.step ties e
    obtain ⟨m', hrun, ok'⟩ := ih m1 ok1
    refine ⟨m', ?_, ok'⟩
    rw [RxCheckManager.run, List.foldlM_cons, hstep, ok_bind]
    exact hrun

/-- A timer of the wheel runs for a flow. -/
def TimerFor (m : RxCheckManager) (p t : Ptr) : Prop :=
  t ∈ m.tw.pq ∧ ∃ timer, m.tw.timers t = some timer ∧ timer.flow = some p

/-- The flow table, its counters and the timers agree. -/
structure TableInvariant (m : RxCheckManager) : Prop where
  active_add : m.stats.remove ≤ m.stats.add ∧ m.stats.active = m.stats.add - m.stats.remove
  active_count : m.stats.active = m.count
  table : ∀ k p, m.ft.lookup k = some p → ∃ lf, m.flows p = some lf ∧ lf.flowId = k
  timer : ∀ k p, m.ft.lookup k = some p → ∃! t, m.TimerFor p t
  timer_once : m.tw.pq.Nodup
  flow : ∀ p t, m.TimerFor p t → ∃ k, m.ft.lookup k = some p

/-- **The invariant of the RX check**: any sequence of packets, with any headers at any times, and
of aging calls, returns, which no call does that follows a pointer to a flow or a timer that was
freed; and the table, the counters and the timers agree after it. -/
theorem run_tableInvariant (ties : Nat → Nat) (events : List RxEvent) :
    ∃ m, create.run ties events = .ok m ∧ m.TableInvariant := by
  obtain ⟨m, hrun, ok⟩ := Ok.run ties events create create_ok
  refine ⟨m, hrun, ?_, ok.size, fun _ _ => ok.find, ?_, ok.wheel.nodup, ?_⟩
  · have := ok.balance
    omega
  · intro k p hk
    obtain ⟨lf, hlf, -⟩ := ok.find hk
    obtain ⟨hd, hhd, -, -, -, htm⟩ := ok.handle hlf
    obtain ⟨t, ht⟩ := Option.isSome_iff_exists.mp (htm (by simp))
    obtain ⟨timer, htimer, hf⟩ := ok.wheel.own hhd ht
    refine ⟨t, ⟨(ok.wheel.mem t).mpr (by simp [htimer]), timer, htimer, hf⟩, ?_⟩
    rintro s ⟨-, timer', hs, hf'⟩
    exact ok.wheel.unique hs hf' htimer hf
  · rintro p t ⟨-, timer, ht, hf⟩
    obtain ⟨hd, hhd, -⟩ := ok.wheel.back ht hf
    obtain ⟨lf, hlf⟩ := ok.owned hhd
    exact ⟨lf.flowId, ok.live hlf⟩

end RxCheckManager

end Trex.Rx
