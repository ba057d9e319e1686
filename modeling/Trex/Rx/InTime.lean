/-
# Deliveries in time

`handle_packet` restarts the timer of a flow for the aging that the header carries, and the wheel
ends every flow whose timer is due when it is called.  A delivery is **in time** (`InTime`) when a
flow that has packets to come is not left alone for longer than the aging of its last one.

* `dueOf` is what the timers are to the user of the table: when the flow of an id is ended.
* A flow of the table has packets to come, when in the end no flow is left.  `Waiting` says that
  such a flow is not disturbed until then, and every call keeps it (`Waiting.step`).
* So no timer fires (`InTime.noneFires`), and flows that arrive in order and in time are no error
  (`sound_inTime`).
-/
import Trex.Rx.Track
import Trex.Rx.WheelAgenda

namespace Trex.Rx

open Trex.Lib
open Function (update update_of_ne update_self)

/-- A handle that is made with no timer is not armed. -/
theorem CTimerWheel.armedAt_setHandle {w : CTimerWheel} {h : Ptr} {handle : CFlowTimerHandle}
    (hnew : w.handles h = none) (htm : handle.timer = none) :
    (w.setHandle h handle).armedAt = w.armedAt := by
  funext g
  by_cases hg : g = h
  · subst hg
    simp [armedAt, setHandle, hnew, htm]
  · simp [armedAt, setHandle, hg]

/-- A handle with no timer is freed. -/
theorem CTimerWheel.armedAt_dropHandle (w : CTimerWheel) (h : Ptr) :
    (w.dropHandle h).armedAt = update w.armedAt h none := by
  funext g
  by_cases hg : g = h
  · subst hg
    simp [armedAt, dropHandle]
  · simp [armedAt, dropHandle, hg]

namespace RxCheckManager

/-! ## 1. Deliveries in time -/

/-- For how long `handle_packet` starts the timer of a flow: at least 5 seconds. -/
def agingOf (rxh : CRxCheckHeader) : Rat := (max rxh.agingSec 5).toNat

/-- Until the next packet of a flow, no call comes after the time `due`. -/
def Undisturbed (k : UInt64) (due : Rat) : List RxEvent → Prop
  | [] => True
  | .packet rxh now :: es => rxh.flowId = k ∨ now ≤ due ∧ Undisturbed k due es
  | .twHandle now :: es => now ≤ due ∧ Undisturbed k due es
  | .twDrain :: _ => False

/-- **A delivery in time.**  The clock is not negative, and a packet of a flow that is not its last
one is followed by the next before a call that is later than the aging, or a drain. -/
def InTime : List RxEvent → Prop
  | [] => True
  | .packet rxh now :: es =>
    0 ≤ now ∧ (rxh.flowId ∈ (headers es).map (·.flowId) →
      Undisturbed rxh.flowId (now + agingOf rxh) es) ∧ InTime es
  | .twHandle _ :: es => InTime es
  | .twDrain :: es => InTime es

instance decidableUndisturbed (k : UInt64) (due : Rat) :
    ∀ es : List RxEvent, Decidable (Undisturbed k due es)
  | [] => inferInstanceAs (Decidable True)
  | .packet _ _ :: es =>
    have := decidableUndisturbed k due es
    inferInstanceAs (Decidable (_ ∨ _ ∧ _))
  | .twHandle _ :: es =>
    have := decidableUndisturbed k due es
    inferInstanceAs (Decidable (_ ∧ _))
  | .twDrain :: _ => inferInstanceAs (Decidable False)

instance decidableInTime : ∀ es : List RxEvent, Decidable (InTime es)
  | [] => inferInstanceAs (Decidable True)
  | .packet _ _ :: es =>
    have := decidableInTime es
    inferInstanceAs (Decidable (_ ∧ (_ → _) ∧ _))
  | .twHandle _ :: es => decidableInTime es
  | .twDrain :: es => decidableInTime es

/-- A flow that has no packet to come stays as it is. -/
theorem runTable_of_not_mem {k : UInt64} (hs : List CRxCheckHeader) (T : Flows)
    (h : k ∉ hs.map (·.flowId)) : runTable T hs k = T k := by
  have hnil : hs.filter (·.flowId == k) = [] := by
    refine List.filter_eq_nil_iff.mpr fun rxh hr => ?_
    have hne : rxh.flowId ≠ k := fun he => h (List.mem_map.mpr ⟨rxh, hr, he⟩)
    simpa using hne
  rw [runTable_apply, hnil]
  rfl

variable {m m' : RxCheckManager} {p : Ptr} {lf : CRxCheckFlow} {k : UInt64} {u : Rat}

/-! ## 2. When flows are ended -/

/-- When the timer of the flow of an id is due. -/
def dueOf (m : RxCheckManager) (k : UInt64) : Option Rat := (m.ft.lookup k).bind m.tw.armedAt

variable {off : Option Ptr} {e : RxEvent} {es : List RxEvent}

/-- A timer runs for a flow of the table. -/
theorem Ok.key_of_armed (ok : m.Ok off) (h : m.tw.armedAt p = some u) :
    ∃ k, m.ft.lookup k = some p ∧ m.dueOf k = some u := by
  obtain ⟨t, timer, ht, hf, -⟩ := ok.wheel.timer_of_armedAt h
  obtain ⟨hd, hhd, -⟩ := ok.wheel.back ht hf
  obtain ⟨lf, hlf⟩ := ok.owned hhd
  exact ⟨lf.flowId, ok.live hlf, by simp [dueOf, ok.live hlf, h]⟩

/-- Two ids do not share a flow. -/
theorem Ok.lookup_inj (ok : m.Ok off) {k' : UInt64} (h : m.ft.lookup k = some p)
    (h' : m.ft.lookup k' = some p) : k = k' := by
  obtain ⟨lf, hlf, rfl⟩ := ok.find h
  obtain ⟨lf', hlf', rfl⟩ := ok.find h'
  rw [hlf] at hlf'
  cases hlf'
  rfl

/-- **Nothing fires when nothing is due.** -/
theorem Ok.handleWhile_idle (ok : m.Ok none) (hc : m.tw.Counted) (ties : Nat → Nat)
    {due : Rat → Bool} (hdue : ∀ k u, m.dueOf k = some u → due u = false) (fuel : Nat) :
    ∃ tw, RxCheckManager.handleWhile ties due (fuel + 1) m = .ok { m with tw } ∧
      tw.handles = m.tw.handles ∧ tw.stHandle = m.tw.stHandle ∧ tw.Holds m.tw.armedAt := by
  have hold : m.tw.Holds m.tw.armedAt := ⟨ok.wheel, hc, rfl⟩
  obtain ⟨tw, time, hrun, hold', hh, -, -, hsome⟩ := hold.peekTopTime ties
  obtain ⟨tw', time', hrun', -, -, hst, -, -⟩ := ok.wheel.peekTopTime ties
  rw [hrun] at hrun'
  cases hrun'
  refine ⟨tw, ?_, hh, hst, hold'⟩
  unfold RxCheckManager.handleWhile
  simp only [hrun, ok_bind]
  cases time with
  | none => rfl
  | some time =>
    obtain ⟨h, harmed, -⟩ := hsome time rfl
    obtain ⟨k, -, hk⟩ := ok.key_of_armed harmed
    simp [hdue k time hk]

/-- What is stored of a header is neither in the table nor in the wheel. -/
theorem store_keeps (m : RxCheckManager) (p : Ptr) (i : UInt8)
    (tracked : CRxCheckFlow × CRxCheckFlowTableStats × Bool) :
    (m.store p i tracked).tw = m.tw ∧ (m.store p i tracked).ft = m.ft ∧
      (m.store p i tracked).curTime = m.curTime := by
  unfold RxCheckManager.store
  dsimp only
  split <;> exact ⟨rfl, rfl, rfl⟩

/-- A flow that is added has a handle, with no timer. -/
theorem findOrAdd_new (h : m.ft.lookup k = none) :
    ∃ m', m.findOrAdd k = .ok (m', m.fresh, none) ∧
      m'.tw = m.tw.setHandle m.fresh { object := some m.fresh, object1 := true, id := 0x1234 } ∧
      m'.ft = m.ft.insert k m.fresh ∧ m'.curTime = m.curTime := by
  have hget : (m.ftAdd k).1.tw.getHandle m.fresh = .ok { object := some m.fresh, id := 0x1234 } :=
    CTimerWheel.getHandle_eq (by simp [ftAdd, CTimerWheel.setHandle])
  refine ⟨{ (m.ftAdd k).1 with
    tw := (m.ftAdd k).1.tw.setHandle m.fresh { object := some m.fresh, object1 := true,
                                               id := 0x1234 } },
    ?_, ?_, ?_, rfl⟩
  · rw [findOrAdd, h]
    exact congrArg (· >>= _) hget
  · simp [ftAdd, CTimerWheel.setHandle]
  · simp [ftAdd, h]

/-- `trackPacket` starts no timer. -/
theorem Ok.trackPacket_timers (ok : m.Ok none) (rxh : CRxCheckHeader)
    (hrun : m.trackPacket rxh = .ok (m', p)) :
    m'.tw.armedAt = m.tw.armedAt ∧ (m.tw.Counted → m'.tw.Counted) ∧ m'.curTime = m.curTime ∧
      m'.ft.lookup rxh.flowId = some p ∧
      ∀ k ≠ rxh.flowId, m'.ft.lookup k = m.ft.lookup k := by
  unfold RxCheckManager.trackPacket at hrun
  cases hft : m.ft.lookup rxh.flowId with
  | none =>
    have hnew : m.tw.handles m.fresh = none := by
      rw [Option.eq_none_iff_forall_ne_some]
      intro hd hhd
      obtain ⟨lf, hlf⟩ := ok.owned hhd
      rw [ok.fresh _ le_rfl] at hlf
      cases hlf
    obtain ⟨m1, hfind, htw1, hft1, hcur1⟩ := findOrAdd_new (m := m.looking rxh) hft
    rw [hfind, ok_bind] at hrun
    cases hrun
    obtain ⟨htw, hfts, hcur⟩ :=
      store_keeps m1 (m.looking rxh).fresh rxh.templateId (track m1.stats none rxh)
    rw [htw, hfts, hcur, htw1, hft1, hcur1]
    refine ⟨CTimerWheel.armedAt_setHandle hnew rfl, fun h => h, rfl, by simp, fun k hk => ?_⟩
    rw [AList.lookup_insert_ne hk]
    rfl
  | some q =>
    obtain ⟨lf, hlf, -⟩ := ok.find hft
    rw [findOrAdd_some (m := m.looking rxh) hft hlf, ok_bind] at hrun
    cases hrun
    obtain ⟨htw, hfts, hcur⟩ :=
      store_keeps (m.looking rxh) p rxh.templateId (track (m.looking rxh).stats (some lf) rxh)
    rw [htw, hfts, hcur]
    exact ⟨rfl, id, rfl, hft, fun _ _ => rfl⟩

/-- The time at which one flow is ended. -/
theorem Ok.dueOf_eq (ok : m.Ok off) (hk : m.ft.lookup k = some p) (m' : RxCheckManager)
    (hft : ∀ k' ≠ k, m'.ft.lookup k' = m.ft.lookup k')
    (htw : ∀ q ≠ p, m'.tw.armedAt q = m.tw.armedAt q) :
    m'.dueOf = update m.dueOf k (m'.dueOf k) := by
  funext k'
  by_cases hkk : k' = k
  · subst hkk
    simp
  · rw [update_of_ne hkk, dueOf, dueOf, hft k' hkk]
    cases hq : m.ft.lookup k' with
    | none => rfl
    | some q =>
      have hqp : q ≠ p := fun he => hkk (ok.lookup_inj (he ▸ hq) hk)
      simp [htw q hqp]

/-- **`rearm` starts the timer of a flow**, and stops it when the flow is complete. -/
theorem Ok.rearm_timers (ok : m.Ok (some p)) (h : m.flows p = some lf) (hc : m.tw.Counted)
    (htime : 0 ≤ m.curTime) {agingSec : UInt16} (hrun : m.rearm p agingSec = .ok m') :
    m'.tw.Counted ∧ m'.curTime = m.curTime ∧ m'.dueOf = update m.dueOf lf.flowId
      (if lf.isAllPktsSeen then none else some (m.curTime + (max agingSec 5).toNat)) := by
  obtain ⟨hd, hhd, -⟩ := ok.handle h
  have hkey := ok.live h
  have hold : m.tw.Holds m.tw.armedAt := ⟨ok.wheel, hc, rfl⟩
  have hpos : 0 < m.curTime + ((max agingSec 5).toNat : Rat) := by
    have haging : 0 < (max agingSec 5).toNat := by
      rw [show max agingSec 5 = if agingSec ≤ 5 then 5 else agingSec from rfl]
      split
      · decide
      · rename_i hle
        have := mt UInt16.le_iff_toNat_le.mpr hle
        simp only [UInt16.toNat_ofNat] at this
        omega
    exact add_pos_of_nonneg_of_pos htime (Nat.cast_pos.mpr haging)
  obtain ⟨tw, hrestart, hold1, hdom⟩ := hold.restartTimer hhd hpos
  obtain ⟨hd1, hhd1⟩ : ∃ hd1, tw.handles p = some hd1 := by
    rw [← Option.isSome_iff_exists, hdom, hhd]
    rfl
  unfold RxCheckManager.rearm at hrun
  simp only [hrestart, ok_bind, getFlow_eq (m := { m with tw }) h] at hrun
  split at hrun
  · rename_i hall
    obtain ⟨tw', hstop, hold2, -⟩ := hold1.stopTimer hhd1
    have h3 : ({ m with tw := tw' }.setFlow p { lf with agedCorrectly := true }).flows p =
        some { lf with agedCorrectly := true } := by simp [RxCheckManager.setFlow]
    simp only [hstop, ok_bind, onFlowEnd_eq h3 hkey] at hrun
    cases hrun
    have hother := ok.dueOf_eq hkey (({ m with tw := tw' }.setFlow p
        { lf with agedCorrectly := true }).ending p { lf with agedCorrectly := true })
      (fun k' hk' => AList.lookup_erase_ne hk') fun q hq => by
        show (tw'.dropHandle p).armedAt q = _
        rw [CTimerWheel.armedAt_dropHandle, update_of_ne hq, hold2.armed]
        simp [Agenda.apply, hq]
    refine ⟨hold2.counted, rfl, ?_⟩
    rw [hother, if_pos hall]
    simp [dueOf, RxCheckManager.ending]
  · rename_i hall
    cases hrun
    have hother := ok.dueOf_eq hkey { m with tw } (fun _ _ => rfl) fun q hq => by
      show tw.armedAt q = _
      rw [hold1.armed]
      simp [Agenda.apply, hq]
    refine ⟨hold1.counted, rfl, ?_⟩
    rw [hother, if_neg hall]
    simp [dueOf, hkey, hold1.armed, Agenda.apply]

/-- What the timers are after a packet: that of its flow runs while the flow is in the table. -/
theorem Ok.receive_timers (ok : m.Ok none) (hc : m.tw.Counted) (htime : 0 ≤ m.curTime)
    (ties : Nat → Nat) (rxh : CRxCheckHeader)
    (hlate : ∀ k ≠ rxh.flowId, ∀ u, m.dueOf k = some u → m.curTime ≤ u) :
    ∃ m', m.receive ties rxh = .ok m' ∧ Received m rxh m' ∧ m'.tw.stHandle = m.tw.stHandle ∧
      m'.tw.Counted ∧ m'.dueOf = update m.dueOf rxh.flowId
        (if (nextFlow (m.flowOf rxh.flowId) rxh).isSome then some (m.curTime + agingOf rxh)
          else none) := by
  obtain ⟨m1, p, hrun1, htr⟩ := ok.trackPacket rxh
  obtain ⟨hflowId, haged⟩ := ok.track_flowId rxh
  obtain ⟨harmed1, hc1, hcur1, -, hft1⟩ := ok.trackPacket_timers rxh hrun1
  obtain ⟨m2, hrun2, ok2, hst2, -⟩ := htr.ok.rearm htr.flow haged rxh.agingSec
  obtain ⟨hc2, hcur2, hdue2⟩ :=
    htr.ok.rearm_timers htr.flow (hc1 hc) (hcur1 ▸ htime) hrun2
  have hdue : m2.dueOf = update m.dueOf rxh.flowId
      (if (nextFlow (m.flowOf rxh.flowId) rxh).isSome then some (m.curTime + agingOf rxh)
        else none) := by
    rw [hdue2, hflowId, hcur1]
    funext k
    by_cases hk : k = rxh.flowId
    · subst hk
      simp only [update_self, nextFlow, agingOf]
      split_ifs <;> simp_all
    · simp only [update_of_ne hk, dueOf, hft1 k hk, harmed1]
  have hcur : m2.curTime = m.curTime := hcur2.trans hcur1
  have hnotDue : ∀ k u, m2.dueOf k = some u → decide (u < m2.curTime) = false := by
    intro k u hu
    rw [decide_eq_false_iff_not, not_lt, hcur]
    rw [hdue] at hu
    by_cases hk : k = rxh.flowId
    · -- its timer was restarted now
      subst hk
      rw [update_self] at hu
      split at hu
      · cases hu
        exact le_add_of_nonneg_right (Nat.cast_nonneg _)
      · cases hu
    · rw [update_of_ne hk] at hu
      exact hlate k hk u hu
  have hst : m2.tw.stHandle = m.tw.stHandle := hst2.trans htr.fired
  obtain ⟨m', hrun, hrec⟩ := ok.receive ties rxh
  refine ⟨m', hrun, hrec, ?_⟩
  unfold RxCheckManager.receive at hrun
  simp only [hrun1, ok_bind, hrun2] at hrun
  split at hrun
  · obtain ⟨tw, hidle, -, hst', hold⟩ := ok2.handleWhile_idle hc2 ties hnotDue m2.tw.pq.length
    rw [RxCheckManager.twHandle, RxCheckManager.tryHandleEvents, hidle] at hrun
    cases hrun
    refine ⟨hst'.trans hst, hold.counted, ?_⟩
    rw [← hdue]
    funext k
    show (m2.ft.lookup k).bind tw.armedAt = (m2.ft.lookup k).bind m2.tw.armedAt
    rw [hold.armed]
  · cases hrun
    exact ⟨hst, hc2, hdue⟩

/-! ## 3. Flows that have packets to come -/

/-- **The flows of the table are waited for**: in the end no flow is left, and until its next packet
no flow is ended by its timer. -/
structure Waiting (m : RxCheckManager) (es : List RxEvent) : Prop where
  ok : m.Ok none
  counted : m.tw.Counted
  accepted : ∀ rxh ∈ headers es, Accepted rxh
  ends : ∀ k, runTable m.flowOf (headers es) k = none
  undisturbed : ∀ k u, m.dueOf k = some u → Undisturbed k u es

/-- A call of the wheel that fires nothing leaves the flows waited for. -/
theorem Waiting.aging (h : Waiting m (e :: es)) (he : e.header? = none)
    (hrest : ∀ k u, Undisturbed k u (e :: es) → Undisturbed k u es) (ok : m'.Ok none)
    (hft : m'.ft = m.ft) (hflows : m'.flows = m.flows) (hold : m'.tw.Holds m.tw.armedAt) :
    Waiting m' es := by
  have hheaders : headers (e :: es) = headers es := by simp [headers, he]
  have hflowOf : m'.flowOf = m.flowOf := by
    funext k
    rw [flowOf, flowOf, hft, hflows]
  refine ⟨ok, hold.counted, ?_, ?_, ?_⟩
  · rw [← hheaders]
    exact h.accepted
  · rw [← hheaders, hflowOf]
    exact h.ends
  · intro k u hu
    rw [dueOf, hft, hold.armed] at hu
    exact hrest k u (h.undisturbed k u hu)

/-- **Every call keeps the flows waited for**, and fires nothing. -/
theorem Waiting.step (h : Waiting m (e :: es)) (hin : InTime (e :: es)) (ties : Nat → Nat) :
    ∃ m', RxCheckManager.step ties m e = .ok m' ∧ m'.tw.stHandle = m.tw.stHandle ∧
      Waiting m' es := by
  cases e with
  | twHandle now =>
    have hnotDue : ∀ k u, m.dueOf k = some u → decide (u < now) = false := by
      intro k u hu
      simpa using (h.undisturbed k u hu).1
    have ok0 : { m with curTime := now }.Ok none := h.ok.of_eq rfl rfl rfl rfl rfl h.ok.balance
    obtain ⟨tw, hrun, hh, hst, hold⟩ := ok0.handleWhile_idle h.counted ties hnotDue m.tw.pq.length
    exact ⟨_, hrun, hst,
      h.aging rfl (fun _ _ hu => hu.2) (ok0.setWheel hold.ok hh) rfl rfl hold⟩
  | twDrain =>
    have hnone : ∀ k u, m.dueOf k = some u → true = false := fun k u hu =>
      (h.undisturbed k u hu).elim
    have ok0 : { m with onDrain := true }.Ok none := h.ok.of_eq rfl rfl rfl rfl rfl h.ok.balance
    obtain ⟨tw, hrun, hh, hst, hold⟩ := ok0.handleWhile_idle h.counted ties hnone m.tw.pq.length
    have ok1 := ok0.setWheel hold.ok hh
    refine ⟨{ m with tw, onDrain := false }, ?_, hst,
      h.aging rfl (fun _ _ hu => hu.elim) (ok1.of_eq rfl rfl rfl rfl rfl ok1.balance) rfl rfl hold⟩
    rw [RxCheckManager.step, RxCheckManager.twDrain, RxCheckManager.drainAll]
    exact congrArg (· >>= _) hrun
  | packet rxh now =>
    obtain ⟨htime, hnext, -⟩ := hin
    have hacc : Accepted rxh := h.accepted rxh (by simp [headers, RxEvent.header?])
    have hcons : headers (.packet rxh now :: es) = rxh :: headers es := rfl
    have ok0 : { m with
        stats := { m.stats with totalRx := m.stats.totalRx + 1 }, curTime := now }.Ok none :=
      h.ok.of_eq rfl rfl rfl rfl rfl h.ok.balance
    have hlate : ∀ k ≠ rxh.flowId, ∀ u, m.dueOf k = some u → now ≤ u := fun k hk u hu =>
      ((h.undisturbed k u hu).resolve_left (Ne.symm hk)).1
    obtain ⟨m', hrun, hrec, hst, hc', hdue⟩ := ok0.receive_timers h.counted htime ties rxh hlate
    obtain ⟨hflow, -, -⟩ := hrec.quiet hacc hst
    have hself : m'.flowOf rxh.flowId = nextFlow (m.flowOf rxh.flowId) rxh := by
      rw [hflow, update_self]
      rfl
    have hends : ∀ k, runTable m'.flowOf (headers es) k = none := by
      intro k
      rw [hflow]
      exact h.ends k
    refine ⟨m', ?_, hst, hrec.ok, hc', ?_, hends, ?_⟩
    · have hid : ¬ rxh.pktId.toNat + 1 > rxh.flowSize.toNat := not_lt.mpr hacc.2
      rw [RxCheckManager.step, RxCheckManager.handlePacket]
      simp only [hacc.1, ne_eq, not_true_eq_false, ↓reduceIte, hid]
      exact hrun
    · exact fun r hr => h.accepted r (hcons ▸ List.mem_cons_of_mem _ hr)
    · intro k u hu
      rw [hdue] at hu
      by_cases hk : k = rxh.flowId
      · -- a flow that stays in the table has a packet to come
        subst hk
        rw [update_self] at hu
        split at hu
        · rename_i hsome
          cases hu
          refine hnext ?_
          by_contra hmem
          have hgone := hends rxh.flowId
          rw [runTable_of_not_mem _ _ hmem, hself] at hgone
          have hsome' : (nextFlow (m.flowOf rxh.flowId) rxh).isSome := hsome
          rw [hgone] at hsome'
          cases hsome'
        · cases hu
      · rw [update_of_ne hk] at hu
        exact ((h.undisturbed k u hu).resolve_left (Ne.symm hk)).2

theorem InTime.tail (h : InTime (e :: es)) : InTime es := by
  cases e with
  | packet rxh now => exact h.2.2
  | twHandle now => exact h
  | twDrain => exact h

/-- **No timer fires in a delivery in time.** -/
theorem Waiting.run (ties : Nat → Nat) (es : List RxEvent) : ∀ m : RxCheckManager,
    Waiting m es → InTime es →
      ∃ m', m.run ties es = .ok m' ∧ m'.tw.stHandle = m.tw.stHandle := by
  induction es with
  | nil => exact fun m _ _ => ⟨m, rfl, rfl⟩
  | cons e es ih =>
    intro m h hin
    obtain ⟨m1, hstep, hst, h1⟩ := h.step hin ties
    obtain ⟨m', hrun, hst'⟩ := ih m1 h1 hin.tail
    refine ⟨m', ?_, hst'.trans hst⟩
    rw [RxCheckManager.run, List.foldlM_cons, hstep, ok_bind]
    exact hrun

/-- A delivery in time whose headers leave no flow fires no timer. -/
theorem InTime.noneFires {events : List RxEvent} (h : InTime events)
    (hacc : ∀ rxh ∈ headers events, Accepted rxh)
    (hends : ∀ k, runTable (fun _ => none) (headers events) k = none) (ties : Nat → Nat) :
    ∃ m, create.run ties events = .ok m ∧ m.tw.stHandle = 0 :=
  Waiting.run ties events create
    ⟨create_ok, rfl, hacc, hends, fun k u hu => by simp [dueOf, create] at hu⟩ h

/-- **Soundness, with the timers.**  When the packets of each direction arrive once, in order and in
time, no error is reported, for the table or for a template, and no flow is left in the table. -/
theorem sound_inTime (ties : Nat → Nat) (sizes : Sizes) (events : List RxEvent)
    (hst : ∀ rxh ∈ headers events, Stamped rxh.flowId (sizes rxh.flowId) rxh)
    (hids : ∀ k d, ids d ((headers events).filter (·.flowId == k)) = List.range (sizes k d).toNat)
    (hin : InTime events) :
    ∃ m, create.run ties events = .ok m ∧
      m.stats.getTotalErr = 0 ∧ m.NoTemplateErr ∧ m.count = 0 := by
  obtain ⟨hzero, hnone⟩ := table_in_order sizes (headers events) hst hids
  have hacc : ∀ rxh ∈ headers events, Accepted rxh := fun rxh hr => (hst rxh hr).accepted
  obtain ⟨m, hrun, hquiet⟩ := hin.noneFires hacc hnone ties
  obtain ⟨m', hrun', hran⟩ := Ok.ranRun ties events create create_ok
  rw [hrun] at hrun'
  cases hrun'
  exact ⟨m, hrun, hran.clean hquiet hacc hzero hnone⟩

example : InTime twoFlows := by decide +kernel

/-- The two packets of a flow, with a call of the wheel 19 seconds after the first. -/
def lateFlow : List RxEvent :=
  [.packet { magic := rxCheckMagic, flowId := 7, pktId := 0, flowSize := 2, flags := 0 } 1,
    .twHandle 20,
    .packet { magic := rxCheckMagic, flowId := 7, pktId := 1, flowSize := 2, flags := 0 } 21]

/-- **A delivery that is late is an error**, though nothing is lost: the flow is aged with a packet
missing, and its second packet opens a flow that has lost its first one. -/
theorem lateFlow_errs : ¬ InTime lateFlow ∧
    (create.run id lateFlow).map (fun m => (m.stats.errDrop, m.stats.errAged,
      m.stats.errOpenWithNoFifPkt, m.count)) = .ok (1, 1, 1, 1) := by
  constructor <;> decide +kernel

end RxCheckManager

end Trex.Rx
