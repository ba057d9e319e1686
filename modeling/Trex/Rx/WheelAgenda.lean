/-
# The timer wheel is an agenda

`TimerWheel.lean` has the queue of `CTimerWheel` and what one step does to it.  Here are its calls
with a callback (`handle`, `try_handle_events`, `drain_all`), and the proof that the wheel does what
a map from handles to the times that were last asked for would do.

* A callback may look at the wheel and at a state of its own, and may stop timers: `Callback`.  It
  starts none: `handle` takes the top from the queue after the callback, whatever the top is by
  then.
* `armedAt` reads the agenda off the wheel.  A timer that was moved is in the queue at a time that
  is smaller than its own, so that the top of the queue, when it was not moved, is due before every
  timer that is armed: `Holds.settle`.
* A timer with no handle is in the queue and not in the agenda.  The queue is what was allocated and
  not freed, with these timers: `Holds.counted`.
-/
import Trex.Rx.TimerWheel
import Trex.Lib.Agenda

namespace Trex.Rx

open Trex.Lib List
open Function (update update_eq_self_iff update_of_ne update_self)

/-- What a callback is given, and the handles that it stops.  A handle without a callback stops
none. -/
abbrev Callback (σ : Type) := σ → CTimerWheel → Ptr → σ × List Ptr

/-- One timer that was handled: the wheel when its callback was called, its time, its handle, and
the handles that the callback stopped. -/
structure Callout where
  wheel : CTimerWheel
  time : Rat
  handle : Ptr
  stopped : List Ptr

/-- What a callout does to the agenda. -/
def Callout.events (c : Callout) : List (AgendaEvent Ptr Rat) :=
  .fired c.handle c.time :: c.stopped.map .stopped

/-- When a timer is to expire. -/
def CFlowTimer.due (timer : CFlowTimer) : Rat :=
  if timer.isMoved then timer.updatedTime else timer.time

/-- A timer is not due before the time at which it is in the queue. -/
theorem CFlowTimer.time_le_due (timer : CFlowTimer) : timer.time ≤ timer.due := by
  unfold CFlowTimer.due
  split
  · rename_i hmoved
    have hlt : timer.updatedTime > timer.time := by
      simp only [CFlowTimer.isMoved, Bool.and_eq_true, decide_eq_true_eq] at hmoved
      exact hmoved.2
    exact hlt.le
  · exact le_rfl

namespace CTimerWheel

/-! ## 1. The calls -/

/-- The calls of `stop_timer` that a callback makes. -/
def stopAll (w : CTimerWheel) : List Ptr → Except Fault CTimerWheel
  | [] => .ok w
  | h :: hs => do
    let w ← w.stopTimer h
    w.stopAll hs

variable {σ : Type} (ties : Nat → Nat) (callback : Callback σ)

/-- `CTimerWheel::handle`. -/
def handle (w : CTimerWheel) (s : σ) : Except Fault (CTimerWheel × σ × Option Callout) := do
  let (w, top) ← settle ties w.settleFuel w
  match top with
  | none => .ok (w, s, none)
  | some t =>
    let time := w.timeOf t
    let (w, h) ← w.fire t
    let (s, stopped) := callback s w h
    let callout := { wheel := w, time, handle := h, stopped }
    let w ← w.stopAll stopped
    -- nothing was pushed since the top was read
    .ok (w.freeTimer t, s, some callout)

/-- The loop of `try_handle_events` and `drain_all`, which stops at the first time that is not
due. -/
def handleWhile (due : Rat → Bool) :
    Nat → CTimerWheel → σ → Except Fault (CTimerWheel × σ × List Callout)
  | 0, _, _ => .error .spin
  | fuel + 1, w, s => do
    let (w, time) ← w.peekTopTime ties
    match time with
    | none => .ok (w, s, [])
    | some time =>
      if due time then
        let (w, s, callout) ← w.handle ties callback s
        let (w, s, callouts) ← handleWhile due fuel w s
        .ok (w, s, callout.toList ++ callouts)
      else
        .ok (w, s, [])

/-- `CTimerWheel::try_handle_events`. -/
def tryHandleEvents (w : CTimerWheel) (s : σ) (now : Rat) :
    Except Fault (CTimerWheel × σ × List Callout) :=
  handleWhile ties callback (fun minTime => minTime < now) (w.pq.length + 1) w s

/-- `CTimerWheel::drain_all`. -/
def drainAll (w : CTimerWheel) (s : σ) : Except Fault (CTimerWheel × σ × List Callout) :=
  handleWhile ties callback (fun _ => true) (w.pq.length + 1) w s

end CTimerWheel

/-- A call of the owner of a wheel. -/
inductive WheelCall
  | restartTimer (h : Ptr) (newTime : Rat)
  | stopTimer (h : Ptr)
  | tryHandleEvents (now : Rat)
  | handle
  | drainAll

namespace CTimerWheel

variable {σ : Type} (ties : Nat → Nat) (callback : Callback σ)

/-- A new wheel, beside handles that are in memory. -/
def create (handles : Ptr → Option CFlowTimerHandle) : CTimerWheel := { handles }

/-- One call. -/
def perform (w : CTimerWheel) (s : σ) : WheelCall → Except Fault (CTimerWheel × σ × List Callout)
  | .restartTimer h newTime => do
    let w ← w.restartTimer h newTime
    .ok (w, s, [])
  | .stopTimer h => do
    let w ← w.stopTimer h
    .ok (w, s, [])
  | .tryHandleEvents now => w.tryHandleEvents ties callback s now
  | .handle => do
    let (w, s, callout) ← w.handle ties callback s
    .ok (w, s, callout.toList)
  | .drainAll => w.drainAll ties callback s

/-- One call after another, with what each of them handled. -/
def performAll (w : CTimerWheel) (s : σ) :
    List WheelCall → Except Fault (CTimerWheel × σ × List (WheelCall × List Callout))
  | [] => .ok (w, s, [])
  | call :: calls => do
    let (w, s, callouts) ← w.perform ties callback s call
    let (w, s, log) ← w.performAll s calls
    .ok (w, s, (call, callouts) :: log)

end CTimerWheel

/-! ## 2. What the calls are for -/

/-- What a callback stops are handles that are in memory. -/
def Callback.Valid {σ : Type} (callback : Callback σ) (handles : Ptr → Option CFlowTimerHandle) :
    Prop :=
  ∀ s w h, ∀ g ∈ (callback s w h).2, (handles g).isSome

/-- A call that the owner may make: of a handle that is in memory, with a time after zero. -/
def WheelCall.Valid (handles : Ptr → Option CFlowTimerHandle) : WheelCall → Prop
  | .restartTimer h newTime => (handles h).isSome ∧ 0 < newTime
  | .stopTimer h => (handles h).isSome
  | _ => True

theorem Callback.Valid.of_handles {σ : Type} {callback : Callback σ}
    {handles handles' : Ptr → Option CFlowTimerHandle} (hcb : callback.Valid handles)
    (h : ∀ g, (handles' g).isSome = (handles g).isSome) :
    Callback.Valid callback handles' := fun s w k g hg => by
  rw [h]
  exact hcb s w k g hg

theorem WheelCall.Valid.of_handles {handles handles' : Ptr → Option CFlowTimerHandle}
    {call : WheelCall} (hcall : call.Valid handles)
    (h : ∀ g, (handles' g).isSome = (handles g).isSome) : call.Valid handles' := by
  cases call with
  | restartTimer g newTime => exact ⟨by rw [h]; exact hcall.1, hcall.2⟩
  | stopTimer g => exact (h g).trans hcall
  | _ => exact trivial

/-- What a call does to the agenda by itself. -/
def WheelCall.events : WheelCall → List (AgendaEvent Ptr Rat)
  | .restartTimer h newTime => [.armed h newTime]
  | .stopTimer h => [.stopped h]
  | _ => []

/-- The history of some calls. -/
def history (log : List (WheelCall × List Callout)) : List (AgendaEvent Ptr Rat) :=
  log.flatMap fun entry => entry.1.events ++ entry.2.flatMap Callout.events

/-- What a call has to handle, with the agenda `A` before and `A'` after it. -/
def WheelCall.Complete (A A' : Agenda Ptr Rat) (callouts : List Callout) : WheelCall → Prop
  | .restartTimer _ _ => callouts = []
  | .stopTimer _ => callouts = []
  | .tryHandleEvents now =>
    (∀ c ∈ callouts, c.time < now) ∧ ∀ h t, A' h = some t → ¬ t < now
  | .handle =>
    (callouts = [] ∧ ∀ h, A h = none) ∨ ∃ c, callouts = [c]
  | .drainAll => ∀ h, A' h = none

/-- Every call handles what it has to. -/
def AllComplete : Agenda Ptr Rat → List (WheelCall × List Callout) → Prop
  | _, [] => True
  | A, (call, callouts) :: log =>
    let A' := A.after (call.events ++ callouts.flatMap Callout.events)
    call.Complete A A' callouts ∧ AllComplete A' log

namespace CTimerWheel

/-- The agenda of a wheel: the handles that have a timer. -/
def armedAt (w : CTimerWheel) : Agenda Ptr Rat := fun h => do
  let handle ← w.handles h
  let t ← handle.timer
  let timer ← w.timers t
  some timer.due

/-- `m_st_alloc` less `m_st_free` is the size of the queue. -/
def Counted (w : CTimerWheel) : Prop := w.stAlloc = w.stFree + w.pq.length

/-- **The wheel stands for an agenda.** -/
structure Holds (w : CTimerWheel) (A : Agenda Ptr Rat) : Prop where
  ok : w.Ok
  counted : w.Counted
  armed : w.armedAt = A

variable {w w' : CTimerWheel} {A : Agenda Ptr Rat} {h t : Ptr} {hd : CFlowTimerHandle}
  {timer : CFlowTimer}

/-! ## 3. The agenda of a wheel -/

theorem armedAt_eq (hh : w.handles h = some hd) :
    w.armedAt h = hd.timer.bind fun t => (w.timers t).map CFlowTimer.due := by
  simp only [armedAt, hh, Option.bind_eq_bind, Option.bind_some, Option.map_eq_bind]
  rfl

/-- The handle of a timer is armed with it. -/
theorem Ok.armedAt_timer (ok : w.Ok) (ht : w.timers t = some timer) (hf : timer.flow = some h) :
    w.armedAt h = some timer.due := by
  obtain ⟨hd, hh, htm⟩ := ok.back ht hf
  rw [armedAt_eq hh, htm]
  simp [ht]

/-- A handle that is armed has a timer. -/
theorem Ok.timer_of_armedAt (ok : w.Ok) {u : Rat} (ha : w.armedAt h = some u) :
    ∃ t timer, w.timers t = some timer ∧ timer.flow = some h ∧ timer.due = u := by
  cases hh : w.handles h with
  | none => simp [armedAt, hh] at ha
  | some hd =>
    rw [armedAt_eq hh] at ha
    cases htm : hd.timer with
    | none => simp [htm] at ha
    | some t =>
      obtain ⟨timer, ht, hf⟩ := ok.own hh htm
      exact ⟨t, timer, ht, hf, by simpa [htm, ht] using ha⟩

/-- What leaves a handle and the time of its timer alone. -/
theorem Ok.armedAt_frame (ok : w.Ok) (hh : w'.handles h = w.handles h)
    (ht : ∀ t timer, w.timers t = some timer → timer.flow = some h →
      (w'.timers t).map CFlowTimer.due = some timer.due) : w'.armedAt h = w.armedAt h := by
  cases hhd : w.handles h with
  | none =>
    rw [hhd] at hh
    simp [armedAt, hhd, hh]
  | some hd =>
    rw [hhd] at hh
    rw [armedAt_eq hhd, armedAt_eq hh]
    cases htm : hd.timer with
    | none => rfl
    | some t =>
      obtain ⟨timer, htt, hf⟩ := ok.own hhd htm
      simp [ht t timer htt hf, htt]

/-! ## 4. Restarting and stopping -/

/-- What `restart_timer` returns. -/
theorem Ok.restartTimer_eq (ok : w.Ok) (hh : w.handles h = some hd) (newTime : Rat) :
    (hd.timer = none ∧
      w.restartTimer h newTime = .ok ({ w with stStart := w.stStart + 1 }.startNew h hd newTime)) ∨
    ∃ t timer, hd.timer = some t ∧ w.timers t = some timer ∧ timer.flow = some h ∧
      ((timer.time < newTime ∧ w.restartTimer h newTime =
          .ok ({ w with stStart := w.stStart + 1 }.setTimer t { timer with updatedTime :=
            newTime })) ∨
        w.restartTimer h newTime = .ok (({ w with stStart := w.stStart + 1 }.setTimer t
          { timer with flow := none }).startNew h hd newTime)) := by
  have hget : { w with stStart := w.stStart + 1 }.getHandle h = .ok hd := getHandle_eq hh
  unfold CTimerWheel.restartTimer
  simp only [hget, ok_bind]
  cases htm : hd.timer with
  | none => exact .inl ⟨rfl, rfl⟩
  | some t =>
    obtain ⟨timer, ht, hf⟩ := ok.own hh htm
    have hgett : { w with stStart := w.stStart + 1 }.getTimer t = .ok timer := getTimer_eq ht
    refine .inr ⟨t, timer, rfl, ht, hf, ?_⟩
    simp only [hgett, ok_bind]
    split
    · rename_i hlt
      exact .inl ⟨hlt, rfl⟩
    · exact .inr rfl

/-- **A handle that is restarted is due at the new time.** -/
theorem Holds.restartTimer (hold : w.Holds A) (hh : w.handles h = some hd) {newTime : Rat}
    (hpos : 0 < newTime) :
    ∃ w', w.restartTimer h newTime = .ok w' ∧ w'.Holds (A.apply (.armed h newTime)) ∧
      ∀ g, (w'.handles g).isSome = (w.handles g).isSome := by
  obtain ⟨w', t', hrun, ok', -, hhs⟩ := hold.ok.restartTimer hh newTime
  have hdom : ∀ g, (w'.handles g).isSome = (w.handles g).isSome := by
    intro g
    by_cases hg : g = h
    · subst hg
      simp [hhs, hh]
    · simp [hhs, hg]
  have hfresh : w.timers w.fresh = none := hold.ok.fresh _ le_rfl
  suffices hmain : w'.Counted ∧ w'.armedAt h = some newTime ∧
      ∀ g, g ≠ h → ∀ s tm, w.timers s = some tm → tm.flow = some g →
        (w'.timers s).map CFlowTimer.due = some tm.due by
    obtain ⟨hcount, hself, hframe⟩ := hmain
    refine ⟨w', hrun, ⟨ok', hcount, ?_⟩, hdom⟩
    funext g
    by_cases hg : g = h
    · subst hg
      rw [hself]
      exact (update_self g _ A).symm
    · have hsame : w'.handles g = w.handles g := by simp [hhs, hg]
      rw [hold.ok.armedAt_frame hsame (hframe g hg), hold.armed]
      exact (update_of_ne hg _ A).symm
  have hcount := hold.counted
  unfold Counted at hcount ⊢
  -- the timers of the other handles are neither new nor that of the handle
  have hnew : ∀ {s tm}, w.timers s = some tm → s ≠ w.fresh := by
    rintro s tm hs rfl
    rw [hfresh] at hs
    cases hs
  rcases hold.ok.restartTimer_eq hh newTime with ⟨htm, heq⟩ | ⟨t, timer, htm, ht, hf, hcase⟩
  · cases hrun.symm.trans heq
    refine ⟨?_, ?_, ?_⟩
    · simp only [CTimerWheel.startNew, length_cons]
      omega
    · simp [armedAt, CTimerWheel.startNew, CFlowTimer.due, CFlowTimer.isMoved]
    · intro g hg s tm hs hfl
      simp [CTimerWheel.startNew, hnew hs, hs]
  · have hother : ∀ {g s tm}, g ≠ h → w.timers s = some tm → tm.flow = some g → s ≠ t := by
      rintro g s tm hg hs hfl rfl
      rw [ht] at hs
      cases hs
      rw [hf] at hfl
      exact hg (Option.some.inj hfl).symm
    rcases hcase with ⟨hlt, heq⟩ | heq
    · cases hrun.symm.trans heq
      refine ⟨hcount, ?_, ?_⟩
      · simp [armedAt, CTimerWheel.setTimer, hh, htm, CFlowTimer.due, CFlowTimer.isMoved, hpos, hlt]
      · intro g hg s tm hs hfl
        simp [CTimerWheel.setTimer, hother hg hs hfl, hs]
    · cases hrun.symm.trans heq
      refine ⟨?_, ?_, ?_⟩
      · simp only [CTimerWheel.startNew, CTimerWheel.setTimer, length_cons]
        omega
      · simp [armedAt, CTimerWheel.startNew, CTimerWheel.setTimer, CFlowTimer.due,
          CFlowTimer.isMoved]
      · intro g hg s tm hs hfl
        simp [CTimerWheel.startNew, CTimerWheel.setTimer, hnew hs, hother hg hs hfl, hs]

/-- A timer and its handle let go of each other: the handle is not armed any more. -/
theorem Ok.armedAt_detach (ok : w.Ok) (ht : w.timers t = some timer) (hf : timer.flow = some h)
    (htw : w'.timers = update w.timers t (some { timer with flow := none }))
    (hhw : w'.handles = update w.handles h (some { hd with timer := none })) :
    w'.armedAt = update w.armedAt h none := by
  funext g
  by_cases hg : g = h
  · subst hg
    simp [armedAt, hhw]
  · rw [update_of_ne hg]
    refine ok.armedAt_frame (by simp [hhw, hg]) ?_
    intro s tm hs hfl
    have hst : s ≠ t := by
      rintro rfl
      rw [ht] at hs
      cases hs
      rw [hf] at hfl
      exact hg (Option.some.inj hfl).symm
    simp [htw, hst, hs]

/-- **A handle that is stopped is not armed.**  Timers with no handle are left alone. -/
theorem Holds.stopTimer (hold : w.Holds A) (hh : w.handles h = some hd) :
    ∃ w', w.stopTimer h = .ok w' ∧ w'.Holds (A.apply (.stopped h)) ∧ w'.pq = w.pq ∧
      (∀ s tm, w.timers s = some tm → tm.flow = none → w'.timers s = some tm) ∧
      ∀ g, (w'.handles g).isSome = (w.handles g).isSome := by
  obtain ⟨w', hrun, ok', -, hhs⟩ := hold.ok.stopTimer hh
  have hdom : ∀ g, (w'.handles g).isSome = (w.handles g).isSome := by
    intro g
    by_cases hg : g = h
    · subst hg
      simp [hhs, hh]
    · simp [hhs, hg]
  suffices hmain : w'.armedAt = update w.armedAt h none ∧ w'.pq = w.pq ∧
      w'.stAlloc = w.stAlloc ∧ w'.stFree = w.stFree ∧
      ∀ s tm, w.timers s = some tm → tm.flow = none → w'.timers s = some tm by
    obtain ⟨harm, hpq, halloc, hfree, hstale⟩ := hmain
    refine ⟨w', hrun, ⟨ok', ?_, ?_⟩, hpq, hstale, hdom⟩
    · have hcount := hold.counted
      unfold Counted at hcount ⊢
      rw [halloc, hfree, hpq, hcount]
    · rw [harm, hold.armed]
      rfl
  unfold CTimerWheel.stopTimer at hrun
  simp only [getHandle_eq hh, ok_bind] at hrun
  cases htm : hd.timer with
  | none =>
    simp only [htm] at hrun
    cases hrun
    refine ⟨?_, rfl, rfl, rfl, fun _ _ hs _ => hs⟩
    refine (update_eq_self_iff.mpr ?_).symm
    rw [armedAt_eq hh, htm]
    rfl
  | some t =>
    obtain ⟨timer, ht, hf⟩ := hold.ok.own hh htm
    simp only [htm, getTimer_eq ht, ok_bind] at hrun
    cases hrun
    refine ⟨hold.ok.armedAt_detach ht hf rfl rfl, rfl, rfl, rfl, ?_⟩
    intro s tm hs hfl
    have hst : s ≠ t := by
      rintro rfl
      rw [ht] at hs
      cases hs
      rw [hf] at hfl
      cases hfl
    simp [CTimerWheel.setTimer, CTimerWheel.setHandle, hst, hs]

/-- The handles that a callback stops, in any number. -/
theorem Holds.stopAll (hs : List Ptr) : ∀ (w : CTimerWheel) (A : Agenda Ptr Rat), w.Holds A →
    (∀ h ∈ hs, (w.handles h).isSome) →
    ∃ w', w.stopAll hs = .ok w' ∧ w'.Holds (A.after (hs.map .stopped)) ∧ w'.pq = w.pq ∧
      (∀ s tm, w.timers s = some tm → tm.flow = none → w'.timers s = some tm) ∧
      ∀ g, (w'.handles g).isSome = (w.handles g).isSome := by
  induction hs with
  | nil => exact fun w A hold _ => ⟨w, rfl, hold, rfl, fun _ _ h _ => h, fun _ => rfl⟩
  | cons h hs ih =>
    intro w A hold hmem
    obtain ⟨hd, hh⟩ := Option.isSome_iff_exists.mp (hmem h mem_cons_self)
    obtain ⟨w1, hrun1, hold1, hpq1, hstale1, hdom1⟩ := hold.stopTimer hh
    obtain ⟨w', hrun, hold', hpq, hstale, hdom⟩ := ih w1 _ hold1 fun g hg => by
      rw [hdom1]
      exact hmem g (mem_cons_of_mem _ hg)
    refine ⟨w', ?_, hold', hpq.trans hpq1, ?_, fun g => (hdom g).trans (hdom1 g)⟩
    · rw [CTimerWheel.stopAll, hrun1, ok_bind, hrun]
    · intro s tm hs' hfl
      exact hstale s tm (hstale1 s tm hs' hfl) hfl

/-! ## 5. The top of the queue -/

/-- What the loop of the queue keeps, if every turn of it does. -/
theorem settle_keeps {P : CTimerWheel → Prop} (ties : Nat → Nat)
    (htops : ∀ w, P w → P { w with tops := w.tops + 1 })
    (hfree : ∀ w t timer, P w → t ∈ w.pq → w.timers t = some timer → timer.flow = none →
      P (w.freeTimer t))
    (hpush : ∀ w t timer, P w → t ∈ w.pq → w.timers t = some timer → timer.isMoved = true →
      P (w.pushBack t timer)) {w' : CTimerWheel} {top : Option Ptr} :
    ∀ (fuel : Nat) (w : CTimerWheel), P w → settle ties fuel w = .ok (w', top) →
      P w' ∧ ∀ t, top = some t → t ∈ w'.pq ∧ (∀ s ∈ w'.pq, w'.timeOf t ≤ w'.timeOf s) ∧
        ∀ timer, w'.timers t = some timer → timer.isMoved = false := by
  intro fuel
  induction fuel with
  | zero => exact fun w _ hrun => by cases hrun
  | succ fuel ih =>
    intro w hw hrun
    unfold CTimerWheel.settle at hrun
    cases htop : w.top ties with
    | none =>
      simp only [htop] at hrun
      cases hrun
      exact ⟨hw, fun t ht => by cases ht⟩
    | some t =>
      simp only [htop] at hrun
      have hmem : t ∈ w.pq := top_mem htop
      obtain ⟨timer, ht, hrun⟩ := bind_eq_ok hrun
      have ht' : w.timers t = some timer := by
        unfold CTimerWheel.getTimer at ht
        split at ht
        · rename_i heq
          cases ht
          exact heq
        · cases ht
      split at hrun
      · rename_i hval
        have hf : timer.flow = none := by simpa [CFlowTimer.isValid] using hval
        exact ih _ (hfree _ t timer (htops w hw) hmem ht' hf) hrun
      · split at hrun
        · rename_i hmv
          exact ih _ (hpush _ t timer (htops w hw) hmem ht' hmv) hrun
        · rename_i hmv
          cases hrun
          refine ⟨htops w hw, fun s hs => ?_⟩
          cases hs
          have hleast : ∀ s ∈ w.pq, w.timeOf t ≤ w.timeOf s := fun s hs => top_le htop hs
          refine ⟨hmem, hleast, ?_⟩
          intro tm htm
          cases ht'.symm.trans htm
          simpa using hmv

/-- A timer with no handle leaves the queue, and the agenda is the same. -/
theorem Holds.freeTimer (hold : w.Holds A) (hmem : t ∈ w.pq) (ht : w.timers t = some timer)
    (hf : timer.flow = none) : (w.freeTimer t).Holds A where
  ok := hold.ok.freeTimer ht hf
  counted := by
    have hcount := hold.counted
    have hpos := length_pos_of_mem hmem
    unfold Counted at hcount ⊢
    simp only [CTimerWheel.freeTimer, length_erase_of_mem hmem]
    omega
  armed := by
    rw [← hold.armed]
    funext g
    refine hold.ok.armedAt_frame rfl ?_
    intro s tm hs hfl
    have hst : s ≠ t := by
      rintro rfl
      rw [ht] at hs
      cases hs
      rw [hf] at hfl
      cases hfl
    simp [CTimerWheel.freeTimer, hst, hs]

/-- A timer that was moved is put back at its own time, and the agenda is the same. -/
theorem Holds.pushBack (hold : w.Holds A) (hmem : t ∈ w.pq) (ht : w.timers t = some timer)
    (hmoved : timer.isMoved = true) : (w.pushBack t timer).Holds A where
  ok := by
    have okS : (w.setTimer t { timer with time := timer.updatedTime }).Ok := hold.ok.setTimer ht rfl
    exact okS.of_eq rfl rfl rfl (perm_cons_erase hmem).symm
  counted := by
    have hcount := hold.counted
    have hlen := (perm_cons_erase hmem).length_eq
    unfold Counted at hcount ⊢
    simp only [CTimerWheel.pushBack, CTimerWheel.setTimer]
    omega
  armed := by
    rw [← hold.armed]
    funext g
    refine hold.ok.armedAt_frame rfl ?_
    intro s tm hs hfl
    by_cases hst : s = t
    · subst hst
      cases ht.symm.trans hs
      have hold : timer.due = timer.updatedTime := if_pos hmoved
      rw [hold]
      simp [CTimerWheel.pushBack, CTimerWheel.setTimer, CFlowTimer.due, CFlowTimer.isMoved]
    · simp [CTimerWheel.pushBack, CTimerWheel.setTimer, hst, hs]

/-- **The loop of the queue keeps the agenda**, and stops at the timer of the handle that is due
first. -/
theorem Holds.settle (hold : w.Holds A) (ties : Nat → Nat) :
    ∃ w' top, CTimerWheel.settle ties w.settleFuel w = .ok (w', top) ∧ w'.Holds A ∧
      w'.handles = w.handles ∧ w'.pq.length ≤ w.pq.length ∧ (top = none → ∀ h, A h = none) ∧
      ∀ t, top = some t → ∃ timer h, w'.timers t = some timer ∧ timer.flow = some h ∧
        A.Due (.fired h timer.time) := by
  obtain ⟨w', top, hrun, -, hh, -, hlen, hnone, hsome⟩ :=
    Ok.settle ties w.settleFuel w hold.ok settleFuel_lt
  obtain ⟨hold', htop⟩ := settle_keeps (P := fun w => w.Holds A) ties
    (fun w h => ⟨h.ok.of_eq rfl rfl rfl (List.Perm.refl _), h.counted, h.armed⟩)
    (fun w t timer h hmem ht hf => h.freeTimer hmem ht hf)
    (fun w t timer h hmem ht hmoved => h.pushBack hmem ht hmoved) w.settleFuel w hold hrun
  refine ⟨w', top, hrun, hold', hh, hlen, ?_, ?_⟩
  · intro hn h
    by_contra hne
    obtain ⟨u, hu⟩ := Option.ne_none_iff_exists'.mp hne
    rw [← hold'.armed] at hu
    obtain ⟨t, timer, ht, -⟩ := hold'.ok.timer_of_armedAt hu
    have hmem : t ∈ w'.pq := (hold'.ok.mem t).mpr (by simp [ht])
    rw [hnone hn] at hmem
    cases hmem
  · rintro t rfl
    obtain ⟨timer, h, ht, hf⟩ := hsome t rfl
    obtain ⟨-, hleast, hmoved⟩ := htop t rfl
    have hdue : timer.due = timer.time := by
      simp [CFlowTimer.due, hmoved timer ht]
    refine ⟨timer, h, ht, hf, ?_, ?_⟩
    · rw [← hold'.armed, hold'.ok.armedAt_timer ht hf, hdue]
    · intro k u hk
      rw [← hold'.armed] at hk
      obtain ⟨s, tm, hs, -, rfl⟩ := hold'.ok.timer_of_armedAt hk
      have hmem : s ∈ w'.pq := (hold'.ok.mem s).mpr (by simp [hs])
      have hle := hleast s hmem
      simp only [timeOf, ht, hs] at hle
      exact hle.trans tm.time_le_due

/-! ## 6. Handling -/

variable {σ : Type} (ties : Nat → Nat) (callback : Callback σ)

/-- `fire` stops the timer at the top, and leaves it in the queue. -/
theorem Holds.fire (hold : w.Holds A) (ht : w.timers t = some timer) (hf : timer.flow = some h) :
    ∃ w', w.fire t = .ok (w', h) ∧ w'.Holds (A.apply (.fired h timer.time)) ∧ w'.pq = w.pq ∧
      w'.timers t = some { timer with flow := none } ∧
      ∀ g, (w'.handles g).isSome = (w.handles g).isSome := by
  obtain ⟨w', handle, hrun, ok', -, hpq, ht', hh, -, hhs⟩ := hold.ok.fire ht hf
  have hrun' := hrun
  unfold CTimerWheel.fire at hrun'
  have hget : ({ w with stHandle := w.stHandle + 1 }.setTimer t
      { timer with flow := none }).getHandle h = .ok handle := getHandle_eq hh
  simp only [getTimer_eq ht, ok_bind, hf, hget] at hrun'
  cases hrun'
  refine ⟨_, hrun, ⟨ok', hold.counted, ?_⟩, hpq, ht', ?_⟩
  · rw [hold.ok.armedAt_detach ht hf rfl rfl, hold.armed]
    rfl
  · intro g
    by_cases hg : g = h
    · subst hg
      simp [hhs, hh]
    · simp [hhs, hg]

/-- What some callouts did to the agenda `A` of the wheel `w`, which is `w'` now. -/
structure Handled (w w' : CTimerWheel) (A : Agenda Ptr Rat) (callouts : List Callout) : Prop where
  holds : w'.Holds (A.after (callouts.flatMap Callout.events))
  allowed : A.Allowed (callouts.flatMap Callout.events)
  counted : ∀ c ∈ callouts, c.wheel.Counted
  handles : ∀ g, (w'.handles g).isSome = (w.handles g).isSome

/-- **`handle` fires the handle that is due first**, or nothing is armed. -/
theorem Holds.handle (hold : w.Holds A) (hcb : Callback.Valid callback w.handles) (s : σ) :
    ∃ w' s' callout, w.handle ties callback s = .ok (w', s', callout) ∧
      Handled w w' A callout.toList ∧ (callout = none → ∀ h, A h = none) ∧
      ((∃ h u, A h = some u) → w'.pq.length < w.pq.length) := by
  obtain ⟨w1, top, hrun1, hold1, hh1, hlen1, hnone, hsome⟩ := hold.settle ties
  unfold CTimerWheel.handle
  simp only [hrun1, ok_bind]
  cases top with
  | none =>
    refine ⟨w1, s, none, rfl, ⟨hold1, trivial, by simp, fun g => by rw [hh1]⟩, fun _ =>
      hnone rfl, ?_⟩
    rintro ⟨h, u, hu⟩
    rw [hnone rfl h] at hu
    cases hu
  | some t =>
    obtain ⟨timer, h, ht, hf, hdue⟩ := hsome t rfl
    obtain ⟨w2, hrun2, hold2, hpq2, ht2, hdom2⟩ := hold1.fire ht hf
    obtain ⟨w3, hrun3, hold3, hpq3, hstale3, hdom3⟩ := Holds.stopAll (callback s w2 h).2 w2 _ hold2
      fun g hg => by
        rw [hdom2, hh1]
        exact hcb s w2 h g hg
    have ht3 : w3.timers t = some { timer with flow := none } := hstale3 t _ ht2 rfl
    have hmem3 : t ∈ w3.pq := (hold3.ok.mem t).mpr (by simp [ht3])
    have htime : w1.timeOf t = timer.time := by simp [timeOf, ht]
    simp only [hrun2, ok_bind, hrun3, htime]
    refine ⟨_, _, _, rfl, ⟨?_, ?_, ?_, ?_⟩, (fun hc => by cases hc), fun _ => ?_⟩
    · have hlast := hold3.freeTimer hmem3 ht3 rfl
      simpa [Callout.events] using hlast
    · simp only [Option.toList_some, flatMap_cons, flatMap_nil, append_nil, Callout.events]
      exact ⟨hdue, Agenda.allowed_of_not_fired _ _ (by simp)⟩
    · intro c hc
      simp only [Option.toList_some, mem_singleton] at hc
      subst hc
      exact hold2.counted
    · intro g
      rw [← hh1, ← hdom2 g, ← hdom3 g]
      rfl
    · show (w3.pq.erase t).length < w.pq.length
      have hpos := length_pos_of_mem hmem3
      rw [length_erase_of_mem hmem3, hpq3, hpq2] at *
      omega

/-- Callouts, then more callouts. -/
theorem Handled.trans {w1 : CTimerWheel} {cs cs' : List Callout} (h : Handled w w1 A cs)
    (h' : Handled w1 w' (A.after (cs.flatMap Callout.events)) cs') :
    Handled w w' A (cs ++ cs') where
  holds := by
    rw [flatMap_append, Agenda.after_append]
    exact h'.holds
  allowed := by
    rw [flatMap_append, Agenda.allowed_append]
    exact ⟨h.allowed, h'.allowed⟩
  counted c hc := (mem_append.mp hc).elim (h.counted c) (h'.counted c)
  handles g := (h'.handles g).trans (h.handles g)

/-- `peek_top_time` reads the time of the handle that is due first. -/
theorem Holds.peekTopTime (hold : w.Holds A) :
    ∃ w' time, w.peekTopTime ties = .ok (w', time) ∧ w'.Holds A ∧ w'.handles = w.handles ∧
      w'.pq.length ≤ w.pq.length ∧ (time = none → ∀ h, A h = none) ∧
      ∀ u, time = some u → ∃ h, A.Due (.fired h u) := by
  obtain ⟨w', top, hrun, hold', hh, hlen, hnone, hsome⟩ := hold.settle ties
  unfold CTimerWheel.peekTopTime
  simp only [hrun, ok_bind]
  cases top with
  | none => exact ⟨w', none, rfl, hold', hh, hlen, fun _ => hnone rfl, fun u hu => by cases hu⟩
  | some t =>
    obtain ⟨timer, h, ht, hf, hdue⟩ := hsome t rfl
    refine ⟨w', some timer.time, ?_, hold', hh, hlen, (fun hn => by cases hn), ?_⟩
    · simp [getTimer_eq ht, ok_bind, hf]
    · rintro u hu
      cases hu
      exact ⟨h, hdue⟩

/-- **The loop fires what is due**, in the order of the times, and leaves the rest. -/
theorem Holds.handleWhile (due : Rat → Bool) (fuel : Nat) : ∀ (w : CTimerWheel) (A : Agenda Ptr Rat)
    (s : σ), w.Holds A → Callback.Valid callback w.handles → w.pq.length < fuel →
    ∃ w' s' callouts, CTimerWheel.handleWhile ties callback due fuel w s = .ok (w', s', callouts) ∧
      Handled w w' A callouts ∧ (∀ c ∈ callouts, due c.time = true) ∧
      ∀ h u, A.after (callouts.flatMap Callout.events) h = some u → ∃ v, v ≤ u ∧ due v = false := by
  induction fuel with
  | zero => exact fun w A s _ _ hfuel => absurd hfuel (Nat.not_lt_zero _)
  | succ fuel ih =>
    intro w A s hold hcb hfuel
    obtain ⟨w1, time, hrun1, hold1, hh1, hlen1, hnone, hsome⟩ := hold.peekTopTime ties
    have hstill : Handled w w1 A [] := ⟨hold1, trivial, by simp, fun g => by rw [hh1]⟩
    unfold CTimerWheel.handleWhile
    simp only [hrun1, ok_bind]
    cases time with
    | none =>
      refine ⟨w1, s, [], rfl, hstill, by simp, fun h u hu => ?_⟩
      rw [flatMap_nil, Agenda.after_nil, hnone rfl h] at hu
      cases hu
    | some time =>
      obtain ⟨k, hk, hleast⟩ := hsome time rfl
      dsimp only
      split
      · rename_i hdue
        have hcb1 : Callback.Valid callback w1.handles := by rwa [hh1]
        obtain ⟨w2, s2, callout, hrun2, hhandled2, hnone2, hlen2⟩ :=
          hold1.handle ties callback hcb1 s
        have hlt : w2.pq.length < fuel := by
          have := hlen2 ⟨k, time, hk⟩
          omega
        obtain ⟨w', s', callouts, hrun, hhandled, hall, hleft⟩ :=
          ih w2 _ s2 hhandled2.holds (hcb1.of_handles hhandled2.handles) hlt
        simp only [hrun2, ok_bind, hrun]
        have hwhole := (hstill.trans hhandled2).trans hhandled
        refine ⟨w', s', _, rfl, hwhole, ?_, ?_⟩
        · intro c hc
          rcases mem_append.mp hc with hc | hc
          · -- the callout is of the time that was read
            rw [Option.mem_toList] at hc
            cases hc
            have hfired := hhandled2.allowed.1
            have hle1 : c.time ≤ time := hfired.2 k time hk
            have hle2 : time ≤ c.time := hleast c.handle c.time hfired.1
            rwa [le_antisymm hle1 hle2]
          · exact hall c hc
        · intro h u hu
          refine hleft h u ?_
          rwa [flatMap_append, Agenda.after_append] at hu
      · rename_i hdue
        refine ⟨w1, s, [], rfl, hstill, by simp, fun h u hu => ?_⟩
        exact ⟨time, hleast h u hu, by simpa using hdue⟩

/-! ## 7. Every call, and every run -/

variable {callback} in
/-- **A call does to the agenda what it is for.** -/
theorem Holds.perform (hold : w.Holds A) (hcb : Callback.Valid callback w.handles)
    {call : WheelCall} (hcall : call.Valid w.handles) (s : σ) :
    ∃ w' s' callouts, w.perform ties callback s call = .ok (w', s', callouts) ∧
      w'.Holds (A.after (call.events ++ callouts.flatMap Callout.events)) ∧
      A.Allowed (call.events ++ callouts.flatMap Callout.events) ∧
      call.Complete A (A.after (call.events ++ callouts.flatMap Callout.events)) callouts ∧
      (∀ c ∈ callouts, c.wheel.Counted) ∧ ∀ g, (w'.handles g).isSome = (w.handles g).isSome := by
  cases call with
  | restartTimer h newTime =>
    obtain ⟨handle, hh⟩ := Option.isSome_iff_exists.mp hcall.1
    obtain ⟨w', hrun, hold', hdom⟩ := hold.restartTimer hh hcall.2
    refine ⟨w', s, [], ?_, hold', ⟨trivial, trivial⟩, rfl, by simp, hdom⟩
    simp only [CTimerWheel.perform, hrun, ok_bind]
  | stopTimer h =>
    obtain ⟨handle, hh⟩ := Option.isSome_iff_exists.mp hcall
    obtain ⟨w', hrun, hold', -, -, hdom⟩ := hold.stopTimer hh
    refine ⟨w', s, [], ?_, hold', ⟨trivial, trivial⟩, rfl, by simp, hdom⟩
    simp only [CTimerWheel.perform, hrun, ok_bind]
  | tryHandleEvents now =>
    obtain ⟨w', s', callouts, hrun, hhandled, hall, hleft⟩ :=
      Holds.handleWhile ties callback (fun minTime =>
        minTime < now) _ w A s hold hcb (Nat.lt_succ_self _)
    refine ⟨w', s', callouts, hrun, hhandled.holds, hhandled.allowed, ⟨?_, ?_⟩, hhandled.counted,
      hhandled.handles⟩
    · intro c hc
      simpa using hall c hc
    · intro h u hu
      obtain ⟨v, hle, hv⟩ := hleft h u hu
      have hnow : now ≤ v := by simpa using hv
      exact not_lt.mpr (hnow.trans hle)
  | handle =>
    obtain ⟨w', s', callout, hrun, hhandled, hnone, -⟩ := hold.handle ties callback hcb s
    refine ⟨w', s', callout.toList, ?_, hhandled.holds, hhandled.allowed, ?_, hhandled.counted,
      hhandled.handles⟩
    · simp only [CTimerWheel.perform, hrun, ok_bind]
    · cases callout with
      | none => exact .inl ⟨rfl, hnone rfl⟩
      | some c => exact .inr ⟨c, rfl⟩
  | drainAll =>
    obtain ⟨w', s', callouts, hrun, hhandled, -, hleft⟩ :=
      Holds.handleWhile ties callback (fun _ => true) _ w A s hold hcb (Nat.lt_succ_self _)
    refine ⟨w', s', callouts, hrun, hhandled.holds, hhandled.allowed, ?_, hhandled.counted,
      hhandled.handles⟩
    intro h
    by_contra hne
    obtain ⟨u, hu⟩ := Option.ne_none_iff_exists'.mp hne
    obtain ⟨v, -, hv⟩ := hleft h u hu
    cases hv

variable {callback} in
/-- Any number of calls. -/
theorem Holds.performAll (calls : List WheelCall) :
    ∀ (w : CTimerWheel) (A : Agenda Ptr Rat) (s : σ),
    w.Holds A → Callback.Valid callback w.handles → (∀ call ∈ calls, call.Valid w.handles) →
    ∃ w' s' log, w.performAll ties callback s calls = .ok (w', s', log) ∧ log.map Prod.fst = calls ∧
      w'.Holds (A.after (history log)) ∧ A.Allowed (history log) ∧ AllComplete A log ∧
      ∀ entry ∈ log, ∀ c ∈ entry.2, c.wheel.Counted := by
  induction calls with
  | nil => exact fun w A s hold _ _ => ⟨w, s, [], rfl, rfl, hold, trivial, trivial, by simp⟩
  | cons call calls ih =>
    intro w A s hold hcb hcalls
    obtain ⟨w1, s1, callouts, hrun1, hold1, hallowed1, hcomplete1, hcounted1, hdom1⟩ :=
      hold.perform ties hcb (hcalls call mem_cons_self) s
    obtain ⟨w', s', log, hrun, hfst, hold', hallowed, hcomplete, hcounted⟩ :=
      ih w1 _ s1 hold1 (hcb.of_handles hdom1) fun c hc =>
        (hcalls c (mem_cons_of_mem _ hc)).of_handles hdom1
    have hhistory : history ((call, callouts) :: log) =
        (call.events ++ callouts.flatMap Callout.events) ++ history log := rfl
    refine ⟨w', s', (call, callouts) :: log, ?_, ?_, ?_, ?_, ⟨hcomplete1, hcomplete⟩, ?_⟩
    · simp only [CTimerWheel.performAll, hrun1, ok_bind, hrun]
    · rw [map_cons, hfst]
    · rw [hhistory, Agenda.after_append]
      exact hold'
    · rw [hhistory, Agenda.allowed_append]
      exact ⟨hallowed1, hallowed⟩
    · intro entry hentry
      rcases mem_cons.mp hentry with rfl | hentry
      · exact hcounted1
      · exact hcounted entry hentry

/-- A new wheel is an empty agenda. -/
theorem create_holds {handles : Ptr → Option CFlowTimerHandle}
    (hnew : ∀ h handle, handles h = some handle → handle.timer = none) :
    (create handles).Holds fun _ => none where
  ok :=
    { nodup := nodup_nil
      mem := by simp [create]
      fresh := by simp [create]
      back := by simp [create]
      own := by
        intro h handle t hh ht
        rw [hnew h handle hh] at ht
        cases ht }
  counted := rfl
  armed := by
    funext h
    cases hh : handles h with
    | none => simp [armedAt, create, hh]
    | some handle => simp [armedAt, create, hh]

variable {callback} in
/-- **The wheel does what a map from handles to times would do.**  For any calls, which time comes
to the top among equal ones, and callbacks that stop what they like: the calls return; every call
handles what it has to; the agenda of the wheel is the one after the history; a handle fires with
the time that was last asked for, once, and not when it was stopped; handles fire in the order of
their times; and after every call, as well as in every callback, what was allocated and not freed is
in the queue. -/
theorem wheel_refines_agenda {handles : Ptr → Option CFlowTimerHandle}
    (hnew : ∀ h handle, handles h = some handle → handle.timer = none)
    (hcb : Callback.Valid callback handles) (calls : List WheelCall)
    (hcalls : ∀ call ∈ calls, call.Valid handles) (s : σ) :
    ∃ w s' log, (create handles).performAll ties callback s calls = .ok (w, s', log) ∧
      log.map Prod.fst = calls ∧ AllComplete (fun _ => none) log ∧
      w.armedAt = Agenda.after (fun _ => none) (history log) ∧
      Agenda.FiresLastArmed (history log) ∧ Agenda.FiresInOrder (history log) ∧
      w.Counted ∧ ∀ entry ∈ log, ∀ c ∈ entry.2, c.wheel.Counted := by
  obtain ⟨w, s', log, hrun, hfst, hold, hallowed, hcomplete, hcounted⟩ :=
    Holds.performAll ties calls (create handles) _ s (create_holds hnew) hcb hcalls
  exact ⟨w, s', log, hrun, hfst, hcomplete, hold.armed, hallowed.lastArmed, hallowed.inOrder,
    hold.counted, hcounted⟩

/-- A callback that stops handle 2 when handle 0 is handled, and counts. -/
def stopsTwo : Callback Nat := fun s _ h => (s + 1, if h = 0 then [2] else [])

/-- Handle 0 is moved to a later time and then to one between, handle 1 to an earlier time. -/
def threeTimers : List WheelCall :=
  [.restartTimer 0 5, .restartTimer 1 6, .restartTimer 2 9, .restartTimer 0 8, .restartTimer 1 3,
    .restartTimer 0 7, .tryHandleEvents 6, .restartTimer 1 10, .handle, .stopTimer 1, .drainAll]

theorem wheel_refines_agenda_threeTimers :
    ∃ w s' log, (create fun h => if h < 3 then some {} else none).performAll id stopsTwo 0
        threeTimers = .ok (w, s', log) ∧ w.Counted ∧ w.armedAt 2 = none ∧ s' = 2 ∧
      log.flatMap (fun entry => entry.2.map fun c => (c.handle, c.time)) = [(1, 3), (0, 7)] := by
  have hnew : ∀ (h : Ptr) (handle : CFlowTimerHandle),
      (if h < 3 then some ({} : CFlowTimerHandle) else none) = some handle →
          handle.timer = none := by
    intro h handle hh
    split at hh
    · cases hh
      rfl
    · cases hh
  have hcb : stopsTwo.Valid fun h => if h < 3 then some {} else none := by
    intro s w h g hg
    by_cases hh : h = 0
    · simp only [stopsTwo, hh, ↓reduceIte, mem_singleton] at hg
      subst hg
      rfl
    · simp [stopsTwo, hh] at hg
  have hcalls : ∀ call ∈ threeTimers, call.Valid fun h => if h < 3 then some {} else none := by
    simp [threeTimers, WheelCall.Valid]
  obtain ⟨w, s', log, hrun, -, -, -, -, -, hcounted, -⟩ :=
    wheel_refines_agenda id hnew hcb threeTimers hcalls 0
  have heval : ((create fun h => if h < 3 then some {} else none).performAll id stopsTwo 0
      threeTimers).map (fun r => (r.2.1, r.1.armedAt 2,
        r.2.2.flatMap fun entry => entry.2.map fun c => (c.handle, c.time))) =
      .ok (2, none, [(1, 3), (0, 7)]) := by
    decide +kernel
  rw [hrun] at heval
  have heval' := Except.ok.inj heval
  exact ⟨w, s', log, hrun, hcounted, congrArg (fun r => r.2.1) heval', congrArg Prod.fst heval',
    congrArg (fun r => r.2.2) heval'⟩

end CTimerWheel

end Trex.Rx
