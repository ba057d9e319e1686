/-
# The timer wheel of the RX check

`CTimerWheel` (`timer_wheel_pq.cpp`): a priority queue of timers, each of them for one handle.  A
timer is moved lazily: `restart_timer` writes the new time beside the old one, and the timer is put
back in the queue when the old time is reached.  A timer that is stopped stays in the queue with no
handle, and is deleted when it comes to the top.

* the queue gives a timer whose time is smallest; which one it gives among equal times is not known,
  and is read from `ties`;
* `Ok` says that timers and handles refer to each other, and every operation keeps it.  The one
  thing an owner of a handle has to do is to stop the timer before it frees the handle
  (`dropHandle_ok`).
-/
import Mathlib.Algebra.Order.Field.Rat
import Mathlib.Data.List.MinMax
import Trex.Lib.Refine

namespace Trex.Rx

open Trex.Lib List
open Function (update update_eq_self_iff update_of_ne update_self)

/-- An address.  Null is `none`; an address that was freed is not used again. -/
abbrev Ptr := Nat

/-- A failed assertion, or something that has no meaning in the source. -/
inductive Fault
  /-- A pointer that is null, or to an object that was freed. -/
  | badPointer
  /-- `assert(timer->m_flow)`. -/
  | timerFlow
  /-- The assertions of `flow_aging_callback`. -/
  | agingCallback
  /-- A loop that does not end. -/
  | spin
deriving DecidableEq, Repr

/-! ## 1. Timers and handles -/

/-- `CFlowTimer`. -/
structure CFlowTimer where
  time : Rat
  updatedTime : Rat := -1
  flow : Option Ptr
deriving DecidableEq, Repr

/-- `CFlowTimer::is_valid`. -/
def CFlowTimer.isValid (timer : CFlowTimer) : Bool := timer.flow.isSome

/-- The timer was restarted with a time that the queue does not know of yet. -/
def CFlowTimer.isMoved (timer : CFlowTimer) : Bool :=
  timer.updatedTime > 0 && timer.updatedTime > timer.time

/-- `CFlowTimerHandle`.  `object1` is the manager: set, or null. -/
structure CFlowTimerHandle where
  timer : Option Ptr := none
  object : Option Ptr := none
  object1 : Bool := false
  id : UInt32 := 0
deriving DecidableEq, Repr

/-- `CTimerWheel`, with the memory of the timers and of the handles.  `tops` counts how often the
top of the queue was read.  The five counters of the source are `uint32_t`: they are the counts here
modulo `2 ^ 32`. -/
structure CTimerWheel where
  handles : Ptr → Option CFlowTimerHandle := fun _ => none
  timers : Ptr → Option CFlowTimer := fun _ => none
  fresh : Ptr := 0
  pq : List Ptr := []
  tops : Nat := 0
  stAlloc : Nat := 0
  stFree : Nat := 0
  stStart : Nat := 0
  stStop : Nat := 0
  stHandle : Nat := 0

namespace CTimerWheel

/-- Follow a pointer to a timer. -/
def getTimer (w : CTimerWheel) (t : Ptr) : Except Fault CFlowTimer :=
  match w.timers t with
  | some timer => .ok timer
  | none => .error .badPointer

/-- Follow a pointer to a handle. -/
def getHandle (w : CTimerWheel) (h : Ptr) : Except Fault CFlowTimerHandle :=
  match w.handles h with
  | some handle => .ok handle
  | none => .error .badPointer

/-- Write to a timer. -/
def setTimer (w : CTimerWheel) (t : Ptr) (timer : CFlowTimer) : CTimerWheel :=
  { w with timers := update w.timers t (some timer) }

/-- Write to a handle, or make one. -/
def setHandle (w : CTimerWheel) (h : Ptr) (handle : CFlowTimerHandle) : CTimerWheel :=
  { w with handles := update w.handles h (some handle) }

/-- Free a handle, with what it is part of. -/
def dropHandle (w : CTimerWheel) (h : Ptr) : CTimerWheel :=
  { w with handles := update w.handles h none }

/-- A new timer for a handle, in the queue. -/
def startNew (w : CTimerWheel) (h : Ptr) (handle : CFlowTimerHandle) (newTime : Rat) :
    CTimerWheel :=
  { w with
    timers := update w.timers w.fresh (some { time := newTime, flow := some h })
    handles := update w.handles h (some { handle with timer := some w.fresh })
    pq := w.fresh :: w.pq
    fresh := w.fresh + 1
    stAlloc := w.stAlloc + 1 }

/-- `CTimerWheel::restart_timer`. -/
def restartTimer (w : CTimerWheel) (h : Ptr) (newTime : Rat) : Except Fault CTimerWheel := do
  let w := { w with stStart := w.stStart + 1 }
  let handle ← w.getHandle h
  match handle.timer with
  | none => .ok (w.startNew h handle newTime)
  | some t =>
    let timer ← w.getTimer t
    if newTime > timer.time then
      .ok (w.setTimer t { timer with updatedTime := newTime })
    else
      -- the old timer is left in the queue with no handle
      .ok ((w.setTimer t { timer with flow := none }).startNew h handle newTime)

/-- `CTimerWheel::stop_timer`. -/
def stopTimer (w : CTimerWheel) (h : Ptr) : Except Fault CTimerWheel := do
  let handle ← w.getHandle h
  match handle.timer with
  | none => .ok w
  | some t =>
    let timer ← w.getTimer t
    let w := { w with stStop := w.stStop + 1 }
    .ok ((w.setTimer t { timer with flow := none }).setHandle h { handle with timer := none })

/-! ## 2. The queue -/

/-- The time by which the queue orders a timer. -/
def timeOf (w : CTimerWheel) (t : Ptr) : Rat :=
  match w.timers t with
  | some timer => timer.time
  | none => 0

/-- The timers that the queue may give: those with the smallest time. -/
def minima (w : CTimerWheel) : List Ptr :=
  w.pq.filter fun t => w.pq.all fun s => w.timeOf t ≤ w.timeOf s

/-- `m_pq.top()`. -/
def top (ties : Nat → Nat) (w : CTimerWheel) : Option Ptr :=
  w.minima[ties w.tops % w.minima.length]?

/-- Take a timer from the queue and delete it. -/
def freeTimer (w : CTimerWheel) (t : Ptr) : CTimerWheel :=
  { w with
    pq := w.pq.erase t
    stFree := w.stFree + 1
    timers := update w.timers t none }

/-- Take a timer that was moved from the queue, and put it back with its new time. -/
def pushBack (w : CTimerWheel) (t : Ptr) (timer : CFlowTimer) : CTimerWheel :=
  { w.setTimer t { timer with time := timer.updatedTime } with pq := t :: w.pq.erase t }

/-- The loop that `peek_top_time` and `handle` share: timers with no handle are deleted and timers
that were moved are put back, until the top is a timer that is due at its own time. -/
def settle (ties : Nat → Nat) : Nat → CTimerWheel → Except Fault (CTimerWheel × Option Ptr)
  | 0, _ => .error .spin
  | fuel + 1, w =>
    match w.top ties with
    | none => .ok (w, none)
    | some t => do
      let w := { w with tops := w.tops + 1 }
      let timer ← w.getTimer t
      if ¬ timer.isValid then
        settle ties fuel (w.freeTimer t)
      else if timer.isMoved then
        settle ties fuel (w.pushBack t timer)
      else
        .ok (w, some t)

/-- Every timer is deleted or put back at most once: with this fuel the loop ends. -/
def settleFuel (w : CTimerWheel) : Nat := 2 * w.pq.length + 1

/-- `CTimerWheel::peek_top_time`. -/
def peekTopTime (ties : Nat → Nat) (w : CTimerWheel) : Except Fault (CTimerWheel × Option Rat) := do
  let (w, top) ← settle ties w.settleFuel w
  match top with
  | none => .ok (w, none)
  | some t =>
    let timer ← w.getTimer t
    if timer.flow.isSome then .ok (w, some timer.time) else .error .timerFlow

/-- `CTimerWheel::handle` up to the callback: the timer at the top is stopped.  The handle is what
the callback is called with. -/
def fire (w : CTimerWheel) (t : Ptr) : Except Fault (CTimerWheel × Ptr) := do
  let timer ← w.getTimer t
  match timer.flow with
  | none => .error .timerFlow
  | some h =>
    let w := { w with stHandle := w.stHandle + 1 }.setTimer t { timer with flow := none }
    let handle ← w.getHandle h
    .ok (w.setHandle h { handle with timer := none }, h)

/-! ## 3. Timers and handles refer to each other -/

/-- **The invariant of the wheel.** -/
structure Ok (w : CTimerWheel) : Prop where
  nodup : w.pq.Nodup
  mem : ∀ t, t ∈ w.pq ↔ (w.timers t).isSome
  fresh : ∀ t, w.fresh ≤ t → w.timers t = none
  back : ∀ {t timer h}, w.timers t = some timer → timer.flow = some h →
    ∃ handle, w.handles h = some handle ∧ handle.timer = some t
  own : ∀ {h handle t}, w.handles h = some handle → handle.timer = some t →
    ∃ timer, w.timers t = some timer ∧ timer.flow = some h

variable {w : CTimerWheel} {h t : Ptr} {handle : CFlowTimerHandle} {timer : CFlowTimer}

theorem Ok.empty : ({} : CTimerWheel).Ok := by
  constructor <;> simp

theorem getTimer_eq (ht : w.timers t = some timer) : w.getTimer t = .ok timer := by
  rw [getTimer, ht]

theorem getHandle_eq (hh : w.handles h = some handle) : w.getHandle h = .ok handle := by
  rw [getHandle, hh]

variable {timer' : CFlowTimer} {ties : Nat → Nat}

/-- Only one timer refers to a handle. -/
theorem Ok.unique (ok : w.Ok) {s : Ptr} (ht : w.timers t = some timer) (hf : timer.flow = some h)
    (hs : w.timers s = some timer') (hf' : timer'.flow = some h) :
    t = s := by
  obtain ⟨hd, hhd, htt⟩ := ok.back ht hf
  obtain ⟨hd', hhd', hss⟩ := ok.back hs hf'
  rw [hhd] at hhd'
  cases hhd'
  rw [htt] at hss
  exact Option.some.inj hss

/-- Counters and the like. -/
theorem Ok.of_eq (ok : w.Ok) {w' : CTimerWheel} (hh : w'.handles = w.handles)
    (ht : w'.timers = w.timers) (hf : w'.fresh = w.fresh) (hq : w'.pq.Perm w.pq) : w'.Ok where
  nodup := hq.nodup_iff.mpr ok.nodup
  mem t := by rw [hq.mem_iff, ok.mem, ht]
  fresh t hle := by rw [ht]; exact ok.fresh t (hf ▸ hle)
  back ht' hfl := by rw [hh]; exact ok.back (ht ▸ ht') hfl
  own hh' htm := by rw [ht]; exact ok.own (hh ▸ hh') htm

/-- A timer that keeps its handle. -/
theorem Ok.setTimer (ok : w.Ok) (ht : w.timers t = some timer) (hf : timer'.flow = timer.flow) :
    (w.setTimer t timer').Ok where
  nodup := ok.nodup
  mem s := by
    by_cases hs : s = t
    · subst hs
      simpa [CTimerWheel.setTimer, ht] using (ok.mem s).mpr (by simp [ht])
    · simpa [CTimerWheel.setTimer, hs] using ok.mem s
  fresh s hle := by
    have hs : s ≠ t := fun e => by
      have := ok.fresh s hle
      rw [e, ht] at this
      cases this
    simpa [CTimerWheel.setTimer, hs] using ok.fresh s hle
  back {s timer'' h} hs hfl := by
    by_cases hst : s = t
    · subst hst
      simp only [CTimerWheel.setTimer, update_self, Option.some.injEq] at hs
      exact ok.back ht (hf ▸ hs ▸ hfl)
    · simp only [CTimerWheel.setTimer, ne_eq, hst, not_false_eq_true, update_of_ne] at hs
      exact ok.back hs hfl
  own {h hd s} hh hs := by
    obtain ⟨tm, htm, hfl⟩ := ok.own hh hs
    by_cases hst : s = t
    · subst hst
      rw [ht] at htm
      cases htm
      exact ⟨timer', by simp [CTimerWheel.setTimer], hf.trans hfl⟩
    · exact ⟨tm, by simpa [CTimerWheel.setTimer, hst] using htm, hfl⟩

/-- A timer and its handle let go of each other. -/
theorem Ok.detach (ok : w.Ok) (ht : w.timers t = some timer) (hf : timer.flow = some h)
    (hh : w.handles h = some handle) :
    ((w.setTimer t { timer with flow := none }).setHandle h { handle with timer := none }).Ok where
  nodup := ok.nodup
  mem s := by
    by_cases hs : s = t
    · subst hs
      simpa [CTimerWheel.setTimer, CTimerWheel.setHandle] using (ok.mem s).mpr (by simp [ht])
    · simpa [CTimerWheel.setTimer, CTimerWheel.setHandle, hs] using ok.mem s
  fresh s hle := by
    have hs : s ≠ t := fun e => by
      have := ok.fresh s hle
      rw [e, ht] at this
      cases this
    simpa [CTimerWheel.setTimer, CTimerWheel.setHandle, hs] using ok.fresh s hle
  back {s tm g} hs hfl := by
    have hst : s ≠ t := by
      rintro rfl
      simp only [CTimerWheel.setTimer, CTimerWheel.setHandle, update_self,
        Option.some.injEq] at hs
      rw [← hs] at hfl
      cases hfl
    simp only [CTimerWheel.setTimer, CTimerWheel.setHandle, ne_eq, hst, not_false_eq_true,
      update_of_ne] at hs
    obtain ⟨hd, hhd, htm⟩ := ok.back hs hfl
    have hgh : g ≠ h := by
      rintro rfl
      exact hst (ok.unique hs hfl ht hf)
    exact ⟨hd, by simpa [CTimerWheel.setHandle, CTimerWheel.setTimer, hgh] using hhd, htm⟩
  own {g hd s} hg hs := by
    have hgh : g ≠ h := by
      rintro rfl
      simp only [CTimerWheel.setHandle, CTimerWheel.setTimer, update_self,
        Option.some.injEq] at hg
      rw [← hg] at hs
      cases hs
    simp only [CTimerWheel.setHandle, CTimerWheel.setTimer, ne_eq, hgh, not_false_eq_true,
      update_of_ne] at hg
    obtain ⟨tm, htm, hfl⟩ := ok.own hg hs
    have hst : s ≠ t := by
      rintro rfl
      rw [ht] at htm
      cases htm
      rw [hf] at hfl
      exact hgh (Option.some.inj hfl).symm
    exact ⟨tm, by simpa [CTimerWheel.setHandle, CTimerWheel.setTimer, hst] using htm, hfl⟩

/-- A new timer for a handle that has none. -/
theorem Ok.startNew (ok : w.Ok) (hh : w.handles h = some handle) (htm : handle.timer = none)
    {handle' : CFlowTimerHandle} (newTime : Rat) : (w.startNew h handle' newTime).Ok := by
  have hnone : w.timers w.fresh = none := ok.fresh _ le_rfl
  have hnew : w.fresh ∉ w.pq := fun hmem => by simpa [hnone] using (ok.mem _).mp hmem
  refine ⟨nodup_cons.mpr ⟨hnew, ok.nodup⟩, ?_, ?_, ?_, ?_⟩
  · intro s
    by_cases hs : s = w.fresh
    · simp [CTimerWheel.startNew, hs]
    · simpa [CTimerWheel.startNew, hs] using ok.mem s
  · intro s hle
    simp only [CTimerWheel.startNew] at hle ⊢
    rw [update_of_ne (Nat.lt_of_succ_le hle).ne']
    exact ok.fresh s (Nat.le_of_succ_le hle)
  · intro s tm g hs hfl
    by_cases hsf : s = w.fresh
    · subst hsf
      simp only [CTimerWheel.startNew, update_self, Option.some.injEq] at hs
      rw [← hs] at hfl
      cases hfl
      exact ⟨{ handle' with timer := some w.fresh }, by simp [CTimerWheel.startNew], rfl⟩
    · simp only [CTimerWheel.startNew, ne_eq, hsf, not_false_eq_true, update_of_ne] at hs
      obtain ⟨hd, hhd, hd'⟩ := ok.back hs hfl
      have hgh : g ≠ h := by
        rintro rfl
        rw [hh] at hhd
        cases hhd
        rw [htm] at hd'
        cases hd'
      exact ⟨hd, by simpa [CTimerWheel.startNew, hgh] using hhd, hd'⟩
  · intro g hd s hg hs
    by_cases hgh : g = h
    · subst hgh
      simp only [CTimerWheel.startNew, update_self, Option.some.injEq] at hg
      rw [← hg] at hs
      cases hs
      exact ⟨{ time := newTime, flow := some g }, by simp [CTimerWheel.startNew], rfl⟩
    · simp only [CTimerWheel.startNew, ne_eq, hgh, not_false_eq_true, update_of_ne] at hg
      obtain ⟨tm, htm', hfl⟩ := ok.own hg hs
      have hsf : s ≠ w.fresh := by
        rintro rfl
        rw [hnone] at htm'
        cases htm'
      exact ⟨tm, by simpa [CTimerWheel.startNew, hsf] using htm', hfl⟩

/-! ## 4. The operations -/

/-- A handle in memory that no timer refers to. -/
theorem Ok.addHandle (ok : w.Ok) (hh : w.handles h = none) (htm : handle.timer = none) :
    (w.setHandle h handle).Ok where
  nodup := ok.nodup
  mem := ok.mem
  fresh := ok.fresh
  back {t timer g} ht hf := by
    obtain ⟨hd, hhd, hd'⟩ := ok.back ht hf
    have hgh : g ≠ h := by
      rintro rfl
      rw [hh] at hhd
      cases hhd
    exact ⟨hd, by simpa [CTimerWheel.setHandle, hgh] using hhd, hd'⟩
  own {g hd t} hg ht := by
    have hgh : g ≠ h := by
      rintro rfl
      simp only [CTimerWheel.setHandle, update_self, Option.some.injEq] at hg
      rw [← hg, htm] at ht
      cases ht
    exact ok.own (by simpa [CTimerWheel.setHandle, hgh] using hg) ht

/-- **A handle may be freed when its timer is stopped.** -/
theorem Ok.dropHandle (ok : w.Ok) (hh : w.handles h = some handle) (htm : handle.timer = none) :
    (w.dropHandle h).Ok where
  nodup := ok.nodup
  mem := ok.mem
  fresh := ok.fresh
  back {t timer g} ht hf := by
    obtain ⟨hd, hhd, hd'⟩ := ok.back ht hf
    have hgh : g ≠ h := by
      rintro rfl
      rw [hh] at hhd
      cases hhd
      rw [htm] at hd'
      cases hd'
    exact ⟨hd, by simpa [CTimerWheel.dropHandle, hgh] using hhd, hd'⟩
  own {g hd t} hg ht := by
    have hgh : g ≠ h := by
      rintro rfl
      simp [CTimerWheel.dropHandle] at hg
    exact ok.own (by simpa [CTimerWheel.dropHandle, hgh] using hg) ht

/-- **A timer may be deleted when it has no handle.** -/
theorem Ok.freeTimer (ok : w.Ok) (ht : w.timers t = some timer) (hf : timer.flow = none) :
    (w.freeTimer t).Ok where
  nodup := ok.nodup.erase t
  mem s := by
    by_cases hs : s = t
    · subst hs
      simp [CTimerWheel.freeTimer, ok.nodup.mem_erase_iff]
    · simpa [CTimerWheel.freeTimer, hs, ok.nodup.mem_erase_iff] using ok.mem s
  fresh s hle := by
    by_cases hs : s = t
    · simp [CTimerWheel.freeTimer, hs]
    · simpa [CTimerWheel.freeTimer, hs] using ok.fresh s hle
  back {s tm g} hs hfl := by
    have hst : s ≠ t := by
      rintro rfl
      simp [CTimerWheel.freeTimer] at hs
    exact ok.back (by simpa [CTimerWheel.freeTimer, hst] using hs) hfl
  own {g hd s} hg hs := by
    obtain ⟨tm, htm, hfl⟩ := ok.own hg hs
    have hst : s ≠ t := by
      rintro rfl
      rw [ht] at htm
      cases htm
      rw [hf] at hfl
      cases hfl
    exact ⟨tm, by simpa [CTimerWheel.freeTimer, hst] using htm, hfl⟩

/-- `startNew` writes the handle, whatever was in it. -/
theorem startNew_setHandle (handle' : CFlowTimerHandle) (newTime : Rat) :
    (w.setHandle h handle').startNew h handle newTime = w.startNew h handle newTime := by
  simp [CTimerWheel.startNew, CTimerWheel.setHandle]

/-- `restart_timer` leaves the handle with a timer. -/
theorem Ok.restartTimer (ok : w.Ok) (hh : w.handles h = some handle) (newTime : Rat) :
    ∃ w' t, w.restartTimer h newTime = .ok w' ∧ w'.Ok ∧ w'.stHandle = w.stHandle ∧
      w'.handles = update w.handles h (some { handle with timer := some t }) := by
  have okS : { w with stStart := w.stStart + 1 }.Ok := ok.of_eq rfl rfl rfl (List.Perm.refl _)
  unfold CTimerWheel.restartTimer
  simp only [getHandle_eq (w := { w with stStart := w.stStart + 1 }) hh, ok_bind]
  cases htm : handle.timer with
  | none => exact ⟨_, w.fresh, rfl, okS.startNew hh htm newTime, rfl, rfl⟩
  | some t =>
    obtain ⟨timer, ht, hf⟩ := ok.own hh htm
    simp only [getTimer_eq (w := { w with stStart := w.stStart + 1 }) ht, ok_bind]
    split
    · refine ⟨_, t, rfl, okS.setTimer ht rfl, rfl, ?_⟩
      rw [← htm]
      exact (update_eq_self_iff.mpr hh.symm).symm
    · refine ⟨_, w.fresh, rfl, ?_, rfl, rfl⟩
      rw [← startNew_setHandle { handle with timer := none }]
      have hset : ∀ v : CTimerWheel, (v.setHandle h { handle with timer := none }).handles h =
          some { handle with timer := none } := fun v => by simp [CTimerWheel.setHandle]
      exact (okS.detach ht hf hh).startNew (hset _) rfl newTime

/-- `stop_timer` leaves the handle with no timer. -/
theorem Ok.stopTimer (ok : w.Ok) (hh : w.handles h = some handle) :
    ∃ w', w.stopTimer h = .ok w' ∧ w'.Ok ∧ w'.stHandle = w.stHandle ∧
      w'.handles = update w.handles h (some { handle with timer := none }) := by
  unfold CTimerWheel.stopTimer
  simp only [getHandle_eq hh, ok_bind]
  cases htm : handle.timer with
  | none =>
    refine ⟨w, rfl, ok, rfl, ?_⟩
    rw [← htm]
    exact (update_eq_self_iff.mpr hh.symm).symm
  | some t =>
    obtain ⟨timer, ht, hf⟩ := ok.own hh htm
    simp only [getTimer_eq ht, ok_bind]
    refine ⟨_, rfl, ?_, rfl, rfl⟩
    have okS : { w with stStop := w.stStop + 1 }.Ok := ok.of_eq rfl rfl rfl (List.Perm.refl _)
    exact okS.detach ht hf hh

/-- `handle` up to the callback: one more timer is handled, and its handle is left with no timer. -/
theorem Ok.fire (ok : w.Ok) (ht : w.timers t = some timer) (hf : timer.flow = some h) :
    ∃ w' handle, w.fire t = .ok (w', h) ∧ w'.Ok ∧ w'.stHandle = w.stHandle + 1 ∧ w'.pq = w.pq ∧
      w'.timers t = some { timer with flow := none } ∧ w.handles h = some handle ∧
      handle.timer = some t ∧
      w'.handles = update w.handles h (some { handle with timer := none }) := by
  obtain ⟨handle, hh, htm⟩ := ok.back ht hf
  have okS : { w with stHandle := w.stHandle + 1 }.Ok := ok.of_eq rfl rfl rfl (List.Perm.refl _)
  refine ⟨_, handle, ?_, okS.detach ht hf hh, rfl, rfl, ?_, hh, htm, rfl⟩
  · unfold CTimerWheel.fire
    have hget : ({ w with stHandle := w.stHandle + 1 }.setTimer t
        { timer with flow := none }).getHandle h = .ok handle := getHandle_eq hh
    simp only [getTimer_eq ht, ok_bind, hf, hget]
  · simp [CTimerWheel.setHandle, CTimerWheel.setTimer]

/-! ## 5. The loop of the queue -/

/-- There is a smallest time. -/
theorem minima_ne_nil (hq : w.pq ≠ []) : w.minima ≠ [] := by
  cases hmin : w.pq.argmin w.timeOf with
  | none => exact absurd (argmin_eq_none.mp hmin) hq
  | some t =>
    have hmem : t ∈ w.minima := by
      refine mem_filter.mpr ⟨argmin_mem hmin, ?_⟩
      rw [all_eq_true]
      intro s hs
      exact decide_eq_true (le_of_mem_argmin hs hmin)
    exact ne_nil_of_mem hmem

theorem top_mem (ht : w.top ties = some t) : t ∈ w.pq :=
  (mem_filter.mp (mem_of_getElem? ht)).1

/-- The top has the smallest time. -/
theorem top_le (ht : w.top ties = some t) {s : Ptr} (hs : s ∈ w.pq) :
    w.timeOf t ≤ w.timeOf s := by
  have h := (mem_filter.mp (mem_of_getElem? ht)).2
  rw [all_eq_true] at h
  simpa using h s hs

theorem top_eq_none (ht : w.top ties = none) : w.pq = [] := by
  by_contra hq
  have hpos := length_pos_of_ne_nil (minima_ne_nil hq)
  have hle := List.getElem?_eq_none_iff.mp ht
  exact absurd (Nat.mod_lt (ties w.tops) hpos) (by omega)

/-- The timers of the queue that were moved. -/
def moved (w : CTimerWheel) : Nat :=
  w.pq.countP fun t => (w.timers t).any CFlowTimer.isMoved

theorem moved_le : w.moved ≤ w.pq.length := countP_le_length

/-- The loop ends, keeps the handles, and stops at a timer that has a handle. -/
theorem Ok.settle (ties : Nat → Nat) : ∀ (fuel : Nat) (w : CTimerWheel), w.Ok →
    w.pq.length + w.moved < fuel →
    ∃ w' top, CTimerWheel.settle ties fuel w = .ok (w', top) ∧ w'.Ok ∧ w'.handles = w.handles ∧
      w'.stHandle = w.stHandle ∧ w'.pq.length ≤ w.pq.length ∧ (top = none → w'.pq = []) ∧
      ∀ t, top = some t → ∃ timer h, w'.timers t = some timer ∧ timer.flow = some h
  | 0, w, _, hfuel => absurd hfuel (Nat.not_lt_zero _)
  | fuel + 1, w, ok, hfuel => by
    unfold CTimerWheel.settle
    cases htop : w.top ties with
    | none =>
      exact ⟨w, none, rfl, ok, rfl, rfl, le_rfl, fun _ => top_eq_none htop, fun t ht => by cases ht⟩
    | some t =>
      have hmem := top_mem htop
      obtain ⟨timer, ht⟩ := Option.isSome_iff_exists.mp ((ok.mem t).mp hmem)
      have okT : { w with tops := w.tops + 1 }.Ok := ok.of_eq rfl rfl rfl (List.Perm.refl _)
      have hget : { w with tops := w.tops + 1 }.getTimer t = .ok timer := getTimer_eq ht
      simp only [hget, ok_bind]
      have hlen : (w.pq.erase t).length + 1 = w.pq.length := by
        rw [length_erase_of_mem hmem]
        have := length_pos_of_mem hmem
        omega
      split
      · -- a timer with no handle leaves the queue
        rename_i hval
        have hf : timer.flow = none := by simpa [CFlowTimer.isValid] using hval
        have hmoved : ({ w with tops := w.tops + 1 }.freeTimer t).moved ≤ w.moved := by
          refine le_trans (le_of_eq (countP_congr fun s hs => ?_))
            (Sublist.countP_le (erase_sublist (l := w.pq)))
          have hst : s ≠ t := (ok.nodup.mem_erase_iff.mp hs).1
          simp [CTimerWheel.freeTimer, hst]
        obtain ⟨w', top, hrun, ok', hh, hst, hl, hrest⟩ :=
          Ok.settle ties fuel _ (okT.freeTimer ht hf)
          (by simp only [CTimerWheel.freeTimer] at hmoved ⊢; omega)
        refine ⟨w', top, hrun, ok', hh, hst, ?_, hrest⟩
        simp only [CTimerWheel.freeTimer] at hl
        omega
      · split
        · -- a timer that was moved is no longer moved
          rename_i hmv
          have hperm : (t :: w.pq.erase t).Perm w.pq := (perm_cons_erase hmem).symm
          have okS : ({ w with tops := w.tops + 1 }.setTimer t
              { timer with time := timer.updatedTime }).Ok := okT.setTimer ht rfl
          have okP : ({ w with tops := w.tops + 1 }.pushBack t timer).Ok :=
            okS.of_eq rfl rfl rfl hperm
          have hmoved : ({ w with tops := w.tops + 1 }.pushBack t timer).moved + 1 = w.moved := by
            have hone : w.moved = (w.pq.erase t).countP (fun s =>
                (w.timers s).any CFlowTimer.isMoved) + 1 := by
              rw [CTimerWheel.moved, ← hperm.countP_eq, countP_cons_of_pos]
              simpa [ht] using hmv
            rw [hone, CTimerWheel.moved]
            simp only [CTimerWheel.pushBack, CTimerWheel.setTimer]
            rw [countP_cons_of_neg (by simp [CFlowTimer.isMoved])]
            congr 1
            refine countP_congr fun s hs => ?_
            have hst : s ≠ t := (ok.nodup.mem_erase_iff.mp hs).1
            simp [hst]
          obtain ⟨w', top, hrun, ok', hh, hst, hl, hrest⟩ := Ok.settle ties fuel _ okP
            (by
              have := hperm.length_eq
              simp only [CTimerWheel.pushBack] at hmoved this ⊢
              omega)
          refine ⟨w', top, hrun, ok', hh, hst, ?_, hrest⟩
          simp only [CTimerWheel.pushBack, length_cons] at hl
          omega
        · rename_i hval _
          refine ⟨_, some t, rfl, okT, rfl, rfl, le_rfl, (fun h => by cases h), ?_⟩
          intro s hs
          cases hs
          obtain ⟨h, hf⟩ := Option.ne_none_iff_exists'.mp (by simpa [CFlowTimer.isValid] using hval)
          exact ⟨timer, h, ht, hf⟩

theorem settleFuel_lt : w.pq.length + w.moved < w.settleFuel := by
  have := moved_le (w := w)
  unfold settleFuel
  omega

/-- `peek_top_time` keeps the handles, and finds a time only in a queue that is not empty. -/
theorem Ok.peekTopTime (ok : w.Ok) (ties : Nat → Nat) :
    ∃ w' time, w.peekTopTime ties = .ok (w', time) ∧ w'.Ok ∧ w'.handles = w.handles ∧
      w'.stHandle = w.stHandle ∧ w'.pq.length ≤ w.pq.length ∧ (time.isSome → w'.pq ≠ []) := by
  obtain ⟨w', top, hrun, ok', hh, hst, hl, -, hsome⟩ :=
    Ok.settle ties w.settleFuel w ok settleFuel_lt
  unfold CTimerWheel.peekTopTime
  simp only [hrun, ok_bind]
  cases top with
  | none => exact ⟨w', none, rfl, ok', hh, hst, hl, fun h => by cases h⟩
  | some t =>
    obtain ⟨timer, h, ht, hf⟩ := hsome t rfl
    have hmem : t ∈ w'.pq := (ok'.mem t).mpr (by simp [ht])
    refine ⟨w', some timer.time, ?_, ok', hh, hst, hl, fun _ => ne_nil_of_mem hmem⟩
    simp [getTimer_eq ht, ok_bind, hf]

end CTimerWheel

end Trex.Rx
