/-
# The limits of the templates

A template may have a limit on its flows.  `init_from_global` (`bp_sim.cpp`) divides it among the
threads: each gets the quotient, the first one the remainder as well, and no thread gets less than
one flow.  Each thread counts its own flows against its own share (`generate_flows_roundrobin`), and
a flow that is repeated is not opened again (`reschedule_flow`), so it is not counted.

A template with room is asked once in a round of the loop, and its policer has a token sooner or
later, so every thread opens its share and no flow more (`flows_share`).  The shares are the limit
when it is not less than the number of threads; a smaller one is exceeded, as every thread opens a
flow (`limit_shared`).
-/
import Mathlib.Algebra.BigOperators.Intervals
import Mathlib.Algebra.Order.Archimedean.Basic
import Trex.Gen.Policer
import Trex.Lib.Interleave

namespace Trex.Gen

open Trex.Lib List

/-! ## 1. The threads -/

/-- `init_from_global`, one template. -/
def initFromGlobal (info : CFlowYamlInfo) (maxThreads threadId : Nat) : CFlowYamlInfo where
  kCps := info.kCps / maxThreads
  limitWasSet := info.limitWasSet
  limit :=
    if maxThreads = 1 then info.limit
    else
      let limit := info.limit / maxThreads
      -- thread is zero base
      let limit := if threadId = 0 then limit + info.limit % maxThreads else limit
      if limit = 0 then 1 else limit
  flowcnt := 0

/-- There is room for one more flow. -/
def CFlowGeneratorRecPerThread.hasRoom (g : CFlowGeneratorRecPerThread) : Bool :=
  !g.info.limitWasSet || decide (g.info.flowcnt < g.info.limit)

namespace FlowOpener

/-- `start_generate_stateful` in a thread that `generate_p_thread_info` created, up to the first
tick at `curTimeSec`. -/
def startThread (infos : Nat → CFlowYamlInfo) (size maxThreads threadId : Nat) (curTimeSec : Rat) :
    FlowOpener where
  size := size
  capGen := fun k => .create (initFromGlobal (infos k) maxThreads threadId)
  curTemplate := threadId % size
  curTimeSec := curTimeSec
  fif := some curTimeSec

/-- `generate_p_thread_info` and `start_generate_stateful` of each thread. -/
def startThreads (infos : Nat → CFlowYamlInfo) (size maxThreads : Nat) (curTimeSec : Nat → Rat) :
    List FlowOpener :=
  (List.range maxThreads).map fun i => startThread infos size maxThreads i (curTimeSec i)

/-- `d_time_flow` of the threads. -/
def dTimeFlow (infos : Nat → CFlowYamlInfo) (size maxThreads : Nat) : Rat :=
  (startThread infos size maxThreads 0 0).getDeltaFlowIsSec

/-- The threads after a schedule: each entry is a tick of that thread. -/
def afterTicks (infos : Nat → CFlowYamlInfo) (size maxThreads : Nat) (curTimeSec : Nat → Rat)
    (sched : List Nat) : List FlowOpener :=
  interleave (flowFif (dTimeFlow infos size maxThreads))
    (startThreads infos size maxThreads curTimeSec) sched

/-- How many flows of template `k` all threads together opened. -/
def allFlows (threads : List FlowOpener) (k : Nat) : Nat := (threads.map fun s => s.flows k).sum

/-- **All threads together open `count` flows of template `k`**: never more, and exactly as many in
every schedule that is long enough for each thread. -/
def Opens (infos : Nat → CFlowYamlInfo) (size maxThreads : Nat) (curTimeSec : Nat → Rat)
    (k count : Nat) :
    Prop :=
  (∀ sched, allFlows (afterTicks infos size maxThreads curTimeSec sched) k ≤ count) ∧
    ∃ ticks, ∀ sched : List Nat, (∀ i < maxThreads, ticks ≤ sched.count i) →
      allFlows (afterTicks infos size maxThreads curTimeSec sched) k = count

variable {infos : Nat → CFlowYamlInfo} {size maxThreads : Nat} {s s' : FlowOpener} {k : Nat}
    {d t : Rat}

/-! ## 2. The loop -/

/-- One turn of the loop. -/
theorem findLoop_succ (i : Nat) (s : FlowOpener) (done : Bool) :
    findLoop (i + 1) s done =
      if (s.capGen s.curTemplate).hasRoom then
        if ((s.capGen s.curTemplate).policer.update 1 s.curTimeSec).2 then
          (s.setGen s.curTemplate
            ⟨{ (s.capGen s.curTemplate).info with flowcnt := (s.capGen s.curTemplate).info.flowcnt +
              1 },
              ((s.capGen s.curTemplate).policer.update 1 s.curTimeSec).1⟩, false,
                some s.curTemplate)
        else
          findLoop i (s.setGen s.curTemplate ⟨(s.capGen s.curTemplate).info,
            ((s.capGen s.curTemplate).policer.update 1 s.curTimeSec).1⟩).incCurrentTemplate false
      else findLoop i s.incCurrentTemplate done := rfl

@[simp] theorem setGen_self (s : FlowOpener) (k : Nat) (g : CFlowGeneratorRecPerThread) :
    (s.setGen k g).capGen k = g := Function.update_self ..

theorem setGen_of_ne (s : FlowOpener) {n k : Nat} (g : CFlowGeneratorRecPerThread) (h : k ≠ n) :
    (s.setGen n g).capGen k = s.capGen k := Function.update_of_ne h ..

/-- The loop stays among the templates, and a template that has room is not passed by: the loop is
not done. -/
theorem findLoop_cur : ∀ (i : Nat) (s : FlowOpener) (done : Bool), s.curTemplate < s.size →
    (findLoop i s done).1.size = s.size ∧ (findLoop i s done).1.curTemplate < s.size ∧
      (done = false → (findLoop i s done).2.1 = false) := by
  intro i
  induction i with
  | zero => exact fun s done h => ⟨rfl, h, id⟩
  | succ i ih =>
    intro s done h
    rw [findLoop_succ]
    split
    · split
      · exact ⟨rfl, h, fun _ => rfl⟩
      · obtain ⟨hsize, hcur, hdone⟩ := ih (s.setGen s.curTemplate _).incCurrentTemplate false
          (incCurrentTemplate_lt (s := s.setGen s.curTemplate _) h)
        exact ⟨hsize, hcur, fun _ => hdone rfl⟩
    · exact ih s.incCurrentTemplate done (incCurrentTemplate_lt h)

/-- A template whose turn does not come, or that has no room, is left as it is. -/
theorem findLoop_frame : ∀ (i : Nat) (s : FlowOpener) (done : Bool), s.curTemplate < s.size →
    ((s.capGen k).hasRoom = true → ∀ m < i, (s.curTemplate + m) % s.size ≠ k) →
    (findLoop i s done).1.capGen k = s.capGen k := by
  intro i
  induction i with
  | zero => exact fun _ _ _ _ => rfl
  | succ i ih =>
    intro s done hcur h
    -- the turns behind this one
    have hrest : ∀ s1 : FlowOpener, s1.capGen k = s.capGen k → s1.size = s.size →
        s1.curTemplate = (s.curTemplate + 1) % s.size →
        ((s1.capGen k).hasRoom = true → ∀ m < i, (s1.curTemplate + m) % s1.size ≠ k) := by
      intro s1 hgen hsize hcur' hroom m hm
      rw [hgen] at hroom
      rw [hsize, hcur', Nat.mod_add_mod, Nat.add_right_comm, Nat.add_assoc]
      exact h hroom (m + 1) (Nat.succ_lt_succ hm)
    rw [findLoop_succ]
    split
    · rename_i hroom
      have hne : k ≠ s.curTemplate := by
        rintro rfl
        exact h hroom 0 (Nat.succ_pos i) (Nat.mod_eq_of_lt hcur)
      split
      · exact setGen_of_ne s _ hne
      · rw [ih _ _ (incCurrentTemplate_lt (s := s.setGen s.curTemplate _) hcur)
          (hrest _ (setGen_of_ne s _ hne) rfl
            (incCurrentTemplate_cur (s := s.setGen s.curTemplate _) hcur))]
        exact setGen_of_ne s _ hne
    · exact ih _ _ (incCurrentTemplate_lt hcur) (hrest _ rfl rfl (incCurrentTemplate_cur hcur))

/-- **The turn of template `k`**, which comes behind `m` others and which has room: it opens a flow,
its policer refuses one, or the loop ends before at a template that opens one. -/
inductive Turn (k m : Nat) (s : FlowOpener) (r : FlowOpener × Bool × Option Nat) : Prop
  | served (hok : ((s.capGen k).policer.update 1 s.curTimeSec).2 = true)
      (hgen : r.1.capGen k = ⟨{ (s.capGen k).info with flowcnt := (s.capGen k).info.flowcnt + 1 },
        ((s.capGen k).policer.update 1 s.curTimeSec).1⟩)
  | refused (hok : ((s.capGen k).policer.update 1 s.curTimeSec).2 = false)
      (hgen : r.1.capGen k = ⟨(s.capGen k).info, ((s.capGen k).policer.update 1 s.curTimeSec).1⟩)
  | skipped (m' : Nat) (hm : m' < m) (hfound : r.2.2.isSome = true)
      (hcur : r.1.curTemplate = (s.curTemplate + m') % s.size) (hgen : r.1.capGen k = s.capGen k)

/-- The turn does not change when another template has one before it. -/
theorem Turn.next {m : Nat} {r : FlowOpener × Bool × Option Nat} (h : Turn k m s' r)
    (hgen : s'.capGen k = s.capGen k) (htime : s'.curTimeSec = s.curTimeSec)
    (hsize : s'.size = s.size) (hcur : s'.curTemplate = (s.curTemplate + 1) % s.size) :
    Turn k (m + 1) s r := by
  cases h with
  | served hok hgen' =>
    rw [hgen, htime] at hok hgen'
    exact .served hok hgen'
  | refused hok hgen' =>
    rw [hgen, htime] at hok hgen'
    exact .refused hok hgen'
  | skipped m' hm hfound hcur' hgen' =>
    refine .skipped (m' + 1) (Nat.succ_lt_succ hm) hfound ?_ (hgen'.trans hgen)
    rw [hcur', hsize, hcur, Nat.mod_add_mod, Nat.add_right_comm, Nat.add_assoc]

/-- **A template that has room gets its turn**, and the loop does not find that all limits were
reached. -/
theorem findLoop_turn : ∀ (i m : Nat) (s : FlowOpener) (done : Bool), m < i → i ≤ s.size →
    s.curTemplate < s.size → (s.curTemplate + m) % s.size = k → (s.capGen k).hasRoom = true →
    Turn k m s (findLoop i s done) ∧ (findLoop i s done).2.1 = false := by
  intro i
  induction i with
  | zero => exact fun m _ _ hm => absurd hm (Nat.not_lt_zero m)
  | succ i ih =>
    intro m s done hm hi hcur hk hroom
    rw [findLoop_succ]
    cases m with
    | zero =>
      rw [Nat.add_zero, Nat.mod_eq_of_lt hcur] at hk
      subst hk
      rw [if_pos hroom]
      split
      · rename_i hok
        exact ⟨.served hok (setGen_self ..), rfl⟩
      · rename_i hok
        have hcur' := incCurrentTemplate_lt
          (s := s.setGen s.curTemplate ⟨(s.capGen s.curTemplate).info,
            ((s.capGen s.curTemplate).policer.update 1 s.curTimeSec).1⟩) hcur
        refine ⟨.refused (Bool.eq_false_iff.mpr hok) ?_, (findLoop_cur i _ false hcur').2.2 rfl⟩
        -- its turn does not come again
        rw [findLoop_frame i _ false hcur' fun _ m hm => ?_]
        · exact setGen_self ..
        · rw [incCurrentTemplate_cur (s := s.setGen s.curTemplate _) hcur]
          have hsize : (s.setGen s.curTemplate ⟨(s.capGen s.curTemplate).info,
            ((s.capGen s.curTemplate).policer.update 1 s.curTimeSec).1⟩).incCurrentTemplate.size =
              s.size := rfl
          have hsize' : (s.setGen s.curTemplate ⟨(s.capGen s.curTemplate).info,
            ((s.capGen s.curTemplate).policer.update 1 s.curTimeSec).1⟩).size = s.size := rfl
          rw [hsize, hsize']
          exact ((next_closed hcur hi ((_ + m) % s.size)
            (Nat.mod_lt _ (Nat.zero_lt_of_lt hcur))).mpr ⟨m, hm, rfl⟩).1
    | succ m =>
      have hne : k ≠ s.curTemplate := by
        have hnext := (next_closed hcur hi k (hk ▸ Nat.mod_lt _ (Nat.zero_lt_of_lt hcur))).mpr
          ⟨m, Nat.lt_of_succ_lt_succ
            hm, by rw [Nat.mod_add_mod, Nat.add_right_comm, Nat.add_assoc, hk]⟩
        exact hnext.1
      have hk' : ((s.curTemplate + 1) % s.size + m) % s.size = k := by
        rw [Nat.mod_add_mod, Nat.add_right_comm, Nat.add_assoc, hk]
      split
      · split
        · refine ⟨.skipped 0 (Nat.succ_pos m) rfl ?_ (setGen_of_ne s _ hne), rfl⟩
          exact (Nat.mod_eq_of_lt hcur).symm
        · obtain ⟨hturn, hdone⟩ := ih m (s.setGen s.curTemplate ⟨(s.capGen s.curTemplate).info,
            ((s.capGen s.curTemplate).policer.update 1 s.curTimeSec).1⟩).incCurrentTemplate false
            (Nat.lt_of_succ_lt_succ hm) ((Nat.le_succ i).trans hi)
            (incCurrentTemplate_lt (s := s.setGen s.curTemplate _) hcur)
            (by rw [incCurrentTemplate_cur (s := s.setGen s.curTemplate _) hcur]; exact hk')
            ((congrArg _ (setGen_of_ne s _ hne)).trans hroom)
          exact ⟨hturn.next (setGen_of_ne s _ hne) rfl rfl
            (incCurrentTemplate_cur (s := s.setGen s.curTemplate _) hcur), hdone⟩
      · obtain ⟨hturn, hdone⟩ := ih m s.incCurrentTemplate done (Nat.lt_of_succ_lt_succ hm)
          ((Nat.le_succ i).trans hi) (incCurrentTemplate_lt hcur)
          (by rw [incCurrentTemplate_cur hcur]; exact hk') hroom
        exact ⟨hturn.next rfl rfl rfl (incCurrentTemplate_cur hcur), hdone⟩

/-! ## 3. A tick -/

/-- Template `k`, with a share `share` and a policer of rate `c`, when the next tick is at `t`.  The
policer was asked before exactly if a flow was opened: the first time it lets it through. -/
structure Metered (c : Rat) (share k : Nat) (t : Rat) (s : FlowOpener) : Prop where
  lt : k < s.size
  cur : s.curTemplate < s.size
  limitWasSet : (s.capGen k).info.limitWasSet = true
  limit : (s.capGen k).info.limit = share
  le : s.flows k ≤ share
  cir : (s.capGen k).policer.cir = c
  bucketSize : (s.capGen k).policer.bucketSize = 100
  level : 0 ≤ (s.capGen k).policer.level
  first : (s.capGen k).policer.lastTime = 0 ↔ s.flows k = 0
  last : (s.capGen k).policer.lastTime ≤ t
  pos : 0 < t
  fif : s.flows k < share → s.fif = some t

/-- The policer of template `k` would let a flow through at `t`. -/
def Ready (t : Rat) (g : CFlowGeneratorRecPerThread) : Prop :=
  g.policer.lastTime = 0 ∨ g.policer.cir ≠ 0 ∧ 1 < g.policer.avail t

/-- How many templates have their turn before template `k`. -/
def ahead (s : FlowOpener) (k : Nat) : Nat := (k + s.size - s.curTemplate) % s.size

theorem ahead_spec (hcur : s.curTemplate < s.size) (hk : k < s.size) :
    (s.curTemplate + s.ahead k) % s.size = k ∧ s.ahead k < s.size := by
  refine ⟨?_, Nat.mod_lt _ (Nat.zero_lt_of_lt hk)⟩
  rw [ahead, Nat.add_mod_mod, show s.curTemplate + (k + s.size - s.curTemplate) = k +
    s.size by omega, Nat.add_mod_right, Nat.mod_eq_of_lt hk]

/-- There are as many templates ahead as it takes turns to come to the template. -/
theorem ahead_eq {m : Nat} (hcur : s.curTemplate < s.size) (hm : m < s.size)
    (h : (s.curTemplate + m) % s.size = k) : s.ahead k = m := by
  subst h
  rw [ahead]
  by_cases hwrap : s.curTemplate + m < s.size
  · rw [Nat.mod_eq_of_lt hwrap, show s.curTemplate + m + s.size - s.curTemplate = m +
      s.size by omega, Nat.add_mod_right, Nat.mod_eq_of_lt hm]
  · have hinner : (s.curTemplate + m) % s.size = s.curTemplate + m - s.size := by
      rw [Nat.mod_eq_sub_mod (not_lt.mp hwrap), Nat.mod_eq_of_lt (by omega)]
    rw [hinner, show s.curTemplate + m - s.size + s.size - s.curTemplate = m by omega,
      Nat.mod_eq_of_lt hm]

variable {p : CPolicer}

/-- A policer that is asked again has what it had, up to the size of its bucket. -/
theorem update_again (hbucket : p.bucketSize = 100) (hlast : p.lastTime ≠ 0)
    (hle : p.lastTime ≤ t) (hcir : p.cir ≠ 0) :
    ∃ level : Rat, (level = p.avail t ∨ level = 100 ∧ 100 < p.avail t) ∧
      p.update 1 t = if 1 < level then ({ p with level := level - 1, lastTime := t }, true)
        else ({ p with level := level, lastTime := t }, false) := by
  rw [CPolicer.update, if_neg hlast, if_neg hcir]
  rcases hle.lt_or_eq with hlt | rfl
  · by_cases hover : p.avail t > p.bucketSize
    · refine ⟨p.bucketSize, .inr ⟨hbucket, hbucket ▸ hover⟩, ?_⟩
      simp only [CPolicer.avail, gt_iff_lt] at hover
      simp [if_pos hlt, if_pos hover]
    · refine ⟨p.avail t, .inl rfl, ?_⟩
      simp only [CPolicer.avail] at hover
      simp only [gt_iff_lt, if_pos hlt, if_neg hover]
      rfl
  · have hsame : p.avail p.lastTime = p.level := by
      rw [CPolicer.avail, sub_self, zero_mul, add_zero]
    refine ⟨p.level, .inl hsame.symm, ?_⟩
    simp only [gt_iff_lt, lt_irrefl, if_false]

/-- What a policer keeps that is asked. -/
theorem update_kept (hbucket : p.bucketSize = 100) (hlevel : 0 ≤ p.level) (hcir : 0 ≤ p.cir)
    (hle : p.lastTime ≤ t) (ht : 0 < t) :
    (p.update 1 t).1.cir = p.cir ∧ (p.update 1 t).1.bucketSize = 100 ∧ 0 ≤ (p.update 1 t).1.level ∧
      (p.update 1 t).1.lastTime ≤ t ∧ (p.update 1 t).1.lastTime ≠ 0 := by
  by_cases hlast : p.lastTime = 0
  · rw [CPolicer.update_first hlast]
    exact ⟨rfl, hbucket, hlevel, le_rfl, ht.ne'⟩
  by_cases hzero : p.cir = 0
  · rw [CPolicer.update, if_neg hlast, if_pos hzero]
    exact ⟨rfl, hbucket, hlevel, hle, hlast⟩
  obtain ⟨level, hval, heq⟩ := update_again hbucket hlast hle hzero
  have havail : 0 ≤ p.avail t := add_nonneg hlevel (mul_nonneg (sub_nonneg.mpr hle) hcir)
  have hnonneg : 0 ≤ level := by
    rcases hval with rfl | ⟨rfl, -⟩
    · exact havail
    · norm_num
  rw [heq]
  split
  · rename_i hpay
    exact ⟨rfl, hbucket, sub_nonneg.mpr hpay.le, le_rfl, ht.ne'⟩
  · exact ⟨rfl, hbucket, hnonneg, le_rfl, ht.ne'⟩

/-- When a policer lets a flow through, and what it has when it does not: all that it had. -/
theorem update_tells (hbucket : p.bucketSize = 100) (hle : p.lastTime ≤ t) :
    ((p.update 1 t).2 = true ↔ p.lastTime = 0 ∨ p.cir ≠ 0 ∧ 1 < p.avail t) ∧
      ((p.update 1 t).2 = false → ∀ t', (p.update 1 t).1.avail t' = p.avail t') := by
  by_cases hlast : p.lastTime = 0
  · rw [CPolicer.update_first hlast]
    exact ⟨iff_of_true rfl (.inl hlast), fun h => by cases h⟩
  by_cases hzero : p.cir = 0
  · rw [CPolicer.update, if_neg hlast, if_pos hzero]
    refine ⟨iff_of_false Bool.false_ne_true ?_, fun _ _ => rfl⟩
    rintro (h | ⟨h, -⟩)
    · exact hlast h
    · exact h hzero
  obtain ⟨level, hval, heq⟩ := update_again hbucket hlast hle hzero
  have hpay : 1 < level ↔ 1 < p.avail t := by
    rcases hval with rfl | ⟨rfl, hover⟩
    · exact Iff.rfl
    · exact iff_of_true (by norm_num) (lt_trans (by norm_num) hover)
  rw [heq]
  split
  · rename_i hlevel
    exact ⟨iff_of_true rfl (.inr ⟨hzero, hpay.mp hlevel⟩), fun h => by cases h⟩
  · rename_i hlevel
    refine ⟨iff_of_false Bool.false_ne_true ?_, fun _ t' => ?_⟩
    · rintro (h | ⟨-, h⟩)
      · exact hlast h
      · exact hlevel (hpay.mpr h)
    · -- it was not more than the bucket holds
      have hall : level = p.avail t := by
        rcases hval with h | ⟨rfl, -⟩
        · exact h
        · exact absurd (by norm_num) hlevel
      simp only [CPolicer.avail, hall]
      ring

/-- What a tick does with a template that has room. -/
inductive Ticked (k : Nat) (t d : Rat) (s s' : FlowOpener) : Prop
  | served (hflows : s'.flows k = s.flows k + 1) (hready : Ready t (s.capGen k))
  | refused (hflows : s'.flows k = s.flows k) (hready : ¬ Ready t (s.capGen k))
      (havail : (s'.capGen k).policer.avail (t + d) = (s.capGen k).policer.avail (t + d))
  | skipped (hgen : s'.capGen k = s.capGen k) (hahead : s'.ahead k < s.ahead k)

variable {c : Rat} {share : Nat}

theorem Metered.hasRoom (h : Metered c share k t s) (hroom : s.flows k < share) :
    (s.capGen k).hasRoom = true := by
  have hlt : (s.capGen k).info.flowcnt < (s.capGen k).info.limit := hroom.trans_eq h.limit.symm
  rw [CFlowGeneratorRecPerThread.hasRoom, decide_eq_true hlt, Bool.or_true]

/-- The template when its policer was asked. -/
theorem Metered.asked (h : Metered c share k t s) (hc : 0 ≤ c) (hd : 0 ≤ d)
    (hroom : s.flows k < share) {paid : Nat}
    (hpaid : paid = if ((s.capGen k).policer.update 1 t).2 then 1 else 0) (hsize : s'.size = s.size)
    (hcur : s'.curTemplate < s.size) (hfif : s'.fif = some (t + d))
    (hgen : s'.capGen k = ⟨{ (s.capGen k).info with flowcnt := (s.capGen k).info.flowcnt + paid },
      ((s.capGen k).policer.update 1 t).1⟩) : Metered c share k (t + d) s' := by
  obtain ⟨hcir, hbucket, hlevel, hle, hne⟩ :=
    update_kept h.bucketSize h.level (h.cir.symm ▸ hc) h.last h.pos
  obtain ⟨htells, -⟩ := update_tells h.bucketSize h.last
  have hflows : s'.flows k = s.flows k + paid := by rw [flows, hgen]; rfl
  constructor
  · exact h.lt.trans_eq hsize.symm
  · exact hcur.trans_eq hsize.symm
  · rw [hgen]
    exact h.limitWasSet
  · rw [hgen]
    exact h.limit
  · rw [hflows, hpaid]
    split <;> omega
  · rw [hgen]
    exact hcir.trans h.cir
  · rw [hgen]
    exact hbucket
  · rw [hgen]
    exact hlevel
  · rw [hgen, hflows]
    refine iff_of_false hne ?_
    -- the first time it opens a flow
    intro hzero
    have hfirst : (s.capGen k).policer.lastTime = 0 := h.first.mpr (by omega)
    rw [htells.mpr (.inl hfirst), if_pos rfl] at hpaid
    omega
  · rw [hgen]
    exact hle.trans (le_add_of_nonneg_right hd)
  · exact h.pos.trans_le (le_add_of_nonneg_right hd)
  · exact fun _ => hfif

/-- The template when it was not asked. -/
theorem Metered.frame (h : Metered c share k t s) (hd : 0 ≤ d) (hsize : s'.size = s.size)
    (hcur : s'.curTemplate < s.size) (hfif : s.flows k < share → s'.fif = some (t + d))
    (hgen : s'.capGen k = s.capGen k) : Metered c share k (t + d) s' := by
  have hflows : s'.flows k = s.flows k := by rw [flows, hgen]; rfl
  constructor
  · exact h.lt.trans_eq hsize.symm
  · exact hcur.trans_eq hsize.symm
  · rw [hgen]
    exact h.limitWasSet
  · rw [hgen]
    exact h.limit
  · rw [hflows]
    exact h.le
  · rw [hgen]
    exact h.cir
  · rw [hgen]
    exact h.bucketSize
  · rw [hgen]
    exact h.level
  · rw [hgen, hflows]
    exact h.first
  · rw [hgen]
    exact h.last.trans (le_add_of_nonneg_right hd)
  · exact h.pos.trans_le (le_add_of_nonneg_right hd)
  · rw [hflows]
    exact hfif

/-- **A tick of a thread whose template has room.** -/
theorem Metered.tick (h : Metered c share k t s) (hc : 0 ≤ c) (hd : 0 ≤ d)
    (hroom : s.flows k < share) :
    Metered c share k (t + d) (s.flowFif d) ∧ Ticked k t d s (s.flowFif d) := by
  obtain ⟨hturns, hahead⟩ := ahead_spec h.cur h.lt
  obtain ⟨hturn, hdone⟩ :=
    findLoop_turn s.size (s.ahead k) { s with curTimeSec := t } true hahead le_rfl h.cur
    hturns (h.hasRoom hroom)
  obtain ⟨hsize, hcur, -⟩ := findLoop_cur s.size { s with curTimeSec := t } true h.cur
  generalize hloop : findLoop s.size { s with curTimeSec := t } true = r at hturn hdone hsize hcur
  obtain ⟨s1, done, found⟩ := r
  have hdone : done = false := hdone
  subst hdone
  have hfif := flowFif_eq (d := d) (h.fif hroom) hloop
  have hsize' : (s.flowFif d).size = s.size := by
    rw [hfif]
    cases found <;> exact hsize
  have hcur' : (s.flowFif d).curTemplate < s.size := by
    rw [hfif]
    cases found with
    | none => exact hcur
    | some j => exact (incCurrentTemplate_lt (s := s1) (hcur.trans_eq hsize.symm)).trans_eq hsize
  have hgen : (s.flowFif d).capGen k = s1.capGen k := by
    rw [hfif]
    cases found <;> rfl
  have htime : (s.flowFif d).fif = some (t + d) := by rw [hfif]
  obtain ⟨htells, hkeeps⟩ := update_tells h.bucketSize h.last
  cases hturn with
  | served hok hgen' =>
    have hboth := hgen.trans hgen'
    refine ⟨h.asked hc hd hroom (if_pos hok).symm hsize' hcur' htime hboth,
      .served ?_ (htells.mp hok)⟩
    rw [flows, hboth]
    rfl
  | refused hok hgen' =>
    have hboth := hgen.trans hgen'
    refine ⟨h.asked hc hd hroom (if_neg (Bool.eq_false_iff.mp hok)).symm hsize' hcur' htime hboth,
      .refused ?_ (fun hready => ?_) ?_⟩
    · rw [flows, hboth]
      rfl
    · have htrue := htells.mpr hready
      exact Bool.false_ne_true (hok.symm.trans htrue)
    · rw [hboth]
      exact hkeeps hok (t + d)
  | skipped m' hm hfound hcur1 hgen' =>
    have hboth := hgen.trans hgen'
    refine ⟨h.frame hd hsize' hcur' (fun _ => htime) hboth, .skipped hboth ?_⟩
    -- the loop went on to the template behind the one that opened a flow
    obtain ⟨j, rfl⟩ := Option.isSome_iff_exists.mp hfound
    have hnext : (s.flowFif d).curTemplate = (s.curTemplate + m' + 1) % s.size := by
      rw [hfif]
      have hinc := incCurrentTemplate_cur (s := s1) (hcur.trans_eq hsize.symm)
      have hsize1 : s1.size = s.size := hsize
      have hcur2 : s1.curTemplate = (s.curTemplate + m') % s.size := hcur1
      rw [hcur2, hsize1, Nat.mod_add_mod] at hinc
      exact hinc
    have hsmall : (s.flowFif d).ahead k = s.ahead k - (m' + 1) := by
      refine ahead_eq (hcur'.trans_eq hsize'.symm) (hsize'.symm ▸ (Nat.sub_le ..).trans_lt hahead)
        ?_
      rw [hsize', hnext, Nat.mod_add_mod, show s.curTemplate + m' + 1 + (s.ahead k - (m' + 1)) =
        s.curTemplate + s.ahead k by omega]
      exact hturns
    omega

theorem generateFlowsRoundrobin_eq {done : Bool} {found : Option Nat}
    (hloop : findLoop s.size s true = (s', done, found)) :
    generateFlowsRoundrobin s = (if found.isSome then s'.incCurrentTemplate else s', done) := by
  rw [generateFlowsRoundrobin, hloop]
  cases found <;> rfl

/-- **A tick of a thread whose template has no room** leaves the template as it is. -/
theorem Metered.tick_full (h : Metered c share k t s) (hd : 0 ≤ d) (hfull : s.flows k = share) :
    Metered c share k (t + d) (s.flowFif d) ∧ (s.flowFif d).flows k = share := by
  have hclosed : (s.capGen k).hasRoom = false := by
    have hnot : ¬ (s.capGen k).info.flowcnt < (s.capGen k).info.limit := by
      rw [h.limit]
      exact hfull.ge.not_gt
    rw [CFlowGeneratorRecPerThread.hasRoom, decide_eq_false hnot, h.limitWasSet]
    rfl
  cases hnone : s.fif with
  | none =>
    have hsame : s.flowFif d = s := by rw [flowFif, hnone]
    rw [hsame]
    exact ⟨h.frame hd rfl h.cur (fun hlt => absurd hfull hlt.ne) rfl, hfull⟩
  | some t' =>
    obtain ⟨hsize, hcur, -⟩ := findLoop_cur s.size { s with curTimeSec := t' } true h.cur
    have hgen := findLoop_frame (k := k) s.size { s with curTimeSec := t' } true h.cur
      (fun hroom => absurd (hclosed.symm.trans hroom) Bool.false_ne_true)
    generalize hloop : findLoop s.size { s with curTimeSec := t' } true = r at hsize hcur hgen
    obtain ⟨s1, done, found⟩ := r
    have hround : (s.flowFif d).size = s.size ∧ (s.flowFif d).curTemplate < s.size ∧
        (s.flowFif d).capGen k = s.capGen k := by
      rw [flowFif, hnone]
      dsimp only
      rw [← hnone, generateFlowsRoundrobin_eq (s := { s with curTimeSec := t' }) hloop]
      cases found with
      | none => exact ⟨hsize, hcur, hgen⟩
      | some j =>
        exact ⟨hsize, (incCurrentTemplate_lt (s := s1) (hcur.trans_eq hsize.symm)).trans_eq hsize,
          hgen⟩
    obtain ⟨hsize', hcur', hgen'⟩ := hround
    refine ⟨h.frame hd hsize' hcur' (fun hlt => absurd hfull hlt.ne) hgen', ?_⟩
    rw [flows, hgen']
    exact hfull

/-! ## 4. A thread -/

/-- The first tick comes first. -/
theorem ticks_succ (d : Rat) (j : Nat) (s : FlowOpener) :
    ticks d (j + 1) s = ticks d j (s.flowFif d) := by
  induction j with
  | zero => rfl
  | succ j ih =>
    rw [ticks, ih]
    rfl

theorem ticks_add (d : Rat) (i j : Nat) (s : FlowOpener) :
    ticks d (i + j) s = ticks d j (ticks d i s) := by
  induction j with
  | zero => rfl
  | succ j ih => rw [← Nat.add_assoc, ticks, ticks, ih]

theorem ticks_eq_iterate (d : Rat) (j : Nat) (s : FlowOpener) :
    ticks d j s = (flowFif d)^[j] s := by
  induction j with
  | zero => rfl
  | succ j ih => rw [ticks, ih, Function.iterate_succ_apply']

/-- A tick of a thread opens at most one flow of a template. -/
theorem Metered.step (h : Metered c share k t s) (hc : 0 ≤ c) (hd : 0 ≤ d) :
    Metered c share k (t + d) (s.flowFif d) := by
  rcases h.le.lt_or_eq with hroom | hfull
  · exact (h.tick hc hd hroom).1
  · exact (h.tick_full hd hfull).1

theorem Metered.ticks (h : Metered c share k t s) (hc : 0 ≤ c) (hd : 0 ≤ d) (j : Nat) :
    ∃ t', Metered c share k t' (ticks d j s) := by
  induction j with
  | zero => exact ⟨t, h⟩
  | succ j ih =>
    obtain ⟨t', h'⟩ := ih
    exact ⟨t' + d, h'.step hc hd⟩

/-- No flow is taken back. -/
theorem Metered.flows_le (h : Metered c share k t s) (hc : 0 ≤ c) (hd : 0 ≤ d) :
    s.flows k ≤ (s.flowFif d).flows k := by
  rcases h.le.lt_or_eq with hroom | hfull
  · obtain ⟨-, htick⟩ := h.tick hc hd hroom
    cases htick with
    | served hflows _ => omega
    | refused hflows _ _ => exact hflows.ge
    | skipped hgen _ => rw [flows, flows, hgen]
  · rw [(h.tick_full hd hfull).2, hfull]

theorem Metered.ticks_le (h : Metered c share k t s) (hc : 0 ≤ c) (hd : 0 ≤ d) (j : Nat) :
    s.flows k ≤ (FlowOpener.ticks d j s).flows k := by
  induction j with
  | zero => exact le_rfl
  | succ j ih =>
    obtain ⟨t', h'⟩ := h.ticks hc hd j
    exact ih.trans (h'.flows_le hc hd)

/-- The next flow of the template comes. -/
def Serves (d : Rat) (k : Nat) (s : FlowOpener) :
    Prop := ∃ j, (FlowOpener.ticks d j s).flows k = s.flows k + 1

theorem Serves.of_tick (h : Serves d k (s.flowFif d)) (hflows : (s.flowFif d).flows k = s.flows k) :
    Serves d k s := by
  obtain ⟨j, hj⟩ := h
  exact ⟨j + 1, by rw [ticks_succ, hj, hflows]⟩

/-- **A template that is ready** is served when its turn comes. -/
theorem Metered.serves_ready (h : Metered c share k t s) (hc : 0 ≤ c) (hd : 0 ≤ d)
    (hroom : s.flows k < share) (hready : Ready t (s.capGen k)) : Serves d k s := by
  induction hm : s.ahead k using Nat.strong_induction_on generalizing s t with
  | _ m ih =>
    obtain ⟨hnext, htick⟩ := h.tick hc hd hroom
    cases htick with
    | served hflows _ => exact ⟨1, hflows⟩
    | refused _ hnot _ => exact absurd hready hnot
    | skipped hgen hahead =>
      have hflows : (s.flowFif d).flows k = s.flows k := by rw [flows, hgen]; rfl
      have hready' : Ready (t + d) ((s.flowFif d).capGen k) := by
        rw [hgen]
        refine hready.imp_right fun hpay => ⟨hpay.1, hpay.2.trans_le ?_⟩
        rw [avail_add, h.cir]
        exact le_add_of_nonneg_right (mul_nonneg hc hd)
      exact (ih _ (hm ▸ hahead) hnext (hflows.trans_lt hroom) hready' rfl).of_tick hflows

/-- **A template with a rate** is served: each tick that does not serve it adds to what its policer
has. -/
theorem Metered.serves (h : Metered c share k t s) (hc : 0 < c) (hd : 0 < d)
    (hroom : s.flows k < share) :
    Serves d k s := by
  obtain ⟨n, hn⟩ := exists_nat_gt ((1 - (s.capGen k).policer.avail t) / (c * d))
  have hcd : 0 < c * d := mul_pos hc hd
  have henough : 1 < (s.capGen k).policer.avail t + n * (c * d) := by
    have hmul := (div_lt_iff₀ hcd).mp hn
    linarith
  clear hn
  induction n generalizing s t with
  | zero =>
    rw [Nat.cast_zero, zero_mul, add_zero] at henough
    exact h.serves_ready hc.le hd.le hroom (.inr ⟨h.cir.trans_ne hc.ne', henough⟩)
  | succ n ih =>
    obtain ⟨hnext, htick⟩ := h.tick hc.le hd.le hroom
    -- what the policer has grows by the share of the tick
    have hgrow : ∀ hflows : (s.flowFif d).flows k = s.flows k,
        ((s.flowFif d).capGen k).policer.avail (t + d) = (s.capGen k).policer.avail (t + d) →
        Serves d k s := by
      intro hflows havail
      refine (ih hnext (hflows.trans_lt hroom) ?_).of_tick hflows
      rw [havail, avail_add, h.cir]
      push_cast at henough
      linarith
    cases htick with
    | served hflows _ => exact ⟨1, hflows⟩
    | refused hflows _ havail => exact hgrow hflows havail
    | skipped hgen _ =>
      refine hgrow ?_ (by rw [hgen])
      rw [flows, hgen]
      rfl

/-- A template is full sooner or later, if it is served whenever it has room. -/
theorem exists_full {P : FlowOpener → Prop} {share : Nat}
    (hserves : ∀ s, P s → s.flows k < share → Serves d k s) (hP : ∀ s, P s → P (s.flowFif d))
    (hs : P s) (hle : s.flows k ≤ share) :
    ∃ j, (FlowOpener.ticks d j s).flows k = share := by
  have hticks : ∀ j s, P s → P (FlowOpener.ticks d j s) := by
    intro j s h
    induction j with
    | zero => exact h
    | succ j ih => exact hP _ ih
  induction hm : share - s.flows k generalizing s with
  | zero => exact ⟨0, le_antisymm hle (Nat.sub_eq_zero_iff_le.mp hm)⟩
  | succ m ih =>
    obtain ⟨i, hi⟩ := hserves s hs (by omega)
    obtain ⟨j, hj⟩ := ih (hticks i s hs) (by omega) (by omega)
    exact ⟨i + j, by rw [ticks_add, hj]⟩

/-- What a thread opens of a template in the end: its share, and one flow at most when the template
has no rate. -/
def opensShare (cir : Rat) (share : Nat) : Nat := if cir = 0 then min share 1 else share

/-- **A template without a rate** opens one flow at most. -/
theorem Metered.flows_le_one (h : Metered 0 share k t s) (hd : 0 ≤ d) (hle : s.flows k ≤ 1) :
    (s.flowFif d).flows k ≤ 1 := by
  rcases h.le.lt_or_eq with hroom | hfull
  · obtain ⟨-, htick⟩ := h.tick le_rfl hd hroom
    cases htick with
    | served hflows hready =>
      rcases hready with hfirst | ⟨hcir, -⟩
      · rw [hflows, h.first.mp hfirst]
      · exact absurd h.cir hcir
    | refused hflows => rwa [hflows]
    | skipped hgen => rwa [flows, hgen]
  · rw [(h.tick_full hd hfull).2, ← hfull]
    exact hle

/-- **A thread opens its share** of a template, and no flow more. -/
theorem flows_share (h : Metered c share k t s) (hc : 0 ≤ c) (hd : 0 < d) (hnone : s.flows k = 0) :
    (∀ j, (FlowOpener.ticks d j s).flows k ≤ opensShare c share) ∧
      ∃ n, ∀ j, n ≤ j → (FlowOpener.ticks d j s).flows k = opensShare c share := by
  -- when all is opened it stays so
  have hstays : ∀ count, (∀ j, (FlowOpener.ticks d j s).flows k ≤ count) →
      (∃ i, (FlowOpener.ticks d i s).flows k = count) →
      (∀ j, (FlowOpener.ticks d j s).flows k ≤ count) ∧
        ∃ n, ∀ j, n ≤ j → (FlowOpener.ticks d j s).flows k = count := by
    rintro count hle ⟨i, hi⟩
    refine ⟨hle, i, fun j hij => le_antisymm (hle j) ?_⟩
    obtain ⟨n, rfl⟩ := Nat.exists_eq_add_of_le hij
    obtain ⟨t', h'⟩ := h.ticks hc hd.le i
    rw [← hi, ticks_add]
    exact h'.ticks_le hc hd.le n
  have hle : ∀ j, (FlowOpener.ticks d j s).flows k ≤ share := by
    intro j
    obtain ⟨t', h'⟩ := h.ticks hc hd.le j
    exact h'.le
  rcases hc.eq_or_lt with rfl | hpos
  · -- no rate
    rw [opensShare, if_pos rfl]
    refine hstays _ (fun j => le_min (hle j) ?_) ?_
    · induction j with
      | zero => exact hnone.le.trans (Nat.zero_le 1)
      | succ j ih =>
        obtain ⟨t', h'⟩ := h.ticks le_rfl hd.le j
        exact h'.flows_le_one hd.le ih
    · rcases Nat.eq_zero_or_pos share with rfl | hpos
      · exact ⟨0, hnone⟩
      · obtain ⟨j, hj⟩ := h.serves_ready le_rfl hd.le (hnone.trans_lt hpos)
          (.inl (h.first.mpr hnone))
        exact ⟨j, by rw [hj, hnone, Nat.min_eq_right hpos]⟩
  · rw [opensShare, if_neg hpos.ne']
    refine hstays _ hle ?_
    exact exists_full (P := fun s => ∃ t, Metered c share k t s)
      (fun s ⟨t, h⟩ hroom => h.serves hpos hd hroom) (fun s ⟨t, h⟩ =>
        ⟨t + d, h.step hpos.le hd.le⟩) ⟨t, h⟩ h.le

/-! ## 5. All threads -/

/-- The share of a thread. -/
def threadShare (limit maxThreads threadId : Nat) : Nat :=
  if maxThreads = 1 then limit
  else max 1 (limit / maxThreads + if threadId = 0 then limit % maxThreads else 0)

theorem initFromGlobal_limit (info : CFlowYamlInfo) (maxThreads threadId : Nat) :
    (initFromGlobal info maxThreads threadId).limit =
        threadShare info.limit maxThreads threadId := by
  simp only [initFromGlobal, threadShare]
  split
  · rfl
  · generalize info.limit / maxThreads = quot
    generalize info.limit % maxThreads = rest
    split <;> split <;> omega

/-- No flow was opened yet. -/
theorem metered_startThread (maxThreads threadId : Nat) (hk : k < size)
    (hset : (infos k).limitWasSet = true) (ht : 0 < t) :
    Metered ((infos k).kCps / maxThreads * 1000) (threadShare (infos k).limit maxThreads threadId) k
      t (startThread infos size maxThreads threadId t) where
  lt := hk
  cur := Nat.mod_lt _ (Nat.zero_lt_of_lt hk)
  limitWasSet := hset
  limit := initFromGlobal_limit ..
  le := Nat.zero_le _
  cir := rfl
  bucketSize := rfl
  level := le_rfl
  first := iff_of_true rfl rfl
  last := ht.le
  pos := ht
  fif _ := rfl

/-- There is a time between two ticks. -/
theorem dTimeFlow_pos (hn : 0 < maxThreads) (hcps : ∀ k < size, 0 ≤ (infos k).kCps)
    (hrate : ∃ k < size, 0 < (infos k).kCps) : 0 < dTimeFlow infos size maxThreads := by
  obtain ⟨k, hk, hpos⟩ := hrate
  have hn' : (0 : Rat) < maxThreads := by exact_mod_cast hn
  have htotal : (startThread infos size maxThreads 0 0).getTotalKcps =
      ∑ k : Fin size, (infos k).kCps / maxThreads :=
        sum_range_map (fun k => (infos k).kCps / maxThreads) size
  rw [dTimeFlow, getDeltaFlowIsSec, htotal]
  refine one_div_pos.mpr (mul_pos (by norm_num) ?_)
  exact Finset.sum_pos' (fun i _ => div_nonneg (hcps i i.isLt) hn'.le)
    ⟨⟨k, hk⟩, Finset.mem_univ _, div_pos hpos hn'⟩

/-- **The shares of all threads**: the limit, when it is not less than the number of threads;
otherwise one for each thread but the first, which gets the limit. -/
theorem sum_threadShare (limit : Nat) (hn : 0 < maxThreads) :
    ((List.range maxThreads).map (threadShare limit maxThreads)).sum =
      if maxThreads = 1 ∨ maxThreads ≤ limit then limit else maxThreads - 1 + max limit 1 := by
  obtain ⟨n, rfl⟩ := Nat.exists_eq_succ_of_ne_zero hn.ne'
  cases n with
  | zero => rfl
  | succ n =>
    have hne : n + 1 + 1 ≠ 1 := by omega
    -- the first thread, and the others
    have hfirst : threadShare limit (n + 1 + 1) 0 =
        max 1 (limit / (n + 1 + 1) + limit % (n + 1 + 1)) := by
      rw [threadShare, if_neg hne, if_pos rfl]
    have hother : ∀ i, threadShare limit (n + 1 + 1) (i + 1) = max 1 (limit / (n + 1 + 1)) := by
      intro i
      rw [threadShare, if_neg hne, if_neg (Nat.succ_ne_zero i), Nat.add_zero]
    rw [range_succ_eq_map, map_cons, sum_cons, map_map, hfirst]
    have hrest : ((List.range (n + 1)).map (threadShare limit (n + 1 + 1) ∘ Nat.succ)).sum =
        (n + 1) * max 1 (limit / (n + 1 + 1)) := by
      have hconst : threadShare limit (n + 1 + 1) ∘ Nat.succ = fun _ =>
          max 1 (limit / (n + 1 + 1)) :=
        funext hother
      rw [hconst, map_const', sum_replicate, length_range, smul_eq_mul]
    rw [hrest]
    by_cases hle : n + 1 + 1 ≤ limit
    · rw [if_pos (.inr hle)]
      have hquot : 1 ≤ limit / (n + 1 + 1) := Nat.div_pos hle (Nat.succ_pos _)
      have hdiv := Nat.div_add_mod limit (n + 1 + 1)
      rw [Nat.max_eq_right hquot, Nat.max_eq_right (hquot.trans (Nat.le_add_right _ _))]
      linarith [Nat.succ_mul (n + 1) (limit / (n + 1 + 1))]
    · rw [if_neg (not_or.mpr ⟨hne, hle⟩), Nat.div_eq_of_lt (not_le.mp hle),
        Nat.mod_eq_of_lt (not_le.mp hle)]
      show max 1 (0 + limit) + (n + 1) * 1 = n + 1 + max limit 1
      omega

/-- The flows of all threads after a schedule: each thread ticked as often as it was scheduled. -/
theorem allFlows_afterTicks (curTimeSec : Nat → Rat) (sched : List Nat) :
    allFlows (afterTicks infos size maxThreads curTimeSec sched) k =
      ((List.range maxThreads).map fun i => (ticks (dTimeFlow infos size maxThreads) (sched.count i)
        (startThread infos size maxThreads i (curTimeSec i))).flows k).sum := by
  have hthreads : afterTicks infos size maxThreads curTimeSec sched =
      (List.range maxThreads).map fun i => ticks (dTimeFlow infos size maxThreads) (sched.count i)
        (startThread infos size maxThreads i (curTimeSec i)) := by
    refine ext_getElem? fun i => ?_
    rw [afterTicks, getElem?_interleave, startThreads, List.getElem?_map, List.getElem?_map]
    cases hi : (List.range maxThreads)[i]? with
    | none => rfl
    | some i' =>
      obtain ⟨hlt, hval⟩ := List.getElem?_eq_some_iff.mp hi
      rw [getElem_range hlt] at hval
      subst hval
      simp [ticks_eq_iterate]
  rw [hthreads, allFlows, map_map]
  rfl

/-- Parts that come to their ends come to them together. -/
theorem exists_all {n : Nat} {f : Nat → Nat → Nat} {last : Nat → Nat}
    (h : ∀ i < n, ∃ ticks, ∀ j, ticks ≤ j → f i j = last i) :
    ∃ ticks, ∀ i < n, ∀ j, ticks ≤ j → f i j = last i := by
  induction n with
  | zero => exact ⟨0, fun i hi => absurd hi (Nat.not_lt_zero i)⟩
  | succ n ih =>
    obtain ⟨a, ha⟩ := ih fun i hi => h i (Nat.lt_succ_of_lt hi)
    obtain ⟨b, hb⟩ := h n (Nat.lt_succ_self n)
    refine ⟨max a b, fun i hi j hj => ?_⟩
    rcases Nat.lt_succ_iff_lt_or_eq.mp hi with hlt | rfl
    · exact ha i hlt j ((le_max_left a b).trans hj)
    · exact hb j ((le_max_right a b).trans hj)

/-- What all threads open of a template in the end. -/
theorem sum_opensShare (cir : Rat) (limit : Nat) (hn : 0 < maxThreads) :
    ((List.range maxThreads).map fun i => opensShare cir (threadShare limit maxThreads i)).sum =
      if cir = 0 then if maxThreads = 1 then min limit 1 else maxThreads
      else if maxThreads = 1 ∨ maxThreads ≤ limit then limit else maxThreads - 1 + max limit 1 := by
  by_cases hcir : cir = 0
  · rw [if_pos hcir]
    simp only [opensShare, if_pos hcir]
    by_cases hone : maxThreads = 1
    · subst hone
      rfl
    · rw [if_neg hone]
      have hshare : ∀ i, min (threadShare limit maxThreads i) 1 = 1 := by
        intro i
        rw [threadShare, if_neg hone]
        exact Nat.min_eq_right (le_max_left ..)
      simp [hshare]
  · rw [if_neg hcir, ← sum_threadShare limit hn]
    simp only [opensShare, if_neg hcir]

/-- **The limit of a template over all threads**: it is opened exactly, whatever the schedule, when
there is one thread or when it is not less than the number of threads.  Otherwise every thread opens
one flow, and the first one the limit.  A template without a rate has one flow a thread. -/
theorem limit_shared (infos : Nat → CFlowYamlInfo) (curTimeSec : Nat → Rat) (hn : 0 < maxThreads)
    (hk : k < size) (hset : (infos k).limitWasSet = true) (hcps : ∀ k < size, 0 ≤ (infos k).kCps)
    (hrate : ∃ k < size, 0 < (infos k).kCps) (htime : ∀ i < maxThreads, 0 < curTimeSec i) :
    Opens infos size maxThreads curTimeSec k
      (if (infos k).kCps = 0 then if maxThreads = 1 then min (infos k).limit 1 else maxThreads
      else if maxThreads = 1 ∨ maxThreads ≤ (infos k).limit then (infos k).limit
      else maxThreads - 1 + max (infos k).limit 1) := by
  have hd : 0 < dTimeFlow infos size maxThreads := dTimeFlow_pos hn hcps hrate
  have hn' : (0 : Rat) < maxThreads := by exact_mod_cast hn
  have hc : 0 ≤ (infos k).kCps / maxThreads * 1000 := by
    have hk' := hcps k hk
    positivity
  have hzero : (infos k).kCps / maxThreads * 1000 = 0 ↔ (infos k).kCps = 0 := by
    rw [mul_eq_zero, div_eq_zero_iff]
    refine ⟨fun h => ?_, fun h => .inl (.inl h)⟩
    exact (h.resolve_right (by norm_num)).resolve_right hn'.ne'
  have hthread : ∀ i < maxThreads, _ := fun i hi =>
    flows_share (metered_startThread maxThreads i hk hset (htime i hi)) hc hd rfl
  have hsum := sum_opensShare ((infos k).kCps / maxThreads * 1000) (infos k).limit hn
  simp only [hzero] at hsum
  rw [← hsum]
  constructor
  · intro sched
    rw [allFlows_afterTicks]
    exact sum_le_sum fun i hi => (hthread i (mem_range.mp hi)).1 (sched.count i)
  · obtain ⟨n, hall⟩ := exists_all fun i hi => (hthread i hi).2
    refine ⟨n, fun sched hsched => ?_⟩
    rw [allFlows_afterTicks]
    refine congrArg _ (map_congr_left fun i hi => ?_)
    exact hall i (mem_range.mp hi) _ (hsched i (mem_range.mp hi))

/-- One template with a limit of five flows, and three threads. -/
theorem limit_shared_three :
    Opens (fun _ => ⟨1, true, 5, 0⟩) 1 3 (fun i => 1 / 100 + i / 1000) 0 5 :=
  limit_shared (fun _ => ⟨1, true, 5, 0⟩) (fun i => 1 / 100 + i / 1000) (by decide) (by decide) rfl
    (fun _ _ => by norm_num) ⟨0, by decide, by norm_num⟩ (fun i _ => by positivity)

/-- Two threads open two flows of a template whose limit is one. -/
theorem limit_exceeded : ¬ Opens (fun _ => ⟨1, true, 1, 0⟩) 1 2 (fun i =>
    1 / 100 + i / 1000) 0 1 := by
  rintro ⟨hle, -⟩
  have htwo : allFlows (afterTicks (fun _ => ⟨1, true, 1, 0⟩) 1 2 (fun i => 1 / 100 + i / 1000) [0,
      1]) 0 = 2 := by
    decide +kernel
  have hbad := hle [0, 1]
  rw [htwo] at hbad
  exact absurd hbad (by decide)

end FlowOpener

end Trex.Gen
