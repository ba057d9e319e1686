/-
# The rates of the templates

A generator thread opens at most one flow a tick of its `FLOW_FIF` node, of the first template, from
the current one on, whose policer lets it (`generate_flows_roundrobin`, `bp_sim.cpp`).  A policer is
a bucket of tokens that is filled when it is asked (`CPolicer::update`).

With a tick every `1 / (cps_1 + .. + cps_N)` seconds the policers share the ticks fairly
(`template_rate_accuracy`): what a policer would have if it were asked now is the credit of its
template (`Lib.Credit`), and the first flow of a template, which costs nothing, opens its account.

In `Gen.Thread` the answers of the policers are given by the environment; `findTemplate_eq` says
that asking these policers is the same.
-/
import Mathlib.Algebra.BigOperators.Fin
import Trex.Gen.Thread
import Trex.Lib.Credit

namespace Trex.Gen

open Trex.Lib
open Function (update update_eq_self update_of_ne update_self)

/-! ## 1. Policers -/

/-- `CPolicer` -/
structure CPolicer where
  cir : Rat
  bucketSize : Rat
  level : Rat
  lastTime : Rat
deriving DecidableEq, Repr

namespace CPolicer

/-- `ClearMeter` -/
def clearMeter : CPolicer := ⟨0, 1, 0, 0⟩

/-- `update`, and what it returns. -/
def update (dsize nowSec : Rat) (p : CPolicer) : CPolicer × Bool :=
  if p.lastTime = 0 then
    -- the first time
    ({ p with lastTime := nowSec }, true)
  else if p.cir = 0 then (p, false)
  else
    let p :=
      if nowSec > p.lastTime then
        let level := p.level + (nowSec - p.lastTime) * p.cir
        { p with level := if level > p.bucketSize then p.bucketSize else level, lastTime := nowSec }
      else p
    if p.level > dsize then ({ p with level := p.level - dsize }, true) else (p, false)

/-- What the policer would have at `nowSec`, without a limit. -/
def avail (nowSec : Rat) (p : CPolicer) : Rat := p.level + (nowSec - p.lastTime) * p.cir

/-- The bucket would lose tokens at `nowSec`. -/
def Overflows (nowSec : Rat) (p : CPolicer) : Prop := p.lastTime ≠ 0 ∧ p.bucketSize < p.avail nowSec

end CPolicer

/-! ## 2. The thread -/

/-- What opening flows reads of a `CFlowYamlInfo`, and its counter of flows. -/
structure CFlowYamlInfo where
  kCps : Rat
  limitWasSet : Bool
  limit : Nat
  flowcnt : Nat
deriving DecidableEq, Repr

/-- `CFlowGeneratorRecPerThread` -/
structure CFlowGeneratorRecPerThread where
  info : CFlowYamlInfo
  policer : CPolicer
deriving DecidableEq, Repr

/-- `CFlowGeneratorRecPerThread::Create` -/
def CFlowGeneratorRecPerThread.create (info : CFlowYamlInfo) : CFlowGeneratorRecPerThread where
  info := info
  policer := { CPolicer.clearMeter with cir := info.kCps * 1000, level := 0, bucketSize := 100 }

/-- What `CFlowGenListPerThread` opens flows with: `m_cap_gen` is `capGen 0 .. capGen (size - 1)`,
and `fif` is the time of the `FLOW_FIF` node, if there is one. -/
structure FlowOpener where
  size : Nat
  capGen : Nat → CFlowGeneratorRecPerThread
  curTemplate : Nat
  curTimeSec : Rat
  fif : Option Rat

namespace FlowOpener

/-- `get_total_kcps` -/
def getTotalKcps (s : FlowOpener) :
    Rat := ((List.range s.size).map fun i => (s.capGen i).info.kCps).sum

/-- `get_delta_flow_is_sec` -/
def getDeltaFlowIsSec (s : FlowOpener) : Rat := 1 / (1000 * s.getTotalKcps)

/-- `inc_current_template` -/
def incCurrentTemplate (s : FlowOpener) : FlowOpener :=
  { s with curTemplate := if s.curTemplate + 1 = s.size then 0 else s.curTemplate + 1 }

def setGen (s : FlowOpener) (k : Nat) (g : CFlowGeneratorRecPerThread) : FlowOpener :=
  { s with capGen := update s.capGen k g }

/-- The loop of `generate_flows_roundrobin`: the thread, whether all limits were reached, and the
template of the flow that is opened. -/
def findLoop : Nat → FlowOpener → Bool → FlowOpener × Bool × Option Nat
  | 0, s, done => (s, done, none)
  | i + 1, s, done =>
    let cur := s.capGen s.curTemplate
    if !cur.info.limitWasSet || cur.info.flowcnt < cur.info.limit then
      let (policer, ok) := cur.policer.update 1 s.curTimeSec
      if ok then
        (s.setGen s.curTemplate ⟨{ cur.info with flowcnt := cur.info.flowcnt + 1 }, policer⟩, false,
          some s.curTemplate)
      else findLoop i (s.setGen s.curTemplate ⟨cur.info, policer⟩).incCurrentTemplate false
    else findLoop i s.incCurrentTemplate done

/-- `generate_flows_roundrobin`, and `*done`. -/
def generateFlowsRoundrobin (s : FlowOpener) : FlowOpener × Bool :=
  match findLoop s.size s true with
  | (s, done, some _) => (s.incCurrentTemplate, done)
  | (s, done, none) => (s, done)

/-- The `FLOW_FIF` case of `flush_file`: a tick. -/
def flowFif (dTime : Rat) (s : FlowOpener) : FlowOpener :=
  match s.fif with
  | none => s
  | some time =>
    let (s, done) := generateFlowsRoundrobin { s with curTimeSec := time }
    { s with fif := if !done then some (time + dTime) else none }

/-- The thread after `j` ticks. -/
def ticks (dTime : Rat) : Nat → FlowOpener → FlowOpener
  | 0, s => s
  | j + 1, s => (ticks dTime j s).flowFif dTime

/-- `start_generate_stateful`, up to the first tick at `curTimeSec`.  The thread has copies of the
templates, in which no flow was counted (`Clone`). -/
def start (infos : Nat → CFlowYamlInfo) (size : Nat) (threadId : UInt8) (curTimeSec : Rat) :
    FlowOpener where
  size := size
  capGen := fun k => .create { infos k with flowcnt := 0 }
  curTemplate := threadId.toNat % size
  curTimeSec := curTimeSec
  fif := some curTimeSec

/-- How many flows of template `k` were opened. -/
def flows (s : FlowOpener) (k : Nat) : Nat := (s.capGen k).info.flowcnt

/-- How many ticks there are in the first `duration` seconds: the one at the start, and then one
every `dTime` seconds. -/
def ticksWithin (dTime duration : Rat) : Nat := ⌊duration / dTime⌋₊ + 1

end FlowOpener

/-! ## 3. A policer -/

namespace CPolicer

variable {p : CPolicer} {nowSec : Rat}

theorem update_first (h : p.lastTime = 0) (dsize nowSec : Rat) :
    p.update dsize nowSec = ({ p with lastTime := nowSec }, true) := if_pos h

/-- **A policer that was asked before**, and whose bucket is large enough. -/
theorem update_avail (hlast : p.lastTime ≠ 0) (hcir : p.cir ≠ 0) (hle : p.lastTime ≤ nowSec)
    (hfit : p.avail nowSec ≤ p.bucketSize) :
    p.update 1 nowSec =
      if 1 < p.avail nowSec then ({ p with level := p.avail nowSec - 1, lastTime := nowSec }, true)
      else ({ p with level := p.avail nowSec, lastTime := nowSec }, false) := by
  rw [update, if_neg hlast, if_neg hcir]
  rcases hle.lt_or_eq with hlt | heq
  · have hnot : ¬ p.level + (nowSec - p.lastTime) * p.cir > p.bucketSize := not_lt.mpr hfit
    simp only [gt_iff_lt, if_pos hlt, if_neg hnot]
    rfl
  · subst heq
    have hsame : p.avail p.lastTime = p.level := by rw [avail, sub_self, zero_mul, add_zero]
    simp only [gt_iff_lt, lt_irrefl, if_false, hsame]

end CPolicer

/-- A generator that was asked at `nowSec` and paid `paid` times. -/
structure Probed (paid : Nat) (nowSec : Rat) (g g' : CFlowGeneratorRecPerThread) : Prop where
  info : g'.info = { g.info with flowcnt := g.info.flowcnt + paid }
  cir : g'.policer.cir = g.policer.cir
  bucketSize : g'.policer.bucketSize = g.policer.bucketSize
  avail : g'.policer.avail nowSec = g.policer.avail nowSec - paid
  pos : 0 < g'.policer.lastTime
  le : g'.policer.lastTime ≤ nowSec

/-- What the loop needs of a generator: no limit, and a policer that was asked before and does not
overflow. -/
structure Open (nowSec : Rat) (g : CFlowGeneratorRecPerThread) : Prop where
  noLimit : g.info.limitWasSet = false
  cir : 0 < g.policer.cir
  pos : 0 < g.policer.lastTime
  le : g.policer.lastTime ≤ nowSec
  fits : g.policer.avail nowSec ≤ g.policer.bucketSize

variable {nowSec : Rat} {g : CFlowGeneratorRecPerThread}

theorem Open.probed (h : Open nowSec g) :
    Probed 0 nowSec g g where
  info := rfl
  cir := rfl
  bucketSize := rfl
  avail := by rw [Nat.cast_zero, sub_zero]
  pos := h.pos
  le := h.le

theorem Probed.trans {a b : Nat} {g' g'' : CFlowGeneratorRecPerThread} (h : Probed a nowSec g g')
    (h' : Probed b nowSec g' g'') : Probed (a + b) nowSec g g'' where
  info := by rw [h'.info, h.info, Nat.add_assoc]
  cir := h'.cir.trans h.cir
  bucketSize := h'.bucketSize.trans h.bucketSize
  avail := by rw [h'.avail, h.avail, Nat.cast_add, sub_sub]
  pos := h'.pos
  le := h'.le

theorem Probed.open {g' : CFlowGeneratorRecPerThread} (h : Probed 0 nowSec g g')
    (hopen : Open nowSec g) : Open nowSec g' where
  noLimit := by rw [h.info]; exact hopen.noLimit
  cir := by rw [h.cir]; exact hopen.cir
  pos := h.pos
  le := h.le
  fits := by
    rw [h.avail, h.bucketSize, Nat.cast_zero, sub_zero]
    exact hopen.fits

/-- **A policer is asked**: it says whether it has more than one token, and then gives one. -/
theorem Open.update (h : Open nowSec g) :
    (g.policer.update 1 nowSec).2 = decide (1 < g.policer.avail nowSec) ∧
      Probed (if 1 < g.policer.avail nowSec then 1 else 0) nowSec g
        ⟨{ g.info with flowcnt := g.info.flowcnt + if 1 < g.policer.avail nowSec then 1 else 0 },
          (g.policer.update 1 nowSec).1⟩ := by
  have hpos : 0 < nowSec := h.pos.trans_le h.le
  rw [CPolicer.update_avail h.pos.ne' h.cir.ne' h.le h.fits]
  by_cases hpay : 1 < g.policer.avail nowSec
  · rw [if_pos hpay, if_pos hpay]
    refine ⟨(decide_eq_true hpay).symm, rfl, rfl, rfl, ?_, hpos, le_rfl⟩
    simp [CPolicer.avail, zero_mul]
  · rw [if_neg hpay, if_neg hpay]
    refine ⟨(decide_eq_false hpay).symm, rfl, rfl, rfl, ?_, hpos, le_rfl⟩
    simp [CPolicer.avail, zero_mul]

/-! ## 4. A tick -/

namespace FlowOpener

variable {s s' : FlowOpener} {n k : Nat}

theorem incCurrentTemplate_cur (h : s.curTemplate < s.size) :
    s.incCurrentTemplate.curTemplate = (s.curTemplate + 1) % s.size := by
  simp only [incCurrentTemplate]
  by_cases hlast : s.curTemplate + 1 = s.size
  · rw [if_pos hlast, hlast, Nat.mod_self]
  · rw [if_neg hlast, Nat.mod_eq_of_lt (by omega)]

theorem incCurrentTemplate_lt (h : s.curTemplate < s.size) :
    s.incCurrentTemplate.curTemplate < s.incCurrentTemplate.size := by
  rw [incCurrentTemplate_cur h]
  exact Nat.mod_lt _ (Nat.zero_lt_of_lt h)

/-- What the loop does in `i` turns, when all policers were asked before: no policer lets a flow
through that has one token or less, and the loop ends at the first one that has more. -/
structure Scanned (s : FlowOpener) (i : Nat) (s' : FlowOpener) (found : Option Nat) : Prop where
  size : s'.size = s.size
  probed : ∀ k < s.size,
    Probed (if found = some k then 1 else 0) s.curTimeSec (s.capGen k) (s'.capGen k)
  cur : s'.curTemplate < s.size
  paid : ∀ k, found = some k → s'.curTemplate = k ∧ 1 < (s.capGen k).policer.avail s.curTimeSec
  failed : found = none → ∀ m < i,
    (s.capGen ((s.curTemplate + m) % s.size)).policer.avail s.curTimeSec ≤ 1

variable {i : Nat}

/-- The current template opens a flow. -/
theorem findLoop_pay {done : Bool} {policer : CPolicer}
    (hlimit : (s.capGen s.curTemplate).info.limitWasSet = false)
    (hok : (s.capGen s.curTemplate).policer.update 1 s.curTimeSec = (policer, true)) :
    findLoop (i + 1) s done =
      (s.setGen s.curTemplate
        ⟨{ (s.capGen s.curTemplate).info with flowcnt := (s.capGen s.curTemplate).info.flowcnt +
          1 }, policer⟩,
        false, some s.curTemplate) := by
  rw [findLoop, hlimit, hok]
  rfl

/-- The current template does not, and the loop goes on with the next one. -/
theorem findLoop_next {done : Bool} {policer : CPolicer}
    (hlimit : (s.capGen s.curTemplate).info.limitWasSet = false)
    (hok : (s.capGen s.curTemplate).policer.update 1 s.curTimeSec = (policer, false)) :
    findLoop (i + 1) s done =
      findLoop i (s.setGen s.curTemplate ⟨(s.capGen s.curTemplate).info,
          policer⟩).incCurrentTemplate false := by
  rw [findLoop, hlimit, hok]
  rfl

/-- The generators when the current one was asked. -/
theorem setGen_probed {paid : Nat} (hopen : ∀ k < s.size, Open s.curTimeSec (s.capGen k))
    (hg : Probed paid s.curTimeSec (s.capGen n) g) (hk : k < s.size) :
    Probed (if n = k then paid else 0) s.curTimeSec (s.capGen k) ((s.setGen n g).capGen k) := by
  by_cases hnk : n = k
  · subst hnk
    rw [if_pos rfl, setGen]
    simp only [update_self]
    exact hg
  · rw [if_neg hnk, setGen]
    simp only [update_of_ne (Ne.symm hnk)]
    exact (hopen k hk).probed

/-- A turn in which the current template does not open a flow, and the turns behind it. -/
theorem Scanned.next {found : Option Nat} (hcur : s.curTemplate < s.size)
    (hopen : ∀ k < s.size, Open s.curTimeSec (s.capGen k))
    (hg : Probed 0 s.curTimeSec (s.capGen s.curTemplate) g)
    (hfail : (s.capGen s.curTemplate).policer.avail s.curTimeSec ≤ 1)
    (h : Scanned (s.setGen s.curTemplate g).incCurrentTemplate i s' found) :
    Scanned s (i + 1) s' found := by
  have hprobed : ∀ k < s.size,
      Probed 0 s.curTimeSec (s.capGen k) ((s.setGen s.curTemplate g).capGen k) := by
    intro k hk
    have hset := setGen_probed hopen hg hk
    rwa [ite_self] at hset
  have havail : ∀ k < s.size, ((s.setGen s.curTemplate g).capGen k).policer.avail s.curTimeSec =
      (s.capGen k).policer.avail s.curTimeSec := by
    intro k hk
    rw [(hprobed k hk).avail, Nat.cast_zero, sub_zero]
  have hnext : (s.setGen s.curTemplate g).incCurrentTemplate.curTemplate = (s.curTemplate + 1) %
      s.size :=
    incCurrentTemplate_cur (s := s.setGen s.curTemplate g) hcur
  have hpos : 0 < s.size := Nat.zero_lt_of_lt hcur
  constructor
  · exact h.size
  · intro k hk
    have hboth := (hprobed k hk).trans (h.probed k hk)
    rwa [Nat.zero_add] at hboth
  · exact h.cur
  · intro k hk
    obtain ⟨hthere, hpay⟩ := h.paid k hk
    have hlt : k < s.size := hthere ▸ h.cur
    exact ⟨hthere, hpay.trans_eq (havail k hlt)⟩
  · intro hnone m hm
    cases m with
    | zero => rwa [Nat.add_zero, Nat.mod_eq_of_lt hcur]
    | succ m =>
      have hrest := h.failed hnone m (Nat.lt_of_succ_lt_succ hm)
      rw [hnext] at hrest
      have hsame : ((s.curTemplate + 1) % s.size + m) % s.size = (s.curTemplate + (m + 1)) %
          s.size := by
        rw [Nat.mod_add_mod, Nat.add_right_comm, Nat.add_assoc]
      have hrest' : ((s.setGen s.curTemplate g).capGen
          (((s.curTemplate + 1) % s.size + m) % s.size)).policer.avail s.curTimeSec ≤ 1 := hrest
      rw [hsame] at hrest'
      rwa [havail _ (Nat.mod_lt _ hpos)] at hrest'

/-- **The loop over the policers.** -/
theorem findLoop_scanned : ∀ (i : Nat) (s : FlowOpener) (done : Bool), s.curTemplate < s.size →
    (∀ k < s.size, Open s.curTimeSec (s.capGen k)) →
    Scanned s i (findLoop i s done).1 (findLoop i s done).2.2 ∧
        (0 < i → (findLoop i s done).2.1 = false) := by
  intro i
  induction i with
  | zero =>
    intro s done hcur hopen
    refine ⟨⟨rfl, fun k hk => (hopen k hk).probed, hcur, fun k hk => ?_, fun _ m hm => ?_⟩, fun h =>
      ?_⟩
    · cases hk
    · exact absurd hm (Nat.not_lt_zero m)
    · exact absurd h (lt_irrefl 0)
  | succ i ih =>
    intro s done hcur hopen
    obtain ⟨hok, hprobed⟩ := (hopen _ hcur).update
    have hlimit := (hopen _ hcur).noLimit
    by_cases hpay : 1 < (s.capGen s.curTemplate).policer.avail s.curTimeSec
    · rw [decide_eq_true hpay] at hok
      rw [if_pos hpay] at hprobed
      rw [findLoop_pay hlimit (Prod.ext rfl hok)]
      refine ⟨⟨rfl, fun k hk => ?_, hcur, fun k hk => ?_, fun h => by cases h⟩, fun _ => rfl⟩
      · have hset := setGen_probed hopen hprobed hk
        simp only [Option.some.injEq]
        exact hset
      · cases hk
        exact ⟨rfl, hpay⟩
    · rw [decide_eq_false hpay] at hok
      rw [if_neg hpay] at hprobed
      rw [findLoop_next hlimit (Prod.ext rfl hok)]
      obtain ⟨hscan, hdone⟩ := ih (s.setGen s.curTemplate ⟨(s.capGen s.curTemplate).info,
        ((s.capGen s.curTemplate).policer.update 1 s.curTimeSec).1⟩).incCurrentTemplate false
        (incCurrentTemplate_lt (s := s.setGen s.curTemplate _) hcur)
        (fun k hk => by
          have hset := setGen_probed hopen hprobed hk
          rw [ite_self] at hset
          exact hset.open (hopen k hk))
      refine ⟨hscan.next hcur hopen hprobed (not_lt.mp hpay), fun _ => ?_⟩
      cases i with
      | zero => rfl
      | succ i => exact hdone (Nat.succ_pos i)

/-! ## 5. Credits -/

/-- The ticks before the first one of template `k`: the templates that were never asked are the next
`r` ones. A policer has the credit of its template, and its share of the tick that comes. -/
structure Matches (c : Fin n → Rat) (d t : Rat) (s : FlowOpener) (a : Accounts (Fin n) Rat) :
    Prop where
  size : s.size = n
  cur : s.curTemplate < n
  fif : s.fif = some t
  noLimit : ∀ k : Fin n, (s.capGen k).info.limitWasSet = false
  cir : ∀ k : Fin n, (s.capGen k).policer.cir = c k
  bucketSize : ∀ k : Fin n, (s.capGen k).policer.bucketSize = 100
  opened : ∀ k ∈ a.opened, 0 < (s.capGen k).policer.lastTime ∧ (s.capGen k).policer.lastTime ≤ t ∧
    (s.capGen k).policer.avail t = a.credit k + c k * d
  closed : ∀ k ∉ a.opened, (s.capGen k).policer.lastTime = 0 ∧ (s.capGen k).policer.level = 0
  flowcnt : ∀ k : Fin n, (s.capGen k).info.flowcnt = a.served k
  next : ∃ r ≤ n, ∀ k : Fin n, k ∉ a.opened ↔ ∃ m < r, (s.curTemplate + m) % n = k

variable {c : Fin n → Rat} {d t : Rat} {a : Accounts (Fin n) Rat}

theorem avail_add (p : CPolicer) (t d : Rat) : p.avail (t + d) = p.avail t + p.cir * d := by
  simp only [CPolicer.avail]
  ring

/-- A tick, where the loop does not find all limits reached. -/
theorem flowFif_eq (hfif : s.fif = some t) {found : Option Nat}
    (hloop : findLoop s.size { s with curTimeSec := t } true = (s', false, found)) :
    s.flowFif d = { (if found.isSome then s'.incCurrentTemplate else s') with
        fif := some (t + d) } := by
  have hround : generateFlowsRoundrobin { s with curTimeSec := t } =
      (if found.isSome then s'.incCurrentTemplate else s', false) := by
    rw [generateFlowsRoundrobin, hloop]
    cases found <;> rfl
  obtain ⟨size, capGen, cur, time, fif⟩ := s
  cases hfif
  simp only [flowFif, hround]
  rfl

/-- From the current template on the loop comes to every template. -/
theorem exists_turn {cur : Nat} (hcur : cur < n) (hk : k < n) : ∃ m < n, (cur + m) % n = k := by
  refine ⟨(k + n - cur) % n, Nat.mod_lt _ (Nat.zero_lt_of_lt hk), ?_⟩
  rw [Nat.add_mod_mod, show cur + (k + n - cur) = k + n by omega, Nat.add_mod_right,
    Nat.mod_eq_of_lt hk]

/-- The template behind the one that was opened, and the `r` templates that are still closed. -/
theorem next_closed {r cur : Nat} (hcur : cur < n) (hr : r + 1 ≤ n) (k : Nat) (hk : k < n) :
    (k ≠ cur ∧ ∃ m < r + 1, (cur + m) % n = k) ↔ ∃ m < r, ((cur + 1) % n + m) % n = k := by
  have hshift : ∀ m, ((cur + 1) % n + m) % n = (cur + (m + 1)) % n := by
    intro m
    rw [Nat.mod_add_mod, Nat.add_right_comm, Nat.add_assoc]
  constructor
  · rintro ⟨hne, m, hm, rfl⟩
    cases m with
    | zero => exact absurd (Nat.mod_eq_of_lt hcur) hne
    | succ m => exact ⟨m, Nat.lt_of_succ_lt_succ hm, hshift m⟩
  · rintro ⟨m, hm, rfl⟩
    rw [hshift]
    refine ⟨?_, m + 1, Nat.succ_lt_succ hm, rfl⟩
    intro heq
    by_cases hwrap : cur + (m + 1) < n
    · rw [Nat.mod_eq_of_lt hwrap] at heq
      omega
    · rw [Nat.mod_eq_sub_mod (not_lt.mp hwrap), Nat.mod_eq_of_lt (by omega)] at heq
      omega

/-- The generator of a template that was asked for the first time. -/
def firstFlow (g : CFlowGeneratorRecPerThread) (t : Rat) : CFlowGeneratorRecPerThread :=
  ⟨{ g.info with flowcnt := g.info.flowcnt + 1 }, { g.policer with lastTime := t }⟩

/-- A policer that was never asked lets the flow through. -/
theorem findLoop_first (done : Bool) (hi : 0 < i)
    (hlimit : (s.capGen s.curTemplate).info.limitWasSet = false)
    (hlast : (s.capGen s.curTemplate).policer.lastTime = 0) :
    findLoop i s done = (s.setGen s.curTemplate (firstFlow (s.capGen s.curTemplate) s.curTimeSec),
      false, some s.curTemplate) := by
  cases i with
  | zero => exact absurd hi (lt_irrefl 0)
  | succ i => exact findLoop_pay hlimit (CPolicer.update_first hlast 1 _)

/-- **A template is asked for the first time.** -/
theorem Matches.open (h : Matches c d t s a) (ht : 0 < t) (hd : 0 ≤ d) {r : Nat} (hr : r + 1 ≤ n)
    (hnext : ∀ k : Fin n, k ∉ a.opened ↔ ∃ m < r + 1, (s.curTemplate + m) % n = k) :
    ∃ a', a.Tick (fun k => c k * d) a' ∧ Matches c d (t + d) (s.flowFif d) a' := by
  obtain ⟨cur, hcureq⟩ : ∃ cur : Fin n, (cur : Nat) = s.curTemplate := ⟨⟨s.curTemplate, h.cur⟩, rfl⟩
  have hclosed : cur ∉ a.opened :=
    (hnext cur).mpr ⟨0, Nat.succ_pos r, by rw [Nat.add_zero, Nat.mod_eq_of_lt h.cur, hcureq]⟩
  obtain ⟨hlast, hlevel⟩ := h.closed cur hclosed
  have hlimit := h.noLimit cur
  rw [hcureq] at hlast hlimit
  have hsize : 0 < s.size := by rw [h.size]; omega
  have hfif := flowFif_eq (d := d) h.fif
    (findLoop_first (s := { s with curTimeSec := t }) true hsize hlimit hlast)
  -- what the tick leaves in each generator
  have hgen : ∀ k : Fin n, (s.flowFif d).capGen k =
      if k = cur then firstFlow (s.capGen k) t else s.capGen k := by
    intro k
    rw [hfif]
    by_cases hk : k = cur
    · rw [if_pos hk, hk, hcureq]
      exact update_self ..
    · rw [if_neg hk]
      exact update_of_ne (fun heq => hk (Fin.ext (heq.trans hcureq.symm))) ..
  have hcur' : (s.flowFif d).curTemplate = (s.curTemplate + 1) % n := by
    rw [hfif, ← h.size]
    exact incCurrentTemplate_cur (s := setGen { s with curTimeSec := t } s.curTemplate _) (h.size ▸
      h.cur)
  refine ⟨_, .open cur hclosed, ?_⟩
  constructor
  · rw [hfif]
    exact h.size
  · rw [hcur']
    exact Nat.mod_lt _ (Nat.zero_lt_of_lt h.cur)
  · rw [hfif]
  · intro k
    rw [hgen]
    split
    · exact h.noLimit k
    · exact h.noLimit k
  · intro k
    rw [hgen]
    split
    · exact h.cir k
    · exact h.cir k
  · intro k
    rw [hgen]
    split
    · exact h.bucketSize k
    · exact h.bucketSize k
  · intro k hk
    rw [hgen]
    by_cases hkcur : k = cur
    · subst hkcur
      rw [if_pos rfl, avail_add]
      refine ⟨ht, le_add_of_nonneg_right hd, ?_⟩
      simp [firstFlow, CPolicer.avail, hlevel, h.cir, zero_mul, if_neg hclosed]
    · have hmem : k ∈ a.opened := (Finset.mem_insert.mp hk).resolve_left hkcur
      obtain ⟨hpos, hle, havail⟩ := h.opened k hmem
      rw [if_neg hkcur, avail_add, havail, h.cir]
      refine ⟨hpos, hle.trans (le_add_of_nonneg_right hd), ?_⟩
      simp only [if_pos hmem]
  · intro k hk
    rw [Finset.mem_insert, not_or] at hk
    rw [hgen, if_neg hk.1]
    exact h.closed k hk.2
  · intro k
    rw [hgen]
    by_cases hkcur : k = cur
    · subst hkcur
      rw [if_pos rfl]
      simp [firstFlow, h.flowcnt]
    · rw [if_neg hkcur]
      simp only [update_of_ne hkcur, h.flowcnt]
  · refine ⟨r, (Nat.le_succ r).trans hr, fun k => ?_⟩
    rw [Finset.mem_insert, not_or, hcur', ← next_closed h.cur hr k k.isLt, hnext k]
    refine and_congr_left fun _ => not_congr ?_
    rw [Fin.ext_iff, hcureq]

/-- **All templates were asked**: one pays for its flow, or none can. -/
theorem Matches.scan (h : Matches c d t s a) (hc : ∀ k, 0 < c k) (hd : 0 ≤ d)
    (hall : ∀ k, k ∈ a.opened) (hfits : ∀ k, a.credit k + c k * d ≤ 100) :
    ∃ a', a.Tick (fun k => c k * d) a' ∧ Matches c d (t + d) (s.flowFif d) a' := by
  have hopen : ∀ k < n, Open t (s.capGen k) := by
    intro k hk
    obtain ⟨hpos, hle, havail⟩ := h.opened ⟨k, hk⟩ (hall _)
    refine ⟨h.noLimit ⟨k, hk⟩, ?_, hpos, hle, ?_⟩
    · rw [h.cir ⟨k, hk⟩]
      exact hc _
    · rw [havail, h.bucketSize ⟨k, hk⟩]
      exact hfits _
  have hsize : 0 < s.size := by rw [h.size]; exact Nat.zero_lt_of_lt h.cur
  obtain ⟨hscan, hdone⟩ := findLoop_scanned s.size { s with curTimeSec := t } true (h.size ▸ h.cur)
    (fun k hk => hopen k (hk.trans_eq h.size))
  generalize hloop : findLoop s.size { s with curTimeSec := t } true = res at hscan hdone
  obtain ⟨s', done, found⟩ := res
  have hdone : done = false := hdone hsize
  subst hdone
  have hfif := flowFif_eq (d := d) h.fif hloop
  have hprobed : ∀ k : Fin n, Probed (if found = some (k : Nat) then 1 else 0) t (s.capGen k)
      ((s.flowFif d).capGen k) := by
    intro k
    have hk := hscan.probed k (k.isLt.trans_eq h.size.symm)
    rw [hfif]
    cases found <;> exact hk
  have hmatch : ∀ (credit : Fin n → Rat) (served : Fin n → Nat),
      (∀ k : Fin n, credit k = a.credit k + c k * d -
        ((if found = some (k : Nat) then 1 else 0 : Nat) : Rat)) →
      (∀ k : Fin n, served k = a.served k + if found = some (k : Nat) then 1 else 0) →
      Matches c d (t + d) (s.flowFif d) ⟨a.opened, credit, served⟩ := by
    intro credit served hcredit hserved
    constructor
    · rw [hfif]
      cases found <;> exact hscan.size.trans h.size
    · rw [hfif]
      cases found with
      | none => exact hscan.cur.trans_eq h.size
      | some k =>
        have hlt : s'.curTemplate < s'.size := hscan.cur.trans_eq hscan.size.symm
        exact (incCurrentTemplate_lt hlt).trans_eq (hscan.size.trans h.size)
    · rw [hfif]
    · intro k
      rw [(hprobed k).info]
      exact h.noLimit k
    · exact fun k => (hprobed k).cir.trans (h.cir k)
    · exact fun k => (hprobed k).bucketSize.trans (h.bucketSize k)
    · intro k hk
      obtain ⟨-, -, havail⟩ := h.opened k hk
      refine ⟨(hprobed k).pos, (hprobed k).le.trans (le_add_of_nonneg_right hd), ?_⟩
      rw [avail_add, (hprobed k).avail, (hprobed k).cir, h.cir, havail, ← hcredit]
    · exact fun k hk => absurd (hall k) hk
    · intro k
      rw [(hprobed k).info]
      simp only [hserved, h.flowcnt]
    · refine ⟨0, Nat.zero_le n, fun k => iff_of_false (not_not_intro (hall k)) ?_⟩
      rintro ⟨m, hm, -⟩
      exact absurd hm (Nat.not_lt_zero m)
  cases hfound : found with
  | none =>
    subst hfound
    refine ⟨_, .rest hall fun k => ?_, hmatch _ _ (fun k => ?_) fun k => ?_⟩
    · -- every template was asked, wherever the loop began
      obtain ⟨-, -, havail⟩ := h.opened k (hall k)
      obtain ⟨m, hm, hmk⟩ := exists_turn h.cur k.isLt
      have hfail : (s.capGen ((s.curTemplate + m) % s.size)).policer.avail t ≤ 1 :=
        hscan.failed rfl m (hm.trans_eq h.size.symm)
      rwa [h.size, hmk, havail] at hfail
    · simp
    · simp
  | some k =>
    subst hfound
    obtain ⟨hthere, hpay⟩ := hscan.paid k rfl
    have hk : k < n := by rw [← hthere]; exact hscan.cur.trans_eq h.size
    obtain ⟨-, -, havail⟩ := h.opened ⟨k, hk⟩ (hall _)
    have heq : ∀ i : Fin n, some k = some (i : Nat) ↔ i = ⟨k, hk⟩ := by
      intro i
      rw [Option.some.injEq, Fin.ext_iff, eq_comm]
    refine ⟨_, .pay ⟨k, hk⟩ hall ?_, hmatch _ _ (fun i => ?_) fun i => ?_⟩
    · have hpay' : 1 < (s.capGen k).policer.avail t := hpay
      rwa [havail] at hpay'
    · by_cases hi : i = ⟨k, hk⟩
      · simp [heq, if_pos hi]
      · simp [heq, if_neg hi]
    · by_cases hi : i = ⟨k, hk⟩
      · subst hi
        simp
      · simp [heq, if_neg hi, update_of_ne hi]

/-- **A tick of the thread is a tick of the accounts.** -/
theorem Matches.tick (h : Matches c d t s a) (hc : ∀ k, 0 < c k) (hd : 0 ≤ d) (ht : 0 < t)
    (hfits : ∀ k, a.credit k + c k * d ≤ 100) :
    ∃ a', a.Tick (fun k => c k * d) a' ∧ Matches c d (t + d) (s.flowFif d) a' := by
  obtain ⟨r, hr, hnext⟩ := h.next
  cases r with
  | zero =>
    refine h.scan hc hd (fun k => ?_) hfits
    by_contra hk
    obtain ⟨m, hm, -⟩ := (hnext k).mp hk
    exact Nat.not_lt_zero m hm
  | succ r => exact h.open ht hd hr hnext

/-! ## 6. Runs -/

variable {infos : Nat → CFlowYamlInfo} {threadId : UInt8} {start0 : Rat}

/-- `cps` of a template. -/
def cps (infos : Nat → CFlowYamlInfo) (k : Nat) : Rat := (infos k).kCps * 1000

/-- No template was asked yet. -/
theorem matches_start (hn : 0 < n) (hlimit : ∀ k < n, (infos k).limitWasSet = false) :
    Matches (fun k : Fin n => cps infos k) d start0 (start infos n threadId start0)
      ⟨∅, fun _ => 0, fun _ => 0⟩ where
  size := rfl
  cur := Nat.mod_lt _ hn
  fif := rfl
  noLimit k := hlimit k k.isLt
  cir _ := rfl
  bucketSize _ := rfl
  opened k hk := by cases hk
  closed _ _ := ⟨rfl, rfl⟩
  flowcnt _ := rfl
  next := ⟨n, le_rfl, fun k =>
    iff_of_true (Finset.notMem_empty k) (exists_turn (Nat.mod_lt _ hn) k.isLt)⟩

theorem sum_range_map (f : Nat → Rat) (n : Nat) :
    ((List.range n).map f).sum = ∑ k : Fin n, f k := by
  induction n with
  | zero => rfl
  | succ n ih =>
    rw [List.range_succ, List.map_append, List.sum_append, Fin.sum_univ_castSucc, ih]
    simp only [List.map_singleton, List.sum_singleton, Fin.val_castSucc, Fin.val_last]

/-- The templates share the ticks. -/
theorem shares_sum (threadId : UInt8) (start0 : Rat) (hn : 0 < n)
    (hcps : ∀ k < n, 0 < (infos k).kCps) :
    0 < (start infos n threadId start0).getDeltaFlowIsSec ∧
      ∑ k : Fin n, cps infos k * (start infos n threadId start0).getDeltaFlowIsSec = 1 := by
  have htotal : (start infos n threadId start0).getTotalKcps = ∑ k : Fin n, (infos k).kCps :=
    sum_range_map (fun k => (infos k).kCps) n
  have hpos : 0 < ∑ k : Fin n, (infos k).kCps :=
    Finset.sum_pos (fun k _ => hcps k k.isLt) ⟨⟨0, hn⟩, Finset.mem_univ _⟩
  rw [getDeltaFlowIsSec, htotal]
  refine ⟨one_div_pos.mpr (mul_pos (by norm_num) hpos), ?_⟩
  simp only [cps]
  rw [← Finset.sum_mul, ← Finset.sum_mul, mul_comm _ (1000 : Rat), mul_one_div_cancel]
  exact (mul_pos (by norm_num) hpos).ne'

/-- **A run**: after `j` ticks the thread has accounts that are fair, and the next tick is at its
time. -/
theorem ticks_fair (hn : n < 99) (hstart : 0 < start0) (hcps : ∀ k < n, 0 < (infos k).kCps)
    (hlimit : ∀ k < n, (infos k).limitWasSet = false) (hpos : 0 < n)
    (hd : (start infos n threadId start0).getDeltaFlowIsSec = d) (j : Nat) :
    ∃ a, a.Fair (fun k : Fin n => cps infos k * d) j ∧
      Matches (fun k : Fin n =>
          cps infos k) d (start0 + j * d) (ticks d j (start infos n threadId start0)) a := by
  obtain ⟨hdpos, hsum⟩ := shares_sum threadId start0 hpos hcps
  rw [hd] at hdpos hsum
  have hc : ∀ k : Fin n, 0 < cps infos k := fun k => mul_pos (hcps k k.isLt) (by norm_num)
  have hw : ∀ k : Fin n, 0 ≤ cps infos k * d := fun k => (mul_pos (hc k) hdpos).le
  induction j with
  | zero =>
    refine ⟨⟨∅, fun _ => 0, fun _ => 0⟩, Accounts.fair_start rfl (fun _ => rfl) (fun _ => rfl), ?_⟩
    rw [Nat.cast_zero, zero_mul, add_zero]
    exact matches_start hpos hlimit
  | succ j ih =>
    obtain ⟨a, hfair, hmatch⟩ := ih
    have hfits : ∀ k : Fin n, a.credit k + cps infos k * d ≤ 100 := by
      intro k
      have hcredit := hfair.credit_le k
      have hshare := Accounts.share_le_one hw hsum k
      have hn' : (n : Rat) ≤ 98 := by exact_mod_cast Nat.le_of_lt_succ hn
      rw [Fintype.card_fin] at hcredit
      linarith
    have htime : 0 < start0 + j * d := by positivity
    obtain ⟨a', htick, hmatch'⟩ := hmatch.tick hc hdpos.le htime hfits
    refine ⟨a', htick.fair hw hsum hfair, ?_⟩
    have hnext : start0 + ((j + 1 : Nat) : Rat) * d = start0 + j * d + d := by
      push_cast
      ring
    rw [hnext]
    exact hmatch'

/-- **The rates of the templates**: the flows of a template in the first `duration` seconds are
`cps` times the duration, up to `2 * n + 1`; and no bucket loses tokens.  Every tick keeps
`Accounts.Fair` of the credits that the buckets hold (`Matches`). -/
theorem template_rate_accuracy (infos : Nat → CFlowYamlInfo) (threadId : UInt8) (start0 d : Rat)
    (hn : n < 99) (hstart : 0 < start0) (hcps : ∀ k < n, 0 < (infos k).kCps)
    (hlimit : ∀ k < n, (infos k).limitWasSet = false) (hk : k < n)
    (hd : (start infos n threadId start0).getDeltaFlowIsSec = d) :
    (∀ duration : Rat, 0 ≤ duration →
      |((ticks d (ticksWithin d duration) (start infos n threadId start0)).flows k : Rat) -
        cps infos k * duration| ≤ 2 * n + 1) ∧
    ∀ j : Nat, ¬ ((ticks d j (start infos n threadId start0)).capGen k).policer.Overflows (start0 +
        j * d) := by
  have hpos : 0 < n := Nat.zero_lt_of_lt hk
  obtain ⟨hdpos, hsum⟩ := shares_sum threadId start0 hpos hcps
  rw [hd] at hdpos hsum
  have hc : ∀ k : Fin n, 0 < cps infos k := fun k => mul_pos (hcps k k.isLt) (by norm_num)
  have hw : ∀ k : Fin n, 0 ≤ cps infos k * d := fun k => (mul_pos (hc k) hdpos).le
  have hshare : cps infos k * d ≤ 1 := Accounts.share_le_one hw hsum ⟨k, hk⟩
  constructor
  · intro duration hduration
    obtain ⟨a, hfair, hmatch⟩ := ticks_fair hn hstart hcps hlimit hpos hd (ticksWithin d duration)
    have hserved := hfair.served hw hsum ⟨k, hk⟩
    rw [Fintype.card_fin, ← hmatch.flowcnt ⟨k, hk⟩] at hserved
    -- the ticks are the share of the duration, up to one of them
    have hfloor : duration / d < (ticksWithin d duration : Nat) := by
      rw [ticksWithin]
      push_cast
      exact Nat.lt_floor_add_one _
    have hfloor' : ((ticksWithin d duration : Nat) : Rat) - 1 ≤ duration / d := by
      rw [ticksWithin]
      push_cast
      rw [add_sub_cancel_right]
      exact Nat.floor_le (div_nonneg hduration hdpos.le)
    have hhi : duration < ticksWithin d duration * d := (div_lt_iff₀ hdpos).mp hfloor
    have hlo : (ticksWithin d duration - 1) * d ≤ duration := (le_div_iff₀ hdpos).mp hfloor'
    have hck := hc ⟨k, hk⟩
    have hgap : |cps infos k * d * ticksWithin d duration - cps infos k * duration| ≤ 1 := by
      rw [abs_le]
      constructor <;> nlinarith
    calc |((ticks d (ticksWithin d duration) (start infos n threadId start0)).flows k : Rat)
          - cps infos k * duration|
        ≤ |((ticks d (ticksWithin d duration) (start infos n threadId start0)).flows k : Rat)
            - cps infos k * d * ticksWithin d duration| +
          |cps infos k * d * ticksWithin d duration - cps infos k * duration| := abs_sub_le _ _ _
      _ ≤ 2 * n + 1 := add_le_add hserved hgap
  · rintro j ⟨hasked, hover⟩
    obtain ⟨a, hfair, hmatch⟩ := ticks_fair hn hstart hcps hlimit hpos hd j
    have hopened : (⟨k, hk⟩ : Fin n) ∈ a.opened := by
      by_contra hclosed
      exact hasked (hmatch.closed _ hclosed).1
    obtain ⟨-, -, havail⟩ := hmatch.opened _ hopened
    rw [hmatch.bucketSize ⟨k, hk⟩, havail] at hover
    have hcredit := hfair.credit_le ⟨k, hk⟩
    have hn' : (n : Rat) ≤ 98 := by exact_mod_cast Nat.le_of_lt_succ hn
    rw [Fintype.card_fin] at hcredit
    linarith

/-- The theorem on two templates, of one flow and of two flows a second. -/
theorem template_rate_accuracy_two :
    |((ticks (1 / 3) (ticksWithin (1 / 3) 10)
      (start (fun k => ⟨(k + 1) / 1000, false, 0, 0⟩) 2 0 (1 / 100))).flows 1 : Rat) - 20| ≤ 5 := by
  have hrate := (template_rate_accuracy (fun k => ⟨(k + 1) / 1000, false, 0, 0⟩) 0 (1 / 100) (1 / 3)
    (n := 2)
    (k := 1) (by decide) (by norm_num) (fun k _ => by positivity) (fun _ _ => rfl) (by decide)
    (by decide +kernel)).1 10 (by norm_num)
  have hcps : cps (fun k => ⟨(k + 1) / 1000, false, 0, 0⟩) 1 * 10 = 20 := by
    simp only [cps]
    norm_num
  rw [hcps] at hrate
  exact hrate.trans (by norm_num)

/-! ## 7. The environment of a thread -/

variable {κ : Type} [DecidableEq κ] {cfg : Config κ} {flowcnt : Nat → Nat} {policer : Nat → Bool}

/-- The templates of a thread and their counters and policers, for the next `i` turns of the
loop. -/
structure Ahead (cfg : Config κ) (flowcnt : Nat → Nat) (policer : Nat → Bool) (i : Nat)
    (s : FlowOpener) :
    Prop where
  size : cfg.capGen.length = s.size
  cur : s.curTemplate < s.size
  le : i ≤ s.size
  limit : ∀ k t, cfg.capGen[k]? = some t →
    t.limitWasSet = (s.capGen k).info.limitWasSet ∧ t.limit = (s.capGen k).info.limit
  turns : ∀ m < i, flowcnt ((s.curTemplate + m) % s.size) =
      (s.capGen ((s.curTemplate + m) % s.size)).info.flowcnt ∧
    policer ((s.curTemplate + m) % s.size) =
      ((s.capGen ((s.curTemplate + m) % s.size)).policer.update 1 s.curTimeSec).2

/-- The turns behind this one: no template comes twice. -/
theorem Ahead.next (h : Ahead cfg flowcnt policer (i + 1) s)
    (hg : g.info = (s.capGen s.curTemplate).info) :
    Ahead cfg flowcnt policer i (s.setGen s.curTemplate g).incCurrentTemplate := by
  have hcur' : (s.setGen s.curTemplate g).incCurrentTemplate.curTemplate = (s.curTemplate + 1) %
      s.size :=
    incCurrentTemplate_cur (s := s.setGen s.curTemplate g) h.cur
  refine ⟨h.size, incCurrentTemplate_lt (s := s.setGen s.curTemplate g) h.cur,
    (Nat.le_succ i).trans h.le, fun k t ht => ?_, fun m hm => ?_⟩
  · have hinfo : ((s.setGen s.curTemplate g).capGen k).info = (s.capGen k).info := by
      by_cases hk : k = s.curTemplate
      · subst hk
        simp [setGen, hg]
      · simp only [setGen, update_of_ne hk]
    obtain ⟨hset, hlimit⟩ := h.limit k t ht
    exact ⟨hset.trans (congrArg _ hinfo.symm), hlimit.trans (congrArg _ hinfo.symm)⟩
  · rw [hcur']
    have hlt : ((s.curTemplate + 1) % s.size + m) % s.size < s.size :=
      Nat.mod_lt _ (Nat.zero_lt_of_lt h.cur)
    obtain ⟨hne, m', hm', heq⟩ := (next_closed h.cur h.le _ hlt).mpr ⟨m, hm, rfl⟩
    obtain ⟨hcnt, hpolicer⟩ := h.turns m' hm'
    rw [heq] at hcnt hpolicer
    have hgen : (s.setGen s.curTemplate g).incCurrentTemplate.capGen
        (((s.curTemplate + 1) % s.size + m) % s.size) =
        s.capGen (((s.curTemplate + 1) % s.size + m) % s.size) := update_of_ne hne ..
    have hsize : (s.setGen s.curTemplate g).incCurrentTemplate.size = s.size := rfl
    rw [hsize, hgen]
    exact ⟨hcnt, hpolicer⟩

/-- **The policers are the environment of a thread**: the loop of `Gen.Thread`, where they are
given, finds the same template. -/
theorem findTemplate_eq : ∀ (i : Nat) (s : FlowOpener) (done : Bool),
    Ahead cfg flowcnt policer i s →
    Gen.findTemplate cfg flowcnt policer i s.curTemplate done =
      ((findLoop i s done).2.1, (findLoop i s done).1.curTemplate,
        (findLoop i s done).2.2.bind fun k => cfg.capGen[k]?) := by
  intro i
  induction i with
  | zero => exact fun _ _ _ => rfl
  | succ i ih =>
    intro s done h
    have hlt : s.curTemplate < cfg.capGen.length := h.cur.trans_eq h.size.symm
    obtain ⟨t, ht⟩ : ∃ t, cfg.capGen[s.curTemplate]? = some t := ⟨_, List.getElem?_eq_getElem hlt⟩
    obtain ⟨hset, hlimit⟩ := h.limit _ t ht
    obtain ⟨hcnt, hpolicer⟩ := h.turns 0 (Nat.succ_pos i)
    rw [Nat.add_zero, Nat.mod_eq_of_lt h.cur] at hcnt hpolicer
    have hinc : ∀ g, Gen.incCurrentTemplate cfg s.curTemplate =
        (s.setGen s.curTemplate g).incCurrentTemplate.curTemplate := by
      intro g
      rw [Gen.incCurrentTemplate, h.size]
      rfl
    generalize hok : (s.capGen s.curTemplate).policer.update 1 s.curTimeSec = asked at hpolicer
    obtain ⟨p, ok⟩ := asked
    have hpolicer : policer s.curTemplate = ok := hpolicer
    simp only [Gen.findTemplate, findLoop, ht, hset, hlimit, hcnt, hpolicer, hok]
    by_cases hroom : (!(s.capGen s.curTemplate).info.limitWasSet ||
        decide ((s.capGen s.curTemplate).info.flowcnt < (s.capGen s.curTemplate).info.limit)) = true
    · rw [if_pos hroom, if_pos hroom]
      cases ok with
      | true =>
        simp only [if_true, Option.bind_some, ht]
        rfl
      | false =>
        simp only [Bool.false_eq_true, if_false]
        rw [hinc ⟨(s.capGen s.curTemplate).info, p⟩]
        exact ih _ false (h.next rfl)
    · rw [if_neg hroom, if_neg hroom]
      have hself : s.setGen s.curTemplate (s.capGen s.curTemplate) = s := by
        rw [setGen, update_eq_self]
      have hnext := h.next (g := s.capGen s.curTemplate) rfl
      rw [hinc (s.capGen s.curTemplate)]
      rw [hself] at hnext ⊢
      exact ih _ done hnext

end FlowOpener

end Trex.Gen
