/-
# The aging of client ports

The port of a flow that has ended is given back to the pool of its client when the aging time of the
pool is over.  Ports wait in groups of 16 (`CGenNodeDeferPort`, `bp_sim.h`), one group for TCP and
one for UDP, whatever the pool; the release that fills a group schedules it, with the aging time of
its own pool (`defer_client_port_free`, `bp_sim.cpp`).

So a port of a pool with a long aging time may come back too early, with a port of a pool with a
short one (`returns_early`).  It does not when each group is filled by a port that has to wait as
long as the others (`aging_respected`); pools with the same aging times see to that
(`same_aging_respected`).  In any case every port is given back once (`Kept.once`).

* the time is `now_sec`, which does not go back, in a run in real time; it is a rational;
* the scheduler handles a node as soon as it has less than 30 microseconds to wait; what delays it
  (`offset`) is left out;
* the ports that wait carry when their flow ended, which nothing reads, and `ended` and `returned`
  are histories;
* the last flush comes when the scheduler has no other node.
-/
import Trex.Gen.Thread

namespace Trex.Gen

open List

/-! ## 1. The ports -/

/-- `m_tcp_aging` and `m_udp_aging` of each client pool. -/
structure PoolAging where
  tcp : UInt8 → UInt16
  udp : UInt8 → UInt16

/-- `get_tcp_aging` or `get_udp_aging`. -/
def PoolAging.of (aging : PoolAging) (isTcp : Bool) (poolIdx : UInt8) : UInt16 :=
  if isTcp then aging.tcp poolIdx else aging.udp poolIdx

/-- A port of a flow that ended: the port, the protocol, and when. -/
structure EndedPort where
  client : ClientPort
  isTcp : Bool
  ended : Rat
deriving DecidableEq, Repr

/-- When the port may be given back. -/
def PoolAging.due (aging : PoolAging) (e : EndedPort) : Rat :=
  e.ended + (aging.of e.isTcp e.client.poolIdx).toNat

/-- `CGenNodeDeferPort`, when it is scheduled. -/
structure DeferJob where
  time : Rat
  clients : List EndedPort
deriving DecidableEq, Repr

/-- A port that was given back, and whether by the last flush. -/
structure Returned where
  now : Rat
  port : EndedPort
  final : Bool
deriving DecidableEq, Repr

/-- The part of a thread that gives ports back: `m_tcp_dpc`, `m_udp_dpc`, and the groups in the
queue of the scheduler. -/
structure PortReturner where
  tcpDpc : List EndedPort := []
  udpDpc : List EndedPort := []
  queue : List DeferJob := []
  clock : Rat
  closed : Bool := false
  ended : List EndedPort := []
  returned : List Returned := []
deriving DecidableEq, Repr

namespace PortReturner

/-- `FreePort`, for some ports. -/
def giveBack (now : Rat) (final : Bool) (clients : List EndedPort) (s : PortReturner) :
    PortReturner :=
  { s with returned := s.returned ++ clients.map fun e => ⟨now, e, final⟩ }

/-- `get_tcp_defer` or `get_udp_defer`: no node is a group without ports. -/
def getDefer (isTcp : Bool) (s : PortReturner) :
    List EndedPort := if isTcp then s.tcpDpc else s.udpDpc

def setDefer (isTcp : Bool) (clients : List EndedPort) (s : PortReturner) : PortReturner :=
  if isTcp then { s with tcpDpc := clients } else { s with udpDpc := clients }

/-- `defer_client_port_free` -/
def deferPortFree (aging : PoolAging) (isTcp : Bool) (now : Rat) (client : ClientPort)
    (s : PortReturner) :
    PortReturner :=
  let e : EndedPort := ⟨client, isTcp, now⟩
  let s := { s with ended := s.ended ++ [e] }
  if aging.of isTcp client.poolIdx = 0 then s.giveBack now false [e]
  else
    -- `add_client`
    let clients := s.getDefer isTcp ++ [e]
    if clients.length = deferClientsNum then
      -- `schedule_node`
      { s with queue := ⟨now + (aging.of isTcp client.poolIdx).toNat, clients⟩ :: s.queue }.setDefer
        isTcp []
    else s.setDefer isTcp clients

/-- `handler_defer_job_flush` -/
def deferJobFlush (now : Rat) (s : PortReturner) : PortReturner :=
  let s := (s.giveBack now true s.tcpDpc).setDefer true []
  (s.giveBack now true s.udpDpc).setDefer false []

end PortReturner

/-! ## 2. Runs -/

/-- What can happen next: a flow ends and a port of it is released, the scheduler takes a group from
its queue, or it has no other node and the run ends. -/
inductive DeferEvent
  | flowEnd (now : Rat) (isTcp : Bool) (client : ClientPort)
  | job (i : Nat) (now : Rat)
  | flush (now : Rat)

/-- `now_sec` -/
def DeferEvent.now : DeferEvent → Rat
  | .flowEnd now _ _ => now
  | .job _ now => now
  | .flush now => now

namespace PortReturner

/-- One event.  A group that is taken is handled by `handler_defer_job`. -/
def step (aging : PoolAging) (s : PortReturner) : DeferEvent → PortReturner
  | .flowEnd now isTcp client => { s.deferPortFree aging isTcp now client with clock := now }
  | .job i now =>
    match s.queue[i]? with
    | none => s
    | some job => { s with queue := s.queue.eraseIdx i, clock := now }.giveBack now false
        job.clients
  | .flush now => { s.deferJobFlush now with clock := now, closed := true }

/-- What the scheduler does not wait for. -/
def tolerance : Rat := 3 / 100000

/-- When an event is possible. -/
def Enabled (s : PortReturner) (ev : DeferEvent) : Prop :=
  s.closed = false ∧ s.clock ≤ ev.now ∧
    match ev with
    | .flowEnd _ _ _ => True
    | .job i now => ∃ job ∈ s.queue[i]?, job.time - tolerance < now
    | .flush _ => s.queue = []

/-- A run from `s`, every event of which meets a condition. -/
def RunOf (aging : PoolAging) (C : PortReturner → DeferEvent → Prop) :
    PortReturner → List DeferEvent → Prop
  | _, [] => True
  | s, ev :: evs => s.Enabled ev ∧ C s ev ∧ RunOf aging C (s.step aging ev) evs

/-- The state after a run. -/
def after (aging : PoolAging) (s : PortReturner) (evs : List DeferEvent) : PortReturner :=
  evs.foldl (step aging) s

/-- The thread when it starts. -/
def start (clock : Rat) : PortReturner := { clock := clock }

/-- The ports that were not given back yet. -/
def waiting (s : PortReturner) : List EndedPort :=
  s.tcpDpc ++ s.udpDpc ++ s.queue.flatMap DeferJob.clients

/-- **The aging times are respected**: no port was given back before its time but by the last flush,
every port that was released was given back once or waits, and none waits after the flush. -/
structure Respected (aging : PoolAging) (s : PortReturner) : Prop where
  aged : ∀ r ∈ s.returned, r.final = false → aging.due r.port ≤ r.now
  once : (s.returned.map Returned.port ++ s.waiting).Perm s.ended
  all : s.closed = true → s.waiting = []

/-- A port that fills a group is scheduled with it not before any of the group is due. -/
def FillsLate (aging : PoolAging) (s : PortReturner) : DeferEvent → Prop
  | .flowEnd now isTcp client => aging.of isTcp client.poolIdx ≠ 0 →
      (s.getDefer isTcp).length + 1 = deferClientsNum →
      ∀ e ∈ s.getDefer isTcp, aging.due e ≤ now + (aging.of isTcp client.poolIdx).toNat
  | _ => True

/-- A group is not handled before its time, within the tolerance of the scheduler. -/
def Punctual (s : PortReturner) : DeferEvent → Prop
  | .job i now => ∀ job ∈ s.queue[i]?, job.time ≤ now
  | _ => True

/-! ## 3. The operations -/

variable {aging : PoolAging} {s : PortReturner}

@[simp] theorem setDefer_queue (isTcp : Bool) (clients : List EndedPort) (s : PortReturner) :
    (s.setDefer isTcp clients).queue = s.queue := by
  cases isTcp <;> rfl

@[simp] theorem setDefer_ended (isTcp : Bool) (clients : List EndedPort) (s : PortReturner) :
    (s.setDefer isTcp clients).ended = s.ended := by
  cases isTcp <;> rfl

@[simp] theorem setDefer_returned (isTcp : Bool) (clients : List EndedPort) (s : PortReturner) :
    (s.setDefer isTcp clients).returned = s.returned := by
  cases isTcp <;> rfl

@[simp] theorem setDefer_closed (isTcp : Bool) (clients : List EndedPort) (s : PortReturner) :
    (s.setDefer isTcp clients).closed = s.closed := by
  cases isTcp <;> rfl

/-- What waits, by protocol. -/
theorem waiting_perm (isTcp : Bool) (s : PortReturner) :
    s.waiting.Perm (s.getDefer isTcp ++
        (s.getDefer (!isTcp) ++ s.queue.flatMap DeferJob.clients)) := by
  rw [waiting, append_assoc]
  cases isTcp with
  | true => exact List.Perm.refl _
  | false =>
    show (s.tcpDpc ++ (s.udpDpc ++ _)).Perm (s.udpDpc ++ (s.tcpDpc ++ _))
    rw [← append_assoc, ← append_assoc]
    exact perm_append_comm.append_right _

/-- **What a release does**: the port is given back at once, waits, or fills the group. -/
theorem deferPortFree_cases (aging : PoolAging) (isTcp : Bool) (now : Rat) (client : ClientPort)
    (s : PortReturner) :
    (aging.of isTcp client.poolIdx = 0 ∧ s.deferPortFree aging isTcp now client =
      { s with
        ended := s.ended ++ [EndedPort.mk client isTcp now]
        returned := s.returned ++ [Returned.mk now ⟨client, isTcp, now⟩ false] }) ∨
    (aging.of isTcp client.poolIdx ≠ 0 ∧ (s.getDefer isTcp).length + 1 = deferClientsNum ∧
      s.deferPortFree aging isTcp now client =
        { s with
          ended := s.ended ++ [EndedPort.mk client isTcp now]
          queue := DeferJob.mk (now + (aging.of isTcp client.poolIdx).toNat)
            (s.getDefer isTcp ++ [EndedPort.mk client isTcp now]) :: s.queue }.setDefer isTcp []) ∨
    (aging.of isTcp client.poolIdx ≠ 0 ∧ (s.getDefer isTcp).length + 1 ≠ deferClientsNum ∧
      s.deferPortFree aging isTcp now client =
        { s with ended := s.ended ++ [EndedPort.mk client isTcp now] }.setDefer isTcp
          (s.getDefer isTcp ++ [EndedPort.mk client isTcp now])) := by
  unfold deferPortFree
  dsimp only
  have hsame : PortReturner.getDefer isTcp { s with ended := s.ended ++
      [EndedPort.mk client isTcp now] } = s.getDefer isTcp := by
    cases isTcp <;> rfl
  rw [hsame, length_append, length_singleton]
  by_cases hzero : aging.of isTcp client.poolIdx = 0
  · rw [if_pos hzero]
    exact .inl ⟨hzero, rfl⟩
  · rw [if_neg hzero]
    by_cases hfull : (s.getDefer isTcp).length + 1 = deferClientsNum
    · rw [if_pos hfull]
      exact .inr (.inl ⟨hzero, hfull, rfl⟩)
    · rw [if_neg hfull]
      exact .inr (.inr ⟨hzero, hfull, rfl⟩)

/-- How often a port waits, by protocol. -/
theorem count_waiting (isTcp : Bool) (s : PortReturner) (e : EndedPort) :
    s.waiting.count e = (s.getDefer isTcp).count e +
      ((s.getDefer (!isTcp)).count e + (s.queue.flatMap DeferJob.clients).count e) := by
  rw [(waiting_perm isTcp s).count_eq, count_append, count_append]

/-- The queue without a group. -/
theorem count_eraseIdx {queue : List DeferJob} {i : Nat} {job : DeferJob} (h : queue[i]? = some job)
    (e : EndedPort) : (queue.flatMap DeferJob.clients).count e =
      job.clients.count e + ((queue.eraseIdx i).flatMap DeferJob.clients).count e := by
  obtain ⟨hi, rfl⟩ := List.getElem?_eq_some_iff.mp h
  have hperm := (getElem_cons_eraseIdx_perm hi).flatMap_right DeferJob.clients
  rw [← hperm.count_eq, flatMap_cons, count_append]

/-! ## 4. Every port is given back once -/

/-- **What holds in every run.** -/
structure Kept (s : PortReturner) : Prop where
  once : (s.returned.map Returned.port ++ s.waiting).Perm s.ended
  all : s.closed = true → s.waiting = []
  group : ∀ isTcp, ∀ e ∈ s.getDefer isTcp, e.isTcp = isTcp ∧ e.ended ≤ s.clock

theorem once_iff : (s.returned.map Returned.port ++ s.waiting).Perm s.ended ↔
    ∀ e, (s.returned.map Returned.port).count e + s.waiting.count e = s.ended.count e := by
  rw [perm_iff_count]
  simp

theorem kept_start (clock : Rat) : Kept (start clock) where
  once := List.Perm.refl _
  all _ := rfl
  group isTcp e he := by cases isTcp <;> cases he

/-- **An event gives no port back twice and loses none.** -/
theorem Kept.step (h : Kept s) (aging : PoolAging) {ev : DeferEvent} (hev : s.Enabled ev) :
    Kept (s.step aging ev) := by
  obtain ⟨hopen, hclock, hev⟩ := hev
  have honce := once_iff.mp h.once
  have hgroup : ∀ {now : Rat}, s.clock ≤ now → ∀ isTcp, ∀ e ∈ s.getDefer isTcp,
      e.isTcp = isTcp ∧ e.ended ≤ now :=
    fun hle isTcp e he => ⟨(h.group isTcp e he).1, (h.group isTcp e he).2.trans hle⟩
  cases ev with
  | flowEnd now isTcp client =>
    have hclock : s.clock ≤ now := hclock
    set e : EndedPort := ⟨client, isTcp, now⟩ with he
    show Kept { s.deferPortFree aging isTcp now client with clock := now }
    rcases deferPortFree_cases aging isTcp now client s with ⟨-, heq⟩ | ⟨-, -, heq⟩ | ⟨-, -, heq⟩
    · rw [heq]
      refine ⟨once_iff.mpr fun a => ?_, fun hclosed =>
        absurd (hopen.symm.trans hclosed) Bool.false_ne_true, hgroup hclock⟩
      have ha := honce a
      have hwait : waiting { s with
          ended := s.ended ++ [e], returned := s.returned ++ [Returned.mk now e false], clock :=
            now } =
          s.waiting := rfl
      rw [hwait]
      simp only [map_append, map_singleton, count_append]
      omega
    · rw [heq]
      set s' : PortReturner := { setDefer isTcp [] { s with
        ended := s.ended ++ [e]
        queue := DeferJob.mk (now + (aging.of isTcp client.poolIdx).toNat) (s.getDefer isTcp ++
          [e]) :: s.queue }
        with clock := now } with hs'
      have hown : s'.getDefer isTcp = [] := by cases isTcp <;> rfl
      have hother : s'.getDefer (!isTcp) = s.getDefer (!isTcp) := by cases isTcp <;> rfl
      have hqueue : s'.queue.flatMap DeferJob.clients =
          s.getDefer isTcp ++ [e] ++ s.queue.flatMap DeferJob.clients := by cases isTcp <;> rfl
      have hended : s'.ended = s.ended ++ [e] := by cases isTcp <;> rfl
      have hreturned : s'.returned = s.returned := by cases isTcp <;> rfl
      have hclosed' : s'.closed = s.closed := by cases isTcp <;> rfl
      refine ⟨once_iff.mpr fun a => ?_, fun hclosed => ?_, fun tcp a ha => ?_⟩
      · have ha := honce a
        rw [count_waiting isTcp] at ha ⊢
        rw [hown, hother, hqueue, hended, hreturned]
        simp only [count_append, count_nil]
        omega
      · exact absurd (hopen.symm.trans (hclosed'.symm.trans hclosed)) Bool.false_ne_true
      · by_cases htcp : tcp = isTcp
        · rw [htcp, hown] at ha
          cases ha
        · rw [Bool.eq_not_of_ne htcp] at ha ⊢
          rw [hother] at ha
          exact hgroup hclock _ a ha
    · rw [heq]
      set s' : PortReturner :=
        { setDefer isTcp (s.getDefer isTcp ++ [e]) { s with ended := s.ended ++ [e] }
        with clock := now } with hs'
      have hown : s'.getDefer isTcp = s.getDefer isTcp ++ [e] := by cases isTcp <;> rfl
      have hother : s'.getDefer (!isTcp) = s.getDefer (!isTcp) := by cases isTcp <;> rfl
      have hqueue : s'.queue = s.queue := by cases isTcp <;> rfl
      have hended : s'.ended = s.ended ++ [e] := by cases isTcp <;> rfl
      have hreturned : s'.returned = s.returned := by cases isTcp <;> rfl
      have hclosed' : s'.closed = s.closed := by cases isTcp <;> rfl
      refine ⟨once_iff.mpr fun a => ?_, fun hclosed => ?_, fun tcp a ha => ?_⟩
      · have ha := honce a
        rw [count_waiting isTcp] at ha ⊢
        rw [hown, hother, hqueue, hended, hreturned]
        simp only [count_append]
        omega
      · exact absurd (hopen.symm.trans (hclosed'.symm.trans hclosed)) Bool.false_ne_true
      · by_cases htcp : tcp = isTcp
        · rw [htcp] at ha ⊢
          rw [hown] at ha
          rcases mem_append.mp ha with hold | hnew
          · exact hgroup hclock _ a hold
          · rw [mem_singleton.mp hnew]
            exact ⟨rfl, le_rfl⟩
        · rw [Bool.eq_not_of_ne htcp] at ha ⊢
          rw [hother] at ha
          exact hgroup hclock _ a ha
  | job i now =>
    obtain ⟨job, hjob, -⟩ := hev
    have hjob : s.queue[i]? = some job := hjob
    have hstep : s.step aging (.job i now) =
        giveBack now false job.clients { s with queue := s.queue.eraseIdx i, clock := now } := by
      simp only [PortReturner.step, hjob]
    rw [hstep]
    refine ⟨once_iff.mpr fun a => ?_, fun hclosed =>
      absurd (hopen.symm.trans hclosed) Bool.false_ne_true, hgroup hclock⟩
    have ha := honce a
    rw [count_waiting true, count_eraseIdx hjob] at ha
    rw [count_waiting true]
    simp only [giveBack, map_append, map_map, count_append]
    have hports : (job.clients.map (Returned.port ∘ fun e => Returned.mk now e false)) =
        job.clients :=
      map_id _
    rw [hports]
    simp only [getDefer] at ha ⊢
    omega
  | flush now =>
    have hempty : s.queue = [] := hev
    have hwait : waiting (s.step aging (.flush now)) = [] := by
      show [] ++ [] ++ s.queue.flatMap DeferJob.clients = []
      rw [hempty]
      rfl
    refine ⟨once_iff.mpr fun a => ?_, fun _ => hwait, fun tcp e he => ?_⟩
    · have ha := honce a
      have hreturned : (s.step aging (.flush now)).returned.map Returned.port =
          s.returned.map Returned.port ++ s.tcpDpc ++ s.udpDpc := by
        simp only [PortReturner.step, deferJobFlush, giveBack, setDefer, if_true,
          Bool.false_eq_true, if_false, map_append, map_map]
        congr 1
        · congr 1
          exact map_id _
        · exact map_id _
      have hended : (s.step aging (.flush now)).ended = s.ended := rfl
      rw [hwait, hreturned, hended]
      rw [waiting, hempty] at ha
      simp only [count_append, flatMap_nil, count_nil] at ha ⊢
      omega
    · cases tcp <;> cases he

/-! ## 5. No port is given back too early -/

/-- **What holds when every group is filled late.** -/
structure Aged (aging : PoolAging) (s : PortReturner) : Prop where
  returned : ∀ r ∈ s.returned, r.final = false → aging.due r.port ≤ r.now
  jobs : ∀ job ∈ s.queue, ∀ e ∈ job.clients, aging.due e ≤ job.time

theorem aged_start (aging : PoolAging) (clock : Rat) : Aged aging (start clock) where
  returned r hr := by cases hr
  jobs job hjob := by cases hjob

/-- Ports that are due are given back. -/
theorem aged_giveBack {now : Rat} (clients : List EndedPort)
    (hs : ∀ r ∈ s.returned, r.final = false → aging.due r.port ≤ r.now)
    (hdue : ∀ e ∈ clients, aging.due e ≤ now) :
    ∀ r ∈ (s.giveBack now false clients).returned, r.final = false → aging.due r.port ≤ r.now := by
  intro r hr
  rcases mem_append.mp hr with hold | hnew
  · exact hs r hold
  · obtain ⟨e, he, rfl⟩ := mem_map.mp hnew
    exact fun _ => hdue e he

/-- **An event whose group is filled late**, and is handled in time. -/
theorem Aged.step (h : Aged aging s) {ev : DeferEvent} (hev : s.Enabled ev)
    (hlate : s.FillsLate aging ev) (hpunctual : s.Punctual ev) : Aged aging (s.step aging ev) := by
  cases ev with
  | flowEnd now isTcp client =>
    show Aged aging { s.deferPortFree aging isTcp now client with clock := now }
    rcases deferPortFree_cases aging isTcp now client s with ⟨hzero, heq⟩ | ⟨hne, hfull, heq⟩ | ⟨-,
      -, heq⟩
    · rw [heq]
      refine ⟨aged_giveBack [EndedPort.mk client isTcp now] h.returned fun e he => ?_, h.jobs⟩
      rw [mem_singleton.mp he, PoolAging.due, hzero]
      exact (add_zero now).le
    · rw [heq]
      have hjob : ∀ e ∈ s.getDefer isTcp ++ [EndedPort.mk client isTcp now],
          aging.due e ≤ now + (aging.of isTcp client.poolIdx).toNat := by
        intro e he
        rcases mem_append.mp he with hold | hnew
        · exact hlate hne hfull e hold
        · rw [mem_singleton.mp hnew]
          exact le_rfl
      refine ⟨fun r hr => h.returned r ?_, fun job hmem => ?_⟩
      · rwa [setDefer_returned] at hr
      · rw [setDefer_queue] at hmem
        rcases mem_cons.mp hmem with rfl | hold
        · exact hjob
        · exact h.jobs job hold
    · rw [heq]
      refine ⟨fun r hr => h.returned r ?_, fun job hmem => h.jobs job ?_⟩
      · rwa [setDefer_returned] at hr
      · rwa [setDefer_queue] at hmem
  | job i now =>
    obtain ⟨-, -, job, hjob, -⟩ := hev
    have hjob' : s.queue[i]? = some job := hjob
    have hstep : s.step aging (.job i now) =
        giveBack now false job.clients { s with queue := s.queue.eraseIdx i, clock := now } := by
      simp only [PortReturner.step, hjob']
    rw [hstep]
    refine ⟨aged_giveBack job.clients h.returned fun e he => ?_, fun other hother =>
      h.jobs other ?_⟩
    · exact (h.jobs job (mem_of_getElem? hjob') e he).trans (hpunctual job hjob)
    · exact eraseIdx_subset hother
  | flush now =>
    obtain ⟨-, -, hempty⟩ := hev
    have hempty : s.queue = [] := hempty
    refine ⟨fun r hr hfinal => ?_, fun job hmem => ?_⟩
    · -- the ports of the last flush are marked
      have hreturned : (s.step aging (.flush now)).returned = s.returned ++
          s.tcpDpc.map (fun e => Returned.mk now e true) ++ s.udpDpc.map (fun e =>
            Returned.mk now e true) := rfl
      rw [hreturned, append_assoc, ← map_append] at hr
      rcases mem_append.mp hr with hold | hnew
      · exact h.returned r hold hfinal
      · obtain ⟨e, -, rfl⟩ := mem_map.mp hnew
        cases hfinal
    · have hqueue : (s.step aging (.flush now)).queue = s.queue := rfl
      rw [hqueue, hempty] at hmem
      cases hmem

/-- A run keeps both. -/
theorem run_kept {C : PortReturner → DeferEvent → Prop}
    (hC : ∀ s ev, Kept s → s.Enabled ev → C s ev → s.FillsLate aging ev ∧ s.Punctual ev) :
    ∀ (evs : List DeferEvent) (s : PortReturner), Kept s → Aged aging s → RunOf aging C s evs →
      Respected aging (after aging s evs)
  | [], s, hkept, haged, _ => ⟨haged.returned, hkept.once, hkept.all⟩
  | ev :: evs, s, hkept, haged, hrun => by
    obtain ⟨hev, hc, hrest⟩ := hrun
    obtain ⟨hlate, hpunctual⟩ := hC s ev hkept hev hc
    exact run_kept hC evs _ (hkept.step aging hev) (haged.step hev hlate hpunctual) hrest

/-- **The aging times are respected** in every run in which each group is filled by a port that is
due as late as the others, and is handled in time.  Such a run keeps `Aged`: no job is before the
time at which its ports are due. -/
theorem aging_respected (aging : PoolAging) (clock : Rat) (evs : List DeferEvent)
    (hrun : RunOf aging (fun s ev => s.FillsLate aging ev ∧ s.Punctual ev) (start clock) evs) :
    Respected aging (after aging (start clock) evs) :=
  run_kept (fun _ _ _ _ hc => hc) evs _ (kept_start clock) (aged_start aging clock) hrun

/-- **Pools with the same aging times** fill every group late. -/
theorem same_aging_respected (hsame : ∀ isTcp p q, aging.of isTcp p = aging.of isTcp q)
    (clock : Rat) (evs : List DeferEvent) (hrun : RunOf aging Punctual (start clock) evs) :
    Respected aging (after aging (start clock) evs) := by
  refine run_kept (fun s ev hkept hev hc =>
    ⟨?_, hc⟩) evs _ (kept_start clock) (aged_start aging clock) hrun
  cases ev with
  | flowEnd now isTcp client =>
    intro _ _ e he
    obtain ⟨htcp, hended⟩ := hkept.group isTcp e he
    rw [PoolAging.due, htcp, hsame isTcp e.client.poolIdx client.poolIdx]
    exact add_le_add_left (hended.trans hev.2.1) _
  | job i now => trivial
  | flush now => trivial

/-- **A group that is filled early comes back early**, when it is handled at its time. -/
theorem early_group_returned {now : Rat} {isTcp : Bool} {client : ClientPort} {e : EndedPort}
    (hne : aging.of isTcp client.poolIdx ≠ 0)
    (hfull : (s.getDefer isTcp).length + 1 = deferClientsNum) (he : e ∈ s.getDefer isTcp)
    (hearly : now + (aging.of isTcp client.poolIdx).toNat < aging.due e) :
    ¬ Respected aging (after aging s
      [.flowEnd now isTcp client, .job 0 (now + (aging.of isTcp client.poolIdx).toNat)]) := by
  intro h
  have hjob : s.step aging (.flowEnd now isTcp client) = { setDefer isTcp [] { s with
      ended := s.ended ++ [EndedPort.mk client isTcp now]
      queue := DeferJob.mk (now + (aging.of isTcp client.poolIdx).toNat)
        (s.getDefer isTcp ++ [EndedPort.mk client isTcp now]) :: s.queue } with clock := now } := by
    rcases deferPortFree_cases aging isTcp now client s with ⟨hzero, -⟩ | ⟨-, -, heq⟩ | ⟨-, hroom,
      -⟩
    · exact absurd hzero hne
    · exact congrArg (fun s : PortReturner => { s with clock := now }) heq
    · exact absurd hfull hroom
  have hreturned : Returned.mk (now + (aging.of isTcp client.poolIdx).toNat) e false ∈
      (after aging s
      [.flowEnd now isTcp client,
          .job 0 (now + (aging.of isTcp client.poolIdx).toNat)]).returned := by
    rw [after, foldl_cons, hjob]
    cases isTcp <;> exact mem_append_right _ (mem_map.mpr ⟨e, mem_append_left _ he, rfl⟩)
  exact absurd (h.aged _ hreturned rfl) (not_le.mpr hearly)

instance (s : PortReturner) (ev : DeferEvent) : Decidable (s.Enabled ev) :=
  match ev with
  | .flowEnd now _ _ => inferInstanceAs (Decidable (s.closed = false ∧ s.clock ≤ now ∧ True))
  | .job i now => inferInstanceAs (Decidable (s.closed = false ∧ s.clock ≤ now ∧
      ∃ job ∈ s.queue[i]?, job.time - tolerance < now))
  | .flush now => inferInstanceAs (Decidable (s.closed = false ∧ s.clock ≤ now ∧ s.queue = []))

instance (s : PortReturner) (ev : DeferEvent) : Decidable (s.Punctual ev) :=
  match ev with
  | .flowEnd _ _ _ => .isTrue trivial
  | .job i now => inferInstanceAs (Decidable (∀ job ∈ s.queue[i]?, job.time ≤ now))
  | .flush _ => .isTrue trivial

instance (s : PortReturner) (ev : DeferEvent) : Decidable (s.FillsLate aging ev) :=
  match ev with
  | .flowEnd now isTcp client => inferInstanceAs (Decidable (aging.of isTcp client.poolIdx ≠ 0 →
      (s.getDefer isTcp).length + 1 = deferClientsNum →
      ∀ e ∈ s.getDefer isTcp, aging.due e ≤ now + (aging.of isTcp client.poolIdx).toNat))
  | .job _ _ => .isTrue trivial
  | .flush _ => .isTrue trivial

instance decidableRunOf (C : PortReturner → DeferEvent → Prop) [∀ s ev, Decidable (C s ev)] :
    ∀ (s : PortReturner) (evs : List DeferEvent), Decidable (RunOf aging C s evs)
  | _, [] => .isTrue trivial
  | s, ev :: evs =>
    have := decidableRunOf C (s.step aging ev) evs
    inferInstanceAs (Decidable (s.Enabled ev ∧ C s ev ∧ RunOf aging C (s.step aging ev) evs))

/-- Two pools: the ports of the first one wait for ten seconds, those of the second one for one. -/
def twoPools : PoolAging := ⟨fun poolIdx => if poolIdx = 0 then 10 else 1, fun _ => 1⟩

/-- Sixteen ports of the first pool wait for ten seconds. -/
theorem aging_respected_full : Respected twoPools (after twoPools (start 0)
    ((List.range 16).map (fun port => .flowEnd port true ⟨0, 0, UInt16.ofNat port⟩) ++
        [.job 0 25, .flush 30])) :=
  aging_respected twoPools 0 _ (by decide +kernel)

/-- **A port comes back after one second** instead of ten, as a port of another pool fills its
group. -/
theorem returns_early : ∃ evs, RunOf twoPools Punctual (start 0) evs ∧
    ¬ Respected twoPools (after twoPools (start 0) evs) := by
  refine ⟨(List.range 15).map (fun port => .flowEnd 0 true ⟨0, 0, UInt16.ofNat port⟩) ++
    [.flowEnd 0 true ⟨1, 0, 0⟩, .job 0 1], by decide +kernel, fun h => ?_⟩
  have hearly := h.aged ⟨1, ⟨⟨0, 0, 0⟩, true, 0⟩, false⟩ (by decide +kernel) rfl
  revert hearly
  decide +kernel

end PortReturner

end Trex.Gen
