/-
# The account of a client pool

A client pool counts the tuples that are in use and the allocations that failed
(`CIpPool::GenerateOnePort`, `FreePort`, `CClientPool::GenerateTuple`, `tuple_gen.h`).  A failed
allocation gives a tuple all the same, with `ILLEGAL_PORT`, and counts it as in use.  When its flow
ends `free_last_flow_node` (`bp_sim.h`) releases the port of every tuple: `IsFreePortRequired` is
always true, and neither `defer_client_port_free` nor `handler_defer_job` (`bp_sim.cpp`) looks at
the port.  `return_port` asserts that the port is legal, so a client that tracks its ports stops the
program there.

`account_spec` says when a release goes through, and that the counters are right in every run whose
releases are of this kind.

* `live` is what the program keeps in its flows: the tuples that were generated and not yet
  released, each as the index of the client and the port; `failed` counts the tuples for which no
  port was available;
* the counters are 32-bit, so they are right while there are fewer than `2^32` tuples.
-/
import Trex.Tuple.Client
import Trex.Tuple.Progress

namespace Trex.Tuple.Full

open List
open Function (update update_of_ne update_self)

/-! ## 1. A pool and its tuples -/

/-- A pool with the tuples that are in use. -/
structure Account where
  pool : CClientPool
  live : List (Nat × Nat) := []
  failed : Nat := 0

/-- What happens to a pool. -/
inductive Event
  | generate (random : Nat) (memory : CTupleBase)
  | onePort (idx : Nat)
  | release (tuple : Nat × Nat)

namespace Account

/-- A tuple that was generated. -/
def took (s : Account) (pool : CClientPool) (idx port : Nat) : Account :=
  { pool, live := (idx, port) :: s.live, failed := if port = illegalPort then s.failed + 1
    else s.failed }

/-- One event, or what goes wrong in it. -/
def step (s : Account) : Event → Except PoolFault Account
  | .generate random memory => do
    let (tuple, pool) ← s.pool.generateTuple random (CTupleBase.create memory)
    return s.took pool tuple.clientIdx tuple.clientPort
  | .onePort idx => do
    let (port, pool) ← s.pool.generateOnePort idx
    return s.took { s.pool with toCIpPool := pool } idx port
  | .release tuple => do
    let pool ← s.pool.freePort tuple.1 tuple.2
    return { s with pool := { s.pool with toCIpPool := pool }, live := s.live.erase tuple }

/-- A tuple for which no port was available, of a client that tracks its ports. -/
def Unreleasable (s : Account) (tuple : Nat × Nat) : Prop :=
  tuple.2 = illegalPort ∧ ∃ (info : CIpInfoBase) (c : CIpInfo),
    s.pool.ipInfo[tuple.1]? = some (some info) ∧ info.alloc = .tracked c

/-- **The steps of which the account is kept**: a tuple is released that is in use and for which a
port was available, or there is room in the counters. -/
def Fine (s : Account) : Event → Prop
  | .release tuple => tuple ∈ s.live ∧ ¬ s.Unreleasable tuple
  | _ => s.live.length + 1 < 2 ^ 32 ∧ s.failed + 1 < 2 ^ 32

/-- The states of a run. -/
inductive ReachableBy (allowed : Account → Event → Prop) : Account → Prop
  | create {dist : IpDist} {minIp maxIp : UInt32} {lFlow tCps : Rat} {macInfo : MacInfo}
      {hasMacMap : Bool}
      {tcpAging udpAging : UInt16} {pool : CClientPool} :
      CClientPool.create dist minIp maxIp lFlow tCps macInfo hasMacMap tcpAging udpAging =
        .ok pool →
      ReachableBy allowed { pool }
  | step {s s' : Account} {e : Event} : ReachableBy allowed s → allowed s e → s.step e = .ok s' →
      ReachableBy allowed s'

/-! ## 2. The invariant -/

/-- **The account**: the counters are the numbers of tuples, and the port of a tuple, when its
client tracks the ports, is in use for this tuple only. -/
structure Kept (s : Account) : Prop where
  active : s.pool.activeAlloc = UInt32.ofNat s.live.length
  errors : s.pool.portAllocationError = UInt32.ofNat s.failed
  known : ∀ tuple ∈ s.live, ∃ info : CIpInfoBase, s.pool.ipInfo[tuple.1]? = some (some info)
  marked : ∀ tuple ∈ s.live, ∀ (info : CIpInfoBase) (c : CIpInfo),
    s.pool.ipInfo[tuple.1]? = some (some info) →
    info.alloc = .tracked c → tuple.2 ≠ illegalPort → isPortLegal tuple.2 = true ∧
      c.bitmapPort tuple.2 = true
  single : ∀ (tuple : Nat × Nat) (info : CIpInfoBase) (c : CIpInfo),
    s.pool.ipInfo[tuple.1]? = some (some info) →
    info.alloc = .tracked c → tuple.2 ≠ illegalPort → s.live.count tuple ≤ 1
  liveRoom : s.live.length < 2 ^ 32
  failedRoom : s.failed < 2 ^ 32

variable {pool : CClientPool} {info : CIpInfoBase} {s : Account}

variable {macInfo : MacInfo} {tuple : Nat × Nat} {n : Nat}

theorem create_counters {dist : IpDist} {minIp maxIp : UInt32} {lFlow tCps : Rat}
    {hasMacMap : Bool} {tcpAging udpAging : UInt16}
    (h : CClientPool.create dist minIp maxIp lFlow tCps macInfo hasMacMap tcpAging udpAging =
      .ok pool) :
    pool.activeAlloc = 0 ∧ pool.portAllocationError = 0 := by
  unfold CClientPool.create at h
  split at h
  · cases h
  · dsimp only at h
    rcases hv : placeClients macInfo minIp hasMacMap
      (chooseAlloc (maxIp - minIp + 1).toNat lFlow tCps)
      (vectorSize macInfo minIp hasMacMap (maxIp - minIp + 1).toNat) (maxIp - minIp +
        1).toNat with f | v
    · rw [hv] at h
      cases h
    · rw [hv] at h
      cases h
      exact ⟨rfl, rfl⟩

theorem Kept.create {dist : IpDist} {minIp maxIp : UInt32} {lFlow tCps : Rat} {hasMacMap : Bool}
    {tcpAging udpAging : UInt16}
    (h : CClientPool.create dist minIp maxIp lFlow tCps macInfo hasMacMap tcpAging udpAging =
      .ok pool) :
    Kept { pool } := by
  obtain ⟨hactive, herrors⟩ := create_counters h
  refine ⟨hactive, herrors, ?_, ?_, ?_, Nat.two_pow_pos 32, Nat.two_pow_pos 32⟩
  · intro tuple ht
    cases ht
  · intro tuple ht
    cases ht
  · intro tuple info c _ _ _
    exact Nat.zero_le 1

/-- What `get_new_free_port` does to a client that tracks its ports. -/
theorem getNewFreePort_tracked {info' : CIpInfoBase} {c' : CIpInfo}
    (hget : info.getNewFreePort.2 = info') (hc' : info'.alloc = .tracked c') :
    ∃ c : CIpInfo, info.alloc = .tracked c ∧
      info.getNewFreePort.1 = c.getNewFreePort.1 ∧ c' = c.getNewFreePort.2 := by
  subst hget
  obtain ⟨⟨ip, alloc⟩, mac⟩ := info
  cases alloc with
  | tracked c =>
    cases hc'
    exact ⟨c, rfl, rfl, rfl⟩
  | large c => cases hc'

/-- **A tuple is generated**: its port, when there is one, was not in use. -/
theorem Kept.take (h : s.Kept) {idx : Nat} (hinfo : s.pool.ipInfo[idx]? = some (some info))
    (hset : pool.ipInfo = s.pool.ipInfo.set idx (some info.getNewFreePort.2))
    (hactive : pool.activeAlloc = s.pool.activeAlloc + 1) (herrors : pool.portAllocationError =
      if info.getNewFreePort.1 = illegalPort then s.pool.portAllocationError + 1
        else s.pool.portAllocationError)
    (hroom : s.live.length + 1 < 2 ^ 32 ∧ s.failed + 1 < 2 ^ 32) :
    (s.took pool idx info.getNewFreePort.1).Kept := by
  have hlt := (List.getElem?_eq_some_iff.mp hinfo).1
  have hself : pool.ipInfo[idx]? = some (some info.getNewFreePort.2) := by
    rw [hset, List.getElem?_set_self hlt]
  have hother : ∀ i, i ≠ idx → pool.ipInfo[i]? = s.pool.ipInfo[i]? := by
    intro i hi
    rw [hset, List.getElem?_set_ne (Ne.symm hi)]
  -- a tuple of the client that is in use already has another port
  have hfresh : ∀ c : CIpInfo, info.alloc = .tracked c → info.getNewFreePort.1 ≠ illegalPort →
      (idx, info.getNewFreePort.1) ∉ s.live := by
    intro c hc hport hmem
    obtain ⟨-, hused⟩ := h.marked _ hmem info c hinfo hc hport
    have hport' : info.getNewFreePort.1 = c.getNewFreePort.1 := by
      unfold CIpInfoBase.getNewFreePort Alloc.getNewFreePort
      rw [hc]
    rcases c.getNewFreePort_spec with ⟨hill, -, -⟩ | ⟨-, hfree, -⟩
    · exact hport (hport'.trans hill)
    · rw [← hport'] at hfree
      exact absurd (hused.symm.trans hfree) (by decide)
  refine ⟨?_, ?_, ?_, ?_, ?_, hroom.1, ?_⟩
  · show pool.activeAlloc = UInt32.ofNat (s.live.length + 1)
    rw [hactive, h.active, UInt32.ofNat_add]
    rfl
  · show pool.portAllocationError = UInt32.ofNat (if info.getNewFreePort.1 = illegalPort
      then s.failed + 1 else s.failed)
    rw [herrors]
    split
    · rw [h.errors, UInt32.ofNat_add]
      rfl
    · exact h.errors
  · intro tuple htuple
    by_cases hidx : tuple.1 = idx
    · rw [hidx]
      exact ⟨_, hself⟩
    · rcases mem_cons.mp htuple with rfl | htuple
      · exact absurd rfl hidx
      · show ∃ info, pool.ipInfo[tuple.1]? = some (some info)
        rw [hother _ hidx]
        exact h.known tuple htuple
  · intro tuple htuple info' c' hinfo' hc' hport
    by_cases hidx : tuple.1 = idx
    · have heq : info.getNewFreePort.2 = info' := by
        rw [show (s.took pool idx info.getNewFreePort.1).pool = pool from rfl, hidx, hself]
          at hinfo'
        cases hinfo'
        rfl
      obtain ⟨c, hc, hp, rfl⟩ := getNewFreePort_tracked heq hc'
      rcases mem_cons.mp htuple with rfl | htuple
      · rcases c.getNewFreePort_spec with ⟨hill, -, -⟩ | ⟨hlegal, -, hmap⟩
        · exact absurd (hp.trans hill) hport
        · rw [← hp] at hlegal hmap
          refine ⟨hlegal, ?_⟩
          rw [hmap]
          exact update_self _ _ _
      · obtain ⟨hlegal, hused⟩ := h.marked tuple htuple info c (hidx ▸ hinfo) hc hport
        refine ⟨hlegal, ?_⟩
        rcases c.getNewFreePort_spec with ⟨-, hmap, -⟩ | ⟨-, -, hmap⟩
        · rw [hmap]
          exact hused
        · rw [hmap]
          by_cases heqp : tuple.2 = c.getNewFreePort.1
          · rw [heqp]
            exact update_self _ _ _
          · rw [update_of_ne heqp]
            exact hused
    · rcases mem_cons.mp htuple with rfl | htuple
      · exact absurd rfl hidx
      · replace hinfo' : pool.ipInfo[tuple.1]? = some (some info') := hinfo'
        rw [hother _ hidx] at hinfo'
        exact h.marked tuple htuple info' c' hinfo' hc' hport
  · intro tuple info' c' hinfo' hc' hport
    show ((idx, info.getNewFreePort.1) :: s.live).count tuple ≤ 1
    replace hinfo' : pool.ipInfo[tuple.1]? = some (some info') := hinfo'
    by_cases hidx : tuple.1 = idx
    · rw [hidx, hself] at hinfo'
      cases hinfo'
      obtain ⟨c, hc, hp, -⟩ := getNewFreePort_tracked rfl hc'
      have hbefore := h.single tuple info c (hidx ▸ hinfo) hc hport
      by_cases htuple : (idx, info.getNewFreePort.1) = tuple
      · subst htuple
        rw [count_cons_self, count_eq_zero_of_not_mem (hfresh c hc hport)]
      · rw [count_cons_of_ne htuple]
        exact hbefore
    · rw [hother _ hidx] at hinfo'
      rw [count_cons_of_ne (fun heq => hidx (by rw [← heq]))]
      exact h.single tuple info' c' hinfo' hc' hport
  · show (if info.getNewFreePort.1 = illegalPort then s.failed + 1 else s.failed) < 2 ^ 32
    have := h.failedRoom
    split <;> omega

/-- `return_port`, of a client that tracks its ports. -/
theorem returnPort_tracked {c : CIpInfo} (hc : info.alloc = .tracked c) (port : Nat) :
    info.returnPort port = (c.returnPort port).map fun c => { info with alloc := .tracked c } := by
  unfold CIpInfoBase.returnPort Alloc.returnPort
  rw [hc]
  dsimp only
  rcases c.returnPort port with f | c' <;> rfl

/-- What is returned was legal and in use, and is free afterwards. -/
theorem returnPort_ok {c c' : CIpInfo} {port : Nat} (h : c.returnPort port = .ok c') :
    isPortLegal port = true ∧ c.bitmapPort port = true ∧
      c' = { c with bitmapPort := update c.bitmapPort port false } := by
  unfold CIpInfo.returnPort at h
  split at h
  · cases h
  · rename_i hlegal
    split at h
    · cases h
    · rename_i hused
      cases h
      rw [Bool.not_eq_true, Bool.not_eq_false'] at hlegal
      exact ⟨hlegal, Bool.eq_true_of_not_eq_false hused, rfl⟩

/-- **A tuple is released**: its port is not in use any more, and the other tuples of the client
have other ports. -/
theorem Kept.release (h : s.Kept) (htuple : tuple ∈ s.live) {pool : CIpPool}
    (hfree : s.pool.freePort tuple.1 tuple.2 = .ok pool) :
    Kept { s with pool := { s.pool with toCIpPool := pool }, live := s.live.erase tuple } := by
  obtain ⟨info, info', hinfo, hret, rfl⟩ := CIpPool.freePort_eq_ok.mp hfree
  have hlt := (List.getElem?_eq_some_iff.mp hinfo).1
  have hself : (s.pool.ipInfo.set tuple.1 (some info'))[tuple.1]? = some (some info') :=
    List.getElem?_set_self hlt
  have hother : ∀ i, i ≠ tuple.1 →
      (s.pool.ipInfo.set tuple.1 (some info'))[i]? = s.pool.ipInfo[i]? := fun i hi =>
    List.getElem?_set_ne (Ne.symm hi)
  have hpos := length_pos_of_mem htuple
  have hlen := length_erase_of_mem htuple
  -- the client before, when it tracks its ports
  have hbefore : ∀ c' : CIpInfo, info'.alloc = .tracked c' →
      ∃ c : CIpInfo, info.alloc = .tracked c ∧
      isPortLegal tuple.2 = true ∧
          c' = { c with bitmapPort := update c.bitmapPort tuple.2 false } := by
    intro c' hc'
    rcases halloc : info.alloc with c | c
    · rw [returnPort_tracked halloc] at hret
      rcases hr : c.returnPort tuple.2 with f | c1
      · rw [hr] at hret
        cases hret
      · rw [hr] at hret
        cases hret
        cases hc'
        obtain ⟨hlegal, -, heq⟩ := returnPort_ok hr
        exact ⟨c, rfl, hlegal, heq⟩
    · unfold CIpInfoBase.returnPort Alloc.returnPort at hret
      rw [halloc] at hret
      cases hret
      cases hc'
  refine ⟨?_, h.errors, ?_, ?_, ?_, ?_, h.failedRoom⟩
  · show s.pool.activeAlloc - 1 = UInt32.ofNat (s.live.erase tuple).length
    obtain ⟨n, hn⟩ : ∃ n, s.live.length = n + 1 := ⟨s.live.length - 1, by omega⟩
    rw [h.active, hlen, hn, UInt32.ofNat_add, Nat.add_sub_cancel]
    exact UInt32.add_sub_cancel _ _
  · intro f hf
    by_cases hidx : f.1 = tuple.1
    · rw [hidx]
      exact ⟨_, hself⟩
    · show ∃ info, (s.pool.ipInfo.set tuple.1 (some info'))[f.1]? = some (some info)
      rw [hother _ hidx]
      exact h.known f (mem_of_mem_erase hf)
  · intro f hf info1 c1 hinfo1 hc1 hport
    replace hinfo1 : (s.pool.ipInfo.set tuple.1 (some info'))[f.1]? = some (some info1) := hinfo1
    by_cases hidx : f.1 = tuple.1
    · rw [hidx, hself] at hinfo1
      cases hinfo1
      obtain ⟨c, hc, hlegal, rfl⟩ := hbefore c1 hc1
      obtain ⟨hl, hused⟩ := h.marked f (mem_of_mem_erase hf) info c (hidx ▸ hinfo) hc hport
      refine ⟨hl, ?_⟩
      have hne : f.2 ≠ tuple.2 := by
        intro heq
        obtain rfl : f = tuple := Prod.ext hidx heq
        have hcount := h.single f info c hinfo hc hport
        have hmem : 0 < (s.live.erase f).count f := count_pos_iff.mpr hf
        rw [count_erase_self] at hmem
        omega
      show update c.bitmapPort tuple.2 false f.2 = true
      rw [update_of_ne hne]
      exact hused
    · rw [hother _ hidx] at hinfo1
      exact h.marked f (mem_of_mem_erase hf) info1 c1 hinfo1 hc1 hport
  · intro f info1 c1 hinfo1 hc1 hport
    refine Nat.le_trans (Sublist.count_le _ erase_sublist) ?_
    replace hinfo1 : (s.pool.ipInfo.set tuple.1 (some info'))[f.1]? = some (some info1) := hinfo1
    by_cases hidx : f.1 = tuple.1
    · rw [hidx, hself] at hinfo1
      cases hinfo1
      obtain ⟨c, hc, -, -⟩ := hbefore c1 hc1
      exact h.single f info c (hidx ▸ hinfo) hc hport
    · rw [hother _ hidx] at hinfo1
      exact h.single f info1 c1 hinfo1 hc1 hport
  · show (s.live.erase tuple).length < 2 ^ 32
    have := h.liveRoom
    omega

/-! ## 3. Runs -/

/-- **One step keeps the account.** -/
theorem Kept.step {s' : Account} {e : Event} (h : s.Kept) (hfine : s.Fine e)
    (hstep : s.step e = .ok s') :
    s'.Kept := by
  cases e with
  | generate random memory =>
    unfold Account.step at hstep
    rcases hgen : s.pool.generateTuple random (CTupleBase.create memory) with f | ⟨tuple, pool⟩
    · dsimp only at hstep
      rw [hgen] at hstep
      cases hstep
    · dsimp only at hstep
      rw [hgen] at hstep
      cases hstep
      obtain ⟨info, hinfo, rfl, rfl⟩ := CClientPool.generateTuple_eq_ok.mp hgen
      have hcounters : (s.pool.toCIpPool.incCurIdx random).activeAlloc = s.pool.activeAlloc ∧
          (s.pool.toCIpPool.incCurIdx random).portAllocationError = s.pool.portAllocationError := by
        unfold CIpPool.incCurIdx
        split <;> exact ⟨rfl, rfl⟩
      refine h.take hinfo rfl ?_ ?_ hfine
      · show (s.pool.toCIpPool.incCurIdx random).activeAlloc + 1 = _
        rw [hcounters.1]
      · show (if info.getNewFreePort.1 = illegalPort then
          (s.pool.toCIpPool.incCurIdx random).portAllocationError + 1
          else (s.pool.toCIpPool.incCurIdx random).portAllocationError) = _
        rw [hcounters.2]
  | onePort idx =>
    unfold Account.step at hstep
    rcases hone : s.pool.generateOnePort idx with f | ⟨port, pool⟩
    · dsimp only at hstep
      rw [hone] at hstep
      cases hstep
    · dsimp only at hstep
      rw [hone] at hstep
      cases hstep
      obtain ⟨info, hinfo, rfl, rfl⟩ := CIpPool.generateOnePort_eq_ok.mp hone
      exact h.take hinfo rfl rfl rfl hfine
  | release tuple =>
    unfold Account.step at hstep
    rcases hfree : s.pool.freePort tuple.1 tuple.2 with f | pool
    · dsimp only at hstep
      rw [hfree] at hstep
      cases hstep
    · dsimp only at hstep
      rw [hfree] at hstep
      cases hstep
      exact h.release hfine.1 hfree

theorem ReachableBy.kept (h : ReachableBy Fine s) : s.Kept := by
  induction h with
  | create hcreate => exact .create hcreate
  | step _ hfine hstep ih => exact ih.step hfine hstep

/-- **When a release goes through**: unless there was no port for the tuple and its client tracks
the ports. -/
theorem Kept.release_iff (h : s.Kept) (htuple : tuple ∈ s.live) :
    (∃ s', s.step (.release tuple) = .ok s') ↔ ¬ s.Unreleasable tuple := by
  obtain ⟨info, hinfo⟩ := h.known tuple htuple
  have hstep : (∃ s', s.step (.release tuple) = .ok s') ↔
      ∃ info', info.returnPort tuple.2 = .ok info' := by
    constructor
    · rintro ⟨s', hs'⟩
      unfold Account.step at hs'
      rcases hfree : s.pool.freePort tuple.1 tuple.2 with f | pool
      · dsimp only at hs'
        rw [hfree] at hs'
        cases hs'
      · obtain ⟨info1, info', hinfo1, hret, -⟩ := CIpPool.freePort_eq_ok.mp hfree
        rw [hinfo] at hinfo1
        cases hinfo1
        exact ⟨info', hret⟩
    · rintro ⟨info', hret⟩
      unfold Account.step
      dsimp only
      rw [CIpPool.freePort_eq_ok.mpr ⟨info, info', hinfo, hret, rfl⟩]
      exact ⟨_, rfl⟩
  rw [hstep]
  rcases halloc : info.alloc with c | c
  · rw [returnPort_tracked halloc]
    constructor
    · rintro ⟨info', hret⟩ ⟨hill, -⟩
      rcases hr : c.returnPort tuple.2 with f | c'
      · rw [hr] at hret
        cases hret
      · obtain ⟨hlegal, -, -⟩ := returnPort_ok hr
        rw [hill] at hlegal
        exact absurd hlegal (by decide)
    · intro hno
      have hport : tuple.2 ≠ illegalPort := fun hill => hno ⟨hill, info, c, hinfo, halloc⟩
      obtain ⟨hlegal, hused⟩ := h.marked tuple htuple info c hinfo halloc hport
      rw [CIpInfo.returnPort_eq hlegal hused]
      exact ⟨_, rfl⟩
  · refine iff_of_true ?_ ?_
    · unfold CIpInfoBase.returnPort Alloc.returnPort
      rw [halloc]
      exact ⟨_, rfl⟩
    · rintro ⟨-, info1, c1, hinfo1, hc1⟩
      rw [hinfo] at hinfo1
      cases hinfo1
      rw [halloc] at hc1
      cases hc1

/-- **The account of a pool**: in every run that releases no tuple for which a client that tracks
its ports had none, and in which the counters have room, the counters are the numbers of tuples that
are in use and of failed allocations, and the release of a tuple goes through exactly when it is of
this kind. -/
theorem account_spec {s : Account} (h : ReachableBy Fine s) :
    s.pool.activeAlloc.toNat = s.live.length ∧ s.pool.portAllocationError.toNat = s.failed ∧
      ∀ tuple ∈ s.live, (∃ s', s.step (.release tuple) = .ok s') ↔ ¬ s.Unreleasable tuple := by
  have hkept := h.kept
  refine ⟨?_, ?_, fun tuple htuple => hkept.release_iff htuple⟩
  · rw [hkept.active, UInt32.toNat_ofNat', Nat.mod_eq_of_lt hkept.liveRoom]
  · rw [hkept.errors, UInt32.toNat_ofNat', Nat.mod_eq_of_lt hkept.failedRoom]

/-! ## 4. One client without a port -/

/-- A pool of one client that tracks its ports, of which the first `n` are in use. -/
def busyPool (n : Nat) : CClientPool :=
  { ipInfo := [some ⟨⟨0x10000001, .tracked (CIpInfo.filled n)⟩, none⟩]
    dist := .cdSEQ_DIST, activeAlloc := UInt32.ofNat n, tcpAging := 0, udpAging := 0 }

/-- Its account. -/
def busy (n : Nat) : Account :=
  { pool := busyPool n, live := (CIpInfo.filledPorts n).map fun port => (0, port) }

/-- The memory of a new tuple. -/
def emptyTuple : CTupleBase := ⟨0, 0, 0, 0, none, 0, 0⟩

theorem busy_create :
    CClientPool.create .cdSEQ_DIST 0x10000001 0x10000001 64000 2 (fun _ => none) false 0 0 =
        .ok (busyPool 0) := by
  have hchoose : chooseAlloc 1 64000 2 = .tracked .create := by
    unfold chooseAlloc maxPort
    rw [if_neg (by decide +kernel)]
  have hcreate : CIpInfo.create = CIpInfo.filled 0 := by
    unfold CIpInfo.filled CIpInfo.create
    congr 1
    funext port
    exact (decide_eq_false (by omega)).symm
  unfold CClientPool.create
  rw [if_neg (by decide)]
  dsimp only
  rw [show ((0x10000001 : UInt32) - 0x10000001 + 1).toNat = 1 from rfl, hchoose, hcreate]
  rfl

theorem busy_next (h : n < legalPorts) :
    (busy n).step (.generate 0 emptyTuple) = .ok (busy (n + 1)) := by
  have hnext := CIpInfo.filled_next h
  have hlegal : minPort + n ≠ illegalPort := by
    unfold minPort illegalPort
    omega
  have hgen : (busy n).pool.generateTuple 0 (CTupleBase.create emptyTuple) =
      .ok ((CTupleBase.create emptyTuple).setClientTuple 0x10000001 none (minPort + n)
        |>.setClientId 0, busyPool (n + 1)) := by
    refine CClientPool.generateTuple_eq_ok.mpr ⟨_, rfl, ?_, ?_⟩
    · show _ = (CTupleBase.setClientTuple 0x10000001 none (CIpInfo.filled n).getNewFreePort.1
        _).setClientId 0
      rw [hnext]
    · show busyPool (n + 1) = { busyPool n with
        toCIpPool := CIpPool.countPort (CIpInfo.filled n).getNewFreePort.1
            { (busyPool n).toCIpPool.incCurIdx 0 with
          ipInfo := [some ⟨⟨0x10000001, .tracked (CIpInfo.filled n).getNewFreePort.2⟩, none⟩] } }
      rw [hnext]
      unfold CIpPool.countPort
      rw [if_neg hlegal]
      unfold busyPool
      rw [UInt32.ofNat_add]
      rfl
  unfold Account.step
  dsimp only
  rw [hgen]
  show Except.ok ((busy n).took (busyPool (n + 1)) 0 (minPort + n)) = _
  unfold took busy
  rw [if_neg hlegal, CIpInfo.filledPorts_succ, map_cons]

theorem busy_room (h : n ≤ legalPorts) : (busy n).Fine (.generate 0 emptyTuple) := by
  have hlen : (busy n).live.length = n := by
    unfold busy CIpInfo.filledPorts
    rw [length_map, length_reverse, length_map, length_range]
  have hspan : legalPorts = 62976 := rfl
  have hfailed : (busy n).failed = 0 := rfl
  show (busy n).live.length + 1 < 2 ^ 32 ∧ (busy n).failed + 1 < 2 ^ 32
  rw [hlen, hfailed]
  omega

theorem busy_reachable (h : n ≤ legalPorts) : ReachableBy Fine (busy n) := by
  induction n with
  | zero => exact .create busy_create
  | succ n ih =>
    exact .step (ih (by omega)) (busy_room (by omega)) (busy_next (by omega))

/-- The account of a pool of one client, two tuples of which are in use. -/
theorem account_spec_busy : (busy 2).live = [(0, 1025), (0, 1024)] ∧
    (busy 2).pool.activeAlloc.toNat = 2 ∧
    ∃ s', (busy 2).step (.release (0, 1024)) = .ok s' := by
  obtain ⟨hactive, -, hrelease⟩ := account_spec (busy_reachable (n := 2) (by decide))
  refine ⟨rfl, hactive, (hrelease (0, 1024) (by decide)).mpr ?_⟩
  rintro ⟨hill, -⟩
  exact absurd hill (by decide)

/-- All the ports of the client are in use. -/
theorem filled_fails : (CIpInfo.filled legalPorts).getNewFreePort.1 = illegalPort := by
  have hwindow : ∀ i ≤ 20, (CIpInfo.filled legalPorts).bitmapPort (CIpInfo.nextPort^[i] minPort) =
      true := by
    decide +kernel
  rw [CIpInfo.getNewFreePort_illegal_iff]
  rw [show (CIpInfo.filled legalPorts).startPort = minPort from if_neg (by decide)]
  exact hwindow

/-- **A release that stops the program**: the tuple for which the client had no port is in use as
any other, and `return_port` asserts that its port is legal. -/
theorem release_asserts : ∃ s, ReachableBy Fine s ∧ (0, illegalPort) ∈ s.live ∧
    s.step (.release (0, illegalPort)) = .error (.port .notLegal) := by
  have hreach := busy_reachable (Nat.le_refl legalPorts)
  obtain ⟨t, pool, hgen, hport, hidx, hinfo⟩ : ∃ (t : CTupleBase) (pool : CClientPool),
      (busy legalPorts).pool.generateTuple 0 (CTupleBase.create emptyTuple) = .ok (t, pool) ∧
        t.clientPort = illegalPort ∧ t.clientIdx = 0 ∧
        pool.ipInfo = [some ⟨⟨0x10000001, .tracked (CIpInfo.filled legalPorts).getNewFreePort.2⟩,
            none⟩] :=
    ⟨_, _, CClientPool.generateTuple_eq_ok.mpr ⟨_, rfl, rfl, rfl⟩, filled_fails, rfl, rfl⟩
  have hstep : (busy legalPorts).step (.generate 0 emptyTuple) =
      .ok ((busy legalPorts).took pool t.clientIdx t.clientPort) := by
    unfold Account.step
    dsimp only
    rw [hgen]
    rfl
  refine ⟨_, .step hreach (busy_room (Nat.le_refl legalPorts)) hstep, ?_, ?_⟩
  · rw [hport, hidx]
    exact mem_cons_self
  · unfold Account.step CIpPool.freePort CIpPool.info took
    dsimp only
    rw [hinfo]
    rfl

end Account

end Trex.Tuple.Full
