/-
# Two flows with one source port

`CIpInfoL` does not know which ports are in use: it hands them out in turn and starts again after
the last one. Two flows of a client have the same port when the client hands out all of its ports
while the first flow lives. The comment of `CClientPool::Create` therefore asks for more clients
than `longest_flow * total_cps / 64K`, but the two factors are computed from `m_cap_gen` before it
is filled, so they are zero and the comparison holds for every pool that has a client.

`unique_of_spaced` says when the tuples of a thread are different all the same: the addresses of its
pools do not overlap, and no client hands out all of its ports within the life of one of its flows.
It says as well for which configurations the estimate that was meant would have chosen this
allocator.

The argument: every allocator stands at the number of ports that its client has handed out
(`Numbered`), so the port of a flow is a function of its serial number, which is periodic.
-/
import Mathlib.Data.Nat.Cast.Order.Ring
import Trex.Lib.Refine
import Trex.Tuple.Pool

namespace Trex.Tuple

open List
open Function (update update_apply update_of_ne update_self)

/-! ## 1. The ports in turn -/

/-- How many ports `CIpInfoL` hands out before it starts again. -/
def portSpan : Nat := maxPort - minPort + 1

/-- The port with the serial number `n`. -/
def portOf (n : Nat) : Nat := minPort + n % portSpan

/-- `m_curr_port` after `n` ports. -/
def currOf : Nat → Nat
  | 0 => minPort
  | n + 1 => portOf n + 1

theorem getNewFreePort_currOf (n : Nat) :
    (CIpInfoL.mk (currOf n)).getNewFreePort = (portOf n, ⟨currOf (n + 1)⟩) := by
  have hport : (CIpInfoL.mk (currOf n)).getNewFreePort.1 = portOf n := by
    cases n with
    | zero => decide
    | succ n =>
      unfold CIpInfoL.getNewFreePort currOf portOf portSpan maxPort minPort
      dsimp only
      by_cases hlast : n % 62977 = 62976
      · rw [if_pos (by omega)]
        omega
      · rw [if_neg (by omega)]
        omega
  unfold CIpInfoL.getNewFreePort at hport ⊢
  dsimp only at hport ⊢
  rw [hport]
  rfl

theorem portOf_ne {m n : Nat} (hlt : m < n) (hspan : n < m + portSpan) : portOf n ≠ portOf m := by
  have hpos : portSpan = 62977 := by decide
  unfold portOf
  rw [hpos] at hspan ⊢
  omega

theorem portOf_ne_illegal (n : Nat) : portOf n ≠ illegalPort := by
  unfold portOf minPort illegalPort
  omega

/-! ## 2. The pools of a new thread -/

section Create

variable {cfg : TupleConfig} {threadId : UInt32} {capGen : List CFlowGeneratorRecPerThread}

theorem addresses_getElem {portion : CIpPortion} (hle : portion.ipStart ≤ portion.ipEnd) {j : Nat}
    {ip : UInt32} (h : portion.addresses[j]? = some ip) :
    ip.toNat = portion.ipStart.toNat + j ∧ ip.toNat ≤ portion.ipEnd.toNat := by
  have hle' : portion.ipStart.toNat ≤ portion.ipEnd.toNat := hle
  have hlt := portion.ipEnd.toNat_lt
  unfold CIpPortion.addresses at h
  rw [List.getElem?_map, Option.map_eq_some_iff] at h
  obtain ⟨j', hj, rfl⟩ := h
  obtain ⟨hj', rfl⟩ := List.getElem?_eq_some_iff.mp hj
  rw [length_range] at hj'
  rw [getElem_range, UInt32.toNat_add, UInt32.toNat_ofNat']
  omega

/-- What `createPool` makes: a client for every known address, at the offset of the address, all
with the same allocator. -/
theorem createPool_spec {dist : IpDist} {portion : CIpPortion} {lFlow tCps : Rat}
    {macs : Option (UInt32 → Bool)} {pool : CClientPool}
    (h : CClientPool.createPool dist portion lFlow tCps macs = some pool) :
    pool.ipInfo = (portion.known macs).map (fun ip => ⟨ip,
        chooseAlloc (portion.ipEnd.toNat - portion.ipStart.toNat + 1) lFlow tCps⟩) ∧
      ∀ j client, pool.ipInfo[j]? = some client →
        client.ip.toNat = portion.ipStart.toNat + j ∧ client.ip.toNat ≤ portion.ipEnd.toNat := by
  unfold CClientPool.createPool at h
  dsimp only at h
  split at h
  · cases h
  rename_i hle
  split at h
  · rename_i htake
    cases h
    refine ⟨rfl, ?_⟩
    intro j client hj
    dsimp only at hj
    rw [List.getElem?_map, Option.map_eq_some_iff] at hj
    obtain ⟨ip, hip, rfl⟩ := hj
    have hlt := (List.getElem?_eq_some_iff.mp hip).1
    rw [← htake, List.getElem?_take_of_lt hlt] at hip
    exact addresses_getElem (UInt32.not_lt.mp hle) hip
  · cases h

/-- Every pool of a thread is made from the pool of the configuration at its place. -/
theorem addClientPools_spec {pools : List (CTupleGenPoolYaml × IpDist)} {i : Nat}
    {made : List CClientPool} (h : addClientPools cfg threadId capGen i pools = some made) :
    made.length = pools.length ∧
    ∀ k pool, made[k]? = some pool → ∃ yaml dist portion, pools[k]? = some (yaml, dist) ∧
      portionOf yaml cfg.maxThreads cfg.expectedDualPorts threadId = some portion ∧
      CClientPool.createPool dist portion (getLongestFlow capGen (i + k))
        (getTotalKcps capGen (i + k) * 1000) cfg.macs = some pool := by
  induction pools generalizing i made with
  | nil =>
    cases h
    exact ⟨rfl, fun k pool hk => by cases hk⟩
  | cons head rest ih =>
    obtain ⟨yaml, dist⟩ := head
    simp only [addClientPools, Option.bind_eq_some_iff, Option.map_eq_some_iff] at h
    obtain ⟨portion, hportion, clients, hclients, others, hothers, rfl⟩ := h
    obtain ⟨hlen, hspec⟩ := ih hothers
    refine ⟨by rw [length_cons, length_cons, hlen], ?_⟩
    intro k pool hk
    cases k with
    | zero =>
      cases hk
      exact ⟨yaml, dist, portion, rfl, hportion, hclients⟩
    | succ k =>
      obtain ⟨yaml', dist', portion', hk', hp', hc'⟩ := hspec k pool hk
      refine ⟨yaml', dist', portion', hk', hp', ?_⟩
      rw [show i + (k + 1) = i + 1 + k by omega]
      exact hc'

end Create

namespace TupleThread

variable {cfg : TupleConfig} {threadId : UInt32} {s s' : TupleThread} {e : Event}

/-! ## 3. What a step does -/

/-- The client `j` of the pool `i`. -/
def clientAt (s : TupleThread) (i j : Nat) :
    Option CClientInfo := s.clientPool[i]?.bind fun pool => pool.ipInfo[j]?

/-- The client `j` of the pool `i` has the address `ip`, which a template may have kept. -/
def Holds (s : TupleThread) (i j : Nat) (ip : UInt32) : Prop :=
  ∃ lp ∈ s.capGen, lp.clientPoolIdx = i ∧ lp.cacheClient = some (j, ip)

/-- The client at `(i, j)` has another allocator, and nothing else has changed. -/
def Moved (s s' : TupleThread) (i j : Nat) (client : CClientInfo) (alloc : Alloc) : Prop :=
  s.clientAt i j = some client ∧
    ∀ i' j', s'.clientAt i' j' = if i' = i ∧
      j' = j then some { client with alloc } else s.clientAt i' j'

variable {client : CClientInfo}

theorem moved_set {i j : Nat} {pool pool' : CClientPool} {alloc : Alloc}
    (hpool : s.clientPool[i]? = some pool) (hclient : pool.ipInfo[j]? = some client)
    (hinfo : pool'.ipInfo = pool.ipInfo.set j { client with alloc })
    (hs' : s'.clientPool = s.clientPool.set i pool') : Moved s s' i j client alloc := by
  have hi := (List.getElem?_eq_some_iff.mp hpool).1
  have hj := (List.getElem?_eq_some_iff.mp hclient).1
  refine ⟨by unfold clientAt; rw [hpool]; exact hclient, ?_⟩
  intro i' j'
  unfold clientAt
  rw [hs']
  by_cases hii : i' = i
  · subst hii
    rw [List.getElem?_set_self hi, hpool, Option.bind_some, Option.bind_some, hinfo]
    by_cases hjj : j' = j
    · subst hjj
      rw [List.getElem?_set_self hj, if_pos ⟨rfl, rfl⟩]
    · rw [List.getElem?_set_ne (Ne.symm hjj), if_neg (fun h => hjj h.2)]
  · rw [List.getElem?_set_ne (Ne.symm hii), if_neg (fun h => hii h.1)]

/-- The addresses of the clients stay. -/
theorem Moved.ip {i j : Nat} {alloc : Alloc} (h : Moved s s' i j client alloc) (i' j' : Nat) :
    (s'.clientAt i' j').map (·.ip) = (s.clientAt i' j').map (·.ip) := by
  rw [h.2]
  split
  · rename_i heq
    rw [heq.1, heq.2, h.1]
    rfl
  · rfl

/-- A port was taken from the client at `(i, j)`, for a flow with the address `ip`. -/
structure Took (s s' : TupleThread) (i j : Nat) (ip : UInt32) (client : CClientInfo) : Prop where
  moved : Moved s s' i j client client.alloc.getNewFreePort.2
  addr : ip = client.ip ∨ s.Holds i j ip
  live : s'.live = ⟨i, j, ip, client.alloc.getNewFreePort.1, s.given (i, j)⟩ :: s.live
  given : s'.given = update s.given (i, j) (s.given (i, j) + 1)
  kept : ∀ i' j' ip', s'.Holds i' j' ip' → s.Holds i' j' ip' ∨ (i' = i ∧ j' = j ∧ ip' = client.ip)

/-- A flow of the client at `(i, j)` has returned its port. -/
structure Freed (s s' : TupleThread) (n i j port : Nat) (client : CClientInfo) (alloc : Alloc) :
    Prop where
  moved : Moved s s' i j client alloc
  returned : client.alloc.returnPort port = .ok alloc
  live : s'.live = s.live.eraseIdx n
  given : s'.given = s.given
  capGen : s'.capGen = s.capGen

theorem took_takePort {i j : Nat} {ip : UInt32} (h : s.takePort i j ip = some s') :
    ∃ client, Moved s s' i j client client.alloc.getNewFreePort.2 ∧
      s'.live = ⟨i, j, ip, client.alloc.getNewFreePort.1, s.given (i, j)⟩ :: s.live ∧
      s'.given = update s.given (i, j) (s.given (i, j) + 1) ∧ s'.capGen = s.capGen := by
  simp only [takePort, CClientPool.generateOnePort, Option.bind_eq_some_iff, Option.map_eq_some_iff]
    at h
  obtain ⟨pool, hpool, r, ⟨client, hclient, rfl⟩, rfl⟩ := h
  exact ⟨client, moved_set hpool hclient rfl rfl, rfl, rfl, rfl⟩

@[simp] theorem incCurIdx_ipInfo (random : Nat) (pool : CClientPool) :
    (pool.incCurIdx random).ipInfo = pool.ipInfo := by
  unfold CClientPool.incCurIdx
  split <;> rfl

/-- Moving on to the next client changes no client. -/
theorem clientAt_incCurIdx {i : Nat} {pool : CClientPool} (hpool : s.clientPool[i]? = some pool)
    (random i' j' : Nat) (capGen : List CFlowGeneratorRecPerThread) :
    clientAt { s with clientPool := s.clientPool.set i (pool.incCurIdx random), capGen } i' j' =
        s.clientAt i' j' := by
  unfold clientAt
  dsimp only
  by_cases hii : i' = i
  · subst hii
    rw [List.getElem?_set_self (List.getElem?_eq_some_iff.mp hpool).1, hpool, Option.bind_some,
      Option.bind_some, incCurIdx_ipInfo]
  · rw [List.getElem?_set_ne (Ne.symm hii)]

/-- A template that has another counter, or another client, keeps the others. -/
theorem holds_set {k : Nat} {lp : CFlowGeneratorRecPerThread} {cnt : Nat}
    {cache : Option (Nat × UInt32)}
    (hs' : s'.capGen = s.capGen.set k { lp with cnt, cacheClient := cache }) {i j : Nat}
    {ip : UInt32} (h : s'.Holds i j ip) :
    s.Holds i j ip ∨ (i = lp.clientPoolIdx ∧ cache = some (j, ip)) := by
  obtain ⟨lp', hmem, rfl, hcache⟩ := h
  rw [hs'] at hmem
  rcases mem_or_eq_of_mem_set hmem with hmem | rfl
  · exact Or.inl ⟨lp', hmem, rfl, hcache⟩
  · exact Or.inr ⟨rfl, hcache⟩

theorem generateTuple_took {k random : Nat} (h : s.generateTuple k random = some s') :
    ∃ i j ip client, s.target (.generate k random) = some (i, j) ∧ Took s s' i j ip client := by
  simp only [generateTuple, Option.bind_eq_some_iff] at h
  obtain ⟨lp, hlp, h⟩ := h
  split at h
  · rename_i hnew
    simp only [Option.bind_eq_some_iff] at h
    obtain ⟨pool, hpool, client, hclient, h⟩ := h
    obtain ⟨client', hmoved, hlive, hgiven, hcap⟩ := took_takePort h
    have hat : s.clientAt lp.clientPoolIdx pool.curIdx = some client := by
      unfold clientAt
      rw [hpool]
      exact hclient
    have hsame : client' = client := by
      have := hmoved.1
      rw [clientAt_incCurIdx hpool, hat] at this
      exact (Option.some.inj this).symm
    subst hsame
    refine ⟨lp.clientPoolIdx, pool.curIdx, client'.ip, client', ?_, ?_⟩
    · simp [target, hlp, if_pos hnew, hpool]
    · refine ⟨⟨hat, ?_⟩, Or.inl rfl, hlive, hgiven, ?_⟩
      · intro i' j'
        rw [hmoved.2, clientAt_incCurIdx hpool]
      · intro i' j' ip' hh
        rcases holds_set hcap hh with hh | ⟨rfl, hc⟩
        · exact Or.inl hh
        · cases hc
          exact Or.inr ⟨rfl, rfl, rfl⟩
  · rename_i hold
    simp only [Option.bind_eq_some_iff] at h
    obtain ⟨⟨j, ip⟩, hcache, h⟩ := h
    obtain ⟨client, hmoved, hlive, hgiven, hcap⟩ := took_takePort h
    refine ⟨lp.clientPoolIdx, j, ip, client, ?_, ?_⟩
    · simp [target, hlp, if_neg hold, hcache]
    · refine ⟨hmoved, Or.inr ⟨lp, mem_of_getElem? hlp, rfl, hcache⟩, hlive, hgiven, ?_⟩
      intro i' j' ip' hh
      rcases holds_set hcap hh with hh | ⟨rfl, hc⟩
      · exact Or.inl hh
      · exact Or.inl ⟨lp, mem_of_getElem? hlp, rfl, hc⟩

theorem generateOneSourcePort_took {k : Nat} (h : s.generateOneSourcePort k = some s') :
    ∃ i j ip client, s.target (.onePort k) = some (i, j) ∧ Took s s' i j ip client := by
  simp only [generateOneSourcePort, Option.bind_eq_some_iff] at h
  obtain ⟨lp, hlp, ⟨j, ip⟩, hcache, h⟩ := h
  obtain ⟨client, hmoved, hlive, hgiven, hcap⟩ := took_takePort h
  refine ⟨lp.clientPoolIdx, j, ip, client, ?_, ?_⟩
  · simp [target, hlp, hcache]
  · refine ⟨hmoved, Or.inr ⟨lp, mem_of_getElem? hlp, rfl, hcache⟩, hlive, hgiven, ?_⟩
    intro i' j' ip' hh
    left
    unfold Holds at hh ⊢
    rwa [hcap] at hh

theorem freePort_freed {n : Nat} (h : s.freePort n = some s') :
    ∃ i j port client alloc, Freed s s' n i j port client alloc := by
  simp only [freePort, Option.bind_eq_some_iff, Option.map_eq_some_iff] at h
  obtain ⟨f, hf, pool, hpool, client, hclient, alloc, halloc, rfl⟩ := h
  exact ⟨f.pool, f.idx, f.port, client, alloc, moved_set hpool hclient rfl rfl,
    Lib.toOption_eq_some halloc, rfl, rfl, rfl⟩

/-- **What a step does**: a port is taken from the client that the event is for, or one is
returned. -/
theorem step_cases (h : s.step e = some s') :
    (∃ i j ip client, s.target e = some (i, j) ∧ Took s s' i j ip client) ∨
      ∃ n i j port client alloc, Freed s s' n i j port client alloc := by
  cases e with
  | generate k random => exact Or.inl (generateTuple_took h)
  | onePort k => exact Or.inl (generateOneSourcePort_took h)
  | free n => exact Or.inr ⟨n, freePort_freed h⟩

/-! ## 4. The numbering -/

/-- No client hands out all of its ports within the life of one of its flows: the port that is taken
next is not the one of a flow that lives. -/
def Spaced (s : TupleThread) (e : Event) : Prop :=
  ∀ i j, s.target e = some (i, j) → ∀ f ∈ s.live, f.pool = i → f.idx = j →
    s.given (i, j) < f.serial + portSpan

/-- **The invariant**: the addresses of the clients are the ones that they were made with, every
allocator stands at the number of ports that were handed out, and so does every flow that lives. -/
structure Numbered (ipOf : Nat → Nat → Option UInt32) (s : TupleThread) : Prop where
  ip : ∀ i j, (s.clientAt i j).map (·.ip) = ipOf i j
  alloc : ∀ i j client, s.clientAt i j = some client →
    client.alloc = .large ⟨currOf (s.given (i, j))⟩
  kept : ∀ i j ip, s.Holds i j ip → ipOf i j = some ip
  live : ∀ f ∈ s.live, ipOf f.pool f.idx = some f.ip ∧ f.port = portOf f.serial ∧
    f.serial < s.given (f.pool, f.idx)
  apart : s.live.Pairwise fun f g => f.pool = g.pool → f.idx = g.idx →
    g.serial < f.serial ∧ f.serial < g.serial + portSpan

variable {ipOf : Nat → Nat → Option UInt32}

theorem Numbered.took {i j : Nat} {ip : UInt32} (hinv : Numbered ipOf s)
    (ht : s.target e = some (i, j)) (hspaced : s.Spaced e) (h : Took s s' i j ip client) :
    Numbered ipOf s' := by
  have hat := h.moved.1
  have hip : ipOf i j = some client.ip := by
    rw [← hinv.ip, hat]
    rfl
  have halloc := hinv.alloc i j client hat
  have hnext : client.alloc.getNewFreePort =
      (portOf (s.given (i, j)), .large ⟨currOf (s.given (i, j) + 1)⟩) := by
    rw [halloc, Alloc.getNewFreePort, getNewFreePort_currOf]
  have hlive := h.live
  rw [hnext] at hlive
  constructor
  · intro i' j'
    rw [h.moved.ip, hinv.ip]
  · intro i' j' client' hc
    rw [h.moved.2, hnext] at hc
    rw [h.given]
    split at hc
    · rename_i heq
      obtain ⟨rfl, rfl⟩ := heq
      cases hc
      rw [update_self]
    · rename_i hne
      rw [update_of_ne (fun heq => hne (Prod.mk.inj heq))]
      exact hinv.alloc i' j' client' hc
  · intro i' j' ip' hh
    rcases h.kept i' j' ip' hh with hh | ⟨rfl, rfl, rfl⟩
    · exact hinv.kept i' j' ip' hh
    · exact hip
  · intro f hf
    rw [hlive, mem_cons] at hf
    rw [h.given]
    rcases hf with rfl | hf
    · refine ⟨?_, rfl, ?_⟩
      · rcases h.addr with rfl | hh
        · exact hip
        · exact hinv.kept i j ip hh
      · dsimp only
        rw [update_self]
        omega
    · obtain ⟨hfip, hport, hserial⟩ := hinv.live f hf
      refine ⟨hfip, hport, ?_⟩
      by_cases heq : (f.pool, f.idx) = (i, j)
      · rw [heq] at hserial ⊢
        rw [update_self]
        omega
      · rw [update_of_ne heq]
        exact hserial
  · rw [hlive, pairwise_cons]
    refine ⟨?_, hinv.apart⟩
    intro f hf hpool hidx
    dsimp only at hpool hidx ⊢
    refine ⟨?_, hspaced i j ht f hf hpool.symm hidx.symm⟩
    have := (hinv.live f hf).2.2
    rwa [← hpool, ← hidx] at this

theorem Numbered.freed {n i j port : Nat} {alloc : Alloc} (hinv : Numbered ipOf s)
    (h : Freed s s' n i j port client alloc) : Numbered ipOf s' := by
  have hat := h.moved.1
  have hsame : alloc = client.alloc := by
    have hret := h.returned
    rw [hinv.alloc i j client hat] at hret ⊢
    cases hret
    rfl
  subst hsame
  have hclient : ∀ i' j', s'.clientAt i' j' = s.clientAt i' j' := by
    intro i' j'
    rw [h.moved.2]
    split
    · rename_i heq
      rw [heq.1, heq.2, hat]
    · rfl
  constructor
  · intro i' j'
    rw [hclient, hinv.ip]
  · intro i' j' client' hc
    rw [hclient] at hc
    rw [h.given]
    exact hinv.alloc i' j' client' hc
  · intro i' j' ip' hh
    unfold Holds at hh
    rw [h.capGen] at hh
    exact hinv.kept i' j' ip' hh
  · intro f hf
    rw [h.live] at hf
    rw [h.given]
    exact hinv.live f (mem_of_mem_eraseIdx hf)
  · rw [h.live]
    exact hinv.apart.sublist (eraseIdx_sublist _ _)

theorem Numbered.step (hinv : Numbered ipOf s) (hspaced : s.Spaced e) (h : s.step e = some s') :
    Numbered ipOf s' := by
  rcases step_cases h with ⟨i, j, ip, client, ht, htook⟩ | ⟨n, i, j, port, client, alloc, hfreed⟩
  · exact hinv.took ht hspaced htook
  · exact hinv.freed hfreed

/-- The tuples are different when no two clients have the same address. -/
theorem Numbered.tuples_nodup (hinv : Numbered ipOf s)
    (hinj : ∀ i j i' j' ip, ipOf i j = some ip → ipOf i' j' = some ip → i = i' ∧ j = j') :
    s.tuples.Nodup := by
  unfold tuples
  rw [nodup_iff_pairwise_ne, pairwise_map]
  refine hinv.apart.imp_of_mem ?_
  intro f g hf hg hfg heq
  obtain ⟨hfip, hfport, -⟩ := hinv.live f hf
  obtain ⟨hgip, hgport, -⟩ := hinv.live g hg
  obtain ⟨hip, hport⟩ := Prod.mk.inj heq
  rw [hip] at hfip
  obtain ⟨hpool, hidx⟩ := hinj _ _ _ _ _ hfip hgip
  obtain ⟨hlt, hspan⟩ := hfg hpool hidx
  rw [hfport, hgport] at hport
  exact portOf_ne hlt hspan hport

end TupleThread

/-! ## 5. The estimate -/

/-- `longest_flow * total_cps / 64K` for the pool `i`. -/
def estimate (capGen : List CFlowGeneratorRecPerThread) (i : Nat) : Rat :=
  getLongestFlow capGen i * (getTotalKcps capGen i * 1000) / maxPort

/-- Only a pool with more clients than the estimate has clients that do not track their ports. -/
def SelectionOk (cfg : TupleConfig) (s : TupleThread) : Prop :=
  ∀ i pool, s.clientPool[i]? = some pool → (∃ client ∈ pool.ipInfo, ∃ c, client.alloc = .large c) →
    estimate (initFromGlobal cfg) i < pool.ipInfo.length

/-- The parts of the pools of a thread share no address. -/
def PoolsApart (cfg : TupleConfig) (threadId : UInt32) : Prop :=
  ∀ (i j : Nat) (pool pool' : CTupleGenPoolYaml × IpDist) (portion portion' : CIpPortion), i ≠ j →
    cfg.clientPool[i]? = some pool → cfg.clientPool[j]? = some pool' →
    portionOf pool.1 cfg.maxThreads cfg.expectedDualPorts threadId = some portion →
    portionOf pool'.1 cfg.maxThreads cfg.expectedDualPorts threadId = some portion' →
      portion.Disjoint portion'

/-- Every pool that has a client has more clients than the estimate. -/
def EnoughClients (cfg : TupleConfig) (threadId : UInt32) : Prop :=
  ∀ (i : Nat) (pool : CTupleGenPoolYaml × IpDist) (portion : CIpPortion),
    cfg.clientPool[i]? = some pool →
    portionOf pool.1 cfg.maxThreads cfg.expectedDualPorts threadId = some portion →
      portion.known cfg.macs ≠ [] →
    estimate (initFromGlobal cfg) i < (portion.known cfg.macs).length

/-- The two factors are zero when there is no template yet. -/
theorem chooseAlloc_nil (n i : Nat) :
    chooseAlloc (n + 1) (getLongestFlow [] i) (getTotalKcps [] i * 1000) = .large .create := by
  unfold chooseAlloc
  have hzero : getLongestFlow [] i * (getTotalKcps [] i * 1000) / maxPort = 0 := by
    simp [getLongestFlow, zero_mul]
  have hpos : ((n + 1 : Nat) : Rat) > 0 := Nat.cast_pos.mpr (Nat.succ_pos n)
  rw [hzero, if_pos hpos]

namespace TupleThread

variable {cfg : TupleConfig} {threadId : UInt32} {s s0 : TupleThread}

/-- A pool of a new thread. -/
theorem createThread_pool (h : createThread cfg threadId = some s0) {i : Nat} {pool : CClientPool}
    (hpool : s0.clientPool[i]? = some pool) :
    ∃ yaml portion, cfg.clientPool[i]? = some yaml ∧
      portionOf yaml.1 cfg.maxThreads cfg.expectedDualPorts threadId = some portion ∧
      pool.ipInfo = (portion.known cfg.macs).map (fun ip => ⟨ip, .large .create⟩) ∧
      ∀ j client, pool.ipInfo[j]? = some client →
        client.ip.toNat = portion.ipStart.toNat + j ∧ client.ip.toNat ≤ portion.ipEnd.toNat := by
  simp only [createThread, Option.map_eq_some_iff] at h
  obtain ⟨made, hmade, rfl⟩ := h
  obtain ⟨yaml, dist, portion, hyaml, hportion, hcreate⟩ :=
    (addClientPools_spec hmade).2 i pool hpool
  obtain ⟨hinfo, hips⟩ := createPool_spec hcreate
  rw [chooseAlloc_nil] at hinfo
  exact ⟨(yaml, dist), portion, hyaml, hportion, hinfo, hips⟩

/-- Every pool of the configuration has its pool in a new thread. -/
theorem createThread_length (h : createThread cfg threadId = some s0) :
    s0.clientPool.length = cfg.clientPool.length := by
  simp only [createThread, Option.map_eq_some_iff] at h
  obtain ⟨made, hmade, rfl⟩ := h
  exact (addClientPools_spec hmade).1

theorem createThread_empty (h : createThread cfg threadId = some s0) :
    s0.live = [] ∧ (∀ p, s0.given p = 0) ∧ ∀ i j ip, ¬ s0.Holds i j ip := by
  simp only [createThread, Option.map_eq_some_iff] at h
  obtain ⟨made, -, rfl⟩ := h
  refine ⟨rfl, fun p => rfl, ?_⟩
  rintro i j ip ⟨lp, hmem, -, hcache⟩
  obtain ⟨rec, -, rfl⟩ := mem_map.mp hmem
  cases hcache

/-- A new thread has handed out nothing. -/
theorem createThread_numbered (h : createThread cfg threadId = some s0) :
    Numbered (fun i j => (s0.clientAt i j).map (·.ip)) s0 := by
  obtain ⟨hlive, hgiven, hholds⟩ := createThread_empty h
  constructor
  · intro i j
    rfl
  · intro i j client hc
    simp only [clientAt, Option.bind_eq_some_iff] at hc
    obtain ⟨pool, hpool, hclient⟩ := hc
    obtain ⟨yaml, portion, -, -, hinfo, -⟩ := createThread_pool h hpool
    rw [hinfo, List.getElem?_map, Option.map_eq_some_iff] at hclient
    obtain ⟨ip, -, rfl⟩ := hclient
    rw [hgiven]
    rfl
  · intro i j ip hh
    exact absurd hh (hholds i j ip)
  · intro f hf
    rw [hlive] at hf
    cases hf
  · rw [hlive]
    exact List.Pairwise.nil

/-- No two clients of a new thread have the same address when its pools do not overlap. -/
theorem createThread_injective (hapart : PoolsApart cfg threadId)
    (h : createThread cfg threadId = some s0) (i j i' j' : Nat) (ip : UInt32)
    (hij : (s0.clientAt i j).map (·.ip) = some ip)
    (hij' : (s0.clientAt i' j').map (·.ip) = some ip) : i = i' ∧ j = j' := by
  simp only [clientAt, Option.map_eq_some_iff, Option.bind_eq_some_iff] at hij hij'
  obtain ⟨client, ⟨pool, hpool, hclient⟩, rfl⟩ := hij
  obtain ⟨client', ⟨pool', hpool', hclient'⟩, hip⟩ := hij'
  obtain ⟨yaml, portion, hyaml, hportion, -, hips⟩ := createThread_pool h hpool
  obtain ⟨yaml', portion', hyaml', hportion', -, hips'⟩ := createThread_pool h hpool'
  obtain ⟨hstart, hend⟩ := hips j client hclient
  obtain ⟨hstart', hend'⟩ := hips' j' client' hclient'
  rw [hip] at hstart' hend'
  by_cases hii : i = i'
  · subst hii
    rw [hyaml] at hyaml'
    cases hyaml'
    rw [hportion] at hportion'
    cases hportion'
    exact ⟨rfl, by omega⟩
  · rcases hapart i i' yaml yaml' portion portion' hii hyaml hyaml' hportion
      hportion' with hlt | hlt <;> omega

/-- The allocator that does not track is chosen as the comment asks for exactly when there are
enough clients. -/
theorem selectionOk_iff (h : createThread cfg threadId = some s0) :
    SelectionOk cfg s0 ↔ EnoughClients cfg threadId := by
  constructor
  · intro hsel i yaml portion hyaml hportion hne
    have hi : i < s0.clientPool.length := by
      rw [createThread_length h]
      exact (List.getElem?_eq_some_iff.mp hyaml).1
    have hpool := List.getElem?_eq_getElem hi
    obtain ⟨yaml', portion', hyaml', hportion', hinfo, -⟩ := createThread_pool h hpool
    rw [hyaml] at hyaml'
    cases hyaml'
    rw [hportion] at hportion'
    cases hportion'
    have hlen := congrArg List.length hinfo
    rw [length_map] at hlen
    rw [← hlen]
    refine hsel i _ hpool ?_
    obtain ⟨ip, hip⟩ := exists_mem_of_ne_nil _ hne
    refine ⟨⟨ip, .large .create⟩, ?_, .create, rfl⟩
    rw [hinfo]
    exact mem_map_of_mem hip
  · rintro henough i pool hpool ⟨client, hclient, -⟩
    obtain ⟨yaml, portion, hyaml, hportion, hinfo, -⟩ := createThread_pool h hpool
    have hlen := congrArg List.length hinfo
    rw [length_map] at hlen
    rw [hlen]
    refine henough i yaml portion hyaml hportion ?_
    intro hnil
    rw [hinfo, hnil] at hclient
    cases hclient

/-! ## 6. The tuples of a run -/

/-- **The flows of a thread have different tuples** in every run in which no client hands out all of
its ports within the life of one of its flows, if the pools of the thread do not overlap; and the
clients that do not track their ports are chosen as the comment asks for exactly when every pool has
more clients than the estimate. -/
theorem unique_of_spaced (hapart : PoolsApart cfg threadId)
    (h : ReachableBy cfg threadId Spaced s) :
    s.tuples.Nodup ∧
      ∀ s0, createThread cfg threadId = some s0 →
          (SelectionOk cfg s0 ↔ EnoughClients cfg threadId) := by
  refine ⟨?_, fun s0 h0 => selectionOk_iff h0⟩
  have hinv : ∃ s0, createThread cfg threadId = some s0 ∧
      Numbered (fun i j => (s0.clientAt i j).map (·.ip)) s := by
    induction h with
    | create h0 => exact ⟨_, h0, createThread_numbered h0⟩
    | step _ hspaced hstep ih =>
      obtain ⟨s0, h0, hnum⟩ := ih
      exact ⟨s0, h0, hnum.step hspaced hstep⟩
  obtain ⟨s0, h0, hnum⟩ := hinv
  exact hnum.tuples_nodup (createThread_injective hapart h0)

/-- One client, and templates that are loaded as `capGen`. -/
def oneClient (capGen : List CFlowGeneratorRec) : TupleConfig where
  clientPool := [({ ipStart := 0x10000001, ipEnd := 0x10000001, dualInterfaceMask := 0x01000000 },
    .cdSEQ_DIST)]
  capGen := capGen
  maxThreads := 1
  expectedDualPorts := 1
  macs := none

/-- A short template: two flows are generated and the first one returns its port. -/
theorem unique_of_spaced_twice : ∃ s, ReachableBy (oneClient [⟨0, 1, 1, 10⟩]) 0 Spaced s ∧
    s.tuples = [(0x10000001, 1025)] ∧ s.tuples.Nodup := by
  let cfg := oneClient [⟨0, 1, 1, 10⟩]
  have hapart : PoolsApart cfg 0 := by
    intro i j pool pool' portion portion' hne hi hj
    have hi' : i < 1 := (List.getElem?_eq_some_iff.mp hi).1
    have hj' : j < 1 := (List.getElem?_eq_some_iff.mp hj).1
    omega
  have hdefined : (((((createThread cfg 0).bind fun s => s.step (.generate 0 0)).bind fun s =>
      s.step (.generate 0 0)).bind fun s => s.step (.free 1)).map fun s => s.tuples) =
          some [(0x10000001, 1025)] := by
    decide +kernel
  simp only [Option.map_eq_some_iff, Option.bind_eq_some_iff] at hdefined
  obtain ⟨s3, ⟨s2, ⟨s1, ⟨s0, h0, h1⟩, h2⟩, h3⟩, htuples⟩ := hdefined
  -- fewer than `portSpan` ports are handed out, so every step is `Spaced`
  have hsmall : ∀ {s : TupleThread} (e : Event), (∀ p, s.given p < portSpan) → s.Spaced e := by
    intro s e hgiven i j _ f _ _ _
    have := hgiven (i, j)
    omega
  have hg0 : ∀ p, s0.given p = 0 := (createThread_empty h0).2.1
  have hgrow : ∀ {s s' : TupleThread} {e : Event} {n : Nat}, s.step e = some s' →
      (∀ p, s.given p ≤ n) → ∀ p, s'.given p ≤ n + 1 := by
    intro s s' e n hstep hle p
    rcases step_cases hstep with ⟨i, j, ip, client, -, htook⟩ | ⟨_, _, _, _, _, _, hfreed⟩
    · rw [htook.given, update_apply]
      split
      · have := hle (i, j)
        omega
      · have := hle p
        omega
    · rw [hfreed.given]
      have := hle p
      omega
  have hg1 := hgrow h1 (fun p => Nat.le_of_eq (hg0 p))
  have hg2 := hgrow h2 hg1
  have hspan : portSpan = 62977 := by decide
  have r1 := ReachableBy.step (ReachableBy.create h0) (hsmall _ fun p => by have := hg0 p; omega) h1
  have r2 := ReachableBy.step r1 (hsmall _ fun p => by have := hg1 p; omega) h2
  have r3 := ReachableBy.step r2 (hsmall _ fun p => by have := hg2 p; omega) h3
  exact ⟨s3, r3, htuples, (unique_of_spaced hapart r3).1⟩

/-- The thread of one client after `n` flows, none of which has returned its port. -/
structure Filled (capGen : List CFlowGeneratorRecPerThread) (n : Nat) (s : TupleThread) : Prop where
  pools : s.clientPool = [{ ipInfo := [⟨0x10000001, .large ⟨currOf n⟩⟩], dist := .cdSEQ_DIST }]
  given : s.given (0, 0) = n
  capGen : ∃ cache, s.capGen = capGen.map fun lp => { lp with cacheClient := cache }
  tuples : s.tuples = (List.range n).reverse.map fun m => (0x10000001, portOf m)

theorem Filled.step {n cnt : Nat} {kCps len : Rat} {cache : Option (Nat × UInt32)}
    (h : Filled [⟨0, kCps, 1, len, cnt, cache⟩] n s) :
    ∃ s', s.step (.generate 0 0) = some s' ∧ Filled [⟨0, kCps, 1, len, cnt, cache⟩] (n + 1) s' := by
  obtain ⟨pools, capGen, live, given⟩ := s
  obtain ⟨rfl, hgiven, ⟨cache', rfl⟩, htuples⟩ := h
  dsimp only at hgiven
  refine ⟨_, rfl, ?_, ?_, ⟨some (0, 0x10000001), rfl⟩, ?_⟩
  · simp [CClientPool.incCurIdx, Alloc.getNewFreePort, getNewFreePort_currOf, portOf_ne_illegal]
  · simp [hgiven]
  · unfold TupleThread.tuples at htuples ⊢
    simp only [map_cons, htuples, Alloc.getNewFreePort, getNewFreePort_currOf]
    rw [range_succ, reverse_append]
    rfl

theorem createThread_oneClient (kCps len : Rat) :
    createThread (oneClient [⟨0, kCps, 1, len⟩]) 0 = some
    { clientPool := [{ ipInfo := [⟨0x10000001, .large ⟨currOf 0⟩⟩], dist := .cdSEQ_DIST }]
      capGen := initFromGlobal (oneClient [⟨0, kCps, 1, len⟩]), live := [], given :=
          fun _ => 0 } := by
  have hpart : splitIps 0 1 (getDualPortId 1 0) ⟨0x10000001, 0x10000001, 0x01000000⟩ =
      some ⟨0x10000001, 0x10000001⟩ := by decide
  have hpool : CClientPool.createPool .cdSEQ_DIST ⟨0x10000001, 0x10000001⟩ (getLongestFlow [] 0)
      (getTotalKcps [] 0 * 1000) none =
      some { ipInfo := [⟨0x10000001, .large ⟨currOf 0⟩⟩], dist := .cdSEQ_DIST } := by
    unfold CClientPool.createPool
    dsimp only
    rw [if_neg (by decide), if_pos (by decide), chooseAlloc_nil]
    rfl
  simp [createThread, oneClient, addClientPools, hpart, hpool]

theorem filled_reachable (kCps len : Rat) (n : Nat) :
    ∃ s, ReachableBy (oneClient [⟨0, kCps, 1, len⟩]) 0 (fun _ _ => True) s ∧
      Filled (initFromGlobal (oneClient [⟨0, kCps, 1, len⟩])) n s := by
  induction n with
  | zero => exact ⟨_, .create (createThread_oneClient kCps len), rfl, rfl, ⟨none, rfl⟩, rfl⟩
  | succ n ih =>
    obtain ⟨s, hreach, hfilled⟩ := ih
    obtain ⟨s', hstep, hfilled'⟩ := hfilled.step
    exact ⟨s', .step hreach trivial hstep, hfilled'⟩

/-- One client and flows of 100 seconds at 1000 a second: the client does not track its ports
although one client is not more than 1.5625, and after 62978 flows two of them have the first
port. -/
theorem unique_not : ∃ cfg s s0, (∀ pool ∈ cfg.clientPool, pool.1.isValid cfg.maxThreads = true) ∧
    createThread cfg 0 = some s0 ∧ ¬ SelectionOk cfg s0 ∧ ReachableBy cfg 0 (fun _ _ => True) s ∧
    (∀ pool ∈ s.clientPool, pool.portAllocationError = 0) ∧ ¬ s.tuples.Nodup := by
  obtain ⟨s, hreach, hfilled⟩ := filled_reachable 1 100 (portSpan + 1)
  refine ⟨_, s, _, ?_, createThread_oneClient 1 100, ?_, hreach, ?_, ?_⟩
  · decide
  · intro hsel
    have hlt := hsel 0 _ rfl ⟨_, mem_singleton_self _, _, rfl⟩
    exact absurd hlt (by decide +kernel)
  · rw [hfilled.pools]
    intro pool hmem
    rw [mem_singleton.mp hmem]
  · rw [hfilled.tuples]
    intro hnodup
    have hinj := inj_on_of_nodup_map hnodup
    have hfirst : 0 ∈ (List.range (portSpan + 1)).reverse :=
      mem_reverse.mpr (mem_range.mpr (Nat.succ_pos _))
    have hlast : portSpan ∈ (List.range (portSpan + 1)).reverse :=
      mem_reverse.mpr (mem_range.mpr (Nat.lt_succ_self _))
    exact absurd (hinj hfirst hlast rfl) (by decide)

end TupleThread

end Trex.Tuple
