/-
# The tuples of a group

A template with the weight `w` opens `w` flows from one client to one server before it goes to the
next (`CTupleTemplateGeneratorSmart`, `tuple_gen.h`): the first call of `GenerateTuple` asks the
pools and keeps the client and the server, the other calls take these and ask for another port of
the client.

What the first call keeps are the address and the index of the client.  Its MAC address is not kept,
and `setClientAll2` does not set one, so in the other tuples it stays as the constructor of
`CTupleBase` left it. `group_iff` says when a group is as it is to be: when it has one flow or the
client has no MAC address, and the client does not hand out a port twice.  An allocator that tracks
its ports never does; the other one does in groups with more flows than it has ports.
-/
import Trex.Tuple.Client
import Trex.Tuple.Unique

namespace Trex.Tuple.Full

open List

/-! ## 1. The generator of a template -/

/-- `CServerPoolSimple` or `CServerPool`. -/
inductive CServerPoolBase
  | simple (maxServerIp minServerIp curServerIp : UInt32)
  | bundle (gen : CIpPool)

/-- `GenerateTuple` of the servers. -/
def CServerPoolBase.generateTuple (random : Nat) (tuple : CTupleBase) :
    CServerPoolBase → Except PoolFault (CTupleBase × CServerPoolBase)
  | .simple maxServerIp minServerIp curServerIp =>
    let next := curServerIp + 1
    .ok (tuple.setServer curServerIp,
      .simple maxServerIp minServerIp (if next > maxServerIp then minServerIp else next))
  | .bundle gen => do
    let (idx, next) := gen.generateIp random
    let info ← next.info idx
    return (tuple.setServerAll idx info.ip, .bundle next)

/-- `CTupleTemplateGeneratorSmart`, with the pools that it points to. -/
structure CTupleTemplateGeneratorSmart where
  clientGen : CClientPool
  serverGen : CServerPoolBase
  w : Nat
  cnt : Nat
  serverIp : UInt32
  cacheClientIp : UInt32
  cacheClientIdx : Nat
  cacheServerIp : UInt32
  cacheServerIdx : Nat
  isSingleServer : Bool

/-- A call: what is in the memory of the new `CTupleBase`, and the numbers that the pools draw. -/
structure Call where
  memory : CTupleBase
  clientRandom : Nat
  serverRandom : Nat

namespace CTupleTemplateGeneratorSmart

/-- A client and a server of the pools. -/
def newTuple (call : Call) (g : CTupleTemplateGeneratorSmart) :
    Except PoolFault (CTupleBase × CTupleTemplateGeneratorSmart) := do
  let (tuple, clientGen) ← g.clientGen.generateTuple call.clientRandom
    (CTupleBase.create call.memory)
  let (tuple, serverGen) ← g.serverGen.generateTuple call.serverRandom tuple
  return (tuple,
    { g with clientGen, serverGen, cacheClientIp := tuple.clientIp,
             cacheClientIdx := tuple.clientIdx })

/-- The client and the server of the last tuple. -/
def cachedTuple (call : Call) (g : CTupleTemplateGeneratorSmart) :
    Except PoolFault (CTupleBase × CTupleTemplateGeneratorSmart) := do
  let tuple := (CTupleBase.create call.memory).setServerAll g.cacheServerIdx g.cacheServerIp
  let (port, pool) ← g.clientGen.generateOnePort g.cacheClientIdx
  return (tuple.setClientAll2 g.cacheClientIdx g.cacheClientIp port,
    { g with clientGen := { g.clientGen with toCIpPool := pool } })

/-- `m_cnt++` -/
def nextCnt (g : CTupleTemplateGeneratorSmart) : CTupleTemplateGeneratorSmart :=
  { g with cnt := if g.cnt + 1 ≥ g.w then 0 else g.cnt + 1 }

/-- The end of `GenerateTuple`. -/
def singleServer (tuple : CTupleBase) (g : CTupleTemplateGeneratorSmart) : CTupleBase :=
  if g.isSingleServer then tuple.setServer g.serverIp else tuple

/-- `GenerateTuple`, for a new `CTupleBase`. -/
def generateTuple (call : Call) (g : CTupleTemplateGeneratorSmart) :
    Except PoolFault (CTupleBase × CTupleTemplateGeneratorSmart) := do
  if g.w = 1 then
    let (tuple, g) ← g.newTuple call
    return (g.singleServer tuple, g)
  else if g.cnt = 0 then
    let (tuple, g) ← g.newTuple call
    let g := { g with cacheServerIdx := tuple.serverIdx, cacheServerIp := tuple.serverIp }
    return (g.singleServer tuple, g.nextCnt)
  else
    let (tuple, g) ← g.cachedTuple call
    return (g.singleServer tuple, g.nextCnt)

/-- Calls one after another. -/
def generateTuples : List Call → CTupleTemplateGeneratorSmart →
    Except PoolFault (List CTupleBase × CTupleTemplateGeneratorSmart)
  | [], g => .ok ([], g)
  | call :: calls, g => do
    let (tuple, g) ← g.generateTuple call
    let (tuples, g) ← generateTuples calls g
    return (tuple :: tuples, g)

end CTupleTemplateGeneratorSmart

/-! ## 2. The ports of one client -/

/-- The next `n` ports of an allocator. -/
def nextPorts : Nat → Alloc → List Nat
  | 0, _ => []
  | n + 1, alloc => alloc.getNewFreePort.1 :: nextPorts n alloc.getNewFreePort.2

/-- Ports that are handed out differ, or none was available. -/
def DistinctPorts (ports : List Nat) : Prop :=
  (∀ port ∈ ports, port = illegalPort ∨ minPort ≤ port ∧ port ≤ maxPort) ∧
    ports.Pairwise fun port port' => port = port' → port = illegalPort

/-- An allocator that tracks its ports. -/
def IsTracked : Alloc → Prop
  | .tracked _ => True
  | .large _ => False

/-- **What is reached by an allocator**: the one that does not track its ports has handed out some
number of them. -/
def Numbered : Alloc → Prop
  | .tracked _ => True
  | .large c => ∃ n, c.currPort = currOf n

/-- The ports of `CIpInfo` were free. -/
theorem mem_nextPorts_tracked {n port : Nat} {c : CIpInfo} (h : port ∈ nextPorts n (.tracked c)) :
    port = illegalPort ∨ isPortLegal port = true ∧ c.bitmapPort port = false := by
  induction n generalizing c with
  | zero => cases h
  | succ n ih =>
    rcases c.getNewFreePort_spec with ⟨hill, hmap, -⟩ | ⟨hlegal, hfree, hmap⟩
    · rcases mem_cons.mp h with rfl | htail
      · exact Or.inl hill
      · rcases ih htail with hport | hport
        · exact Or.inl hport
        · rw [hmap] at hport
          exact Or.inr hport
    · rcases mem_cons.mp h with rfl | htail
      · exact Or.inr ⟨hlegal, hfree⟩
      · rcases ih htail with hport | ⟨hl, hf⟩
        · exact Or.inl hport
        · refine Or.inr ⟨hl, ?_⟩
          rw [hmap] at hf
          by_cases heq : port = c.getNewFreePort.1
          · rw [heq]
            exact hfree
          · rwa [Function.update_of_ne heq] at hf

/-- **`CIpInfo` does not hand out a port twice.** -/
theorem distinctPorts_tracked (n : Nat) (c : CIpInfo) :
    DistinctPorts (nextPorts n (.tracked c)) := by
  constructor
  · intro port hport
    rcases mem_nextPorts_tracked hport with hill | ⟨hlegal, -⟩
    · exact Or.inl hill
    · obtain ⟨hmin, hmax⟩ := isPortLegal_iff.mp hlegal
      exact Or.inr ⟨hmin, Nat.le_of_lt hmax⟩
  · induction n generalizing c with
    | zero => exact List.Pairwise.nil
    | succ n ih =>
      refine pairwise_cons.mpr ⟨?_, ih _⟩
      intro port hport heq
      rcases mem_nextPorts_tracked hport with hill | ⟨-, hfree⟩
      · exact heq.trans hill
      · rcases c.getNewFreePort_spec with ⟨hill, -, -⟩ | ⟨-, -, hmap⟩
        · exact hill
        · rw [hmap, ← heq] at hfree
          have hused : (Function.update c.bitmapPort c.getNewFreePort.1 true) c.getNewFreePort.1 =
              true :=
            Function.update_self _ _ _
          exact absurd (hused.symm.trans hfree) (by decide)

/-- The ports of `CIpInfoL` are taken in turn. -/
theorem nextPorts_large (n m : Nat) :
    nextPorts n (.large ⟨currOf m⟩) = (List.range n).map fun i => portOf (m + i) := by
  induction n generalizing m with
  | zero => rfl
  | succ n ih =>
    have hport := getNewFreePort_currOf m
    show (CIpInfoL.mk (currOf m)).getNewFreePort.1 ::
      nextPorts n (.large (CIpInfoL.mk (currOf m)).getNewFreePort.2) = _
    rw [hport, ih (m + 1), range_succ_eq_map, map_cons, map_map]
    refine congrArg _ (map_congr_left ?_)
    intro i _
    show portOf (m + 1 + i) = portOf (m + (i + 1))
    rw [Nat.add_right_comm, Nat.add_assoc]

/-- **`CIpInfoL` hands out different ports** exactly until it has handed out all of them. -/
theorem distinctPorts_large {n m : Nat} :
    DistinctPorts (nextPorts n (.large ⟨currOf m⟩)) ↔ n ≤ portSpan := by
  have hspan : portSpan = 62977 := rfl
  rw [nextPorts_large]
  constructor
  · rintro ⟨-, hpair⟩
    by_contra hlt
    -- the first port comes again after a round
    rw [pairwise_map, pairwise_iff_getElem] at hpair
    have hrange : (List.range n).length = n := length_range
    have heq : portOf (m + 0) = portOf (m + portSpan) := by
      unfold portOf
      rw [Nat.add_zero, Nat.add_mod_right]
    have hill := hpair 0 portSpan (by omega) (by omega) (by omega)
    rw [getElem_range, getElem_range] at hill
    exact portOf_ne_illegal _ (hill heq)
  · intro hle
    constructor
    · intro port hport
      obtain ⟨i, -, rfl⟩ := mem_map.mp hport
      right
      have hmax : maxPort = 64000 := rfl
      have hmin : minPort = 1024 := rfl
      unfold portOf
      rw [hspan]
      omega
    · rw [pairwise_map]
      refine pairwise_lt_range.imp_of_mem ?_
      intro i j hi hj hij heq
      rw [mem_range] at hj
      exact absurd heq.symm (portOf_ne (by omega) (by omega))

variable {alloc : Alloc} {pool : CClientPool}

/-- **When the next ports of a client differ.** -/
theorem distinctPorts_iff {n : Nat} (h : Numbered alloc) :
    DistinctPorts (nextPorts n alloc) ↔ IsTracked alloc ∨ n ≤ portSpan := by
  cases alloc with
  | tracked c => exact iff_of_true (distinctPorts_tracked n c) (Or.inl trivial)
  | large c =>
    obtain ⟨m, hm⟩ := h
    rw [show c = ⟨currOf m⟩ from by cases c; exact congrArg CIpInfoL.mk hm, distinctPorts_large]
    constructor
    · exact Or.inr
    · rintro (hfalse | hle)
      · exact hfalse.elim
      · exact hle

theorem Numbered.getNewFreePort (h : Numbered alloc) :
    Numbered alloc.getNewFreePort.2 := by
  cases alloc with
  | tracked c => trivial
  | large c =>
    obtain ⟨m, hm⟩ := h
    refine ⟨m + 1, ?_⟩
    show c.getNewFreePort.2.currPort = _
    rw [show c = ⟨currOf m⟩ from by cases c; exact congrArg CIpInfoL.mk hm, getNewFreePort_currOf]

/-! ## 3. The pools that are reached -/

/-- Every client of the pool has handed out some number of ports. -/
def CClientPool.AllNumbered (pool : CClientPool) : Prop :=
  ∀ (i : Nat) (info : CIpInfoBase), pool.ipInfo[i]? = some (some info) → Numbered info.alloc

/-- The pools that are reached from one that was made. -/
def CClientPool.Reached (pool : CClientPool) : Prop :=
  ∃ (dist : IpDist) (minIp maxIp : UInt32) (lFlow tCps : Rat) (macInfo : MacInfo) (hasMacMap : Bool)
    (tcpAging udpAging : UInt16) (created : CClientPool),
    CClientPool.create dist minIp maxIp lFlow tCps macInfo hasMacMap tcpAging udpAging =
      .ok created ∧ CClientPool.Later created pool

/-- All the clients are made with the same allocator. -/
theorem placeClients_alloc {macInfo : MacInfo} {minIp : UInt32} {hasMacMap : Bool} {size n : Nat}
    {v : List (Option CIpInfoBase)}
    (h : placeClients macInfo minIp hasMacMap alloc size n = .ok v) (i : Nat) (info : CIpInfoBase)
    (hi : v[i]? = some (some info)) : info.alloc = alloc := by
  induction n generalizing v i info with
  | zero =>
    cases h
    rw [List.getElem?_replicate] at hi
    split at hi
    · cases hi
    · cases hi
  | succ n ih =>
    rw [placeClients] at h
    rcases hv : placeClients macInfo minIp hasMacMap alloc size n with f | v'
    · rw [hv] at h
      cases h
    · rw [hv] at h
      replace h : placeClient macInfo minIp hasMacMap alloc n v' = .ok v := h
      unfold placeClient at h
      dsimp only at h
      split at h
      · cases h
        exact ih hv i info hi
      · split at h
        · cases h
        · cases h
          by_cases hin : n = i
          · subst hin
            rw [List.getElem?_set_self (by omega)] at hi
            cases hi
            rfl
          · rw [List.getElem?_set_ne hin] at hi
            exact ih hv i info hi

theorem numbered_chooseAlloc (totalIp : Nat) (lFlow tCps : Rat) :
    Numbered (chooseAlloc totalIp lFlow tCps) := by
  unfold chooseAlloc
  split
  · exact ⟨0, rfl⟩
  · trivial

/-- A client that is put in the place of another one. -/
theorem CClientPool.AllNumbered.set (h : pool.AllNumbered) {idx : Nat} {info : CIpInfoBase}
    (hinfo : Numbered info.alloc) (i : Nat) (info' : CIpInfoBase)
    (hi : (pool.ipInfo.set idx (some info))[i]? = some (some info')) : Numbered info'.alloc := by
  by_cases hidx : idx = i
  · subst hidx
    have hlt : idx < pool.ipInfo.length := by
      rw [← length_set]
      exact (List.getElem?_eq_some_iff.mp hi).1
    rw [List.getElem?_set_self hlt] at hi
    cases hi
    exact hinfo
  · rw [List.getElem?_set_ne hidx] at hi
    exact h i info' hi

theorem CIpInfoBase.returnPort_numbered {info info' : CIpInfoBase} {port : Nat}
    (h : Numbered info.alloc) (hret : info.returnPort port = .ok info') : Numbered info'.alloc := by
  obtain ⟨⟨ip, alloc⟩, mac⟩ := info
  cases alloc with
  | tracked c =>
    unfold CIpInfoBase.returnPort Alloc.returnPort at hret
    cases hc : c.returnPort port with
    | error f =>
      dsimp only at hret
      rw [hc] at hret
      cases hret
    | ok c' =>
      dsimp only at hret
      rw [hc] at hret
      cases hret
      trivial
  | large c =>
    cases hret
    exact h

theorem CClientPool.Later.allNumbered {p : CClientPool} (h : Later pool p)
    (hpool : pool.AllNumbered) :
    p.AllNumbered := by
  induction h with
  | refl => exact hpool
  | generate _ hgen ih =>
    obtain ⟨info, hinfo, -, rfl⟩ := CClientPool.generateTuple_eq_ok.mp hgen
    exact ih.set (ih _ _ hinfo).getNewFreePort
  | onePort _ hone ih =>
    obtain ⟨info, hinfo, -, rfl⟩ := CIpPool.generateOnePort_eq_ok.mp hone
    exact ih.set (ih _ _ hinfo).getNewFreePort
  | free _ hfree ih =>
    obtain ⟨info, info', hinfo, hret, rfl⟩ := CIpPool.freePort_eq_ok.mp hfree
    exact ih.set (CIpInfoBase.returnPort_numbered (ih _ _ hinfo) hret)
  | @returnAll p _ ih =>
    intro i info hi
    replace hi : (p.ipInfo.map _)[i]? = some (some info) := hi
    rw [List.getElem?_map, Option.map_eq_some_iff] at hi
    obtain ⟨entry, -, hentry⟩ := hi
    obtain ⟨info', -, rfl⟩ := Option.map_eq_some_iff.mp hentry
    obtain ⟨⟨ip, alloc⟩, mac⟩ := info'
    cases alloc with
    | tracked c => trivial
    | large c => exact ⟨0, rfl⟩

theorem CClientPool.Reached.allNumbered (h : pool.Reached) :
    pool.AllNumbered := by
  obtain ⟨dist, minIp, maxIp, lFlow, tCps, macInfo, hasMacMap, tcpAging, udpAging, created, hcreate,
    hlater⟩ := h
  refine hlater.allNumbered ?_
  intro i info hi
  unfold CClientPool.create at hcreate
  split at hcreate
  · cases hcreate
  · rcases hv : placeClients macInfo minIp hasMacMap
      (chooseAlloc (maxIp - minIp + 1).toNat lFlow tCps)
      (vectorSize macInfo minIp hasMacMap (maxIp - minIp + 1).toNat) (maxIp - minIp +
        1).toNat with f | v
    · dsimp only at hcreate
      rw [hv] at hcreate
      cases hcreate
    · dsimp only at hcreate
      rw [hv] at hcreate
      cases hcreate
      rw [placeClients_alloc hv i info hi]
      exact numbered_chooseAlloc _ _ _

/-! ## 4. One call -/

/-- The servers set the server of the tuple only. -/
theorem CServerPoolBase.generateTuple_ok {random : Nat} {tuple tuple' : CTupleBase}
    {pool pool' : CServerPoolBase} (h : pool.generateTuple random tuple = .ok (tuple', pool')) :
    ∃ id ip, tuple' = { tuple with serverIdx := id, serverIp := ip } := by
  cases pool with
  | simple maxServerIp minServerIp curServerIp =>
    cases h
    exact ⟨tuple.serverIdx, curServerIp, rfl⟩
  | bundle gen =>
    unfold CServerPoolBase.generateTuple at h
    dsimp only at h
    rcases hinfo : (gen.generateIp random).2.info (gen.generateIp random).1 with f | info
    · rw [hinfo] at h
      cases h
    · rw [hinfo] at h
      cases h
      exact ⟨_, _, rfl⟩

namespace CTupleTemplateGeneratorSmart

variable {g g' : CTupleTemplateGeneratorSmart} {call : Call} {calls : List Call} {t : CTupleBase}
  {ts : List CTupleBase}

/-- The server address that a tuple gets when the cached one is `ip`. -/
def serverOf (ip : UInt32) (g : CTupleTemplateGeneratorSmart) :
    UInt32 := if g.isSingleServer then g.serverIp else ip

/-- A new client and server. -/
theorem newTuple_ok (h : g.newTuple call = .ok (t, g')) :
    ∃ (client : CIpInfoBase) (pool : CClientPool) (servers : CServerPoolBase) (id : Nat)
      (ip : UInt32), g.clientGen.ipInfo[g.clientGen.curIdx]? = some (some client) ∧
      g.clientGen.generateTuple call.clientRandom (CTupleBase.create call.memory) =
        .ok ((CTupleBase.create call.memory).setClientTuple client.ip client.mac
          client.getNewFreePort.1 |>.setClientId g.clientGen.curIdx, pool) ∧
      t = { (CTupleBase.create call.memory).setClientTuple client.ip client.mac
          client.getNewFreePort.1 |>.setClientId
          g.clientGen.curIdx with serverIdx := id, serverIp := ip } ∧
      g' = { g with
        clientGen := pool, serverGen := servers, cacheClientIp := client.ip, cacheClientIdx :=
            g.clientGen.curIdx } := by
  unfold newTuple at h
  rcases hgen : g.clientGen.generateTuple call.clientRandom
    (CTupleBase.create call.memory) with f | ⟨t1, pool⟩
  · rw [hgen] at h
    cases h
  obtain ⟨client, hclient, rfl, -⟩ := CClientPool.generateTuple_eq_ok.mp hgen
  rw [hgen] at h
  rcases hserver : g.serverGen.generateTuple call.serverRandom
    (((CTupleBase.create call.memory).setClientTuple client.ip
    client.mac client.getNewFreePort.1).setClientId g.clientGen.curIdx) with f | ⟨t2, servers⟩
  · replace h : (Except.bind (g.serverGen.generateTuple _ _) _ : Except PoolFault _) = _ := h
    rw [hserver] at h
    cases h
  · obtain ⟨id, ip, rfl⟩ := CServerPoolBase.generateTuple_ok hserver
    replace h : (Except.bind (g.serverGen.generateTuple _ _) _ : Except PoolFault _) = _ := h
    rw [hserver] at h
    cases h
    exact ⟨client, pool, servers, id, ip, hclient, rfl, rfl, rfl⟩

/-- **The first call of a group**: the tuple has the client that was next, with its MAC address. -/
theorem generateTuple_first (hnew : g.w = 1 ∨ g.cnt = 0) (h : g.generateTuple call = .ok (t, g')) :
    ∃ (client : CIpInfoBase) (pool : CClientPool) (tuple : CTupleBase),
      g.clientGen.ipInfo[g.clientGen.curIdx]? = some (some client) ∧
      g.clientGen.generateTuple call.clientRandom (CTupleBase.create call.memory) =
        .ok (tuple, pool) ∧
      g'.clientGen = pool ∧ t.clientIp = client.ip ∧ t.clientIdx = g.clientGen.curIdx ∧
        t.clientMac = client.mac ∧
      t.clientPort = client.alloc.getNewFreePort.1 ∧ g'.w = g.w ∧
      (g.w = 1 → g'.cnt = g.cnt) ∧
      (g.w ≠ 1 → g'.cnt = (if 1 ≥ g.w then 0 else 1) ∧ g'.cacheClientIp = client.ip ∧
        g'.cacheClientIdx = g.clientGen.curIdx ∧ t.serverIp = g'.serverOf g'.cacheServerIp) := by
  unfold generateTuple at h
  by_cases hw : g.w = 1
  · rw [if_pos hw] at h
    rcases hn : g.newTuple call with f | ⟨t1, g1⟩
    · rw [hn] at h
      cases h
    obtain ⟨client, pool, servers, id, ip, hclient, hgen, rfl, rfl⟩ := newTuple_ok hn
    rw [hn] at h
    cases h
    refine ⟨client, pool, _, hclient, hgen, rfl, ?_⟩
    unfold singleServer
    split <;> exact ⟨rfl, rfl, rfl, rfl, rfl, fun _ => rfl, fun hne => absurd hw hne⟩
  · have hcnt : g.cnt = 0 := hnew.resolve_left hw
    rw [if_neg hw, if_pos hcnt] at h
    rcases hn : g.newTuple call with f | ⟨t1, g1⟩
    · rw [hn] at h
      cases h
    obtain ⟨client, pool, servers, id, ip, hclient, hgen, rfl, rfl⟩ := newTuple_ok hn
    rw [hn] at h
    cases h
    refine ⟨client, pool, _, hclient, hgen, rfl, ?_⟩
    have hnext : (if g.cnt + 1 ≥ g.w then 0 else g.cnt + 1) = if 1 ≥ g.w then 0 else 1 := by
      rw [hcnt]
    unfold singleServer serverOf nextCnt
    dsimp only
    split
    · exact ⟨rfl, rfl, rfl, rfl, rfl, fun h1 => absurd h1 hw, fun _ => ⟨hnext, rfl, rfl, rfl⟩⟩
    · exact ⟨rfl, rfl, rfl, rfl, rfl, fun h1 => absurd h1 hw, fun _ => ⟨hnext, rfl, rfl, rfl⟩⟩

/-- **The other calls**: the tuple has the client that was kept, and no MAC address. -/
theorem generateTuple_cached (hw : g.w ≠ 1) (hcnt : g.cnt ≠ 0)
    (h : g.generateTuple call = .ok (t, g')) :
    ∃ (client : CIpInfoBase) (pool : CIpPool),
      g.clientGen.ipInfo[g.cacheClientIdx]? = some (some client) ∧
      g.clientGen.generateOnePort g.cacheClientIdx = .ok (client.alloc.getNewFreePort.1, pool) ∧
      pool.ipInfo = g.clientGen.ipInfo.set g.cacheClientIdx (some client.getNewFreePort.2) ∧
      t.clientIp = g.cacheClientIp ∧ t.clientIdx = g.cacheClientIdx ∧ t.clientMac = none ∧
      t.clientPort = client.alloc.getNewFreePort.1 ∧ t.serverIp = g.serverOf g.cacheServerIp ∧
      g' = { g with
        clientGen := { g.clientGen with toCIpPool := pool }, cnt :=
            if g.cnt + 1 ≥ g.w then 0 else g.cnt + 1 } := by
  unfold generateTuple cachedTuple at h
  rw [if_neg hw, if_neg hcnt] at h
  rcases hone : g.clientGen.generateOnePort g.cacheClientIdx with f | ⟨port, pool⟩
  · rw [hone] at h
    cases h
  obtain ⟨client, hclient, rfl, hpool⟩ := CIpPool.generateOnePort_eq_ok.mp hone
  rw [hone] at h
  cases h
  refine ⟨client, pool, hclient, rfl, by rw [hpool]; rfl, ?_⟩
  unfold singleServer serverOf nextCnt
  dsimp only
  split
  · exact ⟨rfl, rfl, rfl, rfl, rfl, rfl⟩
  · exact ⟨rfl, rfl, rfl, rfl, rfl, rfl⟩

/-! ## 5. A group -/

theorem generateTuples_cons (h : g.generateTuples (call :: calls) = .ok (ts, g')) :
    ∃ t g1 ts', g.generateTuple call = .ok (t, g1) ∧ g1.generateTuples calls = .ok (ts', g') ∧
        ts = t :: ts' := by
  rw [generateTuples] at h
  rcases hone : g.generateTuple call with f | ⟨t, g1⟩
  · rw [hone] at h
    cases h
  rw [hone] at h
  replace h : (g1.generateTuples calls).bind _ = _ := h
  rcases hrest : g1.generateTuples calls with f | ⟨ts', g2⟩
  · rw [hrest] at h
    cases h
  · rw [hrest] at h
    cases h
    exact ⟨t, g1, ts', rfl, hrest, rfl⟩

/-- **The calls of a group after the first one.** -/
theorem generateTuples_cached {client : CIpInfoBase} (hcnt : g.cnt ≠ 0)
    (hlen : g.cnt + calls.length = g.w)
    (hclient : g.clientGen.ipInfo[g.cacheClientIdx]? = some (some client))
    (h : g.generateTuples calls = .ok (ts, g')) :
    ts.map (·.clientPort) = nextPorts calls.length client.alloc ∧
      (∀ t ∈ ts, t.clientIp = g.cacheClientIp ∧ t.clientIdx = g.cacheClientIdx ∧
        t.clientMac = none ∧ t.serverIp = g.serverOf g.cacheServerIp) ∧
      CClientPool.Later g.clientGen g'.clientGen ∧ (calls ≠ [] → g'.cnt = 0) := by
  induction calls generalizing g ts client with
  | nil =>
    cases h
    exact ⟨rfl, fun t ht => absurd ht not_mem_nil, .refl, fun hne => absurd rfl hne⟩
  | cons call calls ih =>
    rw [length_cons] at hlen
    obtain ⟨t, g1, ts', hone, hrest, rfl⟩ := generateTuples_cons h
    obtain ⟨client', pool, hclient', hport, hset, hip, hidx, hmac, htport, hserver, rfl⟩ :=
      generateTuple_cached (by omega) hcnt hone
    rw [hclient] at hclient'
    cases hclient'
    have hlater : CClientPool.Later g.clientGen { g.clientGen with toCIpPool := pool } :=
      .onePort .refl hport
    rcases calls with _ | ⟨call', calls⟩
    · cases hrest
      refine ⟨by rw [map_singleton, htport]; rfl, ?_, hlater, fun _ => ?_⟩
      · intro t' ht'
        obtain rfl := mem_singleton.mp ht'
        exact ⟨hip, hidx, hmac, hserver⟩
      · rw [length_nil] at hlen
        exact if_pos (by omega)
    · rw [length_cons] at hlen
      have hidxlt := (List.getElem?_eq_some_iff.mp hclient).1
      have hmore : (if g.cnt + 1 ≥ g.w then 0 else g.cnt + 1) = g.cnt + 1 := if_neg (by omega)
      have hnext : pool.ipInfo[g.cacheClientIdx]? = some (some client.getNewFreePort.2) := by
        rw [hset, List.getElem?_set_self hidxlt]
      obtain ⟨hports, hall, hlater', hzero⟩ := ih (by dsimp only; omega)
        (by dsimp only; rw [hmore, length_cons]; omega) hnext hrest
      refine ⟨?_, ?_, hlater.trans hlater', fun _ => hzero (cons_ne_nil _ _)⟩
      · rw [map_cons, htport, hports]
        rfl
      · intro t' ht'
        rcases mem_cons.mp ht' with rfl | ht'
        · exact ⟨hip, hidx, hmac, hserver⟩
        · exact hall t' ht'

/-- The tuples of a group have one client, with its MAC address, and one server. -/
def OneClient (ts : List CTupleBase) : Prop :=
  ∀ t ∈ ts, ∀ t' ∈ ts, t.clientIp = t'.clientIp ∧ t.clientIdx = t'.clientIdx ∧
    t.clientMac = t'.clientMac ∧ t.serverIp = t'.serverIp

/-- **What the calls of a group give**: the ports are the next ones of the client, and the tuples
are alike but for the MAC address, which the first one has only. -/
theorem generateTuples_group (hw : 1 ≤ g.w) (hcnt : g.cnt = 0) (hlen : calls.length = g.w)
    (h : g.generateTuples calls = .ok (ts, g')) :
    ∃ client : CIpInfoBase, g.clientGen.ipInfo[g.clientGen.curIdx]? = some (some client) ∧
      ts.map (·.clientPort) = nextPorts g.w client.alloc ∧
      (OneClient ts ↔ g.w = 1 ∨ client.mac = none) ∧
      CClientPool.Later g.clientGen g'.clientGen ∧ g'.cnt = 0 := by
  rcases calls with _ | ⟨call, calls⟩
  · rw [length_nil] at hlen
    omega
  rw [length_cons] at hlen
  obtain ⟨t, g1, ts', hone, hrest, rfl⟩ := generateTuples_cons h
  obtain ⟨client, pool, tuple, hclient, hgen, hpool, hip, hidx, hmac, hport, hgw, hcnt1, hmore⟩ :=
    generateTuple_first (Or.inr hcnt) hone
  have hlater : CClientPool.Later g.clientGen g1.clientGen := by
    rw [hpool]
    exact .generate .refl hgen
  by_cases hw1 : g.w = 1
  · obtain rfl : calls = [] := length_eq_zero_iff.mp (by omega)
    cases hrest
    refine ⟨client, hclient, ?_, ?_, hlater, (hcnt1 hw1).trans hcnt⟩
    · rw [map_singleton, hport, hw1]
      rfl
    · refine iff_of_true ?_ (Or.inl hw1)
      intro a ha b hb
      rw [mem_singleton.mp ha, mem_singleton.mp hb]
      exact ⟨rfl, rfl, rfl, rfl⟩
  · obtain ⟨hcnt', hcip, hcidx, hserver⟩ := hmore hw1
    rw [if_neg (by omega)] at hcnt'
    obtain ⟨info, hinfo, -, hnext⟩ := CClientPool.generateTuple_eq_ok.mp hgen
    rw [hclient] at hinfo
    cases hinfo
    have hidxlt := (List.getElem?_eq_some_iff.mp hclient).1
    have hclient1 : g1.clientGen.ipInfo[g1.cacheClientIdx]? =
        some (some client.getNewFreePort.2) := by
      rw [hpool, hnext, hcidx]
      exact List.getElem?_set_self hidxlt
    obtain ⟨hports, hall, hlater', hzero⟩ :=
      generateTuples_cached (by omega) (by omega) hclient1 hrest
    have hne : calls ≠ [] := by
      rintro rfl
      rw [length_nil] at hlen
      omega
    refine ⟨client, hclient, ?_, ?_, hlater.trans hlater', hzero hne⟩
    · rw [map_cons, hport, hports, show g.w = calls.length + 1 by omega]
      rfl
    · rw [or_iff_right hw1]
      constructor
      · intro hsame
        obtain ⟨t', ht'⟩ : ∃ t', t' ∈ ts' := by
          rcases ts' with _ | ⟨t', rest⟩
          · have hl := congrArg List.length hports
            obtain ⟨call', calls', rfl⟩ := exists_cons_of_ne_nil hne
            cases hl
          · exact ⟨t', mem_cons_self⟩
        have hmac' := (hsame t mem_cons_self t' (mem_cons_of_mem _ ht')).2.2.1
        rw [← hmac, hmac', (hall t' ht').2.2.1]
      · intro hnone
        have hfirst : ∀ a ∈ t :: ts', a.clientIp = client.ip ∧ a.clientIdx = g.clientGen.curIdx ∧
            a.clientMac = none ∧ a.serverIp = g1.serverOf g1.cacheServerIp := by
          intro a ha
          rcases mem_cons.mp ha with rfl | ha
          · exact ⟨hip, hidx, hmac.trans hnone, hserver⟩
          · obtain ⟨h1, h2, h3, h4⟩ := hall a ha
            exact ⟨h1.trans hcip, h2.trans hcidx, h3, h4⟩
        intro a ha b hb
        obtain ⟨ha1, ha2, ha3, ha4⟩ := hfirst a ha
        obtain ⟨hb1, hb2, hb3, hb4⟩ := hfirst b hb
        exact ⟨ha1.trans hb1.symm, ha2.trans hb2.symm, ha3.trans hb3.symm, ha4.trans hb4.symm⟩

/-- **The tuples of a group have one client, one MAC address, one server and different ports** if
and only if the group has one flow or its client no MAC address, and the client tracks its ports or
has enough of them for the group. -/
theorem group_iff (hpool : g.clientGen.Reached) (hw : 1 ≤ g.w) (hcnt : g.cnt = 0)
    (hlen : calls.length = g.w) (h : g.generateTuples calls = .ok (ts, g')) :
    (OneClient ts ∧ DistinctPorts (ts.map (·.clientPort))) ↔
      ∃ client : CIpInfoBase, g.clientGen.ipInfo[g.clientGen.curIdx]? = some (some client) ∧
        (g.w = 1 ∨ client.mac = none) ∧ (IsTracked client.alloc ∨ g.w ≤ portSpan) := by
  obtain ⟨client, hclient, hports, hone, -, -⟩ := generateTuples_group hw hcnt hlen h
  rw [hports, hone, distinctPorts_iff (hpool.allNumbered _ _ hclient)]
  constructor
  · intro hboth
    exact ⟨client, hclient, hboth⟩
  · rintro ⟨client', hclient', hboth⟩
    rw [hclient] at hclient'
    cases hclient'
    exact hboth

/-- A template with two flows for every client, of which there is one, and what its calls are. -/
def pair (macInfo : MacInfo) (hasMacMap : Bool) : CTupleTemplateGeneratorSmart :=
  { clientGen :=
      { ipInfo := [some ⟨⟨0x10000001, .large .create⟩,
          if hasMacMap then macInfo 0x10000001 else none⟩]
        dist := .cdSEQ_DIST, tcpAging := 0, udpAging := 0 }
    serverGen := .simple 0x30000005 0x30000001 0x30000001
    w := 2, cnt := 0, serverIp := 0, cacheClientIp := 0, cacheClientIdx := 0, cacheServerIp := 0
    cacheServerIdx := 0, isSingleServer := false }

def pairCalls : List Call := [⟨⟨0, 0, 0, 0, none, 0, 0⟩, 0, 0⟩, ⟨⟨0, 0, 0, 0, none, 0, 0⟩, 0, 0⟩]

theorem chooseAlloc_one : chooseAlloc 1 0 0 = .large .create := by
  unfold chooseAlloc
  rw [if_pos (by simp)]

/-- A MAC address for every client. -/
def macFile : MacInfo := fun _ => some ⟨[0, 0, 0, 1, 0, 0]⟩

theorem pair_reached (hasMacMap : Bool) : (pair macFile hasMacMap).clientGen.Reached := by
  refine ⟨.cdSEQ_DIST, 0x10000001, 0x10000001, 0, 0, macFile, hasMacMap, 0, 0, _, ?_, .refl⟩
  unfold CClientPool.create
  rw [if_neg (by decide)]
  dsimp only
  rw [show ((0x10000001 : UInt32) - 0x10000001 + 1).toNat = 1 from rfl, chooseAlloc_one]
  cases hasMacMap <;> rfl

/-- Two flows of a client without a MAC address. -/
theorem group_iff_pair : ∃ ts g', (pair macFile false).generateTuples pairCalls = .ok (ts, g') ∧
    OneClient ts ∧
    DistinctPorts (ts.map (·.clientPort)) := by
  obtain ⟨ts, g', h⟩ : ∃ ts g', (pair macFile false).generateTuples pairCalls = .ok (ts, g') :=
    ⟨_, _, rfl⟩
  obtain ⟨hone, hports⟩ := (group_iff (pair_reached false) (by decide) rfl rfl h).mpr
    ⟨_, rfl, Or.inr rfl, Or.inr (by decide)⟩
  exact ⟨ts, g', h, hone, hports⟩

/-- **The second flow of a client loses the MAC address.** -/
theorem pair_loses_mac : (pair macFile true).clientGen.Reached ∧
    ∃ ts g', (pair macFile true).generateTuples pairCalls = .ok (ts, g') ∧ ¬ OneClient ts := by
  obtain ⟨ts, g', h⟩ : ∃ ts g', (pair macFile true).generateTuples pairCalls = .ok (ts, g') :=
    ⟨_, _, rfl⟩
  obtain ⟨client, hclient, -, hone, -, -⟩ := generateTuples_group (by decide) rfl rfl h
  cases hclient
  refine ⟨pair_reached true, ts, g', h, ?_⟩
  rw [hone]
  rintro (hw | hmac)
  · exact absurd hw (by decide)
  · cases hmac

end CTupleTemplateGeneratorSmart

end Trex.Tuple.Full
