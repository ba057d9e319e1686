/-
# Pools of clients with their MAC addresses and counters

`CClientPool` and `CServerPool` are `CIpPool`s (`tuple_gen.h`): a vector of pointers to the clients
or servers, the index of the next one, and the counters of the ports that are in use and of the
failures. `CClientPool::Create` (`tuple_gen.cpp`) fills the vector.  `Tuple.Pool` has the clients
and their ports only; section 6 says that it is this pool without the rest.

* a pointer that is not set is `none`, and to follow it, or to go past the end of the vector, is a
  fault;
* a random distribution draws a number that is part of the call;
* `m_client_mac` of a tuple is `none` while it is `UNUSED`;
* the counters are 32-bit.
-/
import Trex.Tuple.Pool

namespace Trex.Tuple.Full

open List

/-! ## 1. Tuples -/

/-- `mac_addr_align_t`, when it is in use. -/
structure MacAddr where
  mac : List UInt8
deriving DecidableEq, Repr

/-- `CTupleBase` -/
structure CTupleBase where
  clientIp : UInt32
  clientIdx : Nat
  serverIp : UInt32
  serverIdx : Nat
  clientMac : Option MacAddr
  clientPort : Nat
  serverPort : Nat
deriving DecidableEq, Repr

namespace CTupleBase

/-- The constructor: the MAC address is unused, the other fields hold what was in the memory. -/
def create (memory : CTupleBase) : CTupleBase := { memory with clientMac := none }

/-- `setClientTuple` -/
def setClientTuple (ip : UInt32) (mac : Option MacAddr) (port : Nat) (t : CTupleBase) :
    CTupleBase :=
  { t with clientIp := ip, clientMac := mac, clientPort := port }

/-- `setClientId` -/
def setClientId (id : Nat) (t : CTupleBase) : CTupleBase := { t with clientIdx := id }

/-- `setClientAll2` -/
def setClientAll2 (id : Nat) (ip : UInt32) (port : Nat) (t : CTupleBase) : CTupleBase :=
  { t with clientIdx := id, clientIp := ip, clientPort := port }

/-- `setServer` -/
def setServer (ip : UInt32) (t : CTupleBase) : CTupleBase := { t with serverIp := ip }

/-- `setServerAll` -/
def setServerAll (id : Nat) (ip : UInt32) (t : CTupleBase) :
    CTupleBase := { t with serverIdx := id, serverIp := ip }

end CTupleBase

/-! ## 2. Pools -/

/-- What goes wrong in a pool: an index past the end, a pointer that is not set, an assertion of
`return_port`, or `max_ip < min_ip`. -/
inductive PoolFault
  | badIndex
  | nullPointer
  | port (fault : PortFault)
  | badRange
deriving DecidableEq, Repr

/-- `CIpInfoBase`: the address and the ports, and the MAC address of a client that was made with
one. -/
structure CIpInfoBase extends CClientInfo where
  mac : Option MacAddr

/-- `CIpPool` -/
structure CIpPool where
  ipInfo : List (Option CIpInfoBase)
  dist : IpDist
  curIdx : Nat := 0
  activeAlloc : UInt32 := 0
  portAllocationError : UInt32 := 0

/-- `get_new_free_port` -/
def CIpInfoBase.getNewFreePort (info : CIpInfoBase) : Nat × CIpInfoBase :=
  (info.alloc.getNewFreePort.1, { info with alloc := info.alloc.getNewFreePort.2 })

/-- `return_port` -/
def CIpInfoBase.returnPort (port : Nat) (info : CIpInfoBase) : Except PortFault CIpInfoBase :=
  (info.alloc.returnPort port).map fun alloc => { info with alloc }

namespace CIpPool

/-- `m_ip_info[idx]`, as it is used. -/
def info (idx : Nat) (pool : CIpPool) : Except PoolFault CIpInfoBase :=
  match pool.ipInfo[idx]? with
  | none => .error .badIndex
  | some none => .error .nullPointer
  | some (some info) => .ok info

/-- `inc_cur_idx` -/
def incCurIdx (random : Nat) (pool : CIpPool) : CIpPool :=
  match pool.dist with
  | .cdRANDOM_DIST => { pool with curIdx := random % pool.ipInfo.length }
  | _ => { pool with curIdx := if pool.curIdx + 1 ≥ pool.ipInfo.length then 0 else pool.curIdx + 1 }

/-- `generate_ip` -/
def generateIp (random : Nat) (pool : CIpPool) :
    Nat × CIpPool := (pool.curIdx, pool.incCurIdx random)

/-- The counters after a port was asked for. -/
def countPort (port : Nat) (pool : CIpPool) : CIpPool :=
  { pool with
    portAllocationError := if port = illegalPort then pool.portAllocationError + 1
      else pool.portAllocationError
    activeAlloc := pool.activeAlloc + 1 }

/-- `GenerateOnePort` -/
def generateOnePort (idx : Nat) (pool : CIpPool) : Except PoolFault (Nat × CIpPool) := do
  let ipInfo ← pool.info idx
  let port := ipInfo.getNewFreePort.1
  let pool := { pool with ipInfo := pool.ipInfo.set idx (some ipInfo.getNewFreePort.2) }
  return (port, pool.countPort port)

/-- `FreePort` -/
def freePort (id port : Nat) (pool : CIpPool) : Except PoolFault CIpPool := do
  let pool := { pool with activeAlloc := pool.activeAlloc - 1 }
  let client ← pool.info id
  let client ← (client.returnPort port).mapError .port
  return { pool with ipInfo := pool.ipInfo.set id (some client) }

/-- `return_all_ports` -/
def returnAllPorts (pool : CIpPool) : CIpPool :=
  { pool with
    ipInfo := pool.ipInfo.map fun entry => entry.map fun info =>
      { info with
        alloc := match info.alloc with
          | .tracked c => .tracked c.returnAllPorts
          | .large c => .large c.returnAllPorts } }

/-- `CreateBase` -/
def createBase (ipInfo : List (Option CIpInfoBase)) (dist : IpDist) : CIpPool := { ipInfo, dist }

end CIpPool

/-- `CClientPool` -/
structure CClientPool extends CIpPool where
  tcpAging : UInt16
  udpAging : UInt16

/-- `CClientPool::GenerateTuple` -/
def CClientPool.generateTuple (random : Nat) (tuple : CTupleBase) (pool : CClientPool) :
    Except PoolFault (CTupleBase × CClientPool) := do
  let (idx, next) := pool.generateIp random
  let ipInfo ← next.info idx
  let port := ipInfo.getNewFreePort.1
  let tuple := (tuple.setClientTuple ipInfo.ip ipInfo.mac port).setClientId idx
  let next := { next with ipInfo := next.ipInfo.set idx (some ipInfo.getNewFreePort.2) }
  return (tuple, { pool with toCIpPool := next.countPort port })

/-! ## 3. `CClientPool::Create` -/

section Create

/-- `get_mac_addr_by_ip` -/
abbrev MacInfo := UInt32 → Option MacAddr

variable (macInfo : MacInfo) (minIp : UInt32)

/-- The address with the index `idx`. -/
def addressOf (idx : Nat) : UInt32 := minIp + UInt32.ofNat idx

/-- `avail_ip` after `n` turns of the first loop. -/
def availIp (totalIp : Nat) : Nat → Nat
  | 0 => totalIp
  | n + 1 => if (macInfo (addressOf minIp n)).isNone then availIp totalIp n - 1
      else availIp totalIp n

/-- One turn of the loops that make the clients.  Without a MAC file every address has a client. -/
def placeClient (hasMacMap : Bool) (alloc : Alloc) (idx : Nat)
    (ipInfo : List (Option CIpInfoBase)) :
    Except PoolFault (List (Option CIpInfoBase)) :=
  let mac := macInfo (addressOf minIp idx)
  if hasMacMap && mac.isNone then .ok ipInfo
  else if ipInfo.length ≤ idx then .error .badIndex
  else .ok (ipInfo.set idx (some { ip := addressOf minIp idx, alloc, mac := if hasMacMap then mac
    else none }))

/-- The vector after `n` turns. -/
def placeClients (hasMacMap : Bool) (alloc : Alloc) (size : Nat) :
    Nat → Except PoolFault (List (Option CIpInfoBase))
  | 0 => .ok (List.replicate size none)
  | n + 1 => (placeClients hasMacMap alloc size n).bind
      (placeClient macInfo minIp hasMacMap alloc n)

/-- The size of the vector. -/
def vectorSize (hasMacMap : Bool) (totalIp : Nat) : Nat :=
  let avail := if hasMacMap then availIp macInfo minIp totalIp totalIp else totalIp
  if avail ≠ 0 then avail else totalIp

end Create

/-- `CClientPool::Create` -/
def CClientPool.create (dist : IpDist) (minIp maxIp : UInt32) (lFlow tCps : Rat) (macInfo : MacInfo)
    (hasMacMap : Bool) (tcpAging udpAging : UInt16) : Except PoolFault CClientPool :=
  if maxIp < minIp then .error .badRange
  else do
    let totalIp := (maxIp - minIp + 1).toNat
    let ipInfo ← placeClients macInfo minIp hasMacMap (chooseAlloc totalIp lFlow tCps)
      (vectorSize macInfo minIp hasMacMap totalIp) totalIp
    return { toCIpPool := CIpPool.createBase ipInfo dist, tcpAging, udpAging }

/-! ## 4. What the operations do -/

namespace CIpPool

variable {pool pool' : CIpPool} {idx port : Nat}

theorem info_eq_ok {info : CIpInfoBase} :
    pool.info idx = .ok info ↔ pool.ipInfo[idx]? = some (some info) := by
  unfold CIpPool.info
  split
  · rename_i hidx
    simp [hidx]
  · rename_i hidx
    simp [hidx]
  · rename_i info' hidx
    simp [hidx]

theorem generateOnePort_eq_ok :
    pool.generateOnePort idx = .ok (port, pool') ↔ ∃ info, pool.ipInfo[idx]? = some (some info) ∧
      port = info.getNewFreePort.1 ∧
      pool' = { pool with ipInfo := pool.ipInfo.set idx (some info.getNewFreePort.2) }.countPort
          port := by
  unfold generateOnePort
  constructor
  · intro h
    cases hinfo : pool.info idx with
    | error f =>
      rw [hinfo] at h
      cases h
    | ok info =>
      rw [hinfo] at h
      cases h
      exact ⟨info, info_eq_ok.mp hinfo, rfl, rfl⟩
  · rintro ⟨info, hinfo, rfl, rfl⟩
    rw [info_eq_ok.mpr hinfo]
    rfl

theorem freePort_eq_ok :
    pool.freePort idx port = .ok pool' ↔ ∃ info info', pool.ipInfo[idx]? = some (some info) ∧
      info.returnPort port = .ok info' ∧
      pool' = { pool with activeAlloc := pool.activeAlloc - 1,
                          ipInfo := pool.ipInfo.set idx (some info') } := by
  have hdef : pool.freePort idx port = (pool.info idx).bind fun client =>
      ((client.returnPort port).mapError .port).bind fun client =>
        .ok { pool with activeAlloc := pool.activeAlloc - 1,
                        ipInfo := pool.ipInfo.set idx (some client) } := rfl
  rw [hdef]
  constructor
  · intro h
    cases hinfo : pool.info idx with
    | error f =>
      rw [hinfo] at h
      cases h
    | ok info =>
      cases hret : info.returnPort port with
      | error f =>
        rw [hinfo, Except.bind, hret] at h
        cases h
      | ok info' =>
        rw [hinfo, Except.bind, hret] at h
        cases h
        exact ⟨info, info', info_eq_ok.mp hinfo, hret, rfl⟩
  · rintro ⟨info, info', hinfo, hret, rfl⟩
    rw [info_eq_ok.mpr hinfo]
    rw [Except.bind, hret]
    rfl

@[simp] theorem incCurIdx_ipInfo (random : Nat) (pool : CIpPool) :
    (pool.incCurIdx random).ipInfo = pool.ipInfo := by
  unfold incCurIdx
  split <;> rfl

/-- The next index is in the vector. -/
theorem incCurIdx_curIdx_lt (random : Nat) (h : pool.ipInfo ≠ []) :
    (pool.incCurIdx random).curIdx < pool.ipInfo.length := by
  have hpos := length_pos_iff.mpr h
  unfold incCurIdx
  split
  · exact Nat.mod_lt _ hpos
  · dsimp only
    split
    · exact hpos
    · omega

end CIpPool

/-- What `GenerateTuple` does: it asks the client with the present index for a port. -/
theorem CClientPool.generateTuple_eq_ok {random : Nat} {tuple tuple' : CTupleBase}
    {pool pool' : CClientPool} :
    pool.generateTuple random tuple = .ok (tuple', pool') ↔
      ∃ info, pool.ipInfo[pool.curIdx]? = some (some info) ∧
      tuple' = (tuple.setClientTuple info.ip info.mac info.getNewFreePort.1).setClientId
        pool.curIdx ∧
      pool' = { pool with
        toCIpPool := { pool.toCIpPool.incCurIdx random with
          ipInfo := pool.ipInfo.set pool.curIdx (some info.getNewFreePort.2) }.countPort
              info.getNewFreePort.1 } := by
  have hsame : ∀ info, (pool.toCIpPool.incCurIdx random).info pool.curIdx = .ok info ↔
      pool.ipInfo[pool.curIdx]? = some (some info) := by
    intro info
    rw [CIpPool.info_eq_ok, CIpPool.incCurIdx_ipInfo]
  unfold CClientPool.generateTuple CIpPool.generateIp
  constructor
  · intro h
    dsimp only at h
    cases hinfo : (pool.toCIpPool.incCurIdx random).info pool.curIdx with
    | error f =>
      rw [hinfo] at h
      cases h
    | ok info =>
      rw [hinfo] at h
      cases h
      exact ⟨info, (hsame info).mp hinfo, rfl, by rw [CIpPool.incCurIdx_ipInfo]⟩
  · rintro ⟨info, hinfo, rfl, rfl⟩
    dsimp only
    rw [(hsame info).mpr hinfo]
    simp only [← CIpPool.incCurIdx_ipInfo random pool.toCIpPool]
    rfl

/-! ## 5. The pool afterwards -/

/-- **The pools that a pool becomes**: clients give ports and take them back. -/
inductive CClientPool.Later (pool : CClientPool) : CClientPool → Prop
  | refl : Later pool pool
  | generate {p p' : CClientPool} {random : Nat} {tuple tuple' : CTupleBase} : Later pool p →
      p.generateTuple random tuple = .ok (tuple', p') → Later pool p'
  | onePort {p : CClientPool} {p' : CIpPool} {idx port : Nat} : Later pool p →
      p.generateOnePort idx = .ok (port, p') → Later pool { p with toCIpPool := p' }
  | free {p : CClientPool} {p' : CIpPool} {idx port : Nat} : Later pool p →
      p.freePort idx port = .ok p' → Later pool { p with toCIpPool := p' }
  | returnAll {p : CClientPool} : Later pool p →
      Later pool { p with toCIpPool := p.toCIpPool.returnAllPorts }

theorem CClientPool.Later.trans {pool p p' : CClientPool} (h : Later pool p) (h' : Later p p') :
    Later pool p' := by
  induction h' with
  | refl => exact h
  | generate _ hgen ih => exact .generate ih hgen
  | onePort _ hone ih => exact .onePort ih hone
  | free _ hfree ih => exact .free ih hfree
  | returnAll _ ih => exact .returnAll ih

/-- Every place of the vector has a client, and the next index is in the vector. -/
structure CIpPool.Populated (pool : CIpPool) : Prop where
  filled : ∀ i < pool.ipInfo.length, ∃ info, pool.ipInfo[i]? = some (some info)
  curIdx_lt : pool.curIdx < pool.ipInfo.length

namespace CIpPool.Populated

variable {pool : CIpPool}

theorem ne_nil (h : pool.Populated) : pool.ipInfo ≠ [] := by
  intro hnil
  have := h.curIdx_lt
  rw [hnil] at this
  cases this

/-- A client that is put in the place of another one. -/
theorem set (h : pool.Populated) (idx : Nat) (info : CIpInfoBase) (i : Nat)
    (hi : i < (pool.ipInfo.set idx (some info)).length) :
    ∃ info', (pool.ipInfo.set idx (some info))[i]? = some (some info') := by
  rw [length_set] at hi
  by_cases hidx : idx = i
  · subst hidx
    exact ⟨info, List.getElem?_set_self hi⟩
  · rw [List.getElem?_set_ne hidx]
    exact h.filled i hi

end CIpPool.Populated

theorem CClientPool.Later.populated {pool p : CClientPool} (h : Later pool p)
    (hpool : pool.Populated) :
    p.Populated := by
  induction h with
  | refl => exact hpool
  | generate _ hgen ih =>
    obtain ⟨info, -, -, rfl⟩ := CClientPool.generateTuple_eq_ok.mp hgen
    refine ⟨ih.set _ _, ?_⟩
    show (CIpPool.incCurIdx _ _).curIdx < (List.set _ _ _).length
    rw [length_set]
    exact CIpPool.incCurIdx_curIdx_lt _ ih.ne_nil
  | onePort _ hone ih =>
    obtain ⟨info, -, -, rfl⟩ := CIpPool.generateOnePort_eq_ok.mp hone
    refine ⟨ih.set _ _, ?_⟩
    show _ < (List.set _ _ _).length
    rw [length_set]
    exact ih.curIdx_lt
  | free _ hfree ih =>
    obtain ⟨info, info', -, -, rfl⟩ := CIpPool.freePort_eq_ok.mp hfree
    refine ⟨ih.set _ _, ?_⟩
    show _ < (List.set _ _ _).length
    rw [length_set]
    exact ih.curIdx_lt
  | @returnAll p _ ih =>
    refine ⟨?_, ?_⟩
    · intro i hi
      have hi' : i < p.ipInfo.length := by
        rwa [CIpPool.returnAllPorts, length_map] at hi
      obtain ⟨info, hinfo⟩ := ih.filled i hi'
      exact ⟨_, by rw [CIpPool.returnAllPorts, List.getElem?_map, hinfo]; rfl⟩
    · show p.curIdx < (List.map _ _).length
      rw [length_map]
      exact ih.curIdx_lt

/-! ## 6. The pool without the rest -/

/-- **A pool of `Tuple.Pool` that has the clients of this one**: every pointer is set, and the MAC
addresses and the ports in use are left out. -/
structure CIpPool.Forgets (pool : CIpPool) (p : Tuple.CClientPool) : Prop where
  ipInfo : pool.ipInfo.map (Option.map CIpInfoBase.toCClientInfo) = p.ipInfo.map some
  dist : pool.dist = p.dist
  curIdx : pool.curIdx = p.curIdx
  portAllocationError : pool.portAllocationError = UInt32.ofNat p.portAllocationError

namespace CIpPool.Forgets

variable {pool pool' : CIpPool} {p : Tuple.CClientPool} {idx port random : Nat}

theorem length (h : pool.Forgets p) : pool.ipInfo.length = p.ipInfo.length := by
  have hlen := congrArg List.length h.ipInfo
  rwa [length_map, length_map] at hlen

theorem info (h : pool.Forgets p) {info : CIpInfoBase}
    (hidx : pool.ipInfo[idx]? = some (some info)) :
    p.ipInfo[idx]? = some info.toCClientInfo := by
  have hget := congrArg (fun l => l[idx]?) h.ipInfo
  rw [List.getElem?_map, List.getElem?_map, hidx] at hget
  obtain ⟨client, hclient, heq⟩ := Option.map_eq_some_iff.mp hget.symm
  cases heq
  exact hclient

theorem incCurIdx (h : pool.Forgets p) : (pool.incCurIdx random).Forgets (p.incCurIdx random) := by
  unfold CIpPool.incCurIdx Tuple.CClientPool.incCurIdx
  rw [← h.dist, ← h.length, ← h.curIdx]
  cases hdist : pool.dist <;> exact ⟨h.ipInfo, rfl, rfl, h.portAllocationError⟩

/-- A port of the pool is the port of the pool without the rest. -/
theorem generateOnePort (h : pool.Forgets p) (hone : pool.generateOnePort idx = .ok (port, pool')) :
    ∃ p', p.generateOnePort idx = some (port, p') ∧ pool'.Forgets p' := by
  obtain ⟨info, hidx, rfl, rfl⟩ := generateOnePort_eq_ok.mp hone
  refine ⟨{ p with
      ipInfo := p.ipInfo.set idx { info.toCClientInfo with alloc := info.alloc.getNewFreePort.2 }
      portAllocationError :=
        if info.alloc.getNewFreePort.1 = illegalPort then p.portAllocationError + 1
          else p.portAllocationError },
    ?_, ?_, h.dist, h.curIdx, ?_⟩
  · rw [Tuple.CClientPool.generateOnePort, h.info hidx]
    rfl
  · show (pool.ipInfo.set idx _).map _ = (p.ipInfo.set idx _).map some
    rw [map_set, map_set, h.ipInfo]
    rfl
  · show (if info.alloc.getNewFreePort.1 = illegalPort then pool.portAllocationError + 1
        else pool.portAllocationError) = UInt32.ofNat (if info.alloc.getNewFreePort.1 = illegalPort
            then
          p.portAllocationError + 1 else p.portAllocationError)
    split
    · rw [h.portAllocationError, UInt32.ofNat_add]
      rfl
    · exact h.portAllocationError

end CIpPool.Forgets

end Trex.Tuple.Full
