/-
# The clients of the flows

`CFlowGenListPerThread::Create` (`bp_sim.cpp`) gives a thread its part of every pool of clients, and
every template a generator that takes the clients of its flows from one of the pools
(`tuple_gen.h`).  A client hands out its source ports by an allocator that tracks them (`CIpInfo`)
or by one that does not (`CIpInfoL`). `CClientPool::Create` chooses by the number of clients: the
second needs more clients than `longest_flow * total_cps / MAX_PORT`.

* the numbers that a random distribution draws are part of an event;
* the servers, the MAC addresses themselves and `m_active_alloc` are not read by the choice of a
  client or a port;
* `live` is what the program does not keep as such: the client ports that are in use by a flow, from
  `GenerateTuple` to `FreePort`, each with the number of ports that its client had handed out
  before; `given` counts these.
-/
import Mathlib.Algebra.Order.Ring.Rat
import Trex.Tuple.Port
import Trex.Tuple.Split

namespace Trex.Tuple

/-! ## 1. Pools -/

/-- `CIpInfoBase`: one of the two allocators. -/
inductive Alloc
  | tracked (c : CIpInfo)
  | large (c : CIpInfoL)

/-- `get_new_free_port` -/
def Alloc.getNewFreePort : Alloc → Nat × Alloc
  | .tracked c => ((c.getNewFreePort).1, .tracked (c.getNewFreePort).2)
  | .large c => ((c.getNewFreePort).1, .large (c.getNewFreePort).2)

/-- `return_port` -/
def Alloc.returnPort (port : Nat) : Alloc → Except PortFault Alloc
  | .tracked c => (c.returnPort port).map .tracked
  | .large c => .ok (.large (c.returnPort port))

/-- A client: `CClientInfo` or `CClientInfoL`. -/
structure CClientInfo where
  ip : UInt32
  alloc : Alloc

/-- `IP_DIST_t` -/
inductive IpDist
  | cdSEQ_DIST
  | cdRANDOM_DIST
  | cdNORMAL_DIST
deriving DecidableEq, Repr

/-- `CClientPool` -/
structure CClientPool where
  ipInfo : List CClientInfo
  dist : IpDist
  curIdx : Nat := 0
  portAllocationError : Nat := 0

/-- The allocator of every client of a pool. -/
def chooseAlloc (totalIp : Nat) (lFlow tCps : Rat) : Alloc :=
  if (totalIp : Rat) > lFlow * tCps / maxPort then .large .create else .tracked .create

/-- The addresses of a part. -/
def CIpPortion.addresses (portion : CIpPortion) : List UInt32 :=
  (List.range (portion.ipEnd.toNat - portion.ipStart.toNat + 1)).map fun idx =>
    portion.ipStart + UInt32.ofNat idx

/-- The addresses of a part that are in the file of the MAC addresses, when there is one. -/
def CIpPortion.known (portion : CIpPortion) (macs : Option (UInt32 → Bool)) : List UInt32 :=
  portion.addresses.filter fun ip => macs.all fun mac => mac ip

/-- `CClientPool::Create`, or its assertion fails.  There is a place for every known address, and
the client of an address is put at the offset of the address: it is past the last place when the
known addresses are not the first ones, and that is `none` as well. -/
def CClientPool.createPool (dist : IpDist) (portion : CIpPortion) (lFlow tCps : Rat)
    (macs : Option (UInt32 → Bool)) : Option CClientPool :=
  let totalIp := portion.ipEnd.toNat - portion.ipStart.toNat + 1
  if portion.ipEnd < portion.ipStart then none
  else if portion.addresses.take (portion.known macs).length = portion.known macs then
    some { ipInfo := (portion.known macs).map fun ip =>
      { ip, alloc := chooseAlloc totalIp lFlow tCps }, dist }
  else none

/-- `inc_cur_idx` -/
def CClientPool.incCurIdx (random : Nat) (pool : CClientPool) : CClientPool :=
  match pool.dist with
  | .cdRANDOM_DIST => { pool with curIdx := random % pool.ipInfo.length }
  | _ => { pool with curIdx := if pool.curIdx + 1 ≥ pool.ipInfo.length then 0 else pool.curIdx + 1 }

/-- `GenerateOnePort`: the port, or there is no such client. -/
def CClientPool.generateOnePort (idx : Nat) (pool : CClientPool) : Option (Nat × CClientPool) :=
  pool.ipInfo[idx]?.map fun client =>
    let port := client.alloc.getNewFreePort.1
    (port,
      { pool with
        ipInfo := pool.ipInfo.set idx { client with alloc := client.alloc.getNewFreePort.2 }
        portAllocationError :=
          if port = illegalPort then pool.portAllocationError + 1 else pool.portAllocationError })

/-! ## 2. A thread -/

/-- `CFlowGeneratorRec`: a template as it is loaded. -/
structure CFlowGeneratorRec where
  clientPoolIdx : Nat
  kCps : Rat
  w : Nat
  capFileLengthSec : Rat

/-- `CFlowGeneratorRecPerThread`, with its `CTupleTemplateGeneratorSmart`. -/
structure CFlowGeneratorRecPerThread where
  clientPoolIdx : Nat
  kCps : Rat
  w : Nat
  capFileLengthSec : Rat
  cnt : Nat := 0
  /-- `m_cache_client_idx` and `m_cache_client_ip`, when they were set. -/
  cacheClient : Option (Nat × UInt32) := none

/-- `get_longest_flow(pool_idx, true)` -/
def getLongestFlow (capGen : List CFlowGeneratorRecPerThread) (poolIdx : Nat) : Rat :=
  capGen.foldl (fun longest lp =>
    if lp.clientPoolIdx ≠ poolIdx then longest
    else if longest < lp.capFileLengthSec then lp.capFileLengthSec else longest) 0

/-- `get_total_kcps(pool_idx, true)` -/
def getTotalKcps (capGen : List CFlowGeneratorRecPerThread) (poolIdx : Nat) : Rat :=
  capGen.foldl (fun total lp => if lp.clientPoolIdx ≠ poolIdx then total else total + lp.kCps) 0

/-- What is in the YAML file and the options. -/
structure TupleConfig where
  clientPool : List (CTupleGenPoolYaml × IpDist)
  capGen : List CFlowGeneratorRec
  maxThreads : UInt32
  expectedDualPorts : UInt32
  macs : Option (UInt32 → Bool)

/-- A client port that is in use. -/
structure LiveTuple where
  pool : Nat
  idx : Nat
  ip : UInt32
  port : Nat
  serial : Nat
deriving DecidableEq

/-- `CFlowGenListPerThread`, as far as clients go. -/
structure TupleThread where
  clientPool : List CClientPool
  capGen : List CFlowGeneratorRecPerThread
  live : List LiveTuple
  given : Nat × Nat → Nat

/-- `init_from_global` -/
def initFromGlobal (cfg : TupleConfig) : List CFlowGeneratorRecPerThread :=
  cfg.capGen.map fun lp =>
    { clientPoolIdx := lp.clientPoolIdx, kCps := lp.kCps / cfg.maxThreads.toNat, w := lp.w
      capFileLengthSec := lp.capFileLengthSec }

/-- The loop of `CFlowGenListPerThread::Create` over the pools. -/
def addClientPools (cfg : TupleConfig) (threadId : UInt32)
    (capGen : List CFlowGeneratorRecPerThread) :
    Nat → List (CTupleGenPoolYaml × IpDist) → Option (List CClientPool)
  | _, [] => some []
  | i, (pool, dist) :: rest =>
    (splitIps threadId cfg.maxThreads (getDualPortId cfg.expectedDualPorts threadId) pool).bind
        fun portion =>
      (CClientPool.createPool dist portion (getLongestFlow capGen i) (getTotalKcps capGen i * 1000)
          cfg.macs).bind fun clients =>
        (addClientPools cfg threadId capGen (i + 1) rest).map fun pools => clients :: pools

/-- `CFlowGenListPerThread::Create`.  `m_cap_gen` is empty until `init_from_global`, which is called
after the pools were made. -/
def createThread (cfg : TupleConfig) (threadId : UInt32) : Option TupleThread :=
  let mCapGen : List CFlowGeneratorRecPerThread := []
  (addClientPools cfg threadId mCapGen 0 cfg.clientPool).map fun clientPool =>
    { clientPool, capGen := initFromGlobal cfg, live := [], given := fun _ => 0 }

namespace TupleThread

/-- A port of the client `idx` of the pool `i`. -/
def takePort (s : TupleThread) (i idx : Nat) (ip : UInt32) : Option TupleThread :=
  s.clientPool[i]?.bind fun pool =>
    (pool.generateOnePort idx).map fun r =>
      { s with
        clientPool := s.clientPool.set i r.2
        live := ⟨i, idx, ip, r.1, s.given (i, idx)⟩ :: s.live
        given := Function.update s.given (i, idx) (s.given (i, idx) + 1) }

/-- `m_cnt++` -/
def nextCnt (lp : CFlowGeneratorRecPerThread) : Nat :=
  if lp.w = 1 then lp.cnt else if lp.cnt + 1 ≥ lp.w then 0 else lp.cnt + 1

/-- `CTupleTemplateGeneratorSmart::GenerateTuple` of the template `k`: a new client, or the one of
the last tuple. -/
def generateTuple (s : TupleThread) (k random : Nat) : Option TupleThread :=
  s.capGen[k]?.bind fun lp =>
    if lp.w = 1 ∨ lp.cnt = 0 then
      s.clientPool[lp.clientPoolIdx]?.bind fun pool =>
        pool.ipInfo[pool.curIdx]?.bind fun client =>
          { s with
            clientPool := s.clientPool.set lp.clientPoolIdx (pool.incCurIdx random)
            capGen := s.capGen.set k
              { lp with cnt := nextCnt lp, cacheClient := some (pool.curIdx, client.ip) } }.takePort
            lp.clientPoolIdx pool.curIdx client.ip
    else
      lp.cacheClient.bind fun cache =>
        { s with capGen := s.capGen.set k { lp with cnt := nextCnt lp } }.takePort
          lp.clientPoolIdx cache.1 cache.2

/-- `GenerateOneSourcePort`: a plugin takes another port for the client of the last tuple. -/
def generateOneSourcePort (s : TupleThread) (k : Nat) : Option TupleThread :=
  s.capGen[k]?.bind fun lp => lp.cacheClient.bind fun cache =>
    s.takePort lp.clientPoolIdx cache.1 cache.2

/-- `FreePort`: the port of the `n`-th live tuple is returned. -/
def freePort (s : TupleThread) (n : Nat) : Option TupleThread :=
  s.live[n]?.bind fun f =>
    s.clientPool[f.pool]?.bind fun pool =>
      pool.ipInfo[f.idx]?.bind fun client =>
        (client.alloc.returnPort f.port).toOption.map fun alloc =>
          { s with
            clientPool := s.clientPool.set f.pool { pool with
                ipInfo := pool.ipInfo.set f.idx { client with alloc } }
            live := s.live.eraseIdx n }

/-- What happens to the ports of a thread. -/
inductive Event
  | generate (k random : Nat)
  | onePort (k : Nat)
  | free (n : Nat)
deriving DecidableEq, Repr

/-- One event, or it is undefined. -/
def step (s : TupleThread) : Event → Option TupleThread
  | .generate k random => s.generateTuple k random
  | .onePort k => s.generateOneSourcePort k
  | .free n => s.freePort n

/-- The client that the next port is taken from. -/
def target (s : TupleThread) : Event → Option (Nat × Nat)
  | .generate k _ =>
    s.capGen[k]?.bind fun lp =>
      if lp.w = 1 ∨ lp.cnt = 0 then s.clientPool[lp.clientPoolIdx]?.map fun pool =>
        (lp.clientPoolIdx, pool.curIdx)
      else lp.cacheClient.map fun cache => (lp.clientPoolIdx, cache.1)
  | .onePort k => s.capGen[k]?.bind fun lp => lp.cacheClient.map fun cache =>
      (lp.clientPoolIdx, cache.1)
  | .free _ => none

/-- The tuples that are in use. -/
def tuples (s : TupleThread) : List (UInt32 × Nat) := s.live.map fun f => (f.ip, f.port)

/-- The states that the events of a run reach. -/
inductive ReachableBy (cfg : TupleConfig) (threadId : UInt32)
    (allowed : TupleThread → Event → Prop) :
    TupleThread → Prop
  | create {s : TupleThread} : createThread cfg threadId = some s →
      ReachableBy cfg threadId allowed s
  | step {s s' : TupleThread} {e : Event} : ReachableBy cfg threadId allowed s → allowed s e →
      s.step e = some s' → ReachableBy cfg threadId allowed s'

end TupleThread

end Trex.Tuple
