/-
# The thread maps, the sockets and the core mask of the platform section

`CPlatformSocketInfoConfig::init` (`bp_sim.cpp`) reads the platform section of the configuration
file: it fills the maps between physical and virtual threads, marks the sockets of the pairs of
ports, and checks the ids. `get_cores_mask` then builds the mask of the threads that are used.

* The maps are those of `Trex.Cfg.Launch`; the arrays of the sockets are added here.
  `m_sockets_enabled`, the count that only `dump` prints, is left out.
* An index outside of an array or of a vector, and a shift of an `int` by 32 or more, has no
  meaning; the run stops there with `Refused.undefined`.  No check refuses it, so such a
  configuration counts as accepted.
* `1 << 31` is the least `int`, and is extended with its sign to the 64 bits of the mask.
* `platform_iff` says which of the accepted configurations have right maps, sockets and masks.
-/
import Mathlib.Data.BitVec
import Trex.Cfg.Launch

namespace Trex.Cfg

open Trex.Lib List
open Function (update update_of_ne update_self)

/-- `MAX_LATENCY_PORTS`. -/
def maxLatencyPorts : Nat := 12

/-! ## 1. The functions -/

/-- `CPlatformSocketInfoConfig` with the arrays of the sockets. -/
structure CPlatformSockets extends CPlatformSocketInfoConfig where
  socketsEnable : Nat → Bool := fun _ => false
  socketPerDualIf : Nat → Nat := fun _ => 0

/-- `mask |= (1 << i)`: the shift is one of `int`. -/
def setCore (mask : BitVec 64) (i : Nat) : Except Refused (BitVec 64) :=
  if i < 32 then .ok (mask ||| ((1#32 <<< i).signExtend 64)) else .error .undefined

namespace CPlatformSockets

/-- `Create` and `reset`, then the three setters, whose arguments are bytes. -/
def create (platform : CPlatformCoresYamlInfo) (numDualPorts numThreads : UInt8) (enable : Bool) :
    CPlatformSockets :=
  { platform, numDualIf := numDualPorts.toNat, threadsPerDualIf := numThreads.toNat,
    latencyIsEnabled := enable }

/-- The outer loop of `init`: the socket of pair `i`, then its threads. -/
def initDualIf (s : CPlatformSockets) (i : Nat) : Except Refused CPlatformSockets := do
  match s.platform.dualIf[i]? with
  | none => .error .undefined
  | some lp =>
    refuseIf (lp.socket ≥ maxSocketsSupported) (.socketTooBig lp.socket)
    -- `m_socket_per_dual_if` has an entry for each pair of `MAX_LATENCY_PORTS`
    refuseIf (maxLatencyPorts / 2 ≤ i) .undefined
    let c ← s.toCPlatformSocketInfoConfig.initDualIf i
    .ok { c with
      socketsEnable := update s.socketsEnable lp.socket true
      socketPerDualIf := update s.socketPerDualIf i lp.socket }

/-- `CPlatformSocketInfoConfig::init`, which is also its `sanity_check`. -/
def init (s : CPlatformSockets) : Except Refused CPlatformSockets := do
  let s ← (List.range s.numDualIf).foldlM initDualIf s
  let master := s.platform.masterThread
  let latency := s.platform.latencyThread
  refuseIf (maxThreadsSupported ≤ master) .undefined
  refuseIf (s.threadPhyToVirtual master ≠ 0) (.masterDefined master)
  refuseIf (maxThreadsSupported ≤ latency) .undefined
  refuseIf (s.threadPhyToVirtual latency ≠ 0) (.latencyDefined latency)
  refuseIf (s.maxThreadsPerDualIf < s.threadsPerDualIf)
    (.threadsAsked s.threadsPerDualIf s.maxThreadsPerDualIf)
  .ok s

/-- `CPlatformSocketInfoConfig::is_sockets_enable`: the bound is an assertion. -/
def isSocketsEnable (s : CPlatformSockets) (socket : Nat) : Except Refused Bool := do
  refuseIf (maxSocketsSupported ≤ socket) (.socketTooBig socket)
  .ok (s.socketsEnable socket)

/-- `CPlatformSocketInfoConfig::port_to_socket`. -/
def portToSocket (s : CPlatformSockets) (port : Nat) : Except Refused Nat := do
  refuseIf (maxLatencyPorts / 2 ≤ port / 2) .undefined
  .ok (s.socketPerDualIf (port / 2))

/-- `CPlatformSocketInfoConfig::thread_virt_to_phy`. -/
def threadVirtToPhys (s : CPlatformSockets) (virtId : Nat) : Except Refused Nat := do
  refuseIf (maxThreadsSupported ≤ virtId) .undefined
  .ok (s.threadVirtToPhy virtId)

/-- The loop of `get_cores_mask`: physical thread `i`. -/
def maskThread (s : CPlatformSockets) (mask : BitVec 64) (i : Nat) : Except Refused (BitVec 64) :=
  if s.threadPhyToVirtual i ≠ 0 then do
    refuseIf (64 ≤ i) .physicalOver64
    setCore mask i
  else .ok mask

/-- `CPlatformSocketInfoConfig::get_cores_mask`.  The assertions come after the shifts. -/
def getCoresMask (s : CPlatformSockets) : Except Refused (BitVec 64) := do
  let mask ← (List.range maxThreadsSupported).foldlM s.maskThread 0#64
  let mask ← setCore mask s.platform.masterThread
  refuseIf (64 ≤ s.platform.masterThread) .masterOver64
  if s.latencyIsEnabled then do
    let mask ← setCore mask s.platform.latencyThread
    refuseIf (64 ≤ s.platform.latencyThread) .latencyOver64
    .ok mask
  else .ok mask

end CPlatformSockets

/-! ## 2. What is to hold -/

section Purpose

variable (platform : CPlatformCoresYamlInfo) (numDualPorts numThreads : UInt8) (enable : Bool)

/-- No check of `init` refuses the configuration. -/
def Accepted : Prop :=
  ∀ e, (CPlatformSockets.create platform numDualPorts numThreads enable).init = .error e →
    e = .undefined

/-- The physical threads that are to run: the workers, the master and, if it is enabled, the latency
thread. -/
def enabledThreads : List Nat :=
  platform.workerThreads numDualPorts.toNat numThreads.toNat ++ platform.masterThread ::
    if enable then [platform.latencyThread] else []

/-- What the tables and the mask that `init` leaves are for. -/
structure PlatformRight (s : CPlatformSockets) : Prop where
  /-- Each virtual thread has a physical one, which is mapped back and neither the master nor the
  latency thread. -/
  virtual : ∀ virt, 1 ≤ virt → virt ≤ numThreads.toNat * numDualPorts.toNat →
    ∃ phy, s.threadVirtToPhys virt = .ok phy ∧ s.threadPhyToVirt phy = .ok virt ∧
      phy ≠ platform.masterThread ∧ phy ≠ platform.latencyThread
  /-- Each physical thread that has a virtual one is mapped back from it. -/
  physical : ∀ phy virt, s.threadPhyToVirt phy = .ok virt → virt ≠ 0 →
    1 ≤ virt ∧ virt ≤ numThreads.toNat * numDualPorts.toNat ∧ s.threadVirtToPhys virt = .ok phy
  /-- The pools of socket 0 and of the sockets of the ports are created. -/
  socketZero : s.isSocketsEnable 0 = .ok true
  socketPort : ∀ port, port < 2 * numDualPorts.toNat →
    ∃ socket, s.portToSocket port = .ok socket ∧ s.isSocketsEnable socket = .ok true
  /-- If 64 bits are enough for the threads, the mask has their bits and no others. -/
  mask : (∀ k ∈ enabledThreads platform numDualPorts numThreads enable, k < 64) →
    ∃ mask, s.getCoresMask = .ok mask ∧
      ∀ k, mask.getLsbD k = true ↔ k ∈ enabledThreads platform numDualPorts numThreads enable

/-- `init` uses no index outside of its array, and what it leaves is right. -/
def RunsRight : Prop :=
  ∃ s, (CPlatformSockets.create platform numDualPorts numThreads enable).init = .ok s ∧
    PlatformRight platform numDualPorts numThreads enable s

/-- When that is so. -/
structure Fits : Prop where
  /-- The configuration has the pairs and the threads that are asked for. -/
  pairs : numDualPorts.toNat ≤ platform.dualIf.length
  threads : ∀ lp ∈ platform.dualIf.take numDualPorts.toNat, numThreads.toNat ≤ lp.threads.length
  /-- The arrays are long enough. -/
  sockets : numDualPorts.toNat ≤ maxLatencyPorts / 2
  physical : ∀ k ∈ platform.workerThreads numDualPorts.toNat numThreads.toNat,
    k < maxThreadsSupported
  virtual : numDualPorts.toNat * numThreads.toNat < maxThreadsSupported
  master : platform.masterThread < maxThreadsSupported
  latency : platform.latencyThread < maxThreadsSupported
  /-- A pair that is used is on socket 0. -/
  socketZero : ∃ lp ∈ platform.dualIf.take numDualPorts.toNat, lp.socket = 0
  /-- If 64 bits are enough for the threads, 31 are. -/
  mask : (∀ k ∈ enabledThreads platform numDualPorts numThreads enable, k < 64) →
    ∀ k ∈ enabledThreads platform numDualPorts numThreads enable, k < 31

end Purpose

/-! ## 3. One turn of the loops -/

namespace CPlatformSocketInfoConfig

variable {s s' s0 : CPlatformSocketInfoConfig} {i j : Nat} {lp : CPlatformDualIfYamlInfo}

/-- What numbering a thread does, and what it needs. -/
theorem initThread_eq_ok (h : initThread i lp s j = .ok s') :
    ∃ thread, lp.threads[j]? = some thread ∧ thread.toNat < maxThreadsSupported ∧
      (1 + i + j * s.numDualIf) % 256 < maxThreadsSupported ∧
        s.threadPhyToVirtual thread.toNat = 0 ∧
      s' = { s with
        threadPhyToVirtual :=
          update s.threadPhyToVirtual thread.toNat ((1 + i + j * s.numDualIf) % 256)
        threadVirtToPhy :=
          update s.threadVirtToPhy ((1 + i + j * s.numDualIf) % 256) thread.toNat } := by
  unfold initThread at h
  cases hlp : lp.threads[j]? with
  | none =>
    simp only [hlp] at h
    cases h
  | some thread =>
    simp only [hlp] at h
    obtain ⟨hphy, h⟩ := refuseIf_bind h
    obtain ⟨hvirt, h⟩ := refuseIf_bind h
    obtain ⟨hlast, h⟩ := refuseIf_bind h
    obtain ⟨hnew, h⟩ := refuseIf_bind h
    cases h
    exact ⟨thread, rfl, by omega, by omega, not_not.mp hnew, rfl⟩

theorem refuseIf_ne_undefined {c : Prop} [Decidable c] {e : Refused} (h : c → e ≠ .undefined) :
    refuseIf c e ≠ .error .undefined := by
  unfold refuseIf
  split
  · rename_i hc
    intro heq
    cases heq
    exact h hc rfl
  · intro heq
    cases heq

/-- A thread that the configuration has, with ids that are not the first ones outside of the
arrays. -/
theorem initThread_ne_undefined {thread : UInt8} (hthread : lp.threads[j]? = some thread)
    (hphy : thread.toNat < maxThreadsSupported)
    (hvirt : 1 + i + j * s.numDualIf < maxThreadsSupported) :
    initThread i lp s j ≠ .error .undefined := by
  have hmod : (1 + i + j * s.numDualIf) % 256 = 1 + i + j * s.numDualIf := by
    unfold maxThreadsSupported at hvirt
    omega
  unfold initThread
  simp only [hthread, hmod]
  refine bind_ne_error (refuseIf_ne_undefined fun _ h => (by cases h)) fun _ _ => ?_
  refine bind_ne_error (refuseIf_ne_undefined fun _ h => (by cases h)) fun _ _ => ?_
  refine bind_ne_error (refuseIf_ne_undefined fun h => ?_) fun _ _ => ?_
  · omega
  refine bind_ne_error (refuseIf_ne_undefined fun _ h => (by cases h)) fun _ _ h => ?_
  cases h

theorem initThread_asked (h : initThread i lp s j = .ok s') : Asked s s' := by
  obtain ⟨thread, -, -, -, -, rfl⟩ := initThread_eq_ok h
  exact ⟨rfl, rfl, rfl, rfl⟩

theorem initDualIf_eq_ok (h : s.initDualIf i = .ok s') :
    ∃ lp n, s.platform.dualIf[i]? = some lp ∧
      (List.range s.threadsPerDualIf).foldlM (initThread i lp) { s with maxThreadsPerDualIf := n } =
          .ok s' := by
  unfold initDualIf at h
  cases hlp : s.platform.dualIf[i]? with
  | none =>
    simp only [hlp] at h
    cases h
  | some lp =>
    simp only [hlp] at h
    obtain ⟨-, h⟩ := refuseIf_bind h
    obtain ⟨-, h⟩ := refuseIf_bind h
    exact ⟨lp, _, rfl, h⟩

theorem initDualIf_asked (h : s.initDualIf i = .ok s') : Asked s s' := by
  obtain ⟨lp, n, -, h⟩ := initDualIf_eq_ok h
  have hstart : Asked s { s with maxThreadsPerDualIf := n } := ⟨rfl, rfl, rfl, rfl⟩
  exact foldlM_range (P := fun _ s' => Asked s s') s.threadsPerDualIf
    (fun j s1 s2 _ hasked hturn => hasked.trans (initThread_asked hturn)) hstart h

/-! ## 4. The maps -/

/-- Thread `j` of pair `i` is entered in both maps. -/
def Entered (s : CPlatformSocketInfoConfig) (i j : Nat) : Prop :=
  ∃ lp thread, s.platform.dualIf[i]? = some lp ∧ lp.threads[j]? = some thread ∧
    1 + i + j * s.numDualIf < maxThreadsSupported ∧
    s.threadPhyToVirtual thread.toNat = 1 + i + j * s.numDualIf ∧
    s.threadVirtToPhy (1 + i + j * s.numDualIf) = thread.toNat

/-- The next thread of a pair is entered; its virtual id does not wrap around. -/
theorem Entered.initThread (hpairs : s.numDualIf ≤ maxLatencyPorts / 2) (hi : i < s.numDualIf)
    (hlp : s.platform.dualIf[i]? = some lp) (hprev : ∀ k, k < j → s.Entered i k)
    (h : initThread i lp s j = .ok s') :
    s'.Entered i j ∧ ∀ i' j', i' < s.numDualIf → (i', j') ≠ (i, j) → s.Entered i' j' →
        s'.Entered i' j' := by
  obtain ⟨thread, hthread, hphy, hvirt, hnew, rfl⟩ := initThread_eq_ok h
  have hsmall : 1 + i + j * s.numDualIf < 256 := by
    unfold maxLatencyPorts at hpairs
    cases j with
    | zero => omega
    | succ k =>
      obtain ⟨-, -, -, -, hlt, -, -⟩ := hprev k (Nat.lt_succ_self k)
      unfold maxThreadsSupported at hlt
      rw [Nat.succ_mul]
      omega
  rw [Nat.mod_eq_of_lt hsmall] at hvirt
  simp only [Nat.mod_eq_of_lt hsmall]
  constructor
  · exact ⟨lp, thread, hlp, hthread, hvirt, update_self _ _ _, update_self _ _ _⟩
  · rintro i' j' hi' hne ⟨lp', thread', hlp', hthread', hvirt', hto, hback⟩
    refine ⟨lp', thread', hlp', hthread', hvirt', ?_, ?_⟩
    · refine (update_of_ne ?_ _ _).trans hto
      intro heq
      rw [heq, hnew] at hto
      omega
    · refine (update_of_ne ?_ _ _).trans hback
      intro heq
      obtain ⟨rfl, rfl⟩ := virtualId_inj hi' hi heq
      exact hne rfl

/-- The threads of the pairs before `i` are entered, and those of pair `i` before `j`. -/
structure EnteredTo (s0 s : CPlatformSocketInfoConfig) (i j : Nat) : Prop where
  asked : Asked s0 s
  before : ∀ i' j', i' < i → j' < s0.threadsPerDualIf → s.Entered i' j'
  here : ∀ j', j' < j → s.Entered i j'

theorem EnteredTo.initThread (hpairs : s0.numDualIf ≤ maxLatencyPorts / 2) (hi : i < s0.numDualIf)
    (hlp : s0.platform.dualIf[i]? = some lp) (hs : EnteredTo s0 s i j)
    (h : CPlatformSocketInfoConfig.initThread i lp s j = .ok s') : EnteredTo s0 s' i (j + 1) := by
  rw [← hs.asked.numDualIf] at hpairs hi
  rw [← hs.asked.platform] at hlp
  obtain ⟨hnew, hkeep⟩ := Entered.initThread hpairs hi hlp hs.here h
  refine ⟨hs.asked.trans (initThread_asked h), ?_, ?_⟩
  · intro i' j' hi' hj'
    refine hkeep i' j' (hi'.trans hi) ?_ (hs.before i' j' hi' hj')
    rintro heq
    cases heq
    exact Nat.lt_irrefl _ hi'
  · intro j' hj'
    rcases Nat.lt_succ_iff_lt_or_eq.mp hj' with hlt | rfl
    · refine hkeep i j' hi ?_ (hs.here j' hlt)
      rintro heq
      cases heq
      exact Nat.lt_irrefl _ hlt
    · exact hnew

theorem EnteredTo.initDualIf (hpairs : s0.numDualIf ≤ maxLatencyPorts / 2) (hi : i < s0.numDualIf)
    (hs : EnteredTo s0 s i 0) (h : s.initDualIf i = .ok s') : EnteredTo s0 s' (i + 1) 0 := by
  obtain ⟨lp, n, hlp, h⟩ := initDualIf_eq_ok h
  have hstart : EnteredTo s0 { s with maxThreadsPerDualIf := n } i 0 :=
    ⟨⟨hs.asked.platform, hs.asked.numDualIf, hs.asked.threadsPerDualIf, hs.asked.latencyIsEnabled⟩,
      hs.before, fun j' hj' => absurd hj' (Nat.not_lt_zero j')⟩
  rw [hs.asked.platform] at hlp
  have hend : EnteredTo s0 s' i s.threadsPerDualIf :=
    foldlM_range (P := fun j s => EnteredTo s0 s i j) s.threadsPerDualIf
      (fun j s1 s2 _ h1 hturn => h1.initThread hpairs hi hlp hturn) hstart h
  rw [hs.asked.threadsPerDualIf] at hend
  refine ⟨hend.asked, ?_, fun j' hj' => absurd hj' (Nat.not_lt_zero j')⟩
  intro i' j' hi' hj'
  rcases Nat.lt_succ_iff_lt_or_eq.mp hi' with hlt | rfl
  · exact hend.before i' j' hlt hj'
  · exact hend.here j' hj'

/-- **What `init` enters**: each thread of each pair, both ways. -/
theorem entered (hpairs : s.numDualIf ≤ maxLatencyPorts / 2) (h : s.init = .ok s') :
    Asked s s' ∧ ∀ i j, i < s.numDualIf → j < s.threadsPerDualIf → s'.Entered i j := by
  obtain ⟨s1, hloop, h⟩ := bind_eq_ok h
  have hend : EnteredTo s s1 s.numDualIf 0 := by
    refine foldlM_range (P := fun i s1 => EnteredTo s s1 i 0) s.numDualIf
      (fun i s1 s2 hi h1 hturn => h1.initDualIf hpairs hi hturn) ?_ hloop
    exact ⟨⟨rfl, rfl, rfl, rfl⟩, fun i' j' hi' => absurd hi' (Nat.not_lt_zero i'),
      fun j' hj' => absurd hj' (Nat.not_lt_zero j')⟩
  obtain ⟨-, h⟩ := refuseIf_bind h
  obtain ⟨-, h⟩ := refuseIf_bind h
  obtain ⟨-, h⟩ := refuseIf_bind h
  obtain ⟨-, h⟩ := refuseIf_bind h
  obtain ⟨-, h⟩ := refuseIf_bind h
  cases h
  exact ⟨hend.asked, hend.before⟩

end CPlatformSocketInfoConfig

/-! ## 5. The sockets, and the run of `init` -/

namespace CPlatformSockets

variable {s s' s0 : CPlatformSockets} {i n : Nat}

/-- After the turns of the first `n` pairs: the maps are those of `Trex.Cfg.Launch`, each pair has
its socket, and just these sockets are enabled. -/
structure Placed (s0 s : CPlatformSockets) (n : Nat) : Prop where
  maps : (List.range n).foldlM CPlatformSocketInfoConfig.initDualIf s0.toCPlatformSocketInfoConfig =
    .ok s.toCPlatformSocketInfoConfig
  asked : s0.toCPlatformSocketInfoConfig.Asked s.toCPlatformSocketInfoConfig
  socket : ∀ i, i < n → ∃ lp, s0.platform.dualIf[i]? = some lp ∧ i < maxLatencyPorts / 2 ∧
    lp.socket < maxSocketsSupported ∧ s.socketPerDualIf i = lp.socket
  enabled : ∀ k, s.socketsEnable k = true ↔ ∃ lp ∈ s0.platform.dualIf.take n, lp.socket = k

/-- What the turn of a pair does, and what it needs. -/
theorem initDualIf_eq_ok (h : s.initDualIf i = .ok s') :
    ∃ lp c, s.platform.dualIf[i]? = some lp ∧ lp.socket < maxSocketsSupported ∧
      i < maxLatencyPorts / 2 ∧ s.toCPlatformSocketInfoConfig.initDualIf i = .ok c ∧
      s' = { c with
        socketsEnable := update s.socketsEnable lp.socket true
        socketPerDualIf := update s.socketPerDualIf i lp.socket } := by
  unfold initDualIf at h
  cases hlp : s.platform.dualIf[i]? with
  | none =>
    simp only [hlp] at h
    cases h
  | some lp =>
    simp only [hlp] at h
    obtain ⟨hsocket, h⟩ := refuseIf_bind h
    obtain ⟨hpair, h⟩ := refuseIf_bind h
    obtain ⟨c, hc, h⟩ := bind_eq_ok h
    cases h
    exact ⟨lp, c, rfl, Nat.not_le.mp hsocket, Nat.not_le.mp hpair, hc, rfl⟩

theorem initDualIf_asked (h : s.initDualIf i = .ok s') :
    s.toCPlatformSocketInfoConfig.Asked s'.toCPlatformSocketInfoConfig := by
  obtain ⟨lp, c, -, -, -, hc, rfl⟩ := initDualIf_eq_ok h
  exact CPlatformSocketInfoConfig.initDualIf_asked hc

theorem Placed.initDualIf (hs : Placed s0 s n) (h : s.initDualIf n = .ok s') :
    Placed s0 s' (n + 1) := by
  obtain ⟨lp, c, hlp, hsocket, hpair, hc, rfl⟩ := initDualIf_eq_ok h
  rw [hs.asked.platform] at hlp
  refine ⟨?_, hs.asked.trans (CPlatformSocketInfoConfig.initDualIf_asked hc), ?_, ?_⟩
  · rw [range_succ, foldlM_append, hs.maps, ok_bind, foldlM_cons, hc, ok_bind]
    rfl
  · intro i hi
    rcases Nat.lt_succ_iff_lt_or_eq.mp hi with hlt | rfl
    · obtain ⟨lp', hlp', hi', hsocket', hentry⟩ := hs.socket i hlt
      exact ⟨lp', hlp', hi', hsocket', (update_of_ne (Nat.ne_of_lt hlt) _ _).trans hentry⟩
    · exact ⟨lp, hlp, hpair, hsocket, update_self _ _ _⟩
  · intro k
    have htake : s0.platform.dualIf.take (n + 1) = s0.platform.dualIf.take n ++ [lp] := by
      rw [take_add_one, hlp]
      rfl
    simp only [htake, mem_append, mem_singleton, or_and_right, exists_or, exists_eq_left]
    by_cases hk : k = lp.socket
    · subst hk
      simp
    · have hk' : ¬ lp.socket = k := fun heq => hk heq.symm
      simp only [update_of_ne hk, hk', or_false]
      exact hs.enabled k

/-- What a run of `init` leaves, and what it needs. -/
theorem init_eq_ok (hempty : s.socketsEnable = fun _ => false) (h : s.init = .ok s') :
    s.toCPlatformSocketInfoConfig.init = .ok s'.toCPlatformSocketInfoConfig ∧
      Placed s s' s.numDualIf ∧
      (s.platform.masterThread < maxThreadsSupported ∧
        s'.threadPhyToVirtual s.platform.masterThread = 0) ∧
      (s.platform.latencyThread < maxThreadsSupported ∧
          s'.threadPhyToVirtual s.platform.latencyThread = 0) := by
  obtain ⟨s1, hloop, h⟩ := bind_eq_ok h
  have hend : Placed s s1 s.numDualIf := by
    refine foldlM_range (P := fun n s1 => Placed s s1 n) s.numDualIf
      (fun n s1 s2 _ h1 hturn => h1.initDualIf hturn) ?_ hloop
    exact ⟨rfl, ⟨rfl, rfl, rfl, rfl⟩, fun i hi => absurd hi (Nat.not_lt_zero i), by simp [hempty]⟩
  obtain ⟨hmaster, h'⟩ := refuseIf_bind h
  obtain ⟨hmaster', h'⟩ := refuseIf_bind h'
  obtain ⟨hlatency, h'⟩ := refuseIf_bind h'
  obtain ⟨hlatency', h'⟩ := refuseIf_bind h'
  obtain ⟨hthreads, h'⟩ := refuseIf_bind h'
  cases h'
  have hplatform := hend.asked.platform
  refine ⟨?_, hend, ?_, ?_⟩
  · unfold CPlatformSocketInfoConfig.init
    rw [hend.maps, ok_bind]
    simp [refuseIf, hmaster, hmaster', hlatency, hlatency', hthreads, ok_bind]
  · rw [← hplatform]
    exact ⟨Nat.not_le.mp hmaster, not_not.mp hmaster'⟩
  · rw [← hplatform]
    exact ⟨Nat.not_le.mp hlatency, not_not.mp hlatency'⟩

/-! ## 6. The mask -/

/-- The threads whose bits `get_cores_mask` sets. -/
def Enabled (s : CPlatformSockets) (k : Nat) : Prop :=
  (k < maxThreadsSupported ∧ s.threadPhyToVirtual k ≠ 0) ∨ k = s.platform.masterThread ∨
    (s.latencyIsEnabled = true ∧ k = s.platform.latencyThread)

/-- The bits that are set for thread `e`: its own, and the ones above it if it is 31. -/
def Sets (e k : Nat) : Prop := k = e ∨ (e = 31 ∧ 31 ≤ k ∧ k < 64)

/-- The mask of the threads of `P`. -/
def Masked (P : Nat → Prop) (mask : BitVec 64) : Prop :=
  (∀ e, P e → e < 32) ∧ ∀ k, mask.getLsbD k = true ↔ ∃ e, P e ∧ Sets e k

theorem getLsbD_shift {e : Nat} (he : e < 32) (k : Nat) :
    ((1#32 <<< e).signExtend 64).getLsbD k = true ↔ Sets e k := by
  have hmsb : (1#32 <<< e).msb = decide (e = 31) := by
    rw [BitVec.msb_eq_getLsbD_last, BitVec.getLsbD_shiftLeft, BitVec.getLsbD_one]
    by_cases h : e = 31
    · subst h
      rfl
    · have h' : ¬ 31 - e = 0 := by omega
      simp [h, h']
  rw [BitVec.getLsbD_signExtend, hmsb, BitVec.getLsbD_shiftLeft, BitVec.getLsbD_one]
  unfold Sets
  by_cases hk : k < 32
  · simp only [hk, ↓reduceIte, Bool.and_eq_true, decide_true, true_and, decide_eq_true_eq,
      Bool.not_eq_true', decide_eq_false_iff_not]
    omega
  · simp only [hk, ↓reduceIte, Bool.and_eq_true, decide_eq_true_eq]
    omega

variable {mask : BitVec 64}

/-- One more thread. -/
theorem Masked.setCore {P : Nat → Prop} {mask' : BitVec 64} {i : Nat} (hmask : Masked P mask)
    (h : setCore mask i = .ok mask') : Masked (fun e => P e ∨ e = i) mask' := by
  unfold Trex.Cfg.setCore at h
  split at h
  · rename_i hi
    cases h
    refine ⟨?_, ?_⟩
    · rintro e (he | rfl)
      · exact hmask.1 e he
      · exact hi
    · intro k
      rw [BitVec.getLsbD_or, Bool.or_eq_true, hmask.2, getLsbD_shift hi]
      simp [or_and_right, exists_or]
  · cases h

theorem Masked.congr {P Q : Nat → Prop} (hmask : Masked P mask) (h : ∀ e, P e ↔ Q e) :
    Masked Q mask := by
  have hPQ : P = Q := funext fun e => propext (h e)
  exact hPQ ▸ hmask

theorem setCore_returns (mask : BitVec 64) {i : Nat} (hi : i < 32) :
    ∃ mask', setCore mask i = .ok mask' := by
  unfold setCore
  rw [if_pos hi]
  exact ⟨_, rfl⟩

/-- **What `get_cores_mask` returns**, when it does. -/
theorem getCoresMask_masked (h : s.getCoresMask = .ok mask) :
    Masked s.Enabled mask := by
  obtain ⟨mask1, hloop, h⟩ := bind_eq_ok h
  have hloop' : Masked (fun e => e < maxThreadsSupported ∧ s.threadPhyToVirtual e ≠ 0) mask1 := by
    refine foldlM_range (P := fun n => Masked (fun e => e < n ∧ s.threadPhyToVirtual e ≠ 0))
      maxThreadsSupported ?_ ?_ hloop
    · intro n m m' _ hm hturn
      unfold maskThread at hturn
      split at hturn
      · rename_i hused
        obtain ⟨-, hturn⟩ := refuseIf_bind hturn
        refine (hm.setCore hturn).congr fun e => ?_
        rw [Nat.lt_succ_iff_lt_or_eq]
        constructor
        · rintro (⟨he, he'⟩ | rfl)
          · exact ⟨.inl he, he'⟩
          · exact ⟨.inr rfl, hused⟩
        · rintro ⟨he | rfl, he'⟩
          · exact .inl ⟨he, he'⟩
          · exact .inr rfl
      · rename_i hunused
        cases hturn
        refine hm.congr fun e => ?_
        rw [Nat.lt_succ_iff_lt_or_eq]
        constructor
        · rintro ⟨he, he'⟩
          exact ⟨.inl he, he'⟩
        · rintro ⟨he | rfl, he'⟩
          · exact ⟨he, he'⟩
          · exact absurd he' hunused
    · exact ⟨fun e he => absurd he.1 (Nat.not_lt_zero e), fun k => by simp⟩
  obtain ⟨mask2, hmaster, h⟩ := bind_eq_ok h
  obtain ⟨-, h⟩ := refuseIf_bind h
  have hmaster' := hloop'.setCore hmaster
  cases hlat : s.latencyIsEnabled with
  | false =>
    simp only [hlat, Bool.false_eq_true, ↓reduceIte] at h
    cases h
    refine hmaster'.congr fun e => ?_
    simp [Enabled, hlat]
  | true =>
    simp only [hlat, ↓reduceIte] at h
    obtain ⟨mask3, hlatency, h⟩ := bind_eq_ok h
    obtain ⟨-, h⟩ := refuseIf_bind h
    cases h
    refine (hmaster'.setCore hlatency).congr fun e => ?_
    simp [Enabled, hlat, or_assoc]

/-- When it returns. -/
theorem getCoresMask_returns (h : ∀ k, s.Enabled k → k < 32) :
    ∃ mask, s.getCoresMask = .ok mask := by
  have hmaster : s.platform.masterThread < 32 := h _ (.inr (.inl rfl))
  have hloop : ∃ mask, (List.range maxThreadsSupported).foldlM s.maskThread 0#64 = .ok mask ∧
      True := by
    refine foldlM_range_returns (P := fun _ _ => True) maxThreadsSupported ?_ trivial
    intro k mask hk _
    unfold maskThread
    split
    · rename_i hused
      have hlt : k < 32 := h k (.inl ⟨hk, hused⟩)
      obtain ⟨mask', hmask'⟩ := setCore_returns mask hlt
      refine ⟨mask', ?_, trivial⟩
      rw [refuseIf, if_neg (by omega), ok_bind, hmask']
    · exact ⟨mask, rfl, trivial⟩
  obtain ⟨mask1, hloop, -⟩ := hloop
  obtain ⟨mask2, hmask2⟩ := setCore_returns mask1 hmaster
  unfold getCoresMask
  rw [hloop, ok_bind, hmask2, ok_bind, refuseIf, if_neg (by omega), ok_bind]
  cases hlat : s.latencyIsEnabled with
  | false => exact ⟨mask2, rfl⟩
  | true =>
    have hlatency : s.platform.latencyThread < 32 := h _ (.inr (.inr ⟨hlat, rfl⟩))
    obtain ⟨mask3, hmask3⟩ := setCore_returns mask2 hlatency
    refine ⟨mask3, ?_⟩
    rw [if_pos rfl, hmask3, ok_bind, refuseIf, if_neg (by omega), ok_bind]

end CPlatformSockets

/-! ## 7. Which configurations run right -/

section Run

variable {platform : CPlatformCoresYamlInfo} {numDualPorts numThreads : UInt8} {enable : Bool}
  {s : CPlatformSockets}

theorem mem_take_iff {α : Type} {l : List α} {n : Nat} {a : α} :
    a ∈ l.take n ↔ ∃ i, i < n ∧ l[i]? = some a := by
  rw [mem_iff_getElem?]
  simp [List.getElem?_take]

theorem mem_workerThreads {d m k : Nat} : k ∈ platform.workerThreads d m ↔ ∃ i lp j thread, i < d ∧
    platform.dualIf[i]? = some lp ∧ j < m ∧ lp.threads[j]? = some thread ∧ thread.toNat = k := by
  unfold CPlatformCoresYamlInfo.workerThreads
  simp only [mem_flatMap, mem_map, mem_take_iff]
  constructor
  · rintro ⟨lp, ⟨i, hi, hlp⟩, thread, ⟨j, hj, hthread⟩, rfl⟩
    exact ⟨i, lp, j, thread, hi, hlp, hj, hthread, rfl⟩
  · rintro ⟨i, lp, j, thread, hi, hlp, hj, hthread, rfl⟩
    exact ⟨lp, ⟨i, hi, hlp⟩, thread, ⟨j, hj, hthread⟩, rfl⟩

variable {virt : Nat}

/-- The virtual ids, by pair and thread. -/
theorem exists_of_virtual (hlo : 1 ≤ virt) (hhi : virt ≤ numThreads.toNat * numDualPorts.toNat) :
    ∃ i j, i < numDualPorts.toNat ∧ j < numThreads.toNat ∧
        virt = 1 + i + j * numDualPorts.toNat := by
  have hmem : virt ∈ virtualIds numDualPorts.toNat numThreads.toNat := by
    refine (virtualIds_perm _ _).mem_iff.mpr (mem_range'_1.mpr ?_)
    rw [Nat.mul_comm] at hhi
    omega
  obtain ⟨i, hi, j, hj, heq⟩ := mem_virtualIds.mp hmem
  exact ⟨i, j, hi, hj, heq⟩

theorem virtual_bound {i j : Nat} (hi : i < numDualPorts.toNat) (hj : j < numThreads.toNat) :
    1 ≤ 1 + i + j * numDualPorts.toNat ∧
      1 + i + j * numDualPorts.toNat ≤ numThreads.toNat * numDualPorts.toNat := by
  have hle : (j + 1) * numDualPorts.toNat ≤ numThreads.toNat * numDualPorts.toNat :=
    Nat.mul_le_mul_right _ hj
  rw [Nat.succ_mul] at hle
  omega

theorem CPlatformSockets.threadPhyToVirt_eq {phy : Nat} (hphy : phy < maxThreadsSupported) :
    s.threadPhyToVirt phy = .ok (s.threadPhyToVirtual phy) := by
  unfold CPlatformSocketInfoConfig.threadPhyToVirt
  rw [refuseIf, if_neg (Nat.not_le.mpr hphy), ok_bind]

theorem CPlatformSockets.threadVirtToPhys_eq (hvirt : virt < maxThreadsSupported) :
    s.threadVirtToPhys virt = .ok (s.threadVirtToPhy virt) := by
  unfold CPlatformSockets.threadVirtToPhys
  rw [refuseIf, if_neg (Nat.not_le.mpr hvirt), ok_bind]

/-- What is known when `init` returned. -/
structure Ran (platform : CPlatformCoresYamlInfo) (numDualPorts numThreads : UInt8) (enable : Bool)
    (s : CPlatformSockets) : Prop where
  platform_eq : s.platform = platform
  numDualIf_eq : s.numDualIf = numDualPorts.toNat
  latencyIsEnabled_eq : s.latencyIsEnabled = enable
  placed : (CPlatformSockets.create platform numDualPorts numThreads enable).Placed s
    numDualPorts.toNat
  sockets : numDualPorts.toNat ≤ maxLatencyPorts / 2
  entered : ∀ i j, i < numDualPorts.toNat → j < numThreads.toNat → s.Entered i j
  virtual : numDualPorts.toNat * numThreads.toNat < maxThreadsSupported
  mapped : s.Mapped (platform.workerThreads numDualPorts.toNat numThreads.toNat)
    (virtualIds numDualPorts.toNat numThreads.toNat)
  master : platform.masterThread < maxThreadsSupported ∧
    s.threadPhyToVirtual platform.masterThread = 0
  latency : platform.latencyThread < maxThreadsSupported ∧
    s.threadPhyToVirtual platform.latencyThread = 0

theorem ran (h : (CPlatformSockets.create platform numDualPorts numThreads enable).init = .ok s) :
    Ran platform numDualPorts numThreads enable s := by
  obtain ⟨hinit, hplaced, hmaster, hlatency⟩ := CPlatformSockets.init_eq_ok rfl h
  have hsockets : numDualPorts.toNat ≤ maxLatencyPorts / 2 := by
    rcases Nat.eq_zero_or_pos numDualPorts.toNat with hd | hd
    · omega
    · obtain ⟨-, -, hlt, -⟩ := hplaced.socket (numDualPorts.toNat - 1) (Nat.sub_lt hd Nat.one_pos)
      omega
  obtain ⟨hasked, hentered⟩ := CPlatformSocketInfoConfig.entered hsockets hinit
  have hdual : s.numDualIf = numDualPorts.toNat := hasked.numDualIf
  have hvirtual : numDualPorts.toNat * numThreads.toNat < maxThreadsSupported := by
    rcases Nat.eq_zero_or_pos numDualPorts.toNat with hd | hd
    · rw [hd, Nat.zero_mul]
      decide
    · rcases Nat.eq_zero_or_pos numThreads.toNat with hm | hm
      · rw [hm, Nat.mul_zero]
        decide
      · obtain ⟨-, -, -, -, hlt, -, -⟩ := hentered (numDualPorts.toNat - 1) (numThreads.toNat - 1)
          (Nat.sub_lt hd Nat.one_pos) (Nat.sub_lt hm Nat.one_pos)
        rw [hdual, Nat.sub_one_mul, Nat.mul_comm numThreads.toNat] at hlt
        have hle : numDualPorts.toNat ≤ numDualPorts.toNat * numThreads.toNat :=
          Nat.le_mul_of_pos_right _ hm
        omega
  have hsize : numDualPorts.toNat * numThreads.toNat < 256 := by
    unfold maxThreadsSupported at hvirtual
    omega
  obtain ⟨-, hmapped⟩ := CPlatformSocketInfoConfig.init_mapped rfl hsize hinit
  exact ⟨hasked.platform, hdual, hasked.latencyIsEnabled, hplaced, hsockets, hentered, hvirtual,
    hmapped, hmaster, hlatency⟩

namespace Ran

variable (h : Ran platform numDualPorts numThreads enable s)
include h

/-- From a virtual thread to its physical one and back. -/
theorem virtual_right (hlo : 1 ≤ virt) (hhi : virt ≤ numThreads.toNat * numDualPorts.toNat) :
    ∃ phy, s.threadVirtToPhys virt = .ok phy ∧ s.threadPhyToVirt phy = .ok virt ∧
      phy ≠ platform.masterThread ∧ phy ≠ platform.latencyThread := by
  obtain ⟨i, j, hi, hj, rfl⟩ := exists_of_virtual hlo hhi
  obtain ⟨lp, thread, -, -, hvirt, hto, hback⟩ := h.entered i j hi hj
  rw [h.numDualIf_eq] at hvirt hto hback
  have hne : s.threadPhyToVirtual thread.toNat ≠ 0 := by omega
  have hphy : thread.toNat < maxThreadsSupported := h.mapped.bound _ ((h.mapped.used _).mp hne)
  refine ⟨thread.toNat, ?_, ?_, ?_, ?_⟩
  · rw [CPlatformSockets.threadVirtToPhys_eq hvirt, hback]
  · rw [CPlatformSockets.threadPhyToVirt_eq hphy, hto]
  · intro heq
    exact hne (heq ▸ h.master.2)
  · intro heq
    exact hne (heq ▸ h.latency.2)

/-- From a physical thread that is used to its virtual one and back. -/
theorem physical_right {phy : Nat} (hphy : s.threadPhyToVirt phy = .ok virt) (hne : virt ≠ 0) :
    1 ≤ virt ∧ virt ≤ numThreads.toNat * numDualPorts.toNat ∧
        s.threadVirtToPhys virt = .ok phy := by
  obtain ⟨-, hphy⟩ := refuseIf_bind hphy
  have hvirt : s.threadPhyToVirtual phy = virt := Except.ok.inj hphy
  obtain ⟨i, lp, j, thread, hi, hlp, hj, hthread, rfl⟩ :=
    mem_workerThreads.mp ((h.mapped.used phy).mp (hvirt ▸ hne))
  obtain ⟨lp', thread', hlp', hthread', hlt, hto, hback⟩ := h.entered i j hi hj
  rw [h.platform_eq, hlp] at hlp'
  cases hlp'
  rw [hthread] at hthread'
  cases hthread'
  rw [h.numDualIf_eq] at hlt hto hback
  rw [← hvirt, hto, CPlatformSockets.threadVirtToPhys_eq hlt, hback]
  exact ⟨(virtual_bound hi hj).1, (virtual_bound hi hj).2, rfl⟩

theorem isSocketsEnable_iff {socket : Nat} : s.isSocketsEnable socket = .ok true ↔
    socket < maxSocketsSupported ∧
        ∃ lp ∈ platform.dualIf.take numDualPorts.toNat, lp.socket = socket := by
  have henabled : s.socketsEnable socket = true ↔
      ∃ lp ∈ platform.dualIf.take numDualPorts.toNat, lp.socket = socket := h.placed.enabled socket
  rw [← henabled]
  constructor
  · intro hrun
    obtain ⟨hlt, hrun⟩ := refuseIf_bind hrun
    exact ⟨Nat.not_le.mp hlt, Except.ok.inj hrun⟩
  · rintro ⟨hlt, htrue⟩
    unfold CPlatformSockets.isSocketsEnable
    rw [refuseIf, if_neg (Nat.not_le.mpr hlt), ok_bind, htrue]

/-- The socket of a port is enabled. -/
theorem socketPort {port : Nat} (hport : port < 2 * numDualPorts.toNat) :
    ∃ socket, s.portToSocket port = .ok socket ∧ s.isSocketsEnable socket = .ok true := by
  obtain ⟨lp, hlp, hlt, hsocket, hentry⟩ := h.placed.socket (port / 2) (by omega)
  refine ⟨lp.socket, ?_, h.isSocketsEnable_iff.mpr ⟨hsocket, lp, ?_, rfl⟩⟩
  · unfold CPlatformSockets.portToSocket
    rw [refuseIf, if_neg (Nat.not_le.mpr hlt), ok_bind, hentry]
  · refine mem_of_getElem? (i := port / 2) ?_
    rw [List.getElem?_take_of_lt (by omega)]
    exact hlp

theorem enabled_iff {k : Nat} :
    s.Enabled k ↔ k ∈ enabledThreads platform numDualPorts numThreads enable := by
  have hused : (k < maxThreadsSupported ∧ s.threadPhyToVirtual k ≠ 0) ↔
      k ∈ platform.workerThreads numDualPorts.toNat numThreads.toNat := by
    rw [h.mapped.used]
    exact ⟨fun hk => hk.2, fun hk => ⟨h.mapped.bound k hk, hk⟩⟩
  unfold CPlatformSockets.Enabled enabledThreads
  rw [hused, h.platform_eq, h.latencyIsEnabled_eq, mem_append, mem_cons]
  cases enable with
  | false => simp
  | true => simp

/-- **When the mask is right**: the shift of 31 sets the bits of 32 more threads, and the others are
undefined. -/
theorem mask_iff : (∃ mask, s.getCoresMask = .ok mask ∧
      ∀ k, mask.getLsbD k = true ↔ k ∈ enabledThreads platform numDualPorts numThreads enable) ↔
    ∀ k ∈ enabledThreads platform numDualPorts numThreads enable, k < 31 := by
  constructor
  · rintro ⟨mask, hmask, hbits⟩ k hk
    obtain ⟨hlt, hsets⟩ := CPlatformSockets.getCoresMask_masked hmask
    have hk32 : k < 32 := hlt k (h.enabled_iff.mpr hk)
    by_contra hge
    have hk31 : k = 31 := by omega
    subst hk31
    have h63 : mask.getLsbD 63 = true :=
      (hsets 63).mpr ⟨31, h.enabled_iff.mpr hk, .inr ⟨rfl, by decide, by decide⟩⟩
    have h63lt : 63 < 32 := hlt 63 (h.enabled_iff.mpr ((hbits 63).mp h63))
    omega
  · intro hall
    have hlt : ∀ k, s.Enabled k → k < 31 := fun k hk => hall k (h.enabled_iff.mp hk)
    obtain ⟨mask, hmask⟩ := CPlatformSockets.getCoresMask_returns fun k hk =>
      (hlt k hk).trans (by decide)
    obtain ⟨-, hsets⟩ := CPlatformSockets.getCoresMask_masked hmask
    refine ⟨mask, hmask, fun k => ?_⟩
    rw [hsets, ← h.enabled_iff]
    constructor
    · rintro ⟨e, he, rfl | ⟨rfl, -, -⟩⟩
      · exact he
      · exact absurd (hlt 31 he) (by decide)
    · exact fun hk => ⟨k, hk, .inl rfl⟩

theorem platformRight_iff : PlatformRight platform numDualPorts numThreads enable s ↔
    Fits platform numDualPorts numThreads enable := by
  constructor
  · intro hright
    refine ⟨?_, ?_, h.sockets, h.mapped.bound, h.virtual, h.master.1, h.latency.1, ?_, ?_⟩
    · rcases Nat.eq_zero_or_pos numDualPorts.toNat with hd | hd
      · omega
      · obtain ⟨lp, hlp, -⟩ := h.placed.socket (numDualPorts.toNat - 1) (Nat.sub_lt hd Nat.one_pos)
        have hlt := (List.getElem?_eq_some_iff.mp hlp).1
        have hlt' : numDualPorts.toNat - 1 < platform.dualIf.length := hlt
        omega
    · intro lp hlp
      obtain ⟨i, hlt, hi⟩ := mem_take_iff.mp hlp
      rcases Nat.eq_zero_or_pos numThreads.toNat with hm | hm
      · omega
      · obtain ⟨lp', thread, hlp', hthread, -⟩ :=
          h.entered i (numThreads.toNat - 1) hlt (Nat.sub_lt hm Nat.one_pos)
        rw [h.platform_eq, hi] at hlp'
        cases hlp'
        have hlen := (List.getElem?_eq_some_iff.mp hthread).1
        omega
    · exact (h.isSocketsEnable_iff.mp hright.socketZero).2
    · exact fun hall => h.mask_iff.mp (hright.mask hall)
  · intro hfits
    exact ⟨fun virt => h.virtual_right, fun phy virt => h.physical_right,
      h.isSocketsEnable_iff.mpr ⟨by decide, hfits.socketZero⟩, fun port => h.socketPort,
      fun hall => h.mask_iff.mpr (hfits.mask hall)⟩

end Ran

/-! ## 8. What no check refuses -/

open CPlatformSocketInfoConfig in
/-- The threads of a pair that fits are numbered inside the arrays. -/
theorem Fits.initDualIf_ne (h : Fits platform numDualPorts numThreads enable) {i : Nat}
    (hi : i < numDualPorts.toNat) {c : CPlatformSocketInfoConfig}
    (hplatform : c.platform = platform) (hdual : c.numDualIf = numDualPorts.toNat)
    (hthreads : c.threadsPerDualIf = numThreads.toNat) :
    c.initDualIf i ≠ .error .undefined := by
  have hlen : i < platform.dualIf.length := Nat.lt_of_lt_of_le hi h.pairs
  have hlp : c.platform.dualIf[i]? = some platform.dualIf[i] := by
    rw [hplatform]
    exact List.getElem?_eq_getElem hlen
  unfold CPlatformSocketInfoConfig.initDualIf
  simp only [hlp]
  refine bind_ne_error (refuseIf_ne_undefined fun _ heq => (by cases heq)) fun _ _ => ?_
  refine bind_ne_error (refuseIf_ne_undefined fun _ heq => (by cases heq)) fun _ _ => ?_
  refine foldlM_range_ne_error (P := fun c' => c'.numDualIf = numDualPorts.toNat) c.threadsPerDualIf
    ?_ ?_ hdual
  · intro j c1 c2 _ h1 hturn
    exact (initThread_asked hturn).numDualIf.trans h1
  · intro j c1 hj h1
    rw [hthreads] at hj
    have hmem : platform.dualIf[i] ∈ platform.dualIf.take numDualPorts.toNat :=
      mem_take_iff.mpr ⟨i, hi, List.getElem?_eq_getElem hlen⟩
    have hjlen : j < platform.dualIf[i].threads.length := Nat.lt_of_lt_of_le hj (h.threads _ hmem)
    have hthread := List.getElem?_eq_getElem hjlen
    refine initThread_ne_undefined hthread ?_ ?_
    · exact h.physical _ (mem_workerThreads.mpr
        ⟨i, _, j, _, hi, List.getElem?_eq_getElem hlen, hj, hthread, rfl⟩)
    · have hle := (virtual_bound hi hj).2
      have hvirtual := h.virtual
      rw [Nat.mul_comm] at hvirtual
      rw [h1]
      omega

theorem Fits.turn_ne (h : Fits platform numDualPorts numThreads enable) {i : Nat}
    (hi : i < numDualPorts.toNat)
    (hasked : (CPlatformSockets.create platform numDualPorts numThreads enable).Asked
      s.toCPlatformSocketInfoConfig) : s.initDualIf i ≠ .error .undefined := by
  have hlen : i < platform.dualIf.length := Nat.lt_of_lt_of_le hi h.pairs
  have hplatform : s.platform = platform := hasked.platform
  have hlp : s.platform.dualIf[i]? = some platform.dualIf[i] := by
    rw [hplatform]
    exact List.getElem?_eq_getElem hlen
  unfold CPlatformSockets.initDualIf
  simp only [hlp]
  refine bind_ne_error (CPlatformSocketInfoConfig.refuseIf_ne_undefined fun _ heq =>
    (by cases heq)) fun _ _ => ?_
  refine bind_ne_error (CPlatformSocketInfoConfig.refuseIf_ne_undefined fun hge => ?_) fun _ _ => ?_
  · exact absurd h.sockets (by omega)
  refine bind_ne_error (h.initDualIf_ne hi hplatform hasked.numDualIf hasked.threadsPerDualIf) fun _
    _ heq => ?_
  cases heq

/-- `init` of a configuration that fits leaves no array. -/
theorem Fits.init_ne (h : Fits platform numDualPorts numThreads enable) :
    (CPlatformSockets.create platform numDualPorts numThreads enable).init ≠ .error .undefined := by
  have hkeep : ∀ i (s1 s2 : CPlatformSockets), i < numDualPorts.toNat →
      (CPlatformSockets.create platform numDualPorts numThreads enable).Asked
        s1.toCPlatformSocketInfoConfig →
      s1.initDualIf i = .ok s2 →
      (CPlatformSockets.create platform numDualPorts numThreads enable).Asked
          s2.toCPlatformSocketInfoConfig :=
    fun i s1 s2 _ h1 hturn => h1.trans (CPlatformSockets.initDualIf_asked hturn)
  have hstart : (CPlatformSockets.create platform numDualPorts numThreads enable).Asked
      (CPlatformSockets.create platform numDualPorts numThreads
          enable).toCPlatformSocketInfoConfig :=
    ⟨rfl, rfl, rfl, rfl⟩
  unfold CPlatformSockets.init
  refine bind_ne_error (foldlM_range_ne_error _ hkeep (fun i s1 hi h1 => h.turn_ne hi h1) hstart) ?_
  intro s1 hloop
  have hasked := foldlM_range (P := fun _ s1 =>
    (CPlatformSockets.create platform numDualPorts numThreads
    enable).Asked s1.toCPlatformSocketInfoConfig) numDualPorts.toNat hkeep hstart hloop
  have hplatform : s1.platform = platform := hasked.platform
  simp only [hplatform]
  refine bind_ne_error (CPlatformSocketInfoConfig.refuseIf_ne_undefined fun hge => ?_) fun _ _ => ?_
  · exact absurd h.master (Nat.not_lt.mpr hge)
  refine bind_ne_error (CPlatformSocketInfoConfig.refuseIf_ne_undefined fun _ heq =>
    (by cases heq)) fun _ _ => ?_
  refine bind_ne_error (CPlatformSocketInfoConfig.refuseIf_ne_undefined fun hge => ?_) fun _ _ => ?_
  · exact absurd h.latency (Nat.not_lt.mpr hge)
  refine bind_ne_error (CPlatformSocketInfoConfig.refuseIf_ne_undefined fun _ heq =>
    (by cases heq)) fun _ _ => ?_
  refine bind_ne_error (CPlatformSocketInfoConfig.refuseIf_ne_undefined fun _ heq =>
    (by cases heq)) fun _ _ heq => ?_
  cases heq

/-- **The accepted configurations that run right** are those that fit.  `Ran` is what is known of
the tables when `init` returns; each clause of `PlatformRight` is compared with it. -/
theorem platform_iff (haccepted : Accepted platform numDualPorts numThreads enable) :
    RunsRight platform numDualPorts numThreads enable ↔
        Fits platform numDualPorts numThreads enable := by
  constructor
  · rintro ⟨s, hrun, hright⟩
    exact (ran hrun).platformRight_iff.mp hright
  · intro hfits
    cases hrun : (CPlatformSockets.create platform numDualPorts numThreads enable).init with
    | error e =>
      rw [haccepted e hrun] at hrun
      exact absurd hrun hfits.init_ne
    | ok s => exact ⟨s, hrun, (ran hrun).platformRight_iff.mpr hfits⟩

end Run

/-- A run of `init` that ends is an acceptance. -/
theorem accepted_of_isSome {platform : CPlatformCoresYamlInfo} {numDualPorts numThreads : UInt8}
    {enable : Bool}
    (h : (CPlatformSockets.create platform numDualPorts numThreads enable).init.toOption.isSome =
      true) :
    Accepted platform numDualPorts numThreads enable := by
  intro e he
  rw [he] at h
  cases h

/-- Two pairs of ports on two sockets, with two threads each. -/
theorem platform_iff_twoPairs : RunsRight ⟨0, 5, [⟨0, [1, 2]⟩, ⟨1, [3, 4]⟩]⟩ 2 2 true :=
  (platform_iff (accepted_of_isSome (by decide +kernel))).mpr
    ⟨by decide, by decide, by decide, by decide, by decide, by decide, by decide, by decide,
      by decide⟩

/-- One worker on thread 31: the mask has the bits of the threads up to 63 as well. -/
theorem thread31_not_right :
    Accepted ⟨0, 1, [⟨0, [31]⟩]⟩ 1 1 false ∧ ¬ RunsRight ⟨0, 1, [⟨0, [31]⟩]⟩ 1 1 false := by
  refine ⟨accepted_of_isSome (by decide +kernel), ?_⟩
  rintro ⟨s, hrun, hright⟩
  have hlt := (ran hrun).mask_iff.mp (hright.mask (by decide)) 31 (by decide)
  exact absurd hlt (by decide)

end Trex.Cfg
