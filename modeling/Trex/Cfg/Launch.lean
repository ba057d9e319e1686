/-
# Which workers `main_test` starts

The platform section of the configuration file gives each pair of ports a list of physical thread
ids. `CPlatformSocketInfoConfig::init` (`bp_sim.cpp`) numbers these threads from 1: virtual thread
`1 + i + j * d` is thread `j` of pair `i` of `d`.  `main_test` (`main_dpdk.cpp`) starts a thread for
each virtual id, and finds the ids by looking up the physical ids 1, 2, 3, ...

* The options are those that are left after both passes of `parse_options`: the result of the second
  pass is not looked at.  What `init`, `get_cores_mask` and the three `..._prob_init` functions
  refuse is not started, nor what reads or writes outside of an array.
* The core mask and the sockets are not modelled: no thread is started by them.
* `launch_iff` says which configurations start every worker once.
-/
import Mathlib.Data.List.Range
import Mathlib.Data.List.Perm.Basic
import Mathlib.Data.List.Nodup
import Mathlib.Tactic.Ring
import Trex.Lib.Refine

namespace Trex.Cfg

open Trex.Lib List

/-- `MAX_SOCKETS_SUPPORTED`. -/
def maxSocketsSupported : Nat := 4

/-- `MAX_THREADS_SUPPORTED`. -/
def maxThreadsSupported : Nat := 120

/-- `BP_MAX_PORTS`. -/
def bpMaxPorts : Nat := 12

/-- `BP_MAX_TX_QUEUE`. -/
def bpMaxTxQueue : Nat := 16

/-- Why the program stops before it starts a worker. -/
inductive Refused
  /-- The messages of `init`. -/
  | socketTooBig (socket : Nat)
  | threadsDiffer
  | physicalTooBig (id : Nat)
  | virtualTooBig (id : Nat)
  | definedTwice (id : Nat)
  | masterDefined (id : Nat)
  | latencyDefined (id : Nat)
  | threadsAsked (asked max : Nat)
  /-- The checks of `get_cores_num` and `get_cores_mask`. -/
  | physicalOver64
  | masterOver64
  | latencyOver64
  /-- The checks of `ixgbe_prob_init`, `cores_prob_init` and `queues_prob_init`. -/
  | maxPorts
  | oddPorts (ports : Nat)
  | oneQueue
  | cpuCount
  | minCores
  | portsSupported (ports : Nat)
  | portsPerCore
  | maxQueues
  | noQueue
  /-- `odp_cpumask_default_worker` gives too few workers. -/
  | workers (required available : Nat)
  /-- An index outside of an array. -/
  | undefined
deriving DecidableEq, Repr

/-- Stop, or go on. -/
def refuseIf (c : Prop) [Decidable c] (e : Refused) : Except Refused Unit :=
  if c then .error e else .ok ()

/-! ## 1. The platform configuration -/

/-- `CPlatformDualIfYamlInfo`. -/
structure CPlatformDualIfYamlInfo where
  socket : Nat
  threads : List UInt8
deriving DecidableEq, Repr

/-- `CPlatformCoresYamlInfo`, when it exists. -/
structure CPlatformCoresYamlInfo where
  masterThread : Nat
  latencyThread : Nat
  dualIf : List CPlatformDualIfYamlInfo
deriving DecidableEq, Repr

/-- `CPlatformSocketInfoConfig`. -/
structure CPlatformSocketInfoConfig where
  platform : CPlatformCoresYamlInfo
  numDualIf : Nat
  threadsPerDualIf : Nat
  latencyIsEnabled : Bool
  maxThreadsPerDualIf : Nat := 0
  threadVirtToPhy : Nat → Nat := fun _ => 0
  threadPhyToVirtual : Nat → Nat := fun _ => 0

namespace CPlatformSocketInfoConfig

/-- The inner loop of `init`: thread `j` of pair `i`. -/
def initThread (i : Nat) (lp : CPlatformDualIfYamlInfo) (s : CPlatformSocketInfoConfig) (j : Nat) :
    Except Refused CPlatformSocketInfoConfig := do
  let virtThread := (1 + i + j * s.numDualIf) % 256
  match lp.threads[j]? with
  | none => .error .undefined
  | some thread =>
    let phyThread := thread.toNat
    refuseIf (phyThread > maxThreadsSupported) (.physicalTooBig phyThread)
    refuseIf (virtThread > maxThreadsSupported) (.virtualTooBig virtThread)
    -- the arrays have `MAX_THREADS_SUPPORTED` entries
    refuseIf (phyThread = maxThreadsSupported ∨ virtThread = maxThreadsSupported) .undefined
    refuseIf (s.threadPhyToVirtual phyThread ≠ 0) (.definedTwice phyThread)
    .ok { s with
      threadPhyToVirtual := Function.update s.threadPhyToVirtual phyThread virtThread
      threadVirtToPhy := Function.update s.threadVirtToPhy virtThread phyThread }

/-- The outer loop of `init`: pair `i`.  The local `num_threads` is `m_max_threads_per_dual_if`. -/
def initDualIf (s : CPlatformSocketInfoConfig) (i : Nat) :
    Except Refused CPlatformSocketInfoConfig := do
  match s.platform.dualIf[i]? with
  | none => .error .undefined
  | some lp =>
    refuseIf (lp.socket ≥ maxSocketsSupported) (.socketTooBig lp.socket)
    refuseIf (i ≠ 0 ∧ lp.threads.length ≠ s.maxThreadsPerDualIf) .threadsDiffer
    let maxThreads := if i = 0 then lp.threads.length else s.maxThreadsPerDualIf
    (List.range s.threadsPerDualIf).foldlM (initThread i lp) { s with maxThreadsPerDualIf :=
      maxThreads }

/-- `CPlatformSocketInfoConfig::init`.  Too many pairs are an error message and no more. -/
def init (s : CPlatformSocketInfoConfig) : Except Refused CPlatformSocketInfoConfig := do
  let s ← (List.range s.numDualIf).foldlM initDualIf s
  let master := s.platform.masterThread
  let latency := s.platform.latencyThread
  refuseIf (maxThreadsSupported ≤ master) .undefined
  refuseIf (s.threadPhyToVirtual master ≠ 0) (.masterDefined master)
  refuseIf (maxThreadsSupported ≤ latency) .undefined
  refuseIf (s.threadPhyToVirtual latency ≠ 0) (.latencyDefined latency)
  refuseIf (s.maxThreadsPerDualIf < s.threadsPerDualIf)
    (.threadsAsked s.threadsPerDualIf s.maxThreadsPerDualIf)
  .ok s

/-- The physical threads that have a virtual id. -/
def usedThreads (s : CPlatformSocketInfoConfig) : List Nat :=
  (List.range maxThreadsSupported).filter fun i => s.threadPhyToVirtual i ≠ 0

/-- `CPlatformSocketInfoConfig::get_cores_num`. -/
def getCoresNum (s : CPlatformSocketInfoConfig) : Except Refused Nat := do
  refuseIf (∃ i ∈ s.usedThreads, 64 ≤ i) .physicalOver64
  .ok ((s.usedThreads.length + if s.latencyIsEnabled then 2 else 1) % 256)

/-- The checks of `CPlatformSocketInfoConfig::get_cores_mask`. -/
def checkCoresMask (s : CPlatformSocketInfoConfig) : Except Refused Unit := do
  refuseIf (∃ i ∈ s.usedThreads, 64 ≤ i) .physicalOver64
  refuseIf (64 ≤ s.platform.masterThread) .masterOver64
  refuseIf (s.latencyIsEnabled ∧ 64 ≤ s.platform.latencyThread) .latencyOver64

/-- `CPlatformSocketInfoConfig::thread_phy_to_virt`. -/
def threadPhyToVirt (s : CPlatformSocketInfoConfig) (phyId : Nat) : Except Refused Nat := do
  refuseIf (maxThreadsSupported ≤ phyId) .undefined
  .ok (s.threadPhyToVirtual phyId)

end CPlatformSocketInfoConfig

/-- `CPlatformSocketInfoNoConfig`. -/
structure CPlatformSocketInfoNoConfig where
  dualIf : Nat
  threadsPerDualIf : Nat
  latencyIsEnabled : Bool

/-- `CPlatformSocketInfoNoConfig::get_cores_num`. -/
def CPlatformSocketInfoNoConfig.getCoresNum (s : CPlatformSocketInfoNoConfig) : Nat :=
  (s.threadsPerDualIf * s.dualIf + if s.latencyIsEnabled then 2 else 1) % 256

/-- `CPlatformSocketInfo`: `m_obj` is one of the two. -/
inductive CPlatformSocketInfo
  | config (s : CPlatformSocketInfoConfig)
  | noConfig (s : CPlatformSocketInfoNoConfig)

/-- `CPlatformSocketInfo::get_cores_num`. -/
def CPlatformSocketInfo.getCoresNum : CPlatformSocketInfo → Except Refused Nat
  | .config s => s.getCoresNum
  | .noConfig s => .ok s.getCoresNum

/-- `CPlatformSocketInfo::thread_phy_to_virt`. -/
def CPlatformSocketInfo.threadPhyToVirt : CPlatformSocketInfo → Nat → Except Refused Nat
  | .config s, phyId => s.threadPhyToVirt phyId
  | .noConfig _, phyId => .ok phyId

/-! ## 2. The start of the program -/

/-- What `CParserOption` says about threads. -/
structure CParserOption where
  expectedPortd : UInt16 := 4
  cores : UInt8 := 1
  latencyRate : Nat := 0
  singleCore : Bool := false
  vmOneQueueEnable : Bool := false
deriving DecidableEq, Repr

namespace CParserOption

/-- `get_expected_dual_ports`. -/
def getExpectedDualPorts (po : CParserOption) : Nat := po.expectedPortd.toNat / 2

/-- `get_number_of_dp_cores_needed`. -/
def getNumberOfDpCoresNeeded (po : CParserOption) : Nat := po.getExpectedDualPorts * po.cores.toNat

/-- `is_latency_enabled`. -/
def isLatencyEnabled (po : CParserOption) : Bool := po.latencyRate ≠ 0

end CParserOption

/-- `CPlatformSocketInfo::Create` and `update_dpdk_args`, up to the core mask. -/
def updateDpdkArgs (platform : Option CPlatformCoresYamlInfo) (po : CParserOption) :
    Except Refused CPlatformSocketInfo :=
  let numDualIf := po.getExpectedDualPorts % 256
  match platform with
  | none => .ok (.noConfig ⟨numDualIf, po.cores.toNat, po.isLatencyEnabled⟩)
  | some platform => do
    let s ← CPlatformSocketInfoConfig.init
      { platform, numDualIf, threadsPerDualIf := po.cores.toNat,
        latencyIsEnabled := po.isLatencyEnabled }
    s.checkCoresMask
    .ok (.config s)

/-- What `CGlobalTRex::Create` checks (`ixgbe_prob_init`, `cores_prob_init`, `queues_prob_init`).
`cpuCount` is `odp_cpu_count()`.  It returns `get_cores_tx()`. -/
def create (cpuCount : Nat) (po : CParserOption) : Except Refused Nat := do
  let maxPorts := po.expectedPortd.toNat
  refuseIf (maxPorts > bpMaxPorts) .maxPorts
  refuseIf (maxPorts % 2 ≠ 0) (.oddPorts maxPorts)
  refuseIf (po.vmOneQueueEnable ∧ po.cores.toNat > 1) .oneQueue
  let maxCores := 1 + po.getNumberOfDpCoresNeeded + if po.isLatencyEnabled then 1 else 0
  refuseIf (cpuCount < maxCores) .cpuCount
  refuseIf (maxCores < 2) .minCores
  refuseIf (maxPorts ∉ [4, 2, 8, 6]) (.portsSupported maxPorts)
  let coresTx := maxCores - if po.isLatencyEnabled then 2 else 1
  refuseIf (coresTx < maxPorts / 2) .portsPerCore
  refuseIf (po.cores.toNat > bpMaxTxQueue) .maxQueues
  refuseIf (po.cores.toNat = 0) .noQueue
  .ok coresTx

/-- What runs: how many traffic generation contexts there are, and the `virt_core_id` of every call
of `run_in_core`.  Its context is the one at `virt_core_id - 1`. -/
structure Launch where
  coresTx : Nat
  started : List Nat
deriving DecidableEq, Repr

/-- `main_test`.  `availWorkers` is `odp_cpumask_default_worker`: how many workers there are, when
so many are asked for. -/
def mainTest (cpuCount : Nat) (availWorkers : Nat → Nat) (platform : Option CPlatformCoresYamlInfo)
    (po : CParserOption) : Except Refused Launch := do
  let sock ← updateDpdkArgs platform po
  let coresTx ← create cpuCount po
  if po.singleCore then
    .ok { coresTx, started := [1] }
  else
    let coresNum ← sock.getCoresNum
    let reqNumWorkers := (coresNum - 1) % 256
    let availNumWorkers := availWorkers reqNumWorkers % 256
    refuseIf (availNumWorkers < reqNumWorkers) (.workers reqNumWorkers availNumWorkers)
    let started ← (List.range reqNumWorkers).mapM fun i => sock.threadPhyToVirt ((i + 1) % 256)
    .ok { coresTx, started }

/-- Every context runs in exactly one thread: the ids are those from 1 to `get_cores_tx()`, and none
is that of the master, 0, or that of the latency thread, which is one more. -/
def Launch.EachWorkerOnce (l : Launch) : Prop := l.started.Perm (List.range' 1 l.coresTx)

/-- The threads that a configuration gives to the workers: the first `threadsPerDualIf` of each of
the first `numDualIf` pairs. -/
def CPlatformCoresYamlInfo.workerThreads (platform : CPlatformCoresYamlInfo)
    (numDualIf threadsPerDualIf : Nat) : List Nat :=
  (platform.dualIf.take numDualIf).flatMap fun lp =>
    (lp.threads.take threadsPerDualIf).map UInt8.toNat

/-- When `main_test` starts every worker once.  With one core, there is to be one worker; else there
is no latency thread, and the workers of the configuration, if there is one, are the threads from 1
on. -/
def StartsAll (platform : Option CPlatformCoresYamlInfo) (po : CParserOption) : Prop :=
  if po.singleCore then po.getNumberOfDpCoresNeeded = 1
  else po.isLatencyEnabled = false ∧ ∀ cfg, platform = some cfg →
    ∀ k, 1 ≤ k → k ≤ po.getNumberOfDpCoresNeeded →
      k ∈ cfg.workerThreads po.getExpectedDualPorts po.cores.toNat

/-! ## 3. The maps of `init` -/

theorem refuseIf_bind {β : Type} {c : Prop} [Decidable c] {e : Refused}
    {f : Unit → Except Refused β} {b : β} (h : (refuseIf c e >>= f) = .ok b) :
    ¬ c ∧ f () = .ok b := by
  unfold refuseIf at h
  split at h
  · cases h
  · rename_i hc
    exact ⟨hc, h⟩

/-- The virtual ids of `d` pairs with `m` threads each, in the order of `init`. -/
def virtualIds (d m : Nat) : List Nat :=
  (List.range d).flatMap fun i => (List.range m).map fun j => 1 + i + j * d

theorem mem_virtualIds {d m v : Nat} :
    v ∈ virtualIds d m ↔ ∃ i < d, ∃ j < m, v = 1 + i + j * d := by
  simp only [virtualIds, mem_flatMap, mem_range, mem_map]
  constructor
  · rintro ⟨i, hi, j, hj, rfl⟩
    exact ⟨i, hi, j, hj, rfl⟩
  · rintro ⟨i, hi, j, hj, rfl⟩
    exact ⟨i, hi, j, hj, rfl⟩

/-- A pair and a thread of it are read off the virtual id. -/
theorem virtualId_inj {d i j i' j' : Nat} (hi : i < d) (hi' : i' < d)
    (h : 1 + i + j * d = 1 + i' + j' * d) : i = i' ∧ j = j' := by
  have hmod : (i + j * d) % d = (i' + j' * d) % d := by
    congr 1
    omega
  rw [Nat.add_mul_mod_self_right, Nat.add_mul_mod_self_right, Nat.mod_eq_of_lt hi,
    Nat.mod_eq_of_lt hi'] at hmod
  subst hmod
  have hmul : j * d = j' * d := by omega
  exact ⟨rfl, Nat.eq_of_mul_eq_mul_right (by omega) hmul⟩

/-- **The virtual ids are numbered from 1**, each of them once. -/
theorem virtualIds_perm (d m : Nat) : (virtualIds d m).Perm (List.range' 1 (d * m)) := by
  refine (perm_ext_iff_of_nodup ?_ nodup_range').mpr ?_
  · refine nodup_flatMap.mpr ⟨fun i hi => ?_, ?_⟩
    · refine nodup_range.map_on ?_
      intro j _ j' _ hjj
      exact (virtualId_inj (mem_range.mp hi) (mem_range.mp hi) hjj).2
    · refine nodup_range.pairwise_of_forall_ne ?_
      intro i hi i' hi' hne v hv hv'
      obtain ⟨j, -, rfl⟩ := mem_map.mp hv
      obtain ⟨j', -, hjj⟩ := mem_map.mp hv'
      exact hne (virtualId_inj (mem_range.mp hi') (mem_range.mp hi) hjj).1.symm
  · intro v
    rw [mem_virtualIds, mem_range'_1]
    constructor
    · rintro ⟨i, hi, j, hj, rfl⟩
      have hle : j * d + d ≤ m * d := by
        rw [← Nat.succ_mul]
        exact Nat.mul_le_mul_right d hj
      rw [Nat.mul_comm d m]
      omega
    · rintro ⟨hlo, hhi⟩
      have hd : 0 < d := by
        rcases Nat.eq_zero_or_pos d with rfl | hd
        · omega
        · exact hd
      refine ⟨(v - 1) % d, Nat.mod_lt _ hd, (v - 1) / d, ?_, ?_⟩
      · rw [Nat.div_lt_iff_lt_mul hd, Nat.mul_comm]
        omega
      · have hdiv := Nat.mod_add_div' (v - 1) d
        omega

namespace CPlatformSocketInfoConfig

/-- The arrays after the threads `ids` were numbered: they have the virtual ids `virts`, and all
other entries are 0. -/
structure Mapped (s : CPlatformSocketInfoConfig) (ids virts : List Nat) : Prop where
  nodup : ids.Nodup
  bound : ∀ k ∈ ids, k < maxThreadsSupported
  virtual : ids.map s.threadPhyToVirtual = virts
  used : ∀ k, s.threadPhyToVirtual k ≠ 0 ↔ k ∈ ids

/-- What `init` does not change. -/
structure Asked (s s' : CPlatformSocketInfoConfig) : Prop where
  platform : s'.platform = s.platform
  numDualIf : s'.numDualIf = s.numDualIf
  threadsPerDualIf : s'.threadsPerDualIf = s.threadsPerDualIf
  latencyIsEnabled : s'.latencyIsEnabled = s.latencyIsEnabled

variable {s s' : CPlatformSocketInfoConfig} {ids virts : List Nat} {i j : Nat}
  {lp : CPlatformDualIfYamlInfo}

theorem Asked.trans {s'' : CPlatformSocketInfoConfig} (h : Asked s s') (h' : Asked s' s'') :
    Asked s s'' :=
  ⟨h'.platform.trans h.platform, h'.numDualIf.trans h.numDualIf,
    h'.threadsPerDualIf.trans h.threadsPerDualIf, h'.latencyIsEnabled.trans h.latencyIsEnabled⟩

/-- One thread is numbered. -/
theorem Mapped.initThread (h : s.Mapped ids virts) (hvirt : 1 + i + j * s.numDualIf < 256)
    (hrun : initThread i lp s j = .ok s') :
    ∃ thread, lp.threads[j]? = some thread ∧ Asked s s' ∧
      s'.Mapped (ids ++ [thread.toNat]) (virts ++ [1 + i + j * s.numDualIf]) := by
  unfold CPlatformSocketInfoConfig.initThread at hrun
  cases hlp : lp.threads[j]? with
  | none =>
    simp only [hlp] at hrun
    cases hrun
  | some thread =>
    simp only [hlp] at hrun
    obtain ⟨hphy, hrun⟩ := refuseIf_bind hrun
    obtain ⟨-, hrun⟩ := refuseIf_bind hrun
    obtain ⟨hlast, hrun⟩ := refuseIf_bind hrun
    obtain ⟨hnew, hrun⟩ := refuseIf_bind hrun
    cases hrun
    have hnot : thread.toNat ∉ ids := fun hmem => hnew ((h.used _).mpr hmem)
    have hsame : ∀ k, k ≠ thread.toNat → Function.update s.threadPhyToVirtual thread.toNat
        ((1 + i + j * s.numDualIf) % 256) k = s.threadPhyToVirtual k :=
      fun k hk => Function.update_of_ne hk _ _
    refine ⟨thread, rfl, ⟨rfl, rfl, rfl, rfl⟩, ?_, ?_, ?_, ?_⟩
    · rw [← concat_eq_append]
      exact h.nodup.concat hnot
    · intro k hk
      rcases mem_append.mp hk with hk | hk
      · exact h.bound k hk
      · rw [mem_singleton.mp hk]
        omega
    · rw [map_append, ← h.virtual]
      congr 1
      · refine map_congr_left fun k hk => hsame k ?_
        rintro rfl
        exact hnot hk
      · simp [Nat.mod_eq_of_lt hvirt]
    · intro k
      rw [mem_append, mem_singleton]
      by_cases hk : k = thread.toNat
      · subst hk
        simp [Nat.mod_eq_of_lt hvirt]
      · rw [← h.used k]
        simp [hk]

/-- The threads of one pair are numbered. -/
theorem Mapped.initThreads (h : s.Mapped ids virts)
    (hvirt : ∀ j < s.threadsPerDualIf, 1 + i + j * s.numDualIf < 256)
    (hrun : (List.range s.threadsPerDualIf).foldlM (CPlatformSocketInfoConfig.initThread i lp) s =
      .ok s') :
    Asked s s' ∧
      s'.Mapped (ids ++ (lp.threads.take s.threadsPerDualIf).map UInt8.toNat)
        (virts ++ (List.range s.threadsPerDualIf).map fun j => 1 + i + j * s.numDualIf) := by
  refine foldlM_range (P := fun m s' => Asked s s' ∧
    s'.Mapped (ids ++ (lp.threads.take m).map UInt8.toNat)
      (virts ++ (List.range m).map fun j => 1 + i + j * s.numDualIf)) s.threadsPerDualIf ?_
    ⟨⟨rfl, rfl, rfl, rfl⟩, by simpa using h⟩ hrun
  rintro j s1 s2 hj ⟨hasked1, h1⟩ hturn
  have hlt := hvirt j hj
  rw [← hasked1.numDualIf] at hlt
  obtain ⟨thread, hthread, hasked2, h2⟩ := h1.initThread hlt hturn
  refine ⟨hasked1.trans hasked2, ?_⟩
  rw [take_add_one, hthread, range_succ]
  simpa [append_assoc, hasked1.numDualIf] using h2

/-- Another bound on the threads of a pair is no other map. -/
theorem Mapped.withMax (h : s.Mapped ids virts) (n : Nat) :
    ({ s with maxThreadsPerDualIf := n } : CPlatformSocketInfoConfig).Mapped ids virts :=
  ⟨h.nodup, h.bound, h.virtual, h.used⟩

/-- One pair is numbered. -/
theorem Mapped.initDualIf (h : s.Mapped ids virts)
    (hvirt : ∀ j < s.threadsPerDualIf, 1 + i + j * s.numDualIf < 256)
    (hrun : s.initDualIf i = .ok s') :
    ∃ lp, s.platform.dualIf[i]? = some lp ∧ Asked s s' ∧
      s'.Mapped (ids ++ (lp.threads.take s.threadsPerDualIf).map UInt8.toNat)
        (virts ++ (List.range s.threadsPerDualIf).map fun j => 1 + i + j * s.numDualIf) := by
  unfold CPlatformSocketInfoConfig.initDualIf at hrun
  cases hlp : s.platform.dualIf[i]? with
  | none =>
    simp only [hlp] at hrun
    cases hrun
  | some lp =>
    simp only [hlp] at hrun
    obtain ⟨-, hrun⟩ := refuseIf_bind hrun
    obtain ⟨-, hrun⟩ := refuseIf_bind hrun
    obtain ⟨hasked, hmapped⟩ :=
      (h.withMax (if i = 0 then lp.threads.length else s.maxThreadsPerDualIf)).initThreads hvirt
        hrun
    exact ⟨lp, rfl, ⟨hasked.platform, hasked.numDualIf, hasked.threadsPerDualIf,
      hasked.latencyIsEnabled⟩, hmapped⟩

/-- **The maps of `init`**: the threads of the configuration have the virtual ids, in their
order. -/
theorem init_mapped (hvirtual : s.threadPhyToVirtual = fun _ => 0)
    (hsize : s.numDualIf * s.threadsPerDualIf < 256) (hrun : s.init = .ok s') :
    Asked s s' ∧ s'.Mapped (s.platform.workerThreads s.numDualIf s.threadsPerDualIf)
      (virtualIds s.numDualIf s.threadsPerDualIf) := by
  have hempty : s.Mapped [] [] :=
    ⟨nodup_nil, by simp, rfl, by simp [hvirtual]⟩
  obtain ⟨s1, hloop, hrun⟩ := bind_eq_ok hrun
  have hloop' : Asked s s1 ∧ s1.Mapped (s.platform.workerThreads s.numDualIf s.threadsPerDualIf)
      (virtualIds s.numDualIf s.threadsPerDualIf) := by
    refine foldlM_range (P := fun d s' => Asked s s' ∧
      s'.Mapped (s.platform.workerThreads d s.threadsPerDualIf)
        ((List.range d).flatMap fun i => (List.range s.threadsPerDualIf).map
          fun j => 1 + i + j * s.numDualIf)) s.numDualIf ?_ ⟨⟨rfl, rfl, rfl, rfl⟩, hempty⟩ hloop
    rintro i s2 s3 hi ⟨hasked2, h2⟩ hturn
    have hvirt : ∀ j < s2.threadsPerDualIf, 1 + i + j * s2.numDualIf < 256 := by
      intro j hj
      rw [hasked2.threadsPerDualIf] at hj
      rw [hasked2.numDualIf]
      have hle : j * s.numDualIf + s.numDualIf ≤ s.threadsPerDualIf * s.numDualIf := by
        rw [← Nat.succ_mul]
        exact Nat.mul_le_mul_right _ hj
      rw [Nat.mul_comm] at hsize
      omega
    obtain ⟨lp, hlp, hasked3, h3⟩ := h2.initDualIf hvirt hturn
    refine ⟨hasked2.trans hasked3, ?_⟩
    rw [hasked2.platform] at hlp
    have hids : s.platform.workerThreads (i + 1) s.threadsPerDualIf =
        s.platform.workerThreads i s.threadsPerDualIf ++
          (lp.threads.take s.threadsPerDualIf).map UInt8.toNat := by
      simp [CPlatformCoresYamlInfo.workerThreads, take_add_one, hlp]
    rw [hids, range_succ, flatMap_append]
    simpa [hasked2.threadsPerDualIf, hasked2.numDualIf] using h3
  obtain ⟨-, hrun⟩ := refuseIf_bind hrun
  obtain ⟨-, hrun⟩ := refuseIf_bind hrun
  obtain ⟨-, hrun⟩ := refuseIf_bind hrun
  obtain ⟨-, hrun⟩ := refuseIf_bind hrun
  obtain ⟨-, hrun⟩ := refuseIf_bind hrun
  cases hrun
  exact hloop'

/-- As many threads are used as were numbered. -/
theorem Mapped.usedThreads_length (h : s.Mapped ids virts) :
    s.usedThreads.length = virts.length := by
  have hperm : s.usedThreads.Perm ids := by
    refine (perm_ext_iff_of_nodup (nodup_range.filter _) h.nodup).mpr ?_
    intro k
    rw [mem_filter, mem_range, decide_eq_true_eq, h.used]
    exact ⟨fun hk => hk.2, fun hk => ⟨h.bound k hk, hk⟩⟩
  rw [hperm.length_eq, ← h.virtual, length_map]

/-- The virtual ids of the threads from 1 on are all virtual ids, if these are the threads that were
numbered. -/
theorem Mapped.perm_iff (h : s.Mapped ids virts) {n : Nat} (hvirts : virts.Perm (List.range' 1 n)) :
    ((List.range' 1 n).map s.threadPhyToVirtual).Perm (List.range' 1 n) ↔
      ∀ k, 1 ≤ k → k ≤ n → k ∈ ids := by
  constructor
  · intro hperm k hlo hhi
    refine (h.used k).mp ?_
    have hmem : s.threadPhyToVirtual k ∈ List.range' 1 n := by
      refine hperm.mem_iff.mp (mem_map_of_mem ?_)
      rw [mem_range'_1]
      omega
    rw [mem_range'_1] at hmem
    omega
  · intro hall
    have hlen : ids.length = (List.range' 1 n).length := by
      rw [← hvirts.length_eq, ← h.virtual, length_map]
    have hsub : (List.range' 1 n).Subperm ids := by
      refine subperm_of_subset nodup_range' ?_
      intro k hk
      rw [mem_range'_1] at hk
      exact hall k hk.1 (by omega)
    have hids : (List.range' 1 n).Perm ids := hsub.perm_of_length_le hlen.le
    exact (hids.map s.threadPhyToVirtual).trans (h.virtual ▸ hvirts)

end CPlatformSocketInfoConfig

/-! ## 4. What is started -/

variable {cpuCount : Nat} {availWorkers : Nat → Nat} {platform : Option CPlatformCoresYamlInfo}
  {po : CParserOption}

/-- What the checks let through: a context for each core of each pair of ports, and not many. -/
theorem create_eq_ok {coresTx : Nat} (h : create cpuCount po = .ok coresTx) :
    coresTx = po.getNumberOfDpCoresNeeded ∧ po.getExpectedDualPorts ≤ 4 ∧ po.cores.toNat ≤ 16 := by
  unfold create at h
  obtain ⟨-, h⟩ := refuseIf_bind h
  obtain ⟨-, h⟩ := refuseIf_bind h
  obtain ⟨-, h⟩ := refuseIf_bind h
  obtain ⟨-, h⟩ := refuseIf_bind h
  obtain ⟨-, h⟩ := refuseIf_bind h
  obtain ⟨hports, h⟩ := refuseIf_bind h
  obtain ⟨-, h⟩ := refuseIf_bind h
  obtain ⟨hqueues, h⟩ := refuseIf_bind h
  obtain ⟨-, h⟩ := refuseIf_bind h
  cases h
  refine ⟨?_, ?_, by simpa [bpMaxTxQueue] using hqueues⟩
  · cases po.isLatencyEnabled with
    | false => simp
    | true =>
      simp only [↓reduceIte]
      omega
  · simp only [mem_cons, not_mem_nil, or_false, not_not] at hports
    unfold CParserOption.getExpectedDualPorts
    omega

theorem virtualIds_length (d m : Nat) : (virtualIds d m).length = d * m := by
  rw [(virtualIds_perm d m).length_eq, length_range']

/-- The virtual ids of a platform: those of the configuration, or the physical ids themselves. -/
def Numbers (platform : Option CPlatformCoresYamlInfo) (po : CParserOption) (f : Nat → Nat) :
    Prop :=
  match platform with
  | none => f = id
  | some cfg => ∃ s : CPlatformSocketInfoConfig, f = s.threadPhyToVirtual ∧
      s.Mapped (cfg.workerThreads po.getExpectedDualPorts po.cores.toNat)
        (virtualIds po.getExpectedDualPorts po.cores.toNat)

/-- The sockets of a program that goes on: how many cores they count, and which ids they give. -/
theorem updateDpdkArgs_eq_ok {sock : CPlatformSocketInfo}
    (h : updateDpdkArgs platform po = .ok sock) (hports : po.getExpectedDualPorts ≤ 4)
    (hcores : po.cores.toNat ≤ 16) :
    ∃ f, Numbers platform po f ∧
      (∀ coresNum, sock.getCoresNum = .ok coresNum →
        coresNum = (po.getNumberOfDpCoresNeeded + if po.isLatencyEnabled then 2 else 1) % 256) ∧
      ∀ k, k < maxThreadsSupported → sock.threadPhyToVirt k = .ok (f k) := by
  have hmod : po.getExpectedDualPorts % 256 = po.getExpectedDualPorts := Nat.mod_eq_of_lt (by omega)
  have hsize : po.getExpectedDualPorts * po.cores.toNat < 256 :=
    lt_of_le_of_lt (Nat.mul_le_mul hports hcores) (by decide)
  unfold updateDpdkArgs at h
  rw [hmod] at h
  cases platform with
  | none =>
    cases h
    refine ⟨id, rfl, ?_, fun k _ => rfl⟩
    intro coresNum hnum
    cases hnum
    unfold CPlatformSocketInfoNoConfig.getCoresNum CParserOption.getNumberOfDpCoresNeeded
    rw [Nat.mul_comm]
  | some cfg =>
    obtain ⟨s, hinit, h⟩ := bind_eq_ok h
    obtain ⟨-, -, h⟩ := bind_eq_ok h
    cases h
    obtain ⟨hasked, hmapped⟩ := CPlatformSocketInfoConfig.init_mapped rfl hsize hinit
    have hlatency : s.latencyIsEnabled = po.isLatencyEnabled := hasked.latencyIsEnabled
    refine ⟨s.threadPhyToVirtual, ⟨s, rfl, hmapped⟩, ?_, ?_⟩
    · intro coresNum hnum
      obtain ⟨-, hnum⟩ := refuseIf_bind hnum
      rw [hmapped.usedThreads_length, virtualIds_length, hlatency] at hnum
      exact (Except.ok.inj hnum).symm
    · intro k hk
      show s.threadPhyToVirt k = _
      unfold CPlatformSocketInfoConfig.threadPhyToVirt refuseIf
      simp [Nat.not_le.mpr hk, ok_bind]

/-- The ids that the loop of `main_test` looks up. -/
theorem lookups_eq {f : Nat → Nat} {g : Nat → Except Refused Nat} {n : Nat}
    (hn : n < maxThreadsSupported) (hg : ∀ k, k < maxThreadsSupported → g k = .ok (f k)) :
    ((List.range n).mapM fun i => g ((i + 1) % 256)) = .ok ((List.range' 1 n).map f) := by
  have hturn : ∀ i ∈ List.range n, g ((i + 1) % 256) = .ok (f (1 + i)) := by
    intro i hi
    have hlt : i < n := mem_range.mp hi
    unfold maxThreadsSupported at hn hg
    rw [Nat.mod_eq_of_lt (by omega), Nat.add_comm i 1]
    exact hg (1 + i) (by omega)
  rw [mapM_eq_ok (List.range n) hturn, range'_eq_map_range, map_map]
  rfl

/-- What was launched: the lookups of the ids from 1 on, and of one id more for the latency
thread. -/
theorem mainTest_eq_ok {l : Launch} (h : mainTest cpuCount availWorkers platform po = .ok l)
    (hmulti : po.singleCore = false) :
    ∃ f, Numbers platform po f ∧ l.coresTx = po.getNumberOfDpCoresNeeded ∧
      l.started =
        (List.range' 1 (po.getNumberOfDpCoresNeeded + if po.isLatencyEnabled then 1 else 0)).map
            f := by
  obtain ⟨sock, hsock, h⟩ := bind_eq_ok h
  obtain ⟨coresTx, hcreate, h⟩ := bind_eq_ok h
  obtain ⟨hcoresTx, hports, hcores⟩ := create_eq_ok hcreate
  have hsize : po.getNumberOfDpCoresNeeded ≤ 64 := Nat.mul_le_mul hports hcores
  obtain ⟨f, hf, hcount, hlookup⟩ := updateDpdkArgs_eq_ok hsock hports hcores
  simp only [hmulti, Bool.false_eq_true, ↓reduceIte] at h
  obtain ⟨coresNum, hnum, h⟩ := bind_eq_ok h
  obtain ⟨-, h⟩ := refuseIf_bind h
  obtain ⟨started, hstarted, h⟩ := bind_eq_ok h
  cases h
  have hreq : (coresNum - 1) % 256 =
      po.getNumberOfDpCoresNeeded + if po.isLatencyEnabled then 1 else 0 := by
    rw [hcount coresNum hnum]
    cases po.isLatencyEnabled with
    | false =>
      simp only [Bool.false_eq_true, ↓reduceIte]
      omega
    | true =>
      simp only [↓reduceIte]
      omega
  have hlt : po.getNumberOfDpCoresNeeded + (if po.isLatencyEnabled then 1 else 0) <
      maxThreadsSupported := by
    unfold maxThreadsSupported
    split <;> omega
  rw [hreq, lookups_eq hlt hlookup] at hstarted
  cases hstarted
  exact ⟨f, hf, hcoresTx, rfl⟩

/-- **Which programs start every worker once.**  After `init` the tables are `Mapped`: a worker of
the configuration has its virtual id, and every other thread 0. -/
theorem launch_iff {l : Launch} (h : mainTest cpuCount availWorkers platform po = .ok l) :
    l.EachWorkerOnce ↔ StartsAll platform po := by
  unfold Launch.EachWorkerOnce StartsAll
  cases hsingle : po.singleCore with
  | true =>
    obtain ⟨sock, -, h⟩ := bind_eq_ok h
    obtain ⟨coresTx, hcreate, h⟩ := bind_eq_ok h
    obtain ⟨hcoresTx, -, -⟩ := create_eq_ok hcreate
    simp only [hsingle, ↓reduceIte] at h ⊢
    cases h
    rw [← hcoresTx]
    constructor
    · intro hperm
      simpa using hperm.length_eq.symm
    · rintro rfl
      exact List.Perm.refl _
  | false =>
    obtain ⟨f, hplatform, hcoresTx, hstarted⟩ := mainTest_eq_ok h hsingle
    rw [hcoresTx, hstarted]
    simp only [Bool.false_eq_true, ↓reduceIte]
    cases po.isLatencyEnabled with
    | true =>
      simp only [Bool.true_eq_false, false_and, iff_false, ↓reduceIte]
      intro hperm
      have hlen := hperm.length_eq
      rw [length_map, length_range', length_range'] at hlen
      omega
    | false =>
      simp only [Bool.false_eq_true, ↓reduceIte, Nat.add_zero, true_and]
      cases platform with
      | none =>
        have hf : f = id := hplatform
        subst hf
        rw [map_id]
        exact ⟨fun _ cfg hcfg => (by cases hcfg), fun _ => List.Perm.refl _⟩
      | some cfg =>
        obtain ⟨s, rfl, hmapped⟩ := hplatform
        have hvirts : (virtualIds po.getExpectedDualPorts po.cores.toNat).Perm
            (List.range' 1 po.getNumberOfDpCoresNeeded) := virtualIds_perm _ _
        rw [hmapped.perm_iff hvirts]
        constructor
        · rintro hall cfg' hcfg
          cases hcfg
          exact hall
        · exact fun hall => hall cfg rfl

/-- Four workers on the threads 1 to 4. -/
theorem launch_iff_threadsFromOne :
    ∃ l, mainTest 8 id (some ⟨0, 5, [⟨0, [1, 2, 3, 4]⟩]⟩) { expectedPortd := 2, cores := 4 } =
      .ok l ∧ l.EachWorkerOnce := by
  have hrun : mainTest 8 id (some ⟨0, 5, [⟨0, [1, 2, 3, 4]⟩]⟩) { expectedPortd := 2, cores := 4 } =
      .ok ⟨4, [1, 2, 3, 4]⟩ := by decide +kernel
  refine ⟨_, hrun, (launch_iff hrun).mpr ⟨rfl, ?_⟩⟩
  rintro cfg hcfg k hlo hhi
  cases hcfg
  have hle : k ≤ 4 := hhi
  show k ∈ [1, 2, 3, 4]
  simp only [mem_cons, not_mem_nil, or_false]
  omega

/-- Two pairs of ports on the threads 1 to 4 and 8 to 11: one worker of the second pair is started,
and the id of the master three times. -/
theorem twoPairs_not_each_once :
    ∃ l, mainTest 16 id (some ⟨0, 5, [⟨1, [1, 2, 3, 4]⟩, ⟨0, [8, 9, 10, 11]⟩]⟩)
        { expectedPortd := 4, cores := 4 } = .ok l ∧
      l.coresTx = 8 ∧ l.started = [1, 3, 5, 7, 0, 0, 0, 2] ∧ ¬ l.EachWorkerOnce := by
  refine ⟨⟨8, [1, 3, 5, 7, 0, 0, 0, 2]⟩, by decide +kernel, rfl, rfl, ?_⟩
  intro hperm
  have hmem : (0 : Nat) ∈ List.range' 1 8 := hperm.mem_iff.mp (by decide)
  exact absurd hmem (by decide)

end Trex.Cfg
