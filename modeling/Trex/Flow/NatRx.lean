/-
# The messages of the RX core about NAT

The RX core collects the translations of the flows of each thread in a message node, and gives the
node to the ring of the thread when it is full or when it is old (`CNatRxManager`, `nat_check.cpp`).
The thread takes the nodes out of its ring, reads them and frees them (`check_msgs`, `bp_sim.cpp`).

`learn_lossless` says that this loses nothing: the manager refines a batch for each thread
(`Lib.Batch`), whatever the order of packets, ticks and what the threads do, and it writes only to
nodes that are its own.  A run in which every event gets the node and the room in a ring that it
needs (`areSupplied`) returns.

* the nodes are in a memory with any content, some of it in use by others; `create_node` gives any
  address that is not in use;
* an enqueue may fail some times before it succeeds;
* the messages with latency packets (`CLatencyVmPort::tx`) go through the same rings.
-/
import Trex.Flow.NatLearn
import Trex.Lib.Batch
import Trex.Lib.Post

namespace Trex.Flow

open Trex.Lib List
open Function (update update_of_ne update_self)

/-! ## 1. The manager -/

/-- `m_msg_type` -/
inductive MsgType
  | natFirst
  | latencyPkt
deriving DecidableEq, Repr

/-- `CGenNodeNatInfo` -/
structure CGenNodeNatInfo where
  msgType : MsgType
  cnt : Nat
  data : Nat → CNatFlowInfo

/-- The entries that `handel_nat_msg` reads. -/
def CGenNodeNatInfo.entries (node : CGenNodeNatInfo) :
    List CNatFlowInfo := (List.range node.cnt).map node.data

/-- `get_next_msg`, and the entry is filled. -/
def CGenNodeNatInfo.addMsg (node : CGenNodeNatInfo) (msg : CNatFlowInfo) : CGenNodeNatInfo :=
  { node with data := update node.data node.cnt msg, cnt := node.cnt + 1 }

theorem CGenNodeNatInfo.entries_addMsg (node : CGenNodeNatInfo) (msg : CNatFlowInfo) :
    (node.addMsg msg).entries = node.entries ++ [msg] := by
  unfold entries addMsg
  rw [range_succ, map_append]
  congr 1
  · refine map_congr_left fun k hk => ?_
    exact update_of_ne (mem_range.mp hk).ne ..
  · simp only [map_singleton, update_self]

@[simp] theorem CGenNodeNatInfo.length_entries (node : CGenNodeNatInfo) :
    node.entries.length = node.cnt := by
  rw [entries, length_map, length_range]

/-- `MAX_NAT_FLOW_INFO` -/
def natFlowInfos (x86_64 : Bool) : Nat := if x86_64 then maxNatFlowInfo else 8

/-- `MAX_TIME_MSG_IN_QUEUE_SEC` -/
def maxTimeMsgInQueueSec : Rat := 2 / 1000

/-- `CNatPerThreadInfo`, with the content of its ring. -/
structure CNatPerThreadInfo where
  lastTime : Rat := 0
  curNatMsg : Option Nat := none
  ring : List Nat := []
deriving DecidableEq, Repr

/-- The counters of `CNatStats` that are used. -/
structure CNatStats where
  errNoValidThreadId : Nat := 0
  errNoValidProto : Nat := 0
  errQueueFull : Nat := 0
deriving DecidableEq, Repr

/-- `CNatRxManager`, the memory of the nodes, and each thread: the node it took out of its ring, and
the entries of every message it read, which is a history. -/
structure CNatRxManager where
  maxThreads : UInt8
  perThread : Nat → CNatPerThreadInfo := fun _ => {}
  stats : CNatStats := {}
  mem : Nat → CGenNodeNatInfo
  live : Nat → Bool
  hand : Nat → Option Nat := fun _ => none
  handled : Nat → List (List CNatFlowInfo) := fun _ => []

/-- How a run ends, and what the code must not do. -/
inductive NatRxFault
  /-- `rte_exit` of `create_node` -/
  | noNode
  /-- `exit(1)` of `flush_node` -/
  | stuck
  /-- The allocator gives a node that is in use. -/
  | inUse
  /-- A node that is not in use is read, written or freed. -/
  | freed
  /-- A node is written that is in a ring or that a thread has. -/
  | enqueued
  /-- A write behind the last entry. -/
  | overrun
  /-- A null pointer is enqueued. -/
  | nullNode
deriving DecidableEq, Repr

namespace CNatRxManager

/-- `Create` -/
def create (maxThreads : UInt8) (mem : Nat → CGenNodeNatInfo) (live : Nat → Bool) :
    CNatRxManager where
  maxThreads := maxThreads
  mem := mem
  live := live

def setThread (i : Nat) (info : CNatPerThreadInfo) (s : CNatRxManager) : CNatRxManager :=
  { s with perThread := update s.perThread i info }

/-- `create_node`, with what the allocator gives. -/
def createNode (given : Option Nat) (s : CNatRxManager) : Except NatRxFault (Nat × CNatRxManager) :=
  match given with
  | none => .error .noNode
  | some p => if s.live p then .error .inUse else .ok (p, { s with live := update s.live p true })

/-- The node is in a ring, or a thread has it. -/
def sent (p : Nat) (s : CNatRxManager) : Bool :=
  (List.range s.maxThreads.toNat).any fun i => s.hand i == some p || (s.perThread i).ring.contains p

/-- The RX core writes a node. -/
def write (p : Nat) (node : CGenNodeNatInfo) (s : CNatRxManager) :
    Except NatRxFault CNatRxManager :=
  if !s.live p then .error .freed
  else if s.sent p then .error .enqueued
  else .ok { s with mem := update s.mem p node }

/-- `flush_node`, where the enqueue fails `fails` times. -/
def flushNode (fails i : Nat) (s : CNatRxManager) : Except NatRxFault CNatRxManager :=
  let info := s.perThread i
  match info.curNatMsg with
  | none => .error .nullNode
  | some p =>
    if 10 < fails then .error .stuck
    else .ok ({ s with stats := { s.stats with errQueueFull := s.stats.errQueueFull + fails }
      }.setThread i { info with ring := info.ring ++ [p], curNatMsg := none })

/-- The message of a thread: `m_cur_nat_msg`, or a new one. -/
def curMsg (given : Option Nat) (now : Rat) (i : Nat) (s : CNatRxManager) :
    Except NatRxFault (Nat × CNatRxManager) :=
  match (s.perThread i).curNatMsg with
  | some p => .ok (p, s)
  | none => do
    let (p, s) ← s.createNode given
    -- `init`
    let s ← s.write p { s.mem p with msgType := .natFirst, cnt := 0 }
    .ok (p, s.setThread i { s.perThread i with curNatMsg := some p, lastTime := now })

/-- The entry of a packet is added to the message. -/
def addEntry (x86_64 : Bool) (p : Nat) (msg : CNatFlowInfo) (s : CNatRxManager) :
    Except NatRxFault CNatRxManager :=
  if natFlowInfos x86_64 ≤ (s.mem p).cnt then .error .overrun else s.write p ((s.mem p).addMsg msg)

/-- `handle_packet_ipv4` -/
def handlePacketIpv4 (x86_64 : Bool) (option : CNatOption) (ipv4 : RxPacket) (given : Option Nat)
    (now : Rat) (fails : Nat) (s : CNatRxManager) : Except NatRxFault CNatRxManager :=
  let i := option.threadId.toNat
  if ¬ option.threadId < s.maxThreads then
    .ok { s with stats := { s.stats with errNoValidThreadId := s.stats.errNoValidThreadId + 1 } }
  else if ¬ (ipv4.protocol = 6 ∨ ipv4.protocol = 17) then
    .ok { s with stats := { s.stats with errNoValidProto := s.stats.errNoValidProto + 1 } }
  else do
    let (p, s) ← s.curMsg given now i
    let s ← s.addEntry x86_64 p
      { externalIp := ipv4.sourceIp, externalIpServer := ipv4.destIp, fid := option.fid,
        externalPort := ipv4.sourcePort }
    if (s.mem p).cnt = natFlowInfos x86_64 then s.flushNode fails i else .ok s

/-- The loop body of `handle_aging`. -/
def ageThread (now : Rat) (fails : Nat → Nat) (s : CNatRxManager) (i : Nat) :
    Except NatRxFault CNatRxManager :=
  let info := s.perThread i
  if info.curNatMsg.isSome then
    if now - info.lastTime > maxTimeMsgInQueueSec then s.flushNode (fails i) i else .ok s
  else .ok s

/-- `handle_aging` -/
def handleAging (now : Rat) (fails : Nat → Nat) (s : CNatRxManager) :
    Except NatRxFault CNatRxManager :=
  (List.range s.maxThreads.toNat).foldlM (ageThread now fails) s

/-- `CLatencyVmPort::tx`: the node is lost if the ring has no room. -/
def latencyTx (given : Option Nat) (room : Bool) (i : Nat) (s : CNatRxManager) :
    Except NatRxFault CNatRxManager := do
  let (p, s) ← s.createNode given
  let s ← s.write p { s.mem p with msgType := .latencyPkt }
  let info := s.perThread i
  .ok (if room then s.setThread i { info with ring := info.ring ++ [p] } else s)

/-- `check_msgs` of thread `i`: `Dequeue`. -/
def dequeue (i : Nat) (s : CNatRxManager) : CNatRxManager :=
  match s.hand i, (s.perThread i).ring with
  | none, p :: ring =>
    { s with hand := update s.hand i (some p) }.setThread i { s.perThread i with ring := ring }
  | _, _ => s

/-- `check_msgs` of thread `i`: the message is handled and the node is freed. -/
def handleMsg (i : Nat) (s : CNatRxManager) : Except NatRxFault CNatRxManager :=
  match s.hand i with
  | none => .ok s
  | some p =>
    if !s.live p then .error .freed
    else
      let s := { s with live := update s.live p false, hand := update s.hand i none }
      match (s.mem p).msgType with
      | .natFirst => .ok { s with
          handled := update s.handled i (s.handled i ++ [(s.mem p).entries]) }
      | .latencyPkt => .ok s

/-! ## 2. Runs -/

end CNatRxManager

/-- What can happen next. -/
inductive NatRxEvent
  | packet (option : CNatOption) (ipv4 : RxPacket) (given : Option Nat) (now : Rat) (fails : Nat)
  | aging (now : Rat) (fails : Nat → Nat)
  | latency (given : Option Nat) (room : Bool) (i : UInt8)
  | dequeue (i : UInt8)
  | handle (i : UInt8)

namespace CNatRxManager

/-- One event.  There are no more threads than rings. -/
def step (x86_64 : Bool) (s : CNatRxManager) : NatRxEvent → Except NatRxFault CNatRxManager
  | .packet option ipv4 given now fails => s.handlePacketIpv4 x86_64 option ipv4 given now fails
  | .aging now fails => s.handleAging now fails
  | .latency given room i => if i < s.maxThreads then s.latencyTx given room i.toNat else .ok s
  | .dequeue i => .ok (if i < s.maxThreads then s.dequeue i.toNat else s)
  | .handle i => if i < s.maxThreads then s.handleMsg i.toNat else .ok s

def run (x86_64 : Bool) (s : CNatRxManager) (evs : List NatRxEvent) :
    Except NatRxFault CNatRxManager :=
  evs.foldlM (step x86_64) s

/-- `create_node` gets a node, and it is not in use. -/
def hasNode (s : CNatRxManager) (given : Option Nat) : Bool := given.any fun p => !s.live p

/-- The entry for thread `i` that a packet gives: the thread and the protocol are valid. -/
def entryOf (maxThreads : UInt8) (i : Nat) (option : CNatOption) (ipv4 : RxPacket) :
    Option CNatFlowInfo :=
  if option.threadId < maxThreads ∧ (ipv4.protocol = 6 ∨ ipv4.protocol = 17) ∧
      option.threadId.toNat = i then
    some { externalIp := ipv4.sourceIp, externalIpServer := ipv4.destIp, fid := option.fid,
           externalPort := ipv4.sourcePort }
  else none

/-- An event gets what it needs: a node for each message that it makes, and room in a ring within
the tries of `flush_node`. -/
def isSupplied (s : CNatRxManager) : NatRxEvent → Bool
  | .packet option ipv4 given _ fails =>
    let i := option.threadId.toNat
    (entryOf s.maxThreads i option ipv4).isNone ||
      ((s.perThread i).curNatMsg.isSome || s.hasNode given) && decide (fails ≤ 10)
  | .aging _ fails => (List.range s.maxThreads.toNat).all fun i => decide (fails i ≤ 10)
  | .latency given _ i => !decide (i < s.maxThreads) || s.hasNode given
  | .dequeue _ => true
  | .handle _ => true

/-- Every event of a run gets what it needs. -/
def areSupplied (x86_64 : Bool) : CNatRxManager → List NatRxEvent → Bool
  | _, [] => true
  | s, ev :: evs => s.isSupplied ev && match s.step x86_64 ev with
    | .ok s' => areSupplied x86_64 s' evs
    | .error _ => true

/-- What an event is for the batch of thread `i`. -/
def batchEvent (maxThreads : UInt8) (i : Nat) : NatRxEvent → Option (BatchEvent Rat CNatFlowInfo)
  | .packet option ipv4 _ now _ => (entryOf maxThreads i option ipv4).map (.push now)
  | .aging now _ => some (.age now)
  | _ => none

/-- The entries for thread `i` in the packets of a run, with their times. -/
def accepted (maxThreads : UInt8) (i : Nat) (evs : List NatRxEvent) : List (Rat × CNatFlowInfo) :=
  pushed (evs.filterMap (batchEvent maxThreads i))

/-- The entries of a node, if it is a message about NAT. -/
def natMsg (mem : Nat → CGenNodeNatInfo) (p : Nat) : Option (List CNatFlowInfo) :=
  match (mem p).msgType with
  | .natFirst => some (mem p).entries
  | .latencyPkt => none

/-- The messages that came to the ring of thread `i`: those it read, and those that it has or will
take. -/
def delivered (s : CNatRxManager) (i : Nat) : List (List CNatFlowInfo) :=
  s.handled i ++ ((s.hand i).toList ++ (s.perThread i).ring).filterMap (natMsg s.mem)

/-- The entries of the message that is collected for thread `i`. -/
def collected (s : CNatRxManager) (i : Nat) : List CNatFlowInfo :=
  match (s.perThread i).curNatMsg with
  | none => []
  | some p => (s.mem p).entries

/-- The batch of thread `i`. -/
def batch (s : CNatRxManager) (i : Nat) : Batch Rat CNatFlowInfo :=
  ⟨s.delivered i, s.collected i, (s.perThread i).lastTime⟩

/-! ## 3. Who has a node -/

/-- The nodes on their way to thread `i`: the one it took, those in its ring, and the one that is
collected. -/
def held (s : CNatRxManager) (i : Nat) : List Nat :=
  (s.hand i).toList ++ (s.perThread i).ring ++ (s.perThread i).curNatMsg.toList

/-- **No node is on two ways**, and none is free.  `bound` is what holds of the numbers of entries
that are collected. -/
structure Owned (bound : Nat → Nat → Prop) (s : CNatRxManager) : Prop where
  nodup : ∀ i, (s.held i).Nodup
  disjoint : ∀ {i j p}, p ∈ s.held i → p ∈ s.held j → i = j
  live : ∀ {i p}, p ∈ s.held i → s.live p = true
  nat : ∀ {i p}, (s.perThread i).curNatMsg = some p → (s.mem p).msgType = .natFirst
  cnt : ∀ {i p}, (s.perThread i).curNatMsg = some p → bound i (s.mem p).cnt

/-- Between two events every message that is collected has an entry, and room for one more. -/
def Settled (x86_64 : Bool) :
    CNatRxManager → Prop := Owned fun _ n => 0 < n ∧ n < natFlowInfos x86_64

/-- What the run was given, and not what the code did. -/
def Given (fault : NatRxFault) : Prop := fault = .noNode ∨ fault = .stuck ∨ fault = .inUse

/-- The fault was given, and `cond` is what the run would have needed. -/
def GivenUnless (cond : Prop) (fault : NatRxFault) : Prop := Given fault ∧ ¬ cond

variable {x86_64 : Bool} {s s' : CNatRxManager} {bound bound' : Nat → Nat → Prop} {i j p : Nat}

theorem mem_held_cur (h : (s.perThread i).curNatMsg = some p) : p ∈ s.held i := by
  rw [held, h]
  exact mem_append_right _ (mem_singleton_self p)

theorem Owned.mono (h : Owned bound s) (hb : ∀ i n, bound i n → bound' i n) : Owned bound' s :=
  ⟨h.nodup, h.disjoint, h.live, h.nat, fun hcur => hb _ _ (h.cnt hcur)⟩

/-- A node that is in use by no one is not on a way. -/
theorem Owned.fresh (h : Owned bound s) (hp : s.live p = false) (i : Nat) :
    p ∉ s.held i := fun hmem =>
  Bool.false_ne_true (hp.symm.trans (h.live hmem))

/-- The node that is collected is neither in a ring nor in a hand. -/
theorem Owned.cur_not_sent (h : Owned bound s) (hcur : (s.perThread i).curNatMsg = some p)
    (j : Nat) :
    p ∉ (s.hand j).toList ++ (s.perThread j).ring := by
  intro hmem
  have hj : j = i := h.disjoint (mem_append_left _ hmem) (mem_held_cur hcur)
  subst hj
  have hnodup := h.nodup j
  rw [held, hcur] at hnodup
  exact disjoint_of_nodup_append hnodup hmem (mem_singleton_self p)

theorem sent_eq_false (h : ∀ j, p ∉ (s.hand j).toList ++ (s.perThread j).ring) :
    s.sent p = false := by
  rw [sent, any_eq_false]
  intro j _ hsent
  refine h j ?_
  rw [Bool.or_eq_true, beq_iff_eq, contains_iff_mem] at hsent
  rcases hsent with hhand | hring
  · rw [hhand]
    exact mem_append_left _ (mem_singleton_self p)
  · exact mem_append_right _ hring

/-- A write that is allowed. -/
theorem write_eq (node : CGenNodeNatInfo) (hlive : s.live p = true)
    (hsent : ∀ j, p ∉ (s.hand j).toList ++ (s.perThread j).ring) :
    s.write p node = .ok { s with mem := update s.mem p node } := by
  rw [write, hlive, sent_eq_false hsent]
  rfl

/-- A batch whose nodes are left as they are. -/
theorem batch_frame (hthread : s'.perThread j = s.perThread j) (hhand : s'.hand j = s.hand j)
    (hhandled : s'.handled j = s.handled j) (hmem : ∀ p ∈ s.held j, s'.mem p = s.mem p) :
    s'.batch j = s.batch j := by
  have hring : ((s.hand j).toList ++ (s.perThread j).ring).filterMap (natMsg s'.mem) =
      ((s.hand j).toList ++ (s.perThread j).ring).filterMap (natMsg s.mem) := by
    refine filterMap_congr fun p hp => ?_
    rw [natMsg, natMsg, hmem p (mem_append_left _ hp)]
  have hcur : s'.collected j = s.collected j := by
    rw [collected, collected, hthread]
    cases hc : (s.perThread j).curNatMsg with
    | none => rfl
    | some p =>
      dsimp only
      rw [hmem p (mem_held_cur hc)]
  rw [batch, batch, delivered, delivered, hthread, hhand, hhandled, hring, hcur]

/-- Other entries in a node that is collected. -/
theorem Owned.withNode (h : Owned bound s) (hcur : (s.perThread i).curNatMsg = some p)
    (node : CGenNodeNatInfo) (hnat : node.msgType = .natFirst) (hnode : bound' i node.cnt)
    (hb : ∀ j n, j ≠ i → bound j n → bound' j n) :
    Owned bound' { s with mem := update s.mem p node } := by
  refine ⟨h.nodup, h.disjoint, h.live, fun {j q} hq => ?_, fun {j q} hq => ?_⟩
  · by_cases hqp : q = p
    · subst hqp
      simp [hnat]
    · simp only [update_of_ne hqp]
      exact h.nat hq
  · have hij : q = p ↔ j = i := by
      constructor
      · rintro rfl
        exact h.disjoint (mem_held_cur hq) (mem_held_cur hcur)
      · rintro rfl
        exact Option.some.inj (hq.symm.trans hcur)
    by_cases hqp : q = p
    · obtain rfl := hij.mp hqp
      subst hqp
      simp only [update_self]
      exact hnode
    · simp only [update_of_ne hqp]
      exact hb j _ (fun hj => hqp (hij.mpr hj)) (h.cnt hq)

/-- The other batches do not see it. -/
theorem Owned.batch_withNode (h : Owned bound s) (hcur : (s.perThread i).curNatMsg = some p)
    (node : CGenNodeNatInfo) (hj : j ≠ i) :
    { s with mem := update s.mem p node }.batch j = s.batch j := by
  refine batch_frame rfl rfl rfl fun q hq => ?_
  have hne : q ≠ p := by
    rintro rfl
    exact hj (h.disjoint hq (mem_held_cur hcur))
  exact update_of_ne hne ..

/-- A node that was free comes on the way to thread `i`. -/
theorem Owned.insert (h : Owned bound s) (hfresh : s.live p = false)
    (hperm : (s'.held i).Perm (p :: s.held i)) (hother : ∀ j, j ≠ i → s'.held j = s.held j)
    (hlive : s'.live = update s.live p true)
    (hnat : ∀ {j q}, (s'.perThread j).curNatMsg = some q → (s'.mem q).msgType = .natFirst)
    (hcnt : ∀ {j q}, (s'.perThread j).curNatMsg = some q → bound' j (s'.mem q).cnt) :
    Owned bound' s' := by
  have hmem : ∀ {j q}, q ∈ s'.held j → q ∈ s.held j ∨ q = p ∧ j = i := by
    intro j q hq
    by_cases hj : j = i
    · subst hj
      rcases mem_cons.mp (hperm.mem_iff.mp hq) with rfl | hold
      · exact .inr ⟨rfl, rfl⟩
      · exact .inl hold
    · rw [hother j hj] at hq
      exact .inl hq
  refine ⟨fun j => ?_, fun {j k q} hj hk => ?_, fun {j q} hq => ?_, hnat, hcnt⟩
  · by_cases hj : j = i
    · subst hj
      exact hperm.nodup_iff.mpr (nodup_cons.mpr ⟨h.fresh hfresh j, h.nodup j⟩)
    · rw [hother j hj]
      exact h.nodup j
  · rcases hmem hj with hold | ⟨rfl, rfl⟩
    · rcases hmem hk with hold' | ⟨rfl, rfl⟩
      · exact h.disjoint hold hold'
      · exact absurd hold (h.fresh hfresh j)
    · rcases hmem hk with hold' | ⟨-, rfl⟩
      · exact absurd hold' (h.fresh hfresh k)
      · rfl
  · rw [hlive]
    by_cases hqp : q = p
    · rw [hqp, update_self]
    · rw [update_of_ne hqp]
      rcases hmem hq with hold | ⟨heq, -⟩
      · exact h.live hold
      · exact absurd heq hqp

/-! ## 4. A packet -/

/-- How many entries may be collected while a packet for thread `i` is handled: before the entry,
and after. -/
def Filling (x86_64 : Bool) (i : Nat) : CNatRxManager → Prop := Owned fun j n =>
  (j ≠ i → 0 < n) ∧ n < natFlowInfos x86_64

def Filled (x86_64 : Bool) (i : Nat) : CNatRxManager → Prop := Owned fun j n =>
  0 < n ∧ n ≤ natFlowInfos x86_64 ∧ (j ≠ i → n < natFlowInfos x86_64)

theorem natFlowInfos_pos (x86_64 : Bool) : 0 < natFlowInfos x86_64 := by
  cases x86_64 <;> decide

theorem createNode_post (given : Option Nat) (s : CNatRxManager) :
    Post (s.createNode given) (fun r => s.live r.1 = false ∧
      r.2 = { s with live := update s.live r.1 true }) (GivenUnless (s.hasNode given = true)) := by
  cases given with
  | none => exact ⟨.inl rfl, Bool.false_ne_true⟩
  | some p =>
    unfold createNode
    dsimp only
    split
    · rename_i hlive
      refine ⟨.inr (.inr rfl), ?_⟩
      simp [hasNode, hlive]
    · rename_i hlive
      exact ⟨Bool.eq_false_iff.mpr hlive, rfl⟩

/-- **The message of a thread**, which is a new one if there was none. -/
theorem curMsg_post (h : Settled x86_64 s) (given : Option Nat) (now : Rat) (i : Nat) :
    Post (s.curMsg given now i) (fun r => Filling x86_64 i r.2 ∧ r.2.maxThreads = s.maxThreads ∧
      (r.2.perThread i).curNatMsg = some r.1 ∧ (∀ j, j ≠ i → r.2.batch j = s.batch j) ∧
      r.2.batch i = { s.batch i with since := if (s.batch i).cur.isEmpty then now
        else (s.batch i).since })
      (GivenUnless ((s.perThread i).curNatMsg.isSome = true ∨ s.hasNode given = true)) := by
  unfold curMsg
  cases hcur : (s.perThread i).curNatMsg with
  | some p =>
    refine ⟨h.mono fun j n hn => ⟨fun _ => hn.1, hn.2⟩, rfl, hcur, fun _ _ => rfl, ?_⟩
    have hne : (s.batch i).cur.isEmpty = false := by
      rw [batch, collected, hcur]
      have hpos := (h.cnt hcur).1
      rw [← CGenNodeNatInfo.length_entries] at hpos
      rw [Bool.eq_false_iff, Ne, List.isEmpty_iff]
      exact List.ne_nil_of_length_pos hpos
    rw [hne]
    rfl
  | none =>
    have hcreate : Post _ _ (GivenUnless ((none : Option Nat).isSome = true ∨
        s.hasNode given = true)) :=
      (createNode_post given s).mono (fun _ h => h) fun f hf =>
        ⟨hf.1, not_or.mpr ⟨Bool.false_ne_true, hf.2⟩⟩
    refine hcreate.bind ?_
    rintro ⟨p, s1⟩ ⟨hlive, hs1⟩
    have hs1 : s1 = { s with live := update s.live p true } := hs1
    subst hs1
    have hfresh := h.fresh hlive
    have hwrite := write_eq (s := { s with live := update s.live p true })
      { s.mem p with msgType := .natFirst, cnt := 0 } (update_self ..)
      (fun j hmem => hfresh j (mem_append_left _ hmem))
    dsimp only at hwrite ⊢
    rw [hwrite]
    -- the state with the new message
    have hheld : ∀ q, (s.perThread i).curNatMsg = none → s.held i ++ [q] =
        (s.hand i).toList ++ (s.perThread i).ring ++ [q] := by
      intro q hnone
      rw [held, hnone, Option.toList_none, append_nil]
    refine ⟨?_, rfl, by simp [setThread], fun j hj => ?_, ?_⟩
    · refine h.insert (i := i) hlive ?_ (fun j hj => ?_) rfl (fun {j q} hq => ?_) fun {j q} hq => ?_
      · have hnew := hheld p hcur
        simp only [held, setThread, update_self, Option.toList_some] at hnew ⊢
        rw [← hnew]
        exact perm_append_singleton p _
      · simp only [held, setThread, update_of_ne hj]
      · by_cases hj : j = i
        · subst hj
          simp only [setThread, update_self, Option.some.injEq] at hq
          subst hq
          simp [setThread]
        · simp only [setThread, update_of_ne hj] at hq
          have hqp : q ≠ p := by
            rintro rfl
            exact hfresh j (mem_held_cur hq)
          simp only [setThread, update_of_ne hqp]
          exact h.nat hq
      · by_cases hj : j = i
        · subst hj
          simp only [setThread, update_self, Option.some.injEq] at hq
          subst hq
          simp only [setThread, update_self]
          exact ⟨fun hne => absurd rfl hne, natFlowInfos_pos _⟩
        · simp only [setThread, update_of_ne hj] at hq
          have hqp : q ≠ p := by
            rintro rfl
            exact hfresh j (mem_held_cur hq)
          simp only [setThread, update_of_ne hqp]
          exact ⟨fun _ => (h.cnt hq).1, (h.cnt hq).2⟩
    · refine batch_frame (update_of_ne hj ..) rfl rfl fun q hq => ?_
      have hqp : q ≠ p := by
        rintro rfl
        exact hfresh j hq
      exact update_of_ne hqp ..
    · have hold : ((s.hand i).toList ++ (s.perThread i).ring).filterMap
          (natMsg (update s.mem p { s.mem p with msgType := .natFirst, cnt := 0 })) =
          ((s.hand i).toList ++ (s.perThread i).ring).filterMap (natMsg s.mem) := by
        refine filterMap_congr fun q hq => ?_
        have hqp : q ≠ p := by
          rintro rfl
          exact hfresh i (mem_append_left _ hq)
        rw [natMsg, natMsg, update_of_ne hqp]
      simp only [batch, delivered, collected, setThread, update_self, hcur, hold, isEmpty_nil,
        if_true]
      rfl

/-- **The entry is written** behind the others, to a node that is still the manager's. -/
theorem addEntry_post (h : Filling x86_64 i s) (hcur : (s.perThread i).curNatMsg = some p)
    (msg : CNatFlowInfo) :
    ∃ s', s.addEntry x86_64 p msg = .ok s' ∧ Filled x86_64 i s' ∧ s'.maxThreads = s.maxThreads ∧
      (s'.perThread i).curNatMsg = some p ∧ (∀ j, j ≠ i → s'.batch j = s.batch j) ∧
      s'.batch i = { s.batch i with cur := (s.batch i).cur ++ [msg] } ∧
      (s'.mem p).cnt = (s'.batch i).cur.length := by
  have hroom := (h.cnt hcur).2
  have hwrite := write_eq ((s.mem p).addMsg msg) (h.live (mem_held_cur hcur)) (h.cur_not_sent hcur)
  refine ⟨_, ?_, h.withNode hcur ((s.mem p).addMsg msg) (h.nat hcur)
    ⟨Nat.succ_pos _, hroom, fun hne => absurd rfl hne⟩ ?_, rfl, hcur, fun j hj =>
      h.batch_withNode hcur _ hj,
    ?_, ?_⟩
  · rw [addEntry, if_neg (not_le.mpr hroom), hwrite]
  · exact fun j n hj hn => ⟨hn.1 hj, hn.2.le, fun _ => hn.2⟩
  · have hold : ((s.hand i).toList ++ (s.perThread i).ring).filterMap
        (natMsg (update s.mem p ((s.mem p).addMsg msg))) =
        ((s.hand i).toList ++ (s.perThread i).ring).filterMap (natMsg s.mem) := by
      refine filterMap_congr fun q hq => ?_
      have hqp : q ≠ p := by
        rintro rfl
        exact h.cur_not_sent hcur i hq
      rw [natMsg, natMsg, update_of_ne hqp]
    simp [batch, delivered, collected, hcur, hold, CGenNodeNatInfo.entries_addMsg]
  · simp [batch, collected, hcur]

/-- **The message is given to the ring**: it stays on its way to the thread. -/
theorem flushNode_post (bound' : Nat → Nat → Prop) (h : Owned bound s)
    (hcur : (s.perThread i).curNatMsg = some p) (fails : Nat)
    (hb : ∀ j n, j ≠ i → bound j n → bound' j n) :
    Post (s.flushNode fails i) (fun s' => Owned bound' s' ∧ s'.maxThreads = s.maxThreads ∧
      (∀ j, j ≠ i → s'.batch j = s.batch j) ∧ s'.batch i = (s.batch i).flush)
      (GivenUnless (fails ≤ 10)) := by
  unfold flushNode
  dsimp only
  rw [hcur]
  dsimp only
  split
  · rename_i hfails
    exact ⟨.inr (.inl rfl), not_le.mpr hfails⟩
  set s' := setThread i { s.perThread i with ring := (s.perThread i).ring ++ [p],
                                             curNatMsg := none }
    { s with stats := { s.stats with errQueueFull := s.stats.errQueueFull + fails } } with hs'
  have hthread : s'.perThread i =
      { s.perThread i with ring := (s.perThread i).ring ++ [p], curNatMsg := none } :=
        update_self ..
  have hother : ∀ j, j ≠ i → s'.perThread j = s.perThread j := fun j hj => update_of_ne hj ..
  have hheld : ∀ j, s'.held j = s.held j := by
    intro j
    by_cases hj : j = i
    · subst hj
      rw [held, held, hthread, hcur, Option.toList_none, append_nil, ← append_assoc]
      rfl
    · rw [held, held, hother j hj]
      rfl
  refine ⟨⟨fun j => ?_, fun {j k q} hj hk => ?_, fun {j q} hq => ?_, fun {j q} hq =>
    ?_, fun {j q} hq => ?_⟩, rfl, fun j hj => batch_frame (hother j hj) rfl rfl fun _ _ => rfl, ?_⟩
  · rw [hheld]
    exact h.nodup j
  · rw [hheld] at hj hk
    exact h.disjoint hj hk
  · rw [hheld] at hq
    exact h.live hq
  · by_cases hj : j = i
    · subst hj
      rw [hthread] at hq
      cases hq
    · rw [hother j hj] at hq
      exact h.nat hq
  · by_cases hj : j = i
    · subst hj
      rw [hthread] at hq
      cases hq
    · rw [hother j hj] at hq
      exact hb j _ hj (h.cnt hq)
  · have hnat : natMsg s.mem p = some (s.mem p).entries := by rw [natMsg, h.nat hcur]
    have hmem : s'.mem = s.mem := rfl
    have hhand : s'.hand = s.hand := rfl
    have hhandled : s'.handled = s.handled := rfl
    simp only [batch, delivered, collected, hthread, hcur, hmem, hhand, hhandled, Batch.flush]
    rw [← append_assoc, filterMap_append, ← append_assoc]
    congr 1
    simp only [filterMap_cons, hnat, filterMap_nil]

/-- **A packet**: its entry is pushed to the batch of its thread. -/
theorem handlePacketIpv4_post (h : Settled x86_64 s) (option : CNatOption) (ipv4 : RxPacket)
    (given : Option Nat) (now : Rat) (fails : Nat) :
    Post (s.handlePacketIpv4 x86_64 option ipv4 given now fails) (fun s' => Settled x86_64 s' ∧
      s'.maxThreads = s.maxThreads ∧ ∀ i, s'.batch i = match entryOf s.maxThreads i option ipv4 with
        | none => s.batch i
        | some msg => (s.batch i).push (natFlowInfos x86_64) now msg)
      (GivenUnless (s.isSupplied (.packet option ipv4 given now fails) = true)) := by
  unfold handlePacketIpv4
  dsimp only
  split
  · rename_i hthread
    refine ⟨⟨h.nodup, h.disjoint, h.live, h.nat, h.cnt⟩, rfl, fun i => ?_⟩
    rw [entryOf, if_neg fun hvalid => hthread hvalid.1]
    rfl
  rename_i hthread
  split
  · rename_i hproto
    refine ⟨⟨h.nodup, h.disjoint, h.live, h.nat, h.cnt⟩, rfl, fun i => ?_⟩
    rw [entryOf, if_neg fun hvalid => hproto hvalid.2.1]
    rfl
  rename_i hproto
  set msg : CNatFlowInfo := ⟨ipv4.sourceIp, ipv4.destIp, option.fid, ipv4.sourcePort⟩ with hmsg
  -- the entry is for this thread and for no other
  have hentry : ∀ i, entryOf s.maxThreads i option ipv4 =
      if i = option.threadId.toNat then some msg else none := by
    intro i
    rw [entryOf]
    by_cases hi : i = option.threadId.toNat
    · rw [if_pos ⟨not_not.mp hthread, not_not.mp hproto, hi.symm⟩, if_pos hi]
    · rw [if_neg fun hvalid => hi hvalid.2.2.symm, if_neg hi]
  -- a packet for a thread needs a node, if there is none, and room in the ring
  have hneeds : s.isSupplied (.packet option ipv4 given now fails) = true →
      ((s.perThread option.threadId.toNat).curNatMsg.isSome = true ∨ s.hasNode given = true) ∧
          fails ≤ 10 := by
    intro hsup
    have hsome : (entryOf s.maxThreads option.threadId.toNat option ipv4).isNone = false := by
      rw [hentry, if_pos rfl, Option.isNone_some]
    simpa only [isSupplied, hsome, Bool.false_or, Bool.and_eq_true, Bool.or_eq_true,
      decide_eq_true_eq] using hsup
  refine ((curMsg_post h given now option.threadId.toNat).mono (fun _ hr => hr) (fun f hf =>
    ⟨hf.1, fun hsup => hf.2 (hneeds hsup).1⟩)).bind ?_
  rintro ⟨p, s1⟩ ⟨hfilling, hmax1, hcur1, hother1, hbatch1⟩
  obtain ⟨s2, hadd, hfilled, hmax2, hcur2, hother2, hbatch2, hcnt2⟩ :=
    addEntry_post hfilling hcur1 msg
  dsimp only at hother1 hbatch1 hmax1 ⊢
  rw [hadd]
  have hlast : s2.batch option.threadId.toNat = { s.batch option.threadId.toNat with
      cur := (s.batch option.threadId.toNat).cur ++ [msg]
      since := if (s.batch option.threadId.toNat).cur.isEmpty then now
        else (s.batch option.threadId.toNat).since } := by rw [hbatch2, hbatch1]
  show Post (if (s2.mem p).cnt = natFlowInfos x86_64 then s2.flushNode fails option.threadId.toNat
    else .ok s2) _ _
  split
  · rename_i hfull
    refine (flushNode_post (fun _ n => 0 < n ∧ n < natFlowInfos x86_64) hfilled hcur2 fails
      fun j n hj hn => ⟨hn.1, hn.2.2 hj⟩).mono ?_ fun _ hf => ⟨hf.1, fun hsup =>
        hf.2 (hneeds hsup).2⟩
    rintro s3 ⟨hsettled, hmax3, hother3, hbatch3⟩
    refine ⟨hsettled, hmax3.trans (hmax2.trans hmax1), fun i => ?_⟩
    rw [hentry]
    by_cases hi : i = option.threadId.toNat
    · subst hi
      rw [hcnt2, hlast] at hfull
      rw [if_pos rfl, hbatch3, hlast]
      exact (if_pos hfull).symm
    · rw [if_neg hi, hother3 i hi, hother2 i hi, hother1 i hi]
  · rename_i hroom
    refine ⟨⟨hfilled.nodup, hfilled.disjoint, hfilled.live, hfilled.nat, fun {j q} hq => ?_⟩,
      hmax2.trans hmax1, fun i => ?_⟩
    · obtain ⟨hpos, hle, hlt⟩ := hfilled.cnt hq
      refine ⟨hpos, ?_⟩
      by_cases hj : j = option.threadId.toNat
      · subst hj
        obtain rfl := Option.some.inj (hcur2.symm.trans hq)
        exact lt_of_le_of_ne hle hroom
      · exact hlt hj
    · rw [hentry]
      by_cases hi : i = option.threadId.toNat
      · subst hi
        rw [hcnt2, hlast] at hroom
        rw [if_pos rfl, hlast]
        exact (if_neg hroom).symm
      · rw [if_neg hi, hother2 i hi, hother1 i hi]

/-! ## 5. A tick -/

/-- There is an entry exactly if there is a message. -/
theorem isEmpty_batch (h : Settled x86_64 s) (i : Nat) :
    (s.batch i).cur.isEmpty = (s.perThread i).curNatMsg.isNone := by
  rw [batch, collected]
  cases hcur : (s.perThread i).curNatMsg with
  | none => rfl
  | some p =>
    have hpos := (h.cnt hcur).1
    rw [← CGenNodeNatInfo.length_entries] at hpos
    exact Bool.eq_false_iff.mpr fun hempty =>
      List.ne_nil_of_length_pos hpos (List.isEmpty_iff.mp hempty)

/-- A turn of the loop of `handle_aging`. -/
theorem ageThread_post (h : Settled x86_64 s) (now : Rat) (fails : Nat → Nat) (i : Nat) :
    Post (ageThread now fails s i) (fun s' => Settled x86_64 s' ∧ s'.maxThreads = s.maxThreads ∧
      ∀ j, s'.batch j = if j = i then (s.batch j).age maxTimeMsgInQueueSec now else s.batch j)
      (GivenUnless (fails i ≤ 10)) := by
  have hempty := isEmpty_batch h i
  -- the batch is left as it is
  have hsame : (s.batch i).age maxTimeMsgInQueueSec now = s.batch i → ∀ j, s.batch j =
      if j = i then (s.batch j).age maxTimeMsgInQueueSec now else s.batch j := by
    intro hage j
    by_cases hj : j = i
    · subst hj
      rw [if_pos rfl, hage]
    · rw [if_neg hj]
  unfold ageThread
  dsimp only
  cases hcur : (s.perThread i).curNatMsg with
  | none =>
    rw [hcur] at hempty
    exact ⟨h, rfl, hsame (if_pos hempty)⟩
  | some p =>
    rw [hcur] at hempty
    rw [Option.isSome_some, if_pos rfl]
    split
    · rename_i hold
      refine (flushNode_post (fun _ n => 0 < n ∧ n < natFlowInfos x86_64) h hcur (fails i)
        fun _ _ _ hn => hn).mono ?_ fun _ hf => hf
      rintro s' ⟨hsettled, hmax, hother, hbatch⟩
      refine ⟨hsettled, hmax, fun j => ?_⟩
      by_cases hj : j = i
      · subst hj
        rw [if_pos rfl, hbatch, Batch.age, hempty]
        exact (if_pos hold).symm
      · rw [if_neg hj, hother j hj]
    · rename_i hfresh
      refine ⟨h, rfl, hsame ?_⟩
      rw [Batch.age, hempty]
      exact if_neg hfresh

/-- **A tick**: every batch is asked for its age. -/
theorem handleAging_post (h : Settled x86_64 s) (now : Rat) (fails : Nat → Nat) :
    Post (s.handleAging now fails) (fun s' => Settled x86_64 s' ∧ s'.maxThreads = s.maxThreads ∧
      ∀ j < s.maxThreads.toNat, s'.batch j = (s.batch j).age maxTimeMsgInQueueSec now)
      (GivenUnless (∀ i < s.maxThreads.toNat, fails i ≤ 10)) := by
  have hloop : ∀ (l : List Nat) (s : CNatRxManager), l.Nodup → Settled x86_64 s →
      Post (l.foldlM (ageThread now fails) s) (fun s' => Settled x86_64 s' ∧
        s'.maxThreads = s.maxThreads ∧
        ∀ j, s'.batch j = if j ∈ l then (s.batch j).age maxTimeMsgInQueueSec now else s.batch j)
        (GivenUnless (∀ i ∈ l, fails i ≤ 10)) := by
    intro l
    induction l with
    | nil => exact fun s _ hs => ⟨hs, rfl, fun j => (if_neg not_mem_nil).symm⟩
    | cons i l ih =>
      intro s hnodup hs
      obtain ⟨hnot, hnodup'⟩ := nodup_cons.mp hnodup
      rw [foldlM_cons]
      refine ((ageThread_post hs now fails i).mono (fun _ hr => hr) (fun f hf =>
        ⟨hf.1, fun hall => hf.2 (hall i mem_cons_self)⟩)).bind ?_
      rintro s1 ⟨hs1, hmax1, hbatch1⟩
      refine (ih s1 hnodup' hs1).mono ?_ fun _ hf =>
        ⟨hf.1, fun hall => hf.2 fun j hj => hall j (mem_cons_of_mem i hj)⟩
      rintro s2 ⟨hs2, hmax2, hbatch2⟩
      refine ⟨hs2, hmax2.trans hmax1, fun j => ?_⟩
      rw [hbatch2, hbatch1]
      by_cases hj : j = i
      · subst hj
        rw [if_neg hnot, if_pos rfl, if_pos mem_cons_self]
      · have hmem : j ∈ i :: l ↔ j ∈ l := by rw [mem_cons, or_iff_right hj]
        rw [if_neg hj]
        simp only [hmem]
  refine (hloop _ s nodup_range h).mono ?_ fun _ hf =>
    ⟨hf.1, fun hall => hf.2 fun i hi => hall i (mem_range.mp hi)⟩
  rintro s' ⟨hs', hmax, hbatch⟩
  refine ⟨hs', hmax, fun j hj => ?_⟩
  rw [hbatch, if_pos (mem_range.mpr hj)]

/-! ## 6. The rings and the threads -/

/-- A latency packet goes through the ring, and does not touch a batch. -/
theorem latencyTx_post (h : Settled x86_64 s) (given : Option Nat) (room : Bool) (i : Nat) :
    Post (s.latencyTx given room i) (fun s' => Settled x86_64 s' ∧ s'.maxThreads = s.maxThreads ∧
      ∀ j, s'.batch j = s.batch j) (GivenUnless (s.hasNode given = true)) := by
  unfold latencyTx
  refine (createNode_post given s).bind ?_
  rintro ⟨p, s1⟩ ⟨hlive, hs1⟩
  have hs1 : s1 = { s with live := update s.live p true } := hs1
  subst hs1
  have hfresh := h.fresh hlive
  have hwrite := write_eq (s := { s with live := update s.live p true })
    { s.mem p with msgType := .latencyPkt } (update_self ..)
    (fun j hmem => hfresh j (mem_append_left _ hmem))
  dsimp only at hwrite ⊢
  rw [hwrite]
  have hmem : ∀ {j q}, q ∈ s.held j →
      update s.mem p { s.mem p with msgType := .latencyPkt } q = s.mem q := by
    intro j q hq
    have hqp : q ≠ p := by
      rintro rfl
      exact hfresh j hq
    exact update_of_ne hqp ..
  cases room with
  | false =>
    refine ⟨⟨h.nodup, h.disjoint, fun {j q} hq => ?_, fun hq => ?_, fun hq => ?_⟩, rfl, fun j => ?_⟩
    · by_cases hqp : q = p
      · rw [hqp]
        exact update_self ..
      · exact (update_of_ne hqp ..).trans (h.live hq)
    · exact (congrArg _ (hmem (mem_held_cur hq))).trans (h.nat hq)
    · have hcnt := h.cnt hq
      rwa [← hmem (mem_held_cur hq)] at hcnt
    · exact batch_frame rfl rfl rfl fun q hq => hmem hq
  | true =>
    set s' : CNatRxManager := setThread i { s.perThread i with ring := (s.perThread i).ring ++ [p] }
      { s with
        live := update s.live p true
        mem := update s.mem p { s.mem p with msgType := .latencyPkt } } with hs'
    show Settled x86_64 s' ∧ s'.maxThreads = s.maxThreads ∧ ∀ j, s'.batch j = s.batch j
    have hthread : s'.perThread i = { s.perThread i with ring := (s.perThread i).ring ++ [p] } :=
      update_self ..
    have hother : ∀ j, j ≠ i → s'.perThread j = s.perThread j := fun j hj => update_of_ne hj ..
    have hcur : ∀ j, (s'.perThread j).curNatMsg = (s.perThread j).curNatMsg := by
      intro j
      by_cases hj : j = i
      · subst hj
        rw [hthread]
      · rw [hother j hj]
    have hhand : s'.hand = s.hand := rfl
    refine ⟨h.insert (i := i) hlive ?_ (fun j hj => ?_) rfl (fun {j q} hq => ?_) fun {j q} hq =>
      ?_, rfl, fun j => ?_⟩
    · rw [held, held, hthread, hhand, ← append_assoc, append_assoc, singleton_append]
      exact perm_middle
    · rw [held, held, hother j hj, hhand]
    · rw [hcur] at hq
      exact (congrArg _ (hmem (mem_held_cur hq))).trans (h.nat hq)
    · rw [hcur] at hq
      have hcnt := h.cnt hq
      rwa [← hmem (mem_held_cur hq)] at hcnt
    · by_cases hj : j = i
      · subst hj
        -- the message is not about NAT
        have hframe : { s with mem := s'.mem }.batch j = s.batch j :=
          batch_frame rfl rfl rfl fun q hq => hmem hq
        rw [← hframe]
        have hskip : natMsg s'.mem p = none := by
          have hp : s'.mem p = { s.mem p with msgType := .latencyPkt } := update_self ..
          rw [natMsg, hp]
        have hhandled : s'.handled = s.handled := rfl
        simp only [batch, delivered, collected, hthread, hhand, hhandled]
        rw [← append_assoc, filterMap_append (l := _ ++ _)]
        simp only [filterMap_cons, hskip, filterMap_nil, append_nil]
      · exact batch_frame (hother j hj) rfl rfl fun q hq => hmem hq

/-- A thread takes a node out of its ring. -/
theorem dequeue_spec (h : Settled x86_64 s) (i : Nat) :
    Settled x86_64 (s.dequeue i) ∧ (s.dequeue i).maxThreads = s.maxThreads ∧
      ∀ j, (s.dequeue i).batch j = s.batch j := by
  unfold dequeue
  split
  · rename_i p ring hhand hring
    set s' : CNatRxManager := setThread i { s.perThread i with ring := ring }
      { s with hand := update s.hand i (some p) } with hs'
    have hthread : s'.perThread i = { s.perThread i with ring := ring } := update_self ..
    have hother : ∀ j, j ≠ i → s'.perThread j = s.perThread j := fun j hj => update_of_ne hj ..
    have hhand' : s'.hand i = some p := update_self ..
    have hhand_other : ∀ j, j ≠ i → s'.hand j = s.hand j := fun j hj => update_of_ne hj ..
    have hcur : ∀ j, (s'.perThread j).curNatMsg = (s.perThread j).curNatMsg := by
      intro j
      by_cases hj : j = i
      · subst hj
        rw [hthread]
      · rw [hother j hj]
    have hway : (s'.hand i).toList ++ (s'.perThread i).ring = (s.hand i).toList ++
        (s.perThread i).ring := by
      rw [hhand', hthread, hhand, hring]
      rfl
    have hheld : ∀ j, s'.held j = s.held j := by
      intro j
      by_cases hj : j = i
      · subst hj
        rw [held, held, hway, hcur]
      · rw [held, held, hother j hj, hhand_other j hj]
    refine ⟨⟨fun j => ?_, fun {j k q} hj hk => ?_, fun {j q} hq => ?_, fun {j q} hq => ?_,
      fun {j q} hq => ?_⟩, rfl, fun j => ?_⟩
    · rw [hheld]
      exact h.nodup j
    · rw [hheld] at hj hk
      exact h.disjoint hj hk
    · rw [hheld] at hq
      exact h.live hq
    · rw [hcur] at hq
      exact h.nat hq
    · rw [hcur] at hq
      exact h.cnt hq
    · by_cases hj : j = i
      · subst hj
        have hmem : s'.mem = s.mem := rfl
        have hhandled : s'.handled = s.handled := rfl
        have hlast : (s'.perThread j).lastTime = (s.perThread j).lastTime := by rw [hthread]
        simp only [batch, delivered, collected, hway, hcur, hmem, hhandled, hlast]
      · exact batch_frame (hother j hj) (hhand_other j hj) rfl fun _ _ => rfl
  · exact ⟨h, rfl, fun _ => rfl⟩

/-- **A thread reads a message and frees it**: what it reads is what was written before the message
was given to the ring. -/
theorem handleMsg_post (h : Settled x86_64 s) (i : Nat) :
    Post (s.handleMsg i) (fun s' => Settled x86_64 s' ∧ s'.maxThreads = s.maxThreads ∧
      ∀ j, s'.batch j = s.batch j) (GivenUnless True) := by
  unfold handleMsg
  cases hhand : s.hand i with
  | none => exact ⟨h, rfl, fun _ => rfl⟩
  | some p =>
    have hheld : s.held i = p :: ((s.perThread i).ring ++ (s.perThread i).curNatMsg.toList) := by
      rw [held, hhand]
      rfl
    have hp : p ∈ s.held i := hheld ▸ mem_cons_self
    have hnodup := h.nodup i
    rw [hheld] at hnodup
    obtain ⟨hnot, hnodup'⟩ := nodup_cons.mp hnodup
    dsimp only
    rw [h.live hp]
    -- the thread without the node, and what it has read
    have hleft : ∀ handled : Nat → List (List CNatFlowInfo), Settled x86_64 { s with
        live := update s.live p false, hand := update s.hand i none, handled := handled } := by
      intro handled
      set s' : CNatRxManager := { s with
        live := update s.live p false, hand := update s.hand i none, handled := handled } with hs'
      have hheld' : s'.held i = (s.perThread i).ring ++ (s.perThread i).curNatMsg.toList := by
        have hnone : s'.hand i = none := update_self ..
        rw [held, hnone]
        rfl
      have hother : ∀ j, j ≠ i → s'.held j = s.held j := by
        intro j hj
        have hsame : s'.hand j = s.hand j := update_of_ne hj ..
        rw [held, held, hsame]
      have hmem : ∀ {j q}, q ∈ s'.held j → q ∈ s.held j ∧ q ≠ p := by
        intro j q hq
        by_cases hj : j = i
        · subst hj
          rw [hheld'] at hq
          refine ⟨hheld ▸ mem_cons_of_mem p hq, ?_⟩
          rintro rfl
          exact hnot hq
        · rw [hother j hj] at hq
          refine ⟨hq, ?_⟩
          rintro rfl
          exact hj (h.disjoint hq hp)
      refine ⟨fun j => ?_, fun hj hk => h.disjoint (hmem hj).1 (hmem hk).1, fun {j q} hq =>
        ?_, h.nat, h.cnt⟩
      · by_cases hj : j = i
        · subst hj
          rwa [hheld']
        · rw [hother j hj]
          exact h.nodup j
      · obtain ⟨hold, hne⟩ := hmem hq
        exact (update_of_ne hne ..).trans (h.live hold)
    cases htype : (s.mem p).msgType with
    | natFirst =>
      simp only [Bool.not_true, Bool.false_eq_true, if_false, post_ok]
      refine ⟨hleft _, trivial, fun j => ?_⟩
      by_cases hj : j = i
      · subst hj
        have hmsg : natMsg s.mem p = some (s.mem p).entries := by rw [natMsg, htype]
        simp only [batch, delivered, collected, update_self, hhand, Option.toList_none, nil_append,
          Option.toList_some, singleton_append, filterMap_cons, hmsg]
        rw [append_assoc]
        rfl
      · exact batch_frame rfl (update_of_ne hj ..) (update_of_ne hj ..) fun _ _ => rfl
    | latencyPkt =>
      simp only [Bool.not_true, Bool.false_eq_true, if_false, post_ok]
      refine ⟨hleft s.handled, trivial, fun j => ?_⟩
      by_cases hj : j = i
      · subst hj
        have hmsg : natMsg s.mem p = none := by rw [natMsg, htype]
        simp only [batch, delivered, collected, update_self, hhand, Option.toList_none, nil_append,
          Option.toList_some, singleton_append, filterMap_cons, hmsg]
      · exact batch_frame rfl (update_of_ne hj ..) rfl fun _ _ => rfl

/-! ## 7. Runs -/

/-- **An event is an event of the batches**, and it returns if it is supplied. -/
theorem step_post (h : Settled x86_64 s) (ev : NatRxEvent) :
    Post (s.step x86_64 ev) (fun s' => Settled x86_64 s' ∧ s'.maxThreads = s.maxThreads ∧
      ∀ i < s.maxThreads.toNat, s'.batch i = ((batchEvent s.maxThreads i ev).toList.foldl
        (Batch.step (natFlowInfos x86_64) maxTimeMsgInQueueSec) (s.batch i)))
      (GivenUnless (s.isSupplied ev = true)) := by
  have hid : ∀ (cond : Prop) {r : Except NatRxFault CNatRxManager},
      (∀ i, batchEvent s.maxThreads i ev = none) → (s.isSupplied ev = true → cond) →
      Post r (fun s' => Settled x86_64 s' ∧ s'.maxThreads = s.maxThreads ∧
        ∀ j, s'.batch j = s.batch j) (GivenUnless cond) →
      Post r (fun s' => Settled x86_64 s' ∧ s'.maxThreads = s.maxThreads ∧
        ∀ i < s.maxThreads.toNat, s'.batch i = ((batchEvent s.maxThreads i ev).toList.foldl
          (Batch.step (natFlowInfos x86_64) maxTimeMsgInQueueSec) (s.batch i)))
        (GivenUnless (s.isSupplied ev = true)) := by
    intro cond r hnone hcond hpost
    refine hpost.mono ?_ fun _ hf => ⟨hf.1, fun hsup => hf.2 (hcond hsup)⟩
    rintro s' ⟨hs', hmax, hbatch⟩
    refine ⟨hs', hmax, fun i _ => ?_⟩
    rw [hnone, hbatch]
    rfl
  cases ev with
  | packet option ipv4 given now fails =>
    refine (handlePacketIpv4_post h option ipv4 given now fails).mono ?_ fun _ hf => hf
    rintro s' ⟨hs', hmax, hbatch⟩
    refine ⟨hs', hmax, fun i _ => ?_⟩
    rw [hbatch, batchEvent]
    cases entryOf s.maxThreads i option ipv4 <;> rfl
  | aging now fails =>
    refine (handleAging_post h now fails).mono (fun _ hr => hr) fun _ hf =>
      ⟨hf.1, fun hsup => hf.2 ?_⟩
    simpa only [isSupplied, all_eq_true, mem_range, decide_eq_true_eq] using hsup
  | latency given room i =>
    by_cases hi : i < s.maxThreads
    · refine hid (s.hasNode given = true) (fun _ => rfl) (fun hsup => ?_) ?_
      · simpa only [isSupplied, hi, decide_true, Bool.not_true, Bool.false_or] using hsup
      · simp only [step, if_pos hi]
        exact latencyTx_post h given room i.toNat
    · refine hid True (fun _ => rfl) (fun _ => trivial) ?_
      simp only [step, if_neg hi]
      exact ⟨h, rfl, fun _ => rfl⟩
  | dequeue i =>
    refine hid True (fun _ => rfl) (fun _ => trivial) ?_
    by_cases hi : i < s.maxThreads
    · simp only [step, if_pos hi]
      exact dequeue_spec h i.toNat
    · simp only [step, if_neg hi]
      exact ⟨h, rfl, fun _ => rfl⟩
  | handle i =>
    refine hid True (fun _ => rfl) (fun _ => trivial) ?_
    by_cases hi : i < s.maxThreads
    · simp only [step, if_pos hi]
      exact handleMsg_post h i.toNat
    · simp only [step, if_neg hi]
      exact ⟨h, rfl, fun _ => rfl⟩

/-- **The manager refines a batch for each thread**, and a run that is supplied returns. -/
theorem run_post (h : Settled x86_64 s) (evs : List NatRxEvent) :
    Post (s.run x86_64 evs) (fun s' => Settled x86_64 s' ∧ ∀ i < s.maxThreads.toNat, s'.batch i =
      (s.batch i).run (natFlowInfos x86_64) maxTimeMsgInQueueSec
        (evs.filterMap (batchEvent s.maxThreads i)))
      (GivenUnless (areSupplied x86_64 s evs = true)) := by
  induction evs generalizing s with
  | nil => exact ⟨h, fun _ _ => rfl⟩
  | cons ev evs ih =>
    rw [run, foldlM_cons]
    have hpost := step_post h ev
    cases hstep : s.step x86_64 ev with
    | error fault =>
      obtain ⟨hgiven, hnot⟩ := hpost.fault hstep
      refine ⟨hgiven, fun hsup => hnot ?_⟩
      rw [areSupplied, Bool.and_eq_true] at hsup
      exact hsup.1
    | ok s1 =>
      obtain ⟨hs1, hmax1, hbatch1⟩ := hpost.result hstep
      have hrest : areSupplied x86_64 s (ev :: evs) = true → areSupplied x86_64 s1 evs = true := by
        intro hsup
        rw [areSupplied, hstep, Bool.and_eq_true] at hsup
        exact hsup.2
      refine (ih hs1).mono ?_ fun _ hf => ⟨hf.1, fun hsup => hf.2 (hrest hsup)⟩
      rintro s2 ⟨hs2, hbatch2⟩
      refine ⟨hs2, fun i hi => ?_⟩
      rw [hbatch2 i (hmax1 ▸ hi), hbatch1 i hi, hmax1]
      cases hev : batchEvent s.maxThreads i ev with
      | none => rw [filterMap_cons_none hev]; rfl
      | some e => rw [filterMap_cons_some hev]; rfl

theorem settled_create (x86_64 : Bool) (maxThreads : UInt8) (mem : Nat → CGenNodeNatInfo)
    (live : Nat → Bool) :
    Settled x86_64 (create maxThreads mem live) where
  nodup _ := nodup_nil
  disjoint h := by cases h
  live h := by cases h
  nat h := by cases h
  cnt h := by cases h

/-- **Learning loses nothing.**  A run ends only because there is no node, because a ring stays
full, or because the allocator gives a node that is in use: no write is behind the last entry, and
none is to a node that was given to a ring or freed; and if every event is supplied, the run
returns.  For each thread the entries of the packets that came for it are, in this order, those of
the messages that came to its ring, followed by the fewer than `MAX_NAT_FLOW_INFO` entries that are
still collected; and after a tick the first of these is not older than `MAX_TIME_MSG_IN_QUEUE_SEC`.
`Settled` is the invariant: no node is on two ways, and what is collected is not empty and has
room. -/
theorem learn_lossless (x86_64 : Bool) (maxThreads : UInt8) (mem : Nat → CGenNodeNatInfo)
    (live : Nat → Bool) (evs : List NatRxEvent) :
    (areSupplied x86_64 (create maxThreads mem live) evs = true →
      ∃ s, run x86_64 (create maxThreads mem live) evs = .ok s) ∧
    (∀ fault, run x86_64 (create maxThreads mem live) evs = .error fault → Given fault) ∧
    ∀ s, run x86_64 (create maxThreads mem live) evs = .ok s → ∀ i < maxThreads.toNat, ∃ old pend,
      accepted maxThreads i evs = old ++ pend ∧
      (s.delivered i).flatten = old.map Prod.snd ∧
      s.collected i = pend.map Prod.snd ∧ pend.length < natFlowInfos x86_64 ∧
      (∀ msg ∈ s.delivered i, msg ≠ [] ∧ msg.length ≤ natFlowInfos x86_64) ∧
      ∀ now fails, evs.getLast? = some (.aging now fails) →
        ∀ x ∈ pend.head?, now - x.1 ≤ maxTimeMsgInQueueSec := by
  have hrun := run_post (settled_create x86_64 maxThreads mem live) evs
  refine ⟨fun hsup => ?_, fun fault hfault => (hrun.fault hfault).1, fun s hs i hi => ?_⟩
  · have htotal : Post _ _ fun _ => False := hrun.mono (fun _ h => h) fun _ hf => hf.2 hsup
    obtain ⟨s, hs, -⟩ := htotal.total
    exact ⟨s, hs⟩
  obtain ⟨-, hbatch⟩ := hrun.result hs
  have hbatch : s.batch i = ((create maxThreads mem live).batch i).run (natFlowInfos x86_64)
      maxTimeMsgInQueueSec (evs.filterMap (batchEvent maxThreads i)) := hbatch i hi
  have hof := Batch.run_of maxTimeMsgInQueueSec (b := (create maxThreads mem live).batch i)
    (natFlowInfos_pos x86_64) rfl rfl (evs.filterMap (batchEvent maxThreads i))
  rw [← hbatch] at hof
  obtain ⟨old, pend, hsplit, hsent, hcur, hsince⟩ := hof.split
  have hlen : pend.length < natFlowInfos x86_64 := by
    have hlt := hof.lt
    rwa [hcur, length_map] at hlt
  refine ⟨old, pend, hsplit, hsent, hcur, hlen, hof.sizes, fun now fails hlast x hx => ?_⟩
  -- the last event asked for the age
  obtain ⟨evs', rfl⟩ := List.getLast?_eq_some_iff.mp hlast
  rw [filterMap_append, Batch.run_append] at hbatch
  have hage : s.batch i = (((create maxThreads mem live).batch i).run (natFlowInfos x86_64)
      maxTimeMsgInQueueSec (evs'.filterMap (batchEvent maxThreads i))).age maxTimeMsgInQueueSec
        now := hbatch
  have hne : (s.batch i).cur ≠ [] := by
    rw [hcur, Ne, map_eq_nil_iff]
    rintro rfl
    cases hx
  rw [hage] at hne
  obtain ⟨-, hfresh⟩ := Batch.age_fresh hne
  rw [← hage, ← hsince x hx] at hfresh
  exact not_lt.mp hfresh

/-- A node for the first of two packets, ticks that find it young and old, and a latency packet
between. -/
def exampleEvents : List NatRxEvent :=
  [.packet ⟨0, 5⟩ ⟨1, 2, 17, 3⟩ (some 0) 0 0, .aging 0 fun _ =>
    0, .packet ⟨0, 6⟩ ⟨1, 2, 6, 4⟩ none (1 / 1000) 0,
    .latency (some 1) true 0, .aging 1 fun _ => 10, .dequeue 0, .handle 0, .dequeue 0, .handle 0]

theorem learn_lossless_supplied :
    ∃ s, run true (create 1 (fun _ => ⟨.natFirst, 0, fun _ => ⟨0, 0, 0, 0⟩⟩) fun _ =>
      false) exampleEvents = .ok s :=
  (learn_lossless true 1 _ _ exampleEvents).1 (by decide +kernel)

/-- The thread reads one message with both entries. -/
example : (run true (create 1 (fun _ => ⟨.natFirst, 0, fun _ => ⟨0, 0, 0, 0⟩⟩) fun _ =>
    false) exampleEvents).map
    (fun s => s.handled 0) = .ok [[⟨1, 2, 5, 3⟩, ⟨1, 2, 6, 4⟩]] := by decide +kernel

end CNatRxManager

/-! ## 8. The slot of a thread -/

section Slot

variable {κ : Type} [DecidableEq κ]

/-- The slot of a thread in learn mode, as a batch. -/
def LearnThread.slot (s : LearnThread κ) (since : Rat) : Batch Rat CNatFlowInfo :=
  ⟨s.ring, s.curNatMsg.getD [], since⟩

/-- **What a thread in learn mode assumes of the RX core** is what the manager does. -/
theorem handlePacketIpv4_slot (s : LearnThread κ) (option : CNatOption) (ipv4 : RxPacket)
    (maxThreads : UInt8) (hthread : s.threadId < maxThreads) (since now : Rat) :
    ∃ since', (handlePacketIpv4 s option ipv4).slot since' =
      match CNatRxManager.entryOf maxThreads s.threadId.toNat option ipv4 with
      | none => s.slot since
      | some msg => (s.slot since).push maxNatFlowInfo now msg := by
  unfold handlePacketIpv4 CNatRxManager.entryOf
  by_cases hmine : option.threadId = s.threadId
  · rw [if_neg (not_not.mpr hmine)]
    by_cases hproto : ipv4.protocol = 6 ∨ ipv4.protocol = 17
    · have hproto' : ¬ (ipv4.protocol ≠ 6 ∧ ipv4.protocol ≠ 17) := by
        rintro ⟨h6, h17⟩
        exact hproto.elim h6 h17
      have hvalid : option.threadId < maxThreads ∧ (ipv4.protocol = 6 ∨ ipv4.protocol = 17) ∧
          option.threadId.toNat = s.threadId.toNat := ⟨hmine ▸ hthread, hproto, congrArg _ hmine⟩
      rw [if_neg hproto', if_pos hvalid]
      refine ⟨if (s.curNatMsg.getD []).isEmpty then now else since, ?_⟩
      by_cases hfull : (s.curNatMsg.getD [] ++
          [CNatFlowInfo.mk ipv4.sourceIp ipv4.destIp option.fid ipv4.sourcePort]).length =
            maxNatFlowInfo
      · simp only [LearnThread.slot, Batch.push, if_pos hfull, flushNode, Batch.flush,
          Option.getD_none]
        exact (if_pos hfull).symm
      · simp only [LearnThread.slot, Batch.push, if_neg hfull, Option.getD_some]
        exact (if_neg hfull).symm
    · have hproto' : ipv4.protocol ≠ 6 ∧ ipv4.protocol ≠ 17 := not_or.mp hproto
      rw [if_pos hproto', if_neg fun hvalid => hproto hvalid.2.1]
      exact ⟨since, rfl⟩
  · rw [if_pos hmine, if_neg fun hvalid => hmine (UInt8.toNat_inj.mp hvalid.2.2)]
    exact ⟨since, rfl⟩

end Slot

end Trex.Flow
