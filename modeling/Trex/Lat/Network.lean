/-
# Pairs of latency ports

The latency ports of a manager and the packets that are on the way between them: a packet that port
`i` sends goes to `swapPort i`.  The network may lose packets, repeat them and change their order,
and a NAT on the way may change their source address.

Every packet has a number that the program does not see, its place among the packets that its port
sent since the last reset.  `sent` and `received` say how many packets a port sent since then, and
the numbers of those it got.  `asked` and `heard` are the ICMP sequence numbers that it sent and
got, from the beginning.

A packet that the driver does not take is a packet that is sent and lost: the port has counted it.
-/
import Mathlib.Data.UInt
import Trex.Lat.Port
import Trex.Lib.Serial

namespace Trex.Lat

open Trex.Lib CCPortLatency CLatencyManager List
open Function (update update_of_ne update_self)

/-! ## 1. The network -/

/-- A packet on the way, with its number. -/
structure Flight where
  number : Nat
  pkt : LatencyPkt
deriving DecidableEq, Repr

structure LatencyNet where
  mgr : CLatencyManager
  wire : Nat → List Flight
  sent : Nat → Nat
  received : Nat → List Nat
  asked : Nat → List UInt16
  heard : Nat → List UInt16

/-- What may happen: `set_mask`, `send_pkt_all_ports`, a packet (the `k`-th on the way to port `i`)
that arrives, is lost or is repeated, and `reset`. -/
inductive LatencyMove
  | setMask (mask : UInt32)
  | sendAll (io : Nat → Bool) (now : Nat → UInt64)
  | deliver (i k : Nat) (vlan : Bool) (sourceIp : UInt32)
  | drop (i k : Nat)
  | duplicate (i k : Nat)
  | reset

namespace LatencyNet

/-- Behind `Create`: nothing was sent. -/
def ofManager (mgr : CLatencyManager) : LatencyNet where
  mgr := mgr
  wire := fun _ => []
  sent := fun _ => 0
  received := fun _ => []
  asked := fun _ => []
  heard := fun _ => []

/-- Port `i` has sent `pkt`; the driver took it or not. -/
def post (i : Nat) (io : Bool) (pkt : LatencyPkt) (s : LatencyNet) : LatencyNet :=
  let j := swapPort i
  { s with
    wire := if io then update s.wire j (s.wire j ++ [⟨s.sent i, pkt⟩]) else s.wire
    sent := update s.sent i (s.sent i + 1)
    asked := update s.asked i (s.asked i ++ [pkt.icmp.seqNum]) }

/-- One turn of the loop of `send_pkt_all_ports`. -/
def sendOne (o : LatencyOptions) (io : Nat → Bool) (now : Nat → UInt64) (s : LatencyNet) (i : Nat) :
    LatencyNet :=
  match s.mgr.sendPkt o (io i) (now i) i with
  | (mgr, some pkt) => post i (io i) pkt { s with mgr := mgr }
  | (mgr, none) => { s with mgr := mgr }

/-- `send_pkt_all_ports` -/
def sendPktAllPorts (o : LatencyOptions) (io : Nat → Bool) (now : Nat → UInt64) (s : LatencyNet) :
    LatencyNet :=
  (List.range s.mgr.maxPorts).foldl (sendOne o io now) s

/-- Port `i` gets a packet that is no longer on the way. -/
def arrive (o : LatencyOptions) (i : Nat) (vlan : Bool) (sourceIp : UInt32) (f : Flight)
    (s : LatencyNet) :
    LatencyNet :=
  { s with
    mgr := s.mgr.handleRxPkt o i (f.pkt.arrive s.mgr.mode vlan sourceIp)
    received := update s.received i (s.received i ++ [f.number])
    heard := update s.heard i (s.heard i ++ [f.pkt.icmp.seqNum]) }

/-- Nothing is on the way. -/
def Drained (s : LatencyNet) : Prop := ∀ i < s.mgr.maxPorts, s.wire i = []

instance (s : LatencyNet) : Decidable s.Drained := inferInstanceAs (Decidable (∀ i < _, _))

/-- One move; `none` where it is not possible: there is no such packet, or packets are on the way to
ports that are reset. -/
def step (o : LatencyOptions) (s : LatencyNet) : LatencyMove → Option LatencyNet
  | .setMask mask => some { s with mgr := s.mgr.setMask mask }
  | .sendAll io now => some (s.sendPktAllPorts o io now)
  | .deliver i k vlan sourceIp =>
    match (s.wire i)[k]? with
    | none => none
    | some f =>
      some (arrive o i vlan sourceIp f { s with wire := update s.wire i ((s.wire i).eraseIdx k) })
  | .drop i k =>
    match (s.wire i)[k]? with
    | none => none
    | some _ => some { s with wire := update s.wire i ((s.wire i).eraseIdx k) }
  | .duplicate i k =>
    match (s.wire i)[k]? with
    | none => none
    | some f => some { s with wire := update s.wire i (s.wire i ++ [f]) }
  | .reset =>
    if s.Drained then some { s with mgr := s.mgr.reset, sent := fun _ => 0, received := fun _ =>
      [] } else none

/-- The states that are reached from `s` by moves that `ok` admits. -/
inductive Reachable (o : LatencyOptions) (ok : LatencyNet → LatencyMove → Prop) (s : LatencyNet) :
    LatencyNet → Prop
  | init : Reachable o ok s s
  | step {s' s'' : LatencyNet} {move : LatencyMove} (h : Reachable o ok s s') (hok : ok s' move)
      (hstep : s'.step o move = some s'') : Reachable o ok s s''

/-- What a list of moves reaches, where `ok` admits each of them. -/
def run (o : LatencyOptions) (ok : LatencyNet → LatencyMove → Prop)
    [∀ s move, Decidable (ok s move)] (s : LatencyNet) : List LatencyMove → Option LatencyNet
  | [] => some s
  | move :: rest => if ok s move then (s.step o move).bind fun s' => s'.run o ok rest else none

variable {o : LatencyOptions} {s s' s'' : LatencyNet} {move : LatencyMove}

variable {ok : LatencyNet → LatencyMove → Prop}

theorem Reachable.trans (h : Reachable o ok s s') (h' : Reachable o ok s' s'') :
    Reachable o ok s s'' := by
  induction h' with
  | init => exact h
  | step _ hok hstep ih => exact ih.step hok hstep

theorem reachable_run [∀ s move, Decidable (ok s move)] (moves : List LatencyMove) :
    ∀ {s s' : LatencyNet}, s.run o ok moves = some s' → Reachable o ok s s' := by
  induction moves with
  | nil =>
    intro s s' h
    cases h
    exact .init
  | cons move rest ih =>
    intro s s' h
    by_cases hok : ok s move
    · rw [run, if_pos hok] at h
      obtain ⟨t, hstep, hrest⟩ := Option.bind_eq_some_iff.mp h
      exact (Reachable.init.step hok hstep).trans (ih hrest)
    · rw [run, if_neg hok] at h
      cases h

/-- **An invariant of the moves that are admitted.** -/
theorem Reachable.induct {P : LatencyNet → Prop} (h0 : P s)
    (hpres : ∀ t t' move, P t → ok t move → t.step o move = some t' → P t')
    (h : Reachable o ok s s') : P s' := by
  induction h with
  | init => exact h0
  | step _ hok hstep ih => exact hpres _ _ _ ih hok hstep

end LatencyNet

/-! ## 2. What a port does with a packet -/

section Port

variable {o : LatencyOptions} {mode : CLatencyPktMode} {i : Nat} {p p' : CCPortLatency}
    {pkt : LatencyPkt}

/-- The sequence numbers that a port expects, and those it did not get. -/
def CCPortLatency.checker (p : CCPortLatency) : Checker UInt32 := ⟨p.rxSeq, p.seqError⟩

/-- The number of the port does not hide the magic number. -/
theorem latencyMagic_id (id : UInt8) :
    (latencyMagic ||| id.toUInt32) &&& 0xffffff00 = latencyMagic := by
  have hall : ∀ n : Fin 256, (latencyMagic ||| (UInt8.ofFin n).toUInt32) &&& 0xffffff00 =
      latencyMagic := by
    decide +kernel
  exact hall id.toFin

/-- A packet that the ports take for a latency packet. -/
def LatencyPkt.IsMarked (pkt : LatencyPkt) : Prop := pkt.header.magic &&& 0xffffff00 = latencyMagic

/-- What `update_packet` makes of port `i` and of a packet. -/
structure Sends (mode : CLatencyPktMode) (i : Nat) (p p' : CCPortLatency) (pkt : LatencyPkt) :
    Prop where
  seq : pkt.header.seq = p.txSeq
  marked : pkt.IsMarked
  txSeq : p'.txSeq = p.txSeq + 1
  checker : p'.checker = p.checker
  pktSize : p'.pktSize = p.pktSize
  icmpTxSeq : p'.icmpTxSeq = (mode.updatePkt (i % 2 == 0) p.icmpTxSeq mode.getPacketData).2
  icmpRxSeq : p'.icmpRxSeq = p.icmpRxSeq
  icmp : pkt.icmp = (mode.updatePkt (i % 2 == 0) p.icmpTxSeq mode.getPacketData).1

/-- **Port `i` in a round**: it does nothing, or it may send and sends. -/
theorem sendPkt_cases (o : LatencyOptions) (io : Bool) (now : UInt64) (i : Nat)
    (mgr : CLatencyManager) :
    mgr.sendPkt o io now i = (mgr, none) ∨
      ∃ p' pkt, mgr.sendPkt o io now i = (mgr.setPort i p', some pkt) ∧
        Sends mgr.mode i (mgr.ports i) p' pkt ∧
        mgr.portMask &&& (1 <<< UInt32.ofNat i) ≠ 0 ∧ (mgr.ports i).canSendPacket o (i % 2) := by
  by_cases hmay : mgr.portMask &&& (1 <<< UInt32.ofNat i) ≠ 0 ∧
    (mgr.ports i).canSendPacket o (i % 2)
  · refine .inr ⟨_, _, by rw [CLatencyManager.sendPkt, if_pos hmay], ?_, hmay⟩
    cases io <;> exact ⟨rfl, latencyMagic_id _, rfl, rfl, rfl, rfl, rfl, rfl⟩
  · exact .inl (by rw [CLatencyManager.sendPkt, if_neg hmay])

/-- What `check_packet` makes of a port that gets the latency packet `pkt`. -/
structure Hears (mode : CLatencyPktMode) (pkt : LatencyPkt) (p p' : CCPortLatency) : Prop where
  checker : p'.checker = p.checker.check pkt.header.seq
  txSeq : p'.txSeq = p.txSeq
  pktSize : p'.pktSize = p.pktSize
  icmp : (p'.icmpRxSeq, p'.icmpTxSeq) = mode.updateRecv pkt.icmp p.icmpRxSeq p.icmpTxSeq

/-- The check of the sequence number is the receiver of serial numbers. -/
theorem checkSeq_checker (seq : UInt32) (p : CCPortLatency) :
    (checkSeq seq p).1.checker = p.checker.check seq := by
  by_cases hseq : seq = p.rxSeq
  · simp [checkSeq, checker, Checker.check, hseq]
  · simp [checkSeq, checker, Checker.check, hseq]

theorem checkSeq_rest (seq : UInt32) (p : CCPortLatency) :
    (checkSeq seq p).1.txSeq = p.txSeq ∧ (checkSeq seq p).1.pktSize = p.pktSize ∧
      (checkSeq seq p).1.icmpRxSeq = p.icmpRxSeq ∧ (checkSeq seq p).1.icmpTxSeq = p.icmpTxSeq := by
  unfold checkSeq
  split <;> exact ⟨rfl, rfl, rfl, rfl⟩

theorem getPacketLen_eq (mode : CLatencyPktMode) : mode.getPacketLen = 62 := by cases mode <;> rfl

theorem getProtocol_ne : ∀ mode : CLatencyPktMode, mode.getProtocol ≠ 0
  | .sctp _ => by simp [CLatencyPktMode.getProtocol]
  | .icmp _ => by simp [CLatencyPktMode.getProtocol]

/-- A latency packet of the right size: the port has learned the address or not, and the check of
the number does not look at that. -/
theorem checkLatencyPkt_hears {m : RxPacket} (sourceIp : UInt32) (hm : m.icmp = pkt.icmp)
    (hheader : m.header = pkt.header) (hsize : m.pktLen = p.pktSize + m.vlanOffset) :
    Hears mode pkt p (checkLatencyPkt o mode sourceIp m.pktLen m p).1 := by
  have hstep : ∀ q : CCPortLatency, q.checker = p.checker → q.txSeq = p.txSeq →
      q.pktSize = p.pktSize → q.icmpRxSeq = p.icmpRxSeq → q.icmpTxSeq = p.icmpTxSeq →
      Hears mode pkt p (checkSeq m.header.seq
        { q with
          icmpRxSeq := (mode.updateRecv m.icmp q.icmpRxSeq q.icmpTxSeq).1
          icmpTxSeq := (mode.updateRecv m.icmp q.icmpRxSeq q.icmpTxSeq).2 }).1 := by
    intro q hchecker htx hsz hrx hicmp
    obtain ⟨h1, h2, h3, h4⟩ := checkSeq_rest m.header.seq
      { q with
        icmpRxSeq := (mode.updateRecv m.icmp q.icmpRxSeq q.icmpTxSeq).1
        icmpTxSeq := (mode.updateRecv m.icmp q.icmpRxSeq q.icmpTxSeq).2 }
    refine ⟨?_, h1.trans htx, h2.trans hsz, ?_⟩
    · rw [checkSeq_checker, ← hchecker, hheader]
      rfl
    · rw [h3, h4, hrx, hicmp, hm]
  by_cases hlearn : (o.learnMode && !p.natLearn) = true
  · have hsize' : m.pktLen = (p.doLearn sourceIp).pktSize + m.vlanOffset := hsize
    rw [checkLatencyPkt, if_pos hlearn, if_neg (not_not_intro hsize')]
    exact hstep (p.doLearn sourceIp) rfl rfl rfl rfl rfl
  · rw [checkLatencyPkt, if_neg hlearn, if_neg (not_not_intro hsize)]
    exact hstep p rfl rfl rfl rfl rfl

/-- **A latency packet reaches the check of its number**, with a VLAN tag or not, and from any
address. -/
theorem checkPacket_arrive (vlan : Bool) (sourceIp : UInt32) (hmark : pkt.IsMarked)
    (hsize : p.pktSize = mode.getPacketLen) :
    Hears mode pkt p (p.checkPacket o mode (pkt.arrive mode vlan sourceIp)).port := by
  have hlatency : (pkt.arrive mode vlan sourceIp).isLatencyPkt mode = true := by
    simp only [RxPacket.isLatencyPkt, LatencyPkt.arrive, beq_self_eq_true, Bool.true_and]
    exact beq_iff_eq.mpr hmark
  have hprot : (pkt.arrive mode vlan sourceIp).protocol ≠ 0 := getProtocol_ne mode
  have hcrc : ¬ (pkt.arrive mode vlan sourceIp).getPktSize + 4 =
      (pkt.arrive mode vlan sourceIp).pktLen := by
    simp only [RxPacket.getPktSize, LatencyPkt.arrive, getPacketLen_eq mode]
    omega
  have hcheck : (p.checkPacket o mode (pkt.arrive mode vlan sourceIp)).port =
      (checkLatencyPkt o mode sourceIp (pkt.arrive mode vlan sourceIp).pktLen
        (pkt.arrive mode vlan sourceIp) p).1 := by
    rw [checkPacket, if_neg hprot, if_neg hcrc]
    simp only [hlatency, Bool.not_true, Bool.false_eq_true, if_false]
    rfl
  rw [hcheck]
  refine checkLatencyPkt_hears sourceIp rfl rfl ?_
  rw [hsize]
  rfl

end Port

/-! ## 3. What a move changes -/

theorem swapPort_swapPort (i : Nat) : swapPort (swapPort i) = i := by
  unfold swapPort
  omega

theorem swapPort_ne (i : Nat) : swapPort i ≠ i := by
  unfold swapPort
  omega

theorem swapPort_lt {i m : Nat} (hi : i < m) (hm : m % 2 = 0) : swapPort i < m := by
  unfold swapPort
  omega

namespace LatencyNet

variable {o : LatencyOptions} {s s' : LatencyNet} {move : LatencyMove} {i k : Nat}

/-- **One turn of a round**: nothing, or port `i` sends. -/
theorem sendOne_cases (o : LatencyOptions) (io : Nat → Bool) (now : Nat → UInt64) (s : LatencyNet)
    (i : Nat) :
    sendOne o io now s i = s ∨
      ∃ p' pkt, sendOne o io now s i = post i (io i) pkt { s with mgr := s.mgr.setPort i p' } ∧
        Sends s.mgr.mode i (s.mgr.ports i) p' pkt ∧
        s.mgr.portMask &&& (1 <<< UInt32.ofNat i) ≠ 0 ∧
            (s.mgr.ports i).canSendPacket o (i % 2) := by
  unfold sendOne
  obtain hnone | ⟨p', pkt, hsome, hrest⟩ := sendPkt_cases o (io i) (now i) i s.mgr
  · rw [hnone]
    exact .inl rfl
  · rw [hsome]
    exact .inr ⟨p', pkt, rfl, hrest⟩

variable {f : Flight}

/-- What is on the way behind a packet of port `i`. -/
theorem mem_wire_post {io : Bool} {pkt : LatencyPkt} (h : f ∈ (post i io pkt s).wire k) :
    f ∈ s.wire k ∨ k = swapPort i ∧ f = ⟨s.sent i, pkt⟩ := by
  cases io with
  | false => exact .inl h
  | true =>
    by_cases hk : k = swapPort i
    · subst hk
      simp only [post, if_true, update_self] at h
      rcases mem_append.mp h with hold | hnew
      · exact .inl hold
      · exact .inr ⟨rfl, mem_singleton.mp hnew⟩
    · simp only [post, if_true, update_of_ne hk] at h
      exact .inl h

variable {n : Nat} {now : Nat → UInt64}

/-- What is on the way when a packet was taken away. -/
theorem mem_wire_erase (h : f ∈ update s.wire i ((s.wire i).eraseIdx n) k) :
    f ∈ s.wire k := by
  by_cases hk : k = i
  · subst hk
    rw [update_self] at h
    exact mem_of_mem_eraseIdx h
  · rwa [update_of_ne hk] at h

/-- What is on the way when a packet was repeated. -/
theorem mem_wire_repeat {f' : Flight} (hget : (s.wire i)[n]? = some f')
    (h : f ∈ update s.wire i (s.wire i ++ [f']) k) : f ∈ s.wire k := by
  by_cases hk : k = i
  · subst hk
    rw [update_self] at h
    rcases mem_append.mp h with hold | hnew
    · exact hold
    · rw [mem_singleton.mp hnew]
      exact mem_of_getElem? hget
  · rwa [update_of_ne hk] at h

/-- **The moves, one by one**: a step is a round, the arrival of a packet, a reset, or it changes no
more than the mask and what is on the way, where no packet is new. -/
theorem step_cases (h : s.step o move = some s') :
    (∃ io now, move = .sendAll io now ∧ s' = s.sendPktAllPorts o io now) ∨
    (∃ i k vlan ip f, move = .deliver i k vlan ip ∧ (s.wire i)[k]? = some f ∧
      s' = arrive o i vlan ip f { s with wire := update s.wire i ((s.wire i).eraseIdx k) }) ∨
    (move = .reset ∧ s.Drained ∧
      s' = { s with mgr := s.mgr.reset, sent := fun _ => 0, received := fun _ => [] }) ∨
    ((∀ i k v ip, move ≠ .deliver i k v ip) ∧ (∃ mask wire, (∀ i, ∀ f ∈ wire i, f ∈ s.wire i) ∧
      s' = { s with mgr := s.mgr.setMask mask, wire := wire })) := by
  cases move with
  | setMask mask =>
    cases h
    exact .inr (.inr (.inr ⟨fun _ _ _ _ => LatencyMove.noConfusion, mask, s.wire, fun _ _ hf =>
      hf, rfl⟩))
  | sendAll io now =>
    cases h
    exact .inl ⟨io, now, rfl, rfl⟩
  | deliver i k vlan ip =>
    cases hget : (s.wire i)[k]? with
    | none => simp only [step, hget, reduceCtorEq] at h
    | some f =>
      simp only [step, hget, Option.some.injEq] at h
      exact .inr (.inl ⟨i, k, vlan, ip, f, rfl, hget, h.symm⟩)
  | drop i k =>
    cases hget : (s.wire i)[k]? with
    | none => simp only [step, hget, reduceCtorEq] at h
    | some f =>
      simp only [step, hget, Option.some.injEq] at h
      exact .inr (.inr (.inr ⟨fun _ _ _ _ => LatencyMove.noConfusion, s.mgr.portMask, _,
        fun _ _ => mem_wire_erase, h.symm⟩))
  | duplicate i k =>
    cases hget : (s.wire i)[k]? with
    | none => simp only [step, hget, reduceCtorEq] at h
    | some f =>
      simp only [step, hget, Option.some.injEq] at h
      exact .inr (.inr (.inr ⟨fun _ _ _ _ => LatencyMove.noConfusion, s.mgr.portMask, _,
        fun _ _ => mem_wire_repeat hget, h.symm⟩))
  | reset =>
    by_cases hdrained : s.Drained
    · simp only [step, if_pos hdrained, Option.some.injEq] at h
      exact .inr (.inr (.inl ⟨rfl, hdrained, h.symm⟩))
    · simp only [step, if_neg hdrained, reduceCtorEq] at h

/-- What every turn of a round keeps, a round keeps. -/
theorem sendPktAllPorts_induct {P : LatencyNet → Prop} {io : Nat → Bool}
    (hturn : ∀ t i, P t → P (sendOne o io now t i)) (h : P s) : P (s.sendPktAllPorts o io now) := by
  unfold sendPktAllPorts
  generalize List.range s.mgr.maxPorts = l
  induction l generalizing s with
  | nil => exact h
  | cons i rest ih => exact ih (hturn s i h)

/-- The packets on the way are latency packets, of the size that the ports check. -/
structure Sound (s : LatencyNet) : Prop where
  pktSize : ∀ i, (s.mgr.ports i).pktSize = s.mgr.mode.getPacketLen
  marked : ∀ i, ∀ f ∈ s.wire i, f.pkt.IsMarked

theorem Sound.sendOne {io : Nat → Bool} (h : s.Sound) :
    (sendOne o io now s i).Sound := by
  obtain heq | ⟨p', pkt, heq, hsends, -⟩ := sendOne_cases o io now s i
  · rwa [heq]
  · rw [heq]
    constructor
    · intro k
      by_cases hk : k = i
      · subst hk
        simp only [post, CLatencyManager.setPort_self]
        exact hsends.pktSize.trans (h.pktSize k)
      · simp only [post, CLatencyManager.setPort_of_ne _ _ hk]
        exact h.pktSize k
    · intro k f hf
      rcases mem_wire_post hf with hold | ⟨-, rfl⟩
      · exact h.marked k f hold
      · exact hsends.marked

/-- **A packet that arrives is heard.** -/
theorem Sound.hears (h : s.Sound) (hget : (s.wire i)[n]? = some f) (vlan : Bool) (ip : UInt32) :
    Hears s.mgr.mode f.pkt (s.mgr.ports i)
      ((s.mgr.ports i).checkPacket o s.mgr.mode (f.pkt.arrive s.mgr.mode vlan ip)).port :=
  checkPacket_arrive vlan ip (h.marked i f (mem_of_getElem? hget)) (h.pktSize i)

theorem Sound.step (h : s.Sound) (hstep : s.step o move = some s') : s'.Sound := by
  obtain ⟨io, now, -, rfl⟩ | ⟨i, n, vlan, ip, f, -, hget, rfl⟩ | ⟨-, -, rfl⟩ | ⟨-, mask, wire,
      hwire, rfl⟩ :=
    step_cases hstep
  · exact sendPktAllPorts_induct (fun t k => Sound.sendOne) h
  · constructor
    · intro k
      by_cases hk : k = i
      · subst hk
        simp only [arrive, CLatencyManager.handleRxPkt_self]
        exact (h.hears hget vlan ip).pktSize.trans (h.pktSize k)
      · simp only [arrive, CLatencyManager.handleRxPkt_of_ne o _ _ hk]
        exact h.pktSize k
    · exact fun k f' hf' => h.marked k f' (mem_wire_erase hf')
  · refine ⟨fun k => ?_, h.marked⟩
    by_cases hk : k < s.mgr.maxPorts
    · simp only [CLatencyManager.reset, if_pos hk]
      exact h.pktSize k
    · simp only [CLatencyManager.reset, if_neg hk]
      exact h.pktSize k
  · exact ⟨h.pktSize, fun k f hf => h.marked k f (hwire k f hf)⟩

/-- Behind `Create`. -/
theorem Sound.ofManager {cfg : CLatencyManagerCfg} {mgr : CLatencyManager}
    (hcreate : CLatencyManager.create o cfg = some mgr) : (ofManager mgr).Sound := by
  unfold CLatencyManager.create at hcreate
  split at hcreate
  · cases hcreate
    exact ⟨fun _ => rfl, fun _ _ hf => absurd hf not_mem_nil⟩
  · cases hcreate

end LatencyNet

end Trex.Lat
